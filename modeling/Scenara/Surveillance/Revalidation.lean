import Mathlib.Data.List.Dedup
import Scenara.Core.Raising
import Scenara.Surveillance.Records

/-!
# Stored records and their validators

A record is validated when it is made; an update copies it with the fields of the request and is
not.
-/

namespace Scenara.Surveillance

open Scenara.Core

variable {s s' : Records} {refs : References} {now : ℚ}

/-! ## What validators ask -/

/-- `valid_until > valid_from` whenever both are set. -/
def PeriodOk (validFrom validUntil : Option Moment) : Prop :=
  ∀ t ∈ validFrom, ∀ u ∈ validUntil, t < u

/-- The nested value is a model. -/
def Nested.Typed {α : Type} (n : Nested α) : Prop := ∃ a, n = .model a

/-- Distinct watchlists, bindings and source/camera pairs; nested models throughout. -/
structure TaskOk (t : SurveillanceTask) : Prop where
  watchlists : t.watchlistIds.val.Nodup
  bindingIds : (t.bindings.val.map fun b => b.value.val.bindingId).Nodup
  pairs : (t.bindings.val.map fun b => b.value.key).Nodup
  bindings : ∀ b ∈ t.bindings.val, b.Typed
  schedule : t.schedule.Typed
  thresholdPolicy : t.thresholdPolicy.Typed

theorem periodInverted_eq_false_iff (validFrom validUntil : Option Moment) :
    periodInverted validFrom validUntil = false ↔ PeriodOk validFrom validUntil := by
  unfold periodInverted PeriodOk
  cases validFrom with
  | none => simp
  | some t =>
    cases validUntil with
    | none | some => simp

theorem validate_member_iff (m : WatchlistMember) :
    m.validate = .ok m ↔ PeriodOk m.validFrom m.validUntil := by
  rw [← periodInverted_eq_false_iff]
  unfold WatchlistMember.validate
  cases periodInverted m.validFrom m.validUntil with
  | true | false => simp

variable {α : Type}

theorem length_dedup_iff [DecidableEq α] (l : List α) :
    l.dedup.length = l.length ↔ l.Nodup := by
  constructor
  · intro h
    rw [← List.dedup_eq_self]
    exact (List.dedup_sublist l).eq_of_length h
  · intro h
    rw [h.dedup]

theorem uniqueWatchlists_eq_nil_iff (ids : List String) :
    uniqueWatchlists ids = [] ↔ ids.Nodup := by
  rw [← length_dedup_iff]
  unfold uniqueWatchlists
  by_cases h : ids.dedup.length ≠ ids.length
  · rw [if_pos h]
    exact iff_of_false (List.cons_ne_nil _ _) h
  · rw [if_neg h]
    exact iff_of_true rfl (not_not.1 h)

theorem uniqueBindings_eq_nil_iff (bindings : List CheckedBinding) :
    uniqueBindings bindings = [] ↔
      (bindings.map fun b => b.val.bindingId).Nodup ∧ (bindings.map CheckedBinding.key).Nodup := by
  rw [← length_dedup_iff, ← length_dedup_iff, List.length_map, List.length_map]
  unfold uniqueBindings
  by_cases hids : (bindings.map fun b => b.val.bindingId).dedup.length ≠ bindings.length
  · rw [if_pos hids]
    exact iff_of_false (List.cons_ne_nil _ _) fun h => hids h.1
  · rw [if_neg hids]
    by_cases hpairs : (bindings.map CheckedBinding.key).dedup.length ≠ bindings.length
    · rw [if_pos hpairs]
      exact iff_of_false (List.cons_ne_nil _ _) fun h => hpairs h.2
    · rw [if_neg hpairs]
      exact iff_of_true rfl ⟨not_not.1 hids, not_not.1 hpairs⟩

theorem validate_eq_self_iff (n : Nested α) : n.validate = n ↔ n.Typed := by
  cases n with
  | model a => exact iff_of_true rfl ⟨a, rfl⟩
  | dump a =>
    refine iff_of_false (fun h => ?_) (fun ⟨b, h⟩ => ?_)
    · cases h
    · cases h

theorem typed_validate (n : Nested α) : n.validate.Typed := by
  cases n with
  | model a | dump a => exact ⟨a, rfl⟩

theorem value_validate (n : Nested α) : n.validate.value = n.value := by
  cases n with
  | model | dump => rfl

theorem map_validate_eq_self_iff (l : List (Nested α)) :
    l.map Nested.validate = l ↔ ∀ b ∈ l, b.Typed := by
  have hmap : l.map Nested.validate = l.map id ↔ ∀ b ∈ l, b.Typed := by
    rw [List.map_inj_left]
    exact forall₂_congr fun b _ => validate_eq_self_iff b
  rwa [List.map_id] at hmap

theorem validate_task_ok {t t' : SurveillanceTask} (h : t.validate = .ok t') :
    (t.watchlistIds.val.Nodup ∧ (t.bindings.val.map fun b => b.value.val.bindingId).Nodup ∧
      (t.bindings.val.map fun b => b.value.key).Nodup) ∧
    t'.watchlistIds = t.watchlistIds ∧ t'.bindings.val = t.bindings.val.map Nested.validate ∧
    t'.schedule = t.schedule.validate ∧ t'.thresholdPolicy = t.thresholdPolicy.validate := by
  unfold SurveillanceTask.validate at h
  dsimp only at h
  split at h
  · cases h
  · next herrors =>
    cases h
    obtain ⟨hwatchlists, hbindings⟩ := List.append_eq_nil_iff.1 (not_not.1 herrors)
    rw [uniqueBindings_eq_nil_iff, List.map_map, List.map_map] at hbindings
    exact ⟨⟨(uniqueWatchlists_eq_nil_iff _).1 hwatchlists, hbindings.1, hbindings.2⟩, rfl, rfl,
      rfl, rfl⟩

theorem taskOk_validate {t t' : SurveillanceTask} (h : t.validate = .ok t') : TaskOk t' := by
  obtain ⟨⟨hwatchlists, hids, hpairs⟩, hw, hb, hs, hp⟩ := validate_task_ok h
  refine ⟨hw ▸ hwatchlists, ?_, ?_, ?_, hs ▸ typed_validate _, hp ▸ typed_validate _⟩
  · rw [hb, List.map_map]
    simpa only [Function.comp_def, value_validate] using hids
  · rw [hb, List.map_map]
    simpa only [Function.comp_def, value_validate] using hpairs
  · rw [hb]
    intro b hmem
    obtain ⟨a, -, rfl⟩ := List.mem_map.1 hmem
    exact typed_validate a

theorem validate_task_iff (t : SurveillanceTask) : t.validate = .ok t ↔ TaskOk t := by
  refine ⟨taskOk_validate, fun h => ?_⟩
  have herrors : uniqueWatchlists t.watchlistIds.val ++
      uniqueBindings (t.bindings.val.map Nested.value) = [] := by
    rw [(uniqueWatchlists_eq_nil_iff _).2 h.watchlists, List.nil_append, uniqueBindings_eq_nil_iff,
      List.map_map, List.map_map]
    exact ⟨h.bindingIds, h.pairs⟩
  have hbindings := (map_validate_eq_self_iff _).2 h.bindings
  unfold SurveillanceTask.validate
  rw [if_neg (not_not.2 herrors)]
  congr
  · exact (validate_eq_self_iff _).2 h.schedule
  · exact (validate_eq_self_iff _).2 h.thresholdPolicy

/-! ## What the calls store -/

/-- Every stored record is in order. -/
structure RecordsOk (s : Records) : Prop where
  members : ∀ id m, s.members.get? id = some m → PeriodOk m.validFrom m.validUntil
  tasks : ∀ id t, s.tasks.get? id = some t → TaskOk t

/-- The update of the member with that revision keeps its period: what the request leaves open is
the stored value. -/
def PeriodKept (s : Records) (watchlistId memberId : Text 2 128) (request : UpdateMemberRequest) :
    Prop :=
  ∀ m, s.members.get? memberId = some m → m.watchlistId = watchlistId →
    m.revision = request.expectedRevision →
    PeriodOk (request.validFrom <|> m.validFrom) (request.validUntil <|> m.validUntil)

/-- The update of the task with that revision, whose references are there and which brings no
bindings, names no watchlist twice and brings neither a schedule nor a threshold policy. -/
def TaskKept (refs : References) (s : Records) (taskId : Text 2 128) (request : UpdateTaskRequest) :
    Prop :=
  ∀ t, s.tasks.get? taskId = some t → t.revision = request.expectedRevision →
    request.bindings = none →
    validateTaskReferences refs (request.watchlistIds.getD t.watchlistIds).val t.bindings.val =
      .ok () →
    (∀ ids ∈ request.watchlistIds, ids.val.Nodup) ∧ request.schedule = none ∧
      request.thresholdPolicy = none

/-- The call keeps records in order. -/
def RecordsKept (s : Records) : RecordCall → Prop
  | .updateMember watchlistId memberId request _ => PeriodKept s watchlistId memberId request
  | .updateTask refs taskId request _ => TaskKept refs s taskId request
  | _ => True

theorem recordsOk_insertMember {m : WatchlistMember} (hs : RecordsOk s) :
    RecordsOk (s.putMember m) ↔ PeriodOk m.validFrom m.validUntil := by
  constructor
  · intro h
    exact h.members m.memberId m (Dict.get?_insert_self _ _ _)
  · intro h
    refine ⟨fun id m' hget => ?_, hs.tasks⟩
    unfold Records.putMember at hget
    rw [Dict.get?_insert] at hget
    by_cases heq : id = m.memberId
    · rw [if_pos heq] at hget
      cases hget
      exact h
    · rw [if_neg heq] at hget
      exact hs.members id m' hget

theorem recordsOk_insertTask {t : SurveillanceTask} (hs : RecordsOk s) :
    RecordsOk (s.putTask t) ↔ TaskOk t := by
  constructor
  · intro h
    exact h.tasks t.taskId t (Dict.get?_insert_self _ _ _)
  · intro h
    refine ⟨hs.members, fun id t' hget => ?_⟩
    unfold Records.putTask at hget
    rw [Dict.get?_insert] at hget
    by_cases heq : id = t.taskId
    · rw [if_pos heq] at hget
      cases hget
      exact h
    · rw [if_neg heq] at hget
      exact hs.tasks id t' hget

theorem validated_ok {x : Except (List String) α} {a : α} (h : validated x = .ok a) :
    x = .ok a := by
  cases x with
  | error e => cases h
  | ok b =>
    cases h
    rfl

theorem createMember_ok {memberId watchlistId : Text 2 128} {request : CreateMemberRequest}
    (h : createMember refs s memberId watchlistId request now = .ok s') (hs : RecordsOk s) :
    RecordsOk s' := by
  unfold createMember at h
  split at h
  · cases h
  · split at h
    · cases h
    · obtain ⟨m, hm, h⟩ := bind_eq_ok.1 h
      have hvalid := validated_ok hm
      have hself : m.validate = .ok m := by
        have hsame := hvalid
        unfold WatchlistMember.validate at hsame
        split at hsame
        · cases hsame
        · cases hsame
          exact hvalid
      unfold Records.createMember at h
      split at h
      · cases h
      · split at h
        · cases h
        · cases h
          exact (recordsOk_insertMember hs).2 ((validate_member_iff m).1 hself)

theorem createTask_ok {taskId : Text 2 128} {request : CreateTaskRequest}
    (h : createTask refs s taskId request now = .ok s') (hs : RecordsOk s) : RecordsOk s' := by
  obtain ⟨_, -, h⟩ := bind_eq_ok.1 h
  obtain ⟨t, ht, h⟩ := bind_eq_ok.1 h
  unfold Records.createTask at h
  split at h
  · cases h
  · cases h
    exact (recordsOk_insertTask hs).2 (taskOk_validate (validated_ok ht))

theorem updateMember_ok {watchlistId memberId : Text 2 128} {request : UpdateMemberRequest} :
    updateMember s watchlistId memberId request now = .ok s' ↔
      ∃ m, s.members.get? memberId = some m ∧ m.watchlistId = watchlistId ∧
        m.revision = request.expectedRevision ∧
        s' = s.putMember
          { mergeMember m request now with revision := request.expectedRevision + 1 } := by
  unfold updateMember
  cases hm : s.members.get? memberId with
  | none => exact iff_of_false nofun (fun ⟨_, h, _⟩ => by cases h)
  | some m =>
    have hsame : s.members.get? (mergeMember m request now).memberId = some m :=
      (congrArg s.members.get? (s.memberId_eq memberId m hm)).trans hm
    simp only [Option.some.injEq, exists_eq_left']
    by_cases hlist : m.watchlistId = watchlistId
    · rw [if_neg (not_not.2 hlist)]
      unfold Records.saveMember
      rw [hsame]
      dsimp only
      by_cases hrevision : m.revision = request.expectedRevision
      · rw [if_neg (not_not.2 hrevision), Except.ok.injEq]
        exact ⟨fun h => ⟨hlist, hrevision, h.symm⟩, fun h => h.2.2.symm⟩
      · rw [if_pos hrevision]
        exact iff_of_false nofun (fun h => hrevision h.2.1)
    · rw [if_pos hlist]
      exact iff_of_false nofun (fun h => hlist h.1)

theorem references_dump (watchlistIds : List String) (bindings : Listed 1 512 CheckedBinding) :
    validateTaskReferences refs watchlistIds (nestBindings .dump bindings).val ≠ .ok () := by
  intro h
  obtain ⟨_, -, h⟩ := bind_eq_ok.1 h
  obtain ⟨l, hl⟩ := bindings
  cases l with
  | nil => exact absurd hl.1 (by decide)
  | cons b => cases h

theorem updateTask_ok {taskId : Text 2 128} {request : UpdateTaskRequest} :
    updateTask refs s taskId request now = .ok s' ↔
      ∃ t, s.tasks.get? taskId = some t ∧ t.revision = request.expectedRevision ∧
        request.bindings = none ∧
        validateTaskReferences refs (request.watchlistIds.getD t.watchlistIds).val t.bindings.val =
          .ok () ∧
        s' = s.putTask
          { mergeTask t request now with revision := request.expectedRevision + 1 } := by
  unfold updateTask
  cases ht : s.tasks.get? taskId with
  | none => exact iff_of_false nofun (fun ⟨_, h, _⟩ => by cases h)
  | some t =>
    have hsame : s.tasks.get? (mergeTask t request now).taskId = some t :=
      (congrArg s.tasks.get? (s.taskId_eq taskId t ht)).trans ht
    simp only [Option.some.injEq, exists_eq_left']
    rw [bind_eq_ok]
    unfold Records.saveTask
    rw [hsame]
    dsimp only
    cases hbindings : request.bindings with
    | some bindings =>
      have hdump : (mergeTask t request now).bindings = nestBindings .dump bindings := by
        unfold mergeTask
        rw [hbindings]
        rfl
      rw [hdump]
      exact iff_of_false (fun ⟨_, h, _⟩ => references_dump _ _ h) (fun h => by cases h.2.1)
    | none =>
      have hkeep : (mergeTask t request now).bindings = t.bindings := by
        unfold mergeTask
        rw [hbindings]
        rfl
      rw [hkeep]
      by_cases hrevision : t.revision = request.expectedRevision
      · rw [if_neg (not_not.2 hrevision), Except.ok.injEq]
        constructor
        · rintro ⟨_, hrefs, rfl⟩
          exact ⟨hrevision, rfl, hrefs, rfl⟩
        · rintro ⟨-, -, hrefs, rfl⟩
          exact ⟨(), hrefs, rfl⟩
      · rw [if_pos hrevision]
        exact iff_of_false (fun ⟨_, _, h⟩ => by cases h) (fun h => hrevision h.1)

theorem taskOk_merge {t : SurveillanceTask} {request : UpdateTaskRequest} {revision : Nat}
    (ht : TaskOk t) (hbindings : request.bindings = none) :
    TaskOk { mergeTask t request now with revision := revision } ↔
      (∀ ids ∈ request.watchlistIds, ids.val.Nodup) ∧ request.schedule = none ∧
        request.thresholdPolicy = none := by
  have hkeep : (mergeTask t request now).bindings = t.bindings := by
    unfold mergeTask
    rw [hbindings]
    rfl
  have hwatchlists : (mergeTask t request now).watchlistIds.val.Nodup ↔
      ∀ ids ∈ request.watchlistIds, ids.val.Nodup := by
    unfold mergeTask
    cases request.watchlistIds with
    | none => exact iff_of_true ht.watchlists nofun
    | some => simp
  have hschedule : (mergeTask t request now).schedule.Typed ↔ request.schedule = none := by
    unfold mergeTask
    cases request.schedule with
    | none => exact iff_of_true ht.schedule rfl
    | some => exact iff_of_false (fun ⟨_, h⟩ => by cases h) nofun
  have hpolicy : (mergeTask t request now).thresholdPolicy.Typed ↔
      request.thresholdPolicy = none := by
    unfold mergeTask
    cases request.thresholdPolicy with
    | none => exact iff_of_true ht.thresholdPolicy rfl
    | some => exact iff_of_false (fun ⟨_, h⟩ => by cases h) nofun
  rw [← hwatchlists, ← hschedule, ← hpolicy]
  constructor
  · intro h
    exact ⟨h.watchlists, h.schedule, h.thresholdPolicy⟩
  · rintro ⟨hw, hs, hp⟩
    exact ⟨hw, hkeep ▸ ht.bindingIds, hkeep ▸ ht.pairs, hkeep ▸ ht.bindings, hs, hp⟩

/-! ## Runs -/

theorem recordsOk_empty : RecordsOk .empty where
  members id m h := by
    unfold Records.empty at h
    simp [Dict.get?_empty] at h
  tasks id t h := by
    unfold Records.empty at h
    simp [Dict.get?_empty] at h

theorem recordsOk_run {call : RecordCall} (hs : RecordsOk s) (h : call.run s = .ok s') :
    RecordsOk s' ↔ RecordsKept s call := by
  cases call with
  | createMember => exact iff_of_true (createMember_ok h hs) trivial
  | createTask => exact iff_of_true (createTask_ok h hs) trivial
  | updateMember =>
    obtain ⟨m, hm, hlist, hrevision, rfl⟩ := updateMember_ok.1 h
    rw [recordsOk_insertMember hs]
    constructor
    · intro hok _ hm' _ _
      cases hm.symm.trans hm'
      exact hok
    · intro hkept
      exact hkept m hm hlist hrevision
  | updateTask _ taskId =>
    obtain ⟨t, ht, hrevision, hbindings, hrefs, rfl⟩ := updateTask_ok.1 h
    rw [recordsOk_insertTask hs, taskOk_merge (hs.tasks taskId t ht) hbindings]
    constructor
    · intro hok _ ht' _ _ _
      cases ht.symm.trans ht'
      exact hok
    · intro hkept
      exact hkept t ht hrevision hbindings hrefs

theorem recordsKept_error {call : RecordCall} {e : RecordError} (h : call.run s = .error e) :
    RecordsKept s call := by
  cases call with
  | createMember | createTask => trivial
  | updateMember =>
    intro m hm hlist hrevision
    cases h.symm.trans (updateMember_ok.2 ⟨m, hm, hlist, hrevision, rfl⟩)
  | updateTask =>
    intro t ht hrevision hbindings hrefs
    cases h.symm.trans (updateTask_ok.2 ⟨t, ht, hrevision, hbindings, hrefs, rfl⟩)

theorem recordsOk_record {call : RecordCall} (hs : RecordsOk s) (h : record s call = some s') :
    RecordsOk s' ↔ RecordsKept s call := by
  unfold record at h
  split at h
  · next hrun =>
    cases h
    exact recordsOk_run hs hrun
  · next hrun =>
    cases h
    exact iff_of_true hs (recordsKept_error hrun)

/-- Validating a stored record again does not fail. -/
def Revalidates (s : Records) : Prop :=
  (∀ id m, s.members.get? id = some m → ∃ m', m.validate = .ok m') ∧
    ∀ id t, s.tasks.get? id = some t → ∃ t', t.validate = .ok t'

theorem revalidates_of_ok (hs : RecordsOk s) : Revalidates s :=
  ⟨fun id m hm => ⟨m, (validate_member_iff m).2 (hs.members id m hm)⟩,
    fun id t ht => ⟨t, (validate_task_iff t).2 (hs.tasks id t ht)⟩⟩

/-- **Stored records are in order**, and validate again, in every state of a run **iff** every
accepted update of a member keeps its period, and every accepted update of a task names no watchlist
twice and brings neither a schedule nor a threshold policy. -/
theorem records_iff (calls : List RecordCall) :
    (∀ s ∈ states record .empty calls, RecordsOk s ∧ Revalidates s) ↔
      Along record RecordsKept .empty calls := by
  have hstuck : ∀ s call, record s call = none → RecordsKept s call := fun s call h => by
    unfold record at h
    split at h <;> cases h
  rw [← states_iff hstuck (fun s call s' => recordsOk_record) recordsOk_empty]
  exact forall₂_congr fun s _ => ⟨And.left, fun hs => ⟨hs, revalidates_of_ok hs⟩⟩

/-! ## Updates that are not validated -/

/-- Everything is there. -/
def allThere : References := ⟨fun _ => some .active, fun _ => true, fun _ => true, fun _ => true⟩

/-- An id. -/
def recordId : Text 2 128 := ⟨"id", by decide⟩

/-- A member from 100 on. -/
def memberRequest : CreateMemberRequest := ⟨recordId, ⟨"", by decide⟩, some ⟨100, by decide⟩, none⟩

/-- Valid until 50. -/
def untilRequest : UpdateMemberRequest := ⟨1, none, none, none, some ⟨50, by decide⟩⟩

/-- A task on one watchlist, one binding, always active. -/
def taskRequest : CreateTaskRequest where
  name := ⟨"task", by decide⟩
  watchlistIds := ⟨["a"], by decide⟩
  bindings := ⟨[⟨⟨"b1", "s1", "c1", none, none, none⟩, by decide⟩], by decide⟩
  schedule :=
    { timezone := "UTC"
      weekly := []
      exceptions := []
      timezone_length := by decide
      weekly_length := by decide
      windows := nofun
      exceptions_length := by decide
      dates := by decide }
  matchPolicy := .alertOnMatch
  thresholdPolicy :=
    { policyVersion := ⟨"1", by decide⟩
      faceThreshold := some ⟨0, by decide⟩
      bodyThreshold := none
      minFaceQuality := ⟨0, by decide⟩
      minBodyQuality := ⟨0, by decide⟩
      faceWeight := ⟨1, by decide⟩
      bodyWeight := ⟨0, by decide⟩
      thresholds := by decide
      weights := by decide +kernel }
  cooldownSeconds := ⟨30, by decide⟩
  alertLevel := .warning

/-- The same watchlist twice. -/
def twiceRequest : UpdateTaskRequest :=
  ⟨1, none, some ⟨["a", "a"], by decide⟩, none, none, none, none, none, none⟩

/-- The schedule the task has. -/
def scheduleRequest : UpdateTaskRequest :=
  ⟨1, none, none, none, some taskRequest.schedule, none, none, none, none⟩

/-- A call, and then another. -/
def after (create update : RecordCall) : Records :=
  (exec record .empty [create, update]).getD .empty

theorem after_mem {create update : RecordCall}
    (h : (exec record .empty [create, update]).isSome = true) :
    after create update ∈ states record .empty [create, update] := by
  obtain ⟨s, hs⟩ := Option.isSome_iff_exists.1 h
  refine mem_states_of_exec ?_
  unfold after
  rw [hs]
  rfl

/-- The member's creation and its update. -/
def memberCreated : RecordCall := .createMember allThere recordId recordId memberRequest 0

/-- An update of a member. -/
def memberUpdated : RecordCall := .updateMember recordId recordId untilRequest 1

/-- The task's creation, and an update. -/
def taskCreated : RecordCall := .createTask allThere recordId taskRequest 0

/-- An update of a task. -/
def taskUpdated (request : UpdateTaskRequest) :
    RecordCall := .updateTask allThere recordId request 1

/-- **Updates store what creation refuses**: a period that ends before it starts, a watchlist twice
(both fail to validate again), a schedule that is a dictionary. -/
theorem update_invalidates :
    (∃ s ∈ states record .empty [memberCreated, memberUpdated], ¬RecordsOk s ∧ ¬Revalidates s) ∧
    (∃ s ∈ states record .empty [taskCreated, taskUpdated twiceRequest],
      ¬RecordsOk s ∧ ¬Revalidates s) ∧
    ∃ s ∈ states record .empty [taskCreated, taskUpdated scheduleRequest], ¬RecordsOk s := by
  refine ⟨⟨_, after_mem (by decide +kernel), ?_⟩, ⟨_, after_mem (by decide +kernel), ?_⟩,
    ⟨_, after_mem (by decide +kernel), fun h => ?_⟩⟩
  · suffices hno : ¬Revalidates (after memberCreated memberUpdated) from
      ⟨fun h => hno (revalidates_of_ok h), hno⟩
    intro h
    have hstored : ((after memberCreated memberUpdated).members.get? recordId).any
        (fun m => periodInverted m.validFrom m.validUntil) = true := by decide +kernel
    obtain ⟨m, hm, hinverted⟩ := (Option.any_eq_true _ _).1 hstored
    obtain ⟨_, hm'⟩ := h.1 recordId m hm
    unfold WatchlistMember.validate at hm'
    rw [if_pos hinverted] at hm'
    cases hm'
  · suffices hno : ¬Revalidates (after taskCreated (taskUpdated twiceRequest)) from
      ⟨fun h => hno (revalidates_of_ok h), hno⟩
    intro h
    have hstored : ((after taskCreated (taskUpdated twiceRequest)).tasks.get? recordId).any
        (fun t => decide ¬t.watchlistIds.val.Nodup) = true := by decide +kernel
    obtain ⟨t, ht, htwice⟩ := (Option.any_eq_true _ _).1 hstored
    obtain ⟨_, ht'⟩ := h.2 recordId t ht
    exact of_decide_eq_true htwice (validate_task_ok ht').1.1
  · have hstored : ((after taskCreated (taskUpdated scheduleRequest)).tasks.get? recordId).any
        (fun t => t.schedule = .dump taskRequest.schedule) = true := by decide +kernel
    obtain ⟨t, ht, hdump⟩ := (Option.any_eq_true _ _).1 hstored
    obtain ⟨schedule, hmodel⟩ := (h.tasks recordId t ht).schedule
    cases (of_decide_eq_true hdump).symm.trans hmodel

end Scenara.Surveillance
