import Scenara.Core.Parties
import Scenara.Creation.Model

/-!
# No accepted run is stranded

A `create_run` holds the run it created from `create_run_idempotent` until the queue has taken it,
its `FAILED` record is saved, or it is rolled back (`Call.creating`). A queued run that nobody holds
and the queue does not have is stranded for good, and so is a caller who was told a run that is
rolled back.
-/

namespace Scenara.Creation

open Scenara.Core Run

variable {ids : RunIds} {s s' : System} {b b' : Backend} {c c' : Call} {now : ℚ} {choice : Choice}
  {runId : String}

/-! ## What is held, and what was told -/

/-- The run whose creation the call has not finished. -/
def Call.creating : Call → Option Held
  | .consume held | .audit held | .rollback held _ | .event held | .enqueue held | .fail held _ =>
    some held
  | _ => none

/-- The run id a call returned. -/
def Call.outcomeId : Call → Option String
  | .returned outcome => some outcome.runId
  | _ => none

/-- The call is over. -/
def Call.finished : Call → Bool
  | .returned _ | .raised _ => true
  | _ => false

/-- The stored record of a run. -/
def Backend.run (b : Backend) (runId : String) : Option RunRecord :=
  (b.runs.get? runId).map Run.Store.run

/-- Some call holds the run. -/
def System.Held (s : System) (runId : String) : Prop :=
  ∃ c ∈ s.calls, ∃ held, c.creating = some held ∧ held.runId = runId

/-- Some call returned the run. -/
def System.Told (s : System) (runId : String) : Prop := ∃ c ∈ s.calls, c.outcomeId = some runId
  deriving Decidable

/-! ## One backend call -/

/-- The call leaves a queued run that it will not enqueue: its event is not appended, its `FAILED`
record is not saved, or it is not deleted. -/
def Call.abandons : Call → Choice → Bool
  | .event _, .raise _ | .fail _ _, .raise _ | .rollback _ _, .raise _ => true
  | _, _ => false

/-- The run that the backend call deletes. -/
def Call.deletes : Call → Choice → Option String
  | .rollback held _, .go => some held.runId
  | _, _ => none

/-- What one backend call does to the records, and to the run the call holds. -/
inductive Effect (b : Backend) (c : Call) (choice : Choice) : Backend → Call → Prop
  /-- Event logs may differ. -/
  | kept {b' : Backend} {c' : Call} (hrun : ∀ runId, b'.run runId = b.run runId)
      (hidempotency : b'.idempotency = b.idempotency) (henqueued : b'.enqueued = b.enqueued)
      (hheld : c'.creating = c.creating) (hsafe : c.abandons choice = false)
      (hdeletes : c.deletes choice = none) : Effect b c choice b' c'
  | abandoned {c' : Call} (held : Held) (hheld : c.creating = some held)
      (hdrop : c'.creating = none) (hsafe : c.abandons choice = true) : Effect b c choice b c'
  | deleted {c' : Call} (held : Held) (hheld : c.creating = some held) (hdrop : c'.creating = none)
      (hsafe : c.abandons choice = false) (hdeletes : c.deletes choice = some held.runId) :
      Effect b c choice (deleteRun b held.runId) c'
  | enqueued {c' : Call} (held : Held) (hheld : c.creating = some held) (hdrop : c'.creating = none)
      (hsafe : c.abandons choice = false) (hdeletes : c.deletes choice = none) :
      Effect b c choice { b with enqueued := b.enqueued ++ [held.runId] } c'
  | failed {c' : Call} (held : Held) (rows : Run.Store) (hheld : c.creating = some held)
      (hdrop : c'.creating = none) (hstatus : rows.run.status = .failed)
      (hsafe : c.abandons choice = false) (hdeletes : c.deletes choice = none) :
      Effect b c choice { b with runs := b.runs.insert held.runId rows } c'

theorem run_insert (b : Backend) (runId a : String) (rows : Run.Store)
    (idempotency : Dict String (String × String)) (enqueued : List String) :
    Backend.run ⟨b.runs.insert runId rows, idempotency, enqueued⟩ a =
      if a = runId then some rows.run else b.run a := by
  unfold Backend.run
  rw [Dict.get?_insert]
  by_cases h : a = runId
  · rw [if_pos h, if_pos h, Option.map_some]
  · rw [if_neg h, if_neg h]

theorem run_deleteRun (b : Backend) (runId a : String) :
    (deleteRun b runId).run a = if a = runId then none else b.run a := by
  unfold deleteRun Backend.run
  rw [Dict.get?_erase]
  by_cases h : a = runId
  · rw [if_pos h, if_pos h, Option.map_none]
  · rw [if_neg h, if_neg h]

theorem appendEvent_stored {stored : RunRecord} (run : RunRecord) (eventType : String)
    (h : b.run runId = some stored) :
    ∃ b', appendEvent b runId run eventType = .ok b' ∧ (∀ a, b'.run a = b.run a) ∧
      b'.idempotency = b.idempotency ∧ b'.enqueued = b.enqueued := by
  obtain ⟨rows, hrows, hrun⟩ := Option.map_eq_some_iff.1 h
  refine ⟨{ b with runs := b.runs.insert runId (Run.appendEvent rows run eventType) }, ?_,
    fun a => ?_, rfl, rfl⟩
  · unfold appendEvent
    rw [hrows]
  · rw [run_insert]
    by_cases ha : a = runId
    · rw [if_pos ha, ha, h, ← hrun]
      rfl
    · rw [if_neg ha]

theorem appendEvent_ok {run : RunRecord} {eventType : String}
    (h : appendEvent b runId run eventType = .ok b') :
    b.run runId ≠ none ∧ (∀ a, b'.run a = b.run a) ∧ b'.idempotency = b.idempotency ∧
      b'.enqueued = b.enqueued := by
  cases hrun : b.run runId with
  | none =>
    unfold appendEvent at h
    rw [Option.map_eq_none_iff.1 hrun] at h
    cases h
  | some stored =>
    obtain ⟨_, hb₁, heffect⟩ := appendEvent_stored run eventType hrun
    rw [h] at hb₁
    cases hb₁
    exact ⟨Option.some_ne_none stored, heffect⟩

theorem saveRun_stored {stored : RunRecord} (updated : RunRecord) (h : b.run runId = some stored) :
    ∃ rows, rows.run = { updated with revision := stored.revision + 1 } ∧
      saveRun b runId updated stored.revision =
        .ok ({ b with runs := b.runs.insert runId rows }, rows.run) := by
  obtain ⟨rows, hrows, hrun⟩ := Option.map_eq_some_iff.1 h
  refine ⟨{ rows with run := { updated with revision := stored.revision + 1 } }, rfl, ?_⟩
  unfold saveRun Run.saveRun cas
  rw [hrows]
  dsimp only
  rw [if_pos (congrArg RunRecord.revision hrun)]
  rfl

theorem finish_creating (held : Held) (created : Bool) : (finish held created).creating = none := by
  unfold finish
  split
  · rfl
  · rfl

theorem finish_outcomeId {held : Held} {created : Bool} {runId : String}
    (h : (finish held created).outcomeId = some runId) : runId = held.runId := by
  unfold finish at h
  split at h
  · cases h
  · cases h
    rfl

theorem stepCall_effect (hheld : ∀ held, c.creating = some held →
    b.run held.runId = some held.stored)
    (h : stepCall now b c choice = some (b', c')) : Effect b c choice b' c' := by
  unfold stepCall at h
  split at h
  case h_1 | h_2 | h_3 | h_4 | h_10 =>
    cases h
    exact .kept (fun _ => rfl) rfl rfl rfl rfl rfl
  case h_5 held message =>
    cases h
    exact .deleted held rfl rfl rfl rfl
  case h_6 held message _ =>
    cases h
    exact .abandoned held rfl rfl rfl
  case h_7 held =>
    obtain ⟨_, hb₁, hrun, hidempotency, henqueued⟩ := appendEvent_stored held.stored "run.queued"
      (hheld held rfl)
    rw [hb₁] at h
    cases h
    exact .kept hrun hidempotency henqueued rfl rfl rfl
  case h_8 held message =>
    cases h
    exact .abandoned held rfl rfl rfl
  case h_9 held =>
    cases h
    exact .enqueued held rfl (finish_creating held true) rfl rfl
  case h_11 held message =>
    obtain ⟨rows, hrows, hsave⟩ := saveRun_stored (failedRecord now held.stored message)
      (hheld held rfl)
    rw [hsave] at h
    cases h
    refine .failed held rows rfl rfl ?_ rfl rfl
    rw [hrows]
    rfl
  case h_12 held message _ =>
    cases h
    exact .abandoned held rfl rfl rfl
  case h_13 held =>
    split at h
    · next _ hb₁ =>
      obtain ⟨-, hrun, hidempotency, henqueued⟩ := appendEvent_ok hb₁
      cases h
      exact .kept hrun hidempotency henqueued (finish_creating held true) rfl rfl
    · cases h
      exact .kept (fun _ => rfl) rfl rfl rfl rfl rfl
  case h_14 | h_17 =>
    cases h
    exact .kept (fun _ => rfl) rfl rfl rfl rfl rfl
  case h_15 held created =>
    split at h
    · cases h
      exact .kept (fun _ => rfl) rfl rfl rfl rfl rfl
    · split at h
      all_goals
        cases h
        exact .kept (fun _ => rfl) rfl rfl rfl rfl rfl
  case h_16 held created =>
    split at h
    all_goals
      cases h
      exact .kept (fun _ => rfl) rfl rfl rfl rfl rfl
  case h_18 => cases h

section

variable (h : Effect b c choice b' c')
include h

theorem Effect.elsewhere (hne : ∀ held, c.creating = some held → runId ≠ held.runId) :
    b'.run runId = b.run runId ∧ (runId ∈ b'.enqueued ↔ runId ∈ b.enqueued) := by
  cases h with
  | kept hrun _ henqueued => exact ⟨hrun runId, by rw [henqueued]⟩
  | abandoned => exact ⟨rfl, Iff.rfl⟩
  | deleted held hheld =>
    rw [run_deleteRun, if_neg (hne held hheld)]
    exact ⟨rfl, Iff.rfl⟩
  | enqueued held hheld =>
    refine ⟨rfl, ?_⟩
    rw [List.mem_append, List.mem_singleton, or_iff_left (hne held hheld)]
  | failed held _ hheld =>
    rw [run_insert, if_neg (hne held hheld)]
    exact ⟨rfl, Iff.rfl⟩

theorem Effect.stored (hheld : ∀ held, c.creating = some held → b.run held.runId = some held.stored)
    (hrun : b'.run runId ≠ none) : b.run runId ≠ none := by
  cases h with
  | kept hsame => rwa [← hsame]
  | abandoned | enqueued => exact hrun
  | deleted held =>
    rw [run_deleteRun] at hrun
    by_cases heq : runId = held.runId
    · rw [if_pos heq] at hrun
      exact absurd rfl hrun
    · rwa [if_neg heq] at hrun
  | failed held _ hcreating =>
    rw [run_insert] at hrun
    by_cases heq : runId = held.runId
    · rw [heq, hheld held hcreating]
      exact Option.some_ne_none _
    · rwa [if_neg heq] at hrun

theorem Effect.mem_enqueued (hmem : runId ∈ b'.enqueued) :
    runId ∈ b.enqueued ∨ ∃ held, c.creating = some held ∧ held.runId = runId := by
  cases h with
  | kept _ _ henqueued => exact .inl (henqueued ▸ hmem)
  | abandoned | deleted | failed => exact .inl hmem
  | enqueued held hheld =>
    rcases List.mem_append.1 hmem with hmem | hmem
    · exact .inl hmem
    · exact .inr ⟨held, hheld, (List.mem_singleton.1 hmem).symm⟩

theorem Effect.holding {held : Held} (hheld : c'.creating = some held) :
    c.creating = some held ∧ (∀ a, b'.run a = b.run a) ∧ b'.enqueued = b.enqueued := by
  cases h with
  | kept hrun _ henqueued hkeep => exact ⟨hkeep ▸ hheld, hrun, henqueued⟩
  | abandoned _ _ hdrop | deleted _ _ hdrop | enqueued _ _ hdrop | failed _ _ _ hdrop =>
    cases hdrop.symm.trans hheld

theorem Effect.keyed
    (hkeyed : ∀ key entry, b.idempotency.get? key = some entry → b.run entry.2 ≠ none)
    {key : String} {entry : String × String} (hentry : b'.idempotency.get? key = some entry) :
    b'.run entry.2 ≠ none := by
  cases h with
  | kept hrun hidempotency =>
    rw [hidempotency] at hentry
    rw [hrun]
    exact hkeyed key entry hentry
  | abandoned | enqueued => exact hkeyed key entry hentry
  | deleted =>
    unfold deleteRun at hentry
    rw [Dict.get?_filter, Option.filter_eq_some_iff] at hentry
    rw [run_deleteRun, if_neg (of_decide_eq_true hentry.2)]
    exact hkeyed key entry hentry.1
  | failed held =>
    rw [run_insert]
    by_cases heq : entry.2 = held.runId
    · rw [if_pos heq]
      exact Option.some_ne_none _
    · rw [if_neg heq]
      exact hkeyed key entry hentry

end

theorem stepCall_pending (h : stepCall now b c choice = some (b', c')) : c.outcomeId = none := by
  cases c with
  | returned => cases h
  | _ => rfl

theorem stepCall_told (hheld : ∀ held, c.creating = some held → b.run held.runId = some held.stored)
    (h : stepCall now b c choice = some (b', c')) (htold : c'.outcomeId = some runId) :
    b'.run runId ≠ none := by
  unfold stepCall at h
  split at h
  case h_9 held =>
    cases h
    rw [finish_outcomeId htold]
    exact fun hnone => absurd ((hheld held rfl).symm.trans hnone) (Option.some_ne_none _)
  case h_13 held =>
    split at h
    · next _ hb₁ =>
      obtain ⟨_, hrun, -⟩ := appendEvent_ok hb₁
      cases h
      rwa [finish_outcomeId htold, hrun]
    · cases h
      cases htold
  case h_15 held created =>
    split at h
    · cases h
      cases htold
    · next _ hlatest =>
      split at h
      · cases h
        cases htold
        exact fun hnone => by rw [Option.map_eq_none_iff.1 hnone] at hlatest; cases hlatest
      · cases h
        cases htold
  case h_16 held created =>
    split at h
    · cases h
      cases htold
    · next _ hlatest =>
      cases h
      cases htold
      exact fun hnone => by rw [Option.map_eq_none_iff.1 hnone] at hlatest; cases hlatest
  case h_7 =>
    split at h
    all_goals
      cases h
      cases htold
  case h_11 =>
    split at h
    all_goals
      cases h
      cases htold
  case h_18 => cases h
  all_goals
    cases h
    cases htold

/-! ## What is kept of every step -/

/-- What holds of the calls and the store at any time. -/
structure Sound (ids : RunIds) (s : System) : Prop where
  /-- Ids that are in use were drawn. -/
  drawn : ∀ runId, s.backend.run runId ≠ none ∨ runId ∈ s.backend.enqueued ∨ s.Told runId →
    ∃ n < s.calls.length, runId = ids.draw n
  /-- A run whose creation is not finished is stored as its call knows it, and queued. -/
  held : ∀ i c held, s.calls[i]? = some c → c.creating = some held →
    held.runId = ids.draw i ∧ held.stored.status = .queued ∧ held.runId ∉ s.backend.enqueued ∧
      s.backend.run held.runId = some held.stored
  /-- A used key names a stored run. -/
  keyed : ∀ key entry, s.backend.idempotency.get? key = some entry → s.backend.run entry.2 ≠ none

theorem sound_empty (ids : RunIds) : Sound ids .empty where
  drawn := by
    rintro _ (h | h | ⟨c, hc, -⟩)
    · exact absurd rfl h
    · cases h
    · cases hc
  held i c held h := by cases h
  keyed key entry h := by cases h

theorem exists_mem_set {α : Type} {P : α → Prop} {l : List α} {i : Nat} (hi : i < l.length)
    (b : α) : (∃ x ∈ l.set i b, P x) ↔ P b ∨ ∃ j x, j ≠ i ∧ l[j]? = some x ∧ P x := by
  constructor
  · rintro ⟨x, hx, hP⟩
    obtain ⟨j, hj⟩ := List.mem_iff_getElem?.1 hx
    rcases Parties.getElem?_set_cases hj with ⟨-, rfl⟩ | ⟨hij, hj⟩
    · exact .inl hP
    · exact .inr ⟨j, x, hij, hj, hP⟩
  · rintro (hP | ⟨j, x, hij, hj, hP⟩)
    · exact ⟨b, List.mem_set hi b, hP⟩
    · exact ⟨x, List.mem_of_getElem? ((Parties.getElem?_set_other hij).trans hj), hP⟩

theorem exists_mem_at {α : Type} {P : α → Prop} {l : List α} {i : Nat} {a : α}
    (h : l[i]? = some a) : (∃ x ∈ l, P x) ↔ P a ∨ ∃ j x, j ≠ i ∧ l[j]? = some x ∧ P x := by
  obtain ⟨hi, rfl⟩ := List.getElem?_eq_some_iff.1 h
  have hset := exists_mem_set (P := P) hi l[i]
  rwa [List.set_getElem_self hi] at hset

section Replaced

variable {i : Nat} (hc : s.calls[i]? = some c)

include hc

theorem held_keep (hkeep : c'.creating = c.creating) :
    (System.mk b' (s.calls.set i c')).Held runId ↔ s.Held runId := by
  obtain ⟨hi, -⟩ := List.getElem?_eq_some_iff.1 hc
  unfold System.Held
  rw [exists_mem_set hi, exists_mem_at hc, hkeep]

theorem held_drop (hs : Sound ids s) {held : Held} (hheld : c.creating = some held)
    (hdrop : c'.creating = none) :
    (System.mk b' (s.calls.set i c')).Held runId ↔ s.Held runId ∧ runId ≠ held.runId := by
  obtain ⟨hi, -⟩ := List.getElem?_eq_some_iff.1 hc
  have hothers : ∀ j x, j ≠ i → s.calls[j]? = some x →
      ∀ other, x.creating = some other → other.runId ≠ held.runId := by
    intro j x hj hx other hother heq
    rw [(hs.held j x other hx hother).1, (hs.held i c held hc hheld).1] at heq
    exact hj (ids.injective heq)
  unfold System.Held
  rw [exists_mem_set hi, exists_mem_at hc, hheld, hdrop]
  constructor
  · rintro (⟨_, h, -⟩ | ⟨j, x, hj, hx, other, hother, rfl⟩)
    · cases h
    · exact ⟨.inr ⟨j, x, hj, hx, other, hother, rfl⟩, hothers j x hj hx other hother⟩
  · rintro ⟨⟨_, h, heq⟩ | hother, hne⟩
    · cases h
      exact absurd heq.symm hne
    · exact .inr hother

theorem told_set (hpending : c.outcomeId = none) :
    (System.mk b' (s.calls.set i c')).Told runId ↔ c'.outcomeId = some runId ∨ s.Told runId := by
  obtain ⟨hi, -⟩ := List.getElem?_eq_some_iff.1 hc
  unfold System.Told
  rw [exists_mem_set hi, exists_mem_at hc, hpending]
  simp

end Replaced

/-- **What one `create_run_idempotent` does**: it raises, finds the stored run of the key, or stores
a new queued run that its call holds. -/
theorem create_cases (ids : RunIds) (s : System) (request : Request)
    (hkeyed : ∀ key entry, s.backend.idempotency.get? key = some entry →
      s.backend.run entry.2 ≠ none)
    (hs : step ids s (.create request) = some s') :
    (∃ message, s' = ⟨s.backend, s.calls ++ [.raised message]⟩) ∨
    (∃ held, s.backend.run held.runId ≠ none ∧
      s' = ⟨s.backend, s.calls ++ [finish held false]⟩) ∨
    (s.backend.run (ids.draw s.calls.length) = none ∧ ∃ b,
      (∀ a, b.run a = if a = ids.draw s.calls.length then some request.run else s.backend.run a) ∧
      b.idempotency = s.backend.idempotency.insert request.idempotencyKey
        (request.requestHash, ids.draw s.calls.length) ∧
      b.enqueued = s.backend.enqueued ∧
      s' = ⟨b, s.calls ++ [.consume ⟨ids.draw s.calls.length, request.run, request.waits⟩]⟩) := by
  unfold step createRunIdempotent at hs
  dsimp only at hs
  cases hkey : s.backend.idempotency.get? request.idempotencyKey with
  | some entry =>
    obtain ⟨hash, runId⟩ := entry
    rw [hkey] at hs
    dsimp only at hs
    by_cases hhash : hash ≠ request.requestHash
    · rw [if_pos hhash] at hs
      cases hs
      exact .inl ⟨_, rfl⟩
    · rw [if_neg hhash] at hs
      cases hrun : s.backend.runs.get? runId with
      | none => exact absurd (Option.map_eq_none_iff.2 hrun) (hkeyed _ _ hkey)
      | some existing =>
        rw [hrun] at hs
        cases hs
        exact .inr (.inl ⟨⟨runId, existing.run, request.waits⟩, hkeyed _ _ hkey, rfl⟩)
  | none =>
    rw [hkey] at hs
    by_cases hrun : s.backend.runs.get? (ids.draw s.calls.length) ≠ none
    · rw [if_pos hrun] at hs
      cases hs
      exact .inl ⟨_, rfl⟩
    · rw [if_neg hrun] at hs
      cases hs
      exact .inr (.inr ⟨Option.map_eq_none_iff.2 (not_not.1 hrun), _,
        fun a => run_insert s.backend _ a ⟨request.run, []⟩ _ _, rfl, rfl, rfl⟩)

theorem held_append (b : Backend) (calls : List Call) (c : Call) :
    (System.mk b (calls ++ [c])).Held runId ↔
      (System.mk b calls).Held runId ∨ ∃ held, c.creating = some held ∧ held.runId = runId := by
  unfold System.Held
  simp only [List.mem_append, List.mem_singleton, or_and_right, exists_or, exists_eq_left]

theorem told_append (b : Backend) (calls : List Call) (c : Call) :
    (System.mk b (calls ++ [c])).Told runId ↔
      (System.mk b calls).Told runId ∨ c.outcomeId = some runId := by
  unfold System.Told
  simp only [List.mem_append, List.mem_singleton, or_and_right, exists_or, exists_eq_left]

theorem call_cases {i : Nat} (hs : Sound ids s) (h : step ids s (.call i now choice) = some s') :
    ∃ c b' c', s.calls[i]? = some c ∧ s' = ⟨b', s.calls.set i c'⟩ ∧
      stepCall now s.backend c choice = some (b', c') ∧
      (∀ held, c.creating = some held → s.backend.run held.runId = some held.stored) := by
  unfold step at h
  dsimp only at h
  cases hc : s.calls[i]? with
  | none =>
    rw [hc] at h
    cases h
  | some c =>
    rw [hc] at h
    dsimp only at h
    cases hcall : stepCall now s.backend c choice with
    | none =>
      rw [hcall] at h
      cases h
    | some result =>
      rw [hcall] at h
      cases h
      exact ⟨c, result.1, result.2, rfl, rfl, hcall,
        fun held hheld => (hs.held i c held hc hheld).2.2.2⟩

theorem sound_call {i : Nat} (hs : Sound ids s) (h : step ids s (.call i now choice) = some s') :
    Sound ids s' := by
  obtain ⟨c, b', c', hc, rfl, hcall, hheld⟩ := call_cases hs h
  have heffect := stepCall_effect hheld hcall
  have hlength : (s.calls.set i c').length = s.calls.length := List.length_set
  refine ⟨fun runId hused => ?_, fun j x other hx hother => ?_,
    fun key entry => heffect.keyed hs.keyed⟩
  · rw [show (System.mk b' (s.calls.set i c')).calls.length = s.calls.length from hlength]
    rcases hused with hrun | hmem | htold
    · exact hs.drawn runId (.inl (heffect.stored hheld hrun))
    · rcases heffect.mem_enqueued hmem with hmem | ⟨held, hcreating, rfl⟩
      · exact hs.drawn runId (.inr (.inl hmem))
      · exact hs.drawn _ (.inl (by rw [hheld held hcreating]; exact Option.some_ne_none _))
    · rcases (told_set hc (stepCall_pending hcall)).1 htold with htold | htold
      · exact hs.drawn runId (.inl (heffect.stored hheld (stepCall_told hheld hcall htold)))
      · exact hs.drawn runId (.inr (.inr htold))
  · rcases Parties.getElem?_set_cases hx with ⟨rfl, rfl⟩ | ⟨hij, hx⟩
    · obtain ⟨hcreating, hrun, henqueued⟩ := heffect.holding hother
      rw [hrun, henqueued]
      exact hs.held j c other hc hcreating
    · obtain ⟨hid, hqueued, hmem, hrun⟩ := hs.held j x other hx hother
      have helsewhere : b'.run other.runId = s.backend.run other.runId ∧
          (other.runId ∈ b'.enqueued ↔ other.runId ∈ s.backend.enqueued) :=
        heffect.elsewhere fun held hcreating heq => by
          rw [hid, (hs.held i c held hc hcreating).1] at heq
          exact hij (ids.injective heq)
      refine ⟨hid, hqueued, fun hin => hmem (helsewhere.2.1 hin), ?_⟩
      exact helsewhere.1.trans hrun

theorem sound_append {b : Backend} {c : Call} (hs : Sound ids s)
    (henqueued : b.enqueued = s.backend.enqueued)
    (hnew : ∀ a, b.run a ≠ none → s.backend.run a ≠ none ∨ a = ids.draw s.calls.length)
    (hold : ∀ a, s.backend.run a ≠ none → b.run a = s.backend.run a)
    (htold : ∀ a, c.outcomeId = some a → s.backend.run a ≠ none)
    (hcreating : ∀ held, c.creating = some held → held.runId = ids.draw s.calls.length ∧
      held.stored.status = .queued ∧ held.runId ∉ b.enqueued ∧ b.run held.runId = some held.stored)
    (hkeyed : ∀ key entry, b.idempotency.get? key = some entry → b.run entry.2 ≠ none) :
    Sound ids ⟨b, s.calls ++ [c]⟩ := by
  have hlength : (s.calls ++ [c]).length = s.calls.length + 1 := List.length_append
  have hlater : ∀ {a : String}, (∃ n < s.calls.length, a = ids.draw n) →
      ∃ n < s.calls.length + 1, a = ids.draw n := fun ⟨n, hn, ha⟩ => ⟨n, Nat.lt_succ_of_lt hn, ha⟩
  refine ⟨fun a hused => ?_, fun j x held hx hheld => ?_, hkeyed⟩
  · rw [show (System.mk b (s.calls ++ [c])).calls.length = s.calls.length + 1 from hlength]
    rcases hused with hrun | hmem | htold'
    · rcases hnew a hrun with hrun | rfl
      · exact hlater (hs.drawn a (.inl hrun))
      · exact ⟨_, Nat.lt_succ_self _, rfl⟩
    · exact hlater (hs.drawn a (.inr (.inl (henqueued ▸ hmem))))
    · rcases (told_append b s.calls c).1 htold' with htold' | htold'
      · exact hlater (hs.drawn a (.inr (.inr htold')))
      · exact hlater (hs.drawn a (.inl (htold a htold')))
  · by_cases hj : j < s.calls.length
    · rw [show (System.mk b (s.calls ++ [c])).calls[j]? = s.calls[j]? from
        List.getElem?_append_left hj] at hx
      obtain ⟨hid, hqueued, hmem, hrun⟩ := hs.held j x held hx hheld
      refine ⟨hid, hqueued, fun hin => hmem (henqueued ▸ hin), ?_⟩
      rw [← hrun]
      exact hold _ (by rw [hrun]; exact Option.some_ne_none _)
    · have hlast : j = s.calls.length := by
        have hlt : j < (s.calls ++ [c]).length := (List.getElem?_eq_some_iff.1 hx).1
        omega
      subst hlast
      rw [show (System.mk b (s.calls ++ [c])).calls[s.calls.length]? = some c from
        List.getElem?_concat_length] at hx
      cases hx
      exact hcreating held hheld

theorem sound_create {request : Request} (hs : Sound ids s)
    (h : step ids s (.create request) = some s') : Sound ids s' := by
  rcases create_cases ids s request hs.keyed h with ⟨_, rfl⟩ | ⟨held, _, rfl⟩ |
    ⟨hfresh, b, hrun, hidempotency, henqueued, rfl⟩
  · exact sound_append hs rfl (fun a ha => .inl ha) (fun a _ => rfl) nofun
      (fun held hheld => by cases hheld) hs.keyed
  · refine sound_append hs rfl (fun a ha => .inl ha) (fun a _ => rfl) (fun a ha => ?_)
      (fun held' hheld => ?_) hs.keyed
    · rwa [finish_outcomeId ha]
    · rw [finish_creating] at hheld
      cases hheld
  · have hunused : ids.draw s.calls.length ∉ s.backend.enqueued := fun hmem => by
      obtain ⟨n, hn, heq⟩ := hs.drawn _ (.inr (.inl hmem))
      exact absurd (ids.injective heq) (Nat.ne_of_gt hn)
    refine sound_append hs henqueued (fun a ha => ?_) (fun a ha => ?_) nofun
      (fun held hheld => ?_) (fun key entry hentry => ?_)
    · by_cases heq : a = ids.draw s.calls.length
      · exact .inr heq
      · rw [hrun, if_neg heq] at ha
        exact .inl ha
    · rw [hrun, if_neg (fun heq : a = _ => ha (heq ▸ hfresh))]
    · cases hheld
      refine ⟨rfl, rfl, henqueued ▸ hunused, ?_⟩
      rw [hrun, if_pos rfl]
    · rw [hidempotency, Dict.get?_insert] at hentry
      rw [hrun]
      by_cases heq : entry.2 = ids.draw s.calls.length
      · rw [if_pos heq]
        exact Option.some_ne_none _
      · rw [if_neg heq]
        by_cases hkey : key = request.idempotencyKey
        · rw [if_pos hkey] at hentry
          cases hentry
          exact absurd rfl heq
        · rw [if_neg hkey] at hentry
          exact hs.keyed key entry hentry

theorem sound_step {a : Act} (hs : Sound ids s) (h : step ids s a = some s') : Sound ids s' := by
  cases a with
  | create => exact sound_create hs h
  | call i => exact sound_call hs h

/-! ## Stranded runs and callers -/

/-- A queued run is in the queue or still held, and what was told is stored. -/
structure Good (s : System) : Prop where
  queued : ∀ runId run, s.backend.run runId = some run → run.status = .queued →
    runId ∈ s.backend.enqueued ∨ s.Held runId
  told : ∀ runId, s.Told runId → s.backend.run runId ≠ none

theorem good_empty : Good .empty where
  queued runId run h := by cases h
  told runId := by rintro ⟨c, hc, -⟩; cases hc

/-- The step abandons no run, and deletes none that a caller was told. -/
def Safe (s : System) : Act → Prop
  | .create _ => True
  | .call i _ choice => ∀ c ∈ s.calls[i]?,
      c.abandons choice = false ∧ ∀ runId ∈ c.deletes choice, ¬s.Told runId

instance (s : System) (a : Act) : Decidable (Safe s a) :=
  match a with
  | .create _ => inferInstanceAs (Decidable True)
  | .call i _ choice => inferInstanceAs (Decidable (∀ _ ∈ _, _ ∧ ∀ _ ∈ _, _))

section Call

variable {i : Nat} (hs : Sound ids s) (hc : s.calls[i]? = some c)
  (hheld : ∀ held, c.creating = some held → s.backend.run held.runId = some held.stored)
  (hcall : stepCall now s.backend c choice = some (b', c'))

include hc hheld hcall

theorem told_stored (hold : s.Told runId → b'.run runId ≠ none) :
    (System.mk b' (s.calls.set i c')).Told runId → b'.run runId ≠ none := by
  intro h
  rcases (told_set hc (stepCall_pending hcall)).1 h with h | h
  · exact stepCall_told hheld hcall h
  · exact hold h

omit hheld in
theorem told_mono (h : s.Told runId) : (System.mk b' (s.calls.set i c')).Told runId :=
  (told_set hc (stepCall_pending hcall)).2 (.inr h)

theorem good_kept (hrun : ∀ runId, b'.run runId = s.backend.run runId)
    (henqueued : b'.enqueued = s.backend.enqueued) (hkeep : c'.creating = c.creating) :
    Good ⟨b', s.calls.set i c'⟩ ↔ Good s := by
  constructor
  · intro hg
    refine ⟨fun runId run hrun' hq => ?_, fun runId ht => ?_⟩
    · have hqueued := hg.queued runId run ((hrun runId).trans hrun') hq
      rw [held_keep hc hkeep] at hqueued
      exact hqueued.imp (fun hin => henqueued ▸ hin) id
    · rw [← hrun]
      exact hg.told runId (told_mono hc hcall ht)
  · intro hg
    refine ⟨fun runId run hrun' hq => ?_, fun runId => told_stored hc hheld hcall fun ht => ?_⟩
    · rw [held_keep hc hkeep]
      exact (hg.queued runId run ((hrun runId).symm.trans hrun') hq).imp
        (fun hin => henqueued ▸ hin) id
    · rw [hrun]
      exact hg.told runId ht

include hs

theorem good_settled {held : Held} (hcreating : c.creating = some held) (hdrop : c'.creating = none)
    (hsettled : ∀ run, b'.run held.runId = some run → run.status = .queued →
      held.runId ∈ b'.enqueued) :
    Good ⟨b', s.calls.set i c'⟩ ↔
      Good s ∧ (b'.run held.runId = none → ¬s.Told held.runId) := by
  have helsewhere : ∀ {runId}, runId ≠ held.runId → b'.run runId = s.backend.run runId ∧
      (runId ∈ b'.enqueued ↔ runId ∈ s.backend.enqueued) := fun hne =>
    (stepCall_effect hheld hcall).elsewhere fun other hother => by
      rw [hcreating] at hother
      cases hother
      exact hne
  have hstill : ∀ {runId}, (System.mk b' (s.calls.set i c')).Held runId ↔
      s.Held runId ∧ runId ≠ held.runId := held_drop hc hs hcreating hdrop
  constructor
  · intro hg
    refine ⟨⟨fun runId run hrun hq => ?_, fun runId ht => ?_⟩, fun hgone ht => ?_⟩
    · by_cases heq : runId = held.runId
      · exact .inr ⟨c, List.mem_of_getElem? hc, held, hcreating, heq.symm⟩
      · rcases hg.queued runId run ((helsewhere heq).1.trans hrun) hq with hin | hin
        · exact .inl ((helsewhere heq).2.1 hin)
        · exact .inr (hstill.1 hin).1
    · by_cases heq : runId = held.runId
      · rw [heq, hheld held hcreating]
        exact Option.some_ne_none _
      · rw [← (helsewhere heq).1]
        exact hg.told runId (told_mono hc hcall ht)
    · exact hg.told _ (told_mono hc hcall ht) hgone
  · rintro ⟨hg, hgone⟩
    refine ⟨fun runId run hrun hq => ?_, fun runId => told_stored hc hheld hcall fun ht => ?_⟩
    · by_cases heq : runId = held.runId
      · subst heq
        exact .inl (hsettled run hrun hq)
      · rw [hstill]
        rcases hg.queued runId run ((helsewhere heq).1.symm.trans hrun) hq with hin | hin
        · exact .inl ((helsewhere heq).2.2 hin)
        · exact .inr ⟨hin, heq⟩
    · by_cases heq : runId = held.runId
      · subst heq
        exact fun hnone => hgone hnone ht
      · rw [(helsewhere heq).1]
        exact hg.told runId ht

end Call

theorem good_call {i : Nat} (hs : Sound ids s) (h : step ids s (.call i now choice) = some s') :
    Good s' ↔ Good s ∧ Safe s (.call i now choice) := by
  obtain ⟨c, _, _, hc, rfl, hcall, hheld⟩ := call_cases hs h
  have hsafe : Safe s (.call i now choice) ↔ c.abandons choice = false ∧
      ∀ runId, c.deletes choice = some runId → ¬s.Told runId := by
    simp only [Safe, hc, Option.mem_def, Option.some.injEq, forall_eq']
  rw [hsafe]
  cases stepCall_effect hheld hcall with
  | kept hrun _ henqueued hkeep hno hdeletes =>
    rw [good_kept hc hheld hcall hrun henqueued hkeep, hno, hdeletes]
    exact (and_iff_left ⟨rfl, nofun⟩).symm
  | abandoned held hcreating hdrop hyes =>
    rw [hyes]
    refine iff_of_false (fun hg => ?_) (fun hg => by cases hg.2.1)
    obtain ⟨-, hqueued, hmem, hrun⟩ := hs.held i c held hc hcreating
    rcases hg.queued held.runId held.stored hrun hqueued with hin | hin
    · exact hmem hin
    · exact ((held_drop hc hs hcreating hdrop).1 hin).2 rfl
  | deleted held hcreating hdrop hno hdeletes =>
    have hgone : (deleteRun s.backend held.runId).run held.runId = none := by
      rw [run_deleteRun, if_pos rfl]
    have hnone : ∀ run, (deleteRun s.backend held.runId).run held.runId ≠ some run :=
      fun run hrun => by rw [hgone] at hrun; cases hrun
    rw [good_settled hs hc hheld hcall hcreating hdrop
      (fun run hrun => absurd hrun (hnone run)), hno, hdeletes]
    refine and_congr_right fun _ => ⟨fun hnot => ⟨rfl, fun runId heq => ?_⟩,
      fun hnot _ => hnot.2 _ rfl⟩
    cases heq
    exact hnot hgone
  | enqueued held hcreating hdrop hno hdeletes =>
    rw [good_settled hs hc hheld hcall hcreating hdrop
      fun _ _ _ => List.mem_append_right _ (List.mem_singleton.2 rfl), hno, hdeletes]
    refine and_congr_right fun _ => iff_of_true (fun hnone => ?_) ⟨rfl, nofun⟩
    exact absurd ((hheld held hcreating).symm.trans hnone) (Option.some_ne_none _)
  | failed held rows hcreating hdrop hstatus hno hdeletes =>
    have hrun : Backend.run ⟨s.backend.runs.insert held.runId rows, s.backend.idempotency,
        s.backend.enqueued⟩ held.runId = some rows.run := by
      rw [run_insert, if_pos rfl]
    rw [good_settled hs hc hheld hcall hcreating hdrop (fun run hrun' hq => ?_), hno, hdeletes]
    · refine and_congr_right fun _ => iff_of_true (fun hnone => ?_) ⟨rfl,
        nofun⟩
      exact absurd (hrun.symm.trans hnone) (Option.some_ne_none _)
    · cases hrun.symm.trans hrun'
      simp [hstatus] at hq

theorem good_append {b : Backend} {c : Call} (henqueued : b.enqueued = s.backend.enqueued)
    (hold : ∀ a, s.backend.run a ≠ none → b.run a = s.backend.run a)
    (hnew : ∀ a, b.run a ≠ none → s.backend.run a ≠ none ∨ ∃ held, c.creating = some held ∧
      held.runId = a)
    (htold : ∀ a, c.outcomeId = some a → s.backend.run a ≠ none)
    (hfresh : ∀ held, c.creating = some held →
      s.backend.run held.runId = none ∧ ¬s.Told held.runId) :
    Good ⟨b, s.calls ++ [c]⟩ ↔ Good s := by
  have hkept : ∀ {a run}, s.backend.run a = some run → b.run a = some run := fun hrun =>
    (hold _ (by rw [hrun]; exact Option.some_ne_none _)).trans hrun
  constructor
  · intro hg
    refine ⟨fun runId run hrun hq => ?_, fun runId ht => ?_⟩
    · rcases hg.queued runId run (hkept hrun) hq with hin | hin
      · exact .inl (henqueued ▸ hin)
      · rcases (held_append _ _ _).1 hin with hin | ⟨held, hheld, rfl⟩
        · exact .inr hin
        · cases hrun.symm.trans (hfresh held hheld).1
    · rcases hnew runId (hg.told runId ((told_append _ _ _).2 (.inl ht))) with hrun |
        ⟨held, hheld, rfl⟩
      · exact hrun
      · exact absurd ht (hfresh held hheld).2
  · intro hg
    refine ⟨fun runId run hrun hq => ?_, fun runId ht => ?_⟩
    · rcases hnew runId (by rw [hrun]; exact Option.some_ne_none _) with hthere | hheld
      · rcases hg.queued runId run ((hold runId hthere).symm.trans hrun) hq with hin | hin
        · exact .inl (henqueued ▸ hin)
        · exact .inr ((held_append _ _ _).2 (.inl hin))
      · exact .inr ((held_append _ _ _).2 (.inr hheld))
    · rcases (told_append _ _ _).1 ht with ht | ht
      · exact (hold runId (hg.told runId ht)).symm ▸ hg.told runId ht
      · exact (hold runId (htold runId ht)).symm ▸ htold runId ht

theorem good_create {request : Request} (hs : Sound ids s)
    (h : step ids s (.create request) = some s') : Good s' ↔ Good s := by
  rcases create_cases ids s request hs.keyed h with ⟨_, rfl⟩ | ⟨held, _, rfl⟩ |
    ⟨hnone, b, hrun, -, henqueued, rfl⟩
  · exact good_append rfl (fun a _ => rfl) (fun a ha => .inl ha) nofun
      (fun held hheld => by cases hheld)
  · refine good_append rfl (fun a _ => rfl) (fun a ha => .inl ha) (fun a ha => ?_)
      (fun other hother => ?_)
    · rwa [finish_outcomeId ha]
    · simp [finish_creating] at hother
  · refine good_append henqueued (fun a ha => ?_) (fun a ha => ?_) nofun
      (fun held hheld => ?_)
    · rw [hrun, if_neg (fun heq : a = _ => ha (heq ▸ hnone))]
    · by_cases heq : a = ids.draw s.calls.length
      · exact .inr ⟨_, rfl, heq.symm⟩
      · rw [hrun, if_neg heq] at ha
        exact .inl ha
    · cases hheld
      refine ⟨hnone, fun ht => ?_⟩
      obtain ⟨n, hn, heq⟩ := hs.drawn _ (.inr (.inr ht))
      exact absurd (ids.injective heq) (Nat.ne_of_gt hn)

theorem good_step {a : Act} (hs : Sound ids s) (h : step ids s a = some s') :
    Good s' ↔ Good s ∧ Safe s a := by
  cases a with
  | create =>
    rw [good_create hs h]
    exact (and_iff_left trivial).symm
  | call i => exact good_call hs h

/-! ## Finished calls -/

/-- All calls have returned or raised. -/
def Finished (s : System) : Prop := ∀ c ∈ s.calls, c.finished = true
  deriving Decidable

/-- Every queued run was handed to the queue, and every run a call returned is stored. -/
def NoneStranded (s : System) : Prop :=
  (∀ runId rows, s.backend.runs.get? runId = some rows → rows.run.status = .queued →
    runId ∈ s.backend.enqueued) ∧
  ∀ outcome, .returned outcome ∈ s.calls → s.backend.runs.get? outcome.runId ≠ none

theorem noneStranded_of_finished (hfinished : Finished s) : NoneStranded s ↔ Good s := by
  have hheld : ∀ runId, ¬s.Held runId := by
    rintro _ ⟨c, hc, _, hheld, -⟩
    have hover := hfinished c hc
    cases c with
    | returned | raised => cases hheld
    | _ => cases hover
  constructor
  · rintro ⟨hqueued, htold⟩
    refine ⟨fun runId run hrun hq => ?_, fun runId => ?_⟩
    · obtain ⟨rows, hrows, rfl⟩ := Option.map_eq_some_iff.1 hrun
      exact .inl (hqueued runId rows hrows hq)
    · rintro ⟨c, hc, hid⟩
      cases c with
      | returned outcome =>
        cases hid
        exact fun hnone => htold outcome hc (Option.map_eq_none_iff.1 hnone)
      | _ => cases hid
  · intro hg
    refine ⟨fun runId rows hrows hq => ?_, fun outcome hout hnone => ?_⟩
    · exact (hg.queued runId rows.run (Option.map_eq_some_iff.2 ⟨rows, hrows, rfl⟩)
        hq).resolve_right (hheld runId)
    · exact hg.told outcome.runId ⟨_, hout, rfl⟩ (Option.map_eq_none_iff.2 hnone)

/-- **No accepted run is stranded**, when all calls have finished, **iff** no call abandoned its run
(its `run.queued` event or its `FAILED` save raised, or its roll back did) and none was rolled back
whose run another call had returned. -/
theorem noneStranded_iff (ids : RunIds) (acts : List Act) (h : exec (step ids) .empty acts = some s)
    (hfinished : Finished s) : NoneStranded s ↔ Along (step ids) Safe .empty acts := by
  rw [noneStranded_of_finished hfinished,
    exec_iff (fun _ _ _ => sound_step) (fun _ _ _ => good_step) (sound_empty ids) h]
  exact and_iff_right good_empty

/-! ## Runs that go wrong -/

/-- A request with the key `k`. -/
def smallRequest : Request := ⟨"k", "h", 0, none, none, false⟩

/-- One call whose queue is down. -/
def queueDown : List Act :=
  [.create smallRequest, .call 0 0 .go, .call 0 0 .go, .call 0 0 .go, .call 0 0 (.raise "down"),
    .call 0 0 .go, .call 0 0 .go]

/-- The end of a run, if it may be taken. -/
def endOf (acts : List Act) : System := (exec (step .counted) .empty acts).getD .empty

/-- Its run is saved as failed. -/
theorem queueDown_noneStranded : NoneStranded (endOf queueDown) :=
  (noneStranded_iff .counted queueDown (by decide +kernel) (by decide +kernel)).2
    (by decide +kernel)

/-- One call whose `run.queued` event cannot be appended. -/
def eventDown : List Act :=
  [.create smallRequest, .call 0 0 .go, .call 0 0 .go, .call 0 0 (.raise "down")]

/-- A second call returns between the creation and the audit that fails. -/
def auditDown : List Act :=
  [.create smallRequest, .create smallRequest, .call 0 0 .go, .call 0 0 (.raise "down"),
    .call 0 0 .go]

/-- **A run is stranded** when its event cannot be appended, **and a caller is** when the run it was
told is rolled back; in each run one backend call raises. -/
theorem create_strands :
    (exec (step .counted) .empty eventDown = some (endOf eventDown) ∧ Finished (endOf eventDown) ∧
      ¬NoneStranded (endOf eventDown)) ∧
    exec (step .counted) .empty auditDown = some (endOf auditDown) ∧ Finished (endOf auditDown) ∧
      ¬NoneStranded (endOf auditDown) := by
  refine ⟨⟨by decide +kernel, by decide +kernel, fun h => ?_⟩, by decide +kernel, by decide +kernel,
    fun h => ?_⟩
  · have hstored : (endOf eventDown).backend.runs.get? "" = some ⟨smallRequest.run, []⟩ := by
      decide +kernel
    have hqueue := h.1 "" _ hstored rfl
    revert hqueue
    decide +kernel
  · refine h.2 ⟨"", smallRequest.run, false⟩ ?_ ?_
    all_goals decide +kernel

end Scenara.Creation
