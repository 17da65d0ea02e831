import Scenara.Creation.Stranded
import Scenara.Creation.Submission

/-!
# Submission is idempotent

* `Fits`: a request is written like the first one exactly if it is equal to it, `jsonb` takes it,
  and a call that found no row of its key finds the key taken only if its request is another one.
-/

namespace Scenara.Creation.Submission

open Scenara.Core
open Run (RunRecord)

/-! ## What is promised -/

/-- The run that a call is about. -/
def runIdOf : Creation.Call → Option String
  | .consume held | .audit held | .event held | .enqueue held | .wait held _ => some held.runId
  | .returned outcome => some outcome.runId
  | .rollback _ _ | .fail _ _ | .failedEvent _ | .raised _ => none

/-- A call is over. -/
def Call.over (c : Call) : Bool :=
  match c.phase with
  | .creating (.returned _) | .creating (.raised _) | .raised _ | .rejected => true
  | _ => false

/-- The request of the call whose run was stored. -/
def System.firstRequest (x : System) : Option CreateRunRequest :=
  x.first.bind fun i => (x.calls[i]?).map Call.request

/-- The run of that call. -/
def System.runIds (setting : Setting) (x : System) :
    List String := x.first.toList.map setting.ids.draw

/-- The calls of a key create one run. -/
structure Idempotent (setting : Setting) (x : System) : Prop where
  runs : ∀ runId, (x.shared.backend.runs.get? runId).isSome ↔ runId ∈ x.runIds setting
  enqueued : x.shared.backend.enqueued = [] ∨ x.shared.backend.enqueued = x.runIds setting
  /-- A call that goes on after `create_run_idempotent`, or has returned, has the run of an equal
  request. -/
  returned : ∀ c ∈ x.calls, ∀ call, c.phase = .creating call → ∃ runId ∈ x.runIds setting,
    runIdOf call = some runId ∧ ∃ q ∈ x.firstRequest, c.request.same q
  raised : ∀ c ∈ x.calls, ∀ message, c.phase = .raised message →
    ∃ q ∈ x.firstRequest, c.request.same q = false
  /-- No call ends otherwise. -/
  accepted : ∀ c ∈ x.calls, c.phase ≠ .rejected
  /-- In the end, the run is stored and enqueued. -/
  done : (∀ c ∈ x.calls, c.over) → x.calls ≠ [] →
    ∃ runId, x.runIds setting = [runId] ∧ x.shared.backend.enqueued = [runId]
  progress : (∃ c ∈ x.calls, c.over = false) →
    ∃ i now x', step setting x (.advance i now false) = some x'

/-- The name of the parameter that `create_run` fills in. -/
def durationKey : String := "stream_segment_duration_ms"

/-- The parameters as they are written, without `max_units`. -/
def written (q : CreateRunRequest) : List (String × Doc) :=
  q.parameters.entries.filter fun e => e.1 ≠ "max_units"

/-- A stream leaves its segment duration out, and the other request has the default at the end. -/
def Setting.LeavesOut (setting : Setting) (q q' : CreateRunRequest) : Prop :=
  setting.isStream q ∧ durationKey ∉ (written q).map Prod.fst ∧
    written q' = written q ++ [(durationKey, .num setting.segmentDuration)]

/-- Written alike: the parameters in one order and with the same literals, but for `max_units` and a
default that is left out. -/
def Setting.Alike (setting : Setting) (q q' : CreateRunRequest) : Prop :=
  q.domain = q'.domain ∧ q.pipelineId = q'.pipelineId ∧ q.version = q'.version ∧
    q.assetId = q'.assetId ∧ q.sourceId = q'.sourceId ∧ q.priority = q'.priority ∧
    q.waitMs = q'.waitMs ∧
    (written q = written q' ∨ setting.LeavesOut q q' ∨ setting.LeavesOut q' q)

/-- Whatever is compared says whether a request is equal to the first one, `jsonb` takes the
parameters, and a call that is to insert a key that is there by now has another request. -/
def FitsBy (alike : CreateRunRequest → CreateRunRequest → Prop) (setting : Setting) (x : System) :
    Act → Prop
  | .submit _ _ => True
  | .advance i _ _ => ∀ c ∈ x.calls[i]?,
    match c.phase with
    | .submitted => setting.postgres = false →
      ∀ q ∈ x.firstRequest, (alike c.request q ↔ c.request.same q)
    | .replaying _ => ∀ q ∈ x.firstRequest, (alike c.request q ↔ c.request.same q)
    | .inserting => setting.storable c.request
    | .keying _ => (x.shared.row setting).committed.isSome →
      ∀ q ∈ x.firstRequest, c.request.same q = false
    | _ => True

/-- Requests are written alike exactly if they are equal. -/
def Fits (setting : Setting) : System → Act → Prop := FitsBy setting.Alike setting

/-- The hashes are equal exactly if the requests are. -/
def HashFits (setting : Setting) : System → Act → Prop :=
  FitsBy (fun q q' => setting.requestHash q = setting.requestHash q') setting

variable {setting : Setting} {x x' : System} {s s' : Shared} {c c' : Call} {i j : Nat} {now : ℚ}
  {deadline : Bool} {entry : Entry} {runId : String}

theorem same_refl (q : CreateRunRequest) : q.same q = true := by
  simp [CreateRunRequest.same, Doc.same_refl]

@[simp] theorem to_phase (c : Call) (phase : Phase) : (c.to phase).phase = phase := rfl

@[simp] theorem to_request (c : Call) (phase : Phase) : (c.to phase).request = c.request := rfl

/-! ## After the run is stored -/

/-- A call that no backend has failed. -/
def Unfailed : Creation.Call → Prop
  | .consume _ | .audit _ | .event _ | .enqueue _ | .wait _ _ | .returned _ => True
  | .rollback _ _ | .fail _ _ | .failedEvent _ | .raised _ => False

theorem unfailed_finish (held : Held) (created : Bool) : Unfailed (finish held created) := by
  unfold finish
  split <;> trivial

theorem runIdOf_finish (held : Held) (created : Bool) :
    runIdOf (finish held created) = some held.runId := by
  unfold finish
  split <;> rfl

/-- What a backend call of an unfailed call does. -/
structure Advanced (b b' : Backend) (call call' : Creation.Call) : Prop where
  unfailed : Unfailed call'
  runId : runIdOf call' = runIdOf call
  runs : ∀ runId, (b'.runs.get? runId).isSome = (b.runs.get? runId).isSome
  idempotency : b'.idempotency = b.idempotency
  /-- The run is enqueued when the call lets go of it. -/
  enqueued : b'.enqueued = b.enqueued ++
    if call.creating.isSome ∧ call'.creating = none then (runIdOf call).toList else []
  creating : call.creating = none → call'.creating = none

theorem isSome_insert_stored {b : Backend} {runId : String} (rows : Run.Store)
    (h : (b.runs.get? runId).isSome) (a : String) :
    ((b.runs.insert runId rows).get? a).isSome = (b.runs.get? a).isSome := by
  rw [Dict.get?_insert]
  by_cases ha : a = runId
  · rw [if_pos ha, ha, h]
    rfl
  · rw [if_neg ha]

theorem creation_advanced {b b' : Backend} {call call' : Creation.Call} (hcall : Unfailed call)
    (hrun : ∀ runId ∈ runIdOf call, (b.runs.get? runId).isSome) {choice : Choice}
    (hchoice : choice = .go ∨ choice = .deadline)
    (h : Creation.stepCall now b call choice = some (b', call')) : Advanced b b' call call' := by
  cases call with
  | rollback | fail | failedEvent | raised => cases hcall
  | returned => cases h
  | consume held | audit held =>
    rcases hchoice with rfl | rfl <;> cases h
    exact ⟨trivial, rfl, fun _ => rfl, rfl, (List.append_nil _).symm, nofun⟩
  | event held =>
    rcases hchoice with rfl | rfl
    · obtain ⟨rows, hrows⟩ := Option.isSome_iff_exists.1 (hrun held.runId rfl)
      have happend : Creation.appendEvent b held.runId held.stored "run.queued" =
          .ok { b with
            runs := b.runs.insert held.runId
              (Run.appendEvent rows held.stored "run.queued") } := by
        unfold Creation.appendEvent
        rw [hrows]
      simp only [Creation.stepCall, happend, Option.some.injEq, Prod.mk.injEq] at h
      obtain ⟨rfl, rfl⟩ := h
      exact ⟨trivial, rfl, isSome_insert_stored _ (hrun held.runId rfl), rfl,
        (List.append_nil _).symm, nofun⟩
    · cases h
  | enqueue held =>
    rcases hchoice with rfl | rfl <;> cases h
    refine ⟨unfailed_finish held true, runIdOf_finish held true, fun _ => rfl, rfl, ?_, nofun⟩
    rw [finish_creating, if_pos ⟨rfl, rfl⟩]
    rfl
  | wait held created =>
    obtain ⟨_, hrows⟩ := Option.isSome_iff_exists.1 (hrun held.runId rfl)
    have hquiet : ∀ call', Unfailed call' → runIdOf call' = some held.runId →
        call'.creating = none →
        Advanced b b (.wait held created) call' := fun call' hcall' hid hnone =>
      ⟨hcall', hid, fun _ => rfl, rfl, by simp [Call.creating], fun _ => hnone⟩
    rcases hchoice with rfl | rfl
    · simp only [Creation.stepCall, hrows] at h
      split at h <;> cases h <;> exact hquiet _ trivial rfl rfl
    · simp only [Creation.stepCall, hrows] at h
      cases h
      exact hquiet _ trivial rfl rfl

/-! ## Steps of a call -/

/-- What is so at each phase of a call. -/
def System.Ok (setting : Setting) (x : System) (i : Nat) (c : Call) : Prop :=
  match c.phase with
  | .submitted => True
  | .inserting | .keying _ => setting.postgres = true
  | .replaying entry =>
    x.shared.backend.idempotency.get? setting.idempotencyKey = some entry ∧
      x.shared.lock = some (i, none)
  | .closing _ => x.first = none ∧
    x.shared.lock = some (i, some (setting.requestHash c.request, setting.ids.draw i))
  | .creating call => Unfailed call ∧ (∃ runId ∈ x.runIds setting, runIdOf call = some runId) ∧
    (call.creating.isSome → x.first = some i)
  | .raised _ => x.first.isSome
  | .rejected => True

/-- The call holds the row. -/
def Phase.holds : Phase → Bool
  | .replaying _ | .closing _ => true
  | _ => false

/-- What every step keeps. -/
structure Inv (setting : Setting) (x : System) : Prop where
  /-- The row of the key is that of the first call. -/
  entry : x.shared.backend.idempotency.get? setting.idempotencyKey =
    x.first.bind fun i => (x.calls[i]?).map fun c => (setting.requestHash c.request,
      setting.ids.draw i)
  runs : ∀ runId, (x.shared.backend.runs.get? runId).isSome ↔ runId ∈ x.runIds setting
  memory : setting.postgres = false → x.shared.lock = none
  lock : ∀ i w, x.shared.lock = some (i, w) → ∃ c, x.calls[i]? = some c ∧ c.phase.holds
  calls : ∀ i c, x.calls[i]? = some c → x.Ok setting i c
  /-- The first call has its run enqueued when it lets go of it. -/
  first : ∀ i, x.first = some i → ∃ c call, x.calls[i]? = some c ∧ c.phase = .creating call ∧
    x.shared.backend.enqueued = if call.creating.isSome then [] else [setting.ids.draw i]
  unstarted : x.first = none → x.shared.backend.enqueued = []

/-- What a step of call `i` does. -/
inductive Effect (setting : Setting) (s : Shared) (i : Nat) (c : Call) : Shared → Call → Prop where
  | moved (phase : Phase) (hc : c.phase = .submitted ∧ setting.postgres = true ∨
        c.phase = .inserting ∧ setting.storable c.request = true)
      (hphase : phase = .inserting ∨ ∃ run, phase = .keying run) :
        Effect setting s i c s (c.to phase)
  | rejected (hc : c.phase = .inserting) (hstorable : setting.storable c.request = false) :
      Effect setting s i c s (c.to .rejected)
  | found (entry : Entry) (hc : c.phase = .submitted)
      (hentry : s.backend.idempotency.get? setting.idempotencyKey = some entry)
      (hpostgres : setting.postgres = true) (hlock : s.lock = none) :
      Effect setting s i c ⟨s.backend, some (i, none)⟩ (c.to (.replaying entry))
  | claimed (run : RunRecord) (hc : ∃ run, c.phase = .keying run) (hlock : s.lock = none)
      (hnone : s.backend.idempotency.get? setting.idempotencyKey = none) :
      Effect setting s i c ⟨s.backend,
        some (i, some (setting.requestHash c.request, setting.ids.draw i))⟩ (c.to (.closing run))
  | stored (run : RunRecord) (b : Backend)
      (hc : c.phase = .submitted ∨ ∃ run, c.phase = .closing run)
      (hnone : s.backend.idempotency.get? setting.idempotencyKey = none)
      (hkey : b.idempotency.get? setting.idempotencyKey =
        some (setting.requestHash c.request, setting.ids.draw i))
      (hruns : ∀ a, (b.runs.get? a).isSome ↔ a = setting.ids.draw i ∨
        (s.backend.runs.get? a).isSome)
      (henqueued : b.enqueued = s.backend.enqueued) (hlock : ∀ j w, s.lock = some (j, w) → j = i) :
      Effect setting s i c ⟨b, none⟩ (c.to (.creating (.consume (c.held (setting.ids.draw i) run))))
  /-- The run of an earlier call is returned. -/
  | replayed (runId : String) (stored : RunRecord)
      (hc : c.phase = .submitted ∧ setting.postgres = false ∨ ∃ entry, c.phase = .replaying entry)
      (hentry : s.backend.idempotency.get? setting.idempotencyKey =
        some (setting.requestHash c.request, runId)) (hlock : ∀ j w, s.lock = some (j, w) → j = i) :
      Effect setting s i c ⟨s.backend, none⟩ (c.to (.creating (finish (c.held runId stored) false)))
  | refused (message hash runId : String)
      (hc : c.phase = .submitted ∧ setting.postgres = false ∨ ∃ entry, c.phase = .replaying entry)
      (hentry : s.backend.idempotency.get? setting.idempotencyKey = some (hash, runId))
      (hhash : hash ≠ setting.requestHash c.request) (hlock : ∀ j w, s.lock = some (j, w) → j = i) :
      Effect setting s i c ⟨s.backend, none⟩ (c.to (.raised message))
  /-- The key was taken since the `SELECT`. -/
  | late (message : String) (hc : ∃ run, c.phase = .keying run)
      (hentry : (s.backend.idempotency.get? setting.idempotencyKey).isSome) :
      Effect setting s i c s (c.to (.raised message))
  | advanced (b : Backend) (call call' : Creation.Call) (hc : c.phase = .creating call)
      (h : Advanced s.backend b call call') :
      Effect setting s i c ⟨b, s.lock⟩ (c.to (.creating call'))

namespace Inv

section

variable (h : Inv setting x)
include h

theorem first_none
    (hnone : x.shared.backend.idempotency.get? setting.idempotencyKey = none) : x.first = none := by
  cases hfirst : x.first with
  | none => rfl
  | some i =>
    obtain ⟨c, _, hc, -⟩ := h.first i hfirst
    have hentry := h.entry
    simp [hnone, hfirst, Option.bind_some, hc] at hentry

theorem runs_none
    (hnone : x.shared.backend.idempotency.get? setting.idempotencyKey = none) (runId : String) :
    x.shared.backend.runs.get? runId = none := by
  rw [← Option.not_isSome_iff_eq_none, h.runs, System.runIds, h.first_none hnone]
  exact List.not_mem_nil

theorem of_entry {hash : String}
    (hentry : x.shared.backend.idempotency.get? setting.idempotencyKey = some (hash, runId)) :
    ∃ q, x.firstRequest = some q ∧ hash = setting.requestHash q ∧ x.runIds setting = [runId] := by
  rw [h.entry, Option.bind_eq_some_iff] at hentry
  obtain ⟨i, hfirst, hentry⟩ := hentry
  obtain ⟨c, hc, heq⟩ := Option.map_eq_some_iff.1 hentry
  cases heq
  refine ⟨c.request, ?_, rfl, ?_⟩
  · simp [System.firstRequest, hfirst, hc]
  · simp [System.runIds, hfirst]

theorem replaying (hc : x.calls[i]? = some c) (hphase : c.phase = .replaying entry) :
    x.shared.backend.idempotency.get? setting.idempotencyKey = some entry ∧
      x.shared.lock = some (i, none) := by
  have hok := h.calls i c hc
  rwa [System.Ok, hphase] at hok

theorem closing (hc : x.calls[i]? = some c) {run : RunRecord}
    (hphase : c.phase = .closing run) : x.first = none ∧
      x.shared.lock = some (i, some (setting.requestHash c.request, setting.ids.draw i)) := by
  have hok := h.calls i c hc
  rwa [System.Ok, hphase] at hok

theorem creating (hc : x.calls[i]? = some c) {call : Creation.Call}
    (hphase : c.phase = .creating call) : Unfailed call ∧
      (∃ runId ∈ x.runIds setting, runIdOf call = some runId) ∧
      (call.creating.isSome → x.first = some i) := by
  have hok := h.calls i c hc
  rwa [System.Ok, hphase] at hok

theorem raised (hc : x.calls[i]? = some c) {message : String}
    (hphase : c.phase = .raised message) : x.first.isSome := by
  have hok := h.calls i c hc
  rwa [System.Ok, hphase] at hok

theorem free (hc : x.calls[i]? = some c) (hphase : c.phase.holds = false) :
    (x.shared.row setting).Free i := by
  intro w hw
  obtain ⟨_, hc', hholds⟩ := h.lock i w hw
  rw [hc] at hc'
  simp [← Option.some.inj hc', hphase] at hholds

theorem lock_ne (hc : x.calls[i]? = some c) (hphase : c.phase.holds = false)
    {w : Option Entry} (hlock : x.shared.lock = some (j, w)) : j ≠ i := by
  rintro rfl
  exact h.free hc hphase w hlock

theorem not_first (hc : x.calls[i]? = some c)
    (hphase : ∀ call, c.phase ≠ .creating call) : x.first ≠ some i := by
  intro hfirst
  obtain ⟨d, call, hd, hcreating, -⟩ := h.first i hfirst
  rw [hc] at hd
  exact hphase call (Option.some.inj hd ▸ hcreating)

end

end Inv

section

variable (h : Inv setting x)
include h

theorem submitMemory_effect (hpostgres : setting.postgres = false)
    (hphase : c.phase = .submitted) (hs : submitMemory setting i now x.shared c = (s', c')) :
    Effect setting x.shared i c s' c' := by
  have hlock := h.memory hpostgres
  have hown : ∀ j w, x.shared.lock = some (j, w) → j = i := by simp [hlock]
  have hshared : ∀ b : Backend, { x.shared with backend := b } = (⟨b, none⟩ : Shared) := fun b => by
    rw [← hlock]
  unfold submitMemory at hs
  cases hentry : x.shared.backend.idempotency.get? setting.idempotencyKey with
  | none =>
    have hruns := h.runs_none hentry
    simp only [createRunIdempotent, hentry, hruns, ne_eq, not_true_eq_false, if_false,
      Prod.mk.injEq] at hs
    obtain ⟨rfl, rfl⟩ := hs
    rw [hshared]
    refine .stored _ _ (.inl hphase) hentry (Dict.get?_insert_self _ _ _) (fun a => ?_) rfl hown
    rw [Dict.get?_insert]
    by_cases ha : a = setting.ids.draw i <;> simp [ha]
  | some entry =>
    obtain ⟨hash, runId⟩ := entry
    obtain ⟨q, -, -, hids⟩ := h.of_entry hentry
    have hrun : (x.shared.backend.runs.get? runId).isSome := by simp [h.runs, hids]
    obtain ⟨rows, hrows⟩ := Option.isSome_iff_exists.1 hrun
    by_cases hhash : hash = setting.requestHash c.request
    · subst hhash
      simp only [createRunIdempotent, hentry, hrows, ne_eq, not_true_eq_false, if_false,
        Prod.mk.injEq] at hs
      obtain ⟨rfl, rfl⟩ := hs
      rw [hshared]
      exact .replayed runId rows.run (.inl ⟨hphase, hpostgres⟩) hentry hown
    · simp only [createRunIdempotent, hentry, ne_eq, hhash, not_false_eq_true, if_true,
        Prod.mk.injEq] at hs
      obtain ⟨rfl, rfl⟩ := hs
      rw [show x.shared = ⟨x.shared.backend, none⟩ by rw [← hlock]] at hentry hown ⊢
      exact .refused _ hash runId (.inl ⟨hphase, hpostgres⟩) hentry hhash hown

theorem select_effect (hpostgres : setting.postgres = true)
    (hc : x.calls[i]? = some c) (hphase : c.phase = .submitted)
    (hs : select setting i x.shared c = some (s', c')) : Effect setting x.shared i c s' c' := by
  have hfree := h.free hc (by rw [hphase]; rfl)
  simp only [select, Option.bind_eq_bind, Option.bind_eq_some_iff, Prod.exists] at hs
  obtain ⟨row, found, hselect, hs⟩ := hs
  obtain ⟨hfound, ⟨rfl, rfl⟩ | ⟨hsome, rfl⟩⟩ := Row.selectForUpdate_of_free hfree hselect
  · cases hs
    exact .moved _ (.inl ⟨hphase, hpostgres⟩) (.inl rfl)
  · obtain ⟨entry, rfl⟩ := Option.isSome_iff_exists.1 hsome
    cases hs
    have hlock : x.shared.lock = none := by
      cases hlock : x.shared.lock with
      | none => rfl
      | some p =>
        obtain ⟨j, w⟩ := p
        have hij : j ≠ i := fun hij => hfree w (by simp [Shared.row, hlock, hij])
        have hsame := congrArg Row.lock ((Row.moved_selectForUpdate hselect).held j w hij hlock)
        rw [Shared.row, hlock] at hsame
        exact absurd (congrArg Prod.fst (Option.some.inj hsame)).symm hij
    exact .found entry hphase hfound.symm hpostgres hlock

theorem replay_effect (hc : x.calls[i]? = some c)
    (hphase : c.phase = .replaying entry) (hs : replay setting i x.shared c entry = (s', c')) :
    Effect setting x.shared i c s' c' := by
  obtain ⟨hentry, hlock⟩ := h.replaying hc hphase
  obtain ⟨hash, runId⟩ := entry
  obtain ⟨q, -, -, hids⟩ := h.of_entry hentry
  have hown : ∀ j w, x.shared.lock = some (j, w) → j = i := by
    intro j w hj
    rw [hlock] at hj
    exact (congrArg Prod.fst (Option.some.inj hj)).symm
  have habort : ((x.shared.row setting).abort i).lock = none := by
    simp [Shared.row, hlock]
  have hrun : (x.shared.backend.runs.get? runId).isSome := by simp [h.runs, hids]
  obtain ⟨rows, hrows⟩ := Option.isSome_iff_exists.1 hrun
  unfold replay at hs
  rw [habort] at hs
  by_cases hhash : hash = setting.requestHash c.request
  · subst hhash
    simp only [ne_eq, not_true_eq_false, if_false, hrows, Prod.mk.injEq] at hs
    obtain ⟨rfl, rfl⟩ := hs
    exact .replayed runId rows.run (.inr ⟨_, hphase⟩) hentry hown
  · simp only [ne_eq, hhash, not_false_eq_true, if_true, Prod.mk.injEq] at hs
    obtain ⟨rfl, rfl⟩ := hs
    exact .refused _ hash runId (.inr ⟨_, hphase⟩) hentry hhash hown

theorem insertRun_effect (hc : x.calls[i]? = some c) (hphase : c.phase = .inserting) :
    Effect setting x.shared i c x.shared (insertRun setting i now x.shared c) := by
  have hnew : (x.shared.backend.runs.get? (setting.ids.draw i)).isSome = false := by
    rw [Bool.eq_false_iff, ne_eq, h.runs]
    intro hmem
    obtain ⟨j, hfirst, hdraw⟩ := List.mem_map.1 hmem
    -- The call whose run is stored is past this step.
    obtain rfl := setting.ids.injective hdraw
    obtain ⟨_, _, hc', hphase', -⟩ := h.first j (by simpa using hfirst)
    rw [hc] at hc'
    rw [← Option.some.inj hc', hphase] at hphase'
    cases hphase'
  unfold insertRun
  rw [hnew]
  split
  · rename_i hstorable
    exact .rejected hphase hstorable
  · rename_i hstorable
    exact .moved _ (.inr ⟨hphase, by simpa using hstorable⟩) (.inr ⟨_, rfl⟩)

theorem insertKey_effect (hc : x.calls[i]? = some c) {run : RunRecord}
    (hphase : c.phase = .keying run) (hs : insertKey setting i x.shared c run = some (s', c')) :
    Effect setting x.shared i c s' c' := by
  unfold insertKey at hs
  split at hs
  · rename_i hentry
    cases hs
    exact .late _ ⟨run, hphase⟩ hentry
  · rename_i hnone
    simp only [Option.bind_eq_bind, Option.bind_eq_some_iff, Option.pure_def, Option.some.injEq,
      Prod.mk.injEq] at hs
    obtain ⟨row, hwrite, rfl, rfl⟩ := hs
    have hlock : x.shared.lock = none := by
      cases hlock : x.shared.lock with
      | none => rfl
      | some p =>
        obtain ⟨j, w⟩ := p
        have hfree := h.free hc (by rw [hphase]; rfl)
        have hij : j ≠ i := fun hij => hfree w (by simp [Shared.row, hlock, hij])
        rw [Row.write, if_pos (Row.heldByOther_of_lock hij hlock)] at hwrite
        cases hwrite
    rw [Row.write_eq hwrite]
    exact .claimed run ⟨run, hphase⟩ hlock (Option.not_isSome_iff_eq_none.1 hnone)

theorem commit_effect (hc : x.calls[i]? = some c) {run : RunRecord}
    (hphase : c.phase = .closing run) (hs : commit setting i x.shared c run = (s', c')) :
    Effect setting x.shared i c s' c' := by
  obtain ⟨hfirst, hlock⟩ := h.closing hc hphase
  have hnone : x.shared.backend.idempotency.get? setting.idempotencyKey = none := by
    rw [h.entry, hfirst]
    rfl
  have hcommit : (x.shared.row setting).commit i =
      ⟨some (setting.requestHash c.request, setting.ids.draw i), none⟩ := by
    simp [Shared.row, hlock]
  unfold commit at hs
  rw [hcommit] at hs
  cases hs
  refine .stored run _ (.inr ⟨run, hphase⟩) hnone (Dict.get?_insert_self _ _ _) (fun a => ?_) rfl ?_
  · rw [Dict.get?_insert]
    by_cases ha : a = setting.ids.draw i <;> simp [ha]
  · intro j w hj
    rw [hlock] at hj
    exact (congrArg Prod.fst (Option.some.inj hj)).symm

theorem stepCall_effect (hc : x.calls[i]? = some c)
    (hs : stepCall setting i now deadline x.shared c = some (s', c')) :
    Effect setting x.shared i c s' c' := by
  unfold stepCall at hs
  split at hs
  · rename_i hphase
    split at hs
    · rename_i hpostgres
      exact select_effect h hpostgres hc hphase hs
    · rename_i hmemory
      exact submitMemory_effect h (by simpa using hmemory) hphase (Option.some.inj hs)
  · rename_i entry hphase
    exact replay_effect h hc hphase (Option.some.inj hs)
  · rename_i hphase
    cases hs
    exact insertRun_effect h hc hphase
  · rename_i run hphase
    exact insertKey_effect h hc hphase hs
  · rename_i run hphase
    exact commit_effect h hc hphase (Option.some.inj hs)
  · rename_i call hphase
    obtain ⟨⟨b, call'⟩, hcall, heq⟩ := Option.map_eq_some_iff.1 hs
    cases heq
    obtain ⟨hunfailed, ⟨_, hmem, hid⟩, -⟩ := h.creating hc hphase
    refine .advanced b call call' hphase (creation_advanced hunfailed (fun a ha => ?_) ?_ hcall)
    · rw [hid] at ha
      exact (h.runs a).2 (Option.some.inj ha ▸ hmem)
    · cases deadline
      · exact .inl rfl
      · exact .inr rfl
  · cases hs
  · cases hs

end

/-! ## Runs -/

theorem map_request_set (hc : x.calls[i]? = some c) (hrequest : c'.request = c.request) (j : Nat) :
    ((x.calls.set i c')[j]?).map Call.request = (x.calls[j]?).map Call.request := by
  rw [List.getElem?_set]
  by_cases hij : i = j
  · subst hij
    rw [if_pos rfl, if_pos (List.getElem?_eq_some_iff.1 hc).1, hc, Option.map_some, Option.map_some,
      hrequest]
  · rw [if_neg hij]

section

variable (h : Inv setting x) (hc : x.calls[i]? = some c)
include h hc

theorem Inv.keep (hrequest : c'.request = c.request)
    (hkey : s'.backend.idempotency.get? setting.idempotencyKey =
      x.shared.backend.idempotency.get? setting.idempotencyKey)
    (hruns : ∀ a, (s'.backend.runs.get? a).isSome = (x.shared.backend.runs.get? a).isSome)
    (hmemory : setting.postgres = false → s'.lock = none)
    (hlock : ∀ j w, s'.lock = some (j, w) → j = i ∧ c'.phase.holds ∨
      j ≠ i ∧ x.shared.lock = some (j, w))
    (hothers : ∀ j w, j ≠ i → x.shared.lock = some (j, w) → s'.lock = some (j, w))
    (hok : System.Ok setting ⟨s', x.calls, x.first⟩ i c')
    (hfirst : x.first = some i → ∃ call, c'.phase = .creating call ∧
      s'.backend.enqueued = if call.creating.isSome then [] else [setting.ids.draw i])
    (henqueued : x.first ≠ some i → s'.backend.enqueued = x.shared.backend.enqueued) :
    Inv setting ⟨s', x.calls.set i c', x.first⟩ where
  entry := by
    refine hkey.trans (h.entry.trans ?_)
    cases x.first with
    | none => rfl
    | some j =>
      have hsame := congrArg
        (Option.map fun q => (setting.requestHash q, setting.ids.draw j))
          (map_request_set hc hrequest j)
      rw [Option.map_map, Option.map_map] at hsame
      exact hsame.symm
  runs a := by
    rw [hruns]
    exact h.runs a
  memory := hmemory
  lock j w hj := by
    rcases hlock j w hj with ⟨rfl, hphase⟩ | ⟨hij, hold⟩
    · exact ⟨c', Parties.getElem?_set_same hc, hphase⟩
    · obtain ⟨d, hd, hphase⟩ := h.lock j w hold
      exact ⟨d, (Parties.getElem?_set_other hij).trans hd, hphase⟩
  calls j d hd := by
    rcases Parties.getElem?_set_cases hd with ⟨rfl, rfl⟩ | ⟨hij, hd⟩
    · exact hok
    · have hold := h.calls j d hd
      unfold System.Ok at hold ⊢
      cases hphase : d.phase with
      | submitted | rejected => trivial
      | inserting | keying | creating | raised =>
        rwa [hphase] at hold
      | replaying =>
        rw [hphase] at hold
        exact ⟨hkey.trans hold.1, hothers j none hij hold.2⟩
      | closing =>
        rw [hphase] at hold
        exact ⟨hold.1, hothers j _ hij hold.2⟩
  first j hj := by
    by_cases hij : j = i
    · subst hij
      obtain ⟨call, hphase, hqueue⟩ := hfirst hj
      exact ⟨c', call, Parties.getElem?_set_same hc, hphase, hqueue⟩
    · obtain ⟨d, call, hd, hphase, hqueue⟩ := h.first j hj
      refine ⟨d, call, (Parties.getElem?_set_other hij).trans hd, hphase,
        (henqueued ?_).trans hqueue⟩
      rw [hj]
      exact fun heq => hij (Option.some.inj heq)
  unstarted hnone := by
    refine (henqueued ?_).trans (h.unstarted hnone)
    rw [show x.first = none from hnone]
    exact Option.some_ne_none i ∘ Eq.symm

theorem Inv.store (run : RunRecord) {b : Backend}
    (hnone : x.shared.backend.idempotency.get? setting.idempotencyKey = none)
    (hkey : b.idempotency.get? setting.idempotencyKey =
      some (setting.requestHash c.request, setting.ids.draw i))
    (hruns : ∀ a, (b.runs.get? a).isSome ↔ a = setting.ids.draw i ∨
      (x.shared.backend.runs.get? a).isSome)
    (henqueued : b.enqueued = x.shared.backend.enqueued)
    (hlock : ∀ j w, x.shared.lock = some (j, w) → j = i) :
    Inv setting ⟨⟨b, none⟩,
      x.calls.set i (c.to (.creating (.consume (c.held (setting.ids.draw i) run)))), some i⟩ := by
  have hfirst := h.first_none hnone
  refine ⟨?_, fun a => ?_, fun _ => rfl, fun _ _ hj => (nomatch hj), fun j d hd => ?_,
    fun j hj => ?_,
    fun hj => (nomatch hj)⟩
  · rwa [Option.bind_some, Parties.getElem?_set_same hc]
  · rw [hruns, h.runs]
    simp [System.runIds, hfirst]
  · rcases Parties.getElem?_set_cases hd with ⟨rfl, rfl⟩ | ⟨hij, hd⟩
    · exact ⟨trivial, ⟨setting.ids.draw j, by simp [System.runIds], rfl⟩, fun _ => rfl⟩
    · have hold := h.calls j d hd
      unfold System.Ok at hold ⊢
      cases hphase : d.phase with
      | submitted | rejected => trivial
      | inserting | keying =>
        rwa [hphase] at hold
      | replaying =>
        rw [hphase, hnone] at hold
        exact absurd hold.1 (Option.some_ne_none _).symm
      | closing =>
        rw [hphase] at hold
        exact absurd (hlock j _ hold.2) hij
      | creating =>
        rw [hphase] at hold
        obtain ⟨-, ⟨_, hmem, -⟩, -⟩ := hold
        simp [System.runIds, hfirst] at hmem
      | raised => rfl
  · obtain rfl := Option.some.inj hj
    exact ⟨_, _, Parties.getElem?_set_same hc, rfl, henqueued.trans (h.unstarted hfirst)⟩

theorem Inv.keep_lock (hholds : c.phase.holds = false)
    (phase : Phase) {b : Backend} (hkey : b.idempotency = x.shared.backend.idempotency)
    (hruns : ∀ a, (b.runs.get? a).isSome = (x.shared.backend.runs.get? a).isSome)
    (hok : System.Ok setting ⟨⟨b, x.shared.lock⟩, x.calls, x.first⟩ i (c.to phase))
    (hfirst : x.first = some i → ∃ call, phase = .creating call ∧
      b.enqueued = if call.creating.isSome then [] else [setting.ids.draw i])
    (henqueued : x.first ≠ some i → b.enqueued = x.shared.backend.enqueued) :
    Inv setting ⟨⟨b, x.shared.lock⟩, x.calls.set i (c.to phase), x.first⟩ :=
  h.keep hc rfl (by rw [hkey]) hruns h.memory (fun _ _ hj => .inr ⟨h.lock_ne hc hholds hj, hj⟩)
    (fun _ _ _ hj => hj) hok hfirst henqueued

theorem Inv.release (phase : Phase)
    (hlock : ∀ j w, x.shared.lock = some (j, w) → j = i) (hfirst : x.first ≠ some i)
    (hok : System.Ok setting ⟨⟨x.shared.backend, none⟩, x.calls, x.first⟩ i (c.to phase)) :
    Inv setting ⟨⟨x.shared.backend, none⟩, x.calls.set i (c.to phase), x.first⟩ :=
  h.keep hc rfl rfl (fun _ => rfl) (fun _ => rfl) (fun _ _ hj => nomatch hj)
    (fun j w hij hj => absurd (hlock j w hj) hij) hok (fun heq => absurd heq hfirst) fun _ => rfl

theorem Inv.take (phase : Phase) {w : Option Entry}
    (hlock : x.shared.lock = none) (hpostgres : setting.postgres = true) (hfirst : x.first ≠ some i)
    (hholds : phase.holds)
    (hok : System.Ok setting ⟨⟨x.shared.backend, some (i, w)⟩, x.calls, x.first⟩ i (c.to phase)) :
    Inv setting ⟨⟨x.shared.backend, some (i, w)⟩, x.calls.set i (c.to phase), x.first⟩ := by
  refine h.keep hc rfl rfl (fun _ => rfl) (fun hmemory => ?_)
    (fun j w hj => .inl ⟨(congrArg Prod.fst (Option.some.inj hj)).symm, hholds⟩)
      (fun j w _ hj => ?_) hok
    (fun heq => absurd heq hfirst) fun _ => rfl
  · simp [hpostgres] at hmemory
  · simp [hlock] at hj

theorem Effect.inv (he : Effect setting x.shared i c s' c') :
    Inv setting ⟨s', x.calls.set i c', if c.stored c' then some i else x.first⟩ := by
  have hok := h.calls i c hc
  unfold System.Ok at hok
  cases he with
  | moved phase hphase hphase' =>
    have hholds : c.phase.holds = false ∧ ∀ call, c.phase ≠ .creating call := by
      rcases hphase with ⟨hphase, -⟩ | ⟨hphase, -⟩ <;> simp [hphase, Phase.holds]
    have hpostgres : setting.postgres = true := by
      rcases hphase with ⟨-, hpostgres⟩ | ⟨hphase, -⟩
      · exact hpostgres
      · rwa [hphase] at hok
    rw [if_neg (by
      rcases hphase with ⟨hphase, -⟩ | ⟨hphase, -⟩ <;> rcases hphase' with rfl | ⟨_, rfl⟩ <;>
        simp [Call.stored, hphase])]
    refine h.keep_lock hc hholds.1 phase rfl (fun _ => rfl) ?_
      (fun heq => absurd heq (h.not_first hc hholds.2)) fun _ => rfl
    rcases hphase' with rfl | ⟨_, rfl⟩ <;> exact hpostgres
  | rejected hphase =>
    rw [if_neg (by simp [Call.stored, hphase])]
    exact h.keep_lock hc (by rw [hphase]; rfl) _ rfl (fun _ => rfl) trivial
      (fun heq => absurd heq (h.not_first hc (by simp [hphase]))) fun _ => rfl
  | found entry hphase hentry hpostgres hlock =>
    rw [if_neg (by simp [Call.stored, hphase])]
    exact h.take hc (.replaying entry) hlock hpostgres (h.not_first hc (by simp [hphase])) rfl
      ⟨hentry, rfl⟩
  | claimed run hphase hlock hnone =>
    obtain ⟨_, hphase⟩ := hphase
    rw [hphase] at hok
    rw [if_neg (by simp [Call.stored, hphase])]
    exact h.take hc (.closing run) hlock hok (h.not_first hc (by simp [hphase])) rfl
      ⟨h.first_none hnone, rfl⟩
  | stored run b hphase hnone hkey hruns henqueued hlock =>
    rw [if_pos (by rcases hphase with hphase | ⟨_, hphase⟩ <;> simp [Call.stored, hphase])]
    exact h.store hc run hnone hkey hruns henqueued hlock
  | replayed runId stored hphase hentry hlock =>
    have hfirst : x.first ≠ some i := by
      rcases hphase with ⟨hphase, -⟩ | ⟨_, hphase⟩ <;> exact h.not_first hc (by simp [hphase])
    obtain ⟨q, -, -, hids⟩ := h.of_entry hentry
    rw [if_neg (by
      unfold finish
      rcases hphase with ⟨hphase, -⟩ | ⟨_, hphase⟩ <;> split <;> simp [Call.stored, hphase])]
    refine h.release hc _ hlock hfirst ⟨unfailed_finish _ _, ⟨runId, ?_, runIdOf_finish _ _⟩, ?_⟩
    · change runId ∈ x.runIds setting
      rw [hids]
      exact List.mem_singleton.2 rfl
    · rw [finish_creating]
      exact fun hsome => nomatch hsome
  | refused _ _ _ hphase hentry _ hlock =>
    have hfirst : x.first ≠ some i := by
      rcases hphase with ⟨hphase, -⟩ | ⟨_, hphase⟩ <;> exact h.not_first hc (by simp [hphase])
    obtain ⟨q, hq, -⟩ := h.of_entry hentry
    rw [if_neg (by rcases hphase with ⟨hphase, -⟩ | ⟨_, hphase⟩ <;> simp [Call.stored, hphase])]
    exact h.release hc _ hlock hfirst (Option.isSome_of_isSome_bind (Option.isSome_of_eq_some hq))
  | late _ hphase hentry =>
    obtain ⟨_, hphase⟩ := hphase
    obtain ⟨⟨_, _⟩, hentry⟩ := Option.isSome_iff_exists.1 hentry
    obtain ⟨q, hq, -⟩ := h.of_entry hentry
    rw [if_neg (by simp [Call.stored, hphase])]
    exact h.keep_lock hc (by rw [hphase]; rfl) _ rfl (fun _ => rfl)
      (Option.isSome_of_isSome_bind (Option.isSome_of_eq_some hq))
      (fun heq => absurd heq (h.not_first hc (by simp [hphase]))) fun _ => rfl
  | advanced b call call' hphase hadvanced =>
    obtain ⟨_, ⟨runId, hmem, hid⟩, hfirst⟩ := h.creating hc hphase
    have hcreating : call'.creating.isSome → call.creating.isSome := by
      intro hsome
      by_contra hnone
      rw [hadvanced.creating (Option.not_isSome_iff_eq_none.1 hnone)] at hsome
      cases hsome
    rw [if_neg (by simp [Call.stored, hphase])]
    refine h.keep_lock hc (by rw [hphase]; rfl) _ hadvanced.idempotency hadvanced.runs
      ⟨hadvanced.unfailed, ⟨runId, hmem, hadvanced.runId.trans hid⟩,
        fun hsome => hfirst (hcreating hsome)⟩
      (fun hi => ⟨call', rfl, ?_⟩) (fun hne => ?_)
    · -- The first call: its run is enqueued as it lets go of it.
      obtain ⟨d, _, hd, hphase₀, hqueue⟩ := h.first i hi
      rw [hc] at hd
      obtain rfl := Option.some.inj hd
      rw [hphase] at hphase₀
      cases hphase₀
      have hrunId : runIdOf call = some (setting.ids.draw i) := by
        rw [System.runIds, hi] at hmem
        rw [hid, List.mem_singleton.1 hmem]
      rw [hadvanced.enqueued, hqueue, hrunId]
      cases hcall : call.creating with
      | none => simp [hadvanced.creating hcall]
      | some => cases hcall' : call'.creating <;> simp
    · have hnone : call.creating = none := by
        by_contra hsome
        exact hne (hfirst (Option.isSome_iff_ne_none.2 hsome))
      rw [hadvanced.enqueued, hnone]
      simp

end

/-- What a call was told fits the request of the first one. -/
def Call.Right (c : Call) (q : CreateRunRequest) : Prop :=
  match c.phase with
  | .creating _ => c.request.same q = true
  | .raised _ => c.request.same q = false
  | _ => True

/-- What the calls were told fits, and the database rejected none. -/
def Right (x : System) : Prop :=
  ∀ c ∈ x.calls, c.phase ≠ .rejected ∧ ∀ q ∈ x.firstRequest, c.Right q

theorem firstRequest_set (hc : x.calls[i]? = some c) (hrequest : c'.request = c.request) :
    System.firstRequest ⟨s', x.calls.set i c', x.first⟩ = x.firstRequest := by
  exact congrArg x.first.bind (funext fun j => map_request_set hc hrequest j)

theorem right_set (hr : Right x) (hc : x.calls[i]? = some c) (hrequest : c'.request = c.request) :
    Right ⟨s', x.calls.set i c', x.first⟩ ↔
      c'.phase ≠ .rejected ∧ ∀ q ∈ x.firstRequest, c'.Right q := by
  unfold Right
  rw [firstRequest_set hc hrequest]
  constructor
  · exact fun h => h c' (List.mem_of_getElem? (Parties.getElem?_set_same hc))
  · intro h d hd
    rcases List.mem_or_eq_of_mem_set hd with hd | rfl
    · exact hr d hd
    · exact h

theorem right_of_early {q : CreateRunRequest} (hcreating : ∀ call, c.phase ≠ .creating call)
    (hraised : ∀ message, c.phase ≠ .raised message) : c.Right q := by
  unfold Call.Right
  split
  · exact absurd ‹_› (hcreating _)
  · exact absurd ‹_› (hraised _)
  · trivial

theorem fits_iff {alike : CreateRunRequest → CreateRunRequest → Prop} (hc : x.calls[i]? = some c) :
    FitsBy alike setting x (.advance i now deadline) ↔ match c.phase with
      | .submitted => setting.postgres = false →
        ∀ q ∈ x.firstRequest, (alike c.request q ↔ c.request.same q)
      | .replaying _ => ∀ q ∈ x.firstRequest, (alike c.request q ↔ c.request.same q)
      | .inserting => setting.storable c.request
      | .keying _ => (x.shared.row setting).committed.isSome →
        ∀ q ∈ x.firstRequest, c.request.same q = false
      | _ => True := by
  refine ⟨fun h => h c hc, fun h d hd => ?_⟩
  obtain rfl : c = d := Option.some.inj (hc.symm.trans hd)
  exact h

theorem fits_of_hash (h : Inv setting x) (hc : x.calls[i]? = some c) {hash : String}
    (hentry : x.shared.backend.idempotency.get? setting.idempotencyKey = some (hash, runId))
    (hphase : c.phase = .submitted ∧ setting.postgres = false ∨
      ∃ entry, c.phase = .replaying entry) :
    HashFits setting x (.advance i now deadline) ↔
      ∀ q ∈ x.firstRequest, (hash = setting.requestHash c.request ↔ c.request.same q) := by
  obtain ⟨q₀, hq₀, hhash, -⟩ := h.of_entry hentry
  have hsame : (∀ q ∈ x.firstRequest,
      (setting.requestHash c.request = setting.requestHash q ↔ c.request.same q)) ↔
      ∀ q ∈ x.firstRequest, (hash = setting.requestHash c.request ↔ c.request.same q) := by
    refine forall₂_congr fun q hq => ?_
    obtain rfl : q₀ = q := Option.some.inj (hq₀.symm.trans hq)
    rw [hhash, eq_comm (a := setting.requestHash q₀)]
  refine (fits_iff hc).trans (Iff.trans ?_ hsame)
  rcases hphase with ⟨hphase, hpostgres⟩ | ⟨_, hphase⟩ <;> rw [hphase]
  simp [hpostgres]

theorem Effect.right (h : Inv setting x) (hr : Right x) (hc : x.calls[i]? = some c)
    (he : Effect setting x.shared i c s' c') :
    Right ⟨s', x.calls.set i c', if c.stored c' then some i else x.first⟩ ↔
      HashFits setting x (.advance i now deadline) := by
  cases he with
  | moved _ hphase hphase' =>
    rw [if_neg (by
      rcases hphase with ⟨hphase, -⟩ | ⟨hphase, -⟩ <;> rcases hphase' with rfl | ⟨_, rfl⟩ <;>
        simp [Call.stored, hphase])]
    refine iff_of_true ((right_set hr hc (to_request c _)).2 ?_) ((fits_iff hc).2 ?_)
    · rcases hphase' with rfl | ⟨_, rfl⟩ <;> exact ⟨by simp, fun q _ => trivial⟩
    · rcases hphase with ⟨hphase, hpostgres⟩ | ⟨hphase, hstorable⟩ <;> rw [hphase]
      · simp [hpostgres]
      · exact hstorable
  | rejected hphase hstorable =>
    rw [if_neg (by simp [Call.stored, hphase])]
    refine iff_of_false (fun hright => ?_) fun hfits => ?_
    · exact ((right_set hr hc (to_request c _)).1 hright).1 rfl
    · have hfit := (fits_iff hc).1 hfits
      rw [hphase] at hfit
      simp [hstorable] at hfit
  | found _ hphase _ hpostgres =>
    rw [if_neg (by simp [Call.stored, hphase])]
    refine iff_of_true ((right_set hr hc (to_request c _)).2 ⟨by simp, fun q _ => trivial⟩)
      ((fits_iff hc).2 ?_)
    rw [hphase]
    simp [hpostgres]
  | claimed _ hphase _ hnone =>
    obtain ⟨_, hphase⟩ := hphase
    rw [if_neg (by simp [Call.stored, hphase])]
    refine iff_of_true ((right_set hr hc (to_request c _)).2 ⟨by simp, fun q _ => trivial⟩)
      ((fits_iff hc).2 ?_)
    rw [hphase, System.firstRequest, h.first_none hnone]
    exact fun _ q hq => nomatch hq
  | stored _ b hphase hnone =>
    have hfirst := h.first_none hnone
    rw [if_pos (by rcases hphase with hphase | ⟨_, hphase⟩ <;> simp [Call.stored, hphase])]
    refine iff_of_true (fun d hd => ?_) ((fits_iff hc).2 ?_)
    · obtain ⟨j, hj⟩ := List.getElem?_of_mem hd
      rcases Parties.getElem?_set_cases hj with ⟨rfl, rfl⟩ | ⟨_, hj⟩
      · refine ⟨by simp, fun q hq => ?_⟩
        rw [System.firstRequest, Option.bind_some, Parties.getElem?_set_same hc] at hq
        cases hq
        exact same_refl c.request
      · refine ⟨(hr d (List.mem_of_getElem? hj)).1, fun q _ => ?_⟩
        refine right_of_early (fun call hcall => ?_) fun message hmessage => ?_
        · obtain ⟨-, ⟨_, hmem, -⟩, -⟩ := h.creating hj hcall
          simp [System.runIds, hfirst] at hmem
        · have hsome := h.raised hj hmessage
          rw [hfirst] at hsome
          cases hsome
    · rw [System.firstRequest, hfirst]
      rcases hphase with hphase | ⟨_, hphase⟩ <;> rw [hphase]
      · exact fun _ q hq => nomatch hq
      · trivial
  | replayed _ stored hphase hentry =>
    rw [if_neg (by
      unfold finish
      rcases hphase with ⟨hphase, -⟩ | ⟨_, hphase⟩ <;> split <;> simp [Call.stored, hphase])]
    refine (right_set hr hc (to_request c _)).trans
      (Iff.trans ?_ (fits_of_hash h hc hentry hphase).symm)
    rw [and_iff_right (by simp)]
    exact forall₂_congr fun q _ => by simp [Call.Right]
  | refused _ _ _ hphase hentry hhash =>
    rw [if_neg (by rcases hphase with ⟨hphase, -⟩ | ⟨_, hphase⟩ <;> simp [Call.stored, hphase])]
    refine (right_set hr hc (to_request c _)).trans
      (Iff.trans ?_ (fits_of_hash h hc hentry hphase).symm)
    rw [and_iff_right (by simp)]
    exact forall₂_congr fun q _ => by simp [Call.Right, hhash]
  | late _ hphase hentry =>
    obtain ⟨_, hphase⟩ := hphase
    rw [if_neg (by simp [Call.stored, hphase])]
    refine (right_set hr hc (to_request c _)).trans (Iff.trans ?_ (fits_iff hc).symm)
    rw [and_iff_right (by simp), hphase]
    exact ⟨fun hright _ => hright, fun hfits => hfits hentry⟩
  | advanced b _ _ hphase =>
    rw [if_neg (by simp [Call.stored, hphase])]
    refine iff_of_true ((right_set hr hc (to_request c _)).2 ⟨by simp, fun q hq => ?_⟩)
      ((fits_iff hc).2 ?_)
    · have hold := (hr c (List.mem_of_getElem? hc)).2 q hq
      unfold Call.Right at hold
      rwa [hphase] at hold
    · rw [hphase]
      trivial

theorem inv_empty : Inv setting System.empty where
  entry := rfl
  runs runId := by simp [System.empty, Backend.empty, System.runIds]
  memory _ := rfl
  lock _ _ h := nomatch h
  calls _ _ h := nomatch h
  first _ h := nomatch h
  unstarted _ := rfl

theorem right_empty : Right System.empty := fun _ h => nomatch h

/-! ## New calls -/

theorem getElem?_append_old {d : Call} (h : x.calls[j]? = some d) :
    (x.calls ++ [c])[j]? = some d := by
  rwa [List.getElem?_append_left (List.getElem?_eq_some_iff.1 h).1]

theorem map_calls_append (h : Inv setting x) {β : Type*} (f : Nat → Call → β) :
    (x.first.bind fun i => ((x.calls ++ [c])[i]?).map (f i)) =
      x.first.bind fun i => (x.calls[i]?).map (f i) := by
  cases hfirst : x.first with
  | none => rfl
  | some i =>
    obtain ⟨d, _, hd, -⟩ := h.first i hfirst
    rw [Option.bind_some, Option.bind_some, hd, getElem?_append_old hd]

theorem Inv.submit (h : Inv setting x) (hphase : c.phase = .submitted) :
    Inv setting { x with calls := x.calls ++ [c] } where
  entry := h.entry.trans (map_calls_append h _).symm
  runs := h.runs
  memory := h.memory
  lock i w hi := by
    obtain ⟨d, hd, hholds⟩ := h.lock i w hi
    exact ⟨d, getElem?_append_old hd, hholds⟩
  calls i d hd := by
    rcases Parties.getElem?_append_cases hd with ⟨-, rfl⟩ | hd
    · unfold System.Ok
      rw [hphase]
      trivial
    · exact h.calls i d hd
  first i hi := by
    obtain ⟨d, call, hd, hcreating⟩ := h.first i hi
    exact ⟨d, call, getElem?_append_old hd, hcreating⟩
  unstarted := h.unstarted

theorem right_submit (h : Inv setting x) (hr : Right x) (hphase : c.phase = .submitted) :
    Right { x with calls := x.calls ++ [c] } := by
  intro d hd
  rcases Parties.mem_snoc.1 hd with hd | rfl
  · refine ⟨(hr d hd).1, fun q hq => (hr d hd).2 q ?_⟩
    rwa [System.firstRequest, map_calls_append h fun _ => Call.request] at hq
  · refine ⟨by simp [hphase], fun q _ => right_of_early ?_ ?_⟩ <;> simp [hphase]

theorem step_advance (hs : step setting x (.advance i now deadline) = some x') :
    ∃ c s' c', x.calls[i]? = some c ∧ stepCall setting i now deadline x.shared c = some (s', c') ∧
      x' = ⟨s', x.calls.set i c', if c.stored c' then some i else x.first⟩ := by
  simp only [step, Option.bind_eq_bind, Option.bind_eq_some_iff, Prod.exists, Option.pure_def,
    Option.some.injEq] at hs
  obtain ⟨c, hc, s', c', hcall, rfl⟩ := hs
  exact ⟨c, s', c', hc, hcall, rfl⟩

theorem inv_step {a : Act} (h : Inv setting x) (hs : step setting x a = some x') :
    Inv setting x' := by
  cases a with
  | submit =>
    cases hs
    exact h.submit rfl
  | advance i =>
    obtain ⟨c, _, _, hc, hcall, rfl⟩ := step_advance hs
    exact (stepCall_effect h hc hcall).inv h hc

theorem right_step {a : Act} (h : Inv setting x) (hr : Right x) (hs : step setting x a = some x') :
    Right x' ↔ HashFits setting x a := by
  cases a with
  | submit =>
    cases hs
    exact iff_of_true (right_submit h hr rfl) trivial
  | advance i =>
    obtain ⟨c, _, _, hc, hcall, rfl⟩ := step_advance hs
    exact (stepCall_effect h hc hcall).right h hr hc

theorem fits_of_stuck {a : Act} (hs : step setting x a = none) : HashFits setting x a := by
  cases a with
  | submit => trivial
  | advance i =>
    intro c hc
    rw [Option.mem_def] at hc
    simp only [step, hc, Option.bind_eq_bind, Option.bind_some, Option.bind_eq_none_iff,
      Option.pure_def, reduceCtorEq, imp_false] at hs
    have hstuck := Option.eq_none_iff_forall_ne_some.2 hs
    unfold stepCall at hstuck
    cases hphase : c.phase with
    | submitted =>
      intro hmemory
      simp [hphase, hmemory] at hstuck
    | replaying | inserting => simp [hphase] at hstuck
    | keying =>
      intro hsome
      simp [hphase, insertKey, hsome] at hstuck
    | closing | creating | raised | rejected => trivial

/-! ## Progress -/

theorem creation_goes {call : Creation.Call} (hcall : Unfailed call)
    (hover : ∀ outcome, call ≠ .returned outcome) (b : Backend) :
    (Creation.stepCall now b call .go).isSome := by
  cases call with
  | rollback | fail | failedEvent | raised => cases hcall
  | returned outcome => exact absurd rfl (hover outcome)
  | consume | audit | enqueue => rfl
  | event =>
    simp only [Creation.stepCall]
    split <;> rfl
  | wait =>
    simp only [Creation.stepCall]
    split
    · rfl
    · split <;> rfl

theorem call_goes (h : Inv setting x) (hc : x.calls[i]? = some c) (hover : c.over = false)
    (hlock : x.shared.lock = none ∨ c.phase.holds) :
    (stepCall setting i now false x.shared c).isSome := by
  unfold stepCall
  cases hphase : c.phase with
  | submitted =>
    rw [hphase] at hlock
    have hlock : x.shared.lock = none := hlock.resolve_right (by simp [Phase.holds])
    cases hpostgres : setting.postgres with
    | false => rfl
    | true =>
      cases hentry : x.shared.backend.idempotency.get? setting.idempotencyKey <;>
        simp [select, Row.selectForUpdate, Row.visible, Row.written, Row.heldByOther,
          Shared.row, hlock, hentry]
  | replaying | inserting | closing => rfl
  | keying =>
    rw [hphase] at hlock
    have hlock : x.shared.lock = none := hlock.resolve_right (by simp [Phase.holds])
    by_cases hsome : (x.shared.row setting).committed.isSome
    · simp [insertKey, hsome]
    · dsimp only [insertKey]
      rw [if_neg hsome]
      simp [Row.write, Row.heldByOther, Shared.row, hlock]
  | creating =>
    obtain ⟨hunfailed, -⟩ := h.creating hc hphase
    refine (Option.isSome_map).trans
      (creation_goes hunfailed (fun outcome heq => ?_) x.shared.backend)
    simp [Call.over, hphase, heq] at hover
  | raised | rejected => simp [Call.over, hphase] at hover

theorem Inv.progress (h : Inv setting x) (hcall : ∃ c ∈ x.calls, c.over = false) :
    ∃ i now x', step setting x (.advance i now false) = some x' := by
  obtain ⟨i, c, hc, hover, hlock⟩ : ∃ (i : Nat) (c : Call), x.calls[i]? = some c ∧ c.over = false ∧
      (x.shared.lock = none ∨ c.phase.holds) := by
    cases hlock : x.shared.lock with
    | none =>
      obtain ⟨c, hmem, hover⟩ := hcall
      obtain ⟨i, hc⟩ := List.getElem?_of_mem hmem
      exact ⟨i, c, hc, hover, .inl rfl⟩
    | some p =>
      -- Whoever holds the row waits for nobody.
      obtain ⟨c, hc, hholds⟩ := h.lock p.1 p.2 hlock
      refine ⟨p.1, c, hc, ?_, .inr hholds⟩
      cases hphase : c.phase <;> simp [Phase.holds, Call.over, hphase] at hholds ⊢
  have hsome : (stepCall setting i 0 false x.shared c).isSome := call_goes h hc hover hlock
  obtain ⟨⟨s', c'⟩, hs⟩ := Option.isSome_iff_exists.1 hsome
  refine ⟨i, 0, ⟨s', x.calls.set i c', if c.stored c' then some i else x.first⟩, ?_⟩
  simp only [step, hc, hs, Option.bind_eq_bind, Option.bind_some, Option.pure_def]

/-! ## Idempotence -/

theorem Inv.first_of_over (h : Inv setting x) (hc : x.calls[i]? = some c) (hover : c.over)
    (hrejected : c.phase ≠ .rejected) : x.first.isSome := by
  cases hphase : c.phase with
  | submitted | replaying | inserting | keying | closing => simp [Call.over, hphase] at hover
  | creating =>
    obtain ⟨-, ⟨_, hmem, -⟩, -⟩ := h.creating hc hphase
    obtain ⟨j, hj, -⟩ := List.mem_map.1 hmem
    simpa using Option.isSome_of_mem (Option.mem_toList.1 hj)
  | raised => exact h.raised hc hphase
  | rejected => exact absurd hphase hrejected

theorem idempotent_of (h : Inv setting x) (hr : Right x) : Idempotent setting x where
  runs := h.runs
  enqueued := by
    cases hfirst : x.first with
    | none => exact .inl (h.unstarted hfirst)
    | some i =>
      obtain ⟨c, _, -, -, hqueue⟩ := h.first i hfirst
      rw [hqueue, System.runIds, hfirst]
      split
      · exact .inl rfl
      · exact .inr rfl
  returned c hmem call hphase := by
    obtain ⟨i, hc⟩ := List.getElem?_of_mem hmem
    obtain ⟨-, ⟨runId, hrun, hid⟩, -⟩ := h.creating hc hphase
    obtain ⟨j, hj, -⟩ := List.mem_map.1 hrun
    obtain ⟨d, _, hd, -⟩ := h.first j (Option.mem_toList.1 hj)
    have hq : d.request ∈ x.firstRequest := by
      simp [System.firstRequest, Option.mem_toList.1 hj, hd]
    have hright := (hr c hmem).2 d.request hq
    unfold Call.Right at hright
    rw [hphase] at hright
    exact ⟨runId, hrun, hid, d.request, hq, hright⟩
  raised c hmem message hphase := by
    obtain ⟨i, hc⟩ := List.getElem?_of_mem hmem
    obtain ⟨j, hj⟩ := Option.isSome_iff_exists.1 (h.raised hc hphase)
    obtain ⟨d, _, hd, -⟩ := h.first j hj
    have hq : d.request ∈ x.firstRequest := by simp [System.firstRequest, hj, hd]
    have hright := (hr c hmem).2 d.request hq
    unfold Call.Right at hright
    rw [hphase] at hright
    exact ⟨d.request, hq, hright⟩
  accepted c hmem := (hr c hmem).1
  done hover hne := by
    obtain ⟨c, hmem⟩ := List.exists_mem_of_ne_nil x.calls hne
    obtain ⟨i, hc⟩ := List.getElem?_of_mem hmem
    obtain ⟨j, hj⟩ := Option.isSome_iff_exists.1 (h.first_of_over hc (hover c hmem) (hr c hmem).1)
    obtain ⟨d, call, hd, hphase, hqueue⟩ := h.first j hj
    have hdone := hover d (List.mem_of_getElem? hd)
    have hnone : call.creating = none := by
      cases call <;> first | rfl | simp [Call.over, hphase] at hdone
    refine ⟨setting.ids.draw j, by simp [System.runIds, hj], ?_⟩
    rw [hqueue, hnone]
    rfl
  progress := h.progress

theorem right_of_idempotent (h : Idempotent setting x) : Right x := by
  intro c hmem
  refine ⟨h.accepted c hmem, fun q hq => ?_⟩
  unfold Call.Right
  split
  · rename_i call hphase
    obtain ⟨-, -, -, _, hq', hsame⟩ := h.returned c hmem call hphase
    exact Option.mem_unique hq hq' ▸ hsame
  · rename_i message hphase
    obtain ⟨_, hq', hsame⟩ := h.raised c hmem message hphase
    exact Option.mem_unique hq hq' ▸ hsame
  · trivial

theorem inv_states (acts : List Act) : ∀ t ∈ states (step setting) System.empty acts,
    Inv setting t :=
  invariant_all (fun _ _ _ => inv_step) acts inv_empty

theorem hashFits_iff (setting : Setting) (acts : List Act) :
    (∀ x ∈ states (step setting) System.empty acts, Idempotent setting x) ↔
      Along (step setting) (HashFits setting) System.empty acts := by
  refine Iff.trans ?_ (states_iff (I := fun x => Inv setting x ∧ Right x) (fun _ _ => fits_of_stuck)
    (fun x a x' h hs => ?_) ⟨inv_empty, right_empty⟩)
  · exact forall₂_congr fun x hx => ⟨fun h => ⟨inv_states acts x hx, right_of_idempotent h⟩,
      fun h => idempotent_of h.1 h.2⟩
  · rw [← right_step h.1 h.2 hs]
    exact and_iff_right (inv_step h.1 hs)

/-! ## What the hash says -/

theorem entries_effective (setting : Setting) (q : CreateRunRequest) :
    (setting.effectiveParameters q).entries =
      if setting.isStream q ∧ durationKey ∉ (written q).map Prod.fst then
        written q ++ [(durationKey, .num setting.segmentDuration)]
      else written q := by
  have herase : (q.parameters.erase "max_units").entries = written q := rfl
  have habsent : (q.parameters.erase "max_units").get? durationKey = none ↔
      durationKey ∉ (written q).map Prod.fst := by
    rw [← herase, Dict.mem_keys, not_not]
  unfold Setting.effectiveParameters
  by_cases hleft : setting.isStream q ∧ durationKey ∉ (written q).map Prod.fst
  · rw [if_pos ⟨hleft.1, habsent.2 hleft.2⟩, if_pos hleft]
    exact upsert_append _ hleft.2
  · rw [if_neg fun h => hleft ⟨h.1, habsent.1 h.2⟩, if_neg hleft]
    rfl

theorem filledIn_eq_iff {stream : Prop} [Decidable stream] {k : String} {v : Doc}
    {es es' : List (String × Doc)} :
    ((if stream ∧ k ∉ es.map Prod.fst then es ++ [(k, v)] else es) =
      if stream ∧ k ∉ es'.map Prod.fst then es' ++ [(k, v)] else es') ↔
      es = es' ∨ (stream ∧ k ∉ es.map Prod.fst ∧ es' = es ++ [(k, v)]) ∨
        stream ∧ k ∉ es'.map Prod.fst ∧ es = es' ++ [(k, v)] := by
  have hin : ∀ l : List (String × Doc), k ∈ (l ++ [(k, v)]).map Prod.fst := fun l => by simp
  by_cases hleft : stream ∧ k ∉ es.map Prod.fst <;> by_cases hright : stream ∧ k ∉ es'.map Prod.fst
  · rw [if_pos hleft, if_pos hright, List.append_left_inj]
    refine ⟨.inl, ?_⟩
    rintro (heq | ⟨-, -, rfl⟩ | ⟨-, -, rfl⟩)
    · exact heq
    · exact absurd (hin _) hright.2
    · exact absurd (hin _) hleft.2
  · rw [if_pos hleft, if_neg hright]
    refine ⟨fun heq => .inr (.inl ⟨hleft.1, hleft.2, heq.symm⟩), ?_⟩
    rintro (rfl | ⟨-, -, heq⟩ | ⟨hstream, hout, -⟩)
    · exact absurd hleft hright
    · exact heq.symm
    · exact absurd ⟨hstream, hout⟩ hright
  · rw [if_neg hleft, if_pos hright]
    refine ⟨fun heq => .inr (.inr ⟨hright.1, hright.2, heq⟩), ?_⟩
    rintro (rfl | ⟨hstream, hout, -⟩ | ⟨-, -, heq⟩)
    · exact absurd hright hleft
    · exact absurd ⟨hstream, hout⟩ hleft
    · exact heq
  · rw [if_neg hleft, if_neg hright]
    refine ⟨.inl, ?_⟩
    rintro (heq | ⟨hstream, hout, -⟩ | ⟨hstream, hout, -⟩)
    · exact heq
    · exact absurd ⟨hstream, hout⟩ hleft
    · exact absurd ⟨hstream, hout⟩ hright

theorem effective_eq_iff (setting : Setting) (q q' : CreateRunRequest) :
    setting.effective q = setting.effective q' ↔ setting.Alike q q' := by
  have hparameters : q.assetId = q'.assetId →
      (setting.effectiveParameters q = setting.effectiveParameters q' ↔
        written q = written q' ∨ setting.LeavesOut q q' ∨ setting.LeavesOut q' q) := by
    intro hasset
    have hstream : setting.isStream q' = setting.isStream q := by
      unfold Setting.isStream
      rw [hasset]
    have hentries : setting.effectiveParameters q = setting.effectiveParameters q' ↔
        (setting.effectiveParameters q).entries = (setting.effectiveParameters q').entries :=
      ⟨congrArg Dict.entries, Dict.ext'⟩
    unfold Setting.LeavesOut
    rw [hentries, entries_effective, entries_effective, hstream, filledIn_eq_iff]
  rw [CreateRunRequest.mk.injEq]
  constructor
  · rintro ⟨hdomain, hpipeline, hversion, hasset, hsource, hwritten, hpriority, hwait⟩
    exact ⟨hdomain, hpipeline, hversion, hasset, hsource, hpriority, hwait,
      (hparameters hasset).1 hwritten⟩
  · rintro ⟨hdomain, hpipeline, hversion, hasset, hsource, hpriority, hwait, hwritten⟩
    exact ⟨hdomain, hpipeline, hversion, hasset, hsource, (hparameters hasset).2 hwritten,
      hpriority, hwait⟩

theorem fitsBy_congr {alike alike' : CreateRunRequest → CreateRunRequest → Prop} {a : Act}
    (h : ∀ c ∈ x.calls, ∀ q ∈ x.firstRequest, (alike c.request q ↔ alike' c.request q)) :
    FitsBy alike setting x a ↔ FitsBy alike' setting x a := by
  cases a with
  | submit => exact .rfl
  | advance i =>
    refine forall₂_congr fun c hc => ?_
    have hsame := h c (List.mem_of_getElem? hc)
    cases c.phase with
    | submitted => exact forall_congr' fun _ => forall₂_congr fun q hq => by rw [hsame q hq]
    | replaying => exact forall₂_congr fun q hq => by rw [hsame q hq]
    | inserting | keying | closing | creating | raised | rejected => exact .rfl

theorem Effect.request (he : Effect setting s i c s' c') : c'.request = c.request := by
  cases he <;> rfl

theorem alike_iff_hash {R : List CreateRunRequest} (hdigest : ∀ q ∈ R, ∀ q' ∈ R,
      setting.requestHash q = setting.requestHash q' → setting.effective q = setting.effective q')
    {q q' : CreateRunRequest} (hq : q ∈ R) (hq' : q' ∈ R) :
    setting.Alike q q' ↔ setting.requestHash q = setting.requestHash q' := by
  rw [← effective_eq_iff]
  exact ⟨fun heq => congrArg setting.digest heq, hdigest q hq q' hq'⟩

/-- **Submission is idempotent** exactly in the runs whose steps fit, unless two of the requests
collide in the hash. -/
theorem idempotent_iff (setting : Setting) (acts : List Act)
    (hdigest : ∀ q ∈ requests acts, ∀ q' ∈ requests acts,
      setting.requestHash q = setting.requestHash q' → setting.effective q = setting.effective q') :
    (∀ x ∈ states (step setting) System.empty acts, Idempotent setting x) ↔
      Along (step setting) (Fits setting) System.empty acts := by
  rw [hashFits_iff]
  refine along_congr (I := fun x => Inv setting x ∧ ∀ c ∈ x.calls, c.request ∈ requests acts)
    (A := fun a => ∀ q ∈ requests [a], q ∈ requests acts) (fun x a ⟨_, hx⟩ _ => ?_)
    (fun x a x' ⟨h, hx⟩ ha hs => ⟨inv_step h hs, ?_⟩) ⟨inv_empty, fun _ hc => nomatch hc⟩
    fun a ha q hq => ?_
  · exact (fitsBy_congr fun c hc q hq => alike_iff_hash hdigest (hx c hc) (by
      obtain ⟨j, -, hq⟩ := Option.bind_eq_some_iff.1 (Option.mem_def.1 hq)
      obtain ⟨d, hd, rfl⟩ := Option.map_eq_some_iff.1 hq
      exact hx d (List.mem_of_getElem? hd))).symm
  · cases a with
    | submit request =>
      cases hs
      intro c hc
      rcases Parties.mem_snoc.1 hc with hc | rfl
      · exact hx c hc
      · exact ha request (List.mem_singleton_self _)
    | advance i =>
      obtain ⟨c, _, c', hc, hcall, rfl⟩ := step_advance hs
      intro d hd
      rcases List.mem_or_eq_of_mem_set hd with hd | rfl
      · exact hx d hd
      · rw [(stepCall_effect h hc hcall).request]
        exact hx c (List.mem_of_getElem? hc)
  · obtain ⟨_, hmem, hrequest⟩ := List.mem_filterMap.1 hq
    exact List.mem_filterMap.2 ⟨a, ha, List.mem_singleton.1 hmem ▸ hrequest⟩

/-- A setting whose digest shows the order of the parameters. -/
def plain (postgres : Bool) : Setting where
  ids := .counted
  digest q := String.join (q.parameters.entries.map Prod.fst)
  assetIsStream _ := false
  segmentDuration := ⟨"300000".toList, by decide⟩
  idempotencyKey := "key"
  postgres := postgres

/-- A request to run on an asset. -/
def request (parameters : Dict String Doc) : CreateRunRequest :=
  ⟨"ocr", "ocr.standard", "1.0.0", some "asset", none, parameters, 0, 0⟩

/-- Three calls in PostgreSQL: the second one with the request of the first, the third one with
another request. -/
theorem idempotent_iff_plain :
    let q := request (Dict.empty.insert "a" .one)
    let q' := request (Dict.empty.insert "b" .one)
    let acts : List Act := [.submit q none, .submit q none, .submit q' none, .advance 0 0 false,
      .advance 0 0 false, .advance 0 0 false, .advance 0 0 false, .advance 1 0 false,
      .advance 1 0 false, .advance 2 0 false, .advance 2 0 false]
    (exec (step (plain true)) System.empty acts).isSome ∧
      ((∀ x ∈ states (step (plain true)) System.empty acts, Idempotent (plain true) x) ↔
        Along (step (plain true)) (Fits (plain true)) System.empty acts) := by
  intro q q' acts
  have hhash : (plain true).requestHash q ≠ (plain true).requestHash q' := by decide +kernel
  have hrequests : requests acts = [q, q, q'] := rfl
  refine ⟨by decide +kernel, idempotent_iff (plain true) acts fun r hr r' hr' heq => ?_⟩
  simp only [hrequests, List.mem_cons, List.not_mem_nil, or_false, or_self_left] at hr hr'
  rcases hr with rfl | rfl <;> rcases hr' with rfl | rfl
  · rfl
  · exact absurd heq hhash
  · exact absurd heq.symm hhash
  · rfl

/-- The parameters of the second call stand in another order: it raises. -/
theorem keys_reordered :
    let q := request ((Dict.empty.insert "a" .one).insert "b" .one)
    let q' := request ((Dict.empty.insert "b" .one).insert "a" .one)
    let acts : List Act := [.submit q none, .submit q' none, .advance 0 0 false, .advance 1 0 false]
    q'.same q = true ∧
      ¬∀ x ∈ states (step (plain false)) System.empty acts, Idempotent (plain false) x := by
  intro q _ acts
  refine ⟨by decide +kernel, fun h => ?_⟩
  have hlast := h _ (mem_states_of_exec (show exec (step (plain false)) _ acts = some _ from rfl))
  obtain ⟨r, hr, hsame⟩ := hlast.raised _ (.tail _ (.head _)) _ rfl
  cases hr
  exact absurd hsame (by decide +kernel)

end Scenara.Creation.Submission
