import Scenara.Run.Absorbing

/-!
# An accepted cancel and the final status

`transition(..., "cancel")` returns once it has stored `CANCELLED`, or `CANCELLING` for the
worker to turn into `CANCELLED` at its next checkpoint. Three writes of `execute_run` do not
look for a pending cancel, and lose it:

* the `COMPLETED` save, on a version that is `CANCELLING` or `CANCELLED`;
* the `FAILED` save of the `Exception` handler, on a version that is `CANCELLING`: the pipeline
  failed, or a `StateConflict` between a worker's save and a transition ended in that handler;
* the same save, when it meets a conflict itself: the worker gives the run up and nobody is left
  to turn `CANCELLING` into `CANCELLED`.

`loses` is the union of the three.
-/

namespace Scenara.Run

open Scenara.Core

variable {pausable : Bool} {s s' : Store}

/-! ## The end of a worker and of a cancel call -/

/-- `execute_run` returned or raised. -/
def Worker.over : Worker → Prop
  | .returned | .raised => True
  | _ => False

/-- The `cancel` call has stored its target status. -/
def Client.accepted : Client → Prop
  | .event .cancel _ _ | .returned .cancel _ => True
  | _ => False

/-- The call returned or raised. -/
def Client.over : Client → Prop
  | .returned _ _ | .invalid _ | .conflict => True
  | _ => False

/-- The step is a save of a worker that may lose a cancel:
* its `COMPLETED` save, finding its snapshot still stored, on a run that is being cancelled or
  is `CANCELLED`;
* its `FAILED` save, finding its snapshot still stored, on a run that is being cancelled;
* its `FAILED` save, finding a newer version that is not `CANCELLED`. -/
def loses (s : System) : Act → Bool
  | .worker i _ .go =>
    match s.workers[i]? with
    | some (.complete _ latest _) =>
      s.store.run.revision == latest.revision &&
        (s.store.run.status == .cancelling || s.store.run.status == .cancelled)
    | some (.failSave latest _ _) =>
      if s.store.run.revision = latest.revision then s.store.run.status == .cancelling
      else s.store.run.status != .cancelled
    | _ => false
  | _ => false

/-! ## What every step keeps -/

/-- A worker that is over, or has only events and the rollover left, leaves a terminal run; a
terminal record handed to `_begin_execution` is one the run is at. -/
def Worker.Ends (s : Store) : Worker → Prop
  | .begin _ run => run.status.terminal = true → s.run.status.terminal = true
  | .rollover _ | .rolloverRead .. | .rolloverSave .. => s.run.status.terminal = true
  | .returned | .raised => s.run.status.terminal = true
  | .event _ _ next => next.Ends s
  | _ => True

theorem workerMove_terminal {w : Worker} (h : WorkerMove s w s')
    (ht : s.run.status.terminal = true) : s'.run.status.terminal = true := by
  cases h with
  | call hm => rw [callMove_absorbs hm ht]; exact ht
  | begin hq => rw [hq] at ht; exact absurd ht (by decide)
  | complete _ _ _ _ _ hc | fail _ _ _ _ _ _ hc | stop _ _ _ hc => rw [hc]; rfl

theorem clientMove_terminal {c c' : Client}
    (h : ClientMove pausable s c s' c') (ht : s.run.status.terminal = true) :
    s'.run.status.terminal = true := by
  cases h with
  | quiet hs => rw [hs]; exact ht
  | apply _ _ _ hok => rw [target_not_terminal hok] at ht; exact absurd ht (by decide)

theorem Worker.Ends.mono (hm : s.run.status.terminal = true → s'.run.status.terminal = true) :
    ∀ {w : Worker}, w.Ends s → w.Ends s'
  | .begin .., h => fun hr => hm (h hr)
  | .rollover _, h | .rolloverRead .., h | .rolloverSave .., h | .returned, h | .raised, h => hm h
  | .event _ _ next, h => Worker.Ends.mono (w := next) hm h
  | .start, h | .beginReread _, h | .running .., h | .completeRead .., h | .complete .., h
  | .stopRead, h | .stopSave _, h | .failRead .., h | .failSave .., h => h

theorem afterBegin_ends {s : Store} {run : RunRecord}
    (h : run.status.terminal = true → s.run.status.terminal = true) : (afterBegin run).Ends s := by
  unfold afterBegin
  split
  · rename_i hc
    exact h (by rw [hc]; rfl)
  · split <;> trivial

theorem afterComplete_ends {s : Store} (h : s.run.status.terminal = true) (run : RunRecord)
    (termination : Option String) : (afterComplete run termination).Ends s := by
  unfold afterComplete
  split <;> exact h

/-- **Step lemma for one worker.** Unless its `FAILED` save meets a conflict with a version that
is not terminal, a worker whose next step is its last leaves a terminal run. -/
theorem stepWorker_ends {now : ℚ} {w w' : Worker} {choice : Choice}
    (hk : w.Knows s) (he : w.Ends s) (hstop : w.stopping → s.run.status.terminal = true)
    (hfail : ∀ latest code message, w = .failSave latest code message →
      s.run.revision ≠ latest.revision → s.run.status.terminal = true)
    (h : stepWorker now s w choice = some (s', w')) : w'.Ends s' := by
  cases stepWorker_cases h with
  | saved hw =>
    -- every status that is saved is terminal, but for `RUNNING`
    have hends {u : RunRecord} {status : RunStatus} (hu : u.status = status)
        (ht : status.terminal = true) : u.status.terminal = true := hu ▸ ht
    cases hw with
    | begin _ hu => exact afterBegin_ends fun hr => absurd (hu ▸ hr) (by decide)
    | complete hu => exact afterComplete_ends (hends hu rfl) _ _
    | cancel _ hu | stop hu | fail hu => exact hends hu rfl
  | lost hw hr =>
    cases hw with
    | stop => exact hstop trivial
    | fail => exact hfail _ _ _ rfl hr
    | _ => trivial
  | linked hu hr =>
    have hs := Coherent.eq_of_rev hk hr
    exact hu ▸ hs ▸ he
  | event run eventType =>
    have hkeep : s.run.status.terminal = true →
        (appendEvent s run eventType).run.status.terminal = true := id
    exact Worker.Ends.mono hkeep he
  | call => trivial
  | turned ht =>
    cases ht with
    | ended hterm | failOver hterm => exact hterm
    | start _ | reread => exact id
    | begun => exact afterBegin_ends he
    | stopOver => exact hstop trivial
    | created | failed | rolled _ | rollover _ | unlinked _ => exact he
    | _ => trivial

/-! ## What a step that loses no cancel keeps -/

/-- The invariant of the runs without a losing step. -/
structure CancelInv (pausable : Bool) (s : System) : Prop where
  knows : s.Knows pausable
  stopping : ∀ w ∈ s.workers, w.stopping → s.store.run.status.terminal = true
  ends : ∀ w ∈ s.workers, w.Ends s.store
  accepted : ∀ c ∈ s.clients, c.accepted →
    s.store.run.status = .cancelling ∨ s.store.run.status = .cancelled
  busy : s.workers ≠ []

/-- The run handed to one worker. -/
def started (store : Store) : System := ⟨store, [.start], []⟩

theorem started_cancelInv (pausable : Bool) (store : Store) :
    CancelInv pausable (started store) where
  knows :=
    ⟨fun w hw => by rw [List.mem_singleton.mp hw]; trivial, fun _ h => absurd h List.not_mem_nil⟩
  stopping w hw h := by rw [List.mem_singleton.mp hw] at h; exact h.elim
  ends w hw := by rw [List.mem_singleton.mp hw]; trivial
  accepted _ h := absurd h List.not_mem_nil
  busy := List.cons_ne_nil _ _

theorem target_cancel {status tgt : RunStatus}
    (h : target pausable .cancel status = .ok tgt) : tgt = .cancelling ∨ tgt = .cancelled := by
  cases status <;> cases h <;> simp

theorem target_of_cancelling {action : Action} {status tgt : RunStatus}
    (h : target pausable action status = .ok tgt)
    (hs : status = .cancelling ∨ status = .cancelled) : tgt = .cancelled := by
  rcases hs with rfl | rfl <;> cases action <;> cases pausable <;> cases h <;> rfl

theorem callMove_cancelling (h : CallMove s s')
    (hs : s.run.status = .cancelling ∨ s.run.status = .cancelled) :
    s'.run.status = .cancelling ∨ s'.run.status = .cancelled := by
  rcases h with h | ⟨-, h⟩ | ⟨h, -⟩
  · rw [h]; exact hs
  · exact Or.inr h
  · rw [h] at hs; exact absurd hs (by decide)

theorem worker_keeps_cancelling {s : System} {i : Nat} {now : ℚ}
    {choice : Choice} {w w' : Worker} {store : Store} (hk : w.Knows s.store)
    (hw : s.workers[i]? = some w) (hst : stepWorker now s.store w choice = some (store, w'))
    (hl : loses s (.worker i now choice) = false)
    (hs : s.store.run.status = .cancelling ∨ s.store.run.status = .cancelled) :
    store.run.status = .cancelling ∨ store.run.status = .cancelled := by
  cases (stepWorker_spec hk hst).move with
  | call hm => exact callMove_cancelling hm hs
  | begin hq => rw [hq] at hs; exact absurd hs (by decide)
  | complete _ _ _ he hr =>
    subst he
    cases choice <;> simp only [stepWorker, reduceCtorEq] at hst
    · simp only [loses, hw, hr, beq_self_eq_true, Bool.true_and] at hl
      rcases hs with hs | hs <;> rw [hs] at hl <;> exact absurd hl (by decide)
    · cases hst; exact hs
  | fail _ _ _ he hr hn =>
    subst he
    cases choice <;> simp only [stepWorker, reduceCtorEq] at hst
    rcases hs with hs | hs
    · simp only [loses, hw, hr, if_true, hs] at hl
      exact absurd hl (by decide)
    · rw [hs] at hn; exact absurd hn (by decide)
  | stop _ _ _ hc => exact Or.inr hc

theorem client_keeps_cancelling {c c' : Client} (hm : ClientMove pausable s c s' c')
    (hs : s.run.status = .cancelling ∨ s.run.status = .cancelled) :
    s'.run.status = .cancelling ∨ s'.run.status = .cancelled := by
  cases hm with
  | quiet h => rw [h]; exact hs
  | apply _ _ _ hok ht => rw [ht]; exact Or.inr (target_of_cancelling hok hs)

theorem client_accepts {c c' : Client} (hm : ClientMove pausable s c s' c') (ha : c'.accepted) :
    c.accepted ∨ (s'.run.status = .cancelling ∨ s'.run.status = .cancelled) := by
  cases hm with
  | quiet _ hret hev =>
    cases c' with
    | event action saved tgt => cases action <;> first | exact ha.elim |
        exact absurd rfl (hev saved tgt)
    | returned action saved =>
      cases action <;> try exact ha.elim
      obtain ⟨_, rfl⟩ := hret saved rfl
      exact Or.inl trivial
    | _ => exact ha.elim
  | apply action _ _ hok ht hc =>
    subst hc
    cases action <;> try exact ha.elim
    rw [ht]
    exact Or.inr (target_cancel hok)

theorem cancelInv_step {s s' : System} {a : Act} (hi : CancelInv pausable s)
    (hl : loses s a = false) (h : step pausable s a = some s') : CancelInv pausable s' := by
  have hk' := knows_step hi.knows h
  cases step_stepped h with
  | deliver =>
    have hnew : ∀ P : Worker → Prop, P .start → (∀ w ∈ s.workers, P w) →
        ∀ w ∈ s.workers ++ [.start], P w := by
      intro P hstart hold w hw
      rcases List.mem_append.mp hw with hw | hw
      · exact hold w hw
      · exact List.mem_singleton.mp hw ▸ hstart
    exact ⟨hk', hnew _ False.elim hi.stopping, hnew _ trivial hi.ends, hi.accepted,
      List.append_ne_nil_of_left_ne_nil hi.busy _⟩
  | request =>
    refine ⟨hk', hi.stopping, hi.ends, fun c hc ha => ?_, hi.busy⟩
    rcases List.mem_append.mp hc with hc | hc
    · exact hi.accepted c hc ha
    · rw [List.mem_singleton.mp hc] at ha
      exact ha.elim
  | worker hw hst =>
    rename_i i now choice w w' store
    have hmem := List.mem_of_getElem? hw
    have hspec := stepWorker_spec (hi.knows.workers w hmem) hst
    have hterm := workerMove_terminal hspec.move
    refine ⟨hk', fun x hx hs => ?_, fun x hx => ?_, fun c hc ha => ?_, ?_⟩
    · rcases List.mem_or_eq_of_mem_set hx with hx | rfl
      · exact hterm (hi.stopping x hx hs)
      · rcases stepWorker_stopping (hi.knows.workers w hmem) hst hs with hold | hnew
        · exact hterm (hi.stopping w hmem hold)
        · show store.run.status.terminal = true
          rw [hnew]
          rfl
    · rcases List.mem_or_eq_of_mem_set hx with hx | rfl
      · exact (hi.ends x hx).mono hterm
      · refine stepWorker_ends (hi.knows.workers w hmem) (hi.ends w hmem) (hi.stopping w hmem)
          (fun latest code message he hr => ?_) hst
        subst he
        cases choice <;> simp only [stepWorker, reduceCtorEq] at hst
        have hcancelled : s.store.run.status = .cancelled := by
          simpa only [loses, hw, if_neg hr, bne_eq_false_iff_eq] using hl
        rw [hcancelled]
        rfl
    · exact worker_keeps_cancelling (hi.knows.workers w hmem) hw hst hl (hi.accepted c hc ha)
    · exact fun he => hi.busy (by simpa using he)
  | client hc hst =>
    rename_i j now c c' store
    have hmem := List.mem_of_getElem? hc
    have hspec := stepClient_spec (hi.knows.clients c hmem) hst
    have hterm := clientMove_terminal hspec.move
    refine ⟨hk', fun x hx hs => hterm (hi.stopping x hx hs), fun x hx => (hi.ends x hx).mono hterm,
      fun x hx ha => ?_, hi.busy⟩
    rcases List.mem_or_eq_of_mem_set hx with hx | rfl
    · exact client_keeps_cancelling hspec.move (hi.accepted x hx ha)
    · rcases client_accepts hspec.move ha with hold | hnew
      · exact client_keeps_cancelling hspec.move (hi.accepted c hmem hold)
      · exact hnew

theorem worker_over_ends {s : Store} {w : Worker} (ho : w.over) (he : w.Ends s) :
    s.run.status.terminal = true := by
  cases w <;> first | exact he | exact ho.elim

/-! ## The result -/

/-- **An accepted cancel wins in every run that loses none**: one worker executes the run and any
number of transition calls are made; once the worker has returned or raised, if a `cancel` has been
accepted the stored status is `CANCELLED`. -/
theorem cancel_wins {pausable : Bool} {store : Store} {as : List Act} {s : System}
    (hrun : exec (step pausable) (started store) as = some s)
    (hgood : Along (step pausable) (fun s a => loses s a = false) (started store) as)
    (hover : ∀ w ∈ s.workers, w.over) {c : Client} (hc : c ∈ s.clients) (hacc : c.accepted) :
    s.store.run.status = .cancelled := by
  have hi : CancelInv pausable s :=
    invariant_exec (fun _ _ _ hi hP hs => cancelInv_step hi hP hs)
      (started_cancelInv pausable store) hgood hrun
  obtain ⟨w, hw⟩ := List.exists_mem_of_ne_nil _ hi.busy
  have hterm := worker_over_ends (hover w hw) (hi.ends w hw)
  rcases hi.accepted c hc hacc with hs | hs
  · rw [hs] at hterm; exact absurd hterm (by decide)
  · exact hs

/-- A run cancelled while it executes: the next checkpoint stores `CANCELLED`, and its
`ExecutionStopped` ends the worker. -/
def cancelAtCheckpoint : List Act :=
  [.worker 0 0 .go, .worker 0 0 .go, .worker 0 0 .go, .request .cancel, .client 0 0, .client 0 0,
    .client 0 0, .worker 0 0 .callCheckpoint, .worker 0 0 (.call 0), .worker 0 0 (.call 0),
    .worker 0 0 (.call 0), .worker 0 0 .stop, .worker 0 0 .go]

theorem cancelAtCheckpoint_cancelled :
    ((exec (step true) (started queuedStore) cancelAtCheckpoint).map fun s => s.store.run.status) =
      some .cancelled := by
  have hrun : ∃ s, exec (step true) (started queuedStore) cancelAtCheckpoint = some s ∧
      (∀ w ∈ s.workers, w.over) ∧ ∃ c ∈ s.clients, c.accepted := by
    refine ⟨_, rfl, fun w hw => ?_, _, List.mem_singleton_self _, trivial⟩
    rw [List.mem_singleton.mp hw]
    trivial
  obtain ⟨s, hs, hover, c, hc, hacc⟩ := hrun
  rw [hs, Option.map_some, cancel_wins hs (by decide) hover hc hacc]

/-! ## A cancel is lost -/

/-- The run is cancelled after the pipeline's last checkpoint, before the `COMPLETED` save. -/
def cancelAfterPipeline : List Act :=
  [.worker 0 0 .go, .worker 0 0 .go, .worker 0 0 .go, .worker 0 0 (.finish none),
    .request .cancel, .client 0 0, .client 0 0, .client 0 0, .worker 0 0 .go, .worker 0 0 .go,
    .worker 0 0 .go, .worker 0 0 .go]

/-- The run is paused; the checkpoint reads `PAUSING`; the run is cancelled before the
checkpoint's `PAUSED` save, whose `StateConflict` ends in the failure handler. -/
def cancelInCheckpoint : List Act :=
  [.worker 0 0 .go, .worker 0 0 .go, .worker 0 0 .go, .request .pause, .client 0 0, .client 0 0,
    .client 0 0, .worker 0 0 .callCheckpoint, .worker 0 0 (.call 0), .request .cancel,
    .client 1 0, .client 1 0, .client 1 0, .worker 0 0 (.call 0),
    .worker 0 0 (.raise "PIPELINE_EXECUTION_FAILED" "run revision conflict"), .worker 0 0 .go,
    .worker 0 0 .go, .worker 0 0 .go, .worker 0 0 .go]

/-- **A returned cancel is lost**: with one worker, the cancel call has returned, the worker has
returned, and the run is `COMPLETED`; or, when the cancel meets a checkpoint's save, `FAILED`. -/
theorem cancel_lost :
    (∃ s, exec (step true) (started queuedStore) cancelAfterPipeline = some s ∧
      (∀ w ∈ s.workers, w.over) ∧ (∀ c ∈ s.clients, c.over) ∧
      (∃ saved, .returned .cancel saved ∈ s.clients) ∧ s.store.run.status = .completed) ∧
    ∃ s, exec (step true) (started queuedStore) cancelInCheckpoint = some s ∧
      (∀ w ∈ s.workers, w.over) ∧ (∀ c ∈ s.clients, c.over) ∧
      (∃ saved, .returned .cancel saved ∈ s.clients) ∧ s.store.run.status = .failed := by
  constructor
  · refine ⟨_, rfl, fun w hw => ?_, fun c hc => ?_, ⟨_, List.mem_singleton_self _⟩, rfl⟩
    · rw [List.mem_singleton.mp hw]; trivial
    · rw [List.mem_singleton.mp hc]; trivial
  · refine ⟨_, rfl, fun w hw => ?_, fun c hc => ?_,
      ⟨_, List.mem_cons_of_mem _ (List.mem_singleton_self _)⟩, rfl⟩
    · rw [List.mem_singleton.mp hw]; trivial
    · rcases List.mem_cons.mp hc with rfl | hc
      · trivial
      · rw [List.mem_singleton.mp hc]; trivial

end Scenara.Run
