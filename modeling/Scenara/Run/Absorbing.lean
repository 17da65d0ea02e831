import Scenara.Run.Steps

/-!
# Terminal states of a run

Which store step can move a run out of `COMPLETED`, `FAILED` or `CANCELLED`, over every
interleaving of any number of workers and transition calls.

`_begin_execution`, `_checkpoint`, `report_progress`, the failure handler and `transition` write
only from a status that is not terminal, or keep the status. The `ExecutionStopped` handler does
not write once the run is `CANCELLED`, which it is whenever that handler runs. The `COMPLETED`
save of `execute_run` does not look at the status it read.
-/

namespace Scenara.Run

open Scenara.Core

/-- A terminal status of the earlier state is the status of the later one. -/
def Absorbs (s t : System) : Prop :=
  s.store.run.status.terminal = true → t.store.run.status = s.store.run.status

/-- The step is a `COMPLETED` save that finds its snapshot still stored, and the stored run is
`CANCELLED` or `FAILED`. -/
def overwrites (s : System) : Act → Bool
  | .worker i _ .go =>
    match s.workers[i]? with
    | some (.complete _ latest _) =>
      s.store.run.revision == latest.revision &&
        (s.store.run.status == .cancelled || s.store.run.status == .failed)
    | _ => false
  | _ => false

/-- What good steps keep: snapshots, and a stopping worker's run is `CANCELLED`. -/
structure Settled (pausable : Bool) (s : System) : Prop where
  knows : s.Knows pausable
  stopping : ∀ w ∈ s.workers, w.stopping → s.store.run.status = .cancelled

theorem Absorbs.trans (a b c : System) (hab : Absorbs a b) (hbc : Absorbs b c) : Absorbs a c := by
  intro ha
  have hb := hab ha
  rw [← hb] at ha
  rw [hbc ha, hb]

theorem callMove_absorbs {s s' : Store} (h : CallMove s s') (ht : s.run.status.terminal = true) :
    s'.run.status = s.run.status := by
  rcases h with h | ⟨h, -⟩ | ⟨h, -⟩
  · exact h
  all_goals
    rw [h] at ht
    exact absurd ht (by decide)

variable {pausable : Bool}

theorem target_not_terminal {action : Action} {status tgt : RunStatus}
    (h : target pausable action status = .ok tgt) : status.terminal = false := by
  cases action <;> cases status <;> cases pausable <;> first | rfl | cases h

/-- **Step lemma.** A step that is not an overwrite keeps a terminal status, and a stopping
worker's run stays `CANCELLED`. -/
theorem settled_step {s s' : System} {a : Act} (hi : Settled pausable s)
    (ha : overwrites s a = false) (h : step pausable s a = some s') :
    Settled pausable s' ∧ Absorbs s s' := by
  have hk' := knows_step hi.knows h
  -- a terminal status is kept, whoever moves
  have habs : Absorbs s s' := by
    intro ht
    cases step_stepped h with
    | deliver | request => rfl
    | worker hw hst =>
      have hmem := List.mem_of_getElem? hw
      cases (stepWorker_spec (hi.knows.workers _ hmem) hst).move with
      | call hm => exact callMove_absorbs hm ht
      | begin hq => rw [hq] at ht; exact absurd ht (by decide)
      | complete run latest termination he hr hc =>
        subst he
        rename_i i now choice w' store
        cases choice <;> simp only [stepWorker, reduceCtorEq] at hst
        · simp only [overwrites, hw, hr, beq_self_eq_true, Bool.true_and] at ha
          cases hs : s.store.run.status with
          | completed => exact hc
          | cancelled | failed => rw [hs] at ha; exact absurd ha (by decide)
          | _ => rw [hs] at ht; exact absurd ht (by decide)
        · cases hst; rfl
      | fail _ _ _ _ _ hn => rw [hn] at ht; exact absurd ht (by decide)
      | stop _ he hn =>
        subst he
        exact absurd (hi.stopping _ hmem trivial) hn
    | client hc hst =>
      cases (stepClient_spec (hi.knows.clients _ (List.mem_of_getElem? hc)) hst).move with
      | quiet hs => exact hs
      | apply _ _ _ hok =>
        simp [target_not_terminal hok] at ht
  have hkeep : s.store.run.status = .cancelled → s'.store.run.status = .cancelled := by
    intro hs
    rw [habs (by rw [hs]; rfl), hs]
  refine ⟨⟨hk', fun w hw hstop => ?_⟩, habs⟩
  cases step_stepped h with
  | deliver =>
    rcases List.mem_append.mp hw with hw | hw
    · exact hi.stopping w hw hstop
    · rw [List.mem_singleton.mp hw] at hstop
      exact hstop.elim
  | request => exact hi.stopping w hw hstop
  | worker hw' hst =>
    have hmem := List.mem_of_getElem? hw'
    rcases List.mem_or_eq_of_mem_set hw with hw | rfl
    · exact hkeep (hi.stopping w hw hstop)
    · rcases stepWorker_stopping (hi.knows.workers _ hmem) hst hstop with hold | hnew
      · exact hkeep (hi.stopping _ hmem hold)
      · exact hnew
  | client => exact hkeep (hi.stopping w hw hstop)

theorem idle_settled (pausable : Bool) (store : Store) : Settled pausable (idle store) :=
  ⟨idle_knows pausable store, fun _ h => absurd h List.not_mem_nil⟩

theorem overwrites_not_absorbs {s : System} {a : Act}
    (ha : overwrites s a = true) : ∃ s', step pausable s a = some s' ∧ ¬ Absorbs s s' := by
  unfold overwrites at ha
  split at ha
  · rename_i i now
    split at ha
    · rename_i run latest termination hw
      simp only [Bool.and_eq_true, beq_iff_eq, Bool.or_eq_true] at ha
      obtain ⟨hr, hs⟩ := ha
      simp only [step, hw, stepWorker, Worker.setStatus, saveRun, cas, hr, if_true, Option.map_some]
      refine ⟨_, rfl, fun h => ?_⟩
      have hc : (RunStatus.completed : RunStatus) = s.store.run.status := by
        apply h
        rcases hs with hs | hs <;> rw [hs] <;> rfl
      rcases hs with hs | hs <;> rw [hs] at hc <;> exact absurd hc (by decide)
    · cases ha
  · cases ha

theorem along_of_absorbing : ∀ {s : System} {as : List Act},
    (states (step pausable) s as).Pairwise Absorbs →
      Along (step pausable) (fun s a => overwrites s a = false) s as
  | _, [], _ => trivial
  | s, a :: as, hp => by
    constructor
    · cases ha : overwrites s a with
      | false => exact ha
      | true =>
        obtain ⟨s', hs, hn⟩ : ∃ s', step pausable s a = some s' ∧ ¬ Absorbs s s' :=
          overwrites_not_absorbs ha
        rw [states_cons hs, List.pairwise_cons] at hp
        obtain ⟨l, hl⟩ : ∃ l, states (step pausable) s' as = s' :: l := states_head s' as
        exact absurd (hp.1 s' (by rw [hl]; exact List.mem_cons_self)) hn
    · intro _ hs
      rw [states_cons hs, List.pairwise_cons] at hp
      exact along_of_absorbing hp.2

/-- **Terminal statuses are absorbing exactly in the runs without an overwrite**: over any
number of workers and transition calls, in any order, every later version of a `COMPLETED`,
`FAILED` or `CANCELLED` run has the same status iff no worker's `COMPLETED` save succeeds on a
`CANCELLED` or `FAILED` version. -/
theorem terminal_absorbing_iff (pausable : Bool) (store : Store) (as : List Act) :
    (states (step pausable) (idle store) as).Pairwise Absorbs ↔
      Along (step pausable) (fun s a => overwrites s a = false) (idle store) as :=
  ⟨along_of_absorbing, fun ha =>
    pairwise_states Absorbs.trans (fun _ _ _ hi hP hs => settled_step hi hP hs)
      (idle_settled pausable store) ha⟩

/-! ## The overwrite happens -/

/-- A freshly created run. -/
def queuedStore : Store where
  run :=
    { status := .queued, revision := 1, progress := 0, updatedAt := 0, startedAt := none,
      completedAt := none, errorCode := none, terminationReason := none, sourceId := none,
      streamSessionId := none, nextRunId := none }
  events := []

/-- One worker executes the run to the end of its pipeline; the run is then cancelled twice
(`CANCELLING`, `CANCELLED`); the worker makes its `COMPLETED` save. -/
def lateCancel : List Act :=
  [.deliver, .worker 0 0 .go, .worker 0 0 .go, .worker 0 0 .go, .worker 0 0 (.finish none),
    .request .cancel, .client 0 0, .client 0 0, .request .cancel, .client 1 0, .client 1 0,
    .worker 0 0 .go, .worker 0 0 .go]

/-- **A cancelled run is overwritten with `COMPLETED`.** -/
theorem late_cancel_overwritten :
    ¬ (states (step true) (idle queuedStore) lateCancel).Pairwise Absorbs := by
  intro h
  have hp : (List.map (fun s : System => s.store.run.status)
      (states (step true) (idle queuedStore) lateCancel)).Pairwise
      (fun x y => x.terminal = true → y = x) := List.pairwise_map.mpr h
  exact absurd hp (by decide)

end Scenara.Run
