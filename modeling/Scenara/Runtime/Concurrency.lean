import Scenara.Core.Parties
import Scenara.Core.Transition

/-!
# The concurrency limit of a model

Model of the calls of `_run_model_bundle_direct` (`app/runtime_execution.py`) on one bundle. A call
is between two `await`s; a thread of `asyncio.to_thread` that is cancelled goes on until its native
run ends.
-/

namespace Scenara.Runtime.Concurrency

open Scenara.Core

/-- What a call reads of its bundle. -/
structure Bundle where
  /-- The initial permits of `bundle["semaphore"]`; without it, there is `bundle["lock"]`. -/
  semaphore : Option Nat
  /-- Those of `gpu_semaphore_for_device`, under a provider that needs it. -/
  gpu : Option Nat
  timeout : Bool

/-- How many native runs there may be at once. -/
def Bundle.maxConcurrency (bundle : Bundle) : Nat := bundle.semaphore.getD 1

/-- Where a call stands. -/
inductive Phase where
  /-- Waiting for the semaphore or the lock of the model. -/
  | queued
  | gpuQueued
  /-- In `asyncio.to_thread(run_session, …)`. -/
  | running
  | ended
  deriving DecidableEq

/-- `model_acquired` -/
def Phase.modelAcquired : Phase → Bool
  | .gpuQueued | .running => true
  | _ => false

/-- `gpu_acquired` -/
def Phase.gpuAcquired (bundle : Bundle) : Phase → Bool
  | .running => bundle.gpu.isSome
  | _ => false

/-- The semaphores, the counter and the calls. -/
structure State where
  permits : Nat
  gpuPermits : Nat
  inUse : Nat
  calls : List Phase
  /-- Native runs whose call was cancelled. -/
  orphans : Nat
  deriving DecidableEq

/-- No call. -/
def init (bundle : Bundle) : State := ⟨bundle.maxConcurrency, bundle.gpu.getD 0, 0, [], 0⟩

/-- The `finally` clause. -/
def State.leave (bundle : Bundle) (s : State) (i : Nat) (phase : Phase) : State :=
  { s with
    permits := s.permits + phase.modelAcquired.toNat
    gpuPermits := s.gpuPermits + (phase.gpuAcquired bundle).toNat
    inUse := s.inUse - 1
    calls := s.calls.set i .ended }

/-- One step. -/
inductive Act where
  | call
  /-- The semaphore is acquired, or the native run ends or raises. -/
  | go (i : Nat)
  | timeout (i : Nat)
  | cancel (i : Nat)
  | nativeEnds

variable (bundle : Bundle)

/-- A call goes on. -/
def stepCall (s : State) (i : Nat) : Phase → Option State
  | .queued =>
    if s.permits = 0 then none
    else
      let phase := if bundle.gpu.isSome then .gpuQueued else .running
      some { s with permits := s.permits - 1, calls := s.calls.set i phase }
  | .gpuQueued =>
    if s.gpuPermits = 0 then none
    else some { s with gpuPermits := s.gpuPermits - 1, calls := s.calls.set i .running }
  | .running => some (s.leave bundle i .running)
  | .ended => none

/-- `TimeoutError` in `acquire_with_timeout`; a lock is waited for without one. -/
def stepTimeout (s : State) (i : Nat) : Phase → Option State
  | .queued => if bundle.timeout && bundle.semaphore.isSome then some (s.leave bundle i .queued)
      else none
  | .gpuQueued => if bundle.timeout then some (s.leave bundle i .gpuQueued) else none
  | _ => none

/-- A call is cancelled. -/
def stepCancel (s : State) (i : Nat) : Phase → Option State
  | .ended => none
  | .running => some { s.leave bundle i .running with orphans := s.orphans + 1 }
  | phase => some (s.leave bundle i phase)

/-- The state after a step, if it may be taken. -/
def step (s : State) : Act → Option State
  | .call => some { s with inUse := s.inUse + 1, calls := s.calls ++ [.queued] }
  | .go i => s.calls[i]?.bind (stepCall bundle s i)
  | .timeout i => s.calls[i]?.bind (stepTimeout bundle s i)
  | .cancel i => s.calls[i]?.bind (stepCancel bundle s i)
  | .nativeEnds => if s.orphans = 0 then none else some { s with orphans := s.orphans - 1 }

/-- At most so many native runs are in progress, `in_use` counts the calls whose queueing or native
run has not ended, and with none the permits are there. -/
structure Limited (s : State) : Prop where
  runs : s.calls.count .running + s.orphans ≤ bundle.maxConcurrency
  inUse : s.inUse = s.calls.countP (· ≠ .ended) + s.orphans
  idle : (∀ phase ∈ s.calls, phase = .ended) → s.orphans = 0 →
    s.permits = bundle.maxConcurrency ∧ s.gpuPermits = bundle.gpu.getD 0 ∧ s.inUse = 0

/-- No call is cancelled during its native run. -/
def Uncut (s : State) : Act → Prop
  | .cancel i => s.calls[i]? ≠ some .running
  | _ => True

/-! ## Permits are conserved -/

/-- What every step keeps. -/
structure Inv (s : State) : Prop where
  permits : s.permits + s.calls.countP Phase.modelAcquired = bundle.maxConcurrency
  gpuPermits : s.gpuPermits + s.calls.countP (Phase.gpuAcquired bundle) = bundle.gpu.getD 0
  inUse : s.inUse = s.calls.countP (· ≠ .ended)

variable {bundle} {s s' : State} {i : Nat} {phase phase' : Phase} {act : Act}

namespace Inv

theorem limited_iff_no_orphans (h : Inv bundle s) : Limited bundle s ↔ s.orphans = 0 := by
  have hruns : s.calls.count .running ≤ s.calls.countP Phase.modelAcquired :=
    List.countP_mono_left fun phase _ hrunning => by
      rw [eq_of_beq hrunning]
      rfl
  obtain ⟨hpermits, hgpu, hinUse⟩ := h
  constructor
  · intro hlimited
    have hcounted := hlimited.inUse
    omega
  · refine fun horphans => ⟨by omega, by omega, fun hended _ => ?_⟩
    have hnone : ∀ p : Phase → Bool, p .ended = false → s.calls.countP p = 0 := fun p hp =>
      List.countP_eq_zero.2 fun phase hin => by
        rw [hended phase hin, hp]
        exact Bool.false_ne_true
    rw [hnone _ rfl] at hpermits hgpu hinUse
    exact ⟨hpermits, hgpu, hinUse⟩

section

variable (h : Inv bundle s) (hcall : s.calls[i]? = some phase)
include h hcall

theorem move (hcalls : s'.calls = s.calls.set i phase')
    (hpermits : s'.permits + phase'.modelAcquired.toNat = s.permits + phase.modelAcquired.toNat)
    (hgpu : s'.gpuPermits + (phase'.gpuAcquired bundle).toNat = s.gpuPermits +
      (phase.gpuAcquired bundle).toNat)
    (hinUse : s'.inUse + (decide (phase ≠ .ended)).toNat = s.inUse +
      (decide (phase' ≠ .ended)).toNat) :
    Inv bundle s' := by
  have hmodel := Parties.countP_set hcall Phase.modelAcquired phase'
  have hgpus := Parties.countP_set hcall (Phase.gpuAcquired bundle) phase'
  have hactive := Parties.countP_set hcall (· ≠ .ended) phase'
  obtain ⟨_, _⟩ := h
  constructor <;> rw [hcalls] <;> omega

theorem leave (hne : phase ≠ .ended) : Inv bundle (s.leave bundle i phase) := by
  have hpos : 0 < s.inUse := by
    rw [h.inUse]
    exact List.countP_pos_iff.2 ⟨phase, List.mem_of_getElem? hcall, decide_eq_true hne⟩
  refine h.move hcall rfl rfl rfl ?_
  rw [decide_eq_true hne]
  exact Nat.sub_add_cancel hpos

theorem stepCall (hs : stepCall bundle s i phase = some s') :
    Inv bundle s' ∧ s'.orphans = s.orphans := by
  cases phase with
  | queued =>
    obtain ⟨_, hs⟩ := Option.ite_none_left_eq_some.1 hs
    cases hs
    refine ⟨h.move hcall rfl ?_ ?_ ?_, rfl⟩ <;> cases hgpu : bundle.gpu.isSome <;>
      simp [Phase.modelAcquired, Phase.gpuAcquired, hgpu] <;> omega
  | gpuQueued =>
    obtain ⟨hfree, hs⟩ := Option.ite_none_left_eq_some.1 hs
    cases hs
    have hpos := h.gpuPermits
    refine ⟨h.move hcall rfl rfl ?_ rfl, rfl⟩
    cases hgpu : bundle.gpu with
    | none =>
      rw [hgpu] at hpos
      exact absurd (Nat.add_eq_zero_iff.1 hpos).1 hfree
    | some =>
      simp only [Phase.gpuAcquired, hgpu]
      exact Nat.sub_add_cancel (Nat.pos_of_ne_zero hfree)
  | running =>
    cases hs
    exact ⟨h.leave hcall (by decide), rfl⟩
  | ended => cases hs

end

theorem step (h : Inv bundle s) (hs : step bundle s act = some s') :
    Inv bundle s' ∧ (s.orphans = 0 → (s'.orphans = 0 ↔ Uncut s act)) := by
  cases act with
  | call =>
    cases hs
    obtain ⟨hpermits, hgpu, hinUse⟩ := h
    refine ⟨⟨?_, ?_, ?_⟩, fun horphans => iff_of_true horphans trivial⟩ <;> rw [List.countP_append]
    · exact hpermits
    · exact hgpu
    · exact congrArg (· + 1) hinUse
  | go i =>
    obtain ⟨_, hcall, hs⟩ := Option.bind_eq_some_iff.1 hs
    obtain ⟨hinv, horphans⟩ := h.stepCall hcall hs
    exact ⟨hinv, fun hnone => iff_of_true (horphans.trans hnone) trivial⟩
  | timeout i =>
    obtain ⟨phase, hcall, hs⟩ := Option.bind_eq_some_iff.1 hs
    cases phase with
    | queued | gpuQueued =>
      obtain ⟨-, hs⟩ := Option.ite_none_right_eq_some.1 hs
      cases hs
      exact ⟨h.leave hcall (by decide), fun hnone => iff_of_true hnone trivial⟩
    | _ => cases hs
  | cancel i =>
    obtain ⟨phase, hcall, hs⟩ := Option.bind_eq_some_iff.1 hs
    cases phase with
    | queued | gpuQueued =>
      cases hs
      refine ⟨h.leave hcall (by decide), fun hnone => iff_of_true hnone ?_⟩
      rw [Uncut, hcall]
      decide
    | running =>
      cases hs
      obtain ⟨hpermits, hgpu, hinUse⟩ := h.leave hcall (by decide)
      exact ⟨⟨hpermits, hgpu, hinUse⟩, fun _ => iff_of_false (Nat.succ_ne_zero _) fun huncut =>
        huncut hcall⟩
    | ended => cases hs
  | nativeEnds =>
    obtain ⟨hsome, hs⟩ := Option.ite_none_left_eq_some.1 hs
    cases hs
    exact ⟨⟨h.permits, h.gpuPermits, h.inUse⟩, fun hnone => absurd hnone hsome⟩

end Inv

theorem uncut_of_stuck (hs : step bundle s act = none) : Uncut s act := by
  cases act with
  | cancel i =>
    intro hcall
    rw [step, hcall] at hs
    cases hs
  | _ => trivial

/-- **No permit is lost or made**, whatever is cancelled. -/
theorem permits_conserved (bundle : Bundle) (acts : List Act) :
    ∀ s ∈ states (step bundle) (init bundle) acts, Inv bundle s :=
  invariant_all (fun _ _ _ h hs => (h.step hs).1) acts ⟨rfl, rfl, rfl⟩

theorem permits_cancelled : Inv ⟨some 1, some 1, true⟩ ⟨0, 0, 1, [.ended, .running], 1⟩ :=
  permits_conserved _ [.call, .go 0, .go 0, .cancel 0, .call, .go 1, .go 1] _ (by decide +kernel)

/-- **The concurrency limit** holds in every state of a run exactly when no call is cancelled during
its native run. -/
theorem limited_iff (bundle : Bundle) (acts : List Act) :
    (∀ s ∈ states (step bundle) (init bundle) acts, Limited bundle s) ↔
      Along (step bundle) Uncut (init bundle) acts := by
  have hinit : Inv bundle (init bundle) := ⟨rfl, rfl, rfl⟩
  have hinv : ∀ s ∈ states (step bundle) (init bundle) acts, Inv bundle s :=
    invariant_states (fun _ _ _ h _ hs => (h.step hs).1) hinit
      (along_of_forall (fun _ _ => trivial) _ _)
  have hiff : (∀ s ∈ states (step bundle) (init bundle) acts, Inv bundle s ∧ s.orphans = 0) ↔
      Along (step bundle) Uncut (init bundle) acts :=
    states_iff (fun _ _ => uncut_of_stuck) (fun s act s' h hs => by
      rw [← (h.1.step hs).2 h.2, and_iff_right (h.1.step hs).1]) ⟨hinit, rfl⟩
  rw [← hiff]
  exact forall₂_congr fun s hs => (hinv s hs).limited_iff_no_orphans.trans
    (and_iff_right (hinv s hs)).symm

/-- A second native run on a bundle that admits one. -/
theorem limit_exceeded : let bundle : Bundle := ⟨some 1, some 1, true⟩
    ¬∀ s ∈ states (step bundle) (init bundle) [.call, .go 0, .go 0, .cancel 0, .call, .go 1, .go 1],
    Limited bundle s :=
  fun h => absurd (h ⟨0, 0, 1, [.ended, .running], 1⟩ (by decide +kernel)).runs (by decide)

end Scenara.Runtime.Concurrency
