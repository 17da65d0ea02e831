import Scenara.Core.Parties
import Scenara.Session.Model

/-!
# One segment of a stream session

* `rolls`: a worker that has saved `COMPLETED` and will create the next segment. `completes`: the
  step is such a save; `abandons`: the worker gives the run up at a conflict, though it is not
  terminal.
-/

namespace Scenara.Session

open Scenara.Core
open Run

variable {pausable : Bool} {segment segment' : Run.System} {act : Run.Act} {s s' : Store}
  {w w' : Worker} {choice : Choice} {now : ℚ} {i : Nat}

/-! ## Workers that will roll over -/

/-- The worker will call `_rollover_stream_segment`, after its events. -/
def rolls : Worker → Bool
  | .rollover _ => true
  | .event _ _ next => rolls next
  | _ => false

/-- The step saves `COMPLETED`, in a worker that will then roll over. -/
def completes (segment : Run.System) : Run.Act → Bool
  | .worker k _ .go =>
    match segment.workers[k]? with
    | some (.complete run latest termination) =>
      segment.store.run.revision == latest.revision && rolls (afterComplete run termination)
    | _ => false
  | _ => false

/-- The `FAILED` save of a worker meets a conflict, with a run that is not terminal. -/
def abandons (segment : Run.System) : Run.Act → Bool
  | .worker k _ .go =>
    match segment.workers[k]? with
    | some (.failSave latest _ _) =>
      segment.store.run.revision != latest.revision && !segment.store.run.status.terminal
    | _ => false
  | _ => false

theorem rolls_ends : ∀ {w : Worker}, w.Ends s → rolls w = true → s.run.status.terminal = true
  | .rollover _, h, _ => h
  | .event _ _ next, h, hrolls => rolls_ends (w := next) h hrolls
  | .start, _, h | .begin .., _, h | .beginReread _, _, h | .running .., _,
      h | .completeRead .., _, h
  | .complete .., _, h | .rolloverRead .., _, h | .rolloverSave .., _, h | .stopRead, _, h
  | .stopSave _, _, h | .failRead .., _, h | .failSave .., _, h | .returned, _, h | .raised,
      _, h => by
    cases h

theorem afterBegin_rolls (run : RunRecord) : rolls (afterBegin run) = false := by
  unfold afterBegin
  split
  · rfl
  · split <;> rfl

theorem stepWorker_rolls (h : stepWorker now s w choice = some (s', w'))
    (hrolls : rolls w' = true) :
    (rolls w = true ∧ ∀ run, w ≠ .rollover run) ∨ choice = .go ∧ ∃ run latest termination,
      w = .complete run latest termination ∧ s.run.revision = latest.revision ∧
        rolls (afterComplete run termination) = true := by
  have hbegin {run : RunRecord} (hr : rolls (afterBegin run) = true) : False := by
    simp [afterBegin_rolls] at hr
  cases stepWorker_cases h with
  | saved hw hr =>
    cases hw with
    | begin => exact (hbegin hrolls).elim
    | complete => exact .inr ⟨rfl, _, _, _, rfl, hr, hrolls⟩
    | _ => cases hrolls
  | lost hw => cases hw <;> cases hrolls
  | linked | call => cases hrolls
  | event => exact .inl ⟨hrolls, by simp⟩
  | turned ht =>
    cases ht with
    | begun => exact (hbegin hrolls).elim
    | _ => cases hrolls

/-! ## A step of a segment -/

/-- The run is terminal, or will be. -/
def halting (status : RunStatus) : Bool := status.terminal || status == .cancelling

/-- What holds of the parties of a segment. -/
structure Held (pausable : Bool) (segment : Run.System) : Prop where
  knows : segment.Knows pausable
  stopping : ∀ w ∈ segment.workers, w.stopping → segment.store.run.status.terminal = true
  ends : ∀ w ∈ segment.workers, w.Ends segment.store
  alone : segment.workers.length ≤ 1

theorem held_started (pausable : Bool) (store : Store) : Held pausable (Run.started store) :=
  have h := started_cancelInv pausable store
  ⟨h.knows, h.stopping, h.ends, Nat.le_refl 1⟩

theorem held_idle (pausable : Bool) (store : Store) : Held pausable (Run.idle store) where
  knows := idle_knows pausable store
  stopping _ h := by cases h
  ends _ h := by cases h
  alone := Nat.zero_le 1

theorem Held.terminal_of_rolls (h : Held pausable segment) (hw : w ∈ segment.workers)
    (hrolls : rolls w = true) : segment.store.run.status.terminal = true :=
  rolls_ends (h.ends w hw) hrolls

/-- The client is a `cancel` that has saved its status. -/
def cancelled : Client → Bool
  | .event .cancel _ _ | .returned .cancel _ => true
  | _ => false

/-- What a change of a segment keeps. -/
structure Moved (pausable : Bool) (segment segment' : Run.System) : Prop where
  held : Held pausable segment'
  terminal : segment.store.run.status.terminal = true → segment'.store.run.status.terminal = true
  stopping : halting segment.store.run.status = true →
    halting segment'.store.run.status = true
  staffed : segment.workers ≠ [] → segment'.workers ≠ []

theorem halting_of_callMove (h : CallMove s s') (hs : halting s.run.status = true) :
    halting s'.run.status = true := by
  rcases h with h | ⟨-, h⟩ | ⟨h, -⟩
  · rwa [h]
  · rw [h]; rfl
  · rw [h] at hs; cases hs

theorem halting_of_workerMove (h : WorkerMove s w s') (hs : halting s.run.status = true) :
    halting s'.run.status = true := by
  cases h with
  | call hm => exact halting_of_callMove hm hs
  | begin hq => rw [hq] at hs; cases hs
  | complete _ _ _ _ _ hc | fail _ _ _ _ _ _ hc | stop _ _ _ hc => rw [hc]; rfl

theorem halting_of_clientMove {c c' : Client} (h : ClientMove pausable s c s' c')
    (hs : halting s.run.status = true) : halting s'.run.status = true := by
  cases h with
  | quiet heq => rwa [heq]
  | apply _ _ _ hok heq =>
    have hcancelling : s.run.status = .cancelling := by
      simpa [halting, target_not_terminal hok] using hs
    rw [heq, target_of_cancelling hok (.inl hcancelling)]
    rfl

theorem moved_step (h : Held pausable segment) (hdeliver : act ≠ .deliver)
    (habandons : abandons segment act = false)
    (hs : Run.step pausable segment act = some segment') : Moved pausable segment segment' := by
  have hknows := knows_step h.knows hs
  cases step_stepped hs with
  | deliver => exact absurd rfl hdeliver
  | request => exact ⟨⟨hknows, h.stopping, h.ends, h.alone⟩, id, id, id⟩
  | worker hw hst =>
    rename_i k now choice w w' store
    have hmem := List.mem_of_getElem? hw
    have hspec := stepWorker_spec (h.knows.workers w hmem) hst
    have hterm := workerMove_terminal hspec.move
    have halone : (segment.workers.set k w').length ≤ 1 := by
      rw [List.length_set]
      exact h.alone
    refine ⟨⟨hknows, fun x hx hstop => ?_, fun x hx => ?_, halone⟩, hterm,
      halting_of_workerMove hspec.move, fun hne heq => hne (by simpa using heq)⟩
    · rcases List.mem_or_eq_of_mem_set hx with hx | rfl
      · exact hterm (h.stopping x hx hstop)
      · rcases stepWorker_stopping (h.knows.workers w hmem) hst hstop with hold | hnew
        · exact hterm (h.stopping w hmem hold)
        · show store.run.status.terminal = true
          rw [hnew]
          rfl
    · rcases List.mem_or_eq_of_mem_set hx with hx | rfl
      · exact (h.ends x hx).mono hterm
      · refine stepWorker_ends (h.knows.workers w hmem) (h.ends w hmem) (h.stopping w hmem)
          (fun latest code message heq hrevision => ?_) hst
        subst heq
        cases choice <;> simp only [stepWorker, reduceCtorEq] at hst
        simpa [abandons, hw, hrevision] using habandons
  | client hc hst =>
    rename_i j now c c' store
    have hspec := stepClient_spec (h.knows.clients c (List.mem_of_getElem? hc)) hst
    have hterm := clientMove_terminal hspec.move
    exact ⟨⟨hknows, fun x hx hstop => hterm (h.stopping x hx hstop), fun x hx =>
      (h.ends x hx).mono hterm, h.alone⟩, hterm, halting_of_clientMove hspec.move, id⟩

theorem rolls_step (hs : Run.step pausable segment act = some segment')
    (hw : w ∈ segment'.workers) (hrolls : rolls w = true) :
    (∃ w ∈ segment.workers, rolls w = true) ∨ completes segment act = true := by
  cases step_stepped hs with
  | deliver =>
    rcases Parties.mem_snoc.1 hw with hw | rfl
    · exact .inl ⟨w, hw, hrolls⟩
    · cases hrolls
  | request | client => exact .inl ⟨w, hw, hrolls⟩
  | worker hw' hst =>
    rename_i k now choice w₀ w' store
    rcases List.mem_or_eq_of_mem_set hw with hw | rfl
    · exact .inl ⟨w, hw, hrolls⟩
    · rcases stepWorker_rolls hst hrolls with ⟨hbefore, -⟩ |
        ⟨rfl, run, latest, termination, rfl, hrevision, hnext⟩
      · exact .inl ⟨w₀, List.mem_of_getElem? hw', hbefore⟩
      · exact .inr (by simp [completes, hw', hrevision, hnext])

theorem raise_rolls {code message : String} (hsegment : Held pausable segment)
    (hs : Run.step pausable segment (.worker 0 now (.raise code message)) = some segment') :
    ∀ w ∈ segment'.workers, rolls w = false := by
  cases step_stepped hs with
  | worker hw hst =>
    rename_i w₀ w' store
    have hone : segment.workers = [w₀] := by
      obtain ⟨hlt, hget⟩ := List.getElem?_eq_some_iff.1 hw
      obtain ⟨w, hw⟩ := List.length_eq_one_iff.1 (Nat.le_antisymm hsegment.alone hlt)
      simp only [hw, List.getElem_cons_zero] at hget
      rw [hw, hget]
    intro w hmem
    rw [hone, List.set_cons_zero, List.mem_singleton] at hmem
    rw [hmem]
    by_contra hrolls
    rcases stepWorker_rolls hst (by simpa using hrolls) with ⟨hbefore, hne⟩ | ⟨hgo, -⟩
    · cases w₀ with
      | rollover run => exact hne run rfl
      | event => simp only [stepWorker, reduceCtorEq] at hst
      | _ => cases hbefore
    · cases hgo

theorem clients_worker {k : Nat}
    (hs : Run.step pausable segment (.worker k now choice) = some segment') :
    segment'.clients = segment.clients := by
  cases step_stepped hs with
  | worker => rfl

theorem stepped_queued (hk : segment.Knows pausable) (hnone : segment.workers = [])
    (hdeliver : act ≠ .deliver) (hqueued : segment.store.run.status = .queued)
    (hs : Run.step pausable segment act = some segment') :
    segment'.workers = [] ∧ (segment'.store.run = segment.store.run ∨
      segment'.store.run.status.terminal = true) := by
  cases step_stepped hs with
  | deliver => exact absurd rfl hdeliver
  | request => exact ⟨hnone, .inl rfl⟩
  | worker hw => rw [hnone] at hw; cases hw
  | client hc hst =>
    rename_i j now c c' store
    refine ⟨hnone, ?_⟩
    have hkc := hk.clients c (List.mem_of_getElem? hc)
    have htarget {action : Action} {tgt : RunStatus}
        (hok : target pausable action segment.store.run.status = .ok tgt) : tgt = .cancelled := by
      rw [hqueued] at hok
      cases action <;> cases pausable <;> cases hok <;> rfl
    cases c with
    | read left =>
      cases left <;> simp only [stepClient] at hst
      · cases hst; exact .inl rfl
      · split at hst <;> cases hst <;> exact .inl rfl
    | save _ _ run tgt =>
      simp only [stepClient] at hst
      rcases saveRun_cases (transitionRecord now run tgt) hkc.1 with ⟨he, hv⟩ | ⟨-, hv⟩
      · rw [hv] at hst
        cases hst
        have htgt : tgt = .cancelled := htarget (he ▸ hkc.2)
        refine .inr ?_
        rw [transitionRecord_status, htgt]
        rfl
      · rw [hv] at hst
        cases hst
        exact .inl rfl
    | event => cases hst; exact .inl rfl
    | returned | invalid | conflict => cases hst

theorem cancelled_step {j : Nat} {c' : Client} (hs : Run.step pausable segment act = some segment')
    (hk : segment.Knows pausable) (hc' : segment'.clients[j]? = some c')
    (hcancelled : cancelled c' = true) :
    (∃ c, segment.clients[j]? = some c ∧ cancelled c = true) ∨
      segment.store.run.status.terminal = false ∧ halting segment'.store.run.status = true ∧
        segment'.workers = segment.workers := by
  cases step_stepped hs with
  | deliver | worker => exact .inl ⟨c', hc', hcancelled⟩
  | request =>
    rcases Parties.getElem?_append_cases hc' with ⟨-, rfl⟩ | hc'
    · cases hcancelled
    · exact .inl ⟨c', hc', hcancelled⟩
  | client hc hst =>
    rename_i k now c₀ c₀' store
    rcases Parties.getElem?_set_cases hc' with ⟨rfl, rfl⟩ | ⟨-, hc'⟩
    · have hspec := stepClient_spec (hk.clients c₀ (List.mem_of_getElem? hc)) hst
      cases hspec.move with
      | quiet _ hreturned hevent =>
        cases c' with
        | event action saved tgt =>
          cases action <;> first | (cases hcancelled; done) | exact absurd rfl (hevent saved tgt)
        | returned action saved =>
          cases action <;> try cases hcancelled
          obtain ⟨_, rfl⟩ := hreturned saved rfl
          exact .inl ⟨_, hc, rfl⟩
        | _ => cases hcancelled
      | apply action _ _ hok heq hc₀' =>
        subst hc₀'
        cases action <;> try cases hcancelled
        refine .inr ⟨target_not_terminal hok, ?_, rfl⟩
        rw [heq]
        rcases target_cancel hok with rfl | rfl <;> rfl
    · exact .inl ⟨c', hc', hcancelled⟩

end Scenara.Session
