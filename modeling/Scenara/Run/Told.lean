import Scenara.Run.Notices

/-!
# The event log and the status history

One worker executes the run, any number of transition calls are made. `Recorded` keeps, beside the
system, the statuses that the stored run took, each with its revision.
-/

namespace Scenara.Run

open Scenara.Core

variable {pausable : Bool} {s s' : Store} {w w' : Worker} {now : ℚ} {run snap u : RunRecord}
  {choice : Choice} {base : List RunStatus} {taken : List Notice}

/-! ## The worker that may still complete the run -/

theorem afterComplete_not_early (run : RunRecord) (termination : Option String) :
    ¬(afterComplete run termination).early := by
  unfold afterComplete
  split <;> exact id

theorem stepWorker_early (h : stepWorker now s w choice = some (s', w')) (hearly : w'.early) :
    (w.early ∨ s.run.status.terminal = false ∧ s' = s) ∧
      ∀ run latest termination, w ≠ .complete run latest termination := by
  cases stepWorker_cases h with
  | saved hw =>
    cases hw with
    | begin => exact ⟨.inl trivial, by simp⟩
    | complete => exact absurd hearly (afterComplete_not_early _ _)
    | cancel _ _ | stop _ | fail _ => exact hearly.elim
  | lost hw =>
    cases hw with
    | begin => exact ⟨.inl trivial, by simp⟩
    | _ => exact hearly.elim
  | linked => exact hearly.elim
  | event => exact ⟨.inl hearly, by simp⟩
  | call => exact ⟨.inl trivial, by simp⟩
  | turned ht =>
    cases ht with
    | start hterminal => exact ⟨.inr ⟨hterminal, rfl⟩, by simp⟩
    | begun _ _ | reread | called _ _ | finish | complete => exact ⟨.inl trivial, by simp⟩
    | _ => exact hearly.elim

theorem worker_not_completed (hk : w.Knows s) (hopen : w.early → s.run.status ≠ .completed)
    (h : stepWorker now s w choice = some (s', w')) (hearly : w'.early) :
    s'.run.status ≠ .completed := by
  obtain ⟨hbefore | ⟨hterminal, rfl⟩, hcomplete⟩ := stepWorker_early h hearly
  · have hstatus := hopen hbefore
    cases (stepWorker_spec hk h).move with
    | call hm =>
      rcases hm with hm | ⟨-, hm⟩ | ⟨-, hm⟩
      · rwa [hm]
      · rw [hm]; decide
      · rw [hm]; decide
    | begin _ hm | fail _ _ _ _ _ _ hm | stop _ _ _ hm => rw [hm]; decide
    | complete run latest termination hw => exact absurd hw (hcomplete run latest termination)
  · intro hcompleted
    rw [hcompleted] at hterminal
    cases hterminal

theorem client_not_completed {c c' : Client} (hk : c.Knows pausable s)
    (h : stepClient pausable now s c = some (s', c')) (hstatus : s.run.status ≠ .completed) :
    s'.run.status ≠ .completed := by
  cases (stepClient_spec hk h).move with
  | quiet hm => rwa [hm]
  | apply action _ _ hok hm =>
    rw [hm]
    rintro rfl
    cases action <;> cases hs : s.run.status <;> rw [hs] at hok <;> cases pausable <;> cases hok

/-! ## The history of a run -/

/-- The system, and the statuses that the stored run took, with their revisions. -/
structure Recorded where
  system : System
  taken : List Notice

/-- The history after a step. -/
def record (taken : List Notice) (s s' : Store) : List Notice :=
  if s'.run.status = s.run.status then taken else taken ++ [(s'.run.revision, s'.run.status)]

/-- The run handed to one worker. -/
def Recorded.started (store : Store) : Recorded := ⟨Run.started store, []⟩

/-- A step of the one worker, or of a transition call. -/
def Recorded.step (pausable : Bool) (r : Recorded) : Act → Option Recorded
  | .deliver => none
  | a => (Run.step pausable r.system a).map fun s => ⟨s, record r.taken r.system.store s.store⟩

/-- The status changes that are saved and not yet appended to the log. -/
def System.pending (s : System) : List Notice :=
  s.workers.flatMap Worker.pending ++ s.clients.flatMap Client.pending

/-- The status change that a step appends to the log. -/
def published (s : System) : Act → Option Notice
  | .worker i _ choice => s.workers[i]?.bind fun w => w.publishes choice
  | .client j _ => s.clients[j]?.bind Client.publishes
  | .deliver | .request _ => none

/-- The status changes that a step gives up. -/
def abandoned (s : System) : Act → List Notice
  | .worker i _ choice => (s.workers[i]?.map fun w => w.abandons choice).getD []
  | .client _ _ | .deliver | .request _ => []

/-- The step appends no status change before an earlier one, and gives none up. -/
def InTurn (s : System) (a : Act) : Prop :=
  (∀ n ∈ published s a, ∀ other ∈ s.pending, n.1 ≤ other.1) ∧ abandoned s a = []
  deriving Decidable

theorem published_step {before after : List Notice} {n : Option Notice}
    (h : Published base (told s.events) taken before) (hlast : ∀ m ∈ taken, m.1 ≤ s.run.revision)
    (hturn : ∀ m ∈ n, ∀ other ∈ before, m.1 ≤ other.1) (heffect : Effect s s' before after n) :
    Published base (told s'.events) (record taken s s') after ∧
      ∀ m ∈ record taken s s', m.1 ≤ s'.run.revision := by
  cases heffect with
  | quiet hstatus hrevision htold hperm =>
    rw [record, if_pos hstatus, htold]
    exact ⟨h.perm hperm, fun m hm => (hlast m hm).trans hrevision⟩
  | save hstatus _ htold hperm =>
    rw [record, if_neg hstatus, htold]
    refine ⟨(h.change fun version hversion => ?_).perm hperm, fun m hm => ?_⟩
    · obtain ⟨m, hm, rfl⟩ := List.mem_map.1 hversion
      have hle := hlast m hm
      omega
    · rcases List.mem_append.1 hm with hm | hm
      · exact (hlast m hm).trans (by omega)
      · rw [List.mem_singleton.1 hm]
  | publish m hrun htold hperm =>
    rw [record, if_pos (by rw [hrun]), htold, hrun]
    exact ⟨h.publish hperm (hturn m rfl), hlast⟩

/-! ## Runs -/

/-- **The invariant** of the runs whose steps are in turn, from `store`. -/
structure TellInv (pausable : Bool) (store : Store) (r : Recorded) : Prop where
  knows : r.system.Knows pausable
  alone : ∃ w, r.system.workers = [w]
  early : ∀ w ∈ r.system.workers, w.early → r.system.store.run.status ≠ .completed
  published : Published (told store.events) (told r.system.store.events) r.taken r.system.pending
  last : ∀ n ∈ r.taken, n.1 ≤ r.system.store.run.revision
  latest : (store.run.status :: r.taken.map Prod.snd).getLast? = some r.system.store.run.status

theorem started_tellInv (pausable : Bool) (store : Store) :
    TellInv pausable store (.started store) where
  knows := (started_cancelInv pausable store).knows
  alone := ⟨.start, rfl⟩
  early w hw h := by
    rw [List.mem_singleton.1 hw] at h
    exact h.elim
  published := published_nil _
  last := by simp [Recorded.started]
  latest := rfl

theorem latest_record {first : RunStatus}
    (h : (first :: taken.map Prod.snd).getLast? = some s.run.status) :
    (first :: (record taken s s').map Prod.snd).getLast? = some s'.run.status := by
  unfold record
  split
  · rename_i hstatus
    rw [h, hstatus]
  · rw [List.map_append, ← List.cons_append, List.getLast?_append]
    rfl

theorem pending_set_worker (clients : List Client) (store store' : Store) (w w' : Worker) :
    System.pending ⟨store, [w], clients⟩ = w.pending ++ clients.flatMap Client.pending ∧
      System.pending ⟨store', [w].set 0 w', clients⟩ =
        w'.pending ++ clients.flatMap Client.pending := by
  simp [System.pending]

theorem pending_set_client {clients : List Client} {j : Nat} {c : Client}
    (hc : clients[j]? = some c) (store store' : Store) (workers : List Worker) (c' : Client) :
    ∃ rest, (System.pending ⟨store, workers, clients⟩).Perm (c.pending ++ rest) ∧
      (System.pending ⟨store', workers, clients.set j c'⟩).Perm (c'.pending ++ rest) := by
  obtain ⟨hj, rfl⟩ := List.getElem?_eq_some_iff.1 hc
  have hset : j < (clients.set j c').length := by rwa [List.length_set]
  have hbefore := ((List.getElem_cons_eraseIdx_perm hj).symm).flatMap_right Client.pending
  have hafter := ((List.getElem_cons_eraseIdx_perm hset).symm).flatMap_right Client.pending
  rw [List.getElem_set_self, List.eraseIdx_set_eq] at hafter
  refine ⟨(clients.eraseIdx j).flatMap Client.pending ++ workers.flatMap Worker.pending, ?_, ?_⟩
  · rw [← List.append_assoc]
    exact List.perm_append_comm.trans (hbefore.append_right _)
  · rw [← List.append_assoc]
    exact List.perm_append_comm.trans (hafter.append_right _)

theorem recorded_step {r r' : Recorded} {a : Act} (h : r.step pausable a = some r') :
    ∃ t, Run.step pausable r.system a = some t ∧ a ≠ .deliver ∧
      r' = ⟨t, record r.taken r.system.store t.store⟩ := by
  unfold Recorded.step at h
  split at h
  · cases h
  · rename_i hdeliver
    obtain ⟨t, ht, rfl⟩ := Option.map_eq_some_iff.1 h
    exact ⟨t, ht, hdeliver, rfl⟩

theorem tellInv_step {store : Store} {r r' : Recorded} {a : Act} (h : TellInv pausable store r)
    (hturn : InTurn r.system a) (hstep : r.step pausable a = some r') :
    TellInv pausable store r' := by
  obtain ⟨⟨current, workers, clients⟩, taken⟩ := r
  obtain ⟨hknows, ⟨w₀, hw₀⟩, hearly, hpublished, hlast, hlatest⟩ := h
  obtain rfl : workers = [w₀] := hw₀
  obtain ⟨t, ht, hdeliver, rfl⟩ := recorded_step hstep
  have hknows' := knows_step hknows ht
  cases step_stepped ht with
  | deliver => exact absurd rfl hdeliver
  | request =>
    have hrecord : record taken current current = taken := if_pos rfl
    refine ⟨hknows', ⟨w₀, rfl⟩, hearly, ?_, ?_, latest_record hlatest⟩
    · show Published _ _ (record taken current current) _
      rw [hrecord]
      refine hpublished.perm ?_
      simp [System.pending, Client.pending]
    · show ∀ n ∈ record taken current current, _
      rwa [hrecord]
  | worker hw hst =>
    rename_i i now choice w w' store'
    obtain ⟨rfl, rfl⟩ : i = 0 ∧ w = w₀ := by
      obtain ⟨hi, rfl⟩ := List.getElem?_eq_some_iff.1 hw
      obtain rfl : i = 0 := by simpa using hi
      exact ⟨rfl, rfl⟩
    have hkw := hknows.workers w List.mem_cons_self
    obtain ⟨hbefore, hafter⟩ := pending_set_worker clients current store' w w'
    have heffect := stepWorker_effect hkw (hearly w List.mem_cons_self) hturn.2 hst
    have heffect' := heffect.context.perm (.of_eq hbefore) (.of_eq hafter)
    obtain ⟨hpublished', hlast'⟩ := published_step hpublished hlast hturn.1 heffect'
    refine ⟨hknows', ⟨w', rfl⟩, fun x hx hearly' => ?_, hpublished', hlast', latest_record hlatest⟩
    rw [List.mem_singleton.1 hx] at hearly'
    exact worker_not_completed hkw (hearly w List.mem_cons_self) hst hearly'
  | client hc hst =>
    rename_i j now c c' store'
    have hkc := hknows.clients c (List.mem_of_getElem? hc)
    obtain ⟨_, hbefore, hafter⟩ := pending_set_client hc current store' [w₀] c'
    have heffect := (stepClient_effect hkc hst).context.perm hbefore hafter
    have hturn' : ∀ n ∈ c.publishes, ∀ other ∈ System.pending ⟨current, [w₀], clients⟩,
        n.1 ≤ other.1 := by
      have hfirst := hturn.1
      simp only [published, hc, Option.bind_some] at hfirst
      exact hfirst
    obtain ⟨hpublished', hlast'⟩ := published_step hpublished hlast hturn' heffect
    exact ⟨hknows', ⟨w₀, rfl⟩,
      fun x hx hearly' => client_not_completed hkc hst (hearly x hx hearly'),
      hpublished', hlast', latest_record hlatest⟩

/-- **The log tells the statuses**: in a run whose steps are in turn, whenever no status event is
still to be appended, the status events of the log are those it had before and, in the order of
their revisions, one for each status that the stored run took. The last one names the stored
status. -/
theorem told_in_order {pausable : Bool} {store : Store} {acts : List Act}
    (hgood : Along (Recorded.step pausable) (fun r a => InTurn r.system a) (.started store) acts) :
    ∀ r ∈ states (Recorded.step pausable) (.started store) acts, r.system.pending = [] →
      told r.system.store.events = told store.events ++ r.taken.map Prod.snd ∧
      (r.taken.map Prod.fst).Pairwise (· < ·) ∧
      ((told store.events).getLast? = some store.run.status →
        (told r.system.store.events).getLast? = some r.system.store.run.status) := by
  intro r hr hpending
  have hinv : TellInv pausable store r :=
    invariant_states (fun _ _ _ h hturn hstep => tellInv_step h hturn hstep)
      (started_tellInv pausable store) hgood r hr
  have hpublished := hinv.published
  rw [hpending] at hpublished
  refine ⟨hpublished.told_eq, hpublished.ordered, fun hfirst => ?_⟩
  rw [hpublished.told_eq, ← hinv.latest, List.getLast?_append, hfirst, List.getLast?_cons]
  cases (r.taken.map Prod.snd).getLast? <;> rfl

/-- The run as `create_run` leaves it. -/
def createdStore : Store := { queuedStore with events := [⟨"run.queued", .queued⟩] }

/-- The run is cancelled while it executes, and each status is told before the next one is taken. -/
theorem cancelAtCheckpoint_told :
    ∃ r, exec (Recorded.step true) (.started createdStore) cancelAtCheckpoint = some r ∧
      told r.system.store.events = [.queued, .running, .cancelling, .cancelled] := by
  refine ⟨_, rfl, ?_⟩
  have hgood : Along (Recorded.step true) (fun r a => InTurn r.system a) (.started createdStore)
      cancelAtCheckpoint := by decide +kernel
  exact (told_in_order hgood _ (mem_states_of_exec rfl) (by decide +kernel)).1

/-! ## A change that is told late -/

/-- The run is cancelled while it executes. The worker stores `CANCELLED` and tells so before the
transition call, which stored `CANCELLING`, does. -/
def cancelToldLate : List Act :=
  [.worker 0 0 .go, .worker 0 0 .go, .worker 0 0 .go, .request .cancel, .client 0 0, .client 0 0,
    .worker 0 0 .callCheckpoint, .worker 0 0 (.call 0), .worker 0 0 (.call 0),
    .worker 0 0 (.call 0),
    .worker 0 0 .stop, .worker 0 0 .go, .client 0 0]

/-- **`run.cancelling` comes last**: no call is in flight, the run is `CANCELLED`, and the log ends
with `run.cancelling`. -/
theorem cancelling_told_last :
    ∃ r, exec (Recorded.step true) (.started createdStore) cancelToldLate = some r ∧
      (∀ w ∈ r.system.workers, w.over) ∧ (∀ c ∈ r.system.clients, c.over) ∧
      r.system.store.run.status = .cancelled ∧
      r.taken.map Prod.snd = [.running, .cancelling, .cancelled] ∧
      told r.system.store.events = [.queued, .running, .cancelled, .cancelling] := by
  refine ⟨_, rfl, fun w hw => ?_, fun c hc => ?_, rfl, rfl, by decide +kernel⟩
  · rw [List.mem_singleton.1 hw]
    trivial
  · rw [List.mem_singleton.1 hc]
    trivial

end Scenara.Run
