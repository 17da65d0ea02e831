import Scenara.Core.Parties
import Scenara.Inference.Batch
import Scenara.Inference.Split

/-!
# Dynamic batching is transparent

* `Transparent`: requests leave the queue once, in order; futures are resolved once, with the
  outputs for the own input; batches are fair.
-/

namespace Scenara.Inference

open Scenara.Core

variable {Row Out : Type}

/-! ## The property -/

/-- What is so of every state. -/
structure Transparent (executor : Executor Row Out) (bundle : Bundle) (s : System Row Out) :
    Prop where
  /-- A request is queued, or was removed, and that once. -/
  removedOnce : (s.removed ++ s.queue).Perm s.submitted
  distinct : (s.submitted.map ScheduledInference.id).Nodup
  /-- While one is queued, a worker is there. -/
  attended : s.queue ≠ [] → s.worker ≠ .none
  resolvedOnce : ∀ i, (s.futures i).length ≤ 1
  own : ∀ r ∈ s.submitted, ∀ outputs, .result outputs ∈ s.futures r.id →
    outputs = executor.outputs r.inputArray
  fair : ∀ d ∈ s.dispatched, Fair bundle.maxBatchSize d
  order : s.queue.Sublist s.submitted

/-- The requests that the worker has taken. -/
def Worker.holds : Worker Row → List (ScheduledInference Row)
  | .none | .running | .waiting => []
  | .batch active => active
  | .items calls => calls.map Prod.fst

/-- What carries it. -/
structure Inv (executor : Executor Row Out) (bundle : Bundle) (s : System Row Out) : Prop extends
    Transparent executor bundle s where
  ids : ∀ (i : Nat) (r : ScheduledInference Row), s.submitted[i]? = some r → r.id = i
  pending : ∀ r ∈ s.queue, ∀ outcome ∈ s.futures r.id, outcome.isCancelled
  fresh : ∀ i, s.submitted.length ≤ i → s.futures i = []
  held : ∀ r ∈ s.worker.holds, r ∈ s.removed

variable {executor : Executor Row Out} {bundle : Bundle} {s : System Row Out}
  {item : ScheduledInference Row} {queue : List (ScheduledInference Row)} {outcome : Outcome Out}

/-! ## Parts of steps -/

theorem inv_empty (executor : Executor Row Out) (bundle : Bundle) : Inv executor bundle .empty where
  removedOnce := .rfl
  distinct := List.nodup_nil
  attended h := absurd rfl h
  resolvedOnce _ := Nat.zero_le _
  own _ h := absurd h List.not_mem_nil
  fair _ h := absurd h List.not_mem_nil
  order := .slnil
  ids _ _ h := nomatch h
  pending _ h := absurd h List.not_mem_nil
  fresh _ _ := rfl
  held _ h := absurd h List.not_mem_nil

section

variable (h : Inv executor bundle s)
include h

theorem Inv.withWorker {worker : Worker Row} (hidle : s.queue ≠ [] → worker ≠ .none)
    (hheld : ∀ r ∈ worker.holds, r ∈ s.removed) : Inv executor bundle { s with worker } :=
  { h with attended := hidle, held := hheld }

theorem Inv.eq_of_id {r r' : ScheduledInference Row} (hr : r ∈ s.submitted)
    (hr' : r' ∈ s.submitted) (hid : r.id = r'.id) : r = r' :=
    List.inj_on_of_nodup_map h.distinct hr hr' hid

theorem Inv.submitted_of_removed (hitem : item ∈ s.removed) : item ∈ s.submitted :=
  h.removedOnce.subset (List.mem_append_left _ hitem)

theorem Inv.not_queued (hitem : item ∈ s.removed) : item ∉ s.queue := by
  have hnodup : (s.removed ++ s.queue).Nodup := h.removedOnce.nodup_iff.2 h.distinct.of_map
  exact fun hqueued => List.disjoint_of_nodup_append hnodup hitem hqueued

theorem Inv.resolve (hitem : item ∈ s.submitted) (hpending : s.futures item.id = [])
    (hqueue : item ∉ s.queue ∨ outcome.isCancelled)
    (hown : ∀ outputs, outcome = .result outputs → outputs = executor.outputs item.inputArray) :
    Inv executor bundle (s.resolve item outcome) := by
  have hother (i : Nat) (hi : i ≠ item.id) : (s.resolve item outcome).futures i = s.futures i :=
    Function.update_of_ne hi _ _
  have hself : (s.resolve item outcome).futures item.id = [outcome] := by
    refine (Function.update_self _ _ _).trans ?_
    rw [hpending]
    rfl
  refine { h with resolvedOnce := fun i => ?_, own := fun r hr outputs hresult => ?_,
                  pending := fun r hr other hother' => ?_, fresh := fun i hi => ?_ }
  · by_cases hi : i = item.id
    · rw [hi, hself]
      exact le_rfl
    · rw [hother i hi]
      exact h.resolvedOnce i
  · by_cases hid : r.id = item.id
    · rw [hid, hself, List.mem_singleton] at hresult
      rw [h.eq_of_id hr hitem hid]
      exact hown outputs hresult.symm
    · rw [hother _ hid] at hresult
      exact h.own r hr outputs hresult
  · by_cases hid : r.id = item.id
    · rw [hid, hself, List.mem_singleton] at hother'
      rw [hother']
      refine hqueue.resolve_left fun hnot => hnot ?_
      rwa [← h.eq_of_id (h.order.subset hr) hitem hid]
    · rw [hother _ hid] at hother'
      exact h.pending r hr other hother'
  · have hid : i ≠ item.id := by
      rintro rfl
      obtain ⟨j, hj⟩ := List.mem_iff_getElem?.1 hitem
      rw [h.ids j item hj] at hi
      have hlong : s.submitted.length ≤ j := hi
      simp [List.getElem?_eq_none hlong] at hj
    rw [hother i hid]
    exact h.fresh i hi

end

theorem removed_resolveIfPending (s : System Row Out) (item : ScheduledInference Row)
    (outcome : Outcome Out) : (s.resolveIfPending item outcome).removed = s.removed := by
  unfold System.resolveIfPending
  split <;> rfl

theorem Inv.resolveIfPending (h : Inv executor bundle s) (hitem : item ∈ s.submitted)
    (hqueue : item ∉ s.queue ∨ outcome.isCancelled)
    (hown : ∀ outputs, outcome = .result outputs → outputs = executor.outputs item.inputArray) :
    Inv executor bundle (s.resolveIfPending item outcome) := by
  unfold System.resolveIfPending System.done
  split
  · exact h
  · rename_i hdone
    exact h.resolve hitem (by simpa using hdone) hqueue hown

theorem Inv.remove {pre : List (ScheduledInference Row)}
    (h : Inv executor bundle { s with queue := pre ++ item :: queue }) :
    Inv executor bundle { s with queue := pre ++ queue, removed := s.removed ++ [item] } := by
  have hsub : (pre ++ queue).Sublist (pre ++ item :: queue) :=
    (List.sublist_cons_self item queue).append_left pre
  refine { h with removedOnce := ?_, attended := fun hne => h.attended ?_,
                  order := hsub.trans h.order,
                  pending := fun r hr => h.pending r (hsub.subset hr),
                  held := fun r hr => List.mem_append_left _ (h.held r hr) }
  · refine List.Perm.trans ?_ h.removedOnce
    rw [List.append_assoc]
    have hmiddle : (pre ++ item :: queue).Perm (item :: (pre ++ queue)) := List.perm_middle
    exact hmiddle.symm.append_left _
  · exact List.append_ne_nil_of_right_ne_nil _ (List.cons_ne_nil _ _)

theorem Inv.discard (current : ℚ) (h : Inv executor bundle { s with queue := s.queue ++ queue }) :
    Inv executor bundle (discard current s queue) := by
  induction queue generalizing s with
  | nil =>
    rwa [List.append_nil] at h
  | cons item queue ih =>
    unfold Inference.discard
    split
    · exact ih h.remove
    · rename_i hcancelled
      have hitem : item ∈ s.submitted := h.order.subset (List.mem_append_right _ List.mem_cons_self)
      split
      · have hpending : s.futures item.id = [] := by
          refine List.eq_nil_iff_forall_not_mem.2 fun outcome houtcome => hcancelled ?_
          exact List.any_eq_true.2
            ⟨outcome, houtcome, h.pending item (List.mem_append_right _ List.mem_cons_self) outcome
              houtcome⟩
        have hremoved := h.remove
        have hgone : item ∉ s.queue ++ queue :=
          hremoved.not_queued (List.mem_append_right _ List.mem_cons_self)
        exact ih (hremoved.resolve hitem hpending (.inl hgone) nofun)
      · refine ih ?_
        rwa [List.append_cons] at h

theorem Inv.discardFinished (current : ℚ) (h : Inv executor bundle s) :
    Inv executor bundle (discardFinished current s) := Inv.discard current h

/-! ## Steps -/

theorem Inv.submit (h : Inv executor bundle s) (read : Bundle) (inputArray : NdArray Row)
    (scope priority : String) (weight : ℤ) (timeoutSeconds current enqueuedAt : ℚ) :
    Inv executor bundle (submit read s inputArray scope priority weight timeoutSeconds current
      enqueuedAt) := by
  have hd := h.discardFinished current
  unfold Inference.submit
  dsimp only
  split
  · exact hd
  · generalize Inference.discardFinished current s = s at hd
    have hnew : s.futures s.submitted.length = [] := hd.fresh _ le_rfl
    have hids : ∀ r ∈ s.submitted, r.id < s.submitted.length := by
      intro r hr
      obtain ⟨i, hi⟩ := List.mem_iff_getElem?.1 hr
      rw [hd.ids i r hi]
      exact (List.getElem?_eq_some_iff.1 hi).1
    refine ⟨⟨?_, ?_, fun _ => ?_, hd.resolvedOnce, fun r hr outputs hresult => ?_, hd.fair, ?_⟩,
      fun i r hr => ?_,
      fun r hr outcome houtcome => ?_, fun i hi => hd.fresh i ?_, ?_⟩
    · rw [← List.append_assoc]
      exact hd.removedOnce.append_right _
    · rw [List.map_append, List.nodup_append]
      refine ⟨hd.distinct, List.nodup_singleton _, fun a ha b hb => ?_⟩
      obtain ⟨r, hr, rfl⟩ := List.mem_map.1 ha
      rw [List.map_singleton, List.mem_singleton] at hb
      rw [hb]
      exact (hids r hr).ne
    · dsimp only
      split
      · exact nofun
      · assumption
    · rcases Parties.mem_snoc.1 hr with hold | rfl
      · exact hd.own r hold outputs hresult
      · have hnone : Outcome.result outputs ∈ s.futures s.submitted.length := hresult
        simp [hnew] at hnone
    · exact hd.order.append (List.Sublist.refl _)
    · change (s.submitted ++ [_])[i]? = some r at hr
      rcases Parties.getElem?_append_cases hr with ⟨rfl, rfl⟩ | hr
      · rfl
      · exact hd.ids i r hr
    · rcases Parties.mem_snoc.1 hr with hold | rfl
      · exact hd.pending r hold outcome houtcome
      · have hnone : outcome ∈ s.futures s.submitted.length := houtcome
        simp [hnew] at hnone
    · change (s.submitted ++ [_]).length ≤ i at hi
      rw [List.length_append] at hi
      omega
    · dsimp only
      split
      · exact fun r hr => absurd hr List.not_mem_nil
      · exact hd.held

theorem seedOf_mem {seed : ScheduledInference Row} (h : seedOf queue = some seed) :
    seed ∈ queue := by
  cases queue with
  | nil => cases h
  | cons item queue =>
    rw [← Option.some.inj h]
    clear h
    induction queue generalizing item with
    | nil => exact List.mem_cons_self
    | cons other _ ih =>
      rw [List.foldl_cons]
      split
      · exact List.mem_cons_of_mem _ (ih other)
      · rcases List.mem_cons.1 (ih item) with heq | hmem
        · rw [heq]
          exact List.mem_cons_self
        · exact List.mem_cons_of_mem _ (List.mem_cons_of_mem _ hmem)

section

variable (h : Inv executor bundle s)
include h

theorem Inv.dispatch {batch : List (ScheduledInference Row)}
    (hbatch : ∀ r ∈ batch, r ∈ s.removed) : Inv executor bundle (dispatch s batch) := by
  have hactive : ∀ r ∈ batch.filter fun item => !s.cancelled item, r ∈ s.removed := fun r hr =>
    hbatch r (List.mem_of_mem_filter hr)
  unfold Inference.dispatch
  dsimp only
  split
  · exact h.withWorker (fun _ => nofun) fun r hr => absurd hr List.not_mem_nil
  · rename_i item hone
    rw [hone] at hactive
    split
    · exact h.withWorker (fun _ => nofun) fun r hr => absurd hr List.not_mem_nil
    · exact h.withWorker (fun _ => nofun) hactive
  · split
    · exact h.withWorker (fun _ => nofun) hactive
    · refine h.withWorker (fun _ => nofun) fun r hr => hactive r ?_
      simpa [Worker.holds] using hr

theorem Inv.work (current now : ℚ) : Inv executor bundle (work bundle s current now) := by
  have hd := h.discardFinished current
  unfold Inference.work
  dsimp only
  generalize Inference.discardFinished current s = s at hd
  split
  · rename_i hnone
    refine hd.withWorker (fun hne => absurd ?_ hne) fun r hr => absurd hr List.not_mem_nil
    cases hqueue : s.queue with
    | nil => rfl
    | cons =>
      rw [hqueue] at hnone
      cases hnone
  · rename_i seed hseed
    split
    · exact hd.withWorker (fun _ => nofun) fun r hr => absurd hr List.not_mem_nil
    · have hfair := fair_dispatch bundle.maxBatchSize_pos (hd.distinct.sublist (hd.order.map _))
        s.lastScope (seedOf_mem hseed)
      generalize batchOf (select bundle.maxBatchSize s.lastScope s.queue seed) seed = batch at hfair
      refine Inv.dispatch ?_ fun r hr => List.mem_append_right _ hr
      refine { hd with removedOnce := ?_, attended := fun hne => hd.attended fun hnil => hne ?_,
                       fair := ?_, order := hfair.left.trans hd.order,
                       pending := fun r hr => hd.pending r (hfair.left.subset hr),
                       held := fun r hr => List.mem_append_left _ (hd.held r hr) }
      · change (s.removed ++ batch ++ leftOf batch s.queue).Perm s.submitted
        rw [List.append_assoc]
        exact (hfair.parted.append_left _).trans hd.removedOnce
      · exact List.eq_nil_of_sublist_nil (hnil ▸ hfair.left)
      · intro d hd'
        rcases List.mem_append.1 hd' with hold | hnew
        · exact hd.fair d hold
        · rwa [List.mem_singleton.1 hnew]

theorem Inv.deliver {pairs : List (ScheduledInference Row × List (NdArray Out))}
    (hremoved : ∀ e ∈ pairs, e.1 ∈ s.removed)
    (hown : ∀ e ∈ pairs, e.2 = executor.outputs e.1.inputArray) :
    Inv executor bundle (deliver s pairs) := by
  induction pairs generalizing s with
  | nil => exact h
  | cons e _ ih =>
    have hremovedE := hremoved e List.mem_cons_self
    have hone : Inv executor bundle (s.resolveIfPending e.1 (.result e.2)) := by
      refine h.resolveIfPending (h.submitted_of_removed hremovedE)
        (.inl (h.not_queued hremovedE)) ?_
      rintro _ ⟨⟩
      exact hown e List.mem_cons_self
    refine ih hone (fun e' he' => ?_) fun e' he' => hown e' (List.mem_cons_of_mem _ he')
    rw [removed_resolveIfPending]
    exact hremoved e' (List.mem_cons_of_mem _ he')

theorem Inv.called {calls : List (ScheduledInference Row × Call)} {i : Nat} {call call' : Call}
    (hcall : calls[i]? = some (item, call))
    (hheld : ∀ r ∈ (Worker.items calls).holds, r ∈ s.removed) :
    Inv executor bundle { s with worker := .items (calls.set i (item, call')) } := by
  refine h.withWorker (fun _ => nofun) fun r hr => hheld r ?_
  obtain ⟨e, he, rfl⟩ := List.mem_map.1 hr
  rcases List.mem_or_eq_of_mem_set he with hold | rfl
  · exact List.mem_map_of_mem hold
  · exact List.mem_map.2 ⟨_, List.mem_of_getElem? hcall, rfl⟩

theorem Inv.executed {active : List (ScheduledInference Row)} {combined : NdArray Row}
    (hrowWise : RowWise executor) (hrowForRow : RowForRow executor)
    (hactive : ∀ r ∈ active, r ∈ s.removed)
    (hcombined : concatenate (active.map ScheduledInference.inputArray) = some combined)
    (ok : Bool) :
    Inv executor bundle
      (executed s active (if ok then some (executor.outputs combined) else none)) := by
  have hitems : Inv executor bundle
      { s with worker := .items (active.map fun item => (item, .ready)) } := by
    refine h.withWorker (fun _ => nofun) fun r hr => hactive r ?_
    simpa [Worker.holds] using hr
  unfold Inference.executed
  cases ok with
  | false => exact hitems
  | true =>
    have hsplit : splitOutputs (executor.outputs combined) (active.map ScheduledInference.size) =
        some (active.map fun item => executor.outputs item.inputArray) := by
      have hparts := splitOutputs_outputs hrowWise hrowForRow hcombined
      rwa [List.map_map, List.map_map] at hparts
    rw [if_pos rfl, Option.bind_some, hsplit]
    dsimp only
    rw [← List.map_prod_left_eq_zip]
    have hpairs : ∀ e ∈ active.map fun item => (item, executor.outputs item.inputArray),
        e.1 ∈ s.removed ∧ e.2 = executor.outputs e.1.inputArray := by
      intro e he
      obtain ⟨item, hitem, rfl⟩ := List.mem_map.1 he
      exact ⟨hactive item hitem, rfl⟩
    exact (h.deliver (fun e he => (hpairs e he).1) fun e he => (hpairs e he).2).withWorker
      (fun _ => nofun) fun r hr => absurd hr List.not_mem_nil

theorem Inv.step {s' : System Row Out} {act : Act Row} (hrowWise : RowWise executor)
    (hrowForRow : RowForRow executor) (hs : step executor bundle s act = some s') :
    Inv executor bundle s' := by
  cases act with
  | submit _ inputArray scope priority weight timeoutSeconds current enqueuedAt =>
    cases hs
    exact h.submit _ inputArray scope priority weight timeoutSeconds current enqueuedAt
  | cancel i =>
    obtain ⟨_, hitem, rfl⟩ := Option.map_eq_some_iff.1 hs
    exact h.resolveIfPending (List.mem_of_getElem? hitem) (.inr rfl) nofun
  | work current now =>
    unfold Inference.step at hs
    dsimp only at hs
    split at hs
    · cases hs
      exact h.work current now
    · cases hs
  | wake =>
    unfold Inference.step at hs
    dsimp only at hs
    split at hs
    · cases hs
      exact h.withWorker (fun _ => nofun) fun r hr => absurd hr List.not_mem_nil
    · cases hs
  | executed ok =>
    unfold Inference.step at hs
    dsimp only at hs
    split at hs
    · rename_i active hworker
      obtain ⟨_, hcombined, hs⟩ := Option.bind_eq_some_iff.1 hs
      cases hs
      have hheld := h.held
      rw [hworker] at hheld
      exact h.executed hrowWise hrowForRow hheld hcombined ok
    · cases hs
  | start i =>
    unfold Inference.step at hs
    dsimp only at hs
    split at hs
    · rename_i calls hworker
      obtain ⟨⟨_, _⟩, hcall, hs⟩ := Option.bind_eq_some_iff.1 hs
      split at hs
      · cases hs
        have hheld := h.held
        rw [hworker] at hheld
        exact h.called hcall hheld
      · cases hs
    · cases hs
  | finished i ok =>
    unfold Inference.step at hs
    dsimp only at hs
    split at hs
    · rename_i calls hworker
      obtain ⟨⟨item, _⟩, hcall, hs⟩ := Option.bind_eq_some_iff.1 hs
      split at hs
      · cases hs
        have hheld := h.held
        rw [hworker] at hheld
        have hitem : item ∈ s.removed :=
          hheld item (List.mem_map.2 ⟨_, List.mem_of_getElem? hcall, rfl⟩)
        refine Inv.called (h.resolveIfPending (h.submitted_of_removed hitem)
          (.inl (h.not_queued hitem)) ?_) hcall
          fun r hr => by rw [removed_resolveIfPending]; exact hheld r hr
        intro _ heq
        cases ok <;> cases heq
        rfl
      · cases hs
    · cases hs
  | gathered =>
    unfold Inference.step at hs
    dsimp only at hs
    split at hs
    · split at hs
      · cases hs
        exact h.withWorker (fun _ => nofun) fun r hr => absurd hr List.not_mem_nil
      · cases hs
    · cases hs

end

/-! ## Runs -/

/-- **Dynamic batching is transparent** in every state of every run, with an executor that acts row
by row and gives a row for each row. -/
theorem transparent (executor : Executor Row Out) (bundle : Bundle) (hrowWise : RowWise executor)
    (hrowForRow : RowForRow executor) (acts : List (Act Row)) :
    ∀ s ∈ states (step executor bundle) .empty acts, Transparent executor bundle s := by
  have hinv : ∀ s ∈ states (step executor bundle) .empty acts, Inv executor bundle s :=
    invariant_states (fun s act s' h _ hs => h.step hrowWise hrowForRow hs)
      (inv_empty executor bundle) (along_of_forall (fun _ _ => trivial) _ _)
  exact fun s hs => (hinv s hs).toTransparent

/-- A bundle with batches of two, and no waits. -/
def pairs : Bundle := ⟨"m", "1", none, none, 2, 0, none, 8⟩

/-- Two requests of one row, and their batch. -/
def twoRows : List (Act Nat) :=
  [.submit pairs (.rows [0] [] "int64") "a" "sync" 1 0 0 0,
    .submit pairs (.rows [2] [] "int64") "b" "sync" 1 0 0 0, .work 0 0, .executed true]

/-- Each row as it is. -/
def identity : Executor Nat Nat := ⟨1, fun input _ => input⟩

theorem identity_transparent : (states (step identity pairs) .empty twoRows).length = 5 ∧
    ∀ s ∈ states (step identity pairs) .empty twoRows, Transparent identity pairs s :=
  ⟨by decide +kernel, transparent identity pairs
    (fun parts _ h _ => (congrArg concatenate (List.map_id parts)).trans h) (fun _ _ _ _ => rfl)
      twoRows⟩

/-- Each row as often as it says. -/
def repeats : Executor Nat Nat where
  count := 1
  run input _ :=
    match input with
    | .scalar value dtype => .scalar value dtype
    | .rows items shape dtype => .rows (items.flatMap fun n => List.replicate n n) shape dtype

theorem repeats_rowWise : RowWise repeats := by
  intro _ _ h j
  obtain ⟨shape, dtype, blocks, rfl, rfl⟩ := concatenate_eq_some h
  cases blocks with
  | nil => cases h
  | cons first blocks =>
    let repeated (items : List Nat) : List Nat := items.flatMap fun n => List.replicate n n
    have hrows : repeats.run (.rows (first :: blocks).flatten shape dtype) j =
        .rows ((first :: blocks).map repeated).flatten shape dtype := by
      have hflat : repeated (first :: blocks).flatten =
          ((first :: blocks).map repeated).flatten := by
        simp [repeated, List.flatMap_def, List.map_flatten, List.flatten_flatten, List.map_map,
          Function.comp_def]
      rw [← hflat]
      rfl
    have hparts : (((first :: blocks).map fun items => NdArray.rows items shape dtype).map
        fun part =>
        repeats.run part j) = ((first :: blocks).map repeated).map fun items =>
          .rows items shape dtype := by
      rw [List.map_map, List.map_map]
      rfl
    rw [hrows, hparts]
    exact concatenate_blocks shape dtype (repeated first) (blocks.map repeated)

/-- The rows of an array, of the outputs of a result. -/
def itemsOf : NdArray Nat → List Nat
  | .scalar _ _ => []
  | .rows items _ _ => items

theorem itemsOf_repeats (input : NdArray Nat) (j : Fin repeats.count) :
    itemsOf (repeats.run input j) = (itemsOf input).flatMap fun n => List.replicate n n := by
  cases input <;> rfl

/-- The rows of a result. -/
def resultOf : Outcome Nat → List (List Nat)
  | .result outputs => outputs.map itemsOf
  | _ => []

/-- The first request gets a row of the second one. -/
theorem rows_mixed_up : RowWise repeats ∧
    ¬∀ s ∈ states (step repeats pairs) .empty twoRows, Transparent repeats pairs s := by
  refine ⟨repeats_rowWise, fun h => ?_⟩
  have hrun : ((exec (step repeats pairs) .empty twoRows).map fun s =>
      ((s.futures 0).map resultOf, s.submitted.map fun r => (r.id, itemsOf r.inputArray))) =
      some ([[[2]]], [(0, [0]), (1, [2])]) := by decide +kernel
  obtain ⟨s, hs, hboth⟩ := Option.map_eq_some_iff.1 hrun
  obtain ⟨hfuture, hsubmitted⟩ := Prod.mk.inj hboth
  obtain ⟨outcome, houtcome, hresult⟩ := List.map_eq_singleton_iff.1 hfuture
  obtain ⟨r, hr, hread⟩ := List.mem_map.1 (hsubmitted ▸ List.mem_cons_self :
    (0, [0]) ∈ s.submitted.map fun r => (r.id, itemsOf r.inputArray))
  obtain ⟨hid, hitems⟩ := Prod.mk.inj hread
  cases outcome with
  | result outputs =>
    have hown := (h s (mem_states_of_exec hs)).own r hr outputs
        (by rw [hid, houtcome]; exact List.mem_cons_self)
    -- By itself, the row gives nothing.
    have hnothing : itemsOf (repeats.run r.inputArray ⟨0, by decide⟩) = [] := by
      rw [itemsOf_repeats, hitems]
      rfl
    rw [hown] at hresult
    have hboth : [itemsOf (repeats.run r.inputArray ⟨0, by decide⟩)] = [[2]] := hresult
    simp [hnothing] at hboth
  | cancelled | timedOut | failed => cases hresult

end Scenara.Inference
