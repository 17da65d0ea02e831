import Mathlib.Algebra.BigOperators.Group.List.Basic
import Scenara.ControlPlane.Quota
import Scenara.Core.Parties
import Scenara.Core.Spans
import Scenara.Core.Transition

/-!
# What a quota counts

An increment that is allowed adds to what the record of its window counts.
-/

namespace Scenara.ControlPlane.Quota

open Scenara.Core

variable {plan : Plan} {record found : Option UsageDocument} {document : UsageDocument}
  {allowed : List Increment} {increment : Increment} {row row' : Row UsageDocument}
  {call call' : Call} {i j : Nat} {s s' : Postgres}

/-! ## Windows of increments -/

/-- The windows of increments, the last one first. -/
def Plan.windows (plan : Plan) (allowed : List Increment) : List (Window ℚ Increment) :=
  Window.windows plan.windowSeconds Increment.now allowed

/-- The sum of the increments in a window. -/
def total (w : Window ℚ Increment) : Nat := (w.items.map Increment.amount).sum

/-- The record is the last window, and no window has too much. -/
structure Counted (plan : Plan) (record : Option UsageDocument) (allowed : List Increment) :
    Prop where
  stored : record.map (fun document => (document.windowStartedAt, document.used)) =
    (plan.windows allowed).head?.map fun w => (w.started, total w)
  within : ∀ w ∈ plan.windows allowed, plan.allows (total w) = true

theorem counted_start (initial : Initial plan) : Counted plan initial.record initial.allowed := by
  obtain ⟨record, hwithin⟩ := initial
  cases record with
  | none => exact ⟨rfl, nofun⟩
  | some document =>
    have htotal : total ⟨document.windowStartedAt, [⟨document.windowStartedAt, document.used⟩]⟩ =
        document.used := by
      simp [total]
    refine ⟨?_, fun w hw => ?_⟩
    · exact congrArg (fun n => some (document.windowStartedAt, n)) htotal.symm
    · rw [List.mem_singleton.1 hw]
      exact (congrArg (plan.allows ·) htotal).trans (hwithin document rfl)

theorem windows_append (h : Counted plan record allowed) (increment : Increment) :
    ∃ w ws, plan.windows (allowed ++ [increment]) = w :: ws ∧
      (w.started, total w) = ((plan.carried record increment.now).1,
        (plan.carried record increment.now).2 + increment.amount) ∧
      ∀ w ∈ ws, plan.allows (total w) = true := by
  have hstored := h.stored
  have hwithin := h.within
  show ∃ w ws, Window.windows _ _ _ = _ ∧ _
  rw [Window.windows_append]
  show ∃ w ws, Window.place _ _ (plan.windows allowed) _ = _ ∧ _
  cases hwindows : plan.windows allowed with
  | nil =>
    rw [hwindows] at hstored
    obtain rfl : record = none := Option.map_eq_none_iff.1 hstored
    exact ⟨_, [], Window.place_nil increment, by simp [total, Plan.carried], nofun⟩
  | cons w ws =>
    rw [hwindows] at hstored hwithin
    obtain ⟨_, rfl, hdocument⟩ := Option.map_eq_some_iff.1 hstored
    obtain ⟨hstarted, hused⟩ := Prod.mk.inj hdocument
    rw [Plan.carried, hstarted, hused]
    by_cases hopen : increment.now < w.started + plan.windowSeconds
    · rw [if_pos hopen]
      exact ⟨_, ws, Window.place_open hopen, by simp [total],
        fun w' hw' => hwithin w' (List.mem_cons_of_mem w hw')⟩
    · rw [if_neg hopen]
      exact ⟨_, w :: ws, Window.place_over hopen, by simp [total], hwithin⟩

theorem adjust_eq (plan : Plan) (existing : Option UsageDocument) (increment : Increment) :
    plan.adjust existing increment =
      (⟨if plan.allows ((plan.carried existing increment.now).2 + increment.amount) then
          (plan.carried existing increment.now).2 + increment.amount
        else (plan.carried existing increment.now).2,
        (plan.carried existing increment.now).1, increment.now⟩,
      plan.allows ((plan.carried existing increment.now).2 + increment.amount)) := rfl

theorem counted_append (h : Counted plan record allowed)
    (hadjust : plan.adjust found increment = (document, true)) :
    Counted plan (some document) (allowed ++ [increment]) ↔
      plan.carried found increment.now = plan.carried record increment.now := by
  obtain ⟨w, _, hwindows, hw, hws⟩ := windows_append h increment
  rw [adjust_eq] at hadjust
  obtain ⟨hdocument, hallows⟩ := Prod.mk.inj hadjust
  have hstored : (document.windowStartedAt, document.used) =
      ((plan.carried found increment.now).1,
        (plan.carried found increment.now).2 + increment.amount) := by
    rw [← hdocument, if_pos hallows]
  have hpair : Counted plan (some document) (allowed ++ [increment]) ↔
      (document.windowStartedAt, document.used) = (w.started, total w) ∧
        plan.allows (total w) = true := by
    constructor
    · intro hcounted
      have hhead := hcounted.stored
      rw [hwindows] at hhead
      exact ⟨Option.some.inj hhead, hcounted.within w (hwindows ▸ List.mem_cons_self)⟩
    · rintro ⟨hhead, hlast⟩
      refine ⟨by rw [hwindows]; exact congrArg some hhead, ?_⟩
      rw [hwindows, List.forall_mem_cons]
      exact ⟨hlast, hws⟩
  rw [hpair, hstored, hw]
  constructor
  · rintro ⟨heq, -⟩
    obtain ⟨hstarted, hused⟩ := Prod.mk.inj heq
    exact Prod.ext hstarted (Nat.add_right_cancel hused)
  · intro heq
    refine ⟨by rw [heq], ?_⟩
    rwa [(Prod.mk.inj hw).2, ← heq]

/-! ## `MemoryControlPlaneStore` -/

theorem Memory.adjustQuotaUsage_eq (plan : Plan) (s : Memory) (increment : Increment) :
    (s.adjustQuotaUsage plan increment).1 =
      if (plan.adjust s.record increment).2 then
        ⟨some (plan.adjust s.record increment).1, s.allowed ++ [increment]⟩
      else s := rfl

theorem Memory.adjustQuotaUsage_denied {s : Memory}
    (h : (s.adjustQuotaUsage plan increment).2.2 = false) :
    (s.adjustQuotaUsage plan increment).1 = s := by
  exact if_neg fun hallowed => absurd (hallowed.symm.trans h) (by decide)

theorem Memory.counted_step {s s' : Memory} (h : Counted plan s.record s.allowed)
    (hstep : Memory.step plan s increment = some s') : Counted plan s'.record s'.allowed := by
  obtain rfl := Option.some.inj hstep
  rw [Memory.adjustQuotaUsage_eq]
  split
  next hallowed => exact (counted_append h (Prod.ext rfl hallowed)).2 rfl
  next => exact h

/-! ## `PostgresControlPlaneStore` -/

/-- What transaction `i` holds at its next statement. -/
def Call.Ok (plan : Plan) (row : Row UsageDocument) (i : Nat) : Call → Prop
  | .begun _ => row.Free i
  | .read _ found =>
    found = none ∧ row.Free i ∨ found.isSome ∧ row = ⟨found, some (i, none)⟩
  | .closing increment found document true => plan.adjust found increment = (document, true) ∧
    row.lock = some (i, some document) ∧ (found.isSome → row.committed = found)
  | .closing _ _ _ false => ∀ document, row.lock ≠ some (i, some document)
  | .returned _ _ => row.Free i
  | .rolledBack => row.Free i

/-- Every transaction holds what it should, and nobody else holds the row. -/
structure Inv (plan : Plan) (s : Postgres) : Prop where
  calls : ∀ (i : Nat) (call : Call), s.calls[i]? = some call → call.Ok plan s.row i
  owner : ∀ i w, s.row.lock = some (i, w) → i < s.calls.length

theorem inv_start (initial : Initial plan) : Inv plan (.start initial) := ⟨nofun, nofun⟩

theorem Call.Ok.moved (h : call.Ok plan row i) (hmoved : Row.Moved j row row') (hij : i ≠ j) :
    call.Ok plan row' i := by
  cases call with
  | begun | returned | rolledBack => exact hmoved.free hij h
  | read =>
    rcases h with ⟨hnone, hfree⟩ | ⟨hsome, rfl⟩
    · exact .inl ⟨hnone, hmoved.free hij hfree⟩
    · exact .inr ⟨hsome, hmoved.held i none hij rfl⟩
  | closing _ _ document allowed =>
    cases allowed with
    | true =>
      obtain ⟨hadjust, hlock, hfound⟩ := h
      obtain rfl := hmoved.held i _ hij hlock
      exact ⟨hadjust, hlock, hfound⟩
    | false => exact fun document hlock => h document (hmoved.own i _ hij hlock)

theorem stepCall_ok (h : call.Ok plan row i)
    (hstep : stepCall plan i row call = some (row', call')) :
    Row.Moved i row row' ∧ call'.Ok plan row' i ∧
      (call.adds = [] → row'.committed = row.committed) := by
  cases call with
  | begun =>
    obtain ⟨⟨_, _⟩, hselect, hstep⟩ := Option.bind_eq_some_iff.1 hstep
    cases hstep
    refine ⟨Row.moved_selectForUpdate hselect, ?_, fun _ => Row.selectForUpdate_committed hselect⟩
    obtain ⟨rfl, ⟨hnone, rfl⟩ | ⟨hsome, rfl⟩⟩ := Row.selectForUpdate_of_free h hselect
    · exact .inl ⟨hnone, h⟩
    · exact .inr ⟨hsome, rfl⟩
  | read increment found =>
    rcases hadjust : plan.adjust found increment with ⟨document, allowed⟩
    simp only [stepCall, hadjust] at hstep
    cases allowed with
    | true =>
      obtain ⟨_, hwrite, hstep⟩ := Option.bind_eq_some_iff.1 hstep
      cases hstep
      refine ⟨Row.moved_write hwrite, ?_, fun _ => by rw [Row.write_eq hwrite]⟩
      rw [Row.write_eq hwrite]
      refine ⟨hadjust, rfl, fun hsome => ?_⟩
      rcases h with ⟨rfl, -⟩ | ⟨-, rfl⟩
      · cases hsome
      · rfl
    | false =>
      cases hstep
      refine ⟨.refl i row, fun document => ?_, fun _ => rfl⟩
      rcases h with ⟨-, hfree⟩ | ⟨-, rfl⟩
      · exact hfree (some document)
      · simp
  | closing _ _ _ allowed =>
    cases hstep
    refine ⟨Row.moved_commit row i, Row.free_commit row i, fun hadds => ?_⟩
    cases allowed with
    | true => cases hadds
    | false => rw [Row.commit_committed, Row.visible_of_unwritten h]
  | returned | rolledBack => cases hstep

theorem owner_moved (hs : Inv plan s) (hi : i < s.calls.length) (hmoved : Row.Moved i s.row row')
    (k : Nat) (w : Option UsageDocument) (h : row'.lock = some (k, w)) : k < s.calls.length := by
  by_cases hk : k = i
  · exact hk ▸ hi
  · exact hs.owner k w (hmoved.own k w hk h)

theorem inv_set (hs : Inv plan s) (hi : i < s.calls.length) (hmoved : Row.Moved i s.row row')
    (hok : call'.Ok plan row' i) (allowed : List Increment) :
    Inv plan ⟨row', s.calls.set i call', allowed⟩ where
  calls k call hk := by
    rcases Parties.getElem?_set_cases hk with ⟨rfl, rfl⟩ | ⟨hik, hk⟩
    · exact hok
    · exact (hs.calls k call hk).moved hmoved hik
  owner k w h := by
    rw [List.length_set]
    exact owner_moved hs hi hmoved k w h

theorem inv_step (hs : Inv plan s) {act : Act} (h : Postgres.step plan s act = some s') :
    Inv plan s' := by
  cases act with
  | start =>
    cases h
    refine ⟨fun i call hi => ?_, fun i w hw => ?_⟩
    · rcases Parties.getElem?_append_cases hi with ⟨rfl, rfl⟩ | hi
      · exact fun w hw => lt_irrefl _ (hs.owner _ w hw)
      · exact hs.calls i call hi
    · exact (hs.owner i w hw).trans (by simp)
  | advance i =>
    obtain ⟨call, hcall, h⟩ := Option.bind_eq_some_iff.1 h
    obtain ⟨⟨_, _⟩, hstep, h⟩ := Option.bind_eq_some_iff.1 h
    cases h
    obtain ⟨hmoved, hok, -⟩ := stepCall_ok (hs.calls i call hcall) hstep
    exact inv_set hs (List.getElem?_eq_some_iff.1 hcall).1 hmoved hok _
  | abort i =>
    obtain ⟨_, hcall, h⟩ := Option.bind_eq_some_iff.1 h
    obtain ⟨-, h⟩ := Option.ite_none_right_eq_some.1 h
    cases h
    have hok : Call.rolledBack.Ok plan (s.row.abort i) i := Row.free_abort s.row i
    exact inv_set hs (List.getElem?_eq_some_iff.1 hcall).1 (Row.moved_abort s.row i) hok _

theorem committed_of_denied (hs : Inv plan s) {act : Act} (h : Postgres.step plan s act = some s')
    (hdenied : s'.allowed = s.allowed) : s'.row.committed = s.row.committed := by
  cases act with
  | start => cases h; rfl
  | advance i =>
    obtain ⟨call, hcall, h⟩ := Option.bind_eq_some_iff.1 h
    obtain ⟨⟨_, _⟩, hstep, h⟩ := Option.bind_eq_some_iff.1 h
    cases h
    exact (stepCall_ok (hs.calls i call hcall) hstep).2.2 (List.append_right_eq_self.1 hdenied)
  | abort i =>
    obtain ⟨_, _, h⟩ := Option.bind_eq_some_iff.1 h
    obtain ⟨-, h⟩ := Option.ite_none_right_eq_some.1 h
    cases h
    exact Row.abort_committed s.row i

/-! ## Sighted runs -/

/-- The increment goes on from the record, although it was not found: there is none, or its window
is over, or it begins right then with nothing used. -/
def Untouched (plan : Plan) (record : Option UsageDocument) (now : ℚ) : Prop :=
  ∀ document ∈ record, document.windowStartedAt + plan.windowSeconds ≤ now ∨
    (document.windowStartedAt = now ∧ document.used = 0)

theorem untouched_iff (now : ℚ) :
    Untouched plan record now ↔ plan.carried none now = plan.carried record now := by
  cases record with
  | none => simp [Untouched, Plan.carried]
  | some document =>
    simp only [Untouched, Option.mem_some_iff, forall_eq', Plan.carried]
    by_cases hopen : now < document.windowStartedAt + plan.windowSeconds
    · rw [if_pos hopen, Prod.mk.injEq, or_iff_right (not_le.2 hopen), eq_comm (b := now),
        eq_comm (b := document.used)]
    · rw [if_neg hopen]
      exact iff_of_true (.inl (not_lt.1 hopen)) rfl

/-- A transaction that found no record writes over none that is still in use. -/
def Sighted (plan : Plan) (s : Postgres) : Act → Prop
  | .advance i => ∀ call ∈ s.calls[i]?, match call with
    | .closing increment none _ true => Untouched plan s.row.committed increment.now
    | _ => True
  | .start _ | .abort _ => True

theorem counted_step (hs : Inv plan s) (hcounted : Counted plan s.row.committed s.allowed)
    {act : Act} (h : Postgres.step plan s act = some s') :
    Counted plan s'.row.committed s'.allowed ↔ Sighted plan s act := by
  cases act with
  | start => cases h; exact iff_of_true hcounted trivial
  | abort i =>
    obtain ⟨_, _, h⟩ := Option.bind_eq_some_iff.1 h
    obtain ⟨-, h⟩ := Option.ite_none_right_eq_some.1 h
    cases h
    rw [Row.abort_committed]
    exact iff_of_true hcounted trivial
  | advance i =>
    obtain ⟨call, hcall, h⟩ := Option.bind_eq_some_iff.1 h
    obtain ⟨⟨row, _⟩, hstep, h⟩ := Option.bind_eq_some_iff.1 h
    cases h
    have hok := hs.calls i call hcall
    have hsighted : Sighted plan s (.advance i) ↔ ∀ increment document,
        call = .closing increment none document true →
          Untouched plan s.row.committed increment.now := by
      show (∀ call ∈ s.calls[i]?, _) ↔ _
      rw [hcall]
      simp only [Option.mem_some_iff, forall_eq']
      constructor
      · rintro h _ _ rfl
        exact h
      · intro h
        split
        · exact h _ _ rfl
        · trivial
    rw [hsighted]
    by_cases hadds : call.adds = []
    · have hkeep := (stepCall_ok hok hstep).2.2 hadds
      rw [hadds, List.append_nil, hkeep]
      refine iff_of_true hcounted ?_
      rintro _ _ rfl
      cases hadds
    · cases call with
      | closing _ found _ allowed =>
        cases allowed with
        | true =>
          obtain ⟨hadjust, hlock, hfound⟩ := hok
          cases hstep
          rw [Row.commit_committed, Row.visible_of_written hlock]
          refine (counted_append hcounted hadjust).trans ?_
          cases found with
          | none =>
            rw [← untouched_iff]
            simp
          | some => simp [hfound rfl]
        | false => exact absurd rfl hadds
      | _ => exact absurd rfl hadds

theorem sighted_of_stuck {act : Act} (h : Postgres.step plan s act = none) :
    Sighted plan s act := by
  cases act with
  | advance i =>
    intro _ hcall
    split
    · rw [Postgres.step, show s.calls[i]? = some _ from hcall] at h
      cases h
    · trivial
  | _ => trivial

/-- **Quotas.** From a record that is within the limit, the memory store counts in every run of
calls, and `PostgresControlPlaneStore` counts all along a run exactly when the run is sighted; what
is denied changes nothing in either. -/
theorem quota_iff (plan : Plan) (initial : Initial plan) :
    (∀ increments, ∀ s ∈ states (Memory.step plan) (.start initial) increments,
      Counted plan s.record s.allowed ∧
      ∀ increment, (s.adjustQuotaUsage plan increment).2.2 = false →
        (s.adjustQuotaUsage plan increment).1 = s) ∧
    ∀ acts, (∀ s ∈ states (Postgres.step plan) (.start initial) acts,
      Counted plan s.row.committed s.allowed ∧ ∀ act s', Postgres.step plan s act = some s' →
        s'.allowed = s.allowed → s'.row.committed = s.row.committed) ↔
      Along (Postgres.step plan) (Sighted plan) (.start initial) acts := by
  refine ⟨fun increments s hs => ⟨?_, fun _ => Memory.adjustQuotaUsage_denied⟩, fun acts => ?_⟩
  · exact invariant_states (P := fun _ _ => True) (I := fun s => Counted plan s.record s.allowed)
      (fun _ _ _ h _ hstep => Memory.counted_step h hstep) (counted_start initial)
      (along_of_forall (fun _ _ => trivial) _ increments) s hs
  · have hinv : ∀ s ∈ states (Postgres.step plan) (.start initial) acts, Inv plan s :=
      invariant_states (P := fun _ _ => True) (fun _ _ _ hs _ h => inv_step hs h)
        (inv_start initial) (along_of_forall (fun _ _ => trivial) _ acts)
    have hiff : (∀ s ∈ states (Postgres.step plan) (.start initial) acts,
        Inv plan s ∧ Counted plan s.row.committed s.allowed) ↔
        Along (Postgres.step plan) (Sighted plan) (.start initial) acts :=
      states_iff (I := fun s => Inv plan s ∧ Counted plan s.row.committed s.allowed)
        (fun _ _ => sighted_of_stuck)
        (fun _ _ _ hs h => (and_iff_right (inv_step hs.1 h)).trans (counted_step hs.1 hs.2 h))
        ⟨inv_start initial, counted_start initial⟩
    rw [← hiff]
    exact ⟨fun h s hs => ⟨hinv s hs, (h s hs).1⟩,
      fun h s hs => ⟨(h s hs).2, fun _ _ => committed_of_denied (h s hs).1⟩⟩

/-- A limit of one in a window of a minute. -/
def onePerMinute : Plan := ⟨some 1, 60⟩

/-- A quota without a record. -/
def noRecord : Initial onePerMinute := ⟨none, nofun⟩

/-- Two first calls, one unit each. -/
def firstCalls : List Act :=
  [.start ⟨0, 1⟩, .start ⟨1, 1⟩, .advance 0, .advance 1, .advance 0, .advance 0, .advance 1,
   .advance 1]

/-- **Both are allowed**, though one unit is the limit. -/
theorem limit_overshot :
    ¬∀ s ∈ states (Postgres.step onePerMinute) (.start noRecord) firstCalls,
      Counted onePerMinute s.row.committed s.allowed ∧
        ∀ act s', Postgres.step onePerMinute s act = some s' →
          s'.allowed = s.allowed → s'.row.committed = s.row.committed := by
  intro h
  obtain ⟨s, hexec, hallowed⟩ := Option.map_eq_some_iff.1
    (show (exec (Postgres.step onePerMinute) (.start noRecord) firstCalls).map
      Postgres.allowed = some [⟨0, 1⟩, ⟨1, 1⟩] by decide +kernel)
  have hwithin : (onePerMinute.windows s.allowed).all fun w => onePerMinute.allows (total w) :=
    List.all_eq_true.2 (h s (mem_states_of_exec hexec)).1.within
  rw [hallowed] at hwithin
  exact absurd hwithin (by decide +kernel)

end Scenara.ControlPlane.Quota
