import Scenara.Core.Transition
import Scenara.Queue.Model

/-!
# At least once, and a lost lease is noticed

`Inv`: the ids of the lane are in order, what was acknowledged is not pending, and a consumer that
is about to acknowledge an entry has handled it. Every step keeps it (`Inv.step`).
-/

namespace Scenara.Queue

open Scenara.Core

variable {laneName : String} {visibility : Nat} {x y : State} {i : Nat} {c : Consumer}
  {phase : Phase} {entry : Entry RunFields} {lease : Lease} {id : Nat} {act : Act} {choice : Choice}

/-! ## What every step keeps -/

/-- What every step keeps. -/
structure Inv (x : State) : Prop where
  lane : x.lane.Ok
  settled : Lane.Settled x.done x.lane
  acking : Parties.Each (fun i c => ∀ id, c.phase = .acking id → (i, id) ∈ x.returned) x.consumers

theorem Inv.put (h : Inv x) (hphase : ∀ id, phase ≠ .acking id) : Inv (x.put i c phase) where
  lane := h.lane
  settled := h.settled
  acking := h.acking.put (fun id heq => absurd heq (hphase id))

theorem Inv.withLane (h : Inv x) {lane : Lane RunFields} (hok : lane.Ok)
    (hsettled : Lane.Settled x.done lane) : Inv { x with lane } :=
  ⟨hok, hsettled, h.acking⟩

theorem Inv.delivered (h : Inv x) {result : Lane RunFields × Option (Entry RunFields)}
    (hok : result.1.Ok) (hsettled : Lane.Settled x.done result.1)
    (hphase : ∀ id, phase ≠ .acking id) :
    Inv (x.delivered i c phase result) := by
  obtain ⟨_, _ | _⟩ := result
  · exact (h.put hphase).withLane hok hsettled
  · exact ⟨hok, hsettled, h.acking.put nofun⟩

theorem Inv.claimed (h : Inv x) : Inv (x.delivered i c .reading
    (x.lane.xautoclaim c.name (max 1 visibility) x.now)) := by
  refine h.delivered ?_ ?_ fun id => by simp
  · rcases x.lane.xautoclaim_cases c.name (max 1 visibility) x.now with
      ⟨e, -, -, heq⟩ | ⟨id, -, -, heq⟩ | heq <;> rw [heq]
    · exact h.lane.hold _ _ _
    · exact h.lane.forget _
    · exact h.lane
  · rcases x.lane.xautoclaim_cases c.name (max 1 visibility) x.now with
      ⟨e, -, -, heq⟩ | ⟨id, -, -, heq⟩ | heq <;> rw [heq]
    · exact h.settled.hold _ _ _
    · exact h.settled.forget _
    · exact h.settled

theorem renewed_cases (x : State) (c : Consumer) (entry : Entry RunFields) :
    (x.lane.isPending entry.id = true ∧ (∃ e, x.lane.stored entry.id = some e) ∧
      x.lane.xclaim c.name x.now entry.id = (x.lane.hold c.name x.now entry.id, true)) ∨
    (x.lane.isPending entry.id = true ∧ x.lane.stored entry.id = none ∧
      x.lane.xclaim c.name x.now entry.id = (x.lane.forget entry.id, false)) ∨
    x.lane.isPending entry.id = false ∧ x.lane.xclaim c.name x.now entry.id = (x.lane, false) := by
  cases hpending : x.lane.isPending entry.id with
  | false => exact .inr (.inr ⟨rfl, by simp [Lane.xclaim, hpending]⟩)
  | true =>
    cases hstored : x.lane.stored entry.id with
    | none => exact .inr (.inl ⟨rfl, rfl, by simp [Lane.xclaim, hpending, hstored]⟩)
    | some e => exact .inl ⟨rfl, ⟨e, rfl⟩, by simp [Lane.xclaim, hpending, hstored]⟩

theorem Inv.renewed (h : Inv x) : Inv (x.renewed i c entry) := by
  have hlane : (x.renewed i c entry).lane.Ok ∧ Lane.Settled x.done (x.renewed i c entry).lane := by
    rcases renewed_cases x c entry with ⟨-, -, heq⟩ | ⟨-, -, heq⟩ | ⟨-, heq⟩ <;>
      rw [State.renewed, heq]
    · exact ⟨h.lane.hold _ _ _, h.settled.hold _ _ _⟩
    · exact ⟨h.lane.forget _, h.settled.forget _⟩
    · exact ⟨h.lane, h.settled⟩
  exact ⟨hlane.1, hlane.2, h.acking.put nofun⟩

theorem Inv.acknowledged (h : Inv x) : Inv (x.acknowledged i c id) := by
  refine ⟨h.lane.forget id, ?_, h.acking.put nofun⟩
  cases hpending : x.lane.isPending id with
  | false => simpa [State.done, State.acknowledged, Lane.xack, hpending] using h.settled.forget id
  | true =>
    have hsettled := h.settled.xack h.lane hpending
    simpa [State.done, State.acknowledged, Lane.xack, hpending] using hsettled

theorem Inv.handled (h : Inv x) : Inv (x.handled i c entry lease) := by
  refine ⟨h.lane, h.settled, h.acking.set (fun id heq => ?_) fun _ _ _ _ hq id heq =>
    List.mem_append_left _ (hq id heq)⟩
  split at heq <;> cases heq
  exact List.mem_append_right _ (List.mem_singleton.2 rfl)

theorem Inv.stepConsumer (h : Inv x) (hs : stepConsumer (max 1 visibility) x i c choice = some y) :
    Inv y := by
  unfold Queue.stepConsumer at hs
  split at hs
  · cases hs
    exact h.claimed
  · cases hs
    exact h.delivered (h.lane.xreadgroup _ _) (h.settled.xreadgroup _ _) fun id => by simp
  · cases hs
    exact h.acknowledged
  · split at hs <;> cases hs
    exact h.renewed
  · cases hs
    exact h.put fun id => by simp
  · cases hs
    exact h.put fun id => by simp
  · cases hs
    exact h.handled
  · cases hs
    exact h.put fun id => by simp
  · cases hs
    exact h.put fun id => by simp
  · cases hs

theorem Inv.step (h : Inv x) (hs : step laneName visibility x act = some y) : Inv y := by
  cases act with
  | enqueue =>
    simp only [Queue.step] at hs
    split at hs
    · cases hs
      exact h
    · split at hs <;> cases hs
      exact h.withLane (h.lane.xadd _ _) h.settled
  | tick => cases hs; exact ⟨h.lane, h.settled, h.acking⟩
  | start =>
    cases hs
    exact ⟨h.lane, h.settled, h.acking.append nofun⟩
  | consumer i =>
    obtain ⟨c, -, hs⟩ := Option.bind_eq_some_iff.1 hs
    exact h.stepConsumer hs

theorem Inv.init : Inv init :=
  ⟨Lane.Ok.empty, fun _ hid => (List.not_mem_nil hid).elim, Parties.Each.nil⟩

/-- **What is acknowledged is never delivered again.** -/
theorem acknowledged_settled (laneName : String) (visibility : Nat) (acts : List Act) :
    ∀ x ∈ states (step laneName visibility) init acts, Lane.Settled x.done x.lane := fun x hx =>
  (invariant_all (fun _ _ _ h => h.step) acts Inv.init x hx).settled

theorem acknowledged_once : ∃ x, exec (step "batch" 60000) init
    [.enqueue ⟨"acme", "main", "run-1", 0, none⟩ 0, .start "a", .consumer 0 .call,
      .consumer 0 .call,
      .consumer 0 .returns, .consumer 0 .call] = some x ∧ Lane.Settled x.done x.lane :=
  (Option.isSome_iff_exists.1 (by decide +kernel)).imp fun x h =>
    ⟨h, acknowledged_settled _ _ _ x (mem_states_of_exec h)⟩

/-! ## The promise, step by step -/

theorem Good.init : Good init where
  acked _ ha := (List.not_mem_nil ha).elim
  kept := Lane.Kept.empty
  noticed _ hr := (List.not_mem_nil hr).elim

theorem Good.put (h : Good x) : Good (x.put i c phase) := ⟨h.acked, h.kept, h.noticed⟩

theorem Good.handled (h : Good x) : Good (x.handled i c entry lease) where
  acked a ha := ⟨List.mem_append_left _ (h.acked a ha).1, (h.acked a ha).2⟩
  kept := h.kept
  noticed := h.noticed

theorem Good.delivered (h : Good x) {result : Lane RunFields × Option (Entry RunFields)}
    (hkept : Lane.Kept x.done result.1) : Good (x.delivered i c phase result) := by
  obtain ⟨_, _ | _⟩ := result <;> exact ⟨h.acked, hkept, h.noticed⟩

theorem Good.claimed (h : Good x) (hinv : Inv x) : Good (x.delivered i c .reading
    (x.lane.xautoclaim c.name (max 1 visibility) x.now)) := by
  refine h.delivered ?_
  rcases x.lane.xautoclaim_cases c.name (max 1 visibility) x.now with
    ⟨e, -, -, heq⟩ | ⟨id, hpending, hnone, -⟩ | heq
  · rw [heq]
    exact h.kept.hold _ _ _
  · obtain ⟨e, hstored⟩ := h.kept.stored_of_pending hinv.lane hinv.settled hpending
    simp [hnone] at hstored
  · rw [heq]
    exact h.kept

/-- **A renewal** is refused only when the entry is not pending any more. -/
theorem good_renewed_iff (h : Good x) (hinv : Inv x) : Good (x.renewed i c entry) ↔
    (x.lane.isPending entry.id = true → x.holder entry.id = i) := by
  rcases renewed_cases x c entry with ⟨hpending, -, heq⟩ | ⟨hpending, hnone, -⟩ | ⟨hpending, heq⟩
  · simp only [State.renewed, heq, hpending, true_implies]
    constructor
    · intro hgood
      have hnoticed := hgood.noticed ⟨entry.id, i, x.takenOver i entry.id, true⟩ (by simp)
      by_contra hother
      have htaken : x.takenOver i entry.id = true := decide_eq_true hother
      exact absurd (hnoticed htaken) (by simp)
    · intro hholder
      refine ⟨h.acked, h.kept.hold _ _ _, fun r hr htaken => ?_⟩
      rcases Parties.mem_snoc.1 hr with hr | rfl
      · exact h.noticed r hr htaken
      · exact absurd hholder (of_decide_eq_true htaken)
  · obtain ⟨e, hstored⟩ := h.kept.stored_of_pending hinv.lane hinv.settled hpending
    simp [hnone] at hstored
  · simp only [State.renewed, heq, hpending, Bool.false_eq_true, false_implies, iff_true]
    refine ⟨h.acked, h.kept, fun r hr htaken => ?_⟩
    rcases List.mem_append.1 hr with hr | hr
    · exact h.noticed r hr htaken
    · rw [List.mem_singleton.1 hr]

/-- **An acknowledgement** is of whoever the entry was last delivered to. -/
theorem good_acknowledged_iff (h : Good x) (hreturned : (i, id) ∈ x.returned) :
    Good (x.acknowledged i c id) ↔ (x.lane.isPending id = true → x.holder id = i) := by
  cases hpending : x.lane.isPending id with
  | false =>
    simp only [Bool.false_eq_true, false_implies, iff_true]
    have hlane : x.lane.forget id = x.lane := Lane.forget_of_not_pending hpending
    simp only [State.acknowledged, Lane.xack, hpending, Bool.false_eq_true, if_false, hlane]
    exact ⟨h.acked, h.kept, h.noticed⟩
  | true =>
    simp only [State.acknowledged, Lane.xack, hpending, if_true, true_implies]
    constructor
    · intro hgood
      have hacked := hgood.acked ⟨id, i, x.takenOver i id⟩ (by simp)
      by_contra hother
      have htaken : x.takenOver i id = true := decide_eq_true hother
      exact absurd hacked.2 (by simp [htaken])
    · intro hholder
      refine ⟨fun a ha => ?_, ?_, h.noticed⟩
      · rcases Parties.mem_snoc.1 ha with ha | rfl
        · exact h.acked a ha
        · exact ⟨hreturned, by simp [State.takenOver, hholder]⟩
      · have hdone : Lane.Kept (x.done ++ [id]) (x.lane.forget id) :=
          (h.kept.mono fun a ha => List.mem_append_left _ ha).forget
            (List.mem_append_right _ (List.mem_singleton.2 rfl))
        simpa [State.done] using hdone

theorem good_enqueue_iff (h : Good x) (hinv : Inv x) (fields : RunFields) (trimmed : Nat) :
    Good { x with lane := x.lane.xadd fields trimmed } ↔
      ∀ e ∈ (x.lane.appended fields).take trimmed, e.id ∈ x.done := by
  rw [← Lane.kept_xadd_iff h.kept hinv.lane trimmed]
  exact ⟨fun hgood => hgood.kept, fun hkept => ⟨h.acked, hkept, h.noticed⟩⟩

theorem lawful_call (hc : x.consumers[i]? = some c) (hphase : ∀ id, c.phase ≠ .acking id) :
    Lawful laneName visibility x (.consumer i .call) := by
  intro d id hd heq
  rw [hc] at hd
  cases hd
  exact absurd heq (hphase id)

theorem lawful_acking (hc : x.consumers[i]? = some c) (hphase : c.phase = .acking id) :
    Lawful laneName visibility x (.consumer i .call) ↔
      (x.lane.isPending id = true → x.holder id = i) := by
  refine ⟨fun hlawful => hlawful c id hc hphase, fun hholder d other hd heq => ?_⟩
  rw [hc] at hd
  cases hd
  rw [hphase] at heq
  cases heq
  exact hholder

theorem lawful_renew {since : Nat} (hc : x.consumers[i]? = some c)
    (hphase : c.phase = .handling entry (.sleeping since))
    (hdue : renewalDue (max 1 visibility) since x.now = true) :
    Lawful laneName visibility x (.consumer i .renew) ↔
      (x.lane.isPending entry.id = true → x.holder entry.id = i) := by
  refine ⟨fun hlawful => hlawful c entry since hc hphase hdue, fun hholder d other t hd heq _ => ?_⟩
  rw [hc] at hd
  cases hd
  rw [hphase] at heq
  cases heq
  exact hholder

theorem good_stepConsumer_iff (h : Good x) (hinv : Inv x) (hc : x.consumers[i]? = some c)
    (hs : stepConsumer (max 1 visibility) x i c choice = some y) :
    Good y ↔ Lawful laneName visibility x (.consumer i choice) := by
  unfold Queue.stepConsumer at hs
  split at hs
  · rename_i hphase
    cases hs
    exact iff_of_true (h.claimed hinv) (lawful_call hc fun id => by simp [hphase])
  · rename_i hphase
    cases hs
    exact iff_of_true (h.delivered (h.kept.xreadgroup hinv.lane _ _))
      (lawful_call hc fun id => by simp [hphase])
  · rename_i id hphase
    cases hs
    rw [lawful_acking hc hphase]
    exact good_acknowledged_iff h (hinv.acking i c hc id hphase)
  · rename_i entry since hphase
    split at hs <;> cases hs
    rw [lawful_renew hc hphase ‹_›]
    exact good_renewed_iff h hinv
  · cases hs
    exact iff_of_true h.put trivial
  · cases hs
    exact iff_of_true h.put trivial
  · cases hs
    exact iff_of_true h.handled trivial
  · cases hs
    exact iff_of_true h.put trivial
  · cases hs
    exact iff_of_true h.put trivial
  · cases hs

theorem good_step_iff (h : Good x) (hinv : Inv x) (hs : step laneName visibility x act = some y) :
    Good y ↔ Lawful laneName visibility x act := by
  cases act with
  | enqueue =>
    simp only [Queue.step] at hs
    split at hs
    · rename_i hother
      cases hs
      exact iff_of_true h fun hlane => absurd hlane hother
    · rename_i hlane
      split at hs <;> cases hs
      rename_i htrims
      rw [good_enqueue_iff h hinv]
      exact ⟨fun hdone _ _ => hdone, fun hlawful => hlawful (not_not.1 hlane) htrims⟩
  | tick | start => cases hs; exact iff_of_true ⟨h.acked, h.kept, h.noticed⟩ trivial
  | consumer i =>
    obtain ⟨c, hc, hs⟩ := Option.bind_eq_some_iff.1 hs
    exact good_stepConsumer_iff h hinv hc hs

theorem lawful_of_stuck (hs : step laneName visibility x act = none) :
    Lawful laneName visibility x act := by
  cases act with
  | enqueue =>
    intro hlane htrims
    simp only [Queue.step, hlane, not_true_eq_false, htrims, ne_eq, if_true, if_false] at hs
    cases hs
  | tick | start => trivial
  | consumer i choice =>
    cases choice with
    | call =>
      intro c _ hc hphase
      simp only [Queue.step, hc, Option.bind_some, Queue.stepConsumer, hphase] at hs
      cases hs
    | renew =>
      intro c _ _ hc hphase hdue
      simp only [Queue.step, hc, Option.bind_some, Queue.stepConsumer, hphase, hdue, if_true] at hs
      cases hs
    | _ => trivial

/-- **At least once, and a lost lease is noticed**, exactly when no trim removes an entry that was
not acknowledged and no renewal or acknowledgement is executed while another consumer has the
entry. -/
theorem good_iff (laneName : String) (visibility : Nat) (acts : List Act) :
    (∀ x ∈ states (step laneName visibility) init acts, Good x) ↔
      Along (step laneName visibility) (Lawful laneName visibility) init acts := by
  have hinv : ∀ x ∈ states (step laneName visibility) init acts, Inv x :=
    invariant_states (P := fun _ _ => True) (fun _ _ _ h _ hs => h.step hs) Inv.init
      (along_of_forall (fun _ _ => trivial) _ _)
  have hboth : (∀ x ∈ states (step laneName visibility) init acts, Inv x ∧ Good x) ↔
      Along (step laneName visibility) (Lawful laneName visibility) init acts :=
    states_iff (I := fun x => Inv x ∧ Good x) (fun _ _ hs => lawful_of_stuck hs)
      (fun _ _ _ h hs => (and_iff_right (h.1.step hs)).trans (good_step_iff h.2 h.1 hs))
      ⟨Inv.init, Good.init⟩
  exact ⟨fun hgood => hboth.1 fun x hx => ⟨hinv x hx, hgood x hx⟩,
    fun hlawful x hx => (hboth.2 hlawful x hx).2⟩

/-- Worker `a` reads an entry and stalls for the visibility timeout; `b` takes the entry over; `a`
wakes up, its `XCLAIM` returns the id, its handler returns, and it acknowledges the entry. -/
theorem renewed_after_takeover :
    let acts : List Act :=
      [.enqueue ⟨"acme", "main", "run-1", 0, none⟩ 0, .start "a", .consumer 0 .call,
        .consumer 0 .call,
        .tick 60000, .start "b", .consumer 1 .call, .consumer 0 .renew, .consumer 0 .reply,
        .consumer 0 .returns, .consumer 0 .call]
    ∃ x ∈ states (step "batch" 60000) init acts,
      (∃ r ∈ x.renewals, r.takenOver = true ∧ r.renewed = true) ∧
        (∃ a ∈ x.acks, a.takenOver = true) ∧ ¬Good x := by
  intro acts
  have h : (exec (step "batch" 60000) init acts).any (fun x =>
      (decide (∃ r ∈ x.renewals, r.takenOver = true ∧ r.renewed = true) &&
        decide (∃ a ∈ x.acks, a.takenOver = true))) = true := by
    decide +kernel
  obtain ⟨x, hx, hdone⟩ := (Option.any_eq_true _ _).1 h
  simp only [Bool.and_eq_true, decide_eq_true_eq] at hdone
  obtain ⟨a, ha, htaken⟩ := hdone.2
  refine ⟨x, mem_states_of_exec hx, hdone.1, hdone.2, fun hgood => ?_⟩
  simp [(hgood.acked a ha).2] at htaken

end Scenara.Queue
