import Scenara.Session.Segment

/-!
# Cancelling a stream session

* `Lawful`: a cancel call that finds its run terminal finds the session closed; once a call has
  passed, no worker saves `COMPLETED` before a rollover; and no worker abandons a run at a conflict.
-/

namespace Scenara.Session

open Scenara.Core
open Run (Worker Client)

variable {pausable : Bool} {segments segments' : List Run.System} {segment segment' : Run.System}
  {creating : Bool} {cancels : List Cancel} {s s' : State} {act : Act} {i : Nat} {now : ℚ}

/-! ## The condition -/

/-- The session will end with the runs that it has. -/
def Closed (segments : List Run.System) : Prop :=
  (∀ segment ∈ segments, halting segment.store.run.status = true) ∧
    ∀ segment ∈ segments.getLast?, ∀ w ∈ segment.workers, rolls w = false
  deriving Decidable

/-- The call will return, if it does, without looking for another run. -/
def Cancel.passed (segments : List Run.System) : Cancel → Bool
  | .relisting | .returned => true
  | .transitioning i j =>
    (segments[i]?).any fun segment => (segment.clients[j]?).any cancelled
  | _ => false

/-- A cancellation has seen every segment. -/
def Passed (segments : List Run.System) (cancels : List Cancel) : Prop :=
  ∃ c ∈ cancels, c.passed segments = true
  deriving Decidable

/-- The steps after which a session that is cancelled stays so. -/
def Lawful (s : State) : Act → Prop
  | .segment i act => ∀ segment ∈ s.segments[i]?, abandons segment act = false ∧
      (Passed s.segments s.cancels → completes segment act = false)
  | .cancel k => ∀ c ∈ s.cancels[k]?, ∀ i, c = .getting i → ∀ segment ∈ s.segments[i]?,
      segment.store.run.status.terminal = true → Closed s.segments
  | _ => True

instance : ∀ (s : State) (act : Act), Decidable (Lawful s act)
  | s, .segment i act => inferInstanceAs (Decidable (∀ _ ∈ _, _ ∧ _))
  | s, .cancel k =>
    match hc : s.cancels[k]? with
    | some (.getting i) =>
      decidable_of_iff (∀ segment ∈ s.segments[i]?,
          segment.store.run.status.terminal = true → Closed s.segments) <| by
        simp [Lawful, hc]
    | none => isTrue (by simp [Lawful, hc])
    | some .listing | some (.transitioning ..) | some .relisting | some .returned | some .raised =>
      isTrue (by simp [Lawful, hc])
  | _, .insert .. | _, .launch .. | _, .request => isTrue trivial

/-! ## The segments -/

/-- The run as `create_run` stored it, before `FAILED` is saved. -/
def Launch.stored : Launch → Option Run.RunRecord
  | .settling stored | .announcing stored | .enqueueing stored | .failing stored => some stored
  | .telling _ => none

/-- The run that is being created: nobody works on it, and it is as it was stored, or terminal. -/
structure Launched (launch : Launch) (segment : Run.System) : Prop where
  workers : segment.workers = []
  run : launch.stored = some segment.store.run ∧ segment.store.run.status = .queued ∨
    segment.store.run.status.terminal = true

/-- What holds of the segments. Nobody works on the last one while it is created. -/
structure Sound (pausable : Bool) (segments : List Run.System) (creating : Bool) : Prop where
  held : ∀ segment ∈ segments, Held pausable segment
  past : ∀ i segment, segments[i]? = some segment → i + 1 < segments.length →
    segment.store.run.status.terminal = true
  staffed : ∀ i segment, segments[i]? = some segment → segment.workers ≠ [] ∨
    segment.store.run.status.terminal = true ∨ i + 1 = segments.length ∧ creating = true

theorem Sound.set (h : Sound pausable segments creating) (hi : segments[i]? = some segment)
    (hm : Moved pausable segment segment') : Sound pausable (segments.set i segment') creating where
  held other hother := by
    rcases List.mem_or_eq_of_mem_set hother with hother | rfl
    · exact h.held other hother
    · exact hm.held
  past j other hj hlt := by
    rw [List.length_set] at hlt
    rcases Parties.getElem?_set_cases hj with ⟨rfl, rfl⟩ | ⟨-, hj⟩
    · exact hm.terminal (h.past j segment hi hlt)
    · exact h.past j other hj hlt
  staffed j other hj := by
    rw [List.length_set]
    rcases Parties.getElem?_set_cases hj with ⟨rfl, rfl⟩ | ⟨-, hj⟩
    · exact (h.staffed j segment hi).imp hm.staffed (Or.imp_left hm.terminal)
    · exact h.staffed j other hj

theorem Sound.created (h : Sound pausable segments creating)
    (hlast : ∀ segment, segments[segments.length - 1]? = some segment →
      segment.workers ≠ [] ∨ segment.store.run.status.terminal = true) :
    Sound pausable segments false where
  held := h.held
  past := h.past
  staffed i segment hi := by
    rcases h.staffed i segment hi with hworkers | hterminal | ⟨_, -⟩
    · exact .inl hworkers
    · exact .inr (.inl hterminal)
    · have hi' : segments.length - 1 = i := by omega
      exact (hlast segment (hi' ▸ hi)).imp_right .inl

theorem Sound.dropLast (h : Sound pausable segments creating) :
    Sound pausable segments.dropLast false where
  held segment hsegment := h.held segment (List.dropLast_subset _ hsegment)
  past i segment hi hlt := by
    rw [List.length_dropLast] at hlt
    rw [List.getElem?_dropLast, if_pos (by omega)] at hi
    exact h.past i segment hi (by omega)
  staffed i segment hi := by
    have hlt := (List.getElem?_eq_some_iff.1 hi).1
    rw [List.length_dropLast] at hlt
    rw [List.getElem?_dropLast, if_pos hlt] at hi
    rcases h.staffed i segment hi with hworkers | hterminal | ⟨_, -⟩
    · exact .inl hworkers
    · exact .inr (.inl hterminal)
    · omega

theorem Closed.set (h : Closed segments) (hi : segments[i]? = some segment)
    (hm : Moved pausable segment segment')
    (hrolls : i + 1 = segments.length → ∀ w ∈ segment'.workers, rolls w = false) :
    Closed (segments.set i segment') := by
  refine ⟨fun other hother => ?_, fun other hother => ?_⟩
  · rcases List.mem_or_eq_of_mem_set hother with hother | rfl
    · exact h.1 other hother
    · exact hm.stopping (h.1 segment (List.mem_of_getElem? hi))
  · rw [Option.mem_def, List.getLast?_eq_getElem?, List.length_set] at hother
    have hlt := (List.getElem?_eq_some_iff.1 hi).1
    rcases Parties.getElem?_set_cases hother with ⟨_, rfl⟩ | ⟨-, _⟩
    · exact hrolls (by omega)
    · exact h.2 other (by rwa [Option.mem_def, List.getLast?_eq_getElem?])

theorem Passed.back (h : Passed segments' cancels)
    (hback : ∀ i j, (Cancel.transitioning i j).passed segments' = true →
      (Cancel.transitioning i j).passed segments = true) : Passed segments cancels := by
  obtain ⟨c, hc, hpassed⟩ := h
  refine ⟨c, hc, ?_⟩
  cases c with
  | transitioning i j => exact hback i j hpassed
  | relisting | returned => rfl
  | listing | getting | raised => cases hpassed

theorem passed_set (hi : segments[i]? = some segment)
    (hclients : ∀ (j : Nat) c', segment'.clients[j]? = some c' → cancelled c' = true →
      ∃ c, segment.clients[j]? = some c ∧ cancelled c = true)
    (h : Passed (segments.set i segment') cancels) : Passed segments cancels := by
  refine h.back fun k j hpassed => ?_
  simp only [Cancel.passed] at hpassed ⊢
  by_cases hik : i = k
  · subst hik
    rw [List.getElem?_set_self (List.getElem?_eq_some_iff.1 hi).1] at hpassed
    change (segment'.clients[j]?).any cancelled = true at hpassed
    obtain ⟨c', hc', hcancelled⟩ := (Option.any_eq_true _ _).1 hpassed
    obtain ⟨c, hc, hcancelled⟩ := hclients j c' hc' hcancelled
    rw [hi]
    show (segment.clients[j]?).any cancelled = true
    exact (Option.any_eq_true _ _).2 ⟨c, hc, hcancelled⟩
  · rwa [List.getElem?_set_ne hik] at hpassed

/-- **The invariant.** -/
structure Inv (pausable : Bool) (s : State) : Prop where
  sound : Sound pausable s.segments s.launch.isSome
  launched : ∀ launch, s.launch = some launch → 2 ≤ s.segments.length ∧
    ∀ segment, s.segments[s.segments.length - 1]? = some segment → Launched launch segment
  closed : Passed s.segments s.cancels → Closed s.segments
  late : s.late = false

theorem inv_start (pausable : Bool) (store : Run.Store) : Inv pausable (start store) where
  sound := by
    refine ⟨fun segment h => ?_, fun i segment hi hlt => ?_, fun i segment hi => .inl ?_⟩
    · rw [List.mem_singleton.1 h]
      exact held_started pausable store
    · simp [start] at hlt
    · rw [List.mem_singleton.1 (List.mem_of_getElem? hi)]
      exact List.cons_ne_nil _ _
  launched _ h := by cases h
  closed h := by
    obtain ⟨c, hc, -⟩ := h
    cases hc
  late := rfl

/-! ## Segments -/

theorem launched_step {launch : Launch} {act : Run.Act} (h : Launched launch segment)
    (hheld : Held pausable segment) (hdeliver : act ≠ .deliver)
    (hm : Moved pausable segment segment') (hs : Run.step pausable segment act = some segment') :
    Launched launch segment' := by
  rcases h.run with ⟨hrun, hqueued⟩ | hterminal
  · obtain ⟨hworkers, hsame | hterminal⟩ :=
      stepped_queued hheld.knows h.workers hdeliver hqueued hs
    · exact ⟨hworkers, .inl (by rw [hsame]; exact ⟨hrun, hqueued⟩)⟩
    · exact ⟨hworkers, .inr hterminal⟩
  · refine ⟨?_, .inr (hm.terminal hterminal)⟩
    cases Run.step_stepped hs with
    | deliver => exact absurd rfl hdeliver
    | request | client => exact h.workers
    | worker hw => rw [h.workers] at hw; cases hw

/-- A cancel that saves its status closes the session: the run was not terminal, so that it is the
last one and its worker does not roll over. -/
theorem closed_of_cancelled (h : Sound pausable segments creating)
    (hi : segments[i]? = some segment) (hrunning : segment.store.run.status.terminal = false)
    (hhalting : halting segment'.store.run.status = true)
    (hworkers : segment'.workers = segment.workers) : Closed (segments.set i segment') := by
  have hlt := (List.getElem?_eq_some_iff.1 hi).1
  have hlast : i + 1 = segments.length := by
    by_contra hne
    simp [h.past i segment hi (by omega)] at hrunning
  refine ⟨fun other hother => ?_, fun other hother w hw => ?_⟩
  · obtain ⟨j, hj⟩ := List.mem_iff_getElem?.1 hother
    rcases Parties.getElem?_set_cases hj with ⟨rfl, rfl⟩ | ⟨_, hj⟩
    · exact hhalting
    · have hj' := (List.getElem?_eq_some_iff.1 hj).1
      rw [halting, h.past j other hj (by omega)]
      rfl
  · have hother' : other = segment' := by
      have hlen : segments.length - 1 = i := by omega
      rw [Option.mem_def, List.getLast?_eq_getElem?, List.length_set, hlen,
        List.getElem?_set_self hlt] at hother
      exact (Option.some.inj hother).symm
    rw [hother', hworkers] at hw
    by_contra hrolls
    rw [Bool.not_eq_false] at hrolls
    simp [(h.held segment (List.mem_of_getElem? hi)).terminal_of_rolls hw hrolls] at hrunning

theorem inv_segment {act : Run.Act} (h : Inv pausable s) (hi : s.segments[i]? = some segment)
    (hdeliver : act ≠ .deliver) (hlawful : Lawful s (.segment i act))
    (hs : Run.step pausable segment act = some segment') :
    Inv pausable { s with segments := s.segments.set i segment' } := by
  obtain ⟨habandons, hcompletes⟩ := hlawful segment hi
  have hheld := h.sound.held segment (List.mem_of_getElem? hi)
  have hm := moved_step hheld hdeliver habandons hs
  refine ⟨h.sound.set hi hm, fun launch hlaunch => ?_, fun hpassed => ?_, h.late⟩
  · obtain ⟨htwo, hlast⟩ := h.launched launch hlaunch
    refine ⟨(List.length_set ..).symm ▸ htwo, fun other hother => ?_⟩
    rw [List.length_set] at hother
    rcases Parties.getElem?_set_cases hother with ⟨hij, rfl⟩ | ⟨-, hother⟩
    · exact launched_step (hlast segment (hij ▸ hi)) hheld hdeliver hm hs
    · exact hlast other hother
  by_cases hbefore : Passed s.segments s.cancels
  · refine (h.closed hbefore).set hi hm fun hlast w hw => ?_
    by_contra hrolls
    rw [Bool.not_eq_false] at hrolls
    rcases rolls_step hs hw hrolls with ⟨w₀, hw₀, hrolls₀⟩ | hcompleted
    · have hlen : s.segments.length - 1 = i := by omega
      have hmem : segment ∈ s.segments.getLast? := by
        rwa [Option.mem_def, List.getLast?_eq_getElem?, hlen]
      simp [(h.closed hbefore).2 segment hmem w₀ hw₀] at hrolls₀
    · simp [hcompletes hbefore] at hcompleted
  · -- A cancel call has passed in this step: one of the transition calls saved its status.
    by_contra hclosed
    refine hbefore (passed_set hi (fun j c' hc' hcancelled => ?_) hpassed)
    rcases cancelled_step hs hheld.knows hc' hcancelled with hc | ⟨hrunning, hhalting, hworkers⟩
    · exact hc
    · exact absurd (closed_of_cancelled h.sound hi hrunning hhalting hworkers) hclosed

theorem inv_rollover {act : Run.Act} {k : Nat} {choice : Run.Choice} (h : Inv pausable s)
    (hi : s.segments[i]? = some segment) (hact : act = .worker k now choice)
    (hchoice : choice ≠ .go) (hs : Run.step pausable segment act = some segment') :
    Inv pausable { s with segments := s.segments.set i segment' } := by
  subst hact
  refine inv_segment h hi (fun heq => by cases heq) (fun other hother => ?_) hs
  rw [Option.mem_def, hi] at hother
  cases choice <;> first | exact absurd rfl hchoice | exact ⟨rfl, fun _ => rfl⟩

/-! ## The creation of a segment -/

theorem inv_insert (h : Inv pausable s) (hs : stepInsert pausable s i now = some s') :
    Inv pausable s' := by
  simp only [stepInsert, bind, Option.bind_eq_some_iff] at hs
  obtain ⟨segment, hi, _, hrun, hs⟩ := hs
  split at hs
  · cases hs
  rename_i hnone
  have hlaunch : s.launch = none := by simpa using hnone
  obtain ⟨w, hw, hrolls⟩ : ∃ w ∈ segment.workers, rolls w = true := by
    unfold rolloverRun at hrun
    split at hrun
    · rename_i hw
      exact ⟨_, List.mem_of_getElem? hw, rfl⟩
    · cases hrun
  split at hs
  · rename_i hle
    cases hs
    have hlt := (List.getElem?_eq_some_iff.1 hi).1
    have hlen : s.segments.length - 1 = i := by omega
    have hpassed : ¬Passed s.segments s.cancels := by
      intro hpassed
      have hlast : segment ∈ s.segments.getLast? := by
        rwa [Option.mem_def, List.getLast?_eq_getElem?, hlen]
      rw [(h.closed hpassed).2 segment hlast w hw] at hrolls
      cases hrolls
    refine ⟨⟨fun other hother => ?_, fun j other hj hjlt => ?_, fun j other hj => ?_⟩,
      fun l hl => ?_, fun hpassed' => ?_, ?_⟩
    · rcases Parties.mem_snoc.1 hother with hother | rfl
      · exact h.sound.held other hother
      · exact held_idle pausable _
    · rw [List.length_append, List.length_singleton] at hjlt
      rw [List.getElem?_append_left (by omega)] at hj
      by_cases hji : j = i
      · subst hji
        rw [hi] at hj
        obtain rfl := Option.some.inj hj
        exact (h.sound.held segment (List.mem_of_getElem? hi)).terminal_of_rolls hw hrolls
      · exact h.sound.past j other hj (by omega)
    · rw [List.length_append, List.length_singleton]
      rcases Nat.lt_or_ge j s.segments.length with hjlt | _
      · rw [List.getElem?_append_left hjlt] at hj
        rcases h.sound.staffed j other hj with hworkers | hterminal | ⟨-, hsome⟩
        · exact .inl hworkers
        · exact .inr (.inl hterminal)
        · rw [hlaunch] at hsome
          cases hsome
      · have hjlt := (List.getElem?_eq_some_iff.1 hj).1
        rw [List.length_append, List.length_singleton] at hjlt
        exact .inr (.inr ⟨by omega, rfl⟩)
    · cases hl
      rw [List.length_append, List.length_singleton]
      refine ⟨by omega, fun other hother => ?_⟩
      rw [Nat.add_sub_cancel, List.getElem?_concat_length] at hother
      obtain rfl := Option.some.inj hother
      exact ⟨rfl, .inl ⟨rfl, rfl⟩⟩
    · refine absurd (hpassed'.back fun k j hcpassed => ?_) hpassed
      simp only [Cancel.passed] at hcpassed ⊢
      rw [List.getElem?_append] at hcpassed
      split at hcpassed
      · exact hcpassed
      · obtain ⟨_, hother, hcancelled⟩ := (Option.any_eq_true _ _).1 hcpassed
        rw [List.mem_singleton.1 (List.mem_of_getElem? hother)] at hcancelled
        cases hcancelled
    · show (s.late || s.cancels.any Cancel.hasReturned) = false
      rw [h.late, Bool.false_or, List.any_eq_false]
      intro c hc hreturned
      refine hpassed ⟨c, hc, ?_⟩
      cases c <;> first | rfl | cases hreturned
  · simp only [Option.bind_eq_some_iff, pure, Option.some.injEq] at hs
    obtain ⟨_, hstep, rfl⟩ := hs
    exact inv_rollover h hi rfl (fun heq => by cases heq) hstep

theorem resume_some {choice : Run.Choice}
    (h : resume pausable segments now choice = some segments') :
    ∃ parent parent', segments[segments.length - 2]? = some parent ∧
      Run.step pausable parent (.worker 0 now choice) = some parent' ∧
      segments' = segments.set (segments.length - 2) parent' := by
  simp only [resume, bind, Option.bind_eq_some_iff, pure, Option.some.injEq] at h
  obtain ⟨parent, hparent, parent', hstep, rfl⟩ := h
  exact ⟨parent, parent', hparent, hstep, rfl⟩

theorem moved_last {store : Run.Store} {workers : List Worker} (hheld : Held pausable segment)
    (hnone : segment.workers = []) (hstore : Run.Advances segment.store store)
    (hterminal : segment.store.run.status.terminal = true → store.run.status.terminal = true)
    (hhalting : halting segment.store.run.status = true → halting store.run.status = true)
    (hworkers : workers = [] ∨ workers = [.start]) :
    Moved pausable segment ⟨store, workers, segment.clients⟩ := by
  refine ⟨⟨⟨fun w hw => ?_, fun c hc => (hheld.knows.clients c hc).mono hstore⟩,
    fun w hw hstop => ?_,
    fun w hw => ?_, ?_⟩, hterminal, hhalting, fun hne => absurd hnone hne⟩ <;>
    rcases hworkers with rfl | rfl
  · cases hw
  · rw [List.mem_singleton.1 hw]
    trivial
  · cases hw
  · rw [List.mem_singleton.1 hw] at hstop
    exact hstop.elim
  · cases hw
  · rw [List.mem_singleton.1 hw]
    trivial
  · exact Nat.zero_le 1
  · exact Nat.le_refl 1

/-- What `create_run` keeps of the invariant while it is about. -/
structure Kept (pausable : Bool) (cancels : List Cancel) (segments : List Run.System)
    (creating : Bool) : Prop where
  sound : Sound pausable segments creating
  closed : Passed segments cancels → Closed segments

section

variable (h : Kept pausable cancels segments creating)
include h

theorem Kept.set (hi : segments[i]? = some segment)
    (hm : Moved pausable segment segment') (hclients : segment'.clients = segment.clients)
    (hrolls : i + 1 = segments.length → ∀ w ∈ segment'.workers, rolls w = false) :
    Kept pausable cancels (segments.set i segment') creating where
  sound := h.sound.set hi hm
  closed hpassed := by
    refine (h.closed (passed_set hi (fun j c' hc' hcancelled => ?_) hpassed)).set hi hm hrolls
    exact ⟨c', hclients ▸ hc', hcancelled⟩

theorem Kept.resume {choice : Run.Choice} (htwo : 2 ≤ segments.length) (hchoice : choice ≠ .go)
    (hs : resume pausable segments now choice = some segments') :
    Kept pausable cancels segments' creating ∧ segments'.length = segments.length ∧
      segments'[segments.length - 1]? = segments[segments.length - 1]? := by
  obtain ⟨parent, parent', hparent, hstep, rfl⟩ := resume_some hs
  have hheld := h.sound.held parent (List.mem_of_getElem? hparent)
  have hm : Moved pausable parent parent' := by
    refine moved_step hheld (fun heq => by cases heq) ?_ hstep
    cases choice <;> first | exact absurd rfl hchoice | rfl
  refine ⟨h.set hparent hm (clients_worker hstep) fun hlast => by omega, List.length_set .., ?_⟩
  exact List.getElem?_set_ne (by omega)

theorem Kept.delete {code message : String} (htwo : 2 ≤ segments.length)
    (hs : Session.resume pausable segments now (.raise code message) = some segments') :
    Kept pausable cancels segments'.dropLast false := by
  have hresumed := (h.resume htwo (fun heq => by cases heq) hs).1
  obtain ⟨parent, parent', hparent, hstep, rfl⟩ := resume_some hs
  have hheld := h.sound.held parent (List.mem_of_getElem? hparent)
  refine ⟨hresumed.sound.dropLast, fun hpassed => ?_⟩
  have hbefore : Passed (segments.set (segments.length - 2) parent') cancels := by
    refine hpassed.back fun k j hcpassed => ?_
    simp only [Cancel.passed] at hcpassed ⊢
    rw [List.getElem?_dropLast] at hcpassed
    split at hcpassed
    · exact hcpassed
    · cases hcpassed
  refine ⟨fun segment hsegment => (hresumed.closed hbefore).1 segment
    (List.dropLast_subset _ hsegment),
    fun segment hsegment => ?_⟩
  have hlen : segments.length - 1 - 1 = segments.length - 2 := by omega
  rw [Option.mem_def, List.getLast?_eq_getElem?, List.length_dropLast, List.length_set,
    List.getElem?_dropLast, if_pos (by rw [List.length_set]; omega), hlen,
    List.getElem?_set_self (by omega)] at hsegment
  exact Option.some.inj hsegment ▸ raise_rolls hheld hstep

theorem Kept.created {choice : Run.Choice} (htwo : 2 ≤ segments.length) (hchoice : choice ≠ .go)
    (hs : Session.resume pausable segments now choice = some segments')
    (hlast : segments[segments.length - 1]? = some segment)
    (hends : segment.workers ≠ [] ∨ segment.store.run.status.terminal = true) :
    Kept pausable cancels segments' false := by
  obtain ⟨hresumed, hlen, hsame⟩ := h.resume htwo hchoice hs
  refine ⟨hresumed.sound.created fun other hother => ?_, hresumed.closed⟩
  rw [hlen, hsame, hlast] at hother
  exact Option.some.inj hother ▸ hends

end

theorem inv_creating {launch : Launch} (h : Kept pausable s.cancels segments true)
    (hlate : s.late = false) (htwo : 2 ≤ segments.length)
    (hlaunched : ∀ segment, segments[segments.length - 1]? = some segment →
      Launched launch segment) :
    Inv pausable { s with segments, launch := some launch } where
  sound := h.sound
  launched l hl := by
    cases hl
    exact ⟨htwo, hlaunched⟩
  closed := h.closed
  late := hlate

theorem inv_created (h : Kept pausable s.cancels segments false) (hlate : s.late = false) :
    Inv pausable { s with segments, launch := none } where
  sound := h.sound
  launched l hl := by cases hl
  closed := h.closed
  late := hlate

theorem saveRun_some {store store' : Run.Store} {u saved : Run.RunRecord} {expected : Nat}
    (h : Run.saveRun store u expected = some (store', saved)) :
    store.run.revision = expected ∧
      store' = { store with run := { u with revision := expected + 1 } } := by
  simp only [Run.saveRun, cas, Option.map_eq_some_iff, Prod.mk.injEq] at h
  obtain ⟨r, hr, rfl, rfl⟩ := h
  split at hr
  · rename_i heq
    cases hr
    exact ⟨heq, rfl⟩
  · cases hr

theorem inv_launch {runId : String} {raises : Option String} (h : Inv pausable s)
    (hs : stepLaunch pausable s now runId raises = some s') : Inv pausable s' := by
  simp only [stepLaunch, bind, Option.bind_eq_some_iff] at hs
  obtain ⟨launch, hlaunch, segment, hlast, hs⟩ := hs
  obtain ⟨htwo, hlaunched⟩ := h.launched launch hlaunch
  have hsegment := hlaunched segment hlast
  have hheld := h.sound.held segment (List.mem_of_getElem? hlast)
  have hkept : Kept pausable s.cancels s.segments true :=
    ⟨by simpa [hlaunch] using h.sound, h.closed⟩
  have hnone : ∀ w ∈ segment.workers, rolls w = false := by
    rw [hsegment.workers]
    exact fun w hw => by cases hw
  have hlt := (List.getElem?_eq_some_iff.1 hlast).1
  have htwo' : ∀ segment', 2 ≤ (s.segments.set (s.segments.length - 1) segment').length :=
    fun _ => (List.length_set ..).symm ▸ htwo
  have hlast' : ∀ segment', (s.segments.set (s.segments.length - 1) segment')[
      (s.segments.set (s.segments.length - 1) segment').length - 1]? = some segment' :=
      fun segment' => by
    rw [List.length_set, List.getElem?_set_self hlt]
  -- the run stays as it is, or is written
  have hstays : ∀ next, next.stored = launch.stored → Inv pausable { s with launch := some next } :=
    fun next hnext => inv_creating hkept h.late htwo fun other hother => by
      rw [hlast] at hother
      exact Option.some.inj hother ▸ ⟨hsegment.workers, hnext ▸ hsegment.run⟩
  have hwrites : ∀ next segment', Moved pausable segment segment' →
      segment'.clients = segment.clients →
      segment'.workers = segment.workers → Launched next segment' →
      Inv pausable { s with
        segments := s.segments.set (s.segments.length - 1) segment', launch := some next } :=
    fun next segment' hm hclients hworkers hnext =>
      inv_creating (hkept.set hlast hm hclients fun _ => hworkers ▸ hnone) h.late (htwo' _)
        fun other hother => by
          rw [hlast'] at hother
          exact Option.some.inj hother ▸ hnext
  split at hs
  · cases hs
    exact hstays _ rfl
  · simp only [Option.bind_eq_some_iff, pure, Option.some.injEq] at hs
    obtain ⟨_, hresume, rfl⟩ := hs
    exact inv_created (hkept.delete htwo hresume) h.late
  · cases hs
    exact hwrites _ _ (moved_last hheld hsegment.workers (.inl rfl) id id (.inl hsegment.workers))
      rfl rfl ⟨hsegment.workers, hsegment.run⟩
  · simp only [Option.bind_eq_some_iff, pure, Option.some.injEq] at hs
    obtain ⟨_, hresume, rfl⟩ := hs
    have hworkers : segment.workers ++ [.start] = [Worker.start] := by rw [hsegment.workers]; rfl
    have hset := hkept.set hlast (moved_last hheld hsegment.workers (.refl _) id id (.inr hworkers))
        rfl
      fun _ w hw => by
        rw [hworkers, List.mem_singleton] at hw
        rw [hw]
        rfl
    exact inv_created (hset.created (htwo' _) (fun heq => by cases heq) hresume (hlast' _)
      (.inl (by simp))) h.late
  · cases hs
    exact hstays _ rfl
  · split at hs
    · rename_i store saved hsave
      cases hs
      obtain ⟨hrevision, hstore⟩ := saveRun_some hsave
      have hfailed : store.run.status = .failed := by rw [hstore]
      have hnext : store.run.revision = segment.store.run.revision + 1 := by rw [hstore, hrevision]
      have hterminal : store.run.status.terminal = true := by rw [hfailed]; rfl
      exact hwrites _ _ (moved_last hheld hsegment.workers (.inr hnext) (fun _ => hterminal)
        (fun _ => by rw [hfailed]; rfl) (.inl hsegment.workers)) rfl rfl ⟨hsegment.workers,
        .inr hterminal⟩
    · rename_i hsave
      simp only [Option.bind_eq_some_iff, pure, Option.some.injEq] at hs
      obtain ⟨_, hresume, rfl⟩ := hs
      -- The run is not as it was stored, so that it was cancelled.
      have hterminal : segment.store.run.status.terminal = true := by
        refine hsegment.run.resolve_left fun hrun => ?_
        obtain rfl := Option.some.inj hrun.1
        simp [Run.saveRun, cas] at hsave
      exact inv_created (hkept.created htwo (fun heq => by cases heq) hresume hlast
        (.inr hterminal)) h.late
  · rename_i saved
    simp only [Option.bind_eq_some_iff, pure, Option.some.injEq] at hs
    obtain ⟨_, hresume, rfl⟩ := hs
    have hterminal : segment.store.run.status.terminal = true :=
      hsegment.run.resolve_left fun hrun => by cases hrun.1
    have hm : Moved pausable segment
        ⟨Run.appendEvent segment.store saved "run.failed", segment.workers, segment.clients⟩ :=
      moved_last hheld hsegment.workers (.inl rfl) id id (.inl hsegment.workers)
    have hset := hkept.set hlast hm rfl fun _ => hnone
    exact inv_created (hset.created (htwo' _) (fun heq => by cases heq) hresume (hlast' _)
      (.inr hterminal)) h.late
  · cases hs

theorem inv_cancels {k : Nat} {c c' : Cancel} (h : Inv pausable s) (hc : s.cancels[k]? = some c)
    (hc' : c'.passed s.segments = true → c.passed s.segments = true ∨ Closed s.segments) :
    Inv pausable { s with cancels := s.cancels.set k c' } where
  sound := h.sound
  launched := h.launched
  closed := by
    rintro ⟨other, hother, hpassed⟩
    rcases List.mem_or_eq_of_mem_set hother with hother | rfl
    · exact h.closed ⟨other, hother, hpassed⟩
    · rcases hc' hpassed with hbefore | hclosed
      · exact h.closed ⟨c, List.mem_of_getElem? hc, hbefore⟩
      · exact hclosed
  late := h.late

theorem inv_cancel {k : Nat} {c c' : Cancel} (h : Inv pausable s) (hlawful : Lawful s (.cancel k))
    (hc : s.cancels[k]? = some c) (hs : stepCancel s c = some (s', c')) :
    Inv pausable { s' with cancels := s.cancels.set k c' } := by
  cases c with
  | listing =>
    cases hs
    refine inv_cancels h hc fun hpassed => ?_
    split at hpassed <;> cases hpassed
  | getting i =>
    simp only [stepCancel] at hs
    split at hs
    · cases hs
      exact inv_cancels h hc nofun
    · rename_i segment hi
      split at hs
      · rename_i hterminal
        cases hs
        exact inv_cancels h hc fun _ => .inr (hlawful _ hc i rfl segment hi hterminal)
      · cases hs
        have hrequest : Run.step pausable segment (.request .cancel) =
            some { segment with clients := segment.clients ++ [.read 4 .cancel] } := rfl
        have hinv := inv_segment h hi (fun heq => by cases heq) (fun _ _ => ⟨rfl, fun _ => rfl⟩)
            hrequest
        refine inv_cancels hinv hc fun hpassed => ?_
        simp only [Cancel.passed, List.getElem?_set_self (List.getElem?_eq_some_iff.1 hi).1,
          Option.any_some, List.getElem?_concat_length] at hpassed
        cases hpassed
  | transitioning i j =>
    simp only [stepCancel] at hs
    split at hs
    · cases hs
      exact inv_cancels h hc nofun
    · rename_i segment hi
      split at hs
      · rename_i saved hj
        cases hs
        refine inv_cancels h hc fun _ => .inl ?_
        simp only [Cancel.passed, hi, Option.any_some, hj]
        rfl
      · cases hs
        exact inv_cancels h hc nofun
      · cases hs
        exact inv_cancels h hc nofun
      · cases hs
  | relisting =>
    cases hs
    exact inv_cancels h hc fun _ => .inl rfl
  | returned | raised => cases hs

/-! ## Runs -/

theorem inv_step (h : Inv pausable s) (hlawful : Lawful s act)
    (hs : step pausable s act = some s') : Inv pausable s' := by
  cases act with
  | segment i =>
    simp only [step, bind, Option.bind_eq_some_iff] at hs
    obtain ⟨_, hi, hs⟩ := hs
    split at hs
    · cases hs
    · rename_i hblocked
      simp only [Option.bind_eq_some_iff, pure, Option.some.injEq] at hs
      obtain ⟨_, hstep, rfl⟩ := hs
      exact inv_segment h hi (fun heq => by subst heq; exact hblocked rfl) hlawful hstep
  | insert i => exact inv_insert h hs
  | launch => exact inv_launch h hs
  | request =>
    cases hs
    refine ⟨h.sound, h.launched, fun hpassed => h.closed ?_, h.late⟩
    obtain ⟨c, hc, hcpassed⟩ := hpassed
    rcases Parties.mem_snoc.1 hc with hc | rfl
    · exact ⟨c, hc, hcpassed⟩
    · cases hcpassed
  | cancel k =>
    simp only [step, bind, Option.bind_eq_some_iff, pure, Option.some.injEq] at hs
    obtain ⟨c, hc, ⟨_, _⟩, hcancel, rfl⟩ := hs
    exact inv_cancel h hlawful hc hcancel

theorem Inv.terminal_of_quiet (h : Inv pausable s) (hquiet : s.quiet) :
    ∀ segment ∈ s.segments, segment.store.run.status.terminal = true := by
  obtain ⟨hlaunch, hover, -⟩ := hquiet
  intro segment hsegment
  obtain ⟨i, hi⟩ := List.mem_iff_getElem?.1 hsegment
  rcases h.sound.staffed i segment hi with hworkers | hterminal | ⟨-, hsome⟩
  · obtain ⟨w, hw⟩ := List.exists_mem_of_ne_nil _ hworkers
    exact Run.worker_over_ends ((hover segment hsegment).1 w hw)
      ((h.sound.held segment hsegment).ends w hw)
  · exact hterminal
  · simp [hlaunch] at hsome

/-- **Cancelling a stream session is final**, in every run whose steps are lawful: no segment is
created after a cancel call has returned, and when no worker and no call is in flight every run of
the session is terminal. -/
theorem cancel_final (pausable : Bool) (store : Run.Store) (acts : List Act)
    (hlawful : Along (step pausable) Lawful (start store) acts) :
    ∀ s ∈ states (step pausable) (start store) acts, s.late = false ∧
      (s.quiet → ∀ segment ∈ s.segments, segment.store.run.status.terminal = true) := by
  intro s hs
  have hinv : Inv pausable s :=
    invariant_states (fun _ _ _ h hlawful hstep => inv_step h hlawful hstep)
      (inv_start pausable store) hlawful s hs
  exact ⟨hinv.late, hinv.terminal_of_quiet⟩

/-- A run of a stream session, as `create_run` leaves it. -/
def streamStore : Run.Store :=
  { Run.queuedStore with
    run := { Run.queuedStore.run with sourceId := some "src", streamSessionId := some "sts" } }

/-- The worker of segment `i`. -/
def work (i : Nat) (choice : Run.Choice) : Act := .segment i (.worker 0 0 choice)

/-- The first segment completes at the end of its window, and its worker has the rollover left. -/
def windowCompleted : List Act :=
  List.replicate 4 (work 0 .go) ++ [work 0 (.finish (some "segment_window_completed"))] ++
    List.replicate 4 (work 0 .go)

/-- The next segment is created and handed to a worker. -/
def rolledOver : List Act := [.insert 0 0] ++ List.replicate 3 (.launch 0 "run_1" none)

/-- The session is cancelled after the rollover, before the second worker reads its run. -/
theorem second_segment_cancelled :
    let acts := windowCompleted ++ rolledOver ++ [.request, .cancel 0, .cancel 0] ++
      List.replicate 3 (.segment 1 (.client 0 0)) ++ [.cancel 0, .cancel 0] ++ [work 1 .go]
    Along (step true) Lawful (start streamStore) acts ∧
      ∀ s ∈ states (step true) (start streamStore) acts, s.late = false ∧
        (s.quiet → ∀ segment ∈ s.segments, segment.store.run.status.terminal = true) :=
  ⟨by decide +kernel, cancel_final true streamStore _ (by decide +kernel)⟩

/-- **A segment after the cancel**: a cancel call finds the last run `COMPLETED` and returns; then
the worker of that run creates the next one. -/
theorem cancelled_between_segments :
    ¬∀ s ∈ states (step true) (start streamStore)
        (windowCompleted ++ [.request] ++ List.replicate 3 (.cancel 0) ++ rolledOver),
      s.late = false := by
  intro h
  have hlate := h _ (mem_states_of_exec rfl)
  revert hlate
  decide +kernel

end Scenara.Session
