import Scenara.Run.Cancel
import Scenara.Run.Stream

/-!
# The end of an event stream

* `StreamInv`, `inv_step`: what the subscriber received is where the log begins after its cursor.
-/

namespace Scenara.Run

open Scenara.Core

variable {pausable : Bool} {s s' : Store} {c c' : Call} {w w' : Worker} {now : ℚ}
  {run snap u : RunRecord} {eventType : String} {calls : List Call} {stopped : Bool}
  {choice : Choice}
  {before after rest : List Owed} {appended : Option Owed}

/-! ## What a step appends and owes -/

/-- What a step of one party does to the log and to what it owes. -/
structure Owing (s s' : Store) (before after : List Owed) (appended : Option Owed) : Prop where
  grows : ∃ more, s'.events = s.events ++ more ∧ (appended.isSome = true → 0 < more.length)
  due : ∀ e ∈ appended, closing e.2 = true → e ∈ before
  left : ∀ e ∈ after, e ∈ before ∨ e.1 = s'.run.revision ∧ s.run.revision < s'.run.revision

theorem mem_owed {e : Owed} (h : e ∈ owed run eventType) : e.1 = run.revision := by
  unfold owed at h
  split at h
  · rw [List.mem_singleton.1 h]
  · cases h

theorem mem_owed_self (h : closing eventType = true) :
    (run.revision, eventType) ∈ owed run eventType := by
  rw [owed, if_pos h]
  exact List.mem_cons_self

theorem Owing.silent (hevents : s'.events = s.events) (h : after ⊆ before) :
    Owing s s' before after none where
  grows := ⟨[], by rw [hevents, List.append_nil], nofun⟩
  due e he := by cases he
  left _ he := .inl (h he)

theorem Owing.still (h : after = before) : Owing s s before after none :=
  .silent rfl (h ▸ List.Subset.refl _)

theorem Owing.saved (hs : s.run = snap) (h : ∀ e ∈ after, e.1 = snap.revision + 1) :
    Owing s { s with run := { u with revision := snap.revision + 1 } } before after none where
  grows := ⟨[], (List.append_nil _).symm, nofun⟩
  due e he := by cases he
  left e he := .inr ⟨h e he, by rw [hs]; exact Nat.lt_succ_self _⟩

theorem Owing.event (s : Store) (run : RunRecord) (eventType : String) :
    Owing s (appendEvent s run eventType) (owed run eventType ++ rest) rest
      (some (run.revision, eventType)) where
  grows := ⟨_, rfl, fun _ => Nat.one_pos⟩
  due e he hclosing := by
    cases he
    exact List.mem_append_left _ (mem_owed_self hclosing)
  left e he := .inl (List.mem_append_right _ he)

theorem Owing.context {before' after' : List Owed} (h : Owing s s' before after appended)
    (hbefore : before ⊆ before') (hafter : ∀ e ∈ after', e ∈ after ∨ e ∈ before') :
    Owing s s' before' after' appended where
  grows := h.grows
  due e he hclosing := hbefore (h.due e he hclosing)
  left e he := by
    rcases hafter e he with he | he
    · exact (h.left e he).imp_left fun he => hbefore he
    · exact .inl he

theorem mem_owed_event {next : Call} {e : Owed} (hnext : next.owes = [])
    (h : e ∈ (Call.event run eventType next).owes) : e.1 = run.revision := by
  rw [Call.owes, hnext, List.append_nil] at h
  exact mem_owed h

theorem stepCall_owing (hk : c.Knows s) (h : stepCall now s c = some (s', c')) :
    Owing s s' c.owes c'.owes c.appends := by
  cases stepCall_cases hk h with
  | saved hsaves he => cases hsaves <;> exact .saved he fun e hmem => mem_owed_event rfl hmem
  | progressed _ he => exact .saved he fun e hmem => mem_owed_event rfl hmem
  | event run eventType => exact .event s run eventType
  | turned ht =>
    cases ht with
    | lost hsaves => cases hsaves <;> exact .still rfl
    | _ => exact .still rfl

/-! ## Workers -/

theorem mem_owed_next {next : Worker} {e : Owed} (hnext : next.owes = [])
    (h : e ∈ (Worker.event run eventType next).owes) : e.1 = run.revision := by
  rw [Worker.owes, hnext, List.append_nil] at h
  exact mem_owed h

theorem afterBegin_owes (run : RunRecord) : (afterBegin run).owes = [] := by
  unfold afterBegin
  split
  · rfl
  · split <;> rfl

theorem afterComplete_owes (run : RunRecord) (termination : Option String) :
    (afterComplete run termination).owes = [] := by
  unfold afterComplete
  split <;> rfl

theorem Owing.ofCall {k : Nat} (hc : calls[k]? = some c) (h : Owing s s' c.owes c'.owes appended) :
    Owing s s' (calls.flatMap Call.owes) ((calls.set k c').flatMap Call.owes) appended := by
  refine h.context (fun e he => List.mem_flatMap.2 ⟨c, List.mem_of_getElem? hc, he⟩) fun e he => ?_
  obtain ⟨other, hother, hmem⟩ := List.mem_flatMap.1 he
  rcases List.mem_or_eq_of_mem_set hother with hother | rfl
  · exact .inr (List.mem_flatMap.2 ⟨other, hother, hmem⟩)
  · exact .inl hmem

theorem Saves.owes {next onConflict : Worker} (hw : Saves w snap u next onConflict) {e : Owed}
    (he : e ∈ next.owes) : e.1 = snap.revision + 1 := by
  cases hw with
  | begin => rw [afterBegin_owes] at he; cases he
  | complete => exact mem_owed_next (afterComplete_owes _ _) he
  | fail => exact mem_owed_next rfl he
  | cancel _ _ | stop _ => cases he

theorem stepWorker_owing (hk : w.Knows s) (h : stepWorker now s w choice = some (s', w')) :
    Owing s s' w.owes w'.owes (w.appends choice) := by
  cases stepWorker_cases h with
  | saved hw hr =>
    have hnone : w.appends .go = none := by cases hw <;> rfl
    rw [hnone]
    refine .saved ((hw.seen hk).eq_of_rev hr) fun e hmem => ?_
    rcases List.mem_append.1 hmem with hmem | hmem
    · exact mem_owed hmem
    · exact hw.owes hmem
  | lost hw => cases hw <;> exact .still rfl
  | linked _ hr => exact .saved (Coherent.eq_of_rev hk hr) nofun
  | event run eventType => exact .event s run eventType
  | call hc hst =>
    have howing := (stepCall_owing (hk _ (List.mem_of_getElem? hc)) hst).ofCall hc
    simp only [Worker.appends, hc, Option.bind_some]
    exact howing
  | turned ht =>
    cases ht with
    | begun => exact .still (afterBegin_owes _)
    | called c hc => cases hc <;> exact .still (by simp [Worker.owes, Call.owes])
    | finish | raise | stop => exact .silent rfl (List.nil_subset _)
    | _ => exact .still rfl

theorem stepClient_owing {c c' : Client} (hk : c.Knows pausable s)
    (h : stepClient pausable now s c = some (s', c')) : Owing s s' c.owes c'.owes c.appends := by
  cases c with
  | read left =>
    cases left with
    | zero => cases h; exact .still rfl
    | succ =>
      simp only [stepClient] at h
      split at h <;> cases h <;> exact .still rfl
  | save _ _ run tgt =>
    simp only [stepClient] at h
    rcases saveRun_cases (transitionRecord now run tgt) hk.1 with ⟨he, hv⟩ | ⟨-, hv⟩
    · rw [hv] at h
      cases h
      exact .saved he fun e hmem => mem_owed hmem
    · rw [hv] at h
      cases h
      exact .still rfl
  | event _ saved tgt =>
    cases h
    have howing : Owing s (appendEvent s saved (statusEvent tgt))
        (owed saved (statusEvent tgt) ++ [])
        [] (some (saved.revision, statusEvent tgt)) := .event s saved (statusEvent tgt)
    rwa [List.append_nil] at howing
  | returned | invalid | conflict => cases h

theorem Owing.ofSet {α : Type} {owes : α → List Owed} {parties : List α} {i : Nat} {p p' : α}
    (hp : parties[i]? = some p) (h : Owing s s' (owes p) (owes p') appended)
    {others before after : List Owed} (hbefore : parties.flatMap owes ⊆ before)
    (hothers : others ⊆ before)
    (hafter : ∀ e ∈ after, e ∈ (parties.set i p').flatMap owes ∨ e ∈ others) :
    Owing s s' before after appended := by
  refine h.context (fun e he => hbefore (List.mem_flatMap.2 ⟨p, List.mem_of_getElem? hp, he⟩))
    fun e he => ?_
  rcases hafter e he with he | he
  · obtain ⟨other, hother, hmem⟩ := List.mem_flatMap.1 he
    rcases List.mem_or_eq_of_mem_set hother with hother | rfl
    · exact .inr (hbefore (List.mem_flatMap.2 ⟨other, hother, hmem⟩))
    · exact .inl hmem
  · exact .inr (hothers he)

theorem step_owing {s s' : System} {a : Act} (hk : s.Knows pausable)
    (h : step pausable s a = some s') :
    Owing s.store s'.store s.owes s'.owes (s.appends a) ∧
      s.store.run.revision ≤ s'.store.run.revision ∧
      (s.store.run.status.terminal = true → s'.store.run.status.terminal = true) := by
  have hadvances {t t' : Store} (ha : Advances t t') : t.run.revision ≤ t'.run.revision := by
    rcases ha with he | _
    · rw [he]
    · omega
  cases step_stepped h with
  | deliver => exact ⟨.still (by simp [System.owes, Worker.owes]), Nat.le_refl _, id⟩
  | request => exact ⟨.still (by simp [System.owes, Client.owes]), Nat.le_refl _, id⟩
  | worker hw hst =>
    have hkw := hk.workers _ (List.mem_of_getElem? hw)
    have hspec := stepWorker_spec hkw hst
    refine ⟨?_, hadvances hspec.advances, workerMove_terminal hspec.move⟩
    simp only [System.appends, hw, Option.bind_some]
    exact Owing.ofSet hw (stepWorker_owing hkw hst) (List.subset_append_left _ _)
      (List.subset_append_right _ _) fun e he => List.mem_append.1 he
  | client hc hst =>
    have hkc := hk.clients _ (List.mem_of_getElem? hc)
    have hspec := stepClient_spec hkc hst
    refine ⟨?_, hadvances hspec.advances, clientMove_terminal hspec.move⟩
    simp only [System.appends, hc, Option.bind_some]
    exact Owing.ofSet hc (stepClient_owing hkc hst) (List.subset_append_right _ _)
      (List.subset_append_left _ _) fun e he => (List.mem_append.1 he).symm

/-! ## The stream -/

namespace Streaming

variable {x x' : Streaming} {act : Act} {start : Int} {store : Store}

/-- The loop has called `events_after`, and not yet `get_run`. -/
def between (x : Streaming) : Bool := x.subscriber.phase matches .sending _ _

/-- The step makes the run terminal. -/
def ends (pausable : Bool) (x : Streaming) (act : Run.Act) : Bool :=
  !x.system.store.run.status.terminal &&
    (Run.step pausable x.system act).any fun system => system.store.run.status.terminal

/-- `events_after` is not called between the terminal save and the last event of its call, and the
save is not between `events_after` and `get_run`. -/
def Apart (pausable : Bool) (x : Streaming) : Act → Prop
  | .poll => (x.subscriber.phase matches .polling) = true → x.owes = []
  | .run act => x.ends pausable act = true → x.between = false
  | .append _ | .disconnect => True

instance (pausable : Bool) (x : Streaming) : DecidablePred (Apart pausable x)
  | .poll => inferInstanceAs (Decidable (_ = true → x.owes = []))
  | .run act => inferInstanceAs (Decidable (x.ends pausable act = true → x.between = false))
  | .append _ | .disconnect => isTrue trivial

/-- What the subscriber has asked for and not yet sent. -/
def asked (x : Streaming) : List (RunEvent × Nat) :=
  match x.subscriber.phase with
  | .sending events _ => events
  | _ => []

/-- **The invariant.** -/
structure StreamInv (pausable : Bool) (start : Int) (x : Streaming) : Prop where
  knows : x.system.Knows pausable
  follows : Follows x.system.store.events start x.subscriber.cursor x.subscriber.received x.asked
  closer : ∀ revision, x.closer = some revision → revision ≤ x.system.store.run.revision ∧
    x.system.store.run.status.terminal = true
  closed : ∀ id ∈ x.closed, 0 < id ∧ id ≤ x.system.store.events.length

/-- The call that made the run terminal has appended its events, and the cursor is past them. -/
structure Told (x : Streaming) : Prop where
  terminal : x.system.store.run.status.terminal = true
  owes : x.owes = []
  closed : ∀ id ∈ x.closed, (id : Int) ≤ x.subscriber.cursor

/-- Once the stream has ended, nothing is missing and nothing will come; and so it is after a poll
that found nothing, if the run is terminal. -/
def Complete (x : Streaming) : Prop :=
  match x.subscriber.phase with
  | .ended => x.Told
  | .sending [] false => x.system.store.run.status.terminal = true → x.Told
  | .sending (_ :: _) false => False
  | _ => True

theorem start_inv (pausable : Bool) (store : Store) (cursor : Int) :
    StreamInv pausable cursor (.start store cursor) where
  knows := idle_knows pausable store
  follows := .begin store.events cursor
  closer _ h := by cases h
  closed _ h := by cases h

theorem owes_nil_iff : x.owes = [] ↔ ∀ e ∈ x.system.owes, x.closer ≠ some e.1 := by
  simp [owes, List.filter_eq_nil_iff]

theorem mem_closedAfter {closer : Option Nat} {closed : List Nat} {id : Nat}
    (h : id ∈ closedAfter closer closed s appended) :
    id ∈ closed ∨ id = s.events.length + 1 ∧
      ∃ e ∈ appended, closer = some e.1 ∧ closing e.2 = true := by
  unfold closedAfter at h
  split at h
  · split at h
    · rename_i revision eventType hclosing
      rcases List.mem_append.1 h with h | h
      · exact .inl h
      · rw [List.mem_singleton.1 h]
        exact .inr ⟨rfl, _, rfl, hclosing⟩
    · exact .inl h
  · exact .inl h

theorem follows_poll {subscriber : Subscriber}
    (h : Follows x.system.store.events start x.subscriber.cursor x.subscriber.received x.asked)
    (hs : stepSubscriber x.system.store x.subscriber = some subscriber) :
    Follows x.system.store.events start subscriber.cursor subscriber.received
      { x with subscriber }.asked := by
  unfold asked at h
  unfold stepSubscriber at hs
  split at hs
  · rename_i hphase
    cases hs
    rw [hphase] at h
    exact h.ask
  · rename_i event events found hphase
    cases hs
    rw [hphase] at h
    exact h.take
  · rename_i found hphase
    cases hs
    rw [hphase] at h
    unfold asked
    dsimp only
    split
    · rename_i events found' heq
      split at heq <;> cases heq
    · exact h
  · cases hs
  · cases hs

theorem inv_step (h : StreamInv pausable start x) (hs : step pausable x act = some x') :
    StreamInv pausable start x' := by
  cases act with
  | run =>
    obtain ⟨system, hsystem, rfl⟩ := Option.map_eq_some_iff.1 hs
    obtain ⟨howing, hrevision, hterminal⟩ := step_owing h.knows hsystem
    obtain ⟨more, hmore, happends⟩ := howing.grows
    have hlength : system.store.events.length = x.system.store.events.length + more.length := by
      rw [hmore, List.length_append]
    refine ⟨knows_step h.knows hsystem, ?_, fun revision hcloser => ?_, fun id hid => ?_⟩
    · show Follows system.store.events _ _ _ x.asked
      rw [hmore]
      exact h.follows.grow more
    · change closerAfter x.closer x.system.store system.store = some revision at hcloser
      unfold closerAfter at hcloser
      split at hcloser
      · rename_i hsaved
        cases hcloser
        exact ⟨Nat.le_refl _, hsaved.2⟩
      · obtain ⟨hle, hstatus⟩ := h.closer revision hcloser
        exact ⟨hle.trans hrevision, hterminal hstatus⟩
    · rcases mem_closedAfter hid with hid | ⟨rfl, _, happended, -⟩
      · obtain ⟨hpos, hle⟩ := h.closed id hid
        exact ⟨hpos, by dsimp only; omega⟩
      · have hpos := happends (Option.isSome_of_mem happended)
        exact ⟨Nat.succ_pos _, by dsimp only; omega⟩
  | append event =>
    cases hs
    have hsame : Advances x.system.store
        { x.system.store with events := x.system.store.events ++ [event] } := .inl rfl
    refine ⟨⟨fun w hw => (h.knows.workers w hw).mono hsame,
      fun c hc => (h.knows.clients c hc).mono hsame⟩, h.follows.grow [event], h.closer,
        fun id hid => ?_⟩
    obtain ⟨hpos, hle⟩ := h.closed id hid
    exact ⟨hpos, hle.trans (by simp)⟩
  | poll =>
    obtain ⟨_, hsubscriber, rfl⟩ := Option.map_eq_some_iff.1 hs
    exact ⟨h.knows, follows_poll (x := x) h.follows hsubscriber, h.closer, h.closed⟩
  | disconnect =>
    simp only [step] at hs
    split at hs <;> cases hs
    exact ⟨h.knows, h.follows.drop, h.closer, h.closed⟩

/-- **What ends the run was told** once and for all: it was terminal, so that no other call makes it
terminal, and this one appends nothing any more. -/
theorem told_run {act : Run.Act} {system : System} (h : StreamInv pausable start x) (htold : x.Told)
    (hs : Run.step pausable x.system act = some system) :
    Told { x with
      system
      closer := closerAfter x.closer x.system.store system.store
      closed := closedAfter x.closer x.closed x.system.store (x.system.appends act) } := by
  obtain ⟨howing, -, hterminal⟩ := step_owing h.knows hs
  obtain ⟨hstatus, howes, hclosed⟩ := htold
  have hcloser : closerAfter x.closer x.system.store system.store = x.closer :=
    if_neg fun hsaved => by rw [hstatus] at hsaved; cases hsaved.1
  rw [owes_nil_iff] at howes
  refine ⟨hterminal hstatus, ?_, fun id hid => ?_⟩
  · rw [owes_nil_iff]
    intro e he
    rw [hcloser]
    rcases howing.left e he with he | ⟨_, _⟩
    · exact howes e he
    · intro hsome
      have hle := (h.closer e.1 hsome).1
      omega
  · rcases mem_closedAfter hid with hid | ⟨-, e, happended, hsome, hclosing⟩
    · exact hclosed id hid
    · exact absurd hsome (howes e (howing.due e happended hclosing))

theorem le_of_after_nil {cursor : Int} (hempty : eventsAfter store cursor = []) {id : Nat}
    (hpos : 0 < id) (hle : id ≤ store.events.length) : (id : Int) ≤ cursor := by
  have hnumbers := numbers_after cursor store.events
  rw [show after cursor store.events = [] from hempty, List.map_nil] at hnumbers
  have hlength := congrArg List.length hnumbers
  rw [List.length_range', List.length_nil] at hlength
  omega

theorem complete_poll {subscriber : Subscriber} (h : StreamInv pausable start x)
    (hcomplete : Complete x) (hapart : Apart pausable x .poll)
    (hs : stepSubscriber x.system.store x.subscriber = some subscriber) :
    Complete { x with subscriber } := by
  unfold stepSubscriber at hs
  unfold Complete at hcomplete ⊢
  unfold Apart at hapart
  cases hphase : x.subscriber.phase with
  | polling =>
    rw [hphase] at hs hapart
    cases hs
    dsimp only
    cases hevents : eventsAfter x.system.store x.subscriber.cursor with
    | nil =>
      -- Nothing was found, and nothing is owed.
      refine fun hterminal => ⟨hterminal, hapart rfl, fun id hid => ?_⟩
      obtain ⟨hpos, hle⟩ := h.closed id hid
      exact le_of_after_nil hevents hpos hle
    | cons => trivial
  | sending events found =>
    rw [hphase] at hs hcomplete
    cases events with
    | cons event events =>
      cases hs
      cases found with
      | false => exact hcomplete.elim
      | true => cases events <;> trivial
    | nil =>
      cases hs
      dsimp only
      cases hstatus : x.system.store.run.status.terminal with
      | false => trivial
      | true =>
        cases found with
        | true => trivial
        | false =>
          obtain ⟨hterminal, howes, hclosed⟩ := hcomplete hstatus
          exact ⟨hterminal, howes, hclosed⟩
  | ended | disconnected =>
    rw [hphase] at hs
    cases hs

theorem complete_step (h : StreamInv pausable start x) (hcomplete : Complete x)
    (hapart : Apart pausable x act) (hs : step pausable x act = some x') : Complete x' := by
  cases act with
  | run act =>
    obtain ⟨system, hsystem, rfl⟩ := Option.map_eq_some_iff.1 hs
    unfold Complete at hcomplete ⊢
    cases hphase : x.subscriber.phase with
    | ended =>
      rw [hphase] at hcomplete
      dsimp only
      exact told_run h hcomplete hsystem
    | sending events found =>
      rw [hphase] at hcomplete
      dsimp only
      cases events with
      | cons => cases found <;> exact hcomplete
      | nil =>
        cases found with
        | true => trivial
        | false =>
          intro hterminal
          cases hstatus : x.system.store.run.status.terminal with
          | true => exact told_run h (hcomplete hstatus) hsystem
          | false =>
            -- The terminal save is between no `events_after` and its `get_run`.
            have hends : x.ends pausable act = true := by simp [ends, hstatus, hsystem, hterminal]
            have hbetween : x.between = false := hapart hends
            rw [between, hphase] at hbetween
            cases hbetween
    | polling | disconnected => trivial
  | append event =>
    cases hs
    unfold Complete at hcomplete ⊢
    split at hcomplete
    next hphase =>
      simp only [hphase]
      exact ⟨hcomplete.terminal, hcomplete.owes, hcomplete.closed⟩
    next hphase =>
      simp only [hphase]
      exact fun hterminal =>
        ⟨hterminal, (hcomplete hterminal).owes, (hcomplete hterminal).closed⟩
    next => exact hcomplete.elim
    next => trivial
  | poll =>
    obtain ⟨_, hsubscriber, rfl⟩ := Option.map_eq_some_iff.1 hs
    exact complete_poll h hcomplete hapart hsubscriber
  | disconnect =>
    simp only [step] at hs
    split at hs <;> cases hs
    trivial

/-- **The event stream.** A subscriber that connects with a cursor that is not negative receives the
events after it, one after another. If the stream ends by itself, in a run in which its polls and
the end of the run are apart, it has received every event after its cursor that the call that made
the run terminal ever appends. -/
theorem stream_complete (pausable : Bool) (store : Store) (start : Int) (acts : List Act) :
    (0 ≤ start → ∀ x ∈ states (step pausable) (.start store start) acts,
      x.subscriber.received <+: eventsAfter x.system.store start ∧
      x.subscriber.received.map (fun entry => (entry.2 : Int)) =
        (List.range x.subscriber.received.length).map fun i : Nat => start + 1 + (i : Int)) ∧
    (Along (step pausable) (Apart pausable) (.start store start) acts →
      ∀ x ∈ states (step pausable) (.start store start) acts, x.subscriber.phase = .ended →
        x.owes = [] ∧ ∀ id ∈ x.closed, start < id → id ∈ x.subscriber.received.map Prod.snd) := by
  constructor
  · intro _ x hx
    have hinv : StreamInv pausable start x :=
      invariant_states (P := fun _ _ => True) (fun _ _ _ h _ hs => inv_step h hs)
        (start_inv pausable store start) (along_of_forall (fun _ _ => trivial) _ acts) x hx
    refine ⟨(List.prefix_append _ _).trans hinv.follows.read, ?_⟩
    have hnumbers := congrArg (List.map fun id : Nat => (id : Int)) hinv.follows.numbers
    rw [List.map_map, List.range'_eq_map_range, List.map_map] at hnumbers
    refine hnumbers.trans (List.map_congr_left fun i _ => ?_)
    simp only [Function.comp_apply]
    omega
  · intro hapart x hx hended
    obtain ⟨hinv, hcomplete⟩ : StreamInv pausable start x ∧ Complete x :=
      invariant_states (I := fun x => StreamInv pausable start x ∧ Complete x)
        (fun _ _ _ h hapart hs => ⟨inv_step h.1 hs, complete_step h.1 h.2 hapart hs⟩)
        ⟨start_inv pausable store start, trivial⟩ hapart x hx
    unfold Complete at hcomplete
    rw [hended] at hcomplete
    exact ⟨hcomplete.owes, fun id hid hlt =>
      hinv.follows.mem_taken hlt (hinv.closed id hid).1 (hcomplete.closed id hid)⟩

/-- A worker executes the run up to the `COMPLETED` save. -/
def completing : List Act :=
  [.run .deliver, .run (.worker 0 0 .go), .run (.worker 0 0 .go), .run (.worker 0 0 .go), .poll,
    .poll, .poll, .run (.worker 0 0 (.finish none)), .run (.worker 0 0 .go), .run (.worker 0 0 .go)]

/-- The worker appends its two events. -/
def telling : List Act := [.run (.worker 0 0 .go), .run (.worker 0 0 .go)]

/-- The subscriber polls after the two events. -/
theorem completed_seen :
    let acts := completing ++ telling ++ List.replicate 6 .poll
    Along (step true) (Apart true) (.start queuedStore 0) acts ∧
      (∃ x, exec (step true) (.start queuedStore 0) acts = some x ∧ x.subscriber.phase = .ended ∧
        x.closed = [2, 3]) ∧
      (∀ x ∈ states (step true) (.start queuedStore 0) acts,
        x.subscriber.received <+: eventsAfter x.system.store 0 ∧
        x.subscriber.received.map (fun entry => (entry.2 : Int)) =
          (List.range x.subscriber.received.length).map fun i : Nat => 0 + 1 + (i : Int)) ∧
      ∀ x ∈ states (step true) (.start queuedStore 0) acts, x.subscriber.phase = .ended →
        x.owes = [] ∧ ∀ id ∈ x.closed, (0 : Int) < id → id ∈ x.subscriber.received.map Prod.snd :=
  ⟨by decide +kernel, ⟨_, rfl, rfl, rfl⟩, (stream_complete true queuedStore 0 _).1 (le_refl 0),
    (stream_complete true queuedStore 0 _).2 (by decide +kernel)⟩

/-- **`run.completed` is not delivered**: the subscriber polls between the `COMPLETED` save and the
two events, and the stream ends. -/
theorem completed_unseen :
    ¬∀ x ∈ states (step true) (.start queuedStore 0) (completing ++ [.poll, .poll] ++ telling),
      x.subscriber.phase = .ended → ∀ id ∈ x.closed, id ∈ x.subscriber.received.map Prod.snd := by
  intro h
  have hmem := h _ (mem_states_of_exec rfl) rfl 2 (by decide +kernel)
  revert hmem
  decide +kernel

end Streaming

end Scenara.Run
