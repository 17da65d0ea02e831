import Mathlib.Data.List.Sort
import Scenara.Core.Subscription
import Scenara.Surveillance.Alerts

/-!
# The live stream of alert events

Model of the events of both surveillance repositories (`_insert_event` and `events_after` of
`infrastructure/postgres_surveillance.py`, the events of `record_alert`, `triage_alert` and
`events_after` of `infrastructure/memory_surveillance.py`) and of the loop of
`surveillance_alert_live_stream` (`api/routers/surveillance.py`).

* The stream is a `Reader`: it asks for a page of at most 500 events, sends them one by one, the
  cursor being the id of the last one. It may be cut off and come back with the last id it received.
* `Postgres`: transactions that write an event, of any scope, one statement a step. The ids are
  drawn from one sequence, which no rollback resets, and a row is visible when its transaction
  commits. The locks on other rows (debounce states, alerts) only delay them.
* `Memory`: a call writes its event under the lock of the repository.
-/

namespace Scenara.Surveillance.LiveStream

open Scenara.Core

/-! ## Events -/

/-- `AlertEvent`, with its id and scope. -/
structure ScopedEvent extends AlertEvent where
  eventId : String
  tenantId : String
  projectId : String
  deriving DecidableEq

/-- The number of an event. -/
def cursorOf (event : ScopedEvent) : Nat := event.eventCursor

/-- `event.model_copy(update={"event_cursor": cursor})`. -/
def ScopedEvent.withCursor (event : ScopedEvent) (cursor : Nat) : ScopedEvent :=
  { event with eventCursor := cursor }

/-- The tenant and project of a subscriber. -/
structure Scope where
  tenantId : String
  projectId : String

/-- `event_key` of the memory repository. -/
def Scope.key (scope : Scope) : String × String := (scope.tenantId, scope.projectId)

/-- `events_after(context, cursor, limit=500)`. -/
def pageLimit : Nat := 500

/-- What a subscriber that started at `start` is promised of the events of its scope. -/
def Delivered (published : List ScopedEvent) (since : Nat → Nat) (start : Int)
    (r : Reader ScopedEvent) : Prop :=
  ∀ event ∈ published, start < event.eventCursor →
    r.received.count event ≤ 1 ∧
      (event.eventCursor + since event.eventCursor ≤ start + r.rounds → r.received.count event = 1)
  deriving Decidable

/-- A stream that has passed nothing by. -/
structure Streams (published : List ScopedEvent) (since : Nat → Nat) (start : Int)
    (r : Reader ScopedEvent) : Prop where
  sound : Reader.Sound cursorOf published start r
  whole : Reader.Whole cursorOf published start r
  timely : Reader.Timely cursorOf (fun event => since event.eventCursor) published start r

namespace Streams

variable {published : List ScopedEvent} {since since' : Nat → Nat} {start : Int}
  {r : Reader ScopedEvent} {event : ScopedEvent} {answer : Int → List ScopedEvent}

theorem begin (since : Nat → Nat) (start : Int) : Streams [] since start (Reader.begin start) :=
  ⟨Reader.Sound.begin _ _ _, Reader.Whole.begin _ _ _, fun _ he => (List.not_mem_nil he).elim⟩

section

variable (h : Streams published since start r)
include h

theorem delivered : Delivered published since start r := by
  intro event hevent hstart
  refine ⟨List.nodup_iff_count_le_one.1 h.sound.nodup event, fun hrounds => ?_⟩
  exact List.count_eq_one_of_mem h.sound.nodup
    (h.timely.taken h.sound h.whole hevent hstart hrounds)

theorem advance (hpage : ∀ cursor, Page cursorOf published cursor (answer cursor)) :
    Streams published since start (r.advance cursorOf answer) :=
  ⟨h.sound.advance hpage, h.whole.advance h.sound hpage, h.timely.advance h.sound h.whole hpage⟩

theorem drop : Streams published since start r.drop :=
  ⟨h.sound.drop, h.whole.drop h.sound, h.timely.drop⟩

theorem congr (hsince : ∀ e ∈ published, since' e.eventCursor = since e.eventCursor) :
    Streams published since' start r := by
  refine ⟨h.sound, h.whole, fun e he hstart hnot => ?_⟩
  dsimp only
  rw [hsince e he]
  exact h.timely e he hstart hnot

theorem publish (hnew : event ∉ published)
    (hahead : start < event.eventCursor → r.horizon cursorOf < event.eventCursor)
    (hold : ∀ e ∈ published, since' e.eventCursor = since e.eventCursor)
    (hsince : since' event.eventCursor = r.rounds) :
    Streams (published ++ [event]) since' start r :=
  ⟨h.sound.publish [event], (h.whole.publish h.sound hnew).2 hahead,
    h.timely.publish h.sound.started hold hsince⟩

end

end Streams

/-! ## PostgreSQL -/

namespace Postgres

/-- A row of `scenara_surveillance_alert_events`, as far as it is read. -/
structure EventRow where
  eventCursor : Nat
  eventId : String
  tenantId : String
  projectId : String
  document : ScopedEvent

/-- The row is of the scope. -/
def EventRow.inScope (scope : Scope) (row : EventRow) : Bool :=
  row.tenantId = scope.tenantId && row.projectId = scope.projectId

/-- The row after the UPDATE of its document. -/
def EventRow.updated (row : EventRow) : EventRow :=
  { row with document := row.document.withCursor row.eventCursor }

/-- A transaction of `record_alert` or `triage_alert`. -/
inductive Writer where
  /-- Before the INSERT of `_insert_event`. -/
  | begun (event : ScopedEvent)
  /-- Before its UPDATE of the document. -/
  | inserted (row : EventRow)
  /-- Before the outbox, the COMMIT, or an exception. -/
  | documented (row : EventRow)
  | ended

/-- The row that the transaction has written and not committed. -/
def Writer.row? : Writer → Option EventRow
  | .inserted row | .documented row => some row
  | .begun _ | .ended => none

/-- The events, those who write them and a subscriber. -/
structure State where
  rows : List EventRow
  sequence : Nat
  writers : List Writer
  subscriber : Reader ScopedEvent
  since : Nat → Nat

/-- One step. -/
inductive Act where
  | begin (event : ScopedEvent)
  | insert (i : Nat)
  | update (i : Nat)
  | commit (i : Nat)
  /-- A statement raises, or the transaction ends without an event. -/
  | rollback (i : Nat)
  /-- The next step of the loop: a poll, or an event that is sent. -/
  | stream
  /-- The connection is lost; the client comes back with the last id it received. -/
  | reconnect

/-- `events_after`. -/
def eventsAfter (scope : Scope) (rows : List EventRow) (cursor : Int) : List ScopedEvent :=
  (((rows.filter fun row => row.inScope scope && cursor < row.eventCursor).insertionSort
    fun a b => a.eventCursor ≤ b.eventCursor).take pageLimit).map EventRow.document

/-- The INSERT: it waits for an open transaction that wrote the same `event_id`, and raises
`UniqueViolation` if it is committed. The id is drawn either way. -/
def insertEvent (x : State) (i : Nat) (event : ScopedEvent) : Option State :=
  if x.writers.any fun w => (w.row?.map EventRow.eventId) = some event.eventId then none
  else
    let cursor := x.sequence + 1
    let writer : Writer :=
      if x.rows.any fun row => row.eventId = event.eventId then .ended
      else .inserted ⟨cursor, event.eventId, event.tenantId, event.projectId, event⟩
    some { x with sequence := cursor, writers := x.writers.set i writer }

/-- The COMMIT. -/
def commitEvent (x : State) (i : Nat) (row : EventRow) : State where
  rows := x.rows ++ [row]
  sequence := x.sequence
  writers := x.writers.set i .ended
  subscriber := x.subscriber
  since n := if n = row.eventCursor then x.subscriber.rounds else x.since n

/-- One step. -/
def step (scope : Scope) (x : State) : Act → Option State
  | .begin event => some { x with writers := x.writers ++ [.begun event] }
  | .insert i =>
    match x.writers[i]? with
    | some (.begun event) => insertEvent x i event
    | _ => none
  | .update i =>
    match x.writers[i]? with
    | some (.inserted row) =>
      some { x with writers := x.writers.set i (.documented row.updated) }
    | _ => none
  | .commit i =>
    match x.writers[i]? with
    | some (.documented row) => some (commitEvent x i row)
    | _ => none
  | .rollback i => some { x with writers := x.writers.set i .ended }
  | .stream =>
    some { x with subscriber := x.subscriber.advance cursorOf (eventsAfter scope x.rows) }
  | .reconnect => some { x with subscriber := x.subscriber.drop }

/-- An empty table and a subscriber at a cursor. -/
def init (start : Int) : State := ⟨[], 0, [], Reader.begin start, fun _ => 0⟩

/-- The committed events of a scope. -/
def State.published (scope : Scope) (x : State) : List ScopedEvent :=
  (x.rows.filter (EventRow.inScope scope)).map EventRow.document

/-- **The condition**: no event that is committed has an id at or below the last one that the stream
has asked for or received, unless it is none after the start. -/
def InOrder (scope : Scope) (start : Int) (x : State) : Act → Prop
  | .commit i => ∀ row, x.writers[i]? = some (.documented row) → row.inScope scope →
      start < row.eventCursor → x.subscriber.horizon cursorOf < row.eventCursor
  | _ => True

/-! ### Rows and their ids -/

variable {scope : Scope} {start : Int} {x y : State} {row : EventRow} {i : Nat}
    {event : ScopedEvent}

/-- The id was drawn, and no committed row has it. -/
def Drawn (rows : List EventRow) (sequence : Nat) (row : EventRow) : Prop :=
  row.eventCursor ≤ sequence ∧ ∀ r ∈ rows, r.eventCursor ≠ row.eventCursor

/-- What a transaction wrote has a cursor of its own. -/
def Writer.Ok (rows : List EventRow) (sequence : Nat) : Writer → Prop
  | .begun _ | .ended => True
  | .inserted row => Drawn rows sequence row
  | .documented row => Drawn rows sequence row ∧ row.document.eventCursor = row.eventCursor

/-- Two transactions wrote different cursors. -/
def Writer.Apart (v w : Writer) : Prop :=
  ∀ r s, v.row? = some r → w.row? = some s → r.eventCursor ≠ s.eventCursor

/-- The ids are drawn once, and the document of a committed row has its id. -/
structure Numbered (x : State) : Prop where
  committed : ∀ row ∈ x.rows, row.document.eventCursor = row.eventCursor ∧
    row.eventCursor ≤ x.sequence
  rows : x.rows.Pairwise fun a b => a.eventCursor ≠ b.eventCursor
  writers : Parties.Each (fun _ w => w.Ok x.rows x.sequence) x.writers
  apart : Parties.Apart Writer.Apart x.writers

theorem Writer.Apart.symm (v w : Writer) (h : v.Apart w) : w.Apart v :=
  fun r s hr hs => Ne.symm (h s r hs hr)

theorem Writer.Ok.drawn {w : Writer} {sequence : Nat} {rows : List EventRow}
    (h : w.Ok rows sequence) (hrow : w.row? = some row) : Drawn rows sequence row := by
  cases w with
  | begun | ended => cases hrow
  | inserted r => cases hrow; exact h
  | documented r => cases hrow; exact h.1

theorem Writer.Ok.mono {w : Writer} {sequence later : Nat} {rows more : List EventRow}
    (h : w.Ok rows sequence) (hle : sequence ≤ later)
    (hmore : ∀ row, w.row? = some row → ∀ r ∈ more, r.eventCursor ≠ row.eventCursor) :
    w.Ok (rows ++ more) later := by
  have hdrawn : ∀ row, w.row? = some row → Drawn (rows ++ more) later row := by
    intro row hrow
    refine ⟨(h.drawn hrow).1.trans hle, fun r hr => ?_⟩
    rcases List.mem_append.1 hr with hr | hr
    · exact (h.drawn hrow).2 r hr
    · exact hmore row hrow r hr
  cases w with
  | begun | ended => trivial
  | inserted row => exact hdrawn row rfl
  | documented row => exact ⟨hdrawn row rfl, h.2⟩

theorem Numbered.set (h : Numbered x) {w : Writer} (hok : w.Ok x.rows x.sequence)
    (hapart : ∀ j v, j ≠ i → x.writers[j]? = some v → w.Apart v) :
    Numbered { x with writers := x.writers.set i w } where
  committed := h.committed
  rows := h.rows
  writers := h.writers.set hok fun _ _ _ _ hv => hv
  apart := h.apart.set Writer.Apart.symm hapart

theorem Numbered.end (h : Numbered x) : Numbered { x with writers := x.writers.set i .ended } :=
  h.set trivial fun _ _ _ _ r _ hr => by cases hr

theorem Numbered.insert (h : Numbered x) (hs : insertEvent x i event = some y) : Numbered y := by
  have hlater : Numbered { x with sequence := x.sequence + 1 } :=
    ⟨fun row hrow => ⟨(h.committed row hrow).1, (h.committed row hrow).2.trans (Nat.le_succ _)⟩,
      h.rows, fun j w hw => by
        have hmono : w.Ok (x.rows ++ []) (x.sequence + 1) :=
          (h.writers j w hw).mono (Nat.le_succ x.sequence) fun _ _ r hr => by cases hr
        rwa [List.append_nil] at hmono, h.apart⟩
  rw [insertEvent] at hs
  split at hs
  · cases hs
  · cases hs
    split
    · exact hlater.end
    · refine hlater.set ⟨le_rfl, fun r hr => ?_⟩ fun j v _ hv r s hr hrow => ?_
      · exact Nat.ne_of_lt (Nat.lt_succ_of_le (h.committed r hr).2)
      · cases hr
        exact Nat.ne_of_gt (Nat.lt_succ_of_le ((h.writers j v hv).drawn hrow).1)

theorem Numbered.update (h : Numbered x) (hw : x.writers[i]? = some (.inserted row)) :
    Numbered { x with writers := x.writers.set i (.documented row.updated) } := by
  refine h.set ⟨h.writers i _ hw, rfl⟩ fun j v hj hv r s hr hrow => ?_
  cases hr
  exact h.apart i j _ v hw hv (Ne.symm hj) row s rfl hrow

theorem Numbered.commit (h : Numbered x) (hw : x.writers[i]? = some (.documented row)) :
    Numbered (commitEvent x i row) where
  committed r hr := by
    rcases Parties.mem_snoc.1 hr with hr | rfl
    · exact h.committed r hr
    · exact ⟨(h.writers i _ hw).2, (h.writers i _ hw).1.1⟩
  rows := by
    refine List.pairwise_append.2 ⟨h.rows, List.pairwise_singleton _ _, fun r hr s hs => ?_⟩
    rw [List.mem_singleton.1 hs]
    exact (h.writers i _ hw).1.2 r hr
  writers := by
    refine h.writers.set trivial fun j v hj hv hok => hok.mono le_rfl fun s hs r hr => ?_
    rw [List.mem_singleton.1 hr]
    exact h.apart i j _ v hw hv (Ne.symm hj) row s rfl hs
  apart := h.apart.set Writer.Apart.symm fun _ _ _ _ r _ hr => by cases hr

theorem Numbered.step {act : Act} (h : Numbered x) (hs : step scope x act = some y) :
    Numbered y := by
  cases act with
  | begin =>
    cases hs
    exact ⟨h.committed, h.rows, h.writers.append trivial,
      h.apart.append Writer.Apart.symm fun _ _ r _ hr => by cases hr⟩
  | insert i =>
    simp only [Postgres.step] at hs
    split at hs
    · exact h.insert hs
    · cases hs
  | update i =>
    simp only [Postgres.step] at hs
    split at hs
    · cases hs
      exact h.update ‹_›
    · cases hs
  | commit i =>
    simp only [Postgres.step] at hs
    split at hs
    · cases hs
      exact h.commit ‹_›
    · cases hs
  | rollback i => cases hs; exact h.end
  | stream | reconnect => cases hs; exact { h with }

/-! ### What the stream gets -/

theorem cursorOf_document (h : Numbered x) (hrow : row ∈ x.rows) :
    cursorOf row.document = row.eventCursor := (h.committed row hrow).1

theorem page_eventsAfter (h : Numbered x) (scope : Scope) (cursor : Int) :
    Page cursorOf (x.published scope) cursor (eventsAfter scope x.rows cursor) := by
  rw [eventsAfter, List.map_take]
  refine Page.of_take ?_ ?_ (Nat.succ_pos 499)
  · rw [List.pairwise_map]
    have hsorted := List.pairwise_insertionSort
        (fun a b : EventRow => a.eventCursor ≤ b.eventCursor)
      (x.rows.filter fun row => row.inScope scope && cursor < row.eventCursor)
    have hperm := List.perm_insertionSort (fun a b : EventRow => a.eventCursor ≤ b.eventCursor)
      (x.rows.filter fun row => row.inScope scope && cursor < row.eventCursor)
    have hne := (hperm.pairwise_iff fun {a b} hab => Ne.symm hab).2
      (h.rows.sublist List.filter_sublist)
    refine (hsorted.and hne).imp_of_mem fun {a b} ha hb hab => ?_
    have ha' := (List.mem_filter.1 (hperm.mem_iff.1 ha)).1
    have hb' := (List.mem_filter.1 (hperm.mem_iff.1 hb)).1
    rw [cursorOf_document h ha', cursorOf_document h hb']
    exact lt_of_le_of_ne hab.1 hab.2
  · intro e
    simp only [State.published, List.mem_map, List.mem_insertionSort, List.mem_filter,
      Bool.and_eq_true, decide_eq_true_eq]
    constructor
    · rintro ⟨row, ⟨hrow, hscope, hlt⟩, rfl⟩
      rw [cursorOf_document h hrow]
      exact ⟨⟨row, ⟨hrow, hscope⟩, rfl⟩, hlt⟩
    · rintro ⟨⟨row, ⟨hrow, hscope⟩, rfl⟩, hlt⟩
      rw [cursorOf_document h hrow] at hlt
      exact ⟨row, ⟨hrow, hscope, hlt⟩, rfl⟩

theorem published_commit (x : State) (i : Nat) (row : EventRow) (scope : Scope) :
    (commitEvent x i row).published scope =
      x.published scope ++ if row.inScope scope then [row.document] else [] := by
  rw [State.published, State.published, commitEvent, List.filter_append, List.map_append]
  congr 1
  cases hscope : row.inScope scope <;> simp [hscope]

theorem cursor_ne (h : Numbered x) (hw : x.writers[i]? = some (.documented row))
    (hevent : event ∈ x.published scope) : event.eventCursor ≠ row.eventCursor := by
  obtain ⟨r, hr, rfl⟩ := List.mem_map.1 hevent
  have hmem := (List.mem_filter.1 hr).1
  rw [(h.committed r hmem).1]
  exact (h.writers i _ hw).1.2 r hmem

theorem since_commit (h : Numbered x) (hw : x.writers[i]? = some (.documented row))
    (hevent : event ∈ x.published scope) :
    (commitEvent x i row).since event.eventCursor = x.since event.eventCursor :=
  if_neg (cursor_ne h hw hevent)

/-- **What is true of any run.** -/
structure Base (scope : Scope) (start : Int) (x : State) : Prop where
  numbered : Numbered x
  sound : Reader.Sound cursorOf (x.published scope) start x.subscriber

variable {act : Act}

theorem published_step (hs : step scope x act = some y) (hact : ∀ i, act ≠ .commit i) :
    y.published scope = x.published scope ∧ y.since = x.since := by
  cases act with
  | begin | rollback | stream | reconnect => cases hs; exact ⟨rfl, rfl⟩
  | insert i =>
    simp only [step, insertEvent] at hs
    split at hs
    · split at hs <;> cases hs
      exact ⟨rfl, rfl⟩
    · cases hs
  | update i =>
    simp only [step] at hs
    split at hs <;> cases hs
    exact ⟨rfl, rfl⟩
  | commit i => exact absurd rfl (hact i)

theorem subscriber_step (hs : step scope x act = some y) :
    y.subscriber = x.subscriber ∨ y.subscriber = x.subscriber.drop ∨
      y.subscriber = x.subscriber.advance cursorOf (eventsAfter scope x.rows) := by
  cases act with
  | begin | rollback => cases hs; exact .inl rfl
  | insert i =>
    simp only [step, insertEvent] at hs
    split at hs
    · split at hs <;> cases hs
      exact .inl rfl
    · cases hs
  | update | commit =>
    simp only [step] at hs
    split at hs <;> cases hs
    exact .inl rfl
  | stream => cases hs; exact .inr (.inr rfl)
  | reconnect => cases hs; exact .inr (.inl rfl)

theorem Base.step (h : Base scope start x) (hs : step scope x act = some y) :
    Base scope start y := by
  refine ⟨h.numbered.step hs, ?_⟩
  by_cases hcommit : ∃ i, act = .commit i
  · obtain ⟨i, rfl⟩ := hcommit
    simp only [Postgres.step] at hs
    split at hs <;> cases hs
    rw [published_commit]
    exact h.sound.publish _
  · rw [(published_step hs fun i hi => hcommit ⟨i, hi⟩).1]
    rcases subscriber_step hs with hsub | hsub | hsub <;> rw [hsub]
    · exact h.sound
    · exact h.sound.drop
    · exact h.sound.advance (page_eventsAfter h.numbered scope)

/-- **One step**: nothing is passed by exactly when no event is committed that the stream has asked
beyond. -/
theorem whole_step (h : Base scope start x)
    (hwhole : Reader.Whole cursorOf (x.published scope) start x.subscriber)
    (hs : step scope x act = some y) :
    Reader.Whole cursorOf (y.published scope) start y.subscriber ↔ InOrder scope start x act := by
  by_cases hcommit : ∃ i, act = .commit i
  · obtain ⟨i, rfl⟩ := hcommit
    simp only [Postgres.step] at hs
    split at hs <;> cases hs
    rename_i row hw
    have hdocument := (h.numbered.writers i _ hw).2
    have honly : InOrder scope start x (.commit i) ↔ (row.inScope scope → start < row.eventCursor →
        x.subscriber.horizon cursorOf < row.eventCursor) := by
      refine ⟨fun hlawful => hlawful row hw, fun hlawful r hr => ?_⟩
      rw [hw] at hr
      cases hr
      exact hlawful
    have hsubscriber : (commitEvent x i row).subscriber = x.subscriber := rfl
    rw [honly, published_commit, hsubscriber]
    cases hscope : row.inScope scope with
    | false => simpa using hwhole
    | true =>
      have hnew : row.document ∉ x.published scope := fun hmem =>
        cursor_ne h.numbered hw hmem hdocument
      have hiff := hwhole.publish h.sound hnew
      rw [cursorOf, hdocument] at hiff
      simpa using hiff
  · have hlawful : InOrder scope start x act := by
      cases act with
      | commit i => exact absurd ⟨i, rfl⟩ hcommit
      | _ => trivial
    rw [(published_step hs fun i hi => hcommit ⟨i, hi⟩).1]
    refine iff_of_true ?_ hlawful
    rcases subscriber_step hs with hsub | hsub | hsub <;> rw [hsub]
    · exact hwhole
    · exact hwhole.drop h.sound
    · exact hwhole.advance h.sound (page_eventsAfter h.numbered scope)

theorem streams_step (h : Numbered x)
    (hstreams : Streams (x.published scope) x.since start x.subscriber)
    (hlawful : InOrder scope start x act) (hs : step scope x act = some y) :
    Streams (y.published scope) y.since start y.subscriber := by
  by_cases hcommit : ∃ i, act = .commit i
  · obtain ⟨i, rfl⟩ := hcommit
    simp only [Postgres.step] at hs
    split at hs <;> cases hs
    rename_i row hw
    have hdocument := (h.writers i _ hw).2
    have hsince : ∀ e ∈ x.published scope,
        (commitEvent x i row).since e.eventCursor = x.since e.eventCursor :=
      fun e he => since_commit h hw he
    rw [published_commit]
    cases hscope : row.inScope scope with
    | false =>
      simp only [Bool.false_eq_true, if_false, List.append_nil]
      exact hstreams.congr hsince
    | true =>
      refine hstreams.publish (fun hmem => cursor_ne h hw hmem hdocument) ?_ hsince ?_
      · rw [hdocument]
        exact hlawful row hw hscope
      · rw [hdocument]
        exact if_pos rfl
  · have hstep : y.published scope = x.published scope ∧ y.since = x.since :=
      published_step hs fun i hi => hcommit ⟨i, hi⟩
    obtain ⟨hpublished, hsince⟩ := hstep
    rw [hpublished, hsince]
    rcases subscriber_step hs with hsub | hsub | hsub <;> rw [hsub]
    · exact hstreams
    · exact hstreams.drop
    · exact hstreams.advance (page_eventsAfter h scope)

theorem base_init (scope : Scope) (start : Int) : Base scope start (init start) where
  numbered :=
    ⟨fun _ hr => (List.not_mem_nil hr).elim, List.Pairwise.nil, Parties.Each.nil, Parties.Apart.nil⟩
  sound := Reader.Sound.begin _ _ _

/-! ### The stream goes on -/

/-- The loop goes on `n` steps, while nobody else does anything. -/
def State.goOn (scope : Scope) (x : State) (n : Nat) : State :=
  { x with subscriber := (Reader.advance cursorOf (eventsAfter scope x.rows))^[n] x.subscriber }

/-- **The promise** in a state: wherever the loop goes on, it has delivered what it should have. -/
def Promised (scope : Scope) (start : Int) (x : State) : Prop :=
  ∀ n, Delivered (x.published scope) x.since start (x.goOn scope n).subscriber

theorem promised_of_streams (h : Numbered x)
    (hstreams : Streams (x.published scope) x.since start x.subscriber) :
    Promised scope start x := by
  intro n
  have hgo : ∀ r, Streams (x.published scope) x.since start r →
      Streams (x.published scope) x.since start
      ((Reader.advance cursorOf (eventsAfter scope x.rows))^[n] r) := by
    induction n with
    | zero => exact fun r hr => hr
    | succ n ih => exact fun r hr => ih _ (hr.advance (page_eventsAfter h scope))
  exact (hgo _ hstreams).delivered

theorem whole_of_promised (h : Base scope start x) (hpromised : Promised scope start x) :
    Reader.Whole cursorOf (x.published scope) start x.subscriber := by
  intro event hevent hpassed
  have hpage := page_eventsAfter h.numbered scope
  obtain ⟨n, _⟩ := Reader.exists_rounds cursorOf (eventsAfter scope x.rows) x.subscriber
    (event.eventCursor + x.since event.eventCursor + start.natAbs)
  have hgo : ∀ m r, Reader.Sound cursorOf (x.published scope) start r →
      Reader.Passed cursorOf start r event → Reader.Passed cursorOf start
        ((Reader.advance cursorOf (eventsAfter scope x.rows))^[m] r) event := by
    intro m
    induction m with
    | zero => exact fun r _ hr => hr
    | succ m ih =>
      exact fun r hsound hr => ih _ (hsound.advance hpage)
        (Reader.passed_advance hr hsound hpage hevent)
  have hcount := (hpromised n event hevent hpassed.1).2 (by
    simp only [State.goOn]
    omega)
  have hmem : event ∈ (x.goOn scope n).subscriber.received := List.count_pos_iff.1 (by omega)
  exact (hgo n _ h.sound hpassed).2.2 (List.mem_append_left _ hmem)

/-- **The live stream over PostgreSQL**: every event that is committed after the start is delivered,
whenever the loop goes on, exactly when none is committed that the stream has asked beyond. -/
theorem promised_iff (scope : Scope) (start : Int) (acts : List Act) :
    (∀ x ∈ states (step scope) (init start) acts, Promised scope start x) ↔
      Along (step scope) (InOrder scope start) (init start) acts := by
  have hbase : ∀ x ∈ states (step scope) (init start) acts, Base scope start x :=
    invariant_states (P := fun _ _ => True) (fun _ _ _ h _ hs => h.step hs) (base_init scope start)
      (along_of_forall (fun _ _ => trivial) _ _)
  have hiff : (∀ x ∈ states (step scope) (init start) acts, Base scope start x ∧
        Reader.Whole cursorOf (x.published scope) start x.subscriber) ↔
      Along (step scope) (InOrder scope start) (init start) acts := states_iff
    (I := fun x => Base scope start x ∧
      Reader.Whole cursorOf (x.published scope) start x.subscriber)
    (fun x act hs => by
      cases act with
      | commit i =>
        intro _ hw
        simp only [step, hw] at hs
        cases hs
      | _ => trivial)
    (fun x act y h hs => (and_iff_right (h.1.step hs)).trans (whole_step h.1 h.2 hs))
    ⟨base_init scope start, Reader.Whole.begin _ _ _⟩
  constructor
  · intro hpromised
    exact hiff.1 fun x hx => ⟨hbase x hx, whole_of_promised (hbase x hx) (hpromised x hx)⟩
  · intro hlawful x hx
    have hstreams : Numbered x ∧ Streams (x.published scope) x.since start x.subscriber :=
      invariant_states (P := InOrder scope start)
        (I := fun x => Numbered x ∧ Streams (x.published scope) x.since start x.subscriber)
        (fun x act y h hact hs => ⟨h.1.step hs, streams_step h.1 h.2 hact hs⟩)
        ⟨(base_init scope start).numbered, Streams.begin _ start⟩ hlawful x hx
    exact promised_of_streams hstreams.1 hstreams.2

end Postgres

/-! ## The memory repository -/

namespace Memory

/-- The events, those who write them and a subscriber. -/
structure State where
  events : String × String → List ScopedEvent
  subscriber : Reader ScopedEvent
  since : Nat → Nat

/-- One step. -/
inductive Act where
  /-- `record_alert` or `triage_alert` writes the event. -/
  | write (event : ScopedEvent)
  | stream
  | reconnect

/-- The committed events of a scope. -/
def State.published (scope : Scope) (x : State) : List ScopedEvent := x.events scope.key

/-- `events_after`. -/
def eventsAfter (published : List ScopedEvent) (cursor : Int) : List ScopedEvent :=
  (published.filter fun event => cursor < event.eventCursor).take pageLimit

/-- `self._events[event_key].append(event)`, under the next number of its tenant and project. -/
def writeEvent (scope : Scope) (x : State) (event : ScopedEvent) : State :=
  let key := (event.tenantId, event.projectId)
  let stored := event.withCursor ((x.events key).length + 1)
  { x with
    events := fun k => if k = key then x.events key ++ [stored] else x.events k
    since := fun n =>
      if scope.key = key ∧ n = stored.eventCursor then x.subscriber.rounds else x.since n }

/-- One step. -/
def step (scope : Scope) (x : State) : Act → Option State
  | .write event => some (writeEvent scope x event)
  | .stream =>
    some { x with subscriber := x.subscriber.advance cursorOf (eventsAfter (x.published scope)) }
  | .reconnect => some { x with subscriber := x.subscriber.drop }

/-- Nothing stored, a subscriber at a cursor. -/
def init (start : Int) : State := ⟨fun _ => [], Reader.begin start, fun _ => 0⟩

variable {scope : Scope} {start : Int} {x y : State} {event : ScopedEvent}
    {published : List ScopedEvent}

/-- The events of a scope are numbered in their order. -/
structure Numbered (published : List ScopedEvent) : Prop where
  sorted : published.Pairwise fun a b => cursorOf a < cursorOf b
  bound : ∀ e ∈ published, cursorOf e ≤ published.length

theorem Numbered.append (h : Numbered published) (event : ScopedEvent) :
    Numbered (published ++ [event.withCursor (published.length + 1)]) where
  sorted := by
    refine List.pairwise_append.2 ⟨h.sorted, List.pairwise_singleton _ _, fun a ha b hb => ?_⟩
    rw [List.mem_singleton.1 hb]
    exact Nat.lt_succ_of_le (h.bound a ha)
  bound e he := by
    rw [List.length_append, List.length_singleton]
    rcases Parties.mem_snoc.1 he with he | rfl
    · exact (h.bound e he).trans (Nat.le_succ _)
    · exact le_rfl

theorem page_eventsAfter (h : Numbered published) (cursor : Int) :
    Page cursorOf published cursor (eventsAfter published cursor) := by
  refine Page.of_take (h.sorted.sublist List.filter_sublist) (fun e => ?_) (Nat.succ_pos 499)
  rw [List.mem_filter, decide_eq_true_eq]
  rfl

theorem streams_write {since since' : Nat → Nat} {r : Reader ScopedEvent}
    (hnum : Numbered published) (h : Streams published since start r)
    (hold : ∀ n, n ≤ published.length → since' n = since n)
    (hnew : since' (published.length + 1) = r.rounds) (event : ScopedEvent) :
    Streams (published ++ [event.withCursor (published.length + 1)]) since' start r := by
  refine h.publish (fun hmem => ?_) (fun hstart => ?_) (fun e he => hold _ (hnum.bound e he)) hnew
  · exact absurd (hnum.bound _ hmem) (Nat.not_le_of_lt (Nat.lt_succ_self _))
  · rcases h.sound.horizon_cases with heq | ⟨e, he, heq⟩
    · rwa [heq]
    · rw [heq]
      exact Int.ofNat_lt.2 (Nat.lt_succ_of_le (hnum.bound e he))

theorem streams_step {act : Act} (hnum : Numbered (x.published scope))
    (h : Streams (x.published scope) x.since start x.subscriber) (hs : step scope x act = some y) :
    Numbered (y.published scope) ∧ Streams (y.published scope) y.since start y.subscriber := by
  cases act with
  | write event =>
    cases hs
    by_cases hkey : scope.key = (event.tenantId, event.projectId)
    · have hpublished : (writeEvent scope x event).published scope =
          x.published scope ++ [event.withCursor ((x.published scope).length + 1)] := by
        simp [State.published, writeEvent, hkey]
      rw [hpublished]
      refine ⟨hnum.append event, streams_write hnum h (fun n hn => ?_) ?_ event⟩
      · refine if_neg fun hself => ?_
        have hlength : n = (x.published scope).length + 1 := by
          rw [State.published, hkey]
          exact hself.2
        omega
      · exact if_pos ⟨hkey, by rw [State.published, hkey]; rfl⟩
    · have hpublished : (writeEvent scope x event).published scope = x.published scope :=
        if_neg hkey
      rw [hpublished]
      exact ⟨hnum, h.congr fun e _ => if_neg fun hself => hkey hself.1⟩
  | stream =>
    cases hs
    exact ⟨hnum, h.advance (page_eventsAfter hnum)⟩
  | reconnect =>
    cases hs
    exact ⟨hnum, h.drop⟩

theorem delivered (scope : Scope) (start : Int) (acts : List Act) :
    ∀ x ∈ states (step scope) (init start) acts,
      Delivered (x.published scope) x.since start x.subscriber := by
  intro x hx
  have hinv : Numbered (x.published scope) ∧
      Streams (x.published scope) x.since start x.subscriber :=
    invariant_states (P := fun _ _ => True)
      (I := fun x => Numbered (x.published scope) ∧
        Streams (x.published scope) x.since start x.subscriber)
      (fun x act y h _ hs => streams_step h.1 h.2 hs)
      ⟨⟨List.Pairwise.nil, fun _ he => (List.not_mem_nil he).elim⟩, Streams.begin _ start⟩
      (along_of_forall (fun _ _ => trivial) _ _) x hx
  exact hinv.2.delivered

end Memory

/-- **The live stream** misses no event of the memory repository, and none of PostgreSQL exactly
when none is committed after the stream has asked beyond its id. -/
theorem live_stream_iff (scope : Scope) (start : Int) :
    (∀ acts, ∀ x ∈ states (Memory.step scope) (Memory.init start) acts,
      Delivered (x.published scope) x.since start x.subscriber) ∧
    ∀ acts, (∀ x ∈ states (Postgres.step scope) (Postgres.init start) acts,
        Postgres.Promised scope start x) ↔
      Along (Postgres.step scope) (Postgres.InOrder scope start) (Postgres.init start) acts :=
  ⟨Memory.delivered scope start, Postgres.promised_iff scope start⟩

/-- Two alerts of a project: the second transaction commits first, and the stream sends its event;
the first one commits, and the next poll is beyond it. -/
theorem late_commit_missed :
    let event : String → ScopedEvent := fun id =>
      ⟨⟨0, "alert.triggered", 0, id, 1, id, 0⟩, id, "acme", "main"⟩
    let acts : List Postgres.Act :=
      [.begin (event "e1"), .insert 0, .begin (event "e2"), .insert 1, .update 1, .commit 1,
        .stream, .stream, .update 0, .commit 0, .stream]
    ∃ x ∈ states (Postgres.step ⟨"acme", "main"⟩) (Postgres.init 0) acts,
      ¬Delivered (x.published ⟨"acme", "main"⟩) x.since 0 x.subscriber := by
  decide +kernel

end Scenara.Surveillance.LiveStream
