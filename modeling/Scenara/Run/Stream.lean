import Scenara.Core.Subscription
import Scenara.Run.Steps

/-!
# The event stream of a run

Model of `run_events` (`api/routers/runs.py`): the loop of `events_after`, the events that are sent,
and `get_run`, beside the workers and the transition calls of the run.

* `Streaming`: the run, one subscriber, and, for the statements, which call made the run terminal
  (`closer`, the revision it saved) and the ids of its events in the log (`closed`).
-/

namespace Scenara.Run

open Scenara.Core

/-! ## The loop -/

/-- Where the loop of `stream` is. -/
inductive Phase where
  | polling
  /-- About to send the first of the events, or, after the last one, to call `get_run`. `found` is
  whether there were any. -/
  | sending (events : List (RunEvent × Nat)) (found : Bool)
  | ended
  | disconnected

/-- `stream_events`, and what it has sent. -/
structure Subscriber where
  cursor : Int
  received : List (RunEvent × Nat)
  phase : Phase

/-- `events_after`. -/
def eventsAfter (s : Store) (cursor : Int) : List (RunEvent × Nat) := after cursor s.events

/-- One step of the loop. -/
def stepSubscriber (s : Store) (x : Subscriber) : Option Subscriber :=
  match x.phase with
  | .polling =>
    let events := eventsAfter s x.cursor
    some { x with phase := .sending events !events.isEmpty }
  | .sending (event :: events) found =>
    some { cursor := event.2, received := x.received ++ [event], phase := .sending events found }
  | .sending [] found =>
    some { x with phase := if s.run.status.terminal && !found then .ended else .polling }
  | .ended | .disconnected => none

/-! ## The events that end a run -/

/-- The revision of the record of an event, and its type. -/
abbrev Owed := Nat × String

/-- The events of the call that makes a run terminal. -/
def closing (eventType : String) : Bool :=
  eventType ∈ ["run.completed", "result.available", "run.failed", "run.error", "run.cancelled"]

/-- An event that is to be appended, if it is of the call that makes the run terminal. -/
def owed (run : RunRecord) (eventType : String) : List Owed :=
  if closing eventType then [(run.revision, eventType)] else []

/-- The events that the call still appends. -/
def Call.owes : Call → List Owed
  | .event run eventType next => owed run eventType ++ next.owes
  | _ => []

/-- The events that the worker still appends. -/
def Worker.owes : Worker → List Owed
  | .event run eventType next => owed run eventType ++ next.owes
  | .running _ calls _ => calls.flatMap Call.owes
  | _ => []

/-- The event that the client still appends. -/
def Client.owes : Client → List Owed
  | .event _ saved target => owed saved (statusEvent target)
  | _ => []

/-- The events that a call that has saved a status has still to append. -/
def System.owes (s : System) : List Owed :=
  s.workers.flatMap Worker.owes ++ s.clients.flatMap Client.owes

/-- The event that a step of the call appends. -/
def Call.appends : Call → Option Owed
  | .event run eventType _ => some (run.revision, eventType)
  | _ => none

/-- The event that the worker's step appends. -/
def Worker.appends : Worker → Choice → Option Owed
  | .event run eventType _, .go => some (run.revision, eventType)
  | .running _ calls _, .call k => calls[k]?.bind Call.appends
  | _, _ => none

/-- The event that the client's step appends. -/
def Client.appends : Client → Option Owed
  | .event _ saved target => some (saved.revision, statusEvent target)
  | _ => none

/-- The event that a step appends. -/
def System.appends (s : System) : Act → Option Owed
  | .worker i _ choice => s.workers[i]?.bind fun w => w.appends choice
  | .client j _ => s.clients[j]?.bind Client.appends
  | .deliver | .request _ => none

/-! ## The run and its subscriber -/

/-- The run and a subscriber of its events. -/
structure Streaming where
  system : System
  subscriber : Subscriber
  closer : Option Nat
  closed : List Nat

namespace Streaming

/-- One step. -/
inductive Act where
  /-- A step of a worker or of a transition call. -/
  | run (act : Run.Act)
  /-- Another event, such as the one of the result that a cancelled run keeps. -/
  | append (event : RunEvent)
  | poll
  | disconnect

/-- A subscriber that connects with a cursor. -/
def start (store : Store) (cursor : Int) : Streaming :=
  ⟨idle store, ⟨cursor, [], .polling⟩, none, []⟩

/-- The revision that made the run terminal, after a step. -/
def closerAfter (closer : Option Nat) (s s' : Store) : Option Nat :=
  if s.run.status.terminal = false ∧ s'.run.status.terminal = true then some s'.run.revision
  else closer

/-- The ids of the events of that call, after a step that appends `appended`. -/
def closedAfter (closer : Option Nat) (closed : List Nat) (s : Store) (appended : Option Owed) :
    List Nat :=
  match appended with
  | some (revision, eventType) =>
    if closer = some revision ∧ closing eventType = true then closed ++ [s.events.length + 1]
      else closed
  | none => closed

/-- One step. -/
def step (pausable : Bool) (x : Streaming) : Act → Option Streaming
  | .run act =>
    (Run.step pausable x.system act).map fun system =>
      { x with
        system
        closer := closerAfter x.closer x.system.store system.store
        closed := closedAfter x.closer x.closed x.system.store (x.system.appends act) }
  | .append event =>
    let store := x.system.store
    some { x with
      system := { x.system with store := { store with events := store.events ++ [event] } } }
  | .poll => (stepSubscriber x.system.store x.subscriber).map fun subscriber =>
      { x with subscriber }
  | .disconnect =>
    if x.subscriber.phase matches .ended then none
    else some { x with subscriber := { x.subscriber with phase := .disconnected } }

/-- The events of the call that made the run terminal that it has still to append. -/
def owes (x : Streaming) : List Owed := x.system.owes.filter fun owed => x.closer = some owed.1

end Streaming

end Scenara.Run
