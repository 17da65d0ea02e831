import Scenara.Core.Dict
import Scenara.Core.Transition
import Scenara.Surveillance.Model

/-!
# Concurrent calls on one surveillance task

Model of `SurveillanceService.start_task` (and `resume_task`), `pause_task`, `update_task` and
`reconcile`, with `_stop_bindings` and `_reconcile_task` (`domains/portrait/surveillance.py`), one
repository or run-service call at a time, any number of them at once.

* `create_run` and `cancel_stream_session` always succeed; `create_run` gives the outcome that its
  idempotency key had before, or a new run, with a session if the source is a stream.
* `update_task` with bindings raises: `model_dump` makes dictionaries of them, and
  `_validate_task_references` asks for `binding.source_id`. Its schedule is a dictionary in memory:
  `_reconcile_task` may raise when it asks `is_active` (`fail`).
-/

namespace Scenara.Surveillance.Calls

open Scenara.Core

/-- `UpdateSurveillanceTaskRequest`, without the matching settings. -/
structure UpdateRequest where
  expectedRevision : Nat
  bindings : Option (List (TaskBinding Nat))
  schedule : Option Schedule

/-- Where a call is. -/
inductive Call where
  | start
  /-- In `_validate_task_references`. -/
  | startChecks (current : Task Nat)
  /-- Before `save_task`. -/
  | startSaves (current : Task Nat)
  /-- `start_task`, at the audit log. -/
  | started (stored : Task Nat)
  /-- `reconcile`, before `list_all_active_tasks`. -/
  | sweep (moment : Option ℚ)
  /-- `_reconcile_task`. -/
  | reconcile (task : Task Nat) (moment : Option ℚ)
  /-- In the loop of `_reconcile_task`: the bindings that are done, and the others. -/
  | creates (task : Task Nat) (done rest : List (TaskBinding Nat)) (changed : Bool)
  /-- `_reconcile_task`, before `save_task`. -/
  | stores (task : Task Nat) (bindings : List (TaskBinding Nat))
  /-- In `_stop_bindings`. -/
  | stops (sessions : List Nat)
  | pause
  | pauseSaves (current : Task Nat)
  | update (request : UpdateRequest)
  | updateChecks (request : UpdateRequest) (current : Task Nat)
  | updateSaves (request : UpdateRequest) (current : Task Nat)
  | ended

/-- The task, the runs of its streams and the calls. -/
structure State where
  task : Task Nat
  /-- The runs that were created, by their idempotency keys. -/
  created : Dict IdempotencyKey (CreatedRun Nat)
  cancelled : List Nat
  calls : List Call

namespace State

/-- A call goes on. -/
def go (x : State) (i : Nat) (call : Call) : State := { x with calls := x.calls.set i call }

/-- `create_run`. -/
def createRun (x : State) (key : IdempotencyKey) (runId : String) (stream : Bool) :
    State × CreatedRun Nat :=
  match x.created.get? key with
  | some run => (x, run)
  | none =>
    let run : CreatedRun Nat := ⟨runId, if stream then some x.created.entries.length else none⟩
    ({ x with created := x.created.insert key run }, run)

end State

/-- The sessions that `_stop_bindings` cancels. -/
def sessionsOf (bindings : List (TaskBinding Nat)) : List Nat :=
  bindings.filterMap TaskBinding.streamSessionId

/-- A binding with the run that was created for it. -/
def withRun (binding : TaskBinding Nat) (run : CreatedRun Nat) : TaskBinding Nat :=
  { binding with
    activeRunId := some run.runId
    streamSessionId := run.streamSessionId
    lastError := none }

/-- `task.model_copy(update={"bindings": ...})`; the loop keeps the ids. -/
def withBindings (task : Task Nat) (bindings : List (TaskBinding Nat)) (now : ℚ) :
    Option (Task Nat) :=
  if h : (bindings.map TaskBinding.bindingId).Nodup then
    some { task with bindings, updatedAt := now, nodup := h }
  else none

/-- `current.model_copy(update=updates)`. -/
def UpdateRequest.updated (request : UpdateRequest) (current : Task Nat) (now : ℚ) : Task Nat :=
  { current with schedule := request.schedule.getD current.schedule, updatedAt := now }

/-- The clock, and what the run service decides. -/
structure Moment where
  now : ℚ
  runId : String
  stream : Bool

/-- The next step of a call. -/
def stepCall (zone : String → ℚ → LocalTime) (x : State) (i : Nat) (now : Moment) :
    Call → Option State
  | .start =>
    match x.task.status with
    -- `SurveillanceConflict("expired surveillance task cannot be started")`
    | .active | .expired => some (x.go i .ended)
    | _ => some (x.go i (.startChecks x.task))
  | .startChecks current => some (x.go i (.startSaves current))
  | .startSaves current =>
    match saveTask x.task { current with status := .active, updatedAt :=
      now.now } current.revision with
    | some stored => some { x.go i (.started stored) with task := stored }
    | none => some (x.go i .ended)
  | .started stored => some (x.go i (.reconcile stored none))
  | .sweep moment =>
    some (x.go i (if x.task.status = .active then .reconcile x.task moment else .ended))
  | .reconcile task moment =>
    if task.status ≠ .active then some (x.go i .ended)
    else if !task.schedule.isActive zone (moment.getD now.now) then
      some (x.go i (.stops (sessionsOf task.bindings)))
    else some (x.go i (.creates task [] task.bindings false))
  | .creates task done [] changed => some (x.go i (if changed then .stores task done else .ended))
  | .creates task done (binding :: rest) changed =>
    match binding.streamSessionId with
    | some _ => some (x.go i (.creates task (done ++ [binding]) rest changed))
    | none =>
      let (y, run) := x.createRun (idempotencyKey task.taskId task.revision binding) now.runId
          now.stream
      some (y.go i (.creates task (done ++ [withRun binding run]) rest true))
  | .stores task bindings =>
    (withBindings task bindings now.now).bind fun updated =>
      match saveTask x.task updated task.revision with
      | some stored => some { x.go i .ended with task := stored }
      | none => some (x.go i .ended)
  | .stops [] => some (x.go i .ended)
  | .stops (session :: rest) =>
    some { x.go i (.stops rest) with cancelled := session :: x.cancelled }
  | .pause => some (x.go i (if x.task.status = .paused then .ended else .pauseSaves x.task))
  | .pauseSaves current =>
    match saveTask x.task { current with status := .paused, updatedAt :=
      now.now } current.revision with
    | some stored => some { x.go i (.stops (sessionsOf stored.bindings)) with task := stored }
    | none => some (x.go i .ended)
  | .update request => some (x.go i (.updateChecks request x.task))
  | .updateChecks request current =>
    some (x.go i (if request.bindings.isSome then .ended else .updateSaves request current))
  | .updateSaves request current =>
    match saveTask x.task (request.updated current now.now) request.expectedRevision with
    | some stored => some { x.go i .ended with task := stored }
    | none => some (x.go i .ended)
  | .ended => none

/-- A repository call, the audit log, or the schedule raises; a run-service call does not. -/
def Call.mayFail : Call → Bool
  | .creates _ _ _ _ | .stops _ | .ended => false
  | _ => true

/-- A new call. -/
inductive Request where
  | start
  | pause
  | update (request : UpdateRequest)
  | sweep (moment : Option ℚ)

/-- The call of a request. -/
def Request.call : Request → Call
  | .start => .start
  | .pause => .pause
  | .update request => .update request
  | .sweep moment => .sweep moment

/-- One step. -/
inductive Act where
  | request (request : Request)
  | go (i : Nat) (now : Moment)
  | fail (i : Nat)

/-- The state after a step, if it may be taken. -/
def step (zone : String → ℚ → LocalTime) (x : State) : Act → Option State
  | .request request => some { x with calls := x.calls ++ [request.call] }
  | .go i now => (x.calls[i]?).bind fun call => stepCall zone x i now call
  | .fail i =>
    (x.calls[i]?).bind fun call => if call.mayFail then some (x.go i .ended) else none

/-- A task no stream was started for. -/
def init (task : Task Nat) : State := ⟨task, Dict.empty, [], []⟩

end Scenara.Surveillance.Calls
