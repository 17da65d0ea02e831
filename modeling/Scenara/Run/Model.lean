import Mathlib.Algebra.Order.Field.Rat
import Scenara.Core.Transition
import Scenara.Core.Versioned

/-!
# The life of one run: the state store, its workers and its callers

Model of the run lifecycle: `execute_run`, `_begin_execution`, `_checkpoint`, `_set_status`,
`report_progress` and `_rollover_stream_segment` (`platform/services_execution.py`),
`RunService.transition` (`platform/services.py`), and `save_run` / `append_event` of the state
store (`infrastructure/memory_state.py`).

* The store holds the run record and its event log. `saveRun` is the compare-and-swap on
  `revision`; `get_run` is reading `Store.run`.
* One step of the system is one store call of one party. Between two store calls a party keeps
  what it read in its program counter (`Worker`, `Call`, `Client`).
* The queue redelivers, so any number of workers execute the run. Inside one worker the pipeline
  keeps any number of `Call`s in flight: `PipelineRegistry._execute_operator` polls the
  checkpoint while the operator task reports progress and polls it too.
* What the pipeline does is not determined by the run record: it may make a further call, finish
  with a result, or fail (`Choice`). A raised `StateConflict` of a call is one of the ways it may
  fail; with `failure_policy = "retry"` it may also go on. `ExecutionStopped` is an
  `ExecutionInterrupted`, which `PipelineRegistry.execute` re-raises: a worker one of whose calls
  raised it (`stopped`) can no longer finish with a result, but a second error may come first.
* Calls that touch neither the record nor the log (media, secrets, object store, audit) are
  silent, except that they may make the worker fail while it holds no snapshot.
-/

namespace Scenara.Run

open Scenara.Core

/-! ## Records -/

/-- `RunStatus`. -/
inductive RunStatus where
  | queued
  | running
  | pausing
  | paused
  | completed
  | failed
  | cancelling
  | cancelled
  deriving DecidableEq

/-- Membership in `TERMINAL_RUN_STATUSES`. -/
def RunStatus.terminal : RunStatus → Bool
  | .completed | .failed | .cancelled => true
  | _ => false

/-- `RunStatus.value`. -/
def RunStatus.value : RunStatus → String
  | .queued => "queued"
  | .running => "running"
  | .pausing => "pausing"
  | .paused => "paused"
  | .completed => "completed"
  | .failed => "failed"
  | .cancelling => "cancelling"
  | .cancelled => "cancelled"

/-- `RunRecord`, the fields the lifecycle reads or writes. -/
structure RunRecord where
  status : RunStatus
  revision : Nat
  progress : ℚ
  updatedAt : ℚ
  startedAt : Option ℚ
  completedAt : Option ℚ
  errorCode : Option String
  terminationReason : Option String
  sourceId : Option String
  streamSessionId : Option String
  nextRunId : Option String
  deriving DecidableEq

/-- `RunEvent`: the type and the status of the record it was raised for. -/
structure RunEvent where
  eventType : String
  status : RunStatus
  deriving DecidableEq

/-- The state store, for one run. -/
structure Store where
  run : RunRecord
  events : List RunEvent
  deriving DecidableEq

/-- `save_run`: `none` is `StateConflict("run revision conflict")`. -/
def saveRun (s : Store) (updated : RunRecord) (expected : Nat) : Option (Store × RunRecord) :=
  let saved := { updated with revision := expected + 1 }
  (cas RunRecord.revision s.run saved expected).map fun r => ({ s with run := r }, r)

/-- `_event` / `append_event`. -/
def appendEvent (s : Store) (run : RunRecord) (eventType : String) : Store :=
  { s with events := s.events ++ [⟨eventType, run.status⟩] }

/-- The event of a status, `f"run.{status.value}"`. -/
def statusEvent (status : RunStatus) : String := "run." ++ status.value

/-! ## Calls inside the pipeline -/

/-- A `_checkpoint` or `report_progress` call of the pipeline, at its next store call. -/
inductive Call where
  /-- The head of `_checkpoint`'s loop: about to read the run. -/
  | checkpoint
  /-- Read `CANCELLING`: about to save `CANCELLED`. -/
  | checkpointCancel (latest : RunRecord)
  /-- Read `PAUSING`: about to save `PAUSED`. -/
  | checkpointPause (latest : RunRecord)
  /-- The head of `report_progress`'s loop, with `left` attempts left. -/
  | progress (left : Nat) (value : Option ℚ)
  /-- About to save `next` as the progress of `latest`. -/
  | progressSave (left : Nat) (value : Option ℚ) (latest : RunRecord) (next : ℚ)
  /-- About to append an event, then go on. -/
  | event (run : RunRecord) (eventType : String) (next : Call)
  | returned
  | conflict
  | stopped

/-- `_set_status` from a call: save, then the status event; `StateConflict` goes to the caller. -/
def Call.setStatus (s : Store) (run updated : RunRecord) (next : Call) : Store × Call :=
  match saveRun s updated run.revision with
  | some (s', saved) => (s', .event saved (statusEvent updated.status) next)
  | none => (s, .conflict)

/-- One store call of a pipeline call. -/
def stepCall (now : ℚ) (s : Store) : Call → Option (Store × Call)
  | .checkpoint =>
    match s.run.status with
    | .cancelling => some (s, .checkpointCancel s.run)
    | .pausing => some (s, .checkpointPause s.run)
    -- `asyncio.sleep(0.1); continue`
    | .paused => some (s, .checkpoint)
    -- the loop has no branch for a terminal status: `control.resume(); return`
    | _ => some (s, .returned)
  | .checkpointCancel latest =>
    some (Call.setStatus s latest
      { latest with
        status := .cancelled, updatedAt := now, completedAt := some now,
        terminationReason := some "cancelled_by_user" } .stopped)
  | .checkpointPause latest =>
    some (Call.setStatus s latest { latest with status := .paused, updatedAt := now } .checkpoint)
  -- four attempts, then `StateConflict("run progress could not be saved")`
  | .progress 0 _ => some (s, .conflict)
  | .progress (left + 1) value =>
    if s.run.status.terminal then some (s, .returned)
    else
      match value with
      | none => some (s, .event s.run "run.progress" .returned)
      | some p =>
        let next := max s.run.progress (min (99 / 100) p)
        if next ≤ s.run.progress then some (s, .returned)
        else some (s, .progressSave left value s.run next)
  | .progressSave left value latest next =>
    match saveRun s { latest with progress := next, updatedAt := now } latest.revision with
    | some (s', saved) => some (s', .event saved "run.progress" .returned)
    | none => some (s, .progress left value)
  | .event run eventType next => some (appendEvent s run eventType, next)
  | .returned | .conflict | .stopped => none

/-! ## Workers -/

/-- One `execute_run`, at its next store call. -/
inductive Worker where
  | start
  /-- The head of `_begin_execution`'s loop, with `left` attempts left. -/
  | begin (left : Nat) (run : RunRecord)
  /-- A conflict on `QUEUED`: about to read the run again. -/
  | beginReread (left : Nat)
  /-- Preparing the input and executing the pipeline, up to `_store_result` and the evaluators. -/
  | running (run : RunRecord) (calls : List Call) (stopped : Bool)
  /-- The result is stored: about to read the run for the `COMPLETED` save. -/
  | completeRead (run : RunRecord) (termination : Option String)
  /-- About to record the audit entry and save `COMPLETED`. -/
  | complete (run latest : RunRecord) (termination : Option String)
  /-- `create_run` of the next stream segment returned: about to read the run. -/
  | rolloverRead (run : RunRecord) (nextRunId : String)
  /-- About to save the next segment's id. -/
  | rolloverSave (latest : RunRecord) (nextRunId : String)
  /-- The `ExecutionStopped` handler: about to read the run. -/
  | stopRead
  | stopSave (latest : RunRecord)
  /-- The `Exception` handler: about to read the run. -/
  | failRead (code message : String)
  | failSave (latest : RunRecord) (code message : String)
  /-- About to append an event, then go on. -/
  | event (run : RunRecord) (eventType : String) (next : Worker)
  /-- About to create the next stream segment's run, which may fail. -/
  | rollover (run : RunRecord)
  | returned
  /-- A handler itself raised. -/
  | raised

/-- What a worker's environment decides at a step. -/
inductive Choice where
  | go
  | callCheckpoint
  | callProgress (value : Option ℚ)
  /-- The pipeline's `k`-th call makes its pending store call. -/
  | call (k : Nat)
  /-- The pipeline returned a result (with its `media_termination`) and it was stored. -/
  | finish (termination : Option String)
  /-- An operation other than a run save raised. -/
  | raise (code message : String)
  /-- `ExecutionStopped` reached `execute_run`. -/
  | stop
  /-- `create_run` of the next segment returned this run id. -/
  | created (runId : String)

/-- `_set_status` from `execute_run`, with what its `StateConflict` leads to. -/
def Worker.setStatus (s : Store) (run updated : RunRecord) (next onConflict : Worker) :
    Store × Worker :=
  match saveRun s updated run.revision with
  | some (s', saved) => (s', .event saved (statusEvent updated.status) next)
  | none => (s, onConflict)

/-- The `Exception` handler's code for a `StateConflict`. -/
def conflictFailure : Worker :=
  .failRead "PIPELINE_EXECUTION_FAILED" "run revision conflict"

/-- What follows `_begin_execution` when it returned `run`. -/
def afterBegin (run : RunRecord) : Worker :=
  if run.status = .cancelled then .returned
  else if run.sourceId.isSome ∧ run.streamSessionId.isSome then
    .event run "stream.segment.started" (.running run [] false)
  else .running run [] false

/-- What follows the `result.available` event of a completed run. -/
def afterComplete (run : RunRecord) (termination : Option String) : Worker :=
  if run.sourceId.isSome ∧ run.streamSessionId.isSome ∧
      termination = some "segment_window_completed" then .rollover run
  else .returned

/-- `_begin_execution` at the head of its loop. -/
def stepBegin (now : ℚ) (s : Store) (left : Nat) (run : RunRecord) : Store × Worker :=
  match left with
  | 0 => (s, .failRead "PIPELINE_EXECUTION_FAILED" "run could not acquire execution state")
  | left + 1 =>
    match run.status with
    | .completed | .failed | .cancelled => (s, afterBegin run)
    | .cancelling =>
      -- the saved record is `CANCELLED`, so `execute_run` returns
      Worker.setStatus s run
        { run with
          status := .cancelled, updatedAt := now, completedAt := some now,
          terminationReason := some "cancelled_by_user" } .returned conflictFailure
    | .queued =>
      let updated := { run with status := .running, updatedAt := now, startedAt := some now }
      Worker.setStatus s run updated (afterBegin { updated with revision := run.revision + 1 })
        (.beginReread left)
    | .running | .pausing | .paused => (s, afterBegin run)

/-- A worker that is executing its pipeline. -/
def stepRunning (now : ℚ) (s : Store) (run : RunRecord) (calls : List Call) (stopped : Bool) :
    Choice → Option (Store × Worker)
  | .callCheckpoint => some (s, .running run (calls ++ [.checkpoint]) stopped)
  | .callProgress value => some (s, .running run (calls ++ [.progress 4 value]) stopped)
  | .call k =>
    match calls[k]? with
    | none => none
    | some c =>
      match stepCall now s c with
      | none => none
      | some (s', .stopped) => some (s', .running run (calls.set k .stopped) true)
      | some (s', c') => some (s', .running run (calls.set k c') stopped)
  | .finish termination => if stopped then none else some (s, .completeRead run termination)
  | .raise code message => some (s, .failRead code message)
  | .stop => if stopped then some (s, .stopRead) else none
  | _ => none

/-- One step of a worker. -/
def stepWorker (now : ℚ) (s : Store) : Worker → Choice → Option (Store × Worker)
  | .start, .go =>
    if s.run.status.terminal then some (s, .returned) else some (s, .begin 4 s.run)
  | .begin left run, .go => some (stepBegin now s left run)
  | .beginReread left, .go => some (s, .begin left s.run)
  | .running run calls stopped, choice => stepRunning now s run calls stopped choice
  | .completeRead run termination, .go => some (s, .complete run s.run termination)
  | .complete run latest termination, .go =>
    -- no test of `latest.status` here
    let updated :=
      { latest with
        status := .completed, updatedAt := now, progress := 1, completedAt := some now,
        terminationReason := termination }
    some (Worker.setStatus s latest updated
      (.event { updated with revision := latest.revision + 1 } "result.available"
        (afterComplete run termination)) conflictFailure)
  -- `audit.record` raised
  | .complete _ _ _, .raise code message => some (s, .failRead code message)
  | .rollover run, .created runId => some (s, .rolloverRead run runId)
  | .rollover run, .raise _ _ => some (s, .event run "stream.session.error" .returned)
  | .rolloverRead _ nextRunId, .go =>
    if s.run.nextRunId = some nextRunId then
      some (s, .event s.run "stream.segment.completed" .returned)
    else some (s, .rolloverSave s.run nextRunId)
  | .rolloverSave latest nextRunId, .go =>
    match saveRun s { latest with nextRunId := some nextRunId, updatedAt := now }
        latest.revision with
    | some (s', saved) => some (s', .event saved "stream.segment.completed" .returned)
    | none => some (s, .event latest "stream.segment.completed" .returned)
  | .stopRead, .go =>
    if s.run.status = .cancelled then some (s, .returned) else some (s, .stopSave s.run)
  | .stopSave latest, .go =>
    some (Worker.setStatus s latest
      { latest with
        status := .cancelled, updatedAt := now, completedAt := some now,
        terminationReason := some "cancelled_by_user" } .returned .raised)
  | .failRead code message, .go =>
    if s.run.status.terminal then some (s, .returned) else some (s, .failSave s.run code message)
  | .failSave latest code message, .go =>
    let updated :=
      { latest with
        status := .failed, updatedAt := now, completedAt := some now, errorCode := some code,
        terminationReason := some message }
    some (Worker.setStatus s latest updated
      (.event { updated with revision := latest.revision + 1 } "run.error" .returned) .raised)
  | .event run eventType next, .go => some (appendEvent s run eventType, next)
  | _, _ => none

/-! ## Transition calls -/

/-- The lifecycle action of a `transition` call. -/
inductive Action where
  | pause
  | resume
  | cancel
  deriving DecidableEq

/-- One `RunService.transition`, at its next store call. -/
inductive Client where
  /-- The head of the loop, with `left` attempts left: about to read the run. -/
  | read (left : Nat) (action : Action)
  /-- About to save `target`. -/
  | save (left : Nat) (action : Action) (run : RunRecord) (target : RunStatus)
  /-- Saved: about to append the status event. -/
  | event (action : Action) (saved : RunRecord) (target : RunStatus)
  /-- Returned the saved record. -/
  | returned (action : Action) (saved : RunRecord)
  | invalid (message : String)
  | conflict

/-- The target status of an action, or the text of `InvalidTransition`. -/
def target (pausable : Bool) (action : Action) (status : RunStatus) : Except String RunStatus :=
  match action with
  | .pause =>
    if !pausable then .error "this pipeline does not support pause"
    else if status ≠ .running then .error "only a running run can be paused"
    else .ok .pausing
  | .resume =>
    if status ≠ .paused then .error "only a paused run can be resumed" else .ok .running
  | .cancel =>
    if status.terminal then .error "a terminal run cannot be cancelled"
    else if status = .queued ∨ status = .paused ∨ status = .cancelling then .ok .cancelled
    else .ok .cancelling

/-- The `updates` of a transition applied to `run`. -/
def transitionRecord (now : ℚ) (run : RunRecord) (target : RunStatus) : RunRecord :=
  if target = .cancelled then
    { run with
      status := target, updatedAt := now, completedAt := some now,
      terminationReason := match run.terminationReason with
        | some reason => if reason = "" then some "cancelled_by_user" else some reason
        | none => some "cancelled_by_user" }
  else { run with status := target, updatedAt := now }

/-- One store call of `transition`. -/
def stepClient (pausable : Bool) (now : ℚ) (s : Store) : Client → Option (Store × Client)
  | .read 0 _ => some (s, .conflict)
  | .read (left + 1) action =>
    match target pausable action s.run.status with
    | .error message => some (s, .invalid message)
    | .ok target => some (s, .save left action s.run target)
  | .save left action run target =>
    match saveRun s (transitionRecord now run target) run.revision with
    | some (s', saved) => some (s', .event action saved target)
    | none => some (s, .read left action)
  | .event action saved target =>
    some (appendEvent s saved (statusEvent target), .returned action saved)
  | .returned _ _ | .invalid _ | .conflict => none

/-! ## The system -/

/-- The store, the workers that were started and the transition calls that were made. -/
structure System where
  store : Store
  workers : List Worker
  clients : List Client

/-- One step of the system. -/
inductive Act where
  /-- The queue delivers the run to a further worker. -/
  | deliver
  | request (action : Action)
  | worker (i : Nat) (now : ℚ) (choice : Choice)
  | client (j : Nat) (now : ℚ)

/-- One step of the system, for a pipeline that is `pausable` or not. -/
def step (pausable : Bool) (s : System) : Act → Option System
  | .deliver => some { s with workers := s.workers ++ [.start] }
  | .request action => some { s with clients := s.clients ++ [.read 4 action] }
  | .worker i now choice =>
    match s.workers[i]? with
    | none => none
    | some w =>
      match stepWorker now s.store w choice with
      | none => none
      | some (store, w') => some { s with store := store, workers := s.workers.set i w' }
  | .client j now =>
    match s.clients[j]? with
    | none => none
    | some c =>
      match stepClient pausable now s.store c with
      | none => none
      | some (store, c') => some { s with store := store, clients := s.clients.set j c' }

/-- A stored run nobody works on yet. -/
def idle (store : Store) : System := ⟨store, [], []⟩

end Scenara.Run
