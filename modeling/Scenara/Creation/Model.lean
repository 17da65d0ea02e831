import Scenara.Core.Dict
import Scenara.Run.Model

/-!
# Creating runs

Model of `RunService.create_run` and `wait` (`platform/services.py`) from the first call that writes
on, over `create_run_idempotent`, `delete_run`, `save_run` and `append_event` of the memory state
store (`infrastructure/memory_state.py`), for any number of calls at a time.

* One tenant and project: the keys of two never meet.
* One step is one backend call of one `create_run`; between two it keeps what it read in its program
  counter (`Call`). A backend call may raise instead, and then has no effect.
* The store keeps the event log of a run beside its record, so `_runs` and `_events` are one
  dictionary; the webhook deliveries of `append_event` are left out.
* Every call draws a run id; no two are the same (`RunIds`).
-/

namespace Scenara.Creation

open Scenara.Core Run

/-! ## The backends -/

/-- The state store (`_runs` with `_events`, `_idempotency`), and the runs `queue.enqueue` took. -/
structure Backend where
  runs : Dict String Run.Store
  idempotency : Dict String (String × String)
  enqueued : List String
  deriving DecidableEq

/-- Nothing stored. -/
def Backend.empty : Backend := ⟨.empty, .empty, []⟩

/-- `create_run_idempotent`: the stored run, and whether it is new. -/
def createRunIdempotent (b : Backend) (runId : String) (run : RunRecord) (idempotencyKey : String)
    (requestHash : String) : Except String (Backend × String × RunRecord × Bool) :=
  match b.idempotency.get? idempotencyKey with
  | some (existingHash, existingRunId) =>
    if existingHash ≠ requestHash then
      .error "idempotency key was already used for a different request"
    else
      match b.runs.get? existingRunId with
      | some existing => .ok (b, existingRunId, existing.run, false)
      | none => .error "KeyError"
  | none =>
    if b.runs.get? runId ≠ none then .error "run already exists"
    else
      .ok ({ b with
        runs := b.runs.insert runId ⟨run, []⟩
        idempotency := b.idempotency.insert idempotencyKey (requestHash, runId) }, runId, run, true)

/-- `delete_run`. -/
def deleteRun (b : Backend) (runId : String) : Backend :=
  { b with
    runs := b.runs.erase runId
    idempotency := b.idempotency.filter fun _ entry => entry.2 ≠ runId }

/-- `save_run`. -/
def saveRun (b : Backend) (runId : String) (updated : RunRecord) (expected : Nat) :
    Except String (Backend × RunRecord) :=
  match b.runs.get? runId with
  | none => .error "run does not exist"
  | some current =>
    match Run.saveRun current updated expected with
    | none => .error "run revision conflict"
    | some (saved, run) => .ok ({ b with runs := b.runs.insert runId saved }, run)

/-- `_event`. -/
def appendEvent (b : Backend) (runId : String) (run : RunRecord) (eventType : String) :
    Except String Backend :=
  match b.runs.get? runId with
  | none => .error "run does not exist"
  | some rows => .ok { b with runs := b.runs.insert runId (Run.appendEvent rows run eventType) }

/-! ## One call -/

/-- The request of a `create_run`, and the fields of the record that are read again. -/
structure Request where
  idempotencyKey : String
  requestHash : String
  now : ℚ
  sourceId : Option String
  streamSessionId : Option String
  /-- `wait_ms` is not zero. -/
  waits : Bool

/-- The `RunRecord` of a request. -/
def Request.run (request : Request) : RunRecord where
  status := .queued
  revision := 1
  progress := 0
  updatedAt := request.now
  startedAt := none
  completedAt := none
  errorCode := none
  terminationReason := none
  sourceId := request.sourceId
  streamSessionId := request.streamSessionId
  nextRunId := none

/-- What a call holds: `stored` and its id, and whether it will wait. -/
structure Held where
  runId : String
  stored : RunRecord
  waits : Bool
  deriving DecidableEq

/-- `CreateRunOutcome`. -/
structure Outcome where
  runId : String
  run : RunRecord
  created : Bool
  deriving DecidableEq

/-- A `create_run`, at its next backend call. -/
inductive Call where
  | consume (held : Held)
  | audit (held : Held)
  /-- The handler of the two: about to `delete_run`, then to raise again. -/
  | rollback (held : Held) (message : String)
  /-- About to append `run.queued`. -/
  | event (held : Held)
  | enqueue (held : Held)
  /-- `enqueue` raised: about to save `FAILED`. -/
  | fail (held : Held) (message : String)
  | failedEvent (held : Held)
  /-- In `wait`: about to read the run. -/
  | wait (held : Held) (created : Bool)
  | returned (outcome : Outcome)
  | raised (message : String)
  deriving DecidableEq

/-- What the environment decides at a step. -/
inductive Choice where
  | go
  /-- The last read of `wait`, after its deadline. -/
  | deadline
  | raise (message : String)

/-- `if request.wait_ms: …; return CreateRunOutcome(…)`. -/
def finish (held : Held) (created : Bool) : Call :=
  if held.waits then .wait held created else .returned ⟨held.runId, held.stored, created⟩

/-- The `FAILED` record of a run the queue did not take. -/
def failedRecord (now : ℚ) (run : RunRecord) (message : String) : RunRecord :=
  { run with
    status := .failed
    updatedAt := now
    errorCode := some "QUEUE_UNAVAILABLE"
    terminationReason := some (String.ofList (message.toList.take 500))
    completedAt := some now }

/-- One backend call. -/
def stepCall (now : ℚ) (b : Backend) : Call → Choice → Option (Backend × Call)
  | .consume held, .go => some (b, .audit held)
  | .consume held, .raise message => some (b, .rollback held message)
  | .audit held, .go => some (b, .event held)
  | .audit held, .raise message => some (b, .rollback held message)
  | .rollback held message, .go => some (deleteRun b held.runId, .raised message)
  -- `with suppress(Exception)`
  | .rollback _ message, .raise _ => some (b, .raised message)
  | .event held, .go =>
    match appendEvent b held.runId held.stored "run.queued" with
    | .ok b' => some (b', .enqueue held)
    | .error message => some (b, .raised message)
  -- no handler around this call
  | .event _, .raise message => some (b, .raised message)
  | .enqueue held, .go =>
    some ({ b with enqueued := b.enqueued ++ [held.runId] }, finish held true)
  | .enqueue held, .raise message => some (b, .fail held message)
  | .fail held message, .go =>
    match saveRun b held.runId (failedRecord now held.stored message) held.stored.revision with
    | .ok (b', saved) => some (b', .failedEvent { held with stored := saved })
    | .error message => some (b, .raised message)
  | .fail _ _, .raise message => some (b, .raised message)
  | .failedEvent held, .go =>
    match appendEvent b held.runId held.stored (statusEvent .failed) with
    | .ok b' => some (b', finish held true)
    | .error message => some (b, .raised message)
  | .failedEvent _, .raise message => some (b, .raised message)
  | .wait held created, .go =>
    match b.runs.get? held.runId with
    | none => some (b, .raised "run not found")
    | some latest =>
      if latest.run.status.terminal then some (b, .returned ⟨held.runId, latest.run, created⟩)
      else some (b, .wait held created)
  | .wait held created, .deadline =>
    match b.runs.get? held.runId with
    | none => some (b, .raised "run not found")
    | some latest => some (b, .returned ⟨held.runId, latest.run, created⟩)
  | .wait _ _, .raise message => some (b, .raised message)
  | _, _ => none

/-! ## The system -/

/-- `f"run_{uuid4().hex}"`, call by call. -/
abbrev RunIds := Fresh String

/-- The backends, and the calls that were made. -/
structure System where
  backend : Backend
  calls : List Call
  deriving DecidableEq

/-- Nothing stored, no call. -/
def System.empty : System := ⟨.empty, []⟩

/-- One step of the system. -/
inductive Act where
  /-- Somebody calls `create_run`, up to `create_run_idempotent`. -/
  | create (request : Request)
  | call (i : Nat) (now : ℚ) (choice : Choice)

/-- One step of the system. -/
def step (ids : RunIds) (s : System) : Act → Option System
  | .create request =>
    match createRunIdempotent s.backend (ids.draw s.calls.length) request.run request.idempotencyKey
        request.requestHash with
    | .ok (b, runId, stored, true) =>
      some ⟨b, s.calls ++ [.consume ⟨runId, stored, request.waits⟩]⟩
    | .ok (b, runId, stored, false) =>
      some ⟨b, s.calls ++ [finish ⟨runId, stored, request.waits⟩ false]⟩
    | .error message => some { s with calls := s.calls ++ [.raised message] }
  | .call i now choice =>
    match s.calls[i]? with
    | none => none
    | some c =>
      match stepCall now s.backend c choice with
      | none => none
      | some (b, c') => some ⟨b, s.calls.set i c'⟩

end Scenara.Creation
