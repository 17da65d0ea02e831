import Scenara.Run.Cancel

/-!
# Stream sessions

Model of `stream_session` and `cancel_stream_session` of `RunService` (`platform/services.py`) and
of `_rollover_stream_segment` (`platform/services_execution.py`) with the `create_run` that it
calls, for one session.

* A segment is a run with its worker and the transition calls on it (`Run.System`). The segments
  stand in the order of `stream_segment_index`; the idempotency key of a rollover names the index,
  so that there is one run for each.
-/

namespace Scenara.Session

open Scenara.Core
open Run (RunRecord RunStatus Worker Client)

/-! ## Segments -/

/-- The run that `create_run` stores for the segment after `run`. -/
def nextRun (run : RunRecord) (now : ℚ) : RunRecord where
  status := .queued
  revision := 1
  progress := 0
  updatedAt := now
  startedAt := none
  completedAt := none
  errorCode := none
  terminationReason := none
  sourceId := run.sourceId
  streamSessionId := run.streamSessionId
  nextRunId := none

/-- The `create_run` of a rollover, after `create_run_idempotent` has stored the run. -/
inductive Launch where
  /-- About to consume the quota and to record the audit event. -/
  | settling (stored : RunRecord)
  | announcing (stored : RunRecord)
  | enqueueing (stored : RunRecord)
  /-- `enqueue` raised: about to save `FAILED`. -/
  | failing (stored : RunRecord)
  | telling (saved : RunRecord)

/-! ## Cancel calls -/

/-- `cancel_stream_session`, at its next store call. -/
inductive Cancel where
  /-- `stream_session`: about to list the runs. -/
  | listing
  /-- About to get the last of them. -/
  | getting (i : Nat)
  /-- In `transition`, the transition call `j` of segment `i`. -/
  | transitioning (i j : Nat)
  | relisting
  | returned
  | raised

/-- The cancellation has returned. -/
def Cancel.hasReturned : Cancel → Bool
  | .returned => true
  | _ => false

/-! ## The session -/

/-- The segments and the cancellations of a session. -/
structure State where
  segments : List Run.System
  /-- The last segment is being created. -/
  launch : Option Launch
  cancels : List Cancel
  /-- A segment was created after a cancel call had returned. -/
  late : Bool

/-- A session whose first segment was handed to a worker. -/
def start (store : Run.Store) : State := ⟨[Run.started store], none, [], false⟩

/-- One step. -/
inductive Act where
  /-- A step of a worker, of a transition call, or somebody calls `transition`. -/
  | segment (i : Nat) (act : Run.Act)
  /-- A worker at its rollover calls `create_run_idempotent`. -/
  | insert (i : Nat) (now : ℚ)
  /-- The `create_run` of a rollover goes on, or what it calls raises. -/
  | launch (now : ℚ) (runId : String) (raises : Option String)
  | request
  | cancel (k : Nat)

/-- A worker that waits for its `create_run`, or a step that is not a segment's own. -/
def blocked (s : State) (segment : Run.System) : Run.Act → Bool
  | .deliver | .worker _ _ (.created _) => true
  | .worker k _ _ =>
    match segment.workers[k]? with
    | some (.rollover _) => s.launch.isSome
    | _ => false
  | _ => false

/-- The `create_run` of the rollover to the last segment returns or raises in the worker before. -/
def resume (pausable : Bool) (segments : List Run.System) (now : ℚ) (choice : Run.Choice) :
    Option (List Run.System) := do
  let i := segments.length - 2
  let parent ← segments[i]?
  let parent' ← Run.step pausable parent (.worker 0 now choice)
  return segments.set i parent'

/-- A step of the `create_run` of a rollover. -/
def stepLaunch (pausable : Bool) (s : State) (now : ℚ) (runId : String) (raises : Option String) :
    Option State := do
  let launch ← s.launch
  let last := s.segments.length - 1
  let segment ← s.segments[last]?
  match launch, raises with
  | .settling stored, none => return { s with launch := some (.announcing stored) }
  | .settling _, some message =>
    -- `delete_run`, and the rollover reports the error
    let segments ← resume pausable s.segments now (.raise "" message)
    return { s with segments := segments.dropLast, launch := none }
  | .announcing stored, none =>
    let announced := { segment with store := Run.appendEvent segment.store stored "run.queued" }
    return { s with segments := s.segments.set last announced, launch := some (.enqueueing stored) }
  | .enqueueing _, none =>
    let delivered := { segment with workers := segment.workers ++ [.start] }
    let segments ← resume pausable (s.segments.set last delivered) now (.created runId)
    return { s with segments, launch := none }
  | .enqueueing stored, some _ => return { s with launch := some (.failing stored) }
  | .failing stored, none =>
    let updated :=
      { stored with status := .failed, updatedAt := now, completedAt := some now,
                    errorCode := some "QUEUE_UNAVAILABLE" }
    match Run.saveRun segment.store updated stored.revision with
    | some (store, saved) =>
      return { s with
        segments := s.segments.set last { segment with store }
        launch := some (.telling saved) }
    | none =>
      let segments ← resume pausable s.segments now (.raise "" "run revision conflict")
      return { s with segments, launch := none }
  | .telling saved, none =>
    let told := { segment with store := Run.appendEvent segment.store saved "run.failed" }
    let segments ← resume pausable (s.segments.set last told) now (.created runId)
    return { s with segments, launch := none }
  | _, some _ => none

/-- The run of a worker that is at its rollover. -/
def rolloverRun (segment : Run.System) : Option RunRecord :=
  match (segment.workers[0]? : Option Worker) with
  | some (.rollover run) => some run
  | _ => none

/-- `create_run_idempotent` of the rollover of segment `i`. -/
def stepInsert (pausable : Bool) (s : State) (i : Nat) (now : ℚ) : Option State := do
  let segment ← s.segments[i]?
  let run ← rolloverRun segment
  if s.launch.isSome then none
  else if s.segments.length ≤ i + 1 then
    let stored := nextRun run now
    return { s with
      segments := s.segments ++ [Run.idle ⟨stored, []⟩]
      launch := some (.settling stored)
      late := s.late || s.cancels.any Cancel.hasReturned }
  else
    -- the key is there
    let segment' ← Run.step pausable segment (.worker 0 now (.created ""))
    return { s with segments := s.segments.set i segment' }

/-- The last segment as `stream_session` finds it, and then as `get_run` does. -/
def stepCancel (s : State) : Cancel → Option (State × Cancel)
  | .listing => some (s, if s.segments.isEmpty then .raised else .getting (s.segments.length - 1))
  | .getting i =>
    match s.segments[i]? with
    | none => some (s, .raised)
    | some segment =>
      if segment.store.run.status.terminal then some (s, .relisting)
      else
        let requested := { segment with clients := segment.clients ++ [.read 4 .cancel] }
        some ({ s with segments := s.segments.set i requested },
          .transitioning i segment.clients.length)
  | .transitioning i j =>
    match s.segments[i]? with
    | none => some (s, .raised)
    | some segment =>
      match segment.clients[j]? with
      | some (.returned .cancel _) => some (s, .relisting)
      | some (.invalid _) | some .conflict => some (s, .raised)
      | _ => none
  | .relisting => some (s, if s.segments.isEmpty then .raised else .returned)
  | .returned | .raised => none

/-- One step. -/
def step (pausable : Bool) (s : State) : Act → Option State
  | .segment i act => do
    let segment ← s.segments[i]?
    if blocked s segment act then none
    else
      let segment' ← Run.step pausable segment act
      return { s with segments := s.segments.set i segment' }
  | .insert i now => stepInsert pausable s i now
  | .launch now runId raises => stepLaunch pausable s now runId raises
  | .request => some { s with cancels := s.cancels ++ [.listing] }
  | .cancel k => do
    let c ← s.cancels[k]?
    let (s', c') ← stepCancel s c
    return { s' with cancels := s.cancels.set k c' }

/-- No worker and no call is in flight. -/
def State.quiet (s : State) : Prop :=
  s.launch = none ∧ (∀ segment ∈ s.segments, (∀ w ∈ segment.workers, w.over) ∧
    ∀ c ∈ segment.clients, c.over) ∧ ∀ c ∈ s.cancels, c = .returned ∨ c = .raised

end Scenara.Session
