import Mathlib.Algebra.Order.Field.Rat
import Mathlib.Data.List.Nodup
import Scenara.Core.Versioned

/-!
# A surveillance task and its streams

Model of `SurveillanceService.start_task`, `pause_task`, `resume_task`, `reconcile` and the two
private methods they share, `_stop_bindings` and `_reconcile_task`
(`domains/portrait/surveillance.py`), of the schedule (`platform/surveillance.py`) and of
`save_task` (`infrastructure/memory_surveillance.py`), for one task and calls made one at a time.

* `StreamRunPort` is the protocol class of the same name: the run service as far as the surveillance
  service uses it. Its laws are what the service counts on: `create_run` succeeds, with a session
  nobody has cancelled, for an idempotency key that was not used before; `cancel_stream_session`
  cancels one session.
* The conversion of a moment into the local time of a zone is the standard library's, a parameter.
* A session id that is absent or empty is `none`.
-/

namespace Scenara.Surveillance

open Scenara.Core

/-! ## Schedules -/

/-- `ScheduleWindow`; the clock times in minutes, `24:00` is 1440. -/
structure ScheduleWindow where
  weekday : Nat
  start : Nat
  stop : Nat
  deriving DecidableEq

/-- `ScheduleException`. -/
structure ScheduleException where
  date : String
  enabled : Bool
  deriving DecidableEq

/-- `SurveillanceSchedule`. -/
structure Schedule where
  timezone : String
  weekly : List ScheduleWindow
  exceptions : List ScheduleException
  deriving DecidableEq

/-- A moment in a zone: date, weekday, and the clock in microseconds. -/
structure LocalTime where
  date : String
  isoweekday : Nat
  clock : Nat

/-- Microseconds of a minute of the day; `24:00` is `time.max`, the last microsecond. -/
def clockTime (minutes : Nat) : Nat :=
  if minutes = 1440 then 86400000000 - 1 else minutes * 60000000

/-- `is_active`: an exception of the day decides, then the weekly windows; none means always. -/
def Schedule.isActive (zone : String → ℚ → LocalTime) (s : Schedule) (moment : ℚ) : Bool :=
  let here := zone s.timezone moment
  match s.exceptions.find? fun e => e.date = here.date with
  | some e => e.enabled
  | none =>
    s.weekly.isEmpty || s.weekly.any fun w =>
      w.weekday = here.isoweekday && clockTime w.start ≤ here.clock && here.clock < clockTime w.stop

/-! ## Tasks -/

/-- `SurveillanceTaskStatus`. -/
inductive TaskStatus where
  | draft
  | active
  | paused
  | expired
  | failed
  deriving DecidableEq

/-- `TaskBinding`. -/
structure TaskBinding (Session : Type) where
  bindingId : String
  sourceId : String
  cameraId : String
  activeRunId : Option String
  streamSessionId : Option Session
  lastError : Option String

/-- `SurveillanceTask`, without the matching settings; its binding ids are distinct. -/
structure Task (Session : Type) where
  taskId : String
  status : TaskStatus
  bindings : List (TaskBinding Session)
  schedule : Schedule
  updatedAt : ℚ
  revision : Nat
  nodup : (bindings.map TaskBinding.bindingId).Nodup

/-- `save_task`: `none` is `SurveillanceConflict("surveillance task revision conflict")`. -/
def saveTask {Session : Type} (current task : Task Session) (expectedRevision : Nat) :
    Option (Task Session) :=
  cas Task.revision current { task with revision := expectedRevision + 1 } expectedRevision

/-! ## The run service -/

/-- `f"surveillance:{task.task_id}:{binding.binding_id}:{task.revision}"`. -/
structure IdempotencyKey where
  taskId : String
  bindingId : String
  revision : Nat
  deriving DecidableEq

/-- The `CreateRunRequest` of a binding. -/
structure CreateRunRequest where
  domain : String
  pipelineId : String
  version : String
  sourceId : String
  cameraId : String

/-- The run of a `create_run` outcome. -/
structure CreatedRun (Session : Type) where
  runId : String
  streamSessionId : Option Session

/-- `StreamRunPort`. -/
structure StreamRunPort (Session Runs : Type) where
  createRun : Runs → CreateRunRequest → IdempotencyKey → Runs × Except String (CreatedRun Session)
  cancelStreamSession : Runs → Session → Runs
  Used : Runs → IdempotencyKey → Prop
  Cancelled : Runs → Session → Prop
  createRun_ok : ∀ {runs key} request, ¬Used runs key →
    ∃ runId session, (createRun runs request key).2 = .ok ⟨runId, some session⟩ ∧
      ¬Cancelled runs session
  used_createRun : ∀ {runs key} request key', Used (createRun runs request key).1 key' ↔
    Used runs key' ∨ key' = key
  cancelled_createRun : ∀ {runs key} request session, ¬Used runs key →
    (Cancelled (createRun runs request key).1 session ↔ Cancelled runs session)
  used_cancel : ∀ {runs} session key, Used (cancelStreamSession runs session) key ↔ Used runs key
  cancelled_cancel : ∀ {runs} session session',
    Cancelled (cancelStreamSession runs session) session' ↔ Cancelled runs session' ∨
      session' = session

variable {Session Runs : Type}

/-- The key of a binding. -/
def idempotencyKey (taskId : String) (revision : Nat) (binding : TaskBinding Session) :
    IdempotencyKey :=
  ⟨taskId, binding.bindingId, revision⟩

/-- The request of a binding. -/
def runRequest (binding : TaskBinding Session) : CreateRunRequest :=
  ⟨"portrait", "portrait.analysis", "0.4.0", binding.sourceId, binding.cameraId⟩

/-- `_stop_bindings`. The bindings keep their session ids. -/
def stopBindings (port : StreamRunPort Session Runs) (runs : Runs)
    (bindings : List (TaskBinding Session)) : Runs :=
  bindings.foldl (fun runs binding =>
    match binding.streamSessionId with
    | some session => port.cancelStreamSession runs session
    | none => runs) runs

/-- One turn of the loop of `_reconcile_task`: the binding, and whether it changed. -/
def startBinding (port : StreamRunPort Session Runs) (taskId : String) (revision : Nat)
    (runs : Runs) (binding : TaskBinding Session) : Runs × TaskBinding Session × Bool :=
  match binding.streamSessionId with
  | some _ => (runs, binding, false)
  | none =>
    match port.createRun runs (runRequest binding) (idempotencyKey taskId revision binding) with
    | (runs, .ok run) =>
      (runs, { binding with
          activeRunId := some run.runId
          streamSessionId := run.streamSessionId
          lastError := none }, true)
    | (runs, .error message) =>
      (runs, { binding with lastError := some (String.ofList (message.toList.take 500)) }, true)

/-- The loop of `_reconcile_task`. -/
def startBindings (port : StreamRunPort Session Runs) (taskId : String) (revision : Nat) :
    Runs → List (TaskBinding Session) → Runs × List (TaskBinding Session) × Bool
  | runs, [] => (runs, [], false)
  | runs, binding :: rest =>
    let (runs, binding, changed) := startBinding port taskId revision runs binding
    let (runs, rest, changed') := startBindings port taskId revision runs rest
    (runs, binding :: rest, changed || changed')

theorem startBinding_id (port : StreamRunPort Session Runs) (taskId : String) (revision : Nat)
    (runs : Runs) (binding : TaskBinding Session) :
    (startBinding port taskId revision runs binding).2.1.bindingId = binding.bindingId := by
  unfold startBinding
  split
  · rfl
  · split <;> rfl

theorem startBindings_ids (port : StreamRunPort Session Runs) (taskId : String) (revision : Nat)
    (runs : Runs) (bindings : List (TaskBinding Session)) :
    (startBindings port taskId revision runs bindings).2.1.map TaskBinding.bindingId =
      bindings.map TaskBinding.bindingId := by
  induction bindings generalizing runs with
  | nil => rfl
  | cons _ _ ih =>
    rw [startBindings, List.map_cons, List.map_cons, startBinding_id, ih]

/-! ## The service -/

/-- The stored task and the run service. -/
structure System (Session Runs : Type) where
  task : Task Session
  runs : Runs

/-- `_reconcile_task`; without a `moment` the schedule is asked about the clock. -/
def reconcileTask (zone : String → ℚ → LocalTime) (port : StreamRunPort Session Runs)
    (s : System Session Runs) (task : Task Session) (now : ℚ) (moment : Option ℚ) :
    System Session Runs :=
  if task.status ≠ .active then s
  else if !task.schedule.isActive zone (moment.getD now) then
    { s with runs := stopBindings port s.runs task.bindings }
  else
    let started := startBindings port task.taskId task.revision s.runs task.bindings
    if !started.2.2 then { s with runs := started.1 }
    else
      let updated : Task Session :=
        { task with
          bindings := started.2.1
          updatedAt := now
          nodup := by rw [startBindings_ids]; exact task.nodup }
      match saveTask s.task updated task.revision with
      | some stored => ⟨stored, started.1⟩
      | none => { s with runs := started.1 }

/-- `start_task`; `valid`: `_validate_task_references` finds the watchlists, sources and cameras. -/
def startTask (zone : String → ℚ → LocalTime) (port : StreamRunPort Session Runs)
    (s : System Session Runs) (now : ℚ) (valid : Bool) : System Session Runs :=
  if s.task.status = .active then s
  -- `SurveillanceConflict("expired surveillance task cannot be started")`
  else if s.task.status = .expired then s
  else if !valid then s
  else
    match saveTask s.task { s.task with status := .active, updatedAt := now } s.task.revision with
    | some stored => reconcileTask zone port { s with task := stored } stored now none
    | none => s

/-- `pause_task`. -/
def pauseTask (port : StreamRunPort Session Runs) (s : System Session Runs) (now : ℚ) :
    System Session Runs :=
  if s.task.status = .paused then s
  else
    match saveTask s.task { s.task with status := .paused, updatedAt := now } s.task.revision with
    | some stored => ⟨stored, stopBindings port s.runs stored.bindings⟩
    | none => s

/-- A call of the service. `now` is the clock; `reconcile` may be given another moment. -/
inductive Act where
  | start (now : ℚ) (valid : Bool)
  | pause (now : ℚ)
  | resume (now : ℚ) (valid : Bool)
  | reconcile (now : ℚ) (moment : Option ℚ)

/-- The effect of a call. `resume_task` is `start_task`; `reconcile` visits the active tasks. -/
def apply (zone : String → ℚ → LocalTime) (port : StreamRunPort Session Runs)
    (s : System Session Runs) : Act → System Session Runs
  | .start now valid => startTask zone port s now valid
  | .pause now => pauseTask port s now
  | .resume now valid => startTask zone port s now valid
  | .reconcile now moment => reconcileTask zone port s s.task now moment

/-- The state after a sequence of calls. -/
def run (zone : String → ℚ → LocalTime) (port : StreamRunPort Session Runs)
    (s : System Session Runs) (acts : List Act) : System Session Runs :=
  acts.foldl (apply zone port) s

end Scenara.Surveillance
