import Scenara.Result.Model

/-!
# The snapshots of alerts

Model of what happens to the artifacts of one run: `RunArtifactSink` (`platform/artifacts.py`), the
stages of `execute_run` that track or discard them (`platform/services_execution.py`),
`SurveillanceService._evaluate_observation` as far as it names a snapshot and protects it
(`domains/portrait/surveillance.py`), `track_object`, `protect_object_for_alert` and
`mark_objects_deleted` (`infrastructure/memory_state.py`), and `RetentionScheduler.sweep`.

* Store calls are the steps, and they succeed. An artifact is the key of its object, a fresh one.
* The snapshot of an evaluation is the last `unit_frame` of the sink: the results of the pipeline
  have no artifacts of their own.
* A sweep reads expired keys, which of them its limit decides; then it deletes, and marks what it
  has deleted.
* `stop` is told whether there is a result reference: a sweep of the structured results may take it.
-/

namespace Scenara.Surveillance.Snapshots

open Scenara.Core Result

/-- `ArtifactType`. -/
inductive ArtifactType where
  | objectCrop
  | unitFrame
  deriving DecidableEq

/-- `AlertRecord`, as far as its snapshot goes. -/
structure Alert where
  alertId : String
  /-- The object of `snapshot_artifact_id`. -/
  snapshot : Option String
  expiresAt : ℚ
  deriving DecidableEq

/-- The run, and the windows in days. -/
structure Setting where
  runId : String
  createdAt : ℚ
  previewDays : Nat
  alertDays : Nat

/-- Where `execute_run` is. -/
inductive Phase where
  | piping
  /-- In `evaluate_run_result`, of a partial or of the final result. -/
  | evaluating (final : Bool) (snapshot : Option String)
  /-- `record_alert` has emitted the alert; `protect_object_for_alert` is next. -/
  | protecting (final : Bool) (key : String) (alertId : String) (expiresAt : ℚ)
  /-- `_store_result` of the final result: the keys that are yet to be tracked. -/
  | storing (rest : List String)
  | completing
  /-- In the handler of `ExecutionStopped`: the keys that are yet to be tracked. -/
  | keeping (rest : List String)
  | discarding (rest : List String)
  | over
  deriving DecidableEq

/-- `if observation.snapshot_object_key is not None`, after an alert was emitted. -/
def Phase.alerted (final : Bool) (alertId : String) (expiresAt : ℚ) : Option String → Phase
  | some key => .protecting final key alertId expiresAt
  | none => .evaluating final none

/-- A `sweep`: the keys it has read and not yet deleted, and the ones it has deleted. -/
structure Sweep where
  rest : List String
  deleted : List String

/-- The objects, their retention rows and the alerts. -/
structure State where
  now : ℚ
  objects : List String
  rows : Dict String RetentionRecord
  alerts : List Alert
  /-- `RunArtifactSink._artifacts`. -/
  artifacts : List (ArtifactType × String)
  phase : Phase
  sweeps : List Sweep

namespace State

/-- The keys of the artifacts. -/
def keys (x : State) : List String := x.artifacts.map Prod.snd

/-- `next(item for item in reversed(result.artifacts) if item.artifact_type == "unit_frame")`. -/
def snapshot (x : State) : Option String :=
  (x.artifacts.reverse.find? fun a => a.1 = .unitFrame).map Prod.snd

/-- A record of `retention_records`. -/
def record (setting : Setting) : RetentionRecord where
  category := .preview
  ownerType := .runResult
  ownerId := setting.runId
  createdAt := setting.createdAt
  expiresAt := some (setting.createdAt + setting.previewDays * 86400)
  deletedAt := none

/-- `track_object`; `none` is `StateConflict("object retention record already exists")`. -/
def trackObject (x : State) (key : String) (row : RetentionRecord) : Option State :=
  match x.rows.get? key with
  | some existing => if existing ≠ row then none else some { x with rows := x.rows.insert key row }
  | none => some { x with rows := x.rows.insert key row }

/-- `protect_object_for_alert`. -/
def protectObjectForAlert (x : State) (key alertId : String) (expiresAt : ℚ) : State :=
  match x.rows.get? key with
  | none => x
  | some current =>
    if current.deletedAt.isSome then x
    else
      { x with rows := x.rows.insert key { current with
          category := .alertSnapshot
          ownerType := .surveillanceAlert
          ownerId := alertId
          expiresAt := some (max (current.expiresAt.getD 0) expiresAt) } }

/-- `item.expires_at is not None and item.expires_at <= before and item.deleted_at is None`. -/
def expired (x : State) (key : String) : Bool :=
  (x.rows.get? key).any fun row => row.expiresAt.any (· ≤ x.now) && row.deletedAt.isNone

/-- `mark_objects_deleted`, of artifacts. -/
def markObjectsDeleted (x : State) (deleted : List String) : State :=
  { x with rows := x.rows.mapVals fun key row =>
      if key ∈ deleted then { row with deletedAt := some x.now } else row }

end State

/-- One step. -/
inductive Act where
  | tick (time : ℚ)
  | image (type : ArtifactType) (key : String)
  /-- A partial result is published; it is evaluated next. -/
  | publish
  /-- `record_alert` emits an alert, whose `created_at` was read before. -/
  | alert (alertId : String) (createdAt : ℚ)
  | protect
  | evaluated
  | finish
  /-- The next `track_object`, or what follows the last one. -/
  | track
  | complete
  /-- The run was cancelled; whether a result reference is there. -/
  | stop (referenced : Bool)
  | fail
  | discard
  | sweepRead (keys : List String)
  | sweepDelete (i : Nat)
  | sweepMark (i : Nat)

/-- A sweep deletes the next object; what was there is its to mark. -/
def sweepDelete (x : State) (i : Nat) (key : String) (rest deleted : List String) : State :=
  { x with
    objects := x.objects.filter (· ≠ key)
    sweeps := x.sweeps.set i ⟨rest, if key ∈ x.objects then deleted ++ [key] else deleted⟩ }

/-- One step. -/
def step (setting : Setting) (x : State) : Act → Option State
  | .tick time => if 0 ≤ time then some { x with now := x.now + time } else none
  | .image type key =>
    if x.phase = .piping ∧ key ∉ x.objects ∧ key ∉ x.keys ∧ x.rows.get? key = none ∧
        (∀ a ∈ x.alerts, a.snapshot ≠ some key) then
      some { x with objects := x.objects ++ [key], artifacts := x.artifacts ++ [(type, key)] }
    else none
  | .publish =>
    if x.phase = .piping then some { x with phase := .evaluating false x.snapshot } else none
  | .alert alertId createdAt =>
    match x.phase with
    | .evaluating final snapshot =>
      if createdAt ≤ x.now then
        let expiresAt := createdAt + setting.alertDays * 86400
        some { x with
          alerts := x.alerts ++ [⟨alertId, snapshot, expiresAt⟩]
          phase := Phase.alerted final alertId expiresAt snapshot }
      else none
    | _ => none
  | .protect =>
    match x.phase with
    | .protecting final key alertId expiresAt =>
      some { x.protectObjectForAlert key alertId expiresAt with
        phase := .evaluating final (some key) }
    | _ => none
  | .evaluated =>
    match x.phase with
    | .evaluating final _ => some { x with phase := if final then .completing else .piping }
    | _ => none
  | .finish => if x.phase = .piping then some { x with phase := .storing x.keys } else none
  | .track =>
    match x.phase with
    | .storing [] => some { x with phase := .evaluating true x.snapshot }
    | .storing (key :: rest) =>
      match x.trackObject key (State.record setting) with
      | some y => some { y with phase := .storing rest }
      -- the exception goes to the handler
      | none => some { x with phase := .discarding x.keys }
    | .keeping [] => some { x with phase := .over }
    | .keeping (key :: rest) =>
      match x.trackObject key (State.record setting) with
      | some y => some { y with phase := .keeping rest }
      -- `execute_run` logs the exception and returns
      | none => some { x with phase := .over }
    | _ => none
  | .complete => if x.phase = .completing then some { x with phase := .over } else none
  | .stop referenced =>
    if x.phase = .piping then
      some { x with phase := if referenced then .keeping x.keys else .discarding x.keys }
    else none
  | .fail =>
    if x.phase = .piping ∨ x.phase = .completing then some { x with phase := .discarding x.keys }
      else none
  | .discard =>
    match x.phase with
    | .discarding [] => some { x with phase := .over }
    | .discarding (key :: rest) =>
      some { x with objects := x.objects.filter (· ≠ key), phase := .discarding rest }
    | _ => none
  | .sweepRead keys =>
    if ∀ key ∈ keys, x.expired key = true then some { x with sweeps := x.sweeps ++ [⟨keys, []⟩] }
      else none
  | .sweepDelete i =>
    match x.sweeps[i]? with
    | some ⟨key :: rest, deleted⟩ => some (sweepDelete x i key rest deleted)
    | _ => none
  | .sweepMark i =>
    match x.sweeps[i]? with
    | some ⟨[], deleted⟩ =>
      some { x.markObjectsDeleted deleted with sweeps := x.sweeps.set i ⟨[], []⟩ }
    | _ => none

/-- The run has just begun. -/
def init (now : ℚ) : State := ⟨now, [], Dict.empty, [], [], .piping, []⟩

end Scenara.Surveillance.Snapshots
