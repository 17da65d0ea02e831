import Scenara.Result.Failure

/-!
# One `execute_run` and the backend calls that fail it

Model of `RunExecutionMixin.execute_run` with its two handlers and `_discard_partial_result`
(`platform/services_execution.py`), and of `RunArtifactSink` (`platform/artifacts.py`), over the
worker of the run lifecycle (`Run.stepWorker`) and `_store_result` (`Result.storeResult`).

* `Stage` says which block the call is in: the `try` body and each handler make the store calls of a
  `Run.Worker`. A raised error goes where the block sends it (`raised`).
* The envelope that is stored lists the pipeline's artifacts and the sink's. `Whole` and `Continued`
  are what a finished call has to leave.
* Other parties save the record (`other`) and append events (`log`). The objects of the run are the
  call's own.
-/

namespace Scenara.Execution

open Scenara.Core
open Run
open Result

variable {U O B D : Type}

/-! ## Envelopes and artifacts -/

/-- `ResultEnvelope` but for its units. An artifact is the key of its object. -/
structure Fields (O : Type) where
  artifacts : List String
  warnings : List String
  rest : O
  deriving DecidableEq

/-- `ARTIFACT_STORAGE_WARNING`. -/
def artifactStorageWarning : String := "artifact_storage_unavailable"

/-- `RunArtifactSink`: the objects it stored, and its warnings. -/
structure ArtifactSink extends Sink where
  warnings : List String

/-- Nothing is stored yet. -/
def ArtifactSink.empty : ArtifactSink := ⟨⟨[], List.nodup_nil⟩, []⟩

/-- The sink's part of the envelope. With nothing in the sink the copy is the envelope itself. -/
def withSink (fields : Fields O) : Option ArtifactSink → Fields O
  | none => fields
  | some sink =>
    { fields with
      artifacts := fields.artifacts ++ sink.keys
      warnings := fields.warnings ++ sink.warnings }

/-- The first warning `media_termination:…`, without that prefix. -/
def mediaTermination (warnings : List String) : Option String :=
  (warnings.find? fun w => "media_termination:".toList.isPrefixOf w.toList).map fun w =>
    String.ofList (w.toList.drop "media_termination:".length)

/-- `segment_window_completed`: the decoder stopped at the end of the stream segment's window. -/
def segmentWindowCompleted : String := "segment_window_completed"

/-- `RunArtifactSink.discard`: the objects go, exceptions are suppressed; the warnings stay. -/
def discardArtifacts (f : Faults) (sink : ArtifactSink) (s : State B D) :
    State B D × ArtifactSink :=
  (deleteObjects f (sink.keys.map .other) s, ⟨⟨[], List.nodup_nil⟩, sink.warnings⟩)

/-- `_discard_partial_result`. -/
def discardPartialResult {E : Type} (v : Service E) (f : Faults) (now : ℚ) (s : State B D) :
    State B D :=
  if f.getReference then s
  else
    match s.reference with
    | none => s
    | some r =>
      match r.objectKey with
      | some (.inPartial _ _) => discard v.store v.runId f now r.keys s
      | _ => s

/-! ## The call -/

/-- Where an `execute_run` is. -/
inductive Stage where
  /-- In the `try` body, or before it. -/
  | trying (w : Worker)
  /-- In the `ExecutionStopped` handler, up to its `audit.record`. -/
  | stopping (run : RunRecord) (w : Worker)
  | cancelAudit (run : RunRecord)
  /-- About to see whether a partial result is kept. -/
  | keeping (run : RunRecord)
  /-- In the `Exception` handler: about to call `_discard_partial_result`. -/
  | discardPartial (code message : String)
  | discardSink (code message : String)
  /-- About to read the run and save `FAILED`. -/
  | failing (w : Worker)
  | failAudit
  | done (raised : Bool)

/-- `execute_run` returned or raised. -/
def Stage.finished : Stage → Bool
  | .done _ => true
  | _ => false

/-- One `execute_run`, the stores it works on, and whether the next segment's run exists. -/
structure Executing (B D : Type) where
  store : Store
  result : State B D
  successor : Bool
  sink : Option ArtifactSink
  stage : Stage

/-- What happens at a step. -/
inductive Act (U O B : Type) where
  /-- The pending store call, or a call inside the pipeline. -/
  | work (now : ℚ) (choice : Choice)
  /-- An operator stores an image; a put that fails leaves a warning. -/
  | image (key : String) (document : B) (fails : Bool)
  /-- The pipeline publishes a partial result. -/
  | publish (result : Envelope U (Fields O)) (uuid : String) (now : ℚ) (faults : Faults)
  /-- The pipeline returned a result, and it is stored; `message` is the text of a failure. -/
  | finish (result : Envelope U (Fields O)) (uuid : String) (now : ℚ) (faults : Faults)
      (message : String)
  /-- The pending backend call raises, or anything else in the block. -/
  | raise (code message : String)
  /-- `create_run` of the next segment raises after it has stored the run. -/
  | createdRaise
  /-- The next clean-up of the `Exception` handler. -/
  | clean (faults : Faults) (now : ℚ)
  /-- The end of the `ExecutionStopped` handler. -/
  | keep (faults : Faults) (eventFails : Bool)
  /-- `audit.record` at the end of a handler. -/
  | audit
  /-- Another party saves the record. -/
  | other (record : RunRecord)
  | log (event : RunEvent)

/-- A step of a worker in the `try` body: errors go to the handlers. -/
def afterTrying : Worker → Worker → Stage
  | .running run _ _, .stopRead => .stopping run .stopRead
  | _, .failRead code message => .discardPartial code message
  | _, .returned => .done false
  | _, w => .trying w

/-- A step in the `ExecutionStopped` handler. A run that is `CANCELLED` already is not audited. -/
def afterStopping (run : RunRecord) : Worker → Worker → Stage
  | .event _ _ _, .returned => .cancelAudit run
  | _, .returned => .keeping run
  | _, .raised => .done true
  | _, w => .stopping run w

/-- A step in the `Exception` handler. -/
def afterFailing : Worker → Worker → Stage
  | .event _ _ _, .returned => .failAudit
  | _, .returned => .done false
  | _, .raised => .done true
  | _, w => .failing w

/-- The record `_rollover_stream_segment` works on, inside its `try`. -/
def rollingOver : Worker → Option RunRecord
  | .rollover run | .rolloverRead run _ | .rolloverSave run _ => some run
  | .event run eventType _ => if eventType = "stream.segment.completed" then some run else none
  | _ => none

/-- Where an error of the stage's block goes. -/
def raised (code message : String) : Stage → Option Stage
  | .trying .start => some (.done true)
  | .trying w =>
    match rollingOver w with
    | some run => some (.trying (.event run "stream.session.error" .returned))
    | none => some (.discardPartial code message)
  | .stopping _ _ | .cancelAudit _ | .failing _ | .failAudit => some (.done true)
  -- exceptions are suppressed, or part of `clean` and `keep`
  | .keeping _ | .discardPartial _ _ | .discardSink _ _ | .done _ => none

/-- The choice is a store call of the worker or of the pipeline. -/
def plain : Choice → Bool
  | .finish _ | .raise _ _ => false
  | _ => true

/-- `create_run` returned the next segment's run. -/
def creates : Choice → Bool
  | .created _ => true
  | _ => false

/-- Every artifact the fields list has its object. -/
def Present (s : State B D) (fields : Fields O) : Prop :=
  ∀ key ∈ fields.artifacts, (s.objects.get? (.other key)).isSome = true
  deriving Decidable

/-- The run is a segment of a stream session. -/
def segmented (run : RunRecord) : Bool := run.sourceId.isSome && run.streamSessionId.isSome

/-- The `_store_result` call of a result the pipeline returned or published. -/
def storeCall (sink : Option ArtifactSink) (result : Envelope U (Fields O)) (isPartial : Bool)
    (uuid : String) (now : ℚ) (faults : Faults) : Call U (Fields O) where
  result := { result with rest := withSink result.rest sink }
  sink := sink.map ArtifactSink.toSink
  isPartial := isPartial
  uuid := uuid
  now := now
  faults := faults

variable [DecidableEq D]

/-- A store call of the block's worker. -/
def stepWork (x : Executing B D) (now : ℚ) (choice : Choice) : Option (Executing B D) :=
  if plain choice then
    match x.stage with
    | .trying w =>
      (stepWorker now x.store w choice).map fun r =>
        { x with
          store := r.1, successor := x.successor || creates choice, stage := afterTrying w r.2 }
    | .stopping run w =>
      (stepWorker now x.store w choice).map fun r =>
        { x with store := r.1, stage := afterStopping run w r.2 }
    | .failing w =>
      (stepWorker now x.store w choice).map fun r =>
        { x with store := r.1, stage := afterFailing w r.2 }
    | _ => none
  else none

/-- `store_image`; the key is fresh. -/
def storeImage (x : Executing B D) (sink : ArtifactSink) (key : String) (document : B)
    (fails : Bool) : Option (Executing B D) :=
  if fails then
    some { x with
      sink := some { sink with
        warnings :=
          if artifactStorageWarning ∈ sink.warnings then sink.warnings
          else sink.warnings ++ [artifactStorageWarning] } }
  else if h : key ∉ sink.keys ∧ x.result.objects.get? (.other key) = none then
    some { x with
      result := { x.result with objects := x.result.objects.insert (.other key) document }
      sink := some { sink with
        keys := sink.keys ++ [key]
        nodup := sink.nodup.append (List.nodup_singleton key) (by simpa using h.1) } }
  else none

/-- The end of the `ExecutionStopped` handler: a stored partial result keeps its artifacts. -/
def keepPartial (v : Service (Fields O)) (x : Executing B D) (run : RunRecord) (f : Faults)
    (eventFails : Bool) : Executing B D :=
  if f.getReference then { x with stage := .done false }
  else
    match x.result.reference with
    | some _ =>
      let rows := x.sink.elim [] fun sink => retentionRecords v sink.toSink
      match trackAll v.store f rows ⟨⟨[], [], []⟩, x.result, []⟩ with
      | .error (_, a) => { x with result := a.state, stage := .done false }
      | .ok a =>
        { x with
          result := a.state
          store := if eventFails then x.store else appendEvent x.store run "result.available"
          stage := .done false }
    | none =>
      match x.sink with
      | none => { x with stage := .done false }
      | some sink =>
        let r := discardArtifacts f sink x.result
        { x with result := r.1, sink := some r.2, stage := .done false }

/-- One step. -/
def step (c : Codec U (Fields O) B D) (v : Service (Fields O)) (x : Executing B D) :
    Act U O B → Option (Executing B D)
  | .work now choice => stepWork x now choice
  | .image key document fails =>
    match x.stage, x.sink with
    | .trying (.running _ _ _), some sink => storeImage x sink key document fails
    | _, _ => none
  | .publish result uuid now faults =>
    match x.stage with
    | .trying (.running _ _ _) =>
      -- whatever fails is logged
      if Present x.result result.rest then
        some { x with
          result := (storeResult c v x.result (storeCall x.sink result true uuid now faults)).1 }
      else none
    | _ => none
  | .finish result uuid now faults message =>
    match x.stage with
    | .trying (.running run _ false) =>
      let call := storeCall x.sink result false uuid now faults
      let termination := mediaTermination call.result.rest.warnings
      -- only the decoder of a stream segment stops at the end of a window
      if Present x.result result.rest ∧
          (termination = some segmentWindowCompleted → segmented run = true) then
        let r := storeResult c v x.result call
        match r.2 with
        | .ok _ => some { x with result := r.1, stage := .trying (.completeRead run termination) }
        | .error _ =>
          some { x with
            result := r.1, stage := .discardPartial "PIPELINE_EXECUTION_FAILED" message }
      else none
    | _ => none
  | .raise code message => (raised code message x.stage).map fun stage => { x with stage := stage }
  | .createdRaise =>
    match x.stage with
    | .trying (.rollover run) =>
      some { x with
        successor := true, stage := .trying (.event run "stream.session.error" .returned) }
    | _ => none
  | .clean faults now =>
    match x.stage with
    | .discardPartial code message =>
      some { x with
        result := discardPartialResult v faults now x.result, stage := .discardSink code message }
    | .discardSink code message =>
      match x.sink with
      | none => some { x with stage := .failing (.failRead code message) }
      | some sink =>
        let r := discardArtifacts faults sink x.result
        some { x with
          result := r.1, sink := some r.2, stage := .failing (.failRead code message) }
    | _ => none
  | .keep faults eventFails =>
    match x.stage with
    | .keeping run => some (keepPartial v x run faults eventFails)
    | _ => none
  | .audit =>
    match x.stage with
    | .cancelAudit run => some { x with stage := .keeping run }
    | .failAudit => some { x with stage := .done false }
    | _ => none
  | .other record =>
    if x.store.run.status.terminal = false ∧ record.status ≠ .completed ∧
        record.revision = x.store.run.revision + 1 then
      some { x with store := { x.store with run := record } }
    else none
  | .log event =>
    if event.eventType ≠ "stream.session.error" then
      some { x with store := { x.store with events := x.store.events ++ [event] } }
    else none

/-! ## What a finished call leaves -/

/-- The artifacts in the envelope of the stored reference. -/
def listed (c : Codec U (Fields O) B D) (s : State B D) : List String :=
  match s.reference.bind Reference.objectKey with
  | none => []
  | some key =>
    match s.objects.get? (.result key) with
    | none => []
    | some document =>
      match c.loadEnvelope document with
      | .ok envelope => envelope.rest.artifacts
      | .error _ => []

/-- Every artifact of the published envelope has its object. -/
def Whole (c : Codec U (Fields O) B D) (x : Executing B D) : Prop :=
  ∀ key ∈ listed c x.result, (x.result.objects.get? (.other key)).isSome = true
  deriving Decidable

/-- A run completed at the end of its segment's window has a successor, or the session an error. -/
def Continued (x : Executing B D) : Prop :=
  x.store.run.status = .completed → x.store.run.terminationReason = some segmentWindowCompleted →
    x.successor = true ∨ ∃ event ∈ x.store.events, event.eventType = "stream.session.error"
  deriving Decidable

/-- A run is handed to its one worker: nothing of its result is stored. -/
structure Delivered (x : Executing B D) : Prop where
  stage : x.stage = .trying .start
  status : x.store.run.status ≠ .completed
  result : ∀ key, x.result.objects.get? (.result key) = none
  sink : ∀ sink ∈ x.sink, sink.keys = []

/-! ## A small service -/

/-- Documents that are the values themselves. -/
inductive Page where
  | units (us : List Nat)
  | envelope (e : Envelope Nat (Fields Unit))
  deriving DecidableEq

/-- The codec of these documents; their checksum is the document. -/
def pageCodec : Codec Nat (Fields Unit) Page Page where
  dumpUnits := .units
  loadUnits
    | .units us => .ok us
    | .envelope _ => .error .validationError
  dumpEnvelope := .envelope
  loadEnvelope
    | .envelope e => .ok e
    | .units _ => .error .validationError
  sha256 := id
  zeros := .units []
  load_dumpUnits _ := rfl
  load_dumpEnvelope _ := rfl

/-- A service with a memory state store. -/
def pageService : Service (Fields Unit) where
  store := .memory
  resultShardUnits := 1
  shardUnits_pos := Nat.one_pos
  structuredResultRetentionDays := 30
  previewRetentionDays := 7
  indexed := false
  runId := "run"
  status := .running
  createdAt := 0
  hasAsset := true
  hasSource := false
  synthetic := ⟨[], [], ()⟩

/-- A queued run, with an empty sink. -/
def queued (sourceId streamSessionId : Option String) : Executing Page Page where
  store :=
    { run :=
        { status := .queued, revision := 0, progress := 0, updatedAt := 0, startedAt := none,
          completedAt := none, errorCode := none, terminationReason := none, sourceId := sourceId,
          streamSessionId := streamSessionId, nextRunId := none }
      events := [] }
  result := State.empty
  successor := false
  sink := some .empty
  stage := .trying .start

end Scenara.Execution
