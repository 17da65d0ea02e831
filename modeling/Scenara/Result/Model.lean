import Scenara.Core.Dict
import Scenara.Core.Slices
import Scenara.Run.Model

/-!
# Storing and reading the result of a run

Model of `RunExecutionMixin._store_result` (`platform/services_execution.py`),
`RunService._result_index` / `result` / `result_page` (`platform/services.py`), and of what they
call: `LocalObjectStore.put` / `get` / `delete` (`infrastructure/object_store.py`), and
`track_object` / `mark_objects_deleted` of the memory and the Postgres state store
(`infrastructure/memory_state.py`, `infrastructure/postgres_state.py`).

* One run's part of the two stores is a `State`. Keys are the keys of the source with the run's
  own prefix dropped: a shard `units-%06d.json` and an index document, each under the run's base
  key or its `partial/` directory, and every other key of the project.
* JSON and the model classes are third-party code: a `Codec` is what this code relies on of them,
  with the round trips as fields.
* A backend call that fails on its own (`Faults`) has no effect and raises. `_store_result` is its
  `try` body (`attempt`, which hands its handler what it had done when it raised), then either the
  removal of the superseded keys or the handler.
-/

namespace Scenara.Result

open Scenara.Core

/-! ## Keys and records -/

/-- `units-{index:06d}.json`, in the run's directory or in its `partial/` directory. -/
structure ShardKey where
  isPartial : Bool
  index : Nat
  deriving DecidableEq

/-- The index document: `result.json`, or `partial/result-{count:012d}-{uuid}.json`. -/
inductive ResultKey where
  | final
  | inPartial (count : Nat) (uuid : String)
  deriving DecidableEq

/-- An object key of the project. -/
inductive ObjectKey where
  | shard (key : ShardKey)
  | result (key : ResultKey)
  | other (key : String)
  deriving DecidableEq

/-- What the calls of this model raise. -/
inductive Error where
  | pipelineError (message : String)
  | objectAlreadyExists (key : ObjectKey)
  | fileNotFound (key : ObjectKey)
  | objectIntegrity (key : ObjectKey)
  | stateConflict (message : String)
  | resourceNotFound (message : String)
  | validationError
  /-- A backend call that failed on its own. -/
  | backend
  deriving DecidableEq

/-- `ResultEnvelope`: its units, and every other field. -/
structure Envelope (U E : Type) where
  units : List U
  rest : E
  deriving DecidableEq

/-- `ResultReference.index_status`. -/
inductive IndexStatus where
  | ready
  | inPartial
  deriving DecidableEq

/-- The shard lists of a reference: keys, checksums, unit counts. -/
structure Manifest (D : Type) where
  shardKeys : List ShardKey
  shardSha256 : List D
  shardUnitCounts : List Nat
  deriving DecidableEq

/-- `ResultReference`, the fields storing and reading use. The empty `object_key` is `none`. -/
structure Reference (D : Type) extends Manifest D where
  objectKey : Option ResultKey
  sha256 : D
  unitCount : Nat
  indexStatus : IndexStatus
  deriving DecidableEq

/-- `ObjectRetentionRecord.category`. -/
inductive Category where
  | rawMedia
  | preview
  | structuredResult
  | biometric
  | alertSnapshot
  deriving DecidableEq

/-- `ObjectRetentionRecord.owner_type`. -/
inductive OwnerType where
  | mediaAsset
  | runResult
  | portraitEnrollment
  | surveillanceAlert
  deriving DecidableEq

/-- `ObjectRetentionRecord`; its key is the key of the row. -/
structure RetentionRecord where
  category : Category
  ownerType : OwnerType
  ownerId : String
  createdAt : ℚ
  expiresAt : Option ℚ
  deletedAt : Option ℚ
  deriving DecidableEq

/-- The row belongs to the result of the run. -/
def RetentionRecord.ownedBy (runId : String) (row : RetentionRecord) : Bool :=
  row.ownerType = .runResult && row.ownerId = runId

/-- JSON, the model classes and SHA-256, as far as this code relies on them: `loadUnits` is
`json.loads`, the list test and `model_validate` of the items. -/
structure Codec (U E B D : Type) where
  dumpUnits : List U → B
  loadUnits : B → Except Error (List U)
  dumpEnvelope : Envelope U E → B
  loadEnvelope : B → Except Error (Envelope U E)
  sha256 : B → D
  /-- `"0" * 64`. -/
  zeros : D
  load_dumpUnits : ∀ us, loadUnits (dumpUnits us) = .ok us
  load_dumpEnvelope : ∀ e, loadEnvelope (dumpEnvelope e) = .ok e

/-! ## The two stores -/

variable {U E B D : Type}

/-- The object store and the state store, as one run sees them. -/
structure State (B D : Type) where
  objects : Dict ObjectKey B
  retention : Dict ObjectKey RetentionRecord
  reference : Option (Reference D)
  deriving DecidableEq

/-- Nothing is stored yet. -/
def State.empty : State B D := ⟨Dict.empty, Dict.empty, none⟩

/-- Which state store. -/
inductive StateStore where
  | memory
  | postgres
  deriving DecidableEq

/-- The backend calls of one `_store_result` call that fail on their own. -/
structure Faults where
  getReference : Bool
  put : ObjectKey → Bool
  getAsset : Bool
  getSource : Bool
  track : ObjectKey → Bool
  index : Bool
  save : Bool
  delete : ObjectKey → Bool
  mark : Bool

/-- No backend call fails. -/
def Faults.none : Faults :=
  ⟨false, fun _ => false, false, false, fun _ => false, false, false, fun _ => false, false⟩

variable [DecidableEq D]

/-- `put` without `overwrite`: an existing object is accepted when its checksum is the same. -/
def put (c : Codec U E B D) (f : Faults) (key : ObjectKey) (document : B) (s : State B D) :
    Except Error (State B D) :=
  if f.put key then .error .backend
  else
    match s.objects.get? key with
    | some existing =>
      if c.sha256 existing = c.sha256 document then .ok s else .error (.objectAlreadyExists key)
    | none => .ok { s with objects := s.objects.insert key document }

/-- `get` with the expected checksum. -/
def get (c : Codec U E B D) (s : State B D) (key : ObjectKey) (expectedSha256 : D) :
    Except Error B :=
  match s.objects.get? key with
  | some document =>
    if c.sha256 document = expectedSha256 then .ok document else .error (.objectIntegrity key)
  | none => .error (.fileNotFound key)

/-- `track_object`: the memory store accepts an equal row, Postgres (`ON CONFLICT DO NOTHING`, then
`rowcount != 1`) none. -/
def trackObject (store : StateStore) (f : Faults) (s : State B D)
    (entry : ObjectKey × RetentionRecord) : Except Error (State B D) :=
  let tracked := { s with retention := s.retention.insert entry.1 entry.2 }
  if f.track entry.1 then .error .backend
  else
    match s.retention.get? entry.1, store with
    | none, _ => .ok tracked
    | some existing, .memory =>
      if existing ≠ entry.2 then .error (.stateConflict "object retention record already exists")
      else .ok tracked
    | some _, .postgres => .error (.stateConflict "object retention record already exists")

/-- The row is one `mark_objects_deleted` marks; Postgres skips those already marked. -/
def marks (store : StateStore) (targets : List ObjectKey) (key : ObjectKey)
    (row : RetentionRecord) : Bool :=
  key ∈ targets && (store = .memory || row.deletedAt.isNone)

/-- `mark_objects_deleted`: a run with a marked row and no row left loses its reference. -/
def markObjectsDeleted (store : StateStore) (runId : String) (now : ℚ) (targets : List ObjectKey)
    (s : State B D) : State B D :=
  let owned := s.retention.entries.any fun e => marks store targets e.1 e.2 && e.2.ownedBy runId
  let retention := s.retention.mapVals fun key row =>
    if marks store targets key row then { row with deletedAt := some now } else row
  let remaining := retention.values.any fun row => row.ownedBy runId && row.deletedAt.isNone
  { s with
    retention := retention
    reference := if owned && !remaining then none else s.reference }

/-- `with suppress(Exception): await self.objects.delete(object_key)`, for each key. -/
def deleteObjects (f : Faults) (keys : List ObjectKey) (s : State B D) : State B D :=
  { s with objects := keys.foldl (fun o key => if f.delete key then o else o.erase key) s.objects }

/-- Delete the objects and mark their rows, both with exceptions suppressed. -/
def discard (store : StateStore) (runId : String) (f : Faults) (now : ℚ) (keys : List ObjectKey)
    (s : State B D) : State B D :=
  let deleted := deleteObjects f keys s
  if f.mark then deleted else markObjectsDeleted store runId now keys deleted

/-! ## `_store_result` -/

/-- The service's settings and the run. -/
structure Service (E : Type) where
  store : StateStore
  resultShardUnits : Nat
  shardUnits_pos : 0 < resultShardUnits
  structuredResultRetentionDays : Nat
  previewRetentionDays : Nat
  /-- `self.indexes is not None`. -/
  indexed : Bool
  runId : String
  status : Run.RunStatus
  createdAt : ℚ
  hasAsset : Bool
  hasSource : Bool
  /-- The fields other than `units` of the envelope made up for a run without a result. -/
  synthetic : E

/-- The artifacts a `RunArtifactSink` stored; its ids are fresh. -/
structure Sink where
  keys : List String
  nodup : keys.Nodup

/-- One call of `_store_result`. -/
structure Call (U E : Type) where
  result : Envelope U E
  sink : Option Sink
  isPartial : Bool
  uuid : String
  now : ℚ
  faults : Faults

/-- What the `try` body has done so far. -/
structure Attempt (B D : Type) extends Manifest D where
  state : State B D
  writtenKeys : List ObjectKey

/-- Counts of a manifest that has none: full shards, then the rest. -/
def defaultCounts (shardUnits total shards : Nat) : List Nat :=
  if shards = 0 then []
  else List.replicate (shards - 1) shardUnits ++ [total - shardUnits * (shards - 1)]

/-- What a call is going to write: the shards from index `start` on, behind the ones it carries
over, and the index document. -/
structure Plan (U E D : Type) extends Manifest D where
  inPartial : Bool
  start : Nat
  chunks : List (List U)
  index : Envelope U E

/-- The three branches of `_store_result` before its puts. -/
def plan (v : Service E) (previous : Option (Reference D)) (call : Call U E) :
    Except Error (Plan U E D) :=
  if call.isPartial then
    let carried : Manifest D × Nat :=
      match previous with
      | some p =>
        if p.indexStatus = .inPartial then
          let counts :=
            if p.shardUnitCounts.length ≠ p.shardKeys.length then
              defaultCounts v.resultShardUnits p.unitCount p.shardKeys.length
            else p.shardUnitCounts
          (⟨p.shardKeys, p.shardSha256, counts⟩, p.unitCount)
        else (⟨[], [], []⟩, 0)
      | none => (⟨[], [], []⟩, 0)
    if call.result.units.length < carried.2 then
      .error (.pipelineError "partial result unit count must be monotonic")
    else
      .ok {
        carried.1 with
        inPartial := true
        -- `len(shard_keys)`, one further for each shard
        start := carried.1.shardKeys.length
        chunks := slices v.resultShardUnits (call.result.units.drop carried.2)
        index := { call.result with units := [] } }
  else if call.result.units.length > v.resultShardUnits then
    .ok {
      shardKeys := []
      shardSha256 := []
      shardUnitCounts := []
      inPartial := false
      start := 0
      chunks := slices v.resultShardUnits call.result.units
      index := { call.result with units := [] } }
  else
    .ok {
      shardKeys := []
      shardSha256 := []
      shardUnitCounts := []
      inPartial := false
      start := 0
      chunks := []
      index := call.result }

/-- A shard was put: its key is written, its key, checksum and count enter the manifest. -/
def Attempt.enter (c : Codec U E B D) (a : Attempt B D) (s : State B D) (key : ShardKey)
    (units : List U) : Attempt B D where
  state := s
  writtenKeys := a.writtenKeys ++ [.shard key]
  shardKeys := a.shardKeys ++ [key]
  shardSha256 := a.shardSha256 ++ [c.sha256 (c.dumpUnits units)]
  shardUnitCounts := a.shardUnitCounts ++ [units.length]

/-- Put one shard. -/
def putShard (c : Codec U E B D) (f : Faults) (key : ShardKey) (units : List U)
    (a : Attempt B D) : Except (Error × Attempt B D) (Attempt B D) :=
  match put c f (.shard key) (c.dumpUnits units) a.state with
  | .error e => .error (e, a)
  | .ok s => .ok (a.enter c s key units)

/-- The loop over the shards. -/
def putShards (c : Codec U E B D) (f : Faults) (inPartial : Bool) :
    Nat → List (List U) → Attempt B D → Except (Error × Attempt B D) (Attempt B D)
  | _, [], a => .ok a
  | i, units :: rest, a => do
    let a ← putShard c f ⟨inPartial, i⟩ units a
    putShards c f inPartial (i + 1) rest a

/-- The key of the index document. -/
def resultKey (call : Call U E) : ResultKey :=
  if call.isPartial then .inPartial call.result.units.length call.uuid else .final

/-- Put the index document; it is not ours to clean up when the previous reference has it. -/
def putIndex (c : Codec U E B D) (previous : Option (Reference D)) (call : Call U E)
    (index : Envelope U E) (a : Attempt B D) : Except (Error × Attempt B D) (Attempt B D) :=
  match put c call.faults (.result (resultKey call)) (c.dumpEnvelope index) a.state with
  | .error e => .error (e, a)
  | .ok s =>
    if previous.all fun p => p.objectKey ≠ some (resultKey call) then
      .ok { a with state := s, writtenKeys := a.writtenKeys ++ [.result (resultKey call)] }
    else .ok { a with state := s }

/-- The loop over `track_object`. -/
def trackAll (store : StateStore) (f : Faults) :
    List (ObjectKey × RetentionRecord) → Attempt B D → Except (Error × Attempt B D) (Attempt B D)
  | [], a => .ok a
  | entry :: rest, a =>
    match trackObject store f a.state entry with
    | .error e => .error (e, a)
    | .ok s => trackAll store f rest { a with state := s }

/-- The retention record of the structured result. -/
def resultRecord (v : Service E) : RetentionRecord where
  category := .structuredResult
  ownerType := .runResult
  ownerId := v.runId
  createdAt := v.createdAt
  expiresAt := some (v.createdAt + v.structuredResultRetentionDays * 86400)
  deletedAt := none

/-- `RunArtifactSink.retention_records`. -/
def retentionRecords (v : Service E) (sink : Sink) : List (ObjectKey × RetentionRecord) :=
  sink.keys.map fun key =>
    (.other key, { resultRecord v with
        category := .preview
        expiresAt := some (v.createdAt + v.previewRetentionDays * 86400) })

/-- The rows of the sink that a call tracks. -/
def sinkRecords (v : Service E) (call : Call U E) : List (ObjectKey × RetentionRecord) :=
  if call.isPartial then [] else call.sink.elim [] (retentionRecords v)

/-- `get_asset` and `get_source`, of the run's asset and source. -/
def readOwners (v : Service E) (f : Faults) (a : Attempt B D) :
    Except (Error × Attempt B D) (Attempt B D) :=
  if v.hasAsset && f.getAsset || v.hasSource && f.getSource then .error (.backend, a) else .ok a

/-- The reference of a call; a failed index update leaves it `partial`. -/
def newReference (c : Codec U E B D) (v : Service E) (call : Call U E) (index : Envelope U E)
    (m : Manifest D) : Reference D where
  toManifest := m
  objectKey := some (resultKey call)
  sha256 := c.sha256 (c.dumpEnvelope index)
  unitCount := call.result.units.length
  indexStatus :=
    if call.isPartial then .inPartial
    else if v.indexed && call.faults.index then .inPartial
    else .ready

/-- From the index document to the last `track_object`. -/
def publish (c : Codec U E B D) (v : Service E) (previous : Option (Reference D))
    (call : Call U E) (index : Envelope U E) (a : Attempt B D) :
    Except (Error × Attempt B D) (Attempt B D) := do
  let a ← putIndex c previous call index a
  let a ← readOwners v call.faults a
  let a ← trackAll v.store call.faults (a.writtenKeys.map fun key => (key, resultRecord v)) a
  trackAll v.store call.faults (sinkRecords v call) a

/-- The puts, reads and `track_object` calls of a planned call. -/
def perform (c : Codec U E B D) (v : Service E) (previous : Option (Reference D))
    (call : Call U E) (p : Plan U E D) (a : Attempt B D) :
    Except (Error × Attempt B D) (Attempt B D) := do
  let a ← putShards c call.faults p.inPartial p.start p.chunks a
  publish c v previous call p.index a

/-- The `try` body up to the saved reference. An error comes with what was done before it. -/
def attempt (c : Codec U E B D) (v : Service E) (s : State B D) (call : Call U E) :
    Except (Error × Attempt B D) (State B D × Reference D) :=
  match plan v s.reference call with
  | .error e => .error (e, ⟨⟨[], [], []⟩, s, []⟩)
  | .ok p => do
    let a ← perform c v s.reference call p ⟨p.toManifest, s, []⟩
    let reference := newReference c v call p.index a.toManifest
    if call.faults.save then .error (.backend, a)
    else .ok ({ a.state with reference := some reference }, reference)

/-- The keys of a reference: the index document, then the shards. -/
def Reference.keys (r : Reference D) : List ObjectKey :=
  r.objectKey.toList.map .result ++ r.shardKeys.map .shard

/-- `previous_keys`: the previous reference's keys that the new one does not reuse. -/
def supersededKeys (previous : Option (Reference D)) (reference : Reference D) : List ObjectKey :=
  match previous with
  | none => []
  | some p =>
    if p.objectKey ≠ reference.objectKey then
      p.objectKey.toList.map .result ++
        (p.shardKeys.filter fun key => key ∉ reference.shardKeys).map .shard
    else []

/-- `_store_result`: the state it leaves, and what it returns or raises. -/
def storeResult (c : Codec U E B D) (v : Service E) (s : State B D) (call : Call U E) :
    State B D × Except Error (Reference D) :=
  -- `get_result_reference` stands before the `try`
  if call.faults.getReference then (s, .error .backend)
  else
    match attempt c v s call with
    | .ok (saved, reference) =>
      (discard v.store v.runId call.faults call.now (supersededKeys s.reference reference) saved,
        .ok reference)
    | .error (e, a) => (discard v.store v.runId call.faults call.now a.writtenKeys a.state,
        .error e)

/-! ## Reading -/

/-- The envelope made up for a run without a result. -/
def syntheticResult (v : Service E) : Envelope U E := ⟨[], v.synthetic⟩

/-- The reference made up for a run without a result. -/
def syntheticReference (c : Codec U E B D) : Reference D :=
  { shardKeys := [], shardSha256 := [], shardUnitCounts := [], objectKey := none,
    sha256 := c.zeros, unitCount := 0, indexStatus := .ready }

/-- `_result_index`. -/
def resultIndex (c : Codec U E B D) (v : Service E) (s : State B D) :
    Except Error (Envelope U E × Reference D) :=
  match s.reference with
  | none =>
    if v.status ∈ [.cancelled, .cancelling, .queued, .running, .failed] then
      .ok (syntheticResult v, syntheticReference c)
    else .error (.resourceNotFound "run result is not available")
  | some r =>
    match r.objectKey with
    | none =>
      if r.unitCount = 0 then .ok (syntheticResult v, r)
      -- `validate_object_key("")`
      else .error .validationError
    | some key => do
      let document ← get c s (.result key) r.sha256
      let result ← c.loadEnvelope document
      .ok (result, r)

/-- `load_shard`. The checksum test after `get` repeats the one inside it. -/
def loadShard (c : Codec U E B D) (s : State B D) (entry : ShardKey × D) :
    Except Error (List U) := do
  let document ← get c s (.shard entry.1) entry.2
  c.loadUnits document

/-- `RunService.result`. -/
def result (c : Codec U E B D) (v : Service E) (s : State B D) : Except Error (Envelope U E) := do
  let (index, r) ← resultIndex c v s
  if r.shardKeys = [] then .ok index
  else if r.shardKeys.length ≠ r.shardSha256.length then
    .error (.pipelineError "stored result shard manifest is invalid")
  else do
    let shards ← (r.shardKeys.zip r.shardSha256).mapM (loadShard c s)
    if shards.flatten.length ≠ r.unitCount then
      .error (.pipelineError "stored result shard count does not match its reference")
    else .ok { index with units := shards.flatten }

/-- `ResultPage`. -/
structure ResultPage (U E : Type) where
  result : Envelope U E
  unitOffset : Nat
  unitLimit : Nat
  unitTotal : Nat

/-- One selected shard: key, checksum, first unit, end. -/
structure Selected (D : Type) where
  key : ShardKey
  sha256 : D
  shardStart : Nat
  shardEnd : Nat

/-- The loop that selects the shards overlapping the page. -/
def selectShards (unitOffset pageEnd : Nat) : Nat → List (ShardKey × D × Nat) → List (Selected D)
  | _, [] => []
  | cursor, (key, sha256, count) :: rest =>
    let shardEnd := cursor + count
    let tail := selectShards unitOffset pageEnd shardEnd rest
    if cursor < pageEnd ∧ shardEnd > unitOffset then ⟨key, sha256, cursor, shardEnd⟩ :: tail
    else tail

/-- `load_selected`. -/
def loadSelected (c : Codec U E B D) (s : State B D) (unitOffset pageEnd : Nat)
    (entry : Selected D) : Except Error (List U) := do
  let parsed ← loadShard c s (entry.key, entry.sha256)
  .ok (slice (unitOffset - entry.shardStart) (min entry.shardEnd pageEnd - entry.shardStart) parsed)

/-- `RunService.result_page`. -/
def resultPage (c : Codec U E B D) (v : Service E) (s : State B D) (unitOffset unitLimit : Nat) :
    Except Error (ResultPage U E) := do
  let (index, r) ← resultIndex c v s
  let total := r.unitCount
  let pageEnd := min total (unitOffset + unitLimit)
  let page := fun units =>
    ({ result := { index with units := units }, unitOffset := unitOffset, unitLimit := unitLimit,
       unitTotal := total } : ResultPage U E)
  if unitOffset ≥ total then .ok (page [])
  else if r.shardKeys = [] then .ok (page (slice unitOffset pageEnd index.units))
  else if r.shardKeys.length ≠ r.shardSha256.length then
    .error (.pipelineError "stored result shard manifest is invalid")
  else do
    let counts :=
      if r.shardUnitCounts.length ≠ r.shardKeys.length then
        defaultCounts v.resultShardUnits total r.shardKeys.length
      else r.shardUnitCounts
    let selected :=
      selectShards unitOffset pageEnd 0 (r.shardKeys.zip (r.shardSha256.zip counts))
    let pages ← selected.mapM (loadSelected c s unitOffset pageEnd)
    .ok (page pages.flatten)

/-! ## A small service -/

/-- Documents that are the values themselves. -/
inductive Document where
  | units (us : List Nat)
  | envelope (e : Envelope Nat Nat)
  deriving DecidableEq

/-- The codec of these documents; their checksum is the document. -/
def plainCodec : Codec Nat Nat Document Document where
  dumpUnits := .units
  loadUnits
    | .units us => .ok us
    | .envelope _ => .error .validationError
  dumpEnvelope := .envelope
  loadEnvelope
    | .envelope e => .ok e
    | .units _ => .error .validationError
  sha256 := id
  zeros := .units []
  load_dumpUnits _ := rfl
  load_dumpEnvelope _ := rfl

/-- A service with one unit to a shard. -/
def smallService (store : StateStore) : Service Nat where
  store := store
  resultShardUnits := 1
  shardUnits_pos := by decide
  structuredResultRetentionDays := 30
  previewRetentionDays := 7
  indexed := false
  runId := "run"
  status := .running
  createdAt := 0
  hasAsset := false
  hasSource := false
  synthetic := 0

/-- A call without artifacts. -/
def smallCall (units : List Nat) (rest : Nat) (isPartial : Bool) (uuid : String) (faults : Faults) :
    Call Nat Nat :=
  ⟨⟨units, rest⟩, none, isPartial, uuid, 0, faults⟩

end Scenara.Result
