import Scenara.Index.Model
import Scenara.Result.Model

/-!
# The index of a result

Model of `RunExecutionMixin._index_result` and of the step of `_store_result` that calls it
(`platform/services_execution.py`), over the memory index store.

* `Envelope.records` and `Envelope.vectorRecords` are the records that it builds, each under an id
  that is joined from the ids of the run and of what the record stands for.
* Whatever is raised makes the reference `partial`, with what has been written so far.
-/

namespace Scenara.Index

open Scenara.Core
open Result (IndexStatus)

/-! ## Results -/

/-- `VisionObject`; `bbox` is its dump. -/
structure VisionObject where
  objectId : String
  objectType : String
  score : Option ℚ
  bbox : Option Json
  attributes : List (String × Json)
  cropArtifactId : Option String

/-- `MediaUnitResult`. -/
structure MediaUnitResult where
  unitId : String
  index : Nat
  pageNumber : Option Nat
  ptsMs : Option Nat
  objects : List VisionObject

/-- `OcrTextBlock`. -/
structure OcrTextBlock where
  blockId : String
  text : String
  score : Option ℚ
  blockType : String

/-- `ResultIndexVector`. -/
structure ResultIndexVector where
  objectId : String
  featureSpaceId : String
  modelId : String
  modelVersion : String
  vector : List Scalar
  quality : Option ℚ

/-- `ResultEnvelope`, and what `getattr` finds in its payload. -/
structure Envelope where
  domain : String
  units : List MediaUnitResult
  text : String
  language : Option String
  blocks : List OcrTextBlock
  indexVectors : List ResultIndexVector

/-- `RunRecord`, and the time that the index keeps its records. -/
structure Run where
  runId : String
  tenantId : String
  projectId : String
  assetId : Option String
  sourceId : Option String
  createdAt : ℚ
  structuredResultRetentionDays : Nat

/-! ## Its records -/

/-- A value, or null. -/
def orNull {R : Type} (f : R → Json) : Option R → Json
  | some x => f x
  | none => .null

/-- `safe_metadata`; every JSON value is of a type that it keeps. -/
def safeMetadata (fields : List (String × Json)) : List (String × Json) :=
  fields.filter fun field =>
    field.1 ∉ ["embedding", "_tracking_embedding", "_face_embedding", "vector", "crop"]

namespace Run

variable (run : Run)

/-- `f"idxr_{run.run_id}_..."`. -/
def recordId (suffix : String) : String := "idxr_" ++ run.runId ++ "_" ++ suffix

/-- `f"idxv_{run.run_id}_{hint.object_id}"`. -/
def vectorId (objectId : String) : String := "idxv_" ++ run.runId ++ "_" ++ objectId

/-- What every record of the run has, but for its location. -/
def source : IndexSourceRef where
  sourceType := "run_result"
  sourceId := run.runId
  assetId := run.assetId
  runId := some run.runId
  unitId := none
  objectId := none
  artifactId := none
  pageNumber := none
  ptsMs := none

/-- When the records of the run expire. -/
def expiresAt : ℚ := run.createdAt + run.structuredResultRetentionDays * 86400

/-- The source of the run. -/
def sourceField : String × Json := ("source_id", orNull .str run.sourceId)

/-- A record of `result.{domain}`. -/
def record (domain : String) (now : ℚ) (suffix : String) (source : IndexSourceRef)
    (text : Option String) (metadata : List (String × Json)) : IndexRecord where
  tenantId := run.tenantId
  projectId := run.projectId
  recordId := run.recordId suffix
  indexId := "result." ++ domain
  domain := domain
  kind := .multimodal
  source := source
  featureId := none
  text := text
  vector := none
  metadata := metadata
  status := .ready
  createdAt := now
  expiresAt := some run.expiresAt
  deletedAt := none

/-- The record of an object. -/
def objectRecord (domain : String) (now : ℚ) (unit : MediaUnitResult) (item : VisionObject) :
    IndexRecord :=
  run.record domain now (unit.unitId ++ "_" ++ item.objectId)
    { run.source with
      unitId := some unit.unitId
      objectId := some item.objectId
      artifactId := item.cropArtifactId
      pageNumber := unit.pageNumber
      ptsMs := unit.ptsMs }
    none
    [("object_type", .str item.objectType), ("score", orNull .num item.score),
      ("bbox", item.bbox.getD .null), ("attributes", .obj (safeMetadata item.attributes)),
      run.sourceField]

/-- The record of the full text. -/
def textRecord (envelope : Envelope) (now : ℚ) : IndexRecord :=
  run.record envelope.domain now "text" run.source (some envelope.text)
    [("language", orNull .str envelope.language), ("block_count", .num envelope.blocks.length),
      run.sourceField]

/-- The record of a block. -/
def blockRecord (domain : String) (now : ℚ) (block : OcrTextBlock) : IndexRecord :=
  run.record domain now ("block_" ++ block.blockId) run.source (some block.text)
    [("score", orNull .num block.score), ("block_type", .str block.blockType), run.sourceField]

/-- The record of a vector hint; `location` is the first object that has its id. -/
def vectorRecord (domain : String) (now : ℚ) (location : Option (MediaUnitResult × VisionObject))
    (hint : ResultIndexVector) : IndexRecord where
  tenantId := run.tenantId
  projectId := run.projectId
  recordId := run.vectorId hint.objectId
  indexId := "result." ++ hint.featureSpaceId
  domain := domain
  kind := .vector
  source := { run.source with
    unitId := location.map fun found => found.1.unitId
    objectId := some hint.objectId
    artifactId := location.bind fun found => found.2.cropArtifactId
    pageNumber := location.bind fun found => found.1.pageNumber
    ptsMs := location.bind fun found => found.1.ptsMs }
  featureId := none
  text := none
  vector := some hint.vector
  metadata :=
    [("object_type", .str "face"), ("feature_space_id", .str hint.featureSpaceId),
      ("model_id", .str hint.modelId), ("model_version", .str hint.modelVersion),
      ("quality", orNull .num hint.quality),
      ("unit_index", orNull (fun found => .num (found : MediaUnitResult × VisionObject).1.index)
        location),
      run.sourceField]
  status := .ready
  createdAt := now
  expiresAt := some run.expiresAt
  deletedAt := none

end Run

namespace Envelope

variable (envelope : Envelope)

/-- Every object with its unit. -/
def objects : List (MediaUnitResult × VisionObject) :=
  envelope.units.flatMap fun unit => unit.objects.map fun item => (unit, item)

/-- The blocks that have an id and a text. -/
def textBlocks : List OcrTextBlock := envelope.blocks.filter fun block => block.blockId ≠ "" &&
    block.text ≠ ""

/-- `records`. -/
def records (run : Run) (now : ℚ) : List IndexRecord :=
  envelope.objects.map (fun found => run.objectRecord envelope.domain now found.1 found.2) ++
    ((if envelope.text = "" then [] else [run.textRecord envelope now]) ++
      envelope.textBlocks.map (run.blockRecord envelope.domain now))

/-- The first object that has the id. -/
def locate (objectId : String) : Option (MediaUnitResult × VisionObject) :=
  envelope.objects.find? fun found => found.2.objectId = objectId

/-- The record of a hint. -/
def vectorRecord (run : Run) (now : ℚ) (hint : ResultIndexVector) : IndexRecord :=
  run.vectorRecord envelope.domain now (envelope.locate hint.objectId) hint

/-- `vector_records`. -/
def vectorRecords (run : Run) (now : ℚ) : List IndexRecord :=
  envelope.indexVectors.map (envelope.vectorRecord run now)

/-- The index of the domain. -/
def definition (now : ℚ) : IndexDefinition where
  indexId := "result." ++ envelope.domain
  schemaVersion := "1.0"
  domain := envelope.domain
  recordKind := .multimodal
  vectorDimension := none
  vectorModelId := none
  vectorModelVersion := none
  distanceMetric := none
  threshold := none
  textAnalyzer := some "simple"
  createdAt := now

/-- The index of the feature space of a hint. -/
def vectorDefinition (now : ℚ) (hint : ResultIndexVector) : IndexDefinition where
  indexId := "result." ++ hint.featureSpaceId
  schemaVersion := "1.0"
  domain := envelope.domain
  recordKind := .vector
  vectorDimension := some hint.vector.length
  vectorModelId := some hint.modelId
  vectorModelVersion := some hint.modelVersion
  distanceMetric := some "cosine"
  threshold := some (4 / 5)
  textAnalyzer := none
  createdAt := now

end Envelope

/-! ## `_index_result` -/

/-- The fields of a definition that pydantic checks. -/
def IndexDefinition.valid (definition : IndexDefinition) : Bool :=
  decide (2 ≤ definition.indexId.length ∧ definition.indexId.length ≤ 128 ∧
    1 ≤ definition.domain.length ∧ definition.domain.length ≤ 64) &&
  definition.vectorDimension.all (fun dimension => 0 < dimension && dimension ≤ 65536) &&
  definition.vectorModelId.all (·.length ≤ 128) && definition.vectorModelVersion.all (·.length ≤ 64)

/-- The fields of a record that pydantic checks. -/
def IndexRecord.valid (record : IndexRecord) : Bool :=
  decide (1 ≤ record.source.sourceId.length ∧ record.source.sourceId.length ≤ 256) &&
  record.source.pageNumber.all (1 ≤ ·) && record.text.all (·.length ≤ 1000000) &&
  record.vector.all (·.length ≤ 65536)

namespace Envelope

variable (envelope : Envelope)

/-- The loop over the vector hints: an index for each, and its record. -/
def indexHints (run : Run) (now : ℚ) : List ResultIndexVector → Store → Outcome (List IndexRecord)
  | [], s => (.ok [], s)
  | hint :: hints, s =>
    if !(envelope.vectorDefinition now hint).valid then (.error .validationError, s)
    else
      match s.createIndex (envelope.vectorDefinition now hint) with
      | (.error e, s) => (.error e, s)
      | (.ok _, s) =>
        if !(envelope.vectorRecord run now hint).valid then (.error .validationError, s)
        else
          match indexHints run now hints s with
          | (.error e, s) => (.error e, s)
          | (.ok vectorRecords, s) => (.ok (envelope.vectorRecord run now hint :: vectorRecords), s)

/-- `_index_result`. -/
def indexResult (run : Run) (now : ℚ) (s : Store) : Outcome Unit :=
  let deleted := (s.deleteSource run.tenantId run.projectId "run_result" run.runId now).2
  if !(envelope.definition now).valid then (.error .validationError, deleted)
  else
    match deleted.createIndex (envelope.definition now) with
    | (.error e, s) => (.error e, s)
    | (.ok _, s) =>
      if !(envelope.records run now).all IndexRecord.valid then (.error .validationError, s)
      else
        match s.upsertMany (envelope.records run now) with
        | (.error e, s) => (.error e, s)
        | (.ok _, s) =>
          match envelope.indexHints run now envelope.indexVectors s with
          | (.error e, s) => (.error e, s)
          | (.ok vectorRecords, s) =>
            match s.upsertMany vectorRecords with
            | (.error e, s) => (.error e, s)
            | (.ok _, s) => (.ok (), s)

/-- The index step of a final `_store_result`: the status of the reference. -/
def storeIndex (run : Run) (now : ℚ) (s : Store) : IndexStatus × Store :=
  match envelope.indexResult run now s with
  | (.ok _, s) => (.ready, s)
  | (.error _, s) => (.inPartial, s)

end Envelope

end Scenara.Index
