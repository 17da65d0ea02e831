import Mathlib.Data.List.Dedup
import Mathlib.Data.List.Sort
import Mathlib.Data.String.Basic
import Scenara.Core.Dict
import Scenara.Core.Json
import Scenara.Core.Vectors

/-!
# The index store in memory

Model of `MemoryIndexStore` (`platform/index.py`).

* An operation gives what it returns or raises, and the store that it leaves (`Outcome`);
  `upsert_many` leaves the records before the one that it raises at.
* Times are arguments. `casefold` is a parameter, as is the root in `_score` (`Geometry`).
* `query_vector`, `query_text` and `rebuild` read every page of `list_records`; `allPages` is that
  loop.
-/

namespace Scenara.Index

open Scenara.Core

/-! ## Records -/

/-- `IndexRecordKind`. -/
inductive IndexRecordKind where
  | vector
  | text
  | multimodal
  deriving DecidableEq

/-- `IndexRecordStatus`. -/
inductive IndexRecordStatus where
  | ready
  | pending
  | failed
  | deleted
  deriving DecidableEq

/-- `IndexDefinition`. -/
structure IndexDefinition where
  indexId : String
  schemaVersion : String
  domain : String
  recordKind : IndexRecordKind
  vectorDimension : Option Nat
  vectorModelId : Option String
  vectorModelVersion : Option String
  distanceMetric : Option String
  threshold : Option ℚ
  textAnalyzer : Option String
  createdAt : ℚ
  deriving DecidableEq

/-- `definition.model_dump(exclude={"created_at"})`. -/
def IndexDefinition.contract (definition : IndexDefinition) : IndexDefinition :=
  { definition with createdAt := 0 }

/-- `IndexSourceRef`. -/
structure IndexSourceRef where
  sourceType : String
  sourceId : String
  assetId : Option String
  runId : Option String
  unitId : Option String
  objectId : Option String
  artifactId : Option String
  pageNumber : Option Nat
  ptsMs : Option Nat

/-- The key of a record: `(tenant_id, project_id, record_id)`. -/
structure RecordKey where
  tenantId : String
  projectId : String
  recordId : String
  deriving DecidableEq

/-- `IndexRecord`. -/
structure IndexRecord extends RecordKey where
  indexId : String
  domain : String
  kind : IndexRecordKind
  source : IndexSourceRef
  featureId : Option String
  text : Option String
  vector : Option (List Scalar)
  metadata : List (String × Json)
  status : IndexRecordStatus
  createdAt : ℚ
  expiresAt : Option ℚ
  deletedAt : Option ℚ

/-- `IndexHit`. -/
structure IndexHit where
  recordId : String
  indexId : String
  domain : String
  source : IndexSourceRef
  featureId : Option String
  score : ℚ
  distance : Option ℚ
  textSnippet : Option String
  metadata : List (String × Json)

/-- What a call raises. -/
inductive Error where
  | indexStoreError (message : String)
  /-- A record or a definition that cannot be built. -/
  | validationError
  | databaseError
  deriving DecidableEq

/-- The definitions and the records. -/
structure Store where
  indexes : Dict String IndexDefinition
  records : Dict RecordKey IndexRecord

/-- An empty store. -/
def Store.empty : Store := ⟨Dict.empty, Dict.empty⟩

/-- What an operation returns or raises, and what it leaves. -/
abbrev Outcome (R : Type) := Except Error R × Store

/-! ## Text -/

/-- `str.isspace` of a character. -/
def isSpace (c : Char) : Bool :=
  let n := c.toNat
  (9 ≤ n && n ≤ 13) || (28 ≤ n && n ≤ 32) || n = 0x85 || n = 0xA0 || n = 0x1680 ||
    (0x2000 ≤ n && n ≤ 0x200A) || n = 0x2028 || n = 0x2029 || n = 0x202F || n = 0x205F || n = 0x3000

/-- `not text.strip()`. -/
def blank (text : String) : Bool := text.toList.all isSpace

/-- `{term.casefold() for term in query.split() if term.strip()}`. -/
def queryTerms (casefold : String → String) (query : String) : List String :=
  (((query.toList.splitOnP isSpace).filter (· ≠ [])).map fun term =>
    casefold (String.ofList term)).dedup

/-- `term in text`. -/
def occurs (term text : String) :
    Bool := text.toList.tails.any fun suffix => term.toList.isPrefixOf suffix

/-- `xs[:limit]`. -/
def upTo {R : Type} (limit : Int) (xs : List R) : List R :=
  if 0 ≤ limit then xs.take limit.toNat else xs.take (xs.length - limit.natAbs)

/-! ## Operations -/

namespace Store

variable (s : Store)

/-- `create_index`. -/
def createIndex (definition : IndexDefinition) : Outcome IndexDefinition :=
  match s.indexes.get? definition.indexId with
  | some existing =>
    if existing.contract ≠ definition.contract then
      (.error (.indexStoreError "index contract conflicts with an existing definition"), s)
    else (.ok definition, { s with indexes := s.indexes.insert definition.indexId definition })
  | none => (.ok definition, { s with indexes := s.indexes.insert definition.indexId definition })

/-- `_validate_vector`. -/
def validateVector (definition : IndexDefinition) (vector : List Scalar) : Except Error Unit :=
  if definition.vectorDimension ≠ some vector.length then
    .error (.indexStoreError "index vector dimension does not match its contract")
  else if !finite vector then .error (.indexStoreError "index vector contains a non-finite value")
  else .ok ()

/-- The checks of `upsert`. -/
def check (record : IndexRecord) : Except Error Unit :=
  match s.indexes.get? record.indexId with
  | none => .error (.indexStoreError "index definition does not exist")
  | some definition => do
    if record.domain ≠ definition.domain ∨ record.kind ≠ definition.recordKind then
      throw (.indexStoreError "index record does not match its contract")
    if definition.vectorDimension.isSome then
      if let some vector := record.vector then
        validateVector definition vector
      if definition.recordKind = .vector ∧ record.vector = none ∧ record.featureId = none then
        throw (.indexStoreError "vector index records require a vector or feature reference")
    if definition.recordKind = .text ∧ blank (record.text.getD "") = true then
      throw (.indexStoreError "text index records require text")

/-- The record is stored. -/
def put (record : IndexRecord) : Store :=
  { s with records := s.records.insert record.toRecordKey record }

/-- `upsert`. -/
def upsert (record : IndexRecord) : Outcome IndexRecord :=
  match s.check record with
  | .error e => (.error e, s)
  | .ok _ => (.ok record, s.put record)

/-- `upsert_many`. -/
def upsertMany (s : Store) : List IndexRecord → Outcome (List IndexRecord)
  | [] => (.ok [], s)
  | record :: records =>
    match s.upsert record with
    | (.error e, s) => (.error e, s)
    | (.ok upserted, s) =>
      match s.upsertMany records with
      | (.error e, s) => (.error e, s)
      | (.ok upsertedMany, s) => (.ok (upserted :: upsertedMany), s)

/-- The records that `list_records` pages through, in the order of the store. -/
def rows (tenantId projectId : String) (indexId sourceType sourceId : Option String) :
    List IndexRecord :=
  (s.records.entries.filter fun row =>
    row.1.tenantId = tenantId && row.1.projectId = projectId && row.2.status ≠ .deleted &&
      indexId.all (row.2.indexId = ·) && sourceType.all (row.2.source.sourceType = ·) &&
      sourceId.all (row.2.source.sourceId = ·)).map Prod.snd

/-- The later comes first, and of two of one time the one with the greater id. -/
def newer (x y : IndexRecord) : Prop :=
  y.createdAt < x.createdAt ∨ (x.createdAt = y.createdAt ∧ y.recordId ≤ x.recordId)
  deriving Decidable

/-- `list_records`. -/
def listRecords (tenantId projectId : String) (indexId sourceType sourceId : Option String)
    (offset limit : Int) : Except Error (List IndexRecord) :=
  if offset < 0 ∨ ¬(1 ≤ limit ∧ limit ≤ 1000) then
    .error (.indexStoreError "invalid index pagination")
  else
    .ok ((((s.rows tenantId projectId indexId sourceType sourceId).insertionSort newer).drop
      offset.toNat).take limit.toNat)

end Store

/-- `while True: page = ...`: every page of 1000 rows. -/
def allPages {R : Type} (rows : List R) : (fuel : Nat) → (offset : Nat) → List R
  | 0, _ => []
  | fuel + 1, offset =>
    let page := (rows.drop offset).take 1000
    if page.length < 1000 then page else page ++ allPages rows fuel (offset + page.length)

theorem allPages_eq {R : Type} (rows : List R) {fuel offset : Nat}
    (hfuel : rows.length < offset + 1000 * fuel) :
    allPages rows fuel offset = rows.drop offset := by
  induction fuel generalizing offset with
  | zero => rw [allPages, List.drop_eq_nil_of_le (by omega)]
  | succ _ ih =>
    rw [allPages]
    by_cases hpage : ((rows.drop offset).take 1000).length < 1000
    · rw [List.length_take, List.length_drop] at hpage
      rw [if_pos (by rw [List.length_take, List.length_drop]; exact hpage),
        List.take_of_length_le (by rw [List.length_drop]; omega)]
    · have hfull : ((rows.drop offset).take 1000).length = 1000 := by
        have hle := List.length_take_le 1000 (rows.drop offset)
        omega
      rw [if_neg hpage, hfull, ih (by omega), ← List.drop_drop, List.take_append_drop]

/-! ## Queries -/

/-- The metric of a definition; `none` is not supported. -/
def IndexDefinition.metric (definition : IndexDefinition) : Option Metric :=
  match definition.distanceMetric with
  | none | some "" | some "cosine" => some .cosine
  | some "l2" => some .l2
  | some "inner_product" => some .innerProduct
  | some _ => none

/-- `_score`. -/
def score (g : Geometry) (definition : IndexDefinition) (query candidate : List Scalar) :
    Except Error (ℚ × ℚ) :=
  if definition.vectorDimension ≠ some query.length ∨
    definition.vectorDimension ≠ some candidate.length then
    .error (.indexStoreError "vector dimension does not match index contract")
  else if !(finite query && finite candidate) then
    .error (.indexStoreError "vector contains a non-finite value")
  else
    match definition.metric with
    | none => .error (.indexStoreError "unsupported index distance metric")
    | some metric =>
      if metric = .cosine ∧ ((numbers query).all (· = 0) ∨ (numbers candidate).all (· = 0)) then
        .error (.indexStoreError "cosine query rejects a zero vector")
      else .ok (g.compare metric (numbers query) (numbers candidate))

/-- A hit before another: `(-score, distance, record_id)`. -/
def better (x y : IndexHit) : Prop :=
  y.score < x.score ∨ (x.score = y.score ∧ (x.distance.getD 0 < y.distance.getD 0 ∨
    (x.distance.getD 0 = y.distance.getD 0 ∧ x.recordId ≤ y.recordId)))
  deriving Decidable

/-- The hits among the rows: those without a vector are passed over. -/
def vectorHits (g : Geometry) (definition : IndexDefinition) (query : List Scalar)
    (threshold : Option ℚ) : List IndexRecord → Except Error (List IndexHit)
  | [] => .ok []
  | record :: records =>
    match record.vector with
    | none => vectorHits g definition query threshold records
    | some vector => do
      let (value, distance) ← score g definition query vector
      let hits ← vectorHits g definition query threshold records
      let cutoff := threshold.or definition.threshold
      return if cutoff.all (· ≤ value) then
          { recordId := record.recordId
            indexId := definition.indexId
            domain := record.domain
            source := record.source
            featureId := record.featureId
            score := value
            distance := some distance
            textSnippet := none
            metadata := record.metadata } :: hits
        else hits

/-- The hits among the rows: those in whose text some term stands. -/
def textHits (casefold : String → String) (indexId query : String) (records : List IndexRecord) :
    List IndexHit :=
  let terms := queryTerms casefold query
  records.filterMap fun record =>
    let text := casefold (record.text.getD "")
    let matched := (terms.filter fun term => occurs term text).length
    if matched = 0 then none
    else
      some {
        recordId := record.recordId
        indexId := indexId
        domain := record.domain
        source := record.source
        featureId := record.featureId
        score := matched / max 1 terms.length
        distance := none
        textSnippet := some (String.ofList ((record.text.getD "").toList.take 240))
        metadata := record.metadata }

namespace Store

variable (s : Store)

/-- Every row of the index. -/
def allRows (tenantId projectId indexId : String) : List IndexRecord :=
  let rows := (s.rows tenantId projectId (some indexId) none none).insertionSort newer
  allPages rows (rows.length + 1) 0

/-- `query_vector`. -/
def queryVector (g : Geometry) (tenantId projectId indexId : String) (vector : List Scalar)
    (limit : Int) (threshold : Option ℚ) : Except Error (List IndexHit) :=
  if ¬(1 ≤ limit ∧ limit ≤ 200) then
    .error (.indexStoreError "index query limit must be between 1 and 200")
  else
    match s.indexes.get? indexId with
    | none => .error (.indexStoreError "vector index definition does not exist")
    | some definition =>
      if definition.vectorDimension = none then
        .error (.indexStoreError "vector index definition does not exist")
      else do
        let hits ← vectorHits g definition vector threshold (s.allRows tenantId projectId indexId)
        return (hits.insertionSort better).take limit.toNat

/-- `query_text`. -/
def queryText (casefold : String → String) (tenantId projectId indexId query : String)
    (limit : Int) : Except Error (List IndexHit) :=
  if blank query then .ok []
  else
    match s.indexes.get? indexId with
    | none => .error (.indexStoreError "text index definition does not exist")
    | some definition =>
      if definition.recordKind = .vector then
        .error (.indexStoreError "text index definition does not exist")
      else
        .ok (upTo limit ((textHits casefold indexId query
          (s.allRows tenantId projectId indexId)).insertionSort better))

/-- Records are marked as deleted. -/
def markDeleted (p : RecordKey → IndexRecord → Bool) (now : ℚ) : Store :=
  { s with
    records := s.records.mapVals fun key record =>
      if p key record then { record with status := .deleted, deletedAt := some now } else record }

/-- How many records there are of the kind. -/
def count (p : RecordKey → IndexRecord → Bool) :
    Nat := s.records.entries.countP fun row => p row.1 row.2

/-- The record comes from the source. -/
def ofSource (tenantId projectId sourceType sourceId : String) (key : RecordKey)
    (record : IndexRecord) : Bool :=
  key.tenantId = tenantId && key.projectId = projectId && record.source.sourceType = sourceType &&
    record.source.sourceId = sourceId

/-- `delete_source`: deleted records are marked again. -/
def deleteSource (tenantId projectId sourceType sourceId : String) (now : ℚ) : Outcome Nat :=
  let p := ofSource tenantId projectId sourceType sourceId
  (.ok (s.count p), s.markDeleted p now)

/-- The record belongs to the asset, and is not deleted. -/
def ofAsset (tenantId projectId assetId : String) (key : RecordKey) (record : IndexRecord) : Bool :=
  key.tenantId = tenantId && key.projectId = projectId && record.source.assetId = some assetId &&
    record.status ≠ .deleted

/-- `delete_asset`. -/
def deleteAsset (tenantId projectId assetId : String) (now : ℚ) : Outcome Nat :=
  let p := ofAsset tenantId projectId assetId
  (.ok (s.count p), s.markDeleted p now)

/-- The record has expired, and is not deleted. -/
def expired (before : ℚ) (record : IndexRecord) : Bool :=
  record.status ≠ .deleted && record.expiresAt.any (· ≤ before)

/-- The order of the keys as tuples. -/
def keyLe (x y : RecordKey) : Prop :=
  x.tenantId < y.tenantId ∨ (x.tenantId = y.tenantId ∧ (x.projectId < y.projectId ∨
    (x.projectId = y.projectId ∧ x.recordId ≤ y.recordId)))
  deriving Decidable

/-- `(expires_at or 0, key)`. -/
def expiresFirst (x y : RecordKey × IndexRecord) : Prop :=
  x.2.expiresAt.getD 0 < y.2.expiresAt.getD 0 ∨
    (x.2.expiresAt.getD 0 = y.2.expiresAt.getD 0 ∧ keyLe x.1 y.1)
  deriving Decidable

/-- `delete_expired`. -/
def deleteExpired (before : ℚ) (limit : Int) : Outcome Nat :=
  if ¬(1 ≤ limit ∧ limit ≤ 10000) then
    (.error (.indexStoreError "index retention limit must be between 1 and 10000"), s)
  else
    let keys := (((s.records.entries.filter fun row => expired before row.2).insertionSort
      expiresFirst).take limit.toNat).map Prod.fst
    (.ok keys.length, s.markDeleted (fun key _ => decide (key ∈ keys)) before)

/-- Every vector among the records fits the definition. -/
def validateAll (definition : IndexDefinition) : List IndexRecord → Except Error Unit
  | [] => .ok ()
  | record :: records =>
    match record.vector, definition.vectorDimension with
    | some vector, some _ => do
      validateVector definition vector
      validateAll definition records
    | _, _ => validateAll definition records

/-- `rebuild`. -/
def rebuild (tenantId projectId indexId : String) : Except Error (Nat × Nat) :=
  match s.indexes.get? indexId with
  | none => .error (.indexStoreError "index definition does not exist")
  | some definition => do
    let records := s.allRows tenantId projectId indexId
    validateAll definition records
    return (records.length, records.length)

end Store

end Scenara.Index
