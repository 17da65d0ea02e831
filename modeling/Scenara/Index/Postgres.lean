import Scenara.Core.Postgres
import Scenara.Index.Model

/-!
# The index store in PostgreSQL

Model of `PostgresIndexStore` (`infrastructure/postgres_index.py`), and calls of either store.

* A table is keyed by its primary key; the columns of a row follow from its document. `scan` is the
  order in which a SELECT meets the rows: where ORDER BY leaves ties, that decides.
* Every text that a statement is given has to be free of NUL. What does not fit a column, and a
  vector that is no JSON, make the statement raise; its transaction is rolled back.
* `upsert_many` validates every record before its transaction.
* `query_vector` and `query_text` put the rows of the index into a new memory store and ask that.
-/

namespace Scenara.Index

open Scenara.Core

/-- The server, and what else decides about the table. -/
structure Database extends Server where
  /-- The order in which the rows of the table are met. -/
  scan : List (RecordKey × IndexRecord) → List (RecordKey × IndexRecord)
  scan_perm : ∀ rows, (scan rows).Perm rows
  /-- The metadata can be stored as `jsonb`. -/
  storable : List (String × Json) → Bool

/-! ## Rows -/

/-- The texts of a definition. -/
def IndexDefinition.texts (definition : IndexDefinition) : List String :=
  [definition.indexId, definition.schemaVersion, definition.domain] ++
    [definition.vectorModelId, definition.vectorModelVersion, definition.distanceMetric,
      definition.textAnalyzer].reduceOption

/-- The texts of a record. -/
def IndexRecord.texts (record : IndexRecord) : List String :=
  [record.tenantId, record.projectId, record.recordId, record.indexId, record.domain,
    record.source.sourceType, record.source.sourceId] ++
    [record.source.assetId, record.source.runId, record.source.unitId, record.source.objectId,
      record.source.artifactId, record.featureId, record.text].reduceOption

variable (db : Database)

/-- The values of the definition fit their columns. -/
def Database.fitsIndex (definition : IndexDefinition) : Bool :=
  bindable definition.texts && db.inRange definition.createdAt

/-- The values of the record fit their columns. -/
def Database.fits (record : IndexRecord) : Bool :=
  bindable record.texts && record.vector.all finite && db.storable record.metadata &&
    record.source.pageNumber.all (· ≤ maxInteger) && record.source.ptsMs.all (· ≤ maxBigint) &&
    db.inRange record.createdAt && record.expiresAt.all db.inRange &&
      record.deletedAt.all db.inRange

/-- `ORDER BY created_at DESC, record_id DESC`. -/
def newerRow (x y : IndexRecord) : Prop :=
  db.column y.createdAt < db.column x.createdAt ∨
    (db.column x.createdAt = db.column y.createdAt ∧ db.sortKey y.recordId ≤ db.sortKey x.recordId)
  deriving Decidable

/-- `expires_at`. -/
def expiresAt (row : RecordKey × IndexRecord) : ℤ := db.column (row.2.expiresAt.getD 0)

/-- `ORDER BY expires_at, record_id`. -/
def expiresBefore (x y : RecordKey × IndexRecord) : Prop :=
  expiresAt db x < expiresAt db y ∨
    (expiresAt db x = expiresAt db y ∧ db.sortKey x.1.recordId ≤ db.sortKey y.1.recordId)
  deriving Decidable

/-- `expires_at <= to_timestamp(before) AND status <> 'deleted'`. -/
def expiredRow (before : ℚ) (record : IndexRecord) : Bool :=
  record.status ≠ .deleted && record.expiresAt.any (db.column · ≤ db.column before)

/-! ## Operations -/

namespace Store

variable (s : Store)

/-- `create_index`: what is stored stays, and is returned. -/
def insertIndex (definition : IndexDefinition) : Outcome IndexDefinition :=
  if !db.fitsIndex definition then (.error .databaseError, s)
  else
    let stored := (s.indexes.get? definition.indexId).getD definition
    let inserted : Store :=
      if (s.indexes.get? definition.indexId).isSome then s
      else { s with indexes := s.indexes.insert definition.indexId definition }
    if stored.contract ≠ definition.contract then
      (.error (.indexStoreError "index contract conflicts with an existing definition"), inserted)
    else (.ok stored, inserted)

/-- `get_index`. -/
def getIndex (indexId : String) : Except Error (Option IndexDefinition) :=
  if !bindable [indexId] then .error .databaseError else .ok (s.indexes.get? indexId)

/-- The checks of `upsert_many`. -/
def checkRow (record : IndexRecord) : Except Error Unit := do
  match ← s.getIndex record.indexId with
  | none => .error (.indexStoreError "index definition does not exist")
  | some definition =>
    if record.domain ≠ definition.domain ∨ record.kind ≠ definition.recordKind then
      throw (.indexStoreError "index record does not match its contract")
    if definition.vectorDimension.isSome then
      if let some vector := record.vector then
        validateVector definition vector
    if definition.recordKind = .vector ∧ record.vector = none ∧ record.featureId = none then
      throw (.indexStoreError "vector index records require a vector or feature reference")
    if definition.recordKind = .text ∧ blank (record.text.getD "") = true then
      throw (.indexStoreError "text index records require text")

/-- Every record is checked before the first is written. -/
def checkRows (s : Store) : List IndexRecord → Except Error Unit
  | [] => .ok ()
  | record :: records =>
    match s.checkRow record with
    | .error e => .error e
    | .ok _ => s.checkRows records

/-- `upsert_many`. -/
def insertMany (records : List IndexRecord) : Outcome (List IndexRecord) :=
  match s.checkRows records with
  | .error e => (.error e, s)
  | .ok _ =>
    if records.all db.fits then
      (.ok records, { s with records := s.records.insertAll IndexRecord.toRecordKey records })
    else (.error .databaseError, s)

/-- The rows that `list_records` pages through. -/
def selectRows (tenantId projectId : String) (indexId sourceType sourceId : Option String) :
    List IndexRecord :=
  (((db.scan s.records.entries).filter fun row =>
    row.1.tenantId = tenantId && row.1.projectId = projectId && row.2.status ≠ .deleted &&
      indexId.all (row.2.indexId = ·) && sourceType.all (row.2.source.sourceType = ·) &&
      sourceId.all (row.2.source.sourceId = ·)).map Prod.snd).insertionSort (newerRow db)

/-- `list_records`; `OFFSET` is a `bigint`. -/
def selectRecords (tenantId projectId : String) (indexId sourceType sourceId : Option String)
    (offset limit : Int) : Except Error (List IndexRecord) :=
  if offset < 0 ∨ ¬(1 ≤ limit ∧ limit ≤ 1000) then
    .error (.indexStoreError "invalid index pagination")
  else if !bindable ([tenantId, projectId] ++ [indexId, sourceType, sourceId].reduceOption) ||
      maxBigint < offset then
    .error .databaseError
  else
    let rows := s.selectRows db tenantId projectId indexId sourceType sourceId
    .ok ((rows.drop offset.toNat).take limit.toNat)

/-- Every row of the index. -/
def selectAll (tenantId projectId indexId : String) : Except Error (List IndexRecord) :=
  if !bindable [tenantId, projectId, indexId] then .error .databaseError
  else
    let rows := s.selectRows db tenantId projectId (some indexId) none none
    .ok (allPages rows (rows.length + 1) 0)

/-- A new memory store with the definition and the rows, `await memory.upsert(row)` each. -/
def inMemory (definition : IndexDefinition) (rows : List IndexRecord) :
    Outcome (List IndexRecord) :=
  (Store.empty.createIndex definition).2.upsertMany rows

/-- `query_vector`. -/
def queryVectorIn (g : Geometry) (tenantId projectId indexId : String) (vector : List Scalar)
    (limit : Int) (threshold : Option ℚ) : Except Error (List IndexHit) := do
  match ← s.getIndex indexId with
  | none => .error (.indexStoreError "vector index definition does not exist")
  | some definition =>
    match inMemory definition (← s.selectAll db tenantId projectId indexId) with
    | (.error e, _) => .error e
    | (.ok _, memory) => memory.queryVector g tenantId projectId indexId vector limit threshold

/-- `query_text`. -/
def queryTextIn (casefold : String → String) (tenantId projectId indexId query : String)
    (limit : Int) : Except Error (List IndexHit) := do
  let rows ← s.selectAll db tenantId projectId indexId
  match ← s.getIndex indexId with
  | none => .error (.indexStoreError "text index definition does not exist")
  | some definition =>
    match inMemory definition rows with
    | (.error e, _) => .error e
    | (.ok _, memory) => memory.queryText casefold tenantId projectId indexId query limit

/-- `delete_source`: only what is not deleted. -/
def updateSource (tenantId projectId sourceType sourceId : String) (now : ℚ) : Outcome Nat :=
  if !bindable [tenantId, projectId, sourceType, sourceId] then (.error .databaseError, s)
  else
    let p := fun key record =>
      ofSource tenantId projectId sourceType sourceId key record &&
        decide (record.status ≠ .deleted)
    (.ok (s.count p), s.markDeleted p now)

/-- `delete_asset`. -/
def updateAsset (tenantId projectId assetId : String) (now : ℚ) : Outcome Nat :=
  if !bindable [tenantId, projectId, assetId] then (.error .databaseError, s)
  else
    let p := ofAsset tenantId projectId assetId
    (.ok (s.count p), s.markDeleted p now)

/-- `delete_expired`. -/
def updateExpired (before : ℚ) (limit : Int) : Outcome Nat :=
  if ¬(1 ≤ limit ∧ limit ≤ 10000) then
    (.error (.indexStoreError "index retention limit must be between 1 and 10000"), s)
  else if !db.inRange before then (.error .databaseError, s)
  else
    let stale := ((((db.scan s.records.entries).filter fun row =>
      expiredRow db before row.2).insertionSort (expiresBefore db)).take limit.toNat).map Prod.fst
    (.ok stale.length, s.markDeleted (fun key _ => decide (key ∈ stale)) before)

/-- `rebuild`. -/
def rebuildIn (tenantId projectId indexId : String) : Except Error (Nat × Nat) := do
  match ← s.getIndex indexId with
  | none => .error (.indexStoreError "index definition does not exist")
  | some _ =>
    let seen := (← s.selectAll db tenantId projectId indexId).length
    return (seen, seen)

end Store

/-! ## Calls -/

/-- A call of an index store, with the time that it reads. -/
inductive Call where
  | createIndex (definition : IndexDefinition)
  | upsert (record : IndexRecord)
  | upsertMany (records : List IndexRecord)
  | listRecords (tenantId projectId : String) (indexId sourceType sourceId : Option String)
      (offset limit : Int)
  | queryVector (tenantId projectId indexId : String) (vector : List Scalar) (limit : Int)
      (threshold : Option ℚ)
  | queryText (tenantId projectId indexId query : String) (limit : Int)
  | deleteSource (tenantId projectId sourceType sourceId : String) (now : ℚ)
  | deleteAsset (tenantId projectId assetId : String) (now : ℚ)
  | deleteExpired (before : ℚ) (limit : Int)
  | rebuild (tenantId projectId indexId : String)

/-- What a call returns. -/
inductive Answer where
  | definition (definition : IndexDefinition)
  | records (records : List IndexRecord)
  | hits (hits : List IndexHit)
  | count (count : Nat)
  | counts (counts : Nat × Nat)

variable (g : Geometry) (casefold : String → String)

/-- The call on the memory store. -/
def Call.onMemory (s : Store) : Call → Outcome Answer
  | .createIndex definition => (s.createIndex definition).map (·.map .definition) id
  | .upsert record => (s.upsert record).map (·.map fun record => .records [record]) id
  | .upsertMany records => (s.upsertMany records).map (·.map .records) id
  | .listRecords tenantId projectId indexId sourceType sourceId offset limit =>
    ((s.listRecords tenantId projectId indexId sourceType sourceId offset limit).map .records, s)
  | .queryVector tenantId projectId indexId vector limit threshold =>
    ((s.queryVector g tenantId projectId indexId vector limit threshold).map .hits, s)
  | .queryText tenantId projectId indexId query limit =>
    ((s.queryText casefold tenantId projectId indexId query limit).map .hits, s)
  | .deleteSource tenantId projectId sourceType sourceId now =>
    (s.deleteSource tenantId projectId sourceType sourceId now).map (·.map .count) id
  | .deleteAsset tenantId projectId assetId now =>
    (s.deleteAsset tenantId projectId assetId now).map (·.map .count) id
  | .deleteExpired before limit => (s.deleteExpired before limit).map (·.map .count) id
  | .rebuild tenantId projectId indexId => ((s.rebuild tenantId projectId indexId).map .counts, s)

/-- The call on the PostgreSQL store. -/
def Call.onPostgres (s : Store) : Call → Outcome Answer
  | .createIndex definition => (s.insertIndex db definition).map (·.map .definition) id
  | .upsert record => (s.insertMany db [record]).map (·.map .records) id
  | .upsertMany records => (s.insertMany db records).map (·.map .records) id
  | .listRecords tenantId projectId indexId sourceType sourceId offset limit =>
    ((s.selectRecords db tenantId projectId indexId sourceType sourceId offset limit).map .records,
      s)
  | .queryVector tenantId projectId indexId vector limit threshold =>
    ((s.queryVectorIn db g tenantId projectId indexId vector limit threshold).map .hits, s)
  | .queryText tenantId projectId indexId query limit =>
    ((s.queryTextIn db casefold tenantId projectId indexId query limit).map .hits, s)
  | .deleteSource tenantId projectId sourceType sourceId now =>
    (s.updateSource tenantId projectId sourceType sourceId now).map (·.map .count) id
  | .deleteAsset tenantId projectId assetId now =>
    (s.updateAsset tenantId projectId assetId now).map (·.map .count) id
  | .deleteExpired before limit => (s.updateExpired db before limit).map (·.map .count) id
  | .rebuild tenantId projectId indexId => ((s.rebuildIn db tenantId projectId indexId).map .counts,
      s)

end Scenara.Index
