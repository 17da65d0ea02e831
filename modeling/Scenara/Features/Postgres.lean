import Scenara.Core.Postgres
import Scenara.Features.Model

/-!
# The feature store in PostgreSQL

Model of `PostgresFeatureStore` (`infrastructure/postgres_features.py`) over the tables of
`0001_initial.sql`, and calls of either store.

* A row keeps the times that it was given; what a statement sees of them is their column, and what
  it returns of them is read back from the column. `create_space` gives a row the time of the
  statement.
* Beside its primary key a space is unique by its contract (`sameContract`).
* `ORDER BY distance` leaves ties to the order in which the rows are met (`scan`). The distance
  operators are exact.
-/

namespace Scenara.Features

open Scenara.Core

/-- The server, and what else decides about the tables. -/
structure Database extends Server where
  /-- `extract(epoch from ...)`, as the driver returns it. -/
  epoch : ℤ → ℚ
  /-- The order in which the rows of the table are met. -/
  scan : List (FeatureKey × FeatureRecord) → List (FeatureKey × FeatureRecord)
  scan_perm : ∀ rows, (scan rows).Perm rows

/-- The most dimensions that the type `vector` has. -/
def maxDimensions : Nat := 16000

variable (db : Database)

/-! ## Rows -/

/-- The time that is read back. -/
def Database.readBack (t : ℚ) : ℚ := db.epoch (db.column t)

/-- A space as it is read. -/
def Database.readSpace (space : FeatureSpace) : FeatureSpace :=
  { space with createdAt := db.readBack space.createdAt }

/-- A feature as it is read. -/
def Database.readFeature (feature : FeatureRecord) : FeatureRecord :=
  { feature with
    createdAt := db.readBack feature.createdAt, expiresAt := feature.expiresAt.map db.readBack }

/-- The texts of a space. -/
def FeatureSpace.texts (space : FeatureSpace) : List String :=
  [space.featureSpaceId, space.domain, space.modality, space.modelId, space.modelVersion]

/-- The texts of a feature. -/
def FeatureRecord.texts (feature : FeatureRecord) : List String :=
  [feature.tenantId, feature.projectId, feature.featureId, feature.featureSpaceId,
    feature.subjectType, feature.subjectId]

/-- The texts of a key. -/
def FeatureKey.texts (key : FeatureKey) :
    List String := [key.tenantId, key.projectId, key.featureId]

/-- The values of the feature fit their columns. -/
def Database.fits (feature : FeatureRecord) : Bool :=
  bindable feature.texts && feature.embedding.length ≤ maxDimensions &&
    db.inRange feature.createdAt && feature.expiresAt.all db.inRange

/-- `UNIQUE (domain, modality, model_id, model_version, dimension, distance_metric)`. -/
def sameContract (x y : FeatureSpace) : Bool :=
  x.domain = y.domain && x.modality = y.modality && x.modelId = y.modelId &&
  x.modelVersion = y.modelVersion &&
    x.dimension = y.dimension && x.distanceMetric = y.distanceMetric

/-- `NOT (expires_at IS NULL OR expires_at > now())`. -/
def expiredRow (now : ℚ) (feature : FeatureRecord) :
    Bool := feature.expiresAt.any (db.column · ≤ db.column now)

/-- `ORDER BY created_at, feature_id`. -/
def olderRow (x y : FeatureRecord) : Prop :=
  db.column x.createdAt < db.column y.createdAt ∨
    (db.column x.createdAt = db.column y.createdAt ∧
      db.sortKey x.featureId ≤ db.sortKey y.featureId)
  deriving Decidable

/-- `expires_at`. -/
def expiresAt (row : FeatureKey × FeatureRecord) : ℤ := db.column (row.2.expiresAt.getD 0)

/-- `ORDER BY expires_at, feature_id`. -/
def expiresBefore (x y : FeatureKey × FeatureRecord) : Prop :=
  expiresAt db x < expiresAt db y ∨
    (expiresAt db x = expiresAt db y ∧ db.sortKey x.1.featureId ≤ db.sortKey y.1.featureId)
  deriving Decidable

/-- `ORDER BY distance`. -/
def nearer (x y : FeatureRecord × ℚ) : Prop := x.2 ≤ y.2
  deriving Decidable

/-! ## Operations -/

namespace Store

variable (s : Store)

/-- `get_space`, before it is read back. -/
def getSpace (featureSpaceId : String) : Except Error (Option FeatureSpace) :=
  if !bindable [featureSpaceId] then .error .databaseError else .ok (s.spaces.get? featureSpaceId)

/-- `create_space`, at the time `now` of the statement: what is stored stays, and is returned. -/
def insertSpace (space : FeatureSpace) (now : ℚ) : Outcome FeatureSpace :=
  if !bindable space.texts then (.error .databaseError, s)
  else
    match s.spaces.get? space.featureSpaceId with
    | some stored =>
      if stored.contract ≠ space.contract then
        (.error (.featureStoreError "feature space conflicts with an existing contract"), s)
      else (.ok (db.readSpace stored), s)
    | none =>
      if s.spaces.values.any (sameContract space) then (.error .databaseError, s)
      else
        let stored := { space with createdAt := now }
        (.ok (db.readSpace stored),
          { s with spaces := s.spaces.insert space.featureSpaceId stored })

/-- `add`. -/
def insertFeature (feature : FeatureRecord) : Outcome FeatureRecord :=
  match s.getSpace feature.featureSpaceId with
  | .error e => (.error e, s)
  | .ok none => (.error (.featureStoreError "feature does not match its feature space"), s)
  | .ok (some space) =>
    match normalizeEmbedding feature.embedding space.dimension with
    | .error e => (.error e, s)
    | .ok _ =>
      if !db.fits feature || (s.features.get? feature.toFeatureKey).isSome then
        (.error .databaseError, s)
      else (.ok feature, { s with features := s.features.insert feature.toFeatureKey feature })

/-- The rows of `search`, each with its distance. -/
def distances (g : Geometry) (metric : Metric) (tenantId projectId featureSpaceId : String)
    (query : List ℚ) (now : ℚ) : List (FeatureRecord × ℚ) :=
  ((db.scan s.features.entries).filter fun row =>
    row.1.tenantId = tenantId && row.1.projectId = projectId &&
      row.2.featureSpaceId = featureSpaceId &&
      !expiredRow db now row.2).map fun row =>
        (row.2, g.distance metric (numbers row.2.embedding) query)

/-- `search`, at the time `now` of the statement. -/
def selectMatches (g : Geometry) (tenantId projectId featureSpaceId : String)
    (embedding : List Scalar)
    (limit : Int) (threshold : Option ℚ) (now : ℚ) : Except Error (List FeatureMatch) :=
  if ¬(1 ≤ limit ∧ limit ≤ 1000) then
    .error (.featureStoreError "feature search limit must be between 1 and 1000")
  else do
    match ← s.getSpace featureSpaceId with
    | none => .error (.featureStoreError "query does not match its feature space")
    | some space =>
      let query ← normalizeEmbedding embedding space.dimension
      if !bindable [tenantId, projectId] || maxDimensions < query.length then
        throw .databaseError
      let rows := ((s.distances db g space.distanceMetric tenantId projectId featureSpaceId query
        now).insertionSort nearer).take limit.toNat
      let cutoff := threshold.or space.threshold
      return rows.filterMap fun (feature, distance) =>
        let score := space.distanceMetric.score distance
        if cutoff.all (· ≤ score) then
          some ⟨feature.featureId, feature.subjectType, feature.subjectId, score, distance⟩
        else none

/-- `delete_subject`. -/
def removeSubject (tenantId projectId subjectType subjectId : String) : Outcome Nat :=
  if !bindable [tenantId, projectId, subjectType, subjectId] then (.error .databaseError, s)
  else
    let p := ofSubject tenantId projectId subjectType subjectId
    (.ok (s.count p), s.discard p)

/-- `delete_expired`. -/
def removeExpired (before : ℚ) (limit : Int) : Outcome Nat :=
  if ¬(1 ≤ limit ∧ limit ≤ 10000) then
    (.error (.featureStoreError "feature retention limit must be between 1 and 10000"), s)
  else if !db.inRange before then (.error .databaseError, s)
  else
    let keys := ((((db.scan s.features.entries).filter fun row =>
      expiredRow db before row.2).insertionSort (expiresBefore db)).take limit.toNat).map Prod.fst
    (.ok keys.length, s.discard fun key _ => decide (key ∈ keys))

/-- `get_feature`. -/
def selectFeature (key : FeatureKey) : Except Error (Option FeatureRecord) :=
  if !bindable key.texts then .error .databaseError
    else .ok ((s.features.get? key).map db.readFeature)

/-- `list_subject_features`. -/
def selectSubject (tenantId projectId featureSpaceId subjectType subjectId : String) :
    Except Error (List FeatureRecord) :=
  if !bindable [tenantId, projectId, featureSpaceId, subjectType, subjectId] then
    .error .databaseError
  else
    .ok (((((db.scan s.features.entries).filter fun row =>
      row.1.tenantId = tenantId && row.1.projectId = projectId &&
        row.2.featureSpaceId = featureSpaceId &&
        row.2.subjectType = subjectType && row.2.subjectId = subjectId).map Prod.snd).insertionSort
          (olderRow db)).map db.readFeature)

/-- `delete_feature`. -/
def removeFeature (key : FeatureKey) : Outcome Bool :=
  if !bindable key.texts then (.error .databaseError, s)
  else (.ok (s.features.get? key).isSome, { s with features := s.features.erase key })

end Store

/-! ## Calls -/

/-- A call of a feature store, with the time that it reads. -/
inductive Call where
  | createSpace (space : FeatureSpace) (now : ℚ)
  | add (feature : FeatureRecord)
  | search (tenantId projectId featureSpaceId : String) (embedding : List Scalar) (limit : Int)
      (threshold : Option ℚ) (now : ℚ)
  | getFeature (key : FeatureKey)
  | listSubjectFeatures (tenantId projectId featureSpaceId subjectType subjectId : String)
  | deleteFeature (key : FeatureKey)
  | deleteSubject (tenantId projectId subjectType subjectId : String)
  | deleteExpired (before : ℚ) (limit : Int)

/-- What a call returns. -/
inductive Answer where
  | space (space : FeatureSpace)
  | feature (feature : FeatureRecord)
  | matches (found : List FeatureMatch)
  | found (feature : Option FeatureRecord)
  | features (features : List FeatureRecord)
  | deleted (deleted : Bool)
  | count (count : Nat)

/-- The call on the memory store. -/
def Call.onMemory (g : Geometry) (s : Store) : Call → Outcome Answer
  | .createSpace space _ => (s.createSpace space).map (·.map .space) id
  | .add feature => (s.add feature).map (·.map .feature) id
  | .search tenantId projectId featureSpaceId embedding limit threshold now =>
    ((s.search g tenantId projectId featureSpaceId embedding limit threshold now).map .matches, s)
  | .getFeature key => (.ok (.found (s.getFeature key)), s)
  | .listSubjectFeatures tenantId projectId featureSpaceId subjectType subjectId =>
    (.ok (.features (s.listSubjectFeatures tenantId projectId featureSpaceId subjectType
      subjectId)), s)
  | .deleteFeature key => (s.deleteFeature key).map (·.map .deleted) id
  | .deleteSubject tenantId projectId subjectType subjectId =>
    (s.deleteSubject tenantId projectId subjectType subjectId).map (·.map .count) id
  | .deleteExpired before limit => (s.deleteExpired before limit).map (·.map .count) id

/-- The call on the PostgreSQL store. -/
def Call.onPostgres (g : Geometry) (s : Store) : Call → Outcome Answer
  | .createSpace space now => (s.insertSpace db space now).map (·.map .space) id
  | .add feature => (s.insertFeature db feature).map (·.map .feature) id
  | .search tenantId projectId featureSpaceId embedding limit threshold now =>
    ((s.selectMatches db g tenantId projectId featureSpaceId embedding limit threshold now).map
      .matches, s)
  | .getFeature key => ((s.selectFeature db key).map .found, s)
  | .listSubjectFeatures tenantId projectId featureSpaceId subjectType subjectId =>
    ((s.selectSubject db tenantId projectId featureSpaceId subjectType subjectId).map .features, s)
  | .deleteFeature key => (s.removeFeature key).map (·.map .deleted) id
  | .deleteSubject tenantId projectId subjectType subjectId =>
    (s.removeSubject tenantId projectId subjectType subjectId).map (·.map .count) id
  | .deleteExpired before limit => (s.removeExpired db before limit).map (·.map .count) id

end Scenara.Features
