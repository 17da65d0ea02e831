import Mathlib.Data.List.Sort
import Mathlib.Data.String.Basic
import Scenara.Core.Dict
import Scenara.Core.Vectors

/-!
# The feature store in memory

Model of `MemoryFeatureStore` (`platform/features.py`).

* An operation gives what it returns or raises, and the store that it leaves (`Outcome`).
* Times are arguments; the root of `compare_embeddings` is a parameter (`Geometry`).
-/

namespace Scenara.Features

open Scenara.Core

/-! ## Records -/

/-- `FeatureSpace`; `distance_metric` is a `Metric`. -/
structure FeatureSpace where
  featureSpaceId : String
  domain : String
  modality : String
  modelId : String
  modelVersion : String
  dimension : Nat
  distanceMetric : Metric
  threshold : Option ℚ
  createdAt : ℚ
  deriving DecidableEq

/-- `space.model_dump(exclude={"created_at"})`. -/
def FeatureSpace.contract (space : FeatureSpace) : FeatureSpace := { space with createdAt := 0 }

/-- The key of a feature: `(tenant_id, project_id, feature_id)`. -/
structure FeatureKey where
  tenantId : String
  projectId : String
  featureId : String
  deriving DecidableEq

/-- `FeatureRecord`. -/
structure FeatureRecord extends FeatureKey where
  featureSpaceId : String
  subjectType : String
  subjectId : String
  embedding : List Scalar
  createdAt : ℚ
  expiresAt : Option ℚ
  deriving DecidableEq

/-- `FeatureMatch`. -/
structure FeatureMatch where
  featureId : String
  subjectType : String
  subjectId : String
  score : ℚ
  distance : ℚ

/-- What a call raises. -/
inductive Error where
  | featureStoreError (message : String)
  | databaseError
  deriving DecidableEq

/-- The spaces and the features. -/
structure Store where
  spaces : Dict String FeatureSpace
  features : Dict FeatureKey FeatureRecord

/-- An empty store. -/
def Store.empty : Store := ⟨Dict.empty, Dict.empty⟩

/-- What an operation returns or raises, and what it leaves. -/
abbrev Outcome (R : Type) := Except Error R × Store

/-! ## Embeddings -/

/-- `normalize_embedding`. -/
def normalizeEmbedding (vector : List Scalar) (dimension : Nat) : Except Error (List ℚ) :=
  if vector.length ≠ dimension then
    .error (.featureStoreError s!"embedding dimension must be {dimension}")
  else if !finite vector then .error (.featureStoreError "embedding contains a non-finite value")
  else .ok (numbers vector)

/-- The vector has length zero. -/
def zero (vector : List ℚ) : Bool := vector.all (· = 0)

/-- `compare_embeddings`: the score and the distance. -/
def compareEmbeddings (g : Geometry) (space : FeatureSpace) (left right : List Scalar) :
    Except Error (ℚ × ℚ) := do
  let left ← normalizeEmbedding left space.dimension
  let right ← normalizeEmbedding right space.dimension
  if space.distanceMetric = .cosine ∧ (zero left ∨ zero right) then
    throw (.featureStoreError "cosine comparison rejects a zero vector")
  return g.compare space.distanceMetric left right

/-! ## Operations -/

/-- The feature has expired. -/
def FeatureRecord.expired (now : ℚ) (feature : FeatureRecord) :
    Bool := feature.expiresAt.any (· ≤ now)

/-- A match before another: `(-score, distance, feature_id)`. -/
def better (x y : FeatureMatch) : Prop :=
  y.score < x.score ∨ (x.score = y.score ∧ (x.distance < y.distance ∨
    (x.distance = y.distance ∧ x.featureId ≤ y.featureId)))
  deriving Decidable

/-- The matches among the rows. -/
def matchesAmong (g : Geometry) (space : FeatureSpace) (embedding : List Scalar)
    (cutoff : Option ℚ) : List FeatureRecord → Except Error (List FeatureMatch)
  | [] => .ok []
  | feature :: features => do
    let (score, distance) ← compareEmbeddings g space embedding feature.embedding
    let found ← matchesAmong g space embedding cutoff features
    return if cutoff.all (· ≤ score) then
        ⟨feature.featureId, feature.subjectType, feature.subjectId, score, distance⟩ :: found
      else found

/-- The order of the keys as tuples. -/
def keyLe (x y : FeatureKey) : Prop :=
  x.tenantId < y.tenantId ∨ (x.tenantId = y.tenantId ∧ (x.projectId < y.projectId ∨
    (x.projectId = y.projectId ∧ x.featureId ≤ y.featureId)))
  deriving Decidable

/-- `(created_at, feature_id)`. -/
def older (x y : FeatureRecord) : Prop :=
  x.createdAt < y.createdAt ∨ (x.createdAt = y.createdAt ∧ x.featureId ≤ y.featureId)
  deriving Decidable

namespace Store

variable (s : Store)

/-- `create_space`. -/
def createSpace (space : FeatureSpace) : Outcome FeatureSpace :=
  match s.spaces.get? space.featureSpaceId with
  | some existing =>
    if existing.contract ≠ space.contract then
      (.error (.featureStoreError "feature space already exists with a different contract"), s)
    else (.ok space, { s with spaces := s.spaces.insert space.featureSpaceId space })
  | none => (.ok space, { s with spaces := s.spaces.insert space.featureSpaceId space })

/-- `add`. -/
def add (feature : FeatureRecord) : Outcome FeatureRecord :=
  match s.spaces.get? feature.featureSpaceId with
  | none => (.error (.featureStoreError "feature space does not exist"), s)
  | some space =>
    match normalizeEmbedding feature.embedding space.dimension with
    | .error e => (.error e, s)
    | .ok _ =>
      if (s.features.get? feature.toFeatureKey).isSome then
        (.error (.featureStoreError "feature already exists"), s)
      else (.ok feature, { s with features := s.features.insert feature.toFeatureKey feature })

/-- The features of the space that have not expired. -/
def live (tenantId projectId featureSpaceId : String) (now : ℚ) : List FeatureRecord :=
  (s.features.entries.filter fun row =>
    row.1.tenantId = tenantId && row.1.projectId = projectId &&
      row.2.featureSpaceId = featureSpaceId && !row.2.expired now).map Prod.snd

/-- `search`. -/
def search (g : Geometry) (tenantId projectId featureSpaceId : String) (embedding : List Scalar)
    (limit : Int) (threshold : Option ℚ) (now : ℚ) : Except Error (List FeatureMatch) :=
  if ¬(1 ≤ limit ∧ limit ≤ 1000) then
    .error (.featureStoreError "feature search limit must be between 1 and 1000")
  else
    match s.spaces.get? featureSpaceId with
    | none => .error (.featureStoreError "feature space does not exist")
    | some space => do
      let found ← matchesAmong g space embedding (threshold.or space.threshold)
        (s.live tenantId projectId featureSpaceId now)
      return (found.insertionSort better).take limit.toNat

/-- The features that `p` holds of are deleted. -/
def discard (p : FeatureKey → FeatureRecord → Bool) : Store :=
  { s with features := s.features.filter fun key feature => !p key feature }

/-- How many features there are of the kind. -/
def count (p : FeatureKey → FeatureRecord → Bool) :
    Nat := s.features.entries.countP fun row => p row.1 row.2

/-- The feature is one of the subject. -/
def ofSubject (tenantId projectId subjectType subjectId : String) (key : FeatureKey)
    (feature : FeatureRecord) : Bool :=
  key.tenantId = tenantId && key.projectId = projectId && feature.subjectType = subjectType &&
    feature.subjectId = subjectId

/-- `delete_subject`. -/
def deleteSubject (tenantId projectId subjectType subjectId : String) : Outcome Nat :=
  let p := ofSubject tenantId projectId subjectType subjectId
  (.ok (s.count p), s.discard p)

/-- The keys of the features that have expired. -/
def expiredKeys (before : ℚ) : List FeatureKey :=
  (s.features.entries.filter fun row => row.2.expired before).map Prod.fst

/-- `delete_expired`. -/
def deleteExpired (before : ℚ) (limit : Int) : Outcome Nat :=
  if ¬(1 ≤ limit ∧ limit ≤ 10000) then
    (.error (.featureStoreError "feature retention limit must be between 1 and 10000"), s)
  else
    let keys := ((s.expiredKeys before).insertionSort keyLe).take limit.toNat
    (.ok keys.length, s.discard fun key _ => decide (key ∈ keys))

/-- `get_feature`. -/
def getFeature (key : FeatureKey) : Option FeatureRecord := s.features.get? key

/-- The rows of `list_subject_features`. -/
def subjectRows (tenantId projectId featureSpaceId subjectType subjectId : String) :
    List FeatureRecord :=
  (s.features.entries.filter fun row =>
    row.1.tenantId = tenantId && row.1.projectId = projectId &&
      row.2.featureSpaceId = featureSpaceId &&
      row.2.subjectType = subjectType && row.2.subjectId = subjectId).map Prod.snd

/-- `list_subject_features`. -/
def listSubjectFeatures (tenantId projectId featureSpaceId subjectType subjectId : String) :
    List FeatureRecord :=
  (s.subjectRows tenantId projectId featureSpaceId subjectType subjectId).insertionSort older

/-- `delete_feature`. -/
def deleteFeature (key : FeatureKey) : Outcome Bool :=
  (.ok (s.features.get? key).isSome, { s with features := s.features.erase key })

end Store

end Scenara.Features
