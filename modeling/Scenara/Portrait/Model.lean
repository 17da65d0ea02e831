import Scenara.Core.Dict
import Scenara.Core.Transition

/-!
# Portrait identities

Model of `PortraitService.enroll` and `delete_identity` (`domains/portrait/service.py`) over
`MemoryPortraitRepository`, `MemoryFeatureStore` (`platform/features.py`) and `MemoryIndexStore`
(`platform/index.py`).

* A store call is one step. A call that raises changes nothing.
* Of an embedding the stores see its length, and whether its values are finite.
* The policy is asked before the first store call; a call that it refuses is none.
-/

namespace Scenara.Portrait

open Scenara.Core

/-! ## What is stored -/

/-- `tenant_id`, `project_id`, and an id. -/
abbrev Key := String × String × String

/-- The key of another row of the same tenant and project. -/
def sibling (key : Key) (id : String) : Key := (key.1, key.2.1, id)

/-- An embedding, as far as it is checked. -/
structure Embedding where
  dimension : Nat
  /-- No value is infinite or not a number. -/
  finite : Bool
  deriving DecidableEq

/-- `FeatureSpace`, without `created_at`. -/
structure FeatureSpace where
  domain : String
  modality : String
  modelId : String
  modelVersion : String
  dimension : Nat
  distanceMetric : String
  threshold : Option Rat
  deriving DecidableEq

/-- `FeatureRecord`. -/
structure FeatureRecord where
  featureSpaceId : String
  subjectType : String
  subjectId : String
  embedding : Embedding
  deriving DecidableEq

/-- `IndexRecordKind`. -/
inductive IndexRecordKind where
  | vector
  | text
  | multimodal
  deriving DecidableEq

/-- `IndexDefinition`, without `created_at`. -/
structure IndexDefinition where
  domain : String
  recordKind : IndexRecordKind
  vectorDimension : Option Nat
  vectorModelId : Option String
  vectorModelVersion : Option String
  distanceMetric : Option String
  threshold : Option Rat
  deriving DecidableEq

/-- `IndexRecord`. -/
structure IndexRecord where
  indexId : String
  domain : String
  kind : IndexRecordKind
  sourceType : String
  sourceId : String
  featureId : Option String
  text : Option String
  vector : Option Embedding
  deleted : Bool
  deriving DecidableEq

/-- `PortraitEnrollment`. -/
structure PortraitEnrollment where
  enrollmentId : String
  identityId : String
  featureId : String
  featureSpaceId : String
  indexRecordId : String

/-- The three stores. -/
structure Stores where
  identities : List Key
  /-- By `feature_id`. -/
  enrollments : Dict Key PortraitEnrollment
  spaces : Dict String FeatureSpace
  features : Dict Key FeatureRecord
  indexes : Dict String IndexDefinition
  records : Dict Key IndexRecord

namespace Stores

/-! ## Store calls -/

/-- `create_space`. -/
def createSpace (s : Stores) (id : String) (space : FeatureSpace) : Option Stores :=
  match s.spaces.get? id with
  | some existing => if existing ≠ space then none
      else some { s with spaces := s.spaces.insert id space }
  | none => some { s with spaces := s.spaces.insert id space }

/-- `MemoryFeatureStore.add`. -/
def add (s : Stores) (key : Key) (feature : FeatureRecord) : Option Stores :=
  match s.spaces.get? feature.featureSpaceId with
  | none => none
  | some space =>
    if feature.embedding.dimension ≠ space.dimension ∨ feature.embedding.finite = false then none
    else if (s.features.get? key).isSome then none
    else some { s with features := s.features.insert key feature }

/-- `delete_subject`. -/
def deleteSubject (s : Stores) (subjectType : String) (key : Key) : Stores :=
  { s with
    features := s.features.filter fun k feature =>
      !decide (sibling k feature.subjectId = key ∧ feature.subjectType = subjectType) }

/-- `create_index`. -/
def createIndex (s : Stores) (id : String) (definition : IndexDefinition) : Option Stores :=
  match s.indexes.get? id with
  | some existing =>
    if existing ≠ definition then none
      else some { s with indexes := s.indexes.insert id definition }
  | none => some { s with indexes := s.indexes.insert id definition }

/-- The checks of `MemoryIndexStore.upsert`. -/
def fits (definition : IndexDefinition) (record : IndexRecord) : Bool :=
  let vectorFits := match definition.vectorDimension with
    | none => true
    | some dimension =>
      (record.vector.all fun vector => vector.dimension = dimension && vector.finite) &&
        !(definition.recordKind = .vector && record.vector.isNone && record.featureId.isNone)
  let textFits := definition.recordKind ≠ .text ||
      !((record.text.getD "").toList.all Char.isWhitespace)
  record.domain = definition.domain && record.kind = definition.recordKind && vectorFits && textFits

/-- `MemoryIndexStore.upsert`. -/
def upsert (s : Stores) (key : Key) (record : IndexRecord) : Option Stores :=
  match s.indexes.get? record.indexId with
  | none => none
  | some definition =>
    if fits definition record then some { s with records := s.records.insert key record } else none

/-- `delete_source`. -/
def deleteSource (s : Stores) (sourceType : String) (key : Key) : Stores :=
  { s with
    records := s.records.mapVals fun k record =>
      if sibling k record.sourceId = key ∧ record.sourceType = sourceType then
        { record with deleted := true }
      else record }

/-- `create_enrollment`. -/
def createEnrollment (s : Stores) (key : Key) (enrollment : PortraitEnrollment) : Option Stores :=
  if (s.enrollments.get? key).isSome then none
  else some { s with enrollments := s.enrollments.insert key enrollment }

/-- `MemoryPortraitRepository.delete_identity`, of an identity that is there. -/
def deleteIdentity (s : Stores) (key : Key) : Stores :=
  { s with
    identities := s.identities.filter (· ≠ key)
    enrollments := s.enrollments.filter fun k enrollment =>
      !decide (sibling k enrollment.identityId = key) }

end Stores

/-! ## Enrolments -/

/-- The subject type, and the source type, of what is stored for an identity. -/
def portraitIdentity : String := "portrait_identity"

/-- `EnrollIdentityRequest`, for an identity. -/
structure Enrol where
  key : Key
  featureSpaceId : String
  modality : String
  modelId : String
  modelVersion : String
  distanceMetric : String
  threshold : Option Rat
  embedding : Embedding
  featureId : String
  indexRecordId : String
  enrollmentId : String
  deriving DecidableEq

/-- The store call that `enroll` makes next. -/
inductive EnrolAt where
  | identity
  | space
  | feature
  | index
  | record
  | enrollment
  | audit
  deriving DecidableEq

namespace Enrol

/-- The feature space of an enrolment. -/
def space (e : Enrol) : FeatureSpace :=
  ⟨"portrait", e.modality, e.modelId, e.modelVersion, e.embedding.dimension, e.distanceMetric,
    e.threshold⟩

/-- Its feature. -/
def feature (e : Enrol) : FeatureRecord :=
  ⟨e.featureSpaceId, portraitIdentity, e.key.2.2, e.embedding⟩

/-- The index it is written to. -/
def indexId (e : Enrol) : String := "portrait.identity." ++ e.featureSpaceId

/-- The definition of `_index_enrollment`. -/
def definition (e : Enrol) : IndexDefinition :=
  ⟨"portrait", .vector, some e.embedding.dimension, some e.modelId, some e.modelVersion,
    some "cosine", some (4 / 5)⟩

/-- Its index record. -/
def record (e : Enrol) : IndexRecord :=
  ⟨e.indexId, "portrait", .vector, portraitIdentity, e.key.2.2, some e.featureId, none,
    some e.embedding, false⟩

/-- The enrolment that is stored. -/
def enrollment (e : Enrol) : PortraitEnrollment :=
  ⟨e.enrollmentId, e.key.2.2, e.featureId, e.featureSpaceId, e.indexRecordId⟩

/-- The key of its feature, and of its enrolment. -/
def featureKey (e : Enrol) : Key := sibling e.key e.featureId

/-- The key of its index record. -/
def recordKey (e : Enrol) : Key := sibling e.key e.indexRecordId

/-- The store call of an enrolment, where the identity is looked up and the audit record written
too. -/
def call (e : Enrol) (s : Stores) : EnrolAt → Option Stores
  | .identity => if e.key ∈ s.identities then some s else none
  | .space => s.createSpace e.featureSpaceId e.space
  | .feature => s.add e.featureKey e.feature
  | .index => s.createIndex e.indexId e.definition
  | .record => s.upsert e.recordKey e.record
  | .enrollment => s.createEnrollment e.featureKey e.enrollment
  | .audit => some s

end Enrol

/-! ## Calls -/

/-- The store call that `delete_identity` makes next. -/
inductive DeleteAt where
  | identity
  | audit
  | features
  | records
  | remove
  deriving DecidableEq

/-- A call, and where it stands. -/
inductive Task where
  | enrol (e : Enrol) (pos : EnrolAt)
  | delete (key : Key) (pos : DeleteAt)
  | ended
  deriving DecidableEq

/-- Where `enroll` goes on. -/
def Enrol.next (e : Enrol) : EnrolAt → Task
  | .identity => .enrol e .space
  | .space => .enrol e .feature
  | .feature => .enrol e .index
  | .index => .enrol e .record
  | .record => .enrol e .enrollment
  | .enrollment => .enrol e .audit
  | .audit => .ended

/-- What is stored, and the calls. -/
structure State where
  stores : Stores
  tasks : List Task
  /-- The identities whose deletion has returned. -/
  deleted : List Key

/-- A task is elsewhere. -/
def State.go (x : State) (i : Nat) (task : Task) : State := { x with tasks := x.tasks.set i task }

/-- The next store call of a task. -/
def stepTask (x : State) (i : Nat) : Task → Option State
  | .enrol e pos =>
    match e.call x.stores pos with
    | some stores => some { x.go i (e.next pos) with stores }
    | none => some (x.go i .ended)
  | .delete key .identity =>
    some (x.go i (if key ∈ x.stores.identities then .delete key .audit else .ended))
  | .delete key .audit => some (x.go i (.delete key .features))
  | .delete key .features =>
    some { x.go i (.delete key .records) with
      stores := x.stores.deleteSubject portraitIdentity key }
  | .delete key .records =>
    some { x.go i (.delete key .remove) with stores := x.stores.deleteSource portraitIdentity key }
  | .delete key .remove =>
    -- `PortraitConflict` when the identity is gone
    if key ∈ x.stores.identities then
      some { x.go i .ended with
        stores := x.stores.deleteIdentity key
        deleted := x.deleted ++ [key] }
    else some (x.go i .ended)
  | .ended => none

/-- One step. -/
inductive Act where
  | enroll (e : Enrol)
  | delete (key : Key)
  | go (i : Nat)
  /-- The store call of an enrolment raises. -/
  | fail (i : Nat)

/-- The state after a step, if it may be taken. -/
def step (x : State) : Act → Option State
  | .enroll e => some { x with tasks := x.tasks ++ [.enrol e .identity] }
  | .delete key => some { x with tasks := x.tasks ++ [.delete key .identity] }
  | .go i => (x.tasks[i]?).bind fun task => stepTask x i task
  | .fail i =>
    match x.tasks[i]? with
    | some (.enrol _ _) => some (x.go i .ended)
    | _ => none

end Scenara.Portrait
