import Scenara.Features.Model
import Scenara.Surveillance.Records

/-!
# Matching observations with watchlists

Model of `PortraitSurveillanceMatcher.match` (`domains/portrait/surveillance.py`) over the feature
store.

The enrolments that `list_enrollments` returns are given with the call, and so is the time at which
the store is searched.
-/

namespace Scenara.Surveillance.Matching

open Scenara.Core
open Features (FeatureSpace FeatureMatch Store)

/-! ## Observations -/

/-- The modality of an evidence. -/
inductive Modality where
  | face | body
  deriving DecidableEq

/-- `PortraitModality`. -/
inductive PortraitModality where
  | face | body | gait | appearance
  deriving DecidableEq

/-- The same modality. -/
def Modality.portrait : Modality → PortraitModality
  | .face => .face
  | .body => .body

/-- `PortraitEnrollment`. -/
structure PortraitEnrollment where
  featureSpaceId : String
  modality : PortraitModality
  expiresAt : Option ℚ

/-- `ObservationEvidence`. -/
structure ObservationEvidence where
  modality : Modality
  embedding : List Scalar
  quality : ℚ
  modelId : String
  modelVersion : String

/-- `ObservationBatch`. -/
structure ObservationBatch where
  lastSeenAt : ℚ
  evidence : List ObservationEvidence

/-- What a call works with. -/
structure Call where
  tenantId : String
  projectId : String
  members : List WatchlistMember
  observation : ObservationBatch
  policy : ThresholdPolicy
  /-- `list_enrollments` of an identity. -/
  listEnrollments : String → List PortraitEnrollment
  store : Store
  now : ℚ

/-- `member.portrait_identity_id`. -/
def identityOf (member : WatchlistMember) : String := member.portraitIdentityId.val

/-- `threshold`. -/
def threshold (policy : ThresholdPolicy) : Modality → Option ℚ
  | .face => policy.faceThreshold.map Subtype.val
  | .body => policy.bodyThreshold.map Subtype.val

/-- `quality_floor`. -/
def qualityFloor (policy : ThresholdPolicy) : Modality → ℚ
  | .face => policy.minFaceQuality.val
  | .body => policy.minBodyQuality.val

/-! ## Enrolments -/

/-- A feature space and a modality. -/
abbrev SpaceKey := String × PortraitModality

/-- `enrollments.setdefault(key, set()).add(identity_id)`. -/
def addIdentity (d : Dict SpaceKey (List String)) (p : SpaceKey × String) :
    Dict SpaceKey (List String) :=
  d.insert p.1 (((d.get? p.1).getD []).insert p.2)

/-- `enrollment.expires_at is not None and enrollment.expires_at <= observation.last_seen_at`. -/
def PortraitEnrollment.expired (enrollment : PortraitEnrollment) (lastSeenAt : ℚ) : Bool :=
  enrollment.expiresAt.any (· ≤ lastSeenAt)

/-- `enrollments`. -/
def enrollmentsBySpace (call : Call) : Dict SpaceKey (List String) :=
  (call.members.map identityOf).eraseDups.foldl (fun d identityId =>
    (call.listEnrollments identityId).foldl (fun d enrollment =>
      if enrollment.expired call.observation.lastSeenAt then d
      else addIdentity d ((enrollment.featureSpaceId, enrollment.modality), identityId)) d) .empty

/-! ## Scores -/

/-- What a score is of. -/
structure Binding where
  featureSpaceId : String
  modelId : String
  modelVersion : String

/-- `scores` and `bindings` of an identity: the best score of each modality, and what it is of. -/
structure Bucket where
  face : Option (ℚ × Binding)
  body : Option (ℚ × Binding)

namespace Bucket

/-- An empty one. -/
def empty : Bucket := ⟨none, none⟩

/-- The best score of a modality. -/
def get (bucket : Bucket) : Modality → Option (ℚ × Binding)
  | .face => bucket.face
  | .body => bucket.body

/-- A new best score of a modality. -/
def set (bucket : Bucket) (best : ℚ × Binding) : Modality → Bucket
  | .face => { bucket with face := some best }
  | .body => { bucket with body := some best }

end Bucket

/-- `scores`, with `bindings`. -/
abbrev Scores := Dict String Bucket

/-- A match of an identity. -/
structure Hit where
  identityId : String
  modality : Modality
  score : ℚ
  binding : Binding

/-- The bucket of an identity. -/
def bucketOf (scores : Scores) (identityId : String) :
    Bucket := (scores.get? identityId).getD .empty

/-- A match is recorded if it is better than -1 and than what there is. -/
def record (scores : Scores) (hit : Hit) : Scores :=
  let bucket := bucketOf scores hit.identityId
  scores.insert hit.identityId <|
    if (((bucket.get hit.modality).map Prod.fst).getD (-1)) < hit.score then
      bucket.set (hit.score, hit.binding) hit.modality
    else bucket

/-! ## The loops -/

section Loops

variable (g : Geometry) (call : Call)

/-- The feature space may be searched with the evidence. -/
def compatible (space : FeatureSpace) (evidence : ObservationEvidence) : Bool :=
  space.domain = "portrait" && space.modelId = evidence.modelId &&
    space.modelVersion = evidence.modelVersion && space.dimension = evidence.embedding.length

/-- A turn of the loop over the matches. -/
def matchOne (evidence : ObservationEvidence) (spaceId : String) (identities : List String)
    (scores : Scores) (found : FeatureMatch) : Scores :=
  if found.subjectType ≠ "portrait_identity" ∨ found.subjectId ∉ identities then scores
  else record scores
    ⟨found.subjectId, evidence.modality, found.score,
      ⟨spaceId, evidence.modelId, evidence.modelVersion⟩⟩

/-- A turn of the loop over the feature spaces. -/
def matchSpace (evidence : ObservationEvidence) (cutoff : ℚ) (scores : Scores)
    (entry : SpaceKey × List String) : Except Features.Error Scores :=
  if entry.1.2 ≠ evidence.modality.portrait then .ok scores
  else match call.store.spaces.get? entry.1.1 with
    | none => .ok scores
    | some space =>
      if !compatible space evidence then .ok scores
      else
        (call.store.search g call.tenantId call.projectId entry.1.1 evidence.embedding 1000
          (some cutoff)
          call.now).map fun found => found.foldl (matchOne evidence entry.1.1 entry.2) scores

/-- A turn of the loop over the evidence. -/
def matchEvidence (scores : Scores) (evidence : ObservationEvidence) :
    Except Features.Error Scores :=
  match threshold call.policy evidence.modality with
  | none => .ok scores
  | some cutoff =>
    if evidence.quality < qualityFloor call.policy evidence.modality then .ok scores
    else (enrollmentsBySpace call).entries.foldlM (matchSpace g call evidence cutoff) scores

/-- The scores after all. -/
def matchAll : Except Features.Error Scores :=
  call.observation.evidence.foldlM (matchEvidence g call) .empty

/-! ## Entries -/

/-- `AlertModality`. -/
inductive AlertModality where
  | face | body | fused
  deriving DecidableEq

/-- What is returned of a member. -/
structure MatchEntry where
  member : WatchlistMember
  score : ℚ
  modality : AlertModality
  bindings : Bucket

/-- The score of an identity, fused by the weights. -/
def fuse (policy : ThresholdPolicy) : Option ℚ → Option ℚ → Option (ℚ × AlertModality)
  | some face, some body =>
    some ((policy.faceWeight.val * face + policy.bodyWeight.val * body) /
      (policy.faceWeight.val + policy.bodyWeight.val), .fused)
  | some face, none => some (face, .face)
  | none, some body => some (body, .body)
  | none, none => none

/-- The entries of an identity. -/
def entriesOf (identityId : String) (bucket : Bucket) : List MatchEntry :=
  match fuse call.policy (bucket.face.map Prod.fst) (bucket.body.map Prod.fst) with
  | none => []
  | some (score, modality) =>
    (call.members.filter (identityOf · = identityId)).map fun member => ⟨member, score,
      modality, bucket⟩

/-- `(-item[1], item[0].member_id)`, in order. -/
def entryBefore (a b : MatchEntry) : Prop :=
  b.score < a.score ∨ b.score = a.score ∧ a.member.memberId.val ≤ b.member.memberId.val
  deriving Decidable

/-- `resolved`, sorted. -/
def resolve (scores : Scores) : List MatchEntry :=
  (scores.entries.flatMap fun entry => entriesOf call entry.1 entry.2).insertionSort entryBefore

/-- `PortraitSurveillanceMatcher.match`. -/
def matchMembers : Except Features.Error (List MatchEntry) := (matchAll g call).map (resolve call)

end Loops

end Scenara.Surveillance.Matching
