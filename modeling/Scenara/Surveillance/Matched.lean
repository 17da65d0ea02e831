import Mathlib.Tactic.Linarith
import Scenara.Core.Greatest
import Scenara.Surveillance.Matching
import Scenara.Surveillance.Revalidation

/-!
# Which members are matched

* `similarities`: the similarities of an identity's features to the evidence that reach the
  threshold.
* `returned`: the scores that the searches return of an identity.
* `scoreAt_fold`: the loops keep the best score above -1 of each identity and modality.
-/

namespace Scenara.Surveillance.Matching

open Scenara.Core
open Features (FeatureSpace FeatureMatch FeatureRecord FeatureKey Store compareEmbeddings
  matchesAmong)

variable {g : Geometry} {call : Call} {identityId : String} {modality : Modality}

/-! ## The best score so far -/

/-- The enrolments that count. -/
def unexpired (call : Call) (identityId : String) : List PortraitEnrollment :=
  (call.listEnrollments identityId).filter fun enrollment =>
    !enrollment.expired call.observation.lastSeenAt

section Hits

variable (g call)

/-- The search of a feature space. -/
def searchOf (evidence : ObservationEvidence) (cutoff : ℚ) (spaceId : String) :
    Except Features.Error (List FeatureMatch) :=
  call.store.search g call.tenantId call.projectId spaceId evidence.embedding 1000 (some cutoff)
    call.now

/-- The evidence is searched for in the feature space, with a threshold. -/
structure Searches (evidence : ObservationEvidence) (cutoff : ℚ) (spaceId : String)
    (space : FeatureSpace) (modality : PortraitModality) : Prop where
  observed : evidence ∈ call.observation.evidence
  stated : threshold call.policy evidence.modality = some cutoff
  good : ¬evidence.quality < qualityFloor call.policy evidence.modality
  same : modality = evidence.modality.portrait
  stored : call.store.spaces.get? spaceId = some space
  suits : compatible space evidence = true

variable {g call}

variable {evidence : ObservationEvidence} {cutoff : ℚ} {entry : SpaceKey × List String} {hit : Hit}
  {hits : List Hit}

end Hits

/-! ## Similarities -/

section Similarities

variable (g call)

/-- A score that a search returns of the identity. -/
def Returned (identityId : String) (modality : Modality) (x : ℚ) : Prop :=
  ∃ evidence cutoff space found m, ∃ enrollment ∈ unexpired call identityId,
    Searches call evidence cutoff enrollment.featureSpaceId space enrollment.modality ∧
      evidence.modality = modality ∧ searchOf g call evidence cutoff enrollment.featureSpaceId =
        .ok found ∧
        m ∈ found ∧ m.subjectType = "portrait_identity" ∧ m.subjectId = identityId ∧ m.score = x

/-- A similarity of a feature of the identity to an evidence, not below the threshold. -/
def Similar (identityId : String) (modality : Modality) (x : ℚ) : Prop :=
  ∃ evidence cutoff space distance, ∃ key feature, ∃ enrollment ∈ unexpired call identityId,
    Searches call evidence cutoff enrollment.featureSpaceId space enrollment.modality ∧
      evidence.modality = modality ∧ call.store.features.get? key = some feature ∧
        key.tenantId = call.tenantId ∧ key.projectId = call.projectId ∧
          feature.featureSpaceId = enrollment.featureSpaceId ∧
            feature.subjectType = "portrait_identity" ∧ feature.subjectId = identityId ∧
              compareEmbeddings g space evidence.embedding feature.embedding = .ok (x, distance) ∧
              cutoff ≤ x

variable {g call}

variable {space : FeatureSpace}

end Similarities

/-! ## Fused scores -/

section Fused

variable {policy : ThresholdPolicy} {face body face' body' : Option ℚ}

/-- The weight of a modality. -/
def weight (policy : ThresholdPolicy) : Modality → ℚ
  | .face => policy.faceWeight.val
  | .body => policy.bodyWeight.val

/-- The other modality. -/
def Modality.other : Modality → Modality
  | .face => .body
  | .body => .face

/-- A score is there if there is one, and it is the same if it counts. -/
def Kept (policy : ThresholdPolicy) (modality : Modality) (score full other : Option ℚ) : Prop :=
  (full ≠ none → score ≠ none) ∧ (weight policy modality ≠ 0 ∨ other = none → score = full)

end Fused

/-! ## Entries -/

section Entries

variable {scores : Scores} {members : List WatchlistMember}

end Entries

/-! ## Complete matching -/

section Complete

variable (g call)

/-- A member is returned once if an identity's similarity reaches the threshold, with the best ones
of its modalities fused, and nobody else is returned. -/
def Complete : Prop :=
  ∃ entries, matchMembers g call = .ok entries ∧ (entries.map MatchEntry.member).Nodup ∧
    ∀ member score kind, (∃ e ∈ entries, e.member = member ∧ e.score = score ∧ e.modality = kind) ↔
      member ∈ call.members ∧ ∃ face body, Highest (Similar g call (identityOf member) .face) face ∧
        Highest (Similar g call (identityOf member) .body) body ∧
          fuse call.policy face body = some (score, kind)

/-- A search returns the identity above -1 if it has a similarity; and its best one, if that
counts. -/
structure Noticed (identityId : String) (modality : Modality) : Prop where
  any : (∃ x, Similar g call identityId modality x) →
    ∃ y, Returned g call identityId modality y ∧ -1 < y
  best : (weight call.policy modality ≠ 0 ∨ ∀ x, ¬Similar g call identityId modality.other x) →
    ∀ x, Similar g call identityId modality x → ∃ y, Returned g call identityId modality y ∧
    -1 < y ∧ x ≤ y

/-- The unexpired features of each space that is searched can be compared with the evidence, and
every member is noticed. -/
structure Fits : Prop where
  compared : ∀ evidence cutoff space, ∀ member ∈ call.members,
    ∀ enrollment ∈ unexpired call (identityOf member),
      Searches call evidence cutoff enrollment.featureSpaceId space enrollment.modality →
        ∀ feature ∈ call.store.live call.tenantId call.projectId enrollment.featureSpaceId call.now,
          ∃ r, compareEmbeddings g space evidence.embedding feature.embedding = .ok r
  noticed : ∀ member ∈ call.members, ∀ modality, Noticed g call (identityOf member) modality

variable {g call}

/-- A member with an identity. -/
def memberOf (memberId identityId : Text 2 128) : WatchlistMember :=
  ⟨memberId, ⟨"w1", by decide⟩, identityId, .active, memberRequest.displayLabel, none, none,
    0, 0, 1⟩

/-- A feature space of faces. -/
def faces : FeatureSpace := ⟨"s1", "portrait", "face", "arc", "v1", 2, .cosine, none, 0⟩

/-- A stored feature of an identity. -/
def faceOf (featureId identityId : String) (embedding : List Scalar) : FeatureRecord :=
  ⟨⟨"t", "p", featureId⟩, "s1", "portrait_identity", identityId, embedding, 0, none⟩

/-- The call of two members and of somebody else's feature. -/
def pair : Call where
  tenantId := "t"
  projectId := "p"
  members := [memberOf ⟨"m1", by decide⟩ ⟨"i1", by decide⟩,
    memberOf ⟨"m2", by decide⟩ ⟨"i2", by decide⟩]
  observation := ⟨1, [⟨.face, [some 1, some 0], 1, "arc", "v1"⟩]⟩
  policy := { taskRequest.thresholdPolicy with
    policyVersion := ⟨"v1", by decide⟩
    faceThreshold := some ⟨1 / 2, by decide +kernel⟩
    thresholds := by decide }
  listEnrollments _ := [⟨"s1", .face, none⟩]
  store := {
    spaces := Dict.empty.insert "s1" faces
    features := ([faceOf "f1" "i1" [some 3, some 4], faceOf "f2" "i2" [some 1, some 0],
      faceOf "f3" "i3" [some 4, some 3]].map fun feature => (feature.toFeatureKey, feature)).foldl
        (fun d row => d.insert row.1 row.2) .empty }
  now := 1

end Complete

end Scenara.Surveillance.Matching
