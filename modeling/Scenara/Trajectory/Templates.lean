import Scenara.Core.Eviction
import Scenara.Core.Transition
import Scenara.Trajectory.Model

/-!
# The templates of the long-term identities

Model of what `ingest_run_tracks`, `merge_identities` and `split_identity`
(`domains/portrait/trajectory.py`) do to the feature store (`platform/features.py`,
`MemoryFeatureStore`), on top of what `Trajectory.Model` says they do to the repository.

* The records of `Trajectory.Model` leave out `feature_space_ids`, `feature_ids` and
  `track_quality`. `Templates` holds them by the key of the identity or segment they belong to, and
  the stored features of subject type `portrait_long_term_identity`.
* `_store_templates` runs before the segment validates: a call that raises there leaves its
  templates behind.
* The ids of the features are drawn from a source of their own. Every embedding is finite and of the
  dimension of its space, so `FeatureStore.add` returns.
* `landings` keeps the arguments of every call of `_prune_templates`, with what it read. Nothing
  reads it back.
-/

namespace Scenara.Trajectory

open Scenara.Core

/-! ## The feature store -/

/-- A `FeatureRecord`; its tenant, project and id are the key it is stored under. -/
structure FeatureRecord where
  featureSpaceId : String
  subjectId : String
  createdAt : ℚ
  deriving DecidableEq

/-- `MemoryFeatureStore._features`. -/
abbrev Features := Dict Key FeatureRecord

/-- The features of a subject in a space. -/
def inSpace (scope : Scope) (featureSpaceId identityId : String) (e : Key × FeatureRecord) : Bool :=
  e.1.scope = scope && e.2.featureSpaceId = featureSpaceId && e.2.subjectId = identityId

/-- The order of `list_subject_features`. -/
def Older (a b : Key × FeatureRecord) : Prop :=
  a.2.createdAt < b.2.createdAt ∨ a.2.createdAt = b.2.createdAt ∧ a.1.id ≤ b.1.id
  deriving Decidable

/-- `list_subject_features`. -/
def listSubjectFeatures (features : Features) (scope : Scope) (featureSpaceId identityId : String) :
    List (Key × FeatureRecord) :=
  (features.select (inSpace scope featureSpaceId identityId)).insertionSort Older

/-- `delete_subject`. -/
def deleteSubject (features : Features) (scope : Scope) (identityId : String) : Features :=
  features.filter fun k record => !(k.scope = scope && record.subjectId = identityId)

/-! ## Records -/

/-- `feature_ids` and `track_quality` of a `TrajectorySegment`. -/
structure Contribution where
  featureIds : Dict Modality String
  trackQuality : ℚ

/-- A call of `_prune_templates`, and what the store and the repository hold then. -/
structure Landing where
  scope : Scope
  identityId : String
  featureSpaceIds : Dict Modality String
  repo : Repository
  contributions : Dict Key Contribution
  features : Features

/-- The feature store, what the identities and the segments say of it, and the ids drawn. -/
structure Templates where
  features : Features
  featureSpaceIds : Dict Key (Dict Modality String)
  contributions : Dict Key Contribution
  drawn : Nat
  landings : List Landing

/-- No templates. -/
def Templates.initial : Templates := ⟨.empty, .empty, .empty, 0, []⟩

/-- The feature ids a segment names. -/
def Templates.featureIds (t : Templates) (segment : Key) : Dict Modality String :=
  ((t.contributions.get? segment).map Contribution.featureIds).getD .empty

/-- `TrajectoryService._max_templates`, with the parameters of `Config`. -/
structure TemplateConfig extends Config where
  maxTemplates : Nat

/-! ## Pruning -/

/-- The entries that a segment makes in `quality_by_feature`. -/
def qualities (contributions : Dict Key Contribution) (segment : TrajectorySegment) :
    List (String × ℚ) :=
  match contributions.get? segment.key with
  | none => []
  | some c => c.featureIds.values.map fun featureId => (featureId, c.trackQuality)

/-- `quality_by_feature`. -/
def qualityByFeature (contributions : Dict Key Contribution) (segments : List TrajectorySegment) :
    Dict String ℚ :=
  .ofList (segments.flatMap (qualities contributions))

/-- `key=lambda item: (quality_by_feature.get(item.feature_id, 0.0), item.created_at)`. -/
def Cheaper (quality : Dict String ℚ) (a b : Key × FeatureRecord) : Prop :=
  (quality.get? a.1.id).getD 0 < (quality.get? b.1.id).getD 0 ∨
    (quality.get? a.1.id).getD 0 = (quality.get? b.1.id).getD 0 ∧ a.2.createdAt ≤ b.2.createdAt
  deriving Decidable

/-- What `_prune_templates` reads of the segments of the identity. -/
def Landing.quality (l : Landing) : Dict String ℚ :=
  qualityByFeature l.contributions (listing l.repo l.scope l.identityId)

/-- One turn of the loop of `_prune_templates`. -/
def Landing.pruneSpace (l : Landing) (maxTemplates : Nat) (features : Features)
    (featureSpaceId : String) : Features :=
  let stored := listSubjectFeatures features l.scope featureSpaceId l.identityId
  if stored.length ≤ maxTemplates then features
  else
    let ordered := stored.insertionSort (Cheaper l.quality)
    (ordered.take (stored.length - maxTemplates)).foldl (fun features e => features.erase e.1)
      features

/-- `_prune_templates`. A turn deletes from its own space only, so the order of the set is of no
account. -/
def Landing.prune (l : Landing) (maxTemplates : Nat) : Features :=
  l.featureSpaceIds.values.dedup.foldl (l.pruneSpace maxTemplates) l.features

/-! ## Ingest -/

/-- `Modality` as the source spells it. -/
def Modality.value : Modality → String
  | .body => "body"
  | .face => "face"

/-- The id that `_ensure_space` makes. -/
def featureSpaceId (modality : Modality) (dimension : Nat) : String :=
  "portrait.trajectory." ++ modality.value ++ "." ++ toString dimension ++ ".v1"

/-- A tracklet with the lengths of its embeddings, `float(tracklet_quality_score or 0.0)`, and the
clock as its templates are stored. -/
structure TemplateTrack where
  track : Track
  dimension : Modality → Nat
  quality : ℚ
  storedAt : Modality → ℚ
  quality_eq : ∀ {q}, track.trackletQualityScore = some q → quality = q

/-- `track_quality`. -/
def TemplateTrack.trackQuality (track : TemplateTrack) : ℚ := max 0 (min 1 track.quality)

/-- `spaces`. -/
def TemplateTrack.spaces (track : TemplateTrack) : Dict Modality String :=
  .ofList ((trackEmbeddings track.track).map fun e =>
    (e.1, featureSpaceId e.1 (track.dimension e.1)))

/-- The arguments of `ingest_run_tracks`. -/
structure TemplateRequest where
  request : IngestRequest
  tracks : List TemplateTrack
  tracks_eq : request.tracks = tracks.map TemplateTrack.track

/-- One turn of the loop of `_store_templates`. -/
def storeTemplate (ids : Fresh String) (scope : Scope) (identityId : String)
    (storedAt : Modality → ℚ) (acc : Dict Modality String × Templates) (e : Modality × String) :
    Dict Modality String × Templates :=
  let featureId := ids.draw acc.2.drawn
  (acc.1.insert e.1 featureId, { acc.2 with
      features := acc.2.features.insert ⟨scope, featureId⟩ ⟨e.2, identityId, storedAt e.1⟩
      drawn := acc.2.drawn + 1 })

/-- `_store_templates`: `feature_ids`, and the store. -/
def storeTemplates (ids : Fresh String) (scope : Scope) (identityId : String)
    (track : TemplateTrack) (t : Templates) : Dict Modality String × Templates :=
  track.spaces.entries.foldl (storeTemplate ids scope identityId track.storedAt) (.empty, t)

/-- The segment and its identity are stored, and the templates are pruned. -/
def Templates.add (config : TemplateConfig) (t : Templates) (repo : Repository)
    (segment : TrajectorySegment) (contribution : Contribution)
    (featureSpaceIds : Dict Modality String) : Templates :=
  let contributions := t.contributions.insert segment.key contribution
  let landing : Landing :=
    ⟨segment.scope, segment.identityId, featureSpaceIds, repo, contributions, t.features⟩
  { t with
    features := landing.prune config.maxTemplates
    featureSpaceIds := t.featureSpaceIds.insert ⟨segment.scope, segment.identityId⟩ featureSpaceIds
    contributions := contributions
    landings := t.landings ++ [landing] }

/-- What the loop of `ingest_run_tracks` carries. -/
abbrev TemplateIngest := Ingest × Templates

/-- The second half of `_ingest_one`, for an identity of the given `feature_space_ids`. -/
def land (config : TemplateConfig) (uuid : UuidSource) (ids : Fresh String)
    (request : IngestRequest)
    (track : TemplateTrack) (window : Window) (st : TemplateIngest) (identity : LongTermIdentity)
    (featureSpaceIds : Dict Modality String) (matchScore : ℚ) :
    Except (TrajectoryError × TemplateIngest) TemplateIngest :=
  let (featureIds, stored) := storeTemplates ids request.scope identity.identityId track st.2
  match register uuid request track.track window st.1 identity matchScore with
  | .error (e, ingest) => .error (e, (ingest, stored))
  | .ok ingest =>
    .ok (ingest, stored.add config ingest.repo
      (newSegment uuid request window st.1.issued identity.identityId)
      ⟨featureIds, track.trackQuality⟩ (featureSpaceIds.update track.spaces))

/-- `_ingest_one`. -/
def landOne (config : TemplateConfig) (uuid : UuidSource) (ids : Fresh String)
    (request : IngestRequest) (track : TemplateTrack) (window : Window) (st : TemplateIngest) :
    Except (TrajectoryError × TemplateIngest) TemplateIngest :=
  match ranked (candidates (trackEmbeddings track.track)) with
  | none => .error (.raised "ZeroDivisionError", st)
  | some candidates =>
    match candidates.find? fun c => accepts config.toConfig request st.1 window c.identityId with
    | none =>
      land config uuid ids request track window st (newIdentity uuid request window st.1.issued)
        track.spaces 1
    | some chosen =>
      match st.1.repo.getIdentity request.scope chosen.identityId with
      | none => .error (.notFound "long-term identity disappeared during ingest", st)
      | some stored =>
        land config uuid ids request track window st stored
          ((st.2.featureSpaceIds.get? stored.key).getD .empty) chosen.score

/-- One turn of the loop of `ingest_run_tracks`. -/
def landTrack (config : TemplateConfig) (uuid : UuidSource) (ids : Fresh String)
    (request : IngestRequest) (st : TemplateIngest) (track : TemplateTrack) :
    Except (TrajectoryError × TemplateIngest) TemplateIngest :=
  if (qualityGate config.toConfig track.track).isSome then .ok st
  else if (trackEmbeddings track.track).isEmpty then .ok st
  else
    landOne config uuid ids request track
      (observationWindow track.track (request.recordingStartedAt.getD request.now)) st

/-- `ingest_run_tracks`. -/
def landRunTracks (config : TemplateConfig) (uuid : UuidSource) (ids : Fresh String)
    (repo : Repository) (issued : Nat) (t : Templates) (r : TemplateRequest) :
    Except (TrajectoryError × TemplateIngest) TemplateIngest :=
  r.tracks.foldlM (landTrack config uuid ids r.request) (⟨repo, issued, .empty, []⟩, t)

/-! ## Corrections by hand -/

/-- One turn of the loop of `_move_features`. -/
def moveFeature (ids : Fresh String) (scope : Scope) (targetId : String)
    (acc : Dict Modality String × Templates) (e : Modality × String) :
    Dict Modality String × Templates :=
  match acc.2.features.get? ⟨scope, e.2⟩ with
  | none => acc
  | some record =>
    let featureId := ids.draw acc.2.drawn
    (acc.1.insert e.1 featureId, { acc.2 with
        features := (acc.2.features.insert ⟨scope, featureId⟩
          { record with subjectId := targetId }).erase ⟨scope, e.2⟩
        drawn := acc.2.drawn + 1 })

/-- `_move_features`: `moved`, and the store. -/
def moveFeatures (ids : Fresh String) (scope : Scope) (targetId : String) (segment : Key)
    (t : Templates) : Dict Modality String × Templates :=
  (t.featureIds segment).entries.foldl (moveFeature ids scope targetId) (.empty, t)

/-- What the calls below carry. -/
abbrev Shelf := Repository × Templates

/-- The features of a segment move to another identity, then the segment. -/
def moveSegment (ids : Fresh String) (scope : Scope) (targetId : String) (st : Shelf)
    (segment : TrajectorySegment) : Shelf :=
  let (moved, t) := moveFeatures ids scope targetId segment.key st.2
  (st.1.putSegment (segment.moveTo targetId), { t with
      contributions := t.contributions.insert segment.key
        ⟨moved, ((t.contributions.get? segment.key).map Contribution.trackQuality).getD 0⟩ })

/-- One turn of the loop of `merge_identities`. -/
def mergeSourceTemplates (ids : Fresh String) (scope : Scope) (targetId : String) (st : Shelf)
    (sourceId : String) : Except (TrajectoryError × Shelf) Shelf :=
  match st.1.getIdentity scope sourceId with
  | none => .error (identityNotFound, st)
  | some _ =>
    let moved := (listing st.1 scope sourceId).foldl (moveSegment ids scope targetId) st
    .ok ((moved.1.deleteIdentity scope sourceId).1, { moved.2 with
        features := deleteSubject moved.2.features scope sourceId
        featureSpaceIds := moved.2.featureSpaceIds.erase ⟨scope, sourceId⟩ })

/-- `merge_identities`: the target keeps its `feature_space_ids`. -/
def mergeTemplates (ids : Fresh String) (st : Shelf) (scope : Scope)
    (request : MergeIdentitiesRequest) : Except (TrajectoryError × Shelf) Shelf :=
  match st.1.getIdentity scope request.targetIdentityId with
  | none => .error (identityNotFound, st)
  | some target =>
    if request.sources.isEmpty then
      .error (.conflict "merge requires at least one distinct source identity", st)
    else do
      let st ← request.sources.foldlM (mergeSourceTemplates ids scope request.targetIdentityId) st
      return (st.1.putIdentity (recompute target (listing st.1 scope request.targetIdentityId)),
        st.2)

/-- The writes of `split_identity`: the new identity has the `feature_space_ids` of the old one. -/
def splitTemplates (ids : Fresh String) (newId : String) (st : Shelf) (identity : LongTermIdentity)
    (request : SplitIdentityRequest) (segments : List TrajectorySegment) : Shelf :=
  let moving := request.moving segments
  let rehomed := moving.map fun segment => segment.moveTo newId
  let created := splitOff identity newId request moving
  let moved := moving.foldl (moveSegment ids identity.scope newId) st
  ((moved.1.putIdentity (recompute created rehomed)).putIdentity
      (recompute identity (request.remaining segments)),
    { moved.2 with
      featureSpaceIds := moved.2.featureSpaceIds.insert created.key
        ((st.2.featureSpaceIds.get? identity.key).getD .empty) })

/-- `split_identity`. -/
def splitIdentityTemplates (ids : Fresh String) (newId : String) (st : Shelf) (scope : Scope)
    (identityId : String) (request : SplitIdentityRequest) :
    Except (TrajectoryError × Shelf) Shelf :=
  match st.1.getIdentity scope identityId with
  | none => .error (identityNotFound, st)
  | some identity =>
    let segments := listing st.1 scope identityId
    if (request.moving segments).length ≠ request.wanted.length then
      .error (.notFound "one or more segments do not belong to this identity", st)
    else if (request.moving segments).length = segments.length then
      .error (.conflict "split must leave at least one segment on the source identity", st)
    else .ok (splitTemplates ids newId st identity request segments)

/-! ## The service -/

/-- The state of `Trajectory.Model`, and the templates. -/
structure TemplateState where
  state : State
  templates : Templates

/-- Nothing stored. -/
def TemplateState.initial : TemplateState := ⟨.initial, .initial⟩

/-- The calls that store, move or prune templates. -/
inductive TemplateAct where
  | ingest (request : TemplateRequest)
  | merge (scope : Scope) (request : MergeIdentitiesRequest)
  | split (scope : Scope) (identityId : String) (request : SplitIdentityRequest)

/-- The effect of a call, also of one that raises. -/
def applyTemplates (config : TemplateConfig) (uuid : UuidSource) (ids : Fresh String)
    (s : TemplateState) : TemplateAct → TemplateState
  | .ingest request =>
    let done := reached (landRunTracks config uuid ids s.state.repo s.state.issued s.templates
        request)
    ⟨⟨done.1.repo, done.1.issued, s.state.calls ++ [done.1.registered]⟩, done.2⟩
  | .merge scope request =>
    let done := reached (mergeTemplates ids (s.state.repo, s.templates) scope request)
    ⟨{ s.state with repo := done.1 }, done.2⟩
  | .split scope identityId request =>
    let done := reached (splitIdentityTemplates ids (uuid.identityId s.state.issued)
      (s.state.repo, s.templates) scope identityId request)
    ⟨{ s.state with repo := done.1, issued := s.state.issued + 1 }, done.2⟩

/-- The state after a sequence of calls, from empty stores. -/
def runTemplates (config : TemplateConfig) (uuid : UuidSource) (ids : Fresh String)
    (acts : List TemplateAct) : TemplateState :=
  acts.foldl (applyTemplates config uuid ids) .initial

end Scenara.Trajectory
