import Mathlib.Algebra.Order.Field.Rat
import Mathlib.Data.List.Dedup
import Mathlib.Data.List.Sort
import Scenara.Core.Dict
import Scenara.Core.Raising
import Scenara.Core.Slices

/-!
# Long-term identities and their segments

Model of `MemoryTrajectoryRepository` and of the calls of `TrajectoryService` that write identities
and segments (`domains/portrait/trajectory.py`): `ingest_run_tracks`, `merge_identities`,
`split_identity`, `update_identity` and `delete_identity`, made one at a time.

* What `FeatureStore.search` finds for the embeddings of a track is part of the track, so it may be
  anything; the calls of the feature store that move or prune templates return.
* The table of camera transitions is part of the request: it may change from call to call.
* A uuid is never drawn twice (`UuidSource`).
* A call that raises keeps what it wrote before: it ends in `Except (TrajectoryError × σ) σ`.
-/

namespace Scenara.Trajectory

open Scenara.Core

/-! ## Records -/

/-- The tenant and the project of a `PrincipalContext`. -/
structure Scope where
  tenantId : String
  projectId : String
  deriving DecidableEq

/-- `(tenant_id, project_id, id)`. -/
structure Key where
  scope : Scope
  id : String
  deriving DecidableEq

/-- `TrajectoryStatus`. -/
inductive TrajectoryStatus where
  | auto
  | confirmed
  | rejected
  deriving DecidableEq

/-- `TrajectoryModality`. -/
inductive Modality where
  | body
  | face
  deriving DecidableEq

/-- `CameraTransition`. -/
structure CameraTransition where
  fromCameraId : String
  toCameraId : String
  minSeconds : ℚ
  maxSeconds : Option ℚ

/-- `LongTermIdentity`. -/
structure LongTermIdentity where
  scope : Scope
  identityId : String
  displayName : String
  status : TrajectoryStatus
  cameraIds : List String
  segmentCount : Nat
  firstSeenAt : ℚ
  lastSeenAt : ℚ
  lastCameraId : String

/-- `TrajectorySegment`. -/
structure TrajectorySegment where
  scope : Scope
  segmentId : String
  identityId : String
  cameraId : String
  firstSeenAt : ℚ
  lastSeenAt : ℚ
  deriving DecidableEq

/-- `ReachabilityObservation`. -/
structure ReachabilityObservation where
  cameraId : String
  firstSeenAt : ℚ
  lastSeenAt : ℚ

/-- `ReachabilityProbe`. -/
structure ReachabilityProbe where
  overlapping : Bool
  previous : Option ReachabilityObservation
  following : Option ReachabilityObservation

/-- A closed time window. -/
structure Window where
  first : ℚ
  last : ℚ

/-- `_windows_overlap`. -/
def windowsOverlap (left right : Window) : Bool :=
  left.first ≤ right.last && right.first ≤ left.last

/-- The key of an identity. -/
def LongTermIdentity.key (identity : LongTermIdentity) :
    Key := ⟨identity.scope, identity.identityId⟩

/-- The key of a segment. -/
def TrajectorySegment.key (segment : TrajectorySegment) : Key := ⟨segment.scope, segment.segmentId⟩

/-- When the segment was seen. -/
def TrajectorySegment.window (segment : TrajectorySegment) : Window :=
  ⟨segment.firstSeenAt, segment.lastSeenAt⟩

/-- What a call raises. -/
inductive TrajectoryError where
  | notFound (message : String)
  | conflict (message : String)
  /-- An exception of the language or of a model's validation. -/
  | raised (exception : String)
  deriving DecidableEq

/-! ## The repository -/

/-- `MemoryTrajectoryRepository`; every record is stored under its own key. -/
structure Repository where
  identities : Dict Key LongTermIdentity
  segments : Dict Key TrajectorySegment
  identities_keyed : ∀ {k i}, identities.get? k = some i → i.key = k
  segments_keyed : ∀ {k s}, segments.get? k = some s → s.key = k

namespace Repository

/-- Nothing stored. -/
def empty : Repository where
  identities := .empty
  segments := .empty
  identities_keyed := by simp
  segments_keyed := by simp

/-- `put_identity`. -/
def putIdentity (repo : Repository) (identity : LongTermIdentity) : Repository :=
  { repo with
    identities := repo.identities.insert identity.key identity
    identities_keyed := by
      intro k i h
      rw [Dict.get?_insert] at h
      split at h
      · rename_i hk
        rw [hk, ← Option.some.inj h]
      · exact repo.identities_keyed h }

/-- `get_identity`. -/
def getIdentity (repo : Repository) (scope : Scope) (identityId : String) :
    Option LongTermIdentity :=
  repo.identities.get? ⟨scope, identityId⟩

/-- `delete_identity`: the repository, and whether the identity was there. -/
def deleteIdentity (repo : Repository) (scope : Scope) (identityId : String) : Repository × Bool :=
  ({ repo with
      identities := repo.identities.erase ⟨scope, identityId⟩
      identities_keyed := by
        intro k i h
        rw [Dict.get?_erase] at h
        split at h
        · cases h
        · exact repo.identities_keyed h },
    (repo.identities.get? ⟨scope, identityId⟩).isSome)

/-- `put_segment`. -/
def putSegment (repo : Repository) (segment : TrajectorySegment) : Repository :=
  { repo with
    segments := repo.segments.insert segment.key segment
    segments_keyed := by
      intro k s h
      rw [Dict.get?_insert] at h
      split at h
      · rename_i hk
        rw [hk, ← Option.some.inj h]
      · exact repo.segments_keyed h }

/-- `_in_window`. -/
def inWindow (value : ℚ) (since until_ : Option ℚ) : Bool :=
  !((since.any fun t => value < t) || (until_.any fun t => t < value))

/-- The order of `list_segments`. -/
def Listed (a b : TrajectorySegment) : Prop :=
  a.firstSeenAt < b.firstSeenAt ∨ a.firstSeenAt = b.firstSeenAt ∧ a.segmentId ≤ b.segmentId
  deriving Decidable

/-- `list_segments`: a page, and how many segments match. -/
def listSegments (repo : Repository) (scope : Scope) (identityId cameraId : Option String)
    (since until_ : Option ℚ) (offset limit : Nat) : List TrajectorySegment × Nat :=
  let rows := (repo.segments.entries.filter fun e =>
    e.1.scope = scope && (identityId.all fun id => e.2.identityId = id) &&
      (cameraId.all fun id => e.2.cameraId = id) && inWindow e.2.lastSeenAt since none &&
      inWindow e.2.firstSeenAt none until_).map Prod.snd
  (slice offset (offset + limit) (rows.insertionSort Listed), rows.length)

/-- `delete_segments_for_identity`. -/
def deleteSegmentsForIdentity (repo : Repository) (scope : Scope) (identityId : String) :
    Repository :=
  { repo with
    segments := repo.segments.filter fun k s => !(k.scope = scope && s.identityId = identityId)
    segments_keyed := by
      intro k s h
      rw [Dict.get?_filter, Option.filter_eq_some_iff] at h
      exact repo.segments_keyed h.1 }

/-- The loop of `probe_reachability` over the segments of the identity. -/
def probe (cameraId : String) (window : Window) :
    List TrajectorySegment → (previous following : Option ReachabilityObservation) →
      ReachabilityProbe
  | [], previous, following => ⟨false, previous, following⟩
  | item :: rest, previous, following =>
    if item.cameraId = "" then probe cameraId window rest previous following
    else if windowsOverlap item.window window then
      if item.cameraId ≠ cameraId then ⟨true, none, none⟩
      else probe cameraId window rest previous following
    else
      let observation := ⟨item.cameraId, item.firstSeenAt, item.lastSeenAt⟩
      if item.lastSeenAt ≤ window.first then
        if previous.all fun p => p.lastSeenAt < item.lastSeenAt then
          probe cameraId window rest (some observation) following
        else probe cameraId window rest previous following
      else if following.all fun f => item.firstSeenAt < f.firstSeenAt then
        probe cameraId window rest previous (some observation)
      else probe cameraId window rest previous following

/-- The stored segments of an identity, in the order of the dictionary. -/
def segmentsOf (repo : Repository) (scope : Scope) (identityId : String) : List TrajectorySegment :=
  (repo.segments.entries.filter fun e =>
    e.1.scope = scope && e.2.identityId = identityId).map Prod.snd

/-- `probe_reachability`. -/
def probeReachability (repo : Repository) (scope : Scope) (identityId cameraId : String)
    (window : Window) : ReachabilityProbe :=
  probe cameraId window (repo.segmentsOf scope identityId) none none

end Repository

/-! ## Aggregates -/

/-- Append a camera id that is not empty and not there yet. -/
def addCamera (cameraIds : List String) (cameraId : String) : List String :=
  if cameraId ≠ "" ∧ cameraId ∉ cameraIds then cameraIds ++ [cameraId] else cameraIds

/-- `_apply_segment`. -/
def applySegment (identity : LongTermIdentity) (segment : TrajectorySegment) : LongTermIdentity :=
  let lastSeenAt := max identity.lastSeenAt segment.lastSeenAt
  { identity with
    cameraIds := addCamera identity.cameraIds segment.cameraId
    segmentCount := identity.segmentCount + 1
    firstSeenAt := min identity.firstSeenAt segment.firstSeenAt
    lastSeenAt := lastSeenAt
    lastCameraId :=
      if lastSeenAt = segment.lastSeenAt then segment.cameraId else identity.lastCameraId }

/-- `sorted(segments, key=lambda item: item.last_seen_at)`. -/
def byLastSeen (segments : List TrajectorySegment) : List TrajectorySegment :=
  segments.insertionSort fun a b => a.lastSeenAt ≤ b.lastSeenAt

/-- `_recompute`. -/
def recompute (identity : LongTermIdentity) (segments : List TrajectorySegment) :
    LongTermIdentity :=
  let ordered := byLastSeen segments
  match (ordered.map TrajectorySegment.firstSeenAt).min?, ordered.getLast? with
  | some first, some last =>
    { identity with
      segmentCount := ordered.length
      cameraIds := (ordered.map TrajectorySegment.cameraId).foldl addCamera []
      firstSeenAt := first
      lastSeenAt := last.lastSeenAt
      lastCameraId := last.cameraId }
  | _, _ => { identity with segmentCount := 0, cameraIds := [] }

/-! ## Ingest -/

/-- The parameters of `TrajectoryService` that the calls below read. -/
structure Config where
  minTrackQuality : ℚ
  minFrameCount : Int
  defaultTransitionSeconds : ℚ

/-- A `FeatureMatch` of the feature store. -/
structure FeatureMatch where
  subjectType : String
  subjectId : String
  score : ℚ

/-- A tracklet. A number that is absent, or of a type the code ignores, is `none`; `body` and `face`
are what the search finds for an embedding of that modality, `none` when the track has no valid one;
`convertible`: `int(frame_count or 0)` and `float(tracklet_quality_score or 0.0)` do not raise. -/
structure Track where
  trackletQualityScore : Option ℚ
  frameCount : Option Int
  firstPtsMs : Option ℚ
  lastPtsMs : Option ℚ
  convertible : Bool
  body : Option (List FeatureMatch)
  face : Option (List FeatureMatch)

/-- The arguments of `ingest_run_tracks`, the clock, and what `list_transitions` answers. -/
structure IngestRequest where
  scope : Scope
  tracks : List Track
  cameraId : String
  recordingStartedAt : Option ℚ
  now : ℚ
  transitions : List CameraTransition

/-- `uuid4().hex`, draw by draw. -/
structure UuidSource where
  hex : Nat → String
  injective : Function.Injective hex

/-- A new identity id. -/
def UuidSource.identityId (uuid : UuidSource) (n : Nat) : String := "lti_" ++ uuid.hex n

/-- A new segment id. -/
def UuidSource.segmentId (uuid : UuidSource) (n : Nat) : String := "lts_" ++ uuid.hex n

/-- `_quality_gate`. -/
def qualityGate (config : Config) (track : Track) : Option String :=
  if track.trackletQualityScore.any fun q => q < config.minTrackQuality then some "low_quality"
  else if track.frameCount.any fun n => n < config.minFrameCount then some "too_few_frames"
  else none

/-- `_observation_window`. -/
def observationWindow (track : Track) (baseTime : ℚ) : Window :=
  match track.firstPtsMs, track.lastPtsMs with
  | some firstPts, some lastPts =>
    let first := baseTime + firstPts / 1000
    let last := baseTime + lastPts / 1000
    ⟨min first last, max first last⟩
  | _, _ => ⟨baseTime, baseTime⟩

/-- `_gap_allows`. -/
def gapAllows (config : Config) (bounds : Dict (String × String) (ℚ × Option ℚ))
    (key : String × String) (gap : ℚ) : Bool :=
  let (minimum, maximum) := (bounds.get? key).getD (config.defaultTransitionSeconds, none)
  minimum ≤ gap && maximum.all fun m => gap ≤ m

/-- `_transition_allows`, after the probe. -/
def transitionAllows (config : Config) (transitions : List CameraTransition)
    (probe : ReachabilityProbe) (cameraId : String) (window : Window) : Bool :=
  if probe.overlapping then false
  else
    let bounds := transitions.foldl (fun bounds t =>
      bounds.insert (t.fromCameraId, t.toCameraId) (t.minSeconds, t.maxSeconds)) Dict.empty
    (probe.previous.all fun p => p.cameraId = cameraId ||
        gapAllows config bounds (p.cameraId, cameraId) (window.first - p.lastSeenAt)) &&
      probe.following.all fun f => f.cameraId = cameraId ||
        gapAllows config bounds (cameraId, f.cameraId) (f.firstSeenAt - window.last)

/-- `SUBJECT_TYPE`. -/
def subjectType : String := "portrait_long_term_identity"

/-- `FUSION_WEIGHTS`. -/
def fusionWeight : Modality → ℚ
  | .face => 65 / 100
  | .body => 35 / 100

/-- `_track_embeddings`, each with what the search finds. -/
def trackEmbeddings (track : Track) : List (Modality × List FeatureMatch) :=
  (track.body.map fun found => (.body, found)).toList ++
    (track.face.map fun found => (.face, found)).toList

/-- The scores of an identity by modality. -/
abbrev Scores := Dict Modality ℚ

/-- One match of `_candidates`. -/
def addMatch (modality : Modality) (perIdentity : Dict String Scores) (found : FeatureMatch) :
    Dict String Scores :=
  if found.subjectType ≠ subjectType then perIdentity
  else
    let bucket := (perIdentity.get? found.subjectId).getD .empty
    perIdentity.insert found.subjectId
      (if (bucket.get? modality).getD (-1) < found.score then bucket.insert modality found.score
        else bucket)

/-- `_candidates`. -/
def candidates (embeddings : List (Modality × List FeatureMatch)) : Dict String Scores :=
  embeddings.foldl (fun perIdentity e => e.2.foldl (addMatch e.1) perIdentity) .empty

/-- `_fuse`: `none` is the division by zero of an empty dictionary. -/
def fuse (scores : Scores) : Option ℚ :=
  match scores.entries with
  | [] => none
  | [(_, score)] => some score
  | entries =>
    some ((entries.map fun e => fusionWeight e.1 * e.2).sum /
      (entries.map fun e => fusionWeight e.1).sum)

/-- A candidate with its fused score. -/
structure Candidate where
  identityId : String
  score : ℚ

/-- `key=lambda item: (-self._fuse(item[1]), item[0])`. -/
def Candidate.Before (a b : Candidate) : Prop :=
  b.score < a.score ∨ a.score = b.score ∧ a.identityId ≤ b.identityId
  deriving Decidable

/-- `ranked`. -/
def ranked (perIdentity : Dict String Scores) : Option (List Candidate) :=
  (perIdentity.entries.mapM fun e => (fuse e.2).map (Candidate.mk e.1)).map
    (·.insertionSort Candidate.Before)

/-- What the loop of `ingest_run_tracks` carries: the repository, the uuids drawn, the windows
claimed by each identity, and the ids of the segments of its results. -/
structure Ingest where
  repo : Repository
  issued : Nat
  claimed : Dict String (List Window)
  registered : List String

/-- The candidate loop of `_ingest_one`: this identity is not passed over. -/
def accepts (config : Config) (request : IngestRequest) (st : Ingest) (window : Window)
    (identityId : String) : Bool :=
  match st.repo.getIdentity request.scope identityId with
  | none => false
  | some identity =>
    identity.status ≠ .rejected &&
      !((st.claimed.get? identityId).getD []).any (windowsOverlap window) &&
      (request.cameraId = "" || request.recordingStartedAt.isNone ||
        transitionAllows config request.transitions
          (st.repo.probeReachability request.scope identityId request.cameraId window)
          request.cameraId window)

/-- The `TrajectorySegment` that `_ingest_one` creates. -/
def newSegment (uuid : UuidSource) (request : IngestRequest) (window : Window) (issued : Nat)
    (identityId : String) : TrajectorySegment where
  scope := request.scope
  segmentId := uuid.segmentId (issued + 1)
  identityId := identityId
  cameraId := request.cameraId
  firstSeenAt := window.first
  lastSeenAt := window.last

/-- The `LongTermIdentity` that `_ingest_one` creates. -/
def newIdentity (uuid : UuidSource) (request : IngestRequest) (window : Window) (issued : Nat) :
    LongTermIdentity where
  scope := request.scope
  identityId := uuid.identityId issued
  displayName := uuid.identityId issued
  status := .auto
  cameraIds := if request.cameraId ≠ "" then [request.cameraId] else []
  segmentCount := 0
  firstSeenAt := window.first
  lastSeenAt := window.last
  lastCameraId := request.cameraId

/-- The segment is stored, then its identity, and the window is claimed. -/
def Ingest.add (st : Ingest) (identity : LongTermIdentity) (segment : TrajectorySegment) :
    Ingest where
  repo := (st.repo.putSegment segment).putIdentity (applySegment identity segment)
  issued := st.issued + 2
  claimed := st.claimed.insert identity.identityId
    ((st.claimed.get? identity.identityId).getD [] ++ [segment.window])
  registered := st.registered ++ [segment.segmentId]

/-- The second half of `_ingest_one`; the segment's validation bounds `match_score`. -/
def register (uuid : UuidSource) (request : IngestRequest) (track : Track) (window : Window)
    (st : Ingest) (identity : LongTermIdentity) (matchScore : ℚ) :
    Except (TrajectoryError × Ingest) Ingest :=
  if !track.convertible || matchScore < -1 || 1 < matchScore then
    .error (.raised "the segment does not validate", st)
  else
    .ok (st.add identity (newSegment uuid request window st.issued identity.identityId))

/-- `_ingest_one`. -/
def ingestOne (config : Config) (uuid : UuidSource) (request : IngestRequest) (track : Track)
    (window : Window) (st : Ingest) : Except (TrajectoryError × Ingest) Ingest :=
  match ranked (candidates (trackEmbeddings track)) with
  | none => .error (.raised "ZeroDivisionError", st)
  | some candidates =>
    match candidates.find? fun c => accepts config request st window c.identityId with
    | none => register uuid request track window st (newIdentity uuid request window st.issued) 1
    | some chosen =>
      match st.repo.getIdentity request.scope chosen.identityId with
      | none => .error (.notFound "long-term identity disappeared during ingest", st)
      | some stored => register uuid request track window st stored chosen.score

/-- One turn of the loop of `ingest_run_tracks`. -/
def ingestTrack (config : Config) (uuid : UuidSource) (request : IngestRequest) (st : Ingest)
    (track : Track) : Except (TrajectoryError × Ingest) Ingest :=
  if (qualityGate config track).isSome then .ok st
  else if (trackEmbeddings track).isEmpty then .ok st
  else
    ingestOne config uuid request track
      (observationWindow track (request.recordingStartedAt.getD request.now)) st

/-- `ingest_run_tracks`. -/
def ingestRunTracks (config : Config) (uuid : UuidSource) (repo : Repository) (issued : Nat)
    (request : IngestRequest) : Except (TrajectoryError × Ingest) Ingest :=
  request.tracks.foldlM (ingestTrack config uuid request) ⟨repo, issued, .empty, []⟩

/-! ## Corrections by hand -/

/-- `UpdateIdentityRequest`. -/
structure UpdateIdentityRequest where
  displayName : Option String
  status : Option TrajectoryStatus

/-- `MergeIdentitiesRequest`. -/
structure MergeIdentitiesRequest where
  targetIdentityId : String
  sourceIdentityIds : List String
  bounds : 1 ≤ sourceIdentityIds.length ∧ sourceIdentityIds.length ≤ 64

/-- `SplitIdentityRequest`. -/
structure SplitIdentityRequest where
  segmentIds : List String
  displayName : String
  bounds : 1 ≤ segmentIds.length ∧ segmentIds.length ≤ 1000

/-- A call on the repository. -/
abbrev Call := Except (TrajectoryError × Repository) Repository

/-- What `TrajectoryService.get_identity` raises. -/
def identityNotFound : TrajectoryError := .notFound "long-term identity not found"

/-- The listing of `merge_identities` and `split_identity`. -/
def listing (repo : Repository) (scope : Scope) (identityId : String) : List TrajectorySegment :=
  (repo.listSegments scope (some identityId) none none none 0 1000).1

/-- `update_identity`. -/
def updateIdentity (repo : Repository) (scope : Scope) (identityId : String)
    (request : UpdateIdentityRequest) : Call :=
  match repo.getIdentity scope identityId with
  | none => .error (identityNotFound, repo)
  | some identity =>
    .ok (repo.putIdentity
      { identity with
        displayName := request.displayName.getD identity.displayName
        status := request.status.getD identity.status })

/-- `delete_identity`. -/
def deleteIdentity (repo : Repository) (scope : Scope) (identityId : String) : Call :=
  match repo.getIdentity scope identityId with
  | none => .error (identityNotFound, repo)
  | some _ =>
    let (repo, removed) :=
      (repo.deleteSegmentsForIdentity scope identityId).deleteIdentity scope identityId
    if removed then .ok repo
    else .error (.conflict "long-term identity changed during deletion", repo)

/-- `dict.fromkeys`: the first occurrence of each. -/
def fromKeys : List String → List String
  | [] => []
  | id :: ids => id :: (fromKeys ids).filter fun other => other ≠ id

/-- The segment on another identity. -/
def TrajectorySegment.moveTo (segment : TrajectorySegment) (identityId : String) :
    TrajectorySegment :=
  { segment with identityId := identityId }

/-- `put_segment` of every segment, moved to another identity. -/
def moveSegments (identityId : String) (repo : Repository) (segments : List TrajectorySegment) :
    Repository :=
  segments.foldl (fun repo segment => repo.putSegment (segment.moveTo identityId)) repo

/-- One turn of the loop of `merge_identities`. -/
def mergeSource (scope : Scope) (targetId : String) (repo : Repository) (sourceId : String) :
    Call :=
  match repo.getIdentity scope sourceId with
  | none => .error (identityNotFound, repo)
  | some _ =>
    .ok ((moveSegments targetId repo (listing repo scope sourceId)).deleteIdentity scope sourceId).1

/-- The sources of a merge. -/
def MergeIdentitiesRequest.sources (request : MergeIdentitiesRequest) : List String :=
  (fromKeys request.sourceIdentityIds).filter fun id => id ≠ request.targetIdentityId

/-- `merge_identities`. -/
def mergeIdentities (repo : Repository) (scope : Scope) (request : MergeIdentitiesRequest) : Call :=
  match repo.getIdentity scope request.targetIdentityId with
  | none => .error (identityNotFound, repo)
  | some target =>
    if request.sources.isEmpty then
      .error (.conflict "merge requires at least one distinct source identity", repo)
    else do
      let repo ← request.sources.foldlM (mergeSource scope request.targetIdentityId) repo
      return repo.putIdentity (recompute target (listing repo scope request.targetIdentityId))

/-- The identity that `split_identity` creates, before `_recompute`. -/
def splitOff (identity : LongTermIdentity) (newId : String) (request : SplitIdentityRequest)
    (moving : List TrajectorySegment) : LongTermIdentity where
  scope := identity.scope
  identityId := newId
  displayName := if request.displayName = "" then newId else request.displayName
  status := .confirmed
  cameraIds := []
  segmentCount := 0
  firstSeenAt := (moving.map TrajectorySegment.firstSeenAt).min?.getD 0
  lastSeenAt := (moving.map TrajectorySegment.lastSeenAt).max?.getD 0
  lastCameraId := ""

/-- `wanted`. -/
def SplitIdentityRequest.wanted (request : SplitIdentityRequest) : List String :=
  request.segmentIds.dedup

/-- `moving`. -/
def SplitIdentityRequest.moving (request : SplitIdentityRequest)
    (segments : List TrajectorySegment) : List TrajectorySegment :=
  segments.filter fun segment => segment.segmentId ∈ request.wanted

/-- `remaining`. -/
def SplitIdentityRequest.remaining (request : SplitIdentityRequest)
    (segments : List TrajectorySegment) : List TrajectorySegment :=
  segments.filter fun segment => segment.segmentId ∉ request.wanted

/-- The writes of `split_identity`. -/
def splitSegments (newId : String) (repo : Repository) (identity : LongTermIdentity)
    (request : SplitIdentityRequest) (segments : List TrajectorySegment) : Repository :=
  let moving := request.moving segments
  let rehomed := moving.map fun segment => segment.moveTo newId
  let created := splitOff identity newId request moving
  ((moveSegments newId repo moving).putIdentity (recompute created rehomed)).putIdentity
    (recompute identity (request.remaining segments))

/-- `split_identity`. -/
def splitIdentity (newId : String) (repo : Repository) (scope : Scope) (identityId : String)
    (request : SplitIdentityRequest) : Call :=
  match repo.getIdentity scope identityId with
  | none => .error (identityNotFound, repo)
  | some identity =>
    let segments := listing repo scope identityId
    if (request.moving segments).length ≠ request.wanted.length then
      .error (.notFound "one or more segments do not belong to this identity", repo)
    else if (request.moving segments).length = segments.length then
      .error (.conflict "split must leave at least one segment on the source identity", repo)
    else .ok (splitSegments newId repo identity request segments)

/-! ## The service -/

/-- The repository, the uuids drawn, and the ids of the segments each `ingest_run_tracks` call
registered. -/
structure State where
  repo : Repository
  issued : Nat
  calls : List (List String)

/-- Nothing stored. -/
def State.initial : State := ⟨.empty, 0, []⟩

/-- A call of the service. -/
inductive Act where
  | ingest (request : IngestRequest)
  | merge (scope : Scope) (request : MergeIdentitiesRequest)
  | split (scope : Scope) (identityId : String) (request : SplitIdentityRequest)
  | update (scope : Scope) (identityId : String) (request : UpdateIdentityRequest)
  | delete (scope : Scope) (identityId : String)

/-- The effect of a call, also of one that raises. -/
def apply (config : Config) (uuid : UuidSource) (s : State) : Act → State
  | .ingest request =>
    let done := reached (ingestRunTracks config uuid s.repo s.issued request)
    ⟨done.repo, done.issued, s.calls ++ [done.registered]⟩
  | .merge scope request => { s with repo := reached (mergeIdentities s.repo scope request) }
  | .split scope identityId request =>
    { s with
      repo := reached (splitIdentity (uuid.identityId s.issued) s.repo scope identityId request)
      issued := s.issued + 1 }
  | .update scope identityId request =>
    { s with repo := reached (updateIdentity s.repo scope identityId request) }
  | .delete scope identityId => { s with repo := reached (deleteIdentity s.repo scope identityId) }

/-- The state after a sequence of calls, from an empty repository. -/
def run (config : Config) (uuid : UuidSource) (acts : List Act) : State :=
  acts.foldl (apply config uuid) .initial

/-! ## An example -/

/-- The nth draw is n zeros. -/
def zeros : UuidSource where
  hex n := String.ofList (List.replicate n '0')
  injective := by
    intro m n h
    simpa using congrArg List.length (String.ofList_injective h)

/-- The default settings. -/
def defaultConfig : Config := ⟨35 / 100, 2, 0⟩

/-- A project. -/
def portal : Scope := ⟨"tenant", "project"⟩

/-- A good track of the given milliseconds whose body is found on the given identities. -/
def trackOf (firstPtsMs lastPtsMs : ℚ) (subjectIds : List String) : Track where
  trackletQualityScore := some (9 / 10)
  frameCount := some 10
  firstPtsMs := some firstPtsMs
  lastPtsMs := some lastPtsMs
  convertible := true
  body := some (subjectIds.map fun id => ⟨subjectType, id, 9 / 10⟩)
  face := none

/-- The tracks of a recording that started at `start`. -/
def seenAt (cameraId : String) (start : ℚ) (tracks : List Track) : Act :=
  .ingest
    { scope := portal
      tracks := tracks
      cameraId := cameraId
      recordingStartedAt := some start
      now := 0
      transitions := [] }

end Scenara.Trajectory
