import Mathlib.Data.Prod.Lex
import Mathlib.Data.String.Basic
import Scenara.Core.UnionFind
import Scenara.Tracking.Model

/-!
# Associating the persons of all frames

Model of `associate_person_tracks` and of the merging of track fragments
(`app/tracking_association.py`), with `TrackState.update` and `public_dict`
(`app/tracking_state.py`).

* Labels (`track_id`) are the only thing written into a person here. `track_state`, `track_match`
  and the smoothed boxes are not modelled, nor are the confidence, quality and embedding samples.
* `TrackState` objects are shared between the lists of the source. Here a list of tracks is a list
  of values, and an update replaces the track of that id (`updateTrack`).
* `merge_track_state` recomputes the embedding of the merged track from its samples; nothing reads
  it after a merge, and it stays as it was.
* `none` is an `IndexError` of `predict_track_box`, a `KeyError` of the union-find, or the
  `TypeError` of a loop over persons that cannot be iterated. What can be iterated only once is not
  modelled.
-/

namespace Scenara.Tracking

open Scenara.Core

/-! ## Tracks -/

/-- `TrackState.update`. -/
def TrackState.update (math : VectorMath) (frameIndex : Int) (person : Person)
    (track : TrackState) : TrackState :=
  let box := person.box.getD track.lastBox
  { trackId := track.trackId
    lastFrameIndex := frameIndex
    lastBox := box
    smoothedEmbedding :=
      match person.embedding, track.smoothedEmbedding with
      | none, smoothed => smoothed
      | some embedding, none => if embedding.isEmpty then none else some embedding
      | some embedding, some smoothed =>
        if embedding.isEmpty then some smoothed
        else if smoothed.length ≠ embedding.length then some embedding
        else some (math.blend smoothed embedding)
    hits := track.hits + 1
    frameIndexes := track.frameIndexes ++ [frameIndex]
    observations := track.observations ++ [⟨frameIndex, box⟩] }

/-- The track a person starts. -/
def newTrack (trackId : String) (frameIndex : Int) (person : Person) : TrackState where
  trackId := trackId
  lastFrameIndex := frameIndex
  lastBox := person.box.getD []
  smoothedEmbedding := person.embedding
  hits := 1
  frameIndexes := [frameIndex]
  observations := [⟨frameIndex, person.box.getD []⟩]

/-- The track of that id is updated. -/
def updateTrack (trackId : String) (f : TrackState → TrackState) (tracks : List TrackState) :
    List TrackState :=
  tracks.map fun t => if t.trackId = trackId then f t else t

/-- `f"trk_{number:04d}"`. -/
def trackIdOf (number : Nat) : String :=
  String.ofList (['t', 'r', 'k', '_'] ++ (Nat.toDigits 10 number).leftpad 4 '0')

/-- `first_frame_index`. -/
def firstFrameIndex (track : TrackState) : Int := track.frameIndexes.min?.getD track.lastFrameIndex

/-- `last_frame_index`. -/
def lastFrameIndex (track : TrackState) : Int := track.frameIndexes.max?.getD track.lastFrameIndex

/-- `first_observation`: the first one with the least frame index (the sort is stable). -/
def firstObservation (track : TrackState) : Option Observation :=
  (byFrame track.observations).head?

/-- `last_observation`: the first one with the greatest frame index. -/
def lastObservation (track : TrackState) : Option Observation :=
  (track.observations.insertionSort fun a b => b.frameIndex ≤ a.frameIndex).head?

/-- What `public_dict` says of the frames. -/
structure PublicTrack where
  trackId : String
  frameCount : Nat
  firstFrameIndex : Int
  lastFrameIndex : Int
  deriving DecidableEq

/-- `public_dict`. -/
def publicDict (track : TrackState) : PublicTrack :=
  ⟨track.trackId, track.hits, firstFrameIndex track, track.lastFrameIndex⟩

/-! ## Frames -/

/-- `persons` of a frame: a list, or something else (a tuple, a number), with what the loops that
do not ask for a list meet in it, if it can be iterated. An entry is `none` when it is not a
dictionary. -/
inductive Persons where
  | list (entries : List (Option Person))
  | other (entries : Option (List (Option Person)))
  deriving DecidableEq

/-- What `for person in persons` meets; it raises for `none`. -/
def Persons.entries : Persons → Option (List (Option Person))
  | list entries => some entries
  | other entries => entries

/-- A change of every person that `for person in persons` meets. -/
def Persons.map (f : Person → Person) : Persons → Persons
  | list entries => list (entries.map (Option.map f))
  | other entries => other (entries.map (List.map (Option.map f)))

/-- A frame. -/
structure Frame where
  frameIndex : Int
  persons : Persons
  deriving DecidableEq

/-- The labels of the persons of a list. -/
def labelsOf (persons : List (Option Person)) : List String :=
  persons.filterMap fun person => person.bind Person.trackId

/-- The labels of a frame. -/
def Frame.labels (frame : Frame) : List String := labelsOf (frame.persons.entries.getD [])

/-- `person["track_id"] = trackId`, at a position. -/
def labelPerson (persons : List (Option Person)) (index : Nat) (trackId : Option String) :
    List (Option Person) :=
  persons.modify index (Option.map fun person => { person with trackId })

/-- The parameters of `associate_person_tracks`. -/
structure Parameters where
  highConfidence : ℚ
  lowConfidence : ℚ
  minMatchScore : ℚ
  maxAge : Int
  maxFragmentMergeGap : Int
  maxGlobalAssociationSize : Int

/-- `detections`: the persons with their positions. -/
def detectionsOf (persons : List (Option Person)) : List (Nat × Person) :=
  persons.zipIdx.filterMap fun entry => entry.1.map fun person => (entry.2, person)

/-- What the passes over one frame change. -/
structure Pass where
  activeTracks : List TrackState
  persons : List (Option Person)
  matchedPersons : List Nat
  nextTrackNumber : Nat

/-- A match is applied to its track and to its person. -/
def applyMatch (math : VectorMath) (frameIndex : Int) (s : Pass) (m : Match) : Pass :=
  match s.persons[m.personIndex]?.join with
  | none => s
  | some person =>
    { s with
      activeTracks := updateTrack m.track.trackId (·.update math frameIndex person) s.activeTracks
      persons := labelPerson s.persons m.personIndex (some m.track.trackId)
      matchedPersons := m.personIndex :: s.matchedPersons }

/-- The loop over `high` after the matches: who is not matched starts a track. -/
def startTrack (frameIndex : Int) (s : Pass) (detection : Nat × Person) : Pass :=
  if detection.1 ∈ s.matchedPersons then s
  else
    { activeTracks :=
        s.activeTracks ++ [newTrack (trackIdOf s.nextTrackNumber) frameIndex detection.2]
      persons := labelPerson s.persons detection.1 (some (trackIdOf s.nextTrackNumber))
      matchedPersons := detection.1 :: s.matchedPersons
      nextTrackNumber := s.nextTrackNumber + 1 }

/-- The last loop over `detections`: who is not matched has no label. -/
def dropLabels (s : Pass) : List (Option Person) :=
  s.persons.zipIdx.map fun entry =>
    if entry.2 ∈ s.matchedPersons then entry.1
    else entry.1.map fun person => { person with trackId := none }

/-- The tracks between two frames. -/
structure Tracker where
  activeTracks : List TrackState
  finishedTracks : List TrackState
  nextTrackNumber : Nat

/-- The three passes over the persons of a frame. -/
def associatePersons (math : VectorMath) (parameters : Parameters) (frameIndex : Int) (s : Tracker)
    (persons : List (Option Person)) : Option Pass := do
  let detections := detectionsOf persons
  let high := detections.filter fun d => parameters.highConfidence ≤ d.2.score
  let low := detections.filter fun d =>
    parameters.lowConfidence ≤ d.2.score ∧ d.2.score < parameters.highConfidence
  let unmatchedTracks := s.activeTracks.filter fun t =>
    frameIndex - t.lastFrameIndex ≤ parameters.maxAge
  let highMatches ← globalMatch math unmatchedTracks high frameIndex parameters.minMatchScore
    parameters.maxGlobalAssociationSize
  let s := highMatches.foldl (applyMatch math frameIndex)
    ⟨s.activeTracks, persons, [], s.nextTrackNumber⟩
  -- The objects of `unmatched_tracks`, as they are now.
  let remainingTracks := s.activeTracks.filter fun t =>
    t.trackId ∈ unmatchedTracks.map TrackState.trackId ∧ t.trackId ∉ labelsOf s.persons
  let lowMatches ← globalMatch math remainingTracks
    (low.filter fun d => d.1 ∉ s.matchedPersons) frameIndex
    (max (18 / 100) (parameters.minMatchScore - 8 / 100)) parameters.maxGlobalAssociationSize
  let s := lowMatches.foldl (applyMatch math frameIndex) s
  return high.foldl (startTrack frameIndex) s

/-- One turn of the loop over the frames. -/
def associateFrame (math : VectorMath) (parameters : Parameters) (s : Tracker) (frame : Frame) :
    Option (Tracker × Frame) :=
  match frame.persons with
  | .other _ => some (s, frame)
  | .list persons =>
    (associatePersons math parameters frame.frameIndex s persons).map fun pass =>
      ({ activeTracks := pass.activeTracks.filter fun t =>
          ¬parameters.maxAge < frame.frameIndex - t.lastFrameIndex
         finishedTracks := s.finishedTracks ++ pass.activeTracks.filter fun t =>
          parameters.maxAge < frame.frameIndex - t.lastFrameIndex
         nextTrackNumber := pass.nextTrackNumber },
        { frame with persons := .list (dropLabels pass) })

/-- The loop over the frames. -/
def associateFrames (math : VectorMath) (parameters : Parameters) (frames : List Frame) :
    Option (Tracker × List Frame) :=
  frames.foldlM (fun s frame =>
    (associateFrame math parameters s.1 frame).map fun next => (next.1, s.2 ++ [next.2]))
    (⟨[], [], 1⟩, [])

/-! ## Fragments -/

/-- What `can_merge_track_fragments` returns. -/
structure Candidate where
  fromTrackId : String
  toTrackId : String
  gap : Int
  appearance : ℚ
  motionIou : ℚ
  predictedBox : List ℚ

/-- `can_merge_track_fragments`. -/
def canMergeTrackFragments (math : VectorMath) (left right : TrackState) (maxGap : Int) :
    Option (Option Candidate) :=
  let gap := firstFrameIndex right - lastFrameIndex left - 1
  if firstFrameIndex right ≤ lastFrameIndex left then some none
  else if gap < 0 ∨ maxGap < gap then some none
  else
    match embeddingScore math left.smoothedEmbedding right.smoothedEmbedding with
    | none => some none
    | some appearance =>
      if appearance < 86 / 100 then some none
      else
        match firstObservation right with
        | none => some none
        | some rightFirst =>
          (predictTrackBox left rightFirst.frameIndex).map fun predictedBox =>
            let motionIou := boxIou predictedBox rightFirst.box
            if motionIou < 5 / 100 ∧ appearance < 92 / 100 then none
            else some
              { fromTrackId := right.trackId
                toTrackId := left.trackId
                gap := gap
                appearance := roundTo 6 appearance
                motionIou := roundTo 6 motionIou
                predictedBox := predictedBox }

/-- `merge_track_state`. -/
def mergeTrackState (primary secondary : TrackState) : TrackState :=
  let merged := { primary with
    hits := primary.hits + secondary.hits
    frameIndexes := primary.frameIndexes ++ secondary.frameIndexes
    observations := byFrame (primary.observations ++ secondary.observations) }
  match lastObservation merged with
  | none => merged
  | some latest => { merged with lastFrameIndex := latest.frameIndex, lastBox := latest.box }

/-- `rewrite_merged_track_ids`. Persons that cannot be iterated raise here already; the last loop of
`associatePersonTracks` raises for them in any case. -/
def rewriteMergedTrackIds (frames : List Frame) (fromTrackId toTrackId : String) : List Frame :=
  frames.map fun frame => { frame with
    persons := frame.persons.map fun person =>
      if person.trackId = some fromTrackId then { person with trackId := some toTrackId }
      else person }

/-- The start of a group; no group is empty. -/
def groupStart (group : List TrackState) : Int := (group.map firstFrameIndex).min?.getD 0

/-- The end of a group. -/
def groupEnd (group : List TrackState) : Int := (group.map lastFrameIndex).max?.getD 0

/-- `track_groups_are_temporally_compatible`. -/
def trackGroupsAreTemporallyCompatible (left right : List TrackState) : Bool :=
  groupEnd left < groupStart right || groupEnd right < groupStart left

/-- Tracks by their first frame, then by id. -/
def TrackLe (a b : TrackState) : Prop :=
  firstFrameIndex a < firstFrameIndex b ∨
    firstFrameIndex a = firstFrameIndex b ∧ a.trackId ≤ b.trackId
  deriving Decidable

/-- The inner loop over `ordered_tracks`, up to its `break`. -/
def candidatesOf (math : VectorMath) (maxGap : Int) (left : TrackState) :
    List TrackState → Option (List Candidate)
  | [] => some []
  | right :: rest =>
    if maxGap < firstFrameIndex right - lastFrameIndex left - 1 then some []
    else
      (canMergeTrackFragments math left right maxGap).bind fun found =>
        (candidatesOf math maxGap left rest).map (found.toList ++ ·)

/-- The outer loop. -/
def allCandidates (math : VectorMath) (maxGap : Int) : List TrackState → Option (List Candidate)
  | [] => some []
  | left :: rest =>
    (candidatesOf math maxGap left rest).bind fun found =>
      (allCandidates math maxGap rest).map (found ++ ·)

/-- The sort key of a candidate. -/
def Candidate.key (c : Candidate) : Int ×ₗ ℚ ×ₗ ℚ ×ₗ String ×ₗ String :=
  toLex (c.gap, toLex (-c.appearance, toLex (-c.motionIou, toLex (c.toTrackId, c.fromTrackId))))

/-- `union_find` and `groups`. -/
structure Grouping where
  unionFind : UnionFind String
  groups : Dict String (List TrackState)

/-- One turn of the loop over the candidates. -/
def acceptCandidate (g : Grouping) (candidate : Candidate) : Option Grouping := do
  let (leftRoot, unionFind) ← g.unionFind.find candidate.toTrackId
  let (rightRoot, unionFind) ← unionFind.find candidate.fromTrackId
  if leftRoot = rightRoot then return { g with unionFind }
  let left ← g.groups.get? leftRoot
  let right ← g.groups.get? rightRoot
  if !trackGroupsAreTemporallyCompatible left right then return { g with unionFind }
  let (_, unionFind) ← unionFind.union candidate.toTrackId candidate.fromTrackId
  let (newRoot, unionFind) ← unionFind.find candidate.toTrackId
  let oldRoot := if newRoot = leftRoot then rightRoot else leftRoot
  return ⟨unionFind,
    (((g.groups.erase leftRoot).erase rightRoot).insert newRoot (left ++ right)).erase oldRoot⟩

/-- Every track in a group of its own. -/
def singleGroups (tracks : List TrackState) : Grouping where
  unionFind := .singletons (tracks.map TrackState.trackId)
  groups := .ofList (tracks.map fun t => (t.trackId, [t]))

/-- One turn of the loop over the groups: the frames, and the merged tracks so far. -/
def mergeGroup (s : List Frame × List TrackState) (group : List TrackState) :
    List Frame × List TrackState :=
  match group.insertionSort TrackLe with
  | [] => s
  | primary :: rest =>
    let merged := rest.foldl (fun m secondary =>
      (rewriteMergedTrackIds m.1 secondary.trackId m.2.trackId, mergeTrackState m.2 secondary))
      (s.1, primary)
    (merged.1, s.2 ++ [merged.2])

/-- `tracks.sort(key=lambda item: item.track_id)`. -/
def byTrackId (tracks : List TrackState) : List TrackState :=
  tracks.insertionSort fun a b => a.trackId ≤ b.trackId

/-- `merge_track_fragments`. -/
def mergeTrackFragments (math : VectorMath) (frames : List Frame) (tracks : List TrackState)
    (maxGap : Int) : Option (List Frame × List TrackState) := do
  let orderedTracks := tracks.insertionSort TrackLe
  let candidates ← allCandidates math maxGap orderedTracks
  let g ← (candidates.insertionSort fun a b => a.key ≤ b.key).foldlM acceptCandidate
    (singleGroups orderedTracks)
  let merged := (g.groups.values.insertionSort fun a b => groupStart a ≤ groupStart b).foldl
    mergeGroup (frames, [])
  return (merged.1, byTrackId merged.2)

/-- `associate_person_tracks`: the frames as it leaves them, and the tracks it returns. -/
def associatePersonTracks (math : VectorMath) (parameters : Parameters) (frames : List Frame) :
    Option (List Frame × List PublicTrack) := do
  let (tracker, frames) ← associateFrames math parameters frames
  let allTracks := byTrackId (tracker.finishedTracks ++ tracker.activeTracks)
  let (frames, allTracks) ← mergeTrackFragments math frames allTracks parameters.maxFragmentMergeGap
  -- The loop that pops the embeddings.
  guard (frames.all fun frame => frame.persons.entries.isSome)
  return (frames, allTracks.map publicDict)

end Scenara.Tracking
