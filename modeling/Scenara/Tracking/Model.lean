import Mathlib.Algebra.Order.Ring.WithTop
import Mathlib.Data.List.Sort
import Mathlib.Data.Rat.Floor
import Scenara.Core.Dict

/-!
# Matching detections to tracks

Model of `association_score`, `global_match` and its two solvers (`app/tracking_association.py`), of
`predict_track_box` (`app/tracking_state.py`), and of the geometry they use
(`app/portrait_tracking_metrics.py`).

* Floats are exact rationals; `round(x, n)` rounds to the nearest multiple, ties to even.
* What is computed with numpy is a parameter, `VectorMath`.
* An `IndexError` (a box of fewer than four numbers) is `none`.
* Arrays are functions of the index. The loops `while True` of the Hungarian method take the number
  of columns as fuel, which `search_grown` and `augment_spec` show to be enough.
-/

namespace Scenara.Tracking

open Scenara.Core

/-! ## Tracks and detections -/

/-- A detected person, as far as the tracking reads it. `box` is absent or a list; `embedding` is
`person_embedding(person)`. -/
structure Person where
  score : ℚ
  box : Option (List ℚ)
  embedding : Option (List ℚ)
  trackId : Option String
  deriving DecidableEq

/-- An entry of `observations`. -/
structure Observation where
  frameIndex : Int
  box : List ℚ

/-- `TrackState`. -/
structure TrackState where
  trackId : String
  lastFrameIndex : Int
  lastBox : List ℚ
  smoothedEmbedding : Option (List ℚ)
  hits : Nat
  frameIndexes : List Int
  observations : List Observation

/-- The functions on embeddings that are computed with numpy: `cosine_similarity`, and the
normalised mixture of `TrackState.update`. -/
structure VectorMath where
  cosineSimilarity : List ℚ → List ℚ → ℚ
  blend : List ℚ → List ℚ → List ℚ

/-! ## Geometry -/

/-- The nearest integer, ties to even. -/
def roundHalfEven (x : ℚ) : Int :=
  let f := ⌊x⌋
  if x - f < 1 / 2 then f
  else if 1 / 2 < x - f then f + 1
  else if f % 2 = 0 then f else f + 1

/-- `round(x, digits)`. -/
def roundTo (digits : Nat) (x : ℚ) : ℚ := roundHalfEven (x * 10 ^ digits) / 10 ^ digits

/-- `box_area` of a box of at least four numbers. -/
def boxArea (x1 y1 x2 y2 : ℚ) : ℚ := max 0 (x2 - x1) * max 0 (y2 - y1)

/-- `box_iou`. -/
def boxIou : List ℚ → List ℚ → ℚ
  | a1 :: b1 :: a2 :: b2 :: _, c1 :: d1 :: c2 :: d2 :: _ =>
    let intersection := max 0 (min a2 c2 - max a1 c1) * max 0 (min b2 d2 - max b1 d1)
    let union := boxArea a1 b1 a2 b2 + boxArea c1 d1 c2 d2 - intersection
    if 0 < union then intersection / union else 0
  | _, _ => 0

/-- `embedding_score`. -/
def embeddingScore (math : VectorMath) (a b : Option (List ℚ)) : Option ℚ :=
  match a, b with
  | some a, some b =>
    if a.isEmpty || b.isEmpty || a.length ≠ b.length then none
    else some (max 0 (min 1 ((math.cosineSimilarity a b + 1) / 2)))
  | _, _ => none

/-- `sorted(observations, key=lambda item: item["frame_index"])`. -/
def byFrame (observations : List Observation) : List Observation :=
  observations.insertionSort fun a b => a.frameIndex ≤ b.frameIndex

/-- The four numbers `predict_track_box` extrapolates, one `index` after the other. -/
def extrapolate (previous current : List ℚ) (frameGap predictGap : Int) : Option (List ℚ) :=
  (List.range 4).mapM fun index =>
    match current[index]?, previous[index]? with
    | some c, some p => some (roundTo 4 (c + (c - p) / frameGap * predictGap))
    | _, _ => none

/-- `predict_track_box`. -/
def predictTrackBox (track : TrackState) (frameIndex : Int) : Option (List ℚ) :=
  match (byFrame track.observations).reverse with
  | current :: previous :: _ =>
    extrapolate previous.box current.box (max 1 (current.frameIndex - previous.frameIndex))
      (max 1 (frameIndex - current.frameIndex))
  | _ => some track.lastBox

/-! ## Scores -/

/-- The dictionary `association_score` returns. -/
structure AssociationDetails where
  score : ℚ
  iou : ℚ
  lastIou : ℚ
  predictedIou : ℚ
  predictedBox : List ℚ
  motion : ℚ
  appearance : Option ℚ

/-- `association_score`. -/
def associationScore (math : VectorMath) (track : TrackState) (person : Person)
    (frameIndex : Int) : Option AssociationDetails :=
  (predictTrackBox track frameIndex).map fun predictedBox =>
    let lastIou := boxIou track.lastBox (person.box.getD [])
    let predictedIou := boxIou predictedBox (person.box.getD [])
    let geometric := max lastIou predictedIou
    let gap := max 1 (frameIndex - track.lastFrameIndex)
    let motion : ℚ := max 0 (1 - (min (gap - 1) 6 : Int) / 6)
    let appearance := embeddingScore math track.smoothedEmbedding person.embedding
    let score := match appearance with
      | none => 74 / 100 * geometric + 26 / 100 * motion
      | some appearance => 42 / 100 * geometric + 16 / 100 * motion + 42 / 100 * appearance
    { score := roundTo 6 score
      iou := roundTo 6 geometric
      lastIou := roundTo 6 lastIou
      predictedIou := roundTo 6 predictedIou
      predictedBox := predictedBox
      motion := roundTo 6 motion
      appearance := appearance.map (roundTo 6) }

/-- A position in `tracks` and one in `detections`. -/
abbrev Pair := Nat × Nat

/-- `details_by_pair`: the pairs whose score reaches `min_score`. -/
abbrev Details := Dict Pair AssociationDetails

/-- The two loops that fill `details_by_pair`. -/
def detailsByPair (math : VectorMath) (tracks : List TrackState)
    (detections : List (Nat × Person)) (frameIndex : Int) (minScore : ℚ) : Option Details :=
  tracks.zipIdx.foldlM (fun details track =>
    detections.zipIdx.foldlM (fun details detection =>
      (associationScore math track.1 detection.1.2 frameIndex).map fun d =>
        if minScore ≤ d.score then details.insert (track.2, detection.2) d else details)
      details) .empty

/-! ## The exact solver -/

/-- A partial assignment with its score. -/
structure Solution where
  score : ℚ
  pairs : List Pair

/-- Tuples of pairs in Python's order. -/
def pairsLt : List Pair → List Pair → Bool
  | [], [] => false
  | [], _ :: _ => true
  | _ :: _, [] => false
  | p :: ps, q :: qs =>
    p.1 < q.1 || p.1 = q.1 && (p.2 < q.2 || p.2 = q.2 && pairsLt ps qs)

/-- `better`; the tolerance is 1e-9. -/
def better (candidate current : Solution) : Bool :=
  current.score + 1 / 10 ^ 9 < candidate.score ||
    |candidate.score - current.score| ≤ 1 / 10 ^ 9 &&
        current.pairs.length < candidate.pairs.length ||
    |candidate.score - current.score| ≤ 1 / 10 ^ 9 &&
      candidate.pairs.length = current.pairs.length && pairsLt candidate.pairs current.pairs

/-- `solve`, without its cache: `left` tracks are left, from `trackPosition` on. -/
def solve (details : Details) (detectionCount : Nat) :
    (left : Nat) → (trackPosition usedDetectionMask : Nat) → Solution
  | 0, _, _ => ⟨0, []⟩
  | left + 1, trackPosition, mask =>
    (List.range detectionCount).foldl (fun best detectionPosition =>
      if mask.testBit detectionPosition then best
      else
        match details.get? (trackPosition, detectionPosition) with
        | none => best
        | some d =>
          let next := solve details detectionCount left (trackPosition + 1)
            (mask ||| 1 <<< detectionPosition)
          let candidate : Solution :=
            ⟨d.score + next.score, (trackPosition, detectionPosition) :: next.pairs⟩
          if better candidate best then candidate else best)
      (solve details detectionCount left (trackPosition + 1) mask)

/-! ## The Hungarian method -/

/-- `max_score`. -/
def maxScore (details : Details) : ℚ := ((details.values.map AssociationDetails.score).max?).getD 0

/-- `cost`: a missing pair costs `max_score + 1.0`. -/
def cost (details : Details) (row column : Nat) : ℚ :=
  match details.get? (row, column) with
  | some d => maxScore details - d.score
  | none => maxScore details + 1

/-- `potentials_u`, `potentials_v`, `matching` and `predecessor`. -/
structure Duals where
  u : Nat → ℚ
  v : Nat → ℚ
  matching : Nat → Nat
  predecessor : Nat → Nat

/-- The variables of the first `while` loop; `matching` does not change in it. -/
structure Search where
  u : Nat → ℚ
  v : Nat → ℚ
  predecessor : Nat → Nat
  minValues : Nat → WithTop ℚ
  used : Nat → Bool
  column : Nat

/-- The variables of the loop that looks for the next column. -/
structure Scan where
  predecessor : Nat → Nat
  minValues : Nat → WithTop ℚ
  delta : WithTop ℚ
  nextColumn : Nat

/-- One turn of that loop. -/
def scanColumn (used : Nat → Bool) (current : Nat → ℚ) (column : Nat) (s : Scan)
    (candidateColumn : Nat) : Scan :=
  if used candidateColumn then s
  else
    let s := if (current candidateColumn : WithTop ℚ) < s.minValues candidateColumn then
        { s with
          minValues := Function.update s.minValues candidateColumn (current candidateColumn)
          predecessor := Function.update s.predecessor candidateColumn column }
      else s
    if s.minValues candidateColumn < s.delta then
      { s with delta := s.minValues candidateColumn, nextColumn := candidateColumn }
    else s

/-- The columns `1, …, size`. -/
def columns (size : Nat) : List Nat := List.range' 1 size

/-- One turn of the first `while` loop. -/
def advance (cost : Nat → Nat → ℚ) (size : Nat) (matching : Nat → Nat) (t : Search) : Search :=
  let used := Function.update t.used t.column true
  let row := matching t.column
  let scan := (columns size).foldl
    (scanColumn used (fun c => cost (row - 1) (c - 1) - t.u row - t.v c) t.column)
    ⟨t.predecessor, t.minValues, ⊤, 0⟩
  let delta := scan.delta.untopD 0
  { u := (List.range (size + 1)).foldl (fun u c =>
      if used c then Function.update u (matching c) (u (matching c) + delta) else u) t.u
    v := fun c => if c ≤ size ∧ used c then t.v c - delta else t.v c
    predecessor := scan.predecessor
    minValues := fun c =>
      if c ≤ size ∧ !used c then (scan.minValues c).map (· - delta) else scan.minValues c
    used := used
    column := scan.nextColumn }

/-- The first `while` loop, until the column is free. -/
def search (cost : Nat → Nat → ℚ) (size : Nat) (matching : Nat → Nat) :
    (fuel : Nat) → Search → Search
  | 0, t => t
  | fuel + 1, t =>
    let t := advance cost size matching t
    if matching t.column = 0 then t else search cost size matching fuel t

/-- The second `while` loop. -/
def augment (predecessor : Nat → Nat) : (fuel : Nat) → (Nat → Nat) → (column : Nat) → Nat → Nat
  | 0, matching, _ => matching
  | fuel + 1, matching, column =>
    let previous := predecessor column
    let matching := Function.update matching column (matching previous)
    if previous = 0 then matching else augment predecessor fuel matching previous

/-- One turn of the loop over the rows. -/
def assignRow (cost : Nat → Nat → ℚ) (size : Nat) (h : Duals) (row : Nat) : Duals :=
  let matching := Function.update h.matching 0 row
  let t := search cost size matching (size + 1)
    { u := h.u
      v := h.v
      predecessor := h.predecessor
      minValues := fun _ => ⊤
      used := fun _ => false
      column := 0 }
  { u := t.u
    v := t.v
    matching := augment t.predecessor (size + 1) matching t.column
    predecessor := t.predecessor }

/-- The loop over the rows. -/
def assignRows (cost : Nat → Nat → ℚ) (size : Nat) : Duals :=
  (columns size).foldl (assignRow cost size) ⟨fun _ => 0, fun _ => 0, fun _ => 0, fun _ => 0⟩

/-- Pairs in Python's order. -/
def PairLe (p q : Pair) : Prop := p.1 < q.1 ∨ p.1 = q.1 ∧ p.2 ≤ q.2
  deriving Decidable

/-- `hungarian_assignment_pairs`. -/
def hungarianAssignmentPairs (details : Details) (trackCount detectionCount : Nat) : List Pair :=
  let size := max trackCount detectionCount
  let matching := (assignRows (cost details) size).matching
  ((columns size).filterMap fun column =>
    match matching column with
    | 0 => none
    | row + 1 =>
      if row < trackCount ∧ column - 1 < detectionCount ∧
          (details.get? (row, column - 1)).isSome then
        some (row, column - 1)
      else none).insertionSort PairLe

/-! ## The match -/

/-- A match of `global_match`. -/
structure Match where
  track : TrackState
  personIndex : Nat
  details : AssociationDetails

/-- `assignment_matches`. -/
def assignmentMatches (tracks : List TrackState) (detections : List (Nat × Person))
    (details : Details) (pairs : List Pair) : List Match :=
  pairs.filterMap fun pair =>
    match tracks[pair.1]?, detections[pair.2]?, details.get? pair with
    | some track, some detection, some d => some ⟨track, detection.1, d⟩
    | _, _, _ => none

/-- The pairs the solver chooses. -/
def solverPairs (details : Details) (trackCount detectionCount : Nat) (maxExactSize : Int) :
    List Pair :=
  if maxExactSize < trackCount ∨ maxExactSize < detectionCount then
    hungarianAssignmentPairs details trackCount detectionCount
  else (solve details detectionCount trackCount 0 0).pairs

/-- `global_match`. -/
def globalMatch (math : VectorMath) (tracks : List TrackState) (detections : List (Nat × Person))
    (frameIndex : Int) (minScore : ℚ) (maxExactSize : Int) : Option (List Match) :=
  if tracks.isEmpty || detections.isEmpty then some []
  else
    (detailsByPair math tracks detections frameIndex minScore).map fun details =>
      if details.entries.isEmpty then []
      else
        assignmentMatches tracks detections details
          (solverPairs details tracks.length detections.length maxExactSize)

end Scenara.Tracking
