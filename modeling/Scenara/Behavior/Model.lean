import Scenara.Core.Slices
import Scenara.Core.Spans
import Scenara.Tracking.Model

/-!
# Behaviour recognition, batch by batch

Model of `ProductionBehaviorEngine.analyze_actions_and_objects` and of the loop over batches in
`BehaviorRecognitionOperator.execute` (`domains/behavior/operators.py`), without a region of
interest.

* Every frame comes with its detected persons, at least one (`Frame.detected`), so that the fallback
  `_detect_motion_regions` is not reached.
* Floats are exact rationals. `iter_batches` hands out the units in slices of the batch size, from a
  list and from a stream alike.
* `seen` and `joined` are the part of the result that the batches should not decide.
-/

namespace Scenara.Behavior

open Scenara.Core
open Tracking (roundTo)

/-! ## Frames -/

/-- The images: their size, and `mean(absdiff(a, b)) / 255` of the grey values (`0` for two
shapes). -/
structure Pixels (I : Type) where
  width : I → Nat
  height : I → Nat
  motion : I → I → ℚ

/-- The four numbers of a detected box. -/
structure Corners where
  x1 : ℚ
  y1 : ℚ
  x2 : ℚ
  y2 : ℚ
  deriving DecidableEq

/-- A detected person. -/
structure Person where
  box : Option Corners
  score : Option ℚ

/-- A decoded unit with its detections; `pts_ms or 0`. -/
structure Frame (I : Type) where
  image : I
  ptsMs : Int
  persons : List Person
  detected : persons ≠ []

/-- `BoundingBox`. -/
structure BoundingBox where
  x : ℚ
  y : ℚ
  width : ℚ
  height : ℚ

variable {I : Type}

/-- The box of a person, the whole image by default, at least one pixel wide and high. -/
def personBox (px : Pixels I) (image : I) (person : Person) : BoundingBox :=
  let box := person.box.getD ⟨0, 0, px.width image, px.height image⟩
  ⟨box.x1, box.y1, max 1 (box.x2 - box.x1), max 1 (box.y2 - box.y1)⟩

/-- `(cx, cy)`. -/
def BoundingBox.center (box : BoundingBox) :
    ℚ × ℚ := (box.x + box.width / 2, box.y + box.height / 2)

/-- Height over width. -/
def BoundingBox.aspectRatio (box : BoundingBox) : ℚ := box.height / box.width

/-! ## Actions -/

/-- The actions that the rules tell apart. -/
inductive ActionType where
  | falling
  | jumping
  | running
  | walking
  | sitting
  | waving
  | standing
  deriving DecidableEq

/-- `ACTION_LABELS_ZH`. -/
def ActionType.label : ActionType → String
  | .falling => "跌倒"
  | .jumping => "跳跃"
  | .running => "奔跑"
  | .walking => "行走"
  | .sitting => "坐下"
  | .waving => "挥手"
  | .standing => "站立"

/-- The rules: the action and its confidence. -/
def classify (motionIntensity dx dy aspectRatio : ℚ) : ActionType × ℚ :=
  if dy > 8 / 100 ∧ aspectRatio < 12 / 10 then (.falling, 92 / 100)
  else if dy < -5 / 100 then (.jumping, 88 / 100)
  else if motionIntensity > 12 / 100 ∨ dx > 4 / 100 then
    (.running, min (96 / 100) (72 / 100 + motionIntensity * (15 / 10)))
  else if motionIntensity > 3 / 100 ∨ dx > 1 / 100 then
    (.walking, min (94 / 100) (68 / 100 + motionIntensity * 2))
  else if aspectRatio < 115 / 100 then (.sitting, 86 / 100)
  else if motionIntensity > 6 / 100 ∧ dx < 1 / 100 then (.waving, 82 / 100)
  else (.standing, 90 / 100)

/-- `(dx, dy)`, against the centre of the same index in the frame before. -/
def displacement (px : Pixels I) (image : I) (previous : Option (ℚ × ℚ)) (center : ℚ × ℚ) : ℚ × ℚ :=
  match previous with
  | none => (0, 0)
  | some p =>
    (|center.1 - p.1| / max 1 (px.width image), (center.2 - p.2) / max 1 (px.height image))

/-- The annotated object of a person. -/
structure ActionObject where
  actionType : ActionType
  score : ℚ
  bbox : BoundingBox
  motionIntensity : ℚ

/-- The action of a person, and its confidence. -/
def personAction (px : Pixels I) (motionIntensity : ℚ) (image : I) (previous : Option (ℚ × ℚ))
    (person : Person) : ActionType × ℚ :=
  let box := personBox px image person
  let moved := displacement px image previous box.center
  classify motionIntensity moved.1 moved.2 box.aspectRatio

/-- `final_conf`. -/
def finalConf (px : Pixels I) (motionIntensity : ℚ) (image : I) (previous : Option (ℚ × ℚ))
    (person : Person) : ℚ :=
  roundTo 2 ((personAction px motionIntensity image previous person).2 * (6 / 10) +
    person.score.getD (85 / 100) * (4 / 10))

/-- One turn of the loop over the persons. -/
def personObject (px : Pixels I) (minConfidence motionIntensity : ℚ) (image : I)
    (previous : Option (ℚ × ℚ)) (person : Person) : Option ActionObject :=
  let conf := finalConf px motionIntensity image previous person
  if conf ≥ minConfidence then
    some {
      actionType := (personAction px motionIntensity image previous person).1
      score := conf
      bbox := personBox px image person
      motionIntensity := roundTo 3 motionIntensity }
  else none

/-- The objects of a frame. -/
def frameObjects (px : Pixels I) (minConfidence motionIntensity : ℚ) (prevCenters : List (ℚ × ℚ))
    (frame : Frame I) : List ActionObject :=
  frame.persons.zipIdx.filterMap fun e =>
    personObject px minConfidence motionIntensity frame.image prevCenters[e.2]? e.1

/-- `curr_centers`. -/
def centers (px : Pixels I) (frame : Frame I) : List (ℚ × ℚ) :=
  frame.persons.map fun person => (personBox px frame.image person).center

/-- The loop over the frames, with the image before and its centres. -/
def analyzeFrames (px : Pixels I) (minConfidence : ℚ) :
    Option I → List (ℚ × ℚ) → List (Frame I) → List (List ActionObject)
  | _, _, [] => []
  | prevImage, prevCenters, frame :: rest =>
    let motionIntensity := prevImage.elim 0 fun image => px.motion image frame.image
    frameObjects px minConfidence motionIntensity prevCenters frame ::
      analyzeFrames px minConfidence (some frame.image) (centers px frame) rest

/-! ## Stretches of one action -/

/-- An entry of `action_seq`. -/
structure ActionEntry where
  actionType : ActionType
  score : ℚ
  ptsMs : Int

/-- An action of the engine. -/
structure Action where
  actionType : ActionType
  confidence : ℚ
  startMs : Int
  endMs : Int

/-- `action_seq`: the first object of each frame that has one. -/
def actionSeq (frames : List (Frame I)) (objects : List (List ActionObject)) : List ActionEntry :=
  (frames.zip objects).filterMap fun e =>
    e.2.head?.map fun primary => ⟨primary.actionType, primary.score, e.1.ptsMs⟩

/-- The stretch being read. -/
structure Stretch where
  currAction : ActionType
  currScores : List ℚ
  startPts : Int
  endPts : Int

/-- A stretch starts. -/
def Stretch.start (e : ActionEntry) : Stretch := ⟨e.actionType, [e.score], e.ptsMs, e.ptsMs⟩

/-- A stretch is over; its confidence is the rounded mean. -/
def Stretch.finish (s : Stretch) : Action where
  actionType := s.currAction
  confidence := roundTo 2 (s.currScores.sum / s.currScores.length)
  startMs := s.startPts
  endMs := s.endPts

/-- The loop over `action_seq[1:]`. -/
def stretches (s : Stretch) : List ActionEntry → List Action
  | [] => [s.finish]
  | e :: rest =>
    if e.actionType = s.currAction then
      stretches { s with currScores := s.currScores ++ [e.score], endPts := e.ptsMs } rest
    else s.finish :: stretches (.start e) rest

/-- The actions of a sequence. -/
def actionsOf : List ActionEntry → List Action
  | [] => []
  | e :: rest => stretches (.start e) rest

/-- An anomalous stretch. -/
structure Anomaly where
  segmentType : ActionType
  confidence : ℚ
  startMs : Int
  endMs : Int
  description : String

/-- The falls among the actions; no rule gives `fighting`. -/
def anomaliesOf (actions : List Action) : List Anomaly :=
  (actions.filter fun act => act.actionType = .falling).map fun act =>
    ⟨act.actionType, act.confidence, act.startMs, act.endMs, "检测到异常行为：" ++ act.actionType.label⟩

/-- `analyze_actions_and_objects`. -/
def analyzeActionsAndObjects (px : Pixels I) (frames : List (Frame I)) (minConfidence : ℚ) :
    List Action × List Anomaly × List (List ActionObject) :=
  let frameObjects := analyzeFrames px minConfidence none [] frames
  let actions := actionsOf (actionSeq frames frameObjects)
  (actions, anomaliesOf actions, frameObjects)

/-! ## The operator -/

/-- `BehaviorAction`. -/
structure BehaviorAction extends Action where
  actionId : String
  actionLabel : String

/-- `TemporalSegment`. -/
structure TemporalSegment extends Anomaly where
  segmentId : String

/-- The results so far: one list of objects for each unit. -/
structure Recognition where
  units : List (List ActionObject)
  actions : List BehaviorAction
  segments : List TemporalSegment

/-- Nothing is read yet. -/
def Recognition.empty : Recognition := ⟨[], [], []⟩

/-- The ids run on over the batches. -/
def numbered {α β : Type} (f : String → α → β) (stem : String) (start : Nat) (xs : List α) :
    List β :=
  xs.zipIdx.map fun e => f (stem ++ toString (start + e.2 + 1)) e.1

/-- One batch of `execute`. -/
def recognizeBatch (px : Pixels I) (minConfidence : ℚ) (enableAnomalyDetection : Bool)
    (r : Recognition) (chunk : List (Frame I)) : Recognition :=
  let found := analyzeActionsAndObjects px chunk minConfidence
  { units := r.units ++ found.2.2
    actions := r.actions ++ numbered (fun id act =>
      { act with actionId := id, actionLabel := act.actionType.label }) "action_"
        r.actions.length found.1
    segments :=
      if enableAnomalyDetection then
        r.segments ++ numbered (fun id anomaly => { anomaly with segmentId := id }) "segment_"
          r.segments.length found.2.1
      else r.segments }

/-- The loop over the batches. -/
def recognize (px : Pixels I) (minConfidence : ℚ) (enableAnomalyDetection : Bool)
    (batches : List (List (Frame I))) : Recognition :=
  batches.foldl (recognizeBatch px minConfidence enableAnomalyDetection) .empty

/-- The media that the operator accepts. -/
inductive MediaKind where
  | video
  | stream
  deriving DecidableEq

/-- `batch_size`. -/
def MediaKind.batchSize : MediaKind → Nat
  | .stream => 1
  | .video => 4

/-- `execute`. -/
def execute (px : Pixels I) (minConfidence : ℚ) (enableAnomalyDetection : Bool) (kind : MediaKind)
    (frames : List (Frame I)) : Recognition :=
  recognize px minConfidence enableAnomalyDetection (slices kind.batchSize frames)

/-! ## What the batches should not decide -/

/-- Type, score and box of an object. -/
def ActionObject.seen (o : ActionObject) :
    ActionType × ℚ × BoundingBox := (o.actionType, o.score, o.bbox)

/-- The objects of each frame. -/
def Recognition.seen (r : Recognition) : List (List (ActionType × ℚ × BoundingBox)) :=
  r.units.map fun objects => objects.map ActionObject.seen

/-- The time of an action. -/
def Action.span (act : Action) : Span ActionType Int := ⟨act.actionType, act.startMs, act.endMs⟩

/-- The reported actions, with neighbours of one type joined. -/
def Recognition.joined (r : Recognition) : List (Span ActionType Int) :=
  join (r.actions.map fun act => act.toAction.span)

/-- The same objects in each frame, and the same joined actions. -/
def Recognition.Agrees (r r' : Recognition) : Prop := r.seen = r'.seen ∧ r.joined = r'.joined

end Scenara.Behavior
