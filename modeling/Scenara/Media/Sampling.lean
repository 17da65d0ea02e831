import Scenara.Tracking.Model

/-!
# Sampling a video

Model of `_decode_video` and `_estimated_sample_count` (`platform/media_batch.py`) for a file.

Floats are exact rationals. A stream, which has no seek, and the pixels of an image are left out.
-/

namespace Scenara.Media.Sampling

open Tracking (roundHalfEven roundTo)

/-! ## The plan -/

/-- `SampleStrategy`. -/
inductive SampleStrategy where
  | interval | uniform | keyframe | sceneChange
  deriving DecidableEq

/-- `SamplePlan`. -/
structure SamplePlan where
  strategy : SampleStrategy
  sampleIntervalMs : Int
  startMs : Int
  endMs : Option Int
  sceneChangeThreshold : ℚ
  frameMaxEdge : Option Int

/-- `SamplePlan.validate`; a stream's fields are left out. -/
def SamplePlan.validate (plan : SamplePlan) : Except String Unit := do
  if ¬(1 ≤ plan.sampleIntervalMs ∧ plan.sampleIntervalMs ≤ 3600000) then
    throw "sample_interval_ms is outside the supported range"
  if plan.startMs < 0 then throw "sample_start_ms must not be negative"
  if plan.endMs.any (· < 0) then throw "sample_end_ms must not be negative"
  if plan.endMs.any (· ≤ plan.startMs) then
    throw "sample_end_ms must be greater than sample_start_ms"
  if ¬(0 < plan.sceneChangeThreshold ∧ plan.sceneChangeThreshold ≤ 1) then
    throw "scene_change_threshold must be between 0 and 1"
  if plan.frameMaxEdge.any fun edge => ¬(64 ≤ edge ∧ edge ≤ 8192) then
    throw "frame_max_edge must be between 64 and 8192"

/-! ## The capture -/

/-- A frame. -/
structure Frame (S : Type) where
  /-- `CAP_PROP_PTS`; 0 if there is none. -/
  pts : ℚ
  /-- `CAP_PROP_POS_MSEC`, as an integer; 0 if there is none. -/
  posMsec : Int
  /-- `CAP_PROP_POS_FRAMES`, as an integer; 0 if there is none. -/
  posFrames : Int
  isKeyframe : Option Bool
  signature : S
  width : Nat
  height : Nat

/-- What a `cv2.VideoCapture` does. -/
structure Capture (S : Type) where
  /-- `CAP_PROP_FPS`. -/
  fps : ℚ
  /-- `CAP_PROP_FRAME_COUNT`. -/
  frameCount : Int
  /-- What `capture.set(CAP_PROP_POS_MSEC, …)` returns. -/
  seekAccepted : Bool
  /-- What is read, after the seek if there is one. -/
  frames : List (Frame S)

namespace Capture

variable {S : Type} (capture : Capture S)

/-- `metadata["fps"]`, or 25. -/
def effectiveFps : ℚ :=
  if 1 / 10 ≤ capture.fps ∧ capture.fps ≤ 240 then roundTo 6 capture.fps else 25

/-- `metadata["frame_count"]`, or 0. -/
def knownFrames : Int := max 0 capture.frameCount

/-- `metadata["duration_ms"]`, or 0. -/
def durationMs : Int :=
  if 0 < capture.frameCount ∧ 0 < capture.fps then max 0 ⌊capture.frameCount / capture.fps * 1000⌋
    else 0

end Capture

/-- `_capture_position_ms`. -/
def capturePositionMs {S : Type} (fps : ℚ) (frame : Frame S) : Int :=
  if 0 < fps ∧ 0 < frame.pts then max 0 (roundHalfEven (frame.pts * 1000 / fps))
  else max 0 frame.posMsec

/-- `_capture_frame_number`. -/
def captureFrameNumber {S : Type} (frame : Frame S) (fallback : Int) : Int :=
  if 0 < frame.posFrames then max 0 (frame.posFrames - 1) else fallback

/-- `_estimated_sample_count`. -/
def estimatedSampleCount (plan : SamplePlan) (frameCount durationMs : Int) (fps : ℚ) : Option Int :=
  if plan.strategy = .keyframe ∨ plan.strategy = .sceneChange then none
  else if plan.strategy = .uniform ∧ 0 < frameCount then
    let windowStart := min (frameCount - 1) (max 0 (roundHalfEven (plan.startMs / 1000 * fps)))
    let windowEnd := match plan.endMs with
      | none => frameCount
      | some endMs => min frameCount (roundHalfEven (endMs / 1000 * fps))
    some (max 1 (windowEnd - windowStart))
  else if 0 < durationMs then
    let windowEndMs := match plan.endMs with
      | none => durationMs
      | some endMs => min durationMs endMs
    let windowMs := max 0 (windowEndMs - plan.startMs)
    some (max 1 (windowMs / plan.sampleIntervalMs + 1))
  else none

/-! ## The loop -/

section Loop

variable {S : Type} (distance : S → S → ℚ) (plan : SamplePlan) (fps : ℚ)
    (seekUsed previewOnly : Bool)

/-- What the selection of frames goes by. -/
structure Selection (S : Type) where
  /-- `frame_index`, the number of frames read. -/
  frameIndex : Nat
  previousSignature : Option S
  nextIntervalMs : Int
  keyframeCount : Nat
  sceneChangeCount : Nat

/-- `while next_interval_ms <= elapsed_ms: next_interval_ms += plan.sample_interval_ms`, in as many
turns as there may be. -/
def advance (interval elapsed : Int) : Nat → Int → Int
  | 0, next => next
  | fuel + 1, next => if next ≤ elapsed then advance interval elapsed fuel (next + interval)
      else next

/-- Why the loop ends. -/
inductive Ending where
  | sourceEnded
  | sampleWindowCompleted
  | previewCompleted
  | raised (message : String)
  deriving DecidableEq

/-- What becomes of a frame. -/
inductive Choice (S : Type) where
  | skip (selection : Selection S)
  | take (selection : Selection S)
  | stop (selection : Selection S) (ending : Ending)

/-- `MAX_PIXELS`. -/
def maxPixels : Nat := 80000000

/-- The frame may be decoded. -/
def Frame.Safe (frame : Frame S) : Prop :=
  0 < frame.width ∧ 0 < frame.height ∧ frame.width * frame.height ≤ maxPixels
  deriving Decidable

/-- A selected frame is taken if it may be decoded. -/
def Selection.taking (selection : Selection S) (frame : Frame S) : Choice S :=
  if frame.Safe then .take selection
  else .stop selection (.raised "video frame dimensions exceed the safety limit")

/-- The rule of the strategy. -/
def select (selection : Selection S) (frame : Frame S) (elapsedMs : Int) : Choice S :=
  match plan.strategy with
  | .keyframe =>
    match frame.isKeyframe with
    | none => .stop selection
        (.raised "video backend does not expose decoded frame types for keyframe sampling")
    | some false => .skip selection
    | some true => { selection with keyframeCount := selection.keyframeCount + 1 }.taking frame
  | .sceneChange =>
    match selection.previousSignature with
    | none => { selection with previousSignature := some frame.signature }.taking frame
    | some previous =>
      if plan.sceneChangeThreshold ≤ distance previous frame.signature then
        { selection with
          previousSignature := some frame.signature
          sceneChangeCount := selection.sceneChangeCount + 1 }.taking frame
      else .skip selection
  | .uniform => if (selection.frameIndex - 1) % 1 = 0 then selection.taking frame
      else .skip selection
  | .interval =>
    if selection.nextIntervalMs ≤ elapsedMs then
      { selection with
        nextIntervalMs := advance plan.sampleIntervalMs elapsedMs
          (elapsedMs + 1 - selection.nextIntervalMs).toNat selection.nextIntervalMs }.taking frame
    else .skip selection

/-- A turn of the loop. -/
def choice (selection : Selection S) (frame : Frame S) : Choice S :=
  let selection := { selection with frameIndex := selection.frameIndex + 1 }
  let elapsedMs := capturePositionMs fps frame
  if ¬seekUsed ∧ 0 < plan.startMs ∧ elapsedMs < plan.startMs then .skip selection
  else if plan.endMs.any (· < elapsedMs) then .stop selection .sampleWindowCompleted
  else select distance plan selection frame elapsedMs

/-- `DecodedMediaUnit`, of a frame. -/
structure DecodedMediaUnit where
  unitId : String
  index : Nat
  ptsMs : Int
  deriving DecidableEq

/-- What was put out. -/
structure Output where
  sampledUnits : Nat
  lastOutputPtsMs : Int
  emitted : List DecodedMediaUnit

/-- The `frame_number` of a frame read as the `frameIndex`-th, and its position. -/
structure Taken where
  frameNumber : Int
  positionMs : Int

/-- A unit is put out. -/
def Output.emit (out : Output) (taken : Taken) : Output :=
  let outputPtsMs := max taken.positionMs (out.lastOutputPtsMs + 1)
  { sampledUnits := out.sampledUnits + 1
    lastOutputPtsMs := outputPtsMs
    emitted := out.emitted ++ [⟨"frame_" ++ toString taken.frameNumber, out.sampledUnits,
      outputPtsMs⟩] }

/-- The frame as it is taken. -/
def Frame.taken (fps : ℚ) (frame : Frame S) (frameIndex : Nat) : Taken :=
  ⟨captureFrameNumber frame (frameIndex - 1), capturePositionMs fps frame⟩

/-- How the loop ended. -/
structure Finished (S : Type) where
  selection : Selection S
  output : Output
  ending : Ending

/-- The loop. -/
def loop : Selection S → Output → List (Frame S) → Finished S
  | selection, out, [] => ⟨selection, out, .sourceEnded⟩
  | selection, out, frame :: frames =>
    match choice distance plan fps seekUsed selection frame with
    | .skip selection => loop selection out frames
    | .stop selection ending => ⟨selection, out, ending⟩
    | .take selection =>
      let out := out.emit (frame.taken fps selection.frameIndex)
      if previewOnly then ⟨selection, out, .previewCompleted⟩ else loop selection out frames

/-- Before the first frame. -/
def Selection.initial (plan : SamplePlan) : Selection S := ⟨0, none, plan.startMs, 0, 0⟩

/-- Nothing is put out. -/
def Output.initial : Output := ⟨0, -1, []⟩

end Loop

/-- What is returned of a video. -/
structure Metadata where
  sampledUnits : Nat
  framesRead : Nat
  keyframeCount : Option Nat
  sceneChangeCount : Option Nat
  durationMs : Option Int
  decodeSeekUsed : Bool
  terminationReason : Ending

/-- What is passed to `unit_callback`, and what is returned. -/
structure Decoded where
  emitted : List DecodedMediaUnit
  /-- The `estimated_units` passed along. -/
  estimatedUnits : Option Int
  result : Except String Metadata

section Decode

variable {S : Type} (distance : S → S → ℚ) (plan : SamplePlan) (capture : Capture S)
    (previewOnly : Bool)

/-- `seek_used`. -/
def seekUsed : Bool := 0 < plan.startMs && capture.seekAccepted

/-- The loop over the frames of a file. -/
def sampled : Finished S :=
  loop distance plan capture.effectiveFps (seekUsed plan capture) previewOnly (.initial plan)
    .initial capture.frames

/-- What a loop that ended returns. -/
def finish (finished : Finished S) : Except String Metadata :=
  match finished.ending with
  | .raised message => .error message
  | ending =>
    if finished.output.sampledUnits = 0 then
      .error "video or stream did not yield a decodable frame"
    else .ok
      { sampledUnits := finished.output.sampledUnits
        framesRead := finished.selection.frameIndex
        keyframeCount := if plan.strategy = .keyframe then some finished.selection.keyframeCount
          else none
        sceneChangeCount :=
          if plan.strategy = .sceneChange then some finished.selection.sceneChangeCount else none
        durationMs :=
          if 0 < capture.durationMs then some capture.durationMs
          else some finished.output.lastOutputPtsMs
        decodeSeekUsed := seekUsed plan capture
        terminationReason := ending }

/-- `_decode_video` of a file that could be opened. -/
def decodeVideo : Decoded :=
  match plan.validate with
  | .error message => ⟨[], none, .error message⟩
  | .ok () =>
    let finished := sampled distance plan capture previewOnly
    { emitted := finished.output.emitted
      estimatedUnits :=
        estimatedSampleCount plan capture.knownFrames capture.durationMs capture.effectiveFps
      result := finish plan capture finished }

end Decode

end Scenara.Media.Sampling
