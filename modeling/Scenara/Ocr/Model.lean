import Scenara.Core.Sessions
import Scenara.Index.Model

/-!
# Text of a document or a video

Model of the texts in `OcrDocumentOperator.execute` (`domains/ocr/operators.py`): the tracking of
repeated texts, and the aggregate text of `build_result`.

Recognition, layout, slides and crops come before or beside and are left out.
-/

namespace Scenara.Ocr

open Scenara.Core
open Index (isSpace blank)

/-! ## Units -/

/-- `OcrTextBlock.score`. -/
structure Score where
  value : ℚ
  mem : 0 ≤ value ∧ value ≤ 1

/-- `OcrTextBlock`, as far as texts go. -/
structure OcrTextBlock where
  blockId : String
  text : String
  score : Option Score

/-- A unit with its recognised blocks. -/
structure MediaUnit where
  ptsMs : Option Int
  pageNumber : Option Nat
  blocks : List OcrTextBlock

/-- A frame of a video. -/
def videoUnit (ptsMs : Int) (blocks : List OcrTextBlock) : MediaUnit := ⟨some ptsMs, none, blocks⟩

/-! ## Tracked texts -/

/-- A tracked text. -/
structure Track where
  text : String
  firstPtsMs : Option Int
  lastPtsMs : Option Int
  firstPage : Option Nat
  lastPage : Option Nat
  score : ℚ
  occurrences : Nat

/-- `score or 0.0`. -/
def orZero (score : Option Score) : ℚ := (score.map Score.value).getD 0

/-- The track with one more occurrence. -/
def Track.extend (unit : MediaUnit) (score : Option Score) (track : Track) : Track :=
  { track with
    lastPtsMs := unit.ptsMs
    lastPage := unit.pageNumber
    occurrences := track.occurrences + 1
    score := match score with
      | some s => if s.value ≠ 0 ∧ s.value > track.score then s.value else track.score
      | none => track.score }

/-- A new track. -/
def Track.start (unit : MediaUnit) (text : String) (score : Option Score) : Track where
  text := text
  firstPtsMs := unit.ptsMs
  lastPtsMs := unit.ptsMs
  firstPage := unit.pageNumber
  lastPage := unit.pageNumber
  score := orZero score
  occurrences := 1

/-- `text.strip()`. -/
def strip (text : String) : String :=
  String.ofList (((text.toList.dropWhile isSpace).reverse.dropWhile isSpace).reverse)

/-- `"\n".join(lines)`. -/
def joinLines (lines : List String) : String := "\n".intercalate lines

variable (seconds : Seconds)

/-- `"\n".join(block.text for block in blocks if block.text)`. -/
def blockTexts (blocks : List OcrTextBlock) : String :=
  joinLines ((blocks.map OcrTextBlock.text).filter (· ≠ ""))

end Scenara.Ocr
