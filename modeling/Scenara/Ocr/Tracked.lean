import Mathlib.Data.List.TakeWhile
import Scenara.Ocr.Model

/-!
# Repeated texts of a video

* `sightings`: the times and scores of a text, in order; `groups`: split where neighbours are more
  than four seconds apart.
-/

namespace Scenara.Ocr

open Scenara.Core
open Index (isSpace blank)

variable {seconds : Seconds} {text : String}

/-! ## Sightings -/

/-- A block of a video, by its time. -/
structure Sighting where
  ptsMs : Int
  text : String
  score : Option Score

/-- The blocks of the frames, in order. -/
def allSightings (frames : List (Int × List OcrTextBlock)) : List Sighting :=
  frames.flatMap fun frame => frame.2.map fun block => ⟨frame.1, block.text, block.score⟩

/-- The blocks with a text. -/
def sightings (frames : List (Int × List OcrTextBlock)) (text : String) : List Sighting :=
  (allSightings frames).filter fun s => s.text = text

/-- Two sightings are at most four seconds apart. -/
def close (a b : Sighting) : Bool := b.ptsMs - a.ptsMs ≤ 4000

/-- The sightings of a text, split where neighbours are further apart. -/
def groups (frames : List (Int × List OcrTextBlock)) (text : String) : List (List Sighting) :=
  (sightings frames text).splitBy close

/-- The entry is that of the group. -/
structure EntryOf (text : String) (group : List Sighting) (track : Track) : Prop where
  text : track.text = text
  first : track.firstPtsMs = group.head?.map Sighting.ptsMs
  last : track.lastPtsMs = group.getLast?.map Sighting.ptsMs
  page : track.lastPage = none
  occurrences : track.occurrences = group.length
  score : IsGreatest {x | ∃ s ∈ group, x = orZero s.score} track.score

/-! ## One more block -/

theorem orZero_nonneg (score : Option Score) : 0 ≤ orZero score := by
  cases score with
  | none => exact le_refl _
  | some s => exact s.mem.1

variable {track : Track}

theorem extend_score {unit : MediaUnit} {score : Option Score}
    (h : 0 ≤ track.score) : (track.extend unit score).score = max track.score (orZero score) := by
  cases score with
  | none => exact (max_eq_left h).symm
  | some s =>
    show (if s.value ≠ 0 ∧ s.value > track.score then s.value else track.score) =
        max track.score s.value
    split
    · next hs => exact (max_eq_right hs.2.le).symm
    · next hs =>
      refine (max_eq_left ?_).symm
      by_contra hlt
      refine hs ⟨?_, not_le.1 hlt⟩
      intro hzero
      exact hlt (hzero ▸ h)

theorem EntryOf.extend {group : List Sighting} {s : Sighting} (hne : group ≠ [])
    (h : EntryOf text group track) :
    EntryOf text (group ++ [s]) (track.extend (videoUnit s.ptsMs []) s.score) where
  text := h.text
  first := by
    rw [List.head?_append_of_ne_nil _ hne]
    exact h.first
  last := by
    rw [List.getLast?_append, List.getLast?_singleton]
    rfl
  page := rfl
  occurrences := by
    rw [List.length_append, ← h.occurrences]
    rfl
  score := by
    obtain ⟨⟨t, ht, hmax⟩, hupper⟩ := h.score
    have hnonneg : 0 ≤ track.score := hmax ▸ orZero_nonneg t.score
    rw [extend_score hnonneg]
    constructor
    · rcases max_choice track.score (orZero s.score) with hleft | hright
      · exact ⟨t, List.mem_append_left _ ht, by rw [hleft, hmax]⟩
      · exact ⟨s, List.mem_append_right _ List.mem_cons_self, hright⟩
    · rintro x ⟨u, hu, rfl⟩
      rcases List.mem_append.1 hu with hu | hu
      · exact le_max_of_le_left (hupper ⟨u, hu, rfl⟩)
      · rw [List.mem_singleton.1 hu]
        exact le_max_right _ _

/-! ## What a block does to the tracks of a text -/

variable {seen : List Sighting} {tracks : List Track} {s : Sighting}

end Scenara.Ocr
