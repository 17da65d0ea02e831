import Scenara.Core.Greatest

/-!
# Non-maximum suppression

Model of `nms` (`app/geometry.py`). Arrays are functions of the index, floats exact rationals.
-/

namespace Scenara.Detection

open Scenara.Core

/-- A row of `boxes`. -/
structure Box where
  x1 : ℚ
  y1 : ℚ
  x2 : ℚ
  y2 : ℚ

/-- The area of a box; one that is turned inside out has none. -/
def Box.area (b : Box) : ℚ := max 0 (b.x2 - b.x1) * max 0 (b.y2 - b.y1)

/-- `iou`, of two boxes. -/
def iou (current rest : Box) : ℚ :=
  let intersection :=
    max 0 (min current.x2 rest.x2 - max current.x1 rest.x1) *
      max 0 (min current.y2 rest.y2 - max current.y1 rest.y1)
  intersection / max (current.area + rest.area - intersection) (1 / 10000000)

variable {n : ℕ} (boxes : Fin n → Box) (threshold : ℚ) {scores : Fin n → ℚ}

/-- `scores.argsort()`: equal scores may come in any order. -/
structure Argsort (scores : Fin n → ℚ) where
  order : List (Fin n)
  perm : order.Perm (List.finRange n)
  sorted : order.Pairwise fun i j => scores i ≤ scores j

/-- The place of an index in `scores.argsort()[::-1]`. -/
def Argsort.rank (argsort : Argsort scores) (i : Fin n) : ℕ := argsort.order.reverse.idxOf i

/-- `rest[iou <= iou_threshold]`. -/
def passed (current : Fin n) (rest : List (Fin n)) : List (Fin n) :=
  rest.filter fun i => iou (boxes current) (boxes i) ≤ threshold

/-- `while order.size > 0: …`. After the last index nothing is left, without the `break` too. -/
def suppress : List (Fin n) → List (Fin n)
  | [] => []
  | current :: rest => current :: suppress (passed boxes threshold current rest)
termination_by order => order.length
decreasing_by exact Nat.lt_succ_of_le (List.length_filter_le _ _)

/-- `nms`. -/
def nms (argsort : Argsort scores) : List (Fin n) := suppress boxes threshold argsort.order.reverse

theorem selects_suppress (rank : Fin n → ℕ) {order : List (Fin n)}
    (h : order.Pairwise fun i j => rank i < rank j) :
    Selects rank (fun i j => threshold < iou (boxes i) (boxes j)) order
      (suppress boxes threshold order) := by
  induction order using suppress.induct boxes threshold with
  | case1 => simpa [suppress] using Selects.nil
  | case2 current rest ih =>
    obtain ⟨hfirst, hrest⟩ := List.pairwise_cons.1 h
    rw [suppress]
    exact .cons hfirst (by simp [passed]) (ih (hrest.filter _))

/-- **Non-maximum suppression** is the greedy selection, by falling score, of boxes no two of which
overlap by more than the threshold. -/
theorem nms_iff (argsort : Argsort scores) :
    (∀ i j, argsort.rank i < argsort.rank j → scores j ≤ scores i) ∧ ∀ keep,
      nms boxes threshold argsort = keep ↔
        Selects argsort.rank (fun i j => threshold < iou (boxes i) (boxes j)) (List.finRange n)
          keep := by
  have hperm := (List.reverse_perm _).trans argsort.perm
  have hnodup := hperm.nodup_iff.2 (List.nodup_finRange n)
  have hmem (i : Fin n) : i ∈ argsort.order.reverse := hperm.mem_iff.2 (List.mem_finRange i)
  have hrank : argsort.order.reverse.Pairwise fun i j => argsort.rank i < argsort.rank j := by
    rw [List.pairwise_iff_getElem]
    intro i j hi hj hij
    unfold Argsort.rank
    rwa [hnodup.idxOf_getElem, hnodup.idxOf_getElem]
  have hnms := selects_suppress boxes threshold argsort.rank hrank
  refine ⟨fun i j h => ?_, fun keep => ?_⟩
  · have hj := List.idxOf_lt_length_iff.2 (hmem j)
    simpa [Argsort.rank] using
      List.pairwise_iff_getElem.1 (List.pairwise_reverse.2 argsort.sorted) _ _ (h.trans hj) hj h
  · have hall : Selects argsort.rank _ (List.finRange n) (nms boxes threshold argsort) :=
      ⟨fun i _ => List.mem_finRange i, hnms.ordered, hnms.apart, fun j _ => hnms.covered j (hmem j)⟩
    exact ⟨fun h => h ▸ hall, hall.unique⟩

/-- Two boxes in one place, and one apart. -/
def twoAndOne : Fin 3 → Box
  | 2 => ⟨5, 5, 6, 6⟩
  | _ => ⟨0, 0, 2, 2⟩

/-- The two have the same score. -/
def tied : Fin 3 → ℚ
  | 2 => 1 / 2
  | _ => 9 / 10

/-- One order of the tied scores. -/
def firstBelow : Argsort tied := ⟨[2, 0, 1], by decide, by decide +kernel⟩

/-- The other one. -/
def firstAbove : Argsort tied := ⟨[2, 1, 0], by decide, by decide +kernel⟩

/-- **A tie**: of the two boxes the one that the sort put later is kept. -/
theorem nms_tied : nms twoAndOne (1 / 2) firstBelow = [1, 2] ∧
    nms twoAndOne (1 / 2) firstAbove = [0, 2] :=
  ⟨((nms_iff twoAndOne (1 / 2) firstBelow).2 _).2 ⟨by decide, by decide +kernel, by decide +kernel,
      by decide +kernel⟩,
    ((nms_iff twoAndOne (1 / 2) firstAbove).2 _).2 ⟨by decide, by decide +kernel, by decide +kernel,
      by decide +kernel⟩⟩

end Scenara.Detection
