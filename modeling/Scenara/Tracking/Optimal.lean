import Scenara.Core.Transition
import Scenara.Tracking.Agreement

/-!
# The Hungarian method, on its own

`hungarian_assignment_pairs` for any table of scores that are not negative.

Its loops end: in the first one every turn adds a column to the tree, in the second one every step
goes up the tree.
-/

namespace Scenara.Tracking

open Scenara.Core

variable {cost : Nat → Nat → ℚ} {size row : Nat} {m : Nat → Nat} {t : Search} {details : Details}
  {trackCount detectionCount : Nat}

/-! ## The loops -/

/-- The first `while` loop: it ends at a free column. -/
def searchLoop (cost : Nat → Nat → ℚ) (size : Nat) (matching : Nat → Nat) (fuel : Nat)
    (t : Search) : Option Search :=
  doWhile (advance cost size matching) (fun t => matching t.column = 0) fuel t

/-- One turn of the second `while` loop, on `matching` and `column`. -/
def augmentTurn (predecessor : Nat → Nat) (s : (Nat → Nat) × Nat) : (Nat → Nat) × Nat :=
  (Function.update s.1 s.2 (s.1 (predecessor s.2)), predecessor s.2)

/-- The second `while` loop. -/
def augmentLoop (predecessor : Nat → Nat) (fuel : Nat) (matching : Nat → Nat) (column : Nat) :
    Option (Nat → Nat) :=
  (doWhile (augmentTurn predecessor) (fun s => s.2 = 0) fuel (matching, column)).map Prod.fst

/-- One turn of the loop over the rows. -/
def assignRowLoop (fuel : Nat) (cost : Nat → Nat → ℚ) (size : Nat) (h : Duals) (row : Nat) :
    Option Duals := do
  let matching := Function.update h.matching 0 row
  let t ← searchLoop cost size matching fuel
    ⟨h.u, h.v, h.predecessor, fun _ => ⊤, fun _ => false, 0⟩
  let matching ← augmentLoop t.predecessor fuel matching t.column
  return ⟨t.u, t.v, matching, t.predecessor⟩

/-- The loop over the rows; `none` when a `while` loop takes more than `fuel` turns. -/
def assignRowsLoop (fuel : Nat) (cost : Nat → Nat → ℚ) (size : Nat) : Option Duals :=
  (columns size).foldlM (assignRowLoop fuel cost size) ⟨fun _ => 0, fun _ => 0, fun _ => 0,
    fun _ => 0⟩

/-! ## They end -/

theorem search_of_loop {fuel : Nat} {t' : Search} (h : searchLoop cost size m fuel t = some t') :
    search cost size m fuel t = t' := by
  unfold searchLoop at h
  induction fuel generalizing t with
  | zero => cases h
  | succ _ ih =>
    rw [doWhile_succ] at h
    unfold search
    by_cases hfree : m (advance cost size m t).column = 0
    · rw [if_pos (decide_eq_true hfree)] at h
      rw [if_pos hfree]
      exact Option.some_inj.1 h
    · rw [if_neg (by simpa using hfree)] at h
      rw [if_neg hfree]
      exact ih h

theorem augment_of_loop {predecessor : Nat → Nat} {fuel : Nat} {w w' : Nat → Nat} {c : Nat}
    (h : augmentLoop predecessor fuel w c = some w') : augment predecessor fuel w c = w' := by
  unfold augmentLoop at h
  induction fuel generalizing w c with
  | zero => cases h
  | succ _ ih =>
    rw [doWhile_succ] at h
    unfold augment
    by_cases hroot : predecessor c = 0
    · rw [if_pos (show decide ((augmentTurn predecessor (w, c)).2 = 0) = true from
        decide_eq_true hroot)] at h
      rw [if_pos hroot]
      exact Option.some_inj.1 h
    · rw [if_neg (show ¬decide ((augmentTurn predecessor (w, c)).2 = 0) = true from
        fun h => hroot (of_decide_eq_true h))] at h
      rw [if_neg hroot]
      exact ih h

theorem searchLoop_ends (hm : Complete size row m) (h0 : m 0 = row + 1) (hsize : row < size)
    (h : Growing cost size row m t) (hcol : m t.column ≠ 0) :
    ∃ t', searchLoop cost size m (size + 1) t = some t' := by
  obtain ⟨t', hloop, -⟩ := doWhile_of_variant (advance cost size m) (fun t => m t.column = 0)
    (I := fun t => Growing cost size row m t ∧ m t.column ≠ 0)
      (fun t => size - (inTree size t).card)
    (fun t ht hdone => by
      obtain ⟨h, hcol⟩ := ht
      obtain ⟨_, hturn⟩ := advance_turn hm h0 hsize h hcol
      have hgrown := growing_turn hturn hm h0 h hcol
      have hcard := hturn.inTree_card h
      have hlt := hgrown.inTree_lt
      exact ⟨⟨hgrown, of_decide_eq_false hdone⟩, by omega⟩)
    ⟨h, hcol⟩ (Nat.lt_succ_of_le (Nat.sub_le size _))
  exact ⟨t', hloop⟩

theorem augmentLoop_ends {depth : Nat → Nat} (h : Reached cost size m t depth) (w : Nat → Nat) :
    ∃ w', augmentLoop t.predecessor (size + 1) w t.column = some w' := by
  obtain ⟨s, hloop, -⟩ := doWhile_of_variant (augmentTurn t.predecessor) (fun s => s.2 = 0)
    (I := fun s => s.2 ∈ columns size ∧ OnPath t s.2) (fun s => depth s.2)
    (fun s hs hdone => by
      obtain ⟨hpath, hlt, -⟩ := h.edge s.2 hs.1 hs.2
      exact ⟨⟨(h.within _ hpath).resolve_left (of_decide_eq_false hdone), hpath⟩, hlt⟩)
    (s := (w, t.column)) ⟨h.column, .inr rfl⟩ (Nat.lt_succ_of_le h.depth_le)
  exact ⟨s.1, by unfold augmentLoop; rw [hloop]; rfl⟩

theorem assignRowLoop_eq {h : Duals} (hsize : row < size) (ha : Assigned cost size row h)
    {fuel : Nat} (hfuel : size < fuel) :
    assignRowLoop fuel cost size h (row + 1) = some (assignRow cost size h (row + 1)) := by
  have hcolumns := root_columns size h.matching (row + 1)
  have hm : Complete size row (Function.update h.matching 0 (row + 1)) := ha.complete.congr hcolumns
  have h0 : Function.update h.matching 0 (row + 1) 0 = row + 1 := Function.update_self ..
  have hcol : Function.update h.matching 0 (row + 1) 0 ≠ 0 := by
    exact Nat.succ_ne_zero row
  obtain ⟨t, ht⟩ := searchLoop_ends hm h0 hsize (ha.growing hcolumns) hcol
  obtain ⟨hgrown, hfree⟩ := search_grown hm h0 hsize (size + 1) (ha.growing hcolumns) hcol
    (Nat.le_add_left _ _)
  rw [search_of_loop ht] at hgrown hfree
  obtain ⟨_, hpath⟩ := hgrown.reached h0 hfree
  obtain ⟨w, hw⟩ := augmentLoop_ends hpath (Function.update h.matching 0 (row + 1))
  have ht' : searchLoop cost size (Function.update h.matching 0 (row + 1)) fuel
      ⟨h.u, h.v, h.predecessor, fun _ => ⊤, fun _ => false, 0⟩ = some t := doWhile_mono hfuel ht
  have hw' : augmentLoop t.predecessor fuel (Function.update h.matching 0 (row + 1)) t.column =
      some w := by
    unfold augmentLoop at hw ⊢
    obtain ⟨s, hs, hsw⟩ := Option.map_eq_some_iff.1 hw
    rw [doWhile_mono hfuel hs, Option.map_some, hsw]
  unfold assignRowLoop assignRow
  simp [ht', hw', search_of_loop ht, augment_of_loop hw]

theorem assignRowsLoop_eq (cost : Nat → Nat → ℚ) {fuel : Nat} (hfuel : size < fuel) :
    assignRowsLoop fuel cost size = some (assignRows cost size) := by
  have hrows : ∀ k ≤ size, (columns k).foldlM (assignRowLoop fuel cost size)
      ⟨fun _ => 0, fun _ => 0, fun _ => 0, fun _ => 0⟩ =
        some ((columns k).foldl (assignRow cost size)
        ⟨fun _ => 0, fun _ => 0, fun _ => 0, fun _ => 0⟩) := by
    intro k _
    induction k with
    | zero => rfl
    | succ k ih =>
      rw [columns_succ, List.foldlM_append, ih (by omega), List.foldl_append]
      simp only [Option.bind_eq_bind, Option.bind_some, List.foldlM_cons, List.foldlM_nil,
        List.foldl_cons, List.foldl_nil]
      rw [assignRowLoop_eq (by omega) (assigned_columns cost (by omega)) hfuel]
      rfl
  exact hrows size le_rfl

/-! ## The pairs -/

/-- Earlier in Python's order. -/
def PairLt (p q : Pair) : Prop := p.1 < q.1 ∨ p.1 = q.1 ∧ p.2 < q.2

theorem sorted_hungarianAssignmentPairs (hnodup : (hungarianAssignmentPairs details trackCount
    detectionCount).Nodup) :
    (hungarianAssignmentPairs details trackCount detectionCount).Pairwise PairLt := by
  have : Std.Total PairLe := ⟨fun p q => by
    unfold PairLe
    omega⟩
  have : IsTrans Pair PairLe := ⟨fun p q r => by
    unfold PairLe
    omega⟩
  have hsorted : (hungarianAssignmentPairs details trackCount detectionCount).Pairwise PairLe := by
    exact List.pairwise_insertionSort PairLe _
  refine (hsorted.and hnodup).imp fun {p q} hpq => ?_
  obtain ⟨hle, hne⟩ := hpq
  rcases hle with hlt | ⟨heq, hle⟩
  · exact .inl hlt
  · exact .inr ⟨heq, hle.lt_of_ne fun h => hne (Prod.ext heq h)⟩

theorem sum_score_succ (P : List Pair) :
    (P.map fun p => pairScore details p + 1).sum = total details P + P.length := by
  unfold total
  induction P with
  | nil => simp
  | cons p P ih =>
    simp only [List.map_cons, List.sum_cons, ih, List.length_cons]
    push_cast
    ring

/-- **The Hungarian method solves the assignment.** Its loops end; the pairs are sorted, pairs of
the table, one for each track and each detection at most; and no such pairs have a larger sum of the
scores, one added for each pair. -/
theorem hungarian_solves (details : Details) (trackCount detectionCount : Nat)
    (hrange : InRange details trackCount detectionCount)
    (hnonneg : ∀ p a, details.get? p = some a → 0 ≤ a.score) :
    (∀ fuel, max trackCount detectionCount < fuel →
        assignRowsLoop fuel (Tracking.cost details) (max trackCount detectionCount) =
          some (assignRows (Tracking.cost details) (max trackCount detectionCount))) ∧
      (hungarianAssignmentPairs details trackCount detectionCount).Pairwise PairLt ∧
      Assigns details (hungarianAssignmentPairs details trackCount detectionCount) ∧
      ∀ Q, Assigns details Q → (Q.map fun p => pairScore details p + 1).sum ≤
        ((hungarianAssignmentPairs details trackCount detectionCount).map
          fun p => pairScore details p + 1).sum := by
  obtain ⟨hassigns, hbest⟩ := hungarian_best hrange hnonneg
  refine ⟨fun fuel hfuel => assignRowsLoop_eq _ hfuel,
    sorted_hungarianAssignmentPairs (hassigns.tracks.of_map _), hassigns, fun Q hQ => ?_⟩
  rw [sum_score_succ, sum_score_succ]
  exact hbest Q hQ

/-- A pair that is known by its score. -/
def scoreOnly (score : ℚ) : AssociationDetails := ⟨score, 0, 0, 0, [], 0, none⟩

/-- The first track and the second detection, the second track and the first detection. -/
def crossed : Details :=
  (Dict.empty.insert (0, 1) (scoreOnly (3 / 10))).insert (1, 0) (scoreOnly (9 / 10))

theorem crossed_cases {p : Pair} {a : AssociationDetails} (h : crossed.get? p = some a) :
    (p = (1, 0) ∧ a = scoreOnly (9 / 10)) ∨ (p = (0, 1) ∧ a = scoreOnly (3 / 10)) := by
  unfold crossed at h
  rw [Dict.get?_insert, Dict.get?_insert, Dict.get?_empty] at h
  split at h
  · exact .inl ⟨‹_›, (Option.some_inj.1 h).symm⟩
  · split at h
    · exact .inr ⟨‹_›, (Option.some_inj.1 h).symm⟩
    · cases h

theorem crossed_inRange : InRange crossed 2 2 := fun p hp => by
  obtain ⟨a, ha⟩ := Option.ne_none_iff_exists'.1 hp
  rcases crossed_cases ha with ⟨rfl, -⟩ | ⟨rfl, -⟩ <;> decide

theorem crossed_solved :
    (∀ fuel, 2 < fuel → assignRowsLoop fuel (Tracking.cost crossed) 2 =
        some (assignRows (Tracking.cost crossed) 2)) ∧
      (hungarianAssignmentPairs crossed 2 2).Pairwise PairLt ∧
      Assigns crossed (hungarianAssignmentPairs crossed 2 2) ∧
      ∀ Q, Assigns crossed Q → (Q.map fun p => pairScore crossed p + 1).sum ≤
        ((hungarianAssignmentPairs crossed 2 2).map fun p => pairScore crossed p + 1).sum := by
  refine hungarian_solves crossed 2 2 crossed_inRange fun p a hp => ?_
  rcases crossed_cases hp with ⟨-, rfl⟩ | ⟨-, rfl⟩ <;> decide +kernel

end Scenara.Tracking
