import Mathlib.Algebra.BigOperators.Fin
import Mathlib.Data.Prod.Lex
import Scenara.Tracking.Model

/-!
# What the exact solver of `global_match` maximises

Assignments of detections to tracks (`Assigns`), and the two objectives of the solvers: the largest
total score (`Best`), and the largest total score plus number of pairs (`BestCounted`).
-/

namespace Scenara.Tracking

open Scenara.Core

variable {details : Details} {P Q : List Pair} {trackCount detectionCount : Nat}

/-! ## Assignments -/

/-- The score of a pair; 0 when it is not in the dictionary. -/
def pairScore (details : Details) (p : Pair) : ℚ :=
  ((details.get? p).map AssociationDetails.score).getD 0

/-- The total score. -/
def total (details : Details) (P : List Pair) : ℚ := (P.map (pairScore details)).sum

/-- Pairs of the dictionary, at most one for each track and each detection. -/
structure Assigns (details : Details) (P : List Pair) : Prop where
  known : ∀ p ∈ P, details.get? p ≠ none
  tracks : (P.map Prod.fst).Nodup
  detections : (P.map Prod.snd).Nodup

/-- An assignment of the largest total score. -/
def Best (details : Details) (P : List Pair) : Prop :=
  Assigns details P ∧ ∀ Q, Assigns details Q → total details Q ≤ total details P

/-- An assignment of the largest total score plus number of pairs. -/
def BestCounted (details : Details) (P : List Pair) : Prop :=
  Assigns details P ∧
    ∀ Q, Assigns details Q → total details Q + Q.length ≤ total details P + P.length

theorem Assigns.perm (h : Assigns details P) (hperm : P.Perm Q) : Assigns details Q where
  known p hp := h.known p (hperm.mem_iff.2 hp)
  tracks := (hperm.map _).nodup_iff.1 h.tracks
  detections := (hperm.map _).nodup_iff.1 h.detections

theorem Assigns.sublist (h : Assigns details P) (hsub : Q.Sublist P) : Assigns details Q where
  known p hp := h.known p (hsub.subset hp)
  tracks := h.tracks.sublist (hsub.map _)
  detections := h.detections.sublist (hsub.map _)

theorem total_perm (h : P.Perm Q) : total details P = total details Q := (h.map _).sum_eq

/-- Every pair is a position of a track and one of a detection. -/
def InRange (details : Details) (trackCount detectionCount : Nat) : Prop :=
  ∀ p, details.get? p ≠ none → p.1 < trackCount ∧ p.2 < detectionCount

/-! ## The dynamic programme -/

/-- A multiple of 1e-6. -/
def OnGrid (x : ℚ) : Prop := ∃ k : ℤ, x = k / 10 ^ 6

theorem OnGrid.add {x y : ℚ} (hx : OnGrid x) (hy : OnGrid y) : OnGrid (x + y) := by
  obtain ⟨k, rfl⟩ := hx
  obtain ⟨l, rfl⟩ := hy
  exact ⟨k + l, by push_cast; ring⟩

theorem onGrid_zero : OnGrid 0 := ⟨0, by norm_num⟩

/-- On the grid, different numbers are further apart than the tolerance. -/
theorem OnGrid.lt_add {x y : ℚ} (hx : OnGrid x) (hy : OnGrid y) (h : x < y) :
    x + 1 / 10 ^ 9 < y := by
  obtain ⟨k, rfl⟩ := hx
  obtain ⟨l, rfl⟩ := hy
  have hkl : k < l := by
    rw [div_lt_div_iff_of_pos_right (by norm_num)] at h
    exact_mod_cast h
  have hle : (k : ℚ) + 1 ≤ l := by exact_mod_cast hkl
  linarith

/-! ### What `better` compares -/

/-- The order of `better` without its tolerance: the larger score, then the more pairs, then the
smaller tuple. -/
def rank (s : Solution) : ℚ ×ₗ ℕ ×ₗ (List (ℕ ×ₗ ℕ))ᵒᵈ :=
  toLex (s.score, toLex (s.pairs.length, OrderDual.toDual (s.pairs.map toLex)))

theorem pairsLt_iff (P Q : List Pair) :
    pairsLt P Q = true ↔ (P.map toLex : List (ℕ ×ₗ ℕ)) < Q.map toLex := by
  induction P generalizing Q with
  | nil => cases Q <;> simp [pairsLt]
  | cons p P ih =>
    cases Q with
    | nil => simp [pairsLt]
    | cons q Q =>
      rw [pairsLt, List.map_cons, List.map_cons, List.cons_lt_cons_iff, Prod.Lex.toLex_lt_toLex,
        toLex_inj, Prod.ext_iff, ← ih]
      simp only [Bool.or_eq_true, Bool.and_eq_true, decide_eq_true_eq]
      tauto

theorem rank_lt {s s' : Solution} : rank s < rank s' ↔ s.score < s'.score ∨ s.score = s'.score ∧
    (s.pairs.length < s'.pairs.length ∨ s.pairs.length = s'.pairs.length ∧
      pairsLt s'.pairs s.pairs = true) := by
  unfold rank
  rw [Prod.Lex.toLex_lt_toLex, Prod.Lex.toLex_lt_toLex, OrderDual.toDual_lt_toDual, pairsLt_iff]

theorem score_le_of_rank_le {s s' : Solution} (h : rank s ≤ rank s') : s.score ≤ s'.score := by
  rcases Prod.Lex.toLex_le_toLex.1 h with hlt | ⟨heq, -⟩
  · exact le_of_lt hlt
  · exact le_of_eq heq

theorem better_iff {c b : Solution} (hcb : c.score < b.score → c.score + 1 / 10 ^ 9 < b.score)
    (hbc : b.score < c.score → b.score + 1 / 10 ^ 9 < c.score) :
    better c b = true ↔ rank b < rank c := by
  have habs : |c.score - b.score| ≤ 1 / 10 ^ 9 ↔ b.score = c.score := by
    constructor
    · intro hle
      obtain ⟨_, _⟩ := abs_le.1 hle
      by_contra hne
      rcases lt_or_gt_of_ne hne with hlt | hlt
      · have := hbc hlt
        linarith
      · have := hcb hlt
        linarith
    · intro heq
      rw [heq, sub_self, abs_zero]
      norm_num
  have hlt : b.score + 1 / 10 ^ 9 < c.score ↔ b.score < c.score := by
    refine ⟨fun h => ?_, hbc⟩
    linarith
  rw [rank_lt]
  unfold better
  simp only [Bool.or_eq_true, Bool.and_eq_true, decide_eq_true_eq, habs, hlt,
    eq_comm (a := b.pairs.length)]
  tauto

/-- The loop over the detections of one track: `f d` is the candidate of `d`. It ends with a
solution that ranks as high as the first one and as every candidate. -/
theorem foldl_rank {Ok : Solution → Prop}
    (hbetter : ∀ c b, Ok c → Ok b → (better c b = true ↔ rank b < rank c))
    (f : Nat → Option Solution)
    (ds : List Nat) {best : Solution} (hbest : Ok best) (hf : ∀ d ∈ ds, ∀ c, f d = some c → Ok c) :
    Ok (ds.foldl (fun best d =>
        match f d with
        | none => best
        | some c => if better c best then c else best) best) ∧
      rank best ≤ rank (ds.foldl (fun best d =>
        match f d with
        | none => best
        | some c => if better c best then c else best) best) ∧
      ∀ d ∈ ds, ∀ c, f d = some c → rank c ≤ rank (ds.foldl (fun best d =>
        match f d with
        | none => best
        | some c => if better c best then c else best) best) := by
  induction ds generalizing best with
  | nil => exact ⟨hbest, le_rfl, by simp⟩
  | cons d _ ih =>
    rw [List.forall_mem_cons] at hf
    rw [List.foldl_cons]
    cases hd : f d with
    | none =>
      obtain ⟨hok, hle, hall⟩ := ih hbest hf.2
      refine ⟨hok, hle, fun e he c hc => ?_⟩
      rcases List.mem_cons.1 he with rfl | he
      · rw [hd] at hc
        cases hc
      · exact hall e he c hc
    | some a =>
      have ha := hf.1 a hd
      dsimp only
      split
      · rename_i hwins
        obtain ⟨hok, hle, hall⟩ := ih ha hf.2
        refine ⟨hok, (((hbetter a best ha hbest).1 hwins).le).trans hle, fun e he c hc => ?_⟩
        rcases List.mem_cons.1 he with rfl | he
        · rw [hd] at hc
          cases hc
          exact hle
        · exact hall e he c hc
      · rename_i hloses
        obtain ⟨hok, hle, hall⟩ := ih hbest hf.2
        refine ⟨hok, hle, fun e he c hc => ?_⟩
        rcases List.mem_cons.1 he with rfl | he
        · rw [hd] at hc
          cases hc
          exact (not_lt.1 fun hlt => hloses ((hbetter a best ha hbest).2 hlt)).trans hle
        · exact hall e he c hc

theorem testBit_use {mask d e : Nat} :
    (mask ||| 1 <<< d).testBit e = (mask.testBit e || decide (e = d)) := by
  rw [Nat.testBit_or, Nat.shiftLeft_eq, Nat.one_mul, Nat.testBit_two_pow]
  simp [eq_comm]

/-! ### Tuples -/

/-- An assignment of the tracks from `position` on that leaves the detections of `mask` alone, by
track. -/
structure Tuple (details : Details) (position mask : Nat) (P : List Pair) : Prop where
  assigns : Assigns details P
  sorted : P.Pairwise fun p q => p.1 < q.1
  above : ∀ p ∈ P, position ≤ p.1 ∧ mask.testBit p.2 = false

theorem tuple_nil (position mask : Nat) : Tuple details position mask [] :=
  ⟨⟨by simp, by simp, by simp⟩, .nil, by simp⟩

variable {position mask : Nat}

theorem Tuple.mono (h : Tuple details (position + 1) mask P) :
    Tuple details position mask P :=
  { h with above := fun p hp => ⟨Nat.le_of_succ_le (h.above p hp).1, (h.above p hp).2⟩ }

theorem Tuple.cons {position mask d : Nat} (h : Tuple details (position + 1) (mask ||| 1 <<< d) P)
    (hknown : details.get? (position, d) ≠ none) (hfree : mask.testBit d = false) :
    Tuple details position mask ((position, d) :: P) := by
  have hlater : ∀ p ∈ P, position < p.1 := fun p hp => (h.above p hp).1
  have hother : ∀ p ∈ P, mask.testBit p.2 = false ∧ p.2 ≠ d := by
    intro p hp
    have hbit := (h.above p hp).2
    rw [testBit_use, Bool.or_eq_false_iff] at hbit
    exact ⟨hbit.1, of_decide_eq_false hbit.2⟩
  refine ⟨⟨fun p hp => ?_, ?_, ?_⟩, List.pairwise_cons.2 ⟨hlater, h.sorted⟩, fun p hp => ?_⟩
  · rcases List.mem_cons.1 hp with rfl | hp
    · exact hknown
    · exact h.assigns.known p hp
  · refine List.nodup_cons.2 ⟨fun hin => ?_, h.assigns.tracks⟩
    obtain ⟨p, hp, he⟩ := List.mem_map.1 hin
    exact (hlater p hp).ne' he
  · refine List.nodup_cons.2 ⟨fun hin => ?_, h.assigns.detections⟩
    obtain ⟨p, hp, he⟩ := List.mem_map.1 hin
    exact (hother p hp).2 he
  · rcases List.mem_cons.1 hp with rfl | hp
    · exact ⟨le_rfl, hfree⟩
    · exact ⟨(hlater p hp).le, (hother p hp).1⟩

theorem Tuple.rest (h : Tuple details position mask Q) :
    Tuple details (position + 1) mask Q ∨ ∃ d R, Q = (position, d) :: R ∧
      mask.testBit d = false ∧ details.get? (position, d) ≠ none ∧
      Tuple details (position + 1) (mask ||| 1 <<< d) R := by
  match Q, h with
  | [], _ => exact .inl (tuple_nil _ mask)
  | (track, d) :: R, h =>
    obtain ⟨hlater, hsorted⟩ := List.pairwise_cons.1 h.sorted
    obtain ⟨hle, hfree⟩ := h.above _ List.mem_cons_self
    by_cases htrack : track = position
    · subst htrack
      have hdetections := (List.nodup_cons.1 h.assigns.detections).1
      refine .inr ⟨d, R, rfl, hfree, h.assigns.known _ List.mem_cons_self,
        h.assigns.sublist (List.sublist_cons_self _ R), hsorted, fun p hp => ⟨hlater p hp, ?_⟩⟩
      have hne : p.2 ≠ d := fun he => hdetections (List.mem_map.2 ⟨p, hp, he⟩)
      rw [testBit_use, (h.above p (List.mem_cons_of_mem _ hp)).2]
      simp [hne]
    · refine .inl { h with above := fun p hp => ⟨?_, (h.above p hp).2⟩ }
      have hgt : position < track := Nat.lt_of_le_of_ne hle (Ne.symm htrack)
      rcases List.mem_cons.1 hp with rfl | hp
      · exact hgt
      · exact hgt.trans (hlater p hp)

/-- The totals of two assignments are further apart than the tolerance, or the same. -/
def Separated (details : Details) : Prop :=
  ∀ P Q, Assigns details P → Assigns details Q → total details P < total details Q →
    total details P + 1 / 10 ^ 9 < total details Q

theorem onGrid_total (hgrid : ∀ p a, details.get? p = some a → OnGrid a.score)
    (hP : ∀ p ∈ P, details.get? p ≠ none) : OnGrid (total details P) := by
  induction P with
  | nil => exact onGrid_zero
  | cons p P ih =>
    rw [List.forall_mem_cons] at hP
    obtain ⟨a, ha⟩ := Option.ne_none_iff_exists'.1 hP.1
    have hscore : pairScore details p = a.score := by simp [pairScore, ha]
    have htotal : total details (p :: P) = a.score + total details P := by simp [total, hscore]
    rw [htotal]
    exact (hgrid p a ha).add (ih hP.2)

theorem separated_of_grid (hgrid : ∀ p a, details.get? p = some a → OnGrid a.score) :
    Separated details := fun _ _ hP hQ hlt =>
  (onGrid_total hgrid hP.known).lt_add (onGrid_total hgrid hQ.known) hlt

/-- The tuple with its total. -/
def solution (details : Details) (P : List Pair) : Solution := ⟨total details P, P⟩

theorem rank_cons_le {s s' : Solution} (x : ℚ) (p : Pair) (h : rank s ≤ rank s') :
    rank ⟨x + s.score, p :: s.pairs⟩ ≤ rank ⟨x + s'.score, p :: s'.pairs⟩ := by
  rw [← not_lt, rank_lt] at h ⊢
  intro hlt
  refine h ?_
  simp only [add_lt_add_iff_left, add_right_inj, List.length_cons, pairsLt, lt_irrefl, decide_false,
    Bool.false_or, decide_true, Bool.true_and] at hlt
  simpa using hlt

/-- What `solve` works with: tuples with their totals. -/
def Exact (details : Details) (position mask : Nat) (s : Solution) : Prop :=
  Tuple details position mask s.pairs ∧ s.score = total details s.pairs

theorem Exact.better_iff (hsep : Separated details) {c b : Solution}
    (hc : Exact details position mask c) (hb : Exact details position mask b) :
    better c b = true ↔ rank b < rank c := by
  refine Tracking.better_iff (fun hlt => ?_) fun hlt => ?_
  · rw [hc.2, hb.2] at hlt ⊢
    exact hsep _ _ hc.1.assigns hb.1.assigns hlt
  · rw [hc.2, hb.2] at hlt ⊢
    exact hsep _ _ hb.1.assigns hc.1.assigns hlt

theorem Exact.cons {position mask d : Nat} {s : Solution} {a : AssociationDetails}
    (h : Exact details (position + 1) (mask ||| 1 <<< d) s)
    (ha : details.get? (position, d) = some a) (hfree : mask.testBit d = false) :
    Exact details position mask ⟨a.score + s.score, (position, d) :: s.pairs⟩ := by
  have hscore : pairScore details (position, d) = a.score := by simp [pairScore, ha]
  refine ⟨h.1.cons (by rw [ha]; exact Option.some_ne_none a) hfree, ?_⟩
  rw [h.2]
  simp [total, hscore]

/-- The candidate of a detection in `solve`. -/
def candidate (details : Details) (detectionCount left position mask d : Nat) : Option Solution :=
  if mask.testBit d then none
  else (details.get? (position, d)).map fun a =>
    ⟨a.score + (solve details detectionCount left (position + 1) (mask ||| 1 <<< d)).score,
      (position, d) :: (solve details detectionCount left (position + 1) (mask ||| 1 <<< d)).pairs⟩

theorem solve_succ (left position mask : Nat) :
    solve details detectionCount (left + 1) position mask =
      (List.range detectionCount).foldl (fun best d =>
        match candidate details detectionCount left position mask d with
        | none => best
        | some c => if better c best then c else best)
        (solve details detectionCount left (position + 1) mask) := by
  rw [solve]
  congr 1
  funext best d
  unfold candidate
  split
  · rfl
  · cases details.get? (position, d) <;> rfl

theorem solve_exact (hsep : Separated details) (hrange : InRange details trackCount detectionCount)
    (left position mask : Nat) (hleft : trackCount ≤ position + left) :
    Exact details position mask (solve details detectionCount left position mask) ∧
      ∀ Q, Tuple details position mask Q →
        rank (solution details Q) ≤ rank (solve details detectionCount left position mask) := by
  induction left generalizing position mask with
  | zero =>
    refine ⟨⟨tuple_nil position mask, rfl⟩, fun Q hQ => ?_⟩
    have hnil : Q = [] := List.eq_nil_iff_forall_not_mem.2 fun q hq => by
      have hlt := (hrange q (hQ.assigns.known q hq)).1
      have hle := (hQ.above q hq).1
      omega
    rw [hnil]
    exact le_rfl
  | succ left ih =>
    have hskip := ih (position + 1) mask (by omega)
    have huse := fun d => ih (position + 1) (mask ||| 1 <<< d) (by omega)
    have hcandidates : ∀ d ∈ List.range detectionCount, ∀ c,
        candidate details detectionCount left position mask d = some c →
          Exact details position mask c := by
      intro d _ c hc
      unfold candidate at hc
      split at hc
      · cases hc
      · rename_i hfree
        obtain ⟨a, ha, rfl⟩ := Option.map_eq_some_iff.1 hc
        exact (huse d).1.cons ha (Bool.eq_false_iff.2 hfree)
    obtain ⟨hexact, hle, hall⟩ := foldl_rank (fun c b hc hb => hc.better_iff hsep hb)
      (candidate details detectionCount left position mask) (List.range detectionCount)
      (show Exact details position mask _ from ⟨hskip.1.1.mono, hskip.1.2⟩) hcandidates
    rw [← solve_succ] at hexact hle hall
    refine ⟨hexact, fun Q hQ => ?_⟩
    rcases hQ.rest with hlater | ⟨d, R, rfl, hfree, hknown, hR⟩
    · exact (hskip.2 Q hlater).trans hle
    · obtain ⟨a, ha⟩ := Option.ne_none_iff_exists'.1 hknown
      have hd : d ∈ List.range detectionCount := List.mem_range.2 (hrange _ hknown).2
      have hcandidate := hall d hd _ (by
        unfold candidate
        rw [if_neg (by simp [hfree]), ha]
        rfl)
      have hscore : pairScore details (position, d) = a.score := by simp [pairScore, ha]
      have htotal : solution details ((position, d) :: R) =
          ⟨a.score + (solution details R).score, (position, d) :: (solution details R).pairs⟩ := by
        simp [solution, total, hscore]
      rw [htotal]
      exact (rank_cons_le a.score (position, d) ((huse d).2 R hR)).trans hcandidate

theorem Assigns.tuple (h : Assigns details Q) :
    ∃ R, Tuple details 0 0 R ∧ total details R = total details Q := by
  have hperm := Q.mergeSort_perm fun p q => p.1 ≤ q.1
  have hassigns := h.perm hperm.symm
  have hsorted : (Q.mergeSort fun p q => p.1 ≤ q.1).Pairwise fun p q => decide (p.1 ≤ q.1) = true :=
    List.pairwise_mergeSort (by simp; omega) (by simp; omega) Q
  refine ⟨_, ⟨hassigns, ?_, fun q _ => ⟨Nat.zero_le _, Nat.zero_testBit _⟩⟩, total_perm hperm⟩
  exact (hsorted.and (List.pairwise_map.1 hassigns.tracks)).imp fun hpq =>
    Nat.lt_of_le_of_ne (of_decide_eq_true hpq.1) hpq.2

theorem solve_best (hgrid : ∀ p a, details.get? p = some a → OnGrid a.score)
    (hrange : InRange details trackCount detectionCount) :
    Best details (solve details detectionCount trackCount 0 0).pairs := by
  obtain ⟨⟨htuple, hscore⟩, hbest⟩ :=
    solve_exact (separated_of_grid hgrid) hrange trackCount 0 0 (by omega)
  refine ⟨htuple.assigns, fun Q hQ => ?_⟩
  obtain ⟨R, hR, htotal⟩ := hQ.tuple
  rw [← htotal, ← hscore]
  exact score_le_of_rank_le (hbest R hR)

end Scenara.Tracking
