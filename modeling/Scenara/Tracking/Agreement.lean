import Scenara.Core.Raising
import Scenara.Tracking.Hungarian
import Scenara.Tracking.Solvers

/-!
# When the two solvers of `global_match` agree

The scores are multiples of 1e-6 and not negative (`scored_detailsByPair`).
-/

namespace Scenara.Tracking

open Scenara.Core

variable {details : Details} {P Q : List Pair} {trackCount detectionCount size : Nat}
  {math : VectorMath} {tracks : List TrackState} {detections : List (Nat × Person)}
  {frameIndex : Int} {minScore : ℚ}

/-! ## Scores -/

/-- What the solvers rely on. -/
structure Scored (details : Details) (trackCount detectionCount : Nat) : Prop where
  inRange : InRange details trackCount detectionCount
  grid : ∀ p a, details.get? p = some a → OnGrid a.score
  nonneg : ∀ p a, details.get? p = some a → 0 ≤ a.score

theorem roundTo_nonneg (digits : Nat) {x : ℚ} (h : 0 ≤ x) : 0 ≤ roundTo digits x := by
  have hscaled : 0 ≤ x * 10 ^ digits := by positivity
  have hfloor : 0 ≤ ⌊x * 10 ^ digits⌋ := Int.floor_nonneg.2 hscaled
  have hround : 0 ≤ roundHalfEven (x * 10 ^ digits) := by
    unfold roundHalfEven
    dsimp only
    split_ifs <;> omega
  unfold roundTo
  positivity

theorem boxIou_nonneg (a b : List ℚ) : 0 ≤ boxIou a b := by
  unfold boxIou
  split
  · dsimp only
    split
    · exact div_nonneg (mul_nonneg (le_max_left _ _) (le_max_left _ _)) (le_of_lt ‹_›)
    · exact le_rfl
  · exact le_rfl

theorem embeddingScore_nonneg {a b : Option (List ℚ)} {x : ℚ}
    (h : embeddingScore math a b = some x) : 0 ≤ x := by
  unfold embeddingScore at h
  split at h
  · split at h
    · cases h
    · cases h
      exact le_max_left _ _
  · cases h

theorem associationScore_grid {track : TrackState} {person : Person} {a : AssociationDetails}
    (h : associationScore math track person frameIndex = some a) :
    OnGrid a.score ∧ 0 ≤ a.score := by
  obtain ⟨_, -, rfl⟩ := Option.map_eq_some_iff.1 h
  refine ⟨⟨_, rfl⟩, roundTo_nonneg 6 ?_⟩
  have hiou := boxIou_nonneg track.lastBox (person.box.getD [])
  split
  · positivity
  · rename_i x hx
    have hx := embeddingScore_nonneg hx
    positivity

theorem scored_insert (h : Scored details trackCount detectionCount) {p : Pair}
    {a : AssociationDetails} (hp : p.1 < trackCount ∧ p.2 < detectionCount) (hgrid : OnGrid a.score)
    (hnonneg : 0 ≤ a.score) : Scored (details.insert p a) trackCount detectionCount where
  inRange q hq := by
    rw [Dict.get?_insert] at hq
    by_cases hqp : q = p
    · exact hqp ▸ hp
    · rw [if_neg hqp] at hq
      exact h.inRange q hq
  grid q b hq := by
    rcases Dict.get?_insert_cases hq with ⟨-, rfl⟩ | ⟨-, hq⟩
    · exact hgrid
    · exact h.grid q b hq
  nonneg q b hq := by
    rcases Dict.get?_insert_cases hq with ⟨-, rfl⟩ | ⟨-, hq⟩
    · exact hnonneg
    · exact h.nonneg q b hq

theorem lt_of_mem_zipIdx {α : Type} {xs : List α} {x : α × Nat} (h : x ∈ xs.zipIdx) :
    x.2 < xs.length := by
  exact (List.mk_mem_zipIdx_iff_getElem?.1 h |> List.getElem?_eq_some_iff.1).1

theorem scored_detailsByPair
    (h : detailsByPair math tracks detections frameIndex minScore = some details) :
    Scored details tracks.length detections.length := by
  refine some_foldlM (I := fun d => Scored d tracks.length detections.length) _ ?_
    ⟨by simp [InRange], by simp, by simp⟩ h
  intro d _ htrack hd _ hd'
  refine some_foldlM (I := fun d => Scored d tracks.length detections.length) _ ?_ hd hd'
  intro e _ hdetection he _ he'
  obtain ⟨a, ha, rfl⟩ := Option.map_eq_some_iff.1 he'
  obtain ⟨hgrid, hnonneg⟩ := associationScore_grid ha
  split
  · exact scored_insert he ⟨lt_of_mem_zipIdx htrack, lt_of_mem_zipIdx hdetection⟩ hgrid hnonneg
  · exact he

/-! ## The Hungarian method -/

/-- What a pair adds to the total score plus number of pairs. -/
def gain (details : Details) (p : Pair) : ℚ :=
  if (details.get? p).isSome then pairScore details p + 1 else 0

theorem sum_gain (h : ∀ p ∈ P, details.get? p ≠ none) :
    (P.map (gain details)).sum = total details P + P.length := by
  unfold total
  induction P with
  | nil => simp
  | cons p P ih =>
    rw [List.forall_mem_cons] at h
    have hgain : gain details p = pairScore details p + 1 :=
      if_pos (Option.isSome_iff_ne_none.2 h.1)
    rw [List.map_cons, List.sum_cons, ih h.2, hgain]
    simp only [List.map_cons, List.sum_cons, List.length_cons]
    push_cast
    ring

theorem sum_gain_filter (P : List Pair) :
    ((P.filter fun p => (details.get? p).isSome).map (gain details)).sum =
      (P.map (gain details)).sum := by
  induction P with
  | nil => rfl
  | cons p P ih =>
    by_cases hp : (details.get? p).isSome
    · rw [List.filter_cons_of_pos (by exact hp)]
      simp [ih]
    · rw [List.filter_cons_of_neg (by exact hp)]
      simp [ih, gain, hp]

theorem gain_eq (p : Pair) : gain details p = maxScore details + 1 - cost details p.1 p.2 := by
  unfold gain cost pairScore
  cases details.get? p with
  | none => simp
  | some a =>
    simp only [Option.isSome_some, if_true, Option.map_some, Option.getD_some]
    ring

theorem cost_le (hnonneg : ∀ p a, details.get? p = some a → 0 ≤ a.score) (row column : Nat) :
    cost details row column ≤ maxScore details + 1 := by
  unfold cost
  cases hp : details.get? (row, column) with
  | none => exact le_rfl
  | some a =>
    have hscore := hnonneg _ a hp
    linarith

theorem Complete.exists_perm {m : Nat → Nat} (h : Complete size size m) :
    ∃ σ : Equiv.Perm (Fin size), ∀ c : Fin size, m (c + 1) = σ c + 1 := by
  have hcolumn := fun r : Fin size => h.surj (r + 1) (by omega) (by omega)
  choose column hmem hrow using hcolumn
  have hbounds := fun r => mem_columns.1 (hmem r)
  let τ : Fin size → Fin size := fun r => ⟨column r - 1, by have := hbounds r; omega⟩
  have hinj : Function.Injective τ := by
    intro r r' heq
    have hcolumns : column r = column r' := by
      have := congrArg Fin.val heq
      have := hbounds r
      have := hbounds r'
      simp only [τ] at *
      omega
    have := hrow r
    have := hrow r'
    rw [hcolumns] at *
    omega
  let σ := (Equiv.ofBijective τ (Finite.injective_iff_bijective.1 hinj)).symm
  refine ⟨σ, fun c => ?_⟩
  have hτ : τ (σ c) = c := Equiv.ofBijective_apply_symm_apply τ _ c
  have hc : column (σ c) = c + 1 := by
    have := congrArg Fin.val hτ
    have := hbounds (σ c)
    simp only [τ] at *
    omega
  rw [← hc]
  exact hrow (σ c)

/-- The pairs of a permutation that are in the dictionary. -/
def knownPairs (details : Details) (σ : Equiv.Perm (Fin size)) : List Pair :=
  ((List.finRange size).map fun c => ((σ c : Nat), (c : Nat))).filter
    fun p => (details.get? p).isSome

theorem assigns_knownPairs (σ : Equiv.Perm (Fin size)) :
    Assigns details (knownPairs details σ) := by
  refine ⟨fun p hp => Option.isSome_iff_ne_none.1 (List.mem_filter.1 hp).2, ?_, ?_⟩
  · refine List.Nodup.sublist (List.filter_sublist.map _) ?_
    rw [List.map_map]
    exact (List.nodup_finRange size).map fun a b hab => σ.injective (Fin.ext hab)
  · refine List.Nodup.sublist (List.filter_sublist.map _) ?_
    rw [List.map_map]
    exact (List.nodup_finRange size).map fun a b hab => Fin.ext hab

theorem columns_eq (size : Nat) :
    columns size = (List.finRange size).map fun c : Fin size => (c : Nat) + 1 := by
  unfold columns
  rw [List.range'_eq_map_range, ← List.map_coe_finRange_eq_range, List.map_map]
  exact List.map_congr_left fun c _ => Nat.add_comm 1 (c : Nat)

theorem hungarian_perm (hrange : InRange details trackCount detectionCount)
    {σ : Equiv.Perm (Fin (max trackCount detectionCount))}
    (hσ : ∀ c : Fin (max trackCount detectionCount),
      (assignRows (cost details) (max trackCount detectionCount)).matching (c + 1) = σ c + 1) :
    (hungarianAssignmentPairs details trackCount detectionCount).Perm (knownPairs details σ) := by
  unfold hungarianAssignmentPairs knownPairs
  refine (List.perm_insertionSort PairLe _).trans (.of_eq ?_)
  rw [columns_eq, List.filterMap_map, ← List.filterMap_eq_filter, List.filterMap_map]
  refine List.filterMap_congr fun c _ => ?_
  simp only [Function.comp_apply, hσ, Nat.add_sub_cancel, Option.guard]
  by_cases hknown : (details.get? (σ c, c)).isSome
  · have hbounds := hrange _ (Option.isSome_iff_ne_none.1 hknown)
    simp [hknown, hbounds]
  · simp [hknown]

theorem exists_matching (size : Nat) (hQ : Assigns details Q) (hrow : ∀ q ∈ Q, q.1 < size)
    (hcolumn : ∀ q ∈ Q, q.2 < size) (f : Pair → ℚ) :
    ∃ M : Finset (Fin size × Fin size), IsMatching M ∧
      ∑ p ∈ M, f (p.1, p.2) = (Q.map f).sum := by
  refine ⟨Finset.univ.filter fun p => ((p.1 : Nat), (p.2 : Nat)) ∈ Q, ⟨?_, ?_⟩, ?_⟩
  · intro p hp q hq heq
    have hp' := (Finset.mem_filter.1 hp).2
    have hq' := (Finset.mem_filter.1 hq).2
    have := List.inj_on_of_nodup_map hQ.tracks hp' hq' (congrArg Fin.val heq)
    exact Prod.ext heq (Fin.ext (congrArg Prod.snd this))
  · intro p hp q hq heq
    have hp' := (Finset.mem_filter.1 hp).2
    have hq' := (Finset.mem_filter.1 hq).2
    have := List.inj_on_of_nodup_map hQ.detections hp' hq' (congrArg Fin.val heq)
    exact Prod.ext (Fin.ext (congrArg Prod.fst this)) heq
  · rw [← List.sum_toFinset f (hQ.tracks.of_map _)]
    refine Finset.sum_bij (fun p _ => ((p.1 : Nat), (p.2 : Nat))) ?_ ?_ ?_ (fun _ _ => rfl)
    · intro p hp
      exact List.mem_toFinset.2 (Finset.mem_filter.1 hp).2
    · intro p _ q _ heq
      obtain ⟨hfst, hsnd⟩ := Prod.mk.inj heq
      exact Prod.ext (Fin.ext hfst) (Fin.ext hsnd)
    · intro q hq
      have hq' := List.mem_toFinset.1 hq
      exact ⟨(⟨q.1, hrow q hq'⟩, ⟨q.2, hcolumn q hq'⟩),
        Finset.mem_filter.2 ⟨Finset.mem_univ _, hq'⟩, rfl⟩

theorem hungarian_best (hrange : InRange details trackCount detectionCount)
    (hnonneg : ∀ p a, details.get? p = some a → 0 ≤ a.score) :
    BestCounted details (hungarianAssignmentPairs details trackCount detectionCount) := by
  set size := max trackCount detectionCount
  have ha := assignRows_assigned (cost details) size
  obtain ⟨σ, hσ⟩ := ha.complete.exists_perm
  have hperm := hungarian_perm hrange hσ
  refine ⟨(assigns_knownPairs σ).perm hperm.symm, fun Q hQ => ?_⟩
  obtain ⟨M, hM, hsum⟩ := exists_matching size hQ
    (fun q hq => lt_max_of_lt_left (hrange q (hQ.known q hq)).1)
    (fun q hq => lt_max_of_lt_right (hrange q (hQ.known q hq)).2) (gain details)
  have hmem : ∀ c : Fin size, (c : Nat) + 1 ∈ columns size := fun c =>
    mem_columns.2 ⟨by omega, by omega⟩
  have hbest := gain_le_of_tight (fun r c : Fin size => cost details r c)
    (fun r => (assignRows (cost details) size).u (r + 1))
    (fun c => (assignRows (cost details) size).v (c + 1)) σ (fun r c => cost_le hnonneg r c)
    (fun r c => by
      have hfeasible := ha.feasible (r + 1) (by omega) (by omega) (c + 1) (hmem c)
      unfold reduced at hfeasible
      simp only [Nat.add_sub_cancel] at hfeasible
      linarith)
    (fun c => by
      have htight := ha.tight (c + 1) (hmem c) (by rw [hσ]; omega)
      unfold reduced at htight
      rw [hσ] at htight
      simp only [Nat.add_sub_cancel] at htight
      linarith) hM
  calc total details Q + Q.length = ∑ p ∈ M, gain details (p.1, p.2) := by
        rw [hsum, sum_gain hQ.known]
    _ ≤ ∑ c, gain details (σ c, c) := by simpa only [gain_eq] using hbest
    _ = ((knownPairs details σ).map (gain details)).sum := by
      unfold knownPairs
      rw [sum_gain_filter, List.map_map, ← List.ofFn_eq_map, List.sum_ofFn]
      rfl
    _ = total details (knownPairs details σ) + (knownPairs details σ).length :=
      sum_gain (assigns_knownPairs σ).known
    _ = _ := by rw [total_perm hperm, hperm.length_eq]

/-! ## The totals of `global_match` -/

/-- The total score of the matches. -/
def totalScore (found : List Match) : ℚ := (found.map fun m => m.details.score).sum

theorem totalScore_assignmentMatches (hP : ∀ p ∈ P, details.get? p ≠ none)
    (hrange : InRange details tracks.length detections.length) :
    totalScore (assignmentMatches tracks detections details P) = total details P := by
  unfold totalScore assignmentMatches total
  induction P with
  | nil => rfl
  | cons p P ih =>
    rw [List.forall_mem_cons] at hP
    obtain ⟨a, ha⟩ := Option.ne_none_iff_exists'.1 hP.1
    obtain ⟨htrack, hdetection⟩ := hrange p hP.1
    have hscore : pairScore details p = a.score := by simp [pairScore, ha]
    rw [List.filterMap_cons_some (b := ⟨tracks[p.1], detections[p.2].1, a⟩)
      (by simp [ha, htrack, hdetection])]
    simp [ih hP.2, hscore]

theorem total_eq_zero (h : ∀ p, details.get? p = none) (P : List Pair) : total details P = 0 :=
  List.sum_eq_zero fun x hx => by
    obtain ⟨p, -, rfl⟩ := List.mem_map.1 hx
    simp [pairScore, h]

theorem assigns_solverPairs (h : Scored details trackCount detectionCount) (maxExactSize : Int) :
    Assigns details (solverPairs details trackCount detectionCount maxExactSize) := by
  unfold solverPairs
  split
  · exact (hungarian_best h.inRange h.nonneg).1
  · exact (solve_best h.grid h.inRange).1

theorem globalMatch_total (maxExactSize : Int)
    (h : detailsByPair math tracks detections frameIndex minScore = some details) :
    (globalMatch math tracks detections frameIndex minScore maxExactSize).map totalScore =
      some (total details (solverPairs details tracks.length detections.length maxExactSize)) := by
  have hscored := scored_detailsByPair h
  unfold globalMatch
  split
  · rename_i hnone
    rw [Option.map_some, total_eq_zero]
    · rfl
    · intro p
      by_contra hp
      have hbounds := hscored.inRange p hp
      simp only [Bool.or_eq_true, List.isEmpty_iff] at hnone
      rcases hnone with rfl | rfl <;> simp at hbounds
  · rw [h, Option.map_some, Option.map_some]
    split
    · rename_i hempty
      rw [total_eq_zero]
      · rfl
      · intro p
        unfold Dict.get?
        rw [List.isEmpty_iff.1 hempty]
        rfl
    · rw [totalScore_assignmentMatches (assigns_solverPairs hscored maxExactSize).known
        hscored.inRange]

/-- Whatever the size limit, as long as it makes `global_match` take one solver and then the other,
the total score is the same. -/
def SolversAgree (math : VectorMath) (tracks : List TrackState) (detections : List (Nat × Person))
    (frameIndex : Int) (minScore : ℚ) : Prop :=
  ∀ exact large : Int, (tracks.length ≤ exact ∧ detections.length ≤ exact) →
    (large < tracks.length ∨ large < detections.length) →
      (globalMatch math tracks detections frameIndex minScore exact).map totalScore =
        (globalMatch math tracks detections frameIndex minScore large).map totalScore

theorem globalMatch_none (maxExactSize : Int)
    (h : detailsByPair math tracks detections frameIndex minScore = none) :
    (globalMatch math tracks detections frameIndex minScore maxExactSize).map totalScore =
      if tracks.isEmpty || detections.isEmpty then some 0 else none := by
  unfold globalMatch
  rw [h]
  split <;> rfl

/-- **When the two solvers agree.** They do when every assignment of the largest total score plus
number of pairs has the largest total score, and only if some such assignment does. -/
theorem solvers_agree (math : VectorMath) (tracks : List TrackState)
    (detections : List (Nat × Person)) (frameIndex : Int) (minScore : ℚ) :
    ((∀ details, detailsByPair math tracks detections frameIndex minScore = some details →
        ∀ P, BestCounted details P → Best details P) →
      SolversAgree math tracks detections frameIndex minScore) ∧
    (SolversAgree math tracks detections frameIndex minScore →
      ∀ details, detailsByPair math tracks detections frameIndex minScore = some details →
        ∃ P, BestCounted details P ∧ Best details P) := by
  constructor
  · intro hbest exact large _ hlarge
    cases h : detailsByPair math tracks detections frameIndex minScore with
    | none => rw [globalMatch_none exact h, globalMatch_none large h]
    | some details =>
      have hscored := scored_detailsByPair h
      have hdynamic := solve_best hscored.grid hscored.inRange
      have hhungarian := hbest details h _ (hungarian_best hscored.inRange hscored.nonneg)
      rw [globalMatch_total exact h, globalMatch_total large h]
      unfold solverPairs
      rw [if_neg (by omega), if_pos hlarge]
      exact congrArg some (le_antisymm (hhungarian.2 _ hdynamic.1) (hdynamic.2 _ hhungarian.1))
  · intro hagree _ h
    have hscored := scored_detailsByPair h
    have hdynamic := solve_best hscored.grid hscored.inRange
    have hhungarian := hungarian_best hscored.inRange hscored.nonneg
    have htotal := hagree (max tracks.length detections.length) (-1) (by omega) (by omega)
    rw [globalMatch_total _ h, globalMatch_total _ h, Option.some_inj] at htotal
    unfold solverPairs at htotal
    rw [if_neg (by omega), if_pos (by omega)] at htotal
    refine ⟨_, hhungarian, hhungarian.1, fun Q hQ => ?_⟩
    rw [← htotal]
    exact hdynamic.2 Q hQ

theorem best_of_one_track (h : Scored details 1 detectionCount) (hP : BestCounted details P) :
    Best details P := by
  have hshort : ∀ Q, Assigns details Q → Q.length ≤ 1 := by
    intro Q hQ
    match Q, hQ with
    | [], _ => exact Nat.zero_le 1
    | [_], _ => exact le_rfl
    | p :: q :: Q, hQ =>
      have hp := (h.inRange p (hQ.known p (by simp))).1
      have hq := (h.inRange q (hQ.known q (by simp))).1
      have hne : p.1 ≠ q.1 := fun heq => (List.nodup_cons.1 hQ.tracks).1 (by simp [heq])
      omega
  have hnonneg : ∀ p, 0 ≤ pairScore details p := by
    intro p
    unfold pairScore
    cases hp : details.get? p with
    | none => exact le_rfl
    | some a => exact h.nonneg p a hp
  refine ⟨hP.1, fun Q hQ => ?_⟩
  have hle := hP.2 Q hQ
  have hlength : (P.length : ℚ) ≤ 1 := by exact_mod_cast hshort P hP.1
  rcases Nat.eq_zero_or_pos Q.length with hzero | hpos
  · rw [List.length_eq_zero_iff.1 hzero]
    refine List.sum_nonneg fun x hx => ?_
    obtain ⟨p, -, rfl⟩ := List.mem_map.1 hx
    exact hnonneg p
  · have hone : (1 : ℚ) ≤ Q.length := by exact_mod_cast hpos
    linarith

/-! ## Examples -/

/-- No embeddings are compared. -/
def bodyOnly : VectorMath := ⟨fun _ _ => 0, fun _ embedding => embedding⟩

/-- A track seen once, in the frame 0. -/
def trackAt (trackId : String) (box : List ℚ) : TrackState :=
  ⟨trackId, 0, box, none, 1, [0], [⟨0, box⟩]⟩

/-- A person without an embedding. -/
def personAt (box : List ℚ) : Person := ⟨9 / 10, some box, none, none⟩

theorem oneTrack_agrees : SolversAgree bodyOnly [trackAt "trk_0001" [0, 0, 10, 10]]
    [(0, personAt [0, 0, 10, 10]), (1, personAt [9, 0, 19, 10])] 1 (28 / 100) :=
  (solvers_agree bodyOnly _ _ 1 (28 / 100)).1 fun _ h _ hP =>
    best_of_one_track (scored_detailsByPair h) hP

/-- **The solvers do not always agree.** The first track has the box of the first person, score 1.
It barely overlaps the second person, as the second track does the first, score 0.298947 each. -/
theorem weak_pairs_win :
    let tracks := [trackAt "trk_0001" [0, 0, 10, 10], trackAt "trk_0002" [-9, 0, 1, 10]]
    let detections := [(0, personAt [0, 0, 10, 10]), (1, personAt [9, 0, 19, 10])]
    (globalMatch bodyOnly tracks detections 1 (28 / 100) 2).map totalScore = some 1 ∧
      (globalMatch bodyOnly tracks detections 1 (28 / 100) 1).map totalScore =
        some (597894 / 1000000) ∧
      ¬SolversAgree bodyOnly tracks detections 1 (28 / 100) := by
  intro tracks detections
  have hexact : (globalMatch bodyOnly tracks detections 1 (28 / 100) 2).map totalScore =
      some 1 := by decide +kernel
  have hlarge : (globalMatch bodyOnly tracks detections 1 (28 / 100) 1).map totalScore =
      some (597894 / 1000000) := by decide +kernel
  refine ⟨hexact, hlarge, fun hagree => ?_⟩
  have heq := hagree 2 1 (by decide) (by decide)
  rw [hexact, hlarge, Option.some_inj] at heq
  norm_num at heq

end Scenara.Tracking
