import Scenara.Tracking.Optimal

/-!
# The exact branch of `global_match`

`solve(0, 0)` on any table of scores, and its cache, which changes nothing (`solveCached_eq`).
-/

namespace Scenara.Tracking

open Scenara.Core

variable {details : Details} {P Q : List Pair} {trackCount detectionCount : Nat}
  {math : VectorMath} {tracks : List TrackState} {detections : List (Nat × Person)}
  {frameIndex : Int} {minScore : ℚ}

/-! ## The cache -/

/-- `cache`. -/
abbrev Cache := Dict (Nat × Nat) Solution

/-- `solve`, with its cache. -/
def solveCached (details : Details) (detectionCount : Nat) :
    (left : Nat) → (trackPosition usedDetectionMask : Nat) → Cache → Solution × Cache
  | 0, trackPosition, mask, cache =>
    match cache.get? (trackPosition, mask) with
    | some cached => (cached, cache)
    | none => (⟨0, []⟩, cache)
  | left + 1, trackPosition, mask, cache =>
    match cache.get? (trackPosition, mask) with
    | some cached => (cached, cache)
    | none =>
      let skipped := solveCached details detectionCount left (trackPosition + 1) mask cache
      let found := (List.range detectionCount).foldl (fun found detectionPosition =>
        if mask.testBit detectionPosition then found
        else
          match details.get? (trackPosition, detectionPosition) with
          | none => found
          | some d =>
            let next := solveCached details detectionCount left (trackPosition + 1)
              (mask ||| 1 <<< detectionPosition) found.2
            let candidate : Solution :=
              ⟨d.score + next.1.score, (trackPosition, detectionPosition) :: next.1.pairs⟩
            (if better candidate found.1 then candidate else found.1, next.2)) skipped
      (found.1, found.2.insert (trackPosition, mask) found.1)

/-- Every entry is what `solve` returns. -/
def Cached (details : Details) (trackCount detectionCount : Nat) (cache : Cache) : Prop :=
  ∀ position mask s, cache.get? (position, mask) = some s →
    s = solve details detectionCount (trackCount - position) position mask

theorem cached_empty : Cached details trackCount detectionCount .empty := nofun

theorem foldl_cached {left position mask : Nat} {call : Nat → Cache → Solution × Cache}
    (hcall : ∀ d cache, Cached details trackCount detectionCount cache →
      (call d cache).1 = solve details detectionCount left (position + 1) (mask ||| 1 <<< d) ∧
      Cached details trackCount detectionCount (call d cache).2)
    (ds : List Nat) (found : Solution × Cache)
    (hfound : Cached details trackCount detectionCount found.2) :
    let done := ds.foldl (fun found d =>
      if mask.testBit d then found
      else
        match details.get? (position, d) with
        | none => found
        | some a =>
          (if better ⟨a.score + (call d found.2).1.score, (position, d) :: (call d found.2).1.pairs⟩
              found.1 then
            ⟨a.score + (call d found.2).1.score, (position, d) :: (call d found.2).1.pairs⟩
          else found.1, (call d found.2).2)) found
    done.1 = ds.foldl (fun best d =>
        match candidate details detectionCount left position mask d with
        | none => best
        | some c => if better c best then c else best) found.1 ∧
      Cached details trackCount detectionCount done.2 := by
  induction ds generalizing found with
  | nil => exact ⟨rfl, hfound⟩
  | cons d _ ih =>
    rw [List.foldl_cons, List.foldl_cons]
    unfold candidate
    cases hused : mask.testBit d with
    | true =>
      exact ih found hfound
    | false =>
      cases hknown : details.get? (position, d) with
      | none => exact ih found hfound
      | some a =>
        obtain ⟨hsame, hcached⟩ := hcall d found.2 hfound
        simp only [Option.map_some, hsame]
        exact ih _ hcached

theorem solveCached_eq (left position mask : Nat) (cache : Cache)
    (hleft : position + left = trackCount)
    (hcache : Cached details trackCount detectionCount cache) :
    (solveCached details detectionCount left position mask cache).1 =
        solve details detectionCount left position mask ∧
      Cached details trackCount detectionCount
        (solveCached details detectionCount left position mask cache).2 := by
  have hsub : trackCount - position = left := by omega
  induction left generalizing position mask cache with
  | zero =>
    unfold solveCached
    cases hget : cache.get? (position, mask) with
    | some s =>
      refine ⟨?_, hcache⟩
      rw [hcache position mask s hget, hsub]
    | none => exact ⟨rfl, hcache⟩
  | succ left ih =>
    unfold solveCached
    cases hget : cache.get? (position, mask) with
    | some s =>
      refine ⟨?_, hcache⟩
      rw [hcache position mask s hget, hsub]
    | none =>
      obtain ⟨hskip, hskipped⟩ := ih (position + 1) mask cache (by omega) hcache (by omega)
      obtain ⟨hbest, hdone⟩ := foldl_cached
        (fun d cache hcache => ih (position + 1) (mask ||| 1 <<< d) cache (by omega) hcache
          (by omega))
        (List.range detectionCount) _ hskipped
      rw [hskip] at hbest
      replace hbest := hbest.trans (solve_succ left position mask).symm
      refine ⟨hbest, fun a b s hs => ?_⟩
      rcases Dict.get?_insert_cases hs with ⟨hkey, rfl⟩ | ⟨-, hs⟩
      · cases hkey
        rwa [hsub]
      · exact hdone a b s hs

/-! ## The branch -/

/-- **The tables of `global_match`.** -/
theorem table_detailsByPair
    (h : detailsByPair math tracks detections frameIndex minScore = some details) :
    InRange details tracks.length detections.length ∧ Separated details ∧
      ∀ p a, details.get? p = some a → minScore ≤ a.score := by
  have hscored := scored_detailsByPair h
  refine ⟨hscored.inRange, separated_of_grid hscored.grid, ?_⟩
  refine some_foldlM (I := fun d : Details => ∀ p a, d.get? p = some a → minScore ≤ a.score) _ ?_
    (fun _ _ h => by cases h) h
  intro d _ _ hd _ hd'
  refine some_foldlM (I := fun d : Details => ∀ p a, d.get? p = some a →
    minScore ≤ a.score) _ ?_ hd hd'
  intro e _ _ he _ he'
  obtain ⟨b, -, rfl⟩ := Option.map_eq_some_iff.1 he'
  split
  · rename_i hmin
    intro p a ha
    rcases Dict.get?_insert_cases ha with ⟨-, rfl⟩ | ⟨-, ha⟩
    · exact hmin
    · exact he p a ha
  · exact he

/-- Two tracks and two persons that overlap, each with each. -/
theorem table_twoTracks : ∃ details,
    detailsByPair bodyOnly [trackAt "a" [0, 0, 9, 9], trackAt "b" [3, 0, 12, 9]]
        [(0, personAt [0, 0, 9, 9]), (1, personAt [3, 0, 12, 9])] 1 0 = some details ∧
      pairScore details (0, 1) + pairScore details (1, 0) <
        pairScore details (0, 0) + pairScore details (1, 1) ∧ 0 < pairScore details (0, 1) ∧
      InRange details 2 2 ∧ Separated details ∧
        ∀ p a, details.get? p = some a → 0 ≤ a.score := by
  have hscores : (detailsByPair bodyOnly [trackAt "a" [0, 0, 9, 9], trackAt "b" [3, 0, 12, 9]]
      [(0, personAt [0, 0, 9, 9]), (1, personAt [3, 0, 12, 9])] 1 0).any (fun details =>
        pairScore details (0, 1) + pairScore details (1, 0) <
          pairScore details (0, 0) + pairScore details (1, 1) ∧ 0 < pairScore details (0, 1)) =
            true := by decide +kernel
  obtain ⟨details, h, hscores⟩ := (Option.any_eq_true _ _).1 hscores
  obtain ⟨hless, hpos⟩ := of_decide_eq_true hscores
  exact ⟨details, h, hless, hpos, table_detailsByPair h⟩

/-- **The exact branch is exact.** Its pairs are in the order of their tracks, one for each track
and each detection at most, of scores that reach `min_score`; no other such tuple ranks higher; and
the cache makes no difference. -/
theorem exact_branch (details : Details) (trackCount detectionCount : Nat) (maxExactSize : Int)
    (minScore : ℚ) (hrange : InRange details trackCount detectionCount) (hsep : Separated details)
    (hmin : ∀ p a, details.get? p = some a → minScore ≤ a.score)
    (hsize : trackCount ≤ maxExactSize ∧ detectionCount ≤ maxExactSize) :
    let P := solverPairs details trackCount detectionCount maxExactSize
    Assigns details P ∧ (P.Pairwise fun p q => p.1 < q.1) ∧
      (∀ p ∈ P, minScore ≤ pairScore details p) ∧
      (∀ Q, Assigns details Q → (Q.Pairwise fun p q => p.1 < q.1) →
        rank (solution details Q) ≤ rank (solution details P)) ∧
      (solveCached details detectionCount trackCount 0 0 .empty).1.pairs = P := by
  obtain ⟨⟨htuple, hscore⟩, hbest⟩ := solve_exact hsep hrange trackCount 0 0 (by omega)
  have hsolver : solverPairs details trackCount detectionCount maxExactSize =
      (solve details detectionCount trackCount 0 0).pairs := by
    unfold solverPairs
    rw [if_neg (by omega)]
  have hsolution : solution details (solve details detectionCount trackCount 0 0).pairs =
      solve details detectionCount trackCount 0 0 := by
    unfold solution
    rw [← hscore]
  rw [hsolver]
  refine ⟨htuple.assigns, htuple.sorted, fun p hp => ?_, fun Q hQ hsorted => ?_, ?_⟩
  · obtain ⟨a, ha⟩ := Option.ne_none_iff_exists'.1 (htuple.assigns.known p hp)
    have hscore : pairScore details p = a.score := by simp [pairScore, ha]
    rw [hscore]
    exact hmin p a ha
  · rw [hsolution]
    exact hbest Q ⟨hQ, hsorted, fun q _ => ⟨Nat.zero_le _, Nat.zero_testBit _⟩⟩
  · rw [(solveCached_eq trackCount 0 0 .empty (Nat.zero_add _) cached_empty).1]

theorem crossed_exact :
    let P := solverPairs crossed 2 2 10
    Assigns crossed P ∧ (P.Pairwise fun p q => p.1 < q.1) ∧
      (∀ p ∈ P, 28 / 100 ≤ pairScore crossed p) ∧
      (∀ Q, Assigns crossed Q → (Q.Pairwise fun p q => p.1 < q.1) →
        rank (solution crossed Q) ≤ rank (solution crossed P)) ∧
      (solveCached crossed 2 2 0 0 .empty).1.pairs = P := by
  refine exact_branch crossed 2 2 10 (28 / 100) crossed_inRange (separated_of_grid fun p a hp => ?_)
    (fun p a hp => ?_) (by decide)
  · rcases crossed_cases hp with ⟨-, rfl⟩ | ⟨-, rfl⟩
    · exact ⟨900000, by norm_num [scoreOnly]⟩
    · exact ⟨300000, by norm_num [scoreOnly]⟩
  · rcases crossed_cases hp with ⟨-, rfl⟩ | ⟨-, rfl⟩ <;> decide +kernel

end Scenara.Tracking
