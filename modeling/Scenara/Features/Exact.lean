import Mathlib.Order.WithBotTop
import Scenara.Features.Agreed

/-!
# Searching what was stored

`add` takes every finite vector of the dimension of its space. `compare_embeddings` raises on some
of them: by the cosine where a norm is zero, a norm that underflows included, and in an L2 space
where a square overflows. Here, unlike in the model of the store, floats are not exact.
-/

namespace Scenara.Features

open Scenara.Core

variable {g : Geometry} {s : Store} {space : FeatureSpace}

/-- A stored feature fits its space; its vector may be zero. -/
def Fitted (s : Store) : Prop :=
  ∀ key feature, s.features.get? key = some feature →
    ∃ space, s.spaces.get? feature.featureSpaceId = some space ∧ Normal space feature.embedding

theorem fitted_insertSpace (h : Fitted s)
    (hsame : ∀ old, s.spaces.get? space.featureSpaceId = some old →
      old.dimension = space.dimension) :
    Fitted { s with spaces := s.spaces.insert space.featureSpaceId space } := by
  intro key feature hfeature
  obtain ⟨old, hold, hnormal⟩ := h key feature hfeature
  rw [Dict.get?_insert]
  by_cases hid : feature.featureSpaceId = space.featureSpaceId
  · rw [hid] at hold
    exact ⟨space, if_pos hid, hnormal.1.trans (hsame old hold), hnormal.2⟩
  · exact ⟨old, (if_neg hid).trans hold, hnormal⟩

theorem fitted_createSpace (h : Fitted s) (space : FeatureSpace) :
    Fitted (s.createSpace space).2 := by
  unfold Store.createSpace
  split
  · rename_i existing hget
    split
    · exact h
    · rename_i hcontract
      refine fitted_insertSpace h fun old hold => ?_
      rw [hget] at hold
      cases hold
      have hequal : existing.contract = space.contract := not_not.1 hcontract
      exact (FeatureSpace.mk.inj hequal).2.2.2.2.2.1
  · rename_i hget
    exact fitted_insertSpace h fun old hold => by rw [hget] at hold; cases hold

theorem fitted_add (h : Fitted s) (feature : FeatureRecord) : Fitted (s.add feature).2 := by
  unfold Store.add
  split
  · exact h
  · rename_i space hspace
    split
    · exact h
    · rename_i hnormalized
      split
      · exact h
      · intro key stored hget
        rw [Dict.get?_insert] at hget
        split_ifs at hget
        · cases hget
          refine ⟨space, hspace, ?_⟩
          by_contra hnot
          obtain ⟨_, hraised⟩ := normalizeEmbedding_of_not hnot
          simp [hraised] at hnormalized
        · exact h key stored hget

theorem fitted_discard (h : Fitted s) (p : FeatureKey → FeatureRecord → Bool) :
    Fitted (s.discard p) := by
  intro key feature hget
  unfold Store.discard at hget
  rw [Dict.get?_filter] at hget
  exact h key feature (Option.filter_eq_some_iff.1 hget).1

theorem fitted_call (h : Fitted s) (call : Call) : Fitted (call.onMemory g s).2 := by
  cases call with
  | createSpace space => exact fitted_createSpace h space
  | add feature => exact fitted_add h feature
  | deleteFeature key =>
    intro other feature hget
    change (s.features.erase key).get? other = some feature at hget
    rw [Dict.get?_erase] at hget
    split_ifs at hget
    exact h other feature hget
  | deleteSubject => exact fitted_discard h _
  | deleteExpired =>
    simp only [Call.onMemory, Store.deleteExpired, Prod.map_snd]
    split
    · exact h
    · exact fitted_discard h _
  | search _ _ _ _ _ _ _ | getFeature _ | listSubjectFeatures _ _ _ _ _ => exact h

/-- What the calls leave. -/
def storedBy (g : Geometry) (calls : List Call) : Store :=
  calls.foldl (fun s call => (call.onMemory g s).2) .empty

theorem fitted_storedBy (g : Geometry) (calls : List Call) : Fitted (storedBy g calls) := by
  induction calls using List.reverseRecOn with
  | nil => exact nofun
  | append_singleton _ call ih =>
    unfold storedBy
    rw [List.foldl_append]
    exact fitted_call ih call

/-! ## Floats -/

/-- A float: a rational or an infinity, or `⊥`, which is not a number. -/
abbrev Double := WithBot (WithBot (WithTop ℚ))

/-- What `compare_embeddings` raises. -/
inductive ComparisonError where
  | featureStoreError (message : String)
  | overflowError
  | zeroDivisionError
  deriving DecidableEq

/-- The operations of floats, with their roundings, overflows and underflows. -/
structure Arithmetic where
  add : Double → Double → Double
  sub : Double → Double → Double
  mul : Double → Double → Double
  neg : Double → Double
  sqrt : Double → Double
  sum : List Double → Double
  /-- `x / y`; it raises `ZeroDivisionError`. -/
  div : Double → Double → Except ComparisonError Double
  /-- `x ** 2`; it raises `OverflowError`. -/
  square : Double → Except ComparisonError Double

/-- `min(bound, x)`, in which what is not a number is not smaller. -/
def least (bound x : Double) : Double := if x ≠ ⊥ ∧ x < bound then x else bound

/-- `max(bound, x)`. -/
def greatest (bound x : Double) : Double := if x ≠ ⊥ ∧ bound < x then x else bound

namespace Arithmetic

variable (a : Arithmetic)

/-- `math.sqrt(sum(value * value for value in vector))`. -/
def norm (vector : List Double) :
    Double := a.sqrt (a.sum (vector.map fun value => a.mul value value))

/-- `compare_embeddings`, of vectors that are normalized: the score and the distance. -/
def compare : Metric → List Double → List Double → Except ComparisonError (Double × Double)
  | .cosine, left, right => do
    if a.norm left = (0 : ℚ) ∨ a.norm right = (0 : ℚ) then
      throw (.featureStoreError "cosine comparison rejects a zero vector")
    let score ← a.div (a.sum (List.zipWith a.mul left right)) (a.mul (a.norm left) (a.norm right))
    let score := greatest (-1 : ℚ) (least (1 : ℚ) score)
    return (score, a.sub (1 : ℚ) score)
  | .l2, left, right => do
    let squares ← (List.zipWith a.sub left right).mapM a.square
    let distance := a.sqrt (a.sum squares)
    let score ← a.div (1 : ℚ) (a.add (1 : ℚ) distance)
    return (score, distance)
  | .innerProduct, left, right =>
    let score := a.sum (List.zipWith a.mul left right)
    .ok (score, a.neg score)

end Arithmetic

/-- The floats of a vector. -/
def doubles (vector : List Scalar) : List Double := (numbers vector).map fun x : ℚ => (x : Double)

/-- What `normalize_embedding` raises is raised. -/
def raisedBy {α : Type} : Except Error α → Except ComparisonError α
  | .ok x => .ok x
  | .error (.featureStoreError message) => .error (.featureStoreError message)
  | .error .databaseError => .error (.featureStoreError "")

/-- `compare_embeddings`. -/
def compareDoubles (a : Arithmetic) (space : FeatureSpace) (left right : List Scalar) :
    Except ComparisonError (Double × Double) := do
  let _ ← raisedBy (normalizeEmbedding left space.dimension)
  let _ ← raisedBy (normalizeEmbedding right space.dimension)
  a.compare space.distanceMetric (doubles left) (doubles right)

/-- `FeatureMatch`. -/
structure DoubleMatch where
  featureId : String
  subjectType : String
  subjectId : String
  score : Double
  distance : Double

/-- The match of a feature. -/
def FeatureRecord.matched (feature : FeatureRecord) (compared : Double × Double) : DoubleMatch :=
  ⟨feature.featureId, feature.subjectType, feature.subjectId, compared.1, compared.2⟩

/-- `score >= cutoff`, of which a score that is no number has none. -/
def DoubleMatch.reaches (cutoff : Option ℚ) (found : DoubleMatch) : Bool :=
  cutoff.all fun cutoff => ((cutoff : ℚ) : Double) ≤ found.score

/-- `(-score, distance, feature_id)`. -/
def DoubleMatch.better (x y : DoubleMatch) : Prop :=
  y.score < x.score ∨ (x.score = y.score ∧ (x.distance < y.distance ∨
    (x.distance = y.distance ∧ x.featureId ≤ y.featureId)))
  deriving Decidable

instance : Std.Total DoubleMatch.better :=
  have : Std.Total fun x y : DoubleMatch => x.featureId ≤ y.featureId := ⟨fun _ _ => le_total _ _⟩
  have := total_thenBy (fun x : DoubleMatch => x.distance) fun x y => x.featureId ≤ y.featureId
  total_thenBy (fun x : DoubleMatch => OrderDual.toDual x.score)
    (thenBy (fun x => x.distance) fun x y => x.featureId ≤ y.featureId)

instance : IsTrans DoubleMatch DoubleMatch.better :=
  have : IsTrans DoubleMatch fun x y => x.featureId ≤ y.featureId :=
    ⟨fun _ _ _ hxy hyz => hxy.trans hyz⟩
  have := trans_thenBy (f := fun x : DoubleMatch => x.distance)
    (r := fun x y => x.featureId ≤ y.featureId)
  trans_thenBy (f := fun x : DoubleMatch => OrderDual.toDual x.score)
    (r := thenBy (fun x => x.distance) fun x y => x.featureId ≤ y.featureId)

/-- The loop of `search`. -/
def matchesOf (a : Arithmetic) (space : FeatureSpace) (embedding : List Scalar)
    (cutoff : Option ℚ) : List FeatureRecord → Except ComparisonError (List DoubleMatch)
  | [] => .ok []
  | feature :: features => do
    let compared ← compareDoubles a space embedding feature.embedding
    let found ← matchesOf a space embedding cutoff features
    return if (feature.matched compared).reaches cutoff then feature.matched compared :: found
      else found

/-- `search`. Matches that are no numbers come last here; Python leaves the list in some order. -/
def Store.searchDoubles (s : Store) (a : Arithmetic) (tenantId projectId featureSpaceId : String)
    (embedding : List Scalar) (limit : Int) (threshold : Option ℚ) (now : ℚ) :
    Except ComparisonError (List DoubleMatch) :=
  if ¬(1 ≤ limit ∧ limit ≤ 1000) then
    .error (.featureStoreError "feature search limit must be between 1 and 1000")
  else
    match s.spaces.get? featureSpaceId with
    | none => .error (.featureStoreError "feature space does not exist")
    | some space => do
      let found ← matchesOf a space embedding (threshold.or space.threshold)
        (s.live tenantId projectId featureSpaceId now)
      return (found.insertionSort DoubleMatch.better).take limit.toNat

/-! ## The matches -/

variable {a : Arithmetic} {embedding : List Scalar} {cutoff : Option ℚ}
    {features : List FeatureRecord}

/-- All matches of the features that can be compared. -/
def allMatches (a : Arithmetic) (space : FeatureSpace) (embedding : List Scalar) (cutoff : Option ℚ)
    (features : List FeatureRecord) : List DoubleMatch :=
  (features.filterMap fun feature => ((a.compare space.distanceMetric (doubles embedding)
    (doubles feature.embedding)).toOption.map feature.matched)).filter (·.reaches cutoff)

/-- The feature can be compared: no norm is zero, and no square overflows. -/
def Comparable (a : Arithmetic) (space : FeatureSpace) (embedding : List Scalar)
    (feature : FeatureRecord) : Prop :=
  (a.compare space.distanceMetric (doubles embedding) (doubles feature.embedding)).isOk = true
  deriving Decidable

theorem compareDoubles_of_normal {left right : List Scalar} (hleft : Normal space left)
    (hright : Normal space right) : compareDoubles a space left right =
      a.compare space.distanceMetric (doubles left) (doubles right) := by
  unfold compareDoubles
  rw [normalizeEmbedding_of_normal hleft, normalizeEmbedding_of_normal hright]
  rfl

theorem exists_of_isOk {α β : Type} {x : Except α β} (h : x.isOk = true) : ∃ y, x = .ok y := by
  cases x with
  | ok y => exact ⟨y, rfl⟩
  | error => cases h

theorem matchesOf_eq_ok {found : List DoubleMatch} (hquery : Normal space embedding)
    (h : ∀ feature ∈ features, Normal space feature.embedding) :
    matchesOf a space embedding cutoff features = .ok found ↔
      (∀ feature ∈ features, Comparable a space embedding feature) ∧
        found = allMatches a space embedding cutoff features := by
  induction features generalizing found with
  | nil => simp [matchesOf, allMatches, eq_comm]
  | cons feature features ih =>
    have hrest := fun found => @ih found fun other hother =>
      h other (List.mem_cons_of_mem _ hother)
    rw [matchesOf, compareDoubles_of_normal hquery (h feature List.mem_cons_self), bind_eq_ok,
      List.forall_mem_cons]
    constructor
    · rintro ⟨compared, hcompared, hfound⟩
      obtain ⟨rest, hmatches, hfound⟩ := bind_eq_ok.1 hfound
      obtain ⟨hall, rfl⟩ := (hrest rest).1 hmatches
      cases hfound
      refine ⟨⟨congrArg Except.isOk hcompared, hall⟩, ?_⟩
      unfold allMatches
      rw [List.filterMap_cons, hcompared]
      exact (List.filter_cons ..).symm
    · rintro ⟨⟨hcomparable, hall⟩, rfl⟩
      obtain ⟨compared, hcompared⟩ := exists_of_isOk hcomparable
      refine ⟨compared, hcompared, bind_eq_ok.2 ⟨_, (hrest _).2 ⟨hall, rfl⟩, ?_⟩⟩
      unfold allMatches
      rw [List.filterMap_cons, hcompared]
      exact congrArg Except.ok (List.filter_cons ..).symm

/-- The score and the distance are numbers. -/
def DoubleMatch.Numeric (found : DoubleMatch) : Prop := found.score ≠ ⊥ ∧ found.distance ≠ ⊥

/-- The first of some matches, by falling score, then by the distance, then by the feature. A score
that is no number has no place in the order. -/
def Top (limit : Nat) (all found : List DoubleMatch) : Prop :=
  ∃ sorted : List DoubleMatch, sorted.Perm all ∧
    sorted.Pairwise (fun x y => x.better y ∧ x.Numeric ∧ y.Numeric) ∧ found = sorted.take limit

theorem forall_of_pairwise {α : Type} {p : α → Prop} {l : List α}
    (h : l.Pairwise fun x y => p x ∧ p y) (hlength : 1 < l.length) : ∀ x ∈ l, p x := by
  match l, hlength with
  | x :: y :: l, _ =>
    rw [List.pairwise_cons] at h
    rintro z hz
    rcases List.mem_cons.1 hz with rfl | hz
    · exact (h.1 y List.mem_cons_self).1
    · exact (h.1 z hz).2

/-- Matches are put in order exactly when they are numbers, or there is nothing to order. -/
theorem top_iff (limit : Nat) (all : List DoubleMatch) :
    Top limit all ((all.insertionSort DoubleMatch.better).take limit) ↔
      (∀ found ∈ all, found.Numeric) ∨ all.length ≤ 1 := by
  constructor
  · rintro ⟨sorted, hperm, hsorted, -⟩
    refine or_iff_not_imp_right.2 fun hlength found hfound => ?_
    refine forall_of_pairwise (hsorted.imp fun h => h.2) ?_ found (hperm.mem_iff.2 hfound)
    rw [hperm.length_eq]
    omega
  · intro h
    refine ⟨_, List.perm_insertionSort _ all, ?_, rfl⟩
    rcases h with hnumeric | hlength
    · have hmem := fun x hx => hnumeric x ((List.mem_insertionSort DoubleMatch.better).1 hx)
      exact (List.pairwise_insertionSort _ all).imp_of_mem fun hx hy h => ⟨h, hmem _ hx, hmem _ hy⟩
    · match all, hlength with
      | [], _ => exact .nil
      | [_], _ => exact List.pairwise_singleton ..

section Searches

variable (tenantId projectId featureSpaceId : String) (embedding : List Scalar) (limit : Int)
  (threshold : Option ℚ) (now : ℚ)

/-- The matches of a search. -/
def Store.matches (s : Store) (a : Arithmetic) (space : FeatureSpace) : List DoubleMatch :=
  allMatches a space embedding (threshold.or space.threshold)
    (s.live tenantId projectId featureSpaceId now)

/-- **A search** returns the first of all matches exactly when every feature that is met can be
compared to the query, and the scores and distances are numbers where there is more than one
match. -/
theorem search_exact_iff (a : Arithmetic) (g : Geometry) (calls : List Call) {space : FeatureSpace}
    (hspace : (storedBy g calls).spaces.get? featureSpaceId = some space)
    (hquery : Normal space embedding) (hlimit : 1 ≤ limit ∧ limit ≤ 1000) :
    (∃ found, (storedBy g calls).searchDoubles a tenantId projectId featureSpaceId embedding limit
        threshold now = .ok found ∧
      Top limit.toNat ((storedBy g calls).matches tenantId projectId featureSpaceId embedding
        threshold now a space) found) ↔
      (∀ feature ∈ (storedBy g calls).live tenantId projectId featureSpaceId now,
        Comparable a space embedding feature) ∧
      ((∀ found ∈ (storedBy g calls).matches tenantId projectId featureSpaceId embedding threshold
          now a space, found.Numeric) ∨
        ((storedBy g calls).matches tenantId projectId featureSpaceId embedding threshold
          now a space).length ≤ 1) := by
  have hnormal : ∀ feature ∈ (storedBy g calls).live tenantId projectId featureSpaceId now,
      Normal space feature.embedding := by
    intro _ hfeature
    obtain ⟨row, hrow, rfl⟩ := List.mem_map.1 hfeature
    obtain ⟨hentry, hkept⟩ := List.mem_filter.1 hrow
    obtain ⟨_, hstored, hnormal⟩ :=
      fitted_storedBy g calls row.1 row.2 ((Dict.mem_entries _ _ _).1 hentry)
    simp only [Bool.and_eq_true, decide_eq_true_eq] at hkept
    rw [hkept.1.2, hspace] at hstored
    cases hstored
    exact hnormal
  unfold Store.searchDoubles
  rw [if_neg (not_not.2 hlimit), hspace, ← top_iff limit.toNat]
  dsimp only
  constructor
  · rintro ⟨found, hfound, htop⟩
    obtain ⟨_, hmatches, hsorted⟩ := bind_eq_ok.1 hfound
    obtain ⟨hcomparable, rfl⟩ := (matchesOf_eq_ok hquery hnormal).1 hmatches
    cases hsorted
    exact ⟨hcomparable, htop⟩
  · rintro ⟨hcomparable, htop⟩
    exact ⟨_, bind_eq_ok.2 ⟨_, (matchesOf_eq_ok hquery hnormal).2 ⟨hcomparable, rfl⟩, rfl⟩, htop⟩

end Searches

/-! ## What cannot be compared -/

/-- The operation on numbers. -/
def lift (f : ℚ → ℚ → ℚ) : Double → Double → Double := WithBot.map₂ (WithBot.map₂ (WithTop.map₂ f))

/-- The number of a float, if it has one. -/
def Double.value (x : Double) : Option ℚ := (x : Option (Option (Option ℚ))).join.join

/-- Numbers are exact, but for what is beyond the exponents of binary64: squares overflow, and
products underflow. Roots are those of `Geometry.squares`. -/
def bounded : Arithmetic where
  add := lift (· + ·)
  sub := lift (· - ·)
  mul := lift fun x y => if |x * y| ≤ 1 / 2 ^ 1075 then 0 else x * y
  neg := lift (fun x y => y - x) (0 : ℚ)
  sqrt x := match x.value with
    | some x => (Geometry.squares.sqrt x : ℚ)
    | none => ⊥
  sum xs := xs.foldr (lift (· + ·)) (0 : ℚ)
  div x y := if y = (0 : ℚ) then .error .zeroDivisionError else .ok (lift (· / ·) x y)
  square x :=
    if (x.value).any fun x => 2 ^ 1024 ≤ x * x then .error .overflowError
    else .ok (lift (fun x _ => x * x) x (0 : ℚ))

/-- A space that is searched by the metric, and a feature at `value`. -/
def facing (metric : Metric) (value : ℚ) : List Call :=
  [.createSpace { faces with distanceMetric := metric } 0, .add (face "acme" "f1" value none)]

theorem search_exact_facing : ∃ found,
    (storedBy .squares (facing .cosine 2)).searchDoubles bounded "acme" "gate" "faces" [some 1] 5
        none 4 = .ok found ∧
      Top 5 ((storedBy .squares (facing .cosine 2)).matches "acme" "gate" "faces" [some 1] none
        4 bounded { faces with distanceMetric := .cosine }) found :=
  (search_exact_iff "acme" "gate" "faces" [some 1] 5 none 4 bounded .squares (facing .cosine 2)
    (by decide +kernel) (by decide +kernel) (by decide)).2
    ⟨by decide +kernel, .inr (by decide +kernel)⟩

/-- A search for the query raises, where one feature at the place is stored. -/
def Raises (metric : Metric) (value query : ℚ) : Prop :=
  ((storedBy .squares (facing metric value)).searchDoubles bounded "acme" "gate" "faces"
    [some query] 5
    none 4).isOk = false
  deriving Decidable

/-- **What cannot be compared**: a zero vector, one whose norm underflows, and one at a distance
whose square overflows. -/
theorem raises_of_one : Raises .cosine 0 1 ∧ Raises .cosine (1 / 10 ^ 200) 1 ∧
    Raises .l2 (10 ^ 200) 0 := by
  decide +kernel

/-- One feature at zero, and every search of the space raises. -/
theorem search_broken : ¬∀ (a : Arithmetic) (calls : List Call) (embedding : List Scalar)
    (space : FeatureSpace), (storedBy .squares calls).spaces.get? "faces" = some space →
      Normal space embedding → Directed space embedding →
      ∃ found, (storedBy .squares calls).searchDoubles a "acme" "gate" "faces" embedding 5 none 4 =
          .ok found ∧
        Top 5 ((storedBy .squares calls).matches "acme" "gate" "faces" embedding none 4 a space)
          found := by
  intro h
  obtain ⟨_, hfound, -⟩ := h bounded (facing .cosine 0) [some 1]
    { faces with distanceMetric := .cosine } (by decide +kernel) (by decide +kernel)
      (by decide +kernel)
  have hraises := raises_of_one.1
  unfold Raises at hraises
  rw [hfound] at hraises
  cases hraises

end Scenara.Features
