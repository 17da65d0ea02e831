import Mathlib.Data.List.Basic
import Mathlib.Data.List.Chain
import Mathlib.Data.Nat.Init

/-!
# Slices of a list

`slice a b us` is the half-open slice `us[a:b]`, `slices n us` the consecutive slices of length
`n` (the last one may be shorter). `lookback f previous xs` maps a list, giving `f` each element and
the one before it; a list that is mapped part by part loses what stands before each cut.
-/

namespace Scenara.Core

variable {α β : Type*}

/-- `us[a:b]`. -/
def slice (a b : Nat) (us : List α) : List α := (us.take b).drop a

@[simp] theorem slice_nil (a b : Nat) : slice a b ([] : List α) = [] := by simp [slice]

theorem slice_of_le {a b : Nat} (h : b ≤ a) (us : List α) : slice a b us = [] := by
  unfold slice
  rw [List.drop_eq_nil_iff, List.length_take]
  omega

theorem slice_of_length_le {a : Nat} {us : List α} (b : Nat) (h : us.length ≤ a) :
    slice a b us = [] := by
  unfold slice
  rw [List.drop_eq_nil_iff, List.length_take]
  omega

theorem slice_min_length (a b : Nat) (us : List α) :
    slice a (min us.length b) us = slice a b us := by
  unfold slice
  rcases Nat.le_total us.length b with h | h
  · rw [Nat.min_eq_left h, List.take_length, List.take_of_length_le h]
  · rw [Nat.min_eq_right h]

theorem slice_append (a b : Nat) (us vs : List α) :
    slice a b (us ++ vs) = slice a b us ++ slice (a - us.length) (b - us.length) vs := by
  unfold slice
  rw [List.take_append, List.drop_append, List.length_take]
  by_cases h : b ≤ us.length
  · rw [Nat.sub_eq_zero_of_le h]
    simp
  · rw [Nat.min_eq_right (by omega)]

/-! ## Equal slices -/

/-- `us[i : i + n] for i in range(0, len(us), n)`. -/
def slices (n : Nat) (us : List α) : List (List α) :=
  (List.range ((us.length + n - 1) / n)).map fun i => slice (i * n) (i * n + n) us

theorem flatten_map_slice (n : Nat) (us : List α) (k : Nat) :
    ((List.range k).map fun i => slice (i * n) (i * n + n) us).flatten = us.take (k * n) := by
  induction k with
  | zero => simp
  | succ k ih =>
    rw [List.range_succ, List.map_append, List.flatten_append, ih, Nat.succ_mul]
    have : us.take (k * n) = (us.take (k * n + n)).take (k * n) := by
      rw [List.take_take, Nat.min_eq_left (by omega)]
    rw [this]
    simp [slice]

theorem flatten_slices {n : Nat} (hn : 0 < n) (us : List α) : (slices n us).flatten = us := by
  unfold slices
  rw [flatten_map_slice, List.take_of_length_le]
  have h := Nat.div_add_mod (us.length + n - 1) n
  have hlt := Nat.mod_lt (us.length + n - 1) hn
  rw [Nat.mul_comm] at h
  omega

/-! ## A window over consecutive parts -/

/-- Of each part, from position `c` on, what lies in `[lo, hi)`; parts outside are skipped. -/
def overlaps (lo hi : Nat) : Nat → List (List α) → List α
  | _, [] => []
  | c, p :: ps =>
    (if c < hi ∧ lo < c + p.length then slice (lo - c) (min (c + p.length) hi - c) p else []) ++
      overlaps lo hi (c + p.length) ps

/-- **A window over the parts is the slice of the whole.** -/
theorem overlaps_eq (lo hi : Nat) (ps : List (List α)) (c : Nat) :
    overlaps lo hi c ps = slice (lo - c) (hi - c) ps.flatten := by
  induction ps generalizing c with
  | nil => simp [overlaps]
  | cons p _ ih =>
    unfold overlaps
    rw [ih, List.flatten_cons, slice_append, Nat.sub_sub, Nat.sub_sub]
    congr 1
    by_cases h : c < hi ∧ lo < c + p.length
    · rw [if_pos h, ← slice_min_length _ (hi - c)]
      congr 1
      omega
    · rw [if_neg h]
      by_cases hc : c < hi
      · exact (slice_of_length_le _ (by omega)).symm
      · exact (slice_of_le (by omega) _).symm

/-! ## Values that look one element back -/

variable {f : Option α → α → β}

/-- The value of each element, given the one before it. -/
def lookback (f : Option α → α → β) : Option α → List α → List β
  | _, [] => []
  | previous, x :: xs => f previous x :: lookback f (some x) xs

/-- The value of `y` behind `x` is the value of a first `y`. -/
def Unaware (f : Option α → α → β) (x y : α) : Prop := f none y = f (some x) y

@[simp] theorem lookback_nil (previous : Option α) : lookback f previous [] = [] := rfl

@[simp] theorem lookback_cons (previous : Option α) (x : α) (xs : List α) :
    lookback f previous (x :: xs) = f previous x :: lookback f (some x) xs := rfl

@[simp] theorem length_lookback (previous : Option α) (xs : List α) :
    (lookback f previous xs).length = xs.length := by
  induction xs generalizing previous with
  | nil => rfl
  | cons x _ ih => simp [ih]

theorem lookback_append (previous : Option α) (xs ys : List α) :
    lookback f previous (xs ++ ys) =
      lookback f previous xs ++ lookback f (xs.getLast?.or previous) ys := by
  induction xs generalizing previous with
  | nil => simp
  | cons x xs ih =>
    cases xs with
    | nil => simp
    | cons x' xs =>
      obtain ⟨z, hz⟩ : ∃ z, (x' :: xs).getLast? = some z :=
        ⟨_, List.getLast?_eq_some_getLast (by simp)⟩
      have h := ih (some x)
      rw [hz, Option.some_or] at h
      rw [List.getLast?_cons_cons, hz, Option.some_or, List.cons_append, lookback_cons, h,
        lookback_cons, List.cons_append]
      rfl

theorem map_lookback {γ : Type*} (g : β → γ) (previous : Option α) (xs : List α) :
    (lookback f previous xs).map g = lookback (fun p x => g (f p x)) previous xs := by
  induction xs generalizing previous with
  | nil => rfl
  | cons x _ ih => simp [ih]

theorem lookback_congr {p q : Option α} {ys : List α} (h : ∀ y ∈ ys.head?, f p y = f q y) :
    lookback f p ys = lookback f q ys := by
  cases ys with
  | nil => rfl
  | cons y => rw [lookback_cons, lookback_cons, h y (by simp)]

/-- **Part by part.** When no element needs the one before it, the parts give the whole. -/
theorem flatMap_lookback (parts : List (List α)) (h : parts.flatten.IsChain (Unaware f)) :
    parts.flatMap (lookback f none) = lookback f none parts.flatten := by
  induction parts with
  | nil => rfl
  | cons part _ ih =>
    rw [List.flatten_cons, List.isChain_append] at h
    rw [List.flatMap_cons, List.flatten_cons, lookback_append, ih h.2.1, Option.or_none]
    congr 1
    refine lookback_congr fun y hy => ?_
    cases hp : part.getLast? with
    | none => rfl
    | some x => exact h.2.2 x hp y hy

theorem map_eq_lookback (x : α) (xs : List α) :
    xs.map (f none) = lookback f (some x) xs ↔ (x :: xs).IsChain (Unaware f) := by
  induction xs generalizing x with
  | nil => simp
  | cons y _ ih =>
    rw [List.map_cons, lookback_cons, List.cons.injEq, ih, List.isChain_cons_cons]
    rfl

/-- **One by one.** Parts of one element give the whole exactly when no element needs the one before
it. -/
theorem map_eq_lookback_iff (xs : List α) :
    xs.map (f none) = lookback f none xs ↔ xs.IsChain (Unaware f) := by
  cases xs with
  | nil => simp
  | cons x =>
    rw [List.map_cons, lookback_cons, List.cons.injEq, map_eq_lookback]
    simp

theorem flatMap_of_length_le_one (parts : List (List α)) (h : ∀ part ∈ parts, part.length ≤ 1) :
    parts.flatMap (lookback f none) = parts.flatten.map (f none) := by
  induction parts with
  | nil => rfl
  | cons part _ ih =>
    rw [List.forall_mem_cons] at h
    rw [List.flatMap_cons, List.flatten_cons, List.map_append, ih h.2]
    congr 1
    cases part with
    | nil => rfl
    | cons x xs =>
      have hxs : xs = [] := by
        rw [← List.length_eq_zero_iff]
        have := h.1
        rw [List.length_cons] at this
        omega
      subst hxs
      rfl

/-! ## Two selections of the same elements -/

section Selection

variable {ι γ : Type*} {g h : ι → Option γ} {P : ι → Prop} {S : γ → Prop}

theorem length_filterMap_le (hg : ∀ i, ∀ o ∈ g i, S o → P i) (heq : ∀ i, P i → g i = h i)
    (is : List ι)
    (hS : ∀ o ∈ is.filterMap g, S o) : (is.filterMap g).length ≤ (is.filterMap h).length := by
  induction is with
  | nil => simp
  | cons i _ ih =>
    rw [List.filterMap_cons] at hS ⊢
    rw [List.filterMap_cons]
    cases hgi : g i with
    | none =>
      rw [hgi] at hS
      refine (ih hS).trans ?_
      cases h i <;> simp
    | some o =>
      rw [hgi] at hS
      rw [← heq i (hg i o hgi (hS o List.mem_cons_self)), hgi]
      have := ih fun o' ho => hS o' (List.mem_cons_of_mem o ho)
      simp only [List.length_cons]
      omega

/-- **When two selections agree.** On `P` they select the same; where `P` fails, `g` selects nothing
in `S`, and all that `h` selects is in `S`. They agree when off `P` both select nothing. -/
theorem filterMap_eq_iff (hg : ∀ i, ∀ o ∈ g i, S o → P i) (heq : ∀ i, P i → g i = h i)
    (hh : ∀ i, ∀ o ∈ h i, S o) (is : List ι) :
    is.filterMap g = is.filterMap h ↔ ∀ i ∈ is, P i ∨ g i = none ∧ h i = none := by
  constructor
  · induction is with
    | nil => simp
    | cons i is ih =>
      intro hall
      have hS : ∀ o ∈ (i :: is).filterMap g, S o := by
        intro o ho
        rw [hall] at ho
        obtain ⟨j, -, hj⟩ := List.mem_filterMap.1 ho
        exact hh j o hj
      rw [List.forall_mem_cons]
      rw [List.filterMap_cons, List.filterMap_cons] at hall
      rw [List.filterMap_cons] at hS
      cases hgi : g i with
      | none =>
        cases hhi : h i with
        | none =>
          rw [hgi, hhi] at hall
          exact ⟨.inr ⟨rfl, rfl⟩, ih hall⟩
        | some o =>
          rw [hgi] at hS
          rw [hgi, hhi] at hall
          have hle := length_filterMap_le hg heq is hS
          have hlength := congrArg List.length hall
          dsimp only at hlength
          rw [List.length_cons] at hlength
          omega
      | some o =>
        rw [hgi] at hS
        have hP := hg i o hgi (hS o List.mem_cons_self)
        rw [← heq i hP, hgi] at hall
        exact ⟨.inl hP, ih (List.cons.inj hall).2⟩
  · intro hall
    refine List.filterMap_congr fun i hi => ?_
    rcases hall i hi with hP | ⟨hg, hh⟩
    · exact heq i hP
    · rw [hg, hh]

end Selection

end Scenara.Core
