import Mathlib.Data.List.Perm.Subperm
import Mathlib.Data.List.Sort

/-!
# Sorting by two orders

`thenBy` breaks the ties of one order by another. A filter that the order respects may come before
or after the cut (`filter_take`).
-/

namespace Scenara.Core

section ThenBy

variable {α β : Type*} [LinearOrder β] (f : α → β) (r : α → α → Prop)

/-- By a value, and by `r` where it is the same. -/
def thenBy (x y : α) : Prop := f x < f y ∨ (f x = f y ∧ r x y)

theorem total_thenBy [Std.Total r] : Std.Total (thenBy f r) := by
  refine ⟨fun x y => ?_⟩
  rcases lt_trichotomy (f x) (f y) with hlt | heq | hgt
  · exact .inl (.inl hlt)
  · exact (Std.Total.total x y).imp (fun h => .inr ⟨heq, h⟩) fun h => .inr ⟨heq.symm, h⟩
  · exact .inr (.inl hgt)

theorem trans_thenBy [IsTrans α r] : IsTrans α (thenBy f r) := by
  refine ⟨fun x y z hxy hyz => ?_⟩
  rcases hxy with hxy | ⟨hxy, hr⟩ <;> rcases hyz with hyz | ⟨hyz, hr'⟩
  · exact .inl (hxy.trans hyz)
  · exact .inl (hxy.trans_eq hyz)
  · exact .inl (hxy.trans_lt hyz)
  · exact .inr ⟨hxy.trans hyz, IsTrans.trans x y z hr hr'⟩

variable {f r}

theorem thenBy.both {x y : α} (hxy : thenBy f r x y) (hyx : thenBy f r y x) :
    f x = f y ∧ r x y ∧ r y x := by
  rcases hxy with hlt | ⟨heq, hxy⟩ <;> rcases hyx with hlt' | ⟨heq', hyx⟩
  · exact absurd hlt hlt'.asymm
  · exact absurd heq' hlt.ne'
  · exact absurd heq hlt'.ne'
  · exact ⟨heq, hxy, hyx⟩

end ThenBy

variable {α : Type*} {r r' : α → α → Prop} [DecidableRel r] [DecidableRel r'] {l l' : List α}

/-- Where what `p` holds of comes first, it does not matter whether it is filtered before it is cut
off. -/
theorem filter_take {p : α → Bool} (h : l.Pairwise fun x y => p y = true → p x = true) (n : Nat) :
    (l.take n).filter p = (l.filter p).take n := by
  induction l generalizing n with
  | nil => rw [List.take_nil, List.filter_nil, List.take_nil]
  | cons x l ih =>
    obtain ⟨hfirst, hrest⟩ := List.pairwise_cons.1 h
    cases n with
    | zero => rw [List.take_zero, List.take_zero, List.filter_nil]
    | succ n =>
      rw [List.take_succ_cons]
      by_cases hx : p x = true
      · rw [List.filter_cons_of_pos hx, List.filter_cons_of_pos hx, List.take_succ_cons, ih hrest]
      · have hnone : ∀ y ∈ l, ¬p y = true := fun y hy hp => hx (hfirst y hy hp)
        rw [List.filter_cons_of_neg hx, List.filter_cons_of_neg hx, List.filter_eq_nil_iff.2 hnone,
          List.take_nil]
        exact List.filter_eq_nil_iff.2 fun y hy => hnone y (List.mem_of_mem_take hy)

theorem insertionSort_congr [Std.Total r] [IsTrans α r] [Std.Total r'] [IsTrans α r']
    (hanti : ∀ x ∈ l, ∀ y ∈ l, r x y → r y x → x = y) (hle : ∀ x ∈ l, ∀ y ∈ l, r' x y → r x y)
    (h : l.Perm l') : l.insertionSort r = l'.insertionSort r' := by
  have hmem : ∀ x ∈ l'.insertionSort r', x ∈ l :=
    fun x hx => h.mem_iff.2 ((List.mem_insertionSort r').1 hx)
  have hperm : (l.insertionSort r).Perm (l'.insertionSort r') :=
    (List.perm_insertionSort r l).trans (h.trans (List.perm_insertionSort r' l').symm)
  have hsorted : (l'.insertionSort r').Pairwise r :=
    (List.pairwise_insertionSort r' l').imp_of_mem fun hx hy => hle _ (hmem _ hx) _ (hmem _ hy)
  refine hperm.eq_of_pairwise (fun x y hx hy => ?_) (List.pairwise_insertionSort r l) hsorted
  exact hanti x ((List.mem_insertionSort r).1 hx) y (hmem y hy)

/-- How many rows come before the row. -/
def ahead (r : α → α → Prop) [DecidableRel r] (l : List α) (x : α) :
    Nat := l.countP fun y => decide (¬ r x y)

section

variable (hanti : ∀ x ∈ l, ∀ y ∈ l, r x y → r y x → x = y) (hnodup : l.Nodup)
include hanti hnodup

theorem mem_take_insertionSort [Std.Total r] [IsTrans α r] {n : Nat} {x : α} :
    x ∈ (l.insertionSort r).take n ↔ x ∈ l ∧ ahead r l x < n := by
  have hperm := List.perm_insertionSort r l
  unfold ahead
  rw [← hperm.countP_eq, ← hperm.mem_iff]
  suffices hmem : x ∈ l.insertionSort r → (x ∈ (l.insertionSort r).take n ↔
      (l.insertionSort r).countP (fun y => decide (¬ r x y)) < n) from
    ⟨fun hx => ⟨List.mem_of_mem_take hx, (hmem (List.mem_of_mem_take hx)).1 hx⟩,
      fun hx => (hmem hx.1).2 hx.2⟩
  intro hx
  have hpairwise := List.pairwise_insertionSort r l
  have hdistinct := hperm.nodup_iff.2 hnodup
  obtain ⟨pre, post, hsplit⟩ := List.append_of_mem hx
  rw [hsplit] at hpairwise hdistinct
  obtain ⟨-, hrest, hbefore⟩ := List.pairwise_append.1 hpairwise
  have hnew := List.nodup_middle.1 hdistinct
  rw [List.nodup_cons, List.mem_append, not_or] at hnew
  have hpre : ∀ y ∈ pre, ¬ r x y := by
    intro y hy hxy
    have hyx := hbefore y hy x List.mem_cons_self
    have hin : y ∈ l := hperm.mem_iff.1 (hsplit ▸ List.mem_append_left _ hy)
    exact hnew.1.1 (hanti x (hperm.mem_iff.1 hx) y hin hxy hyx ▸ hy)
  have hpost : ∀ y ∈ x :: post, r x y := by
    intro y hy
    rcases List.mem_cons.1 hy with rfl | hy
    · exact (Std.Total.total y y).elim id id
    · exact (List.pairwise_cons.1 hrest).1 y hy
  have hzero : (x :: post).countP (fun y => decide (¬ r x y)) = 0 :=
    List.countP_eq_zero.2 fun y hy => by simpa using hpost y hy
  rw [hsplit, List.countP_append, List.countP_eq_length.2 fun y hy => decide_eq_true (hpre y hy),
    hzero, Nat.add_zero, List.take_append, List.mem_append]
  constructor
  · rintro (hin | hin)
    · exact absurd (List.mem_of_mem_take hin) hnew.1.1
    · by_contra hle
      simp [Nat.sub_eq_zero_of_le (Nat.le_of_not_lt hle)] at hin
  · intro hlt
    obtain ⟨m, hm⟩ := Nat.exists_eq_add_of_lt hlt
    refine .inr ?_
    rw [hm, show pre.length + m + 1 - pre.length = m + 1 by omega]
    exact List.mem_cons_self

/-- **The first rows by two orders** are the same when the first by the one come before its others
in the other. -/
theorem take_insertionSort_perm [Std.Total r] [IsTrans α r] [Std.Total r'] [IsTrans α r']
    (h : l.Perm l') {n : Nat}
    (hahead : ∀ x ∈ l, ∀ y ∈ l, ahead r l x < n → n ≤ ahead r l y → ¬ r' y x) :
    ((l'.insertionSort r').take n).Perm ((l.insertionSort r).take n) := by
  have hfirst : ∀ x ∈ (l.insertionSort r).take n, ∀ y ∈ (l.insertionSort r).drop n, ¬ r' y x := by
    intro x hx y hy
    obtain ⟨hxl, hxn⟩ := (mem_take_insertionSort hanti hnodup).1 hx
    have hyl := (List.mem_insertionSort r).1 (List.mem_of_mem_drop hy)
    refine hahead x hxl y hyl hxn (Nat.le_of_not_lt fun hyn => ?_)
    have hboth := (mem_take_insertionSort hanti hnodup).2 ⟨hyl, hyn⟩
    exact List.disjoint_take_drop ((List.perm_insertionSort r l).nodup_iff.2 hnodup) le_rfl hboth hy
  have hperm : (l'.insertionSort r').Perm (l.insertionSort r) :=
    (List.perm_insertionSort r' l').trans (h.symm.trans (List.perm_insertionSort r l).symm)
  have hsorted : (l.insertionSort r).Nodup := (List.perm_insertionSort r l).nodup_iff.2 hnodup
  have hsorted' : (l'.insertionSort r').Nodup := hperm.nodup_iff.2 hsorted
  have hlength : ((l'.insertionSort r').take n).length = ((l.insertionSort r).take n).length := by
    rw [List.length_take, List.length_take, hperm.length_eq]
  have hpairs : ∀ x ∈ (l'.insertionSort r').take n, ∀ y ∈ (l'.insertionSort r').drop n, r' x y := by
    have hpairwise := List.pairwise_insertionSort r' l'
    rw [← List.take_append_drop n (l'.insertionSort r'), List.pairwise_append] at hpairwise
    exact hpairwise.2.2
  have hdistinct := hsorted.sublist (List.take_sublist n _)
  have hdistinct' := hsorted'.sublist (List.take_sublist n _)
  have hsubset : (l.insertionSort r).take n ⊆ (l'.insertionSort r').take n := by
    intro x hx
    by_contra hout
    -- what the second order selects comes before a row that only the first selects
    have hlater : x ∈ (l'.insertionSort r').drop n := by
      have hmem := hperm.symm.subset (List.mem_of_mem_take hx)
      rw [← List.take_append_drop n (l'.insertionSort r'), List.mem_append] at hmem
      exact hmem.resolve_left hout
    have hback : (l'.insertionSort r').take n ⊆ (l.insertionSort r).take n := by
      intro y hy
      have hmem := hperm.subset (List.mem_of_mem_take hy)
      rw [← List.take_append_drop n (l.insertionSort r), List.mem_append] at hmem
      exact hmem.resolve_right fun hrest => hfirst x hx y hrest (hpairs y hy x hlater)
    have hsame := (List.subperm_of_subset hdistinct' hback).perm_of_length_le hlength.ge
    exact hout (hsame.mem_iff.2 hx)
  exact ((List.subperm_of_subset hdistinct hsubset).perm_of_length_le hlength.le).symm

end

/-- **Stability.** The first row that `p` holds of stays the first, where such rows tie. -/
theorem find?_insertionSort {p : α → Bool} (h : ∀ x ∈ l, ∀ y ∈ l, p x = true → p y = true → r x y) :
    (l.insertionSort r).find? p = l.find? p := by
  have hinsert : ∀ (a : α) (m : List α), (∀ y ∈ m, p a = true → p y = true → r a y) →
      (m.orderedInsert r a).find? p = (a :: m).find? p := by
    intro a m hm
    induction m with
    | nil => rfl
    | cons b m ih =>
      have ih := ih fun y hy => hm y (List.mem_cons_of_mem b hy)
      rw [List.orderedInsert]
      split
      · rfl
      · next hr =>
        rw [List.find?_cons, ih, List.find?_cons, List.find?_cons, List.find?_cons]
        cases ha : p a with
        | false => rfl
        | true =>
          have hb : p b = false := by
            rw [← Bool.not_eq_true]
            exact fun hb => hr (hm b List.mem_cons_self ha hb)
          rw [hb]
  induction l with
  | nil => rfl
  | cons a l ih =>
    have ih := ih fun x hx y hy => h x (List.mem_cons_of_mem a hx) y (List.mem_cons_of_mem a hy)
    rw [List.insertionSort_cons, hinsert, List.find?_cons, List.find?_cons, ih]
    intro y hy ha hy'
    exact h a List.mem_cons_self y (List.mem_cons_of_mem a ((List.mem_insertionSort r).1 hy)) ha hy'

theorem find?_of_alone {V : Type*} {p : V → Bool} {items : List V} {item : V} (hmem : item ∈ items)
    (hp : p item = true) (halone : ∀ other ∈ items, p other = true → other = item) :
    items.find? p = some item := by
  cases hfind : items.find? p with
  | none => exact absurd hp (List.find?_eq_none.1 hfind item hmem)
  | some other => rw [halone other (List.mem_of_find?_eq_some hfind) (List.find?_some hfind)]

end Scenara.Core
