import Mathlib.Algebra.Order.BigOperators.Group.Finset
import Mathlib.Logic.Equiv.Fintype

/-!
# Assignments and their dual

Pairs of a row and a column of one finite index type, at most one for each row and each column
(`IsMatching`).
-/

namespace Scenara.Core

variable {ι R : Type*} [AddCommGroup R] [LinearOrder R] [IsOrderedAddMonoid R]

/-- At most one pair for each row and each column. -/
def IsMatching (P : Finset (ι × ι)) : Prop :=
  Set.InjOn Prod.fst (P : Set (ι × ι)) ∧ Set.InjOn Prod.snd (P : Set (ι × ι))

theorem IsMatching.exists_perm [Finite ι] {P : Finset (ι × ι)} (h : IsMatching P) :
    ∃ τ : Equiv.Perm ι, ∀ p ∈ P, τ p.2 = p.1 := by
  classical
  let rows := Equiv.Set.imageOfInjOn Prod.fst (P : Set (ι × ι)) h.1
  let cols := Equiv.Set.imageOfInjOn Prod.snd (P : Set (ι × ι)) h.2
  let e : {c // c ∈ Prod.snd '' (P : Set (ι × ι))} ≃ {r // r ∈ Prod.fst '' (P : Set (ι × ι))} :=
    cols.symm.trans rows
  refine ⟨e.extendSubtype, fun p hp => ?_⟩
  have hmem : p.2 ∈ Prod.snd '' (P : Set (ι × ι)) := ⟨p, hp, rfl⟩
  have hcols : cols.symm ⟨p.2, hmem⟩ = ⟨p, hp⟩ := by
    rw [Equiv.symm_apply_eq]
    rfl
  rw [Equiv.extendSubtype_apply_of_mem e p.2 hmem]
  simp only [e, Equiv.trans_apply, hcols]
  rfl

section Duals

variable [Fintype ι] {cost : ι → ι → R} {u v : ι → R} {σ : Equiv.Perm ι}

/-- **Duality.** A permutation of columns to rows on which the potentials are tight costs least. -/
theorem sum_le_sum_of_tight (hfeasible : ∀ r c, u r + v c ≤ cost r c)
    (htight : ∀ c, u (σ c) + v c = cost (σ c) c) (τ : Equiv.Perm ι) :
    ∑ c, cost (σ c) c ≤ ∑ c, cost (τ c) c :=
  calc ∑ c, cost (σ c) c = ∑ c, (u (σ c) + v c) := by simp only [htight]
    _ = ∑ c, u (τ c) + ∑ c, v c := by
      rw [Finset.sum_add_distrib, Equiv.sum_comp σ u, Equiv.sum_comp τ u]
    _ = ∑ c, (u (τ c) + v c) := Finset.sum_add_distrib.symm
    _ ≤ ∑ c, cost (τ c) c := Finset.sum_le_sum fun c _ => hfeasible (τ c) c

/-- **The largest gain.** What the permutation gains on `top` is at least what any matching does. -/
theorem gain_le_of_tight (cost : ι → ι → R) (u v : ι → R) (σ : Equiv.Perm ι) {top : R}
    (htop : ∀ r c, cost r c ≤ top) (hfeasible : ∀ r c, u r + v c ≤ cost r c)
    (htight : ∀ c, u (σ c) + v c = cost (σ c) c) {P : Finset (ι × ι)} (hP : IsMatching P) :
    ∑ p ∈ P, (top - cost p.1 p.2) ≤ ∑ c, (top - cost (σ c) c) := by
  classical
  obtain ⟨τ, hτ⟩ := hP.exists_perm
  have hcost := sum_le_sum_of_tight hfeasible htight τ
  calc ∑ p ∈ P, (top - cost p.1 p.2) = ∑ p ∈ P, (top - cost (τ p.2) p.2) :=
        Finset.sum_congr rfl fun p hp => by rw [hτ p hp]
    _ = ∑ c ∈ P.image Prod.snd, (top - cost (τ c) c) :=
        (Finset.sum_image (f := fun c => top - cost (τ c) c) hP.2).symm
    _ ≤ ∑ c, (top - cost (τ c) c) :=
        Finset.sum_le_sum_of_subset_of_nonneg (Finset.subset_univ _) fun c _ _ =>
          sub_nonneg.2 (htop (τ c) c)
    _ ≤ ∑ c, (top - cost (σ c) c) := by
      simp only [Finset.sum_sub_distrib]
      exact sub_le_sub_left hcost _

end Duals

end Scenara.Core
