import Mathlib.Data.List.Perm.Basic
import Mathlib.Order.Basic

/-!
# Versioned cells

A cell holds one versioned value; `rev` reads the version of a value. A writer reads the cell,
computes a new value from what it read, and stores it only when the cell's version is still the
one it read (`cas`), which raises the version by one.

`Coherent rev snap cur` is what a snapshot `snap` knows about the current value `cur`: it is no
newer, and it *is* the current value when the versions agree (`Coherent.eq_of_rev`).

`Published base told taken pending`: whoever changed a cell publishes the change later. After
`base`, what was `told` so far are the values that were `taken`, in order, up to those that are
pending. With nothing pending everything has been told (`Published.told_eq`).
-/

namespace Scenara.Core

/-! ## Compare-and-swap -/

section Swap

variable {α : Type*}

/-- Store `new` when the version of `cur` is `expected`. -/
def cas (rev : α → Nat) (cur new : α) (expected : Nat) : Option α :=
  if rev cur = expected then some new else none

/-- `snap` was read from the cell that now holds `cur`. -/
structure Coherent (rev : α → Nat) (snap cur : α) : Prop where
  le : rev snap ≤ rev cur
  eq : rev snap = rev cur → snap = cur

variable {rev : α → Nat} {snap cur new : α}

theorem Coherent.refl (rev : α → Nat) (cur : α) : Coherent rev cur cur :=
  ⟨Nat.le_refl _, fun _ => rfl⟩

theorem Coherent.advance (h : Coherent rev snap cur) (hn : rev new = rev cur + 1) :
    Coherent rev snap new :=
  ⟨by have := h.le; omega, fun he => absurd he (by have := h.le; omega)⟩

/-- The version test of a swap from `snap` says the cell still holds `snap`. -/
theorem Coherent.eq_of_rev (h : Coherent rev snap cur) (hr : rev cur = rev snap) : cur = snap :=
  (h.eq hr.symm).symm

end Swap

/-! ## Changes that are published later -/

variable {V : Type*} {base told : List V} {taken pending pending' : List (Nat × V)} {c : Nat × V}

/-- What was told are the changes that were taken, but for the last ones, which are pending. -/
structure Published (base told : List V) (taken pending : List (Nat × V)) : Prop where
  ordered : (taken.map Prod.fst).Pairwise (· < ·)
  rest : ∃ rest, rest <:+ taken ∧ rest.Perm pending ∧
    base ++ taken.map Prod.snd = told ++ rest.map Prod.snd

theorem published_nil (base : List V) : Published base base [] [] :=
  ⟨List.Pairwise.nil, [], List.suffix_refl _, .refl _, rfl⟩

theorem Published.perm (h : Published base told taken pending) (hperm : pending'.Perm pending) :
    Published base told taken pending' := by
  obtain ⟨hordered, rest, hsuffix, hrest, heq⟩ := h
  exact ⟨hordered, rest, hsuffix, hrest.trans hperm.symm, heq⟩

theorem Published.change (h : Published base told taken pending)
    (hlast : ∀ version ∈ taken.map Prod.fst, version < c.1) :
    Published base told (taken ++ [c]) (pending ++ [c]) := by
  obtain ⟨hordered, rest, ⟨first, hfirst⟩, hrest, heq⟩ := h
  refine ⟨?_, rest ++ [c], ⟨first, ?_⟩, hrest.append (.refl _), ?_⟩
  · rw [List.map_append, List.pairwise_append]
    refine ⟨hordered, List.pairwise_singleton _ _, fun a ha b hb => ?_⟩
    rw [List.mem_singleton.1 hb]
    exact hlast a ha
  · rw [← List.append_assoc, hfirst]
  · rw [List.map_append, ← List.append_assoc, heq, List.map_append, List.append_assoc]

theorem Published.publish (h : Published base told taken pending)
    (hperm : pending.Perm (c :: pending')) (hfirst : ∀ other ∈ pending, c.1 ≤ other.1) :
    Published base (told ++ [c.2]) taken pending' := by
  obtain ⟨hordered, rest, hsuffix, hrest, heq⟩ := h
  have hmem : c ∈ rest := hrest.mem_iff.2 (hperm.mem_iff.2 List.mem_cons_self)
  have hsorted : (rest.map Prod.fst).Pairwise (· < ·) :=
    hordered.sublist (hsuffix.sublist.map Prod.fst)
  obtain ⟨first, rest, rfl⟩ := List.exists_cons_of_ne_nil (List.ne_nil_of_mem hmem)
  -- The versions of what is pending rise, so the least one comes first.
  have hhead : first = c := by
    rcases List.mem_cons.1 hmem with heq | hlater
    · exact heq.symm
    · rw [List.map_cons, List.pairwise_cons] at hsorted
      have hlt := hsorted.1 c.1 (List.mem_map_of_mem hlater)
      exact absurd (hfirst first (hrest.mem_iff.1 List.mem_cons_self)) (Nat.not_le.2 hlt)
  subst hhead
  refine ⟨hordered, rest, (List.suffix_cons _ _).trans hsuffix, ?_, ?_⟩
  · exact List.Perm.cons_inv (hrest.trans hperm)
  · rw [heq, List.map_cons, List.append_assoc]
    rfl

theorem Published.told_eq (h : Published base told taken []) :
    told = base ++ taken.map Prod.snd := by
  obtain ⟨-, _, -, hrest, heq⟩ := h
  rw [heq, hrest.eq_nil, List.map_nil, List.append_nil]

end Scenara.Core
