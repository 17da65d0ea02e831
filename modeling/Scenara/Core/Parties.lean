import Mathlib.Data.List.Basic

/-!
# The parties of a system

Parties are kept in a list and known by their place in it. A step replaces one of them, a new one
comes in at the end.

* `Each P parties`: `P` holds of every party, with its place; `Each.set`, `Each.put`, `Each.append`.
* `Apart R parties`: `R` holds between any two of them; `Apart.set`, `Apart.append`.
-/

namespace Scenara.Core.Parties

variable {α : Type*} {parties : List α} {p q : α} {i j : Nat}

theorem getElem?_set_cases (h : (parties.set i p)[j]? = some q) :
    j = i ∧ q = p ∨ j ≠ i ∧ parties[j]? = some q := by
  rw [List.getElem?_set] at h
  by_cases hij : i = j
  · rw [if_pos hij] at h
    split at h
    · exact .inl ⟨hij.symm, (Option.some.inj h).symm⟩
    · cases h
  · rw [if_neg hij] at h
    exact .inr ⟨Ne.symm hij, h⟩

theorem mem_snoc : q ∈ parties ++ [p] ↔ q ∈ parties ∨ q = p := by simp

theorem getElem?_append_cases (h : (parties ++ [p])[j]? = some q) :
    j = parties.length ∧ q = p ∨ parties[j]? = some q := by
  rw [List.getElem?_append] at h
  split at h
  · exact .inr h
  · rename_i hlt
    have hj := (List.getElem?_eq_some_iff.1 h).1
    rw [List.length_singleton] at hj
    have hlength : j = parties.length := by omega
    rw [hlength, Nat.sub_self] at h
    exact .inl ⟨hlength, (Option.some.inj h).symm⟩

theorem getElem?_set_same (h : parties[i]? = some q) : (parties.set i p)[i]? = some p :=
  List.getElem?_set_self (List.getElem?_eq_some_iff.1 h).1

theorem getElem?_set_other (h : j ≠ i) : (parties.set i p)[j]? = parties[j]? :=
  List.getElem?_set_ne h.symm

theorem exists_set {P : α → Prop} (hq : parties[i]? = some q) (hp : P q → P p)
    (h : ∃ a ∈ parties, P a) : ∃ a ∈ parties.set i p, P a := by
  obtain ⟨a, ha, hPa⟩ := h
  obtain ⟨j, hj⟩ := List.getElem?_of_mem ha
  by_cases hij : j = i
  · rw [hij, hq] at hj
    cases hj
    exact ⟨p, List.mem_of_getElem? (getElem?_set_same hq), hp hPa⟩
  · exact ⟨a, List.mem_of_getElem? ((getElem?_set_other hij).trans hj), hPa⟩

theorem countP_set (hq : parties[i]? = some q) (f : α → Bool) (p : α) :
    (parties.set i p).countP f + (f q).toNat = parties.countP f + (f p).toNat := by
  obtain ⟨hi, rfl⟩ := List.getElem?_eq_some_iff.1 hq
  have hpos : f parties[i] = true → 0 < parties.countP f := fun hf =>
    List.countP_pos_iff.2 ⟨_, List.getElem_mem hi, hf⟩
  rw [List.countP_set hi]
  cases hf : f parties[i] <;> cases f p <;> simp_all

/-- Every party, with its place. -/
def Each (P : Nat → α → Prop) (parties : List α) : Prop :=
  ∀ i p, parties[i]? = some p → P i p

variable {P Q : Nat → α → Prop}

theorem Each.nil : Each P [] := by
  intro i p h
  cases h

theorem Each.set (h : Each P parties) (hself : Q i p)
    (hothers : ∀ j q, j ≠ i → parties[j]? = some q → P j q → Q j q) : Each Q (parties.set i p) := by
  intro j q hq
  rcases getElem?_set_cases hq with ⟨rfl, rfl⟩ | ⟨hji, hq⟩
  · exact hself
  · exact hothers j q hji hq (h j q hq)

theorem Each.put (h : Each P parties) (hself : P i p) : Each P (parties.set i p) :=
  h.set hself fun _ _ _ _ hq => hq

theorem Each.append (h : Each P parties) (hnew : P parties.length p) : Each P (parties ++ [p]) := by
  intro j q hq
  rcases getElem?_append_cases hq with ⟨rfl, rfl⟩ | hq
  · exact hnew
  · exact h j q hq

theorem Each.mono (h : Each P parties) (hPQ : ∀ i p, parties[i]? = some p → P i p → Q i p) :
    Each Q parties :=
  fun i p hp => hPQ i p hp (h i p hp)

/-- Any two parties. -/
def Apart (R : α → α → Prop) (parties : List α) : Prop :=
  ∀ (i j : Nat) p q, parties[i]? = some p → parties[j]? = some q → i ≠ j → R p q

variable {R : α → α → Prop}

theorem Apart.nil : Apart R [] := by
  intro i j p q h
  cases h

theorem Apart.set (h : Apart R parties) (hsymm : ∀ a b, R a b → R b a)
    (hothers : ∀ j q, j ≠ i → parties[j]? = some q → R p q) : Apart R (parties.set i p) := by
  intro j k a b ha hb hjk
  rcases getElem?_set_cases ha with ⟨rfl, rfl⟩ | ⟨hj, hp⟩ <;>
    rcases getElem?_set_cases hb with ⟨rfl, rfl⟩ | ⟨hk, hq⟩
  · exact absurd rfl hjk
  · exact hothers k b hk hq
  · exact hsymm _ _ (hothers j a hj hp)
  · exact h j k a b hp hq hjk

theorem Apart.append (h : Apart R parties) (hsymm : ∀ a b, R a b → R b a)
    (hnew : ∀ q ∈ parties, R p q) : Apart R (parties ++ [p]) := by
  intro j k a b ha hb hjk
  rcases getElem?_append_cases ha with ⟨rfl, rfl⟩ | hp <;>
    rcases getElem?_append_cases hb with ⟨rfl, rfl⟩ | hq
  · exact absurd rfl hjk
  · exact hnew b (List.mem_of_getElem? hq)
  · exact hsymm _ _ (hnew a (List.mem_of_getElem? hp))
  · exact h j k a b hp hq hjk

end Scenara.Core.Parties
