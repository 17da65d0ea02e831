import Mathlib.Data.List.Sort
import Scenara.Core.Dict

/-!
# Evicting what ranks lowest

A group of entries of a dictionary is put in order, lowest first, and what exceeds a limit is erased
from the front.
-/

namespace Scenara.Core

/-! ## The front of a list -/

section Overflow

variable {α : Type*}

/-- The first elements, all but the last `limit`. -/
def overflow (limit : Nat) (ordered : List α) : List α := ordered.take (ordered.length - limit)

variable {limit : Nat} {ordered : List α}

theorem overflow_eq_nil (h : ordered.length ≤ limit) :
    overflow limit ordered = [] := by
  unfold overflow
  rw [Nat.sub_eq_zero_of_le h, List.take_zero]

theorem mem_of_mem_overflow {x : α}
    (h : x ∈ overflow limit ordered) : x ∈ ordered :=
  List.mem_of_mem_take h

theorem rel_of_overflow {r : α → α → Prop} {x y : α}
    (hsorted : ordered.Pairwise r) (hx : x ∈ overflow limit ordered) (hy : y ∈ ordered)
    (hkept : y ∉ overflow limit ordered) : r x y := by
  rw [← List.take_append_drop (ordered.length - limit) ordered] at hsorted hy
  have hdrop : y ∈ ordered.drop (ordered.length - limit) :=
    (List.mem_append.1 hy).resolve_left hkept
  exact (List.pairwise_append.1 hsorted).2.2 x hx y hdrop

theorem length_filter_overflow (hnodup : ordered.Nodup)
    {stays : α → Bool} (hstays : ∀ x ∈ ordered, stays x ↔ x ∉ overflow limit ordered) :
    (ordered.filter stays).length = min ordered.length limit := by
  have hsplit := List.take_append_drop (ordered.length - limit) ordered
  have hkept : ordered.filter stays = ordered.drop (ordered.length - limit) := by
    conv_lhs => rw [← hsplit]
    rw [List.filter_append, List.filter_eq_nil_iff.2 fun x hx h =>
      (hstays x (List.mem_of_mem_take hx)).1 h hx, List.nil_append]
    refine List.filter_eq_self.2 fun x hx => (hstays x (List.mem_of_mem_drop hx)).2 fun hin => ?_
    rw [← hsplit] at hnodup
    exact List.disjoint_of_nodup_append hnodup hin hx
  rw [hkept, List.length_drop]
  omega

end Overflow

/-! ## Groups of entries -/

namespace Dict

variable {K V : Type*}

/-- The entries of a group. -/
def select (p : K × V → Bool) (d : Dict K V) : List (K × V) := d.entries.filter p

theorem nodup_keys_select (p : K × V → Bool) (d : Dict K V) :
    ((d.select p).map Prod.fst).Nodup :=
  d.nodup.sublist (List.filter_sublist.map _)

theorem mem_overflow_keys {limit : Nat} {p : K × V → Bool} {d : Dict K V} {ordered : List (K × V)}
    (hperm : ordered.Perm (d.select p)) {e : K × V} (he : e ∈ d.entries) :
    e.1 ∈ (overflow limit ordered).map Prod.fst ↔ e ∈ overflow limit ordered := by
  constructor
  · intro h
    obtain ⟨f, hf, heq⟩ := List.mem_map.1 h
    have hfd : f ∈ d.entries :=
      List.mem_of_mem_filter (hperm.mem_iff.1 (mem_of_mem_overflow hf))
    rwa [← List.inj_on_of_nodup_map d.nodup hfd he heq]
  · exact fun h => List.mem_map.2 ⟨e, h, rfl⟩

variable [DecidableEq K]

/-- `erase`, key after key. -/
def eraseAll (d : Dict K V) (keys : List K) : Dict K V := keys.foldl erase d

theorem entries_eraseAll (d : Dict K V) (keys : List K) :
    (d.eraseAll keys).entries = d.entries.filter fun e => e.1 ∉ keys := by
  unfold eraseAll
  induction keys generalizing d with
  | nil => simp
  | cons k _ ih =>
    rw [List.foldl_cons, ih]
    unfold erase
    rw [List.filter_filter]
    refine List.filter_congr fun e _ => ?_
    simp [Bool.and_comm]

theorem mem_select {p : K × V → Bool} {d : Dict K V} {e : K × V} :
    e ∈ d.select p ↔ d.get? e.1 = some e.2 ∧ p e := by
  unfold select
  rw [List.mem_filter, mem_entries]

/-- Erase what exceeds the limit in a group put in order. -/
def evict (limit : Nat) (ordered : List (K × V)) (d : Dict K V) : Dict K V :=
  d.eraseAll ((overflow limit ordered).map Prod.fst)

section Evict

variable {limit : Nat} {p : K × V → Bool} {d : Dict K V} {ordered : List (K × V)}

theorem mem_entries_evict (hperm : ordered.Perm (d.select p)) {e : K × V} :
    e ∈ (d.evict limit ordered).entries ↔ e ∈ d.entries ∧ e ∉ overflow limit ordered := by
  unfold evict
  rw [entries_eraseAll, List.mem_filter, decide_eq_true_iff]
  exact and_congr_right fun he => not_congr (mem_overflow_keys hperm he)

theorem length_select_evict (hperm : ordered.Perm (d.select p)) :
    ((d.evict limit ordered).select p).length = min (d.select p).length limit := by
  have hnodup : ordered.Nodup := hperm.nodup_iff.2 (.of_map _ (nodup_keys_select p d))
  have hstays : ∀ e ∈ ordered, decide (e.1 ∉ (overflow limit ordered).map Prod.fst) ↔
      e ∉ overflow limit ordered := fun e he => by
    rw [decide_eq_true_iff]
    exact not_congr (mem_overflow_keys hperm (List.mem_of_mem_filter (hperm.mem_iff.1 he)))
  unfold evict select
  rw [entries_eraseAll, List.filter_comm, ← select, ((hperm.symm.filter _).length_eq),
    length_filter_overflow hnodup hstays, hperm.length_eq]

theorem select_evict_of_disjoint (hperm : ordered.Perm (d.select p)) {q : K × V → Bool}
    (hdisjoint : ∀ e, p e → ¬q e) : (d.evict limit ordered).select q = d.select q := by
  unfold evict select
  rw [entries_eraseAll, List.filter_filter]
  refine List.filter_congr fun e he => ?_
  by_cases hq : q e
  · have hout : e.1 ∉ (overflow limit ordered).map Prod.fst := fun hin =>
      hdisjoint e (mem_select.1 (hperm.mem_iff.1 (mem_of_mem_overflow
        ((mem_overflow_keys hperm he).1 hin)))).2 hq
    simp [hq, hout]
  · simp [hq]

end Evict

/-! ## Tables of entries -/

theorem mem_of_get?_foldl_insert (es : List (K × V)) (d : Dict K V) {k : K} {v : V}
    (h : (es.foldl (fun d e => d.insert e.1 e.2) d).get? k = some v) :
    (k, v) ∈ es ∨ d.get? k = some v := by
  induction es generalizing d with
  | nil => exact .inr h
  | cons e _ ih =>
    rcases ih _ h with hin | hin
    · exact .inl (List.mem_cons_of_mem e hin)
    · rw [get?_insert] at hin
      by_cases hk : k = e.1
      · rw [if_pos hk, Option.some.injEq] at hin
        exact .inl (List.mem_cons.2 (.inl (Prod.ext hk hin.symm)))
      · rw [if_neg hk] at hin
        exact .inr hin

theorem get?_foldl_insert_ne_none (es : List (K × V)) (d : Dict K V) {k : K}
    (h : k ∈ es.map Prod.fst ∨ d.get? k ≠ none) :
    (es.foldl (fun d e => d.insert e.1 e.2) d).get? k ≠ none := by
  induction es generalizing d with
  | nil => exact h.resolve_left (by simp)
  | cons e _ ih =>
    refine ih _ ?_
    by_cases hk : k = e.1
    · exact .inr (by simp [hk])
    · rw [List.map_cons, List.mem_cons, or_assoc] at h
      rw [get?_insert_of_ne d e.2 hk]
      exact h.resolve_left hk

theorem get?_ofList {es : List (K × V)} (hagree : ∀ {k v w}, (k, v) ∈ es → (k, w) ∈ es → v = w)
    {k : K} {v : V} : (ofList es).get? k = some v ↔ (k, v) ∈ es := by
  have hmem : ∀ {w}, (ofList es).get? k = some w → (k, w) ∈ es := fun h =>
    (mem_of_get?_foldl_insert es empty h).resolve_right nofun
  constructor
  · exact hmem
  · intro h
    obtain ⟨w, hw⟩ := Option.ne_none_iff_exists'.1
      (get?_foldl_insert_ne_none es empty (.inl (List.mem_map.2 ⟨(k, v), h, rfl⟩)))
    rwa [hagree h (hmem hw)]

end Dict

end Scenara.Core
