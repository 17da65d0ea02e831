import Mathlib.Algebra.Order.Field.Rat

/-!
# Greatest elements and greedy choices

* `Highest P best`: the highest value that `P` holds of, or that there is none (`exists_highest`).
* `Selects`: of elements that have a rank, the greedy selection takes each one that conflicts with
  none taken before it. No two that are taken conflict, and each of the others conflicts with an
  earlier one.
-/

namespace Scenara.Core

variable {α β : Type*} [LinearOrder β] {rank : α → β}

/-! ## A comparison that may raise -/

/-- `max` of a list that begins with `best`: an element replaces the best one so far when it is
greater; `none` is a comparison that raises. -/
def maxM (gt : α → α → Option Bool) : α → List α → Option α
  | best, [] => some best
  | best, x :: xs => (gt x best).bind fun above => maxM gt (if above then x else best) xs

/-- **The greatest**, where a comparison with an earlier element answers by rank. -/
theorem maxM_spec {gt : α → α → Option Bool} {best m : α} {xs : List α}
    (hgt : (best :: xs).Pairwise fun y x => ∀ b, gt x y = some b → (b = true ↔ rank y < rank x))
    (h : maxM gt best xs = some m) : m ∈ best :: xs ∧ ∀ x ∈ best :: xs, rank x ≤ rank m := by
  induction xs generalizing best with
  | nil =>
    cases h
    simp
  | cons x xs ih =>
    obtain ⟨above, habove, h⟩ := Option.bind_eq_some_iff.1 h
    obtain ⟨hbest, hxs⟩ := List.pairwise_cons.1 hgt
    have hiff := hbest x List.mem_cons_self above habove
    by_cases hx : above = true
    · rw [if_pos hx] at h
      obtain ⟨hmem, hle⟩ := ih hxs h
      refine ⟨List.mem_cons_of_mem _ hmem, List.forall_mem_cons.2 ⟨?_, hle⟩⟩
      exact (hiff.1 hx).le.trans (hle x List.mem_cons_self)
    · rw [if_neg hx] at h
      have hrest : (best :: xs).Pairwise _ := List.pairwise_cons.2
        ⟨fun y hy => hbest y (List.mem_cons_of_mem _ hy), (List.pairwise_cons.1 hxs).2⟩
      obtain ⟨hmem, hle⟩ := ih hrest h
      have hxbest : rank x ≤ rank best := not_lt.1 fun hlt => hx (hiff.2 hlt)
      obtain ⟨hbm, hxsm⟩ := List.forall_mem_cons.1 hle
      refine ⟨?_, List.forall_mem_cons.2 ⟨hbm, List.forall_mem_cons.2 ⟨hxbest.trans hbm, hxsm⟩⟩⟩
      rcases List.mem_cons.1 hmem with rfl | hin
      · exact List.mem_cons_self
      · exact List.mem_cons_of_mem _ (List.mem_cons_of_mem _ hin)

/-! ## Exchanges -/

/-- From a pool, and with an element held, the greatest of the pool is taken again and again; what
was held goes into the pool. -/
inductive Exchanges (rank : α → β) : α → Set α → List α → Prop
  | stop (a : α) (pool : Set α) : Exchanges rank a pool []
  | take {a t : α} {pool : Set α} {ts : List α} (mem : t ∈ pool)
      (greatest : ∀ r ∈ pool, rank r ≤ rank t)
      (rest : Exchanges rank t (insert a (pool \ {t})) ts) : Exchanges rank a pool (t :: ts)

/-- Two elements of the pool rank above the one held. -/
def TwoAbove (rank : α → β) (a : α) (pool : Set α) : Prop :=
  ∃ b ∈ pool, ∃ c ∈ pool, b ≠ c ∧ rank a < rank b ∧ rank a < rank c

variable {a t u w : α} {pool : Set α} {ts : List α}

theorem ne_second_iff (hinj : Function.Injective rank) (ht : t ∈ pool)
    (hmax : ∀ r ∈ pool, rank r ≤ rank t) (hu : u ∈ insert a (pool \ {t}))
    (humax : ∀ r ∈ insert a (pool \ {t}), rank r ≤ rank u) : a ≠ u ↔ TwoAbove rank a pool := by
  constructor
  · intro hne
    obtain ⟨hup, hut⟩ := (Set.mem_insert_iff.1 hu).resolve_left hne.symm
    have hau : rank a < rank u :=
      (humax a (Set.mem_insert _ _)).lt_of_ne fun heq => hne (hinj heq)
    exact ⟨t, ht, u, hup, fun heq => hut heq.symm, hau.trans_le (hmax u hup), hau⟩
  · rintro ⟨b, hb, c, hc, hbc, hab, hac⟩ rfl
    have hnone : ∀ d ∈ pool, rank a < rank d → d = t := fun d hd had => by
      by_contra hdt
      exact absurd (humax d (Set.mem_insert_of_mem _ ⟨hd, hdt⟩)) (not_le.2 had)
    exact hbc ((hnone b hb hab).trans (hnone c hc hac).symm)

/-- The third exchange returns what was taken first, if the second did not return what was held. -/
theorem third_eq_first (hinj : Function.Injective rank) (hmax : ∀ r ∈ pool, rank r ≤ rank t)
    (hu : u ∈ insert a (pool \ {t})) (humax : ∀ r ∈ insert a (pool \ {t}), rank r ≤ rank u)
    (hau : a ≠ u) (hw : w ∈ insert t (insert a (pool \ {t}) \ {u}))
    (hwmax : ∀ r ∈ insert t (insert a (pool \ {t}) \ {u}), rank r ≤ rank w) : w = t := by
  have hup : u ∈ pool := ((Set.mem_insert_iff.1 hu).resolve_left hau.symm).1
  have hwt : rank w ≤ rank t := (Set.mem_insert_iff.1 hw).elim (fun heq => heq ▸ le_rfl)
    fun hin => (humax w hin.1).trans (hmax u hup)
  exact hinj (hwt.antisymm (hwmax t (Set.mem_insert _ _)))

/-- **No return.** Nothing is taken twice, nor after it was held, exactly when there is at most one
exchange, or two with two elements above the one held first. -/
theorem nodup_exchanges (hinj : Function.Injective rank) (ha : a ∉ pool)
    (h : Exchanges rank a pool ts) :
    (a :: ts).Nodup ↔ ts.length ≤ 1 ∨ ts.length = 2 ∧ TwoAbove rank a pool := by
  rcases h with _ | ⟨ht, hmax, h⟩
  · simp
  rename_i t ts
  have hat : a ≠ t := fun heq => ha (heq ▸ ht)
  rcases h with _ | ⟨hu, humax, h⟩
  · simp [hat]
  rename_i u ts
  have htu : t ≠ u := fun heq => by
    rcases Set.mem_insert_iff.1 hu with hua | hin
    · exact hat (hua ▸ heq).symm
    · exact hin.2 heq.symm
  have hiff := ne_second_iff hinj ht hmax hu humax
  rcases h with _ | ⟨hw, hwmax, h⟩
  · simp [hat, htu, hiff]
  refine iff_of_false (fun hnodup => ?_) (by simp)
  have hau : a ≠ u := fun heq => by simp [heq] at hnodup
  have hwt := third_eq_first hinj hmax hu humax hau hw hwmax
  simp [hwt] at hnodup

/-! ## Moves -/

/-- What is held and what is taken instead, move by move. -/
def moves (a : α) (ts : List α) : List (α × α) := (a :: ts).zip ts

/-- No move goes to where an earlier one went, or to what an earlier one left. -/
def NoReturn (moves : List (α × α)) : Prop :=
  moves.Pairwise fun p q => q.2 ≠ p.2 ∧ q.2 ≠ p.1

theorem mem_of_mem_moves {p : α × α} (h : p ∈ moves a ts) : p.2 ∈ ts := (List.of_mem_zip h).2

theorem exists_move (h : u ∈ ts) : ∃ p ∈ moves a ts, p.2 = u := by
  induction ts generalizing a with
  | nil => cases h
  | cons t _ ih =>
    rcases List.mem_cons.1 h with rfl | h
    · exact ⟨(a, u), List.mem_cons_self, rfl⟩
    · obtain ⟨p, hp, rfl⟩ := ih h
      exact ⟨p, List.mem_cons_of_mem _ hp, rfl⟩

theorem noReturn_moves_iff (hne : ∀ p ∈ moves a ts, p.1 ≠ p.2) :
    NoReturn (moves a ts) ↔ (a :: ts).Nodup := by
  induction ts generalizing a with
  | nil => simp [NoReturn, moves]
  | cons t ts ih =>
    have hcons : moves a (t :: ts) = (a, t) :: moves t ts := rfl
    rw [hcons, List.forall_mem_cons] at hne
    have hall : (∀ q ∈ moves t ts, q.2 ≠ t ∧ q.2 ≠ a) ↔ t ∉ ts ∧ a ∉ ts := by
      constructor
      · intro h
        constructor
        · intro ht
          obtain ⟨p, hp, heq⟩ := exists_move ht
          exact (h p hp).1 heq
        · intro ha
          obtain ⟨p, hp, heq⟩ := exists_move ha
          exact (h p hp).2 heq
      · rintro ⟨ht, ha⟩ q hq
        exact ⟨fun heq => ht (heq ▸ mem_of_mem_moves hq), fun heq => ha (heq ▸ mem_of_mem_moves hq)⟩
    unfold NoReturn at ih ⊢
    rw [hcons, List.pairwise_cons, ih hne.2, hall]
    simp only [List.nodup_cons, List.mem_cons, not_or]
    constructor
    · rintro ⟨⟨ht, ha⟩, -, hnodup⟩
      exact ⟨⟨hne.1, ha⟩, ht, hnodup⟩
    · rintro ⟨⟨-, ha⟩, ht, hnodup⟩
      exact ⟨⟨ht, ha⟩, ht, hnodup⟩

/-! ## The highest value of a kind -/

section Highest

variable {α : Type*} [LinearOrder α] {P Q : α → Prop} {best best' : Option α}

/-- The highest value that `P` holds of, if it holds of any. -/
def Highest (P : α → Prop) : Option α → Prop
  | none => ∀ x, ¬P x
  | some best => IsGreatest {x | P x} best

theorem Highest.unique (h : Highest P best) (h' : Highest P best') : best = best' := by
  cases best with
  | none =>
    cases best' with
    | none => rfl
    | some b' => exact absurd h'.1 (h b')
  | some b =>
    cases best' with
    | none => exact absurd h.1 (h' b)
    | some b' => exact congrArg some (IsGreatest.unique h h')

theorem Highest.mono (hsub : ∀ x, P x → Q x) (h : Highest P best) (h' : Highest Q best') {b : α}
    (hb : best = some b) : ∃ b', best' = some b' ∧ b ≤ b' := by
  subst hb
  cases best' with
  | none => exact absurd (hsub b h.1) (h' b)
  | some b' => exact ⟨b', rfl, h'.2 (hsub b h.1)⟩

end Highest

/-! ## Greedy selections -/

section Greedy

variable {α : Type*} {rank : α → ℕ} {conflict : α → α → Prop} {xs ys zs rest : List α} {x : α}

/-- The greedy selection of `xs` by rank. -/
structure Selects (rank : α → ℕ) (conflict : α → α → Prop) (xs ys : List α) : Prop where
  subset : ys ⊆ xs
  ordered : ys.Pairwise fun x y => rank x < rank y
  apart : ∀ x ∈ ys, ∀ y ∈ ys, rank x < rank y → ¬conflict x y
  covered : ∀ y ∈ xs, y ∉ ys → ∃ x ∈ ys, rank x < rank y ∧ conflict x y

namespace Selects

theorem nil : Selects rank conflict [] [] := by
  constructor <;> simp

theorem cons (hx : ∀ y ∈ xs, rank x < rank y) (hrest : ∀ y, y ∈ rest ↔ y ∈ xs ∧ ¬conflict x y)
    (h : Selects rank conflict rest ys) : Selects rank conflict (x :: xs) (x :: ys) := by
  have hys : ∀ y ∈ ys, y ∈ xs ∧ ¬conflict x y := fun y hy => (hrest y).1 (h.subset hy)
  refine ⟨List.cons_subset_cons x fun y hy => (hys y hy).1,
    List.pairwise_cons.2 ⟨fun y hy => hx y (hys y hy).1, h.ordered⟩, fun a ha b hb hlt => ?_,
    fun y hy hnot => ?_⟩
  · rcases List.mem_cons.1 ha with rfl | hays <;> rcases List.mem_cons.1 hb with rfl | hbys
    · exact absurd hlt (Nat.lt_irrefl _)
    · exact (hys b hbys).2
    · exact absurd hlt (Nat.lt_asymm (hx a (hys a hays).1))
    · exact h.apart a hays b hbys hlt
  · rw [List.mem_cons, not_or] at hnot
    have hy := (List.mem_cons.1 hy).resolve_left hnot.1
    by_cases hconflict : conflict x y
    · exact ⟨x, List.mem_cons_self, hx y hy, hconflict⟩
    · obtain ⟨z, hz, hlt⟩ := h.covered y ((hrest y).2 ⟨hy, hconflict⟩) hnot.2
      exact ⟨z, List.mem_cons_of_mem x hz, hlt⟩

theorem mem_of_mem (hy : Selects rank conflict xs ys) (hz : Selects rank conflict xs zs)
    (h : ∀ z ∈ zs, rank z < rank x → z ∈ ys) (hx : x ∈ ys) : x ∈ zs := by
  by_contra hnot
  obtain ⟨z, hmem, hlt, hconflict⟩ := hz.covered x (hy.subset hx) hnot
  exact hy.apart z (h z hmem hlt) x hx hlt hconflict

theorem mem_iff (hy : Selects rank conflict xs ys) (hz : Selects rank conflict xs zs) :
    x ∈ ys ↔ x ∈ zs := by
  induction hrank : rank x using Nat.strongRecOn generalizing x with
  | ind _ ih =>
    exact ⟨hy.mem_of_mem hz fun z hmem hlt => (ih _ (hrank ▸ hlt) rfl).2 hmem,
      hz.mem_of_mem hy fun z hmem hlt => (ih _ (hrank ▸ hlt) rfl).1 hmem⟩

theorem unique (hy : Selects rank conflict xs ys) (hz : Selects rank conflict xs zs) : ys = zs := by
  have hnodup {l : List α} (h : Selects rank conflict xs l) : l.Nodup :=
    h.ordered.imp fun hlt heq => Nat.ne_of_lt hlt (congrArg rank heq)
  exact ((List.perm_ext_iff_of_nodup (hnodup hy) (hnodup hz)).2 fun _ =>
    hy.mem_iff hz).eq_of_pairwise
    (fun _ _ _ _ hab hba => absurd hab (Nat.lt_asymm hba)) hy.ordered hz.ordered

end Selects

end Greedy

end Scenara.Core
