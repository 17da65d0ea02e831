import Mathlib.Order.Nat
import Scenara.Core.Dict

/-!
# Union-find over dictionaries

A forest of parent pointers with union by rank and path compression. A missing key raises.
-/

namespace Scenara.Core

/-- Parents and ranks. -/
structure UnionFind (K : Type) where
  parent : Dict K K
  rank : Dict K Nat

namespace UnionFind

variable {K : Type} [DecidableEq K] {uf : UnionFind K} {k l r a b p : K}

/-! ## Operations -/

/-- Every key on its own. -/
def singletons (keys : List K) : UnionFind K :=
  ⟨.ofList (keys.map fun k => (k, k)), .ofList (keys.map fun k => (k, 0))⟩

/-- The largest rank. -/
def height (uf : UnionFind K) : Nat := (uf.rank.values.max?).getD 0

/-- `find`, with at most `fuel` calls. -/
def findWithin : (fuel : Nat) → UnionFind K → K → Option (K × UnionFind K)
  | 0, _, _ => none
  | fuel + 1, uf, k =>
    (uf.parent.get? k).bind fun p =>
      if p = k then some (k, uf)
      else (findWithin fuel uf p).map fun found =>
        (found.1, { found.2 with parent := found.2.parent.insert k found.1 })

/-- The root of a key; the keys on the way become its children. -/
def find (uf : UnionFind K) (k : K) : Option (K × UnionFind K) := findWithin (uf.height + 1) uf k

/-- Hang the root of smaller rank under the other; `left` wins a tie. Returns whether there was
anything to do. -/
def union (uf : UnionFind K) (left right : K) : Option (Bool × UnionFind K) := do
  let (leftRoot, uf) ← uf.find left
  let (rightRoot, uf) ← uf.find right
  if leftRoot = rightRoot then return (false, uf)
  let leftRank ← uf.rank.get? leftRoot
  let rightRank ← uf.rank.get? rightRoot
  if leftRank < rightRank then
    return (true, { uf with parent := uf.parent.insert leftRoot rightRoot })
  else if leftRank = rightRank then
    return (true, ⟨uf.parent.insert rightRoot leftRoot, uf.rank.insert leftRoot (leftRank + 1)⟩)
  else return (true, { uf with parent := uf.parent.insert rightRoot leftRoot })

/-! ## Roots -/

/-- The root of a key. -/
inductive Root (uf : UnionFind K) : K → K → Prop
  | self {k : K} (h : uf.parent.get? k = some k) : Root uf k k
  | up {k p r : K} (h : uf.parent.get? k = some p) (hne : p ≠ k) (hr : Root uf p r) : Root uf k r

/-- The rank of a key. -/
def rankOf (uf : UnionFind K) (k : K) : Nat := (uf.rank.get? k).getD 0

/-- Parents are keys, every key has a rank, and ranks rise towards the root. -/
structure Ranked (uf : UnionFind K) : Prop where
  ranks : ∀ k, uf.parent.get? k ≠ none → uf.rank.get? k ≠ none
  closed : ∀ k p, uf.parent.get? k = some p → uf.parent.get? p ≠ none
  climbs : ∀ k p, uf.parent.get? k = some p → p ≠ k → uf.rankOf k < uf.rankOf p

theorem Root.isRoot (h : Root uf k r) : uf.parent.get? r = some r := by
  induction h with
  | self h => exact h
  | up _ _ _ ih => exact ih

theorem Root.unique (h : Root uf k r) (h' : Root uf k l) : r = l := by
  induction h with
  | self h =>
    cases h' with
    | self => rfl
    | up hp hne => exact absurd (Option.some.inj (hp.symm.trans h)) hne
  | up hp hne _ ih =>
    cases h' with
    | self hself => exact absurd (Option.some.inj (hp.symm.trans hself)) hne
    | up hq _ hr =>
      obtain rfl := Option.some.inj (hp.symm.trans hq)
      exact ih hr

theorem Root.key (h : Root uf k r) : uf.parent.get? k ≠ none := by
  cases h with
  | self h | up h => simp [h]

theorem Root.rank_le (h : Root uf k r) (hranked : Ranked uf) : uf.rankOf k ≤ uf.rankOf r := by
  induction h with
  | self => exact le_rfl
  | up hp hne _ ih => exact (hranked.climbs _ _ hp hne).le.trans ih

theorem Root.rank_lt (h : Root uf k r) (hranked : Ranked uf) (hne : r ≠ k) :
    uf.rankOf k < uf.rankOf r := by
  cases h with
  | self => exact absurd rfl hne
  | up hp hne' hr => exact (hranked.climbs _ _ hp hne').trans_le (hr.rank_le hranked)

theorem rankOf_le_height (k : K) : uf.rankOf k ≤ uf.height := by
  unfold rankOf height
  cases hk : uf.rank.get? k with
  | none => exact Nat.zero_le _
  | some n =>
    have hn : n ∈ uf.rank.values := (Dict.mem_values _ n).2 ⟨k, hk⟩
    cases hmax : uf.rank.values.max? with
    | none =>
      simp [List.max?_eq_none_iff.1 hmax] at hn
    | some m => exact (List.max?_eq_some_iff.1 hmax).2 n hn

theorem Ranked.exists_root (h : Ranked uf) (hk : uf.parent.get? k ≠ none) : ∃ r, Root uf k r := by
  have hclimb : ∀ n k, uf.height - uf.rankOf k ≤ n → uf.parent.get? k ≠ none →
      ∃ r, Root uf k r := by
    intro n
    induction n with
    | zero =>
      intro k _ hk
      obtain ⟨p, hp⟩ := Option.ne_none_iff_exists'.1 hk
      by_cases hpk : p = k
      · exact ⟨k, .self (hpk ▸ hp)⟩
      · have hlt := h.climbs k p hp hpk
        have hle : uf.rankOf p ≤ uf.height := rankOf_le_height p
        omega
    | succ n ih =>
      intro k _ hk
      obtain ⟨p, hp⟩ := Option.ne_none_iff_exists'.1 hk
      by_cases hpk : p = k
      · exact ⟨k, .self (hpk ▸ hp)⟩
      · have hlt := h.climbs k p hp hpk
        obtain ⟨r, hr⟩ := ih p (by omega) (h.closed k p hp)
        exact ⟨r, .up hp hpk hr⟩
  exact hclimb _ k le_rfl hk

/-! ## Finding -/

/-- The same keys with the same ranks and the same roots. -/
structure Keeps (uf uf' : UnionFind K) : Prop where
  keys : ∀ k, uf'.parent.get? k ≠ none ↔ uf.parent.get? k ≠ none
  rank : uf'.rank = uf.rank
  root : ∀ k r, Root uf k r → Root uf' k r

theorem Keeps.refl (uf : UnionFind K) : Keeps uf uf := ⟨fun _ => .rfl, rfl, fun _ _ h => h⟩

theorem Keeps.trans {uf' uf'' : UnionFind K} (h : Keeps uf uf') (h' : Keeps uf' uf'') :
    Keeps uf uf'' :=
  ⟨fun k => (h'.keys k).trans (h.keys k), h'.rank.trans h.rank,
    fun k r hr => h'.root k r (h.root k r hr)⟩

theorem keys_insert (hk : uf.parent.get? k ≠ none) (a : K) :
    (uf.parent.insert k r).get? a ≠ none ↔ uf.parent.get? a ≠ none := by
  rw [Dict.get?_insert]
  by_cases ha : a = k
  · simp [ha, hk]
  · rw [if_neg ha]

theorem compress (hranked : Ranked uf) (hr : Root uf k r) (hne : r ≠ k) :
    Ranked { uf with parent := uf.parent.insert k r } ∧
      Keeps uf { uf with parent := uf.parent.insert k r } := by
  have hkey := keys_insert (r := r) hr.key
  refine ⟨⟨fun a ha => hranked.ranks a ((hkey a).1 ha), fun a b hab => (hkey b).2 ?_,
    fun a b hab hba => ?_⟩, hkey, rfl, fun a b hab => ?_⟩
  · dsimp only at hab
    rw [Dict.get?_insert] at hab
    by_cases ha : a = k
    · rw [if_pos ha] at hab
      cases hab
      simp [hr.isRoot]
    · rw [if_neg ha] at hab
      exact hranked.closed a b hab
  · dsimp only at hab
    rw [Dict.get?_insert] at hab
    by_cases ha : a = k
    · rw [if_pos ha] at hab
      cases hab
      rw [ha]
      exact hr.rank_lt hranked hne
    · rw [if_neg ha] at hab
      exact hranked.climbs a b hab hba
  · have hroot : (uf.parent.insert k r).get? r = some r := by
      rw [Dict.get?_insert_of_ne _ _ hne, hr.isRoot]
    induction hab with
    | self h =>
      rename_i a
      have ha : a ≠ k := fun hak => hne (hr.unique (hak ▸ .self h))
      exact .self (by rw [Dict.get?_insert_of_ne _ _ ha, h])
    | up h hpa hb ih =>
      rename_i a p b
      by_cases ha : a = k
      · subst ha
        obtain rfl := hr.unique (.up h hpa hb)
        exact .up (Dict.get?_insert_self _ _ _) hne (.self hroot)
      · exact .up (by rw [Dict.get?_insert_of_ne _ _ ha, h]) hpa ih

theorem findWithin_spec (hranked : Ranked uf) (fuel : Nat) (k : K)
    (hfuel : uf.height - uf.rankOf k < fuel) (hk : uf.parent.get? k ≠ none) :
    ∃ r uf', findWithin fuel uf k = some (r, uf') ∧ Root uf k r ∧ Ranked uf' ∧ Keeps uf uf' := by
  induction fuel generalizing k with
  | zero => omega
  | succ _ ih =>
    obtain ⟨p, hp⟩ := Option.ne_none_iff_exists'.1 hk
    unfold findWithin
    rw [hp, Option.bind_some]
    by_cases hpk : p = k
    · rw [if_pos hpk]
      exact ⟨k, uf, rfl, .self (hpk ▸ hp), hranked, .refl uf⟩
    · have hlt := hranked.climbs k p hp hpk
      have hle : uf.rankOf p ≤ uf.height := rankOf_le_height p
      obtain ⟨r, _, hfind, hr, hranked', hkeeps⟩ := ih p (by omega) (hranked.closed k p hp)
      have hroot : Root uf k r := .up hp hpk hr
      have hne : r ≠ k := fun hrk => by
        have := hr.rank_le hranked
        rw [hrk] at this
        omega
      obtain ⟨hranked'', hkeeps'⟩ := compress hranked' (hkeeps.root k r hroot) hne
      rw [if_neg hpk, hfind]
      exact ⟨r, _, rfl, hroot, hranked'', hkeeps.trans hkeeps'⟩

theorem find_spec (hranked : Ranked uf) (hk : uf.parent.get? k ≠ none) :
    ∃ r uf', uf.find k = some (r, uf') ∧ Root uf k r ∧ Ranked uf' ∧ Keeps uf uf' :=
  findWithin_spec hranked (uf.height + 1) k (by omega) hk

/-! ## Joining -/

/-- What `union` leaves: the roots `l` and `r` are joined in `n`. -/
structure Joins (uf uf' : UnionFind K) (l r n : K) : Prop where
  ranked : Ranked uf'
  keys : ∀ k, uf'.parent.get? k ≠ none ↔ uf.parent.get? k ≠ none
  which : n = l ∨ n = r
  root : ∀ a b, Root uf a b → Root uf' a (if b = l ∨ b = r then n else b)

theorem Joins.symm {uf' : UnionFind K} {n : K} (h : Joins uf uf' l r n) : Joins uf uf' r l n where
  ranked := h.ranked
  keys := h.keys
  which := h.which.symm
  root a b hab := by
    have hroot := h.root a b hab
    simp only [or_comm (a := b = l)] at hroot
    exact hroot

theorem Keeps.joins {uf' uf'' : UnionFind K} {n : K} (h : Keeps uf uf')
    (h' : Joins uf' uf'' l r n) : Joins uf uf'' l r n where
  ranked := h'.ranked
  keys k := (h'.keys k).trans (h.keys k)
  which := h'.which
  root a b hab := h'.root a b (h.root a b hab)

theorem Ranked.joins_self (h : Ranked uf) (l : K) : Joins uf uf l l l where
  ranked := h
  keys _ := .rfl
  which := .inl rfl
  root a b hab := by
    by_cases hb : b = l
    · rw [if_pos (.inl hb)]
      exact hb ▸ hab
    · rw [if_neg (by simp [hb])]
      exact hab

/-- The root `r` goes under the root `l`, which has the larger rank in `rank`; elsewhere these are
the old ranks. -/
theorem link (rank : Dict K Nat) (hranked : Ranked uf) (hl : uf.parent.get? l = some l)
    (hr : uf.parent.get? r = some r) (hne : l ≠ r)
    (hkeys : ∀ k, uf.rank.get? k ≠ none → rank.get? k ≠ none)
    (hrank : ∀ k, k ≠ l → (rank.get? k).getD 0 = uf.rankOf k)
    (hle : uf.rankOf l ≤ (rank.get? l).getD 0) (hlt : uf.rankOf r < (rank.get? l).getD 0) :
    Joins uf ⟨uf.parent.insert r l, rank⟩ l r l := by
  have hkey := keys_insert (r := l) (Root.self hr).key
  have hother : ∀ {a p : K}, a ≠ r → uf.parent.get? a = some p →
      (uf.parent.insert r l).get? a = some p := fun ha h => by
    rw [Dict.get?_insert_of_ne _ _ ha, h]
  refine ⟨⟨fun k hk => hkeys k (hranked.ranks k ((hkey k).1 hk)), fun a b hab => (hkey b).2 ?_,
    fun a b hab hba => ?_⟩, hkey, .inl rfl, fun a b hab => ?_⟩
  · dsimp only at hab
    rw [Dict.get?_insert] at hab
    by_cases ha : a = r
    · rw [if_pos ha] at hab
      cases hab
      simp [hl]
    · rw [if_neg ha] at hab
      exact hranked.closed a b hab
  · dsimp only at hab
    rw [Dict.get?_insert] at hab
    unfold rankOf
    by_cases ha : a = r
    · rw [if_pos ha] at hab
      cases hab
      rwa [ha, hrank r (Ne.symm hne)]
    · rw [if_neg ha] at hab
      have hclimb := hranked.climbs a b hab hba
      have hal : a ≠ l := by
        rintro rfl
        exact hba (Option.some.inj (hab.symm.trans hl))
      rw [hrank a hal]
      by_cases hbl : b = l
      · rw [hbl] at hclimb ⊢
        exact hclimb.trans_le hle
      · rwa [hrank b hbl]
  · induction hab with
    | self h =>
      rename_i a
      by_cases ha : a = r
      · rw [if_pos (.inr ha), ha]
        exact .up (Dict.get?_insert_self _ _ _) hne (.self (hother hne hl))
      · have hself : (if a = l ∨ a = r then l else a) = a := by
          by_cases hal : a = l
          · rw [if_pos (.inl hal), hal]
          · rw [if_neg (not_or.2 ⟨hal, ha⟩)]
        rw [hself]
        exact .self (hother ha h)
    | up h hpa hb ih =>
      rename_i a p b
      have ha : a ≠ r := by
        rintro rfl
        exact hpa (Option.some.inj (h.symm.trans hr))
      exact .up (hother ha h) hpa ih

/-- **`union`** joins the trees of its arguments in one of their roots. -/
theorem union_spec (hranked : Ranked uf) (ha : Root uf a l) (hb : Root uf b r) :
    ∃ joined uf' n, uf.union a b = some (joined, uf') ∧ Joins uf uf' l r n := by
  obtain ⟨l', _, hfind₁, hl', hranked₁, hkeeps₁⟩ := find_spec hranked ha.key
  obtain rfl := hl'.unique ha
  obtain ⟨r', uf₂, hfind₂, hr', hranked₂, hkeeps₂⟩ := find_spec hranked₁ ((hkeeps₁.keys b).2 hb.key)
  obtain rfl := hr'.unique (hkeeps₁.root b r hb)
  have hkeeps := hkeeps₁.trans hkeeps₂
  have hl := (hkeeps.root a _ ha).isRoot
  have hr := (hkeeps.root b _ hb).isRoot
  unfold union
  simp only [hfind₁, hfind₂, Option.bind_eq_bind, Option.bind_some]
  by_cases hlr : l' = r'
  · subst hlr
    rw [if_pos rfl]
    exact ⟨false, uf₂, l', rfl, hkeeps.joins (hranked₂.joins_self l')⟩
  · rw [if_neg hlr]
    obtain ⟨m, hm⟩ := Option.ne_none_iff_exists'.1 (hranked₂.ranks l' (by simp [hl]))
    obtain ⟨n, hn⟩ := Option.ne_none_iff_exists'.1 (hranked₂.ranks r' (by simp [hr]))
    have hlrank : uf₂.rankOf l' = m := by simp [rankOf, hm]
    have hrrank : uf₂.rankOf r' = n := by simp [rankOf, hn]
    simp only [hm, hn, Option.bind_some]
    by_cases hlt : m < n
    · rw [if_pos hlt]
      have hlink := link uf₂.rank hranked₂ hr hl (Ne.symm hlr) (fun _ h => h)
        (fun _ _ => rfl) le_rfl (by simpa [hn, hlrank] using hlt)
      exact ⟨true, _, r', rfl, hkeeps.joins hlink.symm⟩
    · rw [if_neg hlt]
      by_cases heq : m = n
      · rw [if_pos heq]
        have hlink := link (uf₂.rank.insert l' (m + 1)) hranked₂ hl hr hlr
          (fun k hk => by
            rw [Dict.get?_insert]
            split
            · simp
            · exact hk)
          (fun k hk => by rw [Dict.get?_insert_of_ne _ _ hk]; rfl)
          (by rw [Dict.get?_insert_self, hlrank]; exact Nat.le_succ m)
          (by rw [Dict.get?_insert_self, hrrank, heq]; exact Nat.lt_succ_self n)
        exact ⟨true, _, l', rfl, hkeeps.joins hlink⟩
      · rw [if_neg heq]
        have hlink := link uf₂.rank hranked₂ hl hr hlr (fun _ h => h) (fun _ _ => rfl) le_rfl
          (by simp only [hm, Option.getD_some, hrrank]; omega)
        exact ⟨true, _, l', rfl, hkeeps.joins hlink⟩

theorem Keeps.isRoot_iff {uf' : UnionFind K} (h : Keeps uf uf') (hranked : Ranked uf) :
    uf'.parent.get? k = some k ↔ uf.parent.get? k = some k := by
  constructor
  · intro hk
    obtain ⟨r, hr⟩ := hranked.exists_root ((h.keys k).1 (by simp [hk]))
    obtain rfl := (h.root k r hr).unique (.self hk)
    exact hr.isRoot
  · exact fun hk => (h.root k k (.self hk)).isRoot

theorem Joins.isRoot_iff {uf' : UnionFind K} {n : K} (h : Joins uf uf' l r n) (hranked : Ranked uf)
    (hl : uf.parent.get? l = some l) :
    uf'.parent.get? k = some k ↔ k = n ∨ k ≠ l ∧ k ≠ r ∧ uf.parent.get? k = some k := by
  constructor
  · intro hk
    obtain ⟨b, hb⟩ := hranked.exists_root ((h.keys k).1 (by simp [hk]))
    have hroot := (h.root k b hb).unique (.self hk)
    by_cases hjoined : b = l ∨ b = r
    · rw [if_pos hjoined] at hroot
      exact .inl hroot.symm
    · rw [if_neg hjoined] at hroot
      subst hroot
      rw [not_or] at hjoined
      exact .inr ⟨hjoined.1, hjoined.2, hb.isRoot⟩
  · rintro (rfl | ⟨hkl, hkr, hk⟩)
    · have hroot := h.root l l (.self hl)
      rw [if_pos (.inl rfl)] at hroot
      exact hroot.isRoot
    · have hroot := h.root k k (.self hk)
      rw [if_neg (not_or.2 ⟨hkl, hkr⟩)] at hroot
      exact hroot.isRoot

/-! ## The start -/

theorem root_singletons {keys : List K} (h : keys.Nodup) (hk : k ∈ keys) :
    Root (singletons keys) k k := by
  refine .self ((Dict.mem_entries _ _ _).1 ?_)
  unfold singletons
  rw [Dict.entries_ofList (by simpa [Function.comp_def] using h)]
  exact List.mem_map.2 ⟨k, hk, rfl⟩

theorem get?_singletons {keys : List K} (h : keys.Nodup) (k : K) :
    (singletons keys).parent.get? k ≠ none ↔ k ∈ keys := by
  unfold singletons
  rw [← Dict.mem_keys, Dict.entries_ofList (by simpa [Function.comp_def] using h)]
  simp

theorem ranked_singletons {keys : List K} (h : keys.Nodup) : Ranked (singletons keys) := by
  have hparent : ∀ k p, (singletons keys).parent.get? k = some p → p = k := by
    intro k p hp
    have hk := (get?_singletons h k).1 (by simp [hp])
    exact Option.some.inj (hp.symm.trans (root_singletons h hk).isRoot)
  refine ⟨fun k hk => ?_, fun k p hp => ?_, fun k p hp hne => absurd (hparent k p hp) hne⟩
  · rw [get?_singletons h] at hk
    unfold singletons
    rw [← Dict.mem_keys, Dict.entries_ofList (by simpa [Function.comp_def] using h)]
    simpa using hk
  · obtain rfl := hparent k p hp
    simp [hp]

end UnionFind

end Scenara.Core
