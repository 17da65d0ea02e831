import Mathlib.Data.List.Nodup

/-!
# Insertion-ordered dictionaries

`Dict K V` is a finite map that lists its entries in the order in which their keys first came:
`insert` overwrites in place, or appends. Distinct keys are a field (`nodup`), so `get?` and
membership in `entries` say the same thing (`mem_entries`) and every operation below is read
through `get?` alone: `get?_insert`, `get?_erase`, `get?_mapVals`.

A `Table K V key` stores values under a key of their own (`Table.keyed`).
-/

namespace Scenara.Core

variable {K V : Type*}

/-! ## Entry lists -/

/-- Overwrite the entry of `k`, or append one. -/
def upsert [DecidableEq K] (k : K) (v : V) : List (K × V) → List (K × V)
  | [] => [(k, v)]
  | e :: es => if e.1 = k then (k, v) :: es else e :: upsert k v es

variable {es : List (K × V)}

theorem upsert_append [DecidableEq K] {k : K} (v : V)
    (h : k ∉ es.map Prod.fst) : upsert k v es = es ++ [(k, v)] := by
  induction es with
  | nil => rfl
  | cons e _ ih =>
    rw [List.map_cons, List.mem_cons, not_or] at h
    unfold upsert
    rw [if_neg (Ne.symm h.1), ih h.2, List.cons_append]

theorem upsert_of_mem [DecidableEq K] {k : K} {v : V}
    (hnodup : (es.map Prod.fst).Nodup) (h : (k, v) ∈ es) : upsert k v es = es := by
  induction es with
  | nil => cases h
  | cons e _ ih =>
    rw [List.map_cons, List.nodup_cons] at hnodup
    unfold upsert
    rcases List.mem_cons.1 h with heq | hin
    · rw [← heq, if_pos rfl]
    · have hne : e.1 ≠ k := fun he => hnodup.1 (List.mem_map.2 ⟨(k, v), hin, he.symm⟩)
      rw [if_neg hne, ih hnodup.2 hin]

theorem mem_keys_upsert [DecidableEq K] (k a : K) (v : V) (es : List (K × V)) :
    a ∈ (upsert k v es).map Prod.fst ↔ a = k ∨ a ∈ es.map Prod.fst := by
  induction es with
  | nil => simp [upsert]
  | cons e _ ih =>
    unfold upsert
    by_cases h : e.1 = k
    · rw [if_pos h]
      simp [h]
    · rw [if_neg h, List.map_cons, List.mem_cons, ih, List.map_cons, List.mem_cons]
      tauto

theorem nodup_upsert [DecidableEq K] (k : K) (v : V)
    (h : (es.map Prod.fst).Nodup) : ((upsert k v es).map Prod.fst).Nodup := by
  induction es with
  | nil => simp [upsert]
  | cons e _ ih =>
    rw [List.map_cons, List.nodup_cons] at h
    unfold upsert
    by_cases hk : e.1 = k
    · rw [if_pos hk, List.map_cons, List.nodup_cons]
      exact ⟨hk ▸ h.1, h.2⟩
    · rw [if_neg hk, List.map_cons, List.nodup_cons, mem_keys_upsert]
      exact ⟨fun hm => hm.elim hk h.1, ih h.2⟩

theorem lookup_cons_ite [DecidableEq K] (b : K) (w : V) (es : List (K × V)) (a : K) :
    ((b, w) :: es).lookup a = if a = b then some w else es.lookup a := by
  rw [List.lookup_cons]
  by_cases h : a = b
  · simp [h]
  · simp [h, beq_eq_false_iff_ne.2 h]

theorem lookup_upsert [DecidableEq K] (k a : K) (v : V) (es : List (K × V)) :
    (upsert k v es).lookup a = if a = k then some v else es.lookup a := by
  induction es with
  | nil => rw [upsert, lookup_cons_ite]
  | cons e _ ih =>
    obtain ⟨b, w⟩ := e
    unfold upsert
    by_cases hb : b = k
    · rw [if_pos hb, lookup_cons_ite, lookup_cons_ite, hb]
      by_cases ha : a = k <;> simp [ha]
    · rw [if_neg hb, lookup_cons_ite, lookup_cons_ite, ih]
      by_cases ha : a = b
      · rw [if_pos ha, if_pos ha, if_neg fun h => hb (ha.symm.trans h)]
      · rw [if_neg ha, if_neg ha]

theorem lookup_filter_ne [DecidableEq K] (k a : K) (es : List (K × V)) :
    (es.filter fun e => e.1 ≠ k).lookup a = if a = k then none else es.lookup a := by
  induction es with
  | nil => simp
  | cons e _ ih =>
    obtain ⟨b, w⟩ := e
    rw [lookup_cons_ite]
    by_cases hb : b = k
    · rw [List.filter_cons_of_neg (by simp [hb]), ih, hb]
      by_cases ha : a = k <;> simp [ha]
    · rw [List.filter_cons_of_pos (by simp [hb]), lookup_cons_ite, ih]
      by_cases ha : a = b
      · rw [if_pos ha, if_pos ha, if_neg fun h => hb (ha.symm.trans h)]
      · rw [if_neg ha, if_neg ha]

theorem filter_upsert_self [DecidableEq K] (k : K) (v : V) (es : List (K × V)) {a : K} (h : a = k) :
    (upsert k v es).filter (fun e => e.1 ≠ a) = es.filter fun e => e.1 ≠ a := by
  subst h
  induction es with
  | nil => simp [upsert]
  | cons e _ ih =>
    unfold upsert
    by_cases he : e.1 = a
    · simp [he]
    · rw [if_neg he, List.filter_cons_of_pos (by simpa using he),
        List.filter_cons_of_pos (by simpa using he), ih]

theorem filter_upsert_of_ne [DecidableEq K] (k : K) (v : V) (es : List (K × V)) {a : K}
    (h : a ≠ k) :
    (upsert k v es).filter (fun e => e.1 ≠ a) = upsert k v (es.filter fun e => e.1 ≠ a) := by
  have hcons : ∀ e es, upsert k v (e :: es) = if e.1 = k then (k, v) :: es
      else e :: upsert k v es :=
    fun _ _ => rfl
  induction es with
  | nil => simp [upsert, h.symm]
  | cons e _ ih =>
    rw [hcons]
    by_cases he : e.1 = k
    · have hea : e.1 ≠ a := fun hea => h (hea.symm.trans he)
      rw [if_pos he, List.filter_cons_of_pos (by simpa using h.symm),
        List.filter_cons_of_pos (by simpa using hea), hcons, if_pos he]
    · rw [if_neg he]
      by_cases hea : e.1 = a
      · rw [List.filter_cons_of_neg (by simpa using hea), ih,
          List.filter_cons_of_neg (by simpa using hea)]
      · rw [List.filter_cons_of_pos (by simpa using hea), ih,
          List.filter_cons_of_pos (by simpa using hea), hcons, if_neg he]

theorem lookup_mapVals [DecidableEq K] (f : K → V → V) (a : K) (es : List (K × V)) :
    (es.map fun e => (e.1, f e.1 e.2)).lookup a = (es.lookup a).map (f a) := by
  induction es with
  | nil => rfl
  | cons e _ ih =>
    obtain ⟨b, w⟩ := e
    rw [List.map_cons, lookup_cons_ite, lookup_cons_ite, ih]
    by_cases ha : a = b <;> simp [ha]

theorem lookup_filter [DecidableEq K] (p : K → V → Bool) (a : K)
    (h : (es.map Prod.fst).Nodup) :
    (es.filter fun e => p e.1 e.2).lookup a = (es.lookup a).filter (p a) := by
  induction es with
  | nil => rfl
  | cons e es ih =>
    obtain ⟨b, w⟩ := e
    rw [List.map_cons, List.nodup_cons] at h
    have hno : a = b → es.lookup a = none := fun hab =>
      List.lookup_eq_none_iff.2 fun q hq => by
        have hne : b ≠ q.1 := fun he => h.1 (List.mem_map.2 ⟨q, hq, he.symm⟩)
        simp [hab, hne]
    by_cases hp : p b w
    · rw [List.filter_cons_of_pos (by exact hp), lookup_cons_ite, lookup_cons_ite, ih h.2]
      by_cases ha : a = b
      · subst ha
        rw [if_pos rfl, if_pos rfl, Option.filter_some, if_pos hp]
      · rw [if_neg ha, if_neg ha]
    · rw [List.filter_cons_of_neg (by exact hp), lookup_cons_ite, ih h.2]
      by_cases ha : a = b
      · subst ha
        simp [Option.filter, hp, hno rfl]
      · rw [if_neg ha]

theorem mem_iff_lookup [DecidableEq K] (k : K) (v : V)
    (h : (es.map Prod.fst).Nodup) : (k, v) ∈ es ↔ es.lookup k = some v := by
  induction es with
  | nil => simp
  | cons e es ih =>
    obtain ⟨b, w⟩ := e
    rw [List.map_cons, List.nodup_cons] at h
    rw [List.mem_cons, lookup_cons_ite, ih h.2]
    by_cases hk : k = b
    · rw [if_pos hk, Prod.mk.injEq, Option.some.injEq]
      have hno : es.lookup k ≠ some v := fun hl =>
        h.1 (List.mem_map.2 ⟨(k, v), (ih h.2).2 hl, hk⟩)
      exact ⟨fun hm => hm.elim (fun he => he.2.symm) (absurd · hno), fun hv => .inl ⟨hk, hv.symm⟩⟩
    · simp [hk]

/-! ## Dictionaries -/

/-- A finite map, its entries in the order their keys were first inserted. -/
structure Dict (K V : Type*) where
  entries : List (K × V)
  nodup : (entries.map Prod.fst).Nodup

namespace Dict

theorem ext' {d e : Dict K V} (h : d.entries = e.entries) : d = e := by
  cases d
  cases e
  simpa using h

instance [DecidableEq K] [DecidableEq V] : DecidableEq (Dict K V) := fun d e =>
  decidable_of_iff (d.entries = e.entries) ⟨ext', fun h => h ▸ rfl⟩

/-- No entries. -/
def empty : Dict K V := ⟨[], by simp⟩

/-- The values, in entry order. -/
def values (d : Dict K V) : List V := d.entries.map Prod.snd

/-- Replace every value; keys and order stay. -/
def mapVals (f : K → V → V) (d : Dict K V) : Dict K V where
  entries := d.entries.map fun e => (e.1, f e.1 e.2)
  nodup := by simpa [Function.comp_def] using d.nodup

/-- Keep the entries that `p` holds of. -/
def filter (p : K → V → Bool) (d : Dict K V) : Dict K V where
  entries := d.entries.filter fun e => p e.1 e.2
  nodup := d.nodup.sublist (List.filter_sublist.map _)

variable [DecidableEq K]

/-- The value at `k`. -/
def get? (d : Dict K V) (k : K) : Option V := d.entries.lookup k

/-- Overwrite the value at `k` in place, or append an entry. -/
def insert (d : Dict K V) (k : K) (v : V) :
    Dict K V := ⟨upsert k v d.entries, nodup_upsert k v d.nodup⟩

/-- Drop the entry of `k`. -/
def erase (d : Dict K V) (k : K) : Dict K V where
  entries := d.entries.filter fun e => e.1 ≠ k
  nodup := d.nodup.sublist (List.filter_sublist.map _)

/-- `{k: v for k, v in es}`. -/
def ofList (es : List (K × V)) : Dict K V := es.foldl (fun d e => d.insert e.1 e.2) empty

/-- `{**d, **e}`. -/
def update (d e : Dict K V) : Dict K V := e.entries.foldl (fun d e => d.insert e.1 e.2) d

@[simp] theorem get?_empty (k : K) : (empty : Dict K V).get? k = none := rfl

theorem get?_insert (d : Dict K V) (k a : K) (v : V) :
    (d.insert k v).get? a = if a = k then some v else d.get? a :=
  lookup_upsert k a v d.entries

@[simp] theorem get?_insert_self (d : Dict K V) (k : K) (v : V) :
    (d.insert k v).get? k = some v := by
  rw [get?_insert, if_pos rfl]

theorem get?_insert_of_ne (d : Dict K V) {k a : K} (v : V) (h : a ≠ k) :
    (d.insert k v).get? a = d.get? a := by
  rw [get?_insert, if_neg h]

variable {d : Dict K V}

theorem get?_insert_cases {k a : K} {v w : V} (h : (d.insert k v).get? a = some w) :
    a = k ∧ w = v ∨ a ≠ k ∧ d.get? a = some w := by
  rw [get?_insert] at h
  split at h
  · rename_i ha
    exact .inl ⟨ha, (Option.some.inj h).symm⟩
  · rename_i ha
    exact .inr ⟨ha, h⟩

theorem get?_erase (d : Dict K V) (k a : K) :
    (d.erase k).get? a = if a = k then none else d.get? a :=
  lookup_filter_ne k a d.entries

@[simp] theorem get?_erase_self (d : Dict K V) (k : K) : (d.erase k).get? k = none := by
  rw [get?_erase, if_pos rfl]

theorem get?_erase_of_ne (d : Dict K V) {k a : K} (h : a ≠ k) :
    (d.erase k).get? a = d.get? a := by
  rw [get?_erase, if_neg h]

theorem get?_erase_some {k a : K} {w : V} (h : (d.erase k).get? a = some w) :
    a ≠ k ∧ d.get? a = some w := by
  rw [get?_erase] at h
  split at h
  · cases h
  · exact ⟨‹_›, h⟩

theorem get?_mapVals (f : K → V → V) (d : Dict K V) (a : K) :
    (d.mapVals f).get? a = (d.get? a).map (f a) :=
  lookup_mapVals f a d.entries

theorem get?_filter (p : K → V → Bool) (d : Dict K V) (a : K) :
    (d.filter p).get? a = (d.get? a).filter (p a) :=
  lookup_filter p a d.nodup

/-- **An entry is what `get?` returns**: keys are distinct. -/
theorem mem_entries (d : Dict K V) (k : K) (v : V) : (k, v) ∈ d.entries ↔ d.get? k = some v :=
  mem_iff_lookup k v d.nodup

theorem mem_values (d : Dict K V) (v : V) : v ∈ d.values ↔ ∃ k, d.get? k = some v := by
  unfold values
  rw [List.mem_map]
  constructor
  · rintro ⟨⟨k, w⟩, h, rfl⟩
    exact ⟨k, (mem_entries d k w).1 h⟩
  · rintro ⟨k, h⟩
    exact ⟨(k, v), (mem_entries d k v).2 h, rfl⟩

theorem mem_keys (d : Dict K V) (k : K) : k ∈ d.entries.map Prod.fst ↔ d.get? k ≠ none := by
  rw [List.mem_map, Option.ne_none_iff_exists']
  constructor
  · rintro ⟨⟨a, v⟩, h, rfl⟩
    exact ⟨v, (mem_entries d a v).1 h⟩
  · rintro ⟨v, h⟩
    exact ⟨(k, v), (mem_entries d k v).2 h, rfl⟩

/-- **Two dictionaries that say the same at every key** have the same entries, up to their order. -/
theorem entries_perm {V' : Type*} {e : Dict K V'} (f : V' → V)
    (h : ∀ k, d.get? k = (e.get? k).map f) :
    d.entries.Perm (e.entries.map fun p => (p.1, f p.2)) := by
  have hkeys : ((e.entries.map fun p => (p.1, f p.2)).map Prod.fst).Nodup := by
    simpa [Function.comp_def] using e.nodup
  refine (List.perm_ext_iff_of_nodup (.of_map _ d.nodup) (.of_map _ hkeys)).2 fun p => ?_
  obtain ⟨k, v⟩ := p
  rw [mem_entries, h, Option.map_eq_some_iff, List.mem_map]
  constructor
  · rintro ⟨w, hw, rfl⟩
    exact ⟨(k, w), (mem_entries e k w).2 hw, rfl⟩
  · rintro ⟨⟨a, w⟩, hw, heq⟩
    cases heq
    exact ⟨w, (mem_entries e a w).1 hw, rfl⟩

theorem entries_ofList {es : List (K × V)} (h : (es.map Prod.fst).Nodup) :
    (ofList es).entries = es := by
  suffices hfold : ∀ (es : List (K × V)) (d : Dict K V), ((d.entries ++ es).map Prod.fst).Nodup →
      (es.foldl (fun d e => d.insert e.1 e.2) d).entries = d.entries ++ es from
    hfold es empty (by simpa [empty] using h)
  intro es
  induction es with
  | nil => simp
  | cons e _ ih =>
    intro d hd
    have hnew : e.1 ∉ d.entries.map Prod.fst := by
      rw [List.map_append, List.map_cons] at hd
      exact fun hin => List.disjoint_of_nodup_append hd hin List.mem_cons_self
    have hentries : (d.insert e.1 e.2).entries = d.entries ++ [e] := upsert_append e.2 hnew
    rw [List.foldl_cons, ih, hentries, List.append_assoc, List.singleton_append]
    rwa [hentries, List.append_assoc, List.singleton_append]

theorem values_perm_erase {k : K} {v : V} (h : d.get? k = some v) :
    d.values.Perm (v :: (d.erase k).values) := by
  classical
  have hmem := (mem_entries d k v).2 h
  have herase : (d.erase k).entries = d.entries.erase (k, v) := by
    rw [(List.Nodup.of_map _ d.nodup).erase_eq_filter]
    refine List.filter_congr fun e he => ?_
    by_cases hk : e.1 = k
    · have hv := List.inj_on_of_nodup_map d.nodup he hmem hk
      simp [hv]
    · have hne : e ≠ (k, v) := fun heq => hk (congrArg Prod.fst heq)
      simp [hk, hne]
  unfold values
  rw [herase]
  exact (List.perm_cons_erase hmem).map Prod.snd

theorem values_insert {k : K} (v : V) (h : d.get? k = none) :
    (d.insert k v).values = d.values ++ [v] := by
  have hnew : k ∉ d.entries.map Prod.fst := by
    rw [mem_keys, h]
    exact fun hne => hne rfl
  unfold values
  rw [show (d.insert k v).entries = d.entries ++ [(k, v)] from upsert_append v hnew,
    List.map_append]
  rfl

theorem erase_insert (d : Dict K V) (k a : K) (v : V) :
    (d.insert k v).erase a = if a = k then d.erase a else (d.erase a).insert k v := by
  split_ifs with h
  · exact ext' (filter_upsert_self k v d.entries h)
  · exact ext' (filter_upsert_of_ne k v d.entries h)

/-- Every value under its own key; the last one of a key stays. -/
def insertAll (f : V → K) (vs : List V) (d : Dict K V) : Dict K V :=
  vs.foldl (fun d v => d.insert (f v) v) d

theorem insertAll_append (f : V → K) (vs ws : List V) (d : Dict K V) :
    d.insertAll f (vs ++ ws) = (d.insertAll f vs).insertAll f ws := List.foldl_append

theorem get?_insertAll (f : V → K) (vs : List V) (d : Dict K V) (k : K) :
    (k ∉ vs.map f ∧ (d.insertAll f vs).get? k = d.get? k) ∨
      ∃ v ∈ vs, f v = k ∧ (d.insertAll f vs).get? k = some v := by
  induction vs generalizing d with
  | nil => exact .inl ⟨by simp, rfl⟩
  | cons v _ ih =>
    rcases ih (d.insert (f v) v) with ⟨hnot, hget⟩ | ⟨w, hw, hk, hget⟩
    · by_cases hk : f v = k
      · subst hk
        exact .inr ⟨v, List.mem_cons_self, rfl, hget.trans (get?_insert_self _ _ _)⟩
      · refine .inl ⟨?_, hget.trans (get?_insert_of_ne _ _ (Ne.symm hk))⟩
        rw [List.map_cons, List.mem_cons, not_or]
        exact ⟨Ne.symm hk, hnot⟩
    · exact .inr ⟨w, List.mem_cons_of_mem _ hw, hk, hget⟩

theorem get?_insertAll_of_nodup {f : V → K} {vs : List V} (h : (vs.map f).Nodup)
    (d : Dict K V) {v : V} (hv : v ∈ vs) : (d.insertAll f vs).get? (f v) = some v := by
  rcases get?_insertAll f vs d (f v) with ⟨hnot, -⟩ | ⟨w, hw, hk, hget⟩
  · exact absurd (List.mem_map_of_mem hv) hnot
  · rw [hget, List.inj_on_of_nodup_map h hw hv hk]

theorem entries_insertAll {f : V → K} {vs : List V} (h : (vs.map f).Nodup) :
    ((empty : Dict K V).insertAll f vs).entries = vs.map fun v => (f v, v) := by
  have hofList : ofList (vs.map fun v => (f v, v)) = (empty : Dict K V).insertAll f vs :=
    List.foldl_map
  rw [← hofList, entries_ofList]
  rwa [List.map_map]

theorem insert_of_get? {k : K} {v : V} (h : d.get? k = some v) : d.insert k v = d :=
  ext' (upsert_of_mem d.nodup ((mem_entries d k v).2 h))

theorem erase_of_get?_none {k : K} (h : d.get? k = none) : d.erase k = d := by
  refine ext' (List.filter_eq_self.2 fun e he => ?_)
  have hne : e.1 ≠ k := fun heq => (mem_keys d k).1 (List.mem_map.2 ⟨e, he, heq⟩) h
  simpa using hne

end Dict

/-! ## Values under their own keys -/

section Tables

variable {K V : Type*} [DecidableEq K]

/-- Values stored under their own keys. -/
structure Table (K V : Type*) [DecidableEq K] (key : V → K) where
  rows : Dict K V
  keyed : ∀ {k v}, rows.get? k = some v → key v = k

namespace Table

variable {key : V → K} {t : Table K V key} {k : K} {v w : V}

/-- Nothing stored. -/
def empty : Table K V key := ⟨.empty, by simp⟩

/-- The value at `k`. -/
def get? (t : Table K V key) (k : K) : Option V := t.rows.get? k

/-- The values, in the order their keys came. -/
def values (t : Table K V key) : List V := t.rows.values

/-- Store a value under its key. -/
def put (t : Table K V key) (v : V) : Table K V key where
  rows := t.rows.insert (key v) v
  keyed := by
    intro k w h
    rw [Dict.get?_insert] at h
    split at h
    · rename_i hk
      rw [hk, ← Option.some.inj h]
    · exact t.keyed h

/-- Keep the values that `p` holds of. -/
def filter (p : V → Bool) (t : Table K V key) : Table K V key where
  rows := t.rows.filter fun _ v => p v
  keyed := by
    intro k v h
    rw [Dict.get?_filter, Option.filter_eq_some_iff] at h
    exact t.keyed h.1

/-- Change values, but not their keys. -/
def map (f : V → V) (hf : ∀ v, key (f v) = key v) (t : Table K V key) : Table K V key where
  rows := t.rows.mapVals fun _ v => f v
  keyed := by
    intro k v h
    rw [Dict.get?_mapVals, Option.map_eq_some_iff] at h
    obtain ⟨w, hw, rfl⟩ := h
    rw [hf, t.keyed hw]

theorem get?_filter (p : V → Bool) (t : Table K V key) (k : K) :
    (t.filter p).get? k = (t.get? k).filter p :=
  Dict.get?_filter _ _ _

theorem get?_map {f : V → V} (hf : ∀ v, key (f v) = key v) (t : Table K V key) (k : K) :
    (t.map f hf).get? k = (t.get? k).map f :=
  Dict.get?_mapVals _ _ _

@[simp] theorem values_filter (p : V → Bool) (t : Table K V key) :
    (t.filter p).values = t.values.filter p := by
  simp [values, filter, Dict.values, Dict.filter, List.filter_map, Function.comp_def]

theorem nodup_keys (t : Table K V key) : (t.values.map key).Nodup := by
  have hkeys : t.values.map key = t.rows.entries.map Prod.fst := by
    rw [values, Dict.values, List.map_map]
    exact List.map_congr_left fun e he => t.keyed ((Dict.mem_entries _ _ _).1 he)
  exact hkeys ▸ t.rows.nodup

@[simp] theorem get?_empty (k : K) : (empty : Table K V key).get? k = none := rfl

theorem get?_put (t : Table K V key) (v : V) (k : K) :
    (t.put v).get? k = if k = key v then some v else t.get? k :=
  Dict.get?_insert _ _ _ _

@[simp] theorem get?_put_self (t : Table K V key) (v : V) : (t.put v).get? (key v) = some v := by
  rw [get?_put, if_pos rfl]

theorem get?_put_of_ne (t : Table K V key) (v : V) (h : k ≠ key v) :
    (t.put v).get? k = t.get? k := by
  rw [get?_put, if_neg h]

theorem key_of_get? (h : t.get? k = some v) : key v = k := t.keyed h

theorem get?_put_eq_some : (t.put v).get? k = some w ↔
    k = key v ∧ w = v ∨ k ≠ key v ∧ t.get? k = some w := by
  rw [get?_put]
  by_cases h : k = key v
  · simp [h, eq_comm]
  · simp [h]

theorem mem_values : v ∈ t.values ↔ t.get? (key v) = some v := by
  unfold values
  rw [Dict.mem_values]
  constructor
  · rintro ⟨k, h⟩
    rwa [t.keyed h]
  · exact fun h => ⟨_, h⟩

theorem find?_values (t : Table K V key) (k : K) :
    (t.values.find? fun v => key v = k) = t.get? k := by
  cases hfind : t.values.find? fun v => key v = k with
  | some v =>
    have hkey : key v = k := by simpa using List.find?_some hfind
    rw [← hkey, ← mem_values.1 (List.mem_of_find?_eq_some hfind)]
  | none =>
    cases hget : t.get? k with
    | none => rfl
    | some v =>
      have hkey := t.keyed hget
      have hmem : v ∈ t.values := mem_values.2 (hkey ▸ hget)
      exact absurd (decide_eq_true hkey) (List.find?_eq_none.1 hfind v hmem)

theorem mem_values_put : w ∈ (t.put v).values ↔ w = v ∨ key w ≠ key v ∧ w ∈ t.values := by
  rw [mem_values, get?_put_eq_some, mem_values]
  constructor
  · rintro (⟨-, rfl⟩ | h)
    · exact .inl rfl
    · exact .inr h
  · rintro (rfl | h)
    · exact .inl ⟨rfl, rfl⟩
    · exact .inr h

theorem values_put (v : V) (h : t.get? (key v) = none) : (t.put v).values = t.values ++ [v] :=
  Dict.values_insert v h

end Table

end Tables

end Scenara.Core
