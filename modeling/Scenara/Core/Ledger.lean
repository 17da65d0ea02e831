import Mathlib.Data.List.Nodup
import Mathlib.Data.List.Count

/-!
# Labels and the accounts that count them

Sheets carry labels; an account keeps how often its label was given, and the indexes of the sheets
it was given on. `Balanced` is the invariant: no sheet has a label twice, every label has one
account, and every account counts its label. It holds

* after a label is given on the current sheet (`Balanced.mark`), also to a new account
  (`Balanced.openAccount`),
* after an account is merged into another one, when no sheet index is in both (`Balanced.merge`).
-/

namespace Scenara.Core

variable {K T : Type*}

/-- The labels given at one index. -/
structure Sheet (K T : Type*) where
  index : T
  labels : List K

/-- What is known of a label. -/
structure Account (K T : Type*) where
  id : K
  count : Nat
  seen : List T

variable [DecidableEq K]

/-- **The invariant.** -/
structure Balanced (sheets : List (Sheet K T)) (accounts : List (Account K T)) : Prop where
  ids : (accounts.map Account.id).Nodup
  known : ∀ s ∈ sheets, ∀ k ∈ s.labels, k ∈ accounts.map Account.id
  count : ∀ a ∈ accounts, a.count = (sheets.flatMap Sheet.labels).count a.id
  exclusive : ∀ s ∈ sheets, s.labels.Nodup
  seen : ∀ a ∈ accounts, ∀ s ∈ sheets, a.id ∈ s.labels → s.index ∈ a.seen

variable {sheets sheets' : List (Sheet K T)} {accounts accounts' : List (Account K T)} {i : T}
  {ls ls' : List K} {k : K}

theorem balanced_nil : Balanced ([] : List (Sheet K T)) [] :=
  ⟨List.nodup_nil, by simp, by simp, by simp, by simp⟩

theorem Balanced.perm (h : Balanced sheets accounts) (hperm : accounts.Perm accounts') :
    Balanced sheets accounts' where
  ids := (hperm.map _).nodup_iff.1 h.ids
  known s hs k hk := (hperm.map _).mem_iff.1 (h.known s hs k hk)
  count a ha := h.count a (hperm.mem_iff.2 ha)
  exclusive := h.exclusive
  seen a ha := h.seen a (hperm.mem_iff.2 ha)

theorem Balanced.perm_sheets (h : Balanced sheets accounts) (hperm : sheets.Perm sheets') :
    Balanced sheets' accounts where
  ids := h.ids
  known s hs := h.known s (hperm.mem_iff.2 hs)
  count a ha := by rw [h.count a ha, (hperm.flatMap_right _).count_eq]
  exclusive s hs := h.exclusive s (hperm.mem_iff.2 hs)
  seen a ha s hs := h.seen a ha s (hperm.mem_iff.2 hs)

theorem Balanced.perm_labels (h : Balanced (⟨i, ls⟩ :: sheets) accounts) (hperm : ls.Perm ls') :
    Balanced (⟨i, ls'⟩ :: sheets) accounts := by
  obtain ⟨ids, known, count, exclusive, seen⟩ := h
  simp only [List.forall_mem_cons, List.flatMap_cons] at known count exclusive seen
  refine ⟨ids, List.forall_mem_cons.2 ⟨fun k hk => known.1 k (hperm.mem_iff.2 hk), known.2⟩,
    fun a ha => ?_, List.forall_mem_cons.2 ⟨hperm.nodup_iff.1 exclusive.1, exclusive.2⟩,
    fun a ha => List.forall_mem_cons.2 ⟨fun hk => (seen a ha).1 (hperm.mem_iff.2 hk),
      (seen a ha).2⟩⟩
  rw [List.flatMap_cons, List.count_append, ← hperm.count_eq, ← List.count_append]
  exact count a ha

theorem Balanced.newSheet (h : Balanced sheets accounts) (i : T) :
    Balanced (⟨i, []⟩ :: sheets) accounts where
  ids := h.ids
  known := List.forall_mem_cons.2 ⟨by simp, h.known⟩
  count := h.count
  exclusive := List.forall_mem_cons.2 ⟨List.nodup_nil, h.exclusive⟩
  seen a ha := List.forall_mem_cons.2 ⟨by simp, h.seen a ha⟩

/-! ## Giving a label -/

/-- Count the label `k`, given at the index `i`. -/
def Account.mark (k : K) (i : T) (a : Account K T) : Account K T :=
  if a.id = k then ⟨a.id, a.count + 1, a.seen ++ [i]⟩ else a

@[simp] theorem Account.mark_id (k : K) (i : T) (a : Account K T) : (a.mark k i).id = a.id := by
  unfold Account.mark
  split <;> rfl

theorem Account.seen_mark (k : K) (i : T) (a : Account K T) : a.seen ⊆ (a.mark k i).seen := by
  unfold Account.mark
  split
  · exact List.subset_append_left _ _
  · exact List.Subset.refl _

theorem map_mark_id (k : K) (i : T) (accounts : List (Account K T)) :
    (accounts.map (Account.mark k i)).map Account.id = accounts.map Account.id := by
  rw [List.map_map]
  exact List.map_congr_left fun a _ => a.mark_id k i

theorem Balanced.mark (h : Balanced (⟨i, ls⟩ :: sheets) accounts) (hk : k ∈ accounts.map Account.id)
    (hnew : k ∉ ls) : Balanced (⟨i, k :: ls⟩ :: sheets) (accounts.map (Account.mark k i)) := by
  obtain ⟨_, known, count, exclusive, seen⟩ := h
  simp only [List.forall_mem_cons, List.flatMap_cons] at known count exclusive seen
  refine ⟨?_, ?_, ?_, ?_, ?_⟩
  · rwa [map_mark_id]
  · rw [map_mark_id]
    exact List.forall_mem_cons.2 ⟨List.forall_mem_cons.2 ⟨hk, known.1⟩, known.2⟩
  · intro b hb
    obtain ⟨a, ha, rfl⟩ := List.mem_map.1 hb
    rw [Account.mark_id, List.flatMap_cons, List.cons_append]
    unfold Account.mark
    by_cases hak : a.id = k
    · rw [if_pos hak, hak, List.count_cons_self, ← hak, ← count a ha]
    · rw [if_neg hak, List.count_cons_of_ne (Ne.symm hak), count a ha]
  · exact List.forall_mem_cons.2 ⟨List.nodup_cons.2 ⟨hnew, exclusive.1⟩, exclusive.2⟩
  · intro b hb
    obtain ⟨a, ha, rfl⟩ := List.mem_map.1 hb
    rw [Account.mark_id]
    refine List.forall_mem_cons.2 ⟨fun hin => ?_, fun s hs hin => ?_⟩
    · rcases List.mem_cons.1 hin with hak | hin
      · unfold Account.mark
        rw [if_pos hak]
        exact List.mem_append_right _ (List.mem_singleton_self i)
      · exact Account.seen_mark k i a ((seen a ha).1 hin)
    · exact Account.seen_mark k i a ((seen a ha).2 s hs hin)

theorem Balanced.openAccount (h : Balanced (⟨i, ls⟩ :: sheets) accounts)
    (hk : k ∉ accounts.map Account.id) :
    Balanced (⟨i, k :: ls⟩ :: sheets) (⟨k, 1, [i]⟩ :: accounts) := by
  obtain ⟨ids, known, count, exclusive, seen⟩ := h
  simp only [List.forall_mem_cons, List.flatMap_cons] at known count exclusive seen
  have hls : k ∉ ls := fun hin => hk (known.1 k hin)
  have hsheets : k ∉ sheets.flatMap Sheet.labels := fun hin => by
    obtain ⟨s, hs, hin⟩ := List.mem_flatMap.1 hin
    exact hk (known.2 s hs k hin)
  have hne : ∀ a ∈ accounts, a.id ≠ k := fun a ha hak => hk (List.mem_map.2 ⟨a, ha, hak⟩)
  refine ⟨List.nodup_cons.2 ⟨hk, ids⟩, ?_, ?_, ?_, ?_⟩
  · rw [List.map_cons]
    exact List.forall_mem_cons.2 ⟨List.forall_mem_cons.2 ⟨List.mem_cons_self,
      fun l hl => List.mem_cons_of_mem _ (known.1 l hl)⟩,
      fun s hs l hl => List.mem_cons_of_mem _ (known.2 s hs l hl)⟩
  · refine List.forall_mem_cons.2 ⟨?_, fun a ha => ?_⟩
    · rw [List.flatMap_cons, List.cons_append, List.count_cons_self, List.count_append,
        List.count_eq_zero_of_not_mem hls, List.count_eq_zero_of_not_mem hsheets]
    · rw [List.flatMap_cons, List.cons_append, List.count_cons_of_ne (Ne.symm (hne a ha)),
        count a ha]
  · exact List.forall_mem_cons.2 ⟨List.nodup_cons.2 ⟨hls, exclusive.1⟩, exclusive.2⟩
  · refine List.forall_mem_cons.2 ⟨List.forall_mem_cons.2 ⟨fun _ => List.mem_singleton_self i,
      fun s hs hin => absurd (List.mem_flatMap.2 ⟨s, hs, hin⟩) hsheets⟩, fun a ha => ?_⟩
    refine List.forall_mem_cons.2 ⟨fun hin => ?_, (seen a ha).2⟩
    exact (seen a ha).1 ((List.mem_cons.1 hin).resolve_left (hne a ha))

/-! ## Merging -/

/-- `source` renamed to `target`. -/
def renamed (source target k : K) : K := if k = source then target else k

/-- Rename a label. -/
def Sheet.rename (source target : K) (s : Sheet K T) : Sheet K T :=
  ⟨s.index, s.labels.map (renamed source target)⟩

variable {source target : K}

theorem count_renamed_target (hne : source ≠ target) (ls : List K) :
    (ls.map (renamed source target)).count target = ls.count target + ls.count source := by
  induction ls with
  | nil => rfl
  | cons l _ ih =>
    rw [List.map_cons]
    unfold renamed
    by_cases hl : l = source
    · rw [if_pos hl, hl, List.count_cons_self, List.count_cons_self,
        List.count_cons_of_ne hne]
      exact (congrArg (· + 1) ih).trans (Nat.add_assoc _ _ _)
    · rw [if_neg hl, List.count_cons, List.count_cons, List.count_cons_of_ne hl]
      exact (congrArg (· + _) ih).trans (Nat.add_right_comm _ _ _)

theorem count_renamed_other (hk : k ≠ target) (hk' : k ≠ source)
    (ls : List K) : (ls.map (renamed source target)).count k = ls.count k := by
  induction ls with
  | nil => rfl
  | cons l _ ih =>
    rw [List.map_cons, List.count_cons, List.count_cons, ih]
    unfold renamed
    by_cases hl : l = source
    · simp [hl, Ne.symm hk, Ne.symm hk']
    · rw [if_neg hl]

theorem mem_map_renamed :
    k ∈ ls.map (renamed source target) ↔ k = target ∧ source ∈ ls ∨ k ≠ source ∧ k ∈ ls := by
  rw [List.mem_map]
  unfold renamed
  constructor
  · rintro ⟨l, hl, rfl⟩
    by_cases hls : l = source
    · rw [if_pos hls]
      exact .inl ⟨rfl, hls ▸ hl⟩
    · rw [if_neg hls]
      exact .inr ⟨hls, hl⟩
  · rintro (⟨rfl, hin⟩ | ⟨hne, hin⟩)
    · exact ⟨source, hin, if_pos rfl⟩
    · exact ⟨k, hin, if_neg hne⟩

theorem nodup_map_renamed (h : ls.Nodup)
    (hboth : ¬(target ∈ ls ∧ source ∈ ls)) : (ls.map (renamed source target)).Nodup := by
  refine h.map_on fun k hk l hl hkl => ?_
  unfold renamed at hkl
  by_cases hks : k = source <;> by_cases hls : l = source
  · rw [hks, hls]
  · rw [if_pos hks, if_neg hls] at hkl
    exact absurd ⟨hkl ▸ hl, hks ▸ hk⟩ hboth
  · rw [if_neg hks, if_pos hls] at hkl
    exact absurd ⟨hkl ▸ hk, hls ▸ hl⟩ hboth
  · rwa [if_neg hks, if_neg hls] at hkl

theorem Balanced.merge {p q : Account K T} (h : Balanced sheets (p :: q :: accounts))
    (hdisjoint : p.seen.Disjoint q.seen) :
    Balanced (sheets.map (Sheet.rename q.id p.id))
      (⟨p.id, p.count + q.count, p.seen ++ q.seen⟩ :: accounts) := by
  obtain ⟨ids, known, count, exclusive, seen⟩ := h
  simp only [List.forall_mem_cons] at count seen
  simp only [List.map_cons, List.nodup_cons, List.mem_cons, not_or] at ids known
  obtain ⟨⟨hpq, hp⟩, hq, hrest⟩ := ids
  have hlabels : (sheets.map (Sheet.rename q.id p.id)).flatMap Sheet.labels =
      (sheets.flatMap Sheet.labels).map (renamed q.id p.id) := by
    rw [List.flatMap_map, List.map_flatMap]
    rfl
  have hne : ∀ a ∈ accounts, a.id ≠ p.id ∧ a.id ≠ q.id := fun a ha =>
    ⟨fun hap => hp (List.mem_map.2 ⟨a, ha, hap⟩), fun haq => hq (List.mem_map.2 ⟨a, ha, haq⟩)⟩
  refine ⟨List.nodup_cons.2 ⟨hp, hrest⟩, ?_, ?_, ?_, ?_⟩
  · rw [List.forall_mem_map]
    intro s hs k hk
    rcases mem_map_renamed.1 hk with ⟨rfl, -⟩ | ⟨hkq, hk⟩
    · exact List.mem_cons_self
    · exact List.mem_cons.2 ((known s hs k hk).imp_right fun hin => hin.resolve_left hkq)
  · refine List.forall_mem_cons.2 ⟨?_, fun a ha => ?_⟩
    · rw [hlabels, count_renamed_target (Ne.symm hpq), ← count.1, ← count.2.1]
    · rw [hlabels, count_renamed_other (hne a ha).1 (hne a ha).2, count.2.2 a ha]
  · rw [List.forall_mem_map]
    exact fun s hs => nodup_map_renamed (exclusive s hs) fun hin =>
      hdisjoint (seen.1 s hs hin.1) (seen.2.1 s hs hin.2)
  · refine List.forall_mem_cons.2 ⟨?_, fun a ha => ?_⟩
    · rw [List.forall_mem_map]
      intro s hs hin
      rcases mem_map_renamed.1 hin with ⟨-, hin⟩ | ⟨-, hin⟩
      · exact List.mem_append_right _ (seen.2.1 s hs hin)
      · exact List.mem_append_left _ (seen.1 s hs hin)
    · rw [List.forall_mem_map]
      intro s hs hin
      rcases mem_map_renamed.1 hin with ⟨hap, -⟩ | ⟨-, hin⟩
      · exact absurd hap (hne a ha).1
      · exact seen.2.2 a ha s hs hin

end Scenara.Core
