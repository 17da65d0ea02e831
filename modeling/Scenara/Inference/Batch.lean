import Scenara.Inference.Model

/-!
# The batches are fair
-/

namespace Scenara.Inference

open Scenara.Core

variable {Row : Type} {maxBatchSize : Nat} {items queue batch : List (ScheduledInference Row)}
  {p : Picked Row} {item seed : ScheduledInference Row} {scope : String}

/-! ## Rounds -/

/-- The item no longer fits. -/
abbrev NoRoom (maxBatchSize : Nat) (p : Picked Row) (item : ScheduledInference Row) : Prop :=
  p.selected ≠ [] ∧ p.selectedSize + item.size > maxBatchSize

/-- Of each scope, the first items are selected. -/
structure Picks (maxBatchSize : Nat) (items : List (ScheduledInference Row)) (p : Picked Row) :
    Prop where
  split : ∀ scope, (p.selected.filter fun item => item.scope = scope) ++ p.queue scope =
    items.filter fun item => item.scope = scope
  size : p.selectedSize = totalSize p.selected
  fits : p.selectedSize ≤ maxBatchSize ∨ p.selected.length ≤ 1

section

variable (h : Picks maxBatchSize items p)
include h

theorem Picks.scope_of_queue (hqueue : item ∈ p.queue scope) : item.scope = scope := by
  have hmem : item ∈ items.filter fun item => item.scope = scope := by
    rw [← h.split scope]
    exact List.mem_append_right _ hqueue
  exact of_decide_eq_true (List.mem_filter.1 hmem).2

theorem Picks.take (hqueue : p.queue scope = item :: queue) (hfits : ¬NoRoom maxBatchSize p item) :
    Picks maxBatchSize items (p.take scope item queue) where
  split scope' := by
    have hscope : item.scope = scope := h.scope_of_queue (hqueue ▸ List.mem_cons_self)
    have hsplit := h.split scope'
    have hnext : (p.take scope item queue).queue scope' = if scope' = scope then queue
        else p.queue scope' := by
      unfold Picked.take Picked.queue
      rw [Dict.get?_insert]
      split <;> rfl
    rw [hnext, ← hsplit]
    unfold Picked.take
    rw [List.filter_append]
    by_cases hs : scope' = scope
    · subst hs
      rw [if_pos rfl, hqueue, List.filter_cons_of_pos (by simpa using hscope), List.filter_nil,
        List.append_assoc]
      rfl
    · rw [if_neg hs, List.filter_cons_of_neg (by simpa [hscope] using Ne.symm hs), List.filter_nil,
        List.append_nil]
  size := by
    unfold Picked.take
    rw [h.size]
    simp [totalSize]
  fits := by
    unfold Picked.take
    by_cases hnil : p.selected = []
    · right
      simp [hnil]
    · left
      exact not_lt.1 fun hgt => hfits ⟨hnil, hgt⟩

end

section

variable {P : Picked Row → Prop}

theorem takeTurn_ind (htake : ∀ {p item queue}, p.queue scope = item :: queue →
      ¬NoRoom maxBatchSize p item → P p → P (p.take scope item queue))
    (h : P p) (allowance : Nat) : P (takeTurn maxBatchSize scope allowance p) := by
  induction allowance generalizing p with
  | zero => exact h
  | succ _ ih =>
    unfold takeTurn
    split
    · exact h
    · rename_i item queue hqueue
      split
      · exact h
      · rename_i hfits
        split
        · exact htake hqueue hfits h
        · exact ih (htake hqueue hfits h)

theorem takeRound_ind {scopes : List String}
    (htake : ∀ scope ∈ scopes, ∀ {p item queue}, p.queue scope = item :: queue →
      ¬NoRoom maxBatchSize p item → P p → P (p.take scope item queue))
    (h : P p) (remaining : List String) : P (takeRound maxBatchSize scopes remaining p).1 := by
  induction scopes generalizing remaining p with
  | nil => exact h
  | cons scope _ ih =>
    have hturn := takeTurn_ind (htake scope List.mem_cons_self) h (allowanceOf (p.queue scope))
    unfold takeRound
    dsimp only
    split
    · exact hturn
    · exact ih (fun scope hscope => htake scope (List.mem_cons_of_mem _ hscope)) hturn _

theorem takeRounds_ind (htake : ∀ {p scope item queue}, p.queue scope = item :: queue →
      ¬NoRoom maxBatchSize p item → P p → P (p.take scope item queue))
    (h : P p) (scopes : List String) : P (takeRounds maxBatchSize scopes p) := by
  induction scopes, p using takeRounds.induct maxBatchSize with
  | case1 _ p hgo hsame =>
    rw [takeRounds, if_pos hgo, if_pos hsame]
    exact takeRound_ind (fun _ _ => htake) h []
  | case2 _ p hgo hmore ih =>
    rw [takeRounds, if_pos hgo, if_neg hmore]
    exact ih (takeRound_ind (fun _ _ => htake) h [])
  | case3 _ p hstop =>
    rwa [takeRounds, if_neg hstop]

end

/-! ## What is selected stays -/

theorem takeRounds_prefix (scopes : List String) (p : Picked Row) :
    p.selected <+: (takeRounds maxBatchSize scopes p).selected :=
  takeRounds_ind (P := fun q => p.selected <+: q.selected)
    (fun _ _ h => h.trans (List.prefix_append _ _)) (List.prefix_refl _) scopes

theorem takeTurn_takes (hqueue : p.queue scope = item :: queue)
    (hfits : ¬NoRoom maxBatchSize p item) :
    item ∈ (takeTurn maxBatchSize scope (allowanceOf (p.queue scope)) p).selected := by
  have htake : item ∈ (p.take scope item queue).selected :=
    List.mem_append_right _ List.mem_cons_self
  obtain ⟨allowance, hallowance⟩ : ∃ allowance, allowanceOf (p.queue scope) = allowance + 1 :=
    ⟨item.weight - 1, by rw [hqueue]; exact (Nat.sub_add_cancel item.weight_pos).symm⟩
  rw [hallowance, takeTurn, hqueue]
  dsimp only
  rw [if_neg hfits]
  split
  · exact htake
  · exact takeTurn_ind (P := fun q => item ∈ q.selected) (fun _ _ => List.mem_append_left _) htake
      allowance

theorem takeRound_takes (hqueue : p.queue scope = item :: queue)
    (hfits : ¬NoRoom maxBatchSize p item) (scopes remaining : List String) :
    item ∈ (takeRound maxBatchSize (scope :: scopes) remaining p).1.selected := by
  have hturn := takeTurn_takes hqueue hfits
  unfold takeRound
  dsimp only
  split
  · exact hturn
  · exact takeRound_ind (P := fun q => item ∈ q.selected) (fun _ _ _ _ _ _ _ =>
      List.mem_append_left _) hturn _

theorem takeRounds_round (hlt : p.selectedSize < maxBatchSize) {scopes : List String}
    (hne : scopes ≠ []) :
    (takeRound maxBatchSize scopes [] p).1.selected <+:
      (takeRounds maxBatchSize scopes p).selected := by
  rw [takeRounds, if_pos ⟨hne, hlt⟩]
  split
  · exact List.prefix_refl _
  · exact takeRounds_prefix _ _

/-! ## Scopes -/

theorem byScope_append (items : List (ScheduledInference Row)) (item : ScheduledInference Row) :
    byScope (items ++ [item]) = (byScope items).insert item.scope
      (((byScope items).get? item.scope).getD [] ++ [item]) := List.foldl_append

theorem byScope_queue (items : List (ScheduledInference Row)) (scope : String) :
    ((byScope items).get? scope).getD [] = items.filter fun item => item.scope = scope := by
  induction items using List.reverseRecOn with
  | nil => rfl
  | append_singleton _ item ih =>
    rw [byScope_append, Dict.get?_insert, List.filter_append]
    by_cases hs : scope = item.scope
    · subst hs
      rw [if_pos rfl, Option.getD_some, ih, List.filter_cons_of_pos (by simp)]
      rfl
    · rw [if_neg hs, ih, List.filter_cons_of_neg (by simpa using Ne.symm hs)]
      simp

theorem byScope_ne_nil {items queue : List (ScheduledInference Row)}
    (h : (byScope items).get? scope = some queue) : queue ≠ [] := by
  induction items using List.reverseRecOn generalizing queue with
  | nil => cases h
  | append_singleton _ _ ih =>
    rw [byScope_append, Dict.get?_insert] at h
    split at h
    · rw [← Option.some.inj h]
      exact List.append_ne_nil_of_right_ne_nil _ (List.cons_ne_nil _ _)
    · exact ih h

theorem mem_rotate {lastScope : Option String} {scopes : List String} :
    scope ∈ rotate lastScope scopes ↔ scope ∈ scopes := by
  unfold rotate
  split
  · rfl
  · split
    · dsimp only
      rw [List.mem_append, or_comm, ← List.mem_append, List.take_append_drop]
    · rfl

theorem picks_start (maxBatchSize : Nat) (lastScope : Option String)
    (items : List (ScheduledInference Row)) :
    Picks maxBatchSize items ⟨[], 0, lastScope, byScope items⟩ :=
  ⟨byScope_queue items, rfl, .inl (Nat.zero_le _)⟩

theorem select_picks (maxBatchSize : Nat) (lastScope : Option String)
    (queue : List (ScheduledInference Row)) (seed : ScheduledInference Row) :
    Picks maxBatchSize (queue.filter fun item => item.joins seed)
      (select maxBatchSize lastScope queue seed) :=
  takeRounds_ind (fun hqueue hfits h => h.take hqueue hfits) (picks_start ..) _

theorem select_ne_nil (hpos : 0 < maxBatchSize) (lastScope : Option String) (hseed : seed ∈ queue) :
    (select maxBatchSize lastScope queue seed).selected ≠ [] := by
  have hmem : seed ∈ queue.filter fun item => item.joins seed :=
    List.mem_filter.2 ⟨hseed, by simp [ScheduledInference.joins]⟩
  unfold select
  dsimp only
  cases hscopes : rotate lastScope ((byScope (queue.filter fun item => item.joins seed)).entries.map
    Prod.fst) with
  | nil =>
    -- The seed's scope is one of them.
    have hqueue := byScope_queue (queue.filter fun item => item.joins seed) seed.scope
    cases hget : (byScope (queue.filter fun item => item.joins seed)).get? seed.scope with
    | none =>
      rw [hget] at hqueue
      exact absurd hqueue.symm (List.ne_nil_of_mem (List.mem_filter.2 ⟨hmem, by simp⟩))
    | some =>
      have hin := (Dict.mem_entries _ _ _).2 hget
      have hkey : seed.scope ∈ (byScope (queue.filter fun item => item.joins seed)).entries.map
          Prod.fst :=
        List.mem_map.2 ⟨_, hin, rfl⟩
      have hrotated : seed.scope ∈ rotate lastScope _ := mem_rotate.2 hkey
      simp [hscopes] at hrotated
  | cons scope scopes =>
    have hscope : scope ∈ rotate lastScope _ := hscopes ▸ List.mem_cons_self
    obtain ⟨⟨first, _⟩, hin, rfl⟩ := List.mem_map.1 (mem_rotate.1 hscope)
    have hget := (Dict.mem_entries _ _ _).1 hin
    obtain ⟨item, rest, rfl⟩ := List.exists_cons_of_ne_nil (byScope_ne_nil hget)
    have hfirst : Picked.queue ⟨[], 0, lastScope,
        byScope (queue.filter fun item => item.joins seed)⟩ first = item :: rest := by
      unfold Picked.queue
      rw [hget, Option.getD_some]
    exact List.ne_nil_of_mem ((takeRounds_round hpos (List.cons_ne_nil _ _)).subset
      (takeRound_takes hfirst (fun h => h.1 rfl) scopes []))

/-! ## Batches -/

/-- What a dispatched batch is like. -/
structure Fair (maxBatchSize : Nat) (d : Dispatch Row) : Prop where
  nonempty : d.batch ≠ []
  alike : ∀ r ∈ d.batch, ∀ r' ∈ d.batch, r.priority = r'.priority ∧ r.groupKey = r'.groupKey
  fits : totalSize d.batch ≤ maxBatchSize ∨ d.batch.length = 1
  /-- Of each scope, it has the first ones that are queued with its priority and group. -/
  inOrder : ∀ scope, ∀ seed ∈ d.batch, (d.batch.filter fun item => item.scope = scope) <+:
    d.queue.filter fun item => item.scope = scope && item.joins seed
  left : d.left.Sublist d.queue
  parted : (d.batch ++ d.left).Perm d.queue

theorem Picks.first (h : Picks maxBatchSize items p) (scope : String) :
    (p.selected.filter fun item => item.scope = scope) <+: items.filter fun item => item.scope =
      scope :=
  ⟨_, h.split scope⟩

theorem Picks.subset (h : Picks maxBatchSize items p) : p.selected ⊆ items := fun item hitem =>
  List.mem_of_mem_filter ((h.first item.scope).subset (List.mem_filter.2 ⟨hitem, by simp⟩))

theorem Picks.nodup (h : Picks maxBatchSize items p) (hitems : items.Nodup) : p.selected.Nodup := by
  refine List.nodup_iff_sublist.2 fun item htwice => ?_
  have hscope := htwice.filter fun other => other.scope = item.scope
  simp only [List.filter_cons, decide_true, if_true, List.filter_nil] at hscope
  exact List.nodup_iff_sublist.1 ((hitems.filter _).sublist (h.first item.scope).sublist)
    item hscope

theorem joins_iff : item.joins seed = true ↔ item.priority = seed.priority ∧
    item.groupKey = seed.groupKey :=
  decide_eq_true_iff

theorem parted_leftOf (hids : (queue.map ScheduledInference.id).Nodup) (hbatch : batch.Nodup)
    (hsubset : batch ⊆ queue) : (batch ++ leftOf batch queue).Perm queue := by
  have hsame : (queue.filter fun item => item.id ∈ batch.map ScheduledInference.id).Perm batch := by
    refine (List.perm_ext_iff_of_nodup (hids.of_map.filter _) hbatch).2 fun item => ?_
    rw [List.mem_filter, decide_eq_true_iff, List.mem_map]
    constructor
    · rintro ⟨hitem, _, hother, hid⟩
      exact List.inj_on_of_nodup_map hids (hsubset hother) hitem hid ▸ hother
    · exact fun hitem => ⟨hsubset hitem, item, hitem, rfl⟩
  have hleft : leftOf batch queue = queue.filter fun item =>
      !decide (item.id ∈ batch.map ScheduledInference.id) :=
    List.filter_congr fun item _ => decide_not
  rw [hleft]
  exact (hsame.symm.append_right _).trans (List.filter_append_perm _ queue)

theorem fair_dispatch (hpos : 0 < maxBatchSize) (hids : (queue.map ScheduledInference.id).Nodup)
    (lastScope : Option String) (hseed : seed ∈ queue) :
    Fair maxBatchSize ⟨queue, batchOf (select maxBatchSize lastScope queue seed) seed,
      leftOf (batchOf (select maxBatchSize lastScope queue seed) seed) queue⟩ := by
  have hne := select_ne_nil hpos lastScope hseed
  have hpicks := select_picks maxBatchSize lastScope queue seed
  have hjoins : ∀ r ∈ (select maxBatchSize lastScope queue seed).selected,
      r.priority = seed.priority ∧ r.groupKey = seed.groupKey := fun r hr =>
    joins_iff.1 (List.mem_filter.1 (hpicks.subset hr)).2
  unfold batchOf
  rw [if_neg hne]
  refine ⟨hne, fun r hr r' hr' => ?_, ?_, fun scope first hfirst => ?_, List.filter_sublist, ?_⟩
  · obtain ⟨hpriority, hgroup⟩ := hjoins r hr
    obtain ⟨hpriority', hgroup'⟩ := hjoins r' hr'
    exact ⟨hpriority.trans hpriority'.symm, hgroup.trans hgroup'.symm⟩
  · rw [← hpicks.size]
    exact hpicks.fits.imp_right fun hle => Nat.le_antisymm hle (List.length_pos_iff.2 hne)
  · have hprefix := hpicks.first scope
    rw [List.filter_filter] at hprefix
    obtain ⟨hpriority, hgroup⟩ := hjoins first hfirst
    have hsame : ∀ item : ScheduledInference Row, item.joins first = item.joins seed :=
      fun item => by
      unfold ScheduledInference.joins
      rw [hpriority, hgroup]
    simpa only [hsame] using hprefix
  · exact parted_leftOf hids (hpicks.nodup (hids.of_map.filter _))
      fun r hr => List.mem_of_mem_filter (hpicks.subset hr)

end Scenara.Inference
