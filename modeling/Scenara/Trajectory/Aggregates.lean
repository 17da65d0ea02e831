import Scenara.Core.Transition
import Scenara.Trajectory.Summary

/-!
# Aggregates along a run

`_recompute`, `merge_identities` and `split_identity` work on a listing of at most 1000 segments,
and a merge looks for each source only when its turn comes.
-/

namespace Scenara.Trajectory

open Scenara.Core

variable {repo : Repository} {s : TrajectorySegment} {scope : Scope} {id : String}
  {config : Config} {uuid : UuidSource} {request : IngestRequest} {st : Ingest} {n : Nat}
variable {r : SplitIdentityRequest}

/-- **Long-term aggregates equal their segments**, and no segment is orphaned. -/
structure Aggregated (repo : Repository) : Prop where
  summary : ∀ {scope id i}, repo.getIdentity scope id = some i →
    Summarises i (repo.segmentsOf scope id)
  owned : ∀ {s}, Stored repo s → repo.getIdentity s.scope s.identityId ≠ none

theorem aggregated_empty : Aggregated .empty where
  summary h := by cases h
  owned h := by cases h

theorem getIdentity_put_ne_none {i : LongTermIdentity} (h : repo.getIdentity scope id ≠ none) :
    (repo.putIdentity i).getIdentity scope id ≠ none := by
  rw [getIdentity_putIdentity]
  split
  · simp
  · exact h

/-! ## Ingest -/

theorem aggregated_registerOn {window : Window} {identity : LongTermIdentity}
    (hissued : Issued uuid st.issued st.repo) (h : Aggregated st.repo)
    (hc : Chosen config uuid request st window identity) :
    Aggregated (registerOn uuid request st window identity).repo := by
  have hkey : (applySegment identity (newSegment uuid request window st.issued
      identity.identityId)).key = ⟨request.scope, identity.identityId⟩ := by
    rw [← hc.scope_eq]
    rfl
  have hfresh : ∀ s, Stored st.repo s →
      s.key ≠ (newSegment uuid request window st.issued identity.identityId).key := fun s hs he =>
    hissued.segment_fresh hs (Nat.le_succ _) (congrArg Key.id he)
  unfold registerOn Ingest.add
  constructor
  · intro scope id i hget
    rw [getIdentity_putIdentity, hkey, getIdentity_putSegment] at hget
    by_cases hk : (⟨scope, id⟩ : Key) = ⟨request.scope, identity.identityId⟩
    · rw [if_pos hk] at hget
      obtain rfl := Option.some.inj hget
      obtain ⟨rfl, rfl⟩ := Key.mk.inj hk
      refine Summarises.perm ?_ (segmentsOf_add_self hfresh)
      rcases hc with rfl | ⟨hstored, -⟩
      · have hnil : st.repo.segmentsOf request.scope (uuid.identityId st.issued) = [] :=
          List.eq_nil_iff_forall_not_mem.2 fun s hs =>
            hissued.owner_fresh (mem_segmentsOf.1 hs).1 le_rfl (mem_segmentsOf.1 hs).2.2
        have hfirst := summarises_first uuid request window st.issued
        exact hfirst.perm (List.Perm.of_eq (congrArg _ hnil.symm))
      · exact (h.summary hstored).applySegment _
    · rw [if_neg hk] at hget
      refine (h.summary hget).perm (segmentsOf_add_other hfresh fun he => hk ?_)
      exact congrArg₂ Key.mk he.1 he.2
  · intro s hs
    rcases stored_putSegment.1 hs with rfl | ⟨-, hs⟩
    · rw [getIdentity_putIdentity, hkey]
      simp [newSegment]
    · exact getIdentity_put_ne_none (h.owned hs)

theorem aggregated_ingestRunTracks (hissued : Issued uuid n repo) (h : Aggregated repo) :
    Aggregated (reached (ingestRunTracks config uuid repo n request)).repo := by
  refine (reached_foldlM (I := fun st : Ingest => Issued uuid st.issued st.repo ∧
    Aggregated st.repo) (fun st track hI => ?_) (by exact ⟨hissued, h⟩) request.tracks).2
  rcases ingestTrack_cases config uuid request st track with he | ⟨_, _, hc, he⟩
  · rwa [he]
  · rw [he]
    exact ⟨issued_registerOn hI.1 hc, aggregated_registerOn hI.1 hI.2 hc⟩

/-! ## Update and delete -/

theorem aggregated_updateIdentity (r : UpdateIdentityRequest) (h : Aggregated repo) :
    Aggregated (reached (updateIdentity repo scope id r)) := by
  rcases updateIdentity_cases repo scope id r with he | ⟨i, j, hget, hj, he⟩
  · rwa [he]
  rw [he]
  have hkey : j.key = ⟨scope, id⟩ := by
    rw [← getIdentity_key hget, hj]
    rfl
  constructor
  · intro _ _ k hk
    rw [getIdentity_putIdentity, hkey] at hk
    split at hk
    · rename_i heq
      obtain rfl := Option.some.inj hk
      obtain ⟨rfl, rfl⟩ := Key.mk.inj heq
      refine Summarises.congr (h.summary hget) ?_ ?_ ?_ ?_ <;> rw [hj]
    · exact h.summary hk
  · exact fun hs => getIdentity_put_ne_none (h.owned hs)

theorem aggregated_deleteIdentity (h : Aggregated repo) :
    Aggregated (reached (deleteIdentity repo scope id)) := by
  rcases deleteIdentity_cases repo scope id with he | he
  · rwa [he]
  rw [he]
  constructor
  · intro _ _ i hget
    rw [getIdentity_deleteIdentity] at hget
    split at hget
    · cases hget
    · rename_i hne
      refine (h.summary hget).perm (segmentsOf_perm fun s hscope hid => ?_)
      rw [stored_deleteIdentity, stored_deleteSegmentsForIdentity]
      refine ⟨fun hs => ⟨hs, fun hboth => hne ?_⟩, And.left⟩
      rw [← hscope, ← hid, hboth.1, hboth.2]
  · intro s hs
    rw [stored_deleteIdentity, stored_deleteSegmentsForIdentity] at hs
    rw [getIdentity_deleteIdentity, if_neg fun heq => hs.2 (Key.mk.inj heq)]
    exact h.owned hs.1

/-! ## Split -/

/-- The split is of an identity with at most 1000 segments, or refused. -/
def SplitWhole (repo : Repository) (scope : Scope) (id : String) (r : SplitIdentityRequest) :
    Prop :=
  (repo.segmentsOf scope id).length ≤ 1000 ∨
    (∃ w ∈ r.segmentIds, w ∉ (listing repo scope id).map TrajectorySegment.segmentId) ∨
    ∀ s ∈ listing repo scope id, s.segmentId ∈ r.segmentIds

instance (r : SplitIdentityRequest) : Decidable (SplitWhole repo scope id r) :=
  inferInstanceAs (Decidable (_ ∨ _ ∨ _))

theorem mem_wanted {w : String} : w ∈ r.wanted ↔ w ∈ r.segmentIds :=
  List.mem_dedup

theorem mem_moving {segments : List TrajectorySegment} :
    s ∈ r.moving segments ↔ s ∈ segments ∧ s.segmentId ∈ r.segmentIds := by
  unfold SplitIdentityRequest.moving
  rw [List.mem_filter, decide_eq_true_eq, mem_wanted]

theorem nodup_listing_ids :
    ((listing repo scope id).map TrajectorySegment.segmentId).Nodup := by
  refine nodup_listing.map_on fun a ha b hb hab => ?_
  obtain ⟨hastored, hascope, -⟩ := mem_segmentsOf.1 (mem_listing ha)
  obtain ⟨hbstored, hbscope, -⟩ := mem_segmentsOf.1 (mem_listing hb)
  exact hastored.key_inj hbstored (congrArg₂ Key.mk (hascope.trans hbscope.symm) hab)

theorem split_accepted (hwanted : (r.moving (listing repo scope id)).length = r.wanted.length)
    (hrest : (r.moving (listing repo scope id)).length ≠ (listing repo scope id).length) :
    (∀ w ∈ r.segmentIds, w ∈ (listing repo scope id).map TrajectorySegment.segmentId) ∧
      ∃ s ∈ listing repo scope id, s.segmentId ∉ r.segmentIds := by
  constructor
  · have hids : ((r.moving (listing repo scope id)).map TrajectorySegment.segmentId).Nodup :=
      nodup_listing_ids.sublist (List.filter_sublist.map _)
    have hsub : (r.moving (listing repo scope id)).map TrajectorySegment.segmentId ⊆ r.wanted := by
      intro w hw
      obtain ⟨s, hs, rfl⟩ := List.mem_map.1 hw
      exact mem_wanted.2 (mem_moving.1 hs).2
    have hperm := (List.subperm_of_subset hids hsub).perm_of_length_le
      (by rw [List.length_map, hwanted])
    intro w hw
    obtain ⟨s, hs, rfl⟩ := List.mem_map.1 (hperm.mem_iff.2 (mem_wanted.2 hw))
    exact List.mem_map_of_mem (mem_moving.1 hs).1
  · by_contra hall
    push Not at hall
    refine hrest (congrArg List.length (List.filter_eq_self.2 fun s hs => ?_))
    exact decide_eq_true (mem_wanted.2 (hall s hs))

/-- The segments that a split moves and leaves, when no listing is cut: the new identity has those
moved, the old one the others, and neither has none. -/
structure CleanSplit (repo : Repository) (scope : Scope) (id newId : String)
    (r : SplitIdentityRequest) : Prop where
  ne : id ≠ newId
  moved : ∀ s ∈ r.moving (listing repo scope id), s ∈ repo.segmentsOf scope id
  nodup : (r.moving (listing repo scope id)).Nodup
  new : ((r.moving (listing repo scope id)).map (·.moveTo newId)).Perm
    ((moveSegments newId repo (r.moving (listing repo scope id))).segmentsOf scope newId)
  old : (r.remaining (listing repo scope id)).Perm
    ((moveSegments newId repo (r.moving (listing repo scope id))).segmentsOf scope id)
  moving : r.moving (listing repo scope id) ≠ []
  remaining : r.remaining (listing repo scope id) ≠ []

theorem cleanSplit (r : SplitIdentityRequest) (hissued : Issued uuid n repo)
    (hget : repo.getIdentity scope id ≠ none)
    (hwanted : (r.moving (listing repo scope id)).length = r.wanted.length)
    (hrest : (r.moving (listing repo scope id)).length ≠ (listing repo scope id).length)
    (hwhole : SplitWhole repo scope id r) : CleanSplit repo scope id (uuid.identityId n) r := by
  obtain ⟨hlisted, stay, hstay, hout⟩ := split_accepted hwanted hrest
  have hlen : (repo.segmentsOf scope id).length ≤ 1000 := by
    rcases hwhole with hlen | ⟨w, hw, hno⟩ | hall
    · exact hlen
    · exact absurd (hlisted w hw) hno
    · exact absurd (hall stay hstay) hout
  have hne : id ≠ uuid.identityId n := fun hid => hget (by rw [hid, hissued.identity_fresh le_rfl])
  have hmoved : ∀ s ∈ r.moving (listing repo scope id), s ∈ repo.segmentsOf scope id := fun s hs =>
    mem_listing (mem_moving.1 hs).1
  have hnodup : (r.moving (listing repo scope id)).Nodup := nodup_listing.filter _
  refine ⟨hne, hmoved, hnodup, ?_, ?_, ?_, ?_⟩
  · have hnil : repo.segmentsOf scope (uuid.identityId n) = [] :=
      List.eq_nil_iff_forall_not_mem.2 fun s hs =>
        hissued.owner_fresh (mem_segmentsOf.1 hs).1 le_rfl (mem_segmentsOf.1 hs).2.2
    have htarget := segmentsOf_move_target hnodup hmoved hne
    rwa [hnil, List.append_nil] at htarget
  · refine List.Perm.trans ?_ (segmentsOf_move_source hnodup hmoved hne)
    refine List.Perm.trans (List.Perm.of_eq (List.filter_congr fun s hs => ?_))
      ((listing_perm hlen).filter _)
    simp [mem_moving, mem_wanted, hs]
  · obtain ⟨w, hw⟩ := List.exists_mem_of_length_pos (lt_of_lt_of_le Nat.zero_lt_one r.bounds.1)
    obtain ⟨s, hs, rfl⟩ := List.mem_map.1 (hlisted w hw)
    exact List.ne_nil_of_mem (mem_moving.2 ⟨hs, hw⟩)
  · exact List.ne_nil_of_mem
      (List.mem_filter.2 ⟨hstay, decide_eq_true fun hw => hout (mem_wanted.1 hw)⟩)

theorem aggregated_splitSegments {newId : String} {identity : LongTermIdentity}
    (h : Aggregated repo)
    (hget : repo.getIdentity scope id = some identity) (hsplit : CleanSplit repo scope id newId r) :
    Aggregated (splitSegments newId repo identity r (listing repo scope id)) := by
  have hkey := getIdentity_key hget
  have hscope : identity.scope = scope := congrArg Key.scope hkey
  have hcreated : (splitOff identity newId r (r.moving (listing repo scope id))).key =
      ⟨scope, newId⟩ := congrArg₂ Key.mk hscope rfl
  unfold splitSegments
  constructor
  · intro scope' id' i hi
    rw [getIdentity_putIdentity, key_recompute, hkey, getIdentity_putIdentity, key_recompute,
      hcreated, getIdentity_moveSegments] at hi
    by_cases hid : (⟨scope', id'⟩ : Key) = ⟨scope, id⟩
    · rw [if_pos hid] at hi
      obtain rfl := Option.some.inj hi
      obtain ⟨rfl, rfl⟩ := Key.mk.inj hid
      exact (summarises_recompute _ hsplit.remaining).perm hsplit.old
    · rw [if_neg hid] at hi
      by_cases hid' : (⟨scope', id'⟩ : Key) = ⟨scope, newId⟩
      · rw [if_pos hid'] at hi
        obtain rfl := Option.some.inj hi
        obtain ⟨rfl, rfl⟩ := Key.mk.inj hid'
        exact (summarises_recompute _ fun hnil =>
          hsplit.moving (List.map_eq_nil_iff.1 hnil)).perm hsplit.new
      · rw [if_neg hid'] at hi
        refine (h.summary hi).perm (segmentsOf_move_other hsplit.nodup hsplit.moved ?_ ?_)
        · exact fun hboth => hid (congrArg₂ Key.mk hboth.1 hboth.2)
        · exact fun hboth => hid' (congrArg₂ Key.mk hboth.1 hboth.2)
  · intro s hs
    refine getIdentity_put_ne_none ?_
    rcases (stored_moveSegments _ hsplit.nodup (move_stored hsplit.moved)).1 hs with
      ⟨t, ht, rfl⟩ | ⟨hs, -⟩
    · have howner : (⟨(t.moveTo newId).scope, (t.moveTo newId).identityId⟩ : Key) =
          ⟨scope, newId⟩ := congrArg₂ Key.mk (mem_segmentsOf.1 (hsplit.moved t ht)).2.1 rfl
      rw [getIdentity_putIdentity, key_recompute, hcreated, if_pos howner]
      simp
    · refine getIdentity_put_ne_none ?_
      rw [getIdentity_moveSegments]
      exact h.owned hs

theorem aggregated_splitIdentity (r : SplitIdentityRequest) (hissued : Issued uuid n repo)
    (h : Aggregated repo) (hwhole : SplitWhole repo scope id r) :
    Aggregated (reached (splitIdentity (uuid.identityId n) repo scope id r)) := by
  rcases splitIdentity_cases (uuid.identityId n) repo scope id r with
    he | ⟨identity, hget, hwanted, hrest, he⟩
  · rwa [he]
  · rw [he]
    have hstored : repo.getIdentity scope id ≠ none := by
      rw [hget]
      exact Option.some_ne_none _
    exact aggregated_splitSegments h hget (cleanSplit r hissued hstored hwanted hrest hwhole)

/-! ## Merge -/

/-- The merge finds its sources, and their segments and the target's fit into one listing; or it is
refused before it writes. -/
def MergeWhole (repo : Repository) (scope : Scope) (r : MergeIdentitiesRequest) : Prop :=
  repo.getIdentity scope r.targetIdentityId = none ∨
    (∀ first ∈ r.sources.head?, repo.getIdentity scope first = none) ∨
    (∀ source ∈ r.sources, repo.getIdentity scope source ≠ none) ∧
      ((r.targetIdentityId :: r.sources).map fun id => (repo.segmentsOf scope id).length).sum ≤ 1000
  deriving Decidable

theorem nodup_fromKeys (ids : List String) : (fromKeys ids).Nodup := by
  induction ids with
  | nil => exact List.nodup_nil
  | cons _ _ ih =>
    exact List.nodup_cons.2 ⟨fun hm => by simp at hm, ih.filter _⟩

/-- Aggregated, but for the identity `target`: it is stored as `t`, and `m` segments name it. -/
structure Merging (scope : Scope) (target : String) (t : LongTermIdentity) (m : Nat)
    (repo : Repository) : Prop where
  summary : ∀ {scope' id i}, ¬(scope' = scope ∧ id = target) → repo.getIdentity scope' id = some i →
    Summarises i (repo.segmentsOf scope' id)
  owned : ∀ {s}, Stored repo s → repo.getIdentity s.scope s.identityId ≠ none
  target_eq : repo.getIdentity scope target = some t
  length_eq : (repo.segmentsOf scope target).length = m

theorem merging_mergeSource {target source : String} {t : LongTermIdentity} {m : Nat}
    (h : Merging scope target t m repo) (hne : source ≠ target)
    (hsource : repo.getIdentity scope source ≠ none)
    (hlen : (repo.segmentsOf scope source).length ≤ 1000) :
    ∃ repo', mergeSource scope target repo source = .ok repo' ∧
      Merging scope target t ((repo.segmentsOf scope source).length + m) repo' ∧
      ∀ id, id ≠ source → id ≠ target →
        repo'.getIdentity scope id = repo.getIdentity scope id ∧
          (repo'.segmentsOf scope id).length = (repo.segmentsOf scope id).length := by
  obtain ⟨i, hi⟩ := Option.ne_none_iff_exists'.1 hsource
  have hperm := listing_perm hlen
  have hsub : ∀ s ∈ listing repo scope source, s ∈ repo.segmentsOf scope source := fun s hs =>
    mem_listing hs
  refine ⟨((moveSegments target repo (listing repo scope source)).deleteIdentity scope source).1,
    by simp [mergeSource, hi], ⟨?_, ?_, ?_, ?_⟩, fun id hid hid' => ⟨?_, ?_⟩⟩
  · intro _ _ j hother hj
    rw [getIdentity_deleteIdentity, getIdentity_moveSegments] at hj
    split at hj
    · cases hj
    · rename_i hkey
      refine (h.summary hother hj).perm (segmentsOf_move_other nodup_listing hsub ?_ hother)
      exact fun hboth => hkey (congrArg₂ Key.mk hboth.1 hboth.2)
  · intro s hs
    rw [getIdentity_deleteIdentity, getIdentity_moveSegments]
    rcases (stored_moveSegments _ nodup_listing (move_stored hsub)).1 hs with
      ⟨u, hu, rfl⟩ | ⟨hs, hno⟩
    · have hscope : (u.moveTo target).scope = scope := (mem_segmentsOf.1 (hsub u hu)).2.1
      have htarget : (u.moveTo target).identityId = target := rfl
      rw [hscope, htarget, if_neg fun heq => hne (Key.mk.inj heq).2.symm, h.target_eq]
      simp
    · rw [if_neg fun heq => hno ?_]
      · exact h.owned hs
      · obtain ⟨hscope, hid⟩ := Key.mk.inj heq
        exact hperm.mem_iff.2 (mem_segmentsOf.2 ⟨hs, hscope, hid⟩)
  · rw [getIdentity_deleteIdentity, getIdentity_moveSegments,
      if_neg fun heq => hne (Key.mk.inj heq).2.symm]
    exact h.target_eq
  · have hlength := (segmentsOf_move_target nodup_listing hsub hne).length_eq
    rw [List.length_append, List.length_map, hperm.length_eq, h.length_eq] at hlength
    exact hlength.symm
  · rw [getIdentity_deleteIdentity, getIdentity_moveSegments,
      if_neg fun heq => hid (Key.mk.inj heq).2]
  · exact (segmentsOf_move_other nodup_listing hsub (fun hboth => hid hboth.2)
      fun hboth => hid' hboth.2).length_eq.symm

theorem merging_foldlM {target : String} {t : LongTermIdentity} {m : Nat} {sources : List String}
    (h : Merging scope target t m repo) (hnodup : sources.Nodup) (hne : target ∉ sources)
    (hsources : ∀ source ∈ sources, repo.getIdentity scope source ≠ none)
    (hsum : m + (sources.map fun id => (repo.segmentsOf scope id).length).sum ≤ 1000) :
    ∃ repo' m', sources.foldlM (mergeSource scope target) repo = .ok repo' ∧
      Merging scope target t m' repo' ∧ m ≤ m' ∧ m' ≤ 1000 := by
  induction sources generalizing repo m with
  | nil => exact ⟨repo, m, rfl, h, le_rfl, by simpa using hsum⟩
  | cons source sources ih =>
    rw [List.nodup_cons] at hnodup
    rw [List.mem_cons, not_or] at hne
    rw [List.forall_mem_cons] at hsources
    rw [List.map_cons, List.sum_cons] at hsum
    obtain ⟨repo₁, hok, h₁, hframe⟩ := merging_mergeSource h (Ne.symm hne.1) hsources.1 (by omega)
    have hrest : ∀ id ∈ sources, id ≠ source ∧ id ≠ target := fun id hid =>
      ⟨fun he => hnodup.1 (he ▸ hid), fun he => hne.2 (he ▸ hid)⟩
    have hlengths : (sources.map fun id => (repo₁.segmentsOf scope id).length) =
        sources.map fun id => (repo.segmentsOf scope id).length :=
      List.map_congr_left fun id hid => (hframe id (hrest id hid).1 (hrest id hid).2).2
    obtain ⟨repo', m', hok', h', _, hm'⟩ := ih h₁ hnodup.2 hne.2
      (fun id hid => by
        rw [(hframe id (hrest id hid).1 (hrest id hid).2).1]
        exact hsources.2 id hid)
      (by rw [hlengths]; omega)
    refine ⟨repo', m', ?_, h', by omega, hm'⟩
    rw [List.foldlM_cons, hok]
    exact hok'

theorem aggregated_mergeIdentities (r : MergeIdentitiesRequest) (h : Aggregated repo)
    (hwhole : MergeWhole repo scope r) :
    Aggregated (reached (mergeIdentities repo scope r)) := by
  unfold mergeIdentities
  split
  · exact h
  rename_i target hget
  split
  · exact h
  rename_i hsome
  rcases hwhole with hnone | hfirst | ⟨hsources, hsum⟩
  · simp [hnone] at hget
  · -- the first source is missing: nothing was written
    obtain ⟨first, _, hcons⟩ := List.exists_cons_of_ne_nil
      (fun hnil => hsome (List.isEmpty_iff.2 hnil))
    rw [hcons] at hfirst ⊢
    have hmissing : mergeSource scope r.targetIdentityId repo first =
        .error (identityNotFound, repo) := by
      simp [mergeSource, hfirst first rfl]
    rwa [List.foldlM_cons, hmissing]
  · have hstart : Merging scope r.targetIdentityId target
        (repo.segmentsOf scope r.targetIdentityId).length repo :=
      ⟨fun _ => h.summary, h.owned, hget, rfl⟩
    have hnodup : r.sources.Nodup := (nodup_fromKeys _).filter _
    have htarget : r.targetIdentityId ∉ r.sources := fun hin => by
      simp [MergeIdentitiesRequest.sources] at hin
    obtain ⟨repo', m, hok, hmerged, _⟩ := merging_foldlM hstart hnodup htarget hsources hsum
    rw [hok]
    have hkey := getIdentity_key hget
    have hlen := hmerged.length_eq
    have hperm : (listing repo' scope r.targetIdentityId).Perm
        (repo'.segmentsOf scope r.targetIdentityId) := listing_perm (by omega)
    have hne : listing repo' scope r.targetIdentityId ≠ [] := fun hnil => by
      have hpos := List.length_pos_iff.2 (h.summary hget).ne_nil
      have hzero := hperm.length_eq
      rw [hnil, List.length_nil] at hzero
      omega
    change Aggregated (repo'.putIdentity _)
    constructor
    · intro _ _ i hi
      rw [getIdentity_putIdentity, key_recompute, hkey] at hi
      split at hi
      · rename_i heq
        obtain rfl := Option.some.inj hi
        obtain ⟨rfl, rfl⟩ := Key.mk.inj heq
        exact (summarises_recompute _ hne).perm hperm
      · rename_i heq
        exact hmerged.summary (fun hboth => heq (congrArg₂ Key.mk hboth.1 hboth.2)) hi
    · exact fun hs => getIdentity_put_ne_none (hmerged.owned hs)

/-! ## Runs -/

/-- The call cuts no listing and does not stop half-way. -/
def Whole (s : State) : Act → Prop
  | .ingest _ => True
  | .merge scope r => MergeWhole s.repo scope r
  | .split scope id r => SplitWhole s.repo scope id r
  | .update _ _ _ => True
  | .delete _ _ => True

instance (s : State) (a : Act) : Decidable (Whole s a) := by
  cases a <;> unfold Whole <;> infer_instance

/-- Every call may be made. -/
def step (config : Config) (uuid : UuidSource) (s : State) (a : Act) : Option State :=
  some (apply config uuid s a)

theorem aggregated_apply {s : State} (hissued : Issued uuid s.issued s.repo)
    (h : Aggregated s.repo) {a : Act} (ha : Whole s a) :
    Aggregated (apply config uuid s a).repo := by
  cases a with
  | ingest => exact aggregated_ingestRunTracks hissued h
  | merge _ r => exact aggregated_mergeIdentities r h ha
  | split _ _ r => exact aggregated_splitIdentity r hissued h ha
  | update _ _ r => exact aggregated_updateIdentity r h
  | delete => exact aggregated_deleteIdentity h

/-- **Aggregates equal their segments** in every state of a run of whole calls. -/
theorem aggregated_states (config : Config) (uuid : UuidSource) (acts : List Act)
    (hwhole : Along (step config uuid) Whole .initial acts) :
    ∀ s ∈ states (step config uuid) .initial acts, Aggregated s.repo := by
  have hinit : Issued uuid State.initial.issued State.initial.repo ∧
      Aggregated State.initial.repo := ⟨.initial uuid, aggregated_empty⟩
  refine fun s hs => (invariant_states (I := fun s : State => Issued uuid s.issued s.repo ∧
    Aggregated s.repo) (fun s a s' hI ha hstep => ?_) hinit hwhole s hs).2
  obtain rfl := Option.some.inj hstep
  exact ⟨issued_apply hI.1 a, aggregated_apply hI.1 hI.2 ha⟩

/-- Three people, of whom the second is merged into the first and split off again; the third
goes. -/
def mergeAndSplit : List Act :=
  [seenAt "gate" 0 [trackOf 0 1000 [], trackOf 0 500 []],
    seenAt "hall" 10 [trackOf 0 1000 ["lti_"], trackOf 500 1500 []],
    .merge portal ⟨"lti_", ["lti_00", "lti_00", "lti_"], by decide⟩,
    .update portal "lti_" ⟨some "visitor", some .confirmed⟩,
    .split portal "lti_" ⟨["lts_000"], "", by decide⟩,
    .delete portal "lti_000000"]

theorem mergeAndSplit_aggregated :
    Along (step defaultConfig zeros) Whole .initial mergeAndSplit ∧
      ∀ s ∈ states (step defaultConfig zeros) .initial mergeAndSplit, Aggregated s.repo :=
  have hwhole : Along (step defaultConfig zeros) Whole .initial mergeAndSplit := by decide +kernel
  ⟨hwhole, aggregated_states defaultConfig zeros mergeAndSplit hwhole⟩

/-! ## Where it goes wrong -/

/-- Two people, and a merge whose second source does not exist. -/
def missingSource : List Act :=
  [seenAt "gate" 0 [trackOf 0 1000 []], seenAt "hall" 10 [trackOf 0 1000 []],
    .merge portal ⟨"lti_", ["lti_00", "gone"], by decide⟩]

/-- **The first source is gone and its segment moved when the second is missed**: the target counts
one segment of its two. -/
theorem merge_missing_source :
    ¬∀ s ∈ states (step defaultConfig zeros) .initial missingSource, Aggregated s.repo := by
  intro h
  have hlast : run defaultConfig zeros missingSource ∈
      states (step defaultConfig zeros) .initial missingSource := by
    simp [states, step, run, missingSource]
  have hget : ((run defaultConfig zeros missingSource).repo.getIdentity portal "lti_").map
      LongTermIdentity.segmentCount = some 1 := by decide +kernel
  have hlen : ((run defaultConfig zeros missingSource).repo.segmentsOf portal "lti_").length = 2 :=
    by decide +kernel
  obtain ⟨i, hi, _⟩ := Option.map_eq_some_iff.1 hget
  have hsum := ((h _ hlast).summary hi).count
  omega

end Scenara.Trajectory
