import Mathlib.Data.List.Perm.Basic
import Scenara.Trajectory.Model

/-!
# What the calls write

The effect of every repository method on `Stored` (the segment is in the store) and on
`getIdentity`, and from these the effect of one ingested track and of the loops that move segments.
-/

namespace Scenara.Trajectory

open Scenara.Core

variable {repo repo' : Repository} {s t : TrajectorySegment} {scope : Scope} {id : String}

/-! ## Stored segments -/

/-- The segment is in the store. -/
def Stored (repo : Repository) (s : TrajectorySegment) : Prop := repo.segments.get? s.key = some s

theorem stored_of_get? {k : Key} (h : repo.segments.get? k = some s) : Stored repo s := by
  unfold Stored
  rwa [repo.segments_keyed h]

theorem Stored.key_inj (hs : Stored repo s) (ht : Stored repo t) (h : s.key = t.key) : s = t := by
  unfold Stored at hs ht
  rw [h, ht] at hs
  exact (Option.some.inj hs).symm

@[simp] theorem stored_putIdentity (i : LongTermIdentity) :
    Stored (repo.putIdentity i) s ↔ Stored repo s := .rfl

@[simp] theorem stored_deleteIdentity :
    Stored (repo.deleteIdentity scope id).1 s ↔ Stored repo s := .rfl

theorem stored_putSegment : Stored (repo.putSegment t) s ↔ s = t ∨ s.key ≠ t.key ∧
    Stored repo s := by
  unfold Stored Repository.putSegment
  rw [Dict.get?_insert]
  by_cases hk : s.key = t.key
  · rw [if_pos hk]
    simp [hk, eq_comm]
  · rw [if_neg hk]
    have hne : s ≠ t := fun h => hk (h ▸ rfl)
    simp [hk, hne]

theorem stored_deleteSegmentsForIdentity :
    Stored (repo.deleteSegmentsForIdentity scope id) s ↔
      Stored repo s ∧ ¬(s.scope = scope ∧ s.identityId = id) := by
  unfold Stored Repository.deleteSegmentsForIdentity
  rw [Dict.get?_filter, Option.filter_eq_some_iff]
  by_cases h : s.scope = scope <;> simp [TrajectorySegment.key, h]

theorem mem_segmentsOf :
    s ∈ repo.segmentsOf scope id ↔ Stored repo s ∧ s.scope = scope ∧ s.identityId = id := by
  unfold Repository.segmentsOf
  simp only [List.mem_map, List.mem_filter, Bool.and_eq_true, decide_eq_true_eq]
  constructor
  · rintro ⟨⟨k, t⟩, ⟨he, hk, hid⟩, rfl⟩
    have hget := (Dict.mem_entries _ k t).1 he
    have hkey : t.key = k := repo.segments_keyed hget
    exact ⟨stored_of_get? hget, by rw [← hk, ← hkey]; rfl, hid⟩
  · rintro ⟨hs, hscope, hid⟩
    exact ⟨(s.key, s), ⟨(Dict.mem_entries _ _ _).2 hs, hscope, hid⟩, rfl⟩

theorem nodup_segmentsOf : (repo.segmentsOf scope id).Nodup := by
  refine List.Nodup.map_on ?_ ((List.Nodup.of_map _ repo.segments.nodup).filter _)
  rintro ⟨k, s⟩ hk ⟨l, t⟩ hl rfl
  have hks := repo.segments_keyed ((Dict.mem_entries _ _ _).1 (List.mem_filter.1 hk).1)
  have hls := repo.segments_keyed ((Dict.mem_entries _ _ _).1 (List.mem_filter.1 hl).1)
  rw [← hks, ← hls]

theorem perm_segmentsOf {segments : List TrajectorySegment} (hnodup : segments.Nodup)
    (h : ∀ s, s ∈ segments ↔ Stored repo s ∧ s.scope = scope ∧ s.identityId = id) :
    segments.Perm (repo.segmentsOf scope id) :=
  (List.perm_ext_iff_of_nodup hnodup nodup_segmentsOf).2 fun s => (h s).trans mem_segmentsOf.symm

theorem segmentsOf_perm (h : ∀ s, s.scope = scope → s.identityId = id →
    (Stored repo s ↔ Stored repo' s)) :
    (repo.segmentsOf scope id).Perm (repo'.segmentsOf scope id) := by
  refine perm_segmentsOf nodup_segmentsOf fun s => mem_segmentsOf.trans ?_
  constructor
  · rintro ⟨hs, hscope, hid⟩
    exact ⟨(h s hscope hid).1 hs, hscope, hid⟩
  · rintro ⟨hs, hscope, hid⟩
    exact ⟨(h s hscope hid).2 hs, hscope, hid⟩

/-! ## Listings -/

theorem listing_eq : listing repo scope id =
    ((repo.segmentsOf scope id).insertionSort Repository.Listed).take 1000 := by
  unfold listing Repository.listSegments Repository.segmentsOf
  simp [Repository.inWindow, slice]

theorem mem_listing (h : s ∈ listing repo scope id) : s ∈ repo.segmentsOf scope id := by
  rw [listing_eq] at h
  exact (List.mem_insertionSort _).1 (List.mem_of_mem_take h)

theorem nodup_listing : (listing repo scope id).Nodup := by
  rw [listing_eq]
  exact ((List.perm_insertionSort _ _).nodup_iff.2 nodup_segmentsOf).take

theorem listing_perm (h : (repo.segmentsOf scope id).length ≤ 1000) :
    (listing repo scope id).Perm (repo.segmentsOf scope id) := by
  rw [listing_eq, List.take_of_length_le (by rw [List.length_insertionSort]; exact h)]
  exact List.perm_insertionSort _ _

/-! ## Identities -/

theorem getIdentity_key {i : LongTermIdentity} (h : repo.getIdentity scope id = some i) :
    i.key = ⟨scope, id⟩ :=
  repo.identities_keyed h

theorem getIdentity_putIdentity (i : LongTermIdentity) :
    (repo.putIdentity i).getIdentity scope id =
      if (⟨scope, id⟩ : Key) = i.key then some i else repo.getIdentity scope id :=
  Dict.get?_insert _ _ _ _

theorem getIdentity_deleteIdentity {scope' : Scope} {id' : String} :
    (repo.deleteIdentity scope' id').1.getIdentity scope id =
      if (⟨scope, id⟩ : Key) = ⟨scope', id'⟩ then none else repo.getIdentity scope id :=
  Dict.get?_erase _ _ _

@[simp] theorem getIdentity_putSegment :
    (repo.putSegment s).getIdentity scope id = repo.getIdentity scope id := rfl

/-! ## Moving segments -/

@[simp] theorem key_moveTo : (s.moveTo id).key = s.key := rfl

@[simp] theorem getIdentity_moveSegments {id' : String} (segments : List TrajectorySegment) :
    (moveSegments id' repo segments).getIdentity scope id = repo.getIdentity scope id := by
  unfold moveSegments
  induction segments generalizing repo with
  | nil => rfl
  | cons t _ ih => rw [List.foldl_cons, ih, getIdentity_putSegment]

theorem stored_moveSegments {target : String} (segments : List TrajectorySegment)
    (hnodup : segments.Nodup) (hstored : ∀ t ∈ segments, Stored repo t) :
    Stored (moveSegments target repo segments) s ↔
      (∃ t ∈ segments, s = t.moveTo target) ∨ Stored repo s ∧ s ∉ segments := by
  induction segments generalizing repo with
  | nil => simp [moveSegments]
  | cons t ts ih =>
    rw [List.nodup_cons] at hnodup
    rw [List.forall_mem_cons] at hstored
    -- the rest is still stored: other segments have other keys
    have hother : ∀ u ∈ ts, u.key ≠ t.key := fun u hu hk =>
      hnodup.1 ((hstored.2 u hu).key_inj hstored.1 hk ▸ hu)
    have hrest : ∀ u ∈ ts, Stored (repo.putSegment (t.moveTo target)) u := fun u hu =>
      stored_putSegment.2 (.inr ⟨hother u hu, hstored.2 u hu⟩)
    have hmove : moveSegments target repo (t :: ts) =
        moveSegments target (repo.putSegment (t.moveTo target)) ts := rfl
    rw [hmove, ih hnodup.2 hrest, stored_putSegment, key_moveTo]
    simp only [List.mem_cons, exists_eq_or_imp, not_or]
    constructor
    · rintro (hm | ⟨rfl | ⟨hk, hs⟩, hno⟩)
      · exact .inl (.inr hm)
      · exact .inl (.inl rfl)
      · exact .inr ⟨hs, fun h => hk (h ▸ rfl), hno⟩
    · rintro ((rfl | hm) | ⟨hs, hne, hno⟩)
      · by_cases hm : ∃ u ∈ ts, t.moveTo target = u.moveTo target
        · exact .inl hm
        · refine .inr ⟨.inl rfl, fun hmem => ?_⟩
          exact hother _ hmem key_moveTo
      · exact .inl hm
      · exact .inr ⟨.inr ⟨fun hk => hne (hs.key_inj hstored.1 hk), hs⟩, hno⟩

/-! ## One track -/

variable {config : Config} {uuid : UuidSource} {request : IngestRequest} {st : Ingest}

/-- The identity a track is registered on: a new one, or a stored one that accepts it. -/
def Chosen (config : Config) (uuid : UuidSource) (request : IngestRequest) (st : Ingest)
    (window : Window) (identity : LongTermIdentity) : Prop :=
  identity = newIdentity uuid request window st.issued ∨
    st.repo.getIdentity request.scope identity.identityId = some identity ∧
      accepts config request st window identity.identityId = true

/-- What a track registered on `identity` leaves. -/
def registerOn (uuid : UuidSource) (request : IngestRequest) (st : Ingest) (window : Window)
    (identity : LongTermIdentity) : Ingest :=
  st.add identity (newSegment uuid request window st.issued identity.identityId)

theorem register_cases (track : Track) (window : Window) (identity : LongTermIdentity)
    (matchScore : ℚ) :
    reached (register uuid request track window st identity matchScore) = st ∨
      reached (register uuid request track window st identity matchScore) =
        registerOn uuid request st window identity := by
  unfold register
  split
  · exact .inl rfl
  · exact .inr rfl

theorem ingestTrack_cases (config : Config) (uuid : UuidSource) (request : IngestRequest)
    (st : Ingest) (track : Track) :
    reached (ingestTrack config uuid request st track) = st ∨
      ∃ window identity, Chosen config uuid request st window identity ∧
        reached (ingestTrack config uuid request st track) =
          registerOn uuid request st window identity := by
  unfold ingestTrack
  split
  · exact .inl rfl
  split
  · exact .inl rfl
  generalize observationWindow track (request.recordingStartedAt.getD request.now) = window
  unfold ingestOne
  split
  · exact .inl rfl
  rename_i candidates _
  cases hfind : candidates.find? fun c => accepts config request st window c.identityId with
  | none =>
    exact (register_cases track window _ _).imp_right fun h => ⟨window, _, .inl rfl, h⟩
  | some chosen =>
    have haccepts := List.find?_some hfind
    dsimp only at haccepts ⊢
    split
    · exact .inl rfl
    · rename_i stored hget
      have hid : stored.identityId = chosen.identityId := congrArg Key.id (getIdentity_key hget)
      refine (register_cases track window _ _).imp_right fun h => ⟨window, _, .inr ⟨?_, ?_⟩, h⟩
      · rwa [hid]
      · rwa [hid]

theorem Chosen.scope_eq {window : Window} {identity : LongTermIdentity}
    (h : Chosen config uuid request st window identity) : identity.scope = request.scope := by
  rcases h with rfl | ⟨hget, -⟩
  · rfl
  · exact congrArg Key.scope (getIdentity_key hget)

/-! ## Ids are drawn -/

theorem UuidSource.identityId_inj {m n : Nat} (h : uuid.identityId m = uuid.identityId n) :
    m = n :=
  uuid.injective (by simpa [UuidSource.identityId] using h)

theorem UuidSource.segmentId_inj {m n : Nat} (h : uuid.segmentId m = uuid.segmentId n) : m = n :=
  uuid.injective (by simpa [UuidSource.segmentId] using h)

/-- Every id in the store is one of the first `n` drawn. -/
structure Issued (uuid : UuidSource) (n : Nat) (repo : Repository) : Prop where
  identity : ∀ {scope id i}, repo.getIdentity scope id = some i → ∃ m < n, id = uuid.identityId m
  segment : ∀ {s}, Stored repo s → ∃ m < n, s.segmentId = uuid.segmentId m
  owner : ∀ {s}, Stored repo s → ∃ m < n, s.identityId = uuid.identityId m

namespace Issued

variable {n : Nat}

theorem initial (uuid : UuidSource) : Issued uuid 0 .empty where
  identity h := by cases h
  segment h := by cases h
  owner h := by cases h

section

variable (h : Issued uuid n repo)
include h

theorem mono {m : Nat} (hle : n ≤ m) : Issued uuid m repo where
  identity hi := (h.identity hi).imp fun _ hk => ⟨by omega, hk.2⟩
  segment hs := (h.segment hs).imp fun _ hk => ⟨by omega, hk.2⟩
  owner hs := (h.owner hs).imp fun _ hk => ⟨by omega, hk.2⟩

theorem identity_fresh {m : Nat} (hm : n ≤ m) :
    repo.getIdentity scope (uuid.identityId m) = none := by
  by_contra hne
  obtain ⟨i, hi⟩ := Option.ne_none_iff_exists'.1 hne
  obtain ⟨k, _, he⟩ := h.identity hi
  have := uuid.identityId_inj he
  omega

theorem owner_fresh (hs : Stored repo s) {m : Nat} (hm : n ≤ m) :
    s.identityId ≠ uuid.identityId m := by
  intro he
  obtain ⟨k, _, hid⟩ := h.owner hs
  have := uuid.identityId_inj (he.symm.trans hid)
  omega

theorem segment_fresh (hs : Stored repo s) {m : Nat} (hm : n ≤ m) :
    s.segmentId ≠ uuid.segmentId m := by
  intro he
  obtain ⟨k, _, hid⟩ := h.segment hs
  have := uuid.segmentId_inj (he.symm.trans hid)
  omega

theorem putIdentity {i : LongTermIdentity}
    (hi : ∃ m < n, i.identityId = uuid.identityId m) : Issued uuid n (repo.putIdentity i) where
  identity := by
    intro _ id j hj
    rw [getIdentity_putIdentity] at hj
    split at hj
    · rename_i hk
      obtain ⟨m, hm, he⟩ := hi
      exact ⟨m, hm, (congrArg Key.id hk).trans he⟩
    · exact h.identity hj
  segment := h.segment
  owner := h.owner

theorem putSegment (hs : ∃ m < n, s.segmentId = uuid.segmentId m)
    (ho : ∃ m < n, s.identityId = uuid.identityId m) : Issued uuid n (repo.putSegment s) where
  identity := h.identity
  segment := by
    intro t ht
    rcases stored_putSegment.1 ht with rfl | ⟨-, ht⟩
    · exact hs
    · exact h.segment ht
  owner := by
    intro t ht
    rcases stored_putSegment.1 ht with rfl | ⟨-, ht⟩
    · exact ho
    · exact h.owner ht

theorem deleteIdentity : Issued uuid n (repo.deleteIdentity scope id).1 where
  identity := by
    intro _ _ i hi
    rw [getIdentity_deleteIdentity] at hi
    split at hi
    · cases hi
    · exact h.identity hi
  segment := h.segment
  owner := h.owner

theorem deleteSegmentsForIdentity : Issued uuid n (repo.deleteSegmentsForIdentity scope id) where
  identity := h.identity
  segment hs := h.segment (stored_deleteSegmentsForIdentity.1 hs).1
  owner hs := h.owner (stored_deleteSegmentsForIdentity.1 hs).1

theorem moveSegments (hid : ∃ m < n, id = uuid.identityId m)
    {segments : List TrajectorySegment} (hstored : ∀ s ∈ segments, Stored repo s) :
    Issued uuid n (moveSegments id repo segments) := by
  have hdrawn : ∀ s ∈ segments, ∃ m < n, s.segmentId = uuid.segmentId m := fun s hs =>
    h.segment (hstored s hs)
  clear hstored
  induction segments generalizing repo with
  | nil => exact h
  | cons s _ ih =>
    rw [List.forall_mem_cons] at hdrawn
    exact ih (h.putSegment hdrawn.1 hid) hdrawn.2

theorem moveListing (hid : ∃ m < n, id = uuid.identityId m) {source : String} :
    Issued uuid n (Trajectory.moveSegments id repo (listing repo scope source)) :=
  h.moveSegments hid fun _ hs => (mem_segmentsOf.1 (mem_listing hs)).1

end

end Issued

theorem issued_registerOn {window : Window} {identity : LongTermIdentity}
    (h : Issued uuid st.issued st.repo) (hc : Chosen config uuid request st window identity) :
    Issued uuid (st.issued + 2) (registerOn uuid request st window identity).repo := by
  have hid : ∃ m < st.issued + 2, identity.identityId = uuid.identityId m := by
    rcases hc with rfl | ⟨hget, -⟩
    · exact ⟨st.issued, by omega, rfl⟩
    · obtain ⟨m, _, he⟩ := h.identity hget
      exact ⟨m, by omega, he⟩
  exact ((h.mono (by omega)).putSegment ⟨st.issued + 1, by omega, rfl⟩ hid).putIdentity hid

theorem issued_ingestRunTracks {n : Nat} (h : Issued uuid n repo) :
    Issued uuid (reached (ingestRunTracks config uuid repo n request)).issued
      (reached (ingestRunTracks config uuid repo n request)).repo := by
  refine reached_foldlM (I := fun st : Ingest => Issued uuid st.issued st.repo)
    (fun st track h => ?_) (by exact h) request.tracks
  rcases ingestTrack_cases config uuid request st track with he | ⟨_, _, hc, he⟩
  · rwa [he]
  · rw [he]
    exact issued_registerOn h hc

/-! ## Corrections by hand -/

theorem updateIdentity_cases (repo : Repository) (scope : Scope) (id : String)
    (r : UpdateIdentityRequest) :
    reached (updateIdentity repo scope id r) = repo ∨
      ∃ i j, repo.getIdentity scope id = some i ∧
        j = { i with
          displayName := r.displayName.getD i.displayName
          status := r.status.getD i.status } ∧
        reached (updateIdentity repo scope id r) = repo.putIdentity j := by
  unfold updateIdentity
  split
  · exact .inl rfl
  · rename_i i hget
    exact .inr ⟨i, _, hget, rfl, rfl⟩

theorem deleteIdentity_cases (repo : Repository) (scope : Scope) (id : String) :
    reached (deleteIdentity repo scope id) = repo ∨
      reached (deleteIdentity repo scope id) =
        ((repo.deleteSegmentsForIdentity scope id).deleteIdentity scope id).1 := by
  unfold deleteIdentity
  split
  · exact .inl rfl
  · dsimp only
    split <;> exact .inr rfl

theorem splitIdentity_cases (newId : String) (repo : Repository) (scope : Scope) (id : String)
    (r : SplitIdentityRequest) :
    reached (splitIdentity newId repo scope id r) = repo ∨
      ∃ identity, repo.getIdentity scope id = some identity ∧
        (r.moving (listing repo scope id)).length = r.wanted.length ∧
        (r.moving (listing repo scope id)).length ≠ (listing repo scope id).length ∧
        reached (splitIdentity newId repo scope id r) =
          splitSegments newId repo identity r (listing repo scope id) := by
  unfold splitIdentity
  split
  · exact .inl rfl
  · rename_i identity hget
    dsimp only
    split
    · exact .inl rfl
    rename_i hwanted
    split
    · exact .inl rfl
    rename_i hrest
    exact .inr ⟨identity, hget, not_not.1 hwanted, hrest, rfl⟩

theorem mergeIdentities_cases (repo : Repository) (scope : Scope) (r : MergeIdentitiesRequest) :
    reached (mergeIdentities repo scope r) = repo ∨
      ∃ target, repo.getIdentity scope r.targetIdentityId = some target ∧
        (reached (mergeIdentities repo scope r) =
            reached (r.sources.foldlM (mergeSource scope r.targetIdentityId) repo) ∨
          ∃ repo', r.sources.foldlM (mergeSource scope r.targetIdentityId) repo = .ok repo' ∧
            reached (mergeIdentities repo scope r) =
              repo'.putIdentity (recompute target (listing repo' scope r.targetIdentityId))) := by
  unfold mergeIdentities
  split
  · exact .inl rfl
  rename_i target hget
  split
  · exact .inl rfl
  refine .inr ⟨target, hget, ?_⟩
  cases hfold : r.sources.foldlM (mergeSource scope r.targetIdentityId) repo with
  | error e => exact .inl rfl
  | ok repo' => exact .inr ⟨repo', rfl, rfl⟩

@[simp] theorem key_recompute (i : LongTermIdentity) (segments : List TrajectorySegment) :
    (recompute i segments).key = i.key := by
  unfold recompute
  dsimp only
  split <;> rfl

theorem identityId_recompute (i : LongTermIdentity) (segments : List TrajectorySegment) :
    (recompute i segments).identityId = i.identityId :=
  congrArg Key.id (key_recompute i segments)

theorem issued_mergeIdentities {n : Nat} (r : MergeIdentitiesRequest) (h : Issued uuid n repo) :
    Issued uuid n (reached (mergeIdentities repo scope r)) := by
  rcases mergeIdentities_cases repo scope r with he | ⟨target, hget, he⟩
  · rwa [he]
  · have ht := h.identity hget
    have hloop : Issued uuid n
        (reached (r.sources.foldlM (mergeSource scope r.targetIdentityId) repo)) := by
      refine reached_foldlM (I := Issued uuid n) (fun repo source h => ?_) h r.sources
      unfold mergeSource
      split
      · exact h
      · exact (h.moveListing ht).deleteIdentity
    rcases he with he | ⟨_, hok, he⟩
    · rwa [he]
    · rw [hok] at hloop
      rw [he]
      refine Issued.putIdentity hloop ?_
      have hid : target.identityId = r.targetIdentityId := congrArg Key.id (getIdentity_key hget)
      rwa [identityId_recompute, hid]

theorem issued_splitIdentity {n : Nat} (r : SplitIdentityRequest) (h : Issued uuid n repo) :
    Issued uuid (n + 1) (reached (splitIdentity (uuid.identityId n) repo scope id r)) := by
  have hm : Issued uuid (n + 1) repo := h.mono (by omega)
  rcases splitIdentity_cases (uuid.identityId n) repo scope id r with
    he | ⟨identity, hget, -, -, he⟩
  · rwa [he]
  · rw [he]
    have hnew : ∃ m < n + 1, uuid.identityId n = uuid.identityId m := ⟨n, by omega, rfl⟩
    refine ((hm.moveSegments hnew fun s hs => ?_).putIdentity ?_).putIdentity ?_
    · exact (mem_segmentsOf.1 (mem_listing (List.mem_of_mem_filter hs))).1
    · rwa [identityId_recompute]
    · have hid : identity.identityId = id := congrArg Key.id (getIdentity_key hget)
      rw [identityId_recompute, hid]
      exact hm.identity hget

theorem issued_updateIdentity {n : Nat} (r : UpdateIdentityRequest) (h : Issued uuid n repo) :
    Issued uuid n (reached (updateIdentity repo scope id r)) := by
  rcases updateIdentity_cases repo scope id r with
    he | ⟨i, j, hget, rfl, he⟩
  · rwa [he]
  · rw [he]
    have hid : i.identityId = id := congrArg Key.id (getIdentity_key hget)
    exact h.putIdentity (hid ▸ h.identity hget)

theorem issued_deleteIdentity {n : Nat} (h : Issued uuid n repo) :
    Issued uuid n (reached (deleteIdentity repo scope id)) := by
  rcases deleteIdentity_cases repo scope id with he | he
  · rwa [he]
  · rw [he]
    exact h.deleteSegmentsForIdentity.deleteIdentity

theorem issued_apply {s : State} (h : Issued uuid s.issued s.repo) (a : Act) :
    Issued uuid (apply config uuid s a).issued (apply config uuid s a).repo := by
  cases a with
  | ingest => exact issued_ingestRunTracks h
  | merge _ request => exact issued_mergeIdentities request h
  | split _ _ request => exact issued_splitIdentity request h
  | update _ _ request => exact issued_updateIdentity request h
  | delete => exact issued_deleteIdentity h

end Scenara.Trajectory
