import Scenara.Core.Ledger
import Scenara.Core.Raising
import Scenara.Tracking.Associate

/-!
# Merging the fragments of a track

* `grouped_acceptCandidate`: the groups stay a partition of the tracks, one for each root of the
  union-find, and the tracks of a group have no frame index in common (`Grouped`). No key is
  missing.
-/

namespace Scenara.Tracking

open Scenara.Core

variable {math : VectorMath} {frames : List Frame} {tracks group others : List TrackState}
  {maxGap : Int}

/-! ## Accounts -/

/-- A track, as an account of its label. -/
def TrackState.account (track : TrackState) : Account String Int :=
  ⟨track.trackId, track.hits, track.frameIndexes⟩

/-- The labels of persons that are a list. -/
def Frame.listedLabels (frame : Frame) : List String :=
  match frame.persons with
  | .list persons => labelsOf persons
  | .other _ => []

/-- The labels of persons that the passes skip, as they are no list. -/
def Frame.skippedLabels (frame : Frame) : List String :=
  match frame.persons with
  | .list _ => []
  | .other persons => labelsOf (persons.getD [])

theorem Frame.labels_eq (frame : Frame) :
    frame.labels = frame.listedLabels ++ frame.skippedLabels := by
  unfold labels listedLabels skippedLabels
  cases frame.persons with
  | list persons => exact (List.append_nil _).symm
  | other persons => rfl

/-- A frame, as a sheet of labels. -/
def Frame.sheet (frame : Frame) : Sheet String Int := ⟨frame.frameIndex, frame.listedLabels⟩

/-- Labels are exclusive and accounted for. -/
def Accounted (frames : List Frame) (tracks : List TrackState) : Prop :=
  Balanced (frames.map Frame.sheet) (tracks.map TrackState.account)

variable {tracks' : List TrackState} {g : Grouping}

theorem Accounted.perm (h : Accounted frames tracks)
    (hperm : tracks.Perm tracks') : Accounted frames tracks' :=
  Balanced.perm h (hperm.map _)

theorem map_account_id (tracks : List TrackState) :
    (tracks.map TrackState.account).map Account.id = tracks.map TrackState.trackId := by
  rw [List.map_map]
  rfl

theorem Accounted.ids (h : Accounted frames tracks) : (tracks.map TrackState.trackId).Nodup := by
  rw [← map_account_id]
  exact Balanced.ids h

theorem account_mergeTrackState (primary secondary : TrackState) :
    (mergeTrackState primary secondary).account =
      ⟨primary.trackId, primary.hits + secondary.hits,
        primary.frameIndexes ++ secondary.frameIndexes⟩ := by
  unfold mergeTrackState TrackState.account
  dsimp only
  split <;> rfl

theorem label_rewrite (fromTrackId toTrackId : String) (person : Option Person) :
    (person.map fun p => if p.trackId = some fromTrackId then { p with trackId := some toTrackId }
      else p).bind Person.trackId =
      (person.bind Person.trackId).map (renamed fromTrackId toTrackId) := by
  cases person with
  | none => rfl
  | some person =>
    rw [Option.map_some, Option.bind_some, Option.bind_some]
    unfold renamed
    by_cases hlabel : person.trackId = some fromTrackId
    · rw [if_pos hlabel, hlabel, Option.map_some, if_pos rfl]
    · rw [if_neg hlabel]
      cases hid : person.trackId with
      | none => rfl
      | some trackId =>
        have hne : trackId ≠ fromTrackId := fun heq => hlabel (heq ▸ hid)
        rw [Option.map_some, if_neg hne]

theorem labelsOf_rewrite (fromTrackId toTrackId : String) (persons : List (Option Person)) :
    labelsOf (persons.map (Option.map fun p =>
      if p.trackId = some fromTrackId then { p with trackId := some toTrackId } else p)) =
      (labelsOf persons).map (renamed fromTrackId toTrackId) := by
  unfold labelsOf
  rw [List.filterMap_map, List.map_filterMap]
  exact List.filterMap_congr fun person _ => label_rewrite fromTrackId toTrackId person

theorem sheets_rewrite (frames : List Frame) (fromTrackId toTrackId : String) :
    (rewriteMergedTrackIds frames fromTrackId toTrackId).map Frame.sheet =
      (frames.map Frame.sheet).map (Sheet.rename fromTrackId toTrackId) := by
  unfold rewriteMergedTrackIds
  rw [List.map_map, List.map_map]
  refine List.map_congr_left fun frame _ => ?_
  unfold Frame.sheet Frame.listedLabels Sheet.rename
  refine congrArg (Sheet.mk frame.frameIndex) ?_
  dsimp only
  cases frame.persons with
  | other => rfl
  | list persons => exact labelsOf_rewrite fromTrackId toTrackId persons

theorem skippedLabels_rewrite (frames : List Frame) (fromTrackId toTrackId : String) :
    (rewriteMergedTrackIds frames fromTrackId toTrackId).map (fun f => f.skippedLabels.length) =
      frames.map fun f => f.skippedLabels.length := by
  unfold rewriteMergedTrackIds
  rw [List.map_map]
  refine List.map_congr_left fun frame _ => ?_
  unfold Frame.skippedLabels
  dsimp only [Function.comp_apply]
  cases frame.persons with
  | list => rfl
  | other persons =>
    cases persons with
    | none => rfl
    | some persons =>
      exact (congrArg List.length (labelsOf_rewrite fromTrackId toTrackId persons)).trans
        (List.length_map _)

/-! ## Groups -/

/-- No two tracks have a frame index in common. -/
def Apart (group : List TrackState) : Prop :=
  group.Pairwise fun a b => a.frameIndexes.Disjoint b.frameIndexes

theorem Apart.perm {group' : List TrackState} (h : Apart group) (hperm : group.Perm group') :
    Apart group' :=
  (hperm.pairwise_iff fun hab => List.disjoint_comm.1 hab).1 h

theorem accounted_merge (rest : List TrackState) (primary : TrackState)
    (h : Accounted frames (primary :: rest ++ others)) (hapart : Apart (primary :: rest)) :
    let merged := rest.foldl (fun m secondary =>
      (rewriteMergedTrackIds m.1 secondary.trackId m.2.trackId, mergeTrackState m.2 secondary))
      (frames, primary)
    Accounted merged.1 (merged.2 :: others) := by
  induction rest generalizing frames primary with
  | nil => exact h
  | cons secondary _ ih =>
    obtain ⟨hprimary, hrest⟩ := List.pairwise_cons.1 hapart
    obtain ⟨hsecondary, hrest⟩ := List.pairwise_cons.1 hrest
    have hframes : (mergeTrackState primary secondary).frameIndexes =
        primary.frameIndexes ++ secondary.frameIndexes :=
      congrArg Account.seen (account_mergeTrackState primary secondary)
    refine ih (mergeTrackState primary secondary) ?_ (List.pairwise_cons.2 ⟨fun t ht => ?_, hrest⟩)
    · have hmerge := Balanced.merge h (hprimary secondary List.mem_cons_self)
      unfold Accounted
      rwa [sheets_rewrite, List.cons_append, List.map_cons, account_mergeTrackState]
    · rw [hframes]
      exact List.disjoint_append_left.2
        ⟨hprimary t (List.mem_cons_of_mem _ ht), hsecondary t ht⟩

theorem accounted_mergeGroup {s : List Frame × List TrackState}
    (h : Accounted s.1 (s.2 ++ (group ++ others))) (hgroup : Apart group) :
    Accounted (mergeGroup s group).1 ((mergeGroup s group).2 ++ others) := by
  have hperm := (List.perm_insertionSort TrackLe group).symm
  unfold mergeGroup
  split
  · rename_i hnil
    rw [hnil] at hperm
    rwa [hperm.eq_nil] at h
  · rename_i primary rest hsorted
    rw [hsorted] at hperm
    have hfront : (s.2 ++ (group ++ others)).Perm (primary :: rest ++ (s.2 ++ others)) :=
      (List.perm_append_comm_assoc _ _ _).trans (hperm.append_right _)
    have hmerged := accounted_merge rest primary (h.perm hfront) (hgroup.perm hperm)
    refine hmerged.perm ?_
    rw [List.append_assoc, List.singleton_append]
    exact List.perm_middle.symm

theorem accounted_mergeGroups (groups : List (List TrackState)) {s : List Frame × List TrackState}
    (h : Accounted s.1 (s.2 ++ groups.flatten)) (hgroups : ∀ group ∈ groups, Apart group) :
    Accounted (groups.foldl mergeGroup s).1 (groups.foldl mergeGroup s).2 := by
  induction groups generalizing s with
  | nil => simpa using h
  | cons _ _ ih =>
    rw [List.forall_mem_cons] at hgroups
    exact ih (accounted_mergeGroup h hgroups.1) hgroups.2

theorem skippedLabels_mergeGroup (s : List Frame × List TrackState) (group : List TrackState) :
    (mergeGroup s group).1.map (fun f => f.skippedLabels.length) =
      s.1.map fun f => f.skippedLabels.length := by
  unfold mergeGroup
  split
  · rfl
  · rename_i primary rest hsorted
    clear hsorted
    dsimp only
    generalize s.1 = frames
    induction rest generalizing frames primary with
    | nil => rfl
    | cons secondary _ ih =>
      rw [List.foldl_cons, ih]
      exact skippedLabels_rewrite frames secondary.trackId primary.trackId

theorem skippedLabels_mergeGroups (groups : List (List TrackState))
    (s : List Frame × List TrackState) :
    (groups.foldl mergeGroup s).1.map (fun f => f.skippedLabels.length) =
      s.1.map fun f => f.skippedLabels.length := by
  induction groups generalizing s with
  | nil => rfl
  | cons group _ ih => rw [List.foldl_cons, ih, skippedLabels_mergeGroup]

/-! ## Compatible groups -/

theorem min?_getD_le {xs : List Int} {x : Int} (d : Int) (h : x ∈ xs) : xs.min?.getD d ≤ x := by
  cases hmin : xs.min? with
  | none =>
    simp [List.min?_eq_none_iff.1 hmin] at h
  | some m => exact (List.min?_eq_some_iff.1 hmin).2 x h

theorem le_max?_getD {xs : List Int} {x : Int} (d : Int) (h : x ∈ xs) : x ≤ xs.max?.getD d := by
  cases hmax : xs.max? with
  | none =>
    simp [List.max?_eq_none_iff.1 hmax] at h
  | some m => exact (List.max?_eq_some_iff.1 hmax).2 x h

theorem frameIndex_within {t : TrackState} (ht : t ∈ group) {i : Int} (hi : i ∈ t.frameIndexes) :
    groupStart group ≤ i ∧ i ≤ groupEnd group := by
  have hstart : groupStart group ≤ firstFrameIndex t :=
    min?_getD_le 0 (List.mem_map.2 ⟨t, ht, rfl⟩)
  have hend : lastFrameIndex t ≤ groupEnd group := le_max?_getD 0 (List.mem_map.2 ⟨t, ht, rfl⟩)
  exact ⟨hstart.trans (min?_getD_le _ hi), (le_max?_getD _ hi).trans hend⟩

theorem apart_of_compatible {left right : List TrackState} (hleft : Apart left)
    (hright : Apart right) (h : trackGroupsAreTemporallyCompatible left right = true) :
    Apart (left ++ right) := by
  refine List.pairwise_append.2 ⟨hleft, hright, fun a ha b hb i hia hib => ?_⟩
  have hwithin := frameIndex_within ha hia
  have hwithin' := frameIndex_within hb hib
  unfold trackGroupsAreTemporallyCompatible at h
  simp only [Bool.or_eq_true, decide_eq_true_eq] at h
  omega

/-! ## The union-find and the groups -/

/-- A group for each root; together they are the tracks. -/
structure Grouped (tracks : List TrackState) (g : Grouping) : Prop where
  ranked : g.unionFind.Ranked
  keys : ∀ t ∈ tracks, g.unionFind.parent.get? t.trackId ≠ none
  roots : ∀ k, g.groups.get? k ≠ none ↔ g.unionFind.parent.get? k = some k
  perm : g.groups.values.flatten.Perm tracks
  apart : ∀ group ∈ g.groups.values, Apart group

theorem Grouped.keeps {uf : UnionFind String} (h : Grouped tracks g)
    (hranked : uf.Ranked) (hkeeps : g.unionFind.Keeps uf) :
    Grouped tracks { g with unionFind := uf } where
  ranked := hranked
  keys t ht := (hkeeps.keys _).2 (h.keys t ht)
  roots k := (h.roots k).trans (hkeeps.isRoot_iff h.ranked).symm
  perm := h.perm
  apart := h.apart

theorem get?_oldRoot (groups : Dict String (List TrackState)) {l r n : String}
    (hwhich : n = l ∨ n = r) (hne : l ≠ r) (group : List TrackState) :
    (((groups.erase l).erase r).insert n group).get? (if n = l then r else l) = none := by
  rcases hwhich with rfl | rfl
  · rw [if_pos rfl, Dict.get?_insert_of_ne _ _ (Ne.symm hne), Dict.get?_erase_self]
  · rw [if_neg (Ne.symm hne), Dict.get?_insert_of_ne _ _ hne, Dict.get?_erase_of_ne _ hne,
      Dict.get?_erase_self]

theorem Grouped.join {uf : UnionFind String} {l r n : String}
    {left right : List TrackState} (h : Grouped tracks g) (hleft : g.groups.get? l = some left)
    (hright : g.groups.get? r = some right) (hne : l ≠ r) (hjoins : g.unionFind.Joins uf l r n)
    (hcompatible : trackGroupsAreTemporallyCompatible left right = true) :
    Grouped tracks ⟨uf, ((g.groups.erase l).erase r).insert n (left ++ right)⟩ := by
  have hright' : (g.groups.erase l).get? r = some right := by
    rw [Dict.get?_erase_of_ne _ (Ne.symm hne), hright]
  have hnone : ((g.groups.erase l).erase r).get? n = none := by
    rcases hjoins.which with rfl | rfl
    · rw [Dict.get?_erase_of_ne _ hne, Dict.get?_erase_self]
    · exact Dict.get?_erase_self _ _
  have hvalues : g.groups.values.Perm (left :: right :: ((g.groups.erase l).erase r).values) :=
    (Dict.values_perm_erase hleft).trans ((Dict.values_perm_erase hright').cons left)
  have hroot := (h.roots l).1 (by simp [hleft])
  refine ⟨hjoins.ranked, fun t ht => (hjoins.keys _).2 (h.keys t ht), fun k => ?_, ?_, ?_⟩
  · rw [hjoins.isRoot_iff h.ranked hroot, Dict.get?_insert, ← h.roots k]
    by_cases hkn : k = n
    · simp [hkn]
    · simp only [hkn, if_false, false_or, Dict.get?_erase]
      by_cases hkl : k = l <;> by_cases hkr : k = r <;> simp [hkl, hkr]
  · dsimp only
    rw [Dict.values_insert _ hnone, List.flatten_append, List.flatten_singleton]
    refine List.perm_append_comm.trans ?_
    rw [List.append_assoc]
    exact hvalues.flatten.symm.trans h.perm
  · intro group hgroup
    rw [Dict.values_insert _ hnone, List.mem_append, List.mem_singleton] at hgroup
    rcases hgroup with hgroup | rfl
    · exact h.apart group (hvalues.mem_iff.2
        (List.mem_cons_of_mem _ (List.mem_cons_of_mem _ hgroup)))
    · exact apart_of_compatible (h.apart left (hvalues.mem_iff.2 List.mem_cons_self))
        (h.apart right (hvalues.mem_iff.2 (List.mem_cons_of_mem _ List.mem_cons_self))) hcompatible

theorem grouped_acceptCandidate (h : Grouped tracks g) {c : Candidate}
    (hto : ∃ t ∈ tracks, t.trackId = c.toTrackId)
    (hfrom : ∃ t ∈ tracks, t.trackId = c.fromTrackId) :
    ∃ g', acceptCandidate g c = some g' ∧ Grouped tracks g' := by
  obtain ⟨t, ht, hto⟩ := hto
  obtain ⟨t', ht', hfrom⟩ := hfrom
  obtain ⟨l, _, hfind₁, hl, hranked₁, hkeeps₁⟩ :=
    UnionFind.find_spec h.ranked (hto ▸ h.keys t ht)
  obtain ⟨r, _, hfind₂, hr, hranked₂, hkeeps₂⟩ :=
    UnionFind.find_spec hranked₁ ((hkeeps₁.keys _).2 (hfrom ▸ h.keys t' ht'))
  have hgrouped := h.keeps hranked₂ (hkeeps₁.trans hkeeps₂)
  have hl' := hkeeps₂.root _ _ (hkeeps₁.root _ _ hl)
  have hr' := hkeeps₂.root _ _ hr
  unfold acceptCandidate
  simp only [hfind₁, hfind₂, Option.bind_eq_bind, Option.bind_some]
  by_cases hlr : l = r
  · rw [if_pos hlr]
    exact ⟨_, rfl, hgrouped⟩
  · rw [if_neg hlr]
    obtain ⟨left, hleft⟩ := Option.ne_none_iff_exists'.1 ((hgrouped.roots l).2 hl'.isRoot)
    obtain ⟨right, hright⟩ := Option.ne_none_iff_exists'.1 ((hgrouped.roots r).2 hr'.isRoot)
    simp only [hleft, hright, Option.bind_some]
    by_cases hcompatible : trackGroupsAreTemporallyCompatible left right = true
    · rw [if_neg (by simp [hcompatible])]
      obtain ⟨_, uf₃, n, hunion, hjoins⟩ := UnionFind.union_spec hranked₂ hl' hr'
      have hn : uf₃.Root c.toTrackId n := by
        have hroot := hjoins.root _ _ hl'
        rwa [if_pos (.inl rfl)] at hroot
      obtain ⟨_, _, hfind₄, hn', hranked₄, hkeeps₄⟩ := UnionFind.find_spec hjoins.ranked hn.key
      obtain rfl := hn'.unique hn
      have hjoin := (hgrouped.join hleft hright hlr hjoins hcompatible).keeps hranked₄ hkeeps₄
      simp only [hunion, hfind₄, Option.bind_some]
      refine ⟨_, rfl, ?_⟩
      rwa [Dict.erase_of_get?_none (get?_oldRoot g.groups hjoins.which hlr _)]
    · rw [if_pos (by simp [hcompatible])]
      exact ⟨_, rfl, hgrouped⟩

theorem grouped_singleGroups (h : (tracks.map TrackState.trackId).Nodup) :
    Grouped tracks (singleGroups tracks) := by
  have hentries : (singleGroups tracks).groups.entries = tracks.map fun t => (t.trackId, [t]) :=
    Dict.entries_ofList (by simpa [Function.comp_def] using h)
  have hvalues : (singleGroups tracks).groups.values = tracks.map fun t => [t] := by
    unfold Dict.values
    rw [hentries, List.map_map]
    rfl
  refine ⟨UnionFind.ranked_singletons h, fun t ht => ?_, fun k => ?_, ?_, ?_⟩
  · exact (UnionFind.get?_singletons h _).2 (List.mem_map.2 ⟨t, ht, rfl⟩)
  · rw [← Dict.mem_keys, hentries, List.map_map]
    constructor
    · exact fun hk => (UnionFind.root_singletons h hk).isRoot
    · exact fun hk => (UnionFind.get?_singletons h k).1 (by
        have hk' : (UnionFind.singletons (tracks.map TrackState.trackId)).parent.get? k = some k :=
          hk
        simp [hk'])
  · rw [hvalues, ← List.flatMap_def, List.flatMap_singleton']
  · rw [hvalues, List.forall_mem_map]
    exact fun t _ => List.pairwise_singleton _ t

/-! ## All candidates -/

/-- A candidate is about two of the tracks. -/
def Among (tracks : List TrackState) (c : Candidate) : Prop :=
  (∃ t ∈ tracks, t.trackId = c.toTrackId) ∧ ∃ t ∈ tracks, t.trackId = c.fromTrackId

theorem canMerge_ids {left right : TrackState} {c : Candidate}
    (h : canMergeTrackFragments math left right maxGap = some (some c)) :
    c.toTrackId = left.trackId ∧ c.fromTrackId = right.trackId := by
  unfold canMergeTrackFragments at h
  dsimp only at h
  split at h
  · cases h
  split at h
  · cases h
  split at h
  · cases h
  split at h
  · cases h
  split at h
  · cases h
  obtain ⟨_, -, hc⟩ := Option.map_eq_some_iff.1 h
  split at hc
  · cases hc
  · cases hc
    exact ⟨rfl, rfl⟩

theorem candidatesOf_among {left : TrackState} {rights : List TrackState} {cs : List Candidate}
    (h : candidatesOf math maxGap left rights = some cs) :
    ∀ c ∈ cs, Among (left :: rights) c := by
  induction rights generalizing cs with
  | nil =>
    cases h
    simp
  | cons right rights ih =>
    unfold candidatesOf at h
    split at h
    · cases h
      simp
    · obtain ⟨_, hfound, h⟩ := Option.bind_eq_some_iff.1 h
      obtain ⟨_, hrest, rfl⟩ := Option.map_eq_some_iff.1 h
      intro c hc
      rcases List.mem_append.1 hc with hc | hc
      · rw [Option.mem_toList] at hc
        obtain ⟨hto, hfrom⟩ := canMerge_ids (hc ▸ hfound)
        exact ⟨⟨left, by simp, hto.symm⟩, right, by simp, hfrom.symm⟩
      · obtain ⟨⟨t, ht, hto⟩, t', ht', hfrom⟩ := ih hrest c hc
        refine ⟨⟨t, ?_, hto⟩, t', ?_, hfrom⟩
        · exact (List.cons_subset_cons left (List.subset_cons_self right rights)) ht
        · exact (List.cons_subset_cons left (List.subset_cons_self right rights)) ht'

theorem allCandidates_among {cs : List Candidate} (h : allCandidates math maxGap tracks = some cs) :
    ∀ c ∈ cs, Among tracks c := by
  induction tracks generalizing cs with
  | nil =>
    cases h
    simp
  | cons _ _ ih =>
    obtain ⟨_, hfound, h⟩ := Option.bind_eq_some_iff.1 h
    obtain ⟨_, hlater, rfl⟩ := Option.map_eq_some_iff.1 h
    intro c hc
    rcases List.mem_append.1 hc with hc | hc
    · exact candidatesOf_among hfound c hc
    · obtain ⟨⟨t, ht, hto⟩, t', ht', hfrom⟩ := ih hlater c hc
      exact ⟨⟨t, List.mem_cons_of_mem _ ht, hto⟩, t', List.mem_cons_of_mem _ ht', hfrom⟩

theorem grouped_foldlM (h : Grouped tracks g) (cs : List Candidate)
    (hcs : ∀ c ∈ cs, Among tracks c) :
    ∃ g', cs.foldlM acceptCandidate g = some g' ∧ Grouped tracks g' := by
  induction cs generalizing g with
  | nil => exact ⟨g, rfl, h⟩
  | cons c _ ih =>
    rw [List.forall_mem_cons] at hcs
    obtain ⟨_, haccept, hg'⟩ := grouped_acceptCandidate h hcs.1.1 hcs.1.2
    rw [List.foldlM_cons, haccept]
    exact ih hg' hcs.2

theorem accounted_mergeTrackFragments {frames' : List Frame}
    (h : Accounted frames tracks)
    (hmerge : mergeTrackFragments math frames tracks maxGap = some (frames', tracks')) :
    Accounted frames' tracks' := by
  have hordered := List.perm_insertionSort TrackLe tracks
  obtain ⟨cs, hcs, hmerge⟩ := Option.bind_eq_some_iff.1 hmerge
  obtain ⟨g, hg, hgrouped⟩ := grouped_foldlM
    (grouped_singleGroups ((hordered.map _).nodup_iff.2 h.ids))
    (cs.insertionSort fun a b => a.key ≤ b.key) fun c hc =>
      allCandidates_among hcs c ((List.perm_insertionSort _ cs).mem_iff.1 hc)
  simp only [hg, Option.bind_eq_bind, Option.bind_some] at hmerge
  cases hmerge
  have hgroups := List.perm_insertionSort (fun a b => groupStart a ≤ groupStart b) g.groups.values
  have hstart : Accounted frames ((g.groups.values.insertionSort fun a b =>
      groupStart a ≤ groupStart b).flatten) :=
    h.perm (hordered.symm.trans (hgrouped.perm.symm.trans hgroups.symm.flatten))
  have hmerged := accounted_mergeGroups _ (s := (frames, [])) hstart fun group hgroup =>
    hgrouped.apart group (hgroups.mem_iff.1 hgroup)
  exact hmerged.perm (List.perm_insertionSort _ _).symm

theorem skippedLabels_mergeTrackFragments {frames' : List Frame}
    (hmerge : mergeTrackFragments math frames tracks maxGap = some (frames', tracks')) :
    frames'.map (fun f => f.skippedLabels.length) = frames.map fun f => f.skippedLabels.length := by
  obtain ⟨_, _, hmerge⟩ := Option.bind_eq_some_iff.1 hmerge
  obtain ⟨_, _, hmerge⟩ := Option.bind_eq_some_iff.1 hmerge
  cases hmerge
  exact skippedLabels_mergeGroups _ _

end Scenara.Tracking
