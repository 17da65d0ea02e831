import Scenara.Trajectory.Pruning

/-!
# Templates along a run
-/

namespace Scenara.Trajectory

open Scenara.Core

variable {config : TemplateConfig} {uuid : UuidSource} {ids : Fresh String} {t : Templates}
variable {scope : Scope} {st : Shelf}

/-! ## Whose the ids are -/

/-- The ids that the segments name were drawn, no two segments name one, and no two did when
templates were pruned. -/
structure Tracked (ids : Fresh String) (t : Templates) : Prop where
  drawn : ∀ {k c featureId}, t.contributions.get? k = some c → featureId ∈ c.featureIds.values →
    ∃ n < t.drawn, ids.draw n = featureId
  attributed : Attributed t.contributions
  landings : ∀ l ∈ t.landings, Attributed l.contributions

/-- The feature ids of one segment are drawn, and the segments are not touched. -/
structure Supplies (ids : Fresh String) (t : Templates) (r : Dict Modality String × Templates) :
    Prop where
  contributions : r.2.contributions = t.contributions
  landings : r.2.landings = t.landings
  drawn : t.drawn ≤ r.2.drawn
  fresh : ∀ {featureId}, featureId ∈ r.1.values →
    ∃ n, t.drawn ≤ n ∧ n < r.2.drawn ∧ ids.draw n = featureId

theorem supplies_nil : Supplies ids t (.empty, t) where
  contributions := rfl
  landings := rfl
  drawn := le_rfl
  fresh h := by
    obtain ⟨k, hk⟩ := (Dict.mem_values _ _).1 h
    cases hk

theorem Supplies.draw {r : Dict Modality String × Templates} (h : Supplies ids t r) (m : Modality)
    (features : Features) : Supplies ids t
      (r.1.insert m (ids.draw r.2.drawn),
        { r.2 with features := features, drawn := r.2.drawn + 1 }) where
  contributions := h.contributions
  landings := h.landings
  drawn := h.drawn.trans (Nat.le_succ _)
  fresh {featureId} hmem := by
    obtain ⟨k, hk⟩ := (Dict.mem_values _ _).1 hmem
    rw [Dict.get?_insert] at hk
    split at hk
    · exact ⟨r.2.drawn, h.drawn, Nat.lt_succ_self _, Option.some.inj hk⟩
    · obtain ⟨n, hle, hlt, hn⟩ := h.fresh ((Dict.mem_values _ _).2 ⟨k, hk⟩)
      exact ⟨n, hle, hlt.trans (Nat.lt_succ_self _), hn⟩

theorem supplies_storeTemplates (scope : Scope) (id : String) (track : TemplateTrack) :
    Supplies ids t (storeTemplates ids scope id track t) := by
  unfold storeTemplates
  generalize track.spaces.entries = entries
  refine List.foldlRecOn entries _ (motive := Supplies ids t) supplies_nil fun r hr e _ => ?_
  exact hr.draw e.1 _

theorem supplies_moveFeatures (scope : Scope) (id : String) (segment : Key) :
    Supplies ids t (moveFeatures ids scope id segment t) := by
  refine List.foldlRecOn _ _ (motive := Supplies ids t) supplies_nil fun r hr e _ => ?_
  unfold moveFeature
  split
  · exact hr
  · exact hr.draw e.1 _

theorem tracked_initial : Tracked ids .initial where
  drawn h := by cases h
  attributed h := by cases h
  landings := nofun

theorem Tracked.congr {t' : Templates} (h : Tracked ids t)
    (hcontributions : t'.contributions = t.contributions) (hlandings : t'.landings = t.landings)
    (hdrawn : t.drawn ≤ t'.drawn) : Tracked ids t' where
  drawn hc hmem := by
    rw [hcontributions] at hc
    obtain ⟨n, hlt, hn⟩ := h.drawn hc hmem
    exact ⟨n, hlt.trans_le hdrawn, hn⟩
  attributed := by
    rw [hcontributions]
    exact h.attributed
  landings := by
    rw [hlandings]
    exact h.landings

theorem Tracked.supplied {r : Dict Modality String × Templates} (h : Tracked ids t)
    (hr : Supplies ids t r) : Tracked ids r.2 :=
  h.congr hr.contributions hr.landings hr.drawn

section Insert

variable {r : Dict Modality String × Templates} {q : ℚ} (k : Key)

theorem Tracked.attributed_insert (h : Tracked ids t) (hr : Supplies ids t r) :
    Attributed (r.2.contributions.insert k ⟨r.1, q⟩) := by
  have hother : ∀ {k' c featureId}, t.contributions.get? k' = some c →
      featureId ∈ c.featureIds.values → featureId ∉ r.1.values := fun hc hmem hnew => by
    obtain ⟨n, _, hn⟩ := h.drawn hc hmem
    obtain ⟨m, _, -, hm⟩ := hr.fresh hnew
    have heq := ids.injective (hn.trans hm.symm)
    omega
  rw [hr.contributions]
  intro _ _ _ _ _ h₁ h₂ hmem₁ hmem₂
  rcases Dict.get?_insert_cases h₁ with ⟨hk₁, rfl⟩ | ⟨-, h₁⟩ <;>
    rcases Dict.get?_insert_cases h₂ with ⟨hk₂, rfl⟩ | ⟨-, h₂⟩
  · exact hk₁.trans hk₂.symm
  · exact absurd hmem₁ (hother h₂ hmem₂)
  · exact absurd hmem₂ (hother h₁ hmem₁)
  · exact h.attributed h₁ h₂ hmem₁ hmem₂

theorem Tracked.drawn_insert (h : Tracked ids t) (hr : Supplies ids t r) {k' : Key}
    {c : Contribution} {featureId : String}
    (hc : (r.2.contributions.insert k ⟨r.1, q⟩).get? k' = some c)
    (hmem : featureId ∈ c.featureIds.values) : ∃ n < r.2.drawn, ids.draw n = featureId := by
  rcases Dict.get?_insert_cases hc with ⟨-, rfl⟩ | ⟨-, hc⟩
  · obtain ⟨n, -, hlt, hn⟩ := hr.fresh hmem
    exact ⟨n, hlt, hn⟩
  · exact (h.supplied hr).drawn hc hmem

end Insert

/-! ## Step by step -/

theorem tracked_add (h : Tracked ids t) {r : Dict Modality String × Templates}
    (hr : Supplies ids t r) (repo : Repository) (segment : TrajectorySegment) (q : ℚ)
    (spaces : Dict Modality String) :
    Tracked ids (r.2.add config repo segment ⟨r.1, q⟩ spaces) where
  drawn := h.drawn_insert segment.key hr
  attributed := h.attributed_insert segment.key hr
  landings l hl := by
    rcases List.mem_append.1 hl with hl | hl
    · exact (h.supplied hr).landings l hl
    · rw [List.mem_singleton.1 hl]
      exact h.attributed_insert segment.key hr

theorem tracked_land {request : IngestRequest} {track : TemplateTrack} {window : Window}
    {st : TemplateIngest} (identity : LongTermIdentity) (spaces : Dict Modality String) (score : ℚ)
    (h : Tracked ids st.2) :
    Tracked ids (reached (land config uuid ids request track window st identity spaces
      score)).2 := by
  have hr : Supplies ids st.2 (storeTemplates ids request.scope identity.identityId track st.2) :=
    supplies_storeTemplates request.scope identity.identityId track
  unfold land
  dsimp only
  split
  · exact h.supplied hr
  · exact tracked_add h hr _ _ _ _

theorem tracked_landTrack (request : IngestRequest) {st : TemplateIngest} (track : TemplateTrack)
    (h : Tracked ids st.2) :
    Tracked ids (reached (landTrack config uuid ids request st track)).2 := by
  unfold landTrack
  split_ifs
  · exact h
  · exact h
  unfold landOne
  split
  · exact h
  split
  · exact tracked_land _ _ _ h
  split
  · exact h
  · exact tracked_land _ _ _ h

theorem tracked_moveSegment {id : String} (segment : TrajectorySegment)
    (h : Tracked ids st.2) : Tracked ids (moveSegment ids scope id st segment).2 := by
  have hr : Supplies ids st.2 (moveFeatures ids scope id segment.key st.2) :=
    supplies_moveFeatures scope id segment.key
  exact {
    drawn := h.drawn_insert segment.key hr
    attributed := h.attributed_insert segment.key hr
    landings := (h.supplied hr).landings }

theorem tracked_moveSegments {id : String}
    (segments : List TrajectorySegment) (h : Tracked ids st.2) :
    Tracked ids (segments.foldl (moveSegment ids scope id) st).2 :=
  List.foldlRecOn segments _ (motive := fun st : Shelf => Tracked ids st.2) h
    fun _ hst segment _ => tracked_moveSegment segment hst

theorem tracked_mergeSource (scope : Scope) (id : String) (st : Shelf) (sourceId : String)
    (h : Tracked ids st.2) :
    Tracked ids (reached (mergeSourceTemplates ids scope id st sourceId)).2 := by
  unfold mergeSourceTemplates
  split
  · exact h
  · exact (tracked_moveSegments _ h).congr rfl rfl le_rfl

theorem tracked_merge (request : MergeIdentitiesRequest)
    (h : Tracked ids st.2) : Tracked ids (reached (mergeTemplates ids st scope request)).2 := by
  unfold mergeTemplates
  split
  · exact h
  · split
    · exact h
    · have hloop := reached_foldlM (I := fun st : Shelf => Tracked ids st.2)
        (tracked_mergeSource scope request.targetIdentityId) h request.sources
      cases hdone : request.sources.foldlM
        (mergeSourceTemplates ids scope request.targetIdentityId) st with
      | error | ok =>
        rwa [hdone] at hloop

theorem tracked_split {newId id : String} (request : SplitIdentityRequest) (h : Tracked ids st.2) :
    Tracked ids (reached (splitIdentityTemplates ids newId st scope id request)).2 := by
  unfold splitIdentityTemplates
  split
  · exact h
  · dsimp only
    split_ifs
    · exact h
    · exact h
    · exact (tracked_moveSegments _ h).congr rfl rfl le_rfl

theorem tracked_apply {s : TemplateState} (a : TemplateAct) (h : Tracked ids s.templates) :
    Tracked ids (applyTemplates config uuid ids s a).templates := by
  unfold applyTemplates
  split
  · exact reached_foldlM (I := fun st : TemplateIngest => Tracked ids st.2)
      (fun _ track hst => tracked_landTrack _ track hst) h _
  · exact tracked_merge _ h
  · exact tracked_split _ h

theorem tracked_run (acts : List TemplateAct) :
    Tracked ids (runTemplates config uuid ids acts).templates :=
  List.foldlRecOn acts _ (motive := fun s : TemplateState => Tracked ids s.templates)
    tracked_initial
    fun _ hs a _ => tracked_apply a hs

/-- **Every ingest of every run.** The spaces of the identity are bounded exactly when those over
the limit are recorded; what is evicted has the lowest quality when the segments are listed. -/
theorem templates_bounded (config : TemplateConfig) (uuid : UuidSource) (ids : Fresh String)
    (acts : List TemplateAct) {l : Landing}
    (hl : l ∈ (runTemplates config uuid ids acts).templates.landings) :
    (l.Bounded config.maxTemplates ↔ l.SpacesRecorded config.maxTemplates) ∧
      (l.QualitiesListed config.maxTemplates → l.Lowest config.maxTemplates) :=
  ⟨bounded_iff, lowest_of_listed ((tracked_run acts).landings l hl)⟩

/-! ## Two merged faces -/

/-- One template in each space. -/
def onePerSpace : TemplateConfig := ⟨defaultConfig, 1⟩

/-- A good track with embeddings of dimension 2, each found where it says. -/
def templateTrack (body face : Option (List FeatureMatch)) (now : ℚ) : TemplateTrack where
  track := { trackOf 0 0 [] with body := body, face := face }
  dimension _ := 2
  quality := 9 / 10
  storedAt _ := now
  quality_eq h := Option.some.inj h

/-- A recording with one track. -/
def oneTrack (now : ℚ) (body face : Option (List FeatureMatch)) : TemplateAct :=
  .ingest
    { request :=
        { scope := portal
          tracks := [(templateTrack body face now).track]
          cameraId := "gate"
          recordingStartedAt := some now
          now := now
          transitions := [] }
      tracks := [templateTrack body face now]
      tracks_eq := rfl }

/-- A body and two faces that match nothing, the faces merged into the body, the body again. -/
def mergedFaces : List TemplateAct :=
  [oneTrack 0 (some []) none, oneTrack 100 none (some []), oneTrack 200 none (some []),
    .merge portal ⟨zeros.identityId 0, [zeros.identityId 2, zeros.identityId 4], by decide⟩,
    oneTrack 300 (some [⟨subjectType, zeros.identityId 0, 1⟩]) none]

theorem templates_bounded_mergedFaces :
    ∃ l ∈ (runTemplates onePerSpace zeros .counted mergedFaces).templates.landings,
      (l.Bounded 1 ↔ l.SpacesRecorded 1) ∧ (l.QualitiesListed 1 → l.Lowest 1) := by
  have hlanded : (runTemplates onePerSpace zeros .counted mergedFaces).templates.landings ≠ [] :=
    List.isEmpty_eq_false_iff.1 (by decide +kernel)
  obtain ⟨l, hl⟩ := List.exists_mem_of_ne_nil _ hlanded
  exact ⟨l, hl, templates_bounded onePerSpace zeros .counted mergedFaces hl⟩

/-- **Two faces stay.** The body's identity records no face: its next ingest leaves both. -/
theorem merged_faces_stay :
    ∃ l ∈ (runTemplates onePerSpace zeros .counted mergedFaces).templates.landings,
      onePerSpace.maxTemplates <
        l.count (l.prune onePerSpace.maxTemplates) (featureSpaceId .face 2) := by
  decide +kernel

/-! ## Without the templates -/

/-- The call, as `Trajectory.Model` sees it. -/
def TemplateAct.act : TemplateAct → Act
  | .ingest r => .ingest r.request
  | .merge scope request => .merge scope request
  | .split scope identityId request => .split scope identityId request

theorem project_land (request : IngestRequest) (track : TemplateTrack) (window : Window)
    (st : TemplateIngest) (identity : LongTermIdentity) (spaces : Dict Modality String)
    (score : ℚ) :
    project Prod.fst (land config uuid ids request track window st identity spaces score) =
      register uuid request track.track window st.1 identity score := by
  unfold land
  rcases register uuid request track.track window st.1 identity score with ⟨e, ingest⟩ | _
  · rfl
  · rfl

theorem project_landOne (request : IngestRequest) (track : TemplateTrack) (window : Window)
    (st : TemplateIngest) :
    project Prod.fst (landOne config uuid ids request track window st) =
      ingestOne config.toConfig uuid request track.track window st.1 := by
  unfold landOne ingestOne
  rcases ranked (candidates (trackEmbeddings track.track)) with _ | cs
  · rfl
  dsimp only
  generalize cs.find? (fun c => accepts config.toConfig request st.1 window c.identityId) = found
  rcases found with _ | chosen
  · exact project_land ..
  dsimp only
  rcases st.1.repo.getIdentity request.scope chosen.identityId with _ | _
  · rfl
  · exact project_land ..

theorem project_landTrack (request : IngestRequest) (st : TemplateIngest) (track : TemplateTrack) :
    project Prod.fst (landTrack config uuid ids request st track) =
      ingestTrack config.toConfig uuid request st.1 track.track := by
  unfold landTrack ingestTrack
  split_ifs
  · rfl
  · rfl
  · exact project_landOne ..

theorem moveSegments_fst {id : String} (segments : List TrajectorySegment) (st : Shelf) :
    (segments.foldl (moveSegment ids scope id) st).1 = moveSegments id st.1 segments := by
  induction segments generalizing st with
  | nil => rfl
  | cons _ _ ih =>
    rw [List.foldl_cons, ih]
    rfl

theorem project_mergeSource (scope : Scope) (id : String) (st : Shelf) (sourceId : String) :
    project Prod.fst (mergeSourceTemplates ids scope id st sourceId) =
      mergeSource scope id st.1 sourceId := by
  unfold mergeSourceTemplates mergeSource
  rcases st.1.getIdentity scope sourceId with _ | _
  · rfl
  · dsimp only [project]
    rw [moveSegments_fst]

theorem project_merge (scope : Scope) (request : MergeIdentitiesRequest) (st : Shelf) :
    project Prod.fst (mergeTemplates ids st scope request) =
      mergeIdentities st.1 scope request := by
  unfold mergeTemplates mergeIdentities
  rcases st.1.getIdentity scope request.targetIdentityId with _ | _
  · rfl
  · dsimp only
    split_ifs
    · rfl
    · refine project_bind ?_ fun _ => rfl
      rw [project_foldlM id (project_mergeSource scope request.targetIdentityId), List.map_id]

theorem project_split (newId id : String) (scope : Scope) (request : SplitIdentityRequest)
    (st : Shelf) :
    project Prod.fst (splitIdentityTemplates ids newId st scope id request) =
      splitIdentity newId st.1 scope id request := by
  unfold splitIdentityTemplates splitIdentity
  rcases st.1.getIdentity scope id with _ | _
  · rfl
  · dsimp only
    split_ifs
    · rfl
    · rfl
    · dsimp only [project, splitTemplates, splitSegments]
      rw [moveSegments_fst]

theorem applyTemplates_state (s : TemplateState) (a : TemplateAct) :
    (applyTemplates config uuid ids s a).state = apply config.toConfig uuid s.state a.act := by
  cases a with
  | ingest r =>
    have hloop : project Prod.fst (landRunTracks config uuid ids s.state.repo s.state.issued
        s.templates r) =
        ingestRunTracks config.toConfig uuid s.state.repo s.state.issued r.request := by
      unfold landRunTracks ingestRunTracks
      rw [project_foldlM TemplateTrack.track (project_landTrack r.request), r.tracks_eq]
    dsimp only [applyTemplates, apply, TemplateAct.act]
    rw [← hloop, reached_project]
  | merge scope request =>
    have hmerge : project Prod.fst (mergeTemplates ids (s.state.repo, s.templates) scope request) =
        mergeIdentities s.state.repo scope request := project_merge scope request _
    dsimp only [applyTemplates, apply, TemplateAct.act]
    rw [← hmerge, reached_project]
  | split scope id request =>
    have hsplit : project Prod.fst (splitIdentityTemplates ids (uuid.identityId s.state.issued)
        (s.state.repo, s.templates) scope id request) =
        splitIdentity (uuid.identityId s.state.issued) s.state.repo scope id request :=
      project_split _ id scope request _
    dsimp only [applyTemplates, apply, TemplateAct.act]
    rw [← hsplit, reached_project]

/-- **Without the templates**, a run is a run of `Trajectory.Model`. -/
theorem runTemplates_state (acts : List TemplateAct) :
    (runTemplates config uuid ids acts).state =
      run config.toConfig uuid (acts.map TemplateAct.act) := by
  unfold runTemplates run
  rw [List.foldl_map]
  exact (List.foldl_hom TemplateState.state fun s a => (applyTemplates_state s a).symm).symm

end Scenara.Trajectory
