import Mathlib.Order.CompletePartialOrder
import Scenara.Trajectory.Probe

/-!
# An identity is in one place at a time

Two segments of one identity taken at different cameras, or registered by the same
`ingest_run_tracks` call, have disjoint time windows (`Exclusive`), in every state reached by ingest
calls with a camera and an absolute time, splits, updates and deletions
(`never_in_two_places`). Merges join identities by hand and are left out.
-/

namespace Scenara.Trajectory

open Scenara.Core

variable {repo : Repository} {s t : TrajectorySegment} {scope : Scope} {id : String}
  {config : Config} {uuid : UuidSource} {request : IngestRequest} {st : Ingest}
variable {window : Window} {calls : List (List String)}

/-! ## Disjoint windows -/

/-- The closed time windows are disjoint. -/
def Apart (s t : TrajectorySegment) : Prop :=
  Disjoint (Set.Icc s.firstSeenAt s.lastSeenAt) (Set.Icc t.firstSeenAt t.lastSeenAt)

theorem Apart.symm (h : Apart s t) : Apart t s := Disjoint.symm h

theorem windowsOverlap_comm (v w : Window) : windowsOverlap v w = windowsOverlap w v :=
  Bool.and_comm _ _

theorem apart_of_not_overlap (h : windowsOverlap s.window t.window = false) : Apart s t := by
  refine Set.disjoint_left.2 fun x hs ht => ?_
  have hoverlap : windowsOverlap s.window t.window = true := by
    unfold windowsOverlap TrajectorySegment.window
    rw [Bool.and_eq_true, decide_eq_true_eq, decide_eq_true_eq]
    exact ⟨hs.1.trans ht.2, ht.1.trans hs.2⟩
  simp [h] at hoverlap

/-- The segments are of one identity. -/
def SameIdentity (s t : TrajectorySegment) : Prop :=
  s.scope = t.scope ∧ s.identityId = t.identityId

theorem SameIdentity.symm (h : SameIdentity s t) : SameIdentity t s := ⟨h.1.symm, h.2.symm⟩

/-- Different cameras, disjoint windows. -/
def CamerasApart (s t : TrajectorySegment) : Prop :=
  SameIdentity s t → s.cameraId ≠ t.cameraId → Apart s t

/-- Registered by the same call, disjoint windows. -/
def CallApart (call : List String) (s t : TrajectorySegment) : Prop :=
  SameIdentity s t → s ≠ t → s.segmentId ∈ call → t.segmentId ∈ call → Apart s t

theorem CamerasApart.symm (h : CamerasApart s t) : CamerasApart t s := fun hid hne =>
  (h hid.symm hne.symm).symm

theorem CallApart.symm {call : List String} (h : CallApart call s t) : CallApart call t s :=
  fun hid hne ht hs => (h hid.symm hne.symm hs ht).symm

/-- `R` holds of every two stored segments. -/
def Pairs (R : TrajectorySegment → TrajectorySegment → Prop) (repo : Repository) : Prop :=
  ∀ s t, Stored repo s → Stored repo t → R s t

/-- **An identity is never in two places at once.** -/
structure Exclusive (s : State) : Prop where
  cameras : Pairs CamerasApart s.repo
  calls : ∀ call ∈ s.calls, Pairs (CallApart call) s.repo

/-! ## Pairs of stored segments -/

section Pairs

variable {R : TrajectorySegment → TrajectorySegment → Prop}

theorem Pairs.putSegment (hsymm : ∀ s t, R s t → R t s) (h : Pairs R repo) (hself : R t t)
    (hnew : ∀ s, Stored repo s → R s t) : Pairs R (repo.putSegment t) := by
  intro a b ha hb
  rcases stored_putSegment.1 ha with hat | ⟨-, ha⟩ <;>
    rcases stored_putSegment.1 hb with hbt | ⟨-, hb⟩
  · exact hat ▸ hbt ▸ hself
  · exact hat ▸ hsymm _ _ (hnew b hb)
  · exact hbt ▸ hnew a ha
  · exact h a b ha hb

theorem Pairs.mono {repo' : Repository} (h : Pairs R repo)
    (hsub : ∀ s, Stored repo' s → Stored repo s) : Pairs R repo' := fun s t hs ht =>
  h s t (hsub s hs) (hsub t ht)

theorem Pairs.split {newId : String} {segments : List TrajectorySegment} (h : Pairs R repo)
    (hmove : ∀ s ∈ segments, ∀ t ∈ segments, R s t → R (s.moveTo newId) (t.moveTo newId))
    (hne : ∀ s t, ¬SameIdentity s t → R s t)
    (hnodup : segments.Nodup) (hstored : ∀ s ∈ segments, Stored repo s)
    (hfresh : ∀ s, Stored repo s → s.identityId ≠ newId) :
    Pairs R (moveSegments newId repo segments) := by
  intro a b ha hb
  rw [stored_moveSegments segments hnodup hstored] at ha hb
  rcases ha with ⟨s, hs, rfl⟩ | ⟨ha, -⟩ <;> rcases hb with ⟨t, ht, rfl⟩ | ⟨hb, -⟩
  · exact hmove s hs t ht (h s t (hstored s hs) (hstored t ht))
  · exact hne _ _ fun hid => hfresh b hb hid.2.symm
  · exact hne _ _ fun hid => hfresh a ha hid.2
  · exact h a b ha hb

end Pairs

theorem CamerasApart.moveTo {newId : String} (h : CamerasApart s t) (hid : SameIdentity s t) :
    CamerasApart (s.moveTo newId) (t.moveTo newId) := fun _ hne => h hid hne

theorem CallApart.moveTo {newId : String} {call : List String} (h : CallApart call s t)
    (hid : SameIdentity s t) : CallApart call (s.moveTo newId) (t.moveTo newId) :=
  fun _ hne => h hid fun he => hne (congrArg (TrajectorySegment.moveTo · newId) he)

/-! ## A track collides with no segment of the identity it is registered on -/

theorem probe_overlapping {cameraId : String} {items : List TrajectorySegment}
    {previous following : Option ReachabilityObservation}
    (h : (Repository.probe cameraId window items previous following).overlapping = false) :
    ∀ item ∈ items, item.cameraId ≠ "" → item.cameraId ≠ cameraId →
      windowsOverlap item.window window = false := by
  intro item hitem hcamera hother
  refine Bool.eq_false_iff.2 fun hoverlap => ?_
  simp [probe_overlapping_iff.2 ⟨item, hitem, hcamera, hother, hoverlap⟩] at h

/-- Every segment registered by the call under way has claimed its window. -/
def Claims (request : IngestRequest) (st : Ingest) : Prop :=
  ∀ s, Stored st.repo s → s.segmentId ∈ st.registered → s.scope = request.scope ∧
    s.window ∈ (st.claimed.get? s.identityId).getD []

theorem clear_of_accepts {identityId : String} (hclaims : Claims request st)
    (hcamera : request.cameraId ≠ "") (htime : request.recordingStartedAt.isSome)
    (h : accepts config request st window identityId = true) (hs : Stored st.repo s)
    (hscope : s.scope = request.scope) (hid : s.identityId = identityId) (hplaced : s.cameraId ≠ "")
    (hconflict : s.cameraId ≠ request.cameraId ∨ s.segmentId ∈ st.registered) :
    windowsOverlap s.window window = false := by
  unfold accepts at h
  split at h
  · cases h
  simp only [Bool.and_eq_true, Bool.or_eq_true, Bool.not_eq_true', decide_eq_true_eq] at h
  obtain ⟨⟨-, hfree⟩, hreach⟩ := h
  rcases hconflict with hother | hregistered
  · have hallows := hreach.resolve_left fun hor =>
      hor.elim hcamera fun hnone => by simp [Option.isSome_iff_ne_none.1 htime] at hnone
    have hprobe : (st.repo.probeReachability request.scope identityId request.cameraId
        window).overlapping = false := by
      by_contra hne
      unfold transitionAllows at hallows
      simp [if_pos (Bool.not_eq_false _ ▸ hne)] at hallows
    exact probe_overlapping hprobe s (mem_segmentsOf.2 ⟨hs, hscope, hid⟩) hplaced hother
  · have hmem := (hclaims s hs hregistered).2
    rw [hid] at hmem
    have hno := List.any_eq_false.1 hfree s.window hmem
    rw [windowsOverlap_comm]
    exact Bool.eq_false_iff.2 hno

/-! ## The invariant -/

/-- What the calls keep. -/
structure Placed (uuid : UuidSource) (s : State) : Prop where
  issued : Issued uuid s.issued s.repo
  camera : ∀ a, Stored s.repo a → a.cameraId ≠ ""
  drawn : ∀ call ∈ s.calls, ∀ id ∈ call, ∃ m < s.issued, id = uuid.segmentId m
  exclusive : Exclusive s

/-- The state of a loop that is under way, after the calls `calls`. -/
def Ingest.state (st : Ingest) (calls : List (List String)) : State :=
  ⟨st.repo, st.issued, calls ++ [st.registered]⟩

section

variable (h : Placed uuid (st.state calls)) (hclaims : Claims request st)
    (hcamera : request.cameraId ≠ "") (htime : request.recordingStartedAt.isSome)
include h hclaims hcamera htime

variable {identity : LongTermIdentity}

theorem clear_of_chosen (hc : Chosen config uuid request st window identity) (hs : Stored st.repo s)
    (hid : SameIdentity s (newSegment uuid request window st.issued identity.identityId))
    (hconflict : s.cameraId ≠ request.cameraId ∨ s.segmentId ∈ st.registered) :
    Apart s (newSegment uuid request window st.issued identity.identityId) := by
  rcases hc with rfl | ⟨-, haccepts⟩
  · exact absurd hid.2 (h.issued.owner_fresh hs le_rfl)
  · exact apart_of_not_overlap (clear_of_accepts hclaims hcamera htime haccepts hs hid.1 hid.2
      (h.camera s hs) hconflict)

theorem exclusive_registerOn (hc : Chosen config uuid request st window identity) :
    Exclusive ((registerOn uuid request st window identity).state calls) where
  cameras := by
    refine Pairs.putSegment (fun _ _ => CamerasApart.symm) h.exclusive.cameras
      (fun _ hne => absurd rfl hne) fun s hs hid hne => ?_
    exact clear_of_chosen h hclaims hcamera htime hc hs hid (.inl hne)
  calls := by
    have hnew : ∀ s, Stored st.repo s → s.segmentId ≠ uuid.segmentId (st.issued + 1) :=
      fun s hs => h.issued.segment_fresh hs (Nat.le_succ _)
    intro call hcall
    rcases List.mem_append.1 hcall with hold | hlast
    · -- an earlier call did not register the new segment
      have hmem : call ∈ (st.state calls).calls := List.mem_append_left _ hold
      have hno : uuid.segmentId (st.issued + 1) ∉ call := fun hin => by
        obtain ⟨m, hm, he⟩ := h.drawn call hmem _ hin
        have heq := uuid.segmentId_inj he
        have hlt : m < st.issued := hm
        omega
      exact Pairs.putSegment (fun _ _ => CallApart.symm) (h.exclusive.calls call hmem)
        (fun _ hne => absurd rfl hne) fun s _ _ _ _ hin => absurd hin hno
    · rw [List.mem_singleton] at hlast
      subst hlast
      have hmem : st.registered ∈ (st.state calls).calls := by simp [Ingest.state]
      have hreg : ∀ s, Stored st.repo s →
          s.segmentId ∈ (registerOn uuid request st window identity).registered →
            s.segmentId ∈ st.registered := fun s hs hin => by
        rcases List.mem_append.1 hin with hin | hin
        · exact hin
        · exact absurd (List.mem_singleton.1 hin) (hnew s hs)
      refine Pairs.putSegment (fun _ _ => CallApart.symm) (fun s t hs ht hid hne his hit => ?_)
        (fun _ hne => absurd rfl hne) fun s hs hid _ his _ => ?_
      · exact h.exclusive.calls _ hmem s t hs ht hid hne (hreg s hs his) (hreg t ht hit)
      · exact clear_of_chosen h hclaims hcamera htime hc hs hid (.inr (hreg s hs his))

theorem placed_registerOn (hc : Chosen config uuid request st window identity) :
    Placed uuid ((registerOn uuid request st window identity).state calls) where
  issued := issued_registerOn h.issued hc
  camera := by
    intro a ha
    rcases stored_putSegment.1 ha with rfl | ⟨-, ha⟩
    · exact hcamera
    · exact h.camera a ha
  drawn := by
    intro call hcall id hin
    have hle : st.issued ≤ st.issued + 2 := by omega
    rcases List.mem_append.1 hcall with hold | hlast
    · obtain ⟨m, hm, he⟩ := h.drawn call (List.mem_append_left _ hold) id hin
      exact ⟨m, lt_of_lt_of_le hm hle, he⟩
    · rw [List.mem_singleton] at hlast
      subst hlast
      rcases List.mem_append.1 hin with hin | hin
      · obtain ⟨m, hm, he⟩ := h.drawn st.registered (by simp [Ingest.state]) id hin
        exact ⟨m, lt_of_lt_of_le hm hle, he⟩
      · exact ⟨st.issued + 1, Nat.lt_succ_self _, List.mem_singleton.1 hin⟩
  exclusive := exclusive_registerOn h hclaims hcamera htime hc

end

theorem claims_registerOn {identity : LongTermIdentity}
    (hissued : Issued uuid st.issued st.repo) (hclaims : Claims request st) :
    Claims request (registerOn uuid request st window identity) := by
  intro s hs hin
  unfold registerOn Ingest.add
  rw [Dict.get?_insert]
  rcases stored_putSegment.1 hs with rfl | ⟨-, hs⟩
  · refine ⟨rfl, ?_⟩
    rw [if_pos (by rfl)]
    exact List.mem_append_right _ (List.mem_singleton.2 rfl)
  · have hold : s.segmentId ∈ st.registered := by
      rcases List.mem_append.1 hin with hin | hin
      · exact hin
      · exact absurd (List.mem_singleton.1 hin) (hissued.segment_fresh hs (Nat.le_succ _))
    obtain ⟨hscope, hwindow⟩ := hclaims s hs hold
    refine ⟨hscope, ?_⟩
    split
    · rename_i hid
      rw [← hid]
      exact List.mem_append_left _ hwindow
    · exact hwindow

/-! ## Runs -/

/-- The calls that do not join identities by hand, every ingest with a camera and an absolute
time. -/
def Located : Act → Prop
  | .ingest request => request.cameraId ≠ "" ∧ request.recordingStartedAt.isSome
  | .merge _ _ => False
  | .split _ _ _ => True
  | .update _ _ _ => True
  | .delete _ _ => True

theorem Placed.mono {s s' : State} (h : Placed uuid s) (hissued : Issued uuid s'.issued s'.repo)
    (hcalls : s'.calls = s.calls) (hle : s.issued ≤ s'.issued)
    (hsub : ∀ a, Stored s'.repo a → Stored s.repo a) : Placed uuid s' where
  issued := hissued
  camera a ha := h.camera a (hsub a ha)
  drawn call hcall id hin := by
    obtain ⟨m, _, he⟩ := h.drawn call (hcalls ▸ hcall) id hin
    exact ⟨m, by omega, he⟩
  exclusive :=
    { cameras := h.exclusive.cameras.mono hsub
      calls := fun call hcall => (h.exclusive.calls call (hcalls ▸ hcall)).mono hsub }

theorem placed_ingest {s : State} (h : Placed uuid s) (hcamera : request.cameraId ≠ "")
    (htime : request.recordingStartedAt.isSome) :
    Placed uuid (apply config uuid s (.ingest request)) := by
  have hstart : Placed uuid (Ingest.state ⟨s.repo, s.issued, .empty, []⟩ s.calls) :=
    { issued := h.issued
      camera := h.camera
      drawn := fun call hcall id hin => by
        rcases List.mem_append.1 hcall with hcall | hcall
        · exact h.drawn call hcall id hin
        · simp [List.mem_singleton.1 hcall] at hin
      exclusive :=
        { cameras := h.exclusive.cameras
          calls := fun call hcall => by
            rcases List.mem_append.1 hcall with hcall | hcall
            · exact h.exclusive.calls call hcall
            · intro a b _ _ _ _ hin
              simp [List.mem_singleton.1 hcall] at hin } }
  refine (reached_foldlM (I := fun st : Ingest => Placed uuid (st.state s.calls) ∧
    Claims request st) (fun st track hI => ?_) ⟨hstart, fun _ _ hin => ?_⟩ request.tracks).1
  · rcases ingestTrack_cases config uuid request st track with he | ⟨_, _, hc, he⟩
    · rwa [he]
    · rw [he]
      exact ⟨placed_registerOn hI.1 hI.2 hcamera htime hc, claims_registerOn hI.1.issued hI.2⟩
  · simp at hin

theorem placed_split {s : State} (h : Placed uuid s) (r : SplitIdentityRequest) :
    Placed uuid (apply config uuid s (.split scope id r)) := by
  have hissued : Issued uuid (s.issued + 1) (apply config uuid s (.split scope id r)).repo :=
    issued_splitIdentity r h.issued
  rcases splitIdentity_cases (uuid.identityId s.issued) s.repo scope id r with
    he | ⟨identity, -, -, -, he⟩
  · exact h.mono hissued rfl (Nat.le_succ _) fun a ha => he ▸ ha
  · have hrepo : (apply config uuid s (.split scope id r)).repo =
        splitSegments (uuid.identityId s.issued) s.repo identity r (listing s.repo scope id) := he
    have hmoving : ∀ a ∈ r.moving (listing s.repo scope id), a ∈ s.repo.segmentsOf scope id :=
      fun a ha => mem_listing (List.mem_of_mem_filter ha)
    have hstored : ∀ a ∈ r.moving (listing s.repo scope id), Stored s.repo a := fun a ha =>
      (mem_segmentsOf.1 (hmoving a ha)).1
    have hsame : ∀ a ∈ r.moving (listing s.repo scope id),
        ∀ b ∈ r.moving (listing s.repo scope id), SameIdentity a b := fun a ha b hb => by
      obtain ⟨-, hascope, haid⟩ := mem_segmentsOf.1 (hmoving a ha)
      obtain ⟨-, hbscope, hbid⟩ := mem_segmentsOf.1 (hmoving b hb)
      exact ⟨hascope.trans hbscope.symm, haid.trans hbid.symm⟩
    have hnodup : (r.moving (listing s.repo scope id)).Nodup := nodup_listing.filter _
    have hfresh : ∀ a, Stored s.repo a → a.identityId ≠ uuid.identityId s.issued := fun a ha =>
      h.issued.owner_fresh ha le_rfl
    refine ⟨hissued, fun a ha => ?_, fun call hcall id hin => ?_, ?_, fun call hcall => ?_⟩
    · rw [hrepo] at ha
      rcases (stored_moveSegments _ hnodup hstored).1 ha with ⟨b, hb, rfl⟩ | ⟨ha, -⟩
      · exact h.camera b (hstored b hb)
      · exact h.camera a ha
    · obtain ⟨m, hm, he⟩ := h.drawn call hcall id hin
      exact ⟨m, hm.trans (Nat.lt_succ_self _), he⟩
    · rw [hrepo]
      exact Pairs.split h.exclusive.cameras
        (fun a ha b hb hab => hab.moveTo (hsame a ha b hb))
        (fun _ _ hne hid => absurd hid hne) hnodup hstored hfresh
    · rw [hrepo]
      exact Pairs.split (h.exclusive.calls call hcall)
        (fun a ha b hb hab => hab.moveTo (hsame a ha b hb))
        (fun _ _ hne hid => absurd hid hne) hnodup hstored hfresh

theorem placed_apply {s : State} (h : Placed uuid s) {a : Act} (ha : Located a) :
    Placed uuid (apply config uuid s a) := by
  have hissued : Issued uuid (apply config uuid s a).issued (apply config uuid s a).repo :=
    issued_apply h.issued a
  cases a with
  | ingest => exact placed_ingest h ha.1 ha.2
  | merge => exact ha.elim
  | split _ _ request => exact placed_split h request
  | update scope id request =>
    refine h.mono hissued rfl le_rfl fun a ha => ?_
    change Stored (reached (updateIdentity s.repo scope id request)) a at ha
    rcases updateIdentity_cases s.repo scope id request with he | ⟨i, j, -, -, he⟩
    · rwa [he] at ha
    · rwa [he, stored_putIdentity] at ha
  | delete scope id =>
    refine h.mono hissued rfl le_rfl fun a ha => ?_
    change Stored (reached (deleteIdentity s.repo scope id)) a at ha
    rcases deleteIdentity_cases s.repo scope id with he | he
    · rwa [he] at ha
    · rw [he, stored_deleteIdentity, stored_deleteSegmentsForIdentity] at ha
      exact ha.1

theorem placed_initial : Placed uuid .initial where
  issued := .initial uuid
  camera _ h := by cases h
  drawn _ h := by cases h
  exclusive :=
    { cameras := fun _ _ h => by cases h
      calls := fun _ h => by cases h }

theorem placed_foldl {s : State} (h : Placed uuid s) {acts : List Act}
    (hacts : ∀ a ∈ acts, Located a) : Placed uuid (acts.foldl (apply config uuid) s) := by
  induction acts generalizing s with
  | nil => exact h
  | cons a _ ih =>
    rw [List.forall_mem_cons] at hacts
    exact ih (placed_apply h hacts.1) hacts.2

/-- **An identity is never in two places at once**, whatever the searches find, the transition
tables hold and the order in which the tracks come. -/
theorem never_in_two_places (config : Config) (uuid : UuidSource) (acts : List Act)
    (hacts : ∀ a ∈ acts, Located a) : Exclusive (run config uuid acts) :=
  (placed_foldl placed_initial hacts).exclusive

/-- Somebody is seen at the gate, then in the hall and, a moment later, again in the hall and in the
yard; then the first segment is split off. -/
def threeCameras : List Act :=
  [seenAt "gate" 0 [trackOf 0 1000 []],
    seenAt "hall" 10 [trackOf 0 1000 ["lti_"], trackOf 500 1500 ["lti_"]],
    seenAt "yard" 11 [trackOf 0 1000 ["lti_"]],
    .split portal "lti_" ⟨["lts_0"], "", by decide⟩]

/-- Neither the second track in the hall nor the one in the yard is put on the identity that the
search finds. -/
theorem threeCameras_apart :
    (run defaultConfig zeros threeCameras).repo.segments.values.map
        TrajectorySegment.identityId = ["lti_00000000", "lti_", "lti_0000", "lti_000000"] ∧
      Exclusive (run defaultConfig zeros threeCameras) :=
  ⟨by decide +kernel,
    never_in_two_places defaultConfig zeros threeCameras (by simp [threeCameras, seenAt, Located])⟩

end Scenara.Trajectory
