import Scenara.Trajectory.Records

/-!
# Aggregates and the segments they sum up

`Summarises identity segments`: the count, the camera ids and the time span of the identity are
those of the segments. Both ways the service keeps aggregates do so: `_apply_segment` when a segment
comes (`Summarises.applySegment`), `_recompute` from any listing that is not empty
(`summarises_recompute`).

The last sections say, up to order, which segments the identities have after a segment is added
(`segmentsOf_add_self`, `segmentsOf_add_other`) and after a move (`segmentsOf_move_target`,
`segmentsOf_move_source`, `segmentsOf_move_other`).
-/

namespace Scenara.Trajectory

open Scenara.Core

variable {repo : Repository} {i j : LongTermIdentity} {s t : TrajectorySegment}
  {segments : List TrajectorySegment} {scope : Scope} {id : String}

/-- The aggregates of the identity are those of the segments. -/
structure Summarises (i : LongTermIdentity) (segments : List TrajectorySegment) : Prop where
  count : i.segmentCount = segments.length
  cameras : ∀ c, c ∈ i.cameraIds ↔ c ≠ "" ∧ ∃ s ∈ segments, s.cameraId = c
  first : IsLeast {x | ∃ s ∈ segments, s.firstSeenAt = x} i.firstSeenAt
  last : IsGreatest {x | ∃ s ∈ segments, s.lastSeenAt = x} i.lastSeenAt

namespace Summarises

theorem perm {segments' : List TrajectorySegment} (h : Summarises i segments)
    (hperm : segments.Perm segments') : Summarises i segments' where
  count := h.count.trans hperm.length_eq
  cameras c := by simpa only [hperm.mem_iff] using h.cameras c
  first := by simpa only [hperm.mem_iff] using h.first
  last := by simpa only [hperm.mem_iff] using h.last

theorem ne_nil (h : Summarises i segments) : segments ≠ [] := by
  obtain ⟨⟨s, hs, -⟩, -⟩ := h.first
  exact List.ne_nil_of_mem hs

theorem congr (h : Summarises i segments) (hcount : j.segmentCount = i.segmentCount)
    (hcameras : j.cameraIds = i.cameraIds) (hfirst : j.firstSeenAt = i.firstSeenAt)
    (hlast : j.lastSeenAt = i.lastSeenAt) : Summarises j segments where
  count := hcount.trans h.count
  cameras c := hcameras ▸ h.cameras c
  first := hfirst ▸ h.first
  last := hlast ▸ h.last

end Summarises

/-! ## Adding a segment -/

theorem mem_addCamera {cameraIds : List String} {cameraId c : String} :
    c ∈ addCamera cameraIds cameraId ↔ c ∈ cameraIds ∨ c ≠ "" ∧ c = cameraId := by
  unfold addCamera
  by_cases h : cameraId ≠ "" ∧ cameraId ∉ cameraIds
  · rw [if_pos h, List.mem_append, List.mem_singleton]
    constructor
    · rintro (hc | rfl)
      · exact .inl hc
      · exact .inr ⟨h.1, rfl⟩
    · rintro (hc | ⟨-, rfl⟩)
      · exact .inl hc
      · exact .inr rfl
  · rw [if_neg h]
    refine ⟨.inl, ?_⟩
    rintro (hc | ⟨hne, rfl⟩)
    · exact hc
    · by_contra hno
      exact h ⟨hne, hno⟩

theorem mem_foldl_addCamera (ids : List String) {cameraIds : List String} {c : String} :
    c ∈ ids.foldl addCamera cameraIds ↔ c ∈ cameraIds ∨ c ≠ "" ∧ c ∈ ids := by
  induction ids generalizing cameraIds with
  | nil => simp
  | cons _ _ ih =>
    rw [List.foldl_cons, ih, mem_addCamera, List.mem_cons]
    tauto

theorem setOf_mem_cons (f : TrajectorySegment → ℚ) (s : TrajectorySegment)
    (segments : List TrajectorySegment) :
    {x | ∃ t ∈ s :: segments, f t = x} = insert (f s) {x | ∃ t ∈ segments, f t = x} := by
  ext x
  simp [eq_comm]

theorem Summarises.applySegment (h : Summarises i segments) (s : TrajectorySegment) :
    Summarises (applySegment i s) (s :: segments) where
  count := by rw [List.length_cons, ← h.count]; rfl
  cameras c := by
    have hold := h.cameras c
    unfold Trajectory.applySegment
    simp only [mem_addCamera, hold, List.mem_cons, exists_eq_or_imp]
    rw [and_or_left, or_comm, eq_comm]
  first := by
    rw [setOf_mem_cons]
    simpa only [Trajectory.applySegment, min_comm] using h.first.insert s.firstSeenAt
  last := by
    rw [setOf_mem_cons]
    simpa only [Trajectory.applySegment, max_comm] using h.last.insert s.lastSeenAt

theorem summarises_first (uuid : UuidSource) (request : IngestRequest) (window : Window) (n : Nat) :
    Summarises (applySegment (newIdentity uuid request window n)
        (newSegment uuid request window n (newIdentity uuid request window n).identityId))
      [newSegment uuid request window n (newIdentity uuid request window n).identityId] where
  count := rfl
  cameras c := by
    unfold applySegment newIdentity newSegment
    simp only [mem_addCamera, List.mem_singleton, exists_eq_left]
    by_cases hc : request.cameraId = ""
    · simp [hc]
    · rw [if_pos hc, List.mem_singleton]
      constructor
      · rintro (rfl | ⟨hne, he⟩)
        · exact ⟨hc, rfl⟩
        · exact ⟨hne, he.symm⟩
      · rintro ⟨_, he⟩
        exact .inl he.symm
  first := by simp [applySegment, newIdentity, newSegment]
  last := by simp [applySegment, newIdentity, newSegment]

/-! ## Recomputing -/

theorem byLastSeen_perm (segments : List TrajectorySegment) :
    (byLastSeen segments).Perm segments :=
  List.perm_insertionSort _ _

theorem getLast?_byLastSeen (h : (byLastSeen segments).getLast? = some t) :
    t ∈ segments ∧ ∀ s ∈ segments, s.lastSeenAt ≤ t.lastSeenAt := by
  obtain ⟨ys, hys⟩ := List.getLast?_eq_some_iff.1 h
  have hsorted : (byLastSeen segments).Pairwise fun a b => a.lastSeenAt ≤ b.lastSeenAt := by
    exact List.pairwise_insertionSort _ _
  rw [hys, List.pairwise_append] at hsorted
  have hmem : ∀ s, s ∈ segments ↔ s ∈ ys ∨ s = t := fun s => by
    rw [← (byLastSeen_perm segments).mem_iff, hys, List.mem_append, List.mem_singleton]
  refine ⟨(hmem t).2 (.inr rfl), fun s hs => ?_⟩
  rcases (hmem s).1 hs with hs | rfl
  · exact hsorted.2.2 s hs t (List.mem_singleton.2 rfl)
  · exact le_rfl

theorem summarises_recompute (i : LongTermIdentity) (h : segments ≠ []) :
    Summarises (recompute i segments) segments := by
  have hperm := byLastSeen_perm segments
  have hne : byLastSeen segments ≠ [] := fun hnil => by
    rw [hnil] at hperm
    exact h hperm.symm.eq_nil
  obtain ⟨last, hlast⟩ := Option.ne_none_iff_exists'.1 (List.getLast?_eq_none_iff.not.2 hne)
  obtain ⟨first, hfirst⟩ : ∃ first, ((byLastSeen segments).map
      TrajectorySegment.firstSeenAt).min? = some first := by
    refine Option.ne_none_iff_exists'.1 fun hnone => hne ?_
    simpa using hnone
  obtain ⟨hmem, hleast⟩ := List.min?_eq_some_iff.1 hfirst
  obtain ⟨hlastMem, hgreatest⟩ := getLast?_byLastSeen hlast
  have heq : recompute i segments =
      { i with
        segmentCount := (byLastSeen segments).length
        cameraIds := ((byLastSeen segments).map TrajectorySegment.cameraId).foldl addCamera []
        firstSeenAt := first
        lastSeenAt := last.lastSeenAt
        lastCameraId := last.cameraId } := by
    unfold recompute
    simp [hfirst, hlast]
  rw [heq]
  refine ⟨hperm.length_eq, fun c => ?_, ⟨?_, ?_⟩, ⟨last, hlastMem, rfl⟩, ?_⟩
  · simp [mem_foldl_addCamera, hperm.mem_iff]
  · obtain ⟨s, hs, he⟩ := List.mem_map.1 hmem
    exact ⟨s, hperm.mem_iff.1 hs, he⟩
  · rintro x ⟨s, hs, rfl⟩
    exact hleast _ (List.mem_map_of_mem (hperm.mem_iff.2 hs))
  · rintro x ⟨s, hs, rfl⟩
    exact hgreatest s hs

/-! ## The segments of the identities after a write -/

theorem segmentsOf_add_self (hfresh : ∀ s, Stored repo s → s.key ≠ t.key) :
    (t :: repo.segmentsOf t.scope t.identityId).Perm
      ((repo.putSegment t).segmentsOf t.scope t.identityId) := by
  refine perm_segmentsOf (List.nodup_cons.2 ⟨fun hm => ?_, nodup_segmentsOf⟩) fun s => ?_
  · exact hfresh t (mem_segmentsOf.1 hm).1 rfl
  · rw [List.mem_cons, mem_segmentsOf, stored_putSegment]
    constructor
    · rintro (rfl | ⟨hs, hscope, hid⟩)
      · exact ⟨.inl rfl, rfl, rfl⟩
      · exact ⟨.inr ⟨hfresh s hs, hs⟩, hscope, hid⟩
    · rintro ⟨rfl | ⟨-, hs⟩, hscope, hid⟩
      · exact .inl rfl
      · exact .inr ⟨hs, hscope, hid⟩

theorem segmentsOf_add_other (hfresh : ∀ s, Stored repo s → s.key ≠ t.key)
    (hne : ¬(scope = t.scope ∧ id = t.identityId)) :
    (repo.segmentsOf scope id).Perm ((repo.putSegment t).segmentsOf scope id) := by
  refine segmentsOf_perm fun s hscope hid => ?_
  rw [stored_putSegment]
  constructor
  · exact fun hs => .inr ⟨hfresh s hs, hs⟩
  · rintro (rfl | ⟨-, hs⟩)
    · exact absurd ⟨hscope.symm, hid.symm⟩ hne
    · exact hs

section Move

variable {source target : String} {moved : List TrajectorySegment}

theorem move_stored (hsub : ∀ s ∈ moved, s ∈ repo.segmentsOf scope source) :
    ∀ s ∈ moved, Stored repo s := fun s hs => (mem_segmentsOf.1 (hsub s hs)).1

section

variable (hnodup : moved.Nodup) (hsub : ∀ s ∈ moved, s ∈ repo.segmentsOf scope source)
include hnodup hsub

theorem segmentsOf_move_target (hne : source ≠ target) :
    (moved.map (·.moveTo target) ++ repo.segmentsOf scope target).Perm
      ((moveSegments target repo moved).segmentsOf scope target) := by
  have hstored := move_stored hsub
  refine perm_segmentsOf ?_ fun s => ?_
  · refine List.nodup_append.2 ⟨hnodup.map_on fun a ha b hb hab => ?_, nodup_segmentsOf, ?_⟩
    · have hkey : a.key = b.key := by simpa using congrArg TrajectorySegment.key hab
      exact (hstored a ha).key_inj (hstored b hb) hkey
    · rintro a ha b hb rfl
      obtain ⟨t, ht, rfl⟩ := List.mem_map.1 ha
      obtain ⟨hb, -⟩ := mem_segmentsOf.1 hb
      have heq : t.moveTo target = t := hb.key_inj (hstored t ht) key_moveTo
      have htarget : t.identityId = target := congrArg TrajectorySegment.identityId heq.symm
      exact hne ((mem_segmentsOf.1 (hsub t ht)).2.2.symm.trans htarget)
  · rw [List.mem_append, List.mem_map, stored_moveSegments moved hnodup hstored]
    constructor
    · rintro (⟨t, ht, rfl⟩ | hs)
      · exact ⟨.inl ⟨t, ht, rfl⟩, (mem_segmentsOf.1 (hsub t ht)).2.1, rfl⟩
      · obtain ⟨hs, hscope, hid⟩ := mem_segmentsOf.1 hs
        refine ⟨.inr ⟨hs, fun hm => hne ?_⟩, hscope, hid⟩
        exact (mem_segmentsOf.1 (hsub s hm)).2.2.symm.trans hid
    · rintro ⟨⟨t, ht, rfl⟩ | ⟨hs, -⟩, hscope, hid⟩
      · exact .inl ⟨t, ht, rfl⟩
      · exact .inr (mem_segmentsOf.2 ⟨hs, hscope, hid⟩)

theorem segmentsOf_move_source (hne : source ≠ target) :
    ((repo.segmentsOf scope source).filter (· ∉ moved)).Perm
      ((moveSegments target repo moved).segmentsOf scope source) := by
  refine perm_segmentsOf (nodup_segmentsOf.filter _) fun s => ?_
  rw [List.mem_filter, mem_segmentsOf, stored_moveSegments moved hnodup (move_stored hsub),
    decide_eq_true_eq]
  constructor
  · rintro ⟨⟨hs, hscope, hid⟩, hm⟩
    exact ⟨.inr ⟨hs, hm⟩, hscope, hid⟩
  · rintro ⟨⟨t, -, rfl⟩ | ⟨hs, hm⟩, hscope, hid⟩
    · exact absurd hid.symm hne
    · exact ⟨⟨hs, hscope, hid⟩, hm⟩

theorem segmentsOf_move_other {scope' : Scope}
    (hsource : ¬(scope' = scope ∧ id = source)) (htarget : ¬(scope' = scope ∧ id = target)) :
    (repo.segmentsOf scope' id).Perm ((moveSegments target repo moved).segmentsOf scope' id) := by
  refine segmentsOf_perm fun s hscope hid => ?_
  rw [stored_moveSegments moved hnodup (move_stored hsub)]
  constructor
  · intro hs
    refine .inr ⟨hs, fun hm => hsource ?_⟩
    obtain ⟨-, hmscope, hmid⟩ := mem_segmentsOf.1 (hsub s hm)
    exact ⟨hscope.symm.trans hmscope, hid.symm.trans hmid⟩
  · rintro (⟨t, ht, rfl⟩ | ⟨hs, -⟩)
    · exact absurd ⟨hscope.symm.trans (mem_segmentsOf.1 (hsub t ht)).2.1, hid.symm⟩ htarget
    · exact hs

end

end Move

end Scenara.Trajectory
