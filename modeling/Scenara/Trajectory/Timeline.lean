import Scenara.Core.Visits
import Scenara.Trajectory.Probe

/-!
# The travel-time check and the whole timeline

`_transition_allows` looks at the nearest segment before the window and the nearest after it. It is
compared with what it is for: that the segments of the identity, sorted and grouped into visits,
stay possible with the new one (`Consistent`).
-/

namespace Scenara.Trajectory

open Scenara.Core

variable {config : Config} {transitions : List CameraTransition} {items : List TrajectorySegment}
  {new s : TrajectorySegment}

/-! ## Timelines -/

/-- `bounds` of `_transition_allows`. -/
def boundsOf (transitions : List CameraTransition) : Dict (String × String) (ℚ × Option ℚ) :=
  transitions.foldl (fun bounds t =>
    bounds.insert (t.fromCameraId, t.toCameraId) (t.minSeconds, t.maxSeconds)) .empty

/-- `_gap_allows` for leaving `p` at `last` and reaching `n` at `first`. -/
def Allowed (config : Config) (transitions : List CameraTransition) (p n : String)
    (last first : ℚ) : Prop :=
  gapAllows config (boundsOf transitions) (p, n) (first - last) = true
  deriving Decidable

/-- The segment as a stay at its camera. -/
def TrajectorySegment.stay (s : TrajectorySegment) : Stay String ℚ :=
  ⟨s.cameraId, s.firstSeenAt, s.lastSeenAt⟩

/-- No two cameras at a time, and from each visit to the next a gap that the table allows. -/
abbrev Consistent (config : Config) (transitions : List CameraTransition)
    (segments : List TrajectorySegment) : Prop :=
  Stay.Consistent (Allowed config transitions) (segments.map (·.stay))

/-! ## The check -/

/-- The segments of a timeline: each has a camera and its times in order. -/
structure Timed (items : List TrajectorySegment) : Prop where
  camera : ∀ s ∈ items, s.cameraId ≠ ""
  ordered : ∀ s ∈ items, s.firstSeenAt ≤ s.lastSeenAt

section

variable (h : Timed items)
include h

theorem Timed.stays : ∀ s ∈ items.map (·.stay), s.first ≤ s.last :=
  List.forall_mem_map.2 h.ordered

theorem Timed.before_iff {window : Window} :
    Before window items s ↔ s ∈ items ∧ s.lastSeenAt < window.first :=
  and_congr_right fun hs => and_iff_right (h.camera s hs)

theorem Timed.after_iff {window : Window} :
    After window items s ↔ s ∈ items ∧ window.last < s.firstSeenAt :=
  and_congr_right fun hs => and_iff_right (h.camera s hs)

theorem comesFrom_iff {previous : Option ReachabilityObservation}
    (hapart : Stay.Apart (items.map (·.stay)))
    (hprevious : Latest (Before new.window items) previous) :
    (previous.all fun p => p.cameraId = new.cameraId || gapAllows config (boundsOf transitions)
        (p.cameraId, new.cameraId) (new.window.first - p.lastSeenAt)) = true ↔
      Stay.ComesFrom (Allowed config transitions) (items.map (·.stay)) new.stay := by
  cases previous with
  | none =>
    refine iff_of_true rfl fun s hs => ?_
    obtain ⟨t, ht, rfl⟩ := List.mem_map.1 hs.left
    exact (hprevious t (h.before_iff.2 ⟨ht, hs.before⟩)).elim
  | some p =>
    obtain ⟨t, ht, rfl, hmax⟩ := hprevious
    obtain ⟨htitems, htlast⟩ := h.before_iff.1 ht
    have hprecedes : Stay.Precedes (items.map (·.stay)) t.stay new.stay := by
      refine ⟨List.mem_map_of_mem htitems, htlast, List.forall_mem_map.2 fun u hu hlt => ?_⟩
      exact neg_le_neg_iff.1 (hmax u (h.before_iff.2 ⟨hu, hlt⟩))
    have hall : (Option.all (fun p : ReachabilityObservation => p.cameraId = new.cameraId ||
        gapAllows config (boundsOf transitions) (p.cameraId, new.cameraId)
          (new.window.first - p.lastSeenAt)) (some t.observation)) = true ↔
        (t.stay.place ≠ new.stay.place → Allowed config transitions t.stay.place new.stay.place
          t.stay.last new.stay.first) := by
      rw [Option.all_some, Bool.or_eq_true, decide_eq_true_eq, or_iff_not_imp_left]
      rfl
    rw [hall]
    constructor
    · intro hallowed s hs hplace
      obtain ⟨hsplace, hslast⟩ := hs.place_eq hprecedes hapart h.stays
      rw [hsplace, hslast]
      exact hallowed (hsplace ▸ hplace)
    · exact fun hcomes hplace => hcomes t.stay hprecedes hplace

theorem goesTo_iff {following : Option ReachabilityObservation}
    (hapart : Stay.Apart (items.map (·.stay)))
    (hfollowing : Earliest (After new.window items) following) :
    (following.all fun f => f.cameraId = new.cameraId || gapAllows config (boundsOf transitions)
        (new.cameraId, f.cameraId) (f.firstSeenAt - new.window.last)) = true ↔
      Stay.GoesTo (Allowed config transitions) (items.map (·.stay)) new.stay := by
  cases following with
  | none =>
    refine iff_of_true rfl fun s hs => ?_
    obtain ⟨t, ht, rfl⟩ := List.mem_map.1 hs.right
    exact (hfollowing t (h.after_iff.2 ⟨ht, hs.before⟩)).elim
  | some f =>
    obtain ⟨t, ht, rfl, hmin⟩ := hfollowing
    obtain ⟨htitems, htfirst⟩ := h.after_iff.1 ht
    have hsucceeds : Stay.Succeeds (items.map (·.stay)) new.stay t.stay := by
      refine ⟨List.mem_map_of_mem htitems, htfirst, List.forall_mem_map.2 fun u hu hlt => ?_⟩
      exact hmin u (h.after_iff.2 ⟨hu, hlt⟩)
    have hall : (Option.all (fun f : ReachabilityObservation => f.cameraId = new.cameraId ||
        gapAllows config (boundsOf transitions) (new.cameraId, f.cameraId)
          (f.firstSeenAt - new.window.last)) (some t.observation)) = true ↔
        (new.stay.place ≠ t.stay.place → Allowed config transitions new.stay.place t.stay.place
          new.stay.last t.stay.first) := by
      rw [Option.all_some, Bool.or_eq_true, decide_eq_true_eq, or_iff_not_imp_left, ← ne_eq,
        ne_comm]
      rfl
    rw [hall]
    constructor
    · intro hallowed s hs hplace
      obtain ⟨hsplace, hsfirst⟩ := hs.place_eq hsucceeds hapart h.stays
      rw [hsplace, hsfirst]
      exact hallowed (hsplace ▸ hplace)
    · exact fun hgoes hplace => hgoes t.stay hsucceeds hplace

theorem clear_iff : Stay.Clear (items.map (·.stay)) new.stay ↔
    (Repository.probe new.cameraId new.window items none none).overlapping = false := by
  rw [← Bool.not_eq_true, probe_overlapping_iff, Stay.Clear, List.forall_mem_map]
  constructor
  · rintro hclear ⟨u, hu, -, hplace, hoverlap⟩
    exact hclear u hu hplace (windowsOverlap_iff.1 hoverlap)
  · intro hnone u hu hplace hoverlap
    exact hnone ⟨u, hu, h.camera u hu, hplace, windowsOverlap_iff.2 hoverlap⟩

/-- **What the check asks**: no stay at another camera meets the window, and the ones that precede
and succeed it are within reach. -/
theorem transitionAllows_iff (hapart : Stay.Apart (items.map (·.stay)))
    (hnew : new.firstSeenAt ≤ new.lastSeenAt) :
    transitionAllows config transitions (Repository.probe new.cameraId new.window items none none)
        new.cameraId new.window = true ↔
      Stay.Clear (items.map (·.stay)) new.stay ∧
        Stay.ComesFrom (Allowed config transitions) (items.map (·.stay)) new.stay ∧
        Stay.GoesTo (Allowed config transitions) (items.map (·.stay)) new.stay := by
  rw [clear_iff h]
  unfold transitionAllows
  cases hflag : (Repository.probe new.cameraId new.window items none none).overlapping with
  | true => simp
  | false =>
    have hlatest : Latest (fun _ => False) none := fun _ => id
    have hearliest : Earliest (fun _ => False) none := fun _ => id
    obtain ⟨hlatest, hearliest⟩ := probe_neighbours hnew h.ordered hlatest hearliest hflag
    rw [if_neg Bool.false_ne_true, Bool.and_eq_true, and_iff_right rfl]
    exact and_congr
      (comesFrom_iff h hapart (hlatest.congr fun s => or_iff_right id))
      (goesTo_iff h hapart (hearliest.congr fun s => or_iff_right id))

end

/-! ## Where the check is exact -/

/-- No other camera meets the window; at an end of it the nearest segment beyond is out of reach;
and at every such end a segment at the camera lasts beyond the end, so that this visit begins
earlier or ends later. -/
structure Overlooks (config : Config) (transitions : List CameraTransition)
    (items : List TrajectorySegment) (new : TrajectorySegment) : Prop where
  clear : Stay.Clear (items.map (·.stay)) new.stay
  before : Stay.ComesFrom (Allowed config transitions) (items.map (·.stay)) new.stay ∨
    Stay.GoesOnBefore (items.map (·.stay)) new.stay
  after : Stay.GoesTo (Allowed config transitions) (items.map (·.stay)) new.stay ∨
    Stay.GoesOnAfter (items.map (·.stay)) new.stay
  unreachable : ¬(Stay.ComesFrom (Allowed config transitions) (items.map (·.stay)) new.stay ∧
    Stay.GoesTo (Allowed config transitions) (items.map (·.stay)) new.stay)

/-- **The travel-time check is exact** but where it overlooks that a visit goes on. -/
theorem exact_iff (repo : Repository) (scope : Scope) (identityId : String) (config : Config)
    (transitions : List CameraTransition) (new : TrajectorySegment)
    (hitems : Timed (repo.segmentsOf scope identityId))
    (hconsistent : Consistent config transitions (repo.segmentsOf scope identityId))
    (hnew : new.firstSeenAt ≤ new.lastSeenAt) :
    (transitionAllows config transitions
        (repo.probeReachability scope identityId new.cameraId new.window) new.cameraId
        new.window = true ↔
      Consistent config transitions (new :: repo.segmentsOf scope identityId)) ↔
    ¬Overlooks config transitions (repo.segmentsOf scope identityId) new := by
  rw [Repository.probeReachability, transitionAllows_iff hitems hconsistent.apart hnew, Consistent,
    List.map_cons, Stay.consistent_cons hitems.stays hnew hconsistent]
  constructor
  · rintro hiff ⟨hclear, hbefore, hafter, hunreachable⟩
    exact hunreachable (hiff.2 ⟨hclear, hbefore, hafter⟩).2
  · intro hoverlooks
    refine ⟨fun ⟨hclear, hcomes, hgoes⟩ => ⟨hclear, .inl hcomes, .inl hgoes⟩, ?_⟩
    rintro ⟨hclear, hbefore, hafter⟩
    exact ⟨hclear, not_not.1 fun hunreachable => hoverlooks ⟨hclear, hbefore, hafter, hunreachable⟩⟩

/-! ## Staying on -/

/-- From A one may come to B within 15 seconds. -/
def fromAToB : List CameraTransition := [⟨"A", "B", 0, some 15⟩]

/-- Seen at A until 10 and at B from 20 to 40. -/
def seenAtAThenB : List TrajectorySegment :=
  [⟨portal, "s1", "i", "A", 0, 10⟩, ⟨portal, "s2", "i", "B", 20, 40⟩]

/-- Seen at B again, from 30 to 50. -/
def stillAtB : TrajectorySegment := ⟨portal, "s3", "i", "B", 30, 50⟩

/-- Seen at C, from 45 to 50. -/
def laterAtC : TrajectorySegment := ⟨portal, "s3", "i", "C", 45, 50⟩

theorem timed_seenAtAThenB : Timed ((memoryOf seenAtAThenB).segmentsOf portal "i") where
  camera := by decide +kernel
  ordered := by decide +kernel

theorem consistent_seenAtAThenB :
    Consistent defaultConfig fromAToB ((memoryOf seenAtAThenB).segmentsOf portal "i") := by
  decide +kernel

theorem exact_later :
    transitionAllows defaultConfig fromAToB
        ((memoryOf seenAtAThenB).probeReachability portal "i" laterAtC.cameraId laterAtC.window)
        laterAtC.cameraId laterAtC.window = true ↔
      Consistent defaultConfig fromAToB
        (laterAtC :: (memoryOf seenAtAThenB).segmentsOf portal "i") :=
  (exact_iff (memoryOf seenAtAThenB) portal "i" defaultConfig fromAToB laterAtC timed_seenAtAThenB
    consistent_seenAtAThenB (by decide +kernel)).2 fun h => h.unreachable
      ((transitionAllows_iff timed_seenAtAThenB consistent_seenAtAThenB.apart (by decide +kernel)).1
        (by decide +kernel)).2

/-- **One who stays on is refused**: the nearest segment that ended before 30 is the one at A, which
ended 20 seconds before; but B was reached in 10. -/
theorem staying_on :
    Consistent defaultConfig fromAToB ((memoryOf seenAtAThenB).segmentsOf portal "i") ∧
      Consistent defaultConfig fromAToB
        (stillAtB :: (memoryOf seenAtAThenB).segmentsOf portal "i") ∧
      transitionAllows defaultConfig fromAToB
        ((memoryOf seenAtAThenB).probeReachability portal "i" stillAtB.cameraId stillAtB.window)
        stillAtB.cameraId stillAtB.window = false := by
  decide +kernel

end Scenara.Trajectory
