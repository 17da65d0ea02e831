import Mathlib.Data.List.MinMax
import Mathlib.Data.Rat.Floor
import Scenara.Core.Dict
import Scenara.Trajectory.Records

/-!
# The reachability probes

`put_segment` and `probe_reachability` of `PostgresTrajectoryRepository`
(`infrastructure/postgres_trajectory.py`) beside those of the memory repository.

* `Latest`, `Earliest`: the neighbours; the loop of the memory repository finds them
  (`probe_neighbours`), and so do the queries (`postgres_neighbours`).
-/

namespace Scenara.Trajectory

open Scenara.Core

variable {s t : TrajectorySegment} {cameraId : String} {window : Window}
  {items : List TrajectorySegment} {previous following : Option ReachabilityObservation}
  {S S' : TrajectorySegment → Prop}
variable {segments : List TrajectorySegment}

deriving instance DecidableEq for ReachabilityObservation, ReachabilityProbe

/-! ## `PostgresTrajectoryRepository` -/

/-- The nearest integer, the even one of two. -/
def rint (x : ℚ) : ℤ :=
  let down := ⌊x⌋
  if x - down < 1 / 2 ∨ x - down = 1 / 2 ∧ Even down then down else down + 1

/-- `to_timestamp`. -/
def toTimestamp (t : ℚ) : ℚ := rint (t * 1000000) / 1000000

/-- The window in the column's resolution. -/
def Window.toTimestamp (window : Window) : Window :=
  ⟨Trajectory.toTimestamp window.first, Trajectory.toTimestamp window.last⟩

/-- `ORDER BY key LIMIT 1`. -/
def limitOne {α : Type*} (key : α → ℚ) (rows : List α) : List (Option α) :=
  if rows.isEmpty then [none]
  else (rows.filter fun r => rows.all fun t => key r ≤ key t).map some

/-- `_observation`. -/
def TrajectorySegment.observation (s : TrajectorySegment) : ReachabilityObservation :=
  ⟨s.cameraId, s.firstSeenAt, s.lastSeenAt⟩

/-- `_IDENTITY_SCOPE`. -/
def identityScope (scope : Scope) (identityId : String) (s : TrajectorySegment) : Bool :=
  s.scope = scope && s.identityId = identityId && s.cameraId ≠ ""

/-- The row that `put_segment` writes. -/
def TrajectorySegment.row (s : TrajectorySegment) : TrajectorySegment :=
  { s with
    firstSeenAt := Trajectory.toTimestamp s.firstSeenAt
    lastSeenAt := Trajectory.toTimestamp s.lastSeenAt }

/-- `scenara_trajectory_segments`. -/
abbrev SegmentTable := Table Key TrajectorySegment TrajectorySegment.key

/-- `put_segment`. -/
def SegmentTable.putSegment (table : SegmentTable) (s : TrajectorySegment) : SegmentTable :=
  table.put s.row

/-- What `probe_reachability` may answer. -/
def postgresProbes (table : SegmentTable) (scope : Scope) (identityId cameraId : String)
    (window : Window) : List ReachabilityProbe :=
  let window := window.toTimestamp
  let rows := table.values.filter (identityScope scope identityId)
  if rows.any fun s => s.cameraId ≠ cameraId && window.first ≤ s.lastSeenAt &&
      s.firstSeenAt ≤ window.last then [⟨true, none, none⟩]
  else
    (limitOne (fun s => -s.lastSeenAt) (rows.filter fun s => s.lastSeenAt < window.first)).flatMap
      fun previous =>
        (limitOne TrajectorySegment.firstSeenAt
          (rows.filter fun s => window.last < s.firstSeenAt)).map fun following =>
            ⟨false, previous.map (·.observation), following.map (·.observation)⟩

theorem floor_le_rint (x : ℚ) : ⌊x⌋ ≤ rint x := by
  dsimp only [rint]
  split <;> omega

theorem rint_le_floor_add_one (x : ℚ) : rint x ≤ ⌊x⌋ + 1 := by
  dsimp only [rint]
  split <;> omega

@[simp] theorem rint_intCast (n : ℤ) : rint n = n := by simp [rint]

theorem rint_mono {x y : ℚ} (h : x ≤ y) : rint x ≤ rint y := by
  rcases (Int.floor_mono h).lt_or_eq with _ | heq
  · have hx := rint_le_floor_add_one x
    have hy := floor_le_rint y
    omega
  · dsimp only [rint]
    rw [heq]
    by_cases hy : y - ⌊y⌋ < 1 / 2 ∨ y - ⌊y⌋ = 1 / 2 ∧ Even ⌊y⌋
    · have hx : x - ⌊y⌋ < 1 / 2 ∨ x - ⌊y⌋ = 1 / 2 ∧ Even ⌊y⌋ := by
        rcases hy with hy | ⟨_, heven⟩
        · exact .inl (by linarith)
        · rcases (show x - ⌊y⌋ ≤ 1 / 2 by linarith).lt_or_eq with hx | hx
          · exact .inl hx
          · exact .inr ⟨hx, heven⟩
      rw [if_pos hx, if_pos hy]
    · rw [if_neg hy]
      split <;> omega

/-- A whole number of microseconds. -/
def Microseconds (t : ℚ) : Prop := ∃ n : ℤ, t = n / 1000000

theorem toTimestamp_eq {t : ℚ} (h : Microseconds t) : toTimestamp t = t := by
  obtain ⟨n, rfl⟩ := h
  unfold toTimestamp
  rw [div_mul_cancel₀ _ (by norm_num), rint_intCast]

theorem toTimestamp_mono {t u : ℚ} (h : t ≤ u) : toTimestamp t ≤ toTimestamp u := by
  have hrint : (rint (t * 1000000) : ℚ) ≤ rint (u * 1000000) := by
    exact_mod_cast rint_mono (by linarith)
  unfold toTimestamp
  linarith

theorem TrajectorySegment.row_eq (hfirst : Microseconds s.firstSeenAt)
    (hlast : Microseconds s.lastSeenAt) : s.row = s := by
  unfold TrajectorySegment.row
  rw [toTimestamp_eq hfirst, toTimestamp_eq hlast]

theorem Window.toTimestamp_eq (hfirst : Microseconds window.first)
    (hlast : Microseconds window.last) : window.toTimestamp = window := by
  unfold Window.toTimestamp
  rw [Trajectory.toTimestamp_eq hfirst, Trajectory.toTimestamp_eq hlast]

theorem mem_limitOne_none {α : Type*} {key : α → ℚ} {rows : List α} :
    none ∈ limitOne key rows ↔ rows = [] := by
  unfold limitOne
  cases rows <;> simp

theorem mem_limitOne_some {α : Type*} {key : α → ℚ} {rows : List α} {r : α} :
    some r ∈ limitOne key rows ↔ r ∈ rows ∧ ∀ t ∈ rows, key r ≤ key t := by
  unfold limitOne
  cases rows with
  | nil | cons => simp

/-! ## Neighbours -/

/-- The observation of a segment of `S` whose key is the least. -/
def Nearest (key : ReachabilityObservation → ℚ) (S : TrajectorySegment → Prop) :
    Option ReachabilityObservation → Prop
  | none => ∀ s, ¬S s
  | some o => ∃ s, S s ∧ o = s.observation ∧ ∀ t, S t → key s.observation ≤ key t.observation

namespace Nearest

variable {key : ReachabilityObservation → ℚ} {o q : Option ReachabilityObservation}

theorem congr (h : Nearest key S o) (hS : ∀ s, S s ↔ S' s) : Nearest key S' o := by
  rwa [show S = S' from funext fun s => propext (hS s)] at h

theorem insert (h : Nearest key S o) (s : TrajectorySegment) :
    Nearest key (fun t => S t ∨ t = s)
      (if o.all fun p => key s.observation < key p then some s.observation else o) := by
  cases o with
  | none =>
    refine ⟨s, .inr rfl, rfl, ?_⟩
    rintro t (ht | rfl)
    · exact absurd ht (h t)
    · exact le_rfl
  | some p =>
    obtain ⟨q, hq, rfl, hmin⟩ := h
    by_cases hlt : key s.observation < key q.observation
    · rw [if_pos (by simpa using hlt)]
      refine ⟨s, .inr rfl, rfl, ?_⟩
      rintro t (ht | rfl)
      · exact hlt.le.trans (hmin t ht)
      · exact le_rfl
    · rw [if_neg (by simpa using hlt)]
      refine ⟨q, .inl hq, rfl, ?_⟩
      rintro t (ht | rfl)
      · exact hmin t ht
      · exact not_lt.1 hlt

theorem map_eq {α : Type*} {f : ReachabilityObservation → α} (ho : Nearest key S o)
    (hq : Nearest key S q) (hS : ∀ s t, S s → S t → key s.observation = key t.observation →
      f s.observation = f t.observation) : o.map f = q.map f := by
  cases o with
  | none =>
    cases q with
    | none => rfl
    | some q =>
      obtain ⟨t, ht, -⟩ := hq
      exact absurd ht (ho t)
  | some o =>
    obtain ⟨s, hs, rfl, hsmin⟩ := ho
    cases q with
    | none => exact absurd hs (hq s)
    | some q =>
      obtain ⟨t, ht, rfl, htmin⟩ := hq
      exact congrArg some (hS s t hs ht (le_antisymm (hsmin t ht) (htmin s hs)))

end Nearest

/-- The observation of a segment that ends last among those of `S`. -/
abbrev Latest : (TrajectorySegment → Prop) → Option ReachabilityObservation → Prop :=
  Nearest fun o => -o.lastSeenAt

/-- The observation of a segment that begins first among those of `S`. -/
abbrev Earliest : (TrajectorySegment → Prop) → Option ReachabilityObservation → Prop :=
  Nearest fun o => o.firstSeenAt

theorem Latest.insert (h : Latest S previous) (s : TrajectorySegment) :
    Latest (fun t => S t ∨ t = s)
      (if previous.all fun p => p.lastSeenAt < s.lastSeenAt then some s.observation
        else previous) := by
  simpa only [TrajectorySegment.observation, neg_lt_neg_iff] using Nearest.insert h s

/-! ## The loop -/

/-- A segment with a camera that ends before the window. -/
def Before (window : Window) (items : List TrajectorySegment) (s : TrajectorySegment) : Prop :=
  s ∈ items ∧ s.cameraId ≠ "" ∧ s.lastSeenAt < window.first

/-- A segment with a camera that begins after the window. -/
def After (window : Window) (items : List TrajectorySegment) (s : TrajectorySegment) : Prop :=
  s ∈ items ∧ s.cameraId ≠ "" ∧ window.last < s.firstSeenAt

theorem before_cons : Before window (t :: items) s ↔
    s = t ∧ t.cameraId ≠ "" ∧ t.lastSeenAt < window.first ∨ Before window items s := by
  unfold Before
  rw [List.mem_cons]
  constructor
  · rintro ⟨rfl | hs, h⟩
    · exact .inl ⟨rfl, h⟩
    · exact .inr ⟨hs, h⟩
  · rintro (⟨rfl, h⟩ | ⟨hs, h⟩)
    · exact ⟨.inl rfl, h⟩
    · exact ⟨.inr hs, h⟩

theorem after_cons : After window (t :: items) s ↔
    s = t ∧ t.cameraId ≠ "" ∧ window.last < t.firstSeenAt ∨ After window items s := by
  unfold After
  rw [List.mem_cons]
  constructor
  · rintro ⟨rfl | hs, h⟩
    · exact .inl ⟨rfl, h⟩
    · exact .inr ⟨hs, h⟩
  · rintro (⟨rfl, h⟩ | ⟨hs, h⟩)
    · exact ⟨.inl rfl, h⟩
    · exact ⟨.inr hs, h⟩

theorem windowsOverlap_iff {v w : Window} :
    windowsOverlap v w = true ↔ v.first ≤ w.last ∧ w.first ≤ v.last := by
  simp [windowsOverlap]

theorem probe_overlapping_iff :
    (Repository.probe cameraId window items previous following).overlapping = true ↔
      ∃ item ∈ items, item.cameraId ≠ "" ∧ item.cameraId ≠ cameraId ∧
        windowsOverlap item.window window = true := by
  induction items generalizing previous following with
  | nil => simp [Repository.probe]
  | cons item _ ih =>
    rw [List.exists_mem_cons_iff]
    unfold Repository.probe
    by_cases hcamera : item.cameraId = ""
    · rw [if_pos hcamera, ih, or_iff_right fun h => h.1 hcamera]
    rw [if_neg hcamera]
    by_cases hoverlap : windowsOverlap item.window window = true
    · rw [if_pos hoverlap]
      by_cases hother : item.cameraId ≠ cameraId
      · rw [if_pos hother]
        exact iff_of_true rfl (.inl ⟨hcamera, hother, hoverlap⟩)
      · rw [if_neg hother, ih, or_iff_right fun h => hother h.2.1]
    rw [if_neg hoverlap, or_iff_right fun h => hoverlap h.2.2]
    split <;> split <;> exact ih

theorem probe_neighbours (hwindow : window.first ≤ window.last)
    (hitems : ∀ s ∈ items, s.firstSeenAt ≤ s.lastSeenAt) (hprevious : Latest S previous)
    (hfollowing : Earliest S' following)
    (h : (Repository.probe cameraId window items previous following).overlapping = false) :
    Latest (fun s => S s ∨ Before window items s)
        (Repository.probe cameraId window items previous following).previous ∧
      Earliest (fun s => S' s ∨ After window items s)
        (Repository.probe cameraId window items previous following).following := by
  induction items generalizing previous following S S' with
  | nil =>
    exact ⟨hprevious.congr fun s => by simp [Before], hfollowing.congr fun s => by simp [After]⟩
  | cons item rest ih =>
    obtain ⟨hitem, hrest⟩ := List.forall_mem_cons.1 hitems
    -- An item that is passed over is neither before nor after the window.
    have hskip : ¬(item.cameraId ≠ "" ∧ item.lastSeenAt < window.first) →
        ¬(item.cameraId ≠ "" ∧ window.last < item.firstSeenAt) →
        (Repository.probe cameraId window rest previous following).overlapping = false →
        Latest (fun s => S s ∨ Before window (item :: rest) s)
            (Repository.probe cameraId window rest previous following).previous ∧
          Earliest (fun s => S' s ∨ After window (item :: rest) s)
            (Repository.probe cameraId window rest previous following).following := by
      intro hb ha hr
      obtain ⟨hl, he⟩ := ih hrest hprevious hfollowing hr
      refine ⟨hl.congr fun s => or_congr_right ?_, he.congr fun s => or_congr_right ?_⟩
      · rw [before_cons, or_iff_right fun hs => hb hs.2]
      · rw [after_cons, or_iff_right fun hs => ha hs.2]
    unfold Repository.probe at h ⊢
    by_cases hcamera : item.cameraId = ""
    · simp only [if_pos hcamera] at h ⊢
      exact hskip (fun hb => hb.1 hcamera) (fun ha => ha.1 hcamera) h
    simp only [if_neg hcamera] at h ⊢
    by_cases hoverlap : windowsOverlap item.window window = true
    · obtain ⟨hfirst, hlast⟩ := windowsOverlap_iff.1 hoverlap
      simp only [if_pos hoverlap] at h ⊢
      by_cases hsame : item.cameraId ≠ cameraId
      · simp only [if_pos hsame] at h
        cases h
      · simp only [if_neg hsame] at h ⊢
        exact hskip (fun hb => absurd hb.2 (not_lt.2 hlast))
          (fun ha => absurd ha.2 (not_lt.2 hfirst)) h
    simp only [if_neg hoverlap] at h ⊢
    have hapart : ¬(item.firstSeenAt ≤ window.last ∧ window.first ≤ item.lastSeenAt) :=
      fun hb => hoverlap (windowsOverlap_iff.2 hb)
    by_cases hbefore : item.lastSeenAt ≤ window.first
    · have hlt : item.lastSeenAt < window.first := by
        by_contra hge
        exact hapart ⟨hitem.trans (hbefore.trans hwindow), not_lt.1 hge⟩
      have hnot : ¬window.last < item.firstSeenAt := not_lt.2 (hitem.trans (hbefore.trans hwindow))
      simp only [if_pos hbefore, ← apply_ite (fun p =>
        Repository.probe cameraId window rest p following)] at h ⊢
      obtain ⟨hl, he⟩ := ih hrest (Latest.insert hprevious item) hfollowing h
      refine ⟨hl.congr fun s => ?_, he.congr fun s => or_congr_right ?_⟩
      · rw [before_cons, or_assoc]
        simp [hcamera, hlt]
      · rw [after_cons, or_iff_right fun hs => hnot hs.2.2]
    · have hlt : window.last < item.firstSeenAt := by
        by_contra hge
        exact hapart ⟨not_lt.1 hge, (not_le.1 hbefore).le⟩
      have hnot : ¬item.lastSeenAt < window.first := fun hb => hbefore hb.le
      simp only [if_neg hbefore, ← apply_ite (fun f =>
        Repository.probe cameraId window rest previous f)] at h ⊢
      obtain ⟨hl, he⟩ := ih hrest hprevious (Nearest.insert hfollowing item) h
      refine ⟨hl.congr fun s => or_congr_right ?_, he.congr fun s => ?_⟩
      · rw [before_cons, or_iff_right fun hs => hnot hs.2.2]
      · rw [after_cons, or_assoc]
        simp [hcamera, hlt]

/-! ## The stores -/

/-- The memory repository after `put_segment` of each. -/
def memoryOf (segments : List TrajectorySegment) : Repository :=
  segments.foldl Repository.putSegment .empty

/-- The table after `put_segment` of each. -/
def tableOf (segments : List TrajectorySegment) : SegmentTable :=
  segments.foldl SegmentTable.putSegment .empty

/-- Two segments under one key are one. -/
def Keyed (segments : List TrajectorySegment) : Prop :=
  ∀ s ∈ segments, ∀ t ∈ segments, s.key = t.key → s = t

theorem Keyed.of_append {segments rest : List TrajectorySegment} (h : Keyed (segments ++ rest)) :
    Keyed segments := fun s hs t ht =>
  h s (List.mem_append_left _ hs) t (List.mem_append_left _ ht)

theorem Keyed.mem_append (h : Keyed (segments ++ [t])) :
    s ∈ segments ++ [t] ↔ s = t ∨ s.key ≠ t.key ∧ s ∈ segments := by
  constructor
  · intro hs
    by_cases hk : s.key = t.key
    · exact .inl (h s hs t (by simp) hk)
    · refine .inr ⟨hk, (List.mem_append.1 hs).resolve_right fun ht => hk ?_⟩
      rw [List.mem_singleton.1 ht]
  · rintro (rfl | ⟨-, hs⟩)
    · simp
    · exact List.mem_append_left _ hs

theorem stored_memoryOf (h : Keyed segments) : Stored (memoryOf segments) s ↔ s ∈ segments := by
  unfold memoryOf
  induction segments using List.reverseRecOn with
  | nil => simp [Stored, Repository.empty]
  | append_singleton _ t ih =>
    rw [List.foldl_append, List.foldl_cons, List.foldl_nil, stored_putSegment, ih h.of_append,
      h.mem_append]

theorem mem_tableOf (h : Keyed segments)
    (hrow : ∀ t ∈ segments, t.row = t) : s ∈ (tableOf segments).values ↔ s ∈ segments := by
  unfold tableOf
  induction segments using List.reverseRecOn with
  | nil => simp [Table.mem_values]
  | append_singleton _ t ih =>
    rw [List.foldl_append, List.foldl_cons, List.foldl_nil, SegmentTable.putSegment,
      hrow t (by simp), Table.mem_values_put,
      ih h.of_append fun u hu => hrow u (List.mem_append_left _ hu), h.mem_append]

/-! ## Agreement -/

/-- One flag and, without an overlap, neighbours with one camera and one time. -/
def Agree (p q : ReachabilityProbe) : Prop :=
  p.overlapping = q.overlapping ∧ (p.overlapping = false →
    p.previous.map (fun o => (o.cameraId, o.lastSeenAt)) =
        q.previous.map (fun o => (o.cameraId, o.lastSeenAt)) ∧
      p.following.map (fun o => (o.cameraId, o.firstSeenAt)) =
        q.following.map (fun o => (o.cameraId, o.firstSeenAt)))
  deriving Decidable

section Tables

variable {table : SegmentTable} {scope : Scope} {identityId : String} {p : ReachabilityProbe}
  {repo : Repository}

theorem mem_rows (htable : ∀ s, s ∈ table.values ↔ Stored repo s) :
    s ∈ table.values.filter (identityScope scope identityId) ↔
      s ∈ repo.segmentsOf scope identityId ∧ s.cameraId ≠ "" := by
  rw [List.mem_filter, htable, mem_segmentsOf]
  simp [identityScope, and_assoc]

theorem nearest_of_mem_limitOne (key : ReachabilityObservation → ℚ) {rows : List TrajectorySegment}
    {o : Option TrajectorySegment} (h : o ∈ limitOne (fun s => key s.observation) rows) :
    Nearest key (· ∈ rows) (o.map (·.observation)) := by
  cases o with
  | none =>
    rw [mem_limitOne_none.1 h]
    exact fun s => List.not_mem_nil
  | some r =>
    obtain ⟨hr, hmin⟩ := mem_limitOne_some.1 h
    exact ⟨r, hr, rfl, hmin⟩

theorem postgres_neighbours (htable : ∀ s, s ∈ table.values ↔ Stored repo s)
    (hp : p ∈ postgresProbes table scope identityId cameraId window) :
    (p.overlapping = true ↔ ∃ item ∈ repo.segmentsOf scope identityId, item.cameraId ≠ "" ∧
        item.cameraId ≠ cameraId ∧ windowsOverlap item.window window.toTimestamp = true) ∧
      (p.overlapping = false →
        Latest (Before window.toTimestamp (repo.segmentsOf scope identityId)) p.previous ∧
          Earliest (After window.toTimestamp (repo.segmentsOf scope identityId)) p.following) := by
  unfold postgresProbes at hp
  dsimp only at hp
  have hany : (table.values.filter (identityScope scope identityId)).any (fun s =>
      s.cameraId ≠ cameraId && window.toTimestamp.first ≤ s.lastSeenAt &&
        s.firstSeenAt ≤ window.toTimestamp.last) = true ↔
      ∃ item ∈ repo.segmentsOf scope identityId, item.cameraId ≠ "" ∧
        item.cameraId ≠ cameraId ∧ windowsOverlap item.window window.toTimestamp = true := by
    rw [List.any_eq_true]
    refine exists_congr fun s => ?_
    rw [mem_rows htable, windowsOverlap_iff, and_assoc]
    simp [TrajectorySegment.window, and_assoc, and_comm (a := s.firstSeenAt ≤ _)]
  split at hp
  · rename_i h
    rw [List.mem_singleton] at hp
    subst hp
    exact ⟨iff_of_true rfl (hany.1 h), nofun⟩
  · rename_i h
    obtain ⟨_, hprevious, hp⟩ := List.mem_flatMap.1 hp
    obtain ⟨_, hfollowing, rfl⟩ := List.mem_map.1 hp
    refine ⟨iff_of_false Bool.false_ne_true (mt hany.2 h), fun _ => ⟨?_, ?_⟩⟩
    · refine (nearest_of_mem_limitOne (fun o => -o.lastSeenAt) hprevious).congr fun s => ?_
      rw [List.mem_filter, mem_rows htable, and_assoc]
      simp [Before]
    · refine (nearest_of_mem_limitOne (·.firstSeenAt) hfollowing).congr fun s => ?_
      rw [List.mem_filter, mem_rows htable, and_assoc]
      simp [After]

/-- **PostgreSQL answers as the memory repository does for the rounded window**, where two segments
of the identity that share a moment are at one camera. -/
theorem agree_of_stored (htable : ∀ s, s ∈ table.values ↔ Stored repo s)
    (hordered : ∀ s ∈ repo.segmentsOf scope identityId, s.firstSeenAt ≤ s.lastSeenAt)
    (hcamera : ∀ s ∈ repo.segmentsOf scope identityId, ∀ t ∈ repo.segmentsOf scope identityId,
      s.cameraId ≠ "" → t.cameraId ≠ "" → s.firstSeenAt ≤ t.lastSeenAt →
        t.firstSeenAt ≤ s.lastSeenAt → s.cameraId = t.cameraId)
    (hwindow : window.first ≤ window.last)
    (hp : p ∈ postgresProbes table scope identityId cameraId window) :
    Agree (repo.probeReachability scope identityId cameraId window.toTimestamp) p := by
  obtain ⟨hoverlap, hneighbours⟩ := postgres_neighbours htable hp
  have hflag : (repo.probeReachability scope identityId cameraId window.toTimestamp).overlapping =
      p.overlapping := Bool.eq_iff_iff.2 (probe_overlapping_iff.trans hoverlap.symm)
  refine ⟨hflag, fun hclear => ?_⟩
  obtain ⟨hprevious, hfollowing⟩ := hneighbours (hflag ▸ hclear)
  have hlatest : Latest (fun _ => False) none := fun _ => id
  have hearliest : Earliest (fun _ => False) none := fun _ => id
  obtain ⟨hlatest, hearliest⟩ :=
    probe_neighbours (toTimestamp_mono hwindow) hordered hlatest hearliest hclear
  constructor
  · refine (hlatest.congr fun s => or_iff_right id).map_eq hprevious fun s t hs ht heq => ?_
    have hlast : s.lastSeenAt = t.lastSeenAt := neg_inj.1 heq
    refine Prod.ext (hcamera s hs.1 t ht.1 hs.2.1 ht.2.1 ?_ ?_) hlast
    · exact hlast ▸ hordered s hs.1
    · exact hlast ▸ hordered t ht.1
  · refine (hearliest.congr fun s => or_iff_right id).map_eq hfollowing fun s t hs ht heq => ?_
    have hfirst : s.firstSeenAt = t.firstSeenAt := heq
    refine Prod.ext (hcamera s hs.1 t ht.1 hs.2.1 ht.2.1 ?_ ?_) hfirst
    · exact hfirst ▸ hordered t ht.1
    · exact hfirst ▸ hordered s hs.1

end Tables

/-- Segments under keys of their own, of whole microseconds, of which no identity is at two cameras
at a time. -/
structure Observed (segments : List TrajectorySegment) : Prop where
  keyed : Keyed segments
  ordered : ∀ s ∈ segments, s.firstSeenAt ≤ s.lastSeenAt
  microseconds : ∀ s ∈ segments, Microseconds s.firstSeenAt ∧ Microseconds s.lastSeenAt
  apart : ∀ s ∈ segments, ∀ t ∈ segments, s.scope = t.scope → s.identityId = t.identityId →
    s.cameraId ≠ "" → t.cameraId ≠ "" → s.cameraId ≠ t.cameraId →
      windowsOverlap s.window t.window = false

theorem Observed.camera_eq (h : Observed segments)
    (hs : s ∈ segments) (ht : t ∈ segments) (hscope : s.scope = t.scope)
    (hid : s.identityId = t.identityId) (hcs : s.cameraId ≠ "") (hct : t.cameraId ≠ "")
    (hfirst : s.firstSeenAt ≤ t.lastSeenAt) (hlast : t.firstSeenAt ≤ s.lastSeenAt) :
    s.cameraId = t.cameraId := by
  by_contra hne
  have hoverlap : windowsOverlap s.window t.window = true := windowsOverlap_iff.2 ⟨hfirst, hlast⟩
  simp [h.apart s hs t ht hscope hid hcs hct hne] at hoverlap

/-- **The two repositories answer alike**: whatever order the segments came in and whichever of the
rows that tie it picks, PostgreSQL answers as the memory repository does for the rounded window,
which is the window where that is of whole microseconds. -/
theorem probes_agree {segments rows : List TrajectorySegment} (hsegments : Observed segments)
    (hperm : rows.Perm segments) {scope : Scope} {identityId cameraId : String} {window : Window}
    (hwindow : window.first ≤ window.last) {p : ReachabilityProbe}
    (hp : p ∈ postgresProbes (tableOf rows) scope identityId cameraId window) :
    Agree ((memoryOf segments).probeReachability scope identityId cameraId window.toTimestamp) p ∧
      (Microseconds window.first → Microseconds window.last →
        Agree ((memoryOf segments).probeReachability scope identityId cameraId window) p) := by
  have hstored : ∀ s, Stored (memoryOf segments) s ↔ s ∈ segments := fun s =>
    stored_memoryOf hsegments.keyed
  have htable : ∀ s, s ∈ (tableOf rows).values ↔ Stored (memoryOf segments) s := by
    intro s
    rw [hstored, mem_tableOf (fun a ha b hb => hsegments.keyed a (hperm.mem_iff.1 ha) b
      (hperm.mem_iff.1 hb)) ?_, hperm.mem_iff]
    intro t ht
    obtain ⟨hfirst, hlast⟩ := hsegments.microseconds t (hperm.mem_iff.1 ht)
    exact TrajectorySegment.row_eq hfirst hlast
  have hmem : ∀ s, s ∈ (memoryOf segments).segmentsOf scope identityId →
      s ∈ segments ∧ s.scope = scope ∧ s.identityId = identityId := by
    intro s hs
    rwa [mem_segmentsOf, hstored] at hs
  have hmain : Agree ((memoryOf segments).probeReachability scope identityId cameraId
      window.toTimestamp) p := by
    refine agree_of_stored htable (fun s hs => hsegments.ordered s (hmem s hs).1) ?_ hwindow hp
    intro s hs t ht
    obtain ⟨hs, hsscope, hsid⟩ := hmem s hs
    obtain ⟨ht, htscope, htid⟩ := hmem t ht
    exact hsegments.camera_eq hs ht (hsscope.trans htscope.symm) (hsid.trans htid.symm)
  refine ⟨hmain, fun hfirst hlast => ?_⟩
  rwa [Window.toTimestamp_eq hfirst hlast] at hmain

/-- An identity at camera B from 0 to 10. -/
def atB : TrajectorySegment := ⟨portal, "s1", "i", "B", 0, 10⟩

/-- The same identity at camera A from 20 to 30. -/
def atA : TrajectorySegment := ⟨portal, "s2", "i", "A", 20, 30⟩

theorem observed_atB : Observed [atB] where
  keyed := by simp [Keyed]
  ordered := by decide +kernel
  microseconds := by
    rw [List.forall_mem_singleton]
    exact ⟨⟨0, by norm_num [atB]⟩, ⟨10000000, by norm_num [atB]⟩⟩
  apart := by simp

theorem observed_atB_atA : Observed [atB, atA] where
  keyed := by
    unfold Keyed
    decide +kernel
  ordered := by decide +kernel
  microseconds := by
    rw [List.forall_mem_cons, List.forall_mem_singleton]
    exact ⟨⟨⟨0, by norm_num [atB]⟩, ⟨10000000, by norm_num [atB]⟩⟩,
      ⟨⟨20000000, by norm_num [atA]⟩, ⟨30000000, by norm_num [atA]⟩⟩⟩
  apart := by decide +kernel

theorem probes_agree_between :
    Agree ((memoryOf [atB, atA]).probeReachability portal "i" "C" ⟨12, 18⟩)
      ⟨false, some atB.observation, some atA.observation⟩ :=
  (probes_agree observed_atB_atA (List.Perm.swap atB atA []) (by norm_num)
    (show _ ∈ postgresProbes (tableOf [atA, atB]) portal "i" "C" ⟨12, 18⟩ by
      decide +kernel)).2 ⟨12000000, by norm_num⟩ ⟨18000000, by norm_num⟩

/-- A window that begins 0.4 microseconds after the segment at camera B ends: the memory repository
finds that segment before it, PostgreSQL one that overlaps. -/
theorem probe_between_microseconds :
    Observed [atB] ∧ ∃ p ∈ postgresProbes (tableOf [atB]) portal "i" "A" ⟨10 + 4 / 10000000, 20⟩,
      ¬Agree ((memoryOf [atB]).probeReachability portal "i" "A" ⟨10 + 4 / 10000000, 20⟩) p :=
  ⟨observed_atB, by decide +kernel⟩

end Scenara.Trajectory
