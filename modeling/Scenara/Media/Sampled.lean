import Scenara.Media.Sampling

/-!
# What is sampled of a video

* `bump`: times pushed past one another. `bump_le_iff` says when they stay below a bound.
* `chosen`: the frames that the loop takes; `emitted_eq` says what units they become.
-/

namespace Scenara.Media.Sampling

/-! ## Bumped times -/

/-- Each time, or one more than the time before. -/
def bump : Int → List Int → List Int
  | _, [] => []
  | last, p :: ps => max p (last + 1) :: bump (max p (last + 1)) ps

/-- Each is as far below the bound as there are times after it. -/
def Room (hi : Int) : List Int → Prop
  | [] => True
  | p :: ps => p + ps.length ≤ hi ∧ Room hi ps

section Bump

variable {last lo hi : Int} {ps : List Int}

theorem bump_gt : ∀ q ∈ bump last ps, last < q := by
  induction ps generalizing last with
  | nil => simp [bump]
  | cons p _ ih =>
    intro q hq
    rcases List.mem_cons.1 hq with rfl | hq
    · omega
    · have hlt := ih q hq
      omega

theorem bump_increasing : (bump last ps).Pairwise (· < ·) := by
  induction ps generalizing last with
  | nil => exact .nil
  | cons p _ ih => exact List.pairwise_cons.2 ⟨bump_gt, ih⟩

theorem bump_le_iff : (∀ q ∈ bump last ps, q ≤ hi) ↔ (ps ≠ [] → last + ps.length ≤ hi) ∧
    Room hi ps := by
  induction ps generalizing last with
  | nil => simp [bump, Room]
  | cons p ps ih =>
    have hsplit : max p (last + 1) ≤ hi ∧ (ps ≠ [] → max p (last + 1) + ps.length ≤ hi) ↔
        p + ps.length ≤ hi ∧ last + 1 + ps.length ≤ hi := by
      cases ps with
      | nil => simp
      | cons q =>
        simp only [ne_eq, reduceCtorEq, not_false_eq_true, true_implies]
        omega
    rw [bump, List.forall_mem_cons, ih, Room, ← and_assoc, hsplit, List.length_cons]
    simp only [ne_eq, reduceCtorEq, not_false_eq_true, true_implies, Nat.cast_add, Nat.cast_one]
    constructor
    · rintro ⟨⟨hp, hlast⟩, hroom⟩
      exact ⟨by omega, hp, hroom⟩
    · rintro ⟨_, hp, hroom⟩
      exact ⟨⟨hp, by omega⟩, hroom⟩

theorem room_of_increasing (h : ps.Pairwise (· < ·)) (hle : ∀ p ∈ ps, p ≤ hi) : Room hi ps := by
  induction ps with
  | nil => trivial
  | cons p ps ih =>
    rw [List.pairwise_cons] at h
    have hroom := ih h.2 fun q hq => hle q (List.mem_cons_of_mem _ hq)
    refine ⟨?_, hroom⟩
    cases ps with
    | nil => simpa using hle p List.mem_cons_self
    | cons q =>
      have hlt := h.1 q List.mem_cons_self
      have hlast := hroom.1
      rw [List.length_cons]
      omega

end Bump

/-! ## The frames taken -/

section Chosen

variable {S : Type} (distance : S → S → ℚ) (plan : SamplePlan) (fps : ℚ)
    (seekUsed previewOnly : Bool)

/-- The frames that are taken, with how many were read before. -/
def chosen : Selection S → List (Frame S) → List (Frame S × Nat)
  | _, [] => []
  | selection, frame :: frames =>
    match choice distance plan fps seekUsed selection frame with
    | .skip selection => chosen selection frames
    | .stop _ _ => []
    | .take selection =>
      (frame, selection.frameIndex) :: if previewOnly then [] else chosen selection frames

variable {distance plan fps seekUsed previewOnly} {selection : Selection S} {out : Output}
  {frame : Frame S} {frames : List (Frame S)}

/-- A frame as it is taken. -/
def takenOf (fps : ℚ) (taken : Frame S × Nat) : Taken := taken.1.taken fps taken.2

/-- **The output of the loop** is that of the frames taken. -/
theorem loop_output : (loop distance plan fps seekUsed previewOnly selection out frames).output =
    ((chosen distance plan fps seekUsed previewOnly selection frames).map (takenOf fps)).foldl
      Output.emit out := by
  induction frames generalizing selection out with
  | nil => rfl
  | cons frame _ ih =>
    unfold loop chosen
    cases choice distance plan fps seekUsed selection frame with
    | skip => exact ih
    | stop => rfl
    | take =>
      cases previewOnly with
      | false => exact ih
      | true => rfl

theorem foldl_emit (out : Output) (taken : List Taken) :
    (taken.foldl Output.emit out).emitted.map (·.ptsMs) =
      out.emitted.map (·.ptsMs) ++ bump out.lastOutputPtsMs (taken.map (·.positionMs)) ∧
    (taken.foldl Output.emit out).emitted.map (·.index) =
      out.emitted.map (·.index) ++ List.range' out.sampledUnits taken.length ∧
    (taken.foldl Output.emit out).emitted.map (·.unitId) =
      out.emitted.map (·.unitId) ++ taken.map (fun t => "frame_" ++ toString t.frameNumber) ∧
    (taken.foldl Output.emit out).sampledUnits = out.sampledUnits + taken.length := by
  induction taken generalizing out with
  | nil => simp [bump]
  | cons t _ ih =>
    obtain ⟨hpts, hindex, hid, hcount⟩ := ih (out.emit t)
    rw [List.foldl_cons, hpts, hindex, hid, hcount]
    refine ⟨?_, ?_, ?_, ?_⟩
    · simp [Output.emit, bump]
    · simp [Output.emit, List.range'_succ]
    · simp [Output.emit]
    · simp only [Output.emit, List.length_cons]
      omega

end Chosen

/-! ## Inside the window -/

section Window

variable {S : Type} (distance : S → S → ℚ) (plan : SamplePlan) (capture : Capture S)
    (previewOnly : Bool)

/-- The frames taken of a video. -/
def takenFrames : List (Frame S × Nat) :=
  chosen distance plan capture.effectiveFps (seekUsed plan capture) previewOnly (.initial plan)
    capture.frames

/-- Their positions. -/
def takenPositions : List Int :=
  (takenFrames distance plan capture previewOnly).map fun taken =>
    capturePositionMs capture.effectiveFps taken.1

/-- The positions of the frames never go back. -/
def Capture.Forward : Prop :=
  (capture.frames.map (capturePositionMs capture.effectiveFps)).Pairwise (· ≤ ·)
  deriving Decidable

/-- What the units of a video ought to be. -/
structure Inside (decoded : Decoded) : Prop where
  window : ∀ unit ∈ decoded.emitted, plan.startMs ≤ unit.ptsMs ∧
    ∀ endMs ∈ plan.endMs, unit.ptsMs ≤ endMs
  indexed : decoded.emitted.map (·.index) = List.range decoded.emitted.length
  increasing : (decoded.emitted.map (·.ptsMs)).Pairwise (· < ·)
  counted : ∀ metadata, decoded.result = .ok metadata →
    metadata.sampledUnits = decoded.emitted.length

/-- Times that stay in the window when they are bumped past one another: the first is not before it,
and each is as many milliseconds before the end as there are times after it. -/
structure Within (positions : List Int) : Prop where
  first : ∀ p ∈ positions.head?, plan.startMs ≤ p
  room : ∀ endMs ∈ plan.endMs, Room endMs positions

variable {distance plan capture previewOnly}

theorem capturePositionMs_nonneg (fps : ℚ) (frame : Frame S) : 0 ≤ capturePositionMs fps frame := by
  unfold capturePositionMs
  split <;> exact le_max_left _ _

theorem takenPositions_nonneg (distance : S → S → ℚ) (plan : SamplePlan) (capture : Capture S)
    (previewOnly : Bool) : ∀ p ∈ takenPositions distance plan capture previewOnly, 0 ≤ p := by
  intro p hp
  obtain ⟨_, -, rfl⟩ := List.mem_map.1 hp
  exact capturePositionMs_nonneg _ _

theorem decodeVideo_emitted (hvalid : plan.validate = .ok ()) :
    (decodeVideo distance plan capture previewOnly).emitted =
      (((takenFrames distance plan capture previewOnly).map (takenOf capture.effectiveFps)).foldl
        Output.emit .initial).emitted := by
  unfold decodeVideo sampled
  rw [hvalid]
  exact congrArg Output.emitted loop_output

theorem emitted_ptsMs (distance : S → S → ℚ) (capture : Capture S) (previewOnly : Bool)
    (hvalid : plan.validate = .ok ()) :
    (decodeVideo distance plan capture previewOnly).emitted.map (·.ptsMs) =
      bump (-1) (takenPositions distance plan capture previewOnly) := by
  rw [decodeVideo_emitted hvalid, (foldl_emit _ _).1, List.map_map]
  rfl

theorem length_emitted (hvalid : plan.validate = .ok ()) :
    (decodeVideo distance plan capture previewOnly).emitted.length =
      (takenFrames distance plan capture previewOnly).length := by
  have hids := (foldl_emit .initial
    ((takenFrames distance plan capture previewOnly).map (takenOf capture.effectiveFps))).2.2.1
  rw [decodeVideo_emitted hvalid]
  simpa [Output.initial] using congrArg List.length hids

theorem emitted_index (hvalid : plan.validate = .ok ()) :
    (decodeVideo distance plan capture previewOnly).emitted.map (·.index) =
      List.range (decodeVideo distance plan capture previewOnly).emitted.length := by
  rw [length_emitted hvalid, decodeVideo_emitted hvalid, (foldl_emit _ _).2.1, List.length_map,
    List.range_eq_range']
  rfl

theorem finish_sampledUnits {finished : Finished S} {metadata : Metadata}
    (h : finish plan capture finished = .ok metadata) :
    metadata.sampledUnits = finished.output.sampledUnits := by
  unfold finish at h
  split at h
  · cases h
  · split at h
    · cases h
    · cases h
      rfl

theorem counted_emitted (hvalid : plan.validate = .ok ()) {metadata : Metadata}
    (h : (decodeVideo distance plan capture previewOnly).result = .ok metadata) :
    metadata.sampledUnits = (decodeVideo distance plan capture previewOnly).emitted.length := by
  have hresult : (decodeVideo distance plan capture previewOnly).result =
      finish plan capture (sampled distance plan capture previewOnly) := by
    unfold decodeVideo
    rw [hvalid]
  rw [hresult] at h
  have hcount := (foldl_emit .initial
    ((takenFrames distance plan capture previewOnly).map (takenOf capture.effectiveFps))).2.2.2
  have houtput : (sampled distance plan capture previewOnly).output =
      ((takenFrames distance plan capture previewOnly).map (takenOf capture.effectiveFps)).foldl
        Output.emit .initial := loop_output
  rw [finish_sampledUnits h, houtput, hcount, length_emitted hvalid, List.length_map]
  exact Nat.zero_add _

theorem le_bump_iff {lo : Int} {ps : List Int} (hps : ∀ p ∈ ps, 0 ≤ p) :
    (∀ q ∈ bump (-1) ps, lo ≤ q) ↔ ∀ p ∈ ps.head?, lo ≤ p := by
  cases ps with
  | nil => simp [bump]
  | cons p =>
    have hp : max p (-1 + 1) = p := by
      have hnonneg := hps p List.mem_cons_self
      omega
    rw [bump, hp, List.forall_mem_cons]
    simp only [List.head?_cons, Option.mem_def, Option.some.injEq, forall_eq']
    refine and_iff_left_of_imp fun hlo q hq => ?_
    have hlt := bump_gt q hq
    omega

theorem inside_iff_within (hvalid : plan.validate = .ok ()) :
    Inside plan (decodeVideo distance plan capture previewOnly) ↔
      Within plan (takenPositions distance plan capture previewOnly) := by
  have hpts := emitted_ptsMs distance capture previewOnly hvalid
  have hnonneg := takenPositions_nonneg distance plan capture previewOnly
  have hroom : ∀ hi, (∀ q ∈ bump (-1) (takenPositions distance plan capture previewOnly), q ≤ hi) ↔
      Room hi (takenPositions distance plan capture previewOnly) := by
    intro _
    rw [bump_le_iff]
    refine and_iff_right_of_imp fun hroom _ => ?_
    cases hps : takenPositions distance plan capture previewOnly with
    | nil => contradiction
    | cons p =>
      rw [hps] at hroom hnonneg
      have hp := hnonneg p List.mem_cons_self
      have hle := hroom.1
      rw [List.length_cons]
      omega
  have hwindow : (∀ unit ∈ (decodeVideo distance plan capture previewOnly).emitted,
      plan.startMs ≤ unit.ptsMs ∧ ∀ endMs ∈ plan.endMs, unit.ptsMs ≤ endMs) ↔
        Within plan (takenPositions distance plan capture previewOnly) := by
    have hfirst : (∀ p ∈ (takenPositions distance plan capture previewOnly).head?,
        plan.startMs ≤ p) ↔
        ∀ unit ∈ (decodeVideo distance plan capture previewOnly).emitted,
          plan.startMs ≤ unit.ptsMs := by
      rw [← le_bump_iff hnonneg, ← hpts, List.forall_mem_map]
    have hlast : ∀ endMs, Room endMs (takenPositions distance plan capture previewOnly) ↔
        ∀ unit ∈ (decodeVideo distance plan capture previewOnly).emitted, unit.ptsMs ≤ endMs := by
      intro endMs
      rw [← hroom, ← hpts, List.forall_mem_map]
    constructor
    · exact fun h => ⟨hfirst.2 fun unit hunit => (h unit hunit).1, fun endMs hend =>
        (hlast endMs).2 fun unit hunit => (h unit hunit).2 endMs hend⟩
    · exact fun h unit hunit => ⟨hfirst.1 h.first unit hunit, fun endMs hend =>
        (hlast endMs).1 (h.room endMs hend) unit hunit⟩
  rw [← hwindow]
  refine ⟨Inside.window, fun h => ⟨h, emitted_index hvalid, hpts ▸ bump_increasing,
    fun metadata hresult =>
    counted_emitted hvalid hresult⟩⟩

end Window

/-! ## The cells of the grid -/

section Cells

variable {S : Type} (plan : SamplePlan) (fps : ℚ)

/-- `start_ms + k * sample_interval_ms`. -/
def SamplePlan.edge (k : Nat) : Int := plan.startMs + k * plan.sampleIntervalMs

/-- The frame is in a cell of the grid, and in the window. -/
def InCell (k : Nat) (frame : Frame S) : Prop :=
  plan.edge k ≤ capturePositionMs fps frame ∧ capturePositionMs fps frame < plan.edge (k + 1) ∧
    ∀ endMs ∈ plan.endMs, capturePositionMs fps frame ≤ endMs
  deriving Decidable

/-- The first frame of each of the cells from `c` on, with how many frames were read up to it. -/
def firsts (c n : Nat) (frames : List (Frame S × Nat)) : List (Frame S × Nat) :=
  (List.range' c n).filterMap fun k => frames.find? fun taken => InCell plan fps k taken.1

variable {plan fps} {c d n : Nat} {frame : Frame S} {frames : List (Frame S × Nat)}

theorem edge_succ (k : Nat) : plan.edge (k + 1) = plan.edge k + plan.sampleIntervalMs := by
  unfold SamplePlan.edge
  push_cast
  ring

theorem edge_mono (hpos : 1 ≤ plan.sampleIntervalMs) (h : c ≤ d) : plan.edge c ≤ plan.edge d := by
  induction h with
  | refl => exact le_refl _
  | step =>
    rw [edge_succ]
    omega

theorem firsts_eq_nil (h : ∀ k, c ≤ k → k < c + n → ∀ taken ∈ frames, ¬InCell plan fps k taken.1) :
    firsts plan fps c n frames = [] := by
  unfold firsts
  rw [List.filterMap_eq_nil_iff]
  intro k hk
  obtain ⟨hge, hlt⟩ := List.mem_range'_1.1 hk
  rw [List.find?_eq_none]
  intro taken htaken
  simpa using h k hge hlt taken htaken

theorem firsts_cons_of_not {taken : Frame S × Nat} (h : ∀ k, c ≤ k → ¬InCell plan fps k taken.1) :
    firsts plan fps c n (taken :: frames) = firsts plan fps c n frames := by
  refine List.filterMap_congr fun k hk => ?_
  rw [List.find?_cons, decide_eq_false (h k (List.mem_range'_1.1 hk).1)]

theorem firsts_cons (taken : Frame S × Nat) (hpos : 1 ≤ plan.sampleIntervalMs) (hcd : c ≤ d)
    (hdn : d < c + n) (hin : InCell plan fps d taken.1)
    (hle : ∀ t ∈ frames, capturePositionMs fps taken.1 ≤ capturePositionMs fps t.1) :
    firsts plan fps c n (taken :: frames) =
      taken :: firsts plan fps (d + 1) (c + n - (d + 1)) frames := by
  have hsplit : List.range' c n =
      List.range' c (d - c) ++ d :: List.range' (d + 1) (c + n - (d + 1)) := by
    have hcons : d :: List.range' (d + 1) (c + n - (d + 1)) = List.range' d (c + n - d) := by
      have hlength : c + n - d = c + n - (d + 1) + 1 := by omega
      rw [hlength, List.range'_succ]
    have happend := List.range'_append_1 (s := c) (m := d - c) (n := c + n - d)
    rw [hcons]
    have hd : c + (d - c) = d := by omega
    have hn : d - c + (c + n - d) = n := by omega
    rw [hd, hn] at happend
    exact happend.symm
  have hbefore : firsts plan fps c (d - c) (taken :: frames) = [] := by
    refine firsts_eq_nil fun k _ hlt t ht hcell => ?_
    have hge : capturePositionMs fps taken.1 ≤ capturePositionMs fps t.1 := by
      rcases List.mem_cons.1 ht with rfl | ht
      · exact le_refl _
      · exact hle t ht
    have hedge : plan.edge (k + 1) ≤ plan.edge d := edge_mono hpos (by omega)
    have hhigh := hcell.2.1
    have hlow := hin.1
    omega
  have hafter : firsts plan fps (d + 1) (c + n - (d + 1)) (taken :: frames) =
      firsts plan fps (d + 1) (c + n - (d + 1)) frames := by
    refine firsts_cons_of_not fun k hk hcell => ?_
    have hedge : plan.edge (d + 1) ≤ plan.edge k := edge_mono hpos hk
    have hhigh := hin.2.1
    have hlow := hcell.1
    omega
  rw [← hafter]
  unfold firsts at hbefore ⊢
  rw [hsplit, List.filterMap_append, hbefore, List.nil_append, List.filterMap_cons, List.find?_cons,
    decide_eq_true hin]

theorem advance_edge (hpos : 1 ≤ plan.sampleIntervalMs) {elapsed : Int} {fuel : Nat}
    (hle : plan.edge c ≤ elapsed) (hfuel : elapsed + 1 - plan.edge c ≤ fuel) :
    ∃ d, c ≤ d ∧ advance plan.sampleIntervalMs elapsed fuel (plan.edge c) = plan.edge (d + 1) ∧
      plan.edge d ≤ elapsed ∧ elapsed < plan.edge (d + 1) := by
  induction fuel generalizing c with
  | zero => omega
  | succ fuel ih =>
    rw [advance, if_pos hle, ← edge_succ]
    by_cases hnext : plan.edge (c + 1) ≤ elapsed
    · have hsucc : plan.edge (c + 1) = plan.edge c + plan.sampleIntervalMs := edge_succ c
      obtain ⟨d, _, hrest⟩ := ih hnext (by push_cast at hfuel; omega)
      exact ⟨d, by omega, hrest⟩
    · refine ⟨c, le_refl c, ?_, hle, by omega⟩
      cases fuel with
      | zero => rfl
      | succ => rw [advance, if_neg hnext]

theorem choice_interval {distance : S → S → ℚ} {seekUsed : Bool} {selection : Selection S}
    (hinterval : plan.strategy = .interval) :
    choice distance plan fps seekUsed selection frame =
      if ¬seekUsed ∧ 0 < plan.startMs ∧ capturePositionMs fps frame < plan.startMs then
        .skip { selection with frameIndex := selection.frameIndex + 1 }
      else if plan.endMs.any (· < capturePositionMs fps frame) then
        .stop { selection with frameIndex := selection.frameIndex + 1 } .sampleWindowCompleted
      else if selection.nextIntervalMs ≤ capturePositionMs fps frame then
        { selection with
          frameIndex := selection.frameIndex + 1
          nextIntervalMs := advance plan.sampleIntervalMs (capturePositionMs fps frame)
            (capturePositionMs fps frame + 1 - selection.nextIntervalMs).toNat
            selection.nextIntervalMs }.taking frame
      else .skip { selection with frameIndex := selection.frameIndex + 1 } := by
  unfold choice select
  rw [hinterval]

/-- **The frames taken** under the `interval` strategy are the first ones of the cells that are
left, up to one that may not be decoded. -/
theorem chosen_interval {distance : S → S → ℚ} {seekUsed : Bool} {selection : Selection S}
    {frames : List (Frame S)} (hinterval : plan.strategy = .interval)
    (hpos : 1 ≤ plan.sampleIntervalMs) (hnext : selection.nextIntervalMs = plan.edge c)
    (hforward : (frames.map (capturePositionMs fps)).Pairwise (· ≤ ·))
    (hbound : ∀ frame ∈ frames, (∀ endMs ∈ plan.endMs, capturePositionMs fps frame ≤ endMs) →
      capturePositionMs fps frame < plan.edge (c + n)) :
    chosen distance plan fps seekUsed false selection frames =
      (firsts plan fps c n (frames.zipIdx (selection.frameIndex + 1))).takeWhile fun taken =>
        taken.1.Safe := by
  induction frames generalizing selection c n with
  | nil => rw [List.zipIdx_nil, firsts_eq_nil (by simp), chosen, List.takeWhile_nil]
  | cons frame frames ih =>
    rw [List.map_cons, List.pairwise_cons] at hforward
    have hlater : ∀ t ∈ frames.zipIdx (selection.frameIndex + 1 + 1),
        capturePositionMs fps frame ≤ capturePositionMs fps t.1 := fun t ht =>
      hforward.1 _ (List.mem_map_of_mem (List.fst_mem_of_mem_zipIdx ht))
    have hrest := fun frame hmem => hbound frame (List.mem_cons_of_mem _ hmem)
    rw [List.zipIdx_cons, chosen, choice_interval hinterval]
    simp only [Bool.false_eq_true, if_false]
    have hstart : plan.startMs ≤ plan.edge c := by
      have hzero : plan.edge 0 = plan.startMs := by simp [SamplePlan.edge]
      exact hzero ▸ edge_mono hpos (Nat.zero_le c)
    split_ifs with hearly hend hdue
    · -- The frame is before the window.
      rw [firsts_cons_of_not fun k hk hcell => ?_]
      · exact ih hnext hforward.2 hrest
      · have hedge := edge_mono hpos hk
        have hlow : plan.edge k ≤ capturePositionMs fps frame := hcell.1
        omega
    · -- The frame is past the window, and so are those after it.
      obtain ⟨endMs, hendMs, hlt⟩ := (Option.any_eq_true _ _).1 hend
      have hlt := of_decide_eq_true hlt
      rw [firsts_eq_nil, List.takeWhile_nil]
      intro k _ _ t ht hcell
      have hge : capturePositionMs fps frame ≤ capturePositionMs fps t.1 := by
        rcases List.mem_cons.1 ht with rfl | ht
        · exact le_refl _
        · exact hlater t ht
      have hle := hcell.2.2 endMs hendMs
      omega
    · -- The frame is in the cell `d`.
      rw [hnext] at hdue ⊢
      obtain ⟨d, hcd, hadvance, hlow, hhigh⟩ := advance_edge hpos hdue (Int.self_le_toNat _)
      have hwindow : ∀ endMs ∈ plan.endMs, capturePositionMs fps frame ≤ endMs := by
        intro endMs hendMs
        by_contra hlt
        exact hend ((Option.any_eq_true _ _).2 ⟨endMs, hendMs, decide_eq_true (by omega)⟩)
      have hdn : d < c + n := by
        by_contra hge
        have hedge : plan.edge (c + n) ≤ plan.edge d := edge_mono hpos (by omega)
        have hlt := hbound frame List.mem_cons_self hwindow
        omega
      rw [hadvance, firsts_cons (frame, selection.frameIndex + 1) hpos hcd hdn
        ⟨hlow, hhigh, hwindow⟩ hlater]
      unfold Selection.taking
      by_cases hsafe : frame.Safe
      · rw [if_pos hsafe]
        simp only [List.takeWhile_cons, hsafe, decide_true, if_true]
        have hn : d + 1 + (c + n - (d + 1)) = c + n := by omega
        rw [← hn] at hrest
        refine congrArg (List.cons (frame, selection.frameIndex + 1)) ?_
        refine ih (c := d + 1) (n := c + n - (d + 1)) ?_ hforward.2 hrest
        rfl
      · rw [if_neg hsafe, List.takeWhile_cons, decide_eq_false hsafe]
        rfl
    · -- The cell of the frame has one before it.
      rw [firsts_cons_of_not fun k hk hcell => ?_]
      · exact ih hnext hforward.2 hrest
      · have hedge := edge_mono hpos hk
        have hlow : plan.edge k ≤ capturePositionMs fps frame := hcell.1
        omega

theorem firsts_increasing (hpos : 1 ≤ plan.sampleIntervalMs) (frames : List (Frame S × Nat)) :
    ((firsts plan fps c n frames).map fun taken => capturePositionMs fps taken.1).Pairwise
      (· < ·) := by
  unfold firsts
  rw [List.pairwise_map, List.pairwise_filterMap]
  refine (List.pairwise_lt_range' (s := c) (n := n)).imp fun {k l} hkl t ht u hu => ?_
  have hcell : InCell plan fps k t.1 := by simpa using List.find?_some ht
  have hcell' : InCell plan fps l u.1 := by simpa using List.find?_some hu
  have hedge : plan.edge (k + 1) ≤ plan.edge l := edge_mono hpos hkl
  have hhigh := hcell.2.1
  have hlow := hcell'.1
  omega

end Cells

section Interval

variable {S : Type} {distance : S → S → ℚ} {plan : SamplePlan} {fps : ℚ} {seekUsed : Bool}
  {capture : Capture S} {previewOnly : Bool}

/-- The unit of a frame, as the `i`-th one. -/
def unitOf (fps : ℚ) (taken : (Frame S × Nat) × Nat) : DecodedMediaUnit :=
  ⟨"frame_" ++ toString (captureFrameNumber taken.1.1 (taken.1.2 - 1)), taken.2,
    capturePositionMs fps taken.1.1⟩

/-- A preview is of the first frame only. -/
def kept {α : Type} (previewOnly : Bool) (xs : List α) :
    List α := if previewOnly then xs.take 1 else xs

theorem chosen_kept (selection : Selection S) (frames : List (Frame S)) :
    chosen distance plan fps seekUsed previewOnly selection frames =
      kept previewOnly (chosen distance plan fps seekUsed false selection frames) := by
  cases previewOnly with
  | false => rfl
  | true =>
    induction frames generalizing selection with
    | nil => rfl
    | cons frame _ ih =>
      unfold chosen
      cases choice distance plan fps seekUsed selection frame with
      | skip selection => exact ih selection
      | stop | take => rfl

theorem kept_sublist {α : Type} (xs : List α) : (kept previewOnly xs).Sublist xs := by
  unfold kept
  split
  · exact List.take_sublist 1 xs
  · exact List.Sublist.refl xs

theorem foldl_emit_increasing (out : Output) {taken : List (Frame S × Nat)}
    (hlast : ∀ t ∈ taken, out.lastOutputPtsMs < capturePositionMs fps t.1)
    (hincreasing : (taken.map fun t => capturePositionMs fps t.1).Pairwise (· < ·)) :
    ((taken.map (takenOf fps)).foldl Output.emit out).emitted =
      out.emitted ++ (taken.zipIdx out.sampledUnits).map (unitOf fps) := by
  induction taken generalizing out with
  | nil => simp
  | cons t taken ih =>
    have hmax : max (capturePositionMs fps t.1) (out.lastOutputPtsMs + 1) =
        capturePositionMs fps t.1 := by
      have hlt := hlast t List.mem_cons_self
      omega
    rw [List.map_cons, List.pairwise_cons] at hincreasing
    rw [List.map_cons, List.foldl_cons, ih]
    · simp [Output.emit, takenOf, Frame.taken, unitOf, hmax]
    · intro u hu
      show max (capturePositionMs fps t.1) (out.lastOutputPtsMs + 1) < capturePositionMs fps u.1
      rw [hmax]
      exact hincreasing.1 _ (List.mem_map_of_mem hu)
    · exact hincreasing.2

theorem validate_interval (hvalid : plan.validate = .ok ()) : 1 ≤ plan.sampleIntervalMs := by
  unfold SamplePlan.validate at hvalid
  by_contra hlt
  rw [if_pos (by omega)] at hvalid
  cases hvalid

theorem takenFrames_interval (distance : S → S → ℚ) (previewOnly : Bool)
    (hvalid : plan.validate = .ok ()) (hinterval : plan.strategy = .interval)
    (hforward : capture.Forward) {n : Nat} (hbound : ∀ frame ∈ capture.frames,
      (∀ endMs ∈ plan.endMs, capturePositionMs capture.effectiveFps frame ≤ endMs) →
        capturePositionMs capture.effectiveFps frame < plan.edge n) :
    takenFrames distance plan capture previewOnly =
      kept previewOnly ((firsts plan capture.effectiveFps 0 n (capture.frames.zipIdx 1)).takeWhile
        fun taken => taken.1.Safe) := by
  unfold takenFrames
  rw [chosen_kept, chosen_interval (c := 0) (n := n) hinterval (validate_interval hvalid) ?_
    hforward]
  · rfl
  · rwa [Nat.zero_add]
  · simp [Selection.initial, SamplePlan.edge]

theorem takenPositions_increasing (distance : S → S → ℚ) (previewOnly : Bool)
    (hvalid : plan.validate = .ok ())
    (hinterval : plan.strategy = .interval) (hforward : capture.Forward) {n : Nat}
    (hbound : ∀ frame ∈ capture.frames,
      (∀ endMs ∈ plan.endMs, capturePositionMs capture.effectiveFps frame ≤ endMs) →
        capturePositionMs capture.effectiveFps frame < plan.edge n) :
    (takenPositions distance plan capture previewOnly).Pairwise (· < ·) := by
  unfold takenPositions
  rw [takenFrames_interval distance previewOnly hvalid hinterval hforward hbound]
  exact (firsts_increasing (validate_interval hvalid) _).sublist
    (((kept_sublist _).trans (List.takeWhile_sublist _)).map _)

theorem length_takenFrames_le (distance : S → S → ℚ) (previewOnly : Bool)
    (hvalid : plan.validate = .ok ())
    (hinterval : plan.strategy = .interval) (hforward : capture.Forward) {n : Nat}
    (hbound : ∀ frame ∈ capture.frames,
      (∀ endMs ∈ plan.endMs, capturePositionMs capture.effectiveFps frame ≤ endMs) →
        capturePositionMs capture.effectiveFps frame < plan.edge n) :
    (takenFrames distance plan capture previewOnly).length ≤ n := by
  rw [takenFrames_interval distance previewOnly hvalid hinterval hforward hbound]
  calc (kept previewOnly _).length
      ≤ (firsts plan capture.effectiveFps 0 n (capture.frames.zipIdx 1)).length :=
        ((kept_sublist _).trans (List.takeWhile_sublist _)).length_le
    _ ≤ (List.range' 0 n).length := List.length_filterMap_le _ _
    _ = n := List.length_range'

/-- `window_end_ms`. -/
def windowEndMs (plan : SamplePlan) (durationMs : Int) : Int :=
  match plan.endMs with
  | none => durationMs
  | some endMs => min durationMs endMs

theorem estimatedSampleCount_interval (hinterval : plan.strategy = .interval)
    (frameCount durationMs : Int) (fps : ℚ) :
    estimatedSampleCount plan frameCount durationMs fps =
      if 0 < durationMs then
        some (max 1 (max 0 (windowEndMs plan durationMs - plan.startMs) / plan.sampleIntervalMs +
          1))
      else none := by
  unfold estimatedSampleCount windowEndMs
  rw [hinterval]
  rfl

theorem windowEnd_lt_edge (hpos : 1 ≤ plan.sampleIntervalMs) (windowEnd : Int) :
    windowEnd < plan.edge ((max 0 (windowEnd - plan.startMs)) / plan.sampleIntervalMs +
      1).toNat := by
  have hnonneg : 0 ≤ max 0 (windowEnd - plan.startMs) / plan.sampleIntervalMs :=
    Int.ediv_nonneg (le_max_left _ _) (by omega)
  have hlt := Int.lt_ediv_add_one_mul_self (max 0 (windowEnd - plan.startMs)) (b :=
    plan.sampleIntervalMs) (by omega)
  unfold SamplePlan.edge
  rw [Int.toNat_of_nonneg (by omega)]
  omega

/-- **Interval sampling** takes the first frame of each cell of the grid that has one in the window,
at the position of the frame and up to a frame that may not be decoded. There is an estimate exactly
when the duration is known, and it is not exceeded if no frame is past the duration. -/
theorem sampled_cells (distance : S → S → ℚ) (plan : SamplePlan) (capture : Capture S)
    (previewOnly : Bool) (hvalid : plan.validate = .ok ()) (hinterval : plan.strategy = .interval)
    (hforward : capture.Forward) :
    (∀ n, (∀ frame ∈ capture.frames, capturePositionMs capture.effectiveFps frame < plan.edge n) →
      (decodeVideo distance plan capture previewOnly).emitted =
        (kept previewOnly ((firsts plan capture.effectiveFps 0 n
          (capture.frames.zipIdx 1)).takeWhile
          fun taken => taken.1.Safe)).zipIdx.map (unitOf capture.effectiveFps)) ∧
    ((decodeVideo distance plan capture previewOnly).estimatedUnits.isSome = true ↔
      0 < capture.durationMs) ∧
    ((∀ frame ∈ capture.frames, capturePositionMs capture.effectiveFps frame ≤ capture.durationMs) →
      ∀ expected ∈ (decodeVideo distance plan capture previewOnly).estimatedUnits,
        ((decodeVideo distance plan capture previewOnly).emitted.length : Int) ≤ expected) := by
  have hpos := validate_interval hvalid
  have hestimated : (decodeVideo distance plan capture previewOnly).estimatedUnits =
      estimatedSampleCount plan capture.knownFrames capture.durationMs capture.effectiveFps := by
    unfold decodeVideo
    rw [hvalid]
  rw [hestimated, estimatedSampleCount_interval hinterval]
  refine ⟨?_, ?_, ?_⟩
  · intro n hn
    have hbound := fun frame hmem (_ : ∀ endMs ∈ plan.endMs,
      capturePositionMs capture.effectiveFps frame ≤ endMs) => hn frame hmem
    have hincreasing := takenPositions_increasing distance previewOnly hvalid hinterval
        hforward hbound
    rw [decodeVideo_emitted hvalid, foldl_emit_increasing .initial (fun t _ => ?_) hincreasing,
      takenFrames_interval distance previewOnly hvalid hinterval hforward hbound]
    · rfl
    · have hnonneg := capturePositionMs_nonneg capture.effectiveFps t.1
      exact lt_of_lt_of_le (by decide) hnonneg
  · by_cases hknown : 0 < capture.durationMs
    · simp [hknown]
    · simp [hknown]
  · intro hduration _ hexpected
    rw [Option.mem_def] at hexpected
    split at hexpected
    · have hwindow : ∀ frame ∈ capture.frames,
          (∀ endMs ∈ plan.endMs, capturePositionMs capture.effectiveFps frame ≤ endMs) →
            capturePositionMs capture.effectiveFps frame ≤ windowEndMs plan capture.durationMs := by
        intro frame hmem hend
        have hle := hduration frame hmem
        unfold windowEndMs
        cases hendMs : plan.endMs with
        | none => exact hle
        | some endMs => exact le_min hle (hend endMs hendMs)
      have hbound := fun frame hmem hend => (hwindow frame hmem hend).trans_lt
        (windowEnd_lt_edge hpos (windowEndMs plan capture.durationMs))
      have hle := length_takenFrames_le distance previewOnly hvalid hinterval hforward hbound
      rw [Option.some.injEq] at hexpected
      rw [length_emitted hvalid, ← hexpected]
      omega
    · cases hexpected

end Interval

/-! ## What the strategies select -/

section Rules

variable {S : Type} (distance : S → S → ℚ) (plan : SamplePlan) (fps : ℚ) (seekUsed : Bool)

/-- The frames of the window: those not before it, unless a seek was accepted, up to the first one
that is past it. -/
def inWindow (frames : List (Frame S)) : List (Frame S) :=
  (frames.filter fun frame => seekUsed ∨ plan.startMs ≤ capturePositionMs fps frame).takeWhile
    fun frame => plan.endMs.all (capturePositionMs fps frame ≤ ·)

/-- The keyframes, up to a frame of unknown type. -/
def keyframes (frames : List (Frame S)) : List (Frame S) :=
  (frames.takeWhile (·.isKeyframe.isSome)).filter (·.isKeyframe = some true)

/-- The first frame, and each that differs from the one selected before it. -/
def sceneChanges (threshold : ℚ) : Option S → List (Frame S) → List (Frame S)
  | _, [] => []
  | previous, frame :: frames =>
    if previous.all (threshold ≤ distance · frame.signature) then
      frame :: sceneChanges threshold (some frame.signature) frames
    else sceneChanges threshold previous frames

/-- What a strategy other than `interval` selects of the frames of the window. -/
def ofStrategy (previous : Option S) (frames : List (Frame S)) : List (Frame S) :=
  match plan.strategy with
  | .keyframe => keyframes frames
  | .sceneChange => sceneChanges distance plan.sceneChangeThreshold previous frames
  | .uniform | .interval => frames

/-- Under the `interval` strategy nothing is asked. Under another one, what it selects, up to a
frame that may not be decoded, is to stay in the window. -/
def Fits (capture : Capture S) (previewOnly : Bool) : Prop :=
  plan.strategy = .interval ∨
    Within plan ((kept previewOnly
      ((ofStrategy distance plan none (inWindow plan capture.effectiveFps
      (Sampling.seekUsed plan capture) capture.frames)).takeWhile fun frame => frame.Safe)).map
        (capturePositionMs capture.effectiveFps))

variable {distance plan fps seekUsed} {capture : Capture S} {previewOnly : Bool} {frame : Frame S}
  {frames : List (Frame S)}

theorem inWindow_cons : inWindow plan fps seekUsed (frame :: frames) =
    if ¬seekUsed ∧ 0 < plan.startMs ∧ capturePositionMs fps frame < plan.startMs then
      inWindow plan fps seekUsed frames
    else if plan.endMs.any (· < capturePositionMs fps frame) then []
    else frame :: inWindow plan fps seekUsed frames := by
  have hnonneg := capturePositionMs_nonneg fps frame
  have hearly : (¬seekUsed ∧ 0 < plan.startMs ∧ capturePositionMs fps frame < plan.startMs) ↔
      ¬(seekUsed = true ∨ plan.startMs ≤ capturePositionMs fps frame) := by
    rw [not_or, not_le]
    exact and_congr_right fun _ => and_iff_right_of_imp hnonneg.trans_lt
  have hlate : plan.endMs.any (· < capturePositionMs fps frame) = true ↔
      ¬plan.endMs.all (capturePositionMs fps frame ≤ ·) = true := by
    cases plan.endMs <;> simp
  unfold inWindow
  rw [List.filter_cons]
  by_cases h : seekUsed = true ∨ plan.startMs ≤ capturePositionMs fps frame
  · rw [if_neg (hearly.not.2 (not_not.2 h)), if_pos (decide_eq_true h), List.takeWhile_cons]
    by_cases hend : plan.endMs.all (capturePositionMs fps frame ≤ ·) = true
    · rw [if_neg (hlate.not.2 (not_not.2 hend)), if_pos hend]
    · rw [if_pos (hlate.2 hend), if_neg hend]
  · rw [if_pos (hearly.2 h), if_neg (by simpa using h)]

theorem map_fst_chosen (hplan : plan.strategy ≠ .interval) (selection : Selection S)
    (frames : List (Frame S)) :
    (chosen distance plan fps seekUsed false selection frames).map Prod.fst =
      (ofStrategy distance plan selection.previousSignature
        (inWindow plan fps seekUsed frames)).takeWhile fun frame => frame.Safe := by
  induction frames generalizing selection with
  | nil =>
    unfold ofStrategy
    cases plan.strategy <;> rfl
  | cons frame frames ih =>
    rw [inWindow_cons]
    unfold chosen choice
    simp only [Bool.false_eq_true, if_false]
    split_ifs with hearly hend
    · exact ih _
    · unfold ofStrategy
      cases plan.strategy <;> rfl
    · -- The frame is in the window: each strategy by its rule.
      have htaking : ∀ next : Selection S, (match next.taking frame with
            | .skip next => chosen distance plan fps seekUsed false next frames
            | .stop _ _ => []
            | .take next => (frame, next.frameIndex) ::
                chosen distance plan fps seekUsed false next frames).map Prod.fst =
            (frame :: ofStrategy distance plan next.previousSignature
              (inWindow plan fps seekUsed frames)).takeWhile fun frame => frame.Safe := by
        intro next
        unfold Selection.taking
        by_cases hsafe : frame.Safe
        · rw [if_pos hsafe, List.takeWhile_cons, if_pos (decide_eq_true hsafe)]
          exact congrArg (frame :: ·) (ih next)
        · rw [if_neg hsafe, List.takeWhile_cons, decide_eq_false hsafe]
          rfl
      unfold select
      unfold ofStrategy at ih htaking ⊢
      cases hstrategy : plan.strategy with
      | interval => exact absurd hstrategy hplan
      | uniform =>
        simp only [hstrategy, Nat.mod_one, if_true] at htaking ⊢
        exact htaking _
      | keyframe =>
        simp only [hstrategy] at htaking ih ⊢
        unfold keyframes at htaking ih ⊢
        rw [List.takeWhile_cons]
        cases hkeyframe : frame.isKeyframe with
        | none => rfl
        | some isKeyframe =>
          cases isKeyframe with
          | false => simpa [hkeyframe] using ih _
          | true => simpa [hkeyframe] using htaking _
      | sceneChange =>
        simp only [hstrategy] at htaking ih ⊢
        rw [sceneChanges]
        cases hprevious : selection.previousSignature with
        | none => exact htaking _
        | some previous =>
          simp only [Option.all_some, decide_eq_true_eq]
          split_ifs with hchange
          · exact htaking _
          · have hrest := ih { selection with frameIndex := selection.frameIndex + 1 }
            rw [hprevious] at hrest
            exact hrest

theorem kept_map {α β : Type} (f : α → β) (xs : List α) :
    (kept previewOnly xs).map f = kept previewOnly (xs.map f) := by
  unfold kept
  split
  · exact List.map_take
  · rfl

theorem takenPositions_eq (hplan : plan.strategy ≠ .interval) :
    takenPositions distance plan capture previewOnly =
      (kept previewOnly ((ofStrategy distance plan none (inWindow plan capture.effectiveFps
        (Sampling.seekUsed plan capture) capture.frames)).takeWhile fun frame => frame.Safe)).map
          (capturePositionMs capture.effectiveFps) := by
  have hfst : takenPositions distance plan capture previewOnly =
      ((takenFrames distance plan capture previewOnly).map Prod.fst).map
        (capturePositionMs capture.effectiveFps) := by
    rw [List.map_map]
    rfl
  rw [hfst, takenFrames, chosen_kept, kept_map, map_fst_chosen hplan]
  rfl

theorem exists_edge (hpos : 1 ≤ plan.sampleIntervalMs) (frames : List (Frame S)) :
    ∃ n, ∀ frame ∈ frames, capturePositionMs fps frame < plan.edge n := by
  induction frames with
  | nil => exact ⟨0, nofun⟩
  | cons frame _ ih =>
    obtain ⟨n, hn⟩ := ih
    have hlt := windowEnd_lt_edge hpos (capturePositionMs fps frame)
    set m := (max 0 (capturePositionMs fps frame - plan.startMs) / plan.sampleIntervalMs + 1).toNat
    refine ⟨max m n, List.forall_mem_cons.2 ⟨?_, fun frame hmem => ?_⟩⟩
    · exact hlt.trans_le (edge_mono hpos (le_max_left m n))
    · exact (hn frame hmem).trans_le (edge_mono hpos (le_max_right m n))

theorem within_interval (hvalid : plan.validate = .ok ()) (hinterval : plan.strategy = .interval)
    (hforward : capture.Forward) :
    Within plan (takenPositions distance plan capture previewOnly) := by
  have hpos := validate_interval hvalid
  obtain ⟨n, hn⟩ : ∃ n, ∀ frame ∈ capture.frames,
      capturePositionMs capture.effectiveFps frame < plan.edge n := exists_edge hpos _
  have hbound := fun frame hmem (_ : ∀ endMs ∈ plan.endMs,
    capturePositionMs capture.effectiveFps frame ≤ endMs) => hn frame hmem
  have hincreasing := takenPositions_increasing distance previewOnly hvalid hinterval
      hforward hbound
  have hcell : ∀ p ∈ takenPositions distance plan capture previewOnly,
      plan.startMs ≤ p ∧ ∀ endMs ∈ plan.endMs, p ≤ endMs := by
    intro p hp
    obtain ⟨taken, htaken, rfl⟩ := List.mem_map.1 hp
    rw [takenFrames_interval distance previewOnly hvalid hinterval hforward hbound] at htaken
    have hfirst := ((kept_sublist _).trans (List.takeWhile_sublist _)).subset htaken
    obtain ⟨k, -, hfind⟩ := List.mem_filterMap.1 hfirst
    have hin : InCell plan capture.effectiveFps k taken.1 := by simpa using List.find?_some hfind
    have hzero : plan.edge 0 = plan.startMs := by simp [SamplePlan.edge]
    exact ⟨hzero ▸ (edge_mono hpos (Nat.zero_le k)).trans hin.1, hin.2.2⟩
  exact ⟨fun p hp => (hcell p (List.mem_of_mem_head? hp)).1, fun endMs hend =>
    room_of_increasing hincreasing fun p hp => (hcell p hp).2 endMs hend⟩

/-- **Sampling stays in the window** exactly when it `Fits`. -/
theorem inside_iff (distance : S → S → ℚ) (plan : SamplePlan) (capture : Capture S)
    (previewOnly : Bool) (hvalid : plan.validate = .ok ()) (hforward : capture.Forward) :
    Inside plan (decodeVideo distance plan capture previewOnly) ↔
      Fits distance plan capture previewOnly := by
  rw [inside_iff_within hvalid]
  unfold Fits
  by_cases hinterval : plan.strategy = .interval
  · exact iff_of_true (within_interval hvalid hinterval hforward) (.inl hinterval)
  · rw [or_iff_right hinterval, takenPositions_eq hinterval]

end Rules

/-! ## A seek that lands early -/

/-- A frame at a position. -/
def frameAt (positionMs : Int) : Frame Unit := ⟨0, positionMs, 0, some true, (), 64, 64⟩

/-- From the first second on. -/
def planOf (strategy : SampleStrategy) : SamplePlan := ⟨strategy, 1000, 1000, some 3000, 1, none⟩

/-- A seek is accepted, and lands before the place. -/
def earlyCapture : Capture Unit :=
  ⟨0, 0, true, [frameAt 900, frameAt 1100, frameAt 1900, frameAt 2000]⟩

/-- A seek is accepted, and lands in the window; the video lasts three seconds. -/
def landedCapture : Capture Unit := ⟨10, 30, true, [frameAt 1100, frameAt 1900, frameAt 2000]⟩

theorem inside_iff_landed :
    Inside (planOf .uniform)
      (decodeVideo (fun _ _ => 0) (planOf .uniform) landedCapture false) := by
  refine (inside_iff (fun _ _ => 0) (planOf .uniform) landedCapture false (by rfl)
    (by decide +kernel)).2 (.inr ?_)
  have hpositions : (kept false ((ofStrategy (fun _ _ => 0) (planOf .uniform) none
      (inWindow (planOf .uniform) landedCapture.effectiveFps
        (seekUsed (planOf .uniform) landedCapture)
        landedCapture.frames)).takeWhile fun frame => frame.Safe)).map
          (capturePositionMs landedCapture.effectiveFps) = [1100, 1900, 2000] := by decide +kernel
  rw [hpositions]
  exact ⟨by decide, by simp [planOf, Room]⟩

/-- **The frame before the window is put out.** -/
theorem not_inside : ¬∀ (distance : Unit → Unit → ℚ) (plan : SamplePlan) (capture : Capture Unit),
    plan.validate = .ok () → capture.Forward →
    (∀ frame ∈ capture.frames.head?, capturePositionMs capture.effectiveFps frame ≤ plan.startMs) →
    Inside plan (decodeVideo distance plan capture false) := by
  intro h
  have hinside := h (fun _ _ => 0) (planOf .uniform) earlyCapture (by rfl) (by decide +kernel)
    (by decide +kernel)
  have hunits : (decodeVideo (fun _ _ => 0) (planOf .uniform) earlyCapture false).emitted =
      [⟨"frame_0", 0, 900⟩, ⟨"frame_1", 1, 1100⟩, ⟨"frame_2", 2, 1900⟩, ⟨"frame_3", 3, 2000⟩] := by
    decide +kernel
  have hwindow := (hinside.window ⟨"frame_0", 0, 900⟩ (hunits ▸ List.mem_cons_self)).1
  exact absurd hwindow (by decide)

/-- Of the two frames of the second cell one is taken; three units are estimated. -/
theorem sampled_cells_landed :
    (decodeVideo (fun _ _ => 0) (planOf .interval) landedCapture false).emitted =
        [⟨"frame_0", 0, 1100⟩, ⟨"frame_2", 1, 2000⟩] ∧
      (decodeVideo (fun _ _ => 0) (planOf .interval) landedCapture false).estimatedUnits.isSome =
        true ∧
      ∀ expected ∈ (decodeVideo (fun _ _ => 0) (planOf .interval) landedCapture
        false).estimatedUnits,
        ((decodeVideo (fun _ _ => 0) (planOf .interval) landedCapture false).emitted.length : Int) ≤
          expected := by
  obtain ⟨hcells, hknown, hestimate⟩ :=
    sampled_cells (fun _ _ => 0) (planOf .interval) landedCapture
    false (by rfl) (by rfl) (by decide +kernel)
  exact ⟨(hcells 3 (by decide +kernel)).trans (by decide +kernel), hknown.2 (by decide +kernel),
    hestimate (by decide +kernel)⟩

/-- A grid of cells that are longer than an hour. -/
def hourPlan : SamplePlan := ⟨.interval, 3600001, 0, none, 1, none⟩

/-- **The plan is refused**, and the first frame of its first cell is not taken. -/
theorem not_sampled : ¬∀ (distance : Unit → Unit → ℚ) (plan : SamplePlan) (capture : Capture Unit),
    plan.strategy = .interval → 1 ≤ plan.sampleIntervalMs → capture.Forward →
    ∀ n, (∀ frame ∈ capture.frames, capturePositionMs capture.effectiveFps frame < plan.edge n) →
      (decodeVideo distance plan capture false).emitted.map (·.ptsMs) =
        (firsts plan capture.effectiveFps 0 n (capture.frames.zipIdx 1)).map fun taken =>
          capturePositionMs capture.effectiveFps taken.1 := by
  intro h
  have hunits := h (fun _ _ => 0) hourPlan landedCapture rfl (by decide) (by decide +kernel) 1
    (by decide +kernel)
  revert hunits
  decide +kernel

end Scenara.Media.Sampling
