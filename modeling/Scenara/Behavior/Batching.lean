import Scenara.Behavior.Model
import Scenara.Core.Slices

/-!
# The batches decide what is recognised

The loop over a batch is a map that looks one frame back, so every batch starts without the frame
before it.
-/

namespace Scenara.Behavior

open Scenara.Core
open Tracking (roundTo)

variable {I : Type} {px : Pixels I} {minConfidence : ℚ} {enable : Bool}

/-! ## One frame back -/

/-- The motion since the frame before. -/
def motionSince (px : Pixels I) (previous : Option (Frame I)) (frame : Frame I) : ℚ :=
  (previous.map Frame.image).elim 0 fun image => px.motion image frame.image

/-- The centre of the same index in the frame before. -/
def centerBefore (px : Pixels I) (previous : Option (Frame I)) (i : Nat) : Option (ℚ × ℚ) :=
  (previous.elim [] (centers px))[i]?

/-- The objects of a frame behind another. -/
def observed (px : Pixels I) (minConfidence : ℚ) (previous : Option (Frame I)) (frame : Frame I) :
    List ActionObject :=
  frameObjects px minConfidence (motionSince px previous frame)
    (previous.elim [] (centers px)) frame

theorem analyzeFrames_eq (previous : Option (Frame I)) (frames : List (Frame I)) :
    analyzeFrames px minConfidence (previous.map Frame.image) (previous.elim [] (centers px))
      frames = lookback (observed px minConfidence) previous frames := by
  induction frames generalizing previous with
  | nil => rfl
  | cons frame _ ih =>
    exact congrArg₂ List.cons rfl (ih (some frame))

/-! ## Batch by batch -/

theorem foldl_units (batches : List (List (Frame I))) (r : Recognition) :
    (batches.foldl (recognizeBatch px minConfidence enable) r).units =
      r.units ++ batches.flatMap (lookback (observed px minConfidence) none) := by
  induction batches generalizing r with
  | nil => simp
  | cons chunk _ ih =>
    rw [List.foldl_cons, ih, List.flatMap_cons, ← List.append_assoc]
    congr 1
    exact congrArg (r.units ++ ·) (analyzeFrames_eq none chunk)

theorem recognize_units (batches : List (List (Frame I))) :
    (recognize px minConfidence enable batches).units =
      batches.flatMap (lookback (observed px minConfidence) none) := by
  unfold recognize
  rw [foldl_units]
  rfl

theorem map_numbered {α β γ : Type} {f : String → α → β} {g : β → γ} {h : α → γ}
    (hgf : ∀ id x, g (f id x) = h x) (stem : String) (start : Nat) (xs : List α) :
    (numbered f stem start xs).map g = xs.map h := by
  unfold numbered
  rw [List.map_map]
  simp only [Function.comp_def, hgf]
  have hfst : xs.zipIdx.map (fun e => h e.1) = (xs.zipIdx.map Prod.fst).map h := by
    rw [List.map_map]
    rfl
  rw [hfst, List.zipIdx_map_fst]

/-- The time of an entry. -/
def ActionEntry.span (e : ActionEntry) : Span ActionType Int := ⟨e.actionType, e.ptsMs, e.ptsMs⟩

/-- The time of a stretch. -/
def Stretch.span (s : Stretch) : Span ActionType Int := ⟨s.currAction, s.startPts, s.endPts⟩

theorem stretches_span (s : Stretch) (rest : List ActionEntry) :
    (stretches s rest).map Action.span = join (s.span :: rest.map ActionEntry.span) := by
  induction rest generalizing s with
  | nil => rfl
  | cons e _ ih =>
    unfold stretches
    split_ifs with h
    · have hkey : s.span.key = e.span.key := h.symm
      rw [ih, List.map_cons, join_cons, join_cons, join_cons, ← joinCons_joinCons hkey]
      rfl
    · have hkey : s.span.key ≠ e.span.key := fun hk => h hk.symm
      rw [List.map_cons, ih, List.map_cons, join_cons, join_cons, join_cons, joinCons_of_ne hkey]
      rfl

theorem actionsOf_span (seq : List ActionEntry) :
    (actionsOf seq).map Action.span = join (seq.map ActionEntry.span) := by
  cases seq with
  | nil => rfl
  | cons e rest => exact stretches_span (.start e) rest

/-- What the joined actions read of the objects: the first type of each frame, with its time. -/
def primarySpans (frames : List (Frame I)) (seen : List (List (ActionType × ℚ × BoundingBox))) :
    List (Span ActionType Int) :=
  (frames.zip seen).filterMap fun e => e.2.head?.map fun o => ⟨o.1, e.1.ptsMs, e.1.ptsMs⟩

theorem map_actionSeq (frames : List (Frame I)) (objects : List (List ActionObject)) :
    (actionSeq frames objects).map ActionEntry.span =
      primarySpans frames (objects.map fun os => os.map ActionObject.seen) := by
  unfold actionSeq primarySpans
  rw [List.map_filterMap, List.zip_map_right, List.filterMap_map]
  refine List.filterMap_congr ?_
  rintro ⟨_, os⟩ -
  cases os with
  | nil | cons => rfl

theorem primarySpans_append {frames frames' : List (Frame I)}
    {seen seen' : List (List (ActionType × ℚ × BoundingBox))} (h : frames.length = seen.length) :
    primarySpans (frames ++ frames') (seen ++ seen') =
      primarySpans frames seen ++ primarySpans frames' seen' := by
  unfold primarySpans
  rw [List.zip_append h, List.filterMap_append]

/-- The objects of a frame behind another, as they are seen. -/
def observedSeen (px : Pixels I) (minConfidence : ℚ) (previous : Option (Frame I))
    (frame : Frame I) : List (ActionType × ℚ × BoundingBox) :=
  (observed px minConfidence previous frame).map ActionObject.seen

theorem recognize_seen (batches : List (List (Frame I))) :
    (recognize px minConfidence enable batches).seen =
      batches.flatMap (lookback (observedSeen px minConfidence) none) := by
  unfold Recognition.seen
  rw [recognize_units, List.map_flatMap]
  simp only [map_lookback]
  rfl

theorem foldl_actions (batches : List (List (Frame I))) (r : Recognition) :
    (batches.foldl (recognizeBatch px minConfidence enable) r).actions.map
      (fun act => act.toAction.span) =
      (r.actions.map fun act => act.toAction.span) ++ batches.flatMap fun chunk =>
        join (primarySpans chunk (lookback (observedSeen px minConfidence) none chunk)) := by
  induction batches generalizing r with
  | nil => simp
  | cons chunk _ ih =>
    rw [List.foldl_cons, ih, List.flatMap_cons, ← List.append_assoc]
    congr 1
    have hspan (n : Nat) (found : List Action) :
        (numbered (fun id act => ({ act with actionId := id, actionLabel := act.actionType.label } :
          BehaviorAction)) "action_" n found).map (fun act => act.toAction.span) =
          found.map Action.span :=
      map_numbered (h := Action.span) (by intro id act; rfl) _ n found
    have hloop : analyzeFrames px minConfidence none [] chunk =
        lookback (observed px minConfidence) none chunk := analyzeFrames_eq none chunk
    unfold recognizeBatch analyzeActionsAndObjects
    rw [List.map_append, hspan, actionsOf_span, map_actionSeq, hloop, map_lookback]
    rfl

theorem flatMap_primarySpans (batches : List (List (Frame I)))
    (g : List (Frame I) → List (List (ActionType × ℚ × BoundingBox)))
    (hlength : ∀ chunk, chunk.length = (g chunk).length) :
    (batches.flatMap fun chunk => primarySpans chunk (g chunk)) =
      primarySpans batches.flatten (batches.flatMap g) := by
  induction batches with
  | nil => rfl
  | cons chunk _ ih =>
    rw [List.flatMap_cons, List.flatten_cons, List.flatMap_cons,
      primarySpans_append (hlength chunk), ih]

theorem joined_recognize (batches : List (List (Frame I))) :
    (recognize px minConfidence enable batches).joined =
      join (primarySpans batches.flatten (recognize px minConfidence enable batches).seen) := by
  rw [recognize_seen, ← flatMap_primarySpans _ _ fun chunk => (length_lookback none chunk).symm,
    ← join_flatMap]
  unfold Recognition.joined recognize
  rw [foldl_actions]
  rfl

/-! ## What the frame before changes -/

/-- The displacement of the person of index `i`. -/
def movedSince (px : Pixels I) (previous : Option (Frame I)) (frame : Frame I) (e : Person × Nat) :
    ℚ × ℚ :=
  displacement px frame.image (centerBefore px previous e.2) (personBox px frame.image e.1).center

/-- The confidence of the person's action. -/
def confSince (px : Pixels I) (previous : Option (Frame I)) (frame : Frame I) (e : Person × Nat) :
    ℚ :=
  finalConf px (motionSince px previous frame) frame.image (centerBefore px previous e.2) e.1

/-- The person fell, jumped, ran or walked since the frame before, by the thresholds of the
rules. -/
def Moved (px : Pixels I) (x y : Frame I) (e : Person × Nat) : Prop :=
  ((movedSince px (some x) y e).2 > 8 / 100 ∧ (personBox px y.image e.1).aspectRatio < 12 / 10) ∨
    (movedSince px (some x) y e).2 < -5 / 100 ∨ px.motion x.image y.image > 3 / 100 ∨
    (movedSince px (some x) y e).1 > 1 / 100

/-- The objects of `y` do not tell whether `x` stood before it: whoever moved is not reported, with
the frame before it and without. -/
def Unnoticed (px : Pixels I) (minConfidence : ℚ) (x y : Frame I) : Prop :=
  ∀ e ∈ y.persons.zipIdx, ¬Moved px x y e ∨
    confSince px (some x) y e < minConfidence ∧ confSince px none y e < minConfidence

/-- The action of a person at rest. -/
def AtRest (action : ActionType) : Prop := action = .sitting ∨ action = .standing

theorem classify_rest {motionIntensity dx dy aspectRatio : ℚ}
    (hfall : ¬(dy > 8 / 100 ∧ aspectRatio < 12 / 10)) (hjump : ¬dy < -5 / 100)
    (hmotion : ¬motionIntensity > 3 / 100) (hdx : ¬dx > 1 / 100) :
    classify motionIntensity dx dy aspectRatio =
      if aspectRatio < 115 / 100 then (.sitting, 86 / 100) else (.standing, 90 / 100) := by
  have hrun : ¬(motionIntensity > 12 / 100 ∨ dx > 4 / 100) := by
    rintro (h | h)
    · exact hmotion (lt_trans (by norm_num) h)
    · exact hdx (lt_trans (by norm_num) h)
  have hwave : ¬(motionIntensity > 6 / 100 ∧ dx < 1 / 100) :=
    fun h => hmotion (lt_trans (by norm_num) h.1)
  unfold classify
  rw [if_neg hfall, if_neg hjump, if_neg hrun, if_neg (not_or.2 ⟨hmotion, hdx⟩), if_neg hwave]

theorem classify_moved {motionIntensity dx dy aspectRatio : ℚ}
    (h : (dy > 8 / 100 ∧ aspectRatio < 12 / 10) ∨ dy < -5 / 100 ∨ motionIntensity > 3 / 100 ∨
      dx > 1 / 100) : ¬AtRest (classify motionIntensity dx dy aspectRatio).1 := by
  unfold classify
  split_ifs with h₁ h₂ h₃ h₄ h₅ h₆
  all_goals simp [AtRest]
  all_goals
    rcases h with h | h | h | h
    · exact absurd h h₁
    · exact absurd h h₂
    · exact absurd (.inl h) h₄
    · exact absurd (.inr h) h₄

theorem personAction_none (image : I) (person : Person) :
    personAction px 0 image none person =
      if (personBox px image person).aspectRatio < 115 / 100 then (.sitting, 86 / 100)
      else (.standing, 90 / 100) := by
  unfold personAction displacement
  exact classify_rest (by norm_num) (by norm_num) (by norm_num) (by norm_num)

theorem personAction_rest {x y : Frame I} {e : Person × Nat} (h : ¬Moved px x y e) :
    personAction px (motionSince px (some x) y) y.image (centerBefore px (some x) e.2) e.1 =
      personAction px 0 y.image none e.1 := by
  unfold Moved at h
  push Not at h
  rw [personAction_none]
  refine classify_rest (fun hfall => ?_) ?_ ?_ ?_
  · exact absurd hfall.2 (not_lt.2 (h.1 hfall.1))
  · exact not_lt.2 h.2.1
  · exact not_lt.2 h.2.2.1
  · exact not_lt.2 h.2.2.2

/-- An object of a person, as it is seen. -/
def seenObject (px : Pixels I) (minConfidence : ℚ) (previous : Option (Frame I)) (frame : Frame I)
    (e : Person × Nat) : Option (ActionType × ℚ × BoundingBox) :=
  (personObject px minConfidence (motionSince px previous frame) frame.image
    (centerBefore px previous e.2) e.1).map ActionObject.seen

theorem observedSeen_eq (previous : Option (Frame I)) (frame : Frame I) :
    observedSeen px minConfidence previous frame =
      frame.persons.zipIdx.filterMap (seenObject px minConfidence previous frame) := by
  unfold observedSeen observed frameObjects
  rw [List.map_filterMap]
  rfl

theorem seenObject_eq (previous : Option (Frame I)) (frame : Frame I) (e : Person × Nat) :
    seenObject px minConfidence previous frame e =
      if confSince px previous frame e ≥ minConfidence then
        some ((personAction px (motionSince px previous frame) frame.image
          (centerBefore px previous e.2) e.1).1, confSince px previous frame e,
          personBox px frame.image e.1)
      else none := by
  unfold seenObject personObject confSince
  dsimp only
  split_ifs <;> rfl

theorem seenObject_none {previous : Option (Frame I)} {frame : Frame I} {e : Person × Nat} :
    seenObject px minConfidence previous frame e = none ↔
      confSince px previous frame e < minConfidence := by
  rw [seenObject_eq]
  split_ifs with h
  · simpa using h
  · simpa using h

theorem unaware_iff (x y : Frame I) :
    Unaware (observedSeen px minConfidence) x y ↔ Unnoticed px minConfidence x y := by
  unfold Unaware
  rw [observedSeen_eq, observedSeen_eq, eq_comm,
    filterMap_eq_iff (P := fun e => ¬Moved px x y e) (S := fun o => AtRest o.1)]
  · simp only [seenObject_none]
    rfl
  · intro e o ho hrest hmoved
    rw [Option.mem_def, seenObject_eq] at ho
    split_ifs at ho
    cases ho
    exact classify_moved hmoved hrest
  · intro e hrest
    have hconf : confSince px (some x) y e = confSince px none y e := by
      unfold confSince finalConf
      rw [personAction_rest hrest]
      rfl
    rw [seenObject_eq, seenObject_eq, hconf, personAction_rest hrest]
    rfl
  · intro e o ho
    rw [Option.mem_def, seenObject_eq] at ho
    split_ifs at ho
    cases ho
    show AtRest (personAction px 0 y.image none e.1).1
    rw [personAction_none]
    split_ifs
    · exact .inl rfl
    · exact .inr rfl

/-! ## Batches of one, of four, and of everything -/

theorem length_slice_le (n i : Nat) (frames : List (Frame I)) :
    (slice (i * n) (i * n + n) frames).length ≤ n := by
  unfold slice
  rw [List.length_drop, List.length_take]
  omega

theorem recognize_agrees {batches batches' : List (List (Frame I))}
    (hflatten : batches.flatten = batches'.flatten)
    (hseen : (recognize px minConfidence enable batches).seen =
      (recognize px minConfidence enable batches').seen) :
    (recognize px minConfidence enable batches).Agrees
      (recognize px minConfidence enable batches') := by
  refine ⟨hseen, ?_⟩
  rw [joined_recognize, joined_recognize, hflatten, hseen]

theorem seen_of_chain {batches : List (List (Frame I))}
    (h : batches.flatten.IsChain (Unnoticed px minConfidence)) :
    (recognize px minConfidence enable batches).seen =
      lookback (observedSeen px minConfidence) none batches.flatten := by
  rw [recognize_seen, flatMap_lookback]
  exact h.imp fun x y hxy => (unaware_iff x y).2 hxy

/-- **Batching does not matter, exactly when no frame shows what the frame before it changes.** For
every sequence of frames and detections and every `min_confidence`. -/
theorem batches_agree_iff (frames : List (Frame I)) :
    (execute px minConfidence enable .stream frames).Agrees
        (execute px minConfidence enable .video frames) ∧
      (execute px minConfidence enable .stream frames).Agrees
        (recognize px minConfidence enable [frames]) ↔
    frames.IsChain (Unnoticed px minConfidence) := by
  have hone : (slices 1 frames).flatten = frames := flatten_slices (by decide) frames
  have hfour : (slices 4 frames).flatten = frames := flatten_slices (by decide) frames
  have hall : [frames].flatten = frames := by simp
  constructor
  · rintro ⟨-, hseen, -⟩
    have hwhole : (recognize px minConfidence enable [frames]).seen =
        lookback (observedSeen px minConfidence) none frames := by
      rw [recognize_seen]
      simp
    have hsingle : (execute px minConfidence enable .stream frames).seen =
        frames.map (observedSeen px minConfidence none) := by
      unfold execute
      rw [recognize_seen, flatMap_of_length_le_one]
      · exact congrArg (List.map _) hone
      · intro _ hpart
        obtain ⟨i, -, rfl⟩ := List.mem_map.1 hpart
        exact length_slice_le 1 i frames
    rw [hsingle, hwhole, map_eq_lookback_iff] at hseen
    exact hseen.imp fun x y hxy => (unaware_iff x y).1 hxy
  · intro h
    have hseen {batches : List (List (Frame I))} (hb : batches.flatten = frames) :
        (recognize px minConfidence enable batches).seen =
          lookback (observedSeen px minConfidence) none frames := by
      rw [seen_of_chain (by rwa [hb]), hb]
    exact ⟨recognize_agrees (hone.trans hfour.symm) ((hseen hone).trans (hseen hfour).symm),
      recognize_agrees (hone.trans hall.symm) ((hseen hone).trans (hseen hall).symm)⟩

/-! ## A walker -/

/-- Images of a hundred by a hundred pixels; two different ones differ by a fifth. -/
def smallPixels : Pixels Nat where
  width _ := 100
  height _ := 100
  motion a b := if a = b then 0 else 1 / 5

/-- One person in each of two frames. -/
def walker : List (Frame Nat) :=
  [⟨0, 0, [⟨some ⟨10, 10, 40, 90⟩, some (9 / 10)⟩], by simp⟩,
    ⟨1, 200, [⟨some ⟨10, 10, 40, 90⟩, some (9 / 10)⟩], by simp⟩]

/-- **A stream shows a person standing, a video the same person running.** -/
theorem walker_lost :
    (execute smallPixels (1 / 2) false .stream walker).joined = [⟨.standing, 0, 200⟩] ∧
      (execute smallPixels (1 / 2) false .video walker).joined =
        [⟨.standing, 0, 0⟩, ⟨.running, 200, 200⟩] ∧
      ¬(execute smallPixels (1 / 2) false .stream walker).Agrees
        (execute smallPixels (1 / 2) false .video walker) := by
  have hstream : (execute smallPixels (1 / 2) false .stream walker).joined =
      [⟨.standing, 0, 200⟩] := by decide +kernel
  have hvideo : (execute smallPixels (1 / 2) false .video walker).joined =
      [⟨.standing, 0, 0⟩, ⟨.running, 200, 200⟩] := by decide +kernel
  refine ⟨hstream, hvideo, fun h => ?_⟩
  rw [Recognition.Agrees, hstream, hvideo] at h
  cases h.2

end Scenara.Behavior
