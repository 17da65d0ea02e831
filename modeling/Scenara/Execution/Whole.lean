import Scenara.Execution.Continued
import Scenara.Result.Documents

/-!
# A published result stays whole, unless it is discarded

* `Stored` is the invariant of the objects up to the discard of the sink: what an index document
  lists, and what the sink stored, is there.
* `audit_fails`: a run whose result is stored, and whose `audit.record` raises.
-/

namespace Scenara.Execution

open Scenara.Core
open Run
open Result

variable {U O B D : Type} {c : Codec U (Fields O) B D} {x x' : Executing B D}
  {s s' : State B D} {a : Act U O B}

/-! ## What is stored -/

/-- The object of an artifact is there. -/
def Has (s : State B D) (key : String) : Prop := (s.objects.get? (.other key)).isSome = true

/-- What an index document lists is there. -/
def Documented (c : Codec U (Fields O) B D) (s : State B D) : Prop :=
  ∀ key document envelope, s.objects.get? (.result key) = some document →
    c.loadEnvelope document = .ok envelope → Present s envelope.rest

/-- The stage is not past the discard of the sink. -/
def Stage.before : Stage → Prop
  | .failing _ | .failAudit | .done _ => False
  | _ => True

/-- **The invariant** of the objects. -/
structure Stored (c : Codec U (Fields O) B D) (x : Executing B D) : Prop where
  documents : x.stage.before → Documented c x.result
  sink : x.stage.before → ∀ sink ∈ x.sink, ∀ key ∈ sink.keys, Has x.result key

theorem mem_listed {key : String} (h : key ∈ listed c s) :
    ∃ k document envelope, s.objects.get? (.result k) = some document ∧
      c.loadEnvelope document = .ok envelope ∧ key ∈ envelope.rest.artifacts := by
  unfold listed at h
  split at h
  · cases h
  · split at h
    · cases h
    · split at h
      · exact ⟨_, _, _, by assumption, by assumption, h⟩
      · cases h

theorem whole_of_documented (h : Documented c x.result) : Whole c x := by
  intro key hk
  obtain ⟨k, document, envelope, hd, hl, he⟩ := mem_listed hk
  exact h k document envelope hd hl key he

theorem stored_delivered (h : Delivered x) : Stored c x where
  documents _ key document _ hd := by
    simp [h.result key] at hd
  sink _ sink hs key hk := by
    simp [h.sink sink hs] at hk

theorem whole_delivered (h : Delivered x) : Whole c x := by
  intro _ hk
  obtain ⟨k, _, _, hd, -⟩ := mem_listed hk
  simp [h.result k] at hd

theorem documented_keeps {fields : Fields O} (h : Documented c s) (hk : Keeps c fields s s')
    (hfields : Present s fields) : Documented c s' := by
  intro key document envelope hd hl k hmem
  rw [hk.others]
  rcases hk.documents key document hd with hd | ⟨_, rfl, rfl⟩
  · exact h key document envelope hd hl k hmem
  · rw [c.load_dumpEnvelope] at hl
    cases hl
    exact hfields k hmem

theorem has_keeps {fields : Fields O} {key : String} (h : Has s key) (hk : Keeps c fields s s') :
    Has s' key := by
  unfold Has
  rwa [hk.others]

theorem present_withSink {fields : Fields O} {sink : Option ArtifactSink} (h : Present s fields)
    (hsink : ∀ sk ∈ sink, ∀ key ∈ sk.keys, Has s key) : Present s (withSink fields sink) := by
  cases sink with
  | none => exact h
  | some sk =>
    intro key hk
    rcases List.mem_append.1 hk with hk | hk
    · exact h key hk
    · exact hsink sk rfl key hk

theorem keeps_discardPartialResult {E : Type} {rest : Fields O} (v : Service E) (f : Faults)
    (now : ℚ) (s : State B D) : Keeps c rest s (discardPartialResult v f now s) := by
  unfold discardPartialResult
  split
  · exact .refl s
  · split
    · exact .refl s
    · split
      · exact keeps_discard (other_not_keys _)
      · exact .refl s

theorem discardArtifacts_get? (f : Faults) (sink : ArtifactSink) (s : State B D) (k : ObjectKey) :
    (discardArtifacts f sink s).1.objects.get? k =
      if k ∈ sink.keys.map .other ∧ f.delete k = false then none else s.objects.get? k :=
  foldl_erase_get? _ _ _

theorem listed_discardArtifacts (f : Faults) (sink : ArtifactSink) (s : State B D) :
    listed c (discardArtifacts f sink s).1 = listed c s := by
  have hresult (k : ResultKey) : (discardArtifacts f sink s).1.objects.get? (.result k) =
      s.objects.get? (.result k) := by
    rw [discardArtifacts_get?, if_neg (by simp)]
  unfold listed
  rw [show (discardArtifacts f sink s).1.reference = s.reference from rfl]
  simp [hresult]

theorem whole_congr (hobjects : x'.result.objects = x.result.objects)
    (hreference : x'.result.reference = x.result.reference) : Whole c x' ↔ Whole c x := by
  unfold Whole listed
  rw [hobjects, hreference]

/-! ## Steps -/

/-- The `Exception` handler deletes the object of a published artifact. -/
def Spoils (c : Codec U (Fields O) B D) (x : Executing B D) : Act U O B → Prop
  | .clean f _ =>
    ∃ code message, x.stage = .discardSink code message ∧
      ∃ sink ∈ x.sink, ∃ key ∈ sink.keys, key ∈ listed c x.result ∧ f.delete (.other key) = false
  | _ => False

theorem moves_before (hm : Moves x a x') (hb : x'.stage.before) : x.stage.before := by
  cases hm with
  | trying _ _ w _ _ hstage => rw [hstage]; trivial
  | stopping _ _ _ w _ hstage => rw [hstage]; trivial
  | failing _ _ w _ _ _ _ hstage' =>
    rw [hstage'] at hb
    unfold afterFailing at hb
    split at hb <;> exact hb.elim
  | raised _ _ hstage =>
    rcases raised_cases hstage with ⟨w, _, hst, -⟩ | ⟨hst | hst, -⟩
    · rw [hst]; trivial
    · rw [hst] at hb; exact hb.elim
    · rw [hst] at hstage
      cases hst' : x.stage <;> rw [hst'] at hstage <;> first | trivial | cases hstage
  | created hstage => rw [hstage]; trivial
  | finished hstage => rw [hstage]; trivial
  | still _ _ hstage' => rwa [hstage'] at hb
  | cleaned f _ hstage =>
    rcases hstage with ⟨hst, -⟩ | ⟨hst, -⟩ <;> rw [hst] <;> trivial
  | kept f _ hstage => rw [hstage]; trivial
  | audited hstage =>
    rcases hstage with ⟨_, hst, -⟩ | ⟨hst, hst'⟩
    · rw [hst]; trivial
    · rw [hst'] at hb; exact hb.elim
  | other _ _ _ _ _ _ hstage' => rwa [hstage'] at hb
  | log _ _ _ _ hstage' => rwa [hstage'] at hb

variable [DecidableEq D] {v : Service (Fields O)}

theorem stored_storeResult {result : Envelope U (Fields O)} (hd : Documented c x.result)
    (hsink : ∀ sink ∈ x.sink, ∀ key ∈ sink.keys, Has x.result key)
    (hpresent : Present x.result result.rest) (isPartial : Bool) (uuid : String) (now : ℚ)
      (f : Faults) :
    let s := (storeResult c v x.result (storeCall x.sink result isPartial uuid now f)).1
    Documented c s ∧ ∀ sink ∈ x.sink, ∀ key ∈ sink.keys, Has s key := by
  have hkeeps : Keeps c (storeCall x.sink result isPartial uuid now f).result.rest x.result
      (storeResult c v x.result (storeCall x.sink result isPartial uuid now f)).1 :=
    keeps_storeResult
  exact ⟨documented_keeps hd hkeeps (present_withSink hpresent hsink), fun sink hs key hk =>
    has_keeps (hsink sink hs key hk) hkeeps⟩

omit [DecidableEq D] in
theorem stored_storeImage {sink : ArtifactSink} {key : String} {document : B} {fails : Bool}
    (hd : Documented c x.result) (hx : x.sink = some sink)
    (hsink : ∀ sink ∈ x.sink, ∀ key ∈ sink.keys, Has x.result key)
    (h : storeImage x sink key document fails = some x') :
    Documented c x'.result ∧ ∀ sink ∈ x'.sink, ∀ key ∈ sink.keys, Has x'.result key := by
  unfold storeImage at h
  split at h
  · cases h
    refine ⟨hd, fun sk hsk k hk => ?_⟩
    cases hsk
    exact hsink sink hx k hk
  · split at h <;> cases h
    have hmono {k : String} (hk : Has x.result k) :
        Has { x.result with objects := x.result.objects.insert (.other key) document } k := by
      unfold Has at hk ⊢
      by_cases he : k = key
      · subst he
        rw [Dict.get?_insert_self]
        rfl
      · rwa [Dict.get?_insert_of_ne _ _ (by simpa using he)]
    refine ⟨fun k d envelope hdoc hl k' hk' => hmono ?_, fun sk hsk k hk => ?_⟩
    · refine hd k d envelope ?_ hl k' hk'
      exact (Dict.get?_insert_of_ne _ _ (by simp)).symm.trans hdoc
    · cases hsk
      rcases Parties.mem_snoc.1 hk with hk | rfl
      · exact hmono (hsink sink hx k hk)
      · unfold Has
        rw [Dict.get?_insert_self]
        rfl

/-- A step that calls none of the stores of results. -/
def Quiet : Act U O B → Prop
  | .image .. | .publish .. | .finish .. | .clean .. | .keep .. => False
  | _ => True

theorem step_quiet {a : Act U O B} (hs : step c v x a = some x') (ha : Quiet a) :
    x'.result = x.result ∧ x'.sink = x.sink := by
  cases a with
  | image | publish | finish | clean | keep => exact ha.elim
  | work =>
    simp only [step, stepWork] at hs
    split at hs
    · split at hs
      · obtain ⟨r, -, rfl⟩ := Option.map_eq_some_iff.1 hs
        exact ⟨rfl, rfl⟩
      · obtain ⟨r, -, rfl⟩ := Option.map_eq_some_iff.1 hs
        exact ⟨rfl, rfl⟩
      · obtain ⟨r, -, rfl⟩ := Option.map_eq_some_iff.1 hs
        exact ⟨rfl, rfl⟩
      · cases hs
    · cases hs
  | raise =>
    obtain ⟨_, -, rfl⟩ := Option.map_eq_some_iff.1 hs
    exact ⟨rfl, rfl⟩
  | createdRaise | audit | other | log =>
    simp only [step] at hs
    split at hs <;> cases hs <;> exact ⟨rfl, rfl⟩

theorem stored_step (h : Stored c x) (hs : step c v x a = some x') : Stored c x' := by
  have hbefore := moves_before (step_moves hs)
  suffices hall : x'.stage.before →
      Documented c x'.result ∧ ∀ sink ∈ x'.sink, ∀ key ∈ sink.keys, Has x'.result key from
    ⟨fun hb => (hall hb).1, fun hb => (hall hb).2⟩
  intro hb
  have hd := h.documents (hbefore hb)
  have hsink := h.sink (hbefore hb)
  cases a with
  | image =>
    simp only [step] at hs
    split at hs
    · rename_i hx
      exact stored_storeImage hd hx hsink hs
    · cases hs
  | publish _ uuid now faults =>
    simp only [step] at hs
    split at hs
    · split at hs <;> cases hs
      rename_i hpresent
      exact stored_storeResult hd hsink hpresent true uuid now faults
    · cases hs
  | finish _ uuid now faults =>
    simp only [step] at hs
    split at hs
    · split at hs
      · rename_i hpresent
        have hstored := stored_storeResult (v := v) hd hsink hpresent.1 false uuid now faults
        split at hs <;> cases hs <;> exact hstored
      · cases hs
    · cases hs
  | clean faults now =>
    simp only [step] at hs
    split at hs
    · cases hs
      have hkeeps : Keeps c (⟨[], [], v.synthetic.rest⟩ : Fields O) x.result
          (discardPartialResult v faults now x.result) := keeps_discardPartialResult v faults now _
      exact ⟨documented_keeps hd hkeeps fun k hk => absurd hk (by simp), fun sk hsk k hk =>
        has_keeps (hsink sk hsk k hk) hkeeps⟩
    · split at hs <;> cases hs <;> exact hb.elim
    · cases hs
  | keep faults eventFails =>
    simp only [step] at hs
    split at hs <;> cases hs
    rw [(keepPartial_store v x _ faults eventFails).2.2] at hb
    exact hb.elim
  | _ =>
    obtain ⟨hresult, hsame⟩ := step_quiet hs trivial
    rw [hresult, hsame]
    exact ⟨hd, hsink⟩

omit [DecidableEq D] in
theorem whole_discardArtifacts {sink : ArtifactSink} {f : Faults} (hw : Whole c x)
    (hresult : x'.result = (discardArtifacts f sink x.result).1) :
    Whole c x' ↔ ¬∃ key ∈ sink.keys, key ∈ listed c x.result ∧ f.delete (.other key) = false := by
  unfold Whole at hw ⊢
  rw [hresult, listed_discardArtifacts]
  simp only [discardArtifacts_get?]
  constructor
  · rintro h ⟨key, hk, hl, hf⟩
    have hgone := h key hl
    rw [if_pos ⟨List.mem_map.2 ⟨key, hk, rfl⟩, hf⟩] at hgone
    cases hgone
  · intro h key hl
    rw [if_neg]
    · exact hw key hl
    · rintro ⟨hk, hf⟩
      obtain ⟨k, hk, he⟩ := List.mem_map.1 hk
      cases he
      exact h ⟨_, hk, hl, hf⟩

omit [DecidableEq D] in
theorem whole_keepPartial (hw : Whole c x) (run : RunRecord) (f : Faults) (eventFails : Bool) :
    Whole c (keepPartial v x run f eventFails) := by
  unfold keepPartial
  split
  · exact (whole_congr rfl rfl).2 hw
  · split
    · dsimp only
      have hreached : Reaches (fun _ => True) (fun _ => True) (⟨⟨[], [], []⟩, x.result, []⟩ :
          Attempt B D)
          (reached (trackAll v.store f (x.sink.elim [] fun sink => retentionRecords v sink.toSink)
            ⟨⟨[], [], []⟩, x.result, []⟩)) := reaches_trackAll _ (fun _ _ => trivial) _
      have hkept : (reached (trackAll v.store f
          (x.sink.elim [] fun sink => retentionRecords v sink.toSink)
          ⟨⟨[], [], []⟩, x.result, []⟩)).state.objects = x.result.objects := objects_tracked _ _
      split
      all_goals
        rename_i heq
        rw [heq] at hreached hkept
        exact (whole_congr hkept hreached.grows.reference).2 hw
    · rename_i hreference
      have hlisted {y : Executing B D} (h : y.result.reference = none) : Whole c y := by
        intro _ hk
        unfold listed at hk
        simp [h] at hk
      split <;> exact hlisted hreference

/-- **The published artifacts are harmed in a step that spoils them**, and in no other. -/
theorem whole_step (h : Stored c x) (hs : step c v x a = some x') :
    Whole c x' ↔ Whole c x ∧ ¬Spoils c x a := by
  by_cases hb : x'.stage.before
  · have hw := whole_of_documented (h.documents (moves_before (step_moves hs) hb))
    have hw' := whole_of_documented ((stored_step h hs).documents hb)
    refine ⟨fun _ => ⟨hw, fun hspoils => ?_⟩, fun _ => hw'⟩
    cases a with
    | clean f =>
      obtain ⟨_, _, hstage, -⟩ := hspoils
      simp only [step, hstage] at hs
      split at hs <;> cases hs <;> exact hb
    | _ => exact hspoils
  · have hsame (hresult : x'.result = x.result) (hn : ¬Spoils c x a) :
        Whole c x' ↔ Whole c x ∧ ¬Spoils c x a := by
      rw [and_iff_left hn]
      exact whole_congr (by rw [hresult]) (by rw [hresult])
    cases a with
    | image =>
      simp only [step, storeImage] at hs
      split at hs
      · rename_i hstage _
        split at hs
        · cases hs
          exact absurd (by rw [hstage]; trivial) hb
        · split at hs <;> cases hs
          exact absurd (by rw [hstage]; trivial) hb
      · cases hs
    | publish =>
      simp only [step] at hs
      split at hs
      · rename_i hstage
        split at hs <;> cases hs
        exact absurd (by rw [hstage]; trivial) hb
      · cases hs
    | finish =>
      simp only [step] at hs
      split at hs
      · split at hs
        · split at hs <;> cases hs <;> exact absurd trivial hb
        · cases hs
      · cases hs
    | clean =>
      simp only [step] at hs
      split at hs
      · cases hs
        exact absurd trivial hb
      · rename_i code message hstage
        have hw : Whole c x := whole_of_documented (h.documents (by rw [hstage]; trivial))
        split at hs
        · rename_i hnone
          cases hs
          refine hsame rfl ?_
          rintro ⟨_, _, -, _, hsink, -⟩
          simp [hnone] at hsink
        · rename_i sink hsink
          cases hs
          rw [whole_discardArtifacts hw rfl, and_iff_right hw]
          refine not_congr ⟨fun hk => ?_, ?_⟩
          · exact ⟨code, message, hstage, sink, hsink, hk⟩
          · rintro ⟨_, _, -, _, hsink', hk⟩
            rw [hsink] at hsink'
            cases hsink'
            exact hk
      · cases hs
    | keep faults eventFails =>
      simp only [step] at hs
      split at hs <;> cases hs
      rename_i run hstage
      have hw : Whole c x := whole_of_documented (h.documents (by rw [hstage]; trivial))
      exact ⟨fun _ => ⟨hw, id⟩, fun _ => whole_keepPartial hw run faults eventFails⟩
    | _ => exact hsame (step_quiet hs trivial).1 id

/-! ## Runs -/

/-- A step that harms neither the published artifacts nor the promise of a successor. -/
def Lawful (c : Codec U (Fields O) B D) (x : Executing B D) (a : Act U O B) : Prop :=
  ¬Spoils c x a ∧ ¬Strands x a

/-- **A finished `execute_run` leaves a whole result, and a successor of a completed window, exactly
when every step was lawful.** -/
theorem published_whole_iff {y : Executing B D} {acts : List (Act U O B)}
    (hdelivered : Delivered x) (hrun : exec (step c v) x acts = some y)
    (hdone : y.stage.finished = true) :
    Whole c y ∧ Continued y ↔ Along (step c v) (Lawful c) x acts := by
  have hiff := exec_iff (I := fun x => Whole c x ∧ x.promised) (P := Lawful c)
    (J := fun x => Stored c x ∧ Watched x) (fun s a s' hJ hs => ⟨stored_step hJ.1 hs,
      watched_step hJ.2 hs⟩)
    (fun s a s' hJ hs => by rw [whole_step hJ.1 hs, promised_step hJ.2 hs, and_and_and_comm]; rfl)
    ⟨stored_delivered hdelivered, watched_delivered hdelivered⟩ hrun
  have hcoming : ¬y.stage.coming := by
    cases hst : y.stage with
    | trying w => rw [hst] at hdone; cases hdone
    | _ => exact id
  rw [promised_iff hcoming] at hiff
  rw [hiff, and_iff_right]
  exact ⟨whole_delivered hdelivered, .inl fun hc => absurd hc hdelivered.status⟩

theorem delivered_queued (sourceId streamSessionId : Option String) :
    Delivered (queued sourceId streamSessionId) where
  stage := rfl
  status := by
    intro h
    cases h
  result _ := rfl
  sink sink hs := by
    cases hs
    rfl

/-- The run starts, its operator stores an image, and its result is stored. -/
def stores (warnings : List String) : List (Act Nat Unit Page) :=
  [.work 0 .go, .work 0 .go, .work 0 .go, .image "art" (.units []) false,
    .finish ⟨[1], ⟨[], warnings, ()⟩⟩ "u" 0 .none ""]

/-- The `Exception` handler of a run that is not terminal. -/
def fails : List (Act Nat Unit Page) :=
  [.clean .none 0, .clean .none 0, .work 0 .go, .work 0 .go, .work 0 .go, .work 0 .go, .audit]

/-- No call fails. -/
def completes : List (Act Nat Unit Page) :=
  stores [] ++ [.work 0 .go, .work 0 .go, .work 0 .go, .work 0 .go]

/-- `audit.record` raises, with the result stored. -/
def auditFails : List (Act Nat Unit Page) :=
  stores [] ++ [.work 0 .go, .raise "PIPELINE_EXECUTION_FAILED" "audit"] ++ fails

/-- The segment's window is over, and appending `result.available` raises. -/
def availableFails : List (Act Nat Unit Page) :=
  [.work 0 .go, .work 0 .go, .work 0 .go, .work 0 .go,
    .finish ⟨[1], ⟨[], ["media_termination:segment_window_completed"], ()⟩⟩ "u" 0 .none "",
    .work 0 .go, .work 0 .go, .work 0 .go, .raise "PIPELINE_EXECUTION_FAILED" "append",
    .clean .none 0, .clean .none 0, .work 0 .go]

/-- A run without a failing call is lawful. -/
theorem completes_lawful : Along (step pageCodec pageService) (Lawful pageCodec) (queued none none)
    completes := by
  have hrun : (exec (step pageCodec pageService) (queued none none) completes).any (fun y =>
      y.stage.finished && decide (Whole pageCodec y) && decide (Continued y)) = true := by
    decide +kernel
  obtain ⟨y, hy, hdone⟩ := (Option.any_eq_true _ _).1 hrun
  simp only [Bool.and_eq_true, decide_eq_true_eq] at hdone
  exact (published_whole_iff (delivered_queued none none) hy hdone.1.1).1 ⟨hdone.1.2, hdone.2⟩

/-- **One call raises after the result is stored.** The handler deletes the published artifact; in a
stream segment, nothing follows the completed window. -/
theorem one_call_raises :
    (Delivered (queued none none) ∧
      ∃ y, exec (step pageCodec pageService) (queued none none) auditFails = some y ∧
        y.stage.finished = true ∧ ¬Whole pageCodec y) ∧
    Delivered (queued (some "src") (some "sts")) ∧
      ∃ y, exec (step pageCodec pageService) (queued (some "src") (some "sts")) availableFails =
          some y ∧ y.stage.finished = true ∧ ¬Continued y := by
  have hfirst : (exec (step pageCodec pageService) (queued none none) auditFails).any (fun y =>
      y.stage.finished && decide ¬Whole pageCodec y) = true := by
    decide +kernel
  have hsecond : (exec (step pageCodec pageService) (queued (some "src") (some "sts"))
      availableFails).any (fun y => y.stage.finished && decide ¬Continued y) = true := by
    decide +kernel
  obtain ⟨y, hy, hdone⟩ := (Option.any_eq_true _ _).1 hfirst
  obtain ⟨z, hz, hdone'⟩ := (Option.any_eq_true _ _).1 hsecond
  simp only [Bool.and_eq_true, decide_eq_true_eq] at hdone hdone'
  exact ⟨⟨delivered_queued none none, y, hy, hdone⟩, delivered_queued _ _, z, hz, hdone'⟩

end Scenara.Execution
