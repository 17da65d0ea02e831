import Scenara.Catalog.Model
import Scenara.Core.Transition

/-!
# At most one active version

The memory catalog retires the other active versions of a pipeline when a version is activated by a
transition and when an active version is stored for the first time. A changed definition of a stored
version that comes as active replaces the stored one, and retires nothing.
-/

namespace Scenara.Catalog

open Scenara.Core Pipeline

variable {V D : Type} [DecidableEq D] {sha256 : PipelinePayload V → D} {c c' : Pipelines V}
variable {which : String × String → PipelineDefinition V → Bool} {k : String × String}
  {p : PipelineDefinition V}

/-! ## The invariant -/

/-- Definitions are stored under their own keys. -/
def Keyed (c : Pipelines V) : Prop := ∀ k p, c.get? k = some p → p.key = k

/-- At most one stored version of each pipeline is active. -/
def AtMostOneActive (c : Pipelines V) : Prop :=
  ∀ k p k' p', c.get? k = some p → c.get? k' = some p' → p.status = .active → p'.status = .active →
    k.1 = k'.1 → k = k'

/-- Another version of the pipeline is active. -/
def OtherActive (c : Pipelines V) (k : String × String) : Prop :=
  ∃ k' p', c.get? k' = some p' ∧ p'.status = .active ∧ k'.1 = k.1 ∧ k' ≠ k

/-- A changed definition of a stored version, active, while another version is active. -/
def Redeploys (sha256 : PipelinePayload V → D) (c : Pipelines V) : Call V → Prop
  | .register pipeline => ∃ existing, c.get? pipeline.key = some existing ∧
      existing.definitionSha256 sha256 ≠ pipeline.definitionSha256 sha256 ∧
      pipeline.status = .active ∧ OtherActive c pipeline.key
  | .transition _ _ _ => False

theorem keyed_empty : Keyed (.empty : Pipelines V) := fun k p h => by
  simp [Dict.get?_empty] at h

theorem atMostOneActive_empty : AtMostOneActive (.empty : Pipelines V) := fun k p k' p' h => by
  simp [Dict.get?_empty] at h

/-! ## What the operations do -/

theorem get?_retire (which : String × String → PipelineDefinition V → Bool) (k : String × String) :
    (retire which c).get? k = (c.get? k).map fun p =>
      if which k p ∧ p.status = .active then { p with status := .retired } else p :=
  Dict.get?_mapVals _ c k

theorem keyed_insert (hc : Keyed c) (hp : p.key = k) : Keyed (c.insert k p) := by
  intro a q h
  rcases Dict.get?_insert_cases h with ⟨ha, rfl⟩ | ⟨-, h⟩
  · exact hp.trans ha.symm
  · exact hc a q h

theorem keyed_retire (hc : Keyed c) : Keyed (retire which c) := by
  intro k p h
  rw [get?_retire, Option.map_eq_some_iff] at h
  obtain ⟨q, hq, rfl⟩ := h
  split <;> exact hc k q hq

theorem active_retire (h : (retire which c).get? k = some p)
    (hp : p.status = .active) : c.get? k = some p ∧ which k p = false := by
  rw [get?_retire, Option.map_eq_some_iff] at h
  obtain ⟨q, hq, heq⟩ := h
  by_cases hw : which k q ∧ q.status = .active
  · rw [if_pos hw] at heq
    simp [← heq] at hp
  · rw [if_neg hw] at heq
    subst heq
    refine ⟨hq, ?_⟩
    cases hwk : which k q
    · rfl
    · exact absurd ⟨hwk, hp⟩ hw

theorem atMostOneActive_retire (hc : AtMostOneActive c) : AtMostOneActive (retire which c) :=
  fun k p k' p' h h' hp hp' hk =>
    hc k p k' p' (active_retire h hp).1 (active_retire h' hp').1 hp hp' hk

theorem atMostOneActive_insert (hc : AtMostOneActive c) :
    AtMostOneActive (c.insert k p) ↔ (p.status = .active → ¬OtherActive c k) := by
  constructor
  · rintro h hp ⟨k', p', _, hp', hk, hne⟩
    refine hne (h k' p' k p ?_ (Dict.get?_insert_self c k p) hp' hp hk)
    rwa [Dict.get?_insert_of_ne c p hne]
  · intro h a q b r ha hb hq hr hab
    rw [Dict.get?_insert] at ha hb
    by_cases hak : a = k
    · by_cases hbk : b = k
      · exact hak.trans hbk.symm
      · rw [if_pos hak] at ha
        rw [if_neg hbk] at hb
        cases ha
        exact absurd ⟨b, r, hb, hr, hak ▸ hab.symm, hbk⟩ (h hq)
    · rw [if_neg hak] at ha
      by_cases hbk : b = k
      · rw [if_pos hbk] at hb
        cases hb
        exact absurd ⟨a, q, ha, hq, hbk ▸ hab, hak⟩ (h hr)
      · rw [if_neg hbk] at hb
        exact hc a q b r ha hb hq hr hab

/-! ## One call -/

theorem register_cases {pipeline : PipelineDefinition V}
    (h : registerPipelineDefinition sha256 c pipeline = .ok c') :
    (∃ existing, c.get? pipeline.key = some existing ∧
        existing.definitionSha256 sha256 ≠ pipeline.definitionSha256 sha256 ∧
        pipeline.status = .active ∧ c' = c.insert pipeline.key pipeline) ∨
      (∃ existing, c.get? pipeline.key = some existing ∧
        existing.definitionSha256 sha256 = pipeline.definitionSha256 sha256 ∧ c' = c) ∨
      (c.get? pipeline.key = none ∧ pipeline.status = .active ∧
        c' = (retire (fun k _ => k.1 = pipeline.pipelineId) c).insert pipeline.key pipeline) ∨
      (c.get? pipeline.key = none ∧ pipeline.status ≠ .active ∧
        c' = c.insert pipeline.key pipeline) := by
  unfold registerPipelineDefinition at h
  cases hget : c.get? pipeline.key with
  | none =>
    rw [hget] at h
    by_cases hactive : pipeline.status = .active
    · simp only [hactive, if_true, Except.ok.injEq] at h
      exact .inr (.inr (.inl ⟨rfl, hactive, h.symm⟩))
    · simp only [hactive, if_false, Except.ok.injEq] at h
      exact .inr (.inr (.inr ⟨rfl, hactive, h.symm⟩))
  | some existing =>
    rw [hget] at h
    by_cases hsha : existing.definitionSha256 sha256 = pipeline.definitionSha256 sha256
    · simp only [hsha, ne_eq, not_true, if_false, Except.ok.injEq] at h
      exact .inr (.inl ⟨existing, rfl, hsha, h.symm⟩)
    · by_cases hactive : pipeline.status = .active
      · simp only [hsha, hactive, ne_eq, not_false_eq_true, if_true, Except.ok.injEq] at h
        exact .inl ⟨existing, rfl, hsha, hactive, h.symm⟩
      · simp only [hsha, hactive, ne_eq, not_false_eq_true, if_true, if_false] at h
        cases h

theorem transition_cases {pipelineId version : String} {target : PipelineStatus}
    {updated : PipelineDefinition V}
    (h : transitionPipelineDefinition c pipelineId version target = .ok (c', updated)) :
    ∃ pipeline, c.get? (pipelineId, version) = some pipeline ∧
      target ∈ pipeline.status.allowed ∧ updated = { pipeline with status := target } ∧
      c' = (if target = .active then retire (fun _ p => p.pipelineId = pipelineId) c else c).insert
        (pipelineId, version) updated := by
  unfold transitionPipelineDefinition at h
  cases hget : c.get? (pipelineId, version) with
  | none =>
    simp [hget] at h
  | some pipeline =>
    rw [hget] at h
    by_cases hallowed : target ∈ pipeline.status.allowed
    · simp only [hallowed, not_true, if_false, Except.ok.injEq, Prod.mk.injEq] at h
      obtain ⟨rfl, rfl⟩ := h
      exact ⟨pipeline, rfl, hallowed, rfl, rfl⟩
    · simp only [hallowed, not_false_eq_true, if_true] at h
      cases h

theorem memoryStep_cases {call : Call V} (h : memoryStep sha256 c call = some c') :
    (∃ pipeline, call = .register pipeline ∧
        registerPipelineDefinition sha256 c pipeline = .ok c') ∨
      (∃ pipelineId version target updated, call = .transition pipelineId version target ∧
        transitionPipelineDefinition c pipelineId version target = .ok (c', updated)) ∨
      (c' = c ∧ ∃ message, memoryCall sha256 c call = .error message) := by
  unfold memoryStep at h
  cases call with
  | register pipeline =>
    cases hr : registerPipelineDefinition sha256 c pipeline with
    | ok =>
      simp only [memoryCall, hr, bind, Except.bind, Option.some.injEq] at h
      exact .inl ⟨pipeline, rfl, h ▸ hr⟩
    | error message =>
      simp only [memoryCall, hr, bind, Except.bind, Option.some.injEq] at h
      exact .inr (.inr ⟨h.symm, message, by simp [memoryCall, hr, bind, Except.bind]⟩)
  | transition pipelineId version target =>
    cases hr : transitionPipelineDefinition c pipelineId version target with
    | ok r =>
      obtain ⟨_, updated⟩ := r
      simp only [memoryCall, hr, bind, Except.bind, Option.some.injEq] at h
      exact .inr (.inl ⟨pipelineId, version, target, updated, rfl, h ▸ hr⟩)
    | error message =>
      simp only [memoryCall, hr, bind, Except.bind, Option.some.injEq] at h
      exact .inr (.inr ⟨h.symm, message, by simp [memoryCall, hr, bind, Except.bind]⟩)

theorem memoryStep_ne_none (c : Pipelines V) (call : Call V) : memoryStep sha256 c call ≠ none := by
  unfold memoryStep
  split <;> exact Option.some_ne_none _

theorem keyed_step {call : Call V} (hc : Keyed c) (h : memoryStep sha256 c call = some c') :
    Keyed c' := by
  rcases memoryStep_cases h with ⟨p, -, hr⟩ | ⟨_, _, target, _, -, ht⟩ | ⟨rfl, -⟩
  · rcases register_cases hr with ⟨_, -, -, -, rfl⟩ | ⟨_, -, -, rfl⟩ | ⟨-, -, rfl⟩ | ⟨-, -, rfl⟩
    · exact keyed_insert hc rfl
    · exact hc
    · exact keyed_insert (keyed_retire hc) rfl
    · exact keyed_insert hc rfl
  · obtain ⟨p, hget, -, rfl, rfl⟩ := transition_cases ht
    by_cases hactive : target = .active
    · rw [if_pos hactive]
      exact keyed_insert (keyed_retire hc) (hc _ p hget)
    · rw [if_neg hactive]
      exact keyed_insert hc (hc _ p hget)
  · exact hc

theorem not_otherActive_retire (hwhich : ∀ k' p', c.get? k' = some p' → k'.1 = k.1 →
    which k' p' = true) : ¬OtherActive (retire which c) k := by
  rintro ⟨k', p', hget, hactive, hk, -⟩
  obtain ⟨hget, hno⟩ := active_retire hget hactive
  simp [hwhich k' p' hget hk] at hno

theorem atMostOneActive_step {call : Call V} (hkeyed : Keyed c) (hc : AtMostOneActive c)
    (h : memoryStep sha256 c call = some c') : AtMostOneActive c' ↔ ¬Redeploys sha256 c call := by
  rcases memoryStep_cases h with ⟨p, rfl, hr⟩ | ⟨_, _, target, _, rfl, ht⟩ |
    ⟨rfl, message, hraise⟩
  · rcases register_cases hr with ⟨existing, hget, hsha, hactive, rfl⟩ |
      ⟨existing, hget, hsha, rfl⟩ | ⟨hget, hactive, rfl⟩ | ⟨hget, hactive, rfl⟩
    · rw [atMostOneActive_insert hc]
      refine ⟨fun hno => fun ⟨_, _, _, _, hother⟩ => hno hactive hother, fun hno _ hother => ?_⟩
      exact hno ⟨existing, hget, hsha, hactive, hother⟩
    · refine iff_of_true hc fun ⟨e, he, hne, _⟩ => ?_
      rw [hget] at he
      cases he
      exact hne hsha
    · refine iff_of_true ?_ fun ⟨e, he, _⟩ => ?_
      · refine (atMostOneActive_insert (atMostOneActive_retire hc)).2 fun _ => ?_
        exact not_otherActive_retire fun k' _ _ hk => decide_eq_true hk
      · rw [hget] at he
        cases he
    · refine iff_of_true ((atMostOneActive_insert hc).2 fun ha => absurd ha hactive)
        fun ⟨e, he, _⟩ => ?_
      rw [hget] at he
      cases he
  · refine iff_of_true ?_ fun hno => hno
    obtain ⟨p, _, -, rfl, rfl⟩ := transition_cases ht
    by_cases hactive : target = .active
    · rw [if_pos hactive]
      refine (atMostOneActive_insert (atMostOneActive_retire hc)).2 fun _ => ?_
      refine not_otherActive_retire fun k' p' hp' hk => decide_eq_true ?_
      exact (congrArg Prod.fst (hkeyed k' p' hp')).trans hk
    · rw [if_neg hactive]
      exact (atMostOneActive_insert hc).2 fun ha => absurd ha hactive
  · refine iff_of_true hc ?_
    cases call with
    | transition => exact fun hno => hno
    | register p =>
      rintro ⟨_, hget, hsha, hactive, -⟩
      simp [memoryCall, registerPipelineDefinition, hget, hsha, hactive, bind, Except.bind]
        at hraise

/-! ## What is listed -/

theorem perm_sortedValues {W : Type} (le : String × String → String × String → Prop)
    [DecidableRel le] (entries : List ((String × String) × W)) :
    (sortedValues le entries).Perm (entries.map Prod.snd) :=
  (List.perm_insertionSort _ entries).map Prod.snd

theorem activeVersions_length (hkeyed : Keyed c) (hc : AtMostOneActive c) (pipelineId : String) :
    (activeVersions c pipelineId).length ≤ 1 := by
  set listed := fun e : (String × String) × PipelineDefinition V =>
    decide (e.2.pipelineId = pipelineId ∧ e.2.status = .active) with hlisted
  have hperm : (activeVersions c pipelineId).Perm ((c.entries.filter listed).map Prod.snd) := by
    have h := (perm_sortedValues KeyLe c.entries).filter
      fun p => decide (p.pipelineId = pipelineId ∧ p.status = .active)
    rwa [List.filter_map] at h
  have hnodup : (c.entries.filter listed).Nodup := (List.Nodup.of_map _ c.nodup).filter _
  have hsame : ∀ e ∈ c.entries.filter listed, ∀ e' ∈ c.entries.filter listed, e = e' := by
    rintro ⟨k, p⟩ he ⟨k', p'⟩ he'
    rw [List.mem_filter, Dict.mem_entries, decide_eq_true_iff] at he he'
    obtain ⟨hget, hid, hactive⟩ := he
    obtain ⟨hget', hid', hactive'⟩ := he'
    have hk : k.1 = k'.1 := by
      rw [← hkeyed k p hget, ← hkeyed k' p' hget']
      exact hid.trans hid'.symm
    obtain rfl := hc k p k' p' hget hget' hactive hactive' hk
    rw [hget] at hget'
    cases hget'
    rfl
  rw [hperm.length_eq, List.length_map]
  match hl : c.entries.filter listed with
  | [] => exact Nat.zero_le 1
  | [_] => exact Nat.le_refl 1
  | a :: b :: _ =>
    rw [hl] at hnodup hsame
    have hab : a = b := hsame a (by simp) b (by simp)
    rw [hab, List.nodup_cons] at hnodup
    exact absurd List.mem_cons_self hnodup.1

/-- `resolve_pipeline_ref` without a version fails because of two active versions. -/
def Ambiguous (sha256 : PipelinePayload V → D) (compiled : List (PipelineDefinition V))
    (c : Pipelines V) (pipelineId : String) : Prop :=
  ∃ synced, syncPipelineCatalog sha256 compiled c = .ok synced ∧
    2 ≤ (activeVersions synced pipelineId).length

theorem syncPipelineCatalog_error {compiled : List (PipelineDefinition V)} {message : String}
    (h : syncPipelineCatalog sha256 compiled c = .error message) :
    message = "pipeline version definition is immutable" := by
  induction compiled generalizing c with
  | nil => cases h
  | cons p compiled ih =>
    unfold syncPipelineCatalog at h
    rw [List.foldlM_cons] at h
    cases hr : registerPipelineDefinition sha256 c p with
    | ok c₁ =>
      rw [hr] at h
      exact ih h
    | error =>
      rw [hr] at h
      cases h
      unfold registerPipelineDefinition at hr
      split at hr
      · split at hr
        · split at hr
          · cases hr
          · exact (Except.error.inj hr).symm
        · cases hr
      · cases hr

/-- Whatever else is wrong with the one active version is told in other words. -/
theorem pipelineDefinition_error {compiled : List (PipelineDefinition V)}
    {pipelineId version message : String}
    (h : pipelineDefinition sha256 compiled c pipelineId version = .error message) :
    message ≠ "pipeline must have exactly one active version: " ++ pipelineId := by
  rintro rfl
  have hdiffer : ∀ message : String,
      message = "pipeline must have exactly one active version: " ++ pipelineId →
        message.toList =
          "pipeline must have exactly one active version: ".toList ++ pipelineId.toList := by
    rintro _ rfl
    exact String.toList_append
  unfold pipelineDefinition compiledPipeline at h
  cases hsync : syncPipelineCatalog sha256 compiled c with
  | error =>
    rw [hsync] at h
    have heq := hdiffer _ ((syncPipelineCatalog_error hsync).symm.trans (Except.error.inj h))
    simp at heq
  | ok synced =>
    rw [hsync] at h
    simp only [bind, Except.bind] at h
    split at h
    · simpa using hdiffer _ (Except.error.inj h)
    · split at h
      · rename_i heq
        split at heq
        · cases heq
          simpa using hdiffer _ (Except.error.inj h)
        · cases heq
      · split at h
        · simpa using hdiffer _ (Except.error.inj h)
        · split at h
          · simpa using hdiffer _ (Except.error.inj h)
          · cases h

/-- **`resolve_pipeline_ref` without a version** finds an active version and yet not exactly one
just when it is `Ambiguous`. -/
theorem ambiguous_iff (compiled : List (PipelineDefinition V)) (c : Pipelines V)
    (pipelineId : String) : Ambiguous sha256 compiled c pipelineId ↔
      ∃ synced, syncPipelineCatalog sha256 compiled c = .ok synced ∧
        activeVersions synced pipelineId ≠ [] ∧
          resolvePipelineRef sha256 compiled c pipelineId none =
            .error ("pipeline must have exactly one active version: " ++ pipelineId) := by
  refine exists_congr fun synced => and_congr_right fun hsync => ?_
  simp only [resolvePipelineRef, hsync, bind, Except.bind]
  rcases activeVersions synced pipelineId with _ | ⟨active, _ | ⟨_, _⟩⟩
  · simp
  · refine iff_of_false (by simp) fun ⟨_, hfails⟩ => ?_
    dsimp only at hfails
    cases hdefinition : pipelineDefinition sha256 compiled synced pipelineId active.version with
    | ok =>
      rw [hdefinition] at hfails
      cases hfails
    | error =>
      rw [hdefinition] at hfails
      exact pipelineDefinition_error hdefinition (Except.error.inj hfails)
  · simp

theorem sync_invariant {I : Pipelines V → Prop} {P : Pipelines V → Call V → Prop}
    (hstep : ∀ c call c', I c → P c call → memoryStep sha256 c call = some c' → I c')
    (compiled : List (PipelineDefinition V)) {synced : Pipelines V} (hc : I c)
    (halong : Along (memoryStep sha256) P c (compiled.map .register))
    (hsync : syncPipelineCatalog sha256 compiled c = .ok synced) : I synced := by
  induction compiled generalizing c with
  | nil =>
    cases hsync
    exact hc
  | cons p _ ih =>
    unfold syncPipelineCatalog at hsync
    rw [List.foldlM_cons] at hsync
    cases hr : registerPipelineDefinition sha256 c p with
    | error =>
      rw [hr] at hsync
      cases hsync
    | ok c₁ =>
      rw [hr] at hsync
      have hs : memoryStep sha256 c (.register p) = some c₁ := by
        simp [memoryStep, memoryCall, hr, bind, Except.bind]
      exact ih (hstep c _ c₁ hc halong.1 hs) (halong.2 c₁ hs) hsync

/-! ## Runs -/

/-- **At most one active version per pipeline**, in every state of a run, **iff** no call of the run
redeploys a version beside another active one; and then `resolve_pipeline_ref`, whose compiled
pipelines redeploy none so either, finds no two. -/
theorem atMostOneActive_iff (sha256 : PipelinePayload V → D) (calls : List (Call V)) :
    ((∀ c ∈ states (memoryStep sha256) .empty calls, AtMostOneActive c) ↔
        Along (memoryStep sha256) (fun c call => ¬Redeploys sha256 c call) .empty calls) ∧
      (Along (memoryStep sha256) (fun c call => ¬Redeploys sha256 c call) .empty calls →
        ∀ c ∈ states (memoryStep sha256) .empty calls, ∀ compiled pipelineId,
          Along (memoryStep sha256) (fun c call => ¬Redeploys sha256 c call) c
              (compiled.map .register) →
            ¬Ambiguous sha256 compiled c pipelineId) := by
  have hkeyed : ∀ c ∈ states (memoryStep sha256) .empty calls, Keyed c :=
    invariant_states (P := fun _ _ => True) (fun c call c' hc _ hs => keyed_step hc hs)
      keyed_empty (along_of_forall (fun _ _ => trivial) _ calls)
  have hstep : ∀ c call c', Keyed c ∧ AtMostOneActive c → memoryStep sha256 c call = some c' →
      (Keyed c' ∧ AtMostOneActive c' ↔ ¬Redeploys sha256 c call) := fun c call c' hc hs => by
    rw [← atMostOneActive_step hc.1 hc.2 hs]
    exact and_iff_right (keyed_step hc.1 hs)
  have hiff : (∀ c ∈ states (memoryStep sha256) .empty calls, Keyed c ∧ AtMostOneActive c) ↔
      Along (memoryStep sha256) (fun c call => ¬Redeploys sha256 c call) .empty calls :=
    states_iff (fun c call hnone => absurd hnone (memoryStep_ne_none c call)) hstep
      ⟨keyed_empty, atMostOneActive_empty⟩
  refine ⟨⟨fun h => hiff.1 fun c hc => ⟨hkeyed c hc, h c hc⟩, fun h c hc => (hiff.2 h c hc).2⟩, ?_⟩
  rintro h c hc compiled pipelineId halong ⟨_, hsync, _⟩
  have hgood := sync_invariant (I := fun c => Keyed c ∧ AtMostOneActive c)
    (fun c call c' hI hP hs => (hstep c call c' hI hs).2 hP) compiled (hiff.2 h c hc) halong hsync
  have hone := activeVersions_length hgood.1 hgood.2 pipelineId
  omega

/-- A version of a pipeline, active, told apart from its changed definition by its output. -/
def textVersion (version output : String) : PipelineDefinition Unit where
  pipelineId := "ocr.text"
  version := version
  domain := "ocr"
  nodes := [⟨"read", "ocr.read", Dict.empty.insert "media" "$media.input", .empty⟩]
  output := output
  allowedParameters := []
  parameterSchema := .empty
  pausable := false
  status := .active

/-- A newer version is activated, then the older one comes again, changed. -/
def redeployment : List (Call Unit) :=
  [.register (textVersion "1.0.0" "read.lines"), .register (textVersion "1.1.0" "read.lines"),
    .register (textVersion "1.0.0" "read.text")]

/-- **Two active versions**: the redeployed one and the newer one. -/
theorem redeploy_twoActive :
    ∃ c ∈ states (memoryStep PipelinePayload.output) .empty redeployment,
      ¬AtMostOneActive c ∧ Ambiguous PipelinePayload.output [] c "ocr.text" := by
  refine ⟨_, .tail _ (.tail _ (.tail _ (.head _))), fun h => ?_, _, rfl, by decide +kernel⟩
  have hk := h ("ocr.text", "1.0.0") (textVersion "1.0.0" "read.text") ("ocr.text", "1.1.0")
    (textVersion "1.1.0" "read.lines") rfl rfl rfl rfl rfl
  exact absurd hk (by decide)

/-- An active version redeployed with no other one active. -/
theorem redeploy_alone :
    ∀ c ∈ states (memoryStep PipelinePayload.output) .empty
        [.register (textVersion "1.0.0" "read.lines"), .register (textVersion "1.0.0" "read.text")],
      AtMostOneActive c := by
  refine (atMostOneActive_iff PipelinePayload.output _).1.2 ⟨?_,
    fun c hc => ⟨?_, fun _ _ => trivial⟩⟩
  · rintro ⟨_, hget, -⟩
    cases hget
  · cases hc
    rintro ⟨-, -, -, -, k', _, hget, -, -, hne⟩
    have hkey : k' ≠ (textVersion "1.0.0" "read.lines").key := hne
    rw [Dict.get?_insert_of_ne _ _ hkey] at hget
    cases hget

end Scenara.Catalog
