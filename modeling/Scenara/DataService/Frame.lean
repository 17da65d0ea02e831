import Scenara.DataService.Invariant

/-!
# What creating returns and leaves alone

* `sourceSamples`: the samples of an intake, and what they leave alone (`intake_frame_iff`).
-/

namespace Scenara.DataService

open Scenara.Core

/-! ## The property -/

/-- An annotation for the same task and sample. -/
def Resubmits (kind : Kind) (old r : Record) : Prop :=
  entityOf kind old = .annotated ∧ entityOf kind r = .annotated ∧
    get old "task_id" = get r "task_id" ∧ get old "sample_id" = get r "sample_id"

/-- Every record is still there, unchanged, or an annotation was re-submitted. -/
def Frame (s t : DataStore) : Prop :=
  ∀ kind k old, (s.records kind).get? k = some old →
    ∃ r, (t.records kind).get? k = some r ∧ (r = old ∨ Resubmits kind old r)

/-- What a create request answers with. -/
def Route.entity : Route → Option Entity
  | .createDataset _ => some .dataset
  | .createVersion _ _ => some .version
  | .createQualityRun _ => some .quality
  | .createLineageSnapshot _ => some .lineage
  | .hardSampleIntake _ => some .manifest
  | .createSample _ => some .sample
  | .createAnnotationTask _ => some .task
  | .createAnnotationItem _ => some .annotated
  | .createAnnotationProvider _ => some .provider
  | .updateDataset _ _ | .transitionVersion _ _ | .grantVersionAccess _ _ |
      .transitionAnnotationTask _ _
  | .reviewAnnotationTask _ _ | .probeAnnotationProvider _ => none

variable (setting : Setting)

/-- The id that is asked for: `str(body.get(field))`, if it is one. -/
def givenId (body : Record) (field : String) : Option String :=
  if truthy (get body field) then some (setting.str (get body field)) else none

/-- The id that a create request names. -/
def Route.explicitId : Route → Option String
  | .createDataset body => body.datasetId
  | .createQualityRun body => givenId setting body "quality_run_id"
  | .createLineageSnapshot body => givenId setting body "lineage_snapshot_id"
  | .hardSampleIntake body => some (setting.str (get (manifestOf body) "manifest_id"))
  | .createSample body => some (setting.str ((body.get? "sample_id").getD (.str "")))
  | _ => none

/-- The record was there, and an earlier request created it with the same key or the same explicit
id. -/
structure Earlier (s : DataStore) (q : Request) (entity : Entity) (k : Key) (r : Record) :
    Prop where
  there : (s.records entity.kind).get? k = some r
  entityOf : entityOf entity.kind r = entity
  created : ∃ c ∈ s.created, c.key = k ∧ c.entity = entity ∧
    optional c.idempotencyKey = get r "idempotency_key" ∧
    (q.idempotencyKey ≠ none ∧ c.idempotencyKey = q.idempotencyKey ∨
      q.route.explicitId setting = some k.recordId)

/-- A record of the caller is answered with: a new one, an annotation re-submitted, or an earlier
one. -/
def Answered (s t : DataStore) (q : Request) (entity : Entity) (r : Record) : Prop :=
  ∃ k, k.tenantId = q.tenantId ∧ k.projectId = q.projectId ∧
    (t.records entity.kind).get? k = some r ∧ ((s.records entity.kind).get? k = none ∨
      (entity = .annotated ∧ ∃ old, (s.records entity.kind).get? k = some old ∧
        Resubmits entity.kind old r) ∨
      Earlier setting s q entity k r)

/-- Nothing of somebody else is returned or destroyed. -/
def Keeps (s : DataStore) (q : Request) (entity : Entity) (answer : Answer) : Prop :=
  (∀ r, answer.1 = .ok r → Answered setting s answer.2 q entity r) ∧ Frame s answer.2

/-- So it is of a create request. -/
def Preserved (s : DataStore) (q : Request) : Prop :=
  ∀ entity ∈ q.route.entity, Keeps setting s q entity (handle setting s q)

variable {setting} {s t u : DataStore} {q : Request} {kind : Kind} {k : Key} {item old r : Record}
  {entity : Entity} {recordId : String}

/-! ## Saving one record -/

theorem optional_injective : Function.Injective optional := by
  rintro (_ | a) (_ | b) h <;> simp_all [optional]

theorem Frame.refl (s : DataStore) : Frame s s := fun _ _ old h => ⟨old, h, .inl rfl⟩

/-- Apart from events, one record is saved. -/
structure Saves (s t : DataStore) (kind : Kind) (k : Key) (item : Record) : Prop where
  records : ∀ kind' k', kind' ≠ .outbox → (t.records kind').get? k' =
    if kind' = kind ∧ k' = k then some item else (s.records kind').get? k'
  events : ∀ k' old, (s.records .outbox).get? k' = some old → (t.records .outbox).get? k' = some old

theorem saves_create {idempotencyKey : Option String}
    (hkey : DataStore.keyOf setting item recordId = q.key recordId)
    (hkind : entity.kind ≠ .outbox) :
    Saves s (s.create setting entity item recordId idempotencyKey) entity.kind (q.key recordId)
      item where
  records kind' k' _ := by rw [DataStore.get?_create, hkey]
  events k' old hold := by rwa [DataStore.get?_create, if_neg fun hboth => hkind hboth.1.symm]

theorem stem_ne {a b : Char} {stem stem' : String} (ha : stem.toList.head? = some a)
    (hb : stem'.toList.head? = some b) (h : a ≠ b) (rest rest' : String) :
    stem ++ rest ≠ stem' ++ rest' := by
  intro heq
  have hheads := congrArg (fun s => s.toList.head?) heq
  simp only [String.toList_append, List.head?_append, ha, hb, Option.some_or, Option.some.injEq]
    at hheads
  exact h hheads

theorem Inv.annotations (h : Inv setting s) (hr : (s.records .annotations).get? k = some r) :
    entityOf .annotations r = .task ∧ setting.ids.Drawn "task_" s.drawn k.recordId ∨
    entityOf .annotations r = .provider ∧ setting.ids.Drawn "provider_" s.drawn k.recordId ∨
    entityOf .annotations r = .annotated ∧ ∃ rest, k.recordId = "annotation_" ++ rest := by
  have hdrawn := h.drawn .annotations k r hr
  have hshape : TaskShape setting k.recordId r := h.shape .annotations k r hr
  by_cases hannotated : entityOf .annotations r = .annotated
  · have hid := hshape.annotated hannotated
    rw [annotationId, String.append_assoc, String.append_assoc] at hid
    exact .inr (.inr ⟨hannotated, _, hid⟩)
  · have hentity : entityOf .annotations r = .provider ∨ entityOf .annotations r = .task := by
      unfold entityOf at hannotated ⊢
      split_ifs at hannotated ⊢ <;> simp_all
    rcases hentity with hentity | hentity
    · exact .inr (.inl ⟨hentity, hdrawn _ (by rw [hentity]; rfl)⟩)
    · exact .inl ⟨hentity, hdrawn _ (by rw [hentity]; rfl)⟩

theorem Inv.fresh (h : Inv setting s) (entity : Entity) {stem : String}
    (hstem : entity.stem = some stem) :
    (s.records entity.kind).get? (q.key (stem ++ s.uuid setting)) = none := by
  refine Option.eq_none_iff_forall_ne_some.2 fun r hr => ?_
  cases entity with
  | version | event =>
    cases hstem
    exact (h.drawn _ _ r hr _ rfl).ne rfl
  | task =>
    cases hstem
    rcases h.annotations hr with ⟨-, hdrawn⟩ | ⟨-, n, -, hid⟩ | ⟨-, _, hid⟩
    · exact hdrawn.ne rfl
    all_goals exact stem_ne rfl rfl (by decide) _ _ hid
  | provider =>
    cases hstem
    rcases h.annotations hr with ⟨-, n, -, hid⟩ | ⟨-, hdrawn⟩ | ⟨-, _, hid⟩
    · exact stem_ne rfl rfl (by decide) _ _ hid
    · exact hdrawn.ne rfl
    · exact stem_ne rfl rfl (by decide) _ _ hid
  | dataset | manifest | sample | annotated | quality | lineage => cases hstem

theorem events_emit (h : Inv setting s) (eventType : String) (data : List (String × Doc))
    (now : String) (hold : (s.records .outbox).get? k = some old) :
    ((emit setting s q eventType data now).records .outbox).get? k = some old := by
  have hfresh : (s.records .outbox).get? (q.key ("evt_" ++ s.uuid setting)) = none :=
    h.fresh .event rfl
  unfold emit
  rw [DataStore.get?_create, if_neg]
  · exact hold
  · rintro ⟨-, hkey⟩
    have hevent : k = q.key ("evt_" ++ s.uuid setting) := by
      simpa [DataStore.keyOf, record, Dict.ofList, Request.key] using hkey
    simp [hevent, hfresh] at hold

theorem Saves.emit (h : Saves s t kind k item) (hinv : Inv setting t) (eventType : String)
    (data : List (String × Doc)) (now : String) :
    Saves s (emit setting t q eventType data now) kind k item where
  records kind' k' hkind := by rw [emit_other _ _ _ _ hkind, h.records kind' k' hkind]
  events k' old hold := events_emit hinv _ _ _ (h.events k' old hold)

theorem Saves.answered (h : Saves s t entity.kind (q.key recordId) item)
    (hkind : entity.kind ≠ .outbox)
    (hnew : ∀ old, (s.records entity.kind).get? (q.key recordId) = some old →
      entity = .annotated ∧ Resubmits entity.kind old item ∨
      Earlier setting s q entity (q.key recordId) item) :
    Answered setting s t q entity item := by
  refine ⟨q.key recordId, rfl, rfl, ?_, ?_⟩
  · rw [h.records _ _ hkind, if_pos ⟨rfl, rfl⟩]
  · cases hget : (s.records entity.kind).get? (q.key recordId) with
    | none => exact .inl rfl
    | some old =>
      rcases hnew old hget with ⟨hentity, hsame⟩ | hearlier
      · exact .inr (.inl ⟨hentity, old, rfl, hsame⟩)
      · exact .inr (.inr hearlier)

theorem Saves.frame_iff (h : Saves s t kind k item) (hkind : kind ≠ .outbox) : Frame s t ↔
    ∀ old, (s.records kind).get? k = some old → item = old ∨ Resubmits kind old item := by
  constructor
  · intro hframe old hold
    obtain ⟨r, hr, hkept⟩ := hframe kind k old hold
    rw [h.records _ _ hkind, if_pos ⟨rfl, rfl⟩] at hr
    exact Option.some.inj hr ▸ hkept
  · intro hsame kind' k' old hold
    by_cases hevents : kind' = .outbox
    · subst hevents
      exact ⟨old, h.events k' old hold, .inl rfl⟩
    · rw [h.records _ _ hevents]
      by_cases hboth : kind' = kind ∧ k' = k
      · obtain ⟨rfl, rfl⟩ := hboth
        exact ⟨item, if_pos ⟨rfl, rfl⟩, hsame old hold⟩
      · exact ⟨old, (if_neg hboth).trans hold, .inl rfl⟩

theorem not_resubmits (h : entityOf kind item ≠ .annotated) :
    ¬Resubmits kind old item := fun hsame => h hsame.2.1

/-! ## Answering again -/

theorem Inv.withKey (hinv : Inv setting s) (h : withKey s kind q = some r) :
    ∃ k, k.tenantId = q.tenantId ∧ k.projectId = q.projectId ∧ (s.records kind).get? k = some r ∧
      get r "idempotency_key" = optional q.idempotencyKey := by
  obtain ⟨k, hk⟩ := (Dict.mem_values _ _).1 (List.mem_of_find?_eq_some h)
  have hsame := List.find?_some h
  obtain ⟨htenant, hproject⟩ := hinv.owner kind k r hk
  simp only [sameKey, Bool.and_eq_true, is_iff, htenant, hproject] at hsame
  exact ⟨k, Doc.str.inj hsame.1.2, Doc.str.inj hsame.2, hk, hsame.1.1⟩

theorem Inv.answered_withKey (hinv : Inv setting s)
    (h : DataService.withKey s entity.kind q = some r)
    (hkey : q.idempotencyKey ≠ none) (hentity : entityOf entity.kind r = entity) :
    Answered setting s s q entity r := by
  obtain ⟨k, htenant, hproject, hk, hsame⟩ := hinv.withKey h
  obtain ⟨c, hc, hcAt, hcEntity, hcKey⟩ := hinv.created _ _ _ hk
  exact ⟨k, htenant, hproject, hk,
    .inr (.inr ⟨hk, hentity, c, hc, hcAt, hcEntity.trans hentity, hcKey,
    .inl ⟨hkey, optional_injective (hcKey.trans hsame)⟩⟩)⟩

theorem withKey_of_replayed (h : replayed s kind q = some r) :
    q.idempotencyKey ≠ none ∧ withKey s kind q = some r := by
  unfold replayed at h
  split at h
  · cases h
  · rename_i key hkey
    split at h
    · cases h
    · exact ⟨by simp [hkey], h⟩

/-! ## Intakes -/

section Samples

variable (setting)

/-- The samples that `sources` give, up to the first with a reference that is not valid. -/
def sourceSamples (q : Request) (manifestId : String) : Nat → List Doc → List (String × Record)
  | _, [] => []
  | n, .obj fields :: sources =>
    let source := record fields
    let sampleId := sourceId setting source
    if sampleId = "" then sourceSamples q manifestId n sources
    else
      match validateObjectReference setting (get source "source_ref") with
      | .error _ => []
      | .ok sourceRef =>
        (sampleId, sampleItem q sampleId sourceRef
          ((source.get? "media_type").getD (.str "application/octet-stream"))
          (.obj [("hard_sample_manifest_id", .str manifestId),
            ("dataset_split", (source.get? "dataset_split").getD (.str "train"))]) (q.now n)) ::
          sourceSamples q manifestId (n + 1) sources
  | n, _ :: sources => sourceSamples q manifestId n sources

end Samples

theorem mem_sourceSamples (manifestId : String) (sources : List Doc) (n : Nat) :
    ∀ e ∈ sourceSamples setting q manifestId n sources, ∃ sourceRef mediaType metadata now,
      e.2 = sampleItem q e.1 sourceRef mediaType metadata now := by
  induction sources generalizing n with
  | nil => exact fun e he => absurd he List.not_mem_nil
  | cons source _ ih =>
    cases source with
    | obj =>
      unfold sourceSamples
      dsimp only
      split
      · exact ih n
      · split
        · exact fun e he => absurd he List.not_mem_nil
        · intro e he
          rcases List.mem_cons.1 he with rfl | he
          · exact ⟨_, _, _, _, rfl⟩
          · exact ih _ e he
    | null | bool _ | num _ | str _ | arr _ => exact ih n

theorem keyOf_sourceSamples (manifestId : String) (sources : List Doc) (n : Nat) :
    ∀ e ∈ sourceSamples setting q manifestId n sources, DataStore.keyOf setting e.2 e.1 =
      q.key e.1 := by
  intro e he
  obtain ⟨_, _, _, _, hitem⟩ := mem_sourceSamples manifestId sources n e he
  simp [hitem, DataStore.keyOf, sampleItem, record, Dict.ofList, Request.key]

theorem intakeSources_samples (manifestId : String) (sources : List Doc) (n : Nat) :
    (intakeSources setting q manifestId n s sources).2 =
      (sourceSamples setting q manifestId n sources).foldl
      (fun s e => s.create setting .sample e.2 e.1 none) s := by
  induction sources generalizing n s with
  | nil => rfl
  | cons source _ ih =>
    cases source with
    | obj fields =>
      unfold intakeSources sourceSamples
      by_cases hid : sourceId setting (record fields) = ""
      · rw [if_pos hid, if_pos hid]
        exact ih n
      · rw [if_neg hid, if_neg hid]
        cases validateObjectReference setting (get (record fields) "source_ref") with
        | error => rfl
        | ok => exact ih _
    | null | bool _ | num _ | str _ | arr _ => exact ih n

theorem get?_foldl_create {samples : List (String × Record)}
    (hkeys : ∀ e ∈ samples, DataStore.keyOf setting e.2 e.1 = q.key e.1) (kind : Kind) (k : Key) :
    ((samples.foldl (fun s e => s.create setting .sample e.2 e.1 none) s).records kind).get? k =
      if kind = .intakes ∧ k = q.key k.recordId then
        ((Dict.ofList samples).get? k.recordId).or ((s.records kind).get? k)
      else (s.records kind).get? k := by
  induction samples using List.reverseRecOn with
  | nil => simp [Dict.ofList]
  | append_singleton samples e ih =>
    have hofList : Dict.ofList (samples ++ [e]) = (Dict.ofList samples).insert e.1 e.2 :=
      List.foldl_append
    rw [List.foldl_append, List.foldl_cons, List.foldl_nil, DataStore.get?_create, hofList,
      Dict.get?_insert, ih fun e' he' => hkeys e' (List.mem_append_left _ he'),
      hkeys e (List.mem_append_right _ List.mem_cons_self)]
    by_cases hcaller : kind = .intakes ∧ k = q.key k.recordId
    · rw [if_pos hcaller, if_pos hcaller]
      by_cases hid : k.recordId = e.1
      · rw [if_pos ⟨hcaller.1, hid ▸ hcaller.2⟩, if_pos hid]
        rfl
      · rw [if_neg fun hboth => hid (congrArg Key.recordId hboth.2), if_neg hid]
    · rw [if_neg hcaller, if_neg hcaller, if_neg]
      rintro ⟨hkind, hkey⟩
      exact hcaller ⟨hkind, by rw [hkey]; rfl⟩

theorem entityOf_intakes (r : Record) : entityOf .intakes r ≠ .annotated := by
  unfold entityOf
  dsimp only
  split <;> decide

theorem intake_frame_iff {manifestId : String} {samples : List (String × Record)}
    (hnone : (s.records .intakes).get? (q.key manifestId) = none)
    (hmanifest : Saves s u .intakes (q.key manifestId) item)
    (hkeys : ∀ e ∈ samples, DataStore.keyOf setting e.2 e.1 = q.key e.1)
    (hrecords : ∀ kind k, kind ≠ .outbox → (t.records kind).get? k =
      ((samples.foldl (fun s e => s.create setting .sample e.2 e.1 none) u).records kind).get? k)
    (hevents : ∀ k old, (s.records .outbox).get? k = some old →
      (t.records .outbox).get? k = some old) :
    Frame s t ↔ ∀ sampleId sample old, (Dict.ofList samples).get? sampleId = some sample →
      (s.records .intakes).get? (q.key sampleId) = some old → old = sample := by
  constructor
  · intro hframe sampleId sample old hsample hold
    obtain ⟨r, hr, hkept⟩ := hframe .intakes (q.key sampleId) old hold
    rw [hrecords _ _ (by decide), get?_foldl_create hkeys, if_pos ⟨rfl, rfl⟩] at hr
    rw [show (q.key sampleId).recordId = sampleId from rfl, hsample, Option.some_or] at hr
    rcases hkept with rfl | hsame
    · exact (Option.some.inj hr).symm
    · exact absurd hsame (not_resubmits (entityOf_intakes r))
  · intro hsame kind k old hold
    by_cases hkind : kind = .outbox
    · subst hkind
      exact ⟨old, hevents k old hold, .inl rfl⟩
    · have hstays : (u.records kind).get? k = some old := by
        rw [hmanifest.records _ _ hkind, if_neg]
        · exact hold
        · rintro ⟨rfl, rfl⟩
          simp [hnone] at hold
      rw [hrecords _ _ hkind, get?_foldl_create hkeys, hstays]
      split
      · rename_i hcaller
        obtain ⟨rfl, hkey⟩ := hcaller
        cases hsample : (Dict.ofList samples).get? k.recordId with
        | none => exact ⟨old, rfl, .inl rfl⟩
        | some sample => exact ⟨sample, rfl, .inl (hsame _ _ old hsample (hkey ▸ hold)).symm⟩
      · exact ⟨old, rfl, .inl rfl⟩

end Scenara.DataService
