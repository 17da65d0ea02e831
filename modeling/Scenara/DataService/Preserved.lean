import Scenara.DataService.Frame

/-!
# When creating preserves what is there

* `Preserving`: the condition, route by route. The handlers write under ids of the caller, samples
  and manifests share a map, and a task without a key is looked for among all records without one.
-/

namespace Scenara.DataService

open Scenara.Core

variable (setting : Setting)
variable {body : Record}

/-! ## The condition -/

/-- A record that is under the id already is the new one, and the request names the id, or its
key. -/
def Rewrites (s : DataStore) (q : Request) (kind : Kind) (recordId : String) (item : Record) :
    Prop :=
  ∀ old, (s.records kind).get? (q.key recordId) = some old →
    old = item ∧ (q.route.explicitId setting ≠ none ∨
      q.idempotencyKey ≠ none ∧ get item "idempotency_key" = optional q.idempotencyKey)

/-- A manifest that is new names, in its sources, no sample that is there, but for the very same. -/
def IntakePreserving (s : DataStore) (q : Request) (body : Record) : Prop :=
  let manifestId := setting.str (get (manifestOf body) "manifest_id")
  match (s.records .intakes).get? (q.key manifestId) with
  | some old => entityOf .intakes old = .manifest
  | none => ∀ sampleId sample old,
    (Dict.ofList (sourceSamples setting q manifestId 1 (sourcesOf body))).get? sampleId =
      some sample → (s.records .intakes).get? (q.key sampleId) = some old → old = sample

/-- When a create request returns and destroys nothing of somebody else. -/
def Preserving (s : DataStore) (q : Request) : Prop :=
  match q.route with
  | .createDataset body =>
    let datasetId := body.datasetId.getD ("dst_" ++ s.uuid setting)
    replayed s .datasets q = none →
      Rewrites setting s q .datasets datasetId (datasetItem q datasetId body)
  | .createQualityRun body =>
    let runId := namedId setting s body "quality_run_id" "qr_"
    Rewrites setting s q .quality runId (qualityItem q runId body)
  | .createLineageSnapshot body =>
    let snapshotId := namedId setting s body "lineage_snapshot_id" "ls_"
    Rewrites setting s q .lineage snapshotId (lineageItem setting q snapshotId body)
  | .hardSampleIntake body =>
    (∃ items, checkManifest setting q (manifestOf body) = .ok items) →
      IntakePreserving setting s q body
  | .createSample body =>
    let sampleId := setting.str ((body.get? "sample_id").getD (.str ""))
    sampleId ≠ "" → (∃ ref, validateObjectReference setting (get body "source_ref") = .ok ref) →
      ∀ old, (s.records .intakes).get? (q.key sampleId) = some old → entityOf .intakes old = .sample
  | .createAnnotationTask _ => q.idempotencyKey = none → withKey s .annotations q = none
  | .createAnnotationItem body =>
    let taskId := (body.get? "task_id").getD (.str "")
    let sampleId := (body.get? "sample_id").getD (.str "")
    ∀ old, (s.records .annotations).get? (q.key (annotationId setting taskId sampleId)) = some old →
      get old "task_id" = taskId ∧ get old "sample_id" = sampleId
  | _ => True

variable {setting} {s t u : DataStore} {q : Request} {kind : Kind} {k : Key} {item old r : Record}
  {entity : Entity} {recordId : String}

/-! ## The handlers -/

theorem Saves.keeps_iff (h : Saves s t entity.kind (q.key recordId) item) (hinv : Inv setting s)
    (hkind : entity.kind ≠ .outbox) (hentity : entityOf entity.kind item = entity)
    (hne : entity ≠ .annotated)
    (hid : ∀ given, q.route.explicitId setting = some given → recordId = given) :
    Answered setting s t q entity item ∧ Frame s t ↔
      Rewrites setting s q entity.kind recordId item := by
  have hnot (old : Record) : ¬Resubmits entity.kind old item := not_resubmits (hentity.trans_ne hne)
  rw [h.frame_iff hkind]
  constructor
  · rintro ⟨⟨k, _, _, hstored, hanswer⟩, hframe⟩ old hold
    obtain rfl : item = old := (hframe old hold).resolve_right (hnot old)
    refine ⟨rfl, ?_⟩
    rcases hanswer with hnone | ⟨hannotated, -⟩ | hearlier
    · -- The record that was there is at the id.
      rw [h.records _ _ hkind] at hstored
      by_cases hk : k = q.key recordId
      · simp [hk, hold] at hnone
      · rw [if_neg fun hboth => hk hboth.2, hnone] at hstored
        cases hstored
    · exact absurd hannotated hne
    · obtain ⟨c, -, -, -, hkey, hsame | hexplicit⟩ := hearlier.created
      · exact .inr ⟨hsame.1, by rw [← hkey, hsame.2]⟩
      · exact .inl (by rw [hexplicit]; exact Option.some_ne_none _)
  · intro hrewrites
    refine ⟨h.answered hkind fun old hold => .inr ?_,
      fun old hold => .inl (hrewrites old hold).1.symm⟩
    obtain ⟨rfl, hnamed⟩ := hrewrites old hold
    obtain ⟨c, hc, hkey, hcEntity, hcKey⟩ := hinv.created _ _ _ hold
    refine ⟨hold, hentity, c, hc, hkey, hcEntity.trans hentity, hcKey, ?_⟩
    rcases hnamed with hexplicit | ⟨hsome, hitem⟩
    · obtain ⟨given, hgiven⟩ := Option.ne_none_iff_exists'.1 hexplicit
      rw [hgiven, hid given hgiven]
      exact .inr rfl
    · exact .inl ⟨hsome, optional_injective (hcKey.trans hitem)⟩

theorem keeps_error (e : Error) : Keeps setting s q entity (.error e, s) := ⟨nofun, .refl s⟩

theorem keeps_error_iff {e : Error} : Keeps setting s q entity (.error e, t) ↔ Frame s t :=
  and_iff_right nofun

theorem keeps_ok_iff : Keeps setting s q entity (.ok r, t) ↔ Answered setting s t q entity r ∧
    Frame s t :=
  and_congr_left' ⟨fun h => h r rfl, fun h r' hr' => by cases hr'; exact h⟩

theorem saves_emitted (hinv : Inv setting s) {idempotencyKey : Option String}
    (hnew : New setting q s.draw.drawn entity item recordId idempotencyKey)
    (hkind : entity.kind ≠ .outbox)
    (eventType : String) (data : List (String × Doc)) (now : String) :
    Saves s (emit setting (s.draw.create setting entity item recordId idempotencyKey) q eventType
      data now) entity.kind (q.key recordId) item :=
  have hcreated : Saves s.draw (s.draw.create setting entity item recordId idempotencyKey)
      entity.kind (q.key recordId) item := saves_create hnew.keyOf hkind
  have hsaves : Saves s (s.draw.create setting entity item recordId idempotencyKey) entity.kind
      (q.key recordId) item := ⟨hcreated.records, hcreated.events⟩
  hsaves.emit (hinv.draw.create hnew) eventType data now

theorem rewrites_fresh (hinv : Inv setting s) (entity : Entity) {stem : String}
    (hstem : entity.stem = some stem) :
    Rewrites setting s q entity.kind (stem ++ s.uuid setting) item := by
  intro _ hold
  simp [hinv.fresh entity hstem] at hold

theorem createDataset_iff (hinv : Inv setting s) {body : DatasetCreate}
    (hroute : q.route = .createDataset body) :
    Keeps setting s q .dataset (createDataset setting s q body) ↔ Preserving setting s q := by
  unfold createDataset Preserving
  rw [hroute]
  cases hreplayed : replayed s .datasets q with
  | some =>
    obtain ⟨hkey, hfound⟩ := withKey_of_replayed hreplayed
    exact iff_of_true (keeps_ok_iff.2 ⟨hinv.answered_withKey hfound hkey rfl, .refl s⟩) nofun
  | none =>
    have hnew : New setting q s.draw.drawn .dataset _ _ _ := new_dataset body _ rfl
    have hsaves := saves_emitted hinv hnew (by decide) "dataset.created"
      [("dataset_id", .str (body.datasetId.getD ("dst_" ++ s.uuid setting)))] (q.now 1)
    refine keeps_ok_iff.trans
      ((hsaves.keeps_iff hinv (by decide) rfl (by decide) fun given hgiven => ?_).trans
      ⟨fun h _ => h, fun h => h rfl⟩)
    rw [hroute] at hgiven
    rw [show body.datasetId = some given from hgiven, Option.getD_some]

theorem createVersion_keeps (hinv : Inv setting s) {datasetId : String} {body : VersionCreate}
    (hroute : q.route = .createVersion datasetId body) :
    Keeps setting s q .version (createVersion setting s q datasetId body) := by
  unfold createVersion
  split
  · exact keeps_error _
  · cases hreplayed : replayed s .versions q with
    | some =>
      obtain ⟨hkey, hfound⟩ := withKey_of_replayed hreplayed
      exact keeps_ok_iff.2 ⟨hinv.answered_withKey hfound hkey rfl, .refl s⟩
    | none =>
      dsimp only
      split
      · exact keeps_error _
      · have hnew : New setting q s.draw.drawn .version _ _ _ := new_version datasetId body
        have hsaves := saves_emitted hinv hnew (by decide) "dataset.version.created"
          [("dataset_version_id", .str ("dsv_" ++ s.uuid setting)), ("dataset_id", .str datasetId)]
            (q.now 1)
        refine keeps_ok_iff.2 ((hsaves.keeps_iff hinv (by decide) rfl (by decide)
          fun given hgiven => ?_).2 (rewrites_fresh hinv .version rfl))
        rw [hroute] at hgiven
        cases hgiven

theorem namedId_of_given {field stem given : String} (h : givenId setting body field = some given) :
    namedId setting s body field stem = given := by
  unfold givenId at h
  unfold namedId orElse
  split at h
  · rw [if_pos ‹_›]
    exact Option.some.inj h
  · cases h

section

variable (hinv : Inv setting s)
include hinv

theorem createQualityRun_iff (hroute : q.route = .createQualityRun body) :
    Keeps setting s q .quality (createQualityRun setting s q body) ↔ Preserving setting s q := by
  have hnew : New setting q s.draw.drawn .quality _ _ _ :=
    new_quality (namedId setting s body "quality_run_id" "qr_") body
  have hsaves := saves_emitted hinv hnew (by decide) "quality.started"
    [("quality_run_id", .str (namedId setting s body "quality_run_id" "qr_")),
      ("dataset_id", get (qualityItem q (namedId setting s body "quality_run_id" "qr_") body)
        "dataset_id")] (q.now 1)
  unfold Preserving
  rw [hroute]
  refine keeps_ok_iff.trans (hsaves.keeps_iff hinv (by decide) rfl (by decide)
    fun given hgiven => ?_)
  rw [hroute] at hgiven
  exact namedId_of_given hgiven

theorem createLineageSnapshot_iff (hroute : q.route = .createLineageSnapshot body) :
    Keeps setting s q .lineage (createLineageSnapshot setting s q body) ↔
    Preserving setting s q := by
  have hnew : New setting q s.draw.drawn .lineage _ _ _ :=
    new_lineage (namedId setting s body "lineage_snapshot_id" "ls_") body
  have hsaves := saves_emitted hinv hnew (by decide) "lineage.snapshot.created"
    [("lineage_snapshot_id", .str (namedId setting s body "lineage_snapshot_id" "ls_"))] (q.now 1)
  unfold Preserving
  rw [hroute]
  refine keeps_ok_iff.trans (hsaves.keeps_iff hinv (by decide) rfl (by decide)
    fun given hgiven => ?_)
  rw [hroute] at hgiven
  exact namedId_of_given hgiven

theorem keeps_there_iff (entity : Entity)
    (hthere : (s.records entity.kind).get? (q.key recordId) = some old)
    (hne : entity ≠ .annotated) (hexplicit : q.route.explicitId setting = some recordId) :
    Keeps setting s q entity (.ok old, s) ↔ entityOf entity.kind old = entity := by
  rw [keeps_ok_iff]
  constructor
  · rintro ⟨⟨k, -, -, hstored, hnone | ⟨hannotated, -⟩ | hearlier⟩, -⟩
    · simp [hstored] at hnone
    · exact absurd hannotated hne
    · exact hearlier.entityOf
  · intro hentity
    obtain ⟨c, hc, hkey, hcEntity, hcKey⟩ := hinv.created _ _ _ hthere
    exact ⟨⟨_, rfl, rfl, hthere,
      .inr (.inr ⟨hthere, hentity, c, hc, hkey, hcEntity.trans hentity, hcKey,
      .inr hexplicit⟩)⟩, .refl s⟩

theorem createSample_iff (hroute : q.route = .createSample body) :
    Keeps setting s q .sample (createSample setting s q body) ↔ Preserving setting s q := by
  unfold createSample Preserving
  rw [hroute]
  dsimp only
  split
  · rename_i hempty
    exact iff_of_true (keeps_error _) fun hne => absurd hempty hne
  · rename_i hne
    cases href : validateObjectReference setting (get body "source_ref") with
    | error => exact iff_of_true (keeps_error _) fun _ hok => nomatch hok
    | ok sourceRef =>
      dsimp only
      cases hthere : (s.records .intakes).get?
          (q.key (setting.str ((body.get? "sample_id").getD (.str "")))) with
      | none =>
        have hnew : New setting q 0 .sample _ _ none :=
          new_sample (setting.str ((body.get? "sample_id").getD (.str ""))) sourceRef
            ((body.get? "media_type").getD (.str "application/octet-stream"))
            ((body.get? "sample_metadata").getD (.obj [])) (q.now 0)
        have hsaves : Saves s (s.create setting .sample _ _ none) Entity.sample.kind (q.key _) _ :=
          saves_create hnew.keyOf (by decide)
        refine iff_of_true (keeps_ok_iff.2 ⟨hsaves.answered (by decide) ?_,
          (hsaves.frame_iff (by decide)).2 ?_⟩)
          fun _ _ => nofun
        all_goals
          intro _ hold
          simp [show Entity.sample.kind = .intakes from rfl, hthere] at hold
      | some old =>
        rw [Option.isSome_some, if_pos rfl, answerIntake, hthere]
        rw [keeps_there_iff hinv .sample hthere (by decide) (by rw [hroute]; rfl)]
        exact ⟨fun hsample _ _ _ hold => Option.some.inj hold ▸ hsample,
          fun h => h hne ⟨sourceRef, rfl⟩ old rfl⟩

theorem createAnnotationTask_iff (hroute : q.route = .createAnnotationTask body) :
    Keeps setting s q .task (createAnnotationTask setting s q body) ↔ Preserving setting s q := by
  unfold createAnnotationTask Preserving
  rw [hroute]
  cases hfound : withKey s .annotations q with
  | some existing =>
    rw [keeps_ok_iff]
    by_cases hkey : q.idempotencyKey = none
    · -- A record without a key is returned, and nobody asked for it.
      refine iff_of_false ?_ fun h => nomatch h hkey
      rintro ⟨⟨k, -, -, hstored, hnone | ⟨hannotated, -⟩ | hearlier⟩, -⟩
      · rw [hstored] at hnone
        cases hnone
      · cases hannotated
      · obtain ⟨c, -, -, -, -, hsame | hexplicit⟩ := hearlier.created
        · exact hsame.1 hkey
        · rw [hroute] at hexplicit
          cases hexplicit
    · -- Only tasks have a key.
      obtain ⟨k, -, -, hk, hsame⟩ := hinv.withKey hfound
      have hshape : TaskShape setting k.recordId existing := hinv.shape .annotations k existing hk
      have htask : entityOf .annotations existing = .task := by
        refine hshape.keyed fun hnull => hkey ?_
        exact optional_injective (hsame.symm.trans hnull)
      exact iff_of_true ⟨hinv.answered_withKey hfound hkey htask, .refl s⟩
        fun hno => absurd hno hkey
  | none =>
    refine iff_of_true ?_ fun _ => rfl
    dsimp only
    split
    · exact keeps_error _
    · rename_i sampleIds hsampleIds
      have hnew : New setting q s.draw.drawn .task _ _ _ :=
        new_task ((body.get? "dataset_id").getD (.str ""))
        ((body.get? "schema_id").getD (.str "")) sampleIds ((body.get? "metadata").getD (.obj []))
      have hsaves := saves_emitted hinv hnew (by decide) "annotation.task.created"
        [("task_id", .str ("task_" ++ s.uuid setting)),
          ("dataset_id", (body.get? "dataset_id").getD (.str ""))] (q.now 1)
      refine keeps_ok_iff.2 ((hsaves.keeps_iff hinv (by decide) hnew.entityOf (by decide)
        fun given hgiven => ?_).2 (rewrites_fresh hinv .task rfl))
      rw [hroute] at hgiven
      cases hgiven

theorem createAnnotationItem_iff (hroute : q.route = .createAnnotationItem body) :
    Keeps setting s q .annotated (createAnnotationItem setting s q body) ↔
    Preserving setting s q := by
  unfold Preserving
  rw [hroute]
  let taskId := (body.get? "task_id").getD (.str "")
  let sampleId := (body.get? "sample_id").getD (.str "")
  let item := annotationItem q (annotationId setting taskId sampleId) taskId sampleId body
  have hnew : New setting q s.drawn .annotated item (annotationId setting taskId sampleId) none :=
    new_annotated taskId sampleId body
  have hsaves : Saves s (createAnnotationItem setting s q body).2 Entity.annotated.kind
      (q.key (annotationId setting taskId sampleId)) item := saves_create hnew.keyOf (by decide)
  have htask : get item "task_id" = taskId := by simp [item, annotationItem, record, Dict.ofList]
  have hsample : get item "sample_id" = sampleId := by simp [item, annotationItem, record,
      Dict.ofList]
  refine (keeps_ok_iff (r := item) (t := (createAnnotationItem setting s q body).2)).trans ?_
  rw [hsaves.frame_iff (by decide)]
  constructor
  · rintro ⟨-, hframe⟩ old hold
    rcases hframe old hold with rfl | ⟨-, -, hsame⟩
    · exact ⟨htask, hsample⟩
    · rwa [htask, hsample] at hsame
  · intro hsame
    have hresubmits : ∀ old, (s.records .annotations).get?
        (q.key (annotationId setting taskId sampleId)) = some old →
        Resubmits .annotations old item := by
      intro old hold
      -- What is under such an id is an annotation.
      have hid : (q.key (annotationId setting taskId sampleId)).recordId =
          "annotation_" ++ (setting.str taskId ++ ("_" ++ setting.str sampleId)) := by
        simp only [Request.key, annotationId, String.append_assoc]
      have hannotated : entityOf .annotations old = .annotated := by
        rcases hinv.annotations hold with ⟨-, n, -, hn⟩ | ⟨-, n, -, hn⟩ | ⟨hannotated, -⟩
        · exact absurd (hid.symm.trans hn) (stem_ne rfl rfl (by decide) _ _)
        · exact absurd (hid.symm.trans hn) (stem_ne rfl rfl (by decide) _ _)
        · exact hannotated
      obtain ⟨holdTask, holdSample⟩ := hsame old hold
      exact ⟨hannotated, hnew.entityOf, holdTask.trans htask.symm, holdSample.trans hsample.symm⟩
    exact ⟨hsaves.answered (by decide) fun old hold => .inl ⟨rfl, hresubmits old hold⟩,
      fun old hold => .inr (hresubmits old hold)⟩

theorem createAnnotationProvider_keeps (hroute : q.route = .createAnnotationProvider body) :
    Keeps setting s q .provider (createAnnotationProvider setting s q body) := by
  have hnew : New setting q s.draw.drawn .provider _ _ _ := new_provider body
  have hcreated : Saves s.draw (s.draw.create setting .provider _ _ none) Entity.provider.kind
      (q.key _) _ :=
    saves_create hnew.keyOf (by decide)
  have hsaves : Saves s (createAnnotationProvider setting s q body).2 Entity.provider.kind
      (q.key ("provider_" ++ s.uuid setting)) _ := ⟨hcreated.records, hcreated.events⟩
  refine keeps_ok_iff.2 ((hsaves.keeps_iff hinv (by decide) hnew.entityOf (by decide)
    fun given hgiven => ?_).2 (rewrites_fresh hinv .provider rfl))
  rw [hroute] at hgiven
  cases hgiven

theorem hardSampleIntake_iff (hroute : q.route = .hardSampleIntake body) :
    Keeps setting s q .manifest (hardSampleIntake setting s q body) ↔ Preserving setting s q := by
  unfold hardSampleIntake Preserving
  rw [hroute]
  dsimp only
  cases hcheck : checkManifest setting q (manifestOf body) with
  | error e => exact iff_of_true (keeps_error e) fun hok => nomatch hok
  | ok items =>
    rw [forall_prop_of_true ⟨items, rfl⟩]
    unfold IntakePreserving
    dsimp only
    cases hthere : (s.records .intakes).get?
      (q.key (setting.str (get (manifestOf body) "manifest_id"))) with
    | some =>
      rw [Option.isSome_some, if_pos rfl, answerIntake, hthere]
      exact keeps_there_iff hinv .manifest hthere (by decide) (by rw [hroute]; rfl)
    | none =>
      let manifestId := setting.str (get (manifestOf body) "manifest_id")
      let item := manifestItem q manifestId (manifestOf body) items
      let samples := sourceSamples setting q manifestId 1 (sourcesOf body)
      let u := s.create setting .manifest item manifestId q.idempotencyKey
      have hnew : New setting q s.drawn .manifest item manifestId q.idempotencyKey :=
        new_manifest ..
      have hmanifest : Saves s u .intakes (q.key manifestId) item :=
        saves_create hnew.keyOf (by decide)
      have hkeys : ∀ e ∈ samples, DataStore.keyOf setting e.2 e.1 = q.key e.1 :=
        keyOf_sourceSamples _ _ _
      have hwritten : (intakeSources setting q manifestId 1 u (sourcesOf body)).2 = _ :=
        intakeSources_samples ..
      rw [Option.isSome_none, if_neg Bool.false_ne_true]
      generalize hsources : intakeSources setting q manifestId 1 u (sourcesOf body) = result
        at hwritten ⊢
      obtain ⟨outcome, v⟩ := result
      have hevents : ∀ k old, (s.records .outbox).get? k = some old →
          (v.records .outbox).get? k = some old := by
        intro k old hold
        rw [show v = _ from hwritten, get?_foldl_create hkeys, if_neg fun hboth => nomatch hboth.1]
        exact hmanifest.events k old hold
      cases outcome with
      | error e =>
        rw [keeps_error_iff]
        exact intake_frame_iff hthere hmanifest hkeys
          (fun _ _ _ => by rw [show v = _ from hwritten]) hevents
      | ok =>
        let data := [("manifest_id", Doc.str manifestId), ("item_count", Doc.int items.length)]
        let t := emit setting v q "hard_sample.imported" data (q.now (1 + (sourcesOf body).length))
        have hother : ∀ kind k, kind ≠ .outbox →
            (t.records kind).get? k = (v.records kind).get? k :=
          fun kind k hkind => emit_other _ _ _ _ hkind
        have hv : Inv setting v := by
          have hwrites : Writes setting q [.manifest, .sample] s v := by
            have hfirst : Writes setting q [.manifest, .sample] s u :=
              Writes.refl.create hnew (by simp)
            have hthen := intakeSources_writes manifestId (sourcesOf body) 1 hfirst
            rwa [hsources] at hthen
          exact hwrites.inv hinv
        -- The manifest is there, or a sample with its id.
        obtain ⟨r, hr⟩ : ∃ r, (t.records .intakes).get? (q.key manifestId) = some r := by
          rw [hother _ _ (by decide), show v = _ from hwritten, get?_foldl_create hkeys,
            if_pos ⟨rfl, rfl⟩, hmanifest.records _ _ (by decide), if_pos ⟨rfl, rfl⟩]
          cases (Dict.ofList samples).get? (q.key manifestId).recordId with
          | none => exact ⟨item, rfl⟩
          | some sample => exact ⟨sample, rfl⟩
        change Keeps setting s q .manifest (answerIntake t (q.key manifestId), t) ↔ _
        rw [answerIntake, hr]
        rw [keeps_ok_iff, and_iff_right ⟨q.key manifestId, rfl, rfl, hr, .inl hthere⟩]
        exact intake_frame_iff hthere hmanifest hkeys
          (fun kind k hkind => by rw [hother kind k hkind, show v = _ from hwritten])
          fun k old hold => events_emit hv _ _ _ (hevents k old hold)

end

/-- **A create request** preserves what is there exactly when its ids and its key are nobody
else's. -/
theorem preserved_iff (setting : Setting) (requests : List Request) (q : Request) :
    Preserved setting (after setting requests) q ↔
    Preserving setting (after setting requests) q := by
  have hinv : Inv setting (after setting requests) := inv_after requests
  generalize after setting requests = s at hinv
  have hone {entity : Entity} (h : q.route.entity = some entity) :
      Preserved setting s q ↔ Keeps setting s q entity (handle setting s q) := by
    unfold Preserved
    rw [h]
    exact ⟨fun hall => hall entity rfl, fun hkeeps e he => Option.some.inj he ▸ hkeeps⟩
  cases hroute : q.route with
  | createDataset =>
    rw [hone (by rw [hroute]; rfl), handle, hroute]
    exact createDataset_iff hinv hroute
  | createVersion =>
    rw [hone (by rw [hroute]; rfl), handle, Preserving, hroute]
    exact iff_true_intro (createVersion_keeps hinv hroute)
  | createQualityRun =>
    rw [hone (by rw [hroute]; rfl), handle, hroute]
    exact createQualityRun_iff hinv hroute
  | createLineageSnapshot =>
    rw [hone (by rw [hroute]; rfl), handle, hroute]
    exact createLineageSnapshot_iff hinv hroute
  | hardSampleIntake =>
    rw [hone (by rw [hroute]; rfl), handle, hroute]
    exact hardSampleIntake_iff hinv hroute
  | createSample =>
    rw [hone (by rw [hroute]; rfl), handle, hroute]
    exact createSample_iff hinv hroute
  | createAnnotationTask =>
    rw [hone (by rw [hroute]; rfl), handle, hroute]
    exact createAnnotationTask_iff hinv hroute
  | createAnnotationItem =>
    rw [hone (by rw [hroute]; rfl), handle, hroute]
    exact createAnnotationItem_iff hinv hroute
  | createAnnotationProvider =>
    rw [hone (by rw [hroute]; rfl), handle, Preserving, hroute]
    exact iff_true_intro (createAnnotationProvider_keeps hinv hroute)
  | updateDataset _ _ | transitionVersion _ _ | grantVersionAccess _ _
  | transitionAnnotationTask _ _ | reviewAnnotationTask _ _ | probeAnnotationProvider _ =>
    -- These create nothing.
    unfold Preserved Preserving
    rw [hroute]
    exact iff_of_true nofun trivial

/-- A task is asked for, and the provider that is there is returned. -/
theorem provider_returned :
    ¬Preserved plain (after plain [requestOf (.createAnnotationProvider .empty)])
    (requestOf (.createAnnotationTask .empty)) := by
  intro h
  have hkeeps := (createAnnotationTask_iff (inv_after _) rfl).1 (h .task rfl)
  have hfound : (withKey (after plain [requestOf (.createAnnotationProvider .empty)]) .annotations
      (requestOf (.createAnnotationTask .empty))).isSome = true := by decide +kernel
  simp [hkeeps rfl] at hfound

end Scenara.DataService
