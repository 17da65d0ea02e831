import Scenara.DataService.Handlers

/-!
# What is so of every record

* `Inv`: every record has its shape, belongs to the tenant and project of its key, and was created
  as what it is; `handle_writes` says it of every handler, `inv_handle` follows.
-/

namespace Scenara.DataService

open Scenara.Core

/-! ## Shapes -/

/-- What the ids of an entity start with, where the service draws them. -/
def Entity.stem : Entity → Option String
  | .version => some "dsv_"
  | .task => some "task_"
  | .provider => some "provider_"
  | .event => some "evt_"
  | .dataset | .manifest | .sample | .annotated | .quality | .lineage => none

/-- The statuses that versions have. -/
def versionStatuses : List String := ["draft", "ready", "validated", "published", "archived"]

variable (setting : Setting)

/-- A dataset. -/
structure DatasetShape (drawn : Nat) (recordId : String) (r : Record) : Prop where
  datasetId : get r "dataset_id" = .str recordId
  length : (2 ≤ recordId.length ∧ recordId.length ≤ 128) ∨ setting.ids.Drawn "dst_" drawn recordId
  name : ∃ name, get r "name" = .str name ∧ 1 ≤ name.length ∧ name.length ≤ 256
  description : ∃ description, get r "description" = .str description ∧ description.length ≤ 4000
  status : ∃ status ∈ datasetStatuses, get r "status" = .str status
  metadata : ∃ fields, get r "metadata" = .obj fields
  noAlias : get r "dataset_metadata" = .null

/-- A version. -/
structure VersionShape (recordId : String) (r : Record) : Prop where
  versionId : get r "dataset_version_id" = .str recordId
  datasetId : ∃ datasetId, get r "dataset_id" = .str datasetId
  version : ∃ version, get r "version" = .str version ∧ isVersionLabel version
  status : ∃ status ∈ versionStatuses, get r "status" = .str status
  digest : ∃ digest, get r "manifest_sha256" = .str digest ∧ isSha256 digest
  count : ∃ n, get r "sample_count" = .int n
  noAlias : get r "dataset_version" = .null

/-- A task, an annotation or a provider. -/
structure TaskShape (recordId : String) (r : Record) : Prop where
  annotated : entityOf .annotations r = .annotated →
    recordId = annotationId setting (get r "task_id") (get r "sample_id")
  /-- Only tasks have a key. -/
  keyed : get r "idempotency_key" ≠ .null → entityOf .annotations r = .task

/-- What a record of a map looks like. -/
def Shape (kind : Kind) (drawn : Nat) (recordId : String) (r : Record) : Prop :=
  match kind with
  | .datasets => DatasetShape setting drawn recordId r
  | .versions => VersionShape recordId r
  | .annotations => TaskShape setting recordId r
  | _ => True

variable {setting} {s t : DataStore} {q : Request} {kind : Kind} {k : Key} {r r' item : Record}
  {recordId : String} {m n : Nat} {entities : List Entity}

theorem Shape.mono (h : Shape setting kind m recordId r) (hle : m ≤ n) :
    Shape setting kind n recordId r := by
  cases kind with
  | datasets => exact { h with length := h.length.imp_right fun hdrawn => hdrawn.mono hle }
  | versions | annotations => exact h
  | intakes | quality | lineage | outbox => trivial

/-! ## Writes -/

/-- A new item. -/
structure New (setting : Setting) (q : Request) (drawn : Nat) (entity : Entity) (item : Record)
    (recordId : String) (idempotencyKey : Option String) : Prop where
  tenant : get item "tenant_id" = .str q.tenantId
  project : get item "project_id" = .str q.projectId
  key : get item "idempotency_key" = optional idempotencyKey
  entityOf : entityOf entity.kind item = entity
  stem : ∀ stem ∈ entity.stem, setting.ids.Drawn stem drawn recordId
  shape : Shape setting entity.kind drawn recordId item

/-- What a request writes, where it creates items of the given entities, and events. -/
inductive Writes (setting : Setting) (q : Request) (entities : List Entity) (s : DataStore) :
    DataStore → Prop where
  | refl : Writes setting q entities s s
  | draw {t : DataStore} (h : Writes setting q entities s t) : Writes setting q entities s t.draw
  | create {t : DataStore} (h : Writes setting q entities s t) {entity : Entity} {item : Record}
      {recordId : String} {idempotencyKey : Option String}
      (hnew : New setting q t.drawn entity item recordId idempotencyKey)
        (hentity : entity ∈ .event :: entities) :
      Writes setting q entities s (t.create setting entity item recordId idempotencyKey)
  | update {t : DataStore} (h : Writes setting q entities s t) {kind : Kind} {r item : Record}
      {recordId : String} (hfound : (t.records kind).get? (q.key recordId) = some r)
      (hidentity : identity item = identity r)
      (hshape : ∀ n, Shape setting kind n recordId r → Shape setting kind n recordId item) :
      Writes setting q entities s (t.save setting kind item recordId)

theorem New.keyOf {drawn : Nat} {entity : Entity} {idempotencyKey : Option String}
    (h : New setting q drawn entity item recordId idempotencyKey) :
    DataStore.keyOf setting item recordId = q.key recordId := by
  simp [DataStore.keyOf, h.tenant, h.project, Request.key]

theorem emit_writes (h : Writes setting q entities s t) (eventType : String)
    (data : List (String × Doc))
    (now : String) : Writes setting q entities s (emit setting t q eventType data now) := by
  refine h.draw.create ⟨?_, ?_, ?_, rfl, ?_, trivial⟩ List.mem_cons_self
  · simp [record, Dict.ofList]
  · simp [record, Dict.ofList]
  · simp [record, Dict.ofList, optional]
  · rintro _ ⟨⟩
    exact Fresh.Drawn.last rfl

theorem keyOf_congr (h : identity item = identity r) (recordId : String) :
    DataStore.keyOf setting item recordId = DataStore.keyOf setting r recordId := by
  unfold DataStore.keyOf
  rw [get_tenant_congr h, get_project_congr h]

theorem emit_other (eventType : String) (data : List (String × Doc)) (now : String) (k : Key)
    (h : kind ≠ .outbox) : ((emit setting s q eventType data now).records kind).get? k =
      (s.records kind).get? k := by
  unfold emit
  rw [DataStore.get?_create, if_neg fun hboth => h hboth.1]
  rfl

/-! ## The handlers -/

/-- What a route creates. -/
def Route.creates : Route → List Entity
  | .createDataset _ => [.dataset]
  | .createVersion _ _ => [.version]
  | .createQualityRun _ => [.quality]
  | .createLineageSnapshot _ => [.lineage]
  | .hardSampleIntake _ => [.manifest, .sample]
  | .createSample _ => [.sample]
  | .createAnnotationTask _ => [.task]
  | .createAnnotationItem _ => [.annotated]
  | .createAnnotationProvider _ => [.provider]
  | .updateDataset _ _ | .transitionVersion _ _ | .grantVersionAccess _ _ |
      .transitionAnnotationTask _ _
  | .reviewAnnotationTask _ _ | .probeAnnotationProvider _ => []

theorem new_dataset (body : DatasetCreate) (datasetId : String)
    (hid : datasetId = body.datasetId.getD ("dst_" ++ s.uuid setting)) :
    New setting q s.draw.drawn .dataset (datasetItem q datasetId body) datasetId
      q.idempotencyKey := by
  refine ⟨?_, ?_, ?_, rfl, ?_, ?_⟩
  · simp [datasetItem, record, Dict.ofList]
  · simp [datasetItem, record, Dict.ofList]
  · simp [datasetItem, record, Dict.ofList]
  · rintro _ ⟨⟩
  · refine ⟨by simp [datasetItem, record, Dict.ofList], ?_,
      ⟨body.name, by simp [datasetItem, record, Dict.ofList], body.name_length⟩,
      ⟨body.description, by simp [datasetItem, record, Dict.ofList], body.description_length⟩,
      ⟨"draft", by decide, by simp [datasetItem, record, Dict.ofList]⟩,
      ⟨_, by simp [datasetItem, record, Dict.ofList]; rfl⟩, by simp [datasetItem, record,
        Dict.ofList]⟩
    cases hbody : body.datasetId with
    | none =>
      rw [hbody] at hid
      exact .inr (Fresh.Drawn.last hid)
    | some given =>
      rw [hbody] at hid
      exact .inl (hid ▸ body.datasetId_length given hbody)

theorem createDataset_writes (body : DatasetCreate) :
    Writes setting q [.dataset] s (createDataset setting s q body).2 := by
  unfold createDataset
  split
  · exact .refl
  · exact emit_writes (Writes.refl.draw.create (new_dataset body _ rfl) (by simp)) _ _ _

theorem identity_applyUpdate (r : Record) (body : DatasetUpdate) :
    identity (applyUpdate r body) = identity r := by
  unfold applyUpdate
  cases body.name <;> cases body.description <;> cases body.status <;> cases body.metadata <;>
    simp [identity_insert, identityFields]

theorem shape_applyUpdate (body : DatasetUpdate) (now : String)
    (h : DatasetShape setting n recordId r) :
    DatasetShape setting n recordId ((applyUpdate r body).insert "updated_at" (.str now)) := by
  have hget : ∀ field, get (applyUpdate r body) field =
      if field = "metadata" ∧ body.metadata.isSome then .obj (body.metadata.getD .empty).entries
      else if field = "status" ∧ body.status.isSome then .str (body.status.getD "")
      else if field = "description" ∧ body.description.isSome then .str (body.description.getD "")
      else if field = "name" ∧ body.name.isSome then .str (body.name.getD "")
      else get r field := by
    intro _
    unfold applyUpdate
    cases body.name <;> cases body.description <;> cases body.status <;>
      cases body.metadata <;> simp
  refine ⟨?_, h.length, ?_, ?_, ?_, ?_, ?_⟩
  · simp [hget, h.datasetId]
  · obtain ⟨name, hname⟩ := h.name
    cases hbody : body.name with
    | none => exact ⟨name, by simp [hget, hbody, hname.1], hname.2⟩
    | some name' => exact ⟨name', by simp [hget, hbody], body.name_length name' hbody⟩
  · obtain ⟨description, hdescription⟩ := h.description
    cases hbody : body.description with
    | none => exact ⟨description, by simp [hget, hbody, hdescription.1], hdescription.2⟩
    | some d => exact ⟨d, by simp [hget, hbody], body.description_length d hbody⟩
  · obtain ⟨status, hmem, hstatus⟩ := h.status
    cases hbody : body.status with
    | none => exact ⟨status, hmem, by simp [hget, hbody, hstatus]⟩
    | some status' => exact ⟨status', body.status_pattern status' hbody, by simp [hget, hbody]⟩
  · obtain ⟨fields, hfields⟩ := h.metadata
    cases hbody : body.metadata with
    | none => exact ⟨fields, by simp [hget, hbody, hfields]⟩
    | some metadata => exact ⟨metadata.entries, by simp [hget, hbody]⟩
  · simp [hget, h.noAlias]

theorem updateDataset_writes (datasetId : String) (body : DatasetUpdate) :
    Writes setting q [] s (updateDataset setting s q datasetId body).2 := by
  unfold updateDataset
  split
  · exact .refl
  · rename_i r hfound
    refine emit_writes (Writes.refl.update hfound ?_ fun n h =>
      shape_applyUpdate body (q.now 0) h) _ _ _
    rw [identity_insert _ (by decide), identity_applyUpdate]

theorem isSha256_versionDigest (datasetId : String) (body : VersionCreate) :
    isSha256 (versionDigest setting datasetId body) := by
  unfold versionDigest
  split
  · exact setting.sha256_hex _
  · exact body.manifestSha256_pattern.resolve_left ‹_›

theorem new_version (datasetId : String) (body : VersionCreate) :
    New setting q s.draw.drawn .version
      (versionItem setting q ("dsv_" ++ s.uuid setting) datasetId body)
      ("dsv_" ++ s.uuid setting) q.idempotencyKey := by
  refine ⟨?_, ?_, ?_, rfl, ?_, ?_⟩
  · simp [versionItem, record, Dict.ofList]
  · simp [versionItem, record, Dict.ofList]
  · simp [versionItem, record, Dict.ofList]
  · rintro _ ⟨⟩
    exact Fresh.Drawn.last rfl
  · exact ⟨by simp [versionItem, record, Dict.ofList],
      ⟨datasetId, by simp [versionItem, record, Dict.ofList]⟩,
      ⟨body.version, by simp [versionItem, record, Dict.ofList], body.version_pattern⟩,
      ⟨"draft", by decide, by simp [versionItem, record, Dict.ofList]⟩,
      ⟨_, by simp [versionItem, record, Dict.ofList]; rfl, isSha256_versionDigest datasetId body⟩,
      ⟨body.sampleCount, by simp [versionItem, record, Dict.ofList]⟩,
      by simp [versionItem, record, Dict.ofList]⟩

theorem createVersion_writes (datasetId : String) (body : VersionCreate) :
    Writes setting q [.version] s (createVersion setting s q datasetId body).2 := by
  unfold createVersion
  split
  · exact .refl
  · split
    · exact .refl
    · split
      · exact .refl
      · exact emit_writes (Writes.refl.draw.create (new_version ..) (by simp)) _ _ _

theorem mem_versionStatuses (old : String) :
    ∀ status ∈ allowedVersion old, status.text ∈ versionStatuses := by
  unfold allowedVersion
  split_ifs <;> decide

theorem transitionVersion_writes (versionId : String) (status : VersionStatus) :
    Writes setting q [] s (transitionVersion setting s q versionId status).2 := by
  unfold transitionVersion
  split
  · exact .refl
  · rename_i r hfound
    split
    · exact .refl
    · rename_i hallowed
      refine emit_writes (Writes.refl.update hfound ?_ fun n h => ?_) _ _ _
      · split <;> simp [identity_insert, identityFields]
      · have hstatus := mem_versionStatuses _ status (not_not.1 hallowed)
        split
        all_goals
          exact ⟨by simp [h.versionId], by simpa using h.datasetId, by simpa using h.version,
            ⟨status.text, hstatus, by simp⟩, by simpa using h.digest, by simpa using h.count,
            by simp [h.noAlias]⟩

theorem grantVersionAccess_writes (versionId : String) (body : Record) :
    Writes setting q [] s (grantVersionAccess setting s q versionId body).2 := by
  unfold grantVersionAccess
  split
  · exact .refl
  · rename_i r hfound
    split
    · exact .refl
    · split
      · exact .refl
      · refine emit_writes (Writes.refl.update hfound ?_ fun n h => ?_) _ _ _
        · simp [identity_insert, identityFields]
        · exact ⟨by simp [h.versionId], by simpa using h.datasetId, by simpa using h.version,
            by simpa using h.status, by simpa using h.digest, by simpa using h.count,
            by simp [h.noAlias]⟩

theorem new_quality (runId : String) (body : Record) :
    New setting q n .quality (qualityItem q runId body) runId none := by
  refine ⟨?_, ?_, ?_, rfl, ?_, trivial⟩
  · simp [qualityItem, record, Dict.ofList]
  · simp [qualityItem, record, Dict.ofList]
  · simp [qualityItem, record, Dict.ofList, optional]
  · rintro _ ⟨⟩

theorem createQualityRun_writes (body : Record) :
    Writes setting q [.quality] s (createQualityRun setting s q body).2 :=
  emit_writes (Writes.refl.draw.create (new_quality ..) (by simp)) _ _ _

theorem new_lineage (snapshotId : String) (body : Record) :
    New setting q n .lineage (lineageItem setting q snapshotId body) snapshotId none := by
  refine ⟨?_, ?_, ?_, rfl, ?_, trivial⟩
  · simp [lineageItem, record, Dict.ofList]
  · simp [lineageItem, record, Dict.ofList]
  · simp [lineageItem, record, Dict.ofList, optional]
  · rintro _ ⟨⟩

theorem createLineageSnapshot_writes (body : Record) :
    Writes setting q [.lineage] s (createLineageSnapshot setting s q body).2 :=
  emit_writes (Writes.refl.draw.create (new_lineage ..) (by simp)) _ _ _

theorem new_sample (sampleId : String) (sourceRef : List (String × Doc)) (mediaType metadata : Doc)
    (now : String) : New setting q n .sample
      (sampleItem q sampleId sourceRef mediaType metadata now) sampleId
      none := by
  refine ⟨?_, ?_, ?_, rfl, ?_, trivial⟩
  · simp [sampleItem, record, Dict.ofList]
  · simp [sampleItem, record, Dict.ofList]
  · simp [sampleItem, record, Dict.ofList, optional]
  · rintro _ ⟨⟩

theorem intakeSources_writes (manifestId : String) (sources : List Doc) (n : Nat)
    (h : Writes setting q [.manifest, .sample] s t) :
    Writes setting q [.manifest, .sample] s (intakeSources setting q manifestId n t sources).2 := by
  induction sources generalizing n t with
  | nil => exact h
  | cons _ _ ih =>
    unfold intakeSources
    split
    · cases ‹_ = []›
    · rename_i heq
      cases heq
      dsimp only
      split
      · exact ih _ h
      · split
        · exact h
        · exact ih _ (h.create (new_sample ..) (by simp))
    · rename_i heq
      cases heq
      exact ih _ h

theorem new_manifest (manifestId : String) (manifest : Record) (items : List Doc) :
    New setting q n .manifest (manifestItem q manifestId manifest items) manifestId
      q.idempotencyKey := by
  refine ⟨?_, ?_, ?_, rfl, ?_, trivial⟩
  · simp [manifestItem, record, Dict.ofList]
  · simp [manifestItem, record, Dict.ofList]
  · simp [manifestItem, record, Dict.ofList]
  · rintro _ ⟨⟩

theorem hardSampleIntake_writes (body : Record) :
    Writes setting q [.manifest, .sample] s (hardSampleIntake setting s q body).2 := by
  unfold hardSampleIntake
  dsimp only
  split
  · exact .refl
  · rename_i items hitems
    split
    · exact .refl
    · have hmanifest : Writes setting q [.manifest, .sample] s _ := Writes.refl.create
        (new_manifest (setting.str (get (manifestOf body) "manifest_id")) (manifestOf body) items)
          (by simp)
      have hsources := intakeSources_writes (setting.str (get (manifestOf body) "manifest_id"))
        (sourcesOf body) 1 hmanifest
      split
      · rename_i heq
        rwa [heq] at hsources
      · rename_i heq
        rw [heq] at hsources
        exact emit_writes hsources _ _ _

theorem createSample_writes (body : Record) :
    Writes setting q [.sample] s (createSample setting s q body).2 := by
  unfold createSample
  dsimp only
  split
  · exact .refl
  · split
    · exact .refl
    · split
      · exact .refl
      · exact Writes.refl.create (new_sample ..) (by simp)

theorem shape_task (h : entityOf .annotations item = .task) :
    Shape setting .annotations n recordId item where
  annotated hannotated := by
    simp [h] at hannotated
  keyed _ := h

theorem shape_unkeyed (hkey : get item "idempotency_key" = .null)
    (hannotated : entityOf .annotations item = .annotated →
      recordId = annotationId setting (get item "task_id") (get item "sample_id")) :
    Shape setting .annotations n recordId item where
  annotated := hannotated
  keyed h := absurd hkey h

theorem new_task (datasetId schemaId : Doc) (sampleIds : List Doc) (metadata : Doc) :
    New setting q s.draw.drawn .task
      (taskItem q ("task_" ++ s.uuid setting) datasetId schemaId sampleIds metadata)
      ("task_" ++ s.uuid setting) q.idempotencyKey := by
  have hentity : entityOf .annotations
      (taskItem q ("task_" ++ s.uuid setting) datasetId schemaId sampleIds metadata) = .task := by
    simp [entityOf, taskItem, record, Dict.ofList, Dict.get?_insert]
  refine ⟨?_, ?_, ?_, hentity, ?_, shape_task hentity⟩
  · simp [taskItem, record, Dict.ofList]
  · simp [taskItem, record, Dict.ofList]
  · simp [taskItem, record, Dict.ofList]
  · rintro _ ⟨⟩
    exact Fresh.Drawn.last rfl

theorem createAnnotationTask_writes (body : Record) :
    Writes setting q [.task] s (createAnnotationTask setting s q body).2 := by
  unfold createAnnotationTask
  split
  · exact .refl
  · split
    · exact .refl
    · exact emit_writes (Writes.refl.draw.create (new_task ..) (by simp)) _ _ _

theorem shape_annotations (hidentity : identity item = identity r)
    (htask : get item "task_id" = get r "task_id")
    (hsample : get item "sample_id" = get r "sample_id")
    (n : Nat) (h : Shape setting .annotations n recordId r) :
      Shape setting .annotations n recordId item := by
  constructor
  · intro hentity
    rw [htask, hsample]
    exact h.annotated ((entityOf_congr _ hidentity).symm.trans hentity)
  · intro hkey
    rw [entityOf_congr _ hidentity]
    rw [get_idempotencyKey_congr hidentity] at hkey
    exact h.keyed hkey

theorem transitionAnnotationTask_writes (taskId : String) (body : Record) :
    Writes setting q [] s (transitionAnnotationTask setting s q taskId body).2 := by
  unfold transitionAnnotationTask
  split
  · exact .refl
  · rename_i r hfound
    dsimp only
    split
    · exact .refl
    · refine emit_writes (Writes.refl.update hfound ?_ (shape_annotations ?_ ?_ ?_)) _ _ _ <;>
        split <;>
        simp [identity_insert, identityFields]

theorem new_annotated (taskId sampleId : Doc) (body : Record) :
    New setting q n .annotated (annotationItem q (annotationId setting taskId sampleId) taskId
      sampleId body) (annotationId setting taskId sampleId) none := by
  refine ⟨?_, ?_, ?_, rfl, ?_, shape_unkeyed ?_ fun _ => ?_⟩
  · simp [annotationItem, record, Dict.ofList]
  · simp [annotationItem, record, Dict.ofList]
  · simp [annotationItem, record, Dict.ofList, optional]
  · rintro _ ⟨⟩
  all_goals simp [annotationItem, record, Dict.ofList]

theorem createAnnotationItem_writes (body : Record) :
    Writes setting q [.annotated] s (createAnnotationItem setting s q body).2 :=
  Writes.refl.create (new_annotated ..) (by simp)

theorem transitionAnnotationTask_ok {taskId : String} {body : Record}
    (h : transitionAnnotationTask setting s q taskId body = (.ok item, t)) :
    ∃ r, (s.records .annotations).get? (q.key taskId) = some r ∧ identity item = identity r ∧
      (t.records .annotations).get? (DataStore.keyOf setting item taskId) = some item := by
  unfold transitionAnnotationTask at h
  split at h
  · cases h
  · rename_i r hfound
    dsimp only at h
    split at h
    · cases h
    · obtain ⟨hitem, rfl⟩ := Prod.mk.inj h
      obtain rfl := Except.ok.inj hitem
      refine ⟨r, hfound, ?_, ?_⟩
      · split <;> simp [identity_insert, identityFields]
      · rw [emit_other _ _ _ _ (by decide), DataStore.get?_save, if_pos ⟨rfl, rfl⟩]

theorem reviewAnnotationTask_writes (taskId : String) (body : Record)
    (howner : ∀ r, (s.records .annotations).get? (q.key taskId) = some r →
      DataStore.keyOf setting r taskId = q.key taskId) :
    Writes setting q [] s (reviewAnnotationTask setting s q taskId body).2 := by
  unfold reviewAnnotationTask
  dsimp only
  let decision : Record :=
    record [("status", .str (if is (get body "decision") (some "approved") then "approved"
      else "rejected"))]
  have htransition : Writes setting q [] s
      (transitionAnnotationTask setting s q taskId decision).2 :=
    transitionAnnotationTask_writes taskId decision
  split
  · rename_i heq
    rwa [heq] at htransition
  · rename_i item t heq
    rw [heq] at htransition
    obtain ⟨r, hfound, hidentity, hstored⟩ := transitionAnnotationTask_ok heq
    rw [keyOf_congr hidentity, howner r hfound] at hstored
    refine htransition.update hstored ?_ (shape_annotations ?_ ?_ ?_) <;>
      simp [identity_insert, identityFields]

theorem new_provider (body : Record) :
    New setting q s.draw.drawn .provider (providerItem q ("provider_" ++ s.uuid setting) body)
      ("provider_" ++ s.uuid setting) none := by
  have hentity : entityOf .annotations (providerItem q ("provider_" ++ s.uuid setting) body) =
      .provider := by
    simp [entityOf, providerItem, record, Dict.ofList, Dict.get?_insert]
  refine ⟨?_, ?_, ?_, hentity, ?_, shape_unkeyed ?_ fun hannotated => ?_⟩
  · simp [providerItem, record, Dict.ofList]
  · simp [providerItem, record, Dict.ofList]
  · simp [providerItem, record, Dict.ofList, optional]
  · rintro _ ⟨⟩
    exact Fresh.Drawn.last rfl
  · simp [providerItem, record, Dict.ofList]
  · simp [hentity] at hannotated

theorem createAnnotationProvider_writes (body : Record) :
    Writes setting q [.provider] s (createAnnotationProvider setting s q body).2 :=
  Writes.refl.draw.create (new_provider body) (by simp)

theorem probeAnnotationProvider_writes (providerId : String) :
    Writes setting q [] s (probeAnnotationProvider setting s q providerId).2 := by
  unfold probeAnnotationProvider
  split
  · exact .refl
  · rename_i r hfound
    refine Writes.refl.update hfound ?_ (shape_annotations ?_ ?_ ?_) <;>
      simp [identity_insert, identityFields]

/-! ## The invariant -/

/-- What is so of every record. -/
structure Inv (setting : Setting) (s : DataStore) : Prop where
  owner : ∀ kind k r, (s.records kind).get? k = some r →
    get r "tenant_id" = .str k.tenantId ∧ get r "project_id" = .str k.projectId
  /-- It was created, as what it is and with the key that it has. -/
  created : ∀ kind k r, (s.records kind).get? k = some r → ∃ c ∈ s.created,
    c.key = k ∧ c.entity = entityOf kind r ∧ optional c.idempotencyKey = get r "idempotency_key"
  drawn : ∀ kind k r, (s.records kind).get? k = some r → ∀ stem ∈ (entityOf kind r).stem,
    setting.ids.Drawn stem s.drawn k.recordId
  shape : ∀ kind k r, (s.records kind).get? k = some r → Shape setting kind s.drawn k.recordId r

theorem inv_empty : Inv setting .empty where
  owner _ _ _ h := nomatch h
  created _ _ _ h := nomatch h
  drawn _ _ _ h := nomatch h
  shape _ _ _ h := nomatch h

theorem Inv.keyOf (h : Inv setting s) (hr : (s.records kind).get? (q.key recordId) = some r) :
    DataStore.keyOf setting r recordId = q.key recordId := by
  obtain ⟨htenant, hproject⟩ := h.owner kind _ r hr
  simp [DataStore.keyOf, htenant, hproject, Request.key]

theorem handle_writes (h : Inv setting s) (q : Request) :
    Writes setting q q.route.creates s (handle setting s q).2 := by
  unfold handle
  cases q.route
  · exact createDataset_writes _
  · exact updateDataset_writes _ _
  · exact createVersion_writes _ _
  · exact transitionVersion_writes _ _
  · exact grantVersionAccess_writes _ _
  · exact createQualityRun_writes _
  · exact createLineageSnapshot_writes _
  · exact hardSampleIntake_writes _
  · exact createSample_writes _
  · exact createAnnotationTask_writes _
  · exact transitionAnnotationTask_writes _ _
  · exact createAnnotationItem_writes _
  · exact reviewAnnotationTask_writes _ _ fun r hr => h.keyOf hr
  · exact createAnnotationProvider_writes _
  · exact probeAnnotationProvider_writes _

theorem Inv.draw (h : Inv setting s) : Inv setting s.draw where
  owner := h.owner
  created := h.created
  drawn kind k r hr stem hstem := (h.drawn kind k r hr stem hstem).mono (Nat.le_succ _)
  shape kind k r hr := (h.shape kind k r hr).mono (Nat.le_succ _)

theorem Inv.create (h : Inv setting s) {entity : Entity} {idempotencyKey : Option String}
    (hnew : New setting q s.drawn entity item recordId idempotencyKey) :
    Inv setting (s.create setting entity item recordId idempotencyKey) := by
  -- A record is the new item, or an old one.
  have hcases : ∀ kind k r,
      ((s.create setting entity item recordId idempotencyKey).records kind).get? k = some r →
      kind = entity.kind ∧ k = q.key recordId ∧ r = item ∨ (s.records kind).get? k = some r := by
    intro _ k r hr
    rw [DataStore.get?_create, hnew.keyOf] at hr
    split at hr
    · rename_i hboth
      exact .inl ⟨hboth.1, hboth.2, (Option.some.inj hr).symm⟩
    · exact .inr hr
  refine ⟨fun kind k r hr => ?_, fun kind k r hr => ?_, fun kind k r hr => ?_,
    fun kind k r hr => ?_⟩
  · rcases hcases kind k r hr with ⟨rfl, rfl, rfl⟩ | hold
    · exact ⟨hnew.tenant, hnew.project⟩
    · exact h.owner kind k r hold
  · rcases hcases kind k r hr with ⟨rfl, rfl, rfl⟩ | hold
    · exact ⟨_, List.mem_append_right _ List.mem_cons_self, hnew.keyOf, hnew.entityOf.symm,
        hnew.key.symm⟩
    · obtain ⟨c, hc, hrest⟩ := h.created kind k r hold
      exact ⟨c, List.mem_append_left _ hc, hrest⟩
  · rcases hcases kind k r hr with ⟨rfl, rfl, rfl⟩ | hold
    · rw [hnew.entityOf]
      exact hnew.stem
    · exact h.drawn kind k r hold
  · rcases hcases kind k r hr with ⟨rfl, rfl, rfl⟩ | hold
    · exact hnew.shape
    · exact h.shape kind k r hold

theorem Inv.update (h : Inv setting s) (hfound : (s.records kind).get? (q.key recordId) = some r)
    (hidentity : identity item = identity r)
    (hshape : ∀ n, Shape setting kind n recordId r → Shape setting kind n recordId item) :
    Inv setting (s.save setting kind item recordId) := by
  have hkey : DataStore.keyOf setting item recordId = q.key recordId :=
    (keyOf_congr hidentity recordId).trans (h.keyOf hfound)
  -- A record is the updated item, or an old one.
  have hcases : ∀ kind' k r', ((s.save setting kind item recordId).records kind').get? k = some r' →
      kind' = kind ∧ k = q.key recordId ∧ r' = item ∨ (s.records kind').get? k = some r' := by
    intro _ k _ hr'
    rw [DataStore.get?_save, hkey] at hr'
    split at hr'
    · rename_i hboth
      exact .inl ⟨hboth.1, hboth.2, (Option.some.inj hr').symm⟩
    · exact .inr hr'
  refine ⟨fun kind' k r' hr' => ?_, fun kind' k r' hr' => ?_, fun kind' k r' hr' => ?_,
    fun kind' k r' hr' => ?_⟩
  · rcases hcases kind' k r' hr' with ⟨rfl, rfl, rfl⟩ | hold
    · rw [get_tenant_congr hidentity, get_project_congr hidentity]
      exact h.owner kind' _ r hfound
    · exact h.owner kind' k r' hold
  · rcases hcases kind' k r' hr' with ⟨rfl, rfl, rfl⟩ | hold
    · rw [entityOf_congr kind' hidentity, get_idempotencyKey_congr hidentity]
      exact h.created kind' _ r hfound
    · exact h.created kind' k r' hold
  · rcases hcases kind' k r' hr' with ⟨rfl, rfl, rfl⟩ | hold
    · rw [entityOf_congr kind' hidentity]
      exact h.drawn kind' _ r hfound
    · exact h.drawn kind' k r' hold
  · rcases hcases kind' k r' hr' with ⟨rfl, rfl, rfl⟩ | hold
    · exact hshape _ (h.shape kind' _ r hfound)
    · exact h.shape kind' k r' hold

theorem Writes.inv (hw : Writes setting q entities s t) (h : Inv setting s) : Inv setting t := by
  induction hw with
  | refl => exact h
  | draw _ ih => exact ih.draw
  | create _ hnew _ ih => exact ih.create hnew
  | update _ hfound hidentity hshape ih => exact ih.update hfound hidentity hshape

theorem inv_handle (h : Inv setting s) (q : Request) : Inv setting (handle setting s q).2 :=
  (handle_writes h q).inv h

/-- The store after requests. -/
def after (setting : Setting) (requests : List Request) : DataStore :=
  requests.foldl (fun s q => (handle setting s q).2) .empty

theorem inv_after (requests : List Request) : Inv setting (after setting requests) := by
  unfold after
  induction requests using List.reverseRecOn with
  | nil => exact inv_empty
  | append_singleton _ q ih =>
    rw [List.foldl_append]
    exact inv_handle ih q

theorem Writes.foreign (hw : Writes setting q entities s t) (h : Inv setting s)
    (hk : ¬(k.tenantId = q.tenantId ∧ k.projectId = q.projectId)) :
    (t.records kind).get? k = (s.records kind).get? k := by
  have hne (recordId : String) : k ≠ q.key recordId := fun heq => hk (heq ▸ ⟨rfl, rfl⟩)
  induction hw with
  | refl => rfl
  | draw _ ih => exact ih
  | create _ hnew _ ih => rw [DataStore.get?_create, hnew.keyOf,
      if_neg fun hboth => hne _ hboth.2, ih]
  | update hw hfound hidentity _ ih =>
    rw [DataStore.get?_save, keyOf_congr hidentity, (hw.inv h).keyOf hfound,
      if_neg fun hboth => hne _ hboth.2, ih]

/-- **Nobody changes a record** of another tenant, or of another project. -/
theorem foreign_kept (setting : Setting) (requests rest : List Request) (kind : Kind) (k : Key) :
    ((after setting (requests ++ rest)).records kind).get? k =
      ((after setting requests).records kind).get? k ∨
      ∃ q ∈ rest, k.tenantId = q.tenantId ∧ k.projectId = q.projectId := by
  induction rest using List.reverseRecOn with
  | nil => simp
  | append_singleton rest q ih =>
    by_cases hk : k.tenantId = q.tenantId ∧ k.projectId = q.projectId
    · exact .inr ⟨q, by simp, hk⟩
    · refine ih.imp (fun hkept => ?_) fun ⟨p, hp, hown⟩ => ⟨p, List.mem_append_left _ hp, hown⟩
      rw [← List.append_assoc, after, List.foldl_append]
      exact ((handle_writes (inv_after _) q).foreign (inv_after _) hk).trans hkept

end Scenara.DataService
