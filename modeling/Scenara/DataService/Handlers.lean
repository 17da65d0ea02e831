import Mathlib.Data.List.Dedup
import Scenara.Core.Slices
import Scenara.Core.Strings
import Scenara.DataService.Store

/-!
# The handlers of the Data service

Model of the routes of `create_data_app` (`scenara_data/app.py`) that write to the store, and of the
two that list datasets and versions.

Requests that are turned away before the handler (no service token, no tenant or project, a body
that is not valid) touch no store and are left out, and so are the routes that only read.
-/

namespace Scenara.DataService

open Scenara.Core

/-! ## Requests -/

/-- The zeros of Unicode 16; the other digits follow each of them. -/
def decimalZeros : List Nat :=
  [0x30, 0x660, 0x6F0, 0x7C0, 0x966, 0x9E6, 0xA66, 0xAE6, 0xB66, 0xBE6, 0xC66, 0xCE6, 0xD66,
    0xDE6, 0xE50, 0xED0, 0xF20, 0x1040, 0x1090, 0x17E0, 0x1810, 0x1946, 0x19D0, 0x1A80, 0x1A90,
    0x1B50, 0x1BB0, 0x1C40, 0x1C50, 0xA620, 0xA8D0, 0xA900, 0xA9D0, 0xA9F0, 0xAA50, 0xABF0,
    0xFF10, 0x104A0, 0x10D30, 0x10D40, 0x11066, 0x110F0, 0x11136, 0x111D0, 0x112F0, 0x11450,
    0x114D0, 0x11650, 0x116C0, 0x116D0, 0x116DA, 0x11730, 0x118E0, 0x11950, 0x11BF0, 0x11C50,
    0x11D50, 0x11DA0, 0x11F50, 0x16130, 0x16A60, 0x16AC0, 0x16B50, 0x16D70, 0x1CCF0, 0x1D7CE,
    0x1D7D8, 0x1D7E2, 0x1D7EC, 0x1D7F6, 0x1E140, 0x1E2F0, 0x1E4F0, 0x1E5F1, 0x1E950, 0x1FBF0]

/-- A decimal digit, of any script. -/
def isDecimal (c : Char) : Bool :=
  decimalZeros.any fun first => first ≤ c.toNat && c.toNat < first + 10

/-- `^\d+\.\d+\.\d+(?:-[a-z0-9.-]+)?$` -/
def isVersionLabel (s : String) : Bool := isSemanticVersion isDecimal s

/-- `^(draft|active|archived)$` -/
def datasetStatuses : List String := ["draft", "active", "archived"]

/-- `DatasetCreate`. -/
structure DatasetCreate where
  name : String
  description : String
  metadata : Record
  datasetId : Option String
  labels : List String
  name_length : 1 ≤ name.length ∧ name.length ≤ 256
  description_length : description.length ≤ 4000
  datasetId_length : ∀ id ∈ datasetId, 2 ≤ id.length ∧ id.length ≤ 128
  labels_length : labels.length ≤ 64

/-- `DatasetUpdate`. -/
structure DatasetUpdate where
  name : Option String
  description : Option String
  status : Option String
  metadata : Option Record
  name_length : ∀ n ∈ name, 1 ≤ n.length ∧ n.length ≤ 256
  description_length : ∀ d ∈ description, d.length ≤ 4000
  status_pattern : ∀ s ∈ status, s ∈ datasetStatuses

/-- `VersionCreate`. -/
structure VersionCreate where
  version : String
  manifestSha256 : String
  sampleCount : Nat
  version_pattern : isVersionLabel version
  manifestSha256_pattern : manifestSha256 = "" ∨ isSha256 manifestSha256

/-- `VersionTransition`: `^(draft|ready|published|archived|validated|retired)$`. -/
inductive VersionStatus where
  | draft | ready | published | archived | validated | retired
  deriving DecidableEq

/-- The text of a status. -/
def VersionStatus.text : VersionStatus → String
  | .draft => "draft"
  | .ready => "ready"
  | .published => "published"
  | .archived => "archived"
  | .validated => "validated"
  | .retired => "retired"

/-- A route that writes, with its path parameters and its body. -/
inductive Route where
  | createDataset (body : DatasetCreate)
  | updateDataset (datasetId : String) (body : DatasetUpdate)
  | createVersion (datasetId : String) (body : VersionCreate)
  | transitionVersion (versionId : String) (status : VersionStatus)
  | grantVersionAccess (versionId : String) (body : Record)
  | createQualityRun (body : Record)
  | createLineageSnapshot (body : Record)
  | hardSampleIntake (body : Record)
  | createSample (body : Record)
  | createAnnotationTask (body : Record)
  | transitionAnnotationTask (taskId : String) (body : Record)
  | createAnnotationItem (body : Record)
  | reviewAnnotationTask (taskId : String) (body : Record)
  | createAnnotationProvider (body : Record)
  | probeAnnotationProvider (providerId : String)

/-- A request, past the middleware. -/
structure Request where
  tenantId : String
  projectId : String
  principalId : String
  /-- The header `Idempotency-Key`. -/
  idempotencyKey : Option String
  /-- `trace_context(request)`. -/
  requestId : String
  traceId : String
  /-- The readings of `utc_now()`, in order. -/
  now : Nat → String
  route : Route

/-- The key of a record of the caller. -/
def Request.key (q : Request) (recordId : String) : Key := ⟨q.tenantId, q.projectId, recordId⟩

/-- `HTTPException`. -/
structure Error where
  code : String
  message : String
  status : Nat
  deriving DecidableEq

/-- What the handler returns or raises, and the store after it. -/
abbrev Answer := Except Error Record × DataStore

variable (setting : Setting)

/-! ## Parts -/

/-- `store.emit(…)`; `data` are the event's own. -/
def emit (s : DataStore) (q : Request) (eventType : String) (data : List (String × Doc))
    (now : String) : DataStore :=
  let eventId := "evt_" ++ s.uuid setting
  let event := record
    [("event_id", .str eventId), ("event_type", .str eventType), ("event_version", .str "1.0"),
      ("occurred_at", .str now), ("producer", .str "scenara-data"), ("tenant_id", .str q.tenantId),
      ("project_id", .str q.projectId), ("request_id", .str q.requestId),
        ("trace_id", .str q.traceId),
      ("data", .obj data), ("delivery_status", .str "pending")]
  s.draw.create setting .event event eventId none

/-- `item.get("idempotency_key") == idempotency_key`, and the item is the caller's. -/
def sameKey (q : Request) (item : Record) : Bool :=
  is (get item "idempotency_key") q.idempotencyKey && is (get item "tenant_id") (some q.tenantId) &&
    is (get item "project_id") (some q.projectId)

/-- The first item of the map with the key. -/
def withKey (s : DataStore) (kind : Kind) (q : Request) : Option Record :=
  (s.records kind).values.find? (sameKey q)

/-- `if idempotency_key: …`: the item that is returned again. -/
def replayed (s : DataStore) (kind : Kind) (q : Request) : Option Record :=
  match q.idempotencyKey with
  | none => none
  | some idempotencyKey => if idempotencyKey = "" then none else withKey s kind q

/-- `immutable_reference`. -/
def immutableReference (stem identifier digest : String) : String :=
  "data://" ++ stem ++ "/" ++ identifier ++ "#sha256=" ++ digest

/-- `validate_object_reference`. -/
def validateObjectReference (value : Doc) : Except String (List (String × Doc)) :=
  match value with
  | .obj fields =>
    let value := record fields
    let checksum := setting.str ((value.get? "checksum").getD (.str ""))
    let key := setting.str ((value.get? "key").getD (.str ""))
    if ¬("sha256:".toList.isPrefixOf checksum.toList ∧
        isSha256 (String.ofList (checksum.toList.drop "sha256:".length))) ∨ key = "" ∨
        key.toList.head? = some '/' ∨ key.toList.head? = some '\\' ∨
        ['.', '.'] ∈ key.toList.splitOn '/' then
      .error "object reference must contain a safe key and sha256 checksum"
    else .ok fields
  | _ => .error "object reference must be an object"

/-! ## Datasets and versions -/

/-- The item of a dataset. -/
def datasetItem (q : Request) (datasetId : String) (body : DatasetCreate) : Record :=
  record
    [("dataset_id", .str datasetId), ("tenant_id", .str q.tenantId),
      ("project_id", .str q.projectId),
      ("name", .str body.name), ("description", .str body.description), ("status", .str "draft"),
      ("metadata", .obj (body.metadata.insert "labels" (.arr (body.labels.map .str))).entries),
      ("created_at", .str (q.now 0)), ("updated_at", .str (q.now 0)),
        ("created_by", .str q.principalId),
      ("idempotency_key", optional q.idempotencyKey)]

/-- `create_dataset`. -/
def createDataset (s : DataStore) (q : Request) (body : DatasetCreate) : Answer :=
  match replayed s .datasets q with
  | some item => (.ok item, s)
  | none =>
    let datasetId := body.datasetId.getD ("dst_" ++ s.uuid setting)
    let item := datasetItem q datasetId body
    let s := s.draw.create setting .dataset item datasetId q.idempotencyKey
    (.ok item, emit setting s q "dataset.created" [("dataset_id", .str datasetId)] (q.now 1))

/-- `item["created_at"]`. -/
def createdAt (item : Record) : String := setting.str (get item "created_at")

/-- `rows.sort(key=lambda item: item["created_at"])`. -/
def sorted (rows : List Record) : List Record :=
  rows.mergeSort fun a b => createdAt setting a ≤ createdAt setting b

/-- A page of `rows`. -/
structure Page where
  items : List Record
  total : Nat
  cursor : Nat
  limit : Nat

/-- A slice of rows, as a page. -/
def pageOf (rows : List Record) (cursor limit : Nat) : Page :=
  ⟨slice cursor (cursor + limit) rows, rows.length, cursor, limit⟩

/-- `item.update(…)`, with what is set and not `None`. -/
def applyUpdate (item : Record) (body : DatasetUpdate) : Record :=
  let item := body.name.elim item fun name => item.insert "name" (.str name)
  let item := body.description.elim item fun description =>
      item.insert "description" (.str description)
  let item := body.status.elim item fun status => item.insert "status" (.str status)
  body.metadata.elim item fun metadata => item.insert "metadata" (.obj metadata.entries)

/-- `update_dataset`. -/
def updateDataset (s : DataStore) (q : Request) (datasetId : String) (body : DatasetUpdate) :
    Answer :=
  match (s.records .datasets).get? (q.key datasetId) with
  | none => (.error ⟨"DATASET_NOT_FOUND", "dataset not found", 404⟩, s)
  | some item =>
    let item := (applyUpdate item body).insert "updated_at" (.str (q.now 0))
    let s := s.save setting .datasets item datasetId
    (.ok item, emit setting s q "dataset.updated" [("dataset_id", .str datasetId)] (q.now 1))

/-- The entries that a dataset's versions are looked for in: `d` is the id of a record. -/
def versionEntries (s : DataStore) (tenantId projectId datasetId : String) : List (Key × Record) :=
  ((s.records .versions).filter fun k _ => k = ⟨tenantId, projectId, datasetId⟩).entries

/-- `body.manifest_sha256 or …` -/
def versionDigest (datasetId : String) (body : VersionCreate) : String :=
  if body.manifestSha256 = "" then setting.sha256 (datasetId ++ ":" ++ body.version)
    else body.manifestSha256

/-- The item of a version. -/
def versionItem (q : Request) (versionId datasetId : String) (body : VersionCreate) : Record :=
  let checksum := versionDigest setting datasetId body
  record
    [("dataset_version_id", .str versionId), ("dataset_id", .str datasetId),
      ("tenant_id", .str q.tenantId),
      ("project_id", .str q.projectId), ("version", .str body.version), ("status", .str "draft"),
      ("manifest_sha256", .str checksum), ("sample_count", .int body.sampleCount),
      ("created_by", .str q.principalId), ("created_at", .str (q.now 0)),
        ("updated_at", .str (q.now 0)),
      ("manifest_uri",
        .str (immutableReference ("datasets/" ++ datasetId ++ "/manifests") body.version checksum)),
      ("lineage_refs",
        .arr [.str (immutableReference "datasets/lineage" (datasetId ++ "/" ++ body.version)
          checksum)]),
      ("authorization_id",
        .str ("grant_" ++ q.tenantId ++ "_" ++ q.projectId ++ "_" ++ datasetId ++ "_" ++
          body.version)),
      ("authorized_consumer_repository_ids", .arr [.str "scenara-model"]), ("published_at", .null),
      ("idempotency_key", optional q.idempotencyKey)]

/-- `create_version`. -/
def createVersion (s : DataStore) (q : Request) (datasetId : String) (body : VersionCreate) :
    Answer :=
  if ((s.records .datasets).get? (q.key datasetId)).isNone then
    (.error ⟨"DATASET_NOT_FOUND", "dataset not found", 404⟩, s)
  else
    match replayed s .versions q with
    | some item => (.ok item, s)
    | none =>
      if (versionEntries s q.tenantId q.projectId datasetId).any fun e =>
          is (get e.2 "version") (some body.version) then
        (.error ⟨"DATASET_VERSION_CONFLICT", "dataset version already exists", 409⟩, s)
      else
        let versionId := "dsv_" ++ s.uuid setting
        let item := versionItem setting q versionId datasetId body
        let s := s.draw.create setting .version item versionId q.idempotencyKey
        (.ok item, emit setting s q "dataset.version.created"
          [("dataset_version_id", .str versionId), ("dataset_id", .str datasetId)] (q.now 1))

/-- The rows of `list_versions`. -/
def versionRows (s : DataStore) (tenantId projectId datasetId : String) : List Record :=
  sorted setting ((versionEntries s tenantId projectId datasetId).map Prod.snd)

/-- `list_versions`. -/
def listVersions (s : DataStore) (tenantId projectId datasetId : String) (cursor limit : Nat) :
    Page :=
  pageOf (versionRows setting s tenantId projectId datasetId) cursor limit

/-- `allowed` of `transition_version`. -/
def allowedVersion (status : String) : List VersionStatus :=
  if status = "draft" then [.ready, .validated, .archived]
  else if status = "ready" then [.published, .archived]
  else if status = "validated" then [.published, .archived]
  else if status = "published" then [.archived]
  else []

/-- `transition_version`. -/
def transitionVersion (s : DataStore) (q : Request) (versionId : String) (status : VersionStatus) :
    Answer :=
  match (s.records .versions).get? (q.key versionId) with
  | none => (.error ⟨"DATASET_VERSION_NOT_FOUND", "dataset version not found", 404⟩, s)
  | some item =>
    if status ∉ allowedVersion (setting.str (get item "status")) then
      (.error ⟨"DATASET_VERSION_TRANSITION_INVALID", "invalid dataset version transition", 409⟩, s)
    else
      let item := (item.insert "status" (.str status.text)).insert "updated_at" (.str (q.now 0))
      let item := if status = .published then item.insert "published_at" (.str (q.now 0)) else item
      let s := s.save setting .versions item versionId
      let eventType :=
        if status = .published then "dataset.version.published" else "dataset.version.updated"
      (.ok item, emit setting s q eventType
        [("dataset_version_id", .str versionId), ("dataset_id", get item "dataset_id"),
          ("status", .str status.text)] (q.now 1))

/-- `body.get(field) or default`. -/
def orElse (d default : Doc) : Doc := if truthy d then d else default

/-- A list of texts that are not empty; `none` for anything else, or for no text at all. -/
def consumersOf : Doc → Option (List String)
  | .arr items => do
    let texts ← items.mapM fun
      | .str s => if s = "" then none else some s
      | _ => none
    if texts = [] then none else some texts
  | _ => none

/-- `grant_version_access`. -/
def grantVersionAccess (s : DataStore) (q : Request) (versionId : String) (body : Record) :
    Answer :=
  match (s.records .versions).get? (q.key versionId) with
  | none => (.error ⟨"DATASET_VERSION_NOT_PUBLISHED", "dataset version is not ready", 409⟩, s)
  | some item =>
    if setting.str (get item "status") ∉ ["ready", "validated", "published"] then
      (.error ⟨"DATASET_VERSION_NOT_PUBLISHED", "dataset version is not ready", 409⟩, s)
    else
      match consumersOf (orElse (get body "authorized_consumer_repository_ids")
          (.arr [.str "scenara-model"])) with
      | none => (.error ⟨"DATASET_ACCESS_GRANT_INVALID", "authorized consumers are required", 422⟩,
          s)
      | some consumers =>
        -- `sorted(set(consumers))`
        let consumers := Doc.arr ((consumers.dedup.mergeSort).map .str)
        let authorizationId := Doc.str (setting.str
          (orElse (get body "authorization_id") (get item "authorization_id")))
        let item := (item.insert "authorized_consumer_repository_ids" consumers).insert
          "authorization_id" authorizationId
        let s := s.save setting .versions item versionId
        (.ok (record [("version_id", .str versionId), ("authorization_id", authorizationId),
          ("authorized_consumer_repository_ids", consumers)]),
          emit setting s q "dataset.version.access_granted"
            [("dataset_version_id", .str versionId), ("consumers", consumers)] (q.now 0))

/-! ## Quality and lineage -/

/-- `str(body.get(field) or f"{stem}{uuid4().hex}")`. -/
def namedId (s : DataStore) (body : Record) (field stem : String) : String :=
  setting.str (orElse (get body field) (.str (stem ++ s.uuid setting)))

/-- The item of a quality run. -/
def qualityItem (q : Request) (runId : String) (body : Record) : Record :=
  record
    [("quality_run_id", .str runId), ("tenant_id", .str q.tenantId),
      ("project_id", .str q.projectId),
      ("dataset_id", (body.get? "dataset_id").getD (.str "")), ("status", .str "queued"),
      ("rules", (body.get? "rules").getD (.arr [])), ("created_by", .str q.principalId),
      ("created_at", .str (q.now 0))]

/-- `create_quality_run`. -/
def createQualityRun (s : DataStore) (q : Request) (body : Record) : Answer :=
  let runId := namedId setting s body "quality_run_id" "qr_"
  let item := qualityItem q runId body
  let s := s.draw.create setting .quality item runId none
  (.ok item, emit setting s q "quality.started"
    [("quality_run_id", .str runId), ("dataset_id", get item "dataset_id")] (q.now 1))

/-- The item of a lineage snapshot. -/
def lineageItem (q : Request) (snapshotId : String) (body : Record) : Record :=
  let edges := (body.get? "edges").getD (.arr [])
  record
    [("lineage_snapshot_id", .str snapshotId), ("tenant_id", .str q.tenantId),
      ("project_id", .str q.projectId), ("edges", edges),
      ("sha256", .str (setting.sha256 (setting.dumps edges))), ("created_by", .str q.principalId),
      ("created_at", .str (q.now 0))]

/-- `create_lineage_snapshot`. -/
def createLineageSnapshot (s : DataStore) (q : Request) (body : Record) : Answer :=
  let snapshotId := namedId setting s body "lineage_snapshot_id" "ls_"
  let item := lineageItem setting q snapshotId body
  let s := s.draw.create setting .lineage item snapshotId none
  (.ok item, emit setting s q "lineage.snapshot.created" [("lineage_snapshot_id", .str snapshotId)]
    (q.now 1))

/-! ## Intakes -/

/-- The item of a sample. -/
def sampleItem (q : Request) (sampleId : String) (sourceRef : List (String × Doc))
    (mediaType metadata : Doc) (now : String) : Record :=
  record
    [("sample_id", .str sampleId), ("tenant_id", .str q.tenantId), ("project_id", .str q.projectId),
      ("source_ref", .obj sourceRef), ("media_type", mediaType), ("sample_metadata", metadata),
      ("created_at", .str now)]

/-- `str(source.get("feedback_id") or source.get("sample_id") or "")`. -/
def sourceId (source : Record) : String :=
  setting.str (orElse (orElse (get source "feedback_id") (get source "sample_id")) (.str ""))

/-- `for source in sources: …`; `n` readings of the clock were taken. -/
def intakeSources (q : Request) (manifestId : String) :
    Nat → DataStore → List Doc → Except Error DataStore × DataStore
  | _, s, [] => (.ok s, s)
  | n, s, .obj fields :: sources =>
    let source := record fields
    let sampleId := sourceId setting source
    if sampleId = "" then intakeSources q manifestId n s sources
    else
      match validateObjectReference setting (get source "source_ref") with
      | .error message => (.error ⟨"OBJECT_REFERENCE_INVALID", message, 422⟩, s)
      | .ok sourceRef =>
        let sample := sampleItem q sampleId sourceRef
          ((source.get? "media_type").getD (.str "application/octet-stream"))
          (.obj [("hard_sample_manifest_id", .str manifestId),
            ("dataset_split", (source.get? "dataset_split").getD (.str "train"))]) (q.now n)
        intakeSources q manifestId (n + 1) (s.create setting .sample sample sampleId none) sources
  | n, s, _ :: sources => intakeSources q manifestId n s sources

/-- The fields that a manifest must have. -/
def manifestFields : List String :=
  ["manifest_id", "tenant_id", "project_id", "dataset_id", "version", "items", "sha256",
    "created_by", "created_at"]

/-- `item.get(field, True) is True`. -/
def isTrue (item : Record) (field : String) : Bool :=
  match (item.get? field).getD (.bool true) with
  | .bool b => b
  | _ => false

/-- The check of an item of a manifest. -/
def authorized : Doc → Bool
  | .obj fields => isTrue (record fields) "authorized_for_training" &&
      isTrue (record fields) "deidentified"
  | _ => false

/-- The checks of `hard_sample_intake`: the items of the manifest. -/
def checkManifest (q : Request) (manifest : Record) : Except Error (List Doc) :=
  if ¬∀ field ∈ manifestFields, (manifest.get? field).isSome then
    .error ⟨"HARD_SAMPLE_MANIFEST_INVALID", "manifest is missing required fields", 422⟩
  else if ¬(is ((manifest.get? "schema_version").getD (.str "1.0")) (some "1.0") ∧
      is (get manifest "tenant_id") (some q.tenantId) ∧
      is (get manifest "project_id") (some q.projectId)) then
    .error ⟨"HARD_SAMPLE_MANIFEST_SCOPE_INVALID", "manifest scope or schema version is invalid",
      422⟩
  else if ¬isSha256 (setting.str (get manifest "sha256")) then
    .error ⟨"HARD_SAMPLE_MANIFEST_INVALID", "manifest sha256 is invalid", 422⟩
  else
    match get manifest "items" with
    | .arr items =>
      if items.all authorized then .ok items
      else .error ⟨"HARD_SAMPLE_NOT_AUTHORIZED",
        "all hard samples must be authorized and deidentified", 422⟩
    | _ => .error ⟨"HARD_SAMPLE_MANIFEST_INVALID", "manifest items must be a list", 422⟩

/-- `body.get("manifest") if isinstance(body.get("manifest"), dict) else body`. -/
def manifestOf (body : Record) : Record :=
  match get body "manifest" with
  | .obj fields => record fields
  | _ => body

/-- `body.get("sources")`, if it is a list. -/
def sourcesOf (body : Record) : List Doc :=
  match get body "sources" with
  | .arr sources => sources
  | _ => []

/-- `return store.intakes[key]`. -/
def answerIntake (s : DataStore) (k : Key) : Except Error Record :=
  match (s.records .intakes).get? k with
  | some item => .ok item
  | none => .error ⟨"", "KeyError", 500⟩

/-- The item of a manifest. -/
def manifestItem (q : Request) (manifestId : String) (manifest : Record) (items : List Doc) :
    Record :=
  record
    [("manifest_id", .str manifestId), ("tenant_id", .str q.tenantId),
      ("project_id", .str q.projectId),
      ("dataset_id", get manifest "dataset_id"), ("version", get manifest "version"),
      ("status", .str "accepted"), ("item_count", .int items.length),
      ("idempotency_key", optional q.idempotencyKey), ("accepted_at", .str (q.now 0))]

/-- `hard_sample_intake`. -/
def hardSampleIntake (s : DataStore) (q : Request) (body : Record) : Answer :=
  let manifest := manifestOf body
  match checkManifest setting q manifest with
  | .error e => (.error e, s)
  | .ok items =>
    let manifestId := setting.str (get manifest "manifest_id")
    if ((s.records .intakes).get? (q.key manifestId)).isSome then
      (answerIntake s (q.key manifestId), s)
    else
      let item := manifestItem q manifestId manifest items
      let s := s.create setting .manifest item manifestId q.idempotencyKey
      match intakeSources setting q manifestId 1 s (sourcesOf body) with
      | (.error e, s) => (.error e, s)
      | (.ok _, s) =>
        let s := emit setting s q "hard_sample.imported"
          [("manifest_id", .str manifestId), ("item_count", .int items.length)]
          (q.now (1 + (sourcesOf body).length))
        (answerIntake s (q.key manifestId), s)

/-- `create_sample`. -/
def createSample (s : DataStore) (q : Request) (body : Record) : Answer :=
  let sampleId := setting.str ((body.get? "sample_id").getD (.str ""))
  if sampleId = "" then (.error ⟨"SAMPLE_ID_REQUIRED", "sample_id is required", 400⟩, s)
  else
    match validateObjectReference setting (get body "source_ref") with
    | .error message => (.error ⟨"OBJECT_REFERENCE_INVALID", message, 422⟩, s)
    | .ok sourceRef =>
      if ((s.records .intakes).get? (q.key sampleId)).isSome then
        (answerIntake s (q.key sampleId), s)
      else
        let item := sampleItem q sampleId sourceRef
          ((body.get? "media_type").getD (.str "application/octet-stream"))
          ((body.get? "sample_metadata").getD (.obj [])) (q.now 0)
        (.ok item, s.create setting .sample item sampleId none)

/-! ## Annotations -/

/-- `[str(value) for value in body.get("sample_ids", [])]`; `none` where the value is not
iterable. -/
def sampleIds (body : Record) : Option (List Doc) :=
  match (body.get? "sample_ids").getD (.arr []) with
  | .arr items => some (items.map fun value => .str (setting.str value))
  | .obj fields => some ((record fields).entries.map fun e => .str e.1)
  | .str s => some (s.toList.map fun c => .str c.toString)
  | .null | .bool _ | .num _ => none

/-- The item of a task. -/
def taskItem (q : Request) (taskId : String) (datasetId schemaId : Doc) (sampleIds : List Doc)
    (metadata : Doc) : Record :=
  record
    [("task_id", .str taskId), ("tenant_id", .str q.tenantId), ("project_id", .str q.projectId),
      ("dataset_id", datasetId), ("schema_id", schemaId), ("sample_ids", .arr sampleIds),
      ("status", .str "pending"), ("assigned_to", .null), ("task_metadata", metadata),
      ("created_by", .str q.principalId), ("created_at", .str (q.now 0)),
        ("updated_at", .str (q.now 0)),
      ("idempotency_key", optional q.idempotencyKey), ("consistency_score", .null),
      ("review_comment", .str "")]

/-- `create_annotation_task`. -/
def createAnnotationTask (s : DataStore) (q : Request) (body : Record) : Answer :=
  -- Without a header, `None == None` finds any item that has no key.
  match withKey s .annotations q with
  | some existing => (.ok existing, s)
  | none =>
    match sampleIds setting body with
    | none => (.error ⟨"", "TypeError", 500⟩, s)
    | some sampleIds =>
      let taskId := "task_" ++ s.uuid setting
      let datasetId := (body.get? "dataset_id").getD (.str "")
      let item := taskItem q taskId datasetId ((body.get? "schema_id").getD (.str "")) sampleIds
        ((body.get? "metadata").getD (.obj []))
      let s := s.draw.create setting .task item taskId q.idempotencyKey
      (.ok item, emit setting s q "annotation.task.created"
        [("task_id", .str taskId), ("dataset_id", datasetId)] (q.now 1))

/-- `allowed` of `transition_annotation_task`. -/
def allowedTask (status : String) : List String :=
  if status = "pending" then ["assigned", "cancelled"]
  else if status = "assigned" then ["in_progress", "cancelled"]
  else if status = "in_progress" then ["submitted", "cancelled"]
  else if status = "submitted" then ["approved", "rejected"]
  else []

/-- `transition_annotation_task`. -/
def transitionAnnotationTask (s : DataStore) (q : Request) (taskId : String) (body : Record) :
    Answer :=
  match (s.records .annotations).get? (q.key taskId) with
  | none => (.error ⟨"ANNOTATION_TASK_NOT_FOUND", "annotation task not found", 404⟩, s)
  | some item =>
    let status := setting.str ((body.get? "status").getD (.str ""))
    if status ∉ allowedTask (setting.str (get item "status")) then
      (.error ⟨"ANNOTATION_TASK_STATUS_INVALID", "invalid annotation task status", 409⟩, s)
    else
      let item := item.insert "status" (.str status)
      let item :=
        match get body "assignee_principal_id" with
        | .null => item
        | assignee => item.insert "assigned_to" assignee
      let item := item.insert "updated_at" (.str (q.now 0))
      let s := s.save setting .annotations item taskId
      let eventType :=
        if status = "approved" ∨ status = "rejected" then "annotation.reviewed"
          else "annotation.updated"
      (.ok item, emit setting s q eventType [("task_id", .str taskId), ("status", .str status)]
        (q.now 1))

/-- `f"annotation_{task_id}_{sample_id}"`. -/
def annotationId (taskId sampleId : Doc) : String :=
  "annotation_" ++ setting.str taskId ++ "_" ++ setting.str sampleId

/-- The item of an annotation. -/
def annotationItem (q : Request) (annotationId : String) (taskId sampleId : Doc) (body : Record) :
    Record :=
  record
    [("annotation_id", .str annotationId), ("tenant_id", .str q.tenantId),
      ("project_id", .str q.projectId),
      ("task_id", taskId), ("sample_id", sampleId),
        ("schema_id", (body.get? "schema_id").getD (.str "")),
      ("payload", (body.get? "payload").getD (.obj [])), ("created_at", .str (q.now 0))]

/-- `create_annotation`. -/
def createAnnotationItem (s : DataStore) (q : Request) (body : Record) : Answer :=
  let taskId := (body.get? "task_id").getD (.str "")
  let sampleId := (body.get? "sample_id").getD (.str "")
  let annotationId := annotationId setting taskId sampleId
  let item := annotationItem q annotationId taskId sampleId body
  (.ok item, s.create setting .annotated item annotationId none)

/-- `review_annotation_task`. -/
def reviewAnnotationTask (s : DataStore) (q : Request) (taskId : String) (body : Record) : Answer :=
  let status := if is (get body "decision") (some "approved") then "approved" else "rejected"
  match transitionAnnotationTask setting s q taskId (record [("status", .str status)]) with
  | (.error e, s) => (.error e, s)
  | (.ok item, s) =>
    let item := (item.insert "consistency_score" (get body "consistency_score")).insert
      "review_comment" ((body.get? "comment").getD (.str ""))
    (.ok item, s.save setting .annotations item taskId)

/-- The item of a provider. -/
def providerItem (q : Request) (providerId : String) (body : Record) : Record :=
  record
    [("provider_id", .str providerId), ("tenant_id", .str q.tenantId),
      ("project_id", .str q.projectId),
      ("name", (body.get? "name").getD (.str "")),
        ("provider_type", (body.get? "provider_type").getD (.str "")),
      ("endpoint", (body.get? "endpoint").getD (.str "")), ("active", .bool true),
      ("health", .str "configured"), ("created_at", .str (q.now 0)), ("updated_at", .str (q.now 0))]

/-- `create_annotation_provider`. -/
def createAnnotationProvider (s : DataStore) (q : Request) (body : Record) : Answer :=
  let providerId := "provider_" ++ s.uuid setting
  let item := providerItem q providerId body
  (.ok item, s.draw.create setting .provider item providerId none)

/-- `probe_annotation_provider`. -/
def probeAnnotationProvider (s : DataStore) (q : Request) (providerId : String) : Answer :=
  match (s.records .annotations).get? (q.key providerId) with
  | none => (.error ⟨"ANNOTATION_PROVIDER_NOT_FOUND", "annotation provider not found", 404⟩, s)
  | some item =>
    let item := (item.insert "health" (.str "configured")).insert "updated_at" (.str (q.now 0))
    (.ok item, s.save setting .annotations item providerId)

/-! ## The service -/

/-- The handler of the route. -/
def handle (s : DataStore) (q : Request) : Answer :=
  match q.route with
  | .createDataset body => createDataset setting s q body
  | .updateDataset datasetId body => updateDataset setting s q datasetId body
  | .createVersion datasetId body => createVersion setting s q datasetId body
  | .transitionVersion versionId status => transitionVersion setting s q versionId status
  | .grantVersionAccess versionId body => grantVersionAccess setting s q versionId body
  | .createQualityRun body => createQualityRun setting s q body
  | .createLineageSnapshot body => createLineageSnapshot setting s q body
  | .hardSampleIntake body => hardSampleIntake setting s q body
  | .createSample body => createSample setting s q body
  | .createAnnotationTask body => createAnnotationTask setting s q body
  | .transitionAnnotationTask taskId body => transitionAnnotationTask setting s q taskId body
  | .createAnnotationItem body => createAnnotationItem setting s q body
  | .reviewAnnotationTask taskId body => reviewAnnotationTask setting s q taskId body
  | .createAnnotationProvider body => createAnnotationProvider setting s q body
  | .probeAnnotationProvider providerId => probeAnnotationProvider setting s q providerId

/-- One request. -/
def step (s : DataStore) (q : Request) : Option DataStore := some (handle setting s q).2

/-- A request of one tenant and project, for runs that are written out. -/
def requestOf (route : Route) : Request :=
  ⟨"t", "p", "u", none, "r", "", fun _ => "2026-01-01T00:00:00.000000Z", route⟩

end Scenara.DataService
