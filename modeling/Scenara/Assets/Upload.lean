import Scenara.Assets.Model

/-!
# Uploads that fail

Model of `RunService.create_asset` and `create_asset_from_path` (`platform/services.py`), for an
upload one backend call of which raises, whereas the calls of the clean-up succeed.

* The two are given the same bytes, one in memory and the other in a file; `inspect_media` is a
  parameter.
* `create_asset` marks the rows that it has tracked, `create_asset_from_path` does not.
-/

namespace Scenara.Assets

open Scenara.Core
open Result (Category OwnerType RetentionRecord StateStore)

variable {M : Type}
variable {failure : Failure}

/-! ## Calls -/

/-- What the service calls: the stores, the usage of `policy.consume` and the events of
`audit.record`. -/
structure Backend (M : Type) extends Store M where
  objects : Dict String (List UInt8)
  mediaBytes : Nat
  /-- The resources of the events `media.asset.create`. -/
  audits : List String

/-- The backend call that raises. -/
inductive Failure where
  /-- The second `put`: it may have left the object. -/
  | putPreview (left : Bool)
  | createAsset
  | trackOriginal
  | trackPreview
  | consume
  | audit
  deriving DecidableEq

/-- It is before the first row, and leaves nothing itself. -/
def Failure.early : Failure → Bool
  | .putPreview false | .createAsset | .trackOriginal => true
  | _ => false

/-- The arguments of a call, the id and the times that it draws, and what fails in it. -/
structure Upload where
  tenantId : String
  projectId : String
  data : List UInt8
  filename : Option String
  contentType : String
  kind : MediaKind
  domain : Option String
  temporary : Bool
  /-- `f"ast_{uuid4().hex}"`. -/
  assetId : String
  now : ℚ
  cleanedAt : ℚ
  failure : Option Failure

/-- What an upload raises. -/
inductive Error where
  | policyDenied
  | valueError (message : String)
  | backend
  deriving DecidableEq

/-- The service's settings, and the code that it relies on. -/
structure Service (M : Type) where
  store : StateStore
  allowed : Upload → Bool
  maxMediaBytes : Nat
  maxImageBytes : Nat
  rawMediaRetentionDays : Nat
  previewRetentionDays : Nat
  sha256 : List UInt8 → String
  /-- `inspect_media`: the technical metadata and the preview, or a `PipelineError`. -/
  inspectMedia : Upload → Except String (M × List UInt8)

/-- `kind.value`. -/
def MediaKind.value : MediaKind → String
  | .image => "image"
  | .video => "video"
  | .document => "document"
  | .stream => "stream"

namespace Upload

/-- The key of the asset. -/
def key (u : Upload) : Key := ⟨u.tenantId, u.projectId, u.assetId⟩

/-- Where the asset's objects lie. -/
def directory (u : Upload) : String :=
  "tenants/" ++ u.tenantId ++ "/projects/" ++ u.projectId ++ "/assets/" ++ u.assetId

/-- The key of the media object. -/
def objectKey (u : Upload) : String := u.directory ++ "/original"

/-- The key of the preview. -/
def previewKey (u : Upload) : String := u.directory ++ "/preview.jpg"

end Upload

/-! ## Before the first effect -/

/-- The checks that both functions begin with. -/
def Service.admitted (v : Service M) (u : Upload) : Except Error Unit :=
  if !v.allowed u then .error .policyDenied
  else if u.data = [] then .error (.valueError "media asset is empty")
  else if u.data.length > v.maxMediaBytes then
    .error (.valueError ("media exceeds " ++ toString v.maxMediaBytes ++ " bytes"))
  else if u.kind = .image ∧ u.data.length > v.maxImageBytes then
    .error (.valueError ("image exceeds " ++ toString v.maxImageBytes ++ " bytes"))
  else .ok ()

/-- `inspect_media`, its `PipelineError` as a `ValueError`. -/
def Service.inspect (v : Service M) (u : Upload) : Except Error (M × List UInt8) :=
  match v.inspectMedia u with
  | .ok inspected => .ok inspected
  | .error message => .error (.valueError ("invalid " ++ u.kind.value ++ " media: " ++ message))

/-- What `create_asset` checks: streams are refused. -/
def Service.inspectData (v : Service M) (u : Upload) : Except Error (M × List UInt8) := do
  v.admitted u
  if u.kind = .stream then throw (.valueError "stream inputs must be registered as media sources")
  v.inspect u

/-- What `create_asset_from_path` checks. -/
def Service.inspectPath (v : Service M) (u : Upload) : Except Error (M × List UInt8) := do
  v.admitted u
  v.inspect u

/-- The new asset. -/
def Service.asset (v : Service M) (u : Upload) (inspected : M × List UInt8) : MediaAsset M where
  kind := u.kind
  domain := u.domain
  filename := u.filename
  contentType := if u.contentType = "" then "application/octet-stream" else u.contentType
  sizeBytes := u.data.length
  sha256 := v.sha256 u.data
  objectKey := u.objectKey
  previewObjectKey := some u.previewKey
  previewContentType := some "image/jpeg"
  previewSha256 := some (v.sha256 inspected.2)
  metadata := inspected.1
  temporary := u.temporary
  createdAt := u.now
  expiresAt := some (u.now + (if u.temporary then 1 else v.rawMediaRetentionDays) * 86400)
  originalDeletedAt := none
  deletedAt := none

/-- The row of the original. -/
def Service.originalRow (v : Service M) (u : Upload) : RetentionRecord where
  category := .rawMedia
  ownerType := .mediaAsset
  ownerId := u.assetId
  createdAt := u.now
  expiresAt := some (u.now + (if u.temporary then 1 else v.rawMediaRetentionDays) * 86400)
  deletedAt := none

/-- The row of the preview. -/
def Service.previewRow (v : Service M) (u : Upload) : RetentionRecord where
  category := .preview
  ownerType := .mediaAsset
  ownerId := u.assetId
  createdAt := u.now
  expiresAt := some (u.now + v.previewRetentionDays * 86400)
  deletedAt := none

/-! ## The backend calls -/

namespace Backend

/-- `objects.put`: an existing object must have the same bytes. -/
def put (b : Backend M) (objectKey : String) (data : List UInt8) : Option (Backend M) :=
  match b.objects.get? objectKey with
  | some existing => if existing = data then some b else none
  | none => some { b with objects := b.objects.insert objectKey data }

/-- `objects.delete`. -/
def delete (b : Backend M) (objectKey : String) : Backend M :=
  { b with objects := b.objects.erase objectKey }

/-- The backend with another store. -/
def withStore (b : Backend M) (store : Store M) : Backend M := { b with toStore := store }

end Backend

/-- How far a `try` block has come. -/
structure Progress (M : Type) where
  backend : Backend M
  /-- `stored is not None`. -/
  stored : Bool
  /-- `tracked_keys`, which `create_asset` alone keeps. -/
  trackedKeys : List String

/-- The backend calls in their order; `none` raises, and so does the one that is to fail. -/
def attempt (failure : Option Failure) :
    List (Failure × (Progress M → Option (Progress M))) → Progress M → Bool × Progress M
  | [], p => (true, p)
  | (point, call) :: calls, p =>
    if failure = some point then (false, p)
    else
      match call p with
      | none => (false, p)
      | some p => attempt failure calls p

/-- `state.create_asset`, the two `track_object`, `policy.consume` and `audit.record`. -/
def Service.calls (v : Service M) (u : Upload) (inspected : M × List UInt8) :
    List (Failure × (Progress M → Option (Progress M))) :=
  [ (.createAsset, fun p => (p.backend.toStore.createAsset u.key (v.asset u inspected)).map
    fun store =>
      { p with backend := p.backend.withStore store, stored := true }),
    (.trackOriginal, fun p =>
      (p.backend.toStore.trackObject v.store { u.key with id := u.objectKey } (v.originalRow u)).map
        fun store => { p with
          backend := p.backend.withStore store
          trackedKeys := p.trackedKeys ++ [u.objectKey] }),
    (.trackPreview, fun p =>
      (p.backend.toStore.trackObject v.store { u.key with id := u.previewKey } (v.previewRow u)).map
        fun store => { p with
          backend := p.backend.withStore store
          trackedKeys := p.trackedKeys ++ [u.previewKey] }),
    (.consume, fun p => some { p with
      backend := { p.backend with mediaBytes := p.backend.mediaBytes + u.data.length } }),
    (.audit, fun p => some { p with
      backend := { p.backend with audits := p.backend.audits ++ [u.assetId] } }) ]

/-- `objects.put` of the preview, and whether it has returned. -/
def Upload.putPreview (u : Upload) (preview : List UInt8) (b : Backend M) : Bool × Backend M :=
  match u.failure, b.put u.previewKey preview with
  | some (.putPreview false), _ => (false, b)
  | some (.putPreview true), some left => (false, left)
  | _, some b => (true, b)
  | _, none => (false, b)

/-- `if stored is not None: await self.state.delete_asset(...)`, and the two objects. -/
def Upload.discard (u : Upload) (p : Progress M) : Backend M :=
  let b := if p.stored then p.backend.withStore (p.backend.toStore.deleteAsset u.key) else p.backend
  (b.delete u.objectKey).delete u.previewKey

/-- `create_asset`. -/
def Service.createAsset (v : Service M) (u : Upload) (b : Backend M) :
    Except Error (MediaAsset M) × Backend M :=
  match v.inspectData u with
  | .error e => (.error e, b)
  | .ok inspected =>
    match b.put u.objectKey u.data with
    | none => (.error .backend, b)
    | some b =>
      match u.putPreview inspected.2 b with
      | (false, b) => (.error .backend, b.delete u.objectKey)
      | (true, b) =>
        match attempt u.failure (v.calls u inspected) ⟨b, false, []⟩ with
        | (true, p) => (.ok (v.asset u inspected), p.backend)
        | (false, p) =>
          -- `if tracked_keys:`
          let store :=
            if p.trackedKeys = [] then p.backend.toStore
            else p.backend.toStore.markObjectsDeleted v.store p.trackedKeys u.cleanedAt
          (.error .backend, u.discard { p with backend := p.backend.withStore store })

/-- `create_asset_from_path`. -/
def Service.createAssetFromPath (v : Service M) (u : Upload) (b : Backend M) :
    Except Error (MediaAsset M) × Backend M :=
  match v.inspectPath u with
  | .error e => (.error e, b)
  | .ok inspected =>
    match b.put u.objectKey u.data with
    | none => (.error .backend, b)
    | some b =>
      match u.putPreview inspected.2 b with
      | (false, b) => (.error .backend, u.discard ⟨b, false, []⟩)
      | (true, b) =>
        match attempt u.failure (v.calls u inspected) ⟨b, false, []⟩ with
        | (true, p) => (.ok (v.asset u inspected), p.backend)
        | (false, p) => (.error .backend, u.discard p)

/-! ## Nothing left behind -/

/-- Nothing of the new asset is there yet. -/
structure Fresh (u : Upload) (b : Backend M) : Prop where
  asset : b.assets.get? u.key = none
  object : ∀ id ∈ [u.objectKey, u.previewKey], b.objects.get? id = none
  row : ∀ id ∈ [u.objectKey, u.previewKey], b.retention.get? { u.key with id := id } = none

/-- Neither the asset nor an object of it is there, and no row of one is unmarked. -/
structure Clean (u : Upload) (b : Backend M) : Prop where
  asset : b.assets.get? u.key = none
  object : ∀ id ∈ [u.objectKey, u.previewKey], b.objects.get? id = none
  row : ∀ id ∈ [u.objectKey, u.previewKey], ∀ row,
    b.retention.get? { u.key with id := id } = some row → row.deletedAt ≠ none

/-- The file is refused before the first effect, or what fails is before the first row; a `put` that
fails and leaves the preview is never made for a stream in memory. -/
def Harmless (v : Service M) (u : Upload) (failure : Failure) : Prop :=
  (∃ e, v.inspectPath u = .error e) ∨ failure.early = true ∨
    (failure = .putPreview true ∧ u.kind = .stream)

variable {v : Service M} {u : Upload} {b : Backend M} {p p' : Progress M}
    {inspected : M × List UInt8}

theorem objectKey_ne_previewKey : u.objectKey ≠ u.previewKey := by
  intro h
  have hlist := congrArg String.toList h
  simp [Upload.objectKey, Upload.previewKey] at hlist

theorem Fresh.clean (h : Fresh u b) : Clean u b :=
  ⟨h.asset, h.object, fun id hid row hrow => by rw [h.row id hid] at hrow; cases hrow⟩

theorem put_fresh {objectKey : String} {data : List UInt8} (h : b.objects.get? objectKey = none) :
    b.put objectKey data = some { b with objects := b.objects.insert objectKey data } := by
  rw [Backend.put, h]

/-! ## After the two `put` -/

/-- After the two `put`. -/
def stored (u : Upload) (b : Backend M) (preview : List UInt8) : Backend M :=
  { b with objects := (b.objects.insert u.objectKey u.data).insert u.previewKey preview }

theorem puts (hfresh : Fresh u b) (preview : List UInt8) :
    b.put u.objectKey u.data = some { b with objects := b.objects.insert u.objectKey u.data } ∧
      ({ b with objects := b.objects.insert u.objectKey u.data } : Backend M).put u.previewKey
        preview =
        some (stored u b preview) := by
  refine ⟨put_fresh (hfresh.object _ List.mem_cons_self), put_fresh ?_⟩
  rw [Dict.get?_insert_of_ne _ _ objectKey_ne_previewKey.symm]
  exact hfresh.object _ (List.mem_cons_of_mem _ List.mem_cons_self)

theorem createAsset_stored (hfresh : Fresh u b) (preview : List UInt8) (asset : MediaAsset M) :
    (stored u b preview).toStore.createAsset u.key asset =
      some { b.toStore with assets := b.assets.insert u.key asset } := by
  rw [Store.createAsset, stored]
  simp [hfresh.asset]

theorem trackObject_new (store : StateStore) (s : Store M) {key : Key} (row : RetentionRecord)
    (h : s.retention.get? key = none) :
    s.trackObject store key row = some { s with retention := s.retention.insert key row } := by
  rw [Store.trackObject, h]

theorem objects_restored (hfresh : Fresh u b) (preview : List UInt8) :
    ((stored u b preview).objects.erase u.objectKey).erase u.previewKey = b.objects := by
  have horiginal := Dict.erase_of_get?_none (hfresh.object _ List.mem_cons_self)
  have hpreview := Dict.erase_of_get?_none
      (hfresh.object _ (List.mem_cons_of_mem _ List.mem_cons_self))
  rw [stored, Dict.erase_insert, if_neg objectKey_ne_previewKey, Dict.erase_insert, if_pos rfl,
    Dict.erase_insert, if_pos rfl, horiginal, hpreview]

theorem attempt_early (v : Service M) (inspected : M × List UInt8) (hfresh : Fresh u b)
    (preview : List UInt8) (hearly : failure = .createAsset ∨ failure = .trackOriginal) :
    ∃ p, attempt (some failure) (v.calls u inspected) ⟨stored u b preview, false, []⟩ = (false, p) ∧
      p.trackedKeys = [] ∧ u.discard p = b := by
  have hobjects := objects_restored hfresh preview
  rcases hearly with rfl | rfl
  · exact ⟨_, rfl, rfl, congrArg (fun objects => { b with objects := objects }) hobjects⟩
  · refine ⟨⟨{ stored u b preview with assets := b.assets.insert u.key (v.asset u inspected) },
      true, []⟩, ?_, rfl, ?_⟩
    · simp [attempt, Service.calls, createAsset_stored hfresh, Backend.withStore]
      rfl
    · have hassets : (b.assets.insert u.key (v.asset u inspected)).erase u.key = b.assets := by
        rw [Dict.erase_insert, if_pos rfl, Dict.erase_of_get?_none hfresh.asset]
      unfold Upload.discard Store.deleteAsset Backend.withStore Backend.delete
      simp only [if_true, hassets, hobjects]
      rfl

theorem attempt_late (v : Service M) (inspected : M × List UInt8) (hfresh : Fresh u b)
    (preview : List UInt8) (hlate : failure = .trackPreview ∨ failure = .consume ∨
      failure = .audit) :
    ∃ p, attempt (some failure) (v.calls u inspected) ⟨stored u b preview, false, []⟩ = (false, p) ∧
      p.backend.retention.get? { u.key with id := u.objectKey } = some (v.originalRow u) := by
  have hne : ({ u.key with id := u.previewKey } : Key) ≠ { u.key with id := u.objectKey } := by
    simpa using objectKey_ne_previewKey.symm
  have hfirst := fun assets : Dict Key (MediaAsset M) => trackObject_new v.store ⟨assets,
    b.retention⟩ (v.originalRow u) (hfresh.row _ List.mem_cons_self)
  have hsecond := fun assets : Dict Key (MediaAsset M) => trackObject_new v.store
    ⟨assets, b.retention.insert { u.key with id := u.objectKey } (v.originalRow u)⟩ (v.previewRow u)
    ((Dict.get?_insert_of_ne _ _ hne).trans
      (hfresh.row _ (List.mem_cons_of_mem _ List.mem_cons_self)))
  rcases hlate with rfl | rfl | rfl
  · simp [attempt, Service.calls, createAsset_stored hfresh, Backend.withStore, hfirst]
  all_goals
    simp [attempt, Service.calls, createAsset_stored hfresh, Backend.withStore, hfirst, hsecond,
      Dict.get?_insert_of_ne _ _ hne.symm]

section

variable (hfresh : Fresh u b)
include hfresh

theorem putPreview_stored (preview : List UInt8)
    (hfailure : ∀ left, u.failure ≠ some (.putPreview left)) :
    u.putPreview preview { b with objects := b.objects.insert u.objectKey u.data } =
      (true, stored u b preview) := by
  unfold Upload.putPreview
  rw [(puts hfresh preview).2]
  match h : u.failure with
  | none => rfl
  | some (.putPreview left) => exact absurd h (hfailure left)
  | some .createAsset => rfl
  | some .trackOriginal => rfl
  | some .trackPreview => rfl
  | some .consume => rfl
  | some .audit => rfl

theorem putPreview_raised (preview : List UInt8) {left : Bool}
    (hfailure : u.failure = some (.putPreview left)) :
    u.putPreview preview { b with objects := b.objects.insert u.objectKey u.data } =
      (false, if left then stored u b preview
        else { b with objects := b.objects.insert u.objectKey u.data }) := by
  unfold Upload.putPreview
  rw [(puts hfresh preview).2, hfailure]
  cases left <;> rfl

theorem createAsset_attempt (hok : v.inspectData u = .ok inspected)
    (hfailure : ∀ left, u.failure ≠ some (.putPreview left))
    (hattempt : attempt u.failure (v.calls u inspected) ⟨stored u b inspected.2, false, []⟩ =
      (false, p)) :
    (v.createAsset u b).2 = u.discard { p with
      backend := p.backend.withStore (if p.trackedKeys = [] then p.backend.toStore
        else p.backend.toStore.markObjectsDeleted v.store p.trackedKeys u.cleanedAt) } := by
  unfold Service.createAsset
  simp only [hok, (puts hfresh inspected.2).1, putPreview_stored hfresh _ hfailure, hattempt]

theorem createAssetFromPath_attempt (hok : v.inspectPath u = .ok inspected)
    (hfailure : ∀ left, u.failure ≠ some (.putPreview left))
    (hattempt : attempt u.failure (v.calls u inspected) ⟨stored u b inspected.2, false, []⟩ =
      (false, p)) :
    (v.createAssetFromPath u b).2 = u.discard p := by
  unfold Service.createAssetFromPath
  simp only [hok, (puts hfresh inspected.2).1, putPreview_stored hfresh _ hfailure, hattempt]

theorem delete_put :
    ({ b with objects := b.objects.insert u.objectKey u.data } :
      Backend M).delete u.objectKey = b := by
  unfold Backend.delete
  rw [Dict.erase_insert, if_pos rfl, Dict.erase_of_get?_none (hfresh.object _ List.mem_cons_self)]

theorem createAsset_early (hok : v.inspectData u = .ok inspected)
    (hfailure : u.failure = some failure) (hearly : failure.early = true) :
    (v.createAsset u b).2 = b := by
  by_cases hput : failure = .putPreview false
  · unfold Service.createAsset
    simp only [hok, (puts hfresh inspected.2).1, putPreview_raised hfresh _ (hput ▸ hfailure)]
    exact delete_put hfresh
  · have hcalls : failure = .createAsset ∨ failure = .trackOriginal := by
      cases failure <;> simp_all [Failure.early]
    obtain ⟨p, hattempt, hnil, _⟩ := attempt_early v inspected hfresh inspected.2 hcalls
    have hnot : ∀ left, u.failure ≠ some (.putPreview left) := by
      rcases hcalls with rfl | rfl <;> simp [hfailure]
    rwa [createAsset_attempt hfresh hok hnot (hfailure ▸ hattempt), if_pos hnil]

theorem createAssetFromPath_early (hok : v.inspectPath u = .ok inspected)
    (hfailure : u.failure = some failure)
    (hearly : failure.early = true ∨ failure = .putPreview true) :
      (v.createAssetFromPath u b).2 = b := by
  by_cases hput : ∃ left, failure = .putPreview left
  · obtain ⟨left, rfl⟩ := hput
    unfold Service.createAssetFromPath
    simp only [hok, (puts hfresh inspected.2).1, putPreview_raised hfresh _ hfailure]
    cases left with
    | false =>
      have hpreview := Dict.erase_of_get?_none
        (hfresh.object _ (List.mem_cons_of_mem _ List.mem_cons_self))
      exact (congrArg (Backend.delete · u.previewKey) (delete_put hfresh)).trans
        (congrArg (fun objects => { b with objects := objects }) hpreview)
    | true =>
      exact congrArg (fun objects => { b with objects := objects })
        (objects_restored hfresh inspected.2)
  · have hcalls : failure = .createAsset ∨ failure = .trackOriginal := by
      cases failure <;> simp_all [Failure.early]
    obtain ⟨p, hattempt, -, _⟩ := attempt_early v inspected hfresh inspected.2 hcalls
    have hnot : ∀ left, u.failure ≠ some (.putPreview left) := by
      rcases hcalls with rfl | rfl <;> simp [hfailure]
    rwa [createAssetFromPath_attempt hfresh hok hnot (hfailure ▸ hattempt)]

theorem createAsset_left (hok : v.inspectData u = .ok inspected)
    (hfailure : u.failure = some (.putPreview true)) : ¬ Clean u (v.createAsset u b).2 := by
  intro hclean
  have hnone := hclean.object _ (List.mem_cons_of_mem _ List.mem_cons_self)
  unfold Service.createAsset at hnone
  simp only [hok, (puts hfresh inspected.2).1, putPreview_raised hfresh _ hfailure, if_true, stored,
    Backend.delete, Dict.get?_erase, Dict.get?_insert, objectKey_ne_previewKey.symm, if_false]
      at hnone
  cases hnone

theorem createAssetFromPath_late (hok : v.inspectPath u = .ok inspected)
    (hfailure : u.failure = some failure)
    (hlate : failure = .trackPreview ∨ failure = .consume ∨ failure = .audit) :
    ¬ Clean u (v.createAssetFromPath u b).2 := by
  obtain ⟨p, hattempt, hrow⟩ := attempt_late v inspected hfresh inspected.2 hlate
  have hnot : ∀ left, u.failure ≠ some (.putPreview left) := by
    rcases hlate with rfl | rfl | rfl <;> simp [hfailure]
  rw [createAssetFromPath_attempt hfresh hok hnot (hfailure ▸ hattempt)]
  intro hclean
  have hretention : (u.discard p).retention = p.backend.retention := by
    unfold Upload.discard
    split_ifs <;> rfl
  exact hclean.row _ List.mem_cons_self _ (hretention ▸ hrow) rfl

end

/-! ## Failed uploads -/

theorem early_or_late (failure : Failure) : failure.early = true ∨ failure = .putPreview true ∨
    failure = .trackPreview ∨ failure = .consume ∨ failure = .audit := by
  rcases failure with (_ | _) | _ | _ | _ | _ | _ <;> simp [Failure.early]

theorem inspectData_error {e : Error} (h : v.inspectPath u = .error e) :
    ∃ e, v.inspectData u = .error e := by
  unfold Service.inspectPath Service.inspectData at *
  cases hadmitted : v.admitted u with
  | error e => exact ⟨e, rfl⟩
  | ok =>
    rw [hadmitted] at h
    by_cases hstream : u.kind = .stream
    · exact ⟨_, by rw [if_pos hstream]; rfl⟩
    · rw [if_neg hstream]
      exact ⟨e, h⟩

theorem inspectData_ok (h : v.inspectPath u = .ok inspected) :
    v.inspectData u = if u.kind = .stream then
        .error (.valueError "stream inputs must be registered as media sources")
      else .ok inspected := by
  unfold Service.inspectPath Service.inspectData at *
  cases hadmitted : v.admitted u with
  | error e =>
    rw [hadmitted] at h
    cases h
  | ok =>
    rw [hadmitted] at h
    by_cases hstream : u.kind = .stream
    · rw [if_pos hstream, if_pos hstream]
      rfl
    · rwa [if_neg hstream, if_neg hstream]

theorem createAsset_refused {e : Error} (h : v.inspectData u = .error e) :
    (v.createAsset u b).2 = b := by
  unfold Service.createAsset
  rw [h]

theorem createAssetFromPath_refused {e : Error} (h : v.inspectPath u = .error e) :
    (v.createAssetFromPath u b).2 = b := by
  unfold Service.createAssetFromPath
  rw [h]

theorem createAssetFromPath_clean_iff (hfresh : Fresh u b) (hfailure : u.failure = some failure) :
    Clean u (v.createAssetFromPath u b).2 ↔
      (∃ e, v.inspectPath u = .error e) ∨ failure.early = true ∨ failure = .putPreview true := by
  cases hpath : v.inspectPath u with
  | error e =>
    rw [createAssetFromPath_refused hpath]
    exact iff_of_true hfresh.clean (.inl ⟨e, rfl⟩)
  | ok =>
    rcases early_or_late failure with hearly | hleft | hlate
    · rw [createAssetFromPath_early hfresh hpath hfailure (.inl hearly)]
      exact iff_of_true hfresh.clean (.inr (.inl hearly))
    · rw [createAssetFromPath_early hfresh hpath hfailure (.inr hleft)]
      exact iff_of_true hfresh.clean (.inr (.inr hleft))
    · refine iff_of_false (createAssetFromPath_late hfresh hpath hfailure hlate) ?_
      rcases hlate with rfl | rfl | rfl <;> simp [Failure.early]

/-- **A failed upload** leaves nothing of either function, and the same of both, exactly when it is
harmless. -/
theorem failed_uploads (hfresh : Fresh u b) {failure : Failure}
    (hfailure : u.failure = some failure) :
    (Clean u (v.createAsset u b).2 ∧ Clean u (v.createAssetFromPath u b).2 ∧
      (v.createAsset u b).2 = (v.createAssetFromPath u b).2) ↔ Harmless v u failure := by
  cases hpath : v.inspectPath u with
  | error e =>
    obtain ⟨_, hdata⟩ := inspectData_error hpath
    rw [createAsset_refused hdata, createAssetFromPath_refused hpath]
    exact iff_of_true ⟨hfresh.clean, hfresh.clean, rfl⟩ (.inl ⟨e, hpath⟩)
  | ok =>
    have hdata := inspectData_ok hpath
    constructor
    · rintro ⟨hcreate, hfile, -⟩
      rcases (createAssetFromPath_clean_iff hfresh hfailure).1 hfile with ⟨e, he⟩ | hearly | rfl
      · exact .inl ⟨e, he⟩
      · exact .inr (.inl hearly)
      · refine .inr (.inr ⟨rfl, ?_⟩)
        by_contra hstream
        rw [if_neg hstream] at hdata
        exact createAsset_left hfresh hdata hfailure hcreate
    · intro hharmless
      have hfile : (v.createAssetFromPath u b).2 = b := by
        refine createAssetFromPath_early hfresh hpath hfailure ?_
        rcases hharmless with ⟨e, he⟩ | hearly | ⟨hleft, -⟩
        · simp [hpath] at he
        · exact .inl hearly
        · exact .inr hleft
      have hcreate : (v.createAsset u b).2 = b := by
        by_cases hstream : u.kind = .stream
        · rw [if_pos hstream] at hdata
          exact createAsset_refused hdata
        · rw [if_neg hstream] at hdata
          rcases hharmless with ⟨e, he⟩ | hearly | ⟨-, hkind⟩
          · simp [hpath] at he
          · exact createAsset_early hfresh hdata hfailure hearly
          · exact absurd hkind hstream
      rw [hcreate, hfile]
      exact ⟨hfresh.clean, hfresh.clean, rfl⟩

/-- A service that takes every upload of one byte. -/
def oneByteService : Service Unit where
  store := .memory
  allowed _ := true
  maxMediaBytes := 1
  maxImageBytes := 1
  rawMediaRetentionDays := 7
  previewRetentionDays := 30
  sha256 _ := "0"
  inspectMedia _ := .ok ((), [1])

/-- An image of one byte. -/
def oneByte (failure : Failure) : Upload :=
  ⟨"t", "p", [0], none, "image/png", .image, none, false, "a", 0, 1, some failure⟩

/-- Nothing is stored. -/
def noBackend : Backend Unit := ⟨⟨Dict.empty, Dict.empty⟩, Dict.empty, 0, []⟩

theorem fresh_noBackend (failure : Failure) : Fresh (oneByte failure) noBackend :=
  ⟨rfl, fun _ _ => rfl, fun _ _ => rfl⟩

/-- The first row cannot be tracked. -/
theorem oneByte_restored :
    Clean (oneByte .trackOriginal)
      (oneByteService.createAsset (oneByte .trackOriginal) noBackend).2 ∧
      Clean (oneByte .trackOriginal)
        (oneByteService.createAssetFromPath (oneByte .trackOriginal) noBackend).2 ∧
      (oneByteService.createAsset (oneByte .trackOriginal) noBackend).2 =
        (oneByteService.createAssetFromPath (oneByte .trackOriginal) noBackend).2 :=
  (failed_uploads (fresh_noBackend _) rfl).2 (.inr (.inl rfl))

/-- The event cannot be recorded: the rows of `create_asset_from_path` are those of objects that are
gone. -/
theorem oneByte_left :
    ((oneByteService.createAsset (oneByte .audit) noBackend).2.retention.values.all fun row =>
      row.deletedAt.isSome) = true ∧
    (oneByteService.createAssetFromPath (oneByte .audit) noBackend).2.objects.entries = [] ∧
    ((oneByteService.createAssetFromPath (oneByte .audit) noBackend).2.retention.values.all
      fun row =>
      row.deletedAt.isNone) = true ∧
    (oneByteService.createAssetFromPath (oneByte .audit) noBackend).2.retention.values.length = 2 ∧
    ¬ Clean (oneByte .audit) (oneByteService.createAssetFromPath (oneByte .audit) noBackend).2 := by
  have hpath : oneByteService.inspectPath (oneByte .audit) = .ok ((), [1]) := rfl
  exact ⟨by decide +kernel, by decide +kernel, by decide +kernel, by decide +kernel,
    createAssetFromPath_late (fresh_noBackend _) hpath rfl (.inr (.inr rfl))⟩

end Scenara.Assets
