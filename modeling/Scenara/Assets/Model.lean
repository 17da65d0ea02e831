import Scenara.Result.Model

/-!
# Media assets and their objects

Model of what the state stores keep of media assets: `create_asset`, `delete_asset`, `track_object`,
`expired_object_keys` and `mark_objects_deleted` of `MemoryStateStore`
(`infrastructure/memory_state.py`) and `PostgresStateStore` (`infrastructure/postgres_state.py`).

* A `Store` holds the assets and the retention rows of every tenant and project, each under its
  `Key`.
* `Store.mark` is `mark_objects_deleted` over the rows that it touches: the two stores touch
  different ones. The references of run results, which it may drop too, are left out; no asset
  depends on them.
* The memory store lists the expired keys by key, Postgres by expiry first.
-/

namespace Scenara.Assets

open Scenara.Core
open Result (Category OwnerType RetentionRecord StateStore)

/-! ## Records -/

/-- `self._key(tenant_id, project_id, ...)`: the key of an asset, or of a retention row. -/
structure Key where
  tenantId : String
  projectId : String
  id : String
  deriving DecidableEq

/-- `MediaKind`. -/
inductive MediaKind where
  | image
  | video
  | document
  | stream
  deriving DecidableEq

/-- `MediaAsset`, without the key that it is stored under; `M` is `MediaTechnicalMetadata`. -/
structure MediaAsset (M : Type) where
  kind : MediaKind
  domain : Option String
  filename : Option String
  contentType : String
  sizeBytes : Nat
  sha256 : String
  objectKey : String
  previewObjectKey : Option String
  previewContentType : Option String
  previewSha256 : Option String
  metadata : M
  temporary : Bool
  createdAt : ℚ
  expiresAt : Option ℚ
  originalDeletedAt : Option ℚ
  deletedAt : Option ℚ
  deriving DecidableEq

variable {M : Type}

/-- `asset.model_copy(update=updates)` in `mark_objects_deleted`. -/
def MediaAsset.update (rawGone previewGone : Bool) (now : ℚ) (asset : MediaAsset M) :
    MediaAsset M :=
  { asset with
    originalDeletedAt := if rawGone then some now else asset.originalDeletedAt
    previewObjectKey := if previewGone then none else asset.previewObjectKey
    previewContentType := if previewGone then none else asset.previewContentType
    previewSha256 := if previewGone then none else asset.previewSha256
    deletedAt :=
      if previewGone && (rawGone || asset.originalDeletedAt.isSome) then some now
        else asset.deletedAt }

/-! ## The state stores -/

/-- The tables of assets and of retention rows. -/
structure Store (M : Type) where
  assets : Dict Key (MediaAsset M)
  retention : Dict Key RetentionRecord

namespace Store

/-- `create_asset`. -/
def createAsset (s : Store M) (key : Key) (asset : MediaAsset M) : Option (Store M) :=
  if (s.assets.get? key).isSome then none else some { s with assets := s.assets.insert key asset }

/-- `delete_asset`. -/
def deleteAsset (s : Store M) (key : Key) : Store M := { s with assets := s.assets.erase key }

/-- `track_object`: the memory store accepts an equal row, Postgres none. -/
def trackObject (store : StateStore) (s : Store M) (key : Key) (row : RetentionRecord) :
    Option (Store M) :=
  match s.retention.get? key with
  | none => some { s with retention := s.retention.insert key row }
  | some existing => if store = .memory ∧ existing = row then some s else none

/-- The row is one that `mark_objects_deleted` marks; Postgres skips those already marked. -/
def touches (store : StateStore) (objectKeys : List String) (key : Key) (row : RetentionRecord) :
    Bool :=
  decide (key.id ∈ objectKeys) && (decide (store = .memory) || row.deletedAt.isNone)

/-- The assets that own one of the rows, of the category. -/
def owners (s : Store M) (rows : Key → RetentionRecord → Bool) (category : Category) : List Key :=
  (s.retention.entries.filter fun row =>
    rows row.1 row.2 && row.2.ownerType = .mediaAsset && row.2.category = category).map fun row =>
      { row.1 with id := row.2.ownerId }

/-- The rows, and the assets that own them, are marked. -/
def mark (s : Store M) (rows : Key → RetentionRecord → Bool) (now : ℚ) : Store M where
  retention := s.retention.mapVals fun key row =>
    if rows key row then { row with deletedAt := some now } else row
  assets := s.assets.mapVals fun key =>
    MediaAsset.update (key ∈ s.owners rows .rawMedia) (key ∈ s.owners rows .preview) now

/-- `mark_objects_deleted`. -/
def markObjectsDeleted (store : StateStore) (objectKeys : List String) (now : ℚ) (s : Store M) :
    Store M :=
  s.mark (touches store objectKeys) now

/-- The row has expired and is not marked. -/
def expired (before : ℚ) (row : RetentionRecord) : Bool :=
  row.expiresAt.any (fun expiresAt => decide (expiresAt ≤ before)) && row.deletedAt.isNone

end Store

/-! ## What marking does -/

section Marking

variable {s : Store M} {rows : Key → RetentionRecord → Bool} {now : ℚ} {key : Key}
  {row : RetentionRecord} {category : Category}

theorem Store.get?_mark_retention :
    (s.mark rows now).retention.get? key = (s.retention.get? key).map fun row =>
      if rows key row then { row with deletedAt := some now } else row :=
  Dict.get?_mapVals _ _ _

theorem Store.get?_mark_assets :
    (s.mark rows now).assets.get? key = (s.assets.get? key).map
      (MediaAsset.update (key ∈ s.owners rows .rawMedia) (key ∈ s.owners rows .preview) now) :=
  Dict.get?_mapVals _ _ _

theorem Store.mem_owners :
    key ∈ s.owners rows category ↔ ∃ id row, s.retention.get? { key with id := id } = some row ∧
      rows { key with id := id } row = true ∧ row.ownerType = .mediaAsset ∧
      row.category = category ∧
      row.ownerId = key.id := by
  simp only [Store.owners, List.mem_map, List.mem_filter, Bool.and_eq_true, decide_eq_true_eq]
  constructor
  · rintro ⟨⟨k, row⟩, ⟨hmem, ⟨hrows, howner⟩, hcategory⟩, rfl⟩
    exact ⟨k.id, row, (Dict.mem_entries _ _ _).1 hmem, hrows, howner, hcategory, rfl⟩
  · rintro ⟨id, row, hget, hrows, howner, hcategory, hid⟩
    refine ⟨⟨{ key with id := id }, row⟩, ⟨(Dict.mem_entries _ _ _).2 hget, ⟨hrows, howner⟩,
      hcategory⟩, ?_⟩
    rw [hid]

end Marking

end Scenara.Assets
