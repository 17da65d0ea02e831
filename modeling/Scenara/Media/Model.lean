import Scenara.Core.Dict
import Scenara.Creation.Model

/-!
# Media and the runs on them

Model of `delete_asset`, `delete_source` and `create_run` (`platform/services.py`), for any number
of calls at a time.

* One tenant and project: the keys of two never meet.

The asset or source of a run never changes; it is kept beside its record.
-/

namespace Scenara.Media

open Scenara.Core
open Creation (Backend Choice Held RunIds)

/-! ## Records -/

/-- The medium of a run: its `asset_id` or its `source_id`. -/
inductive Medium where
  | asset (assetId : String)
  | source (sourceId : String)
  deriving DecidableEq

/-- `run.source_id`. -/
def Medium.sourceId : Medium → Option String
  | .asset _ => none
  | .source sourceId => some sourceId

/-- The key of an object of an asset: `.../assets/{asset_id}/original`, or `.../preview.jpg`. -/
inductive ObjectKey where
  | original (assetId : String)
  | preview (assetId : String)
  deriving DecidableEq

/-- The asset of an object. -/
def ObjectKey.assetId : ObjectKey → String
  | .original assetId | .preview assetId => assetId

/-- `MediaAsset`. -/
structure MediaAsset where
  assetId : String
  /-- `preview_object_key` is not `None`. -/
  preview : Bool
  originalDeletedAt : Option ℚ
  deletedAt : Option ℚ

/-- `object_keys` in `delete_asset`. -/
def MediaAsset.objectKeys (asset : MediaAsset) : List ObjectKey :=
  .original asset.assetId :: if asset.preview then [.preview asset.assetId] else []

/-- The asset, or its original, is marked as deleted. -/
def MediaAsset.gone (asset : MediaAsset) : Bool :=
  asset.deletedAt.isSome || asset.originalDeletedAt.isSome

/-- `MediaSource`. -/
structure MediaSource where
  sourceId : String

/-! ## The stores -/

/-- The assets and sources, their objects and their secrets. -/
structure Library where
  assets : Table String MediaAsset MediaAsset.assetId
  sources : Table String MediaSource MediaSource.sourceId
  /-- The objects that have a row in `_object_retention`, and when they were deleted. -/
  retention : Dict ObjectKey (Option ℚ)
  objects : List ObjectKey
  /-- The sources that have a secret. -/
  secrets : List String

/-- What the calls share. -/
structure Shared extends Library where
  backend : Backend
  media : Dict String Medium
  drawn : Nat

namespace Library

/-- `objects.delete`. -/
def deleteObject (s : Library) (key : ObjectKey) : Library :=
  { s with objects := s.objects.filter fun other => other ≠ key }

/-- `asset.model_copy(update=updates)` in `mark_objects_deleted`. -/
def markAsset (rawGone previewGone : Bool) (now : ℚ) (asset : MediaAsset) : MediaAsset where
  assetId := asset.assetId
  preview := asset.preview && !previewGone
  originalDeletedAt := if rawGone then some now else asset.originalDeletedAt
  deletedAt :=
    if previewGone && (rawGone || asset.originalDeletedAt.isSome) then some now else asset.deletedAt

/-- The object is one of the keys, and has a row in `_object_retention`. -/
def tracked (s : Library) (keys : List ObjectKey) (key : ObjectKey) : Bool :=
  decide (key ∈ keys) && (s.retention.get? key).isSome

/-- What `mark_objects_deleted` makes of an asset. -/
def marked (s : Library) (keys : List ObjectKey) (now : ℚ) (asset : MediaAsset) : MediaAsset :=
  markAsset (s.tracked keys (.original asset.assetId)) (s.tracked keys (.preview asset.assetId))
    now asset

/-- `mark_objects_deleted`, for objects of assets. -/
def markObjectsDeleted (s : Library) (keys : List ObjectKey) (now : ℚ) : Library :=
  { s with
    retention := s.retention.mapVals fun key deletedAt => if key ∈ keys then some now else deletedAt
    assets := s.assets.map (s.marked keys now) fun _ => rfl }

/-- `delete_asset` of the state store. -/
def deleteAsset (s : Library) (assetId : String) : Library :=
  { s with assets := s.assets.filter fun asset => asset.assetId ≠ assetId }

/-- `delete_source` of the state store. -/
def deleteSource (s : Library) (sourceId : String) : Library :=
  { s with sources := s.sources.filter fun source => source.sourceId ≠ sourceId }

/-- `secrets.delete`. -/
def deleteSecret (s : Library) (sourceId : String) : Library :=
  { s with secrets := s.secrets.filter fun other => other ≠ sourceId }

end Library

/-- `has_non_terminal_run`. -/
def Shared.hasNonTerminalRun (s : Shared) (medium : Medium) : Bool :=
  s.backend.runs.entries.any fun (runId, rows) =>
    !rows.run.status.terminal && s.media.get? runId = some medium

/-! ## Calls -/

/-- The request of a `create_run`. -/
structure Request where
  idempotencyKey : String
  requestHash : String
  medium : Medium
  streamSessionId : Option String
  /-- `wait_ms` is not zero. -/
  waits : Bool

/-- Its `RunRecord`. -/
def Request.run (request : Request) (now : ℚ) : Run.RunRecord :=
  Creation.Request.run
    ⟨request.idempotencyKey, request.requestHash, now, request.medium.sourceId,
      request.streamSessionId, request.waits⟩

/-- A call, at its next backend call. -/
inductive Call where
  /-- `create_run`, about to get the asset or source. -/
  | reading (request : Request)
  /-- About to `create_run_idempotent`. -/
  | inserting (request : Request)
  /-- After it. -/
  | creating (call : Creation.Call)
  /-- `delete_asset`, about to `get_asset`. -/
  | gettingAsset (assetId : String)
  /-- About to ask `has_non_terminal_run`. -/
  | checkingAsset (asset : MediaAsset)
  | auditingAsset (asset : MediaAsset)
  /-- About to delete the first of the keys, or, after the last one, to `mark_objects_deleted`. -/
  | deletingObjects (asset : MediaAsset) (keys : List ObjectKey)
  /-- About to delete the asset from the state store. -/
  | deletingAsset (asset : MediaAsset)
  /-- About to delete it from the indexes. -/
  | deletingIndex (asset : MediaAsset)
  /-- `delete_source`, about to `get_source`. -/
  | gettingSource (sourceId : String)
  | checkingSource (source : MediaSource)
  | auditingSource (source : MediaSource)
  /-- About to delete the source from the state store. -/
  | deletingSource (source : MediaSource)
  /-- About to delete its secret. -/
  | deletingSecret (source : MediaSource)
  | deleted
  | raised (message : String)

/-- The backend call is made. -/
def stepCall (ids : RunIds) (now : ℚ) (s : Shared) : Call → Option (Shared × Call)
  | .reading request =>
    match request.medium with
    | .asset assetId =>
      match s.assets.get? assetId with
      | none => some (s, .raised "media asset not found")
      | some asset =>
        if asset.gone then some (s, .raised "media asset not found")
          else some (s, .inserting request)
    | .source sourceId =>
      match s.sources.get? sourceId with
      | none => some (s, .raised "media source not found")
      | some _ => some (s, .inserting request)
  | .inserting request =>
    match Creation.createRunIdempotent s.backend (ids.draw s.drawn) (request.run now)
        request.idempotencyKey request.requestHash with
    | .ok (backend, runId, stored, true) =>
      some ({ s with
        backend := backend
        media := s.media.insert runId request.medium
        drawn := s.drawn + 1 }, .creating (.consume ⟨runId, stored, request.waits⟩))
    | .ok (backend, runId, stored, false) =>
      some ({ s with backend := backend, drawn := s.drawn + 1 },
        .creating (Creation.finish ⟨runId, stored, request.waits⟩ false))
    | .error message => some ({ s with drawn := s.drawn + 1 }, .raised message)
  | .gettingAsset assetId =>
    match s.assets.get? assetId with
    | none => some (s, .raised "media asset not found")
    | some asset => some (s, .checkingAsset asset)
  | .checkingAsset asset =>
    if s.hasNonTerminalRun (.asset asset.assetId) then
      some (s, .raised "media asset has a non-terminal run")
    else some (s, .auditingAsset asset)
  | .auditingAsset asset => some (s, .deletingObjects asset asset.objectKeys)
  | .deletingObjects asset (key :: keys) =>
    some ({ s with toLibrary := s.deleteObject key }, .deletingObjects asset keys)
  | .deletingObjects asset [] =>
    some ({ s with toLibrary := s.markObjectsDeleted asset.objectKeys now }, .deletingAsset asset)
  | .deletingAsset asset =>
    some ({ s with toLibrary := s.toLibrary.deleteAsset asset.assetId }, .deletingIndex asset)
  | .deletingIndex _ => some (s, .deleted)
  | .gettingSource sourceId =>
    match s.sources.get? sourceId with
    | none => some (s, .raised "media source not found")
    | some source => some (s, .checkingSource source)
  | .checkingSource source =>
    if s.hasNonTerminalRun (.source source.sourceId) then
      some (s, .raised "media source has a non-terminal run")
    else some (s, .auditingSource source)
  | .auditingSource source => some (s, .deletingSource source)
  | .deletingSource source =>
    some ({ s with toLibrary := s.toLibrary.deleteSource source.sourceId }, .deletingSecret source)
  | .deletingSecret source =>
    some ({ s with toLibrary := s.toLibrary.deleteSecret source.sourceId }, .deleted)
  | .creating _ | .deleted | .raised _ => none

/-- A backend call, made or not. -/
def advanceCall (ids : RunIds) (now : ℚ) (choice : Choice) (s : Shared) (call : Call) :
    Option (Shared × Call) :=
  match call, choice with
  | .creating call, choice =>
    (Creation.stepCall now s.backend call choice).map fun (backend, call') =>
      ({ s with backend := backend }, .creating call')
  | .deleted, _ | .raised _, _ => none
  | call, .go => stepCall ids now s call
  | _, .raise message => some (s, .raised message)
  | _, .deadline => none

/-! ## The system -/

/-- What is stored, and the calls. -/
structure System where
  shared : Shared
  calls : List Call

/-- Any media, and no runs. -/
def System.start (library : Library) : System := ⟨⟨library, .empty, .empty, 0⟩, []⟩

/-- One step. -/
inductive Act where
  | createRun (request : Request)
  | deleteAsset (assetId : String)
  | deleteSource (sourceId : String)
  | advance (i : Nat) (now : ℚ) (choice : Choice)
  /-- A run is saved by somebody else, or its log grows. -/
  | save (runId : String) (rows : Run.Store)

/-- One step. -/
def step (ids : RunIds) (s : System) : Act → Option System
  | .createRun request => some { s with calls := s.calls ++ [.reading request] }
  | .deleteAsset assetId => some { s with calls := s.calls ++ [.gettingAsset assetId] }
  | .deleteSource sourceId => some { s with calls := s.calls ++ [.gettingSource sourceId] }
  | .advance i now choice => do
    let call ← s.calls[i]?
    let (shared, call') ← advanceCall ids now choice s.shared call
    return ⟨shared, s.calls.set i call'⟩
  | .save runId rows => do
    let current ← s.shared.backend.runs.get? runId
    if current.run.status.terminal && !rows.run.status.terminal then none
    else
      let backend := s.shared.backend
      return { s with
        shared := { s.shared with
          backend := { backend with runs := backend.runs.insert runId rows } } }

end Scenara.Media
