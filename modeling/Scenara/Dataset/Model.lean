import Scenara.Media.Model

/-!
# Dataset versions and their assets

Model of `create_version` and `transition_version` of `DatasetService` (`platform/dataset.py`) and
of `RetentionScheduler.sweep`, beside the calls of `RunService` on the same state store.

* One tenant and project, as for the media. `Registry` has the datasets and the versions, and
  `history`: every status that a version was stored with, in order.
-/

namespace Scenara.Dataset

open Scenara.Core
open Creation (RunIds)
open Media (Library ObjectKey)

/-! ## Records -/

/-- `DatasetStatus`. -/
inductive DatasetStatus where
  | draft
  | active
  | archived
  deriving DecidableEq

/-- `DatasetVersionStatus`. -/
inductive DatasetVersionStatus where
  | draft
  | validated
  | published
  | retired
  deriving DecidableEq

/-- `DatasetVersionStatus.value`. -/
def DatasetVersionStatus.value : DatasetVersionStatus → String
  | .draft => "draft"
  | .validated => "validated"
  | .published => "published"
  | .retired => "retired"

/-- `allowed`. -/
def allowed : DatasetVersionStatus → List DatasetVersionStatus
  | .draft => [.validated, .retired]
  | .validated => [.published, .retired]
  | .published => [.retired]
  | .retired => []

/-- `DatasetVersion`. -/
structure DatasetVersion where
  versionId : String
  datasetId : String
  version : String
  status : DatasetVersionStatus
  assetIds : List String
  qualityScore : Option ℚ
  updatedAt : ℚ

/-- `CreateDatasetVersionRequest`, for a dataset, and the id that is drawn for the version. -/
structure Request where
  versionId : String
  datasetId : String
  version : String
  assetIds : List String
  qualityScore : Option ℚ

/-- The new version. -/
def Request.datasetVersion (request : Request) (now : ℚ) : DatasetVersion where
  versionId := request.versionId
  datasetId := request.datasetId
  version := request.version
  status := .draft
  assetIds := request.assetIds
  qualityScore := request.qualityScore
  updatedAt := now

/-! ## The store -/

/-- `_datasets` and `_dataset_versions`, and the statuses that were stored. -/
structure Registry where
  datasets : Dict String DatasetStatus
  versions : Table String DatasetVersion DatasetVersion.versionId
  history : List (String × DatasetVersionStatus)

/-- A version is stored. -/
def Registry.store (r : Registry) (version : DatasetVersion) : Registry :=
  { r with
    versions := r.versions.put version
    history := r.history ++ [(version.versionId, version.status)] }

/-- `create_dataset_version`. -/
def Registry.createDatasetVersion (r : Registry) (version : DatasetVersion) :
    Except String Registry :=
  if (r.versions.get? version.versionId).isSome then .error "dataset version already exists"
  else if r.versions.values.any fun item =>
      item.datasetId = version.datasetId && item.version = version.version then
    .error "dataset version already exists"
  else .ok (r.store version)

/-- `save_dataset_version`. -/
def Registry.saveDatasetVersion (r : Registry) (version : DatasetVersion) :
    Except String Registry :=
  if (r.versions.get? version.versionId).isNone then .error "dataset version not found"
  else .ok (r.store version)

/-- `save_dataset`. -/
def Registry.saveDataset (r : Registry) (datasetId : String) (status : DatasetStatus) :
    Except String Registry :=
  if (r.datasets.get? datasetId).isNone then .error "dataset not found"
  else .ok { r with datasets := r.datasets.insert datasetId status }

/-! ## Calls -/

/-- A call, at its next store call. -/
inductive Call where
  /-- `create_version`, about to get the dataset. -/
  | creating (request : Request)
  | checking (request : Request) (assetId : String) (left missing : List String)
  | inserting (request : Request)
  /-- `transition_version`, about to get the version. -/
  | transitioning (versionId : String) (target : DatasetVersionStatus)
  /-- About to save the version, as it was read, under the status. -/
  | saving (version : DatasetVersion) (target : DatasetVersionStatus)
  /-- Published: about to get the dataset. -/
  | activating (saved : DatasetVersion)
  /-- About to save the dataset as active. -/
  | savingDataset (saved : DatasetVersion)
  | auditing (version : DatasetVersion)
  | returned (version : DatasetVersion)
  | raised (message : String)

/-- The loop over the assets. -/
def checkAssets (request : Request) : List String → List String → Call
  | assetId :: left, missing => .checking request assetId left missing
  | [], [] => .inserting request
  | [], missing =>
    .raised ("dataset version references missing assets: " ++ ", ".intercalate (missing.take 10))

/-- `version.model_copy(update={"status": ..., "updated_at": ...})`. -/
def DatasetVersion.moveTo (version : DatasetVersion) (target : DatasetVersionStatus) (now : ℚ) :
    DatasetVersion :=
  { version with status := target, updatedAt := now }

/-- What `transition_version` makes of the version it read. -/
def checkTransition (version : DatasetVersion) (target : DatasetVersionStatus) : Call :=
  if target ∉ allowed version.status then
    .raised ("dataset version cannot transition from " ++ version.status.value ++ " to " ++
      target.value)
  else if target = .published ∧ version.assetIds = [] then
    .raised "published dataset versions require at least one asset"
  else if target = .published ∧ version.qualityScore = none then
    .raised "published dataset versions require a quality score"
  else .saving version target

/-- The store call is made. -/
def stepCall (now : ℚ) (library : Library) (r : Registry) : Call → Option (Registry × Call)
  | .creating request =>
    if (r.datasets.get? request.datasetId).isNone then some (r, .raised "dataset not found")
    else if ¬request.assetIds.Nodup then
      some (r, .raised "dataset version asset IDs must be unique")
    else some (r, checkAssets request request.assetIds [])
  | .checking request assetId left missing =>
    if (library.assets.get? assetId).all fun asset => asset.gone then
      some (r, checkAssets request left (missing ++ [assetId]))
    else some (r, checkAssets request left missing)
  | .inserting request =>
    match r.createDatasetVersion (request.datasetVersion now) with
    | .error message => some (r, .raised message)
    | .ok r => some (r, .auditing (request.datasetVersion now))
  | .transitioning versionId target =>
    match r.versions.get? versionId with
    | none => some (r, .raised "dataset version not found")
    | some version => some (r, checkTransition version target)
  | .saving version target =>
    let updated := version.moveTo target now
    match r.saveDatasetVersion updated with
    | .error message => some (r, .raised message)
    | .ok r => some (r, if target = .published then .activating updated else .auditing updated)
  | .activating saved =>
    match r.datasets.get? saved.datasetId with
    | none => some (r, .raised "dataset not found")
    | some .active => some (r, .auditing saved)
    | some _ => some (r, .savingDataset saved)
  | .savingDataset saved =>
    match r.saveDataset saved.datasetId .active with
    | .error message => some (r, .raised message)
    | .ok r => some (r, .auditing saved)
  | .auditing version => some (r, .returned version)
  | .returned _ | .raised _ => none

/-- The call is over. -/
def Call.over : Call → Bool
  | .returned _ | .raised _ => true
  | _ => false

/-! ## Sweeps -/

/-- A sweep, at its next backend call. -/
inductive Sweep where
  /-- About to delete the first of the keys, or, after the last one, to mark the deleted ones. -/
  | deleting (keys deleted : List ObjectKey)
  | done

/-- `found` is what `objects.delete` answers for an object that is not there. -/
def stepSweep (now : ℚ) (found : Bool) (library : Library) : Sweep → Option (Library × Sweep)
  | .deleting (key :: keys) deleted =>
    some (library.deleteObject key,
      .deleting keys (if key ∈ library.objects ∨ found then deleted ++ [key] else deleted))
  | .deleting [] deleted =>
    some (if deleted = [] then library else library.markObjectsDeleted deleted now, .done)
  | .done => none

/-! ## The system -/

/-- The media, the registry and what is going on. -/
structure System where
  media : Media.System
  registry : Registry
  calls : List Call
  sweeps : List Sweep

/-- Any media, any datasets, and no versions. -/
def System.start (library : Library) (datasets : Dict String DatasetStatus) : System :=
  ⟨.start library, ⟨datasets, .empty, []⟩, [], []⟩

/-- What the media system stores. -/
def System.library (s : System) : Library := s.media.shared.toLibrary

/-- One step. -/
inductive Act where
  /-- A call of `RunService`, or a step of one. -/
  | media (act : Media.Act)
  | create (request : Request)
  | transition (versionId : String) (target : DatasetVersionStatus)
  /-- A call makes its store call, or the store call raises. -/
  | advance (i : Nat) (now : ℚ) (raises : Option String)
  /-- A sweep has read the expired objects. -/
  | sweep (keys : List ObjectKey)
  | advanceSweep (i : Nat) (now : ℚ) (found : Bool)

/-- The library of the media is now `library`. -/
def System.setLibrary (s : System) (library : Library) : System :=
  { s with media := { s.media with shared := { s.media.shared with toLibrary := library } } }

/-- One step. -/
def step (ids : RunIds) (s : System) : Act → Option System
  | .media act => (Media.step ids s.media act).map fun media => { s with media }
  | .create request => some { s with calls := s.calls ++ [.creating request] }
  | .transition versionId target =>
    some { s with calls := s.calls ++ [.transitioning versionId target] }
  | .advance i now raises => do
    let call ← s.calls[i]?
    match raises with
    | some message =>
      if call.over then none else some { s with calls := s.calls.set i (.raised message) }
    | none =>
      let (registry, call') ← stepCall now s.library s.registry call
      return { s with registry, calls := s.calls.set i call' }
  | .sweep keys =>
    if keys.all fun key => s.library.retention.get? key = some none then
      some { s with sweeps := s.sweeps ++ [.deleting keys []] }
    else none
  | .advanceSweep i now found => do
    let sweep ← s.sweeps[i]?
    let (library, sweep') ← stepSweep now found s.library sweep
    return { s.setLibrary library with sweeps := s.sweeps.set i sweep' }

end Scenara.Dataset
