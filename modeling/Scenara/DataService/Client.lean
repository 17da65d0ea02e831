import Scenara.DataService.Handlers

/-!
# Records of the Data service, read by Core

Model of `_core_dataset` and `_core_dataset_version` (`platform/data_platform.py`), with the checks
of the models that they build (`platform/models.py`).
-/

namespace Scenara.DataService

open Scenara.Core

/-! ## Core's records -/

/-- `DatasetStatus`. -/
inductive DatasetStatus where
  | draft | active | archived
  deriving DecidableEq

/-- `DatasetVersionStatus`. -/
inductive DatasetVersionStatus where
  | draft | validated | published | retired
  deriving DecidableEq

/-- `DatasetStatus.value`. -/
def DatasetStatus.text : DatasetStatus → String
  | .draft => "draft"
  | .active => "active"
  | .archived => "archived"

/-- `DatasetVersionStatus.value`. -/
def DatasetVersionStatus.text : DatasetVersionStatus → String
  | .draft => "draft"
  | .validated => "validated"
  | .published => "published"
  | .retired => "retired"

/-- `DatasetRecord`. -/
structure DatasetRecord where
  datasetId : String
  tenantId : String
  projectId : String
  name : String
  description : String
  status : DatasetStatus
  metadata : Record
  createdAt : ℚ
  updatedAt : ℚ

/-- `DatasetVersion`. -/
structure DatasetVersion where
  versionId : String
  datasetId : String
  tenantId : String
  projectId : String
  version : String
  status : DatasetVersionStatus
  manifestSha256 : String
  assetIds : List String
  itemCount : Nat
  lineage : Record
  annotationSummary : Record
  createdBy : String
  createdAt : ℚ
  updatedAt : ℚ

/-- The `Field`s of `DatasetRecord`. -/
def DatasetRecord.Valid (d : DatasetRecord) : Prop :=
  (2 ≤ d.datasetId.length ∧ d.datasetId.length ≤ 128) ∧ (1 ≤ d.name.length ∧ d.name.length ≤ 256) ∧
    d.description.length ≤ 4000

/-- The `Field`s of `DatasetVersion`. -/
def DatasetVersion.Valid (v : DatasetVersion) : Prop :=
  (2 ≤ v.versionId.length ∧ v.versionId.length ≤ 128) ∧
  (1 ≤ v.version.length ∧ v.version.length ≤ 64) ∧
    isSha256 v.manifestSha256 ∧ v.assetIds.length ≤ 100000

instance (d : DatasetRecord) : Decidable d.Valid := inferInstanceAs (Decidable (_ ∧ _ ∧ _))

instance (v : DatasetVersion) : Decidable v.Valid := inferInstanceAs (Decidable (_ ∧ _ ∧ _ ∧ _))

/-! ## Reading -/

/-- What Core raises. -/
inductive Raised where
  /-- `DataPlatformRemoteError`. -/
  | remote (status : Nat) (code message : String)
  /-- `ValueError`, `TypeError`, or the `ValidationError` of a model. -/
  | invalid

variable (setting : Setting)

/-- What Core takes from elsewhere. -/
structure CoreSetting where
  /-- `datetime.fromisoformat(…).astimezone(UTC).timestamp()`. -/
  timestamp : String → Option ℚ
  float : Doc → Option ℚ
  float_num : ∀ n, float (.num n) = some n.value

/-- `_epoch`. -/
def epoch (core : CoreSetting) (value : Doc) (fallback : ℚ) : ℚ :=
  match value with
  | .num n => n.value
  | .bool b => if b then 1 else 0
  | .str s => (core.timestamp s).getD fallback
  | _ => fallback

/-- `str(payload_map.get(field, default))`. -/
def text (payload : Record) (field default : String) : String :=
  setting.str ((payload.get? field).getD (.str default))

/-- The models' `Field`s. -/
def validated {α : Type} (valid : Bool) (value : α) : Except Raised α :=
  if valid then .ok value else .error .invalid

variable (core : CoreSetting)

end Scenara.DataService
