import Mathlib.Data.List.Sort
import Scenara.Core.Dict
import Scenara.Core.Greatest
import Scenara.Core.Strings

/-!
# Model releases

Model of `MemoryFeedbackRepository` and of the calls of `FeedbackService` that roll a model back or
bind it to the runtime (`platform/feedback.py`).

* `created_by`, `created_at` and `domain` are left out: nothing reads them. So are the audit
  records, the deployment events and the policy, which allows the call.
* What a call reads outside the repository is its `Registry`: the packages of the catalog, and what
  `_validate_qualification_evidence` raises for a release.
* `digit` gives the value of a decimal digit of any script, the characters that `\d` matches. A
  version that the pattern admits has no other character that `str.isdigit` accepts.
-/

namespace Scenara.Release

open Scenara.Core

/-! ## Records -/

/-- `ModelReleaseStatus`. -/
inductive ModelReleaseStatus where
  | candidate
  | validated
  | approved
  | active
  | retired
  deriving DecidableEq

/-- `ModelReleaseStatus.value`. -/
def ModelReleaseStatus.value : ModelReleaseStatus → String
  | .candidate => "candidate"
  | .validated => "validated"
  | .approved => "approved"
  | .active => "active"
  | .retired => "retired"

/-- A tenant and a project. -/
structure Scope where
  tenantId : String
  projectId : String
  deriving DecidableEq

/-- `(tenant_id, project_id, model_id, version)`. -/
structure Key where
  scope : Scope
  modelId : String
  version : String
  deriving DecidableEq

/-- `ModelRelease`. -/
structure ModelRelease where
  key : Key
  capability : String
  runtimeModelId : String
  packageSha256 : String
  evidenceRefs : List String
  status : ModelReleaseStatus
  updatedAt : ℚ
  activatedAt : Option ℚ
  retiredAt : Option ℚ
  deriving DecidableEq

/-- What a call raises. -/
inductive FeedbackError where
  | notFound (message : String)
  | conflict (message : String)
  /-- An exception of the language or of a request's validation. -/
  | raised (exception : String)
  deriving DecidableEq

/-! ## The repository -/

/-- `MemoryFeedbackRepository._releases`; every release is stored under its own key. -/
structure Repository where
  releases : Dict Key ModelRelease
  keyed : ∀ {k r}, releases.get? k = some r → r.key = k

namespace Repository

/-- Nothing stored. -/
def empty : Repository where
  releases := .empty
  keyed := by simp

/-- `self._releases[key] = release`. -/
def put (repo : Repository) (release : ModelRelease) : Repository where
  releases := repo.releases.insert release.key release
  keyed := by
    intro k r h
    rw [Dict.get?_insert] at h
    split at h
    · rename_i hk
      rw [hk, ← Option.some.inj h]
    · exact repo.keyed h

/-- `create_release`. -/
def createRelease (repo : Repository) (release : ModelRelease) : Except FeedbackError Repository :=
  if (repo.releases.get? release.key).isSome then .error (.conflict "model release already exists")
  else .ok (repo.put release)

/-- The order of `list_releases`. -/
def Listed (a b : ModelRelease) : Prop :=
  a.key.modelId < b.key.modelId ∨ a.key.modelId = b.key.modelId ∧ a.key.version ≤ b.key.version
  deriving Decidable

/-- `list_releases`. -/
def listReleases (repo : Repository) (scope : Scope) : List ModelRelease :=
  ((repo.releases.entries.filter fun e => e.1.scope = scope).map Prod.snd).insertionSort Listed

end Repository

/-- `allowed`. -/
def allowed : ModelReleaseStatus → List ModelReleaseStatus
  | .candidate => [.validated]
  | .validated => [.approved, .candidate]
  | .approved => [.active, .candidate]
  | .active => [.retired]
  | .retired => []

/-- `validate_release_transition`. -/
def validateReleaseTransition (current target : ModelReleaseStatus) (rollback : Bool) :
    Except FeedbackError Unit :=
  if rollback then
    if current ≠ .retired ∨ target ≠ .active then
      .error (.conflict "rollback target must be a retired model release")
    else .ok ()
  else if target ∉ allowed current then
    .error (.conflict
      ("invalid model release transition: " ++ current.value ++ " -> " ++ target.value))
  else .ok ()

/-- The release that the loop of `transition_release` stops at. -/
def Repository.superseded (repo : Repository) (key : Key) (capability : String) :
    Option ModelRelease :=
  (repo.releases.entries.find? fun e => e.1.scope = key.scope && e.2.capability = capability &&
    e.2.status = .active && e.1 ≠ key).map Prod.snd

/-- `previous`. -/
def ModelRelease.retire (release : ModelRelease) (now : ℚ) : ModelRelease :=
  { release with status := .retired, retiredAt := some now, updatedAt := now }

/-- `updated`. -/
def ModelRelease.moveTo (release : ModelRelease) (target : ModelReleaseStatus) (now : ℚ) :
    ModelRelease :=
  { release with
    status := target
    updatedAt := now
    activatedAt := if target = .active then some now else release.activatedAt
    retiredAt := if target = .retired then some now else none }

/-- What `transition_release` returns: the repository, `updated` and `previous`. -/
structure Transitioned where
  repo : Repository
  updated : ModelRelease
  previous : Option ModelRelease

/-- `transition_release`. -/
def Repository.transitionRelease (repo : Repository) (key : Key) (target : ModelReleaseStatus)
    (rollback : Bool) (now : ℚ) : Except FeedbackError Transitioned :=
  match repo.releases.get? key with
  | none => .error (.notFound "model release not found")
  | some current => do
    validateReleaseTransition current.status target rollback
    let previous := if target = .active then
      (repo.superseded key current.capability).map fun other => other.retire now else none
    let retired := previous.elim repo repo.put
    let updated := current.moveTo target now
    return ⟨retired.put updated, updated, previous⟩

/-- A call on the repository. -/
inductive Act where
  | create (release : ModelRelease)
  | transition (key : Key) (target : ModelReleaseStatus) (rollback : Bool) (now : ℚ)

/-- The repository after a call; a call that raises has changed nothing. -/
def apply (repo : Repository) : Act → Repository
  | .create release => (repo.createRelease release).toOption.getD repo
  | .transition key target rollback now =>
    ((repo.transitionRelease key target rollback now).toOption.map Transitioned.repo).getD repo

/-! ## Packages -/

/-- What the calls below read of a `ModelPackageManifest`. -/
structure ModelPackage where
  modelId : String
  version : String
  sha256 : String
  adapter : String
  runtimeModelId : String
  productionReady : Bool

/-- What a call reads outside the repository. -/
structure Registry where
  packages : List ModelPackage
  evidence : ModelRelease → ModelPackage → Option String

/-- `runtime_model_id.startswith("legacy/")`. -/
def ModelPackage.isLegacy (package : ModelPackage) : Bool :=
  "legacy/".toList.isPrefixOf package.runtimeModelId.toList

/-- `_package`. -/
def Registry.package (registry : Registry) (release : ModelRelease) :
    Except FeedbackError ModelPackage :=
  match registry.packages.find? fun package => package.modelId = release.key.modelId &&
      package.version = release.key.version && package.sha256 = release.packageSha256 with
  | some package => .ok package
  | none =>
    .error (.conflict "model package is not registered or its checksum does not match")

/-! ## Rollback -/

/-- `rollback`. -/
def rollback (registry : Registry) (repo : Repository) (scope : Scope)
    (modelId targetVersion : String) (now : ℚ) : Except FeedbackError Transitioned :=
  match repo.releases.get? ⟨scope, modelId, targetVersion⟩ with
  | none => .error (.notFound "rollback target not found")
  | some target => do
    validateReleaseTransition target.status .active true
    let package ← registry.package target
    if package.isLegacy then
      .error (.conflict "migrated model packages cannot be rollback targets")
    else if !package.productionReady then
      .error (.conflict "rollback target package is not production-ready")
    else
      match registry.evidence target package with
      | some message => .error (.conflict message)
      | none => repo.transitionRelease ⟨scope, modelId, targetVersion⟩ .active true now

/-- A token of a version. -/
inductive Token where
  | number (n : Nat)
  | label (s : String)
  deriving DecidableEq

section Version

variable (digit : Char → Option Nat)

/-- `int(token) if token.isdigit() else token`. -/
def token (cs : List Char) : Token :=
  match cs.mapM digit with
  | some (d :: ds) => .number ((d :: ds).foldl (fun n d => 10 * n + d) 0)
  | _ => .label (String.ofList cs)

/-- `_release_version_key`. -/
def releaseVersionKey (value : String) : List Token :=
  (value.toList.splitOnP fun c => c = '.' || c = '-').map (token digit)

/-- `a > b` of two tuples: the first items that differ decide; `none` is the `TypeError` of an `int`
and a `str`. -/
def keyGt : List Token → List Token → Option Bool
  | [], _ => some false
  | _ :: _, [] => some true
  | a :: as, b :: bs =>
    if a = b then keyGt as bs
    else
      match a, b with
      | .number m, .number n => some (n < m)
      | .label s, .label t => some (t < s)
      | _, _ => none

/-- `a > b` of the keys of two releases. -/
def versionGt (a b : ModelRelease) : Option Bool :=
  keyGt (releaseVersionKey digit a.key.version) (releaseVersionKey digit b.key.version)

/-- `RollbackModelReleaseRequest`: the version matches the pattern, the reason its bounds. -/
def validRollbackRequest (targetVersion reason : String) : Bool :=
  isSemanticVersion (fun c => (digit c).isSome) targetVersion &&
    1 ≤ reason.length && reason.length ≤ 2000

/-- `auto_rollback`. -/
def autoRollback (registry : Registry) (repo : Repository) (scope : Scope)
    (modelId currentVersion reason : String) (now : ℚ) : Except FeedbackError Transitioned :=
  let releases := repo.listReleases scope
  let current := releases.find? fun item =>
    item.key.modelId = modelId && item.key.version = currentVersion
  if current.all fun item => item.status ≠ .active then
    .error (.conflict "automatic rollback requires an active current release")
  else
    match releases.filter fun item => item.key.modelId = modelId && item.status = .retired &&
        item.key.version ≠ currentVersion with
    | [] => .error (.conflict "automatic rollback has no retired target")
    | first :: rest =>
      match maxM (versionGt digit) first rest with
      | none => .error (.raised "TypeError")
      | some target =>
        if validRollbackRequest digit target.key.version reason then
          rollback registry repo scope modelId target.key.version now
        else .error (.raised "ValidationError")

/-- The versions of the model that are ACTIVE. -/
def Repository.activeVersions (repo : Repository) (scope : Scope) (modelId : String) :
    List String :=
  ((repo.listReleases scope).filter fun item =>
    item.key.modelId = modelId && item.status = .active).map fun item => item.key.version

/-- The arguments of a call of `auto_rollback` for a model, and what it reads. -/
structure AutoRollback where
  registry : Registry
  currentVersion : String
  reason : String
  now : ℚ

/-- Calls of `auto_rollback` for a model, each naming the one ACTIVE version: the version each one
rolls away from and the one it activates. `none` when a call raises or names another version. -/
def autoRollbacks (scope : Scope) (modelId : String) :
    Repository → List AutoRollback → Option (List (String × String))
  | _, [] => some []
  | repo, call :: calls =>
    if repo.activeVersions scope modelId ≠ [call.currentVersion] then none
    else
      match autoRollback digit call.registry repo scope modelId call.currentVersion call.reason
          call.now with
      | .error _ => none
      | .ok out => (autoRollbacks scope modelId out.repo calls).map fun moves =>
          (call.currentVersion, out.updated.key.version) :: moves

end Version

/-! ## Runtime bindings -/

/-- `RuntimeModelBinding`. -/
structure RuntimeModelBinding where
  capability : String
  modelId : String
  version : String
  runtimeModelId : String
  adapter : String
  sha256 : String
  packageSha256 : String

/-- `packages`. -/
def packageTable (packages : List ModelPackage) : Dict (String × String × String) ModelPackage :=
  .ofList (packages.map fun package => ((package.modelId, package.version, package.sha256),
    package))

/-- The refusal of two releases for one capability. -/
def multipleActive : FeedbackError :=
  .conflict "multiple active model releases target the same capability"

/-- One turn of the loop of `active_runtime_bindings`. -/
def addBinding (packages : Dict (String × String × String) ModelPackage)
    (bindings : Dict String RuntimeModelBinding) (release : ModelRelease) :
    Except FeedbackError (Dict String RuntimeModelBinding) :=
  if release.status ≠ .active then .ok bindings
  else
    match packages.get? (release.key.modelId, release.key.version, release.packageSha256) with
    | none => .error (.conflict "active model release package is unavailable")
    | some package =>
      if package.isLegacy then .ok bindings
      else if (bindings.get? release.capability).isSome then .error multipleActive
      else
        .ok (bindings.insert release.capability
          { capability := release.capability
            modelId := release.key.modelId
            version := release.key.version
            runtimeModelId := release.runtimeModelId
            adapter := package.adapter
            sha256 := package.sha256
            packageSha256 := release.packageSha256 })

/-- `active_runtime_bindings`. -/
def activeRuntimeBindings (packages : List ModelPackage) (repo : Repository) (scope : Scope) :
    Except FeedbackError (Dict String RuntimeModelBinding) :=
  (repo.listReleases scope).foldlM (addBinding (packageTable packages)) .empty

end Scenara.Release
