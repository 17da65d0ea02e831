import Mathlib.Data.List.Sort
import Scenara.Result.Model

/-!
# The retention sweep

Model of `RetentionScheduler.sweep` and `RetentionPolicy.validate` (`platform/retention.py`) over
the memory state store: `expired_object_keys`, `mark_objects_deleted`, `track_object` and
`protect_object_for_alert` (`infrastructure/memory_state.py`), with `_store_result` beside them.

* Every object key lies in the directory of one run, or outside the runs in a directory of its own:
  the two stores are a dictionary of their parts (`Result.State`), and a key is a directory and a
  key in it. A row whose owner is the result of a run lies in the directory of that run.
* `expired_object_keys` sorts whole keys; `objectName` spells them.
* What `mark_objects_deleted` does to media assets is left out; no reference depends on it.
-/

namespace Scenara.Retention

open Scenara.Core Result

variable {U E B D : Type}

/-! ## The policy -/

/-- `RetentionPolicy`. -/
structure Policy where
  rawMediaDays : Nat
  previewDays : Nat
  structuredResultDays : Nat
  biometricDays : Option Nat
  alertSnapshotDays : Option Nat

/-- `RetentionPolicy.validate`. -/
def Policy.validate (p : Policy) : Except String Unit := do
  for (name, value) in [("raw_media_days", p.rawMediaDays), ("preview_days", p.previewDays),
      ("structured_result_days", p.structuredResultDays)] do
    if value < 1 ∨ 3650 < value then
      throw (name ++ " must be between 1 and 3650")
  if p.biometricDays.any fun days => ¬(1 ≤ days ∧ days ≤ 3650) then
    throw "biometric_days must be null or between 1 and 3650"
  if p.alertSnapshotDays.any fun days => ¬(1 ≤ days ∧ days ≤ 3650) then
    throw "alert_snapshot_days must be null or between 1 and 3650"

/-! ## The stores -/

/-- The object store and the state store, by directory. -/
abbrev Stores (B D : Type) := Dict String (State B D)

/-- The part of a directory. -/
def part (s : Stores B D) (directory : String) : State B D := (s.get? directory).getD .empty

/-- `f"{n:0{width}d}"`. -/
def padded (width n : Nat) : String :=
  String.ofList (List.replicate (width - n.repr.length) '0') ++ n.repr

/-- The whole key; `.other` keys are spelled out. -/
def objectName (directory : String) : ObjectKey → String
  | .shard ⟨false, index⟩ => directory ++ "/units-" ++ padded 6 index ++ ".json"
  | .shard ⟨true, index⟩ => directory ++ "/partial/units-" ++ padded 6 index ++ ".json"
  | .result .final => directory ++ "/result.json"
  | .result (.inPartial count uuid) =>
    directory ++ "/partial/result-" ++ padded 12 count ++ "-" ++ uuid ++ ".json"
  | .other key => key

/-- `item.expires_at is not None and item.expires_at <= before and item.deleted_at is None`. -/
def expired (before : ℚ) (row : RetentionRecord) : Bool :=
  row.expiresAt.any (· ≤ before) && row.deletedAt.isNone

/-- `expired_object_keys`. -/
def expiredObjectKeys (s : Stores B D) (before : ℚ) (limit : Nat) : List (String × ObjectKey) :=
  let keys := s.entries.flatMap fun e =>
    (e.2.retention.entries.filter fun r => expired before r.2).map fun r => (e.1, r.1)
  (keys.insertionSort fun k k' => objectName k.1 k.2 ≤ objectName k'.1 k'.2).take limit

/-- The keys whose `objects.delete` returns `True`: the objects that are there. -/
def deletedKeys (s : Stores B D) (before : ℚ) (limit : Nat) : List (String × ObjectKey) :=
  (expiredObjectKeys s before limit).filter fun k => (part s k.1).objects.get? k.2 ≠ none

/-- The deleted keys of one directory. -/
def deletedIn (s : Stores B D) (before : ℚ) (limit : Nat) (directory : String) : List ObjectKey :=
  ((deletedKeys s before limit).filter fun k => k.1 = directory).map Prod.snd

/-- Delete objects of a directory and mark their rows. -/
def sweepPart (directory : String) (now : ℚ) (keys : List ObjectKey) (p : State B D) : State B D :=
  markObjectsDeleted .memory directory now keys
    { p with objects := keys.foldl (fun objects key => objects.erase key) p.objects }

/-- `RetentionScheduler.sweep`. -/
def sweep (s : Stores B D) (before : ℚ) (limit : Nat) (now : ℚ) :
    Except String (Stores B D × Nat) :=
  if ¬(1 ≤ limit ∧ limit ≤ 10000) then
    .error "retention sweep limit must be between 1 and 10000"
  else
    let deleted := deletedKeys s before limit
    -- `if deleted:`
    if deleted = [] then .ok (s, 0)
    else
      .ok (s.mapVals fun directory => sweepPart directory now (deletedIn s before limit directory),
        deleted.length)

/-- `protect_object_for_alert`. -/
def protectObjectForAlert (p : State B D) (key : ObjectKey) (alertId : String) (expiresAt : ℚ) :
    State B D × Bool :=
  match p.retention.get? key with
  | none => (p, false)
  | some current =>
    if current.deletedAt ≠ none then (p, false)
    else
      ({ p with retention := p.retention.insert key { current with
          category := .alertSnapshot
          ownerType := .surveillanceAlert
          ownerId := alertId
          expiresAt := some (max (current.expiresAt.getD 0) expiresAt) } }, true)

/-! ## Runs -/

/-- A call on the stores. -/
inductive Call (U E B : Type) where
  /-- `_store_result`, of the run whose directory is `v.runId`. -/
  | storeResult (v : Service E) (call : Result.Call U E)
  /-- `objects.put` of an artifact or an asset. -/
  | putArtifact (directory key : String) (document : B)
  | trackObject (directory key : String) (record : RetentionRecord)
      (owned : record.ownerType = .runResult → record.ownerId = directory)
  | protectObjectForAlert (directory : String) (key : ObjectKey) (alertId : String) (expiresAt : ℚ)
  | sweep (before : ℚ) (limit : Nat) (now : ℚ)

/-- One call. A `_store_result` that raises is not taken; any other call that raises leaves the
stores as they were. -/
def step [DecidableEq D] (c : Codec U E B D) (s : Stores B D) : Call U E B → Option (Stores B D)
  | .storeResult v call =>
    match Result.storeResult c { v with store := .memory } (part s v.runId) call with
    | (p, .ok _) => some (s.insert v.runId p)
    | (_, .error _) => none
  | .putArtifact directory key document =>
    match put c .none (.other key) document (part s directory) with
    | .ok p => some (s.insert directory p)
    | .error _ => some s
  | .trackObject directory key record _ =>
    match trackObject .memory .none (part s directory) (.other key, record) with
    | .ok p => some (s.insert directory p)
    | .error _ => some s
  | .protectObjectForAlert directory key alertId expiresAt =>
    some (s.insert directory (protectObjectForAlert (part s directory) key alertId expiresAt).1)
  | .sweep before limit now =>
    match sweep s before limit now with
    | .ok (s', _) => some s'
    | .error _ => some s

end Scenara.Retention
