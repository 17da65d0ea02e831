import Scenara.Release.Model

/-!
# Model releases in PostgreSQL

Model of `create_release` and `transition_release` of `PostgresFeedbackRepository`, over the table
`scenara_model_releases`.

* A transaction that raises leaves the table as it was, so a call returns the new table or raises.
-/

namespace Scenara.Release

open Scenara.Core

/-- The columns of a row beside its primary key. -/
structure ReleaseRow where
  capability : String
  status : ModelReleaseStatus
  document : ModelRelease

/-- `scenara_model_releases`. -/
abbrev Rows := Dict Key ReleaseRow

/-- The order of the rows of a `SELECT`. -/
structure Scan where
  order : List (Key × ReleaseRow) → List (Key × ReleaseRow)
  perm : ∀ rows, (order rows).Perm rows

/-- As the rows came. -/
def Scan.inOrder : Scan := ⟨id, fun _ => .refl _⟩

namespace Rows

/-- The row of a key, new or instead of the one there. -/
def set (rows : Rows) (key : Key) (row : ReleaseRow) : Rows := rows.insert key row

/-- `scenara_model_releases_one_active_capability_idx`: another active row of the scope and
capability. -/
def violates (rows : Rows) (key : Key) (row : ReleaseRow) : Bool :=
  row.status = .active && rows.entries.any fun e => e.1 ≠ key && e.1.scope = key.scope &&
    e.2.capability = row.capability && e.2.status = .active

/-- The refusal of the unique index. -/
def uniqueViolation : FeedbackError := .raised "UniqueViolation"

/-- `INSERT INTO scenara_model_releases`. -/
def insertRow (rows : Rows) (key : Key) (row : ReleaseRow) : Except FeedbackError Rows :=
  if (rows.get? key).isSome || rows.violates key row then .error uniqueViolation
  else .ok (rows.set key row)

/-- `UPDATE scenara_model_releases SET status, updated_at, document WHERE` the primary key is
`key`. -/
def updateRow (rows : Rows) (key : Key) (document : ModelRelease) : Except FeedbackError Rows :=
  match rows.get? key with
  | none => .ok rows
  | some row =>
    let row := { row with status := document.status, document }
    if rows.violates key row then .error uniqueViolation else .ok (rows.set key row)

/-- `create_release`. -/
def createRelease (rows : Rows) (release : ModelRelease) : Except FeedbackError Rows :=
  match rows.insertRow release.key ⟨release.capability, release.status, release⟩ with
  | .error e =>
    if e = uniqueViolation then .error (.conflict "model release already exists") else .error e
  | .ok rows => .ok rows

/-- The rows that `transition_release` selects: those of the capability of the release. -/
def selected (rows : Rows) (scan : Scan) (key : Key) : List (Key × ReleaseRow) :=
  scan.order (rows.entries.filter fun e => e.1.scope = key.scope &&
    some e.2.capability = (rows.get? key).map ReleaseRow.capability)

/-- The release of another model or version that is to be retired. -/
def previous (key : Key) (releases : List (Key × ModelRelease)) : Option ModelRelease :=
  (releases.map Prod.snd).find? fun item =>
    (item.key.modelId, item.key.version) ≠ (key.modelId, key.version) && item.status = .active

/-- What `transition_release` returns: the table, `updated` and `previous`. -/
structure Transitioned where
  rows : Rows
  updated : ModelRelease
  previous : Option ModelRelease

/-- The first `UPDATE` of `transition_release`: the previous release, under the model of the current
one. -/
def retireRow (rows : Rows) (key : Key) : Option ModelRelease → Except FeedbackError Rows
  | none => .ok rows
  | some previous => rows.updateRow ⟨key.scope, key.modelId, previous.key.version⟩ previous

/-- `transition_release`. -/
def transitionRelease (rows : Rows) (scan : Scan) (key : Key) (target : ModelReleaseStatus)
    (rollback : Bool) (now : ℚ) : Except FeedbackError Transitioned :=
  let releases := (rows.selected scan key).map fun e => (e.1, e.2.document)
  match releases.lookup key with
  | none => .error (.notFound "model release not found")
  | some current => do
    validateReleaseTransition current.status target rollback
    let previous := if target = .active then
      (previous key releases).map fun other => other.retire now else none
    let rows ← rows.retireRow key previous
    let updated := current.moveTo target now
    let rows ← rows.updateRow key updated
    return ⟨rows, updated, previous⟩

/-- The table after a call, and whether it raised. -/
def apply (rows : Rows) (scan : Scan) : Act → Rows × Bool
  | .create release =>
    match rows.createRelease release with
    | .error _ => (rows, true)
    | .ok rows => (rows, false)
  | .transition key target rollback now =>
    match rows.transitionRelease scan key target rollback now with
    | .error _ => (rows, true)
    | .ok transitioned => (transitioned.rows, false)

end Rows

/-- The same call, at another time. -/
def Act.at (now : ℚ) : Act → Act
  | .create release => .create release
  | .transition key target rollback _ => .transition key target rollback now

/-- The call of `MemoryFeedbackRepository` raises. -/
def raises (repo : Repository) : Act → Bool
  | .create release => !(repo.createRelease release).toOption.isSome
  | .transition key target rollback now =>
    !(repo.transitionRelease key target rollback now).toOption.isSome

/-- The two repositories, and which calls raised in each. -/
structure Stores where
  memory : Repository
  postgres : Rows
  raised : List (Bool × Bool)

/-- Nothing stored. -/
def Stores.start : Stores := ⟨.empty, .empty, []⟩

/-- A call on both; `PostgresFeedbackRepository` looks at the clock at `a.2`. -/
def Stores.step (scan : Scan) (s : Stores) (a : Act × ℚ) : Option Stores :=
  let postgres := s.postgres.apply scan (a.1.at a.2)
  some ⟨apply s.memory a.1, postgres.1, s.raised ++ [(raises s.memory a.1, postgres.2)]⟩

end Scenara.Release
