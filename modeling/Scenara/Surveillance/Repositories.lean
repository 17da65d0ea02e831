import Mathlib.Data.List.Sort
import Mathlib.Data.String.Basic
import Scenara.Core.Dict
import Scenara.Surveillance.Model

/-!
# The two surveillance repositories

Model of the watchlists, members and tasks of `MemorySurveillanceRepository`
(`infrastructure/memory_surveillance.py`) and of `PostgresSurveillanceRepository`
(`infrastructure/postgres_surveillance.py`, tables of `migrations/0014_surveillance_alerts.sql`).

* `Record` is what `Watchlist`, `WatchlistMember` and `SurveillanceTask` have in common. What their
  validators promise of a period, of the watchlist ids and of the bindings is a field of
  `MemberFields` and `TaskFields`; the fields that no statement reads are of a type `R`.
* A table is a dictionary of rows by primary key. `Schema` is what sets one table of records apart:
  the columns of its own, what an `UPDATE` writes of them, its CHECK and its UNIQUE. A statement
  fails in the order of the server: its parameters (`bind`, `rebind`), the CHECKs, the unique
  indexes, the foreign keys.
* A `document` column holds what was stored. The project, identity, source and camera that a row
  refers to exist; so do the rows of a task's bindings as long as the task does.
* `to_timestamp`, the collation and the texts of `R` are the database's (`Database`).
* A call that raises leaves its repository as it was (`memoryStep`, `postgresStep`).
-/

namespace Scenara.Surveillance.Repositories

open Scenara.Core

/-! ## Records -/

/-- `_key(tenant_id, project_id, identifier)`; the primary key of every table. -/
structure Key where
  tenantId : String
  projectId : String
  id : String
  deriving DecidableEq

namespace Key

/-- The keys are of one project. -/
def sameProject (k k' : Key) : Bool := k.tenantId = k'.tenantId && k.projectId = k'.projectId

/-- Another record of the project. -/
def sibling (k : Key) (id : String) : Key := { k with id }

end Key

/-- A record with its revision. -/
structure Record (F : Type) where
  key : Key
  createdAt : ℚ
  updatedAt : ℚ
  revision : ℤ
  fields : F

/-- `model_copy(update={"revision": expected_revision + 1})`. -/
def Record.saved {F : Type} (record : Record F) (expectedRevision : ℤ) : Record F :=
  { record with revision := expectedRevision + 1 }

/-- The fields of a member. -/
structure MemberFields (R : Type) where
  watchlistId : String
  portraitIdentityId : String
  validFrom : Option ℚ
  validUntil : Option ℚ
  rest : R
  period : ∀ a ∈ validFrom, ∀ b ∈ validUntil, a < b

/-- The fields of a task. -/
structure TaskFields (R : Type) where
  watchlistIds : List String
  bindings : List (TaskBinding String)
  rest : R
  nodupWatchlists : watchlistIds.Nodup
  nodupBindings : (bindings.map TaskBinding.bindingId).Nodup
  nodupCameras : (bindings.map fun b => (b.sourceId, b.cameraId)).Nodup

/-- `Watchlist`. -/
abbrev Watchlist (R : Type) := Record R

/-- `WatchlistMember`. -/
abbrev Member (R : Type) := Record (MemberFields R)

/-- `SurveillanceTask`. -/
abbrev SurveillanceTask (R : Type) := Record (TaskFields R)

/-! ## Calls -/

/-- What the server raises. -/
inductive DatabaseError where
  | dataError
  | checkViolation
  | uniqueViolation
  | foreignKeyViolation
  deriving DecidableEq

/-- What a call raises. -/
inductive Error where
  | surveillanceConflict (message : String)
  | database (error : DatabaseError)
  deriving DecidableEq

/-- The class that is raised; `none` is `SurveillanceConflict`. -/
def Error.kind : Error → Option DatabaseError
  | surveillanceConflict _ => none
  | database error => some error

/-- What a call returns. -/
inductive Reply (R : Type) where
  | watchlist (watchlist : Watchlist R)
  | member (member : Member R)
  | task (task : SurveillanceTask R)
  | removed (found : Bool)

/-- The calls. -/
inductive Act (R : Type) where
  | createWatchlist (watchlist : Watchlist R)
  | saveWatchlist (watchlist : Watchlist R) (expectedRevision : ℤ)
  | deleteWatchlist (key : Key)
  | createMember (member : Member R)
  | saveMember (member : Member R) (expectedRevision : ℤ)
  | deleteMember (key : Key)
  | createTask (task : SurveillanceTask R)
  | saveTask (task : SurveillanceTask R) (expectedRevision : ℤ)

variable {R F C : Type}

/-- The watchlists that a call names, of a member or a task. -/
def Act.watchlists : Act R → List Key
  | createMember member | saveMember member _ => [member.key.sibling member.fields.watchlistId]
  | createTask task | saveTask task _ => task.fields.watchlistIds.map task.key.sibling
  | _ => []

/-! ## The memory repository -/

/-- `MemorySurveillanceRepository`. -/
structure Memory (R : Type) where
  watchlists : Dict Key (Watchlist R)
  members : Dict Key (Member R)
  tasks : Dict Key (SurveillanceTask R)

/-- Nothing stored. -/
def Memory.empty : Memory R := ⟨.empty, .empty, .empty⟩

/-- A record under a new key. -/
def create (taken : String) (records : Dict Key (Record F)) (record : Record F) :
    Except Error (Dict Key (Record F)) :=
  if (records.get? record.key).isSome then .error (.surveillanceConflict taken)
  else .ok (records.insert record.key record)

/-- A record over the one with the expected revision. -/
def save (what : String) (records : Dict Key (Record F)) (record : Record F)
    (expectedRevision : ℤ) : Except Error (Dict Key (Record F)) :=
  match records.get? record.key with
  | none => .error (.surveillanceConflict (what ++ " does not exist"))
  | some current =>
    if current.revision ≠ expectedRevision then
      .error (.surveillanceConflict (what ++ " revision conflict"))
    else .ok (records.insert record.key (record.saved expectedRevision))

/-- The records that `keep` picks, by `(-item.updated_at, item.id)`. -/
def listRecords (keep : Key → Record F → Bool) (records : Dict Key (Record F)) : List (Record F) :=
  ((records.entries.filter fun e => keep e.1 e.2).map Prod.snd).insertionSort fun a b =>
    b.updatedAt < a.updatedAt ∨ a.updatedAt = b.updatedAt ∧ a.key.id ≤ b.key.id

namespace Memory

/-- `create_watchlist`. -/
def createWatchlist (m : Memory R) (watchlist : Watchlist R) :
    Except Error (Memory R × Reply R) := do
  let watchlists ← create "watchlist already exists" m.watchlists watchlist
  return ({ m with watchlists }, .watchlist watchlist)

/-- `save_watchlist`. -/
def saveWatchlist (m : Memory R) (watchlist : Watchlist R) (expectedRevision : ℤ) :
    Except Error (Memory R × Reply R) := do
  let watchlists ← save "watchlist" m.watchlists watchlist expectedRevision
  return ({ m with watchlists }, .watchlist (watchlist.saved expectedRevision))

/-- The member is of the watchlist under `key`. -/
def ofWatchlist (key : Key) (member : Member R) : Bool :=
  member.key.sameProject key && member.fields.watchlistId = key.id

/-- `delete_watchlist`. -/
def deleteWatchlist (m : Memory R) (key : Key) : Except Error (Memory R × Reply R) :=
  match m.watchlists.get? key with
  | none => .ok (m, .removed false)
  | some _ => .ok ({ m with
      watchlists := m.watchlists.erase key
      members := m.members.filter fun _ member => !ofWatchlist key member }, .removed true)

/-- The portrait identity is a member of the watchlist. -/
def enrolled (m : Memory R) (member : Member R) : Bool :=
  m.members.values.any fun item => item.key.sameProject member.key &&
    item.fields.watchlistId = member.fields.watchlistId &&
    item.fields.portraitIdentityId = member.fields.portraitIdentityId

/-- `create_member`. -/
def createMember (m : Memory R) (member : Member R) : Except Error (Memory R × Reply R) := do
  let members ← create "watchlist member already exists" m.members member
  if m.enrolled member then
    .error (.surveillanceConflict "portrait identity is already a member of this watchlist")
  else return ({ m with members }, .member member)

/-- `save_member`. -/
def saveMember (m : Memory R) (member : Member R) (expectedRevision : ℤ) :
    Except Error (Memory R × Reply R) := do
  let members ← save "watchlist member" m.members member expectedRevision
  return ({ m with members }, .member (member.saved expectedRevision))

/-- `delete_member`. -/
def deleteMember (m : Memory R) (key : Key) : Except Error (Memory R × Reply R) :=
  .ok ({ m with members := m.members.erase key }, .removed (m.members.get? key).isSome)

/-- `create_task`. -/
def createTask (m : Memory R) (task : SurveillanceTask R) : Except Error (Memory R × Reply R) := do
  let tasks ← create "surveillance task already exists" m.tasks task
  return ({ m with tasks }, .task task)

/-- `save_task`. -/
def saveTask (m : Memory R) (task : SurveillanceTask R) (expectedRevision : ℤ) :
    Except Error (Memory R × Reply R) := do
  let tasks ← save "surveillance task" m.tasks task expectedRevision
  return ({ m with tasks }, .task (task.saved expectedRevision))

/-- What a call returns, and the store after it. -/
def call (m : Memory R) : Act R → Except Error (Memory R × Reply R)
  | .createWatchlist watchlist => m.createWatchlist watchlist
  | .saveWatchlist watchlist expectedRevision => m.saveWatchlist watchlist expectedRevision
  | .deleteWatchlist key => m.deleteWatchlist key
  | .createMember member => m.createMember member
  | .saveMember member expectedRevision => m.saveMember member expectedRevision
  | .deleteMember key => m.deleteMember key
  | .createTask task => m.createTask task
  | .saveTask task expectedRevision => m.saveTask task expectedRevision

/-- The three listings; `key` is a record of the project, for `list_members` the watchlist. -/
def listWatchlists (m : Memory R) (key : Key) : List (Watchlist R) :=
  listRecords (fun k _ => k.sameProject key) m.watchlists

/-- `list_members`. -/
def listMembers (m : Memory R) (key : Key) : List (Member R) :=
  listRecords (fun _ member => ofWatchlist key member) m.members

/-- `list_tasks`. -/
def listTasks (m : Memory R) (key : Key) : List (SurveillanceTask R) :=
  listRecords (fun k _ => k.sameProject key) m.tasks

end Memory

/-- The store after a call; one that raises changes nothing. -/
def memoryStep (m : Memory R) (act : Act R) : Memory R :=
  match m.call act with
  | .ok (m', _) => m'
  | .error _ => m

/-! ## The database -/

/-- What the statements take from the server and its driver. -/
structure Database (R : Type) where
  /-- `to_timestamp`, in microseconds; `none` is out of range. -/
  toTimestamp : ℚ → Option ℤ
  /-- The texts of the other fields hold no NUL. -/
  storable : R → Bool
  /-- The collation of the database. -/
  collate : String → String → Bool

/-- A text without NUL, which neither `text` nor `jsonb` can hold. -/
def nulFree (text : String) : Bool := !text.toList.contains (Char.ofNat 0)

/-- The key has no NUL. -/
def Key.bindable (k : Key) : Bool := nulFree k.tenantId && nulFree k.projectId && nulFree k.id

/-- `^[a-z][a-z0-9_.-]{1,63}$`. -/
def scopeText (text : String) : Bool :=
  match text.toList with
  | [] => false
  | c :: cs => c.isLower && 1 ≤ cs.length && cs.length ≤ 63 &&
      cs.all fun c => c.isLower || c.isDigit || "_.-".toList.contains c

/-- `^[A-Za-z0-9_.:-]{2,128}$`. -/
def idText (text : String) : Bool :=
  2 ≤ text.length && text.length ≤ 128 &&
    text.toList.all fun c => c.isAlphanum || "_.:-".toList.contains c

/-- A value of an `integer` column. -/
def integer (n : ℤ) : Option ℤ := if -2 ^ 31 ≤ n ∧ n < 2 ^ 31 then some n else none

/-- `to_timestamp(%s::double precision)` of a value or NULL. -/
def Database.nullable (db : Database R) : Option ℚ → Option (Option ℤ)
  | none => some none
  | some t => (db.toTimestamp t).map some

/-- A row of a table of records; `columns` are those of its own. -/
structure Row (F C : Type) where
  createdAt : ℤ
  updatedAt : ℤ
  revision : ℤ
  columns : C
  document : Record F

/-- What sets a table of records apart. -/
structure Schema (F C : Type) where
  /-- The document can be stored. -/
  storable : F → Bool
  columns : F → Option C
  /-- What an `UPDATE` writes over the columns of a row. -/
  set : C → C → C
  check : C → Bool
  /-- The two break a UNIQUE of the table. -/
  clash : C → C → Bool

namespace Schema

variable (db : Database R) (schema : Schema F C)

/-- The parameters of an `INSERT`. -/
def bind (record : Record F) : Option (Row F C) :=
  if record.key.bindable && schema.storable record.fields then do
    let createdAt ← db.toTimestamp record.createdAt
    let updatedAt ← db.toTimestamp record.updatedAt
    let revision ← integer record.revision
    let columns ← schema.columns record.fields
    return ⟨createdAt, updatedAt, revision, columns, record⟩
  else none

/-- The parameters of an `UPDATE`, and what it does to a row. -/
def rebind (record : Record F) : Option (Row F C → Row F C) :=
  if record.key.bindable && schema.storable record.fields then do
    let updatedAt ← db.toTimestamp record.updatedAt
    let revision ← integer record.revision
    let columns ← schema.columns record.fields
    return fun row => { row with
      updatedAt, revision, columns := schema.set row.columns columns, document := record }
  else none

/-- The CHECKs of a row. -/
def checks (key : Key) (row : Row F C) : Bool :=
  scopeText key.tenantId && scopeText key.projectId && idText key.id && 0 < row.revision &&
    schema.check row.columns

/-- The primary key or a UNIQUE is taken. -/
def taken (rows : Dict Key (Row F C)) (key : Key) (columns : C) : Bool :=
  (rows.get? key).isSome ||
    rows.entries.any fun e => e.1.sameProject key && schema.clash e.2.columns columns

/-- `INSERT`. -/
def insertRow (rows : Dict Key (Row F C)) (record : Record F) :
    Except DatabaseError (Dict Key (Row F C)) :=
  match schema.bind db record with
  | none => .error .dataError
  | some row =>
    if !schema.checks record.key row then .error .checkViolation
    else if schema.taken rows record.key row.columns then .error .uniqueViolation
    else .ok (rows.insert record.key row)

/-- `UPDATE ... WHERE ... AND revision = %s`; `none` when no row is hit. -/
def updateRow (rows : Dict Key (Row F C)) (record : Record F) (expectedRevision : ℤ) :
    Except DatabaseError (Option (Dict Key (Row F C))) :=
  match schema.rebind db record with
  | none => .error .dataError
  | some set =>
    match rows.get? record.key with
    | none => .ok none
    | some row =>
      if row.revision ≠ expectedRevision then .ok none
      else if !schema.checks record.key (set row) then .error .checkViolation
      else .ok (some (rows.insert record.key (set row)))

end Schema

/-- The columns of `scenara_surveillance_watchlist_members` that are its own. -/
structure MemberColumns where
  watchlistId : String
  portraitIdentityId : String
  validFrom : Option ℤ
  validUntil : Option ℤ

/-- `scenara_surveillance_watchlists`. -/
def Database.watchlists (db : Database R) : Schema R Unit where
  storable := db.storable
  columns _ := some ()
  set _ _ := ()
  check _ := true
  clash _ _ := false

/-- `scenara_surveillance_watchlist_members`; `save_member` writes the period alone. -/
def Database.members (db : Database R) : Schema (MemberFields R) MemberColumns where
  storable member := nulFree member.watchlistId && nulFree member.portraitIdentityId &&
    db.storable member.rest
  columns member := do
    let validFrom ← db.nullable member.validFrom
    let validUntil ← db.nullable member.validUntil
    return ⟨member.watchlistId, member.portraitIdentityId, validFrom, validUntil⟩
  set old new := { old with validFrom := new.validFrom, validUntil := new.validUntil }
  check columns := decide (∀ a ∈ columns.validFrom, ∀ b ∈ columns.validUntil, a < b)
  clash a b := a.watchlistId = b.watchlistId && a.portraitIdentityId = b.portraitIdentityId

/-- The texts of a binding hold no NUL. -/
def storableBinding (binding : TaskBinding String) : Bool :=
  [binding.bindingId, binding.sourceId, binding.cameraId].all nulFree &&
    [binding.activeRunId, binding.streamSessionId, binding.lastError].all fun text =>
      text.all nulFree

/-- `scenara_surveillance_tasks`. -/
def Database.tasks (db : Database R) : Schema (TaskFields R) Unit where
  storable task := task.watchlistIds.all nulFree && task.bindings.all storableBinding &&
    db.storable task.rest
  columns _ := some ()
  set _ _ := ()
  check _ := true
  clash _ _ := false

/-- A row of `scenara_surveillance_task_bindings`. -/
structure BindingRow where
  taskId : String
  document : TaskBinding String

/-- `INSERT INTO scenara_surveillance_task_bindings`: the primary key has no task id. -/
def insertBinding (task : Key) (rows : Dict Key BindingRow) (binding : TaskBinding String) :
    Except DatabaseError (Dict Key BindingRow) :=
  let key := task.sibling binding.bindingId
  if !storableBinding binding then .error .dataError
  else if !idText binding.bindingId then .error .checkViolation
  else if (rows.get? key).isSome || rows.entries.any fun e => e.1.sameProject key &&
      e.2.taskId = task.id && e.2.document.sourceId = binding.sourceId &&
      e.2.document.cameraId = binding.cameraId then .error .uniqueViolation
  else .ok (rows.insert key ⟨task.id, binding⟩)

/-- The binding row is of the task. -/
def ofTask (task : Key) (key : Key) (row : BindingRow) : Bool :=
  key.sameProject task && row.taskId = task.id

/-- `_replace_bindings`. -/
def replaceBindings (rows : Dict Key BindingRow) (task : SurveillanceTask R) :
    Except DatabaseError (Dict Key BindingRow) :=
  task.fields.bindings.foldlM (insertBinding task.key)
    (rows.filter fun key row => !ofTask task.key key row)

/-! ## The Postgres repository -/

/-- The tables. -/
structure Postgres (R : Type) where
  watchlists : Dict Key (Row R Unit)
  members : Dict Key (Row (MemberFields R) MemberColumns)
  tasks : Dict Key (Row (TaskFields R) Unit)
  bindings : Dict Key BindingRow

/-- Nothing stored. -/
def Postgres.empty : Postgres R := ⟨.empty, .empty, .empty, .empty⟩

/-- A statement outside any handler. -/
def statement {α : Type} (x : Except DatabaseError α) : Except Error α := x.mapError .database

/-- `except Exception as exc: if exc.__class__.__name__ in {"UniqueViolation", ...}`. -/
def guarded {α : Type} (message : String) (x : Except DatabaseError α) : Except Error α :=
  x.mapError fun e => if e = .uniqueViolation then .surveillanceConflict message else .database e

/-- `if cursor.rowcount != 1`. -/
def hit {α : Type} (what : String) (x : Except DatabaseError (Option α)) : Except Error α := do
  match ← statement x with
  | none => .error (.surveillanceConflict (what ++ " revision conflict"))
  | some rows => .ok rows

/-- The rows that `keep` picks, `ORDER BY updated_at DESC, id ASC`. -/
def listRows (db : Database R) (keep : Key → Row F C → Bool) (rows : Dict Key (Row F C)) :
    List (Record F) :=
  ((rows.entries.filter fun e => keep e.1 e.2).insertionSort fun a b =>
    b.2.updatedAt < a.2.updatedAt ∨
      a.2.updatedAt = b.2.updatedAt ∧ db.collate a.1.id b.1.id = true).map fun e => e.2.document

namespace Postgres

variable (db : Database R)

/-- `create_watchlist`. -/
def createWatchlist (p : Postgres R) (watchlist : Watchlist R) :
    Except Error (Postgres R × Reply R) := do
  let watchlists ← guarded "watchlist already exists"
      (db.watchlists.insertRow db p.watchlists watchlist)
  return ({ p with watchlists }, .watchlist watchlist)

/-- `save_watchlist`. -/
def saveWatchlist (p : Postgres R) (watchlist : Watchlist R) (expectedRevision : ℤ) :
    Except Error (Postgres R × Reply R) := do
  let stored := watchlist.saved expectedRevision
  let watchlists ← hit "watchlist" (db.watchlists.updateRow db p.watchlists stored expectedRevision)
  return ({ p with watchlists }, .watchlist stored)

/-- A task of the project has the id among its `watchlist_ids`. -/
def used (p : Postgres R) (key : Key) : Bool :=
  p.tasks.entries.any fun e => e.1.sameProject key &&
  e.2.document.fields.watchlistIds.contains key.id

/-- The row is of the watchlist under `key`, by its columns. -/
def ofWatchlist (key : Key) (k : Key) (row : Row (MemberFields R) MemberColumns) : Bool :=
  k.sameProject key && row.columns.watchlistId = key.id

/-- `delete_watchlist`; the members go by `ON DELETE CASCADE`. -/
def deleteWatchlist (p : Postgres R) (key : Key) : Except Error (Postgres R × Reply R) :=
  if !key.bindable then .error (.database .dataError)
  else if p.used key then
    .error (.surveillanceConflict "watchlist is referenced by a surveillance task")
  else match p.watchlists.get? key with
    | none => .ok (p, .removed false)
    | some _ => .ok ({ p with
        watchlists := p.watchlists.erase key
        members := p.members.filter fun k row => !ofWatchlist key k row }, .removed true)

/-- `create_member`. -/
def createMember (p : Postgres R) (member : Member R) : Except Error (Postgres R × Reply R) := do
  let members ← guarded "portrait identity is already a member of this watchlist"
    (db.members.insertRow db p.members member)
  if (p.watchlists.get? (member.key.sibling member.fields.watchlistId)).isNone then
    .error (.database .foreignKeyViolation)
  else return ({ p with members }, .member member)

/-- `save_member`. -/
def saveMember (p : Postgres R) (member : Member R) (expectedRevision : ℤ) :
    Except Error (Postgres R × Reply R) := do
  let stored := member.saved expectedRevision
  let members ← hit "watchlist member" (db.members.updateRow db p.members stored expectedRevision)
  return ({ p with members }, .member stored)

/-- `delete_member`. -/
def deleteMember (p : Postgres R) (key : Key) : Except Error (Postgres R × Reply R) :=
  if !key.bindable then .error (.database .dataError)
  else .ok ({ p with members := p.members.erase key }, .removed (p.members.get? key).isSome)

/-- `create_task`. -/
def createTask (p : Postgres R) (task : SurveillanceTask R) : Except Error (Postgres R × Reply R) :=
  guarded "surveillance task already exists" do
    let tasks ← db.tasks.insertRow db p.tasks task
    let bindings ← replaceBindings p.bindings task
    return ({ p with tasks, bindings }, .task task)

/-- `save_task`. -/
def saveTask (p : Postgres R) (task : SurveillanceTask R) (expectedRevision : ℤ) :
    Except Error (Postgres R × Reply R) := do
  let stored := task.saved expectedRevision
  let tasks ← hit "surveillance task" (db.tasks.updateRow db p.tasks stored expectedRevision)
  let bindings ← statement (replaceBindings p.bindings stored)
  return ({ p with tasks, bindings }, .task stored)

/-- What a call returns, and the store after it. -/
def call (p : Postgres R) : Act R → Except Error (Postgres R × Reply R)
  | .createWatchlist watchlist => p.createWatchlist db watchlist
  | .saveWatchlist watchlist expectedRevision => p.saveWatchlist db watchlist expectedRevision
  | .deleteWatchlist key => p.deleteWatchlist key
  | .createMember member => p.createMember db member
  | .saveMember member expectedRevision => p.saveMember db member expectedRevision
  | .deleteMember key => p.deleteMember key
  | .createTask task => p.createTask db task
  | .saveTask task expectedRevision => p.saveTask db task expectedRevision

/-- `list_watchlists`. -/
def listWatchlists (p : Postgres R) (key : Key) : List (Watchlist R) :=
  listRows db (fun k _ => k.sameProject key) p.watchlists

/-- `list_members`. -/
def listMembers (p : Postgres R) (key : Key) : List (Member R) :=
  listRows db (ofWatchlist key) p.members

/-- `list_tasks`. -/
def listTasks (p : Postgres R) (key : Key) : List (SurveillanceTask R) :=
  listRows db (fun k _ => k.sameProject key) p.tasks

end Postgres

/-- The tables after a call; one that raises is rolled back. -/
def postgresStep (db : Database R) (p : Postgres R) (act : Act R) : Postgres R :=
  match p.call db act with
  | .ok (p', _) => p'
  | .error _ => p

/-! ## Both, call by call -/

/-- Both stores. -/
structure Both (R : Type) where
  memory : Memory R
  postgres : Postgres R

/-- Nothing stored in either. -/
def Both.empty : Both R := ⟨.empty, .empty⟩

/-- The service has checked the watchlists that the call names. -/
def Both.Referable (s : Both R) (act : Act R) : Prop :=
  ∀ k ∈ act.watchlists, (s.memory.watchlists.get? k).isSome ∧ (s.postgres.watchlists.get? k).isSome
  deriving Decidable

/-- The call comes to both. -/
def step (db : Database R) (s : Both R) (act : Act R) : Option (Both R) :=
  if s.Referable act then some ⟨memoryStep s.memory act, postgresStep db s.postgres act⟩ else none

end Scenara.Surveillance.Repositories
