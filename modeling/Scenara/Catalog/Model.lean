import Scenara.Pipeline.Model

/-!
# The two pipeline catalogs

Model of `register_pipeline_definition`, `transition_pipeline_definition` and
`list_pipeline_definitions` of `MemoryStateStore` (`infrastructure/memory_state.py`) and of
`PostgresCatalogMixin` (`infrastructure/postgres_state_catalog.py`), and of
`RunService.sync_pipeline_catalog`, `pipeline_definition` and `resolve_pipeline_ref`
(`platform/services.py`).

* The memory catalog is a dictionary of definitions. The Postgres catalog is the table
  `scenara_pipeline_versions` (`migrations/0001_initial.sql`): its primary key is the key of a
  dictionary of rows, and the unique index of the active versions is checked after every statement
  (`checked`). The time columns are left out, no statement reads them.
* JSON columns hold what was stored: a row's `definition` is a definition.
* A call that raises leaves its store as it was (`memoryStep`, `postgresStep`).
-/

namespace Scenara.Catalog

open Scenara.Core Pipeline

variable {V D : Type}

/-- A call of either catalog. -/
inductive Call (V : Type) where
  | register (pipeline : PipelineDefinition V)
  | transition (pipelineId version : String) (target : PipelineStatus)

/-! ## The memory catalog -/

/-- `MemoryStateStore._pipelines`. -/
abbrev Pipelines (V : Type) := Dict (String × String) (PipelineDefinition V)

/-- Retire the active definitions that `which` picks. -/
def retire (which : String × String → PipelineDefinition V → Bool) (c : Pipelines V) :
    Pipelines V :=
  c.mapVals fun k p => if which k p ∧ p.status = .active then { p with status := .retired } else p

section Memory

variable [DecidableEq D] (sha256 : PipelinePayload V → D)

/-- `MemoryStateStore.register_pipeline_definition`. -/
def registerPipelineDefinition (c : Pipelines V) (pipeline : PipelineDefinition V) :
    Except String (Pipelines V) :=
  match c.get? pipeline.key with
  | some existing =>
    if existing.definitionSha256 sha256 ≠ pipeline.definitionSha256 sha256 then
      if pipeline.status = .active then .ok (c.insert pipeline.key pipeline)
      else .error "pipeline version definition is immutable"
    else .ok c
  | none =>
    let others := if pipeline.status = .active then
        retire (fun k _ => k.1 = pipeline.pipelineId) c
      else c
    .ok (others.insert pipeline.key pipeline)

/-- `MemoryStateStore.transition_pipeline_definition`. -/
def transitionPipelineDefinition (c : Pipelines V) (pipelineId version : String)
    (target : PipelineStatus) : Except String (Pipelines V × PipelineDefinition V) :=
  match c.get? (pipelineId, version) with
  | none => .error "pipeline version does not exist"
  | some pipeline =>
    if target ∉ pipeline.status.allowed then
      .error ("invalid pipeline transition: " ++ pipeline.status.value ++ " -> " ++ target.value)
    else
      let others := if target = .active then retire (fun _ p => p.pipelineId = pipelineId) c else c
      let updated := { pipeline with status := target }
      .ok (others.insert (pipelineId, version) updated, updated)

/-- What a call returns, and the catalog after it. -/
def memoryCall (c : Pipelines V) :
    Call V → Except String (Pipelines V × Option (PipelineDefinition V))
  | .register pipeline => do
    let c' ← registerPipelineDefinition sha256 c pipeline
    .ok (c', none)
  | .transition pipelineId version target => do
    let (c', updated) ← transitionPipelineDefinition c pipelineId version target
    .ok (c', some updated)

/-- The catalog after a call; a call that raises leaves it as it was. -/
def memoryStep (c : Pipelines V) (call : Call V) : Option (Pipelines V) :=
  match memoryCall sha256 c call with
  | .ok (c', _) => some c'
  | .error _ => some c

end Memory

/-- Sorted by key; `le` is the order of the keys. -/
def sortedValues {W : Type} (le : String × String → String × String → Prop) [DecidableRel le]
    (entries : List ((String × String) × W)) : List W :=
  (entries.insertionSort fun e e' => le e.1 e'.1).map Prod.snd

/-- `sorted` compares tuples of strings by code points. -/
def KeyLe (k k' : String × String) : Prop := k.1 < k'.1 ∨ k.1 = k'.1 ∧ k.2 ≤ k'.2
  deriving Decidable

/-- `MemoryStateStore.list_pipeline_definitions`. -/
def listPipelineDefinitions (c : Pipelines V) : List (PipelineDefinition V) :=
  sortedValues KeyLe c.entries

/-! ## The Postgres catalog -/

/-- A row of `scenara_pipeline_versions`, without its key and its times. -/
structure Row (V D : Type) where
  domain : String
  status : PipelineStatus
  definition : PipelineDefinition V
  definitionSha256 : D

/-- `scenara_pipeline_versions`. -/
abbrev Table (V D : Type) := Dict (String × String) (Row V D)

/-- `scenara_one_active_pipeline_version`: unique (pipeline_id) where status = 'active'. -/
def OneActive (t : Table V D) : Prop :=
  ∀ e ∈ t.entries, ∀ e' ∈ t.entries,
    e.2.status = .active → e'.2.status = .active → e.1.1 = e'.1.1 → e.1 = e'.1

instance (t : Table V D) : Decidable (OneActive t) := by
  unfold OneActive
  infer_instance

/-- What a statement raises. -/
inductive DatabaseError where
  | uniqueViolation
  deriving DecidableEq

/-- The table after a statement, unless that breaks the unique index. -/
def checked (t : Table V D) : Except DatabaseError (Table V D) :=
  if OneActive t then .ok t else .error .uniqueViolation

/-- What the next statement does to one row. -/
def retiredRow (pipelineId : String) (k : String × String) (row : Row V D) : Row V D :=
  if k.1 = pipelineId ∧ row.status = .active then { row with status := .retired } else row

/-- `UPDATE ... SET status = 'retired' WHERE pipeline_id = %s AND status = 'active'`. -/
def retireRows (pipelineId : String) (t : Table V D) : Except DatabaseError (Table V D) :=
  checked (t.mapVals (retiredRow pipelineId))

/-- `INSERT`: the primary key and the unique index. -/
def insertRow (key : String × String) (row : Row V D) (t : Table V D) :
    Except DatabaseError (Table V D) :=
  if t.get? key ≠ none then .error .uniqueViolation else checked (t.insert key row)

/-- `UPDATE ... WHERE pipeline_id = %s AND version = %s`. -/
def updateRow (key : String × String) (set : Row V D → Row V D) (t : Table V D) :
    Except DatabaseError (Table V D) :=
  checked (t.mapVals fun k row => if k = key then set row else row)

/-- What a call of the Postgres catalog raises. -/
inductive PostgresError where
  | stateConflict (message : String)
  | database (error : DatabaseError)
  deriving DecidableEq

/-- A statement outside any handler. -/
def statement (x : Except DatabaseError (Table V D)) : Except PostgresError (Table V D) :=
  x.mapError .database

/-- `except Exception as exc: if exc.__class__.__name__ in {"UniqueViolation", ...}: raise
StateConflict(...)`. -/
def guarded (x : Except DatabaseError (Table V D)) : Except PostgresError (Table V D) :=
  x.mapError fun _ => .stateConflict "pipeline already has an active version"

section Postgres

variable [DecidableEq D] (sha256 : PipelinePayload V → D)

/-- `PostgresCatalogMixin.register_pipeline_definition`. -/
def registerRow (t : Table V D) (pipeline : PipelineDefinition V) :
    Except PostgresError (Table V D) :=
  match t.get? pipeline.key with
  | some row =>
    if row.definitionSha256 ≠ pipeline.definitionSha256 sha256 then
      if pipeline.status = .active then
        statement (updateRow pipeline.key (fun row => { row with
          definition := pipeline
          definitionSha256 := pipeline.definitionSha256 sha256
          domain := pipeline.domain }) t)
      else .error (.stateConflict "pipeline version definition is immutable")
    else .ok t
  | none => do
    let t ← if pipeline.status = .active then guarded (retireRows pipeline.pipelineId t) else .ok t
    guarded (insertRow pipeline.key
      ⟨pipeline.domain, pipeline.status, pipeline, pipeline.definitionSha256 sha256⟩ t)

/-- `PostgresCatalogMixin.transition_pipeline_definition`. -/
def transitionRow (t : Table V D) (pipelineId version : String) (target : PipelineStatus) :
    Except PostgresError (Table V D × PipelineDefinition V) :=
  match t.get? (pipelineId, version) with
  | none => .error (.stateConflict "pipeline version does not exist")
  | some row =>
    if target ∉ row.status.allowed then
      .error (.stateConflict
        ("invalid pipeline transition: " ++ row.status.value ++ " -> " ++ target.value))
    else do
      let t ← if target = .active then statement (retireRows pipelineId t) else .ok t
      let t ← statement (updateRow (pipelineId, version)
        (fun row => { row with status := target }) t)
      .ok (t, { row.definition with status := target })

/-- What a call returns, and the table after it. -/
def postgresCall (t : Table V D) :
    Call V → Except PostgresError (Table V D × Option (PipelineDefinition V))
  | .register pipeline => do
    let t' ← registerRow sha256 t pipeline
    .ok (t', none)
  | .transition pipelineId version target => do
    let (t', updated) ← transitionRow t pipelineId version target
    .ok (t', some updated)

/-- The table after a call; the transaction of a call that raises is rolled back. -/
def postgresStep (t : Table V D) (call : Call V) : Option (Table V D) :=
  match postgresCall sha256 t call with
  | .ok (t', _) => some t'
  | .error _ => some t

end Postgres

/-- `definition || jsonb_build_object('status', status)`. -/
def Row.merged (row : Row V D) :
    PipelineDefinition V := { row.definition with status := row.status }

/-- `PostgresCatalogMixin.list_pipeline_definitions`; `le` is the collation of the database. -/
def listRows (le : String × String → String × String → Prop) [DecidableRel le] (t : Table V D) :
    List (PipelineDefinition V) :=
  (sortedValues le t.entries).map Row.merged

/-! ## Resolving a pipeline -/

section Resolve

variable [DecidableEq D] (sha256 : PipelinePayload V → D)

/-- `RunService.sync_pipeline_catalog`: register the compiled pipelines, in order, up to the first
that is refused. -/
def syncPipelineCatalog (compiled : List (PipelineDefinition V)) (c : Pipelines V) :
    Except String (Pipelines V) :=
  compiled.foldlM (registerPipelineDefinition sha256) c

/-- `PipelineRegistry.pipeline(pipeline_id, version, active_only=False)`. -/
def compiledPipeline (compiled : List (PipelineDefinition V)) (pipelineId version : String) :
    Except String (PipelineDefinition V) :=
  match compiled.find? (·.key = (pipelineId, version)) with
  | none => .error ("pipeline not found: " ++ pipelineId ++ "@" ++ version)
  | some pipeline => .ok pipeline

/-- `RunService.pipeline_definition` with `active_only`. -/
def pipelineDefinition (compiled : List (PipelineDefinition V)) (c : Pipelines V)
    (pipelineId version : String) : Except String (PipelineDefinition V) := do
  let c ← syncPipelineCatalog sha256 compiled c
  match c.get? (pipelineId, version) with
  | none => .error ("pipeline not found: " ++ pipelineId ++ "@" ++ version)
  | some persisted =>
    let installed ← compiledPipeline compiled pipelineId version
    if installed.definitionSha256 sha256 ≠ persisted.definitionSha256 sha256 then
      .error "persisted pipeline does not match the installed implementation"
    else if persisted.status ≠ .active then
      .error ("pipeline is not active: " ++ pipelineId ++ "@" ++ version)
    else .ok persisted

/-- The active versions of the pipeline, as listed. -/
def activeVersions (c : Pipelines V) (pipelineId : String) : List (PipelineDefinition V) :=
  (listPipelineDefinitions c).filter fun p => p.pipelineId = pipelineId ∧ p.status = .active

/-- `RunService.resolve_pipeline_ref`: the version it resolves to. -/
def resolvePipelineRef (compiled : List (PipelineDefinition V)) (c : Pipelines V)
    (pipelineId : String) : Option String → Except String String
  | some version => do
    let _ ← pipelineDefinition sha256 compiled c pipelineId version
    .ok version
  | none => do
    let synced ← syncPipelineCatalog sha256 compiled c
    match activeVersions synced pipelineId with
    | [active] => do
      let _ ← pipelineDefinition sha256 compiled synced pipelineId active.version
      .ok active.version
    | _ => .error ("pipeline must have exactly one active version: " ++ pipelineId)

end Resolve

end Scenara.Catalog
