import Scenara.Core.Json
import Scenara.Core.Postgres
import Scenara.Creation.Model

/-!
# Submitting runs under one idempotency key

Model of `create_run` (`platform/services.py`) for the calls of one tenant, project and idempotency
key, over `create_run_idempotent` of both state stores.

* `Phase`: where a call stands. `MemoryStateStore` does `create_run_idempotent` in one step;
  `PostgresStateStore` does it statement by statement under READ COMMITTED. From then on the call is
  one of `Creation.Call`, whose backend calls are all made.

Calls that are turned away before `create_run_idempotent` touch no store and are left out. The
literals of the parameters' numbers are those that `model_dump_json` writes.
-/

namespace Scenara.Creation.Submission

open Scenara.Core
open Run (RunRecord)

/-! ## Requests -/

/-- `CreateRunRequest`. -/
structure CreateRunRequest where
  domain : String
  pipelineId : String
  version : String
  assetId : Option String
  sourceId : Option String
  parameters : Dict String Doc
  priority : ℤ
  waitMs : Nat

/-- Equal as values: the parameters are equal as JSON objects. -/
def CreateRunRequest.same (q q' : CreateRunRequest) : Bool :=
  q.domain = q'.domain && q.pipelineId = q'.pipelineId && q.version = q'.version &&
    q.assetId = q'.assetId && q.sourceId = q'.sourceId &&
    Doc.same (.obj q.parameters.entries) (.obj q'.parameters.entries) &&
    q.priority = q'.priority && q.waitMs = q'.waitMs

/-- What the calls depend on. -/
structure Setting where
  /-- The id that a call draws for its run. -/
  ids : RunIds
  /-- `sha256(request.model_dump_json())`. -/
  digest : CreateRunRequest → String
  /-- The kind of an asset is `STREAM`. -/
  assetIsStream : String → Bool
  /-- `self.stream_segment_duration_ms`. -/
  segmentDuration : Number
  idempotencyKey : String
  /-- The state store is a `PostgresStateStore`. -/
  postgres : Bool

namespace Setting

variable (setting : Setting)

/-- `media_kind == MediaKind.STREAM`. -/
def isStream (q : CreateRunRequest) : Bool :=
  match q.assetId with
  | some assetId => setting.assetIsStream assetId
  | none => true

/-- `effective_parameters`. -/
def effectiveParameters (q : CreateRunRequest) : Dict String Doc :=
  let parameters := q.parameters.erase "max_units"
  if setting.isStream q ∧ parameters.get? "stream_segment_duration_ms" = none then
    parameters.insert "stream_segment_duration_ms" (.num setting.segmentDuration)
  else parameters

/-- `effective_request`. -/
def effective (q : CreateRunRequest) : CreateRunRequest :=
  { q with parameters := setting.effectiveParameters q }

/-- `request_hash`. -/
def requestHash (q : CreateRunRequest) : String := setting.digest (setting.effective q)

/-- A column `jsonb` takes the parameters. -/
def storable (q : CreateRunRequest) : Bool :=
  bindable (Doc.obj (setting.effectiveParameters q).entries).texts

end Setting

/-! ## The stores -/

/-- What the row of the key holds: `request_hash` and `run_id`. -/
abbrev Entry := String × String

/-- What the calls share. -/
structure Shared where
  backend : Backend
  /-- Who holds the row of the key, and what it wrote. -/
  lock : Option (Nat × Option Entry)

/-- The row of the key in `scenara_idempotency_keys`. -/
def Shared.row (setting : Setting) (s : Shared) : Row Entry :=
  ⟨s.backend.idempotency.get? setting.idempotencyKey, s.lock⟩

/-! ## Calls -/

/-- Where a call stands. -/
inductive Phase where
  /-- About to `create_run_idempotent`; in PostgreSQL, to `SELECT ... FOR UPDATE`. -/
  | submitted
  /-- The `SELECT` found the row: about to compare the hash and to read the run. -/
  | replaying (entry : Entry)
  /-- It found none: about to insert the run. -/
  | inserting
  | keying (run : RunRecord)
  | closing (run : RunRecord)
  /-- After `create_run_idempotent`. -/
  | creating (call : Creation.Call)
  | raised (message : String)
  /-- An error of the database that is none of these. -/
  | rejected

/-- A call of `create_run`. -/
structure Call where
  request : CreateRunRequest
  streamSessionId : Option String
  phase : Phase

/-- The `RunRecord` of a call. -/
def Call.run (c : Call) (key hash : String) (now : ℚ) : RunRecord :=
  Request.run ⟨key, hash, now, c.request.sourceId, c.streamSessionId, c.request.waitMs ≠ 0⟩

/-- What a call knows of a run from then on. -/
def Call.held (c : Call) (runId : String) (stored : RunRecord) : Held :=
  ⟨runId, stored, c.request.waitMs ≠ 0⟩

/-- A call that has moved on. -/
def Call.to (c : Call) (phase : Phase) : Call := { c with phase := phase }

variable (setting : Setting)

/-- `MemoryStateStore.create_run_idempotent`, in call `i`. -/
def submitMemory (i : Nat) (now : ℚ) (s : Shared) (c : Call) : Shared × Call :=
  let hash := setting.requestHash c.request
  match createRunIdempotent s.backend (setting.ids.draw i) (c.run setting.idempotencyKey hash now)
      setting.idempotencyKey hash with
  | .ok (backend, runId, stored, true) =>
    ({ s with backend := backend }, c.to (.creating (.consume (c.held runId stored))))
  | .ok (backend, runId, stored, false) =>
    ({ s with backend := backend }, c.to (.creating (finish (c.held runId stored) false)))
  | .error message => (s, c.to (.raised message))

/-- `SELECT request_hash, run_id FROM scenara_idempotency_keys ... FOR UPDATE`. -/
def select (i : Nat) (s : Shared) (c : Call) : Option (Shared × Call) := do
  let (row, found) ← (s.row setting).selectForUpdate i
  match found with
  | some entry => return ({ s with lock := row.lock }, c.to (.replaying entry))
  | none => return ({ s with lock := row.lock }, c.to .inserting)

/-- The row of the key was there; the transaction ends. -/
def replay (i : Nat) (s : Shared) (c : Call) (entry : Entry) : Shared × Call :=
  let s := { s with lock := ((s.row setting).abort i).lock }
  if entry.1 ≠ setting.requestHash c.request then
    (s, c.to (.raised "idempotency key was already used for a different request"))
  else
    match s.backend.runs.get? entry.2 with
    | some stored => (s, c.to (.creating (finish (c.held entry.2 stored.run) false)))
    | none => (s, c.to (.raised "idempotent run is missing"))

/-- `INSERT INTO scenara_runs`: nobody else sees it before the commit. -/
def insertRun (i : Nat) (now : ℚ) (s : Shared) (c : Call) : Call :=
  if setting.storable c.request = false then c.to .rejected
  else if (s.backend.runs.get? (setting.ids.draw i)).isSome then c.to (.raised "run already exists")
  else c.to (.keying (c.run setting.idempotencyKey (setting.requestHash c.request) now))

/-- `INSERT INTO scenara_idempotency_keys`: a `UniqueViolation`, or it waits for an insert of the
same key. -/
def insertKey (i : Nat) (s : Shared) (c : Call) (run : RunRecord) : Option (Shared × Call) :=
  if (s.row setting).committed.isSome then some (s, c.to (.raised "run already exists"))
  else do
    let row ← (s.row setting).write i (setting.requestHash c.request, setting.ids.draw i)
    return ({ s with lock := row.lock }, c.to (.closing run))

/-- `COMMIT`. -/
def commit (i : Nat) (s : Shared) (c : Call) (run : RunRecord) : Shared × Call :=
  let row := (s.row setting).commit i
  let runId := setting.ids.draw i
  ({ backend :=
      { s.backend with
        runs := s.backend.runs.insert runId ⟨run, []⟩
        idempotency :=
          match row.committed with
          | some entry => s.backend.idempotency.insert setting.idempotencyKey entry
          | none => s.backend.idempotency }
     lock := row.lock }, c.to (.creating (.consume (c.held runId run))))

/-- The next step of call `i`; `none` if it waits, or is over. -/
def stepCall (i : Nat) (now : ℚ) (deadline : Bool) (s : Shared) (c : Call) :
    Option (Shared × Call) :=
  match c.phase with
  | .submitted =>
    if setting.postgres then select setting i s c else some (submitMemory setting i now s c)
  | .replaying entry => some (replay setting i s c entry)
  | .inserting => some (s, insertRun setting i now s c)
  | .keying run => insertKey setting i s c run
  | .closing run => some (commit setting i s c run)
  | .creating call =>
    (Creation.stepCall now s.backend call (if deadline then .deadline else .go)).map
      fun (backend, call') => ({ s with backend := backend }, c.to (.creating call'))
  | .raised _ | .rejected => none

/-! ## The system -/

/-- The calls of the key, and what they share. -/
structure System where
  shared : Shared
  calls : List Call
  /-- The call whose run was stored. -/
  first : Option Nat

/-- Nobody has called yet. -/
def System.empty : System := ⟨⟨.empty, none⟩, [], none⟩

/-- What happens next. -/
inductive Act where
  | submit (request : CreateRunRequest) (streamSessionId : Option String)
  /-- A call takes its next step; `deadline`: it is the last read of its `wait`. -/
  | advance (i : Nat) (now : ℚ) (deadline : Bool)

/-- The requests of a run. -/
def requests (acts : List Act) : List CreateRunRequest :=
  acts.filterMap fun
    | .submit request _ => some request
    | .advance .. => none

/-- A step at this phase has stored a run. -/
def Call.stored (c c' : Call) : Bool :=
  match c.phase, c'.phase with
  | .submitted, .creating (.consume _) | .closing _, _ => true
  | _, _ => false

/-- One step. -/
def step (x : System) : Act → Option System
  | .submit request streamSessionId =>
    some { x with calls := x.calls ++ [⟨request, streamSessionId, .submitted⟩] }
  | .advance i now deadline => do
    let c ← x.calls[i]?
    let (shared, c') ← stepCall setting i now deadline x.shared c
    return ⟨shared, x.calls.set i c', if c.stored c' then some i else x.first⟩

end Scenara.Creation.Submission
