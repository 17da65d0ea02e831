import Scenara.Core.Dict
import Scenara.Core.Postgres

/-!
# Licensed usage

Model of `EnterprisePolicyProvider.consume` over the two repositories of usage counters.

* `Repository.consumeUsage`: `MemoryEnterpriseRepository` and `PostgresEnterpriseRepository`, called
  one after another. `Request.upsert` is the meaning of the upsert for the row of its key.
* `Concurrent`: the transactions of `PostgresEnterpriseRepository`, one statement at a time. The
  upsert waits for whoever holds the row; a transaction may end without effect at any time.

An amount below zero does not get past `consume` and a limit below zero not past the validation of
the license, so both are natural numbers from there on.
-/

namespace Scenara.Enterprise

open Scenara.Core

/-- `(tenant_id, metric)`. -/
abbrev Key := String × String

/-- What `consume` raises. -/
inductive Raised where
  | valueError (text : String)
  | licenseError (text : String)
  | policyDenied (text : String)
  /-- The counter does not fit the column. -/
  | numericValueOutOfRange
  deriving DecidableEq

/-- The claims of the license that `consume` reads. -/
structure LicenseClaims where
  tenantIds : List String
  limits : Dict String Nat
  issuedAt : Int
  notBefore : Int
  expiresAt : Int

/-- A call of `consume`, and the time at which it is made. -/
structure Call where
  now : Int
  tenantId : String
  metric : String
  amount : Int

/-- The arguments of `consume_usage`. -/
structure Request where
  key : Key
  amount : Nat
  limit : Option Nat

/-- `validate_time`. -/
def LicenseClaims.validateTime (claims : LicenseClaims) (current : Int) : Except Raised Unit :=
  if claims.issuedAt > claims.notBefore ∨ claims.notBefore ≥ claims.expiresAt then
    .error (.licenseError "enterprise license time bounds are invalid")
  else if current < claims.notBefore then
    .error (.licenseError "enterprise license is not active yet")
  else if current ≥ claims.expiresAt then .error (.licenseError "enterprise license has expired")
  else .ok ()

/-- `consume`, up to the call of `consume_usage`. -/
def LicenseClaims.request (claims : LicenseClaims) (call : Call) : Except Raised Request :=
  if call.amount < 0 then .error (.valueError "usage amount must be non-negative")
  else do
    claims.validateTime call.now
    if call.tenantId ∉ claims.tenantIds then
      .error (.policyDenied "tenant is not covered by the enterprise license")
    else .ok ⟨(call.tenantId, call.metric), call.amount.toNat, claims.limits.get? call.metric⟩

namespace Request

/-- `limit is None or next_value <= limit`. -/
def admits (request : Request) (nextValue : Nat) : Bool :=
  match request.limit with
  | none => true
  | some limit => nextValue ≤ limit

/-- The refusal beyond a quota. -/
def quotaExceeded (request : Request) : Raised :=
  .policyDenied ("enterprise quota exceeded: " ++ request.key.2)

/-- The largest `bigint`. -/
def bigintMax : Nat := 2 ^ 63 - 1

/-- `INSERT ... ON CONFLICT (tenant_id, metric) DO UPDATE ... WHERE ... RETURNING used`, for the row
that is there: the inserted value has no `WHERE`. -/
def upsert (request : Request) : Option Nat → Except Raised (Option Nat)
  | none =>
    if bigintMax < request.amount then .error .numericValueOutOfRange else .ok (some request.amount)
  | some used =>
    if bigintMax < used + request.amount then .error .numericValueOutOfRange
    else if request.admits (used + request.amount) then .ok (some (used + request.amount))
    else .ok none

end Request

/-! ## One call after another -/

/-- The two repositories. -/
inductive Repository where
  | memory
  | postgres

/-- The counters. -/
abbrev Usage := Dict Key Nat

/-- What is used of a quota. -/
def Usage.used (usage : Usage) (key : Key) : Nat := (usage.get? key).getD 0

/-- `consume_usage`. -/
def Repository.consumeUsage (usage : Usage) (request : Request) :
    Repository → Usage × Except Raised Nat
  | .memory =>
    let nextValue := usage.used request.key + request.amount
    if ¬request.admits nextValue then (usage, .error request.quotaExceeded)
    else (usage.insert request.key nextValue, .ok nextValue)
  | .postgres =>
    match request.upsert (usage.get? request.key) with
    | .error raised => (usage, .error raised)
    | .ok none => (usage, .error request.quotaExceeded)
    | .ok (some used) => (usage.insert request.key used, .ok used)

/-- `consume`. -/
def LicenseClaims.consume (claims : LicenseClaims) (repository : Repository) (usage : Usage)
    (call : Call) : Usage × Except Raised Unit :=
  match claims.request call with
  | .error raised => (usage, .error raised)
  | .ok request =>
    let (usage, answer) := repository.consumeUsage usage request
    (usage, answer.map fun _ => ())

/-- A repository, and what its calls came to. -/
structure Ledger where
  usage : Usage
  answers : List (Call × Except Raised Unit)

/-- Nothing used. -/
def Ledger.empty : Ledger := ⟨.empty, []⟩

/-- One more call, and its answer. -/
def Ledger.consume (claims : LicenseClaims) (repository : Repository) (ledger : Ledger)
    (call : Call) : Ledger :=
  let (usage, answer) := claims.consume repository ledger.usage call
  ⟨usage, ledger.answers ++ [(call, answer)]⟩

/-- Both repositories, given the same calls. -/
structure Both where
  memory : Ledger
  postgres : Ledger

/-- Nothing used in either. -/
def Both.start : Both := ⟨.empty, .empty⟩

/-- The call comes to both. -/
def Both.step (claims : LicenseClaims) (s : Both) (call : Call) : Option Both :=
  some ⟨s.memory.consume claims .memory call, s.postgres.consume claims .postgres call⟩

/-! ## Concurrent calls -/

/-- A call of `PostgresEnterpriseRepository`, at its next statement. -/
inductive Phase where
  | begun (request : Request)
  /-- Before the end of the transaction: what the statement made of the row. -/
  | closing (request : Request) (outcome : Except Raised (Option Nat))
  | returned (answer : Except Raised Unit)
  | rolledBack

/-- The transaction is not over. -/
def Phase.running : Phase → Bool
  | .begun _ | .closing _ _ => true
  | .returned _ | .rolledBack => false

/-- What `consume_usage` makes of the row that the statement returned. -/
def Request.answer (request : Request) : Except Raised (Option Nat) → Except Raised Unit
  | .error raised => .error raised
  | .ok none => .error request.quotaExceeded
  | .ok (some _) => .ok ()

/-- The next statement of transaction `i`; `none` if it waits, or is over. -/
def stepPhase (i : Nat) (rows : Key → Row Nat) : Phase → Option ((Key → Row Nat) × Phase)
  | .begun request =>
    let row := rows request.key
    if row.heldByOther i then none
    else
      let outcome := request.upsert row.committed
      match outcome with
      | .error _ => some (rows, .closing request outcome)
      | .ok written =>
        some (Function.update rows request.key ⟨row.committed, some (i, written)⟩,
          .closing request outcome)
  | .closing request outcome =>
    match outcome with
    | .error _ => some (fun key => (rows key).abort i, .returned (request.answer outcome))
    | .ok _ => some (fun key => (rows key).commit i, .returned (request.answer outcome))
  | .returned _ | .rolledBack => none

/-- What the `COMMIT` of a call accepts. -/
def Phase.accepts : Phase → List (Key × Nat)
  | .closing request (.ok (some _)) => [(request.key, request.amount)]
  | _ => []

/-- The table, the calls, and what was accepted so far. -/
structure Concurrent where
  rows : Key → Row Nat
  phases : List Phase
  accepted : List (Key × Nat)

/-- Nothing used, no transaction. -/
def Concurrent.start : Concurrent := ⟨fun _ => .absent, [], []⟩

/-- What is committed of a quota. -/
def Concurrent.used (s : Concurrent) (key : Key) : Nat := (s.rows key).committed.getD 0

/-- One step. -/
inductive Act where
  | start (call : Call)
  | advance (i : Nat)
  | abort (i : Nat)

/-- One step. -/
def Concurrent.step (claims : LicenseClaims) (s : Concurrent) : Act → Option Concurrent
  | .start call =>
    match claims.request call with
    | .error raised => some { s with phases := s.phases ++ [.returned (.error raised)] }
    | .ok request => some { s with phases := s.phases ++ [.begun request] }
  | .advance i => do
    let phase ← s.phases[i]?
    let (rows, phase') ← stepPhase i s.rows phase
    return ⟨rows, s.phases.set i phase', s.accepted ++ phase.accepts⟩
  | .abort i => do
    let phase ← s.phases[i]?
    if phase.running then
      some { s with rows := fun key => (s.rows key).abort i, phases := s.phases.set i .rolledBack }
    else none

end Scenara.Enterprise
