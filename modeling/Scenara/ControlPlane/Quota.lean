import Scenara.Core.Postgres

/-!
# Quotas

Model of `adjust_quota_usage` of `MemoryControlPlaneStore` and `PostgresControlPlaneStore`, for the
usage record of one key.

`allowed` are the increments that were allowed so far, in the order of their commits.
-/

namespace Scenara.ControlPlane.Quota

open Scenara.Core

/-- The document of a `quota_usage` record. -/
structure UsageDocument where
  used : Nat
  windowStartedAt : ℚ
  updatedAt : ℚ

/-- What a call adds, and when. -/
structure Increment where
  now : ℚ
  amount : Nat
  deriving DecidableEq

/-- `limit` and `window_seconds`. -/
structure Plan where
  limit : Option Int
  windowSeconds : ℚ

/-- `limit is None or next_used <= limit`. -/
def Plan.allows (plan : Plan) (nextUsed : Nat) : Bool :=
  match plan.limit with
  | none => true
  | some limit => nextUsed ≤ limit

/-- `started` and `used`. -/
def Plan.carried (plan : Plan) (existing : Option UsageDocument) (now : ℚ) : ℚ × Nat :=
  match existing with
  | none => (now, 0)
  | some existing =>
    if now < existing.windowStartedAt + plan.windowSeconds then
      (existing.windowStartedAt, existing.used)
    else (now, 0)

/-- The document that is returned, and whether the increment is allowed. -/
def Plan.adjust (plan : Plan) (existing : Option UsageDocument) (increment : Increment) :
    UsageDocument × Bool :=
  let (started, used) := plan.carried existing increment.now
  let nextUsed := used + increment.amount
  let allowed := plan.allows nextUsed
  (⟨if allowed then nextUsed else used, started, increment.now⟩, allowed)

/-- A record that was written under the limit, or none. -/
structure Initial (plan : Plan) where
  record : Option UsageDocument
  within : ∀ document ∈ record, plan.allows document.used = true

/-- What an initial record stands for. -/
def Initial.allowed {plan : Plan} (initial : Initial plan) : List Increment :=
  initial.record.toList.map fun document => ⟨document.windowStartedAt, document.used⟩

/-! ## `MemoryControlPlaneStore` -/

/-- The record of the key, and what was allowed. -/
structure Memory where
  record : Option UsageDocument
  allowed : List Increment

/-- Before the first call. -/
def Memory.start {plan : Plan} (initial : Initial plan) :
    Memory := ⟨initial.record, initial.allowed⟩

/-- `adjust_quota_usage`. -/
def Memory.adjustQuotaUsage (plan : Plan) (s : Memory) (increment : Increment) :
    Memory × UsageDocument × Bool :=
  let (document, allowed) := plan.adjust s.record increment
  (if allowed then ⟨some document, s.allowed ++ [increment]⟩ else s, document, allowed)

/-- One call. -/
def Memory.step (plan : Plan) (s : Memory) (increment : Increment) : Option Memory :=
  some (s.adjustQuotaUsage plan increment).1

/-! ## `PostgresControlPlaneStore` -/

/-- A transaction of `adjust_quota_usage`, at its next statement. -/
inductive Call where
  | begun (increment : Increment)
  | read (increment : Increment) (found : Option UsageDocument)
  | closing (increment : Increment) (found : Option UsageDocument) (document : UsageDocument)
      (allowed : Bool)
  | returned (document : UsageDocument) (allowed : Bool)
  | rolledBack

/-- The transaction is not over. -/
def Call.running : Call → Bool
  | .begun _ | .read _ _ | .closing _ _ _ _ => true
  | .returned _ _ | .rolledBack => false

/-- The next statement of transaction `i`; `none` if it waits, or is over. -/
def stepCall (plan : Plan) (i : Nat) (row : Row UsageDocument) :
    Call → Option (Row UsageDocument × Call)
  | .begun increment => do
    let (row, found) ← row.selectForUpdate i
    return (row, .read increment found)
  | .read increment found =>
    let (document, allowed) := plan.adjust found increment
    if allowed then do
      let row ← row.write i document
      return (row, .closing increment found document true)
    else some (row, .closing increment found document false)
  | .closing _ _ document allowed => some (row.commit i, .returned document allowed)
  | .returned _ _ | .rolledBack => none

/-- What the `COMMIT` of a call adds. -/
def Call.adds : Call → List Increment
  | .closing increment _ _ true => [increment]
  | _ => []

/-- The row of the key, the transactions, and what was allowed. -/
structure Postgres where
  row : Row UsageDocument
  calls : List Call
  allowed : List Increment

/-- Before the first call. -/
def Postgres.start {plan : Plan} (initial : Initial plan) : Postgres :=
  ⟨.stored initial.record, [], initial.allowed⟩

/-- One step. -/
inductive Act where
  | start (increment : Increment)
  | advance (i : Nat)
  | abort (i : Nat)

/-- One step. -/
def Postgres.step (plan : Plan) (s : Postgres) : Act → Option Postgres
  | .start increment => some { s with calls := s.calls ++ [.begun increment] }
  | .advance i => do
    let call ← s.calls[i]?
    let (row, call') ← stepCall plan i s.row call
    return ⟨row, s.calls.set i call', s.allowed ++ call.adds⟩
  | .abort i => do
    let call ← s.calls[i]?
    if call.running then
      some { s with row := s.row.abort i, calls := s.calls.set i .rolledBack }
    else none

end Scenara.ControlPlane.Quota
