import Scenara.Core.Postgres
import Scenara.Surveillance.Alerts

/-!
# Concurrent alerts

Model of `PostgresSurveillanceRepository.record_alert` (`infrastructure/postgres_surveillance.py`)
for the calls of one debounce key, one statement at a time under READ COMMITTED.

* `Act.deadlock`: a call that waits for itself through others is broken off.
* Alert ids are uuids: no two calls have the same. The tables of events and of the outbox, which
  nothing here reads, are left out but for the cursor of an event.
-/

namespace Scenara.Surveillance.Postgres

open Scenara.Core

/-! ## The tables -/

/-- The rows that the calls of one debounce key read and write. -/
structure Store where
  debounce : Row DebounceState
  /-- `scenara_surveillance_alerts`, by `alert_id`. -/
  alerts : String → Row AlertRecord
  /-- The alert ids by `idempotency_key`. -/
  index : String → Row String
  /-- The last `event_cursor`. -/
  cursor : Nat

namespace Store

/-- `COMMIT`. -/
def commit (store : Store) (i : Nat) : Store where
  debounce := store.debounce.commit i
  alerts id := (store.alerts id).commit i
  index key := (store.index key).commit i
  cursor := store.cursor

/-- `ROLLBACK`. -/
def abort (store : Store) (i : Nat) : Store where
  debounce := store.debounce.abort i
  alerts id := (store.alerts id).abort i
  index key := (store.index key).abort i
  cursor := store.cursor

/-- `SELECT document FROM scenara_surveillance_debounce ... FOR UPDATE`. -/
def selectDebounce (store : Store) (i : Nat) : Option (Store × Option DebounceState) := do
  let (row, found) ← store.debounce.selectForUpdate i
  return ({ store with debounce := row }, found)

/-- `UPDATE scenara_surveillance_debounce`, and the upsert. -/
def putDebounce (store : Store) (i : Nat) (debounce : DebounceState) : Option Store := do
  let row ← store.debounce.write i debounce
  return { store with debounce := row }

/-- `SELECT document FROM scenara_surveillance_alerts ... FOR UPDATE`. -/
def selectAlert (store : Store) (i : Nat) (alertId : String) :
    Option (Store × Option AlertRecord) := do
  let (row, found) ← (store.alerts alertId).selectForUpdate i
  return ({ store with alerts := Function.update store.alerts alertId row }, found)

/-- `UPDATE scenara_surveillance_alerts`. -/
def updateAlert (store : Store) (i : Nat) (alert : AlertRecord) : Option Store := do
  let row ← (store.alerts alert.alertId).write i alert
  return { store with alerts := Function.update store.alerts alert.alertId row }

/-- `SELECT ... WHERE idempotency_key = %s`. -/
def duplicate (store : Store) (i : Nat) (idempotencyKey : String) : Option AlertRecord := do
  let alertId ← (store.index idempotencyKey).visible i
  (store.alerts alertId).visible i

/-- `INSERT INTO scenara_surveillance_alerts`: it waits for an INSERT of the same key. -/
def insertAlert (store : Store) (i : Nat) (alert : AlertRecord) : Option (Except String Store) :=
  let entry := store.index alert.idempotencyKey
  if entry.heldByOther i then none
  else if (entry.visible i).isSome then some (.error "UniqueViolation")
  else do
    let entry ← entry.write i alert.alertId
    let row ← (store.alerts alert.alertId).write i alert
    return .ok
      { store with
        alerts := Function.update store.alerts alert.alertId row
        index := Function.update store.index alert.idempotencyKey entry }

end Store

/-! ## A call -/

/-- A candidate of `_evaluate_observation`: one observation, whose cooldown begins when it
triggers. -/
structure Hit where
  candidate : AlertCandidate
  cooldown : candidate.alert.triggeredAt < candidate.debounce.cooldownUntil
  single : candidate.alert.occurrenceCount = 1

/-- The alert of a hit. -/
def Hit.alert (hit : Hit) : AlertRecord := hit.candidate.alert

/-- Where a call of `record_alert` stands, with what it has found. -/
inductive Phase where
  | begun
  /-- In the cooldown of an alert. -/
  | cooling (current : DebounceState) (alertId : String)
  | folding (current : DebounceState) (existing : AlertRecord)
  | folded (current : DebounceState) (stored : AlertRecord)
  /-- Before the SELECT of a duplicate. -/
  | checking (found : Option DebounceState)
  | inserting (found : Option DebounceState)
  | upserting (found : Option DebounceState)
  | recording (found : Option DebounceState)
  /-- Before the COMMIT; `fold`: an observation was folded into the alert. -/
  | closing (found : Option DebounceState) (result : AlertWriteResult) (fold : Bool)
  | returned (result : AlertWriteResult)
  | raised (exception : String)

/-- `current.cooldown_until > alert.triggered_at and current.last_alert_id`. -/
def afterSelect (triggeredAt : ℚ) (found : Option DebounceState) : Phase :=
  match found with
  | none => .checking none
  | some current =>
    match current.lastAlertId with
    | none => .checking found
    | some alertId =>
      if current.cooldownUntil > triggeredAt ∧ alertId ≠ "" then .cooling current alertId
      else .checking found

/-- The next statement of call `i`; `none` if it waits, or is over. -/
def statement (hit : Hit) (i : Nat) (store : Store) : Phase → Option (Store × Phase)
  | .begun => do
    let (store, found) ← store.selectDebounce i
    return (store, afterSelect hit.alert.triggeredAt found)
  | .cooling current alertId => do
    let (store, existing) ← store.selectAlert i alertId
    match existing with
    | some existing => return (store, .folding current existing)
    | none => return (store, .checking (some current))
  | .folding current existing => do
    let stored := foldAlert existing hit.alert
    let store ← store.updateAlert i stored
    return (store, .folded current stored)
  | .folded current stored => do
    let store ← store.putDebounce i (foldDebounce current hit.alert)
    return (store, .closing (some current) ⟨stored, none, false⟩ true)
  | .checking found =>
    match store.duplicate i hit.alert.idempotencyKey with
    | some duplicate => some (store, .closing found ⟨duplicate, none, false⟩ false)
    | none => some (store, .inserting found)
  | .inserting found => do
    match ← store.insertAlert i hit.alert with
    | .ok store => return (store, .upserting found)
    | .error exception => return (store.abort i, .raised exception)
  | .upserting found => do
    let store ← store.putDebounce i
      { hit.candidate.debounce with lastAlertId := some hit.alert.alertId }
    return (store, .recording found)
  | .recording found =>
    let event := { hit.candidate.event with eventCursor := store.cursor + 1 }
    some ({ store with cursor := store.cursor + 1 },
      .closing found ⟨hit.alert, some event, true⟩ false)
  | .closing _ result _ => some (store.commit i, .returned result)
  | .returned _ | .raised _ => none

/-- The transaction that the next statement of call `i` waits for. -/
def waitsFor (hit : Hit) (i : Nat) (store : Store) : Phase → Option Nat
  | .begun => do
    let _ ← store.debounce.visible i
    store.debounce.holder i
  | .cooling _ alertId => do
    let _ ← (store.alerts alertId).visible i
    (store.alerts alertId).holder i
  | .folding _ existing => (store.alerts existing.alertId).holder i
  | .folded _ _ | .upserting _ => store.debounce.holder i
  | .inserting _ => (store.index hit.alert.idempotencyKey).holder i
  | .checking _ | .recording _ | .closing _ _ _ | .returned _ | .raised _ => none

/-! ## Calls at a time -/

/-- A `record_alert`, and where it stands. -/
structure Call where
  hit : Hit
  phase : Phase

/-- An alert that was emitted, and its cooldown. -/
structure Emission where
  alertId : String
  triggeredAt : ℚ
  cooldownUntil : ℚ
  deriving DecidableEq

/-- The time is in the cooldown. -/
def Emission.Covers (e : Emission) (t : ℚ) : Prop := e.triggeredAt ≤ t ∧ t < e.cooldownUntil
  deriving Decidable

/-- The emission of a hit. -/
def Hit.emission (hit : Hit) : Emission :=
  ⟨hit.alert.alertId, hit.alert.triggeredAt, hit.candidate.debounce.cooldownUntil⟩

/-- The emission of a COMMIT. -/
def Call.emits (call : Call) : List Emission :=
  match call.phase with
  | .closing _ ⟨_, _, true⟩ _ => [call.hit.emission]
  | _ => []

/-- The alert that a COMMIT folds its observation into. -/
def Call.folds (call : Call) : List String :=
  match call.phase with
  | .closing _ result true => [result.alert.alertId]
  | _ => []

/-- The tables, the calls, and what was emitted and folded so far, in the order of the COMMITs. -/
structure State where
  store : Store
  calls : List Call
  emitted : List Emission
  folds : List String

/-- Alerts that are stored and, maybe, the debounce row with the last of them. -/
structure Initial where
  stored : List AlertRecord
  record : Option (DebounceState × AlertRecord)
  last : ∀ r ∈ record, r.1.lastAlertId = some r.2.alertId ∧ r.2.alertId ≠ "" ∧
    stored.find? (fun alert => alert.alertId = r.2.alertId) = some r.2
  cooldown : ∀ r ∈ record, r.2.triggeredAt < r.1.cooldownUntil
  counted : ∀ r ∈ record, 0 < r.2.occurrenceCount

/-- The tables before the first call. -/
def Initial.store (initial : Initial) : Store where
  debounce := .stored (initial.record.map Prod.fst)
  alerts id := .stored (initial.stored.find? fun alert => alert.alertId = id)
  index key := .stored
    ((initial.stored.find? fun alert => alert.idempotencyKey = key).map AlertRecord.alertId)
  cursor := 0

/-- The observations that were folded before count as so many folds. -/
def State.start (initial : Initial) : State where
  store := initial.store
  calls := []
  emitted := initial.record.toList.map fun r =>
    ⟨r.2.alertId, r.2.triggeredAt, r.1.cooldownUntil⟩
  folds := initial.record.toList.flatMap fun r =>
    List.replicate (r.2.occurrenceCount - 1) r.2.alertId

/-- The call that call `i` waits for. -/
def State.waitsFor (s : State) (i : Nat) : Option Nat := do
  let call ← s.calls[i]?
  Postgres.waitsFor call.hit i s.store call.phase

/-- Call `i` waits for itself. -/
def State.deadlocked (s : State) (i : Nat) : Bool :=
  (List.range s.calls.length).any fun n => (fun o => o.bind s.waitsFor)^[n + 1] (some i) = some i

/-- No alert has the id. -/
def State.unused (s : State) (alertId : String) : Bool :=
  alertId ≠ "" && (s.store.alerts alertId).committed.isNone &&
    s.calls.all fun call => call.hit.alert.alertId ≠ alertId

/-- One step. -/
inductive Act where
  | start (hit : Hit)
  | advance (i : Nat)
  /-- A call that waits for itself is broken off. -/
  | deadlock (i : Nat)

/-- One step. -/
def step (s : State) : Act → Option State
  | .start hit =>
    if s.unused hit.alert.alertId then some { s with calls := s.calls ++ [⟨hit, .begun⟩] } else none
  | .advance i => do
    let call ← s.calls[i]?
    let (store, phase) ← statement call.hit i s.store call.phase
    return ⟨store, s.calls.set i ⟨call.hit, phase⟩, s.emitted ++ call.emits, s.folds ++ call.folds⟩
  | .deadlock i => do
    let call ← s.calls[i]?
    if s.deadlocked i then
      some { s with
        store := s.store.abort i
        calls := s.calls.set i ⟨call.hit, .raised "DeadlockDetected"⟩ }
    else none

end Scenara.Surveillance.Postgres
