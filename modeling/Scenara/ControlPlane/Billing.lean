import Scenara.ControlPlane.Model

/-!
# Billing

Model of `create_billing_account` and `record_meter_event`.
-/

namespace Scenara.ControlPlane.Billing

open Scenara.Core
open Release (Scope)

/-! ## Records -/

/-- `uuid4().hex`. -/
structure Hex where
  digits : String
  isHex : ∀ c ∈ digits.toList, c.isDigit = true ∨ c ∈ ['a', 'b', 'c', 'd', 'e', 'f']

/-- `MeterEvent.amount`. -/
structure Amount where
  units : Nat
  pos : 0 < units
  le : units ≤ 1000000000

/-- `DEFAULT_BILLING_PERIOD_SECONDS`. -/
def defaultBillingPeriodSeconds : ℚ := 2592000

/-- `BillingAccount`. -/
structure BillingAccount where
  key : Key
  planId : String
  currency : String
  status : String
  seatLimit : Nat
  periodStartedAt : ℚ
  periodEndsAt : ℚ
  createdAt : ℚ
  updatedAt : ℚ
  period : periodStartedAt < periodEndsAt

/-- `CreateBillingAccountRequest`. -/
structure CreateBillingAccountRequest where
  planId : String
  currency : String
  seatLimit : Nat
  periodSeconds : Nat
  ge : 86400 ≤ periodSeconds
  le : periodSeconds ≤ 31536000

/-- What is metered: a metric of an account. -/
structure Meter where
  scope : Scope
  accountId : String
  metric : String
  deriving DecidableEq

/-- The account that is metered. -/
def Meter.account (meter : Meter) : Key := ⟨meter.scope, meter.accountId⟩

/-- `usage_key`. -/
def Meter.usageKey (meter : Meter) : Key := ⟨meter.scope, meter.accountId ++ ":" ++ meter.metric⟩

/-- `MeterEvent`; the id of its key is its `idempotency_key`. -/
structure MeterEvent where
  key : Key
  accountId : String
  metric : String
  amount : Amount
  metadata : Dict String Json
  createdAt : ℚ

/-- What the event counts for. -/
def MeterEvent.meter (event : MeterEvent) :
    Meter := ⟨event.key.scope, event.accountId, event.metric⟩

/-- `RecordMeterEventRequest`. -/
structure RecordMeterEventRequest where
  accountId : String
  metric : String
  amount : Amount
  idempotencyKey : String
  metadata : Dict String Json

/-- `BillingUsage`. -/
structure BillingUsage where
  key : Key
  accountId : String
  metric : String
  amount : Nat
  periodStartedAt : ℚ
  periodEndsAt : ℚ
  updatedAt : ℚ
  period : periodStartedAt < periodEndsAt

/-! ## The store -/

/-- The tables of the control-plane store. -/
structure Store where
  accounts : Table Key BillingAccount BillingAccount.key
  events : Table Key MeterEvent MeterEvent.key
  usages : Table Key BillingUsage BillingUsage.key

/-- Nothing stored. -/
def Store.empty : Store := ⟨.empty, .empty, .empty⟩

/-- The account of `create_billing_account`. -/
def CreateBillingAccountRequest.account (body : CreateBillingAccountRequest) (scope : Scope)
    (id : Hex) (now : ℚ) : BillingAccount where
  key := ⟨scope, "billing_" ++ id.digits⟩
  planId := body.planId
  currency := body.currency
  status := "active"
  seatLimit := body.seatLimit
  periodStartedAt := now
  periodEndsAt := now + body.periodSeconds
  createdAt := now
  updatedAt := now
  period := by
    have h : (0 : ℚ) < body.periodSeconds := by
      exact_mod_cast Nat.lt_of_lt_of_le (by decide) body.ge
    simpa using h

/-- The meter of a request. -/
def RecordMeterEventRequest.meter (body : RecordMeterEventRequest) (scope : Scope) : Meter :=
  ⟨scope, body.accountId, body.metric⟩

/-- The event that a request is for. -/
def RecordMeterEventRequest.event (body : RecordMeterEventRequest) (scope : Scope) (now : ℚ) :
    MeterEvent where
  key := ⟨scope, body.idempotencyKey⟩
  accountId := body.accountId
  metric := body.metric
  amount := body.amount
  metadata := body.metadata
  createdAt := now

/-- The stored event is the one that the request is for. -/
def MeterEvent.matches (existing : MeterEvent) (body : RecordMeterEventRequest) : Bool :=
  existing.accountId = body.accountId && existing.metric = body.metric &&
    existing.amount.units = body.amount.units &&
    Json.eqv (.obj existing.metadata.entries) (.obj body.metadata.entries)

/-- `updated_usage`. -/
def BillingAccount.usage (account : BillingAccount) (usage : Option BillingUsage) (metric : String)
    (amount : Amount) (now : ℚ) : BillingUsage where
  key := ⟨account.key.scope, account.key.id ++ ":" ++ metric⟩
  accountId := account.key.id
  metric := metric
  amount :=
    (match usage with
      | some usage => if usage.periodEndsAt > now then usage.amount else 0
      | none => 0) + amount.units
  periodStartedAt := if now < account.periodEndsAt then account.periodStartedAt else now
  periodEndsAt :=
    if now < account.periodEndsAt then account.periodEndsAt else now + defaultBillingPeriodSeconds
  updatedAt := now
  period := by
    split
    · exact account.period
    · have h : (0 : ℚ) < defaultBillingPeriodSeconds := by decide +kernel
      simpa using h

/-! ## Calls -/

/-- The writes of `record_meter_event`. -/
inductive Write where
  | event | usage | audit
  deriving DecidableEq

/-- What an attempt raises. -/
inductive MeterError where
  | valueError (message : String)
  | storeError
  deriving DecidableEq

/-- `record_meter_event`, at one time of the clock; `fault` is the write that fails. -/
def recordMeterEvent (s : Store) (scope : Scope) (body : RecordMeterEventRequest) (now : ℚ)
    (fault : Option Write) : Store × Except MeterError MeterEvent :=
  match s.accounts.get? ⟨scope, body.accountId⟩ with
  | none => (s, .error (.valueError "billing account is unavailable"))
  | some account =>
    if account.status ≠ "active" then
      (s, .error (.valueError "billing account is unavailable"))
    else
      match s.events.get? ⟨scope, body.idempotencyKey⟩ with
      | some existing =>
        if existing.matches body then (s, .ok existing)
        else
          (s, .error (.valueError "meter idempotency key was already used with a different event"))
      | none =>
        let event := body.event scope now
        if fault = some .event then (s, .error .storeError)
        else
          let s := { s with events := s.events.put event }
          if fault = some .usage then (s, .error .storeError)
          else
            let usageKey := account.key.id ++ ":" ++ body.metric
            let usage := s.usages.get? ⟨scope, usageKey⟩
            let updatedUsage := account.usage usage body.metric body.amount now
            let s := { s with usages := s.usages.put updatedUsage }
            if fault = some .audit then (s, .error .storeError) else (s, .ok event)

/-- An attempt of a call. -/
structure Attempt where
  now : ℚ
  fault : Option Write

/-- A call, attempted until no write of it fails. -/
structure MeterCall where
  body : RecordMeterEventRequest
  failed : List Attempt
  now : ℚ

namespace MeterCall

/-- The attempts of a call, the last without a fault. -/
def attempts (call : MeterCall) : List Attempt := call.failed ++ [⟨call.now, none⟩]

/-- The attempt that stores the event, if it was not there. -/
def storing (call : MeterCall) : Attempt :=
  (call.failed.find? fun attempt => attempt.fault ≠ some .event).getD ⟨call.now, none⟩

end MeterCall

/-- The attempts of a call. -/
def recordAttempts (scope : Scope) (body : RecordMeterEventRequest) (s : Store) :
    List Attempt → Store
  | [] => s
  | attempt :: rest =>
    recordAttempts scope body (recordMeterEvent s scope body attempt.now attempt.fault).1 rest

/-- The store, and the time of the last call. -/
structure System where
  store : Store
  clock : ℚ

/-- Nothing stored, at a time. -/
def System.start (clock : ℚ) : System := ⟨.empty, clock⟩

/-- The calls. -/
inductive Act where
  | createBillingAccount (scope : Scope) (body : CreateBillingAccountRequest) (id : Hex) (now : ℚ)
  | recordMeterEvent (scope : Scope) (call : MeterCall)

/-- One call. -/
def step (s : System) : Act → Option System
  | .createBillingAccount scope body id now =>
    let account := body.account scope id now
    if s.clock ≤ now ∧ (s.store.accounts.get? account.key).isNone then
      some ⟨{ s.store with accounts := s.store.accounts.put account }, now⟩
    else none
  | .recordMeterEvent scope call =>
    if (s.clock :: call.attempts.map (·.now)).Pairwise (· ≤ ·) then
      some ⟨recordAttempts scope call.body s.store call.attempts, call.now⟩
    else none

end Scenara.ControlPlane.Billing
