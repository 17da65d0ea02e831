import Mathlib.Data.Prod.Lex
import Scenara.Core.Transition
import Scenara.Release.Model

/-!
# Webhook deliveries

Model of `platform/webhook_service.py` (`WebhookService.deliver_due`) over the webhook methods of
the state stores.

* `Store.claimWebhookDeliveries`: the rows that are due, leased to one caller. What is `locked` is
  skipped: nothing by `MemoryStateStore`, and by `PostgresStateStore` the rows that another
  transaction holds (`FOR UPDATE SKIP LOCKED`).
* `step`: one call of the store by any worker, or somebody else's. The claims are counted; of each
  delivery it is kept which claim was the last, and under which one an outcome was recorded.

The event, its payload and the secret, which only the sender reads, are left out.
-/

namespace Scenara.Webhook

open Scenara.Core
open Release (Scope)

/-! ## Records -/

/-- `(tenant_id, project_id, id)`. -/
structure Key where
  scope : Scope
  id : String
  deriving DecidableEq

/-- `WebhookDeliveryRecord.status`. -/
inductive DeliveryStatus where
  | pending | delivering | delivered | deadLetter
  deriving DecidableEq

/-- `WebhookSubscription`. -/
structure WebhookSubscription where
  key : Key
  eventTypes : List String
  enabled : Bool

/-- `WebhookDeliveryRecord`. -/
structure WebhookDeliveryRecord where
  key : Key
  endpointId : String
  status : DeliveryStatus
  attempts : Nat
  nextAttemptAt : ℚ
  statusCode : Option Nat
  lastError : Option String
  createdAt : ℚ
  updatedAt : ℚ
  deliveredAt : Option ℚ

/-- Delivered, or given up. -/
def DeliveryStatus.Settled (status : DeliveryStatus) : Prop :=
  status = .delivered ∨ status = .deadLetter
  deriving Decidable

/-- `status in {"pending", "delivering"}`. -/
def DeliveryStatus.Open (status : DeliveryStatus) : Prop :=
  status = .pending ∨ status = .delivering
  deriving Decidable

theorem DeliveryStatus.open_iff (status : DeliveryStatus) : status.Open ↔ ¬status.Settled := by
  cases status <;> decide

namespace WebhookDeliveryRecord

/-- The subscription it is for. -/
def endpoint (d : WebhookDeliveryRecord) : Key := ⟨d.key.scope, d.endpointId⟩

/-- `(next_attempt_at, created_at, delivery_id)`, in order. -/
def before (d e : WebhookDeliveryRecord) : Prop :=
  toLex (d.nextAttemptAt, toLex (d.createdAt, d.key.id)) ≤
    toLex (e.nextAttemptAt, toLex (e.createdAt, e.key.id))
  deriving Decidable

/-- The copy of a claimed row. -/
def leased (d : WebhookDeliveryRecord) (now leaseUntil : ℚ) : WebhookDeliveryRecord :=
  { d with status := .delivering, nextAttemptAt := leaseUntil, updatedAt := now }

@[simp] theorem leased_attempts (d : WebhookDeliveryRecord) (now leaseUntil : ℚ) :
    (d.leased now leaseUntil).attempts = d.attempts := rfl

end WebhookDeliveryRecord

/-! ## The store -/

/-- The webhook tables of a state store; every delivery is stored under its own key. -/
structure Store where
  subscriptions : Dict Key WebhookSubscription
  deliveries : Dict Key WebhookDeliveryRecord
  keyed : ∀ {k d}, deliveries.get? k = some d → d.key = k
  drawn : Nat

namespace Store

/-- Nothing stored. -/
def empty : Store := ⟨.empty, .empty, by simp, 0⟩

/-- `self._webhook_deliveries[key] = delivery`. -/
def put (store : Store) (d : WebhookDeliveryRecord) : Store :=
  { store with
    deliveries := store.deliveries.insert d.key d
    keyed := by
      intro k r h
      rw [Dict.get?_insert] at h
      split at h
      · rename_i hk
        rw [hk, ← Option.some.inj h]
      · exact store.keyed h }

/-- The delivery of an event to a subscription. -/
def newDelivery (deliveryId : String) (endpoint : WebhookSubscription) (createdAt : ℚ) :
    WebhookDeliveryRecord where
  key := ⟨endpoint.key.scope, deliveryId⟩
  endpointId := endpoint.key.id
  status := .pending
  attempts := 0
  nextAttemptAt := createdAt
  statusCode := none
  lastError := none
  createdAt := createdAt
  updatedAt := createdAt
  deliveredAt := none

/-- `_enqueue_webhook_event`: a delivery for every enabled subscription to the event. -/
def enqueueWebhookEvent (ids : Fresh String) (scope : Scope) (eventType : String) (createdAt : ℚ)
    (store : Store) : Store :=
  store.subscriptions.values.foldl (fun store endpoint =>
    if endpoint.key.scope = scope ∧ endpoint.enabled ∧ eventType ∈ endpoint.eventTypes then
      { store.put (newDelivery (ids.draw store.drawn) endpoint createdAt) with
        drawn := store.drawn + 1 }
    else store) store

/-- `create_webhook_subscription`; a conflict changes nothing. -/
def createWebhookSubscription (store : Store) (endpoint : WebhookSubscription) : Store :=
  if (store.subscriptions.get? endpoint.key).isSome then store
  else { store with subscriptions := store.subscriptions.insert endpoint.key endpoint }

/-- `delete_webhook_subscription`: its deliveries go with it. -/
def deleteWebhookSubscription (store : Store) (k : Key) : Store :=
  { store with
    subscriptions := store.subscriptions.erase k
    deliveries := store.deliveries.filter fun _ d => d.endpoint ≠ k
    keyed := by
      intro a d h
      rw [Dict.get?_filter, Option.filter_eq_some_iff] at h
      exact store.keyed h.1 }

/-- The rows that are due and not locked, in order. -/
def due (store : Store) (now : ℚ) (locked : List Key) : List WebhookDeliveryRecord :=
  (store.deliveries.values.filter fun d =>
    d.status.Open ∧ d.nextAttemptAt ≤ now ∧ d.key ∉ locked).insertionSort
      WebhookDeliveryRecord.before

/-- The rows that `claim_webhook_deliveries` returns. -/
def claimed (store : Store) (now leaseUntil : ℚ) (limit : Nat) (locked : List Key) :
    List WebhookDeliveryRecord :=
  ((store.due now locked).take limit).map fun d => d.leased now leaseUntil

/-- `claim_webhook_deliveries`. -/
def claimWebhookDeliveries (store : Store) (now leaseUntil : ℚ) (limit : Nat) (locked : List Key) :
    Store :=
  (store.claimed now leaseUntil limit locked).foldl put store

/-- `save_webhook_delivery`; `none` is a `StateConflict`. -/
def saveWebhookDelivery (store : Store) (d : WebhookDeliveryRecord) : Option Store :=
  if (store.deliveries.get? d.key).isSome then some (store.put d) else none

end Store

/-! ## A worker -/

/-- Where `deliver_due` is with the row in hand. -/
inductive Phase where
  /-- About to `get_webhook_subscription`. -/
  | reading
  /-- About to save that the subscription is not available. -/
  | unavailable
  | sending
  | succeeded (statusCode : Nat)
  /-- About to save that it was not. -/
  | failed (error : String)
  | raised
  deriving DecidableEq

/-- A call of `deliver_due`. -/
structure Worker where
  claim : Nat
  /-- The rows not yet saved; the first one is in hand. -/
  rows : List WebhookDeliveryRecord
  phase : Phase
  delivered : Nat
  failed : Nat

/-- How `deliver` ends. -/
inductive Sent where
  | receipt (statusCode : Nat)
  /-- A `WebhookDeliveryError`, `OSError`, `RuntimeError` or `ValueError`. -/
  | error (message : String)
  | raised

/-- The refusal of a delivery that is gone. -/
def conflictMessage : String := "webhook delivery does not exist"

/-- The copy of the row that is saved next. -/
def copyToSave (row : WebhookDeliveryRecord) (retryFrom now : ℚ) :
    Phase → Option WebhookDeliveryRecord
  | .unavailable =>
    some { row with
      status := .deadLetter
      lastError := some "webhook subscription is unavailable"
      attempts := row.attempts + 1
      updatedAt := now }
  | .succeeded statusCode =>
    some { row with
      status := .delivered
      attempts := row.attempts + 1
      statusCode := some statusCode
      lastError := none
      updatedAt := now
      deliveredAt := some now }
  | .failed error =>
    some { row with
      status := if 8 ≤ row.attempts + 1 then .deadLetter else .pending
      attempts := row.attempts + 1
      nextAttemptAt := retryFrom + min 3600 (2 ^ (row.attempts + 1))
      lastError := some (String.ofList (error.toList.take 500))
      updatedAt := now }
  | .reading | .sending | .raised => none

namespace Worker

/-- On to the next row. -/
def next (w : Worker) : Worker := { w with rows := w.rows.tail, phase := .reading }

/-- After `save_webhook_delivery`, which may have raised a `StateConflict`. -/
def afterSave (w : Worker) (stored : Bool) : Worker :=
  match w.phase, stored with
  | .unavailable, _ | .failed _, true => { w.next with failed := w.failed + 1 }
  | .succeeded _, true => { w.next with delivered := w.delivered + 1 }
  | .succeeded _, false => { w with phase := .failed conflictMessage }
  | .failed _, false => { w with phase := .raised }
  | .reading, _ | .sending, _ | .raised, _ => w

/-- `get_webhook_subscription`, for the row in hand. -/
def read (w : Worker) (store : Store) : Option Worker :=
  match w.phase, w.rows with
  | .reading, row :: _ =>
    let available := (store.subscriptions.get? row.endpoint).any WebhookSubscription.enabled
    some { w with phase := if available then .sending else .unavailable }
  | _, _ => none

/-- The send ends. -/
def send (w : Worker) (sent : Sent) : Option Worker :=
  match w.phase, sent with
  | .sending, .receipt statusCode => some { w with phase := .succeeded statusCode }
  | .sending, .error message => some { w with phase := .failed message }
  | .sending, .raised => some { w with phase := .raised }
  | _, _ => none

end Worker

/-! ## The system -/

/-- The store and the calls of `deliver_due`. -/
structure System where
  store : Store
  workers : List Worker
  claims : Nat
  /-- The last claim of each delivery. -/
  lastClaim : Key → Nat
  /-- The claim under which the last outcome of each delivery was recorded. -/
  recorded : Key → Nat

/-- Nothing stored. -/
def System.empty : System := ⟨.empty, [], 0, fun _ => 0, fun _ => 0⟩

/-- One step. -/
inductive Act where
  | emit (scope : Scope) (eventType : String) (createdAt : ℚ)
  | subscribe (endpoint : WebhookSubscription)
  | unsubscribe (k : Key)
  /-- `deliver_due` is called and claims its rows. -/
  | claim (now leaseSeconds : ℚ) (limit : Nat) (locked : List Key)
  | read (i : Nat)
  | send (i : Nat) (sent : Sent)
  /-- A worker saves the outcome; `retry_at` counts from `retryFrom`. -/
  | save (i : Nat) (retryFrom now : ℚ)
  /-- A worker is lost, or the store raises. -/
  | abandon (i : Nat)

namespace System

/-- A new worker and its claim. -/
def claim (s : System) (now leaseSeconds : ℚ) (limit : Nat) (locked : List Key) : System :=
  let rows := s.store.claimed now (now + leaseSeconds) limit locked
  { s with
    store := s.store.claimWebhookDeliveries now (now + leaseSeconds) limit locked
    workers := s.workers ++ [⟨s.claims + 1, rows, .reading, 0, 0⟩]
    claims := s.claims + 1
    lastClaim := fun k => if k ∈ rows.map (·.key) then s.claims + 1 else s.lastClaim k }

/-- The outcome of the row in hand is saved. -/
def save (s : System) (i : Nat) (w : Worker) (copy : WebhookDeliveryRecord) : System :=
  match s.store.saveWebhookDelivery copy with
  | some store =>
    { s with
      store := store
      workers := s.workers.set i (w.afterSave true)
      recorded := fun k => if k = copy.key then w.claim else s.recorded k }
  | none => { s with workers := s.workers.set i (w.afterSave false) }

end System

/-- One step. -/
def step (ids : Fresh String) (s : System) : Act → Option System
  | .emit scope eventType createdAt =>
    some { s with store := s.store.enqueueWebhookEvent ids scope eventType createdAt }
  | .subscribe endpoint => some { s with store := s.store.createWebhookSubscription endpoint }
  | .unsubscribe k => some { s with store := s.store.deleteWebhookSubscription k }
  | .claim now leaseSeconds limit locked =>
    if 1 ≤ limit ∧ limit ≤ 1000 then some (s.claim now leaseSeconds limit locked) else none
  | .read i => do
    let w ← s.workers[i]?
    let w' ← w.read s.store
    return { s with workers := s.workers.set i w' }
  | .send i sent => do
    let w ← s.workers[i]?
    let w' ← w.send sent
    return { s with workers := s.workers.set i w' }
  | .save i retryFrom now => do
    let w ← s.workers[i]?
    let row ← w.rows.head?
    let copy ← copyToSave row retryFrom now w.phase
    return s.save i w copy
  | .abandon i => do
    let w ← s.workers[i]?
    return { s with workers := s.workers.set i { w with phase := .raised } }

end Scenara.Webhook
