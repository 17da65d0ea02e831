import Scenara.Core.Dict
import Scenara.Core.Json
import Scenara.Run.Model
import Scenara.Webhook.Model

/-!
# The webhook outbox

Model of `append_event`, `enqueue_webhook_event`, `create_webhook_subscription` and
`delete_webhook_subscription`, as `MemoryStateStore` and `PostgresStateStore` do them.

* `Postgres`: the tables, each with its constraints. A call that violates one is rolled back. A
  `SELECT` returns its rows in any order (`Scan`).

The columns of a table that are read nowhere here are left out.
-/

namespace Scenara.Webhook.Outbox

open Scenara.Core
open Release (Scope)
open Run (RunStatus)

/-! ## Records -/

/-- `RunEvent`. -/
structure RunEvent where
  runId : String
  eventId : Nat
  eventType : String
  eventVersion : String
  occurredAt : Option String
  producer : String
  tenantId : Option String
  projectId : Option String
  requestId : Option String
  traceId : Option String
  status : RunStatus
  payload : Dict String Json
  createdAt : ℚ

/-- A field that may be `None`. -/
def optional : Option String → Json
  | some s => .str s
  | none => .null

/-- `event.model_dump(mode="json")`. -/
def RunEvent.modelDump (event : RunEvent) : Dict String Json where
  entries :=
    [("run_id", .str event.runId), ("event_id", .num event.eventId),
      ("event_type", .str event.eventType),
      ("event_version", .str event.eventVersion),
      ("occurred_at", optional event.occurredAt),
      ("producer", .str event.producer),
      ("tenant_id", optional event.tenantId),
      ("project_id", optional event.projectId),
      ("request_id", optional event.requestId),
      ("trace_id", optional event.traceId),
      ("status", .str event.status.value),
      ("payload", .obj event.payload.entries),
      ("created_at", .num event.createdAt)]
  nodup := by
    simp only [List.map_cons, List.map_nil]
    decide

/-- What is to be delivered: the arguments of `enqueue_webhook_event`. -/
structure WebhookEvent where
  scope : Scope
  eventId : String
  eventType : String
  payload : Dict String Json
  createdAt : ℚ

/-- `payload.setdefault(key, value)`. -/
def setdefault (key : String) (value : Json) (payload : Dict String Json) : Dict String Json :=
  if (payload.get? key).isSome then payload else payload.insert key value

/-- `envelope_payload`. -/
def WebhookEvent.envelope (e : WebhookEvent) : Dict String Json :=
  setdefault "event_version" (.str "1.0") <| setdefault "producer" (.str "scenara") <|
    setdefault "project_id" (.str e.scope.projectId) <|
      setdefault "tenant_id" (.str e.scope.tenantId) e.payload

/-- An enabled subscription of the tenant and project to the event type. -/
def WebhookEvent.listens (e : WebhookEvent) (endpoint : WebhookSubscription) : Bool :=
  endpoint.key.scope = e.scope ∧ endpoint.enabled ∧ e.eventType ∈ endpoint.eventTypes

/-- A `WebhookDeliveryRecord`, with the fields that are sent. -/
structure Delivery where
  /-- What `deliver_due` works with. -/
  record : WebhookDeliveryRecord
  eventId : String
  eventType : String
  payload : Json

/-- The key of a delivery. -/
def Delivery.key (d : Delivery) : Key := d.record.key

/-- The new delivery to a subscription. -/
def newDelivery (hex : String) (endpoint : WebhookSubscription) (e : WebhookEvent)
    (payload : Json) : Delivery :=
  ⟨Store.newDelivery ("whd_" ++ hex) endpoint e.createdAt, e.eventId, e.eventType, payload⟩

/-- The event as the run has it next. -/
def RunEvent.numbered (event : RunEvent) (n : Nat) : RunEvent := { event with eventId := n }

/-- What is delivered for a stored event. -/
def RunEvent.toDeliver (stored : RunEvent) (scope : Scope) : WebhookEvent where
  scope := scope
  eventId := stored.runId ++ ":" ++ toString stored.eventId
  eventType := stored.eventType
  payload := stored.modelDump
  createdAt := stored.createdAt

/-! ## Calls -/

/-- The calls. -/
inductive Call where
  | createWebhookSubscription (endpoint : WebhookSubscription)
  | deleteWebhookSubscription (k : Key)
  | appendEvent (scope : Scope) (event : RunEvent)
  | enqueueWebhookEvent (e : WebhookEvent)

/-- What a call returns. -/
inductive Reply where
  | created (endpoint : WebhookSubscription)
  | deleted (endpoint : Option WebhookSubscription)
  | appended (stored : RunEvent)
  | enqueued

/-! ## `MemoryStateStore` -/

/-- `MemoryStateStore`, as far as webhooks go. -/
structure Memory where
  subscriptions : Table Key WebhookSubscription WebhookSubscription.key
  /-- A list for every run. -/
  events : Dict Key (List RunEvent)
  deliveries : Table Key Delivery Delivery.key
  drawn : Nat

namespace Memory

variable (ids : Fresh String)

/-- One round of `_enqueue_webhook_event`. -/
def enqueueTo (e : WebhookEvent) (m : Memory) (endpoint : WebhookSubscription) : Memory :=
  if e.listens endpoint then
    { m with
      deliveries :=
        m.deliveries.put (newDelivery (ids.draw m.drawn) endpoint e (.obj e.envelope.entries))
      drawn := m.drawn + 1 }
  else m

/-- `_enqueue_webhook_event`. -/
def enqueue (e : WebhookEvent) (m : Memory) : Memory :=
  m.subscriptions.values.foldl (enqueueTo ids e) m

/-- `append_event`; `none` is a `StateConflict`. -/
def appendEvent (scope : Scope) (event : RunEvent) (m : Memory) : Option (Memory × RunEvent) := do
  let rows ← m.events.get? ⟨scope, event.runId⟩
  let stored := event.numbered (rows.length + 1)
  let m := { m with events := m.events.insert ⟨scope, event.runId⟩ (rows ++ [stored]) }
  return (m.enqueue ids (stored.toDeliver scope), stored)

/-- `create_webhook_subscription`; `none` is a `StateConflict`. -/
def createWebhookSubscription (endpoint : WebhookSubscription) (m : Memory) : Option Memory :=
  if (m.subscriptions.get? endpoint.key).isSome then none
  else some { m with subscriptions := m.subscriptions.put endpoint }

/-- `delete_webhook_subscription`. -/
def deleteWebhookSubscription (k : Key) (m : Memory) : Memory × Option WebhookSubscription :=
  ({ m with
      subscriptions := m.subscriptions.filter fun endpoint => endpoint.key ≠ k
      deliveries := m.deliveries.filter fun d => d.record.endpoint ≠ k },
    m.subscriptions.get? k)

/-- A call; `none` if it raises, and then nothing has changed. -/
def call (m : Memory) : Call → Option (Memory × Reply)
  | .createWebhookSubscription endpoint => do
    let m ← m.createWebhookSubscription endpoint
    return (m, .created endpoint)
  | .deleteWebhookSubscription k =>
    let (m, endpoint) := m.deleteWebhookSubscription k
    some (m, .deleted endpoint)
  | .appendEvent scope event => do
    let (m, stored) ← m.appendEvent ids scope event
    return (m, .appended stored)
  | .enqueueWebhookEvent e => some (m.enqueue ids e, .enqueued)

end Memory

/-! ## `PostgresStateStore` -/

/-- What the columns do with the values of a call. -/
structure Columns where
  /-- They take them (a `text` has no NUL, a time is within the range of `timestamptz`). -/
  take : Call → Bool
  /-- What a `jsonb` column keeps of a value. -/
  jsonb : Json → Json

/-- The order in which a `SELECT` returns its rows. -/
structure Scan where
  rows : List WebhookSubscription → List WebhookSubscription
  perm : ∀ l, (rows l).Perm l

/-- A row of `scenara_run_events`. -/
structure RunEventRow where
  run : Key
  eventId : Nat
  eventType : String
  status : RunStatus
  createdAt : ℚ
  payload : Json
  document : Json

/-- The row of an event. -/
def Columns.row (columns : Columns) (run : Key) (stored : RunEvent) : RunEventRow where
  run := run
  eventId := stored.eventId
  eventType := stored.eventType
  status := stored.status
  createdAt := stored.createdAt
  payload := columns.jsonb (.obj stored.payload.entries)
  document := columns.jsonb (.obj stored.modelDump.entries)

/-- The tables of webhooks. -/
structure Postgres where
  /-- `scenara_runs`, their keys. -/
  runs : List Key
  /-- `scenara_webhook_subscriptions`. -/
  subscriptions : List WebhookSubscription
  /-- `scenara_run_events`. -/
  runEvents : List RunEventRow
  /-- `scenara_webhook_deliveries`. -/
  deliveries : List Delivery
  drawn : Nat

namespace Postgres

/-- `INSERT INTO scenara_run_events`. -/
def insertRunEvent (row : RunEventRow) (p : Postgres) : Option Postgres :=
  -- PRIMARY KEY
  if p.runEvents.any fun other => other.run = row.run ∧ other.eventId = row.eventId then none
  -- FOREIGN KEY
  else if row.run ∉ p.runs then none
  else some { p with runEvents := p.runEvents ++ [row] }

/-- `INSERT INTO scenara_webhook_deliveries`. -/
def insertDelivery (d : Delivery) (p : Postgres) : Option Postgres :=
  -- PRIMARY KEY
  if p.deliveries.any fun other => other.key = d.key then none
  -- UNIQUE (tenant_id, project_id, endpoint_id, event_id)
  else if p.deliveries.any fun other =>
    other.record.endpoint = d.record.endpoint ∧ other.eventId = d.eventId then none
  -- FOREIGN KEY
  else if p.subscriptions.all fun endpoint => endpoint.key ≠ d.record.endpoint then none
  else some { p with deliveries := p.deliveries ++ [d] }

variable (ids : Fresh String) (columns : Columns) (scan : Scan)

/-- One round of the loop over the subscriptions. -/
def deliverTo (e : WebhookEvent) (payload : Dict String Json) (p : Postgres)
    (endpoint : WebhookSubscription) : Option Postgres := do
  let d := newDelivery (ids.draw p.drawn) endpoint e (columns.jsonb (.obj payload.entries))
  let p ← p.insertDelivery d
  return { p with drawn := p.drawn + 1 }

/-- The end of both methods: the subscriptions that listen, and the loop. -/
def deliver (e : WebhookEvent) (payload : Dict String Json) (p : Postgres) : Option Postgres :=
  (scan.rows (p.subscriptions.filter e.listens)).foldlM (deliverTo ids columns e payload) p

/-- `SELECT COALESCE(MAX(event_id), 0) + 1`. -/
def nextId (run : Key) (p : Postgres) : Nat :=
  ((p.runEvents.filter fun row => row.run = run).map RunEventRow.eventId).max?.getD 0 + 1

/-- `append_event`. -/
def appendEvent (scope : Scope) (event : RunEvent) (p : Postgres) :
    Option (Postgres × RunEvent) := do
  let stored := event.numbered (p.nextId ⟨scope, event.runId⟩)
  let p ← p.insertRunEvent (columns.row ⟨scope, event.runId⟩ stored)
  let p ← p.deliver ids columns scan (stored.toDeliver scope) stored.modelDump
  return (p, stored)

/-- `enqueue_webhook_event`. -/
def enqueueWebhookEvent (e : WebhookEvent) (p : Postgres) : Option Postgres :=
  p.deliver ids columns scan e e.envelope

/-- `create_webhook_subscription`; `none` is a `StateConflict`. -/
def createWebhookSubscription (endpoint : WebhookSubscription) (p : Postgres) : Option Postgres :=
  if p.subscriptions.any fun other => other.key = endpoint.key then none
  else some { p with subscriptions := p.subscriptions ++ [endpoint] }

/-- `delete_webhook_subscription`; the deliveries go by `ON DELETE CASCADE`. -/
def deleteWebhookSubscription (k : Key) (p : Postgres) : Postgres × Option WebhookSubscription :=
  let deleted := p.subscriptions.filter fun endpoint => endpoint.key = k
  ({ p with
      subscriptions := p.subscriptions.filter fun endpoint => endpoint.key ≠ k
      deliveries := p.deliveries.filter fun d =>
        deleted.all fun endpoint => endpoint.key ≠ d.record.endpoint },
    deleted.head?)

/-- A call, one transaction; `none` if it raises, and then nothing has changed. -/
def call (p : Postgres) (c : Call) : Option (Postgres × Reply) :=
  if columns.take c then
    match c with
    | .createWebhookSubscription endpoint => do
      let p ← p.createWebhookSubscription endpoint
      return (p, .created endpoint)
    | .deleteWebhookSubscription k =>
      let (p, endpoint) := p.deleteWebhookSubscription k
      some (p, .deleted endpoint)
    | .appendEvent scope event => do
      let (p, stored) ← p.appendEvent ids columns scan scope event
      return (p, .appended stored)
    | .enqueueWebhookEvent e => do
      let p ← p.enqueueWebhookEvent ids columns scan e
      return (p, .enqueued)
  else none

end Postgres

/-! ## Both stores -/

/-- Both stores. -/
structure Stores where
  memory : Memory
  postgres : Postgres

/-- Some runs without events, and nothing else. -/
def Stores.start (runs : List Key) (h : runs.Nodup) : Stores where
  memory := ⟨.empty, ⟨runs.map fun run => (run, []), by simpa [Function.comp_def] using h⟩,
    .empty, 0⟩
  postgres := ⟨runs, [], [], [], 0⟩

/-- A call, and the order in which PostgreSQL returns the subscriptions. -/
structure Act where
  call : Call
  scan : Scan

/-- The ids that each store draws, and the columns. -/
structure Setting where
  memoryIds : Fresh String
  postgresIds : Fresh String
  columns : Columns

/-- One call, made to both stores. -/
def step (setting : Setting) (x : Stores) (act : Act) : Option Stores :=
  some
    { memory := ((x.memory.call setting.memoryIds act.call).map Prod.fst).getD x.memory
      postgres := ((x.postgres.call setting.postgresIds setting.columns act.scan act.call).map
        Prod.fst).getD x.postgres }

end Scenara.Webhook.Outbox
