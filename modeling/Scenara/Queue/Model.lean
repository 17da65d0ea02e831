import Scenara.Core.ConsumerGroup

/-!
# The run queue

Model of `RedisRunQueue` (`infrastructure/queue.py`): `enqueue`, `consume_forever`,
`_handle_message` and `_renew_lease`, on one of its two lanes. A lane is a stream with a consumer
group; enqueues of runs of the other lane do not touch it.

* `Consumer`: a process that runs `consume_forever`, at its next call; `Lease`: its lease task. The
  handler may return, raise or take any time; a process may die at any point, and an exception ends
  it too. An `XCLAIM` whose reply is under way when the handler returns has been cancelled.
* For the statements a state has, besides: the consumer that each entry was last delivered to
  (`holder`), the handler calls that returned, the acknowledgements, and the renewals.
-/

namespace Scenara.Queue

open Scenara.Core

/-- `RUN_STREAM_MAXLEN`. -/
def runStreamMaxlen : Nat := 100000

/-- `RunRecord`, as far as the queue reads it. -/
structure RunRecord where
  tenantId : String
  projectId : String
  runId : String
  priority : Int
  sourceId : Option String

/-- The fields of a message. -/
structure RunFields where
  tenantId : String
  projectId : String
  runId : String
  priority : String
  deriving DecidableEq

/-- `'stream' if run.source_id else 'batch'`. -/
def laneOf (run : RunRecord) : String :=
  match run.sourceId with
  | some source => if source = "" then "batch" else "stream"
  | none => "batch"

/-- The fields of an entry. -/
def fieldsOf (run : RunRecord) : RunFields :=
  ⟨run.tenantId, run.projectId, run.runId, toString run.priority⟩

/-! ## Consumers -/

/-- The task of `_renew_lease`. -/
inductive Lease where
  | sleeping (since : Nat)
  /-- `XCLAIM` has been executed; whether it has returned the id. -/
  | replied (renewed : Bool)
  /-- The task has raised. -/
  | lost
  deriving DecidableEq

/-- Where `consume_forever` is. -/
inductive Phase where
  /-- About to call `XAUTOCLAIM`. -/
  | claiming
  /-- About to call `XREADGROUP`. -/
  | reading
  | handling (entry : Entry RunFields) (lease : Lease)
  /-- About to call `XACK`. -/
  | acking (id : Nat)
  /-- It has raised, or the process is dead. -/
  | stopped
  deriving DecidableEq

/-- A consumer, and where it stands. -/
structure Consumer where
  name : String
  phase : Phase

/-! ## The lane -/

/-- An `XACK` that acknowledged an entry. -/
structure Acknowledgement where
  id : Nat
  consumer : Nat
  /-- Another consumer had taken the entry over. -/
  takenOver : Bool

/-- An `XCLAIM` of a lease task. -/
structure Renewal where
  id : Nat
  consumer : Nat
  takenOver : Bool
  renewed : Bool

/-- A lane and its consumers. -/
structure State where
  lane : Lane RunFields
  now : Nat
  consumers : List Consumer
  holder : Nat → Nat
  returned : List (Nat × Nat)
  acks : List Acknowledgement
  renewals : List Renewal

/-- What a consumer does next. -/
inductive Choice where
  /-- The command that the loop is at. -/
  | call
  /-- The lease task wakes up and calls `XCLAIM`. -/
  | renew
  /-- The lease task gets the reply. -/
  | reply
  | renewFails
  | returns
  | raises
  | dies
  deriving DecidableEq

/-- One step. -/
inductive Act where
  /-- `enqueue`, and how many entries the trim removes. -/
  | enqueue (run : RunRecord) (trimmed : Nat)
  | tick (milliseconds : Nat)
  /-- A process begins `consume_forever`. -/
  | start (name : String)
  | consumer (i : Nat) (choice : Choice)

/-- The entry was last delivered to another consumer. -/
def State.takenOver (x : State) (i id : Nat) : Bool := x.holder id ≠ i

/-- A consumer is elsewhere. -/
def State.put (x : State) (i : Nat) (c : Consumer) (phase : Phase) : State :=
  { x with consumers := x.consumers.set i { c with phase } }

/-- What `XAUTOCLAIM` or `XREADGROUP` returns is handled. -/
def State.delivered (x : State) (i : Nat) (c : Consumer) (otherwise : Phase) :
    Lane RunFields × Option (Entry RunFields) → State
  | (lane, some entry) =>
    { x with
      lane
      consumers := x.consumers.set i { c with phase := .handling entry (.sleeping x.now) }
      holder := fun id => if id = entry.id then i else x.holder id }
  | (lane, none) => { x.put i c otherwise with lane }

/-- `XCLAIM` of the lease task. -/
def State.renewed (x : State) (i : Nat) (c : Consumer) (entry : Entry RunFields) : State :=
  let (lane, renewed) := x.lane.xclaim c.name x.now entry.id
  { x.put i c (.handling entry (.replied renewed)) with
    lane
    renewals := x.renewals ++ [⟨entry.id, i, x.takenOver i entry.id, renewed⟩] }

/-- `XACK`. -/
def State.acknowledged (x : State) (i : Nat) (c : Consumer) (id : Nat) : State :=
  let (lane, acknowledged) := x.lane.xack id
  { x.put i c .claiming with
    lane
    acks := if acknowledged then x.acks ++ [⟨id, i, x.takenOver i id⟩] else x.acks }

/-- The end of the handler: a lease task that has raised makes `_handle_message` raise. -/
def State.handled (x : State) (i : Nat) (c : Consumer) (entry : Entry RunFields) (lease : Lease) :
    State :=
  { x.put i c (if lease = .lost then .stopped else .acking entry.id) with
    returned := x.returned ++ [(i, entry.id)] }

/-- `asyncio.sleep(max(0.001, self._visibility_timeout_ms / 3_000))` is over. -/
def renewalDue (timeout since now : Nat) : Bool := max 3 timeout ≤ 3 * (now - since)

/-- A step of a consumer. -/
def stepConsumer (timeout : Nat) (x : State) (i : Nat) (c : Consumer) (choice : Choice) :
    Option State :=
  match c.phase, choice with
  | .claiming, .call =>
    some (x.delivered i c .reading (x.lane.xautoclaim c.name timeout x.now))
  | .reading, .call => some (x.delivered i c .claiming (x.lane.xreadgroup c.name x.now))
  | .acking id, .call => some (x.acknowledged i c id)
  | .handling entry (.sleeping since), .renew =>
    if renewalDue timeout since x.now then some (x.renewed i c entry) else none
  | .handling entry (.replied renewed), .reply =>
    some (x.put i c (.handling entry (if renewed then .sleeping x.now else .lost)))
  | .handling entry _, .renewFails => some (x.put i c (.handling entry .lost))
  | .handling entry lease, .returns => some (x.handled i c entry lease)
  | .handling _ _, .raises => some (x.put i c .stopped)
  | _, .dies => some (x.put i c .stopped)
  | _, _ => none

/-- An approximate trim removes whole nodes of the oldest entries and leaves at least the cap. -/
def Trims (x : State) (trimmed : Nat) : Prop :=
  trimmed = 0 ∨ runStreamMaxlen + trimmed ≤ x.lane.entries.length + 1
  deriving Decidable

/-- One step. `visibility` is the `visibility_timeout_ms` that the queue was given. -/
def step (laneName : String) (visibility : Nat) (x : State) : Act → Option State
  | .enqueue run trimmed =>
    if laneOf run ≠ laneName then some x
    else if Trims x trimmed then some { x with lane := x.lane.xadd (fieldsOf run) trimmed }
    else none
  | .tick milliseconds => some { x with now := x.now + milliseconds }
  | .start name => some { x with consumers := x.consumers ++ [⟨name, .claiming⟩] }
  | .consumer i choice => (x.consumers[i]?).bind fun c =>
      stepConsumer (max 1 visibility) x i c choice

/-- An empty lane. -/
def init : State := ⟨Lane.empty, 0, [], fun _ => 0, [], [], []⟩

/-! ## At least once, and a lost lease is noticed -/

/-- The entries that were acknowledged. -/
def State.done (x : State) : List Nat := x.acks.map Acknowledgement.id

/-- **What the queue promises.** -/
structure Good (x : State) : Prop where
  /-- An entry is acknowledged by a consumer whose handler has returned and that still has it. -/
  acked : ∀ a ∈ x.acks, (a.consumer, a.id) ∈ x.returned ∧ a.takenOver = false
  /-- An entry that was not acknowledged can still be read or claimed. -/
  kept : Lane.Kept x.done x.lane
  /-- A renewal by a consumer that has lost the entry to another one is refused. -/
  noticed : ∀ r ∈ x.renewals, r.takenOver = true → r.renewed = false

/-- **The condition**: a trim removes only entries that were acknowledged, and no renewal and no
acknowledgement is executed while the entry is pending for another consumer. -/
def Lawful (laneName : String) (visibility : Nat) (x : State) : Act → Prop
  | .enqueue run trimmed => laneOf run = laneName → Trims x trimmed →
      ∀ e ∈ (x.lane.appended (fieldsOf run)).take trimmed, e.id ∈ x.done
  | .consumer i .renew => ∀ c entry since, x.consumers[i]? = some c →
      c.phase = .handling entry (.sleeping since) → renewalDue (max 1 visibility) since x.now →
      x.lane.isPending entry.id → x.holder entry.id = i
  | .consumer i .call => ∀ c id, x.consumers[i]? = some c → c.phase = .acking id →
      x.lane.isPending id → x.holder id = i
  | _ => True

end Scenara.Queue
