import Scenara.ControlPlane.Model
import Scenara.Core.Transition

/-!
# The flow interpreter

Model of `ControlPlaneService.create_flow`, `execute_flow`, `_advance_flow_execution` and
`decide_flow_approval`, one call at a time.

* `walk`: the loop, up to the node it stops at. It raises where the loop does, with nothing stored.
  Fuel is the number of nodes: no node is met twice.

The store keeps documents, as `PostgresControlPlaneStore` does: what was read changes only by `put`.
-/

namespace Scenara.ControlPlane

open Scenara.Core
open Release (Scope)

/-! ## A turn of the loop -/

/-- `{"kind": ..., "status": "completed", "completed_at": now}`. -/
def completedEntry (node : FlowNode) (now : ℚ) : Json :=
  .obj [("kind", .str node.kind.value), ("status", .str "completed"), ("completed_at", .num now)]

/-- `context.setdefault("nodes", {})[node_id] = ...`. -/
def recordNode (node : FlowNode) (now : ℚ) (context : Context) :
    Except ControlPlaneError Context :=
  match (context.get? "nodes").getD (.obj []) with
  | .obj fields =>
    .ok (context.insert "nodes" (.obj (upsert node.nodeId (completedEntry node now) fields)))
  | _ => .error .typeError

/-- `context.update(output)`, when `output` is an object. -/
def mergeOutput (node : FlowNode) (context : Context) : Context :=
  match node.config.get? "output" with
  | some (.obj fields) => fields.foldl (fun context e => context.insert e.1 e.2) context
  | _ => context

/-- The intent of a delivery. -/
def webhookEntry (node : FlowNode) : Json :=
  .obj [("node_id", .str node.nodeId), ("target", (node.config.get? "target").getD .null),
    ("status", .str "queued")]

/-- `context.setdefault("webhooks", []).append(...)`, at a webhook node. -/
def queueWebhook (node : FlowNode) (context : Context) : Except ControlPlaneError Context :=
  if node.kind = .webhook then
    match (context.get? "webhooks").getD (.arr []) with
    | .arr items => .ok (context.insert "webhooks" (.arr (items ++ [webhookEntry node])))
    | _ => .error .typeError
  else .ok context

/-- What a turn does to the context. -/
def completeNode (node : FlowNode) (now : ℚ) (context : Context) :
    Except ControlPlaneError Context := do
  let context ← recordNode node now context
  queueWebhook node (mergeOutput node context)

/-- The node to go on with. -/
def nextNode (node : FlowNode) (context : Context) : Except ControlPlaneError (Option String) :=
  match node.kind, node.nextNodes with
  | .condition, first :: second :: _ =>
    match node.config.get? "field" with
    | some (.str field) =>
      let expected := (node.config.get? "equals").getD (.bool true)
      if ((context.get? field).getD .null).eqv expected then .ok (some first) else .ok (some second)
    | _ =>
      .error (.valueError ("condition node " ++ node.nodeId ++ " is missing a string field"))
  | _, nextNodes => .ok nextNodes.head?

/-! ## The loop -/

/-- `{node.node_id: node for node in flow.nodes}.get`: the last node of the id. -/
def FlowDefinition.lastNode (flow : FlowDefinition) (nodeId : String) : Option FlowNode :=
  flow.nodes.reverse.find? fun node => node.nodeId = nodeId

/-- `next(item for item in flow.nodes if ...)`: the first one. -/
def FlowDefinition.firstNode (flow : FlowDefinition) (nodeId : String) : Option FlowNode :=
  flow.nodes.find? fun node => node.nodeId = nodeId

/-- Where the loop ends. -/
inductive Stop where
  | approval (node : FlowNode) (execution : FlowExecution) (now : ℚ)
  /-- After a node without a next one. -/
  | completed (execution : FlowExecution)
  /-- There was no node to begin with. -/
  | nowhere (execution : FlowExecution)

/-- A walk that comes to a node again. -/
def runtimeCycle : ControlPlaneError := .valueError "flow contains a runtime cycle"

/-- An edge to no node. -/
def unknownNode : ControlPlaneError := .valueError "flow references an unknown node"

/-- The execution after a turn. -/
def FlowExecution.passed (execution : FlowExecution) (nodeId : String) (context : Context)
    (now : ℚ) : FlowExecution :=
  { execution with
    status := .running, currentNodeId := nodeId, context := context, updatedAt := now }

/-- The execution at an approval node. -/
def FlowExecution.waiting (execution : FlowExecution) (nodeId : String) (now : ℚ) : FlowExecution :=
  { execution with
    status := .waitingApproval, currentNodeId := nodeId, updatedAt := now, completedAt := none }

/-- The loop of `_advance_flow_execution`; `now` is the clock, turn by turn. -/
def walk (flow : FlowDefinition) (now : Nat → ℚ) :
    Nat → List String → FlowExecution → String → Except ControlPlaneError Stop
  | 0, _, _, _ => .error runtimeCycle
  | fuel + 1, visited, current, nodeId =>
    if nodeId = "" then .ok (.nowhere current)
    else if nodeId ∈ visited then .error runtimeCycle
    else match flow.lastNode nodeId with
      | none => .error unknownNode
      | some node =>
        let time := now visited.length
        if node.kind = .approval then .ok (.approval node (current.waiting nodeId time) time)
        else do
          let context ← completeNode node time current.context
          let next ← nextNode node context
          let current := current.passed nodeId context time
          match next with
          | none => .ok (.completed { current with status := .completed, completedAt := some time })
          | some next => walk flow now fuel (visited ++ [nodeId]) current next

/-! ## The store -/

/-- The flows, their executions and the approvals; ids are drawn one after another. -/
structure Store where
  flows : Table Key FlowDefinition FlowDefinition.key
  executions : Table Key FlowExecution FlowExecution.key
  approvals : Table Key FlowApproval FlowApproval.key
  drawn : Nat

namespace Store

/-- Nothing stored. -/
def empty : Store := ⟨.empty, .empty, .empty, 0⟩

/-- Store a flow. -/
def putFlow (store : Store) (flow : FlowDefinition) : Store :=
  { store with flows := store.flows.put flow }

/-- Store an execution. -/
def putExecution (store : Store) (execution : FlowExecution) : Store :=
  { store with executions := store.executions.put execution }

/-- Store an approval. -/
def putApproval (store : Store) (approval : FlowApproval) : Store :=
  { store with approvals := store.approvals.put approval }

/-- An id was drawn. -/
def draw (store : Store) : Store := { store with drawn := store.drawn + 1 }

end Store

/-! ## The calls -/

section Calls

variable (ids : Fresh String) (scope : Scope)

/-- `create_flow`. -/
def createFlow (body : CreateFlowRequest) (store : Store) : Except ControlPlaneError Store :=
  if entry : ∃ node ∈ body.nodes, node.nodeId = body.entryNodeId then
    if targets : ∀ node ∈ body.nodes, ∀ target ∈ node.nextNodes,
        ∃ m ∈ body.nodes, m.nodeId = target then
      let flow : FlowDefinition :=
        ⟨⟨scope, ids.draw store.drawn⟩, body.nodes, body.entryNodeId, entry, targets⟩
      .ok (store.putFlow flow).draw
    else .error unknownNode
  else .error (.valueError "flow entry node does not exist")

/-- The approval that an execution waits for. -/
def newApproval (approvalId : String) (execution : FlowExecution) (node : FlowNode) (now : ℚ) :
    FlowApproval where
  key := ⟨scope, approvalId⟩
  executionId := execution.key.id
  nodeId := node.nodeId
  status := .pending
  comment := ""
  decidedBy := none
  createdAt := now
  updatedAt := now

/-- `_advance_flow_execution`. -/
def advance (flow : FlowDefinition) (now : Nat → ℚ) (store : Store) (execution : FlowExecution)
    (nodeId : String) : Except ControlPlaneError Store := do
  match ← walk flow now (flow.nodes.length + 1) [] execution nodeId with
  | .approval node execution time =>
    let approval := newApproval scope (ids.draw store.drawn) execution node time
    return ((store.putApproval approval).putExecution execution).draw
  | .completed execution => return store.putExecution execution
  | .nowhere _ => return store

/-- A call that may raise, with the store it leaves. -/
abbrev Outcome := Store × Option ControlPlaneError

/-- The store where a call ends. -/
def outcome (store : Store) : Except ControlPlaneError Store → Outcome
  | .ok store' => (store', none)
  | .error error => (store, some error)

/-- The new execution. -/
def newExecution (executionId : String) (flow : FlowDefinition) (context : Context) (started : ℚ) :
    FlowExecution where
  key := ⟨scope, executionId⟩
  flowId := flow.key.id
  status := .running
  currentNodeId := flow.entryNodeId
  context := context
  createdAt := started
  updatedAt := started
  completedAt := none

/-- `execute_flow`. -/
def executeFlow (flowId : String) (context : Context) (started : ℚ) (now : Nat → ℚ)
    (store : Store) : Outcome :=
  match store.flows.get? ⟨scope, flowId⟩ with
  | none => (store, some (.valueError "flow not found"))
  | some flow =>
    let execution := newExecution scope (ids.draw store.drawn) flow context started
    let saved := (store.putExecution execution).draw
    outcome saved (advance ids scope flow now saved execution flow.entryNodeId)

/-- The execution after a decision that nothing follows. -/
def FlowExecution.settle (execution : FlowExecution) (approved : Bool) (now : ℚ) : FlowExecution :=
  { execution with
    status := if approved then .completed else .rejected
    updatedAt := now
    completedAt := some now }

/-- `decide_flow_approval`, once the decision is saved and the execution read. -/
def resume (approval : FlowApproval) (approved : Bool) (now : Nat → ℚ) (saved : Store)
    (execution : FlowExecution) : Outcome :=
  let settled := (saved.putExecution (execution.settle approved (now 0)), none)
  match approved, saved.flows.get? ⟨scope, execution.flowId⟩ with
  | true, some flow =>
    match flow.firstNode approval.nodeId with
    | none => (saved, some .runtimeError)
    | some node =>
      match node.nextNodes.head? with
      | none => settled
      | some next =>
        if next = "" then settled
        else
          outcome saved
            (advance ids scope flow now saved { execution with status := .running } next)
  | _, _ => settled

/-- `decide_flow_approval`. -/
def decideFlowApproval (approvalId : String) (approved : Bool) (comment principalId : String)
    (decidedAt : ℚ) (now : Nat → ℚ) (store : Store) : Outcome :=
  match store.approvals.get? ⟨scope, approvalId⟩ with
  | none => (store, some (.valueError "flow approval is unavailable"))
  | some approval =>
    if approval.status ≠ .pending then
      (store, some (.valueError "flow approval is unavailable"))
    else
      let saved := store.putApproval (approval.decide approved comment principalId decidedAt)
      match saved.executions.get? ⟨scope, approval.executionId⟩ with
      | none => (saved, none)
      | some execution => resume ids scope approval approved now saved execution

end Calls

/-! ## The system -/

/-- The calls. -/
inductive Act where
  | createFlow (scope : Scope) (body : CreateFlowRequest)
  | executeFlow (scope : Scope) (flowId : String) (context : Context) (started : ℚ) (now : Nat → ℚ)
  | decideFlowApproval (scope : Scope) (approvalId : String) (approved : Bool)
      (comment principalId : String) (decidedAt : ℚ) (now : Nat → ℚ)

/-- One call, whether it raises or not. -/
def step (ids : Fresh String) (store : Store) : Act → Option Store
  | .createFlow scope body =>
    match createFlow ids scope body store with
    | .ok store' => some store'
    | .error _ => some store
  | .executeFlow scope flowId context started now =>
    some (executeFlow ids scope flowId context started now store).1
  | .decideFlowApproval scope approvalId approved comment principalId decidedAt now =>
    some (decideFlowApproval ids scope approvalId approved comment principalId decidedAt now
      store).1

end Scenara.ControlPlane
