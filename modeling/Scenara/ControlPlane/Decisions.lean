import Mathlib.Data.Prod.Lex
import Scenara.ControlPlane.Flow

/-!
# Decisions, call by call of the store

Model of `ControlPlaneService.decide_flow_approval`, `decide_project_lifecycle`, `decide_action` and
`execute_action` over a store whose `get` and `put` are the only atomic steps.

* `stepCall`: a step. Where the walk of an approved execution stops is left open (`Reading.stop`),
  so contexts play no part here.
* `Shared.log`: what was saved so far, a decision, an execution of an action, or an execution of a
  flow that went on after an approval; `movesOf` are those of one record, and their number is its
  version.
-/

namespace Scenara.ControlPlane

open Scenara.Core
open Release (Scope)

/-! ## What is decided -/

/-- A record that is decided. -/
inductive Subject where
  | approval (k : Key)
  | request (k : Key)
  | action (k : Key)
  deriving DecidableEq

/-- Where a record stands. -/
inductive Status where
  | pending | approved | rejected | executed | other
  deriving DecidableEq

/-- Where an approval stands. -/
def ApprovalStatus.standing : ApprovalStatus → Status
  | .pending => .pending
  | .approved => .approved
  | .rejected => .rejected

/-- Where an action stands. -/
def AgentActionStatus.standing : AgentActionStatus → Status
  | .pendingApproval => .pending
  | .approved => .approved
  | .rejected => .rejected
  | .executed => .executed
  | .proposed | .failed => .other

/-- What a call saves of a record. -/
inductive Move where
  | decided (approved : Bool)
  | executed
  deriving DecidableEq

/-- Where a move leads. -/
def Move.status : Move → Status
  | .decided true => .approved
  | .decided false => .rejected
  | .executed => .executed

/-- What is saved of a decision, or follows from it. -/
inductive Event where
  | move (subject : Subject) (move : Move)
  /-- The execution of an approval went on, or was completed. -/
  | advanced (approval : Key)

/-- The moves of one record, in order. -/
def movesOf (subject : Subject) (log : List Event) : List Move :=
  log.filterMap fun
    | .move subject' move => if subject' = subject then some move else none
    | .advanced _ => none

/-! ## The store -/

/-- The tables of the control-plane store. -/
structure Tables where
  approvals : Table Key FlowApproval FlowApproval.key
  requests : Table Key ProjectLifecycleRequest ProjectLifecycleRequest.key
  actions : Table Key AgentAction AgentAction.key
  tools : Table Key AgentTool AgentTool.key
  flows : Table Key FlowDefinition FlowDefinition.key
  executions : Table Key FlowExecution FlowExecution.key
  lifecycle : Table Key ResourceLifecycleRecord ResourceLifecycleRecord.key

/-- Where a record stands in the store. -/
def Tables.status (records : Tables) : Subject → Option Status
  | .approval k => (records.approvals.get? k).map (·.status.standing)
  | .request k => (records.requests.get? k).map (·.status.standing)
  | .action k => (records.actions.get? k).map (·.status.standing)

/-- `(updated_at, record_id)`, the greatest first. -/
def ProjectLifecycleRequest.newer (a b : ProjectLifecycleRequest) : Prop :=
  toLex (b.updatedAt, b.key.id) ≤ toLex (a.updatedAt, a.key.id)
  deriving Decidable

/-- `store.list` of a tenant, then the first one of the id. -/
def Tables.findRequest (records : Tables) (tenantId requestId : String) :
    Option ProjectLifecycleRequest :=
  ((records.requests.values.filter fun r => r.key.scope.tenantId = tenantId).insertionSort
    ProjectLifecycleRequest.newer).find? fun r => r.key.id = requestId

/-- The store, with what was saved so far, and where each record stood at first. -/
structure Shared where
  records : Tables
  log : List Event
  origin : Subject → Option Status

/-- How often the record was saved. -/
def Shared.version (s : Shared) (subject : Subject) : Nat := (movesOf subject s.log).length

/-! ## The calls -/

/-- `DecideApprovalRequest` and its like, with the principal. -/
structure Decision where
  approved : Bool
  comment : String
  principalId : String

/-- A call, at its next step; what it read of a record comes with the version it read. -/
inductive Call where
  /-- `decide_flow_approval`. -/
  | readApproval (scope : Scope) (approvalId : String) (body : Decision)
  | saveApproval (approval : FlowApproval) (version : Nat) (body : Decision)
  | readExecution (approval : FlowApproval) (body : Decision)
  | readFlow (approval : FlowApproval) (body : Decision) (execution : FlowExecution)
  /-- Nothing follows: the execution ends. -/
  | settle (approval : FlowApproval) (body : Decision) (execution : FlowExecution)
  /-- In `_advance_flow_execution`. -/
  | walk (approval : FlowApproval)
  | saveExecution (approval : FlowApproval) (execution : FlowExecution)
  /-- `decide_project_lifecycle`. -/
  | readRequest (scope : Scope) (requestId : String) (body : Decision)
  | listRequests (scope : Scope) (requestId : String) (body : Decision)
  | saveRequest (request : ProjectLifecycleRequest) (version : Nat) (body : Decision)
  | readLifecycle (request : ProjectLifecycleRequest) (body : Decision)
  | saveLifecycle (record : ResourceLifecycleRecord)
  /-- `decide_action`. -/
  | readAction (scope : Scope) (actionId : String) (body : Decision)
  | saveAction (action : AgentAction) (version : Nat) (body : Decision)
  /-- `execute_action`. -/
  | readApproved (scope : Scope) (actionId : String) (scopes : List String)
  | readTool (action : AgentAction) (version : Nat) (scopes : List String)
  | saveExecuted (action : AgentAction) (version : Nat) (tool : AgentTool)
  | returned
  | raised (error : ControlPlaneError)

/-- What a step finds out: the time, a new id, and where a walk stops unless it raises. -/
structure Reading where
  now : ℚ
  newId : String
  stop : Option Stop

/-- A record is not there. -/
def unavailable (what : String) : Call := .raised (.valueError (what ++ " is unavailable"))

namespace Shared

/-- A `put` that decides, or executes. -/
def move (s : Shared) (records : Tables) (subject : Subject) (move : Move) : Shared :=
  { s with records := records, log := s.log ++ [.move subject move] }

/-- A `put` of the execution of an approved approval. -/
def advance (s : Shared) (approval : Key) (execution : FlowExecution) : Shared :=
  { s with
    records := { s.records with executions := s.records.executions.put execution }
    log := s.log ++ [.advanced approval] }

/-- The `put` of a new approval. -/
def openApproval (s : Shared) (after : Key) (approval : FlowApproval) : Shared where
  records := { s.records with approvals := s.records.approvals.put approval }
  log := s.log ++ [.advanced after]
  origin := fun subject =>
    if subject = .approval approval.key then some approval.status.standing else s.origin subject

end Shared

/-- `decide_project_lifecycle`, once the request is read. -/
def foundRequest (s : Shared) (request : Option ProjectLifecycleRequest) (body : Decision) : Call :=
  match request with
  | some request =>
    if request.status = .pending then
      .saveRequest request (s.version (.request request.key)) body
    else unavailable "project lifecycle request"
  | none => unavailable "project lifecycle request"

/-- `decide_flow_approval`, once the flow is read. -/
def foundFlow (flow : Option FlowDefinition) (approval : FlowApproval) (body : Decision)
    (execution : FlowExecution) : Call :=
  match body.approved, flow with
  | true, some flow =>
    match flow.firstNode approval.nodeId with
    | none => .raised .runtimeError
    | some node =>
      match node.nextNodes.head? with
      | none => .settle approval body execution
      | some next => if next = "" then .settle approval body execution else .walk approval
  | _, _ => .settle approval body execution

/-- The record that `lifecycle` saves for a project. -/
def lifecycleRecord (request : ProjectLifecycleRequest) (status : LifecycleStatus)
    (principalId : String) (current : Option ResourceLifecycleRecord) (now : ℚ) :
    ResourceLifecycleRecord where
  key := ⟨request.key.scope, "project:" ++ request.key.scope.projectId⟩
  resourceType := "project"
  resourceId := request.key.scope.projectId
  status := status
  reason := request.reason
  updatedBy := principalId
  createdAt := (current.map (·.createdAt)).getD now
  updatedAt := now
  deletedAt := if status = .deleted then some now else none

/-- `execute_action`, once the tool is read. -/
def foundTool (tool : Option AgentTool) (action : AgentAction) (version : Nat)
    (scopes : List String) : Call :=
  match tool with
  | some tool =>
    if ¬tool.enabled then unavailable "agent tool"
    else if scopes ≠ [] ∧ "*" ∉ scopes ∧ ¬tool.scopes ⊆ scopes then
      .raised (.policyDenied "agent tool scope exceeds the caller's granted scopes")
    else .saveExecuted action version tool
  | none => unavailable "agent tool"

/-- The next step of a call; `inputHash` is the hash of the input of an action. -/
def stepCall (inputHash : Dict String Json → String) (r : Reading) (s : Shared) :
    Call → Option (Shared × Call)
  | .readApproval scope approvalId body =>
    match s.records.approvals.get? ⟨scope, approvalId⟩ with
    | some approval =>
      if approval.status = .pending then
        some (s, .saveApproval approval (s.version (.approval approval.key)) body)
      else some (s, unavailable "flow approval")
    | none => some (s, unavailable "flow approval")
  | .saveApproval approval _ body =>
    let decided := approval.decide body.approved body.comment body.principalId r.now
    some (s.move { s.records with approvals := s.records.approvals.put decided }
      (.approval approval.key) (.decided body.approved), .readExecution approval body)
  | .readExecution approval body =>
    match s.records.executions.get? approval.execution with
    | some execution => some (s, .readFlow approval body execution)
    | none => some (s, .returned)
  | .readFlow approval body execution =>
    let flow := s.records.flows.get? ⟨approval.key.scope, execution.flowId⟩
    some (s, foundFlow flow approval body execution)
  | .settle approval body execution =>
    let settled := execution.settle body.approved r.now
    if body.approved then some (s.advance approval.key settled, .returned)
    else
      some ({ s with
        records := { s.records with executions := s.records.executions.put settled } }, .returned)
  | .walk approval =>
    match r.stop with
    | some (.approval node execution time) =>
      let opened := newApproval approval.key.scope r.newId execution node time
      if (s.records.approvals.get? opened.key).isSome then none
      else some (s.openApproval approval.key opened, .saveExecution approval execution)
    | some (.completed execution) => some (s.advance approval.key execution, .returned)
    | some (.nowhere _) => some (s, .returned)
    | none => some (s, .raised runtimeCycle)
  | .saveExecution approval execution => some (s.advance approval.key execution, .returned)
  | .readRequest scope requestId body =>
    match s.records.requests.get? ⟨scope, requestId⟩ with
    | some request => some (s, foundRequest s (some request) body)
    | none => some (s, .listRequests scope requestId body)
  | .listRequests scope requestId body =>
    some (s, foundRequest s (s.records.findRequest scope.tenantId requestId) body)
  | .saveRequest request _ body =>
    let decided := request.decide body.approved body.comment body.principalId r.now
    some (s.move { s.records with requests := s.records.requests.put decided }
      (.request request.key) (.decided body.approved),
      if body.approved then .readLifecycle request body else .returned)
  | .readLifecycle request body =>
    match LifecycleStatus.ofAction request.action with
    | some status =>
      let k : Key := ⟨request.key.scope, "project:" ++ request.key.scope.projectId⟩
      let current := s.records.lifecycle.get? k
      some (s, .saveLifecycle (lifecycleRecord request status body.principalId current r.now))
    | none => some (s, .raised (.valueError "unsupported lifecycle action"))
  | .saveLifecycle record =>
    some ({ s with records := { s.records with lifecycle := s.records.lifecycle.put record } },
      .returned)
  | .readAction scope actionId body =>
    match s.records.actions.get? ⟨scope, actionId⟩ with
    | some action =>
      if action.status = .pendingApproval then
        some (s, .saveAction action (s.version (.action action.key)) body)
      else some (s, unavailable "agent action")
    | none => some (s, unavailable "agent action")
  | .saveAction action _ body =>
    let decided := action.decide body.approved body.comment r.now
    some (s.move { s.records with actions := s.records.actions.put decided }
      (.action action.key) (.decided body.approved), .returned)
  | .readApproved scope actionId scopes =>
    match s.records.actions.get? ⟨scope, actionId⟩ with
    | some action =>
      if action.status = .approved then
        some (s, .readTool action (s.version (.action action.key)) scopes)
      else some (s, .raised (.valueError "agent action must be approved before execution"))
    | none => some (s, .raised (.valueError "agent action must be approved before execution"))
  | .readTool action version scopes =>
    some (s, foundTool (s.records.tools.get? ⟨action.key.scope, action.toolId⟩) action version
      scopes)
  | .saveExecuted action _ tool =>
    let executed := action.execute tool (inputHash action.input) r.now
    some (s.move { s.records with actions := s.records.actions.put executed }
      (.action action.key) .executed, .returned)
  | .returned | .raised _ => none

/-! ## The system -/

/-- The store and the calls that were made. -/
structure System where
  shared : Shared
  calls : List Call

/-- The calls of the service. -/
inductive Request where
  | decideFlowApproval (approvalId : String) (body : Decision)
  | decideProjectLifecycle (requestId : String) (body : Decision)
  | decideAction (actionId : String) (body : Decision)
  | executeAction (actionId : String) (scopes : List String)

/-- A call at its first step. -/
def begin (scope : Scope) : Request → Call
  | .decideFlowApproval approvalId body => .readApproval scope approvalId body
  | .decideProjectLifecycle requestId body => .readRequest scope requestId body
  | .decideAction actionId body => .readAction scope actionId body
  | .executeAction actionId scopes => .readApproved scope actionId scopes

/-- Nothing was saved yet. -/
def System.start (records : Tables) : System := ⟨⟨records, [], records.status⟩, []⟩

namespace Decisions

/-- One step. -/
inductive Act where
  | start (scope : Scope) (request : Request)
  | advance (i : Nat) (r : Reading)

/-- One step. -/
def step (inputHash : Dict String Json → String) (s : System) : Act → Option System
  | .start scope request => some { s with calls := s.calls ++ [begin scope request] }
  | .advance i r => do
    let call ← s.calls[i]?
    let (shared, call') ← stepCall inputHash r s.shared call
    return ⟨shared, s.calls.set i call'⟩

end Decisions

end Scenara.ControlPlane
