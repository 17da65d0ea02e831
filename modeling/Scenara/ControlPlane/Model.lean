import Scenara.Core.Dict
import Scenara.Core.Json
import Scenara.Release.Model

/-!
# Records of the control plane

The records of `platform/control_plane_models.py` that flows and decisions are made of, with the
fields that `ControlPlaneService` reads.
-/

namespace Scenara.ControlPlane

open Scenara.Core
open Release (Scope)

/-- `(tenant_id, project_id, record_id)`. -/
structure Key where
  scope : Scope
  id : String
  deriving DecidableEq

/-- What a call raises. -/
inductive ControlPlaneError where
  | valueError (message : String)
  | policyDenied (message : String)
  /-- A `TypeError` or `AttributeError` of the interpreter. -/
  | typeError
  /-- `StopIteration` in a coroutine. -/
  | runtimeError
  deriving DecidableEq

/-! ## Flows -/

/-- `FlowNodeKind`. -/
inductive FlowNodeKind where
  | run | condition | approval | webhook
  deriving DecidableEq

/-- `FlowNodeKind.value`. -/
def FlowNodeKind.value : FlowNodeKind → String
  | .run => "run"
  | .condition => "condition"
  | .approval => "approval"
  | .webhook => "webhook"

/-- `^[a-z][a-z0-9_.-]{1,63}$`. -/
def nodeIdPattern (s : String) : Bool :=
  match s.toList with
  | [] => false
  | c :: cs =>
    c.isLower && 1 ≤ cs.length && cs.length ≤ 63 &&
      cs.all fun d => d.isLower || d.isDigit || d = '_' || d = '.' || d = '-'

/-- `FlowNode`. -/
structure FlowNode where
  nodeId : String
  kind : FlowNodeKind
  config : Dict String Json
  nextNodes : List String
  nodeId_matches : nodeIdPattern nodeId = true

theorem FlowNode.nodeId_ne_empty (node : FlowNode) : node.nodeId ≠ "" := by
  intro h
  have hmatches := node.nodeId_matches
  rw [h] at hmatches
  exact absurd hmatches (by decide)

/-- `FlowDefinition`, as `create_flow` accepts it. -/
structure FlowDefinition where
  key : Key
  nodes : List FlowNode
  entryNodeId : String
  entry : ∃ node ∈ nodes, node.nodeId = entryNodeId
  targets : ∀ node ∈ nodes, ∀ target ∈ node.nextNodes, ∃ m ∈ nodes, m.nodeId = target

/-- `CreateFlowRequest`. -/
structure CreateFlowRequest where
  nodes : List FlowNode
  entryNodeId : String

/-- The context of an execution. -/
abbrev Context := Dict String Json

/-- `FlowExecution.status`. -/
inductive ExecutionStatus where
  | running | waitingApproval | completed | rejected
  deriving DecidableEq

/-- `FlowExecution`. -/
structure FlowExecution where
  key : Key
  flowId : String
  status : ExecutionStatus
  currentNodeId : String
  context : Context
  createdAt : ℚ
  updatedAt : ℚ
  completedAt : Option ℚ

/-- The status of what is decided by somebody. -/
inductive ApprovalStatus where
  | pending | approved | rejected
  deriving DecidableEq

/-- `"approved" if approved else "rejected"`. -/
def ApprovalStatus.decided (approved : Bool) : ApprovalStatus :=
  if approved then .approved else .rejected

/-- `FlowApproval`. -/
structure FlowApproval where
  key : Key
  executionId : String
  nodeId : String
  status : ApprovalStatus
  comment : String
  decidedBy : Option String
  createdAt : ℚ
  updatedAt : ℚ

/-- The copy of `decide_flow_approval`. -/
def FlowApproval.decide (approval : FlowApproval) (approved : Bool) (comment principalId : String)
    (now : ℚ) : FlowApproval :=
  { approval with
    status := .decided approved
    comment := comment
    decidedBy := some principalId
    updatedAt := now }

/-- The execution that the approval is for. -/
def FlowApproval.execution (approval : FlowApproval) : Key :=
  ⟨approval.key.scope, approval.executionId⟩

/-! ## Project lifecycle -/

/-- `LifecycleStatus`. -/
inductive LifecycleStatus where
  | active | disabled | deleted | pendingRestore
  deriving DecidableEq

/-- The status that an action of `lifecycle` leads to. -/
def LifecycleStatus.ofAction : String → Option LifecycleStatus
  | "disable" => some .disabled
  | "restore" => some .active
  | "delete" => some .deleted
  | _ => none

/-- `ResourceLifecycleRecord`. -/
structure ResourceLifecycleRecord where
  key : Key
  resourceType : String
  resourceId : String
  status : LifecycleStatus
  reason : String
  updatedBy : String
  createdAt : ℚ
  updatedAt : ℚ
  deletedAt : Option ℚ

/-- `ProjectLifecycleRequest`; the project of its key is the one it is about. -/
structure ProjectLifecycleRequest where
  key : Key
  action : String
  status : ApprovalStatus
  reason : String
  requestedBy : String
  decidedBy : Option String
  decisionComment : String
  createdAt : ℚ
  updatedAt : ℚ
  decidedAt : Option ℚ

/-- The copy of `decide_project_lifecycle`. -/
def ProjectLifecycleRequest.decide (request : ProjectLifecycleRequest) (approved : Bool)
    (comment principalId : String) (now : ℚ) : ProjectLifecycleRequest :=
  { request with
    status := .decided approved
    decidedBy := some principalId
    decisionComment := comment
    decidedAt := some now
    updatedAt := now }

/-! ## Agent actions -/

/-- `AgentTool`. -/
structure AgentTool where
  key : Key
  name : String
  scopes : List String
  enabled : Bool

/-- `AgentActionStatus`. -/
inductive AgentActionStatus where
  | proposed | pendingApproval | approved | rejected | executed | failed
  deriving DecidableEq

/-- `AgentAction`. -/
structure AgentAction where
  key : Key
  toolId : String
  input : Dict String Json
  status : AgentActionStatus
  output : Dict String Json
  updatedAt : ℚ

/-- The copy of `decide_action`. -/
def AgentAction.decide (action : AgentAction) (approved : Bool) (comment : String) (now : ℚ) :
    AgentAction :=
  { action with
    status := if approved then .approved else .rejected
    output := .ofList [("approval_comment", .str comment)]
    updatedAt := now }

/-- The copy of `execute_action`. -/
def AgentAction.execute (action : AgentAction) (tool : AgentTool) (inputHash : String) (now : ℚ) :
    AgentAction :=
  { action with
    status := .executed
    output := .ofList
      [("status", .str "accepted"), ("tool", .str tool.name), ("input_sha256", .str inputHash)]
    updatedAt := now }

end Scenara.ControlPlane
