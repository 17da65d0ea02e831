import Mathlib.Data.String.Basic
import Scenara.Core.Kahn
import Scenara.Core.Strings

/-!
# Pipelines: registration, validation, execution

Model of `PipelineRegistry` (`platform/pipeline.py`): `register_operator`, `register_pipeline`,
`_validate`, `transition`, `validate_run_parameters` and `execute`.

* `definition_sha256` is a digest of every field but the status (`PipelinePayload`); the digest is a
  parameter (`sha256`), and so is the class `\d` of the version pattern (`decimal`).
* JSON values are a type `V`, the values that operators exchange a type `X`.
-/

namespace Scenara.Pipeline

open Scenara.Core

/-! ## Definitions -/

/-- `PipelineStatus`. -/
inductive PipelineStatus where
  | draft
  | validated
  | approved
  | active
  | retired
  deriving DecidableEq

/-- `PipelineStatus.value`. -/
def PipelineStatus.value : PipelineStatus → String
  | draft => "draft"
  | validated => "validated"
  | approved => "approved"
  | active => "active"
  | retired => "retired"

/-- The transition table. -/
def PipelineStatus.allowed : PipelineStatus → List PipelineStatus
  | draft => [validated]
  | validated => [approved, draft]
  | approved => [active, draft]
  | active => [retired]
  | retired => []

/-- `PipelineNode`. -/
structure PipelineNode (V : Type) where
  nodeId : String
  operatorId : String
  inputs : Dict String String
  parameters : Dict String V

/-- `PipelineDefinition.model_dump(exclude={"status"})`; a parameter's schema is a JSON value. -/
structure PipelinePayload (V : Type) where
  pipelineId : String
  version : String
  domain : String
  nodes : List (PipelineNode V)
  output : String
  allowedParameters : List String
  parameterSchema : Dict String V
  pausable : Bool

/-- `PipelineDefinition`. -/
structure PipelineDefinition (V : Type) extends PipelinePayload V where
  status : PipelineStatus

/-- `OperatorDefinition.failure_policy`. -/
inductive FailurePolicy where
  | fail
  | retry
  deriving DecidableEq

/-- `OperatorDefinition`, the fields that validation and execution read. -/
structure OperatorDefinition where
  operatorId : String
  domain : Option String
  inputTypes : Dict String String
  outputTypes : Dict String String
  failurePolicy : FailurePolicy
  maxAttempts : Nat
  /-- `Field(default=1, ge=1, le=5)`. -/
  maxAttempts_range : 1 ≤ maxAttempts ∧ maxAttempts ≤ 5

variable {V D X : Type}

/-- `(pipeline.pipeline_id, pipeline.version)`. -/
def PipelineDefinition.key (p : PipelineDefinition V) : String × String := (p.pipelineId, p.version)

/-- `PipelineDefinition.definition_sha256`. -/
def PipelineDefinition.definitionSha256 (sha256 : PipelinePayload V → D)
    (p : PipelineDefinition V) : D :=
  sha256 p.toPipelinePayload

/-- The ids of the nodes. -/
def PipelinePayload.nodeIds (p : PipelinePayload V) : List String :=
  p.nodes.map PipelineNode.nodeId

/-! ## Validation -/

/-- `re.fullmatch(r"[a-z][a-z0-9_.-]{1,127}", pipeline_id)`. -/
def isPipelineId (pipelineId : String) : Bool :=
  match pipelineId.toList with
  | [] => false
  | c :: cs => 'a' ≤ c && c ≤ 'z' && 1 ≤ cs.length && cs.length ≤ 127 &&
      cs.all fun c => isLabelChar c || c = '_'

/-- `f"{node_id}.{output_name}"`. -/
def outputKey (nodeId outputName : String) : String := nodeId ++ "." ++ outputName

/-- `source.split(".", 1)[0]`. -/
def sourceNode (source : String) : String := String.ofList (source.toList.takeWhile (· ≠ '.'))

/-- `source.startswith("$media.")`. -/
def isMediaSource (source : String) : Bool := "$media.".toList.isPrefixOf source.toList

/-- The three tables of `_validate`. -/
structure Tables where
  dependencies : Dict String (List String)
  children : Dict String (List String)
  availableTypes : Dict String String

/-- `available_types` before the first node. -/
def mediaTypes : Dict String String :=
  (Dict.empty.insert "$media.bytes" "bytes").insert "$media.input" "media/input"

/-- One input source of a node. -/
def addSource (nodeIds : List String) (nodeId : String) (t : Tables) (source : String) :
    Except String Tables :=
  if isMediaSource source then .ok t
  else if sourceNode source ∉ nodeIds then .error ("unknown input source: " ++ source)
  else .ok { t with
    dependencies := addMember t.dependencies nodeId (sourceNode source)
    children := addMember t.children (sourceNode source) nodeId }

/-- The outputs that a node declares. -/
def addOutputs (nodeId : String) (outputTypes : Dict String String) (types : Dict String String) :
    Dict String String :=
  outputTypes.entries.foldl (fun types e => types.insert (outputKey nodeId e.1) e.2) types

/-- One turn of the first loop of `_validate`. -/
def addNode (operators : Dict String OperatorDefinition) (nodeIds : List String) (domain : String)
    (t : Tables) (node : PipelineNode V) : Except String Tables :=
  match operators.get? node.operatorId with
  | none => .error ("unknown operator: " ++ node.operatorId)
  | some definition =>
    if definition.domain ≠ none ∧ definition.domain ≠ some domain then
      .error ("operator domain mismatch: " ++ node.operatorId)
    else
      node.inputs.values.foldlM (addSource nodeIds node.nodeId)
        { t with availableTypes := addOutputs node.nodeId definition.outputTypes t.availableTypes }

/-- One input of a node, against the type its operator declares for it. -/
def checkInput (types : Dict String String) (nodeId : String) (inputTypes : Dict String String)
    (input : String × String) : Except String Unit :=
  let expected := inputTypes.get? input.1
  let sourceType := types.get? input.2
  if sourceType ≠ expected then
    .error ("type mismatch for " ++ nodeId ++ "." ++ input.1 ++ ": expected " ++ expected.getD "" ++
      ", received " ++ (if sourceType.getD "" = "" then "unknown" else sourceType.getD ""))
  else .ok ()

/-- One turn of the last loop of `_validate`. -/
def checkNode (operators : Dict String OperatorDefinition) (types : Dict String String)
    (node : PipelineNode V) : Except String Unit :=
  match operators.get? node.operatorId with
  | none => .error ("unknown operator: " ++ node.operatorId)
  | some definition =>
    if ¬((∀ name ∈ node.inputs.entries.map Prod.fst, definition.inputTypes.get? name ≠ none) ∧
        ∀ name ∈ definition.inputTypes.entries.map Prod.fst, node.inputs.get? name ≠ none) then
      .error ("operator inputs do not match contract: " ++ node.operatorId)
    else node.inputs.entries.forM (checkInput types node.nodeId definition.inputTypes)

/-- `PipelineRegistry._validate`. -/
def validate (decimal : Char → Bool) (operators : Dict String OperatorDefinition)
    (p : PipelineDefinition V) : Except String (List String) :=
  if ¬isPipelineId p.pipelineId then .error "invalid pipeline_id"
  else if ¬isSemanticVersion decimal p.version then .error "pipeline version must be semantic"
  else if p.nodes = [] ∨ 64 < p.nodes.length then .error "pipeline must contain 1-64 nodes"
  else if ¬p.nodeIds.Nodup then .error "pipeline node_id values must be unique"
  else do
    let t ← p.nodes.foldlM (addNode operators p.nodeIds p.domain) ⟨.empty, .empty, mediaTypes⟩
    if t.children.values.any (16 < ·.length) then .error "pipeline fan-out exceeds 16"
    else
      let order := kahn p.nodeIds t.dependencies t.children
      if order.length ≠ p.nodeIds.length then .error "pipeline contains a cycle"
      else do
        p.nodes.forM (checkNode operators t.availableTypes)
        if t.availableTypes.get? p.output = none then .error "pipeline output reference is invalid"
        else .ok order

/-! ## The registry -/

/-- `PipelineRegistry`. -/
structure Registry (V D : Type) where
  operators : Dict String OperatorDefinition
  pipelines : Dict (String × String) (PipelineDefinition V)
  orders : Dict (String × String) (List String)
  digests : Dict (String × String) D

/-- `PipelineRegistry()`. -/
def Registry.empty : Registry V D := ⟨.empty, .empty, .empty, .empty⟩

section Registry

variable [DecidableEq D] (sha256 : PipelinePayload V → D) (decimal : Char → Bool)

/-- `PipelineRegistry.register_operator`. -/
def registerOperator (r : Registry V D) (definition : OperatorDefinition) :
    Except String (Registry V D) :=
  if r.operators.get? definition.operatorId ≠ none then
    .error ("operator already registered: " ++ definition.operatorId)
  else .ok { r with operators := r.operators.insert definition.operatorId definition }

/-- `PipelineRegistry.register_pipeline`. -/
def registerPipeline (r : Registry V D) (p : PipelineDefinition V) : Except String (Registry V D) :=
  if r.pipelines.get? p.key ≠ none then
    .error ("pipeline already registered: " ++ p.pipelineId ++ "@" ++ p.version)
  else if p.status = .active ∧ r.pipelines.values.any
      (fun item => item.pipelineId = p.pipelineId && item.status = .active) then
    .error ("pipeline already has an active version: " ++ p.pipelineId)
  else do
    let order ← validate decimal r.operators p
    .ok { r with
      orders := r.orders.insert p.key order
      pipelines := r.pipelines.insert p.key p
      digests := r.digests.insert p.key (p.definitionSha256 sha256) }

/-- `PipelineRegistry.transition`. -/
def transition (r : Registry V D) (pipelineId version : String) (target : PipelineStatus) :
    Except String (Registry V D × PipelineDefinition V) :=
  match r.pipelines.get? (pipelineId, version) with
  | none => .error ("pipeline not found: " ++ pipelineId ++ "@" ++ version)
  | some pipeline =>
    if target ∉ pipeline.status.allowed then
      .error ("invalid pipeline transition: " ++ pipeline.status.value ++ " -> " ++ target.value)
    else if some (pipeline.definitionSha256 sha256) ≠ r.digests.get? (pipelineId, version) then
      .error "pipeline definition was mutated after registration"
    else
      let others := if target = .active then
          r.pipelines.mapVals fun _ other =>
            if other.pipelineId = pipelineId ∧ other.status = .active then
              { other with status := .retired } else other
        else r.pipelines
      let updated := { pipeline with status := target }
      .ok ({ r with pipelines := others.insert (pipelineId, version) updated }, updated)

/-- A call of the registry. -/
inductive RegistryCall (V : Type) where
  | registerOperator (definition : OperatorDefinition)
  | registerPipeline (p : PipelineDefinition V)
  | transition (pipelineId version : String) (target : PipelineStatus)

/-- One call; a call that raises leaves the registry as it was. -/
def registryStep (r : Registry V D) : RegistryCall V → Option (Registry V D)
  | .registerOperator definition =>
    match registerOperator r definition with
    | .ok r' => some r'
    | .error _ => some r
  | .registerPipeline p =>
    match registerPipeline sha256 decimal r p with
    | .ok r' => some r'
    | .error _ => some r
  | .transition pipelineId version target =>
    match transition sha256 r pipelineId version target with
    | .ok (r', _) => some r'
    | .error _ => some r

end Registry

/-! ## Execution -/

/-- What an attempt of an operator, or a checkpoint, raises. -/
inductive Failure where
  | timedOut
  | domainUnavailable
  | interrupted
  | failed
  deriving DecidableEq

/-- What `execute` raises. -/
inductive ExecutionError where
  | pipelineError (message : String)
  | keyError (key : String)
  /-- An exception of a checkpoint or an operator, as it is. -/
  | raised (failure : Failure)
  deriving DecidableEq

/-- What the checkpoint before a node does, and how an attempt to run the operator of a node ends:
with a dictionary, or with `None`, or by raising. -/
structure Environment (V X : Type) where
  checkpoint : String → Option Failure
  execute : String → Nat → Dict String X → Dict String V → Except Failure (Option (Dict String X))

/-- `definition.max_attempts if definition.failure_policy == "retry" else 1`. -/
def OperatorDefinition.attempts (definition : OperatorDefinition) : Nat :=
  if definition.failurePolicy = .retry then definition.maxAttempts else 1

/-- The loop over the attempts, the first `attempt` of which are over. -/
def runAttempts {R : Type} (operatorId : String) (answer : Nat → Except Failure (Option R)) :
    Nat → Nat → Except ExecutionError (Option R)
  | _, 0 => .ok none
  | attempt, rest + 1 =>
    match answer attempt with
    | .ok result => .ok result
    | .error .timedOut =>
      if rest = 0 then .error (.pipelineError ("operator timed out: " ++ operatorId))
      else runAttempts operatorId answer (attempt + 1) rest
    | .error .domainUnavailable => .error (.raised .domainUnavailable)
    | .error .interrupted => .error (.raised .interrupted)
    | .error .failed =>
      if rest = 0 then .error (.pipelineError ("operator failed: " ++ operatorId))
      else runAttempts operatorId answer (attempt + 1) rest

/-- `d[key]`. -/
def lookup {Y : Type} (d : Dict String Y) (key : String) : Except ExecutionError Y :=
  match d.get? key with
  | none => .error (.keyError key)
  | some y => .ok y

/-- `{name: outputs[source] for name, source in node.inputs.items()}`. -/
def gatherInputs (outputs : Dict String X) : List (String × String) →
    Except ExecutionError (List (String × X))
  | [] => .ok []
  | (name, source) :: rest => do
    let value ← lookup outputs source
    let values ← gatherInputs outputs rest
    .ok ((name, value) :: values)

/-- `{**defaults, **overrides}`. -/
def mergeParameters (defaults overrides : Dict String V) : Dict String V :=
  overrides.entries.foldl (fun d e => d.insert e.1 e.2) defaults

/-- `outputs[f"{node.node_id}.{name}"] = value`, for every name. -/
def addResult (nodeId : String) (outputs result : Dict String X) : Dict String X :=
  result.entries.foldl (fun outputs e => outputs.insert (outputKey nodeId e.1) e.2) outputs

/-- One turn of the loop of `execute`. -/
def executeNode (operators : Dict String OperatorDefinition)
    (nodes : Dict String (PipelineNode V)) (environment : Environment V X)
    (runParameters : Dict String V) (outputs : Dict String X) (nodeId : String) :
    Except ExecutionError (Dict String X) :=
  match environment.checkpoint nodeId with
  | some failure => .error (.raised failure)
  | none => do
    let node ← lookup nodes nodeId
    let definition ← lookup operators node.operatorId
    let inputs ← gatherInputs outputs node.inputs.entries
    let parameters := mergeParameters node.parameters runParameters
    let result ← runAttempts node.operatorId
      (fun attempt => environment.execute nodeId attempt (Dict.ofList inputs) parameters)
      0 definition.attempts
    match result with
    | none => .error (.pipelineError ("operator did not produce a result: " ++ node.operatorId))
    | some result =>
      let missing := sorted ((definition.outputTypes.entries.map Prod.fst).filter
        fun name => result.get? name = none)
      if missing ≠ [] then
        .error (.pipelineError ("operator " ++ node.operatorId ++ " omitted outputs: " ++
          ", ".intercalate missing))
      else .ok (addResult node.nodeId outputs result)

/-- The loop of `execute`. -/
def runNodes (r : Registry V D) (p : PipelineDefinition V) (environment : Environment V X)
    (initialInputs : Dict String X) (runParameters : Dict String V) :
    Except ExecutionError (Dict String X) :=
  let nodes := Dict.ofList (p.nodes.map fun node => (node.nodeId, node))
  ((r.orders.get? p.key).getD []).foldlM
    (executeNode r.operators nodes environment runParameters) initialInputs

/-- `PipelineRegistry.execute`. -/
def execute [DecidableEq D] (sha256 : PipelinePayload V → D) (r : Registry V D)
    (p : PipelineDefinition V) (environment : Environment V X) (initialInputs : Dict String X)
    (runParameters : Dict String V) : Except ExecutionError X :=
  let unexpected := sorted ((runParameters.entries.map Prod.fst).filter (· ∉ p.allowedParameters))
  if unexpected ≠ [] then
    .error (.pipelineError ("unsupported pipeline parameters: " ++ ", ".intercalate unexpected))
  else
    match r.pipelines.get? p.key with
    | none => .error (.pipelineError "pipeline definition is not immutable")
    | some registered =>
      if some (registered.definitionSha256 sha256) ≠ r.digests.get? p.key then
        .error (.pipelineError "pipeline definition is not immutable")
      else do
        let outputs ← runNodes r p environment initialInputs runParameters
        match outputs.get? p.output with
        | none => .error (.pipelineError ("pipeline output was not produced: " ++ p.output))
        | some output => .ok output

end Scenara.Pipeline
