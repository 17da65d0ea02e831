import Mathlib.Data.List.Perm.Subperm
import Scenara.ControlPlane.Flow
import Scenara.Core.Raising

/-!
# Executions wait at their gates

* `Gated`: an execution waits exactly when one approval of it is pending, is final when none is, and
  the nodes it records as completed are reached through approved gates.
-/

namespace Scenara.ControlPlane

open Scenara.Core
open Release (Scope)

variable {ids : Fresh String} {store store' : Store} {flow : FlowDefinition} {node : FlowNode}
  {context context' : Context} {now : Nat → ℚ} {time : ℚ} {k : Key} {nodeId : String}
  {ok ok' : String → Prop}

/-! ## What is promised -/

/-- The context records the node as completed. -/
def Recorded (context : Context) (nodeId : String) : Prop :=
  ∃ nodes ∈ context.get? "nodes", ∃ entry ∈ nodes.field? nodeId,
    entry.field? "status" = some (.str "completed")

/-- The node is at the end of a path from the entry all of whose approval nodes are approved. -/
inductive Reached (flow : FlowDefinition) (ok : String → Prop) : FlowNode → Prop where
  | entry {node : FlowNode} (mem : node ∈ flow.nodes) (isEntry : node.nodeId = flow.entryNodeId)
      (gate : node.kind = .approval → ok node.nodeId) : Reached flow ok node
  | next {last node : FlowNode} (path : Reached flow ok last) (mem : node ∈ flow.nodes)
      (isNext : node.nodeId ∈ last.nextNodes) (gate : node.kind = .approval → ok node.nodeId) :
      Reached flow ok node

/-- A pending approval of the execution. -/
def Pending (store : Store) (k : Key) (approval : FlowApproval) : Prop :=
  approval ∈ store.approvals.values ∧ approval.execution = k ∧ approval.status = .pending

/-- The node was approved for the execution. -/
def Approved (store : Store) (k : Key) (nodeId : String) : Prop :=
  ∃ approval ∈ store.approvals.values, approval.execution = k ∧ approval.nodeId = nodeId ∧
    approval.status = .approved

/-- Every node that the execution records as completed was reached. -/
def Sound (store : Store) (execution : FlowExecution) : Prop :=
  ∃ flow, store.flows.get? ⟨execution.key.scope, execution.flowId⟩ = some flow ∧
    ∀ nodeId, Recorded execution.context nodeId →
      ∃ node, node.nodeId = nodeId ∧ Reached flow (Approved store execution.key) node

/-- `completed` or `rejected`. -/
def ExecutionStatus.Final (status : ExecutionStatus) : Prop :=
  status = .completed ∨ status = .rejected

/-- No execution is stuck, or past a gate. -/
def Gated (store : Store) : Prop :=
  ∀ execution ∈ store.executions.values,
    (execution.status = .waitingApproval ↔ ∃! approval, Pending store execution.key approval) ∧
    ((¬∃ approval, Pending store execution.key approval) → execution.status.Final) ∧
    Sound store execution

/-! ## The condition -/

/-- The nodes that the loop meets from a node on, with the context as it finds it, until it stops at
an approval node or after a node without a next one; no turn raises. -/
inductive Route (flow : FlowDefinition) (now : Nat → ℚ) :
    Nat → Context → String → List String → Prop where
  | approval {n : Nat} {context : Context} {nodeId : String} {node : FlowNode}
      (isNode : flow.lastNode nodeId = some node) (kind : node.kind = .approval) :
      Route flow now n context nodeId [nodeId]
  | final {n : Nat} {context context' : Context} {nodeId : String} {node : FlowNode}
      (isNode : flow.lastNode nodeId = some node) (kind : node.kind ≠ .approval)
      (completes : completeNode node (now n) context = .ok context')
      (isLast : nextNode node context' = .ok none) : Route flow now n context nodeId [nodeId]
  | on {n : Nat} {context context' : Context} {nodeId next : String} {node : FlowNode}
      {route : List String} (isNode : flow.lastNode nodeId = some node)
      (kind : node.kind ≠ .approval)
      (completes : completeNode node (now n) context = .ok context')
      (isNext : nextNode node context' = .ok (some next))
      (rest : Route flow now (n + 1) context' next route) :
      Route flow now n context nodeId (nodeId :: route)

/-- Where a call starts to walk. -/
structure Start where
  flow : FlowDefinition
  now : Nat → ℚ
  context : Context
  nodeId : String

/-- The walk meets no node twice. -/
def Arrives (start : Start) : Prop :=
  ∃ route, Route start.flow start.now 0 start.context start.nodeId route ∧ route.Nodup

/-- `execute_flow` walks from the entry node, `decide_flow_approval` from the first node after the
approved one. -/
def starts (store : Store) : Act → Option Start
  | .createFlow _ _ => none
  | .executeFlow scope flowId context _ now =>
    (store.flows.get? ⟨scope, flowId⟩).map fun flow => ⟨flow, now, context, flow.entryNodeId⟩
  | .decideFlowApproval scope approvalId approved _ _ _ now => do
    let approval ← store.approvals.get? ⟨scope, approvalId⟩
    if approval.status = .pending ∧ approved then
      let execution ← store.executions.get? approval.execution
      let flow ← store.flows.get? ⟨scope, execution.flowId⟩
      let node ← flow.firstNode approval.nodeId
      let next ← node.nextNodes.head?
      return ⟨flow, now, execution.context, next⟩
    else none

/-- `output` leaves the interpreter's own keys alone: the record of completed nodes, and the list
of webhooks, which a memory store would share with the stored flow. -/
def FlowNode.Modest (node : FlowNode) : Prop :=
  ∀ fields, node.config.get? "output" = some (.obj fields) →
    "nodes" ∉ fields.map Prod.fst ∧ "webhooks" ∉ fields.map Prod.fst

/-- The caller records no node as completed, and brings no list of webhooks. -/
def Act.Unforged : Act → Prop
  | .createFlow _ body => ∀ node ∈ body.nodes, node.Modest
  | .executeFlow _ _ context _ _ =>
    (∀ nodeId, ¬Recorded context nodeId) ∧ context.get? "webhooks" = none
  | .decideFlowApproval .. => True

/-- The call's walk ends, and nothing is forged. -/
structure Smooth (store : Store) (act : Act) : Prop where
  arrives : ∀ start ∈ starts store act, Arrives start
  unforged : act.Unforged

/-! ## Paths -/

/-- The loop may go on to the node. -/
def Open (flow : FlowDefinition) (ok : String → Prop) (nodeId : String) : Prop :=
  nodeId = flow.entryNodeId ∨ ∃ last, Reached flow ok last ∧ nodeId ∈ last.nextNodes

theorem Reached.mono (hok : ∀ id, ok id → ok' id) (h : Reached flow ok node) :
    Reached flow ok' node := by
  induction h with
  | entry mem isEntry gate => exact .entry mem isEntry fun hkind => hok _ (gate hkind)
  | next _ mem isNext gate ih => exact .next ih mem isNext fun hkind => hok _ (gate hkind)

theorem Open.mono (hok : ∀ id, ok id → ok' id) (h : Open flow ok nodeId) :
    Open flow ok' nodeId :=
  h.imp_right fun ⟨last, hlast, hnext⟩ => ⟨last, hlast.mono hok, hnext⟩

theorem Reached.mem (h : Reached flow ok node) : node ∈ flow.nodes := by
  cases h <;> assumption

theorem Open.reached (h : Open flow ok node.nodeId) (hmem : node ∈ flow.nodes)
    (gate : node.kind = .approval → ok node.nodeId) : Reached flow ok node := by
  rcases h with hentry | ⟨_, hlast, hnext⟩
  · exact .entry hmem hentry gate
  · exact .next hlast hmem hnext gate

theorem Reached.open_next (h : Reached flow ok node) {next : String}
    (hnext : next ∈ node.nextNodes) : Open flow ok next :=
  .inr ⟨node, h, hnext⟩

theorem lastNode_spec (h : flow.lastNode nodeId = some node) :
    node ∈ flow.nodes ∧ node.nodeId = nodeId :=
  ⟨List.mem_reverse.1 (List.mem_of_find?_eq_some h), by simpa using List.find?_some h⟩

theorem firstNode_spec (h : flow.firstNode nodeId = some node) :
    node ∈ flow.nodes ∧ node.nodeId = nodeId :=
  ⟨List.mem_of_find?_eq_some h, by simpa using List.find?_some h⟩

theorem Open.exists_node (h : Open flow ok nodeId) : ∃ node ∈ flow.nodes, node.nodeId = nodeId := by
  rcases h with rfl | ⟨last, hlast, hnext⟩
  · exact flow.entry
  · exact flow.targets last hlast.mem nodeId hnext

/-! ## One turn -/

theorem mem_nextNodes_of_nextNode {next : String} (h : nextNode node context = .ok (some next)) :
    next ∈ node.nextNodes := by
  unfold nextNode at h
  split at h
  · rename_i first second rest hkind hnext
    rw [hnext]
    split at h
    · dsimp only at h
      split at h <;> cases h
      · exact List.mem_cons_self
      · exact List.mem_cons_of_mem _ List.mem_cons_self
    · cases h
  · exact List.mem_of_mem_head? (Except.ok.inj h)

theorem get?_foldl_insert_of_notMem (fields : List (String × Json)) (context : Context)
    {key : String} (h : key ∉ fields.map Prod.fst) :
    (fields.foldl (fun context e => context.insert e.1 e.2) context).get? key =
      context.get? key := by
  induction fields generalizing context with
  | nil => rfl
  | cons e _ ih =>
    rw [List.map_cons, List.mem_cons, not_or] at h
    rw [List.foldl_cons, ih _ h.2, Dict.get?_insert_of_ne _ _ h.1]

theorem get?_mergeOutput (hmodest : node.Modest) (context : Context) :
    (mergeOutput node context).get? "nodes" = context.get? "nodes" := by
  unfold mergeOutput
  split
  · rename_i fields hfields
    exact get?_foldl_insert_of_notMem fields context (hmodest fields hfields).1
  · rfl

theorem get?_queueWebhook (h : queueWebhook node context = .ok context') :
    context'.get? "nodes" = context.get? "nodes" := by
  unfold queueWebhook at h
  split at h
  · split at h
    · cases h
      exact Dict.get?_insert_of_ne _ _ (by decide)
    · cases h
  · cases h
    rfl

theorem recorded_completeNode (hmodest : node.Modest)
    (h : completeNode node time context = .ok context') (hrecorded : Recorded context' nodeId) :
    nodeId = node.nodeId ∨ Recorded context nodeId := by
  obtain ⟨_, hrecord, hqueue⟩ := bind_eq_ok.1 h
  obtain ⟨nodes, hnodes, entry, hentry, hstatus⟩ := hrecorded
  rw [get?_queueWebhook hqueue, get?_mergeOutput hmodest] at hnodes
  unfold recordNode at hrecord
  split at hrecord
  · rename_i fields hfields
    cases hrecord
    rw [Dict.get?_insert_self] at hnodes
    cases hnodes
    have hlookup : (upsert node.nodeId (completedEntry node time) fields).lookup nodeId =
        some entry := hentry
    rw [lookup_upsert] at hlookup
    split at hlookup
    · exact .inl ‹_›
    · refine .inr ?_
      cases hget : context.get? "nodes" with
      | none =>
        rw [hget] at hfields
        cases hfields
        cases hlookup
      | some =>
        rw [hget] at hfields
        cases hfields
        exact ⟨_, hget, entry, hlookup, hstatus⟩
  · cases hrecord

/-! ## The loop -/

theorem route_subset {n : Nat} {route : List String} (h : Route flow now n context nodeId route) :
    route ⊆ flow.nodes.map FlowNode.nodeId := by
  have hnode : ∀ {id node}, flow.lastNode id = some node → id ∈ flow.nodes.map FlowNode.nodeId :=
    fun h => List.mem_map.2 ⟨_, lastNode_spec h⟩
  induction h with
  | approval isNode | final isNode => exact List.cons_subset.2 ⟨hnode isNode, List.nil_subset _⟩
  | on isNode _ _ _ _ ih => exact List.cons_subset.2 ⟨hnode isNode, ih⟩

theorem route_length {n : Nat} {route : List String} (h : Route flow now n context nodeId route)
    (hnodup : route.Nodup) : route.length ≤ flow.nodes.length :=
  calc route.length ≤ (flow.nodes.map FlowNode.nodeId).length :=
        (hnodup.subperm (route_subset h)).length_le
    _ = flow.nodes.length := List.length_map _

/-- The nodes recorded were reached. -/
def Records (flow : FlowDefinition) (ok : String → Prop) (context : Context) : Prop :=
  ∀ nodeId, Recorded context nodeId → ∃ node, node.nodeId = nodeId ∧ Reached flow ok node

/-- What is known where the loop stops. -/
def Ends (flow : FlowDefinition) (ok : String → Prop) (current : FlowExecution) : Stop → Prop
  | .approval node execution _ =>
    execution.key = current.key ∧ execution.flowId = current.flowId ∧
      execution.status = .waitingApproval ∧ Records flow ok execution.context ∧
      Open flow ok node.nodeId
  | .completed execution =>
    execution.key = current.key ∧ execution.flowId = current.flowId ∧
      execution.status = .completed ∧ Records flow ok execution.context
  | .nowhere _ => False

section Turn

variable {fuel : Nat} {visited : List String} {current : FlowExecution}
  (hnode : flow.lastNode nodeId = some node) (hnew : nodeId ∉ visited)

include hnode hnew

theorem walk_approval (hkind : node.kind = .approval) :
    walk flow now (fuel + 1) visited current nodeId =
      .ok (.approval node (current.waiting nodeId (now visited.length)) (now visited.length)) := by
  have hne : nodeId ≠ "" := (lastNode_spec hnode).2 ▸ node.nodeId_ne_empty
  simp only [walk, if_neg hne, if_neg hnew, hnode, if_pos hkind]

variable (hkind : node.kind ≠ .approval)
  (hcompletes : completeNode node (now visited.length) current.context = .ok context)

include hkind hcompletes

theorem walk_final (hlast : nextNode node context = .ok none) :
    walk flow now (fuel + 1) visited current nodeId =
      .ok (.completed { current.passed nodeId context (now visited.length) with
        status := .completed, completedAt := some (now visited.length) }) := by
  have hne : nodeId ≠ "" := (lastNode_spec hnode).2 ▸ node.nodeId_ne_empty
  simp only [walk, if_neg hne, if_neg hnew, hnode, if_neg hkind, hcompletes, hlast, bind,
    Except.bind]

theorem walk_on {next : String} (hnext : nextNode node context = .ok (some next)) :
    walk flow now (fuel + 1) visited current nodeId =
      walk flow now fuel (visited ++ [nodeId]) (current.passed nodeId context (now visited.length))
        next := by
  have hne : nodeId ≠ "" := (lastNode_spec hnode).2 ▸ node.nodeId_ne_empty
  simp only [walk, if_neg hne, if_neg hnew, hnode, if_neg hkind, hcompletes, hnext, bind,
    Except.bind]

end Turn

theorem reached_turn (hmodest : ∀ node ∈ flow.nodes, node.Modest)
    (hnode : flow.lastNode nodeId = some node) (hkind : node.kind ≠ .approval)
    (hcompletes : completeNode node time context = .ok context') (hopen : Open flow ok nodeId)
    (hrecords : Records flow ok context) : Reached flow ok node ∧ Records flow ok context' := by
  obtain ⟨hmem, rfl⟩ := lastNode_spec hnode
  have hreached := hopen.reached hmem fun happroval => absurd happroval hkind
  refine ⟨hreached, fun id hid => ?_⟩
  rcases recorded_completeNode (hmodest node hmem) hcompletes hid with rfl | hold
  · exact ⟨node, rfl, hreached⟩
  · exact hrecords id hold

theorem walk_arrives {route visited : List String} {n fuel : Nat} {current : FlowExecution}
    (hroute : Route flow now n context nodeId route) (hcontext : current.context = context)
    (hlength : visited.length = n) (hnodup : (visited ++ route).Nodup)
      (hfuel : route.length ≤ fuel) :
    ∃ stop, walk flow now fuel visited current nodeId = .ok stop ∧
      ((∀ node ∈ flow.nodes, node.Modest) → ∀ ok, Open flow ok nodeId → Records flow ok context →
        Ends flow ok current stop) := by
  induction hroute generalizing visited fuel current with
  | approval isNode kind =>
    obtain ⟨_, rfl⟩ := Nat.exists_eq_succ_of_ne_zero (Nat.one_le_iff_ne_zero.1 hfuel)
    have hnew := fun hin => List.disjoint_of_nodup_append hnodup hin List.mem_cons_self
    refine ⟨_, walk_approval isNode hnew kind, fun hmodest ok hopen hrecords => ?_⟩
    exact ⟨rfl, rfl, rfl, hcontext ▸ hrecords, (lastNode_spec isNode).2.symm ▸ hopen⟩
  | final isNode kind completes isLast =>
    obtain ⟨_, rfl⟩ := Nat.exists_eq_succ_of_ne_zero (Nat.one_le_iff_ne_zero.1 hfuel)
    have hnew := fun hin => List.disjoint_of_nodup_append hnodup hin List.mem_cons_self
    rw [← hlength, ← hcontext] at completes
    refine ⟨_, walk_final isNode hnew kind completes isLast, fun hmodest ok hopen hrecords => ?_⟩
    refine ⟨rfl, rfl, rfl, ?_⟩
    exact (reached_turn hmodest isNode kind completes hopen (hcontext ▸ hrecords)).2
  | @on n context context' nodeId _ _ route isNode kind completes isNext _ ih =>
    obtain ⟨_, rfl⟩ := Nat.exists_eq_succ_of_ne_zero
      (Nat.one_le_iff_ne_zero.1 ((Nat.le_add_left 1 route.length).trans hfuel))
    have hnew := fun hin => List.disjoint_of_nodup_append hnodup hin List.mem_cons_self
    have hturn := completes
    rw [← hlength, ← hcontext] at hturn
    rw [walk_on isNode hnew kind hturn isNext]
    have hcurrent : (current.passed nodeId context' (now visited.length)).context = context' := rfl
    obtain ⟨stop, hwalk, hends⟩ := ih hcurrent
      (show (visited ++ [nodeId]).length = n + 1 by simp [hlength])
      (by simpa using hnodup) (Nat.le_of_succ_le_succ hfuel)
    refine ⟨stop, hwalk, fun hmodest ok hopen hrecords => ?_⟩
    obtain ⟨hreached, hrecords'⟩ := reached_turn hmodest isNode kind completes hopen hrecords
    have hrest := hends hmodest ok (hreached.open_next (mem_nextNodes_of_nextNode isNext)) hrecords'
    cases stop <;> exact hrest

theorem route_of_walk {fuel : Nat} {visited : List String} {current : FlowExecution} {stop : Stop}
    (h : walk flow now fuel visited current nodeId = .ok stop) (hne : nodeId ≠ "")
    (hnodup : visited.Nodup) :
    ∃ route, Route flow now visited.length current.context nodeId route ∧
      (visited ++ route).Nodup := by
  induction fuel generalizing visited current nodeId with
  | zero => cases h
  | succ _ ih =>
    by_cases hnew : nodeId ∈ visited
    · simp [walk, if_neg hne, if_pos hnew] at h
    have hsingle : (visited ++ [nodeId]).Nodup :=
      List.nodup_append.2 ⟨hnodup, List.nodup_singleton _, fun a ha b hb heq =>
        hnew (List.mem_singleton.1 hb ▸ heq ▸ ha)⟩
    cases hnode : flow.lastNode nodeId with
    | none =>
      simp [walk, if_neg hne, if_neg hnew, hnode] at h
    | some node =>
      by_cases hkind : node.kind = .approval
      · exact ⟨[nodeId], .approval hnode hkind, hsingle⟩
      simp only [walk, if_neg hne, if_neg hnew, hnode, if_neg hkind] at h
      obtain ⟨_, hcompletes, h⟩ := bind_eq_ok.1 h
      obtain ⟨next, hnext, h⟩ := bind_eq_ok.1 h
      cases next with
      | none => exact ⟨[nodeId], .final hnode hkind hcompletes hnext, hsingle⟩
      | some next =>
        obtain ⟨target, -, htarget⟩ := flow.targets node (lastNode_spec hnode).1 next
          (mem_nextNodes_of_nextNode hnext)
        obtain ⟨route, hroute, hall⟩ := ih h (htarget ▸ target.nodeId_ne_empty) hsingle
        rw [List.length_append] at hroute
        exact ⟨nodeId :: route, .on hnode hkind hcompletes hnext hroute, by simpa using hall⟩

/-- **The loop raises** exactly when the walk does not arrive; its fuel is enough. -/
theorem walk_ok_iff {current : FlowExecution} (hne : nodeId ≠ "") :
    (∃ stop, walk flow now (flow.nodes.length + 1) [] current nodeId = .ok stop) ↔
      Arrives ⟨flow, now, current.context, nodeId⟩ := by
  constructor
  · rintro ⟨stop, h⟩
    exact route_of_walk h hne List.nodup_nil
  · rintro ⟨_, hroute, hnodup⟩
    obtain ⟨stop, hwalk, -⟩ := walk_arrives hroute rfl (show ([] : List String).length = 0 from rfl)
      (by simpa using hnodup) ((route_length hroute hnodup).trans (Nat.le_succ _))
    exact ⟨stop, hwalk⟩

theorem walk_ok_entry : "a" ≠ "" ∧ ∀ flow now (current : FlowExecution),
    (∃ stop, walk flow now (flow.nodes.length + 1) [] current "a" = .ok stop) ↔
      Arrives ⟨flow, now, current.context, "a"⟩ :=
  ⟨by decide, fun _ _ _ => walk_ok_iff (by decide)⟩

/-! ## The invariant -/

/-- The id was drawn. -/
def Store.Drawn (ids : Fresh String) (store : Store) (k : Key) : Prop :=
  ∃ n < store.drawn, k.id = ids.draw n

/-- An execution at its gate, or final; what it records was reached. -/
structure GoodExecution (store : Store) (execution : FlowExecution) : Prop where
  sound : Sound store execution
  gate : execution.status = .waitingApproval ∧ (∃! approval, Pending store execution.key approval) ∨
    execution.status.Final ∧ ¬∃ approval, Pending store execution.key approval

/-- The approval is for an open node of its execution's flow. -/
def GoodApproval (store : Store) (approval : FlowApproval) : Prop :=
  ∃ execution flow, store.executions.get? approval.execution = some execution ∧
    store.flows.get? ⟨approval.key.scope, execution.flowId⟩ = some flow ∧
    Open flow (Approved store approval.execution) approval.nodeId

/-- What every smooth call keeps. -/
structure Inv (ids : Fresh String) (store : Store) : Prop where
  executions : ∀ execution ∈ store.executions.values, GoodExecution store execution
  approvals : ∀ approval ∈ store.approvals.values, GoodApproval store approval
  modest : ∀ flow ∈ store.flows.values, ∀ node ∈ flow.nodes, node.Modest
  drawnFlows : ∀ flow ∈ store.flows.values, store.Drawn ids flow.key
  drawnExecutions : ∀ execution ∈ store.executions.values, store.Drawn ids execution.key
  drawnApprovals : ∀ approval ∈ store.approvals.values, store.Drawn ids approval.key

theorem Inv.gated (hs : Inv ids store) : Gated store := by
  intro execution hmem
  obtain ⟨hsound, hgate⟩ := hs.executions execution hmem
  refine ⟨?_, ?_, hsound⟩
  · rcases hgate with ⟨hwaiting, hunique⟩ | ⟨hfinal, hnone⟩
    · exact iff_of_true hwaiting hunique
    · refine iff_of_false (fun hwaiting => ?_) fun hunique => hnone hunique.exists
      rw [hwaiting] at hfinal
      exact absurd hfinal (by simp [ExecutionStatus.Final])
  · intro hnone
    rcases hgate with ⟨-, hunique⟩ | ⟨hfinal, -⟩
    · exact absurd hunique.exists hnone
    · exact hfinal

/-- A call touches one execution and its approvals. -/
structure Touches (k : Key) (store store' : Store) : Prop where
  flows : store'.flows = store.flows
  executions : ∀ execution, execution.key ≠ k →
    (execution ∈ store'.executions.values ↔ execution ∈ store.executions.values)
  approvals : ∀ approval, approval.execution ≠ k →
    (approval ∈ store'.approvals.values ↔ approval ∈ store.approvals.values)
  approved : ∀ nodeId, Approved store k nodeId → Approved store' k nodeId
  drawn : store.drawn ≤ store'.drawn

theorem Store.Drawn.mono (h : store.Drawn ids k) (hle : store.drawn ≤ store'.drawn) :
    store'.Drawn ids k :=
  let ⟨n, hn, hid⟩ := h
  ⟨n, hn.trans_le hle, hid⟩

theorem not_drawn {scope : Scope} : ¬store.Drawn ids ⟨scope, ids.draw store.drawn⟩ :=
  fun ⟨_, hn, hid⟩ =>
  hn.ne (ids.injective hid.symm)

theorem inv_touches (hs : Inv ids store) (ht : Touches k store store') {execution : FlowExecution}
    (hget : store'.executions.get? k = some execution) (hgood : GoodExecution store' execution)
    (happrovals : ∀ approval ∈ store'.approvals.values, approval.execution = k →
      store'.Drawn ids approval.key ∧ ∀ flow,
        store'.flows.get? ⟨k.scope, execution.flowId⟩ = some flow →
        Open flow (Approved store' k) approval.nodeId)
    (hdrawn : store'.Drawn ids k) : Inv ids store' := by
  have hkey := Table.key_of_get? hget
  have hpending : ∀ k', k' ≠ k → ∀ approval, Pending store' k' approval ↔
      Pending store k' approval := by
    intro _ hk' approval
    exact and_congr_left fun h => ht.approvals approval (h.1 ▸ hk')
  have happroved : ∀ k' nodeId, Approved store k' nodeId → Approved store' k' nodeId := by
    intro k' nodeId h
    by_cases hk' : k' = k
    · exact hk' ▸ ht.approved nodeId (hk' ▸ h)
    · obtain ⟨approval, hmem, hof, hrest⟩ := h
      exact ⟨approval, (ht.approvals approval (hof ▸ hk')).2 hmem, hof, hrest⟩
  refine ⟨fun e he => ?_, fun approval ha => ?_, ht.flows ▸ hs.modest, fun flow hflow => ?_,
    fun e he => ?_, fun approval ha => ?_⟩
  · by_cases hek : e.key = k
    · have heq : execution = e := by
        rw [Table.mem_values, hek, hget] at he
        exact Option.some.inj he
      exact heq ▸ hgood
    · obtain ⟨⟨flow, hflow, hrecords⟩, hgate⟩ := hs.executions e ((ht.executions e hek).1 he)
      refine ⟨⟨flow, ht.flows ▸ hflow, fun id hid => ?_⟩, ?_⟩
      · obtain ⟨node, hnode, hreached⟩ := hrecords id hid
        exact ⟨node, hnode, hreached.mono (happroved _)⟩
      · simp only [hpending _ hek]
        exact hgate
  · by_cases hak : approval.execution = k
    · obtain ⟨flow, hflow, -⟩ := hgood.sound
      rw [hkey] at hflow
      have hscope : approval.key.scope = k.scope := by
        rw [← hak]
        rfl
      refine ⟨execution, flow, hak ▸ hget, hscope ▸ hflow, ?_⟩
      exact hak ▸ (happrovals approval ha hak).2 flow hflow
    · obtain ⟨e, flow, he, hflow, hopen⟩ := hs.approvals approval ((ht.approvals approval hak).1 ha)
      refine ⟨e, flow, ?_, ht.flows ▸ hflow, hopen.mono (happroved _)⟩
      have hekey := Table.key_of_get? he
      have hmem := (ht.executions e (hekey ▸ hak)).2 (Table.mem_values.2 (hekey ▸ he))
      exact hekey ▸ Table.mem_values.1 hmem
  · rw [ht.flows] at hflow
    exact (hs.drawnFlows flow hflow).mono ht.drawn
  · by_cases hek : e.key = k
    · exact hek ▸ hdrawn
    · exact (hs.drawnExecutions e ((ht.executions e hek).1 he)).mono ht.drawn
  · by_cases hak : approval.execution = k
    · exact (happrovals approval ha hak).1
    · exact (hs.drawnApprovals approval ((ht.approvals approval hak).1 ha)).mono ht.drawn

/-! ## What a call stores -/

section Stores

variable {base : Store} {execution : FlowExecution} {approval : FlowApproval} {flowId : String}

theorem Touches.refl (k : Key) (store : Store) : Touches k store store :=
  ⟨rfl, fun _ _ => .rfl, fun _ _ => .rfl, fun _ h => h, le_rfl⟩

theorem Touches.draw (h : Touches k store base) : Touches k store base.draw :=
  ⟨h.flows, h.executions, h.approvals, h.approved, h.drawn.trans (Nat.le_succ _)⟩

theorem Touches.putExecution (h : Touches k store base) (hkey : execution.key = k) :
    Touches k store (base.putExecution execution) where
  flows := h.flows
  executions e he := by
    rw [← h.executions e he]
    refine Table.mem_values_put.trans ⟨?_, fun hmem => .inr ⟨fun hk => he (hk.trans hkey), hmem⟩⟩
    rintro (rfl | ⟨-, hmem⟩)
    · exact absurd hkey he
    · exact hmem
  approvals := h.approvals
  approved := h.approved
  drawn := h.drawn

theorem Touches.putApproval (h : Touches k store base) (hof : approval.execution = k)
    (hplace : ∀ a ∈ base.approvals.values, a.key = approval.key →
      a.execution = k ∧ a.status = .pending) : Touches k store (base.putApproval approval) where
  flows := h.flows
  executions := h.executions
  approvals a ha := by
    rw [← h.approvals a ha]
    refine Table.mem_values_put.trans ⟨?_, fun hmem =>
      .inr ⟨fun hkey => ha (hplace a hmem hkey).1, hmem⟩⟩
    rintro (rfl | ⟨-, hmem⟩)
    · exact absurd hof ha
    · exact hmem
  approved nodeId hok := by
    obtain ⟨a, hmem, hak, hnode, hstatus⟩ := h.approved nodeId hok
    refine ⟨a, Table.mem_values_put.2 (.inr ⟨fun hkey => ?_, hmem⟩), hak, hnode, hstatus⟩
    have hpending := (hplace a hmem hkey).2
    simp [hstatus] at hpending
  drawn := h.drawn

/-- The store before the last `put`s of a call: the execution has no pending approval. -/
structure Ready (ids : Fresh String) (store base : Store) (k : Key) (flow : FlowDefinition)
    (flowId : String) : Prop where
  touches : Touches k store base
  isFlow : base.flows.get? ⟨k.scope, flowId⟩ = some flow
  settled : ¬∃ approval, Pending base k approval
  approvals : ∀ approval ∈ base.approvals.values, approval.execution = k →
    base.Drawn ids approval.key ∧ Open flow (Approved base k) approval.nodeId
  drawn : base.Drawn ids k

section

variable (hb : Ready ids store base k flow flowId) (hs : Inv ids store)
include hb hs

theorem Ready.final (hkey : execution.key = k) (hflow : execution.flowId = flowId)
    (hfinal : execution.status.Final)
    (hrecords : Records flow (Approved base k) execution.context) :
    Inv ids (base.putExecution execution) := by
  have hget : (base.putExecution execution).executions.get? k = some execution :=
    hkey ▸ Table.get?_put_self _ _
  refine inv_touches hs (hb.touches.putExecution hkey) hget ⟨⟨flow, ?_, hkey ▸ hrecords⟩, ?_⟩
    (fun approval ha hak => ?_) hb.drawn
  · rw [hkey, hflow]
    exact hb.isFlow
  · exact .inr ⟨hfinal, hkey ▸ hb.settled⟩
  · obtain ⟨hdrawn, hopen⟩ := hb.approvals approval ha hak
    refine ⟨hdrawn, fun flow' hflow' => ?_⟩
    rw [hflow, show (base.putExecution execution).flows = base.flows from rfl, hb.isFlow] at hflow'
    cases hflow'
    exact hopen

theorem Ready.waiting (hdrawn : ∀ a ∈ base.approvals.values, base.Drawn ids a.key)
    (hkey : execution.key = k) (hflow : execution.flowId = flowId)
    (hwaiting : execution.status = .waitingApproval)
    (hrecords : Records flow (Approved base k) execution.context)
    (hopen : Open flow (Approved base k) node.nodeId) :
    Inv ids (((base.putApproval
      (newApproval k.scope (ids.draw base.drawn) execution node time)).putExecution
        execution).draw) := by
  set approval := newApproval k.scope (ids.draw base.drawn) execution node time with happroval
  have hof : approval.execution = k := by
    show (⟨k.scope, execution.key.id⟩ : Key) = k
    rw [hkey]
  have hplace : ∀ a ∈ base.approvals.values, a.key = approval.key →
      a.execution = k ∧ a.status = .pending := fun a ha hak =>
    absurd (hak ▸ hdrawn a ha) not_drawn
  have happroved := ((Touches.refl k base).putApproval hof hplace).approved
  have hnew : ∀ a, a ∈ (base.putApproval approval).approvals.values →
      a = approval ∨ a ∈ base.approvals.values := fun a ha =>
    (Table.mem_values_put.1 ha).imp_right And.right
  refine inv_touches hs ((hb.touches.putApproval hof hplace).putExecution hkey).draw
    (show _ = some execution from hkey ▸ Table.get?_put_self _ _)
    ⟨⟨flow, ?_, fun id hid => ?_⟩, .inl ⟨hwaiting, approval, ?_, ?_⟩⟩ (fun a ha hak => ?_) ?_
  · rw [hkey, hflow]
    exact hb.isFlow
  · obtain ⟨node, hnode, hreached⟩ := hrecords id hid
    exact ⟨node, hnode, hreached.mono (hkey ▸ happroved)⟩
  · exact ⟨Table.mem_values_put.2 (.inl rfl), hof.trans hkey.symm, rfl⟩
  · rintro a ⟨ha, hak, hpending⟩
    refine (hnew a ha).resolve_right fun hmem => hb.settled ⟨a, hmem, hak.trans hkey, hpending⟩
  · have hsame : ∀ flow', base.flows.get? ⟨k.scope, execution.flowId⟩ = some flow' → flow = flow' :=
      fun flow' hflow' => by
        rw [hflow, hb.isFlow] at hflow'
        exact Option.some.inj hflow'
    rcases hnew a ha with rfl | hmem
    · refine ⟨⟨base.drawn, Nat.lt_succ_self _, rfl⟩, fun flow' hflow' => ?_⟩
      exact hsame flow' hflow' ▸ hopen.mono happroved
    · obtain ⟨hdrawn, hopen⟩ := hb.approvals a hmem hak
      refine ⟨hdrawn.mono (Nat.le_succ _), fun flow' hflow' => ?_⟩
      exact hsame flow' hflow' ▸ hopen.mono happroved
  · exact hb.drawn.mono (Nat.le_succ _)

theorem Ready.advance (hdrawn : ∀ a ∈ base.approvals.values, base.Drawn ids a.key)
    (hmodest : ∀ node ∈ flow.nodes, node.Modest) (hkey : execution.key = k)
    (hflow : execution.flowId = flowId) (harrives : Arrives ⟨flow, now, execution.context, nodeId⟩)
    (hopen : Open flow (Approved base k) nodeId)
    (hrecords : Records flow (Approved base k) execution.context) :
    ∃ store', advance ids k.scope flow now base execution nodeId = .ok store' ∧ Inv ids store' := by
  obtain ⟨_, hroute, hnodup⟩ := harrives
  obtain ⟨stop, hwalk, hends⟩ :=
    walk_arrives hroute rfl (show ([] : List String).length = 0 from rfl)
    (by simpa using hnodup) ((route_length hroute hnodup).trans (Nat.le_succ _))
  replace hends := hends hmodest _ hopen hrecords
  unfold ControlPlane.advance
  rw [hwalk]
  cases stop with
  | approval _ e =>
    obtain ⟨hekey, heflow, hwaiting, hrec, hgate⟩ := hends
    exact ⟨_, rfl, hb.waiting hs hdrawn (hekey.trans hkey) (heflow.trans hflow) hwaiting hrec hgate⟩
  | completed e =>
    obtain ⟨hekey, heflow, hcompleted, hrec⟩ := hends
    exact ⟨_, rfl, hb.final hs (hekey.trans hkey) (heflow.trans hflow) (.inl hcompleted) hrec⟩
  | nowhere e => exact hends.elim

end

end Stores

/-! ## The calls -/

theorem inv_createFlow (hs : Inv ids store) {scope : Scope} {body : CreateFlowRequest}
    (hmodest : ∀ node ∈ body.nodes, node.Modest)
    (h : createFlow ids scope body store = .ok store') : Inv ids store' := by
  unfold createFlow at h
  split at h
  · split at h
    · cases h
      have hold : ∀ {k flow}, store.flows.get? k = some flow →
          ((store.flows.put ⟨⟨scope, ids.draw store.drawn⟩, body.nodes, body.entryNodeId, ‹_›,
            ‹_›⟩).get? k = some flow) := by
        intro k flow hget
        have hkey := Table.key_of_get? hget
        have hmem := hs.drawnFlows flow (Table.mem_values.2 (hkey ▸ hget))
        rw [Table.get?_put_of_ne]
        · exact hget
        · rintro rfl
          exact not_drawn (hkey ▸ hmem)
      refine ⟨fun e he => ?_, fun a ha => ?_, fun flow hflow => ?_, fun flow hflow => ?_,
        fun e he => (hs.drawnExecutions e he).mono (Nat.le_succ _),
        fun a ha => (hs.drawnApprovals a ha).mono (Nat.le_succ _)⟩
      · obtain ⟨⟨flow, hflow, hrecords⟩, hgate⟩ := hs.executions e he
        exact ⟨⟨flow, hold hflow, hrecords⟩, hgate⟩
      · obtain ⟨e, flow, he, hflow, hopen⟩ := hs.approvals a ha
        exact ⟨e, flow, he, hold hflow, hopen⟩
      · rcases Table.mem_values_put.1 hflow with rfl | ⟨-, hflow⟩
        · exact hmodest
        · exact hs.modest flow hflow
      · rcases Table.mem_values_put.1 hflow with rfl | ⟨-, hflow⟩
        · exact ⟨store.drawn, Nat.lt_succ_self _, rfl⟩
        · exact (hs.drawnFlows flow hflow).mono (Nat.le_succ _)
    · cases h
  · cases h

theorem inv_executeFlow (hs : Inv ids store) {scope : Scope} {flowId : String} {started : ℚ}
    (harrives : ∀ flow, store.flows.get? ⟨scope, flowId⟩ = some flow →
      Arrives ⟨flow, now, context, flow.entryNodeId⟩)
    (hunforged : ∀ nodeId, ¬Recorded context nodeId) :
    Inv ids (executeFlow ids scope flowId context started now store).1 := by
  unfold executeFlow
  cases hget : store.flows.get? ⟨scope, flowId⟩ with
  | none => exact hs
  | some flow =>
    have hkey : flow.key.id = flowId := congrArg Key.id (Table.key_of_get? hget)
    have hmem : flow ∈ store.flows.values :=
      Table.mem_values.2 ((Table.key_of_get? hget).symm ▸ hget)
    set execution := newExecution scope (ids.draw store.drawn) flow context started
    set base := (store.putExecution execution).draw
    -- there is no approval of the execution yet
    have hnone : ∀ approval ∈ base.approvals.values, approval.execution ≠ execution.key := by
      intro approval ha hof
      obtain ⟨e, -, he, -⟩ := hs.approvals approval ha
      have hekey := Table.key_of_get? he
      have hdrawn := hs.drawnExecutions e (Table.mem_values.2 (hekey ▸ he))
      rw [hekey, hof] at hdrawn
      exact not_drawn hdrawn
    have hready : Ready ids store base execution.key flow flowId :=
      ⟨((Touches.refl _ _).putExecution rfl).draw, hget,
        fun ⟨a, ha, hof, _⟩ => hnone a ha hof, fun a ha hof => absurd hof (hnone a ha),
        ⟨store.drawn, Nat.lt_succ_self _, rfl⟩⟩
    obtain ⟨_, hadvance, _⟩ := hready.advance hs
      (fun a ha => (hs.drawnApprovals a ha).mono (Nat.le_succ _)) (hs.modest flow hmem) rfl hkey
      (harrives flow hget) (.inl rfl) fun id hid => absurd hid (hunforged id)
    show Inv ids (outcome base (ControlPlane.advance ids scope flow now base execution _)).1
    rwa [show ControlPlane.advance ids scope flow now base execution _ = _ from hadvance]

section Decide

variable {approval : FlowApproval} {execution : FlowExecution}

theorem pending_unique (hs : Inv ids store) (hexec : execution ∈ store.executions.values)
    (ha : Pending store execution.key approval) {a : FlowApproval}
    (h : Pending store execution.key a) : a = approval := by
  rcases (hs.executions execution hexec).gate with ⟨-, hunique⟩ | ⟨-, hnone⟩
  · exact hunique.unique h ha
  · exact absurd ⟨approval, ha⟩ hnone

theorem ready_decide (hs : Inv ids store) (hmem : approval ∈ store.approvals.values)
    (hpending : approval.status = .pending)
    (hexecution : store.executions.get? approval.execution = some execution)
    (hflow : store.flows.get? ⟨approval.key.scope, execution.flowId⟩ = some flow)
    (hopen : Open flow (Approved store approval.execution) approval.nodeId) (approved : Bool)
    (comment principalId : String) (decidedAt : ℚ) :
    let base := store.putApproval (approval.decide approved comment principalId decidedAt)
    Ready ids store base approval.execution flow execution.flowId ∧
      Records flow (Approved base approval.execution) execution.context ∧
      Open flow (Approved base approval.execution) approval.nodeId := by
  set decided := approval.decide approved comment principalId decidedAt with hdecided
  intro base
  have hkey := Table.key_of_get? hexecution
  have hexec : execution ∈ store.executions.values := Table.mem_values.2 (hkey.symm ▸ hexecution)
  have hplace : ∀ a ∈ store.approvals.values, a.key = decided.key → a = approval := by
    intro a ha hak
    rw [Table.mem_values, hak, show decided.key = approval.key from rfl,
      Table.mem_values.1 hmem] at ha
    exact (Option.some.inj ha).symm
  have hnew : ∀ a ∈ base.approvals.values, a = decided ∨ a.key ≠ decided.key ∧
      a ∈ store.approvals.values := fun a ha => Table.mem_values_put.1 ha
  have htouches : Touches approval.execution store base :=
    (Touches.refl _ _).putApproval rfl fun a ha hak => by
      rw [hplace a ha hak]
      exact ⟨rfl, hpending⟩
  refine ⟨⟨htouches, hflow, ?_, ?_, hkey ▸ hs.drawnExecutions execution hexec⟩, ?_,
    hopen.mono htouches.approved⟩
  · rintro ⟨a, ha, hof, hstatus⟩
    rcases hnew a ha with rfl | ⟨hne, ha⟩
    · cases approved <;> cases hstatus
    · have hone : Pending store execution.key approval := ⟨hmem, hkey.symm, hpending⟩
      exact hne (pending_unique hs hexec hone ⟨ha, hof.trans hkey.symm, hstatus⟩ ▸ rfl)
  · intro a ha hof
    rcases hnew a ha with rfl | ⟨-, ha⟩
    · exact ⟨hs.drawnApprovals approval hmem, hopen.mono htouches.approved⟩
    · obtain ⟨e, _, he, hflow', hopen'⟩ := hs.approvals a ha
      have hascope : a.key.scope = approval.key.scope := by
        have h : a.execution.scope = approval.execution.scope := by rw [hof]
        exact h
      rw [hof, hexecution] at he
      cases he
      rw [hascope, hflow] at hflow'
      cases hflow'
      exact ⟨hs.drawnApprovals a ha, (hof ▸ hopen').mono htouches.approved⟩
  · obtain ⟨_, hflow', hrec⟩ := (hs.executions execution hexec).sound
    rw [show execution.key.scope = approval.key.scope by rw [hkey]; rfl, hflow] at hflow'
    cases hflow'
    intro id hid
    obtain ⟨node, hnode, hreached⟩ := hrec id hid
    exact ⟨node, hnode, (hkey ▸ hreached).mono htouches.approved⟩

theorem inv_resume {base : Store} {approved : Bool} (hs : Inv ids store)
    (hready : Ready ids store base approval.execution flow execution.flowId)
    (hrecords : Records flow (Approved base approval.execution) execution.context)
    (hopen : Open flow (Approved base approval.execution) approval.nodeId)
    (happroved : approved = true → Approved base approval.execution approval.nodeId)
    (hdrawn : ∀ a ∈ base.approvals.values, base.Drawn ids a.key)
    (hkey : execution.key = approval.execution)
    (harrives : ∀ node next, approved = true → flow.firstNode approval.nodeId = some node →
      node.nextNodes.head? = some next → Arrives ⟨flow, now, execution.context, next⟩) :
    Inv ids (resume ids approval.key.scope approval approved now base execution).1 := by
  have hsettled : Inv ids (base.putExecution (execution.settle approved (now 0))) := by
    refine hready.final hs hkey rfl ?_ hrecords
    cases approved
    · exact .inr rfl
    · exact .inl rfl
  have hflow : base.flows.get? ⟨approval.key.scope, execution.flowId⟩ = some flow := hready.isFlow
  unfold resume
  rw [hflow]
  cases approved with
  | false => exact hsettled
  | true =>
    obtain ⟨node, hmem, hid⟩ := hopen.exists_node
    cases hfirst : flow.firstNode approval.nodeId with
    | none => exact absurd hid (by simpa using List.find?_eq_none.1 hfirst node hmem)
    | some node =>
      obtain ⟨hmem, hid⟩ := firstNode_spec hfirst
      cases hhead : node.nextNodes.head? with
      | none => simpa only [hfirst, hhead] using hsettled
      | some next =>
        have hnext := List.mem_of_mem_head? hhead
        obtain ⟨target, -, htarget⟩ := flow.targets node hmem next hnext
        have hreached := (hid.symm ▸ hopen).reached hmem fun _ => hid.symm ▸ happroved rfl
        have hflowMem : flow ∈ store.flows.values := by
          have hfkey := Table.key_of_get? hflow
          rw [hready.touches.flows] at hflow
          exact Table.mem_values.2 (hfkey.symm ▸ hflow)
        obtain ⟨_, hadvance, _⟩ := hready.advance hs hdrawn (hs.modest flow hflowMem)
          (show ({ execution with status := .running } : FlowExecution).key = _ from hkey) rfl
          (harrives node next rfl hfirst hhead) (hreached.open_next hnext) hrecords
        simp only [hfirst, hhead, if_neg (htarget ▸ target.nodeId_ne_empty)]
        rwa [show advance ids approval.key.scope flow now base _ next = _ from hadvance]

theorem inv_decideFlowApproval (hs : Inv ids store) {scope : Scope}
    {approvalId comment principalId : String} {approved : Bool} {decidedAt : ℚ}
    (harrives : ∀ start ∈ starts store
      (.decideFlowApproval scope approvalId approved comment principalId decidedAt now),
      Arrives start) :
    Inv ids (decideFlowApproval ids scope approvalId approved comment principalId decidedAt now
      store).1 := by
  unfold decideFlowApproval
  cases hget : store.approvals.get? ⟨scope, approvalId⟩ with
  | none => exact hs
  | some approval =>
    by_cases hpending : approval.status = .pending
    · have hakey := Table.key_of_get? hget
      obtain rfl : approval.key.scope = scope := congrArg Key.scope hakey
      have hmem : approval ∈ store.approvals.values := Table.mem_values.2 (hakey.symm ▸ hget)
      obtain ⟨execution, flow, hexecution, hflow, hopen⟩ := hs.approvals approval hmem
      obtain ⟨hready, hrecords, hopen⟩ := ready_decide hs hmem hpending hexecution hflow hopen
        approved comment principalId decidedAt
      set base := store.putApproval (approval.decide approved comment principalId decidedAt)
      have happroved : approved = true → Approved base approval.execution approval.nodeId := by
        rintro rfl
        exact ⟨_, Table.mem_values_put.2 (.inl rfl), rfl, rfl, rfl⟩
      have hdrawn : ∀ a ∈ base.approvals.values, base.Drawn ids a.key := by
        intro a ha
        rcases Table.mem_values_put.1 ha with rfl | ⟨-, ha⟩
        · exact hs.drawnApprovals approval hmem
        · exact hs.drawnApprovals a ha
      have hroute : ∀ node next, approved = true → flow.firstNode approval.nodeId = some node →
          node.nextNodes.head? = some next → Arrives ⟨flow, now, execution.context, next⟩ := by
        rintro _ next rfl hfirst hhead
        refine harrives ⟨flow, now, execution.context, next⟩ ?_
        simp [starts, hget, hpending, hexecution, hflow, hfirst, hhead]
      have hresume := inv_resume hs hready hrecords hopen happroved hdrawn
        (Table.key_of_get? hexecution) hroute
      simp only [hpending, ne_eq, not_true, if_false]
      rwa [show base.executions.get? ⟨approval.key.scope, approval.executionId⟩ =
        some execution from hexecution]
    · simp only [ne_eq, hpending, not_false_eq_true, if_true]
      exact hs

end Decide

theorem inv_step (hs : Inv ids store) {act : Act} (hsmooth : Smooth store act)
    (h : step ids store act = some store') : Inv ids store' := by
  cases act with
  | createFlow scope body =>
    cases hcreate : createFlow ids scope body store with
    | ok =>
      simp only [step, hcreate] at h
      cases h
      exact inv_createFlow hs hsmooth.unforged hcreate
    | error e =>
      simp only [step, hcreate] at h
      cases h
      exact hs
  | executeFlow _ _ context _ now =>
    cases h
    refine inv_executeFlow hs (fun flow hget => ?_) hsmooth.unforged.1
    exact hsmooth.arrives ⟨flow, now, context, flow.entryNodeId⟩ (by simp [starts, hget])
  | decideFlowApproval =>
    cases h
    exact inv_decideFlowApproval hs hsmooth.arrives

theorem inv_empty : Inv ids .empty := by
  constructor <;> exact fun _ h => absurd h List.not_mem_nil

/-- **No execution is stuck or past its gate**, in a run of smooth calls. -/
theorem flows_gated (ids : Fresh String) (acts : List Act)
    (h : Along (step ids) Smooth .empty acts) : ∀ store ∈ states (step ids) .empty acts,
    Gated store :=
  fun store hstore => Inv.gated
    (invariant_states (I := Inv ids) (fun _ _ _ hs hsmooth hstep => inv_step hs hsmooth hstep)
      inv_empty h store hstore)

/-- A node that goes on with itself. -/
def circle : CreateFlowRequest := ⟨[⟨"aa", .run, .empty, ["aa"], by decide⟩], "aa"⟩

/-- The circle is created and executed. -/
def circleActs : List Act :=
  [.createFlow ⟨"t", "p"⟩ circle,
   .executeFlow ⟨"t", "p"⟩ (Fresh.counted.draw 0) .empty 0 fun n => n]

/-- **The execution is running for good**, and waits for nobody. -/
theorem flows_counterexample :
    ¬∀ store ∈ states (step .counted) .empty circleActs, Gated store := by
  intro h
  obtain ⟨store, hexec, hstore⟩ := Option.map_eq_some_iff.1
    (show (exec (step .counted) .empty circleActs).map (fun store =>
      (store.executions.values.map (·.status), store.approvals.values.length)) =
        some ([.running], 0) by decide +kernel)
  obtain ⟨hstatus, hlength⟩ := Prod.mk.inj hstore
  obtain ⟨execution, hmem, hrunning⟩ := List.mem_map.1 (hstatus ▸ List.mem_singleton_self _)
  have hfinal := (h store (mem_states_of_exec hexec) execution hmem).2.1 fun ⟨approval, hp, _⟩ => by
    rw [List.length_eq_zero_iff.1 hlength] at hp
    cases hp
  rw [hrunning] at hfinal
  exact absurd hfinal (by simp [ExecutionStatus.Final])

/-- A node, and a gate after it. -/
def gate : CreateFlowRequest :=
  ⟨[⟨"aa", .run, .empty, ["bb"], by decide⟩, ⟨"bb", .approval, .empty, [], by decide⟩], "aa"⟩

/-- The gate is reached and opened. -/
def gateActs : List Act :=
  [.createFlow ⟨"t", "p"⟩ gate, .executeFlow ⟨"t", "p"⟩ (Fresh.counted.draw 0) .empty 0 fun n => n,
   .decideFlowApproval ⟨"t", "p"⟩ (Fresh.counted.draw 2) true "" "alice" 5 fun n => n]

theorem flows_gated_gate : Along (step .counted) Smooth .empty gateActs ∧
    ∀ store ∈ states (step .counted) .empty gateActs, Gated store := by
  have h : Along (step .counted) Smooth .empty gateActs := by
    refine ⟨⟨nofun, ?_⟩, ?_⟩
    · intro node hnode _ hfields
      have hempty : ∀ node ∈ gate.nodes, node.config = .empty := by simp [gate]
      simp [hempty node hnode] at hfields
    · rintro s' ⟨⟩
      refine ⟨⟨?_, ?_⟩, ?_⟩
      · rintro start ⟨⟩
        exact ⟨["aa", "bb"], .on rfl (by decide) rfl rfl (.approval rfl rfl), by decide⟩
      · exact ⟨fun _ ⟨_, hnodes, _⟩ => (Option.not_mem_none _ hnodes).elim, rfl⟩
      · rintro _ ⟨⟩
        refine ⟨⟨?_, trivial⟩, fun _ _ => trivial⟩
        rintro _ ⟨⟩
  exact ⟨h, flows_gated .counted gateActs h⟩

end Scenara.ControlPlane
