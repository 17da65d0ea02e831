import Scenara.Pipeline.Validate

/-!
# Execution never misses an input

`execute` runs the nodes in the stored order and looks up every input source among the outputs
produced so far.
-/

namespace Scenara.Pipeline

open Scenara.Core

variable {V D X : Type} {operators : Dict String OperatorDefinition} {p : PipelinePayload V}
  {order : List String}

/-! ## What the claim is about -/

/-- The operators return at least their declared outputs. -/
def ReturnsDeclared (operators : Dict String OperatorDefinition) (p : PipelinePayload V)
    (environment : Environment V X) : Prop :=
  ∀ node ∈ p.nodes, ∀ definition, operators.get? node.operatorId = some definition →
    ∀ attempt inputs parameters result,
      environment.execute node.nodeId attempt inputs parameters = .ok (some result) →
        ∀ name, definition.outputTypes.get? name ≠ none → result.get? name ≠ none

/-- No execution looks up a source that is not there, and the final output always is. -/
def NeverMissing [DecidableEq D] (sha256 : PipelinePayload V → D) (r : Registry V D)
    (p : PipelineDefinition V) : Prop :=
  ∀ (X : Type) (environment : Environment V X) (initialInputs : Dict String X)
    (runParameters : Dict String V),
    initialInputs.get? "$media.bytes" ≠ none → initialInputs.get? "$media.input" ≠ none →
      ReturnsDeclared r.operators p.toPipelinePayload environment →
        (∀ key, execute sha256 r p environment initialInputs runParameters ≠
          .error (.keyError key)) ∧
          ∀ outputs, runNodes r p environment initialInputs runParameters = .ok outputs →
            outputs.get? p.output ≠ none

/-- Every source is a media input, or is declared by a node that comes before the consumer. -/
def ProducersFirst (operators : Dict String OperatorDefinition) (p : PipelinePayload V) : Prop :=
  ∀ node ∈ p.nodes, ∀ source ∈ node.inputs.values,
    (source = "$media.bytes" ∨ source = "$media.input") ∨
      ∃ producer ∈ p.nodes, Declares operators producer source ∧
        Before (Recorded p) producer.nodeId node.nodeId

/-- A media input, or declared by one of the nodes `done`. -/
def Produced (operators : Dict String OperatorDefinition) (p : PipelinePayload V)
    (done : List String) (source : String) : Prop :=
  (source = "$media.bytes" ∨ source = "$media.input") ∨
    ∃ node ∈ p.nodes, node.nodeId ∈ done ∧ Declares operators node source

/-- `nodes` of `execute`. -/
def PipelinePayload.nodeTable (p : PipelinePayload V) : Dict String (PipelineNode V) :=
  Dict.ofList (p.nodes.map fun node => (node.nodeId, node))

theorem get?_nodeTable (hnodup : p.nodeIds.Nodup) (id : String) (node : PipelineNode V) :
    p.nodeTable.get? id = some node ↔ node ∈ p.nodes ∧ node.nodeId = id := by
  have hkeys : ((p.nodes.map fun node => (node.nodeId, node)).map Prod.fst).Nodup := by
    rwa [List.map_map]
  unfold PipelinePayload.nodeTable
  rw [← Dict.mem_entries, Dict.entries_ofList hkeys, List.mem_map]
  constructor
  · rintro ⟨a, ha, heq⟩
    cases heq
    exact ⟨ha, rfl⟩
  · rintro ⟨hnode, rfl⟩
    exact ⟨node, hnode, rfl⟩

/-! ## One node -/

section Node

variable {nodes : Dict String (PipelineNode V)} {environment : Environment V X}
  {runParameters : Dict String V} {outputs outputs' : Dict String X} {id : String}

theorem runAttempts_keyError {R : Type} {operatorId key : String}
    {answer : Nat → Except Failure (Option R)} {rest : Nat} {attempt : Nat} :
    runAttempts operatorId answer attempt rest ≠ .error (.keyError key) := by
  induction rest generalizing attempt with
  | zero => simp [runAttempts]
  | succ rest ih =>
    unfold runAttempts
    cases answer attempt with
    | ok => simp
    | error failure =>
      cases failure with
      | timedOut | failed => by_cases hrest : rest = 0 <;> simp [hrest, ih]
      | domainUnavailable | interrupted => simp

theorem gatherInputs_spec (inputs : List (String × String)) :
    (∀ values, gatherInputs outputs inputs = .ok values →
        ∀ source ∈ inputs.map Prod.snd, outputs.get? source ≠ none) ∧
      ∀ e, gatherInputs outputs inputs = .error e →
        ∃ source ∈ inputs.map Prod.snd, outputs.get? source = none ∧ e = .keyError source := by
  induction inputs with
  | nil => simp [gatherInputs]
  | cons input inputs ih =>
    obtain ⟨_, source⟩ := input
    unfold gatherInputs lookup
    cases hget : outputs.get? source with
    | none => simp [bind, Except.bind, hget]
    | some value =>
      cases hrest : gatherInputs outputs inputs with
      | error e =>
        obtain ⟨s, hs, hnone, rfl⟩ := ih.2 e hrest
        refine ⟨by simp [bind, Except.bind], fun e' he => ⟨s, List.mem_cons_of_mem _ hs, hnone, ?_⟩⟩
        simp only [bind, Except.bind, Except.error.injEq] at he
        exact he.symm
      | ok values =>
        refine ⟨fun _ _ s hs => ?_, by simp [bind, Except.bind]⟩
        rcases List.mem_cons.1 hs with rfl | hs
        · rw [hget]
          exact Option.some_ne_none value
        · exact ih.1 values hrest s hs

theorem get?_addResult (nodeId : String) (result : Dict String X) (source : String) :
    (addResult nodeId outputs result).get? source ≠ none ↔
      outputs.get? source ≠ none ∨ ∃ name, result.get? name ≠ none ∧
      source = outputKey nodeId name := by
  unfold addResult
  rw [get?_addOutputs]
  simp [Dict.mem_keys]

theorem executeNode_ok
    (h : executeNode operators nodes environment runParameters outputs id = .ok outputs') :
    ∃ node definition result, nodes.get? id = some node ∧
      operators.get? node.operatorId = some definition ∧
      (∀ source ∈ node.inputs.values, outputs.get? source ≠ none) ∧
      (∀ name, definition.outputTypes.get? name ≠ none → result.get? name ≠ none) ∧
      outputs' = addResult node.nodeId outputs result := by
  unfold executeNode lookup at h
  cases hcheck : environment.checkpoint id with
  | some => simp [hcheck] at h
  | none =>
    cases hnode : nodes.get? id with
    | none => simp [hcheck, hnode, bind, Except.bind] at h
    | some node =>
      cases hop : operators.get? node.operatorId with
      | none => simp [hcheck, hnode, hop, bind, Except.bind] at h
      | some definition =>
        cases hin : gatherInputs outputs node.inputs.entries with
        | error e => simp [hcheck, hnode, hop, hin, bind, Except.bind] at h
        | ok inputs =>
          simp only [hcheck, hnode, hop, hin, bind, Except.bind] at h
          split at h
          · cases h
          · split at h
            · cases h
            · rename_i result _
              split_ifs at h with hmissing
              cases h
              refine ⟨node, definition, result, rfl, hop, (gatherInputs_spec _).1 inputs hin,
                fun name hname hnone => hmissing fun hnil => ?_, rfl⟩
              have hmem : name ∈ sorted ((definition.outputTypes.entries.map Prod.fst).filter
                  fun name => result.get? name = none) := by
                rw [mem_sorted, List.mem_filter, Dict.mem_keys]
                exact ⟨hname, decide_eq_true hnone⟩
              rw [hnil] at hmem
              exact List.not_mem_nil hmem

theorem executeNode_keyError {key : String}
    (h : executeNode operators nodes environment runParameters outputs id =
      .error (.keyError key)) :
    nodes.get? id = none ∨ ∃ node, nodes.get? id = some node ∧
      (operators.get? node.operatorId = none ∨
        ∃ source ∈ node.inputs.values, outputs.get? source = none) := by
  unfold executeNode lookup at h
  cases hcheck : environment.checkpoint id with
  | some => simp [hcheck] at h
  | none =>
    cases hnode : nodes.get? id with
    | none => exact .inl rfl
    | some node =>
      refine .inr ⟨node, rfl, ?_⟩
      cases hop : operators.get? node.operatorId with
      | none => exact .inl rfl
      | some =>
        cases hin : gatherInputs outputs node.inputs.entries with
        | error e =>
          obtain ⟨source, hsource, hnone, -⟩ := (gatherInputs_spec _).2 e hin
          exact .inr ⟨source, hsource, hnone⟩
        | ok =>
          simp only [hcheck, hnode, hop, hin, bind, Except.bind] at h
          split at h
          · rename_i hrun
            cases h
            exact absurd hrun runAttempts_keyError
          · split at h
            · cases h
            · split_ifs at h
              cases h

end Node

/-! ## The loop -/

section Loop

variable {environment : Environment V X} {runParameters : Dict String V}
  {initial outputs : Dict String X}

theorem produced_foldlM (hvalid : Validated operators p order)
    (hbytes : initial.get? "$media.bytes" ≠ none) (hinput : initial.get? "$media.input" ≠ none)
    {done : List String}
    (h : done.foldlM (executeNode operators p.nodeTable environment runParameters) initial =
      .ok outputs) (source : String) (hsource : Produced operators p done source) :
    outputs.get? source ≠ none := by
  refine ok_foldlM (I := fun done (outputs : Dict String X) =>
    ∀ source, Produced operators p done source → outputs.get? source ≠ none) done
    (fun done id outputs outputs' _ ih hrun source hsource => ?_) ?_ h source hsource
  · obtain ⟨node, _, _, hnode, hop, -, hresult, rfl⟩ := executeNode_ok hrun
    obtain ⟨hmem, rfl⟩ := (get?_nodeTable hvalid.nodup _ node).1 hnode
    rw [get?_addResult]
    rcases hsource with hmedia | ⟨producer, hproducer, hdone, hdeclares⟩
    · exact .inl (ih source (.inl hmedia))
    · rcases List.mem_append.1 hdone with hdone | hdone
      · exact .inl (ih source (.inr ⟨producer, hproducer, hdone, hdeclares⟩))
      · have hsame : producer = node :=
          List.inj_on_of_nodup_map hvalid.nodup hproducer hmem (List.mem_singleton.1 hdone)
        subst hsame
        obtain ⟨d, hd, name, hname, rfl⟩ := hdeclares
        rw [hop] at hd
        cases hd
        exact .inr ⟨name, hresult name hname, rfl⟩
  · rintro _ ((rfl | rfl) | ⟨_, _, hdone, _⟩)
    · exact hbytes
    · exact hinput
    · exact absurd hdone List.not_mem_nil

theorem foldlM_ne_keyError (hvalid : Validated operators p order)
    (hfirst : ProducersFirst operators p) (hbytes : initial.get? "$media.bytes" ≠ none)
    (hinput : initial.get? "$media.input" ≠ none) (key : String) :
    order.foldlM (executeNode operators p.nodeTable environment runParameters) initial ≠
      .error (.keyError key) := by
  intro h
  obtain ⟨pre, id, post, _, hsplit, hpre, hraise⟩ := error_foldlM h
  have hid : id ∈ p.nodeIds := hvalid.perm.mem_iff.1 (by rw [hsplit]; simp)
  obtain ⟨node, hnode, rfl⟩ := List.mem_map.1 hid
  have hget := (get?_nodeTable hvalid.nodup _ node).2 ⟨hnode, rfl⟩
  rcases executeNode_keyError hraise with hnone | ⟨_, hget', hmissing⟩
  · simp [hget] at hnone
  · rw [hget] at hget'
    cases hget'
    rcases hmissing with hop | ⟨source, hsource, hnone⟩
    · obtain ⟨_, hdefinition⟩ := hvalid.operator node hnode
      simp [hop] at hdefinition
    · refine produced_foldlM hvalid hbytes hinput hpre source ?_ hnone
      rcases hfirst node hnode source hsource with hmedia |
        ⟨producer, hproducer, hdeclares, hbefore⟩
      · exact .inl hmedia
      · refine .inr ⟨producer, hproducer, ?_, hdeclares⟩
        have hmem : producer.nodeId ∈ order :=
          hvalid.perm.mem_iff.2 (List.mem_map.2 ⟨producer, hproducer, rfl⟩)
        exact (hvalid.precedes pre node.nodeId post hsplit _ hmem).2 hbefore

theorem output_produced (hvalid : Validated operators p order)
    (hbytes : initial.get? "$media.bytes" ≠ none) (hinput : initial.get? "$media.input" ≠ none)
    (h : order.foldlM (executeNode operators p.nodeTable environment runParameters) initial =
      .ok outputs) : outputs.get? p.output ≠ none := by
  refine produced_foldlM hvalid hbytes hinput h p.output ?_
  rcases hvalid.output with hmedia | ⟨node, hnode, hdeclares⟩
  · exact .inl hmedia
  · exact .inr ⟨node, hnode, hvalid.perm.mem_iff.2 (List.mem_map.2 ⟨node, hnode, rfl⟩), hdeclares⟩

end Loop

/-! ## Operators that return what they declare and nothing else -/

/-- The declared outputs of an operator, each `()`. -/
def declaredResult (definition : OperatorDefinition) : Dict String Unit :=
  Dict.ofList (definition.outputTypes.entries.map fun e => (e.1, ()))

/-- Every checkpoint passes, every operator returns its declared outputs at once. -/
def plainEnvironment (operators : Dict String OperatorDefinition) (p : PipelinePayload V) :
    Environment V Unit where
  checkpoint _ := none
  execute id _ _ _ := .ok (((p.nodeTable.get? id).bind fun node =>
    operators.get? node.operatorId).map declaredResult)

theorem get?_declaredResult (definition : OperatorDefinition) (name : String) :
    (declaredResult definition).get? name ≠ none ↔ definition.outputTypes.get? name ≠ none := by
  have hkeys : (definition.outputTypes.entries.map fun e => (e.1, ())).map Prod.fst =
      definition.outputTypes.entries.map Prod.fst := by
    rw [List.map_map]
    rfl
  rw [← Dict.mem_keys, ← Dict.mem_keys]
  unfold declaredResult
  rw [Dict.entries_ofList (hkeys ▸ definition.outputTypes.nodup), hkeys]

/-- The initial inputs: the two media inputs. -/
def mediaInputs : Dict String Unit :=
  (Dict.empty.insert "$media.bytes" ()).insert "$media.input" ()

theorem get?_mediaInputs (source : String) :
    mediaInputs.get? source ≠ none ↔ source = "$media.bytes" ∨ source = "$media.input" := by
  unfold mediaInputs
  rw [Dict.get?_insert, Dict.get?_insert]
  by_cases hinput : source = "$media.input"
  · simp [hinput]
  · by_cases hbytes : source = "$media.bytes"
    · simp [hbytes]
    · simp [hinput, hbytes]

section Plain

variable {runParameters : Dict String V} {outputs outputs' : Dict String Unit} {id : String}

theorem returnsDeclared_plain (hvalid : Validated operators p order) :
    ReturnsDeclared operators p (plainEnvironment operators p) := by
  intro node hnode definition hop _ _ _ _ hresult name hname
  have hget := (get?_nodeTable hvalid.nodup _ node).2 ⟨hnode, rfl⟩
  simp only [plainEnvironment, hget, Option.bind_some, hop, Option.map_some, Except.ok.injEq,
    Option.some.injEq] at hresult
  rw [← hresult]
  exact (get?_declaredResult definition name).2 hname

theorem attempts_pos (definition : OperatorDefinition) : 0 < definition.attempts := by
  unfold OperatorDefinition.attempts
  split
  · exact definition.maxAttempts_range.1
  · exact Nat.one_pos

/-- Such operators raise nothing, and return nothing more: what raises is a lookup. -/
theorem executeNode_plain (runParameters : Dict String V) (outputs : Dict String Unit)
    {node : PipelineNode V} {definition : OperatorDefinition}
    (hnode : p.nodeTable.get? id = some node)
    (hop : operators.get? node.operatorId = some definition) :
    (∃ key, executeNode operators p.nodeTable (plainEnvironment operators p) runParameters
        outputs id = .error (.keyError key)) ∨
      executeNode operators p.nodeTable (plainEnvironment operators p) runParameters outputs id =
        .ok (addResult node.nodeId outputs (declaredResult definition)) := by
  have hanswer : ∀ attempt inputs parameters,
      (plainEnvironment operators p).execute id attempt inputs parameters =
        .ok (some (declaredResult definition)) := fun _ _ _ => by
    simp [plainEnvironment, hnode, Option.bind_some, hop, Option.map_some]
  have hcheck : (plainEnvironment operators p).checkpoint id = none := rfl
  have hrun : ∀ inputs parameters, runAttempts node.operatorId (fun attempt =>
      (plainEnvironment operators p).execute id attempt inputs parameters) 0 definition.attempts =
        .ok (some (declaredResult definition)) := fun inputs parameters => by
    obtain ⟨_, hrest⟩ := Nat.exists_eq_succ_of_ne_zero (attempts_pos definition).ne'
    simp [hrest, runAttempts, hanswer]
  have hmissing : sorted ((definition.outputTypes.entries.map Prod.fst).filter
      fun name => (declaredResult definition).get? name = none) = [] := by
    rw [List.eq_nil_iff_forall_not_mem]
    intro _ hname
    rw [mem_sorted, List.mem_filter, Dict.mem_keys, ← get?_declaredResult] at hname
    exact hname.1 (of_decide_eq_true hname.2)
  unfold executeNode lookup
  cases hin : gatherInputs outputs node.inputs.entries with
  | error e =>
    obtain ⟨source, -, -, rfl⟩ := (gatherInputs_spec _).2 e hin
    exact .inl ⟨source, by simp [hcheck, hnode, hop, hin, bind, Except.bind]⟩
  | ok =>
    refine .inr ?_
    simp [hcheck, hnode, hop, hin, hrun, hmissing, bind, Except.bind]

theorem plain_foldlM (hvalid : Validated operators p order) {done : List String}
    (h : done.foldlM (executeNode operators p.nodeTable (plainEnvironment operators p)
      runParameters)
      mediaInputs = .ok outputs) (source : String) (hsource : outputs.get? source ≠ none) :
    Produced operators p done source := by
  refine ok_foldlM (I := fun done (outputs : Dict String Unit) =>
    ∀ source, outputs.get? source ≠ none → Produced operators p done source) done
    (fun done id outputs outputs' _ ih hrun source hsource => ?_) ?_ h source hsource
  · obtain ⟨node, definition, -, hnode, hop, -⟩ := executeNode_ok hrun
    obtain ⟨hmem, rfl⟩ := (get?_nodeTable hvalid.nodup _ node).1 hnode
    rcases executeNode_plain runParameters outputs hnode hop with
      ⟨key, hraise⟩ | hok
    · rw [hrun] at hraise
      cases hraise
    · rw [hrun] at hok
      cases hok
      rw [get?_addResult] at hsource
      rcases hsource with hold | ⟨name, hname, rfl⟩
      · rcases ih source hold with hmedia | ⟨producer, hproducer, hdone, hdeclares⟩
        · exact .inl hmedia
        · exact .inr ⟨producer, hproducer, List.mem_append_left _ hdone, hdeclares⟩
      · exact .inr ⟨node, hmem, by simp, definition, hop, name,
          (get?_declaredResult definition name).1 hname, rfl⟩
  · intro source hsource
    exact .inl ((get?_mediaInputs source).1 hsource)

theorem plain_raises (hvalid : Validated operators p order) {e : ExecutionError}
    (h : order.foldlM (executeNode operators p.nodeTable (plainEnvironment operators p)
      runParameters) mediaInputs = .error e) : ∃ key, e = .keyError key := by
  obtain ⟨_, id, _, outputs, hsplit, -, hraise⟩ := error_foldlM h
  have hid : id ∈ p.nodeIds := hvalid.perm.mem_iff.1 (by rw [hsplit]; simp)
  obtain ⟨node, hnode, rfl⟩ := List.mem_map.1 hid
  obtain ⟨_, hop⟩ := hvalid.operator node hnode
  have hget := (get?_nodeTable hvalid.nodup _ node).2 ⟨hnode, rfl⟩
  rcases executeNode_plain runParameters outputs hget hop with
    ⟨key, hkey⟩ | hok
  · rw [hraise] at hkey
    cases hkey
    exact ⟨key, rfl⟩
  · rw [hraise] at hok
    cases hok

theorem producersFirst_of_ok (hvalid : Validated operators p order)
    (h : order.foldlM (executeNode operators p.nodeTable (plainEnvironment operators p)
      runParameters) mediaInputs = .ok outputs) : ProducersFirst operators p := by
  intro node hnode source hsource
  have hid : node.nodeId ∈ order := hvalid.perm.mem_iff.2 (List.mem_map.2 ⟨node, hnode, rfl⟩)
  obtain ⟨pre, post, hsplit⟩ := List.append_of_mem hid
  rw [hsplit, List.foldlM_append] at h
  cases hpre : pre.foldlM
      (executeNode operators p.nodeTable (plainEnvironment operators p) runParameters)
        mediaInputs with
  | error e =>
    rw [hpre] at h
    cases h
  | ok before =>
    rw [hpre] at h
    simp only [bind, Except.bind, List.foldlM_cons] at h
    cases hrun : executeNode operators p.nodeTable (plainEnvironment operators p)
        runParameters before node.nodeId with
    | error e =>
      rw [hrun] at h
      cases h
    | ok =>
      obtain ⟨_, _, _, hget, -, hsources, -⟩ := executeNode_ok hrun
      rw [(get?_nodeTable hvalid.nodup _ node).2 ⟨hnode, rfl⟩] at hget
      cases hget
      rcases plain_foldlM hvalid hpre source (hsources source hsource) with
        hmedia | ⟨producer, hproducer, hdone, hdeclares⟩
      · exact .inl hmedia
      · refine .inr ⟨producer, hproducer, hdeclares, ?_⟩
        exact (hvalid.precedes pre node.nodeId post hsplit _
          (hvalid.perm.mem_iff.2 (List.mem_map.2 ⟨producer, hproducer, rfl⟩))).1 hdone

end Plain

/-- **Accepted pipelines and their inputs.** In a reachable registry the stored order of a pipeline
lists its nodes, each once; and no execution misses a source or the final output **iff** every
source is a media input or is declared by a node that comes before the consumer in the order of the
recorded dependencies. -/
theorem runs_on_produced_inputs [DecidableEq D] (sha256 : PipelinePayload V → D)
    (decimal : Char → Bool) (calls : List (RegistryCall V)) {r : Registry V D}
    (hr : exec (registryStep sha256 decimal) .empty calls = some r) {key : String × String}
    {p : PipelineDefinition V} (hp : r.pipelines.get? key = some p) :
    (∃ order, r.orders.get? key = some order ∧ order.Perm p.nodeIds) ∧
      (NeverMissing sha256 r p ↔ ProducersFirst r.operators p.toPipelinePayload) := by
  obtain ⟨rfl, hdigest, order, horder, hvalid⟩ := consistent_exec hr key p hp
  have hnodes : ∀ (X : Type) (environment : Environment V X) initialInputs runParameters,
      runNodes r p environment initialInputs runParameters = order.foldlM
        (executeNode r.operators p.nodeTable environment runParameters) initialInputs := by
    intro X _ _ _
    unfold runNodes
    rw [horder]
    rfl
  refine ⟨⟨order, horder, hvalid.perm⟩, fun hnever => ?_, fun hfirst => ?_⟩
  · have hplain := (hnever Unit (plainEnvironment r.operators p.toPipelinePayload)
      mediaInputs .empty (by decide) (by decide) (returnsDeclared_plain hvalid)).1
    cases hloop : order.foldlM (executeNode r.operators p.nodeTable
        (plainEnvironment r.operators p.toPipelinePayload) .empty) mediaInputs with
    | ok => exact producersFirst_of_ok hvalid hloop
    | error e =>
      obtain ⟨missing, rfl⟩ := plain_raises hvalid hloop
      refine absurd ?_ (hplain missing)
      have hnone : sorted (((Dict.empty : Dict String V).entries.map Prod.fst).filter
          (· ∉ p.allowedParameters)) = [] := rfl
      simp only [execute, hnone, hp, hdigest, hnodes, hloop, ne_eq, not_true, if_false, bind,
        Except.bind]
  · intro X environment initialInputs runParameters hbytes hinput _
    rw [hnodes]
    refine ⟨fun missing hraise => ?_, fun outputs hok => output_produced hvalid hbytes hinput hok⟩
    unfold execute at hraise
    simp only [hp, hdigest, hnodes, ne_eq, not_true, if_false] at hraise
    split at hraise
    · cases hraise
    cases hloop : order.foldlM (executeNode r.operators p.nodeTable environment runParameters)
        initialInputs with
    | error e =>
      simp only [hloop, bind, Except.bind, Except.error.injEq] at hraise
      exact foldlM_ne_keyError hvalid hfirst hbytes hinput missing (hraise ▸ hloop)
    | ok =>
      simp only [hloop, bind, Except.bind] at hraise
      split at hraise <;> cases hraise

/-! ## Two pipelines -/

/-- An operator that passes its input on. -/
def passOperator : OperatorDefinition where
  operatorId := "test.pass"
  domain := none
  inputTypes := Dict.empty.insert "value" "bytes"
  outputTypes := Dict.empty.insert "value" "bytes"
  failurePolicy := .fail
  maxAttempts := 1
  maxAttempts_range := by decide

/-- A node that passes on what it reads from `source`. -/
def passNode (nodeId source : String) : PipelineNode Unit :=
  ⟨nodeId, "test.pass", Dict.empty.insert "value" source, .empty⟩

/-- A pipeline of nodes that pass on what they get. -/
def passPipeline (nodes : List (PipelineNode Unit)) (output : String) :
    PipelineDefinition Unit where
  pipelineId := "test.chain"
  version := "1.0.0"
  domain := "test"
  nodes := nodes
  output := output
  allowedParameters := []
  parameterSchema := .empty
  pausable := false
  status := .active

/-- `c` reads an output of the node `z.y`; the recorded dependency is the node `z`. -/
def dotted : PipelineDefinition Unit :=
  passPipeline [passNode "z" "$media.bytes", passNode "z.y" "z.value", passNode "c" "z.y.value"]
    "c.value"

/-- The registry after the operator and one pipeline. -/
def registered (p : PipelineDefinition Unit) : Registry Unit String :=
  (exec (registryStep PipelinePayload.output Char.isDigit) .empty
    [.registerOperator passOperator, .registerPipeline p]).getD .empty

/-- **The pipeline is accepted, and its execution looks up a source that is not there.** -/
theorem dotted_missing :
    registerPipeline PipelinePayload.output Char.isDigit
        { (Registry.empty : Registry Unit String) with
          operators := Dict.empty.insert "test.pass" passOperator } dotted =
        .ok (registered dotted) ∧
      (registered dotted).orders.get? dotted.key = some ["z", "c", "z.y"] ∧
      execute PipelinePayload.output (registered dotted) dotted
          (plainEnvironment (registered dotted).operators dotted.toPipelinePayload) mediaInputs
            .empty =
        .error (.keyError "z.y.value") ∧
      ¬NeverMissing PipelinePayload.output (registered dotted) dotted := by
  have hraise : execute PipelinePayload.output (registered dotted) dotted
      (plainEnvironment (registered dotted).operators dotted.toPipelinePayload) mediaInputs .empty =
        .error (.keyError "z.y.value") := by decide +kernel
  have hvalidate : validate Char.isDigit (registered dotted).operators dotted =
      .ok ["z", "c", "z.y"] := rfl
  refine ⟨rfl, by decide +kernel, hraise, fun hnever => ?_⟩
  exact (hnever Unit _ mediaInputs .empty (by decide) (by decide)
    (returnsDeclared_plain (validated hvalidate))).1 _ hraise

/-- The same pipeline without a dot in a node id. -/
def plain : PipelineDefinition Unit :=
  passPipeline [passNode "z" "$media.bytes", passNode "y" "z.value",
    passNode "c" "y.value"] "c.value"

theorem plain_neverMissing : NeverMissing PipelinePayload.output (registered plain) plain := by
  have hexec : exec (registryStep PipelinePayload.output Char.isDigit) .empty
      [.registerOperator passOperator, .registerPipeline plain] = some (registered plain) := rfl
  have hget : (registered plain).pipelines.get? plain.key = some plain := rfl
  refine (runs_on_produced_inputs PipelinePayload.output Char.isDigit _ hexec hget).2.2 ?_
  have hpass : ∀ id source, Declares (registered plain).operators (passNode id source)
      (outputKey id "value") := fun id source => ⟨passOperator, rfl, "value", by decide, rfl⟩
  have hnodes : plain.nodes =
      [passNode "z" "$media.bytes", passNode "y" "z.value", passNode "c" "y.value"] := rfl
  intro node hnode source hsource
  rw [hnodes] at hnode ⊢
  obtain rfl | rfl | rfl : node = passNode "z" "$media.bytes" ∨ node = passNode "y" "z.value" ∨
      node = passNode "c" "y.value" := by simpa using hnode
  · exact .inl (.inl (List.mem_singleton.1 hsource))
  · obtain rfl : source = "z.value" := List.mem_singleton.1 hsource
    exact .inr ⟨passNode "z" "$media.bytes", by simp, hpass "z" _, before_of_dep
      ⟨passNode "y" "z.value", by rw [hnodes]; simp, rfl, "z.value", hsource, rfl, rfl⟩⟩
  · obtain rfl : source = "y.value" := List.mem_singleton.1 hsource
    exact .inr ⟨passNode "y" "z.value", by simp, hpass "y" _, before_of_dep
      ⟨passNode "c" "y.value", by rw [hnodes]; simp, rfl, "y.value", hsource, rfl, rfl⟩⟩

end Scenara.Pipeline
