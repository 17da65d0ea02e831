import Scenara.Core.Raising
import Scenara.Core.Transition
import Scenara.Pipeline.Model

/-!
# What validation establishes

`_validate` reads three things off the node list: which node an input depends on (`Recorded`: the
part of its source before the first dot), the order of the nodes, and which sources have a type
(`Declares`: the outputs that the operators declare, under the keys that `execute` stores them
under).

* `validated`: the stored order lists every node once, and `m` comes before `n` in it **iff** every
  chain of recorded dependencies that ends in `m` is below some chain that ends in `n`; every source
  and the final output are media inputs or declared by some node.
-/

namespace Scenara.Pipeline

open Scenara.Core

variable {V D X : Type} {operators operators' : Dict String OperatorDefinition}

/-! ## What the tables say -/

/-- An input of the node depends on the node `m`. -/
def PipelineNode.DependsOn (node : PipelineNode V) (m : String) : Prop :=
  ∃ source ∈ node.inputs.values, isMediaSource source = false ∧ sourceNode source = m

/-- The recorded dependencies of a pipeline. -/
def Recorded (p : PipelinePayload V) (m n : String) : Prop :=
  ∃ node ∈ p.nodes, node.nodeId = n ∧ node.DependsOn m

/-- The operator of the node declares the output that `execute` stores under `source`. -/
def Declares (operators : Dict String OperatorDefinition) (node : PipelineNode V)
    (source : String) : Prop :=
  ∃ definition, operators.get? node.operatorId = some definition ∧
    ∃ name, definition.outputTypes.get? name ≠ none ∧ source = outputKey node.nodeId name

/-- A media input, or a declared output. -/
def Available (operators : Dict String OperatorDefinition) (nodes : List (PipelineNode V))
    (source : String) : Prop :=
  (source = "$media.bytes" ∨ source = "$media.input") ∨
    ∃ node ∈ nodes, Declares operators node source

/-- The two dependency tables say the same, in sets. -/
structure Tables.Linked (t : Tables) : Prop where
  mem_children : ∀ m n, n ∈ members t.children m ↔ m ∈ members t.dependencies n
  dependencies_nodup : ∀ n, (members t.dependencies n).Nodup
  children_nodup : ∀ n, (members t.children n).Nodup

/-- The tables after the nodes `done`. -/
structure Collected (operators : Dict String OperatorDefinition) (done : List (PipelineNode V))
    (t : Tables) : Prop where
  linked : t.Linked
  operator : ∀ node ∈ done, ∃ definition, operators.get? node.operatorId = some definition
  dependencies : ∀ m n, m ∈ members t.dependencies n ↔
    ∃ node ∈ done, node.nodeId = n ∧ node.DependsOn m
  types : ∀ source, t.availableTypes.get? source ≠ none ↔ Available operators done source

/-! ## One node -/

theorem linked_add {t : Tables} (h : t.Linked) (m n : String) :
    ({ t with
      dependencies := addMember t.dependencies n m
      children := addMember t.children m n } : Tables).Linked := by
  refine ⟨fun a b => ?_, nodup_addMember n m h.dependencies_nodup,
    nodup_addMember m n h.children_nodup⟩
  rw [mem_addMember, mem_addMember, h.mem_children]
  refine or_congr_left ?_
  exact and_comm

theorem addSources_spec {nodeIds : List String} {nodeId : String} (sources : List String)
    {t t' : Tables} (ht : t.Linked) (h : sources.foldlM (addSource nodeIds nodeId) t = .ok t') :
    t'.Linked ∧ t'.availableTypes = t.availableTypes ∧
      ∀ m n, m ∈ members t'.dependencies n ↔ m ∈ members t.dependencies n ∨
        n = nodeId ∧ ∃ source ∈ sources, isMediaSource source = false ∧ sourceNode source = m := by
  have hloop := ok_foldlM (I := fun done (t' : Tables) => t'.Linked ∧
      t'.availableTypes = t.availableTypes ∧
      ∀ m n, m ∈ members t'.dependencies n ↔ m ∈ members t.dependencies n ∨
        n = nodeId ∧ ∃ source ∈ done, isMediaSource source = false ∧ sourceNode source = m)
    sources (fun done source a b _ ha hb => ?_) ⟨ht, rfl, by simp⟩ h
  · exact hloop
  · obtain ⟨hlinked, htypes, hdeps⟩ := ha
    unfold addSource at hb
    cases hmedia : isMediaSource source with
    | true =>
      rw [hmedia, if_pos rfl] at hb
      cases hb
      refine ⟨hlinked, htypes, fun m n => (hdeps m n).trans ?_⟩
      simp [or_and_right, exists_or, hmedia]
    | false =>
      rw [hmedia, if_neg Bool.false_ne_true] at hb
      split at hb
      · cases hb
      · cases hb
        refine ⟨linked_add hlinked _ _, htypes, fun m n => ?_⟩
        rw [mem_addMember, hdeps]
        constructor
        · rintro (⟨rfl, rfl⟩ | h | ⟨rfl, s, hs, hrest⟩)
          · exact .inr ⟨rfl, source, by simp, hmedia, rfl⟩
          · exact .inl h
          · exact .inr ⟨rfl, s, by simp [hs], hrest⟩
        · rintro (h | ⟨rfl, s, hs, hno, rfl⟩)
          · exact .inr (.inl h)
          · rcases List.mem_append.1 hs with hs | hs
            · exact .inr (.inr ⟨rfl, s, hs, hno, rfl⟩)
            · rw [List.mem_singleton] at hs
              subst hs
              exact .inl ⟨rfl, rfl⟩

theorem get?_addOutputs {Y : Type} (nodeId : String) (es : List (String × Y)) (d : Dict String Y)
    (source : String) :
    (es.foldl (fun d e => d.insert (outputKey nodeId e.1) e.2) d).get? source ≠ none ↔
      d.get? source ≠ none ∨ ∃ name ∈ es.map Prod.fst, source = outputKey nodeId name := by
  induction es generalizing d with
  | nil => simp
  | cons e _ ih =>
    rw [List.foldl_cons, ih, Dict.get?_insert]
    by_cases hsource : source = outputKey nodeId e.1 <;> simp [hsource]

theorem get?_mediaTypes (source : String) :
    mediaTypes.get? source ≠ none ↔ source = "$media.bytes" ∨ source = "$media.input" := by
  unfold mediaTypes
  rw [Dict.get?_insert, Dict.get?_insert]
  by_cases hinput : source = "$media.input"
  · simp [hinput]
  · by_cases hbytes : source = "$media.bytes"
    · simp [hbytes]
    · simp [hinput, hbytes]

theorem collected_init :
    Collected operators ([] : List (PipelineNode V)) ⟨.empty, .empty, mediaTypes⟩ where
  linked := ⟨fun m n => by simp [members], fun n => by simp [members], fun n => by simp [members]⟩
  operator := fun node h => absurd h List.not_mem_nil
  dependencies := fun m n => by simp [members]
  types := fun source => by
    rw [get?_mediaTypes]
    simp [Available]

theorem collected_addNode {nodeIds : List String} {domain : String} {done : List (PipelineNode V)}
    {node : PipelineNode V} {t t' : Tables} (ht : Collected operators done t)
    (h : addNode operators nodeIds domain t node = .ok t') :
    Collected operators (done ++ [node]) t' := by
  unfold addNode at h
  cases hget : operators.get? node.operatorId with
  | none =>
    simp [hget] at h
  | some definition =>
    rw [hget] at h
    simp only at h
    split at h
    · cases h
    · have hstart : Tables.Linked { t with
          availableTypes := addOutputs node.nodeId definition.outputTypes t.availableTypes } :=
        ⟨ht.linked.mem_children, ht.linked.dependencies_nodup, ht.linked.children_nodup⟩
      obtain ⟨hlinked, htypes, hdeps⟩ := addSources_spec _ hstart h
      refine ⟨hlinked, fun a ha => ?_, fun m n => ?_, fun source => ?_⟩
      · rcases List.mem_append.1 ha with ha | ha
        · exact ht.operator a ha
        · rw [List.mem_singleton] at ha
          exact ⟨definition, ha ▸ hget⟩
      · rw [hdeps, ht.dependencies]
        simp only [List.mem_append, List.mem_singleton, or_and_right, exists_or, exists_eq_left]
        refine or_congr_right ?_
        rw [PipelineNode.DependsOn, eq_comm]
      · rw [htypes, addOutputs, get?_addOutputs, ht.types]
        unfold Available
        simp only [List.mem_append, List.mem_singleton, or_and_right, exists_or, exists_eq_left,
          or_assoc]
        refine or_congr_right (or_congr_right (or_congr_right ?_))
        unfold Declares
        rw [hget]
        simp [Dict.mem_keys]

/-! ## The whole pipeline -/

/-- What validation establishes of a pipeline and of the order it stores. -/
structure Validated (operators : Dict String OperatorDefinition) (p : PipelinePayload V)
    (order : List String) : Prop where
  nodup : p.nodeIds.Nodup
  operator : ∀ node ∈ p.nodes, ∃ definition, operators.get? node.operatorId = some definition
  perm : order.Perm p.nodeIds
  precedes : ∀ pre n post, order = pre ++ n :: post → ∀ m ∈ order,
    (m ∈ pre ↔ Before (Recorded p) m n)
  inputs : ∀ node ∈ p.nodes, ∀ source ∈ node.inputs.values, Available operators p.nodes source
  output : Available operators p.nodes p.output

theorem checkNode_available {types : Dict String String} {node : PipelineNode V}
    (h : checkNode operators types node = .ok ()) :
    ∀ source ∈ node.inputs.values, types.get? source ≠ none := by
  unfold checkNode at h
  cases hget : operators.get? node.operatorId with
  | none =>
    simp [hget] at h
  | some definition =>
    rw [hget] at h
    simp only at h
    split at h
    · cases h
    · rename_i hnames
      rw [not_not] at hnames
      intro source hsource
      obtain ⟨name, hname⟩ := (Dict.mem_values _ source).1 hsource
      have hentry := (Dict.mem_entries _ name source).2 hname
      have hchecked := forM_ok.1 h (name, source) hentry
      have hdeclared : definition.inputTypes.get? name ≠ none :=
        hnames.1 name (List.mem_map.2 ⟨(name, source), hentry, rfl⟩)
      unfold checkInput at hchecked
      simp only [ne_eq, ite_not] at hchecked
      split at hchecked
      · rename_i heq
        rwa [heq]
      · cases hchecked

variable {p : PipelinePayload V}

theorem recorded_of_collected {t : Tables}
    (h : Collected operators p.nodes t) : DependsOn t.dependencies = Recorded p := by
  funext m n
  exact propext (h.dependencies m n)

theorem linked_of_collected {t : Tables} (hnodup : p.nodeIds.Nodup)
    (h : Collected operators p.nodes t) : Core.Linked p.nodeIds t.dependencies t.children where
  nodup := hnodup
  dependencies_nodup := h.linked.dependencies_nodup
  children_nodup := h.linked.children_nodup
  mem_children := h.linked.mem_children
  child_mem := fun m n hm => by
    obtain ⟨node, hnode, rfl, -⟩ := (h.dependencies m n).1 hm
    exact List.mem_map.2 ⟨node, hnode, rfl⟩

theorem validated {decimal : Char → Bool} {p : PipelineDefinition V} {order : List String}
    (h : validate decimal operators p = .ok order) :
    Validated operators p.toPipelinePayload order := by
  unfold validate at h
  split_ifs at h with hid hversion hcount hnodup
  cases hloop : p.nodes.foldlM (addNode operators p.nodeIds p.domain) ⟨.empty, .empty,
    mediaTypes⟩ with
  | error e =>
    rw [hloop] at h
    cases h
  | ok t =>
    rw [hloop] at h
    simp only [bind, Except.bind] at h
    split_ifs at h with hfan hlen houtput
    · cases hcheck : p.nodes.forM (checkNode operators t.availableTypes) with
      | error | ok =>
        rw [hcheck] at h
        cases h
    cases hcheck : p.nodes.forM (checkNode operators t.availableTypes) with
    | error e =>
      rw [hcheck] at h
      cases h
    | ok u =>
      rw [hcheck] at h
      cases h
      have hcollected : Collected operators p.nodes t :=
        ok_foldlM p.nodes (fun done node a b _ ha hb => collected_addNode ha hb)
          collected_init hloop
      have hlinked := linked_of_collected hnodup hcollected
      refine ⟨hnodup, hcollected.operator, kahn_perm hlinked (not_not.1 hlen), ?_, ?_, ?_⟩
      · intro _ n _ hsplit m hm
        rw [← recorded_of_collected hcollected]
        exact precedes_iff hlinked hsplit hm
      · intro node hnode source hsource
        exact (hcollected.types source).1
          (checkNode_available (forM_ok.1 hcheck node hnode) source hsource)
      · exact (hcollected.types _).1 houtput

theorem Validated.mono {order : List String}
    (h : Validated operators p order)
    (hmore : ∀ id definition, operators.get? id = some definition →
      operators'.get? id = some definition) : Validated operators' p order := by
  have havailable : ∀ source, Available operators p.nodes source →
      Available operators' p.nodes source := by
    rintro _ (hmedia | ⟨node, hnode, definition, hget, hname⟩)
    · exact .inl hmedia
    · exact .inr ⟨node, hnode, definition, hmore _ _ hget, hname⟩
  refine ⟨h.nodup, fun node hnode => ?_, h.perm, h.precedes,
    fun node hnode source hsource => havailable source (h.inputs node hnode source hsource),
    havailable _ h.output⟩
  obtain ⟨definition, hget⟩ := h.operator node hnode
  exact ⟨definition, hmore _ _ hget⟩

/-! ## The registry -/

section Registry

variable {sha256 : PipelinePayload V → D} {decimal : Char → Bool} {r r' : Registry V D}

/-- A stored pipeline, with its order and its digest. -/
structure Stored (sha256 : PipelinePayload V → D) (r : Registry V D) (key : String × String)
    (p : PipelineDefinition V) : Prop where
  key_eq : p.key = key
  digest : r.digests.get? key = some (p.definitionSha256 sha256)
  order : ∃ order, r.orders.get? key = some order ∧ Validated r.operators p.toPipelinePayload order

/-- Every pipeline of the registry was validated. -/
def Consistent (sha256 : PipelinePayload V → D) (r : Registry V D) : Prop :=
  ∀ key p, r.pipelines.get? key = some p → Stored sha256 r key p

theorem consistent_empty : Consistent sha256 (.empty : Registry V D) := fun key p h => by
  simp [Registry.empty, Dict.get?_empty] at h

theorem consistent_registerOperator {definition : OperatorDefinition} (hr : Consistent sha256 r)
    (h : registerOperator r definition = .ok r') : Consistent sha256 r' := by
  unfold registerOperator at h
  split_ifs at h with hnew
  cases h
  intro key p hget
  obtain ⟨hkey, hdigest, order, horder, hvalid⟩ := hr key p hget
  refine ⟨hkey, hdigest, order, horder, hvalid.mono fun id d hd => ?_⟩
  have hne : id ≠ definition.operatorId := by
    rintro rfl
    exact hnew (by rw [hd]; exact Option.some_ne_none d)
  rwa [Dict.get?_insert_of_ne _ _ hne]

theorem consistent_registerPipeline {p : PipelineDefinition V} (hr : Consistent sha256 r)
    (h : registerPipeline sha256 decimal r p = .ok r') : Consistent sha256 r' := by
  unfold registerPipeline at h
  split_ifs at h with hnew hactive
  cases hvalidate : validate decimal r.operators p with
  | error e =>
    rw [hvalidate] at h
    cases h
  | ok order =>
    rw [hvalidate] at h
    cases h
    intro key q hget
    by_cases hkey : key = p.key
    · subst hkey
      rw [Dict.get?_insert_self] at hget
      cases hget
      exact ⟨rfl, Dict.get?_insert_self _ _ _, order, Dict.get?_insert_self _ _ _,
        validated hvalidate⟩
    · rw [Dict.get?_insert_of_ne _ _ hkey] at hget
      obtain ⟨hkeyq, _, orderq, _, hvalid⟩ := hr key q hget
      refine ⟨hkeyq, ?_, orderq, ?_, hvalid⟩
      · rwa [Dict.get?_insert_of_ne _ _ hkey]
      · rwa [Dict.get?_insert_of_ne _ _ hkey]

variable [DecidableEq D]

theorem transition_payload {pipelineId version : String} {target : PipelineStatus}
    {updated : PipelineDefinition V}
    (h : transition sha256 r pipelineId version target = .ok (r', updated)) :
    r'.operators = r.operators ∧ r'.orders = r.orders ∧ r'.digests = r.digests ∧
      ∀ key p, r'.pipelines.get? key = some p →
        ∃ q, r.pipelines.get? key = some q ∧ p.toPipelinePayload = q.toPipelinePayload := by
  unfold transition at h
  cases hget : r.pipelines.get? (pipelineId, version) with
  | none =>
    simp [hget] at h
  | some pipeline =>
    rw [hget] at h
    simp only at h
    split_ifs at h with hallowed hdigest hactive
    · cases h
      refine ⟨rfl, rfl, rfl, fun key p hp => ?_⟩
      rcases Dict.get?_insert_cases hp with ⟨rfl, rfl⟩ | ⟨-, hp⟩
      · exact ⟨pipeline, hget, rfl⟩
      · rw [Dict.get?_mapVals, Option.map_eq_some_iff] at hp
        obtain ⟨q, hq, rfl⟩ := hp
        exact ⟨q, hq, by split <;> rfl⟩
    · cases h
      refine ⟨rfl, rfl, rfl, fun key p hp => ?_⟩
      rcases Dict.get?_insert_cases hp with ⟨rfl, rfl⟩ | ⟨-, hp⟩
      · exact ⟨pipeline, hget, rfl⟩
      · exact ⟨p, hp, rfl⟩

theorem consistent_transition {pipelineId version : String} {target : PipelineStatus}
    {updated : PipelineDefinition V} (hr : Consistent sha256 r)
    (h : transition sha256 r pipelineId version target = .ok (r', updated)) :
    Consistent sha256 r' := by
  obtain ⟨hoperators, horders, hdigests, hpayload⟩ := transition_payload h
  intro key p hget
  obtain ⟨q, hq, heq⟩ := hpayload key p hget
  obtain ⟨hkey, hdigest, order, horder, _⟩ := hr key q hq
  have hkeys : p.key = q.key := by
    unfold PipelineDefinition.key
    rw [heq]
  have hshas : p.definitionSha256 sha256 = q.definitionSha256 sha256 := by
    unfold PipelineDefinition.definitionSha256
    rw [heq]
  refine ⟨hkeys.trans hkey, ?_, order, ?_, ?_⟩
  · rw [hdigests, hdigest, hshas]
  · rw [horders, horder]
  · rwa [heq, hoperators]

theorem consistent_step {call : RegistryCall V} (hr : Consistent sha256 r)
    (h : registryStep sha256 decimal r call = some r') : Consistent sha256 r' := by
  unfold registryStep at h
  cases call with
  | registerOperator =>
    simp only at h
    split at h
    · rename_i hok
      cases h
      exact consistent_registerOperator hr hok
    · cases h
      exact hr
  | registerPipeline p =>
    simp only at h
    split at h
    · rename_i hok
      cases h
      exact consistent_registerPipeline hr hok
    · cases h
      exact hr
  | transition =>
    simp only at h
    split at h
    · rename_i hok
      cases h
      exact consistent_transition hr hok
    · cases h
      exact hr

theorem consistent_exec {calls : List (RegistryCall V)}
    (h : exec (registryStep sha256 decimal) .empty calls = some r) : Consistent sha256 r :=
  invariant_exec (P := fun _ _ => True) (fun _ _ _ hr _ hs => consistent_step hr hs)
    consistent_empty (along_of_forall (fun _ _ => trivial) _ calls) h

end Registry

end Scenara.Pipeline
