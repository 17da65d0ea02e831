import Scenara.Catalog.Active

/-!
# The memory and the Postgres catalog agree

The two catalogs go through the same calls (`bothStep`). They agree (`Agree`) when every row, merged
with its status column, is the definition in memory; the unique index then says what
`AtMostOneActive` says, and no statement violates it.

A changed definition of a stored version that comes as active makes the version active in memory; in
Postgres the `UPDATE` leaves the status column alone.
-/

namespace Scenara.Catalog

open Scenara.Core Pipeline

variable {V D : Type} {sha256 : PipelinePayload V → D} {c c' : Pipelines V}
  {t t' : Table V D}
variable {p : PipelineDefinition V} {row : Row V D} {k : String × String}

/-! ## Both catalogs -/

/-- A call on both. -/
def bothStep [DecidableEq D] (sha256 : PipelinePayload V → D) (s : Pipelines V × Table V D)
    (call : Call V) : Option (Pipelines V × Table V D) :=
  (memoryStep sha256 s.1 call).bind fun c => (postgresStep sha256 s.2 call).map fun t => (c, t)

/-- Both raise the same, or both return the same. -/
def SameAnswer [DecidableEq D] (sha256 : PipelinePayload V → D) (s : Pipelines V × Table V D)
    (call : Call V) : Prop :=
  match memoryCall sha256 s.1 call, postgresCall sha256 s.2 call with
  | .ok (_, r), .ok (_, r') => r = r'
  | .error message, .error e => e = .stateConflict message
  | _, _ => False

/-- Both list the same versions, with the same definitions and statuses. -/
def SameListing (le : String × String → String × String → Prop) [DecidableRel le]
    (s : Pipelines V × Table V D) : Prop :=
  (listPipelineDefinitions s.1).Perm (listRows le s.2)

/-- A changed definition of a stored version that is not active, active. -/
def Revives (sha256 : PipelinePayload V → D) (c : Pipelines V) : Call V → Prop
  | .register pipeline => ∃ existing, c.get? pipeline.key = some existing ∧
      existing.definitionSha256 sha256 ≠ pipeline.definitionSha256 sha256 ∧
      pipeline.status = .active ∧ existing.status ≠ .active
  | .transition _ _ _ => False

/-- Every row, merged with its status column, is the definition in memory. -/
structure Agree (sha256 : PipelinePayload V → D) (c : Pipelines V) (t : Table V D) : Prop where
  same : ∀ k, c.get? k = (t.get? k).map Row.merged
  sha : ∀ k row, t.get? k = some row →
    row.definitionSha256 = row.definition.definitionSha256 sha256
  keyed : Keyed c
  atMostOneActive : AtMostOneActive c

theorem agree_empty : Agree sha256 (.empty : Pipelines V) .empty :=
  ⟨fun _ => rfl, nofun, keyed_empty, atMostOneActive_empty⟩

/-! ## Statements -/

theorem checked_of_same (hsame : ∀ k, c.get? k = (t.get? k).map Row.merged)
    (hc : AtMostOneActive c) : checked t = .ok t := by
  refine if_pos fun e he e' he' hactive hactive' hid => ?_
  have hget : ∀ e ∈ t.entries, c.get? e.1 = some e.2.merged := fun e he => by
    rw [hsame, (Dict.mem_entries t e.1 e.2).1 he, Option.map_some]
  exact hc e.1 e.2.merged e'.1 e'.2.merged (hget e he) (hget e' he') hactive hactive' hid

theorem agree_retire (h : Agree sha256 c t) (pipelineId : String)
    (which : String × String → PipelineDefinition V → Bool)
    (hwhich : ∀ k p, c.get? k = some p → (which k p = true ↔ k.1 = pipelineId)) :
    ∃ t', retireRows pipelineId t = .ok t' ∧ Agree sha256 (retire which c) t' := by
  have hget : ∀ k, (t.mapVals (retiredRow pipelineId)).get? k =
      (t.get? k).map (retiredRow pipelineId k) := fun k => Dict.get?_mapVals _ t k
  have hsame : ∀ k, (retire which c).get? k =
      ((t.mapVals (retiredRow pipelineId)).get? k).map Row.merged := by
    intro k
    rw [get?_retire, hget, h.same, Option.map_map, Option.map_map]
    cases hrow : t.get? k with
    | none => rfl
    | some row =>
      have hk := hwhich k row.merged (by rw [h.same, hrow, Option.map_some])
      rw [Option.map_some, Option.map_some, Function.comp_apply, Function.comp_apply, retiredRow]
      by_cases hcond : k.1 = pipelineId ∧ row.status = .active
      · rw [if_pos ⟨hk.2 hcond.1, hcond.2⟩, if_pos hcond]
        rfl
      · rw [if_neg fun hw => hcond ⟨hk.1 hw.1, hw.2⟩, if_neg hcond]
  refine ⟨_, checked_of_same hsame (atMostOneActive_retire h.atMostOneActive), hsame,
    fun k row hrow => ?_, keyed_retire h.keyed, atMostOneActive_retire h.atMostOneActive⟩
  rw [hget, Option.map_eq_some_iff] at hrow
  obtain ⟨old, hold, rfl⟩ := hrow
  unfold retiredRow
  split <;> exact h.sha k old hold

theorem agree_put (h : Agree sha256 c t) (hput : ∀ a, t'.get? a = if a = k then some row
    else t.get? a)
    (hrow : row.merged = p) (hsha : row.definitionSha256 = row.definition.definitionSha256 sha256)
    (hp : p.key = k) (hone : p.status = .active → ¬OtherActive c k) :
    checked t' = .ok t' ∧ Agree sha256 (c.insert k p) t' := by
  have hsame : ∀ a, (c.insert k p).get? a = (t'.get? a).map Row.merged := by
    intro a
    rw [Dict.get?_insert, hput, h.same]
    by_cases ha : a = k
    · rw [if_pos ha, if_pos ha, Option.map_some, hrow]
    · rw [if_neg ha, if_neg ha]
  have hatMost := (atMostOneActive_insert (k := k) (p := p) h.atMostOneActive).2 hone
  refine ⟨checked_of_same hsame hatMost, hsame, fun a r hr => ?_, keyed_insert h.keyed hp, hatMost⟩
  rw [hput] at hr
  by_cases ha : a = k
  · rw [if_pos ha] at hr
    cases hr
    exact hsha
  · rw [if_neg ha] at hr
    exact h.sha a r hr

theorem agree_insertRow (h : Agree sha256 c t)
    (hnew : t.get? p.key = none) (hone : p.status = .active → ¬OtherActive c p.key) :
    ∃ t', insertRow p.key ⟨p.domain, p.status, p, p.definitionSha256 sha256⟩ t = .ok t' ∧
      Agree sha256 (c.insert p.key p) t' := by
  set row : Row V D := ⟨p.domain, p.status, p, p.definitionSha256 sha256⟩
  obtain ⟨_, hagree⟩ := agree_put h (fun a => Dict.get?_insert t p.key a row) rfl rfl rfl hone
  refine ⟨t.insert p.key row, ?_, hagree⟩
  unfold insertRow
  rwa [hnew, if_neg fun hne => hne rfl]

theorem agree_updateRow (h : Agree sha256 c t)
    (hrow : t.get? k = some row) (set : Row V D → Row V D) (hset : (set row).merged = p)
    (hsha : (set row).definitionSha256 = (set row).definition.definitionSha256 sha256)
    (hp : p.key = k) (hone : p.status = .active → ¬OtherActive c k) :
    ∃ t', updateRow k set t = .ok t' ∧ Agree sha256 (c.insert k p) t' := by
  have hput : ∀ a, (t.mapVals fun a row => if a = k then set row else row).get? a =
      if a = k then some (set row) else t.get? a := by
    intro a
    rw [Dict.get?_mapVals]
    by_cases ha : a = k
    · rw [if_pos ha, ha, hrow, Option.map_some, if_pos rfl]
    · simp only [ha, if_false, Option.map_id_fun', id_eq]
  obtain ⟨hchecked, hagree⟩ := agree_put h hput hset hsha hp hone
  exact ⟨_, hchecked, hagree⟩

/-! ## One call -/

section Calls

variable [DecidableEq D]

theorem agree_register_new (h : Agree sha256 c t) (hrow : t.get? p.key = none) :
    ∃ c' t', registerPipelineDefinition sha256 c p = .ok c' ∧ registerRow sha256 t p = .ok t' ∧
      Agree sha256 c' t' := by
  have hsame := h.same p.key
  rw [hrow, Option.map_none] at hsame
  by_cases hactive : p.status = .active
  · obtain ⟨t₁, hretire, h₁⟩ := agree_retire h p.pipelineId
      (fun k _ => k.1 = p.pipelineId) fun k _ _ => decide_eq_true_iff
    have hnew : t₁.get? p.key = none := by
      have hnone := h₁.same p.key
      rw [get?_retire, hsame, Option.map_none] at hnone
      exact Option.map_eq_none_iff.1 hnone.symm
    obtain ⟨t₂, hinsert, h₂⟩ := agree_insertRow h₁ hnew fun _ =>
      not_otherActive_retire fun k' _ _ hk => decide_eq_true hk
    refine ⟨_, t₂, ?_, ?_, h₂⟩
    · simp only [registerPipelineDefinition, hsame, hactive, if_true]
    · simp only [registerRow, hrow, hactive, if_true, hretire, guarded, Except.mapError, bind,
        Except.bind]
      rw [← hactive, hinsert]
  · obtain ⟨t₁, hinsert, h₁⟩ := agree_insertRow h hrow fun ha => absurd ha hactive
    refine ⟨_, t₁, ?_, ?_, h₁⟩
    · simp only [registerPipelineDefinition, hsame, hactive, if_false]
    · simp only [registerRow, hrow, hactive, if_false, guarded, bind, Except.bind, hinsert,
        Except.mapError]

omit [DecidableEq D] in
theorem agree_redeploy (h : Agree sha256 c t)
    (hrow : t.get? p.key = some row) (hactive : p.status = .active)
    (hrowActive : row.status = .active) :
    ∃ t', updateRow p.key (fun row => { row with
        definition := p
        definitionSha256 := p.definitionSha256 sha256
        domain := p.domain }) t = .ok t' ∧ Agree sha256 (c.insert p.key p) t' := by
  have hsame := h.same p.key
  rw [hrow, Option.map_some] at hsame
  have hother : ¬OtherActive c p.key := by
    rintro ⟨k', p', hget, hp', hk, hne⟩
    exact hne (h.atMostOneActive k' p' p.key row.merged hget hsame hp' hrowActive hk)
  have hset : Row.merged { row with
      definition := p
      definitionSha256 := p.definitionSha256 sha256
      domain := p.domain } = p := by
    unfold Row.merged
    simp only [hrowActive, ← hactive]
  exact agree_updateRow h hrow (fun row => { row with
    definition := p
    definitionSha256 := p.definitionSha256 sha256
    domain := p.domain }) hset rfl rfl fun _ => hother

theorem agree_register (h : Agree sha256 c t) (hno : ¬Revives sha256 c (.register p)) :
    (∃ c' t', registerPipelineDefinition sha256 c p = .ok c' ∧ registerRow sha256 t p = .ok t' ∧
        Agree sha256 c' t') ∨
      ∃ message, registerPipelineDefinition sha256 c p = .error message ∧
        registerRow sha256 t p = .error (.stateConflict message) := by
  have hsame := h.same p.key
  cases hrow : t.get? p.key with
  | none => exact .inl (agree_register_new h hrow)
  | some row =>
    rw [hrow, Option.map_some] at hsame
    have hsha : row.merged.definitionSha256 sha256 = row.definitionSha256 := (h.sha _ row hrow).symm
    by_cases hchanged : row.definitionSha256 = p.definitionSha256 sha256
    · refine .inl ⟨c, t, ?_, ?_, h⟩
      · simp only [registerPipelineDefinition, hsame, hsha, hchanged, ne_eq, not_true, if_false]
      · simp only [registerRow, hrow, hchanged, ne_eq, not_true, if_false]
    · by_cases hactive : p.status = .active
      · have hrowActive : row.status = .active := by
          by_contra hne
          exact hno ⟨row.merged, hsame, hsha ▸ hchanged, hactive, hne⟩
        obtain ⟨t₁, hupdate, h₁⟩ := agree_redeploy h hrow hactive hrowActive
        refine .inl ⟨_, t₁, ?_, ?_, h₁⟩
        · simp only [registerPipelineDefinition, hsame, hsha, hchanged, hactive, ne_eq,
            not_false_eq_true, if_true]
        · simp only [registerRow, hrow, hchanged, hactive, ne_eq, not_false_eq_true, if_true,
            hupdate, statement, Except.mapError]
      · refine .inr ⟨"pipeline version definition is immutable", ?_, ?_⟩
        · simp only [registerPipelineDefinition, hsame, hsha, hchanged, hactive, ne_eq,
            not_false_eq_true, if_true, if_false]
        · simp only [registerRow, hrow, hchanged, hactive, ne_eq, not_false_eq_true, if_true,
            if_false]

omit [DecidableEq D] in
theorem agree_activate (h : Agree sha256 c t) {pipelineId version : String}
    (hrow : t.get? (pipelineId, version) = some row) :
    ∃ t₁ t₂, retireRows pipelineId t = .ok t₁ ∧
      updateRow (pipelineId, version) (fun row => { row with status := .active }) t₁ = .ok t₂ ∧
      Agree sha256 ((retire (fun _ p => p.pipelineId = pipelineId) c).insert (pipelineId, version)
        { row.merged with status := .active }) t₂ := by
  have hsame := h.same (pipelineId, version)
  rw [hrow, Option.map_some] at hsame
  have hkey : row.merged.key = (pipelineId, version) := h.keyed _ _ hsame
  obtain ⟨t₁, hretire, h₁⟩ := agree_retire h pipelineId
    (fun _ p => p.pipelineId = pipelineId) fun k p hget => by
      rw [decide_eq_true_iff, ← h.keyed k p hget]
      rfl
  obtain ⟨row₁, hrow₁, hpayload⟩ : ∃ row₁, t₁.get? (pipelineId, version) = some row₁ ∧
      row₁.definition.toPipelinePayload = row.definition.toPipelinePayload := by
    have hsame₁ := h₁.same (pipelineId, version)
    rw [get?_retire, hsame, Option.map_some, eq_comm, Option.map_eq_some_iff] at hsame₁
    obtain ⟨row₁, hrow₁, hmerged⟩ := hsame₁
    refine ⟨row₁, hrow₁, (congrArg PipelineDefinition.toPipelinePayload hmerged).trans ?_⟩
    split <;> rfl
  have hset : Row.merged { row₁ with status := .active } =
      { row.merged with status := .active } := by
    unfold Row.merged
    simp only [hpayload]
  have hsha₁ := h₁.sha _ row₁ hrow₁
  obtain ⟨t₂, hupdate, h₂⟩ := agree_updateRow h₁ hrow₁ (fun row => { row with status := .active })
    hset hsha₁ hkey fun _ => not_otherActive_retire fun k' p' hget hk => decide_eq_true
      ((congrArg Prod.fst (h.keyed k' p' hget)).trans hk)
  exact ⟨t₁, t₂, hretire, hupdate, h₂⟩

omit [DecidableEq D] in
theorem agree_transition (h : Agree sha256 c t) (pipelineId version : String)
    (target : PipelineStatus) :
    (∃ c' t' updated, transitionPipelineDefinition c pipelineId version target = .ok (c', updated) ∧
        transitionRow t pipelineId version target = .ok (t', updated) ∧ Agree sha256 c' t') ∨
      ∃ message, transitionPipelineDefinition c pipelineId version target = .error message ∧
        transitionRow t pipelineId version target = .error (.stateConflict message) := by
  have hsame := h.same (pipelineId, version)
  cases hrow : t.get? (pipelineId, version) with
  | none =>
    rw [hrow, Option.map_none] at hsame
    refine .inr ⟨"pipeline version does not exist", ?_, ?_⟩
    · simp only [transitionPipelineDefinition, hsame]
    · simp only [transitionRow, hrow]
  | some row =>
    rw [hrow, Option.map_some] at hsame
    have hstatus : row.merged.status = row.status := rfl
    have hkey : row.merged.key = (pipelineId, version) := h.keyed _ _ hsame
    by_cases hallowed : target ∈ row.status.allowed
    · by_cases hactive : target = .active
      · subst hactive
        obtain ⟨_, t₂, hretire, hupdate, h₂⟩ := agree_activate h hrow
        refine .inl ⟨_, t₂, { row.merged with status := .active }, ?_, ?_, h₂⟩
        · simp only [transitionPipelineDefinition, hsame, Row.merged, hallowed, not_true, if_false,
            if_true]
        · simp only [transitionRow, hrow, hallowed, not_true, if_false, if_true, hretire, hupdate,
            statement, Except.mapError, bind, Except.bind, Row.merged]
      · obtain ⟨t₁, hupdate, h₁⟩ :=
          agree_updateRow h hrow (fun row => { row with status := target })
          rfl (h.sha _ row hrow) hkey fun ha => absurd ha hactive
        refine .inl ⟨_, t₁, { row.merged with status := target }, ?_, ?_, h₁⟩
        · simp only [transitionPipelineDefinition, hsame, hallowed, not_true, hactive,
            if_false, Row.merged]
        · simp only [transitionRow, hrow, hallowed, not_true, hactive, if_false, hupdate, statement,
            Except.mapError, bind, Except.bind, Row.merged]
    · refine .inr ⟨"invalid pipeline transition: " ++ row.status.value ++ " -> " ++ target.value,
        ?_, ?_⟩
      · simp only [transitionPipelineDefinition, hsame, hstatus, hallowed, not_false_eq_true,
          if_true]
      · simp only [transitionRow, hrow, hallowed, not_false_eq_true, if_true]

theorem bothStep_eq_some {s s' : Pipelines V × Table V D} {call : Call V} :
    bothStep sha256 s call = some s' ↔
      memoryStep sha256 s.1 call = some s'.1 ∧ postgresStep sha256 s.2 call = some s'.2 := by
  unfold bothStep
  rw [Option.bind_eq_some_iff]
  constructor
  · rintro ⟨c, hc, h⟩
    obtain ⟨t, ht, rfl⟩ := Option.map_eq_some_iff.1 h
    exact ⟨hc, ht⟩
  · rintro ⟨hc, ht⟩
    exact ⟨s'.1, hc, Option.map_eq_some_iff.2 ⟨s'.2, ht, rfl⟩⟩

theorem agree_step {s : Pipelines V × Table V D} {call : Call V} (h : Agree sha256 s.1 s.2)
    (hno : ¬Revives sha256 s.1 call) :
    SameAnswer sha256 s call ∧
      ∀ s', bothStep sha256 s call = some s' → Agree sha256 s'.1 s'.2 := by
  unfold SameAnswer
  simp only [bothStep_eq_some, memoryStep, postgresStep]
  cases call with
  | register p =>
    rcases agree_register h hno with ⟨_, _, hc, ht, hagree⟩ | ⟨_, hc, ht⟩ <;>
      simp only [memoryCall, postgresCall, hc, ht, bind, Except.bind, Option.some.injEq, true_and]
    · rintro ⟨_, _⟩ ⟨rfl, rfl⟩
      exact hagree
    · rintro ⟨_, _⟩ ⟨rfl, rfl⟩
      exact h
  | transition pipelineId version target =>
    rcases agree_transition h pipelineId version target with
      ⟨c', t', updated, hc, ht, hagree⟩ | ⟨message, hc, ht⟩ <;>
      simp only [memoryCall, postgresCall, hc, ht, bind, Except.bind, Option.some.injEq, true_and]
    · rintro ⟨_, _⟩ ⟨rfl, rfl⟩
      exact hagree
    · rintro ⟨_, _⟩ ⟨rfl, rfl⟩
      exact h

/-! ## What is listed -/

omit [DecidableEq D] in
theorem sameListing_of_agree (le : String × String → String × String → Prop) [DecidableRel le]
    {s : Pipelines V × Table V D} (h : Agree sha256 s.1 s.2) : SameListing le s := by
  have hentries := (Dict.entries_perm Row.merged h.same).map Prod.snd
  rw [List.map_map] at hentries
  have hrows := (perm_sortedValues le s.2.entries).map Row.merged
  rw [List.map_map] at hrows
  exact ((perm_sortedValues KeyLe s.1.entries).trans hentries).trans hrows.symm

theorem get?_redeployed {row row' : Row V D}
    (hrow : t.get? p.key = some row) (hchanged : row.definitionSha256 ≠ p.definitionSha256 sha256)
    (hactive : p.status = .active) (h : postgresStep sha256 t (.register p) = some t')
    (hk : t'.get? k = some row') :
    k = p.key ∧ row'.status = row.status ∨ k ≠ p.key ∧ t.get? k = some row' := by
  simp only [postgresStep, postgresCall, registerRow, hrow, ne_eq, hchanged, not_false_eq_true,
    if_true, hactive] at h
  unfold updateRow checked at h
  split at h
  · rename_i hok
    split at hok
    · cases hok
      cases h
      rw [Dict.get?_mapVals, Option.map_eq_some_iff] at hk
      obtain ⟨_, hold, rfl⟩ := hk
      by_cases hkey : k = p.key
      · rw [hkey, hrow] at hold
        cases hold
        exact .inl ⟨hkey, by rw [if_pos hkey]⟩
      · exact .inr ⟨hkey, by rw [if_neg hkey, hold]⟩
    · cases hok
  · cases h
    by_cases hkey : k = p.key
    · rw [hkey, hrow] at hk
      cases hk
      exact .inl ⟨hkey, rfl⟩
    · exact .inr ⟨hkey, hk⟩

theorem differ_of_revives (le : String × String → String × String → Prop) [DecidableRel le]
    {s s' : Pipelines V × Table V D} {call : Call V} (h : Agree sha256 s.1 s.2)
    (hrevives : Revives sha256 s.1 call) (hs : bothStep sha256 s call = some s') :
    ¬SameListing le s' := by
  cases call with
  | transition => exact hrevives.elim
  | register p =>
    obtain ⟨_, hget, hsha, hactive, hinactive⟩ := hrevives
    have hsame := h.same p.key
    rw [hget, eq_comm, Option.map_eq_some_iff] at hsame
    obtain ⟨row, hrow, rfl⟩ := hsame
    have hchanged : row.definitionSha256 ≠ p.definitionSha256 sha256 := h.sha _ row hrow ▸ hsha
    obtain ⟨hmemory, hpostgres⟩ := bothStep_eq_some.1 hs
    have hs₁ : s'.1 = s.1.insert p.key p := by
      simp only [memoryStep, memoryCall, registerPipelineDefinition, hget, ne_eq, hsha,
        not_false_eq_true, if_true, hactive, bind, Except.bind, Option.some.injEq] at hmemory
      exact hmemory.symm
    intro hperm
    have hmem : p ∈ listPipelineDefinitions s'.1 := by
      refine (perm_sortedValues KeyLe s'.1.entries).mem_iff.2
        ((Dict.mem_values s'.1 p).2 ⟨p.key, ?_⟩)
      rw [hs₁, Dict.get?_insert_self]
    rw [hperm.mem_iff, listRows, List.mem_map] at hmem
    obtain ⟨row', hrow', rfl⟩ := hmem
    obtain ⟨k, hk⟩ := (Dict.mem_values s'.2 row').1
        ((perm_sortedValues le s'.2.entries).mem_iff.1 hrow')
    rcases get?_redeployed hrow hchanged hactive hpostgres hk with ⟨-, hstatus⟩ | ⟨hne, hk⟩
    · exact hinactive (hstatus.symm.trans hactive)
    · exact hne (h.keyed k row'.merged (by rw [h.same, hk, Option.map_some])).symm

/-! ## Runs -/

/-- **The catalogs agree**: after every call of a run the answers and the listings are the same
**iff** no call redeploys, as active, a changed definition of a version that is not active. -/
theorem catalogs_agree_iff (sha256 : PipelinePayload V → D)
    (le : String × String → String × String → Prop) [DecidableRel le] (calls : List (Call V)) :
    Along (bothStep sha256) (fun s call => SameAnswer sha256 s call ∧
          ∀ s', bothStep sha256 s call = some s' → SameListing le s') (.empty, .empty) calls ↔
      Along (bothStep sha256) (fun s call => ¬Revives sha256 s.1 call) (.empty, .empty) calls := by
  have hiff : ∀ (s : Pipelines V × Table V D) (call : Call V), Agree sha256 s.1 s.2 →
      ((SameAnswer sha256 s call ∧ ∀ s', bothStep sha256 s call = some s' → SameListing le s') ↔
        ¬Revives sha256 s.1 call) := by
    intro s call h
    constructor
    · rintro ⟨-, hlisting⟩ hrevives
      obtain ⟨c, hc⟩ : ∃ c, memoryStep sha256 s.1 call = some c :=
        Option.ne_none_iff_exists'.1 (memoryStep_ne_none s.1 call)
      obtain ⟨t, ht⟩ : ∃ t, postgresStep sha256 s.2 call = some t := by
        unfold postgresStep
        split <;> exact ⟨_, rfl⟩
      have hs : bothStep sha256 s call = some (c, t) := bothStep_eq_some.2 ⟨hc, ht⟩
      exact differ_of_revives le h hrevives hs (hlisting _ hs)
    · intro hno
      obtain ⟨hanswer, hagree⟩ := agree_step h hno
      exact ⟨hanswer, fun s' hs => sameListing_of_agree le (hagree s' hs)⟩
  exact along_iff (I := fun s => Agree sha256 s.1 s.2) hiff
    (fun s call s' h hgood hs => (agree_step h ((hiff s call h).1 hgood)).2 s' hs) agree_empty

end Calls

/-- A version that was retired comes again, changed and active. -/
def revival : List (Call Unit) :=
  [.register (textVersion "1.0.0" "read.lines"), .transition "ocr.text" "1.0.0" .retired,
    .register (textVersion "1.0.0" "read.text")]

/-- **Memory lists the version as active, Postgres as retired.** -/
theorem revived_differ :
    ∃ s ∈ states (bothStep PipelinePayload.output) (.empty, .empty) revival,
      (listPipelineDefinitions s.1).map (·.status) = [.active] ∧
        (listRows KeyLe s.2).map (·.status) = [.retired] ∧ ¬SameListing KeyLe s := by
  refine ⟨_, .tail _ (.tail _ (.tail _ (.head _))), by decide +kernel, by decide +kernel,
    fun h => ?_⟩
  have hstatus := h.map (·.status)
  have hmem : PipelineStatus.active ∈ ([.retired] : List PipelineStatus) := hstatus.mem_iff.1
    (List.mem_singleton_self _)
  exact absurd hmem (by decide)

end Scenara.Catalog
