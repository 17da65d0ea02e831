import Scenara.Core.Transition
import Scenara.Surveillance.Repositories

/-!
# The memory and the Postgres surveillance repositories

The two repositories go through the same calls (`step`). They agree (`Agree`) when the documents of
each table are the records in memory (`Mirrors`), the columns of a member row are those of its
document, every binding row is of a stored task that has the binding, and every watchlist that is
named is stored.

Postgres gets from its schema what the memory repository does not do: a watchlist that a task names
is not deleted, a binding id is of one task of the project, a saved member keeps the columns of its
watchlist and its identity, and texts, times and revisions fit their columns.
-/

namespace Scenara.Surveillance.Repositories

open Scenara.Core

variable {R F C : Type} {db : Database R}
variable {expectedRevision : ℤ} {s : Both R}

/-! ## A table and a dictionary of records -/

/-- A row as the statements leave it under `k`; `describes` relates the fields of a record to the
columns of its own. -/
structure Row.Stored (schema : Schema F C) (describes : F → C → Prop) (k : Key) (row : Row F C) :
    Prop where
  key : row.document.key = k
  revision : row.revision = row.document.revision
  checks : schema.checks k row = true
  columns : describes row.document.fields row.columns

/-- The documents of the table are the records in memory. -/
structure Mirrors (schema : Schema F C) (describes : F → C → Prop) (rows : Dict Key (Row F C))
    (records : Dict Key (Record F)) : Prop where
  same : ∀ k, records.get? k = (rows.get? k).map Row.document
  stored : ∀ k row, rows.get? k = some row → row.Stored schema describes k

section Table

variable {schema : Schema F C} {describes : F → C → Prop} {rows : Dict Key (Row F C)}
  {records : Dict Key (Record F)} {record : Record F} {row : Row F C} {k : Key}

theorem mirrors_empty : Mirrors schema describes .empty .empty :=
  ⟨fun _ => rfl, nofun⟩

section

variable (h : Mirrors schema describes rows records)
include h

theorem Mirrors.insert (hrow : row.Stored schema describes k) :
    Mirrors schema describes (rows.insert k row) (records.insert k row.document) := by
  refine ⟨fun a => ?_, fun a r hr => ?_⟩
  · rw [Dict.get?_insert, Dict.get?_insert, h.same]
    split <;> rfl
  · rcases Dict.get?_insert_cases hr with ⟨rfl, rfl⟩ | ⟨-, hr⟩
    · exact hrow
    · exact h.stored a r hr

theorem Mirrors.erase (k : Key) : Mirrors schema describes (rows.erase k) (records.erase k) := by
  refine ⟨fun a => ?_, fun a r hr => ?_⟩
  · rw [Dict.get?_erase, Dict.get?_erase, h.same]
    split <;> rfl
  · exact h.stored a r (Dict.get?_erase_some hr).2

theorem Mirrors.filter {keepRow : Key → Row F C → Bool} {keep : Key → Record F → Bool}
    (hkeep : ∀ k row, rows.get? k = some row → keep k row.document = keepRow k row) :
    Mirrors schema describes (rows.filter keepRow) (records.filter keep) := by
  refine ⟨fun a => ?_, fun a r hr => ?_⟩
  · rw [Dict.get?_filter, Dict.get?_filter, h.same]
    cases hrow : rows.get? a with
    | none => rfl
    | some row =>
      rw [Option.map_some, Option.filter_some, Option.filter_some, hkeep a row hrow]
      split <;> rfl
  · rw [Dict.get?_filter, Option.filter_eq_some_iff] at hr
    exact h.stored a r hr.1

theorem Mirrors.exists_row {current : Record F}
    (hget : records.get? k = some current) : ∃ row, rows.get? k = some row ∧
    row.document = current := by
  rwa [h.same, Option.map_eq_some_iff] at hget

theorem Mirrors.isSome (k : Key) : (rows.get? k).isSome = (records.get? k).isSome := by
  rw [h.same, Option.isSome_map]

theorem Mirrors.key {current : Record F}
    (hget : records.get? k = some current) : current.key = k := by
  obtain ⟨row, hrow, rfl⟩ := h.exists_row hget
  exact (h.stored k row hrow).key

theorem Mirrors.any (pick : Key → Row F C → Bool) (pickRecord : Record F → Bool)
    (hpick : ∀ k row, rows.get? k = some row → pickRecord row.document = pick k row) :
    (rows.entries.any fun e => pick e.1 e.2) = records.values.any pickRecord := by
  rw [Bool.eq_iff_iff, List.any_eq_true, List.any_eq_true]
  constructor
  · rintro ⟨⟨k, row⟩, hmem, hp⟩
    have hrow := (Dict.mem_entries rows k row).1 hmem
    refine ⟨row.document, (Dict.mem_values records _).2 ⟨k, ?_⟩, (hpick k row hrow).trans hp⟩
    rw [h.same, hrow, Option.map_some]
  · rintro ⟨current, hmem, hp⟩
    obtain ⟨k, hget⟩ := (Dict.mem_values records current).1 hmem
    obtain ⟨row, hrow, rfl⟩ := h.exists_row hget
    exact ⟨(k, row), (Dict.mem_entries rows k row).2 hrow, (hpick k row hrow).symm.trans hp⟩

theorem Mirrors.perm_list {keepRow : Key → Row F C → Bool} {keep : Key → Record F → Bool}
    (hkeep : ∀ k row, rows.get? k = some row → keep k row.document = keepRow k row) :
    (listRecords keep records).Perm (listRows db keepRow rows) := by
  have hentries := Dict.entries_perm Row.document (h.filter hkeep).same
  have hvalues := hentries.map Prod.snd
  rw [List.map_map] at hvalues
  refine (List.perm_insertionSort _ _).trans (hvalues.trans ?_)
  exact ((List.perm_insertionSort _ (rows.filter keepRow).entries).map _).symm

end

/-! ## Statements -/

/-- The values fit their columns and the CHECKs. -/
def Schema.fits (db : Database R) (schema : Schema F C) (record : Record F) : Bool :=
  (schema.bind db record).any (schema.checks record.key)

theorem bind_eq_some (h : schema.bind db record = some row) :
    row.document = record ∧ row.revision = record.revision ∧
      schema.columns record.fields = some row.columns := by
  unfold Schema.bind at h
  split at h
  · simp only [Option.bind_eq_bind, Option.bind_eq_some_iff, Option.pure_def,
      Option.some.injEq] at h
    obtain ⟨_, -, _, -, _, hrevision, _, hcolumns, rfl⟩ := h
    unfold integer at hrevision
    split at hrevision
    · cases hrevision
      exact ⟨rfl, rfl, hcolumns⟩
    · cases hrevision
  · cases h

theorem rebind_eq_some {set : Row F C → Row F C} (h : schema.rebind db record = some set) :
    ∃ columns, schema.columns record.fields = some columns ∧ ∀ row, (set row).document = record ∧
      (set row).revision = record.revision ∧
      (set row).columns = schema.set row.columns columns := by
  unfold Schema.rebind at h
  split at h
  · simp only [Option.bind_eq_bind, Option.bind_eq_some_iff, Option.pure_def,
      Option.some.injEq] at h
    obtain ⟨_, -, _, hrevision, columns, hcolumns, rfl⟩ := h
    unfold integer at hrevision
    split at hrevision
    · cases hrevision
      exact ⟨columns, hcolumns, fun _ => ⟨rfl, rfl, rfl⟩⟩
    · cases hrevision
  · cases h

theorem insertRow_of_fits (describes : F → C → Prop) (rows : Dict Key (Row F C))
    (hfits : schema.fits db record = true)
    (hcolumns : ∀ c, schema.columns record.fields = some c → describes record.fields c) :
    ∃ row, row.Stored schema describes record.key ∧ row.document = record ∧
      schema.columns record.fields = some row.columns ∧
      schema.insertRow db rows record =
        if schema.taken rows record.key row.columns then .error .uniqueViolation
        else .ok (rows.insert record.key row) := by
  obtain ⟨row, hbind, hchecks⟩ := (Option.any_eq_true _ _).1 hfits
  obtain ⟨hdocument, hrevision, hown⟩ := bind_eq_some hbind
  have hstored : row.Stored schema describes record.key :=
    ⟨by rw [hdocument], by rw [hrevision, hdocument], hchecks, by
      rw [hdocument]
      exact hcolumns _ hown⟩
  refine ⟨row, hstored, hdocument, hown, ?_⟩
  simp only [Schema.insertRow, hbind, hchecks, Bool.not_true, Bool.false_eq_true, if_false]

theorem updateRow_of_binds (h : Mirrors schema describes rows records)
    (what : String) (hbinds : (schema.rebind db (record.saved expectedRevision)).isSome)
    (hset : ∀ current ∈ records.get? record.key, current.revision = expectedRevision →
      ∀ old new, describes current.fields old → schema.columns record.fields = some new →
        describes record.fields (schema.set old new) ∧ schema.check (schema.set old new) = true) :
    (∃ current rows', records.get? record.key = some current ∧ current.revision = expectedRevision ∧
        schema.updateRow db rows (record.saved expectedRevision) expectedRevision =
          .ok (some rows') ∧
        save what records record expectedRevision =
          .ok (records.insert record.key (record.saved expectedRevision)) ∧
        Mirrors schema describes rows'
          (records.insert record.key (record.saved expectedRevision))) ∨
      schema.updateRow db rows (record.saved expectedRevision) expectedRevision = .ok none ∧
        ∃ message, save what records record expectedRevision =
          .error (.surveillanceConflict message) := by
  obtain ⟨set, hrebind⟩ := Option.isSome_iff_exists.1 hbinds
  obtain ⟨new, hnew, hsets⟩ := rebind_eq_some hrebind
  have hkey : (record.saved expectedRevision).key = record.key := rfl
  cases hget : records.get? record.key with
  | none =>
    have hrow : rows.get? record.key = none := by
      rwa [h.same, Option.map_eq_none_iff] at hget
    refine .inr ⟨?_, what ++ " does not exist", ?_⟩
    · simp only [Schema.updateRow, hrebind, hkey, hrow]
    · simp only [save, hget]
  | some current =>
    obtain ⟨row, hrow, hdocument⟩ := h.exists_row hget
    have hstored := h.stored _ row hrow
    have hcurrent : row.revision = current.revision := by rw [hstored.revision, hdocument]
    by_cases hrevision : current.revision = expectedRevision
    · obtain ⟨hdoc, hrev, hcols⟩ := hsets row
      have hdescribes : describes current.fields row.columns := hdocument ▸ hstored.columns
      obtain ⟨hset', hcheck⟩ := hset current hget hrevision row.columns new hdescribes hnew
      have hchecks : schema.checks record.key (set row) = true := by
        have hold := hstored.checks
        unfold Schema.checks at hold ⊢
        rw [hrev, hcols, hcheck]
        simp only [Bool.and_eq_true, decide_eq_true_eq] at hold ⊢
        refine ⟨⟨hold.1.1, ?_⟩, trivial⟩
        have hpos := hold.1.2
        rw [hcurrent, hrevision] at hpos
        exact Int.lt_add_one_of_le hpos.le
      have hput : (set row).Stored schema describes record.key :=
        ⟨by rw [hdoc, hkey], by rw [hrev, hdoc], hchecks, by
          rw [hdoc, hcols]
          exact hset'⟩
      refine .inl ⟨current, rows.insert record.key (set row), rfl, hrevision, ?_, ?_, ?_⟩
      · simp only [Schema.updateRow, hrebind, hkey, hrow, hcurrent, hrevision, hchecks, ne_eq,
          not_true, if_false, Bool.not_true, Bool.false_eq_true]
      · simp only [save, hget, hrevision, ne_eq, not_true, if_false]
      · have hmirrors := h.insert hput
        rwa [hdoc] at hmirrors
    · refine .inr ⟨?_, what ++ " revision conflict", ?_⟩
      · simp only [Schema.updateRow, hrebind, hkey, hrow, hcurrent, ne_eq, hrevision,
          not_false_eq_true, if_true]
      · simp only [save, hget, ne_eq, hrevision, not_false_eq_true, if_true]

theorem insertRow_of_new (h : Mirrors schema describes rows records) (taken : String)
    (hfits : schema.fits db record = true)
    (hcolumns : ∀ c, schema.columns record.fields = some c → describes record.fields c)
    (hclash : ∀ c c', schema.clash c c' = false) :
    (∃ rows', records.get? record.key = none ∧ schema.insertRow db rows record = .ok rows' ∧
        create taken records record = .ok (records.insert record.key record) ∧
        Mirrors schema describes rows' (records.insert record.key record)) ∨
      (records.get? record.key).isSome ∧
        schema.insertRow db rows record = .error .uniqueViolation ∧
        create taken records record = .error (.surveillanceConflict taken) := by
  obtain ⟨row, hstored, hdocument, -, hinsert⟩ := insertRow_of_fits describes rows hfits hcolumns
  have htaken : schema.taken rows record.key row.columns = (records.get? record.key).isSome := by
    unfold Schema.taken
    rw [h.isSome]
    simp [hclash]
  rw [htaken] at hinsert
  cases hget : records.get? record.key with
  | none =>
    rw [hget] at hinsert
    refine .inl ⟨_, rfl, hinsert, ?_, ?_⟩
    · simp only [create, hget, Option.isSome_none, Bool.false_eq_true, if_false]
    · have hmirrors := h.insert hstored
      rwa [hdocument] at hmirrors
  | some =>
    rw [hget] at hinsert
    refine .inr ⟨rfl, hinsert, ?_⟩
    simp only [create, hget, Option.isSome_some, if_true]

end Table

/-! ## Bindings -/

section Bindings

variable {task : Key} {kept rows : Dict Key BindingRow} {written : List (TaskBinding String)}

/-- Beside the kept rows stand those of the bindings written so far. -/
def Placed (task : Key) (kept : Dict Key BindingRow) (written : List (TaskBinding String))
    (rows : Dict Key BindingRow) : Prop :=
  ∀ k row, rows.get? k = some row → kept.get? k = some row ∨
    ∃ b ∈ written, k = task.sibling b.bindingId ∧ row = ⟨task.id, b⟩

theorem placed_insertBinding (h : Placed task kept written rows) {b : TaskBinding String}
    (hkept : ∀ k row, kept.get? k = some row → ofTask task k row = false)
    (hid : b.bindingId ∉ written.map TaskBinding.bindingId)
    (hcamera : (b.sourceId, b.cameraId) ∉ written.map fun b => (b.sourceId, b.cameraId))
    (hstorable : storableBinding b = true) (htext : idText b.bindingId = true)
    (hnone : kept.get? (task.sibling b.bindingId) = none) :
    ∃ rows', insertBinding task rows b = .ok rows' ∧ Placed task kept (written ++ [b]) rows' := by
  have hfree : rows.get? (task.sibling b.bindingId) = none := by
    rw [Option.eq_none_iff_forall_ne_some]
    intro row hrow
    rcases h _ row hrow with hold | ⟨b', hb', hkey, -⟩
    · simp [hnone] at hold
    · exact hid (List.mem_map.2 ⟨b', hb', (congrArg Key.id hkey).symm⟩)
  have hunique : (rows.entries.any fun e => e.1.sameProject (task.sibling b.bindingId) &&
      e.2.taskId = task.id && e.2.document.sourceId = b.sourceId &&
      e.2.document.cameraId = b.cameraId) = false := by
    rw [List.any_eq_false]
    rintro ⟨k, row⟩ hmem htaken
    simp only [Bool.and_eq_true, decide_eq_true_eq] at htaken
    obtain ⟨⟨⟨hproject, htask⟩, hsource⟩, hcam⟩ := htaken
    rcases h k row ((Dict.mem_entries rows k row).1 hmem) with hold | ⟨b', hb', -, rfl⟩
    · have hother := hkept k row hold
      unfold ofTask at hother
      rw [htask] at hother
      simp only [decide_true, Bool.and_true] at hother
      exact absurd hproject (Bool.eq_false_iff.1 hother)
    · exact hcamera (List.mem_map.2 ⟨b', hb', by rw [← hsource, ← hcam]⟩)
  refine ⟨rows.insert (task.sibling b.bindingId) ⟨task.id, b⟩, ?_, fun k row hrow => ?_⟩
  · simp only [insertBinding, hstorable, htext, hfree, hunique, Option.isSome_none, Bool.not_true,
      Bool.false_or, Bool.false_eq_true, if_false]
  · rcases Dict.get?_insert_cases hrow with ⟨hk, rfl⟩ | ⟨-, hrow⟩
    · exact .inr ⟨b, List.mem_append_right _ (List.mem_singleton_self b), hk, rfl⟩
    · rcases h k row hrow with hold | ⟨b', hb', hkey, hdoc⟩
      · exact .inl hold
      · exact .inr ⟨b', List.mem_append_left _ hb', hkey, hdoc⟩

theorem placed_foldlM (hkept : ∀ k row, kept.get? k = some row → ofTask task k row = false) :
    ∀ (bindings written : List (TaskBinding String)) (rows : Dict Key BindingRow),
      ((written ++ bindings).map TaskBinding.bindingId).Nodup →
      ((written ++ bindings).map fun b => (b.sourceId, b.cameraId)).Nodup →
      (∀ b ∈ bindings, storableBinding b = true ∧ idText b.bindingId = true ∧
        kept.get? (task.sibling b.bindingId) = none) →
      Placed task kept written rows →
      ∃ rows', bindings.foldlM (insertBinding task) rows = .ok rows' ∧
        Placed task kept (written ++ bindings) rows' := by
  intro bindings
  induction bindings with
  | nil =>
    intro _ rows _ _ _ h
    exact ⟨rows, rfl, by rwa [List.append_nil]⟩
  | cons b _ ih =>
    intro written _ hids hcameras hfits h
    obtain ⟨hstorable, htext, hnone⟩ := hfits b List.mem_cons_self
    have hid : b.bindingId ∉ written.map TaskBinding.bindingId := by
      rw [List.map_append, List.map_cons] at hids
      exact fun hin => List.disjoint_of_nodup_append hids hin List.mem_cons_self
    have hcamera : (b.sourceId, b.cameraId) ∉ written.map fun b => (b.sourceId, b.cameraId) := by
      rw [List.map_append, List.map_cons] at hcameras
      exact fun hin => List.disjoint_of_nodup_append hcameras hin List.mem_cons_self
    obtain ⟨rows₁, hinsert, h₁⟩ := placed_insertBinding h hkept hid hcamera hstorable htext hnone
    rw [← List.singleton_append, ← List.append_assoc] at hids hcameras
    obtain ⟨rows₂, _, h₂⟩ := ih (written ++ [b]) rows₁ hids hcameras
      (fun b' hb' => hfits b' (List.mem_cons_of_mem b hb')) h₁
    refine ⟨rows₂, ?_, by rwa [List.append_assoc, List.singleton_append] at h₂⟩
    rwa [List.foldlM_cons, hinsert]

end Bindings

/-- Every binding row is of a stored task that has the binding. -/
def BindingsOf (tasks : Dict Key (SurveillanceTask R)) (rows : Dict Key BindingRow) : Prop :=
  ∀ k row, rows.get? k = some row → ∃ task, tasks.get? (k.sibling row.taskId) = some task ∧
    k.id ∈ task.fields.bindings.map TaskBinding.bindingId

/-- The binding ids are well formed and no other task of the project has them. -/
def BindingsFree (tasks : Dict Key (SurveillanceTask R)) (task : SurveillanceTask R) : Prop :=
  ∀ b ∈ task.fields.bindings, idText b.bindingId = true ∧
    ∀ other ∈ tasks.values, other.key.sameProject task.key = true → other.key.id ≠ task.key.id →
      b.bindingId ∉ other.fields.bindings.map TaskBinding.bindingId
  deriving Decidable

theorem bindingsOf_replace {tasks : Dict Key (SurveillanceTask R)} {rows : Dict Key BindingRow}
    (task : SurveillanceTask R) (h : BindingsOf tasks rows)
    (hkeyed : ∀ k t, tasks.get? k = some t → t.key = k)
    (hstorable : task.fields.bindings.all storableBinding = true)
      (hfree : BindingsFree tasks task) :
    ∃ rows', replaceBindings rows task = .ok rows' ∧
      BindingsOf (tasks.insert task.key task) rows' := by
  set kept := rows.filter fun key row => !ofTask task.key key row with hkeptDef
  have hkept : ∀ k row, kept.get? k = some row →
      rows.get? k = some row ∧ ofTask task.key k row = false := by
    intro k _ hrow
    rwa [hkeptDef, Dict.get?_filter, Option.filter_eq_some_iff, Bool.not_eq_true'] at hrow
  have hfits : ∀ b ∈ task.fields.bindings, storableBinding b = true ∧ idText b.bindingId = true ∧
      kept.get? (task.key.sibling b.bindingId) = none := by
    intro b hb
    obtain ⟨htext, hothers⟩ := hfree b hb
    refine ⟨List.all_eq_true.1 hstorable b hb, htext, ?_⟩
    rw [Option.eq_none_iff_forall_ne_some]
    intro row hrow
    obtain ⟨hold, hother⟩ := hkept _ row hrow
    obtain ⟨owner, howner, hbinding⟩ := h _ row hold
    have hkey : owner.key = task.key.sibling row.taskId := hkeyed _ owner howner
    refine hothers owner ((Dict.mem_values tasks owner).2 ⟨_, howner⟩) ?_ ?_ hbinding
    · rw [hkey]
      simp [Key.sameProject, Key.sibling]
    · rw [hkey]
      intro hid
      have htask : row.taskId = task.key.id := hid
      simp [ofTask, Key.sameProject, Key.sibling, htask] at hother
  obtain ⟨rows', hfold, hplaced⟩ := placed_foldlM (fun k row hrow => (hkept k row hrow).2)
    task.fields.bindings [] kept task.fields.nodupBindings task.fields.nodupCameras hfits
    fun k row hrow => .inl hrow
  refine ⟨rows', hfold, fun k row hrow => ?_⟩
  rcases hplaced k row hrow with hold | ⟨b, hb, rfl, rfl⟩
  · obtain ⟨hold, hother⟩ := hkept k row hold
    obtain ⟨owner, _, hbinding⟩ := h k row hold
    refine ⟨owner, ?_, hbinding⟩
    have hne : k.sibling row.taskId ≠ task.key := by
      rintro heq
      simp [ofTask, Key.sameProject, ← heq, Key.sibling] at hother
    rwa [Dict.get?_insert_of_ne _ _ hne]
  · refine ⟨task, ?_, List.mem_map_of_mem hb⟩
    exact Dict.get?_insert_self tasks task.key task

theorem storable_of_fits {task : SurveillanceTask R} (h : db.tasks.fits db task = true) :
    task.fields.bindings.all storableBinding = true := by
  obtain ⟨_, hbind, -⟩ := (Option.any_eq_true _ _).1 h
  unfold Schema.bind at hbind
  split at hbind
  · rename_i hstorable
    simp only [Database.tasks, Bool.and_eq_true] at hstorable
    exact hstorable.2.1.2
  · cases hbind

theorem storable_of_binds {task : SurveillanceTask R} (h : (db.tasks.rebind db task).isSome) :
    task.fields.bindings.all storableBinding = true := by
  obtain ⟨_, hrebind⟩ := Option.isSome_iff_exists.1 h
  unfold Schema.rebind at hrebind
  split at hrebind
  · rename_i hstorable
    simp only [Database.tasks, Bool.and_eq_true] at hstorable
    exact hstorable.2.1.2
  · cases hrebind

/-! ## Both repositories -/

/-- The columns of a member row are those of its document. -/
def Enrols (member : MemberFields R) (columns : MemberColumns) : Prop :=
  columns.watchlistId = member.watchlistId ∧ columns.portraitIdentityId = member.portraitIdentityId

/-- The tables mirror the dictionaries, and every reference is to a stored record. -/
structure Agree (db : Database R) (s : Both R) : Prop where
  watchlists : Mirrors db.watchlists (fun _ _ => True) s.postgres.watchlists s.memory.watchlists
  members : Mirrors db.members Enrols s.postgres.members s.memory.members
  tasks : Mirrors db.tasks (fun _ _ => True) s.postgres.tasks s.memory.tasks
  bindings : BindingsOf s.memory.tasks s.postgres.bindings
  ofTasks : ∀ k task, s.memory.tasks.get? k = some task → ∀ id ∈ task.fields.watchlistIds,
    (s.memory.watchlists.get? (k.sibling id)).isSome
  ofMembers : ∀ k member, s.memory.members.get? k = some member →
    (s.memory.watchlists.get? (k.sibling member.fields.watchlistId)).isSome

theorem agree_empty (db : Database R) : Agree db .empty :=
  ⟨mirrors_empty, mirrors_empty, mirrors_empty, nofun, nofun, nofun⟩

/-- Both go through, return the same and agree, or both raise the conflict. -/
def Alike (db : Database R) (x : Except Error (Memory R × Reply R))
    (y : Except Error (Postgres R × Reply R)) : Prop :=
  (∃ m p reply, x = .ok (m, reply) ∧ y = .ok (p, reply) ∧ Agree db ⟨m, p⟩) ∨
    ∃ a b, x = .error (.surveillanceConflict a) ∧ y = .error (.surveillanceConflict b)

theorem isSome_insert {d : Dict Key (Record F)} {a : Key} (k : Key) (record : Record F)
    (h : (d.get? a).isSome) : ((d.insert k record).get? a).isSome := by
  rw [Dict.get?_insert]
  split
  · rfl
  · exact h

section Calls

variable {m : Memory R} {p : Postgres R}

/-! ### Watchlists -/

theorem agree_watchlists (h : Agree db ⟨m, p⟩) {watchlists : Dict Key (Watchlist R)}
    {rows : Dict Key (Row R Unit)}
    (hmirrors : Mirrors db.watchlists (fun _ _ => True) rows watchlists)
    (hkeep : ∀ k, (m.watchlists.get? k).isSome → (watchlists.get? k).isSome) :
    Agree db ⟨{ m with watchlists }, { p with watchlists := rows }⟩ :=
  ⟨hmirrors, h.members, h.tasks, h.bindings,
    fun k task htask id hid => hkeep _ (h.ofTasks k task htask id hid),
    fun k member hmember => hkeep _ (h.ofMembers k member hmember)⟩

theorem alike_createWatchlist (h : Agree db ⟨m, p⟩) {watchlist : Watchlist R}
    (hfits : db.watchlists.fits db watchlist = true) :
    Alike db (m.createWatchlist watchlist) (p.createWatchlist db watchlist) := by
  rcases insertRow_of_new h.watchlists "watchlist already exists" hfits (fun _ _ => trivial)
    (fun _ _ => rfl) with ⟨rows, -, hinsert, hcreate, hmirrors⟩ | ⟨-, hinsert, hcreate⟩
  · refine .inl ⟨_, _, .watchlist watchlist, ?_, ?_,
      agree_watchlists h hmirrors fun k => isSome_insert watchlist.key watchlist⟩
    · rw [Memory.createWatchlist, hcreate]
      rfl
    · rw [Postgres.createWatchlist, hinsert]
      rfl
  · refine .inr ⟨"watchlist already exists", "watchlist already exists", ?_, ?_⟩
    · rw [Memory.createWatchlist, hcreate]
      rfl
    · rw [Postgres.createWatchlist, hinsert]
      rfl

theorem alike_saveWatchlist (h : Agree db ⟨m, p⟩) {watchlist : Watchlist R}
    (hbinds : (db.watchlists.rebind db (watchlist.saved expectedRevision)).isSome) :
    Alike db (m.saveWatchlist watchlist expectedRevision)
      (p.saveWatchlist db watchlist expectedRevision) := by
  rcases updateRow_of_binds h.watchlists "watchlist" hbinds
    (fun _ _ _ _ _ _ _ => ⟨trivial, rfl⟩) with
    ⟨_, rows, -, -, hupdate, hsave, hmirrors⟩ | ⟨hupdate, message, hsave⟩
  · refine .inl ⟨_, _, .watchlist (watchlist.saved expectedRevision), ?_, ?_,
      agree_watchlists h hmirrors fun k => isSome_insert watchlist.key _⟩
    · rw [Memory.saveWatchlist, hsave]
      rfl
    · rw [Postgres.saveWatchlist, hupdate, hit]
      rfl
  · refine .inr ⟨message, "watchlist revision conflict", ?_, ?_⟩
    · rw [Memory.saveWatchlist, hsave]
      rfl
    · simp only [Postgres.saveWatchlist, hupdate, hit, statement, Except.mapError, bind,
        Except.bind]
      rfl

theorem alike_deleteWatchlist (h : Agree db ⟨m, p⟩) {key : Key} (hbindable : key.bindable = true)
    (hunused : ∀ task ∈ m.tasks.values, task.key.sameProject key = true →
      key.id ∉ task.fields.watchlistIds) :
    Alike db (m.deleteWatchlist key) (p.deleteWatchlist key) := by
  have hused : p.used key = false := by
    have hany := h.tasks.any
      (fun k row => k.sameProject key && row.document.fields.watchlistIds.contains key.id)
      (fun task => task.key.sameProject key && task.fields.watchlistIds.contains key.id)
      fun k row hrow => by rw [(h.tasks.stored k row hrow).key]
    unfold Postgres.used
    rw [hany, List.any_eq_false]
    intro task htask hnames
    rw [Bool.and_eq_true, List.contains_iff_mem] at hnames
    exact hunused task htask hnames.1 hnames.2
  have hsame := h.watchlists.same key
  cases hrow : p.watchlists.get? key with
  | none =>
    rw [hrow, Option.map_none] at hsame
    refine .inl ⟨m, p, .removed false, ?_, ?_, h⟩
    · simp only [Memory.deleteWatchlist, hsame]
    · rw [Postgres.deleteWatchlist, hbindable, hused, hrow]
      rfl
  | some row =>
    rw [hrow, Option.map_some] at hsame
    refine .inl ⟨{ m with
        watchlists := m.watchlists.erase key
        members := m.members.filter fun _ member => !Memory.ofWatchlist key member }, { p with
        watchlists := p.watchlists.erase key
        members := p.members.filter fun k row => !Postgres.ofWatchlist key k row },
      .removed true, ?_, ?_, ?_⟩
    · simp only [Memory.deleteWatchlist, hsame]
    · rw [Postgres.deleteWatchlist, hbindable, hused, hrow]
      rfl
    · have hmembers : Mirrors db.members Enrols
          (p.members.filter fun k row => !Postgres.ofWatchlist key k row)
          (m.members.filter fun _ member => !Memory.ofWatchlist key member) :=
        h.members.filter fun k row hrow => by
          have hstored := h.members.stored k row hrow
          simp only [Memory.ofWatchlist, Postgres.ofWatchlist, hstored.key, hstored.columns.1]
      refine ⟨h.watchlists.erase key, hmembers, h.tasks, h.bindings, fun k task htask id hid => ?_,
        fun k member hmember => ?_⟩
      · have hne : k.sibling id ≠ key := by
          rintro rfl
          refine hunused task ((Dict.mem_values _ task).2 ⟨k, htask⟩) ?_ hid
          rw [h.tasks.key htask]
          simp [Key.sameProject, Key.sibling]
        have hold := h.ofTasks k task htask id hid
        rwa [Dict.get?_erase_of_ne _ hne]
      · rw [Dict.get?_filter, Option.filter_eq_some_iff] at hmember
        obtain ⟨hold, hother⟩ := hmember
        have hne : k.sibling member.fields.watchlistId ≠ key := by
          rintro rfl
          simp [Memory.ofWatchlist, h.members.key hold, Key.sameProject, Key.sibling] at hother
        have hstill := h.ofMembers k member hold
        rwa [Dict.get?_erase_of_ne _ hne]

/-! ### Members -/

theorem agree_putMember (h : Agree db ⟨m, p⟩) (member : Member R)
    {rows : Dict Key (Row (MemberFields R) MemberColumns)}
    (hmirrors : Mirrors db.members Enrols rows (m.members.insert member.key member))
    (hstored : (m.watchlists.get? (member.key.sibling member.fields.watchlistId)).isSome) :
    Agree db ⟨{ m with members := m.members.insert member.key member },
      { p with members := rows }⟩ := by
  refine ⟨h.watchlists, hmirrors, h.tasks, h.bindings, h.ofTasks, fun k item hitem => ?_⟩
  rcases Dict.get?_insert_cases hitem with ⟨rfl, rfl⟩ | ⟨-, hitem⟩
  · exact hstored
  · exact h.ofMembers k item hitem

theorem alike_createMember (h : Agree db ⟨m, p⟩) {member : Member R}
    (hfits : db.members.fits db member = true)
    (hstored : (m.watchlists.get? (member.key.sibling member.fields.watchlistId)).isSome) :
    Alike db (m.createMember member) (p.createMember db member) := by
  obtain ⟨row, hrow, hdocument, _, hinsert⟩ :=
    insertRow_of_fits Enrols p.members hfits fun c hc => by
      simp only [Database.members, Option.bind_eq_bind, Option.bind_eq_some_iff, Option.pure_def,
        Option.some.injEq] at hc
      obtain ⟨_, -, _, -, rfl⟩ := hc
      exact ⟨rfl, rfl⟩
  have henrols : Enrols member.fields row.columns := hdocument ▸ hrow.columns
  have henrolled : (p.members.entries.any fun e => e.1.sameProject member.key &&
      db.members.clash e.2.columns row.columns) = m.enrolled member :=
    h.members.any (fun k r => k.sameProject member.key && db.members.clash r.columns row.columns) _
      fun k r hr => by
        have hstored := h.members.stored k r hr
        simp only [Database.members, hstored.key, hstored.columns.1, hstored.columns.2, henrols.1,
          henrols.2, Bool.and_assoc]
  have htaken : db.members.taken p.members member.key row.columns =
      ((m.members.get? member.key).isSome || m.enrolled member) := by
    unfold Schema.taken
    rw [henrolled, h.members.isSome]
  rw [htaken] at hinsert
  have hwatchlist : (p.watchlists.get? (member.key.sibling member.fields.watchlistId)).isNone =
      false := by
    rw [← Option.not_isSome, h.watchlists.isSome, hstored]
    rfl
  cases hget : (m.members.get? member.key).isSome with
  | true =>
    rw [hget, Bool.true_or, if_pos rfl] at hinsert
    refine .inr ⟨"watchlist member already exists",
      "portrait identity is already a member of this watchlist", ?_, ?_⟩
    · simp only [Memory.createMember, create, hget, if_true, bind, Except.bind]
    · rw [Postgres.createMember, hinsert]
      rfl
  | false =>
    rw [hget, Bool.false_or] at hinsert
    cases hmember : m.enrolled member with
    | true =>
      rw [hmember, if_pos rfl] at hinsert
      refine .inr ⟨"portrait identity is already a member of this watchlist",
        "portrait identity is already a member of this watchlist", ?_, ?_⟩
      · simp only [Memory.createMember, create, hget, hmember, Bool.false_eq_true, if_false,
          if_true, bind, Except.bind]
      · rw [Postgres.createMember, hinsert]
        rfl
    | false =>
      rw [hmember, if_neg Bool.false_ne_true] at hinsert
      have hmirrors := h.members.insert hrow
      rw [hdocument] at hmirrors
      refine .inl ⟨_, _, .member member, ?_, ?_, agree_putMember h member hmirrors hstored⟩
      · simp only [Memory.createMember, create, hget, hmember, Bool.false_eq_true, if_false, bind,
          Except.bind, pure, Except.pure]
      · rw [Postgres.createMember, hinsert, hwatchlist]
        rfl

theorem alike_saveMember (h : Agree db ⟨m, p⟩) {member : Member R}
    (hbinds : (db.members.rebind db (member.saved expectedRevision)).isSome)
    (hkept : ∀ current ∈ m.members.get? member.key, current.revision = expectedRevision →
      current.fields.watchlistId = member.fields.watchlistId ∧
      current.fields.portraitIdentityId = member.fields.portraitIdentityId ∧
      ∀ columns ∈ db.members.columns member.fields, db.members.check columns = true) :
    Alike db (m.saveMember member expectedRevision) (p.saveMember db member expectedRevision) := by
  rcases updateRow_of_binds h.members "watchlist member" hbinds
    (fun current hcurrent hrevision old new hold hnew => by
      obtain ⟨hwatchlist, hidentity, hcheck⟩ := hkept current hcurrent hrevision
      exact ⟨⟨hold.1.trans hwatchlist, hold.2.trans hidentity⟩, hcheck new hnew⟩) with
    ⟨current, rows, hcurrent, hrevision, hupdate, hsave, hmirrors⟩ | ⟨hupdate, message, hsave⟩
  · have hwatchlist := (hkept current hcurrent hrevision).1
    have hstored := h.ofMembers member.key current hcurrent
    rw [hwatchlist] at hstored
    refine .inl ⟨_, _, .member (member.saved expectedRevision), ?_, ?_,
      agree_putMember h (member.saved expectedRevision) hmirrors hstored⟩
    · simp only [Memory.saveMember, hsave, bind, Except.bind, pure, Except.pure]
      rfl
    · rw [Postgres.saveMember, hupdate, hit]
      rfl
  · refine .inr ⟨message, "watchlist member revision conflict", ?_, ?_⟩
    · rw [Memory.saveMember, hsave]
      rfl
    · simp only [Postgres.saveMember, hupdate, hit, statement, Except.mapError, bind, Except.bind]
      rfl

theorem alike_deleteMember (h : Agree db ⟨m, p⟩) {key : Key} (hbindable : key.bindable = true) :
    Alike db (m.deleteMember key) (p.deleteMember key) := by
  refine .inl ⟨{ m with members := m.members.erase key }, { p with members := p.members.erase key },
    .removed (m.members.get? key).isSome, rfl, ?_, h.watchlists, h.members.erase key, h.tasks,
    h.bindings,
    h.ofTasks, fun k member hmember => ?_⟩
  · simp only [Postgres.deleteMember, hbindable, h.members.isSome, Bool.not_true,
      Bool.false_eq_true, if_false]
  · exact h.ofMembers k member (Dict.get?_erase_some hmember).2

/-! ### Tasks -/

theorem agree_putTask (h : Agree db ⟨m, p⟩) (task : SurveillanceTask R)
    {rows : Dict Key (Row (TaskFields R) Unit)} {bindings : Dict Key BindingRow}
    (hmirrors : Mirrors db.tasks (fun _ _ => True) rows (m.tasks.insert task.key task))
    (hbindings : BindingsOf (m.tasks.insert task.key task) bindings)
    (hstored : ∀ id ∈ task.fields.watchlistIds, (m.watchlists.get? (task.key.sibling id)).isSome) :
    Agree db ⟨{ m with tasks := m.tasks.insert task.key task },
      { p with tasks := rows, bindings }⟩ := by
  refine ⟨h.watchlists, h.members, hmirrors, hbindings, fun k item hitem => ?_, h.ofMembers⟩
  rcases Dict.get?_insert_cases hitem with ⟨rfl, rfl⟩ | ⟨-, hitem⟩
  · exact hstored
  · exact h.ofTasks k item hitem

theorem alike_createTask (h : Agree db ⟨m, p⟩) {task : SurveillanceTask R}
    (hfits : db.tasks.fits db task = true)
    (hfree : m.tasks.get? task.key = none → BindingsFree m.tasks task)
    (hstored : ∀ id ∈ task.fields.watchlistIds, (m.watchlists.get? (task.key.sibling id)).isSome) :
    Alike db (m.createTask task) (p.createTask db task) := by
  rcases insertRow_of_new h.tasks "surveillance task already exists" hfits (fun _ _ => trivial)
    (fun _ _ => rfl) with ⟨rows, hnew, hinsert, hcreate, hmirrors⟩ | ⟨-, hinsert, hcreate⟩
  · obtain ⟨bindings, hreplace, hbindings⟩ := bindingsOf_replace task h.bindings
      (fun k t ht => h.tasks.key ht) (storable_of_fits hfits) (hfree hnew)
    refine .inl ⟨_, _, .task task, ?_, ?_, agree_putTask h task hmirrors hbindings hstored⟩
    · rw [Memory.createTask, hcreate]
      rfl
    · rw [Postgres.createTask, hinsert, hreplace]
      rfl
  · refine .inr ⟨"surveillance task already exists", "surveillance task already exists", ?_, ?_⟩
    · rw [Memory.createTask, hcreate]
      rfl
    · rw [Postgres.createTask, hinsert]
      rfl

theorem alike_saveTask (h : Agree db ⟨m, p⟩) {task : SurveillanceTask R}
    (hbinds : (db.tasks.rebind db (task.saved expectedRevision)).isSome)
    (hfree : ∀ current ∈ m.tasks.get? task.key, current.revision = expectedRevision →
      BindingsFree m.tasks task)
    (hstored : ∀ id ∈ task.fields.watchlistIds, (m.watchlists.get? (task.key.sibling id)).isSome) :
    Alike db (m.saveTask task expectedRevision) (p.saveTask db task expectedRevision) := by
  rcases updateRow_of_binds h.tasks "surveillance task" hbinds
    (fun _ _ _ _ _ _ _ => ⟨trivial, rfl⟩) with
    ⟨current, rows, hcurrent, hrevision, hupdate, hsave, hmirrors⟩ | ⟨hupdate, message, hsave⟩
  · obtain ⟨bindings, hreplace, hbindings⟩ := bindingsOf_replace (task.saved expectedRevision)
      h.bindings (fun k t ht => h.tasks.key ht) (storable_of_binds hbinds)
        (hfree current hcurrent hrevision)
    refine .inl ⟨_, _, .task (task.saved expectedRevision), ?_, ?_,
      agree_putTask h (task.saved expectedRevision) hmirrors hbindings hstored⟩
    · simp only [Memory.saveTask, hsave, bind, Except.bind, pure, Except.pure]
      rfl
    · rw [Postgres.saveTask, hupdate, hreplace, hit]
      rfl
  · refine .inr ⟨message, "surveillance task revision conflict", ?_, ?_⟩
    · rw [Memory.saveTask, hsave]
      rfl
    · simp only [Postgres.saveTask, hupdate, hit, statement, Except.mapError, bind, Except.bind]
      rfl

end Calls

/-! ## Runs -/

/-- Both raise the same class, or both return the same. -/
def SameAnswer (db : Database R) (s : Both R) (act : Act R) : Prop :=
  match s.memory.call act, s.postgres.call db act with
  | .ok (_, reply), .ok (_, reply') => reply = reply'
  | .error e, .error e' => e.kind = e'.kind
  | _, _ => False

/-- Both list the same watchlists, members and tasks. -/
structure SameListings (db : Database R) (s : Both R) : Prop where
  watchlists : ∀ key, (s.memory.listWatchlists key).Perm (s.postgres.listWatchlists db key)
  members : ∀ key, (s.memory.listMembers key).Perm (s.postgres.listMembers db key)
  tasks : ∀ key, (s.memory.listTasks key).Perm (s.postgres.listTasks db key)

/-- Every watchlist that a stored task or member names is stored. -/
structure Referenced (watchlists : List (Watchlist R)) (members : List (Member R))
    (tasks : List (SurveillanceTask R)) : Prop where
  tasks : ∀ task ∈ tasks, ∀ id ∈ task.fields.watchlistIds,
    ∃ watchlist ∈ watchlists, watchlist.key = task.key.sibling id
  members : ∀ member ∈ members,
    ∃ watchlist ∈ watchlists, watchlist.key = member.key.sibling member.fields.watchlistId

/-- The documents of a table. -/
def documents (rows : Dict Key (Row F C)) : List (Record F) := rows.values.map Row.document

/-- What is claimed of a state: the same listings, and references to stored records in both. -/
structure Consistent (db : Database R) (s : Both R) : Prop where
  listings : SameListings db s
  memory : Referenced s.memory.watchlists.values s.memory.members.values s.memory.tasks.values
  postgres : Referenced (documents s.postgres.watchlists) (documents s.postgres.members)
    (documents s.postgres.tasks)

/-- The values of a call can be bound and pass the CHECKs, a watchlist is deleted when no stored
task names it, a member is saved in its watchlist under its identity, and no two tasks of a project
share a binding id. -/
def Lawful (db : Database R) (s : Both R) : Act R → Prop
  | .createWatchlist watchlist => db.watchlists.fits db watchlist = true
  | .saveWatchlist watchlist expectedRevision =>
    (db.watchlists.rebind db (watchlist.saved expectedRevision)).isSome = true
  | .deleteWatchlist key => key.bindable = true ∧ ∀ task ∈ s.memory.tasks.values,
      task.key.sameProject key = true → key.id ∉ task.fields.watchlistIds
  | .createMember member => db.members.fits db member = true
  | .saveMember member expectedRevision =>
    (db.members.rebind db (member.saved expectedRevision)).isSome = true ∧
      ∀ current ∈ s.memory.members.get? member.key, current.revision = expectedRevision →
        current.fields.watchlistId = member.fields.watchlistId ∧
        current.fields.portraitIdentityId = member.fields.portraitIdentityId ∧
        ∀ columns ∈ db.members.columns member.fields, db.members.check columns = true
  | .deleteMember key => key.bindable = true
  | .createTask task => db.tasks.fits db task = true ∧
      (s.memory.tasks.get? task.key = none → BindingsFree s.memory.tasks task)
  | .saveTask task expectedRevision =>
    (db.tasks.rebind db (task.saved expectedRevision)).isSome = true ∧
      ∀ current ∈ s.memory.tasks.get? task.key, current.revision = expectedRevision →
        BindingsFree s.memory.tasks task

theorem alike_call {act : Act R} (h : Agree db s) (hlawful : Lawful db s act)
    (hreferable : s.Referable act) : Alike db (s.memory.call act) (s.postgres.call db act) := by
  cases act with
  | createWatchlist => exact alike_createWatchlist h hlawful
  | saveWatchlist => exact alike_saveWatchlist h hlawful
  | deleteWatchlist => exact alike_deleteWatchlist h hlawful.1 hlawful.2
  | createMember =>
    exact alike_createMember h hlawful (hreferable _ (List.mem_singleton_self _)).1
  | saveMember => exact alike_saveMember h hlawful.1 hlawful.2
  | deleteMember => exact alike_deleteMember h hlawful
  | createTask =>
    exact alike_createTask h hlawful.1 hlawful.2 fun id hid =>
      (hreferable _ (List.mem_map_of_mem hid)).1
  | saveTask =>
    exact alike_saveTask h hlawful.1 hlawful.2 fun id hid =>
      (hreferable _ (List.mem_map_of_mem hid)).1

theorem agree_call {act : Act R} (h : Agree db s) (hlawful : Lawful db s act)
    (hreferable : s.Referable act) :
    SameAnswer db s act ∧ Agree db ⟨memoryStep s.memory act, postgresStep db s.postgres act⟩ := by
  unfold SameAnswer memoryStep postgresStep
  rcases alike_call h hlawful hreferable with ⟨m, p, _, hm, hp, hagree⟩ | ⟨a, b, hm, hp⟩
  · rw [hm, hp]
    exact ⟨rfl, hagree⟩
  · rw [hm, hp]
    exact ⟨rfl, h⟩

theorem Mirrors.documents_perm {schema : Schema F C} {describes : F → C → Prop}
    {rows : Dict Key (Row F C)} {records : Dict Key (Record F)}
    (h : Mirrors schema describes rows records) : records.values.Perm (documents rows) := by
  have hvalues := (Dict.entries_perm Row.document h.same).map Prod.snd
  rw [List.map_map] at hvalues
  unfold documents Dict.values
  rwa [List.map_map]

theorem referenced_of_perm {watchlists watchlists' : List (Watchlist R)}
    {members members' : List (Member R)} {tasks tasks' : List (SurveillanceTask R)}
    (h : Referenced watchlists members tasks) (hwatchlists : watchlists.Perm watchlists')
    (hmembers : members.Perm members') (htasks : tasks.Perm tasks') :
    Referenced watchlists' members' tasks' := by
  refine ⟨fun task htask id hid => ?_, fun member hmember => ?_⟩
  · obtain ⟨watchlist, hin, hkey⟩ := h.tasks task (htasks.mem_iff.2 htask) id hid
    exact ⟨watchlist, hwatchlists.mem_iff.1 hin, hkey⟩
  · obtain ⟨watchlist, hin, hkey⟩ := h.members member (hmembers.mem_iff.2 hmember)
    exact ⟨watchlist, hwatchlists.mem_iff.1 hin, hkey⟩

theorem consistent_of_agree (h : Agree db s) : Consistent db s := by
  have hstored : ∀ k, (s.memory.watchlists.get? k).isSome →
      ∃ watchlist ∈ s.memory.watchlists.values, watchlist.key = k := by
    intro k hk
    obtain ⟨watchlist, hget⟩ := Option.isSome_iff_exists.1 hk
    exact ⟨watchlist, (Dict.mem_values _ _).2 ⟨k, hget⟩, h.watchlists.key hget⟩
  have hmemory : Referenced s.memory.watchlists.values s.memory.members.values
      s.memory.tasks.values := by
    refine ⟨fun task htask id hid => hstored _ ?_, fun member hmember => hstored _ ?_⟩
    · obtain ⟨k, hk⟩ := (Dict.mem_values _ task).1 htask
      rw [h.tasks.key hk]
      exact h.ofTasks k task hk id hid
    · obtain ⟨k, hk⟩ := (Dict.mem_values _ member).1 hmember
      rw [h.members.key hk]
      exact h.ofMembers k member hk
  refine ⟨⟨fun key => ?_, fun key => ?_, fun key => ?_⟩, hmemory, referenced_of_perm hmemory
    h.watchlists.documents_perm h.members.documents_perm h.tasks.documents_perm⟩
  · exact h.watchlists.perm_list fun _ _ _ => rfl
  · exact h.members.perm_list fun k row hrow => by
      have hrow := h.members.stored k row hrow
      simp only [Memory.ofWatchlist, Postgres.ofWatchlist, hrow.key, hrow.columns.1]
  · exact h.tasks.perm_list fun _ _ _ => rfl

/-- **The repositories agree and keep their references** along every run of lawful calls. -/
theorem consistent_of_lawful (db : Database R) (acts : List (Act R))
    (h : Along (step db) (Lawful db) .empty acts) :
    Along (step db) (fun s act => s.Referable act → SameAnswer db s act) .empty acts ∧
      ∀ s ∈ states (step db) .empty acts, Consistent db s := by
  have hstep : ∀ s act s', Agree db s → Lawful db s act → step db s act = some s' →
      Agree db s' := by
    intro s _ _ hagree hlawful hs
    unfold step at hs
    split at hs
    · rename_i hreferable
      cases hs
      exact (agree_call hagree hlawful hreferable).2
    · cases hs
  refine ⟨along_mono hstep ?_ (agree_empty db) h, fun s hs => ?_⟩
  · intro s _ hagree hlawful hreferable
    exact (agree_call hagree hlawful hreferable).1
  · exact consistent_of_agree (invariant_states hstep (agree_empty db) h s hs)

/-! ## Decided, on runs -/

instance (db : Database R) (s : Both R) : ∀ act, Decidable (Lawful db s act)
  | .createWatchlist _ => inferInstanceAs (Decidable (_ = true))
  | .saveWatchlist _ _ => inferInstanceAs (Decidable (_ = true))
  | .deleteWatchlist _ => inferInstanceAs (Decidable (_ ∧ _))
  | .createMember _ => inferInstanceAs (Decidable (_ = true))
  | .saveMember _ _ => inferInstanceAs (Decidable (_ ∧ _))
  | .deleteMember _ => inferInstanceAs (Decidable (_ = true))
  | .createTask _ => inferInstanceAs (Decidable (_ ∧ (_ → _)))
  | .saveTask _ _ => inferInstanceAs (Decidable (_ ∧ _))

instance (watchlists : List (Watchlist R)) (members : List (Member R))
    (tasks : List (SurveillanceTask R)) : Decidable (Referenced watchlists members tasks) :=
  decidable_of_iff ((∀ task ∈ tasks, ∀ id ∈ task.fields.watchlistIds,
      ∃ watchlist ∈ watchlists, watchlist.key = task.key.sibling id) ∧
    ∀ member ∈ members,
      ∃ watchlist ∈ watchlists, watchlist.key = member.key.sibling member.fields.watchlistId)
    ⟨fun h => ⟨h.1, h.2⟩, fun h => ⟨h.tasks, h.members⟩⟩

/-- The class that a call raises, if it does. -/
def raised {α : Type} : Except Error α → Option (Option DatabaseError)
  | .ok _ => none
  | .error e => some e.kind

theorem raised_of_sameAnswer {act : Act R} (h : SameAnswer db s act) :
    raised (s.memory.call act) = raised (s.postgres.call db act) := by
  unfold SameAnswer at h
  split at h
  · rename_i hm hp
    rw [hm, hp]
    rfl
  · rename_i hm hp
    rw [hm, hp]
    exact congrArg some h
  · exact h.elim

/-- Times in microseconds, texts without NUL, code point order. -/
def microseconds : Database Unit where
  toTimestamp t := some (t * 1000000).floor
  storable _ := true
  collate a b := a ≤ b

/-- A key. -/
def keyOf (id : String) : Key := ⟨"acme", "gate", id⟩

/-- A watchlist. -/
def guests (id : String) : Watchlist Unit := ⟨keyOf id, 0, 0, 1, ()⟩

/-- A member of a watchlist. -/
def guest (watchlistId : String) : Member Unit :=
  ⟨keyOf "wsm_1", 1, 1, 1, ⟨watchlistId, "pid_1", some 10, some 20, (), by decide +kernel⟩⟩

/-- A binding. -/
def entrance : TaskBinding String := ⟨"bind_1", "src_1", "cam_1", none, none, none⟩

/-- A task with that binding. -/
def watch (taskId : String) : SurveillanceTask Unit :=
  ⟨keyOf taskId, 2, 2, 1, ⟨["wsl_1"], [entrance], (), by simp, by simp, by simp⟩⟩

/-- A watchlist with a member, watched by a task; the member leaves. -/
def visit : List (Act Unit) :=
  [.createWatchlist (guests "wsl_1"), .createMember (guest "wsl_1"), .createTask (watch "st_1"),
    .saveMember (guest "wsl_1") 1, .saveTask (watch "st_1") 1, .saveTask (watch "st_1") 1,
    .deleteMember (keyOf "wsm_1"), .createWatchlist (guests "wsl_2"),
      .deleteWatchlist (keyOf "wsl_2")]

theorem visit_consistent :
    Along (step microseconds) (fun s act => s.Referable act → SameAnswer microseconds s act)
      .empty visit ∧ ∀ s ∈ states (step microseconds) .empty visit, Consistent microseconds s :=
  consistent_of_lawful microseconds visit (by decide +kernel)

/-- **Three calls that the memory repository takes.** Deleting a watchlist that a task names leaves
the task with a reference to nothing where Postgres raises; a second task with the id of a binding
is stored where Postgres raises; a member saved under another watchlist moves there, where Postgres
lists it in the old one. -/
theorem taken_by_memory :
    (∃ s ∈ states (step microseconds) .empty
        [.createWatchlist (guests "wsl_1"), .createTask (watch "st_1")],
      ¬SameAnswer microseconds s (.deleteWatchlist (keyOf "wsl_1")) ∧
      ¬SameAnswer microseconds s (.createTask (watch "st_2"))) ∧
    (∃ s ∈ states (step microseconds) .empty
        [.createWatchlist (guests "wsl_1"), .createTask (watch "st_1"),
          .deleteWatchlist (keyOf "wsl_1")],
      ¬Referenced s.memory.watchlists.values s.memory.members.values s.memory.tasks.values) ∧
    ∃ s ∈ states (step microseconds) .empty
        [.createWatchlist (guests "wsl_1"), .createWatchlist (guests "wsl_2"),
          .createMember (guest "wsl_1"), .saveMember (guest "wsl_2") 1],
      ¬SameListings microseconds s := by
  refine ⟨?_, ?_, ?_⟩
  · obtain ⟨s, hs, hdelete, hcreate⟩ : ∃ s ∈ states (step microseconds) .empty
        [.createWatchlist (guests "wsl_1"), .createTask (watch "st_1")],
        raised (s.memory.call (.deleteWatchlist (keyOf "wsl_1"))) ≠
          raised (s.postgres.call microseconds (.deleteWatchlist (keyOf "wsl_1"))) ∧
        raised (s.memory.call (.createTask (watch "st_2"))) ≠
          raised (s.postgres.call microseconds (.createTask (watch "st_2"))) :=
      states_decide (by decide +kernel)
    exact ⟨s, hs, fun h => hdelete (raised_of_sameAnswer h),
      fun h => hcreate (raised_of_sameAnswer h)⟩
  · exact states_decide (by decide +kernel)
  · obtain ⟨s, hs, hdone⟩ : ∃ s ∈ states (step microseconds) .empty
        [.createWatchlist (guests "wsl_1"), .createWatchlist (guests "wsl_2"),
          .createMember (guest "wsl_1"), .saveMember (guest "wsl_2") 1],
        (s.memory.listMembers (keyOf "wsl_2")).length ≠
          (s.postgres.listMembers microseconds (keyOf "wsl_2")).length :=
      states_decide (by decide +kernel)
    exact ⟨s, hs, fun h => hdone (h.members _).length_eq⟩

end Scenara.Surveillance.Repositories
