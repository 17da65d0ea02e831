import Scenara.Core.Raising
import Scenara.Core.Sorting
import Scenara.Core.Transition
import Scenara.Index.Postgres

/-!
# The index stores agree
-/

namespace Scenara.Index

open Scenara.Core

variable {s : Store} {record : IndexRecord} {definition : IndexDefinition}

/-! ## Accepted records -/

/-- The checks of `upsert`, against the definition. -/
@[mk_iff] structure Accepts (definition : IndexDefinition) (record : IndexRecord) : Prop where
  domain : record.domain = definition.domain
  kind : record.kind = definition.recordKind
  vector : definition.vectorDimension.isSome → ∀ vector ∈ record.vector,
    Store.validateVector definition vector = .ok ()
  reference : definition.vectorDimension.isSome → definition.recordKind = .vector →
    record.vector = none → record.featureId ≠ none
  text : definition.recordKind = .text → blank (record.text.getD "") = false

theorem check_iff : s.check record = .ok () ↔
    ∃ definition, s.indexes.get? record.indexId = some definition ∧ Accepts definition record := by
  unfold Store.check
  cases hget : s.indexes.get? record.indexId with
  | none => simp
  | some definition =>
    simp only [Option.some.injEq, exists_eq_left', accepts_iff, bind, Except.bind, throw, throwThe,
      MonadExceptOf.throw, pure, Except.pure, check_eq_ok]
    cases definition.vectorDimension <;> cases record.vector
    case some.some n vector =>
      simp only [Option.mem_some_iff, forall_eq']
      cases Store.validateVector definition vector <;> simp [and_assoc]
    all_goals simp [check_eq_ok, and_assoc]

/-- A vector record without a vector and without a feature. -/
def Unreferenced (record : IndexRecord) : Prop :=
  record.kind = .vector ∧ record.vector = none ∧ record.featureId = none

theorem checkRow_iff : s.checkRow record = .ok () ↔
    bindable [record.indexId] = true ∧ s.check record = .ok () ∧ ¬Unreferenced record := by
  rw [check_iff]
  unfold Store.checkRow Store.getIndex Unreferenced
  cases bindable [record.indexId] with
  | false => simp [bind, Except.bind]
  | true =>
    cases hget : s.indexes.get? record.indexId with
    | none => simp [bind, Except.bind]
    | some definition =>
      simp only [Option.some.injEq, exists_eq_left', accepts_iff, bind, Except.bind, throw,
        throwThe,
        MonadExceptOf.throw, pure, Except.pure, check_eq_ok, Bool.not_true, Bool.false_eq_true,
          if_false]
      cases definition.vectorDimension <;> cases record.vector
      case some.some n vector =>
        simp only [Option.mem_some_iff, forall_eq']
        cases Store.validateVector definition vector <;> simp [and_assoc]
      all_goals simp [check_eq_ok]
      all_goals grind

theorem Accepts.of_contract (h : Accepts definition record) {other : IndexDefinition}
    (hcontract : definition.contract = other.contract) : Accepts other record := by
  have hdomain : definition.domain = other.domain :=
    (congrArg (·.domain) hcontract : definition.contract.domain = _)
  have hkind : definition.recordKind = other.recordKind :=
    (congrArg (·.recordKind) hcontract : definition.contract.recordKind = _)
  have hdimension : definition.vectorDimension = other.vectorDimension :=
    (congrArg (·.vectorDimension) hcontract : definition.contract.vectorDimension = _)
  refine ⟨h.domain.trans hdomain, h.kind.trans hkind, fun hsome vector hvector => ?_, ?_, ?_⟩
  · have hvalidate := h.vector (hdimension ▸ hsome) vector hvector
    unfold Store.validateVector at hvalidate ⊢
    rwa [hdimension] at hvalidate
  · rw [← hdimension, ← hkind]
    exact h.reference
  · rw [← hkind]
    exact h.text

/-! ## Valid stores -/

/-- Everything is stored under its own key, and every record is accepted. -/
structure Valid (s : Store) : Prop where
  index : ∀ id definition, s.indexes.get? id = some definition → definition.indexId = id
  key : ∀ key record, s.records.get? key = some record → record.toRecordKey = key
  check : ∀ key record, s.records.get? key = some record → s.check record = .ok ()

theorem valid_empty : Valid .empty :=
  ⟨nofun, fun _ _ h => (by cases h), fun _ _ h => (by cases h)⟩

theorem valid_insertIndex (h : Valid s)
    (hcontract : ∀ existing ∈ s.indexes.get? definition.indexId, existing.contract =
      definition.contract) :
    Valid { s with indexes := s.indexes.insert definition.indexId definition } := by
  refine ⟨fun id stored hget => ?_, h.key, fun key record hget => ?_⟩
  · dsimp only at hget
    rw [Dict.get?_insert] at hget
    split_ifs at hget with hid
    · cases hget
      exact hid.symm
    · exact h.index id stored hget
  · obtain ⟨existing, hexisting, haccepts⟩ := check_iff.1 (h.check key record hget)
    refine check_iff.2 ?_
    rw [Dict.get?_insert]
    split_ifs with hid
    · exact ⟨definition, rfl, haccepts.of_contract (hcontract existing (hid ▸ hexisting))⟩
    · exact ⟨existing, hexisting, haccepts⟩

theorem valid_createIndex (h : Valid s) (definition : IndexDefinition) :
    Valid (s.createIndex definition).2 := by
  unfold Store.createIndex
  cases hget : s.indexes.get? definition.indexId with
  | none =>
    refine valid_insertIndex h fun existing hexisting => ?_
    rw [hget] at hexisting
    cases hexisting
  | some =>
    dsimp only
    split_ifs with hcontract
    · exact h
    · refine valid_insertIndex h fun stored hstored => ?_
      rw [hget] at hstored
      cases hstored
      exact not_not.1 hcontract

theorem valid_put (h : Valid s) (hcheck : s.check record = .ok ()) : Valid (s.put record) := by
  refine ⟨h.index, fun key stored hget => ?_, fun key stored hget => ?_⟩ <;>
  · dsimp only [Store.put] at hget
    rw [Dict.get?_insert] at hget
    split_ifs at hget with hkey
    · cases hget
      first | exact hkey.symm | exact hcheck
    · first | exact h.key key stored hget | exact h.check key stored hget

theorem valid_upsert (h : Valid s) (record : IndexRecord) : Valid (s.upsert record).2 := by
  unfold Store.upsert
  split
  · exact h
  · rename_i hcheck
    exact valid_put h hcheck

theorem valid_upsertMany (h : Valid s) (records : List IndexRecord) :
    Valid (s.upsertMany records).2 := by
  induction records generalizing s with
  | nil => exact h
  | cons record records ih =>
    have hfirst := valid_upsert h record
    unfold Store.upsertMany
    rcases hupsert : s.upsert record with ⟨_ | _, s'⟩
    · rwa [hupsert] at hfirst
    · rw [hupsert] at hfirst
      have hrest := ih hfirst
      dsimp only at hrest ⊢
      rcases hmany : s'.upsertMany records with ⟨_ | _, _⟩ <;> rwa [hmany] at hrest

theorem valid_markDeleted (h : Valid s) (p : RecordKey → IndexRecord → Bool) (now : ℚ) :
    Valid (s.markDeleted p now) := by
  refine ⟨h.index, fun key stored hget => ?_, fun key stored hget => ?_⟩ <;>
  · dsimp only [Store.markDeleted] at hget
    rw [Dict.get?_mapVals, Option.map_eq_some_iff] at hget
    obtain ⟨record, hrecord, rfl⟩ := hget
    have hkey := h.key key record hrecord
    have hcheck := h.check key record hrecord
    split_ifs
    all_goals first | exact hkey | exact hcheck

theorem valid_deleteExpired (h : Valid s) (before : ℚ) (limit : Int) :
    Valid (s.deleteExpired before limit).2 := by
  unfold Store.deleteExpired
  split_ifs
  · exact valid_markDeleted h _ _
  · exact h

theorem valid_call (h : Valid s) (g : Geometry) (casefold : String → String) (call : Call) :
    Valid (call.onMemory g casefold s).2 := by
  cases call with
  | createIndex definition => exact valid_createIndex h definition
  | upsert record => exact valid_upsert h record
  | upsertMany records => exact valid_upsertMany h records
  | deleteSource _ _ _ _ now => exact valid_markDeleted h _ now
  | deleteAsset _ _ _ now => exact valid_markDeleted h _ now
  | deleteExpired before limit => exact valid_deleteExpired h before limit
  | listRecords | queryVector | queryText | rebuild => exact h

/-- **What is stored is accepted**, under its own key, whatever the calls. -/
theorem stored_accepted (g : Geometry) (casefold : String → String) (calls : List Call) :
    Valid (calls.foldl (fun s call => (call.onMemory g casefold s).2) .empty) :=
  List.foldlRecOn calls _ valid_empty fun _ h call _ => valid_call h g casefold call

/-! ## Rows -/

section Rows

theorem RecordKey.eq_of_fields {x y : RecordKey} (htenant : x.tenantId = y.tenantId)
    (hproject : x.projectId = y.projectId) (hrecord : x.recordId = y.recordId) : x = y := by
  cases x
  cases y
  cases htenant
  cases hproject
  cases hrecord
  rfl

variable {db : Database} {tenantId projectId : String} {indexId sourceType sourceId : Option String}

instance : Std.Total Store.newer :=
  have : Std.Total fun x y : IndexRecord => y.recordId ≤ x.recordId := ⟨fun _ _ => le_total _ _⟩
  total_thenBy (fun x : IndexRecord => OrderDual.toDual x.createdAt) _

instance : IsTrans IndexRecord Store.newer :=
  have : IsTrans IndexRecord fun x y => y.recordId ≤ x.recordId :=
    ⟨fun _ _ _ hxy hyz => hyz.trans hxy⟩
  trans_thenBy (fun x : IndexRecord => OrderDual.toDual x.createdAt) _

instance : Std.Total (newerRow db) :=
  have : Std.Total fun x y : IndexRecord => db.sortKey y.recordId ≤ db.sortKey x.recordId :=
    ⟨fun _ _ => le_total _ _⟩
  total_thenBy (fun x : IndexRecord => OrderDual.toDual (db.column x.createdAt)) _

instance : IsTrans IndexRecord (newerRow db) :=
  have : IsTrans IndexRecord fun x y => db.sortKey y.recordId ≤ db.sortKey x.recordId :=
    ⟨fun _ _ _ hxy hyz => hyz.trans hxy⟩
  trans_thenBy (fun x : IndexRecord => OrderDual.toDual (db.column x.createdAt)) _

theorem mem_rows (h : Valid s)
    (hrecord : record ∈ s.rows tenantId projectId indexId sourceType sourceId) :
    s.records.get? record.toRecordKey = some record ∧ record.tenantId = tenantId ∧
      record.projectId = projectId ∧ record.status ≠ .deleted ∧
      ∀ id ∈ indexId, record.indexId = id := by
  obtain ⟨⟨key, row⟩, hrow, rfl⟩ := List.mem_map.1 hrecord
  obtain ⟨hentry, hkept⟩ := List.mem_filter.1 hrow
  have hget := (Dict.mem_entries _ _ _).1 hentry
  have hkey := h.key key row hget
  simp only [Bool.and_eq_true, decide_eq_true_eq] at hkept
  obtain ⟨⟨⟨⟨⟨htenant, hproject⟩, hstatus⟩, hindex⟩, -⟩, -⟩ := hkept
  refine ⟨hkey.symm ▸ hget, ?_, ?_, hstatus, fun id hid => ?_⟩
  · rw [← htenant, ← hkey]
  · rw [← hproject, ← hkey]
  · cases hid
    simpa using hindex

theorem newer_antisymm (h : Valid s) :
    ∀ x ∈ s.rows tenantId projectId indexId sourceType sourceId,
    ∀ y ∈ s.rows tenantId projectId indexId sourceType sourceId,
      Store.newer x y → Store.newer y x → x = y := by
  intro x hx y hy hxy hyx
  obtain ⟨hgetx, htenantx, hprojectx, -⟩ := mem_rows h hx
  obtain ⟨hgety, htenanty, hprojecty, -⟩ := mem_rows h hy
  have hid := thenBy.both (f := fun x : IndexRecord => OrderDual.toDual x.createdAt)
    (r := fun x y => y.recordId ≤ x.recordId) hxy hyx
  have hkey := RecordKey.eq_of_fields (htenantx.trans htenanty.symm)
    (hprojectx.trans hprojecty.symm) (hid.2.2.antisymm hid.2.1)
  rw [hkey, hgety] at hgetx
  cases hgetx
  rfl

theorem selectRows_perm : (s.rows tenantId projectId indexId sourceType sourceId).Perm
    (s.selectRows db tenantId projectId indexId sourceType sourceId) :=
  (((db.scan_perm s.records.entries).symm.filter _).map _).trans (List.perm_insertionSort _ _).symm

theorem allRows_eq (tenantId projectId indexId : String) : s.allRows tenantId projectId indexId =
    (s.rows tenantId projectId (some indexId) none none).insertionSort Store.newer := by
  unfold Store.allRows
  rw [allPages_eq _ (by omega)]
  rfl

theorem rows_nodup (h : Valid s) :
    ((s.rows tenantId projectId indexId sourceType sourceId).map
      IndexRecord.toRecordKey).Nodup := by
  unfold Store.rows
  rw [List.map_map]
  refine (List.map_congr_left ?_ : List.map Prod.fst _ = _) ▸ s.records.nodup.sublist
    (List.filter_sublist.map _)
  rintro ⟨key, record⟩ hrow
  exact (h.key key record ((Dict.mem_entries _ _ _).1 (List.mem_of_mem_filter hrow))).symm

end Rows

/-! ## A new memory store -/

theorem upsertMany_ok {records : List IndexRecord}
    (h : ∀ record ∈ records, s.check record = .ok ()) : s.upsertMany records =
      (.ok records, { s with records := s.records.insertAll IndexRecord.toRecordKey records }) := by
  induction records generalizing s with
  | nil => rfl
  | cons record records ih =>
    have hrest : ∀ other ∈ records, (s.put record).check other = .ok () := fun other hother =>
      h other (List.mem_cons_of_mem _ hother)
    unfold Store.upsertMany Store.upsert
    rw [h record List.mem_cons_self]
    dsimp only
    rw [ih hrest]
    rfl

variable {tenantId projectId indexId : String}

theorem inMemory_eq (h : Valid s)
    (hget : s.indexes.get? indexId = some definition) {rows : List IndexRecord}
    (hrows : (s.rows tenantId projectId (some indexId) none none).Perm rows) :
    ∃ memory, Store.inMemory definition rows = (.ok rows, memory) ∧
      memory.indexes.get? indexId = some definition ∧
      memory.allRows tenantId projectId indexId = s.allRows tenantId projectId indexId := by
  have hid := h.index indexId definition hget
  have hindexes : ((Dict.empty : Dict String IndexDefinition).insert definition.indexId
      definition).get? indexId =
      some definition := by
    rw [← hid]
    exact Dict.get?_insert_self _ _ _
  have hmem : ∀ record ∈ rows, record.tenantId = tenantId ∧ record.projectId = projectId ∧
      record.status ≠ .deleted ∧ record.indexId = indexId ∧ Accepts definition record := by
    intro _ hrecord
    obtain ⟨hstored, htenant, hproject, hstatus, hindex⟩ := mem_rows h (hrows.mem_iff.2 hrecord)
    obtain ⟨_, hexisting, haccepts⟩ := check_iff.1 (h.check _ _ hstored)
    rw [hindex indexId rfl, hget] at hexisting
    cases hexisting
    exact ⟨htenant, hproject, hstatus, hindex indexId rfl, haccepts⟩
  let start : Store :=
    { Store.empty with indexes := Dict.empty.insert definition.indexId definition }
  have hcheck : ∀ record ∈ rows, start.check record = .ok () := fun record hrecord =>
    have hfacts := hmem record hrecord
    check_iff.2 ⟨definition, hfacts.2.2.2.1 ▸ hindexes, hfacts.2.2.2.2⟩
  have hnodup : (rows.map IndexRecord.toRecordKey).Nodup := (hrows.map _).nodup_iff.1 (rows_nodup h)
  let memory : Store := { start with records := Dict.empty.insertAll IndexRecord.toRecordKey rows }
  have hlisted : memory.rows tenantId projectId (some indexId) none none = rows := by
    unfold Store.rows
    rw [Dict.entries_insertAll hnodup, List.filter_eq_self.2, List.map_map]
    · exact List.map_id rows
    · intro _ hrow
      obtain ⟨record, hrecord, rfl⟩ := List.mem_map.1 hrow
      obtain ⟨htenant, hproject, hstatus, hindex, -⟩ := hmem record hrecord
      simp [htenant, hproject, hstatus, hindex]
  refine ⟨memory, upsertMany_ok hcheck, hindexes, ?_⟩
  rw [allRows_eq, allRows_eq, hlisted]
  exact (insertionSort_congr (newer_antisymm h) (fun _ _ _ _ hle => hle) hrows).symm

/-! ## Calls that agree -/

/-- Both raise, or both return the same. -/
def SameAnswer {R : Type} : Except Error R → Except Error R → Prop
  | .ok answer, .ok answer' => answer = answer'
  | .error _, .error _ => True
  | _, _ => False

/-- The same answer, and the same store after it. -/
def Alike {R : Type} (memory postgres : Outcome R) : Prop :=
  SameAnswer memory.1 postgres.1 ∧ memory.2 = postgres.2

theorem SameAnswer.map {R R' : Type} {x y : Except Error R} (h : SameAnswer x y) (f : R → R') :
    SameAnswer (x.map f) (y.map f) := by
  cases x <;> cases y
  · trivial
  · exact h.elim
  · exact h.elim
  · exact congrArg f h

theorem Alike.map {R R' : Type} {x y : Outcome R} (h : Alike x y) (f : R → R') :
    Alike (x.map (·.map f) id) (y.map (·.map f) id) := ⟨h.1.map f, h.2⟩

theorem SameAnswer.refl {R : Type} {x : Except Error R} : SameAnswer x x := by
  cases x
  · trivial
  · exact rfl

/-- Every record is accepted, refers to a vector if it has to, and fits the table; or the first is
refused. -/
def FitsAll (db : Database) (s : Store) (records : List IndexRecord) : Prop :=
  (∀ record ∈ records, s.check record = .ok () ∧ ¬Unreferenced record ∧ db.fits record = true) ∨
    ∃ record ∈ records.head?, s.check record ≠ .ok ()

/-- The expired records. -/
def Store.expiredRows (s : Store) (before : ℚ) : List (RecordKey × IndexRecord) :=
  s.records.entries.filter fun row => Store.expired before row.2

/-- The texts and times of the call have their columns, and: a definition is created again with its
time; records come as `FitsAll`; an offset is a `bigint`; the rows of a page are ordered by their
columns as by their times and ids; a blank text is asked of an index that exists; no record that is
deleted is deleted with its source again; where more records have expired than are deleted, those
that memory puts first come first by their columns. -/
def Fits (db : Database) (s : Store) : Call → Prop
  | .createIndex definition =>
    (∃ existing ∈ s.indexes.get? definition.indexId, existing.contract ≠ definition.contract) ∨
      db.fitsIndex definition = true ∧
        ∀ existing ∈ s.indexes.get? definition.indexId, existing.createdAt = definition.createdAt
  | .upsert record => FitsAll db s [record]
  | .upsertMany records => FitsAll db s records
  | .listRecords tenantId projectId indexId sourceType sourceId offset limit =>
    0 ≤ offset → 1 ≤ limit ∧ limit ≤ 1000 →
      bindable ([tenantId, projectId] ++ [indexId, sourceType, sourceId].reduceOption) = true ∧
        offset ≤ maxBigint ∧ ∀ x ∈ s.rows tenantId projectId indexId sourceType sourceId,
        ∀ y ∈ s.rows tenantId projectId indexId sourceType sourceId, newerRow db x y →
          Store.newer x y
  | .queryVector tenantId projectId indexId _ _ _ => bindable [tenantId, projectId, indexId] = true
  | .queryText tenantId projectId indexId query _ =>
    bindable [tenantId, projectId, indexId] = true ∧
      (blank query = true → (s.indexes.get? indexId).isSome)
  | .deleteSource tenantId projectId sourceType sourceId _ =>
    bindable [tenantId, projectId, sourceType, sourceId] = true ∧ ∀ row ∈ s.records.entries,
      Store.ofSource tenantId projectId sourceType sourceId row.1 row.2 = true →
      row.2.status ≠ .deleted
  | .deleteAsset tenantId projectId assetId _ => bindable [tenantId, projectId, assetId] = true
  | .deleteExpired before limit =>
    1 ≤ limit ∧ limit ≤ 10000 → db.inRange before = true ∧
      (∀ row ∈ s.records.entries, expiredRow db before row.2 = Store.expired before row.2) ∧
      ∀ x ∈ s.expiredRows before, ∀ y ∈ s.expiredRows before,
        ahead Store.expiresFirst (s.expiredRows before) x < limit.toNat →
        limit.toNat ≤ ahead Store.expiresFirst (s.expiredRows before) y → ¬expiresBefore db y x
  | .rebuild tenantId projectId indexId => bindable [tenantId, projectId, indexId] = true

variable {db : Database}

theorem alike_createIndex (h : Fits db s (.createIndex definition)) :
    Alike (s.createIndex definition) (s.insertIndex db definition) := by
  unfold Store.createIndex Store.insertIndex
  cases hget : s.indexes.get? definition.indexId with
  | none =>
    rcases h with ⟨_, hexisting, -⟩ | ⟨hfits, -⟩
    · rw [hget] at hexisting
      cases hexisting
    · simp [hfits, Alike, SameAnswer]
  | some existing =>
    rcases h with ⟨_, hexisting, hconflict⟩ | ⟨hfits, hcreated⟩
    · rw [hget] at hexisting
      cases hexisting
      cases db.fitsIndex definition <;> simp [hconflict, Alike, SameAnswer]
    · have hcreated := hcreated existing hget
      by_cases hcontract : existing.contract = definition.contract
      · have heq : existing = definition := by
          cases existing
          cases definition
          simp only [IndexDefinition.contract, IndexDefinition.mk.injEq] at hcontract hcreated ⊢
          simp [hcontract, hcreated]
        simp only [hcontract, ne_eq, not_true, if_false, hfits, Bool.not_true, Bool.false_eq_true,
          Option.getD_some, Option.isSome_some, if_true]
        subst heq
        rw [Dict.insert_of_get? hget]
        exact ⟨rfl, rfl⟩
      · simp [hcontract, hfits, Alike, SameAnswer]

theorem onMemory_upsert (g : Geometry) (casefold : String → String) :
    (Call.upsert record).onMemory g casefold s = (Call.upsertMany [record]).onMemory g
      casefold s := by
  simp only [Call.onMemory, Store.upsertMany]
  rcases s.upsert record with ⟨_ | _, _⟩ <;> rfl

theorem alike_upsertMany {records : List IndexRecord} (h : FitsAll db s records) :
    Alike (s.upsertMany records) (s.insertMany db records) := by
  unfold Store.insertMany
  rcases h with hall | ⟨record, hfirst, hrefused⟩
  · have hrows : s.checkRows records = .ok () := by
      induction records with
      | nil => rfl
      | cons record _ ih =>
        have hbind : bindable [record.indexId] = true := by
          have hfits := (hall record List.mem_cons_self).2.2
          simp only [Database.fits, Bool.and_eq_true, bindable, List.all_eq_true] at hfits ⊢
          intro text htext
          rw [List.mem_singleton] at htext
          exact hfits.1.1.1.1.1.1.1 text (by simp [htext, IndexRecord.texts])
        obtain ⟨hcheck, hreferenced, -⟩ := hall record List.mem_cons_self
        unfold Store.checkRows
        rw [checkRow_iff.2 ⟨hbind, hcheck, hreferenced⟩]
        exact ih fun other hother => hall other (List.mem_cons_of_mem _ hother)
    have hfits : records.all db.fits = true := List.all_eq_true.2 fun record hrecord =>
        (hall record hrecord).2.2
    rw [upsertMany_ok fun record hrecord => (hall record hrecord).1, hrows]
    simp only [hfits, if_true]
    exact ⟨rfl, rfl⟩
  · cases records with
    | nil => cases hfirst
    | cons =>
      cases hfirst
      unfold Store.upsertMany Store.upsert Store.checkRows
      cases hcheck : s.check record with
      | ok => exact absurd hcheck hrefused
      | error e =>
        cases hrow : s.checkRow record with
        | ok => exact absurd (checkRow_iff.1 hrow).2.1 hrefused
        | error => exact ⟨trivial, rfl⟩

theorem alike_listRecords (hvalid : Valid s) {tenantId projectId : String}
    {indexId sourceType sourceId : Option String} {offset limit : Int}
    (h : Fits db s (.listRecords tenantId projectId indexId sourceType sourceId offset limit)) :
    SameAnswer (s.listRecords tenantId projectId indexId sourceType sourceId offset limit)
      (s.selectRecords db tenantId projectId indexId sourceType sourceId offset limit) := by
  unfold Store.listRecords Store.selectRecords
  by_cases hpage : offset < 0 ∨ ¬(1 ≤ limit ∧ limit ≤ 1000)
  · rw [if_pos hpage, if_pos hpage]
    trivial
  · rw [if_neg hpage, if_neg hpage]
    rw [not_or, not_lt, not_not] at hpage
    obtain ⟨hbind, hbigint, horder⟩ := h hpage.1 hpage.2
    have hsorted : (s.rows tenantId projectId indexId sourceType sourceId).insertionSort
        Store.newer = s.selectRows db tenantId projectId indexId sourceType sourceId :=
      insertionSort_congr (newer_antisymm hvalid) horder
        (((db.scan_perm s.records.entries).symm.filter _).map _)
    rw [hbind, hsorted, decide_eq_false (not_lt.2 hbigint)]
    exact SameAnswer.refl

theorem selectAll_eq (hbind : bindable [tenantId, projectId, indexId] = true) :
    s.selectAll db tenantId projectId indexId =
      .ok (s.selectRows db tenantId projectId (some indexId) none none) := by
  unfold Store.selectAll
  rw [hbind]
  dsimp only
  rw [allPages_eq _ (by omega)]
  rfl

theorem getIndex_eq (hbind : bindable [tenantId, projectId, indexId] = true) :
    s.getIndex indexId = .ok (s.indexes.get? indexId) := by
  have hindex : bindable [indexId] = true := by
    simp only [bindable, List.all_cons, Bool.and_eq_true] at hbind ⊢
    exact hbind.2.2
  unfold Store.getIndex
  rw [hindex]
  rfl

theorem alike_queryVector (hvalid : Valid s) (g : Geometry)
    (hbind : bindable [tenantId, projectId, indexId] = true) (vector : List Scalar) (limit : Int)
    (threshold : Option ℚ) :
    SameAnswer (s.queryVector g tenantId projectId indexId vector limit threshold)
      (s.queryVectorIn db g tenantId projectId indexId vector limit threshold) := by
  unfold Store.queryVectorIn
  rw [getIndex_eq hbind, selectAll_eq hbind]
  cases hget : s.indexes.get? indexId with
  | none =>
    unfold Store.queryVector
    rw [hget]
    split_ifs <;> trivial
  | some =>
    have hperm : (s.rows tenantId projectId (some indexId) none none).Perm
        (s.selectRows db tenantId projectId (some indexId) none none) := selectRows_perm
    obtain ⟨memory, hmemory, hindex, hrows⟩ := inMemory_eq hvalid hget hperm
    have hsame : memory.queryVector g tenantId projectId indexId vector limit threshold =
        s.queryVector g tenantId projectId indexId vector limit threshold := by
      unfold Store.queryVector
      rw [hindex, hget, hrows]
    dsimp only [bind, Except.bind]
    rw [hmemory]
    dsimp only
    rw [hsame]
    exact SameAnswer.refl

theorem alike_queryText (hvalid : Valid s) (casefold : String → String)
    (hbind : bindable [tenantId, projectId, indexId] = true) {query : String}
    (hblank : blank query = true → (s.indexes.get? indexId).isSome) (limit : Int) :
    SameAnswer (s.queryText casefold tenantId projectId indexId query limit)
      (s.queryTextIn db casefold tenantId projectId indexId query limit) := by
  unfold Store.queryTextIn
  rw [getIndex_eq hbind, selectAll_eq hbind]
  cases hget : s.indexes.get? indexId with
  | none =>
    unfold Store.queryText
    rw [hget] at hblank ⊢
    split_ifs with hquery
    · exact absurd (hblank hquery) (by simp)
    · trivial
  | some =>
    have hperm : (s.rows tenantId projectId (some indexId) none none).Perm
        (s.selectRows db tenantId projectId (some indexId) none none) := selectRows_perm
    obtain ⟨memory, hmemory, hindex, hrows⟩ := inMemory_eq hvalid hget hperm
    have hsame : memory.queryText casefold tenantId projectId indexId query limit =
        s.queryText casefold tenantId projectId indexId query limit := by
      unfold Store.queryText
      rw [hindex, hget, hrows]
    dsimp only [bind, Except.bind]
    rw [hmemory]
    dsimp only
    rw [hsame]
    exact SameAnswer.refl

theorem marked_congr {p q : RecordKey → IndexRecord → Bool}
    (h : ∀ row ∈ s.records.entries, p row.1 row.2 = q row.1 row.2) (now : ℚ) :
    s.count p = s.count q ∧ s.markDeleted p now = s.markDeleted q now := by
  refine ⟨List.countP_congr fun row hrow => by rw [h row hrow], ?_⟩
  unfold Store.markDeleted
  congr 1
  refine Dict.ext' (List.map_congr_left fun row hrow => ?_)
  dsimp only
  rw [h row hrow]

theorem alike_deleteSource {tenantId projectId sourceType sourceId : String} {now : ℚ}
    (h : Fits db s (.deleteSource tenantId projectId sourceType sourceId now)) :
    Alike (s.deleteSource tenantId projectId sourceType sourceId now)
      (s.updateSource tenantId projectId sourceType sourceId now) := by
  obtain ⟨hbind, hlive⟩ := h
  obtain ⟨hcount, hmarked⟩ := marked_congr (s := s)
    (p := Store.ofSource tenantId projectId sourceType sourceId)
    (q := fun key record => Store.ofSource tenantId projectId sourceType sourceId key record &&
      decide (record.status ≠ .deleted)) (fun row hrow => by
        cases hsource : Store.ofSource tenantId projectId sourceType sourceId row.1 row.2
        · rfl
        · exact (decide_eq_true (hlive row hrow hsource)).symm) now
  unfold Store.deleteSource Store.updateSource
  rw [hbind]
  exact ⟨hcount, hmarked⟩

theorem alike_deleteAsset {tenantId projectId assetId : String}
    (hbind : bindable [tenantId, projectId, assetId] = true) (now : ℚ) :
    Alike (s.deleteAsset tenantId projectId assetId now)
      (s.updateAsset tenantId projectId assetId now) := by
  unfold Store.deleteAsset Store.updateAsset
  rw [hbind]
  exact ⟨rfl, rfl⟩

/-! ## Expired records -/

section Expired

variable {before : ℚ} {limit : Int}

/-- The order of the keys, of rows. -/
abbrev byKey : RecordKey × IndexRecord → RecordKey × IndexRecord → Prop :=
  thenBy (fun x => x.1.tenantId) (thenBy (fun x => x.1.projectId) fun x y => x.1.recordId ≤
    y.1.recordId)

instance : Std.Total byKey :=
  have : Std.Total fun x y : RecordKey × IndexRecord => x.1.recordId ≤ y.1.recordId :=
    ⟨fun _ _ => le_total _ _⟩
  have := total_thenBy (fun x : RecordKey × IndexRecord => x.1.projectId) fun x y => x.1.recordId ≤
      y.1.recordId
  total_thenBy _ _

instance : IsTrans (RecordKey × IndexRecord) byKey :=
  have : IsTrans (RecordKey × IndexRecord) fun x y => x.1.recordId ≤ y.1.recordId :=
    ⟨fun _ _ _ hxy hyz => hxy.trans hyz⟩
  have := trans_thenBy (fun x : RecordKey × IndexRecord => x.1.projectId) fun x y => x.1.recordId ≤
      y.1.recordId
  trans_thenBy _ _

instance : Std.Total Store.expiresFirst :=
  total_thenBy (fun x : RecordKey × IndexRecord => x.2.expiresAt.getD 0) byKey

instance : IsTrans (RecordKey × IndexRecord) Store.expiresFirst :=
  trans_thenBy (fun x : RecordKey × IndexRecord => x.2.expiresAt.getD 0) byKey

instance : Std.Total (expiresBefore db) :=
  have : Std.Total fun x y : RecordKey × IndexRecord => db.sortKey x.1.recordId ≤
      db.sortKey y.1.recordId :=
    ⟨fun _ _ => le_total _ _⟩
  total_thenBy (expiresAt db) _

instance : IsTrans (RecordKey × IndexRecord) (expiresBefore db) :=
  have : IsTrans (RecordKey × IndexRecord) fun x y => db.sortKey x.1.recordId ≤
      db.sortKey y.1.recordId :=
    ⟨fun _ _ _ hxy hyz => hxy.trans hyz⟩
  trans_thenBy (expiresAt db) _

theorem expiresFirst_antisymm :
    ∀ x ∈ s.expiredRows before, ∀ y ∈ s.expiredRows before,
      Store.expiresFirst x y → Store.expiresFirst y x → x = y := by
  intro x hx y hy hxy hyx
  obtain ⟨-, hxy, hyx⟩ := thenBy.both (f := fun x : RecordKey × IndexRecord => x.2.expiresAt.getD 0)
      (r := byKey) hxy hyx
  obtain ⟨htenant, hxy, hyx⟩ := thenBy.both hxy hyx
  obtain ⟨hproject, hxy, hyx⟩ := thenBy.both hxy hyx
  exact List.inj_on_of_nodup_map s.records.nodup (List.mem_of_mem_filter hx)
    (List.mem_of_mem_filter hy) (RecordKey.eq_of_fields htenant hproject (hxy.antisymm hyx))

theorem alike_deleteExpired (h : Fits db s (.deleteExpired before limit)) :
    Alike (s.deleteExpired before limit) (s.updateExpired db before limit) := by
  unfold Store.deleteExpired Store.updateExpired
  by_cases hlimit : 1 ≤ limit ∧ limit ≤ 10000
  · obtain ⟨hrange, hexpired, hahead⟩ := h hlimit
    have hrows : (s.expiredRows before).Perm
        ((db.scan s.records.entries).filter fun row => expiredRow db before row.2) := by
      refine ((db.scan_perm s.records.entries).symm.filter _).trans
        (.of_eq (List.filter_congr fun row hrow => ?_))
      exact (hexpired row ((db.scan_perm _).mem_iff.1 hrow)).symm
    have hnodup : (s.expiredRows before).Nodup := (List.Nodup.of_map _ s.records.nodup).filter _
    have hperm := (take_insertionSort_perm expiresFirst_antisymm hnodup hrows hahead).map Prod.fst
    have hmem : ∀ row ∈ s.records.entries, decide (row.1 ∈ _) = decide (row.1 ∈ _) := fun row _ =>
      decide_eq_decide.2 hperm.symm.mem_iff
    rw [if_neg (not_not.2 hlimit), if_neg (not_not.2 hlimit), hrange]
    exact ⟨hperm.length_eq.symm, (marked_congr (p := fun key _ => decide (key ∈ _))
      (q := fun key _ => decide (key ∈ _)) hmem before).2⟩
  · rw [if_pos hlimit, if_pos hlimit]
    exact ⟨trivial, rfl⟩

end Expired

/-! ## Rebuilding -/

theorem validateAll_ok {records : List IndexRecord}
    (h : ∀ record ∈ records, Accepts definition record) :
    Store.validateAll definition records = .ok () := by
  induction records with
  | nil => rfl
  | cons record _ ih =>
    have hrest := ih fun other hother => h other (List.mem_cons_of_mem _ hother)
    unfold Store.validateAll
    split
    · rename_i vector dimension hvector hdimension
      rw [(h record List.mem_cons_self).vector (by rw [hdimension]; rfl) vector hvector]
      exact hrest
    · exact hrest

theorem alike_rebuild (hvalid : Valid s) {tenantId projectId indexId : String}
    (hbind : bindable [tenantId, projectId, indexId] = true) :
    SameAnswer (s.rebuild tenantId projectId indexId)
      (s.rebuildIn db tenantId projectId indexId) := by
  unfold Store.rebuild Store.rebuildIn
  rw [getIndex_eq hbind, selectAll_eq hbind]
  cases hget : s.indexes.get? indexId with
  | none => trivial
  | some definition =>
    have haccepts : ∀ record ∈ s.allRows tenantId projectId indexId, Accepts definition record := by
      intro _ hrecord
      rw [allRows_eq] at hrecord
      obtain ⟨hstored, -, -, -, hindex⟩ := mem_rows hvalid ((List.mem_insertionSort _).1 hrecord)
      obtain ⟨_, hexisting, haccepts⟩ := check_iff.1 (hvalid.check _ _ hstored)
      rw [hindex indexId rfl, hget] at hexisting
      cases hexisting
      exact haccepts
    have hlength : (s.allRows tenantId projectId indexId).length =
        (s.selectRows db tenantId projectId (some indexId) none none).length := by
      rw [allRows_eq, List.length_insertionSort, selectRows_perm.length_eq]
    dsimp only
    rw [validateAll_ok haccepts, hlength]
    exact SameAnswer.refl

/-! ## Runs -/

/-- Both stores. -/
structure Both where
  memory : Store
  postgres : Store

/-- Nothing stored in either. -/
def Both.empty : Both := ⟨.empty, .empty⟩

variable (db) (g : Geometry) (casefold : String → String)

/-- The call on both stores. -/
def step (s : Both) (call : Call) : Option Both :=
  some ⟨(call.onMemory g casefold s.memory).2, (call.onPostgres db g casefold s.postgres).2⟩

/-- Both answer the call alike. -/
def Answered (s : Both) (call : Call) : Prop :=
  SameAnswer (call.onMemory g casefold s.memory).1 (call.onPostgres db g casefold s.postgres).1

/-- Both hold the same definitions and the same records. -/
structure SameRows (s : Both) : Prop where
  indexes : ∀ id, s.memory.indexes.get? id = s.postgres.indexes.get? id
  records : ∀ key, s.memory.records.get? key = s.postgres.records.get? key

variable {db g casefold}

theorem agree_call (hvalid : Valid s) {call : Call} (h : Fits db s call) :
    Alike (call.onMemory g casefold s) (call.onPostgres db g casefold s) := by
  cases call with
  | createIndex definition => exact (alike_createIndex h).map Answer.definition
  | upsert =>
    rw [onMemory_upsert]
    exact (alike_upsertMany h).map Answer.records
  | upsertMany records => exact (alike_upsertMany h).map Answer.records
  | listRecords =>
    exact ⟨(alike_listRecords hvalid h).map Answer.records, rfl⟩
  | queryVector _ _ _ vector limit threshold =>
    exact ⟨(alike_queryVector hvalid g h vector limit threshold).map Answer.hits, rfl⟩
  | queryText _ _ _ _ limit =>
    exact ⟨(alike_queryText hvalid casefold h.1 h.2 limit).map Answer.hits, rfl⟩
  | deleteSource => exact (alike_deleteSource h).map Answer.count
  | deleteAsset _ _ _ now => exact (alike_deleteAsset h now).map Answer.count
  | deleteExpired => exact (alike_deleteExpired h).map Answer.count
  | rebuild => exact ⟨(alike_rebuild hvalid h).map Answer.counts, rfl⟩

/-- **The stores agree** along every run of calls that fit. -/
theorem stores_agree (calls : List Call)
    (h : Along (step db g casefold) (fun s call => Fits db s.memory call) .empty calls) :
    Along (step db g casefold) (Answered db g casefold) .empty calls ∧
      ∀ s ∈ states (step db g casefold) .empty calls, SameRows s := by
  have hstep : ∀ (s : Both) call s', s.memory = s.postgres ∧ Valid s.memory →
      Fits db s.memory call →
      step db g casefold s call = some s' → s'.memory = s'.postgres ∧ Valid s'.memory := by
    intro s call s' ⟨hsame, hvalid⟩ hfits hs
    cases hs
    exact ⟨hsame ▸ (agree_call hvalid hfits).2, valid_call hvalid g casefold call⟩
  have hempty : Both.empty.memory = Both.empty.postgres ∧ Valid Both.empty.memory :=
    ⟨rfl, valid_empty⟩
  refine ⟨along_mono hstep ?_ hempty h, fun s hs => ?_⟩
  · intro s call ⟨hsame, hvalid⟩ hfits
    unfold Answered
    rw [← hsame]
    exact (agree_call hvalid hfits).1
  · have hsame := (invariant_states hstep hempty h s hs).1
    exact ⟨fun id => by rw [hsame], fun key => by rw [hsame]⟩

/-! ## Decided, on runs -/

instance (db : Database) (s : Store) : ∀ call, Decidable (Fits db s call)
  | .createIndex _ => inferInstanceAs (Decidable (_ ∨ _))
  | .upsert _ | .upsertMany _ => inferInstanceAs (Decidable ((∀ _ ∈ _, _ ∧ ¬(_ ∧ _) ∧ _) ∨ _))
  | .listRecords _ _ _ _ _ _ _ => inferInstanceAs (Decidable (_ → _))
  | .queryVector _ _ _ _ _ _ => inferInstanceAs (Decidable (_ = true))
  | .queryText _ _ _ _ _ => inferInstanceAs (Decidable (_ ∧ _))
  | .deleteSource _ _ _ _ _ => inferInstanceAs (Decidable (_ ∧ _))
  | .deleteAsset _ _ _ _ => inferInstanceAs (Decidable (_ = true))
  | .deleteExpired _ _ => inferInstanceAs (Decidable (_ → _))
  | .rebuild _ _ _ => inferInstanceAs (Decidable (_ = true))

/-- How many records a call tells of: `none` when it raises. -/
def told : Except Error Answer → Option Nat
  | .error _ => none
  | .ok (.count n) | .ok (.counts (n, _)) => some n
  | .ok (.records records) => some records.length
  | .ok (.hits hits) => some hits.length
  | .ok (.definition _) => some 0

theorem told_of_sameAnswer {x y : Except Error Answer} (h : SameAnswer x y) : told x = told y := by
  cases x <;> cases y
  · rfl
  · exact h.elim
  · exact h.elim
  · exact congrArg (fun answer => told (.ok answer)) h

/-- Times in microseconds, code point order, rows as they were stored. -/
def microseconds : Database where
  toTimestamp t := some (t * 1000000).floor
  sortKey := id
  sortKey_injective := fun _ _ h => h
  scan := id
  scan_perm rows := .refl rows
  storable _ := true

/-- A vector index. -/
def faces : IndexDefinition :=
  ⟨"faces", "1.0", "portrait", .vector, some 1, some "model", some "1", some "l2", none, none, 0⟩

/-- A text index. -/
def captions : IndexDefinition :=
  ⟨"captions", "1.0", "ocr", .text, none, none, none, none, none, some "simple", 0⟩

/-- A vector record. -/
def face (recordId : String) (value : ℚ) (expiresAt : Option ℚ) : IndexRecord where
  tenantId := "acme"
  projectId := "gate"
  recordId := recordId
  indexId := "faces"
  domain := "portrait"
  kind := .vector
  source := ⟨"run", "run_1", some "asset_1", some "run_1", none, none, none, none, none⟩
  featureId := none
  text := none
  vector := some [some value]
  metadata := []
  status := .ready
  createdAt := value
  expiresAt := expiresAt
  deletedAt := none

/-- A text record. -/
def caption (text : String) : IndexRecord :=
  { face "t1" 9 none with
    indexId := "captions", domain := "ocr", kind := .text, text := some text, vector := none,
    source := ⟨"run", "run_2", none, some "run_2", none, none, none, none, none⟩ }

/-- Two indexes with a few records, asked and emptied. -/
def visit : List Call :=
  [.createIndex faces, .createIndex captions, .createIndex { faces with domain := "ocr" },
    .upsertMany [face "r1" 1 none, face "r2" 2 (some 5), face "r3" 3 (some 5)],
    .upsert (caption "two words"),
    .upsertMany [{ face "r4" 4 none with vector := some [some 1, some 2] }, face "r5" 5 none],
    .listRecords "acme" "gate" (some "faces") none none 0 2,
      .queryVector "acme" "gate" "faces" [some 2] 20 none,
    .queryText "acme" "gate" "captions" "words" 20, .queryText "acme" "gate" "captions" " " 20,
    .deleteExpired 5 1, .rebuild "acme" "gate" "faces", .deleteSource "acme" "gate" "run" "run_2" 7,
    .deleteAsset "acme" "gate" "asset_1" 8]

theorem visit_agrees :
    Along (step microseconds .squares id) (Answered microseconds .squares id) .empty visit ∧
      ∀ s ∈ states (step microseconds .squares id) .empty visit, SameRows s :=
  stores_agree visit (by decide +kernel)

variable {calls : List Call}

theorem exists_unanswered {call : Call}
    (h : (exec (step db g casefold) .empty calls).any (fun s => decide
    (told (call.onMemory g casefold s.memory).1 ≠
      told (call.onPostgres db g casefold s.postgres).1)) = true) :
    ∃ s ∈ states (step db g casefold) .empty calls, ¬Answered db g casefold s call := by
  obtain ⟨s, hs, hdiffer⟩ := (Option.any_eq_true _ _).1 h
  exact ⟨s, mem_states_of_exec hs,
    fun hsame => of_decide_eq_true hdiffer (told_of_sameAnswer hsame)⟩

theorem exists_unlike {k : RecordKey}
    (h : (exec (step db g casefold) .empty calls).any (fun s => decide
    ((s.memory.records.get? k).map (·.status) ≠ (s.postgres.records.get? k).map (·.status))) =
      true) :
    ∃ s ∈ states (step db g casefold) .empty calls, ¬SameRows s := by
  obtain ⟨s, hs, hdiffer⟩ := (Option.any_eq_true _ _).1 h
  exact ⟨s, mem_states_of_exec hs,
    fun hsame => of_decide_eq_true hdiffer (congrArg _ (hsame.records k))⟩

/-- **Calls that the stores take differently.** A source deleted again counts its records again in
memory; a vector record that refers to nothing, in an index without a dimension, is stored in memory
and raised by PostgreSQL; of two records that expire at once, memory deletes that of the first
project and PostgreSQL that with the first id; the record before a refused one stays in memory. -/
theorem taken_differently :
    (∃ s ∈ states (step microseconds .squares id) .empty
        [.createIndex faces, .upsert (face "r1" 1 none),
          .deleteSource "acme" "gate" "run" "run_1" 5],
      ¬Answered microseconds .squares id s (.deleteSource "acme" "gate" "run" "run_1" 6)) ∧
    (∃ s ∈ states (step microseconds .squares id) .empty
      [.createIndex { faces with vectorDimension := none }],
      ¬Answered microseconds .squares id s (.upsert { face "r1" 1 none with vector := none })) ∧
    (∃ s ∈ states (step microseconds .squares id) .empty
        [.createIndex faces, .upsert { face "r2" 1 (some 5) with projectId := "door" },
          .upsert (face "r1" 1 (some 5)), .deleteExpired 5 1],
      ¬SameRows s) ∧
    ∃ s ∈ states (step microseconds .squares id) .empty
        [.createIndex faces, .upsertMany [face "r1" 1 none,
          { face "r2" 2 none with domain := "ocr" }]],
      ¬SameRows s :=
  ⟨exists_unanswered (by decide +kernel), exists_unanswered (by decide +kernel),
    exists_unlike (k := ⟨"acme", "gate", "r1"⟩) (by decide +kernel),
    exists_unlike (k := ⟨"acme", "gate", "r1"⟩) (by decide +kernel)⟩

end Scenara.Index
