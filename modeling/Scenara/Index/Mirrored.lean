import Scenara.Index.Results

/-!
# The index mirrors the result

* `rows_insertAll`: records of one source that are stored after the old ones were deleted are
  listed, one for each, exactly when their ids are different.
-/

namespace Scenara.Index

open Scenara.Core
open Result (IndexStatus)

/-! ## What is listed -/

variable {s s' : Store} {record : IndexRecord} {records : List IndexRecord}

/-- The records of a source that are listed. -/
def Store.listed (s : Store) (tenantId projectId sourceType sourceId : String) : List IndexRecord :=
  s.rows tenantId projectId none (some sourceType) (some sourceId)

theorem Store.mem_listed {tenantId projectId sourceType sourceId : String} :
    record ∈ s.listed tenantId projectId sourceType sourceId ↔
    ∃ key, s.records.get? key = some record ∧
      Store.ofSource tenantId projectId sourceType sourceId key record = true ∧
      record.status ≠ .deleted := by
  simp only [Store.listed, Store.rows, List.mem_map, List.mem_filter, Store.ofSource,
    Option.all_none, Option.all_some, Bool.and_true, Bool.and_eq_true, decide_eq_true_eq]
  constructor
  · rintro ⟨⟨key, _⟩, ⟨hmem, ⟨⟨⟨htenant, hproject⟩, hstatus⟩, htype⟩, hid⟩, rfl⟩
    exact ⟨key, (Dict.mem_entries _ _ _).1 hmem, ⟨⟨⟨htenant, hproject⟩, htype⟩, hid⟩, hstatus⟩
  · rintro ⟨key, hget, ⟨⟨⟨htenant, hproject⟩, htype⟩, hid⟩, hstatus⟩
    exact ⟨(key, record), ⟨(Dict.mem_entries _ _ _).2 hget, ⟨⟨⟨htenant, hproject⟩, hstatus⟩, htype⟩,
      hid⟩, rfl⟩

/-- Records of one source and of one project. -/
structure OfSource (tenantId projectId sourceType sourceId : String) (record : IndexRecord) :
    Prop where
  tenantId : record.tenantId = tenantId
  projectId : record.projectId = projectId
  sourceType : record.source.sourceType = sourceType
  sourceId : record.source.sourceId = sourceId
  status : record.status = .ready

variable {tenantId projectId sourceType sourceId : String}

/-- Records of the source are stored where none of it is listed. -/
structure Stored (tenantId projectId sourceType sourceId : String) (records : List IndexRecord)
    (s s' : Store) : Prop where
  none : s.listed tenantId projectId sourceType sourceId = []
  ofSource : ∀ record ∈ records, OfSource tenantId projectId sourceType sourceId record
  stored : s'.records = s.records.insertAll IndexRecord.toRecordKey records

section

variable (h : Stored tenantId projectId sourceType sourceId records s s')
include h

theorem Stored.mem {key : RecordKey} (hget : s'.records.get? key = some record)
    (hsource : Store.ofSource tenantId projectId sourceType sourceId key record = true)
    (hstatus : record.status ≠ .deleted) : record ∈ records ∧ record.toRecordKey = key := by
  rw [h.stored] at hget
  rcases Dict.get?_insertAll IndexRecord.toRecordKey records s.records key with
    ⟨-, hold⟩ | ⟨stored, hmem, hkey, hnew⟩
  · have hlisted := Store.mem_listed.2 ⟨key, hold.symm.trans hget, hsource, hstatus⟩
    rw [h.none] at hlisted
    cases hlisted
  · rw [hget] at hnew
    cases hnew
    exact ⟨hmem, hkey⟩

theorem Stored.nodup :
    ((s'.listed tenantId projectId sourceType sourceId).map IndexRecord.toRecordKey).Nodup := by
  unfold Store.listed Store.rows
  rw [List.map_map]
  refine (List.map_congr_left ?_ : List.map Prod.fst _ = _) ▸ s'.records.nodup.sublist
    (List.filter_sublist.map _)
  rintro ⟨_, _⟩ hmem
  obtain ⟨hentry, hrow⟩ := List.mem_filter.1 hmem
  have hget := (Dict.mem_entries _ _ _).1 hentry
  simp only [Option.all_none, Option.all_some, Bool.and_true, Bool.and_eq_true,
    decide_eq_true_eq] at hrow
  obtain ⟨⟨⟨⟨htenant, hproject⟩, hstatus⟩, htype⟩, hid⟩ := hrow
  exact (h.mem hget (by simp [Store.ofSource, htenant, hproject, htype, hid]) hstatus).2.symm

theorem Stored.nodup_iff :
    (records.map fun record => record.recordId).Nodup ↔
    (records.map IndexRecord.toRecordKey).Nodup := by
  have hmap : records.map IndexRecord.toRecordKey =
      (records.map fun record => record.recordId).map (RecordKey.mk tenantId projectId) := by
    rw [List.map_map]
    refine List.map_congr_left fun record hmem => ?_
    obtain ⟨rfl, rfl, -⟩ := h.ofSource record hmem
    rfl
  rw [hmap]
  refine (List.nodup_map_iff fun x y hxy => ?_).symm
  cases hxy
  rfl

theorem Stored.perm_iff : (s'.listed tenantId projectId sourceType sourceId).Perm records ↔
      (records.map fun record => record.recordId).Nodup := by
  rw [h.nodup_iff]
  refine ⟨fun hperm => (hperm.map IndexRecord.toRecordKey).nodup_iff.1 h.nodup, fun hnodup => ?_⟩
  refine (List.perm_ext_iff_of_nodup (.of_map _ h.nodup) (.of_map _ hnodup)).2 fun record => ?_
  rw [Store.mem_listed]
  constructor
  · rintro ⟨_, hget, hsource, hstatus⟩
    exact (h.mem hget hsource hstatus).1
  · intro hmem
    obtain ⟨htenant, hproject, htype, hid, hstatus⟩ := h.ofSource record hmem
    refine ⟨record.toRecordKey, ?_, by simp [Store.ofSource, htenant, hproject, htype,
      hid], by simp [hstatus]⟩
    rw [h.stored]
    exact Dict.get?_insertAll_of_nodup hnodup _ hmem

end

/-! ## What `_index_result` stores -/

variable {envelope : Envelope} {run : Run} {now : ℚ}

theorem createIndex_records (definition : IndexDefinition) :
    (s.createIndex definition).2.records = s.records := by
  unfold Store.createIndex
  split
  · split_ifs <;> rfl
  · rfl

theorem upsertMany_records {upserted : List IndexRecord}
    (h : s.upsertMany records = (.ok upserted, s')) :
    s'.records = s.records.insertAll IndexRecord.toRecordKey records := by
  induction records generalizing s upserted with
  | nil =>
    cases h
    rfl
  | cons record records ih =>
    unfold Store.upsertMany Store.upsert at h
    cases hcheck : s.check record with
    | error e =>
      simp [hcheck] at h
    | ok =>
      rw [hcheck] at h
      rcases hmany : (s.put record).upsertMany records with ⟨_ | _, _⟩
      · simp only [hmany] at h
        cases h
      · simp only [hmany] at h
        cases h
        exact ih hmany

theorem indexHints_records {hints : List ResultIndexVector} {vectorRecords : List IndexRecord}
    (h : envelope.indexHints run now hints s = (.ok vectorRecords, s')) :
    s'.records = s.records ∧ vectorRecords = hints.map (envelope.vectorRecord run now) := by
  induction hints generalizing s vectorRecords with
  | nil =>
    cases h
    exact ⟨rfl, rfl⟩
  | cons hint hints ih =>
    unfold Envelope.indexHints at h
    split at h
    · cases h
    · rcases hcreate : s.createIndex (envelope.vectorDefinition now hint) with ⟨_ | _, s₁⟩
      · rw [hcreate] at h
        cases h
      · have hrecords := createIndex_records (s := s) (envelope.vectorDefinition now hint)
        rw [hcreate] at hrecords h
        dsimp only at h
        split at h
        · cases h
        · rcases hmore : envelope.indexHints run now hints s₁ with ⟨_ | _, _⟩
          · rw [hmore] at h
            cases h
          · rw [hmore] at h
            cases h
            obtain ⟨hsame, rfl⟩ := ih hmore
            exact ⟨hsame.trans hrecords, rfl⟩

/-- The records of an envelope. -/
def Envelope.allRecords (envelope : Envelope) (run : Run) (now : ℚ) : List IndexRecord :=
  envelope.records run now ++ envelope.vectorRecords run now

theorem listed_deleteSource : ((s.deleteSource tenantId projectId sourceType sourceId now).2).listed
    tenantId projectId sourceType sourceId = [] := by
  refine List.eq_nil_iff_forall_not_mem.2 fun record hmem => ?_
  obtain ⟨key, hget, hsource, hstatus⟩ := Store.mem_listed.1 hmem
  obtain ⟨old, _, rfl⟩ := Option.map_eq_some_iff.1 ((Dict.get?_mapVals _ _ _).symm.trans hget)
  by_cases hp : Store.ofSource tenantId projectId sourceType sourceId key old = true
  · rw [if_pos hp] at hstatus
    exact hstatus rfl
  · rw [if_neg hp] at hsource
    exact hp hsource

theorem ofSource_allRecords : ∀ record ∈ envelope.allRecords run now,
    OfSource run.tenantId run.projectId "run_result" run.runId record := by
  intro _ hmem
  simp only [Envelope.allRecords, Envelope.records, Envelope.vectorRecords, List.mem_append,
    List.mem_map] at hmem
  rcases hmem with (⟨_, _, rfl⟩ | htext | ⟨_, _, rfl⟩) | ⟨_, _, rfl⟩
  · exact ⟨rfl, rfl, rfl, rfl, rfl⟩
  · split_ifs at htext
    · cases htext
    · rw [List.mem_singleton.1 htext]
      exact ⟨rfl, rfl, rfl, rfl, rfl⟩
  all_goals exact ⟨rfl, rfl, rfl, rfl, rfl⟩

theorem storeIndex_ready (h : envelope.storeIndex run now s = (.ready, s')) :
    Stored run.tenantId run.projectId "run_result" run.runId (envelope.allRecords run now)
      (s.deleteSource run.tenantId run.projectId "run_result" run.runId now).2 s' := by
  refine ⟨listed_deleteSource, ofSource_allRecords, ?_⟩
  unfold Envelope.storeIndex at h
  rcases hindex : envelope.indexResult run now s with ⟨_ | _, _⟩
  · rw [hindex] at h
    cases h
  · rw [hindex] at h
    cases h
    unfold Envelope.indexResult at hindex
    dsimp only at hindex
    split at hindex
    · cases hindex
    · generalize (s.deleteSource run.tenantId run.projectId "run_result" run.runId now).2 = deleted
        at hindex ⊢
      have hcreated := createIndex_records (s := deleted) (envelope.definition now)
      rcases hcreate : deleted.createIndex (envelope.definition now) with ⟨_ | _, s₁⟩
      · rw [hcreate] at hindex
        cases hindex
      · rw [hcreate] at hcreated hindex
        dsimp only at hindex
        split at hindex
        · cases hindex
        · rcases hmany : s₁.upsertMany (envelope.records run now) with ⟨_ | _, s₂⟩
          · rw [hmany] at hindex
            cases hindex
          · rw [hmany] at hindex
            dsimp only at hindex
            rcases hhints : envelope.indexHints run now envelope.indexVectors s₂ with ⟨_ |
              vectors, s₃⟩
            · rw [hhints] at hindex
              cases hindex
            · rw [hhints] at hindex
              dsimp only at hindex
              rcases hlast : s₃.upsertMany vectors with ⟨_ | _, _⟩
              · rw [hlast] at hindex
                cases hindex
              · rw [hlast] at hindex
                cases hindex
                obtain ⟨hsame, rfl⟩ := indexHints_records hhints
                rw [upsertMany_records hlast, hsame, upsertMany_records hmany, hcreated,
                  Envelope.allRecords, Dict.insertAll_append]
                rfl

/-! ## The ids -/

/-- The ids of an envelope do not collide once they are joined: no two objects have one
`unit_object`, none is `block_` and the id of a block with a text, and no two hints are for one
object id. -/
structure Apart (envelope : Envelope) : Prop where
  objects : (envelope.objects.map fun found => found.1.unitId ++ "_" ++ found.2.objectId).Nodup
  blocks : ∀ found ∈ envelope.objects, ∀ block ∈ envelope.textBlocks,
    found.1.unitId ++ "_" ++ found.2.objectId ≠ "block_" ++ block.blockId
  hints : (envelope.indexVectors.map ResultIndexVector.objectId).Nodup

theorem recordId_inj {x y : String} : run.recordId x = run.recordId y ↔ x = y := by
  refine ⟨fun h => ?_, fun h => h ▸ rfl⟩
  have hlist := congrArg String.toList h
  simp only [Run.recordId, String.toList_append, List.append_cancel_left_eq] at hlist
  exact String.toList_inj.1 hlist

theorem vectorId_inj {x y : String} : run.vectorId x = run.vectorId y ↔ x = y := by
  refine ⟨fun h => ?_, fun h => h ▸ rfl⟩
  have hlist := congrArg String.toList h
  simp only [Run.vectorId, String.toList_append, List.append_cancel_left_eq] at hlist
  exact String.toList_inj.1 hlist

theorem recordId_ne_vectorId (x y : String) : run.recordId x ≠ run.vectorId y := by
  intro h
  have hlist := congrArg String.toList h
  simp [Run.recordId, Run.vectorId] at hlist

theorem joined_ne_text (x y : String) : x ++ "_" ++ y ≠ "text" := by
  intro h
  have hmem : '_' ∈ (x ++ "_" ++ y).toList := by simp
  simp [h] at hmem

theorem block_ne_text (x : String) : "block_" ++ x ≠ "text" := by
  intro h
  have hlist := congrArg String.toList h
  simp at hlist

/-- What follows the id of the run in the ids of the records that have no vector. -/
def Envelope.suffixes (envelope : Envelope) : List String :=
  envelope.objects.map (fun found => found.1.unitId ++ "_" ++ found.2.objectId) ++
    ((if envelope.text = "" then [] else ["text"]) ++
      envelope.textBlocks.map fun block => "block_" ++ block.blockId)

theorem allRecords_ids : ((envelope.allRecords run now).map fun record => record.recordId) =
    envelope.suffixes.map run.recordId ++ (envelope.indexVectors.map ResultIndexVector.objectId).map
      run.vectorId := by
  have htext : ((if envelope.text = "" then [] else [run.textRecord envelope now]).map
      fun record => record.recordId) = (if envelope.text = "" then []
        else ["text"]).map run.recordId := by
    split_ifs <;> rfl
  simp only [Envelope.allRecords, Envelope.records, Envelope.vectorRecords, Envelope.suffixes,
    List.map_append, List.map_map, htext]
  rfl

theorem textBlocks_nodup
    (hblocks : ((envelope.blocks.map OcrTextBlock.blockId).filter (· ≠ "")).Nodup) :
    (envelope.textBlocks.map fun block => "block_" ++ block.blockId).Nodup := by
  have hsub : (envelope.textBlocks.map OcrTextBlock.blockId).Sublist
      ((envelope.blocks.map OcrTextBlock.blockId).filter (· ≠ "")) := by
    rw [List.filter_map]
    refine List.Sublist.map _ (List.monotone_filter_right _ fun block h => ?_)
    exact (Bool.and_eq_true_iff.1 h).1
  have hids := hblocks.sublist hsub
  rw [show (fun block : OcrTextBlock => "block_" ++ block.blockId) =
    (fun id => "block_" ++ id) ∘ OcrTextBlock.blockId from rfl, ← List.map_map]
  refine hids.map fun x y hxy => ?_
  have hlist := congrArg String.toList hxy
  simp only [String.toList_append, List.append_cancel_left_eq] at hlist
  exact String.toList_inj.1 hlist

theorem recordIds_nodup
    (hblocks : ((envelope.blocks.map OcrTextBlock.blockId).filter (· ≠ "")).Nodup) :
    ((envelope.allRecords run now).map fun record => record.recordId).Nodup ↔ Apart envelope := by
  have htexts : ((if envelope.text = "" then [] else ["text"]) ++
      envelope.textBlocks.map fun block => "block_" ++ block.blockId).Nodup := by
    refine List.nodup_append.2 ⟨by split_ifs <;> simp, textBlocks_nodup hblocks,
      fun x hx y hy hxy => ?_⟩
    obtain ⟨_, -, rfl⟩ := List.mem_map.1 hy
    split_ifs at hx
    · cases hx
    · exact block_ne_text _ (hxy.symm.trans (List.mem_singleton.1 hx))
  rw [allRecords_ids, List.nodup_append, List.nodup_map_iff fun x y h => recordId_inj.1 h,
    List.nodup_map_iff fun x y h => vectorId_inj.1 h, Envelope.suffixes, List.nodup_append]
  constructor
  · rintro ⟨⟨hobjects, -, hapart⟩, hhints, -⟩
    refine ⟨hobjects, fun found hfound block hblock heq => ?_, hhints⟩
    exact hapart _ (List.mem_map_of_mem hfound) _
      (List.mem_append_right _ (List.mem_map_of_mem hblock)) heq
  · intro h
    refine ⟨⟨h.objects, htexts, fun x hx y hy hxy => ?_⟩, h.hints, fun x hx y hy hxy => ?_⟩
    · obtain ⟨found, hfound, rfl⟩ := List.mem_map.1 hx
      rcases List.mem_append.1 hy with htext | hblock
      · split_ifs at htext
        · cases htext
        · exact joined_ne_text _ _ (hxy.trans (List.mem_singleton.1 htext))
      · obtain ⟨block, hmem, rfl⟩ := List.mem_map.1 hblock
        exact h.blocks found hfound block hmem hxy
    · obtain ⟨a, -, rfl⟩ := List.mem_map.1 hx
      obtain ⟨b, -, rfl⟩ := List.mem_map.1 hy
      exact recordId_ne_vectorId a b hxy

/-- **The index mirrors the result.** Whatever the store held before, once the reference of a final
store is `ready` the listed records of the run are those of the envelope, one for each object, full
text, block and vector hint, exactly when its ids do not collide. -/
theorem index_mirrors (hblocks : ((envelope.blocks.map OcrTextBlock.blockId).filter (· ≠ "")).Nodup)
    (h : envelope.storeIndex run now s = (.ready, s')) :
    (s'.listed run.tenantId run.projectId "run_result" run.runId).Perm
      (envelope.allRecords run now) ↔ Apart envelope :=
  (storeIndex_ready h).perm_iff.trans (recordIds_nodup hblocks)

/-- A run, and an object in each of two units. -/
def sampleRun : Run := ⟨"run_1", "t", "p", none, none, 0, 180⟩

/-- A result with two units, of one object each. -/
def twoUnits (unitId unitId' objectId objectId' : String) : Envelope where
  domain := "portrait"
  units := [⟨unitId, 0, none, none, [⟨objectId, "face", none, none, [], none⟩]⟩,
    ⟨unitId', 1, none, none, [⟨objectId', "face", none, none, [], none⟩]⟩]
  text := ""
  language := none
  blocks := []
  indexVectors := []

/-- The second store of the run: nothing of the first is left. -/
theorem twoUnits_mirrored :
    let first := ((twoUnits "u" "v" "x" "y").storeIndex sampleRun 1 .empty).2
    let second := (twoUnits "a" "b" "x" "x").storeIndex sampleRun 2 first
    second.1 = .ready ∧
      (second.2.listed "t" "p" "run_result" "run_1").Perm
        ((twoUnits "a" "b" "x" "x").allRecords sampleRun 2) := by
  intro _ second
  have hready : second.1 = .ready := by decide +kernel
  refine ⟨hready, (index_mirrors (by decide) (Prod.ext hready rfl)).2 ⟨by decide, ?_, by decide⟩⟩
  intro _ _ _ hblock
  cases hblock

/-- `a` and `b_c`, and `a_b` and `c`: one of the two objects is not in the index. -/
theorem twoUnits_collide :
    let envelope := twoUnits "a" "a_b" "b_c" "c"
    let stored := envelope.storeIndex sampleRun 1 .empty
    (envelope.objects.map fun found => (found.1.unitId, found.2.objectId)) = [("a", "b_c"),
      ("a_b", "c")] ∧
      stored.1 = .ready ∧ (stored.2.listed "t" "p" "run_result" "run_1").length = 1 ∧
      ¬ (stored.2.listed "t" "p" "run_result" "run_1").Perm (envelope.allRecords sampleRun 1) := by
  intro envelope stored
  have hlength : (stored.2.listed "t" "p" "run_result" "run_1").length = 1 := by decide +kernel
  refine ⟨by decide, by decide +kernel, hlength, fun hperm => ?_⟩
  have htwo : (envelope.allRecords sampleRun 1).length = 2 := by decide +kernel
  have := hperm.length_eq
  omega

end Scenara.Index
