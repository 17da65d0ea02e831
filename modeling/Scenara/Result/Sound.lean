import Scenara.Result.Effects

/-!
# What every call of `_store_result` leaves behind

* `Planned` lists the branches `_store_result` takes before its puts, and `storeResult_ok` /
  `storeResult_error` say what a whole call comes to.
* `Sound` is the invariant of the run's reference: its shards are numbered from zero, first the
  final ones and then the partial ones (`Named`), and the row of its index document is live
  (`Anchored`), so that no clean-up takes the reference itself away. Every call keeps it, whatever
  fails (`sound_storeResult`).
-/

namespace Scenara.Result

open Scenara.Core

variable {U E B D : Type} {s s' : State B D} {f : Faults} {v : Service E} {call : Call U E}
variable {store : StateStore} {runId : String} {k : ObjectKey} {now : ℚ} {p : Plan U E D}

/-! ## Discarding -/

theorem foldl_erase_get? (keys : List ObjectKey) (o : Dict ObjectKey B) (k : ObjectKey) :
    (keys.foldl (fun o key => if f.delete key then o else o.erase key) o).get? k =
      if k ∈ keys ∧ f.delete k = false then none else o.get? k := by
  induction keys generalizing o with
  | nil => simp
  | cons key _ ih =>
    rw [List.foldl_cons, ih]
    by_cases hk : k = key
    · subst hk
      by_cases hd : f.delete k <;> simp [hd]
    · by_cases hd : f.delete key
      · simp [hk, hd]
      · simp [hk, hd, Dict.get?_erase_of_ne _ hk]

theorem discard_objects (store : StateStore) (runId : String) (now : ℚ) (keys : List ObjectKey)
    (s : State B D) (k : ObjectKey) :
    (discard store runId f now keys s).objects.get? k =
      if k ∈ keys ∧ f.delete k = false then none else s.objects.get? k := by
  rw [← foldl_erase_get?]
  unfold discard
  split <;> rfl

variable {keys : List ObjectKey} {r : Reference D} {previous : Option (Reference D)}

theorem discard_objects_of_not_mem (h : k ∉ keys) :
    (discard store runId f now keys s).objects.get? k = s.objects.get? k := by
  rw [discard_objects, if_neg fun hk => h hk.1]

theorem discard_rows_of_not_mem (h : k ∉ keys) :
    (discard store runId f now keys s).retention.get? k = s.retention.get? k := by
  unfold discard
  split
  · rfl
  · have hm : ∀ row, marks store keys k row = false := fun row => by simp [marks, h]
    simp [markObjectsDeleted, deleteObjects, Dict.get?_mapVals, hm]

theorem discard_reference {row : RetentionRecord} (hk : k ∉ keys)
    (hr : s.retention.get? k = some row)
    (hlive : row.deletedAt = none) (hown : row.ownedBy runId = true) :
    (discard store runId f now keys s).reference = s.reference := by
  unfold discard
  split
  · rfl
  · have hm : marks store keys k row = false := by simp [marks, hk]
    have hleft : (s.retention.mapVals fun key row =>
        if marks store keys key row then { row with deletedAt := some now } else row).get? k =
          some row := by
      rw [Dict.get?_mapVals, hr]
      simp [hm]
    have hany : ((s.retention.mapVals fun key row =>
        if marks store keys key row then { row with deletedAt := some now } else row).values.any
          fun row => row.ownedBy runId && row.deletedAt.isNone) = true := by
      rw [List.any_eq_true]
      exact ⟨row, (Dict.mem_values _ _).2 ⟨k, hleft⟩, by simp [hown, hlive]⟩
    unfold markObjectsDeleted deleteObjects
    dsimp only
    rw [hany]
    simp

theorem discard_reference_sub
    (h : (discard store runId f now keys s).reference = some r) : s.reference = some r := by
  unfold discard at h
  split at h
  · exact h
  · unfold markObjectsDeleted at h
    dsimp only at h
    split at h
    · cases h
    · exact h

/-! ## The branches of a call -/

/-- The branches before the puts. -/
inductive Planned (v : Service E) (previous : Option (Reference D)) (call : Call U E) :
    Plan U E D → Prop where
  /-- A partial call behind a partial reference carries its manifest over. -/
  | carried (r : Reference D) (counts : List Nat) (hpart : call.isPartial = true)
      (hprev : previous = some r) (hstatus : r.indexStatus = .inPartial)
      (hcount : r.unitCount ≤ call.result.units.length)
      (hcounts : r.shardUnitCounts.length = r.shardKeys.length → counts = r.shardUnitCounts) :
      Planned v previous call
        { shardKeys := r.shardKeys, shardSha256 := r.shardSha256, shardUnitCounts := counts,
          inPartial := true, start := r.shardKeys.length,
          chunks := slices v.resultShardUnits (call.result.units.drop r.unitCount),
          index := { call.result with units := [] } }
  /-- Any other partial call starts over. -/
  | fresh (hpart : call.isPartial = true)
      (hprev : ∀ r, previous = some r → r.indexStatus = .ready) :
      Planned v previous call
        { shardKeys := [], shardSha256 := [], shardUnitCounts := [], inPartial := true, start := 0,
          chunks := slices v.resultShardUnits call.result.units,
          index := { call.result with units := [] } }
  /-- A final call of more units than a shard holds. -/
  | sharded (hpart : call.isPartial = false)
      (hlen : v.resultShardUnits < call.result.units.length) :
      Planned v previous call
        { shardKeys := [], shardSha256 := [], shardUnitCounts := [], inPartial := false, start := 0,
          chunks := slices v.resultShardUnits call.result.units,
          index := { call.result with units := [] } }
  /-- Any other final call. -/
  | inline (hpart : call.isPartial = false)
      (hlen : call.result.units.length ≤ v.resultShardUnits) :
      Planned v previous call
        { shardKeys := [], shardSha256 := [], shardUnitCounts := [], inPartial := false, start := 0,
          chunks := [], index := call.result }

theorem planned (h : plan v previous call = .ok p) : Planned v previous call p := by
  unfold plan at h
  by_cases hp : call.isPartial
  · rw [if_pos hp] at h
    cases previous with
    | none =>
      dsimp only at h
      injection h with h
      subst h
      exact .fresh hp nofun
    | some r =>
      by_cases hs : r.indexStatus = .inPartial
      · simp only [hs, if_true] at h
        split at h
        · cases h
        · injection h with h
          subst h
          refine .carried r _ hp rfl hs (by omega) fun hc => ?_
          rw [if_neg (by omega)]
      · have hready : r.indexStatus = .ready := by
          cases hr : r.indexStatus with
          | ready => rfl
          | inPartial => exact absurd hr hs
        simp only [hs, if_false] at h
        injection h with h
        subst h
        refine .fresh hp fun r' hr' => ?_
        cases hr'
        exact hready
  · rw [if_neg hp] at h
    have hp' : call.isPartial = false := by simpa using hp
    split at h
    · rename_i hlen
      injection h with h
      subst h
      exact .sharded hp' hlen
    · injection h with h
      subst h
      exact .inline hp' (by omega)

theorem planned_inPartial (h : Planned v previous call p) : p.inPartial = call.isPartial := by
  cases h with
  | carried _ _ hpart | fresh hpart | sharded hpart | inline hpart => exact hpart.symm

theorem exists_plan
    (hcount : ∀ q, call.isPartial = true → previous = some q → q.indexStatus = .inPartial →
      q.unitCount ≤ call.result.units.length) : ∃ p, plan v previous call = .ok p := by
  unfold plan
  by_cases hp : call.isPartial = true
  · rw [if_pos hp]
    cases hr : previous with
    | none =>
      dsimp only
      exact ⟨_, rfl⟩
    | some q =>
      by_cases hs : q.indexStatus = .inPartial
      · have := hcount q hp hr hs
        simp only [hs, if_true]
        rw [if_neg (by omega)]
        exact ⟨_, rfl⟩
      · simp only [hs, if_false]
        exact ⟨_, rfl⟩
  · rw [if_neg hp]
    split <;> exact ⟨_, rfl⟩

variable [DecidableEq D] {c : Codec U E B D} {r : Reference D}

/-- What the `try` body has done when it ends or raises. -/
def tried (c : Codec U E B D) (v : Service E) (s : State B D) (call : Call U E) : Attempt B D :=
  match plan v s.reference call with
  | .error _ => ⟨⟨[], [], []⟩, s, []⟩
  | .ok p => reached (perform c v s.reference call p ⟨p.toManifest, s, []⟩)

theorem storeResult_error {e : Error} (h : (storeResult c v s call).2 = .error e) :
    call.faults.getReference = true ∧ (storeResult c v s call).1 = s ∨
      call.faults.getReference = false ∧
        (storeResult c v s call).1 = discard v.store v.runId call.faults call.now
          (tried c v s call).writtenKeys (tried c v s call).state := by
  unfold storeResult at h ⊢
  by_cases hg : call.faults.getReference
  · exact .inl ⟨hg, by rw [if_pos hg]⟩
  · rw [if_neg hg] at h ⊢
    refine .inr ⟨by simpa using hg, ?_⟩
    unfold attempt at h ⊢
    unfold tried
    cases hp : plan v s.reference call with
    | error e => rfl
    | ok p =>
      simp only [hp] at h ⊢
      cases hb : perform c v s.reference call p ⟨p.toManifest, s, []⟩ with
      | error e => rfl
      | ok b =>
        by_cases hs : call.faults.save
        · simp [bind, Except.bind, hs]
        · rw [hb] at h
          simp [bind, Except.bind, hs] at h

theorem storeResult_ok (h : (storeResult c v s call).2 = .ok r) :
    ∃ p b, plan v s.reference call = .ok p ∧
      perform c v s.reference call p ⟨p.toManifest, s, []⟩ = .ok b ∧
      r = newReference c v call p.index (p.manifest c) ∧
      (storeResult c v s call).1 = discard v.store v.runId call.faults call.now
        (supersededKeys s.reference r) { b.state with reference := some r } := by
  unfold storeResult at h ⊢
  by_cases hg : call.faults.getReference
  · rw [if_pos hg] at h
    cases h
  · rw [if_neg hg] at h ⊢
    unfold attempt at h ⊢
    cases hp : plan v s.reference call with
    | error e =>
      rw [hp] at h
      cases h
    | ok p =>
      simp only [hp] at h ⊢
      cases hb : perform c v s.reference call p ⟨p.toManifest, s, []⟩ with
      | error e =>
        rw [hb] at h
        cases h
      | ok b =>
        have hm := (perform_ok hb).manifest
        rw [hb] at h
        by_cases hs : call.faults.save
        · simp [bind, Except.bind, hs] at h
        · simp only [bind, Except.bind, hs] at h ⊢
          injection h with h
          rw [hm] at h
          exact ⟨p, b, rfl, hb, h.symm, by rw [hm, h]; rfl⟩

theorem storeResult_ok_iff (hq : call.faults.Quiet) :
    (∃ r, (storeResult c v s call).2 = .ok r) ↔
      ∃ p, plan v s.reference call = .ok p ∧ Writable c v s s.reference call p := by
  constructor
  · rintro ⟨r, h⟩
    obtain ⟨p, b, hp, hb, -⟩ := storeResult_ok h
    exact ⟨p, hp, (perform_ok_iff hq).1 ⟨b, hb⟩⟩
  · rintro ⟨p, hp, hw⟩
    obtain ⟨b, hb⟩ := (perform_ok_iff hq).2 hw
    refine ⟨newReference c v call p.index b.toManifest, ?_⟩
    unfold storeResult attempt
    simp [hq.getReference, hp, hb, hq.save, bind, Except.bind]

/-! ## The invariant of the reference -/

/-- The shards of a reference as `_store_result` numbers them. -/
structure Reference.Named (r : Reference D) : Prop where
  index_lt : ∀ k ∈ r.shardKeys, k.index < r.shardKeys.length
  ready : r.indexStatus = .ready → ∀ k ∈ r.shardKeys, k.isPartial = false
  first : ∀ k ∈ r.shardKeys, k.isPartial = false → ⟨false, 0⟩ ∈ r.shardKeys

/-- The row of the index document is the run's and live. -/
def Anchored (v : Service E) (s : State B D) (r : Reference D) : Prop :=
  ∃ key row, r.objectKey = some key ∧ s.retention.get? (.result key) = some row ∧
    row.deletedAt = none ∧ row.ownedBy v.runId = true

/-- The invariant of a run's part of the stores. -/
def Sound (v : Service E) (s : State B D) : Prop :=
  ∀ r, s.reference = some r → r.Named ∧ Anchored v s r

omit [DecidableEq D] in
theorem sound_empty : Sound v (State.empty : State B D) := nofun

omit [DecidableEq D] in
theorem resultRecord_owned : (resultRecord v).ownedBy v.runId = true := by
  simp [resultRecord, RetentionRecord.ownedBy]

omit [DecidableEq D] in
theorem named_newReference
    (hp : Planned v previous call p) (hprev : ∀ r, previous = some r → r.Named) :
    (newReference c v call p.index (p.manifest c)).Named := by
  have hkeys : (newReference c v call p.index (p.manifest c)).shardKeys =
    p.shardKeys ++ p.newKeys := rfl
  have hnew : ∀ k ∈ p.newKeys, k.isPartial = p.inPartial ∧ p.start ≤ k.index ∧
      k.index < p.start + p.newKeys.length := by
    intro k hk
    have := mem_keysFrom.1 hk
    simpa [Plan.newKeys, keysFrom] using this
  cases hp with
  | carried r _ hpart hr =>
    have hn := hprev r hr
    refine ⟨?_, ?_, ?_⟩
    · intro k hk
      rw [hkeys, List.length_append]
      rcases List.mem_append.1 (hkeys ▸ hk) with hk | hk
      · exact Nat.lt_of_lt_of_le (hn.index_lt k hk) (Nat.le_add_right _ _)
      · exact (hnew k hk).2.2
    · intro hready
      simp [newReference, hpart] at hready
    · intro k hk hfinal
      rcases List.mem_append.1 (hkeys ▸ hk) with hk | hk
      · exact List.mem_append_left _ (hn.first k hk hfinal)
      · exact absurd ((hnew k hk).1.symm.trans hfinal) (by simp)
  | fresh hpart hready =>
    refine ⟨?_, ?_, ?_⟩
    · intro k hk
      simpa [hkeys] using (hnew k (by simpa [hkeys] using hk)).2.2
    · intro hready
      simp [newReference, hpart] at hready
    · intro k hk hfinal
      have := (hnew k (by simpa [hkeys] using hk)).1
      exact absurd (this.symm.trans hfinal) (by simp)
  | sharded =>
    refine ⟨?_, ?_, ?_⟩
    · intro k hk
      simpa [hkeys] using (hnew k (by simpa [hkeys] using hk)).2.2
    · intro _ k hk
      exact (hnew k (by simpa [hkeys] using hk)).1
    · intro k hk _
      have hk' := mem_keysFrom.1 (show k ∈ Plan.newKeys _ by simpa [hkeys] using hk)
      exact mem_keysFrom.2 ⟨rfl, Nat.le_refl _, by dsimp only at hk' ⊢; omega⟩
  | inline =>
    have hnil : (newReference c v call call.result (Plan.manifest c
        { shardKeys := [], shardSha256 := [], shardUnitCounts := [], inPartial := false, start := 0,
          chunks := [], index := call.result })).shardKeys = [] := rfl
    refine ⟨?_, ?_, ?_⟩ <;> rw [hnil] <;> simp

omit [DecidableEq D] in
theorem newReference_not_superseded {index : Envelope U E}
    {m : Manifest D} :
    .result (resultKey call) ∉ supersededKeys previous (newReference c v call index m) := by
  unfold supersededKeys
  cases previous with
  | none => simp
  | some r =>
    dsimp only
    split_ifs with h
    · simp only [List.mem_append, List.mem_map, not_or]
      refine ⟨?_, by simp⟩
      rintro ⟨k, hk, he⟩
      rw [Option.mem_toList] at hk
      injection he with he
      subst he
      exact h hk
    · simp

omit [DecidableEq D] in
theorem anchored_perform {b : Attempt B D}
    (hs : Sound v s) (h : Performed c v s.reference call p s b) :
    ∃ row, b.state.retention.get? (.result (resultKey call)) = some row ∧
      row.deletedAt = none ∧ row.ownedBy v.runId = true := by
  by_cases ho : OwnsIndex s.reference call = true
  · refine ⟨resultRecord v, h.rows _ ?_, rfl, resultRecord_owned⟩
    simp [Plan.written, ho]
  · -- the previous reference has the document, so its row is the one
    have : ∃ r, s.reference = some r ∧ r.objectKey = some (resultKey call) := by
      cases hr : s.reference with
      | none => simp [OwnsIndex, hr] at ho
      | some r => exact ⟨r, rfl, by simpa [OwnsIndex, hr] using ho⟩
    obtain ⟨r, hr, hkey⟩ := this
    obtain ⟨_, row, hkey', hrow, hlive, hown⟩ := (hs r hr).2
    rw [hkey] at hkey'
    injection hkey' with hkey'
    subst hkey'
    exact ⟨row, h.grows.rows hrow, hlive, hown⟩

theorem index_not_written {key : ResultKey} (hr : s.reference = some r)
    (hkey : r.objectKey = some key) : .result key ∉ (tried c v s call).writtenKeys := by
  unfold tried
  cases hp : plan v s.reference call with
  | error e => simp
  | ok p =>
    intro hk
    rcases (reaches_perform s).writes _ hk with hk | ⟨i, -, hk⟩ | ⟨hk, ho⟩
    · cases hk
    · cases hk
    · injection hk with hk
      subst hk
      simp [OwnsIndex, hr, hkey] at ho

theorem grows_tried : Grows (fun _ => True) s (tried c v s call).state := by
  unfold tried
  cases hp : plan v s.reference call with
  | error e => exact .refl _ s
  | ok p =>
    exact (reaches_perform s).grows.mono fun _ _ => trivial

theorem reference_of_error (hs : Sound v s) (hr : s.reference = some r)
    {e : Error} (h : (storeResult c v s call).2 = .error e) :
    (storeResult c v s call).1.reference = some r := by
  obtain ⟨-, _, _, hkey, hrow, hlive, hown⟩ := hs r hr
  rcases storeResult_error h with ⟨-, he⟩ | ⟨-, he⟩
  · rw [he, hr]
  · rw [he, discard_reference (index_not_written hr hkey) (grows_tried.rows hrow) hlive hown,
      grows_tried.reference, hr]

theorem sound_storeResult (hs : Sound v s) : Sound v (storeResult c v s call).1 := by
  intro r hr
  cases h : (storeResult c v s call).2 with
  | error e =>
    have hr' : s.reference = some r := by
      rcases storeResult_error h with ⟨-, he⟩ | ⟨-, he⟩
      · rwa [he] at hr
      · rw [he] at hr
        rw [← grows_tried.reference, discard_reference_sub hr]
    obtain ⟨hn, key, row, hkey, hrow, hlive, hown⟩ := hs r hr'
    refine ⟨hn, key, row, hkey, ?_, hlive, hown⟩
    rcases storeResult_error h with ⟨-, he⟩ | ⟨-, he⟩
    · rwa [he]
    · rw [he, discard_rows_of_not_mem (index_not_written hr' hkey)]
      exact grows_tried.rows hrow
  | ok =>
    obtain ⟨p, b, hp, hb, hr', he⟩ := storeResult_ok h
    rw [he] at hr
    have hsaved := discard_reference_sub hr
    injection hsaved with hsaved
    subst hsaved
    obtain ⟨row, hrow, hlive, hown⟩ := anchored_perform hs (perform_ok hb)
    refine ⟨hr' ▸ named_newReference (planned hp) fun q hq => (hs q hq).1, ?_⟩
    refine ⟨resultKey call, row, by rw [hr']; rfl, ?_, hlive, hown⟩
    rw [he, discard_rows_of_not_mem]
    · exact hrow
    · rw [hr']
      exact newReference_not_superseded

/-- **The reference is not lost**, whatever fails: its shards are numbered, its row is live, and a
call that raises leaves it. -/
theorem reference_stays (c : Codec U E B D) (v : Service E) (calls : List (Call U E)) :
    let s := calls.foldl (fun s call => (storeResult c v s call).1) .empty
    Sound v s ∧ ∀ call e r, (storeResult c v s call).2 = .error e → s.reference = some r →
      (storeResult c v s call).1.reference = some r := by
  intro s
  have hs : Sound v s := List.foldlRecOn calls _ sound_empty fun _ h _ _ => sound_storeResult h
  exact ⟨hs, fun _ _ _ he hr => reference_of_error hs hr he⟩

/-! ## The keys of the new reference -/

omit [DecidableEq D] in
theorem shard_not_superseded {k : ShardKey}
    (hk : k ∈ r.shardKeys) : .shard k ∉ supersededKeys previous r := by
  unfold supersededKeys
  cases previous with
  | none => simp
  | some q =>
    dsimp only
    split_ifs
    · simp [hk]
    · simp

omit [DecidableEq D] in
theorem discard_nil_reference : (discard store runId f now [] s).reference = s.reference := by
  unfold discard
  split
  · rfl
  · have hnone : (s.retention.entries.any fun e => marks store [] e.1 e.2 && e.2.ownedBy runId) =
        false := by
      simp [marks]
    unfold markObjectsDeleted deleteObjects
    dsimp only [List.foldl_nil]
    rw [hnone]
    rfl

theorem storeResult_saved (h : (storeResult c v s call).2 = .ok r) :
    ∃ p b, plan v s.reference call = .ok p ∧ Performed c v s.reference call p s b ∧
      r = newReference c v call p.index (p.manifest c) ∧
      (storeResult c v s call).1.reference = some r ∧
      ∀ k ∈ r.keys, (storeResult c v s call).1.objects.get? k = b.state.objects.get? k ∧
        (storeResult c v s call).1.retention.get? k = b.state.retention.get? k := by
  obtain ⟨p, b, hp, hb, hr, he⟩ := storeResult_ok h
  have hkeys : ∀ k ∈ r.keys, k ∉ supersededKeys s.reference r := by
    intro k hk
    rcases List.mem_append.1 hk with hk | hk
    · obtain ⟨key, hkey, rfl⟩ := List.mem_map.1 hk
      rw [Option.mem_toList, hr] at hkey
      injection hkey with hkey
      subst hkey
      rw [hr]
      exact newReference_not_superseded
    · obtain ⟨_, hkey, rfl⟩ := List.mem_map.1 hk
      exact shard_not_superseded hkey
  refine ⟨p, b, hp, perform_ok hb, hr, ?_, ?_⟩
  · rw [he]
    by_cases ho : OwnsIndex s.reference call = true
    · -- the row of the new index document is live
      have hkey : ObjectKey.result (resultKey call) ∉ supersededKeys s.reference r := by
        rw [hr]
        exact newReference_not_superseded
      have hrow : b.state.retention.get? (.result (resultKey call)) = some (resultRecord v) :=
        (perform_ok hb).rows _ (by simp [Plan.written, ho])
      exact discard_reference hkey hrow rfl resultRecord_owned
    · -- the previous reference has the document, and nothing is superseded
      have hnil : supersededKeys s.reference r = [] := by
        cases hprevious : s.reference with
        | none => rfl
        | some q =>
          have hq : q.objectKey = some (resultKey call) := by simpa [OwnsIndex, hprevious] using ho
          have hkey : q.objectKey = r.objectKey := by rw [hq, hr]; rfl
          simp [supersededKeys, hkey]
      rw [hnil]
      exact discard_nil_reference
  · intro k hk
    rw [he]
    exact ⟨discard_objects_of_not_mem (hkeys k hk), discard_rows_of_not_mem (hkeys k hk)⟩

/-- No row tracks the key. -/
def Untracked (s : State B D) (k : ObjectKey) : Prop := s.retention.get? k = none

/-- Nor is anything stored under it. -/
def Unused (s : State B D) (k : ObjectKey) : Prop := s.objects.get? k = none ∧ Untracked s k

theorem untracked_storeResult (h : Untracked s k)
    (hk : ∀ p, plan v s.reference call = .ok p → ¬p.Touches v call k)
    (hok : (storeResult c v s call).2 = .ok r) : Untracked (storeResult c v s call).1 k := by
  obtain ⟨p, b, hp, hb, -, he⟩ := storeResult_ok hok
  have hrow := ((perform_ok hb).grows.otherRows (hk p hp)).trans h
  unfold Untracked
  rw [he]
  unfold discard
  split
  · exact hrow
  · simp [markObjectsDeleted, deleteObjects, Dict.get?_mapVals, hrow]

theorem unused_storeResult (h : Unused s k)
    (hk : ∀ p, plan v s.reference call = .ok p → ¬p.Touches v call k)
    (hok : (storeResult c v s call).2 = .ok r) : Unused (storeResult c v s call).1 k := by
  refine ⟨?_, untracked_storeResult h.2 hk hok⟩
  obtain ⟨p, b, hp, hb, -, he⟩ := storeResult_ok hok
  rw [he, discard_objects, ((perform_ok hb).grows.otherObjects (hk p hp)).trans h.1]
  simp

end Scenara.Result
