import Scenara.Result.Sound

/-!
# What a failed result store does to the published result

The handler of `_store_result` deletes every key in `written_keys`. The index document of the
previous reference is kept out of that list, its shards are not: a final call puts its shards under
the fixed keys `units-000000.json`, …, and `put` accepts an existing object with the same bytes.
-/

namespace Scenara.Result

open Scenara.Core

variable {U E B D : Type} [DecidableEq D] {c : Codec U E B D} {v : Service E} {s s' : State B D}
  {call : Call U E} {r : Reference D}

/-- Something with the checksum is there. -/
def Present (c : Codec U E B D) (s : State B D) (key : ObjectKey) (sha256 : D) : Prop :=
  ∃ document, s.objects.get? key = some document ∧ c.sha256 document = sha256

/-- Every key of the reference is there with its recorded checksum. -/
structure Intact (c : Codec U E B D) (s : State B D) (r : Reference D) : Prop where
  index : ∀ key, r.objectKey = some key → Present c s (.result key) r.sha256
  shards : List.Forall₂ (fun k sha256 => Present c s (.shard k) sha256) r.shardKeys r.shardSha256

omit [DecidableEq D] in
theorem Intact.of_same (h : Intact c s r) (hindex : ∀ key, r.objectKey = some key →
      ∀ d, s.objects.get? (.result key) = some d → s'.objects.get? (.result key) = some d)
    (hshards : ∀ k ∈ r.shardKeys,
      ∀ d, s.objects.get? (.shard k) = some d → s'.objects.get? (.shard k) = some d) :
    Intact c s' r := by
  refine ⟨?_, ?_⟩
  · intro key hkey
    obtain ⟨d, hd, hsha⟩ := h.index key hkey
    exact ⟨d, hindex key hkey d hd, hsha⟩
  · have hf := h.shards
    rw [List.forall₂_iff_zip] at hf ⊢
    refine ⟨hf.1, fun {k sha256} hm => ?_⟩
    obtain ⟨d, hd, hsha⟩ := hf.2 hm
    exact ⟨d, hshards k (List.of_mem_zip hm).1 d hd, hsha⟩

omit [DecidableEq D] in
theorem Intact.ne_none (h : Intact c s r) {k : ShardKey} (hk : k ∈ r.shardKeys) :
    s.objects.get? (.shard k) ≠ none := by
  obtain ⟨i, hi, rfl⟩ := List.getElem_of_mem hk
  have hlen := h.shards.length_eq
  obtain ⟨d, hd, -⟩ := (List.forall₂_iff_get.1 h.shards).2 i hi (by omega)
  rw [List.get_eq_getElem] at hd
  simp [hd]

/-! ## The calls that take over a published shard -/

/-- The call puts its first shard over one that the reference has: it is final, it is sharded, the
reference has the first final shard, and `put` accepts the first slice of the units there. -/
def TakesOver (c : Codec U E B D) (v : Service E) (s : State B D) (r : Reference D)
    (call : Call U E) : Prop :=
  call.isPartial = false ∧ v.resultShardUnits < call.result.units.length ∧
    ⟨false, 0⟩ ∈ r.shardKeys ∧ call.faults.getReference = false ∧
    call.faults.put (.shard ⟨false, 0⟩) = false ∧
    Accepts c s.objects (.shard ⟨false, 0⟩)
      (c.dumpUnits (call.result.units.take v.resultShardUnits))

omit [DecidableEq D] in
theorem slices_eq_cons (v : Service E) {us : List U} (h : v.resultShardUnits < us.length) :
    ∃ rest, slices v.resultShardUnits us = us.take v.resultShardUnits :: rest := by
  have hpos := v.shardUnits_pos
  obtain ⟨n, hn⟩ : ∃ n, (us.length + v.resultShardUnits - 1) / v.resultShardUnits = n + 1 := by
    have : 0 < (us.length + v.resultShardUnits - 1) / v.resultShardUnits :=
      Nat.div_pos (by omega) hpos
    exact ⟨(us.length + v.resultShardUnits - 1) / v.resultShardUnits - 1, by omega⟩
  unfold slices
  rw [hn, List.range_succ_eq_map, List.map_cons]
  exact ⟨_, by simp [slice]; rfl⟩

theorem shard_not_written (hs : Sound v s) (hr : s.reference = some r)
    (hg : call.faults.getReference = false) (ht : ¬TakesOver c v s r call) {k : ShardKey}
    (hk : k ∈ r.shardKeys) : .shard k ∉ (tried c v s call).writtenKeys := by
  intro hw
  obtain ⟨hn, -⟩ := hs r hr
  unfold tried at hw
  cases hp : plan v s.reference call with
  | error e =>
    simp [hp] at hw
  | ok p =>
    rw [hp] at hw
    have hnew : k ∈ p.newKeys := by
      rcases (reaches_perform s).writes _ hw with hw | ⟨_, hkey, he⟩ | ⟨hw, -⟩
      · cases hw
      · injection he with he
        exact he ▸ hkey
      · cases hw
    obtain ⟨hbase, hstart, -⟩ := mem_keysFrom.1 hnew
    cases planned hp with
    | carried _ _ _ hr' =>
      rw [hr] at hr'
      injection hr' with hr'
      subst hr'
      have := hn.index_lt k hk
      dsimp only at hstart
      omega
    | fresh _ hready =>
      simp [hn.ready (hready r hr) k hk] at hbase
    | sharded hpart hlen =>
      obtain ⟨rest, hslices⟩ := slices_eq_cons v hlen
      simp only [hslices, perform] at hw
      rcases putShards_first (call.result.units.take v.resultShardUnits) rest false 0
        ⟨⟨[], [], []⟩, s, []⟩ with ⟨hf, hacc, -⟩ | ⟨-, e, he⟩
      · exact ht ⟨hpart, hlen, hn.first k hk hbase, hg, hf, hacc⟩
      · rw [he] at hw
        cases hw
    | inline => cases hnew

/-- **A failed store leaves the published result exactly when it does not take over a shard.** Any
call, any call of a backend failing at any point; the handler's own deletions succeed. -/
theorem raised_intact_iff (hs : Sound v s) (hr : s.reference = some r) (hi : Intact c s r)
    (hdelete : ∀ k, call.faults.delete k = false) {e : Error}
    (hraise : (storeResult c v s call).2 = .error e) :
    ((storeResult c v s call).1.reference = some r ∧ Intact c (storeResult c v s call).1 r) ↔
      ¬TakesOver c v s r call := by
  constructor
  · rintro ⟨-, hafter⟩ ⟨hpart, hlen, hmem, hg, hput, hacc⟩
    refine hafter.ne_none hmem ?_
    rcases storeResult_error hraise with ⟨hg', -⟩ | ⟨-, he⟩
    · rw [hg] at hg'
      cases hg'
    rw [he, discard_objects, if_pos]
    refine ⟨?_, hdelete _⟩
    obtain ⟨rest, hslices⟩ := slices_eq_cons v hlen
    have hp : plan v s.reference call = .ok
        { shardKeys := [], shardSha256 := [], shardUnitCounts := [], inPartial := false, start := 0,
          chunks := slices v.resultShardUnits call.result.units,
          index := { call.result with units := [] } } := by
      simp [plan, hpart, hlen]
    unfold tried
    rw [hp]
    refine mem_written_perform ?_
    rw [hslices]
    rcases putShards_first (call.result.units.take v.resultShardUnits) rest false 0
      ⟨⟨[], [], []⟩, s, []⟩ with ⟨-, -, hk⟩ | ⟨hno, -⟩
    · exact hk
    · exact absurd ⟨hput, hacc⟩ hno
  · intro ht
    refine ⟨reference_of_error hs hr hraise, ?_⟩
    rcases storeResult_error hraise with ⟨-, he⟩ | ⟨hg, he⟩
    · rwa [he]
    · refine hi.of_same ?_ ?_
      · intro _ hkey d hd
        rw [he, discard_objects_of_not_mem (index_not_written hr hkey)]
        exact grows_tried.objects hd
      · intro k hk d hd
        rw [he, discard_objects_of_not_mem (shard_not_written hs hr hg ht hk)]
        exact grows_tried.objects hd

/-! ## A failed partial call, and a redelivered run -/

/-- A run with a published partial result of one unit. -/
def partialState : State Document Document :=
  (storeResult plainCodec (smallService .memory) State.empty
    (smallCall [1] 0 true "a" .none)).1

/-- The reference of that result. -/
def partialReference : Reference Document where
  shardKeys := [⟨true, 0⟩]
  shardSha256 := [.units [1]]
  shardUnitCounts := [1]
  objectKey := some (.inPartial 1 "a")
  sha256 := .envelope ⟨[], 0⟩
  unitCount := 1
  indexStatus := .inPartial

/-- The next partial call, whose `save_result_reference` fails. -/
def unsavedCall : Call Nat Nat := smallCall [1, 2] 1 true "b" { Faults.none with save := true }

theorem unsaved_partial_intact :
    (storeResult plainCodec (smallService .memory) partialState unsavedCall).1.reference =
        some partialReference ∧
      Intact plainCodec (storeResult plainCodec (smallService .memory) partialState unsavedCall).1
        partialReference := by
  refine (raised_intact_iff (e := .backend) (sound_storeResult sound_empty) (by decide) ?_
    (fun _ => rfl) (by decide)).2 fun h => by cases h.1
  exact ⟨fun key hkey => ⟨.envelope ⟨[], 0⟩, by cases hkey; decide, rfl⟩,
    .cons ⟨.units [1], by decide, rfl⟩ .nil⟩

/-- A run with a published final result of two units. -/
def finalState : State Document Document :=
  (storeResult plainCodec (smallService .memory) State.empty
    (smallCall [1, 2] 0 false "a" .none)).1

/-- The reference of that result. -/
def finalReference : Reference Document where
  shardKeys := [⟨false, 0⟩, ⟨false, 1⟩]
  shardSha256 := [.units [1], .units [2]]
  shardUnitCounts := [1, 1]
  objectKey := some .final
  sha256 := .envelope ⟨[], 0⟩
  unitCount := 2
  indexStatus := .ready

/-- The redelivered run stores the same units; its timings are others. -/
def redelivered : Call Nat Nat := smallCall [1, 2] 1 false "b" .none

/-- **A redelivered run destroys the published result**: `result.json` differs, `put` raises, and
the handler deletes the shards it had "written". -/
theorem redelivered_store_destroys :
    finalState.reference = some finalReference ∧ Intact plainCodec finalState finalReference ∧
      (storeResult plainCodec (smallService .memory) finalState redelivered).2 =
        .error (.objectAlreadyExists (.result .final)) ∧
      ¬Intact plainCodec (storeResult plainCodec (smallService .memory) finalState redelivered).1
        finalReference := by
  refine ⟨by decide, ?_, by decide, fun h => h.ne_none (k := ⟨false, 0⟩) (by decide) (by decide)⟩
  exact ⟨fun key hkey => ⟨.envelope ⟨[], 0⟩, by cases hkey; decide, rfl⟩,
    .cons ⟨.units [1], by decide, rfl⟩ (.cons ⟨.units [2], by decide, rfl⟩ .nil)⟩

end Scenara.Result
