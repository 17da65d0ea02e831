import Scenara.Result.Sound

/-!
# Reading a stored result

`Laid c s r parts index` says how a reference holds a result: `parts` are the units of its shards,
`index` is its index document, and at most one of the two holds units. The result it stands for is
`units parts index`.
-/

namespace Scenara.Result

open Scenara.Core

variable {U E B D : Type} {c : Codec U E B D} {v : Service E} {s s' : State B D}
  {call : Call U E} {r : Reference D} {parts : List (List U)} {index : Envelope U E}

/-- The manifest lists the parts, and they are there. -/
structure Manifest.Holds (c : Codec U E B D) (s : State B D) (m : Manifest D)
    (parts : List (List U)) : Prop where
  sha256 : m.shardSha256 = parts.map fun us => c.sha256 (c.dumpUnits us)
  counts : m.shardUnitCounts = parts.map List.length
  shards : List.Forall₂ (fun k us => s.objects.get? (.shard k) = some (c.dumpUnits us))
    m.shardKeys parts

/-- The units of the parts and of the index document. -/
def units (parts : List (List U)) (index : Envelope U E) : List U := parts.flatten ++ index.units

/-- The reference holds a result: its parts and its index document. -/
structure Laid (c : Codec U E B D) (s : State B D) (r : Reference D) (parts : List (List U))
    (index : Envelope U E) : Prop where
  manifest : r.toManifest.Holds c s parts
  document : ∃ key, r.objectKey = some key ∧
    s.objects.get? (.result key) = some (c.dumpEnvelope index)
  sha256 : r.sha256 = c.sha256 (c.dumpEnvelope index)
  count : r.unitCount = (units parts index).length
  split : parts = [] ∨ index.units = []

theorem Manifest.Holds.length {m : Manifest D} (h : m.Holds c s parts) :
    m.shardKeys.length = parts.length := h.shards.length_eq

theorem Manifest.Holds.of_same {m : Manifest D} (h : m.Holds c s parts)
    (hsame : ∀ k ∈ m.shardKeys, ∀ d, s.objects.get? (.shard k) = some d →
      s'.objects.get? (.shard k) = some d) : m.Holds c s' parts := by
  refine ⟨h.sha256, h.counts, ?_⟩
  have hf := h.shards
  rw [List.forall₂_iff_zip] at hf ⊢
  exact ⟨hf.1, fun {k us} hm => hsame k (List.of_mem_zip hm).1 _ (hf.2 hm)⟩

theorem Manifest.Holds.append {m m' : Manifest D} {parts' : List (List U)} (h : m.Holds c s parts)
    (h' : m'.Holds c s parts') :
    Manifest.Holds c s ⟨m.shardKeys ++ m'.shardKeys, m.shardSha256 ++ m'.shardSha256,
      m.shardUnitCounts ++ m'.shardUnitCounts⟩ (parts ++ parts') := by
  refine ⟨?_, ?_, List.rel_append h.shards h'.shards⟩
  · simp [h.sha256, h'.sha256]
  · simp [h.counts, h'.counts]

theorem Laid.of_same (h : Laid c s r parts index)
    (hindex : ∀ key, r.objectKey = some key → ∀ d, s.objects.get? (.result key) = some d →
      s'.objects.get? (.result key) = some d)
    (hshards : ∀ k ∈ r.shardKeys, ∀ d, s.objects.get? (.shard k) = some d →
      s'.objects.get? (.shard k) = some d) : Laid c s' r parts index := by
  obtain ⟨key, hkey, hdoc⟩ := h.document
  exact ⟨h.manifest.of_same hshards, ⟨key, hkey, hindex key hkey _ hdoc⟩, h.sha256, h.count,
    h.split⟩

variable [DecidableEq D]

/-! ## `result` -/

theorem get_ok {key : ObjectKey} {document : B} (h : s.objects.get? key = some document) :
    get c s key (c.sha256 document) = .ok document := by
  simp [get, h]

theorem resultIndex_ok (hr : s.reference = some r) (h : Laid c s r parts index) :
    resultIndex c v s = .ok (index, r) := by
  obtain ⟨_, hkey, hdoc⟩ := h.document
  unfold resultIndex
  simp [hr, hkey, h.sha256, get_ok hdoc, c.load_dumpEnvelope, bind, Except.bind]

theorem loadShard_ok {k : ShardKey} {us : List U}
    (h : s.objects.get? (.shard k) = some (c.dumpUnits us)) :
    loadShard c s (k, c.sha256 (c.dumpUnits us)) = .ok us := by
  unfold loadShard
  simp [get_ok h, c.load_dumpUnits, bind, Except.bind]

theorem mapM_loadShard {keys : List ShardKey} {parts : List (List U)}
    (h : List.Forall₂ (fun k us => s.objects.get? (.shard k) = some (c.dumpUnits us)) keys parts) :
    (keys.zip (parts.map fun us => c.sha256 (c.dumpUnits us))).mapM (loadShard c s) =
      .ok parts := by
  induction h with
  | nil => rfl
  | cons hk _ ih =>
    rw [List.map_cons, List.zip_cons_cons, List.mapM_cons, loadShard_ok hk, ih]
    rfl

theorem Laid.result (hr : s.reference = some r) (h : Laid c s r parts index) :
    result c v s = .ok { index with units := units parts index } := by
  have hlen := h.manifest.length
  unfold Scenara.Result.result
  rw [resultIndex_ok hr h]
  simp only [bind, Except.bind]
  by_cases hk : r.shardKeys = []
  · have hp : parts = [] := by
      rw [hk] at hlen
      exact List.length_eq_zero_iff.1 hlen.symm
    rw [if_pos hk]
    simp [units, hp]
  · have hidx : index.units = [] := by
      refine h.split.resolve_left fun hp => hk ?_
      rw [hp] at hlen
      exact List.length_eq_zero_iff.1 hlen
    rw [if_neg hk, if_neg (by simp [h.manifest.sha256, hlen]), h.manifest.sha256,
      mapM_loadShard h.manifest.shards]
    dsimp only
    rw [if_neg]
    · simp [units, hidx]
    · simp [h.count, units, hidx]

theorem mapM_loadSelected {keys : List ShardKey} {parts : List (List U)}
    (h : List.Forall₂ (fun k us => s.objects.get? (.shard k) = some (c.dumpUnits us)) keys parts)
    (unitOffset pageEnd cursor : Nat) :
    ∃ pages, (selectShards unitOffset pageEnd cursor
        (keys.zip ((parts.map fun us => c.sha256 (c.dumpUnits us)).zip
          (parts.map List.length)))).mapM (loadSelected c s unitOffset pageEnd) = .ok pages ∧
      pages.flatten = overlaps unitOffset pageEnd cursor parts := by
  induction h generalizing cursor with
  | nil => exact ⟨[], rfl, rfl⟩
  | @cons k us _ _ hk _ ih =>
    obtain ⟨pages, hpages, hflat⟩ := ih (cursor + us.length)
    rw [List.map_cons, List.map_cons, List.zip_cons_cons, List.zip_cons_cons]
    unfold selectShards overlaps
    by_cases hsel : cursor < pageEnd ∧ cursor + us.length > unitOffset
    · have hload : loadSelected c s unitOffset pageEnd
          ⟨k, c.sha256 (c.dumpUnits us), cursor, cursor + us.length⟩ =
            .ok (slice (unitOffset - cursor) (min (cursor + us.length) pageEnd - cursor) us) := by
        unfold loadSelected
        simp [loadShard_ok hk, bind, Except.bind]
      refine ⟨slice (unitOffset - cursor) (min (cursor + us.length) pageEnd - cursor) us :: pages,
        ?_, ?_⟩
      · rw [if_pos hsel, List.mapM_cons, hload, hpages]
        rfl
      · rw [List.flatten_cons, hflat, if_pos hsel]
    · refine ⟨pages, ?_, ?_⟩
      · rwa [if_neg hsel]
      · rw [hflat, if_neg hsel, List.nil_append]

theorem Laid.resultPage (hr : s.reference = some r) (h : Laid c s r parts index)
    (unitOffset unitLimit : Nat) :
    resultPage c v s unitOffset unitLimit = .ok
      { result := { index with
          units := slice unitOffset (unitOffset + unitLimit) (units parts index) }
        unitOffset := unitOffset
        unitLimit := unitLimit
        unitTotal := (units parts index).length } := by
  have hlen := h.manifest.length
  unfold Scenara.Result.resultPage
  rw [resultIndex_ok hr h]
  simp only [bind, Except.bind, h.count]
  by_cases hoff : unitOffset ≥ (units parts index).length
  · rw [if_pos hoff, slice_of_length_le _ hoff]
  rw [if_neg hoff]
  by_cases hk : r.shardKeys = []
  · have hp : parts = [] := by
      rw [hk] at hlen
      exact List.length_eq_zero_iff.1 hlen.symm
    have hunits : units parts index = index.units := by simp [units, hp]
    rw [if_pos hk, hunits, slice_min_length]
  · have hidx : index.units = [] := by
      refine h.split.resolve_left fun hp => hk ?_
      rw [hp] at hlen
      exact List.length_eq_zero_iff.1 hlen
    have hunits : units parts index = parts.flatten := by simp [units, hidx]
    obtain ⟨_, hpages, hflat⟩ := mapM_loadSelected h.manifest.shards unitOffset
      (min (units parts index).length (unitOffset + unitLimit)) 0
    rw [if_neg hk, if_neg (by simp [h.manifest.sha256, hlen]),
      if_neg (by simp [h.manifest.counts, hlen]), h.manifest.sha256, h.manifest.counts, hpages]
    dsimp only
    rw [hflat, overlaps_eq, Nat.sub_zero, Nat.sub_zero, hunits, slice_min_length]

/-! ## What a call lays out -/

/-- The call carries over the manifest of `q`. -/
def Carries (s : State B D) (call : Call U E) (q : Reference D) : Prop :=
  call.isPartial = true ∧ s.reference = some q ∧ q.indexStatus = .inPartial

/-- `carried` are the parts of the manifest the call carries over; there are none if it carries
over no manifest. -/
def Behind (c : Codec U E B D) (s : State B D) (call : Call U E) (carried : List (List U)) : Prop :=
  (∃ q index, Carries s call q ∧ Laid c s q carried index ∧ index.units = []) ∨
    (∀ q, ¬Carries s call q) ∧ carried = []

omit [DecidableEq D] in
theorem planned_behind {p : Plan U E D} {carried : List (List U)}
    (hp : Planned v s.reference call p) (hb : Behind c s call carried) :
    p.toManifest.Holds c s carried ∧
      call.result.units.length = (units (carried ++ p.chunks) p.index).length ∧
      (carried.flatten <+: call.result.units →
        units (carried ++ p.chunks) p.index = call.result.units) ∧
      (carried ++ p.chunks = [] ∨ p.index.units = []) ∧
      (call.isPartial = true → p.index.units = []) ∧ p.index.rest = call.result.rest := by
  have hnil : Manifest.Holds c s ⟨[], [], []⟩ [] := ⟨rfl, rfl, .nil⟩
  have hflat := fun us : List U => flatten_slices v.shardUnits_pos us
  cases hp with
  | carried q counts hpart hprev hstatus _ hcounts =>
    rcases hb with ⟨_, _, ⟨-, hq', -⟩, hlaid, hindex⟩ | ⟨hno, -⟩
    · rw [hprev] at hq'
      injection hq' with hq'
      subst hq'
      have hm := hlaid.manifest
      have hlen : q.shardUnitCounts.length = q.shardKeys.length := by
        rw [hm.counts, List.length_map, hm.length]
      have htotal : q.unitCount = carried.flatten.length := by
        rw [hlaid.count, units, hindex, List.append_nil]
      rw [hcounts hlen]
      refine ⟨hm, ?_, ?_, .inr rfl, fun _ => rfl, rfl⟩
      · simp only [units, List.flatten_append, hflat, List.append_nil, List.length_append,
          List.length_drop]
        omega
      · rintro ⟨_, hrest⟩
        simp only [units, List.flatten_append, hflat, List.append_nil]
        rw [htotal, ← hrest, List.drop_left]
    · exact absurd ⟨hpart, hprev, hstatus⟩ (hno q)
  | fresh _ hready =>
    have hc : carried = [] := by
      rcases hb with ⟨q, _, ⟨-, hq, hs⟩, -⟩ | ⟨-, hc⟩
      · simp [hready q hq] at hs
      · exact hc
    subst hc
    exact ⟨hnil, by simp [units, hflat], fun _ => by simp [units, hflat], .inr rfl, fun _ => rfl,
      rfl⟩
  | sharded hpart =>
    have hc : carried = [] := by
      rcases hb with ⟨q, _, ⟨hq, -⟩, -⟩ | ⟨-, hc⟩
      · simp [hpart] at hq
      · exact hc
    subst hc
    exact ⟨hnil, by simp [units, hflat], fun _ => by simp [units, hflat], .inr rfl, fun _ => rfl,
      rfl⟩
  | inline hpart =>
    have hc : carried = [] := by
      rcases hb with ⟨q, _, ⟨hq, -⟩, -⟩ | ⟨-, hc⟩
      · simp [hpart] at hq
      · exact hc
    subst hc
    exact ⟨hnil, by simp [units], fun _ => by simp [units], .inl rfl,
      fun h => absurd (hpart.symm.trans h) (by simp), rfl⟩

/-- Nothing but the documents of the plan is there under its keys. -/
def ExactPlan (c : Codec U E B D) (s : State B D) (call : Call U E) (p : Plan U E D) : Prop :=
  List.Forall₂ (fun k us => Exact s.objects (.shard k) (c.dumpUnits us)) p.newKeys p.chunks ∧
    Exact s.objects (.result (resultKey call)) (c.dumpEnvelope p.index)

theorem laid_storeResult {carried : List (List U)} (hb : Behind c s call carried)
    (hexact : ∀ p, plan v s.reference call = .ok p → ExactPlan c s call p)
    (hok : (storeResult c v s call).2 = .ok r) :
    (storeResult c v s call).1.reference = some r ∧
      ∃ parts index, Laid c (storeResult c v s call).1 r parts index ∧
        index.rest = call.result.rest ∧ (call.isPartial = true → index.units = []) ∧
        (carried.flatten <+: call.result.units → units parts index = call.result.units) := by
  obtain ⟨p, b, hp, hperf, hr, hsaved, hsame⟩ := storeResult_saved hok
  obtain ⟨hm, hcount, hunits, hsplit, hpart, hrest⟩ := planned_behind (planned hp) hb
  obtain ⟨hshards, hindex⟩ := hexact p hp
  refine ⟨hsaved, carried ++ p.chunks, p.index, ?_, hrest, hpart, hunits⟩
  have hnew : Manifest.Holds c b.state ⟨p.newKeys,
      p.chunks.map fun us => c.sha256 (c.dumpUnits us), p.chunks.map List.length⟩ p.chunks :=
    ⟨rfl, rfl, hperf.shards hshards⟩
  have hall : (p.manifest c).Holds c b.state (carried ++ p.chunks) :=
    (hm.of_same fun k _ d hd => hperf.grows.objects hd).append hnew
  have hlaid : Laid c b.state r (carried ++ p.chunks) p.index := by
    subst hr
    exact ⟨hall, ⟨resultKey call, rfl, hperf.index hindex⟩, rfl, hcount, hsplit⟩
  refine hlaid.of_same ?_ ?_
  · intro key hkey d hd
    rw [(hsame (.result key) (List.mem_append_left _ (by simp [hkey]))).1]
    exact hd
  · intro k hk d _
    rwa [(hsame (.shard k) (List.mem_append_right _ (List.mem_map_of_mem hk))).1]

/-- Every key of the reference has a row that is not marked deleted. -/
def Live (s : State B D) (r : Reference D) : Prop :=
  ∀ k ∈ r.keys, ∃ row, s.retention.get? k = some row ∧ row.deletedAt = none

theorem live_storeResult (hs : Sound v s)
    (hcarried : ∀ q, Carries s call q → Live s q) (hok : (storeResult c v s call).2 = .ok r) :
    Live (storeResult c v s call).1 r := by
  obtain ⟨p, b, hp, hperf, hr, -, hsame⟩ := storeResult_saved hok
  intro k hk
  rw [(hsame k hk).2]
  rcases List.mem_append.1 hk with hindex | hshard
  · obtain ⟨key, hkey, rfl⟩ := List.mem_map.1 hindex
    rw [Option.mem_toList, hr] at hkey
    injection hkey with hkey
    subst hkey
    obtain ⟨row, hrow, hlive, -⟩ := anchored_perform hs hperf
    exact ⟨row, hrow, hlive⟩
  · obtain ⟨key, hkey, rfl⟩ := List.mem_map.1 hshard
    have hkey' : key ∈ p.shardKeys ++ p.newKeys := by
      rwa [hr] at hkey
    rcases List.mem_append.1 hkey' with hold | hnew
    · -- only a carried manifest has keys already
      have hc : ∃ q, Carries s call q ∧ key ∈ q.shardKeys := by
        cases planned hp with
        | carried q _ hpart hprev hstatus => exact ⟨q, ⟨hpart, hprev, hstatus⟩, hold⟩
        | fresh | sharded | inline => cases hold
      obtain ⟨q, hq, hmem⟩ := hc
      obtain ⟨row, hrow, hlive⟩ :=
        hcarried q hq (.shard key) (List.mem_append_right _ (List.mem_map_of_mem hmem))
      exact ⟨row, hperf.grows.rows hrow, hlive⟩
    · exact ⟨resultRecord v,
        hperf.rows _ (List.mem_append_left _ (List.mem_map_of_mem hnew)), rfl⟩

end Scenara.Result
