import Scenara.Execution.Model
import Scenara.Result.Retry

/-!
# A run that is executed again

The queue redelivers a run whose worker has died. The new execution starts from the reference that
is there: a partial call behind a partial reference carries its shards over, whoever has published
them, and the final objects have fixed keys.

* `Backend` is what the executions of a run do to the two stores. A worker that dies is a call whose
  further backend calls all fail, those of its handler included: none of them has an effect any
  more.
-/

namespace Scenara.Execution

open Scenara.Core Result

variable {U E B D : Type}

/-- A call of an execution. -/
inductive Backend (U E : Type) where
  | store (call : Call U E)
  | discardPartial (faults : Faults) (now : ℚ)

variable [DecidableEq D]

/-- The state after the call. -/
def Backend.apply (c : Codec U E B D) (v : Service E) (s : State B D) : Backend U E → State B D
  | .store call => (storeResult c v s call).1
  | .discardPartial faults now => discardPartialResult v faults now s

/-- The state after any number of executions. -/
def after (c : Codec U E B D) (v : Service E) (s : State B D) (calls : List (Backend U E)) :
    State B D :=
  calls.foldl (fun s call => call.apply c v s) s

/-! ## The claim and the condition -/

variable {c : Codec U E B D} {v : Service E} {s s' : State B D} {call : Call U E} {r : Reference D}
  {p : Plan U E D}

/-- **The call publishes its own result.** -/
def Publishes (c : Codec U E B D) (v : Service E) (s : State B D) (call : Call U E) : Prop :=
  (∃ r, (storeResult c v s call).2 = .ok r) ∧
    ∃ envelope, result c v (storeResult c v s call).1 = .ok envelope ∧
    envelope.units = call.result.units

/-- The units of the shards, as `result` reads them. -/
def readShards (c : Codec U E B D) (s : State B D) (m : Manifest D) : Except Error (List U) := do
  let shards ← (m.shardKeys.zip m.shardSha256).mapM (loadShard c s)
  .ok shards.flatten

/-- **The condition**: what the call carries over is the beginning of its own envelope. -/
def Continues (c : Codec U E B D) (s : State B D) (call : Call U E) : Prop :=
  ∀ q, Carries s call q → ∃ us, readShards c s q.toManifest = .ok us ∧ us.length = q.unitCount ∧
    us <+: call.result.units

/-! ## The invariant -/

/-- The shards of the reference are numbered, each with its checksum. -/
structure Numbered (s : State B D) : Prop where
  named : ∀ r, s.reference = some r → r.Named
  paired : ∀ r, s.reference = some r → r.shardKeys.length = r.shardSha256.length

omit [DecidableEq D] in
theorem Numbered.mono (h : Numbered s) (href : ∀ r, s'.reference = some r → s.reference = some r) :
    Numbered s' :=
  ⟨fun r hr => h.named r (href r hr), fun r hr => h.paired r (href r hr)⟩

omit [DecidableEq D] in
theorem numbered_of_none (h : s.reference = none) : Numbered s := by
  constructor <;>
  · intro r hr
    simp [h] at hr

omit [DecidableEq D] in
theorem Numbered.carried (h : Numbered s) (hp : Planned v s.reference call p) :
    p.shardKeys.length = p.shardSha256.length := by
  cases hp with
  | carried q _ _ hprevious => exact h.paired q hprevious
  | fresh | sharded | inline => rfl

theorem Numbered.storeResult (h : Numbered s) : Numbered (storeResult c v s call).1 := by
  cases hout : (Scenara.Result.storeResult c v s call).2 with
  | error e =>
    refine h.mono fun r hr => ?_
    rcases storeResult_error hout with ⟨-, he⟩ | ⟨-, he⟩
    · rwa [he] at hr
    · rw [he] at hr
      rw [← grows_tried.reference, discard_reference_sub hr]
  | ok r =>
    obtain ⟨p, b, hp, -, hr, hsaved, -⟩ := storeResult_saved hout
    have hnamed : r.Named := hr ▸ named_newReference (planned hp) h.named
    have hpaired : r.shardKeys.length = r.shardSha256.length := by
      have hcarried := h.carried (planned hp)
      rw [hr]
      simp [newReference, Plan.manifest, Plan.newKeys, keysFrom, hcarried]
    constructor <;>
    · intro _ hr'
      rw [hsaved] at hr'
      cases hr'
      assumption

omit [DecidableEq D] in
theorem Numbered.discardPartialResult {faults : Faults} {now : ℚ} (h : Numbered s) :
    Numbered (discardPartialResult v faults now s) := by
  refine h.mono fun r hr => ?_
  unfold Execution.discardPartialResult at hr
  split at hr
  · exact hr
  · split at hr
    · exact hr
    · split at hr
      · exact discard_reference_sub hr
      · exact hr

theorem Numbered.after (h : Numbered s) (calls : List (Backend U E)) :
    Numbered (after c v s calls) := by
  induction calls generalizing s with
  | nil => exact h
  | cons next _ ih =>
    cases next with
    | store => exact ih h.storeResult
    | discardPartial => exact ih h.discardPartialResult

/-! ## Reading what a call has left -/

omit [DecidableEq D] in
theorem Numbered.apart (h : Numbered s) (hp : Planned v s.reference call p) {key : ShardKey}
    (hkey : key ∈ p.shardKeys) : key ∉ p.newKeys := by
  intro hnew
  cases hp with
  | carried q _ _ hprevious =>
    have hlt := (h.named q hprevious).index_lt key hkey
    have hle := (mem_keysFrom.1 hnew).2.1
    exact absurd hlt (Nat.not_lt.2 hle)
  | fresh | sharded | inline => cases hkey

theorem mapM_congr {α β : Type} {f g : α → Except Error β} {l : List α} (h : ∀ a ∈ l, f a = g a) :
    l.mapM f = l.mapM g := by
  induction l with
  | nil => rfl
  | cons a l ih =>
    rw [List.mapM_cons, List.mapM_cons, h a List.mem_cons_self,
      ih fun b hb => h b (List.mem_cons_of_mem _ hb)]

theorem reads_returned (hc : Function.Injective c.sha256) (h : Numbered s)
    (hp : plan v s.reference call = .ok p) (hok : (storeResult c v s call).2 = .ok r) :
    readShards c (storeResult c v s call).1 r.toManifest =
      (readShards c s p.toManifest).map (· ++ p.chunks.flatten) := by
  obtain ⟨_, b, hp', hperf, hr, -, hsame⟩ := storeResult_saved hok
  rw [hp] at hp'
  cases hp'
  have hshards := hperf.shards (exactPlan_of_performed hc hperf).1
  have hkeys : r.shardKeys = p.shardKeys ++ p.newKeys := by rw [hr]; rfl
  have hsha : r.shardSha256 = p.shardSha256 ++ p.chunks.map fun us =>
      c.sha256 (c.dumpUnits us) := by
    rw [hr]
    rfl
  have hobjects : ∀ key ∈ r.shardKeys, (storeResult c v s call).1.objects.get? (.shard key) =
      b.state.objects.get? (.shard key) :=
    fun key hkey => (hsame _ (List.mem_append_right _ (List.mem_map_of_mem hkey))).1
  have hnew : (p.newKeys.zip (p.chunks.map fun us => c.sha256 (c.dumpUnits us))).mapM
      (loadShard c (storeResult c v s call).1) = .ok p.chunks := by
    refine mapM_loadShard ?_
    rw [List.forall₂_iff_zip] at hshards ⊢
    refine ⟨hshards.1, fun {key us} hmem => ?_⟩
    rw [hobjects key (hkeys ▸ List.mem_append_right _ (List.of_mem_zip hmem).1)]
    exact hshards.2 hmem
  have hcarried : (p.shardKeys.zip p.shardSha256).mapM (loadShard c (storeResult c v s call).1) =
      (p.shardKeys.zip p.shardSha256).mapM (loadShard c s) := by
    refine mapM_congr fun entry hentry => ?_
    have hkey := (List.of_mem_zip hentry).1
    have hnone : ¬p.Touches v call (.shard entry.1) := by
      rintro (⟨_, hmem, heq⟩ | heq | ⟨e, he, heq⟩)
      · cases heq
        exact h.apart (planned hp) hkey hmem
      · cases heq
      · obtain ⟨_, hname⟩ := sinkRecords_other he
        simp [hname] at heq
    have hget : (storeResult c v s call).1.objects.get? (.shard entry.1) =
        s.objects.get? (.shard entry.1) := by
      rw [hobjects entry.1 (hkeys ▸ List.mem_append_left _ hkey)]
      exact hperf.grows.otherObjects hnone
    unfold loadShard Result.get
    rw [hget]
  unfold readShards
  rw [hkeys, hsha, List.zip_append (h.carried (planned hp)), List.mapM_append, hcarried, hnew]
  cases (p.shardKeys.zip p.shardSha256).mapM (loadShard c s) with
  | error e => rfl
  | ok => simp [bind, Except.bind, pure, Except.pure, Except.map]

theorem result_returned (hc : Function.Injective c.sha256) (hp : plan v s.reference call = .ok p)
    (hok : (storeResult c v s call).2 = .ok r) :
    resultIndex c v (storeResult c v s call).1 = .ok (p.index, r) := by
  obtain ⟨_, b, hp', hperf, hr, hsaved, hsame⟩ := storeResult_saved hok
  rw [hp] at hp'
  cases hp'
  have hkey : r.objectKey = some (resultKey call) := by rw [hr]; rfl
  have hsha : r.sha256 = c.sha256 (c.dumpEnvelope p.index) := by rw [hr]; rfl
  have hdocument : (storeResult c v s call).1.objects.get? (.result (resultKey call)) =
      some (c.dumpEnvelope p.index) := by
    rw [(hsame _ (List.mem_append_left _ (by simp [hkey]))).1]
    exact hperf.index (exactPlan_of_performed hc hperf).2
  unfold resultIndex
  simp [hsaved, hkey, hsha, get_ok hdocument, c.load_dumpEnvelope, bind, Except.bind]

omit [DecidableEq D] in
theorem planned_split (hp : Planned v s.reference call p) :
    p.index.units = [] ∨ p.shardKeys ++ p.newKeys = [] ∧ p.chunks = [] := by
  cases hp with
  | carried | fresh | sharded => exact .inl rfl
  | inline => exact .inr ⟨rfl, rfl⟩

theorem serves_iff (hc : Function.Injective c.sha256) (h : Numbered s)
    (hp : plan v s.reference call = .ok p) (hok : (storeResult c v s call).2 = .ok r) :
    (∃ envelope, result c v (storeResult c v s call).1 = .ok envelope ∧
        envelope.units = call.result.units) ↔
      ∃ us, readShards c s p.toManifest = .ok us ∧
        us ++ (p.chunks.flatten ++ p.index.units) = call.result.units := by
  have hreads := reads_returned hc h hp hok
  obtain ⟨_, b, hp', -, hr, -⟩ := storeResult_saved hok
  rw [hp] at hp'
  cases hp'
  have hkeys : r.shardKeys = p.shardKeys ++ p.newKeys := by rw [hr]; rfl
  have hcount : r.unitCount = call.result.units.length := by rw [hr]; rfl
  have hpaired : r.shardKeys.length = r.shardSha256.length := by
    have hcarried := h.carried (planned hp)
    rw [hr]
    simp [newReference, Plan.manifest, Plan.newKeys, keysFrom, hcarried]
  have hresult : result c v (storeResult c v s call).1 =
      if r.shardKeys = [] then .ok p.index
      else readShards c (storeResult c v s call).1 r.toManifest >>= fun us =>
        if us.length ≠ r.unitCount then
          .error (.pipelineError "stored result shard count does not match its reference")
        else .ok { p.index with units := us } := by
    unfold result readShards
    rw [result_returned hc hp hok]
    simp only [bind, Except.bind, if_neg (not_not.2 hpaired)]
    split
    · rfl
    · cases (r.shardKeys.zip r.shardSha256).mapM (loadShard c (storeResult c v s call).1) <;> rfl
  by_cases hnil : r.shardKeys = []
  · have hcarried : p.shardKeys = [] := (List.append_eq_nil_iff.1 (hkeys ▸ hnil)).1
    have hchunks : p.chunks = [] := by
      have hnew := (List.append_eq_nil_iff.1 (hkeys ▸ hnil)).2
      have hlength := congrArg List.length hnew
      exact List.length_eq_zero_iff.1 (by simpa [Plan.newKeys, keysFrom] using hlength)
    have hempty : readShards c s p.toManifest = .ok [] := by
      unfold readShards
      rw [hcarried]
      rfl
    rw [hresult, if_pos hnil, hempty, hchunks]
    simp
  · have hindex : p.index.units = [] := (planned_split (planned hp)).resolve_right fun hboth =>
      hnil (hkeys.trans hboth.1)
    rw [hresult, if_neg hnil, hreads, hindex]
    cases readShards c s p.toManifest with
    | error e => simp [bind, Except.bind, Except.map]
    | ok us =>
      simp only [Except.map, bind, Except.bind, hcount, List.append_nil]
      constructor
      · rintro ⟨_, henvelope, hunits⟩
        split at henvelope
        · cases henvelope
        · cases henvelope
          exact ⟨us, rfl, hunits⟩
      · rintro ⟨_, hus, hunits⟩
        cases hus
        rw [if_neg (not_not.2 (congrArg List.length hunits))]
        exact ⟨_, rfl, hunits⟩

theorem continues_iff (hp : plan v s.reference call = .ok p) :
    (∃ us, readShards c s p.toManifest = .ok us ∧
        us ++ (p.chunks.flatten ++ p.index.units) = call.result.units) ↔ Continues c s call := by
  have hflat (us : List U) : (slices v.resultShardUnits us).flatten = us :=
    flatten_slices v.shardUnits_pos us
  have hempty : readShards c s (⟨[], [], []⟩ : Manifest D) = .ok [] := rfl
  cases planned hp with
  | carried q counts hpart hprevious hstatus =>
    have hsame : readShards c s ⟨q.shardKeys, q.shardSha256, counts⟩ =
        readShards c s q.toManifest := rfl
    simp only [hsame, hflat, List.append_nil]
    constructor
    · rintro ⟨us, hus, hunits⟩ _ ⟨-, hq', -⟩
      rw [hprevious] at hq'
      cases hq'
      refine ⟨us, hus, ?_, ⟨_, hunits⟩⟩
      have hlength := congrArg List.length hunits
      rw [List.length_append, List.length_drop] at hlength
      omega
    · intro hcontinues
      obtain ⟨us, hus, hlength, hprefix⟩ := hcontinues q ⟨hpart, hprevious, hstatus⟩
      refine ⟨us, hus, ?_⟩
      obtain ⟨_, hrest⟩ := hprefix
      rw [← hlength, ← hrest, List.drop_left]
  | fresh _ hready =>
    simp only [hempty, hflat, List.append_nil]
    refine iff_of_true ⟨[], rfl, rfl⟩ fun q hq => ?_
    have hstatus := hq.2.2
    simp [hready q hq.2.1] at hstatus
  | sharded hpart =>
    simp only [hempty, hflat, List.append_nil]
    refine iff_of_true ⟨[], rfl, rfl⟩ fun q hq => ?_
    have hpart' := hq.1
    rw [hpart] at hpart'
    cases hpart'
  | inline hpart =>
    refine iff_of_true ⟨[], rfl, rfl⟩ fun q hq => ?_
    have hpart' := hq.1
    rw [hpart] at hpart'
    cases hpart'

theorem Continues.plan (h : Continues c s call) : ∃ p, plan v s.reference call = .ok p := by
  refine exists_plan fun q hpart hprevious hstatus => ?_
  obtain ⟨_, -, hlength, hprefix⟩ := h q ⟨hpart, hprevious, hstatus⟩
  rw [← hlength]
  exact hprefix.length_le

/-- **A call publishes its own result exactly when** it continues what it carries over and its keys
are free: after any executions, with any calls that failed and any workers that died. -/
theorem publishes_iff (hc : Function.Injective c.sha256) (h₀ : s.reference = none)
    (calls : List (Backend U E)) (hquiet : call.faults.Quiet) :
    Publishes c v (after c v s calls) call ↔
      Continues c (after c v s calls) call ∧ Unblocked c v (after c v s calls) call := by
  have hnumbered : Numbered (after c v s calls) := (numbered_of_none h₀).after calls
  constructor
  · rintro ⟨hok, hserved⟩
    obtain ⟨p, hp, hwritable⟩ := (storeResult_ok_iff hquiet).1 hok
    obtain ⟨r, hr⟩ := hok
    refine ⟨(continues_iff hp).1 ((serves_iff hc hnumbered hp hr).1 hserved), fun p' hp' => ?_⟩
    rw [hp] at hp'
    cases hp'
    exact hwritable
  · rintro ⟨hcontinues, hfree⟩
    obtain ⟨p, hp⟩ := hcontinues.plan (v := v)
    have hok := (storeResult_ok_iff hquiet).2 ⟨p, hp, hfree p hp⟩
    obtain ⟨r, hr⟩ := hok
    exact ⟨⟨r, hr⟩, (serves_iff hc hnumbered hp hr).2 ((continues_iff hp).2 hcontinues)⟩

/-! ## An execution that goes on, and one that serves another's units -/

/-- Every backend call fails. -/
def dead : Faults :=
  ⟨true, fun _ => true, true, true, fun _ => true, true, true, fun _ => true, true⟩

/-- The first execution publishes `[1]`; its worker dies when it has put the next shard. -/
def firstExecution : List (Backend Nat Nat) :=
  [.store (smallCall [1] 0 true "a" .none), .store (smallCall [1, 2] 0 true "b" { dead with
      getReference := false
      put := fun key => key ≠ .shard ⟨true, 1⟩ })]

/-- The second execution has the same units. -/
theorem same_units_publish :
    let s := after plainCodec (smallService .memory) State.empty firstExecution
    let call : Call Nat Nat := smallCall [1, 2, 3] 0 true "c" .none
    Publishes plainCodec (smallService .memory) s call ∧ Continues plainCodec s call ∧
      Unblocked plainCodec (smallService .memory) s call := by
  intro s call
  have hserved : result plainCodec (smallService .memory)
      (storeResult plainCodec (smallService .memory) s call).1 = .ok ⟨[1, 2, 3],
        0⟩ := by decide +kernel
  have hstored : (storeResult plainCodec (smallService .memory) s call).2.isOk =
      true := by decide +kernel
  have hok : ∃ r, (storeResult plainCodec (smallService .memory) s call).2 = .ok r := by
    cases hr : (storeResult plainCodec (smallService .memory) s call).2 with
    | ok r => exact ⟨r, rfl⟩
    | error e =>
      rw [hr] at hstored
      cases hstored
  have hpublishes : Publishes plainCodec (smallService .memory) s call := ⟨hok, _, hserved, rfl⟩
  exact ⟨hpublishes, (publishes_iff (s := State.empty) Function.injective_id rfl firstExecution
    quiet_none).1 hpublishes⟩

/-- **Units of an earlier execution.** The second execution's partial result `[2]` is stored, and
`[1]` of the first one is served; after a final result, the final result of the next execution is
refused. -/
theorem earlier_units_served :
    let published : List (Backend Nat Nat) := [.store (smallCall [1] 0 true "a" .none)]
    let finished : List (Backend Nat Nat) := [.store (smallCall [1] 0 false "a" .none)]
    let next : Call Nat Nat := smallCall [2] 0 true "b" .none
    let last : Call Nat Nat := smallCall [2] 0 false "b" .none
    let small := smallService .memory
    (¬Publishes plainCodec small (after plainCodec small State.empty published) next ∧
      result plainCodec small (storeResult plainCodec small
        (after plainCodec small State.empty published) next).1 = .ok ⟨[1], 0⟩) ∧
    ¬Publishes plainCodec small (after plainCodec small State.empty finished) last ∧
      (storeResult plainCodec small (after plainCodec small State.empty finished) last).2 =
        .error (.objectAlreadyExists (.result .final)) := by
  intro published finished next last small
  have hearlier : result plainCodec small (storeResult plainCodec small
      (after plainCodec small State.empty published) next).1 = .ok ⟨[1], 0⟩ := by decide +kernel
  have hrefused : (storeResult plainCodec small (after plainCodec small State.empty finished)
      last).2 = .error (.objectAlreadyExists (.result .final)) := by decide +kernel
  refine ⟨⟨?_, hearlier⟩, ?_, hrefused⟩
  · rintro ⟨-, _, henvelope, hunits⟩
    rw [hearlier] at henvelope
    cases henvelope
    exact absurd hunits (by decide)
  · rintro ⟨⟨r, hr⟩, -⟩
    cases hr

end Scenara.Execution
