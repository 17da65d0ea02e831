import Scenara.Result.Reading

/-!
# The result round-trips through partial publishing, sharding and paging

A run publishes partial results whose units extend one another, then at most one final result
(`Script`). No call of the object store or the state store fails.

* `Between` is the invariant between two calls: the partial reference holds the units of the last
  call, and the keys of the calls to come are unused. `between_step` is its step lemma.
-/

namespace Scenara.Result

open Scenara.Core

variable {U E B D : Type} [DecidableEq D] {c : Codec U E B D} {v : Service E} {s : State B D}
  {call : Call U E} {r : Reference D}

/-- The state after calls, in order. -/
def storeAll (c : Codec U E B D) (v : Service E) (s : State B D) (calls : List (Call U E)) :
    State B D :=
  calls.foldl (fun s call => (storeResult c v s call).1) s

/-- The artifacts of a call. -/
def Call.artifacts (call : Call U E) : List String := call.sink.elim [] Sink.keys

/-- A run's calls: partial results that extend one another, then at most one final result, from a
state without any of their keys. The `uuid4`s are distinct. -/
structure Script (s : State B D) (partials : List (Call U E)) (final : Option (Call U E)) :
    Prop where
  isPartial : ∀ call ∈ partials, call.isPartial = true
  isFinal : ∀ call ∈ final, call.isPartial = false
  quiet : ∀ call ∈ partials ++ final.toList, call.faults.Quiet
  extend : partials.IsChain fun a b => a.result.units <+: b.result.units
  uuids : (partials.map Call.uuid).Nodup
  reference : s.reference = none
  shards : ∀ k, Unused s (.shard k)
  indexes : ∀ k, Unused s (.result k)
  /-- The sink has put its artifacts; no row tracks them yet. -/
  artifacts : ∀ call ∈ final, ∀ name ∈ call.artifacts, Untracked s (.other name)

/-- The state after the partial calls `done`; `artifacts` are those of the final call. -/
structure Between (c : Codec U E B D) (v : Service E) (artifacts : List String)
    (done : List (Call U E)) (s : State B D) : Prop where
  sound : Sound v s
  none : done = [] → s.reference = none
  last : ∀ call ∈ done.getLast?, ∃ r parts index, s.reference = some r ∧
    r.indexStatus = .inPartial ∧ Laid c s r parts index ∧ index.units = [] ∧
    units parts index = call.result.units ∧ Live s r
  finals : ∀ i, Unused s (.shard ⟨false, i⟩)
  partials : ∀ i, (∀ r, s.reference = some r → r.shardKeys.length ≤ i) →
    Unused s (.shard ⟨true, i⟩)
  final : Unused s (.result .final)
  indexes : ∀ n u, u ∉ done.map Call.uuid → Unused s (.result (.inPartial n u))
  others : ∀ name ∈ artifacts, Untracked s (.other name)

/-! ## A call whose keys are unused -/

/-- Every key of the plan is unused, and no row tracks an artifact. -/
structure Untouched (v : Service E) (s : State B D) (call : Call U E) (p : Plan U E D) : Prop where
  shards : ∀ key ∈ p.newKeys, Unused s (.shard key)
  index : Unused s (.result (resultKey call))
  sink : ∀ e ∈ sinkRecords v call, Untracked s e.1

variable {p : Plan U E D} {artifacts : List String} {done : List (Call U E)}

omit [DecidableEq D] in
theorem exact_of_untouched (h : Untouched v s call p) : ExactPlan c s call p := by
  refine ⟨?_, fun existing he => ?_⟩
  · rw [List.forall₂_iff_zip]
    refine ⟨by simp [Plan.newKeys, keysFrom], fun {k us} hm existing he => ?_⟩
    simp [(h.shards k (List.of_mem_zip hm).1).1] at he
  · simp [h.index.1] at he

omit [DecidableEq D] in
theorem writable_of_untouched (h : Untouched v s call p) :
    Writable c v s s.reference call p := by
  obtain ⟨hshards, hindex⟩ := exact_of_untouched (c := c) h
  refine ⟨hshards.imp fun _ _ he => he.accepts, hindex.accepts, ?_, ?_⟩
  · intro k hk row hrow
    have hunused : Unused s k := by
      rcases List.mem_append.1 hk with hk | hk
      · obtain ⟨key, hkey, rfl⟩ := List.mem_map.1 hk
        exact h.shards key hkey
      · split_ifs at hk
        · rw [List.mem_singleton.1 hk]
          exact h.index
        · cases hk
    rw [hunused.2] at hrow
    cases hrow
  · intro e he _ hrow
    rw [h.sink e he] at hrow
    cases hrow

/-- What a reader finds after the call: the envelope, every page of it, and no deleted key. -/
structure Served (c : Codec U E B D) (v : Service E) (s : State B D) (stored : Envelope U E) :
    Prop where
  result : result c v s = .ok stored
  page : ∀ unitOffset unitLimit, resultPage c v s unitOffset unitLimit = .ok
    { result := { stored with
        units := slice unitOffset (unitOffset + unitLimit) stored.units }
      unitOffset := unitOffset
      unitLimit := unitLimit
      unitTotal := stored.units.length }
  kept : ∃ r, s.reference = some r ∧ ∀ k ∈ r.keys, s.objects.get? k ≠ none ∧
    ∃ row, s.retention.get? k = some row ∧ row.deletedAt = none

theorem served_of_laid {parts : List (List U)} {index stored : Envelope U E}
    (hr : s.reference = some r) (h : Laid c s r parts index) (hlive : Live s r)
    (hrest : index.rest = stored.rest) (hunits : units parts index = stored.units) :
    Served c v s stored := by
  have he : { index with units := units parts index } = stored := by rw [hrest, hunits]
  refine ⟨?_, ?_, r, hr, fun k hk => ⟨?_, hlive k hk⟩⟩
  · rw [h.result hr, he]
  · intro _ _
    rw [h.resultPage hr, hrest, hunits]
  · rcases List.mem_append.1 hk with hk | hk
    · obtain ⟨key, hkey, rfl⟩ := List.mem_map.1 hk
      obtain ⟨_, hkey', hdoc⟩ := h.document
      rw [hkey', Option.mem_toList] at hkey
      injection hkey with hkey
      subst hkey
      simp [hdoc]
    · obtain ⟨_, hkey, rfl⟩ := List.mem_map.1 hk
      obtain ⟨i, hi, rfl⟩ := List.getElem_of_mem hkey
      have hdoc := (List.forall₂_iff_get.1 h.manifest.shards).2 i hi
        (by rw [← h.manifest.length]; exact hi)
      rw [List.get_eq_getElem] at hdoc
      simp [hdoc]

/-! ## One call -/

omit [DecidableEq D] in
theorem between_reference (hb : Between c v artifacts done s) (hr : s.reference = some r) :
    r.indexStatus = .inPartial ∧
      ∃ prev, done.getLast? = some prev ∧ r.unitCount = prev.result.units.length := by
  obtain ⟨prev, hprev⟩ := Option.ne_none_iff_exists'.1 fun h : done.getLast? = none => by
    simp [hb.none (List.getLast?_eq_none_iff.1 h)] at hr
  obtain ⟨_, _, _, hr', hstatus, hlaid, -, hunits, -⟩ := hb.last prev hprev
  rw [hr'] at hr
  injection hr with hr
  subst hr
  exact ⟨hstatus, prev, hprev, by rw [hlaid.count, hunits]⟩

omit [DecidableEq D] in
theorem between_behind
    (hb : Between c v artifacts done s) (hextend : ∀ prev ∈ done.getLast?, call.isPartial = true →
      prev.result.units <+: call.result.units) :
    ∃ carried, Behind c s call carried ∧ (carried.flatten <+: call.result.units) ∧
      ∀ q, Carries s call q → Live s q := by
  by_cases hd : done = []
  · have hnone := hb.none hd
    have hno : ∀ q, ¬Carries s call q := by
      rintro q ⟨-, hq, -⟩
      simp [hnone] at hq
    exact ⟨[], .inr ⟨hno, rfl⟩, List.nil_prefix, fun q hq => absurd hq (hno q)⟩
  · obtain ⟨prev, hprev⟩ := Option.ne_none_iff_exists'.1
      fun h => hd (List.getLast?_eq_none_iff.1 h)
    obtain ⟨r, parts, index, hr, hstatus, hlaid, hindex, hunits, hlive⟩ := hb.last prev hprev
    by_cases hpart : call.isPartial = true
    · refine ⟨parts, .inl ⟨r, index, ⟨hpart, hr, hstatus⟩, hlaid, hindex⟩, ?_, ?_⟩
      · have hflat : parts.flatten = prev.result.units := by
          rw [← hunits, units, hindex, List.append_nil]
        rw [hflat]
        exact hextend prev hprev hpart
      · rintro q ⟨-, hq, -⟩
        rw [hr] at hq
        injection hq with hq
        exact hq ▸ hlive
    · have hno : ∀ q, ¬Carries s call q := fun q hq => hpart hq.1
      exact ⟨[], .inr ⟨hno, rfl⟩, List.nil_prefix, fun q hq => absurd hq (hno q)⟩

omit [DecidableEq D] in
theorem between_plan
    (hb : Between c v artifacts done s) (hextend : ∀ prev ∈ done.getLast?, call.isPartial = true →
      prev.result.units <+: call.result.units)
    (huuid : call.isPartial = true → call.uuid ∉ done.map Call.uuid)
    (hothers : call.isPartial = false → ∀ name ∈ call.artifacts, name ∈ artifacts) :
    (∃ p, plan v s.reference call = .ok p) ∧
      ∀ p, plan v s.reference call = .ok p → Untouched v s call p := by
  have hsink : ∀ e ∈ sinkRecords v call, Untracked s e.1 := by
    intro e he
    unfold sinkRecords at he
    by_cases hp : call.isPartial = true
    · simp [if_pos hp] at he
    · rw [if_neg hp] at he
      cases hs : call.sink with
      | none =>
        simp [hs] at he
      | some =>
        rw [hs] at he
        obtain ⟨name, hname, rfl⟩ := List.mem_map.1 he
        refine hb.others name (hothers (by simpa using hp) name ?_)
        simpa [Call.artifacts, hs] using hname
  have hindex : Unused s (.result (resultKey call)) := by
    unfold resultKey
    by_cases hp : call.isPartial = true
    · rw [if_pos hp]
      exact hb.indexes _ _ (huuid hp)
    · rw [if_neg hp]
      exact hb.final
  have hstatus : ∀ r, s.reference = some r → r.indexStatus = .inPartial ∧
      (call.isPartial = true → r.unitCount ≤ call.result.units.length) := by
    intro r hr
    obtain ⟨hstatus, prev, hprev, hcount⟩ := between_reference hb hr
    exact ⟨hstatus, fun hp => hcount.trans_le (hextend prev hprev hp).length_le⟩
  refine ⟨exists_plan fun q hp hr _ => (hstatus q hr).2 hp, fun p hp => ⟨?_, hindex, hsink⟩⟩
  intro key hkey
  obtain ⟨hbase, hstart, -⟩ := mem_keysFrom.1 hkey
  obtain ⟨_, i⟩ := key
  subst hbase
  cases planned hp with
  | carried r _ _ hr =>
    refine hb.partials i fun q hq => ?_
    rw [hr] at hq
    injection hq with hq
    exact hq ▸ hstart
  | fresh _ hready =>
    refine hb.partials i fun q hq => ?_
    have := (hstatus q hq).1
    simp [hready q hq] at this
  | sharded | inline => exact hb.finals i

theorem between_serves (hb : Between c v artifacts done s) (hq : call.faults.Quiet)
    (hextend : ∀ prev ∈ done.getLast?, call.isPartial = true →
      prev.result.units <+: call.result.units)
    (huuid : call.isPartial = true → call.uuid ∉ done.map Call.uuid)
    (hothers : call.isPartial = false → ∀ name ∈ call.artifacts, name ∈ artifacts) :
    ∃ r, (storeResult c v s call).2 = .ok r ∧
      (storeResult c v s call).1.reference = some r ∧
      Live (storeResult c v s call).1 r ∧
      ∃ parts index, Laid c (storeResult c v s call).1 r parts index ∧
        index.rest = call.result.rest ∧ (call.isPartial = true → index.units = []) ∧
        units parts index = call.result.units := by
  obtain ⟨⟨p, hp⟩, huntouched⟩ := between_plan hb hextend huuid hothers
  obtain ⟨_, hbehind, hprefix, hlive⟩ := between_behind hb hextend
  obtain ⟨r, hok⟩ := (storeResult_ok_iff (c := c) hq).2
    ⟨p, hp, writable_of_untouched (huntouched p hp)⟩
  obtain ⟨hsaved, parts, index, hlaid, hrest, hpart, hunits⟩ := laid_storeResult hbehind
    (fun p hp => exact_of_untouched (huntouched p hp)) hok
  exact ⟨r, hok, hsaved, live_storeResult hb.sound hlive hok, parts, index, hlaid, hrest, hpart,
    hunits hprefix⟩

omit [DecidableEq D] in
theorem partial_not_touches {k : ObjectKey} (hpart : call.isPartial = true)
    (hp : plan v s.reference call = .ok p) (hshard : ∀ key ∈ p.newKeys, k ≠ .shard key)
    (hresult : k ≠ .result (resultKey call)) :
    ∀ p', plan v s.reference call = .ok p' → ¬p'.Touches v call k := by
  intro p' hp'
  rw [hp] at hp'
  injection hp' with hp'
  subst hp'
  rintro (⟨key, hkey, he⟩ | he | ⟨e, he, -⟩)
  · exact hshard key hkey he
  · exact hresult he
  · have hsink : sinkRecords v call = [] := by simp [sinkRecords, hpart]
    simp [hsink] at he

omit [DecidableEq D] in
theorem between_carried (hb : Between c v artifacts done s) (hpart : call.isPartial = true)
    (hp : plan v s.reference call = .ok p) {q : Reference D} (hq : s.reference = some q) :
    q.shardKeys.length ≤ p.shardKeys.length := by
  cases planned hp with
  | carried _ _ _ hq' =>
    rw [hq'] at hq
    injection hq with hq
    subst hq
    exact le_rfl
  | fresh _ hready =>
    have := (between_reference hb hq).1
    simp [hready q hq] at this
  | sharded h | inline h => rw [hpart] at h; cases h

omit [DecidableEq D] in
theorem index_lt_of_newKeys {key : ShardKey}
    (hp : plan v s.reference call = .ok p) (hkey : key ∈ p.newKeys) :
    key.index < p.shardKeys.length + p.newKeys.length := by
  obtain ⟨-, -, _⟩ := mem_keysFrom.1 hkey
  have hstart : p.start = p.shardKeys.length := by
    cases planned hp <;> rfl
  have hnew : p.newKeys.length = p.chunks.length := by simp [Plan.newKeys, keysFrom]
  omega

theorem between_step
    (hb : Between c v artifacts done s) (hq : call.faults.Quiet) (hpart : call.isPartial = true)
    (hextend : ∀ prev ∈ done.getLast?, prev.result.units <+: call.result.units)
    (huuid : call.uuid ∉ done.map Call.uuid) :
    Between c v artifacts (done ++ [call]) (storeResult c v s call).1 := by
  have hnotfinal : call.isPartial = false → ∀ name ∈ call.artifacts, name ∈ artifacts := fun h => by
    simp [hpart] at h
  obtain ⟨r, hok, hsaved, hlive, parts, index, hlaid, -, hindex, hunits⟩ :=
    between_serves hb hq (fun prev hprev _ => hextend prev hprev) (fun _ => huuid) hnotfinal
  obtain ⟨p, b, hp, _, hr, -⟩ := storeResult_saved hok
  have hbase : p.inPartial = true := (planned_inPartial (planned hp)).trans hpart
  have hkey : resultKey call = .inPartial call.result.units.length call.uuid := by
    simp [resultKey, hpart]
  have hkeep : ∀ k, Unused s k → (∀ key ∈ p.newKeys, k ≠ .shard key) →
      k ≠ .result (resultKey call) → Unused (storeResult c v s call).1 k :=
    fun _ hk hshard hresult =>
      unused_storeResult hk (partial_not_touches hpart hp hshard hresult) hok
  refine ⟨sound_storeResult hb.sound, by simp, ?_, ?_, ?_, ?_, ?_, ?_⟩
  · intro _ hlast
    rw [List.getLast?_concat, Option.mem_some_iff] at hlast
    subst hlast
    refine ⟨r, parts, index, hsaved, ?_, hlaid, hindex hpart, hunits, hlive⟩
    rw [hr]
    simp [newReference, hpart]
  · intro i
    refine hkeep _ (hb.finals i) (fun key hkey he => ?_) (by simp)
    injection he with he
    have := (mem_keysFrom.1 hkey).1
    simp [← he, hbase] at this
  · intro i hi
    have hlen : p.shardKeys.length + p.newKeys.length ≤ i := by
      have := hi r hsaved
      rw [hr] at this
      simpa [newReference, Plan.manifest] using this
    refine hkeep _ (hb.partials i fun q hq => ?_) (fun key hkey he => ?_) (by simp)
    · have := between_carried hb hpart hp hq
      omega
    · injection he with he
      have := index_lt_of_newKeys hp hkey
      rw [← he] at this
      dsimp only at this
      omega
  · exact hkeep _ hb.final (fun _ _ he => by cases he) (by rw [hkey]; simp)
  · intro n u hu
    rw [List.map_append, List.mem_append, not_or] at hu
    refine hkeep _ (hb.indexes n u hu.1) (fun _ _ he => by cases he) fun he => hu.2 ?_
    rw [hkey] at he
    injection he with he
    injection he with _ he
    simp [he]
  · intro name hname
    refine untracked_storeResult (hb.others name hname) ?_ hok
    exact partial_not_touches hpart hp (fun _ _ he => by cases he) (by simp)

/-! ## The whole script -/

variable {partials : List (Call U E)} {final : Option (Call U E)}

omit [DecidableEq D] in
theorem Script.between_nil (h : Script s partials final)
    (ha : ∀ name ∈ artifacts, Untracked s (.other name)) : Between c v artifacts [] s where
  sound r hr := by
    simp [h.reference] at hr
  none _ := h.reference
  last _ hlast := by cases hlast
  finals i := h.shards ⟨false, i⟩
  partials i _ := h.shards ⟨true, i⟩
  final := h.indexes .final
  indexes n u _ := h.indexes (.inPartial n u)
  others := ha

omit [DecidableEq D] in
theorem Script.next {done rest : List (Call U E)} (h : Script s partials final)
    (he : partials = done ++ call :: rest) :
    (∀ prev ∈ done.getLast?, prev.result.units <+: call.result.units) ∧
      call.uuid ∉ done.map Call.uuid := by
  have hchain := h.extend
  have huuids := h.uuids
  rw [he] at hchain huuids
  refine ⟨fun prev hprev => (List.isChain_append.1 hchain).2.2 prev hprev call (by simp), ?_⟩
  rw [List.map_append, List.map_cons, List.nodup_append] at huuids
  exact fun hm => huuids.2.2 _ hm _ List.mem_cons_self rfl

theorem Script.between (h : Script s partials final)
    (hs : Between c v artifacts [] s) (done : List (Call U E)) :
    ∀ rest, partials = done ++ rest → Between c v artifacts done (storeAll c v s done) := by
  induction done using List.reverseRecOn with
  | nil => exact fun _ _ => hs
  | append_singleton done call ih =>
    intro rest he
    have he' : partials = done ++ call :: rest := by simp [he]
    obtain ⟨hextend, huuid⟩ := h.next he'
    have hmem : call ∈ partials := by simp [he']
    have hstep := between_step (ih (call :: rest) he') (h.quiet call (List.mem_append_left _ hmem))
      (h.isPartial call hmem) hextend huuid
    unfold storeAll at hstep ⊢
    rwa [List.foldl_append]

omit [DecidableEq D] in
theorem script_call {pre post : List (Call U E)}
    (h : partials ++ final.toList = pre ++ call :: post) :
    (∃ rest, partials = pre ++ call :: rest) ∨ partials = pre ∧ final = some call := by
  rcases List.append_eq_append_iff.1 h with ⟨ext, hpre, hfinal⟩ | ⟨ext, hparts, hrest⟩
  · cases hf : final with
    | none => simp [hf] at hfinal
    | some =>
      rw [hf, Option.toList_some] at hfinal
      cases ext with
      | nil =>
        obtain ⟨rfl, -⟩ := List.cons.inj hfinal
        exact .inr ⟨by simpa using hpre.symm, rfl⟩
      | cons x => simp at hfinal
  · cases ext with
    | nil =>
      refine .inr ⟨by simpa using hparts, ?_⟩
      cases hf : final with
      | none => simp [hf] at hrest
      | some =>
        rw [hf, Option.toList_some] at hrest
        rw [(List.cons.inj hrest).1]
    | cons x xs =>
      obtain ⟨rfl, -⟩ := List.cons.inj hrest
      exact .inl ⟨xs, hparts⟩

/-- **The result round-trips.** Every call of the script returns; after it `result` returns the
envelope it stored, `result_page` any slice of its units, and no key of the reference is deleted. -/
theorem store_round_trips (c : Codec U E B D) (v : Service E) (h : Script s partials final)
    (pre : List (Call U E)) (call : Call U E) (post : List (Call U E))
    (hcalls : partials ++ final.toList = pre ++ call :: post) :
    (∃ r, (storeResult c v (storeAll c v s pre) call).2 = .ok r) ∧
      Served c v (storeResult c v (storeAll c v s pre) call).1 call.result := by
  have hq : call.faults.Quiet := h.quiet call (by rw [hcalls]; simp)
  suffices hserves : ∃ r, (storeResult c v (storeAll c v s pre) call).2 = .ok r ∧
      (storeResult c v (storeAll c v s pre) call).1.reference = some r ∧
      Live (storeResult c v (storeAll c v s pre) call).1 r ∧
      ∃ parts index, Laid c (storeResult c v (storeAll c v s pre) call).1 r parts index ∧
        index.rest = call.result.rest ∧ (call.isPartial = true → index.units = []) ∧
        units parts index = call.result.units by
    obtain ⟨r, hok, hsaved, hlive, _, _, hlaid, hrest, -, hunits⟩ := hserves
    exact ⟨⟨r, hok⟩, served_of_laid hsaved hlaid hlive hrest hunits⟩
  rcases script_call hcalls with ⟨rest, hparts⟩ | ⟨hparts, hfinal⟩
  · obtain ⟨hextend, huuid⟩ := h.next hparts
    have hpart := h.isPartial call (by simp [hparts])
    have hb : Between c v [] pre (storeAll c v s pre) :=
      h.between (h.between_nil (by simp)) pre (call :: rest) hparts
    refine between_serves hb hq (fun prev hprev _ => hextend prev hprev) (fun _ => huuid)
      fun hp => ?_
    simp [hpart] at hp
  · have hnot := h.isFinal call (by simp [hfinal])
    have hb : Between c v call.artifacts pre (storeAll c v s pre) :=
      h.between (h.between_nil (h.artifacts call (by simp [hfinal]))) pre [] (by simpa using hparts)
    refine between_serves hb hq (fun _ _ hp => ?_) (fun hp => ?_) fun _ _ hname => hname
    all_goals
      simp [hnot] at hp

/-! ## Two partial results and a final one -/

/-- One unit, then three, in shards of one unit. -/
def twoPartials : List (Call Nat Nat) :=
  [smallCall [1] 0 true "a" .none, smallCall [1, 2, 3] 1 true "b" .none]

/-- The final result has other units. -/
def lastCall : Call Nat Nat := smallCall [4, 5] 2 false "c" .none

theorem quiet_none : Faults.none.Quiet :=
  ⟨rfl, fun _ => rfl, rfl, rfl, fun _ => rfl, rfl⟩

/-- After the second partial result, and after the final one behind it. -/
theorem twoPartials_round_trip :
    Served plainCodec (smallService .postgres)
        (storeAll plainCodec (smallService .postgres) State.empty twoPartials) ⟨[1, 2, 3], 1⟩ ∧
      Served plainCodec (smallService .postgres)
        (storeAll plainCodec (smallService .postgres) State.empty (twoPartials ++ [lastCall]))
        ⟨[4, 5], 2⟩ := by
  have h : Script (State.empty : State Document Document) twoPartials (some lastCall) :=
    { isPartial := by decide
      isFinal := fun call hcall => by cases hcall; rfl
      quiet := fun call hcall => by
        have : call.faults = .none := by
          rcases List.mem_append.1 hcall with hcall | hcall
          · rcases List.mem_cons.1 hcall with rfl | hcall
            · rfl
            · rw [List.mem_singleton.1 hcall]
              rfl
          · rw [Option.toList_some, List.mem_singleton] at hcall
            rw [hcall]
            rfl
        exact this ▸ quiet_none
      extend := by
        refine .cons_cons ⟨[2, 3], rfl⟩ (.singleton _)
      uuids := by decide
      reference := rfl
      shards := fun _ => ⟨rfl, rfl⟩
      indexes := fun _ => ⟨rfl, rfl⟩
      artifacts := fun call hcall name hname => by
        cases hcall
        cases hname }
  have hpart := store_round_trips plainCodec (smallService .postgres) h
    [smallCall [1] 0 true "a" .none] (smallCall [1, 2, 3] 1 true "b" .none) [lastCall] rfl
  have hfinal := store_round_trips plainCodec (smallService .postgres) h twoPartials lastCall [] rfl
  exact ⟨hpart.2, hfinal.2⟩

end Scenara.Result
