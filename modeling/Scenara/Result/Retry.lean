import Scenara.Result.Failure
import Scenara.Result.RoundTrip

/-!
# Storing again after a failed partial publish

A failed call cleans up after itself: its objects are deleted and its rows marked deleted. The
shards of the next call are numbered from the manifest that survived, so it uses the same keys
again, and `track_object` compares the row it finds, mark included.
-/

namespace Scenara.Result

open Scenara.Core

variable {U E B D : Type} [DecidableEq D] {c : Codec U E B D} {v : Service E} {s : State B D}
  {call : Call U E} {r : Reference D}

/-- A partial reference holds a result, in partial shards only. -/
structure Held (c : Codec U E B D) (v : Service E) (s : State B D) : Prop where
  sound : Sound v s
  laid : ∀ r, s.reference = some r → r.indexStatus = .inPartial →
    ∃ parts index, Laid c s r parts index ∧ index.units = []
  shards : ∀ r, s.reference = some r → r.indexStatus = .inPartial →
    ∀ k ∈ r.shardKeys, k.isPartial = true

omit [DecidableEq D] in
theorem held_none (h : s.reference = none) : Held c v s := by
  refine ⟨fun r hr => ?_, fun r hr => ?_, fun r hr => ?_⟩ <;>
  · simp [h] at hr

theorem Held.behind (h : Held c v s) (call : Call U E) : ∃ carried, Behind c s call carried ∧
    ∀ envelope, (∃ q, Carries s call q) → result c v s = .ok envelope →
      envelope.units = carried.flatten := by
  by_cases hq : ∃ q, Carries s call q
  · obtain ⟨q, hq⟩ := hq
    obtain ⟨parts, index, hlaid, hindex⟩ := h.laid q hq.2.1 hq.2.2
    refine ⟨parts, .inl ⟨q, index, hq, hlaid, hindex⟩, fun envelope _ he => ?_⟩
    rw [hlaid.result hq.2.1] at he
    injection he with he
    rw [← he]
    simp [units, hindex]
  · exact ⟨[], .inr ⟨fun q hc => hq ⟨q, hc⟩, rfl⟩, fun _ hc => absurd hc hq⟩

omit [DecidableEq D] in
theorem exactPlan_of_performed (hc : Function.Injective c.sha256) {p : Plan U E D}
    {previous : Option (Reference D)} {b : Attempt B D}
    (h : Performed c v previous call p s b) : ExactPlan c s call p :=
  ⟨h.acceptsShards.imp fun _ _ ha => ha.exact hc, h.acceptsIndex.exact hc⟩

theorem laid_of_returned (hc : Function.Injective c.sha256) {carried : List (List U)}
    (hb : Behind c s call carried) (hok : (storeResult c v s call).2 = .ok r) :
    (storeResult c v s call).1.reference = some r ∧
      ∃ parts index, Laid c (storeResult c v s call).1 r parts index ∧
        index.rest = call.result.rest ∧ (call.isPartial = true → index.units = []) ∧
        (carried.flatten <+: call.result.units → units parts index = call.result.units) := by
  obtain ⟨p, b, hp, hperf, -⟩ := storeResult_saved hok
  refine laid_storeResult hb (fun p' hp' => ?_) hok
  rw [hp] at hp'
  injection hp' with hp'
  exact hp' ▸ exactPlan_of_performed hc hperf

theorem held_storeResult (hc : Function.Injective c.sha256) (h : Held c v s)
    (hindex : call.faults.index = false) : Held c v (storeResult c v s call).1 := by
  suffices hall : ∀ r, (storeResult c v s call).1.reference = some r → r.indexStatus = .inPartial →
      (∃ parts index, Laid c (storeResult c v s call).1 r parts index ∧ index.units = []) ∧
        ∀ k ∈ r.shardKeys, k.isPartial = true from
    ⟨sound_storeResult h.sound, fun r hr hs => (hall r hr hs).1, fun r hr hs => (hall r hr hs).2⟩
  intro r hr hstatus
  cases hout : (storeResult c v s call).2 with
  | error e =>
    -- nothing of the reference is discarded
    have hr' : s.reference = some r := by
      rcases storeResult_error hout with ⟨-, he⟩ | ⟨-, he⟩
      · rwa [he] at hr
      · rw [he] at hr
        rw [← grows_tried.reference, discard_reference_sub hr]
    obtain ⟨parts, index, hlaid, hnil⟩ := h.laid r hr' hstatus
    have hshards := h.shards r hr' hstatus
    refine ⟨⟨parts, index, ?_, hnil⟩, hshards⟩
    rcases storeResult_error hout with ⟨-, he⟩ | ⟨hg, he⟩
    · rwa [he]
    · have ht : ¬TakesOver c v s r call := fun ht => by
        have := hshards _ ht.2.2.1
        cases this
      refine hlaid.of_same (fun key hkey d hd => ?_) fun k hk d hd => ?_
      · rw [he, discard_objects_of_not_mem (index_not_written hr' hkey)]
        exact grows_tried.objects hd
      · rw [he, discard_objects_of_not_mem (shard_not_written h.sound hr' hg ht hk)]
        exact grows_tried.objects hd
  | ok =>
    obtain ⟨carried, hb, -⟩ := h.behind call
    obtain ⟨hsaved, parts, index, hlaid, -, hnil, -⟩ := laid_of_returned hc hb hout
    obtain ⟨p, b, hp, -, hr', -⟩ := storeResult_saved hout
    rw [hsaved] at hr
    injection hr with hr
    subst hr
    have hpart : call.isPartial = true := by
      rw [hr'] at hstatus
      by_contra hno
      simp [newReference, hno, hindex] at hstatus
    refine ⟨⟨parts, index, hlaid, hnil hpart⟩, fun k hk => ?_⟩
    have hk' : k ∈ p.shardKeys ++ p.newKeys := by
      rwa [hr'] at hk
    rcases List.mem_append.1 hk' with hold | hnew
    · cases planned hp with
      | carried q _ _ hq hs => exact h.shards q hq hs k hold
      | fresh | sharded | inline => cases hold
    · rw [(mem_keysFrom.1 hnew).1, planned_inPartial (planned hp), hpart]

theorem held_storeAll (hc : Function.Injective c.sha256) (calls : List (Call U E))
    (hindex : ∀ call ∈ calls, call.faults.index = false) (h : Held c v s) :
    Held c v (storeAll c v s calls) := by
  induction calls generalizing s with
  | nil => exact h
  | cons call _ ih =>
    exact ih (fun x hx => hindex x (List.mem_cons_of_mem _ hx))
      (held_storeResult hc h (hindex call List.mem_cons_self))

/-! ## The next call -/

/-- The call extends the published units. -/
def Extends (c : Codec U E B D) (v : Service E) (s : State B D) (call : Call U E) : Prop :=
  ∀ envelope, result c v s = .ok envelope → envelope.units <+: call.result.units

/-- No key the call writes is in the way: under each there is no object, or one with the same
checksum, and no row, or (in memory) the same one. -/
def Unblocked (c : Codec U E B D) (v : Service E) (s : State B D) (call : Call U E) : Prop :=
  ∀ p, plan v s.reference call = .ok p → Writable c v s s.reference call p

theorem Held.plan (h : Held c v s) (hext : Extends c v s call) :
    ∃ p, plan v s.reference call = .ok p := by
  refine exists_plan fun q hp hr hs => ?_
  obtain ⟨_, _, hlaid, -⟩ := h.laid q hr hs
  rw [hlaid.count]
  exact (hext _ (hlaid.result hr)).length_le

/-- **After any failures, the next call stores its result exactly when its keys are free.** The
earlier calls may fail in any put, read, `track_object` or save; the call extends the published
units and no backend call of it fails. -/
theorem retry_stores_iff (hc : Function.Injective c.sha256) (h₀ : s.reference = none)
    (calls : List (Call U E)) (hindex : ∀ call ∈ calls, call.faults.index = false)
    (hq : call.faults.Quiet) (hext : Extends c v (storeAll c v s calls) call) :
    ((∃ r, (storeResult c v (storeAll c v s calls) call).2 = .ok r) ∧
        result c v (storeResult c v (storeAll c v s calls) call).1 = .ok call.result) ↔
      Unblocked c v (storeAll c v s calls) call := by
  have hheld := held_storeAll hc calls hindex (held_none (c := c) (v := v) h₀)
  obtain ⟨p, hp⟩ := hheld.plan hext
  have hiff : (∃ r, (storeResult c v (storeAll c v s calls) call).2 = .ok r) ↔
      Unblocked c v (storeAll c v s calls) call := by
    rw [storeResult_ok_iff hq]
    constructor
    · rintro ⟨_, hp', hw⟩ _ hp''
      rw [hp'] at hp''
      injection hp'' with hp''
      exact hp'' ▸ hw
    · exact fun hfree => ⟨p, hp, hfree p hp⟩
  refine ⟨fun hstores => hiff.1 hstores.1, fun hfree => ⟨hiff.2 hfree, ?_⟩⟩
  obtain ⟨r, hok⟩ := hiff.2 hfree
  obtain ⟨carried, hb, hpublished⟩ := hheld.behind call
  obtain ⟨hsaved, _, _, hlaid, hrest, -, hunits⟩ := laid_of_returned hc hb hok
  have hprefix : carried.flatten <+: call.result.units := by
    rcases hb with ⟨q, _, hq, hqlaid, _⟩ | ⟨-, rfl⟩
    · have hres := hqlaid.result (v := v) hq.2.1
      have := hext _ hres
      rwa [hpublished _ ⟨q, hq⟩ hres] at this
    · exact List.nil_prefix
  rw [hlaid.result hsaved, hrest, hunits hprefix]

/-! ## A retry that works, and one that does not -/

/-- A partial call whose put of the index document fails. -/
def unputCall : Call Nat Nat :=
  smallCall [1] 0 true "a" { Faults.none with put := fun key => key = .result (.inPartial 1 "a") }

/-- A partial call whose `save_result_reference` fails. -/
def unsavedFirst : Call Nat Nat := smallCall [1] 0 true "a" { Faults.none with save := true }

/-- The retry: nothing fails. -/
def retryCall : Call Nat Nat := smallCall [1] 0 true "b" .none

/-- The first call fails before it has tracked anything. -/
theorem retry_after_put_failure :
    result plainCodec (smallService .memory) (storeResult plainCodec (smallService .memory)
        (storeAll plainCodec (smallService .memory) State.empty [unputCall]) retryCall).1 =
      .ok ⟨[1], 0⟩ := by
  have hempty : storeAll plainCodec (smallService .memory) State.empty [unputCall] = State.empty :=
    rfl
  have hext : Extends plainCodec (smallService .memory)
      (storeAll plainCodec (smallService .memory) State.empty [unputCall]) retryCall := by
    intro _ he
    have hnone : result plainCodec (smallService .memory)
        (storeAll plainCodec (smallService .memory) State.empty [unputCall]) = .ok ⟨[], 0⟩ := rfl
    injection he with he
    exact he ▸ List.nil_prefix
  refine ((retry_stores_iff (v := smallService .memory) (s := State.empty)
    Function.injective_id rfl [unputCall] (by decide) quiet_none hext).2 ?_).2
  exact fun p _ => writable_of_untouched
    ⟨fun _ _ => ⟨rfl, rfl⟩, ⟨rfl, rfl⟩, fun _ _ => rfl⟩

/-- **A failed publish poisons the next one**: the first call fails in `save_result_reference`, and
its handler marks the rows it tracked deleted. The retry meets no failure, extends nothing, and its
`track_object` raises, in either state store. -/
theorem retry_poisoned :
    (storeResult plainCodec (smallService .memory) State.empty unsavedFirst).2 = .error .backend ∧
      result plainCodec (smallService .memory)
        (storeResult plainCodec (smallService .memory) State.empty unsavedFirst).1 =
          .ok ⟨[], 0⟩ ∧
      (storeResult plainCodec (smallService .memory)
        (storeResult plainCodec (smallService .memory) State.empty unsavedFirst).1 retryCall).2 =
          .error (.stateConflict "object retention record already exists") ∧
      (storeResult plainCodec (smallService .postgres)
        (storeResult plainCodec (smallService .postgres) State.empty unsavedFirst).1 retryCall).2 =
          .error (.stateConflict "object retention record already exists") := by
  refine ⟨by decide, rfl, by decide +kernel, by decide +kernel⟩

end Scenara.Result
