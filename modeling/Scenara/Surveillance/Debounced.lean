import Scenara.Core.Parties
import Scenara.Surveillance.Statements

/-!
# Concurrent alerts are debounced

From a debounce row on the lock of the row does it (`Guarded`). Where there is none, one call at
most may have missed it, while nobody else moves (`Opening`).
-/

namespace Scenara.Surveillance.Postgres

open Scenara.Core

variable {s s' : State} {call : Call} {act : Act} {hit : Hit} {store store' : Store} {i j : Nat}
  {phase phase' : Phase} {found : Option DebounceState} {emitted : List Emission}
  {folds : List String}

/-! ## All calls -/

/-- The tables are sound, every call holds what it should and no call raised. -/
structure Inv (s : State) : Prop where
  sound : Sound s.store.view s.emitted s.folds
  calls : ∀ (i : Nat) (call : Call), s.calls[i]? = some call → call.phase.Ok call.hit i s.store
  idle : ∀ i, s.calls.length ≤ i → s.store.debounce.Free i ∧ s.store.Clean i
  ids : ∀ (i j : Nat) (c d : Call), s.calls[i]? = some c → s.calls[j]? = some d →
    c.hit.alert.alertId = d.hit.alert.alertId → i = j
  named : ∀ call ∈ s.calls, call.hit.alert.alertId ≠ ""
  quiet : ∀ call ∈ s.calls, ∀ exception, call.phase ≠ .raised exception

theorem keyed_start (initial : Initial) (id : String) (alert : AlertRecord)
    (h : initial.store.view.alerts id = some alert) : alert.alertId = id := by
  have hfind : initial.stored.find? (fun alert => alert.alertId = id) = some alert := h
  simpa using List.find?_some hfind

theorem indexed_start (initial : Initial) (key id : String)
    (h : initial.store.view.index key = some id) : (initial.store.view.alerts id).isSome := by
  obtain ⟨alert, halert, rfl⟩ := Option.map_eq_some_iff.1 h
  exact List.find?_isSome.2 ⟨alert, List.mem_of_find?_eq_some halert, decide_eq_true rfl⟩

theorem debounce_start (initial : Initial) :
    initial.store.view.debounce = initial.record.map Prod.fst := rfl

theorem sound_start (initial : Initial) :
    Sound initial.store.view (State.start initial).emitted (State.start initial).folds := by
  have hview := debounce_start initial
  have hkeyed := keyed_start initial
  have hindexed := indexed_start initial
  unfold State.start
  cases hrecord : initial.record with
  | none =>
    refine ⟨hkeyed, hindexed, fun debounce hdebounce => ?_, nofun, nofun, .nil, nofun⟩
    rw [hview, hrecord] at hdebounce
    cases hdebounce
  | some r =>
    obtain ⟨_, alert⟩ := r
    obtain ⟨hlast, hid, hstored⟩ := initial.last _ hrecord
    have hcounted : 0 < alert.occurrenceCount := initial.counted _ hrecord
    refine ⟨hkeyed, hindexed, fun state hstate => ?_, ?_, fun id hmem => ?_,
      List.pairwise_singleton _ _, ?_⟩
    · rw [hview, hrecord] at hstate
      cases hstate
      exact ⟨⟨_, List.mem_singleton_self _, hlast, hid⟩, List.forall_mem_singleton.2 le_rfl⟩
    · refine List.forall_mem_singleton.2 ⟨alert, hstored, ?_⟩
      have hcount : (List.replicate (alert.occurrenceCount - 1) alert.alertId).count alert.alertId =
          alert.occurrenceCount - 1 := List.count_replicate_self
      show _ = 1 + List.count alert.alertId (List.replicate _ alert.alertId ++ [])
      rw [List.append_nil, hcount]
      omega
    · have hmem : id ∈ List.replicate (alert.occurrenceCount - 1) alert.alertId ++ [] := hmem
      rw [List.append_nil] at hmem
      rw [(List.mem_replicate.1 hmem).2]
      exact Option.isSome_iff_exists.2 ⟨alert, hstored⟩
    · exact List.forall_mem_singleton.2 (initial.cooldown _ hrecord)

theorem inv_start (initial : Initial) : Inv (.start initial) where
  sound := sound_start initial
  calls _ _ hc := by cases hc
  idle i _ := ⟨Row.free_stored _ i, fun _ => Row.free_stored _ i, fun _ => Row.free_stored _ i⟩
  ids _ _ _ _ hc := by cases hc
  named _ hc := absurd hc List.not_mem_nil
  quiet _ hc := absurd hc List.not_mem_nil

theorem inv_call (hs : Inv s) (hunused : s.unused hit.alert.alertId = true) :
    Inv { s with calls := s.calls ++ [⟨hit, .begun⟩] } := by
  simp only [State.unused, Bool.and_eq_true, decide_eq_true_eq, Option.isNone_iff_eq_none,
    List.all_eq_true] at hunused
  obtain ⟨⟨hid, hnew⟩, hother⟩ := hunused
  refine ⟨hs.sound, fun j d hd => ?_, fun j hj => ?_, fun j k c d hc hd he => ?_, ?_, ?_⟩
  · rcases Parties.getElem?_append_cases hd with ⟨rfl, rfl⟩ | hd
    · obtain ⟨hfree, hclean⟩ := hs.idle _ le_rfl
      exact ⟨hfree, hclean, hnew⟩
    · exact hs.calls j d hd
  · rw [List.length_append] at hj
    exact hs.idle j (by omega)
  · rcases Parties.getElem?_append_cases hc with ⟨rfl, rfl⟩ | hc' <;>
      rcases Parties.getElem?_append_cases hd with ⟨rfl, rfl⟩ | hd'
    · rfl
    · exact absurd he.symm (hother d (List.mem_of_getElem? hd'))
    · exact absurd he (hother c (List.mem_of_getElem? hc'))
    · exact hs.ids j k c d hc' hd' he
  · simp only [List.forall_mem_append, List.forall_mem_singleton]
    exact ⟨hs.named, hid⟩
  · simp only [List.forall_mem_append, List.forall_mem_singleton]
    exact ⟨hs.quiet, nofun⟩

theorem inv_set (hs : Inv s) (hcall : s.calls[i]? = some call)
    (hmoved : Moved i call.hit s.store store') (hok : phase'.Ok call.hit i store')
    (hquiet : ∀ exception, phase' ≠ .raised exception) (hsound : Sound store'.view emitted folds) :
    Inv ⟨store', s.calls.set i ⟨call.hit, phase'⟩, emitted, folds⟩ := by
  have hi : i < s.calls.length := (List.getElem?_eq_some_iff.1 hcall).1
  have hset : ∀ j d, (s.calls.set i ⟨call.hit, phase'⟩)[j]? = some d →
      ∃ c, s.calls[j]? = some c ∧ c.hit = d.hit ∧
      (j = i ∧ d = ⟨call.hit, phase'⟩ ∨ j ≠ i ∧ c = d) := by
    intro j d hd
    rcases Parties.getElem?_set_cases hd with ⟨rfl, rfl⟩ | ⟨hij, hd⟩
    · exact ⟨call, hcall, rfl, .inl ⟨rfl, rfl⟩⟩
    · exact ⟨d, hd, rfl, .inr ⟨hij, rfl⟩⟩
  refine ⟨hsound, fun j d hd => ?_, fun j hj => ?_, fun j k c d hc hd hid => ?_, ?_, ?_⟩
  · obtain ⟨c, hc, -, ⟨rfl, rfl⟩ | ⟨hij, rfl⟩⟩ := hset j d hd
    · exact hok
    · exact (hs.calls j c hc).moved hmoved hij fun hid => hij (hs.ids j i c call hc hcall hid)
  · rw [List.length_set] at hj
    obtain ⟨hfree, hclean⟩ := hs.idle j hj
    have hij : j ≠ i := fun he => absurd hi (not_lt.2 (he ▸ hj))
    exact ⟨hmoved.debounce.free hij hfree, hclean.moved hmoved hij⟩
  · obtain ⟨c', hc', hchit, -⟩ := hset j c hc
    obtain ⟨d', hd', hdhit, -⟩ := hset k d hd
    exact hs.ids j k c' d' hc' hd' (by rw [hchit, hdhit, hid])
  · intro d hd
    obtain ⟨j, hj⟩ := List.mem_iff_getElem?.1 hd
    obtain ⟨c, hc, hhit, -⟩ := hset j d hj
    exact hhit ▸ hs.named c (List.mem_of_getElem? hc)
  · intro d hd
    obtain ⟨j, hj⟩ := List.mem_iff_getElem?.1 hd
    obtain ⟨c, hc, -, ⟨-, rfl⟩ | ⟨-, rfl⟩⟩ := hset j d hj
    · exact hquiet
    · exact hs.quiet c (List.mem_of_getElem? hc)

/-! ## Sighted steps -/

/-- Who found no debounce row is not late: no alert has the key that it inserts, and every cooldown
is over when its alert was triggered. No call waits for itself. -/
def Sighted (s : State) : Act → Prop
  | .start _ => True
  | .advance i => ∀ call ∈ s.calls[i]?, match call.phase with
    | .inserting none => s.store.view.index call.hit.alert.idempotencyKey = none
    | .closing none ⟨_, _, true⟩ _ => ∀ e ∈ s.emitted, e.cooldownUntil ≤ call.hit.alert.triggeredAt
    | _ => True
  | .deadlock i => s.deadlocked i = false

theorem sound_commit {result : AlertWriteResult} {fold : Bool} (hs : Inv s)
    (hcall : s.calls[i]? = some ⟨hit, .closing found result fold⟩)
    (hpast : found = none → result.emitted = true →
      ∀ e ∈ s.emitted, e.cooldownUntil ≤ hit.alert.triggeredAt) :
    Sound (s.store.commit i).view
      (s.emitted ++ (⟨hit, .closing found result fold⟩ : Call).emits)
      (s.folds ++ (⟨hit, .closing found result fold⟩ : Call).folds) := by
  obtain ⟨-, heffect⟩ := closing_cases (hs.calls i _ hcall)
  obtain ⟨alert, event, _⟩ := result
  rcases heffect with ⟨rfl, rfl, hview, hnew, hfound⟩ |
    ⟨rfl, rfl, current, existing, hcurrent, hexisting, hid, hview⟩ | ⟨rfl, rfl, hview⟩
  · have hfolds : (⟨hit, .closing found ⟨alert, event, true⟩ false⟩ : Call).folds = [] := rfl
    rw [hview, hfolds, List.append_nil]
    refine hs.sound.emit hnew (hs.named _ (List.mem_of_getElem? hcall)) ?_
    cases found with
    | none => exact hpast rfl rfl
    | some current =>
      obtain ⟨hdebounce, hle⟩ := hfound current rfl
      exact fun e he => ((hs.sound.last current hdebounce).2 e he).trans hle
  · have hemits : (⟨hit, .closing found ⟨alert, event, false⟩ true⟩ : Call).emits = [] := rfl
    have hfolds : (⟨hit, .closing found ⟨alert, event, false⟩ true⟩ : Call).folds =
        [existing.alertId] := congrArg (fun id => [id]) hid
    rw [hview, hemits, hfolds, List.append_nil]
    exact hs.sound.fold hcurrent hexisting hit
  · have hemits : (⟨hit, .closing found ⟨alert, event, false⟩ false⟩ : Call).emits = [] := rfl
    have hfolds : (⟨hit, .closing found ⟨alert, event, false⟩ false⟩ : Call).folds = [] := rfl
    rw [hview, hemits, hfolds, List.append_nil, List.append_nil]
    exact hs.sound

theorem emits_of_open (hopen : ∀ found result fold, call.phase ≠ .closing found result fold) :
    call.emits = [] ∧ call.folds = [] := by
  obtain ⟨_, phase⟩ := call
  cases phase with
  | closing found result fold => exact absurd rfl (hopen found result fold)
  | _ => exact ⟨rfl, rfl⟩

theorem inv_step (hs : Inv s) (hsighted : Sighted s act) (hstep : step s act = some s') :
    Inv s' := by
  cases act with
  | start =>
    obtain ⟨hunused, hstep⟩ := Option.ite_none_right_eq_some.1 hstep
    cases hstep
    exact inv_call hs hunused
  | deadlock i =>
    obtain ⟨_, _, hstep⟩ := Option.bind_eq_some_iff.1 hstep
    simp [show s.deadlocked i = false from hsighted] at hstep
  | advance i =>
    obtain ⟨call, hcall, hstep⟩ := Option.bind_eq_some_iff.1 hstep
    obtain ⟨⟨store', phase'⟩, hstatement, hstep⟩ := Option.bind_eq_some_iff.1 hstep
    cases hstep
    have hok := hs.calls i call hcall
    have hsighted := hsighted call hcall
    by_cases hclosing : ∃ found result fold, call.phase = .closing found result fold
    · obtain ⟨found, result, fold, hphase⟩ := hclosing
      obtain ⟨_, phase⟩ := call
      obtain rfl : phase = .closing found result fold := hphase
      cases hstatement
      refine inv_set hs hcall (closing_cases hok).1 (free_commit s.store i) (fun _ => nofun)
        (sound_commit hs hcall ?_)
      rintro rfl hemitted
      obtain ⟨_, _, isEmitted⟩ := result
      obtain rfl : isEmitted = true := hemitted
      exact hsighted
    · have hopen : ∀ found result fold, call.phase ≠ .closing found result fold :=
        fun found result fold h => hclosing ⟨found, result, fold, h⟩
      obtain ⟨hemits, hfolds⟩ := emits_of_open hopen
      have hnext : Next call.hit i s.store store' call.phase phase' := by
        refine statement_next hok hs.sound (fun found hphase => ?_) hopen hstatement
        rw [hphase] at hok hsighted
        cases found with
        | none => exact hsighted
        | some => exact hok.2.2.2 rfl
      rw [hemits, hfolds, List.append_nil, List.append_nil]
      exact inv_set hs hcall hnext.moved hnext.ok hnext.leads.quiet (hnext.view ▸ hs.sound)

/-! ## Runs from a debounce row -/

/-- There is a debounce row, and every call that looked for it found it. -/
structure Guarded (s : State) : Prop where
  inv : Inv s
  row : s.store.debounce.committed.isSome
  sees : ∀ call ∈ s.calls, call.phase.blind = false

theorem Phase.Ok.holds (h : phase.Ok hit i store) (hsees : phase.blind = false) :
    store.Clean i ∨ ∃ w, store.debounce.lock = some (i, w) := by
  cases phase with
  | begun | cooling | checking | inserting => exact .inl h.2.1
  | folding | folded => exact .inr ⟨_, by rw [h.1]⟩
  | upserting found =>
    cases found with
    | none => cases hsees
    | some => exact .inr ⟨_, by rw [h.1.1]⟩
  | recording => exact .inr ⟨_, h.1⟩
  | closing _ result fold =>
    obtain ⟨_, _, isEmitted⟩ := result
    cases isEmitted with
    | true => exact .inr ⟨_, h.2.2.1⟩
    | false =>
      cases fold with
      | true =>
        obtain ⟨_, _, -, hlocked, -⟩ := h
        exact .inr ⟨_, by rw [hlocked]⟩
      | false => exact .inl h.2
  | returned | raised => exact .inl h.2

theorem Guarded.waitsFor (h : Guarded s) (hwaits : s.waitsFor i = some j) :
    j ≠ i ∧ ∃ w, s.store.debounce.lock = some (j, w) := by
  have hlock : ∀ k, (∃ id w, (s.store.alerts id).lock = some (k, w)) ∨
      (∃ key w, (s.store.index key).lock = some (k, w)) →
      ∃ w, s.store.debounce.lock = some (k, w) := by
    intro k hheld
    have hclean : ¬s.store.Clean k := by
      rintro hclean
      rcases hheld with ⟨id, w, hw⟩ | ⟨key, w, hw⟩
      · exact hclean.alerts id w hw
      · exact hclean.index key w hw
    cases hk : s.calls[k]? with
    | none => exact absurd (h.inv.idle k (List.getElem?_eq_none_iff.1 hk)).2 hclean
    | some call =>
      exact ((h.inv.calls k call hk).holds (h.sees call (List.mem_of_getElem? hk))).resolve_left
        hclean
  obtain ⟨⟨_, phase⟩, -, hwaits⟩ := Option.bind_eq_some_iff.1 hwaits
  have hdebounce : s.store.debounce.holder i = some j →
      j ≠ i ∧ ∃ w, s.store.debounce.lock = some (j, w) := Row.lock_of_holder
  have halert : ∀ id, (s.store.alerts id).holder i = some j →
      j ≠ i ∧ ∃ w, s.store.debounce.lock = some (j, w) := fun id hid =>
    (Row.lock_of_holder hid).imp_right fun ⟨w, hw⟩ => hlock j (.inl ⟨id, w, hw⟩)
  have hindex : ∀ key, (s.store.index key).holder i = some j →
      j ≠ i ∧ ∃ w, s.store.debounce.lock = some (j, w) := fun key hkey =>
    (Row.lock_of_holder hkey).imp_right fun ⟨w, hw⟩ => hlock j (.inr ⟨key, w, hw⟩)
  cases phase with
  | begun =>
    obtain ⟨-, -, hwaits⟩ := Option.bind_eq_some_iff.1 hwaits
    exact hdebounce hwaits
  | cooling =>
    obtain ⟨-, -, hwaits⟩ := Option.bind_eq_some_iff.1 hwaits
    exact halert _ hwaits
  | folding => exact halert _ hwaits
  | folded | upserting => exact hdebounce hwaits
  | inserting => exact hindex _ hwaits
  | _ => cases hwaits

/-- **No deadlock**: who holds the debounce row waits for nobody. -/
theorem Guarded.not_deadlocked (h : Guarded s) (i : Nat) : s.deadlocked i = false := by
  rw [State.deadlocked, List.any_eq_false]
  intro n _
  rw [decide_eq_true_eq, Function.iterate_succ_apply]
  have hnone : ∀ n, (fun o : Option Nat => o.bind s.waitsFor)^[n] none = none :=
    Function.iterate_fixed rfl
  rw [Option.bind_some]
  cases hi : s.waitsFor i with
  | none =>
    rw [hnone]
    exact nofun
  | some j =>
    obtain ⟨hij, w, hw⟩ := h.waitsFor hi
    have hj : s.waitsFor j = none := by
      by_contra hsome
      obtain ⟨k, hk⟩ := Option.ne_none_iff_exists'.1 hsome
      obtain ⟨hkj, _, hw'⟩ := h.waitsFor hk
      rw [hw] at hw'
      exact hkj (congrArg Prod.fst (Option.some.inj hw')).symm
    cases n with
    | zero => exact fun he => hij (Option.some.inj he)
    | succ n =>
      rw [Function.iterate_succ_apply, Option.bind_some, hj, hnone]
      exact nofun

theorem Guarded.sighted (h : Guarded s) (act : Act) : Sighted s act := by
  cases act with
  | start => trivial
  | deadlock i => exact h.not_deadlocked i
  | advance i =>
    intro call hcall
    have hsees := h.sees call (List.mem_of_getElem? hcall)
    split
    next hphase =>
      rw [hphase] at hsees
      cases hsees
    next hphase =>
      rw [hphase] at hsees
      cases hsees
    next => trivial

theorem sees_statement (h : phase.Ok hit i store) (hsound : Sound store.view emitted folds)
    (hsees : phase.blind = false) (hrow : store.debounce.committed.isSome)
    (hstep : statement hit i store phase = some (store', phase')) :
    store'.debounce.committed.isSome ∧ phase'.blind = false := by
  by_cases hclosing : ∃ found result fold, phase = .closing found result fold
  · obtain ⟨found, result, fold, rfl⟩ := hclosing
    cases hstep
    refine ⟨?_, rfl⟩
    rw [show (store.commit i).debounce.committed = store.debounce.visible i from
      Row.commit_committed _ _, Row.visible]
    cases store.debounce.written i with
    | none => exact hrow
    | some w => rfl
  · have hnext := statement_next h hsound (fun found hphase => by
      subst hphase
      cases found with
      | none => cases hsees
      | some => exact h.2.2.2 rfl)
      (fun found result fold he => hclosing ⟨found, result, fold, he⟩) hstep
    rw [show store'.debounce.committed = store.debounce.committed from
      congrArg View.debounce hnext.view]
    exact ⟨hrow, hnext.leads.sees hsees hrow⟩

theorem guarded_step (h : Guarded s) (hstep : step s act = some s') : Guarded s' := by
  have hinv := inv_step h.inv (h.sighted act) hstep
  cases act with
  | start =>
    obtain ⟨-, hstep⟩ := Option.ite_none_right_eq_some.1 hstep
    cases hstep
    refine ⟨hinv, h.row, ?_⟩
    simp only [List.forall_mem_append, List.forall_mem_singleton]
    exact ⟨h.sees, rfl⟩
  | deadlock i =>
    obtain ⟨_, -, hstep⟩ := Option.bind_eq_some_iff.1 hstep
    simp [h.not_deadlocked i] at hstep
  | advance i =>
    obtain ⟨call, hcall, hstep⟩ := Option.bind_eq_some_iff.1 hstep
    obtain ⟨⟨_, _⟩, hstatement, hstep⟩ := Option.bind_eq_some_iff.1 hstep
    cases hstep
    obtain ⟨hrow, hsees⟩ := sees_statement (h.inv.calls i call hcall) h.inv.sound
      (h.sees call (List.mem_of_getElem? hcall)) h.row hstatement
    refine ⟨hinv, hrow, fun d hd => ?_⟩
    rcases List.mem_or_eq_of_mem_set hd with hd | rfl
    · exact h.sees d hd
    · exact hsees

theorem guarded_start (initial : Initial) (h : initial.record.isSome) :
    Guarded (.start initial) where
  inv := inv_start initial
  row := by
    rwa [show (State.start initial).store.debounce.committed = initial.record.map Prod.fst from rfl,
      Option.isSome_map]
  sees _ hc := absurd hc List.not_mem_nil

/-! ## Runs from none -/

/-- Call `j` has found no debounce row, and has not ended. -/
def State.blind (s : State) (j : Nat) : Bool := s.calls[j]?.any fun call => call.phase.blind

/-- Between the SELECT of a call that finds no debounce row and its COMMIT nobody else takes a
statement. -/
def Alone (s : State) : Act → Prop
  | .advance i => ∀ j < s.calls.length, s.blind j = true → j = i
  | .start _ | .deadlock _ => True

instance (s : State) : DecidablePred (Alone s)
  | .start _ | .deadlock _ => isTrue trivial
  | .advance i => inferInstanceAs (Decidable (∀ j < s.calls.length, s.blind j = true → j = i))

/-- There is no debounce row. Every call has not begun, is over, or has missed the row; the last is
one call at most, and no alert has the key that it is to insert. -/
structure Opening (s : State) : Prop where
  inv : Inv s
  row : s.store.debounce.committed = none
  emitted : s.emitted = []
  phases : ∀ call ∈ s.calls,
    call.phase = .begun ∨ (∃ result, call.phase = .returned result) ∨ call.phase.blind = true
  one : ∀ i j, s.blind i = true → s.blind j = true → i = j
  unique : ∀ call ∈ s.calls, call.phase = .inserting none →
    s.store.view.index call.hit.alert.idempotencyKey = none

theorem blind_iff : s.blind i = true ↔ ∃ call, s.calls[i]? = some call ∧ call.phase.blind = true :=
  Option.any_eq_true _ _

theorem blind_set (hi : i < s.calls.length) {calls : List Call}
    (hcalls : calls = s.calls.set i ⟨hit, phase'⟩) {t : State} (ht : t.calls = calls) :
    t.blind j = true ↔ j = i ∧ phase'.blind = true ∨ j ≠ i ∧ s.blind j = true := by
  unfold State.blind
  rw [ht, hcalls]
  by_cases hji : j = i
  · subst hji
    rw [List.getElem?_set_self hi]
    simp
  · rw [List.getElem?_set_ne (Ne.symm hji)]
    simp [hji]

/-- Nobody waits: the one call that has missed the row is the only one that holds anything. -/
theorem Opening.waitsFor (h : Opening s) (i : Nat) : s.waitsFor i = none := by
  by_contra hsome
  obtain ⟨j, hwaits⟩ := Option.ne_none_iff_exists'.1 hsome
  obtain ⟨⟨hit, phase⟩, hcall, hwaits⟩ := Option.bind_eq_some_iff.1 hwaits
  have hfree : ∀ k, k ≠ i → phase.blind = true → s.store.debounce.Free k ∧ s.store.Clean k := by
    intro k hki hblind
    cases hk : s.calls[k]? with
    | none => exact h.inv.idle k (List.getElem?_eq_none_iff.1 hk)
    | some call =>
      have hok := h.inv.calls k call hk
      rcases h.phases call (List.mem_of_getElem? hk) with hbegun | ⟨_, hreturned⟩ | hother
      · rw [hbegun] at hok
        exact ⟨hok.1, hok.2.1⟩
      · rw [hreturned] at hok
        exact hok
      · exact absurd (h.one k i (blind_iff.2 ⟨call, hk, hother⟩) (blind_iff.2 ⟨_, hcall, hblind⟩))
          hki
  rcases h.phases _ (List.mem_of_getElem? hcall) with hphase | ⟨_, hphase⟩ | hblind
  · -- There is no row to wait for.
    obtain rfl : phase = .begun := hphase
    obtain ⟨_, hvisible, -⟩ := Option.bind_eq_some_iff.1 hwaits
    have hfree : s.store.debounce.Free i := (h.inv.calls i _ hcall).1
    rw [Row.visible_of_free hfree, h.row] at hvisible
    cases hvisible
  · obtain rfl : phase = .returned _ := hphase
    cases hwaits
  · cases phase with
    | begun | cooling | folding | folded => cases hblind
    | inserting =>
      obtain ⟨hji, w, hlock⟩ := Row.lock_of_holder hwaits
      exact (hfree j hji hblind).2.index _ w hlock
    | upserting =>
      obtain ⟨hji, w, hlock⟩ := Row.lock_of_holder hwaits
      exact (hfree j hji hblind).1 w hlock
    | _ => cases hwaits

theorem Opening.not_deadlocked (h : Opening s) (i : Nat) : s.deadlocked i = false := by
  rw [State.deadlocked, List.any_eq_false]
  intro n _
  have hnone : (fun o : Option Nat => o.bind s.waitsFor)^[n] none = none :=
    Function.iterate_fixed rfl n
  rw [decide_eq_true_eq, Function.iterate_succ_apply, Option.bind_some, h.waitsFor i, hnone]
  exact nofun

theorem Opening.sighted (h : Opening s) (act : Act) : Sighted s act := by
  cases act with
  | start => trivial
  | deadlock i => exact h.not_deadlocked i
  | advance i =>
    intro call hcall
    split
    next hphase => exact h.unique call (List.mem_of_getElem? hcall) hphase
    next =>
      rw [h.emitted]
      exact nofun
    next => trivial

theorem blind_statement (hblind : phase.blind = true)
    (hopen : ∀ found result fold, phase ≠ .closing found result fold)
    (hstep : statement hit i store phase = some (store', phase')) :
    phase'.blind = true ∨ ∃ exception, phase' = .raised exception := by
  cases phase with
  | begun | cooling | folding | folded | returned | raised => cases hblind
  | closing found result fold => exact absurd rfl (hopen found result fold)
  | checking found =>
    unfold statement at hstep
    cases hduplicate : store.duplicate i hit.alert.idempotencyKey with
    | none | some =>
      rw [hduplicate] at hstep
      cases hstep
      exact .inl hblind
  | inserting found =>
    obtain ⟨result, -, hstep⟩ := Option.bind_eq_some_iff.1 hstep
    cases result with
    | ok =>
      cases hstep
      exact .inl hblind
    | error =>
      cases hstep
      exact .inr ⟨_, rfl⟩
  | upserting found =>
    obtain ⟨_, -, hstep⟩ := Option.bind_eq_some_iff.1 hstep
    cases hstep
    exact .inl hblind
  | recording found =>
    cases hstep
    exact .inl hblind

theorem checked_statement (h : phase.Ok hit i store) (hsound : Sound store.view emitted folds)
    (hblind : phase.blind = true)
    (hstep : statement hit i store phase = some (store', .inserting found)) :
    store.view.index hit.alert.idempotencyKey = none := by
  cases phase with
  | begun | cooling | folding | folded | returned | raised => cases hblind
  | closing => cases hstep
  | checking =>
    unfold statement at hstep
    cases hduplicate : store.duplicate i hit.alert.idempotencyKey with
    | none => exact index_of_duplicate h.2.1 hsound hduplicate
    | some =>
      rw [hduplicate] at hstep
      cases hstep
  | inserting =>
    obtain ⟨result, -, hstep⟩ := Option.bind_eq_some_iff.1 hstep
    cases result <;> cases hstep
  | upserting =>
    obtain ⟨_, -, hstep⟩ := Option.bind_eq_some_iff.1 hstep
    cases hstep
  | recording => cases hstep

theorem begun_statement (hfree : store.debounce.Free i) (hrow : store.debounce.committed = none)
    (hstep : statement hit i store .begun = some (store', phase')) : phase' = .checking none := by
  obtain ⟨⟨_, _⟩, hselect, hstep⟩ := Option.bind_eq_some_iff.1 hstep
  obtain ⟨⟨_, _⟩, hselected, hselect⟩ := Option.bind_eq_some_iff.1 hselect
  cases hselect
  cases hstep
  obtain ⟨rfl, -⟩ := Row.selectForUpdate_of_free hfree hselected
  rw [hrow]
  rfl

theorem blind_of_alone (halone : Alone s (.advance i)) (hji : j ≠ i) : s.blind j = false := by
  rw [← Bool.not_eq_true]
  intro hj
  obtain ⟨call, hget, -⟩ := blind_iff.1 hj
  exact hji (halone j (List.getElem?_eq_some_iff.1 hget).1 hj)

theorem Opening.moved (h : Opening s) (halone : Alone s (.advance i)) (hi : i < s.calls.length)
    (hinv : Inv s') (hcalls : s'.calls = s.calls.set i ⟨hit, phase'⟩)
    (hview : s'.store.view = s.store.view) (hemitted : s'.emitted = [])
    (hphase : (∃ result, phase' = .returned result) ∨ phase'.blind = true)
    (hunique : phase' = .inserting none → s.store.view.index hit.alert.idempotencyKey = none) :
    Opening s' := by
  have hone : ∀ j, s'.blind j = true → j = i := fun j hj => by
    rcases (blind_set hi hcalls rfl).1 hj with ⟨hji, -⟩ | ⟨hji, hj⟩
    · exact hji
    · exact absurd ((blind_of_alone halone hji).symm.trans hj) Bool.false_ne_true
  refine ⟨hinv, (congrArg View.debounce hview).trans h.row, hemitted, fun call hmem => ?_,
    fun j k hj hk => (hone j hj).trans (hone k hk).symm, fun call hmem hinserting => ?_⟩
  · rw [hcalls] at hmem
    rcases List.mem_or_eq_of_mem_set hmem with hmem | rfl
    · exact h.phases call hmem
    · exact .inr hphase
  · rw [hcalls] at hmem
    rw [congrArg View.index hview]
    rcases List.mem_or_eq_of_mem_set hmem with hmem | rfl
    · exact h.unique call hmem hinserting
    · exact hunique hinserting

theorem Opening.closed {result : AlertWriteResult} {fold : Bool} (h : Opening s)
    (halone : Alone s (.advance i)) (hcall : s.calls[i]? = some ⟨hit, .closing found result fold⟩)
    (hinv : Inv s') (hstore : s'.store = s.store.commit i)
    (hcalls : s'.calls = s.calls.set i ⟨hit, .returned result⟩)
    (hemitted : s'.emitted = s.emitted ++ (Call.mk hit (.closing found result fold)).emits) :
    Opening s' ∨ Guarded s' := by
  rcases (closing_cases (h.inv.calls i _ hcall)).2 with ⟨-, -, hview, -⟩ | ⟨-, -, _, _, hrow, -⟩ |
    ⟨hfolded, -, hview⟩
  · refine .inr ⟨hinv, ?_, fun call hmem => ?_⟩
    · rw [hstore, show (s.store.commit i).debounce.committed = some hit.debounce from
        congrArg View.debounce hview]
      rfl
    · rw [hcalls] at hmem
      obtain ⟨k, hk⟩ := List.mem_iff_getElem?.1 hmem
      rcases Parties.getElem?_set_cases hk with ⟨rfl, rfl⟩ | ⟨hki, hk⟩
      · rfl
      · exact (congrArg (Option.any _) hk).symm.trans (blind_of_alone halone hki)
  · rw [show s.store.view.debounce = none from h.row] at hrow
    cases hrow
  · refine .inl (h.moved halone (List.getElem?_eq_some_iff.1 hcall).1 hinv hcalls
      ((congrArg Store.view hstore).trans hview) ?_ (.inl ⟨result, rfl⟩) nofun)
    obtain ⟨_, _, isEmitted⟩ := result
    obtain rfl : isEmitted = false := hfolded
    exact hemitted.trans ((List.append_nil _).trans h.emitted)

theorem Opening.continued (h : Opening s) (halone : Alone s (.advance i))
    (hcall : s.calls[i]? = some ⟨hit, phase⟩)
    (hopen : ∀ found result fold, phase ≠ .closing found result fold)
    (hstatement : statement hit i s.store phase = some (store', phase')) (hinv : Inv s')
    (hstore : s'.store = store') (hcalls : s'.calls = s.calls.set i ⟨hit, phase'⟩)
    (hemitted : s'.emitted = s.emitted ++ (Call.mk hit phase).emits) : Opening s' := by
  have hi := (List.getElem?_eq_some_iff.1 hcall).1
  have hok := h.inv.calls i _ hcall
  have hmem := List.mem_of_getElem? hcall
  have hnext : Next hit i s.store store' phase phase' :=
    statement_next hok h.inv.sound (fun found hphase => by
      subst hphase
      cases found with
      | none => exact h.unique _ hmem rfl
      | some => exact hok.2.2.2 rfl) hopen hstatement
  have hemits : (Call.mk hit phase).emits = [] ∧ _ := emits_of_open hopen
  rw [hemits.1, List.append_nil, h.emitted] at hemitted
  have hmoved := h.moved halone hi hinv hcalls ((congrArg Store.view hstore).trans hnext.view)
    hemitted
  rcases h.phases _ hmem with hphase | ⟨_, hphase⟩ | hblind
  · obtain rfl : phase = .begun := hphase
    obtain rfl := begun_statement hok.1 h.row hstatement
    exact hmoved (.inr rfl) nofun
  · obtain rfl : phase = .returned _ := hphase
    cases hstatement
  · refine hmoved (.inr ?_) ?_
    · rcases blind_statement hblind hopen hstatement with hblind | ⟨exception, hraised⟩
      · exact hblind
      · exact absurd hraised (hnext.leads.quiet exception)
    · rintro rfl
      exact checked_statement hok h.inv.sound hblind hstatement

/-- **A step** of a run in which those who miss the row are alone keeps it that way, or commits the
row. -/
theorem opening_step (h : Opening s) (halone : Alone s act) (hstep : step s act = some s') :
    Opening s' ∨ Guarded s' := by
  have hinv := inv_step h.inv (h.sighted act) hstep
  cases act with
  | start hit =>
    obtain ⟨-, hstep⟩ := Option.ite_none_right_eq_some.1 hstep
    cases hstep
    have hblind : ∀ j, ({ s with calls := s.calls ++ [⟨hit, .begun⟩] } : State).blind j = true →
        s.blind j = true := by
      intro j hj
      obtain ⟨call, hcall, hblind⟩ := blind_iff.1 hj
      rcases Parties.getElem?_append_cases hcall with ⟨-, rfl⟩ | hcall
      · cases hblind
      · exact blind_iff.2 ⟨call, hcall, hblind⟩
    refine .inl ⟨hinv, h.row, h.emitted, ?_, fun i j hi hj => h.one i j (hblind i hi) (hblind j hj),
      ?_⟩
    · simp only [List.forall_mem_append, List.forall_mem_singleton]
      exact ⟨h.phases, .inl trivial⟩
    · simp only [List.forall_mem_append, List.forall_mem_singleton]
      exact ⟨h.unique, fun he => nomatch he⟩
  | deadlock i =>
    obtain ⟨_, -, hstep⟩ := Option.bind_eq_some_iff.1 hstep
    simp [h.not_deadlocked i] at hstep
  | advance i =>
    obtain ⟨⟨hit, phase⟩, hcall, hstep⟩ := Option.bind_eq_some_iff.1 hstep
    obtain ⟨⟨store', phase'⟩, hstatement, hstep⟩ := Option.bind_eq_some_iff.1 hstep
    cases hstep
    by_cases hclosing : ∃ found result fold, phase = .closing found result fold
    · obtain ⟨found, result, fold, rfl⟩ := hclosing
      cases hstatement
      exact h.closed halone hcall hinv rfl rfl rfl
    · exact .inl (h.continued halone hcall (fun found result fold he =>
        hclosing ⟨found, result, fold, he⟩) hstatement hinv rfl rfl rfl)

theorem opening_start (initial : Initial) (h : initial.record = none) :
    Opening (.start initial) where
  inv := inv_start initial
  row := by
    rw [show (State.start initial).store.debounce.committed = initial.record.map Prod.fst
      from rfl, h]
    rfl
  emitted := by
    unfold State.start
    rw [h]
    rfl
  phases _ hc := absurd hc List.not_mem_nil
  one i _ hi := by
    obtain ⟨_, hcall, -⟩ := blind_iff.1 hi
    cases hcall
  unique _ hc := absurd hc List.not_mem_nil

/-! ## Debounced runs -/

/-- No call raised; no alert was triggered in the cooldown of another one; and the last alert has
counted its own observation and those folded into it. -/
structure Debounced (s : State) : Prop where
  quiet : ∀ call ∈ s.calls, ∀ exception, call.phase ≠ .raised exception
  once : s.emitted.Pairwise fun a b => ¬a.Covers b.triggeredAt ∧ ¬b.Covers a.triggeredAt
  counted : ∀ debounce ∈ s.store.debounce.committed, ∃ alertId alert,
    debounce.lastAlertId = some alertId ∧ (s.store.alerts alertId).committed = some alert ∧
      alert.occurrenceCount = 1 + s.folds.count alertId

theorem debounced_of_inv (h : Inv s) : Debounced s where
  quiet := h.quiet
  once := h.sound.once
  counted debounce hdebounce := by
    obtain ⟨⟨e, he, hlast, -⟩, -⟩ := h.sound.last debounce hdebounce
    obtain ⟨alert, halert, hcount⟩ := h.sound.tallied e he
    exact ⟨e.alertId, alert, hlast, halert, hcount⟩

/-- **Concurrent alert writes are debounced** in every run from a debounce row, and in every run
from none of which those who miss the row are alone. -/
theorem debounced (initial : Initial) (acts : List Act)
    (h : initial.record.isSome ∨ Along step Alone (.start initial) acts) :
    ∀ s ∈ states step (.start initial) acts, Debounced s := by
  have hguarded : ∀ s act s', Guarded s → step s act = some s' → Guarded s' :=
    fun s act s' hs hstep => guarded_step hs hstep
  intro s hs
  cases hrecord : initial.record with
  | some r =>
    have hstart := guarded_start initial (by rw [hrecord]; rfl)
    exact debounced_of_inv (invariant_all hguarded acts hstart s hs).inv
  | none =>
    rw [hrecord] at h
    have hinv := invariant_states (I := fun s => Opening s ∨ Guarded s) (P := Alone)
      (fun s act s' hs halone hstep =>
        hs.elim (fun hs => opening_step hs halone hstep) fun hs => .inr (guarded_step hs hstep))
      (.inl (opening_start initial hrecord)) (h.resolve_left nofun) s hs
    exact debounced_of_inv (hinv.elim Opening.inv Guarded.inv)

/-! ## Two alerts in one cooldown -/

/-- No alert yet. -/
def nothing : Initial where
  stored := []
  record := none
  last _ hr := by cases hr
  cooldown _ hr := by cases hr
  counted _ hr := by cases hr

/-- A candidate of `_evaluate_observation` is a hit. -/
def hitOf (sha256 : String → String) (task : AlertTask) (o : Observation) (member : MemberMatch)
    (alertId : String) (createdAt : ℚ) : Hit where
  candidate := candidateOf sha256 task o member alertId createdAt
  cooldown := by
    have hpos : (0 : ℚ) < task.cooldownSeconds := by exact_mod_cast task.cooldown_pos
    show o.lastSeenAt < o.lastSeenAt + task.cooldownSeconds
    linarith
  single := rfl

/-- One member in front of a camera whose alerts cool down for a minute. -/
def hitAt (alertId : String) (t : ℚ) : Hit :=
  hitOf id ⟨"tenant", "project", "task", "binding", 60, by decide⟩ ⟨"run", "track", t, t⟩
    ⟨"member", "watchlist", "identity", 1⟩ alertId t

/-- A call takes `n` statements. -/
def statements (i n : Nat) : List Act := List.replicate n (.advance i)

/-- One after the other: the second hit is folded into the alert of the first one. -/
def inTurn : List Act :=
  [.start (hitAt "alt_1" 58), .start (hitAt "alt_2" 62)] ++ statements 0 6 ++
    statements 1 5

/-- Both look for the debounce row before it is there. -/
def atOnce : List Act :=
  [.start (hitAt "alt_1" 58), .start (hitAt "alt_2" 62), .advance 0, .advance 1] ++
    statements 0 5 ++ statements 1 5

theorem debounced_inTurn : ∃ s, exec step (.start nothing) inTurn = some s ∧
    s.emitted.length = 1 ∧ s.folds = ["alt_1"] ∧ Debounced s := by
  obtain ⟨s, hexec, h⟩ := Option.map_eq_some_iff.1
    (show (exec step (.start nothing) inTurn).map (fun s => (s.emitted.length, s.folds)) =
      some (1, ["alt_1"]) by decide +kernel)
  obtain ⟨hlength, hfolds⟩ := Prod.mk.inj h
  exact ⟨s, hexec, hlength, hfolds,
    debounced nothing inTurn (.inr (by decide +kernel)) s (mem_states_of_exec hexec)⟩

/-- Two hits of different windows, four seconds apart, are both emitted. -/
theorem two_alerts : ∃ s, s ∈ states step (.start nothing) atOnce ∧ ¬Debounced s := by
  obtain ⟨s, hexec, h⟩ := Option.map_eq_some_iff.1
    (show (exec step (.start nothing) atOnce).map State.emitted =
      some [⟨"alt_1", 58, 118⟩, ⟨"alt_2", 62, 122⟩] by decide +kernel)
  refine ⟨s, mem_states_of_exec hexec, fun hdebounced => ?_⟩
  have honce := hdebounced.once
  rw [h] at honce
  revert honce
  decide +kernel

end Scenara.Surveillance.Postgres
