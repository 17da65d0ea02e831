import Scenara.Surveillance.Concurrent

/-!
# The statements of an alert write

* `statement_next`: a statement before the COMMIT leaves what is committed and leads to what the
  next one needs. `closing_cases`: a COMMIT is an emission, a fold or nothing.
-/

namespace Scenara.Surveillance.Postgres

open Scenara.Core

/-! ## What is committed -/

/-- The committed rows. -/
@[ext]
structure View where
  debounce : Option DebounceState
  alerts : String → Option AlertRecord
  index : String → Option String

/-- What is committed. -/
def Store.view (store : Store) : View where
  debounce := store.debounce.committed
  alerts id := (store.alerts id).committed
  index key := (store.index key).committed

/-- The debounce state of an emission. -/
def Hit.debounce (hit : Hit) : DebounceState :=
  { hit.candidate.debounce with lastAlertId := some hit.alert.alertId }

/-- An emission. -/
def View.emit (v : View) (hit : Hit) : View where
  debounce := some hit.debounce
  alerts id := if id = hit.alert.alertId then some hit.alert else v.alerts id
  index key := if key = hit.alert.idempotencyKey then some hit.alert.alertId else v.index key

/-- A fold. -/
def View.fold (v : View) (current : DebounceState) (existing : AlertRecord) (hit : Hit) : View where
  debounce := some (foldDebounce current hit.alert)
  alerts id := if id = existing.alertId then some (foldAlert existing hit.alert) else v.alerts id
  index := v.index

variable {v : View} {emitted : List Emission} {folds : List String} {hit : Hit}
  {current : DebounceState} {existing : AlertRecord}

/-- What is committed fits what was emitted and folded. -/
structure Sound (v : View) (emitted : List Emission) (folds : List String) : Prop where
  keyed : ∀ id alert, v.alerts id = some alert → alert.alertId = id
  indexed : ∀ key id, v.index key = some id → (v.alerts id).isSome
  /-- The debounce row names an emission, and every cooldown is over when its own is. -/
  last : ∀ debounce, v.debounce = some debounce →
    (∃ e ∈ emitted, debounce.lastAlertId = some e.alertId ∧ e.alertId ≠ "") ∧
      ∀ e ∈ emitted, e.cooldownUntil ≤ debounce.cooldownUntil
  tallied : ∀ e ∈ emitted, ∃ alert, v.alerts e.alertId = some alert ∧
    alert.occurrenceCount = 1 + folds.count e.alertId
  folded : ∀ id ∈ folds, (v.alerts id).isSome
  ordered : emitted.Pairwise fun a b => a.cooldownUntil ≤ b.triggeredAt
  cooldown : ∀ e ∈ emitted, e.triggeredAt < e.cooldownUntil

theorem Sound.emit (h : Sound v emitted folds) (hnew : v.alerts hit.alert.alertId = none)
    (hid : hit.alert.alertId ≠ "")
    (hpast : ∀ e ∈ emitted, e.cooldownUntil ≤ hit.alert.triggeredAt) :
    Sound (v.emit hit) (emitted ++ [hit.emission]) folds := by
  have hstored : ∀ id, (v.alerts id).isSome → id ≠ hit.alert.alertId := by
    rintro _ hsome rfl
    simp [hnew] at hsome
  have hkeep : ∀ id, (v.alerts id).isSome → (v.emit hit).alerts id = v.alerts id :=
    fun id hsome => if_neg (hstored id hsome)
  have hself : (v.emit hit).alerts hit.alert.alertId = some hit.alert := if_pos rfl
  refine ⟨?_, ?_, ?_, ?_, ?_, ?_, ?_⟩
  · intro id alert hget
    rcases ite_eq_iff.1 hget with ⟨rfl, halert⟩ | ⟨-, halert⟩
    · rw [← Option.some.inj halert]
    · exact h.keyed id alert halert
  · intro key id hindex
    rcases ite_eq_iff.1 hindex with ⟨-, hindex⟩ | ⟨-, hindex⟩
    · rw [← Option.some.inj hindex, hself]
      rfl
    · have hsome := h.indexed key id hindex
      rwa [hkeep id hsome]
  · rintro _ ⟨⟩
    refine ⟨⟨hit.emission, by simp, rfl, hid⟩, ?_⟩
    simp only [List.forall_mem_append, List.forall_mem_singleton]
    exact ⟨fun e he => (hpast e he).trans hit.cooldown.le, le_rfl⟩
  · simp only [List.forall_mem_append, List.forall_mem_singleton]
    refine ⟨fun e he => ?_, hit.alert, hself, ?_⟩
    · obtain ⟨alert, halert, hcount⟩ := h.tallied e he
      exact ⟨alert, (hkeep e.alertId (by rw [halert]; rfl)).trans halert, hcount⟩
    · have hzero : folds.count hit.alert.alertId = 0 :=
        List.count_eq_zero.2 fun hmem => hstored _ (h.folded _ hmem) rfl
      exact hit.single.trans (by rw [Hit.emission, hzero])
  · intro id hmem
    rw [hkeep id (h.folded id hmem)]
    exact h.folded id hmem
  · rw [List.pairwise_append]
    refine ⟨h.ordered, List.pairwise_singleton _ _, fun a ha b hb => ?_⟩
    rw [List.mem_singleton.1 hb]
    exact hpast a ha
  · simp only [List.forall_mem_append, List.forall_mem_singleton]
    exact ⟨h.cooldown, hit.cooldown⟩

theorem Sound.fold (h : Sound v emitted folds) (hcurrent : v.debounce = some current)
    (hexisting : v.alerts existing.alertId = some existing) (hit : Hit) :
    Sound (v.fold current existing hit) emitted (folds ++ [existing.alertId]) := by
  have hself : (v.fold current existing hit).alerts existing.alertId =
      some (foldAlert existing hit.alert) := if_pos rfl
  have hother : ∀ id, id ≠ existing.alertId →
      (v.fold current existing hit).alerts id = v.alerts id := fun id hid => if_neg hid
  have hsome : ∀ id, (v.alerts id).isSome → ((v.fold current existing hit).alerts id).isSome := by
    intro id _
    by_cases he : id = existing.alertId
    · rw [he, hself]
      rfl
    · rwa [hother id he]
  refine ⟨?_, fun key id hindex => hsome id (h.indexed key id hindex), ?_, ?_, ?_, h.ordered,
    h.cooldown⟩
  · intro id alert hget
    rcases ite_eq_iff.1 hget with ⟨rfl, halert⟩ | ⟨-, halert⟩
    · rw [← Option.some.inj halert]
      rfl
    · exact h.keyed id alert halert
  · rintro _ ⟨⟩
    exact h.last current hcurrent
  · intro e he
    obtain ⟨alert, halert, hcount⟩ := h.tallied e he
    by_cases hid : e.alertId = existing.alertId
    · rw [hid, hexisting] at halert
      refine ⟨foldAlert existing hit.alert, by rw [hid, hself], ?_⟩
      rw [hid, List.count_append, List.count_singleton_self, ← Nat.add_assoc, ← hid, ← hcount,
        ← Option.some.inj halert]
      rfl
    · refine ⟨alert, (hother _ hid).trans halert, ?_⟩
      rwa [List.count_append, List.count_singleton, if_neg (by simpa using Ne.symm hid)]
  · simp only [List.forall_mem_append, List.forall_mem_singleton]
    exact ⟨fun id hid => hsome id (h.folded id hid), hsome _ (by rw [hexisting]; rfl)⟩

/-- In a sound state no alert was triggered in the cooldown of another one. -/
theorem Sound.once (h : Sound v emitted folds) :
    emitted.Pairwise fun a b => ¬a.Covers b.triggeredAt ∧ ¬b.Covers a.triggeredAt := by
  refine List.Pairwise.imp_of_mem ?_ h.ordered
  intro a b ha _ hle
  have hcooldown := h.cooldown a ha
  refine ⟨fun hcovers => ?_, fun hcovers => ?_⟩
  · exact absurd hcovers.2 (not_lt.2 hle)
  · exact absurd hcovers.1 (not_le.2 (hcooldown.trans_le hle))

/-! ## What a call holds -/

variable {store store' : Store} {i j : Nat} {phase phase' : Phase} {found : Option DebounceState}

/-- The transaction holds no alert. -/
structure Store.Clean (store : Store) (i : Nat) : Prop where
  alerts : Row.HoldsNone store.alerts i
  index : Row.HoldsNone store.index i

/-- The transaction holds the debounce row. -/
def Store.Locked (store : Store) (i : Nat) (current : DebounceState) (w : Option DebounceState) :
    Prop :=
  store.debounce = ⟨some current, some (i, w)⟩

/-- The transaction has inserted its alert. -/
structure Store.Inserted (store : Store) (i : Nat) (hit : Hit) : Prop where
  alerts : Row.HoldsOne store.alerts i hit.alert.alertId none (some hit.alert)
  index : ∃ c, Row.HoldsOne store.index i hit.alert.idempotencyKey c (some hit.alert.alertId)

/-- The transaction holds what it found, which has cooled down. -/
def Store.Seen (store : Store) (i : Nat) (hit : Hit) : Option DebounceState → Prop
  | none => store.debounce.Free i
  | some current =>
    store.Locked i current none ∧ current.cooldownUntil ≤ hit.alert.triggeredAt

/-- No alert has the id of the call's. -/
def Store.Unborn (store : Store) (hit : Hit) : Prop := store.view.alerts hit.alert.alertId = none

/-- **What call `i` holds** at its next statement. -/
def Phase.Ok (hit : Hit) (i : Nat) (store : Store) : Phase → Prop
  | .begun => store.debounce.Free i ∧ store.Clean i ∧ store.Unborn hit
  | .cooling current alertId =>
    store.Locked i current none ∧ store.Clean i ∧ current.lastAlertId = some alertId
  | .folding current existing => store.Locked i current none ∧
    Row.HoldsOne store.alerts i existing.alertId (some existing) none ∧
    Row.HoldsNone store.index i
  | .folded current stored => store.Locked i current none ∧ (∃ existing,
    stored = foldAlert existing hit.alert ∧
    Row.HoldsOne store.alerts i existing.alertId (some existing) (some stored)) ∧
    Row.HoldsNone store.index i
  | .checking found => store.Seen i hit found ∧ store.Clean i ∧ store.Unborn hit
  | .inserting found => store.Seen i hit found ∧ store.Clean i ∧ store.Unborn hit ∧
    (found.isSome → store.view.index hit.alert.idempotencyKey = none)
  | .upserting found => store.Seen i hit found ∧ store.Inserted i hit
  | .recording found => store.debounce.lock = some (i, some hit.debounce) ∧ store.Inserted i hit ∧
    ∀ current ∈ found, store.view.debounce = found ∧
      current.cooldownUntil ≤ hit.alert.triggeredAt
  | .closing found ⟨alert, _, true⟩ fold => fold = false ∧ alert = hit.alert ∧
    store.debounce.lock = some (i, some hit.debounce) ∧ store.Inserted i hit ∧
    ∀ current ∈ found, store.view.debounce = found ∧
      current.cooldownUntil ≤ hit.alert.triggeredAt
  | .closing _ ⟨alert, _, false⟩ true => ∃ current existing, alert = foldAlert existing hit.alert ∧
    store.Locked i current (some (foldDebounce current hit.alert)) ∧
    Row.HoldsOne store.alerts i existing.alertId (some existing) (some alert) ∧
    Row.HoldsNone store.index i
  | .closing _ ⟨_, _, false⟩ false =>
    (∀ debounce, store.debounce.lock ≠ some (i, some debounce)) ∧ store.Clean i
  | .returned _ | .raised _ => store.debounce.Free i ∧ store.Clean i

/-! ## The others -/

/-- What a statement of call `j` may do to the tables. -/
structure Moved (j : Nat) (hit : Hit) (store store' : Store) : Prop where
  debounce : Row.Moved j store.debounce store'.debounce
  alerts : ∀ id, Row.Moved j (store.alerts id) (store'.alerts id)
  index : ∀ key, Row.Moved j (store.index key) (store'.index key)
  unborn : ∀ id, id ≠ hit.alert.alertId → store.view.alerts id = none →
    store'.view.alerts id = none
  /-- Whoever holds the debounce row keeps the others from inserting. -/
  frozen : ∀ i w, i ≠ j → store.debounce.lock = some (i, w) → store'.view.index = store.view.index

theorem Moved.of_view (hdebounce : Row.Moved j store.debounce store'.debounce)
    (halerts : ∀ id, Row.Moved j (store.alerts id) (store'.alerts id))
    (hindex : ∀ key, Row.Moved j (store.index key) (store'.index key))
    (hview : store'.view = store.view) : Moved j hit store store' where
  debounce := hdebounce
  alerts := halerts
  index := hindex
  unborn _ _ h := by rwa [hview]
  frozen _ _ _ _ := by rw [hview]

section Others

variable {other : Hit}

theorem Store.Clean.moved (h : store.Clean i) (hmoved : Moved j other store store') (hij : i ≠ j) :
    store'.Clean i :=
  ⟨h.alerts.moved hmoved.alerts hij, h.index.moved hmoved.index hij⟩

theorem Store.Locked.moved {w : Option DebounceState} (h : store.Locked i current w)
    (hmoved : Moved j other store store') (hij : i ≠ j) : store'.Locked i current w :=
  (hmoved.debounce.held i w hij (by rw [h])).trans h

theorem Store.Inserted.moved (h : store.Inserted i hit) (hmoved : Moved j other store store')
    (hij : i ≠ j) : store'.Inserted i hit where
  alerts := h.alerts.moved hmoved.alerts hij
  index := h.index.imp fun _ hc => hc.moved hmoved.index hij

theorem Store.Seen.moved (h : store.Seen i hit found) (hmoved : Moved j other store store')
    (hij : i ≠ j) : store'.Seen i hit found := by
  cases found with
  | none => exact hmoved.debounce.free hij h
  | some => exact ⟨h.1.moved hmoved hij, h.2⟩

theorem Phase.Ok.moved (h : phase.Ok hit i store) (hmoved : Moved j other store store')
    (hij : i ≠ j) (hid : hit.alert.alertId ≠ other.alert.alertId) : phase.Ok hit i store' := by
  have hunborn : store.Unborn hit → store'.Unborn hit := hmoved.unborn _ hid
  have hrow : ∀ w, store.debounce.lock = some (i, w) → store'.debounce = store.debounce :=
    fun w => hmoved.debounce.held i w hij
  cases phase with
  | begun =>
    obtain ⟨hfree, hclean, hnew⟩ := h
    exact ⟨hmoved.debounce.free hij hfree, hclean.moved hmoved hij, hunborn hnew⟩
  | cooling =>
    obtain ⟨hlocked, hclean, hlast⟩ := h
    exact ⟨hlocked.moved hmoved hij, hclean.moved hmoved hij, hlast⟩
  | folding =>
    obtain ⟨hlocked, halert, hindex⟩ := h
    exact ⟨hlocked.moved hmoved hij, halert.moved hmoved.alerts hij, hindex.moved hmoved.index hij⟩
  | folded =>
    obtain ⟨hlocked, ⟨existing, hstored, halert⟩, hindex⟩ := h
    exact ⟨hlocked.moved hmoved hij, ⟨existing, hstored, halert.moved hmoved.alerts hij⟩,
      hindex.moved hmoved.index hij⟩
  | checking =>
    obtain ⟨hseen, hclean, hnew⟩ := h
    exact ⟨hseen.moved hmoved hij, hclean.moved hmoved hij, hunborn hnew⟩
  | inserting found =>
    obtain ⟨hseen, hclean, hnew, hindex⟩ := h
    refine ⟨hseen.moved hmoved hij, hclean.moved hmoved hij, hunborn hnew, fun hsome => ?_⟩
    -- Who found the row holds it.
    obtain ⟨_, rfl⟩ := Option.isSome_iff_exists.1 hsome
    rw [hmoved.frozen i none hij (by rw [hseen.1])]
    exact hindex hsome
  | upserting =>
    obtain ⟨hseen, hinserted⟩ := h
    exact ⟨hseen.moved hmoved hij, hinserted.moved hmoved hij⟩
  | recording =>
    obtain ⟨hlock, hinserted, hfound⟩ := h
    have hsame := hrow _ hlock
    refine ⟨hsame ▸ hlock, hinserted.moved hmoved hij, fun current hcurrent => ?_⟩
    rw [show store'.view.debounce = store.view.debounce from congrArg Row.committed hsame]
    exact hfound current hcurrent
  | closing _ result fold =>
    obtain ⟨_, _, isEmitted⟩ := result
    cases isEmitted with
    | true =>
      obtain ⟨hfold, halert, hlock, hinserted, hfound⟩ := h
      have hsame := hrow _ hlock
      refine ⟨hfold, halert, hsame ▸ hlock, hinserted.moved hmoved hij, fun current hcurrent => ?_⟩
      rw [show store'.view.debounce = store.view.debounce from congrArg Row.committed hsame]
      exact hfound current hcurrent
    | false =>
      cases fold with
      | true =>
        obtain ⟨current, existing, halert, hlocked, hheld, hindex⟩ := h
        exact ⟨current, existing, halert, hlocked.moved hmoved hij, hheld.moved hmoved.alerts hij,
          hindex.moved hmoved.index hij⟩
      | false =>
        obtain ⟨hunwritten, hclean⟩ := h
        exact ⟨fun debounce hlock => hunwritten debounce (hmoved.debounce.own i _ hij hlock),
          hclean.moved hmoved hij⟩
  | returned | raised => exact ⟨hmoved.debounce.free hij h.1, h.2.moved hmoved hij⟩

end Others

/-! ## Statements -/

/-- The call found no debounce row. -/
def Phase.blind : Phase → Bool
  | .checking found | .inserting found | .upserting found | .recording found => found.isNone
  | .closing found _ _ => found.isNone
  | _ => false

/-- A phase that may come next: nothing is raised, and a debounce row that is there is not
missed. -/
structure Phase.Leads (phase : Phase) (store : Store) (phase' : Phase) : Prop where
  quiet : ∀ exception, phase' ≠ .raised exception
  sees : phase.blind = false → store.debounce.committed.isSome → phase'.blind = false

/-- A statement that commits nothing: what it leaves. -/
structure Next (hit : Hit) (i : Nat) (store store' : Store) (phase phase' : Phase) : Prop where
  moved : Moved i hit store store'
  ok : phase'.Ok hit i store'
  view : store'.view = store.view
  leads : phase.Leads store phase'

theorem next_debounce {row : Row DebounceState} (hrow : Row.Moved i store.debounce row)
    (hcommitted : row.committed = store.debounce.committed)
    (hok : phase'.Ok hit i { store with debounce := row }) (hleads : phase.Leads store phase') :
    Next hit i store { store with debounce := row } phase phase' := by
  have hview : ({ store with debounce := row } : Store).view = store.view :=
    View.ext hcommitted rfl rfl
  exact ⟨.of_view hrow (fun _ => .refl i _) (fun _ => .refl i _) hview, hok, hview, hleads⟩

theorem next_alert {row : Row AlertRecord} {id : String} (hrow : Row.Moved i (store.alerts id) row)
    (hcommitted : row.committed = (store.alerts id).committed)
    (hok : phase'.Ok hit i { store with alerts := Function.update store.alerts id row })
    (hleads : phase.Leads store phase') :
    Next hit i store { store with alerts := Function.update store.alerts id row } phase phase' := by
  have hview : ({ store with alerts := Function.update store.alerts id row } : Store).view =
      store.view := View.ext rfl (funext (Row.committed_update hcommitted)) rfl
  exact ⟨.of_view (.refl i _) (Row.moved_update hrow) (fun _ => .refl i _) hview, hok, hview,
    hleads⟩

theorem next_refl (hok : phase'.Ok hit i store) (hleads : phase.Leads store phase') :
    Next hit i store store phase phase' :=
  ⟨.of_view (.refl i _) (fun _ => .refl i _) (fun _ => .refl i _) rfl, hok, rfl, hleads⟩

theorem afterSelect_ok (hsound : Sound store.view emitted folds) (hclean : store.Clean i)
    (hnew : store.Unborn hit) (hlocked : store.Locked i current none) :
    (afterSelect hit.alert.triggeredAt (some current)).Ok hit i store := by
  have hcommitted : store.view.debounce = some current := congrArg Row.committed hlocked
  obtain ⟨⟨e, -, hlast, hid⟩, -⟩ := hsound.last current hcommitted
  unfold afterSelect
  dsimp only
  rw [hlast]
  dsimp only
  by_cases hcooling : current.cooldownUntil > hit.alert.triggeredAt
  · rw [if_pos ⟨hcooling, hid⟩]
    exact ⟨hlocked, hclean, hlast⟩
  · rw [if_neg fun h => hcooling h.1]
    exact ⟨⟨hlocked, not_lt.1 hcooling⟩, hclean, hnew⟩

theorem leads_afterSelect (triggeredAt : ℚ) (hfound : store.debounce.committed = found) :
    Phase.begun.Leads store (afterSelect triggeredAt found) := by
  unfold afterSelect
  cases found with
  | none =>
    refine ⟨nofun, fun _ hsome => ?_⟩
    simp [hfound] at hsome
  | some current =>
    dsimp only
    cases current.lastAlertId with
    | none => exact ⟨nofun, fun _ _ => rfl⟩
    | some =>
      dsimp only
      split <;> exact ⟨nofun, fun _ _ => rfl⟩

theorem begun_next (h : Phase.begun.Ok hit i store) (hsound : Sound store.view emitted folds)
    (hstep : statement hit i store .begun = some (store', phase')) :
    Next hit i store store' .begun phase' := by
  obtain ⟨hfree, hclean, hnew⟩ := h
  obtain ⟨⟨_, _⟩, hselect, hstep⟩ := Option.bind_eq_some_iff.1 hstep
  obtain ⟨⟨_, _⟩, hrow, hselect⟩ := Option.bind_eq_some_iff.1 hselect
  cases hselect
  cases hstep
  obtain ⟨rfl, hcases⟩ := Row.selectForUpdate_of_free hfree hrow
  refine next_debounce (Row.moved_selectForUpdate hrow) (Row.selectForUpdate_committed hrow) ?_
    (leads_afterSelect _ rfl)
  rcases hcases with ⟨hnone, rfl⟩ | ⟨hsome, rfl⟩
  · rw [hnone]
    exact ⟨hfree, hclean, hnew⟩
  · obtain ⟨current, hcurrent⟩ := Option.isSome_iff_exists.1 hsome
    rw [hcurrent]
    have hview : ({ store with debounce := ⟨some current, some (i, none)⟩ } : Store).view =
        store.view := View.ext hcurrent.symm rfl rfl
    exact afterSelect_ok (hview ▸ hsound) ⟨hclean.alerts, hclean.index⟩ hnew rfl

theorem cooling_next {alertId : String} (h : (Phase.cooling current alertId).Ok hit i store)
    (hsound : Sound store.view emitted folds)
    (hstep : statement hit i store (.cooling current alertId) = some (store', phase')) :
    Next hit i store store' (.cooling current alertId) phase' := by
  obtain ⟨hlocked, hclean, hlast⟩ := h
  -- The debounce row names an alert that is there.
  have hcommitted : store.view.debounce = some current := congrArg Row.committed hlocked
  obtain ⟨⟨e, he, helast, -⟩, -⟩ := hsound.last current hcommitted
  obtain ⟨existing, hexisting, -⟩ := hsound.tallied e he
  obtain rfl : alertId = e.alertId := Option.some.inj (hlast.symm.trans helast)
  have hid : existing.alertId = e.alertId := hsound.keyed _ _ hexisting
  obtain ⟨⟨_, _⟩, hselect, hstep⟩ := Option.bind_eq_some_iff.1 hstep
  obtain ⟨⟨_, _⟩, hrow, hselect⟩ := Option.bind_eq_some_iff.1 hselect
  cases hselect
  have hmoved := Row.moved_selectForUpdate hrow
  have hexisting' : (store.alerts e.alertId).committed = some existing := hexisting
  obtain ⟨rfl, ⟨hnone, -⟩ | ⟨-, rfl⟩⟩ :=
    Row.selectForUpdate_of_free (hclean.alerts e.alertId) hrow
  · simp [hexisting'] at hnone
  · rw [hexisting'] at hstep hmoved
    cases hstep
    refine next_alert hmoved hexisting'.symm ⟨hlocked, ?_, hclean.index⟩
      ⟨nofun, fun _ _ => rfl⟩
    rw [hid]
    exact hclean.alerts.update _ _ _

theorem folding_next (h : (Phase.folding current existing).Ok hit i store)
    (hstep : statement hit i store (.folding current existing) = some (store', phase')) :
    Next hit i store store' (.folding current existing) phase' := by
  obtain ⟨hlocked, hheld, hindex⟩ := h
  obtain ⟨_, hupdate, hstep⟩ := Option.bind_eq_some_iff.1 hstep
  obtain ⟨row, hrow, hupdate⟩ := Option.bind_eq_some_iff.1 hupdate
  cases hupdate
  cases hstep
  have hrow' := Row.write_eq hrow
  refine next_alert (Row.moved_write hrow) (by rw [hrow']) ⟨hlocked, ⟨existing, rfl, ?_⟩, hindex⟩
    ⟨nofun, fun _ _ => rfl⟩
  rw [hrow', show (store.alerts (foldAlert existing hit.alert).alertId).committed =
    some existing from congrArg Row.committed hheld.row]
  exact hheld.update _

theorem folded_next {stored : AlertRecord} (h : (Phase.folded current stored).Ok hit i store)
    (hstep : statement hit i store (.folded current stored) = some (store', phase')) :
    Next hit i store store' (.folded current stored) phase' := by
  obtain ⟨hlocked, ⟨existing, hstored, hheld⟩, hindex⟩ := h
  obtain ⟨_, hput, hstep⟩ := Option.bind_eq_some_iff.1 hstep
  obtain ⟨row, hrow, hput⟩ := Option.bind_eq_some_iff.1 hput
  cases hput
  cases hstep
  have hrow' := Row.write_eq hrow
  refine next_debounce (Row.moved_write hrow) (by rw [hrow'])
    ⟨current, existing, hstored, ?_, hheld, hindex⟩ ⟨nofun, fun _ _ => rfl⟩
  show row = _
  rw [hrow', show store.debounce.committed = some current from congrArg Row.committed hlocked]

theorem index_of_duplicate (hclean : store.Clean i) (hsound : Sound store.view emitted folds)
    (hduplicate : store.duplicate i hit.alert.idempotencyKey = none) :
    store.view.index hit.alert.idempotencyKey = none := by
  by_contra hsome
  obtain ⟨id, hid⟩ := Option.ne_none_iff_exists'.1 hsome
  obtain ⟨alert, _⟩ := Option.isSome_iff_exists.1 (hsound.indexed _ id hid)
  have hfound : store.duplicate i hit.alert.idempotencyKey = some alert := by
    unfold Store.duplicate
    rw [Row.visible_of_free (hclean.index _)]
    refine Option.bind_eq_some_iff.2 ⟨id, hid, ?_⟩
    rwa [Row.visible_of_free (hclean.alerts id)]
  simp [hfound] at hduplicate

theorem checking_next (h : (Phase.checking found).Ok hit i store)
    (hsound : Sound store.view emitted folds)
    (hstep : statement hit i store (.checking found) = some (store', phase')) :
    Next hit i store store' (.checking found) phase' := by
  obtain ⟨hseen, hclean, hnew⟩ := h
  unfold statement at hstep
  cases hduplicate : store.duplicate i hit.alert.idempotencyKey with
  | some =>
    rw [hduplicate] at hstep
    cases hstep
    refine next_refl ⟨fun debounce hlock => ?_, hclean⟩ ⟨nofun, fun hsees _ => hsees⟩
    cases found with
    | none => exact hseen _ hlock
    | some =>
      rw [hseen.1] at hlock
      cases hlock
  | none =>
    rw [hduplicate] at hstep
    cases hstep
    exact next_refl ⟨hseen, hclean, hnew, fun _ => index_of_duplicate hclean hsound hduplicate⟩
      ⟨nofun, fun hsees _ => hsees⟩

theorem inserting_next (h : (Phase.inserting found).Ok hit i store)
    (hkey : store.view.index hit.alert.idempotencyKey = none)
    (hstep : statement hit i store (.inserting found) = some (store', phase')) :
    Next hit i store store' (.inserting found) phase' := by
  obtain ⟨hseen, hclean, hnew, -⟩ := h
  obtain ⟨_, hinsert, hstep⟩ := Option.bind_eq_some_iff.1 hstep
  unfold Store.insertAlert at hinsert
  obtain ⟨-, hinsert⟩ := Option.ite_none_left_eq_some.1 hinsert
  rw [Row.visible_of_free (hclean.index _)] at hinsert
  rw [show (store.index hit.alert.idempotencyKey).committed = none from hkey] at hinsert
  obtain ⟨entry, hentry, hinsert⟩ := Option.bind_eq_some_iff.1 hinsert
  obtain ⟨row, hrow, hinsert⟩ := Option.bind_eq_some_iff.1 hinsert
  cases hinsert
  cases hstep
  have hentry' := Row.write_eq hentry
  have hrow' := Row.write_eq hrow
  have hview : ({ store with
      alerts := Function.update store.alerts hit.alert.alertId row
      index := Function.update store.index hit.alert.idempotencyKey entry } : Store).view =
      store.view :=
    View.ext rfl (funext (Row.committed_update (by rw [hrow'])))
      (funext (Row.committed_update (by rw [hentry'])))
  refine ⟨.of_view (.refl i _) (Row.moved_update (Row.moved_write hrow))
    (Row.moved_update (Row.moved_write hentry)) hview, ⟨?_, ?_, ?_⟩, hview,
    ⟨nofun, fun hsees _ => hsees⟩⟩
  · cases found with
    | none | some => exact hseen
  · rw [hrow', show (store.alerts hit.alert.alertId).committed = none from hnew]
    exact hclean.alerts.update _ _ _
  · refine ⟨(store.index hit.alert.idempotencyKey).committed, ?_⟩
    rw [hentry']
    exact hclean.index.update _ _ _

theorem upserting_next (h : (Phase.upserting found).Ok hit i store)
    (hstep : statement hit i store (.upserting found) = some (store', phase')) :
    Next hit i store store' (.upserting found) phase' := by
  obtain ⟨hseen, hinserted⟩ := h
  obtain ⟨_, hput, hstep⟩ := Option.bind_eq_some_iff.1 hstep
  obtain ⟨row, hrow, hput⟩ := Option.bind_eq_some_iff.1 hput
  cases hput
  cases hstep
  have hrow' := Row.write_eq hrow
  refine next_debounce (Row.moved_write hrow) (by rw [hrow'])
    ⟨?_, ⟨hinserted.alerts, hinserted.index⟩, ?_⟩ ⟨nofun, fun hsees _ => hsees⟩
  · rw [hrow']
    rfl
  · rintro _ ⟨⟩
    refine ⟨?_, hseen.2⟩
    show row.committed = _
    rw [hrow', hseen.1]

theorem recording_next (h : (Phase.recording found).Ok hit i store)
    (hstep : statement hit i store (.recording found) = some (store', phase')) :
    Next hit i store store' (.recording found) phase' := by
  obtain ⟨hlock, hinserted, hfound⟩ := h
  cases hstep
  exact ⟨.of_view (.refl i _) (fun _ => .refl i _) (fun _ => .refl i _) rfl,
    ⟨rfl, rfl, hlock, ⟨hinserted.alerts, hinserted.index⟩, hfound⟩, rfl,
    ⟨nofun, fun hsees _ => hsees⟩⟩

theorem statement_next (h : phase.Ok hit i store) (hsound : Sound store.view emitted folds)
    (hkey : ∀ found, phase = .inserting found →
      store.view.index hit.alert.idempotencyKey = none)
    (hopen : ∀ found result fold, phase ≠ .closing found result fold)
    (hstep : statement hit i store phase = some (store', phase')) :
    Next hit i store store' phase phase' := by
  cases phase with
  | begun => exact begun_next h hsound hstep
  | cooling => exact cooling_next h hsound hstep
  | folding => exact folding_next h hstep
  | folded => exact folded_next h hstep
  | checking => exact checking_next h hsound hstep
  | inserting found => exact inserting_next h (hkey found rfl) hstep
  | upserting => exact upserting_next h hstep
  | recording => exact recording_next h hstep
  | closing found result fold => exact absurd rfl (hopen found result fold)
  | returned | raised => cases hstep

/-! ## Commits -/

theorem commit_emit (hlock : store.debounce.lock = some (i, some hit.debounce))
    (hinserted : store.Inserted i hit) : (store.commit i).view = store.view.emit hit := by
  obtain ⟨c, hindex⟩ := hinserted.index
  refine View.ext ?_ (funext hinserted.alerts.commit) (funext hindex.commit)
  exact (Row.commit_committed _ _).trans (Row.visible_of_written hlock)

theorem commit_fold (hlocked : store.Locked i current (some (foldDebounce current hit.alert)))
    (hheld : Row.HoldsOne store.alerts i existing.alertId (some existing)
      (some (foldAlert existing hit.alert)))
    (hindex : Row.HoldsNone store.index i) :
    (store.commit i).view = store.view.fold current existing hit := by
  refine View.ext ?_ (funext hheld.commit) (funext fun key => ?_)
  · exact (Row.commit_committed _ _).trans (Row.visible_of_written (by rw [hlocked]))
  · exact congrArg Row.committed (Row.commit_of_free (hindex key))

theorem commit_clean (hunwritten : ∀ debounce, store.debounce.lock ≠ some (i, some debounce))
    (hclean : store.Clean i) : (store.commit i).view = store.view := by
  refine View.ext ?_ (funext fun id => ?_) (funext fun key => ?_)
  · exact (Row.commit_committed _ _).trans (Row.visible_of_unwritten hunwritten)
  · exact congrArg Row.committed (Row.commit_of_free (hclean.alerts id))
  · exact congrArg Row.committed (Row.commit_of_free (hclean.index key))

theorem free_commit (store : Store) (i : Nat) :
    (store.commit i).debounce.Free i ∧ (store.commit i).Clean i :=
  ⟨Row.free_commit _ _, Row.holdsNone_commit _ _, Row.holdsNone_commit _ _⟩

theorem moved_commit (hunborn : ∀ id, id ≠ hit.alert.alertId → store.view.alerts id = none →
      (store.commit i).view.alerts id = none)
    (hfrozen : ∀ j w, j ≠ i → store.debounce.lock = some (j, w) →
      (store.commit i).view.index = store.view.index) : Moved i hit store (store.commit i) where
  debounce := Row.moved_commit _ _
  alerts _ := Row.moved_commit _ _
  index _ := Row.moved_commit _ _
  unborn := hunborn
  frozen := hfrozen

theorem closing_cases {result : AlertWriteResult} {fold : Bool}
    (h : (Phase.closing found result fold).Ok hit i store) :
    Moved i hit store (store.commit i) ∧
      (result.emitted = true ∧ fold = false ∧ (store.commit i).view = store.view.emit hit ∧
          store.Unborn hit ∧ (∀ current ∈ found, store.view.debounce = found ∧
            current.cooldownUntil ≤ hit.alert.triggeredAt) ∨
        (result.emitted = false ∧ fold = true ∧ ∃ current existing,
          store.view.debounce = some current ∧ store.view.alerts existing.alertId = some existing ∧
          result.alert.alertId = existing.alertId ∧
          (store.commit i).view = store.view.fold current existing hit) ∨
        result.emitted = false ∧ fold = false ∧ (store.commit i).view = store.view) := by
  obtain ⟨_, _, isEmitted⟩ := result
  cases isEmitted with
  | true =>
    obtain ⟨hfold, -, hlock, hinserted, hfound⟩ := h
    have hview := commit_emit hlock hinserted
    have hnew : store.Unborn hit := congrArg Row.committed hinserted.alerts.row
    refine ⟨moved_commit (fun id hid hnone => ?_) (fun j w hij hj => ?_),
      .inl ⟨rfl, hfold, hview, hnew, hfound⟩⟩
    · rw [hview]
      exact (if_neg hid).trans hnone
    · rw [hlock] at hj
      cases hj
      exact absurd rfl hij
  | false =>
    cases fold with
    | true =>
      obtain ⟨current, existing, rfl, hlocked, hheld, hindex⟩ := h
      have hview := commit_fold hlocked hheld hindex
      have hexisting : store.view.alerts existing.alertId = some existing :=
        congrArg Row.committed hheld.row
      refine ⟨moved_commit (fun id hid hnone => ?_) (fun _ _ _ _ => by rw [hview]; rfl),
        .inr (.inl ⟨rfl, rfl, current, existing, congrArg Row.committed hlocked, hexisting, rfl,
          hview⟩)⟩
      rw [hview]
      refine (if_neg fun he => ?_).trans hnone
      rw [he, hexisting] at hnone
      cases hnone
    | false =>
      obtain ⟨hunwritten, hclean⟩ := h
      have hview := commit_clean hunwritten hclean
      exact ⟨moved_commit (fun _ _ h => by rwa [hview]) (fun _ _ _ _ => by rw [hview]),
        .inr (.inr ⟨rfl, rfl, hview⟩)⟩

end Scenara.Surveillance.Postgres
