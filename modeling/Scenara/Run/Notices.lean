import Scenara.Core.Versioned
import Scenara.Run.Cancel

/-!
# Status events that are still to be appended

A status change is a `save_run` and, later, an `append_event` by the same party. Between the two it
is a notice of that party.
-/

namespace Scenara.Run

open Scenara.Core

variable {s s' : Store} {c c' : Call} {w w' : Worker} {now : ℚ} {run snap u : RunRecord}
  {eventType : String} {status : RunStatus} {calls : List Call} {stopped : Bool} {choice : Choice}

/-! ## Status events -/

/-- Every status. -/
def RunStatus.all : List RunStatus :=
  [.queued, .running, .pausing, .paused, .completed, .failed, .cancelling, .cancelled]

/-- The status that a `run.<status>` event names. -/
def statusOf (eventType : String) : Option RunStatus :=
  RunStatus.all.find? fun status => statusEvent status = eventType

theorem statusOf_statusEvent (status : RunStatus) :
    statusOf (statusEvent status) = some status := by
  cases status <;> decide

/-- The statuses that the `run.<status>` events of a log name. -/
def told (events : List RunEvent) : List RunStatus :=
  events.filterMap fun event => statusOf event.eventType

/-- The revision of a saved record and the status it took. -/
abbrev Notice := Nat × RunStatus

/-- An event that is to be appended, if it names a status. -/
def notice (run : RunRecord) (eventType : String) : Option Notice :=
  (statusOf eventType).map fun status => (run.revision, status)

theorem notice_statusEvent (run : RunRecord) (status : RunStatus) :
    notice run (statusEvent status) = some (run.revision, status) := by
  rw [notice, statusOf_statusEvent, Option.map_some]

theorem told_appendEvent (s : Store) (run : RunRecord) (eventType : String) :
    told (appendEvent s run eventType).events =
      told s.events ++ (notice run eventType).toList.map Prod.snd := by
  unfold told appendEvent notice
  cases h : statusOf eventType <;> simp [h]

/-! ## The notices of a party -/

/-- What a call still has to append. -/
def Call.pending : Call → List Notice
  | .event run eventType next => (notice run eventType).toList ++ next.pending
  | _ => []

/-- The notice that the call is about to publish. -/
def Call.publishes : Call → Option Notice
  | .event run eventType _ => notice run eventType
  | _ => none

/-- What a worker and its pipeline still have to append. -/
def Worker.pending : Worker → List Notice
  | .event run eventType next => (notice run eventType).toList ++ next.pending
  | .running _ calls _ => calls.flatMap Call.pending
  | _ => []

/-- The notice that a step of the worker appends. -/
def Worker.publishes : Worker → Choice → Option Notice
  | .event run eventType _, .go => notice run eventType
  | .running _ calls _, .call k => calls[k]?.bind Call.publishes
  | _, _ => none

/-- The notices of the calls that a step of the worker gives up. -/
def Worker.abandons : Worker → Choice → List Notice
  | .running _ calls _, .finish _ | .running _ calls _, .raise _ _ | .running _ calls _, .stop =>
    calls.flatMap Call.pending
  | _, _ => []

/-- The notice that the client still owes. -/
def Client.pending : Client → List Notice
  | .event _ saved target => [(saved.revision, target)]
  | _ => []

/-! ## Effects -/

/-- What a step of one party does: nothing to the status, a status change that it still has to
append, or the event of one of its notices. -/
inductive Effect (s s' : Store) (before after : List Notice) : Option Notice → Prop
  | quiet : s'.run.status = s.run.status → s.run.revision ≤ s'.run.revision →
      told s'.events = told s.events → after.Perm before → Effect s s' before after none
  | save : s'.run.status ≠ s.run.status → s'.run.revision = s.run.revision + 1 →
      told s'.events = told s.events →
      after.Perm (before ++ [(s'.run.revision, s'.run.status)]) → Effect s s' before after none
  | publish (n : Notice) : s'.run = s.run → told s'.events = told s.events ++ [n.2] →
      before.Perm (n :: after) → Effect s s' before after (some n)

variable {before after : List Notice}

theorem Effect.still (h : after.Perm before) :
    Effect s s before after none :=
  .quiet rfl (Nat.le_refl _) rfl h

theorem Effect.kept (he : s.run = snap) (hu : u.status = snap.status)
    (h : after.Perm before) :
    Effect s { s with run := { u with revision := snap.revision + 1 } } before after none :=
  .quiet (hu.trans (by rw [he])) (by rw [he]; exact Nat.le_succ _) rfl h

theorem Effect.changed (he : s.run = snap)
    (hu : u.status ≠ snap.status) (h : after.Perm (before ++ [(snap.revision + 1, u.status)])) :
    Effect s { s with run := { u with revision := snap.revision + 1 } } before after none :=
  .save (by rw [he]; exact hu) (by rw [he]) rfl h

theorem Effect.appended {rest : List Notice} (s : Store) (run : RunRecord) (eventType : String) :
    Effect s (appendEvent s run eventType) ((notice run eventType).toList ++ rest) rest
      (notice run eventType) := by
  have htold := told_appendEvent s run eventType
  cases h : notice run eventType with
  | none =>
    rw [h] at htold
    exact .quiet rfl (Nat.le_refl _) (by rw [htold]; simp) (.refl _)
  | some n =>
    rw [h] at htold
    exact .publish n rfl htold (.refl _)

theorem Effect.context {before after rest : List Notice} {published : Option Notice}
    (h : Effect s s' before after published) :
    Effect s s' (before ++ rest) (after ++ rest) published := by
  cases h with
  | quiet hstatus hrevision htold hperm =>
    exact .quiet hstatus hrevision htold (hperm.append_right rest)
  | save hstatus hrevision htold hperm =>
    refine .save hstatus hrevision htold ((hperm.append_right rest).trans ?_)
    rw [List.append_assoc, List.append_assoc]
    exact (List.perm_append_comm).append_left before
  | publish n hrun htold hperm => exact .publish n hrun htold (hperm.append_right rest)

theorem Effect.perm {before after before' after' : List Notice} {published : Option Notice}
    (h : Effect s s' before after published) (hbefore : before'.Perm before)
    (hafter : after'.Perm after) : Effect s s' before' after' published := by
  cases h with
  | quiet hstatus hrevision htold hperm =>
    exact .quiet hstatus hrevision htold ((hafter.trans hperm).trans hbefore.symm)
  | save hstatus hrevision htold hperm =>
    exact .save hstatus hrevision htold ((hafter.trans hperm).trans (hbefore.symm.append_right _))
  | publish n hrun htold hperm =>
    exact .publish n hrun htold ((hbefore.trans hperm).trans (hafter.symm.cons n))

theorem stepCall_effect (hk : c.Knows s) (h : stepCall now s c = some (s', c')) :
    Effect s s' c.pending c'.pending c.publishes := by
  cases stepCall_cases hk h with
  | saved hsaves he =>
    cases hsaves with
    | cancel hst hu | pause hst hu =>
      refine .changed he (by rw [hst, hu]; decide) ?_
      rw [Call.pending, notice_statusEvent]
      exact .refl _
  | progressed hu he => exact .kept he hu (.refl _)
  | event run eventType => exact .appended s run eventType
  | turned ht =>
    cases ht with
    | lost hsaves => cases hsaves <;> exact .still (.refl _)
    | _ => exact .still (.refl _)

/-! ## Workers -/

theorem perm_calls {k : Nat} (h : calls[k]? = some c) (c' : Call) :
    (calls.flatMap Call.pending).Perm
        (c.pending ++ (calls.eraseIdx k).flatMap Call.pending) ∧
      ((calls.set k c').flatMap Call.pending).Perm
        (c'.pending ++ (calls.eraseIdx k).flatMap Call.pending) := by
  obtain ⟨hk, rfl⟩ := List.getElem?_eq_some_iff.1 h
  have hset : k < (calls.set k c').length := by rwa [List.length_set]
  refine ⟨((List.getElem_cons_eraseIdx_perm hk).symm).flatMap_right _, ?_⟩
  have hperm := (List.getElem_cons_eraseIdx_perm hset).symm
  rw [List.getElem_set_self, List.eraseIdx_set_eq] at hperm
  exact hperm.flatMap_right _

theorem notice_none (h : statusOf eventType = none) (run : RunRecord) :
    notice run eventType = none := by
  rw [notice, h]
  rfl

theorem afterBegin_pending (run : RunRecord) : (afterBegin run).pending = [] := by
  unfold afterBegin
  split
  · rfl
  · split
    · rw [Worker.pending, notice_none (by decide)]
      rfl
    · rfl

theorem afterComplete_pending (run : RunRecord) (termination : Option String) :
    (afterComplete run termination).pending = [] := by
  unfold afterComplete
  split <;> rfl

/-- A worker that may still save `COMPLETED`. -/
def Worker.early : Worker → Prop
  | .begin .. | .beginReread _ | .running .. | .completeRead .. | .complete .. => True
  | .event _ _ next => next.early
  | _ => False

theorem Effect.left (h : calls.flatMap Call.pending = []) :
    Effect s s (calls.flatMap Call.pending) [] none :=
  .still (by rw [h])

theorem Saves.status_ne {next onConflict : Worker} (hw : Saves w snap u next onConflict)
    (hk : w.Knows s) (hearly : w.early → snap.status ≠ .completed) : u.status ≠ snap.status := by
  cases hw with
  | cancel hst hu | begin hst hu => rw [hst, hu]; decide
  | complete hu => exact fun heq => hearly trivial (heq ▸ hu)
  | stop hu => exact fun heq => hk.2 (heq ▸ hu)
  | fail hu =>
    intro heq
    have hterminal := hk.2
    rw [← heq, hu] at hterminal
    cases hterminal

theorem stepWorker_effect (hk : w.Knows s) (hearly : w.early → s.run.status ≠ .completed)
    (habandons : w.abandons choice = []) (h : stepWorker now s w choice = some (s', w')) :
    Effect s s' w.pending w'.pending (w.publishes choice) := by
  cases stepWorker_cases h with
  | saved hw hr =>
    have he := (hw.seen hk).eq_of_rev hr
    have hne := hw.status_ne hk (he ▸ hearly)
    cases hw with
    | begin =>
      refine .changed he hne ?_
      rw [Worker.pending, notice_statusEvent, afterBegin_pending]
      exact .refl _
    | complete =>
      refine .changed he hne ?_
      rw [Worker.pending, notice_statusEvent, Worker.pending, notice_none (by decide),
        afterComplete_pending]
      exact .refl _
    | cancel _ _ | stop _ | fail _ =>
      refine .changed he hne ?_
      rw [Worker.pending, notice_statusEvent]
      exact .refl _
  | lost hw => cases hw <;> exact .still (.refl _)
  | linked hu hr =>
    refine .kept (Coherent.eq_of_rev hk hr) hu ?_
    exact .refl _
  | event run eventType => exact .appended s run eventType
  | call hc hst =>
    obtain ⟨hbefore, hafter⟩ := perm_calls hc _
    have heffect := stepCall_effect (hk _ (List.mem_of_getElem? hc)) hst
    simp only [Worker.publishes, hc, Option.bind_some]
    exact heffect.context.perm hbefore hafter
  | turned ht =>
    cases ht with
    | begun => exact .still (by rw [afterBegin_pending]; exact .refl _)
    | called c hc =>
      cases hc <;> exact .still (by simp [Worker.pending, Call.pending])
    | finish | raise | stop => exact .left habandons
    | failed | rolled _ | unlinked _ =>
      exact .still (by rw [Worker.pending, notice_none (by decide)]; exact .refl _)
    | _ => exact .still (.refl _)

/-! ## Transition calls -/

/-- The notice that a step of the call appends. -/
def Client.publishes : Client → Option Notice
  | .event _ saved target => some (saved.revision, target)
  | _ => none

theorem target_ne {pausable : Bool} {action : Action} {tgt : RunStatus}
    (h : target pausable action status = .ok tgt) : tgt ≠ status := by
  cases action <;> cases status <;> cases pausable <;> cases h <;> decide

theorem stepClient_effect {pausable : Bool} {c c' : Client} (hk : c.Knows pausable s)
    (h : stepClient pausable now s c = some (s', c')) :
    Effect s s' c.pending c'.pending c.publishes := by
  cases c with
  | read left =>
    cases left with
    | zero => cases h; exact .still (.refl _)
    | succ =>
      simp only [stepClient] at h
      split at h <;> cases h <;> exact .still (.refl _)
  | save _ _ run tgt =>
    simp only [stepClient] at h
    have htgt := transitionRecord_status now run tgt
    rcases saveRun_cases (transitionRecord now run tgt) hk.1 with ⟨he, hv⟩ | ⟨-, hv⟩
    · rw [hv] at h
      cases h
      refine .changed he (by rw [htgt]; exact target_ne hk.2) ?_
      rw [htgt]
      exact .refl _
    · rw [hv] at h
      cases h
      exact .still (.refl _)
  | event =>
    cases h
    refine .publish _ rfl ?_ (.refl _)
    rw [told_appendEvent, notice_statusEvent]
    rfl
  | returned | invalid | conflict => cases h

end Scenara.Run
