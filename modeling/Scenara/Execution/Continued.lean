import Scenara.Execution.Model
import Scenara.Run.Told
import Scenara.Session.Segment

/-!
# The segment that follows a completed window

* `Watched` is the invariant of the call: as long as a successor is awaited, the `try` body is about
  to create it or to report the error (`coming`), or the call is in the `Exception` handler or over.
* **`continued_step`**: the awaited successor is lost in one kind of step only, `Strands`.
-/

namespace Scenara.Execution

open Scenara.Core
open Run
open Result
open Session (rolls stepWorker_rolls)

variable {s s' : Store} {w w' : Worker} {choice : Choice} {now : ℚ} {successor : Bool}

/-- The run is completed at the end of its window, without an error of the session. -/
structure Awaiting (s : Store) : Prop where
  status : s.run.status = .completed
  reason : s.run.terminationReason = some segmentWindowCompleted
  quiet : ∀ event ∈ s.events, event.eventType ≠ "stream.session.error"

/-- **The steps after which a successor is awaited**: one was before, or the step is the `COMPLETED`
save of a window's end, or it links a successor. -/
theorem stepWorker_awaiting (hk : w.Knows s) (hearly : w.early → s.run.status ≠ .completed)
    (h : stepWorker now s w choice = some (s', w')) (hs' : Awaiting s') :
    Awaiting s ∨ (∃ latest nextRunId, w = .rolloverSave latest nextRunId) ∨
      ∃ run latest saved, w = .complete run latest (some segmentWindowCompleted) ∧
        w' = .event saved (statusEvent .completed) (.event saved "result.available"
          (afterComplete run (some segmentWindowCompleted))) := by
  cases stepWorker_cases h with
  | saved hw =>
    have hstatus := hs'.status
    cases hw with
    | complete hu ht =>
      obtain rfl := ht.symm.trans hs'.reason
      exact .inr (.inr ⟨_, _, _, rfl, by rw [hu]⟩)
    | cancel _ hu | begin _ hu | stop hu | fail hu => cases hu.symm.trans hstatus
  | lost | turned => exact .inl hs'
  | linked => exact .inr (.inl ⟨_, _, rfl⟩)
  | event =>
    exact .inl ⟨hs'.status, hs'.reason, fun event he => hs'.quiet event (List.mem_append_left _ he)⟩
  | call hc hst =>
    -- a call completes no run
    have hopen := hearly trivial
    rcases (stepCall_spec (hk _ (List.mem_of_getElem? hc)) hst).move with hm | ⟨-, hm⟩ | ⟨-, hm⟩
    · exact absurd (hm.symm.trans hs'.status) hopen
    all_goals cases hm.symm.trans hs'.status

/-! ## The workers of a block -/

/-- The worker of a `try` body: a window completes in a stream segment, a link has its successor,
and nothing rolls over after the link. -/
def Formed (successor : Bool) : Worker → Prop
  | .completeRead run termination | .complete run _ termination =>
    termination = some segmentWindowCompleted → segmented run = true
  | .rolloverRead _ _ | .rolloverSave _ _ => successor = true
  | .event _ eventType next =>
    (eventType = "stream.segment.completed" → rolls next = false) ∧ Formed successor next
  | _ => True

/-- The worker of a handler. -/
def closing : Worker → Prop
  | .stopRead | .stopSave _ | .failRead _ _ | .failSave _ _ _ | .returned | .raised => True
  | .event _ _ next => closing next
  | _ => False

theorem Formed.mono {more : Bool} :
    ∀ {w : Worker}, Formed successor w → Formed (successor || more) w
  | .rolloverRead .., h | .rolloverSave .., h => by simp_all [Formed]
  | .event _ _ next, h => ⟨h.1, Formed.mono (w := next) h.2⟩
  | .start, h | .begin .., h | .beginReread _, h | .running .., h | .completeRead .., h
  | .complete .., h | .stopRead, h | .stopSave _, h | .failRead .., h | .failSave .., h
  | .rollover _, h | .returned, h | .raised, h => h

theorem statusEvent_ne (status : RunStatus) : statusEvent status ≠ "stream.segment.completed" := by
  cases status <;> decide

theorem afterBegin_formed (run : RunRecord) : Formed successor (afterBegin run) := by
  unfold afterBegin
  split
  · trivial
  · split
    · exact ⟨fun _ => rfl, trivial⟩
    · trivial

theorem stepWorker_formed (hplain : plain choice = true) (hw : Formed successor w)
    (h : stepWorker now s w choice = some (s', w')) :
    Formed (successor || creates choice) w' := by
  cases stepWorker_cases h with
  | saved hsaves =>
    refine ⟨fun he => absurd he (statusEvent_ne _), ?_⟩
    cases hsaves with
    | begin => exact afterBegin_formed _
    | complete =>
      refine ⟨fun he => absurd he (by simp), ?_⟩
      unfold afterComplete
      split <;> trivial
    | fail => exact ⟨fun he => absurd he (by simp), trivial⟩
    | cancel _ _ | stop _ => trivial
  | lost hsaves => cases hsaves <;> trivial
  | linked => exact ⟨fun _ => rfl, trivial⟩
  | event => exact hw.2.mono
  | call => trivial
  | turned ht =>
    cases ht with
    | begun => exact afterBegin_formed _
    | complete => exact hw
    | created => exact Bool.or_true successor
    | rolled _ | unlinked _ => exact ⟨fun _ => rfl, trivial⟩
    | rollover => exact Formed.mono (w := .rolloverSave s.run _) hw
    | finish | raise | unaudited | failed => cases hplain
    | _ => trivial

theorem stepWorker_closing (hw : closing w) (h : stepWorker now s w choice = some (s', w')) :
    closing w' := by
  cases stepWorker_cases h with
  | saved hsaves _ | lost hsaves _ =>
    cases hsaves with
    | stop _ | fail _ => trivial
    | _ => exact hw.elim
  | linked | call => exact hw.elim
  | event => exact hw
  | turned ht =>
    cases ht with
    | stopOver _ | stopRead _ | failOver _ | failRead _ => trivial
    | _ => exact hw.elim

/-! ## The call -/

variable {U O B D : Type} {x x' : Executing B D} {a : Act U O B}

theorem continued_iff : Continued x ↔ (Awaiting x.store → x.successor = true) := by
  constructor
  · intro h ha
    rcases h ha.status ha.reason with hs | ⟨event, he, htype⟩
    · exact hs
    · exact absurd htype (ha.quiet event he)
  · intro h hstatus hreason
    by_cases hq : ∀ event ∈ x.store.events, event.eventType ≠ "stream.session.error"
    · exact .inl (h ⟨hstatus, hreason, hq⟩)
    · push Not at hq
      exact .inr hq

/-- The worker is about to report the error of the session. -/
def erring : Worker → Bool
  | .event _ eventType _ => eventType = "stream.session.error"
  | _ => false

/-- The worker of the stage's block. -/
def Stage.worker : Stage → Option Worker
  | .trying w | .stopping _ w | .failing w => some w
  | _ => none

/-- The `try` body is about to create the successor, or to report the error. -/
def Stage.coming : Stage → Prop
  | .trying w => rolls w = true ∨ erring w = true
  | _ => False

/-- The `Exception` handler has not read the run yet, or the call is over. -/
def Stage.handled : Stage → Prop
  | .discardPartial _ _ | .discardSink _ _ | .failing (.failRead _ _) | .done _ => True
  | _ => False

/-- The shape of the stage's worker. -/
def Stage.Shaped (successor : Bool) : Stage → Prop
  | .trying w => Formed successor w
  | .stopping _ w | .failing w => closing w
  | _ => True

/-- **The invariant** of the call. -/
structure Watched (x : Executing B D) : Prop where
  knows : ∀ w ∈ x.stage.worker, w.Knows x.store
  early : ∀ w ∈ x.stage.worker, w.early → x.store.run.status ≠ .completed
  shaped : x.stage.Shaped x.successor
  awaited : Continued x ∨ x.stage.coming ∨ x.stage.handled

/-- What a step does to the run, and where it leads. -/
inductive Moves (x : Executing B D) : Act U O B → Executing B D → Prop
  | trying {y} (now choice w w') (hplain : plain choice = true) (hstage : x.stage = .trying w)
      (hstep : stepWorker now x.store w choice = some (y.store, w'))
      (hsuccessor : y.successor = (x.successor || creates choice))
      (hstage' : y.stage = afterTrying w w') : Moves x (.work now choice) y
  | stopping {y} (now choice run w w') (hstage : x.stage = .stopping run w)
      (hstep : stepWorker now x.store w choice = some (y.store, w'))
      (hsuccessor : y.successor = x.successor) (hstage' : y.stage = afterStopping run w w') :
      Moves x (.work now choice) y
  | failing {y} (now choice w w') (hstage : x.stage = .failing w)
      (hstep : stepWorker now x.store w choice = some (y.store, w'))
      (hsuccessor : y.successor = x.successor) (hstage' : y.stage = afterFailing w w') :
      Moves x (.work now choice) y
  | raised {y} (code message) (hstage : raised code message x.stage = some y.stage)
      (hstore : y.store = x.store) (hsuccessor : y.successor = x.successor) :
      Moves x (.raise code message) y
  | created {y run} (hstage : x.stage = .trying (.rollover run)) (hstore : y.store = x.store)
      (hsuccessor : y.successor = true)
      (hstage' : y.stage = .trying (.event run "stream.session.error" .returned)) :
      Moves x .createdRaise y
  | finished {y a run calls} (hstage : x.stage = .trying (.running run calls false))
      (hstore : y.store = x.store) (hsuccessor : y.successor = x.successor)
      (hstage' : (∃ termination, y.stage = .trying (.completeRead run termination) ∧
          (termination = some segmentWindowCompleted → segmented run = true)) ∨
        ∃ code message, y.stage = .discardPartial code message)
      (ha : ∀ code message, a ≠ .raise code message) : Moves x a y
  | still {y a} (hstore : y.store = x.store) (hsuccessor : y.successor = x.successor)
      (hstage' : y.stage = x.stage) (ha : ∀ code message, a ≠ .raise code message) : Moves x a y
  | cleaned {y code message} (f now)
      (hstage : x.stage = .discardPartial code message ∧ y.stage = .discardSink code message ∨
        x.stage = .discardSink code message ∧ y.stage = .failing (.failRead code message))
      (hstore : y.store = x.store) (hsuccessor : y.successor = x.successor) :
      Moves x (.clean f now) y
  | kept {y run} (f eventFails) (hstage : x.stage = .keeping run)
      (hstore : y.store = x.store ∨ y.store = appendEvent x.store run "result.available")
      (hsuccessor : y.successor = x.successor) (hstage' : y.stage = .done false) :
      Moves x (.keep f eventFails) y
  | audited {y} (hstage : (∃ run, x.stage = .cancelAudit run ∧ y.stage = .keeping run) ∨
        x.stage = .failAudit ∧ y.stage = .done false)
      (hstore : y.store = x.store) (hsuccessor : y.successor = x.successor) : Moves x .audit y
  | other {y} (record) (hopen : x.store.run.status ≠ .completed)
      (hstatus : record.status ≠ .completed)
      (hrevision : record.revision = x.store.run.revision + 1)
      (hstore : y.store = { x.store with run := record })
      (hsuccessor : y.successor = x.successor) (hstage' : y.stage = x.stage) :
      Moves x (.other record) y
  | log {y} (event) (htype : event.eventType ≠ "stream.session.error")
      (hstore : y.store = { x.store with events := x.store.events ++ [event] })
      (hsuccessor : y.successor = x.successor) (hstage' : y.stage = x.stage) :
      Moves x (.log event) y

/-! ## What a step keeps -/

/-- The awaited successor exists, or is coming. -/
def Executing.promised (x : Executing B D) : Prop := Continued x ∨ x.stage.coming

/-- The step raises while a successor is awaited, and `create_run` is not what raises. -/
def Strands (x : Executing B D) : Act U O B → Prop
  | .raise _ _ => ¬Continued x ∧ ∀ run, x.stage ≠ .trying (.rollover run)
  | _ => False

section

variable {stage : Stage} (h : Watched x) (hstage : x.stage = stage)
include h hstage

theorem Watched.shape : stage.Shaped x.successor := hstage ▸ h.shaped

theorem Watched.await : Continued x ∨ stage.coming ∨ stage.handled := hstage ▸ h.awaited

theorem Watched.promised (hn : ¬stage.handled) : x.promised := by
  rcases h.awaited with hc | hc | hc
  · exact .inl hc
  · exact .inr hc
  · exact absurd (hstage ▸ hc) hn

theorem Watched.continued (hcoming : ¬stage.coming) (hn : ¬stage.handled) : Continued x :=
  (h.promised hstage hn).resolve_right (hstage ▸ hcoming)

end

theorem afterTrying_worker {u : Worker} (h : u ∈ (afterTrying w w').worker) : u = w' := by
  unfold afterTrying at h
  split at h <;> cases h <;> rfl

theorem afterStopping_worker {run : RunRecord} {u : Worker}
    (h : u ∈ (afterStopping run w w').worker) : u = w' := by
  unfold afterStopping at h
  split at h <;> cases h
  rfl

theorem afterFailing_worker {u : Worker} (h : u ∈ (afterFailing w w').worker) : u = w' := by
  unfold afterFailing at h
  split at h <;> cases h
  rfl

theorem afterTrying_shaped (h : Formed successor w') : (afterTrying w w').Shaped successor := by
  unfold afterTrying
  split
  · trivial
  · trivial
  · trivial
  · exact h

theorem afterStopping_shaped {run : RunRecord} (h : closing w') :
    (afterStopping run w w').Shaped successor := by
  unfold afterStopping
  split
  · trivial
  · trivial
  · trivial
  · exact h

theorem afterFailing_shaped (h : closing w') : (afterFailing w w').Shaped successor := by
  unfold afterFailing
  split
  · trivial
  · trivial
  · trivial
  · exact h

theorem afterTrying_rolls (h : rolls w' = true) : afterTrying w w' = .trying w' := by
  cases w' with
  | event | rollover => unfold afterTrying; split <;> simp_all
  | _ => cases h

theorem rolls_next (hplain : plain choice = true) (hr : rolls w = true)
    (h : stepWorker now s w choice = some (s', w')) : creates choice = true ∨ rolls w' = true := by
  cases w with
  | rollover =>
    cases choice <;> simp only [stepWorker, reduceCtorEq] at h
    · cases hplain
    · exact .inl rfl
  | event =>
    cases choice <;> simp only [stepWorker, reduceCtorEq] at h
    cases h
    exact .inr hr
  | _ => cases hr

theorem trying_promised {stage : Stage} (h : Watched x) (hplain : plain choice = true)
    (hstage : x.stage = .trying w) (hs : stepWorker now x.store w choice = some (s', w'))
    (hstage' : stage = afterTrying w w') (ha : Awaiting s')
    (hsuccessor : (x.successor || creates choice) = false) : stage.coming := by
  rw [Bool.or_eq_false_iff] at hsuccessor
  have hk := h.knows w (by rw [hstage]; rfl)
  have hearly := h.early w (by rw [hstage]; rfl)
  have hshaped : Formed x.successor w := h.shape hstage
  rcases stepWorker_awaiting hk hearly hs ha with hb | ⟨latest, _, rfl⟩ |
      ⟨run, latest, saved, rfl, rfl⟩
  · have hcoming : (Stage.trying w).coming := by
      rcases h.await hstage with hc | hc | hc
      · cases hsuccessor.1.symm.trans (continued_iff.1 hc hb)
      · exact hc
      · exact hc.elim
    rcases hcoming with hrolls | herring
    · rcases rolls_next hplain hrolls hs with hcreates | hrolls'
      · simp [hsuccessor.2] at hcreates
      · rw [hstage', afterTrying_rolls hrolls']
        exact .inl hrolls'
    · cases w with
      | event run eventType =>
        cases choice <;> simp only [stepWorker, reduceCtorEq] at hs
        cases hs
        have htype : eventType = "stream.session.error" := by simpa [erring] using herring
        exact absurd htype (ha.quiet ⟨eventType, run.status⟩ (by simp [appendEvent]))
      | _ => cases herring
  · rw [show x.successor = true from hshaped] at hsuccessor
    cases hsuccessor.1
  · have hsegmented : segmented run = true := hshaped rfl
    have hrolls : rolls (afterComplete run (some segmentWindowCompleted)) = true := by
      unfold afterComplete
      rw [if_pos]
      · rfl
      · unfold segmented at hsegmented
        rw [Bool.and_eq_true] at hsegmented
        exact ⟨hsegmented.1, hsegmented.2, rfl⟩
    have hrolls' : rolls (.event saved (statusEvent .completed) (.event saved "result.available"
        (afterComplete run (some segmentWindowCompleted)))) = true := hrolls
    rw [hstage', afterTrying_rolls hrolls']
    exact .inl hrolls'

theorem trying_kept (h : Watched x) (hplain : plain choice = true) (hstage : x.stage = .trying w)
    (hs : stepWorker now x.store w choice = some (x'.store, w'))
    (hsuccessor : x'.successor = (x.successor || creates choice))
    (hstage' : x'.stage = afterTrying w w') : x'.promised := by
  by_cases hc : Continued x'
  · exact .inl hc
  · rw [continued_iff, Classical.not_imp, Bool.not_eq_true, hsuccessor] at hc
    exact .inr (trying_promised h hplain hstage hs hstage' hc.1 hc.2)

theorem closing_continued (h : Watched x) (hw : w ∈ x.stage.worker) (hclosing : closing w)
    (hs : stepWorker now x.store w choice = some (x'.store, w'))
    (hsuccessor : x'.successor = x.successor) (hc : Continued x) : Continued x' := by
  rw [continued_iff] at hc ⊢
  intro ha
  rw [hsuccessor]
  rcases stepWorker_awaiting (h.knows w hw) (h.early w hw) hs ha with hb | ⟨latest, _, rfl⟩ |
      ⟨run, latest, saved, rfl, rfl⟩
  · exact hc hb
  all_goals exact hclosing.elim

theorem continued_congr (hstore : x'.store = x.store) (hsuccessor : x'.successor = x.successor) :
    Continued x' ↔ Continued x := by
  unfold Continued
  rw [hstore, hsuccessor]

theorem logged_continued {event : RunEvent} (htype : event.eventType ≠ "stream.session.error")
    (hstore : x'.store = { x.store with events := x.store.events ++ [event] })
    (hsuccessor : x'.successor = x.successor) : Continued x' ↔ Continued x := by
  unfold Continued
  rw [hstore, hsuccessor]
  simp [htype]

theorem watched_delivered (h : Delivered x) : Watched x where
  knows w hw := by
    rw [h.stage] at hw
    cases hw
    trivial
  early w hw he := by
    rw [h.stage] at hw
    cases hw
    exact he.elim
  shaped := by
    rw [h.stage]
    trivial
  awaited := .inl fun hc => absurd hc h.status

theorem raised_cases {code message : String} {stage stage' : Stage}
    (h : raised code message stage = some stage') :
    (∃ w run, stage = .trying w ∧ rollingOver w = some run ∧
        stage' = .trying (.event run "stream.session.error" .returned)) ∨
      (stage' = .done true ∨ stage' = .discardPartial code message) ∧
        ∀ w, stage = .trying w → rollingOver w = none := by
  unfold raised at h
  split at h
  · cases h
    exact .inr ⟨.inl rfl, fun w hw => by cases hw; rfl⟩
  · split at h <;> cases h
    · exact .inl ⟨_, _, rfl, by assumption, rfl⟩
    · exact .inr ⟨.inr rfl, fun w hw => by cases hw; assumption⟩
  all_goals first | (cases h; done) | (cases h; exact .inr ⟨.inl rfl, nofun⟩)

section

variable {stage : Stage}

theorem watched_at (hstage : x.stage = stage) (hknows : ∀ u ∈ stage.worker, u.Knows x.store)
    (hearly : ∀ u ∈ stage.worker, u.early → x.store.run.status ≠ .completed)
    (hshaped : stage.Shaped x.successor) (hawaited : Continued x ∨ stage.coming ∨ stage.handled) :
    Watched x := by
  subst hstage
  exact ⟨hknows, hearly, hshaped, hawaited⟩

theorem watched_idle (hstage : x.stage = stage) (hworker : stage.worker = none)
    (hawaited : Continued x ∨ stage.coming ∨ stage.handled) : Watched x := by
  refine watched_at hstage (fun u hu => ?_) (fun u hu _ => ?_) ?_ hawaited
  · cases hworker.symm.trans hu
  · cases hworker.symm.trans hu
  · cases stage with
    | trying | stopping | failing => cases hworker
    | _ => trivial

theorem watched_handled (hstage : x.stage = stage) (hworker : stage.worker = none)
    (hhandled : stage.handled) : Watched x :=
  watched_idle hstage hworker (.inr (.inr hhandled))

theorem watched_worked (h : Watched x) (hw : w ∈ x.stage.worker)
    (hstep : stepWorker now x.store w choice = some (x'.store, w')) (hstage : x'.stage = stage)
    (hworker : ∀ u ∈ stage.worker, u = w') (hshaped : stage.Shaped x'.successor)
    (hawaited : Continued x' ∨ stage.coming ∨ stage.handled) : Watched x' := by
  refine watched_at hstage (fun u hu => ?_) (fun u hu he => ?_) hshaped hawaited
  · obtain rfl := hworker u hu
    exact (stepWorker_spec (h.knows w hw) hstep).knows
  · obtain rfl := hworker u hu
    exact worker_not_completed (h.knows w hw) (h.early w hw) hstep he

end

theorem watched_moves (h : Watched x) (hm : Moves x a x') : Watched x' := by
  cases hm with
  | trying _ _ w _ hplain hstage hstep hsuccessor hstage' =>
    refine watched_worked h (by rw [hstage]; rfl) hstep hstage' (fun _ => afterTrying_worker) ?_ ?_
    · rw [hsuccessor]
      exact afterTrying_shaped (stepWorker_formed hplain (h.shape hstage) hstep)
    · rcases trying_kept h hplain hstage hstep hsuccessor hstage' with hc | hc
      · exact .inl hc
      · exact .inr (.inl (hstage' ▸ hc))
  | stopping _ _ _ w _ hstage hstep hsuccessor hstage' =>
    have hw : w ∈ x.stage.worker := by rw [hstage]; rfl
    have hclosing : closing w := h.shape hstage
    exact watched_worked h hw hstep hstage' (fun _ => afterStopping_worker)
      (afterStopping_shaped (stepWorker_closing hclosing hstep))
      (.inl (closing_continued h hw hclosing hstep hsuccessor (h.continued hstage id id)))
  | failing _ choice w w' hstage hstep hsuccessor hstage' =>
    have hw : w ∈ x.stage.worker := by rw [hstage]; rfl
    have hclosing : closing w := h.shape hstage
    refine watched_worked h hw hstep hstage' (fun _ => afterFailing_worker)
      (afterFailing_shaped (stepWorker_closing hclosing hstep)) ?_
    by_cases hc : Continued x
    · exact .inl (closing_continued h hw hclosing hstep hsuccessor hc)
    · refine .inr (.inr ?_)
      have ha : Awaiting x.store := by
        rw [continued_iff, Classical.not_imp] at hc
        exact hc.1
      rcases h.await hstage with hc' | hc' | hc'
      · exact absurd hc' hc
      · exact hc'.elim
      · cases w with
        | failRead =>
          cases choice <;> simp only [stepWorker, reduceCtorEq] at hstep
          rw [if_pos (by rw [ha.status]; rfl)] at hstep
          obtain rfl : Worker.returned = w' := (Prod.mk.inj (Option.some.inj hstep)).2
          trivial
        | _ => exact hc'.elim
  | raised _ _ hstage =>
    rcases raised_cases hstage with ⟨w, _, -, -, hst⟩ | ⟨hst | hst, -⟩
    · refine watched_at hst (fun u hu => ?_) (fun u hu he => ?_) ⟨fun _ => rfl,
        trivial⟩ (.inr (.inl (.inr rfl)))
      · cases hu
        trivial
      · cases hu
        exact he.elim
    all_goals exact watched_handled hst rfl trivial
  | created _ _ hsuccessor hstage' =>
    refine watched_at hstage' (fun u hu => ?_) (fun u hu he => ?_) ⟨fun _ => rfl, trivial⟩
      (.inl (continued_iff.2 fun _ => hsuccessor))
    · cases hu
      trivial
    · cases hu
      exact he.elim
  | finished hstage hstore hsuccessor hstage' ha =>
    rename_i run calls
    have hc := h.continued hstage (by simp [Stage.coming, rolls, erring]) id
    have hopen : x'.store.run.status ≠ .completed := by
      rw [hstore]
      exact h.early (.running run calls false) (by rw [hstage]; rfl) trivial
    have hc' := (continued_congr hstore hsuccessor).2 hc
    rcases hstage' with ⟨_, hst, hwindow⟩ | ⟨_, _, hst⟩
    · refine watched_at hst (fun u hu => ?_) (fun u hu he => hopen) hwindow (.inl hc')
      cases hu
      trivial
    · exact watched_idle hst rfl (.inl hc')
  | still hstore hsuccessor hstage' =>
    obtain ⟨hknows, hearly, hshaped, hawaited⟩ := h
    rw [← continued_congr hstore hsuccessor] at hawaited
    rw [← hstage'] at hknows hearly hshaped hawaited
    rw [← hstore] at hknows hearly
    rw [← hsuccessor] at hshaped
    exact ⟨hknows, hearly, hshaped, hawaited⟩
  | cleaned f _ hstage =>
    rcases hstage with ⟨-, hst⟩ | ⟨-, hst⟩
    · exact watched_handled hst rfl trivial
    · refine watched_at hst (fun u hu => ?_) (fun u hu he => ?_) trivial (.inr (.inr trivial))
      · cases hu
        trivial
      · cases hu
        exact he.elim
  | kept f _ _ _ _ hstage' =>
    exact watched_handled hstage' rfl trivial
  | audited hstage hstore hsuccessor =>
    rcases hstage with ⟨_, hst, hst'⟩ | ⟨-, hst'⟩
    · exact watched_idle hst' rfl
        (.inl ((continued_congr hstore hsuccessor).2 (h.continued hst id id)))
    · exact watched_handled hst' rfl trivial
  | other _ _ hstatus hrevision hstore hsuccessor hstage' =>
    have hadvances : Advances x.store x'.store := .inr (by rw [hstore]; exact hrevision)
    have hopen' : x'.store.run.status ≠ .completed := by rw [hstore]; exact hstatus
    refine ⟨fun u hu => ?_, fun u hu he => hopen', ?_, .inl fun hc => absurd hc hopen'⟩
    · rw [hstage'] at hu
      exact (h.knows u hu).mono hadvances
    · rw [hstage', hsuccessor]
      exact h.shaped
  | log _ htype hstore hsuccessor hstage' =>
    have hrun : x'.store.run = x.store.run := by rw [hstore]
    refine ⟨fun u hu => ?_, fun u hu he => ?_, ?_, ?_⟩
    · rw [hstage'] at hu
      exact (h.knows u hu).mono (.inl hrun)
    · rw [hstage'] at hu
      rw [hrun]
      exact h.early u hu he
    · rw [hstage', hsuccessor]
      exact h.shaped
    · rw [hstage']
      exact h.awaited.imp_left (logged_continued htype hstore hsuccessor).2

theorem kept_iff (h : x.promised) (h' : x'.promised) (hn : ¬Strands x a) :
    x'.promised ↔ x.promised ∧ ¬Strands x a :=
  ⟨fun _ => ⟨h, hn⟩, fun _ => h'⟩

theorem promised_iff (h : ¬x.stage.coming) : x.promised ↔ Continued x :=
  ⟨fun hp => hp.resolve_right h, .inl⟩

/-- **The awaited successor is lost in a step that strands it**, and in no other. -/
theorem promised_moves (h : Watched x) (hm : Moves x a x') :
    x'.promised ↔ x.promised ∧ ¬Strands x a := by
  cases hm with
  | trying _ _ w _ hplain hstage hstep hsuccessor hstage' =>
    exact kept_iff (h.promised hstage id) (trying_kept h hplain hstage hstep hsuccessor hstage') id
  | stopping _ _ _ w _ hstage hstep hsuccessor =>
    have hc := h.continued hstage id id
    have hw : w ∈ x.stage.worker := by rw [hstage]; rfl
    exact kept_iff (.inl hc) (.inl (closing_continued h hw (h.shape hstage) hstep hsuccessor hc)) id
  | failing _ choice w _ hstage hstep hsuccessor hstage' =>
    have hw : w ∈ x.stage.worker := by rw [hstage]; rfl
    have hcoming' : ¬x'.stage.coming := by
      rw [hstage']
      unfold afterFailing
      split <;> exact id
    rw [promised_iff hcoming', promised_iff (by rw [hstage]; exact id)]
    refine ⟨fun hc' => ⟨?_, id⟩,
      fun hc => closing_continued h hw (h.shape hstage) hstep hsuccessor hc.1⟩
    by_cases hhandled : (Stage.failing w).handled
    · cases w with
      | failRead =>
        cases choice <;> simp only [stepWorker, reduceCtorEq] at hstep
        have hstore : x'.store = x.store := by
          split at hstep <;> exact (Prod.mk.inj (Option.some.inj hstep)).1.symm
        exact (continued_congr hstore hsuccessor).1 hc'
      | _ => exact hhandled.elim
    · exact h.continued hstage id hhandled
  | raised _ _ hstage hstore hsuccessor =>
    rcases raised_cases hstage with ⟨w, run, hst, hrolling, hst'⟩ | ⟨hst', hnone⟩
    · refine kept_iff (h.promised hst id) (.inr (by rw [hst']; exact .inr rfl)) ?_
      rintro ⟨hc, hne⟩
      have hcoming := (h.promised hst id).resolve_left hc
      have hshaped := h.shape hst
      rw [hst] at hcoming
      cases w with
      | rollover run' => exact hne run' hst
      | event =>
        simp only [rollingOver] at hrolling
        split at hrolling
        · rename_i htype
          subst htype
          rcases hcoming with hr | hr
          · simp [rolls, hshaped.1 rfl] at hr
          · simp [erring] at hr
        · cases hrolling
      | rolloverRead | rolloverSave => exact hcoming.elim Bool.noConfusion Bool.noConfusion
      | _ => cases hrolling
    · have hcoming' : ¬x'.stage.coming := by
        rcases hst' with hst' | hst' <;> rw [hst'] <;> exact id
      rw [promised_iff hcoming', continued_congr hstore hsuccessor]
      refine ⟨fun hc => ⟨.inl hc, fun hstrands => hstrands.1 hc⟩, fun hp => ?_⟩
      by_contra hc
      refine hp.2 ⟨hc, fun run hst => ?_⟩
      cases hnone (.rollover run) hst
  | created hstage _ hsuccessor =>
    exact kept_iff (h.promised hstage id) (.inl (continued_iff.2 fun _ => hsuccessor)) id
  | finished hstage hstore hsuccessor _ ha =>
    have hc := h.continued hstage (by simp [Stage.coming, rolls, erring]) id
    refine kept_iff (.inl hc) (.inl ((continued_congr hstore hsuccessor).2 hc)) ?_
    cases a <;> first | exact id | exact absurd rfl (ha _ _)
  | still hstore hsuccessor hstage' ha =>
    have hn : ¬Strands x a := by
      cases a <;> first | exact id | exact absurd rfl (ha _ _)
    unfold Executing.promised
    rw [continued_congr hstore hsuccessor, hstage', and_iff_left hn]
  | cleaned f _ hstage hstore hsuccessor =>
    have hcoming : ¬x.stage.coming ∧ ¬x'.stage.coming := by
      rcases hstage with ⟨hst, hst'⟩ | ⟨hst, hst'⟩ <;> rw [hst, hst'] <;> exact ⟨id, id⟩
    rw [promised_iff hcoming.1, promised_iff hcoming.2, continued_congr hstore hsuccessor,
      and_iff_left]
    exact id
  | kept f _ hstage hstore hsuccessor =>
    have hc := h.continued hstage id id
    refine kept_iff (.inl hc) (.inl ?_) id
    rcases hstore with hstore | hstore
    · exact (continued_congr hstore hsuccessor).2 hc
    · exact (logged_continued (by simp) hstore hsuccessor).2 hc
  | audited hstage hstore hsuccessor =>
    have hc : Continued x := by
      rcases hstage with ⟨_, hst, -⟩ | ⟨hst, -⟩ <;> exact h.continued hst id id
    exact kept_iff (.inl hc) (.inl ((continued_congr hstore hsuccessor).2 hc)) id
  | other _ hopen _ _ hstore =>
    refine kept_iff (.inl fun hc => absurd hc hopen) (.inl fun hc => absurd hc ?_) id
    rwa [hstore]
  | log _ htype hstore hsuccessor hstage' =>
    unfold Executing.promised
    rw [logged_continued htype hstore hsuccessor, hstage', and_iff_left]
    exact id

theorem keepPartial_store (v : Service (Fields O)) (x : Executing B D) (run : RunRecord)
    (f : Faults) (eventFails : Bool) :
    ((keepPartial v x run f eventFails).store = x.store ∨
        (keepPartial v x run f eventFails).store = appendEvent x.store run "result.available") ∧
      (keepPartial v x run f eventFails).successor = x.successor ∧
      (keepPartial v x run f eventFails).stage = .done false := by
  unfold keepPartial
  split
  · exact ⟨.inl rfl, rfl, rfl⟩
  · split
    · dsimp only
      split
      · exact ⟨.inl rfl, rfl, rfl⟩
      · cases eventFails
        · exact ⟨.inr rfl, rfl, rfl⟩
        · exact ⟨.inl rfl, rfl, rfl⟩
    · split <;> exact ⟨.inl rfl, rfl, rfl⟩

variable [DecidableEq D] {c : Codec U (Fields O) B D} {v : Service (Fields O)}

theorem step_moves (hs : step c v x a = some x') : Moves x a x' := by
  cases a with
  | work now choice =>
    simp only [step, stepWork] at hs
    split at hs
    · rename_i hplain
      split at hs
      · rename_i w hstage
        obtain ⟨r, hr, rfl⟩ := Option.map_eq_some_iff.1 hs
        exact .trying now choice w r.2 hplain hstage hr rfl rfl
      · rename_i run w hstage
        obtain ⟨r, hr, rfl⟩ := Option.map_eq_some_iff.1 hs
        exact .stopping now choice run w r.2 hstage hr rfl rfl
      · rename_i w hstage
        obtain ⟨r, hr, rfl⟩ := Option.map_eq_some_iff.1 hs
        exact .failing now choice w r.2 hstage hr rfl rfl
      · cases hs
    · cases hs
  | image =>
    simp only [step, storeImage] at hs
    split at hs
    · split at hs
      · cases hs
        exact .still rfl rfl rfl (by simp)
      · split at hs <;> cases hs
        exact .still rfl rfl rfl (by simp)
    · cases hs
  | publish =>
    simp only [step] at hs
    split at hs
    · split at hs <;> cases hs
      exact .still rfl rfl rfl (by simp)
    · cases hs
  | finish =>
    simp only [step] at hs
    split at hs
    · rename_i run calls hstage
      split at hs
      · rename_i hwindow
        split at hs <;> cases hs
        · exact .finished hstage rfl rfl (.inl ⟨_, rfl, hwindow.2⟩) (by simp)
        · exact .finished hstage rfl rfl (.inr ⟨_, _, rfl⟩) (by simp)
      · cases hs
    · cases hs
  | raise code message =>
    obtain ⟨_, hstage, rfl⟩ := Option.map_eq_some_iff.1 hs
    exact .raised code message hstage rfl rfl
  | createdRaise =>
    simp only [step] at hs
    split at hs <;> cases hs
    exact .created (by assumption) rfl rfl rfl
  | clean faults now =>
    simp only [step] at hs
    split at hs
    · cases hs
      exact .cleaned faults now (.inl ⟨by assumption, rfl⟩) rfl rfl
    · split at hs <;> cases hs <;>
        exact .cleaned faults now (.inr ⟨by assumption, rfl⟩) rfl rfl
    · cases hs
  | keep faults eventFails =>
    simp only [step] at hs
    split at hs <;> cases hs
    rename_i run hstage
    obtain ⟨hstore, hsuccessor, hstage'⟩ := keepPartial_store v x run faults eventFails
    exact .kept faults eventFails hstage hstore hsuccessor hstage'
  | audit =>
    simp only [step] at hs
    split at hs <;> cases hs
    · exact .audited (.inl ⟨_, by assumption, rfl⟩) rfl rfl
    · exact .audited (.inr ⟨by assumption, rfl⟩) rfl rfl
  | other record =>
    simp only [step] at hs
    split at hs <;> cases hs
    rename_i h
    refine .other record (fun hc => ?_) h.2.1 h.2.2 rfl rfl rfl
    rw [hc] at h
    cases h.1
  | log event =>
    simp only [step] at hs
    split at hs <;> cases hs
    exact .log event (by assumption) rfl rfl rfl

theorem watched_step (h : Watched x) (hs : step c v x a = some x') : Watched x' :=
  watched_moves h (step_moves hs)

theorem promised_step (h : Watched x) (hs : step c v x a = some x') :
    x'.promised ↔ x.promised ∧ ¬Strands x a :=
  promised_moves h (step_moves hs)

end Scenara.Execution
