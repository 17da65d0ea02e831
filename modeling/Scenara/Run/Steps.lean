import Scenara.Run.Model

/-!
# What one step of the run lifecycle can do

Every write of the run record is a compare-and-swap from a snapshot, so it is described by the
snapshot's status and the status it stores. This file says it once for each party:

* `Knows` is what a party's snapshot is worth at its program counter: how it relates to the
  stored record (`Seen`), and the status it was tested for.
* `stepCall_spec`, `stepWorker_spec`, `stepClient_spec`: a step keeps `Knows` for its own party,
  raises the revision by at most one, and moves the stored status along `CallMove` / `WorkerMove`
  / `ClientMove`.
* `Knows.mono`: a step of another party keeps it too.
-/

namespace Scenara.Run

open Scenara.Core

/-! ## What a step can do -/

/-- `_set_status` of a call: its snapshot, the record that it stores, and where it goes on. -/
inductive Call.Saves : Call → RunRecord → RunRecord → Call → Prop
  | cancel {latest u} : latest.status = .cancelling → u.status = .cancelled →
      Saves (.checkpointCancel latest) latest u .stopped
  | pause {latest u} : latest.status = .pausing → u.status = .paused →
      Saves (.checkpointPause latest) latest u .checkpoint

/-- A step of a call that writes nothing. -/
inductive Call.Turns (s : Store) : Call → Call → Prop
  | cancel : s.run.status = .cancelling → Turns s .checkpoint (.checkpointCancel s.run)
  | pause : s.run.status = .pausing → Turns s .checkpoint (.checkpointPause s.run)
  | again : Turns s .checkpoint .checkpoint
  | goOn : Turns s .checkpoint .returned
  | lost {c next snap u} : Saves c snap u next → Turns s c .conflict
  | exhausted {value} : Turns s (.progress 0 value) .conflict
  | unreported {left value} : Turns s (.progress (left + 1) value) .returned
  | reported {left} : Turns s (.progress (left + 1) none) (.event s.run "run.progress" .returned)
  | progress {left value next} :
      Turns s (.progress (left + 1) value) (.progressSave left value s.run next)
  | retry {left value latest next} :
      Turns s (.progressSave left value latest next) (.progress left value)

/-- **What a step of a call can do.** -/
inductive CallStep (s : Store) : Call → Store → Call → Prop
  | saved {c next snap u} : c.Saves snap u next → s.run = snap →
      CallStep s c { s with run := { u with revision := snap.revision + 1 } }
        (.event { u with revision := snap.revision + 1 } (statusEvent u.status) next)
  | progressed {left value latest next} {u : RunRecord} : u.status = latest.status →
      s.run = latest → CallStep s (.progressSave left value latest next)
        { s with run := { u with revision := latest.revision + 1 } }
        (.event { u with revision := latest.revision + 1 } "run.progress" .returned)
  | event (run : RunRecord) (eventType : String) (next : Call) :
      CallStep s (.event run eventType next) (appendEvent s run eventType) next
  | turned {c c'} : c.Turns s c' → CallStep s c s c'

/-- `_set_status` of a worker: its snapshot, the record that it stores, and where it goes on, after
the save and at a conflict. -/
inductive Saves : Worker → RunRecord → RunRecord → Worker → Worker → Prop
  | cancel {left run u} : run.status = .cancelling → u.status = .cancelled →
      Saves (.begin (left + 1) run) run u .returned conflictFailure
  | begin {left run u} : run.status = .queued → u.status = .running →
      Saves (.begin (left + 1) run) run u (afterBegin { u with revision := run.revision + 1 })
        (.beginReread left)
  | complete {run latest u termination} : u.status = .completed →
      u.terminationReason = termination →
      Saves (.complete run latest termination) latest u
        (.event { u with revision := latest.revision + 1 } "result.available"
          (afterComplete run termination)) conflictFailure
  | stop {latest u} : u.status = .cancelled → Saves (.stopSave latest) latest u .returned .raised
  | fail {latest u code message} : u.status = .failed →
      Saves (.failSave latest code message) latest u
        (.event { u with revision := latest.revision + 1 } "run.error" .returned) .raised

/-- A call as the pipeline starts it. -/
inductive Call.Starts : Choice → Call → Prop
  | checkpoint : Starts .callCheckpoint .checkpoint
  | progress (value : Option ℚ) : Starts (.callProgress value) (.progress 4 value)

/-- A step of a worker that writes nothing. -/
inductive Turns (s : Store) : Worker → Choice → Worker → Prop
  | ended : s.run.status.terminal = true → Turns s .start .go .returned
  | start : s.run.status.terminal = false → Turns s .start .go (.begin 4 s.run)
  | exhausted {run} : Turns s (.begin 0 run) .go
      (.failRead "PIPELINE_EXECUTION_FAILED" "run could not acquire execution state")
  | begun {left run} : run.status ≠ .queued → run.status ≠ .cancelling →
      Turns s (.begin (left + 1) run) .go (afterBegin run)
  | reread {left} : Turns s (.beginReread left) .go (.begin left s.run)
  | called {run calls stopped choice} (c : Call) : Call.Starts choice c →
      Turns s (.running run calls stopped) choice (.running run (calls ++ [c]) stopped)
  | finish {run calls termination} :
      Turns s (.running run calls false) (.finish termination) (.completeRead run termination)
  | raise {run calls stopped code message} :
      Turns s (.running run calls stopped) (.raise code message) (.failRead code message)
  | stop {run calls} : Turns s (.running run calls true) .stop .stopRead
  | complete {run termination} :
      Turns s (.completeRead run termination) .go (.complete run s.run termination)
  | unaudited {run latest termination code message} :
      Turns s (.complete run latest termination) (.raise code message) (.failRead code message)
  | created {run runId} : Turns s (.rollover run) (.created runId) (.rolloverRead run runId)
  | failed {run code message} :
      Turns s (.rollover run) (.raise code message) (.event run "stream.session.error" .returned)
  | rolled {run nextRunId} : s.run.nextRunId = some nextRunId →
      Turns s (.rolloverRead run nextRunId) .go (.event s.run "stream.segment.completed" .returned)
  | rollover {run nextRunId} : s.run.nextRunId ≠ some nextRunId →
      Turns s (.rolloverRead run nextRunId) .go (.rolloverSave s.run nextRunId)
  | unlinked {latest nextRunId} : s.run.revision ≠ latest.revision →
      Turns s (.rolloverSave latest nextRunId) .go
        (.event latest "stream.segment.completed" .returned)
  | stopOver : s.run.status = .cancelled → Turns s .stopRead .go .returned
  | stopRead : s.run.status ≠ .cancelled → Turns s .stopRead .go (.stopSave s.run)
  | failOver {code message} : s.run.status.terminal = true →
      Turns s (.failRead code message) .go .returned
  | failRead {code message} : s.run.status.terminal = false →
      Turns s (.failRead code message) .go (.failSave s.run code message)

/-- **What a step of a worker can do**: a save of `_set_status` that succeeds or meets a conflict,
the link to the next segment, an event, a store call of its pipeline, or nothing to the store. -/
inductive WorkerStep (now : ℚ) (s : Store) : Worker → Choice → Store → Worker → Prop
  | saved {w next onConflict snap u} : Saves w snap u next onConflict →
      s.run.revision = snap.revision →
      WorkerStep now s w .go { s with run := { u with revision := snap.revision + 1 } }
        (.event { u with revision := snap.revision + 1 } (statusEvent u.status) next)
  | lost {w next onConflict snap u} : Saves w snap u next onConflict →
      s.run.revision ≠ snap.revision → WorkerStep now s w .go s onConflict
  | linked {latest u : RunRecord} {nextRunId} : u.status = latest.status →
      s.run.revision = latest.revision →
      WorkerStep now s (.rolloverSave latest nextRunId) .go
        { s with run := { u with revision := latest.revision + 1 } }
        (.event { u with revision := latest.revision + 1 } "stream.segment.completed" .returned)
  | event (run : RunRecord) (eventType : String) (next : Worker) :
      WorkerStep now s (.event run eventType next) .go (appendEvent s run eventType) next
  | call {run calls stopped stopped' k c c' s'} : calls[k]? = some c →
      stepCall now s c = some (s', c') → stopped' = stopped ∨ c' = .stopped →
      WorkerStep now s (.running run calls stopped) (.call k) s'
        (.running run (calls.set k c') stopped')
  | turned {w w' choice} : Turns s w choice w' → WorkerStep now s w choice s w'

variable {s s' : Store} {now : ℚ} {pausable : Bool} {w w' : Worker} {snap u : RunRecord}

/-! ## Saves -/

/-- A snapshot of the run record against the stored one. -/
abbrev Seen (snap : RunRecord) (s : Store) : Prop := Coherent RunRecord.revision snap s.run

/-- The stored record is the same, or the next version. -/
def Advances (s s' : Store) : Prop :=
  s'.run = s.run ∨ s'.run.revision = s.run.revision + 1

theorem seen_self (s : Store) : Seen s.run s := Coherent.refl _ _

theorem Advances.refl (s : Store) : Advances s s := Or.inl rfl

theorem Advances.seen (ha : Advances s s') {snap : RunRecord} (h : Seen snap s) : Seen snap s' := by
  rcases ha with he | hr
  · unfold Seen
    rwa [he]
  · exact h.advance hr

/-- A save from a snapshot found it in the store, or found a newer version and did nothing. -/
theorem saveRun_cases {s : Store} {snap : RunRecord} (u : RunRecord) (h : Seen snap s) :
    (s.run = snap ∧
      saveRun s u snap.revision =
        some ({ s with run := { u with revision := snap.revision + 1 } },
          { u with revision := snap.revision + 1 })) ∨
      (s.run.revision ≠ snap.revision ∧ saveRun s u snap.revision = none) := by
  by_cases hr : s.run.revision = snap.revision
  · exact Or.inl ⟨h.eq_of_rev hr, by simp [saveRun, cas, hr]⟩
  · exact Or.inr ⟨hr, by simp [saveRun, cas, hr]⟩

theorem advances_save {s : Store} (h : s.run = snap) :
    Advances s { s with run := { u with revision := snap.revision + 1 } } :=
  Or.inr (by rw [h])

theorem advances_append (s : Store) (run : RunRecord) (eventType : String) :
    Advances s (appendEvent s run eventType) := Or.inl rfl

/-! ## What each party knows -/

/-- A call's snapshot: current unless somebody saved since, and tested for this status. -/
def Call.Knows (s : Store) : Call → Prop
  | .checkpointCancel latest => Seen latest s ∧ latest.status = .cancelling
  | .checkpointPause latest => Seen latest s ∧ latest.status = .pausing
  | .progressSave _ _ latest _ => Seen latest s
  | .event _ _ next => next.Knows s
  | _ => True

/-- A worker's snapshot, and those of its pipeline's calls. -/
def Worker.Knows (s : Store) : Worker → Prop
  | .begin _ run => Seen run s
  | .running _ calls _ => ∀ c ∈ calls, c.Knows s
  | .complete _ latest _ => Seen latest s
  | .rolloverSave latest _ => Seen latest s
  | .stopSave latest => Seen latest s ∧ latest.status ≠ .cancelled
  | .failSave latest _ _ => Seen latest s ∧ latest.status.terminal = false
  | .event _ _ next => next.Knows s
  | _ => True

/-- A transition call's snapshot, which allows the action. -/
def Client.Knows (pausable : Bool) (s : Store) : Client → Prop
  | .save _ action run tgt => Seen run s ∧ target pausable action run.status = .ok tgt
  | _ => True

theorem Call.Knows.mono (ha : Advances s s') : ∀ {c : Call}, c.Knows s → c.Knows s'
  | .checkpointCancel _, h => ⟨ha.seen h.1, h.2⟩
  | .checkpointPause _, h => ⟨ha.seen h.1, h.2⟩
  | .progressSave .., h => ha.seen h
  | .event _ _ next, h => Call.Knows.mono (c := next) ha h
  | .checkpoint, h | .progress .., h | .returned, h | .conflict, h | .stopped, h => h

theorem Worker.Knows.mono (ha : Advances s s') : ∀ {w : Worker}, w.Knows s → w.Knows s'
  | .begin .., h => ha.seen h
  | .running .., h => fun c hc => (h c hc).mono ha
  | .complete .., h => ha.seen h
  | .rolloverSave .., h => ha.seen h
  | .stopSave _, h => ⟨ha.seen h.1, h.2⟩
  | .failSave .., h => ⟨ha.seen h.1, h.2⟩
  | .event _ _ next, h => Worker.Knows.mono (w := next) ha h
  | .start, h | .beginReread _, h | .completeRead .., h | .rolloverRead .., h | .stopRead, h
  | .failRead .., h | .rollover _, h | .returned, h | .raised, h => h

theorem Client.Knows.mono (ha : Advances s s') {c : Client}
    (h : c.Knows pausable s) : c.Knows pausable s' := by
  cases c with
  | save => exact ⟨ha.seen h.1, h.2⟩
  | _ => exact h

/-! ## Calls -/

/-- How a pipeline call may change the stored status. -/
def CallMove (s s' : Store) : Prop :=
  s'.run.status = s.run.status ∨
    (s.run.status = .cancelling ∧ s'.run.status = .cancelled) ∨
    (s.run.status = .pausing ∧ s'.run.status = .paused)

/-- The call raised `ExecutionStopped`, or will after its events. -/
def Call.stopping : Call → Prop
  | .stopped => True
  | .event _ _ next => next.stopping
  | _ => False

/-- What a step of a call from `c` in `s` to `c'` in `s'` guarantees. -/
structure CallSpec (s : Store) (c : Call) (s' : Store) (c' : Call) : Prop where
  advances : Advances s s'
  knows : c'.Knows s'
  move : CallMove s s'
  stopping : c'.stopping → c.stopping ∨ s'.run.status = .cancelled

theorem CallSpec.quiet {s : Store} {c c' : Call} (hk : c'.Knows s)
    (hs : c'.stopping → c.stopping) : CallSpec s c s c' :=
  ⟨Advances.refl s, hk, Or.inl rfl, fun h => Or.inl (hs h)⟩

theorem Call.setStatus_cases {c c' next : Call} (hc : c.Saves snap u next) (hk : Seen snap s)
    (h : Call.setStatus s snap u next = (s', c')) : CallStep s c s' c' := by
  unfold Call.setStatus at h
  rcases saveRun_cases u hk with ⟨he, hv⟩ | ⟨-, hv⟩ <;> rw [hv] at h <;> cases h
  · exact .saved hc he
  · exact .turned (.lost hc)

theorem stepCall_cases {c c' : Call} (hk : c.Knows s)
    (h : stepCall now s c = some (s', c')) : CallStep s c s' c' := by
  cases c with
  | checkpoint =>
    simp only [stepCall] at h
    split at h <;> cases h
    · exact .turned (.cancel (by assumption))
    · exact .turned (.pause (by assumption))
    · exact .turned .again
    · exact .turned .goOn
  | checkpointCancel => exact Call.setStatus_cases (.cancel hk.2 rfl) hk.1 (Option.some.inj h)
  | checkpointPause => exact Call.setStatus_cases (.pause hk.2 rfl) hk.1 (Option.some.inj h)
  | progress left value =>
    cases left with
    | zero => cases h; exact .turned .exhausted
    | succ =>
      simp only [stepCall] at h
      split at h
      · cases h; exact .turned .unreported
      · cases value with
        | none => cases h; exact .turned .reported
        | some p =>
          simp only at h
          split at h <;> cases h
          · exact .turned .unreported
          · exact .turned .progress
  | progressSave _ _ latest next =>
    simp only [stepCall] at h
    rcases saveRun_cases { latest with progress := next, updatedAt := now } hk with
      ⟨he, hv⟩ | ⟨-, hv⟩ <;> rw [hv] at h <;> cases h
    · exact .progressed (u := { latest with progress := next, updatedAt := now }) rfl he
    · exact .turned .retry
  | event => cases h; exact .event _ _ _
  | returned | conflict | stopped => cases h

theorem stepCall_spec {c c' : Call} (hk : c.Knows s)
    (h : stepCall now s c = some (s', c')) : CallSpec s c s' c' := by
  cases stepCall_cases hk h with
  | saved hsaves he =>
    cases hsaves with
    | cancel hst hu =>
      exact ⟨advances_save he, trivial, Or.inr (Or.inl ⟨he ▸ hst, hu⟩), fun _ => Or.inr hu⟩
    | pause hst hu => exact ⟨advances_save he, trivial, Or.inr (Or.inr ⟨he ▸ hst, hu⟩), False.elim⟩
  | progressed hu he => exact ⟨advances_save he, trivial, Or.inl (by rw [he]; exact hu), False.elim⟩
  | event run eventType =>
    exact ⟨advances_append s run eventType, hk.mono (advances_append s run eventType), Or.inl rfl,
      Or.inl⟩
  | turned ht =>
    cases ht with
    | cancel hst | pause hst => exact .quiet ⟨seen_self s, hst⟩ False.elim
    | progress => exact .quiet (seen_self s) False.elim
    | _ => exact .quiet trivial False.elim

/-! ## Workers -/

theorem Call.Starts.knows {choice : Choice} {c : Call} (h : Call.Starts choice c) (s : Store) :
    c.Knows s := by
  cases h <;> trivial

theorem Saves.seen {s : Store} {w next onConflict : Worker}
    (h : Saves w snap u next onConflict) (hk : w.Knows s) : Seen snap s := by
  cases h with
  | stop | fail => exact hk.1
  | _ => exact hk

theorem setStatus_cases {w w' next onConflict : Worker} (hw : Saves w snap u next onConflict)
    (h : Worker.setStatus s snap u next onConflict = (s', w')) : WorkerStep now s w .go s' w' := by
  by_cases hr : s.run.revision = snap.revision
  · simp only [Worker.setStatus, saveRun, cas, hr, if_true, Option.map_some] at h
    cases h
    exact .saved hw hr
  · simp only [Worker.setStatus, saveRun, cas, hr, if_false, Option.map_none] at h
    cases h
    exact .lost hw hr

theorem stepBegin_cases {left : Nat} {run : RunRecord} {w' : Worker}
    (h : stepBegin now s left run = (s', w')) : WorkerStep now s (.begin left run) .go s' w' := by
  cases left with
  | zero => cases h; exact .turned .exhausted
  | succ =>
    simp only [stepBegin] at h
    split at h
    case h_4 hst => exact setStatus_cases (.cancel hst rfl) h
    case h_5 hst => exact setStatus_cases (.begin hst rfl) h
    all_goals
      rename_i hst
      cases h
      exact .turned (.begun (by rw [hst]; decide) (by rw [hst]; decide))

theorem stepRunning_cases {run : RunRecord} {calls : List Call}
    {stopped : Bool} {choice : Choice} {w' : Worker}
    (h : stepRunning now s run calls stopped choice = some (s', w')) :
    WorkerStep now s (.running run calls stopped) choice s' w' := by
  cases choice with
  | callCheckpoint => cases h; exact .turned (.called _ .checkpoint)
  | callProgress value => cases h; exact .turned (.called _ (.progress value))
  | call k =>
    simp only [stepRunning] at h
    cases hc : calls[k]? with
    | none => rw [hc] at h; cases h
    | some c =>
      rw [hc] at h
      simp only at h
      split at h <;> cases h
      · exact .call hc (by assumption) (Or.inr rfl)
      · exact .call hc (by assumption) (Or.inl rfl)
  | finish => cases stopped <;> cases h; exact .turned .finish
  | raise => cases h; exact .turned .raise
  | stop => cases stopped <;> cases h; exact .turned .stop
  | go | created => cases h

theorem stepWorker_cases {choice : Choice}
    (h : stepWorker now s w choice = some (s', w')) : WorkerStep now s w choice s' w' := by
  cases w with
  | start =>
    cases choice <;> simp only [stepWorker, reduceCtorEq] at h
    split at h <;> cases h
    · exact .turned (.ended (by assumption))
    · exact .turned (.start (Bool.eq_false_iff.2 (by assumption)))
  | begin =>
    cases choice <;> simp only [stepWorker, reduceCtorEq, Option.some.injEq] at h
    exact stepBegin_cases h
  | beginReread =>
    cases choice <;> cases h
    exact .turned .reread
  | running => exact stepRunning_cases h
  | completeRead =>
    cases choice <;> cases h
    exact .turned .complete
  | complete =>
    cases choice <;> simp only [stepWorker, reduceCtorEq, Option.some.injEq] at h
    · exact setStatus_cases (.complete rfl rfl) h
    · cases h; exact .turned .unaudited
  | rollover =>
    cases choice <;> cases h
    · exact .turned .failed
    · exact .turned .created
  | rolloverRead =>
    cases choice <;> simp only [stepWorker, reduceCtorEq] at h
    split at h <;> cases h
    · exact .turned (.rolled (by assumption))
    · exact .turned (.rollover (by assumption))
  | rolloverSave latest nextRunId =>
    cases choice <;> simp only [stepWorker, reduceCtorEq] at h
    by_cases hr : s.run.revision = latest.revision
    · simp only [saveRun, cas, hr, if_true, Option.map_some] at h
      cases h
      exact .linked (u := { latest with nextRunId := some nextRunId, updatedAt := now }) rfl hr
    · simp only [saveRun, cas, hr, if_false, Option.map_none] at h
      cases h
      exact .turned (.unlinked hr)
  | stopRead =>
    cases choice <;> simp only [stepWorker, reduceCtorEq] at h
    split at h <;> cases h
    · exact .turned (.stopOver (by assumption))
    · exact .turned (.stopRead (by assumption))
  | stopSave =>
    cases choice <;> simp only [stepWorker, reduceCtorEq, Option.some.injEq] at h
    exact setStatus_cases (.stop rfl) h
  | failRead =>
    cases choice <;> simp only [stepWorker, reduceCtorEq] at h
    split at h <;> cases h
    · exact .turned (.failOver (by assumption))
    · exact .turned (.failRead (Bool.eq_false_iff.2 (by assumption)))
  | failSave =>
    cases choice <;> simp only [stepWorker, reduceCtorEq, Option.some.injEq] at h
    exact setStatus_cases (.fail rfl) h
  | event => cases choice <;> cases h; exact .event _ _ _
  | returned | raised => cases choice <;> cases h

/-- How a worker may change the stored status. -/
inductive WorkerMove (s : Store) (w : Worker) (s' : Store) : Prop
  | call : CallMove s s' → WorkerMove s w s'
  | begin : s.run.status = .queued → s'.run.status = .running → WorkerMove s w s'
  | complete (run latest : RunRecord) (termination : Option String) :
      w = .complete run latest termination → s.run.revision = latest.revision →
      s'.run.status = .completed → WorkerMove s w s'
  | fail (latest : RunRecord) (code message : String) :
      w = .failSave latest code message → s.run.revision = latest.revision →
      s.run.status.terminal = false → s'.run.status = .failed → WorkerMove s w s'
  | stop (latest : RunRecord) :
      w = .stopSave latest → s.run.status ≠ .cancelled → s'.run.status = .cancelled →
      WorkerMove s w s'

/-- What a step of a worker from `w` in `s` to `w'` in `s'` guarantees. -/
structure WorkerSpec (s : Store) (w : Worker) (s' : Store) (w' : Worker) : Prop where
  advances : Advances s s'
  knows : w'.Knows s'
  move : WorkerMove s w s'

theorem WorkerSpec.quiet {s : Store} (hk : w'.Knows s) : WorkerSpec s w s w' :=
  ⟨Advances.refl s, hk, .call (Or.inl rfl)⟩

theorem afterBegin_knows (s : Store) (run : RunRecord) : (afterBegin run).Knows s := by
  unfold afterBegin
  split
  · trivial
  · split <;> exact fun c hc => absurd hc List.not_mem_nil

theorem afterComplete_knows (s : Store) (run : RunRecord) (termination : Option String) :
    (afterComplete run termination).Knows s := by
  unfold afterComplete
  split <;> trivial

theorem stepWorker_spec {choice : Choice}
    (hk : w.Knows s) (h : stepWorker now s w choice = some (s', w')) : WorkerSpec s w s' w' := by
  cases stepWorker_cases h with
  | saved hw hr =>
    have he := (hw.seen hk).eq_of_rev hr
    refine ⟨advances_save he, ?_, ?_⟩
    · cases hw with
      | begin => exact afterBegin_knows _ _
      | complete => exact afterComplete_knows _ _ _
      | _ => trivial
    · cases hw with
      | cancel hst hu => exact .call (Or.inr (Or.inl ⟨he ▸ hst, hu⟩))
      | begin hst hu => exact .begin (he ▸ hst) hu
      | complete hu => exact .complete _ _ _ rfl hr hu
      | stop hu => exact .stop _ rfl (he ▸ hk.2) hu
      | fail hu => exact .fail _ _ _ rfl hr (he ▸ hk.2) hu
  | lost hw => cases hw <;> exact .quiet trivial
  | linked hu hr =>
    have he := Coherent.eq_of_rev hk hr
    exact ⟨advances_save he, trivial, .call (Or.inl (by rw [he]; exact hu))⟩
  | event run eventType =>
    exact ⟨advances_append s run eventType, Worker.Knows.mono (advances_append s run eventType) hk,
      .call (Or.inl rfl)⟩
  | call hc hst =>
    have hspec := stepCall_spec (hk _ (List.mem_of_getElem? hc)) hst
    refine ⟨hspec.advances, fun x hx => ?_, .call hspec.move⟩
    rcases List.mem_or_eq_of_mem_set hx with hx | rfl
    · exact (hk x hx).mono hspec.advances
    · exact hspec.knows
  | turned ht =>
    refine .quiet ?_
    cases ht with
    | start _ | reread | complete | rollover _ => exact seen_self s
    | begun => exact afterBegin_knows s _
    | called c hc =>
      intro x hx
      rcases List.mem_append.mp hx with hx | hx
      · exact hk x hx
      · rw [List.mem_singleton.mp hx]
        exact hc.knows s
    | stopRead hst | failRead hst => exact ⟨seen_self s, hst⟩
    | _ => trivial

/-! ### `ExecutionStopped` -/

/-- `ExecutionStopped` was raised in the worker's pipeline, or is being handled. -/
def Worker.stopping : Worker → Prop
  | .running _ calls stopped => stopped = true ∨ ∃ c ∈ calls, c.stopping
  | .stopRead => True
  | .stopSave _ => True
  | .event _ _ next => next.stopping
  | _ => False

theorem afterBegin_not_stopping (run : RunRecord) : ¬ (afterBegin run).stopping := by
  unfold afterBegin
  split
  · exact id
  · split <;> simp [Worker.stopping]

theorem afterComplete_not_stopping (run : RunRecord) (termination : Option String) :
    ¬ (afterComplete run termination).stopping := by
  unfold afterComplete
  split <;> exact id

/-- **`ExecutionStopped` follows a `CANCELLED` save**: a worker starts stopping only in a step
that leaves the stored run `CANCELLED`. -/
theorem stepWorker_stopping {choice : Choice}
    (hk : w.Knows s) (h : stepWorker now s w choice = some (s', w')) (hw : w'.stopping) :
    w.stopping ∨ s'.run.status = .cancelled := by
  cases stepWorker_cases h with
  | saved hsaves =>
    cases hsaves with
    | begin => exact absurd hw (afterBegin_not_stopping _)
    | complete => exact absurd hw (afterComplete_not_stopping _ _)
    | stop => exact Or.inl trivial
    | _ => exact hw.elim
  | lost hsaves => cases hsaves <;> exact hw.elim
  | linked => exact hw.elim
  | event => exact Or.inl hw
  | call hc hst hstopped =>
    have hmem := List.mem_of_getElem? hc
    have hstop := (stepCall_spec (hk _ hmem) hst).stopping
    -- the stepped call stops only after a `CANCELLED` save, the others are as before
    rcases hw with hs | ⟨x, hx, hxs⟩
    · rcases hstopped with rfl | rfl
      · exact Or.inl (Or.inl hs)
      · exact (hstop trivial).imp (fun hcs => Or.inr ⟨_, hmem, hcs⟩) id
    · rcases List.mem_or_eq_of_mem_set hx with hx | rfl
      · exact Or.inl (Or.inr ⟨x, hx, hxs⟩)
      · exact (hstop hxs).imp (fun hcs => Or.inr ⟨_, hmem, hcs⟩) id
  | turned ht =>
    cases ht with
    | begun => exact absurd hw (afterBegin_not_stopping _)
    | called c hc =>
      rcases hw with hs | ⟨x, hx, hxs⟩
      · exact Or.inl (Or.inl hs)
      · rcases List.mem_append.mp hx with hx | hx
        · exact Or.inl (Or.inr ⟨x, hx, hxs⟩)
        · rw [List.mem_singleton.mp hx] at hxs
          cases hc <;> exact hxs.elim
    | stop => exact Or.inl (Or.inl rfl)
    | stopRead => exact Or.inl trivial
    | _ => exact hw.elim

/-! ## Transition calls -/

/-- How a transition call may change the stored status. -/
inductive ClientMove (pausable : Bool) (s : Store) (c : Client) (s' : Store) (c' : Client) : Prop
  | quiet : s'.run.status = s.run.status →
      (∀ saved, c' = .returned .cancel saved → ∃ tgt, c = .event .cancel saved tgt) →
      (∀ saved tgt, c' ≠ .event .cancel saved tgt) → ClientMove pausable s c s' c'
  | apply (action : Action) (tgt : RunStatus) (saved : RunRecord) :
      target pausable action s.run.status = .ok tgt → s'.run.status = tgt →
      c' = .event action saved tgt → ClientMove pausable s c s' c'

/-- What a step of a transition call guarantees. -/
structure ClientSpec (pausable : Bool) (s : Store) (c : Client) (s' : Store) (c' : Client) :
    Prop where
  advances : Advances s s'
  knows : c'.Knows pausable s'
  move : ClientMove pausable s c s' c'

theorem transitionRecord_status (now : ℚ) (run : RunRecord) (tgt : RunStatus) :
    (transitionRecord now run tgt).status = tgt := by
  unfold transitionRecord
  split <;> rfl

theorem stepClient_spec {c c' : Client}
    (hk : c.Knows pausable s) (h : stepClient pausable now s c = some (s', c')) :
    ClientSpec pausable s c s' c' := by
  cases c with
  | read left =>
    cases left with
    | zero =>
      cases h
      exact ⟨Advances.refl s, trivial, .quiet rfl (by simp) (by simp)⟩
    | succ =>
      simp only [stepClient] at h
      split at h <;> cases h
      · exact ⟨Advances.refl s, trivial, .quiet rfl (by simp) (by simp)⟩
      · exact ⟨Advances.refl s, ⟨seen_self s, by assumption⟩, .quiet rfl (by simp) (by simp)⟩
  | save _ action run tgt =>
    simp only [stepClient] at h
    rcases saveRun_cases (transitionRecord now run tgt) hk.1 with ⟨he, hv⟩ | ⟨-, hv⟩
    · rw [hv] at h
      cases h
      exact ⟨advances_save he, trivial,
        .apply action tgt _ (he ▸ hk.2) (transitionRecord_status now run tgt) rfl⟩
    · rw [hv] at h
      cases h
      exact ⟨Advances.refl s, trivial, .quiet rfl (by simp) (by simp)⟩
  | event _ saved tgt =>
    cases h
    refine ⟨advances_append s saved _, trivial, .quiet rfl (fun r hr => ?_) (by simp)⟩
    cases hr
    exact ⟨tgt, rfl⟩
  | returned | invalid | conflict => cases h

/-! ## The system -/

/-- Every party's snapshots are what it believes. -/
structure System.Knows (pausable : Bool) (s : System) : Prop where
  workers : ∀ w ∈ s.workers, w.Knows s.store
  clients : ∀ c ∈ s.clients, c.Knows pausable s.store

theorem idle_knows (pausable : Bool) (store : Store) : (idle store).Knows pausable :=
  ⟨fun _ h => absurd h List.not_mem_nil, fun _ h => absurd h List.not_mem_nil⟩

/-- The shape of a system step: who moved, and its own step. -/
inductive Stepped (pausable : Bool) (s : System) : Act → System → Prop
  | deliver : Stepped pausable s .deliver { s with workers := s.workers ++ [.start] }
  | request (action : Action) :
      Stepped pausable s (.request action) { s with clients := s.clients ++ [.read 4 action] }
  | worker {i now choice w w' store} :
      s.workers[i]? = some w → stepWorker now s.store w choice = some (store, w') →
      Stepped pausable s (.worker i now choice)
        { s with store := store, workers := s.workers.set i w' }
  | client {j now c c' store} :
      s.clients[j]? = some c → stepClient pausable now s.store c = some (store, c') →
      Stepped pausable s (.client j now)
        { s with store := store, clients := s.clients.set j c' }

theorem step_stepped {s s' : System} {a : Act}
    (h : step pausable s a = some s') : Stepped pausable s a s' := by
  cases a with
  | deliver => cases h; exact .deliver
  | request action => cases h; exact .request action
  | worker i now choice =>
    simp only [step] at h
    cases hw : s.workers[i]? with
    | none => rw [hw] at h; cases h
    | some w =>
      rw [hw] at h
      simp only at h
      cases hst : stepWorker now s.store w choice with
      | none => rw [hst] at h; cases h
      | some r => rw [hst] at h; cases h; exact .worker hw hst
  | client j now =>
    simp only [step] at h
    cases hc : s.clients[j]? with
    | none => rw [hc] at h; cases h
    | some c =>
      rw [hc] at h
      simp only at h
      cases hst : stepClient pausable now s.store c with
      | none => rw [hst] at h; cases h
      | some r => rw [hst] at h; cases h; exact .client hc hst

/-- The store advances by at most one version in a step, and every party's knowledge survives. -/
theorem knows_step {s s' : System} {a : Act} (hk : s.Knows pausable)
    (h : step pausable s a = some s') : s'.Knows pausable := by
  have hmono : ∀ {t : Store}, Advances s.store t →
      (∀ w ∈ s.workers, w.Knows t) ∧ ∀ c ∈ s.clients, c.Knows pausable t := fun ha =>
    ⟨fun w hw => (hk.workers w hw).mono ha, fun c hc => (hk.clients c hc).mono ha⟩
  cases step_stepped h with
  | deliver =>
    refine ⟨fun w hw => ?_, hk.clients⟩
    rcases List.mem_append.mp hw with hw | hw
    · exact hk.workers w hw
    · rw [List.mem_singleton.mp hw]
      trivial
  | request =>
    refine ⟨hk.workers, fun c hc => ?_⟩
    rcases List.mem_append.mp hc with hc | hc
    · exact hk.clients c hc
    · rw [List.mem_singleton.mp hc]
      trivial
  | worker hw hst =>
    have hspec := stepWorker_spec (hk.workers _ (List.mem_of_getElem? hw)) hst
    refine ⟨fun x hx => ?_, (hmono hspec.advances).2⟩
    rcases List.mem_or_eq_of_mem_set hx with hx | rfl
    · exact (hmono hspec.advances).1 x hx
    · exact hspec.knows
  | client hc hst =>
    have hspec := stepClient_spec (hk.clients _ (List.mem_of_getElem? hc)) hst
    refine ⟨(hmono hspec.advances).1, fun x hx => ?_⟩
    rcases List.mem_or_eq_of_mem_set hx with hx | rfl
    · exact (hmono hspec.advances).2 x hx
    · exact hspec.knows

end Scenara.Run
