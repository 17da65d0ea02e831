import Scenara.Core.Parties
import Scenara.Surveillance.Calls

/-!
# No stream is lost track of

* `Lawful`: no run is created for a task that has been saved since it was read, no other call saves
  the task while `_reconcile_task` has sessions to store, and an update has read the revision it
  expects.
* `Inv`: what a call has read is what is stored or older (`Coherent`); the loop of `_reconcile_task`
  has a run for every binding it is past; a session that is not named is on its way to be.
-/

namespace Scenara.Surveillance.Calls

open Scenara.Core

variable {zone : String → ℚ → LocalTime} {x y : State} {i : Nat} {c c' : Call} {now : Moment}
  {act : Act} {task new : Task Nat} {created : Dict IdempotencyKey (CreatedRun Nat)}
variable {session : Nat} {current : Task Nat}

/-! ## The claim -/

/-- The session was created. -/
def State.Live (x : State) (session : Nat) : Prop :=
  ∃ key run, x.created.get? key = some run ∧ run.streamSessionId = some session

/-- A binding of the stored task names the session, or it was cancelled. -/
def State.Kept (x : State) (session : Nat) : Prop :=
  session ∈ sessionsOf x.task.bindings ∨ session ∈ x.cancelled
  deriving Decidable

/-- **The task tracks its streams.** -/
structure Tracked (x : State) : Prop where
  named : ∀ session, x.Live session → x.Kept session
  paused : x.task.status = .paused → ∀ session, x.Live session → session ∈ x.cancelled

/-- The call has ended. -/
def Call.over : Call → Bool
  | .ended => true
  | _ => false

/-- No call is in flight. -/
def Quiet (x : State) : Prop := ∀ call ∈ x.calls, call.over = true
  deriving Decidable

theorem Call.eq_ended {call : Call} (h : call.over = true) : call = .ended := by
  cases call with
  | ended => rfl
  | _ => cases h

/-! ## The condition -/

/-- The task that `_reconcile_task` has read, and the bindings that it is to store. -/
def Call.started? : Call → Option (Task Nat × List (TaskBinding Nat))
  | .creates task done _ _ => some (task, done)
  | .stores task bindings => some (task, bindings)
  | _ => none

/-- No call has sessions that are yet to be stored. -/
def Idle (x : State) : Prop :=
  ∀ call ∈ x.calls, ∀ p ∈ call.started?, ∀ session ∈ sessionsOf p.2, x.Kept session
  deriving Decidable

/-- **The condition** on the next step of a call. -/
def CallLawful (x : State) : Call → Prop
  | .creates task _ (binding :: _) _ =>
    binding.streamSessionId = none → task.revision ≠ x.task.revision →
      (x.created.get? (idempotencyKey task.taskId task.revision binding)).isSome = true
  | .pauseSaves current => current.revision = x.task.revision → Idle x
  | .updateSaves request current =>
    request.expectedRevision = x.task.revision → Idle x ∧ current.revision = x.task.revision
  | _ => True

instance (x : State) : ∀ call, Decidable (CallLawful x call)
  | .creates _ _ (_ :: _) _ => inferInstanceAs (Decidable (_ → _ → _))
  | .pauseSaves _ => inferInstanceAs (Decidable (_ → _))
  | .updateSaves _ _ => inferInstanceAs (Decidable (_ → _ ∧ _))
  | .creates _ _ [] _ | .start | .startChecks _ | .startSaves _ | .started _ | .sweep _ |
      .reconcile _ _
  | .stores _ _ | .stops _ | .pause | .update _ | .updateChecks _ _ | .ended =>
    inferInstanceAs (Decidable True)

/-- The condition on a step. -/
def Lawful (x : State) : Act → Prop
  | .go i _ => ∀ call ∈ x.calls[i]?, CallLawful x call
  | .fail i => ∀ call ∈ x.calls[i]?, ∀ p ∈ call.started?, ∀ session ∈ sessionsOf p.2, x.Kept session
  | .request _ => True

instance (x : State) : ∀ act, Decidable (Lawful x act)
  | .go i _ => inferInstanceAs (Decidable (∀ _ ∈ _, _))
  | .fail i => inferInstanceAs (Decidable (∀ _ ∈ _, _))
  | .request _ => inferInstanceAs (Decidable True)

/-! ## The loop -/

/-- A turn of the loop: the binding keeps its session, or has the run of its key. -/
def Turned (created : Dict IdempotencyKey (CreatedRun Nat)) (task : Task Nat)
    (before after : TaskBinding Nat) : Prop :=
  after.bindingId = before.bindingId ∧
    ((∃ session, before.streamSessionId = some session ∧ after.streamSessionId = some session) ∨
      before.streamSessionId = none ∧ ∃ run,
        created.get? (idempotencyKey task.taskId task.revision before) = some run ∧
        after.streamSessionId = run.streamSessionId)

theorem mem_sessionsOf {bindings : List (TaskBinding Nat)} :
    session ∈ sessionsOf bindings ↔ ∃ b ∈ bindings, b.streamSessionId = some session := by
  rw [sessionsOf, List.mem_filterMap]

variable {before after : List (TaskBinding Nat)} {done rest : List (TaskBinding Nat)}

theorem turned_named
    (h : List.Forall₂ (Turned created task) before after) (hs : session ∈ sessionsOf before) :
    session ∈ sessionsOf after := by
  obtain ⟨b, hb, hsession⟩ := mem_sessionsOf.1 hs
  rw [mem_sessionsOf]
  induction h with
  | nil => cases hb
  | @cons _ first' _ _ hfirst _ ih =>
    rcases List.mem_cons.1 hb with rfl | hb
    · rcases hfirst.2 with ⟨s, hbefore, hafter⟩ | ⟨hnone, -⟩
      · rw [hsession] at hbefore
        cases hbefore
        exact ⟨first', List.mem_cons_self, hafter⟩
      · rw [hsession] at hnone
        cases hnone
    · obtain ⟨b', hb', hsession'⟩ := ih (mem_sessionsOf.2 ⟨b, hb, hsession⟩) hb
      exact ⟨b', List.mem_cons_of_mem _ hb', hsession'⟩

theorem turned_created {b : TaskBinding Nat}
    {run : CreatedRun Nat} (h : List.Forall₂ (Turned created task) before after)
    (hb : b ∈ before) (hnone : b.streamSessionId = none)
    (hrun : created.get? (idempotencyKey task.taskId task.revision b) = some run)
    (hs : run.streamSessionId = some session) : session ∈ sessionsOf after := by
  rw [mem_sessionsOf]
  induction h with
  | nil => cases hb
  | @cons _ first' _ _ hfirst _ ih =>
    rcases List.mem_cons.1 hb with rfl | hb
    · rcases hfirst.2 with ⟨s, hbefore, -⟩ | ⟨-, _, hrun', hafter⟩
      · simp [hnone] at hbefore
      · rw [hrun] at hrun'
        cases hrun'
        exact ⟨first', List.mem_cons_self, hafter.trans hs⟩
    · obtain ⟨b', hb', hsession'⟩ := ih hb
      exact ⟨b', List.mem_cons_of_mem _ hb', hsession'⟩

/-- The sessions that the loop has were named, or are those of their keys. -/
theorem turned_source
    (h : List.Forall₂ (Turned created task) before after) (hs : session ∈ sessionsOf after) :
    session ∈ sessionsOf before ∨ ∃ b ∈ before, b.streamSessionId = none ∧ ∃ run,
      created.get? (idempotencyKey task.taskId task.revision b) = some run ∧
        run.streamSessionId = some session := by
  obtain ⟨b', hb', hsession⟩ := mem_sessionsOf.1 hs
  rw [mem_sessionsOf]
  induction h with
  | nil => cases hb'
  | @cons first _ _ _ hfirst _ ih =>
    rcases List.mem_cons.1 hb' with rfl | hb'
    · rcases hfirst.2 with ⟨s, hbefore, hafter⟩ | ⟨hnone, run, hrun, hafter⟩
      · rw [hsession] at hafter
        cases hafter
        exact .inl ⟨first, List.mem_cons_self, hbefore⟩
      · exact .inr ⟨first, List.mem_cons_self, hnone, run, hrun, hafter.symm.trans hsession⟩
    · rcases ih (mem_sessionsOf.2 ⟨b', hb', hsession⟩) hb' with ⟨b, hb, hnamed⟩ | ⟨b, hb, hrest⟩
      · exact .inl ⟨b, List.mem_cons_of_mem _ hb, hnamed⟩
      · exact .inr ⟨b, List.mem_cons_of_mem _ hb, hrest⟩

/-! ## The invariant -/

/-- What a call has read of the task. -/
def Call.read? : Call → Option (Task Nat)
  | .startChecks task | .startSaves task | .started task | .reconcile task _ | .creates task _ _ _
  | .stores task _ | .pauseSaves task | .updateChecks _ task | .updateSaves _ task => some task
  | _ => none

/-- The sessions that a call is about to cancel. -/
def Call.stopped : Call → List Nat
  | .stops sessions => sessions
  | _ => []

/-- What a call knows of the task that it has read. -/
def Knows (created : Dict IdempotencyKey (CreatedRun Nat)) : Call → Prop
  | .startChecks task | .startSaves task => task.status ≠ .active
  | .creates task done rest changed => task.status = .active ∧ ∃ before,
    task.bindings = before ++ rest ∧ List.Forall₂ (Turned created task) before done ∧
      (changed = false → done = before)
  | .stores task bindings => task.status = .active ∧
    List.Forall₂ (Turned created task) task.bindings bindings
  | _ => True

/-- A call has the session, and has read the task that is stored. -/
def Carried (x : State) (session : Nat) : Prop :=
  ∃ call ∈ x.calls, ∃ p ∈ call.started?, p.1.revision = x.task.revision ∧ session ∈ sessionsOf p.2

/-- What every lawful step keeps. -/
structure Inv (x : State) : Prop where
  coherent : ∀ call ∈ x.calls, ∀ t ∈ call.read?, Coherent Task.revision t x.task
  knows : ∀ call ∈ x.calls, Knows x.created call
  kept : ∀ session, x.Live session → x.Kept session ∨ Carried x session
  paused : x.task.status = .paused → ∀ session, x.Live session →
    session ∈ x.cancelled ∨ ∃ call ∈ x.calls, session ∈ call.stopped

theorem Call.read_of_started {p : Task Nat × List (TaskBinding Nat)} (h : p ∈ c.started?) :
    c.read? = some p.1 := by
  cases c <;> cases h <;> rfl

theorem Inv.carried_active (h : Inv x) (hcarried : Carried x session) :
    x.task.status = .active := by
  obtain ⟨call, hcall, p, hp, hrev, -⟩ := hcarried
  have heq := (h.coherent call hcall p.1 (Call.read_of_started hp)).eq hrev
  have hknows := h.knows call hcall
  rw [← heq]
  cases call with
  | creates | stores => cases hp; exact hknows.1
  | _ => cases hp

theorem Inv.carried_source (h : Inv x) (hcarried : Carried x session) :
    session ∈ sessionsOf x.task.bindings ∨ ∃ b ∈ x.task.bindings, b.streamSessionId = none ∧ ∃ run,
      x.created.get? (idempotencyKey x.task.taskId x.task.revision b) = some run ∧
        run.streamSessionId = some session := by
  obtain ⟨call, hcall, p, hp, hrev, hs⟩ := hcarried
  have heq := (h.coherent call hcall p.1 (Call.read_of_started hp)).eq hrev
  have hknows := h.knows call hcall
  rw [← heq]
  cases call with
  | creates task =>
    cases hp
    obtain ⟨-, before, hbindings, hturned, -⟩ := hknows
    have hprefix : ∀ b ∈ before, b ∈ task.bindings := fun b hb => by
      rw [hbindings]
      exact List.mem_append_left _ hb
    rcases turned_source hturned hs with hnamed | ⟨b, hb, hrest⟩
    · obtain ⟨b, hb, hsession⟩ := mem_sessionsOf.1 hnamed
      exact .inl (mem_sessionsOf.2 ⟨b, hprefix b hb, hsession⟩)
    · exact .inr ⟨b, hprefix b hb, hrest⟩
  | stores =>
    cases hp
    exact turned_source hknows.2 hs
  | _ => cases hp

theorem mem_calls_set {call : Call} (hcall : call ∈ x.calls.set i c') :
    call ∈ x.calls ∨ call = c' :=
  List.mem_or_eq_of_mem_set hcall

theorem Inv.go (h : Inv x) (hi : x.calls[i]? = some c)
    (hread : ∀ t ∈ c'.read?, Coherent Task.revision t x.task) (hknows : Knows x.created c')
    (hcarries : ∀ p ∈ c.started?, p.1.revision = x.task.revision → ∀ session ∈ sessionsOf p.2,
      x.Kept session ∨ ∃ p' ∈ c'.started?, p'.1.revision = x.task.revision ∧
      session ∈ sessionsOf p'.2)
    (hstops : ∀ session ∈ c.stopped, session ∈ c'.stopped) : Inv (x.go i c') where
  coherent call hcall := by
    rcases mem_calls_set hcall with hcall | rfl
    · exact h.coherent call hcall
    · exact hread
  knows call hcall := by
    rcases mem_calls_set hcall with hcall | rfl
    · exact h.knows call hcall
    · exact hknows
  kept session hlive := by
    rcases h.kept session hlive with hkept | ⟨call, hcall, p, hp, hrev, hs⟩
    · exact .inl hkept
    · by_cases hself : call = c
      · rw [hself] at hp
        rcases hcarries p hp hrev session hs with hkept | ⟨p', hp', hrev', hs'⟩
        · exact .inl hkept
        · exact .inr ⟨c', List.mem_of_getElem? (Parties.getElem?_set_same hi), p', hp', hrev', hs'⟩
      · obtain ⟨call', hcall', heq⟩ := Parties.exists_set (P := fun a => a = call) (p := c') hi
          (fun heq => absurd heq.symm hself) ⟨call, hcall, rfl⟩
        exact .inr ⟨call', hcall', p, heq ▸ hp, hrev, hs⟩
  paused hpaused session hlive := by
    refine (h.paused hpaused session hlive).imp_right fun hstopped => ?_
    exact Parties.exists_set hi (hstops session) hstopped

theorem Inv.plain (h : Inv x) (hi : x.calls[i]? = some c)
    (hread : ∀ t ∈ c'.read?, Coherent Task.revision t x.task) (hknows : Knows x.created c')
    (hstarted : c.started? = none) (hstopped : c.stopped = []) : Inv (x.go i c') := by
  refine h.go hi hread hknows (fun p hp => ?_) fun session hs => ?_
  · simp [hstarted] at hp
  · simp [hstopped] at hs

theorem Inv.saved (h : Inv x) (hrev : new.revision = x.task.revision + 1)
    (hread : ∀ t ∈ c'.read?, Coherent Task.revision t new) (hknows : Knows x.created c')
    (hkept : ∀ session, x.Live session → session ∈ sessionsOf new.bindings ∨ session ∈ x.cancelled)
    (hpaused : new.status = .paused → ∀ session, x.Live session →
      session ∈ x.cancelled ∨ ∃ call ∈ x.calls.set i c', session ∈ call.stopped) :
    Inv { x.go i c' with task := new } where
  coherent call hcall := by
    rcases mem_calls_set hcall with hcall | rfl
    · exact fun t ht => (h.coherent call hcall t ht).advance hrev
    · exact hread
  knows call hcall := by
    rcases mem_calls_set hcall with hcall | rfl
    · exact h.knows call hcall
    · exact hknows
  kept session hlive := .inl (hkept session hlive)
  paused := hpaused

/-! ## Saves -/

theorem saveTask_some {current stored : Task Nat} {expected : Nat}
    (h : saveTask current new expected = some stored) :
    current.revision = expected ∧ stored = { new with revision := expected + 1 } := by
  rw [saveTask, cas] at h
  split at h
  · exact ⟨‹_›, (Option.some.inj h).symm⟩
  · cases h

theorem saveTask_none {expected : Nat} (h : saveTask current new expected = none) :
    current.revision ≠ expected := by
  rw [saveTask, cas] at h
  split at h
  · cases h
  · assumption

/-- Where no call has a session that is yet to be stored, every session is named or cancelled. -/
theorem Inv.idle (h : Inv x) (hidle : Idle x) (hlive : x.Live session) : x.Kept session := by
  rcases h.kept session hlive with hkept | ⟨call, hcall, p, hp, -, hs⟩
  · exact hkept
  · exact hidle call hcall p hp session hs

theorem Inv.startSaves (h : Inv x) (hi : x.calls[i]? = some (.startSaves current))
    (hs : stepCall zone x i now (.startSaves current) = some y) : Inv y := by
  rw [stepCall] at hs
  have hmem := List.mem_of_getElem? hi
  split at hs
  · rename_i stored hsave
    cases hs
    obtain ⟨hrev, rfl⟩ := saveTask_some hsave
    have heq := (h.coherent _ hmem current rfl).eq_of_rev hrev
    have hstatus : x.task.status ≠ .active := heq ▸ h.knows _ hmem
    refine h.saved (by rw [hrev]) (fun t ht => ?_) trivial (fun session hlive => ?_)
      nofun
    · cases ht
      exact Coherent.refl _ _
    · rcases h.kept session hlive with hkept | hcarried
      · rwa [State.Kept, heq] at hkept
      · exact absurd (h.carried_active hcarried) hstatus
  · cases hs
    exact h.plain hi nofun trivial rfl rfl

theorem Inv.pauseSaves (h : Inv x) (hi : x.calls[i]? = some (.pauseSaves current))
    (hlawful : CallLawful x (.pauseSaves current))
    (hs : stepCall zone x i now (.pauseSaves current) = some y) : Inv y := by
  rw [stepCall] at hs
  have hmem := List.mem_of_getElem? hi
  split at hs
  · rename_i stored hsave
    cases hs
    obtain ⟨hrev, rfl⟩ := saveTask_some hsave
    have heq := (h.coherent _ hmem current rfl).eq_of_rev hrev
    have hkept : ∀ session, x.Live session → session ∈ sessionsOf current.bindings ∨
        session ∈ x.cancelled := by
      intro _ hlive
      have hkept := h.idle (hlawful hrev.symm) hlive
      rwa [State.Kept, heq] at hkept
    refine h.saved (by rw [hrev]) nofun trivial hkept fun _ session hlive => ?_
    refine (hkept session hlive).symm.imp_right fun hnamed =>
      ⟨.stops (sessionsOf current.bindings), ?_, hnamed⟩
    exact List.mem_of_getElem? (Parties.getElem?_set_same hi)
  · cases hs
    exact h.plain hi nofun trivial rfl rfl

theorem Inv.updateSaves {request : UpdateRequest} (h : Inv x)
    (hi : x.calls[i]? = some (.updateSaves request current))
    (hlawful : CallLawful x (.updateSaves request current))
    (hs : stepCall zone x i now (.updateSaves request current) = some y) : Inv y := by
  rw [stepCall] at hs
  have hmem := List.mem_of_getElem? hi
  split at hs
  · rename_i stored hsave
    cases hs
    obtain ⟨hrev, rfl⟩ := saveTask_some hsave
    obtain ⟨hidle, hcurrent⟩ := hlawful hrev.symm
    have heq := (h.coherent _ hmem current rfl).eq_of_rev hcurrent.symm
    refine h.saved (by rw [hrev]) nofun trivial (fun session hlive => ?_)
      fun hpaused session hlive => ?_
    · have hkept := h.idle hidle hlive
      rwa [State.Kept, heq] at hkept
    · have hwas : x.task.status = .paused := by
        rwa [heq]
      refine (h.paused hwas session hlive).imp_right fun hstopped => ?_
      exact Parties.exists_set hi nofun hstopped
  · cases hs
    exact h.plain hi nofun trivial rfl rfl

theorem Inv.stores {bindings : List (TaskBinding Nat)} (h : Inv x)
    (hi : x.calls[i]? = some (.stores task bindings))
    (hs : stepCall zone x i now (.stores task bindings) = some y) : Inv y := by
  have hmem := List.mem_of_getElem? hi
  have hcoherent := h.coherent _ hmem task rfl
  obtain ⟨hactive, hturned⟩ := h.knows _ hmem
  obtain ⟨_, hupdated, hs⟩ := Option.bind_eq_some_iff.1 hs
  rw [withBindings] at hupdated
  split at hupdated <;> cases hupdated
  split at hs
  · rename_i stored hsave
    cases hs
    obtain ⟨hrev, rfl⟩ := saveTask_some hsave
    have heq := hcoherent.eq_of_rev hrev
    refine h.saved (by rw [hrev]) nofun trivial (fun session hlive => ?_)
      fun hpaused => ?_
    · rcases h.kept session hlive with (hnamed | hcancelled) | hcarried
      · rw [heq] at hnamed
        exact .inl (turned_named hturned hnamed)
      · exact .inr hcancelled
      · rcases h.carried_source hcarried with hnamed | ⟨b, hb, hnone, _, hrun, hsession⟩
        · rw [heq] at hnamed
          exact .inl (turned_named hturned hnamed)
        · rw [heq] at hb hrun
          exact .inl (turned_created hturned hb hnone hrun hsession)
    · simp [hactive] at hpaused
  · rename_i hsave
    cases hs
    refine h.go hi nofun trivial (fun p hp hrev => ?_)
      fun session hs => by cases hs
    cases hp
    exact absurd hrev.symm (saveTask_none hsave)

/-! ## The loop of `_reconcile_task` -/

theorem Turned.mono {created' : Dict IdempotencyKey (CreatedRun Nat)}
    {before after : TaskBinding Nat}
    (hmono : ∀ key run, created.get? key = some run → created'.get? key = some run)
    (h : Turned created task before after) : Turned created' task before after := by
  refine ⟨h.1, h.2.imp_right ?_⟩
  rintro ⟨hnone, run, hrun, hafter⟩
  exact ⟨hnone, run, hmono _ run hrun, hafter⟩

theorem Knows.mono {created' : Dict IdempotencyKey (CreatedRun Nat)} (h : Knows created c)
    (hmono : ∀ key run, created.get? key = some run → created'.get? key = some run) :
    Knows created' c := by
  cases c with
  | creates =>
    obtain ⟨hactive, before, hbindings, hturned, hsame⟩ := h
    exact ⟨hactive, before, hbindings, hturned.imp fun _ _ hturn => hturn.mono hmono, hsame⟩
  | stores => exact ⟨h.1, h.2.imp fun _ _ hturn => hturn.mono hmono⟩
  | _ => exact h

theorem Knows.turn {binding after : TaskBinding Nat}
    {changed changed' : Bool} (h : Knows created (.creates task done (binding :: rest) changed))
    (hturned : Turned created task binding after)
    (hsame : changed' = false → changed = false ∧ after = binding) :
    Knows created (.creates task (done ++ [after]) rest changed') := by
  obtain ⟨hactive, before, hbindings, hloop, hchanged⟩ := h
  refine ⟨hactive, before ++ [binding], ?_, ?_, fun hfalse => ?_⟩
  · rw [hbindings, List.append_assoc, List.singleton_append]
  · exact List.rel_append hloop (.cons hturned .nil)
  · obtain ⟨hwas, rfl⟩ := hsame hfalse
    rw [hchanged hwas]

theorem Inv.loopEnds {done : List (TaskBinding Nat)} {changed : Bool} (h : Inv x)
    (hi : x.calls[i]? = some (.creates task done [] changed)) :
    Inv (x.go i (if changed then .stores task done else .ended)) := by
  have hmem := List.mem_of_getElem? hi
  have hcoherent := h.coherent _ hmem task rfl
  obtain ⟨hactive, _, hbindings, hturned, hsame⟩ := h.knows _ hmem
  rw [List.append_nil] at hbindings
  cases changed with
  | true =>
    refine h.go hi (fun t ht => ?_) ⟨hactive, hbindings ▸ hturned⟩ (fun p hp hrev session hs =>
      .inr ?_)
      nofun
    · cases ht
      exact hcoherent
    · cases hp
      exact ⟨_, rfl, hrev, hs⟩
  | false =>
    refine h.go hi nofun trivial (fun p hp hrev session hs => .inl (.inl ?_))
      fun session hs => by cases hs
    cases hp
    rwa [← hcoherent.eq hrev, hbindings, ← hsame rfl]

theorem Inv.turn {binding after : TaskBinding Nat}
    {changed changed' : Bool} (h : Inv x)
    (hi : x.calls[i]? = some (.creates task done (binding :: rest) changed))
    (hturned : Turned x.created task binding after)
    (hsame : changed' = false → changed = false ∧ after = binding) :
    Inv (x.go i (.creates task (done ++ [after]) rest changed')) := by
  have hmem := List.mem_of_getElem? hi
  refine h.go hi (fun t ht => ?_) ((h.knows _ hmem).turn hturned hsame)
    (fun p hp hrev session hs => .inr ?_) nofun
  · cases ht
    exact h.coherent _ hmem task rfl
  · cases hp
    refine ⟨_, rfl, hrev, ?_⟩
    obtain ⟨b, hb, hsession⟩ := mem_sessionsOf.1 hs
    exact mem_sessionsOf.2 ⟨b, List.mem_append_left _ hb, hsession⟩

theorem Inv.creates {binding : TaskBinding Nat}
    {changed : Bool} {run : CreatedRun Nat} (h : Inv x)
    (hi : x.calls[i]? = some (.creates task done (binding :: rest) changed))
    (hnone : binding.streamSessionId = none) (hrev : task.revision = x.task.revision)
    (hfresh : x.created.get? (idempotencyKey task.taskId task.revision binding) = none) :
    Inv { x.go i (.creates task (done ++ [withRun binding run]) rest true) with
      created := x.created.insert (idempotencyKey task.taskId task.revision binding) run } := by
  have hmem := List.mem_of_getElem? hi
  have hcoherent := h.coherent _ hmem task rfl
  have hmono : ∀ key r, x.created.get? key = some r → (x.created.insert
      (idempotencyKey task.taskId task.revision binding) run).get? key = some r := by
    intro _ r hr
    rw [Dict.get?_insert_of_ne, hr]
    rintro rfl
    rw [hfresh] at hr
    cases hr
  have hturned : Turned (x.created.insert (idempotencyKey task.taskId task.revision binding) run)
      task binding (withRun binding run) :=
    ⟨rfl, .inr ⟨hnone, run, Dict.get?_insert_self _ _ _, rfl⟩⟩
  have hself : Call.creates task (done ++ [withRun binding run]) rest true ∈
      x.calls.set i (.creates task (done ++ [withRun binding run]) rest true) :=
    List.mem_of_getElem? (Parties.getElem?_set_same hi)
  have hcarry : ∀ session ∈ sessionsOf (done ++ [withRun binding run]), ∃ call ∈ x.calls.set i
      (.creates task (done ++ [withRun binding run]) rest true), ∃ p ∈ call.started?,
        p.1.revision = x.task.revision ∧ session ∈ sessionsOf p.2 := fun session hs =>
    ⟨_, hself, _, rfl, hrev, hs⟩
  refine ⟨fun call hcall => ?_, fun call hcall => ?_, fun session hlive => ?_, fun hpaused => ?_⟩
  · rcases mem_calls_set hcall with hcall | rfl
    · exact h.coherent call hcall
    · intro t ht
      cases ht
      exact hcoherent
  · rcases mem_calls_set hcall with hcall | rfl
    · exact (h.knows call hcall).mono hmono
    · exact ((h.knows _ hmem).mono hmono).turn hturned nofun
  · obtain ⟨key, r, hr, hsession⟩ := hlive
    rw [Dict.get?_insert] at hr
    split at hr
    · cases hr
      refine .inr (hcarry session (mem_sessionsOf.2 ⟨withRun binding run, ?_, hsession⟩))
      exact List.mem_append_right _ (List.mem_singleton.2 rfl)
    · rcases h.kept session ⟨key, r, hr, hsession⟩ with hkept | ⟨call, hcall, p, hp, hp', hs⟩
      · exact .inl hkept
      · refine .inr ?_
        by_cases hsame : call = .creates task done (binding :: rest) changed
        · rw [hsame] at hp
          cases hp
          obtain ⟨b, hb, hb'⟩ := mem_sessionsOf.1 hs
          exact hcarry session (mem_sessionsOf.2 ⟨b, List.mem_append_left _ hb, hb'⟩)
        · obtain ⟨call', hcall', heq⟩ := Parties.exists_set (P := fun a => a = call)
            (p := .creates task (done ++ [withRun binding run]) rest true) hi
            (fun heq => absurd heq.symm hsame) ⟨call, hcall, rfl⟩
          exact ⟨call', hcall', p, heq ▸ hp, hp', hs⟩
  · have hactive := (h.knows _ hmem).1
    rw [hcoherent.eq hrev] at hactive
    have hstatus : x.task.status = .paused := hpaused
    rw [hactive] at hstatus
    cases hstatus

theorem Inv.starts {binding : TaskBinding Nat} {changed : Bool}
    (h : Inv x) (hi : x.calls[i]? = some (.creates task done (binding :: rest) changed))
    (hnone : binding.streamSessionId = none)
    (hlawful : CallLawful x (.creates task done (binding :: rest) changed)) (runId : String)
    (stream : Bool) :
    Inv ((x.createRun (idempotencyKey task.taskId task.revision binding) runId stream).1.go i
      (.creates task (done ++ [withRun binding
        (x.createRun (idempotencyKey task.taskId task.revision binding) runId stream).2]) rest
          true)) := by
  cases hkey : x.created.get? (idempotencyKey task.taskId task.revision binding) with
  | some run =>
    have hcreate : x.createRun (idempotencyKey task.taskId task.revision binding) runId stream =
        (x, run) := by
      simp only [State.createRun, hkey]
    rw [hcreate]
    exact h.turn hi ⟨rfl, .inr ⟨hnone, run, hkey, rfl⟩⟩ nofun
  | none =>
    have hrev : task.revision = x.task.revision := by
      by_contra hne
      have hsome := hlawful hnone hne
      simp [hkey] at hsome
    obtain ⟨run, hcreate⟩ : ∃ run, x.createRun (idempotencyKey task.taskId task.revision binding)
        runId stream = ({ x with
          created := x.created.insert (idempotencyKey task.taskId task.revision binding) run },
            run) := by
      simp only [State.createRun, hkey]
      exact ⟨_, rfl⟩
    rw [hcreate]
    exact h.creates hi hnone hrev hkey

/-! ## Every step -/

theorem Inv.cancels {rest : List Nat} (h : Inv x)
    (hi : x.calls[i]? = some (.stops (session :: rest))) :
    Inv { x.go i (.stops rest) with cancelled := session :: x.cancelled } where
  coherent call hcall := by
    rcases mem_calls_set hcall with hcall | rfl
    · exact h.coherent call hcall
    · exact fun t ht => by cases ht
  knows call hcall := by
    rcases mem_calls_set hcall with hcall | rfl
    · exact h.knows call hcall
    · exact trivial
  kept s hlive := by
    rcases h.kept s hlive with (hnamed | hcancelled) | ⟨call, hcall, p, hp, hrev, hs⟩
    · exact .inl (.inl hnamed)
    · exact .inl (.inr (List.mem_cons_of_mem _ hcancelled))
    · refine .inr ?_
      have hne : call ≠ .stops (session :: rest) := by
        rintro rfl
        cases hp
      obtain ⟨call', hcall', heq⟩ := Parties.exists_set (P := fun a => a = call) (p :=
        .stops rest) hi (fun heq => absurd heq.symm hne) ⟨call, hcall, rfl⟩
      exact ⟨call', hcall', p, heq ▸ hp, hrev, hs⟩
  paused hpaused s hlive := by
    rcases h.paused hpaused s hlive with hcancelled | ⟨call, hcall, hs⟩
    · exact .inl (List.mem_cons_of_mem _ hcancelled)
    · by_cases hself : s = session
      · exact .inl (hself ▸ List.mem_cons_self)
      · refine .inr (Parties.exists_set (P := fun a : Call => s ∈ a.stopped) hi (fun hmem => ?_)
          ⟨call, hcall, hs⟩)
        exact (List.mem_cons.1 hmem).resolve_left hself

theorem Inv.stepCall (h : Inv x) (hi : x.calls[i]? = some c) (hlawful : CallLawful x c)
    (hs : stepCall zone x i now c = some y) : Inv y := by
  have hread : ∀ t ∈ (none : Option (Task Nat)), Coherent Task.revision t x.task :=
    fun t ht => by cases ht
  have hstored : ∀ t ∈ some x.task, Coherent Task.revision t x.task := fun t ht => by
    cases ht
    exact Coherent.refl _ _
  have hmem := List.mem_of_getElem? hi
  cases c with
  | start =>
    rw [Calls.stepCall] at hs
    split at hs <;> cases hs
    · exact h.plain hi hread trivial rfl rfl
    · exact h.plain hi hread trivial rfl rfl
    · exact h.plain hi hstored ‹_› rfl rfl
  | startChecks current =>
    cases hs
    have hstatus : current.status ≠ .active := h.knows _ hmem
    exact h.plain hi (fun t ht => h.coherent _ hmem t ht) hstatus rfl rfl
  | startSaves => exact h.startSaves hi hs
  | started =>
    cases hs
    exact h.plain hi (fun t ht => h.coherent _ hmem t ht) trivial rfl rfl
  | sweep =>
    cases hs
    split
    · exact h.plain hi hstored trivial rfl rfl
    · exact h.plain hi hread trivial rfl rfl
  | reconcile =>
    rw [Calls.stepCall] at hs
    split at hs
    · cases hs
      exact h.plain hi hread trivial rfl rfl
    rename_i hactive
    split at hs <;> cases hs
    · exact h.plain hi hread trivial rfl rfl
    · refine h.plain hi (fun t ht => h.coherent _ hmem t ht) ?_ rfl rfl
      exact ⟨not_not.1 hactive, [], rfl, .nil, fun _ => rfl⟩
  | creates _ _ rest =>
    cases rest with
    | nil =>
      cases hs
      exact h.loopEnds hi
    | cons =>
      rw [Calls.stepCall] at hs
      split at hs
      · rename_i session hsession
        cases hs
        refine h.turn hi ⟨rfl, .inl ⟨session, hsession, hsession⟩⟩ fun hfalse => ⟨hfalse, rfl⟩
      · rename_i hnone
        cases hs
        exact h.starts hi hnone hlawful now.runId now.stream
  | stores => exact h.stores hi hs
  | stops sessions =>
    cases sessions with
    | nil =>
      cases hs
      exact h.plain hi hread trivial rfl rfl
    | cons =>
      cases hs
      exact h.cancels hi
  | pause =>
    cases hs
    split
    · exact h.plain hi hread trivial rfl rfl
    · exact h.plain hi hstored trivial rfl rfl
  | pauseSaves => exact h.pauseSaves hi hlawful hs
  | update =>
    cases hs
    exact h.plain hi hstored trivial rfl rfl
  | updateChecks =>
    cases hs
    split
    · exact h.plain hi hread trivial rfl rfl
    · exact h.plain hi (fun t ht => h.coherent _ hmem t ht) trivial rfl rfl
  | updateSaves => exact h.updateSaves hi hlawful hs
  | ended => cases hs

theorem Inv.step (h : Inv x) (hlawful : Lawful x act) (hs : step zone x act = some y) : Inv y := by
  cases act with
  | request request =>
    cases hs
    have hnew : request.call.read? = none ∧ request.call.started? = none ∧
        Knows x.created request.call := by
      cases request <;> exact ⟨rfl, rfl, trivial⟩
    obtain ⟨hread, _, _⟩ := hnew
    refine ⟨fun call hcall => ?_, fun call hcall => ?_, fun session hlive => ?_,
      fun hpaused session hlive => ?_⟩
    · rcases Parties.mem_snoc.1 hcall with hcall | rfl
      · exact h.coherent call hcall
      · rw [hread]
        exact nofun
    · rcases List.mem_append.1 hcall with hcall | hcall
      · exact h.knows call hcall
      · rwa [List.mem_singleton.1 hcall]
    · refine (h.kept session hlive).imp_right ?_
      rintro ⟨call, hcall, hrest⟩
      exact ⟨call, List.mem_append_left _ hcall, hrest⟩
    · refine (h.paused hpaused session hlive).imp_right ?_
      rintro ⟨call, hcall, hs⟩
      exact ⟨call, List.mem_append_left _ hcall, hs⟩
  | go i =>
    obtain ⟨c, hi, hs⟩ := Option.bind_eq_some_iff.1 hs
    exact h.stepCall hi (hlawful c hi) hs
  | fail i =>
    obtain ⟨c, hi, hs⟩ := Option.bind_eq_some_iff.1 hs
    split at hs
    · rename_i hfails
      cases hs
      refine h.go hi nofun trivial
        (fun p hp _ session hs => .inl (hlawful c hi p hp session hs)) fun session hs => ?_
      cases c with
      | stops => cases hfails
      | _ => cases hs
    · cases hs

theorem Inv.init (task : Task Nat) : Inv (init task) where
  coherent _ hcall := by cases hcall
  knows _ hcall := by cases hcall
  kept _ hlive := by
    obtain ⟨_, _, hrun, _⟩ := hlive
    cases hrun
  paused _ _ hlive := by
    obtain ⟨_, _, hrun, _⟩ := hlive
    cases hrun

/-! ## Runs -/

/-- **No stream is lost track of** in a run of lawful steps, when no call is in flight. -/
theorem tracked_of_lawful (zone : String → ℚ → LocalTime) (task : Task Nat) (acts : List Act)
    (hlawful : Along (step zone) Lawful (init task) acts) :
    ∀ x ∈ states (step zone) (init task) acts, Quiet x → Tracked x := by
  intro x hx hquiet
  have hinv : Inv x := invariant_states (I := Inv) (fun _ _ _ h hP hs => h.step hP hs)
    (Inv.init task) hlawful x hx
  refine ⟨fun session hlive => ?_, fun hpaused session hlive => ?_⟩
  · rcases hinv.kept session hlive with hkept | ⟨call, hcall, p, hp, -⟩
    · exact hkept
    · rw [Call.eq_ended (hquiet call hcall)] at hp
      cases hp
  · rcases hinv.paused hpaused session hlive with hcancelled | ⟨call, hcall, hs⟩
    · exact hcancelled
    · rw [Call.eq_ended (hquiet call hcall)] at hs
      cases hs

/-- A draft of a task with one camera, always active. -/
def oneCamera : Task Nat where
  taskId := "st_1"
  status := .draft
  bindings := [⟨"b1", "src_1", "cam_1", none, none, none⟩]
  schedule := ⟨"UTC", [], []⟩
  updatedAt := 0
  revision := 1
  nodup := by decide

/-- Every moment is the same. -/
def stillZone (_ : String) (_ : ℚ) : LocalTime := ⟨"2024-01-01", 1, 0⟩

/-- A moment in the schedule. -/
def soon : Moment := ⟨1, "run_1", true⟩

/-- Two starts at once, then a pause. -/
theorem two_starts_tracked :
    let acts : List Act := [.request .start, .go 0 soon, .go 0 soon, .go 0 soon, .go 0 soon,
      .request (.sweep none), .go 1 soon, .go 1 soon, .go 0 soon, .go 0 soon, .go 1 soon,
      .go 0 soon,
      .go 1 soon, .go 0 soon, .go 1 soon, .request .pause, .go 2 soon, .go 2 soon, .go 2 soon,
        .go 2 soon]
    ∃ x, exec (step stillZone) (init oneCamera) acts = some x ∧ Tracked x ∧
      x.task.status = .paused ∧ sessionsOf x.task.bindings = [0] ∧ x.cancelled = [0] := by
  intro acts
  have hlawful : Along (step stillZone) Lawful (init oneCamera) acts := by decide +kernel
  obtain ⟨x, hx, hquiet, hdone⟩ : ∃ x, exec (step stillZone) (init oneCamera) acts = some x ∧
      Quiet x ∧ x.task.status = .paused ∧ sessionsOf x.task.bindings = [0] ∧ x.cancelled = [0] :=
    exec_decide (by decide +kernel)
  exact ⟨x, hx, tracked_of_lawful stillZone oneCamera acts hlawful x (mem_states_of_exec hx) hquiet,
    hdone⟩

/-- **A stream nobody knows of.** The task is paused, and another time renamed, while
`_reconcile_task` is about to store the session that it has created. -/
theorem paused_with_stream :
    let starting : List Act := [.request .start, .go 0 soon, .go 0 soon, .go 0 soon, .go 0 soon,
        .go 0 soon]
    let paused : List Act := starting ++ [.request .pause, .go 1 soon, .go 1 soon, .go 1 soon,
      .go 0 soon, .go 0 soon, .go 0 soon]
    let renamed : List Act := starting ++ [.go 0 soon, .request (.update ⟨2, none, none⟩),
      .go 1 soon, .go 1 soon, .go 1 soon, .go 0 soon, .go 0 soon]
    (∃ x, exec (step stillZone) (init oneCamera) paused = some x ∧ Quiet x ∧ ¬ Tracked x ∧
      x.task.status = .paused ∧ sessionsOf x.task.bindings = [] ∧ x.cancelled = []) ∧
    ∃ x, exec (step stillZone) (init oneCamera) renamed = some x ∧ Quiet x ∧ ¬ Tracked x ∧
      x.task.status = .active ∧ sessionsOf x.task.bindings = [] ∧ x.cancelled = [] := by
  intro _ paused renamed
  have hlost : ∀ x : State,
      (x.created.get? ⟨"st_1", "b1", 2⟩).bind CreatedRun.streamSessionId = some 0 →
      sessionsOf x.task.bindings = [] → x.cancelled = [] → ¬ Tracked x := by
    intro x hcreated hnamed hcancelled htracked
    obtain ⟨run, hrun, hsession⟩ := Option.bind_eq_some_iff.1 hcreated
    rcases htracked.named 0 ⟨_, run, hrun, hsession⟩ with hmem | hmem
    · simp [hnamed] at hmem
    · simp [hcancelled] at hmem
  constructor
  · obtain ⟨x, hx, hquiet, hcreated, hstatus, hnamed, hcancelled⟩ : ∃ x,
        exec (step stillZone) (init oneCamera) paused = some x ∧ Quiet x ∧
        (x.created.get? ⟨"st_1", "b1", 2⟩).bind CreatedRun.streamSessionId = some 0 ∧
        x.task.status = .paused ∧ sessionsOf x.task.bindings = [] ∧ x.cancelled = [] :=
      exec_decide (by decide +kernel)
    exact ⟨x, hx, hquiet, hlost x hcreated hnamed hcancelled, hstatus, hnamed, hcancelled⟩
  · obtain ⟨x, hx, hquiet, hcreated, hstatus, hnamed, hcancelled⟩ : ∃ x,
        exec (step stillZone) (init oneCamera) renamed = some x ∧ Quiet x ∧
        (x.created.get? ⟨"st_1", "b1", 2⟩).bind CreatedRun.streamSessionId = some 0 ∧
        x.task.status = .active ∧ sessionsOf x.task.bindings = [] ∧ x.cancelled = [] :=
      exec_decide (by decide +kernel)
    exact ⟨x, hx, hquiet, hlost x hcreated hnamed hcancelled, hstatus, hnamed, hcancelled⟩

end Scenara.Surveillance.Calls
