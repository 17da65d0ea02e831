import Mathlib.Algebra.Order.BigOperators.Group.List
import Mathlib.Data.List.Induction
import Scenara.Surveillance.Model

/-!
# When the streams of a task are live

`_stop_bindings` cancels the session of every binding and leaves the id in the binding;
`_reconcile_task` skips every binding that has an id. So a binding that was stopped is never started
again.
-/

namespace Scenara.Surveillance

open Scenara.Core

variable {Session Runs : Type} {zone : String → ℚ → LocalTime} {port : StreamRunPort Session Runs}
  {s : System Session Runs} {runs : Runs}

/-! ## The loops -/

theorem cancelled_stopBindings (bindings : List (TaskBinding Session)) (session : Session) :
    port.Cancelled (stopBindings port runs bindings) session ↔
      port.Cancelled runs session ∨ ∃ b ∈ bindings, b.streamSessionId = some session := by
  unfold stopBindings
  induction bindings generalizing runs with
  | nil => simp
  | cons b _ ih =>
    rw [List.foldl_cons, ih]
    cases hb : b.streamSessionId with
    | none => simp [hb]
    | some =>
      simp only [port.cancelled_cancel, List.mem_cons, exists_eq_or_imp, hb, Option.some.injEq]
      rw [or_assoc, eq_comm]

theorem used_stopBindings (bindings : List (TaskBinding Session)) (key : IdempotencyKey) :
    port.Used (stopBindings port runs bindings) key ↔ port.Used runs key := by
  unfold stopBindings
  induction bindings generalizing runs with
  | nil => rfl
  | cons b _ ih =>
    rw [List.foldl_cons, ih]
    cases b.streamSessionId with
    | none => rfl
    | some session => exact port.used_cancel session key

/-- What starting does to one binding: an id stays, a missing one becomes that of a session nobody
has cancelled. -/
def StartedAs (port : StreamRunPort Session Runs) (runs : Runs)
    (b b' : TaskBinding Session) : Prop :=
  ∃ session, b'.streamSessionId = some session ∧
    (b.streamSessionId = some session ∨ b.streamSessionId = none ∧ ¬port.Cancelled runs session)

theorem startBindings_spec {taskId : String} {revision : Nat}
    (bindings : List (TaskBinding Session)) (hnodup : (bindings.map TaskBinding.bindingId).Nodup)
    (hkeys : ∀ b ∈ bindings, ¬port.Used runs (idempotencyKey taskId revision b)) :
    (∀ session, port.Cancelled (startBindings port taskId revision runs bindings).1 session ↔
        port.Cancelled runs session) ∧
      (∀ key, port.Used (startBindings port taskId revision runs bindings).1 key →
        port.Used runs key ∨ key.revision = revision) ∧
      List.Forall₂ (StartedAs port runs) bindings
        (startBindings port taskId revision runs bindings).2.1 ∧
      ((startBindings port taskId revision runs bindings).2.2 = false →
        (startBindings port taskId revision runs bindings).1 = runs ∧
          (startBindings port taskId revision runs bindings).2.1 = bindings) := by
  induction bindings generalizing runs with
  | nil => exact ⟨fun _ => .rfl, fun _ h => .inl h, .nil, fun _ => ⟨rfl, rfl⟩⟩
  | cons b bs ih =>
    rw [List.map_cons, List.nodup_cons] at hnodup
    rw [List.forall_mem_cons] at hkeys
    cases hb : b.streamSessionId with
    | some session =>
      have hstart : startBinding port taskId revision runs b = (runs, b, false) := by
        simp [startBinding, hb]
      obtain ⟨hc, hu, hall, hsame⟩ := ih hnodup.2 hkeys.2
      rw [startBindings, hstart]
      refine ⟨hc, hu, .cons ⟨session, hb, .inl hb⟩ hall, fun h => ?_⟩
      obtain ⟨hruns, hbs⟩ := hsame (by simpa using h)
      exact ⟨hruns, congrArg (b :: ·) hbs⟩
    | none =>
      obtain ⟨runId, session, hok, hfresh⟩ := port.createRun_ok (runRequest b) hkeys.1
      have hcancelled : ∀ session', port.Cancelled
          (port.createRun runs (runRequest b) (idempotencyKey taskId revision b)).1 session' ↔
            port.Cancelled runs session' :=
        fun session' => port.cancelled_createRun (runRequest b) session' hkeys.1
      have hused : ∀ key', port.Used
          (port.createRun runs (runRequest b) (idempotencyKey taskId revision b)).1 key' ↔
            port.Used runs key' ∨ key' = idempotencyKey taskId revision b :=
        port.used_createRun (runRequest b)
      generalize hout : port.createRun runs (runRequest b) (idempotencyKey taskId revision b) = out
        at hok hcancelled hused
      obtain ⟨runs', _⟩ := out
      subst hok
      have hstart : startBinding port taskId revision runs b =
          (runs', { b with
            activeRunId := some runId
            streamSessionId := some session
            lastError := none }, true) := by
        simp [startBinding, hb, hout]
      -- the other bindings have other keys
      have hkeys' : ∀ b' ∈ bs, ¬port.Used runs' (idempotencyKey taskId revision b') := by
        intro b' hb' hu
        rcases (hused _).1 hu with hu | he
        · exact hkeys.2 b' hb' hu
        · have hid : b'.bindingId = b.bindingId := by injection he
          exact hnodup.1 (hid ▸ List.mem_map_of_mem hb')
      obtain ⟨hc, hu, hall, -⟩ := ih hnodup.2 hkeys'
      rw [startBindings, hstart]
      refine ⟨fun session' => (hc session').trans (hcancelled session'), fun key hkey => ?_,
        .cons ⟨session, rfl, .inr ⟨hb, hfresh⟩⟩ (hall.imp ?_), fun h => by simp at h⟩
      · rcases hu key hkey with hkey | hrev
        · rcases (hused key).1 hkey with hkey | rfl
          · exact .inl hkey
          · exact .inr rfl
        · exact .inr hrev
      · rintro x y ⟨session', hy, hx | ⟨hx, hno⟩⟩
        · exact ⟨session', hy, .inl hx⟩
        · exact ⟨session', hy, .inr ⟨hx, fun hcan => hno ((hcancelled session').2 hcan)⟩⟩

/-! ## One call -/

/-- No key of the task's revision or a later one was used. -/
def Keys (port : StreamRunPort Session Runs) (s : System Session Runs) : Prop :=
  ∀ bindingId revision, s.task.revision ≤ revision →
    ¬port.Used s.runs ⟨s.task.taskId, bindingId, revision⟩

/-- Some binding refers to a cancelled session. -/
def Hit (port : StreamRunPort Session Runs) (s : System Session Runs) : Prop :=
  ∃ b ∈ s.task.bindings, ∃ session, b.streamSessionId = some session ∧
    port.Cancelled s.runs session

/-- Every binding refers to a session that was not cancelled. -/
def Live (port : StreamRunPort Session Runs) (s : System Session Runs) : Prop :=
  ∀ b ∈ s.task.bindings, ∃ session, b.streamSessionId = some session ∧
    ¬port.Cancelled s.runs session

/-- Every binding refers to a session. -/
def Started (s : System Session Runs) : Prop :=
  ∀ b ∈ s.task.bindings, b.streamSessionId ≠ none

theorem live_iff : Live port s ↔ ¬Hit port s ∧ Started s := by
  constructor
  · intro h
    refine ⟨?_, fun b hb => ?_⟩
    · rintro ⟨b, hb, session, hs, hc⟩
      obtain ⟨_, hs', hno⟩ := h b hb
      rw [hs] at hs'
      injection hs' with hs'
      exact hno (hs' ▸ hc)
    · obtain ⟨_, hs, -⟩ := h b hb
      simp [hs]
  · rintro ⟨hhit, hstarted⟩ b hb
    obtain ⟨session, hs⟩ := Option.ne_none_iff_exists'.1 (hstarted b hb)
    exact ⟨session, hs, fun hc => hhit ⟨b, hb, session, hs, hc⟩⟩

@[simp] theorem saveTask_self (t u : Task Session) :
    saveTask t u t.revision = some { u with revision := t.revision + 1 } := by
  simp [saveTask, cas]

variable {s' : System Session Runs}

theorem keys_of_le (hk : Keys port s)
    (hid : s'.task.taskId = s.task.taskId) (hrev : s.task.revision ≤ s'.task.revision)
    (hused : ∀ key, port.Used s'.runs key → port.Used s.runs key ∨
      key.revision < s'.task.revision) : Keys port s' := by
  intro bindingId revision _ hu
  rcases hused _ hu with hu | hlt
  · rw [hid] at hu
    exact hk bindingId revision (by omega) hu
  · dsimp only at hlt
    omega

/-- What the loop of `_reconcile_task` makes of the system. -/
structure Reconciled (port : StreamRunPort Session Runs) (s s' : System Session Runs) : Prop where
  status : s'.task.status = s.task.status
  keys : Keys port s'
  cancelled : ∀ session, port.Cancelled s'.runs session ↔ port.Cancelled s.runs session
  bindings : List.Forall₂ (StartedAs port s.runs) s.task.bindings s'.task.bindings

theorem reconcileTask_active (hk : Keys port s) {now : ℚ} {moment : Option ℚ}
    (hactive : s.task.status = .active)
    (hschedule : s.task.schedule.isActive zone (moment.getD now) = true) :
    Reconciled port s (reconcileTask zone port s s.task now moment) := by
  have hkeys : ∀ b ∈ s.task.bindings,
      ¬port.Used s.runs (idempotencyKey s.task.taskId s.task.revision b) :=
    fun b _ => hk b.bindingId _ (Nat.le_refl _)
  obtain ⟨hc, hu, hall, hsame⟩ := startBindings_spec s.task.bindings s.task.nodup hkeys
  unfold reconcileTask
  rw [if_neg (by simp [hactive]), if_neg (by simp [hschedule])]
  by_cases hch : (startBindings port s.task.taskId s.task.revision s.runs s.task.bindings).2.2 =
    true
  · simp only [hch, Bool.not_true, Bool.false_eq_true, if_false, saveTask_self]
    refine ⟨rfl, ?_, hc, hall⟩
    refine keys_of_le hk rfl (Nat.le_succ _) fun key hkey => ?_
    rcases hu key hkey with hkey | hrev
    · exact .inl hkey
    · exact .inr (by rw [hrev]; exact Nat.lt_succ_self _)
  · have hch' : (startBindings port s.task.taskId s.task.revision s.runs s.task.bindings).2.2 =
        false := by simpa using hch
    obtain ⟨hruns, hbs⟩ := hsame hch'
    simp only [hch', Bool.not_false, if_true]
    rw [hbs] at hall
    rw [hruns]
    exact ⟨rfl, hk, fun _ => .rfl, hall⟩

theorem Reconciled.hit_iff (h : Reconciled port s s') :
    Hit port s' ↔ Hit port s := by
  have hall := List.forall₂_iff_get.1 h.bindings
  constructor
  · rintro ⟨_, hb', session, hs', hc⟩
    obtain ⟨i, hi', rfl⟩ := List.getElem_of_mem hb'
    have hi : i < s.task.bindings.length := by omega
    obtain ⟨_, hs'', hcase⟩ := hall.2 i hi hi'
    rw [List.get_eq_getElem, hs'] at hs''
    injection hs'' with hs''
    subst hs''
    have hc := (h.cancelled session).1 hc
    rcases hcase with hold | ⟨-, hno⟩
    · exact ⟨_, List.getElem_mem hi, session, hold, hc⟩
    · exact absurd hc hno
  · rintro ⟨b, hb, session, hs, hc⟩
    obtain ⟨i, hi, rfl⟩ := List.getElem_of_mem hb
    have hi' : i < s'.task.bindings.length := by omega
    obtain ⟨_, hs', hcase⟩ := hall.2 i hi hi'
    rw [List.get_eq_getElem, hs] at hcase
    rcases hcase with hold | ⟨hnone, -⟩
    · injection hold with hold
      subst hold
      exact ⟨_, List.getElem_mem hi', session, hs', (h.cancelled session).2 hc⟩
    · cases hnone

theorem Reconciled.started (h : Reconciled port s s') : Started s' := by
  intro _ hb'
  obtain ⟨i, hi', rfl⟩ := List.getElem_of_mem hb'
  have hall := List.forall₂_iff_get.1 h.bindings
  obtain ⟨_, hs, -⟩ := hall.2 i (by omega) hi'
  rw [List.get_eq_getElem] at hs
  simp [hs]

theorem hit_stop {t : Task Session} :
    Hit port ⟨t, stopBindings port runs t.bindings⟩ ↔
      ∃ b ∈ t.bindings, b.streamSessionId ≠ none := by
  constructor
  · rintro ⟨b, hb, session, hs, -⟩
    exact ⟨b, hb, by simp [hs]⟩
  · rintro ⟨b, hb, hne⟩
    obtain ⟨session, hs⟩ := Option.ne_none_iff_exists'.1 hne
    exact ⟨b, hb, session, hs, (cancelled_stopBindings _ _).2 (.inr ⟨b, hb, hs⟩)⟩

/-- The call stops the bindings of the task, and one of them has a session: a pause, a reconcile of
the active task outside its schedule, or a start outside its schedule. -/
def Stops (zone : String → ℚ → LocalTime) (s : System Session Runs) (act : Act) : Prop :=
  (∃ b ∈ s.task.bindings, b.streamSessionId ≠ none) ∧
    match act with
    | .pause _ => s.task.status ≠ .paused
    | .start now valid | .resume now valid =>
      s.task.status ≠ .active ∧ s.task.status ≠ .expired ∧ valid = true ∧
        s.task.schedule.isActive zone now = false
    | .reconcile now moment =>
      s.task.status = .active ∧ s.task.schedule.isActive zone (moment.getD now) = false

/-- What a call preserves, and when it hits. -/
structure Applied (zone : String → ℚ → LocalTime) (port : StreamRunPort Session Runs)
    (s : System Session Runs) (stops : Prop) (s' : System Session Runs) : Prop where
  keys : Keys port s'
  hit : Hit port s' ↔ Hit port s ∨ stops

theorem reconcile_applied (zone : String → ℚ → LocalTime) (hk : Keys port s) (now : ℚ)
    (moment : Option ℚ) : Applied zone port s (Stops zone s (.reconcile now moment))
      (reconcileTask zone port s s.task now moment) := by
  by_cases hactive : s.task.status = .active
  · by_cases hschedule : s.task.schedule.isActive zone (moment.getD now) = true
    · have h := reconcileTask_active hk hactive hschedule
      refine ⟨h.keys, h.hit_iff.trans ?_⟩
      simp [Stops, hschedule]
    · have hoff : s.task.schedule.isActive zone (moment.getD now) =
          false := by simpa using hschedule
      have heq : reconcileTask zone port s s.task now moment =
          ⟨s.task, stopBindings port s.runs s.task.bindings⟩ := by
        simp [reconcileTask, hactive, hoff]
      rw [heq]
      refine ⟨keys_of_le hk rfl (Nat.le_refl _) fun key hkey =>
        .inl ((used_stopBindings _ key).1 hkey), hit_stop.trans ?_⟩
      constructor
      · exact fun h => .inr ⟨h, hactive, hoff⟩
      · rintro (⟨b, hb, _, hs, -⟩ | h)
        · exact ⟨b, hb, by simp [hs]⟩
        · exact h.1
  · have heq : reconcileTask zone port s s.task now moment = s := by simp [reconcileTask, hactive]
    rw [heq]
    exact ⟨hk, by simp [Stops, hactive]⟩

theorem start_applied (zone : String → ℚ → LocalTime) (hk : Keys port s) (now : ℚ) (valid : Bool) :
    Applied zone port s (Stops zone s (.start now valid)) (startTask zone port s now valid) := by
  unfold startTask
  by_cases hactive : s.task.status = .active
  · rw [if_pos hactive]
    exact ⟨hk, by simp [Stops, hactive]⟩
  rw [if_neg hactive]
  by_cases hexpired : s.task.status = .expired
  · rw [if_pos hexpired]
    exact ⟨hk, by simp [Stops, hexpired]⟩
  rw [if_neg hexpired]
  by_cases hvalid : valid = true
  · rw [if_neg (by simp [hvalid]), saveTask_self]
    -- the saved task is active, at the next revision, with the same bindings
    have hk' : Keys port ⟨{ s.task with
        status := .active, updatedAt := now, revision := s.task.revision + 1 }, s.runs⟩ :=
      keys_of_le hk rfl (Nat.le_succ _) fun _ => .inl
    have h := reconcile_applied zone hk' now none
    refine ⟨h.keys, h.hit.trans ?_⟩
    simp [Stops, Hit, hactive, hexpired, hvalid]
  · rw [if_pos (by simpa using hvalid)]
    exact ⟨hk, by simp [Stops, hvalid]⟩

/-- **What one call does**: it keeps the keys fresh, and a binding refers to a cancelled session
afterwards iff one did before, or the call stopped one. -/
theorem apply_applied (zone : String → ℚ → LocalTime) (hk : Keys port s) (act : Act) :
    Applied zone port s (Stops zone s act) (apply zone port s act) := by
  cases act with
  | start now valid | resume now valid => exact start_applied zone hk now valid
  | reconcile now moment => exact reconcile_applied zone hk now moment
  | pause now =>
    show Applied zone port s (Stops zone s (.pause now)) (pauseTask port s now)
    unfold pauseTask
    by_cases hpaused : s.task.status = .paused
    · rw [if_pos hpaused]
      exact ⟨hk, by simp [Stops, hpaused]⟩
    · rw [if_neg hpaused, saveTask_self]
      refine ⟨keys_of_le hk rfl (Nat.le_succ _) fun key hkey =>
        .inl ((used_stopBindings _ key).1 hkey), hit_stop.trans ?_⟩
      constructor
      · exact fun h => .inr ⟨h, hpaused⟩
      · rintro (⟨b, hb, _, hs, -⟩ | h)
        · exact ⟨b, hb, by simp [hs]⟩
        · exact h.1

/-! ## Runs -/

/-- The task before the first call: its keys are fresh and no binding refers to a cancelled
session. -/
structure Fresh (port : StreamRunPort Session Runs) (s : System Session Runs) : Prop where
  keys : Keys port s
  notHit : ¬Hit port s

/-- An earlier call stopped a binding that had a session. -/
def Stopped (zone : String → ℚ → LocalTime) (port : StreamRunPort Session Runs)
    (s : System Session Runs) (acts : List Act) : Prop :=
  ∃ pre act post, acts = pre ++ act :: post ∧ Stops zone (run zone port s pre) act

theorem run_append (acts : List Act) (act : Act) :
    run zone port s (acts ++ [act]) = apply zone port (run zone port s acts) act := by
  simp [run]

theorem stopped_append (acts : List Act) (act : Act) :
    Stopped zone port s (acts ++ [act]) ↔
      Stopped zone port s acts ∨ Stops zone (run zone port s acts) act := by
  constructor
  · rintro ⟨pre, a, post, he, hs⟩
    rcases List.eq_nil_or_concat post with rfl | ⟨post', _, rfl⟩
    · obtain ⟨rfl, hlast⟩ := List.append_inj' he rfl
      injection hlast with hact
      subst hact
      exact .inr hs
    · rw [List.concat_eq_append, ← List.cons_append, ← List.append_assoc] at he
      obtain ⟨he, -⟩ := List.append_inj' he rfl
      exact .inl ⟨pre, a, post', he, hs⟩
  · rintro (⟨pre, a, post, rfl, hs⟩ | hs)
    · exact ⟨pre, a, post ++ [act], by simp, hs⟩
    · exact ⟨acts, act, [], rfl, hs⟩

theorem hit_run_iff (zone : String → ℚ → LocalTime) (hf : Fresh port s) (acts : List Act) :
    Keys port (run zone port s acts) ∧
      (Hit port (run zone port s acts) ↔ Stopped zone port s acts) := by
  induction acts using List.reverseRecOn with
  | nil =>
    refine ⟨hf.keys, iff_of_false hf.notHit ?_⟩
    rintro ⟨_, _, _, he, -⟩
    simp at he
  | append_singleton _ act ih =>
    have h := apply_applied zone ih.1 act
    rw [run_append, stopped_append, ← ih.2]
    exact ⟨h.keys, h.hit⟩

/-- The calls the property is about: a reconcile of the active task, or a resume that leaves it
active, at a moment when the schedule is active. -/
def Checked (zone : String → ℚ → LocalTime) (port : StreamRunPort Session Runs)
    (s : System Session Runs) : Act → Prop
  | .reconcile now moment =>
    s.task.status = .active ∧ s.task.schedule.isActive zone (moment.getD now) = true
  | .resume now valid =>
    (apply zone port s (.resume now valid)).task.status = .active ∧
      s.task.schedule.isActive zone now = true
  | _ => False

/-- A resume of an active task, which returns at once. -/
def Idle (s : System Session Runs) : Act → Prop
  | .resume _ _ => s.task.status = .active
  | _ => False

theorem live_apply_iff (hk : Keys port s) {act : Act} (hc : Checked zone port s act) :
    Live port (apply zone port s act) ↔ ¬Hit port s ∧ (Idle s act → Started s) := by
  cases act with
  | start | pause => exact hc.elim
  | reconcile now moment =>
    have h : Reconciled port s (apply zone port s (.reconcile now moment)) :=
      reconcileTask_active hk hc.1 hc.2
    rw [live_iff]
    constructor
    · rintro ⟨hno, -⟩
      exact ⟨fun hh => hno (h.hit_iff.2 hh), fun hi => hi.elim⟩
    · rintro ⟨hno, -⟩
      exact ⟨fun hh => hno (h.hit_iff.1 hh), h.started⟩
  | resume now valid =>
    by_cases hactive : s.task.status = .active
    · have heq : apply zone port s (.resume now valid) = s := by simp [apply, startTask, hactive]
      rw [heq, live_iff]
      exact and_congr_right fun _ => ⟨fun h _ => h, fun h => h hactive⟩
    · obtain ⟨hafter, hschedule⟩ := hc
      have hexpired : s.task.status ≠ .expired := by
        intro he
        rw [apply, startTask, if_neg hactive, if_pos he] at hafter
        exact hactive hafter
      have hvalid : valid = true := by
        by_contra hno
        rw [apply, startTask, if_neg hactive, if_neg hexpired, if_pos (by simpa using hno)]
          at hafter
        exact hactive hafter
      have hk' : Keys port ⟨{ s.task with
          status := .active, updatedAt := now, revision := s.task.revision + 1 }, s.runs⟩ :=
        keys_of_le hk rfl (Nat.le_succ _) fun _ => .inl
      have h : Reconciled port ⟨{ s.task with
          status := .active, updatedAt := now, revision := s.task.revision + 1 }, s.runs⟩
          (apply zone port s (.resume now valid)) := by
        have heq : apply zone port s (.resume now valid) =
            reconcileTask zone port ⟨{ s.task with
              status := .active, updatedAt := now, revision := s.task.revision + 1 }, s.runs⟩
              { s.task with status := .active, updatedAt := now, revision := s.task.revision + 1 }
              now none := by
          simp [apply, startTask, hactive, hexpired, hvalid]
        rw [heq]
        exact reconcileTask_active hk' rfl hschedule
      rw [live_iff]
      constructor
      · rintro ⟨hno, -⟩
        exact ⟨fun hh => hno (h.hit_iff.2 hh), fun hi => absurd hi hactive⟩
      · rintro ⟨hno, -⟩
        exact ⟨fun hh => hno (h.hit_iff.1 hh), h.started⟩

/-- **When the streams are live.** After any calls, a reconcile or a resume under an active schedule
leaves every binding with a session that was not cancelled **iff** no earlier call stopped a binding
that had a session, and it is not a resume of an already active task one of whose bindings has
none. -/
theorem streams_live_iff (hf : Fresh port s) (acts : List Act) (act : Act)
    (hc : Checked zone port (run zone port s acts) act) :
    Live port (run zone port s (acts ++ [act])) ↔
      ¬Stopped zone port s acts ∧
        (Idle (run zone port s acts) act → Started (run zone port s acts)) := by
  obtain ⟨hk, hhit⟩ := hit_run_iff zone hf acts
  rw [run_append, live_apply_iff hk hc, hhit]

/-! ## A run service that counts its sessions -/

/-- The sessions by key, and the cancelled ones. -/
structure Sessions where
  created : List (IdempotencyKey × Nat)
  cancelled : List Nat

theorem fresh_not_mem (l : List Nat) : l.sum + 1 ∉ l := fun h => by
  have := List.le_sum_of_mem h
  omega

/-- Sessions are numbered; a used key gets its session again. -/
def countingRuns : StreamRunPort Nat Sessions where
  createRun runs _ key :=
    match runs.created.find? fun e => e.1 = key with
    | some e => (runs, .ok ⟨"run", some e.2⟩)
    | none =>
      ({ runs with created := (key, runs.cancelled.sum + 1) :: runs.created },
        .ok ⟨"run", some (runs.cancelled.sum + 1)⟩)
  cancelStreamSession runs session := { runs with cancelled := session :: runs.cancelled }
  Used runs key := ∃ e ∈ runs.created, e.1 = key
  Cancelled runs session := session ∈ runs.cancelled
  createRun_ok := by
    intro runs key request hno
    have hfind : (runs.created.find? fun e => e.1 = key) = none := by
      rw [List.find?_eq_none]
      exact fun e he hk => hno ⟨e, he, by simpa using hk⟩
    rw [hfind]
    exact ⟨"run", _, rfl, fresh_not_mem _⟩
  used_createRun := by
    intro runs key request key'
    cases hfind : runs.created.find? fun e => e.1 = key with
    | none => simp [or_comm, eq_comm]
    | some e =>
      have hkey : e.1 = key := by simpa using List.find?_some hfind
      refine ⟨.inl, fun h => h.elim id fun he => ?_⟩
      exact ⟨e, List.mem_of_find?_eq_some hfind, hkey.trans he.symm⟩
  cancelled_createRun := by
    intro runs key request session hno
    have hfind : (runs.created.find? fun e => e.1 = key) = none := by
      rw [List.find?_eq_none]
      exact fun e he hk => hno ⟨e, he, by simpa using hk⟩
    rw [hfind]
  used_cancel := fun _ _ => .rfl
  cancelled_cancel := by simp [or_comm]

/-- Every zone is at noon of one day. -/
def noon (_ : String) (_ : ℚ) : LocalTime := ⟨"2024-01-01", 1, 43200000000⟩

/-- A draft with one binding and the schedule that is always active. -/
def draftTask : System Nat Sessions where
  task :=
    { taskId := "st", status := .draft, schedule := ⟨"UTC", [], []⟩, updatedAt := 0, revision := 1,
      bindings := [⟨"bind", "src", "camera", none, none, none⟩], nodup := by simp }
  runs := ⟨[], []⟩

theorem draftTask_fresh : Fresh countingRuns draftTask where
  keys _ _ _ h := by
    obtain ⟨e, he, -⟩ := h
    cases he
  notHit h := by
    obtain ⟨b, hb, _, hs, -⟩ := h
    simp [List.mem_singleton.1 hb] at hs

/-- Started, and reconciled later. -/
theorem started_stays_live :
    Live countingRuns
      (run noon countingRuns draftTask [.start 1 true, .reconcile 2 none]) := by
  refine (streams_live_iff draftTask_fresh [.start 1 true] (.reconcile 2 none)
    ⟨rfl, rfl⟩).2 ⟨?_, fun h => h.elim⟩
  rintro ⟨pre, act, post, he, hstops⟩
  obtain ⟨rfl, rfl, -⟩ : pre = [] ∧ act = .start 1 true ∧ post = [] := by
    cases pre with
    | nil =>
      injection he with ha hp
      exact ⟨rfl, ha.symm, hp.symm⟩
    | cons x => simp at he
  obtain ⟨⟨b, hb, hne⟩, -⟩ := hstops
  rw [List.mem_singleton.1 hb] at hne
  exact hne rfl

/-- **A paused task does not restart**: after start, pause and resume the task is active, its
schedule is active, and its binding still refers to the session that the pause cancelled. -/
theorem restart_keeps_cancelled :
    Fresh countingRuns draftTask ∧
      Checked noon countingRuns
        (run noon countingRuns draftTask [.start 1 true, .pause 2]) (.resume 3 true) ∧
      ¬Live countingRuns
        (run noon countingRuns draftTask [.start 1 true, .pause 2, .resume 3 true]) := by
  refine ⟨draftTask_fresh, ⟨rfl, rfl⟩, fun h => ?_⟩
  obtain ⟨_, hs, hno⟩ :=
    h ⟨"bind", "src", "camera", some "run", some 1, none⟩ (List.mem_singleton.2 rfl)
  injection hs with hs
  subst hs
  exact hno (List.mem_singleton.2 rfl)

end Scenara.Surveillance
