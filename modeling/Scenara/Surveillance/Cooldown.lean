import Scenara.Surveillance.Alerts

/-!
# Cooldown

The observations of one member on one binding. An alert is due when there was none before, or the
last one was triggered a cooldown ago; the debounce state says so. The idempotency key asks
something else: whether the *first* sight of the track falls into a window that has its alert.
-/

namespace Scenara.Surveillance

open Scenara.Core

variable (sha256 : String → String) (alertIds : Fresh String) (task : AlertTask)
    (member : MemberMatch)

/-- An observation of the member, its score, and the time of its turn. -/
structure Sighting where
  observation : Observation
  score : ℚ
  createdAt : ℚ

/-- `_evaluate_observation` on the one match of a sighting. -/
def evaluate (s : AlertState) (g : Sighting) : AlertState × List AlertWriteResult :=
  evaluateObservation sha256 alertIds task g.observation s
    [({ member with score := g.score }, g.createdAt)]

/-- One observation after another. -/
def see (s : AlertState) (g : Sighting) : Option AlertState :=
  some (evaluate sha256 alertIds task member s g).1

/-! ## What should happen, and what does -/

/-- No alert was emitted before, or the last one at least a cooldown before the observation. -/
def Due (s : AlertState) (g : Sighting) : Prop :=
  ∀ e ∈ s.repository.events.getLast?, e.occurredAt + task.cooldownSeconds ≤ g.observation.lastSeenAt

/-- The idempotency key of the observation's window was used. -/
def Repeats (s : AlertState) (g : Sighting) : Prop :=
  idempotencyKeyOf sha256 task g.observation member ∈
    s.repository.events.map AlertEvent.deduplicationKey

/-- A new alert is emitted. -/
structure Emitted (s s' : AlertState) (g : Sighting) (outcome : AlertWriteResult) : Prop where
  emitted : outcome.emitted = true
  fresh : s.repository.alerts.get? outcome.alert.alertId = none
  stored : s'.repository.alerts = s.repository.alerts.insert outcome.alert.alertId outcome.alert
  triggered : outcome.alert.triggeredAt = g.observation.lastSeenAt
  event : ∃ e, outcome.event = some e ∧ e.alertId = outcome.alert.alertId ∧
    e.occurredAt = g.observation.lastSeenAt ∧
    e.deduplicationKey = idempotencyKeyOf sha256 task g.observation member ∧
    s'.repository.events = s.repository.events ++ [e]

/-- The observation is folded into the alert of the last event. -/
structure Folded (s s' : AlertState) (g : Sighting) (outcome : AlertWriteResult) : Prop where
  suppressed : outcome.emitted = false
  events : s'.repository.events = s.repository.events
  folded : ∃ e ∈ s.repository.events.getLast?, ∃ current,
    s.repository.alerts.get? e.alertId = some current ∧
    s'.repository.alerts = s.repository.alerts.insert e.alertId outcome.alert ∧
    outcome.alert.occurrenceCount = current.occurrenceCount + 1 ∧
    outcome.alert.lastSeenAt = max current.lastSeenAt g.observation.lastSeenAt ∧
    outcome.alert.maxScore = max current.maxScore g.score

/-! ## The state the observations leave -/

/-- The debounce state speaks of the last event, and the used keys are those of the events. -/
structure Tracked (s : AlertState) : Prop where
  cold : s.repository.events = [] →
    s.repository.debounce.get? (debounceKeyOf sha256 task member) = none
  current : ∀ e ∈ s.repository.events.getLast?, ∃ state alert,
    s.repository.debounce.get? (debounceKeyOf sha256 task member) = some state ∧
    state.lastAlertId = some e.alertId ∧
    state.cooldownUntil = e.occurredAt + task.cooldownSeconds ∧
    s.repository.alerts.get? e.alertId = some alert ∧ alert.alertId = e.alertId
  keys : ∀ k, s.repository.idempotency.get? k ≠ none ↔
    k ∈ s.repository.events.map AlertEvent.deduplicationKey
  named : ∀ k id, s.repository.idempotency.get? k = some id → s.repository.alerts.get? id ≠ none
  drawn : ∀ id, s.repository.alerts.get? id ≠ none → ∃ n < s.issued, id = alertIds.draw n

variable {sha256 alertIds task member} {s s' : AlertState} {g : Sighting}

theorem tracked_empty : Tracked sha256 alertIds task member .empty where
  cold _ := rfl
  current e he := by cases he
  keys k := iff_of_false (fun h => h rfl) List.not_mem_nil
  named k id h := by cases h
  drawn id h := absurd rfl h

section

variable (hs : Tracked sha256 alertIds task member s)
include hs

theorem cooling_of_due (hdue : Due task s g) :
    cooling s.repository (debounceKeyOf sha256 task member) g.observation.lastSeenAt = none := by
  unfold cooling
  cases hlast : s.repository.events.getLast? with
  | none => rw [hs.cold (List.getLast?_eq_none_iff.1 hlast)]
  | some e =>
    obtain ⟨_, _, hstate, -, huntil, -⟩ := hs.current e hlast
    rw [hstate]
    dsimp only
    rw [if_neg]
    rw [huntil]
    exact not_lt.2 (hdue e hlast)

theorem cooling_of_not_due (hdue : ¬Due task s g) :
    ∃ e ∈ s.repository.events.getLast?, ∃ state alert,
      cooling s.repository (debounceKeyOf sha256 task member) g.observation.lastSeenAt =
        some (state, alert) ∧
      s.repository.debounce.get? (debounceKeyOf sha256 task member) = some state ∧
      state.lastAlertId = some e.alertId ∧
      state.cooldownUntil = e.occurredAt + task.cooldownSeconds ∧
      s.repository.alerts.get? e.alertId = some alert ∧ alert.alertId = e.alertId := by
  unfold Due at hdue
  push Not at hdue
  obtain ⟨e, hlast, hlt⟩ := hdue
  obtain ⟨state, alert, hstate, hid, huntil, halert, hname⟩ := hs.current e hlast
  refine ⟨e, hlast, state, alert, ?_, hstate, hid, huntil, halert, hname⟩
  unfold cooling
  rw [hstate]
  dsimp only
  rw [if_pos (by rw [huntil]; exact hlt), hid]
  dsimp only
  rw [halert]
  rfl

theorem duplicate_eq_none_iff (k : String) :
    duplicate s.repository k = none ↔ k ∉ s.repository.events.map AlertEvent.deduplicationKey := by
  rw [← hs.keys, not_not]
  unfold duplicate
  cases hk : s.repository.idempotency.get? k with
  | none => exact iff_of_true rfl rfl
  | some id => exact iff_of_false (hs.named k id hk) (Option.some_ne_none id)

theorem tracked_repeat : Tracked sha256 alertIds task member ⟨s.repository, s.issued + 1⟩ where
  cold := hs.cold
  current := hs.current
  keys := hs.keys
  named := hs.named
  drawn id hid := by
    obtain ⟨n, hn, rfl⟩ := hs.drawn id hid
    exact ⟨n, Nat.lt_succ_of_lt hn, rfl⟩

theorem tracked_fold {e : AlertEvent}
    (hlast : e ∈ s.repository.events.getLast?) (state : DebounceState) (updated : AlertRecord)
    (hid : state.lastAlertId = some e.alertId)
    (huntil : state.cooldownUntil = e.occurredAt + task.cooldownSeconds)
    (hname : updated.alertId = e.alertId) (hthere : s.repository.alerts.get? e.alertId ≠ none) :
    Tracked sha256 alertIds task member
      ⟨{ s.repository with
          alerts := s.repository.alerts.insert updated.alertId updated
          debounce := s.repository.debounce.insert (debounceKeyOf sha256 task member) state },
        s.issued + 1⟩ where
  cold hnil := by
    rw [show s.repository.events = [] from hnil] at hlast
    cases hlast
  current e' he' := by
    cases (show s.repository.events.getLast? = some e from hlast).symm.trans he'
    refine ⟨state, updated, Dict.get?_insert_self _ _ _, hid, huntil, ?_, hname⟩
    rw [← hname]
    exact Dict.get?_insert_self _ _ _
  keys := hs.keys
  named k id hk := by
    rw [Dict.get?_insert]
    by_cases heq : id = updated.alertId
    · rw [if_pos heq]
      exact Option.some_ne_none _
    · rw [if_neg heq]
      exact hs.named k id hk
  drawn id hin := by
    have hthere' : s.repository.alerts.get? id ≠ none := by
      rw [Dict.get?_insert] at hin
      by_cases heq : id = updated.alertId
      · rwa [heq, hname]
      · rwa [if_neg heq] at hin
    obtain ⟨n, hn, rfl⟩ := hs.drawn id hthere'
    exact ⟨n, Nat.lt_succ_of_lt hn, rfl⟩

theorem tracked_emit {alert : AlertRecord} {e : AlertEvent}
    {state : DebounceState} (hdrawn : alert.alertId = alertIds.draw s.issued)
    (hevent : e.alertId = alert.alertId) (hkey : e.deduplicationKey = alert.idempotencyKey)
    (hid : state.lastAlertId = some alert.alertId)
    (huntil : state.cooldownUntil = e.occurredAt + task.cooldownSeconds) :
    Tracked sha256 alertIds task member
      ⟨{ alerts := s.repository.alerts.insert alert.alertId alert
         idempotency := s.repository.idempotency.insert alert.idempotencyKey alert.alertId
         events := s.repository.events ++ [e]
         debounce := s.repository.debounce.insert (debounceKeyOf sha256 task member) state },
        s.issued + 1⟩ where
  cold hnil := absurd hnil (List.append_ne_nil_of_right_ne_nil _ (List.cons_ne_nil _ _))
  current e' he' := by
    rw [show (s.repository.events ++ [e]).getLast? = some e from List.getLast?_concat] at he'
    cases he'
    refine ⟨state, alert, Dict.get?_insert_self _ _ _, hevent ▸ hid, huntil, ?_, hevent.symm⟩
    rw [hevent]
    exact Dict.get?_insert_self _ _ _
  keys k := by
    rw [Dict.get?_insert, List.map_append, List.mem_append, ← hs.keys, List.map_singleton,
      List.mem_singleton, hkey]
    by_cases heq : k = alert.idempotencyKey
    · rw [if_pos heq]
      exact iff_of_true (Option.some_ne_none _) (.inr heq)
    · rw [if_neg heq]
      exact (or_iff_left heq).symm
  named k id hk := by
    rw [Dict.get?_insert] at hk ⊢
    by_cases heq : id = alert.alertId
    · rw [if_pos heq]
      exact Option.some_ne_none _
    · rw [if_neg heq]
      by_cases hkey' : k = alert.idempotencyKey
      · rw [if_pos hkey'] at hk
        cases hk
        exact absurd rfl heq
      · rw [if_neg hkey'] at hk
        exact hs.named k id hk
  drawn id hin := by
    rw [Dict.get?_insert] at hin
    by_cases heq : id = alert.alertId
    · exact ⟨s.issued, Nat.lt_succ_self _, heq.trans hdrawn⟩
    · rw [if_neg heq] at hin
      obtain ⟨n, hn, rfl⟩ := hs.drawn id hin
      exact ⟨n, Nat.lt_succ_of_lt hn, rfl⟩

theorem alert_fresh : s.repository.alerts.get? (alertIds.draw s.issued) = none := by
  by_contra hin
  obtain ⟨n, hn, heq⟩ := hs.drawn _ hin
  exact absurd (alertIds.injective heq) (Nat.ne_of_gt hn)

theorem evaluate_cases (g : Sighting) :
    ∃ s' outcome, evaluate sha256 alertIds task member s g = (s', [outcome]) ∧
      Tracked sha256 alertIds task member s' ∧
      (¬Due task s g ∧ Folded s s' g outcome ∨
        Due task s g ∧ Repeats sha256 task member s g ∧ outcome.emitted = false ∧
          s'.repository = s.repository ∨
        Due task s g ∧ ¬Repeats sha256 task member s g ∧
          Emitted sha256 task member s s' g outcome) := by
  let candidate := candidateOf sha256 task g.observation { member with score := g.score }
    (alertIds.draw s.issued) g.createdAt
  have hevaluate : ∀ {r outcome}, recordAlert s.repository candidate = (r, outcome) →
      evaluate sha256 alertIds task member s g = (⟨r, s.issued + 1⟩, [outcome]) := fun h => by
    unfold evaluate evaluateObservation evaluateObservation evaluateMatch
    dsimp only
    rw [h]
  by_cases hdue : Due task s g
  · have hcooling := cooling_of_due hs hdue
    cases hduplicate : duplicate s.repository candidate.alert.idempotencyKey with
    | some =>
      have hrepeats : Repeats sha256 task member s g := by
        by_contra hno
        cases hduplicate.symm.trans ((duplicate_eq_none_iff hs _).2 hno)
      exact ⟨_, _, hevaluate (recordAlert_duplicate hcooling hduplicate), tracked_repeat hs,
        .inr (.inl ⟨hdue, hrepeats, rfl, rfl⟩)⟩
    | none =>
      have hrepeats : ¬Repeats sha256 task member s g := (duplicate_eq_none_iff hs _).1 hduplicate
      exact ⟨_, _, hevaluate (recordAlert_new hcooling hduplicate),
        tracked_emit hs rfl rfl rfl rfl rfl,
        .inr (.inr ⟨hdue, hrepeats, rfl, alert_fresh hs, rfl, rfl, _, rfl, rfl, rfl, rfl, rfl⟩)⟩
  · obtain ⟨e, hlast, state, alert, hcooling, -, hid, huntil, halert, hname⟩ :=
      cooling_of_not_due hs hdue
    have hthere : s.repository.alerts.get? e.alertId ≠ none := by
      rw [halert]
      exact Option.some_ne_none _
    refine ⟨_, _, hevaluate (recordAlert_cooling hcooling), tracked_fold hs hlast
      (foldDebounce state candidate.alert) (foldAlert alert candidate.alert) hid huntil
        hname hthere,
      .inl ⟨hdue, rfl, rfl, e, hlast, alert, halert, ?_, rfl, rfl, rfl⟩⟩
    rw [← hname]

end

/-! ## Sequences of observations -/

section Sequence

variable (sha256 alertIds task member)

/-- What the cooldown and the window decide. -/
def Decided (s : AlertState) (g : Sighting) : Prop :=
  ∃ s' outcome, evaluate sha256 alertIds task member s g = (s', [outcome]) ∧
    (Due task s g → ¬Repeats sha256 task member s g → Emitted sha256 task member s s' g outcome) ∧
    (¬Due task s g → Folded s s' g outcome) ∧
    (Due task s g → Repeats sha256 task member s g →
      outcome.emitted = false ∧ s'.repository = s.repository)

/-- What the cooldown alone would decide. -/
def Conforms (s : AlertState) (g : Sighting) : Prop :=
  ∃ s' outcome, evaluate sha256 alertIds task member s g = (s', [outcome]) ∧
    (Due task s g → Emitted sha256 task member s s' g outcome) ∧
    (¬Due task s g → Folded s s' g outcome)

/-- **Alerts follow the cooldown and the window**: an observation emits an alert exactly when it is
due and its window has none; within the cooldown it is folded into the last alert; a due observation
whose window has its alert changes nothing. -/
theorem alert_emission (sightings : List Sighting) :
    Along (see sha256 alertIds task member) (Decided sha256 alertIds task member) .empty
      sightings := by
  refine along_of_invariant (I := Tracked sha256 alertIds task member) (fun s g hs => ?_)
    (fun s g s' hs h => ?_) sightings tracked_empty
  · obtain ⟨s', outcome, hevaluate, -, hcases⟩ := evaluate_cases hs g
    refine ⟨s', outcome, hevaluate, fun hdue hnew => ?_, fun hdue => ?_, fun hdue hrepeats => ?_⟩
    · rcases hcases with ⟨hnot, -⟩ | ⟨-, hrepeats, -⟩ | ⟨-, -, hemitted⟩
      · exact absurd hdue hnot
      · exact absurd hrepeats hnew
      · exact hemitted
    · rcases hcases with ⟨-, hfolded⟩ | ⟨hdue', -⟩ | ⟨hdue', -⟩
      · exact hfolded
      all_goals exact absurd hdue' hdue
    · rcases hcases with ⟨hnot, -⟩ | ⟨-, -, hquiet⟩ | ⟨-, hnew, -⟩
      · exact absurd hdue hnot
      · exact hquiet
      · exact absurd hrepeats hnew
  · obtain ⟨_, _, hevaluate, htracked, -⟩ := evaluate_cases hs g
    unfold see at h
    rw [hevaluate] at h
    cases h
    exact htracked

/-- The observations that are due when every due one so far got its alert; `last` is the time of the
last alert. -/
def dueFrom (task : AlertTask) : Option ℚ → List Sighting → List Sighting
  | _, [] => []
  | last, g :: rest =>
    if ∀ t ∈ last, t + task.cooldownSeconds ≤ g.observation.lastSeenAt then
      g :: dueFrom task (some g.observation.lastSeenAt) rest
    else dueFrom task last rest

theorem see_eq {s' : AlertState} {outcomes : List AlertWriteResult}
    (h : evaluate sha256 alertIds task member s g = (s', outcomes)) :
    see sha256 alertIds task member s g = some s' := by
  unfold see
  rw [h]

theorem conforms_iff_from (sightings : List Sighting) {s : AlertState}
    (hs : Tracked sha256 alertIds task member s)
    (hkeys : (s.repository.events.map AlertEvent.deduplicationKey).Nodup) :
    Along (see sha256 alertIds task member) (Conforms sha256 alertIds task member) s sightings ↔
      (s.repository.events.map AlertEvent.deduplicationKey ++
        (dueFrom task (s.repository.events.getLast?.map AlertEvent.occurredAt) sightings).map
          fun g => idempotencyKeyOf sha256 task g.observation member).Nodup := by
  induction sightings generalizing s with
  | nil => simpa [Along, dueFrom] using hkeys
  | cons g rest ih =>
    have hdueIff : (∀ t ∈ s.repository.events.getLast?.map AlertEvent.occurredAt,
        t + task.cooldownSeconds ≤ g.observation.lastSeenAt) ↔ Due task s g := by
      unfold Due
      cases s.repository.events.getLast? with
      | none | some => simp
    obtain ⟨s₁, outcome, hevaluate, htracked, hcases⟩ := evaluate_cases hs g
    have hnext : ∀ {P : Prop}, (P ∧ ∀ s', see sha256 alertIds task member s g = some s' →
        Along (see sha256 alertIds task member) (Conforms sha256 alertIds task member) s' rest) ↔
        P ∧ Along (see sha256 alertIds task member) (Conforms sha256 alertIds task member) s₁
          rest := by
      intro P
      rw [see_eq sha256 alertIds task member hevaluate]
      simp only [Option.some.injEq, forall_eq']
    unfold Along dueFrom
    rw [hnext]
    rcases hcases with ⟨hdue, hfolded⟩ | ⟨hdue, hrepeats, hquiet, -⟩ | ⟨hdue, hnew, hemitted⟩
    · -- folded: no event, no key
      have hconforms : Conforms sha256 alertIds task member s g :=
        ⟨s₁, outcome, hevaluate, fun h => absurd h hdue, fun _ => hfolded⟩
      rw [if_neg (hdueIff.not.2 hdue), and_iff_right hconforms,
        ih htracked (by rw [hfolded.events]; exact hkeys), hfolded.events]
    · -- due, but the window has its alert
      rw [if_pos (hdueIff.2 hdue)]
      refine iff_of_false (fun h => ?_) (fun h => ?_)
      · obtain ⟨_, _, hevaluate₂, hemits, -⟩ := h.1
        rw [hevaluate] at hevaluate₂
        cases hevaluate₂
        cases hquiet.symm.trans (hemits hdue).emitted
      · rw [List.map_cons] at h
        exact (List.disjoint_of_nodup_append h) hrepeats List.mem_cons_self
    · obtain ⟨e, -, -, hat, hkey, hevents⟩ := hemitted.event
      have hconforms : Conforms sha256 alertIds task member s g :=
        ⟨s₁, outcome, hevaluate, fun _ => hemitted, fun h => absurd hdue h⟩
      have hkeys₁ : (s₁.repository.events.map AlertEvent.deduplicationKey).Nodup := by
        rw [hevents, List.map_append, List.map_singleton, List.nodup_append]
        refine ⟨hkeys, List.nodup_singleton _, fun k hk k' hk' heq => hnew ?_⟩
        rw [List.mem_singleton.1 hk', hkey] at heq
        unfold Repeats
        rwa [← heq]
      rw [if_pos (hdueIff.2 hdue), and_iff_right hconforms, ih htracked hkeys₁, hevents,
        List.getLast?_concat, Option.map_some, hat, List.map_append, List.map_singleton, hkey,
        List.append_assoc, List.map_cons, List.singleton_append]

/-- **When the cooldown alone decides**: every observation of a sequence does as its cooldown says
iff the windows (idempotency keys) of the due ones differ. -/
theorem cooldown_iff (sightings : List Sighting) :
    Along (see sha256 alertIds task member) (Conforms sha256 alertIds task member) .empty
      sightings ↔ ((dueFrom task none sightings).map fun g =>
        idempotencyKeyOf sha256 task g.observation member).Nodup :=
  conforms_iff_from sha256 alertIds task member sightings tracked_empty List.nodup_nil

end Sequence

/-! ## A long track -/

/-- A task with a cooldown of half a minute. -/
def halfMinute : AlertTask := ⟨"t", "p", "task", "binding", 30, by decide⟩

/-- A member of a watchlist. -/
def wanted : MemberMatch := ⟨"member", "watchlist", "identity", 0⟩

/-- A track seen at 0, looked at after 5 seconds and again, still there, after 40. -/
def longTrack : List Sighting :=
  [⟨⟨"run", "track", 0, 5⟩, 1 / 2, 5⟩, ⟨⟨"run", "track", 0, 40⟩, 1 / 2, 40⟩]

/-- **The second look is due and silent**: its window is that of the first alert. -/
theorem longTrack_silent :
    longTrack.Pairwise (fun g g' => g.observation.lastSeenAt ≤ g'.observation.lastSeenAt) ∧
      (∀ g ∈ longTrack, g.observation.firstSeenAt ≤ g.observation.lastSeenAt) ∧
      ¬Along (see id .counted halfMinute wanted) (Conforms id .counted halfMinute wanted)
        .empty longTrack := by
  refine ⟨by decide +kernel, by decide +kernel, fun h => ?_⟩
  have hkeys := (conforms_iff_from id .counted halfMinute wanted longTrack tracked_empty
    List.nodup_nil).1 h
  revert hkeys
  decide +kernel

end Scenara.Surveillance
