import Mathlib.Data.Rat.Floor
import Scenara.Core.Dict
import Scenara.Core.Transition

/-!
# Alerts of a surveillance task

Model of `SurveillanceService._evaluate_observation` (`domains/portrait/surveillance.py`) from the
matches on, and of `MemorySurveillanceRepository.record_alert`
(`infrastructure/memory_surveillance.py`).

* What `list_active_members` and the matcher find for an observation is given: the list of its
  matches.
* The repository is the part of one tenant and project; SHA-256 is a parameter.
* Of an emitted alert the metrics, the snapshot's retention and the webhook are left out, and of the
  records the fields that nothing here reads. An event says when it occurred, not its RFC 3339 text.
-/

namespace Scenara.Surveillance

open Scenara.Core

/-! ## Records -/

/-- `AlertRecord`. -/
structure AlertRecord where
  alertId : String
  memberId : String
  runId : String
  trackId : String
  matchScore : ℚ
  maxScore : ℚ
  firstSeenAt : ℚ
  lastSeenAt : ℚ
  triggeredAt : ℚ
  occurrenceCount : Nat
  idempotencyKey : String
  createdAt : ℚ
  updatedAt : ℚ
  revision : Nat

/-- `AlertEvent`. -/
structure AlertEvent where
  eventCursor : Nat
  eventType : String
  occurredAt : ℚ
  alertId : String
  matchScore : ℚ
  deduplicationKey : String
  createdAt : ℚ
  deriving DecidableEq

/-- `DebounceState`. -/
structure DebounceState where
  debounceKey : String
  firstSeenAt : ℚ
  lastSeenAt : ℚ
  lastAlertId : Option String
  occurrenceCount : Nat
  maxScore : ℚ
  cooldownUntil : ℚ
  revision : Nat

/-- `AlertCandidate`. -/
structure AlertCandidate where
  alert : AlertRecord
  event : AlertEvent
  debounce : DebounceState

/-- `AlertWriteResult`. -/
structure AlertWriteResult where
  alert : AlertRecord
  event : Option AlertEvent
  emitted : Bool

/-! ## The repository -/

/-- `MemorySurveillanceRepository`: the alerts, their idempotency keys, events and debounce
states. -/
structure AlertRepository where
  alerts : Dict String AlertRecord
  idempotency : Dict String String
  events : List AlertEvent
  debounce : Dict String DebounceState

/-- Nothing stored. -/
def AlertRepository.empty : AlertRepository := ⟨.empty, .empty, [], .empty⟩

/-- The alert another hit is folded into. -/
def foldAlert (existing alert : AlertRecord) : AlertRecord :=
  { existing with
    lastSeenAt := max existing.lastSeenAt alert.lastSeenAt
    matchScore := alert.matchScore
    maxScore := max existing.maxScore alert.maxScore
    occurrenceCount := existing.occurrenceCount + 1
    updatedAt := alert.updatedAt
    revision := existing.revision + 1 }

/-- The debounce state of such a hit. -/
def foldDebounce (state : DebounceState) (alert : AlertRecord) : DebounceState :=
  { state with
    lastSeenAt := max state.lastSeenAt alert.lastSeenAt
    maxScore := max state.maxScore alert.maxScore
    occurrenceCount := state.occurrenceCount + 1
    revision := state.revision + 1 }

/-- The debounce state and the alert that a hit at `triggeredAt` is folded into. -/
def cooling (r : AlertRepository) (debounceKey : String) (triggeredAt : ℚ) :
    Option (DebounceState × AlertRecord) :=
  match r.debounce.get? debounceKey with
  | none => none
  | some state =>
    if state.cooldownUntil > triggeredAt then
      match state.lastAlertId with
      | none => none
      | some alertId => (r.alerts.get? alertId).map fun existing => (state, existing)
    else none

/-- The alert that was recorded with the idempotency key. -/
def duplicate (r : AlertRepository) (idempotencyKey : String) : Option AlertRecord :=
  (r.idempotency.get? idempotencyKey).bind r.alerts.get?

/-- `record_alert`. -/
def recordAlert (r : AlertRepository) (candidate : AlertCandidate) :
    AlertRepository × AlertWriteResult :=
  let alert := candidate.alert
  let debounceKey := candidate.debounce.debounceKey
  match cooling r debounceKey alert.triggeredAt with
  | some (state, existing) =>
    let updated := foldAlert existing alert
    ({ r with
        alerts := r.alerts.insert updated.alertId updated
        debounce := r.debounce.insert debounceKey (foldDebounce state alert) },
      ⟨updated, none, false⟩)
  | none =>
    match duplicate r alert.idempotencyKey with
    | some existing => (r, ⟨existing, none, false⟩)
    | none =>
      let event := { candidate.event with eventCursor := r.events.length + 1 }
      ({ alerts := r.alerts.insert alert.alertId alert
         idempotency := r.idempotency.insert alert.idempotencyKey alert.alertId
         events := r.events ++ [event]
         debounce := r.debounce.insert debounceKey
           { candidate.debounce with lastAlertId := some alert.alertId } },
        ⟨alert, some event, true⟩)

section Record

variable {r : AlertRepository} {candidate : AlertCandidate}

theorem recordAlert_cooling {state : DebounceState} {existing : AlertRecord}
    (h : cooling r candidate.debounce.debounceKey candidate.alert.triggeredAt = some (state,
      existing)) :
    recordAlert r candidate =
      ({ r with
          alerts := r.alerts.insert existing.alertId (foldAlert existing candidate.alert)
          debounce := r.debounce.insert candidate.debounce.debounceKey
            (foldDebounce state candidate.alert) },
        ⟨foldAlert existing candidate.alert, none, false⟩) := by
  unfold recordAlert
  dsimp only
  rw [h]
  rfl

theorem recordAlert_duplicate {existing : AlertRecord}
    (h : cooling r candidate.debounce.debounceKey candidate.alert.triggeredAt = none)
    (hduplicate : duplicate r candidate.alert.idempotencyKey = some existing) :
    recordAlert r candidate = (r, ⟨existing, none, false⟩) := by
  unfold recordAlert
  dsimp only
  rw [h, hduplicate]

theorem recordAlert_new
    (h : cooling r candidate.debounce.debounceKey candidate.alert.triggeredAt = none)
    (hduplicate : duplicate r candidate.alert.idempotencyKey = none) :
    recordAlert r candidate =
      ({ alerts := r.alerts.insert candidate.alert.alertId candidate.alert
         idempotency := r.idempotency.insert candidate.alert.idempotencyKey candidate.alert.alertId
         events := r.events ++ [{ candidate.event with eventCursor := r.events.length + 1 }]
         debounce := r.debounce.insert candidate.debounce.debounceKey
           { candidate.debounce with lastAlertId := some candidate.alert.alertId } },
        ⟨candidate.alert, some { candidate.event with eventCursor := r.events.length + 1 },
          true⟩) := by
  unfold recordAlert
  dsimp only
  rw [h, hduplicate]

end Record

/-! ## Observations -/

/-- The task and its binding, as far as alerts depend on them. -/
structure AlertTask where
  tenantId : String
  projectId : String
  taskId : String
  bindingId : String
  cooldownSeconds : Nat
  cooldown_pos : 0 < cooldownSeconds

/-- `ObservationBatch`. -/
structure Observation where
  runId : String
  trackId : String
  firstSeenAt : ℚ
  lastSeenAt : ℚ

/-- A match of the observation: the member and its score. -/
structure MemberMatch where
  memberId : String
  watchlistId : String
  portraitIdentityId : String
  score : ℚ

/-- `key_text`. -/
def keyText (task : AlertTask) (member : MemberMatch) : String :=
  "|".intercalate [task.tenantId, task.projectId, task.taskId, task.bindingId, member.watchlistId,
    member.portraitIdentityId]

/-- `int(first_seen_at // cooldown_seconds) * cooldown_seconds`. -/
def windowStart (task : AlertTask) (o : Observation) : Int :=
  ⌊o.firstSeenAt / task.cooldownSeconds⌋ * task.cooldownSeconds

variable (sha256 : String → String)

/-- `debounce_key`. -/
def debounceKeyOf (task : AlertTask) (member : MemberMatch) : String := sha256 (keyText task member)

/-- `idempotency_key`. -/
def idempotencyKeyOf (task : AlertTask) (o : Observation) (member : MemberMatch) : String :=
  sha256 (keyText task member ++ "|" ++ toString (windowStart task o))

/-- The candidate of a match. -/
def candidateOf (task : AlertTask) (o : Observation) (member : MemberMatch) (alertId : String)
    (createdAt : ℚ) : AlertCandidate where
  alert :=
    { alertId := alertId
      memberId := member.memberId
      runId := o.runId
      trackId := o.trackId
      matchScore := member.score
      maxScore := member.score
      firstSeenAt := o.firstSeenAt
      lastSeenAt := o.lastSeenAt
      triggeredAt := o.lastSeenAt
      occurrenceCount := 1
      idempotencyKey := idempotencyKeyOf sha256 task o member
      createdAt := createdAt
      updatedAt := createdAt
      revision := 1 }
  event :=
    { eventCursor := 0
      eventType := "alert.triggered"
      occurredAt := o.lastSeenAt
      alertId := alertId
      matchScore := member.score
      deduplicationKey := idempotencyKeyOf sha256 task o member
      createdAt := createdAt }
  debounce :=
    { debounceKey := debounceKeyOf sha256 task member
      firstSeenAt := o.firstSeenAt
      lastSeenAt := o.lastSeenAt
      lastAlertId := none
      occurrenceCount := 1
      maxScore := member.score
      cooldownUntil := o.lastSeenAt + task.cooldownSeconds
      revision := 1 }

/-- The repository, and how many alert ids were drawn. -/
structure AlertState where
  repository : AlertRepository
  issued : Nat

/-- Nothing stored. -/
def AlertState.empty : AlertState := ⟨.empty, 0⟩

/-- One turn of the loop of `_evaluate_observation`; `alertIds` are the drawn `alt_…` ids. -/
def evaluateMatch (alertIds : Fresh String) (task : AlertTask) (o : Observation) (s : AlertState)
    (member : MemberMatch) (createdAt : ℚ) : AlertState × AlertWriteResult :=
  let candidate := candidateOf sha256 task o member (alertIds.draw s.issued) createdAt
  let (repository, outcome) := recordAlert s.repository candidate
  (⟨repository, s.issued + 1⟩, outcome)

/-- `_evaluate_observation` on its matches, each with the time of its turn: the state after it, and
the outcomes. -/
def evaluateObservation (alertIds : Fresh String) (task : AlertTask) (o : Observation)
    (s : AlertState) : List (MemberMatch × ℚ) → AlertState × List AlertWriteResult
  | [] => (s, [])
  | (member, createdAt) :: rest =>
    let (s₁, outcome) := evaluateMatch sha256 alertIds task o s member createdAt
    let (s₂, outcomes) := evaluateObservation alertIds task o s₁ rest
    (s₂, outcome :: outcomes)

end Scenara.Surveillance
