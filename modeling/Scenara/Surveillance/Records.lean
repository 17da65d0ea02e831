import Scenara.Core.Dict
import Scenara.Core.Transition
import Scenara.Surveillance.Model

/-!
# Watchlist members and surveillance tasks

Model of `SurveillanceService.create_member`, `update_member`, `create_task` and `update_task`
(`domains/portrait/surveillance.py`), of the records with their validators and of the requests
(`platform/surveillance.py`), over the memory repository (`infrastructure/memory_surveillance.py`).

* The bounds of a `Field` are in its type (`Text`, `Listed`, `Moment`): requests are schema-valid,
  and a record holds no other values. What is left to check are the validators that look at more
  than a field (`WatchlistMember.validate`, `SurveillanceTask.validate`).
* `model_copy(update=request.model_dump(…))` checks nothing and leaves nested models as
  dictionaries: `Nested`. A dictionary that `model_dump` wrote validates to the model it was written
  from.
-/

namespace Scenara.Surveillance

open Scenara.Core

/-! ## Fields -/

/-- A string with `min_length` and `max_length`. -/
abbrev Text (lo hi : Nat) := {s : String // lo ≤ s.length ∧ s.length ≤ hi}

/-- A list with `min_length` and `max_length`. -/
abbrev Listed (lo hi : Nat) (α : Type) := {l : List α // lo ≤ l.length ∧ l.length ≤ hi}

/-- A float with `ge=0`. -/
abbrev Moment := {t : ℚ // 0 ≤ t}

/-- A float with bounds. -/
abbrev Between (lo hi : ℚ) := {q : ℚ // lo ≤ q ∧ q ≤ hi}

/-- A model, or the dictionary that `model_dump` made of one. -/
inductive Nested (α : Type) where
  | model (a : α)
  | dump (a : α)
  deriving DecidableEq

/-- Validation of a nested model. -/
def Nested.validate {α : Type} : Nested α → Nested α
  | .model a | .dump a => .model a

/-- The model that is there, or was dumped. -/
def Nested.value {α : Type} : Nested α → α
  | .model a | .dump a => a

/-! ## Nested models -/

/-- `ScheduleWindow.valid_window`, on minutes of the day. -/
def ScheduleWindow.Checked (w : ScheduleWindow) : Prop :=
  (1 ≤ w.weekday ∧ w.weekday ≤ 7) ∧ w.start < 1440 ∧ w.stop ≤ 1440 ∧ w.start ≠ w.stop ∧
    (w.stop ≠ 1440 → w.start ≤ w.stop)

/-- A validated `SurveillanceSchedule`; its time zone is known to the zone database. -/
structure CheckedSchedule extends Schedule where
  timezone_length : 1 ≤ timezone.length ∧ timezone.length ≤ 64
  weekly_length : weekly.length ≤ 64
  windows : ∀ w ∈ weekly, w.Checked
  exceptions_length : exceptions.length ≤ 366
  dates : (exceptions.map ScheduleException.date).Nodup
  deriving DecidableEq

/-- `ThresholdPolicy`, with `valid_thresholds`. -/
structure ThresholdPolicy where
  policyVersion : Text 1 64
  faceThreshold : Option (Between (-1) 1)
  bodyThreshold : Option (Between (-1) 1)
  minFaceQuality : Between 0 1
  minBodyQuality : Between 0 1
  faceWeight : Between 0 1
  bodyWeight : Between 0 1
  thresholds : ¬(faceThreshold = none ∧ bodyThreshold = none)
  weights : 0 < faceWeight.val + bodyWeight.val

/-- A validated `TaskBinding`. -/
abbrev CheckedBinding := {b : TaskBinding String //
  (2 ≤ b.bindingId.length ∧ b.bindingId.length ≤ 128) ∧
    (2 ≤ b.sourceId.length ∧ b.sourceId.length ≤ 128) ∧
    (1 ≤ b.cameraId.length ∧ b.cameraId.length ≤ 128) ∧
    ∀ message ∈ b.lastError, message.length ≤ 500}

/-! ## Records -/

/-- `WatchlistStatus`. -/
inductive WatchlistStatus where
  | active
  | paused
  | archived
  deriving DecidableEq

/-- `WatchlistMemberStatus`. -/
inductive MemberStatus where
  | active
  | paused
  | removed
  deriving DecidableEq

/-- `MatchPolicy`. -/
inductive MatchPolicy where
  | alertOnMatch
  | suppressOnMatch
  | observeOnly

/-- `AlertLevel`. -/
inductive AlertLevel where
  | critical
  | warning
  | info
  deriving DecidableEq

/-- `WatchlistMember`. -/
structure WatchlistMember where
  memberId : Text 2 128
  watchlistId : Text 2 128
  portraitIdentityId : Text 2 128
  status : MemberStatus
  displayLabel : Text 0 200
  validFrom : Option Moment
  validUntil : Option Moment
  createdAt : ℚ
  updatedAt : ℚ
  revision : Nat

/-- `SurveillanceTask`. -/
structure SurveillanceTask where
  taskId : Text 2 128
  name : Text 1 160
  status : TaskStatus
  watchlistIds : Listed 1 128 String
  bindings : Listed 1 512 (Nested CheckedBinding)
  schedule : Nested CheckedSchedule
  matchPolicy : MatchPolicy
  thresholdPolicy : Nested ThresholdPolicy
  cooldownSeconds : {n : Nat // 1 ≤ n ∧ n ≤ 86400}
  alertLevel : AlertLevel
  createdAt : ℚ
  updatedAt : ℚ
  revision : Nat

/-! ## Validation -/

/-- `valid_until <= valid_from`, both set. -/
def periodInverted (validFrom validUntil : Option Moment) : Bool :=
  validFrom.any fun t => validUntil.any fun u => u ≤ t

/-- `WatchlistMember.model_validate`, the errors it reports. -/
def WatchlistMember.validate (m : WatchlistMember) : Except (List String) WatchlistMember :=
  if periodInverted m.validFrom m.validUntil then
    .error ["member valid_until must be later than valid_from"]
  else .ok m

/-- The source and the camera. -/
def CheckedBinding.key (b : CheckedBinding) : String × String := (b.val.sourceId, b.val.cameraId)

/-- `unique_watchlists`. -/
def uniqueWatchlists (ids : List String) : List String :=
  if ids.dedup.length ≠ ids.length then ["task watchlist_ids must be unique"] else []

/-- `unique_bindings`. -/
def uniqueBindings (bindings : List CheckedBinding) : List String :=
  if (bindings.map fun b => b.val.bindingId).dedup.length ≠ bindings.length then
    ["task binding_ids must be unique"]
  else if (bindings.map CheckedBinding.key).dedup.length ≠ bindings.length then
    ["task source/camera bindings must be unique"]
  else []

/-- `SurveillanceTask.model_validate`, the errors it reports. -/
def SurveillanceTask.validate (t : SurveillanceTask) : Except (List String) SurveillanceTask :=
  let errors := uniqueWatchlists t.watchlistIds.val ++
    uniqueBindings (t.bindings.val.map Nested.value)
  if errors ≠ [] then .error errors
  else
    .ok { t with
      bindings := ⟨t.bindings.val.map Nested.validate, by
        rw [List.length_map]
        exact t.bindings.property⟩
      schedule := t.schedule.validate
      thresholdPolicy := t.thresholdPolicy.validate }

/-! ## Requests -/

/-- `CreateWatchlistMemberRequest`. -/
structure CreateMemberRequest where
  portraitIdentityId : Text 2 128
  displayLabel : Text 0 200
  validFrom : Option Moment
  validUntil : Option Moment

/-- `UpdateWatchlistMemberRequest`. -/
structure UpdateMemberRequest where
  expectedRevision : Nat
  status : Option MemberStatus
  displayLabel : Option (Text 0 200)
  validFrom : Option Moment
  validUntil : Option Moment

/-- `CreateSurveillanceTaskRequest`. -/
structure CreateTaskRequest where
  name : Text 1 160
  watchlistIds : Listed 1 128 String
  bindings : Listed 1 512 CheckedBinding
  schedule : CheckedSchedule
  matchPolicy : MatchPolicy
  thresholdPolicy : ThresholdPolicy
  cooldownSeconds : {n : Nat // 1 ≤ n ∧ n ≤ 86400}
  alertLevel : AlertLevel

/-- `UpdateSurveillanceTaskRequest`. -/
structure UpdateTaskRequest where
  expectedRevision : Nat
  name : Option (Text 1 160)
  watchlistIds : Option (Listed 1 128 String)
  bindings : Option (Listed 1 512 CheckedBinding)
  schedule : Option CheckedSchedule
  matchPolicy : Option MatchPolicy
  thresholdPolicy : Option ThresholdPolicy
  cooldownSeconds : Option {n : Nat // 1 ≤ n ∧ n ≤ 86400}
  alertLevel : Option AlertLevel

/-! ## The service -/

/-- What a call fails with. -/
inductive RecordError where
  | notFound (message : String)
  | conflict (message : String)
  | validation (errors : List String)
  | attributeError (message : String)
  deriving DecidableEq

/-- What else is stored at a call. -/
structure References where
  watchlist : String → Option WatchlistStatus
  identity : String → Bool
  source : String → Bool
  camera : String → Bool

/-- The stored members and tasks of one tenant and project, under their ids. -/
structure Records where
  members : Dict (Text 2 128) WatchlistMember
  tasks : Dict (Text 2 128) SurveillanceTask
  memberId_eq : ∀ id m, members.get? id = some m → m.memberId = id
  taskId_eq : ∀ id t, tasks.get? id = some t → t.taskId = id

/-- Nothing stored. -/
def Records.empty : Records where
  members := .empty
  tasks := .empty
  memberId_eq id m h := by
    simp [Dict.get?_empty] at h
  taskId_eq id t h := by
    simp [Dict.get?_empty] at h

/-- Store a member. -/
def Records.putMember (s : Records) (member : WatchlistMember) : Records :=
  { s with
    members := s.members.insert member.memberId member
    memberId_eq := by
      intro id m h
      rw [Dict.get?_insert] at h
      by_cases heq : id = member.memberId
      · rw [if_pos heq] at h
        cases h
        exact heq.symm
      · rw [if_neg heq] at h
        exact s.memberId_eq id m h }

/-- Store a task. -/
def Records.putTask (s : Records) (task : SurveillanceTask) : Records :=
  { s with
    tasks := s.tasks.insert task.taskId task
    taskId_eq := by
      intro id t h
      rw [Dict.get?_insert] at h
      by_cases heq : id = task.taskId
      · rw [if_pos heq] at h
        cases h
        exact heq.symm
      · rw [if_neg heq] at h
        exact s.taskId_eq id t h }

/-- The repository's `create_member`. -/
def Records.createMember (s : Records) (member : WatchlistMember) : Except RecordError Records :=
  if s.members.get? member.memberId ≠ none then .error (.conflict "watchlist member already exists")
  else if s.members.values.any fun item =>
      item.watchlistId = member.watchlistId ∧
        item.portraitIdentityId = member.portraitIdentityId then
    .error (.conflict "portrait identity is already a member of this watchlist")
  else .ok (s.putMember member)

/-- `save_member`. -/
def Records.saveMember (s : Records) (member : WatchlistMember) (expectedRevision : Nat) :
    Except RecordError Records :=
  match s.members.get? member.memberId with
  | none => .error (.conflict "watchlist member does not exist")
  | some current =>
    if current.revision ≠ expectedRevision then
      .error (.conflict "watchlist member revision conflict")
    else .ok (s.putMember { member with revision := expectedRevision + 1 })

/-- The repository's `create_task`. -/
def Records.createTask (s : Records) (task : SurveillanceTask) : Except RecordError Records :=
  if s.tasks.get? task.taskId ≠ none then .error (.conflict "surveillance task already exists")
  else .ok (s.putTask task)

/-- `save_task`. -/
def Records.saveTask (s : Records) (task : SurveillanceTask) (expectedRevision : Nat) :
    Except RecordError Records :=
  match s.tasks.get? task.taskId with
  | none => .error (.conflict "surveillance task does not exist")
  | some current =>
    if current.revision ≠ expectedRevision then
      .error (.conflict "surveillance task revision conflict")
    else .ok (s.putTask { task with revision := expectedRevision + 1 })

/-- A construction that raises `ValidationError`. -/
def validated {α : Type} (a : Except (List String) α) : Except RecordError α :=
  a.mapError RecordError.validation

/-- `create_member`; `memberId` is the drawn id. -/
def createMember (refs : References) (s : Records) (memberId watchlistId : Text 2 128)
    (request : CreateMemberRequest) (now : ℚ) : Except RecordError Records :=
  if refs.watchlist watchlistId.val = none then .error (.notFound "watchlist not found")
  else if !refs.identity request.portraitIdentityId.val then
    .error (.notFound "portrait identity not found")
  else do
    let member ← validated (WatchlistMember.validate
      { memberId := memberId
        watchlistId := watchlistId
        portraitIdentityId := request.portraitIdentityId
        status := .active
        displayLabel := request.displayLabel
        validFrom := request.validFrom
        validUntil := request.validUntil
        createdAt := now
        updatedAt := now
        revision := 1 })
    s.createMember member

/-- `current.model_copy(update={**updates, "updated_at": …})`. -/
def mergeMember (current : WatchlistMember) (request : UpdateMemberRequest) (now : ℚ) :
    WatchlistMember :=
  { current with
    status := request.status.getD current.status
    displayLabel := request.displayLabel.getD current.displayLabel
    validFrom := request.validFrom <|> current.validFrom
    validUntil := request.validUntil <|> current.validUntil
    updatedAt := now }

/-- `update_member`. -/
def updateMember (s : Records) (watchlistId memberId : Text 2 128) (request : UpdateMemberRequest)
    (now : ℚ) : Except RecordError Records :=
  match s.members.get? memberId with
  | none => .error (.notFound "watchlist member not found")
  | some current =>
    if current.watchlistId ≠ watchlistId then .error (.notFound "watchlist member not found")
    else s.saveMember (mergeMember current request now) request.expectedRevision

/-- The first loop of `_validate_task_references`. -/
def checkWatchlists (refs : References) : List String → Except RecordError Unit
  | [] => .ok ()
  | id :: rest =>
    match refs.watchlist id with
    | none | some .archived => .error (.notFound ("watchlist is unavailable: " ++ id))
    | some _ => checkWatchlists refs rest

/-- The second loop: a dictionary has no attribute `source_id`. -/
def checkBindings (refs : References) : List (Nested CheckedBinding) → Except RecordError Unit
  | [] => .ok ()
  | .dump _ :: _ => .error (.attributeError "'dict' object has no attribute 'source_id'")
  | .model b :: rest =>
    if !refs.source b.val.sourceId then
      .error (.notFound ("media source not found: " ++ b.val.sourceId))
    else if !refs.camera b.val.cameraId then .error (.notFound "camera not found")
    else checkBindings refs rest

/-- `_validate_task_references`. -/
def validateTaskReferences (refs : References) (watchlistIds : List String)
    (bindings : List (Nested CheckedBinding)) : Except RecordError Unit := do
  checkWatchlists refs watchlistIds
  checkBindings refs bindings

/-- The bindings of a request, as models or as `model_dump` writes them. -/
def nestBindings (nest : CheckedBinding → Nested CheckedBinding)
    (bindings : Listed 1 512 CheckedBinding) : Listed 1 512 (Nested CheckedBinding) :=
  ⟨bindings.val.map nest, by
    rw [List.length_map]
    exact bindings.property⟩

/-- `create_task`; `taskId` is the drawn id. -/
def createTask (refs : References) (s : Records) (taskId : Text 2 128) (request : CreateTaskRequest)
    (now : ℚ) : Except RecordError Records := do
  validateTaskReferences refs request.watchlistIds.val (nestBindings .model request.bindings).val
  let task ← validated (SurveillanceTask.validate
    { taskId := taskId
      name := request.name
      status := .draft
      watchlistIds := request.watchlistIds
      -- `**request.model_dump()`
      bindings := nestBindings .dump request.bindings
      schedule := .dump request.schedule
      matchPolicy := request.matchPolicy
      thresholdPolicy := .dump request.thresholdPolicy
      cooldownSeconds := request.cooldownSeconds
      alertLevel := request.alertLevel
      createdAt := now
      updatedAt := now
      revision := 1 })
  s.createTask task

/-- `current.model_copy(update={**updates, "updated_at": …})`. -/
def mergeTask (current : SurveillanceTask) (request : UpdateTaskRequest) (now : ℚ) :
    SurveillanceTask :=
  { current with
    name := request.name.getD current.name
    watchlistIds := request.watchlistIds.getD current.watchlistIds
    bindings := (request.bindings.map (nestBindings .dump)).getD current.bindings
    schedule := (request.schedule.map .dump).getD current.schedule
    matchPolicy := request.matchPolicy.getD current.matchPolicy
    thresholdPolicy := (request.thresholdPolicy.map .dump).getD current.thresholdPolicy
    cooldownSeconds := request.cooldownSeconds.getD current.cooldownSeconds
    alertLevel := request.alertLevel.getD current.alertLevel
    updatedAt := now }

/-- `update_task`. -/
def updateTask (refs : References) (s : Records) (taskId : Text 2 128) (request : UpdateTaskRequest)
    (now : ℚ) : Except RecordError Records :=
  match s.tasks.get? taskId with
  | none => .error (.notFound "surveillance task not found")
  | some current => do
    let updated := mergeTask current request now
    validateTaskReferences refs updated.watchlistIds.val updated.bindings.val
    s.saveTask updated request.expectedRevision

/-! ## Runs -/

/-- A call of the service. -/
inductive RecordCall where
  | createMember (refs : References) (memberId watchlistId : Text 2 128)
      (request : CreateMemberRequest) (now : ℚ)
  | updateMember (watchlistId memberId : Text 2 128) (request : UpdateMemberRequest) (now : ℚ)
  | createTask (refs : References) (taskId : Text 2 128) (request : CreateTaskRequest) (now : ℚ)
  | updateTask (refs : References) (taskId : Text 2 128) (request : UpdateTaskRequest) (now : ℚ)

/-- What a call returns. -/
def RecordCall.run (s : Records) : RecordCall → Except RecordError Records
  | .createMember refs memberId watchlistId request now =>
    Surveillance.createMember refs s memberId watchlistId request now
  | .updateMember watchlistId memberId request now =>
    Surveillance.updateMember s watchlistId memberId request now
  | .createTask refs taskId request now => Surveillance.createTask refs s taskId request now
  | .updateTask refs taskId request now => Surveillance.updateTask refs s taskId request now

/-- One call; one that raises leaves the records as they were. -/
def record (s : Records) (call : RecordCall) : Option Records :=
  match call.run s with
  | .ok s' => some s'
  | .error _ => some s

end Scenara.Surveillance
