import Scenara.Core.Json
import Scenara.Core.Transition
import Scenara.Release.Model

/-!
# Feedback and its training exports

Model of `FeedbackService.create`, `review` and `create_manifest` and of the calls of
`MemoryFeedbackRepository` they make (`platform/feedback.py`), for any number of calls at a time.

* One step is one call of the repository; between two a call keeps what it has read (`Call`). The
  audit records and the policy, which come between, change nothing of this.
* What `_verified_trace` reads from the run and its result is given (`Trace`).
* `lower` is `str.lower`, and `sha256` the digest of a manifest's payload: parameters.
-/

namespace Scenara.Feedback

open Scenara.Core
open Release (Scope FeedbackError)

/-! ## Records -/

/-- `FeedbackKind`. -/
inductive FeedbackKind where
  | falsePositive
  | falseNegative
  | wrongAttribute
  | wrongIdentity
  | ocrCorrection
  | actionCorrection
  | temporalCorrection
  | styleCorrection
  | characterCorrection
  | accessoryCorrection
  deriving DecidableEq

/-- `FeedbackKind.value`. -/
def FeedbackKind.value : FeedbackKind → String
  | .falsePositive => "false_positive"
  | .falseNegative => "false_negative"
  | .wrongAttribute => "wrong_attribute"
  | .wrongIdentity => "wrong_identity"
  | .ocrCorrection => "ocr_correction"
  | .actionCorrection => "action_correction"
  | .temporalCorrection => "temporal_correction"
  | .styleCorrection => "style_correction"
  | .characterCorrection => "character_correction"
  | .accessoryCorrection => "accessory_correction"

/-- `FeedbackStatus`. -/
inductive FeedbackStatus where
  | pending
  | approved
  | rejected
  deriving DecidableEq

/-- `(tenant_id, project_id, id)`. -/
structure Key where
  scope : Scope
  id : String
  deriving DecidableEq

/-- What `_verified_trace` returns. -/
structure Trace where
  resultRef : String
  mediaRef : String
  pipelineId : String
  pipelineVersion : String
  domain : String

/-- `CreateFeedbackRequest`. -/
structure CreateFeedbackRequest where
  kind : FeedbackKind
  runId : String
  modelId : String
  modelVersion : String
  correction : Json
  annotationSchemaId : Option String
  authorizedForTraining : Bool
  deidentified : Bool

/-- `ReviewFeedbackRequest`; its validator refuses a review that is still pending. -/
structure ReviewFeedbackRequest where
  status : FeedbackStatus
  notes : String
  finalStatus : status ≠ .pending

/-- `FeedbackRecord`. -/
structure FeedbackRecord where
  key : Key
  kind : FeedbackKind
  runId : String
  resultRef : String
  mediaRef : String
  pipelineId : String
  pipelineVersion : String
  modelId : String
  modelVersion : String
  correction : Json
  annotationSchemaId : Option String
  authorizedForTraining : Bool
  deidentified : Bool
  status : FeedbackStatus
  submittedBy : String
  reviewedBy : Option String
  reviewNotes : String
  createdAt : ℚ
  updatedAt : ℚ
  domain : Option String

/-- `CreateHardSampleManifestRequest`. -/
structure CreateManifestRequest where
  datasetId : String
  version : String
  labelSchema : String
  split : String
  feedbackIds : List String

/-- `HardSampleItem`. -/
structure HardSampleItem where
  feedbackId : String
  kind : FeedbackKind
  mediaRef : String
  resultRef : String
  modelId : String
  modelVersion : String
  pipelineId : String
  pipelineVersion : String
  correction : Json
  authorizedForTraining : Bool
  deidentified : Bool
  domain : Option String
  annotationSchemaId : Option String

/-- `HardSampleManifest`. -/
structure HardSampleManifest where
  key : Key
  datasetId : String
  version : String
  labelSchema : String
  split : String
  items : List HardSampleItem
  sha256 : String
  createdBy : String
  createdAt : ℚ

/-! ## Tables -/

/-- `SENSITIVE_CORRECTION_KEYS`. -/
def sensitiveCorrectionKeys : List String :=
  ["base64", "bytes", "crop", "embedding", "embeddings", "image_bytes", "raw_media"]

/-- `ANNOTATION_SCHEMA_BY_DOMAIN.get`. -/
def annotationSchemaByDomain : String → Option String
  | "portrait" => some "scenara.portrait.detection.v1"
  | "ocr" => some "scenara.ocr.document.v1"
  | "behavior" => some "scenara.behavior.action.v1"
  | "fashion" => some "scenara.fashion.style.v1"
  | _ => none

/-- `FEEDBACK_KIND_DOMAINS.get`. -/
def feedbackKindDomains : FeedbackKind → Option (List String)
  | .wrongIdentity => some ["portrait"]
  | .ocrCorrection => some ["ocr"]
  | .actionCorrection | .temporalCorrection => some ["behavior"]
  | .styleCorrection | .characterCorrection | .accessoryCorrection => some ["fashion"]
  | .falsePositive | .falseNegative | .wrongAttribute => none

/-- `str(key).lower() in SENSITIVE_CORRECTION_KEYS`. -/
def sensitiveKey (lower : String → String) (key : String) : Bool :=
  lower key ∈ sensitiveCorrectionKeys

/-- `contains_sensitive_correction`. -/
def containsSensitiveCorrection (lower : String → String) (correction : Json) : Bool :=
  correction.anyKey (sensitiveKey lower)

/-! ## The repository -/

/-- `MemoryFeedbackRepository`, without the releases; every feedback is stored under its own key. -/
structure Repository where
  feedback : Dict Key FeedbackRecord
  manifests : Dict Key HardSampleManifest
  keyed : ∀ {k r}, feedback.get? k = some r → r.key = k

namespace Repository

/-- Nothing stored. -/
def empty : Repository where
  feedback := .empty
  manifests := .empty
  keyed := by simp

/-- `self._feedback[key] = record`. -/
def put (repo : Repository) (record : FeedbackRecord) : Repository :=
  { repo with
    feedback := repo.feedback.insert record.key record
    keyed := by
      intro k r h
      rw [Dict.get?_insert] at h
      split at h
      · rename_i hk
        rw [hk, ← Option.some.inj h]
      · exact repo.keyed h }

/-- `create_feedback`. -/
def createFeedback (repo : Repository) (record : FeedbackRecord) :
    Except FeedbackError Repository :=
  if (repo.feedback.get? record.key).isSome then .error (.conflict "feedback already exists")
  else .ok (repo.put record)

/-- `get_feedback`. -/
def getFeedback (repo : Repository) (scope : Scope) (feedbackId : String) : Option FeedbackRecord :=
  repo.feedback.get? ⟨scope, feedbackId⟩

/-- `save_feedback`. -/
def saveFeedback (repo : Repository) (record : FeedbackRecord) (expected : FeedbackStatus) :
    Except FeedbackError Repository :=
  match repo.feedback.get? record.key with
  | none => .error (.notFound "feedback not found")
  | some current =>
    if current.status ≠ expected then .error (.conflict "feedback status changed concurrently")
    else .ok (repo.put record)

/-- `create_manifest`. -/
def createManifest (repo : Repository) (manifest : HardSampleManifest) :
    Except FeedbackError Repository :=
  if repo.manifests.entries.any fun e => e.1.scope = manifest.key.scope &&
      (e.2.datasetId = manifest.datasetId && e.2.version = manifest.version) then
    .error (.conflict "hard-sample manifest version already exists")
  else .ok { repo with manifests := repo.manifests.insert manifest.key manifest }

end Repository

/-! ## One call -/

/-- The principal of a call. -/
structure Principal where
  scope : Scope
  principalId : String

/-- The calls, each with the id it draws. -/
inductive Request where
  | create (feedbackId : String) (trace : Trace) (body : CreateFeedbackRequest)
  | review (feedbackId : String) (body : ReviewFeedbackRequest)
  | createManifest (manifestId : String) (body : CreateManifestRequest)

/-- A call, at its next call of the repository. -/
inductive Call where
  | creating (record : FeedbackRecord)
  /-- About to `get_feedback` of the feedback to review. -/
  | reviewing (principal : Principal) (feedbackId : String) (body : ReviewFeedbackRequest)
  | saving (updated : FeedbackRecord)
  /-- In the loop of `create_manifest`, about to `get_feedback` of the next id, or after it. -/
  | exporting (principal : Principal) (manifestId : String) (body : CreateManifestRequest)
      (remaining : List String) (items : List HardSampleItem)
  | returned
  | raised (error : FeedbackError)

/-- The `FeedbackRecord` of `create`. -/
def newFeedback (principal : Principal) (feedbackId : String) (trace : Trace)
    (body : CreateFeedbackRequest) (now : ℚ) : FeedbackRecord where
  key := ⟨principal.scope, feedbackId⟩
  kind := body.kind
  runId := body.runId
  resultRef := trace.resultRef
  mediaRef := trace.mediaRef
  pipelineId := trace.pipelineId
  pipelineVersion := trace.pipelineVersion
  modelId := body.modelId
  modelVersion := body.modelVersion
  correction := body.correction
  annotationSchemaId := body.annotationSchemaId <|> annotationSchemaByDomain trace.domain
  authorizedForTraining := body.authorizedForTraining
  deidentified := body.deidentified
  status := .pending
  submittedBy := principal.principalId
  reviewedBy := none
  reviewNotes := ""
  createdAt := now
  updatedAt := now
  domain := some trace.domain

/-- The `HardSampleItem` of a record. -/
def itemOf (record : FeedbackRecord) : HardSampleItem where
  feedbackId := record.key.id
  kind := record.kind
  mediaRef := record.mediaRef
  resultRef := record.resultRef
  modelId := record.modelId
  modelVersion := record.modelVersion
  pipelineId := record.pipelineId
  pipelineVersion := record.pipelineVersion
  correction := record.correction
  authorizedForTraining := true
  deidentified := true
  domain := record.domain
  annotationSchemaId := record.annotationSchemaId

section Service

variable (lower : String → String) (sha256 : CreateManifestRequest → List HardSampleItem → String)

/-- `review`, between its two calls. -/
def reviewed (principal : Principal) (body : ReviewFeedbackRequest) (record : FeedbackRecord)
    (now : ℚ) : Except FeedbackError FeedbackRecord :=
  if record.status ≠ .pending then .error (.conflict "feedback has already been reviewed")
  else if body.status = .approved ∧ ¬(record.authorizedForTraining ∧ record.deidentified) then
    .error (.conflict "approved training feedback must be authorized and deidentified")
  else if body.status = .approved ∧ containsSensitiveCorrection lower record.correction then
    .error (.conflict "approved training feedback cannot contain raw media or biometric payloads")
  else
    .ok { record with
      status := body.status
      reviewedBy := some principal.principalId
      reviewNotes := body.notes
      updatedAt := now }

/-- One turn of the loop of `create_manifest`. -/
def exported (feedbackId : String) (record : Option FeedbackRecord) :
    Except FeedbackError HardSampleItem :=
  match record with
  | none => .error (.notFound ("feedback not found: " ++ feedbackId))
  | some record =>
    if record.status ≠ .approved ∨ ¬(record.authorizedForTraining ∧ record.deidentified) then
      .error (.conflict
        "hard-sample manifest accepts only approved, authorized, deidentified feedback")
    else .ok (itemOf record)

/-- The domains that are not null. -/
def domainsOf (items : List HardSampleItem) : List String :=
  (items.filterMap HardSampleItem.domain).dedup

/-- `create_manifest`, after its loop. -/
def newManifest (principal : Principal) (manifestId : String) (body : CreateManifestRequest)
    (items : List HardSampleItem) (now : ℚ) : Except FeedbackError HardSampleManifest :=
  if 1 < (domainsOf items).length then
    .error (.conflict "a hard-sample manifest cannot mix multiple domains")
  else
    .ok {
      key := ⟨principal.scope, manifestId⟩
      datasetId := body.datasetId
      version := body.version
      labelSchema := body.labelSchema
      split := body.split
      items := items
      sha256 := sha256 body items
      createdBy := principal.principalId
      createdAt := now }

/-- A call, up to its first call of the repository. -/
def begin (principal : Principal) (now : ℚ) : Request → Call
  | .create feedbackId trace body =>
    if (feedbackKindDomains body.kind).all fun domains => trace.domain ∈ domains then
      .creating (newFeedback principal feedbackId trace body now)
    else
      .raised (.conflict
        (body.kind.value ++ " feedback is not valid for domain " ++ trace.domain))
  | .review feedbackId body => .reviewing principal feedbackId body
  | .createManifest manifestId body =>
    if body.feedbackIds.Nodup then .exporting principal manifestId body body.feedbackIds []
    else .raised (.conflict "feedback_ids must be unique")

/-- The next call of the repository that the call makes, and what it does up to the one after. -/
def stepCall (now : ℚ) (repo : Repository) : Call → Option (Repository × Call)
  | .creating record =>
    match repo.createFeedback record with
    | .ok repo' => some (repo', .returned)
    | .error e => some (repo, .raised e)
  | .reviewing principal feedbackId body =>
    match repo.getFeedback principal.scope feedbackId with
    | none => some (repo, .raised (.notFound "feedback not found"))
    | some record =>
      match reviewed lower principal body record now with
      | .ok updated => some (repo, .saving updated)
      | .error e => some (repo, .raised e)
  | .saving updated =>
    match repo.saveFeedback updated .pending with
    | .ok repo' => some (repo', .returned)
    | .error e => some (repo, .raised e)
  | .exporting principal manifestId body (feedbackId :: remaining) items =>
    match exported feedbackId (repo.getFeedback principal.scope feedbackId) with
    | .ok item => some (repo, .exporting principal manifestId body remaining (items ++ [item]))
    | .error e => some (repo, .raised e)
  | .exporting principal manifestId body [] items =>
    match newManifest sha256 principal manifestId body items now with
    | .error e => some (repo, .raised e)
    | .ok manifest =>
      match repo.createManifest manifest with
      | .ok repo' => some (repo', .returned)
      | .error e => some (repo, .raised e)
  | .returned | .raised _ => none

/-! ## The system -/

/-- The repository and the calls that were made. -/
structure System where
  repo : Repository
  calls : List Call

/-- Nothing stored, no call. -/
def System.empty : System := ⟨.empty, []⟩

/-- One step. -/
inductive Act where
  | start (principal : Principal) (request : Request) (now : ℚ)
  | advance (i : Nat) (now : ℚ)

/-- One step. -/
def step (s : System) : Act → Option System
  | .start principal request now =>
    some { s with calls := s.calls ++ [begin principal now request] }
  | .advance i now => do
    let call ← s.calls[i]?
    let (repo, call') ← stepCall lower sha256 now s.repo call
    return ⟨repo, s.calls.set i call'⟩

end Service

end Scenara.Feedback
