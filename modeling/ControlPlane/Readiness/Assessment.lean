import ControlPlane.Readiness.DraftProof
import ControlPlane.Readiness.Layout

/-!
# The readiness assessment

One assessment puts together the verified draft, the facts of the pull request and the
settlement of review comments. It is captured as evidence, and the gate of a transition
compares what was captured with an assessment of its own.

## Main definitions

* `assess`
* `assessmentMatches`: the stored assessment is the current one.
* `readinessTransitionGates`
-/
namespace ControlPlane

/-! ### Review comments -/

inductive ReviewDisposition where
  | actionable | informational | ambiguous | conflicting | speculative | scopeExpanding
  deriving DecidableEq, Repr

/-- The validation of a stored classification by its schema; readiness reads the disposition
of a classification that is valid. -/
abbrev ClassificationReader := Json → Option ReviewDisposition

def reviewResolutionJobType : String := "review-resolution"
def reviewAssessmentEvidenceType : String := "review-resolution-assessment"
def reviewAssessmentOrigin : String := "control-plane:review-resolution"

def BackgroundJobStatus.isActive (status : BackgroundJobStatus) : Bool :=
  status = .queued || status = .running

/-- A review-resolution job of the task is queued or running. -/
def resolutionActive (db : Database) (taskId : UUID) : Bool :=
  db.backgroundJobs.rows.any fun job =>
    job.taskId = some taskId && job.jobType = reviewResolutionJobType && job.status.isActive

/-- The live assessments of review comments on a head. -/
def reviewAssessments (db : Database) (taskId : UUID) (head : String) : List EvidenceRecord :=
  db.evidenceRecords.select fun record =>
    record.taskId = some taskId && record.evidenceType = reviewAssessmentEvidenceType &&
    record.origin = reviewAssessmentOrigin && record.correctionOfId = none &&
    record.deletedAt = none &&
    (record.causationId.bind db.taskEvents.get?).any (fun e =>
      e.taskId = taskId && e.eventType = UpdateType.review.value &&
      sameText (e.payload.get "resource_type") (.str ResourceType.reviewComment.value) &&
      sameText (e.payload.get "head_sha") (.str head)) &&
    !corrected db record.id

/-- The comment an assessment settles: it is informational, and its identifier and its
fingerprint are those of its content. -/
def settledComment (rt : Runtime) (classify : ClassificationReader) (db : Database)
    (taskId : UUID) (head : String) (record : EvidenceRecord) : Option UUID :=
  match loadEvidence rt db record with
  | .error _ => none
  | .ok loaded =>
    let payload := loaded.content
    if payload.obj?.isSome && (payload.get "schema_version").pyEq (.int 1) &&
        (payload.get "task_id").pyEq (.str taskId.str) &&
        (payload.get "original_head_sha").pyEq (.str head) then do
      let rawEventId ← (payload.get "task_event_id").str?
      let fingerprint ← (payload.get "assessment_fingerprint").str?
      let eventId ← UUID.parse rt.unicode rawEventId
      let disposition ← classify (payload.get "classification")
      if record.id = rt.uuid5 s!"mathews:review-assessment:{eventId.str}:{fingerprint}" ∧
          fingerprint = rt.fingerprint (payload.without ["assessment_fingerprint"]) ∧
          disposition = .informational then
        some eventId
      else none
    else none

def repairsAuthorized (rt : Runtime) (classify : ClassificationReader) (db : Database)
    (taskId : UUID) (currentHead : Option String) (openReviewEventIds : List UUID) : Bool :=
  match currentHead with
  | none => false
  | some head =>
    !resolutionActive db taskId && openReviewEventIds.all fun id =>
      id ∈ (reviewAssessments db taskId head).filterMap (settledComment rt classify db taskId head)

/-! ### The assessment -/

structure ReadinessAssessment where
  taskId : UUID
  draftProofEvidenceId : Option UUID
  draftPr : Option DraftPrGateFacts
  github : GitHubFacts
  repairsAuthorized : Bool
  blockerCodes : List String

namespace ReadinessAssessment

def ready (a : ReadinessAssessment) : Bool := a.blockerCodes = [] && a.draftPr.isSome

def gateFacts (a : ReadinessAssessment) : Option ReadinessGateFacts :=
  if a.ready then
    a.draftPr.map fun draftPr =>
      { draftPr, requiredCiGreen := a.github.requiredCiGreen,
        noBlockingReview := a.github.noBlockingReview, repairsAuthorized := a.repairsAuthorized }
  else none

end ReadinessAssessment

/-- A code that applies. -/
def blocker (applies : Bool) (code : String) : List String := if applies then [code] else []

def blockerCodes (proofId : Option UUID) (draft : Option DraftPrGateFacts) (github : GitHubFacts)
    (repairs : Bool) : List String :=
  blocker (draft.isNone || proofId.isNone) "VERIFIED_DRAFT_PROOF_UNAVAILABLE" ++
  blocker (github.bindingEventId.isNone || github.headSha.isNone) "PULL_REQUEST_NOT_BOUND" ++
  blocker (draft.any fun d => github.headSha.any fun head => d.currentHeadSha ≠ head)
    "PULL_REQUEST_HEAD_CHANGED" ++
  (if github.pullRequestStateKnown then
    blocker (!github.currentPullRequestIsDraft) "PULL_REQUEST_NOT_DRAFT"
  else ["PULL_REQUEST_STATE_UNKNOWN"]) ++
  blocker (!github.requiredCiGreen) "REQUIRED_CI_NOT_GREEN" ++
  blocker (!github.noBlockingReview) "BLOCKING_REVIEW_PRESENT" ++
  blocker (!repairs) "REVIEW_REPAIRS_NOT_SETTLED"

def assess (rt : Runtime) (classify : ClassificationReader) (db : Database) (task : Task) :
    ReadinessAssessment :=
  let draft := draftPrFacts rt db task
  let github := githubFacts rt (assessedEvents db task.id)
  let repairs :=
    repairsAuthorized rt classify db task.id github.headSha github.openReviewEventIds
  { taskId := task.id, draftProofEvidenceId := draft.1, draftPr := draft.2, github,
    repairsAuthorized := repairs
    blockerCodes := blockerCodes draft.1 draft.2 github repairs }

/-! ### What is captured -/

def optionalText : Option String → Json
  | none => .null
  | some s => .str s

def optionalInt : Option ℤ → Json
  | none => .null
  | some n => .int n

/-- The fields of an assessment as they are captured. -/
def ReadinessAssessment.fields (a : ReadinessAssessment) (triggerEventId : UUID) :
    List (String × Json) :=
  [("schema_version", .int 1),
    ("task_id", .str a.taskId.str),
    ("trigger_event_id", .str triggerEventId.str),
    ("draft_proof_evidence_id", optionalId a.draftProofEvidenceId),
    ("verified_head_sha", optionalText (a.draftPr.map DraftPrGateFacts.currentHeadSha)),
    ("binding_event_id", optionalId a.github.bindingEventId),
    ("pull_request_number", optionalInt a.github.pullRequestNumber),
    ("branch_name", optionalText a.github.branchName),
    ("current_head_sha", optionalText a.github.headSha),
    ("required_checks", texts a.github.requiredChecks),
    ("check_states", .arr (a.github.checkStates.map fun c => .arr [.str c.1, .str c.2])),
    ("required_ci_green", .bool a.github.requiredCiGreen),
    ("blocking_reviews", .int a.github.blockingReviews),
    ("open_review_threads", .int a.github.openThreads),
    ("no_blocking_review", .bool a.github.noBlockingReview),
    ("pull_request_state_known", .bool a.github.pullRequestStateKnown),
    ("current_pull_request_is_draft", .bool a.github.currentPullRequestIsDraft),
    ("repairs_authorized", .bool a.repairsAuthorized),
    ("blocker_codes", texts a.blockerCodes),
    ("ready_for_human_merge", .bool a.ready),
    ("merge_available_to_automation", .bool false)]

def assessmentPayload (a : ReadinessAssessment) (triggerEventId : UUID) : Json :=
  .obj (a.fields triggerEventId)

/-- The payload with its fingerprint, as it is captured. -/
def signedPayload (rt : Runtime) (a : ReadinessAssessment) (triggerEventId : UUID) : Json :=
  .obj (a.fields triggerEventId ++
    [("assessment_fingerprint", .str (rt.fingerprint (assessmentPayload a triggerEventId)))])

/-- A stored assessment is the current one. -/
def assessmentMatches (rt : Runtime) (payload : Json) (a : ReadinessAssessment) : Bool :=
  payload.obj?.isSome &&
  match payload.get "trigger_event_id", payload.get "assessment_fingerprint" with
  | .str trigger, .str fingerprint =>
    match UUID.parse rt.unicode trigger with
    | some triggerEventId =>
      isSha256 fingerprint && payload.pyEq (signedPayload rt a triggerEventId)
    | none => false
  | _, _ => false

/-! ### The gates -/

def handoffAcknowledgement : String :=
  "I acknowledge that automation is complete and that merge, deployment, " ++
  "delivery, and release remain human responsibilities."

/-- The content of a record of the task, if it loads. -/
def contentOf (rt : Runtime) (db : Database) (taskId : UUID) (evidenceId : Option UUID) :
    Option Json := do
  let record ← evidenceId.bind db.evidenceRecords.get?
  if record.taskId = some taskId then
    match loadEvidence rt db record with
    | .ok loaded => some loaded.content
    | .error _ => none
  else none

/-- An acknowledgement of the current head by the owner of the task. -/
def acknowledges (task : Task) (facts : ReadinessGateFacts) (payload : Json) : Bool :=
  payload.obj?.isSome &&
  (payload.get "schema_version").pyEq (.int 1) &&
  (payload.get "task_id").pyEq (.str task.id.str) &&
  (payload.get "head_sha").pyEq (.str facts.draftPr.currentHeadSha) &&
  (payload.get "acknowledgement").pyEq (.str handoffAcknowledgement) &&
  (payload.get "meaning").pyEq (.str handoffMeaning) &&
  (payload.get "actor_id").pyEq (.str task.ownerId)

def readinessTransitionGates (rt : Runtime) (classify : ClassificationReader)
    (assessmentId acknowledgementId : Option UUID) : TaskTransitionGateEvaluator :=
  fun db task kind _ _ =>
    let current := assess rt classify db task
    match kind with
    | .markMergeReady =>
      match contentOf rt db task.id assessmentId with
      | some payload =>
        .ok (if assessmentMatches rt payload current then { readiness := current.gateFacts } else {})
      | none => .ok {}
    | .invalidateReadiness =>
      match contentOf rt db task.id assessmentId with
      | some payload =>
        .ok (if assessmentMatches rt payload current then
          { readinessInvalidationCurrent := !current.ready } else {})
      | none => .ok {}
    | .acknowledgeHandoff =>
      match contentOf rt db task.id acknowledgementId with
      | some payload =>
        let valid := current.gateFacts.any fun facts => acknowledges task facts payload
        .ok { readiness := if valid then current.gateFacts else none
              humanHandoffAcknowledged := valid }
      | none => .ok {}
    | _ => .ok {}

end ControlPlane
