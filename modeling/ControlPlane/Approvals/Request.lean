import ControlPlane.Task.StateMachine

/-!
# Approval requests

What an approval request captures, and how it is compared with the task when a decision
comes: the stored columns are read back, the fingerprints computed anew, and the rows the
request is about looked up again. Times a retry was recorded at are read with an offset,
as the service prints them.

## Main definitions

* `durablePreconditionsAreCurrent`
* `PreconditionsCurrent`: what it means that they are.
-/
namespace ControlPlane
open Regex Re CharClass

/-- Errors of the approval service; `internal` is one that it does not translate. -/
inductive ApprovalError where
  | invalid (message : String)
  | notFound (message : String)
  | conflict (message : String)
  | precondition (message : String)
  | recentPasswordRequired (message : String)
  | internal (message : String)
  deriving DecidableEq, Repr

inductive ApprovalRequestType where
  | brief | unsafeAction | retryLimit | reviewConflict | reviewRule
  deriving DecidableEq, Repr

def ApprovalRequestType.value : ApprovalRequestType → String
  | brief => "BRIEF"
  | unsafeAction => "UNSAFE_ACTION"
  | retryLimit => "RETRY_LIMIT"
  | reviewConflict => "REVIEW_CONFLICT"
  | reviewRule => "REVIEW_RULE"

/-- The decisions each kind of request offers. -/
def requestOptions : ApprovalRequestType → List ApprovalDecision
  | .brief => [.approve, .requestRevision, .cancel]
  | .unsafeAction => [.approve, .deny, .cancel]
  | .retryLimit => [.retry, .abandon, .cancel]
  | .reviewConflict => [.approve, .deny, .cancel]
  | .reviewRule => [.approve, .reject, .cancel]

/-- Whether a decision acts on what was captured. -/
def ApprovalDecision.preconditioned : ApprovalDecision → Bool
  | approve | retry | reject | requestRevision => true
  | _ => false

/-! ### Texts -/

def requiredApprovalIdentifier (rt : Runtime) (value : String) (field : String)
    (maximum : ℕ := 255) : Except ApprovalError String := do
  let normalized := rt.unicode.strip value.toList
  Except.require (normalized ≠ [] ∧ normalized.length ≤ maximum ∧
      actorIdentifier.fullmatch (CharClass.holds rt.unicode) normalized ∧
      occursIn "://".toList normalized = false ∧ occursIn "//".toList normalized = false ∧
      occursIn "..".toList normalized = false ∧ "/".toList.isPrefixOf normalized = false)
    (.invalid (field ++ " is invalid"))
  return String.ofList normalized

def requiredApprovalReason (rt : Runtime) (value : String) : Except ApprovalError String := do
  let normalized := rt.unicode.upper (rt.unicode.strip value.toList)
  Except.require (reasonCode.fullmatch (CharClass.holds rt.unicode) normalized)
    (.invalid "approval reason code is invalid")
  return String.ofList normalized

/-- Dotted lower-case words, two to five of them. -/
def dottedName : Pattern :=
  let rest := star (cls (.union (.union lowerLetter decimal) (oneOf "_")))
  seq (cls lowerLetter)
    (seq rest (many true 1 (some 4) (seqs [lit ".", cls lowerLetter, rest])))

def hexDigest : Pattern := exactly 64 (cls (.union decimal (.range 'a' 'f')))

/-- References to evidence as a column keeps them: some, at most a hundred, all different. -/
def evidenceIdsOf (rt : Runtime) (texts : List String) (refused : ApprovalError) :
    Except ApprovalError (List UUID) := do
  let ids ← texts.mapM fun text => Except.orThrow (UUID.parse rt.unicode text) refused
  Except.require (ids ≠ [] ∧ ids.length ≤ 100 ∧ ids.Nodup) refused
  return ids

def storedEvidenceIds (rt : Runtime) (request : ApprovalRequest) :
    Except ApprovalError (List UUID) :=
  evidenceIdsOf rt request.supportingEvidenceIds
    (.conflict "stored approval evidence references are invalid")

/-! ### The blocked operation and the retry history -/

/-- Non-secret identity of the exact operation waiting for a decision. -/
structure BlockedOperation where
  operationName : String
  idempotencyKey : String
  inputFingerprint : String
  checkpointEvidenceId : Option UUID

def BlockedOperation.toDict (b : BlockedOperation) : Json :=
  .obj
    [("checkpoint_evidence_id", optionalId b.checkpointEvidenceId),
      ("idempotency_key", .str b.idempotencyKey),
      ("input_fingerprint", .str b.inputFingerprint),
      ("operation_name", .str b.operationName)]

/-- A checkpoint as a column keeps it. -/
def checkpointOf (rt : Runtime) (value : Json) (refused : ApprovalError) :
    Except ApprovalError (Option UUID) :=
  match value with
  | .null => .ok none
  | .str text => (Except.orThrow (UUID.parse rt.unicode text) refused).map some
  | _ => .error (.internal "checkpoint is not a text")

def BlockedOperation.fromDict (rt : Runtime) (value : Json) :
    Except ApprovalError BlockedOperation := do
  let refused : ApprovalError := .conflict "stored blocked operation is invalid"
  Except.require (value.hasKeys ["checkpoint_evidence_id", "idempotency_key", "input_fingerprint",
    "operation_name"] = true) refused
  let checkpoint ← checkpointOf rt (value.get "checkpoint_evidence_id") refused
  let name ← Except.orThrow (value.get "operation_name").str? refused
  let key ← Except.orThrow (value.get "idempotency_key").str? refused
  let fingerprint ← Except.orThrow (value.get "input_fingerprint").str? refused
  Except.require (dottedName.fullmatch (CharClass.holds rt.unicode) name.toList ∧
      key ≠ "" ∧ key.length ≤ 255 ∧
      actorIdentifier.fullmatch (CharClass.holds rt.unicode) key.toList ∧
      hexDigest.fullmatch (CharClass.holds rt.unicode) fingerprint.toList) refused
  return ⟨name, key, fingerprint, checkpoint⟩

/-- Bounded safe retry history captured with an escalation. -/
structure ApprovalRetryAttempt where
  attempt : ℤ
  errorCode : String
  occurredAt : Calendar.Instant
  checkpointEvidenceId : Option UUID

def ApprovalRetryAttempt.toDict (a : ApprovalRetryAttempt) : Json :=
  .obj
    [("attempt", .int a.attempt),
      ("checkpoint_evidence_id", optionalId a.checkpointEvidenceId),
      ("error_code", .str a.errorCode),
      ("occurred_at", .str (Calendar.isoTimestamp a.occurredAt.val))]

def ApprovalRetryAttempt.fromDict (rt : Runtime) (value : Json) :
    Except ApprovalError ApprovalRetryAttempt := do
  let refused : ApprovalError := .conflict "stored retry history is invalid"
  Except.require (value.hasKeys ["attempt", "checkpoint_evidence_id", "error_code",
    "occurred_at"] = true) refused
  let checkpoint ← checkpointOf rt (value.get "checkpoint_evidence_id") refused
  let attempt ← Except.orThrow (value.get "attempt").int? refused
  let code ← Except.orThrow (value.get "error_code").str? refused
  let text ← Except.orThrow (value.get "occurred_at").str? refused
  let occurredAt ← match rt.fromIsoformat text with
    | .aware t => .ok t
    | .outOfRange => .error (.internal "retry time leaves the calendar")
    | _ => .error refused
  Except.require (1 ≤ attempt ∧ attempt ≤ 100 ∧
      reasonCode.fullmatch (CharClass.holds rt.unicode) code.toList) refused
  return ⟨attempt, code, occurredAt, checkpoint⟩

def storedBlockedOperation (rt : Runtime) (request : ApprovalRequest) :
    Except ApprovalError (Option BlockedOperation) :=
  match request.blockedOperation with
  | none => .ok none
  | some value => (BlockedOperation.fromDict rt value).map some

def storedRetryHistory (rt : Runtime) (request : ApprovalRequest) :
    Except ApprovalError (List ApprovalRetryAttempt) := do
  let values ← request.retryHistory.mapM (ApprovalRetryAttempt.fromDict rt)
  Except.require (values.length ≤ 100 ∧ (values.map (·.attempt)).Pairwise (· < ·))
    (.conflict "stored retry history is invalid")
  return values

/-! ### What a request is about -/

/-- The columns of a request that say what it is about, read back. -/
structure RequestShape where
  type : ApprovalRequestType
  blockedOperation : Option BlockedOperation
  retryHistory : List ApprovalRetryAttempt
  subjectType : String
  subjectId : Option UUID

def requestTypeOf (request : ApprovalRequest) : Except ApprovalError ApprovalRequestType :=
  Except.orThrow
    ([.brief, .unsafeAction, .retryLimit, .reviewConflict, .reviewRule].find?
      fun type : ApprovalRequestType => type.value = request.requestType)
    (.conflict "stored approval request type is invalid")

/-- Every kind of request has its own subject. -/
def validateRequestShape (type : ApprovalRequestType) (subjectType : Option String)
    (subjectId : Option UUID) (blocked : Option BlockedOperation)
    (history : List ApprovalRetryAttempt) : Except ApprovalError (String × Option UUID) := do
  Except.require (type = .retryLimit → history ≠ [])
    (.invalid "retry-limit approval requires retry history")
  Except.require (type ≠ .retryLimit → history = [])
    (.invalid "retry history is only valid for a retry-limit approval")
  if type = .brief then
    Except.require (subjectType = some "BRIEF" ∧ subjectId.isSome ∧ blocked.isNone)
      (.invalid "brief approval subject is invalid")
    return ("BRIEF", subjectId)
  else do
    Except.require (blocked.isSome = true)
      (.invalid "resumable approval requires a blocked operation")
    if type = .reviewRule then
      Except.require (subjectType = some "RULE_CANDIDATE" ∧ subjectId.isSome)
        (.invalid "review-rule approval subject is invalid")
      return ("RULE_CANDIDATE", subjectId)
    else
      Except.require (subjectType = some "BLOCKED_OPERATION" ∧ subjectId = none)
        (.invalid "approval subject is invalid")
      return ("BLOCKED_OPERATION", none)

def requestShape (rt : Runtime) (request : ApprovalRequest) :
    Except ApprovalError RequestShape := do
  let type ← requestTypeOf request
  let blocked ← storedBlockedOperation rt request
  let history ← storedRetryHistory rt request
  let (subjectType, subjectId) ←
    validateRequestShape type request.subjectType request.subjectId blocked history
  return ⟨type, blocked, history, subjectType, subjectId⟩

/-! ### Fingerprints -/

def preconditionIdentity (taskId : UUID) (request : ApprovalRequest) (shape : RequestShape)
    (subjectFingerprint : Option String) : Json :=
  .obj <|
    [("blocked_operation", (shape.blockedOperation.map BlockedOperation.toDict).getD .null),
      ("request_type", .str shape.type.value),
      ("requesting_state", .str request.requestingState.value),
      ("resume_state", (request.resumeState.map fun s => Json.str s.value).getD .null),
      ("retry_history", .arr (shape.retryHistory.map ApprovalRetryAttempt.toDict)),
      ("subject_id", optionalId shape.subjectId),
      ("subject_type", .str shape.subjectType),
      ("task_id", .str taskId.str)] ++
    match subjectFingerprint with
    | some fingerprint => [("subject_fingerprint", .str fingerprint)]
    | none => []

def requestFingerprint (rt : Runtime) (preconditionFingerprint reason : String)
    (options : List ApprovalDecision) (evidenceIds : List UUID) (expiresAt : Time) : String :=
  rt.fingerprint <| .obj
    [("evidence_ids", .arr (evidenceIds.map fun id => .str id.str)),
      ("expires_at", .str (Calendar.isoTimestamp expiresAt)),
      ("options", .arr (options.map fun option => .str option.value)),
      ("precondition_fingerprint", .str preconditionFingerprint),
      ("reason_code", .str reason)]

/-! ### Subjects -/

mutual
/-- Values shown in the inbox are bounded in depth and width. -/
def validInboxJson (depth : ℕ) : Json → Bool
  | .arr items => depth ≤ 10 && items.length ≤ 100 && validInboxItems (depth + 1) items
  | .obj fields =>
    depth ≤ 10 && fields ≠ [] && fields.length ≤ 100 && validInboxFields (depth + 1) fields
  | _ => depth ≤ 10

def validInboxItems (depth : ℕ) : List Json → Bool
  | [] => true
  | item :: items => validInboxJson depth item && validInboxItems depth items

def validInboxFields (depth : ℕ) : List (String × Json) → Bool
  | [] => true
  | (key, value) :: fields =>
    key ≠ "" && key.length ≤ 255 && validInboxJson depth value && validInboxFields depth fields
end

/-- A brief whose fingerprint can be computed. -/
def Brief.fingerprints (brief : Brief) : Bool :=
  [brief.scope, brief.exclusions, brief.acceptanceCriteria, brief.risks, brief.affectedFlow,
    brief.testPlan].all (validInboxJson 0)

/-- The rule an evaluated candidate proposes. -/
structure EvaluatedReviewRule where
  lineageKey : String
  scope : Json
  matcher : Json
  permittedAction : String
  riskClass : String
  evidenceRequirements : List String

def invalidCandidate : ApprovalError := .conflict "evaluated rule candidate is invalid"

/-- Texts of a bounded list, none of them blank, stripped. -/
def stringList (rt : Runtime) (value : Json) (maximum longest : ℕ) (refused : ApprovalError) :
    Except ApprovalError (List String) := do
  let items ← Except.orThrow value.arr? refused
  let texts ← items.mapM fun item => Except.orThrow item.str? refused
  Except.require (texts.length ≤ maximum ∧ ∀ text ∈ texts,
    rt.unicode.strip text.toList ≠ [] ∧ text.length ≤ longest) refused
  return texts.map fun text => String.ofList (rt.unicode.strip text.toList)

/-- An identifier of a rule; what is no text is not even stripped. -/
def ruleIdentifier (rt : Runtime) (value : Json) (maximum : ℕ := 255) :
    Except ApprovalError String := do
  let text ← Except.orThrow value.str? (.internal "review rule identifier is not a text")
  Except.relabel (requiredApprovalIdentifier rt text "review rule" maximum)
    fun _ => invalidCandidate

def evaluatedReviewRule (rt : Runtime) (candidate : RuleCandidate) :
    Except ApprovalError EvaluatedReviewRule := do
  let evaluation ← Except.orThrow candidate.evaluationResult invalidCandidate
  Except.require (evaluation.hasKeys ["passed", "review_rule"] = true ∧
    (evaluation.get "passed").bool? = some true) invalidCandidate
  let value := evaluation.get "review_rule"
  Except.require (value.hasKeys ["lineage_key", "scope", "matcher", "permitted_action",
    "risk_class", "evidence_requirements"] = true) invalidCandidate
  let scope := value.get "scope"
  let matcher := value.get "matcher"
  Except.require (scope.obj?.any (· ≠ []) = true ∧ matcher.obj?.any (· ≠ []) = true)
    invalidCandidate
  let requirements ← stringList rt (value.get "evidence_requirements") 100 255 invalidCandidate
  Except.require (requirements ≠ [] ∧ requirements.Nodup) invalidCandidate
  let lineageKey ← ruleIdentifier rt (value.get "lineage_key")
  let permittedAction ← ruleIdentifier rt (value.get "permitted_action")
  let riskClass ← ruleIdentifier rt (value.get "risk_class") 100
  Except.require (validInboxJson 0 scope = true ∧ validInboxJson 0 matcher = true)
    invalidCandidate
  return ⟨lineageKey, scope, matcher, permittedAction, riskClass, requirements⟩

/-- The evidence a candidate cites, as long as the owner may read all of it. -/
def candidateEvidenceIds (rt : Runtime) (db : Database) (task : Task)
    (candidate : RuleCandidate) : Except ApprovalError (List UUID) := do
  let values ← evidenceIdsOf rt candidate.citedEvidenceIds
    (.conflict "stored rule candidate evidence is invalid")
  Except.require (∀ id ∈ values, corrected db id = false ∧ deletionRequested db id = false ∧
      (db.evidenceRecords.get? id).any (fun record =>
        record.taskId = some task.id && record.ownerId = task.ownerId &&
          record.deletedAt = none &&
          (record.accessClassification = .taskOwner ||
            record.accessClassification = .owner)) = true)
    (.conflict "rule candidate evidence is unavailable")
  return values

/-- A candidate with the rule it proposes, the evidence it cites and its fingerprint. -/
structure ValidatedCandidate where
  rule : EvaluatedReviewRule
  evidenceIds : List UUID
  fingerprint : String

/-- A text that is not blank and not too long. -/
def BoundedText (rt : Runtime) (text : String) (maximum : ℕ) : Prop :=
  rt.unicode.strip text.toList ≠ [] ∧ text.length ≤ maximum

instance (rt : Runtime) (text : String) (maximum : ℕ) :
    Decidable (BoundedText rt text maximum) := by
  unfold BoundedText
  infer_instance

def validatedRuleCandidate (rt : Runtime) (db : Database) (task : Task)
    (candidate : RuleCandidate) : Except ApprovalError ValidatedCandidate := do
  Except.require (BoundedText rt candidate.proposedRule 10000 ∧
    BoundedText rt candidate.recurrenceAssessment 2000 ∧
    BoundedText rt candidate.severityAssessment 100) invalidCandidate
  let risks ← stringList rt candidate.falsePositiveRisks 100 500
    (.conflict "stored rule candidate risks is invalid")
  let rule ← evaluatedReviewRule rt candidate
  let evidenceIds ← candidateEvidenceIds rt db task candidate
  let texts (values : List String) : Json := .arr (values.map Json.str)
  let fingerprint := rt.fingerprint <| .obj
    [("candidate_id", .str candidate.id.str),
      ("cited_evidence_ids", texts (evidenceIds.map UUID.str)),
      ("false_positive_risks", texts risks),
      ("proposed_rule", .str candidate.proposedRule),
      ("recurrence_assessment", .str candidate.recurrenceAssessment),
      ("review_rule", .obj
        [("evidence_requirements", texts rule.evidenceRequirements),
          ("lineage_key", .str rule.lineageKey),
          ("matcher", rule.matcher),
          ("permitted_action", .str rule.permittedAction),
          ("risk_class", .str rule.riskClass),
          ("scope", rule.scope)]),
      ("severity_assessment", .str candidate.severityAssessment)]
  return ⟨rule, evidenceIds, fingerprint⟩

/-! ### The check before a decision acts -/

/-- The evaluated candidate a request is about. -/
def evaluatedCandidate (db : Database) (task : Task) (request : ApprovalRequest) :
    Option RuleCandidate :=
  (request.subjectId.bind db.ruleCandidates.get?).filter fun candidate =>
    candidate.taskId = some task.id && candidate.ownerId = task.ownerId &&
      candidate.status = .evaluated && candidate.evaluationResult.isSome

/-- The subject of a request as it is now: nothing when it is not current, else its
fingerprint if it has one. -/
def subjectNow (rt : Runtime) (db : Database) (task : Task) (request : ApprovalRequest)
    (shape : RequestShape) (evidenceIds : List UUID) :
    Except ApprovalError (Option (Option String)) :=
  match shape.type with
  | .brief =>
    .ok <| if (request.subjectId.bind db.briefs.get?).any (fun brief =>
        brief.taskId = task.id && brief.ownerId = task.ownerId && brief.fingerprints) then
      some none else none
  | .reviewRule =>
    match evaluatedCandidate db task request with
    | none => .ok none
    | some candidate =>
      match validatedRuleCandidate rt db task candidate with
      | .ok validated =>
        if validated.evidenceIds ⊆ evidenceIds then .ok (some (some validated.fingerprint))
        else .ok none
      | .error (.conflict _) => .ok none
      | .error error => .error error
  | _ => .ok (some none)

def briefDecisionOf (db : Database) (task : Task) : Option BriefApprovalDecision :=
  task.briefApprovalDecisionId.bind db.briefApprovalDecisions.get?

/-- The brief decision that still waits for the human. -/
def awaitsHuman (task : Task) (request : ApprovalRequest) (decision : BriefApprovalDecision) :
    Bool :=
  decision.taskId = task.id && some decision.briefId = request.subjectId &&
    decision.disposition = .humanApprovalRequired && decision.humanResponse = none

/-- The exhausted outage a blocked dependency call waits for, with its failed job. -/
def outageIsCurrent (db : Database) (task : Task) (request : ApprovalRequest)
    (blocked : BlockedOperation) : Bool :=
  (db.dependencyOutageAttempts.rows.find? fun outage =>
    outage.approvalRequestId = some request.id && outage.exhausted && outage.resolvedAt = none &&
      some outage.checkpointEvidenceId = blocked.checkpointEvidenceId).any fun outage =>
  (db.backgroundJobs.get? outage.jobId).any fun job =>
    job.taskId = some task.id && job.status = .failed &&
      job.inputFingerprint = blocked.inputFingerprint &&
      blocked.idempotencyKey = "outage:" ++ job.id.str ++ ":" ++ toString outage.attempt

/-- The task still stands where the request stopped it. -/
def stateIsCurrent (db : Database) (task : Task) (request : ApprovalRequest)
    (shape : RequestShape) : Bool :=
  match shape.type with
  | .brief =>
    task.state = .briefPendingApproval && request.resumeState = none &&
      task.acceptedBriefId = request.subjectId &&
      (briefDecisionOf db task).any (awaitsHuman task request)
  | type =>
    task.state = .escalated && request.resumeState.isSome &&
      task.escalationResumeState = request.resumeState &&
      (type ≠ .retryLimit || (shape.blockedOperation.filter fun blocked =>
        "dependency.".toList.isPrefixOf blocked.operationName.toList).all
          (outageIsCurrent db task request))

/-- The durable preconditions captured in a request, computed again. -/
def durablePreconditionsAreCurrent (rt : Runtime) (db : Database) (task : Task)
    (request : ApprovalRequest) : Except ApprovalError Bool := do
  let shape ← requestShape rt request
  let evidenceIds ← storedEvidenceIds rt request
  match ← subjectNow rt db task request shape evidenceIds, request.expiresAt with
  | some subject, some expiresAt => do
    let precondition := rt.fingerprint (preconditionIdentity task.id request shape subject)
    let reason ← requiredApprovalReason rt request.reason
    let options := requestOptions shape.type
    let fingerprint := requestFingerprint rt precondition reason options evidenceIds expiresAt
    return decide (request.preconditionFingerprint = precondition ∧
        request.requestFingerprint = fingerprint ∧
        request.options = options.map ApprovalDecision.value) &&
      stateIsCurrent db task request shape
  | _, _ => return false

/-- The preconditions of a request hold of the task: its subject is current, what was
captured has the fingerprints recorded, and the task stands where the request stopped it. -/
structure PreconditionsCurrent (rt : Runtime) (db : Database) (task : Task)
    (request : ApprovalRequest) (shape : RequestShape) (evidenceIds : List UUID)
    (subject : Option String) (reason : String) (expiresAt : Time) : Prop where
  shape_eq : requestShape rt request = .ok shape
  evidence_eq : storedEvidenceIds rt request = .ok evidenceIds
  subject_eq : subjectNow rt db task request shape evidenceIds = .ok (some subject)
  reason_eq : requiredApprovalReason rt request.reason = .ok reason
  expiry_eq : request.expiresAt = some expiresAt
  precondition_eq : request.preconditionFingerprint =
    rt.fingerprint (preconditionIdentity task.id request shape subject)
  request_eq : request.requestFingerprint =
    requestFingerprint rt request.preconditionFingerprint reason
      (requestOptions shape.type) evidenceIds expiresAt
  options_eq : request.options = (requestOptions shape.type).map ApprovalDecision.value
  state_eq : stateIsCurrent db task request shape = true

theorem durablePreconditionsAreCurrent_eq_true {rt : Runtime} {db : Database} {task : Task}
    {request : ApprovalRequest} (h : durablePreconditionsAreCurrent rt db task request = .ok true) :
    ∃ shape evidenceIds subject reason expiresAt,
      PreconditionsCurrent rt db task request shape evidenceIds subject reason expiresAt := by
  simp only [durablePreconditionsAreCurrent, Except.bind_eq_ok] at h
  obtain ⟨shape, hshape, evidenceIds, hevidence, subject?, hsubject, h⟩ := h
  split at h
  · rename_i subject expiresAt hexpiry
    simp only [Except.bind_eq_ok, Except.pure_eq_ok, Bool.and_eq_true, decide_eq_true_eq] at h
    obtain ⟨reason, hreason, ⟨hprecondition, hrequest, hoptions⟩, hstate⟩ := h
    refine ⟨shape, evidenceIds, subject, reason, expiresAt, ?_⟩
    exact ⟨hshape, hevidence, hsubject, hreason, hexpiry, hprecondition,
      hprecondition ▸ hrequest, hoptions, hstate⟩
  · cases h

end ControlPlane
