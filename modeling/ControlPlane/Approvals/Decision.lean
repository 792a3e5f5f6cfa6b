import ControlPlane.Approvals.Request
import Mathlib.Data.Prod.Lex

/-!
# Approval decisions

A decision is one transaction: the request is found again, an expired one is expired
whatever was asked, a decided one is only replayed, what acts is compared with what was
captured, and the task, the request, its subject and the history change together.

The evaluator of further preconditions is a parameter; the service installs one that asks
nothing more.

## Main definitions

* `ApprovalService.decide`, `ApprovalService.expireDue`
-/
namespace ControlPlane

/-- The gates a request or a decision opens. -/
structure ApprovalGates where
  briefApprovalRequired : Bool := false
  exactBriefHumanApproval : Bool := false
  briefRevisionRequestId : Option UUID := none
  resumeDecisionId : Option UUID := none
  expectedPolicyVersionId : Option UUID := none

def ApprovalGates.evaluate (g : ApprovalGates) : TaskTransitionGateEvaluator :=
  fun _ _ _ policy _ =>
    if g.expectedPolicyVersionId.any (· ≠ policy.id) then .ok {}
    else .ok
      { briefApprovalRequired := g.briefApprovalRequired
        exactBriefHumanApproval := g.exactBriefHumanApproval
        briefRevisionRequestId := g.briefRevisionRequestId
        resumeDecisionId := g.resumeDecisionId
        resumeDecisionCurrent := g.resumeDecisionId.isSome
        resumePreconditionsRechecked := g.resumeDecisionId.isSome }

structure ApprovalService where
  /-- Adapter-specific checks after the durable ones. -/
  recheck : Database → Task → ApprovalRequest → ApprovalDecision → Time → Bool :=
    fun _ _ _ _ _ => true
  activePolicyLineage : String := "mvp"
  principalId : String := "control-plane"

structure RuleRegressionReviewInput where
  candidateId : UUID
  candidateFingerprint : String
  passed : Bool

def RuleRegressionReviewInput.toJson (r : RuleRegressionReviewInput) : Json :=
  .obj
    [("candidate_id", .str r.candidateId.str),
      ("candidate_fingerprint", .str r.candidateFingerprint),
      ("passed", .bool r.passed)]

/-- The arguments of a decision, with the identifiers its new rows get. -/
structure DecisionCommand where
  requestId : UUID
  decisionId : UUID
  decision : ApprovalDecision
  actorId : String
  evidenceIds : List UUID := []
  expectedOwnerId : Option String := none
  recentPasswordVerified : Option Bool := none
  regressionReview : Option RuleRegressionReviewInput := none
  now : Time
  transitionEventId : UUID
  eventId : UUID
  ruleId : UUID
  policyVersionId : UUID

structure ApprovalDecisionResult where
  taskId : UUID
  requestId : UUID
  decisionId : UUID
  decision : ApprovalDecision
  status : ApprovalStatus
  taskState : TaskState
  transitionEventId : UUID
  auditEventId : UUID
  replayed : Bool := false
  deriving DecidableEq

def decisionFingerprint (rt : Runtime) (c : DecisionCommand) (decision : ApprovalDecision)
    (actor : String) : String :=
  rt.fingerprint <| .obj
    [("actor_id", .str actor),
      ("decision", .str decision.value),
      ("decision_evidence_ids", .arr (c.evidenceIds.map fun id => .str id.str)),
      ("decision_id", .str c.decisionId.str),
      ("request_id", .str c.requestId.str),
      ("regression_review",
        (c.regressionReview.map RuleRegressionReviewInput.toJson).getD .null)]

/-! ### The history -/

def decisionEventType : ApprovalDecision → String
  | .expire => "APPROVAL_EXPIRED"
  | _ => "APPROVAL_DECIDED"

/-- An event records a decision of the request. -/
def TaskEvent.decides (e : TaskEvent) (eventType : String) (requestId : UUID) : Bool :=
  e.eventType = eventType && (e.payload.get "approval_request_id").pyEq (.str requestId.str)

def approvalAuditEventId (db : Database) (taskId requestId : UUID) (eventType : String) :
    Except ApprovalError UUID :=
  Except.orThrow (((taskEventsOf db taskId).find? (·.decides eventType requestId)).map TaskEvent.id)
    (.conflict "approval audit event is unavailable")

def transitionEventId (db : Database) (transitionId : UUID) : Except ApprovalError UUID :=
  Except.orThrow ((eventOfTransition db transitionId).map TaskEvent.id)
    (.conflict "approval transition event is unavailable")

def approvalConflicts : ApprovalError :=
  .conflict "approval decision conflicts with durable state"

def approvalEvent (db : Database) (task : Task) (request : ApprovalRequest)
    (blocked : Option BlockedOperation) (eventType : String) (eventId : UUID) (now : Time) :
    TaskEvent where
  id := eventId
  taskId := task.id
  sequence := nextEventSequence db task.id
  eventType := eventType
  payload := .obj
    [("approval_request_id", .str request.id.str),
      ("blocked_operation", (blocked.map fun b => Json.obj
        [("input_fingerprint", .str b.inputFingerprint),
          ("operation_name", .str b.operationName)]).getD .null),
      ("decision", (request.decision.map fun d => Json.str d.value).getD .null),
      ("expires_at",
        (request.expiresAt.map fun t => Json.str (Calendar.isoTimestamp t)).getD .null),
      ("precondition_fingerprint", .str request.preconditionFingerprint),
      ("request_type", .str request.requestType),
      ("resume_state", (request.resumeState.map fun s => Json.str s.value).getD .null),
      ("schema_version", .int 1),
      ("status", .str request.status.value),
      ("subject_id", optionalId request.subjectId),
      ("subject_type", (request.subjectType.map Json.str).getD .null)]
  occurredAt := now
  ownerId := task.ownerId
  rootCorrelationId := task.rootCorrelationId
  causationId := some request.id
  parentCorrelationId := some task.id

def appendApprovalEvent (rt : Runtime) (db : Database) (task : Task) (request : ApprovalRequest)
    (eventType : String) (evidenceIds : List UUID) (eventId : UUID) (now : Time) :
    Except ApprovalError (TaskEvent × Database) := do
  let blocked ← storedBlockedOperation rt request
  let event := approvalEvent db task request blocked eventType eventId now
  let taskEvents ← Except.orThrow (db.taskEvents.insert? event) approvalConflicts
  Except.require (∀ id ∈ evidenceIds, (db.evidenceRecords.get? id).isSome)
    (.conflict "approval evidence is unavailable")
  let references := evidenceIds.zipIdx.map fun (evidenceId, i) =>
    { taskId := task.id, taskEventId := event.id, evidenceId, position := i + 1
      : TaskEventEvidenceReference }
  return (event, { db with
    taskEvents
    taskEventEvidenceReferences := db.taskEventEvidenceReferences ++ references })

/-! ### What a decision leads to -/

/-- The status, the transition and the gates of a decision. -/
def decisionProjection (type : ApprovalRequestType) (decision : ApprovalDecision)
    (decisionId : UUID) :
    Except ApprovalError (ApprovalStatus × TaskTransitionKind × ApprovalGates) :=
  match decision, type with
  | .cancel, _ => .ok (.cancelled, .cancel, {})
  | .expire, _ => .ok (.expired, .fail, {})
  | .approve, .brief => .ok (.approved, .approveExactBrief, { exactBriefHumanApproval := true })
  | .requestRevision, .brief =>
    .ok (.rejected, .reviseBrief, { briefRevisionRequestId := some decisionId })
  | .reject, .reviewRule => .ok (.rejected, .resume, { resumeDecisionId := some decisionId })
  | .approve, _ | .retry, _ =>
    .ok (.approved, .resume, { resumeDecisionId := some decisionId })
  | .deny, _ | .reject, _ | .abandon, _ => .ok (.rejected, .fail, {})
  | .requestRevision, _ => .error (.invalid "approval decision is not supported")

/-! ### Promotion of a rule -/

/-- High severity, or two confirmed occurrences. -/
def checkPromotionThreshold (rt : Runtime) (db : Database) (candidate : RuleCandidate)
    (evidenceIds : List UUID) : Except ApprovalError Unit := do
  let severity := String.ofList
    (rt.unicode.upper (rt.unicode.strip candidate.severityAssessment.toList))
  Except.require (severity ∈ ["LOW", "MEDIUM", "HIGH"])
    (.conflict "rule candidate severity is invalid")
  let records := evidenceIds.filterMap fun id =>
    (db.evidenceRecords.get? id).filter fun record =>
      record.ownerId = candidate.ownerId && record.deletedAt = none
  Except.require (records.length = evidenceIds.length)
    (.conflict "rule candidate evidence is unavailable")
  Except.require (severity = "HIGH" ∨
      2 ≤ (records.filterMap EvidenceRecord.validationRunId).eraseDups.length)
    (.conflict "rule promotion threshold is not satisfied")

/-- The rules of a policy with the promoted one in place of the first of its lineage. -/
def replacementRules (db : Database) (activeId : UUID) (rule : ReviewRule) : List UUID :=
  let members := ((db.policyVersionReviewRules.filter (·.policyVersionId = activeId)).insertionSort
    fun a b => a.position ≤ b.position).filterMap fun m => db.reviewRules.get? m.reviewRuleId
  let (earlier, later) := members.span (·.lineageKey ≠ rule.lineageKey)
  let kept (rules : List ReviewRule) : List UUID :=
    (rules.filter (·.lineageKey ≠ rule.lineageKey)).map ReviewRule.id
  kept earlier ++ rule.id :: kept later

/-- The next version of the rule in its lineage. -/
def promotedRule (db : Database) (task : Task) (request : ApprovalRequest)
    (candidate : RuleCandidate) (definition : EvaluatedReviewRule) (c : DecisionCommand)
    (actor : String) : ReviewRule :=
  let lineage := db.reviewRules.select (·.lineageKey = definition.lineageKey)
  { id := c.ruleId
    lineageKey := definition.lineageKey
    version := maxRank ReviewRule.version lineage + 1
    predecessorId :=
      (latestBy ReviewRule.version (lineage.filter (·.ownerId = task.ownerId))).map ReviewRule.id
    candidateId := candidate.id
    approvalRequestId := request.id
    scope := definition.scope
    matcher := definition.matcher
    permittedAction := definition.permittedAction
    riskClass := definition.riskClass
    evidenceRequirements := definition.evidenceRequirements
    approvedBy := actor
    approvedAt := c.now
    ownerId := task.ownerId }

def policiesOfLineage (db : Database) (lineageKey : String) : List PolicyVersion :=
  db.policyVersions.select (·.lineageKey = lineageKey)

/-- The next version of the active policy. -/
def promotedPolicy (db : Database) (active : PolicyVersion) (task : Task) (c : DecisionCommand) :
    PolicyVersion where
  id := c.policyVersionId
  lineageKey := active.lineageKey
  version := maxRank PolicyVersion.version (policiesOfLineage db active.lineageKey) + 1
  workflowThresholds := active.workflowThresholds
  approvedAt := c.now
  ownerId := task.ownerId

/-- Store the rule, the policy that contains it and the record of its activation. -/
def installPolicy (db : Database) (active policy : PolicyVersion) (rule : ReviewRule)
    (decisionId : Option UUID) (activation : UUID → PolicyActivation) :
    Except ApprovalError Database := do
  let reviewRules ← Except.orThrow (db.reviewRules.insert? rule) approvalConflicts
  let policyVersions ← Except.orThrow (db.policyVersions.insert? policy) approvalConflicts
  let activationId ← Except.orThrow decisionId
    (.conflict "rule promotion decision is unavailable")
  let policyActivations ← Except.orThrow (db.policyActivations.insert? (activation activationId))
    approvalConflicts
  return { db with
    reviewRules, policyVersions, policyActivations
    policyVersionReviewRules := db.policyVersionReviewRules ++
      (replacementRules db active.id rule).zipIdx.map fun (ruleId, i) =>
        { policyVersionId := policy.id, reviewRuleId := ruleId, position := i + 1 }
    policyVersionPromptTemplates := db.policyVersionPromptTemplates ++
      (db.policyVersionPromptTemplates.filter (·.policyVersionId = active.id)).map fun m =>
        { m with policyVersionId := policy.id } }

/-- Promote the rule of a candidate once everything about it is checked again. -/
def promoteReviewRule (svc : ApprovalService) (rt : Runtime) (db : Database) (task : Task)
    (request : ApprovalRequest) (candidate : RuleCandidate) (c : DecisionCommand)
    (actor : String) : Except ApprovalError Database := do
  let validated ← validatedRuleCandidate rt db task candidate
  let unavailable : ApprovalError := .conflict "rule candidate evidence is unavailable"
  let _ ← validated.evidenceIds.mapM fun id => do
    let record ← Except.orThrow (db.evidenceRecords.get? id) unavailable
    Except.relabel (loadEvidence rt db record) fun _ => unavailable
  let bound ← storedEvidenceIds rt request
  Except.require (validated.evidenceIds ⊆ bound)
    (.conflict "rule candidate evidence is not bound to the approval")
  Except.require (c.regressionReview.any (fun review =>
      review.passed && review.candidateId = candidate.id &&
        review.candidateFingerprint = validated.fingerprint) = true)
    (.conflict "rule regression review changed")
  checkPromotionThreshold rt db candidate validated.evidenceIds
  let active ← Except.orThrow
    (latestBy PolicyVersion.version
      ((policiesOfLineage db svc.activePolicyLineage).filter fun p =>
        p.ownerId = task.ownerId && p.approvedAt ≤ c.now))
    (.conflict "active approval policy is unavailable")
  installPolicy db active (promotedPolicy db active task c)
    (promotedRule db task request candidate validated.rule c actor) request.decisionId
    fun activationId =>
      { id := activationId, policyVersionId := c.policyVersionId
        sourcePolicyVersionId := active.id, rollbackPolicyVersionId := active.id
        subjectId := candidate.id, subjectFingerprint := validated.fingerprint
        evidenceIds := validated.evidenceIds, approvedBy := actor, activatedAt := c.now }

/-- Record the decision on what the request is about. -/
def projectSubjectDecision (svc : ApprovalService) (rt : Runtime) (db : Database) (task : Task)
    (request : ApprovalRequest) (type : ApprovalRequestType) (decision : ApprovalDecision)
    (c : DecisionCommand) (actor : String) : Except ApprovalError Database :=
  match type with
  | .brief => do
    let briefDecision ← Except.orThrow ((briefDecisionOf db task).filter (awaitsHuman task request))
      (.conflict "exact brief approval subject is unavailable")
    return { db with
      briefApprovalDecisions := db.briefApprovalDecisions.set
        { briefDecision with humanResponse := some decision.value } }
  | .reviewRule =>
    if decision = .approve ∨ decision = .reject then do
      let candidate ← Except.orThrow (evaluatedCandidate db task request)
        (.conflict "evaluated rule candidate is unavailable")
      let decided := { candidate with
        status := if decision = .approve then RuleCandidateStatus.approved else .rejected }
      let db := { db with ruleCandidates := db.ruleCandidates.set decided }
      if decision = .approve then promoteReviewRule svc rt db task request decided c actor
      else return db
    else .ok db
  | _ => .ok db

/-! ### The transaction -/

/-- The request and its task, if they belong to the expected owner. -/
def decisionTarget (db : Database) (c : DecisionCommand) :
    Except ApprovalError (Task × ApprovalRequest) := do
  let request ← Except.orThrow
    ((db.approvalRequests.get? c.requestId).filter fun r => c.expectedOwnerId.all (r.ownerId = ·))
    (.notFound "approval request is unavailable")
  let task ← Except.orThrow
    ((db.tasks.get? request.taskId).filter fun t => c.expectedOwnerId.all (t.ownerId = ·))
    (.notFound "task is unavailable")
  return (task, request)

/-- A request that has expired is expired, whatever was asked. -/
def effectiveDecision (request : ApprovalRequest) (c : DecisionCommand) : ApprovalDecision :=
  if request.decision = some .expire ∨
      (request.status = .pending ∧ request.expiresAt.any (· ≤ c.now) = true) then .expire
  else c.decision

def replayedDecision (db : Database) (task : Task) (request : ApprovalRequest)
    (c : DecisionCommand) (decision : ApprovalDecision) (fingerprint : String) :
    Except ApprovalError ApprovalDecisionResult := do
  Except.require (request.decisionId = some c.decisionId ∧
      request.decisionFingerprint = some fingerprint ∧ request.decision = some decision)
    (.conflict "approval request is already decided")
  let transition ← transitionEventId db c.decisionId
  let audit ← approvalAuditEventId db task.id request.id (decisionEventType decision)
  return { taskId := task.id, requestId := request.id, decisionId := c.decisionId, decision
           status := request.status, taskState := task.state, transitionEventId := transition
           auditEventId := audit, replayed := true }

/-- A decision as it is checked: the kind of request, the status it gets, the transition
and its gates. -/
structure CheckedDecision where
  type : ApprovalRequestType
  status : ApprovalStatus
  kind : TaskTransitionKind
  gates : ApprovalGates

def localOwnerId : String := "local-user"

/-- An expiry must be due, any other decision on offer. -/
def checkOffered (request : ApprovalRequest) (c : DecisionCommand) (decision : ApprovalDecision) :
    Except ApprovalError Unit :=
  if decision = .expire then
    Except.require (request.expiresAt.any (· ≤ c.now) = true)
      (.invalid "approval request has not expired")
  else
    Except.require (decision.value ∈ request.options)
      (.invalid "approval decision is not an offered option")

/-- The promotion of a rule needs a regression review that passed, nothing else takes one. -/
def checkRegressionReview (request : ApprovalRequest) (c : DecisionCommand) (promotes : Bool) :
    Except ApprovalError Unit :=
  if promotes then
    Except.require (c.regressionReview.any (fun review =>
        review.passed && some review.candidateId = request.subjectId) = true)
      (.conflict "rule regression review is required")
  else
    Except.require (c.regressionReview.isNone = true)
      (.invalid "regression review is only valid for rule promotion")

/-- The approval of a brief counts under the policy its decision was made under. -/
def exactGates (db : Database) (task : Task) (type : ApprovalRequestType)
    (decision : ApprovalDecision) (gates : ApprovalGates) : Except ApprovalError ApprovalGates :=
  if type = .brief ∧ decision = .approve then do
    let exact ← Except.orThrow (briefDecisionOf db task)
      (.notFound "exact brief approval subject is unavailable")
    return { gates with expectedPolicyVersionId := exact.policyVersionId }
  else .ok gates

/-- The checks of a decision that read nothing captured. -/
def checkDecision (db : Database) (task : Task) (request : ApprovalRequest) (c : DecisionCommand)
    (decision : ApprovalDecision) (actor : String) : Except ApprovalError CheckedDecision := do
  checkOffered request c decision
  Except.require (db.approvalRequests.rows.all (·.decisionId ≠ some c.decisionId) = true)
    (.conflict "approval decision id conflicts")
  let type ← requestTypeOf request
  let (status, kind, gates) ← decisionProjection type decision c.decisionId
  let promotes := decide (type = .reviewRule ∧ decision = .approve)
  Except.require (decision = .expire ∨
      (¬ (promotes = true ∧ (c.recentPasswordVerified ≠ some true ∨ actor ≠ localOwnerId)) ∧
        ¬ (c.recentPasswordVerified = some false ∧ (kind = .cancel ∨ kind = .fail))))
    (.recentPasswordRequired "recent password authentication required")
  checkRegressionReview request c promotes
  let gates ← exactGates db task type decision gates
  return ⟨type, status, kind, gates⟩

/-- What acts is compared with what was captured. -/
def ApprovalService.checkPreconditions (svc : ApprovalService) (rt : Runtime) (db : Database)
    (task : Task) (request : ApprovalRequest) (decision : ApprovalDecision) (now : Time) :
    Except ApprovalError Unit :=
  if decision.preconditioned then do
    let current ← durablePreconditionsAreCurrent rt db task request
    Except.require ((current && svc.recheck db task request decision now) = true)
      (.precondition "approval preconditions changed")
  else .ok ()

def ApprovalService.transition (svc : ApprovalService) (task : Task) (checked : CheckedDecision)
    (c : DecisionCommand) (decision : ApprovalDecision) (actor : String)
    (evidenceIds : List UUID) : TaskTransitionCommand where
  taskId := task.id
  transitionId := c.decisionId
  expectedState := if checked.type = .brief then .briefPendingApproval else .escalated
  kind := checked.kind
  reasonCode := "APPROVAL_" ++ decision.value
  actorId := actor
  evidenceIds := evidenceIds
  gateEvaluator := checked.gates.evaluate
  activePolicyLineage := svc.activePolicyLineage
  occurredAt := c.now
  eventId := c.transitionEventId

/-- How a refused transition refuses the call. -/
def ApprovalError.ofTransition : TaskTransitionError → ApprovalError
  | .notFound message | .conflict message | .invalid message => .conflict message
  | .integrity _ => approvalConflicts
  | _ => .internal "transition actor is unreadable"

/-- A request once it is decided. -/
def ApprovalRequest.decided (request : ApprovalRequest) (c : DecisionCommand)
    (status : ApprovalStatus) (decision : ApprovalDecision) (fingerprint actor : String) :
    ApprovalRequest :=
  { request with
    status, decision := some decision, decisionId := some c.decisionId
    decisionFingerprint := some fingerprint, decidedBy := some actor, decidedAt := some c.now }

def Database.putRequest (db : Database) (request : ApprovalRequest) : Database :=
  { db with approvalRequests := db.approvalRequests.set request }

/-- Check, transition, and record a decision on a pending request. -/
def ApprovalService.recordDecision (svc : ApprovalService) (rt : Runtime) (db : Database)
    (task : Task) (request : ApprovalRequest) (c : DecisionCommand) (decision : ApprovalDecision)
    (actor fingerprint : String) (evidenceIds : List UUID) :
    Except ApprovalError (ApprovalDecisionResult × Database) := do
  let checked ← checkDecision db task request c decision actor
  svc.checkPreconditions rt db task request decision c.now
  let (transition, db) ← Except.relabel
    (transitionTask rt db (svc.transition task checked c decision actor evidenceIds)) .ofTransition
  let task ← Except.orThrow (db.tasks.get? task.id) (.notFound "task is unavailable")
  let request := request.decided c checked.status decision fingerprint actor
  let db ← projectSubjectDecision svc rt (db.putRequest request) task request checked.type
    decision c actor
  let (event, db) ← appendApprovalEvent rt db task request (decisionEventType decision)
    evidenceIds c.eventId c.now
  return ({ taskId := task.id, requestId := request.id, decisionId := c.decisionId, decision
            status := checked.status, taskState := task.state
            transitionEventId := transition.eventId, auditEventId := event.id }, db)

def ApprovalService.decide (svc : ApprovalService) (rt : Runtime) (db : Database)
    (c : DecisionCommand) : Except ApprovalError (ApprovalDecisionResult × Database) := do
  let actor ← requiredApprovalIdentifier rt c.actorId "approval actor"
  Except.require (c.evidenceIds.length ≤ 100 ∧ c.evidenceIds.Nodup)
    (.invalid "decision evidence references are invalid")
  let (task, request) ← decisionTarget db c
  let decision := effectiveDecision request c
  let stored ← storedEvidenceIds rt request
  let evidenceIds := (stored ++ c.evidenceIds).eraseDups
  Except.require (evidenceIds.length ≤ 100) (.invalid "combined approval evidence is too large")
  let fingerprint := decisionFingerprint rt c decision actor
  if request.status = .pending then
    svc.recordDecision rt db task request c decision actor fingerprint evidenceIds
  else do
    let result ← replayedDecision db task request c decision fingerprint
    return (result, db)

/-- The store after a call: a refused one is rolled back. -/
def ApprovalService.after (svc : ApprovalService) (rt : Runtime) (db : Database)
    (c : DecisionCommand) : Database :=
  match svc.decide rt db c with
  | .ok (_, db) => db
  | .error _ => db

/-! ### Expiry -/

/-- The arguments of a sweep: the readings of the clock, the first for the sweep and one
for each decision, and the identifiers of new rows. -/
structure ExpiryCommand where
  limit : ℕ := 100
  clock : ℕ → Time
  transitionEventId : UUID → UUID
  eventId : UUID → UUID

/-- Where a request stands in the order of a sweep. -/
def expiryOrder (expiresAt : Time) (id : UUID) : ℕ ×ₗ ℕ := toLex (expiresAt, id.bits.toNat)

def uninitializedFingerprint : String := String.ofList (List.replicate 64 '0')

/-- The pending requests that have expired, in the order of a sweep, after a cursor. -/
def dueRequests (db : Database) (now : Time) (cursor : Option (Time × UUID)) (limit : ℕ) :
    List (UUID × Time) :=
  let due := db.approvalRequests.select fun request =>
    request.status = .pending && request.requestFingerprint ≠ uninitializedFingerprint &&
      request.preconditionFingerprint ≠ uninitializedFingerprint
  let rows := due.filterMap fun request =>
    (request.expiresAt.filter (· ≤ now)).map fun expiresAt => (request.id, expiresAt)
  let beyond (row : UUID × Time) : Bool :=
    cursor.all fun last => expiryOrder last.1 last.2 < expiryOrder row.2 row.1
  ((rows.filter beyond).insertionSort fun a b =>
    expiryOrder a.2 a.1 ≤ expiryOrder b.2 b.1).take limit

def expiryDecisionId (rt : Runtime) (requestId : UUID) (expiresAt : Time) : UUID :=
  rt.uuid5 ("mathews:approval-expiry:" ++ requestId.str ++ ":" ++ Calendar.isoTimestamp expiresAt)

/-- The decision a sweep asks for. -/
def ApprovalService.expiry (svc : ApprovalService) (rt : Runtime) (c : ExpiryCommand) (calls : ℕ)
    (requestId : UUID) (expiresAt : Time) : DecisionCommand where
  requestId := requestId
  decisionId := expiryDecisionId rt requestId expiresAt
  decision := .expire
  actorId := svc.principalId
  now := c.clock (calls + 1)
  transitionEventId := c.transitionEventId requestId
  eventId := c.eventId requestId
  ruleId := requestId
  policyVersionId := requestId

/-- A sweep so far: what it decided, how many decisions it asked for, an error that ends
it, and the store. -/
structure ExpirySweep where
  results : List ApprovalDecisionResult := []
  calls : ℕ := 0
  raised : Option ApprovalError := none
  db : Database

/-- One request of a page; a refused one is skipped. -/
def ApprovalService.expireRow (svc : ApprovalService) (rt : Runtime) (c : ExpiryCommand)
    (sweep : ExpirySweep) (row : UUID × Time) : ExpirySweep :=
  if sweep.raised.isSome ∨ sweep.results.length = c.limit then sweep
  else
    match svc.decide rt sweep.db (svc.expiry rt c sweep.calls row.1 row.2) with
    | .ok (result, db) =>
      { sweep with results := sweep.results ++ [result], calls := sweep.calls + 1, db }
    | .error (.internal message) => { sweep with raised := some (.internal message) }
    | .error _ => { sweep with calls := sweep.calls + 1 }

/-- Page after page. Every page passes a request that no later page returns to, so one
page more than there are requests is enough. -/
def ApprovalService.expirePages (svc : ApprovalService) (rt : Runtime) (c : ExpiryCommand) :
    ℕ → Option (Time × UUID) → ExpirySweep → ExpirySweep
  | 0, _, sweep => sweep
  | pages + 1, cursor, sweep =>
    if sweep.raised.isSome ∨ c.limit ≤ sweep.results.length then sweep
    else
      let page := dueRequests sweep.db (c.clock 0) cursor c.limit
      match page.getLast? with
      | none => sweep
      | some (id, expiresAt) =>
        svc.expirePages rt c pages (some (expiresAt, id)) (page.foldl (svc.expireRow rt c) sweep)

def ApprovalService.expireDue (svc : ApprovalService) (rt : Runtime) (db : Database)
    (c : ExpiryCommand) : Except ApprovalError ExpirySweep := do
  Except.require (1 ≤ c.limit ∧ c.limit ≤ 1000) (.invalid "approval expiry limit is invalid")
  return svc.expirePages rt c (db.approvalRequests.rows.length + 1) none { db }

end ControlPlane
