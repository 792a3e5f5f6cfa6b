import ControlPlane.Approvals.Decision

/-!
# Opening a request

A request pauses its task in one transaction: it is validated, compared with a request
that has its identifier already, and stored together with the transition of the task and
the event that says so. A task has one pending request at a time.

## Main definitions

* `ApprovalService.request`
-/
namespace ControlPlane

/-- The arguments of a request, with the identifiers its new rows get. -/
structure RequestCommand where
  taskId : UUID
  requestId : UUID
  expectedState : TaskState
  requestType : ApprovalRequestType
  reasonCode : String
  subjectType : Option String
  subjectId : Option UUID
  blockedOperation : Option BlockedOperation
  retryHistory : List ApprovalRetryAttempt := []
  evidenceIds : List UUID
  expiresAt : Time
  now : Time
  transitionEventId : UUID
  eventId : UUID

structure ApprovalRequestResult where
  taskId : UUID
  requestId : UUID
  status : ApprovalStatus
  taskState : TaskState
  transitionEventId : UUID
  auditEventId : UUID
  replayed : Bool := false

/-- The state a decision resumes; the approval of a brief resumes none. -/
def RequestCommand.resumeState (c : RequestCommand) : Option TaskState :=
  if c.requestType = .brief then none else some c.expectedState

/-- The checkpoints a request refers to. -/
def RequestCommand.checkpoints (c : RequestCommand) : List UUID :=
  c.retryHistory.filterMap (·.checkpointEvidenceId) ++
    (c.blockedOperation.bind (·.checkpointEvidenceId)).toList

/-- The checks of a request that read no store: its reason and its shape. -/
def checkApprovalRequest (rt : Runtime) (c : RequestCommand) :
    Except ApprovalError (String × RequestShape) := do
  let reason ← requiredApprovalReason rt c.reasonCode
  Except.require (c.evidenceIds ≠ [] ∧ c.evidenceIds.length ≤ 100 ∧ c.evidenceIds.Nodup)
    (.invalid "approval evidence references are invalid")
  Except.require (c.retryHistory.length ≤ 100) (.invalid "approval retry history is too large")
  Except.require ((c.retryHistory.map (·.attempt)).Pairwise (· < ·))
    (.invalid "approval retry history is invalid")
  Except.require (c.requestType = .retryLimit → c.retryHistory.length ≠ 0)
    (.invalid "retry-limit approval requires retry history")
  Except.require (c.requestType ≠ .retryLimit → c.retryHistory.length = 0)
    (.invalid "retry history is only valid for a retry-limit approval")
  Except.require (c.checkpoints ⊆ c.evidenceIds)
    (.invalid "checkpoint evidence must support the approval request")
  let (subjectType, subjectId) ← validateRequestShape c.requestType c.subjectType c.subjectId
    c.blockedOperation c.retryHistory
  return (reason, ⟨c.requestType, c.blockedOperation, c.retryHistory, subjectType, subjectId⟩)

/-- The brief a request is about, with its decision. -/
def exactBrief (db : Database) (task : Task) (subjectId : Option UUID) (actionable : Bool) : Bool :=
  (subjectId.bind db.briefs.get?).any (fun brief =>
      brief.taskId = task.id && brief.ownerId = task.ownerId) &&
    task.acceptedBriefId = subjectId &&
    (briefDecisionOf db task).any fun decision =>
      decision.taskId = task.id && some decision.briefId = subjectId &&
        decision.disposition = .humanApprovalRequired &&
        (!actionable || decision.humanResponse = none)

/-- The subject of a new request: it must exist, and the evidence must support it. -/
def validateExactSubject (rt : Runtime) (db : Database) (task : Task) (type : ApprovalRequestType)
    (subjectId : Option UUID) (evidenceIds : List UUID) (actionable : Bool) :
    Except ApprovalError (Option String) :=
  match type with
  | .brief => do
    Except.require (exactBrief db task subjectId actionable = true)
      (.notFound "exact brief approval subject is unavailable")
    Except.require ((subjectId.bind db.briefs.get?).any Brief.fingerprints = true)
      (.conflict "stored brief is invalid")
    return none
  | .reviewRule => do
    let candidate ← Except.orThrow
      ((subjectId.bind db.ruleCandidates.get?).filter fun candidate =>
        candidate.taskId = some task.id && candidate.ownerId = task.ownerId &&
          (!actionable || candidate.status = .evaluated) && candidate.evaluationResult.isSome)
      (.notFound "evaluated rule candidate is unavailable")
    let validated ← validatedRuleCandidate rt db task candidate
    Except.require (validated.evidenceIds ⊆ evidenceIds)
      (.conflict "rule candidate evidence must support the approval")
    return some validated.fingerprint
  | _ => .ok none

/-- A new request as it is stored. -/
def newRequest (rt : Runtime) (c : RequestCommand) (reason : String) (shape : RequestShape)
    (subject : Option String) (ownerId : String) : ApprovalRequest :=
  let row : ApprovalRequest :=
    { id := c.requestId
      taskId := c.taskId
      requestType := c.requestType.value
      subjectType := some shape.subjectType
      subjectId := shape.subjectId
      reason := reason
      options := (requestOptions c.requestType).map ApprovalDecision.value
      supportingEvidenceIds := c.evidenceIds.map UUID.str
      requestingState := c.expectedState
      resumeState := c.resumeState
      expiresAt := some c.expiresAt
      blockedOperation := c.blockedOperation.map BlockedOperation.toDict
      retryHistory := c.retryHistory.map ApprovalRetryAttempt.toDict
      ownerId := ownerId }
  let precondition := rt.fingerprint (preconditionIdentity c.taskId row shape subject)
  { row with
    preconditionFingerprint := precondition
    requestFingerprint := requestFingerprint rt precondition reason
      (requestOptions c.requestType) c.evidenceIds c.expiresAt }

/-- The pending requests of a task. -/
def pendingRequests (db : Database) (taskId : UUID) : List ApprovalRequest :=
  db.approvalRequests.select fun r => r.taskId = taskId && r.status = .pending

/-- A request stays open for thirty days at most. -/
def maxApprovalLifetime : Time := seconds (30 * 86400)

def ApprovalService.pause (svc : ApprovalService) (c : RequestCommand) (reason : String)
    (policyVersionId : Option UUID) : TaskTransitionCommand where
  taskId := c.taskId
  transitionId := c.requestId
  expectedState := c.expectedState
  kind := if c.requestType = .brief then .requestBriefApproval else .escalate
  reasonCode := reason
  actorId := svc.principalId
  evidenceIds := c.evidenceIds
  gateEvaluator := ApprovalGates.evaluate
    { briefApprovalRequired := Decidable.decide (c.requestType = .brief)
      expectedPolicyVersionId := policyVersionId }
  activePolicyLineage := svc.activePolicyLineage
  occurredAt := c.now
  eventId := c.transitionEventId

/-- The policy the decision on a brief was made under. -/
def exactPolicy (db : Database) (task : Task) (type : ApprovalRequestType) :
    Except ApprovalError (Option UUID) :=
  if type = .brief then do
    let exact ← Except.orThrow (briefDecisionOf db task)
      (.notFound "exact brief approval subject is unavailable")
    return exact.policyVersionId
  else .ok none

/-- Store a new request and pause its task. -/
def ApprovalService.openRequest (svc : ApprovalService) (rt : Runtime) (db : Database)
    (task : Task) (c : RequestCommand) (reason : String) (row : ApprovalRequest) :
    Except ApprovalError (ApprovalRequestResult × Database) := do
  Except.require (c.now < c.expiresAt ∧ c.expiresAt ≤ c.now + maxApprovalLifetime)
    (.invalid "approval expiration is invalid")
  Except.require (task.state = c.expectedState)
    (.conflict "task state no longer matches approval request")
  Except.require (pendingRequests db task.id = [])
    (.conflict "task already has a pending approval")
  let policyVersionId ← exactPolicy db task c.requestType
  let approvalRequests ← Except.orThrow (db.approvalRequests.insert? row)
    (.conflict "approval request conflicts with durable state")
  let (transition, db) ← Except.relabel
    (transitionTask rt { db with approvalRequests } (svc.pause c reason policyVersionId))
    .ofTransition
  let task ← Except.orThrow (db.tasks.get? task.id) (.notFound "task is unavailable")
  let (event, db) ← appendApprovalEvent rt db task row "APPROVAL_REQUESTED" c.evidenceIds
    c.eventId c.now
  return ({ taskId := task.id, requestId := row.id, status := .pending, taskState := task.state
            transitionEventId := transition.eventId, auditEventId := event.id }, db)

def replayedRequest (db : Database) (task : Task) (existing row : ApprovalRequest) :
    Except ApprovalError ApprovalRequestResult := do
  Except.require (existing.taskId = row.taskId ∧
      existing.requestFingerprint = row.requestFingerprint)
    (.conflict "approval request id conflicts")
  let transition ← transitionEventId db row.id
  let audit ← approvalAuditEventId db task.id row.id "APPROVAL_REQUESTED"
  return { taskId := task.id, requestId := existing.id, status := existing.status
           taskState := task.state, transitionEventId := transition, auditEventId := audit
           replayed := true }

/-- Request a decision, and pause the task until it comes. -/
def ApprovalService.request (svc : ApprovalService) (rt : Runtime) (db : Database)
    (c : RequestCommand) : Except ApprovalError (ApprovalRequestResult × Database) := do
  let (reason, shape) ← checkApprovalRequest rt c
  let task ← Except.orThrow (db.tasks.get? c.taskId) (.notFound "task is unavailable")
  let existing := db.approvalRequests.get? c.requestId
  let subject ← validateExactSubject rt db task c.requestType shape.subjectId c.evidenceIds
    existing.isNone
  let row := newRequest rt c reason shape subject task.ownerId
  match existing with
  | some existing => do
    let result ← replayedRequest db task existing row
    return (result, db)
  | none => svc.openRequest rt db task c reason row

end ControlPlane
