import ControlPlane.Jobs.Progress

/-!
# Fencing the work of a task

Cancellation of a task and a change of its scope stop its work the same way: every active
job is cancelled, its lease released, and the capabilities of the jobs revoked. Here are
the transactions that do so; the evidence captured before and the cleanup after them touch
no job.
-/
namespace ControlPlane

/-- A cancelled job. -/
def BackgroundJob.fenced (job : BackgroundJob) (code : String) (now : Time) : BackgroundJob :=
  { job.unlease with
    status := .cancelled
    cancellationRequestedAt := some (job.cancellationRequestedAt.getD now)
    lastErrorCode := some code, completedAt := some now }

/-- Cancel one job if it is active, and release its lease. -/
def fenceJob (code : String) (corrupt : BackgroundJobError) (now : Time) (db : Database)
    (job : BackgroundJob) : Except BackgroundJobError Database :=
  if job.status = .queued ∨ job.status = .running then do
    if job.status = .running ∧ job.currentLeaseId.isSome then
      let lease ← Except.orThrow (currentLeaseRow db job) corrupt
      Except.require (lease.released = none) corrupt
      return db.putLeased (job.fenced code now) { lease.release now .cancelled with
        failureCode := some code, cancellationAcknowledgedAt := some now }
    else return { db with backgroundJobs := db.backgroundJobs.set (job.fenced code now) }
  else .ok db

def jobsOf (db : Database) (taskId : UUID) : List BackgroundJob :=
  db.backgroundJobs.select (·.taskId = some taskId)

/-- The live capabilities of some jobs are revoked. -/
def revokeToolGrants (db : Database) (jobIds : List UUID) (reason : String) (now : Time) :
    Database :=
  { db with
    backgroundJobToolGrants := (db.backgroundJobToolGrants.select fun grant =>
        jobIds.contains grant.jobId && grant.revoked.isNone).foldl
      (fun grants grant => grants.set { grant with revoked := some (now, reason) })
      db.backgroundJobToolGrants }

/-- The targets of a task that observe no process are dropped. -/
def cancelTargets (db : Database) (taskId : UUID) : Database :=
  { db with
    reconciliationTargets := (db.reconciliationTargets.select fun target =>
        target.taskId = some taskId && target.kind ≠ .hostProcess &&
          target.status ≠ .cancelled).foldl
      (fun targets target => targets.set { target with status := .cancelled })
      db.reconciliationTargets }

/-- Stop the jobs of a task. -/
def fenceJobs (db : Database) (taskId : UUID) (jobCode revokeReason : String)
    (corrupt : BackgroundJobError) (now : Time) : Except BackgroundJobError Database := do
  let jobs := jobsOf db taskId
  let db ← jobs.foldlM (fenceJob jobCode corrupt now) db
  return cancelTargets (revokeToolGrants db (jobs.map BackgroundJob.id) revokeReason now) taskId

/-! ### Cancellation -/

/-- The evaluator that opens no gate. -/
def closedGates : TaskTransitionGateEvaluator := fun _ _ _ _ _ => .ok {}

structure CancelCommand where
  taskId : UUID
  cancellationId : UUID
  expectedState : TaskState
  reasonCode : String
  partialEvidenceId : UUID
  /-- The event of the terminal transition, when one was recorded before. -/
  transitionEventId : Option UUID := none
  principalId : String
  activePolicyLineage : String := "mvp"
  now : Time
  fencedAt : Time
  eventId : UUID

def cancellationFingerprint (rt : Runtime) (c : CancelCommand) (reason : String) : String :=
  rt.fingerprint <| .obj
    [("cancellation_id", .str c.cancellationId.str),
      ("expected_state", .str c.expectedState.value), ("reason_code", .str reason),
      ("task_id", .str c.taskId.str)]

/-- The terminal transition of a cancellation. -/
def CancelCommand.transition (c : CancelCommand) (reason : String) : TaskTransitionCommand where
  taskId := c.taskId
  transitionId := c.cancellationId
  expectedState := c.expectedState
  kind := .cancel
  reasonCode := reason
  actorId := c.principalId
  evidenceIds := [c.partialEvidenceId]
  gateEvaluator := closedGates
  activePolicyLineage := c.activePolicyLineage
  occurredAt := c.now
  eventId := c.eventId

/-- The event of the terminal transition of a cancellation. -/
def terminalTransition (rt : Runtime) (db : Database) (c : CancelCommand) (task : Task)
    (reason : String) : Except BackgroundJobError (UUID × Database) :=
  match c.transitionEventId with
  | none => do
    let (result, db) ← Except.relabel (transitionTask rt db (c.transition reason)) .transition
    return (result.eventId, db)
  | some eventId => do
    Except.require (task.state = .cancelled ∨ task.state = .failed)
      (.conflict "terminal transition did not fence the task")
    return (eventId, db)

/-- Record a cancellation, with its terminal transition unless there was one. -/
def recordCancellation (rt : Runtime) (db : Database) (c : CancelCommand) (task : Task)
    (reason : String) : Except BackgroundJobError Database := do
  let fingerprint := cancellationFingerprint rt c reason
  match db.taskCancellations.rows.find? (·.taskId = task.id) with
  | some existing =>
    Except.require (existing.id = c.cancellationId ∧ existing.requestFingerprint = fingerprint)
      (.conflict "task cancellation conflicts")
    return db
  | none =>
    let (eventId, db) ← terminalTransition rt db c task reason
    let taskCancellations ← Except.orThrow
      (db.taskCancellations.insert?
        { id := c.cancellationId, taskId := task.id, requestFingerprint := fingerprint
          reasonCode := reason, partialEvidenceId := c.partialEvidenceId
          transitionEventId := eventId, requestedAt := c.now })
      (.integrity "task cancellation is not unique")
    return { db with taskCancellations }

/-- The transaction of a cancellation that fences the work of its task. -/
def CancellationService.cancelTask (rt : Runtime) (db : Database) (c : CancelCommand) :
    Except BackgroundJobError Database := do
  let reason := rt.unicode.upper (rt.unicode.strip c.reasonCode.toList)
  Except.require (reasonCode.fullmatch (CharClass.holds rt.unicode) reason)
    (.invalid "cancellation reason code is invalid")
  let task ← Except.orThrow (db.tasks.get? c.taskId)
    (.notFound "cancellation task is unavailable")
  let db ← recordCancellation rt db c task (String.ofList reason)
  fenceJobs db task.id "CANCELLATION_REQUESTED" "TASK_CANCELLED"
    (.conflict "cancellation lease projection is corrupt") c.fencedAt

/-! ### Scope steering -/

structure SteerCommand where
  taskId : UUID
  steeringId : UUID
  expectedState : TaskState
  ownerId : String
  evidenceId : UUID
  activePolicyLineage : String := "mvp"
  now : Time
  eventId : UUID

/-- The gates of scope steering: it has fenced the work itself. -/
def scopeSteeringGates : TaskTransitionGateEvaluator := fun _ _ _ _ _ =>
  .ok { workFenceVerified := true, scopeDecisionsInvalidated := true }

def steeringDerivedId (rt : Runtime) (steeringId : UUID) (label : String) : UUID :=
  rt.uuid5 ("mathews:steering:" ++ steeringId.str ++ ":" ++ label)

/-- Pending approvals of the task are cancelled. -/
def cancelApprovals (rt : Runtime) (db : Database) (c : SteerCommand) : Database :=
  { db with
    approvalRequests := (db.approvalRequests.select fun request =>
        request.taskId = c.taskId && request.status = .pending).foldl
      (fun requests request => requests.set { request with
        status := .cancelled, decision := some .cancel
        decisionId := some (steeringDerivedId rt c.steeringId ("approval:" ++ request.id.str)) })
      db.approvalRequests }

/-- Unresolved exhausted outages of the task are resolved without a new job. -/
def settleOutages (rt : Runtime) (db : Database) (c : SteerCommand) : Database :=
  { db with
    dependencyOutageAttempts := (db.dependencyOutageAttempts.select fun outage =>
        outage.exhausted && outage.resolvedAt.isNone &&
          ((db.backgroundJobs.get? outage.jobId).bind BackgroundJob.taskId) = some c.taskId).foldl
      (fun outages outage => outages.set { outage with
        resolvedAt := some c.now
        decisionId := some (steeringDerivedId rt c.steeringId ("outage:" ++ outage.id.str)) })
      db.dependencyOutageAttempts }

def fenceScopeWork (rt : Runtime) (db : Database) (c : SteerCommand) :
    Except BackgroundJobError Database := do
  let db ← fenceJobs db c.taskId "SCOPE_STEERED" "SCOPE_STEERED"
    (.conflict "active task lease is unavailable") c.now
  return settleOutages rt (cancelApprovals rt db c) c

/-- The transition of a change of scope. -/
def SteerCommand.transition (c : SteerCommand) : TaskTransitionCommand where
  taskId := c.taskId
  transitionId := c.steeringId
  expectedState := c.expectedState
  kind := .scopeSteer
  reasonCode := "USER_SCOPE_STEERING"
  actorId := c.ownerId
  evidenceIds := [c.evidenceId]
  gateEvaluator := scopeSteeringGates
  activePolicyLineage := c.activePolicyLineage
  occurredAt := c.now
  eventId := c.eventId

/-- What the transaction of a change of scope does to the work of the task: fence it, and
send the task back to briefing. -/
def SteeringService.steer (rt : Runtime) (db : Database) (c : SteerCommand) :
    Except BackgroundJobError Database := do
  let task ← Except.orThrow (db.tasks.get? c.taskId) (.notFound "task is unavailable")
  Except.require (task.ownerId = c.ownerId) (.notFound "task is unavailable")
  Except.require (task.state = c.expectedState) (.conflict "task state changed before steering")
  Except.require (task.state.isTerminal = false) (.conflict "terminal task cannot be steered")
  Except.require (task.state ≠ .escalated)
    (.conflict "resolve the escalation before changing scope")
  let db ← fenceScopeWork rt db c
  let (_, db) ← Except.relabel (transitionTask rt db c.transition) .transition
  return db

end ControlPlane
