import ControlPlane.Jobs.Progress

/-!
# Dependency outages

An attempt that fails on a dependency with no attempts left is escalated to a human. The
approval itself belongs to the approval service; here its request is bound to the outage,
and a decided outage is resolved: on a retry the job is resumed as a new generation under
a new identifier, with the checkpoint of the exhausted one.
-/
namespace ControlPlane

/-- The outages of a job, in the order of attempts. -/
def outagesOf (db : Database) (jobId : UUID) : List DependencyOutageAttempt :=
  let order (outage : DependencyOutageAttempt) : ℕ ×ₗ ℕ :=
    toLex (outage.attempt, outage.id.bits.toNat)
  (db.dependencyOutageAttempts.select (·.jobId = jobId)).insertionSort fun a b => order a ≤ order b

def outageApprovalId (rt : Runtime) (outage : DependencyOutageAttempt) : UUID :=
  rt.uuid5 ("mathews:outage-approval:" ++ outage.id.str)

/-- Bind the retry-limit approval to an exhausted outage, once the approval service has
recorded the request; until then the escalation remains pending. -/
def BackgroundJobService.reconcileOutageEscalation (rt : Runtime) (db : Database) (jobId : UUID) :
    Except BackgroundJobError (Option UUID × Database) := do
  let unavailable : BackgroundJobError := .notFound "background job outage is unavailable"
  let job ← Except.orThrow (db.backgroundJobs.get? jobId) unavailable
  let taskId ← Except.orThrow job.taskId unavailable
  let notExhausted : BackgroundJobError := .conflict "background job outage is not exhausted"
  let task ← Except.orThrow (db.tasks.get? taskId) notExhausted
  let latest ← Except.orThrow (outagesOf db job.id).getLast? notExhausted
  Except.require (latest.exhausted = true) notExhausted
  match latest.approvalRequestId with
  | some requestId => return (some requestId, db)
  | none =>
    let requestId := outageApprovalId rt latest
    if task.state.isTerminal || (db.approvalRequests.get? requestId).isNone then
      return (none, db)
    else
      return (some requestId, { db with
        dependencyOutageAttempts :=
          db.dependencyOutageAttempts.set { latest with approvalRequestId := some requestId } })

structure OutageDecisionCommand where
  limit : ℕ := 100
  locked : List UUID := []
  /-- The readings of the clock, one for each outage. -/
  clock : ℕ → Time
  /-- The identifier for a job resumed from an outage. -/
  jobId : UUID → UUID

/-- The unresolved exhausted outages whose approval is decided, in the order they
occurred. -/
def decidedOutages (db : Database) (c : OutageDecisionCommand) : List DependencyOutageAttempt :=
  ((db.dependencyOutageAttempts.select fun outage =>
    outage.exhausted && outage.resolvedAt.isNone && !c.locked.contains outage.id &&
      ((outage.approvalRequestId.bind db.approvalRequests.get?).any
        fun request => request.status ≠ .pending)).insertionSort
          fun a b => a.occurredAt ≤ b.occurredAt).take c.limit

def resumeKey (decisionId : UUID) : String := "outage-resume:" ++ decisionId.str

/-- The next generation of an exhausted job. -/
def BackgroundJob.resumed (rt : Runtime) (job : BackgroundJob) (taskId decisionId newId : UUID)
    (policy : RetryPolicy) (now : Time) : BackgroundJob where
  id := newId
  taskId := some taskId
  jobType := job.jobType
  inputPayload := job.inputPayload
  inputFingerprint := scheduleFingerprint rt taskId job.jobType job.inputPayload policy none
  idempotencyKey := resumeKey decisionId
  maxAttempts := policy.maxAttempts
  retryBaseSeconds := policy.baseDelaySeconds
  retryMaxSeconds := policy.maxDelaySeconds
  availableAt := now
  checkpoint := job.checkpoint
  checkpointVersion := job.checkpointVersion
  createdAt := now
  ownerId := job.ownerId
  rootCorrelationId := job.rootCorrelationId
  causationId := some decisionId
  parentCorrelationId := some job.id

/-- The job that resumes an exhausted one after a decision, created on first use. -/
def resumeJob (rt : Runtime) (db : Database) (job : BackgroundJob) (taskId decisionId newId : UUID)
    (now : Time) : Except BackgroundJobError (UUID × Database) :=
  match jobOfKey db (resumeKey decisionId) with
  | some existing => do
    Except.require (existing.taskId = job.taskId ∧ existing.parentCorrelationId = some job.id)
      (.conflict "background job outage resume key conflicts")
    return (existing.id, db)
  | none => do
    let policy ← job.retryPolicy
    let resumed := job.resumed rt taskId decisionId newId policy now
    let backgroundJobs ← Except.orThrow (db.backgroundJobs.insert? resumed)
      (.integrity "background job is not unique")
    return (resumed.id, { db with backgroundJobs })

/-- What a decision on an outage resumes. -/
def resumeOnRetry (rt : Runtime) (db : Database) (decision : ApprovalDecision)
    (job : BackgroundJob) (taskId decisionId newId : UUID) (now : Time) :
    Except BackgroundJobError (Option UUID × Database) :=
  if decision = .retry then do
    let (resumedId, db) ← resumeJob rt db job taskId decisionId newId now
    return (some resumedId, db)
  else .ok (none, db)

/-- Resolve one decided outage. -/
def resolveOutage (rt : Runtime) (c : OutageDecisionCommand) (db : Database)
    (entry : DependencyOutageAttempt × ℕ) : Except BackgroundJobError Database := do
  let (outage, i) := entry
  let corrupt : BackgroundJobError := .conflict "background job outage decision is corrupt"
  let request ← Except.orThrow (outage.approvalRequestId.bind db.approvalRequests.get?) corrupt
  let job ← Except.orThrow (db.backgroundJobs.get? outage.jobId) corrupt
  let decisionId ← Except.orThrow request.decisionId corrupt
  let decision ← Except.orThrow request.decision corrupt
  let taskId ← Except.orThrow job.taskId corrupt
  let now := c.clock i
  let (resumedJobId, db) ←
    resumeOnRetry rt db decision job taskId decisionId (c.jobId outage.id) now
  return { db with
    dependencyOutageAttempts := db.dependencyOutageAttempts.set
      { outage with resolvedAt := some now, decisionId := some decisionId, resumedJobId } }

/-- Resume an approved outage as a new immutable job generation. Tasks that a decision
ended are fenced by the cancellation service afterwards, in steps of its own. -/
def BackgroundJobService.reconcileOutageDecisions (rt : Runtime) (db : Database)
    (c : OutageDecisionCommand) : Except BackgroundJobError (List UUID × Database) := do
  Except.require (1 ≤ c.limit ∧ c.limit ≤ maxRecoveryBatchSize)
    (.invalid "background job recovery limit must be between 1 and 1000")
  let outages := decidedOutages db c
  let db ← outages.zipIdx.foldlM (resolveOutage rt c) db
  return (outages.map DependencyOutageAttempt.id, db)

end ControlPlane
