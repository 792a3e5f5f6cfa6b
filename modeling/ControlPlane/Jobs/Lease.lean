import ControlPlane.Jobs.Command
import Mathlib.Data.Prod.Lex

/-!
# Scheduling and leasing of background jobs

Jobs are scheduled once under an idempotency key, claimed by workers under a lease with a
fencing token, and returned to the queue when a lease expires. Every operation is one
transaction: it returns the store it commits, or an error and nothing is committed.

Fresh identifiers and readings of the clock are arguments of the commands.
-/
namespace ControlPlane

/-- The service: who it acts as, and the gates its task transitions pass. -/
structure BackgroundJobService where
  principalId : String
  gateEvaluator : TaskTransitionGateEvaluator

/-- Stable result of one idempotent schedule command. -/
structure ScheduledJob where
  jobId : UUID
  replayed : Bool
  deriving DecidableEq

/-- Complete lease identity required by every fenced mutation. -/
structure JobLeaseGrant where
  jobId : UUID
  taskId : UUID
  leaseId : UUID
  workerId : String
  attempt : ℕ
  fencingToken : ℕ
  expiresAt : Time
  jobType : String
  inputPayload : Json
  checkpoint : Option Json
  checkpointVersion : ℕ
  recovered : Bool

/-! ### Rows -/

/-- A job and a lease written back. -/
def Database.putLeased (db : Database) (job : BackgroundJob) (lease : BackgroundJobLease) :
    Database :=
  { db with
    backgroundJobs := db.backgroundJobs.set job
    backgroundJobLeases := db.backgroundJobLeases.set lease }

def BackgroundJobLease.release (lease : BackgroundJobLease) (now : Time) (reason : ReleaseReason) :
    BackgroundJobLease :=
  { lease with released := some (now, reason) }

/-- A job without the projection of a lease. -/
def BackgroundJob.unlease (job : BackgroundJob) : BackgroundJob :=
  { job with
    currentLeaseId := none, currentFencingToken := none, leaseOwner := none
    leaseExpiresAt := none }

def finishJob (job : BackgroundJob) (status : BackgroundJobStatus) (errorCode : Option String)
    (token : ℕ) (completedAt : Time) : BackgroundJob :=
  { job.unlease with
    status, lastFencingToken := some token, lastErrorCode := errorCode
    completedAt := some completedAt }

/-- The states of a task in which none of its jobs is scheduled or claimed. -/
def TaskState.blocksJobs : TaskState → Bool
  | briefPendingApproval | escalated | handedOff | failed | cancelled => true
  | _ => false

/-- Whether an exhausted outage of a job of the task awaits its resolution. -/
def hasUnresolvedOutage (db : Database) (taskId : UUID) : Bool :=
  db.dependencyOutageAttempts.rows.any fun outage =>
    outage.exhausted && outage.resolvedAt.isNone &&
      ((db.backgroundJobs.get? outage.jobId).bind BackgroundJob.taskId) = some taskId

def jobOfKey (db : Database) (idempotencyKey : String) : Option BackgroundJob :=
  db.backgroundJobs.rows.find? (·.idempotencyKey = idempotencyKey)

/-- The fencing counter, created on first use. -/
def ensureFencingCounter (db : Database) : Database :=
  { db with fencingCounter := some (db.fencingCounter.getD 1) }

/-! ### Scheduling -/

structure ScheduleCommand where
  taskId : UUID
  jobType : String
  idempotencyKey : String
  inputPayload : Json
  retryPolicy : RetryPolicy := {}
  availableAt : Option Time := none
  taskValidator : Database → Task → Except BackgroundJobError Unit := fun _ _ => .ok ()
  now : Time
  jobId : UUID

def matchingSchedule (job : BackgroundJob) (taskId : UUID) (jobType fingerprint : String) :
    Except BackgroundJobError ScheduledJob := do
  Except.require (job.taskId = some taskId ∧ job.jobType = jobType ∧
      job.inputFingerprint = fingerprint)
    (.conflict "background job idempotency key was used for a different command")
  return { jobId := job.id, replayed := true }

/-- The row a schedule command inserts. -/
def ScheduleCommand.job (c : ScheduleCommand) (task : Task) (jobType key : String) (payload : Json)
    (fingerprint : String) : BackgroundJob where
  id := c.jobId
  taskId := some task.id
  jobType := jobType
  inputPayload := payload
  inputFingerprint := fingerprint
  idempotencyKey := key
  maxAttempts := c.retryPolicy.maxAttempts
  retryBaseSeconds := c.retryPolicy.baseDelaySeconds
  retryMaxSeconds := c.retryPolicy.maxDelaySeconds
  availableAt := c.availableAt.getD c.now
  createdAt := c.now
  ownerId := task.ownerId
  rootCorrelationId := task.rootCorrelationId

def BackgroundJobService.schedule (rt : Runtime) (db : Database) (c : ScheduleCommand) :
    Except BackgroundJobError (ScheduledJob × Database) := do
  let jobType ← requiredIdentifier rt c.jobType "type" maxJobIdentifierLength
  let key ← requiredIdentifier rt c.idempotencyKey "idempotency key" maxIdempotencyKeyLength
  let payload ← safePayload rt c.inputPayload "input"
  let fingerprint := scheduleFingerprint rt c.taskId jobType payload c.retryPolicy c.availableAt
  let task ← Except.orThrow (db.tasks.get? c.taskId)
    (.notFound "background job task is unavailable")
  c.taskValidator db task
  match jobOfKey db key with
  | some existing => return (← matchingSchedule existing c.taskId jobType fingerprint, db)
  | none =>
    Except.require (task.state.blocksJobs = false)
      (.conflict "background job task is not runnable")
    Except.require (hasUnresolvedOutage db task.id = false)
      (.conflict "background job task has an unresolved outage")
    let job := c.job task jobType key payload fingerprint
    let backgroundJobs ← Except.orThrow (db.backgroundJobs.insert? job)
      (.integrity "background job is not unique")
    return ({ jobId := job.id, replayed := false },
      ensureFencingCounter { db with backgroundJobs })

/-! ### Claiming -/

structure ClaimCommand where
  workerId : String
  leaseDuration : Time
  jobTypes : List String := []
  /-- Rows that another transaction has locked, which the query skips. -/
  locked : List UUID := []
  /-- The readings of the clock, one after another. -/
  clock : ℕ → Time
  leaseId : UUID

/-- A running job whose lease has run out. -/
def BackgroundJob.leaseExpired (job : BackgroundJob) (now : Time) : Bool :=
  job.status = .running && job.leaseExpiresAt.any (· ≤ now)

/-- An unresolved reconciliation of the job or of its task. -/
def reconciliationBlocks (db : Database) (job : BackgroundJob) : Bool :=
  db.reconciliationTargets.rows.any fun target =>
    (target.jobId = some job.id || (target.taskId.isSome && target.taskId = job.taskId)) &&
      [.updated, .retryRequired, .quarantined].contains target.status

/-- A pending target becomes a restart fence once its owning lease expires. -/
def restartFenced (db : Database) (job : BackgroundJob) (now : Time) : Bool :=
  db.reconciliationTargets.rows.any fun target =>
    target.status = .pending && (target.jobId.bind db.backgroundJobs.get?).any fun owner =>
      owner.taskId = job.taskId && owner.leaseExpired now

def claimable (db : Database) (now : Time) (job : BackgroundJob) : Bool :=
  job.cancellationRequestedAt.isNone &&
  job.taskId.any (fun taskId =>
    (db.tasks.get? taskId).any (fun task => !task.state.blocksJobs) &&
      !hasUnresolvedOutage db taskId) &&
  !reconciliationBlocks db job && !restartFenced db job now &&
  ((job.status = .queued && job.attemptCount < job.maxAttempts && job.availableAt ≤ now) ||
    job.leaseExpired now)

/-- The job a claim takes: the first in the order of availability, creation, identifier. -/
def nextClaimable (db : Database) (jobTypes : List String) (locked : List UUID) (now : Time) :
    Option BackgroundJob :=
  let order (job : BackgroundJob) : ℕ ×ₗ ℕ ×ₗ ℕ :=
    toLex (job.availableAt, toLex (job.createdAt, job.id.bits.toNat))
  ((db.backgroundJobs.select fun job =>
    claimable db now job && (jobTypes.isEmpty || jobTypes.contains job.jobType) &&
      !locked.contains job.id).insertionSort fun a b => order a ≤ order b).head?

/-- The row of the lease a job names. -/
def currentLeaseRow (db : Database) (job : BackgroundJob) : Option BackgroundJobLease := do
  let leaseId ← job.currentLeaseId
  let lease ← db.backgroundJobLeases.get? leaseId
  if lease.jobId = job.id ∧ job.currentFencingToken = some lease.fencingToken then some lease
  else none

def grantOf (job : BackgroundJob) (lease : BackgroundJobLease) (recovered : Bool) :
    Except BackgroundJobError JobLeaseGrant := do
  let taskId ← Except.orThrow job.taskId (.conflict "background job has no task binding")
  return { jobId := job.id, taskId, leaseId := lease.id, workerId := lease.leaseOwner,
           attempt := lease.attempt, fencingToken := lease.fencingToken,
           expiresAt := lease.expiresAt, jobType := job.jobType,
           inputPayload := job.inputPayload, checkpoint := job.checkpoint,
           checkpointVersion := job.checkpointVersion, recovered }

/-- A checked claim. -/
structure ClaimRequest where
  workerId : String
  duration : Time
  jobTypes : List String
  locked : List UUID
  clock : ℕ → Time
  leaseId : UUID

/-- The lease a claim issues. -/
def ClaimRequest.lease (r : ClaimRequest) (rt : Runtime) (db : Database) (job : BackgroundJob)
    (now : Time) : BackgroundJobLease :=
  let token := db.fencingCounter.getD 1
  let attempt :=
    maxRank BackgroundJobLease.attempt (db.backgroundJobLeases.select (·.jobId = job.id)) + 1
  { id := r.leaseId
    jobId := job.id
    leaseOwner := r.workerId
    attempt
    fencingToken := token
    idempotencyKey := job.id.str ++ ":lease:" ++ toString attempt
    claimFingerprint := leaseFingerprint rt job r.leaseId r.workerId attempt token
    heartbeatAt := now
    expiresAt := now + r.duration
    checkpoint := job.checkpoint
    checkpointVersion := job.checkpointVersion }

/-- A job under a new lease. -/
def BackgroundJob.leaseTo (job : BackgroundJob) (lease : BackgroundJobLease) : BackgroundJob :=
  { job with
    status := .running
    attemptCount := job.attemptCount + 1
    currentLeaseId := some lease.id
    currentFencingToken := some lease.fencingToken
    leaseOwner := some lease.leaseOwner
    leaseExpiresAt := some lease.expiresAt
    lastFencingToken := some lease.fencingToken
    lastErrorCode := none }

/-- Take the next token and lease a job under it. -/
def issueLease (rt : Runtime) (db : Database) (r : ClaimRequest) (job : BackgroundJob)
    (now : Time) (recovered : Bool) :
    Except BackgroundJobError (Option JobLeaseGrant × Database) := do
  let lease := r.lease rt db job now
  let backgroundJobLeases ← Except.orThrow (db.backgroundJobLeases.insert? lease)
    (.integrity "background job lease is not unique")
  let grant ← grantOf (job.leaseTo lease) lease recovered
  return (some grant, { db with
    fencingCounter := some (lease.fencingToken + 1)
    backgroundJobLeases
    backgroundJobs := db.backgroundJobs.set (job.leaseTo lease) })

/-- The scan of a claim. An expired job without attempts left is failed and the scan goes
on, so that the number of running jobs bounds the rounds. -/
def claimLoop (rt : Runtime) (r : ClaimRequest) : ℕ → ℕ → Database →
    Except BackgroundJobError (Option JobLeaseGrant × Database)
  | 0, _, db => .ok (none, db)
  | rounds + 1, reading, db =>
    match nextClaimable db r.jobTypes r.locked (r.clock reading) with
    | none => .ok (none, db)
    | some job =>
      if job.status = .running then do
        let previous ← Except.orThrow (currentLeaseRow db job)
          (.conflict "background job active lease projection is corrupt")
        let now := r.clock (reading + 1)
        if job.leaseExpiresAt.any (now < ·) then
          return (none, db)
        else if job.maxAttempts ≤ job.attemptCount then
          claimLoop rt r rounds (reading + 2) <|
            db.putLeased
              (finishJob job .failed (some "LEASE_EXPIRED_ATTEMPTS_EXHAUSTED")
                previous.fencingToken now)
              { previous.release now .expired with
                failureCode := some "LEASE_EXPIRED_ATTEMPTS_EXHAUSTED" }
        else
          issueLease rt
            { db with
              backgroundJobLeases := db.backgroundJobLeases.set (previous.release now .superseded) }
            r job (r.clock (reading + 2)) true
      else issueLease rt db r job (r.clock (reading + 2)) false

/-- Running jobs; a scan fails at most these. -/
def runningJobs (db : Database) : ℕ := db.backgroundJobs.rows.countP (·.status = .running)

def BackgroundJobService.claimNext (rt : Runtime) (db : Database) (c : ClaimCommand) :
    Except BackgroundJobError (Option JobLeaseGrant × Database) := do
  let workerId ← requiredIdentifier rt c.workerId "worker" 255
  let duration ← leaseDuration c.leaseDuration
  let jobTypes ← c.jobTypes.mapM fun jobType =>
    requiredIdentifier rt jobType "type" maxJobIdentifierLength
  claimLoop rt ⟨workerId, duration, jobTypes, c.locked, c.clock, c.leaseId⟩
    (runningJobs db + 1) 0 db

/-! ### Expired leases -/

/-- Release the expired lease of one job. -/
def releaseExpired (now : Time) (db : Database) (job : BackgroundJob) :
    Except BackgroundJobError Database := do
  let corrupt : BackgroundJobError :=
    .conflict "background job active lease projection is corrupt"
  let lease ← Except.orThrow (currentLeaseRow db job) corrupt
  Except.require (lease.released = none) corrupt
  let cancelled := job.cancellationRequestedAt.isSome
  let exhausted := decide (job.maxAttempts ≤ job.attemptCount)
  let failureCode :=
    if cancelled then "CANCELLATION_REQUESTED"
    else if exhausted then "LEASE_EXPIRED_ATTEMPTS_EXHAUSTED"
    else "LEASE_EXPIRED"
  let finished (status : BackgroundJobStatus) :=
    finishJob job status (some failureCode) lease.fencingToken now
  let job :=
    if cancelled then finished .cancelled
    else if exhausted then finished .failed
    else { finished .queued with availableAt := now, completedAt := none }
  return db.putLeased job
    { lease.release now (if cancelled then .cancelled else .expired) with
      failureCode := some failureCode
      cancellationAcknowledgedAt := if cancelled then some now else none }

structure ReconcileCommand where
  limit : ℕ := 100
  locked : List UUID := []
  now : Time

/-- The running jobs whose lease has run out, in the order of expiry. -/
def expiredJobs (db : Database) (c : ReconcileCommand) : List BackgroundJob :=
  let order (job : BackgroundJob) : ℕ ×ₗ ℕ ×ₗ ℕ :=
    toLex (job.leaseExpiresAt.getD 0, toLex (job.createdAt, job.id.bits.toNat))
  ((db.backgroundJobs.select fun job =>
    job.leaseExpired c.now && !c.locked.contains job.id).insertionSort
      fun a b => order a ≤ order b).take c.limit

/-- Release expired ownership without issuing any replacement effect. -/
def BackgroundJobService.reconcileExpiredLeases (db : Database) (c : ReconcileCommand) :
    Except BackgroundJobError (List UUID × Database) := do
  Except.require (1 ≤ c.limit ∧ c.limit ≤ maxRecoveryBatchSize)
    (.invalid "background job recovery limit must be between 1 and 1000")
  let jobs := expiredJobs db c
  let db ← jobs.foldlM (releaseExpired c.now) db
  return (jobs.map BackgroundJob.id, db)

/-! ### The fence -/

/-- A grant is current: its job runs under exactly this lease, which is neither released
nor expired, and no cancellation was requested. -/
structure HoldsLease (db : Database) (grant : JobLeaseGrant) (now : Time) (job : BackgroundJob)
    (lease : BackgroundJobLease) : Prop where
  job_eq : db.backgroundJobs.get? grant.jobId = some job
  lease_eq : db.backgroundJobLeases.get? grant.leaseId = some lease
  running : job.status = .running
  taskId : job.taskId = some grant.taskId
  current : job.currentLeaseId = some grant.leaseId
  token : job.currentFencingToken = some grant.fencingToken
  owner : job.leaseOwner = some grant.workerId
  live : ∃ expiry, job.leaseExpiresAt = some expiry ∧ now < expiry
  uncancelled : job.cancellationRequestedAt = none
  lease_job : lease.jobId = grant.jobId
  lease_owner : lease.leaseOwner = grant.workerId
  lease_attempt : lease.attempt = grant.attempt
  lease_token : lease.fencingToken = grant.fencingToken
  unreleased : lease.released = none
  lease_live : now < lease.expiresAt

def currentLease (db : Database) (grant : JobLeaseGrant) (now : Time) :
    Except BackgroundJobError (BackgroundJob × BackgroundJobLease) := do
  let lost : BackgroundJobError := .leaseLost "background job lease is no longer current"
  let job ← Except.orThrow (db.backgroundJobs.get? grant.jobId) lost
  let expiry ← Except.orThrow job.leaseExpiresAt lost
  Except.require (job.status = .running ∧ job.taskId = some grant.taskId ∧
      job.currentLeaseId = some grant.leaseId ∧
      job.currentFencingToken = some grant.fencingToken ∧
      job.leaseOwner = some grant.workerId ∧ job.cancellationRequestedAt = none) lost
  let lease ← Except.orThrow (db.backgroundJobLeases.get? grant.leaseId) lost
  Except.require (lease.jobId = grant.jobId ∧ lease.leaseOwner = grant.workerId ∧
      lease.attempt = grant.attempt ∧ lease.fencingToken = grant.fencingToken ∧
      lease.released = none ∧ now < expiry ∧ now < lease.expiresAt) lost
  return (job, lease)

theorem currentLease_ok {db : Database} {grant : JobLeaseGrant} {now : Time} {job : BackgroundJob}
    {lease : BackgroundJobLease} :
    currentLease db grant now = .ok (job, lease) ↔ HoldsLease db grant now job lease := by
  simp only [currentLease, Except.bind_eq_ok, Except.orThrow_eq_ok, Except.require_eq_ok,
    Except.pure_eq_ok, Prod.mk.injEq]
  constructor
  · rintro ⟨_, hjob, expiry, hexpiry, _, ⟨hrun, htask, hcur, htok, hown, hcancel⟩, _, hlease, _,
      ⟨hljob, hlown, hlatt, hltok, hrel, hlive, hllive⟩, rfl, rfl⟩
    exact ⟨hjob, hlease, hrun, htask, hcur, htok, hown, ⟨expiry, hexpiry, hlive⟩, hcancel, hljob,
      hlown, hlatt, hltok, hrel, hllive⟩
  · intro h
    have hlive := h.live
    rcases hlive with ⟨expiry, hexpiry, hlt⟩
    exact ⟨job, h.job_eq, expiry, hexpiry, (), ⟨h.running, h.taskId, h.current, h.token, h.owner,
      h.uncancelled⟩, lease, h.lease_eq, (), ⟨h.lease_job, h.lease_owner, h.lease_attempt,
      h.lease_token, h.unreleased, hlt, h.lease_live⟩, rfl, rfl⟩

/-! ### Heartbeats -/

def BackgroundJobService.heartbeat (db : Database) (grant : JobLeaseGrant) (now duration : Time) :
    Except BackgroundJobError (JobLeaseGrant × Database) := do
  let duration ← leaseDuration duration
  let (job, lease) ← currentLease db grant now
  let expiresAt := max lease.expiresAt (now + duration)
  let lease := { lease with heartbeatAt := now, expiresAt }
  let job := { job with
    leaseExpiresAt := some expiresAt, lastFencingToken := some grant.fencingToken }
  return (← grantOf job lease grant.recovered, db.putLeased job lease)

end ControlPlane
