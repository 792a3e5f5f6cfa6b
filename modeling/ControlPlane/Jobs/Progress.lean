import ControlPlane.Jobs.Lease

/-!
# Progress under a lease

What a worker does while it holds a lease: append checkpoints, prepare external effects
and record their results, finish or give up its attempt, and transition the task. Every
operation begins with the fence `currentLease`; the one that does not, `recordIgnoredResult`,
stores a late result as evidence.
-/
namespace ControlPlane

/-! ### Checkpoints -/

/-- Accepted append-only checkpoint and current projection version. -/
structure JobCheckpointResult where
  checkpointId : UUID
  sequence : ℕ
  replayed : Bool
  deriving DecidableEq

/-- Progress to append, checked. -/
structure CheckpointEntry where
  expectedVersion : ℕ
  idempotencyKey : String
  payload : Json
  fingerprint : String
  checkpointId : UUID

/-- A job that has reached a checkpoint. -/
def BackgroundJob.atCheckpoint (job : BackgroundJob) (entry : CheckpointEntry) (token : ℕ) :
    BackgroundJob :=
  { job with
    checkpoint := some entry.payload, checkpointVersion := entry.expectedVersion + 1
    lastFencingToken := some token }

/-- A lease under which a checkpoint was reached. -/
def BackgroundJobLease.atCheckpoint (lease : BackgroundJobLease) (entry : CheckpointEntry) :
    BackgroundJobLease :=
  { lease with checkpoint := some entry.payload, checkpointVersion := entry.expectedVersion + 1 }

def checkpointOfKey (db : Database) (idempotencyKey : String) : Option BackgroundJobCheckpoint :=
  db.backgroundJobCheckpoints.rows.find? (·.idempotencyKey = idempotencyKey)

/-- Append a checkpoint; the job and its lease carry it afterwards. -/
def appendCheckpoint (db : Database) (job : BackgroundJob) (lease : BackgroundJobLease)
    (entry : CheckpointEntry) (now : Time) :
    Except BackgroundJobError
      (JobCheckpointResult × BackgroundJob × BackgroundJobLease × Database) :=
  let sequence := entry.expectedVersion + 1
  match checkpointOfKey db entry.idempotencyKey with
  | some existing => do
    Except.require (existing.jobId = job.id ∧ existing.sequence = sequence ∧
        existing.payloadFingerprint = entry.fingerprint ∧ existing.payload.pyEq entry.payload = true)
      (.conflict "background job checkpoint key was used for different progress")
    return ({ checkpointId := existing.id, sequence := existing.sequence, replayed := true },
      job, lease, db)
  | none => do
    Except.require (job.checkpointVersion = entry.expectedVersion)
      (.conflict "background job checkpoint version changed")
    let checkpoint : BackgroundJobCheckpoint :=
      { id := entry.checkpointId, jobId := job.id, leaseId := lease.id
        fencingToken := lease.fencingToken, sequence, idempotencyKey := entry.idempotencyKey
        payloadFingerprint := entry.fingerprint, payload := entry.payload, recordedAt := now }
    let backgroundJobCheckpoints ← Except.orThrow (db.backgroundJobCheckpoints.insert? checkpoint)
      (.integrity "background job checkpoint is not unique")
    let job := job.atCheckpoint entry lease.fencingToken
    let lease := lease.atCheckpoint entry
    return ({ checkpointId := checkpoint.id, sequence, replayed := false }, job, lease,
      { db with backgroundJobCheckpoints }.putLeased job lease)

/-- Progress to append. -/
structure CheckpointCommand where
  expectedVersion : ℕ
  idempotencyKey : String
  payload : Json
  checkpointId : UUID

def CheckpointCommand.check (rt : Runtime) (c : CheckpointCommand) :
    Except BackgroundJobError CheckpointEntry := do
  let key ← requiredIdentifier rt c.idempotencyKey "checkpoint idempotency key"
    maxIdempotencyKeyLength
  let payload ← safePayload rt c.payload "checkpoint"
  return { expectedVersion := c.expectedVersion, idempotencyKey := key, payload
           fingerprint := rt.fingerprint payload, checkpointId := c.checkpointId }

def BackgroundJobService.checkpoint (rt : Runtime) (db : Database) (grant : JobLeaseGrant)
    (now : Time) (c : CheckpointCommand) :
    Except BackgroundJobError (JobCheckpointResult × Database) := do
  let entry ← c.check rt
  let (job, lease) ← currentLease db grant now
  let (result, _, _, db) ← appendCheckpoint db job lease entry now
  return (result, db)

/-! ### Effects -/

/-- Durable effect intent safe to execute or reconcile outside the database. -/
structure PreparedJobEffect where
  effectId : UUID
  idempotencyKey : String
  effectType : String
  requestPayload : Json
  status : BackgroundJobEffectStatus
  resultPayload : Option Json
  created : Bool
  needsReconciliation : Bool

def preparedEffect (effect : BackgroundJobEffect) (created needsReconciliation : Bool) :
    PreparedJobEffect :=
  { effectId := effect.id, idempotencyKey := effect.idempotencyKey
    effectType := effect.effectType, requestPayload := effect.requestPayload
    status := effect.status, resultPayload := effect.resultPayload, created, needsReconciliation }

/-- The pending effects of a job, in the order they were started. -/
def pendingEffects (db : Database) (jobId : UUID) : List BackgroundJobEffect :=
  let order (effect : BackgroundJobEffect) : ℕ ×ₗ ℕ :=
    toLex (effect.startedAt, effect.id.bits.toNat)
  (db.backgroundJobEffects.select fun effect =>
    effect.jobId = jobId && effect.status = .pending).insertionSort fun a b => order a ≤ order b

def effectOfKey (db : Database) (idempotencyKey : String) : Option BackgroundJobEffect :=
  db.backgroundJobEffects.rows.find? (·.idempotencyKey = idempotencyKey)

def mustReconcileFirst : BackgroundJobError :=
  .ambiguousEffect "a prepared background job effect must be reconciled first"

structure EffectCommand where
  effectKey : String
  effectType : String
  requestPayload : Json
  effectId : UUID

/-- A checked effect intent. -/
structure EffectRequest where
  effectKey : String
  effectType : String
  payload : Json
  fingerprint : String
  effectId : UUID

def EffectCommand.check (rt : Runtime) (c : EffectCommand) :
    Except BackgroundJobError EffectRequest := do
  let effectKey ← requiredIdentifier rt c.effectKey "effect key" maxJobIdentifierLength
  let effectType ← requiredIdentifier rt c.effectType "effect type" maxJobIdentifierLength
  let payload ← safePayload rt c.requestPayload "effect request"
  return { effectKey, effectType, payload
           fingerprint := effectFingerprint rt effectType effectKey payload
           effectId := c.effectId }

/-- The pending row an effect intent inserts. -/
def EffectRequest.effect (r : EffectRequest) (job : BackgroundJob) (lease : BackgroundJobLease)
    (now : Time) : BackgroundJobEffect where
  id := r.effectId
  jobId := job.id
  effectType := r.effectType
  idempotencyKey := providerKey job.id r.effectKey
  requestFingerprint := r.fingerprint
  requestPayload := r.payload
  startedLeaseId := lease.id
  startedFencingToken := lease.fencingToken
  startedAt := now

def BackgroundJobService.prepareEffect (rt : Runtime) (db : Database) (grant : JobLeaseGrant)
    (now : Time) (c : EffectCommand) :
    Except BackgroundJobError (PreparedJobEffect × Database) := do
  let r ← c.check rt
  let (job, lease) ← currentLease db grant now
  let key := providerKey job.id r.effectKey
  let pending := (pendingEffects db job.id).head?
  Except.require (pending.all (·.idempotencyKey = key) = true) mustReconcileFirst
  match pending <|> effectOfKey db key with
  | some existing =>
    Except.require (existing.jobId = job.id ∧ existing.effectType = r.effectType ∧
        existing.requestFingerprint = r.fingerprint ∧
        existing.requestPayload.pyEq r.payload = true)
      (.conflict "background job effect key was used for a different request")
    return (preparedEffect existing false (existing.status = .pending), db)
  | none =>
    let effect := r.effect job lease now
    let backgroundJobEffects ← Except.orThrow (db.backgroundJobEffects.insert? effect)
      (.integrity "background job effect is not unique")
    return (preparedEffect effect true false, { db with backgroundJobEffects })

/-- Normalized external-effect observation returned by an adapter. -/
structure EffectExecutionResult where
  succeeded : Bool
  payload : Json

/-- The row of an effect whose result a lease recorded. -/
def BackgroundJobEffect.complete (effect : BackgroundJobEffect) (lease : BackgroundJobLease)
    (status : BackgroundJobEffectStatus) (payload : Json) (now : Time) : BackgroundJobEffect :=
  { effect with
    status, completionLeaseId := some lease.id, completionFencingToken := some lease.fencingToken
    resultPayload := some payload, completedAt := some now }

/-- The status a result gives its effect. -/
def EffectExecutionResult.status (result : EffectExecutionResult) : BackgroundJobEffectStatus :=
  if result.succeeded then .succeeded else .failed

/-- Record the result of a pending effect; a settled one must have the same result. -/
def settleEffect (db : Database) (effect : BackgroundJobEffect) (lease : BackgroundJobLease)
    (status : BackgroundJobEffectStatus) (payload : Json) (now : Time) :
    Except BackgroundJobError Database :=
  if effect.status = .pending then
    .ok { db with
      backgroundJobEffects :=
        db.backgroundJobEffects.set (effect.complete lease status payload now) }
  else do
    Except.require (effect.status = status ∧ effect.resultPayload.any (·.pyEq payload) = true)
      (.conflict "background job effect result conflicts")
    return db

structure EffectResultCommand where
  effectId : UUID
  result : EffectExecutionResult
  checkpoint : CheckpointCommand

def BackgroundJobService.recordEffectResult (rt : Runtime) (db : Database) (grant : JobLeaseGrant)
    (now : Time) (c : EffectResultCommand) :
    Except BackgroundJobError (JobCheckpointResult × Database) := do
  let result ← safePayload rt c.result.payload "effect result"
  let entry ← c.checkpoint.check rt
  let (job, lease) ← currentLease db grant now
  let unavailable : BackgroundJobError := .notFound "background job effect is unavailable"
  let effect ← Except.orThrow (db.backgroundJobEffects.get? c.effectId) unavailable
  Except.require (effect.jobId = job.id) unavailable
  let db ← settleEffect db effect lease c.result.status result now
  let (result, _, _, db) ← appendCheckpoint db job lease entry now
  return (result, db)

/-! ### Late results -/

/-- Evidence reference for a late result that could not mutate job truth. -/
structure IgnoredResult where
  ignoredResultId : UUID
  evidenceId : UUID
  reasonCode : String
  replayed : Bool
  deriving DecidableEq

structure IgnoredResultCommand where
  idempotencyKey : String
  effectId : Option UUID
  result : EffectExecutionResult

/-- The row of the historical lease a grant names. -/
def historicalLease (db : Database) (grant : JobLeaseGrant) : Option BackgroundJobLease :=
  (db.backgroundJobLeases.get? grant.leaseId).filter fun lease =>
    lease.jobId = grant.jobId && lease.leaseOwner = grant.workerId &&
      lease.attempt = grant.attempt && lease.fencingToken = grant.fencingToken

def stillCurrent (job : BackgroundJob) (lease : BackgroundJobLease) (grant : JobLeaseGrant)
    (now : Time) : Bool :=
  job.status = .running && job.currentLeaseId = some grant.leaseId &&
    job.currentFencingToken = some grant.fencingToken && job.cancellationRequestedAt.isNone &&
    lease.released.isNone && job.leaseExpiresAt.any (now < ·) && now < lease.expiresAt

def ignoredResultFingerprint (rt : Runtime) (grant : JobLeaseGrant) (c : IgnoredResultCommand) :
    String :=
  rt.fingerprint <| .obj
    [("effect_id", optionalId c.effectId), ("lease_id", .str grant.leaseId.str),
      ("result_fingerprint", .str (rt.fingerprint c.result.payload)),
      ("succeeded", .bool c.result.succeeded)]

/-- The evidence of a late result. -/
def ignoredResultCapture (rt : Runtime) (service : BackgroundJobService) (job : BackgroundJob)
    (lease : BackgroundJobLease) (grant : JobLeaseGrant) (c : IgnoredResultCommand)
    (key reasonCode : String) (result : Json) (now : Time) : EvidenceCapture where
  payload := .obj
    [("effect_id", optionalId c.effectId), ("fencing_token", .int grant.fencingToken),
      ("job_id", .str job.id.str), ("lease_id", .str lease.id.str),
      ("reason_code", .str reasonCode), ("result", boundedEvidencePayload rt result),
      ("succeeded", .bool c.result.succeeded)]
  sourceKind := .result
  evidenceType := "ignored-job-result"
  origin := "background-job:" ++ job.id.str ++ ":late-result"
  accessClassification := .taskOwner
  retentionPolicy := .taskLifetime
  ownerId := job.ownerId
  actorId := service.principalId
  rootCorrelationId := job.rootCorrelationId
  taskId := job.taskId
  causationId := some lease.id
  parentCorrelationId := some job.id
  evidenceId := rt.uuid5 ("mathews:ignored-result-evidence:" ++ key)
  capturedAt := now

/-- Store a fenced late result as evidence without changing job state. -/
def BackgroundJobService.recordIgnoredResult (rt : Runtime) (service : BackgroundJobService)
    (db : Database) (grant : JobLeaseGrant) (now : Time) (c : IgnoredResultCommand) :
    Except BackgroundJobError (IgnoredResult × Database) := do
  let key ← requiredIdentifier rt c.idempotencyKey "ignored result idempotency key"
    maxIdempotencyKeyLength
  let prepared ← Except.relabel
    (redactEvidenceContent rt (boundedEvidencePayload rt c.result.payload) .json) .evidence
  Except.require (prepared.value.obj?.isSome)
    (.invalid "background job ignored effect result is invalid")
  let fingerprint := ignoredResultFingerprint rt grant c
  let unavailable : BackgroundJobError :=
    .notFound "background job historical lease is unavailable"
  let job ← Except.orThrow (db.backgroundJobs.get? grant.jobId) unavailable
  let lease ← Except.orThrow (historicalLease db grant) unavailable
  Except.require (job.taskId = some grant.taskId) unavailable
  Except.require (stillCurrent job lease grant now = false)
    (.conflict "background job result is not fenced")
  Except.require (c.effectId.all (fun effectId =>
      (db.backgroundJobEffects.get? effectId).any (·.jobId = job.id)) = true)
    (.notFound "background job effect is unavailable")
  let reasonCode := if job.cancellationRequestedAt.isSome then "CANCELLED" else "FENCED"
  match db.backgroundJobIgnoredResults.rows.find? (·.idempotencyKey = key) with
  | some existing =>
    Except.require (existing.jobId = job.id ∧ existing.leaseId = lease.id ∧
        existing.fencingToken = lease.fencingToken ∧ existing.effectId = c.effectId ∧
        existing.resultFingerprint = fingerprint ∧ existing.reasonCode = reasonCode)
      (.conflict "background job ignored result key conflicts")
    return ({ ignoredResultId := existing.id, evidenceId := existing.evidenceId
              reasonCode := existing.reasonCode, replayed := true }, db)
  | none =>
    let (captured, db) ← Except.relabel (captureEvidence rt db
      (ignoredResultCapture rt service job lease grant c key reasonCode prepared.value now)) .evidence
    let ignored : BackgroundJobIgnoredResult :=
      { id := rt.uuid5 ("mathews:ignored-result:" ++ key), jobId := job.id, leaseId := lease.id
        fencingToken := lease.fencingToken, effectId := c.effectId, idempotencyKey := key
        resultFingerprint := fingerprint, evidenceId := captured.record.id, reasonCode
        receivedAt := now }
    let backgroundJobIgnoredResults ← Except.orThrow
      (db.backgroundJobIgnoredResults.insert? ignored)
      (.integrity "background job ignored result is not unique")
    return ({ ignoredResultId := ignored.id, evidenceId := ignored.evidenceId, reasonCode
              replayed := false }, { db with backgroundJobIgnoredResults })

/-! ### The end of an attempt -/

def requireNoPendingEffects (db : Database) (jobId : UUID) : Except BackgroundJobError Unit :=
  Except.require (pendingEffects db jobId = []) mustReconcileFirst

structure CompleteCommand where
  expectedCheckpointVersion : ℕ
  finalCheckpointKey : Option String := none
  finalCheckpoint : Option Json := none
  checkpointId : UUID

/-- The final checkpoint of a job, if it has one. -/
def finalCheckpoint (rt : Runtime) (db : Database) (job : BackgroundJob)
    (lease : BackgroundJobLease) (c : CompleteCommand) (now : Time) :
    Except BackgroundJobError (BackgroundJob × BackgroundJobLease × Database) :=
  match c.finalCheckpointKey, c.finalCheckpoint with
  | some key, some payload => do
    let entry ← CheckpointCommand.check rt
      ⟨c.expectedCheckpointVersion, key, payload, c.checkpointId⟩
    let (_, appended) ← appendCheckpoint db job lease entry now
    return appended
  | _, _ => do
    Except.require (job.checkpointVersion = c.expectedCheckpointVersion)
      (.conflict "background job checkpoint version changed")
    return (job, lease, db)

def BackgroundJobService.complete (rt : Runtime) (db : Database) (grant : JobLeaseGrant)
    (now : Time) (c : CompleteCommand) : Except BackgroundJobError Database := do
  Except.require (c.finalCheckpointKey.isNone = c.finalCheckpoint.isNone)
    (.invalid "background job final checkpoint is incomplete")
  let (job, lease) ← currentLease db grant now
  requireNoPendingEffects db job.id
  let (job, lease, db) ← finalCheckpoint rt db job lease c now
  return db.putLeased (finishJob job .succeeded none grant.fencingToken now)
    (lease.release now .succeeded)

/-- Durable result of releasing a failed attempt. -/
structure JobFailureDisposition where
  status : BackgroundJobStatus
  nextAttemptAt : Option Time
  exhausted : Bool
  retryDelay : Option Time
  deriving DecidableEq

/-- A job whose attempt failed: queued for the retry, or failed. -/
def BackgroundJob.failAttempt (job : BackgroundJob) (errorCode : String) (token : ℕ)
    (retryAt : Option Time) (now : Time) : BackgroundJob :=
  let released := { job.unlease with
    lastFencingToken := some token, lastErrorCode := some errorCode }
  match retryAt with
  | some retryAt => { released with status := .queued, availableAt := retryAt, completedAt := none }
  | none => { released with status := .failed, completedAt := some now }

/-- The delay before the retry of a failed attempt, if there is one. -/
def retryDelay (rt : Runtime) (job : BackgroundJob) (canRetry : Bool) :
    Except BackgroundJobError (Option Time) := do
  let policy ← job.retryPolicy
  if canRetry then (deterministicRetryDelay rt job.id job.attemptCount policy).map some
  else .ok none

def releaseFailedAttempt (rt : Runtime) (db : Database) (job : BackgroundJob)
    (lease : BackgroundJobLease) (grant : JobLeaseGrant) (errorCode : String) (retryable : Bool)
    (now : Time) : Except BackgroundJobError (JobFailureDisposition × Database) := do
  let canRetry := retryable && decide (job.attemptCount < job.maxAttempts)
  let delay ← retryDelay rt job canRetry
  let retryAt := delay.map (now + ·)
  let job := job.failAttempt errorCode grant.fencingToken retryAt now
  let lease := { lease.release now (if canRetry then .retry else .failed) with
    retryAt, failureCode := some errorCode }
  return ({ status := job.status, nextAttemptAt := retryAt, exhausted := retryable && !canRetry
            retryDelay := delay }, db.putLeased job lease)

def BackgroundJobService.failAttempt (rt : Runtime) (db : Database) (grant : JobLeaseGrant)
    (now : Time) (errorCode : String) (retryable : Bool) :
    Except BackgroundJobError (JobFailureDisposition × Database) := do
  let errorCode ← requiredErrorCode rt errorCode
  let (job, lease) ← currentLease db grant now
  releaseFailedAttempt rt db job lease grant errorCode retryable now

/-- Release a temporarily blocked lease without spending retry budget. -/
def BackgroundJobService.pauseAttempt (rt : Runtime) (db : Database) (grant : JobLeaseGrant)
    (now : Time) (errorCode : String) : Except BackgroundJobError Database := do
  let errorCode ← requiredErrorCode rt errorCode
  let (job, lease) ← currentLease db grant now
  return db.putLeased
    { job.unlease with
      status := .queued, attemptCount := job.attemptCount - 1, availableAt := now
      lastFencingToken := some grant.fencingToken, lastErrorCode := some errorCode }
    (lease.release now .retry)

/-- The evidence of an outage. -/
def outageCapture (rt : Runtime) (service : BackgroundJobService) (job : BackgroundJob)
    (lease : BackgroundJobLease) (dependency : DependencyService) (errorCode : String)
    (now : Time) : EvidenceCapture where
  payload := .obj
    [("attempt", .int job.attemptCount),
      ("checkpoint_fingerprint", (job.checkpoint.map fun c => .str (rt.fingerprint c)).getD .null),
      ("checkpoint_version", .int job.checkpointVersion), ("error_code", .str errorCode),
      ("job_id", .str job.id.str), ("service", .str dependency.value)]
  sourceKind := .externalEvent
  evidenceType := "dependency-outage"
  origin := "background-job:" ++ job.id.str ++ ":outage:" ++ toString job.attemptCount
  accessClassification := .taskOwner
  retentionPolicy := .taskLifetime
  ownerId := job.ownerId
  actorId := service.principalId
  rootCorrelationId := job.rootCorrelationId
  taskId := job.taskId
  causationId := some lease.id
  parentCorrelationId := some job.id
  evidenceId :=
    rt.uuid5 ("mathews:outage-evidence:" ++ job.id.str ++ ":" ++ toString job.attemptCount)
  capturedAt := now

/-- Persist a dependency retry, and the outage; its escalation is a step of its own. -/
def BackgroundJobService.failDependencyAttempt (rt : Runtime) (service : BackgroundJobService)
    (db : Database) (grant : JobLeaseGrant) (now : Time) (dependency : DependencyService)
    (errorCode : String) : Except BackgroundJobError (JobFailureDisposition × Database) := do
  let errorCode ← requiredErrorCode rt errorCode
  let (job, lease) ← currentLease db grant now
  let (captured, db) ← Except.relabel
    (captureEvidence rt db (outageCapture rt service job lease dependency errorCode now)) .evidence
  let (disposition, db) ← releaseFailedAttempt rt db job lease grant errorCode true now
  let outage : DependencyOutageAttempt :=
    { id := rt.uuid5 ("mathews:outage:" ++ job.id.str ++ ":" ++ toString job.attemptCount)
      jobId := job.id, leaseId := lease.id, fencingToken := lease.fencingToken
      attempt := lease.attempt, service := dependency, errorCode
      checkpointEvidenceId := captured.record.id, exhausted := disposition.exhausted
      occurredAt := now }
  let dependencyOutageAttempts ← Except.orThrow (db.dependencyOutageAttempts.insert? outage)
    (.integrity "dependency outage attempt is not unique")
  return (disposition, { db with dependencyOutageAttempts })

/-! ### Task transitions -/

structure JobTransitionCommand where
  transitionId : UUID
  expectedState : TaskState
  kind : TaskTransitionKind
  reasonCode : String
  evidenceIds : List UUID
  validationCandidate : Option ValidationCandidate := none
  activePolicyLineage : String := "mvp"
  eventId : UUID
  provenanceId : UUID

/-- The transition a job issues. -/
def JobTransitionCommand.command (c : JobTransitionCommand) (service : BackgroundJobService)
    (taskId : UUID) (now : Time) : TaskTransitionCommand where
  taskId := taskId
  transitionId := c.transitionId
  expectedState := c.expectedState
  kind := c.kind
  reasonCode := c.reasonCode
  actorId := service.principalId
  evidenceIds := c.evidenceIds
  validationCandidate := c.validationCandidate
  gateEvaluator := service.gateEvaluator
  activePolicyLineage := c.activePolicyLineage
  occurredAt := now
  eventId := c.eventId

def BackgroundJobService.transitionTask (rt : Runtime) (service : BackgroundJobService)
    (db : Database) (grant : JobLeaseGrant) (now : Time) (c : JobTransitionCommand) :
    Except BackgroundJobError (TaskTransitionResult × Database) := do
  Except.require (c.kind.validates = true → c.validationCandidate ≠ none)
    (.invalid "background jobs cannot issue validation transitions without a candidate")
  Except.require (c.kind.validates = false → c.validationCandidate = none)
    (.invalid "background job transition cannot carry a validation candidate")
  Except.require ((db.tasks.get? grant.taskId).isSome)
    (.notFound "background job task is unavailable")
  let (job, lease) ← currentLease db grant now
  requireNoPendingEffects db job.id
  let (result, db) ← Except.relabel
    (ControlPlane.transitionTask rt db (c.command service grant.taskId now)) .transition
  if result.replayed then
    let provenance := db.backgroundJobTaskTransitions.rows.find? (·.taskEventId = result.eventId)
    Except.require (provenance.any fun p => p.jobId = job.id ∧ p.taskId = grant.taskId)
      (.conflict "background job transition id belongs to another source")
    return (result, db)
  else
    let provenance : BackgroundJobTaskTransition :=
      { id := c.provenanceId, jobId := job.id, leaseId := lease.id
        fencingToken := lease.fencingToken, taskId := grant.taskId
        taskEventId := result.eventId, recordedAt := now }
    let backgroundJobTaskTransitions ← Except.orThrow
      (db.backgroundJobTaskTransitions.insert? provenance)
      (.integrity "background job task transition is not unique")
    return (result, { db with backgroundJobTaskTransitions })

end ControlPlane
