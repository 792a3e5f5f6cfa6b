import ControlPlane.Jobs.Outage

/-!
# Hermes runs

A run of the coding agent is bound to one attempt of a job and to the lease of that attempt.
It is prepared in two transactions, one for the run and one for the tool grant; it is
started under the identifier the provider gave it; the events of the provider are recorded
once, and accepted in their order while the lease is current; and it ends by an event, by a
cancellation, or with the failure of the dependency.

Fresh identifiers and readings of the clock are arguments.
-/
namespace ControlPlane

open Regex Regex.Re

/-- Failures of the Hermes integration. `integrity` is the store's refusal of a row. -/
inductive HermesError where
  | notFound (message : String)
  | conflict (message : String)
  | evidence (error : EvidenceError)
  | job (error : BackgroundJobError)
  | integrity (message : String)

/-! ### Arguments -/

def hermesIdentifier : Pattern :=
  seq (cls alnum) (many true 0 (some 254) (cls (.union alnum (oneOf "._:/-"))))

def requiredHermesIdentifier (rt : Runtime) (value field : String) : Except HermesError String :=
  if hermesIdentifier.fullmatch (CharClass.holds rt.unicode) (rt.unicode.strip value.toList) then
    .ok (stripped rt value)
  else .error (.conflict s!"{field} is invalid")

def hermesErrorCode (rt : Runtime) (value : String) : Except HermesError String :=
  let normalized := rt.unicode.upper (rt.unicode.strip value.toList)
  if reasonCode.fullmatch (CharClass.holds rt.unicode) normalized then
    .ok (String.ofList normalized)
  else .error (.conflict "Hermes error code is invalid")

/-- A prompt as it was compiled for a task. -/
structure CompiledPrompt where
  taskId : UUID
  role : PromptRole
  templateId : UUID
  templateVersion : ℕ
  policyVersionId : UUID
  evaluationLabel : Option String
  content : String
  evidenceIds : List UUID

def optionalLabel : Option String → Json
  | none => .null
  | some s => .str s

def promptFingerprint (rt : Runtime) (prompt : CompiledPrompt) : String :=
  rt.fingerprint <| .obj
    [("content", .str prompt.content), ("evaluation_label", optionalLabel prompt.evaluationLabel),
      ("evidence_ids", .arr (prompt.evidenceIds.map fun id => .str id.str)),
      ("policy_version_id", .str prompt.policyVersionId.str), ("role", .str prompt.role.value),
      ("task_id", .str prompt.taskId.str), ("template_id", .str prompt.templateId.str),
      ("template_version", .int prompt.templateVersion)]

/-- The template and the policy of a prompt are the owner's, and an unlabelled prompt is a
member of its policy. -/
def validatePrompt (rt : Runtime) (db : Database) (prompt : CompiledPrompt) (ownerId : String) :
    Except HermesError Unit := do
  let unavailable : HermesError := .conflict "compiled prompt provenance is unavailable"
  let template ← Except.orThrow (db.promptTemplateVersions.get? prompt.templateId) unavailable
  let policy ← Except.orThrow (db.policyVersions.get? prompt.policyVersionId) unavailable
  Except.require (template.ownerId = ownerId ∧ policy.ownerId = ownerId ∧
      template.role = prompt.role.value ∧ template.version = prompt.templateVersion) unavailable
  match prompt.evaluationLabel with
  | some label => do
    let _ ← requiredHermesIdentifier rt label "evaluation label"
    return ()
  | none =>
    Except.require (⟨policy.id, template.id⟩ ∈ db.policyVersionPromptTemplates)
      (.conflict "compiled prompt is not active in its policy")

/-- The fence of a grant, as the Hermes integration reports its loss. -/
def hermesLease (db : Database) (grant : JobLeaseGrant) (now : Time) :
    Except HermesError (BackgroundJob × BackgroundJobLease) :=
  match currentLease db grant now with
  | .ok held => .ok held
  | .error _ => .error (.conflict "Hermes job lease is no longer current")

theorem hermesLease_ok {db : Database} {grant : JobLeaseGrant} {now : Time} {job : BackgroundJob}
    {lease : BackgroundJobLease} :
    hermesLease db grant now = .ok (job, lease) ↔ HoldsLease db grant now job lease := by
  rw [← currentLease_ok, hermesLease]
  cases currentLease db grant now <;> simp

/-! ### Preparing -/

/-- The run belongs to the lease of a grant. -/
def HermesRun.heldBy (run : HermesRun) (grant : JobLeaseGrant) : Prop :=
  run.taskId = grant.taskId ∧ run.jobId = grant.jobId ∧ run.leaseId = grant.leaseId ∧
    run.fencingToken = grant.fencingToken ∧ run.attempt = grant.attempt

instance (run : HermesRun) (grant : JobLeaseGrant) : Decidable (run.heldBy grant) :=
  inferInstanceAs (Decidable (_ ∧ _))

def HermesRun.matches (rt : Runtime) (run : HermesRun) (grant : JobLeaseGrant)
    (prompt : CompiledPrompt) : Prop :=
  run.heldBy grant ∧ run.promptTemplateVersionId = prompt.templateId ∧
    run.policyVersionId = prompt.policyVersionId ∧ run.evaluationLabel = prompt.evaluationLabel ∧
    run.promptFingerprint = ControlPlane.promptFingerprint rt prompt

instance (rt : Runtime) (run : HermesRun) (grant : JobLeaseGrant) (prompt : CompiledPrompt) :
    Decidable (run.matches rt grant prompt) := inferInstanceAs (Decidable (_ ∧ _))

def runOfAttempt (db : Database) (jobId : UUID) (attempt : ℕ) : Option HermesRun :=
  db.hermesRuns.rows.find? fun run => run.jobId = jobId && run.attempt = attempt

/-- What is looked at before the first transaction of a preparation. -/
def checkPrepare (rt : Runtime) (db : Database) (grant : JobLeaseGrant) (runId : UUID)
    (prompt : CompiledPrompt) : Except HermesError Unit := do
  Except.require (prompt.taskId = grant.taskId)
    (.conflict "compiled prompt belongs to another task")
  let uncorrelated : HermesError := .conflict "Hermes job correlation conflicts"
  let job ← Except.orThrow (db.backgroundJobs.get? grant.jobId) uncorrelated
  Except.require (job.taskId = some grant.taskId) uncorrelated
  validatePrompt rt db prompt job.ownerId
  Except.require ((runOfAttempt db grant.jobId grant.attempt).all (·.id = runId))
    (.conflict "Hermes job attempt already has a run")

def newRun (rt : Runtime) (grant : JobLeaseGrant) (runId : UUID) (prompt : CompiledPrompt)
    (job : BackgroundJob) (lease : BackgroundJobLease) (now : Time) : HermesRun where
  id := runId
  taskId := grant.taskId
  jobId := job.id
  leaseId := lease.id
  fencingToken := lease.fencingToken
  attempt := grant.attempt
  promptTemplateVersionId := prompt.templateId
  policyVersionId := prompt.policyVersionId
  evaluationLabel := prompt.evaluationLabel
  promptFingerprint := promptFingerprint rt prompt
  startedAt := now
  ownerId := job.ownerId
  rootCorrelationId := job.rootCorrelationId

/-- The first transaction of a preparation: the run, or the one that is there. -/
def createRun (rt : Runtime) (db : Database) (grant : JobLeaseGrant) (runId : UUID)
    (prompt : CompiledPrompt) (now : Time) :
    Except HermesError (HermesRunStatus × Bool × Database) := do
  let (job, lease) ← hermesLease db grant now
  match db.hermesRuns.get? runId with
  | some existing =>
    Except.require (existing.matches rt grant prompt) (.conflict "Hermes run id conflicts")
    return (existing.status, true, db)
  | none =>
    validatePrompt rt db prompt job.ownerId
    Except.require (runOfAttempt db job.id grant.attempt = none)
      (.integrity "Hermes run is not unique")
    let hermesRuns ← Except.orThrow
      (db.hermesRuns.insert? (newRun rt grant runId prompt job lease now))
      (.integrity "Hermes run is not unique")
    return (.starting, false, { db with hermesRuns })

/-- The key of the tool grant of a run. -/
def hermesGrantKey (runId : UUID) : String := "hermes:" ++ runId.str

def hermesGrantScope (runId taskId : UUID) : Json :=
  .obj [("run_id", .str runId.str), ("task_id", .str taskId.str)]

def toolGrantOf (db : Database) (jobId : UUID) (grantKey : String) :
    Option BackgroundJobToolGrant :=
  db.backgroundJobToolGrants.rows.find? fun g => g.jobId = jobId && g.grantKey = grantKey

/-- A capability, persisted only while its lease fence is current; it is looked up by its
key, revoked or not. -/
def BackgroundJobService.issueToolGrant (rt : Runtime) (db : Database) (grant : JobLeaseGrant)
    (grantKey : String) (capabilityScope : Json) (now : Time) (toolGrantId : UUID) :
    Except BackgroundJobError (UUID × Bool × Database) := do
  let grantKey ← requiredIdentifier rt grantKey "tool grant key" maxIdempotencyKeyLength
  let capabilityScope ← safePayload rt capabilityScope "tool grant scope"
  let (job, lease) ← currentLease db grant now
  match toolGrantOf db job.id grantKey with
  | some existing =>
    Except.require (existing.leaseId = lease.id ∧ existing.fencingToken = lease.fencingToken ∧
        existing.capabilityScope.pyEq capabilityScope)
      (.conflict "background job tool grant key conflicts")
    return (existing.id, true, db)
  | none =>
    let backgroundJobToolGrants ← Except.orThrow
      (db.backgroundJobToolGrants.insert?
        { id := toolGrantId, jobId := job.id, leaseId := lease.id
          fencingToken := lease.fencingToken, grantKey, capabilityScope, issuedAt := now })
      (.integrity "tool grant is not unique")
    return (toolGrantId, false, { db with backgroundJobToolGrants })

/-- The second transaction of a preparation: the tool grant of the run. -/
def issueRunGrant (rt : Runtime) (db : Database) (grant : JobLeaseGrant) (runId : UUID)
    (now : Time) (toolGrantId : UUID) : Except HermesError (UUID × Bool × Database) :=
  Except.relabel
    (BackgroundJobService.issueToolGrant rt db grant (hermesGrantKey runId)
      (hermesGrantScope runId grant.taskId) now toolGrantId) .job

structure HermesRunResult where
  runId : UUID
  status : HermesRunStatus
  toolGrantId : UUID
  replayed : Bool

/-- Prepare a run, with nothing else happening between its transactions. -/
def HermesRunService.prepare (rt : Runtime) (db : Database) (grant : JobLeaseGrant) (runId : UUID)
    (prompt : CompiledPrompt) (now : Time) (toolGrantId : UUID) :
    Except HermesError (HermesRunResult × Database) := do
  checkPrepare rt db grant runId prompt
  let (status, replayed, db) ← createRun rt db grant runId prompt now
  let (toolGrantId, _, db) ← issueRunGrant rt db grant runId now toolGrantId
  return ({ runId, status, toolGrantId, replayed }, db)

/-! ### Starting -/

def runForGrant (db : Database) (runId : UUID) (grant : JobLeaseGrant) :
    Except HermesError HermesRun := do
  let run ← Except.orThrow (db.hermesRuns.get? runId) (.notFound "Hermes run is unavailable")
  Except.require (run.heldBy grant) (.conflict "Hermes run lease correlation conflicts")
  return run

/-- What the provider is expected to still know of a run after a restart. -/
def expectedRun (run : HermesRun) (external : String) : Json :=
  .obj
    [("external_run_id", .str external), ("fencing_token", .int run.fencingToken),
      ("job_id", .str run.jobId.str), ("lease_id", .str run.leaseId.str),
      ("run_id", .str run.id.str)]

/-- The observation target of a started run, added unless it is there. -/
def addRunTarget (rt : Runtime) (db : Database) (run : HermesRun) (external : String)
    (targetId : UUID) : Except HermesError Database :=
  let expectedFingerprint := rt.fingerprint (expectedRun run external)
  match db.reconciliationTargets.rows.find? fun target =>
      target.kind = .hermesRun && target.targetKey = hermesGrantKey run.id with
  | some target => do
    Except.require (target.expectedFingerprint = expectedFingerprint)
      (.conflict "Hermes reconciliation target conflicts")
    return db
  | none => do
    let reconciliationTargets ← Except.orThrow
      (db.reconciliationTargets.insert?
        { id := targetId, taskId := some run.taskId, jobId := some run.jobId, kind := .hermesRun
          targetKey := hermesGrantKey run.id, expectedFingerprint, status := .pending })
      (.integrity "reconciliation target is not unique")
    return { db with reconciliationTargets }

def HermesRunService.recordStarted (rt : Runtime) (db : Database) (grant : JobLeaseGrant)
    (runId : UUID) (externalRunId : String) (now : Time) (targetId : UUID) :
    Except HermesError (HermesRunResult × Database) := do
  let external ← requiredHermesIdentifier rt externalRunId "external run"
  let _ ← hermesLease db grant now
  let run ← runForGrant db runId grant
  let tool ← Except.orThrow (toolGrantOf db run.jobId (hermesGrantKey run.id))
    (.conflict "Hermes run tool grant is unavailable")
  match run.externalRunId with
  | some known =>
    Except.require (known = external) (.conflict "external Hermes run id conflicts")
    return ({ runId := run.id, status := run.status, toolGrantId := tool.id, replayed := true }, db)
  | none =>
    Except.require (run.status = .starting) (.conflict "Hermes run cannot be started")
    Except.require (db.hermesRuns.rows.all (·.externalRunId ≠ some external))
      (.integrity "external Hermes run is not unique")
    let hermesRuns := db.hermesRuns.set
      { run with externalRunId := some external, status := .running }
    let db ← addRunTarget rt { db with hermesRuns } run external targetId
    return ({ runId := run.id, status := .running, toolGrantId := tool.id, replayed := false }, db)

/-! ### Events of the provider -/

inductive HermesEventType where
  | running | output | toolProposal | heartbeat | completed | failed
  deriving DecidableEq, Repr

def HermesEventType.value : HermesEventType → String
  | running => "RUNNING"
  | output => "OUTPUT"
  | toolProposal => "TOOL_PROPOSAL"
  | heartbeat => "HEARTBEAT"
  | completed => "COMPLETED"
  | failed => "FAILED"

/-- An event as the provider sends it. -/
structure HermesProviderEvent where
  providerEventId : String
  externalRunId : String
  sequence : ℕ
  eventType : HermesEventType
  payload : Json
  sequence_pos : 0 < sequence
  providerEventId_length : 1 ≤ providerEventId.length ∧ providerEventId.length ≤ 255
  externalRunId_length : 1 ≤ externalRunId.length ∧ externalRunId.length ≤ 255

def maxEventPayloadBytes : ℕ := 512 * 1024

/-- A payload within its limit. Fields are looked up by name, so that the order in which the
round trip through its encoding leaves them is not seen. -/
def boundedPayload (rt : Runtime) (payload : Json) : Except HermesError Json := do
  Except.require (encodedLength rt payload ≤ maxEventPayloadBytes)
    (.conflict "Hermes event payload exceeds its size limit")
  return payload

def eventFingerprint (rt : Runtime) (event : HermesProviderEvent) (payload : Json) : String :=
  rt.fingerprint <| .obj
    [("event_type", .str event.eventType.value), ("external_run_id", .str event.externalRunId),
      ("payload", payload), ("provider_event_id", .str event.providerEventId),
      ("sequence", .int event.sequence)]

def payloadErrorCode (rt : Runtime) (payload : Json) : String :=
  match payload.get? "error_code" with
  | some (.str code) =>
    match hermesErrorCode rt code with
    | .ok code => code
    | .error _ => "HERMES_RUN_FAILED"
  | _ => "HERMES_RUN_FAILED"

structure HermesEventResult where
  runId : UUID
  eventId : UUID
  accepted : Bool
  ignoredReason : Option String
  taskEventId : Option UUID
  evidenceId : UUID
  replayed : Bool

def eventResult (event : HermesRunEvent) (replayed : Bool) : HermesEventResult where
  runId := event.runId
  eventId := event.id
  accepted := event.accepted
  ignoredReason := event.ignoredReason
  taskEventId := event.taskEventId
  evidenceId := event.payloadEvidenceId
  replayed := replayed

def hermesEventId (rt : Runtime) (runId : UUID) (providerEventId : String) : UUID :=
  rt.uuid5 ("mathews:hermes:" ++ runId.str ++ ":" ++ providerEventId)

def hermesEvidenceId (rt : Runtime) (eventId : UUID) : UUID :=
  rt.uuid5 ("mathews:hermes-evidence:" ++ eventId.str)

/-- The evidence an event is kept as. -/
def hermesEventCapture (rt : Runtime) (principalId : String) (run : HermesRun)
    (event : HermesProviderEvent) (payload : Json) (now : Time) : EvidenceCapture where
  payload := .obj
    [("run_id", .str run.id.str), ("external_run_id", .str event.externalRunId),
      ("provider_event_id", .str event.providerEventId), ("sequence", .int event.sequence),
      ("event_type", .str event.eventType.value), ("payload", payload),
      ("payload_fingerprint", .str (eventFingerprint rt event payload))]
  sourceKind := .result
  evidenceType := "hermes-event"
  origin := "hermes:provider-event"
  accessClassification := .taskOwner
  retentionPolicy := .taskLifetime
  ownerId := run.ownerId
  actorId := principalId
  rootCorrelationId := run.rootCorrelationId
  taskId := some run.taskId
  causationId := some run.id
  parentCorrelationId := some run.jobId
  evidenceId := hermesEvidenceId rt (hermesEventId rt run.id event.providerEventId)
  capturedAt := now

/-- Keep the evidence of an event, or check the evidence an earlier delivery left. -/
def keepEventEvidence (rt : Runtime) (db : Database) (principalId : String) (run : HermesRun)
    (event : HermesProviderEvent) (payload : Json) (now : Time) :
    Except HermesError (UUID × Database) :=
  let capture := hermesEventCapture rt principalId run event payload now
  match db.evidenceRecords.get? capture.evidenceId with
  | none => do
    let (captured, db) ← Except.relabel (captureEvidence rt db capture) .evidence
    return (captured.record.id, db)
  | some record => do
    let loaded ← Except.relabel (loadEvidence rt db record) .evidence
    Except.require ((loaded.content.get "payload_fingerprint").str? =
        some (eventFingerprint rt event payload))
      (.conflict "Hermes provider event evidence conflicts")
    return (record.id, db)

def HermesRunStatus.isTerminal : HermesRunStatus → Bool
  | starting | running => false
  | succeeded | failed | timedOut | cancelled => true

/-- The run is still the current attempt of its job. -/
def runFenceCurrent (db : Database) (run : HermesRun) (now : Time) : Bool :=
  match db.backgroundJobs.get? run.jobId, db.backgroundJobLeases.get? run.leaseId with
  | some job, some lease =>
    job.status = .running && job.currentLeaseId = some run.leaseId &&
      job.currentFencingToken = some run.fencingToken && lease.released.isNone &&
      decide (now < lease.expiresAt)
  | _, _ => false

/-- Why an event is not accepted, if it is not. -/
def ignoredReason (db : Database) (run : HermesRun) (event : HermesProviderEvent) (now : Time) :
    Option String :=
  if run.externalRunId ≠ some event.externalRunId then some "EXTERNAL_RUN_MISMATCH"
  else if run.cancellationRequestedAt.isSome ∨ run.status.isTerminal then some "RUN_TERMINAL"
  else if runFenceCurrent db run now = false then some "STALE_LEASE"
  else if event.sequence ≠ run.lastEventSequence + 1 then some "OUT_OF_ORDER"
  else none

/-- The run after an accepted event. -/
def HermesRun.afterEvent (rt : Runtime) (run : HermesRun) (event : HermesProviderEvent)
    (payload : Json) (now : Time) : HermesRun :=
  let run := { run with lastEventSequence := event.sequence, lastEventAt := some now }
  match event.eventType with
  | .completed => { run with status := .succeeded, completedAt := some now }
  | .failed =>
    { run with status := .failed, failureCode := some (payloadErrorCode rt payload)
               completedAt := some now }
  | _ => { run with status := .running }

def hermesTaskEvent (db : Database) (run : HermesRun) (event : HermesProviderEvent)
    (evidenceId : UUID) (now : Time) (taskEventId : UUID) : TaskEvent where
  id := taskEventId
  taskId := run.taskId
  sequence := nextEventSequence db run.taskId
  eventType := "HERMES_EVENT"
  payload := .obj
    [("schema_version", .int 1), ("run_id", .str run.id.str), ("attempt", .int run.attempt),
      ("fencing_token", .int run.fencingToken), ("provider_sequence", .int event.sequence),
      ("event_type", .str event.eventType.value), ("evidence_id", .str evidenceId.str),
      ("agent_prose_is_authoritative", .bool false)]
  occurredAt := now
  ownerId := run.ownerId
  rootCorrelationId := run.rootCorrelationId
  causationId := some run.id
  parentCorrelationId := some run.jobId

/-- The task event of an accepted event, with its reference to the evidence. -/
def appendHermesEvent (rt : Runtime) (db : Database) (run : HermesRun)
    (event : HermesProviderEvent) (payload : Json) (evidenceId : UUID) (now : Time)
    (taskEventId : UUID) : Except HermesError Database := do
  Except.require ((db.tasks.get? run.taskId).isSome) (.conflict "Hermes task is unavailable")
  let taskEvents ← Except.orThrow
    (db.taskEvents.insert? (hermesTaskEvent db run event evidenceId now taskEventId))
    (.integrity "task event is not unique")
  return { db with
    taskEvents
    taskEventEvidenceReferences := db.taskEventEvidenceReferences ++
      [{ taskId := run.taskId, taskEventId, evidenceId, position := 1 }]
    hermesRuns := db.hermesRuns.set (run.afterEvent rt event payload now) }

def eventOfProvider (db : Database) (runId : UUID) (providerEventId : String) :
    Option HermesRunEvent :=
  db.hermesRunEvents.rows.find? fun e => e.runId = runId && e.providerEventId = providerEventId

def eventOfSequence (db : Database) (runId : UUID) (sequence : ℕ) : Option HermesRunEvent :=
  db.hermesRunEvents.rows.find? fun e => e.runId = runId && e.providerSequence = sequence

/-- The row an event is recorded as. -/
def deliveredEvent (rt : Runtime) (run : HermesRun) (event : HermesProviderEvent) (payload : Json)
    (evidenceId : UUID) (ignored : Option String) (now : Time) (taskEventId : UUID) :
    HermesRunEvent where
  id := hermesEventId rt run.id event.providerEventId
  runId := run.id
  providerEventId := event.providerEventId
  providerSequence := event.sequence
  eventType := event.eventType.value
  payloadFingerprint := eventFingerprint rt event payload
  payloadEvidenceId := evidenceId
  accepted := ignored.isNone
  ignoredReason := ignored
  taskEventId := if ignored.isNone then some taskEventId else none
  receivedAt := now

/-- Record an event that was not seen before: accept it, ignore it, or, out of its order,
leave only its evidence. -/
def recordHermesEvent (rt : Runtime) (db : Database) (principalId : String) (run : HermesRun)
    (event : HermesProviderEvent) (payload : Json) (now : Time) (taskEventId : UUID) :
    Except HermesError (HermesEventResult × Database) := do
  let (evidenceId, db) ← keepEventEvidence rt db principalId run event payload now
  let ignored := ignoredReason db run event now
  if ignored = some "OUT_OF_ORDER" then
    return ({ runId := run.id, eventId := hermesEventId rt run.id event.providerEventId
              accepted := false, ignoredReason := ignored, taskEventId := none, evidenceId
              replayed := false }, db)
  let delivery := deliveredEvent rt run event payload evidenceId ignored now taskEventId
  let db ← match ignored with
    | none => appendHermesEvent rt db run event payload evidenceId now taskEventId
    | some _ => .ok db
  let hermesRunEvents ← Except.orThrow (db.hermesRunEvents.insert? delivery)
    (.integrity "Hermes run event is not unique")
  return (eventResult delivery false, { db with hermesRunEvents })

def HermesRunService.ingest (rt : Runtime) (db : Database) (principalId : String) (runId : UUID)
    (event : HermesProviderEvent) (now : Time) (taskEventId : UUID) :
    Except HermesError (HermesEventResult × Database) := do
  let payload ← boundedPayload rt event.payload
  let run ← Except.orThrow (db.hermesRuns.get? runId) (.notFound "Hermes run is unavailable")
  match eventOfProvider db run.id event.providerEventId with
  | some existing =>
    Except.require (existing.providerSequence = event.sequence ∧
        existing.eventType = event.eventType.value ∧
        existing.payloadFingerprint = eventFingerprint rt event payload)
      (.conflict "Hermes provider event id conflicts")
    return (eventResult existing true, db)
  | none =>
    Except.require (eventOfSequence db run.id event.sequence = none)
      (.conflict "Hermes provider sequence conflicts")
    recordHermesEvent rt db principalId run event payload now taskEventId

/-! ### Cancelling -/

/-- The grants of the lease of a run. -/
def grantOfRun (run : HermesRun) (g : BackgroundJobToolGrant) : Bool :=
  g.jobId = run.jobId && g.leaseId = run.leaseId && g.fencingToken = run.fencingToken

structure HermesCancellationResult where
  runId : UUID
  revokedToolGrants : ℕ
  replayed : Bool

def HermesRunService.cancel (db : Database) (runId : UUID) (now : Time) :
    Except HermesError (HermesCancellationResult × Database) := do
  let run ← Except.orThrow (db.hermesRuns.get? runId) (.notFound "Hermes run is unavailable")
  if run.cancellationRequestedAt.isSome then
    let revoked := db.backgroundJobToolGrants.select fun g =>
      grantOfRun run g && (g.revoked.map Prod.snd) = some "HERMES_RUN_CANCELLED"
    return ({ runId := run.id, revokedToolGrants := revoked.length, replayed := true }, db)
  Except.require (run.status ≠ .succeeded ∧ run.status ≠ .failed ∧ run.status ≠ .timedOut)
    (.conflict "completed Hermes run cannot be cancelled")
  let grants := db.backgroundJobToolGrants.select fun g => grantOfRun run g && g.revoked.isNone
  let db := { db with
    backgroundJobToolGrants := grants.foldl
      (fun t g => t.set { g with revoked := some (now, "HERMES_RUN_CANCELLED") })
      db.backgroundJobToolGrants
    hermesRuns := db.hermesRuns.set
      { run with cancellationRequestedAt := some now, status := .cancelled
                 completedAt := some now } }
  return ({ runId := run.id, revokedToolGrants := grants.length, replayed := false }, db)

/-! ### Failure of the dependency -/

/-- The disposition of the outage that was recorded for an attempt, if there is one. -/
def outageDisposition (db : Database) (grant : JobLeaseGrant) (errorCode : String) :
    Except HermesError (Option JobFailureDisposition) :=
  match db.dependencyOutageAttempts.rows.find? fun outage =>
      outage.jobId = grant.jobId && outage.attempt = grant.attempt with
  | none => .ok none
  | some outage => do
    Except.require (outage.leaseId = grant.leaseId ∧ outage.fencingToken = grant.fencingToken ∧
        outage.service = .hermes ∧ outage.errorCode = errorCode)
      (.conflict "Hermes outage attempt conflicts")
    let unavailable : HermesError := .conflict "Hermes outage disposition is unavailable"
    let job ← Except.orThrow (db.backgroundJobs.get? grant.jobId) unavailable
    let lease ← Except.orThrow (db.backgroundJobLeases.get? grant.leaseId) unavailable
    let retryAt := if outage.exhausted then none else lease.retryAt
    return some
      { status := job.status, nextAttemptAt := retryAt, exhausted := outage.exhausted
        retryDelay := retryAt.map (· - outage.occurredAt) }

/-- What is looked at before the attempt of the job is failed. -/
def checkDependencyFailure (db : Database) (grant : JobLeaseGrant) (runId : UUID)
    (errorCode : String) (now : Time) : Except HermesError (Option JobFailureDisposition) := do
  let run ← runForGrant db runId grant
  let recovered ← outageDisposition db grant errorCode
  match recovered with
  | some _ => return recovered
  | none =>
    Except.require (run.status = .starting ∨ run.status = .running)
      (.conflict "terminal Hermes run cannot fail its dependency")
    let _ ← hermesLease db grant now
    return none

/-- The failure of the dependency as the end of the run. -/
def projectDependencyFailure (db : Database) (grant : JobLeaseGrant) (runId : UUID)
    (targetStatus : HermesRunStatus) (errorCode : String) (now : Time) :
    Except HermesError Database := do
  let run ← runForGrant db runId grant
  if run.status = .starting ∨ run.status = .running then
    return { db with
      hermesRuns := db.hermesRuns.set
        { run with status := targetStatus, failureCode := some errorCode
                   completedAt := some now } }
  Except.require (run.status = targetStatus ∧ run.failureCode = some errorCode)
    (.conflict "terminal Hermes run cannot fail its dependency")
  return db

/-- The status a run fails with. -/
def failureStatus (timedOut : Bool) : HermesRunStatus := if timedOut then .timedOut else .failed

/-- The attempt of the job fails, unless it did before. -/
def failRunAttempt (rt : Runtime) (service : BackgroundJobService) (db : Database)
    (grant : JobLeaseGrant) (errorCode : String) (recovered : Option JobFailureDisposition)
    (now : Time) : Except HermesError (JobFailureDisposition × Database) :=
  match recovered with
  | some disposition => .ok (disposition, db)
  | none =>
    match BackgroundJobService.failDependencyAttempt rt service db grant now .hermes errorCode with
    | .ok failed => .ok failed
    | .error (.leaseLost _) => do
      let recovered ← outageDisposition db grant errorCode
      let disposition ← Except.orThrow recovered
        (.conflict "Hermes job lease is no longer current")
      return (disposition, db)
    | .error e => .error (.job e)

/-- Fail the dependency of a run, with nothing else happening between its transactions. The
escalation of an exhausted outage is a step of the job service. -/
def HermesRunService.failDependency (rt : Runtime) (service : BackgroundJobService)
    (db : Database) (grant : JobLeaseGrant) (runId : UUID) (errorCode : String) (timedOut : Bool)
    (now : Time) : Except HermesError (JobFailureDisposition × Database) := do
  let errorCode ← hermesErrorCode rt errorCode
  let recovered ← checkDependencyFailure db grant runId errorCode now
  let (disposition, db) ← failRunAttempt rt service db grant errorCode recovered now
  let db ← projectDependencyFailure db grant runId (failureStatus timedOut) errorCode now
  return (disposition, db)

end ControlPlane
