import ControlPlane.Approvals.Decision
import ControlPlane.Jobs.System
import ControlPlane.Readiness.Storage
import ControlPlane.Validation.FailureFingerprint

/-!
# The repair of failed validations

A failed validation schedules a job that repairs it, or asks a person whether to try again. The
repair is planned from what one session reads, and the job is inserted by another transaction,
which checks again; in between anything may happen.

## Main definitions

* `plan`: what a session reads, and whether a repair or a request follows from it.
* `validateRepairSchedule`: what the transaction of the job checks.
* `repairSystem`: plans, transactions and everything else in any order.
-/
namespace ControlPlane.RepairLoop

open ValidationEvidence (CollectedRun failureFingerprint)

/-! ### Policies -/

def validationRepairJobType : String := "validation-repair"
def defaultMaxRepairAttempts : ℤ := 2
def defaultApprovalLifetimeSeconds : ℤ := 86400
def maxRepairAttempts : ℤ := 10

inductive RepairLoopError where
  | code (code : String)
  /-- The input of a job does not have its form. -/
  | input
  deriving DecidableEq

/-- The attempts a policy allows, and how long a request for more stays open. -/
def repairPolicy (policy : PolicyVersion) : Except RepairLoopError (ℤ × ℤ) :=
  let raw := policy.workflowThresholds.get "validation_repair_policy"
  let refused : RepairLoopError := .code "REPAIR_POLICY_INVALID"
  if raw.isNull then .ok (defaultMaxRepairAttempts, defaultApprovalLifetimeSeconds)
  else do
    Except.require (raw.hasKeys ["max_attempts", "approval_lifetime_seconds"] = true) refused
    let maxAttempts ← Except.orThrow (raw.get "max_attempts").int? refused
    let lifetime ← Except.orThrow (raw.get "approval_lifetime_seconds").int? refused
    Except.require (1 ≤ maxAttempts ∧ maxAttempts ≤ maxRepairAttempts ∧
      60 ≤ lifetime ∧ lifetime ≤ 7 * 86400) refused
    return (maxAttempts, lifetime)

/-- The service. The results of a run are stored with it and do not change; whether the artifact
of a record can be loaded is a parameter, and so is the text of values of other kinds. -/
structure ValidationRepairService where
  results : ValidationRun → CollectedRun
  loads : Database → EvidenceRecord → Bool
  print : Json → String

def ValidationRepairService.fingerprint (svc : ValidationRepairService) (rt : Runtime)
    (run : ValidationRun) : String := failureFingerprint svc.print rt (svc.results run)

/-! ### Reading the store -/

/-- The last transition of a task into validation. -/
def currentAttempt (db : Database) (taskId : UUID) : Option TaskEvent :=
  latestBy TaskEvent.sequence (db.taskEvents.select fun e =>
    e.taskId = taskId && e.transitionToState = some .validating &&
      (e.transitionKind = some .beginValidation || e.transitionKind = some .revalidate))

/-- A run is of the candidate that is validated. -/
def runIsCurrent (db : Database) (task : Task) (run : ValidationRun) : Bool :=
  (currentAttempt db task.id).any fun attempt =>
    let candidate := attempt.payload.get "validation_candidate"
    candidate.obj?.isSome && (candidate.get "commit_sha").str? = some run.commitSha &&
      (candidate.get "tree_sha").str? = some run.treeSha

/-- The decisions of a person to try again. -/
def retryDecisions (db : Database) (taskId : UUID) : List ApprovalRequest :=
  db.approvalRequests.select fun request =>
    request.taskId = taskId && request.requestType = "RETRY_LIMIT" &&
      request.status = .approved && request.decision = some .retry && request.decisionId.isSome

/-- A decision is about a failure that was repaired before. -/
def coversFailure (request : ApprovalRequest) (fingerprint : String) : Bool :=
  request.blockedOperation.any fun blocked =>
    blocked.obj?.isSome && (blocked.get "operation_name").str? = some "validation.repair" &&
      (blocked.get "input_fingerprint").str? = some fingerprint &&
      request.resumeState = some .validating

def retryApprovalIsCurrent (db : Database) (task : Task) (fingerprint : String)
    (decisionId : Option UUID) : Bool :=
  decisionId.any fun decisionId =>
    ((retryDecisions db task.id).find? (·.decisionId = some decisionId)).any
      (coversFailure · fingerprint)

/-- The repairs of a task, whatever became of them. -/
def repairJobs (db : Database) (taskId : UUID) : List BackgroundJob :=
  db.backgroundJobs.select fun job =>
    job.taskId = some taskId && job.jobType = validationRepairJobType

/-- The text of a field of the input of a job. -/
def inputText (job : BackgroundJob) (field : String) : Option String :=
  (job.inputPayload.get field).str?

/-- The latest decision that no repair has used yet. -/
def humanRetryAuthorization (db : Database) (task : Task) (fingerprint : String) : Option UUID :=
  let order (request : ApprovalRequest) : ℕ ×ₗ ℕ :=
    toLex (request.decidedAt.getD 0, request.id.bits.toNat)
  let requests := (retryDecisions db task.id).insertionSort fun a b => order b ≤ order a
  (requests.filterMap ApprovalRequest.decisionId).find? fun decisionId =>
    retryApprovalIsCurrent db task fingerprint (some decisionId) &&
      !(repairJobs db task.id).any fun job =>
        inputText job "retry_approval_decision_id" = some decisionId.str

structure RepairContext where
  taskId : UUID
  taskRetryCount : ℕ
  validationRunId : UUID
  failedCommitSha : String
  failedTreeSha : String
  validationContractId : UUID
  validationContractVersion : ℕ
  repositoryConfigurationId : UUID
  repositoryConfigurationVersion : ℕ
  promptPolicyVersionId : UUID
  decisionEvidenceId : UUID
  manifestEvidenceId : UUID
  failureFingerprint : String
  maxAttempts : ℤ
  approvalLifetimeSeconds : ℤ
  deriving DecidableEq

def validationDecidedEventType : String := "VALIDATION_DECIDED"

/-- The evidence of the decision of a run. -/
def decisionEvidence (rt : Runtime) (db : Database) (run : ValidationRun) : Option UUID := do
  let event ← latestBy TaskEvent.sequence (db.taskEvents.select fun e =>
    e.taskId = run.taskId && e.eventType = validationDecidedEventType &&
      e.causationId = some run.id)
  let text ← (event.payload.get "decision_evidence_id").str?
  UUID.parse rt.unicode text

def manifestEvidence (db : Database) (run : ValidationRun) : Option EvidenceRecord :=
  db.evidenceRecords.rows.find? fun record =>
    record.validationRunId = some run.id &&
      record.evidenceType = "validation-evidence-manifest" && record.correctionOfId.isNone

def repairContext (svc : ValidationRepairService) (rt : Runtime) (db : Database)
    (validationRunId : UUID) (now : Time) : Except RepairLoopError RepairContext := do
  let refused : RepairLoopError := .code "VALIDATION_FAILURE_NOT_REPAIRABLE"
  let unloaded : RepairLoopError := .code "REPAIR_EVIDENCE_UNAVAILABLE"
  let run ← Except.orThrow (db.validationRuns.get? validationRunId)
    (.code "VALIDATION_RUN_UNAVAILABLE")
  let task ← Except.orThrow (db.tasks.get? run.taskId) refused
  let contract ← Except.orThrow (db.validationContracts.get? run.validationContractId) refused
  let configuration ← Except.orThrow
    (db.repositoryConfigurations.get? run.repositoryConfigurationId) refused
  let policy ← Except.orThrow (latestBy PolicyVersion.version (db.policyVersions.select fun p =>
    p.ownerId = localOwnerId && p.lineageKey = "mvp" && p.approvedAt ≤ now)) refused
  let briefDecision ← Except.orThrow
    (task.briefApprovalDecisionId.bind db.briefApprovalDecisions.get?) refused
  Except.require (briefDecision.taskId = task.id) refused
  let promptPolicyVersionId ← Except.orThrow briefDecision.policyVersionId refused
  let decisionEvidenceId ← Except.orThrow (decisionEvidence rt db run) refused
  let manifest ← Except.orThrow (manifestEvidence db run) refused
  Except.require (task.state = .validating ∧ run.outcome = .failed ∧
    task.validationContractId = some contract.id ∧
    task.repositoryConfigurationId = some configuration.id ∧
    runIsCurrent db task run = true) refused
  let decision ← Except.orThrow (db.evidenceRecords.get? decisionEvidenceId) unloaded
  Except.require (∀ record ∈ [decision, manifest], record.ownerId = task.ownerId ∧
    record.taskId = some task.id ∧ svc.loads db record = true) unloaded
  let (maxAttempts, lifetime) ← repairPolicy policy
  return {
    taskId := task.id
    taskRetryCount := task.retryCount
    validationRunId := run.id
    failedCommitSha := run.commitSha
    failedTreeSha := run.treeSha
    validationContractId := contract.id
    validationContractVersion := contract.version
    repositoryConfigurationId := configuration.id
    repositoryConfigurationVersion := configuration.version
    promptPolicyVersionId
    decisionEvidenceId
    manifestEvidenceId := manifest.id
    failureFingerprint := svc.fingerprint rt run
    maxAttempts
    approvalLifetimeSeconds := lifetime }

/-! ### Planning -/

/-- A prompt in the input of a job. -/
def promptJson (prompt : CompiledPrompt) : Json :=
  .obj [("task_id", .str prompt.taskId.str), ("role", .str prompt.role.value),
    ("template_id", .str prompt.templateId.str), ("template_version", .int prompt.templateVersion),
    ("policy_version_id", .str prompt.policyVersionId.str),
    ("evaluation_label", optionalLabel prompt.evaluationLabel), ("content", .str prompt.content),
    ("evidence_ids", .arr (prompt.evidenceIds.map fun id => .str id.str))]

/-- Exact failed-run and prompt bindings carried by one durable repair job. -/
structure RepairJobInput where
  schemaVersion : ℤ := 1
  validationRunId : UUID
  taskId : UUID
  failureFingerprint : String
  failedCommitSha : String
  failedTreeSha : String
  validationContractId : UUID
  validationContractVersion : ℕ
  repositoryConfigurationId : UUID
  repositoryConfigurationVersion : ℕ
  decisionEvidenceId : UUID
  manifestEvidenceId : UUID
  prompt : CompiledPrompt
  retryApprovalDecisionId : Option UUID

/-- What the form of an input asks for; the other fields have it by their types. -/
def RepairJobInput.Valid (input : RepairJobInput) : Prop :=
  (input.failureFingerprint.toList.length = 64 ∧
    input.failureFingerprint.toList.all Validation.isLowerHex = true) ∧
  Validation.isGitObject input.failedCommitSha.toList = true ∧
  Validation.isGitObject input.failedTreeSha.toList = true ∧
  0 < input.validationContractVersion ∧ 0 < input.repositoryConfigurationVersion ∧
  0 < input.prompt.templateVersion ∧
  0 < input.prompt.content.length ∧ input.prompt.content.length ≤ 128000

instance (input : RepairJobInput) : Decidable input.Valid := by
  unfold RepairJobInput.Valid
  infer_instance

def RepairJobInput.payload (input : RepairJobInput) : Json :=
  .obj [("schema_version", .int input.schemaVersion),
    ("validation_run_id", .str input.validationRunId.str),
    ("task_id", .str input.taskId.str),
    ("failure_fingerprint", .str input.failureFingerprint),
    ("failed_commit_sha", .str input.failedCommitSha),
    ("failed_tree_sha", .str input.failedTreeSha),
    ("validation_contract_id", .str input.validationContractId.str),
    ("validation_contract_version", .int input.validationContractVersion),
    ("repository_configuration_id", .str input.repositoryConfigurationId.str),
    ("repository_configuration_version", .int input.repositoryConfigurationVersion),
    ("decision_evidence_id", .str input.decisionEvidenceId.str),
    ("manifest_evidence_id", .str input.manifestEvidenceId.str),
    ("prompt", promptJson input.prompt),
    ("retry_approval_decision_id", optionalId input.retryApprovalDecisionId)]

/-- A repair that is planned: the context it was read from, the prompt compiled for it, and the
decision of a person it names. -/
structure PlannedRepair where
  context : RepairContext
  prompt : CompiledPrompt
  retryApprovalDecisionId : Option UUID

def PlannedRepair.input (planned : PlannedRepair) : RepairJobInput where
  validationRunId := planned.context.validationRunId
  taskId := planned.context.taskId
  failureFingerprint := planned.context.failureFingerprint
  failedCommitSha := planned.context.failedCommitSha
  failedTreeSha := planned.context.failedTreeSha
  validationContractId := planned.context.validationContractId
  validationContractVersion := planned.context.validationContractVersion
  repositoryConfigurationId := planned.context.repositoryConfigurationId
  repositoryConfigurationVersion := planned.context.repositoryConfigurationVersion
  decisionEvidenceId := planned.context.decisionEvidenceId
  manifestEvidenceId := planned.context.manifestEvidenceId
  prompt := planned.prompt
  retryApprovalDecisionId := planned.retryApprovalDecisionId

/-- What follows from a failed run. -/
inductive RepairPlan where
  | replayed (job : BackgroundJob)
  | schedule (planned : PlannedRepair)
  | escalate (context : RepairContext) (reasonCode : String)

/-- The first repair of a run, of any task. -/
def replayedRepairSchedule (db : Database) (validationRunId : UUID) : Option BackgroundJob :=
  let order (job : BackgroundJob) : ℕ ×ₗ ℕ := toLex (job.createdAt, job.id.bits.toNat)
  ((db.backgroundJobs.select (·.jobType = validationRepairJobType)).insertionSort
    fun a b => order a ≤ order b).find? fun job =>
      inputText job "validation_run_id" = some validationRunId.str

/-- What a person is asked for when a repair may not be tried again. -/
def escalation (db : Database) (context : RepairContext) (retryApprovalId : Option UUID) :
    Option String :=
  let jobs := repairJobs db context.taskId
  let run := some context.validationRunId.str
  let sameRun := jobs.any fun job => inputText job "validation_run_id" = run
  let equivalent := jobs.any fun job => inputText job "validation_run_id" ≠ run &&
    inputText job "failure_fingerprint" = some context.failureFingerprint
  let exhausted : Bool := context.maxAttempts ≤ context.taskRetryCount
  if !sameRun && (equivalent || exhausted) && retryApprovalId.isNone then
    some (if equivalent then "EQUIVALENT_VALIDATION_FAILURE" else "REPAIR_BUDGET_EXHAUSTED")
  else none

/-- What is read of the store after a run was decided; `prompt` is the compiled prompt. -/
def plan (svc : ValidationRepairService) (rt : Runtime) (db : Database) (validationRunId : UUID)
    (outcome : ValidationOutcome) (isCurrent : Bool) (prompt : RepairContext → CompiledPrompt)
    (now : Time) :
    Except RepairLoopError RepairPlan := do
  match replayedRepairSchedule db validationRunId with
  | some job => return .replayed job
  | none =>
    Except.require (outcome = .failed ∧ isCurrent = true)
      (.code "VALIDATION_FAILURE_NOT_REPAIRABLE")
    let context ← repairContext svc rt db validationRunId now
    let task ← Except.orThrow (db.tasks.get? context.taskId) (.code "TASK_UNAVAILABLE")
    let retryApprovalId := humanRetryAuthorization db task context.failureFingerprint
    match escalation db context retryApprovalId with
    | some reasonCode => return .escalate context reasonCode
    | none =>
      let planned : PlannedRepair := ⟨context, prompt context, retryApprovalId⟩
      Except.require planned.input.Valid .input
      return .schedule planned

/-! ### The transaction of the job -/

def repairKey (validationRunId : UUID) : String := "validation-repair:" ++ validationRunId.str

/-- The checks of the transaction, on what it reads itself. -/
def validateRepairSchedule (svc : ValidationRepairService) (rt : Runtime)
    (validationRunId : UUID) (fingerprint : String) (maxAttempts : ℤ)
    (retryApprovalDecisionId : Option UUID) (db : Database) (task : Task) :
    Except BackgroundJobError Unit :=
  if (repairJobs db task.id).any (·.idempotencyKey = repairKey validationRunId) then .ok ()
  else
    let humanRetry := retryApprovalIsCurrent db task fingerprint retryApprovalDecisionId
    let repeated := (repairJobs db task.id).any fun job =>
      inputText job "failure_fingerprint" = some fingerprint
    let repairable := (db.validationRuns.get? validationRunId).any fun run =>
      run.taskId = task.id && run.outcome = .failed && svc.fingerprint rt run = fingerprint &&
        runIsCurrent db task run
    Except.require (task.state = .validating ∧ repairable = true ∧
      (task.retryCount < maxAttempts ∨ humanRetry = true) ∧
      (humanRetry = true ∨ repeated = false))
      (.conflict "VALIDATION_FAILURE_NOT_REPAIRABLE")

/-- The command that inserts the job of a plan. -/
def PlannedRepair.command (planned : PlannedRepair) (svc : ValidationRepairService) (rt : Runtime)
    (now : Time) (jobId : UUID) : ScheduleCommand where
  taskId := planned.context.taskId
  jobType := validationRepairJobType
  idempotencyKey := repairKey planned.context.validationRunId
  inputPayload := planned.input.payload
  retryPolicy := .standard
  taskValidator := validateRepairSchedule svc rt planned.context.validationRunId
    planned.context.failureFingerprint planned.context.maxAttempts planned.retryApprovalDecisionId
  now
  jobId

/-! ### Runs -/

/-- The store, and the inputs of jobs whose transaction is still to come. -/
structure RepairState where
  db : Database
  planned : List PlannedRepair

/-- What a job was inserted with and keeps. -/
def bindings (job : BackgroundJob) : UUID × Option UUID × String × Json × String × Option UUID :=
  (job.id, job.taskId, job.jobType, job.inputPayload, job.idempotencyKey, job.parentCorrelationId)

/-- A write of any other service: jobs keep what they were inserted with, a new job is of another
type or resumes one, and a granted request stays granted. -/
structure LeavesRepairs (db db' : Database) : Prop where
  kept : ∀ job ∈ db.backgroundJobs, ∃ job' ∈ db'.backgroundJobs, bindings job' = bindings job
  new : ∀ job' ∈ db'.backgroundJobs, (∃ job ∈ db.backgroundJobs, bindings job' = bindings job) ∨
    job'.jobType ≠ validationRepairJobType ∨ job'.parentCorrelationId.isSome
  approvals : ∀ request ∈ db.approvalRequests, request.status = .approved →
    request ∈ db'.approvalRequests

/-- Plans are made, and their transactions carried out or refused, between writes of any other
service. A plan may be carried out late, more than once or never. -/
inductive RepairStep (svc : ValidationRepairService) (rt : Runtime) (s : RepairState) :
    RepairState → Prop
  | plan (validationRunId : UUID) (outcome : ValidationOutcome) (isCurrent : Bool)
      (prompt : RepairContext → CompiledPrompt) (now : Time) (planned : PlannedRepair)
      (h : plan svc rt s.db validationRunId outcome isCurrent prompt now =
        .ok (.schedule planned)) :
      RepairStep svc rt s { s with planned := planned :: s.planned }
  | commit (planned : PlannedRepair) (hplanned : planned ∈ s.planned) (now : Time) (jobId : UUID)
      (r : ScheduledJob) (db' : Database)
      (h : BackgroundJobService.schedule rt s.db (planned.command svc rt now jobId) =
        .ok (r, db')) :
      RepairStep svc rt s { s with db := db' }
  | other (db' : Database) (h : LeavesRepairs s.db db') : RepairStep svc rt s { s with db := db' }

def repairSystem (svc : ValidationRepairService) (rt : Runtime) : TransitionSystem RepairState where
  init s := s.planned = [] ∧ ∀ job ∈ s.db.backgroundJobs, job.jobType ≠ validationRepairJobType
  step := RepairStep svc rt

end ControlPlane.RepairLoop
