import ControlPlane.Evidence.Redaction
import ControlPlane.Lib.Table

/-!
# Domain rows

The rows of the control-plane store, with the columns the modelled services read, and
the store itself. Times are microseconds in UTC. Columns that no modelled service reads
(audit actors, row timestamps, texts shown to people) are left out.
-/
namespace ControlPlane

/-- A point in time, in microseconds. -/
abbrev Time := ℕ

def seconds (n : ℕ) : Time := n * 1000000

/-! ### Tasks -/

/-- Canonical durable task states. -/
inductive TaskState where
  | intake | briefing | briefPendingApproval | implementing | validating | repairing
  | prActive | readyForHumanMerge | handedOff | escalated | failed | cancelled
  deriving DecidableEq, Repr

def TaskState.value : TaskState → String
  | intake => "INTAKE"
  | briefing => "BRIEFING"
  | briefPendingApproval => "BRIEF_PENDING_APPROVAL"
  | implementing => "IMPLEMENTING"
  | validating => "VALIDATING"
  | repairing => "REPAIRING"
  | prActive => "PR_ACTIVE"
  | readyForHumanMerge => "READY_FOR_HUMAN_MERGE"
  | handedOff => "HANDED_OFF"
  | escalated => "ESCALATED"
  | failed => "FAILED"
  | cancelled => "CANCELLED"

inductive TaskTerminalOutcome where
  | automationHandedOff | failed | cancelled
  deriving DecidableEq, Repr

/-- Typed intent; each member selects one legal edge and guard set. -/
inductive TaskTransitionKind where
  | startBriefing | autoAcceptBrief | requestBriefApproval | reviseBrief | approveExactBrief
  | beginValidation | beginRepair | revalidate | openVerifiedDraftPr | markMergeReady
  | invalidateReadiness | acknowledgeHandoff | escalate | resume | cancel | fail | scopeSteer
  deriving DecidableEq, Repr

def TaskTransitionKind.value : TaskTransitionKind → String
  | startBriefing => "START_BRIEFING"
  | autoAcceptBrief => "AUTO_ACCEPT_BRIEF"
  | requestBriefApproval => "REQUEST_BRIEF_APPROVAL"
  | reviseBrief => "REVISE_BRIEF"
  | approveExactBrief => "APPROVE_EXACT_BRIEF"
  | beginValidation => "BEGIN_VALIDATION"
  | beginRepair => "BEGIN_REPAIR"
  | revalidate => "REVALIDATE"
  | openVerifiedDraftPr => "OPEN_VERIFIED_DRAFT_PR"
  | markMergeReady => "MARK_MERGE_READY"
  | invalidateReadiness => "INVALIDATE_READINESS"
  | acknowledgeHandoff => "ACKNOWLEDGE_HANDOFF"
  | escalate => "ESCALATE"
  | resume => "RESUME"
  | cancel => "CANCEL"
  | fail => "FAIL"
  | scopeSteer => "SCOPE_STEER"

/-- Authoritative durable task aggregate. -/
structure Task where
  id : UUID
  repository : String
  baseRevision : String := ""
  rawRequest : String := ""
  summary : String := ""
  state : TaskState := .intake
  acceptedBriefId : Option UUID := none
  briefApprovalDecisionId : Option UUID := none
  repositoryConfigurationId : Option UUID := none
  validationContractId : Option UUID := none
  retryCount : ℕ := 0
  escalationResumeState : Option TaskState := none
  terminalOutcome : Option TaskTerminalOutcome := none
  ownerId : String
  rootCorrelationId : UUID
  parentCorrelationId : Option UUID := none
  causationId : Option UUID := none

instance : Keyed Task UUID := ⟨Task.id⟩

/-- Append-only, ordered event in a task's activity stream. -/
structure TaskEvent where
  id : UUID
  taskId : UUID
  sequence : ℕ
  eventType : String
  payload : Json
  occurredAt : Time
  transitionId : Option UUID := none
  transitionFingerprint : Option String := none
  transitionKind : Option TaskTransitionKind := none
  transitionFromState : Option TaskState := none
  transitionToState : Option TaskState := none
  transitionReasonCode : Option String := none
  policyLineageKey : Option String := none
  policyVersionId : Option UUID := none
  gateHeadSha : Option String := none
  ownerId : String
  rootCorrelationId : UUID
  causationId : Option UUID := none
  parentCorrelationId : Option UUID := none

instance : Keyed TaskEvent UUID := ⟨TaskEvent.id⟩

/-- Ordered, task-bound evidence provenance for one event. -/
structure TaskEventEvidenceReference where
  taskId : UUID
  taskEventId : UUID
  evidenceId : UUID
  position : ℕ
  deriving DecidableEq

/-- Immutable executable set of approved rules, thresholds, and prompts. -/
structure PolicyVersion where
  id : UUID
  lineageKey : String
  version : ℕ
  workflowThresholds : Json
  approvedAt : Time
  ownerId : String

instance : Keyed PolicyVersion UUID := ⟨PolicyVersion.id⟩

/-! ### Evidence -/

inductive EvidenceSourceKind where
  | request | toolOperation | repositorySnapshot | externalEvent | result
  deriving DecidableEq, Repr

def EvidenceSourceKind.value : EvidenceSourceKind → String
  | request => "REQUEST"
  | toolOperation => "TOOL_OPERATION"
  | repositorySnapshot => "REPOSITORY_SNAPSHOT"
  | externalEvent => "EXTERNAL_EVENT"
  | result => "RESULT"

inductive EvidenceAccessClass where
  | taskOwner | owner | recentPassword | internal
  deriving DecidableEq, Repr

def EvidenceAccessClass.value : EvidenceAccessClass → String
  | taskOwner => "TASK_OWNER"
  | owner => "OWNER"
  | recentPassword => "RECENT_PASSWORD"
  | internal => "INTERNAL"

inductive EvidenceRetentionClass where
  | taskLifetime | repositoryLifetime | audit
  deriving DecidableEq, Repr

def EvidenceRetentionClass.value : EvidenceRetentionClass → String
  | taskLifetime => "TASK_LIFETIME"
  | repositoryLifetime => "REPOSITORY_LIFETIME"
  | audit => "AUDIT"

/-- The canonical envelope stored under a content address. -/
structure EvidenceEnvelope where
  evidenceId : UUID
  sourceKind : EvidenceSourceKind
  evidenceType : String
  origin : String
  capturedAt : Time
  taskId : Option UUID
  validationRunId : Option UUID
  ownerId : String
  actorId : String
  rootCorrelationId : UUID
  causationId : Option UUID
  parentCorrelationId : Option UUID
  correctionOfId : Option UUID
  accessClassification : EvidenceAccessClass
  retentionPolicy : EvidenceRetentionClass
  mediaType : MediaType
  redactionManifest : Manifest
  contentHash : String
  content : Json

/-- Immutable reference to canonical redacted evidence. The artifact store is content
addressed, so a record holds the artifact its address names; `none` when the address was
cleared or the store has nothing under it. -/
structure EvidenceRecord where
  id : UUID
  taskId : Option UUID
  validationRunId : Option UUID
  evidenceType : String
  origin : String
  contentHash : String
  artifact : Option EvidenceEnvelope
  capturedAt : Time
  accessClassification : EvidenceAccessClass
  retentionPolicy : EvidenceRetentionClass
  correctionOfId : Option UUID
  deletedAt : Option Time := none
  ownerId : String
  actorId : String
  rootCorrelationId : UUID
  causationId : Option UUID
  parentCorrelationId : Option UUID

instance : Keyed EvidenceRecord UUID := ⟨EvidenceRecord.id⟩

/-- Durable fence that makes evidence unreadable before content removal. -/
structure EvidenceDeletionRequest where
  id : UUID
  evidenceId : UUID

instance : Keyed EvidenceDeletionRequest UUID := ⟨EvidenceDeletionRequest.id⟩

/-! ### Briefs -/

/-- Immutable, versioned statement of task scope and acceptance. -/
structure Brief where
  id : UUID
  taskId : UUID
  scope : Json
  exclusions : Json := .null
  acceptanceCriteria : Json := .null
  risks : Json := .null
  affectedFlow : Json := .null
  testPlan : Json := .null
  ownerId : String := ""

instance : Keyed Brief UUID := ⟨Brief.id⟩

inductive BriefDecisionDisposition where
  | autoAcceptedByPolicy | humanApprovalRequired
  deriving DecidableEq, Repr

/-- Disposition for one exact immutable brief version. -/
structure BriefApprovalDecision where
  id : UUID
  taskId : UUID
  briefId : UUID
  disposition : BriefDecisionDisposition
  policyVersionId : Option UUID
  humanResponse : Option String

instance : Keyed BriefApprovalDecision UUID := ⟨BriefApprovalDecision.id⟩

/-! ### Validation -/

inductive ValidationOutcome where
  | pending | passed | failed | blocked | escalated | cancelled
  deriving DecidableEq, Repr

/-- Immutable version of what a task must pass. -/
structure ValidationContract where
  id : UUID
  taskId : UUID
  version : ℕ
  briefId : UUID

instance : Keyed ValidationContract UUID := ⟨ValidationContract.id⟩

/-- Immutable version of a repository's settings. -/
structure RepositoryConfiguration where
  id : UUID
  version : ℕ
  repositoryKey : String := ""
  settings : Json := .null
  preflightEvidenceId : Option UUID := none

instance : Keyed RepositoryConfiguration UUID := ⟨RepositoryConfiguration.id⟩

/-- One execution of a validation contract on an exact candidate. -/
structure ValidationRun where
  id : UUID
  taskId : UUID
  validationContractId : UUID
  repositoryConfigurationId : UUID
  commitSha : String
  treeSha : String
  outcome : ValidationOutcome

instance : Keyed ValidationRun UUID := ⟨ValidationRun.id⟩

/-! ### Background jobs -/

inductive BackgroundJobStatus where
  | queued | running | succeeded | failed | cancelled
  deriving DecidableEq, Repr

inductive BackgroundJobEffectStatus where
  | pending | succeeded | failed
  deriving DecidableEq, Repr

inductive DependencyService where
  | host | hermes | github
  deriving DecidableEq, Repr

def DependencyService.value : DependencyService → String
  | host => "HOST"
  | hermes => "HERMES"
  | github => "GITHUB"

/-- Durable unit of resumable control-plane work. -/
structure BackgroundJob where
  id : UUID
  taskId : Option UUID
  jobType : String
  inputPayload : Json
  inputFingerprint : String
  status : BackgroundJobStatus := .queued
  idempotencyKey : String
  attemptCount : ℕ := 0
  maxAttempts : ℕ := 5
  retryBaseSeconds : ℕ := 1
  retryMaxSeconds : ℕ := 300
  availableAt : Time
  checkpoint : Option Json := none
  checkpointVersion : ℕ := 0
  currentLeaseId : Option UUID := none
  currentFencingToken : Option ℕ := none
  leaseOwner : Option String := none
  leaseExpiresAt : Option Time := none
  lastFencingToken : Option ℕ := none
  lastErrorCode : Option String := none
  cancellationRequestedAt : Option Time := none
  completedAt : Option Time := none
  createdAt : Time
  ownerId : String
  rootCorrelationId : UUID
  causationId : Option UUID := none
  parentCorrelationId : Option UUID := none

instance : Keyed BackgroundJob UUID := ⟨BackgroundJob.id⟩

/-- Why a lease was released. -/
inductive ReleaseReason where
  | superseded | expired | retry | succeeded | failed | cancelled
  deriving DecidableEq, Repr

/-- Time-bounded job ownership with an immutable fencing token. A lease is released when
it has a time and a reason of release. -/
structure BackgroundJobLease where
  id : UUID
  jobId : UUID
  leaseOwner : String
  attempt : ℕ
  fencingToken : ℕ
  idempotencyKey : String
  claimFingerprint : String
  heartbeatAt : Time
  expiresAt : Time
  checkpoint : Option Json := none
  checkpointVersion : ℕ := 0
  released : Option (Time × ReleaseReason) := none
  retryAt : Option Time := none
  failureCode : Option String := none
  cancellationAcknowledgedAt : Option Time := none

instance : Keyed BackgroundJobLease UUID := ⟨BackgroundJobLease.id⟩

/-- Append-only durable progress accepted from one current lease. -/
structure BackgroundJobCheckpoint where
  id : UUID
  jobId : UUID
  leaseId : UUID
  fencingToken : ℕ
  sequence : ℕ
  idempotencyKey : String
  payloadFingerprint : String
  payload : Json
  recordedAt : Time

instance : Keyed BackgroundJobCheckpoint UUID := ⟨BackgroundJobCheckpoint.id⟩

/-- Durable idempotent external-effect intent and reconciled outcome. -/
structure BackgroundJobEffect where
  id : UUID
  jobId : UUID
  effectType : String
  idempotencyKey : String
  requestFingerprint : String
  requestPayload : Json
  status : BackgroundJobEffectStatus := .pending
  startedLeaseId : UUID
  startedFencingToken : ℕ
  completionLeaseId : Option UUID := none
  completionFencingToken : Option ℕ := none
  resultPayload : Option Json := none
  startedAt : Time
  completedAt : Option Time := none

instance : Keyed BackgroundJobEffect UUID := ⟨BackgroundJobEffect.id⟩

/-- Lease provenance for a task transition initiated by a background job. -/
structure BackgroundJobTaskTransition where
  id : UUID
  jobId : UUID
  leaseId : UUID
  fencingToken : ℕ
  taskId : UUID
  taskEventId : UUID
  recordedAt : Time

instance : Keyed BackgroundJobTaskTransition UUID := ⟨BackgroundJobTaskTransition.id⟩

/-- Lease-bound capability that cancellation can durably revoke. -/
structure BackgroundJobToolGrant where
  id : UUID
  jobId : UUID
  leaseId : UUID
  fencingToken : ℕ
  grantKey : String
  capabilityScope : Json
  issuedAt : Time
  revoked : Option (Time × String) := none

instance : Keyed BackgroundJobToolGrant UUID := ⟨BackgroundJobToolGrant.id⟩

/-- Evidence-only result rejected by a cancellation or newer lease fence. -/
structure BackgroundJobIgnoredResult where
  id : UUID
  jobId : UUID
  leaseId : UUID
  fencingToken : ℕ
  effectId : Option UUID
  idempotencyKey : String
  resultFingerprint : String
  evidenceId : UUID
  reasonCode : String
  receivedAt : Time

instance : Keyed BackgroundJobIgnoredResult UUID := ⟨BackgroundJobIgnoredResult.id⟩

/-- One retryable dependency failure and its optional escalation resolution. -/
structure DependencyOutageAttempt where
  id : UUID
  jobId : UUID
  leaseId : UUID
  fencingToken : ℕ
  attempt : ℕ
  service : DependencyService
  errorCode : String
  checkpointEvidenceId : UUID
  exhausted : Bool
  occurredAt : Time
  approvalRequestId : Option UUID := none
  resolvedAt : Option Time := none
  decisionId : Option UUID := none
  resumedJobId : Option UUID := none

instance : Keyed DependencyOutageAttempt UUID := ⟨DependencyOutageAttempt.id⟩

/-- Idempotent terminal work fence. -/
structure TaskCancellation where
  id : UUID
  taskId : UUID
  requestFingerprint : String
  reasonCode : String
  partialEvidenceId : UUID
  transitionEventId : UUID
  requestedAt : Time

instance : Keyed TaskCancellation UUID := ⟨TaskCancellation.id⟩

inductive ReconciliationTargetKind where
  | hermesRun | hostProcess | branchHead | prHead | webhookCursor
  deriving DecidableEq, Repr

inductive ReconciliationStatus where
  | pending | current | updated | quarantined | retryRequired | cancelled
  deriving DecidableEq, Repr

/-- Durable expected state for one startup-only external observation. -/
structure ReconciliationTarget where
  id : UUID
  taskId : Option UUID
  jobId : Option UUID
  kind : ReconciliationTargetKind
  targetKey : String := ""
  expectedPayload : Json := .obj []
  expectedFingerprint : String := ""
  observedPayload : Option Json := none
  status : ReconciliationStatus
  reconciliationVersion : ℕ := 0
  lastReconciledAt : Option Time := none
  lastErrorCode : Option String := none

instance : Keyed ReconciliationTarget UUID := ⟨ReconciliationTarget.id⟩

/-! ### Approvals -/

inductive ApprovalStatus where
  | pending | approved | rejected | expired | cancelled
  deriving DecidableEq, Repr

inductive ApprovalDecision where
  | approve | requestRevision | retry | deny | reject | abandon | cancel | expire
  deriving DecidableEq, Repr

def ApprovalStatus.value : ApprovalStatus → String
  | pending => "PENDING"
  | approved => "APPROVED"
  | rejected => "REJECTED"
  | expired => "EXPIRED"
  | cancelled => "CANCELLED"

def ApprovalDecision.value : ApprovalDecision → String
  | approve => "APPROVE"
  | requestRevision => "REQUEST_REVISION"
  | retry => "RETRY"
  | deny => "DENY"
  | reject => "REJECT"
  | abandon => "ABANDON"
  | cancel => "CANCEL"
  | expire => "EXPIRE"

/-- Durable human decision request for an exact task state. -/
structure ApprovalRequest where
  id : UUID
  taskId : UUID
  status : ApprovalStatus := .pending
  decision : Option ApprovalDecision := none
  decisionId : Option UUID := none
  requestType : String := ""
  subjectType : Option String := none
  subjectId : Option UUID := none
  reason : String := ""
  options : List String := []
  supportingEvidenceIds : List String := []
  requestingState : TaskState := .intake
  resumeState : Option TaskState := none
  expiresAt : Option Time := none
  requestFingerprint : String := ""
  preconditionFingerprint : String := ""
  blockedOperation : Option Json := none
  retryHistory : List Json := []
  decisionFingerprint : Option String := none
  decidedBy : Option String := none
  decidedAt : Option Time := none
  ownerId : String := ""

instance : Keyed ApprovalRequest UUID := ⟨ApprovalRequest.id⟩

inductive RuleCandidateStatus where
  | proposed | evaluated | rejected | approved
  deriving DecidableEq, Repr

/-- Non-executable proposed review rule. -/
structure RuleCandidate where
  id : UUID
  taskId : Option UUID
  proposedRule : String
  citedEvidenceIds : List String
  recurrenceAssessment : String
  severityAssessment : String
  falsePositiveRisks : Json
  evaluationResult : Option Json
  status : RuleCandidateStatus
  ownerId : String

instance : Keyed RuleCandidate UUID := ⟨RuleCandidate.id⟩

/-- Human-approved, immutable executable review rule version. -/
structure ReviewRule where
  id : UUID
  lineageKey : String
  version : ℕ
  predecessorId : Option UUID
  candidateId : UUID
  approvalRequestId : UUID
  scope : Json
  matcher : Json
  permittedAction : String
  riskClass : String
  evidenceRequirements : List String
  approvedBy : String
  approvedAt : Time
  ownerId : String

instance : Keyed ReviewRule UUID := ⟨ReviewRule.id⟩

/-- Membership of a review rule in a policy. -/
structure PolicyVersionReviewRule where
  policyVersionId : UUID
  reviewRuleId : UUID
  position : ℕ
  deriving DecidableEq

/-- Immutable record of how a policy version became the active one. -/
structure PolicyActivation where
  id : UUID
  policyVersionId : UUID
  sourcePolicyVersionId : UUID
  rollbackPolicyVersionId : UUID
  subjectId : UUID
  subjectFingerprint : String
  evidenceIds : List UUID
  approvedBy : String
  activatedAt : Time

instance : Keyed PolicyActivation UUID := ⟨PolicyActivation.id⟩

/-! ### Hermes runs -/

inductive PromptRole where
  | planner | implementer | validator | prWriter | reviewer
  deriving DecidableEq, Repr

def PromptRole.value : PromptRole → String
  | planner => "planner"
  | implementer => "implementer"
  | validator => "validator"
  | prWriter => "pr_writer"
  | reviewer => "reviewer"

/-- Immutable structured prompt template version. -/
structure PromptTemplateVersion where
  id : UUID
  role : String
  version : ℕ
  ownerId : String

instance : Keyed PromptTemplateVersion UUID := ⟨PromptTemplateVersion.id⟩

/-- Membership of a prompt template in a policy. -/
structure PolicyVersionPromptTemplate where
  policyVersionId : UUID
  promptTemplateVersionId : UUID
  deriving DecidableEq

inductive HermesRunStatus where
  | starting | running | succeeded | failed | timedOut | cancelled
  deriving DecidableEq, Repr

/-- One exact Hermes attempt bound to a durable job lease fence. -/
structure HermesRun where
  id : UUID
  taskId : UUID
  jobId : UUID
  leaseId : UUID
  fencingToken : ℕ
  attempt : ℕ
  externalRunId : Option String := none
  promptTemplateVersionId : UUID
  policyVersionId : UUID
  evaluationLabel : Option String
  promptFingerprint : String
  status : HermesRunStatus := .starting
  lastEventSequence : ℕ := 0
  startedAt : Time
  lastEventAt : Option Time := none
  cancellationRequestedAt : Option Time := none
  completedAt : Option Time := none
  failureCode : Option String := none
  ownerId : String
  rootCorrelationId : UUID

instance : Keyed HermesRun UUID := ⟨HermesRun.id⟩

/-- Immutable provider delivery and its fenced normalization result. It is accepted when
it names the task event it led to, and ignored when it has a reason. -/
structure HermesRunEvent where
  id : UUID
  runId : UUID
  providerEventId : String
  providerSequence : ℕ
  eventType : String
  payloadFingerprint : String
  payloadEvidenceId : UUID
  accepted : Bool
  ignoredReason : Option String
  taskEventId : Option UUID
  receivedAt : Time

instance : Keyed HermesRunEvent UUID := ⟨HermesRunEvent.id⟩

/-! ### Tools of a run -/

/-- Immutable tool proposal bound to one exact run lease. -/
structure HermesToolProposal where
  id : UUID
  runId : UUID
  taskId : UUID
  jobId : UUID
  leaseId : UUID
  fencingToken : ℕ
  externalProposalId : String
  toolName : String
  argumentsFingerprint : String
  proposalEvidenceId : UUID
  ownerId : String
  rootCorrelationId : UUID

instance : Keyed HermesToolProposal UUID := ⟨HermesToolProposal.id⟩

inductive HermesToolDecisionStatus where
  | authorized | denied
  deriving DecidableEq, Repr

def HermesToolDecisionStatus.value : HermesToolDecisionStatus → String
  | authorized => "AUTHORIZED"
  | denied => "DENIED"

/-- Immutable authorization for one proposal. -/
structure HermesToolDecision where
  id : UUID
  proposalId : UUID
  status : HermesToolDecisionStatus
  reasonCode : String
  toolGrantId : UUID
  briefId : Option UUID
  repositoryConfigurationId : Option UUID
  policyVersionId : UUID
  decisionEvidenceId : UUID

instance : Keyed HermesToolDecision UUID := ⟨HermesToolDecision.id⟩

inductive HermesToolResultStatus where
  | succeeded | rejected | ambiguous
  deriving DecidableEq, Repr

def HermesToolResultStatus.value : HermesToolResultStatus → String
  | succeeded => "SUCCEEDED"
  | rejected => "REJECTED"
  | ambiguous => "AMBIGUOUS"

/-- Append-only outcome of a proposal. -/
structure HermesToolResult where
  id : UUID
  proposalId : UUID
  attempt : ℕ
  status : HermesToolResultStatus
  code : String
  repositoryRevision : Option String
  resultEvidenceId : UUID
  diffEvidenceId : Option UUID

instance : Keyed HermesToolResult UUID := ⟨HermesToolResult.id⟩

/-! ### Webhook deliveries -/

inductive WebhookDisposition where
  | accepted | replayed | stale | quarantined
  deriving DecidableEq, Repr

/-- The progress of a delivery, kept in one column. -/
structure WebhookProcessingResult where
  processed : Bool := false
  bodySha256 : String
  eventName : String
  replayedAfterBinding : Bool := false
  disposition : Option WebhookDisposition := none
  reason : Option String := none
  taskId : Option UUID := none
  eventId : Option UUID := none
  jobId : Option UUID := none

/-- Verified external delivery and its correlation and processing result. -/
structure WebhookDelivery where
  id : UUID
  providerDeliveryId : String
  installationId : String
  repositoryId : String
  pullRequestNumber : Option ℤ
  headSha : Option String
  payloadEvidenceId : Option UUID
  processingResult : WebhookProcessingResult
  quarantineReason : Option String := none
  receivedAt : Calendar.Instant
  processedAt : Option Time := none

instance : Keyed WebhookDelivery UUID := ⟨WebhookDelivery.id⟩

/-! ### The store -/

/-- The durable state of the control plane. -/
structure Database where
  tasks : Table Task := .empty
  taskEvents : Table TaskEvent := .empty
  taskEventEvidenceReferences : List TaskEventEvidenceReference := []
  policyVersions : Table PolicyVersion := .empty
  evidenceRecords : Table EvidenceRecord := .empty
  evidenceDeletionRequests : Table EvidenceDeletionRequest := .empty
  backgroundJobs : Table BackgroundJob := .empty
  backgroundJobLeases : Table BackgroundJobLease := .empty
  backgroundJobCheckpoints : Table BackgroundJobCheckpoint := .empty
  backgroundJobEffects : Table BackgroundJobEffect := .empty
  /-- The next token of the fencing counter, once there is one. -/
  fencingCounter : Option ℕ := none
  backgroundJobTaskTransitions : Table BackgroundJobTaskTransition := .empty
  backgroundJobToolGrants : Table BackgroundJobToolGrant := .empty
  backgroundJobIgnoredResults : Table BackgroundJobIgnoredResult := .empty
  dependencyOutageAttempts : Table DependencyOutageAttempt := .empty
  taskCancellations : Table TaskCancellation := .empty
  reconciliationTargets : Table ReconciliationTarget := .empty
  approvalRequests : Table ApprovalRequest := .empty
  webhookDeliveries : Table WebhookDelivery := .empty
  validationContracts : Table ValidationContract := .empty
  repositoryConfigurations : Table RepositoryConfiguration := .empty
  validationRuns : Table ValidationRun := .empty
  promptTemplateVersions : Table PromptTemplateVersion := .empty
  policyVersionPromptTemplates : List PolicyVersionPromptTemplate := []
  hermesRuns : Table HermesRun := .empty
  hermesRunEvents : Table HermesRunEvent := .empty
  hermesToolProposals : Table HermesToolProposal := .empty
  hermesToolDecisions : Table HermesToolDecision := .empty
  hermesToolResults : Table HermesToolResult := .empty
  briefs : Table Brief := .empty
  briefApprovalDecisions : Table BriefApprovalDecision := .empty
  ruleCandidates : Table RuleCandidate := .empty
  reviewRules : Table ReviewRule := .empty
  policyVersionReviewRules : List PolicyVersionReviewRule := []
  policyActivations : Table PolicyActivation := .empty

instance : Inhabited Database := ⟨{}⟩

end ControlPlane
