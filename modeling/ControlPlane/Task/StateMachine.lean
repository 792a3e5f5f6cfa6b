import ControlPlane.Evidence.Ledger

/-!
# The task state machine

The pure engine that validates one typed intent, and the audited transaction around it:
lock the task, replay a known transition, verify policy and evidence, evaluate the gates,
append the event and project its outcome on the task.

The gate evaluator reads the store and may fail; it is a parameter, because every service
installs its own.
-/
namespace ControlPlane

open Regex Regex.Re

/-- Safe task-transition failures. `integrity` is the store's refusal of a row. -/
inductive TaskTransitionError where
  | invalid (message : String)
  | notFound (message : String)
  | conflict (message : String)
  | integrity (message : String)
  | evidence (error : EvidenceError)
  deriving DecidableEq, Repr

def TaskState.isTerminal : TaskState → Bool
  | handedOff | failed | cancelled => true
  | _ => false

/-! ### Git objects -/

/-- Forty or sixty-four lower-case hexadecimal digits. -/
def IsGitSha (s : String) : Prop :=
  (s.length = 40 ∨ s.length = 64) ∧ ∀ c ∈ s.toList, c ∈ UUID.hexAlphabet

instance (s : String) : Decidable (IsGitSha s) :=
  @instDecidableAnd _ _ inferInstance (List.decidableBAll _ _)

/-- A normalized Git object ID. -/
structure GitSha where
  val : String
  valid : IsGitSha val
  deriving DecidableEq

def normalizedGitSha (rt : Runtime) (value : String) : Except TaskTransitionError GitSha :=
  let normalized := String.ofList (rt.unicode.lower (rt.unicode.strip value.toList))
  if h : IsGitSha normalized then .ok ⟨normalized, h⟩
  else .error (.invalid "gate contains an invalid Git object ID")

theorem ascii_of_mem_hexAlphabet {c : Char} (h : c ∈ UUID.hexAlphabet) :
    Unicode.isAscii c = true ∧ Unicode.asciiUpper c = false ∧ Unicode.asciiAlnum c = true := by
  have hall : (UUID.hexAlphabet.all fun c =>
      Unicode.isAscii c && !Unicode.asciiUpper c && Unicode.asciiAlnum c) = true := by decide
  simpa [and_assoc] using List.all_eq_true.mp hall c h

/-- Normalizing a normalized object ID changes nothing. -/
theorem normalizedGitSha_of_valid (rt : Runtime) {value : String} (h : IsGitSha value) :
    normalizedGitSha rt value = .ok ⟨value, h⟩ := by
  have hstrip : rt.unicode.strip value.toList = value.toList :=
    rt.unicode.strip_eq_self_of_alnum fun c hc => (ascii_of_mem_hexAlphabet (h.2 c hc)).2.2
  have hlower : rt.unicode.lower value.toList = value.toList :=
    rt.unicode.lower_eq_self fun c hc =>
      ⟨(ascii_of_mem_hexAlphabet (h.2 c hc)).1, (ascii_of_mem_hexAlphabet (h.2 c hc)).2.1⟩
  simp only [normalizedGitSha, hstrip, hlower, String.ofList_toList, h, dif_pos]

/-- Exact Git objects fenced to one validation transition. -/
structure ValidationCandidate where
  commitSha : GitSha
  treeSha : GitSha
  deriving DecidableEq

/-! ### Gates -/

/-- Server-built facts proving one exact current head has a verified draft. -/
structure DraftPrGateFacts where
  currentHeadSha : String
  validationCommitSha : String
  localBranchSha : String
  remoteBranchSha : String
  pullRequestHeadSha : String
  validationPassed : Bool
  requiredArtifactsPresent : Bool
  branchClean : Bool
  pullRequestIsDraft : Bool
  noUnresolvedApproval : Bool
  cancellationClear : Bool
  deriving DecidableEq

/-- Server-built facts required to offer one exact head for human action. -/
structure ReadinessGateFacts where
  draftPr : DraftPrGateFacts
  requiredCiGreen : Bool
  noBlockingReview : Bool
  repairsAuthorized : Bool
  deriving DecidableEq

/-- Trusted gate output resolved inside the locked transaction. -/
structure TaskTransitionGuards where
  briefPolicyBypassAuthorized : Bool := false
  briefApprovalRequired : Bool := false
  briefRevisionRequestId : Option UUID := none
  exactBriefHumanApproval : Bool := false
  repairAuthorized : Bool := false
  draftPr : Option DraftPrGateFacts := none
  readiness : Option ReadinessGateFacts := none
  readinessInvalidationCurrent : Bool := false
  humanHandoffAcknowledged : Bool := false
  resumeDecisionId : Option UUID := none
  resumeDecisionCurrent : Bool := false
  resumePreconditionsRechecked : Bool := false
  workFenceVerified : Bool := false
  scopeDecisionsInvalidated : Bool := false
  deriving DecidableEq

/-- Resolve authoritative task gates; callers never submit gate booleans. -/
abbrev TaskTransitionGateEvaluator :=
  Database → Task → TaskTransitionKind → PolicyVersion → Time →
    Except TaskTransitionError TaskTransitionGuards

def verifiedDraftHead (rt : Runtime) (facts : DraftPrGateFacts) :
    Except TaskTransitionError GitSha := do
  let currentHead ← normalizedGitSha rt facts.currentHeadSha
  let validation ← normalizedGitSha rt facts.validationCommitSha
  let localBranch ← normalizedGitSha rt facts.localBranchSha
  let remoteBranch ← normalizedGitSha rt facts.remoteBranchSha
  let pullRequest ← normalizedGitSha rt facts.pullRequestHeadSha
  Except.require (validation = currentHead ∧ localBranch = currentHead ∧
      remoteBranch = currentHead ∧ pullRequest = currentHead ∧ facts.validationPassed ∧
      facts.requiredArtifactsPresent ∧ facts.branchClean ∧ facts.pullRequestIsDraft ∧
      facts.noUnresolvedApproval ∧ facts.cancellationClear)
    (.invalid "the exact-head verified draft PR gate is not satisfied")
  return currentHead

/-- Persistence-independent state consumed by the pure engine. -/
structure TaskTransitionSnapshot where
  state : TaskState
  escalationResumeState : Option TaskState := none
  verifiedPrHeadSha : Option GitSha := none

def readinessHead (rt : Runtime) (snapshot : TaskTransitionSnapshot)
    (facts : ReadinessGateFacts) : Except TaskTransitionError GitSha := do
  let currentHead ← verifiedDraftHead rt facts.draftPr
  Except.require (snapshot.verifiedPrHeadSha = some currentHead ∧ facts.requiredCiGreen ∧
      facts.noBlockingReview ∧ facts.repairsAuthorized)
    (.invalid "the exact-current-head readiness gate is not satisfied")
  return currentHead

/-! ### The pure engine -/

/-- Accepted pure transition output applied atomically by the service. -/
structure TaskTransitionPlan where
  fromState : TaskState
  toState : TaskState
  kind : TaskTransitionKind
  escalationResumeState : Option TaskState := none
  terminalOutcome : Option TaskTerminalOutcome := none
  gateHeadSha : Option GitSha := none
  retryDelta : ℕ := 0
  invalidateScopeBindings : Bool := false

/-- Whether an intent with one fixed target is valid, and its target. -/
def edge (current : TaskState) (guards : TaskTransitionGuards) :
    TaskTransitionKind → Bool × TaskState
  | .startBriefing => (current = .intake, .briefing)
  | .autoAcceptBrief => (current = .briefing && guards.briefPolicyBypassAuthorized, .implementing)
  | .requestBriefApproval =>
    (current = .briefing && guards.briefApprovalRequired, .briefPendingApproval)
  | .reviseBrief =>
    (current = .briefPendingApproval && guards.briefRevisionRequestId.isSome, .briefing)
  | .approveExactBrief =>
    (current = .briefPendingApproval && guards.exactBriefHumanApproval, .implementing)
  | .beginValidation => (current = .implementing, .validating)
  | .beginRepair =>
    ((current = .validating || current = .prActive) && guards.repairAuthorized, .repairing)
  | .revalidate => (current = .repairing, .validating)
  | .openVerifiedDraftPr => (current = .validating && guards.draftPr.isSome, .prActive)
  | .markMergeReady => (current = .prActive && guards.readiness.isSome, .readyForHumanMerge)
  | .invalidateReadiness =>
    (current = .readyForHumanMerge && guards.readinessInvalidationCurrent, .prActive)
  | .acknowledgeHandoff =>
    (current = .readyForHumanMerge && guards.humanHandoffAcknowledged && guards.readiness.isSome,
      .handedOff)
  | _ => (false, current)

/-- The head the gate of an intent verifies. -/
def gateHead (rt : Runtime) (snapshot : TaskTransitionSnapshot) (guards : TaskTransitionGuards) :
    TaskTransitionKind → Except TaskTransitionError (Option GitSha)
  | .openVerifiedDraftPr => do
    let facts ← Except.orThrow guards.draftPr (.invalid "task transition is not allowed")
    return some (← verifiedDraftHead rt facts)
  | .markMergeReady | .acknowledgeHandoff => do
    let facts ← Except.orThrow guards.readiness (.invalid "task transition is not allowed")
    return some (← readinessHead rt snapshot facts)
  | _ => return none

/-- Purely validate one typed intent and return its durable projection. -/
def evaluateTaskTransition (rt : Runtime) (snapshot : TaskTransitionSnapshot)
    (kind : TaskTransitionKind) (guards : TaskTransitionGuards) :
    Except TaskTransitionError TaskTransitionPlan :=
  let current := snapshot.state
  if current.isTerminal then .error (.invalid "terminal tasks cannot transition")
  else match kind with
  | .cancel =>
    .ok { fromState := current, toState := .cancelled, kind, terminalOutcome := some .cancelled }
  | .fail =>
    .ok { fromState := current, toState := .failed, kind, terminalOutcome := some .failed }
  | .escalate =>
    if current = .escalated then .error (.invalid "an escalated task cannot escalate again")
    else .ok { fromState := current, toState := .escalated, kind,
               escalationResumeState := some current }
  | .resume =>
    match snapshot.escalationResumeState with
    | some target =>
      if current ≠ .escalated ∨ target.isTerminal ∨ target = .escalated ∨
          guards.resumeDecisionId = none ∨ ¬ guards.resumeDecisionCurrent ∨
          ¬ guards.resumePreconditionsRechecked then
        .error (.invalid "escalation may resume only to the recorded state after recheck")
      else .ok { fromState := current, toState := target, kind }
    | none =>
      .error (.invalid "escalation may resume only to the recorded state after recheck")
  | .scopeSteer =>
    if current = .escalated ∨ ¬ guards.workFenceVerified ∨ ¬ guards.scopeDecisionsInvalidated then
      .error (.invalid "scope steering requires trusted fencing and invalidation")
    else .ok { fromState := current, toState := .briefing, kind, invalidateScopeBindings := true }
  | kind => do
    let (valid, target) := edge current guards kind
    Except.require (valid = true) (.invalid "task transition is not allowed")
    let gateHeadSha ← gateHead rt snapshot guards kind
    return { fromState := current, toState := target, kind,
             terminalOutcome := if target = .handedOff then some .automationHandedOff else none
             gateHeadSha
             retryDelta := if kind = .beginRepair then 1 else 0 }

/-! ### The command -/

def actorIdentifier : Pattern := seq (cls alnum) (star (cls (.union alnum (oneOf "._:/-"))))

def requiredActor (rt : Runtime) (value : String) : Except TaskTransitionError String := do
  let normalized := rt.unicode.strip value.toList
  let prepared ← Except.relabel
    (redactEvidenceContent rt (.str (String.ofList normalized)) .text) .evidence
  Except.require (normalized ≠ [] ∧ normalized.length ≤ 255 ∧
      actorIdentifier.fullmatch (CharClass.holds rt.unicode) normalized ∧
      occursIn "://".toList normalized = false ∧ occursIn "//".toList normalized = false ∧
      occursIn "..".toList normalized = false ∧ "/".toList.isPrefixOf normalized = false ∧
      prepared.manifest = [])
    (.invalid "transition actor is invalid")
  return String.ofList normalized

/-- An upper-case letter and at most ninety-nine more letters, digits and underscores. -/
def reasonCode : Pattern :=
  seq (cls upperLetter)
    (many true 0 (some 99) (cls (.union (.union upperLetter decimal) (oneOf "_"))))

def requiredReasonCode (rt : Runtime) (value : String) : Except TaskTransitionError String := do
  let normalized := rt.unicode.upper (rt.unicode.strip value.toList)
  Except.require (reasonCode.fullmatch (CharClass.holds rt.unicode) normalized)
    (.invalid "transition reason code is invalid")
  return String.ofList normalized

/-- The arguments of one transition, with the identifier the new event gets. -/
structure TaskTransitionCommand where
  taskId : UUID
  transitionId : UUID
  expectedState : TaskState
  kind : TaskTransitionKind
  reasonCode : String
  actorId : String
  evidenceIds : List UUID
  validationCandidate : Option ValidationCandidate := none
  gateEvaluator : TaskTransitionGateEvaluator
  activePolicyLineage : String := "mvp"
  occurredAt : Time
  eventId : UUID

/-- Whether an intent carries a validation candidate. -/
def TaskTransitionKind.validates : TaskTransitionKind → Bool
  | beginValidation | revalidate => true
  | _ => false

def ValidationCandidate.toJson (c : ValidationCandidate) : Json :=
  .obj [("commit_sha", .str c.commitSha.val), ("tree_sha", .str c.treeSha.val)]

def commandFingerprint (rt : Runtime) (c : TaskTransitionCommand) (reason actor : String) :
    String :=
  rt.fingerprint <| .obj <|
    [("actor_id", .str actor),
      ("evidence_ids",
        .arr (((c.evidenceIds.map UUID.str).insertionSort (· ≤ ·)).map Json.str)),
      ("expected_state", .str c.expectedState.value),
      ("kind", .str c.kind.value),
      ("reason_code", .str reason),
      ("task_id", .str c.taskId.str),
      ("transition_id", .str c.transitionId.str)] ++
    match c.validationCandidate with
    | some candidate => [("validation_candidate", candidate.toJson)]
    | none => []

/-! ### Queries -/

def taskTransitionEventType : String := "TASK_STATE_TRANSITION"

/-- The events of a task, in insertion order. -/
def taskEventsOf (db : Database) (taskId : UUID) : List TaskEvent :=
  db.taskEvents.select fun e => e.taskId = taskId

/-- The accepted transitions of a task. -/
def transitionsOf (db : Database) (taskId : UUID) : List TaskEvent :=
  db.taskEvents.select fun e => e.taskId = taskId && e.eventType = taskTransitionEventType

def latestVerifiedPrHead (rt : Runtime) (db : Database) (taskId : UUID) :
    Except TaskTransitionError (Option GitSha) :=
  let gated := (transitionsOf db taskId).filter (·.gateHeadSha.isSome)
  match (latestBy TaskEvent.sequence gated).bind TaskEvent.gateHeadSha with
  | none => .ok none
  | some value =>
    Except.relabel ((normalizedGitSha rt value).map some)
      fun _ => .conflict "stored transition gate head is invalid"

def nextEventSequence (db : Database) (taskId : UUID) : ℕ :=
  maxRank TaskEvent.sequence (taskEventsOf db taskId) + 1

/-- Fail closed when a policy carries an exact repository authority binding. -/
def policyAuthorizesRepository (policy : PolicyVersion) (repository : String) : Bool :=
  let authority := policy.workflowThresholds.get "repository_authority"
  authority.isNull ||
    authority.pyEq (.obj [("schema_version", .int 1), ("repository", .str repository)])

def activePolicy (db : Database) (task : Task) (lineageKey : String) (now : Time) :
    Except TaskTransitionError PolicyVersion := do
  let candidates := db.policyVersions.select fun p =>
    p.lineageKey = lineageKey && p.ownerId = task.ownerId && p.approvedAt ≤ now
  let policy ← Except.orThrow (latestBy PolicyVersion.version candidates)
    (.notFound "active policy version is unavailable")
  Except.require (policyAuthorizesRepository policy task.repository = true)
    (.notFound "active policy version is unavailable")
  return policy

def eventOfTransition (db : Database) (transitionId : UUID) : Option TaskEvent :=
  db.taskEvents.rows.find? (·.transitionId = some transitionId)

/-! ### The transaction -/

/-- Committed transition identity returned without evidence content. -/
structure TaskTransitionResult where
  taskId : UUID
  transitionId : UUID
  eventId : UUID
  sequence : ℕ
  fromState : TaskState
  toState : TaskState
  replayed : Bool := false

def candidateMatches (event : TaskEvent) (c : TaskTransitionCommand) : Bool :=
  if c.kind.validates then
    match c.validationCandidate with
    | none => false
    | some candidate =>
      let stored := event.payload.get "validation_candidate"
      stored.hasKeys ["commit_sha", "tree_sha"] &&
        (stored.get "commit_sha").pyEq (.str candidate.commitSha.val) &&
        (stored.get "tree_sha").pyEq (.str candidate.treeSha.val)
  else true

def replayedTransition (event : TaskEvent) (c : TaskTransitionCommand) (fingerprint : String) :
    Except TaskTransitionError TaskTransitionResult := do
  let refused : TaskTransitionError :=
    .conflict "transition id was already used for a different command"
  Except.require (event.taskId = c.taskId ∧ event.transitionKind = some c.kind ∧
      candidateMatches event c = true ∧ event.transitionFingerprint = some fingerprint) refused
  let fromState ← Except.orThrow event.transitionFromState refused
  let toState ← Except.orThrow event.transitionToState refused
  return { taskId := c.taskId, transitionId := c.transitionId, eventId := event.id,
           sequence := event.sequence, fromState, toState, replayed := true }

def verifyOneTransitionEvidence (rt : Runtime) (db : Database) (task : Task) (evidenceId : UUID) :
    Except TaskTransitionError EvidenceRecord := do
  let unavailable : TaskTransitionError := .notFound "transition evidence is unavailable"
  let record ← Except.orThrow (db.evidenceRecords.get? evidenceId) unavailable
  Except.require (record.taskId = some task.id ∧ record.ownerId = task.ownerId ∧
      record.rootCorrelationId = task.rootCorrelationId ∧ corrected db record.id = false ∧
      deletionRequested db record.id = false) unavailable
  let _ ← Except.relabel (loadEvidence rt db record) fun _ => unavailable
  return record

def verifyTransitionEvidence (rt : Runtime) (db : Database) (task : Task)
    (evidenceIds : List UUID) : Except TaskTransitionError (List EvidenceRecord) := do
  Except.require (∀ id ∈ evidenceIds, (db.evidenceRecords.get? id).isSome)
    (.notFound "transition evidence is unavailable")
  evidenceIds.mapM (verifyOneTransitionEvidence rt db task)

def DraftPrGateFacts.toJson (f : DraftPrGateFacts) : Json :=
  .obj
    [("current_head_sha", .str f.currentHeadSha),
      ("validation_commit_sha", .str f.validationCommitSha),
      ("local_branch_sha", .str f.localBranchSha),
      ("remote_branch_sha", .str f.remoteBranchSha),
      ("pull_request_head_sha", .str f.pullRequestHeadSha),
      ("validation_passed", .bool f.validationPassed),
      ("required_artifacts_present", .bool f.requiredArtifactsPresent),
      ("branch_clean", .bool f.branchClean),
      ("pull_request_is_draft", .bool f.pullRequestIsDraft),
      ("no_unresolved_approval", .bool f.noUnresolvedApproval),
      ("cancellation_clear", .bool f.cancellationClear)]

def ReadinessGateFacts.toJson (f : ReadinessGateFacts) : Json :=
  .obj
    [("draft_pr", f.draftPr.toJson),
      ("required_ci_green", .bool f.requiredCiGreen),
      ("no_blocking_review", .bool f.noBlockingReview),
      ("repairs_authorized", .bool f.repairsAuthorized)]

def TaskTransitionGuards.toJson (g : TaskTransitionGuards) : Json :=
  .obj
    [("brief_policy_bypass_authorized", .bool g.briefPolicyBypassAuthorized),
      ("brief_approval_required", .bool g.briefApprovalRequired),
      ("brief_revision_request_id", optionalId g.briefRevisionRequestId),
      ("exact_brief_human_approval", .bool g.exactBriefHumanApproval),
      ("repair_authorized", .bool g.repairAuthorized),
      ("draft_pr", (g.draftPr.map DraftPrGateFacts.toJson).getD .null),
      ("readiness", (g.readiness.map ReadinessGateFacts.toJson).getD .null),
      ("readiness_invalidation_current", .bool g.readinessInvalidationCurrent),
      ("human_handoff_acknowledged", .bool g.humanHandoffAcknowledged),
      ("resume_decision_id", optionalId g.resumeDecisionId),
      ("resume_decision_current", .bool g.resumeDecisionCurrent),
      ("resume_preconditions_rechecked", .bool g.resumePreconditionsRechecked),
      ("work_fence_verified", .bool g.workFenceVerified),
      ("scope_decisions_invalidated", .bool g.scopeDecisionsInvalidated)]

def handoffMeaning : String :=
  "Automation responsibility has ended; this does not mean merged, deployed, " ++
  "delivered, or released."

/-- The payload of a transition event. -/
def transitionPayload (task : Task) (plan : TaskTransitionPlan) (guards : TaskTransitionGuards)
    (candidate : Option ValidationCandidate) : Json :=
  .obj <|
    [("schema_version", .int 1),
      ("kind", .str plan.kind.value),
      ("gate_facts", guards.toJson),
      ("invalidated_ids",
        if plan.invalidateScopeBindings then
          .obj
            [("accepted_brief_id", optionalId task.acceptedBriefId),
              ("brief_approval_decision_id", optionalId task.briefApprovalDecisionId),
              ("validation_contract_id", optionalId task.validationContractId)]
        else .null),
      ("meaning", if plan.toState = .handedOff then .str handoffMeaning else .null)] ++
    match candidate with
    | some candidate => [("validation_candidate", candidate.toJson)]
    | none => []

/-- The event of an accepted transition. -/
def transitionEvent (db : Database) (c : TaskTransitionCommand) (task : Task)
    (policy : PolicyVersion) (plan : TaskTransitionPlan) (guards : TaskTransitionGuards)
    (reason fingerprint : String) : TaskEvent where
  id := c.eventId
  taskId := task.id
  sequence := nextEventSequence db task.id
  eventType := taskTransitionEventType
  payload := transitionPayload task plan guards c.validationCandidate
  occurredAt := c.occurredAt
  transitionId := some c.transitionId
  transitionFingerprint := some fingerprint
  transitionKind := some plan.kind
  transitionFromState := some plan.fromState
  transitionToState := some plan.toState
  transitionReasonCode := some reason
  policyLineageKey := some policy.lineageKey
  policyVersionId := some policy.id
  gateHeadSha := plan.gateHeadSha.map GitSha.val
  ownerId := task.ownerId
  rootCorrelationId := task.rootCorrelationId
  causationId := some task.id
  parentCorrelationId := task.parentCorrelationId

/-- The task after an accepted transition. -/
def Task.apply (task : Task) (plan : TaskTransitionPlan) (eventId : UUID) : Task :=
  let task := { task with
    state := plan.toState
    escalationResumeState := plan.escalationResumeState
    terminalOutcome := plan.terminalOutcome
    retryCount := task.retryCount + plan.retryDelta
    causationId := some eventId }
  if plan.invalidateScopeBindings then
    { task with acceptedBriefId := none, briefApprovalDecisionId := none,
                validationContractId := none }
  else task

/-- What is checked of a command before the store is read: actor, reason code, evidence
references and candidate. -/
def checkCommand (rt : Runtime) (c : TaskTransitionCommand) :
    Except TaskTransitionError (String × String) := do
  let actor ← requiredActor rt c.actorId
  let reason ← requiredReasonCode rt c.reasonCode
  Except.require (c.evidenceIds ≠ [] ∧ c.evidenceIds.Nodup ∧ c.evidenceIds.length ≤ 100)
    (.invalid "transition evidence references are invalid")
  if c.kind.validates then
    Except.require (c.validationCandidate ≠ none)
      (.invalid "validation transition requires exact candidate Git objects")
  else
    Except.require (c.validationCandidate = none)
      (.invalid "validation candidate is not allowed for this transition")
  return (actor, reason)

/-- Evaluate, append and apply a transition of a locked task. -/
def applyTransition (rt : Runtime) (db : Database) (c : TaskTransitionCommand) (task : Task)
    (reason fingerprint : String) :
    Except TaskTransitionError (TaskTransitionResult × Database) := do
  Except.require (task.state = c.expectedState)
    (.conflict "task state no longer matches expected state")
  let policy ← activePolicy db task c.activePolicyLineage c.occurredAt
  let evidence ← verifyTransitionEvidence rt db task c.evidenceIds
  let verifiedPrHeadSha ← latestVerifiedPrHead rt db task.id
  let snapshot := { state := task.state, escalationResumeState := task.escalationResumeState,
                    verifiedPrHeadSha : TaskTransitionSnapshot }
  let guards ← c.gateEvaluator db task c.kind policy c.occurredAt
  let plan ← evaluateTaskTransition rt snapshot c.kind guards
  let event := transitionEvent db c task policy plan guards reason fingerprint
  let taskEvents ← Except.orThrow (db.taskEvents.insert? event)
    (.integrity "task event is not unique")
  let references := evidence.zipIdx.map fun (record, i) =>
    { taskId := task.id, taskEventId := event.id, evidenceId := record.id,
      position := i + 1 : TaskEventEvidenceReference }
  return ({ taskId := task.id, transitionId := c.transitionId, eventId := event.id,
            sequence := event.sequence, fromState := plan.fromState, toState := plan.toState },
    { db with
      taskEvents
      taskEventEvidenceReferences := db.taskEventEvidenceReferences ++ references
      tasks := db.tasks.set (task.apply plan event.id) })

/-- Lock, verify, idempotently audit, and apply one state transition. -/
def transitionTask (rt : Runtime) (db : Database) (c : TaskTransitionCommand) :
    Except TaskTransitionError (TaskTransitionResult × Database) := do
  let (actor, reason) ← checkCommand rt c
  let fingerprint := commandFingerprint rt c reason actor
  let task ← Except.orThrow (db.tasks.get? c.taskId) (.notFound "task is unavailable")
  match eventOfTransition db c.transitionId with
  | some existing => return (← replayedTransition existing c fingerprint, db)
  | none => applyTransition rt db c task reason fingerprint

/-- The committed boundary: a row the store refused is looked up once more as a replay. -/
def TaskTransitionService.transition (rt : Runtime) (db : Database) (c : TaskTransitionCommand) :
    Except TaskTransitionError (TaskTransitionResult × Database) :=
  match transitionTask rt db c with
  | .error (.integrity message) =>
    match eventOfTransition db c.transitionId with
    | none => .error (.integrity message)
    | some existing => do
      let reason ← requiredReasonCode rt c.reasonCode
      return (← replayedTransition existing c (commandFingerprint rt c reason c.actorId), db)
  | outcome => outcome

/-! ### What an accepted command did -/

/-- Everything the transaction read and computed when it accepted a new transition. -/
structure Acceptance (rt : Runtime) (db : Database) (c : TaskTransitionCommand) where
  task : Task
  policy : PolicyVersion
  evidence : List EvidenceRecord
  head : Option GitSha
  guards : TaskTransitionGuards
  plan : TaskTransitionPlan
  actor : String
  reason : String
  taskEvents : Table TaskEvent
  command_eq : checkCommand rt c = .ok (actor, reason)
  task_eq : db.tasks.get? c.taskId = some task
  transition_fresh : eventOfTransition db c.transitionId = none
  state_eq : task.state = c.expectedState
  policy_eq : activePolicy db task c.activePolicyLineage c.occurredAt = .ok policy
  evidence_eq : verifyTransitionEvidence rt db task c.evidenceIds = .ok evidence
  head_eq : latestVerifiedPrHead rt db task.id = .ok head
  guards_eq : c.gateEvaluator db task c.kind policy c.occurredAt = .ok guards
  plan_eq : evaluateTaskTransition rt ⟨task.state, task.escalationResumeState, head⟩ c.kind guards =
    .ok plan
  event_inserted : db.taskEvents.insert?
    (transitionEvent db c task policy plan guards reason
      (commandFingerprint rt c reason actor)) = some taskEvents

namespace Acceptance
variable {rt : Runtime} {db : Database} {c : TaskTransitionCommand}

/-- The event recorded. -/
def event (a : Acceptance rt db c) : TaskEvent :=
  transitionEvent db c a.task a.policy a.plan a.guards a.reason
    (commandFingerprint rt c a.reason a.actor)

/-- The store afterwards. -/
def after (a : Acceptance rt db c) : Database :=
  { db with
    taskEvents := a.taskEvents
    taskEventEvidenceReferences := db.taskEventEvidenceReferences ++
      a.evidence.zipIdx.map fun (record, i) =>
        { taskId := a.task.id, taskEventId := a.event.id, evidenceId := record.id,
          position := i + 1 }
    tasks := db.tasks.set (a.task.apply a.plan a.event.id) }

theorem task_id (a : Acceptance rt db c) : a.task.id = c.taskId := Table.key_of_get? a.task_eq

theorem rows_after (a : Acceptance rt db c) :
    a.after.taskEvents.rows = db.taskEvents.rows ++ [a.event] :=
  (Table.insert?_eq_some.mp a.event_inserted).2

end Acceptance

/-- A command is accepted as a replay that changes nothing, or as a new transition. -/
theorem transitionTask_ok {rt : Runtime} {db db' : Database} {c : TaskTransitionCommand}
    {result : TaskTransitionResult} (h : transitionTask rt db c = .ok (result, db')) :
    db' = db ∨ ∃ a : Acceptance rt db c, db' = a.after := by
  simp only [transitionTask, Except.bind_eq_ok, Except.orThrow_eq_ok] at h
  obtain ⟨⟨actor, reason⟩, hcommand, task, htask, h⟩ := h
  cases hfresh : eventOfTransition db c.transitionId with
  | some existing =>
    simp only [hfresh, Except.bind_eq_ok, Except.pure_eq_ok, Prod.mk.injEq] at h
    obtain ⟨_, _, _, rfl⟩ := h
    exact .inl rfl
  | none =>
    simp only [hfresh, applyTransition, Except.bind_eq_ok, Except.require_eq_ok,
      Except.orThrow_eq_ok, Except.pure_eq_ok, Prod.mk.injEq] at h
    obtain ⟨_, hstate, policy, hpolicy, evidence, hevidence, head, hhead, guards, hguards, plan,
      hplan, taskEvents, hevents, -, rfl⟩ := h
    exact .inr ⟨⟨task, policy, evidence, head, guards, plan, actor, reason, taskEvents, hcommand,
      htask, hfresh, hstate, hpolicy, hevidence, hhead, hguards, hplan, hevents⟩, rfl⟩

/-- The committed boundary accepts what the transaction accepts. -/
theorem TaskTransitionService.transition_ok {rt : Runtime} {db db' : Database}
    {c : TaskTransitionCommand} {result : TaskTransitionResult}
    (h : TaskTransitionService.transition rt db c = .ok (result, db')) :
    db' = db ∨ ∃ a : Acceptance rt db c, db' = a.after := by
  unfold TaskTransitionService.transition at h
  split at h
  · -- The second look at a refused row only ever replays.
    split at h
    · cases h
    · simp only [Except.bind_eq_ok, Except.pure_eq_ok, Prod.mk.injEq] at h
      obtain ⟨_, _, _, _, _, rfl⟩ := h
      exact .inl rfl
  · exact transitionTask_ok h

end ControlPlane
