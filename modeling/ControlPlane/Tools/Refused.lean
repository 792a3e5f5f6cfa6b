import ControlPlane.Tools.System
import ControlPlane.Hermes.Grants

/-!
# A refusal after a dispatch

The gateway fails on a dispatch and the execution stops, the task leaves its active states,
and the next execution of the proposal records a rejection although the host may have
carried the first one out.
-/
namespace ControlPlane

namespace ToolExample
open HermesExample (task job lease grant runId template policy prompt)

def configuration : RepositoryConfiguration where
  id := .ofNat 30
  version := 1
  repositoryKey := task.repository

def checks : RepositoryChecks where
  validated record := some ⟨record.id, record.repositoryKey, "digest", []⟩
  preflightReady _ _ _ := true

def run : HermesRun where
  id := runId
  taskId := task.id
  jobId := job.id
  leaseId := lease.id
  fencingToken := 1
  attempt := 1
  externalRunId := some "external"
  promptTemplateVersionId := template.id
  policyVersionId := policy.id
  evaluationLabel := none
  promptFingerprint := ""
  status := .running
  startedAt := 0
  ownerId := "owner"
  rootCorrelationId := .ofNat 7

def toolGrant : BackgroundJobToolGrant where
  id := .ofNat 31
  jobId := job.id
  leaseId := lease.id
  fencingToken := 1
  grantKey := hermesGrantKey runId
  capabilityScope := hermesGrantScope runId task.id
  issuedAt := 0

def brief : Brief where
  id := .ofNat 35
  taskId := task.id
  scope := .obj [("included_paths", .arr [.str "."])]

/-- A patch that adds a file. -/
def proposal : HermesToolProposalRequest where
  proposalId := "p"
  toolName := .applyPatch
  arguments := [("changes", .arr [.obj
    [("path", .str "a"), ("expected_digest", .null), ("content", .str "password=x")]])]

def stored : HermesToolProposal where
  id := toolProposalId .plain runId proposal.proposalId
  runId := runId
  taskId := task.id
  jobId := job.id
  leaseId := lease.id
  fencingToken := 1
  externalProposalId := proposal.proposalId
  toolName := proposal.toolName.value
  argumentsFingerprint := Runtime.plain.sha256 ""
  proposalEvidenceId := .ofNat 32
  ownerId := "owner"
  rootCorrelationId := .ofNat 7

def decision : HermesToolDecision where
  id := .ofNat 33
  proposalId := stored.id
  status := .authorized
  reasonCode := "AUTHORIZED"
  toolGrantId := toolGrant.id
  briefId := some brief.id
  repositoryConfigurationId := some configuration.id
  policyVersionId := policy.id
  decisionEvidenceId := .ofNat 34

/-- The proposal is authorized, and was not executed. -/
def start : Database where
  tasks := HermesExample.start.tasks
  backgroundJobs := HermesExample.start.backgroundJobs
  backgroundJobLeases := HermesExample.start.backgroundJobLeases
  backgroundJobToolGrants := ⟨[toolGrant], List.nodup_singleton _⟩
  repositoryConfigurations := ⟨[configuration], List.nodup_singleton _⟩
  briefs := ⟨[brief], List.nodup_singleton _⟩
  hermesRuns := ⟨[run], List.nodup_singleton _⟩
  hermesToolProposals := ⟨[stored], List.nodup_singleton _⟩
  hermesToolDecisions := ⟨[decision], List.nodup_singleton _⟩

def authorization : ToolAuthorization where
  proposalId := stored.id
  decisionId := decision.id
  decisionStatus := .authorized
  reasonCode := "AUTHORIZED"
  decisionEvidenceId := .ofNat 34
  configuration := some ⟨configuration.id, configuration.repositoryKey, "digest", []⟩
  normalizedArguments := some proposal.arguments
  replayed := true

def request : HostRequest where
  operation := "git.apply_patch"
  idempotencyKey := "hermes-tool:" ++ stored.id.str
  configuration := ⟨configuration.id, configuration.repositoryKey, "digest", []⟩
  arguments := proposal.arguments

/-- The store a transaction committed, and the one before when it failed. -/
def after {α : Type} (db : Database) (result : Except ScopedToolError (α × Database)) : Database :=
  match result with
  | .ok (_, db) => db
  | .error _ => db

def valueOr {α : Type} (value : α) (result : Except ScopedToolError (α × Database)) : α :=
  match result with
  | .ok (a, _) => a
  | .error _ => value

theorem eq_ok_after {α : Type} (value : α) (db : Database)
    {result : Except ScopedToolError (α × Database)} (h : result.isOk = true) :
    result = .ok (valueOr value result, after db result) := by
  cases result with
  | ok r => rfl
  | error e => cases h

def authorize (db : Database) : Except ScopedToolError (ToolAuthorization × Database) :=
  authorizeProposal .plain checks "control-plane" db grant runId proposal (seconds 1) (.ofNat 42)

def record (db : Database) (authorization : ToolAuthorization) (answer : ToolAnswer)
    (taskEventId : UUID) : Except ScopedToolError (ScopedToolExecutionResult × Database) :=
  recordResult .plain checks "control-plane" db authorization proposal
    (answer.response authorization) (seconds 2) taskEventId

/-- The gateway fails. -/
def unreachable : Except String HostResponse := .error "HOST_UNAVAILABLE"

/-- The first execution: authorized and dispatched. -/
def authorization₁ : ToolAuthorization := valueOr authorization (authorize start)
def authorized₁ : Database := after start (authorize start)

/-- The task left its active states. -/
def left : Database :=
  { authorized₁ with tasks := authorized₁.tasks.set { task with state := .failed } }

/-- The second execution: authorized, refused, and recorded as rejected. -/
def authorization₂ : ToolAuthorization := valueOr authorization (authorize left)
def authorized₂ : Database := after left (authorize left)
def refused : Database := after authorized₂ (record authorized₂ authorization₂ .stale (.ofNat 41))

def hasNoTerminal (db : Database) (authorization : ToolAuthorization) : Bool :=
  match terminalResult .plain db authorization.proposalId proposal.proposalId with
  | .ok none => true
  | _ => false

theorem terminalResult_none {db : Database} {authorization : ToolAuthorization}
    (h : hasNoTerminal db authorization = true) :
    terminalResult .plain db authorization.proposalId proposal.proposalId = .ok none := by
  simp only [hasNoTerminal] at h
  split at h
  · assumption
  · cases h

/-- The request of an authorized execution. -/
def requestOf (authorization : ToolAuthorization) : HostRequest :=
  (hostRequest authorization proposal).getD request

/-- The first execution is authorized and dispatched. The second is authorized and refused,
and leaves a rejected row. -/
theorem executions_checked :
    ((authorize start).isOk && hasNoTerminal authorized₁ authorization₁ &&
      decide (authorization₁.decisionStatus = .authorized) &&
      (hostRequest authorization₁ proposal).isSome &&
      (checkDispatch checks authorized₁ grant authorization₁ (requestOf authorization₁)
        (seconds 1)).isOk) = true ∧
    ((authorize left).isOk && hasNoTerminal authorized₂ authorization₂ &&
      decide (authorization₂.decisionStatus = .authorized) &&
      (hostRequest authorization₂ proposal).isSome &&
      !(checkDispatch checks authorized₂ grant authorization₂ (requestOf authorization₂)
        (seconds 1)).isOk) = true ∧
    ((record authorized₂ authorization₂ .stale (.ofNat 41)).isOk &&
      refused.hermesToolResults.rows.any fun r =>
        r.status = .rejected && r.proposalId = authorization₁.proposalId) = true := by
  refine ⟨?_, ?_, ?_⟩ <;> decide +kernel

variable {condition :
    ToolState → ToolAuthorization → HermesToolProposalRequest → ToolAnswer → Prop}
  {db : Database} {a : ToolAuthorization} {ds : List (UUID × Option HostResponseStatus)}

theorem authorize_step (h : (authorize db).isOk = true)
    (hterminal : hasNoTerminal (after db (authorize db)) (valueOr authorization (authorize db)) =
      true) :
    ToolStep .plain checks condition ⟨db, .idle, ds⟩
      ⟨after db (authorize db),
        .authorized grant (valueOr authorization (authorize db)) proposal, ds⟩ :=
  .authorize "control-plane" grant runId proposal (seconds 1) (.ofNat 42) _
    (eq_ok_after authorization db h) (terminalResult_none hterminal) rfl rfl

theorem checkDispatch_of_isOk (h : (hostRequest a proposal).isSome = true) {accepted : Bool}
    (hcheck : (checkDispatch checks db grant a (requestOf a) (seconds 1)).isOk = accepted) :
    ∃ request, hostRequest a proposal = some request ∧
      (checkDispatch checks db grant a request (seconds 1)).isOk = accepted := by
  obtain ⟨request', hrequest⟩ := Option.isSome_iff_exists.mp h
  rw [requestOf, hrequest] at hcheck
  exact ⟨request', hrequest, hcheck⟩

theorem dispatch_step (outcome : Except String HostResponse)
    (hstatus : a.decisionStatus = .authorized)
    (h : (hostRequest a proposal).isSome = true)
    (hcheck : (checkDispatch checks db grant a (requestOf a) (seconds 1)).isOk = true) :
    ToolStep .plain checks condition ⟨db, .authorized grant a proposal, ds⟩
      ⟨db, .answered a proposal (answerOf outcome), (a.proposalId, statusOf outcome) :: ds⟩ := by
  obtain ⟨request', hrequest, hcheck⟩ := checkDispatch_of_isOk h hcheck
  refine .dispatch grant a proposal request' (seconds 1) outcome rfl hstatus hrequest ?_ rfl rfl rfl
  cases hdispatch : checkDispatch checks db grant a request' (seconds 1) with
  | ok u => rfl
  | error e =>
    rw [hdispatch] at hcheck
    cases hcheck

theorem refuse_step (hstatus : a.decisionStatus = .authorized)
    (h : (hostRequest a proposal).isSome = true)
    (hcheck : (checkDispatch checks db grant a (requestOf a) (seconds 1)).isOk = false) :
    ToolStep .plain checks condition ⟨db, .authorized grant a proposal, ds⟩
      ⟨db, .answered a proposal .stale, ds⟩ := by
  obtain ⟨request', hrequest, hcheck⟩ := checkDispatch_of_isOk h hcheck
  cases hdispatch : checkDispatch checks db grant a request' (seconds 1) with
  | ok u =>
    rw [hdispatch] at hcheck
    cases hcheck
  | error e =>
    exact .refuse grant a proposal request' (seconds 1) e rfl hstatus hrequest hdispatch rfl rfl rfl

theorem record_step {answer : ToolAnswer} {taskEventId : UUID}
    (hcondition : condition ⟨db, .answered a proposal answer, ds⟩ a proposal answer)
    (h : (record db a answer taskEventId).isOk = true) :
    ToolStep .plain checks condition ⟨db, .answered a proposal answer, ds⟩
      ⟨after db (record db a answer taskEventId), .idle, ds⟩ :=
  .record "control-plane" a proposal answer (seconds 2) taskEventId
    (valueOr ⟨"", .ambiguous, "", [], .ofNat 0, .ofNat 0, none, false⟩ (record db a answer taskEventId))
    rfl hcondition (eq_ok_after _ db h) rfl rfl

theorem leave_step (tasks : Table Task) :
    ToolStep .plain checks condition ⟨db, .idle, ds⟩ ⟨{ db with tasks := tasks }, .idle, ds⟩ :=
  .other ⟨rfl, rfl, rfl, fun _ record hget => ⟨record, hget, rfl, .inl rfl⟩⟩ rfl rfl

theorem freshTools_start : FreshTools ⟨start, .idle, []⟩ := ⟨rfl, rfl, rfl⟩

/-- The proposal of the first execution was dispatched. -/
def dispatches (outcome : Except String HostResponse) :
    List (UUID × Option HostResponseStatus) :=
  [(authorization₁.proposalId, statusOf outcome)]

theorem reachable_dispatched (outcome : Except String HostResponse) :
    (toolSystem .plain checks condition).Reachable
      ⟨authorized₁, .answered authorization₁ proposal (answerOf outcome), dispatches outcome⟩ := by
  have hfirst := executions_checked.1
  simp only [Bool.and_eq_true, decide_eq_true_eq] at hfirst
  obtain ⟨⟨⟨⟨hauthorize, hterminal⟩, hstatus⟩, hrequest⟩, hcheck⟩ := hfirst
  have hauthorized : (toolSystem .plain checks condition).Reachable
      ⟨authorized₁, .authorized grant authorization₁ proposal, []⟩ :=
    .tail (.of_init freshTools_start) (authorize_step hauthorize hterminal)
  exact hauthorized.tail (dispatch_step outcome hstatus hrequest hcheck)

end ToolExample

end ControlPlane
