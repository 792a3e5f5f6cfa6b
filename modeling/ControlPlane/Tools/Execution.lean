import ControlPlane.Tools.Scope

/-!
# Execution of scoped tools

Every proposal of a run is authorized once and persisted with its decision, dispatched to
the host while its authorization is still current, and answered by one terminal result. The
host is outside: what it answers is an argument.
-/
namespace ControlPlane

open Regex Regex.Re

/-- Failures of a tool execution. `integrity` is the store's refusal of a row. -/
inductive ScopedToolError where
  | conflict (message : String)
  | ambiguous (message : String)
  | evidence (error : EvidenceError)
  | invalid (message : String)
  | integrity (message : String)

/-! ### What is encoded without escapes -/

/-- One character inside a string, kept when it is not ASCII. -/
def keepChar (c : Char) : List Char := if c.toNat < 127 then Json.escapeChar c else [c]

def keepString (s : String) : List Char := '"' :: (s.toList.flatMap keepChar ++ ['"'])

mutual

/-- The encoding with sorted keys that keeps what is not ASCII. -/
def unicodeEncode (floatRepr : ℚ → List Char) : Json → List Char
  | .str s => keepString s
  | .arr items => '[' :: (Json.commas (unicodeEncodeItems floatRepr items) ++ [']'])
  | .obj fields =>
    '{' :: (Json.commas
      (((unicodeEncodeFields floatRepr fields).insertionSort fun a b => a.1 ≤ b.1).map
        fun f => keepString f.1 ++ ':' :: f.2) ++ ['}'])
  | other => other.encode floatRepr

def unicodeEncodeItems (floatRepr : ℚ → List Char) : List Json → List (List Char)
  | [] => []
  | item :: rest => unicodeEncode floatRepr item :: unicodeEncodeItems floatRepr rest

def unicodeEncodeFields (floatRepr : ℚ → List Char) :
    List (String × Json) → List (String × List Char)
  | [] => []
  | (key, item) :: rest => (key, unicodeEncode floatRepr item) :: unicodeEncodeFields floatRepr rest

end

def unicodeText (rt : Runtime) (fields : List (String × Json)) : String :=
  String.ofList (unicodeEncode rt.floatRepr (.obj fields))

def argumentsFingerprint (rt : Runtime) (arguments : List (String × Json)) :
    Except ScopedToolError String := do
  let encoded := unicodeText rt arguments
  Except.require (encoded.utf8ByteSize ≤ 512 * 1024)
    (.conflict "Hermes tool arguments exceed their size limit")
  return rt.sha256 encoded

def maxToolResultBytes : ℕ := 900000

/-- Whether a result fits into its evidence. Fields are looked up by name, so that the order
in which the round trip through its encoding leaves them is not seen. -/
def boundedResult (rt : Runtime) (result : List (String × Json)) : Bool :=
  (unicodeText rt result).utf8ByteSize ≤ maxToolResultBytes

/-! ### Authorization -/

def isActiveState (state : TaskState) : Bool := state = .implementing || state = .repairing

/-- What an authorization decides. -/
structure AuthorizationDecision where
  status : HermesToolDecisionStatus
  reasonCode : String
  brief : Option Brief := none
  configuration : Option ValidatedRepositoryConfiguration := none
  normalized : Option (List (String × Json)) := none

def denied (reasonCode : String) (brief : Option Brief := none) : AuthorizationDecision :=
  { status := .denied, reasonCode, brief }

/-- The operations of a brief; `none` when one of their identifiers cannot be looked up. -/
def briefOperations (operations : List Json) : Option (List Json) :=
  (operations.filter fun operation => operation.obj?.isSome).mapM fun operation =>
    match operation.get "operation_id" with
    | .arr _ | .obj _ => none
    | other => some other

/-- The brief of a task allows an operation. -/
def briefAllows (brief : Brief) (operation : String) : Except ScopedToolError Bool :=
  match brief.scope.get "operations" with
  | .arr operations => do
    let identifiers ← Except.orThrow (briefOperations operations)
      (.invalid "unhashable operation identifier")
    return identifiers.any (·.pyEq (.str operation))
  | _ => .ok false

/-- The accepted brief of a task, when its approval is the one of the policy of the run. -/
def briefApproved (db : Database) (task : Task) (run : HermesRun) (brief : Brief) : Bool :=
  match task.briefApprovalDecisionId.bind db.briefApprovalDecisions.get? with
  | none => false
  | some decision =>
    decision.taskId = task.id && decision.briefId = brief.id &&
      decision.policyVersionId = some run.policyVersionId &&
      !(decision.disposition = .humanApprovalRequired && decision.humanResponse ≠ some "APPROVE")

/-- The configuration of a task, when its preflight passed. -/
def readyConfiguration (checks : RepositoryChecks) (db : Database) (task : Task) :
    Option ValidatedRepositoryConfiguration := do
  let record ← task.repositoryConfigurationId.bind db.repositoryConfigurations.get?
  guard (record.repositoryKey = task.repository)
  let evidenceId ← record.preflightEvidenceId
  guard (db.evidenceRecords.get? evidenceId).isSome
  let configuration ← checks.validated record
  guard (checks.preflightReady db task record)
  return configuration

/-- The part of a decision that is about the arguments. -/
def argumentsDecision (rt : Runtime) (brief : Brief)
    (configuration : ValidatedRepositoryConfiguration) (proposal : HermesToolProposalRequest) :
    AuthorizationDecision :=
  match normalizeArguments rt.unicode proposal with
  | none => denied "INVALID_TOOL_ARGUMENTS" (some brief)
  | some normalized =>
    let paths := proposalPaths proposal.toolName normalized
    if paths.any fun path => !pathInScope rt.unicode path (includedPaths brief) then
      denied "PATH_OUTSIDE_BRIEF" (some brief)
    else if paths.any fun path => pathProhibited rt.unicode path
        (configuration.prohibited rt.unicode) then denied "PATH_PROHIBITED" (some brief)
    else
      { status := .authorized, reasonCode := "AUTHORIZED", brief := some brief
        configuration := some configuration, normalized := some normalized }

/-- The part of a decision that is about the brief of the task. -/
def briefDecision (rt : Runtime) (checks : RepositoryChecks) (db : Database) (task : Task)
    (run : HermesRun) (operation : String) (proposal : HermesToolProposalRequest) :
    Except ScopedToolError AuthorizationDecision :=
  match task.acceptedBriefId.bind db.briefs.get? with
  | none => .ok (denied "BRIEF_UNAVAILABLE")
  | some brief =>
    if brief.taskId ≠ task.id then .ok (denied "BRIEF_UNAVAILABLE")
    else if !briefApproved db task run brief then .ok (denied "BRIEF_NOT_APPROVED" (some brief))
    else do
      let allowed ← briefAllows brief operation
      if !allowed then return denied "BRIEF_OPERATION_NOT_ALLOWED" (some brief)
      match readyConfiguration checks db task with
      | none => return denied "CONFIGURATION_UNAVAILABLE" (some brief)
      | some configuration => return argumentsDecision rt brief configuration proposal

def authorizationDecision (rt : Runtime) (checks : RepositoryChecks) (db : Database) (task : Task)
    (run : HermesRun) (toolGrant : BackgroundJobToolGrant)
    (proposal : HermesToolProposalRequest) : Except ScopedToolError AuthorizationDecision :=
  let scope := toolGrant.capabilityScope
  if !isActiveState task.state then .ok (denied "TASK_STATE_NOT_ALLOWED")
  else if toolGrant.revoked.isSome then .ok (denied "TOOL_GRANT_REVOKED")
  else if !((scope.get "run_id").pyEq (.str run.id.str) &&
      (scope.get "task_id").pyEq (.str task.id.str)) then .ok (denied "TOOL_GRANT_SCOPE_MISMATCH")
  else if (db.promptTemplateVersions.get? run.promptTemplateVersionId).all
      (·.role ≠ "implementer") then .ok (denied "ROLE_NOT_ALLOWED")
  else
    match db.policyVersions.get? run.policyVersionId with
    | none => .ok (denied "POLICY_UNAVAILABLE")
    | some policy =>
      match (policyTools rt.unicode policy).lookup proposal.toolName.value with
      | none => .ok (denied "TOOL_NOT_ALLOWLISTED")
      | some operation => briefDecision rt checks db task run operation proposal

/-- The run of a proposal under the lease of a grant, with its task and its tool grant. -/
def proposalContext (db : Database) (grant : JobLeaseGrant) (runId : UUID) (now : Time) :
    Except ScopedToolError (HermesRun × Task × BackgroundJobToolGrant) := do
  let lost : ScopedToolError := .conflict "Hermes tool lease is no longer current"
  let _ ← Except.relabel (currentLease db grant now) fun _ => lost
  let run ← Except.orThrow (db.hermesRuns.get? runId) lost
  let task ← Except.orThrow (db.tasks.get? grant.taskId) lost
  Except.require (run.heldBy grant ∧ run.status = .running) lost
  let toolGrant ← Except.orThrow
    (db.backgroundJobToolGrants.rows.find? fun g =>
      g.jobId = grant.jobId && g.leaseId = grant.leaseId &&
        g.fencingToken = grant.fencingToken && g.grantKey = hermesGrantKey run.id)
    (.conflict "Hermes tool grant is unavailable")
  return (run, task, toolGrant)

/-- What an execution knows of the authorization of its proposal. -/
structure ToolAuthorization where
  proposalId : UUID
  decisionId : UUID
  decisionStatus : HermesToolDecisionStatus
  reasonCode : String
  decisionEvidenceId : UUID
  configuration : Option ValidatedRepositoryConfiguration
  normalizedArguments : Option (List (String × Json))
  replayed : Bool

def toolProposalId (rt : Runtime) (runId : UUID) (proposalId : String) : UUID :=
  rt.uuid5 ("mathews:hermes-tool:" ++ runId.str ++ ":" ++ proposalId)

def decisionOf (db : Database) (proposalId : UUID) : Option HermesToolDecision :=
  db.hermesToolDecisions.rows.find? (·.proposalId = proposalId)

def validatedForDecision (checks : RepositoryChecks) (db : Database)
    (decision : HermesToolDecision) :
    Except ScopedToolError (Option ValidatedRepositoryConfiguration) :=
  match decision.repositoryConfigurationId with
  | none => .ok none
  | some id => do
    let record ← Except.orThrow (db.repositoryConfigurations.get? id)
      (.conflict "authorized configuration is unavailable")
    let configuration ← Except.orThrow (checks.validated record)
      (.invalid "repository configuration is invalid")
    return some configuration

def normalizedForDecision (rt : Runtime) (decision : HermesToolDecision)
    (proposal : HermesToolProposalRequest) :
    Except ScopedToolError (Option (List (String × Json))) :=
  match decision.status with
  | .denied => .ok none
  | .authorized => do
    let normalized ← Except.orThrow (normalizeArguments rt.unicode proposal)
      (.invalid "tool arguments are invalid")
    return some normalized

/-- The authorization of a proposal that was decided before. -/
def replayedAuthorization (rt : Runtime) (checks : RepositoryChecks) (db : Database)
    (run : HermesRun) (proposal : HermesToolProposalRequest) (fingerprint : String)
    (existing : HermesToolProposal) : Except ScopedToolError ToolAuthorization := do
  Except.require (existing.runId = run.id ∧ existing.externalProposalId = proposal.proposalId ∧
      existing.toolName = proposal.toolName.value ∧ existing.argumentsFingerprint = fingerprint)
    (.conflict "Hermes tool proposal id conflicts")
  let decision ← Except.orThrow (decisionOf db existing.id)
    (.conflict "stored tool proposal is incomplete")
  let configuration ← validatedForDecision checks db decision
  let normalizedArguments ← normalizedForDecision rt decision proposal
  return { proposalId := existing.id, decisionId := decision.id, decisionStatus := decision.status
           reasonCode := decision.reasonCode, decisionEvidenceId := decision.decisionEvidenceId
           configuration, normalizedArguments, replayed := true }

/-- The evidence a tool execution keeps, with what differs from one to another. -/
def toolCapture (principalId : String) (ownerId : String) (rootCorrelationId taskId : UUID)
    (payload : Json) (sourceKind : EvidenceSourceKind) (evidenceType origin : String)
    (causationId parentCorrelationId evidenceId : UUID) (now : Time) : EvidenceCapture where
  payload := payload
  sourceKind := sourceKind
  evidenceType := evidenceType
  origin := origin
  accessClassification := .taskOwner
  retentionPolicy := .taskLifetime
  ownerId := ownerId
  actorId := principalId
  rootCorrelationId := rootCorrelationId
  taskId := some taskId
  causationId := some causationId
  parentCorrelationId := some parentCorrelationId
  evidenceId := evidenceId
  capturedAt := now

def keepToolEvidence (rt : Runtime) (db : Database) (capture : EvidenceCapture) :
    Except ScopedToolError Database := do
  let (_, db) ← Except.relabel (captureEvidence rt db capture) .evidence
  return db

/-- An event of the task, with its references to evidence. -/
def toolTaskEvent (db : Database) (taskId : UUID) (eventType : String) (payload : Json)
    (references : List UUID) (causationId parentCorrelationId : UUID) (now : Time)
    (taskEventId : UUID) : Except ScopedToolError Database := do
  let task ← Except.orThrow (db.tasks.get? taskId) (.conflict "tool proposal task is unavailable")
  let taskEvents ← Except.orThrow
    (db.taskEvents.insert?
      { id := taskEventId, taskId := task.id, sequence := nextEventSequence db task.id
        eventType, payload, occurredAt := now, ownerId := task.ownerId
        rootCorrelationId := task.rootCorrelationId, causationId := some causationId
        parentCorrelationId := some parentCorrelationId })
    (.integrity "task event is not unique")
  return { db with
    taskEvents
    taskEventEvidenceReferences := db.taskEventEvidenceReferences ++
      references.mapIdx fun i evidenceId =>
        { taskId := task.id, taskEventId, evidenceId, position := i + 1 } }

def newProposal (run : HermesRun) (task : Task) (proposal : HermesToolProposalRequest)
    (fingerprint : String) (proposalId proposalEvidenceId : UUID) : HermesToolProposal where
  id := proposalId
  runId := run.id
  taskId := task.id
  jobId := run.jobId
  leaseId := run.leaseId
  fencingToken := run.fencingToken
  externalProposalId := proposal.proposalId
  toolName := proposal.toolName.value
  argumentsFingerprint := fingerprint
  proposalEvidenceId := proposalEvidenceId
  ownerId := task.ownerId
  rootCorrelationId := task.rootCorrelationId

def newDecision (run : HermesRun) (toolGrant : BackgroundJobToolGrant)
    (decided : AuthorizationDecision) (proposalId decisionId decisionEvidenceId : UUID) :
    HermesToolDecision where
  id := decisionId
  proposalId := proposalId
  status := decided.status
  reasonCode := decided.reasonCode
  toolGrantId := toolGrant.id
  briefId := decided.brief.map Brief.id
  repositoryConfigurationId :=
    decided.configuration.map ValidatedRepositoryConfiguration.configurationId
  policyVersionId := run.policyVersionId
  decisionEvidenceId := decisionEvidenceId

def optionalIdText : Option UUID → Json
  | none => .null
  | some id => .str id.str

/-- A proposal that was not seen before is decided, with its evidence. -/
def decideProposal (rt : Runtime) (checks : RepositoryChecks) (principalId : String) (db : Database)
    (run : HermesRun) (task : Task) (toolGrant : BackgroundJobToolGrant)
    (proposal : HermesToolProposalRequest) (fingerprint : String) (proposalId : UUID) (now : Time)
    (taskEventId : UUID) : Except ScopedToolError (ToolAuthorization × Database) := do
  let proposalEvidenceId := rt.uuid5 ("mathews:tool-proposal:" ++ proposalId.str)
  let decisionId := rt.uuid5 ("mathews:tool-decision:" ++ proposalId.str)
  let decisionEvidenceId := rt.uuid5 ("mathews:tool-decision-evidence:" ++ proposalId.str)
  let db ← keepToolEvidence rt db <|
    toolCapture principalId task.ownerId task.rootCorrelationId task.id
      (.obj [("schema_version", .int 1), ("proposal_id", .str proposal.proposalId),
        ("run_id", .str run.id.str), ("tool_name", .str proposal.toolName.value),
        ("arguments", .obj proposal.arguments), ("arguments_fingerprint", .str fingerprint)])
      .request "hermes-tool-proposal" "hermes:tool-proposal" run.id run.jobId proposalEvidenceId now
  let hermesToolProposals ← Except.orThrow
    (db.hermesToolProposals.insert?
      (newProposal run task proposal fingerprint proposalId proposalEvidenceId))
    (.integrity "tool proposal is not unique")
  let db := { db with hermesToolProposals }
  let decided ← authorizationDecision rt checks db task run toolGrant proposal
  let db ← keepToolEvidence rt db <|
    toolCapture principalId task.ownerId task.rootCorrelationId task.id
      (.obj [("schema_version", .int 1), ("proposal_id", .str proposal.proposalId),
        ("tool_name", .str proposal.toolName.value), ("status", .str decided.status.value),
        ("reason_code", .str decided.reasonCode), ("task_state", .str task.state.value),
        ("brief_id", optionalIdText (decided.brief.map Brief.id)),
        ("repository_configuration_id", optionalIdText
          (decided.configuration.map ValidatedRepositoryConfiguration.configurationId)),
        ("policy_version_id", .str run.policyVersionId.str),
        ("tool_grant_id", .str toolGrant.id.str)])
      .toolOperation "hermes-tool-authorization" "control-plane:tool-gateway" proposalId run.id
      decisionEvidenceId now
  Except.require (decisionOf db proposalId = none) (.integrity "tool decision is not unique")
  let hermesToolDecisions ← Except.orThrow
    (db.hermesToolDecisions.insert?
      (newDecision run toolGrant decided proposalId decisionId decisionEvidenceId))
    (.integrity "tool decision is not unique")
  let db ← toolTaskEvent { db with hermesToolDecisions } task.id "HERMES_TOOL_AUTHORIZATION"
    (.obj [("schema_version", .int 1), ("proposal_id", .str proposal.proposalId),
      ("tool_name", .str proposal.toolName.value), ("status", .str decided.status.value),
      ("reason_code", .str decided.reasonCode), ("evidence_id", .str decisionEvidenceId.str)])
    [decisionEvidenceId] decisionId run.id now taskEventId
  return ({ proposalId, decisionId, decisionStatus := decided.status
            reasonCode := decided.reasonCode, decisionEvidenceId
            configuration := decided.configuration, normalizedArguments := decided.normalized
            replayed := false }, db)

/-- The first transaction of an execution. -/
def authorizeProposal (rt : Runtime) (checks : RepositoryChecks) (principalId : String)
    (db : Database) (grant : JobLeaseGrant) (runId : UUID) (proposal : HermesToolProposalRequest)
    (now : Time) (taskEventId : UUID) : Except ScopedToolError (ToolAuthorization × Database) := do
  let fingerprint ← argumentsFingerprint rt proposal.arguments
  let (run, task, toolGrant) ← proposalContext db grant runId now
  let proposalId := toolProposalId rt runId proposal.proposalId
  match db.hermesToolProposals.get? proposalId with
  | some existing => do
    let authorization ← replayedAuthorization rt checks db run proposal fingerprint existing
    return (authorization, db)
  | none =>
    decideProposal rt checks principalId db run task toolGrant proposal fingerprint proposalId now
      taskEventId

/-! ### Dispatch -/

inductive HostResponseStatus where
  | ok | rejected | ambiguous
  deriving DecidableEq, Repr

/-- What the host answers. -/
structure HostResponse where
  status : HostResponseStatus
  code : String
  replayed : Bool
  result : List (String × Json)

/-- The request a proposal is dispatched as; its authority names the validated
configuration of the authorization. -/
structure HostRequest where
  operation : String
  idempotencyKey : String
  configuration : ValidatedRepositoryConfiguration
  arguments : List (String × Json)

def hostRequest (authorization : ToolAuthorization) (proposal : HermesToolProposalRequest) :
    Option HostRequest := do
  let configuration ← authorization.configuration
  let arguments ← authorization.normalizedArguments
  return { operation := proposal.toolName.value
           idempotencyKey := "hermes-tool:" ++ authorization.proposalId.str
           configuration, arguments }

/-- What is looked at again in the transaction of a dispatch. -/
def checkDispatch (checks : RepositoryChecks) (db : Database) (grant : JobLeaseGrant)
    (authorization : ToolAuthorization) (request : HostRequest) (now : Time) :
    Except ScopedToolError Unit := do
  let stale : ScopedToolError := .conflict "tool authorization is no longer current"
  let unavailable : ScopedToolError := .conflict "authorized configuration is unavailable"
  let proposal ← Except.orThrow (db.hermesToolProposals.get? authorization.proposalId)
    (.conflict "tool proposal is unavailable")
  let (_, task, _) ← proposalContext db grant proposal.runId now
  Except.require (isActiveState task.state) stale
  let decision ← Except.orThrow (db.hermesToolDecisions.get? authorization.decisionId) stale
  Except.require (decision.proposalId = proposal.id ∧ decision.status = .authorized) stale
  let configurationId ← Except.orThrow decision.repositoryConfigurationId stale
  let record ← Except.orThrow (db.repositoryConfigurations.get? configurationId) unavailable
  let configuration ← Except.orThrow authorization.configuration unavailable
  let changed : ScopedToolError := .conflict "authorized configuration is no longer current"
  let validated ← Except.orThrow (checks.validated record) changed
  Except.require (checks.preflightReady db task record) changed
  Except.require (validated.configurationId = configuration.configurationId ∧
      validated.digest = configuration.digest ∧
      request.configuration.configurationId = validated.configurationId ∧
      request.configuration.digest = validated.digest) changed

/-! ### Results -/

structure ScopedToolExecutionResult where
  proposalId : String
  status : HermesToolResultStatus
  code : String
  result : List (String × Json)
  decisionEvidenceId : UUID
  resultEvidenceId : UUID
  diffEvidenceId : Option UUID
  replayed : Bool

def toolEvidencePayload (rt : Runtime) (db : Database) (evidenceId : UUID) :
    Except ScopedToolError (List (String × Json)) := do
  let record ← Except.orThrow (db.evidenceRecords.get? evidenceId)
    (.conflict "tool result evidence is unavailable")
  let loaded ← Except.relabel (loadEvidence rt db record) .evidence
  Except.orThrow loaded.content.obj? (.conflict "tool result evidence is invalid")

def HermesToolResult.isTerminal (result : HermesToolResult) : Bool := result.status ≠ .ambiguous

/-- The results of a proposal that ended it. -/
def terminalResults (db : Database) (proposalId : UUID) : List HermesToolResult :=
  db.hermesToolResults.select fun r => r.proposalId = proposalId && r.isTerminal

/-- The answer a stored result stands for. -/
def storedAnswer (rt : Runtime) (db : Database) (externalProposalId : String)
    (decisionEvidenceId : UUID) (result : HermesToolResult) :
    Except ScopedToolError ScopedToolExecutionResult := do
  let payload ← toolEvidencePayload rt db result.resultEvidenceId
  return { proposalId := externalProposalId, status := result.status, code := result.code
           result := ((Json.obj payload).get "result").obj?.getD []
           decisionEvidenceId, resultEvidenceId := result.resultEvidenceId
           diffEvidenceId := result.diffEvidenceId, replayed := true }

/-- The answer to a proposal that ended before, if it did. -/
def terminalResult (rt : Runtime) (db : Database) (proposalId : UUID)
    (externalProposalId : String) : Except ScopedToolError (Option ScopedToolExecutionResult) :=
  match decisionOf db proposalId with
  | none => .ok none
  | some decision =>
    match latestBy HermesToolResult.attempt (terminalResults db proposalId) with
    | none => .ok none
    | some result => do
      let answer ← storedAnswer rt db externalProposalId decision.decisionEvidenceId result
      return some answer

def toolErrorCode (rt : Runtime) (value : String) : String :=
  if reasonCode.fullmatch (CharClass.holds rt.unicode) value.toList then value
  else "HOST_RESPONSE_INVALID"

/-- What is left of a result that cannot be taken. -/
def revisionOnly (result : List (String × Json)) : List (String × Json) :=
  let revision := (Json.obj result).get "head_sha"
  [("head_sha", if revision.str?.isSome then revision else .null)]

def HostResponseStatus.resultStatus : HostResponseStatus → HermesToolResultStatus
  | ok => .succeeded
  | rejected => .rejected
  | ambiguous => .ambiguous

/-- A response in its normal form: one that does not fit is a rejection. -/
def normalizeResponse (rt : Runtime) (response : HostResponse) : HostResponse :=
  if boundedResult rt response.result then
    { response with code := toolErrorCode rt response.code }
  else
    { response with status := .rejected, code := "HOST_RESULT_UNBOUNDED"
                    result := revisionOnly response.result }

/-- The status, the code and the result a response is recorded as: one that is taken for a
success must pass the checks of its result. -/
def recordedOutcome (rt : Runtime) (checks : RepositoryChecks) (db : Database)
    (decision : HermesToolDecision) (tool : ScopedToolName) (response : HostResponse) :
    HermesToolResultStatus × String × List (String × Json) :=
  match response.status with
  | .ok =>
    match hostResultValidationCode rt checks db decision tool response.result with
    | none => (.succeeded, response.code, response.result)
    | some code => (.rejected, code, revisionOnly response.result)
  | other => (other.resultStatus, response.code, response.result)

def repositoryRevision (rt : Runtime) (result : List (String × Json)) : Option String :=
  ((Json.obj result).get "head_sha").str?.filter (isGitObject rt.unicode)

/-- The diff of a result is kept on its own, if there is one. -/
def keepDiff (rt : Runtime) (db : Database) (diff : Option String) (capture : EvidenceCapture) :
    Except ScopedToolError Database :=
  match diff with
  | none => .ok db
  | some _ => keepToolEvidence rt db capture

/-- The next result of a proposal, with its evidence and its event. -/
def appendResult (rt : Runtime) (principalId : String) (db : Database)
    (authorization : ToolAuthorization) (proposal : HermesToolProposalRequest)
    (stored : HermesToolProposal) (status : HermesToolResultStatus) (code : String)
    (result : List (String × Json)) (hostReplayed : Bool) (now : Time) (taskEventId : UUID) :
    Except ScopedToolError (ScopedToolExecutionResult × Database) := do
  let attempt :=
    (db.hermesToolResults.select (·.proposalId = authorization.proposalId)).length + 1
  let suffix := authorization.proposalId.str ++ ":" ++ toString attempt
  let resultId := rt.uuid5 ("mathews:tool-result:" ++ suffix)
  let resultEvidenceId := rt.uuid5 ("mathews:tool-result-evidence:" ++ suffix)
  let revision := repositoryRevision rt result
  let db ← keepToolEvidence rt db <|
    toolCapture principalId stored.ownerId stored.rootCorrelationId stored.taskId
      (.obj [("schema_version", .int 1), ("proposal_id", .str proposal.proposalId),
        ("tool_name", .str proposal.toolName.value), ("status", .str status.value),
        ("code", .str code), ("repository_revision", optionalLabel revision),
        ("host_replayed", .bool hostReplayed), ("result", .obj result)])
      .result "hermes-tool-result" "host-agent:tool-result" authorization.decisionId stored.runId
      resultEvidenceId now
  let diff := ((Json.obj result).get "diff").str?
  let diffId := rt.uuid5 ("mathews:tool-diff-evidence:" ++ suffix)
  let diffEvidenceId := diff.map fun _ => diffId
  let db ← keepDiff rt db diff <|
    toolCapture principalId stored.ownerId stored.rootCorrelationId stored.taskId
      (.obj [("schema_version", .int 1), ("proposal_id", .str proposal.proposalId),
        ("repository_revision", optionalLabel revision),
        ("changed_paths", ((Json.obj result).get? "changed_paths").getD (.arr [])),
        ("diff", optionalLabel diff)])
      .result "workspace-diff" "host-agent:workspace-diff" resultId authorization.decisionId
      diffId now
  Except.require (db.hermesToolResults.rows.all fun r =>
      !(r.proposalId = authorization.proposalId && r.attempt = attempt))
    (.integrity "tool result is not unique")
  let hermesToolResults ← Except.orThrow
    (db.hermesToolResults.insert?
      { id := resultId, proposalId := authorization.proposalId, attempt, status, code
        repositoryRevision := revision, resultEvidenceId, diffEvidenceId })
    (.integrity "tool result is not unique")
  let db ← toolTaskEvent { db with hermesToolResults } stored.taskId "HERMES_TOOL_RESULT"
    (.obj [("schema_version", .int 1), ("proposal_id", .str proposal.proposalId),
      ("tool_name", .str proposal.toolName.value), ("status", .str status.value),
      ("code", .str code), ("repository_revision", optionalLabel revision),
      ("result_evidence_id", .str resultEvidenceId.str),
      ("diff_evidence_id", optionalIdText diffEvidenceId)])
    (resultEvidenceId :: diffEvidenceId.toList) resultId authorization.decisionId now taskEventId
  return ({ proposalId := proposal.proposalId, status, code, result
            decisionEvidenceId := authorization.decisionEvidenceId, resultEvidenceId
            diffEvidenceId, replayed := false }, db)

/-- The last transaction of an execution: the result is recorded, unless the proposal ended
before. -/
def recordResult (rt : Runtime) (checks : RepositoryChecks) (principalId : String) (db : Database)
    (authorization : ToolAuthorization) (proposal : HermesToolProposalRequest)
    (response : HostResponse) (now : Time) (taskEventId : UUID) :
    Except ScopedToolError (ScopedToolExecutionResult × Database) := do
  let response := normalizeResponse rt response
  let stored ← Except.orThrow (db.hermesToolProposals.get? authorization.proposalId)
    (.conflict "tool proposal is unavailable")
  match (terminalResults db authorization.proposalId).head? with
  | some result => do
    let answer ← storedAnswer rt db proposal.proposalId authorization.decisionEvidenceId result
    return (answer, db)
  | none => do
    let decision ← Except.orThrow (db.hermesToolDecisions.get? authorization.decisionId)
      (.conflict "tool authorization is unavailable")
    let (status, code, result) :=
      recordedOutcome rt checks db decision proposal.toolName response
    appendResult rt principalId db authorization proposal stored status code result
      response.replayed now taskEventId

/-! ### An execution -/

/-- How an execution that is not refused outright comes to its result: its proposal was
denied, its authorization is not current any more, the gateway failed, or the host
answered. -/
inductive ToolAnswer where
  | denied
  | stale
  | unreachable (code : String)
  | answered (response : HostResponse)

/-- The response an answer is recorded as. -/
def ToolAnswer.response (authorization : ToolAuthorization) : ToolAnswer → HostResponse
  | denied => ⟨.rejected, authorization.reasonCode, authorization.replayed, []⟩
  | stale => ⟨.rejected, "AUTHORIZATION_STALE", false, []⟩
  | unreachable code => ⟨.ambiguous, code, false, []⟩
  | answered response => response

/-- What becomes of a proposal without a terminal result. -/
def dispatchProposal (checks : RepositoryChecks) (host : HostRequest → Except String HostResponse)
    (db : Database) (grant : JobLeaseGrant) (authorization : ToolAuthorization)
    (proposal : HermesToolProposalRequest) (now : Time) : Except ScopedToolError ToolAnswer :=
  match authorization.decisionStatus with
  | .denied => .ok .denied
  | .authorized => do
    let request ← Except.orThrow (hostRequest authorization proposal)
      (.conflict "authorized tool proposal is incomplete")
    match checkDispatch checks db grant authorization request now with
    | .error _ => return .stale
    | .ok () =>
      match host request with
      | .error code => return .unreachable code
      | .ok response => return .answered response

/-- An execution, with nothing else happening between its transactions; `host` gives the
response of the host, or the code of the failure of its gateway. An ambiguous result is
committed before the caller is told. -/
def ScopedCodeExecutionService.execute (rt : Runtime) (checks : RepositoryChecks)
    (principalId : String) (host : HostRequest → Except String HostResponse) (db : Database)
    (grant : JobLeaseGrant) (runId : UUID) (proposal : HermesToolProposalRequest) (now : Time)
    (taskEventIds : UUID × UUID) :
    Except ScopedToolError (Except ScopedToolError ScopedToolExecutionResult × Database) := do
  let (authorization, db) ←
    authorizeProposal rt checks principalId db grant runId proposal now taskEventIds.1
  let terminal ← terminalResult rt db authorization.proposalId proposal.proposalId
  match terminal with
  | some answer => return (.ok answer, db)
  | none => do
    let answer ← dispatchProposal checks host db grant authorization proposal now
    let (recorded, db) ← recordResult rt checks principalId db authorization proposal
      (answer.response authorization) now taskEventIds.2
    match answer, recorded.status with
    | .unreachable _, _ =>
      return (.error (.ambiguous "host tool execution is unavailable"), db)
    | .answered _, .ambiguous =>
      return (.error (.ambiguous "host tool execution requires reconciliation"), db)
    | _, _ => return (.ok recorded, db)

end ControlPlane
