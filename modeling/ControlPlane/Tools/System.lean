import ControlPlane.Tools.Execution
import ControlPlane.Evidence.Transparency
import ControlPlane.Lib.System

/-!
# Tool executions over time

Executions of the tools of a run one after another, each of which may stop anywhere, with
the host and the other services in between: a proposal has at most one terminal result, and
a rejection stands for something that did not happen as long as no authorization is refused
after a dispatch and every success of the host passes the checks of its result.
-/
namespace ControlPlane

/-- Where the execution that is under way stands. -/
inductive ToolPhase where
  | idle
  | authorized (grant : JobLeaseGrant) (authorization : ToolAuthorization)
    (proposal : HermesToolProposalRequest)
  | answered (authorization : ToolAuthorization) (proposal : HermesToolProposalRequest)
    (answer : ToolAnswer)

/-- The store, the execution under way, and every dispatch to the host with the status that
came back, if one did. -/
structure ToolState where
  db : Database
  phase : ToolPhase
  dispatches : List (UUID × Option HostResponseStatus)

/-- Evidence is kept as it was captured, or its content is gone. -/
def EvidenceKept (db db' : Database) : Prop :=
  ∀ id record, db.evidenceRecords.get? id = some record →
    ∃ record', db'.evidenceRecords.get? id = some record' ∧
      record' = { record with artifact := record'.artifact, deletedAt := record'.deletedAt } ∧
      (record'.artifact = record.artifact ∨ record'.artifact = none)

/-- What other services do: they leave proposals, decisions and results alone. -/
structure LeavesTools (db db' : Database) : Prop where
  proposals : db'.hermesToolProposals = db.hermesToolProposals
  decisions : db'.hermesToolDecisions = db.hermesToolDecisions
  results : db'.hermesToolResults = db.hermesToolResults
  evidence : EvidenceKept db db'

/-- The answer an attempt to reach the host gives. -/
def answerOf : Except String HostResponse → ToolAnswer
  | .error code => .unreachable code
  | .ok response => .answered response

def statusOf : Except String HostResponse → Option HostResponseStatus
  | .error _ => none
  | .ok response => some response.status

/-- The transactions of executions, one execution at a time; a condition restricts when a
result may be recorded. -/
inductive ToolStep (rt : Runtime) (checks : RepositoryChecks)
    (condition : ToolState → ToolAuthorization → HermesToolProposalRequest → ToolAnswer → Prop)
    (s s' : ToolState) : Prop
  | authorize (principalId : String) (grant : JobLeaseGrant) (runId : UUID)
      (proposal : HermesToolProposalRequest) (now : Time) (taskEventId : UUID)
      (authorization : ToolAuthorization)
      (h : authorizeProposal rt checks principalId s.db grant runId proposal now taskEventId =
        .ok (authorization, s'.db))
      (hterminal : terminalResult rt s'.db authorization.proposalId proposal.proposalId = .ok none)
      (hphase : s'.phase = .authorized grant authorization proposal)
      (hdispatches : s'.dispatches = s.dispatches)
  | finished (principalId : String) (grant : JobLeaseGrant) (runId : UUID)
      (proposal : HermesToolProposalRequest) (now : Time) (taskEventId : UUID)
      (authorization : ToolAuthorization)
      (h : authorizeProposal rt checks principalId s.db grant runId proposal now taskEventId =
        .ok (authorization, s'.db))
      (hphase : s'.phase = .idle) (hdispatches : s'.dispatches = s.dispatches)
  | deny (grant : JobLeaseGrant) (authorization : ToolAuthorization)
      (proposal : HermesToolProposalRequest)
      (hat : s.phase = .authorized grant authorization proposal)
      (hdenied : authorization.decisionStatus = .denied) (hdb : s'.db = s.db)
      (hphase : s'.phase = .answered authorization proposal .denied)
      (hdispatches : s'.dispatches = s.dispatches)
  | dispatch (grant : JobLeaseGrant) (authorization : ToolAuthorization)
      (proposal : HermesToolProposalRequest) (request : HostRequest) (now : Time)
      (outcome : Except String HostResponse)
      (hat : s.phase = .authorized grant authorization proposal)
      (hauthorized : authorization.decisionStatus = .authorized)
      (hrequest : hostRequest authorization proposal = some request)
      (hcheck : checkDispatch checks s.db grant authorization request now = .ok ())
      (hdb : s'.db = s.db)
      (hphase : s'.phase = .answered authorization proposal (answerOf outcome))
      (hdispatches : s'.dispatches = (authorization.proposalId, statusOf outcome) :: s.dispatches)
  | refuse (grant : JobLeaseGrant) (authorization : ToolAuthorization)
      (proposal : HermesToolProposalRequest) (request : HostRequest) (now : Time)
      (error : ScopedToolError)
      (hat : s.phase = .authorized grant authorization proposal)
      (hauthorized : authorization.decisionStatus = .authorized)
      (hrequest : hostRequest authorization proposal = some request)
      (hcheck : checkDispatch checks s.db grant authorization request now = .error error)
      (hdb : s'.db = s.db)
      (hphase : s'.phase = .answered authorization proposal .stale)
      (hdispatches : s'.dispatches = s.dispatches)
  | record (principalId : String) (authorization : ToolAuthorization)
      (proposal : HermesToolProposalRequest) (answer : ToolAnswer) (now : Time)
      (taskEventId : UUID) (result : ScopedToolExecutionResult)
      (hat : s.phase = .answered authorization proposal answer)
      (hcondition : condition s authorization proposal answer)
      (h : recordResult rt checks principalId s.db authorization proposal
        (answer.response authorization) now taskEventId = .ok (result, s'.db))
      (hphase : s'.phase = .idle) (hdispatches : s'.dispatches = s.dispatches)
  | stop (hdb : s'.db = s.db) (hphase : s'.phase = .idle)
      (hdispatches : s'.dispatches = s.dispatches)
  | other (h : LeavesTools s.db s'.db) (hphase : s'.phase = s.phase)
      (hdispatches : s'.dispatches = s.dispatches)

/-- Nothing was executed. -/
structure FreshTools (s : ToolState) : Prop where
  results : s.db.hermesToolResults.rows = []
  phase : s.phase = .idle
  dispatches : s.dispatches = []

def toolSystem (rt : Runtime) (checks : RepositoryChecks)
    (condition : ToolState → ToolAuthorization → HermesToolProposalRequest → ToolAnswer → Prop) :
    TransitionSystem ToolState where
  init := FreshTools
  step := ToolStep rt checks condition

/-- An authorization is refused only before any dispatch, and what the host answers fits and,
when it is a success, passes the checks of its result. -/
def Settled (rt : Runtime) (checks : RepositoryChecks) (s : ToolState)
    (authorization : ToolAuthorization) (proposal : HermesToolProposalRequest) :
    ToolAnswer → Prop
  | .denied | .unreachable _ => True
  | .stale => ∀ d ∈ s.dispatches, d.1 ≠ authorization.proposalId
  | .answered response => response.status = .rejected ∨
      boundedResult rt response.result = true ∧ (response.status = .ok →
        ∀ decision, s.db.hermesToolDecisions.get? authorization.decisionId = some decision →
          hostResultValidationCode rt checks s.db decision proposal.toolName response.result =
            none)

/-- A rejected proposal did not happen: the host rejected it, or it was never dispatched. A
proposal ends once. -/
structure RejectedUnharmed (s : ToolState) : Prop where
  rejected : ∀ r ∈ s.db.hermesToolResults, r.status = .rejected →
    (r.proposalId, some .rejected) ∈ s.dispatches ∨ ∀ d ∈ s.dispatches, d.1 ≠ r.proposalId
  once : ∀ proposalId, (terminalResults s.db proposalId).length ≤ 1

/-! ### What a transaction writes -/

section Writes
variable {rt : Runtime} {checks : RepositoryChecks} {db db' : Database} {now : Time}

theorem EvidenceKept.trans {db₁ db₂ db₃ : Database} (h : EvidenceKept db₁ db₂)
    (h' : EvidenceKept db₂ db₃) : EvidenceKept db₁ db₃ := by
  intro id record hget
  obtain ⟨record', hget', hsame, hartifact⟩ := h id record hget
  obtain ⟨record'', hget'', hsame', hartifact'⟩ := h' id record' hget'
  refine ⟨record'', hget'', ?_, ?_⟩
  · rw [hsame', hsame]
  · rcases hartifact' with hartifact' | hartifact'
    · rw [hartifact']
      exact hartifact
    · exact .inr hartifact'

/-- Evidence is kept as it is. -/
def EvidenceAdded (db db' : Database) : Prop :=
  ∀ id record, db.evidenceRecords.get? id = some record →
    db'.evidenceRecords.get? id = some record

theorem EvidenceAdded.kept (h : EvidenceAdded db db') : EvidenceKept db db' :=
  fun id record hget => ⟨record, h id record hget, rfl, .inl rfl⟩

theorem EvidenceAdded.trans {db₁ db₂ db₃ : Database} (h : EvidenceAdded db₁ db₂)
    (h' : EvidenceAdded db₂ db₃) : EvidenceAdded db₁ db₃ :=
  fun id record hget => h' id record (h id record hget)

theorem evidenceAdded_of_eq (h : db'.evidenceRecords = db.evidenceRecords) :
    EvidenceAdded db db' :=
  fun _ _ hget => by rw [h, hget]

theorem evidenceAdded_insert {record : EvidenceRecord} {records : Table EvidenceRecord}
    (hinsert : db.evidenceRecords.insert? record = some records)
    (h : db'.evidenceRecords = records) : EvidenceAdded db db' := by
  intro id r hget
  rw [h, Table.get?_insert? hinsert, if_neg, hget]
  rintro rfl
  rw [(Table.insert?_eq_some.mp hinsert).1] at hget
  cases hget

/-- Evidence is captured, and nothing else changes. -/
theorem keepToolEvidence_ok {capture : EvidenceCapture} (hcapture : capture.correctionOfId = none)
    (h : keepToolEvidence rt db capture = .ok db') :
    EvidenceAdded db db' ∧ ∃ records, db' = { db with evidenceRecords := records } := by
  simp only [keepToolEvidence, Except.bind_eq_ok, Except.relabel_eq_ok, Except.pure_eq_ok] at h
  obtain ⟨⟨captured, db₁⟩, h, rfl⟩ := h
  obtain ⟨records, hinsert, hdb⟩ := captureEvidence_ok h hcapture
  exact ⟨evidenceAdded_insert hinsert (by rw [hdb]), records, hdb⟩

theorem toolTaskEvent_ok {taskId : UUID} {eventType : String} {payload : Json}
    {references : List UUID} {causationId parentCorrelationId taskEventId : UUID}
    (h : toolTaskEvent db taskId eventType payload references causationId parentCorrelationId now
      taskEventId = .ok db') :
    ∃ events refs, db' = { db with taskEvents := events, taskEventEvidenceReferences := refs } := by
  simp only [toolTaskEvent, Except.bind_eq_ok, Except.pure_eq_ok] at h
  obtain ⟨task, -, events, -, rfl⟩ := h
  exact ⟨_, _, rfl⟩

/-- The decision an authorization stands for. -/
structure ToolAuthorization.Stands (authorization : ToolAuthorization) (db : Database) : Prop where
  stored : ∃ decision, decisionOf db authorization.proposalId = some decision ∧
    decision.status = authorization.decisionStatus

theorem decisionOf_append {proposalId : UUID} {decision : HermesToolDecision}
    {extra : List HermesToolDecision}
    (h : db'.hermesToolDecisions.rows = db.hermesToolDecisions.rows ++ extra)
    (hdecision : decisionOf db proposalId = some decision) :
    decisionOf db' proposalId = some decision := by
  rw [decisionOf] at hdecision ⊢
  rw [h, List.find?_append, hdecision, Option.some_or]

/-- What the first transaction of an execution does. -/
structure Authorizes (authorization : ToolAuthorization) (db db' : Database) : Prop where
  results : db'.hermesToolResults = db.hermesToolResults
  decisions : ∃ extra, db'.hermesToolDecisions.rows = db.hermesToolDecisions.rows ++ extra
  evidence : EvidenceAdded db db'
  stands : authorization.Stands db'

theorem replayedAuthorization_ok {run : HermesRun} {proposal : HermesToolProposalRequest}
    {fingerprint : String} {existing : HermesToolProposal} {authorization : ToolAuthorization}
    (h : replayedAuthorization rt checks db run proposal fingerprint existing =
      .ok authorization) : authorization.Stands db := by
  simp only [replayedAuthorization, Except.bind_eq_ok, Except.orThrow_eq_ok,
    Except.pure_eq_ok] at h
  obtain ⟨-, -, decision, hdecision, configuration, -, normalized, -, rfl⟩ := h
  exact ⟨decision, hdecision, rfl⟩

theorem decideProposal_ok {principalId : String} {run : HermesRun} {task : Task}
    {toolGrant : BackgroundJobToolGrant} {proposal : HermesToolProposalRequest}
    {fingerprint : String} {proposalId taskEventId : UUID} {authorization : ToolAuthorization}
    (h : decideProposal rt checks principalId db run task toolGrant proposal fingerprint proposalId
      now taskEventId = .ok (authorization, db')) : Authorizes authorization db db' := by
  simp only [decideProposal, Except.bind_eq_ok, Except.orThrow_eq_ok, Except.require_eq_ok,
    Except.pure_eq_ok, Prod.ext_iff] at h
  obtain ⟨db₁, h₁, proposals, hproposals, decided, -, db₂, h₂, -, hnew, decisions, hdecisions,
    db₃, h₃, hauthorization, rfl⟩ := h
  obtain ⟨hkept₁, records₁, rfl⟩ := keepToolEvidence_ok rfl h₁
  obtain ⟨hkept₂, records₂, rfl⟩ := keepToolEvidence_ok rfl h₂
  obtain ⟨events, refs, rfl⟩ := toolTaskEvent_ok h₃
  have hrows := (Table.insert?_eq_some.mp hdecisions).2
  refine ⟨rfl, ⟨_, hrows⟩, ?_, ?_⟩
  · exact hkept₁.trans (EvidenceAdded.trans (evidenceAdded_of_eq rfl)
      (hkept₂.trans (evidenceAdded_of_eq rfl)))
  · rw [← hauthorization]
    refine ⟨newDecision run toolGrant decided proposalId
      (rt.uuid5 ("mathews:tool-decision:" ++ proposalId.str))
      (rt.uuid5 ("mathews:tool-decision-evidence:" ++ proposalId.str)), ?_, rfl⟩
    rw [decisionOf] at hnew ⊢
    rw [hrows, List.find?_append, hnew]
    simp [newDecision]

theorem authorizeProposal_ok {principalId : String} {grant : JobLeaseGrant} {runId : UUID}
    {proposal : HermesToolProposalRequest} {taskEventId : UUID}
    {authorization : ToolAuthorization}
    (h : authorizeProposal rt checks principalId db grant runId proposal now taskEventId =
      .ok (authorization, db')) : Authorizes authorization db db' := by
  simp only [authorizeProposal, Except.bind_eq_ok] at h
  obtain ⟨fingerprint, -, ⟨run, task, toolGrant⟩, -, h⟩ := h
  cases hexisting : db.hermesToolProposals.get? (toolProposalId rt runId proposal.proposalId) with
  | some existing =>
    simp only [hexisting, Except.bind_eq_ok, Except.pure_eq_ok, Prod.ext_iff] at h
    obtain ⟨authorization', h, rfl, rfl⟩ := h
    exact ⟨rfl, ⟨[], by simp⟩, fun _ _ hget => hget, replayedAuthorization_ok h⟩
  | none =>
    simp only [hexisting] at h
    exact decideProposal_ok h

/-- A result that was appended: its row, and what the store keeps. -/
structure Appends (rt : Runtime) (authorization : ToolAuthorization)
    (status : HermesToolResultStatus) (code : String) (fields : List (String × Json))
    (recorded : ScopedToolExecutionResult) (db db' : Database) : Prop where
  row : ∃ row : HermesToolResult, row.proposalId = authorization.proposalId ∧
    row.status = status ∧ row.code = code ∧ row.resultEvidenceId = recorded.resultEvidenceId ∧
    db'.hermesToolResults.rows = db.hermesToolResults.rows ++ [row]
  status : recorded.status = status
  code : recorded.code = code
  result : recorded.result = fields
  proposals : db'.hermesToolProposals = db.hermesToolProposals
  decisions : db'.hermesToolDecisions = db.hermesToolDecisions
  evidence : EvidenceAdded db db'
  content : ∃ record envelope, db'.evidenceRecords.get? recorded.resultEvidenceId = some record ∧
    record.artifact = some envelope ∧
    envelope.content.get "result" = redacted rt.unicode (.obj fields)

theorem keepDiff_ok {diff : Option String} {capture : EvidenceCapture}
    (hcapture : capture.correctionOfId = none) (h : keepDiff rt db diff capture = .ok db') :
    EvidenceAdded db db' ∧ ∃ records, db' = { db with evidenceRecords := records } := by
  cases diff with
  | none =>
    obtain rfl := Except.ok.inj h
    exact ⟨fun _ _ hget => hget, db.evidenceRecords, rfl⟩
  | some _ => exact keepToolEvidence_ok hcapture h

/-- The evidence of a result keeps it redacted. -/
theorem keepToolEvidence_content {capture : EvidenceCapture}
    (hcapture : capture.correctionOfId = none) (hmedia : capture.mediaType = .json)
    (h : keepToolEvidence rt db capture = .ok db') :
    ∃ record envelope, db'.evidenceRecords.get? capture.evidenceId = some record ∧
      record.artifact = some envelope ∧
      envelope.content = redacted rt.unicode capture.payload := by
  simp only [keepToolEvidence, Except.bind_eq_ok, Except.relabel_eq_ok, Except.pure_eq_ok] at h
  obtain ⟨⟨captured, db₁⟩, h, rfl⟩ := h
  exact captureEvidence_artifact h hcapture hmedia

theorem sensitiveKey_result (u : Unicode) : sensitiveKey u "result" = false := by
  rw [sensitiveKey_eq (by decide)]
  decide

theorem appendResult_ok {principalId : String} {authorization : ToolAuthorization}
    {proposal : HermesToolProposalRequest} {stored : HermesToolProposal}
    {status : HermesToolResultStatus} {code : String} {result : List (String × Json)}
    {hostReplayed : Bool} {taskEventId : UUID} {recorded : ScopedToolExecutionResult}
    (h : appendResult rt principalId db authorization proposal stored status code result
      hostReplayed now taskEventId = .ok (recorded, db')) :
    Appends rt authorization status code result recorded db db' := by
  simp only [appendResult, Except.bind_eq_ok, Except.orThrow_eq_ok, Except.require_eq_ok,
    Except.pure_eq_ok, Prod.ext_iff] at h
  obtain ⟨db₁, h₁, db₂, h₂, -, -, results, hresults, db₃, h₃, rfl, rfl⟩ := h
  obtain ⟨hkept₁, records₁, hdb₁⟩ := keepToolEvidence_ok rfl h₁
  obtain ⟨record, envelope, hget, hartifact, hcontent⟩ := keepToolEvidence_content rfl rfl h₁
  obtain ⟨hkept₂, records₂, hdb₂⟩ := keepDiff_ok rfl h₂
  obtain ⟨events, refs, hdb₃⟩ := toolTaskEvent_ok h₃
  have hrows := (Table.insert?_eq_some.mp hresults).2
  have hresults₂ : db₂.hermesToolResults = db.hermesToolResults := by rw [hdb₂, hdb₁]
  have hresults₃ : db₃.hermesToolResults = results := by rw [hdb₃]
  rw [← hresults₃, hresults₂] at hrows
  have hkept₃ : EvidenceAdded db₂ db₃ := evidenceAdded_of_eq (by rw [hdb₃])
  refine ⟨⟨_, ?_, ?_, ?_, ?_, hrows⟩, rfl, rfl, rfl, by rw [hdb₃, hdb₂, hdb₁],
    by rw [hdb₃, hdb₂, hdb₁], hkept₁.trans (hkept₂.trans hkept₃), record, envelope,
    hkept₃ _ _ (hkept₂ _ _ hget), hartifact, ?_⟩
  · rfl
  · rfl
  · rfl
  · rfl
  · rw [hcontent, get_redacted (sensitiveKey_result rt.unicode)]
    rfl

/-- A response is recorded as its outcome, unless the proposal ended before. -/
theorem recordResult_ok {principalId : String} {authorization : ToolAuthorization}
    {proposal : HermesToolProposalRequest} {response : HostResponse} {taskEventId : UUID}
    {recorded : ScopedToolExecutionResult}
    (h : recordResult rt checks principalId db authorization proposal response now taskEventId =
      .ok (recorded, db')) :
    (terminalResults db authorization.proposalId ≠ [] ∧ recorded.replayed = true ∧ db' = db) ∨
      terminalResults db authorization.proposalId = [] ∧
      ∃ decision, db.hermesToolDecisions.get? authorization.decisionId = some decision ∧
      ∃ status code result,
        recordedOutcome rt checks db decision proposal.toolName (normalizeResponse rt response) =
          (status, code, result) ∧
        Appends rt authorization status code result recorded db db' := by
  simp only [recordResult, Except.bind_eq_ok, Except.orThrow_eq_ok] at h
  obtain ⟨stored, -, h⟩ := h
  cases hterminal : terminalResults db authorization.proposalId with
  | cons result rest =>
    simp only [hterminal, List.head?_cons, Except.bind_eq_ok, Except.pure_eq_ok,
      Prod.ext_iff] at h
    obtain ⟨answer, hanswer, rfl, rfl⟩ := h
    refine .inl ⟨List.cons_ne_nil _ _, ?_, rfl⟩
    simp only [storedAnswer, Except.bind_eq_ok, Except.pure_eq_ok] at hanswer
    obtain ⟨payload, -, rfl⟩ := hanswer
    rfl
  | nil =>
    simp only [hterminal, List.head?_nil, Except.bind_eq_ok, Except.orThrow_eq_ok] at h
    obtain ⟨decision, hdecision, h⟩ := h
    exact .inr ⟨rfl, decision, hdecision, _, _, _, rfl, appendResult_ok h⟩

theorem terminalResults_append {row : HermesToolResult}
    (h : db'.hermesToolResults.rows = db.hermesToolResults.rows ++ [row]) (proposalId : UUID) :
    terminalResults db' proposalId = terminalResults db proposalId ++
      if row.proposalId = proposalId ∧ row.isTerminal = true then [row] else [] := by
  simp only [terminalResults, Table.select, h, List.filter_append, List.filter_singleton]
  by_cases hid : row.proposalId = proposalId <;> simp [hid]

theorem terminalResults_congr (h : db'.hermesToolResults = db.hermesToolResults)
    (proposalId : UUID) : terminalResults db' proposalId = terminalResults db proposalId := by
  simp only [terminalResults, h]

theorem terminalResults_eq_nil {authorization : ToolAuthorization} {externalId : String}
    (hstands : authorization.Stands db)
    (h : terminalResult rt db authorization.proposalId externalId = .ok none) :
    terminalResults db authorization.proposalId = [] := by
  obtain ⟨decision, hdecision, -⟩ := hstands.stored
  simp only [terminalResult, hdecision] at h
  cases hlatest : latestBy HermesToolResult.attempt (terminalResults db authorization.proposalId) with
  | none => exact latestBy_eq_none.mp hlatest
  | some result =>
    simp only [hlatest, Except.bind_eq_ok, Except.pure_eq_ok] at h
    obtain ⟨answer, -, h⟩ := h
    cases h

end Writes

/-! ### The invariant -/

/-- What an answer stands for. -/
def AnswerHolds (s : ToolState) (authorization : ToolAuthorization) : ToolAnswer → Prop
  | .denied => authorization.decisionStatus = .denied
  | .stale | .unreachable _ => True
  | .answered response => (authorization.proposalId, some response.status) ∈ s.dispatches

/-- The proposal of the execution under way has no terminal result, and its decision stands. -/
def PhaseHolds (s : ToolState) : Prop :=
  match s.phase with
  | .idle => True
  | .authorized _ authorization _ =>
    terminalResults s.db authorization.proposalId = [] ∧ authorization.Stands s.db
  | .answered authorization _ answer =>
    terminalResults s.db authorization.proposalId = [] ∧ authorization.Stands s.db ∧
      AnswerHolds s authorization answer

structure ToolInvariant (s : ToolState) : Prop where
  unharmed : RejectedUnharmed s
  authorized : ∀ d ∈ s.dispatches, ∃ decision, decisionOf s.db d.1 = some decision ∧
    decision.status = .authorized
  phase : PhaseHolds s

section Invariant
variable {rt : Runtime} {checks : RepositoryChecks} {s s' : ToolState}
  {condition : ToolState → ToolAuthorization → HermesToolProposalRequest → ToolAnswer → Prop}

theorem ToolAuthorization.Stands.append {authorization : ToolAuthorization} {db db' : Database}
    (h : authorization.Stands db)
    (hdecisions : ∃ extra, db'.hermesToolDecisions.rows = db.hermesToolDecisions.rows ++ extra) :
    authorization.Stands db' := by
  obtain ⟨decision, hdecision, hstatus⟩ := h.stored
  obtain ⟨extra, hrows⟩ := hdecisions
  exact ⟨decision, decisionOf_append hrows hdecision, hstatus⟩

/-- Steps that record no result and dispatch nothing. -/
theorem ToolInvariant.frame (hinv : ToolInvariant s)
    (hresults : s'.db.hermesToolResults = s.db.hermesToolResults)
    (hdecisions : ∃ extra, s'.db.hermesToolDecisions.rows = s.db.hermesToolDecisions.rows ++ extra)
    (hdispatches : s'.dispatches = s.dispatches) (hphase : PhaseHolds s') : ToolInvariant s' where
  unharmed := by
    refine ⟨fun r hr hrejected => ?_, fun proposalId => ?_⟩
    · rw [hdispatches]
      exact hinv.unharmed.rejected r (hresults ▸ hr) hrejected
    · rw [terminalResults_congr hresults]
      exact hinv.unharmed.once proposalId
  authorized d hd := by
    obtain ⟨decision, hdecision, hstatus⟩ := hinv.authorized d (hdispatches ▸ hd)
    obtain ⟨extra, hrows⟩ := hdecisions
    exact ⟨decision, decisionOf_append hrows hdecision, hstatus⟩
  phase := hphase

theorem decisions_same {db db' : Database} (h : db'.hermesToolDecisions = db.hermesToolDecisions) :
    ∃ extra, db'.hermesToolDecisions.rows = db.hermesToolDecisions.rows ++ extra :=
  ⟨[], by rw [h, List.append_nil]⟩

theorem phaseHolds_idle (h : s.phase = .idle) : PhaseHolds s := by
  rw [PhaseHolds, h]
  trivial

theorem PhaseHolds.of_same (hphase : PhaseHolds s)
    (hresults : s'.db.hermesToolResults = s.db.hermesToolResults)
    (hdecisions : s'.db.hermesToolDecisions = s.db.hermesToolDecisions)
    (hdispatches : s'.dispatches = s.dispatches) (hat : s'.phase = s.phase) : PhaseHolds s' := by
  rw [PhaseHolds] at hphase ⊢
  rw [hat]
  cases hcase : s.phase with
  | idle => trivial
  | authorized grant authorization proposal =>
    rw [hcase] at hphase
    refine ⟨?_, hphase.2.append (decisions_same hdecisions)⟩
    rw [terminalResults_congr hresults]
    exact hphase.1
  | answered authorization proposal answer =>
    rw [hcase] at hphase
    refine ⟨?_, hphase.2.1.append (decisions_same hdecisions), ?_⟩
    · rw [terminalResults_congr hresults]
      exact hphase.1
    · have hanswer := hphase.2.2
      cases answer with
      | denied => exact hanswer
      | stale => trivial
      | unreachable code => trivial
      | answered response =>
        rw [AnswerHolds, hdispatches]
        exact hanswer

/-- A rejected proposal has a terminal result. -/
theorem ne_of_rejected {db : Database} {r : HermesToolResult} {proposalId : UUID}
    (hnone : terminalResults db proposalId = []) (hr : r ∈ db.hermesToolResults)
    (hrejected : r.status = .rejected) : r.proposalId ≠ proposalId := by
  rintro rfl
  have hmem : r ∈ terminalResults db r.proposalId := by
    simp [terminalResults, Table.select, HermesToolResult.isTerminal, hrejected,
      Table.mem_def.mp hr]
  rw [hnone] at hmem
  cases hmem

/-- A dispatch: its proposal has not ended. -/
theorem ToolInvariant.dispatch (hinv : ToolInvariant s) {authorization : ToolAuthorization}
    {status : Option HostResponseStatus}
    (hnone : terminalResults s.db authorization.proposalId = [])
    (hstands : authorization.Stands s.db) (hauthorized : authorization.decisionStatus = .authorized)
    (hdb : s'.db = s.db)
    (hdispatches : s'.dispatches = (authorization.proposalId, status) :: s.dispatches)
    (hphase : PhaseHolds s') : ToolInvariant s' where
  unharmed := by
    refine ⟨fun r hr hrejected => ?_, fun proposalId => ?_⟩
    · rw [hdb] at hr
      have hne := ne_of_rejected hnone hr hrejected
      rw [hdispatches]
      rcases hinv.unharmed.rejected r hr hrejected with hhost | hnever
      · exact .inl (List.mem_cons_of_mem _ hhost)
      · refine .inr fun d hd => ?_
        rcases List.mem_cons.mp hd with rfl | hd
        · exact hne.symm
        · exact hnever d hd
    · rw [hdb]
      exact hinv.unharmed.once proposalId
  authorized d hd := by
    rw [hdispatches] at hd
    rw [hdb]
    rcases List.mem_cons.mp hd with rfl | hd
    · obtain ⟨decision, hdecision, hstatus⟩ := hstands.stored
      exact ⟨decision, hdecision, hstatus.trans hauthorized⟩
    · exact hinv.authorized d hd
  phase := hphase

theorem boundedResult_nil (rt : Runtime) : boundedResult rt [] = true := rfl

theorem normalizeResponse_bounded (response : HostResponse)
    (h : boundedResult rt response.result = true) :
    normalizeResponse rt response = { response with code := toolErrorCode rt response.code } :=
  if_pos h

/-- What is recorded as rejected was rejected by the host, or was not dispatched. -/
theorem rejected_of_settled {authorization : ToolAuthorization}
    {proposal : HermesToolProposalRequest} {answer : ToolAnswer} {decision : HermesToolDecision}
    {code : String} {result : List (String × Json)} (hinv : ToolInvariant s)
    (hstands : authorization.Stands s.db) (hanswer : AnswerHolds s authorization answer)
    (hsettled : Settled rt checks s authorization proposal answer)
    (hdecision : s.db.hermesToolDecisions.get? authorization.decisionId = some decision)
    (houtcome : recordedOutcome rt checks s.db decision proposal.toolName
      (normalizeResponse rt (answer.response authorization)) = (.rejected, code, result)) :
    (authorization.proposalId, some .rejected) ∈ s.dispatches ∨
      ∀ d ∈ s.dispatches, d.1 ≠ authorization.proposalId := by
  cases answer with
  | denied =>
    refine .inr fun d hd hid => ?_
    obtain ⟨decision', hdecision', hstatus'⟩ := hinv.authorized d hd
    obtain ⟨decision'', hdecision'', hstatus''⟩ := hstands.stored
    rw [hid, hdecision''] at hdecision'
    obtain rfl := Option.some.inj hdecision'
    rw [hstatus', hanswer] at hstatus''
    cases hstatus''
  | stale => exact .inr hsettled
  | unreachable code =>
    have hbounded : boundedResult rt ((ToolAnswer.unreachable code).response authorization).result =
      true := boundedResult_nil rt
    rw [normalizeResponse_bounded _ hbounded] at houtcome
    have hstatus := congrArg Prod.fst houtcome
    cases hstatus
  | answered response =>
    rcases hsettled with hrejected | ⟨hbounded, hvalid⟩
    · rw [AnswerHolds, hrejected] at hanswer
      exact .inl hanswer
    · have hnormal := normalizeResponse_bounded response hbounded
      rw [ToolAnswer.response, hnormal] at houtcome
      cases hstatus : response.status with
      | rejected =>
        rw [AnswerHolds, hstatus] at hanswer
        exact .inl hanswer
      | ok =>
        simp only [recordedOutcome, hstatus, hvalid hstatus decision hdecision] at houtcome
        cases congrArg Prod.fst houtcome
      | ambiguous =>
        simp only [recordedOutcome, hstatus] at houtcome
        cases congrArg Prod.fst houtcome

/-- A result is recorded. -/
theorem ToolInvariant.record (hinv : ToolInvariant s) {principalId : String}
    {authorization : ToolAuthorization} {proposal : HermesToolProposalRequest}
    {answer : ToolAnswer} {now : Time} {taskEventId : UUID} {recorded : ScopedToolExecutionResult}
    (hat : s.phase = .answered authorization proposal answer)
    (hsettled : Settled rt checks s authorization proposal answer)
    (h : recordResult rt checks principalId s.db authorization proposal
      (answer.response authorization) now taskEventId = .ok (recorded, s'.db))
    (hphase : s'.phase = .idle) (hdispatches : s'.dispatches = s.dispatches) :
    ToolInvariant s' := by
  have hunder := hinv.phase
  rw [PhaseHolds, hat] at hunder
  obtain ⟨hnone, hstands, hanswer⟩ := hunder
  rcases recordResult_ok h with ⟨hended, -⟩ | ⟨-, decision, hdecision, status, code, result,
    houtcome, happends⟩
  · exact absurd hnone hended
  · obtain ⟨row, hid, hstatus, -, -, hrows⟩ := happends.row
    refine ⟨⟨fun r hr hrejected => ?_, fun proposalId => ?_⟩, fun d hd => ?_,
      phaseHolds_idle hphase⟩
    · rw [hdispatches]
      rw [Table.mem_def, hrows] at hr
      rcases List.mem_append.mp hr with hr | hr
      · exact hinv.unharmed.rejected r hr hrejected
      · obtain rfl := List.mem_singleton.mp hr
        obtain rfl : HermesToolResultStatus.rejected = status := hrejected.symm.trans hstatus
        rw [hid]
        exact rejected_of_settled hinv hstands hanswer hsettled hdecision houtcome
    · rw [terminalResults_append hrows]
      by_cases hsame : row.proposalId = proposalId
      · rw [← hsame, hid, hnone]
        split <;> simp
      · rw [if_neg fun h => hsame h.1, List.append_nil]
        exact hinv.unharmed.once proposalId
    · obtain ⟨decision, hdecision, hstatus⟩ := hinv.authorized d (hdispatches ▸ hd)
      obtain ⟨extra, hdecisions⟩ := decisions_same happends.decisions
      exact ⟨decision, decisionOf_append hdecisions hdecision, hstatus⟩

/-- One step of executions whose results are settled. -/
theorem ToolInvariant.step (hinv : ToolInvariant s)
    (h : ToolStep rt checks (Settled rt checks) s s') : ToolInvariant s' := by
  have hunder := hinv.phase
  cases h with
  | authorize principalId grant runId proposal now taskEventId authorization h hterminal hphase
      hdispatches =>
    obtain ⟨hresults, hdecisions, -, hstands⟩ := authorizeProposal_ok h
    refine hinv.frame hresults hdecisions hdispatches ?_
    rw [PhaseHolds, hphase]
    exact ⟨terminalResults_eq_nil hstands hterminal, hstands⟩
  | finished principalId grant runId proposal now taskEventId authorization h hphase
      hdispatches =>
    obtain ⟨hresults, hdecisions, -, -⟩ := authorizeProposal_ok h
    exact hinv.frame hresults hdecisions hdispatches (phaseHolds_idle hphase)
  | deny grant authorization proposal hat hdenied hdb hphase hdispatches =>
    rw [PhaseHolds, hat] at hunder
    refine hinv.frame (by rw [hdb]) (decisions_same (by rw [hdb])) hdispatches ?_
    rw [PhaseHolds, hphase, hdb]
    exact ⟨hunder.1, hunder.2, hdenied⟩
  | dispatch grant authorization proposal request now outcome hat hauthorized hrequest hcheck hdb
      hphase hdispatches =>
    rw [PhaseHolds, hat] at hunder
    refine hinv.dispatch hunder.1 hunder.2 hauthorized hdb hdispatches ?_
    rw [PhaseHolds, hphase, hdb]
    refine ⟨hunder.1, hunder.2, ?_⟩
    cases outcome with
    | error code => trivial
    | ok response =>
      rw [answerOf, AnswerHolds, hdispatches]
      exact List.mem_cons_self
  | refuse grant authorization proposal request now error hat hauthorized hrequest hcheck hdb
      hphase hdispatches =>
    rw [PhaseHolds, hat] at hunder
    refine hinv.frame (by rw [hdb]) (decisions_same (by rw [hdb])) hdispatches ?_
    rw [PhaseHolds, hphase, hdb]
    exact ⟨hunder.1, hunder.2, trivial⟩
  | record principalId authorization proposal answer now taskEventId result hat hcondition h hphase
      hdispatches => exact hinv.record hat hcondition h hphase hdispatches
  | stop hdb hphase hdispatches =>
    exact hinv.frame (by rw [hdb]) (decisions_same (by rw [hdb])) hdispatches
      (phaseHolds_idle hphase)
  | other h hphase hdispatches =>
    exact hinv.frame h.results (decisions_same h.decisions) hdispatches
      (hunder.of_same h.results h.decisions hdispatches hphase)

theorem FreshTools.invariant (h : FreshTools s) : ToolInvariant s where
  unharmed := by
    refine ⟨fun r hr => ?_, fun proposalId => ?_⟩
    · rw [Table.mem_def, h.results] at hr
      cases hr
    · simp [terminalResults, Table.select, h.results]
  authorized d hd := by
    rw [h.dispatches] at hd
    cases hd
  phase := phaseHolds_idle h.phase

end Invariant

end ControlPlane
