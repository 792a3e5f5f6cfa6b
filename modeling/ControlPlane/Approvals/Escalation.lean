import ControlPlane.Approvals.Pausing
import ControlPlane.Jobs.Outage
import ControlPlane.Task.Commands

/-!
# Escalated outages

An exhausted dependency outage pauses its task for a human: the attempts of its job become
the history of a retry-limit request, the request is made in a transaction of the approval
service, and another transaction binds the outage to it. When the first of them committed
and the second did not, recovery makes the same call again, for the task as it then is.

## Main definitions

* `BackgroundJobService.escalateOutage`

## Main results

* `links_of_escalated`: when a repeated call binds the outage.
-/
namespace ControlPlane

/-! ### The request -/

inductive EscalationError where
  | job (error : BackgroundJobError)
  | approval (error : ApprovalError)
  deriving DecidableEq, Repr

/-- Bounded safe retry history is checked where it is built. -/
def ApprovalRetryAttempt.ofOutage (rt : Runtime) (outage : DependencyOutageAttempt) :
    Except ApprovalError ApprovalRetryAttempt := do
  Except.require (1 ≤ outage.attempt ∧ outage.attempt ≤ 100) (.invalid "retry attempt is invalid")
  Except.require (reasonCode.fullmatch (CharClass.holds rt.unicode) outage.errorCode.toList)
    (.invalid "retry error code is invalid")
  if h : outage.occurredAt < Calendar.endOfTime then
    return ⟨outage.attempt, outage.errorCode, ⟨outage.occurredAt, h⟩,
      some outage.checkpointEvidenceId⟩
  else .error (.internal "retry time leaves the calendar")

/-- The operation an outage blocks, by the service that is out. -/
def DependencyService.resumeOperation : DependencyService → String
  | host => "dependency.host.resume"
  | hermes => "dependency.hermes.resume"
  | github => "dependency.github.resume"

def BlockedOperation.ofOutage (rt : Runtime) (job : BackgroundJob)
    (latest : DependencyOutageAttempt) : Except ApprovalError BlockedOperation := do
  let name := latest.service.resumeOperation
  let key := "outage:" ++ job.id.str ++ ":" ++ toString latest.attempt
  Except.require (dottedName.fullmatch (CharClass.holds rt.unicode) name.toList)
    (.invalid "blocked operation name is invalid")
  Except.require (key ≠ "" ∧ key.length ≤ 255 ∧
      actorIdentifier.fullmatch (CharClass.holds rt.unicode) key.toList)
    (.invalid "blocked operation idempotency key is invalid")
  Except.require (hexDigest.fullmatch (CharClass.holds rt.unicode) job.inputFingerprint.toList)
    (.invalid "blocked operation fingerprint is invalid")
  return ⟨name, key, job.inputFingerprint, some latest.checkpointEvidenceId⟩

/-- The arguments of a call: the job, the readings of the clock and the identifiers of new
rows. -/
structure EscalationCommand where
  jobId : UUID
  now : Time
  requestedAt : Time
  transitionEventId : UUID
  eventId : UUID

/-- A request keeps the deadline it was made with. -/
def outageExpiry (db : Database) (c : EscalationCommand) (requestId : UUID) : Time :=
  match (db.approvalRequests.get? requestId).bind ApprovalRequest.expiresAt with
  | some expiresAt => expiresAt
  | none => c.now + maxApprovalLifetime

theorem outageExpiry_of_some {db : Database} {c : EscalationCommand} {requestId : UUID}
    {expiresAt : Time}
    (h : (db.approvalRequests.get? requestId).bind ApprovalRequest.expiresAt = some expiresAt) :
    outageExpiry db c requestId = expiresAt := by
  rw [outageExpiry, h]

/-- The request for the outage of a job whose attempts have run out. -/
def outageRequest (rt : Runtime) (db : Database) (c : EscalationCommand) (job : BackgroundJob)
    (task : Task) (latest : DependencyOutageAttempt) : Except ApprovalError RequestCommand := do
  let attempts := outagesOf db job.id
  let requestId := outageApprovalId rt latest
  let retryHistory ← attempts.mapM (ApprovalRetryAttempt.ofOutage rt)
  let blocked ← BlockedOperation.ofOutage rt job latest
  return {
    taskId := task.id, requestId, expectedState := task.state, requestType := .retryLimit
    reasonCode := latest.service.value ++ "_RETRY_LIMIT", subjectType := some "BLOCKED_OPERATION"
    subjectId := none, blockedOperation := some blocked, retryHistory
    evidenceIds := attempts.map DependencyOutageAttempt.checkpointEvidenceId
    expiresAt := outageExpiry db c requestId, now := c.requestedAt
    transitionEventId := c.transitionEventId, eventId := c.eventId }

/-- Bind the outage to its request. -/
def linkOutage (db : Database) (outageId requestId : UUID) :
    Except EscalationError (Option UUID × Database) := do
  let latest ← Except.orThrow (db.dependencyOutageAttempts.get? outageId)
    (.job (.conflict "background job outage disappeared"))
  Except.require (latest.approvalRequestId = none ∨ latest.approvalRequestId = some requestId)
    (.job (.conflict "background job outage approval conflicts"))
  return (some requestId, { db with
    dependencyOutageAttempts :=
      db.dependencyOutageAttempts.set { latest with approvalRequestId := some requestId } })

/-- Request the decision on an outage and bind it; a refused request leaves the escalation
pending. -/
def requestOutage (svc : ApprovalService) (rt : Runtime) (db : Database) (q : RequestCommand)
    (latest : DependencyOutageAttempt) : Except EscalationError (Option UUID × Database) :=
  match svc.request rt db q with
  | .ok (_, db) => linkOutage db latest.id q.requestId
  | .error (.internal message) => .error (.approval (.internal message))
  | .error _ => .ok (none, db)

/-- Escalate the outage of an exhausted job. -/
def BackgroundJobService.escalateOutage (svc : ApprovalService) (rt : Runtime) (db : Database)
    (c : EscalationCommand) : Except EscalationError (Option UUID × Database) := do
  let unavailable : EscalationError := .job (.notFound "background job outage is unavailable")
  let job ← Except.orThrow (db.backgroundJobs.get? c.jobId) unavailable
  let taskId ← Except.orThrow job.taskId unavailable
  let notExhausted : EscalationError :=
    .job (.conflict "background job outage is not exhausted")
  let task ← Except.orThrow (db.tasks.get? taskId) notExhausted
  let latest ← Except.orThrow (outagesOf db job.id).getLast? notExhausted
  Except.require (latest.exhausted = true) notExhausted
  match latest.approvalRequestId with
  | some requestId => return (some requestId, db)
  | none =>
    if task.state.isTerminal then return (none, db)
    else do
      let q ← Except.relabel (outageRequest rt db c job task latest) .approval
      requestOutage svc rt db q latest

/-! ### What a request is compared by -/

/-- The same request, asked of a task in another state. -/
def RequestCommand.at_ (q : RequestCommand) (state : TaskState) : RequestCommand :=
  { q with expectedState := state }

/-- What the precondition of a request for an outage is computed from. -/
def RequestCommand.identity (rt : Runtime) (q : RequestCommand) (shape : RequestShape) : Json :=
  preconditionIdentity q.taskId (newRequest rt q "" shape none "") shape none

/-- What the digest of a request is computed from, given the digest of its precondition. -/
def RequestCommand.comparison (q : RequestCommand) (reason precondition : String) : Json :=
  .obj
    [("evidence_ids", .arr (q.evidenceIds.map fun id => .str id.str)),
      ("expires_at", .str (Calendar.isoTimestamp q.expiresAt)),
      ("options", .arr ((requestOptions q.requestType).map fun option => .str option.value)),
      ("precondition_fingerprint", .str precondition), ("reason_code", .str reason)]

def RequestCommand.text (rt : Runtime) (q : RequestCommand) (reason : String)
    (shape : RequestShape) : Json :=
  q.comparison reason (rt.fingerprint (q.identity rt shape))

/-- The texts of a request in two states of its task do not share a digest. -/
structure SeparateDigests (rt : Runtime) (q : RequestCommand) (state : TaskState) : Prop where
  identity : ∀ reason shape, checkApprovalRequest rt q = .ok (reason, shape) →
    rt.fingerprint (q.identity rt shape) = rt.fingerprint ((q.at_ state).identity rt shape) →
      q.identity rt shape = (q.at_ state).identity rt shape
  text : ∀ reason shape, checkApprovalRequest rt q = .ok (reason, shape) →
    rt.fingerprint (q.text rt reason shape) =
      rt.fingerprint ((q.at_ state).text rt reason shape) →
        q.text rt reason shape = (q.at_ state).text rt reason shape

section Comparison
variable {rt : Runtime} {q : RequestCommand} {state : TaskState}

theorem requestFingerprint_newRequest (reason : String) (shape : RequestShape) (owner : String) :
    (newRequest rt q reason shape none owner).requestFingerprint =
      rt.fingerprint (q.text rt reason shape) := rfl

/-- A request is the same in two states of its task only if these are the same. -/
theorem requestFingerprint_at (h : SeparateDigests rt q state) {reason : String}
    {shape : RequestShape} (hchecked : checkApprovalRequest rt q = .ok (reason, shape))
    (owner owner' : String) :
    (newRequest rt q reason shape none owner).requestFingerprint =
      (newRequest rt (q.at_ state) reason shape none owner').requestFingerprint ↔
        state = q.expectedState := by
  rw [requestFingerprint_newRequest, requestFingerprint_newRequest]
  constructor
  · intro heq
    have htext := h.text reason shape hchecked heq
    simp only [RequestCommand.text, RequestCommand.comparison, Json.obj.injEq, List.cons.injEq,
      Prod.mk.injEq,
      Json.str.injEq, true_and, and_true] at htext
    have hidentity := h.identity reason shape hchecked htext.2.2.2
    simp only [RequestCommand.identity, preconditionIdentity, newRequest, Json.obj.injEq,
      List.append_nil, List.cons.injEq, Prod.mk.injEq, Json.str.injEq, true_and] at hidentity
    exact (TaskState.value_inj hidentity.1).symm
  · rintro rfl
    rfl

end Comparison

/-! ### After an interruption -/

section Interruption
variable {svc : ApprovalService} {rt : Runtime} {db db₁ db₂ : Database} {q : RequestCommand}

/-- What a new request leaves: its row, the event of its transition and its own. -/
structure Opened (rt : Runtime) (db db₁ : Database) (q : RequestCommand) : Prop where
  checked : ∃ reason shape owner, checkApprovalRequest rt q = .ok (reason, shape) ∧
    db₁.approvalRequests.get? q.requestId = some (newRequest rt q reason shape none owner)
  transition : ∃ eventId, transitionEventId db₁ q.requestId = .ok eventId
  audit : ∃ eventId,
    approvalAuditEventId db₁ q.taskId q.requestId "APPROVAL_REQUESTED" = .ok eventId
  outages : db₁.dependencyOutageAttempts = db.dependencyOutageAttempts
  jobs : db₁.backgroundJobs = db.backgroundJobs

theorem audit_of_mem {taskId requestId : UUID} {type : String} {e : TaskEvent}
    (he : e ∈ db.taskEvents.rows) (htask : e.taskId = taskId)
    (hdecides : e.decides type requestId = true) :
    ∃ eventId, approvalAuditEventId db taskId requestId type = .ok eventId := by
  have hmem : e ∈ taskEventsOf db taskId := List.mem_filter.mpr ⟨he, by simp [htask]⟩
  cases hfound : (taskEventsOf db taskId).find? (·.decides type requestId) with
  | some found => exact ⟨found.id, by rw [approvalAuditEventId, hfound]; rfl⟩
  | none => exact absurd hdecides (List.find?_eq_none.mp hfound e hmem)

theorem opened_of_request (htype : q.requestType = .retryLimit)
    (hfresh : db.approvalRequests.get? q.requestId = none) {answer : ApprovalRequestResult}
    (h : svc.request rt db q = .ok (answer, db₁)) : Opened rt db db₁ q := by
  simp only [ApprovalService.request, Except.bind_eq_ok, Except.orThrow_eq_ok, hfresh] at h
  obtain ⟨⟨reason, shape⟩, hchecked, task, htask, subject, hsubject, hopen⟩ := h
  rw [htype] at hsubject
  obtain rfl : none = subject := Except.ok.inj hsubject
  simp only [ApprovalService.openRequest, Except.bind_eq_ok, Except.require_eq_ok,
    Except.orThrow_eq_ok, Except.relabel_eq_ok, Except.pure_eq_ok, Prod.mk.injEq] at hopen
  obtain ⟨_, -, _, -, _, -, policyVersionId, -, requests, hinsert, ⟨transition, moved⟩,
    htransition, moving, hmoving, ⟨event, last⟩, happend, -, rfl⟩ := hopen
  obtain ⟨⟨blocked, hevent⟩, hrows, htasks, hrequests⟩ := appendApprovalEvent_ok happend
  obtain ⟨hmoved, -, -⟩ := transitionTask_frame htransition
  have hid : moving.id = q.taskId :=
    (Table.key_of_get? hmoving).trans (Table.key_of_get? htask)
  have hlast : last.dependencyOutageAttempts = moved.dependencyOutageAttempts ∧
      last.backgroundJobs = moved.backgroundJobs := by
    simp only [appendApprovalEvent, Except.bind_eq_ok, Except.pure_eq_ok, Prod.mk.injEq]
      at happend
    obtain ⟨_, -, _, -, _, -, -, rfl⟩ := happend
    exact ⟨rfl, rfl⟩
  have hafter : moved.dependencyOutageAttempts = db.dependencyOutageAttempts ∧
      moved.backgroundJobs = db.backgroundJobs := by
    obtain hsame | ⟨b, hafter⟩ := transitionTask_ok htransition
    · rw [hsame]
      exact ⟨rfl, rfl⟩
    · rw [hafter]
      exact ⟨rfl, rfl⟩
  refine ⟨⟨reason, shape, task.ownerId, hchecked, ?_⟩, ?_, ?_, hlast.1.trans hafter.1,
    hlast.2.trans hafter.2⟩
  · rw [hrequests, hmoved, Table.get?_insert? hinsert]
    exact if_pos rfl
  · exact ⟨_, transitionEventId_append hrows (transitionEventId_transition htransition)⟩
  · refine audit_of_mem (e := event) ?_ ?_ ?_
    · rw [hrows]
      simp
    · rw [hevent]
      exact hid
    · have hpayload : event.payload.get "approval_request_id" = .str q.requestId.str := by
        rw [hevent]
        rfl
      have heventType : event.eventType = "APPROVAL_REQUESTED" := by
        rw [hevent]
        rfl
      rw [TaskEvent.decides, hpayload, heventType]
      simp [Json.pyEq, Json.str?]

/-- The first call: the outage was exhausted and not bound, its task live, and the request
was committed. -/
structure FirstCall (svc : ApprovalService) (rt : Runtime) (db db₁ : Database)
    (c : EscalationCommand) (job : BackgroundJob) (task : Task) (latest : DependencyOutageAttempt)
    (q : RequestCommand) : Prop where
  job_eq : db.backgroundJobs.get? c.jobId = some job
  taskId_eq : job.taskId = some task.id
  task_eq : db.tasks.get? task.id = some task
  latest_eq : (outagesOf db job.id).getLast? = some latest
  exhausted : latest.exhausted = true
  unbound : latest.approvalRequestId = none
  live : task.state.isTerminal = false
  request_eq : outageRequest rt db c job task latest = .ok q
  fresh : db.approvalRequests.get? q.requestId = none
  committed : ∃ answer, svc.request rt db q = .ok (answer, db₁)

/-- Any time after the first call was interrupted: nobody else binds the outage, the job
keeps its identity, the request its captured columns, and the history grows. -/
structure Awaiting (db₁ db₂ : Database) (job : BackgroundJob) (q : RequestCommand) : Prop where
  job : ∃ job', db₂.backgroundJobs.get? job.id = some job' ∧ job'.taskId = job.taskId ∧
    job'.inputFingerprint = job.inputFingerprint
  outages : db₂.dependencyOutageAttempts = db₁.dependencyOutageAttempts
  request : ∀ row, db₁.approvalRequests.get? q.requestId = some row →
    ∃ row', db₂.approvalRequests.get? q.requestId = some row' ∧ row'.taskId = row.taskId ∧
      row'.requestFingerprint = row.requestFingerprint ∧ row'.expiresAt = row.expiresAt
  events : ∃ new, db₂.taskEvents.rows = db₁.taskEvents.rows ++ new

/-- A call binds the outage to its request. -/
def Binds (svc : ApprovalService) (rt : Runtime) (db : Database) (c : EscalationCommand)
    (latest : DependencyOutageAttempt) : Prop :=
  ∃ db', BackgroundJobService.escalateOutage svc rt db c =
      .ok (some (outageApprovalId rt latest), db') ∧
    db'.dependencyOutageAttempts.get? latest.id =
      some { latest with approvalRequestId := some (outageApprovalId rt latest) }

/-- The request of a later call: the first one, in the state the task is in by then. -/
def RequestCommand.again (q : RequestCommand) (c : EscalationCommand) (state : TaskState) :
    RequestCommand :=
  { q.at_ state with
    now := c.requestedAt, transitionEventId := c.transitionEventId, eventId := c.eventId }

variable {c c' : EscalationCommand} {job job' : BackgroundJob} {task task' : Task}
  {latest : DependencyOutageAttempt}

theorem FirstCall.outages (h : FirstCall svc rt db db₁ c job task latest q) :
    q.requestType = .retryLimit ∧ q.requestId = outageApprovalId rt latest ∧ q.taskId = task.id ∧
      q.expectedState = task.state := by
  have hrequest := h.request_eq
  simp only [outageRequest, Except.bind_eq_ok, Except.pure_eq_ok] at hrequest
  obtain ⟨_, -, _, -, hq⟩ := hrequest
  exact ⟨(congrArg RequestCommand.requestType hq).symm,
    (congrArg RequestCommand.requestId hq).symm, (congrArg RequestCommand.taskId hq).symm,
    (congrArg RequestCommand.expectedState hq).symm⟩

theorem outageRequest_again (h : FirstCall svc rt db db₁ c job task latest q)
    (houtages : db₂.dependencyOutageAttempts = db.dependencyOutageAttempts)
    (hid : job'.id = job.id) (hfingerprint : job'.inputFingerprint = job.inputFingerprint)
    (htask : task'.id = task.id)
    (hexpires : (db₂.approvalRequests.get? q.requestId).bind ApprovalRequest.expiresAt =
      some q.expiresAt) :
    outageRequest rt db₂ c' job' task' latest = .ok (q.again c' task'.state) := by
  have hrequest := h.request_eq
  simp only [outageRequest, Except.bind_eq_ok, Except.pure_eq_ok] at hrequest ⊢
  obtain ⟨history, hhistory, blocked, hblocked, hq⟩ := hrequest
  have hattempts : outagesOf db₂ job'.id = outagesOf db job.id := by
    rw [outagesOf, outagesOf, houtages, hid]
  have hblocked' : BlockedOperation.ofOutage rt job' latest = .ok blocked := by
    rw [BlockedOperation.ofOutage, hid, hfingerprint]
    exact hblocked
  refine ⟨history, by rw [hattempts]; exact hhistory, blocked, hblocked', ?_⟩
  rw [← h.outages.2.1, outageExpiry_of_some hexpires, hattempts, htask, ← hq]
  rfl

/-- The request of a later call is answered from the one that was committed, if it is the
same. -/
theorem request_again (svc : ApprovalService) (c' : EscalationCommand)
    (hopened : Opened rt db db₁ q) (hawait : Awaiting db₁ db₂ job q)
    (htype : q.requestType = .retryLimit) (htask : db₂.tasks.get? q.taskId = some task')
    (hdigests : SeparateDigests rt q task'.state) :
    (task'.state = q.expectedState → ∃ answer,
      svc.request rt db₂ (q.again c' task'.state) = .ok (answer, db₂)) ∧
    (task'.state ≠ q.expectedState → svc.request rt db₂ (q.again c' task'.state) =
      .error (.conflict "approval request id conflicts")) := by
  obtain ⟨⟨reason, shape, owner, hchecked, hrow⟩, ⟨transition, htransition⟩, ⟨audit, haudit⟩, -⟩ :=
    hopened
  obtain ⟨row', hrow', htaskId, hfingerprint, -⟩ := hawait.request _ hrow
  obtain ⟨new, hnew⟩ := hawait.events
  have htransition₂ := transitionEventId_append hnew htransition
  have haudit₂ := approvalAuditEventId_append hnew haudit
  have hchecked' : checkApprovalRequest rt (q.again c' task'.state) = .ok (reason, shape) :=
    hchecked
  have hid : task'.id = q.taskId := Table.key_of_get? htask
  have hrequest : svc.request rt db₂ (q.again c' task'.state) = do
      let result ← replayedRequest db₂ task' row'
        (newRequest rt (q.again c' task'.state) reason shape none task'.ownerId)
      return (result, db₂) := by
    have htask' : db₂.tasks.get? (q.again c' task'.state).taskId = some task' := htask
    have hrow₂ : db₂.approvalRequests.get? (q.again c' task'.state).requestId = some row' := hrow'
    have htype' : (q.again c' task'.state).requestType = .retryLimit := htype
    simp only [ApprovalService.request, hchecked', Except.ok_bind, htask', Except.orThrow, hrow₂,
      validateExactSubject, htype']
  have hsame : (row'.taskId = (newRequest rt (q.again c' task'.state) reason shape none
      task'.ownerId).taskId ∧ row'.requestFingerprint = (newRequest rt (q.again c' task'.state)
        reason shape none task'.ownerId).requestFingerprint) ↔ task'.state = q.expectedState := by
    rw [htaskId, hfingerprint]
    have hstate := requestFingerprint_at hdigests hchecked owner task'.ownerId
    exact (and_iff_right rfl).trans hstate
  rw [hrequest, replayedRequest]
  constructor
  · intro hstate
    rw [Except.require_of (hsame.mpr hstate)]
    have htransition' : transitionEventId db₂ (newRequest rt (q.again c' task'.state) reason shape
        none task'.ownerId).id = .ok transition := htransition₂
    have haudit' : approvalAuditEventId db₂ task'.id (newRequest rt (q.again c' task'.state)
        reason shape none task'.ownerId).id "APPROVAL_REQUESTED" = .ok audit := by
      rw [hid]
      exact haudit₂
    rw [Except.ok_bind, htransition', Except.ok_bind, haudit']
    exact ⟨_, rfl⟩
  · intro hstate
    rw [Except.require, if_neg fun h => hstate (hsame.mp h)]
    rfl

/-- A call repeated after the request was committed makes the same request, for the task as
it then is. -/
theorem escalateOutage_again (h : FirstCall svc rt db db₁ c job task latest q)
    (hopened : Opened rt db db₁ q) (hawait : Awaiting db₁ db₂ job q)
    (htask : db₂.tasks.get? task.id = some task') (hjob : c'.jobId = job.id) :
    BackgroundJobService.escalateOutage svc rt db₂ c' =
      if task'.state.isTerminal then .ok (none, db₂)
      else requestOutage svc rt db₂ (q.again c' task'.state) latest := by
  obtain ⟨job', hjob', hjobTask, hfingerprint⟩ := hawait.job
  have hid : job'.id = job.id := Table.key_of_get? hjob'
  have hid' : task'.id = task.id := Table.key_of_get? htask
  have houtages : db₂.dependencyOutageAttempts = db.dependencyOutageAttempts :=
    hawait.outages.trans hopened.outages
  have hlatest : (outagesOf db₂ job'.id).getLast? = some latest := by
    rw [outagesOf, houtages, hid]
    exact h.latest_eq
  have hexpires : (db₂.approvalRequests.get? q.requestId).bind ApprovalRequest.expiresAt =
      some q.expiresAt := by
    obtain ⟨reason, shape, owner, -, hrow⟩ := hopened.checked
    obtain ⟨row', hrow', -, -, hexpires⟩ := hawait.request _ hrow
    rw [hrow', Option.bind_some, hexpires]
    rfl
  have hagain : outageRequest rt db₂ c' job' task' latest = .ok (q.again c' task'.state) :=
    outageRequest_again h houtages hid hfingerprint hid' hexpires
  simp only [BackgroundJobService.escalateOutage, hjob, hjob', Except.orThrow, Except.ok_bind,
    hjobTask, h.taskId_eq, htask, hlatest, Except.require, if_pos h.exhausted, h.unbound, hagain]
  rfl

/-- Elsewhere than where it was escalated, the task's outage is not bound. -/
theorem escalateOutage_moved (h : FirstCall svc rt db db₁ c job task latest q)
    (hopened : Opened rt db db₁ q) (hawait : Awaiting db₁ db₂ job q)
    (htask : db₂.tasks.get? task.id = some task') (hjob : c'.jobId = job.id)
    (hdigests : SeparateDigests rt q task'.state) (hmoved : task'.state ≠ task.state) :
    BackgroundJobService.escalateOutage svc rt db₂ c' = .ok (none, db₂) := by
  obtain ⟨htype, -, htaskId, hstate⟩ := h.outages
  obtain ⟨-, hother⟩ := request_again svc c' hopened hawait htype (htaskId ▸ htask)
    hdigests
  rw [escalateOutage_again h hopened hawait htask hjob, requestOutage, hother (hstate ▸ hmoved)]
  exact ite_self _

/-- A call repeated after the request was committed binds the outage just when the task is
back in the state it was escalated from; it never does while the request is pending. -/
theorem links_of_escalated (h : FirstCall svc rt db db₁ c job task latest q)
    (hawait : Awaiting db₁ db₂ job q) (htask : db₂.tasks.get? task.id = some task')
    (hdigests : SeparateDigests rt q task'.state) (hjob : c'.jobId = job.id) :
    (Binds svc rt db₂ c' latest ↔ task'.state = task.state) ∧
      (task'.state ≠ task.state →
        BackgroundJobService.escalateOutage svc rt db₂ c' = .ok (none, db₂)) := by
  obtain ⟨htype, hrequestId, htaskId, hstate⟩ := h.outages
  obtain ⟨answer, hcommitted⟩ := h.committed
  have hopened := opened_of_request htype h.fresh hcommitted
  have hmem : db₂.dependencyOutageAttempts.get? latest.id = some latest := by
    have hlast := List.mem_of_getLast? h.latest_eq
    rw [outagesOf, List.mem_insertionSort] at hlast
    rw [hawait.outages, hopened.outages]
    exact Table.get?_eq_some.mpr ⟨(List.mem_filter.mp hlast).1, rfl⟩
  have hmoved (hne : task'.state ≠ task.state) :
      BackgroundJobService.escalateOutage svc rt db₂ c' = .ok (none, db₂) :=
    escalateOutage_moved h hopened hawait htask hjob hdigests hne
  refine ⟨⟨?_, ?_⟩, hmoved⟩
  · rintro ⟨db', hbinds, -⟩
    by_contra hne
    rw [hmoved hne] at hbinds
    cases hbinds
  · intro hback
    obtain ⟨hsame, -⟩ := request_again svc c' hopened hawait htype (htaskId ▸ htask)
      hdigests
    obtain ⟨answer, hanswer⟩ := hsame (hback.trans hstate.symm)
    have hlive : ¬ task'.state.isTerminal = true := by
      rw [hback, h.live]
      decide
    have hbound : linkOutage db₂ latest.id q.requestId = .ok (some q.requestId, { db₂ with
        dependencyOutageAttempts := db₂.dependencyOutageAttempts.set
          { latest with approvalRequestId := some q.requestId } }) := by
      simp only [linkOutage, hmem, Except.orThrow, Except.ok_bind, Except.require,
        if_pos (Or.inl h.unbound)]
      rfl
    refine ⟨{ db₂ with
      dependencyOutageAttempts := db₂.dependencyOutageAttempts.set
        { latest with approvalRequestId := some q.requestId } }, ?_, ?_⟩
    · rw [escalateOutage_again h hopened hawait htask hjob, if_neg hlive, requestOutage, hanswer]
      exact hrequestId ▸ hbound
    · rw [← hrequestId, Table.get?_set]
      exact (if_pos rfl).trans (by rw [hmem]; rfl)

end Interruption

/-! ### An escalation interrupted before it bound the outage -/

namespace EscalationExample
open HandoffExample (task policy)

/-- A digest by the sum of its bytes for what requests are compared by, and one for all
other texts. -/
def bytesDigest (bytes : List UInt8) : List Char :=
  if bytes.take 3 = [123, 34, 98] ∨ bytes.take 3 = [123, 34, 101] then
    let total := (bytes.map UInt8.toNat).foldl (· + ·) 0
    List.replicate 64 (if total % 3 = 0 then '0' else if total % 3 = 1 then '1' else '2')
  else List.replicate 64 '0'

theorem fits_bytesDigest (bytes : List UInt8) :
    Regex.Fits (UUID.hexShape 64) (bytesDigest bytes) := by
  have hfits (d : Char) (hd : d ∈ UUID.hexAlphabet) :
      Regex.Fits (UUID.hexShape 64) (List.replicate 64 d) := by
    have hmem : ∀ c ∈ List.replicate 64 d, c ∈ UUID.hexAlphabet := fun c hc =>
      List.eq_of_mem_replicate hc ▸ hd
    exact Regex.Fits.replicate hmem
  unfold bytesDigest
  dsimp only
  split
  · refine hfits _ ?_
    split
    · decide
    · split
      · decide
      · decide
  · exact hfits '0' (by decide)

/-- A runtime whose digests depend on what a text contains. -/
def summing : Runtime :=
  { Runtime.plain with
    sha256 := fun text => String.ofList (bytesDigest text.toByteArray.data.toList)
    sha256_fits := fun text => by
      rw [String.toList_ofList]
      exact fits_bytesDigest _ }

theorem summing_fingerprint (j : Json) : summing.fingerprint j = String.ofList
    (bytesDigest ((j.encode summing.floatRepr).flatMap String.utf8EncodeChar)) := by
  have hbytes : (summing.dumps j).toByteArray.data.toList =
      (j.encode summing.floatRepr).flatMap String.utf8EncodeChar := by
    simp [Runtime.dumps, List.utf8Encode]
  rw [← hbytes]
  rfl

def evidence (rt : Runtime) : EvidenceEnvelope :=
  { HandoffExample.evidence with contentHash := digest rt (rt.dumps .null) }

/-- A job that failed with its attempts. -/
def job : BackgroundJob where
  id := .ofNat 70
  taskId := some task.id
  jobType := "work"
  inputPayload := .obj []
  inputFingerprint := String.ofList (List.replicate 64 '0')
  idempotencyKey := "k"
  status := .failed
  maxAttempts := 1
  attemptCount := 1
  retryBaseSeconds := 1
  retryMaxSeconds := 300
  availableAt := 0
  lastErrorCode := some "TIMEOUT"
  completedAt := some 5
  createdAt := 0
  ownerId := task.ownerId
  rootCorrelationId := task.rootCorrelationId
  causationId := none
  parentCorrelationId := none

def outage : DependencyOutageAttempt where
  id := .ofNat 71
  jobId := job.id
  leaseId := .ofNat 72
  fencingToken := 1
  attempt := 1
  service := .github
  errorCode := "TIMEOUT"
  checkpointEvidenceId := HandoffExample.evidence.evidenceId
  exhausted := true
  occurredAt := 5

theorem taskRows : ([task].map key).Nodup := List.nodup_singleton _
theorem policyRows : ([policy].map key).Nodup := List.nodup_singleton _
theorem evidenceRows (rt : Runtime) : ([(evidence rt).record rt].map key).Nodup :=
  List.nodup_singleton _
theorem jobRows : ([job].map key).Nodup := List.nodup_singleton _
theorem outageRows : ([outage].map key).Nodup := List.nodup_singleton _

def store (rt : Runtime) : Database where
  tasks := ⟨[task], taskRows⟩
  policyVersions := ⟨[policy], policyRows⟩
  evidenceRecords := ⟨[(evidence rt).record rt], evidenceRows rt⟩
  backgroundJobs := ⟨[job], jobRows⟩
  dependencyOutageAttempts := ⟨[outage], outageRows⟩

def service : ApprovalService := {}

def call : EscalationCommand where
  jobId := job.id
  now := 10
  requestedAt := 10
  transitionEventId := .ofNat 73
  eventId := .ofNat 74

/-- The first call up to the commit of the request, with the request as it is compared. -/
def outcome (rt : Runtime) : Option ((RequestCommand × ApprovalRequestResult × Database) ×
    (String × RequestShape) × Option TaskState) := do
  let q ← (outageRequest rt (store rt) call job task outage).toOption
  let checked ← (checkApprovalRequest rt q).toOption
  let (answer, db₁) ← (service.request rt (store rt) q).toOption
  return ((q, answer, db₁), checked, (db₁.tasks.get? task.id).map Task.state)

/-- The digest of a value, computed without its text. -/
def listed (j : Json) : String :=
  String.ofList (bytesDigest ((j.encode summing.floatRepr).flatMap String.utf8EncodeChar))

/-- The texts of the request differ in digest when the task is escalated. -/
def separates (q : RequestCommand) (reason : String) (shape : RequestShape) : Bool :=
  let identity := listed (q.identity summing shape)
  let identity' := listed ((q.at_ .escalated).identity summing shape)
  identity ≠ identity' &&
    listed (q.comparison reason identity) ≠ listed ((q.at_ .escalated).comparison reason identity')

theorem separateDigests_of {q : RequestCommand} {reason : String} {shape : RequestShape}
    (hchecked : checkApprovalRequest summing q = .ok (reason, shape))
    (h : separates q reason shape = true) : SeparateDigests summing q .escalated := by
  simp only [separates, Bool.and_eq_true, decide_eq_true_eq, ne_eq] at h
  constructor
  · intro reason' shape' hchecked' heq
    rw [hchecked, Except.ok.injEq, Prod.mk.injEq] at hchecked'
    obtain ⟨-, rfl⟩ := hchecked'
    rw [summing_fingerprint, summing_fingerprint] at heq
    exact absurd heq h.1
  · intro reason' shape' hchecked' heq
    rw [hchecked, Except.ok.injEq, Prod.mk.injEq] at hchecked'
    obtain ⟨rfl, rfl⟩ := hchecked'
    rw [RequestCommand.text, RequestCommand.text, summing_fingerprint (q.identity summing shape),
      summing_fingerprint ((q.at_ .escalated).identity summing shape), summing_fingerprint,
      summing_fingerprint] at heq
    exact absurd heq h.2

/-- The first call of an outcome. -/
theorem firstCall_of {rt : Runtime} {q : RequestCommand} {answer : ApprovalRequestResult}
    {db₁ : Database} {checked : (String × RequestShape) × Option TaskState}
    (h : outcome rt = some ((q, answer, db₁), checked)) :
    FirstCall service rt (store rt) db₁ call job task outage q ∧
      checkApprovalRequest rt q = .ok checked.1 ∧
      (db₁.tasks.get? task.id).map Task.state = checked.2 := by
  simp only [outcome, Option.bind_eq_bind, Option.bind_eq_some_iff, Option.pure_def,
    Option.some.injEq, Prod.mk.injEq] at h
  obtain ⟨q', hq, checked', hchecked, ⟨answer', db'⟩, hrequest, ⟨rfl, rfl, rfl⟩, rfl⟩ := h
  have hfirst : FirstCall service rt (store rt) db' call job task outage q' :=
    ⟨rfl, rfl, rfl, rfl, rfl, rfl, rfl, Except.ok_of_toOption hq, rfl, answer',
      Except.ok_of_toOption hrequest⟩
  exact ⟨hfirst, Except.ok_of_toOption hchecked, rfl⟩

/-- Nothing else happened since the first call. -/
theorem awaiting_of {rt : Runtime} {q : RequestCommand} {db₁ : Database}
    (h : FirstCall service rt (store rt) db₁ call job task outage q) : Awaiting db₁ db₁ job q := by
  obtain ⟨answer, hcommitted⟩ := h.committed
  have hopened := opened_of_request h.outages.1 h.fresh hcommitted
  refine ⟨⟨job, ?_, rfl, rfl⟩, rfl, fun row hrow => ⟨row, hrow, rfl, rfl, rfl⟩,
    [], (List.append_nil _).symm⟩
  rw [hopened.jobs]
  rfl

set_option maxRecDepth 4000 in
theorem outcome_summing : (outcome summing).map (fun o => o.2.2) = some (some .escalated) := by
  decide +kernel

set_option maxRecDepth 4000 in
theorem separates_summing :
    ((outageRequest summing (store summing) call job task outage).toOption.bind fun q =>
      (checkApprovalRequest summing q).toOption.map fun checked =>
        separates q checked.1 checked.2) = some true := by
  decide +kernel

end EscalationExample

open EscalationExample in
/-- Once the request has been approved and the task resumed, the outage is bound. -/
theorem links_of_escalated_resumed : ∃ db₁ q,
    FirstCall service summing (store summing) db₁ call job HandoffExample.task outage q ∧
      Binds service summing { db₁ with tasks := (store summing).tasks } call outage := by
  obtain ⟨⟨⟨q, answer, db₁⟩, checked⟩, houtcome, -⟩ := Option.map_eq_some_iff.mp outcome_summing
  obtain ⟨hfirst, -, -⟩ := firstCall_of houtcome
  have hawait : Awaiting db₁ { db₁ with tasks := (store summing).tasks } job q :=
    { awaiting_of hfirst with }
  have hstate : HandoffExample.task.state = q.expectedState := hfirst.outages.2.2.2.symm
  have hdigests : SeparateDigests summing q HandoffExample.task.state := by
    rw [hstate]
    exact ⟨fun _ _ _ _ => rfl, fun _ _ _ _ => rfl⟩
  have hbinds : Binds service summing { db₁ with tasks := (store summing).tasks } call outage ↔
      HandoffExample.task.state = HandoffExample.task.state :=
    (links_of_escalated hfirst hawait rfl hdigests rfl).1
  exact ⟨db₁, q, hfirst, hbinds.mpr rfl⟩

open EscalationExample in
/-- While the request is pending the task is escalated, and a call does not bind the outage. -/
theorem not_binds_escalated : ∃ db₁ q,
    FirstCall service summing (store summing) db₁ call job HandoffExample.task outage q ∧
      Awaiting db₁ db₁ job q ∧ ¬ Binds service summing db₁ call outage := by
  obtain ⟨⟨⟨q, answer, db₁⟩, ⟨reason, shape⟩, state⟩, houtcome, hsnd⟩ :=
    Option.map_eq_some_iff.mp outcome_summing
  obtain ⟨hfirst, hchecked, hstate⟩ := firstCall_of houtcome
  obtain rfl : state = some .escalated := hsnd
  have hseparates := separates_summing
  rw [hfirst.request_eq, Except.toOption, Option.bind_some, hchecked, Except.toOption,
    Option.map_some, Option.some.injEq] at hseparates
  obtain ⟨task', htask, hescalated⟩ := Option.map_eq_some_iff.mp hstate
  obtain ⟨answer', hcommitted⟩ := hfirst.committed
  have hopened := opened_of_request hfirst.outages.1 hfirst.fresh hcommitted
  have hawait := awaiting_of hfirst
  have hdigests : SeparateDigests summing q task'.state := by
    rw [hescalated]
    exact separateDigests_of hchecked hseparates
  refine ⟨db₁, q, hfirst, hawait, ?_⟩
  rintro ⟨db', hbinds, -⟩
  have hmoved : task'.state ≠ HandoffExample.task.state := by
    rw [hescalated]
    decide
  rw [escalateOutage_moved hfirst hopened hawait htask rfl hdigests hmoved] at hbinds
  cases hbinds

end ControlPlane
