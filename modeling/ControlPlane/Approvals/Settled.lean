import ControlPlane.Approvals.Runs

/-!
# Settled requests

In every run a request is decided at most once, a decision on an expired one fails its
task, nothing acts on what has changed, and a recorded decision is answered again without
a write. The answer names the task's state of the moment, not the one the decision led to.

## Main results

* `decisions_of_run`: what holds of every decision in every run.
-/
namespace ControlPlane

/-- Two calls under one key, which ask the same. -/
structure SameCall (c c' : DecisionCommand) : Prop where
  requestId : c'.requestId = c.requestId
  decisionId : c'.decisionId = c.decisionId
  decision : c'.decision = c.decision
  actorId : c'.actorId = c.actorId
  evidenceIds : c'.evidenceIds = c.evidenceIds
  expectedOwnerId : c'.expectedOwnerId = c.expectedOwnerId
  regressionReview : c'.regressionReview = c.regressionReview

/-- The answer to a decision that was recorded before. -/
def ApprovalDecisionResult.again (result : ApprovalDecisionResult) (state : TaskState) :
    ApprovalDecisionResult :=
  { result with replayed := true, taskState := state }

/-- The store answers a call with the result of a recorded decision. -/
def Answers (rt : Runtime) (db : Database) (c : DecisionCommand)
    (result : ApprovalDecisionResult) : Prop :=
  ∃ a : Asked rt db c, a.request.status ≠ .pending ∧ a.task.id = result.taskId ∧
    replayedDecision db a.task a.request c a.decision a.fingerprint =
      .ok (result.again a.task.state)

section Answers
variable {svc : ApprovalService} {rt : Runtime} {db db' db'' : Database}
  {c c' : DecisionCommand} {result : ApprovalDecisionResult}

theorem decisionTarget_of {task : Task} {request : ApprovalRequest}
    (hrequest : db.approvalRequests.get? c.requestId = some request)
    (htask : db.tasks.get? request.taskId = some task)
    (howner : c.expectedOwnerId.all (request.ownerId = ·) = true ∧
      c.expectedOwnerId.all (task.ownerId = ·) = true) :
    decisionTarget db c = .ok (task, request) := by
  simp only [decisionTarget, hrequest, Option.filter_some, howner.1, if_true, Except.orThrow,
    Except.ok_bind, htask, howner.2]
  rfl

theorem replayedDecision_of {task : Task} {request : ApprovalRequest}
    {decision : ApprovalDecision} {fingerprint : String} {transition audit : UUID}
    (hid : request.decisionId = some c.decisionId)
    (hfingerprint : request.decisionFingerprint = some fingerprint)
    (hdecision : request.decision = some decision)
    (htransition : transitionEventId db c.decisionId = .ok transition)
    (haudit : approvalAuditEventId db task.id request.id (decisionEventType decision) = .ok audit) :
    replayedDecision db task request c decision fingerprint = .ok
      { taskId := task.id, requestId := request.id, decisionId := c.decisionId, decision
        status := request.status, taskState := task.state, transitionEventId := transition
        auditEventId := audit, replayed := true } := by
  rw [replayedDecision, Except.require_of ⟨hid, hfingerprint, hdecision⟩, htransition, haudit]
  rfl

/-- What the store answers is answered to the call. -/
theorem Answers.decide (h : Answers rt db c result) (svc : ApprovalService) :
    ∃ task, db.tasks.get? result.taskId = some task ∧
      svc.decide rt db c = .ok (result.again task.state, db) := by
  obtain ⟨a, hdecided, htask, hreplayed⟩ := h
  refine ⟨a.task, ?_, decide_of_replayed a hdecided hreplayed⟩
  rw [← htask, a.task_id, a.task_eq]

/-- The store goes on answering, to every call under the same key. -/
theorem Answers.later (h : Answers rt db c result) (hlater : Later db db')
    (hsame : SameCall c c') : Answers rt db' c' result := by
  obtain ⟨a, hdecided, htask, hreplayed⟩ := h
  obtain ⟨task, htask', howner⟩ := hlater.tasks _ _ a.task_eq
  have hid : task.id = a.task.id := (Table.key_of_get? htask').trans a.task_id.symm
  have hrequest := hlater.decided _ _ a.request_eq hdecided
  have hdecision : effectiveDecision a.request c' = a.decision := by
    simp only [effectiveDecision, Asked.decision, hdecided, false_and, or_false, hsame.decision]
  have hfingerprint : decisionFingerprint rt c' a.decision a.actor = a.fingerprint := by
    simp only [Asked.fingerprint, decisionFingerprint, hsame.evidenceIds, hsame.decisionId,
      hsame.requestId, hsame.regressionReview]
  refine ⟨⟨a.actor, task, a.request, a.stored, hsame.actorId ▸ a.actor_eq,
    hsame.evidenceIds ▸ a.evidence_valid, ?_, a.stored_eq, hsame.evidenceIds ▸ a.combined_valid⟩,
    hdecided, hid.trans htask, ?_⟩
  · refine decisionTarget_of (hsame.requestId ▸ hrequest) htask' ?_
    rw [hsame.expectedOwnerId, howner]
    exact a.owner
  · obtain ⟨hid', hprint, hrecorded, transition, audit, htransition, haudit, hresult⟩ :=
      replayedDecision_ok hreplayed
    obtain ⟨new, hnew⟩ := hlater.events
    have htransition := transitionEventId_append hnew htransition
    have haudit := approvalAuditEventId_append hnew haudit
    simp only [Asked.decision, Asked.fingerprint]
    rw [hdecision, hfingerprint, replayedDecision_of (hsame.decisionId ▸ hid') hprint hrecorded
      (hsame.decisionId ▸ htransition) (hid ▸ haudit)]
    simp only [ApprovalDecisionResult.again, ApprovalDecisionResult.mk.injEq] at hresult
    obtain ⟨h₁, h₂, h₃, h₄, h₅, -, h₇, h₈, -⟩ := hresult
    simp only [ApprovalDecisionResult.again, h₁, h₂, h₃, h₄, h₅, h₇, h₈, hid, hsame.decisionId]

/-- Once a decision is recorded the store answers with it. -/
theorem RecordedDecision.answers {a : Asked rt db c} (r : RecordedDecision svc rt db db' c result a)
    (hsound : SoundHistory db) (hpending : a.request.status = .pending) :
    Answers rt db' c result := by
  have hstatus := r.checked_ok.1
  have htask : db'.tasks.get? a.request.taskId = some r.task := by
    rw [r.tasks_eq, ← a.task_id, r.task_eq]
  have hid : r.task.id = a.task.id := Table.key_of_get? r.task_eq
  have howner : r.task.ownerId = a.task.ownerId := by
    obtain ⟨task, hmoved, howner⟩ := r.evolves_moved.later.tasks _ _ a.task_eq
    rw [← a.task_id, r.task_eq] at hmoved
    rw [Option.some.inj hmoved, howner]
  have hdecision : effectiveDecision (a.row r.checked.status) c = a.decision := by
    by_cases hexpire : a.decision = .expire
    · have hrecorded : (a.row r.checked.status).decision = some .expire := congrArg some hexpire
      rw [effectiveDecision, if_pos (.inl hrecorded), hexpire]
    · have hrecorded : (a.row r.checked.status).decision ≠ some .expire :=
        fun h => hexpire (Option.some.inj h)
      have hdone : (a.row r.checked.status).status ≠ .pending := hstatus
      rw [effectiveDecision, if_neg (by simp only [hrecorded, hdone, false_and, or_self,
        not_false_eq_true])]
      unfold Asked.decision effectiveDecision at hexpire ⊢
      split
      · rename_i h
        rw [if_pos h] at hexpire
        exact absurd rfl hexpire
      · rfl
  have hstored : storedEvidenceIds rt (a.row r.checked.status) = .ok a.stored := a.stored_eq
  refine ⟨⟨a.actor, r.task, a.row r.checked.status, a.stored, a.actor_eq, a.evidence_valid,
    decisionTarget_of r.request_after htask ⟨a.owner.1, howner ▸ a.owner.2⟩, hstored,
    a.combined_valid⟩, hstatus,
    (congrArg ApprovalDecisionResult.taskId r.result_eq).symm, ?_⟩
  have htransition : transitionEventId db' c.decisionId = .ok r.transition.eventId :=
    transitionEventId_append r.rows_eq (transitionEventId_transition r.transition_eq)
  have haudit : approvalAuditEventId db' r.task.id (a.row r.checked.status).id
      (decisionEventType a.decision) = .ok r.event.id := by
    have hrequestId : (a.row r.checked.status).id = c.requestId := a.request_id
    -- No earlier event names the request, which was pending.
    have hnone : (r.moved.taskEvents.rows.filter fun e => e.taskId = r.task.id).find?
        (·.decides (decisionEventType a.decision) c.requestId) = none := by
      rw [List.find?_eq_none]
      intro e he
      have hsettles := (r.evolves_moved.sound hsound).undecided c.requestId a.request
        (r.moved_requests ▸ a.request_eq) hpending e (List.mem_filter.mp he).1
      rw [TaskEvent.settles, Bool.or_eq_false_iff] at hsettles
      rw [Bool.not_eq_true]
      unfold decisionEventType
      split
      · exact hsettles.2
      · exact hsettles.1
    simp only [approvalAuditEventId, taskEventsOf, Table.select, Except.orThrow_eq_ok,
      Option.map_eq_some_iff]
    refine ⟨r.event, ?_, rfl⟩
    rw [r.rows_eq, hrequestId, List.filter_append, List.find?_append, hnone, Option.none_or]
    simp [r.event_taskId, hid, r.event_decides]
  simp only [Asked.decision, Asked.fingerprint]
  rw [hdecision]
  refine (replayedDecision_of rfl rfl rfl htransition haudit).trans ?_
  exact congrArg (fun answer => Except.ok (answer.again r.task.state)) r.result_eq.symm

theorem answers_of_decide (hsound : SoundHistory db) (h : svc.decide rt db c = .ok (result, db')) :
    Answers rt db' c result := by
  obtain ⟨a, ⟨hpending, hrecord⟩ | ⟨hdecided, rfl, hreplayed⟩⟩ := decide_ok h
  · obtain ⟨r⟩ := recordDecision_ok hrecord
    exact r.answers hsound hpending
  · obtain ⟨-, -, -, transition, audit, -, -, hresult⟩ := replayedDecision_ok hreplayed
    refine ⟨a, hdecided, by rw [hresult], ?_⟩
    rw [hreplayed, hresult]
    rfl

end Answers

/-! ### Every decision in every run -/

section Runs
variable {svc : ApprovalService} {rt : Runtime} {db db' : Database} {c : DecisionCommand}
  {result : ApprovalDecisionResult} {request : ApprovalRequest}

/-- A request is expired and its task failed. -/
structure Expired (db : Database) (c : DecisionCommand) (result : ApprovalDecisionResult) :
    Prop where
  request : ∃ request, db.approvalRequests.get? c.requestId = some request ∧
    request.status = .expired ∧ request.decision = some .expire
  task : ∃ task, db.tasks.get? result.taskId = some task ∧ task.state = .failed
  result : result.decision = .expire ∧ result.status = .expired ∧ result.taskState = .failed

/-- A decision at or after the expiry of a pending request expires it. -/
theorem expired_of_decide (hsound : SoundHistory db)
    (hrequest : db.approvalRequests.get? c.requestId = some request)
    (hpending : request.status = .pending) (hdue : request.expiresAt.any (· ≤ c.now) = true)
    (h : svc.decide rt db c = .ok (result, db')) : Expired db' c result := by
  obtain ⟨a, ⟨-, hrecord⟩ | ⟨hdecided, -, -⟩⟩ := decide_ok h
  · obtain rfl : a.request = request := Option.some.inj (a.request_eq.symm.trans hrequest)
    obtain ⟨r⟩ := recordDecision_ok hrecord
    have hexpire : a.decision = .expire := if_pos (.inr ⟨hpending, hdue⟩)
    obtain ⟨hstatus, hkind⟩ := r.checked_ok.2 hexpire
    obtain ⟨task, htask, hfailed⟩ := failed_of_transition hsound r.transition_eq hkind
    obtain rfl : r.task = task := Option.some.inj (r.task_eq.symm.trans htask)
    have hresult := r.result_eq
    refine ⟨⟨a.row r.checked.status, r.request_after, hstatus, congrArg some hexpire⟩,
      ⟨r.task, ?_, hfailed⟩, ?_⟩
    · rw [r.tasks_eq, congrArg ApprovalDecisionResult.taskId hresult]
      exact (congrArg _ (Table.key_of_get? r.task_eq)).trans r.task_eq
    · exact ⟨(congrArg ApprovalDecisionResult.decision hresult).trans hexpire,
        (congrArg ApprovalDecisionResult.status hresult).trans hstatus,
        (congrArg ApprovalDecisionResult.taskState hresult).trans hfailed⟩
  · obtain rfl : a.request = request := Option.some.inj (a.request_eq.symm.trans hrequest)
    exact absurd hpending hdecided

/-- A decision that acts finds the preconditions of the request as they were captured, or
leaves the store as it is. -/
theorem preconditions_of_decide
    (hrequest : db.approvalRequests.get? c.requestId = some request)
    (hpending : request.status = .pending)
    (hacts : (effectiveDecision request c).preconditioned = true) :
    svc.after rt db c = db ∨ ∃ task shape evidenceIds subject reason expiresAt,
      db.tasks.get? request.taskId = some task ∧
        PreconditionsCurrent rt db task request shape evidenceIds subject reason expiresAt := by
  cases h : svc.decide rt db c with
  | error _ =>
    left
    rw [ApprovalService.after, h]
  | ok outcome =>
    right
    obtain ⟨a, ⟨-, hrecord⟩ | ⟨hdecided, -, -⟩⟩ := decide_ok h
    · obtain rfl : a.request = request := Option.some.inj (a.request_eq.symm.trans hrequest)
      obtain ⟨r⟩ := recordDecision_ok hrecord
      have hchecked := r.preconditions_eq
      rw [ApprovalService.checkPreconditions, Asked.decision, if_pos hacts] at hchecked
      simp only [Except.bind_eq_ok, Except.require_eq_ok, Bool.and_eq_true] at hchecked
      obtain ⟨current, hcurrent, rfl, -⟩ := hchecked
      obtain ⟨shape, evidenceIds, subject, reason, expiresAt, hpreconditions⟩ :=
        durablePreconditionsAreCurrent_eq_true hcurrent
      exact ⟨a.task, shape, evidenceIds, subject, reason, expiresAt, a.task_eq, hpreconditions⟩
    · obtain rfl : a.request = request := Option.some.inj (a.request_eq.symm.trans hrequest)
      exact absurd hpending hdecided

end Runs

/-! ### An approval whose task moves on -/

namespace ApprovalExample
open HandoffExample (evidence policy command)

def task : Task :=
  { HandoffExample.task with
    state := .briefPendingApproval
    acceptedBriefId := some (.ofNat 40)
    briefApprovalDecisionId := some (.ofNat 41) }

def brief : Brief where
  id := .ofNat 40
  taskId := task.id
  scope := .null
  ownerId := task.ownerId

def briefDecision : BriefApprovalDecision where
  id := .ofNat 41
  taskId := task.id
  briefId := brief.id
  disposition := .humanApprovalRequired
  policyVersionId := some policy.id
  humanResponse := none

/-- The request for the brief, with the digests of the plain runtime. -/
def request : ApprovalRequest where
  id := .ofNat 42
  taskId := task.id
  requestType := "BRIEF"
  subjectType := some "BRIEF"
  subjectId := some brief.id
  reason := "BRIEF_APPROVAL_REQUIRED"
  options := ["APPROVE", "REQUEST_REVISION", "CANCEL"]
  supportingEvidenceIds := [evidence.evidenceId.str]
  requestingState := .briefing
  expiresAt := some 100
  requestFingerprint := Runtime.plain.sha256 ""
  preconditionFingerprint := Runtime.plain.sha256 ""
  ownerId := task.ownerId

def store : Database where
  tasks := ⟨[task], List.nodup_singleton _⟩
  policyVersions := ⟨[policy], List.nodup_singleton _⟩
  evidenceRecords := ⟨[evidence.record .plain], List.nodup_singleton _⟩
  briefs := ⟨[brief], List.nodup_singleton _⟩
  briefApprovalDecisions := ⟨[briefDecision], List.nodup_singleton _⟩
  approvalRequests := ⟨[request], List.nodup_singleton _⟩

def service : ApprovalService := {}

def approval : DecisionCommand where
  requestId := request.id
  decisionId := .ofNat 43
  decision := .approve
  actorId := "owner"
  now := 10
  transitionEventId := .ofNat 44
  eventId := .ofNat 45
  ruleId := .ofNat 46
  policyVersionId := .ofNat 47

/-- The state the approval led to, and the one its replay answers with once validation has
begun. -/
def outcome : Option (TaskState × TaskState) := do
  let (result, approved) ← (service.decide .plain store approval).toOption
  let (_, moved) ← (transitionTask .plain approved
    (command 3 .implementing .beginValidation)).toOption
  let (again, _) ← (service.decide .plain moved approval).toOption
  return (result.taskState, again.taskState)

set_option maxRecDepth 4000 in
theorem outcome_checked : outcome = some (.implementing, .validating) := by
  decide +kernel

theorem reachable_store : (approvalSystem service .plain).Reachable store := .of_init rfl

theorem sameCall (c : DecisionCommand) : SameCall c c := ⟨rfl, rfl, rfl, rfl, rfl, rfl, rfl⟩

theorem exists_outcome : ∃ result approved moved again,
    service.decide .plain store approval = .ok (result, approved) ∧
    Evolves approved moved ∧ service.decide .plain moved approval = .ok again ∧
    result.taskState ≠ again.1.taskState := by
  have houtcome := outcome_checked
  simp only [outcome, Option.bind_eq_bind, Option.bind_eq_some_iff, Option.pure_def,
    Option.some.injEq, Prod.mk.injEq] at houtcome
  obtain ⟨⟨result, approved⟩, happroved, ⟨_, moved⟩, hmoved, again, hagain, hfirst, hsecond⟩ :=
    houtcome
  refine ⟨result, approved, moved, again, Except.ok_of_toOption happroved,
    evolves_transition (Except.ok_of_toOption hmoved), Except.ok_of_toOption hagain, ?_⟩
  rw [hfirst, hsecond]
  decide

end ApprovalExample

end ControlPlane
