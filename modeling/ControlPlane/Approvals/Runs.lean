import ControlPlane.Approvals.Decision
import ControlPlane.Task.Lifecycle

/-!
# Runs of decisions

A call is taken apart into what it reads, checks and writes. Whatever the actors decide and
whenever, and whatever the other services do meanwhile, decided requests stay as they are
and the history only grows.

## Main results

* `evolves_decide`, `expireDue_keeps`: what a call keeps, and that a sweep keeps the same.
* `ApprovalRun.evolves`: what every run keeps.
-/
namespace ControlPlane

/-! ### What every step keeps -/

/-- An event records a decision about the request. -/
def TaskEvent.settles (e : TaskEvent) (requestId : UUID) : Bool :=
  e.decides "APPROVAL_DECIDED" requestId || e.decides "APPROVAL_EXPIRED" requestId

/-- A later store: decided requests stay, the history grows and says nothing more about
them, tasks stay with their owners. -/
structure Later (db db' : Database) : Prop where
  decided : ∀ id request, db.approvalRequests.get? id = some request →
    request.status ≠ .pending → db'.approvalRequests.get? id = some request
  events : ∃ new, db'.taskEvents.rows = db.taskEvents.rows ++ new
  tasks : ∀ id task, db.tasks.get? id = some task →
    ∃ task', db'.tasks.get? id = some task' ∧ task'.ownerId = task.ownerId

/-- A sound history: it decides no pending request, and a task that failed is failed. -/
structure SoundHistory (db : Database) : Prop where
  undecided : ∀ id request, db.approvalRequests.get? id = some request →
    request.status = .pending → ∀ e ∈ db.taskEvents.rows, e.settles id = false
  failed : ∀ e ∈ db.taskEvents.rows, e.transitionKind = some .fail →
    ∀ task, db.tasks.get? e.taskId = some task → task.state = .failed

/-- What a step may do to the store. -/
structure Evolves (db db' : Database) : Prop where
  later : Later db db'
  sound : SoundHistory db → SoundHistory db'

section Evolves
variable {db db' db'' : Database}

theorem Later.refl (db : Database) : Later db db where
  decided _ _ h _ := h
  events := ⟨[], (List.append_nil _).symm⟩
  tasks _ task h := ⟨task, h, rfl⟩

theorem Later.trans (h : Later db db') (h' : Later db' db'') : Later db db'' where
  decided id request hrequest hstatus :=
    h'.decided id request (h.decided id request hrequest hstatus) hstatus
  events := by
    obtain ⟨new, hnew⟩ := h.events
    obtain ⟨newer, hnewer⟩ := h'.events
    exact ⟨new ++ newer, by rw [hnewer, hnew, List.append_assoc]⟩
  tasks id task htask := by
    obtain ⟨task', htask', howner⟩ := h.tasks id task htask
    obtain ⟨task'', htask'', howner'⟩ := h'.tasks id task' htask'
    exact ⟨task'', htask'', howner'.trans howner⟩

theorem Evolves.refl (db : Database) : Evolves db db := ⟨.refl db, id⟩

theorem Evolves.trans (h : Evolves db db') (h' : Evolves db' db'') : Evolves db db'' :=
  ⟨h.later.trans h'.later, fun hsound => h'.sound (h.sound hsound)⟩

/-- What is found in a history is found in every longer one. -/
theorem transitionEventId_append {new : List TaskEvent} {id eventId : UUID}
    (hrows : db'.taskEvents.rows = db.taskEvents.rows ++ new)
    (h : transitionEventId db id = .ok eventId) : transitionEventId db' id = .ok eventId := by
  simp only [transitionEventId, eventOfTransition, Except.orThrow_eq_ok,
    Option.map_eq_some_iff] at h ⊢
  obtain ⟨e, he, hid⟩ := h
  exact ⟨e, by rw [hrows, List.find?_append, he, Option.some_or], hid⟩

theorem approvalAuditEventId_append {new : List TaskEvent} {taskId requestId eventId : UUID}
    {type : String} (hrows : db'.taskEvents.rows = db.taskEvents.rows ++ new)
    (h : approvalAuditEventId db taskId requestId type = .ok eventId) :
    approvalAuditEventId db' taskId requestId type = .ok eventId := by
  simp only [approvalAuditEventId, taskEventsOf, Table.select, Except.orThrow_eq_ok,
    Option.map_eq_some_iff] at h ⊢
  obtain ⟨e, he, hid⟩ := h
  exact ⟨e, by rw [hrows, List.filter_append, List.find?_append, he, Option.some_or], hid⟩

end Evolves

/-! ### Transitions -/

section Transition
variable {rt : Runtime} {db db' : Database} {c : TaskTransitionCommand}

theorem Acceptance.tasks_after (a : Acceptance rt db c) (id : UUID) :
    a.after.tasks.get? id =
      if a.task.id = id then some (a.task.apply a.plan a.event.id) else db.tasks.get? id := by
  have hid : (a.task.apply a.plan a.event.id).id = a.task.id := by
    unfold Task.apply
    split <;> rfl
  have hget : a.after.tasks.get? id = (db.tasks.set (a.task.apply a.plan a.event.id)).get? id := rfl
  rw [hget, Table.get?_set]
  change (if (a.task.apply a.plan a.event.id).id = id then _ else _) = _
  rw [hid]
  by_cases h : a.task.id = id
  · rw [if_pos h, if_pos h, ← h, a.task_id, a.task_eq]
    rfl
  · rw [if_neg h, if_neg h]

theorem Task.apply_ownerId (task : Task) (plan : TaskTransitionPlan) (eventId : UUID) :
    (task.apply plan eventId).ownerId = task.ownerId := by
  unfold Task.apply
  split <;> rfl

theorem Task.apply_state (task : Task) (plan : TaskTransitionPlan) (eventId : UUID) :
    (task.apply plan eventId).state = plan.toState := by
  unfold Task.apply
  split <;> rfl

theorem Edge.failed {s : TaskTransitionSnapshot} {plan : TaskTransitionPlan} (h : Edge s plan)
    (hkind : plan.kind = .fail) : plan.toState = .failed := by
  cases h <;> first | rfl | cases hkind

theorem Acceptance.evolves (a : Acceptance rt db c) : Evolves db a.after where
  later :=
    { decided := fun _ _ h _ => h
      events := ⟨[a.event], a.rows_after⟩
      tasks := by
        intro id task htask
        rw [a.tasks_after]
        by_cases h : a.task.id = id
        · rw [if_pos h]
          obtain rfl : a.task = task := by
            rw [← h, a.task_id, a.task_eq] at htask
            exact Option.some.inj htask
          exact ⟨_, rfl, Task.apply_ownerId ..⟩
        · rw [if_neg h]
          exact ⟨task, htask, rfl⟩ }
  sound hsound :=
    { undecided := by
        intro id request hrequest hpending e he
        rw [a.rows_after, List.mem_append, List.mem_singleton] at he
        obtain he | rfl := he
        · exact hsound.undecided id request hrequest hpending e he
        · simp [TaskEvent.settles, TaskEvent.decides, Acceptance.event, transitionEvent,
            taskTransitionEventType]
      failed := by
        obtain ⟨hlive, hedge⟩ := edge_of_evaluate a.plan_eq
        intro e he hkind task htask
        rw [a.rows_after, List.mem_append, List.mem_singleton] at he
        rw [a.tasks_after] at htask
        by_cases h : a.task.id = e.taskId
        · rw [if_pos h, Option.some.injEq] at htask
          obtain he | rfl := he
          · -- A task that failed is terminal and makes no further transition.
            have hfailed := hsound.failed e he hkind a.task (by rw [← h, a.task_id, a.task_eq])
            rw [hfailed] at hlive
            cases hlive
          · rw [← htask, Task.apply_state]
            exact hedge.failed (Option.some.inj hkind)
        · rw [if_neg h] at htask
          obtain he | rfl := he
          · exact hsound.failed e he hkind task htask
          · exact absurd rfl h }

theorem evolves_transition {result : TaskTransitionResult}
    (h : transitionTask rt db c = .ok (result, db')) : Evolves db db' := by
  obtain rfl | ⟨a, rfl⟩ := transitionTask_ok h
  · exact .refl _
  · exact a.evolves

/-- The event of a transition is found under its identifier. -/
theorem transitionEventId_transition {result : TaskTransitionResult}
    (h : transitionTask rt db c = .ok (result, db')) :
    transitionEventId db' c.transitionId = .ok result.eventId := by
  simp only [transitionEventId, Except.orThrow_eq_ok, Option.map_eq_some_iff]
  simp only [transitionTask, Except.bind_eq_ok, Except.orThrow_eq_ok] at h
  obtain ⟨⟨actor, reason⟩, -, task, -, h⟩ := h
  cases hfresh : eventOfTransition db c.transitionId with
  | some existing =>
    simp only [hfresh, replayedTransition, Except.bind_eq_ok, Except.pure_eq_ok,
      Prod.mk.injEq] at h
    obtain ⟨_, ⟨_, -, _, -, _, -, hresult⟩, rfl, rfl⟩ := h
    exact ⟨existing, hfresh, by rw [← hresult]⟩
  | none =>
    simp only [hfresh, applyTransition, Except.bind_eq_ok, Except.orThrow_eq_ok,
      Except.pure_eq_ok, Prod.mk.injEq] at h
    obtain ⟨_, -, policy, -, evidence, -, head, -, guards, -, plan, -, taskEvents, hevents,
      rfl, rfl⟩ := h
    have hrows := (Table.insert?_eq_some.mp hevents).2
    refine ⟨_, ?_, rfl⟩
    rw [eventOfTransition, hrows, List.find?_append]
    rw [eventOfTransition] at hfresh
    rw [hfresh, Option.none_or]
    simp [transitionEvent]

/-- A transition that fails a task leaves it failed, also when it is replayed. -/
theorem failed_of_transition (hsound : SoundHistory db) {result : TaskTransitionResult}
    (h : transitionTask rt db c = .ok (result, db')) (hkind : c.kind = .fail) :
    ∃ task, db'.tasks.get? c.taskId = some task ∧ task.state = .failed := by
  have h' := h
  simp only [transitionTask, Except.bind_eq_ok, Except.orThrow_eq_ok] at h
  obtain ⟨⟨actor, reason⟩, -, task, htask, h⟩ := h
  cases hfresh : eventOfTransition db c.transitionId with
  | some existing =>
    simp only [hfresh, replayedTransition, Except.bind_eq_ok, Except.require_eq_ok,
      Except.pure_eq_ok, Prod.mk.injEq] at h
    obtain ⟨_, ⟨_, ⟨htaskId, hexisting, -⟩, -⟩, -, rfl⟩ := h
    refine ⟨task, htask, ?_⟩
    exact hsound.failed existing (List.mem_of_find?_eq_some hfresh) (hkind ▸ hexisting) task
      (htaskId ▸ htask)
  | none =>
    obtain rfl | ⟨a, rfl⟩ := transitionTask_ok h'
    · have hself := transitionEventId_transition h'
      simp [transitionEventId, hfresh, Except.orThrow] at hself
    · refine ⟨_, by rw [a.tasks_after, if_pos a.task_id], ?_⟩
      rw [Task.apply_state]
      have hplan := a.plan_eq
      rw [hkind] at hplan
      simp only [evaluateTaskTransition] at hplan
      split at hplan
      · cases hplan
      · rw [Except.ok.injEq] at hplan
        rw [← hplan]

end Transition

/-! ### What a call did -/

/-- What a call reads before it looks at the status of the request. -/
structure Asked (rt : Runtime) (db : Database) (c : DecisionCommand) where
  actor : String
  task : Task
  request : ApprovalRequest
  stored : List UUID
  actor_eq : requiredApprovalIdentifier rt c.actorId "approval actor" = .ok actor
  evidence_valid : c.evidenceIds.length ≤ 100 ∧ c.evidenceIds.Nodup
  target_eq : decisionTarget db c = .ok (task, request)
  stored_eq : storedEvidenceIds rt request = .ok stored
  combined_valid : (stored ++ c.evidenceIds).eraseDups.length ≤ 100

namespace Asked
variable {rt : Runtime} {db : Database} {c : DecisionCommand}

/-- The decision that counts. -/
def decision (a : Asked rt db c) : ApprovalDecision := effectiveDecision a.request c

def fingerprint (a : Asked rt db c) : String := decisionFingerprint rt c a.decision a.actor

/-- The request as it is decided. -/
def row (a : Asked rt db c) (status : ApprovalStatus) : ApprovalRequest :=
  a.request.decided c status a.decision a.fingerprint a.actor

theorem request_eq (a : Asked rt db c) : db.approvalRequests.get? c.requestId = some a.request := by
  have htarget := a.target_eq
  simp only [decisionTarget, Except.bind_eq_ok, Except.orThrow_eq_ok, Except.pure_eq_ok,
    Option.filter_eq_some_iff, Prod.mk.injEq] at htarget
  obtain ⟨request, ⟨hrequest, -⟩, task, -, -, hrequest'⟩ := htarget
  rw [hrequest, hrequest']

theorem request_id (a : Asked rt db c) : a.request.id = c.requestId :=
  Table.key_of_get? a.request_eq

theorem task_eq (a : Asked rt db c) : db.tasks.get? a.request.taskId = some a.task := by
  have htarget := a.target_eq
  simp only [decisionTarget, Except.bind_eq_ok, Except.orThrow_eq_ok, Except.pure_eq_ok,
    Option.filter_eq_some_iff, Prod.mk.injEq] at htarget
  obtain ⟨request, -, task, ⟨htask, -⟩, rfl, rfl⟩ := htarget
  exact htask

theorem task_id (a : Asked rt db c) : a.task.id = a.request.taskId := Table.key_of_get? a.task_eq

/-- The owner of the request and of the task is the expected one. -/
theorem owner (a : Asked rt db c) : c.expectedOwnerId.all (a.request.ownerId = ·) = true ∧
    c.expectedOwnerId.all (a.task.ownerId = ·) = true := by
  have htarget := a.target_eq
  simp only [decisionTarget, Except.bind_eq_ok, Except.orThrow_eq_ok, Except.pure_eq_ok,
    Option.filter_eq_some_iff, Prod.mk.injEq] at htarget
  obtain ⟨request, ⟨-, hrequest⟩, task, ⟨-, htask⟩, rfl, rfl⟩ := htarget
  exact ⟨hrequest, htask⟩

end Asked

section Decide
variable {svc : ApprovalService} {rt : Runtime} {db db' : Database} {c : DecisionCommand}
  {result : ApprovalDecisionResult}

/-- An accepted call records a decision on a pending request or replays a recorded one. -/
theorem decide_ok (h : svc.decide rt db c = .ok (result, db')) : ∃ a : Asked rt db c,
    (a.request.status = .pending ∧
      svc.recordDecision rt db a.task a.request c a.decision a.actor a.fingerprint
        (a.stored ++ c.evidenceIds).eraseDups = .ok (result, db')) ∨
    (a.request.status ≠ .pending ∧ db' = db ∧
      replayedDecision db a.task a.request c a.decision a.fingerprint = .ok result) := by
  simp only [ApprovalService.decide, Except.bind_eq_ok, Except.require_eq_ok] at h
  obtain ⟨actor, hactor, _, hevidence, ⟨task, request⟩, htarget, stored, hstored, _, hcombined,
    h⟩ := h
  refine ⟨⟨actor, task, request, stored, hactor, hevidence, htarget, hstored, hcombined⟩, ?_⟩
  split at h
  · rename_i hpending
    exact .inl ⟨hpending, h⟩
  · rename_i hdecided
    simp only [Except.bind_eq_ok, Except.pure_eq_ok, Prod.mk.injEq] at h
    obtain ⟨_, hreplayed, rfl, rfl⟩ := h
    exact .inr ⟨hdecided, rfl, hreplayed⟩

theorem decide_of_replayed (a : Asked rt db c) (hdecided : a.request.status ≠ .pending)
    (h : replayedDecision db a.task a.request c a.decision a.fingerprint = .ok result) :
    svc.decide rt db c = .ok (result, db) := by
  simp only [ApprovalService.decide, a.actor_eq, a.target_eq, a.stored_eq, Except.ok_bind,
    Except.require_of a.evidence_valid, Except.require_of a.combined_valid, if_neg hdecided]
  change replayedDecision db a.task a.request c a.decision a.fingerprint >>= _ = _
  rw [h]
  rfl

/-- A recorded decision: what was checked, the transition, the task after it, the store
with the decided request and its subject, and the event. -/
structure RecordedDecision (svc : ApprovalService) (rt : Runtime) (db db' : Database)
    (c : DecisionCommand) (result : ApprovalDecisionResult) (a : Asked rt db c) where
  checked : CheckedDecision
  transition : TaskTransitionResult
  moved : Database
  task : Task
  projected : Database
  event : TaskEvent
  checked_eq : checkDecision db a.task a.request c a.decision a.actor = .ok checked
  preconditions_eq :
    svc.checkPreconditions rt db a.task a.request a.decision c.now = .ok ()
  transition_eq : transitionTask rt db (svc.transition a.task checked c a.decision a.actor
    (a.stored ++ c.evidenceIds).eraseDups) = .ok (transition, moved)
  task_eq : moved.tasks.get? a.task.id = some task
  projected_eq : projectSubjectDecision svc rt (moved.putRequest (a.row checked.status)) task
    (a.row checked.status) checked.type a.decision c a.actor = .ok projected
  event_eq : appendApprovalEvent rt projected task (a.row checked.status)
    (decisionEventType a.decision) (a.stored ++ c.evidenceIds).eraseDups c.eventId c.now =
      .ok (event, db')
  result_eq : result =
    { taskId := task.id, requestId := a.request.id, decisionId := c.decisionId
      decision := a.decision, status := checked.status, taskState := task.state
      transitionEventId := transition.eventId, auditEventId := event.id }

theorem recordDecision_ok {a : Asked rt db c}
    (h : svc.recordDecision rt db a.task a.request c a.decision a.actor a.fingerprint
      (a.stored ++ c.evidenceIds).eraseDups = .ok (result, db')) :
    Nonempty (RecordedDecision svc rt db db' c result a) := by
  simp only [ApprovalService.recordDecision, Except.bind_eq_ok, Except.relabel_eq_ok,
    Except.orThrow_eq_ok, Except.pure_eq_ok, Prod.mk.injEq] at h
  obtain ⟨checked, hchecked, _, hpreconditions, ⟨transition, moved⟩, htransition, task, htask,
    projected, hprojected, ⟨event, last⟩, hevent, hresult, rfl⟩ := h
  exact ⟨⟨checked, transition, moved, task, projected, event, hchecked, hpreconditions,
    htransition, htask, hprojected, hevent, hresult.symm⟩⟩

theorem installPolicy_leaves {active policy : PolicyVersion} {rule : ReviewRule}
    {decisionId : Option UUID} {activation : UUID → PolicyActivation}
    (h : installPolicy db active policy rule decisionId activation = .ok db') :
    db'.tasks = db.tasks ∧ db'.taskEvents = db.taskEvents ∧
      db'.approvalRequests = db.approvalRequests := by
  simp only [installPolicy, Except.bind_eq_ok, Except.pure_eq_ok] at h
  obtain ⟨_, -, _, -, _, -, _, -, rfl⟩ := h
  exact ⟨rfl, rfl, rfl⟩

theorem promoteReviewRule_leaves {task : Task} {request : ApprovalRequest}
    {candidate : RuleCandidate} {actor : String}
    (h : promoteReviewRule svc rt db task request candidate c actor = .ok db') :
    db'.tasks = db.tasks ∧ db'.taskEvents = db.taskEvents ∧
      db'.approvalRequests = db.approvalRequests := by
  simp only [promoteReviewRule, Except.bind_eq_ok] at h
  obtain ⟨_, -, _, -, _, -, _, -, _, -, _, -, _, -, h⟩ := h
  exact installPolicy_leaves h

theorem projectSubjectDecision_leaves {task : Task} {request : ApprovalRequest}
    {type : ApprovalRequestType} {decision : ApprovalDecision} {actor : String}
    (h : projectSubjectDecision svc rt db task request type decision c actor = .ok db') :
    db'.tasks = db.tasks ∧ db'.taskEvents = db.taskEvents ∧
      db'.approvalRequests = db.approvalRequests := by
  unfold projectSubjectDecision at h
  split at h
  · simp only [Except.bind_eq_ok, Except.pure_eq_ok] at h
    obtain ⟨_, -, rfl⟩ := h
    exact ⟨rfl, rfl, rfl⟩
  · split at h
    · simp only [Except.bind_eq_ok] at h
      obtain ⟨_, -, h⟩ := h
      split at h
      · obtain ⟨htasks, hevents, hrequests⟩ := promoteReviewRule_leaves h
        exact ⟨htasks, hevents, hrequests⟩
      · cases h
        exact ⟨rfl, rfl, rfl⟩
    · cases h
      exact ⟨rfl, rfl, rfl⟩
  · cases h
    exact ⟨rfl, rfl, rfl⟩

theorem appendApprovalEvent_ok {task : Task} {request : ApprovalRequest} {type : String}
    {evidenceIds : List UUID} {eventId : UUID} {now : Time} {event : TaskEvent}
    (h : appendApprovalEvent rt db task request type evidenceIds eventId now = .ok (event, db')) :
    (∃ blocked, event = approvalEvent db task request blocked type eventId now) ∧
      db'.taskEvents.rows = db.taskEvents.rows ++ [event] ∧ db'.tasks = db.tasks ∧
      db'.approvalRequests = db.approvalRequests := by
  simp only [appendApprovalEvent, Except.bind_eq_ok, Except.orThrow_eq_ok, Except.pure_eq_ok,
    Prod.mk.injEq] at h
  obtain ⟨blocked, -, taskEvents, hevents, _, -, rfl, rfl⟩ := h
  exact ⟨⟨blocked, rfl⟩, (Table.insert?_eq_some.mp hevents).2, rfl, rfl⟩

theorem replayedDecision_ok {task : Task} {request : ApprovalRequest}
    {decision : ApprovalDecision} {fingerprint : String}
    (h : replayedDecision db task request c decision fingerprint = .ok result) :
    request.decisionId = some c.decisionId ∧ request.decisionFingerprint = some fingerprint ∧
      request.decision = some decision ∧
      ∃ transition audit, transitionEventId db c.decisionId = .ok transition ∧
        approvalAuditEventId db task.id request.id (decisionEventType decision) = .ok audit ∧
        result =
          { taskId := task.id, requestId := request.id, decisionId := c.decisionId, decision
            status := request.status, taskState := task.state, transitionEventId := transition
            auditEventId := audit, replayed := true } := by
  simp only [replayedDecision, Except.bind_eq_ok, Except.require_eq_ok, Except.pure_eq_ok] at h
  obtain ⟨_, ⟨hid, hfingerprint, hdecision⟩, transition, htransition, audit, haudit, hresult⟩ := h
  exact ⟨hid, hfingerprint, hdecision, transition, audit, htransition, haudit, hresult.symm⟩

theorem decisionProjection_status {type : ApprovalRequestType} {decision : ApprovalDecision}
    {decisionId : UUID} {status : ApprovalStatus} {kind : TaskTransitionKind}
    {gates : ApprovalGates}
    (h : decisionProjection type decision decisionId = .ok (status, kind, gates)) :
    status ≠ .pending := by
  cases decision <;> cases type <;> simp only [decisionProjection, Except.ok.injEq, Prod.mk.injEq,
    reduceCtorEq] at h <;> simp [← h.1]

/-- What the checks of a decision say of its status and its transition. -/
theorem checkDecision_ok {task : Task} {request : ApprovalRequest} {decision : ApprovalDecision}
    {actor : String} {checked : CheckedDecision}
    (h : checkDecision db task request c decision actor = .ok checked) :
    checked.status ≠ .pending ∧
      (decision = .expire → checked.status = .expired ∧ checked.kind = .fail) := by
  simp only [checkDecision, Except.bind_eq_ok, Except.pure_eq_ok] at h
  obtain ⟨_, -, _, -, type, -, ⟨status, kind, gates⟩, hprojection, _, -, _, -, exact, -, rfl⟩ := h
  refine ⟨decisionProjection_status hprojection, ?_⟩
  rintro rfl
  simp only [decisionProjection, Except.ok.injEq, Prod.mk.injEq] at hprojection
  exact ⟨hprojection.1.symm, hprojection.2.1.symm⟩

end Decide

/-! ### A recorded decision -/

namespace RecordedDecision
variable {svc : ApprovalService} {rt : Runtime} {db db' : Database} {c : DecisionCommand}
  {result : ApprovalDecisionResult} {a : Asked rt db c}

theorem checked_ok (r : RecordedDecision svc rt db db' c result a) : r.checked.status ≠ .pending ∧
    (a.decision = .expire → r.checked.status = .expired ∧ r.checked.kind = .fail) :=
  checkDecision_ok r.checked_eq

theorem evolves_moved (r : RecordedDecision svc rt db db' c result a) : Evolves db r.moved :=
  evolves_transition r.transition_eq

theorem tasks_eq (r : RecordedDecision svc rt db db' c result a) : db'.tasks = r.moved.tasks := by
  obtain ⟨-, -, htasks, -⟩ := appendApprovalEvent_ok r.event_eq
  rw [htasks, (projectSubjectDecision_leaves r.projected_eq).1]
  rfl

theorem rows_eq (r : RecordedDecision svc rt db db' c result a) :
    db'.taskEvents.rows = r.moved.taskEvents.rows ++ [r.event] := by
  obtain ⟨-, hrows, -, -⟩ := appendApprovalEvent_ok r.event_eq
  rw [hrows, (projectSubjectDecision_leaves r.projected_eq).2.1]
  rfl

theorem moved_requests (r : RecordedDecision svc rt db db' c result a) :
    r.moved.approvalRequests = db.approvalRequests := by
  obtain h | ⟨accepted, h⟩ := transitionTask_ok r.transition_eq
  · rw [h]
  · rw [h]
    rfl

theorem requests_eq (r : RecordedDecision svc rt db db' c result a) :
    db'.approvalRequests = db.approvalRequests.set (a.row r.checked.status) := by
  obtain ⟨-, -, -, hrequests⟩ := appendApprovalEvent_ok r.event_eq
  rw [hrequests, (projectSubjectDecision_leaves r.projected_eq).2.2, ← r.moved_requests]
  rfl

/-- The request afterwards. -/
theorem request_after (r : RecordedDecision svc rt db db' c result a) :
    db'.approvalRequests.get? c.requestId = some (a.row r.checked.status) := by
  have hid : (a.row r.checked.status).id = c.requestId := a.request_id
  rw [r.requests_eq, ← hid]
  refine Table.get?_set_self ?_
  change db.approvalRequests.get? (a.row r.checked.status).id ≠ none
  rw [hid, a.request_eq]
  exact Option.some_ne_none _

theorem other_requests (r : RecordedDecision svc rt db db' c result a) {id : UUID}
    (h : c.requestId ≠ id) : db'.approvalRequests.get? id = db.approvalRequests.get? id := by
  rw [r.requests_eq]
  refine Table.get?_set_of_ne ?_
  change (a.row r.checked.status).id ≠ id
  exact fun hid => h (a.request_id.symm.trans hid)

/-- The event names the request and no other one. -/
theorem event_decides (r : RecordedDecision svc rt db db' c result a) (type : String) (id : UUID) :
    r.event.decides type id =
      (decisionEventType a.decision = type && decide (c.requestId = id)) := by
  obtain ⟨⟨blocked, hevent⟩, -⟩ := appendApprovalEvent_ok r.event_eq
  have hid : (a.row r.checked.status).id = c.requestId := a.request_id
  have hpayload : r.event.payload.get "approval_request_id" = .str c.requestId.str := by
    rw [hevent, ← hid]
    rfl
  have htype : r.event.eventType = decisionEventType a.decision := by rw [hevent]; rfl
  rw [TaskEvent.decides, hpayload, htype]
  simp [Json.pyEq, Json.str?, Bool.beq_eq_decide_eq, UUID.str_inj, eq_comm]

theorem event_taskId (r : RecordedDecision svc rt db db' c result a) :
    r.event.taskId = a.task.id := by
  obtain ⟨⟨blocked, hevent⟩, -⟩ := appendApprovalEvent_ok r.event_eq
  rw [hevent]
  exact Table.key_of_get? r.task_eq

theorem event_kind (r : RecordedDecision svc rt db db' c result a) :
    r.event.transitionKind = none := by
  obtain ⟨⟨blocked, hevent⟩, -⟩ := appendApprovalEvent_ok r.event_eq
  rw [hevent]
  rfl

theorem evolves (r : RecordedDecision svc rt db db' c result a)
    (hpending : a.request.status = .pending) : Evolves db db' where
  later :=
    { decided := by
        intro id request hrequest hstatus
        have hne : c.requestId ≠ id := by
          rintro rfl
          rw [a.request_eq, Option.some.injEq] at hrequest
          exact hstatus (hrequest ▸ hpending)
        rw [r.other_requests hne]
        exact hrequest
      events := by
        obtain ⟨new, hnew⟩ := r.evolves_moved.later.events
        exact ⟨new ++ [r.event], by rw [r.rows_eq, hnew, List.append_assoc]⟩
      tasks := by
        rw [r.tasks_eq]
        exact r.evolves_moved.later.tasks }
  sound hsound :=
    { undecided := by
        intro id request hrequest hstatus e he
        have hne : c.requestId ≠ id := by
          rintro rfl
          rw [r.request_after, Option.some.injEq] at hrequest
          rw [← hrequest] at hstatus
          exact r.checked_ok.1 hstatus
        rw [r.other_requests hne] at hrequest
        rw [r.rows_eq, List.mem_append, List.mem_singleton] at he
        obtain he | rfl := he
        · exact (r.evolves_moved.sound hsound).undecided id request (r.moved_requests ▸ hrequest)
            hstatus e he
        · simp [TaskEvent.settles, r.event_decides, hne]
      failed := by
        rw [r.rows_eq, r.tasks_eq]
        intro e he hkind
        rw [List.mem_append, List.mem_singleton] at he
        obtain he | rfl := he
        · exact (r.evolves_moved.sound hsound).failed e he hkind
        · rw [r.event_kind] at hkind
          cases hkind }

end RecordedDecision

section Step
variable {svc : ApprovalService} {rt : Runtime} {db db' : Database} {c : DecisionCommand}
  {result : ApprovalDecisionResult}

theorem evolves_decide (h : svc.decide rt db c = .ok (result, db')) : Evolves db db' := by
  obtain ⟨a, ⟨hpending, hrecord⟩ | ⟨-, rfl, -⟩⟩ := decide_ok h
  · obtain ⟨r⟩ := recordDecision_ok hrecord
    exact r.evolves hpending
  · exact .refl _

theorem evolves_after (svc : ApprovalService) (rt : Runtime) (db : Database)
    (c : DecisionCommand) : Evolves db (svc.after rt db c) := by
  unfold ApprovalService.after
  split
  · rename_i h
    exact evolves_decide h
  · exact .refl _

/-- What every accepted call keeps, a row of a sweep keeps. -/
theorem expireRow_keeps {P : Database → Prop}
    (hdecide : ∀ db c result db', P db → svc.decide rt db c = .ok (result, db') → P db')
    (e : ExpiryCommand) {sweep : ExpirySweep} (row : UUID × Time) (h : P sweep.db) :
    P (svc.expireRow rt e sweep row).db := by
  unfold ApprovalService.expireRow
  split
  · exact h
  · split
    · rename_i haccepted
      exact hdecide _ _ _ _ h haccepted
    · exact h
    · exact h

theorem expireRows_keep {P : Database → Prop}
    (hdecide : ∀ db c result db', P db → svc.decide rt db c = .ok (result, db') → P db')
    (e : ExpiryCommand) (page : List (UUID × Time)) {sweep : ExpirySweep} (h : P sweep.db) :
    P (page.foldl (svc.expireRow rt e) sweep).db := by
  induction page generalizing sweep with
  | nil => exact h
  | cons row page ih => exact ih (expireRow_keeps hdecide e row h)

theorem expirePages_keep {P : Database → Prop}
    (hdecide : ∀ db c result db', P db → svc.decide rt db c = .ok (result, db') → P db')
    (e : ExpiryCommand) (pages : ℕ) (cursor : Option (Time × UUID)) {sweep : ExpirySweep}
    (h : P sweep.db) : P (svc.expirePages rt e pages cursor sweep).db := by
  induction pages generalizing cursor sweep with
  | zero => exact h
  | succ pages ih =>
    unfold ApprovalService.expirePages
    split
    · exact h
    · dsimp only
      split
      · exact h
      · exact ih _ (expireRows_keep hdecide e _ h)

/-- What every accepted call keeps, a sweep keeps. -/
theorem expireDue_keeps {P : Database → Prop}
    (hdecide : ∀ db c result db', P db → svc.decide rt db c = .ok (result, db') → P db')
    {e : ExpiryCommand} {sweep : ExpirySweep} (h : P db)
    (hsweep : svc.expireDue rt db e = .ok sweep) : P sweep.db := by
  simp only [ApprovalService.expireDue, Except.bind_eq_ok, Except.pure_eq_ok] at hsweep
  obtain ⟨_, -, rfl⟩ := hsweep
  exact expirePages_keep hdecide e _ none h

/-- A call of the service, accepted or refused, a sweep, or what other services do. -/
inductive ApprovalStep (svc : ApprovalService) (rt : Runtime) : Database → Database → Prop
  | decide (db : Database) (c : DecisionCommand) : ApprovalStep svc rt db (svc.after rt db c)
  | expireDue (db : Database) (e : ExpiryCommand) (sweep : ExpirySweep)
      (h : svc.expireDue rt db e = .ok sweep) : ApprovalStep svc rt db sweep.db
  | other (db db' : Database) (h : Evolves db db') : ApprovalStep svc rt db db'

theorem ApprovalStep.evolves (h : ApprovalStep svc rt db db') : Evolves db db' := by
  cases h with
  | decide c => exact evolves_after svc rt db c
  | expireDue e sweep h =>
    exact expireDue_keeps (fun _ _ _ _ hkept haccepted => hkept.trans (evolves_decide haccepted))
      (Evolves.refl db) h
  | other _ h => exact h

/-- The service among the others, from an empty history on. -/
def approvalSystem (svc : ApprovalService) (rt : Runtime) : TransitionSystem Database where
  init db := db.taskEvents.rows = []
  step := ApprovalStep svc rt

/-- Steps one after another. -/
abbrev ApprovalRun (svc : ApprovalService) (rt : Runtime) : Database → Database → Prop :=
  Relation.ReflTransGen (ApprovalStep svc rt)

theorem ApprovalRun.evolves (h : ApprovalRun svc rt db db') : Evolves db db' := by
  induction h with
  | refl => exact .refl _
  | tail _ hstep ih => exact ih.trans hstep.evolves

theorem soundHistory_of_reachable (h : (approvalSystem svc rt).Reachable db) : SoundHistory db := by
  refine h.invariant ?_ fun _ _ hsound hstep => hstep.evolves.sound hsound
  intro db hrows
  have hrows : db.taskEvents.rows = [] := hrows
  constructor
  · intro id request _ _ e he
    rw [hrows] at he
    cases he
  · intro e he
    rw [hrows] at he
    cases he

end Step

end ControlPlane
