import ControlPlane.Approvals.Opening
import ControlPlane.Approvals.Settled
import ControlPlane.Jobs.Fence

/-!
# Paused tasks

Five operations of three services change both the state of tasks and their requests:
requests, decisions, sweeps, changes of scope and cancellations. In every run of them a
task has one pending request at most, and stands where that request paused it.

Evidence, the revised request of a task and the events of steering touch neither; they are
steps elsewhere, as is everything the other services do to tasks that are not paused.

## Main results

* `paused_of_run`: the invariant of paused tasks in every run.
-/
namespace ControlPlane

/-! ### Cancellation -/

def pendingApproval (db : Database) (taskId : UUID) : Option UUID :=
  ((pendingRequests db taskId).head?).map ApprovalRequest.id

/-- The terminal transition an interrupted cancellation recorded. -/
def recoveredTransition (db : Database) (taskId cancellationId : UUID) : Option UUID :=
  (db.taskEvents.rows.find? fun e =>
    e.taskId = taskId && e.transitionId = some cancellationId &&
      (e.transitionKind = some .cancel || e.transitionKind = some .fail) &&
      (e.transitionToState = some .cancelled || e.transitionToState = some .failed)).map
    TaskEvent.id

/-- What a cancellation finds at first: the pending request it has to cancel, or the
transition it recorded before. -/
def beginCancellation (rt : Runtime) (db : Database) (c : CancelCommand) :
    Except BackgroundJobError (Option UUID × Option UUID) := do
  let reason := rt.unicode.upper (rt.unicode.strip c.reasonCode.toList)
  Except.require (reasonCode.fullmatch (CharClass.holds rt.unicode) reason)
    (.invalid "cancellation reason code is invalid")
  let task ← Except.orThrow (db.tasks.get? c.taskId)
    (.notFound "cancellation task is unavailable")
  match db.taskCancellations.rows.find? (·.taskId = task.id) with
  | some existing => do
    Except.require (existing.id = c.cancellationId ∧
        existing.requestFingerprint = cancellationFingerprint rt c (String.ofList reason))
      (.conflict "task cancellation conflicts")
    return (none, none)
  | none =>
    if task.state = c.expectedState then .ok (pendingApproval db task.id, none)
    else do
      let eventId ← Except.orThrow (recoveredTransition db task.id c.cancellationId)
        (.conflict "task state no longer matches cancellation")
      return (none, some eventId)

/-- The decision a cancellation takes on a pending request. -/
def CancelCommand.decision (c : CancelCommand) (requestId eventId : UUID) : DecisionCommand where
  requestId := requestId
  decisionId := c.cancellationId
  decision := .cancel
  actorId := c.principalId
  evidenceIds := [c.partialEvidenceId]
  now := c.now
  transitionEventId := c.eventId
  eventId := eventId
  ruleId := eventId
  policyVersionId := eventId

/-- The transaction that fences the work, or nothing when it is refused. -/
def finishCancellation (rt : Runtime) (db : Database) (c : CancelCommand)
    (transitionEventId : Option UUID) : Database :=
  match CancellationService.cancelTask rt db { c with transitionEventId } with
  | .ok db => db
  | .error _ => db

/-- The store after a cancellation, transaction after transaction: the pending request is
cancelled in one of its own, which stays when the next is refused. -/
def CancellationService.after (svc : ApprovalService) (rt : Runtime) (db : Database)
    (c : CancelCommand) (eventId : UUID) : Database :=
  match beginCancellation rt db c with
  | .error _ => db
  | .ok (none, recovered) => finishCancellation rt db c recovered
  | .ok (some requestId, _) =>
    match svc.decide rt db (c.decision requestId eventId) with
    | .error _ => db
    | .ok (result, db) => finishCancellation rt db c (some result.transitionEventId)

/-! ### The invariant -/

/-- A task stands where a request paused it. -/
def PausedBy (task : Task) (request : ApprovalRequest) : Prop :=
  if request.requestType = ApprovalRequestType.brief.value then task.state = .briefPendingApproval
  else task.state = .escalated ∧ request.resumeState.isSome = true ∧
    task.escalationResumeState = request.resumeState

/-- A task has one pending request at most and stands where it paused the task; a
transition that pauses a task was recorded for a request. -/
structure Paused (db : Database) : Prop where
  single : ∀ id id' request request', db.approvalRequests.get? id = some request →
    db.approvalRequests.get? id' = some request' → request.status = .pending →
      request'.status = .pending → request.taskId = request'.taskId → id = id'
  paused : ∀ id request, db.approvalRequests.get? id = some request → request.status = .pending →
    ∃ task, db.tasks.get? request.taskId = some task ∧ PausedBy task request
  opened : ∀ e ∈ db.taskEvents.rows,
    e.transitionKind = some .escalate ∨ e.transitionKind = some .requestBriefApproval →
      ∃ id, e.transitionId = some id ∧ (db.approvalRequests.get? id).isSome = true

/-- A task is left as it is but for the requests it has. -/
structure SamePauses (db db' : Database) : Prop where
  tasks : db'.tasks = db.tasks
  events : db'.taskEvents = db.taskEvents
  requests : db'.approvalRequests = db.approvalRequests

section Frames
variable {rt : Runtime} {db db' db'' : Database}

theorem SamePauses.refl (db : Database) : SamePauses db db := ⟨rfl, rfl, rfl⟩

theorem SamePauses.trans (h : SamePauses db db') (h' : SamePauses db' db'') :
    SamePauses db db'' :=
  ⟨h'.tasks.trans h.tasks, h'.events.trans h.events, h'.requests.trans h.requests⟩

/-- What a step leaves: a request that is still pending stays as it was, and none goes. -/
structure KeepsRequests (db db' : Database) : Prop where
  still : ∀ id request request', db.approvalRequests.get? id = some request →
    db'.approvalRequests.get? id = some request' → request'.status = .pending → request' = request
  kept : ∀ id, (db.approvalRequests.get? id).isSome = true →
    (db'.approvalRequests.get? id).isSome = true

/-- A step after which every pending request still stands for a paused task. -/
structure KeepsPauses (db db' : Database) : Prop where
  paused : Paused db'
  requests : KeepsRequests db db'

theorem KeepsRequests.of_eq (h : db'.approvalRequests = db.approvalRequests) :
    KeepsRequests db db' where
  still id request request' hrequest hrequest' _ := by
    rw [h, hrequest, Option.some.injEq] at hrequest'
    exact hrequest'.symm
  kept id hid := by
    rw [h]
    exact hid

theorem KeepsRequests.trans (h : KeepsRequests db db') (h' : KeepsRequests db' db'') :
    KeepsRequests db db'' where
  still id request request'' hrequest hrequest'' hstatus := by
    obtain ⟨request', hrequest'⟩ :=
      Option.isSome_iff_exists.mp (h.kept id (Option.isSome_iff_exists.mpr ⟨request, hrequest⟩))
    have hlast := h'.still id request' request'' hrequest' hrequest'' hstatus
    rw [hlast]
    exact h.still id request request' hrequest hrequest' (hlast ▸ hstatus)
  kept id hid := h'.kept id (h.kept id hid)

theorem KeepsPauses.trans (h : KeepsPauses db db') (h' : KeepsPauses db' db'') :
    KeepsPauses db db'' :=
  ⟨h'.paused, h.requests.trans h'.requests⟩

theorem Paused.same (h : Paused db) (hsame : SamePauses db db') : KeepsPauses db db' where
  paused :=
    { single := by
        rw [hsame.requests]
        exact h.single
      paused := by
        rw [hsame.requests, hsame.tasks]
        exact h.paused
      opened := by
        rw [hsame.requests, hsame.events]
        exact h.opened }
  requests := .of_eq hsame.requests

/-- Events that pause no task need no request. -/
theorem Paused.opened_later (h : Paused db)
    (hkept : ∀ id, (db.approvalRequests.get? id).isSome = true →
      (db'.approvalRequests.get? id).isSome = true)
    (hevents : ∀ e ∈ db'.taskEvents.rows, e ∈ db.taskEvents.rows ∨
      (e.transitionKind ≠ some .escalate ∧ e.transitionKind ≠ some .requestBriefApproval)) :
    ∀ e ∈ db'.taskEvents.rows,
      e.transitionKind = some .escalate ∨ e.transitionKind = some .requestBriefApproval →
        ∃ id, e.transitionId = some id ∧ (db'.approvalRequests.get? id).isSome = true := by
  intro e he hkind
  obtain hold | ⟨hescalate, hbrief⟩ := hevents e he
  · obtain ⟨id, hid, hrow⟩ := h.opened e hold hkind
    exact ⟨id, hid, hkept id hrow⟩
  · obtain hkind | hkind := hkind
    · exact absurd hkind hescalate
    · exact absurd hkind hbrief

/-- The invariant is kept by a step that changes one task and leaves it no pending
request. -/
theorem Paused.close (h : Paused db) (taskId : UUID)
    (htasks : ∀ id ≠ taskId, db'.tasks.get? id = db.tasks.get? id)
    (hpending : ∀ id request, db'.approvalRequests.get? id = some request →
      request.status = .pending →
        db.approvalRequests.get? id = some request ∧ request.taskId ≠ taskId)
    (hkept : ∀ id, (db.approvalRequests.get? id).isSome = true →
      (db'.approvalRequests.get? id).isSome = true)
    (hevents : ∀ e ∈ db'.taskEvents.rows, e ∈ db.taskEvents.rows ∨
      (e.transitionKind ≠ some .escalate ∧ e.transitionKind ≠ some .requestBriefApproval)) :
    KeepsPauses db db' where
  paused :=
    { single := fun id id' request request' hrequest hrequest' hstatus hstatus' htask =>
        h.single id id' request request' (hpending _ _ hrequest hstatus).1
          (hpending _ _ hrequest' hstatus').1 hstatus hstatus' htask
      paused := by
        intro id request hrequest hstatus
        obtain ⟨hbefore, hne⟩ := hpending id request hrequest hstatus
        obtain ⟨task, htask, hpaused⟩ := h.paused id request hbefore hstatus
        exact ⟨task, (htasks _ hne).trans htask, hpaused⟩
      opened := h.opened_later hkept hevents }
  requests :=
    { still := by
        intro id request request' hrequest hrequest' hstatus
        obtain ⟨hbefore, -⟩ := hpending id request' hrequest' hstatus
        rw [hrequest, Option.some.injEq] at hbefore
        exact hbefore.symm
      kept := hkept }

/-! ### Transitions -/

/-- What a transition touches: its task, and the history by an event of its kind. -/
theorem transitionTask_frame {c : TaskTransitionCommand} {result : TaskTransitionResult}
    (h : transitionTask rt db c = .ok (result, db')) :
    db'.approvalRequests = db.approvalRequests ∧
      (∀ id ≠ c.taskId, db'.tasks.get? id = db.tasks.get? id) ∧
      ∀ e ∈ db'.taskEvents.rows, e ∈ db.taskEvents.rows ∨ e.transitionKind = some c.kind := by
  obtain rfl | ⟨a, rfl⟩ := transitionTask_ok h
  · exact ⟨rfl, fun _ _ => rfl, fun _ he => .inl he⟩
  · refine ⟨rfl, ?_, ?_⟩
    · intro id hid
      rw [a.tasks_after, if_neg fun heq => hid (heq.symm.trans a.task_id)]
    · intro e he
      rw [a.rows_after, List.mem_append, List.mem_singleton] at he
      obtain he | rfl := he
      · exact .inl he
      · exact .inr (congrArg some (kind_of_evaluate a.plan_eq))

/-- A transition whose identifier no event of its kind has is a new one. -/
theorem acceptance_of_fresh {c : TaskTransitionCommand} {result : TaskTransitionResult}
    (hfresh : ∀ e ∈ db.taskEvents.rows, e.transitionId = some c.transitionId →
      e.transitionKind ≠ some c.kind)
    (h : transitionTask rt db c = .ok (result, db')) : ∃ a : Acceptance rt db c, db' = a.after := by
  obtain rfl | haccepted := transitionTask_ok h
  · have hevent := transitionEventId_transition h
    simp only [transitionTask, Except.bind_eq_ok, Except.orThrow_eq_ok] at h
    obtain ⟨⟨actor, reason⟩, -, task, -, h⟩ := h
    cases hexisting : eventOfTransition db' c.transitionId with
    | some existing =>
      simp only [hexisting, replayedTransition, Except.bind_eq_ok, Except.require_eq_ok,
        Except.pure_eq_ok, Prod.mk.injEq] at h
      obtain ⟨_, ⟨_, ⟨-, hkind, -⟩, -⟩, -⟩ := h
      have hid : existing.transitionId = some c.transitionId := by
        simpa using List.find?_some hexisting
      exact absurd hkind (hfresh existing (List.mem_of_find?_eq_some hexisting) hid)
    | none => simp [transitionEventId, hexisting, Except.orThrow] at hevent
  · exact haccepted

theorem Edge.briefPending {s : TaskTransitionSnapshot} {plan : TaskTransitionPlan} (h : Edge s plan)
    (hkind : plan.kind = .requestBriefApproval) : plan.toState = .briefPendingApproval := by
  cases h <;> first | rfl | cases hkind

theorem Edge.escalated {s : TaskTransitionSnapshot} {plan : TaskTransitionPlan} (h : Edge s plan)
    (hkind : plan.kind = .escalate) :
    plan.toState = .escalated ∧ plan.escalationResumeState = some s.state := by
  cases h <;> first | exact ⟨rfl, rfl⟩ | cases hkind

theorem Task.apply_escalationResumeState (task : Task) (plan : TaskTransitionPlan)
    (eventId : UUID) :
    (task.apply plan eventId).escalationResumeState = plan.escalationResumeState := by
  unfold Task.apply
  split <;> rfl

end Frames

/-! ### The operations -/

section Operations
variable {svc : ApprovalService} {rt : Runtime} {db db' : Database}

theorem decisionProjection_kind {type : ApprovalRequestType} {decision : ApprovalDecision}
    {decisionId : UUID} {status : ApprovalStatus} {kind : TaskTransitionKind}
    {gates : ApprovalGates}
    (h : decisionProjection type decision decisionId = .ok (status, kind, gates)) :
    kind ≠ .escalate ∧ kind ≠ .requestBriefApproval := by
  cases decision <;> cases type <;> simp only [decisionProjection, Except.ok.injEq, Prod.mk.injEq,
    reduceCtorEq] at h <;> simp [← h.2.1]

theorem RecordedDecision.kind {c : DecisionCommand} {result : ApprovalDecisionResult}
    {a : Asked rt db c} (r : RecordedDecision svc rt db db' c result a) :
    r.checked.kind ≠ .escalate ∧ r.checked.kind ≠ .requestBriefApproval := by
  have hchecked := r.checked_eq
  simp only [checkDecision, Except.bind_eq_ok, Except.pure_eq_ok] at hchecked
  obtain ⟨_, -, _, -, type, -, ⟨status, kind, gates⟩, hprojection, _, -, _, -, exact, -,
    hchecked⟩ := hchecked
  rw [← hchecked]
  exact decisionProjection_kind hprojection

/-- A decision closes the request whose task it moves. -/
theorem paused_decide (h : Paused db) {c : DecisionCommand} {result : ApprovalDecisionResult}
    (hdecide : svc.decide rt db c = .ok (result, db')) : KeepsPauses db db' := by
  obtain ⟨a, ⟨hpending, hrecord⟩ | ⟨-, rfl, -⟩⟩ := decide_ok hdecide
  · obtain ⟨r⟩ := recordDecision_ok hrecord
    obtain ⟨-, htasks, hevents⟩ := transitionTask_frame r.transition_eq
    refine h.close a.task.id ?_ ?_ ?_ ?_
    · intro id hid
      rw [r.tasks_eq]
      exact htasks id hid
    · intro id request hrequest hstatus
      have hne : c.requestId ≠ id := by
        rintro rfl
        rw [r.request_after, Option.some.injEq] at hrequest
        rw [← hrequest] at hstatus
        exact r.checked_ok.1 hstatus
      rw [r.other_requests hne] at hrequest
      refine ⟨hrequest, ?_⟩
      intro htask
      exact hne (h.single _ _ _ _ a.request_eq hrequest hpending hstatus
        (a.task_id.symm.trans htask.symm))
    · intro id hid
      by_cases hne : c.requestId = id
      · rw [← hne, r.request_after]
        rfl
      · rw [r.other_requests hne]
        exact hid
    · intro e he
      rw [r.rows_eq, List.mem_append, List.mem_singleton] at he
      obtain he | rfl := he
      · obtain hold | hkind := hevents e he
        · exact .inl hold
        · right
          rw [hkind]
          exact ⟨fun heq => r.kind.1 (Option.some.inj heq),
            fun heq => r.kind.2 (Option.some.inj heq)⟩
      · right
        rw [r.event_kind]
        exact ⟨(Option.some_ne_none _).symm, (Option.some_ne_none _).symm⟩
  · exact h.same (.refl _)

theorem fenceJob_same {code : String} {corrupt : BackgroundJobError} {now : Time}
    {job : BackgroundJob} (h : fenceJob code corrupt now db job = .ok db') : SamePauses db db' := by
  unfold fenceJob at h
  split at h
  · split at h
    · simp only [Except.bind_eq_ok, Except.pure_eq_ok] at h
      obtain ⟨_, -, _, -, rfl⟩ := h
      exact ⟨rfl, rfl, rfl⟩
    · cases h
      exact ⟨rfl, rfl, rfl⟩
  · cases h
    exact .refl _

/-- Fencing jobs touches no task and no request. -/
theorem fenceJobs_same {taskId : UUID} {code reason : String} {corrupt : BackgroundJobError}
    {now : Time} (h : fenceJobs db taskId code reason corrupt now = .ok db') :
    SamePauses db db' := by
  simp only [fenceJobs, Except.bind_eq_ok, Except.pure_eq_ok] at h
  obtain ⟨db₁, h₁, rfl⟩ := h
  have hfenced : SamePauses db db₁ := by
    generalize jobsOf db taskId = jobs at h₁
    induction jobs generalizing db with
    | nil =>
      cases h₁
      exact .refl _
    | cons job jobs ih =>
      simp only [List.foldlM_cons, Except.bind_eq_ok] at h₁
      obtain ⟨db₂, h₂, h₁⟩ := h₁
      exact (fenceJob_same h₂).trans (ih h₁)
  exact hfenced.trans ⟨rfl, rfl, rfl⟩

/-- A request that a change of scope found pending. -/
def SteerCommand.cancelled (rt : Runtime) (c : SteerCommand) (request : ApprovalRequest) :
    ApprovalRequest :=
  { request with
    status := .cancelled, decision := some .cancel
    decisionId := some (steeringDerivedId rt c.steeringId ("approval:" ++ request.id.str)) }

theorem rows_cancelApprovals (rt : Runtime) (db : Database) (c : SteerCommand) :
    (cancelApprovals rt db c).approvalRequests.rows = db.approvalRequests.rows.map fun request =>
      if (request.taskId = c.taskId && request.status = .pending) = true then c.cancelled rt request
      else request := by
  have hkey (request : ApprovalRequest) : key (c.cancelled rt request) = key request := rfl
  exact Table.rows_foldl_set_select hkey (.refl _)

theorem get?_cancelApprovals {c : SteerCommand} {id : UUID} {request : ApprovalRequest}
    (h : (cancelApprovals rt db c).approvalRequests.get? id = some request)
    (hpending : request.status = .pending) :
    db.approvalRequests.get? id = some request ∧ request.taskId ≠ c.taskId := by
  obtain ⟨hmem, hid⟩ := Table.get?_eq_some.mp h
  rw [Table.mem_def, rows_cancelApprovals, List.mem_map] at hmem
  obtain ⟨before, hbefore, rfl⟩ := hmem
  split at hpending
  · cases hpending
  · rename_i hopen
    rw [if_neg hopen] at hid ⊢
    refine ⟨Table.get?_eq_some.mpr ⟨hbefore, hid⟩, ?_⟩
    intro htask
    exact hopen (by simp [htask, hpending])

theorem isSome_cancelApprovals {c : SteerCommand} {id : UUID}
    (h : (db.approvalRequests.get? id).isSome = true) :
    ((cancelApprovals rt db c).approvalRequests.get? id).isSome = true := by
  obtain ⟨request, hrequest⟩ := Option.isSome_iff_exists.mp h
  obtain ⟨hmem, hid⟩ := Table.get?_eq_some.mp hrequest
  rw [Option.isSome_iff_ne_none, ne_eq, Table.get?_eq_none]
  intro hnone
  have hafter : (if (request.taskId = c.taskId && request.status = .pending) = true
      then c.cancelled rt request else request) ∈
        (cancelApprovals rt db c).approvalRequests.rows := by
    rw [rows_cancelApprovals]
    exact List.mem_map.mpr ⟨request, hmem, rfl⟩
  refine hnone _ hafter ?_
  split <;> exact hid

/-- A change of scope closes the requests of the task it sends back. -/
theorem paused_steer (h : Paused db) {c : SteerCommand}
    (hsteer : SteeringService.steer rt db c = .ok db') : KeepsPauses db db' := by
  simp only [SteeringService.steer, fenceScopeWork, Except.bind_eq_ok, Except.relabel_eq_ok,
    Except.pure_eq_ok] at hsteer
  obtain ⟨task, _, _, _, _, _, _, _, _, _, db₂, ⟨db₁, hfenced, rfl⟩, ⟨_, _⟩, htransition, rfl⟩ :=
    hsteer
  have hsame := fenceJobs_same hfenced
  obtain ⟨hrequests, htasks, hevents⟩ := transitionTask_frame htransition
  refine h.close c.taskId ?_ ?_ ?_ ?_
  · intro id hid
    rw [htasks id hid, ← hsame.tasks]
    rfl
  · intro id request hrequest hstatus
    rw [hrequests] at hrequest
    rw [← hsame.requests]
    exact get?_cancelApprovals hrequest hstatus
  · intro id hid
    rw [hrequests]
    rw [← hsame.requests] at hid
    exact isSome_cancelApprovals hid
  · intro e he
    obtain hold | hkind := hevents e he
    · left
      rw [← hsame.events]
      exact hold
    · right
      rw [hkind]
      simp [SteerCommand.transition]

theorem mem_pendingRequests {taskId id : UUID} {request : ApprovalRequest}
    (hrequest : db.approvalRequests.get? id = some request) (hstatus : request.status = .pending)
    (htask : request.taskId = taskId) : request ∈ pendingRequests db taskId :=
  List.mem_filter.mpr ⟨Table.mem_of_get? hrequest, by simp [hstatus, htask]⟩

/-- What recording a cancellation does: the transition of the task, when no event stands
for it, and nothing to its requests. -/
theorem recordCancellation_moves {c : CancelCommand} {task : Task} {reason : String}
    (h : recordCancellation rt db c task reason = .ok db') :
    SamePauses db db' ∨ db.taskCancellations.rows.find? (·.taskId = task.id) = none ∧
      c.transitionEventId = none ∧ ∃ result moved,
        transitionTask rt db (c.transition reason) = .ok (result, moved) ∧
          SamePauses moved db' := by
  unfold recordCancellation at h
  split at h
  · simp only [Except.bind_eq_ok, Except.pure_eq_ok] at h
    obtain ⟨_, -, rfl⟩ := h
    exact .inl (.refl db)
  · rename_i hnone
    simp only [Except.bind_eq_ok, Except.pure_eq_ok] at h
    obtain ⟨⟨_, moved⟩, hterminal, _, -, rfl⟩ := h
    unfold terminalTransition at hterminal
    split at hterminal
    · rename_i hevent
      simp only [Except.bind_eq_ok, Except.relabel_eq_ok, Except.pure_eq_ok,
        Prod.mk.injEq] at hterminal
      obtain ⟨⟨result, _⟩, htransition, -, rfl⟩ := hterminal
      exact .inr ⟨hnone, hevent, result, _, htransition, ⟨rfl, rfl, rfl⟩⟩
    · simp only [Except.bind_eq_ok, Except.pure_eq_ok, Prod.mk.injEq] at hterminal
      obtain ⟨_, -, -, rfl⟩ := hterminal
      exact .inl ⟨rfl, rfl, rfl⟩

/-- The last transaction of a cancellation moves a task only when it has no pending
request. -/
theorem paused_finish (h : Paused db) (c : CancelCommand) (transitionEventId : Option UUID)
    (hfree : transitionEventId = none →
      db.taskCancellations.rows.find? (·.taskId = c.taskId) = none →
        ∀ task, db.tasks.get? c.taskId = some task → task.state = c.expectedState →
          ∀ id request, db.approvalRequests.get? id = some request → request.status = .pending →
            request.taskId ≠ c.taskId) :
    KeepsPauses db (finishCancellation rt db c transitionEventId) := by
  unfold finishCancellation
  split
  · rename_i db' haccepted
    simp only [CancellationService.cancelTask, Except.bind_eq_ok, Except.orThrow_eq_ok] at haccepted
    obtain ⟨_, -, task, htask, recorded, hrecord, hfence⟩ := haccepted
    have hid : task.id = c.taskId := Table.key_of_get? htask
    have hfenced := fenceJobs_same hfence
    obtain hsame | ⟨hnone, hevent, _, moved, htransition, hsame⟩ := recordCancellation_moves hrecord
    · exact h.same (hsame.trans hfenced)
    · have hlast := hsame.trans hfenced
      obtain ⟨hrequests, htasks, hevents⟩ := transitionTask_frame htransition
      rw [hid] at hnone
      obtain rfl | ⟨a, -⟩ := transitionTask_ok htransition
      · exact h.same hlast
      refine h.close c.taskId ?_ ?_ ?_ ?_
      · intro id hne
        rw [hlast.tasks]
        exact htasks id hne
      · intro id request hrequest hstatus
        rw [hlast.requests, hrequests] at hrequest
        exact ⟨hrequest, hfree hevent hnone a.task a.task_eq a.state_eq id request hrequest hstatus⟩
      · intro id hsome
        rw [hlast.requests, hrequests]
        exact hsome
      · intro e he
        rw [hlast.events] at he
        obtain hold | hkind := hevents e he
        · exact .inl hold
        · right
          rw [hkind]
          simp [CancelCommand.transition]
  · exact h.same (.refl db)

/-- A cancellation that finds no pending request and no transition finds none at all. -/
theorem beginCancellation_free {c : CancelCommand}
    (h : beginCancellation rt db c = .ok (none, none))
    (hnone : db.taskCancellations.rows.find? (·.taskId = c.taskId) = none) (id : UUID)
    (request : ApprovalRequest) (hrequest : db.approvalRequests.get? id = some request)
    (hstatus : request.status = .pending) : request.taskId ≠ c.taskId := by
  simp only [beginCancellation, Except.bind_eq_ok, Except.orThrow_eq_ok] at h
  obtain ⟨_, -, task, htask, h⟩ := h
  have hid : task.id = c.taskId := Table.key_of_get? htask
  rw [hid, hnone] at h
  dsimp only at h
  split at h
  · rw [Except.ok.injEq, Prod.mk.injEq, pendingApproval, Option.map_eq_none_iff,
      List.head?_eq_none_iff] at h
    intro heq
    have hmem := mem_pendingRequests hrequest hstatus heq
    rw [h.1] at hmem
    cases hmem
  · simp only [Except.bind_eq_ok, Except.pure_eq_ok, Prod.mk.injEq] at h
    obtain ⟨_, -, -, h⟩ := h
    cases h

/-- A task that stands elsewhere has no pending request. -/
theorem Paused.free (h : Paused db) {task : Task} (hescalated : task.state ≠ .escalated)
    (hbrief : task.state ≠ .briefPendingApproval) {taskId : UUID}
    (htask : db.tasks.get? taskId = some task) (id : UUID) (request : ApprovalRequest)
    (hrequest : db.approvalRequests.get? id = some request) (hstatus : request.status = .pending) :
    request.taskId ≠ taskId := by
  rintro rfl
  obtain ⟨task', htask', hstands⟩ := h.paused id request hrequest hstatus
  rw [htask, Option.some.injEq] at htask'
  subst htask'
  unfold PausedBy at hstands
  split at hstands
  · exact hbrief hstands
  · exact hescalated hstands.1

/-- A cancellation closes the request of its task first. -/
theorem paused_cancel (h : Paused db) (c : CancelCommand) (eventId : UUID) :
    KeepsPauses db (CancellationService.after svc rt db c eventId) := by
  unfold CancellationService.after
  split
  · exact h.same (.refl db)
  · rename_i recovered hbegin
    refine paused_finish h c recovered ?_
    rintro rfl hnone _ _ _
    exact beginCancellation_free hbegin hnone
  · split
    · exact h.same (.refl db)
    · rename_i hdecide
      have hkept := paused_decide h hdecide
      refine hkept.trans (paused_finish hkept.paused c _ ?_)
      intro hnone
      cases hnone

theorem briefValue_iff {type : ApprovalRequestType} :
    type.value = ApprovalRequestType.brief.value ↔ type = .brief := by
  cases type <;> decide

/-- Where an accepted pause leaves the task. -/
theorem pausedBy_accepted {c : RequestCommand} {reason : String} {policyVersionId : Option UUID}
    {row : ApprovalRequest} (a : Acceptance rt db (svc.pause c reason policyVersionId))
    (htype : row.requestType = c.requestType.value) (hresume : row.resumeState = c.resumeState) :
    PausedBy (a.task.apply a.plan a.event.id) row := by
  have hedge := (edge_of_evaluate a.plan_eq).2
  have hkind := kind_of_evaluate a.plan_eq
  unfold PausedBy
  rw [htype, hresume, Task.apply_state, Task.apply_escalationResumeState,
    RequestCommand.resumeState]
  by_cases hbrief : c.requestType = .brief
  · rw [if_pos (briefValue_iff.mpr hbrief)]
    exact hedge.briefPending (hkind.trans (if_pos hbrief))
  · obtain ⟨hto, hresumes⟩ := hedge.escalated (hkind.trans (if_neg hbrief))
    rw [if_neg fun heq => hbrief (briefValue_iff.mp heq), if_neg hbrief]
    refine ⟨hto, rfl, ?_⟩
    rw [hresumes]
    exact congrArg some a.state_eq

/-- The invariant is kept by a step that pauses one task for a new request of its own. -/
theorem Paused.pause (h : Paused db) (row : ApprovalRequest)
    (hfree : ∀ id request, db.approvalRequests.get? id = some request →
      request.status = .pending → request.taskId ≠ row.taskId)
    (hfresh : db.approvalRequests.get? row.id = none)
    (hrequests : ∀ id, db'.approvalRequests.get? id =
      if row.id = id then some row else db.approvalRequests.get? id)
    (htasks : ∀ id ≠ row.taskId, db'.tasks.get? id = db.tasks.get? id)
    (htask : ∃ task, db'.tasks.get? row.taskId = some task ∧ PausedBy task row)
    (hevents : ∀ e ∈ db'.taskEvents.rows, e ∈ db.taskEvents.rows ∨
      e.transitionId = some row.id ∨ e.transitionKind = none) :
    KeepsPauses db db' := by
  have hkept (id : UUID) (hid : (db.approvalRequests.get? id).isSome = true) :
      row.id ≠ id ∧ (db'.approvalRequests.get? id).isSome = true := by
    have hne : row.id ≠ id := by
      rintro rfl
      rw [hfresh] at hid
      cases hid
    rw [hrequests, if_neg hne]
    exact ⟨hne, hid⟩
  constructor
  · constructor
    · intro id id' request request' hrequest hrequest' hstatus hstatus' heq
      rw [hrequests] at hrequest hrequest'
      split at hrequest
      · rename_i hid
        split at hrequest'
        · rename_i hid'
          rw [← hid, hid']
        · rw [Option.some.injEq] at hrequest
          rw [← hrequest] at heq
          exact absurd heq.symm (hfree id' request' hrequest' hstatus')
      · split at hrequest'
        · rw [Option.some.injEq] at hrequest'
          rw [← hrequest'] at heq
          exact absurd heq (hfree id request hrequest hstatus)
        · exact h.single id id' request request' hrequest hrequest' hstatus hstatus' heq
    · intro id request hrequest hstatus
      rw [hrequests] at hrequest
      split at hrequest
      · rw [Option.some.injEq] at hrequest
        rw [← hrequest]
        exact htask
      · obtain ⟨task, htask, hpaused⟩ := h.paused id request hrequest hstatus
        exact ⟨task, (htasks _ (hfree id request hrequest hstatus)).trans htask, hpaused⟩
    · intro e he hkind
      obtain hold | hnew | hnone := hevents e he
      · obtain ⟨id, hid, hsome⟩ := h.opened e hold hkind
        exact ⟨id, hid, (hkept id hsome).2⟩
      · refine ⟨row.id, hnew, ?_⟩
        rw [hrequests, if_pos rfl]
        rfl
      · rw [hnone] at hkind
        obtain hkind | hkind := hkind
        · cases hkind
        · cases hkind
  · constructor
    · intro id request request' hrequest hrequest' _
      have hne := (hkept id (Option.isSome_iff_exists.mpr ⟨request, hrequest⟩)).1
      rw [hrequests, if_neg hne, hrequest, Option.some.injEq] at hrequest'
      exact hrequest'.symm
    · exact fun id hid => (hkept id hid).2

/-- A new request of a task without a pending one pauses it. -/
theorem paused_open (h : Paused db) {task : Task} {c : RequestCommand} {reason : String}
    {shape : RequestShape} {subject : Option String} {result : ApprovalRequestResult}
    (htask : db.tasks.get? c.taskId = some task)
    (hfresh : db.approvalRequests.get? c.requestId = none)
    (hopen : svc.openRequest rt db task c reason
      (newRequest rt c reason shape subject task.ownerId) = .ok (result, db')) :
    KeepsPauses db db' := by
  simp only [ApprovalService.openRequest, Except.bind_eq_ok, Except.require_eq_ok,
    Except.orThrow_eq_ok, Except.relabel_eq_ok, Except.pure_eq_ok, Prod.mk.injEq] at hopen
  obtain ⟨_, -, _, hstate, _, hnone, policyVersionId, -, requests, hinsert, ⟨transition, moved⟩,
    htransition, moving, -, ⟨event, last⟩, happend, -, rfl⟩ := hopen
  obtain ⟨⟨blocked, hevent⟩, hrows, htasks, hrequests⟩ := appendApprovalEvent_ok happend
  have hnew : ∀ e ∈ db.taskEvents.rows, e.transitionId = some c.requestId →
      e.transitionKind ≠ some (svc.pause c reason policyVersionId).kind := by
    intro e he hid hkind
    have hpause : e.transitionKind = some .escalate ∨
        e.transitionKind = some .requestBriefApproval := by
      rw [hkind]
      unfold ApprovalService.pause
      dsimp only
      split
      · exact .inr rfl
      · exact .inl rfl
    obtain ⟨id, heq, hsome⟩ := h.opened e he hpause
    rw [hid, Option.some.injEq] at heq
    rw [← heq, hfresh] at hsome
    cases hsome
  obtain ⟨a, rfl⟩ := acceptance_of_fresh hnew htransition
  refine h.pause (newRequest rt c reason shape subject task.ownerId) ?_ hfresh ?_ ?_ ?_ ?_
  · intro id request hrequest hstatus heq
    have hmem := mem_pendingRequests hrequest hstatus heq
    have htaskId : task.id = c.taskId := Table.key_of_get? htask
    rw [htaskId] at hnone
    exact List.not_mem_nil (hnone ▸ hmem)
  · intro id
    rw [hrequests]
    exact Table.get?_insert? hinsert
  · intro id hne
    rw [htasks, a.tasks_after, if_neg fun heq => hne (heq.symm.trans a.task_id)]
  · refine ⟨_, ?_, pausedBy_accepted a rfl rfl⟩
    rw [htasks, a.tasks_after]
    exact if_pos a.task_id
  · intro e he
    rw [hrows, List.mem_append, a.rows_after, List.mem_append, List.mem_singleton,
      List.mem_singleton] at he
    obtain (hold | rfl) | rfl := he
    · exact .inl hold
    · exact .inr (.inl rfl)
    · right
      right
      rw [hevent]
      rfl

theorem paused_request (h : Paused db) {c : RequestCommand} {result : ApprovalRequestResult}
    (hrequest : svc.request rt db c = .ok (result, db')) : KeepsPauses db db' := by
  simp only [ApprovalService.request, Except.bind_eq_ok, Except.orThrow_eq_ok] at hrequest
  obtain ⟨⟨reason, shape⟩, -, task, htask, subject, -, hrequest⟩ := hrequest
  split at hrequest
  · simp only [Except.bind_eq_ok, Except.pure_eq_ok, Prod.mk.injEq] at hrequest
    obtain ⟨_, -, -, rfl⟩ := hrequest
    exact h.same (.refl db)
  · rename_i hfresh
    exact paused_open h htask hfresh hrequest

end Operations

/-! ### Every run -/

/-- What the other services do: they leave requests alone, and paused tasks where they
stand, and pause none. -/
structure LeavesPauses (db db' : Database) : Prop where
  requests : db'.approvalRequests = db.approvalRequests
  tasks : ∀ id request task, db.approvalRequests.get? id = some request →
    request.status = .pending → db.tasks.get? request.taskId = some task →
      ∃ task', db'.tasks.get? request.taskId = some task' ∧ task'.state = task.state ∧
        task'.escalationResumeState = task.escalationResumeState
  events : ∀ e ∈ db'.taskEvents.rows, e ∈ db.taskEvents.rows ∨
    (e.transitionKind ≠ some .escalate ∧ e.transitionKind ≠ some .requestBriefApproval)

/-- An accepted call of one of the services, or what others do. The last transaction of a
cancellation may come later, after other steps, when its decision was recorded or the task
it was asked for was not paused. -/
inductive PauseStep (rt : Runtime) : Database → Database → Prop
  | request (svc : ApprovalService) (db db' : Database) (c : RequestCommand)
      (result : ApprovalRequestResult) (h : svc.request rt db c = .ok (result, db')) :
      PauseStep rt db db'
  | decide (svc : ApprovalService) (db db' : Database) (c : DecisionCommand)
      (result : ApprovalDecisionResult) (h : svc.decide rt db c = .ok (result, db')) :
      PauseStep rt db db'
  | expireDue (svc : ApprovalService) (db : Database) (e : ExpiryCommand) (sweep : ExpirySweep)
      (h : svc.expireDue rt db e = .ok sweep) : PauseStep rt db sweep.db
  | steer (db db' : Database) (c : SteerCommand)
      (h : SteeringService.steer rt db c = .ok db') : PauseStep rt db db'
  | cancelTask (svc : ApprovalService) (db : Database) (c : CancelCommand) (eventId : UUID) :
      PauseStep rt db (CancellationService.after svc rt db c eventId)
  | finish (db : Database) (c : CancelCommand) (transitionEventId : Option UUID)
      (h : transitionEventId = none →
        c.expectedState ≠ .escalated ∧ c.expectedState ≠ .briefPendingApproval) :
      PauseStep rt db (finishCancellation rt db c transitionEventId)
  | other (db db' : Database) (h : LeavesPauses db db') : PauseStep rt db db'

/-- The services together, from a store without requests and history on. -/
def pausingSystem (rt : Runtime) : TransitionSystem Database where
  init db := db.approvalRequests.rows = [] ∧ db.taskEvents.rows = []
  step := PauseStep rt

section Runs
variable {rt : Runtime} {db db' : Database}

theorem LeavesPauses.keeps (h : LeavesPauses db db') (hpaused : Paused db) :
    KeepsPauses db db' where
  paused :=
    { single := by
        rw [h.requests]
        exact hpaused.single
      paused := by
        rw [h.requests]
        intro id request hrequest hstatus
        obtain ⟨task, htask, hstands⟩ := hpaused.paused id request hrequest hstatus
        obtain ⟨task', htask', hstate, hresume⟩ := h.tasks id request task hrequest hstatus htask
        refine ⟨task', htask', ?_⟩
        rw [PausedBy, hstate, hresume]
        exact hstands
      opened := hpaused.opened_later (KeepsRequests.of_eq h.requests).kept h.events }
  requests := .of_eq h.requests

theorem PauseStep.keeps (h : PauseStep rt db db') (hpaused : Paused db) : KeepsPauses db db' := by
  cases h with
  | request svc _ _ c result h => exact paused_request hpaused h
  | decide svc _ _ c result h => exact paused_decide hpaused h
  | expireDue svc _ e sweep h =>
    exact expireDue_keeps (P := KeepsPauses db)
      (fun _ _ _ _ hkept hdecide => hkept.trans (paused_decide hkept.paused hdecide))
      (hpaused.same (.refl db)) h
  | steer _ _ c h => exact paused_steer hpaused h
  | cancelTask svc _ c eventId => exact paused_cancel hpaused c eventId
  | finish _ c transitionEventId hunpaused =>
    refine paused_finish hpaused c transitionEventId ?_
    intro hnone _ task htask hstate
    obtain ⟨hescalated, hbrief⟩ := hunpaused hnone
    exact hpaused.free (hstate ▸ hescalated) (hstate ▸ hbrief) htask
  | other _ _ h => exact h.keeps hpaused

theorem paused_of_reachable (h : (pausingSystem rt).Reachable db) : Paused db := by
  refine h.invariant ?_ fun _ _ hpaused hstep => (PauseStep.keeps hstep hpaused).paused
  rintro db ⟨hrequests, hevents⟩
  have hnone (id : UUID) : db.approvalRequests.get? id = none := by
    rw [Table.get?_eq_none]
    intro request hrequest
    rw [Table.mem_def, hrequests] at hrequest
    cases hrequest
  constructor
  · intro id id' request request' hrequest
    rw [hnone] at hrequest
    cases hrequest
  · intro id request hrequest
    rw [hnone] at hrequest
    cases hrequest
  · rw [hevents]
    intro e he
    cases he

/-- In every run a task has one pending request at most and stands where that request
paused it, and a step that moves it from there closes the request. -/
theorem paused_of_run (h : (pausingSystem rt).Reachable db) :
    (∀ id id' request request', db.approvalRequests.get? id = some request →
      db.approvalRequests.get? id' = some request' → request.status = .pending →
        request'.status = .pending → request.taskId = request'.taskId → id = id') ∧
    (∀ id request, db.approvalRequests.get? id = some request → request.status = .pending →
      ∃ task, db.tasks.get? request.taskId = some task ∧ PausedBy task request) ∧
    ∀ id request task' db', db.approvalRequests.get? id = some request →
      request.status = .pending → PauseStep rt db db' →
        db'.tasks.get? request.taskId = some task' → ¬ PausedBy task' request →
          ∃ request', db'.approvalRequests.get? id = some request' ∧
            request'.status ≠ .pending := by
  have hpaused := paused_of_reachable h
  refine ⟨hpaused.single, hpaused.paused, ?_⟩
  intro id request task' db' hrequest hpending hstep htask' hmoved
  have hkept := hstep.keeps hpaused
  obtain ⟨request', hrequest'⟩ := Option.isSome_iff_exists.mp
    (hkept.requests.kept id (Option.isSome_iff_exists.mpr ⟨request, hrequest⟩))
  refine ⟨request', hrequest', ?_⟩
  intro hstatus
  obtain rfl := hkept.requests.still id request request' hrequest hrequest' hstatus
  obtain ⟨task, htask, hstands⟩ := hkept.paused.paused id request' hrequest' hstatus
  rw [htask', Option.some.injEq] at htask
  exact hmoved (htask ▸ hstands)

end Runs

/-! ### A task paused for an unsafe action -/

namespace PauseExample
open HandoffExample (evidence)

def task : Task := { HandoffExample.task with state := .implementing }

def operation : BlockedOperation where
  operationName := "host.run"
  idempotencyKey := "run:1"
  inputFingerprint := String.ofList (List.replicate 64 '0')
  checkpointEvidenceId := none

def store : Database where
  tasks := ⟨[task], List.nodup_singleton _⟩
  policyVersions := ApprovalExample.store.policyVersions
  evidenceRecords := ApprovalExample.store.evidenceRecords

def service : ApprovalService := {}

def escalation : RequestCommand where
  taskId := task.id
  requestId := .ofNat 50
  expectedState := .implementing
  requestType := .unsafeAction
  reasonCode := "UNSAFE_ACTION"
  subjectType := some "BLOCKED_OPERATION"
  subjectId := none
  blockedOperation := some operation
  evidenceIds := [evidence.evidenceId]
  expiresAt := 100
  now := 10
  transitionEventId := .ofNat 51
  eventId := .ofNat 52

/-- The request afterwards. -/
def outcome : Option (Database × ApprovalRequest) := do
  let (_, paused) ← (service.request .plain store escalation).toOption
  let request ← paused.approvalRequests.get? escalation.requestId
  return (paused, request)

set_option maxRecDepth 4000 in
theorem outcome_pending : outcome.map (fun o => o.2.status) = some .pending := by
  decide +kernel

end PauseExample

open PauseExample in
theorem paused_of_run_escalated : ∃ result paused request task,
    service.request .plain store escalation = .ok (result, paused) ∧
      paused.approvalRequests.get? escalation.requestId = some request ∧
      paused.tasks.get? request.taskId = some task ∧ PausedBy task request := by
  have hpending := outcome_pending
  simp only [outcome, Option.bind_eq_bind, Option.map_eq_some_iff, Option.bind_eq_some_iff,
    Option.pure_def, Option.some.injEq] at hpending
  obtain ⟨_, ⟨⟨result, paused⟩, hopened, request, hrequest, rfl⟩, hstatus⟩ := hpending
  have haccepted := Except.ok_of_toOption hopened
  have hinit : (pausingSystem .plain).Reachable store := .of_init ⟨rfl, rfl⟩
  have hreachable : (pausingSystem .plain).Reachable paused :=
    hinit.tail (.request service _ _ _ _ haccepted)
  obtain ⟨task, htask, hstands⟩ := (paused_of_run hreachable).2.1 _ request hrequest hstatus
  exact ⟨result, paused, request, task, haccepted, hrequest, htask, hstands⟩

end ControlPlane
