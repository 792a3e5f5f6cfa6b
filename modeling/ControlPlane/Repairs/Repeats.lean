import ControlPlane.Repairs.Planning

/-!
# Repairs that repeat

However plans, transactions and other writes follow each other, a failed run is repaired by one
job, and a failure that was repaired before is repaired again on the decision of a person only.

## Main definitions

* `Original`: the jobs that were scheduled, not resumed.
* `Granted`: a person decided that the failure of a job is tried again.
* `Sound`: the invariant.

## Main results

* `repeated_repairs_granted`
-/
namespace ControlPlane.RepairLoop

/-! ### The invariant -/

/-- The repairs that were scheduled. A job that resumes another one has its input. -/
def Original (job : BackgroundJob) : Prop :=
  job.jobType = validationRepairJobType ∧ job.parentCorrelationId = none

/-- A person decided that the failure of a job is tried again, and the job names the decision. -/
def Granted (db : Database) (job : BackgroundJob) : Prop :=
  ∃ request ∈ db.approvalRequests, request.status = .approved ∧ request.decision = some .retry ∧
    request.requestType = "RETRY_LIMIT" ∧ job.taskId = some request.taskId ∧
    (∃ decisionId, request.decisionId = some decisionId ∧
      inputText job "retry_approval_decision_id" = some decisionId.str) ∧
    ∃ fingerprint, inputText job "failure_fingerprint" = some fingerprint ∧
      coversFailure request fingerprint = true

/-- A job was inserted for a run whose failure has a fingerprint. -/
structure Scheduled (job : BackgroundJob) (validationRunId : UUID) (fingerprint : String) :
    Prop where
  key : job.idempotencyKey = repairKey validationRunId
  run : inputText job "validation_run_id" = some validationRunId.str
  fingerprint : inputText job "failure_fingerprint" = some fingerprint

/-- What holds in every run. -/
structure Sound (svc : ValidationRepairService) (rt : Runtime) (s : RepairState) : Prop where
  planned : ∀ planned ∈ s.planned,
    ∃ run, planned.context.failureFingerprint = svc.fingerprint rt run
  scheduled : ∀ job ∈ s.db.backgroundJobs, Original job →
    ∃ validationRunId fingerprint, Scheduled job validationRunId fingerprint
  single : ∀ job ∈ s.db.backgroundJobs, ∀ job' ∈ s.db.backgroundJobs, Original job →
    Original job' → inputText job "validation_run_id" = inputText job' "validation_run_id" →
    job.id = job'.id
  granted : ∀ job ∈ s.db.backgroundJobs, ∀ job' ∈ s.db.backgroundJobs, Original job →
    Original job' → job.id ≠ job'.id → job.taskId = job'.taskId →
    inputText job "failure_fingerprint" = inputText job' "failure_fingerprint" →
    Granted s.db job ∨ Granted s.db job'

section Bindings
variable {db db' : Database} {job job' : BackgroundJob}

theorem bindings_eq (h : bindings job' = bindings job) : job'.id = job.id ∧
    job'.taskId = job.taskId ∧ job'.jobType = job.jobType ∧
    job'.inputPayload = job.inputPayload ∧ job'.idempotencyKey = job.idempotencyKey ∧
    job'.parentCorrelationId = job.parentCorrelationId := by
  simpa only [bindings, Prod.mk.injEq] using h

theorem inputText_eq (h : bindings job' = bindings job) (field : String) :
    inputText job' field = inputText job field := by
  rw [inputText, inputText, (bindings_eq h).2.2.2.1]

theorem Original.of_bindings (horiginal : Original job') (h : bindings job' = bindings job) :
    Original job := by
  obtain ⟨-, -, htype, -, -, hparent⟩ := bindings_eq h
  exact ⟨htype ▸ horiginal.1, hparent ▸ horiginal.2⟩

/-- A grant stays. -/
theorem Granted.kept (hgranted : Granted db job) (h : bindings job' = bindings job)
    (happrovals : ∀ request ∈ db.approvalRequests, request.status = .approved →
      request ∈ db'.approvalRequests) : Granted db' job' := by
  obtain ⟨request, hmem, happroved, hretry, htype, htask, hdecision, hcovers⟩ := hgranted
  refine ⟨request, happrovals request hmem happroved, happroved, hretry, htype, ?_, ?_, ?_⟩
  · rw [(bindings_eq h).2.1, htask]
  · rwa [inputText_eq h]
  · rwa [inputText_eq h]

/-- A scheduled repair was there before another service wrote. -/
theorem LeavesRepairs.exists_before (h : LeavesRepairs db db') (hjob : job' ∈ db'.backgroundJobs)
    (horiginal : Original job') :
    ∃ job ∈ db.backgroundJobs, bindings job' = bindings job := by
  obtain hbefore | htype | hresumed := h.new job' hjob
  · exact hbefore
  · exact absurd horiginal.1 htype
  · rw [horiginal.2] at hresumed
    cases hresumed

end Bindings

section Steps
variable {svc : ValidationRepairService} {rt : Runtime} {s : RepairState}

theorem Sound.other (hs : Sound svc rt s) {db' : Database} (h : LeavesRepairs s.db db') :
    Sound svc rt { s with db := db' } where
  planned := hs.planned
  scheduled job' hjob' horiginal := by
    obtain ⟨job, hjob, hbindings⟩ := h.exists_before hjob' horiginal
    obtain ⟨runId, fingerprint, hscheduled⟩ :=
      hs.scheduled job hjob (horiginal.of_bindings hbindings)
    obtain ⟨-, -, -, -, hkey, -⟩ := bindings_eq hbindings
    exact ⟨runId, fingerprint, hkey.trans hscheduled.key,
      (inputText_eq hbindings _).trans hscheduled.run,
      (inputText_eq hbindings _).trans hscheduled.fingerprint⟩
  single job₁ hjob₁ job₂ hjob₂ horiginal₁ horiginal₂ hrun := by
    obtain ⟨job, hjob, hbindings₁⟩ := h.exists_before hjob₁ horiginal₁
    obtain ⟨job', hjob', hbindings₂⟩ := h.exists_before hjob₂ horiginal₂
    rw [inputText_eq hbindings₁, inputText_eq hbindings₂] at hrun
    rw [(bindings_eq hbindings₁).1, (bindings_eq hbindings₂).1]
    exact hs.single job hjob job' hjob' (horiginal₁.of_bindings hbindings₁)
      (horiginal₂.of_bindings hbindings₂) hrun
  granted job₁ hjob₁ job₂ hjob₂ horiginal₁ horiginal₂ hne htask hfingerprint := by
    obtain ⟨job, hjob, hbindings₁⟩ := h.exists_before hjob₁ horiginal₁
    obtain ⟨job', hjob', hbindings₂⟩ := h.exists_before hjob₂ horiginal₂
    rw [inputText_eq hbindings₁, inputText_eq hbindings₂] at hfingerprint
    rw [(bindings_eq hbindings₁).1, (bindings_eq hbindings₂).1] at hne
    rw [(bindings_eq hbindings₁).2.1, (bindings_eq hbindings₂).2.1] at htask
    refine (hs.granted job hjob job' hjob' (horiginal₁.of_bindings hbindings₁)
      (horiginal₂.of_bindings hbindings₂) hne htask hfingerprint).imp ?_ ?_
    · exact fun hgranted => hgranted.kept hbindings₁ h.approvals
    · exact fun hgranted => hgranted.kept hbindings₂ h.approvals

theorem Sound.plan (hs : Sound svc rt s) {runId : UUID} {outcome : ValidationOutcome}
    {isCurrent : Bool} {prompt : RepairContext → CompiledPrompt} {now : Time}
    {planned : PlannedRepair}
    (h : RepairLoop.plan svc rt s.db runId outcome isCurrent prompt now = .ok (.schedule planned)) :
    Sound svc rt { s with planned := planned :: s.planned } := by
  obtain ⟨-, hcontext, -⟩ := plan_cases h
  obtain ⟨-, run, task, hreads⟩ := repairContext_cases hcontext
  refine { hs with planned := fun planned' hplanned' => ?_ }
  rcases List.mem_cons.mp hplanned' with rfl | hplanned'
  · exact ⟨run, hreads.fingerprint⟩
  · exact hs.planned planned' hplanned'

/-- What the transaction of a planned job leaves when it inserts the job. -/
structure Inserts (svc : ValidationRepairService) (rt : Runtime) (planned : PlannedRepair)
    (db db' : Database) (task : Task) (job : BackgroundJob) : Prop where
  valid : validateRepairSchedule svc rt planned.context.validationRunId
    planned.context.failureFingerprint planned.context.maxAttempts planned.retryApprovalDecisionId
    db task = .ok ()
  fresh : jobOfKey db (repairKey planned.context.validationRunId) = none
  inserted : db.backgroundJobs.insert? job = some db'.backgroundJobs
  approvals : db'.approvalRequests = db.approvalRequests
  task : job.taskId = some task.id
  original : Original job
  key : job.idempotencyKey = repairKey planned.context.validationRunId
  payload : safePayload rt planned.input.payload "input" = .ok job.inputPayload

theorem schedule_cases {planned : PlannedRepair} {now : Time} {jobId : UUID} {r : ScheduledJob}
    {db' : Database}
    (h : BackgroundJobService.schedule rt s.db (planned.command svc rt now jobId) = .ok (r, db')) :
    db' = s.db ∨ ∃ task job, Inserts svc rt planned s.db db' task job := by
  simp only [BackgroundJobService.schedule, Except.bind_eq_ok, Except.orThrow_eq_ok] at h
  obtain ⟨jobType, htype, key, hkey, payload, hpayload, task, htask, _, hvalid, h⟩ := h
  obtain rfl := Except.ok.inj (htype.symm.trans requiredIdentifier_jobType)
  obtain rfl := Except.ok.inj (hkey.symm.trans (requiredIdentifier_repairKey _))
  split at h
  · simp only [Except.bind_eq_ok, Except.pure_eq_ok, Prod.mk.injEq] at h
    obtain ⟨_, _, _, rfl⟩ := h
    exact .inl rfl
  · rename_i hfresh
    simp only [Except.bind_eq_ok, Except.require_eq_ok, Except.orThrow_eq_ok, Except.pure_eq_ok,
      Prod.mk.injEq] at h
    obtain ⟨_, _, _, _, jobs, hjobs, _, rfl⟩ := h
    exact .inr ⟨task, _, hvalid, hfresh, hjobs, rfl, rfl, ⟨rfl, rfl⟩, rfl, hpayload⟩

section Inserted
variable {planned : PlannedRepair} {db' : Database} {task : Task} {job job' : BackgroundJob}

/-- The texts of the new job are those of its plan. -/
theorem Inserts.scheduled (h : Inserts svc rt planned s.db db' task job) {run : ValidationRun}
    (hrun : planned.context.failureFingerprint = svc.fingerprint rt run) :
    Scheduled job planned.context.validationRunId planned.context.failureFingerprint where
  key := h.key
  run := text_of_safePayload h.payload (by decide) (by decide) rfl (plain_uuid _)
  fingerprint := by
    refine text_of_safePayload h.payload (by decide) (by decide) rfl ?_
    rw [hrun]
    exact plain_fingerprint rt _

/-- Of a run that is repaired for the first time no repair was there. -/
theorem Inserts.run_ne (h : Inserts svc rt planned s.db db' task job) (hs : Sound svc rt s)
    (hjob : job' ∈ s.db.backgroundJobs) (horiginal : Original job') :
    inputText job' "validation_run_id" ≠ some planned.context.validationRunId.str := by
  obtain ⟨runId, fingerprint, hscheduled⟩ := hs.scheduled job' hjob horiginal
  intro hsame
  have hid : runId.str = planned.context.validationRunId.str :=
    Option.some.inj (hscheduled.run.symm.trans hsame)
  have hkey : job'.idempotencyKey = repairKey planned.context.validationRunId :=
    hscheduled.key.trans (congrArg ("validation-repair:" ++ ·) hid)
  exact List.find?_eq_none.mp h.fresh job' hjob (decide_eq_true hkey)

/-- When a repair of the failure was there, a person decided that it is tried again. -/
theorem Inserts.granted (h : Inserts svc rt planned s.db db' task job)
    (hscheduled : Scheduled job planned.context.validationRunId planned.context.failureFingerprint)
    (hjob : job' ∈ s.db.backgroundJobs) (horiginal : Original job')
    (htask : job'.taskId = job.taskId)
    (hfingerprint : inputText job' "failure_fingerprint" =
      some planned.context.failureFingerprint) :
    Granted db' job := by
  have hmem : job' ∈ repairJobs s.db task.id :=
    mem_repairJobs.mpr ⟨hjob, htask.trans h.task, horiginal.1⟩
  have hrepeated : ((repairJobs s.db task.id).any fun job =>
      inputText job "failure_fingerprint" = some planned.context.failureFingerprint) = true :=
    List.any_eq_true.mpr ⟨job', hmem, decide_eq_true hfingerprint⟩
  have hvalid := h.valid
  rw [validateRepairSchedule] at hvalid
  split at hvalid
  · rename_i hexisting
    obtain ⟨existing, hexists, hkey⟩ := List.any_eq_true.mp hexisting
    exact absurd hkey (List.find?_eq_none.mp h.fresh existing (List.mem_filter.mp hexists).1)
  · rw [Except.require_eq_ok] at hvalid
    obtain ⟨-, -, -, hretry⟩ := hvalid
    rw [hrepeated] at hretry
    have hhuman := hretry.resolve_right (by decide)
    obtain ⟨decisionId, hdecision, hcurrent⟩ := (Option.any_eq_true _ _).mp hhuman
    obtain ⟨request, hrequest, hcovers⟩ := (Option.any_eq_true _ _).mp hcurrent
    have hfound := List.find?_some hrequest
    obtain ⟨hstored, hselected⟩ := List.mem_filter.mp (List.mem_of_find?_eq_some hrequest)
    simp only [Bool.and_eq_true, decide_eq_true_eq] at hselected hfound
    obtain ⟨⟨⟨⟨hrequestTask, htype⟩, happroved⟩, hdecided⟩, -⟩ := hselected
    refine ⟨request, h.approvals ▸ hstored, happroved, hdecided, htype, ?_,
      ⟨decisionId, hfound, ?_⟩, _, hscheduled.fingerprint, hcovers⟩
    · rw [h.task, hrequestTask]
    · refine text_of_safePayload h.payload (by decide) (by decide) ?_ (plain_uuid decisionId)
      have hfield : planned.input.payload.get "retry_approval_decision_id" =
        optionalId planned.retryApprovalDecisionId := rfl
      rw [hfield, hdecision]
      rfl

end Inserted

theorem Sound.insert (hs : Sound svc rt s) {planned : PlannedRepair}
    (hplanned : planned ∈ s.planned)
    {db' : Database} {task : Task} {job : BackgroundJob}
    (h : Inserts svc rt planned s.db db' task job) : Sound svc rt { s with db := db' } := by
  obtain ⟨run, hrun⟩ := hs.planned planned hplanned
  have hscheduled := h.scheduled hrun
  have happrovals : ∀ request ∈ s.db.approvalRequests, request.status = .approved →
      request ∈ db'.approvalRequests := fun request hrequest _ => h.approvals ▸ hrequest
  have hmem : ∀ {job' : BackgroundJob}, job' ∈ db'.backgroundJobs ↔
      job' ∈ s.db.backgroundJobs ∨ job' = job := Table.mem_insert? h.inserted
  refine ⟨hs.planned, fun job' hjob' horiginal => ?_,
    fun job₁ hjob₁ job₂ hjob₂ horiginal₁ horiginal₂ hsame => ?_,
    fun job₁ hjob₁ job₂ hjob₂ horiginal₁ horiginal₂ hne htask hfingerprint => ?_⟩
  · rcases hmem.mp hjob' with hjob' | rfl
    · exact hs.scheduled job' hjob' horiginal
    · exact ⟨_, _, hscheduled⟩
  · rcases hmem.mp hjob₁ with hjob₁ | rfl <;> rcases hmem.mp hjob₂ with hjob₂ | rfl
    · exact hs.single job₁ hjob₁ job₂ hjob₂ horiginal₁ horiginal₂ hsame
    · exact absurd (hsame.trans hscheduled.run) (h.run_ne hs hjob₁ horiginal₁)
    · exact absurd (hsame.symm.trans hscheduled.run) (h.run_ne hs hjob₂ horiginal₂)
    · rfl
  · rcases hmem.mp hjob₁ with hjob₁ | rfl <;> rcases hmem.mp hjob₂ with hjob₂ | rfl
    · refine (hs.granted job₁ hjob₁ job₂ hjob₂ horiginal₁ horiginal₂ hne htask hfingerprint).imp
        ?_ ?_
      · exact fun hgranted => hgranted.kept rfl happrovals
      · exact fun hgranted => hgranted.kept rfl happrovals
    · exact .inr (h.granted hscheduled hjob₁ horiginal₁ htask
        (hfingerprint.trans hscheduled.fingerprint))
    · exact .inl (h.granted hscheduled hjob₂ horiginal₂ htask.symm
        (hfingerprint.symm.trans hscheduled.fingerprint))
    · exact absurd rfl hne

theorem Sound.step (hs : Sound svc rt s) {s' : RepairState} (h : RepairStep svc rt s s') :
    Sound svc rt s' := by
  cases h with
  | plan runId outcome isCurrent prompt now planned h => exact hs.plan h
  | commit planned hplanned now jobId r db' h =>
    obtain rfl | ⟨task, job, hinserts⟩ := schedule_cases h
    · exact hs
    · exact hs.insert hplanned hinserts
  | other db' h => exact hs.other h

theorem sound_of_reachable (hs : (repairSystem svc rt).Reachable s) : Sound svc rt s := by
  refine hs.invariant (fun s hinit => ?_) fun s s' h hstep => h.step hstep
  have hnone : ∀ job ∈ s.db.backgroundJobs, ¬ Original job :=
    fun job hjob horiginal => hinit.2 job hjob horiginal.1
  refine ⟨fun planned hplanned => ?_, fun job hjob horiginal => absurd horiginal (hnone job hjob),
    fun job hjob _ _ horiginal _ _ => absurd horiginal (hnone job hjob),
    fun job hjob _ _ horiginal _ _ _ _ => absurd horiginal (hnone job hjob)⟩
  rw [hinit.1] at hplanned
  cases hplanned

end Steps

/-! ### A repair that is scheduled -/

namespace RepairExample

theorem exists_inserted : ∃ db', BackgroundJobService.schedule .plain store
      (planned.command service .plain 10 (.ofNat 20)) = .ok (⟨.ofNat 20, false⟩, db') ∧
    ∃ job ∈ db'.backgroundJobs, Original job := by
  obtain ⟨task', htask, hvalid⟩ := planned_repair_valid plan_first
  obtain rfl : task = task' := Option.some.inj htask
  obtain ⟨jobs, hjobs⟩ : ∃ jobs, store.backgroundJobs.insert?
      (planned.job service .plain 10 (.ofNat 20) task planned.input.payload) = some jobs :=
    Table.exists_insert? rfl
  refine ⟨_, schedule_inserts safePayload_payload htask hvalid rfl rfl rfl hjobs, _,
    (Table.mem_insert? hjobs).mpr (.inr rfl), rfl, rfl⟩

end RepairExample

end ControlPlane.RepairLoop
