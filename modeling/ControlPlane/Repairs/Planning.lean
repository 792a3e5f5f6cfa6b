import ControlPlane.Repairs.Inputs

/-!
# Plans and transactions agree

What a session plans, the transaction of the job checks again on the store as it is then. On the
store that was planned on the checks refuse exactly what planning asks a person about; and once the
job is inserted, plans and transactions answer with it.

## Main definitions

* `WithinBudget`: nobody has to be asked.
* `PlannedRepair.job`: the row of a planned repair.

## Main results

* `escalates_iff_refused`
* `planned_repair_inserted`
* `planned_input_kept`
-/
namespace ControlPlane.RepairLoop

section Plans
variable {svc : ValidationRepairService} {rt : Runtime} {db : Database} {runId : UUID} {now : Time}

/-- What a context is read from. -/
structure ReadsFailure (svc : ValidationRepairService) (rt : Runtime) (db : Database)
    (context : RepairContext) (run : ValidationRun) (task : Task) : Prop where
  storedRun : db.validationRuns.get? context.validationRunId = some run
  storedTask : db.tasks.get? context.taskId = some task
  ofTask : run.taskId = task.id
  state : task.state = .validating
  outcome : run.outcome = .failed
  current : runIsCurrent db task run = true
  fingerprint : context.failureFingerprint = svc.fingerprint rt run
  retryCount : context.taskRetryCount = task.retryCount

theorem repairContext_cases {context : RepairContext}
    (h : repairContext svc rt db runId now = .ok context) :
    context.validationRunId = runId ∧ ∃ run task, ReadsFailure svc rt db context run task := by
  simp only [repairContext, Except.bind_eq_ok, Except.orThrow_eq_ok, Except.require_eq_ok,
    Except.pure_eq_ok] at h
  obtain ⟨run, hrun, task, htask, contract, -, configuration, -, policy, -, briefDecision, -, _, -,
    promptPolicy, -, decisionId, -, manifest, -, _, ⟨hstate, houtcome, -, -, hcurrent⟩, decision,
    -, _, -, limits, -, rfl⟩ := h
  have hrunId : run.id = runId := Table.key_of_get? hrun
  have htaskId : task.id = run.taskId := Table.key_of_get? htask
  exact ⟨hrunId, run, task, hrunId ▸ hrun, htaskId ▸ htask, htaskId.symm, hstate, houtcome,
    hcurrent, rfl, rfl⟩

/-- A repair is planned when the run has none, from a context of which nothing asks a person. -/
theorem plan_cases {outcome : ValidationOutcome} {isCurrent : Bool}
    {prompt : RepairContext → CompiledPrompt} {planned : PlannedRepair}
    (h : plan svc rt db runId outcome isCurrent prompt now = .ok (.schedule planned)) :
    replayedRepairSchedule db runId = none ∧
      repairContext svc rt db runId now = .ok planned.context ∧ planned.input.Valid ∧
        ∃ task, db.tasks.get? planned.context.taskId = some task ∧
          planned.retryApprovalDecisionId =
            humanRetryAuthorization db task planned.context.failureFingerprint ∧
          escalation db planned.context planned.retryApprovalDecisionId = none := by
  rw [plan] at h
  split at h
  · simp only [Except.pure_eq_ok] at h
    cases h
  · rename_i hreplayed
    simp only [Except.bind_eq_ok, Except.orThrow_eq_ok] at h
    obtain ⟨_, -, context, hcontext, task, htask, h⟩ := h
    split at h
    · simp only [Except.pure_eq_ok] at h
      cases h
    · rename_i hescalation
      simp only [Except.bind_eq_ok, Except.require_eq_ok, Except.pure_eq_ok] at h
      obtain ⟨_, hvalid, h⟩ := h
      obtain rfl := RepairPlan.schedule.inj h
      exact ⟨hreplayed, hcontext, hvalid, task, htask, rfl, hescalation⟩

/-- The decision a plan names is current. -/
theorem retryApprovalIsCurrent_authorization (task : Task) (fingerprint : String) :
    retryApprovalIsCurrent db task fingerprint (humanRetryAuthorization db task fingerprint) =
      (humanRetryAuthorization db task fingerprint).isSome := by
  cases h : humanRetryAuthorization db task fingerprint with
  | none => rfl
  | some decisionId =>
    have hfound := List.find?_some h
    rw [Bool.and_eq_true] at hfound
    exact hfound.1

theorem mem_repairs {job : BackgroundJob} :
    job ∈ db.backgroundJobs.select (·.jobType = validationRepairJobType) ↔
      job ∈ db.backgroundJobs ∧ job.jobType = validationRepairJobType := by
  rw [Table.select, List.mem_filter, decide_eq_true_eq]
  rfl

/-- No repair is of a run that has none. -/
theorem run_ne_of_replayed (h : replayedRepairSchedule db runId = none) {job : BackgroundJob}
    (hjob : job ∈ db.backgroundJobs) (htype : job.jobType = validationRepairJobType) :
    inputText job "validation_run_id" ≠ some runId.str := by
  have hnone := List.find?_eq_none.mp h job
    ((List.mem_insertionSort _).mpr (mem_repairs.mpr ⟨hjob, htype⟩))
  rwa [decide_eq_true_eq] at hnone

theorem mem_repairJobs {job : BackgroundJob} {taskId : UUID} :
    job ∈ repairJobs db taskId ↔ job ∈ db.backgroundJobs ∧
      job.taskId = some taskId ∧ job.jobType = validationRepairJobType := by
  rw [repairJobs, Table.select, List.mem_filter, Bool.and_eq_true, decide_eq_true_eq,
    decide_eq_true_eq]
  rfl

/-- Nobody has to be asked: attempts are left, and the failure was not repaired before. -/
def WithinBudget (db : Database) (context : RepairContext) : Prop :=
  context.taskRetryCount < context.maxAttempts ∧ ∀ job ∈ repairJobs db context.taskId,
    inputText job "failure_fingerprint" ≠ some context.failureFingerprint

section Checks
variable {context : RepairContext} {run : ValidationRun} {task : Task} {retryId : Option UUID}

/-- Planning asks nobody within the budget, or when a person has decided. -/
theorem escalation_eq_none_iff (hfresh : ∀ job ∈ repairJobs db context.taskId,
      inputText job "validation_run_id" ≠ some context.validationRunId.str) :
    escalation db context retryId = none ↔ retryId.isSome = true ∨ WithinBudget db context := by
  have hsame : ((repairJobs db context.taskId).any fun job =>
      inputText job "validation_run_id" = some context.validationRunId.str) = false :=
    List.any_eq_false.mpr fun job hjob => by simpa using hfresh job hjob
  have hrepeated : ((repairJobs db context.taskId).any fun job =>
      inputText job "validation_run_id" ≠ some context.validationRunId.str &&
        inputText job "failure_fingerprint" = some context.failureFingerprint) = false ↔
      ∀ job ∈ repairJobs db context.taskId,
        inputText job "failure_fingerprint" ≠ some context.failureFingerprint := by
    rw [List.any_eq_false]
    refine forall₂_congr fun job hjob => ?_
    simp [hfresh job hjob]
  rw [WithinBudget, ← hrepeated]
  cases retryId with
  | some decisionId => simp [escalation]
  | none =>
    simp only [escalation, hsame, Bool.not_false, Bool.true_and, Option.isNone_none, Bool.and_true,
      Option.isSome_none, Bool.false_eq_true, false_or, ite_eq_right_iff, reduceCtorEq, imp_false,
      Bool.or_eq_true, decide_eq_true_eq, not_or, not_le, Bool.not_eq_true]
    exact and_comm

/-- The transaction accepts a repair within the budget, or one that a person has decided. -/
theorem validateRepairSchedule_eq_ok_iff (hreads : ReadsFailure svc rt db context run task)
    (hkey : ∀ job ∈ repairJobs db context.taskId,
      job.idempotencyKey ≠ repairKey context.validationRunId) :
    validateRepairSchedule svc rt context.validationRunId context.failureFingerprint
        context.maxAttempts retryId db task = .ok () ↔
      retryApprovalIsCurrent db task context.failureFingerprint retryId = true ∨
        WithinBudget db context := by
  have htaskId : task.id = context.taskId := Table.key_of_get? hreads.storedTask
  have hnone : ((repairJobs db context.taskId).any
      (·.idempotencyKey = repairKey context.validationRunId)) = false :=
    List.any_eq_false.mpr fun job hjob => by simpa using hkey job hjob
  have hrepairable : ((db.validationRuns.get? context.validationRunId).any fun run =>
      run.taskId = task.id && run.outcome = .failed &&
        svc.fingerprint rt run = context.failureFingerprint && runIsCurrent db task run) =
          true := by
    simp [hreads.storedRun, hreads.ofTask, hreads.outcome, hreads.fingerprint, hreads.current]
  have hrepeated : ((repairJobs db context.taskId).any fun job =>
      inputText job "failure_fingerprint" = some context.failureFingerprint) = false ↔
      ∀ job ∈ repairJobs db context.taskId,
        inputText job "failure_fingerprint" ≠ some context.failureFingerprint := by
    rw [List.any_eq_false]
    exact forall₂_congr fun job hjob => by simp
  rw [validateRepairSchedule, htaskId, if_neg (by simp [hnone]), Except.require_eq_ok,
    WithinBudget, ← hrepeated, hreads.retryCount]
  rw [htaskId] at hrepairable
  constructor
  · rintro ⟨-, -, hbudget, hrepeat⟩
    by_cases hhuman : retryApprovalIsCurrent db task context.failureFingerprint retryId = true
    · exact .inl hhuman
    · exact .inr ⟨hbudget.resolve_right hhuman, hrepeat.resolve_left hhuman⟩
  · rintro (hhuman | ⟨hbudget, hrepeat⟩)
    · exact ⟨hreads.state, hrepairable, .inr hhuman, .inl hhuman⟩
    · exact ⟨hreads.state, hrepairable, .inl hbudget, .inr hrepeat⟩

/-- Planning asks a person exactly when the transaction would refuse. -/
theorem escalation_eq_none_iff_valid (hreplayed : replayedRepairSchedule db runId = none)
    (hcontext : repairContext svc rt db runId now = .ok context)
    (htask : db.tasks.get? context.taskId = some task)
    (hkey : ∀ job ∈ repairJobs db context.taskId, job.idempotencyKey ≠ repairKey runId) :
    escalation db context (humanRetryAuthorization db task context.failureFingerprint) = none ↔
      validateRepairSchedule svc rt runId context.failureFingerprint context.maxAttempts
        (humanRetryAuthorization db task context.failureFingerprint) db task = .ok () := by
  obtain ⟨rfl, run, task', hreads⟩ := repairContext_cases hcontext
  obtain rfl : task' = task := Option.some.inj (hreads.storedTask.symm.trans htask)
  rw [escalation_eq_none_iff fun job hjob => run_ne_of_replayed hreplayed
      (mem_repairJobs.mp hjob).1 (mem_repairJobs.mp hjob).2.2,
    validateRepairSchedule_eq_ok_iff hreads hkey, retryApprovalIsCurrent_authorization]

end Checks

/-- On the store it was planned on, the checks of its transaction accept every repair. -/
theorem planned_repair_valid {outcome : ValidationOutcome} {isCurrent : Bool}
    {prompt : RepairContext → CompiledPrompt} {planned : PlannedRepair}
    (h : plan svc rt db runId outcome isCurrent prompt now = .ok (.schedule planned)) :
    ∃ task, db.tasks.get? planned.context.taskId = some task ∧
      validateRepairSchedule svc rt planned.context.validationRunId
        planned.context.failureFingerprint planned.context.maxAttempts
        planned.retryApprovalDecisionId db task = .ok () := by
  obtain ⟨hreplayed, hcontext, -, task, htask, hretry, hescalation⟩ := plan_cases h
  obtain ⟨rfl, -⟩ := repairContext_cases hcontext
  have htaskId : task.id = planned.context.taskId := Table.key_of_get? htask
  refine ⟨task, htask, ?_⟩
  by_cases hkey : ∃ job ∈ repairJobs db planned.context.taskId,
      job.idempotencyKey = repairKey planned.context.validationRunId
  · obtain ⟨job, hjob, hkey⟩ := hkey
    exact if_pos (List.any_eq_true.mpr ⟨job, htaskId ▸ hjob, decide_eq_true hkey⟩)
  · push Not at hkey
    rw [hretry] at hescalation ⊢
    exact (escalation_eq_none_iff_valid hreplayed hcontext htask hkey).mp hescalation

/-- The row of a planned repair. -/
def PlannedRepair.job (planned : PlannedRepair) (svc : ValidationRepairService) (rt : Runtime)
    (now : Time) (jobId : UUID) (task : Task) (payload : Json) : BackgroundJob :=
  (planned.command svc rt now jobId).job task validationRepairJobType
    (repairKey planned.context.validationRunId) payload
    (scheduleFingerprint rt planned.context.taskId validationRepairJobType payload .standard none)

section Transactions
variable {planned : PlannedRepair} {task : Task} {payload : Json} {jobId : UUID}

/-- The transaction of a repair that is accepted inserts its row. -/
theorem schedule_inserts {jobs : Table BackgroundJob}
    (hpayload : safePayload rt planned.input.payload "input" = .ok payload)
    (htask : db.tasks.get? planned.context.taskId = some task)
    (hvalid : validateRepairSchedule svc rt planned.context.validationRunId
      planned.context.failureFingerprint planned.context.maxAttempts planned.retryApprovalDecisionId
      db task = .ok ())
    (hkey : jobOfKey db (repairKey planned.context.validationRunId) = none)
    (hstate : task.state.blocksJobs = false) (houtage : hasUnresolvedOutage db task.id = false)
    (hjobs : db.backgroundJobs.insert? (planned.job svc rt now jobId task payload) = some jobs) :
    BackgroundJobService.schedule rt db (planned.command svc rt now jobId) =
      .ok (⟨jobId, false⟩, ensureFencingCounter { db with backgroundJobs := jobs }) := by
  simp only [PlannedRepair.job, PlannedRepair.command] at hjobs
  simp only [BackgroundJobService.schedule, PlannedRepair.command, requiredIdentifier_jobType,
    requiredIdentifier_repairKey, hpayload, htask, hvalid, hkey, Except.ok_bind, Except.orThrow,
    Except.require_of hstate, Except.require_of houtage, hjobs]
  rfl

/-- The transaction of a repair whose row is there answers with it. -/
theorem schedule_replays {job : BackgroundJob} {now' : Time} {jobId' : UUID}
    (hpayload : safePayload rt planned.input.payload "input" = .ok payload)
    (htask : db.tasks.get? planned.context.taskId = some task)
    (hjob : job = planned.job svc rt now jobId task payload)
    (hkey : jobOfKey db (repairKey planned.context.validationRunId) = some job) :
    BackgroundJobService.schedule rt db (planned.command svc rt now' jobId') =
      .ok (⟨jobId, true⟩, db) := by
  have htaskId : task.id = planned.context.taskId := Table.key_of_get? htask
  have hstored : job ∈ db.backgroundJobs := List.mem_of_find?_eq_some hkey
  have hexists : ((repairJobs db task.id).any
      (·.idempotencyKey = repairKey planned.context.validationRunId)) = true := by
    refine List.any_eq_true.mpr ⟨job, mem_repairJobs.mpr ⟨hstored, ?_, ?_⟩, ?_⟩
    all_goals rw [hjob]
    · rfl
    · rfl
    · exact decide_eq_true rfl
  have hvalid : validateRepairSchedule svc rt planned.context.validationRunId
      planned.context.failureFingerprint planned.context.maxAttempts planned.retryApprovalDecisionId
      db task = .ok () := if_pos hexists
  have hmatching : matchingSchedule job planned.context.taskId validationRepairJobType
      (scheduleFingerprint rt planned.context.taskId validationRepairJobType payload .standard
        none) = .ok ⟨jobId, true⟩ := by
    rw [matchingSchedule, Except.require_of]
    · rw [hjob]
      rfl
    · rw [hjob]
      exact ⟨congrArg some htaskId, rfl, rfl⟩
  simp only [BackgroundJobService.schedule, PlannedRepair.command, requiredIdentifier_jobType,
    requiredIdentifier_repairKey, hpayload, htask, hvalid, hkey, Except.ok_bind, Except.orThrow,
    hmatching]
  rfl

/-- A run whose only repair is one job is answered with that job. -/
theorem plan_replays {job : BackgroundJob} (hjob : job ∈ db.backgroundJobs)
    (htype : job.jobType = validationRepairJobType)
    (hrun : inputText job "validation_run_id" = some runId.str)
    (honly : ∀ job' ∈ db.backgroundJobs, job'.jobType = validationRepairJobType →
      inputText job' "validation_run_id" = some runId.str → job' = job)
    (outcome : ValidationOutcome) (isCurrent : Bool) (prompt : RepairContext → CompiledPrompt) :
    plan svc rt db runId outcome isCurrent prompt now = .ok (.replayed job) := by
  have hreplayed : replayedRepairSchedule db runId = some job := by
    rw [replayedRepairSchedule]
    cases hfound : List.find? _ _ with
    | none =>
      refine absurd hrun ?_
      simpa using List.find?_eq_none.mp hfound job
        ((List.mem_insertionSort _).mpr (mem_repairs.mpr ⟨hjob, htype⟩))
    | some job' =>
      have hmem := mem_repairs.mp
        ((List.mem_insertionSort _).mp (List.mem_of_find?_eq_some hfound))
      have hrun' := List.find?_some hfound
      rw [decide_eq_true_eq] at hrun'
      rw [honly job' hmem.1 hmem.2 hrun']
  rw [plan, hreplayed]
  rfl

/-- **The input of a repair is kept as it is**: when no rule of redaction applies to the text and
the label of its prompt, what is stored with the job of a planned repair is its input, field by
field; so none of its identifiers, digests and numbers is ever taken for a secret. -/
theorem planned_input_kept {outcome : ValidationOutcome} {isCurrent : Bool}
    {prompt : RepairContext → CompiledPrompt}
    (h : plan svc rt db runId outcome isCurrent prompt now = .ok (.schedule planned))
    (hcontent : Untouched rt.unicode planned.prompt.content)
    (hlabel : ∀ label ∈ planned.prompt.evaluationLabel, Untouched rt.unicode label)
    (hids : 22 + planned.prompt.evidenceIds.length < maxEvidenceNodes)
    (hbytes : (rt.dumps planned.input.payload).utf8ByteSize ≤ maxEvidenceBytes)
    (hlength : encodedLength rt planned.input.payload ≤ 1024 * 1024) :
    safePayload rt planned.input.payload "input" = .ok planned.input.payload := by
  obtain ⟨-, -, hvalid, -⟩ := plan_cases h
  obtain ⟨n, hcounted⟩ := counted_payload planned.input hids
  exact safePayload_untouched (wellKeyed_payload _) (untouched_payload hvalid hcontent hlabel)
    hcounted hbytes hlength

end Transactions

end Plans

/-! ### A repair that is planned -/

namespace RepairExample

def sha (c : Char) : String := String.ofList (List.replicate 40 c)

def task : Task where
  id := .ofNat 1
  repository := "owner/app"
  state := .validating
  briefApprovalDecisionId := some (.ofNat 2)
  repositoryConfigurationId := some (.ofNat 3)
  validationContractId := some (.ofNat 4)
  ownerId := localOwnerId
  rootCorrelationId := .ofNat 5

def run : ValidationRun where
  id := .ofNat 6
  taskId := task.id
  validationContractId := .ofNat 4
  repositoryConfigurationId := .ofNat 3
  commitSha := sha 'a'
  treeSha := sha 'b'
  outcome := .failed

def attempt : TaskEvent where
  id := .ofNat 7
  taskId := task.id
  sequence := 1
  eventType := "TASK_TRANSITION"
  payload := .obj [("validation_candidate",
    .obj [("commit_sha", .str run.commitSha), ("tree_sha", .str run.treeSha)])]
  occurredAt := 1
  transitionKind := some .beginValidation
  transitionToState := some .validating
  ownerId := localOwnerId
  rootCorrelationId := task.rootCorrelationId

def decided : TaskEvent where
  id := .ofNat 8
  taskId := task.id
  sequence := 2
  eventType := validationDecidedEventType
  payload := .obj [("decision_evidence_id", .str (UUID.ofNat 9).str)]
  occurredAt := 2
  ownerId := localOwnerId
  rootCorrelationId := task.rootCorrelationId
  causationId := some run.id

def record (id : ℕ) (evidenceType : String) : EvidenceRecord where
  id := .ofNat id
  taskId := some task.id
  validationRunId := some run.id
  evidenceType
  origin := "control-plane"
  contentHash := ""
  artifact := none
  capturedAt := 2
  accessClassification := .taskOwner
  retentionPolicy := .taskLifetime
  correctionOfId := none
  ownerId := localOwnerId
  actorId := "control-plane"
  rootCorrelationId := task.rootCorrelationId
  causationId := none
  parentCorrelationId := none

def store : Database where
  tasks := ⟨[task], List.nodup_singleton _⟩
  taskEvents := ⟨[attempt, decided], by decide⟩
  policyVersions := ⟨[⟨.ofNat 11, "mvp", 1, .null, 1, localOwnerId⟩], List.nodup_singleton _⟩
  evidenceRecords := ⟨[record 9 "validation-decision", record 10 "validation-evidence-manifest"],
    by decide⟩
  validationContracts := ⟨[⟨.ofNat 4, task.id, 1, .ofNat 12⟩], List.nodup_singleton _⟩
  repositoryConfigurations := ⟨[{ id := .ofNat 3, version := 1 }], List.nodup_singleton _⟩
  validationRuns := ⟨[run], List.nodup_singleton _⟩
  briefApprovalDecisions :=
    ⟨[⟨.ofNat 2, task.id, .ofNat 12, .autoAcceptedByPolicy, some (.ofNat 11), none⟩],
      List.nodup_singleton _⟩

def service : ValidationRepairService where
  results run := { run with
    acceptanceCriterionResults := [], operationResults := [], assertionResults := [] }
  loads _ _ := true
  print _ := ""

def context : RepairContext where
  taskId := task.id
  taskRetryCount := 0
  validationRunId := run.id
  failedCommitSha := run.commitSha
  failedTreeSha := run.treeSha
  validationContractId := .ofNat 4
  validationContractVersion := 1
  repositoryConfigurationId := .ofNat 3
  repositoryConfigurationVersion := 1
  promptPolicyVersionId := .ofNat 11
  decisionEvidenceId := .ofNat 9
  manifestEvidenceId := .ofNat 10
  failureFingerprint := service.fingerprint .plain run
  maxAttempts := 2
  approvalLifetimeSeconds := 86400

def prompt : CompiledPrompt where
  taskId := task.id
  role := .implementer
  templateId := .ofNat 13
  templateVersion := 1
  policyVersionId := .ofNat 11
  evaluationLabel := none
  content := "Repair"
  evidenceIds := [.ofNat 9, .ofNat 10]

/-- The first repair of the run. -/
def planned : PlannedRepair := ⟨context, prompt, none⟩

theorem plan_first : plan service .plain store run.id .failed true (fun _ => prompt) 10 =
    .ok (.schedule planned) := by
  have hreplayed : replayedRepairSchedule store run.id = none := rfl
  have hcontext : repairContext service .plain store run.id 10 = .ok context := by decide +kernel
  have hretry : humanRetryAuthorization store task context.failureFingerprint = none := rfl
  have hescalation : escalation store context none = none := by decide +kernel
  have htask : store.tasks.get? context.taskId = some task := rfl
  have hvalid : (⟨context, prompt, none⟩ : PlannedRepair).input.Valid := by decide +kernel
  simp only [plan, hreplayed, hcontext, htask, hretry, hescalation, Except.ok_bind, and_self,
    Except.orThrow, Except.require_of trivial, Except.require_of hvalid]
  rfl

theorem untouched_content : Untouched Runtime.plain.unicode planned.prompt.content :=
  untouched_inert (by decide +kernel) (by decide)

theorem untouched_label :
    ∀ label ∈ planned.prompt.evaluationLabel, Untouched Runtime.plain.unicode label :=
  fun _ hlabel => absurd hlabel (Option.not_mem_none _)

theorem payload_sizes :
    (Runtime.plain.dumps planned.input.payload).utf8ByteSize ≤ maxEvidenceBytes ∧
      encodedLength .plain planned.input.payload ≤ 1024 * 1024 := by
  have h : 4 * encodedLength .plain planned.input.payload ≤ 1024 * 1024 := by decide +kernel
  exact ⟨(utf8ByteSize_dumps_le _).trans h, by omega⟩

theorem planned_input_kept_first :
    safePayload .plain planned.input.payload "input" = .ok planned.input.payload :=
  planned_input_kept plan_first untouched_content untouched_label (by decide)
    payload_sizes.1 payload_sizes.2

theorem safePayload_payload :
    safePayload .plain planned.input.payload "input" = .ok planned.input.payload := by
  obtain ⟨-, -, hvalid, -⟩ := plan_cases plan_first
  exact safePayload_untouched (wellKeyed_payload _)
    (untouched_payload hvalid untouched_content untouched_label) (by decide : _ = some 25)
    payload_sizes.1 payload_sizes.2

end RepairExample

end ControlPlane.RepairLoop
