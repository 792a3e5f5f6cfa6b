import ControlPlane.Jobs.Fencing

/-!
# Checkpoints over whole runs

The checkpoints of a job are a log that only grows. A job starts from what it inherits; its
rows are numbered from there without gaps, and the job always stands at the last of them. What
was recorded once is answered again from its row.

## Main results

* `checkpoints_of_run`: the log of every job in every store a run reaches.
-/
namespace ControlPlane

/-! ### Where a job stands -/

/-- Where a job stands: the job it resumes, its checkpoint, and the number of that. -/
structure JobStanding where
  parent : Option UUID
  checkpoint : Option Json
  version : ℕ

def BackgroundJob.standing (job : BackgroundJob) : JobStanding :=
  ⟨job.parentCorrelationId, job.checkpoint, job.checkpointVersion⟩

def standingOf (db : Database) (jobId : UUID) : Option JobStanding :=
  (db.backgroundJobs.get? jobId).map BackgroundJob.standing

/-- The checkpoints of a job, in the order they were recorded. -/
def checkpointsOf (db : Database) (jobId : UUID) : List BackgroundJobCheckpoint :=
  db.backgroundJobCheckpoints.select (·.jobId = jobId)

/-- What a new job stands at: nothing, or what the job it resumes stands at. -/
def Inherits (db : Database) (standing : JobStanding) : Prop :=
  standing = ⟨none, none, 0⟩ ∨ ∃ parent before, standingOf db parent = some before ∧
    standing = ⟨some parent, before.checkpoint, before.version⟩

/-- No job moves and no checkpoint is written. -/
structure SameStanding (db db' : Database) : Prop where
  standing : ∀ id, standingOf db' id = standingOf db id
  checkpoints : db'.backgroundJobCheckpoints = db.backgroundJobCheckpoints

/-- Jobs may be new; no other moves and no checkpoint is written. -/
structure Entered (db db' : Database) : Prop where
  kept : ∀ id standing, standingOf db id = some standing → standingOf db' id = some standing
  entered : ∀ id standing, standingOf db id = none → standingOf db' id = some standing →
    Inherits db' standing
  checkpoints : db'.backgroundJobCheckpoints = db.backgroundJobCheckpoints

/-- The next checkpoint of a job is written, under a key that is not taken. -/
structure AppendsCheckpoint (db db' : Database) (row : BackgroundJobCheckpoint)
    (before : JobStanding) :
    Prop where
  before_eq : standingOf db row.jobId = some before
  sequence : row.sequence = before.version + 1
  fresh : checkpointOfKey db row.idempotencyKey = none
  inserted : db.backgroundJobCheckpoints.insert? row = some db'.backgroundJobCheckpoints
  standing : ∀ id, standingOf db' id =
    if id = row.jobId then some ⟨before.parent, some row.payload, row.sequence⟩
    else standingOf db id

/-- At most one checkpoint is written. -/
def Appended (db db' : Database) : Prop :=
  SameStanding db db' ∨ ∃ row before, AppendsCheckpoint db db' row before

section Standing
variable {db db₁ db' : Database} {job job' : BackgroundJob} {lease lease' : BackgroundJobLease}

theorem standingOf_of_get? {id : UUID} (h : db.backgroundJobs.get? id = some job) :
    standingOf db job.id = some job.standing := by
  have hid : job.id = id := Table.key_of_get? h
  rw [standingOf, hid, h]
  rfl

namespace SameStanding

theorem refl (db : Database) : SameStanding db db := ⟨fun _ => rfl, rfl⟩

theorem trans (h : SameStanding db db₁) (h' : SameStanding db₁ db') : SameStanding db db' :=
  ⟨fun id => (h'.standing id).trans (h.standing id), h'.checkpoints.trans h.checkpoints⟩

theorem entered (h : SameStanding db db') : Entered db db' where
  kept id standing hid := (h.standing id).trans hid
  entered id standing hnone hsome := by
    rw [h.standing, hnone] at hsome
    cases hsome
  checkpoints := h.checkpoints

/-- One checkpoint at most, after writes that move no job. -/
theorem appended (h : SameStanding db db₁) (h' : Appended db₁ db') : Appended db db' := by
  rcases h' with h' | ⟨row, before, h'⟩
  · exact .inl (h.trans h')
  · refine .inr ⟨row, before, ?_, h'.sequence, ?_, ?_, fun id => ?_⟩
    · rw [← h.standing]
      exact h'.before_eq
    · rw [checkpointOfKey, ← h.checkpoints]
      exact h'.fresh
    · rw [← h.checkpoints]
      exact h'.inserted
    · rw [h'.standing, h.standing]

/-- Writes to other tables. -/
theorem frame (hjobs : db'.backgroundJobs = db.backgroundJobs)
    (hcheckpoints : db'.backgroundJobCheckpoints = db.backgroundJobCheckpoints) :
    SameStanding db db' :=
  ⟨fun id => by rw [standingOf, standingOf, hjobs], hcheckpoints⟩

/-- A row of a job written back where the job stands. -/
theorem set (job : BackgroundJob) (hstanding : standingOf db job.id = some job.standing)
    (hjobs : db'.backgroundJobs = db.backgroundJobs.set job)
    (hcheckpoints : db'.backgroundJobCheckpoints = db.backgroundJobCheckpoints) :
    SameStanding db db' := by
  refine ⟨fun id => ?_, hcheckpoints⟩
  rw [standingOf, hjobs, Table.get?_set]
  split
  · rename_i hid
    have hid : job.id = id := hid
    subst hid
    rw [Option.map_map]
    rw [standingOf] at hstanding ⊢
    cases hget : db.backgroundJobs.get? job.id with
    | none => rw [hget] at hstanding; cases hstanding
    | some old =>
      rw [hget] at hstanding
      exact hstanding.symm
  · rfl

/-- A loop over jobs, each round of which writes its job back where it stood. -/
theorem foldlM {ε : Type} {step : Database → BackgroundJob → Except ε Database}
    (hstep : ∀ job db db', standingOf db job.id = some job.standing → step db job = .ok db' →
      SameStanding db db')
    (jobs : List BackgroundJob) {db db' : Database}
    (hjobs : ∀ job ∈ jobs, standingOf db job.id = some job.standing)
    (h : jobs.foldlM step db = .ok db') : SameStanding db db' := by
  induction jobs generalizing db with
  | nil =>
    simp only [List.foldlM_nil, Except.pure_eq_ok] at h
    exact h ▸ refl db
  | cons job jobs ih =>
    simp only [List.foldlM_cons, Except.bind_eq_ok] at h
    obtain ⟨db₁, h₁, h⟩ := h
    have hfirst := hstep job db db₁ (hjobs job List.mem_cons_self) h₁
    refine hfirst.trans (ih (fun other hother => ?_) h)
    rw [hfirst.standing]
    exact hjobs other (List.mem_cons_of_mem job hother)

end SameStanding

theorem Appended.then (h : Appended db db₁) (h' : SameStanding db₁ db') : Appended db db' := by
  rcases h with h | ⟨row, before, h⟩
  · exact .inl (h.trans h')
  · refine .inr ⟨row, before, h.before_eq, h.sequence, h.fresh, ?_, fun id => ?_⟩
    · rw [h'.checkpoints]
      exact h.inserted
    · rw [h'.standing, h.standing]

theorem Entered.trans (h : Entered db db₁) (h' : Entered db₁ db') : Entered db db' where
  kept id standing hid := h'.kept id standing (h.kept id standing hid)
  entered id standing hnone hsome := by
    cases hmiddle : standingOf db₁ id with
    | none => exact h'.entered id standing hmiddle hsome
    | some middle =>
      obtain rfl : middle = standing :=
        Option.some.inj ((h'.kept id middle hmiddle).symm.trans hsome)
      rcases h.entered id middle hnone hmiddle with hnew | ⟨parent, before, hparent, hresumes⟩
      · exact .inl hnew
      · exact .inr ⟨parent, before, h'.kept parent before hparent, hresumes⟩
  checkpoints := h'.checkpoints.trans h.checkpoints

/-- A job is inserted. -/
theorem Entered.insert (hinherits : Inherits db job.standing)
    (hjobs : db.backgroundJobs.insert? job = some db'.backgroundJobs)
    (hcheckpoints : db'.backgroundJobCheckpoints = db.backgroundJobCheckpoints) :
    Entered db db' := by
  obtain ⟨hnew, -⟩ := Table.insert?_eq_some.mp hjobs
  have hkept : ∀ id standing, standingOf db id = some standing →
      standingOf db' id = some standing := by
    intro id standing hid
    rw [standingOf, Table.get?_insert? hjobs]
    split
    · rename_i hkey
      rw [standingOf, ← hkey, hnew] at hid
      cases hid
    · exact hid
  refine ⟨hkept, fun id standing hnone hsome => ?_, hcheckpoints⟩
  rw [standingOf, Table.get?_insert? hjobs] at hsome
  split at hsome
  · obtain rfl : job.standing = standing := Option.some.inj hsome
    rcases hinherits with hnothing | ⟨parent, before, hparent, hresumes⟩
    · exact .inl hnothing
    · exact .inr ⟨parent, before, hkept parent before hparent, hresumes⟩
  · rw [standingOf] at hnone
    rw [hnone] at hsome
    cases hsome

theorem standingOf_of_mem (h : job ∈ db.backgroundJobs) :
    standingOf db job.id = some job.standing := standingOf_of_get? (Table.get?_key h)

theorem HoldsLease.standingOf {grant : JobLeaseGrant} {now : Time}
    (h : HoldsLease db grant now job lease) : standingOf db job.id = some job.standing :=
  standingOf_of_get? h.job_eq

end Standing

/-! ### What the operations write -/

section Operations
variable {rt : Runtime} {service : BackgroundJobService} {db db' : Database}
  {grant : JobLeaseGrant} {now : Time} {job job' : BackgroundJob}
  {lease lease' : BackgroundJobLease}

theorem BackgroundJobService.schedule_standing {c : ScheduleCommand} {r : ScheduledJob}
    (h : BackgroundJobService.schedule rt db c = .ok (r, db')) : Entered db db' := by
  simp only [BackgroundJobService.schedule, Except.bind_eq_ok, Except.orThrow_eq_ok] at h
  obtain ⟨jobType, -, key, -, payload, -, task, -, -, -, h⟩ := h
  split at h
  · simp only [Except.bind_eq_ok, Except.pure_eq_ok, Prod.mk.injEq] at h
    obtain ⟨_, _, _, rfl⟩ := h
    exact (SameStanding.refl db).entered
  · simp only [Except.bind_eq_ok, Except.require_eq_ok, Except.orThrow_eq_ok, Except.pure_eq_ok,
      Prod.mk.injEq] at h
    obtain ⟨_, _, _, _, jobs, hjobs, _, rfl⟩ := h
    exact .insert (.inl rfl) hjobs rfl

theorem issueLease_standing {db₁ : Database} {r : ClaimRequest} {recovered : Bool}
    {result : Option JobLeaseGrant} (hsame : SameStanding db db₁)
    (hjob : standingOf db job.id = some job.standing)
    (h : issueLease rt db₁ r job now recovered = .ok (result, db')) : SameStanding db db' := by
  obtain ⟨leases, -, rfl⟩ := issueLease_ok h
  have hjob₁ : standingOf db₁ job.id = some job.standing := (hsame.standing job.id).trans hjob
  exact hsame.trans (.set (job.leaseTo (r.lease rt db₁ job now)) hjob₁ rfl rfl)

theorem claimLoop_standing {r : ClaimRequest} {result : Option JobLeaseGrant} (rounds : ℕ)
    {reading : ℕ} {db : Database} (h : claimLoop rt r rounds reading db = .ok (result, db')) :
    SameStanding db db' := by
  induction rounds generalizing reading db with
  | zero =>
    simp only [claimLoop, Except.ok.injEq, Prod.mk.injEq] at h
    exact h.2 ▸ .refl db
  | succ rounds ih =>
    rw [claimLoop] at h
    cases hnext : nextClaimable db r.jobTypes r.locked (r.clock reading) with
    | none =>
      simp only [hnext, Except.ok.injEq, Prod.mk.injEq] at h
      exact h.2 ▸ .refl db
    | some job =>
      have hjob := standingOf_of_mem (nextClaimable_spec hnext).1
      simp only [hnext] at h
      split at h
      · simp only [Except.bind_eq_ok, Except.orThrow_eq_ok] at h
        obtain ⟨previous, -, h⟩ := h
        split at h
        · simp only [Except.pure_eq_ok, Prod.mk.injEq] at h
          exact h.2 ▸ .refl db
        · split at h
          · refine SameStanding.trans ?_ (ih h)
            exact .set (finishJob job .failed (some "LEASE_EXPIRED_ATTEMPTS_EXHAUSTED")
              previous.fencingToken (r.clock (reading + 1))) hjob rfl rfl
          · refine issueLease_standing ?_ hjob h
            exact .frame rfl rfl
      · exact issueLease_standing (.refl db) hjob h

theorem BackgroundJobService.claimNext_standing {c : ClaimCommand}
    {result : Option JobLeaseGrant}
    (h : BackgroundJobService.claimNext rt db c = .ok (result, db')) : SameStanding db db' := by
  simp only [BackgroundJobService.claimNext, Except.bind_eq_ok] at h
  obtain ⟨_, _, _, _, _, _, h⟩ := h
  exact claimLoop_standing _ h

theorem releaseExpired_standing (hjob : standingOf db job.id = some job.standing)
    (h : releaseExpired now db job = .ok db') : SameStanding db db' := by
  simp only [releaseExpired, Except.bind_eq_ok, Except.pure_eq_ok] at h
  obtain ⟨lease, _, _, _, rfl⟩ := h
  refine .set _ ?_ rfl rfl
  split
  · exact hjob
  · split
    · exact hjob
    · exact hjob

theorem standingOf_of_mem_select {p : BackgroundJob → Bool}
    (h : job ∈ db.backgroundJobs.select p) : standingOf db job.id = some job.standing :=
  standingOf_of_mem (List.mem_of_mem_filter h)

theorem BackgroundJobService.reconcileExpiredLeases_standing {c : ReconcileCommand}
    {ids : List UUID}
    (h : BackgroundJobService.reconcileExpiredLeases db c = .ok (ids, db')) :
    SameStanding db db' := by
  simp only [BackgroundJobService.reconcileExpiredLeases, Except.bind_eq_ok, Except.pure_eq_ok,
    Prod.mk.injEq] at h
  obtain ⟨_, _, _, h, _, rfl⟩ := h
  refine .foldlM (fun job db db' hjob h => releaseExpired_standing hjob h) _ ?_ h
  intro job hmem
  have hsorted := List.mem_of_mem_take hmem
  rw [List.mem_insertionSort] at hsorted
  exact standingOf_of_mem_select hsorted

/-- A checkpoint is answered from its row, or it is the next one of its job. -/
theorem appendCheckpoint_standing {entry : CheckpointEntry} {result : JobCheckpointResult}
    (hjob : standingOf db job.id = some job.standing)
    (h : appendCheckpoint db job lease entry now = .ok (result, job', lease', db')) :
    Appended db db' ∧ job'.id = job.id ∧ standingOf db' job.id = some job'.standing := by
  unfold appendCheckpoint at h
  split at h
  · simp only [Except.bind_eq_ok, Except.pure_eq_ok, Prod.mk.injEq] at h
    obtain ⟨_, _, _, rfl, rfl, rfl⟩ := h
    exact ⟨.inl (.refl db), rfl, hjob⟩
  · rename_i hfresh
    simp only [Except.bind_eq_ok, Except.require_eq_ok, Except.orThrow_eq_ok, Except.pure_eq_ok,
      Prod.mk.injEq] at h
    obtain ⟨_, hversion, checkpoints, hinserted, _, rfl, rfl, rfl⟩ := h
    have hstanding : ∀ id, standingOf
        ({ db with backgroundJobCheckpoints := checkpoints }.putLeased
          (job.atCheckpoint entry lease.fencingToken) (lease.atCheckpoint entry)) id =
        if id = job.id then
          some ⟨job.parentCorrelationId, some entry.payload, entry.expectedVersion + 1⟩
        else standingOf db id := by
      intro id
      have hkey : key (job.atCheckpoint entry lease.fencingToken) = job.id := rfl
      simp only [standingOf, Database.putLeased, Table.get?_set, hkey]
      by_cases hid : job.id = id
      · subst hid
        rw [if_pos rfl, if_pos rfl]
        simp only [standingOf] at hjob
        cases hget : db.backgroundJobs.get? job.id with
        | none => rw [hget] at hjob; cases hjob
        | some old => rfl
      · rw [if_neg hid, if_neg (Ne.symm hid)]
    refine ⟨.inr ⟨_, job.standing, hjob, ?_, hfresh, hinserted, hstanding⟩, rfl, ?_⟩
    · exact congrArg (· + 1) hversion.symm
    · rw [hstanding, if_pos rfl]
      rfl

theorem settleEffect_standing {effect : BackgroundJobEffect}
    {status : BackgroundJobEffectStatus} {payload : Json}
    (h : settleEffect db effect lease status payload now = .ok db') : SameStanding db db' := by
  unfold settleEffect at h
  split at h
  · cases h
    exact .frame rfl rfl
  · simp only [Except.bind_eq_ok, Except.pure_eq_ok] at h
    obtain ⟨_, _, rfl⟩ := h
    exact .refl db

theorem BackgroundJobService.heartbeat_standing {duration : Time} {grant' : JobLeaseGrant}
    (h : BackgroundJobService.heartbeat db grant now duration = .ok (grant', db')) :
    SameStanding db db' := by
  simp only [BackgroundJobService.heartbeat, Except.bind_eq_ok, Except.pure_eq_ok,
    Prod.mk.injEq] at h
  obtain ⟨_, _, ⟨job, lease⟩, hheld, _, _, _, rfl⟩ := h
  have hjob := (currentLease_ok.mp hheld).standingOf
  refine .set { job with
    leaseExpiresAt := some _, lastFencingToken := some grant.fencingToken } hjob rfl rfl

theorem BackgroundJobService.checkpoint_standing {c : CheckpointCommand}
    {result : JobCheckpointResult}
    (h : BackgroundJobService.checkpoint rt db grant now c = .ok (result, db')) :
    Appended db db' := by
  simp only [BackgroundJobService.checkpoint, Except.bind_eq_ok, Except.pure_eq_ok,
    Prod.mk.injEq] at h
  obtain ⟨entry, _, ⟨job, lease⟩, hheld, ⟨_, job', lease', _⟩, happend, _, rfl⟩ := h
  exact (appendCheckpoint_standing (currentLease_ok.mp hheld).standingOf happend).1

theorem BackgroundJobService.recordEffectResult_standing {c : EffectResultCommand}
    {result : JobCheckpointResult}
    (h : BackgroundJobService.recordEffectResult rt db grant now c = .ok (result, db')) :
    Appended db db' := by
  simp only [BackgroundJobService.recordEffectResult, Except.bind_eq_ok, Except.orThrow_eq_ok,
    Except.require_eq_ok, Except.pure_eq_ok, Prod.mk.injEq] at h
  obtain ⟨payload, _, entry, _, ⟨job, lease⟩, hheld, effect, _, _, _, db₁, h₁,
    ⟨_, job', lease', _⟩, happend, _, rfl⟩ := h
  have hsettled := settleEffect_standing h₁
  have hjob := (hsettled.standing job.id).trans (currentLease_ok.mp hheld).standingOf
  exact hsettled.appended (appendCheckpoint_standing hjob happend).1

theorem finalCheckpoint_standing {c : CompleteCommand}
    (hjob : standingOf db job.id = some job.standing)
    (h : finalCheckpoint rt db job lease c now = .ok (job', lease', db')) :
    Appended db db' ∧ job'.id = job.id ∧ standingOf db' job.id = some job'.standing := by
  unfold finalCheckpoint at h
  split at h
  · simp only [Except.bind_eq_ok, Except.pure_eq_ok] at h
    obtain ⟨_, _, ⟨_, _⟩, happend, rfl⟩ := h
    exact appendCheckpoint_standing hjob happend
  · simp only [Except.bind_eq_ok, Except.pure_eq_ok, Prod.mk.injEq] at h
    obtain ⟨_, _, rfl, rfl, rfl⟩ := h
    exact ⟨.inl (.refl db), rfl, hjob⟩

theorem BackgroundJobService.complete_standing {c : CompleteCommand}
    (h : BackgroundJobService.complete rt db grant now c = .ok db') : Appended db db' := by
  simp only [BackgroundJobService.complete, Except.bind_eq_ok, Except.pure_eq_ok] at h
  obtain ⟨_, _, ⟨job, lease⟩, hheld, _, _, ⟨job', lease', db₁⟩, h₁, rfl⟩ := h
  obtain ⟨hwrites, hid, hstanding⟩ :=
    finalCheckpoint_standing (currentLease_ok.mp hheld).standingOf h₁
  have hfinished : SameStanding db₁ (db₁.putLeased
      (finishJob job' .succeeded none grant.fencingToken now) (lease'.release now .succeeded)) := by
    refine .set _ ?_ rfl rfl
    rw [← hid] at hstanding
    exact hstanding
  exact hwrites.then hfinished

theorem releaseFailedAttempt_standing {errorCode : String} {retryable : Bool}
    {disposition : JobFailureDisposition} (hjob : standingOf db job.id = some job.standing)
    (h : releaseFailedAttempt rt db job lease grant errorCode retryable now =
      .ok (disposition, db')) : SameStanding db db' := by
  simp only [releaseFailedAttempt, Except.bind_eq_ok, Except.pure_eq_ok, Prod.mk.injEq] at h
  obtain ⟨delay, _, _, rfl⟩ := h
  refine .set _ ?_ rfl rfl
  cases delay with
  | none => exact hjob
  | some delay => exact hjob

theorem BackgroundJobService.failAttempt_standing {errorCode : String} {retryable : Bool}
    {disposition : JobFailureDisposition}
    (h : BackgroundJobService.failAttempt rt db grant now errorCode retryable =
      .ok (disposition, db')) : SameStanding db db' := by
  simp only [BackgroundJobService.failAttempt, Except.bind_eq_ok] at h
  obtain ⟨_, _, ⟨job, lease⟩, hheld, h⟩ := h
  exact releaseFailedAttempt_standing (currentLease_ok.mp hheld).standingOf h

theorem BackgroundJobService.pauseAttempt_standing {errorCode : String}
    (h : BackgroundJobService.pauseAttempt rt db grant now errorCode = .ok db') :
    SameStanding db db' := by
  simp only [BackgroundJobService.pauseAttempt, Except.bind_eq_ok, Except.pure_eq_ok] at h
  obtain ⟨_, _, ⟨job, lease⟩, hheld, rfl⟩ := h
  have hjob := (currentLease_ok.mp hheld).standingOf
  refine .set _ ?_ rfl rfl
  exact hjob

theorem BackgroundJobService.failDependencyAttempt_standing {dependency : DependencyService}
    {errorCode : String} {disposition : JobFailureDisposition}
    (h : BackgroundJobService.failDependencyAttempt rt service db grant now dependency errorCode =
      .ok (disposition, db')) : SameStanding db db' := by
  simp only [BackgroundJobService.failDependencyAttempt, Except.bind_eq_ok, Except.relabel_eq_ok,
    Except.orThrow_eq_ok, Except.pure_eq_ok, Prod.mk.injEq] at h
  obtain ⟨_, _, ⟨job, lease⟩, hheld, ⟨captured, db₁⟩, hcapture, ⟨_, db₂⟩, hrelease, outages, _, _,
    rfl⟩ := h
  obtain ⟨records, -, rfl⟩ := captureEvidence_ok hcapture rfl
  have hcaptured : SameStanding db { db with evidenceRecords := records } := .frame rfl rfl
  have hjob := (hcaptured.standing job.id).trans (currentLease_ok.mp hheld).standingOf
  exact (hcaptured.trans (releaseFailedAttempt_standing hjob hrelease)).trans (.frame rfl rfl)

theorem transitionTask_standing {c : TaskTransitionCommand} {result : TaskTransitionResult}
    (h : transitionTask rt db c = .ok (result, db')) : SameStanding db db' := by
  rcases transitionTask_ok h with rfl | ⟨a, rfl⟩
  · exact .refl _
  · exact .frame rfl rfl

theorem BackgroundJobService.transitionTask_standing {c : JobTransitionCommand}
    {result : TaskTransitionResult}
    (h : BackgroundJobService.transitionTask rt service db grant now c = .ok (result, db')) :
    SameStanding db db' := by
  simp only [BackgroundJobService.transitionTask, Except.bind_eq_ok, Except.relabel_eq_ok] at h
  obtain ⟨_, _, _, _, _, _, ⟨job, lease⟩, _, _, _, ⟨_, db₁⟩, htransition, h⟩ := h
  have hsame := ControlPlane.transitionTask_standing htransition
  split at h
  · simp only [Except.bind_eq_ok, Except.pure_eq_ok, Prod.mk.injEq] at h
    obtain ⟨_, _, _, rfl⟩ := h
    exact hsame
  · simp only [Except.bind_eq_ok, Except.pure_eq_ok, Prod.mk.injEq] at h
    obtain ⟨_, _, _, rfl⟩ := h
    exact hsame.trans (.frame rfl rfl)

theorem BackgroundJobService.reconcileOutageEscalation_standing {jobId : UUID}
    {result : Option UUID}
    (h : BackgroundJobService.reconcileOutageEscalation rt db jobId = .ok (result, db')) :
    SameStanding db db' := by
  simp only [BackgroundJobService.reconcileOutageEscalation, Except.bind_eq_ok] at h
  obtain ⟨_, _, _, _, _, _, latest, _, _, _, h⟩ := h
  split at h
  · simp only [Except.pure_eq_ok, Prod.mk.injEq] at h
    exact h.2 ▸ .refl db
  · split at h
    · simp only [Except.pure_eq_ok, Prod.mk.injEq] at h
      exact h.2 ▸ .refl db
    · simp only [Except.pure_eq_ok, Prod.mk.injEq] at h
      exact h.2 ▸ .frame rfl rfl

/-- The next generation of a job starts where the job stands. -/
theorem resumeJob_standing {taskId decisionId newId id : UUID}
    (hjob : db.backgroundJobs.get? job.id = some job)
    (h : resumeJob rt db job taskId decisionId newId now = .ok (id, db')) :
    Entered db db' := by
  unfold resumeJob at h
  split at h
  · simp only [Except.bind_eq_ok, Except.pure_eq_ok, Prod.mk.injEq] at h
    obtain ⟨_, _, _, rfl⟩ := h
    exact (SameStanding.refl db).entered
  · simp only [Except.bind_eq_ok, Except.orThrow_eq_ok, Except.pure_eq_ok, Prod.mk.injEq] at h
    obtain ⟨policy, _, jobs, hjobs, _, rfl⟩ := h
    exact .insert (.inr ⟨job.id, job.standing, standingOf_of_get? hjob, rfl⟩) hjobs rfl

theorem resolveOutages_standing {c : OutageDecisionCommand}
    (entries : List (DependencyOutageAttempt × ℕ)) {db : Database}
    (h : entries.foldlM (resolveOutage rt c) db = .ok db') : Entered db db' := by
  induction entries generalizing db with
  | nil =>
    simp only [List.foldlM_nil, Except.pure_eq_ok] at h
    exact h ▸ (SameStanding.refl db).entered
  | cons entry entries ih =>
    simp only [List.foldlM_cons, Except.bind_eq_ok] at h
    obtain ⟨db₁, h₁, h⟩ := h
    refine Entered.trans ?_ (ih h)
    simp only [resolveOutage, Except.bind_eq_ok, Except.orThrow_eq_ok, Except.pure_eq_ok] at h₁
    obtain ⟨_, _, job, hjob, _, _, _, _, _, _, ⟨_, db₂⟩, h₂, rfl⟩ := h₁
    have hid : job.id = entry.1.jobId := Table.key_of_get? hjob
    have hresume : Entered db db₂ := by
      unfold resumeOnRetry at h₂
      split at h₂
      · simp only [Except.bind_eq_ok, Except.pure_eq_ok, Prod.mk.injEq] at h₂
        obtain ⟨⟨_, _⟩, h₂, _, rfl⟩ := h₂
        exact resumeJob_standing (hid ▸ hjob) h₂
      · simp only [Except.ok.injEq, Prod.mk.injEq] at h₂
        exact h₂.2 ▸ (SameStanding.refl db).entered
    refine hresume.trans (SameStanding.entered ?_)
    exact .frame rfl rfl

theorem BackgroundJobService.reconcileOutageDecisions_standing {c : OutageDecisionCommand}
    {ids : List UUID}
    (h : BackgroundJobService.reconcileOutageDecisions rt db c = .ok (ids, db')) :
    Entered db db' := by
  simp only [BackgroundJobService.reconcileOutageDecisions, Except.bind_eq_ok, Except.pure_eq_ok,
    Prod.mk.injEq] at h
  obtain ⟨_, _, _, h, _, rfl⟩ := h
  exact resolveOutages_standing _ h

theorem fenceJob_standing {code : String} {corrupt : BackgroundJobError}
    (hjob : standingOf db job.id = some job.standing)
    (h : fenceJob code corrupt now db job = .ok db') : SameStanding db db' := by
  unfold fenceJob at h
  split at h
  · split at h
    · simp only [Except.bind_eq_ok, Except.pure_eq_ok] at h
      obtain ⟨lease, _, _, _, rfl⟩ := h
      exact .set (job.fenced code now) hjob rfl rfl
    · simp only [Except.pure_eq_ok] at h
      subst h
      exact .set (job.fenced code now) hjob rfl rfl
  · simp only [Except.ok.injEq] at h
    exact h ▸ .refl db

theorem fenceJobs_standing {taskId : UUID} {code reason : String} {corrupt : BackgroundJobError}
    (h : fenceJobs db taskId code reason corrupt now = .ok db') : SameStanding db db' := by
  simp only [fenceJobs, Except.bind_eq_ok, Except.pure_eq_ok] at h
  obtain ⟨db₁, h₁, rfl⟩ := h
  have hfenced : SameStanding db db₁ :=
    .foldlM (fun job db db' hjob h => fenceJob_standing hjob h) _
      (fun job hmem => standingOf_of_mem_select hmem) h₁
  exact hfenced.trans (.frame rfl rfl)

theorem recordCancellation_standing {c : CancelCommand} {task : Task} {reason : String}
    (h : recordCancellation rt db c task reason = .ok db') : SameStanding db db' := by
  unfold recordCancellation at h
  split at h
  · simp only [Except.bind_eq_ok, Except.pure_eq_ok] at h
    obtain ⟨_, _, rfl⟩ := h
    exact .refl db
  · simp only [Except.bind_eq_ok, Except.pure_eq_ok] at h
    obtain ⟨⟨_, db₁⟩, h₁, _, _, rfl⟩ := h
    have hterminal : SameStanding db db₁ := by
      unfold terminalTransition at h₁
      split at h₁
      · simp only [Except.bind_eq_ok, Except.relabel_eq_ok, Except.pure_eq_ok,
          Prod.mk.injEq] at h₁
        obtain ⟨⟨_, _⟩, h₁, _, rfl⟩ := h₁
        exact transitionTask_standing h₁
      · simp only [Except.bind_eq_ok, Except.pure_eq_ok, Prod.mk.injEq] at h₁
        obtain ⟨_, _, _, rfl⟩ := h₁
        exact .refl db
    exact hterminal.trans (.frame rfl rfl)

theorem CancellationService.cancelTask_standing {c : CancelCommand}
    (h : CancellationService.cancelTask rt db c = .ok db') : SameStanding db db' := by
  simp only [CancellationService.cancelTask, Except.bind_eq_ok] at h
  obtain ⟨_, _, task, _, db₁, h₁, h⟩ := h
  exact (recordCancellation_standing h₁).trans (fenceJobs_standing h)

theorem SteeringService.steer_standing {c : SteerCommand}
    (h : SteeringService.steer rt db c = .ok db') : SameStanding db db' := by
  simp only [SteeringService.steer, fenceScopeWork, Except.bind_eq_ok, Except.relabel_eq_ok,
    Except.pure_eq_ok] at h
  obtain ⟨task, _, _, _, _, _, _, _, _, _, db₂, ⟨db₁, h₁, rfl⟩, ⟨_, _⟩, htransition, rfl⟩ := h
  have hsettled : SameStanding db₁ (settleOutages rt (cancelApprovals rt db₁ c) c) := .frame rfl rfl
  exact ((fenceJobs_standing h₁).trans hsettled).trans (transitionTask_standing htransition)

end Operations

/-! ### A checkpoint submitted again -/

/-- A value equal to itself, whatever it is compared through. -/
def SelfEqual (j : Json) : Prop := j.pyEq j = true

theorem pyEqFields_of_lookup {fs gs : List (String × Json)}
    (h : ∀ f ∈ fs, gs.lookup f.1 = some f.2 ∧ SelfEqual f.2) : Json.pyEqFields fs gs = true := by
  induction fs with
  | nil => simp [Json.pyEqFields]
  | cons f fs ih =>
    obtain ⟨hlookup, hself⟩ := h f List.mem_cons_self
    rw [Json.pyEqFields, Bool.and_eq_true]
    refine ⟨?_, ih fun g hg => h g (List.mem_cons_of_mem f hg)⟩
    simp only [hlookup]
    exact hself

theorem lookup_eq_of_nodup {fs : List (String × Json)} (h : (fs.map Prod.fst).Nodup)
    {f : String × Json} (hf : f ∈ fs) : fs.lookup f.1 = some f.2 := by
  induction fs with
  | nil => cases hf
  | cons g fs ih =>
    rw [List.map_cons, List.nodup_cons] at h
    rcases List.mem_cons.mp hf with rfl | hmem
    · rw [List.lookup_cons]
      simp
    · have hne : f.1 ≠ g.1 := fun heq => h.1 (heq ▸ List.mem_map_of_mem hmem)
      rw [List.lookup_cons, beq_false_of_ne hne]
      exact ih h.2 hmem

theorem pyEqItems_self {items : List Json} (h : ∀ j ∈ items, SelfEqual j) :
    Json.pyEqItems items items = true := by
  induction items with
  | nil => simp [Json.pyEqItems]
  | cons j items ih =>
    rw [Json.pyEqItems, Bool.and_eq_true]
    exact ⟨h j List.mem_cons_self, ih fun k hk => h k (List.mem_cons_of_mem j hk)⟩

section Redacted
variable {u : Unicode}

mutual

/-- What redaction returns has no key twice, so that it equals itself. -/
theorem redactJsonValue_selfEqual {depth : ℕ} : ∀ {j v : Json} {t t' : Tally},
    redactJsonValue u depth j t = .ok (v, t') → SelfEqual v
  | .null, v, t, t', h | .bool _, v, t, t', h | .int _, v, t, t', h | .float _, v, t, t', h => by
    simp only [redactJsonValue, Except.bind_eq_ok, Except.pure_eq_ok, Prod.mk.injEq] at h
    obtain ⟨_, -, rfl, -⟩ := h
    simp [SelfEqual, Json.pyEq, Json.isNull, Json.num?]
  | .str s, v, t, t', h => by
    simp only [redactJsonValue, Except.bind_eq_ok, Except.pure_eq_ok, Prod.mk.injEq] at h
    obtain ⟨_, -, rfl, -⟩ := h
    simp [SelfEqual]
  | .arr items, v, t, t', h => by
    simp only [redactJsonValue, Except.bind_eq_ok, Except.pure_eq_ok, Prod.mk.injEq] at h
    obtain ⟨_, -, ⟨items', _⟩, hitems, rfl, -⟩ := h
    simp only [SelfEqual, Json.pyEq, Json.arr?]
    exact pyEqItems_self (redactItems_selfEqual hitems)
  | .obj fields, v, t, t', h => by
    simp only [redactJsonValue, Except.bind_eq_ok, Except.pure_eq_ok, Prod.mk.injEq] at h
    obtain ⟨_, -, ⟨fields', _⟩, hfields, rfl, -⟩ := h
    obtain ⟨-, hnodup, hself⟩ := redactFields_selfEqual hfields
    simp only [SelfEqual, Json.pyEq, Json.obj?, beq_self_eq_true, Bool.true_and]
    exact pyEqFields_of_lookup fun f hf => ⟨lookup_eq_of_nodup hnodup hf, hself f hf⟩

theorem redactItems_selfEqual {depth : ℕ} : ∀ {items vs : List Json} {t t' : Tally},
    redactItems u depth items t = .ok (vs, t') → ∀ v ∈ vs, SelfEqual v
  | [], vs, t, t', h => by
    simp only [redactItems, Except.ok.injEq, Prod.mk.injEq] at h
    obtain ⟨rfl, -⟩ := h
    simp
  | item :: items, vs, t, t', h => by
    simp only [redactItems, Except.bind_eq_ok, Except.pure_eq_ok, Prod.mk.injEq] at h
    obtain ⟨⟨v, _⟩, hitem, ⟨vs', _⟩, hitems, rfl, -⟩ := h
    have hrest := redactItems_selfEqual hitems
    simp only [List.mem_cons, forall_eq_or_imp]
    exact ⟨redactJsonValue_selfEqual hitem, hrest⟩

theorem redactFields_selfEqual {depth : ℕ} : ∀ {taken : List String}
    {fields fs : List (String × Json)} {t t' : Tally},
    redactFields u depth taken fields t = .ok (fs, t') →
      (∀ f ∈ fs, f.1 ∉ taken) ∧ (fs.map Prod.fst).Nodup ∧ ∀ f ∈ fs, SelfEqual f.2
  | taken, [], fs, t, t', h => by
    simp only [redactFields, Except.ok.injEq, Prod.mk.injEq] at h
    obtain ⟨rfl, -⟩ := h
    simp
  | taken, (key, child) :: fields, fs, t, t', h => by
    have hclose : taken.contains key ≠ true → ∀ {v : Json} {t₁ t₂ : Tally}
        {fs' : List (String × Json)}, SelfEqual v →
        redactFields u depth (key :: taken) fields t₁ = .ok (fs', t₂) → fs = (key, v) :: fs' →
        (∀ f ∈ fs, f.1 ∉ taken) ∧ (fs.map Prod.fst).Nodup ∧ ∀ f ∈ fs, SelfEqual f.2 := by
      rintro hkey v t₁ t₂ fs' hv hfields rfl
      obtain ⟨htaken, hnodup, hself⟩ := redactFields_selfEqual hfields
      refine ⟨?_, ?_, ?_⟩
      · intro f hf
        rcases List.mem_cons.mp hf with rfl | hf
        · simpa using hkey
        · exact fun hmem => htaken f hf (List.mem_cons_of_mem key hmem)
      · rw [List.map_cons, List.nodup_cons]
        refine ⟨?_, hnodup⟩
        intro hmem
        obtain ⟨f, hf, hfkey⟩ := List.mem_map.mp hmem
        have hfkey : f.1 = key := hfkey
        exact htaken f hf (hfkey ▸ List.mem_cons_self)
      · intro f hf
        rcases List.mem_cons.mp hf with rfl | hf
        · exact hv
        · exact hself f hf
    rw [redactFields] at h
    split at h
    · simp at h
    · rename_i hkey
      dsimp only at h
      split at h
      · simp only [Except.bind_eq_ok, Except.pure_eq_ok, Prod.mk.injEq] at h
        obtain ⟨⟨v, t₁⟩, ⟨rfl, -⟩, ⟨fs', t₂⟩, hfields, hfs, -⟩ := h
        exact hclose hkey (by simp [SelfEqual]) hfields hfs.symm
      · simp only [Except.bind_eq_ok, Except.pure_eq_ok, Prod.mk.injEq] at h
        obtain ⟨⟨v, t₁⟩, hchild, ⟨fs', t₂⟩, hfields, hfs, -⟩ := h
        exact hclose hkey (redactJsonValue_selfEqual hchild) hfields hfs.symm

end

end Redacted

theorem safePayload_selfEqual {rt : Runtime} {value payload : Json} {field : String}
    (h : safePayload rt value field = .ok payload) : SelfEqual payload := by
  simp only [safePayload, redactEvidenceContent, sealContent, Except.bind_eq_ok,
    Except.relabel_eq_ok, Except.pure_eq_ok, Except.ite_error_eq_ok, Except.ok.injEq] at h
  obtain ⟨prepared, ⟨⟨v, t⟩, hredacted, -, rfl⟩, _, -, _, -, _, -, rfl⟩ := h
  exact redactJsonValue_selfEqual hredacted

/-- A row records a checkpoint: submitted again, the checkpoint passes every comparison with
it. -/
def BackgroundJobCheckpoint.Records (row : BackgroundJobCheckpoint) (rt : Runtime)
    (c : CheckpointCommand) : Prop :=
  ∃ entry, c.check rt = .ok entry ∧ row.idempotencyKey = entry.idempotencyKey ∧
    row.sequence = entry.expectedVersion + 1 ∧ row.payloadFingerprint = entry.fingerprint ∧
    row.payload.pyEq entry.payload = true

section Recorded
variable {rt : Runtime} {db db' : Database} {grant : JobLeaseGrant} {now : Time}
  {job job' : BackgroundJob} {lease lease' : BackgroundJobLease} {c : CheckpointCommand}
  {entry : CheckpointEntry} {row : BackgroundJobCheckpoint} {result : JobCheckpointResult}

/-- An accepted checkpoint is recorded. -/
theorem recorded_of_append (hentry : c.check rt = .ok entry)
    (h : appendCheckpoint db job lease entry now = .ok (result, job', lease', db')) :
    ∃ row ∈ db'.backgroundJobCheckpoints, row.Records rt c ∧ row.jobId = job.id ∧
      row.id = result.checkpointId ∧ row.sequence = result.sequence := by
  unfold appendCheckpoint at h
  split at h
  · rename_i existing hexisting
    simp only [Except.bind_eq_ok, Except.require_eq_ok, Except.pure_eq_ok, Prod.mk.injEq] at h
    obtain ⟨_, ⟨hjob, hsequence, hfingerprint, hpayload⟩, rfl, -, -, rfl⟩ := h
    have hkey : existing.idempotencyKey = entry.idempotencyKey := by
      have := List.find?_some hexisting
      simpa using this
    exact ⟨existing, List.mem_of_find?_eq_some hexisting,
      ⟨entry, hentry, hkey, hsequence, hfingerprint, hpayload⟩, hjob, rfl, rfl⟩
  · simp only [Except.bind_eq_ok, Except.require_eq_ok, Except.orThrow_eq_ok, Except.pure_eq_ok,
      Prod.mk.injEq] at h
    obtain ⟨_, -, checkpoints, hinserted, rfl, -, -, rfl⟩ := h
    have hself : SelfEqual entry.payload := by
      simp only [CheckpointCommand.check, Except.bind_eq_ok, Except.pure_eq_ok] at hentry
      obtain ⟨_, -, payload, hpayload, rfl⟩ := hentry
      exact safePayload_selfEqual hpayload
    exact ⟨_, (Table.mem_insert? hinserted).mpr (.inr rfl),
      ⟨entry, hentry, rfl, rfl, rfl, hself⟩, rfl, rfl, rfl⟩

theorem recorded_of_checkpoint
    (h : BackgroundJobService.checkpoint rt db grant now c = .ok (result, db')) :
    ∃ row ∈ db'.backgroundJobCheckpoints, row.Records rt c ∧ row.jobId = grant.jobId ∧
      row.id = result.checkpointId ∧ row.sequence = result.sequence := by
  simp only [BackgroundJobService.checkpoint, Except.bind_eq_ok, Except.pure_eq_ok,
    Prod.mk.injEq] at h
  obtain ⟨entry, hentry, ⟨job, lease⟩, hheld, ⟨_, job', lease', _⟩, happend, rfl, rfl⟩ := h
  have hid : job.id = grant.jobId := Table.key_of_get? (currentLease_ok.mp hheld).job_eq
  exact hid ▸ recorded_of_append hentry happend

theorem recorded_of_effect {c : EffectResultCommand}
    (h : BackgroundJobService.recordEffectResult rt db grant now c = .ok (result, db')) :
    ∃ row ∈ db'.backgroundJobCheckpoints, row.Records rt c.checkpoint ∧
      row.jobId = grant.jobId ∧ row.id = result.checkpointId ∧
      row.sequence = result.sequence := by
  simp only [BackgroundJobService.recordEffectResult, Except.bind_eq_ok, Except.pure_eq_ok,
    Prod.mk.injEq] at h
  obtain ⟨_, _, entry, hentry, ⟨job, lease⟩, hheld, _, _, _, _, _, _, ⟨_, job', lease', _⟩,
    happend, rfl, rfl⟩ := h
  have hid : job.id = grant.jobId := Table.key_of_get? (currentLease_ok.mp hheld).job_eq
  exact hid ▸ recorded_of_append hentry happend

theorem recorded_of_complete {c : CompleteCommand} {key : String} {payload : Json}
    (hkey : c.finalCheckpointKey = some key) (hpayload : c.finalCheckpoint = some payload)
    (h : BackgroundJobService.complete rt db grant now c = .ok db') :
    ∃ row ∈ db'.backgroundJobCheckpoints, row.jobId = grant.jobId ∧
      row.Records rt ⟨c.expectedCheckpointVersion, key, payload, c.checkpointId⟩ := by
  simp only [BackgroundJobService.complete, finalCheckpoint, hkey, hpayload, Except.bind_eq_ok,
    Except.pure_eq_ok] at h
  obtain ⟨_, _, ⟨job, lease⟩, hheld, _, _, ⟨job', lease', db₁⟩,
    ⟨entry, hentry, ⟨answer, _⟩, happend, happended⟩, rfl⟩ := h
  have hid : job.id = grant.jobId := Table.key_of_get? (currentLease_ok.mp hheld).job_eq
  simp only at happended
  rw [happended] at happend
  obtain ⟨row, hrow, hrecords, hjob, -⟩ := recorded_of_append hentry happend
  exact ⟨row, hrow, hjob.trans hid, hrecords⟩

/-- A recorded checkpoint is answered from its row. -/
theorem append_of_recorded (lease : BackgroundJobLease) (now : Time)
    (hfind : checkpointOfKey db row.idempotencyKey = some row)
    (hjob : row.jobId = job.id) (hrecords : row.Records rt c) (hentry : c.check rt = .ok entry) :
    appendCheckpoint db job lease entry now =
      .ok (⟨row.id, row.sequence, true⟩, job, lease, db) := by
  obtain ⟨entry', hentry', hkey, hsequence, hfingerprint, hpayload⟩ := hrecords
  obtain rfl : entry' = entry := Except.ok.inj (hentry'.symm.trans hentry)
  have hfind' : checkpointOfKey db entry'.idempotencyKey = some row := hkey ▸ hfind
  have hcompare : row.jobId = job.id ∧ row.sequence = entry'.expectedVersion + 1 ∧
      row.payloadFingerprint = entry'.fingerprint ∧ row.payload.pyEq entry'.payload = true :=
    ⟨hjob, hsequence, hfingerprint, hpayload⟩
  simp only [appendCheckpoint, hfind', Except.require, if_pos hcompare]
  rfl

/-- The holder of a lease is answered, and nothing is written. -/
theorem checkpoint_of_recorded (hfind : checkpointOfKey db row.idempotencyKey = some row)
    (hheld : HoldsLease db grant now job lease) (hjob : row.jobId = grant.jobId)
    (hrecords : row.Records rt c) :
    BackgroundJobService.checkpoint rt db grant now c = .ok (⟨row.id, row.sequence, true⟩, db) := by
  obtain ⟨entry, hentry, -⟩ := id hrecords
  have hid : job.id = grant.jobId := Table.key_of_get? hheld.job_eq
  have happend := append_of_recorded lease now hfind (hjob.trans hid.symm)
    hrecords hentry
  rw [BackgroundJobService.checkpoint, hentry, Except.ok_bind, currentLease_ok.mpr hheld]
  simp only [Except.ok_bind, happend]
  rfl

/-- With the result of an effect, a recorded checkpoint is answered from its row. -/
theorem recordEffectResult_of_recorded {c : EffectResultCommand}
    (hfind : checkpointOfKey db row.idempotencyKey = some row) (hjob : row.jobId = grant.jobId)
    (hrecords : row.Records rt c.checkpoint)
    (h : BackgroundJobService.recordEffectResult rt db grant now c = .ok (result, db')) :
    result = ⟨row.id, row.sequence, true⟩ ∧ SameStanding db db' := by
  simp only [BackgroundJobService.recordEffectResult, Except.bind_eq_ok, Except.orThrow_eq_ok,
    Except.require_eq_ok, Except.pure_eq_ok, Prod.mk.injEq] at h
  obtain ⟨payload, _, entry, hentry, ⟨job, lease⟩, hheld, effect, _, _, _, db₁, h₁,
    ⟨_, job', lease', _⟩, happend, rfl, rfl⟩ := h
  have hsettled := settleEffect_standing h₁
  have hid : job.id = grant.jobId := Table.key_of_get? (currentLease_ok.mp hheld).job_eq
  have hfind₁ : checkpointOfKey db₁ row.idempotencyKey = some row := by
    rw [checkpointOfKey, hsettled.checkpoints]
    exact hfind
  have hanswer := append_of_recorded lease now hfind₁ (hjob.trans hid.symm)
    hrecords hentry
  simp only at happend
  rw [hanswer, Except.ok.injEq, Prod.mk.injEq, Prod.mk.injEq, Prod.mk.injEq] at happend
  obtain ⟨rfl, -, -, rfl⟩ := happend
  exact ⟨rfl, hsettled⟩

/-- A job that completes with a recorded checkpoint stays where it stood. -/
theorem complete_of_recorded {c : CompleteCommand} {key : String} {payload : Json}
    (hfind : checkpointOfKey db row.idempotencyKey = some row) (hjob : row.jobId = grant.jobId)
    (hkey : c.finalCheckpointKey = some key) (hpayload : c.finalCheckpoint = some payload)
    (hrecords : row.Records rt ⟨c.expectedCheckpointVersion, key, payload, c.checkpointId⟩)
    (h : BackgroundJobService.complete rt db grant now c = .ok db') : SameStanding db db' := by
  simp only [BackgroundJobService.complete, finalCheckpoint, hkey, hpayload, Except.bind_eq_ok,
    Except.pure_eq_ok] at h
  obtain ⟨_, _, ⟨job, lease⟩, hheld, _, _, ⟨job', lease', db₁⟩,
    ⟨entry, hentry, ⟨result, _⟩, happend, happended⟩, rfl⟩ := h
  have hheld := currentLease_ok.mp hheld
  have hid : job.id = grant.jobId := Table.key_of_get? hheld.job_eq
  have hanswer := append_of_recorded lease now hfind (hjob.trans hid.symm)
    hrecords hentry
  simp only at happend happended
  rw [hanswer, Except.ok.injEq, Prod.mk.injEq] at happend
  obtain ⟨-, rfl⟩ := happend
  obtain ⟨rfl, rfl, rfl⟩ := happended
  refine .set _ ?_ rfl rfl
  exact hheld.standingOf

end Recorded

/-! ### Runs -/

/-- A store with what every job inherited, noted when the job appears. -/
structure CheckpointRun where
  db : Database
  inherited : UUID → JobStanding

/-- What is noted of the jobs when a step ends. -/
def CheckpointRun.next (s : CheckpointRun) (db' : Database) : CheckpointRun where
  db := db'
  inherited id :=
    match standingOf s.db id with
    | some _ => s.inherited id
    | none => (standingOf db' id).getD ⟨none, none, 0⟩

/-- The runs of the job service, with what every job inherited. -/
def checkpointSystem (rt : Runtime) : TransitionSystem CheckpointRun where
  init s := (jobSystem rt).init s.db ∧ s.db.backgroundJobCheckpoints.rows = []
  step s s' := (jobSystem rt).step s.db s'.db ∧ s' = s.next s'.db

/-- The checkpoints of a job: numbered from what it inherited on, and the job stands at the
last of them. -/
structure CheckpointLog (standing inherited : JobStanding) (rows : List BackgroundJobCheckpoint) :
    Prop where
  numbered : rows.map BackgroundJobCheckpoint.sequence =
    List.range' (inherited.version + 1) rows.length
  first : rows = [] → standing = inherited
  last : ∀ row ∈ rows.getLast?, standing.checkpoint = some row.payload ∧
    standing.version = row.sequence
  parent : standing.parent = inherited.parent

/-- What holds of the checkpoints of every store a run reaches. -/
structure CheckpointRun.Logged (s : CheckpointRun) : Prop where
  log : ∀ id standing, standingOf s.db id = some standing →
    CheckpointLog standing (s.inherited id) (checkpointsOf s.db id)
  unknown : ∀ row ∈ s.db.backgroundJobCheckpoints, standingOf s.db row.jobId ≠ none
  keys : (s.db.backgroundJobCheckpoints.rows.map
    BackgroundJobCheckpoint.idempotencyKey).Nodup

/-- What only grows: the checkpoints of a job and their numbers. -/
structure Grows (db db' : Database) (jobId : UUID) : Prop where
  version : ∀ standing, standingOf db jobId = some standing →
    ∃ standing', standingOf db' jobId = some standing' ∧ standing.version ≤ standing'.version
  rows : checkpointsOf db jobId <+: checkpointsOf db' jobId

section Runs
variable {rt : Runtime} {service : BackgroundJobService} {db db₁ db' : Database}
  {s s' : CheckpointRun} {row : BackgroundJobCheckpoint} {before : JobStanding}

theorem GrantCommand.run_standing {grant : JobLeaseGrant} {now : Time} {c : GrantCommand}
    (h : c.run rt service db grant now = .ok db') : Appended db db' := by
  cases c with
  | heartbeat duration =>
    obtain ⟨_, h⟩ := map_snd_eq_ok h
    exact .inl (BackgroundJobService.heartbeat_standing h)
  | checkpoint c =>
    obtain ⟨_, h⟩ := map_snd_eq_ok h
    exact BackgroundJobService.checkpoint_standing h
  | prepareEffect c =>
    obtain ⟨prepared, h⟩ := map_snd_eq_ok h
    obtain ⟨r, job, lease, -, -, hcases⟩ := BackgroundJobService.prepareEffect_ok h
    rcases hcases with ⟨rfl, -⟩ | ⟨effects, -, -, -, -, rfl⟩
    · exact .inl (.refl _)
    · exact .inl (.frame rfl rfl)
  | recordEffectResult c =>
    obtain ⟨_, h⟩ := map_snd_eq_ok h
    exact BackgroundJobService.recordEffectResult_standing h
  | recordIgnoredResult c =>
    obtain ⟨_, h⟩ := map_snd_eq_ok h
    obtain ⟨records, ignored, rfl⟩ := BackgroundJobService.recordIgnoredResult_ok h
    exact .inl (.frame rfl rfl)
  | complete c => exact BackgroundJobService.complete_standing h
  | failAttempt errorCode retryable =>
    obtain ⟨_, h⟩ := map_snd_eq_ok h
    exact .inl (BackgroundJobService.failAttempt_standing h)
  | pauseAttempt errorCode => exact .inl (BackgroundJobService.pauseAttempt_standing h)
  | failDependencyAttempt dependency errorCode =>
    obtain ⟨_, h⟩ := map_snd_eq_ok h
    exact .inl (BackgroundJobService.failDependencyAttempt_standing h)
  | transitionTask c =>
    obtain ⟨_, h⟩ := map_snd_eq_ok h
    exact .inl (BackgroundJobService.transitionTask_standing h)

/-- An accepted command lets jobs enter, or writes one checkpoint at most. -/
theorem JobCommand.run_standing {c : JobCommand} (h : c.run rt service db = .ok db') :
    Entered db db' ∨ Appended db db' := by
  cases c with
  | schedule c =>
    obtain ⟨_, h⟩ := map_snd_eq_ok h
    exact .inl (BackgroundJobService.schedule_standing h)
  | claimNext c =>
    obtain ⟨_, h⟩ := map_snd_eq_ok h
    exact .inl (BackgroundJobService.claimNext_standing h).entered
  | granted grant now c => exact .inr (GrantCommand.run_standing h)
  | reconcileExpiredLeases c =>
    obtain ⟨_, h⟩ := map_snd_eq_ok h
    exact .inl (BackgroundJobService.reconcileExpiredLeases_standing h).entered
  | reconcileOutageEscalation jobId =>
    obtain ⟨_, h⟩ := map_snd_eq_ok h
    exact .inl (BackgroundJobService.reconcileOutageEscalation_standing h).entered
  | reconcileOutageDecisions c =>
    obtain ⟨_, h⟩ := map_snd_eq_ok h
    exact .inl (BackgroundJobService.reconcileOutageDecisions_standing h)
  | cancelTask c => exact .inl (CancellationService.cancelTask_standing h).entered
  | steer c => exact .inl (SteeringService.steer_standing h).entered

theorem jobSystem_standing (h : (jobSystem rt).step db db') : Entered db db' ∨ Appended db db' := by
  rcases h with ⟨service, c, rfl⟩ | h
  · cases hrun : c.run rt service db with
    | error e => exact .inl (SameStanding.refl db).entered
    | ok db' => exact JobCommand.run_standing hrun
  · exact .inl (SameStanding.frame h.jobs h.checkpoints).entered

theorem checkpointsOf_congr (h : db'.backgroundJobCheckpoints = db.backgroundJobCheckpoints)
    (id : UUID) : checkpointsOf db' id = checkpointsOf db id := by
  rw [checkpointsOf, checkpointsOf, h]

theorem AppendsCheckpoint.checkpointsOf (h : AppendsCheckpoint db db' row before) (id : UUID) :
    checkpointsOf db' id = checkpointsOf db id ++ if row.jobId = id then [row] else [] := by
  have hrows := (Table.insert?_eq_some.mp h.inserted).2
  simp only [ControlPlane.checkpointsOf, Table.select, hrows, List.filter_append]
  by_cases hid : row.jobId = id <;> simp [hid]

/-- The last number of a log is where its job stands. -/
theorem CheckpointLog.version_eq {standing inherited : JobStanding}
    {rows : List BackgroundJobCheckpoint} (h : CheckpointLog standing inherited rows) :
    standing.version = inherited.version + rows.length := by
  rcases List.eq_nil_or_concat rows with hnil | ⟨init, last, hconcat⟩
  · rw [h.first hnil, hnil]
    rfl
  · rw [List.concat_eq_append] at hconcat
    have hlast := h.last last (by rw [hconcat]; simp)
    have hnumbered := h.numbered
    rw [hconcat, List.map_append, List.length_append, List.map_singleton, List.length_singleton,
      List.range'_1_concat] at hnumbered
    have hend := (List.append_inj' hnumbered rfl).2
    rw [List.cons.injEq] at hend
    rw [hlast.2, hend.1, hconcat, List.length_append, List.length_singleton]
    omega

/-- The log of a job after its next checkpoint. -/
theorem CheckpointLog.concat {inherited : JobStanding} {rows : List BackgroundJobCheckpoint}
    (h : CheckpointLog before inherited rows) (hsequence : row.sequence = before.version + 1) :
    CheckpointLog ⟨before.parent, some row.payload, row.sequence⟩ inherited
      (rows ++ [row]) where
  numbered := by
    have hversion := h.version_eq
    rw [List.map_append, List.length_append, h.numbered, List.map_singleton,
      List.length_singleton, List.range'_1_concat, hsequence, hversion]
    congr 2
    omega
  first hnil := by simp at hnil
  last last hlast := by
    rw [List.getLast?_concat, Option.mem_some_iff] at hlast
    subst hlast
    exact ⟨rfl, rfl⟩
  parent := h.parent

theorem CheckpointRun.Logged.of_init (h : (checkpointSystem rt).init s) : s.Logged := by
  obtain ⟨⟨hjobs, -⟩, hcheckpoints⟩ := h
  refine ⟨fun id standing hstanding => ?_, fun row hrow => ?_, ?_⟩
  · rw [standingOf, Table.get?, hjobs] at hstanding
    cases hstanding
  · rw [Table.mem_def, hcheckpoints] at hrow
    cases hrow
  · rw [hcheckpoints]
    exact List.nodup_nil

theorem CheckpointRun.next_inherited {id : UUID} {standing : JobStanding}
    (h : standingOf s.db id = some standing) : (s.next db').inherited id = s.inherited id := by
  simp only [CheckpointRun.next, h]

theorem CheckpointRun.Logged.entered (h : s.Logged) (hstep : Entered s.db db') :
    (s.next db').Logged := by
  refine ⟨fun id standing hstanding => ?_, fun row hrow => ?_, ?_⟩
  · change CheckpointLog standing _ (checkpointsOf db' id)
    rw [checkpointsOf_congr hstep.checkpoints]
    have hstanding : standingOf db' id = some standing := hstanding
    cases hbefore : standingOf s.db id with
    | some before =>
      obtain rfl : before = standing :=
        Option.some.inj ((hstep.kept id before hbefore).symm.trans hstanding)
      rw [CheckpointRun.next_inherited hbefore]
      obtain ⟨hnumbered, hfirst, hlast, hparent⟩ := h.log id before hbefore
      exact ⟨hnumbered, hfirst, hlast, hparent⟩
    | none =>
      -- A job that was not there has no checkpoint.
      have hnil : checkpointsOf s.db id = [] := by
        rw [checkpointsOf, Table.select, List.filter_eq_nil_iff]
        intro row hrow hid
        exact h.unknown row hrow ((of_decide_eq_true hid).symm ▸ hbefore)
      have hinherited : (s.next db').inherited id = standing := by
        simp only [CheckpointRun.next, hbefore, hstanding, Option.getD_some]
      rw [hnil, hinherited]
      exact ⟨rfl, fun _ => rfl, fun row hrow => (by cases hrow), rfl⟩
  · have hrow : row ∈ s.db.backgroundJobCheckpoints := hstep.checkpoints ▸ hrow
    obtain ⟨standing, hstanding⟩ := Option.ne_none_iff_exists'.mp (h.unknown row hrow)
    have hkept := hstep.kept _ _ hstanding
    change standingOf db' row.jobId ≠ none
    rw [hkept]
    simp
  · change (db'.backgroundJobCheckpoints.rows.map _).Nodup
    rw [hstep.checkpoints]
    exact h.keys

theorem CheckpointRun.Logged.appended (h : s.Logged)
    (hstep : AppendsCheckpoint s.db db' row before) :
    (s.next db').Logged := by
  have hrows := (Table.insert?_eq_some.mp hstep.inserted).2
  have hknown : ∀ id, standingOf s.db id ≠ none → standingOf db' id ≠ none := by
    intro id hid
    rw [hstep.standing]
    split
    · simp
    · exact hid
  refine ⟨fun id standing hstanding => ?_, fun other hother => ?_, ?_⟩
  · change CheckpointLog standing _ (checkpointsOf db' id)
    have hstanding : standingOf db' id = some standing := hstanding
    rw [hstep.standing] at hstanding
    rw [hstep.checkpointsOf]
    by_cases hid : id = row.jobId
    · subst hid
      rw [if_pos rfl, Option.some.injEq] at hstanding
      subst hstanding
      rw [if_pos rfl, CheckpointRun.next_inherited hstep.before_eq]
      exact (h.log _ _ hstep.before_eq).concat hstep.sequence
    · rw [if_neg hid] at hstanding
      rw [if_neg (Ne.symm hid), List.append_nil, CheckpointRun.next_inherited hstanding]
      obtain ⟨hnumbered, hfirst, hlast, hparent⟩ := h.log id standing hstanding
      exact ⟨hnumbered, hfirst, hlast, hparent⟩
  · rcases (Table.mem_insert? hstep.inserted).mp hother with hother | rfl
    · exact hknown _ (h.unknown other hother)
    · refine hknown _ ?_
      rw [hstep.before_eq]
      simp
  · change (db'.backgroundJobCheckpoints.rows.map _).Nodup
    rw [hrows, List.map_append, List.map_singleton]
    refine List.nodup_append.mpr ⟨h.keys, List.nodup_singleton _, ?_⟩
    intro key hkey key' hkey' heq
    obtain rfl := List.mem_singleton.mp hkey'
    obtain ⟨other, hother, hotherkey⟩ := List.mem_map.mp hkey
    have hfresh := List.find?_eq_none.mp hstep.fresh other hother
    exact hfresh (decide_eq_true (hotherkey.trans heq))

theorem CheckpointRun.Logged.step (h : s.Logged) (hstep : (checkpointSystem rt).step s s') :
    s'.Logged := by
  obtain ⟨hstep, hnext⟩ := hstep
  rw [hnext]
  rcases jobSystem_standing hstep with hentered | hsame | ⟨row, before, happends⟩
  · exact CheckpointRun.Logged.entered h hentered
  · exact CheckpointRun.Logged.entered h hsame.entered
  · exact CheckpointRun.Logged.appended h happends

theorem logged_of_reachable (h : (checkpointSystem rt).Reachable s) : s.Logged :=
  h.invariant (fun _ hinit => CheckpointRun.Logged.of_init hinit)
    fun _ _ hlogged hstep => hlogged.step hstep

theorem Grows.trans {id : UUID} (h : Grows db db₁ id) (h' : Grows db₁ db' id) :
    Grows db db' id where
  version standing hstanding := by
    obtain ⟨middle, hmiddle, hle⟩ := h.version standing hstanding
    obtain ⟨last, hlast, hle'⟩ := h'.version middle hmiddle
    exact ⟨last, hlast, hle.trans hle'⟩
  rows := h.rows.trans h'.rows

theorem Entered.grows (h : Entered db db') (id : UUID) : Grows db db' id where
  version standing hstanding := ⟨standing, h.kept id standing hstanding, le_rfl⟩
  rows := by rw [checkpointsOf_congr h.checkpoints]

theorem jobSystem_grows (h : (jobSystem rt).step db db') (id : UUID) : Grows db db' id := by
  rcases jobSystem_standing h with hentered | hsame | ⟨row, before, happends⟩
  · exact hentered.grows id
  · exact hsame.entered.grows id
  · refine ⟨fun standing hstanding => ?_, ?_⟩
    · rw [happends.standing]
      by_cases hid : id = row.jobId
      · subst hid
        rw [if_pos rfl]
        obtain rfl : before = standing :=
          Option.some.inj (happends.before_eq.symm.trans hstanding)
        refine ⟨_, rfl, ?_⟩
        change before.version ≤ row.sequence
        rw [happends.sequence]
        exact Nat.le_succ _
      · rw [if_neg hid]
        exact ⟨standing, hstanding, le_rfl⟩
    · rw [happends.checkpointsOf]
      exact List.prefix_append _ _

theorem grows_of_run (h : Relation.ReflTransGen (checkpointSystem rt).step s s') (id : UUID) :
    Grows s.db s'.db id := by
  induction h with
  | refl => exact ⟨fun standing hstanding => ⟨standing, hstanding, le_rfl⟩, List.prefix_rfl⟩
  | tail _ hstep ih => exact ih.trans (jobSystem_grows hstep.1 id)

theorem CheckpointRun.Logged.find (h : s.Logged) (hrow : row ∈ s.db.backgroundJobCheckpoints) :
    checkpointOfKey s.db row.idempotencyKey = some row := by
  have hsome : (checkpointOfKey s.db row.idempotencyKey).isSome := by
    rw [checkpointOfKey, List.find?_isSome]
    exact ⟨row, hrow, decide_eq_true rfl⟩
  obtain ⟨found, hfound⟩ := Option.isSome_iff_exists.mp hsome
  have hkey : found.idempotencyKey = row.idempotencyKey := by
    have := List.find?_some hfound
    simpa using this
  have hmem : found ∈ s.db.backgroundJobCheckpoints.rows := List.mem_of_find?_eq_some hfound
  rw [hfound, List.inj_on_of_nodup_map h.keys hmem hrow hkey]

end Runs

/-- In every store a run reaches the checkpoints of a job are numbered without gaps from what it
inherited on, which is nothing or where the job it resumes stood, and the job stands at the last
of them; along a run they only grow. An accepted checkpoint is recorded, and what is recorded is
answered from its row, also when the result of an effect or the end of the job carries it. -/
theorem checkpoints_of_run {rt : Runtime} {s : CheckpointRun}
    (h : (checkpointSystem rt).Reachable s) :
    (∀ job ∈ s.db.backgroundJobs,
      CheckpointLog job.standing (s.inherited job.id) (checkpointsOf s.db job.id)) ∧
    (∀ s', (checkpointSystem rt).step s s' → ∀ job ∈ s'.db.backgroundJobs,
      s.db.backgroundJobs.get? job.id = none →
        s'.inherited job.id = job.standing ∧ Inherits s'.db job.standing) ∧
    (∀ s', Relation.ReflTransGen (checkpointSystem rt).step s s' → ∀ id, Grows s.db s'.db id) ∧
    (∀ grant now c result db', BackgroundJobService.checkpoint rt s.db grant now c =
      .ok (result, db') → ∃ row ∈ db'.backgroundJobCheckpoints, row.Records rt c ∧
        row.jobId = grant.jobId ∧ row.id = result.checkpointId ∧ row.sequence = result.sequence) ∧
    (∀ grant now c result db', BackgroundJobService.recordEffectResult rt s.db grant now c =
      .ok (result, db') → ∃ row ∈ db'.backgroundJobCheckpoints, row.Records rt c.checkpoint ∧
        row.jobId = grant.jobId ∧ row.id = result.checkpointId ∧ row.sequence = result.sequence) ∧
    (∀ grant now c key payload db', c.finalCheckpointKey = some key →
      c.finalCheckpoint = some payload →
      BackgroundJobService.complete rt s.db grant now c = .ok db' →
        ∃ row ∈ db'.backgroundJobCheckpoints, row.jobId = grant.jobId ∧
          row.Records rt ⟨c.expectedCheckpointVersion, key, payload, c.checkpointId⟩) ∧
    ∀ row ∈ s.db.backgroundJobCheckpoints,
      (∀ grant now job lease c, HoldsLease s.db grant now job lease → row.jobId = grant.jobId →
        row.Records rt c → BackgroundJobService.checkpoint rt s.db grant now c =
          .ok (⟨row.id, row.sequence, true⟩, s.db)) ∧
      (∀ grant now c result db', row.jobId = grant.jobId → row.Records rt c.checkpoint →
        BackgroundJobService.recordEffectResult rt s.db grant now c = .ok (result, db') →
          result = ⟨row.id, row.sequence, true⟩ ∧ SameStanding s.db db') ∧
      (∀ grant now c key payload db', row.jobId = grant.jobId → c.finalCheckpointKey = some key →
        c.finalCheckpoint = some payload →
        row.Records rt ⟨c.expectedCheckpointVersion, key, payload, c.checkpointId⟩ →
        BackgroundJobService.complete rt s.db grant now c = .ok db' → SameStanding s.db db') := by
  have hlogged := logged_of_reachable h
  refine ⟨?_, ?_, fun s' hrun id => grows_of_run hrun id, ?_, ?_, ?_, ?_⟩
  · intro job hjob
    exact hlogged.log job.id job.standing (standingOf_of_mem hjob)
  · rintro s' ⟨hstep, hnext⟩ job hjob hnew
    have hnone : standingOf s.db job.id = none := by rw [standingOf, hnew]; rfl
    have hsome : standingOf s'.db job.id = some job.standing := standingOf_of_mem hjob
    constructor
    · rw [hnext]
      simp only [CheckpointRun.next, hnone, hsome, Option.getD_some]
    · rcases jobSystem_standing hstep with hentered | hsame | ⟨row, before, happends⟩
      · exact hentered.entered _ _ hnone hsome
      · exact hsame.entered.entered _ _ hnone hsome
      · rw [happends.standing] at hsome
        split at hsome
        · rename_i hid
          rw [hid, happends.before_eq] at hnone
          cases hnone
        · rw [hnone] at hsome
          cases hsome
  · intro grant now c result db' hrun
    exact recorded_of_checkpoint hrun
  · intro grant now c result db' hrun
    exact recorded_of_effect hrun
  · intro grant now c key payload db' hkey hpayload hrun
    exact recorded_of_complete hkey hpayload hrun
  · intro row hrow
    have hfind := hlogged.find hrow
    refine ⟨?_, ?_, ?_⟩
    · intro grant now job lease c hheld hjob hrecords
      exact checkpoint_of_recorded hfind hheld hjob hrecords
    · intro grant now c result db' hjob hrecords hrun
      exact recordEffectResult_of_recorded hfind hjob hrecords hrun
    · intro grant now c key payload db' hjob hkey hpayload hrecords hrun
      exact complete_of_recorded hfind hjob hkey hpayload hrecords hrun

/-! ### Checkpoints under two leases -/

/-- Commands of one service issued one after another. -/
def runCheckpoints (rt : Runtime) (service : BackgroundJobService) (s : CheckpointRun)
    (cs : List JobCommand) : CheckpointRun :=
  cs.foldl (fun s c => s.next (s.db.commit (c.run rt service s.db))) s

theorem reachable_runCheckpoints {rt : Runtime} (service : BackgroundJobService)
    (cs : List JobCommand) {s : CheckpointRun} (h : (checkpointSystem rt).Reachable s) :
    (checkpointSystem rt).Reachable (runCheckpoints rt service s cs) := by
  induction cs generalizing s with
  | nil => exact h
  | cons c cs ih => exact ih (h.tail ⟨.inl ⟨service, c, rfl⟩, rfl⟩)

namespace CheckpointExample

open TakeoverExample (task service schedule claim store)

def lease (worker : String) (n : ℕ) (start : Time) : JobLeaseGrant where
  jobId := schedule.jobId
  taskId := task.id
  leaseId := .ofNat (2 + n)
  workerId := worker
  attempt := n
  fencingToken := n
  expiresAt := start + seconds 10
  jobType := "work"
  inputPayload := .obj []
  checkpoint := none
  checkpointVersion := 0
  recovered := false

def progress (version : ℕ) (key : String) : CheckpointCommand where
  expectedVersion := version
  idempotencyKey := key
  payload := .obj [("done", .int version)]
  checkpointId := .ofNat (20 + version)

/-- Each of two workers records a checkpoint; the second repeats that of the first. -/
def commands : List JobCommand :=
  [.schedule schedule, .claimNext (claim "a" (seconds 2) (.ofNat 3)),
    .granted (lease "a" 1 (seconds 2)) (seconds 3) (.checkpoint (progress 0 "one")),
    .claimNext (claim "b" (seconds 12) (.ofNat 4)),
    .granted (lease "b" 2 (seconds 12)) (seconds 13) (.checkpoint (progress 0 "one")),
    .granted (lease "b" 2 (seconds 12)) (seconds 14) (.checkpoint (progress 1 "two"))]

def after : CheckpointRun :=
  runCheckpoints .plain service ⟨store, fun _ => ⟨none, none, 0⟩⟩ commands

theorem reachable : (checkpointSystem .plain).Reachable after :=
  reachable_runCheckpoints service commands (.of_init ⟨⟨rfl, rfl, rfl⟩, rfl⟩)

set_option maxRecDepth 4000 in
theorem rows : ((checkpointsOf after.db schedule.jobId).map fun row =>
      (row.sequence, row.fencingToken)) = [(1, 1), (2, 2)] ∧
    (after.db.backgroundJobs.rows.map BackgroundJob.checkpointVersion) = [2] := by
  decide +kernel

end CheckpointExample

open CheckpointExample in
theorem checkpoints_of_run_two :
    ((checkpointsOf after.db TakeoverExample.schedule.jobId).map fun row =>
      (row.sequence, row.fencingToken)) = [(1, 1), (2, 2)] ∧
    (after.db.backgroundJobs.rows.map BackgroundJob.checkpointVersion) = [2] ∧
    ∀ job ∈ after.db.backgroundJobs,
      CheckpointLog job.standing (after.inherited job.id) (checkpointsOf after.db job.id) :=
  ⟨rows.1, rows.2, (checkpoints_of_run reachable).1⟩

end ControlPlane
