import ControlPlane.Jobs.System
import ControlPlane.Lib.Attempts

/-!
# The attempt budget of a job

The store is read as one account for each job: where the job stands, the attempts it has
used of those it may use, the leases issued for it and the pauses that gave an attempt
back. What the service writes to a job and its lease is a turn of the job's account and
leaves the other accounts alone.
-/
namespace ControlPlane

open Attempts (Phase Account Turn Turns Balanced)

/-- The states a job stays in. -/
def BackgroundJobStatus.isTerminal : BackgroundJobStatus → Bool
  | queued | running => false
  | succeeded | failed | cancelled => true

/-- The leases issued for a job. -/
def leasesIssued (leases : Table BackgroundJobLease) (jobId : UUID) : ℕ :=
  (leases.rows.map BackgroundJobLease.jobId).count jobId

/-- Where a job stands; it is corrupt when its lease or its completion contradicts its
status. -/
def jobPhase (db : Database) (job : BackgroundJob) : Phase BackgroundJobStatus :=
  match job.status with
  | .queued => if job.currentLeaseId = none then .waiting else .corrupt
  | .running =>
    if (currentLeaseRow db job).any (·.released.isNone) then .active else .corrupt
  | .succeeded | .failed | .cancelled =>
    if job.completedAt.isSome ∧ job.currentLeaseId = none then .finished job.status else .corrupt

/-- The account of a job; `paused` counts the pauses of each job. -/
def account (db : Database) (paused : UUID → ℕ) (jobId : UUID) :
    Account BackgroundJobStatus :=
  match db.backgroundJobs.get? jobId with
  | none => ⟨.absent, 0, 0, leasesIssued db.backgroundJobLeases jobId, paused jobId⟩
  | some job =>
    ⟨jobPhase db job, job.attemptCount, job.maxAttempts,
      leasesIssued db.backgroundJobLeases jobId, paused jobId⟩

/-- No job contradicts its lease. -/
def Sound (db : Database) : Prop := ∀ job ∈ db.backgroundJobs, jobPhase db job ≠ .corrupt

/-- Every account takes turns. -/
def JobTurns (db db' : Database) : Prop :=
  ∀ paused jobId, Turns (account db paused jobId) (account db' paused jobId)

namespace JobTurns
variable {db db₁ db' : Database}

theorem refl (db : Database) : JobTurns db db := fun _ _ => .refl

theorem trans (h : JobTurns db db₁) (h' : JobTurns db₁ db') : JobTurns db db' :=
  fun paused jobId => (h paused jobId).trans (h' paused jobId)

/-- Nothing of jobs and leases is written. -/
theorem frame (hjobs : db'.backgroundJobs = db.backgroundJobs)
    (hleases : db'.backgroundJobLeases = db.backgroundJobLeases) : JobTurns db db' := by
  intro paused jobId
  have hsame : account db' paused jobId = account db paused jobId := by
    unfold account jobPhase currentLeaseRow
    rw [hjobs, hleases]
  rw [hsame]

end JobTurns

theorem account_of_mem {db : Database} {job : BackgroundJob}
    (h : db.backgroundJobs.get? job.id = some job) (paused : UUID → ℕ) :
    account db paused job.id =
      ⟨jobPhase db job, job.attemptCount, job.maxAttempts,
        leasesIssued db.backgroundJobLeases job.id, paused job.id⟩ := by
  simp only [account, h]

theorem JobTurns.sound {db db' : Database} (h : JobTurns db db') (hsound : Sound db) :
    Sound db' := by
  intro job hjob
  have hget : db'.backgroundJobs.get? job.id = some job := Table.get?_key hjob
  have hafter := account_of_mem hget fun _ => 0
  have hbefore : (account db (fun _ => 0) job.id).phase ≠ .corrupt := by
    unfold account
    split
    · simp
    · rename_i old hold
      exact hsound old (Table.mem_of_get? hold)
  have hphase := (h (fun _ => 0) job.id).sound hbefore
  rw [hafter] at hphase
  exact hphase

/-! ### Leases of other jobs -/

/-- Only leases of one job are written. -/
structure OthersKept (jobId : UUID) (leases leases' : Table BackgroundJobLease) : Prop where
  get : ∀ id lease, lease.jobId ≠ jobId →
    (leases'.get? id = some lease ↔ leases.get? id = some lease)
  issued : ∀ other ≠ jobId, leasesIssued leases' other = leasesIssued leases other

namespace OthersKept
variable {jobId : UUID} {leases leases₁ leases' : Table BackgroundJobLease}
  {lease lease' : BackgroundJobLease}

theorem refl (jobId : UUID) (leases : Table BackgroundJobLease) : OthersKept jobId leases leases :=
  ⟨fun _ _ _ => Iff.rfl, fun _ _ => rfl⟩

theorem trans (h : OthersKept jobId leases leases₁) (h' : OthersKept jobId leases₁ leases') :
    OthersKept jobId leases leases' :=
  ⟨fun id lease hne => (h'.get id lease hne).trans (h.get id lease hne),
    fun other hne => (h'.issued other hne).trans (h.issued other hne)⟩

/-- Writing a lease back issues none. -/
theorem issued_set (hget : leases.get? lease.id = some lease) (hid : lease'.id = lease.id)
    (hjob : lease'.jobId = lease.jobId) (other : UUID) :
    leasesIssued (leases.set lease') other = leasesIssued leases other := by
  have hcol : (leases.set lease').rows.map BackgroundJobLease.jobId =
      leases.rows.map BackgroundJobLease.jobId :=
    Table.map_col_set ((congrArg leases.get? hid).trans hget) hjob
  rw [leasesIssued, hcol, leasesIssued]

theorem set (hget : leases.get? lease.id = some lease) (hid : lease'.id = lease.id)
    (hjob : lease'.jobId = lease.jobId) : OthersKept lease.jobId leases (leases.set lease') := by
  refine ⟨?_, fun other _ => issued_set hget hid hjob other⟩
  intro id row hne
  by_cases h : id = lease.id
  · -- The row under the identifier written belongs to the job.
    subst h
    rw [Table.get?_set, if_pos (show key lease' = lease.id from hid), hget]
    simp only [Option.map_some, Option.some.injEq]
    constructor
    · rintro rfl
      exact absurd hjob hne
    · rintro rfl
      exact absurd rfl hne
  · rw [Table.get?_set_of_ne fun heq => h (heq.symm.trans hid)]

theorem insert (h : leases.insert? lease = some leases') :
    OthersKept lease.jobId leases leases' := by
  obtain ⟨hnone, hrows⟩ := Table.insert?_eq_some.mp h
  constructor
  · intro id row hne
    rw [Table.get?_insert? h]
    by_cases hid : key lease = id
    · subst hid
      rw [if_pos rfl, hnone]
      simp only [Option.some.injEq, reduceCtorEq, iff_false]
      rintro rfl
      exact hne rfl
    · rw [if_neg hid]
  · intro other hne
    simp [leasesIssued, hrows, Ne.symm hne]

theorem issued_insert (h : leases.insert? lease = some leases') :
    leasesIssued leases' lease.jobId = leasesIssued leases lease.jobId + 1 := by
  simp [leasesIssued, (Table.insert?_eq_some.mp h).2]

end OthersKept

/-! ### A job written back -/

section Write
variable {db db' : Database} {job job' : BackgroundJob}

theorem currentLeaseRow_eq_some {db : Database} {job : BackgroundJob} {lease : BackgroundJobLease} :
    currentLeaseRow db job = some lease ↔
      job.currentLeaseId = some lease.id ∧ db.backgroundJobLeases.get? lease.id = some lease ∧
        lease.jobId = job.id ∧ job.currentFencingToken = some lease.fencingToken := by
  simp only [currentLeaseRow, Option.bind_eq_bind, Option.bind_eq_some_iff,
    Option.ite_none_right_eq_some, Option.some.injEq]
  constructor
  · rintro ⟨leaseId, hcurrent, row, hrow, ⟨hjob, htoken⟩, rfl⟩
    obtain rfl : row.id = leaseId := Table.key_of_get? hrow
    exact ⟨hcurrent, hrow, hjob, htoken⟩
  · rintro ⟨hcurrent, hrow, hjob, htoken⟩
    exact ⟨lease.id, hcurrent, lease, hrow, ⟨hjob, htoken⟩, rfl⟩

/-- The accounts of other jobs. -/
theorem account_of_ne (hget : db.backgroundJobs.get? job.id = some job) (hid : job'.id = job.id)
    (hjobs : db'.backgroundJobs = db.backgroundJobs.set job')
    (hleases : OthersKept job.id db.backgroundJobLeases db'.backgroundJobLeases)
    (paused : UUID → ℕ) {other : UUID} (hne : other ≠ job.id) :
    account db' paused other = account db paused other := by
  have hother : db'.backgroundJobs.get? other = db.backgroundJobs.get? other := by
    rw [hjobs, get?_set_job hget hid, if_neg hne]
  simp only [account, hother, hleases.issued other hne]
  cases hrow : db.backgroundJobs.get? other with
  | none => rfl
  | some row =>
    have hrowId : row.id = other := Table.key_of_get? hrow
    have hlease : currentLeaseRow db' row = currentLeaseRow db row := by
      refine Option.ext fun lease => ?_
      rw [currentLeaseRow_eq_some, currentLeaseRow_eq_some]
      constructor
      · rintro ⟨hcurrent, hlease, hjob, htoken⟩
        have hlne : lease.jobId ≠ job.id := hjob.trans hrowId ▸ hne
        exact ⟨hcurrent, (hleases.get _ _ hlne).mp hlease, hjob, htoken⟩
      · rintro ⟨hcurrent, hlease, hjob, htoken⟩
        have hlne : lease.jobId ≠ job.id := hjob.trans hrowId ▸ hne
        exact ⟨hcurrent, (hleases.get _ _ hlne).mpr hlease, hjob, htoken⟩
    simp only [jobPhase, hlease]

/-- The account of the job written back. -/
theorem account_of_write (hget : db.backgroundJobs.get? job.id = some job)
    (hid : job'.id = job.id) (hjobs : db'.backgroundJobs = db.backgroundJobs.set job')
    (paused : UUID → ℕ) :
    account db' paused job.id =
      ⟨jobPhase db' job', job'.attemptCount, job'.maxAttempts,
        leasesIssued db'.backgroundJobLeases job.id, paused job.id⟩ := by
  have hself : db'.backgroundJobs.get? job.id = some job' := by
    rw [hjobs, get?_set_job hget hid, if_pos rfl]
  simp only [account, hself]

/-- Writing back a job is a turn of its account alone. -/
theorem turns_of_write (hget : db.backgroundJobs.get? job.id = some job) (hid : job'.id = job.id)
    (hjobs : db'.backgroundJobs = db.backgroundJobs.set job')
    (hleases : OthersKept job.id db.backgroundJobLeases db'.backgroundJobLeases)
    (hturn : ∀ paused, Turns (account db paused job.id) (account db' paused job.id)) :
    JobTurns db db' := by
  intro paused jobId
  by_cases h : jobId = job.id
  · subst h
    exact hturn paused
  · rw [account_of_ne hget hid hjobs hleases paused h]

end Write

/-! ### A job and its live lease -/

/-- A job that runs under an unreleased lease. -/
structure Active (db : Database) (job : BackgroundJob) (lease : BackgroundJobLease) : Prop where
  job_eq : db.backgroundJobs.get? job.id = some job
  row : currentLeaseRow db job = some lease
  running : job.status = .running
  unreleased : lease.released = none

theorem HoldsLease.active {db : Database} {grant : JobLeaseGrant} {now : Time}
    {job : BackgroundJob} {lease : BackgroundJobLease} (h : HoldsLease db grant now job lease) :
    Active db job lease := by
  have hjob : job.id = grant.jobId := Table.key_of_get? h.job_eq
  refine ⟨h.leases.job_eq, ?_, h.running, h.unreleased⟩
  refine currentLeaseRow_eq_some.mpr ⟨h.leases.current, h.leases.lease_eq, ?_, ?_⟩
  · rw [h.lease_job, hjob]
  · rw [h.token, h.lease_token]

theorem Sound.active {db : Database} {job : BackgroundJob} {lease : BackgroundJobLease}
    (h : Sound db) (hjob : db.backgroundJobs.get? job.id = some job)
    (hrow : currentLeaseRow db job = some lease) (hrunning : job.status = .running) :
    Active db job lease := by
  have hphase := h job (Table.mem_of_get? hjob)
  refine ⟨hjob, hrow, hrunning, ?_⟩
  simpa [jobPhase, hrunning, hrow] using hphase

/-- A running job has an unreleased lease. -/
theorem Sound.exists_active {db : Database} {job : BackgroundJob} (h : Sound db)
    (hjob : db.backgroundJobs.get? job.id = some job) (hrunning : job.status = .running) :
    ∃ lease, Active db job lease := by
  have hphase := h job (Table.mem_of_get? hjob)
  cases hrow : currentLeaseRow db job with
  | none => simp [jobPhase, hrunning, hrow] at hphase
  | some lease => exact ⟨lease, h.active hjob hrow hrunning⟩

theorem Sound.waiting {db : Database} {job : BackgroundJob} (h : Sound db)
    (hjob : db.backgroundJobs.get? job.id = some job) (hqueued : job.status = .queued) :
    job.currentLeaseId = none := by
  have hphase := h job (Table.mem_of_get? hjob)
  by_contra hne
  simp [jobPhase, hqueued, hne] at hphase

theorem Sound.idle {db : Database} (h : Sound db) : Idle db := by
  intro job hjob hstatus
  have hphase := h job hjob
  by_contra hne
  cases hjobStatus : job.status <;> simp_all [jobPhase]

namespace Active
variable {db : Database} {job job' : BackgroundJob} {lease lease' : BackgroundJobLease}

theorem phase (h : Active db job lease) : jobPhase db job = .active := by
  simp [jobPhase, h.running, h.row, h.unreleased]

theorem lease_eq (h : Active db job lease) :
    db.backgroundJobLeases.get? lease.id = some lease :=
  (currentLeaseRow_eq_some.mp h.row).2.1

theorem lease_job (h : Active db job lease) : lease.jobId = job.id :=
  (currentLeaseRow_eq_some.mp h.row).2.2.1

theorem account_eq (h : Active db job lease) (paused : UUID → ℕ) :
    account db paused job.id =
      ⟨.active, job.attemptCount, job.maxAttempts, leasesIssued db.backgroundJobLeases job.id,
        paused job.id⟩ := by
  rw [account_of_mem h.job_eq, h.phase]

theorem othersKept (h : Active db job lease) (hid : lease'.id = lease.id)
    (hjob : lease'.jobId = lease.jobId) :
    OthersKept job.id db.backgroundJobLeases (db.backgroundJobLeases.set lease') :=
  h.lease_job ▸ OthersKept.set h.lease_eq hid hjob

theorem issued_eq (h : Active db job lease) (hid : lease'.id = lease.id)
    (hjob : lease'.jobId = lease.jobId) :
    leasesIssued (db.backgroundJobLeases.set lease') job.id =
      leasesIssued db.backgroundJobLeases job.id :=
  OthersKept.issued_set h.lease_eq hid hjob job.id

/-- The account of the job after it and its lease are written back. -/
theorem account_putLeased (h : Active db job lease) (hid : job'.id = job.id)
    (hlid : lease'.id = lease.id) (hljob : lease'.jobId = lease.jobId) (paused : UUID → ℕ) :
    account (db.putLeased job' lease') paused job.id =
      ⟨jobPhase (db.putLeased job' lease') job', job'.attemptCount, job'.maxAttempts,
        leasesIssued db.backgroundJobLeases job.id, paused job.id⟩ := by
  rw [account_of_write h.job_eq hid rfl, ← h.issued_eq hlid hljob]
  rfl

/-- Both written back, and the job goes on. -/
theorem keep (h : Active db job lease) (hid : job'.id = job.id)
    (hrunning : job'.status = job.status) (hcurrent : job'.currentLeaseId = job.currentLeaseId)
    (htoken : job'.currentFencingToken = job.currentFencingToken)
    (hused : job'.attemptCount = job.attemptCount) (hlimit : job'.maxAttempts = job.maxAttempts)
    (hview : lease'.view = lease.view) (hreleased : lease'.released = lease.released) :
    Active (db.putLeased job' lease') job' lease' ∧ JobTurns db (db.putLeased job' lease') := by
  have hlid : lease'.id = lease.id := congrArg FencedLease.Lease.id hview
  have hljob : lease'.jobId = lease.jobId := congrArg FencedLease.Lease.resource hview
  have hltoken : lease'.fencingToken = lease.fencingToken :=
    congrArg FencedLease.Lease.token hview
  obtain ⟨hcur, hlease, hjob, htok⟩ := currentLeaseRow_eq_some.mp h.row
  have hactive : Active (db.putLeased job' lease') job' lease' := by
    refine ⟨?_, ?_, hrunning.trans h.running, hreleased.trans h.unreleased⟩
    · simp only [Database.putLeased, get?_set_job h.job_eq hid, hid, if_true]
    · refine currentLeaseRow_eq_some.mpr ⟨?_, ?_, ?_, ?_⟩
      · rw [hcurrent, hlid, hcur]
      · simp only [Database.putLeased]
        refine Table.get?_set_self (a := lease') ?_
        rw [show key lease' = lease.id from hlid, hlease]
        exact Option.some_ne_none lease
      · rw [hljob, hid, hjob]
      · rw [htoken, hltoken, htok]
  refine ⟨hactive, turns_of_write h.job_eq hid rfl (h.othersKept hlid hljob) ?_⟩
  intro paused
  rw [h.account_eq, h.account_putLeased hid hlid hljob, hactive.phase, hused, hlimit]

/-- Both written back, and the job is finished. -/
theorem close (h : Active db job lease) (hid : job'.id = job.id)
    (hdone : job'.status.isTerminal = true) (hcompleted : job'.completedAt.isSome = true)
    (hfree : job'.currentLeaseId = none) (hused : job'.attemptCount = job.attemptCount)
    (hlimit : job'.maxAttempts = job.maxAttempts) (hlid : lease'.id = lease.id)
    (hljob : lease'.jobId = lease.jobId) : JobTurns db (db.putLeased job' lease') := by
  refine turns_of_write h.job_eq hid rfl (h.othersKept hlid hljob) ?_
  intro paused
  have hphase : jobPhase (db.putLeased job' lease') job' = .finished job'.status := by
    cases hstatus : job'.status <;> simp_all [jobPhase, BackgroundJobStatus.isTerminal]
  rw [h.account_eq, h.account_putLeased hid hlid hljob, hphase, hused, hlimit]
  exact .single (.close _ _ (.inr rfl))

theorem phase_queued (hqueued : job'.status = .queued) (hfree : job'.currentLeaseId = none) :
    jobPhase db job' = .waiting := by
  simp [jobPhase, hqueued, hfree]

/-- Both written back, and the job waits for its next attempt. -/
theorem giveUp (h : Active db job lease) (hid : job'.id = job.id)
    (hqueued : job'.status = .queued) (hfree : job'.currentLeaseId = none)
    (hused : job'.attemptCount = job.attemptCount) (hlimit : job'.maxAttempts = job.maxAttempts)
    (hleft : job.attemptCount < job.maxAttempts) (hlid : lease'.id = lease.id)
    (hljob : lease'.jobId = lease.jobId) : JobTurns db (db.putLeased job' lease') := by
  refine turns_of_write h.job_eq hid rfl (h.othersKept hlid hljob) ?_
  intro paused
  rw [h.account_eq, h.account_putLeased hid hlid hljob, phase_queued hqueued hfree, hused, hlimit]
  exact .single (.giveUp _ rfl hleft)

/-- Both written back, with the attempt given back. -/
theorem refund (h : Active db job lease) (hid : job'.id = job.id)
    (hqueued : job'.status = .queued) (hfree : job'.currentLeaseId = none)
    (hused : job'.attemptCount = job.attemptCount - 1) (hlimit : job'.maxAttempts = job.maxAttempts)
    (hlid : lease'.id = lease.id) (hljob : lease'.jobId = lease.jobId) (paused : UUID → ℕ)
    (jobId : UUID) :
    Turns (account db paused jobId)
      (account (db.putLeased job' lease') (fun id => paused id + if id = job.id then 1 else 0)
        jobId) := by
  by_cases hjob : jobId = job.id
  · subst hjob
    rw [h.account_eq, h.account_putLeased hid hlid hljob, phase_queued hqueued hfree, hused, hlimit,
      if_pos rfl]
    exact .single (.refund _ rfl)
  · have hpaused : ∀ db : Database,
        account db (fun id => paused id + if id = job.id then 1 else 0) jobId =
          account db paused jobId := by
      intro db
      simp only [account, if_neg hjob, Nat.add_zero]
    have hother : account (db.putLeased job' lease') paused jobId = account db paused jobId :=
      account_of_ne h.job_eq hid rfl (h.othersKept hlid hljob) paused hjob
    rw [hpaused, hother]

end Active

end ControlPlane
