import ControlPlane.Jobs.Fence
import ControlPlane.Jobs.Outage
import ControlPlane.Lib.FencedLease

/-!
# What the commands write

Every command of the job service, of cancellation and of scope steering is a sequence of
elementary writes to jobs and leases, the constructors of `Touch`; all but two of them
leave the effects alone. Properties of whole runs are derived from these facts.
-/
namespace ControlPlane

/-- A lease as the general lease machine sees it. -/
def BackgroundJobLease.view (lease : BackgroundJobLease) : FencedLease.Lease UUID UUID :=
  ⟨lease.id, lease.jobId, lease.fencingToken, lease.released.isSome⟩

/-- What identifies a job and the generation it resumes. -/
def BackgroundJob.lineage (job : BackgroundJob) : UUID × Option UUID :=
  (job.id, job.parentCorrelationId)

/-- Leases and counter unchanged. -/
structure SameLeases (db db' : Database) : Prop where
  leases : db'.backgroundJobLeases = db.backgroundJobLeases
  next : db'.fencingCounter.getD 1 = db.fencingCounter.getD 1

/-- The elementary writes to jobs and leases. -/
inductive Touch (db : Database) : Database → Prop
  | frame {db' : Database} (hjobs : db'.backgroundJobs = db.backgroundJobs)
      (hleases : SameLeases db db') : Touch db db'
  | insertJob {db' : Database} (job : BackgroundJob) (hidle : job.currentLeaseId = none)
      (hparent : ∀ p ∈ job.parentCorrelationId, db.backgroundJobs.get? p ≠ none)
      (hjobs : db.backgroundJobs.insert? job = some db'.backgroundJobs)
      (hleases : SameLeases db db') : Touch db db'
  | rewriteJob {db' : Database} (job job' : BackgroundJob)
      (hget : db.backgroundJobs.get? job.id = some job) (hlineage : job'.lineage = job.lineage)
      (hcurrent : job'.currentLeaseId = job.currentLeaseId)
      (hstatus : job'.status = job.status ∨ job'.currentLeaseId = none)
      (hjobs : db'.backgroundJobs = db.backgroundJobs.set job')
      (hleases : SameLeases db db') : Touch db db'
  | rewriteLease {db' : Database} (lease lease' : BackgroundJobLease)
      (hget : db.backgroundJobLeases.get? lease.id = some lease)
      (hview : lease'.view = lease.view)
      (hjobs : db'.backgroundJobs = db.backgroundJobs)
      (hleases : db'.backgroundJobLeases = db.backgroundJobLeases.set lease')
      (hnext : db'.fencingCounter = db.fencingCounter) : Touch db db'
  | release {db' : Database} (job job' : BackgroundJob) (lease lease' : BackgroundJobLease)
      (hget : db.backgroundJobs.get? job.id = some job) (hlineage : job'.lineage = job.lineage)
      (hlease : db.backgroundJobLeases.get? lease.id = some lease)
      (hcurrent : job.currentLeaseId = some lease.id)
      (hidle : job'.currentLeaseId = none)
      (hview : lease'.view = { lease.view with released := true })
      (hjobs : db'.backgroundJobs = db.backgroundJobs.set job')
      (hleases : db'.backgroundJobLeases = db.backgroundJobLeases.set lease')
      (hnext : db'.fencingCounter = db.fencingCounter) : Touch db db'
  | issue {db' : Database} (job job' : BackgroundJob) (lease : BackgroundJobLease)
      (hget : db.backgroundJobs.get? job.id = some job) (hlineage : job'.lineage = job.lineage)
      (hfree : job.currentLeaseId = none)
      (hcurrent : job'.currentLeaseId = some lease.id) (hrunning : job'.status = .running)
      (hview : lease.view = ⟨lease.id, job.id, db.fencingCounter.getD 1, false⟩)
      (hleases : db.backgroundJobLeases.insert? lease = some db'.backgroundJobLeases)
      (hjobs : db'.backgroundJobs = db.backgroundJobs.set job')
      (hnext : db'.fencingCounter.getD 1 = db.fencingCounter.getD 1 + 1) : Touch db db'

/-- Writes one after another. -/
abbrev Touches : Database → Database → Prop := Relation.ReflTransGen Touch

/-- A job that does not run names no lease. -/
def Idle (db : Database) : Prop :=
  ∀ job ∈ db.backgroundJobs, job.status ≠ .running → job.currentLeaseId = none

/-! ### Rows written back -/

section Rows
variable {db db' : Database} {job job' : BackgroundJob}

theorem id_of_lineage (h : job'.lineage = job.lineage) : job'.id = job.id := congrArg Prod.fst h

theorem get?_set_job (hget : db.backgroundJobs.get? job.id = some job)
    (hid : job'.id = job.id) (id : UUID) :
    (db.backgroundJobs.set job').get? id =
      if id = job.id then some job' else db.backgroundJobs.get? id := by
  by_cases h : id = job.id
  · subst h
    rw [if_pos rfl, Table.get?_set, if_pos (show key job' = job.id from hid), hget]
    rfl
  · have hne : key job' ≠ id := fun heq => h (heq.symm.trans hid)
    rw [if_neg h, Table.get?_set, if_neg hne]

/-- A job of the table after a write is the one written or one from before. -/
theorem mem_set_job (hget : db.backgroundJobs.get? job.id = some job) (hid : job'.id = job.id)
    {j : BackgroundJob} (hj : j ∈ db.backgroundJobs.set job') :
    j = job' ∨ j ∈ db.backgroundJobs := by
  have hkey : db.backgroundJobs.get? (key job') ≠ none := by
    intro hnone
    rw [show key job' = job.id from hid, hget] at hnone
    cases hnone
  exact ((Table.mem_set hkey).mp hj).imp id And.left

end Rows

/-! ### What every write preserves -/

theorem Touch.idle {db db' : Database} (h : Touch db db') (hidle : Idle db) : Idle db' := by
  intro j hj hstatus
  cases h with
  | frame hjobs _ => exact hidle j (hjobs ▸ hj) hstatus
  | insertJob job hnone _ hjobs _ =>
    rcases (Table.mem_insert? hjobs).mp hj with hj | rfl
    · exact hidle j hj hstatus
    · exact hnone
  | rewriteJob job job' hget hlineage hcurrent hst hjobs _ =>
    rcases mem_set_job hget (id_of_lineage hlineage) (hjobs ▸ hj) with rfl | hj
    · rcases hst with hst | hnone
      · rw [hcurrent]
        exact hidle job (Table.mem_of_get? hget) (hst ▸ hstatus)
      · exact hnone
    · exact hidle j hj hstatus
  | rewriteLease _ _ _ _ hjobs _ _ => exact hidle j (hjobs ▸ hj) hstatus
  | release job job' _ _ hget hlineage _ _ hnone _ hjobs _ _ =>
    rcases mem_set_job hget (id_of_lineage hlineage) (hjobs ▸ hj) with rfl | hj
    · exact hnone
    · exact hidle j hj hstatus
  | issue job job' _ hget hlineage _ _ hrunning _ _ hjobs _ =>
    rcases mem_set_job hget (id_of_lineage hlineage) (hjobs ▸ hj) with rfl | hj
    · exact absurd hrunning hstatus
    · exact hidle j hj hstatus

theorem Touches.idle {db db' : Database} (h : Touches db db') (hidle : Idle db) : Idle db' := by
  induction h with
  | refl => exact hidle
  | tail _ h ih => exact h.idle ih

/-- Jobs are never removed. -/
theorem Touch.job_ne_none {db db' : Database} (h : Touch db db') {id : UUID}
    (hid : db.backgroundJobs.get? id ≠ none) : db'.backgroundJobs.get? id ≠ none := by
  have hset : ∀ {job job' : BackgroundJob}, db.backgroundJobs.get? job.id = some job →
      job'.lineage = job.lineage → (db.backgroundJobs.set job').get? id ≠ none := by
    intro job job' hget hlineage
    rw [get?_set_job hget (id_of_lineage hlineage)]
    split
    · simp
    · exact hid
  cases h with
  | frame hjobs _ => rwa [hjobs]
  | insertJob job _ _ hjobs _ =>
    rw [Table.get?_insert? hjobs]
    split
    · simp
    · exact hid
  | rewriteJob job job' hget hlineage _ _ hjobs _ => exact hjobs ▸ hset hget hlineage
  | rewriteLease _ _ _ _ hjobs _ _ => rwa [hjobs]
  | release job job' _ _ hget hlineage _ _ _ _ hjobs _ _ => exact hjobs ▸ hset hget hlineage
  | issue job job' _ hget hlineage _ _ _ _ _ hjobs _ => exact hjobs ▸ hset hget hlineage

theorem Touches.job_ne_none {db db' : Database} (h : Touches db db') {id : UUID}
    (hid : db.backgroundJobs.get? id ≠ none) : db'.backgroundJobs.get? id ≠ none := by
  induction h with
  | refl => exact hid
  | tail _ h ih => exact h.job_ne_none ih

/-- Writes that leave the effects alone. -/
structure Writes (db db' : Database) : Prop where
  touches : Touches db db'
  effects : db'.backgroundJobEffects = db.backgroundJobEffects

namespace Writes
variable {db db₁ db' : Database}

theorem refl (db : Database) : Writes db db := ⟨.refl, rfl⟩

theorem trans (h : Writes db db₁) (h' : Writes db₁ db') : Writes db db' :=
  ⟨h.touches.trans h'.touches, h'.effects.trans h.effects⟩

theorem of_touch (h : Touch db db') (heffects : db'.backgroundJobEffects = db.backgroundJobEffects) :
    Writes db db' := ⟨.single h, heffects⟩

/-- Nothing of the jobs is written. -/
theorem frame (hjobs : db'.backgroundJobs = db.backgroundJobs)
    (hleases : db'.backgroundJobLeases = db.backgroundJobLeases)
    (hnext : db'.fencingCounter = db.fencingCounter)
    (heffects : db'.backgroundJobEffects = db.backgroundJobEffects) : Writes db db' :=
  of_touch (.frame hjobs ⟨hleases, by rw [hnext]⟩) heffects

end Writes

/-! ### A job and its lease -/

/-- A job in the store that names a lease in the store. -/
structure Leases (db : Database) (job : BackgroundJob) (lease : BackgroundJobLease) : Prop where
  job_eq : db.backgroundJobs.get? job.id = some job
  lease_eq : db.backgroundJobLeases.get? lease.id = some lease
  current : job.currentLeaseId = some lease.id

theorem leases_of_currentLeaseRow {db : Database} {job : BackgroundJob} {lease : BackgroundJobLease}
    (hjob : db.backgroundJobs.get? job.id = some job) (h : currentLeaseRow db job = some lease) :
    Leases db job lease := by
  simp only [currentLeaseRow, Option.bind_eq_bind, Option.bind_eq_some_iff,
    Option.ite_none_right_eq_some, Option.some.injEq] at h
  obtain ⟨leaseId, hcurrent, l, hlease, -, rfl⟩ := h
  have hid : l.id = leaseId := Table.key_of_get? hlease
  exact ⟨hjob, hid ▸ hlease, hid ▸ hcurrent⟩

theorem HoldsLease.leases {db : Database} {grant : JobLeaseGrant} {now : Time}
    {job : BackgroundJob} {lease : BackgroundJobLease} (h : HoldsLease db grant now job lease) :
    Leases db job lease := by
  have hjob : job.id = grant.jobId := Table.key_of_get? h.job_eq
  have hlease : lease.id = grant.leaseId := Table.key_of_get? h.lease_eq
  exact ⟨hjob ▸ h.job_eq, hlease ▸ h.lease_eq, hlease ▸ h.current⟩

namespace Leases
variable {db : Database} {job job' : BackgroundJob} {lease lease' : BackgroundJobLease}

/-- Both written back, with the lease kept. -/
theorem rewrite (h : Leases db job lease) (hlineage : job'.lineage = job.lineage)
    (hcurrent : job'.currentLeaseId = job.currentLeaseId) (hstatus : job'.status = job.status)
    (hview : lease'.view = lease.view) :
    Writes db (db.putLeased job' lease') ∧ Leases (db.putLeased job' lease') job' lease' := by
  have hid : job'.id = job.id := id_of_lineage hlineage
  have hlid : lease'.id = lease.id := congrArg FencedLease.Lease.id hview
  constructor
  · have hjob : Touch db { db with backgroundJobs := db.backgroundJobs.set job' } :=
      .rewriteJob job job' h.job_eq hlineage hcurrent (.inl hstatus) rfl ⟨rfl, rfl⟩
    have hlease : Touch { db with backgroundJobs := db.backgroundJobs.set job' }
        (db.putLeased job' lease') := .rewriteLease lease lease' h.lease_eq hview rfl rfl rfl
    exact ⟨.tail (.single hjob) hlease, rfl⟩
  · refine ⟨?_, ?_, ?_⟩
    · simp only [Database.putLeased, get?_set_job h.job_eq hid, hid, if_true]
    · simp only [Database.putLeased]
      refine Table.get?_set_self (a := lease') ?_
      rw [show key lease' = lease.id from hlid, h.lease_eq]
      simp
    · rw [hcurrent, hlid, h.current]

/-- Both written back, with the lease released. -/
theorem release (h : Leases db job lease) (hlineage : job'.lineage = job.lineage)
    (hidle : job'.currentLeaseId = none)
    (hview : lease'.view = { lease.view with released := true }) :
    Touch db (db.putLeased job' lease') :=
  .release job job' lease lease' h.job_eq hlineage h.lease_eq h.current hidle hview rfl rfl rfl

end Leases

/-! ### Scheduling and claiming -/

theorem BackgroundJobService.schedule_ok {rt : Runtime} {db db' : Database} {c : ScheduleCommand}
    {r : ScheduledJob} (h : BackgroundJobService.schedule rt db c = .ok (r, db')) :
    Writes db db' := by
  simp only [BackgroundJobService.schedule, Except.bind_eq_ok, Except.orThrow_eq_ok] at h
  obtain ⟨jobType, -, key, -, payload, -, task, -, -, -, h⟩ := h
  split at h
  · simp only [Except.bind_eq_ok, Except.pure_eq_ok, Prod.mk.injEq] at h
    obtain ⟨_, _, _, rfl⟩ := h
    exact .refl db
  · simp only [Except.bind_eq_ok, Except.require_eq_ok, Except.orThrow_eq_ok, Except.pure_eq_ok,
      Prod.mk.injEq] at h
    obtain ⟨_, _, _, _, jobs, hjobs, _, rfl⟩ := h
    refine .of_touch (.insertJob _ rfl ?_ hjobs ⟨rfl, rfl⟩) rfl
    intro p hp
    cases hp

theorem nextClaimable_spec {db : Database} {jobTypes : List String} {locked : List UUID}
    {now : Time} {job : BackgroundJob} (h : nextClaimable db jobTypes locked now = some job) :
    job ∈ db.backgroundJobs ∧ claimable db now job = true := by
  have hmem := List.mem_of_head? h
  rw [List.mem_insertionSort, Table.select, List.mem_filter, Bool.and_eq_true,
    Bool.and_eq_true] at hmem
  exact ⟨hmem.1, hmem.2.1.1⟩

/-- Issuing a lease to a job that names none. -/
theorem issueLease_ok {rt : Runtime} {db db' : Database} {r : ClaimRequest} {job : BackgroundJob}
    {now : Time} {recovered : Bool} {result : Option JobLeaseGrant}
    (h : issueLease rt db r job now recovered = .ok (result, db')) :
    ∃ leases, db.backgroundJobLeases.insert? (r.lease rt db job now) = some leases ∧
      db' = { db with
        fencingCounter := some ((r.lease rt db job now).fencingToken + 1)
        backgroundJobLeases := leases
        backgroundJobs := db.backgroundJobs.set (job.leaseTo (r.lease rt db job now)) } := by
  simp only [issueLease, Except.bind_eq_ok, Except.orThrow_eq_ok, Except.pure_eq_ok,
    Prod.mk.injEq] at h
  obtain ⟨leases, hleases, _, _, _, rfl⟩ := h
  exact ⟨leases, hleases, rfl⟩

theorem issueLease_writes {rt : Runtime} {db db' : Database} {r : ClaimRequest}
    {job : BackgroundJob} {now : Time} {recovered : Bool} {result : Option JobLeaseGrant}
    (hjob : db.backgroundJobs.get? job.id = some job) (hfree : job.currentLeaseId = none)
    (h : issueLease rt db r job now recovered = .ok (result, db')) : Writes db db' := by
  obtain ⟨leases, hleases, rfl⟩ := issueLease_ok h
  exact .of_touch (.issue job (job.leaseTo _) _ hjob rfl hfree rfl rfl rfl hleases rfl rfl) rfl

/-- Taking over an expired lease is a release followed by an issue. -/
theorem supersede_writes {rt : Runtime} {db db' : Database} {r : ClaimRequest}
    {job : BackgroundJob} {previous : BackgroundJobLease} {released now : Time}
    {result : Option JobLeaseGrant} (hlease : Leases db job previous)
    (h : issueLease rt
      { db with
        backgroundJobLeases := db.backgroundJobLeases.set (previous.release released .superseded) }
      r job now true = .ok (result, db')) : Writes db db' := by
  obtain ⟨leases, hleases, rfl⟩ := issueLease_ok h
  have hrelease : Touch db (db.putLeased job.unlease (previous.release released .superseded)) :=
    hlease.release rfl rfl rfl
  have hjob : (db.putLeased job.unlease
      (previous.release released .superseded)).backgroundJobs.get? job.id = some job.unlease := by
    have hid : job.unlease.id = job.id := rfl
    simp only [Database.putLeased, get?_set_job hlease.job_eq hid, if_true]
  refine ⟨.tail (.single hrelease) ?_, rfl⟩
  refine .issue job.unlease (job.leaseTo _) _ hjob rfl rfl rfl rfl rfl hleases ?_ rfl
  exact (Table.set_set (a := job.unlease) (b := job.leaseTo _) rfl).symm

theorem claimLoop_ok {rt : Runtime} {r : ClaimRequest} {db' : Database}
    {result : Option JobLeaseGrant} (rounds : ℕ) {reading : ℕ} {db : Database} (hidle : Idle db)
    (h : claimLoop rt r rounds reading db = .ok (result, db')) : Writes db db' := by
  induction rounds generalizing reading db with
  | zero =>
    simp only [claimLoop, Except.ok.injEq, Prod.mk.injEq] at h
    exact h.2 ▸ .refl db
  | succ rounds ih =>
    rw [claimLoop] at h
    cases hnext : nextClaimable db r.jobTypes r.locked (r.clock reading) with
    | none =>
      simp only [hnext, Except.ok.injEq, Prod.mk.injEq] at h
      exact h.2 ▸ .refl db
    | some job =>
      obtain ⟨hmem, -⟩ := nextClaimable_spec hnext
      have hjob : db.backgroundJobs.get? job.id = some job := Table.get?_key hmem
      simp only [hnext] at h
      by_cases hrunning : job.status = .running
      · simp only [hrunning, if_true, Except.bind_eq_ok, Except.orThrow_eq_ok] at h
        obtain ⟨previous, hprevious, h⟩ := h
        have hlease := leases_of_currentLeaseRow hjob hprevious
        split at h
        · simp only [Except.pure_eq_ok, Prod.mk.injEq] at h
          exact h.2 ▸ .refl db
        · split at h
          · -- The expired job has no attempts left: it is failed and the scan goes on.
            have hfail : Touch db (db.putLeased
                (finishJob job .failed (some "LEASE_EXPIRED_ATTEMPTS_EXHAUSTED")
                  previous.fencingToken (r.clock (reading + 1)))
                { previous.release (r.clock (reading + 1)) .expired with
                  failureCode := some "LEASE_EXPIRED_ATTEMPTS_EXHAUSTED" }) :=
              hlease.release rfl rfl rfl
            exact (Writes.of_touch hfail rfl).trans (ih (hfail.idle hidle) h)
          · exact supersede_writes hlease h
      · simp only [hrunning, if_false] at h
        exact issueLease_writes hjob (hidle job hmem hrunning) h

/-- A job that stops running lowers the number of running jobs. -/
theorem runningJobs_putLeased {db : Database} {job job' : BackgroundJob}
    {lease : BackgroundJobLease} (hjob : job ∈ db.backgroundJobs) (hid : job'.id = job.id)
    (hrunning : job.status = .running) (hstopped : job'.status ≠ .running) :
    runningJobs (db.putLeased job' lease) < runningJobs db := by
  obtain ⟨before, after, hrows⟩ := List.append_of_mem (Table.mem_def.mp hjob)
  have hle : ∀ jobs : List BackgroundJob,
      (jobs.map fun b => if key b = key job' then job' else b).countP (·.status = .running) ≤
        jobs.countP (·.status = .running) := by
    intro jobs
    rw [List.countP_map]
    refine List.countP_mono_left ?_
    intro b _ hb
    by_cases hkey : key b = key job'
    · simp [hkey, hstopped] at hb
    · simpa [hkey] using hb
  have hkey : key job = key job' := hid.symm
  simp only [runningJobs, Database.putLeased, Table.set, hrows, List.map_append, List.map_cons,
    List.countP_append, List.countP_cons, hkey, if_true, hrunning, hstopped, decide_true,
    decide_false, Bool.false_eq_true, if_false]
  have hbefore := hle before
  have hafter := hle after
  omega

/-- The scan ends before its rounds do: with more rounds it does the same. -/
theorem claimLoop_succ (rt : Runtime) (r : ClaimRequest) (rounds : ℕ) {reading : ℕ}
    {db : Database} (h : runningJobs db < rounds) :
    claimLoop rt r (rounds + 1) reading db = claimLoop rt r rounds reading db := by
  induction rounds generalizing reading db with
  | zero => omega
  | succ rounds ih =>
    rw [claimLoop, claimLoop]
    cases hnext : nextClaimable db r.jobTypes r.locked (r.clock reading) with
    | none => rfl
    | some job =>
      by_cases hrunning : job.status = .running
      · cases hprevious : currentLeaseRow db job with
        | none => simp [hrunning, hprevious, Except.orThrow]
        | some previous =>
          simp only [hrunning, if_true, hprevious, Except.orThrow, Except.ok_bind]
          split
          · rfl
          · split
            · refine ih (Nat.lt_of_lt_of_le ?_ (Nat.lt_succ_iff.mp h))
              refine runningJobs_putLeased (nextClaimable_spec hnext).1 rfl hrunning ?_
              simp [finishJob]
            · rfl
      · simp [hrunning]

theorem BackgroundJobService.claimNext_ok {rt : Runtime} {db db' : Database} {c : ClaimCommand}
    {result : Option JobLeaseGrant} (hidle : Idle db)
    (h : BackgroundJobService.claimNext rt db c = .ok (result, db')) : Writes db db' := by
  simp only [BackgroundJobService.claimNext, Except.bind_eq_ok] at h
  obtain ⟨_, _, _, _, _, _, h⟩ := h
  exact claimLoop_ok _ hidle h

/-! ### Loops over jobs -/

/-- A loop over distinct jobs of the store, each round of which writes only its own job. -/
theorem foldlM_writes {ε : Type} {step : Database → BackgroundJob → Except ε Database}
    (hstep : ∀ db job db', Idle db → db.backgroundJobs.get? job.id = some job →
      step db job = .ok db' → Writes db db' ∧
        ∀ id ≠ job.id, db'.backgroundJobs.get? id = db.backgroundJobs.get? id)
    (jobs : List BackgroundJob) {db db' : Database} (hidle : Idle db)
    (hnodup : (jobs.map BackgroundJob.id).Nodup)
    (hjobs : ∀ job ∈ jobs, db.backgroundJobs.get? job.id = some job)
    (h : jobs.foldlM step db = .ok db') : Writes db db' := by
  induction jobs generalizing db with
  | nil =>
    simp only [List.foldlM_nil, Except.pure_eq_ok] at h
    exact h ▸ .refl db
  | cons job jobs ih =>
    simp only [List.foldlM_cons, Except.bind_eq_ok] at h
    obtain ⟨db₁, h₁, h⟩ := h
    obtain ⟨hwrites, hrest⟩ := hstep db job db₁ hidle (hjobs job List.mem_cons_self) h₁
    rw [List.map_cons, List.nodup_cons] at hnodup
    refine hwrites.trans (ih (hwrites.touches.idle hidle) hnodup.2 ?_ h)
    intro other hother
    have hne : other.id ≠ job.id := fun heq => hnodup.1 (heq ▸ List.mem_map_of_mem hother)
    rw [hrest other.id hne]
    exact hjobs other (List.mem_cons_of_mem job hother)

theorem nodup_select (db : Database) (p : BackgroundJob → Bool) :
    ((db.backgroundJobs.select p).map BackgroundJob.id).Nodup :=
  db.backgroundJobs.nodup.sublist (List.filter_sublist.map _)

theorem get?_of_mem_select {db : Database} {p : BackgroundJob → Bool} {job : BackgroundJob}
    (h : job ∈ db.backgroundJobs.select p) : db.backgroundJobs.get? job.id = some job :=
  Table.get?_key (List.mem_of_mem_filter h)

theorem get?_putLeased_of_ne {db : Database} {job job' : BackgroundJob}
    {lease : BackgroundJobLease} (hjob : db.backgroundJobs.get? job.id = some job)
    (hid : job'.id = job.id) {id : UUID} (h : id ≠ job.id) :
    (db.putLeased job' lease).backgroundJobs.get? id = db.backgroundJobs.get? id := by
  simp only [Database.putLeased, get?_set_job hjob hid, if_neg h]

theorem releaseExpired_ok {now : Time} {db db' : Database} {job : BackgroundJob}
    (hjob : db.backgroundJobs.get? job.id = some job)
    (h : releaseExpired now db job = .ok db') :
    Writes db db' ∧ ∀ id ≠ job.id, db'.backgroundJobs.get? id = db.backgroundJobs.get? id := by
  simp only [releaseExpired, Except.bind_eq_ok, Except.orThrow_eq_ok, Except.pure_eq_ok] at h
  obtain ⟨lease, hlease, -, -, rfl⟩ := h
  have hleases := leases_of_currentLeaseRow hjob hlease
  constructor
  · refine .of_touch (hleases.release ?_ ?_ rfl) rfl
    · split_ifs <;> rfl
    · split_ifs <;> rfl
  · intro id hid
    refine get?_putLeased_of_ne hjob ?_ hid
    split_ifs <;> rfl

theorem BackgroundJobService.reconcileExpiredLeases_ok {db db' : Database} {c : ReconcileCommand}
    {ids : List UUID} (hidle : Idle db)
    (h : BackgroundJobService.reconcileExpiredLeases db c = .ok (ids, db')) : Writes db db' := by
  simp only [BackgroundJobService.reconcileExpiredLeases, Except.bind_eq_ok, Except.pure_eq_ok,
    Prod.mk.injEq] at h
  obtain ⟨_, _, _, h, _, rfl⟩ := h
  have hperm := List.perm_insertionSort (fun a b : BackgroundJob =>
    (toLex (a.leaseExpiresAt.getD 0, toLex (a.createdAt, a.id.bits.toNat)) : ℕ ×ₗ ℕ ×ₗ ℕ) ≤
      toLex (b.leaseExpiresAt.getD 0, toLex (b.createdAt, b.id.bits.toNat)))
    (db.backgroundJobs.select fun job => job.leaseExpired c.now && !c.locked.contains job.id)
  refine foldlM_writes (fun _ _ _ _ hjob h => releaseExpired_ok hjob h) _ hidle ?_ ?_ h
  · refine ((hperm.map _).nodup_iff.mpr (nodup_select db _)).sublist ?_
    exact (List.take_sublist _ _).map _
  · intro job hmem
    exact get?_of_mem_select (hperm.mem_iff.mp (List.mem_of_mem_take hmem))

/-! ### Work under a lease -/

theorem appendCheckpoint_ok {db db' : Database} {job job' : BackgroundJob}
    {lease lease' : BackgroundJobLease} {entry : CheckpointEntry} {now : Time}
    {result : JobCheckpointResult} (hlease : Leases db job lease)
    (h : appendCheckpoint db job lease entry now = .ok (result, job', lease', db')) :
    Writes db db' ∧ Leases db' job' lease' ∧ job'.lineage = job.lineage := by
  unfold appendCheckpoint at h
  split at h
  · simp only [Except.bind_eq_ok, Except.pure_eq_ok, Prod.mk.injEq] at h
    obtain ⟨_, _, _, rfl, rfl, rfl⟩ := h
    exact ⟨.refl db, hlease, rfl⟩
  · simp only [Except.bind_eq_ok, Except.orThrow_eq_ok, Except.pure_eq_ok, Prod.mk.injEq] at h
    obtain ⟨_, _, checkpoints, _, _, rfl, rfl, rfl⟩ := h
    have hframe : Writes db { db with backgroundJobCheckpoints := checkpoints } :=
      .frame rfl rfl rfl rfl
    have hlease' : Leases { db with backgroundJobCheckpoints := checkpoints } job lease :=
      ⟨hlease.job_eq, hlease.lease_eq, hlease.current⟩
    obtain ⟨hwrites, hleases⟩ :
        Writes _ _ ∧ Leases _ (job.atCheckpoint entry lease.fencingToken)
          (lease.atCheckpoint entry) := hlease'.rewrite rfl rfl rfl rfl
    exact ⟨hframe.trans hwrites, hleases, rfl⟩

/-- What a grant operation that passed the fence did: only the holder of the current lease
gets that far. -/
def Held (db : Database) (grant : JobLeaseGrant) (now : Time) : Prop :=
  ∃ job lease, HoldsLease db grant now job lease

section Grants
variable {rt : Runtime} {service : BackgroundJobService} {db db' : Database}
  {grant : JobLeaseGrant} {now : Time}

theorem BackgroundJobService.heartbeat_ok {duration : Time} {grant' : JobLeaseGrant}
    (h : BackgroundJobService.heartbeat db grant now duration = .ok (grant', db')) :
    Held db grant now ∧ Writes db db' := by
  simp only [BackgroundJobService.heartbeat, Except.bind_eq_ok, Except.pure_eq_ok,
    Prod.mk.injEq] at h
  obtain ⟨_, _, ⟨job, lease⟩, hheld, _, _, _, rfl⟩ := h
  have hheld := currentLease_ok.mp hheld
  refine ⟨⟨job, lease, hheld⟩, ?_⟩
  refine (hheld.leases.rewrite ?_ ?_ ?_ ?_).1 <;> rfl

theorem BackgroundJobService.checkpoint_ok {c : CheckpointCommand} {result : JobCheckpointResult}
    (h : BackgroundJobService.checkpoint rt db grant now c = .ok (result, db')) :
    Held db grant now ∧ Writes db db' := by
  simp only [BackgroundJobService.checkpoint, Except.bind_eq_ok, Except.pure_eq_ok,
    Prod.mk.injEq] at h
  obtain ⟨entry, _, ⟨job, lease⟩, hheld, ⟨_, job', lease', _⟩, happend, _, rfl⟩ := h
  have hheld := currentLease_ok.mp hheld
  exact ⟨⟨job, lease, hheld⟩, (appendCheckpoint_ok hheld.leases happend).1⟩

theorem mem_pendingEffects {jobId : UUID} {effect : BackgroundJobEffect} :
    effect ∈ pendingEffects db jobId ↔
      effect ∈ db.backgroundJobEffects ∧ effect.jobId = jobId ∧ effect.status = .pending := by
  simp [pendingEffects, List.mem_insertionSort, Table.select, Table.mem_def]

theorem effectOfKey_ne_none {idempotencyKey : String} :
    effectOfKey db idempotencyKey ≠ none ↔
      ∃ effect ∈ db.backgroundJobEffects, effect.idempotencyKey = idempotencyKey := by
  simp [effectOfKey, Table.mem_def]

theorem EffectCommand.effectKey_of_check {c : EffectCommand} {r : EffectRequest}
    (h : c.check rt = .ok r) : r.effectKey = stripped rt c.effectKey := by
  simp only [EffectCommand.check, Except.bind_eq_ok, Except.pure_eq_ok] at h
  obtain ⟨key, hkey, _, _, _, _, rfl⟩ := h
  simp only [requiredIdentifier] at hkey
  split at hkey
  · exact (Except.ok.inj hkey).symm
  · cases hkey

/-- An intent is new for its job and its key, or it finds the row of its key. -/
theorem BackgroundJobService.prepareEffect_ok {c : EffectCommand} {prepared : PreparedJobEffect}
    (h : BackgroundJobService.prepareEffect rt db grant now c = .ok (prepared, db')) :
    ∃ r job lease, c.check rt = .ok r ∧ HoldsLease db grant now job lease ∧
      ((db' = db ∧ prepared.created = false ∧ ∃ existing ∈ db.backgroundJobEffects,
          existing.idempotencyKey = providerKey job.id r.effectKey ∧
          prepared.idempotencyKey = existing.idempotencyKey) ∨
        ∃ effects, pendingEffects db job.id = [] ∧
          effectOfKey db (providerKey job.id r.effectKey) = none ∧
          db.backgroundJobEffects.insert? (r.effect job lease now) = some effects ∧
          prepared = preparedEffect (r.effect job lease now) true false ∧
          db' = { db with backgroundJobEffects := effects }) := by
  simp only [BackgroundJobService.prepareEffect, Except.bind_eq_ok, Except.require_eq_ok] at h
  obtain ⟨r, hr, ⟨job, lease⟩, hheld, _, hkey, h⟩ := h
  refine ⟨r, job, lease, hr, currentLease_ok.mp hheld, ?_⟩
  split at h
  · rename_i existing hexisting
    simp only [Except.bind_eq_ok, Except.pure_eq_ok, Prod.mk.injEq] at h
    obtain ⟨_, _, rfl, rfl⟩ := h
    -- The row is the pending one, whose key was compared, or was found by its key.
    have hrow : existing ∈ db.backgroundJobEffects ∧
        existing.idempotencyKey = providerKey job.id r.effectKey := by
      cases hpending : (pendingEffects db job.id).head? with
      | some pending =>
        obtain rfl : pending = existing := by simpa [hpending] using hexisting
        refine ⟨(mem_pendingEffects.mp (List.mem_of_mem_head? hpending)).1, ?_⟩
        simpa [hpending] using hkey
      | none =>
        have hfound : effectOfKey db (providerKey job.id r.effectKey) = some existing := by
          simpa [hpending] using hexisting
        exact ⟨List.mem_of_find?_eq_some hfound, by simpa using List.find?_some hfound⟩
    exact .inl ⟨rfl, rfl, existing, hrow.1, hrow.2, rfl⟩
  · rename_i hnone
    simp only [Except.bind_eq_ok, Except.orThrow_eq_ok, Except.pure_eq_ok, Prod.mk.injEq] at h
    obtain ⟨effects, heffects, rfl, rfl⟩ := h
    have hempty : (pendingEffects db job.id).head? = none ∧
        effectOfKey db (providerKey job.id r.effectKey) = none := by
      simpa [Option.orElse_eq_none] using hnone
    exact .inr ⟨effects, List.head?_eq_none_iff.mp hempty.1, hempty.2, heffects, rfl, rfl⟩

/-- A result completes the row of a pending effect, or repeats what the row has. -/
theorem BackgroundJobService.recordEffectResult_ok {c : EffectResultCommand}
    {result : JobCheckpointResult}
    (h : BackgroundJobService.recordEffectResult rt db grant now c = .ok (result, db')) :
    Held db grant now ∧ Touches db db' ∧
      (db'.backgroundJobEffects = db.backgroundJobEffects ∨
        ∃ effect lease payload, db.backgroundJobEffects.get? c.effectId = some effect ∧
          effect.jobId = grant.jobId ∧ effect.status = .pending ∧
          db'.backgroundJobEffects =
            db.backgroundJobEffects.set (effect.complete lease c.result.status payload now)) := by
  simp only [BackgroundJobService.recordEffectResult, Except.bind_eq_ok, Except.orThrow_eq_ok,
    Except.require_eq_ok, Except.pure_eq_ok, Prod.mk.injEq] at h
  obtain ⟨payload, _, entry, _, ⟨job, lease⟩, hheld, effect, heffect, _, hjob, db₁, h₁,
    ⟨_, job', lease', _⟩, happend, _, rfl⟩ := h
  have hheld := currentLease_ok.mp hheld
  have hid : job.id = grant.jobId := Table.key_of_get? hheld.job_eq
  refine ⟨⟨job, lease, hheld⟩, ?_⟩
  unfold settleEffect at h₁
  split at h₁
  · rename_i hpending
    simp only [Except.ok.injEq] at h₁
    subst h₁
    have hlease : Leases { db with
        backgroundJobEffects :=
          db.backgroundJobEffects.set (effect.complete lease c.result.status payload now) }
        job lease := ⟨hheld.leases.job_eq, hheld.leases.lease_eq, hheld.leases.current⟩
    have hwrites := (appendCheckpoint_ok hlease happend).1
    have hframe : Touch db { db with
        backgroundJobEffects :=
          db.backgroundJobEffects.set (effect.complete lease c.result.status payload now) } :=
      .frame rfl ⟨rfl, rfl⟩
    exact ⟨.head hframe hwrites.touches, .inr ⟨effect, lease, payload, heffect, hjob.trans hid,
      hpending, hwrites.effects⟩⟩
  · simp only [Except.bind_eq_ok, Except.pure_eq_ok] at h₁
    obtain ⟨_, _, rfl⟩ := h₁
    have hwrites := (appendCheckpoint_ok hheld.leases happend).1
    exact ⟨hwrites.touches, .inl hwrites.effects⟩

/-- A late result writes its evidence and its own row. -/
theorem BackgroundJobService.recordIgnoredResult_ok {c : IgnoredResultCommand}
    {result : IgnoredResult}
    (h : BackgroundJobService.recordIgnoredResult rt service db grant now c = .ok (result, db')) :
    ∃ records ignored, db' = { db with
      evidenceRecords := records, backgroundJobIgnoredResults := ignored } := by
  simp only [BackgroundJobService.recordIgnoredResult, Except.bind_eq_ok] at h
  obtain ⟨_, _, _, _, _, _, job, _, lease, _, _, _, _, _, _, _, h⟩ := h
  split at h
  · simp only [Except.bind_eq_ok, Except.pure_eq_ok, Prod.mk.injEq] at h
    obtain ⟨_, _, _, rfl⟩ := h
    exact ⟨_, _, rfl⟩
  · simp only [Except.bind_eq_ok, Except.relabel_eq_ok, Except.orThrow_eq_ok, Except.pure_eq_ok,
      Prod.mk.injEq] at h
    obtain ⟨⟨captured, db₁⟩, hcapture, ignored, _, _, rfl⟩ := h
    obtain ⟨records, _, rfl⟩ := captureEvidence_ok hcapture rfl
    exact ⟨records, ignored, rfl⟩

theorem finalCheckpoint_ok {job job' : BackgroundJob} {lease lease' : BackgroundJobLease}
    {c : CompleteCommand} (hlease : Leases db job lease)
    (h : finalCheckpoint rt db job lease c now = .ok (job', lease', db')) :
    Writes db db' ∧ Leases db' job' lease' := by
  unfold finalCheckpoint at h
  split at h
  · simp only [Except.bind_eq_ok, Except.pure_eq_ok] at h
    obtain ⟨_, _, ⟨_, _⟩, happend, rfl⟩ := h
    obtain ⟨hwrites, hlease', -⟩ := appendCheckpoint_ok hlease happend
    exact ⟨hwrites, hlease'⟩
  · simp only [Except.bind_eq_ok, Except.pure_eq_ok, Prod.mk.injEq] at h
    obtain ⟨_, _, rfl, rfl, rfl⟩ := h
    exact ⟨.refl db, hlease⟩

theorem BackgroundJobService.complete_ok {c : CompleteCommand}
    (h : BackgroundJobService.complete rt db grant now c = .ok db') :
    Held db grant now ∧ pendingEffects db grant.jobId = [] ∧ Writes db db' := by
  simp only [BackgroundJobService.complete, requireNoPendingEffects, Except.bind_eq_ok,
    Except.require_eq_ok, Except.pure_eq_ok] at h
  obtain ⟨_, _, ⟨job, lease⟩, hheld, _, hpending, ⟨job', lease', db₁⟩, h₁, rfl⟩ := h
  have hheld := currentLease_ok.mp hheld
  have hid : job.id = grant.jobId := Table.key_of_get? hheld.job_eq
  refine ⟨⟨job, lease, hheld⟩, hid ▸ hpending, ?_⟩
  obtain ⟨hwrites, hlease⟩ := finalCheckpoint_ok hheld.leases h₁
  exact hwrites.trans (.of_touch (hlease.release rfl rfl rfl) rfl)

theorem releaseFailedAttempt_ok {job : BackgroundJob} {lease : BackgroundJobLease}
    {errorCode : String} {retryable : Bool} {disposition : JobFailureDisposition}
    (hlease : Leases db job lease)
    (h : releaseFailedAttempt rt db job lease grant errorCode retryable now =
      .ok (disposition, db')) : Writes db db' := by
  simp only [releaseFailedAttempt, Except.bind_eq_ok, Except.pure_eq_ok, Prod.mk.injEq] at h
  obtain ⟨delay, _, _, rfl⟩ := h
  refine .of_touch (hlease.release ?_ ?_ rfl) rfl
  · cases delay <;> rfl
  · cases delay <;> rfl

theorem BackgroundJobService.failAttempt_ok {errorCode : String} {retryable : Bool}
    {disposition : JobFailureDisposition}
    (h : BackgroundJobService.failAttempt rt db grant now errorCode retryable =
      .ok (disposition, db')) : Held db grant now ∧ Writes db db' := by
  simp only [BackgroundJobService.failAttempt, Except.bind_eq_ok] at h
  obtain ⟨_, _, ⟨job, lease⟩, hheld, h⟩ := h
  have hheld := currentLease_ok.mp hheld
  exact ⟨⟨job, lease, hheld⟩, releaseFailedAttempt_ok hheld.leases h⟩

theorem BackgroundJobService.pauseAttempt_ok {errorCode : String}
    (h : BackgroundJobService.pauseAttempt rt db grant now errorCode = .ok db') :
    Held db grant now ∧ Writes db db' := by
  simp only [BackgroundJobService.pauseAttempt, Except.bind_eq_ok, Except.pure_eq_ok] at h
  obtain ⟨_, _, ⟨job, lease⟩, hheld, rfl⟩ := h
  have hheld := currentLease_ok.mp hheld
  exact ⟨⟨job, lease, hheld⟩, .of_touch (hheld.leases.release rfl rfl rfl) rfl⟩

theorem BackgroundJobService.failDependencyAttempt_ok {dependency : DependencyService}
    {errorCode : String} {disposition : JobFailureDisposition}
    (h : BackgroundJobService.failDependencyAttempt rt service db grant now dependency errorCode =
      .ok (disposition, db')) : Held db grant now ∧ Writes db db' := by
  simp only [BackgroundJobService.failDependencyAttempt, Except.bind_eq_ok, Except.relabel_eq_ok,
    Except.orThrow_eq_ok, Except.pure_eq_ok, Prod.mk.injEq] at h
  obtain ⟨_, _, ⟨job, lease⟩, hheld, ⟨captured, db₁⟩, hcapture, ⟨_, db₂⟩, hrelease, outages, _, _,
    rfl⟩ := h
  have hheld := currentLease_ok.mp hheld
  obtain ⟨records, -, rfl⟩ := captureEvidence_ok hcapture rfl
  refine ⟨⟨job, lease, hheld⟩, ?_⟩
  have hcaptured : Writes db { db with evidenceRecords := records } := .frame rfl rfl rfl rfl
  have hlease : Leases { db with evidenceRecords := records } job lease :=
    ⟨hheld.leases.job_eq, hheld.leases.lease_eq, hheld.leases.current⟩
  exact (hcaptured.trans (releaseFailedAttempt_ok hlease hrelease)).trans (.frame rfl rfl rfl rfl)

theorem transitionTask_writes {c : TaskTransitionCommand} {result : TaskTransitionResult}
    (h : transitionTask rt db c = .ok (result, db')) : Writes db db' := by
  rcases transitionTask_ok h with rfl | ⟨a, rfl⟩
  · exact .refl _
  · exact .frame rfl rfl rfl rfl

theorem BackgroundJobService.transitionTask_ok {c : JobTransitionCommand}
    {result : TaskTransitionResult}
    (h : BackgroundJobService.transitionTask rt service db grant now c = .ok (result, db')) :
    Held db grant now ∧ pendingEffects db grant.jobId = [] ∧ Writes db db' := by
  simp only [BackgroundJobService.transitionTask, requireNoPendingEffects, Except.bind_eq_ok,
    Except.require_eq_ok, Except.relabel_eq_ok] at h
  obtain ⟨_, _, _, _, _, _, ⟨job, lease⟩, hheld, _, hpending, ⟨_, db₁⟩, htransition, h⟩ := h
  have hheld := currentLease_ok.mp hheld
  have hid : job.id = grant.jobId := Table.key_of_get? hheld.job_eq
  refine ⟨⟨job, lease, hheld⟩, hid ▸ hpending, ?_⟩
  have hwrites := transitionTask_writes htransition
  split at h
  · simp only [Except.bind_eq_ok, Except.pure_eq_ok, Prod.mk.injEq] at h
    obtain ⟨_, _, _, rfl⟩ := h
    exact hwrites
  · simp only [Except.bind_eq_ok, Except.pure_eq_ok, Prod.mk.injEq] at h
    obtain ⟨_, _, _, rfl⟩ := h
    exact hwrites.trans (.frame rfl rfl rfl rfl)

end Grants

/-! ### Outages -/

section Outages
variable {rt : Runtime} {db db' : Database}

theorem BackgroundJobService.reconcileOutageEscalation_ok {jobId : UUID} {result : Option UUID}
    (h : BackgroundJobService.reconcileOutageEscalation rt db jobId = .ok (result, db')) :
    Writes db db' := by
  simp only [BackgroundJobService.reconcileOutageEscalation, Except.bind_eq_ok] at h
  obtain ⟨_, _, _, _, _, _, latest, _, _, _, h⟩ := h
  split at h
  · simp only [Except.pure_eq_ok, Prod.mk.injEq] at h
    exact h.2 ▸ .refl db
  · split at h
    · simp only [Except.pure_eq_ok, Prod.mk.injEq] at h
      exact h.2 ▸ .refl db
    · simp only [Except.pure_eq_ok, Prod.mk.injEq] at h
      exact h.2 ▸ .frame rfl rfl rfl rfl

theorem resumeJob_ok {job : BackgroundJob} {taskId decisionId newId id : UUID} {now : Time}
    (hjob : db.backgroundJobs.get? job.id = some job)
    (h : resumeJob rt db job taskId decisionId newId now = .ok (id, db')) : Writes db db' := by
  unfold resumeJob at h
  split at h
  · simp only [Except.bind_eq_ok, Except.pure_eq_ok, Prod.mk.injEq] at h
    obtain ⟨_, _, _, rfl⟩ := h
    exact .refl db
  · simp only [Except.bind_eq_ok, Except.orThrow_eq_ok, Except.pure_eq_ok, Prod.mk.injEq] at h
    obtain ⟨_, _, jobs, hjobs, _, rfl⟩ := h
    refine .of_touch (.insertJob _ rfl ?_ hjobs ⟨rfl, rfl⟩) rfl
    intro p hp
    obtain rfl : job.id = p := Option.some.inj hp
    rw [hjob]
    exact Option.some_ne_none job

theorem resolveOutage_ok {c : OutageDecisionCommand} {entry : DependencyOutageAttempt × ℕ}
    (h : resolveOutage rt c db entry = .ok db') : Writes db db' := by
  simp only [resolveOutage, Except.bind_eq_ok, Except.orThrow_eq_ok, Except.pure_eq_ok] at h
  obtain ⟨_, _, job, hjob, _, _, _, _, _, _, ⟨_, db₁⟩, h₁, rfl⟩ := h
  have hid : job.id = entry.1.jobId := Table.key_of_get? hjob
  have hresume : Writes db db₁ := by
    unfold resumeOnRetry at h₁
    split at h₁
    · simp only [Except.bind_eq_ok, Except.pure_eq_ok, Prod.mk.injEq] at h₁
      obtain ⟨⟨_, _⟩, h₁, _, rfl⟩ := h₁
      exact resumeJob_ok (hid ▸ hjob) h₁
    · simp only [Except.ok.injEq, Prod.mk.injEq] at h₁
      exact h₁.2 ▸ .refl db
  exact hresume.trans (.frame rfl rfl rfl rfl)

theorem resolveOutages_ok {c : OutageDecisionCommand}
    (entries : List (DependencyOutageAttempt × ℕ))
    (h : entries.foldlM (resolveOutage rt c) db = .ok db') : Writes db db' := by
  induction entries generalizing db with
  | nil =>
    simp only [List.foldlM_nil, Except.pure_eq_ok] at h
    exact h ▸ .refl db
  | cons entry entries ih =>
    simp only [List.foldlM_cons, Except.bind_eq_ok] at h
    obtain ⟨db₁, h₁, h⟩ := h
    exact (resolveOutage_ok h₁).trans (ih h)

theorem BackgroundJobService.reconcileOutageDecisions_ok {c : OutageDecisionCommand}
    {ids : List UUID}
    (h : BackgroundJobService.reconcileOutageDecisions rt db c = .ok (ids, db')) :
    Writes db db' := by
  simp only [BackgroundJobService.reconcileOutageDecisions, Except.bind_eq_ok, Except.pure_eq_ok,
    Prod.mk.injEq] at h
  obtain ⟨_, _, _, h, _, rfl⟩ := h
  exact resolveOutages_ok _ h

end Outages

/-! ### Fencing the work of a task -/

section Fence
variable {rt : Runtime} {db db' : Database}

theorem fenceJob_ok {code : String} {corrupt : BackgroundJobError} {now : Time}
    {job : BackgroundJob} (hidle : Idle db) (hjob : db.backgroundJobs.get? job.id = some job)
    (h : fenceJob code corrupt now db job = .ok db') :
    Writes db db' ∧ ∀ id ≠ job.id, db'.backgroundJobs.get? id = db.backgroundJobs.get? id := by
  unfold fenceJob at h
  split at h
  · split at h
    · simp only [Except.bind_eq_ok, Except.orThrow_eq_ok, Except.pure_eq_ok] at h
      obtain ⟨lease, hlease, _, _, rfl⟩ := h
      have hleases := leases_of_currentLeaseRow hjob hlease
      refine ⟨.of_touch (hleases.release rfl rfl rfl) rfl, ?_⟩
      intro id hid
      exact get?_putLeased_of_ne hjob (show (job.fenced code now).id = job.id from rfl) hid
    · rename_i hactive hunleased
      simp only [Except.pure_eq_ok] at h
      subst h
      -- A queued job names no lease; a running one without a lease names none either.
      have hnone : job.currentLeaseId = none := by
        by_cases hrunning : job.status = .running
        · simpa [hrunning] using hunleased
        · exact hidle job (Table.mem_of_get? hjob) hrunning
      refine ⟨.of_touch (.rewriteJob job (job.fenced code now) hjob rfl hnone.symm (.inr rfl) rfl
        ⟨rfl, rfl⟩) rfl, ?_⟩
      intro id hid
      exact (get?_set_job hjob (show (job.fenced code now).id = job.id from rfl) id).trans
        (if_neg hid)
  · simp only [Except.ok.injEq] at h
    subst h
    exact ⟨.refl db, fun _ _ => rfl⟩

theorem fenceJobs_ok {taskId : UUID} {code reason : String} {corrupt : BackgroundJobError}
    {now : Time} (hidle : Idle db)
    (h : fenceJobs db taskId code reason corrupt now = .ok db') : Writes db db' := by
  simp only [fenceJobs, Except.bind_eq_ok, Except.pure_eq_ok] at h
  obtain ⟨db₁, h₁, rfl⟩ := h
  have hfenced : Writes db db₁ :=
    foldlM_writes (fun _ _ _ hidle hjob h => fenceJob_ok hidle hjob h) _ hidle
      (nodup_select db _) (fun _ hmem => get?_of_mem_select hmem) h₁
  exact hfenced.trans (.frame rfl rfl rfl rfl)

theorem recordCancellation_ok {c : CancelCommand} {task : Task} {reason : String}
    (h : recordCancellation rt db c task reason = .ok db') : Writes db db' := by
  unfold recordCancellation at h
  split at h
  · simp only [Except.bind_eq_ok, Except.pure_eq_ok] at h
    obtain ⟨_, _, rfl⟩ := h
    exact .refl db
  · simp only [Except.bind_eq_ok, Except.pure_eq_ok] at h
    obtain ⟨⟨_, db₁⟩, h₁, _, _, rfl⟩ := h
    have hterminal : Writes db db₁ := by
      unfold terminalTransition at h₁
      split at h₁
      · simp only [Except.bind_eq_ok, Except.relabel_eq_ok, Except.pure_eq_ok,
          Prod.mk.injEq] at h₁
        obtain ⟨⟨_, _⟩, h₁, _, rfl⟩ := h₁
        exact transitionTask_writes h₁
      · simp only [Except.bind_eq_ok, Except.pure_eq_ok, Prod.mk.injEq] at h₁
        obtain ⟨_, _, _, rfl⟩ := h₁
        exact .refl db
    exact hterminal.trans (.frame rfl rfl rfl rfl)

theorem CancellationService.cancelTask_ok {c : CancelCommand} (hidle : Idle db)
    (h : CancellationService.cancelTask rt db c = .ok db') : Writes db db' := by
  simp only [CancellationService.cancelTask, Except.bind_eq_ok] at h
  obtain ⟨_, _, task, _, db₁, h₁, h⟩ := h
  have hrecord := recordCancellation_ok h₁
  exact hrecord.trans (fenceJobs_ok (hrecord.touches.idle hidle) h)

theorem SteeringService.steer_ok {c : SteerCommand} (hidle : Idle db)
    (h : SteeringService.steer rt db c = .ok db') : Writes db db' := by
  simp only [SteeringService.steer, fenceScopeWork, Except.bind_eq_ok, Except.relabel_eq_ok,
    Except.pure_eq_ok] at h
  obtain ⟨task, _, _, _, _, _, _, _, _, _, db₂, ⟨db₁, h₁, rfl⟩, ⟨_, _⟩, htransition, rfl⟩ := h
  have hsettled : Writes db₁ (settleOutages rt (cancelApprovals rt db₁ c) c) :=
    .frame rfl rfl rfl rfl
  exact ((fenceJobs_ok hidle h₁).trans hsettled).trans (transitionTask_writes htransition)

end Fence

end ControlPlane
