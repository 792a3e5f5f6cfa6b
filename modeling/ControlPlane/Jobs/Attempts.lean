import ControlPlane.Jobs.Budget

/-!
# What the operations charge

Every operation of the job service takes the accounts of the jobs through turns; only a
pause gives an attempt back.
-/
namespace ControlPlane

open Attempts (Phase Account Turn Turns Balanced)

/-! ### Scheduling and claiming -/

section Claim
variable {rt : Runtime} {db db' : Database}

theorem insertJob_turns {job : BackgroundJob} (hqueued : job.status = .queued)
    (hfree : job.currentLeaseId = none) (hunused : job.attemptCount = 0)
    (hlimit : 0 < job.maxAttempts)
    (hjobs : db.backgroundJobs.insert? job = some db'.backgroundJobs)
    (hleases : db'.backgroundJobLeases = db.backgroundJobLeases) : JobTurns db db' := by
  obtain ⟨hnone, -⟩ := Table.insert?_eq_some.mp hjobs
  intro paused jobId
  by_cases h : jobId = job.id
  · subst h
    have hself : db'.backgroundJobs.get? job.id = some job :=
      (Table.get?_insert? hjobs).trans (if_pos rfl)
    have hphase : jobPhase db' job = .waiting := by simp [jobPhase, hqueued, hfree]
    have hbefore : account db paused job.id =
        ⟨.absent, 0, 0, leasesIssued db.backgroundJobLeases job.id, paused job.id⟩ := by
      simp only [account, show db.backgroundJobs.get? job.id = none from hnone]
    rw [account_of_mem hself, hphase, hunused, hleases, hbefore]
    exact .single (.enter _ job.maxAttempts rfl hlimit)
  · have hother : db'.backgroundJobs.get? jobId = db.backgroundJobs.get? jobId :=
      (Table.get?_insert? hjobs).trans (if_neg fun heq => h heq.symm)
    have hsame : account db' paused jobId = account db paused jobId := by
      unfold account jobPhase currentLeaseRow
      rw [hother, hleases]
    rw [hsame]

theorem BackgroundJobService.schedule_turns {c : ScheduleCommand} {r : ScheduledJob}
    (h : BackgroundJobService.schedule rt db c = .ok (r, db')) : JobTurns db db' := by
  simp only [BackgroundJobService.schedule, Except.bind_eq_ok, Except.orThrow_eq_ok] at h
  obtain ⟨jobType, -, key, -, payload, -, task, -, -, -, h⟩ := h
  split at h
  · simp only [Except.bind_eq_ok, Except.pure_eq_ok, Prod.mk.injEq] at h
    obtain ⟨_, _, _, rfl⟩ := h
    exact .refl db
  · simp only [Except.bind_eq_ok, Except.require_eq_ok, Except.orThrow_eq_ok, Except.pure_eq_ok,
      Prod.mk.injEq] at h
    obtain ⟨_, _, _, _, jobs, hjobs, _, rfl⟩ := h
    refine insertJob_turns rfl rfl rfl ?_ hjobs rfl
    exact c.retryPolicy.maxAttempts_bounds.1

/-- A lease granted to a waiting job, or to an active one that has an attempt left. -/
theorem grant_turns {job job' : BackgroundJob} {lease : BackgroundJobLease}
    (hget : db.backgroundJobs.get? job.id = some job) (hid : job'.id = job.id)
    (hjobs : db'.backgroundJobs = db.backgroundJobs.set job')
    (hothers : OthersKept job.id db.backgroundJobLeases db'.backgroundJobLeases)
    (hissued : leasesIssued db'.backgroundJobLeases job.id =
      leasesIssued db.backgroundJobLeases job.id + 1)
    (hactive : Active db' job' lease) (hused : job'.attemptCount = job.attemptCount + 1)
    (hlimit : job'.maxAttempts = job.maxAttempts)
    (hopen : jobPhase db job = .waiting ∨
      jobPhase db job = .active ∧ job.attemptCount < job.maxAttempts) : JobTurns db db' := by
  refine turns_of_write hget hid hjobs hothers ?_
  intro paused
  rw [account_of_mem hget, account_of_write hget hid hjobs, hactive.phase, hissued, hused, hlimit]
  rcases hopen with hwaiting | ⟨hrunning, hleft⟩
  · rw [hwaiting]
    exact .single (.grant _ rfl)
  · rw [hrunning]
    exact .single (.takeOver _ rfl hleft)

theorem issueLease_turns {db₁ : Database} {r : ClaimRequest} {job : BackgroundJob} {now : Time}
    {recovered : Bool} {result : Option JobLeaseGrant}
    (hget : db.backgroundJobs.get? job.id = some job)
    (hjobs : db₁.backgroundJobs = db.backgroundJobs)
    (hothers : OthersKept job.id db.backgroundJobLeases db₁.backgroundJobLeases)
    (hissued : leasesIssued db₁.backgroundJobLeases job.id =
      leasesIssued db.backgroundJobLeases job.id)
    (hopen : jobPhase db job = .waiting ∨
      jobPhase db job = .active ∧ job.attemptCount < job.maxAttempts)
    (h : issueLease rt db₁ r job now recovered = .ok (result, db')) :
    JobTurns db db' ∧ ∃ grant job' lease, result = some grant ∧
      Active db' job' lease ∧ grant.jobId = job'.id ∧ grant.leaseId = lease.id := by
  simp only [issueLease, grantOf, Except.bind_eq_ok, Except.orThrow_eq_ok, Except.pure_eq_ok,
    Prod.mk.injEq] at h
  obtain ⟨leases, hleases, _, ⟨_, _, rfl⟩, rfl, hdb⟩ := h
  have hjobs' : db'.backgroundJobs =
      db.backgroundJobs.set (job.leaseTo (r.lease rt db₁ job now)) :=
    (congrArg Database.backgroundJobs hdb).symm.trans (by rw [hjobs])
  have hleases' : db'.backgroundJobLeases = leases :=
    (congrArg Database.backgroundJobLeases hdb).symm
  have hid : (job.leaseTo (r.lease rt db₁ job now)).id = job.id := rfl
  have hactive : Active db' (job.leaseTo (r.lease rt db₁ job now)) (r.lease rt db₁ job now) := by
    refine ⟨?_, ?_, rfl, rfl⟩
    · rw [hjobs']
      exact (get?_set_job hget hid job.id).trans (if_pos rfl)
    · refine currentLeaseRow_eq_some.mpr ⟨rfl, ?_, rfl, rfl⟩
      rw [hleases']
      exact (Table.get?_insert? hleases).trans (if_pos rfl)
  refine ⟨?_, _, _, _, rfl, hactive, rfl, rfl⟩
  refine grant_turns hget hid hjobs' ?_ ?_ hactive rfl rfl hopen
  · exact hleases' ▸ hothers.trans (OthersKept.insert hleases)
  · exact hleases' ▸ (OthersKept.issued_insert hleases).trans (congrArg (· + 1) hissued)

/-- What a claim is granted. -/
def Granted (db : Database) (grant : JobLeaseGrant) : Prop :=
  ∃ job lease, Active db job lease ∧ grant.jobId = job.id ∧ grant.leaseId = lease.id

/-- How a claim ends: with a grant, with nothing left to claim, or when the lease it found
expired no longer is, since the clock went back; it fails only when the identifier of the
new lease is taken. -/
inductive ClaimEnds (r : ClaimRequest) (db : Database) :
    Except BackgroundJobError (Option JobLeaseGrant × Database) → Prop
  | granted (grant : JobLeaseGrant) (db' : Database) (hgranted : Granted db' grant) :
    ClaimEnds r db (.ok (some grant, db'))
  | nothingLeft (db' : Database) (reading : ℕ)
      (hnone : ∀ job ∈ db'.backgroundJobs,
        (r.jobTypes = [] ∨ job.jobType ∈ r.jobTypes) → job.id ∉ r.locked →
          claimable db' (r.clock reading) job = false) :
    ClaimEnds r db (.ok (none, db'))
  | clockWentBack (db' : Database) (reading : ℕ) (job : BackgroundJob)
      (hjob : job ∈ db'.backgroundJobs)
      (hexpired : job.leaseExpired (r.clock reading) = true)
      (hlive : job.leaseExpiresAt.any (r.clock (reading + 1) < ·) = true) :
    ClaimEnds r db (.ok (none, db'))
  | leaseTaken (e : BackgroundJobError) (htaken : db.backgroundJobLeases.get? r.leaseId ≠ none) :
    ClaimEnds r db (.error e)

theorem nextClaimable_eq_none {jobTypes : List String} {locked : List UUID} {now : Time} :
    nextClaimable db jobTypes locked now = none ↔
      ∀ job ∈ db.backgroundJobs, (jobTypes = [] ∨ job.jobType ∈ jobTypes) → job.id ∉ locked →
        claimable db now job = false := by
  simp only [nextClaimable, List.head?_eq_none_iff, ← List.length_eq_zero_iff,
    List.length_insertionSort]
  simp only [List.length_eq_zero_iff, Table.select, List.filter_eq_nil_iff, Table.mem_def,
    Bool.and_eq_true, Bool.or_eq_true, List.isEmpty_iff, List.contains_iff_mem,
    Bool.not_eq_true', ← Bool.not_eq_true]
  constructor
  · intro h job hjob htype hlocked hclaim
    exact h job hjob ⟨⟨hclaim, htype⟩, hlocked⟩
  · rintro h job hjob ⟨⟨hclaim, htype⟩, hlocked⟩
    exact h job hjob htype hlocked hclaim

theorem get?_ne_none_of_set {leases : Table BackgroundJobLease} {lease : BackgroundJobLease}
    {id : UUID} (h : (leases.set lease).get? id ≠ none) : leases.get? id ≠ none := by
  intro hnone
  rw [Table.get?_set, hnone] at h
  split at h <;> exact h rfl

theorem ClaimEnds.mono {db₁ : Database} {r : ClaimRequest}
    {answer : Except BackgroundJobError (Option JobLeaseGrant × Database)}
    (h : ClaimEnds r db₁ answer)
    (htaken : db₁.backgroundJobLeases.get? r.leaseId ≠ none →
      db.backgroundJobLeases.get? r.leaseId ≠ none) : ClaimEnds r db answer := by
  cases h with
  | granted grant db' hgranted => exact .granted grant db' hgranted
  | nothingLeft db' reading hnone => exact .nothingLeft db' reading hnone
  | clockWentBack db' reading job hjob hexpired hlive =>
    exact .clockWentBack db' reading job hjob hexpired hlive
  | leaseTaken e h => exact .leaseTaken e (htaken h)

/-- Issuing a lease to a job of a task ends in a grant unless the identifier is taken. -/
theorem issueLease_ends {db₁ : Database} {r : ClaimRequest} {job : BackgroundJob} {now : Time}
    {recovered : Bool} (htask : job.taskId ≠ none)
    (hgranted : ∀ result db', issueLease rt db₁ r job now recovered = .ok (result, db') →
      ∃ grant, result = some grant ∧ Granted db' grant) :
    ClaimEnds r db₁ (issueLease rt db₁ r job now recovered) := by
  obtain ⟨taskId, htask⟩ := Option.ne_none_iff_exists'.mp htask
  cases hissue : issueLease rt db₁ r job now recovered with
  | ok answer =>
    obtain ⟨result, db'⟩ := answer
    obtain ⟨grant, rfl, hgrant⟩ := hgranted result db' hissue
    exact .granted grant db' hgrant
  | error e =>
    refine .leaseTaken e ?_
    intro hnone
    cases hinsert : db₁.backgroundJobLeases.insert? (r.lease rt db₁ job now) with
    | some leases =>
      have hleased : (job.leaseTo (r.lease rt db₁ job now)).taskId = some taskId := htask
      simp [issueLease, grantOf, hinsert, hleased, Except.orThrow] at hissue
    | none =>
      have hkey : key (r.lease rt db₁ job now) ∈ db₁.backgroundJobLeases.rows.map key := by
        by_contra hfree
        simp [Table.insert?, hfree] at hinsert
      obtain ⟨row, hrow, hid⟩ := List.mem_map.mp hkey
      exact Table.get?_eq_none.mp hnone row hrow hid

/-- Leasing the job a claim has taken. -/
theorem issueLease_claim {db₁ : Database} {r : ClaimRequest} {job : BackgroundJob} {now : Time}
    {recovered : Bool} (htask : job.taskId ≠ none)
    (hget : db.backgroundJobs.get? job.id = some job)
    (hjobs : db₁.backgroundJobs = db.backgroundJobs)
    (hothers : OthersKept job.id db.backgroundJobLeases db₁.backgroundJobLeases)
    (hissued : leasesIssued db₁.backgroundJobLeases job.id =
      leasesIssued db.backgroundJobLeases job.id)
    (hopen : jobPhase db job = .waiting ∨
      jobPhase db job = .active ∧ job.attemptCount < job.maxAttempts)
    (htaken : db₁.backgroundJobLeases.get? r.leaseId ≠ none →
      db.backgroundJobLeases.get? r.leaseId ≠ none) :
    ClaimEnds r db (issueLease rt db₁ r job now recovered) ∧
      ∀ result db', issueLease rt db₁ r job now recovered = .ok (result, db') →
        JobTurns db db' := by
  constructor
  · refine (issueLease_ends htask ?_).mono htaken
    intro result db' h
    obtain ⟨-, grant, job', lease, rfl, hactive, hjob, hlease⟩ :=
      issueLease_turns hget hjobs hothers hissued hopen h
    exact ⟨grant, rfl, job', lease, hactive, hjob, hlease⟩
  · intro result db' h
    exact (issueLease_turns hget hjobs hothers hissued hopen h).1

/-- A claim charges the accounts of the jobs it fails or grants, and it ends: each round
that goes on fails a running job. -/
theorem claimLoop_turns {r : ClaimRequest} (rounds : ℕ) {reading : ℕ} {db : Database}
    (hsound : Sound db) (hrounds : runningJobs db < rounds) :
    ClaimEnds r db (claimLoop rt r rounds reading db) ∧
      ∀ result db', claimLoop rt r rounds reading db = .ok (result, db') → JobTurns db db' := by
  induction rounds generalizing reading db with
  | zero => omega
  | succ rounds ih =>
    rw [claimLoop]
    cases hnext : nextClaimable db r.jobTypes r.locked (r.clock reading) with
    | none =>
      refine ⟨.nothingLeft db reading (nextClaimable_eq_none.mp hnext), ?_⟩
      intro result db' h
      cases h
      exact .refl db
    | some job =>
      obtain ⟨hmem, hclaim⟩ := nextClaimable_spec hnext
      have hjob : db.backgroundJobs.get? job.id = some job := Table.get?_key hmem
      simp only [claimable, Bool.and_eq_true, Bool.or_eq_true, decide_eq_true_eq] at hclaim
      obtain ⟨⟨⟨⟨-, hhasTask⟩, -⟩, -⟩, hdue⟩ := hclaim
      have htask : job.taskId ≠ none := by
        intro hnone
        simp [hnone] at hhasTask
      by_cases hrunning : job.status = .running
      · -- The lease of a running job has run out.
        obtain ⟨previous, hactive⟩ := hsound.exists_active hjob hrunning
        have hexpired : job.leaseExpired (r.clock reading) = true := by
          rcases hdue with ⟨⟨hqueued, -⟩, -⟩ | hexpired
          · rw [hrunning] at hqueued
            cases hqueued
          · exact hexpired
        simp only [hrunning, if_true, hactive.row, Except.orThrow, Except.ok_bind]
        split
        · rename_i hlive
          refine ⟨.clockWentBack db reading job hmem hexpired hlive, ?_⟩
          intro result db' h
          cases h
          exact .refl db
        · split
          · have hclose : JobTurns db (db.putLeased
                (finishJob job .failed (some "LEASE_EXPIRED_ATTEMPTS_EXHAUSTED")
                  previous.fencingToken (r.clock (reading + 1)))
                { previous.release (r.clock (reading + 1)) .expired with
                  failureCode := some "LEASE_EXPIRED_ATTEMPTS_EXHAUSTED" }) :=
              hactive.close rfl rfl rfl rfl rfl rfl rfl rfl
            have hfewer : runningJobs (db.putLeased
                (finishJob job .failed (some "LEASE_EXPIRED_ATTEMPTS_EXHAUSTED")
                  previous.fencingToken (r.clock (reading + 1)))
                { previous.release (r.clock (reading + 1)) .expired with
                  failureCode := some "LEASE_EXPIRED_ATTEMPTS_EXHAUSTED" }) < rounds :=
              Nat.lt_of_lt_of_le (runningJobs_putLeased hmem rfl hrunning (by simp [finishJob]))
                (Nat.lt_succ_iff.mp hrounds)
            obtain ⟨hends, hturns⟩ := ih (hclose.sound hsound) hfewer
            refine ⟨hends.mono get?_ne_none_of_set, ?_⟩
            intro result db' h
            exact hclose.trans (hturns result db' h)
          · rename_i hleft
            exact issueLease_claim htask hjob rfl (hactive.othersKept rfl rfl)
              (hactive.issued_eq rfl rfl) (.inr ⟨hactive.phase, Nat.lt_of_not_le hleft⟩)
              get?_ne_none_of_set
      · have hqueued : job.status = .queued := by
          rcases hdue with ⟨⟨hqueued, -⟩, -⟩ | hexpired
          · exact hqueued
          · simp [BackgroundJob.leaseExpired, hrunning] at hexpired
        have hwaiting : jobPhase db job = .waiting := by
          simp [jobPhase, hqueued, hsound.waiting hjob hqueued]
        simp only [hrunning, if_false]
        exact issueLease_claim htask hjob rfl (.refl _ _) rfl (.inl hwaiting) id

theorem requiredIdentifier_error {value field : String} {maximum : ℕ} {e : BackgroundJobError}
    (h : requiredIdentifier rt value field maximum = .error e) :
    ∃ message, e = .invalid message := by
  simp only [requiredIdentifier] at h
  split at h
  · cases h
  · exact ⟨_, (Except.error.inj h).symm⟩

theorem mapM_requiredIdentifier_error {values : List String} {field : String} {maximum : ℕ}
    {e : BackgroundJobError}
    (h : values.mapM (requiredIdentifier rt · field maximum) = .error e) :
    ∃ message, e = .invalid message := by
  induction values with
  | nil => cases h
  | cons value values ih =>
    rw [List.mapM_cons] at h
    cases hvalue : requiredIdentifier rt value field maximum with
    | error e' =>
      rw [hvalue] at h
      cases h
      exact requiredIdentifier_error hvalue
    | ok checked =>
      cases hvalues : values.mapM (requiredIdentifier rt · field maximum) with
      | error e' =>
        rw [hvalue, hvalues] at h
        cases h
        exact ih hvalues
      | ok rest =>
        rw [hvalue, hvalues] at h
        cases h

/-- A claim is refused for its arguments, or it ends as its scan does. -/
theorem BackgroundJobService.claimNext_ends {c : ClaimCommand} (hsound : Sound db) :
    (∃ message, BackgroundJobService.claimNext rt db c = .error (.invalid message)) ∨
      ∃ r : ClaimRequest, r.locked = c.locked ∧ r.clock = c.clock ∧ r.leaseId = c.leaseId ∧
        c.jobTypes.mapM (requiredIdentifier rt · "type" maxJobIdentifierLength) =
          .ok r.jobTypes ∧
        BackgroundJobService.claimNext rt db c = claimLoop rt r (runningJobs db + 1) 0 db ∧
        ClaimEnds r db (BackgroundJobService.claimNext rt db c) := by
  unfold BackgroundJobService.claimNext
  cases hworker : requiredIdentifier rt c.workerId "worker" 255 with
  | error e =>
    obtain ⟨message, rfl⟩ := requiredIdentifier_error hworker
    exact .inl ⟨message, rfl⟩
  | ok workerId =>
    cases hduration : leaseDuration c.leaseDuration with
    | error e =>
      simp only [leaseDuration] at hduration
      split at hduration
      · cases hduration
      · obtain rfl := Except.error.inj hduration
        exact .inl ⟨_, rfl⟩
    | ok duration =>
      cases htypes : c.jobTypes.mapM (requiredIdentifier rt · "type" maxJobIdentifierLength) with
      | error e =>
        obtain ⟨message, rfl⟩ := mapM_requiredIdentifier_error htypes
        exact .inl ⟨message, rfl⟩
      | ok jobTypes =>
        exact .inr ⟨⟨workerId, duration, jobTypes, c.locked, c.clock, c.leaseId⟩, rfl, rfl, rfl,
          rfl, rfl, (claimLoop_turns _ hsound (Nat.lt_succ_self _)).1⟩

theorem BackgroundJobService.claimNext_turns {c : ClaimCommand} {result : Option JobLeaseGrant}
    (hsound : Sound db) (h : BackgroundJobService.claimNext rt db c = .ok (result, db')) :
    JobTurns db db' := by
  simp only [BackgroundJobService.claimNext, Except.bind_eq_ok] at h
  obtain ⟨_, _, _, _, _, _, h⟩ := h
  exact (claimLoop_turns _ hsound (Nat.lt_succ_self _)).2 _ _ h

end Claim

/-! ### Loops over jobs -/

/-- A loop over distinct jobs of the store, each round of which writes only its own job. -/
theorem foldlM_turns {ε : Type} {step : Database → BackgroundJob → Except ε Database}
    (jobs : List BackgroundJob) {db db' : Database}
    (hstep : ∀ job ∈ jobs, ∀ db db', Sound db → db.backgroundJobs.get? job.id = some job →
      step db job = .ok db' → JobTurns db db' ∧
        ∀ id ≠ job.id, db'.backgroundJobs.get? id = db.backgroundJobs.get? id)
    (hsound : Sound db) (hnodup : (jobs.map BackgroundJob.id).Nodup)
    (hjobs : ∀ job ∈ jobs, db.backgroundJobs.get? job.id = some job)
    (h : jobs.foldlM step db = .ok db') : JobTurns db db' := by
  induction jobs generalizing db with
  | nil =>
    simp only [List.foldlM_nil, Except.pure_eq_ok] at h
    exact h ▸ .refl db
  | cons job jobs ih =>
    simp only [List.foldlM_cons, Except.bind_eq_ok] at h
    obtain ⟨db₁, h₁, h⟩ := h
    obtain ⟨hturns, hrest⟩ :=
      hstep job List.mem_cons_self db db₁ hsound (hjobs job List.mem_cons_self) h₁
    rw [List.map_cons, List.nodup_cons] at hnodup
    refine hturns.trans (ih (fun other hother => hstep other (List.mem_cons_of_mem job hother))
      (hturns.sound hsound) hnodup.2 ?_ h)
    intro other hother
    have hne : other.id ≠ job.id := fun heq => hnodup.1 (heq ▸ List.mem_map_of_mem hother)
    rw [hrest other.id hne]
    exact hjobs other (List.mem_cons_of_mem job hother)

theorem releaseExpired_turns {now : Time} {db db' : Database} {job : BackgroundJob}
    (hjob : db.backgroundJobs.get? job.id = some job) (hrunning : job.status = .running)
    (h : releaseExpired now db job = .ok db') : JobTurns db db' := by
  simp only [releaseExpired, Except.bind_eq_ok, Except.orThrow_eq_ok, Except.require_eq_ok,
    Except.pure_eq_ok] at h
  obtain ⟨lease, hrow, _, hreleased, rfl⟩ := h
  have hactive : Active db job lease := ⟨hjob, hrow, hrunning, hreleased⟩
  split
  · exact hactive.close rfl rfl rfl rfl rfl rfl rfl rfl
  · split
    · exact hactive.close rfl rfl rfl rfl rfl rfl rfl rfl
    · rename_i hleft
      have hleft : job.attemptCount < job.maxAttempts := by simpa using hleft
      exact hactive.giveUp rfl rfl rfl rfl rfl hleft rfl rfl

theorem BackgroundJobService.reconcileExpiredLeases_turns {db db' : Database}
    {c : ReconcileCommand} {ids : List UUID} (hsound : Sound db)
    (h : BackgroundJobService.reconcileExpiredLeases db c = .ok (ids, db')) : JobTurns db db' := by
  simp only [BackgroundJobService.reconcileExpiredLeases, Except.bind_eq_ok, Except.pure_eq_ok,
    Prod.mk.injEq] at h
  obtain ⟨_, _, _, h, _, rfl⟩ := h
  have hperm := List.perm_insertionSort (fun a b : BackgroundJob =>
    (toLex (a.leaseExpiresAt.getD 0, toLex (a.createdAt, a.id.bits.toNat)) : ℕ ×ₗ ℕ ×ₗ ℕ) ≤
      toLex (b.leaseExpiresAt.getD 0, toLex (b.createdAt, b.id.bits.toNat)))
    (db.backgroundJobs.select fun job => job.leaseExpired c.now && !c.locked.contains job.id)
  refine foldlM_turns _ ?_ hsound ?_ ?_ h
  · intro job hmem db₁ db₂ _ hjob h
    have hselected := hperm.mem_iff.mp (List.mem_of_mem_take hmem)
    have hrunning : job.status = .running := by
      have hexpired := (List.mem_filter.mp hselected).2
      simp only [BackgroundJob.leaseExpired, Bool.and_eq_true, decide_eq_true_eq] at hexpired
      exact hexpired.1.1
    exact ⟨releaseExpired_turns hjob hrunning h, (releaseExpired_ok hjob h).2⟩
  · refine ((hperm.map _).nodup_iff.mpr (nodup_select db _)).sublist ?_
    exact (List.take_sublist _ _).map _
  · intro job hmem
    exact get?_of_mem_select (hperm.mem_iff.mp (List.mem_of_mem_take hmem))

/-! ### Work under a lease -/

section Grants
variable {rt : Runtime} {service : BackgroundJobService} {db db' : Database}
  {grant : JobLeaseGrant} {now : Time} {job job' : BackgroundJob}
  {lease lease' : BackgroundJobLease}

theorem appendCheckpoint_turns {entry : CheckpointEntry} {result : JobCheckpointResult}
    (hactive : Active db job lease)
    (h : appendCheckpoint db job lease entry now = .ok (result, job', lease', db')) :
    Active db' job' lease' ∧ JobTurns db db' := by
  unfold appendCheckpoint at h
  split at h
  · simp only [Except.bind_eq_ok, Except.pure_eq_ok, Prod.mk.injEq] at h
    obtain ⟨_, _, _, rfl, rfl, rfl⟩ := h
    exact ⟨hactive, .refl db⟩
  · simp only [Except.bind_eq_ok, Except.orThrow_eq_ok, Except.pure_eq_ok, Prod.mk.injEq] at h
    obtain ⟨_, _, checkpoints, _, _, rfl, rfl, rfl⟩ := h
    have hframe : JobTurns db { db with backgroundJobCheckpoints := checkpoints } :=
      .frame rfl rfl
    have hactive₁ : Active { db with backgroundJobCheckpoints := checkpoints } job lease :=
      ⟨hactive.job_eq, hactive.row, hactive.running, hactive.unreleased⟩
    obtain ⟨hactive', hturns⟩ : Active _ (job.atCheckpoint entry lease.fencingToken)
        (lease.atCheckpoint entry) ∧ JobTurns _ _ :=
      hactive₁.keep rfl rfl rfl rfl rfl rfl rfl rfl
    exact ⟨hactive', hframe.trans hturns⟩

theorem BackgroundJobService.heartbeat_turns {duration : Time} {grant' : JobLeaseGrant}
    (h : BackgroundJobService.heartbeat db grant now duration = .ok (grant', db')) :
    JobTurns db db' := by
  simp only [BackgroundJobService.heartbeat, Except.bind_eq_ok, Except.pure_eq_ok,
    Prod.mk.injEq] at h
  obtain ⟨_, _, ⟨job, lease⟩, hheld, _, _, _, rfl⟩ := h
  have hactive := (currentLease_ok.mp hheld).active
  refine (hactive.keep ?_ ?_ ?_ ?_ ?_ ?_ ?_ ?_).2 <;> rfl

theorem BackgroundJobService.checkpoint_turns {c : CheckpointCommand}
    {result : JobCheckpointResult}
    (h : BackgroundJobService.checkpoint rt db grant now c = .ok (result, db')) :
    JobTurns db db' := by
  simp only [BackgroundJobService.checkpoint, Except.bind_eq_ok, Except.pure_eq_ok,
    Prod.mk.injEq] at h
  obtain ⟨entry, _, ⟨job, lease⟩, hheld, ⟨_, job', lease', _⟩, happend, _, rfl⟩ := h
  exact (appendCheckpoint_turns (currentLease_ok.mp hheld).active happend).2

theorem BackgroundJobService.recordEffectResult_turns {c : EffectResultCommand}
    {result : JobCheckpointResult}
    (h : BackgroundJobService.recordEffectResult rt db grant now c = .ok (result, db')) :
    JobTurns db db' := by
  simp only [BackgroundJobService.recordEffectResult, Except.bind_eq_ok, Except.orThrow_eq_ok,
    Except.require_eq_ok, Except.pure_eq_ok, Prod.mk.injEq] at h
  obtain ⟨payload, _, entry, _, ⟨job, lease⟩, hheld, effect, _, _, _, db₁, h₁,
    ⟨_, job', lease', _⟩, happend, _, rfl⟩ := h
  have hactive := (currentLease_ok.mp hheld).active
  -- Settling the effect writes no job.
  have hsame : db₁.backgroundJobs = db.backgroundJobs ∧
      db₁.backgroundJobLeases = db.backgroundJobLeases := by
    unfold settleEffect at h₁
    split at h₁
    · cases h₁
      exact ⟨rfl, rfl⟩
    · simp only [Except.bind_eq_ok, Except.pure_eq_ok] at h₁
      obtain ⟨_, _, rfl⟩ := h₁
      exact ⟨rfl, rfl⟩
  have hactive₁ : Active db₁ job lease := by
    refine ⟨hsame.1 ▸ hactive.job_eq, ?_, hactive.running, hactive.unreleased⟩
    have hrow := currentLeaseRow_eq_some.mp hactive.row
    exact currentLeaseRow_eq_some.mpr ⟨hrow.1, hsame.2 ▸ hrow.2.1, hrow.2.2⟩
  exact (JobTurns.frame hsame.1 hsame.2).trans (appendCheckpoint_turns hactive₁ happend).2

theorem BackgroundJobService.complete_turns {c : CompleteCommand}
    (h : BackgroundJobService.complete rt db grant now c = .ok db') : JobTurns db db' := by
  simp only [BackgroundJobService.complete, Except.bind_eq_ok, Except.pure_eq_ok] at h
  obtain ⟨_, _, ⟨job, lease⟩, hheld, _, _, ⟨job', lease', db₁⟩, h₁, rfl⟩ := h
  have hactive := (currentLease_ok.mp hheld).active
  have hfinal : Active db₁ job' lease' ∧ JobTurns db db₁ := by
    unfold finalCheckpoint at h₁
    split at h₁
    · simp only [Except.bind_eq_ok, Except.pure_eq_ok] at h₁
      obtain ⟨_, _, ⟨_, _⟩, happend, rfl⟩ := h₁
      exact appendCheckpoint_turns hactive happend
    · simp only [Except.bind_eq_ok, Except.pure_eq_ok, Prod.mk.injEq] at h₁
      obtain ⟨_, _, rfl, rfl, rfl⟩ := h₁
      exact ⟨hactive, .refl db⟩
  exact hfinal.2.trans (hfinal.1.close rfl rfl rfl rfl rfl rfl rfl rfl)

theorem retryDelay_some {canRetry : Bool} {retryAt : Time}
    (h : retryDelay rt job canRetry = .ok (some retryAt)) : canRetry = true := by
  simp only [retryDelay, Except.bind_eq_ok] at h
  obtain ⟨_, _, h⟩ := h
  split at h
  · assumption
  · cases h

theorem releaseFailedAttempt_turns {errorCode : String} {retryable : Bool}
    {disposition : JobFailureDisposition} (hactive : Active db job lease)
    (h : releaseFailedAttempt rt db job lease grant errorCode retryable now =
      .ok (disposition, db')) : JobTurns db db' := by
  simp only [releaseFailedAttempt, Except.bind_eq_ok, Except.pure_eq_ok, Prod.mk.injEq] at h
  obtain ⟨delay, hdelay, _, rfl⟩ := h
  cases delay with
  | none => exact hactive.close rfl rfl rfl rfl rfl rfl rfl rfl
  | some delay =>
    have hleft : job.attemptCount < job.maxAttempts := by
      have hretry := retryDelay_some hdelay
      simp only [Bool.and_eq_true, decide_eq_true_eq] at hretry
      exact hretry.2
    exact hactive.giveUp rfl rfl rfl rfl rfl hleft rfl rfl

theorem BackgroundJobService.failAttempt_turns {errorCode : String} {retryable : Bool}
    {disposition : JobFailureDisposition}
    (h : BackgroundJobService.failAttempt rt db grant now errorCode retryable =
      .ok (disposition, db')) : JobTurns db db' := by
  simp only [BackgroundJobService.failAttempt, Except.bind_eq_ok] at h
  obtain ⟨_, _, ⟨job, lease⟩, hheld, h⟩ := h
  exact releaseFailedAttempt_turns (currentLease_ok.mp hheld).active h

theorem BackgroundJobService.failDependencyAttempt_turns {dependency : DependencyService}
    {errorCode : String} {disposition : JobFailureDisposition}
    (h : BackgroundJobService.failDependencyAttempt rt service db grant now dependency errorCode =
      .ok (disposition, db')) : JobTurns db db' := by
  simp only [BackgroundJobService.failDependencyAttempt, Except.bind_eq_ok, Except.relabel_eq_ok,
    Except.orThrow_eq_ok, Except.pure_eq_ok, Prod.mk.injEq] at h
  obtain ⟨_, _, ⟨job, lease⟩, hheld, ⟨captured, db₁⟩, hcapture, ⟨_, db₂⟩, hrelease, outages, _, _,
    rfl⟩ := h
  have hactive := (currentLease_ok.mp hheld).active
  obtain ⟨records, -, rfl⟩ := captureEvidence_ok hcapture rfl
  have hcaptured : JobTurns db { db with evidenceRecords := records } := .frame rfl rfl
  have hactive₁ : Active { db with evidenceRecords := records } job lease :=
    ⟨hactive.job_eq, hactive.row, hactive.running, hactive.unreleased⟩
  exact (hcaptured.trans (releaseFailedAttempt_turns hactive₁ hrelease)).trans (.frame rfl rfl)

theorem transitionTask_turns {c : TaskTransitionCommand} {result : TaskTransitionResult}
    (h : transitionTask rt db c = .ok (result, db')) : JobTurns db db' := by
  rcases transitionTask_ok h with rfl | ⟨a, rfl⟩
  · exact .refl _
  · exact .frame rfl rfl

theorem BackgroundJobService.transitionTask_turns {c : JobTransitionCommand}
    {result : TaskTransitionResult}
    (h : BackgroundJobService.transitionTask rt service db grant now c = .ok (result, db')) :
    JobTurns db db' := by
  simp only [BackgroundJobService.transitionTask, Except.bind_eq_ok, Except.relabel_eq_ok] at h
  obtain ⟨_, _, _, _, _, _, ⟨job, lease⟩, _, _, _, ⟨_, db₁⟩, htransition, h⟩ := h
  have hturns := ControlPlane.transitionTask_turns htransition
  split at h
  · simp only [Except.bind_eq_ok, Except.pure_eq_ok, Prod.mk.injEq] at h
    obtain ⟨_, _, _, rfl⟩ := h
    exact hturns
  · simp only [Except.bind_eq_ok, Except.pure_eq_ok, Prod.mk.injEq] at h
    obtain ⟨_, _, _, rfl⟩ := h
    exact hturns.trans (.frame rfl rfl)

/-- A pause gives back the attempt of the job that pauses. -/
theorem BackgroundJobService.pauseAttempt_turns {errorCode : String}
    (h : BackgroundJobService.pauseAttempt rt db grant now errorCode = .ok db')
    (paused : UUID → ℕ) (jobId : UUID) :
    Turns (account db paused jobId)
      (account db' (fun id => paused id + if id = grant.jobId then 1 else 0) jobId) := by
  simp only [BackgroundJobService.pauseAttempt, Except.bind_eq_ok, Except.pure_eq_ok] at h
  obtain ⟨_, _, ⟨job, lease⟩, hheld, rfl⟩ := h
  have hheld := currentLease_ok.mp hheld
  have hid : job.id = grant.jobId := Table.key_of_get? hheld.job_eq
  rw [← hid]
  refine hheld.active.refund ?_ ?_ ?_ ?_ ?_ ?_ ?_ paused jobId <;> rfl

end Grants

/-! ### Outages -/

section Outages
variable {rt : Runtime} {db db' : Database}

theorem BackgroundJobService.reconcileOutageEscalation_turns {jobId : UUID} {result : Option UUID}
    (h : BackgroundJobService.reconcileOutageEscalation rt db jobId = .ok (result, db')) :
    JobTurns db db' := by
  simp only [BackgroundJobService.reconcileOutageEscalation, Except.bind_eq_ok] at h
  obtain ⟨_, _, _, _, _, _, latest, _, _, _, h⟩ := h
  split at h
  · simp only [Except.pure_eq_ok, Prod.mk.injEq] at h
    exact h.2 ▸ .refl db
  · split at h
    · simp only [Except.pure_eq_ok, Prod.mk.injEq] at h
      exact h.2 ▸ .refl db
    · simp only [Except.pure_eq_ok, Prod.mk.injEq] at h
      exact h.2 ▸ .frame rfl rfl

/-- The next generation of a job starts with no attempt used. -/
theorem resumeJob_turns {job : BackgroundJob} {taskId decisionId newId id : UUID} {now : Time}
    (h : resumeJob rt db job taskId decisionId newId now = .ok (id, db')) : JobTurns db db' := by
  unfold resumeJob at h
  split at h
  · simp only [Except.bind_eq_ok, Except.pure_eq_ok, Prod.mk.injEq] at h
    obtain ⟨_, _, _, rfl⟩ := h
    exact .refl db
  · simp only [Except.bind_eq_ok, Except.orThrow_eq_ok, Except.pure_eq_ok, Prod.mk.injEq] at h
    obtain ⟨policy, _, jobs, hjobs, _, rfl⟩ := h
    refine insertJob_turns rfl rfl rfl ?_ hjobs rfl
    exact policy.maxAttempts_bounds.1

theorem resolveOutages_turns {c : OutageDecisionCommand}
    (entries : List (DependencyOutageAttempt × ℕ))
    (h : entries.foldlM (resolveOutage rt c) db = .ok db') : JobTurns db db' := by
  induction entries generalizing db with
  | nil =>
    simp only [List.foldlM_nil, Except.pure_eq_ok] at h
    exact h ▸ .refl db
  | cons entry entries ih =>
    simp only [List.foldlM_cons, Except.bind_eq_ok] at h
    obtain ⟨db₁, h₁, h⟩ := h
    refine JobTurns.trans ?_ (ih h)
    simp only [resolveOutage, Except.bind_eq_ok, Except.orThrow_eq_ok, Except.pure_eq_ok] at h₁
    obtain ⟨_, _, job, _, _, _, _, _, _, _, ⟨_, db₂⟩, h₂, rfl⟩ := h₁
    have hresume : JobTurns db db₂ := by
      unfold resumeOnRetry at h₂
      split at h₂
      · simp only [Except.bind_eq_ok, Except.pure_eq_ok, Prod.mk.injEq] at h₂
        obtain ⟨⟨_, _⟩, h₂, _, rfl⟩ := h₂
        exact resumeJob_turns h₂
      · simp only [Except.ok.injEq, Prod.mk.injEq] at h₂
        exact h₂.2 ▸ .refl db
    exact hresume.trans (.frame rfl rfl)

theorem BackgroundJobService.reconcileOutageDecisions_turns {c : OutageDecisionCommand}
    {ids : List UUID}
    (h : BackgroundJobService.reconcileOutageDecisions rt db c = .ok (ids, db')) :
    JobTurns db db' := by
  simp only [BackgroundJobService.reconcileOutageDecisions, Except.bind_eq_ok, Except.pure_eq_ok,
    Prod.mk.injEq] at h
  obtain ⟨_, _, _, h, _, rfl⟩ := h
  exact resolveOutages_turns _ h

end Outages

/-! ### Fencing the work of a task -/

section Fence
variable {rt : Runtime} {db db' : Database}

theorem fenceJob_turns {code : String} {corrupt : BackgroundJobError} {now : Time}
    {job : BackgroundJob} (hsound : Sound db)
    (hjob : db.backgroundJobs.get? job.id = some job)
    (h : fenceJob code corrupt now db job = .ok db') : JobTurns db db' := by
  unfold fenceJob at h
  split at h
  · rename_i hopen
    split at h
    · rename_i hleased
      simp only [Except.bind_eq_ok, Except.orThrow_eq_ok, Except.require_eq_ok,
        Except.pure_eq_ok] at h
      obtain ⟨lease, hrow, _, hreleased, rfl⟩ := h
      have hactive : Active db job lease := ⟨hjob, hrow, hleased.1, hreleased⟩
      exact hactive.close rfl rfl rfl rfl rfl rfl rfl rfl
    · rename_i hunleased
      simp only [Except.pure_eq_ok] at h
      -- A running job has a lease, so this one waits.
      have hqueued : job.status = .queued := by
        rcases hopen with hqueued | hrunning
        · exact hqueued
        · obtain ⟨lease, hactive⟩ := hsound.exists_active hjob hrunning
          have hcurrent := (currentLeaseRow_eq_some.mp hactive.row).1
          exact absurd ⟨hrunning, by rw [hcurrent]; rfl⟩ hunleased
      have hjobs : db'.backgroundJobs = db.backgroundJobs.set (job.fenced code now) :=
        (congrArg Database.backgroundJobs h).symm
      have hleases : db'.backgroundJobLeases = db.backgroundJobLeases :=
        (congrArg Database.backgroundJobLeases h).symm
      have hid : (job.fenced code now).id = job.id := rfl
      refine turns_of_write hjob hid hjobs (hleases ▸ .refl _ _) ?_
      intro paused
      have hwaiting : jobPhase db job = .waiting := by
        simp [jobPhase, hqueued, hsound.waiting hjob hqueued]
      have hfenced : jobPhase db' (job.fenced code now) = .finished .cancelled := rfl
      rw [account_of_mem hjob, account_of_write hjob hid hjobs, hwaiting, hfenced, hleases]
      exact .single (.close _ _ (.inl rfl))
  · simp only [Except.ok.injEq] at h
    exact h ▸ .refl db

theorem fenceJobs_turns {taskId : UUID} {code reason : String} {corrupt : BackgroundJobError}
    {now : Time} (hsound : Sound db)
    (h : fenceJobs db taskId code reason corrupt now = .ok db') : JobTurns db db' := by
  simp only [fenceJobs, Except.bind_eq_ok, Except.pure_eq_ok] at h
  obtain ⟨db₁, h₁, rfl⟩ := h
  have hfenced : JobTurns db db₁ := by
    refine foldlM_turns _ ?_ hsound (nodup_select db _) (fun _ hmem => get?_of_mem_select hmem) h₁
    intro job _ db₂ db₃ hsound hjob h
    exact ⟨fenceJob_turns hsound hjob h, (fenceJob_ok hsound.idle hjob h).2⟩
  exact hfenced.trans (.frame rfl rfl)

theorem recordCancellation_turns {c : CancelCommand} {task : Task} {reason : String}
    (h : recordCancellation rt db c task reason = .ok db') : JobTurns db db' := by
  unfold recordCancellation at h
  split at h
  · simp only [Except.bind_eq_ok, Except.pure_eq_ok] at h
    obtain ⟨_, _, rfl⟩ := h
    exact .refl db
  · simp only [Except.bind_eq_ok, Except.pure_eq_ok] at h
    obtain ⟨⟨_, db₁⟩, h₁, _, _, rfl⟩ := h
    have hterminal : JobTurns db db₁ := by
      unfold terminalTransition at h₁
      split at h₁
      · simp only [Except.bind_eq_ok, Except.relabel_eq_ok, Except.pure_eq_ok,
          Prod.mk.injEq] at h₁
        obtain ⟨⟨_, _⟩, h₁, _, rfl⟩ := h₁
        exact transitionTask_turns h₁
      · simp only [Except.bind_eq_ok, Except.pure_eq_ok, Prod.mk.injEq] at h₁
        obtain ⟨_, _, _, rfl⟩ := h₁
        exact .refl db
    exact hterminal.trans (.frame rfl rfl)

theorem CancellationService.cancelTask_turns {c : CancelCommand} (hsound : Sound db)
    (h : CancellationService.cancelTask rt db c = .ok db') : JobTurns db db' := by
  simp only [CancellationService.cancelTask, Except.bind_eq_ok] at h
  obtain ⟨_, _, task, _, db₁, h₁, h⟩ := h
  have hrecord := recordCancellation_turns h₁
  exact hrecord.trans (fenceJobs_turns (hrecord.sound hsound) h)

theorem SteeringService.steer_turns {c : SteerCommand} (hsound : Sound db)
    (h : SteeringService.steer rt db c = .ok db') : JobTurns db db' := by
  simp only [SteeringService.steer, fenceScopeWork, Except.bind_eq_ok, Except.relabel_eq_ok,
    Except.pure_eq_ok] at h
  obtain ⟨task, _, _, _, _, _, _, _, _, _, db₂, ⟨db₁, h₁, rfl⟩, ⟨_, _⟩, htransition, rfl⟩ := h
  have hsettled : JobTurns db₁ (settleOutages rt (cancelApprovals rt db₁ c) c) := .frame rfl rfl
  exact ((fenceJobs_turns hsound h₁).trans hsettled).trans (transitionTask_turns htransition)

end Fence

end ControlPlane
