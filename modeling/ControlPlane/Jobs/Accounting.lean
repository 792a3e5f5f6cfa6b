import ControlPlane.Jobs.Attempts
import ControlPlane.Jobs.Fencing

/-!
# Attempts over whole runs

A run is followed together with the pauses it accepts of each job. In every store it
reaches the accounts of all jobs balance, a finished job stays as it is, and a claim ends.
-/
namespace ControlPlane

open Attempts (Phase Account Turn Turns Balanced)

/-- A store with the pauses accepted of each job. -/
structure CountedStore where
  db : Database
  paused : UUID → ℕ

/-- The pauses of a job an accepted command makes. -/
def JobCommand.pauses : JobCommand → UUID → ℕ
  | .granted grant _ (.pauseAttempt _), jobId => if jobId = grant.jobId then 1 else 0
  | _, _ => 0

def CountedStore.execute (rt : Runtime) (service : BackgroundJobService) (s : CountedStore)
    (c : JobCommand) : CountedStore :=
  match c.run rt service s.db with
  | .ok db => ⟨db, fun jobId => s.paused jobId + c.pauses jobId⟩
  | .error _ => s

/-- The runs of the job service, with their pauses counted. -/
def countedSystem (rt : Runtime) : TransitionSystem CountedStore where
  init s := (jobSystem rt).init s.db ∧ s.paused = fun _ => 0
  step s s' :=
    (∃ (service : BackgroundJobService) (c : JobCommand), s' = s.execute rt service c) ∨
      SameWork s.db s'.db ∧ s'.paused = s.paused

section Runs
variable {rt : Runtime} {db db' : Database} {s s' : CountedStore}

theorem GrantCommand.run_turns {service : BackgroundJobService} {grant : JobLeaseGrant}
    {now : Time} {c : GrantCommand} (h : c.run rt service db grant now = .ok db')
    (paused : UUID → ℕ) (jobId : UUID) :
    Turns (account db paused jobId)
      (account db' (fun id => paused id + (JobCommand.granted grant now c).pauses id) jobId) := by
  cases c with
  | heartbeat duration =>
    obtain ⟨_, h⟩ := map_snd_eq_ok h
    exact BackgroundJobService.heartbeat_turns h paused jobId
  | checkpoint c =>
    obtain ⟨_, h⟩ := map_snd_eq_ok h
    exact BackgroundJobService.checkpoint_turns h paused jobId
  | prepareEffect c =>
    obtain ⟨prepared, h⟩ := map_snd_eq_ok h
    obtain ⟨r, job, lease, -, -, hcases⟩ := BackgroundJobService.prepareEffect_ok h
    rcases hcases with ⟨rfl, -⟩ | ⟨effects, -, -, -, -, rfl⟩
    · exact .refl
    · exact JobTurns.frame rfl rfl paused jobId
  | recordEffectResult c =>
    obtain ⟨_, h⟩ := map_snd_eq_ok h
    exact BackgroundJobService.recordEffectResult_turns h paused jobId
  | recordIgnoredResult c =>
    obtain ⟨_, h⟩ := map_snd_eq_ok h
    obtain ⟨records, ignored, rfl⟩ := BackgroundJobService.recordIgnoredResult_ok h
    exact JobTurns.frame rfl rfl paused jobId
  | complete c => exact BackgroundJobService.complete_turns h paused jobId
  | failAttempt errorCode retryable =>
    obtain ⟨_, h⟩ := map_snd_eq_ok h
    exact BackgroundJobService.failAttempt_turns h paused jobId
  | pauseAttempt errorCode => exact BackgroundJobService.pauseAttempt_turns h paused jobId
  | failDependencyAttempt dependency errorCode =>
    obtain ⟨_, h⟩ := map_snd_eq_ok h
    exact BackgroundJobService.failDependencyAttempt_turns h paused jobId
  | transitionTask c =>
    obtain ⟨_, h⟩ := map_snd_eq_ok h
    exact BackgroundJobService.transitionTask_turns h paused jobId

/-- An accepted command takes every account through turns. -/
theorem JobCommand.run_turns {service : BackgroundJobService} {c : JobCommand} (hsound : Sound db)
    (h : c.run rt service db = .ok db') (paused : UUID → ℕ) (jobId : UUID) :
    Turns (account db paused jobId)
      (account db' (fun id => paused id + c.pauses id) jobId) := by
  cases c with
  | schedule c =>
    obtain ⟨_, h⟩ := map_snd_eq_ok h
    exact BackgroundJobService.schedule_turns h paused jobId
  | claimNext c =>
    obtain ⟨_, h⟩ := map_snd_eq_ok h
    exact BackgroundJobService.claimNext_turns hsound h paused jobId
  | granted grant now c => exact GrantCommand.run_turns h paused jobId
  | reconcileExpiredLeases c =>
    obtain ⟨_, h⟩ := map_snd_eq_ok h
    exact BackgroundJobService.reconcileExpiredLeases_turns hsound h paused jobId
  | reconcileOutageEscalation id =>
    obtain ⟨_, h⟩ := map_snd_eq_ok h
    exact BackgroundJobService.reconcileOutageEscalation_turns h paused jobId
  | reconcileOutageDecisions c =>
    obtain ⟨_, h⟩ := map_snd_eq_ok h
    exact BackgroundJobService.reconcileOutageDecisions_turns h paused jobId
  | cancelTask c => exact CancellationService.cancelTask_turns hsound h paused jobId
  | steer c => exact SteeringService.steer_turns hsound h paused jobId

/-- The accounts of all jobs balance. -/
def Accounted (s : CountedStore) : Prop := ∀ jobId, Balanced (account s.db s.paused jobId)

theorem Accounted.sound (h : Accounted s) : Sound s.db := by
  intro job hjob
  have hphase := (h job.id).sound
  rwa [account_of_mem (Table.get?_key hjob)] at hphase

theorem countedSystem_step (hsound : Sound s.db) (h : (countedSystem rt).step s s')
    (jobId : UUID) : Turns (account s.db s.paused jobId) (account s'.db s'.paused jobId) := by
  rcases h with ⟨service, c, rfl⟩ | ⟨hsame, hpaused⟩
  · unfold CountedStore.execute
    cases hrun : c.run rt service s.db with
    | error e => exact .refl
    | ok db' => exact JobCommand.run_turns hsound hrun s.paused jobId
  · rw [hpaused]
    exact JobTurns.frame hsame.jobs hsame.leases s.paused jobId

theorem Accounted.of_init (h : (countedSystem rt).init s) : Accounted s := by
  obtain ⟨⟨hjobs, hleases, -⟩, hpaused⟩ := h
  intro jobId
  have hnone : s.db.backgroundJobs.get? jobId = none := by
    rw [Table.get?, hjobs]
    rfl
  have haccount : account s.db s.paused jobId = ⟨.absent, 0, 0, 0, 0⟩ := by
    simp [account, hnone, leasesIssued, hleases, hpaused]
  rw [haccount]
  constructor <;> simp

theorem Accounted.step (h : Accounted s) (hstep : (countedSystem rt).step s s') : Accounted s' :=
  fun jobId => (countedSystem_step h.sound hstep jobId).balanced (h jobId)

theorem accounted_of_reachable (h : (countedSystem rt).Reachable s) : Accounted s := by
  refine h.invariant ?_ ?_
  · intro s hinit
    exact Accounted.of_init hinit
  · intro s s' haccounted hstep
    exact haccounted.step hstep

/-- A whole run takes every account through turns. -/
theorem Accounted.turns (h : Accounted s)
    (hrun : Relation.ReflTransGen (countedSystem rt).step s s') (jobId : UUID) :
    Accounted s' ∧ Turns (account s.db s.paused jobId) (account s'.db s'.paused jobId) := by
  induction hrun with
  | refl => exact ⟨h, .refl⟩
  | tail _ hstep ih =>
    exact ⟨ih.1.step hstep, ih.2.trans (countedSystem_step ih.1.sound hstep jobId)⟩

/-! ### What the accounts say of a job -/

/-- A job's status, its lease and its attempts agree. -/
structure JobAccounted (s : CountedStore) (job : BackgroundJob) : Prop where
  queued : job.status = .queued → job.currentLeaseId = none ∧ job.attemptCount < job.maxAttempts
  running : job.status = .running →
    (∃ lease, currentLeaseRow s.db job = some lease ∧ lease.released = none) ∧
      1 ≤ job.attemptCount ∧ job.attemptCount ≤ job.maxAttempts
  terminal : job.status.isTerminal = true →
    job.completedAt.isSome = true ∧ job.currentLeaseId = none
  counted :
    job.attemptCount + s.paused job.id = leasesIssued s.db.backgroundJobLeases job.id

theorem Sound.finished {job : BackgroundJob} (h : Sound db) (hjob : job ∈ db.backgroundJobs)
    (hdone : job.status.isTerminal = true) :
    jobPhase db job = .finished job.status ∧ job.completedAt.isSome = true ∧
      job.currentLeaseId = none := by
  have hphase := h job hjob
  have hcomplete : job.completedAt.isSome = true ∧ job.currentLeaseId = none := by
    by_contra hne
    cases hstatus : job.status <;> simp_all [jobPhase, BackgroundJobStatus.isTerminal]
  refine ⟨?_, hcomplete⟩
  cases hstatus : job.status <;> simp_all [jobPhase, BackgroundJobStatus.isTerminal]

theorem status_of_finished {job : BackgroundJob} {status : BackgroundJobStatus}
    (h : jobPhase db job = .finished status) : job.status = status := by
  unfold jobPhase at h
  split at h <;> split at h
  all_goals first
    | exact Phase.finished.inj h
    | cases h

theorem Accounted.job {job : BackgroundJob} (h : Accounted s) (hjob : job ∈ s.db.backgroundJobs) :
    JobAccounted s job := by
  have hget : s.db.backgroundJobs.get? job.id = some job := Table.get?_key hjob
  have hbalanced := h job.id
  rw [account_of_mem hget] at hbalanced
  refine ⟨?_, ?_, ?_, hbalanced.total⟩
  · intro hqueued
    have hfree := h.sound.waiting hget hqueued
    exact ⟨hfree, hbalanced.waiting (by simp [jobPhase, hqueued, hfree])⟩
  · intro hrunning
    obtain ⟨lease, hactive⟩ := h.sound.exists_active hget hrunning
    exact ⟨⟨lease, hactive.row, hactive.unreleased⟩, hbalanced.active hactive.phase⟩
  · intro hdone
    exact (h.sound.finished hjob hdone).2

/-- A finished job keeps its status through every run. -/
theorem Accounted.status_eq {job : BackgroundJob} (h : Accounted s)
    (hjob : job ∈ s.db.backgroundJobs) (hdone : job.status.isTerminal = true)
    (hrun : Relation.ReflTransGen (countedSystem rt).step s s') :
    ∃ job', s'.db.backgroundJobs.get? job.id = some job' ∧ job'.status = job.status := by
  have hget : s.db.backgroundJobs.get? job.id = some job := Table.get?_key hjob
  have hphase : (account s.db s.paused job.id).phase = .finished job.status := by
    rw [account_of_mem hget]
    exact (h.sound.finished hjob hdone).1
  have hkept := (h.turns hrun job.id).2.finished hphase
  rw [← hkept] at hphase
  cases hafter : s'.db.backgroundJobs.get? job.id with
  | none =>
    rw [account, hafter] at hphase
    cases hphase
  | some job' =>
    rw [account, hafter] at hphase
    exact ⟨job', rfl, status_of_finished hphase⟩

/-- A scan ends before its rounds do. -/
theorem claimLoop_rounds {r : ClaimRequest} {rounds : ℕ} (h : runningJobs db < rounds) :
    claimLoop rt r rounds 0 db = claimLoop rt r (runningJobs db + 1) 0 db := by
  induction rounds, h using Nat.le_induction with
  | base => rfl
  | succ rounds h ih => rw [claimLoop_succ rt r rounds h, ih]

end Runs

/-! ### Attempts over every run -/

/-- A job's status, lease and attempts agree, a finished job stays as it is, and every claim
ends: with a grant, with nothing left to claim, or since the clock went back during it. -/
theorem attempts_of_run {rt : Runtime} {s : CountedStore} (h : (countedSystem rt).Reachable s) :
    (∀ job ∈ s.db.backgroundJobs, JobAccounted s job) ∧
    (∀ s', Relation.ReflTransGen (countedSystem rt).step s s' →
      ∀ job ∈ s.db.backgroundJobs, job.status.isTerminal = true →
        ∃ job', s'.db.backgroundJobs.get? job.id = some job' ∧ job'.status = job.status) ∧
    ∀ c : ClaimCommand,
      (∃ message, BackgroundJobService.claimNext rt s.db c = .error (.invalid message)) ∨
        ∃ r : ClaimRequest, r.locked = c.locked ∧ r.clock = c.clock ∧ r.leaseId = c.leaseId ∧
          c.jobTypes.mapM (requiredIdentifier rt · "type" maxJobIdentifierLength) =
            .ok r.jobTypes ∧
          ClaimEnds r s.db (BackgroundJobService.claimNext rt s.db c) ∧
          ∀ rounds, runningJobs s.db < rounds →
            claimLoop rt r rounds 0 s.db = BackgroundJobService.claimNext rt s.db c := by
  have haccounted := accounted_of_reachable h
  refine ⟨fun job hjob => haccounted.job hjob, ?_, ?_⟩
  · intro s' hrun job hjob hdone
    exact haccounted.status_eq hjob hdone hrun
  · intro c
    rcases BackgroundJobService.claimNext_ends haccounted.sound with hinvalid | hends
    · exact .inl hinvalid
    · obtain ⟨r, hlocked, hclock, hlease, htypes, hscan, hend⟩ := hends
      refine .inr ⟨r, hlocked, hclock, hlease, htypes, hend, ?_⟩
      intro rounds hrounds
      rw [hscan, claimLoop_rounds hrounds]

/-! ### An attempt given back, and a clock that goes back -/

section Commands
variable {rt : Runtime}

/-- Commands of one service issued one after another. -/
def runCounted (rt : Runtime) (service : BackgroundJobService) (s : CountedStore)
    (cs : List JobCommand) : CountedStore :=
  cs.foldl (fun s c => s.execute rt service c) s

theorem reachable_runCounted (service : BackgroundJobService) (cs : List JobCommand)
    {s : CountedStore} (h : (countedSystem rt).Reachable s) :
    (countedSystem rt).Reachable (runCounted rt service s cs) := by
  induction cs generalizing s with
  | nil => exact h
  | cons c cs ih => exact ih (h.tail (.inl ⟨service, c, rfl⟩))

end Commands

namespace TakeoverExample

/-- The grant of the first claim. -/
def grant : JobLeaseGrant where
  jobId := schedule.jobId
  taskId := task.id
  leaseId := .ofNat 3
  workerId := "a"
  attempt := 1
  fencingToken := 1
  expiresAt := seconds 12
  jobType := "work"
  inputPayload := .obj []
  checkpoint := none
  checkpointVersion := 0
  recovered := false

/-- The first worker pauses, and the second takes the job. -/
def pausing : List JobCommand :=
  [.schedule schedule, .claimNext (claim "a" (seconds 2) (.ofNat 3)),
    .granted grant (seconds 3) (.pauseAttempt "BLOCKED"),
    .claimNext (claim "b" (seconds 4) (.ofNat 4))]

def paused : CountedStore := runCounted .plain service ⟨store, fun _ => 0⟩ pausing

theorem reachable_paused : (countedSystem .plain).Reachable paused :=
  reachable_runCounted service pausing (.of_init ⟨⟨rfl, rfl, rfl⟩, rfl⟩)

set_option maxRecDepth 4000 in
theorem attempts_paused : (paused.db.backgroundJobs.rows.map fun job =>
    (job.attemptCount, paused.paused job.id,
      leasesIssued paused.db.backgroundJobLeases job.id)) = [(1, 1, 2)] := by
  decide +kernel

end TakeoverExample

theorem attempts_of_run_paused :
    (TakeoverExample.paused.db.backgroundJobs.rows.map fun job =>
      (job.attemptCount, TakeoverExample.paused.paused job.id,
        leasesIssued TakeoverExample.paused.db.backgroundJobLeases job.id)) = [(1, 1, 2)] ∧
    ∀ job ∈ TakeoverExample.paused.db.backgroundJobs, JobAccounted TakeoverExample.paused job :=
  ⟨TakeoverExample.attempts_paused, (attempts_of_run TakeoverExample.reachable_paused).1⟩

namespace TakeoverExample

/-- Another job of the task, due after the first. -/
def laterSchedule : ScheduleCommand :=
  { schedule with idempotencyKey := "later", now := seconds 2, jobId := .ofNat 5 }

/-- The first job is leased until its twelfth second; the later one waits. -/
def leasing : List JobCommand :=
  [.schedule schedule, .claimNext (claim "a" (seconds 2) (.ofNat 3)), .schedule laterSchedule]

def leased : CountedStore := runCounted .plain service ⟨store, fun _ => 0⟩ leasing

theorem reachable_leased : (countedSystem .plain).Reachable leased :=
  reachable_runCounted service leasing (.of_init ⟨⟨rfl, rfl, rfl⟩, rfl⟩)

/-- A claim whose clock goes back by a second after its first reading. -/
def claimBack : ClaimCommand :=
  { claim "b" (seconds 12) (.ofNat 4) with
    clock := fun reading => if reading = 0 then seconds 12 else seconds 11 }

/-- A claim has no grant, and a job is claimable at both of two times. -/
def leavesClaimable (answer : Except BackgroundJobError (Option JobLeaseGrant × Database))
    (t t' : Time) : Bool :=
  match answer with
  | .ok (none, db) =>
    db.backgroundJobs.rows.any fun job => claimable db t job && claimable db t' job
  | _ => false

theorem of_leavesClaimable {t t' : Time}
    {answer : Except BackgroundJobError (Option JobLeaseGrant × Database)}
    (h : leavesClaimable answer t t' = true) :
    ∃ db job, answer = .ok (none, db) ∧ job ∈ db.backgroundJobs ∧
      claimable db t job = true ∧ claimable db t' job = true := by
  unfold leavesClaimable at h
  split at h
  · rename_i db
    obtain ⟨job, hjob, hclaimable⟩ := List.any_eq_true.mp h
    rw [Bool.and_eq_true] at hclaimable
    exact ⟨db, job, rfl, hjob, hclaimable⟩
  · cases h

set_option maxRecDepth 4000 in
theorem leavesClaimable_leased :
    leavesClaimable (BackgroundJobService.claimNext .plain leased.db claimBack)
      (seconds 12) (seconds 11) = true := by
  decide +kernel

end TakeoverExample

/-- A claim may leave a job that is claimable at every reading of its clock. -/
theorem not_claims_while_claimable :
    ¬ ∀ s : CountedStore, (countedSystem .plain).Reachable s →
      ∀ (c : ClaimCommand) (db : Database),
        BackgroundJobService.claimNext .plain s.db c = .ok (none, db) →
          ∃ reading, ∀ job ∈ db.backgroundJobs,
            (c.jobTypes = [] ∨ job.jobType ∈ c.jobTypes) → job.id ∉ c.locked →
              claimable db (c.clock reading) job = false := by
  intro hclaims
  obtain ⟨db, job, hclaim, hjob, hfirst, hlater⟩ :=
    TakeoverExample.of_leavesClaimable TakeoverExample.leavesClaimable_leased
  obtain ⟨reading, hnone⟩ :=
    hclaims _ TakeoverExample.reachable_leased TakeoverExample.claimBack db hclaim
  have hleft := hnone job hjob (.inl rfl) (List.not_mem_nil)
  have hclock : TakeoverExample.claimBack.clock reading =
      if reading = 0 then seconds 12 else seconds 11 := rfl
  rw [hclock] at hleft
  split at hleft
  · rw [hfirst] at hleft
    cases hleft
  · rw [hlater] at hleft
    cases hleft

end ControlPlane
