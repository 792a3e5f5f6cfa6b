import ControlPlane.Jobs.Writes
import ControlPlane.Lib.System

/-!
# Runs of the job service

Any number of workers and services issue commands in any order, each one transaction;
between them other services write what is not of the jobs. A command that fails commits
nothing. Readings of the clock are arbitrary; a clock that never goes back is a special
case.
-/
namespace ControlPlane

/-- What the holder of a grant may ask for; the grant may be stale. -/
inductive GrantCommand where
  | heartbeat (duration : Time)
  | checkpoint (c : CheckpointCommand)
  | prepareEffect (c : EffectCommand)
  | recordEffectResult (c : EffectResultCommand)
  | recordIgnoredResult (c : IgnoredResultCommand)
  | complete (c : CompleteCommand)
  | failAttempt (errorCode : String) (retryable : Bool)
  | pauseAttempt (errorCode : String)
  | failDependencyAttempt (dependency : DependencyService) (errorCode : String)
  | transitionTask (c : JobTransitionCommand)

def GrantCommand.run (rt : Runtime) (service : BackgroundJobService) (db : Database)
    (grant : JobLeaseGrant) (now : Time) : GrantCommand → Except BackgroundJobError Database
  | .heartbeat duration => (BackgroundJobService.heartbeat db grant now duration).map Prod.snd
  | .checkpoint c => (BackgroundJobService.checkpoint rt db grant now c).map Prod.snd
  | .prepareEffect c => (BackgroundJobService.prepareEffect rt db grant now c).map Prod.snd
  | .recordEffectResult c =>
    (BackgroundJobService.recordEffectResult rt db grant now c).map Prod.snd
  | .recordIgnoredResult c =>
    (BackgroundJobService.recordIgnoredResult rt service db grant now c).map Prod.snd
  | .complete c => BackgroundJobService.complete rt db grant now c
  | .failAttempt errorCode retryable =>
    (BackgroundJobService.failAttempt rt db grant now errorCode retryable).map Prod.snd
  | .pauseAttempt errorCode => BackgroundJobService.pauseAttempt rt db grant now errorCode
  | .failDependencyAttempt dependency errorCode =>
    (BackgroundJobService.failDependencyAttempt rt service db grant now dependency errorCode).map
      Prod.snd
  | .transitionTask c =>
    (BackgroundJobService.transitionTask rt service db grant now c).map Prod.snd

inductive JobCommand where
  | schedule (c : ScheduleCommand)
  | claimNext (c : ClaimCommand)
  | granted (grant : JobLeaseGrant) (now : Time) (c : GrantCommand)
  | reconcileExpiredLeases (c : ReconcileCommand)
  | reconcileOutageEscalation (jobId : UUID)
  | reconcileOutageDecisions (c : OutageDecisionCommand)
  | cancelTask (c : CancelCommand)
  | steer (c : SteerCommand)

def JobCommand.run (rt : Runtime) (service : BackgroundJobService) (db : Database) :
    JobCommand → Except BackgroundJobError Database
  | .schedule c => (BackgroundJobService.schedule rt db c).map Prod.snd
  | .claimNext c => (BackgroundJobService.claimNext rt db c).map Prod.snd
  | .granted grant now c => c.run rt service db grant now
  | .reconcileExpiredLeases c =>
    (BackgroundJobService.reconcileExpiredLeases db c).map Prod.snd
  | .reconcileOutageEscalation jobId =>
    (BackgroundJobService.reconcileOutageEscalation rt db jobId).map Prod.snd
  | .reconcileOutageDecisions c =>
    (BackgroundJobService.reconcileOutageDecisions rt db c).map Prod.snd
  | .cancelTask c => CancellationService.cancelTask rt db c
  | .steer c => SteeringService.steer rt db c

/-- The store after a transaction: what it committed, or what was there before. -/
def Database.commit {ε : Type} (db : Database) : Except ε Database → Database
  | .ok db' => db'
  | .error _ => db

/-- The tables of the job service, unchanged. -/
structure SameWork (db db' : Database) : Prop where
  jobs : db'.backgroundJobs = db.backgroundJobs
  leases : db'.backgroundJobLeases = db.backgroundJobLeases
  checkpoints : db'.backgroundJobCheckpoints = db.backgroundJobCheckpoints
  effects : db'.backgroundJobEffects = db.backgroundJobEffects
  counter : db'.fencingCounter = db.fencingCounter

theorem SameWork.writes {db db' : Database} (h : SameWork db db') : Writes db db' :=
  .frame h.jobs h.leases h.counter h.effects

/-- The job service from the store without jobs. -/
def jobSystem (rt : Runtime) : TransitionSystem Database where
  init db := db.backgroundJobs.rows = [] ∧ db.backgroundJobLeases.rows = [] ∧
    db.backgroundJobEffects.rows = []
  step db db' :=
    (∃ (service : BackgroundJobService) (c : JobCommand),
      db' = db.commit (c.run rt service db)) ∨ SameWork db db'

/-! ### What a command does -/

/-- What a command does to the effects. -/
inductive EffectChange (rt : Runtime) (db db' : Database) : Prop
  | keep (h : db'.backgroundJobEffects = db.backgroundJobEffects)
  | prepare (grant : JobLeaseGrant) (now : Time) (c : EffectCommand)
      (prepared : PreparedJobEffect)
      (h : BackgroundJobService.prepareEffect rt db grant now c = .ok (prepared, db'))
  | record (effect : BackgroundJobEffect) (lease : BackgroundJobLease)
      (status : BackgroundJobEffectStatus) (payload : Json) (now : Time)
      (hget : db.backgroundJobEffects.get? effect.id = some effect)
      (hpending : effect.status = .pending) (hstatus : status ≠ .pending)
      (h : db'.backgroundJobEffects =
        db.backgroundJobEffects.set (effect.complete lease status payload now))

theorem EffectExecutionResult.status_ne_pending (result : EffectExecutionResult) :
    result.status ≠ .pending := by
  unfold status
  split <;> simp

theorem map_snd_eq_ok {ε α : Type} {x : Except ε (α × Database)} {db : Database}
    (h : x.map Prod.snd = .ok db) : ∃ a, x = .ok (a, db) := by
  cases x with
  | error e => cases h
  | ok p => exact ⟨p.1, by rw [← Except.ok.inj h]⟩

/-- An accepted grant command is the holder's, unless it is about a late result. -/
theorem GrantCommand.run_ok {rt : Runtime} {service : BackgroundJobService} {db db' : Database}
    {grant : JobLeaseGrant} {now : Time} {c : GrantCommand}
    (h : c.run rt service db grant now = .ok db') :
    (Held db grant now ∨ ∃ records ignored, db' = { db with
      evidenceRecords := records, backgroundJobIgnoredResults := ignored }) ∧
    Touches db db' ∧ EffectChange rt db db' := by
  -- Commands that leave the effects alone.
  have hwrites : Held db grant now ∧ Writes db db' →
      (Held db grant now ∨ ∃ records ignored, db' = { db with
        evidenceRecords := records, backgroundJobIgnoredResults := ignored }) ∧
      Touches db db' ∧ EffectChange rt db db' :=
    fun h => ⟨.inl h.1, h.2.touches, .keep h.2.effects⟩
  cases c with
  | heartbeat duration =>
    obtain ⟨_, h⟩ := map_snd_eq_ok h
    exact hwrites (BackgroundJobService.heartbeat_ok h)
  | checkpoint c =>
    obtain ⟨_, h⟩ := map_snd_eq_ok h
    exact hwrites (BackgroundJobService.checkpoint_ok h)
  | prepareEffect c =>
    obtain ⟨prepared, h⟩ := map_snd_eq_ok h
    obtain ⟨r, job, lease, -, hheld, hcases⟩ := BackgroundJobService.prepareEffect_ok h
    refine ⟨.inl ⟨job, lease, hheld⟩, ?_, .prepare grant now c prepared h⟩
    rcases hcases with ⟨rfl, -⟩ | ⟨effects, -, -, -, -, rfl⟩
    · exact .refl
    · exact .single (.frame rfl ⟨rfl, rfl⟩)
  | recordEffectResult c =>
    obtain ⟨_, h⟩ := map_snd_eq_ok h
    obtain ⟨hheld, htouches, hcases⟩ := BackgroundJobService.recordEffectResult_ok h
    refine ⟨.inl hheld, htouches, ?_⟩
    rcases hcases with hsame | ⟨effect, lease, payload, hget, -, hpending, heffects⟩
    · exact .keep hsame
    · have hid : effect.id = c.effectId := Table.key_of_get? hget
      exact .record effect lease _ payload now (hid ▸ hget) hpending
        c.result.status_ne_pending heffects
  | recordIgnoredResult c =>
    obtain ⟨_, h⟩ := map_snd_eq_ok h
    obtain ⟨records, ignored, rfl⟩ := BackgroundJobService.recordIgnoredResult_ok h
    exact ⟨.inr ⟨records, ignored, rfl⟩, .single (.frame rfl ⟨rfl, rfl⟩), .keep rfl⟩
  | complete c =>
    have hok := BackgroundJobService.complete_ok h
    exact hwrites ⟨hok.1, hok.2.2⟩
  | failAttempt errorCode retryable =>
    obtain ⟨_, h⟩ := map_snd_eq_ok h
    exact hwrites (BackgroundJobService.failAttempt_ok h)
  | pauseAttempt errorCode => exact hwrites (BackgroundJobService.pauseAttempt_ok h)
  | failDependencyAttempt dependency errorCode =>
    obtain ⟨_, h⟩ := map_snd_eq_ok h
    exact hwrites (BackgroundJobService.failDependencyAttempt_ok h)
  | transitionTask c =>
    obtain ⟨_, h⟩ := map_snd_eq_ok h
    have hok := BackgroundJobService.transitionTask_ok h
    exact hwrites ⟨hok.1, hok.2.2⟩

theorem JobCommand.run_ok {rt : Runtime} {service : BackgroundJobService} {db db' : Database}
    {c : JobCommand} (hidle : Idle db) (h : c.run rt service db = .ok db') :
    Touches db db' ∧ EffectChange rt db db' := by
  have hwrites : Writes db db' → Touches db db' ∧ EffectChange rt db db' :=
    fun h => ⟨h.touches, .keep h.effects⟩
  cases c with
  | schedule c =>
    obtain ⟨_, h⟩ := map_snd_eq_ok h
    exact hwrites (BackgroundJobService.schedule_ok h)
  | claimNext c =>
    obtain ⟨_, h⟩ := map_snd_eq_ok h
    exact hwrites (BackgroundJobService.claimNext_ok hidle h)
  | granted grant now c => exact (GrantCommand.run_ok h).2
  | reconcileExpiredLeases c =>
    obtain ⟨_, h⟩ := map_snd_eq_ok h
    exact hwrites (BackgroundJobService.reconcileExpiredLeases_ok hidle h)
  | reconcileOutageEscalation jobId =>
    obtain ⟨_, h⟩ := map_snd_eq_ok h
    exact hwrites (BackgroundJobService.reconcileOutageEscalation_ok h)
  | reconcileOutageDecisions c =>
    obtain ⟨_, h⟩ := map_snd_eq_ok h
    exact hwrites (BackgroundJobService.reconcileOutageDecisions_ok h)
  | cancelTask c => exact hwrites (CancellationService.cancelTask_ok hidle h)
  | steer c => exact hwrites (SteeringService.steer_ok hidle h)

section Runs
variable {rt : Runtime} {db db' : Database}

/-- One step of a run, from a store whose idle jobs name no lease. -/
theorem jobSystem_step (hidle : Idle db) (h : (jobSystem rt).step db db') :
    Touches db db' ∧ EffectChange rt db db' := by
  rcases h with ⟨service, c, rfl⟩ | h
  · cases hrun : c.run rt service db with
    | error e => exact ⟨.refl, .keep rfl⟩
    | ok db' => exact JobCommand.run_ok hidle hrun
  · exact ⟨h.writes.touches, .keep h.effects⟩

theorem idle_of_init (h : (jobSystem rt).init db) : Idle db := by
  intro job hjob
  rw [Table.mem_def, h.1] at hjob
  cases hjob

theorem idle_of_reachable (h : (jobSystem rt).Reachable db) : Idle db := by
  refine h.invariant ?_ ?_
  · intro db hinit
    exact idle_of_init hinit
  · intro db db' hidle hstep
    exact (jobSystem_step hidle hstep).1.idle hidle

/-- Commands of one service issued one after another. -/
def runJobs (rt : Runtime) (service : BackgroundJobService) (db : Database)
    (cs : List JobCommand) : Database :=
  cs.foldl (fun db c => db.commit (c.run rt service db)) db

theorem reachable_runJobs (service : BackgroundJobService) (cs : List JobCommand)
    (h : (jobSystem rt).Reachable db) : (jobSystem rt).Reachable (runJobs rt service db cs) := by
  induction cs generalizing db with
  | nil => exact h
  | cons c cs ih => exact ih (h.tail (.inl ⟨service, c, rfl⟩))

end Runs

end ControlPlane
