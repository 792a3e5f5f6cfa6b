import ControlPlane.Jobs.System
import ControlPlane.Lib.AtMostOnce

/-!
# External effects

`LeasedJobContext.perform_effect` prepares an effect, calls its executor and records the
result, as transactions of their own with the external call between them. A worker can
crash, lose its lease or be slow at any point of this; other workers and later leases of
the job go on meanwhile. Here are the calls in progress, what the executors were asked,
and the runs of any number of workers.

## Main results

* `effects_of_run`: an executor is asked to execute an effect of a job at most once, a job
  has at most one pending effect, and with one neither the job nor its task moves on.
-/
namespace ControlPlane

/-! ### The rows of effects -/

/-- A job has at most one pending effect. -/
def OnePending (db : Database) : Prop :=
  ∀ a ∈ db.backgroundJobEffects, ∀ b ∈ db.backgroundJobEffects, a.jobId = b.jobId →
    a.status = .pending → b.status = .pending → a = b

section Rows
variable {rt : Runtime} {db db' : Database}

/-- The rows after one of them is completed. -/
theorem mem_set_complete {effect e : BackgroundJobEffect} {lease : BackgroundJobLease}
    {status : BackgroundJobEffectStatus} {payload : Json} {now : Time}
    (hget : db.backgroundJobEffects.get? effect.id = some effect) :
    e ∈ db.backgroundJobEffects.set (effect.complete lease status payload now) ↔
      e = effect.complete lease status payload now ∨
        (e ∈ db.backgroundJobEffects ∧ e.id ≠ effect.id) := by
  refine Table.mem_set ?_
  intro hnone
  rw [show key (effect.complete lease status payload now) = effect.id from rfl, hget] at hnone
  cases hnone

/-- The row of a key stays. -/
theorem EffectChange.row_of_key (h : EffectChange rt db db') {idempotencyKey : String}
    (hrow : ∃ e ∈ db.backgroundJobEffects, e.idempotencyKey = idempotencyKey) :
    ∃ e ∈ db'.backgroundJobEffects, e.idempotencyKey = idempotencyKey := by
  obtain ⟨e, he, hkey⟩ := hrow
  cases h with
  | keep h => exact ⟨e, h ▸ he, hkey⟩
  | prepare grant now c prepared h =>
    obtain ⟨r, job, lease, -, -, ⟨rfl, -⟩ | ⟨effects, -, -, hinsert, -, rfl⟩⟩ :=
      BackgroundJobService.prepareEffect_ok h
    · exact ⟨e, he, hkey⟩
    · exact ⟨e, (Table.mem_insert? hinsert).mpr (.inl he), hkey⟩
  | record effect lease status payload now hget _ _ h =>
    by_cases hid : e.id = effect.id
    · have heq : e = effect := Table.eq_of_key_eq he (Table.mem_of_get? hget) hid
      exact ⟨_, h ▸ (mem_set_complete hget).mpr (.inl rfl), heq ▸ hkey⟩
    · exact ⟨e, h ▸ (mem_set_complete hget).mpr (.inr ⟨he, hid⟩), hkey⟩

theorem OnePending.preserved (hone : OnePending db) (h : EffectChange rt db db') :
    OnePending db' := by
  intro a ha b hb hjob hpa hpb
  cases h with
  | keep h =>
    rw [h] at ha hb
    exact hone a ha b hb hjob hpa hpb
  | prepare grant now c prepared h =>
    obtain ⟨r, job, lease, -, -, ⟨rfl, -⟩ | ⟨effects, hnone, -, hinsert, -, rfl⟩⟩ :=
      BackgroundJobService.prepareEffect_ok h
    · exact hone a ha b hb hjob hpa hpb
    · -- The job of the new row had no pending effect.
      have hfree : ∀ e ∈ db.backgroundJobEffects, e.jobId = job.id → e.status ≠ .pending := by
        intro e he hjob hpending
        have hmem := mem_pendingEffects.mpr ⟨he, hjob, hpending⟩
        rw [hnone] at hmem
        cases hmem
      rcases (Table.mem_insert? hinsert).mp ha with ha | rfl <;>
        rcases (Table.mem_insert? hinsert).mp hb with hb | rfl
      · exact hone a ha b hb hjob hpa hpb
      · exact absurd hpa (hfree a ha hjob)
      · exact absurd hpb (hfree b hb hjob.symm)
      · rfl
  | record effect lease status payload now hget _ hstatus h =>
    have hold : ∀ e ∈ db'.backgroundJobEffects, e.status = .pending →
        e ∈ db.backgroundJobEffects := by
      intro e he hpending
      rcases (mem_set_complete hget).mp (h ▸ he) with rfl | ⟨he, -⟩
      · exact absurd hpending hstatus
      · exact he
    exact hone a (hold a ha hpa) b (hold b hb hpb) hjob hpa hpb

theorem onePending_of_reachable (h : (jobSystem rt).Reachable db) : OnePending db := by
  refine h.induction (P := OnePending) ?_ ?_
  · intro db hinit a ha
    rw [Table.mem_def, hinit.2.2] at ha
    cases ha
  · intro db db' hdb hone hstep
    exact hone.preserved (jobSystem_step (idle_of_reachable hdb) hstep).2

end Rows

/-! ### Calls of `perform_effect` -/

/-- What a call does next. -/
inductive EffectStage where
  | execute
  | reconcile
  | record (observation : EffectExecutionResult)
  | ignore (observation : EffectExecutionResult)

structure PerformCommand where
  effect : EffectCommand
  checkpointIdempotencyKey : String
  checkpointPayload : Json

/-- A call in progress, after its effect was prepared. -/
structure EffectCall where
  grant : JobLeaseGrant
  effectKey : String
  prepared : PreparedJobEffect
  checkpointIdempotencyKey : String
  checkpointPayload : Json
  stage : EffectStage

/-- What an executor was asked, and what a reconciliation reported: whether the effect
happened, or nothing. -/
inductive ExecutorReport where
  | executed
  | reconciled (happened : Option Bool)
  deriving DecidableEq, Repr

/-- A call that an executor received from a call of `perform_effect`. -/
structure ExecutorCall where
  jobId : UUID
  effectKey : String
  idempotencyKey : String
  report : ExecutorReport
  deriving DecidableEq

/-- The store, the calls in progress and what the executors were asked so far. -/
structure World where
  db : Database
  calls : List EffectCall := []
  log : List ExecutorCall := []

/-- The result of a settled effect is returned at once; a new effect is executed and an
old one reconciled. -/
def PreparedJobEffect.stage (prepared : PreparedJobEffect) : Option EffectStage :=
  if prepared.status ≠ .pending then none
  else if prepared.created then some .execute
  else some .reconcile

/-- The call that goes on after a preparation. -/
def PerformCommand.call (rt : Runtime) (c : PerformCommand) (grant : JobLeaseGrant)
    (prepared : PreparedJobEffect) (stage : EffectStage) : EffectCall where
  grant := grant
  effectKey := stripped rt c.effect.effectKey
  prepared := prepared
  checkpointIdempotencyKey := c.checkpointIdempotencyKey
  checkpointPayload := c.checkpointPayload
  stage := stage

/-- A call of `perform_effect` up to the commit of its preparation. -/
def World.perform (rt : Runtime) (w : World) (grant : JobLeaseGrant) (now : Time)
    (c : PerformCommand) : World :=
  match BackgroundJobService.prepareEffect rt w.db grant now c.effect with
  | .error _ => w
  | .ok (prepared, db) =>
    { w with db, calls := w.calls ++ (prepared.stage.map (c.call rt grant prepared)).toList }

/-- A call is over, returned or crashed. -/
def World.finish (w : World) (i : ℕ) : World := { w with calls := w.calls.eraseIdx i }

def World.moveTo (w : World) (i : ℕ) (call : EffectCall) (stage : EffectStage) : World :=
  { w with calls := w.calls.set i { call with stage } }

/-- A call goes on with what an executor observed; without an observation it raises. -/
def World.observe (w : World) (i : ℕ) (call : EffectCall)
    (observation : Option EffectExecutionResult) : World :=
  match observation with
  | some observation => w.moveTo i call (.record observation)
  | none => w.finish i

def EffectCall.entry (call : EffectCall) (report : ExecutorReport) : ExecutorCall where
  jobId := call.grant.jobId
  effectKey := call.effectKey
  idempotencyKey := call.prepared.idempotencyKey
  report := report

/-- What a call records. -/
def EffectCall.result (call : EffectCall) (observation : EffectExecutionResult)
    (checkpointId : UUID) : EffectResultCommand where
  effectId := call.prepared.effectId
  result := observation
  checkpoint :=
    { expectedVersion := call.grant.checkpointVersion
      idempotencyKey := call.checkpointIdempotencyKey, payload := call.checkpointPayload
      checkpointId }

/-- What a call that lost its lease stores as evidence. -/
def EffectCall.ignored (call : EffectCall) (observation : EffectExecutionResult) :
    IgnoredResultCommand where
  idempotencyKey := call.grant.jobId.str ++ ":ignored:" ++ call.prepared.effectId.str
  effectId := some call.prepared.effectId
  result := observation

def World.recordResult (rt : Runtime) (w : World) (i : ℕ) (call : EffectCall)
    (observation : EffectExecutionResult) (now : Time) (checkpointId : UUID) : World :=
  match BackgroundJobService.recordEffectResult rt w.db call.grant now
      (call.result observation checkpointId) with
  | .ok (_, db) => { w with db }.finish i
  | .error (.leaseLost _) => w.moveTo i call (.ignore observation)
  | .error _ => w.finish i

def World.recordIgnored (rt : Runtime) (service : BackgroundJobService) (w : World) (i : ℕ)
    (call : EffectCall) (observation : EffectExecutionResult) (now : Time) : World :=
  match BackgroundJobService.recordIgnoredResult rt service w.db call.grant now
      (call.ignored observation) with
  | .ok (_, db) => { w with db }.finish i
  | .error _ => w.finish i

/-- What the world outside decides about the next step of a call. -/
inductive CallInput where
  | executed (observation : Option EffectExecutionResult)
  | reconciled (observation : Option EffectExecutionResult)
  | recorded (now : Time) (checkpointId : UUID)
  | crashed

/-- The next step of a call in progress; an input for another stage is no step. -/
def World.resume (rt : Runtime) (service : BackgroundJobService) (w : World) (i : ℕ)
    (call : EffectCall) (input : CallInput) : World :=
  match call.stage, input with
  | .execute, .executed observation =>
    { w with log := w.log ++ [call.entry .executed] }.observe i call observation
  | .reconcile, .reconciled observation =>
    { w with
      log := w.log ++ [call.entry (.reconciled (observation.map EffectExecutionResult.succeeded))]
    }.observe i call observation
  | .record observation, .recorded now checkpointId =>
    w.recordResult rt i call observation now checkpointId
  | .ignore observation, .recorded now _ => w.recordIgnored rt service i call observation now
  | _, .crashed => w.finish i
  | _, _ => w

/-! ### Runs of any number of workers -/

inductive EffectAction where
  | job (c : JobCommand)
  | perform (grant : JobLeaseGrant) (now : Time) (c : PerformCommand)
  | resume (i : ℕ) (input : CallInput)

def World.act (rt : Runtime) (service : BackgroundJobService) (w : World) : EffectAction → World
  | .job c => { w with db := w.db.commit (c.run rt service w.db) }
  | .perform grant now c => w.perform rt grant now c
  | .resume i input =>
    match w.calls[i]? with
    | some call => w.resume rt service i call input
    | none => w

/-- Other services write what is not of the jobs. -/
structure Elsewhere (w w' : World) : Prop where
  same : SameWork w.db w'.db
  calls : w'.calls = w.calls
  log : w'.log = w.log

/-- The workers of the job service from the store without jobs. -/
def effectSystem (rt : Runtime) : TransitionSystem World where
  init w := (jobSystem rt).init w.db ∧ w.calls = [] ∧ w.log = []
  step w w' := (∃ service action, w' = w.act rt service action) ∨ Elsewhere w w'

/-- How often an executor was asked to execute an effect of a job. -/
def World.executions (w : World) (jobId : UUID) (effectKey : String) : ℕ :=
  w.log.countP fun e => e.report = .executed && (e.jobId, e.effectKey) = (jobId, effectKey)

/-- Actions of one service taken one after another. -/
def runWorld (rt : Runtime) (service : BackgroundJobService) (w : World)
    (actions : List EffectAction) : World :=
  actions.foldl (fun w action => w.act rt service action) w

theorem reachable_runWorld {rt : Runtime} {w : World} (service : BackgroundJobService)
    (actions : List EffectAction) (h : (effectSystem rt).Reachable w) :
    (effectSystem rt).Reachable (runWorld rt service w actions) := by
  induction actions generalizing w with
  | nil => exact h
  | cons action actions ih => exact ih (h.tail (.inl ⟨service, action, rfl⟩))

/-! ### What the steps of a run do -/

/-- The job and the key a call was started for. -/
def EffectAction.started (rt : Runtime) : EffectAction → Option (UUID × String)
  | .perform grant _ c => some (grant.jobId, stripped rt c.effect.effectKey)
  | _ => none

/-- An executor is asked before a result is recorded, and not after. -/
def EffectStage.isAsked : EffectStage → Bool
  | .execute | .reconcile => false
  | .record _ | .ignore _ => true

/-- What a step does to the calls and the log. -/
inductive WorldStep (rt : Runtime) (started : Option (UUID × String)) (w w' : World) : Prop
  | quiet (hdb : (jobSystem rt).step w.db w'.db) (hcalls : w'.calls = w.calls)
      (hlog : w'.log = w.log)
  | start (call : EffectCall) (now : Time) (c : EffectCommand)
      (hprepare : BackgroundJobService.prepareEffect rt w.db call.grant now c =
        .ok (call.prepared, w'.db))
      (hkey : call.effectKey = stripped rt c.effectKey)
      (hstage : call.prepared.stage = some call.stage)
      (hstarted : started = some (call.grant.jobId, call.effectKey))
      (hcalls : w'.calls = w.calls ++ [call]) (hlog : w'.log = w.log)
  | resume (i : ℕ) (call : EffectCall) (hget : w.calls[i]? = some call)
      (hdb : (jobSystem rt).step w.db w'.db)
      (hcalls : w'.calls = w.calls.eraseIdx i ∨
        ∃ stage : EffectStage, stage.isAsked = true ∧
          w'.calls = w.calls.set i { call with stage })
      (hlog : w'.log = w.log ∨
        (call.stage = .execute ∧ w'.log = w.log ++ [call.entry .executed]) ∨
        (call.stage = .reconcile ∧
          ∃ happened, w'.log = w.log ++ [call.entry (.reconciled happened)]))

theorem jobSystem_stutter (rt : Runtime) (db : Database) : (jobSystem rt).step db db :=
  .inr ⟨rfl, rfl, rfl, rfl, rfl⟩

section Steps
variable {rt : Runtime} {service : BackgroundJobService} {started : Option (UUID × String)}
  {w w' : World} {i : ℕ} {call : EffectCall}

/-- A grant command that went through is a step of the job service. -/
theorem jobSystem_granted {grant : JobLeaseGrant} {now : Time} {c : GrantCommand}
    {db db' : Database} (h : c.run rt service db grant now = .ok db') :
    (jobSystem rt).step db db' := by
  refine .inl ⟨service, .granted grant now c, ?_⟩
  rw [JobCommand.run, h]
  rfl

/-- An intent prepared is a step of the job service, whichever service prepares it. -/
theorem jobSystem_prepared {grant : JobLeaseGrant} {now : Time} {c : EffectCommand}
    {prepared : PreparedJobEffect} {db db' : Database}
    (h : BackgroundJobService.prepareEffect rt db grant now c = .ok (prepared, db')) :
    (jobSystem rt).step db db' := by
  have hrun : GrantCommand.run rt ⟨"", closedGates⟩ db grant now (.prepareEffect c) = .ok db' := by
    rw [GrantCommand.run, h]
    rfl
  exact jobSystem_granted hrun

theorem World.observe_step {log : List ExecutorCall} (hget : w.calls[i]? = some call)
    (observation : Option EffectExecutionResult)
    (hlog : (call.stage = .execute ∧ log = w.log ++ [call.entry .executed]) ∨
        (call.stage = .reconcile ∧
          ∃ happened, log = w.log ++ [call.entry (.reconciled happened)])) :
    WorldStep rt started w ({ w with log }.observe i call observation) := by
  cases observation with
  | none => exact .resume i call hget (jobSystem_stutter rt w.db) (.inl rfl) (.inr hlog)
  | some observation =>
    exact .resume i call hget (jobSystem_stutter rt w.db)
      (.inr ⟨.record observation, rfl, rfl⟩) (.inr hlog)

theorem World.recordResult_step (service : BackgroundJobService) (hget : w.calls[i]? = some call)
    (observation : EffectExecutionResult) (now : Time) (checkpointId : UUID) :
    WorldStep rt started w (w.recordResult rt i call observation now checkpointId) := by
  unfold World.recordResult
  split
  · rename_i result db hrecord
    have hrun : GrantCommand.run rt service w.db call.grant now
        (.recordEffectResult (call.result observation checkpointId)) = .ok db := by
      rw [GrantCommand.run, hrecord]
      rfl
    exact .resume i call hget (jobSystem_granted hrun) (.inl rfl) (.inl rfl)
  · exact .resume i call hget (jobSystem_stutter rt w.db)
      (.inr ⟨.ignore observation, rfl, rfl⟩) (.inl rfl)
  · exact .resume i call hget (jobSystem_stutter rt w.db) (.inl rfl) (.inl rfl)

theorem World.recordIgnored_step (hget : w.calls[i]? = some call)
    (observation : EffectExecutionResult) (now : Time) :
    WorldStep rt started w (w.recordIgnored rt service i call observation now) := by
  unfold World.recordIgnored
  split
  · rename_i result db hrecord
    have hrun : GrantCommand.run rt service w.db call.grant now
        (.recordIgnoredResult (call.ignored observation)) = .ok db := by
      rw [GrantCommand.run, hrecord]
      rfl
    exact .resume i call hget (jobSystem_granted hrun) (.inl rfl) (.inl rfl)
  · exact .resume i call hget (jobSystem_stutter rt w.db) (.inl rfl) (.inl rfl)

theorem World.resume_step (hget : w.calls[i]? = some call) (input : CallInput) :
    WorldStep rt started w (w.resume rt service i call input) := by
  have hquiet : WorldStep rt started w w := .quiet (jobSystem_stutter rt w.db) rfl rfl
  have hfinish : WorldStep rt started w (w.finish i) :=
    .resume i call hget (jobSystem_stutter rt w.db) (.inl rfl) (.inl rfl)
  cases input with
  | executed observation =>
    cases hstage : call.stage with
    | execute =>
      simp only [World.resume, hstage]
      exact World.observe_step hget observation (.inl ⟨hstage, rfl⟩)
    | _ => simpa only [World.resume, hstage] using hquiet
  | reconciled observation =>
    cases hstage : call.stage with
    | reconcile =>
      simp only [World.resume, hstage]
      exact World.observe_step hget observation (.inr ⟨hstage, _, rfl⟩)
    | _ => simpa only [World.resume, hstage] using hquiet
  | recorded now checkpointId =>
    cases hstage : call.stage with
    | record observation =>
      simp only [World.resume, hstage]
      exact World.recordResult_step service hget observation now checkpointId
    | ignore observation =>
      simp only [World.resume, hstage]
      exact World.recordIgnored_step hget observation now
    | _ => simpa only [World.resume, hstage] using hquiet
  | crashed =>
    cases hstage : call.stage <;> simpa only [World.resume, hstage] using hfinish

theorem World.perform_step {grant : JobLeaseGrant} {now : Time} {c : PerformCommand} :
    WorldStep rt (some (grant.jobId, stripped rt c.effect.effectKey)) w
      (w.perform rt grant now c) := by
  unfold World.perform
  split
  · exact .quiet (jobSystem_stutter rt w.db) rfl rfl
  · rename_i prepared db hprepare
    cases hstage : prepared.stage with
    | none => exact .quiet (jobSystem_prepared hprepare) (by simp) rfl
    | some stage =>
      exact .start (c.call rt grant prepared stage) now c.effect hprepare rfl hstage rfl rfl rfl

theorem World.act_step (action : EffectAction) :
    WorldStep rt (action.started rt) w (w.act rt service action) := by
  cases action with
  | job c => exact .quiet (.inl ⟨service, c, rfl⟩) rfl rfl
  | perform grant now c => exact World.perform_step
  | resume i input =>
    simp only [World.act]
    split
    · rename_i call hget
      exact World.resume_step hget input
    · exact .quiet (jobSystem_stutter rt w.db) rfl rfl

theorem effectSystem_step (h : (effectSystem rt).step w w') :
    ∃ started, WorldStep rt started w w' := by
  rcases h with ⟨service, action, rfl⟩ | h
  · exact ⟨_, World.act_step action⟩
  · exact ⟨none, .quiet (.inr h.same) h.calls h.log⟩

/-- The store of a run is one the job service reaches. -/
theorem WorldStep.jobSystem_step (h : WorldStep rt started w w') :
    (jobSystem rt).step w.db w'.db := by
  cases h with
  | quiet hdb _ _ => exact hdb
  | start call now c hprepare _ _ _ _ _ => exact jobSystem_prepared hprepare
  | resume _ _ _ hdb _ _ => exact hdb

theorem jobSystem_of_effectSystem (h : (effectSystem rt).Reachable w) :
    (jobSystem rt).Reachable w.db := by
  refine h.induction (P := fun w => (jobSystem rt).Reachable w.db) ?_ ?_
  · intro w hinit
    exact .of_init hinit.1
  · intro w w' _ hw hstep
    obtain ⟨started, hstep⟩ := effectSystem_step hstep
    exact hw.tail hstep.jobSystem_step

end Steps

/-! ### Effects that are known -/

/-- The job of an effect is in the store, and a row has its key, under which its executor
is called. -/
structure KnownEffect (db : Database) (jobId : UUID) (effectKey idempotencyKey : String) :
    Prop where
  job : db.backgroundJobs.get? jobId ≠ none
  row : ∃ effect ∈ db.backgroundJobEffects, effect.idempotencyKey = providerKey jobId effectKey
  key : idempotencyKey = providerKey jobId effectKey

/-- Every call in progress and every call of an executor is about an effect with some
property: of its job, its key and the key its executor sees. -/
structure About (property : UUID → String → String → Prop) (w : World) : Prop where
  calls : ∀ call ∈ w.calls,
    property call.grant.jobId call.effectKey call.prepared.idempotencyKey
  log : ∀ e ∈ w.log, property e.jobId e.effectKey e.idempotencyKey

/-- What is true of the effects of a world stays true if it is of the ones prepared. -/
theorem About.step {rt : Runtime} {started : Option (UUID × String)} {w w' : World}
    {property : UUID → String → String → Prop} (habout : About property w)
    (h : WorldStep rt started w w')
    (hprepared : ∀ (grant : JobLeaseGrant) now (c : EffectCommand) prepared,
      BackgroundJobService.prepareEffect rt w.db grant now c = .ok (prepared, w'.db) →
      property grant.jobId (stripped rt c.effectKey) prepared.idempotencyKey) :
    About property w' := by
  cases h with
  | quiet _ hcalls hlog => exact ⟨hcalls ▸ habout.calls, hlog ▸ habout.log⟩
  | start call now c hprepare hkey _ _ hcalls hlog =>
    refine ⟨?_, hlog ▸ habout.log⟩
    intro call' hcall'
    rcases List.mem_append.mp (hcalls ▸ hcall') with hmem | hmem
    · exact habout.calls call' hmem
    · rw [List.mem_singleton.mp hmem, hkey]
      exact hprepared call.grant now c call.prepared hprepare
  | resume i call hget _ hcalls hlog =>
    have hcall := habout.calls call (List.mem_of_getElem? hget)
    have hentry : ∀ report, w'.log = w.log ++ [call.entry report] → ∀ e ∈ w'.log,
        property e.jobId e.effectKey e.idempotencyKey := by
      intro report hlog e he
      rcases List.mem_append.mp (hlog ▸ he) with hmem | hmem
      · exact habout.log e hmem
      · rw [List.mem_singleton.mp hmem]
        exact hcall
    refine ⟨?_, ?_⟩
    · intro call' hcall'
      rcases hcalls with hcalls | ⟨stage, -, hcalls⟩ <;> rw [hcalls] at hcall'
      · exact habout.calls call' (List.mem_of_mem_eraseIdx hcall')
      · rcases List.mem_or_eq_of_mem_set hcall' with hmem | rfl
        · exact habout.calls call' hmem
        · exact hcall
    · rcases hlog with hlog | ⟨-, hlog⟩ | ⟨-, happened, hlog⟩
      · exact hlog ▸ habout.log
      · exact hentry _ hlog
      · exact hentry _ hlog

section Known
variable {rt : Runtime} {w : World}

theorem KnownEffect.preserved {db db' : Database} {jobId : UUID}
    {effectKey idempotencyKey : String} (h : KnownEffect db jobId effectKey idempotencyKey)
    (hdb : (jobSystem rt).Reachable db) (hstep : (jobSystem rt).step db db') :
    KnownEffect db' jobId effectKey idempotencyKey := by
  obtain ⟨htouches, hchange⟩ := jobSystem_step (idle_of_reachable hdb) hstep
  exact ⟨htouches.job_ne_none h.job, hchange.row_of_key h.row, h.key⟩

/-- A prepared effect is known. -/
theorem knownEffect_of_prepared {db db' : Database} {grant : JobLeaseGrant} {now : Time}
    {c : EffectCommand} {prepared : PreparedJobEffect}
    (h : BackgroundJobService.prepareEffect rt db grant now c = .ok (prepared, db')) :
    KnownEffect db' grant.jobId (stripped rt c.effectKey) prepared.idempotencyKey := by
  obtain ⟨r, job, lease, hr, hheld, hcases⟩ := BackgroundJobService.prepareEffect_ok h
  have hid : job.id = grant.jobId := Table.key_of_get? hheld.job_eq
  have hkey : r.effectKey = stripped rt c.effectKey := EffectCommand.effectKey_of_check hr
  rw [← hid, ← hkey]
  rcases hcases with ⟨rfl, -, existing, hmem, hexisting, hsame⟩ |
    ⟨effects, -, -, hinsert, rfl, rfl⟩
  · refine ⟨?_, ⟨existing, hmem, hexisting⟩, hsame.trans hexisting⟩
    simp [hid, hheld.job_eq]
  · refine ⟨?_, ⟨_, (Table.mem_insert? hinsert).mpr (.inr rfl), rfl⟩, rfl⟩
    simp [hid, hheld.job_eq]

theorem known_of_reachable (h : (effectSystem rt).Reachable w) :
    About (KnownEffect w.db) w := by
  refine h.induction (P := fun w => About (KnownEffect w.db) w) ?_ ?_
  · rintro w ⟨-, hcalls, hlog⟩
    constructor <;> simp [hcalls, hlog]
  · intro w w' hw hknown hstep
    obtain ⟨started, hstep⟩ := effectSystem_step hstep
    have hdb := jobSystem_of_effectSystem hw
    have hkept : About (KnownEffect w'.db) w :=
      ⟨fun call hcall => (hknown.calls call hcall).preserved hdb hstep.jobSystem_step,
        fun e he => (hknown.log e he).preserved hdb hstep.jobSystem_step⟩
    exact hkept.step hstep fun grant now c prepared h => knownEffect_of_prepared h

end Known

/-! ### Executions as work done at most once -/

/-- A call that will ask its executor to execute holds a ticket. -/
def EffectCall.ticket (call : EffectCall) : Option (UUID × String) :=
  match call.stage with
  | .execute => some (call.grant.jobId, call.effectKey)
  | _ => none

/-- An execution; and, where they count, a report that an effect did not happen. -/
def ExecutorCall.event (resets : Bool) (e : ExecutorCall) :
    Option (AtMostOnce.Event (UUID × String)) :=
  match e.report with
  | .executed => some (.ran (e.jobId, e.effectKey))
  | .reconciled (some false) => if resets then some (.reset (e.jobId, e.effectKey)) else none
  | .reconciled _ => none

/-- The effects of some jobs taken together. -/
def regroup (group : UUID → UUID) (k : UUID × String) : UUID × String := (group k.1, k.2)

/-- The work of a world: effects under the group of their job. -/
def workView (group : UUID → UUID) (resets : Bool) (w : World) :
    AtMostOnce.State (UUID × String) where
  tickets := (w.calls.filterMap EffectCall.ticket).map (regroup group)
  events := (w.log.filterMap (ExecutorCall.event resets)).map
    (AtMostOnce.Event.map (regroup group))

section View
variable {rt : Runtime} {started : Option (UUID × String)} {w w' : World}
  {group : UUID → UUID} {resets : Bool}

theorem EffectCall.ticket_moveTo (call : EffectCall) {stage : EffectStage}
    (h : stage.isAsked = true) : ({ call with stage } : EffectCall).ticket = none := by
  cases stage with
  | execute => cases h
  | reconcile => cases h
  | record _ => rfl
  | ignore _ => rfl

/-- A reconciliation is no execution. -/
theorem ExecutorCall.event_reconciled {e : ExecutorCall} {happened : Option Bool}
    (h : e.report = .reconciled happened) (resets : Bool) :
    e.event resets = none ∨ ∃ k, resets = true ∧ e.event resets = some (.reset k) := by
  unfold ExecutorCall.event
  rw [h]
  cases resets with
  | false => rcases happened with _ | _ | _ <;> exact .inl rfl
  | true =>
    rcases happened with _ | _ | _
    · exact .inl rfl
    · exact .inr ⟨_, rfl, rfl⟩
    · exact .inl rfl

/-- The tickets left when a call goes on or ends. -/
theorem tickets_resume {calls calls' : List EffectCall} {i : ℕ} {call : EffectCall}
    (h : calls' = calls.eraseIdx i ∨
      ∃ stage : EffectStage, stage.isAsked = true ∧ calls' = calls.set i { call with stage }) :
    calls'.filterMap EffectCall.ticket = (calls.eraseIdx i).filterMap EffectCall.ticket := by
  rcases h with rfl | ⟨stage, hasked, rfl⟩
  · rfl
  · exact AtMostOnce.filterMap_set_none (call.ticket_moveTo hasked) calls i

/-- An effect is executed only after its row was inserted. -/
theorem effectOfKey_of_execute {db db' : Database} {grant : JobLeaseGrant} {now : Time}
    {c : EffectCommand} {prepared : PreparedJobEffect}
    (h : BackgroundJobService.prepareEffect rt db grant now c = .ok (prepared, db'))
    (hstage : prepared.stage = some .execute) :
    effectOfKey db (providerKey grant.jobId (stripped rt c.effectKey)) = none := by
  obtain ⟨r, job, lease, hr, hheld, hcases⟩ := BackgroundJobService.prepareEffect_ok h
  rcases hcases with ⟨-, hcreated, -⟩ | ⟨effects, -, hnone, -⟩
  · simp [PreparedJobEffect.stage, hcreated] at hstage
  · have hid : job.id = grant.jobId := Table.key_of_get? hheld.job_eq
    rwa [hid, EffectCommand.effectKey_of_check hr] at hnone

/-- The steps of a world are steps of the work, if a call starts an execution only of an
effect that is unused. -/
theorem WorldStep.refines (h : WorldStep rt started w w')
    (hunused : ∀ jobId effectKey, started = some (jobId, effectKey) →
      effectOfKey w.db (providerKey jobId effectKey) = none →
      (workView group resets w).uses (group jobId, effectKey) = 0) :
    Relation.ReflTransGen AtMostOnce.Step (workView group resets w) (workView group resets w') := by
  cases h with
  | quiet _ hcalls hlog =>
    simp only [workView, hcalls, hlog]
    exact .refl
  | start call now c hprepare hkey hstage hstarted hcalls hlog =>
    cases hcall : call.stage with
    | execute =>
      have hticket : call.ticket = some (call.grant.jobId, call.effectKey) := by
        rw [EffectCall.ticket, hcall]
      have hnone := effectOfKey_of_execute hprepare (hcall ▸ hstage)
      have hfree := hunused _ _ hstarted (hkey ▸ hnone)
      have heq : workView group resets w' = { workView group resets w with
          tickets := (workView group resets w).tickets ++
            [(group call.grant.jobId, call.effectKey)] } := by
        simp [workView, hcalls, hlog, hticket, regroup]
      rw [heq]
      exact .single (.issue _ hfree)
    | _ =>
      have hticket : call.ticket = none := by rw [EffectCall.ticket, hcall]
      simp only [workView, hcalls, hlog, List.filterMap_append, List.filterMap_cons, hticket,
        List.filterMap_nil, List.append_nil]
      exact .refl
  | resume i call hget _ hcalls hlog =>
    have htickets : (workView group resets w').tickets =
        ((w.calls.eraseIdx i).filterMap EffectCall.ticket).map (regroup group) := by
      rw [workView, tickets_resume hcalls]
    -- Without an event the call's ticket, if it holds one, is dropped.
    have hdrop : AtMostOnce.Step (workView group resets w)
        ⟨(workView group resets w').tickets, (workView group resets w).events⟩ := by
      refine .drop _ ?_
      rw [htickets]
      exact ((List.eraseIdx_sublist w.calls i).filterMap _).map _
    have hevents : ∀ entry, w'.log = w.log ++ [entry] → (workView group resets w').events =
        (workView group resets w).events ++
          ((entry.event resets).map (AtMostOnce.Event.map (regroup group))).toList := by
      intro entry hlog
      cases hentry : entry.event resets <;> simp [workView, hlog, hentry]
    rcases hlog with hlog | ⟨hstage, hlog⟩ | ⟨hstage, happened, hlog⟩
    · have hsame : (workView group resets w').events = (workView group resets w).events := by
        simp [workView, hlog]
      rw [← hsame] at hdrop
      exact .single hdrop
    · have hticket : call.ticket = some (call.grant.jobId, call.effectKey) := by
        rw [EffectCall.ticket, hstage]
      have hperm := (AtMostOnce.perm_filterMap_eraseIdx hget hticket).map (regroup group)
      rw [List.map_cons, ← htickets] at hperm
      have hrun := AtMostOnce.Step.run (s := workView group resets w) _ _ hperm
      have hran := hevents _ hlog
      simp only [ExecutorCall.event, EffectCall.entry, Option.map_some, Option.toList_some] at hran
      rw [AtMostOnce.Event.map] at hran
      rw [← hran] at hrun
      exact .single hrun
    · have hreport := hevents _ hlog
      rcases ExecutorCall.event_reconciled (e := call.entry (.reconciled happened)) rfl resets
        with hnone | ⟨k, -, hreset⟩
      · rw [hnone, Option.map_none, Option.toList_none, List.append_nil] at hreport
        rw [← hreport] at hdrop
        exact .single hdrop
      · rw [hreset] at hreport
        have hreset := AtMostOnce.Step.reset (regroup group k)
          (s := ⟨(workView group resets w').tickets, (workView group resets w).events⟩)
        rw [Option.map_some, Option.toList_some, AtMostOnce.Event.map] at hreport
        rw [← hreport] at hreset
        exact .tail (.single hdrop) hreset

/-- Work of which neither a call nor the log speaks is unused. -/
theorem uses_eq_zero {jobId : UUID} {effectKey : String}
    (hcalls : ∀ call ∈ w.calls, (group call.grant.jobId, call.effectKey) ≠ (jobId, effectKey))
    (hlog : ∀ e ∈ w.log, (group e.jobId, e.effectKey) ≠ (jobId, effectKey)) :
    (workView group resets w).uses (jobId, effectKey) = 0 := by
  have htickets : (jobId, effectKey) ∉ (workView group resets w).tickets := by
    simp only [workView, List.mem_map, List.mem_filterMap, not_exists, not_and]
    rintro k ⟨call, hcall, hticket⟩
    unfold EffectCall.ticket at hticket
    split at hticket
    · obtain rfl := Option.some.inj hticket
      exact hcalls call hcall
    · cases hticket
  have hevents : .ran (jobId, effectKey) ∉ (workView group resets w).events := by
    simp only [workView, List.mem_map, List.mem_filterMap, not_exists, not_and]
    rintro event ⟨e, he, hevent⟩ hran
    unfold ExecutorCall.event at hevent
    split at hevent
    · obtain rfl := Option.some.inj hevent
      rw [AtMostOnce.Event.map, AtMostOnce.Event.ran.injEq] at hran
      exact hlog e he hran
    · split at hevent
      · obtain rfl := Option.some.inj hevent
        cases hran
      · cases hevent
    · cases hevent
  exact AtMostOnce.uses_eq_zero htickets hevents

/-- The workers refine work done at most once, each effect of each job on its own. -/
theorem effectSystem_simulates (rt : Runtime) :
    (effectSystem rt).Simulates AtMostOnce.machine fun w s => s = workView id false w where
  init w h := ⟨workView id false w, by simp [AtMostOnce.machine, workView, h.2.1, h.2.2], rfl⟩
  step w w' s hw _ hs hstep := by
    subst hs
    obtain ⟨started, hstep⟩ := effectSystem_step hstep
    refine ⟨workView id false w', hstep.refines ?_, rfl⟩
    intro jobId effectKey _ hnone
    have hknown := known_of_reachable hw
    have hrow : ¬ ∃ effect ∈ w.db.backgroundJobEffects,
        effect.idempotencyKey = providerKey jobId effectKey :=
      fun hrow => effectOfKey_ne_none.mpr hrow hnone
    refine uses_eq_zero ?_ ?_
    · rintro call hcall heq
      obtain ⟨rfl, rfl⟩ := Prod.mk.inj heq
      exact hrow (hknown.calls call hcall).row
    · rintro e he heq
      obtain ⟨rfl, rfl⟩ := Prod.mk.inj heq
      exact hrow (hknown.log e he).row

/-- The executions among some entries of the log, as events. -/
theorem count_ran_events (log : List ExecutorCall) (k : UUID × String) :
    ((log.filterMap (ExecutorCall.event resets)).map (AtMostOnce.Event.map (regroup group))).count
        (.ran k) =
      log.countP fun e => e.report = .executed && regroup group (e.jobId, e.effectKey) = k := by
  induction log with
  | nil => rfl
  | cons e log ih =>
    rw [List.countP_cons, List.filterMap_cons, ← ih]
    cases hreport : e.report with
    | executed =>
      simp [ExecutorCall.event, hreport, AtMostOnce.Event.map, List.count_cons]
    | reconciled happened =>
      rcases ExecutorCall.event_reconciled hreport resets with hnone | ⟨k', -, hreset⟩
      · simp [hnone]
      · simp [hreset, AtMostOnce.Event.map]

/-- Without resets the events are executions. -/
theorem reset_not_mem (k : UUID × String) : .reset k ∉ (workView group false w).events := by
  simp only [workView, List.mem_map, List.mem_filterMap, not_exists, not_and]
  rintro event ⟨e, -, hevent⟩ hreset
  cases hreport : e.report with
  | executed =>
    rw [ExecutorCall.event, hreport] at hevent
    obtain rfl := Option.some.inj hevent
    cases hreset
  | reconciled happened =>
    rcases ExecutorCall.event_reconciled hreport false with hnone | ⟨_, hfalse, -⟩
    · rw [hnone] at hevent
      cases hevent
    · cases hfalse

end View

/-! ### Effects over whole runs -/

theorem effects_of_run {rt : Runtime} {w : World} (h : (effectSystem rt).Reachable w) :
    (∀ jobId effectKey, w.executions jobId effectKey ≤ 1) ∧
    (∀ a ∈ w.db.backgroundJobEffects, ∀ b ∈ w.db.backgroundJobEffects, a.jobId = b.jobId →
      a.status = .pending → b.status = .pending → a = b) ∧
    (∀ grant now c db', BackgroundJobService.complete rt w.db grant now c = .ok db' →
      ∀ effect ∈ w.db.backgroundJobEffects, effect.jobId = grant.jobId →
        effect.status ≠ .pending) ∧
    (∀ service grant now c result,
      BackgroundJobService.transitionTask rt service w.db grant now c = .ok result →
      ∀ effect ∈ w.db.backgroundJobEffects, effect.jobId = grant.jobId →
        effect.status ≠ .pending) ∧
    (∀ grant now c prepared db',
      BackgroundJobService.prepareEffect rt w.db grant now c = .ok (prepared, db') →
      ∀ effect ∈ w.db.backgroundJobEffects,
        effect.idempotencyKey = providerKey grant.jobId (stripped rt c.effectKey) →
        prepared.stage ≠ some .execute) := by
  have hsettled : ∀ {jobId}, pendingEffects w.db jobId = [] →
      ∀ effect ∈ w.db.backgroundJobEffects, effect.jobId = jobId → effect.status ≠ .pending := by
    intro jobId hnone effect heffect hjob hpending
    have hmem := mem_pendingEffects.mpr ⟨heffect, hjob, hpending⟩
    rw [hnone] at hmem
    cases hmem
  refine ⟨?_, onePending_of_reachable (jobSystem_of_effectSystem h), ?_, ?_, ?_⟩
  · intro jobId effectKey
    obtain ⟨s, hs, rfl⟩ := (effectSystem_simulates rt).reachable h
    have hcount := AtMostOnce.count_ran_le_one hs (reset_not_mem (jobId, effectKey))
    rw [workView, count_ran_events] at hcount
    exact hcount
  · intro grant now c db' hcomplete
    exact hsettled (BackgroundJobService.complete_ok hcomplete).2.1
  · intro service grant now c result htransition
    exact hsettled (BackgroundJobService.transitionTask_ok htransition).2.1
  · intro grant now c prepared db' hprepare effect heffect hkey hstage
    exact effectOfKey_ne_none.mpr ⟨effect, heffect, hkey⟩ (effectOfKey_of_execute hprepare hstage)

/-! ### A result lost -/

namespace LostResultExample

def task : Task where
  id := .ofNat 1
  repository := "owner/app"
  state := .implementing
  ownerId := "owner"
  rootCorrelationId := .ofNat 7

def service : BackgroundJobService := ⟨"cp", closedGates⟩

def jobId : UUID := .ofNat 2

def schedule : ScheduleCommand where
  taskId := task.id
  jobType := "work"
  idempotencyKey := "k"
  inputPayload := .obj []
  retryPolicy := .standard
  now := seconds 1
  jobId := jobId

/-- A claim at a point in time. -/
def claim (worker : String) (at_ : Time) (leaseId : UUID) : ClaimCommand where
  workerId := worker
  leaseDuration := seconds 10
  clock := fun _ => at_
  leaseId := leaseId

/-- The grant of a claim. -/
def grant (worker : String) (at_ : Time) (leaseId : UUID) (attempt : ℕ) : JobLeaseGrant where
  jobId := jobId
  taskId := task.id
  leaseId := leaseId
  workerId := worker
  attempt := attempt
  fencingToken := attempt
  expiresAt := at_ + seconds 10
  jobType := "work"
  inputPayload := .obj []
  checkpoint := none
  checkpointVersion := 0
  recovered := decide (attempt ≠ 1)

def push (effectId : UUID) : PerformCommand where
  effect := ⟨"push", "git", .obj [], effectId⟩
  checkpointIdempotencyKey := "c"
  checkpointPayload := .obj []

/-- The first worker executes the effect and crashes; the second one, when the lease of the
first has run out, reconciles it. -/
def actions : List EffectAction :=
  [.job (.schedule schedule), .job (.claimNext (claim "a" (seconds 2) (.ofNat 3))),
    .perform (grant "a" (seconds 2) (.ofNat 3) 1) (seconds 3) (push (.ofNat 5)),
    .resume 0 (.executed (some ⟨true, .obj []⟩)), .resume 0 .crashed,
    .job (.claimNext (claim "b" (seconds 12) (.ofNat 4))),
    .perform (grant "b" (seconds 12) (.ofNat 4) 2) (seconds 13) (push (.ofNat 6)),
    .resume 0 (.reconciled (some ⟨true, .obj []⟩)), .resume 0 (.recorded (seconds 14) (.ofNat 8))]

def start : World := { db := { tasks := ⟨[task], by simp⟩ } }

def after : World := runWorld .plain service start actions

theorem reachable : (effectSystem .plain).Reachable after :=
  reachable_runWorld service actions (.of_init ⟨⟨rfl, rfl, rfl⟩, rfl, rfl⟩)

set_option maxRecDepth 4000 in
theorem log : after.log.map ExecutorCall.report = [.executed, .reconciled (some true)] := by
  decide +kernel

set_option maxRecDepth 4000 in
theorem executions : after.executions jobId "push" = 1 := by
  decide +kernel

end LostResultExample

theorem effects_of_run_lostResult :
    LostResultExample.after.log.map ExecutorCall.report = [.executed, .reconciled (some true)] ∧
    LostResultExample.after.executions LostResultExample.jobId "push" = 1 ∧
    ∀ jobId effectKey, LostResultExample.after.executions jobId effectKey ≤ 1 :=
  ⟨LostResultExample.log, LostResultExample.executions,
    (effects_of_run LostResultExample.reachable).1⟩

end ControlPlane
