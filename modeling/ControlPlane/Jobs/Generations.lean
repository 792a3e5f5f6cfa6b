import ControlPlane.Jobs.Effects

/-!
# Effects across generations of a job

A job that exhausted its attempts on a dependency and is approved for a retry is resumed
as a new job. Its effects have new keys, since the provider's key names the job: the
service does not see that an earlier generation executed the same effect. Here a job and
the jobs that resume it are one chain, and an effect of a chain is open from its execution
until a reconciliation reports that it did not happen.

## Main results

* `chainExecutions_le_one`: in runs in which no job starts an effect that is open in its
  chain, an effect of a chain is executed at most once until a reconciliation reports that
  it did not happen.
* `executed_again`: a run in which the resumed job executes an open effect again.
-/
namespace ControlPlane

/-! ### Chains of jobs -/

/-- The first job of a chain, with one more job. -/
def addGeneration (chain : UUID → UUID) (lineage : UUID × Option UUID) : UUID → UUID :=
  Function.update chain lineage.1 ((lineage.2.map chain).getD lineage.1)

/-- The first job of the chain of a job. -/
def chainOf (db : Database) : UUID → UUID :=
  (db.backgroundJobs.rows.map BackgroundJob.lineage).foldl addGeneration id

section Chains
variable {db db' : Database}

/-- A new job belongs to the chain of the job it resumes, or starts one. -/
theorem chainOf_insert {job : BackgroundJob}
    (h : db.backgroundJobs.insert? job = some db'.backgroundJobs) :
    chainOf db' =
      Function.update (chainOf db) job.id
        ((job.parentCorrelationId.map (chainOf db)).getD job.id) := by
  rw [chainOf, (Table.insert?_eq_some.mp h).2, List.map_append, List.foldl_append]
  rfl

theorem chainOf_set {job job' : BackgroundJob}
    (hget : db.backgroundJobs.get? job.id = some job) (hlineage : job'.lineage = job.lineage)
    (hjobs : db'.backgroundJobs = db.backgroundJobs.set job') : chainOf db' = chainOf db := by
  have hrows : db'.backgroundJobs.rows.map BackgroundJob.lineage =
      db.backgroundJobs.rows.map BackgroundJob.lineage := by
    rw [hjobs, Table.map_rows_set BackgroundJob.lineage id, List.map_id]
    · intro b hb hkey
      have hbid : key b = job.id := hkey.trans (id_of_lineage hlineage)
      obtain rfl : b = job := Option.some.inj ((Table.get?_key hb).symm.trans (hbid ▸ hget))
      exact hlineage
    · exact fun _ _ _ => rfl
  rw [chainOf, chainOf, hrows]

/-- A job stays in its chain. -/
theorem Touch.chainOf_eq (h : Touch db db') {id : UUID}
    (hid : db.backgroundJobs.get? id ≠ none) : chainOf db' id = chainOf db id := by
  cases h with
  | frame hjobs _ => rw [chainOf, hjobs, chainOf]
  | insertJob job _ _ hjobs _ =>
    have hne : id ≠ job.id := by
      rintro rfl
      exact hid (Table.insert?_eq_some.mp hjobs).1
    rw [chainOf_insert hjobs, Function.update_of_ne hne]
  | rewriteJob job job' hget hlineage _ _ hjobs _ => rw [chainOf_set hget hlineage hjobs]
  | rewriteLease _ _ _ _ hjobs _ _ => rw [chainOf, hjobs, chainOf]
  | release job job' _ _ hget hlineage _ _ _ _ hjobs _ _ => rw [chainOf_set hget hlineage hjobs]
  | issue job job' _ hget hlineage _ _ _ _ _ hjobs _ => rw [chainOf_set hget hlineage hjobs]

theorem Touches.chainOf_eq (h : Touches db db') {id : UUID}
    (hid : db.backgroundJobs.get? id ≠ none) : chainOf db' id = chainOf db id := by
  induction h with
  | refl => rfl
  | tail hrun h ih => rw [h.chainOf_eq (Touches.job_ne_none hrun hid), ih]

end Chains

/-! ### Open effects -/

/-- A call is about an effect of a chain. -/
def ExecutorCall.isOf (db : Database) (chain : UUID) (effectKey : String) (e : ExecutorCall) :
    Bool :=
  (chainOf db e.jobId, e.effectKey) = (chain, effectKey)

/-- What executors were asked since a reconciliation last reported that an effect of a
chain did not happen. -/
def World.sinceReport (w : World) (chain : UUID) (effectKey : String) : List ExecutorCall :=
  History.since (fun e => e.report = .reconciled (some false) && e.isOf w.db chain effectKey) w.log

/-- How often an executor was asked since then to execute the effect. -/
def World.chainExecutions (w : World) (chain : UUID) (effectKey : String) : ℕ :=
  (w.sinceReport chain effectKey).countP fun e =>
    e.report = .executed && e.isOf w.db chain effectKey

/-- An effect of a chain that was executed, and not reported since as one that did not
happen, or that a call is about to execute. -/
def World.Open (w : World) (chain : UUID) (effectKey : String) : Prop :=
  w.chainExecutions chain effectKey ≠ 0 ∨
    ∃ call ∈ w.calls, call.ticket = some (call.grant.jobId, call.effectKey) ∧
      (chainOf w.db call.grant.jobId, call.effectKey) = (chain, effectKey)

/-- An action that starts an effect for which its job has no row only if the effect is not
open in the chain of the job. -/
def EffectAction.Cautious (rt : Runtime) (w : World) (action : EffectAction) : Prop :=
  ∀ jobId effectKey, action.started rt = some (jobId, effectKey) →
    effectOfKey w.db (providerKey jobId effectKey) = none →
    ¬ w.Open (chainOf w.db jobId) effectKey

/-- The runs of workers all of whose actions are cautious. -/
def cautiousSystem (rt : Runtime) : TransitionSystem World where
  init := (effectSystem rt).init
  step w w' :=
    (∃ service action, action.Cautious rt w ∧ w' = w.act rt service action) ∨ Elsewhere w w'

section Runs
variable {rt : Runtime} {w w' : World} {started : Option (UUID × String)}

theorem effectSystem_of_cautious (h : (cautiousSystem rt).Reachable w) :
    (effectSystem rt).Reachable w := by
  refine h.induction (P := (effectSystem rt).Reachable) ?_ ?_
  · intro w hinit
    exact .of_init hinit
  · rintro w w' _ hw (⟨service, action, -, rfl⟩ | helsewhere)
    · exact hw.tail (.inl ⟨service, action, rfl⟩)
    · exact hw.tail (.inr helsewhere)

theorem cautious_of_not_started {action : EffectAction} (h : action.started rt = none) :
    action.Cautious rt w := by
  intro jobId effectKey hstarted
  rw [h] at hstarted
  cases hstarted

/-- An effect for which no job of its chain has a row is not open. -/
theorem not_open_of_fresh (hw : (effectSystem rt).Reachable w) {chain : UUID} {effectKey : String}
    (hfresh : ∀ jobId, w.db.backgroundJobs.get? jobId ≠ none → chainOf w.db jobId = chain →
      effectOfKey w.db (providerKey jobId effectKey) = none) : ¬ w.Open chain effectKey := by
  have hknown := known_of_reachable hw
  have hnone : ∀ {jobId key idempotencyKey}, KnownEffect w.db jobId key idempotencyKey →
      (chainOf w.db jobId, key) ≠ (chain, effectKey) := by
    intro jobId key idempotencyKey hjob heq
    obtain ⟨hchain, rfl⟩ := Prod.mk.inj heq
    exact effectOfKey_ne_none.mpr hjob.row (hfresh jobId hjob.job hchain)
  rintro (hexecuted | ⟨call, hcall, -, heq⟩)
  · refine hexecuted (List.countP_eq_zero.mpr ?_)
    intro e he
    have hne := hnone (hknown.log e (History.mem_of_mem_since he))
    simp [ExecutorCall.isOf, hne]
  · exact hnone (hknown.calls call hcall) heq

/-- The executions of an effect of a chain since it was last reported, as events. -/
theorem count_ran_recent (chain : UUID) (effectKey : String) :
    ((workView (chainOf w.db) true w).recent (chain, effectKey)).count
      (.ran (chain, effectKey)) = w.chainExecutions chain effectKey := by
  have hview : ∀ e : ExecutorCall,
      (decide (e.report = .reconciled (some false)) && e.isOf w.db chain effectKey) =
        ((e.event true).map (AtMostOnce.Event.map (regroup (chainOf w.db)))).any
          fun event => decide (event = .reset (chain, effectKey)) := by
    intro e
    rcases hreport : e.report with _ | _ | _ | _ <;>
      simp [ExecutorCall.event, hreport, AtMostOnce.Event.map, ExecutorCall.isOf, regroup]
  have hevents : (workView (chainOf w.db) true w).events =
      w.log.filterMap fun e =>
        (e.event true).map (AtMostOnce.Event.map (regroup (chainOf w.db))) :=
    List.map_filterMap
  rw [AtMostOnce.State.recent, hevents, History.since_filterMap hview, ← List.map_filterMap,
    count_ran_events]
  rfl

/-- An effect that is not open is unused. -/
theorem uses_of_not_open {chain : UUID} {effectKey : String} (h : ¬ w.Open chain effectKey) :
    (workView (chainOf w.db) true w).uses (chain, effectKey) = 0 := by
  rw [World.Open, not_or, not_not] at h
  have htickets : (chain, effectKey) ∉ (workView (chainOf w.db) true w).tickets := by
    simp only [workView, List.mem_map, List.mem_filterMap, not_exists, not_and]
    rintro k ⟨call, hcall, hticket⟩ heq
    have hk : k = (call.grant.jobId, call.effectKey) := by
      unfold EffectCall.ticket at hticket
      split at hticket
      · exact (Option.some.inj hticket).symm
      · cases hticket
    subst hk
    exact h.2 ⟨call, hcall, hticket, heq⟩
  rw [AtMostOnce.uses_of_not_mem htickets, count_ran_recent, h.1]

/-- Jobs of a world that are in the same chains are grouped the same way. -/
theorem workView_congr {group group' : UUID → UUID} {resets : Bool}
    (h : About (fun jobId _ _ => group jobId = group' jobId) w) :
    workView group resets w = workView group' resets w := by
  have htickets : (w.calls.filterMap EffectCall.ticket).map (regroup group) =
      (w.calls.filterMap EffectCall.ticket).map (regroup group') := by
    refine List.map_congr_left ?_
    intro k hk
    obtain ⟨call, hcall, hticket⟩ := List.mem_filterMap.mp hk
    unfold EffectCall.ticket at hticket
    split at hticket
    · obtain rfl := Option.some.inj hticket
      rw [regroup, regroup, h.calls call hcall]
    · cases hticket
  have hevents : (w.log.filterMap (ExecutorCall.event resets)).map
        (AtMostOnce.Event.map (regroup group)) =
      (w.log.filterMap (ExecutorCall.event resets)).map
        (AtMostOnce.Event.map (regroup group')) := by
    refine List.map_congr_left ?_
    intro event hevent
    obtain ⟨e, he, hevent⟩ := List.mem_filterMap.mp hevent
    have hsame := h.log e he
    unfold ExecutorCall.event at hevent
    split at hevent
    · obtain rfl := Option.some.inj hevent
      rw [AtMostOnce.Event.map, AtMostOnce.Event.map, regroup, regroup, hsame]
    · split at hevent
      · obtain rfl := Option.some.inj hevent
        rw [AtMostOnce.Event.map, AtMostOnce.Event.map, regroup, regroup, hsame]
      · cases hevent
    · cases hevent
  rw [workView, workView, htickets, hevents]

/-- The jobs of a world keep their chains in a step. -/
theorem workView_chainOf (hw : (effectSystem rt).Reachable w) (hstep : WorldStep rt started w w') :
    workView (chainOf w.db) true w' = workView (chainOf w'.db) true w' := by
  have hjobs : About (fun jobId _ _ => w.db.backgroundJobs.get? jobId ≠ none) w' := by
    have hknown := known_of_reachable hw
    refine About.step ⟨fun call hcall => (hknown.calls call hcall).job,
      fun e he => (hknown.log e he).job⟩ hstep ?_
    intro grant now c prepared hprepare
    obtain ⟨r, job, lease, -, hheld, -⟩ := BackgroundJobService.prepareEffect_ok hprepare
    rw [hheld.job_eq]
    exact Option.some_ne_none job
  have htouches := (ControlPlane.jobSystem_step
    (idle_of_reachable (jobSystem_of_effectSystem hw)) hstep.jobSystem_step).1
  exact workView_congr ⟨fun call hcall => (htouches.chainOf_eq (hjobs.calls call hcall)).symm,
    fun e he => (htouches.chainOf_eq (hjobs.log e he)).symm⟩

/-- Cautious workers refine work done at most once until it is reset, the effects of a chain
taken together. -/
theorem cautiousSystem_simulates (rt : Runtime) :
    (cautiousSystem rt).Simulates AtMostOnce.machine
      fun w s => s = workView (chainOf w.db) true w where
  init w h :=
    ⟨workView (chainOf w.db) true w, by simp [AtMostOnce.machine, workView, h.2.1, h.2.2], rfl⟩
  step w w' s hw _ hs hstep := by
    subst hs
    have hw := effectSystem_of_cautious hw
    refine ⟨workView (chainOf w'.db) true w', ?_, rfl⟩
    rcases hstep with ⟨service, action, hcautious, rfl⟩ | helsewhere
    · have hact : WorldStep rt (action.started rt) w (w.act rt service action) :=
        World.act_step action
      rw [← workView_chainOf hw hact]
      refine hact.refines ?_
      intro jobId effectKey hstarted hnone
      exact uses_of_not_open (hcautious jobId effectKey hstarted hnone)
    · have hquiet : WorldStep rt none w w' :=
        .quiet (.inr helsewhere.same) helsewhere.calls helsewhere.log
      rw [← workView_chainOf hw hquiet]
      exact hquiet.refines fun _ _ hstarted => by cases hstarted

end Runs

/-- Cautious workers execute an effect of a chain at most once until a reconciliation
reports that it did not happen. -/
theorem chainExecutions_le_one {rt : Runtime} {w : World} (h : (cautiousSystem rt).Reachable w)
    (chain : UUID) (effectKey : String) : w.chainExecutions chain effectKey ≤ 1 := by
  obtain ⟨s, hs, rfl⟩ := (cautiousSystem_simulates rt).reachable h
  have huses := AtMostOnce.uses_le_one hs (chain, effectKey)
  rw [AtMostOnce.State.uses, count_ran_recent] at huses
  omega

/-! ### An effect executed again -/

namespace ResumedExample

open LostResultExample (task service jobId claim push start)

def schedule : ScheduleCommand :=
  { LostResultExample.schedule with
    retryPolicy := { RetryPolicy.standard with
      maxAttempts := 1, maxAttempts_bounds := by decide } }

def resumedId : UUID := .ofNat 10

def firstGrant : JobLeaseGrant := LostResultExample.grant "a" (seconds 2) (.ofNat 3) 1

def secondGrant : JobLeaseGrant :=
  { LostResultExample.grant "b" (seconds 6) (.ofNat 4) 1 with
    jobId := resumedId, fencingToken := 2 }

def claimed : World :=
  runWorld .plain service start
    [.job (.schedule schedule), .job (.claimNext (claim "a" (seconds 2) (.ofNat 3)))]

def firstPush : EffectAction := .perform firstGrant (seconds 3) (push (.ofNat 5))

def secondPush : EffectAction := .perform secondGrant (seconds 7) (push (.ofNat 6))

/-- The only attempt of the first job ends in an outage, after its effect was prepared and
its call has gone one step further. -/
def exhausted (input : CallInput) : World :=
  runWorld .plain service (claimed.act .plain service firstPush)
    [.resume 0 input,
      .job (.granted firstGrant (seconds 4) (.failDependencyAttempt .github "TIMEOUT"))]

def request : ApprovalRequest where
  id := .ofNat 5060
  taskId := task.id

/-- The approval service records a request. -/
def record (request : ApprovalRequest) (w : World) : World :=
  { w with db := { w.db with approvalRequests := ⟨[request], by simp⟩ } }

/-- The request is bound to the outage, and decided. -/
def approved (input : CallInput) : World :=
  record { request with
    status := .approved, decision := some .retry, decisionId := some (.ofNat 9) } <|
  runWorld .plain service (record request (exhausted input))
    [.job (.reconcileOutageEscalation jobId)]

def decisions : OutageDecisionCommand where
  clock := fun _ => seconds 5
  jobId := fun _ => resumedId

/-- The job is resumed and claimed. -/
def resumed (input : CallInput) : World :=
  runWorld .plain service (approved input)
    [.job (.reconcileOutageDecisions decisions),
      .job (.claimNext (claim "b" (seconds 6) (.ofNat 4)))]

def after (input : CallInput) : World :=
  runWorld .plain service ((resumed input).act .plain service secondPush)
    [.resume 0 (.executed none)]

theorem elsewhere_record (request : ApprovalRequest) (w : World) :
    Elsewhere w (record request w) := ⟨⟨rfl, rfl, rfl, rfl, rfl⟩, rfl, rfl⟩

theorem reachable_after (input : CallInput) : (effectSystem .plain).Reachable (after input) := by
  have hstart : (effectSystem .plain).Reachable start := .of_init ⟨⟨rfl, rfl, rfl⟩, rfl, rfl⟩
  have hclaimed : (effectSystem .plain).Reachable claimed := reachable_runWorld service _ hstart
  have hexhausted : (effectSystem .plain).Reachable (exhausted input) :=
    reachable_runWorld service _ (hclaimed.tail (.inl ⟨service, firstPush, rfl⟩))
  have hrequested := hexhausted.tail (.inr (elsewhere_record request _))
  have happroved : (effectSystem .plain).Reachable (approved input) :=
    (reachable_runWorld service _ hrequested).tail (.inr (elsewhere_record _ _))
  have hresumed : (effectSystem .plain).Reachable (resumed input) :=
    reachable_runWorld service _ happroved
  exact reachable_runWorld service _ (hresumed.tail (.inl ⟨service, secondPush, rfl⟩))

/-- A world without calls in which no executor was asked. -/
def quiet (w : World) : Bool := w.calls.isEmpty && w.log.isEmpty

set_option maxRecDepth 4000 in
/-- The effect is executed twice when the first worker executed it, and once when it crashed. -/
theorem chainExecutions_after :
    (after (.executed none)).chainExecutions jobId "push" = 2 ∧
      quiet (resumed .crashed) = true ∧ (after .crashed).chainExecutions jobId "push" = 1 := by
  decide +kernel

end ResumedExample

theorem executed_again : ¬ ∀ w, (effectSystem .plain).Reachable w →
    ∀ chain effectKey, w.chainExecutions chain effectKey ≤ 1 := by
  intro hall
  have hle := hall _ (ResumedExample.reachable_after (.executed none)) LostResultExample.jobId "push"
  rw [ResumedExample.chainExecutions_after.1] at hle
  omega

/-! ### An effect left to a resumed job -/

namespace ResumedExample

open LostResultExample (service jobId claim push start)

theorem cautious_of_quiet {w : World} (h : quiet w = true) (action : EffectAction) :
    action.Cautious .plain w := by
  simp only [quiet, Bool.and_eq_true, List.isEmpty_iff] at h
  intro jobId effectKey _ _ hopen
  simp [World.Open, World.chainExecutions, World.sinceReport, h.1, h.2] at hopen

theorem cautious_runWorld {w : World} (actions : List EffectAction)
    (h : (cautiousSystem .plain).Reachable w)
    (hactions : ∀ action ∈ actions, action.started .plain = none) :
    (cautiousSystem .plain).Reachable (runWorld .plain service w actions) := by
  induction actions generalizing w with
  | nil => exact h
  | cons action actions ih =>
    have hcautious := cautious_of_not_started (w := w) (hactions action List.mem_cons_self)
    refine ih (h.tail (.inl ⟨service, action, hcautious, rfl⟩)) ?_
    exact fun action haction => hactions action (List.mem_cons_of_mem _ haction)

/-- The first worker crashed before it executed the effect, so the resumed job may. -/
theorem cautious_after : (cautiousSystem .plain).Reachable (after .crashed) := by
  have hstart : (cautiousSystem .plain).Reachable start := .of_init ⟨⟨rfl, rfl, rfl⟩, rfl, rfl⟩
  have hclaimed : (cautiousSystem .plain).Reachable claimed :=
    cautious_runWorld _ hstart (by simp [EffectAction.started])
  have hprepared := hclaimed.tail (.inl ⟨service, firstPush, cautious_of_quiet rfl _, rfl⟩)
  have hexhausted : (cautiousSystem .plain).Reachable (exhausted .crashed) :=
    cautious_runWorld _ hprepared (by simp [EffectAction.started])
  have hrequested := hexhausted.tail (.inr (elsewhere_record request _))
  have hbound := cautious_runWorld [.job (.reconcileOutageEscalation jobId)] hrequested
    (by simp [EffectAction.started])
  have happroved : (cautiousSystem .plain).Reachable (approved .crashed) :=
    hbound.tail (.inr (elsewhere_record _ _))
  have hresumed : (cautiousSystem .plain).Reachable (resumed .crashed) :=
    cautious_runWorld _ happroved (by simp [EffectAction.started])
  have hstarted := hresumed.tail
    (.inl ⟨service, secondPush, cautious_of_quiet chainExecutions_after.2.1 _, rfl⟩)
  exact cautious_runWorld _ hstarted (by simp [EffectAction.started])

end ResumedExample

theorem chainExecutions_le_one_crashed :
    (ResumedExample.after .crashed).chainExecutions LostResultExample.jobId "push" = 1 ∧
    (ResumedExample.after .crashed).chainExecutions LostResultExample.jobId "push" ≤ 1 :=
  ⟨ResumedExample.chainExecutions_after.2.2,
    chainExecutions_le_one ResumedExample.cautious_after _ _⟩

end ControlPlane
