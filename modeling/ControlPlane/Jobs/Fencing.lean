import ControlPlane.Jobs.System

/-!
# Fencing over whole runs

Through `leaseView` the writes of the job service are steps of the general fenced-lease
machine, so its invariant holds in every reachable store; and a command whose grant is
stale changes nothing of the jobs or of the lifecycle of a task.
-/
namespace ControlPlane

/-! ### The view of a store as fenced leases -/

def leaseView (db : Database) : FencedLease.State UUID UUID where
  current jobId := (db.backgroundJobs.get? jobId).bind BackgroundJob.currentLeaseId
  leases := db.backgroundJobLeases.rows.map BackgroundJobLease.view
  next := db.fencingCounter.getD 1

section View
variable {db db' : Database}

theorem leaseView_eq (hcurrent : (leaseView db').current = (leaseView db).current)
    (hleases : SameLeases db db') : leaseView db' = leaseView db := by
  have hrows : (leaseView db').leases = (leaseView db).leases := by
    simp [leaseView, hleases.leases]
  have hnext : (leaseView db').next = (leaseView db).next := hleases.next
  cases hv : leaseView db with
  | mk current leases next =>
    cases hv' : leaseView db' with
    | mk current' leases' next' => simp_all

/-- The lease named by a job that is written back. -/
theorem current_set {job job' : BackgroundJob} (hget : db.backgroundJobs.get? job.id = some job)
    (hid : job'.id = job.id) (hjobs : db'.backgroundJobs = db.backgroundJobs.set job') :
    (leaseView db').current =
      Function.update (leaseView db).current job.id job'.currentLeaseId := by
  funext id
  simp only [leaseView, hjobs, get?_set_job hget hid]
  by_cases h : id = job.id
  · simp [h]
  · simp [h]

/-- The leases after one of them is written back. -/
theorem leases_set {lease lease' : BackgroundJobLease}
    {change : FencedLease.Lease UUID UUID → FencedLease.Lease UUID UUID}
    (hget : db.backgroundJobLeases.get? lease.id = some lease) (hid : lease'.id = lease.id)
    (hat : lease'.view = change lease.view)
    (hoff : ∀ b : BackgroundJobLease, b.id ≠ lease.id → b.view = change b.view)
    (hleases : db'.backgroundJobLeases = db.backgroundJobLeases.set lease') :
    (leaseView db').leases = (leaseView db).leases.map change := by
  simp only [leaseView, hleases]
  refine Table.map_rows_set _ _ ?_ ?_
  · intro b hb hkey
    have hbid : key b = lease.id := hkey.trans hid
    obtain rfl : b = lease := Option.some.inj ((Table.get?_key hb).symm.trans (hbid ▸ hget))
    exact hat
  · intro b _ hkey
    exact hoff b fun h => hkey (h.trans hid.symm)

/-- Every write is a run of the fenced-lease machine. -/
theorem Touch.refines (h : Touch db db') :
    Relation.ReflTransGen FencedLease.Step (leaseView db) (leaseView db') := by
  cases h with
  | frame hjobs hleases =>
    rw [leaseView_eq (by funext id; simp [leaseView, hjobs]) hleases]
  | insertJob job hidle _ hjobs hleases =>
    rw [leaseView_eq ?_ hleases]
    funext id
    simp only [leaseView, Table.get?_insert? hjobs]
    by_cases hid : key job = id
    · have hnone := (Table.insert?_eq_some.mp hjobs).1
      simp [hid ▸ hnone, hid, hidle]
    · simp [hid]
  | rewriteJob job job' hget hlineage hcurrent _ hjobs hleases =>
    rw [leaseView_eq ?_ hleases]
    rw [current_set hget (id_of_lineage hlineage) hjobs, hcurrent]
    have hold : (leaseView db).current job.id = job.currentLeaseId := by simp [leaseView, hget]
    rw [← hold, Function.update_eq_self]
  | rewriteLease lease lease' hget hview hjobs hleases hnext =>
    have hid : lease'.id = lease.id := congrArg FencedLease.Lease.id hview
    have hrows := leases_set hget hid (show lease'.view = id lease.view from hview) (fun _ _ => rfl) hleases
    rw [List.map_id] at hrows
    have heq : leaseView db' = leaseView db := by
      simp only [leaseView, hjobs, hnext] at hrows ⊢
      rw [hrows]
    rw [heq]
  | release job job' lease lease' hget hlineage hlease hcurrent hidle hview hjobs hleases hnext =>
    refine .single ?_
    have hcur : (leaseView db).current job.id = some lease.id := by
      simp [leaseView, hget, hcurrent]
    have hid : lease'.id = lease.id := congrArg FencedLease.Lease.id hview
    have heq : leaseView db' = (leaseView db).release job.id lease.id := by
      have hat : lease'.view = lease.view.releaseIf lease.id := by
        rw [hview, FencedLease.Lease.releaseIf, if_pos (show lease.view.id = lease.id from rfl)]
      have hoff : ∀ b : BackgroundJobLease, b.id ≠ lease.id →
          b.view = b.view.releaseIf lease.id := by
        intro b hb
        rw [FencedLease.Lease.releaseIf, if_neg (show b.view.id ≠ lease.id from hb)]
      have hrows := leases_set hlease hid hat hoff hleases
      have hcurrent' := current_set hget (id_of_lineage hlineage) hjobs
      rw [hidle] at hcurrent'
      have hnext' : (leaseView db').next = (leaseView db).next := by simp [leaseView, hnext]
      rw [FencedLease.State.release, ← hcurrent', ← hrows, ← hnext']
    rw [heq]
    exact .release _ _ hcur
  | issue job job' lease hget hlineage hfree hcurrent _ hview hleases hjobs hnext =>
    refine .single ?_
    obtain ⟨hnone, hrows⟩ := Table.insert?_eq_some.mp hleases
    have hcur : (leaseView db).current job.id = none := by simp [leaseView, hget, hfree]
    have heq : leaseView db' = (leaseView db).issue job.id lease.id := by
      have hcurrent' := current_set hget (id_of_lineage hlineage) hjobs
      rw [hcurrent] at hcurrent'
      have hrows' : (leaseView db').leases =
          (leaseView db).leases ++ [⟨lease.id, job.id, (leaseView db).next, false⟩] := by
        simp only [leaseView, hrows, List.map_append, List.map_singleton, hview]
      have hnext' : (leaseView db').next = (leaseView db).next + 1 := hnext
      rw [FencedLease.State.issue, ← hcurrent', ← hrows', ← hnext']
    rw [heq]
    refine .issue _ _ hcur ?_
    intro l hl
    obtain ⟨b, hb, rfl⟩ := List.mem_map.mp hl
    exact Table.get?_eq_none.mp hnone b hb

theorem Touches.refines (h : Touches db db') :
    Relation.ReflTransGen FencedLease.Step (leaseView db) (leaseView db') := by
  induction h with
  | refl => exact .refl
  | tail _ h ih => exact ih.trans h.refines

end View

/-- The job service refines the fenced-lease machine. -/
theorem jobSystem_simulates (rt : Runtime) :
    (jobSystem rt).Simulates FencedLease.machine fun db s => s = leaseView db where
  init db h := by
    refine ⟨leaseView db, ⟨?_, ?_⟩, rfl⟩
    · intro jobId
      simp [leaseView, Table.get?, h.1]
    · simp [leaseView, h.2.1]
  step db db' s hdb _ hs hstep := by
    subst hs
    exact ⟨leaseView db', (jobSystem_step (idle_of_reachable hdb) hstep).1.refines, rfl⟩

theorem fenced_of_reachable {rt : Runtime} {db : Database} (h : (jobSystem rt).Reachable db) :
    FencedLease.Fenced (leaseView db) := by
  obtain ⟨s, hs, rfl⟩ := (jobSystem_simulates rt).reachable h
  exact FencedLease.fenced_of_reachable hs

/-! ### Stale grants -/

/-- A grant whose lease is not the one its job names, is released or expired, or was
revoked by a cancellation. -/
inductive Stale (db : Database) (grant : JobLeaseGrant) (now : Time) : Prop
  | notCurrent (h : ∀ job, db.backgroundJobs.get? grant.jobId = some job →
      job.currentLeaseId ≠ some grant.leaseId)
  | expired (h : ∀ lease, db.backgroundJobLeases.get? grant.leaseId = some lease →
      lease.expiresAt ≤ now)
  | released (h : ∀ lease, db.backgroundJobLeases.get? grant.leaseId = some lease →
      lease.released ≠ none)
  | cancelled (h : ∀ job, db.backgroundJobs.get? grant.jobId = some job →
      job.cancellationRequestedAt ≠ none)

theorem Stale.not_held {db : Database} {grant : JobLeaseGrant} {now : Time}
    (h : Stale db grant now) : ¬ Held db grant now := by
  rintro ⟨job, lease, hheld⟩
  cases h with
  | notCurrent h => exact h job hheld.job_eq hheld.current
  | expired h => exact absurd hheld.lease_live (not_lt.mpr (h lease hheld.lease_eq))
  | released h => exact h lease hheld.lease_eq hheld.unreleased
  | cancelled h => exact h job hheld.job_eq hheld.uncancelled

/-- Jobs, checkpoints, effects and the lifecycle of tasks, unchanged. -/
structure Unchanged (db db' : Database) : Prop where
  jobs : db'.backgroundJobs = db.backgroundJobs
  leases : db'.backgroundJobLeases = db.backgroundJobLeases
  counter : db'.fencingCounter = db.fencingCounter
  checkpoints : db'.backgroundJobCheckpoints = db.backgroundJobCheckpoints
  effects : db'.backgroundJobEffects = db.backgroundJobEffects
  tasks : db'.tasks = db.tasks
  taskEvents : db'.taskEvents = db.taskEvents
  taskTransitions : db'.backgroundJobTaskTransitions = db.backgroundJobTaskTransitions

/-- A command with a stale grant writes at most the record of an ignored result. -/
theorem unchanged_of_stale {rt : Runtime} {service : BackgroundJobService} {db : Database}
    {grant : JobLeaseGrant} {now : Time} (hstale : Stale db grant now) (c : GrantCommand) :
    Unchanged db (db.commit (c.run rt service db grant now)) := by
  cases hrun : c.run rt service db grant now with
  | error e => constructor <;> rfl
  | ok db' =>
    rcases (GrantCommand.run_ok hrun).1 with hheld | ⟨records, ignored, rfl⟩
    · exact absurd hheld hstale.not_held
    · constructor <;> rfl

/-! ### Fencing -/

theorem fencing_of_run {rt : Runtime} {db : Database} (h : (jobSystem rt).Reachable db) :
    (∀ lease ∈ db.backgroundJobLeases, lease.released = none →
      ∃ job, db.backgroundJobs.get? lease.jobId = some job ∧ job.currentLeaseId = some lease.id) ∧
    (∀ a ∈ db.backgroundJobLeases, ∀ b ∈ db.backgroundJobLeases, a.jobId = b.jobId →
      a.released = none → b.released = none → a = b) ∧
    db.backgroundJobLeases.rows.Pairwise (fun a b => a.fencingToken < b.fencingToken) ∧
    (∀ (service : BackgroundJobService) (grant : JobLeaseGrant) (now : Time) (c : GrantCommand),
      Stale db grant now → Unchanged db (db.commit (c.run rt service db grant now))) := by
  have hfenced := fenced_of_reachable h
  have hmem : ∀ lease ∈ db.backgroundJobLeases, lease.view ∈ (leaseView db).leases :=
    fun lease hlease => List.mem_map_of_mem hlease
  have hcurrent : ∀ lease ∈ db.backgroundJobLeases, lease.released = none →
      ∃ job, db.backgroundJobs.get? lease.jobId = some job ∧
        job.currentLeaseId = some lease.id := by
    intro lease hlease hrel
    have hcur := hfenced.unreleased lease.view (hmem lease hlease)
      (by simp [BackgroundJobLease.view, hrel])
    exact Option.bind_eq_some_iff.mp hcur
  refine ⟨hcurrent, ?_, ?_, fun service grant now c hstale => unchanged_of_stale hstale c⟩
  · intro a ha b hb hjob hra hrb
    have hview : a.view = b.view := hfenced.unique (hmem a ha) (hmem b hb) hjob
      (by simp [BackgroundJobLease.view, hra]) (by simp [BackgroundJobLease.view, hrb])
    exact Table.eq_of_key_eq ha hb (congrArg FencedLease.Lease.id hview)
  · have htokens := hfenced.tokens
    rw [leaseView, List.pairwise_map] at htokens
    exact htokens

/-! ### A lease taken over -/

namespace TakeoverExample

def task : Task where
  id := .ofNat 1
  repository := "owner/app"
  state := .implementing
  ownerId := "owner"
  rootCorrelationId := .ofNat 7

def service : BackgroundJobService := ⟨"cp", closedGates⟩

def schedule : ScheduleCommand where
  taskId := task.id
  jobType := "work"
  idempotencyKey := "k"
  inputPayload := .obj []
  retryPolicy := .standard
  now := seconds 1
  jobId := .ofNat 2

/-- A claim at a point in time. -/
def claim (worker : String) (at_ : Time) (leaseId : UUID) : ClaimCommand where
  workerId := worker
  leaseDuration := seconds 10
  clock := fun _ => at_
  leaseId := leaseId

/-- The second worker takes over when the lease of the first has run out. -/
def commands : List JobCommand :=
  [.schedule schedule, .claimNext (claim "a" (seconds 2) (.ofNat 3)),
    .claimNext (claim "b" (seconds 12) (.ofNat 4))]

def store : Database where
  tasks := ⟨[task], by simp⟩

def after : Database := runJobs .plain service store commands

theorem reachable : (jobSystem .plain).Reachable after :=
  reachable_runJobs service commands (.of_init ⟨rfl, rfl, rfl⟩)

set_option maxRecDepth 4000 in
theorem leases : after.backgroundJobLeases.rows.map (fun l => (l.id, l.fencingToken)) =
    [(.ofNat 3, 1), (.ofNat 4, 2)] := by
  decide +kernel

end TakeoverExample

theorem fencing_of_run_takeover :
    (TakeoverExample.after.backgroundJobLeases.rows.map fun l => (l.id, l.fencingToken)) =
      [(.ofNat 3, 1), (.ofNat 4, 2)] ∧
    TakeoverExample.after.backgroundJobLeases.rows.Pairwise
      (fun a b => a.fencingToken < b.fencingToken) :=
  ⟨TakeoverExample.leases, (fencing_of_run TakeoverExample.reachable).2.2.1⟩

end ControlPlane
