import ControlPlane.Hermes.System

/-!
# Cancelled runs hold no tool grant

A cancellation revokes the grants of the lease of its run. The grant of a run is issued by
the second transaction of its preparation, which looks at the lease only: when it comes
after the cancellation, the grant is live. Where every grant is issued before the run is
cancelled, no cancelled run holds a live one, whatever happens in between and afterwards.
-/
namespace ControlPlane

/-- No run whose cancellation was requested has a live grant under its key. -/
def CancelledRevoked (db : Database) : Prop :=
  ∀ run ∈ db.hermesRuns, run.cancellationRequestedAt.isSome →
    ∀ g ∈ db.backgroundJobToolGrants, g.grantKey = hermesGrantKey run.id → g.revoked.isSome

/-- A preparation finds its grant, or finds its run without a cancellation. -/
def IssuedInTime (db : Database) (grant : JobLeaseGrant) (runId : UUID) : Prop :=
  toolGrantOf db grant.jobId (hermesGrantKey runId) ≠ none ∨
    ∀ run, db.hermesRuns.get? runId = some run → run.cancellationRequestedAt = none

/-- Preparations hold the lease of their runs, grants under the key of a run are of its
lease, and those of cancelled runs are revoked. -/
structure GrantInvariant (s : HermesState) : Prop where
  prepared : ∀ p ∈ s.prepared, ∃ run, s.db.hermesRuns.get? p.2 = some run ∧ run.heldBy p.1
  owned : ∀ g ∈ s.db.backgroundJobToolGrants, ∀ id, g.grantKey = hermesGrantKey id →
    ∃ run, s.db.hermesRuns.get? id = some run ∧ grantOfRun run g = true
  revoked : ∀ id run, s.db.hermesRuns.get? id = some run → run.cancellationRequestedAt.isSome →
    ∀ g ∈ s.db.backgroundJobToolGrants, g.grantKey = hermesGrantKey id → g.revoked.isSome

/-- No cancellation is requested. -/
def CancellationsKept (db db' : Database) : Prop :=
  ∀ id run', db'.hermesRuns.get? id = some run' → run'.cancellationRequestedAt = none ∨
    ∃ run, db.hermesRuns.get? id = some run ∧
      run.cancellationRequestedAt = run'.cancellationRequestedAt

section Steps
variable {rt : Runtime} {condition : Database → JobLeaseGrant → UUID → Prop}
  {s s' : HermesState} {db db' : Database}

theorem cancellationsKept_of_eq (h : db'.hermesRuns = db.hermesRuns) :
    CancellationsKept db db' :=
  fun _ run' hget => .inr ⟨run', by rw [← h, hget], rfl⟩

theorem cancellationsKept_set {run run' : HermesRun}
    (h : db'.hermesRuns = db.hermesRuns.set run')
    (hget : db.hermesRuns.get? run.id = some run) (hid : run'.id = run.id)
    (hsame : run'.cancellationRequestedAt = run.cancellationRequestedAt) :
    CancellationsKept db db' := by
  intro id r hr
  rw [h, get?_set_run hget hid] at hr
  by_cases hrun : run.id = id
  · rw [if_pos hrun] at hr
    obtain rfl := Option.some.inj hr
    exact .inr ⟨run, hrun ▸ hget, hsame.symm⟩
  · rw [if_neg hrun] at hr
    exact .inr ⟨r, hr, rfl⟩

/-- Steps that leave the grants and the cancellations alone. -/
theorem GrantInvariant.untouched (hinv : GrantInvariant s)
    (hgrants : s'.db.backgroundJobToolGrants = s.db.backgroundJobToolGrants)
    (hruns : RunsKept s.db s'.db) (hcancel : CancellationsKept s.db s'.db)
    (hprepared : ∀ p ∈ s'.prepared, p ∈ s.prepared ∨
      ∃ run, s'.db.hermesRuns.get? p.2 = some run ∧ run.heldBy p.1) : GrantInvariant s' where
  prepared p hp := by
    rcases hprepared p hp with hp | hrun
    · obtain ⟨run, hget, hheld⟩ := hinv.prepared p hp
      obtain ⟨run', hget', hsame⟩ := hruns _ run hget
      exact ⟨run', hget', hsame.heldBy hheld⟩
    · exact hrun
  owned g hg id hkey := by
    rw [hgrants] at hg
    obtain ⟨run, hget, hof⟩ := hinv.owned g hg id hkey
    obtain ⟨run', hget', h₁, h₂, h₃, -⟩ := hruns _ run hget
    exact ⟨run', hget', by simpa [grantOfRun, h₁, h₂, h₃] using hof⟩
  revoked id run' hget' hrequested g hg hkey := by
    rw [hgrants] at hg
    rcases hcancel id run' hget' with hnone | ⟨run, hget, hsame⟩
    · simp [hnone] at hrequested
    · exact hinv.revoked id run hget (hsame ▸ hrequested) g hg hkey

theorem GrantInvariant.create {grant : JobLeaseGrant} {runId : UUID} {prompt : CompiledPrompt}
    {now : Time} {status : HermesRunStatus} {replayed : Bool} (hinv : GrantInvariant s)
    (h : createRun rt s.db grant runId prompt now = .ok (status, replayed, s'.db))
    (hprepared : s'.prepared = (grant, runId) :: s.prepared) : GrantInvariant s' := by
  rcases createRun_ok h with ⟨run, hget, hheld, hdb⟩ | ⟨job, lease, runs, hlease, hinsert, hdb⟩
  · refine hinv.untouched (by rw [hdb]) (runsKept_of_eq (by rw [hdb]))
      (cancellationsKept_of_eq (by rw [hdb])) fun p hp => ?_
    rw [hprepared] at hp
    rcases List.mem_cons.mp hp with rfl | hp
    · exact .inr ⟨run, by rw [hdb]; exact hget, hheld⟩
    · exact .inl hp
  · have hget : ∀ id, s'.db.hermesRuns.get? id =
        if runId = id then some (newRun rt grant runId prompt job lease now)
        else s.db.hermesRuns.get? id := by
      intro id
      rw [hdb]
      exact Table.get?_insert? hinsert
    have hnew : s.db.hermesRuns.get? runId = none := (Table.insert?_eq_some.mp hinsert).1
    refine hinv.untouched (by rw [hdb]) (fun id run hrun => ?_) (fun id run' hrun' => ?_)
      fun p hp => ?_
    · have hne : runId ≠ id := fun heq => by simp [← heq, hnew] at hrun
      exact ⟨run, by rw [hget, if_neg hne, hrun], .refl run⟩
    · rw [hget] at hrun'
      by_cases hid : runId = id
      · rw [if_pos hid] at hrun'
        exact .inl (by rw [← Option.some.inj hrun']; rfl)
      · rw [if_neg hid] at hrun'
        exact .inr ⟨run', hrun', rfl⟩
    · rw [hprepared] at hp
      rcases List.mem_cons.mp hp with rfl | hp
      · exact .inr ⟨_, by rw [hget, if_pos rfl], newRun_heldBy hlease⟩
      · exact .inl hp

theorem GrantInvariant.issue {grant : JobLeaseGrant} {runId : UUID} {now : Time}
    {toolGrantId id : UUID} {replayed : Bool} (hinv : GrantInvariant s)
    (hmem : (grant, runId) ∈ s.prepared) (htime : IssuedInTime s.db grant runId)
    (h : issueRunGrant rt s.db grant runId now toolGrantId = .ok (id, replayed, s'.db))
    (hprepared : s'.prepared = s.prepared) : GrantInvariant s' := by
  rcases issueRunGrant_ok h with ⟨-, hdb⟩ | ⟨hnone, scope, grants, hinsert, hdb⟩
  · exact hinv.untouched (by rw [hdb]) (runsKept_of_eq (by rw [hdb]))
      (cancellationsKept_of_eq (by rw [hdb])) fun p hp => .inl (hprepared ▸ hp)
  · have hruns : s'.db.hermesRuns = s.db.hermesRuns := by rw [hdb]
    have hgrant : ∀ g, g ∈ s'.db.backgroundJobToolGrants ↔
        g ∈ s.db.backgroundJobToolGrants ∨ g =
          { id := toolGrantId, jobId := grant.jobId, leaseId := grant.leaseId
            fencingToken := grant.fencingToken, grantKey := hermesGrantKey runId
            capabilityScope := scope, issuedAt := now } := by
      intro g
      rw [hdb]
      exact Table.mem_insert? hinsert
    refine ⟨?_, ?_, ?_⟩
    · rw [hprepared, hruns]
      exact hinv.prepared
    · intro g hg id hkey
      rw [hruns]
      rcases (hgrant g).mp hg with hg | rfl
      · exact hinv.owned g hg id hkey
      · obtain rfl : runId = id := hermesGrantKey_injective hkey
        obtain ⟨run, hget, -, hjob, hlease, htoken, -⟩ := hinv.prepared _ hmem
        exact ⟨run, hget, by simp [grantOfRun, hjob, hlease, htoken]⟩
    · intro id run hget hrequested g hg hkey
      rw [hruns] at hget
      rcases (hgrant g).mp hg with hg | rfl
      · exact hinv.revoked id run hget hrequested g hg hkey
      · -- The grant is new, so its run was not cancelled.
        obtain rfl : runId = id := hermesGrantKey_injective hkey
        have huncancelled := htime.resolve_left (not_not.mpr hnone) run hget
        simp [huncancelled] at hrequested

theorem GrantInvariant.cancel {runId : UUID} {now : Time} {result : HermesCancellationResult}
    (hinv : GrantInvariant s) (h : HermesRunService.cancel s.db runId now = .ok (result, s'.db))
    (hprepared : s'.prepared = s.prepared) : GrantInvariant s' := by
  rcases cancel_ok h with ⟨run, hget, -, hdb⟩ | ⟨run, grants, hget, -, hrows, hdb⟩
  · exact hinv.untouched (by rw [hdb]) (runsKept_of_eq (by rw [hdb]))
      (cancellationsKept_of_eq (by rw [hdb])) fun p hp => .inl (hprepared ▸ hp)
  · obtain rfl : run.id = runId := Table.key_of_get? hget
    have hset := congrArg Database.hermesRuns hdb
    have hruns : RunsKept s.db s'.db := runsKept_set hset hget rfl ⟨rfl, rfl, rfl, rfl, rfl⟩
    -- Every grant is one from before, and revoked if it was or if it is the run's.
    have hgrants : ∀ g' ∈ s'.db.backgroundJobToolGrants, ∃ g ∈ s.db.backgroundJobToolGrants,
        g' = { g with revoked := g'.revoked } ∧ (g.revoked.isSome → g'.revoked.isSome) ∧
          (grantOfRun run g = true → g'.revoked.isSome) := by
      intro g' hg'
      have hmem : g' ∈ grants.rows := by
        rw [hdb] at hg'
        exact hg'
      rw [hrows] at hmem
      obtain ⟨g, hg, rfl⟩ := List.mem_map.mp hmem
      refine ⟨g, hg, ?_⟩
      by_cases hlive : (grantOfRun run g && g.revoked.isNone) = true
      · simp [hlive]
      · rw [if_neg hlive]
        refine ⟨rfl, id, fun hof => ?_⟩
        cases hrevoked : g.revoked with
        | none => simp [hof, hrevoked] at hlive
        | some r => rfl
    refine ⟨?_, ?_, ?_⟩
    · intro p hp
      obtain ⟨r, hr, hheld⟩ := hinv.prepared p (hprepared ▸ hp)
      obtain ⟨r', hr', hsame⟩ := hruns _ r hr
      exact ⟨r', hr', hsame.heldBy hheld⟩
    · intro g' hg' id hkey
      obtain ⟨g, hg, hsame, -⟩ := hgrants g' hg'
      obtain ⟨r, hr, hof⟩ := hinv.owned g hg id (by rw [hsame] at hkey; exact hkey)
      obtain ⟨r', hr', h₁, h₂, h₃, -⟩ := hruns _ r hr
      refine ⟨r', hr', ?_⟩
      rw [hsame]
      simpa [grantOfRun, h₁, h₂, h₃] using hof
    · intro id r' hr' hrequested g' hg' hkey
      obtain ⟨g, hg, hsame, hkept, hrun⟩ := hgrants g' hg'
      have hkey' : g.grantKey = hermesGrantKey id := by rw [hsame] at hkey; exact hkey
      by_cases hid : run.id = id
      · obtain ⟨r, hr, hof⟩ := hinv.owned g hg id hkey'
        obtain rfl : run = r := Option.some.inj (hget.symm.trans (hid ▸ hr))
        exact hrun hof
      · rw [hset] at hr'
        have hother : s.db.hermesRuns.get? id = some r' := by
          rw [← hr']
          exact (Table.get?_set_of_ne hid).symm
        exact hkept (hinv.revoked id r' hother hrequested g hg hkey')

theorem GrantInvariant.other (hinv : GrantInvariant s) (h : LeavesHermes s.db s'.db)
    (hprepared : s'.prepared = s.prepared) : GrantInvariant s' := by
  have hruns := h.runsKept
  refine ⟨?_, ?_, ?_⟩
  · intro p hp
    obtain ⟨r, hr, hheld⟩ := hinv.prepared p (hprepared ▸ hp)
    obtain ⟨r', hr', hsame⟩ := hruns _ r hr
    exact ⟨r', hr', hsame.heldBy hheld⟩
  · intro g' hg' id hkey
    rcases h.grants g' hg' with hother | ⟨g, hg, hsame, -⟩
    · exact absurd hkey (hother id)
    · obtain ⟨r, hr, hof⟩ := hinv.owned g hg id (by rw [hsame] at hkey; exact hkey)
      obtain ⟨r', hr', h₁, h₂, h₃, -⟩ := hruns _ r hr
      refine ⟨r', hr', ?_⟩
      rw [hsame]
      simpa [grantOfRun, h₁, h₂, h₃] using hof
  · intro id run' hget' hrequested g' hg' hkey
    have hrel := h.runs id
    rw [hget'] at hrel
    cases hget : s.db.hermesRuns.get? id with
    | none => rw [hget] at hrel; cases hrel
    | some run =>
      rw [hget] at hrel
      cases hrel with
      | some hasked =>
        obtain rfl : run.id = id := Table.key_of_get? hget
        cases hbefore : run.cancellationRequestedAt with
        | none => exact h.revoked run run' hget hget' hbefore hrequested g' hg' hkey
        | some t =>
          rcases h.grants g' hg' with hother | ⟨g, hg, hsame, hkept⟩
          · exact absurd hkey (hother run.id)
          · refine hkept (hinv.revoked run.id run hget (by simp [hbefore]) g hg ?_)
            rw [hsame] at hkey
            exact hkey

/-- One step of the integration in which grants are issued in time. -/
theorem GrantInvariant.step (hinv : GrantInvariant s) (h : HermesStep rt IssuedInTime s s') :
    GrantInvariant s' := by
  have hruns := h.runsKept
  have hsame : s'.prepared = s.prepared → ∀ p ∈ s'.prepared, p ∈ s.prepared ∨
      ∃ run, s'.db.hermesRuns.get? p.2 = some run ∧ run.heldBy p.1 :=
    fun hprepared p hp => .inl (hprepared ▸ hp)
  cases h with
  | create grant runId prompt now status replayed h hprepared => exact hinv.create h hprepared
  | issue grant runId now toolGrantId id replayed hmem htime h hprepared =>
    exact hinv.issue hmem htime h hprepared
  | start grant runId externalRunId now targetId result h hprepared =>
    rcases recordStarted_ok h with hdb | ⟨run, external, targets, hget, -, hdb⟩
    · exact hinv.untouched (by rw [hdb]) hruns (cancellationsKept_of_eq (by rw [hdb]))
        (hsame hprepared)
    · obtain rfl : run.id = runId := Table.key_of_get? hget
      have hset := congrArg Database.hermesRuns hdb
      exact hinv.untouched (by rw [hdb]) hruns (cancellationsKept_set hset hget rfl rfl)
        (hsame hprepared)
  | ingest principalId runId event now taskEventId result h hprepared =>
    cases ingest_ok h with
    | replayed _ _ _ _ hdb =>
      exact hinv.untouched (by rw [hdb]) hruns (cancellationsKept_of_eq (by rw [hdb]))
        (hsame hprepared)
    | outOfOrder _ _ hdb =>
      exact hinv.untouched (by rw [hdb]) hruns (cancellationsKept_of_eq (by rw [hdb]))
        (hsame hprepared)
    | ignored _ _ _ _ _ _ _ _ _ _ hdb =>
      exact hinv.untouched (by rw [hdb]) hruns (cancellationsKept_of_eq (by rw [hdb]))
        (hsame hprepared)
    | accepted run _ _ _ _ _ _ hget _ _ _ _ _ _ _ _ hdb =>
      obtain rfl : run.id = runId := Table.key_of_get? hget
      have hset := congrArg Database.hermesRuns hdb
      exact hinv.untouched (by rw [hdb]) hruns
        (cancellationsKept_set hset hget (by simp) (by simp)) (hsame hprepared)
  | cancel runId now result h hprepared => exact hinv.cancel h hprepared
  | fail grant runId timedOut errorCode now h hprepared =>
    rcases projectDependencyFailure_ok h with hdb | ⟨run, hget, -, hdb⟩
    · exact hinv.untouched (by rw [hdb]) hruns (cancellationsKept_of_eq (by rw [hdb]))
        (hsame hprepared)
    · obtain rfl : run.id = runId := Table.key_of_get? hget
      have hset := congrArg Database.hermesRuns hdb
      exact hinv.untouched (by rw [hdb]) hruns (cancellationsKept_set hset hget rfl rfl)
        (hsame hprepared)
  | other h hprepared => exact hinv.other h hprepared

theorem FreshHermes.grantInvariant (h : FreshHermes s) : GrantInvariant s where
  prepared p hp := by
    rw [h.prepared] at hp
    cases hp
  owned g hg id hkey := absurd hkey (h.grants g hg id)
  revoked id run hget := by
    have hmem := Table.mem_of_get? hget
    rw [Table.mem_def, h.runs] at hmem
    cases hmem

end Steps

/-- In every run in which grants are issued before the cancellation, or were there, a
cancelled run holds no live grant. -/
theorem cancelledRevoked_of_run {rt : Runtime} {s : HermesState}
    (h : (hermesSystem rt IssuedInTime).Reachable s) : CancelledRevoked s.db := by
  have hinv : GrantInvariant s :=
    h.invariant (fun _ => FreshHermes.grantInvariant) fun _ _ => GrantInvariant.step
  intro run hrun hrequested g hg hkey
  exact hinv.revoked run.id run (Table.get?_key hrun) hrequested g hg hkey

/-! ### A cancellation between the two transactions -/

namespace HermesExample

def task : Task where
  id := .ofNat 1
  repository := "owner/app"
  state := .implementing
  ownerId := "owner"
  rootCorrelationId := .ofNat 7

def job : BackgroundJob where
  id := .ofNat 2
  taskId := some task.id
  jobType := "hermes-run"
  inputPayload := .obj []
  inputFingerprint := ""
  status := .running
  idempotencyKey := "k"
  attemptCount := 1
  availableAt := 0
  currentLeaseId := some (.ofNat 3)
  currentFencingToken := some 1
  leaseOwner := some "a"
  leaseExpiresAt := some (seconds 60)
  createdAt := 0
  ownerId := "owner"
  rootCorrelationId := .ofNat 7

def lease : BackgroundJobLease where
  id := .ofNat 3
  jobId := job.id
  leaseOwner := "a"
  attempt := 1
  fencingToken := 1
  idempotencyKey := "l"
  claimFingerprint := ""
  heartbeatAt := 0
  expiresAt := seconds 60

def grant : JobLeaseGrant where
  jobId := job.id
  taskId := task.id
  leaseId := lease.id
  workerId := "a"
  attempt := 1
  fencingToken := 1
  expiresAt := seconds 60
  jobType := "hermes-run"
  inputPayload := .obj []
  checkpoint := none
  checkpointVersion := 0
  recovered := false

def prompt : CompiledPrompt where
  taskId := task.id
  role := .implementer
  templateId := .ofNat 4
  templateVersion := 1
  policyVersionId := .ofNat 5
  evaluationLabel := none
  content := ""
  evidenceIds := []

def template : PromptTemplateVersion := ⟨prompt.templateId, "implementer", 1, "owner"⟩

def policy : PolicyVersion where
  id := prompt.policyVersionId
  lineageKey := "mvp"
  version := 1
  workflowThresholds := .obj []
  approvedAt := 0
  ownerId := "owner"

/-- The job runs under its lease, and no run was prepared. -/
def start : Database where
  tasks := ⟨[task], List.nodup_singleton _⟩
  policyVersions := ⟨[policy], List.nodup_singleton _⟩
  backgroundJobs := ⟨[job], List.nodup_singleton _⟩
  backgroundJobLeases := ⟨[lease], List.nodup_singleton _⟩
  promptTemplateVersions := ⟨[template], List.nodup_singleton _⟩
  policyVersionPromptTemplates := [⟨policy.id, template.id⟩]

def runId : UUID := .ofNat 6

/-- The store a transaction committed, and the one before when it failed. -/
def after {α : Type} (db : Database) (result : Except HermesError (α × Database)) : Database :=
  match result with
  | .ok (_, db) => db
  | .error _ => db

theorem eq_ok_after {α : Type} (db : Database) {result : Except HermesError (α × Database)}
    (h : result.isOk = true) : ∃ a, result = .ok (a, after db result) := by
  cases result with
  | ok r => exact ⟨r.1, rfl⟩
  | error e => cases h

def create (db : Database) : Except HermesError ((HermesRunStatus × Bool) × Database) :=
  (createRun .plain db grant runId prompt (seconds 1)).map fun r => ((r.1, r.2.1), r.2.2)

def issue (db : Database) : Except HermesError ((UUID × Bool) × Database) :=
  (issueRunGrant .plain db grant runId (seconds 2) (.ofNat 8)).map fun r => ((r.1, r.2.1), r.2.2)

def cancel (db : Database) : Except HermesError (HermesCancellationResult × Database) :=
  HermesRunService.cancel db runId (seconds 2)

def created : Database := after start (create start)
def cancelled : Database := after created (cancel created)
def issued : Database := after cancelled (issue cancelled)

/-- The other order. -/
def issuedFirst : Database := after created (issue created)
def cancelledLast : Database := after issuedFirst (cancel issuedFirst)

variable {condition : Database → JobLeaseGrant → UUID → Prop} {db : Database}
  {prepared : List (JobLeaseGrant × UUID)}

theorem create_step (h : (create db).isOk = true) :
    HermesStep .plain condition ⟨db, prepared⟩ ⟨after db (create db), (grant, runId) :: prepared⟩ := by
  cases hrun : createRun .plain db grant runId prompt (seconds 1) with
  | error e => simp [create, hrun, Except.isOk, Except.toBool, Except.map] at h
  | ok r =>
    refine .create grant runId prompt (seconds 1) r.1 r.2.1 ?_ rfl
    simp only [create, hrun, Except.map, after]

theorem issue_step (hmem : (grant, runId) ∈ prepared) (hcondition : condition db grant runId)
    (h : (issue db).isOk = true) :
    HermesStep .plain condition ⟨db, prepared⟩ ⟨after db (issue db), prepared⟩ := by
  cases hrun : issueRunGrant .plain db grant runId (seconds 2) (.ofNat 8) with
  | error e => simp [issue, hrun, Except.isOk, Except.toBool, Except.map] at h
  | ok r =>
    refine .issue grant runId (seconds 2) (.ofNat 8) r.1 r.2.1 hmem hcondition ?_ rfl
    simp only [issue, hrun, Except.map, after]

theorem cancel_step (h : (cancel db).isOk = true) :
    HermesStep .plain condition ⟨db, prepared⟩ ⟨after db (cancel db), prepared⟩ := by
  obtain ⟨result, hresult⟩ := eq_ok_after db h
  exact .cancel runId (seconds 2) result hresult rfl

theorem freshHermes_start : FreshHermes ⟨start, []⟩ where
  runs := rfl
  events := rfl
  taskEvents runId := rfl
  grants g hg := by cases hg
  prepared := rfl

set_option maxRecDepth 4000 in
theorem run_checked :
    (create start).isOk = true ∧ (cancel created).isOk = true ∧ (issue cancelled).isOk = true ∧
    (issue created).isOk = true ∧ (cancel issuedFirst).isOk = true ∧
    (issued.hermesRuns.rows.any fun run => run.id = runId && run.cancellationRequestedAt.isSome) ∧
    (issued.backgroundJobToolGrants.rows.any fun g =>
      g.grantKey = hermesGrantKey runId && g.revoked.isNone) ∧
    (created.hermesRuns.rows.all fun run => run.cancellationRequestedAt.isNone) := by
  decide +kernel

theorem reachable_created (condition : Database → JobLeaseGrant → UUID → Prop) :
    (hermesSystem .plain condition).Reachable ⟨created, [(grant, runId)]⟩ :=
  .tail (.of_init freshHermes_start) (create_step run_checked.1)

end HermesExample

open HermesExample in
/-- A cancelled run whose grant was issued after the cancellation. -/
theorem not_cancelledRevoked_issued :
    (hermesSystem .plain fun _ _ _ => True).Reachable ⟨issued, [(grant, runId)]⟩ ∧
      ¬ CancelledRevoked issued := by
  obtain ⟨-, hcancel, hissue, -, -, hrun, hgrant, -⟩ := run_checked
  have hcreated := reachable_created fun _ _ _ => True
  have hcancelled := hcreated.tail (cancel_step hcancel)
  refine ⟨hcancelled.tail (issue_step List.mem_cons_self trivial hissue), fun hrevoked => ?_⟩
  · obtain ⟨run, hrun, hrequested⟩ := List.any_eq_true.mp hrun
    obtain ⟨g, hg, hlive⟩ := List.any_eq_true.mp hgrant
    simp only [Bool.and_eq_true, decide_eq_true_eq] at hrequested hlive
    have hsome := hrevoked run hrun hrequested.2 g hg (by rw [hrequested.1, hlive.1])
    rw [Option.isSome_iff_ne_none] at hsome
    exact hsome (Option.isNone_iff_eq_none.mp hlive.2)

open HermesExample in
/-- A run that is cancelled after its grant was issued. -/
theorem cancelledRevoked_cancelledLast : CancelledRevoked cancelledLast := by
  obtain ⟨-, -, -, hissue, hcancel, -, -, huncancelled⟩ := run_checked
  have htime : IssuedInTime created grant runId := by
    refine .inr fun run hget => ?_
    simpa using List.all_eq_true.mp huncancelled run (Table.mem_of_get? hget)
  have hcreated := reachable_created IssuedInTime
  have hissued : (hermesSystem .plain IssuedInTime).Reachable ⟨issuedFirst, [(grant, runId)]⟩ :=
    hcreated.tail (issue_step List.mem_cons_self htime hissue)
  have hcancelled : (hermesSystem .plain IssuedInTime).Reachable ⟨cancelledLast, [(grant, runId)]⟩ :=
    hissued.tail (cancel_step hcancel)
  have hrevoked := cancelledRevoked_of_run hcancelled
  dsimp only at hrevoked
  exact hrevoked

end ControlPlane
