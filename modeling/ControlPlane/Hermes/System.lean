import ControlPlane.Hermes.Runs
import ControlPlane.Jobs.Fencing

/-!
# The Hermes integration over time

What each transaction of the Hermes integration writes, and the integration as a system:
its transactions in any order, with preparations that stop between their two, and the other
services in between, which fence jobs, revoke grants and ask runs to stop.
-/
namespace ControlPlane

/-! ### What a transaction writes -/

section Writes
variable {rt : Runtime} {db db' : Database} {grant : JobLeaseGrant} {runId : UUID} {now : Time}

/-- A run is created for the lease of its grant, or was there for it. -/
theorem createRun_ok {prompt : CompiledPrompt} {status : HermesRunStatus} {replayed : Bool}
    (h : createRun rt db grant runId prompt now = .ok (status, replayed, db')) :
    (∃ run, db.hermesRuns.get? runId = some run ∧ run.heldBy grant ∧ db' = db) ∨
      ∃ job lease hermesRuns, HoldsLease db grant now job lease ∧
        db.hermesRuns.insert? (newRun rt grant runId prompt job lease now) = some hermesRuns ∧
        db' = { db with hermesRuns } := by
  simp only [createRun, Except.bind_eq_ok] at h
  obtain ⟨⟨job, lease⟩, hheld, h⟩ := h
  cases hrun : db.hermesRuns.get? runId with
  | some run =>
    simp only [hrun, Except.bind_eq_ok, Except.require_eq_ok, Except.pure_eq_ok, Prod.ext_iff] at h
    obtain ⟨-, hmatches, -, -, rfl⟩ := h
    exact .inl ⟨run, rfl, hmatches.1, rfl⟩
  | none =>
    simp only [hrun, Except.bind_eq_ok, Except.require_eq_ok, Except.orThrow_eq_ok,
      Except.pure_eq_ok, Prod.ext_iff] at h
    obtain ⟨-, -, -, -, hermesRuns, hinsert, -, -, rfl⟩ := h
    exact .inr ⟨job, lease, hermesRuns, hermesLease_ok.mp hheld, hinsert, rfl⟩

theorem newRun_heldBy {prompt : CompiledPrompt} {job : BackgroundJob} {lease : BackgroundJobLease}
    (h : HoldsLease db grant now job lease) :
    (newRun rt grant runId prompt job lease now).heldBy grant :=
  ⟨rfl, Table.key_of_get? h.job_eq, Table.key_of_get? h.lease_eq, h.lease_token, rfl⟩

/-- The key of a tool grant has nothing around it to strip. -/
theorem stripped_hermesGrantKey : stripped rt (hermesGrantKey runId) = hermesGrantKey runId := by
  have hlist : (hermesGrantKey runId).toList = "hermes:".toList ++ runId.chars := by
    simp [hermesGrantKey]
  have hinert : ∀ c ∈ '-' :: UUID.hexAlphabet, rt.unicode.isSpace c = false := by
    intro c hc
    rcases List.mem_cons.mp hc with rfl | hc
    · rfl
    · have halnum : UUID.hexAlphabet.all Unicode.asciiAlnum = true := by decide
      exact rt.unicode.isSpace_eq_false_of_asciiAlnum (List.all_eq_true.mp halnum c hc)
  rw [stripped, hlist, Unicode.strip_eq_self]
  · rw [← hlist, String.ofList_toList]
  · intro c hc
    obtain rfl : 'h' = c := by simpa using hc
    exact rt.unicode.isSpace_eq_false_of_asciiAlnum rfl
  · intro c hc
    rw [List.getLast?_append_of_ne_nil _ (by intro h; simpa [h] using runId.length_chars)] at hc
    exact hinert c (UUID.mem_chars (List.mem_of_mem_getLast? hc))

/-- A tool grant is issued under the lease of its grant, or was there for it. -/
theorem issueRunGrant_ok {toolGrantId id : UUID} {replayed : Bool}
    (h : issueRunGrant rt db grant runId now toolGrantId = .ok (id, replayed, db')) :
    (toolGrantOf db grant.jobId (hermesGrantKey runId) ≠ none ∧ db' = db) ∨
      (toolGrantOf db grant.jobId (hermesGrantKey runId) = none ∧
        ∃ (scope : Json) (grants : Table BackgroundJobToolGrant),
        db.backgroundJobToolGrants.insert?
          { id := toolGrantId, jobId := grant.jobId, leaseId := grant.leaseId
            fencingToken := grant.fencingToken, grantKey := hermesGrantKey runId
            capabilityScope := scope, issuedAt := now } = some grants ∧
        db' = { db with backgroundJobToolGrants := grants }) := by
  simp only [issueRunGrant, Except.relabel_eq_ok, BackgroundJobService.issueToolGrant,
    Except.bind_eq_ok] at h
  obtain ⟨key, hkey, scope, -, ⟨job, lease⟩, hheld, h⟩ := h
  have hlease := currentLease_ok.mp hheld
  have hjob : job.id = grant.jobId := Table.key_of_get? hlease.job_eq
  obtain rfl : hermesGrantKey runId = key := by
    simp only [requiredIdentifier] at hkey
    split at hkey
    · have hstripped : stripped rt (hermesGrantKey runId) = hermesGrantKey runId :=
        stripped_hermesGrantKey
      rw [← hstripped]
      exact Except.ok.inj hkey
    · cases hkey
  cases hgrant : toolGrantOf db job.id (hermesGrantKey runId) with
  | some existing =>
    simp only [hgrant, Except.bind_eq_ok, Except.require_eq_ok, Except.pure_eq_ok,
      Prod.ext_iff] at h
    obtain ⟨-, -, -, -, rfl⟩ := h
    exact .inl ⟨by rw [← hjob, hgrant]; exact Option.some_ne_none _, rfl⟩
  | none =>
    simp only [hgrant, Except.bind_eq_ok, Except.orThrow_eq_ok, Except.pure_eq_ok,
      Prod.ext_iff] at h
    obtain ⟨grants, hinsert, -, -, rfl⟩ := h
    refine .inr ⟨by rw [← hjob, hgrant], scope, grants, ?_, rfl⟩
    have hid : lease.id = grant.leaseId := Table.key_of_get? hlease.lease_eq
    rw [← hinsert, hjob, hid, hlease.lease_token]

theorem runForGrant_ok {run : HermesRun} (h : runForGrant db runId grant = .ok run) :
    db.hermesRuns.get? runId = some run ∧ run.heldBy grant := by
  simp only [runForGrant, Except.bind_eq_ok, Except.orThrow_eq_ok, Except.require_eq_ok,
    Except.pure_eq_ok] at h
  obtain ⟨run', hrun, -, hheld, rfl⟩ := h
  exact ⟨hrun, hheld⟩

/-- A run is started from the state it was created in. -/
theorem recordStarted_ok {externalRunId : String} {targetId : UUID} {result : HermesRunResult}
    (h : HermesRunService.recordStarted rt db grant runId externalRunId now targetId =
      .ok (result, db')) :
    db' = db ∨ ∃ run external targets, db.hermesRuns.get? runId = some run ∧
      run.status = .starting ∧
      db' = { db with
        hermesRuns := db.hermesRuns.set
          { run with externalRunId := some external, status := .running }
        reconciliationTargets := targets } := by
  simp only [HermesRunService.recordStarted, Except.bind_eq_ok] at h
  obtain ⟨external, -, -, -, run, hrun, tool, -, h⟩ := h
  cases hknown : run.externalRunId with
  | some known =>
    simp only [hknown, Except.bind_eq_ok, Except.require_eq_ok, Except.pure_eq_ok,
      Prod.ext_iff] at h
    obtain ⟨-, -, -, rfl⟩ := h
    exact .inl rfl
  | none =>
    simp only [hknown, Except.bind_eq_ok, Except.require_eq_ok, Except.pure_eq_ok,
      Prod.ext_iff] at h
    obtain ⟨-, hstatus, -, -, db₁, htarget, -, rfl⟩ := h
    refine .inr ⟨run, external, db₁.reconciliationTargets, (runForGrant_ok hrun).1, hstatus, ?_⟩
    unfold addRunTarget at htarget
    split at htarget
    · simp only [Except.bind_eq_ok, Except.pure_eq_ok] at htarget
      obtain ⟨-, -, rfl⟩ := htarget
      rfl
    · simp only [Except.bind_eq_ok, Except.pure_eq_ok] at htarget
      obtain ⟨targets, -, rfl⟩ := htarget
      rfl

theorem keepEventEvidence_ok {principalId : String} {run : HermesRun} {event : HermesProviderEvent}
    {payload : Json} {evidenceId : UUID}
    (h : keepEventEvidence rt db principalId run event payload now = .ok (evidenceId, db')) :
    ∃ records, db' = { db with evidenceRecords := records } := by
  simp only [keepEventEvidence] at h
  split at h
  · simp only [Except.bind_eq_ok, Except.relabel_eq_ok, Except.pure_eq_ok, Prod.ext_iff] at h
    obtain ⟨⟨captured, db₁⟩, hcapture, -, rfl⟩ := h
    obtain ⟨records, -, rfl⟩ := captureEvidence_ok hcapture rfl
    exact ⟨records, rfl⟩
  · simp only [Except.bind_eq_ok, Except.relabel_eq_ok, Except.pure_eq_ok, Prod.ext_iff] at h
    obtain ⟨loaded, -, -, -, -, rfl⟩ := h
    exact ⟨_, rfl⟩

/-- The row records an event: its sequence, its type and its fingerprint. -/
structure HermesRunEvent.records (rt : Runtime) (e : HermesRunEvent) (event : HermesProviderEvent) :
    Prop where
  sequence : e.providerSequence = event.sequence
  eventType : e.eventType = event.eventType.value
  fingerprint : e.payloadFingerprint = eventFingerprint rt event event.payload

theorem deliveredEvent_records (rt : Runtime) (run : HermesRun) (event : HermesProviderEvent)
    (evidenceId : UUID) (ignored : Option String) (now : Time) (taskEventId : UUID) :
    (deliveredEvent rt run event event.payload evidenceId ignored now taskEventId).records rt event :=
  ⟨rfl, rfl, rfl⟩

/-- What an event of the provider does: nothing when it was recorded before, or it came out
of its order; otherwise it is recorded, ignored or accepted. -/
inductive Ingested (rt : Runtime) (db : Database) (runId : UUID) (event : HermesProviderEvent)
    (now : Time) (result : HermesEventResult) (db' : Database) : Prop
  | replayed (existing : HermesRunEvent)
      (hexisting : eventOfProvider db runId event.providerEventId = some existing)
      (hsame : existing.records rt event)
      (hresult : result = eventResult existing true) (hdb : db' = db)
  | outOfOrder (records : Table EvidenceRecord)
      (hresult : result.ignoredReason = some "OUT_OF_ORDER")
      (hdb : db' = { db with evidenceRecords := records })
  | ignored (delivery : HermesRunEvent) (records : Table EvidenceRecord)
      (events : Table HermesRunEvent)
      (hrun : delivery.runId = runId) (hprovider : delivery.providerEventId = event.providerEventId)
      (hsame : delivery.records rt event) (haccepted : delivery.accepted = false)
      (hresult : result = eventResult delivery false)
      (hnew : eventOfProvider db runId event.providerEventId = none)
      (hinsert : db.hermesRunEvents.insert? delivery = some events)
      (hdb : db' = { db with evidenceRecords := records, hermesRunEvents := events })
  | accepted (run : HermesRun) (delivery : HermesRunEvent) (records : Table EvidenceRecord)
      (events : Table HermesRunEvent) (taskEvent : TaskEvent) (taskEvents : Table TaskEvent)
      (references : List TaskEventEvidenceReference)
      (hget : db.hermesRuns.get? runId = some run)
      (hlive : run.cancellationRequestedAt = none ∧ run.status.isTerminal = false)
      (hfence : runFenceCurrent db run now = true)
      (hsequence : event.sequence = run.lastEventSequence + 1)
      (hnew : eventOfProvider db runId event.providerEventId = none)
      (hdelivery : ∃ evidenceId, delivery =
          deliveredEvent rt run event event.payload evidenceId none now taskEvent.id ∧
        ∃ db₁ : Database, db₁.taskEvents = db.taskEvents ∧
          taskEvent = hermesTaskEvent db₁ run event evidenceId now taskEvent.id)
      (hresult : result = eventResult delivery false)
      (hinsert : db.hermesRunEvents.insert? delivery = some events)
      (htask : db.taskEvents.insert? taskEvent = some taskEvents)
      (hdb : db' = { db with
        evidenceRecords := records, hermesRunEvents := events, taskEvents := taskEvents
        taskEventEvidenceReferences := references
        hermesRuns := db.hermesRuns.set (run.afterEvent rt event event.payload now) })

theorem ignoredReason_eq_none {run : HermesRun} {event : HermesProviderEvent}
    (h : ignoredReason db run event now = none) :
    (run.cancellationRequestedAt = none ∧ run.status.isTerminal = false) ∧
      runFenceCurrent db run now = true ∧ event.sequence = run.lastEventSequence + 1 := by
  simp only [ignoredReason] at h
  split at h
  · cases h
  · split at h
    · cases h
    · rename_i hlive
      split at h
      · cases h
      · rename_i hfence
        split at h
        · cases h
        · rename_i hsequence
          simp only [not_or, Bool.not_eq_true, Option.isSome_eq_false_iff,
            Option.isNone_iff_eq_none] at hlive
          exact ⟨hlive, by simpa using hfence, not_not.mp hsequence⟩

theorem ingest_ok {principalId : String} {event : HermesProviderEvent} {taskEventId : UUID}
    {result : HermesEventResult}
    (h : HermesRunService.ingest rt db principalId runId event now taskEventId =
      .ok (result, db')) : Ingested rt db runId event now result db' := by
  simp only [HermesRunService.ingest, Except.bind_eq_ok, Except.orThrow_eq_ok] at h
  obtain ⟨payload, hpayload, run, hrun, h⟩ := h
  obtain rfl : event.payload = payload := by
    simp only [boundedPayload, Except.bind_eq_ok, Except.pure_eq_ok] at hpayload
    obtain ⟨_, _, hpayload⟩ := hpayload
    exact hpayload
  obtain rfl : run.id = runId := Table.key_of_get? hrun
  cases hexisting : eventOfProvider db run.id event.providerEventId with
  | some existing =>
    simp only [hexisting, Except.bind_eq_ok, Except.require_eq_ok, Except.pure_eq_ok,
      Prod.ext_iff] at h
    obtain ⟨-, ⟨h₁, h₂, h₃⟩, hresult, rfl⟩ := h
    exact .replayed existing hexisting ⟨h₁, h₂, h₃⟩ hresult.symm rfl
  | none =>
    simp only [hexisting, Except.bind_eq_ok, Except.require_eq_ok, recordHermesEvent] at h
    obtain ⟨-, -, ⟨evidenceId, db₁⟩, hevidence, h⟩ := h
    obtain ⟨records, rfl⟩ := keepEventEvidence_ok hevidence
    cases hignored : ignoredReason { db with evidenceRecords := records } run event now with
    | some reason =>
      by_cases horder : reason = "OUT_OF_ORDER"
      · subst horder
        simp only [hignored, if_true, Except.pure_eq_ok, Prod.ext_iff] at h
        obtain ⟨hresult, rfl⟩ := h
        exact .outOfOrder records (by rw [← hresult]) rfl
      · have hother : ¬ some reason = some "OUT_OF_ORDER" := fun heq => horder (Option.some.inj heq)
        simp only [hignored, hother, if_false, Except.bind_eq_ok, Except.orThrow_eq_ok,
          Except.pure_eq_ok, Except.ok.injEq, exists_eq_left', Prod.ext_iff] at h
        obtain ⟨events, hinsert, hresult, rfl⟩ := h
        exact .ignored _ records events rfl rfl (deliveredEvent_records ..) rfl hresult.symm hexisting
          hinsert rfl
    | none =>
      have hother : ¬ (none : Option String) = some "OUT_OF_ORDER" := by simp
      simp only [hignored, hother, if_false, appendHermesEvent, Except.bind_eq_ok,
        Except.orThrow_eq_ok, Except.require_eq_ok, Except.pure_eq_ok, Prod.ext_iff] at h
      obtain ⟨_, ⟨-, -, taskEvents, htask, rfl⟩, events, hinsert, hresult, rfl⟩ := h
      obtain ⟨hlive, hfence, hsequence⟩ := ignoredReason_eq_none hignored
      exact .accepted run _ records events
        (hermesTaskEvent { db with evidenceRecords := records } run event evidenceId now
          taskEventId) taskEvents _ hrun hlive hfence hsequence hexisting
        ⟨evidenceId, rfl, _, rfl, rfl⟩ hresult.symm hinsert htask rfl

/-- A cancellation is a repeated one, or revokes every grant of the lease of the run. -/
theorem cancel_ok {result : HermesCancellationResult}
    (h : HermesRunService.cancel db runId now = .ok (result, db')) :
    (∃ run, db.hermesRuns.get? runId = some run ∧ run.cancellationRequestedAt.isSome ∧ db' = db) ∨
      ∃ run grants, db.hermesRuns.get? runId = some run ∧
        (run.status = .starting ∨ run.status = .running ∨ run.status = .cancelled) ∧
        grants.rows = db.backgroundJobToolGrants.rows.map (fun g =>
          if (grantOfRun run g && g.revoked.isNone) = true then
            { g with revoked := some (now, "HERMES_RUN_CANCELLED") } else g) ∧
        db' = { db with
          backgroundJobToolGrants := grants
          hermesRuns := db.hermesRuns.set
            { run with cancellationRequestedAt := some now, status := .cancelled
                       completedAt := some now } } := by
  simp only [HermesRunService.cancel, Except.bind_eq_ok, Except.orThrow_eq_ok] at h
  obtain ⟨run, hrun, h⟩ := h
  by_cases hrequested : run.cancellationRequestedAt.isSome = true
  · simp only [hrequested, if_true, Except.pure_eq_ok, Prod.ext_iff] at h
    obtain ⟨-, rfl⟩ := h
    exact .inl ⟨run, hrun, hrequested, rfl⟩
  · simp only [hrequested, if_false, Bool.false_eq_true, Except.bind_eq_ok, Except.require_eq_ok,
      Except.pure_eq_ok, Prod.ext_iff] at h
    obtain ⟨-, hstatus, -, rfl⟩ := h
    have hrevoked := Table.rows_foldl_set_select (t := db.backgroundJobToolGrants)
      (f := fun g => { g with revoked := some (now, "HERMES_RUN_CANCELLED") }) (fun _ => rfl)
      (.refl (db.backgroundJobToolGrants.select fun g => grantOfRun run g && g.revoked.isNone))
    refine .inr ⟨run, _, hrun, ?_, hrevoked, rfl⟩
    cases hcase : run.status <;> simp_all

theorem projectDependencyFailure_ok {targetStatus : HermesRunStatus} {errorCode : String}
    (h : projectDependencyFailure db grant runId targetStatus errorCode now = .ok db') :
    db' = db ∨ ∃ run, db.hermesRuns.get? runId = some run ∧ run.status.isTerminal = false ∧
      db' = { db with
        hermesRuns := db.hermesRuns.set
          { run with status := targetStatus, failureCode := some errorCode
                     completedAt := some now } } := by
  simp only [projectDependencyFailure, Except.bind_eq_ok] at h
  obtain ⟨run, hrun, h⟩ := h
  by_cases hlive : run.status = .starting ∨ run.status = .running
  · simp only [hlive, if_true, Except.pure_eq_ok] at h
    refine .inr ⟨run, (runForGrant_ok hrun).1, ?_, h.symm⟩
    rcases hlive with hstatus | hstatus <;> simp [hstatus, HermesRunStatus.isTerminal]
  · simp only [hlive, if_false, Except.bind_eq_ok, Except.pure_eq_ok] at h
    obtain ⟨-, -, rfl⟩ := h
    exact .inl rfl

end Writes

/-! ### The system -/

/-- The task events that came from accepted events of a run. -/
def hermesTaskEventsOf (db : Database) (runId : UUID) : List TaskEvent :=
  db.taskEvents.select fun e =>
    e.eventType = "HERMES_EVENT" && sameRunId (e.payload.get "run_id") runId
where
  /-- The run a payload names. -/
  sameRunId : Json → UUID → Bool
    | .str s, runId => s = runId.str
    | _, _ => false

/-- The accepted events of a run, in the order in which they were recorded. -/
def acceptedEvents (db : Database) (runId : UUID) : List HermesRunEvent :=
  db.hermesRunEvents.select fun e => e.runId = runId && e.accepted

/-- A run that was at most asked to stop. -/
structure HermesRun.AskedToStop (run run' : HermesRun) : Prop where
  same : run' = { run with cancellationRequestedAt := run'.cancellationRequestedAt }
  kept : run.cancellationRequestedAt.isSome →
    run'.cancellationRequestedAt = run.cancellationRequestedAt

/-- What other services do: jobs and leases change as the job service writes them; runs are
at most asked to stop, with their grants revoked in the same transaction, as a change of
scope does; grants are at most revoked, and none is issued under the key of a run. -/
structure LeavesHermes (db db' : Database) : Prop where
  work : Touches db db'
  runs : ∀ id, Option.Rel HermesRun.AskedToStop (db.hermesRuns.get? id) (db'.hermesRuns.get? id)
  events : db'.hermesRunEvents = db.hermesRunEvents
  taskEvents : ∀ runId, hermesTaskEventsOf db' runId = hermesTaskEventsOf db runId
  grants : ∀ g' ∈ db'.backgroundJobToolGrants, (∀ id, g'.grantKey ≠ hermesGrantKey id) ∨
    ∃ g ∈ db.backgroundJobToolGrants, g' = { g with revoked := g'.revoked } ∧
      (g.revoked.isSome → g'.revoked.isSome)
  revoked : ∀ run run', db.hermesRuns.get? run.id = some run →
    db'.hermesRuns.get? run.id = some run' → run.cancellationRequestedAt = none →
    run'.cancellationRequestedAt.isSome →
      ∀ g ∈ db'.backgroundJobToolGrants, g.grantKey = hermesGrantKey run.id → g.revoked.isSome

/-- The store, and the preparations that committed their first transaction. -/
structure HermesState where
  db : Database
  prepared : List (JobLeaseGrant × UUID)

/-- The transactions of the integration; a condition restricts when a preparation may issue
its grant. A preparation that stops in between leaves its run behind, and the transactions
of a failing dependency other than the last are the job service's. -/
inductive HermesStep (rt : Runtime) (condition : Database → JobLeaseGrant → UUID → Prop)
    (s s' : HermesState) : Prop
  | create (grant : JobLeaseGrant) (runId : UUID) (prompt : CompiledPrompt) (now : Time)
      (status : HermesRunStatus) (replayed : Bool)
      (h : createRun rt s.db grant runId prompt now = .ok (status, replayed, s'.db))
      (hprepared : s'.prepared = (grant, runId) :: s.prepared)
  | issue (grant : JobLeaseGrant) (runId : UUID) (now : Time) (toolGrantId id : UUID)
      (replayed : Bool) (hmem : (grant, runId) ∈ s.prepared)
      (hcondition : condition s.db grant runId)
      (h : issueRunGrant rt s.db grant runId now toolGrantId = .ok (id, replayed, s'.db))
      (hprepared : s'.prepared = s.prepared)
  | start (grant : JobLeaseGrant) (runId : UUID) (externalRunId : String) (now : Time)
      (targetId : UUID) (result : HermesRunResult)
      (h : HermesRunService.recordStarted rt s.db grant runId externalRunId now targetId =
        .ok (result, s'.db))
      (hprepared : s'.prepared = s.prepared)
  | ingest (principalId : String) (runId : UUID) (event : HermesProviderEvent) (now : Time)
      (taskEventId : UUID) (result : HermesEventResult)
      (h : HermesRunService.ingest rt s.db principalId runId event now taskEventId =
        .ok (result, s'.db))
      (hprepared : s'.prepared = s.prepared)
  | cancel (runId : UUID) (now : Time) (result : HermesCancellationResult)
      (h : HermesRunService.cancel s.db runId now = .ok (result, s'.db))
      (hprepared : s'.prepared = s.prepared)
  | fail (grant : JobLeaseGrant) (runId : UUID) (timedOut : Bool) (errorCode : String)
      (now : Time)
      (h : projectDependencyFailure s.db grant runId (failureStatus timedOut) errorCode now =
        .ok s'.db)
      (hprepared : s'.prepared = s.prepared)
  | other (h : LeavesHermes s.db s'.db) (hprepared : s'.prepared = s.prepared)

/-- A store without runs, and without anything that names one. -/
structure FreshHermes (s : HermesState) : Prop where
  runs : s.db.hermesRuns.rows = []
  events : s.db.hermesRunEvents.rows = []
  taskEvents : ∀ runId, hermesTaskEventsOf s.db runId = []
  grants : ∀ g ∈ s.db.backgroundJobToolGrants, ∀ id, g.grantKey ≠ hermesGrantKey id
  prepared : s.prepared = []

def hermesSystem (rt : Runtime) (condition : Database → JobLeaseGrant → UUID → Prop) :
    TransitionSystem HermesState where
  init := FreshHermes
  step := HermesStep rt condition

theorem hermesGrantKey_injective : Function.Injective hermesGrantKey := by
  intro a b h
  have hlist := congrArg String.toList h
  simp only [hermesGrantKey, String.toList_append, UUID.toList_str] at hlist
  exact UUID.chars_injective (List.append_cancel_left hlist)

/-! ### What happens to a run -/

/-- The same run, of the same lease. -/
def HermesRun.SameLease (run run' : HermesRun) : Prop :=
  run'.jobId = run.jobId ∧ run'.leaseId = run.leaseId ∧ run'.fencingToken = run.fencingToken ∧
    run'.taskId = run.taskId ∧ run'.attempt = run.attempt

theorem HermesRun.SameLease.heldBy {run run' : HermesRun} {grant : JobLeaseGrant}
    (h : run.SameLease run') (hheld : run.heldBy grant) : run'.heldBy grant := by
  obtain ⟨h₁, h₂, h₃, h₄, h₅⟩ := h
  obtain ⟨g₁, g₂, g₃, g₄, g₅⟩ := hheld
  exact ⟨h₄.trans g₁, h₁.trans g₂, h₂.trans g₃, h₃.trans g₄, h₅.trans g₅⟩

theorem HermesRun.AskedToStop.sameLease {run run' : HermesRun} (h : run.AskedToStop run') :
    run.SameLease run' := by
  rw [h.same]
  exact ⟨rfl, rfl, rfl, rfl, rfl⟩

@[simp] theorem HermesRun.id_afterEvent (rt : Runtime) (run : HermesRun)
    (event : HermesProviderEvent) (payload : Json) (now : Time) :
    (run.afterEvent rt event payload now).id = run.id := by
  simp only [afterEvent]
  cases event.eventType <;> rfl

theorem HermesRun.sameLease_afterEvent (rt : Runtime) (run : HermesRun)
    (event : HermesProviderEvent) (payload : Json) (now : Time) :
    run.SameLease (run.afterEvent rt event payload now) := by
  simp only [afterEvent]
  cases event.eventType <;> exact ⟨rfl, rfl, rfl, rfl, rfl⟩

@[simp] theorem HermesRun.cancellation_afterEvent (rt : Runtime) (run : HermesRun)
    (event : HermesProviderEvent) (payload : Json) (now : Time) :
    (run.afterEvent rt event payload now).cancellationRequestedAt =
      run.cancellationRequestedAt := by
  simp only [afterEvent]
  cases event.eventType <;> rfl

@[simp] theorem HermesRun.last_afterEvent (rt : Runtime) (run : HermesRun)
    (event : HermesProviderEvent) (payload : Json) (now : Time) :
    (run.afterEvent rt event payload now).lastEventSequence = event.sequence := by
  simp only [afterEvent]
  cases event.eventType <;> rfl

/-- One run rewritten. -/
theorem get?_set_run {db : Database} {run run' : HermesRun}
    (hget : db.hermesRuns.get? run.id = some run) (hid : run'.id = run.id) (id : UUID) :
    (db.hermesRuns.set run').get? id =
      if run.id = id then some run' else db.hermesRuns.get? id := by
  rw [Table.get?_set, show key run' = run'.id from rfl, hid]
  by_cases h : run.id = id
  · subst h
    simp [hget]
  · simp [h]

/-- Runs stay, with their lease. -/
def RunsKept (db db' : Database) : Prop :=
  ∀ id run, db.hermesRuns.get? id = some run →
    ∃ run', db'.hermesRuns.get? id = some run' ∧ run.SameLease run'

section Kept
variable {rt : Runtime} {condition : Database → JobLeaseGrant → UUID → Prop}
  {s s' : HermesState} {db db' : Database}

theorem HermesRun.SameLease.refl (run : HermesRun) : run.SameLease run := ⟨rfl, rfl, rfl, rfl, rfl⟩

theorem runsKept_of_eq (h : db'.hermesRuns = db.hermesRuns) : RunsKept db db' :=
  fun _ run hget => ⟨run, by rw [h, hget], .refl run⟩

theorem runsKept_set {run run' : HermesRun} (h : db'.hermesRuns = db.hermesRuns.set run')
    (hget : db.hermesRuns.get? run.id = some run) (hid : run'.id = run.id)
    (hsame : run.SameLease run') : RunsKept db db' := by
  intro id r hr
  rw [h, get?_set_run hget hid]
  by_cases hrun : run.id = id
  · obtain rfl : run = r := Option.some.inj (hget.symm.trans (hrun ▸ hr))
    exact ⟨run', if_pos hrun, hsame⟩
  · exact ⟨r, by rw [if_neg hrun, hr], .refl r⟩

theorem runsKept_insert {run : HermesRun} {runs : Table HermesRun}
    (hinsert : db.hermesRuns.insert? run = some runs) (h : db'.hermesRuns = runs) :
    RunsKept db db' := by
  intro id r hr
  have hne : run.id ≠ id := by
    rintro rfl
    have hnone := (Table.insert?_eq_some.mp hinsert).1
    rw [show key run = run.id from rfl, hr] at hnone
    cases hnone
  exact ⟨r, by rw [h, Table.get?_insert? hinsert, if_neg (show ¬ key run = id from hne), hr],
    .refl r⟩

/-- A run after what other services do. -/
theorem LeavesHermes.run (h : LeavesHermes db db') {id : UUID} {run : HermesRun}
    (hget : db.hermesRuns.get? id = some run) :
    ∃ run', db'.hermesRuns.get? id = some run' ∧ run.AskedToStop run' := by
  have hrel := h.runs id
  rw [hget] at hrel
  cases hget' : db'.hermesRuns.get? id with
  | none => rw [hget'] at hrel; cases hrel
  | some run' =>
    rw [hget'] at hrel
    cases hrel with
    | some hasked => exact ⟨run', rfl, hasked⟩

theorem LeavesHermes.runsKept (h : LeavesHermes db db') : RunsKept db db' := by
  intro id run hget
  obtain ⟨run', hget', hasked⟩ := h.run hget
  exact ⟨run', hget', hasked.sameLease⟩

/-- No step removes a run or changes its lease. -/
theorem HermesStep.runsKept (h : HermesStep rt condition s s') : RunsKept s.db s'.db := by
  cases h with
  | create grant runId prompt now status replayed h =>
    rcases createRun_ok h with ⟨run, -, -, hdb⟩ | ⟨job, lease, runs, -, hinsert, hdb⟩
    · exact runsKept_of_eq (by rw [hdb])
    · exact runsKept_insert hinsert (by rw [hdb])
  | issue grant runId now toolGrantId id replayed _ _ h =>
    rcases issueRunGrant_ok h with ⟨-, hdb⟩ | ⟨-, scope, grants, -, hdb⟩
    · exact runsKept_of_eq (by rw [hdb])
    · exact runsKept_of_eq (by rw [hdb])
  | start grant runId externalRunId now targetId result h =>
    rcases recordStarted_ok h with hdb | ⟨run, external, targets, hget, -, hdb⟩
    · exact runsKept_of_eq (by rw [hdb])
    · obtain rfl : run.id = runId := Table.key_of_get? hget
      have hset := congrArg Database.hermesRuns hdb
      exact runsKept_set hset hget rfl ⟨rfl, rfl, rfl, rfl, rfl⟩
  | ingest principalId runId event now taskEventId result h =>
    cases ingest_ok h with
    | replayed _ _ _ _ hdb => exact runsKept_of_eq (by rw [hdb])
    | outOfOrder _ _ hdb => exact runsKept_of_eq (by rw [hdb])
    | ignored _ _ _ _ _ _ _ _ _ _ hdb => exact runsKept_of_eq (by rw [hdb])
    | accepted run _ _ _ _ _ _ hget _ _ _ _ _ _ _ _ hdb =>
      obtain rfl : run.id = runId := Table.key_of_get? hget
      have hset := congrArg Database.hermesRuns hdb
      exact runsKept_set hset hget (by simp) (run.sameLease_afterEvent rt event event.payload now)
  | cancel runId now result h =>
    rcases cancel_ok h with ⟨run, -, -, hdb⟩ | ⟨run, grants, hget, -, -, hdb⟩
    · exact runsKept_of_eq (by rw [hdb])
    · obtain rfl : run.id = runId := Table.key_of_get? hget
      have hset := congrArg Database.hermesRuns hdb
      exact runsKept_set hset hget rfl ⟨rfl, rfl, rfl, rfl, rfl⟩
  | fail grant runId timedOut errorCode now h =>
    rcases projectDependencyFailure_ok h with hdb | ⟨run, hget, -, hdb⟩
    · exact runsKept_of_eq (by rw [hdb])
    · obtain rfl : run.id = runId := Table.key_of_get? hget
      have hset := congrArg Database.hermesRuns hdb
      exact runsKept_set hset hget rfl ⟨rfl, rfl, rfl, rfl, rfl⟩
  | other h => exact h.runsKept

end Kept

end ControlPlane
