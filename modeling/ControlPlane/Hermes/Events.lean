import ControlPlane.Hermes.Grants

/-!
# The events of a run

Over any interleaving of preparations, starts, events of the provider (repeated, out of
order, forged or late), cancellations, failures and losses of the lease: the accepted events
of a run are numbered without a gap up to the last sequence of the run, each led to one
event of the task, a run that ended stays as it ended and accepts nothing, and neither does
a run whose lease its job does not name any more.
-/
namespace ControlPlane

/-- The task event an accepted event led to. -/
structure TaskEventFor (t : TaskEvent) (e : HermesRunEvent) : Prop where
  id : e.taskEventId = some t.id
  sequence : t.payload.get "provider_sequence" = .int e.providerSequence
  eventType : t.payload.get "event_type" = .str e.eventType
  evidence : t.payload.get "evidence_id" = .str e.payloadEvidenceId.str

/-- The last sequence accepted for a run. -/
def lastSequence (db : Database) (runId : UUID) : ℕ :=
  ((db.hermesRuns.get? runId).map HermesRun.lastEventSequence).getD 0

/-- The job of a run names the lease of the run. -/
def LeaseNamed (db : Database) (run : HermesRun) : Prop :=
  (leaseView db).current run.jobId = some run.leaseId

structure EventInvariant (db : Database) : Prop where
  sequences : ∀ runId, (acceptedEvents db runId).map HermesRunEvent.providerSequence =
    List.range' 1 (lastSequence db runId)
  taskEvents : ∀ runId,
    List.Forall₂ TaskEventFor (hermesTaskEventsOf db runId) (acceptedEvents db runId)
  providers : ∀ a ∈ db.hermesRunEvents, ∀ b ∈ db.hermesRunEvents, a.runId = b.runId →
    a.providerEventId = b.providerEventId → a = b
  leased : ∀ id run, db.hermesRuns.get? id = some run →
    ∃ l ∈ (leaseView db).leases, l.id = run.leaseId

/-! ### What a step does to the events -/

/-- What a step does to the accepted events of a run: nothing, or it accepts the next one
while the run is live and its lease is current. -/
inductive Accepts (db : Database) (runId : UUID) (db' : Database) : Prop
  | nothing (h : acceptedEvents db' runId = acceptedEvents db runId)
  | next (run : HermesRun) (e : HermesRunEvent) (now : Time)
      (hget : db.hermesRuns.get? runId = some run)
      (hlive : run.cancellationRequestedAt = none ∧ run.status.isTerminal = false)
      (hfence : runFenceCurrent db run now = true)
      (hsequence : e.providerSequence = run.lastEventSequence + 1)
      (h : acceptedEvents db' runId = acceptedEvents db runId ++ [e])

section Steps
variable {rt : Runtime} {condition : Database → JobLeaseGrant → UUID → Prop}
  {s s' : HermesState} {db db' : Database}

theorem acceptedEvents_congr (h : db'.hermesRunEvents = db.hermesRunEvents) (runId : UUID) :
    acceptedEvents db' runId = acceptedEvents db runId := by
  simp only [acceptedEvents, h]

theorem acceptedEvents_insert {e : HermesRunEvent} {events : Table HermesRunEvent}
    (hinsert : db.hermesRunEvents.insert? e = some events) (h : db'.hermesRunEvents = events)
    (runId : UUID) :
    acceptedEvents db' runId =
      acceptedEvents db runId ++ if e.runId = runId ∧ e.accepted = true then [e] else [] := by
  simp only [acceptedEvents, Table.select, h, (Table.insert?_eq_some.mp hinsert).2,
    List.filter_append]
  by_cases hrun : e.runId = runId
  · by_cases haccepted : e.accepted = true <;> simp [hrun, haccepted]
  · simp [hrun]

theorem lastSequence_congr (h : db'.hermesRuns = db.hermesRuns) (runId : UUID) :
    lastSequence db' runId = lastSequence db runId := by
  simp only [lastSequence, h]

theorem lastSequence_set {run run' : HermesRun} (h : db'.hermesRuns = db.hermesRuns.set run')
    (hget : db.hermesRuns.get? run.id = some run) (hid : run'.id = run.id) (runId : UUID) :
    lastSequence db' runId =
      if run.id = runId then run'.lastEventSequence else lastSequence db runId := by
  simp only [lastSequence, h, get?_set_run hget hid]
  by_cases hrun : run.id = runId <;> simp [hrun]

/-- A run rewritten without its last sequence. -/
theorem lastSequence_set_same {run run' : HermesRun}
    (h : db'.hermesRuns = db.hermesRuns.set run')
    (hget : db.hermesRuns.get? run.id = some run) (hid : run'.id = run.id)
    (hlast : run'.lastEventSequence = run.lastEventSequence) (runId : UUID) :
    lastSequence db' runId = lastSequence db runId := by
  rw [lastSequence_set h hget hid]
  by_cases hrun : run.id = runId
  · rw [if_pos hrun, hlast]
    simp [lastSequence, ← hrun, hget]
  · rw [if_neg hrun]

/-- The integration leaves jobs and leases to the job service. -/
theorem HermesStep.leases (h : HermesStep rt condition s s') :
    Relation.ReflTransGen FencedLease.Step (leaseView s.db) (leaseView s'.db) := by
  have hsame : s'.db.backgroundJobs = s.db.backgroundJobs →
      s'.db.backgroundJobLeases = s.db.backgroundJobLeases →
      s'.db.fencingCounter = s.db.fencingCounter →
      Relation.ReflTransGen FencedLease.Step (leaseView s.db) (leaseView s'.db) := by
    intro hjobs hleases hcounter
    have heq : leaseView s'.db = leaseView s.db := by
      simp only [leaseView, hjobs, hleases, hcounter]
    rw [heq]
  cases h with
  | create grant runId prompt now status replayed h =>
    rcases createRun_ok h with ⟨run, -, -, hdb⟩ | ⟨job, lease, runs, -, -, hdb⟩
    · exact hsame (by rw [hdb]) (by rw [hdb]) (by rw [hdb])
    · exact hsame (by rw [hdb]) (by rw [hdb]) (by rw [hdb])
  | issue grant runId now toolGrantId id replayed _ _ h =>
    rcases issueRunGrant_ok h with ⟨-, hdb⟩ | ⟨-, scope, grants, -, hdb⟩
    · exact hsame (by rw [hdb]) (by rw [hdb]) (by rw [hdb])
    · exact hsame (by rw [hdb]) (by rw [hdb]) (by rw [hdb])
  | start grant runId externalRunId now targetId result h =>
    rcases recordStarted_ok h with hdb | ⟨run, external, targets, -, -, hdb⟩
    · exact hsame (by rw [hdb]) (by rw [hdb]) (by rw [hdb])
    · exact hsame (by rw [hdb]) (by rw [hdb]) (by rw [hdb])
  | ingest principalId runId event now taskEventId result h =>
    cases ingest_ok h with
    | replayed _ _ _ _ hdb => exact hsame (by rw [hdb]) (by rw [hdb]) (by rw [hdb])
    | outOfOrder _ _ hdb => exact hsame (by rw [hdb]) (by rw [hdb]) (by rw [hdb])
    | ignored _ _ _ _ _ _ _ _ _ _ hdb => exact hsame (by rw [hdb]) (by rw [hdb]) (by rw [hdb])
    | accepted _ _ _ _ _ _ _ _ _ _ _ _ _ _ _ _ hdb =>
      exact hsame (by rw [hdb]) (by rw [hdb]) (by rw [hdb])
  | cancel runId now result h =>
    rcases cancel_ok h with ⟨run, -, -, hdb⟩ | ⟨run, grants, -, -, -, hdb⟩
    · exact hsame (by rw [hdb]) (by rw [hdb]) (by rw [hdb])
    · exact hsame (by rw [hdb]) (by rw [hdb]) (by rw [hdb])
  | fail grant runId timedOut errorCode now h =>
    rcases projectDependencyFailure_ok h with hdb | ⟨run, -, -, hdb⟩
    · exact hsame (by rw [hdb]) (by rw [hdb]) (by rw [hdb])
    · exact hsame (by rw [hdb]) (by rw [hdb]) (by rw [hdb])
  | other h => exact h.work.refines

/-- Leases of runs exist: those of the runs before do, and a new run has the current one. -/
theorem HermesStep.leased (h : HermesStep rt condition s s')
    (hleased : ∀ id run, s.db.hermesRuns.get? id = some run →
      ∃ l ∈ (leaseView s.db).leases, l.id = run.leaseId)
    (hfrom : ∀ id run', s'.db.hermesRuns.get? id = some run' →
      (∃ run, s.db.hermesRuns.get? id = some run) ∨
        ∃ l ∈ (leaseView s.db).leases, l.id = run'.leaseId) :
    ∀ id run, s'.db.hermesRuns.get? id = some run →
      ∃ l ∈ (leaseView s'.db).leases, l.id = run.leaseId := by
  intro id run' hget'
  rcases hfrom id run' hget' with ⟨run, hget⟩ | hlease
  · obtain ⟨run'', hget'', -, hlease, -⟩ := h.runsKept id run hget
    obtain rfl : run'' = run' := Option.some.inj (hget''.symm.trans hget')
    rw [hlease]
    exact FencedLease.mem_of_run h.leases (hleased id run hget)
  · exact FencedLease.mem_of_run h.leases hlease

/-- Steps that neither record an event nor move the last sequence of a run. -/
theorem EventInvariant.untouched (hinv : EventInvariant s.db) (h : HermesStep rt condition s s')
    (hevents : s'.db.hermesRunEvents = s.db.hermesRunEvents)
    (htask : ∀ runId, hermesTaskEventsOf s'.db runId = hermesTaskEventsOf s.db runId)
    (hlast : ∀ runId, lastSequence s'.db runId = lastSequence s.db runId)
    (hfrom : ∀ id run', s'.db.hermesRuns.get? id = some run' →
      (∃ run, s.db.hermesRuns.get? id = some run) ∨
        ∃ l ∈ (leaseView s.db).leases, l.id = run'.leaseId) : EventInvariant s'.db where
  sequences runId := by
    rw [acceptedEvents_congr hevents, hlast]
    exact hinv.sequences runId
  taskEvents runId := by
    rw [acceptedEvents_congr hevents, htask]
    exact hinv.taskEvents runId
  providers := by
    rw [hevents]
    exact hinv.providers
  leased := h.leased hinv.leased hfrom

theorem from_of_eq {db db' : Database} (h : db'.hermesRuns = db.hermesRuns) (id : UUID)
    (run' : HermesRun) (hget : db'.hermesRuns.get? id = some run') :
    (∃ run, db.hermesRuns.get? id = some run) ∨
      ∃ l ∈ (leaseView db).leases, l.id = run'.leaseId :=
  .inl ⟨run', by rw [← h, hget]⟩

theorem from_of_set {db db' : Database} {run : HermesRun}
    (h : db'.hermesRuns = db.hermesRuns.set run) (id : UUID) (run' : HermesRun)
    (hget : db'.hermesRuns.get? id = some run') :
    (∃ run, db.hermesRuns.get? id = some run) ∨
      ∃ l ∈ (leaseView db).leases, l.id = run'.leaseId := by
  rw [h, Table.get?_set] at hget
  refine .inl ?_
  split at hget
  · obtain ⟨run, hrun, -⟩ := Option.map_eq_some_iff.mp hget
    exact ⟨run, hrun⟩
  · exact ⟨run', hget⟩

theorem hermesTaskEventsOf_congr (h : db'.taskEvents = db.taskEvents) (runId : UUID) :
    hermesTaskEventsOf db' runId = hermesTaskEventsOf db runId := by
  simp only [hermesTaskEventsOf, h]

/-- The task event of an accepted event belongs to its run. -/
theorem hermesTaskEventsOf_insert {db₁ : Database} {run : HermesRun} {event : HermesProviderEvent}
    {evidenceId taskEventId : UUID} {now : Time} {taskEvents : Table TaskEvent}
    (hinsert : db.taskEvents.insert? (hermesTaskEvent db₁ run event evidenceId now taskEventId) =
      some taskEvents) (h : db'.taskEvents = taskEvents) (runId : UUID) :
    hermesTaskEventsOf db' runId = hermesTaskEventsOf db runId ++
      if run.id = runId then [hermesTaskEvent db₁ run event evidenceId now taskEventId] else [] := by
  simp only [hermesTaskEventsOf, Table.select, h, (Table.insert?_eq_some.mp hinsert).2,
    List.filter_append]
  have hrun : hermesTaskEventsOf.sameRunId
      ((hermesTaskEvent db₁ run event evidenceId now taskEventId).payload.get "run_id") runId =
        decide (run.id = runId) := by
    rw [show (hermesTaskEvent db₁ run event evidenceId now taskEventId).payload.get "run_id" =
      .str run.id.str from rfl, hermesTaskEventsOf.sameRunId]
    simp
  have htype : (hermesTaskEvent db₁ run event evidenceId now taskEventId).eventType =
      "HERMES_EVENT" := rfl
  rw [List.filter_singleton, htype, hrun]
  by_cases hid : run.id = runId <;> simp [hid]

/-- One recorded event of a run that was not seen before. -/
theorem EventInvariant.providers_insert (hinv : EventInvariant db) {e : HermesRunEvent}
    {events : Table HermesRunEvent} (hinsert : db.hermesRunEvents.insert? e = some events)
    (hnew : eventOfProvider db e.runId e.providerEventId = none) :
    ∀ a ∈ events, ∀ b ∈ events, a.runId = b.runId → a.providerEventId = b.providerEventId →
      a = b := by
  have hfresh : ∀ a ∈ db.hermesRunEvents, a.runId = e.runId →
      a.providerEventId ≠ e.providerEventId := by
    intro a ha hrun hprovider
    have hnone := List.find?_eq_none.mp hnew a ha
    simp [hrun, hprovider] at hnone
  intro a ha b hb hrun hprovider
  rcases (Table.mem_insert? hinsert).mp ha with ha | rfl
  · rcases (Table.mem_insert? hinsert).mp hb with hb | rfl
    · exact hinv.providers a ha b hb hrun hprovider
    · exact absurd hprovider (hfresh a ha hrun)
  · rcases (Table.mem_insert? hinsert).mp hb with hb | rfl
    · exact absurd hprovider.symm (hfresh b hb hrun.symm)
    · rfl

/-- An event of the provider keeps the accepted events in order. -/
theorem EventInvariant.ingest {principalId : String} {runId : UUID} {event : HermesProviderEvent}
    {now : Time} {taskEventId : UUID} {result : HermesEventResult} (hinv : EventInvariant s.db)
    (hstep : HermesStep rt condition s s')
    (h : HermesRunService.ingest rt s.db principalId runId event now taskEventId =
      .ok (result, s'.db)) : EventInvariant s'.db := by
  cases ingest_ok h with
  | replayed _ _ _ _ hdb => exact hdb ▸ hinv
  | outOfOrder _ _ hdb =>
    exact hinv.untouched hstep (by rw [hdb]) (hermesTaskEventsOf_congr (by rw [hdb]))
      (lastSequence_congr (by rw [hdb])) (from_of_eq (by rw [hdb]))
  | ignored delivery records events hrun hprovider _ haccepted _ hnew hinsert hdb =>
    have hevents : s'.db.hermesRunEvents = events := by rw [hdb]
    have hruns : s'.db.hermesRuns = s.db.hermesRuns := by rw [hdb]
    have htasks : s'.db.taskEvents = s.db.taskEvents := by rw [hdb]
    refine ⟨fun id => ?_, fun id => ?_, ?_, hstep.leased hinv.leased (from_of_eq hruns)⟩
    · rw [acceptedEvents_insert hinsert hevents, lastSequence_congr hruns]
      simpa [haccepted] using hinv.sequences id
    · rw [acceptedEvents_insert hinsert hevents, hermesTaskEventsOf_congr htasks]
      simpa [haccepted] using hinv.taskEvents id
    · rw [hevents]
      exact hinv.providers_insert hinsert (by rw [hrun, hprovider]; exact hnew)
  | accepted run delivery records events taskEvent taskEvents references hget hlive hfence
      hsequence hnew hdelivery hresult hinsert htask hdb =>
    obtain rfl : run.id = runId := Table.key_of_get? hget
    obtain ⟨evidenceId, rfl, db₁, -, htaskEvent⟩ := hdelivery
    have hevents : s'.db.hermesRunEvents = events := by rw [hdb]
    have htasks : s'.db.taskEvents = taskEvents := by rw [hdb]
    have hset := congrArg Database.hermesRuns hdb
    refine ⟨fun id => ?_, fun id => ?_, ?_, hstep.leased hinv.leased
      (from_of_set hset)⟩
    · rw [acceptedEvents_insert hinsert hevents, lastSequence_set hset hget (by simp)]
      by_cases hid : run.id = id
      · subst hid
        have hlast : lastSequence s.db run.id = run.lastEventSequence := by
          simp [lastSequence, hget]
        rw [if_pos rfl, HermesRun.last_afterEvent, hsequence, List.range'_concat,
          if_pos ⟨rfl, rfl⟩, List.map_append, hinv.sequences run.id, hlast]
        simp [deliveredEvent, hsequence, Nat.add_comm]
      · have hother : ¬ ((deliveredEvent rt run event event.payload evidenceId none now
            taskEvent.id).runId = id ∧ (deliveredEvent rt run event event.payload evidenceId none
              now taskEvent.id).accepted = true) := fun h => hid h.1
        rw [if_neg hid, if_neg hother, List.append_nil]
        exact hinv.sequences id
    · rw [htaskEvent] at htask
      rw [acceptedEvents_insert hinsert hevents, hermesTaskEventsOf_insert htask htasks]
      by_cases hid : run.id = id
      · rw [if_pos hid, if_pos ⟨hid, rfl⟩]
        refine List.rel_append (hinv.taskEvents id) (.cons ⟨?_, rfl, rfl, rfl⟩ .nil)
        rw [← htaskEvent]
        rfl
      · have hother : ¬ ((deliveredEvent rt run event event.payload evidenceId none now
            taskEvent.id).runId = id ∧ (deliveredEvent rt run event event.payload evidenceId none
              now taskEvent.id).accepted = true) := fun h => hid h.1
        rw [if_neg hid, if_neg hother, List.append_nil, List.append_nil]
        exact hinv.taskEvents id
    · rw [hevents]
      exact hinv.providers_insert hinsert hnew

/-- Every step keeps the events of every run in order. -/
theorem EventInvariant.step (hinv : EventInvariant s.db) (h : HermesStep rt condition s s') :
    EventInvariant s'.db := by
  have hstep := h
  cases h with
  | create grant runId prompt now status replayed h =>
    rcases createRun_ok h with ⟨run, -, -, hdb⟩ | ⟨job, lease, runs, hheld, hinsert, hdb⟩
    · exact hdb ▸ hinv
    · have hruns : s'.db.hermesRuns = runs := by rw [hdb]
      refine hinv.untouched hstep (by rw [hdb]) (hermesTaskEventsOf_congr (by rw [hdb]))
        (fun id => ?_) fun id run' hget => ?_
      · simp only [lastSequence, hruns, Table.get?_insert? hinsert]
        by_cases hid : key (newRun rt grant runId prompt job lease now) = id
        · subst hid
          rw [if_pos rfl, (Table.insert?_eq_some.mp hinsert).1]
          rfl
        · rw [if_neg hid]
      · rw [hruns, Table.get?_insert? hinsert] at hget
        split at hget
        · obtain rfl := Option.some.inj hget
          exact .inr ⟨_, List.mem_map_of_mem (Table.mem_of_get? hheld.lease_eq), rfl⟩
        · exact .inl ⟨run', hget⟩
  | issue grant runId now toolGrantId id replayed _ _ h =>
    rcases issueRunGrant_ok h with ⟨-, hdb⟩ | ⟨-, scope, grants, -, hdb⟩
    · exact hdb ▸ hinv
    · have hruns : s'.db.hermesRuns = s.db.hermesRuns := by rw [hdb]
      exact hinv.untouched hstep (by rw [hdb]) (hermesTaskEventsOf_congr (by rw [hdb]))
        (lastSequence_congr hruns) (from_of_eq hruns)
  | start grant runId externalRunId now targetId result h =>
    rcases recordStarted_ok h with hdb | ⟨run, external, targets, hget, -, hdb⟩
    · exact hdb ▸ hinv
    · obtain rfl : run.id = runId := Table.key_of_get? hget
      have hset := congrArg Database.hermesRuns hdb
      exact hinv.untouched hstep (by rw [hdb]) (hermesTaskEventsOf_congr (by rw [hdb]))
        (lastSequence_set_same hset hget rfl rfl) (from_of_set hset)
  | ingest principalId runId event now taskEventId result h => exact hinv.ingest hstep h
  | cancel runId now result h =>
    rcases cancel_ok h with ⟨run, -, -, hdb⟩ | ⟨run, grants, hget, -, -, hdb⟩
    · exact hdb ▸ hinv
    · obtain rfl : run.id = runId := Table.key_of_get? hget
      have hset := congrArg Database.hermesRuns hdb
      exact hinv.untouched hstep (by rw [hdb]) (hermesTaskEventsOf_congr (by rw [hdb]))
        (lastSequence_set_same hset hget rfl rfl) (from_of_set hset)
  | fail grant runId timedOut errorCode now h =>
    rcases projectDependencyFailure_ok h with hdb | ⟨run, hget, -, hdb⟩
    · exact hdb ▸ hinv
    · obtain rfl : run.id = runId := Table.key_of_get? hget
      have hset := congrArg Database.hermesRuns hdb
      exact hinv.untouched hstep (by rw [hdb]) (hermesTaskEventsOf_congr (by rw [hdb]))
        (lastSequence_set_same hset hget rfl rfl) (from_of_set hset)
  | other h =>
    refine hinv.untouched hstep h.events h.taskEvents (fun id => ?_) fun id run' hget => ?_
    · have hrel := h.runs id
      rw [lastSequence, lastSequence]
      generalize s.db.hermesRuns.get? id = before, s'.db.hermesRuns.get? id = after at hrel
      cases hrel with
      | none => rfl
      | some hasked => rw [Option.map_some, Option.map_some, hasked.same]
    · have hrel := h.runs id
      rw [hget] at hrel
      cases hget₀ : s.db.hermesRuns.get? id with
      | none => rw [hget₀] at hrel; cases hrel
      | some run => exact .inl ⟨run, rfl⟩

theorem FreshHermes.eventInvariant (h : FreshHermes s) : EventInvariant s.db where
  sequences runId := by
    have hnone : s.db.hermesRuns.get? runId = none := by
      cases hget : s.db.hermesRuns.get? runId with
      | none => rfl
      | some run =>
        have hmem := Table.mem_of_get? hget
        rw [Table.mem_def, h.runs] at hmem
        cases hmem
    simp [acceptedEvents, Table.select, h.events, lastSequence, hnone]
  taskEvents runId := by
    rw [h.taskEvents runId]
    simp [acceptedEvents, Table.select, h.events]
  providers a ha := by
    rw [Table.mem_def, h.events] at ha
    cases ha
  leased id run hget := by
    have hmem := Table.mem_of_get? hget
    rw [Table.mem_def, h.runs] at hmem
    cases hmem

/-! ### What later states keep -/

/-- A step accepts nothing for a run, or the next event of a live run under its lease. -/
theorem HermesStep.accepts (h : HermesStep rt condition s s') (runId : UUID) :
    Accepts s.db runId s'.db := by
  cases h with
  | create grant runId' prompt now status replayed h =>
    rcases createRun_ok h with ⟨run, -, -, hdb⟩ | ⟨job, lease, runs, -, -, hdb⟩
    · exact .nothing (acceptedEvents_congr (by rw [hdb]) runId)
    · exact .nothing (acceptedEvents_congr (by rw [hdb]) runId)
  | issue grant runId' now toolGrantId id replayed _ _ h =>
    rcases issueRunGrant_ok h with ⟨-, hdb⟩ | ⟨-, scope, grants, -, hdb⟩
    · exact .nothing (acceptedEvents_congr (by rw [hdb]) runId)
    · exact .nothing (acceptedEvents_congr (by rw [hdb]) runId)
  | start grant runId' externalRunId now targetId result h =>
    rcases recordStarted_ok h with hdb | ⟨run, external, targets, -, -, hdb⟩
    · exact .nothing (acceptedEvents_congr (by rw [hdb]) runId)
    · exact .nothing (acceptedEvents_congr (by rw [hdb]) runId)
  | ingest principalId runId' event now taskEventId result h =>
    cases ingest_ok h with
    | replayed _ _ _ _ hdb => exact .nothing (acceptedEvents_congr (by rw [hdb]) runId)
    | outOfOrder _ _ hdb => exact .nothing (acceptedEvents_congr (by rw [hdb]) runId)
    | ignored delivery records events _ _ _ haccepted _ _ hinsert hdb =>
      refine .nothing ?_
      rw [acceptedEvents_insert hinsert (by rw [hdb])]
      simp [haccepted]
    | accepted run delivery records events taskEvent taskEvents references hget hlive hfence
        hsequence _ hdelivery _ hinsert _ hdb =>
      obtain ⟨evidenceId, rfl, -⟩ := hdelivery
      obtain rfl : run.id = runId' := Table.key_of_get? hget
      have hevents : s'.db.hermesRunEvents = events := by rw [hdb]
      have hinserted := acceptedEvents_insert hinsert hevents runId
      by_cases hid : run.id = runId
      · subst hid
        rw [if_pos ⟨rfl, rfl⟩] at hinserted
        exact .next run _ now hget hlive hfence hsequence hinserted
      · rw [if_neg fun h => hid h.1, List.append_nil] at hinserted
        exact .nothing hinserted
  | cancel runId' now result h =>
    rcases cancel_ok h with ⟨run, -, -, hdb⟩ | ⟨run, grants, -, -, -, hdb⟩
    · exact .nothing (acceptedEvents_congr (by rw [hdb]) runId)
    · exact .nothing (acceptedEvents_congr (by rw [hdb]) runId)
  | fail grant runId' timedOut errorCode now h =>
    rcases projectDependencyFailure_ok h with hdb | ⟨run, -, -, hdb⟩
    · exact .nothing (acceptedEvents_congr (by rw [hdb]) runId)
    · exact .nothing (acceptedEvents_congr (by rw [hdb]) runId)
  | other h => exact .nothing (acceptedEvents_congr h.events runId)

/-- The run, when it ended, with its status. -/
def Ended (db : Database) (runId : UUID) (status : HermesRunStatus) : Prop :=
  status.isTerminal = true ∧ ∃ run, db.hermesRuns.get? runId = some run ∧ run.status = status

theorem Ended.of_set {run run' : HermesRun} {runId : UUID} {status : HermesRunStatus}
    (hended : Ended db runId status) (h : db'.hermesRuns = db.hermesRuns.set run')
    (hget : db.hermesRuns.get? run.id = some run) (hid : run'.id = run.id)
    (hsame : run.status.isTerminal = true → run'.status = run.status) :
    Ended db' runId status := by
  obtain ⟨hterminal, r, hr, hstatus⟩ := hended
  refine ⟨hterminal, ?_⟩
  rw [h, get?_set_run hget hid]
  by_cases hrun : run.id = runId
  · obtain rfl : run = r := Option.some.inj (hget.symm.trans (hrun ▸ hr))
    exact ⟨run', if_pos hrun, by rw [hsame (hstatus ▸ hterminal), hstatus]⟩
  · exact ⟨r, by rw [if_neg hrun, hr], hstatus⟩

theorem Ended.of_eq {runId : UUID} {status : HermesRunStatus} (hended : Ended db runId status)
    (h : db'.hermesRuns = db.hermesRuns) : Ended db' runId status := by
  rw [Ended, h]
  exact hended

/-- A status that ended a run never changes. -/
theorem HermesStep.ended (h : HermesStep rt condition s s') {runId : UUID}
    {status : HermesRunStatus} (hended : Ended s.db runId status) : Ended s'.db runId status := by
  cases h with
  | create grant runId' prompt now status' replayed h =>
    rcases createRun_ok h with ⟨run, -, -, hdb⟩ | ⟨job, lease, runs, -, hinsert, hdb⟩
    · exact hended.of_eq (by rw [hdb])
    · obtain ⟨hterminal, r, hr, hstatus⟩ := hended
      have hruns : s'.db.hermesRuns = runs := by rw [hdb]
      have hne : key (newRun rt grant runId' prompt job lease now) ≠ runId := by
        rintro rfl
        rw [(Table.insert?_eq_some.mp hinsert).1] at hr
        cases hr
      refine ⟨hterminal, r, ?_, hstatus⟩
      rw [hruns, Table.get?_insert? hinsert, if_neg hne, hr]
  | issue grant runId' now toolGrantId id replayed _ _ h =>
    rcases issueRunGrant_ok h with ⟨-, hdb⟩ | ⟨-, scope, grants, -, hdb⟩
    · exact hended.of_eq (by rw [hdb])
    · exact hended.of_eq (by rw [hdb])
  | start grant runId' externalRunId now targetId result h =>
    rcases recordStarted_ok h with hdb | ⟨run, external, targets, hget, hstarting, hdb⟩
    · exact hended.of_eq (by rw [hdb])
    · obtain rfl : run.id = runId' := Table.key_of_get? hget
      have hset := congrArg Database.hermesRuns hdb
      refine hended.of_set hset hget rfl fun hterminal => ?_
      rw [hstarting] at hterminal
      cases hterminal
  | ingest principalId runId' event now taskEventId result h =>
    cases ingest_ok h with
    | replayed _ _ _ _ hdb => exact hended.of_eq (by rw [hdb])
    | outOfOrder _ _ hdb => exact hended.of_eq (by rw [hdb])
    | ignored _ _ _ _ _ _ _ _ _ _ hdb => exact hended.of_eq (by rw [hdb])
    | accepted run _ _ _ _ _ _ hget hlive _ _ _ _ _ _ _ hdb =>
      obtain rfl : run.id = runId' := Table.key_of_get? hget
      have hset := congrArg Database.hermesRuns hdb
      refine hended.of_set hset hget (by simp) fun hterminal => ?_
      rw [hlive.2] at hterminal
      cases hterminal
  | cancel runId' now result h =>
    rcases cancel_ok h with ⟨run, -, -, hdb⟩ | ⟨run, grants, hget, hstatus, -, hdb⟩
    · exact hended.of_eq (by rw [hdb])
    · obtain rfl : run.id = runId' := Table.key_of_get? hget
      have hset := congrArg Database.hermesRuns hdb
      refine hended.of_set hset hget rfl fun hterminal => ?_
      rcases hstatus with hstatus | hstatus | hstatus
      · rw [hstatus] at hterminal
        cases hterminal
      · rw [hstatus] at hterminal
        cases hterminal
      · exact hstatus.symm
  | fail grant runId' timedOut errorCode now h =>
    rcases projectDependencyFailure_ok h with hdb | ⟨run, hget, hlive, hdb⟩
    · exact hended.of_eq (by rw [hdb])
    · obtain rfl : run.id = runId' := Table.key_of_get? hget
      have hset := congrArg Database.hermesRuns hdb
      refine hended.of_set hset hget rfl fun hterminal => ?_
      rw [hlive] at hterminal
      cases hterminal
  | other h =>
    obtain ⟨hterminal, r, hr, hstatus⟩ := hended
    obtain ⟨r', hr', hasked⟩ := h.run hr
    exact ⟨hterminal, r', hr', by rw [hasked.same, hstatus]⟩

/-- A run that ended stays as it ended, and accepts nothing. -/
theorem ended_of_run (h : Relation.ReflTransGen (hermesSystem rt condition).step s s')
    {runId : UUID} {status : HermesRunStatus} (hended : Ended s.db runId status) :
    Ended s'.db runId status ∧ acceptedEvents s'.db runId = acceptedEvents s.db runId := by
  induction h with
  | refl => exact ⟨hended, rfl⟩
  | tail _ hstep ih =>
    obtain ⟨hended', hsame⟩ := ih
    refine ⟨HermesStep.ended hstep hended', ?_⟩
    cases HermesStep.accepts hstep runId with
    | nothing h => rw [h, hsame]
    | next run e now hget hlive =>
      obtain ⟨hterminal, r, hr, hstatus⟩ := hended'
      obtain rfl : run = r := Option.some.inj (hget.symm.trans hr)
      rw [hstatus, hterminal] at hlive
      cases hlive.2

/-- An event is accepted only while the job of the run names its lease. -/
theorem leaseNamed_of_fenceCurrent {run : HermesRun} {now : Time}
    (h : runFenceCurrent db run now = true) : LeaseNamed db run := by
  simp only [runFenceCurrent] at h
  split at h
  · rename_i job lease hjob hlease
    simp only [Bool.and_eq_true, decide_eq_true_eq] at h
    simp only [LeaseNamed, leaseView, hjob, Option.bind_some]
    exact h.1.1.1.2
  · cases h

/-- A run whose lease its job does not name any more accepts nothing. -/
theorem leaseLost_of_run (h : Relation.ReflTransGen (hermesSystem rt condition).step s s')
    {run : HermesRun} (hget : s.db.hermesRuns.get? run.id = some run)
    (hleased : ∃ l ∈ (leaseView s.db).leases, l.id = run.leaseId)
    (hlost : ¬ LeaseNamed s.db run) :
    (∃ run', s'.db.hermesRuns.get? run.id = some run' ∧ run.SameLease run') ∧
      ((leaseView s'.db).current run.jobId ≠ some run.leaseId ∧
        ∃ l ∈ (leaseView s'.db).leases, l.id = run.leaseId) ∧
      acceptedEvents s'.db run.id = acceptedEvents s.db run.id := by
  induction h with
  | refl => exact ⟨⟨run, hget, .refl run⟩, ⟨hlost, hleased⟩, rfl⟩
  | tail _ hstep ih =>
    obtain ⟨⟨r, hr, hsame⟩, ⟨hlost', hleased'⟩, hevents⟩ := ih
    refine ⟨?_, FencedLease.lost_of_run (HermesStep.leases hstep) hleased' hlost', ?_⟩
    · obtain ⟨r', hr', h₁, h₂, h₃, h₄, h₅⟩ := HermesStep.runsKept hstep _ r hr
      obtain ⟨g₁, g₂, g₃, g₄, g₅⟩ := hsame
      exact ⟨r', hr', h₁.trans g₁, h₂.trans g₂, h₃.trans g₃, h₄.trans g₄, h₅.trans g₅⟩
    · cases HermesStep.accepts hstep run.id with
      | nothing h => rw [h, hevents]
      | next run' e now hget' hlive hfence =>
        obtain rfl : run' = r := Option.some.inj (hget'.symm.trans hr)
        have hnamed := leaseNamed_of_fenceCurrent hfence
        rw [LeaseNamed, hsame.1, hsame.2.1] at hnamed
        exact absurd hnamed hlost'

/-- EventRecorded events are kept, in their order. -/
theorem HermesStep.eventsKept (h : HermesStep rt condition s s') :
    ∃ extra, s'.db.hermesRunEvents.rows = s.db.hermesRunEvents.rows ++ extra := by
  have hsame : s'.db.hermesRunEvents = s.db.hermesRunEvents →
      ∃ extra, s'.db.hermesRunEvents.rows = s.db.hermesRunEvents.rows ++ extra :=
    fun h => ⟨[], by rw [h, List.append_nil]⟩
  cases h with
  | create grant runId prompt now status replayed h =>
    rcases createRun_ok h with ⟨run, -, -, hdb⟩ | ⟨job, lease, runs, -, -, hdb⟩
    · exact hsame (by rw [hdb])
    · exact hsame (by rw [hdb])
  | issue grant runId now toolGrantId id replayed _ _ h =>
    rcases issueRunGrant_ok h with ⟨-, hdb⟩ | ⟨-, scope, grants, -, hdb⟩
    · exact hsame (by rw [hdb])
    · exact hsame (by rw [hdb])
  | start grant runId externalRunId now targetId result h =>
    rcases recordStarted_ok h with hdb | ⟨run, external, targets, -, -, hdb⟩
    · exact hsame (by rw [hdb])
    · exact hsame (by rw [hdb])
  | ingest principalId runId event now taskEventId result h =>
    cases ingest_ok h with
    | replayed _ _ _ _ hdb => exact hsame (by rw [hdb])
    | outOfOrder _ _ hdb => exact hsame (by rw [hdb])
    | ignored _ _ events _ _ _ _ _ _ hinsert hdb =>
      exact ⟨_, by rw [hdb]; exact (Table.insert?_eq_some.mp hinsert).2⟩
    | accepted _ _ _ events _ _ _ _ _ _ _ _ _ _ hinsert _ hdb =>
      exact ⟨_, by rw [hdb]; exact (Table.insert?_eq_some.mp hinsert).2⟩
  | cancel runId now result h =>
    rcases cancel_ok h with ⟨run, -, -, hdb⟩ | ⟨run, grants, -, -, -, hdb⟩
    · exact hsame (by rw [hdb])
    · exact hsame (by rw [hdb])
  | fail grant runId timedOut errorCode now h =>
    rcases projectDependencyFailure_ok h with hdb | ⟨run, -, -, hdb⟩
    · exact hsame (by rw [hdb])
    · exact hsame (by rw [hdb])
  | other h => exact hsame h.events

/-- A run, and an event recorded for it under an identifier of the provider. -/
structure EventRecorded (db : Database) (runId : UUID) (providerEventId : String)
    (e : HermesRunEvent) : Prop where
  run : ∃ run, db.hermesRuns.get? runId = some run
  event : eventOfProvider db runId providerEventId = some e

theorem eventRecorded_of_run (h : Relation.ReflTransGen (hermesSystem rt condition).step s s')
    {runId : UUID} {providerEventId : String} {e : HermesRunEvent}
    (hrecorded : EventRecorded s.db runId providerEventId e) :
    EventRecorded s'.db runId providerEventId e := by
  induction h with
  | refl => exact hrecorded
  | tail _ hstep ih =>
    obtain ⟨run, hget⟩ := ih.run
    obtain ⟨run', hget', -⟩ := HermesStep.runsKept hstep _ run hget
    obtain ⟨extra, hrows⟩ := HermesStep.eventsKept hstep
    refine ⟨⟨run', hget'⟩, ?_⟩
    have hevent := ih.event
    rw [eventOfProvider] at hevent ⊢
    rw [hrows, List.find?_append, hevent, Option.some_or]

/-- An event recorded before is answered as it was recorded. -/
theorem ingest_recorded {principalId : String} {runId : UUID} {event : HermesProviderEvent}
    {now : Time} {taskEventId : UUID} {e : HermesRunEvent}
    (hpayload : boundedPayload rt event.payload = .ok event.payload)
    (hrecorded : EventRecorded db runId event.providerEventId e) (hsame : e.records rt event) :
    HermesRunService.ingest rt db principalId runId event now taskEventId =
      .ok (eventResult e true, db) := by
  obtain ⟨run, hget⟩ := hrecorded.run
  obtain rfl : run.id = runId := Table.key_of_get? hget
  rw [HermesRunService.ingest, hpayload, Except.ok_bind, hget, Except.orThrow, Except.ok_bind,
    hrecorded.event]
  simp only [Except.require, hsame.sequence, hsame.eventType, hsame.fingerprint, and_self, if_true]
  rfl

end Steps

/-! ### The guarantee -/

/-- The events of the provider are taken in order: what the store holds of every run, and
what every later store keeps of it. -/
structure TakenInOrder (rt : Runtime) (condition : Database → JobLeaseGrant → UUID → Prop)
    (s : HermesState) : Prop where
  sequences : ∀ runId, (acceptedEvents s.db runId).map HermesRunEvent.providerSequence =
    List.range' 1 (lastSequence s.db runId)
  once : ∀ runId, ((acceptedEvents s.db runId).map HermesRunEvent.providerEventId).Nodup
  taskEvents : ∀ runId,
    List.Forall₂ TaskEventFor (hermesTaskEventsOf s.db runId) (acceptedEvents s.db runId)
  ended : ∀ s', Relation.ReflTransGen (hermesSystem rt condition).step s s' →
    ∀ run ∈ s.db.hermesRuns, run.status.isTerminal = true →
      (∃ run', s'.db.hermesRuns.get? run.id = some run' ∧ run'.status = run.status) ∧
        acceptedEvents s'.db run.id = acceptedEvents s.db run.id
  leaseLost : ∀ s', Relation.ReflTransGen (hermesSystem rt condition).step s s' →
    ∀ run ∈ s.db.hermesRuns, ¬ LeaseNamed s.db run →
      acceptedEvents s'.db run.id = acceptedEvents s.db run.id
  replayed : ∀ principalId runId event now taskEventId result db,
    HermesRunService.ingest rt s.db principalId runId event now taskEventId = .ok (result, db) →
    result.ignoredReason ≠ some "OUT_OF_ORDER" →
    ∀ s', Relation.ReflTransGen (hermesSystem rt condition).step ⟨db, s.prepared⟩ s' →
      ∀ principalId' now' taskEventId',
        HermesRunService.ingest rt s'.db principalId' runId event now' taskEventId' =
          .ok ({ result with replayed := true }, s'.db)

section Guarantee
variable {rt : Runtime} {condition : Database → JobLeaseGrant → UUID → Prop} {s : HermesState}
  {db db' : Database}

theorem EventInvariant.once (hinv : EventInvariant db) (runId : UUID) :
    ((acceptedEvents db runId).map HermesRunEvent.providerEventId).Nodup := by
  have hrows : db.hermesRunEvents.rows.Nodup := db.hermesRunEvents.nodup.of_map
  rw [acceptedEvents, Table.select]
  refine (hrows.filter _).map_on fun a ha b hb hprovider => ?_
  simp only [List.mem_filter, Bool.and_eq_true, decide_eq_true_eq] at ha hb
  exact hinv.providers a ha.1 b hb.1 (ha.2.1.trans hb.2.1.symm) hprovider

/-- An event that was not out of its order is recorded. -/
theorem eventRecorded_of_ingest {principalId : String} {runId : UUID} {event : HermesProviderEvent}
    {now : Time} {taskEventId : UUID} {result : HermesEventResult}
    (h : HermesRunService.ingest rt db principalId runId event now taskEventId =
      .ok (result, db')) (horder : result.ignoredReason ≠ some "OUT_OF_ORDER") :
    ∃ e, EventRecorded db' runId event.providerEventId e ∧ e.records rt event ∧
      { result with replayed := true } = eventResult e true := by
  have hget : ∃ run, db.hermesRuns.get? runId = some run := by
    simp only [HermesRunService.ingest, Except.bind_eq_ok, Except.orThrow_eq_ok] at h
    obtain ⟨-, -, run, hrun, -⟩ := h
    exact ⟨run, hrun⟩
  have hfound : ∀ {e : HermesRunEvent} {events : Table HermesRunEvent},
      db.hermesRunEvents.insert? e = some events → e.runId = runId →
      e.providerEventId = event.providerEventId →
      eventOfProvider db runId event.providerEventId = none →
      events.rows.find? (fun e => e.runId = runId && e.providerEventId = event.providerEventId) =
        some e := by
    intro e events hinsert hrun hprovider hnew
    rw [eventOfProvider] at hnew
    rw [(Table.insert?_eq_some.mp hinsert).2, List.find?_append, hnew]
    simp [hrun, hprovider]
  cases ingest_ok h with
  | replayed existing hexisting hsame hresult hdb =>
    subst hdb
    exact ⟨existing, ⟨hget, hexisting⟩, hsame, by rw [hresult]; rfl⟩
  | outOfOrder _ hresult => exact absurd hresult horder
  | ignored delivery records events hrun hprovider hsame _ hresult hnew hinsert hdb =>
    subst hdb
    exact ⟨delivery, ⟨hget, hfound hinsert hrun hprovider hnew⟩, hsame, by rw [hresult]; rfl⟩
  | accepted run delivery records events taskEvent taskEvents references hrun _ _ _ hnew hdelivery
      hresult hinsert _ hdb =>
    obtain ⟨evidenceId, rfl, -⟩ := hdelivery
    obtain rfl : run.id = runId := Table.key_of_get? hrun
    subst hdb
    refine ⟨_, ⟨⟨run.afterEvent rt event event.payload now, ?_⟩,
      hfound hinsert rfl rfl hnew⟩, deliveredEvent_records .., by rw [hresult]; rfl⟩
    rw [get?_set_run hrun (by simp), if_pos rfl]

theorem boundedPayload_of_ingest {principalId : String} {runId : UUID}
    {event : HermesProviderEvent} {now : Time} {taskEventId : UUID} {result : HermesEventResult}
    (h : HermesRunService.ingest rt db principalId runId event now taskEventId =
      .ok (result, db')) : boundedPayload rt event.payload = .ok event.payload := by
  simp only [HermesRunService.ingest, Except.bind_eq_ok] at h
  obtain ⟨payload, hpayload, -⟩ := h
  have hsame := hpayload
  simp only [boundedPayload, Except.bind_eq_ok, Except.pure_eq_ok] at hsame
  obtain ⟨_, _, rfl⟩ := hsame
  exact hpayload

end Guarantee

end ControlPlane
