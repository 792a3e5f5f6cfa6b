import ControlPlane.Jobs.Effects
import ControlPlane.Evidence.Transparency

/-!
# Late results of an effect

A worker that lost its lease reports what its executor observed, and the report is kept as an
ignored result. Reports on one effect share one key, whichever lease they lost. So a report is
kept unless another lease's result, another result or another reason stands under its key.

## Main definitions

* `LateReport`, `LateReport.Lost`
* `Retainable`: what stands under the key of a report does not contradict it.
* `LateRun`: late reports, between which anything else happens.
-/
namespace ControlPlane

/-! ### Reports -/

/-- What `perform_effect` reports when it has lost its lease. -/
structure LateReport where
  service : BackgroundJobService
  call : EffectCall
  observation : EffectExecutionResult
  now : Time

def LateReport.command (r : LateReport) : IgnoredResultCommand := r.call.ignored r.observation

def LateReport.run (rt : Runtime) (r : LateReport) (db : Database) :
    Except BackgroundJobError (IgnoredResult × Database) :=
  BackgroundJobService.recordIgnoredResult rt r.service db r.call.grant r.now r.command

def LateReport.key (rt : Runtime) (r : LateReport) : String := stripped rt r.command.idempotencyKey

/-- The result that is kept under a key. -/
def Database.ignoredUnder (db : Database) (key : String) : Option BackgroundJobIgnoredResult :=
  db.backgroundJobIgnoredResults.rows.find? (·.idempotencyKey = key)

/-- The effect of a report is of its job, and its lease of the job is lost. -/
structure LateReport.Lost (db : Database) (r : LateReport) (job : BackgroundJob)
    (lease : BackgroundJobLease) : Prop where
  job_eq : db.backgroundJobs.get? r.call.grant.jobId = some job
  lease_eq : historicalLease db r.call.grant = some lease
  task : job.taskId = some r.call.grant.taskId
  lost : stillCurrent job lease r.call.grant r.now = false
  effect : (db.backgroundJobEffects.get? r.call.prepared.effectId).any (·.jobId = job.id) = true

/-- A late result: one of a lease that is lost. -/
def LateReport.Late (db : Database) (r : LateReport) : Prop := ∃ job lease, r.Lost db job lease

instance (db : Database) (r : LateReport) : Decidable (r.Late db) :=
  decidable_of_iff (((db.backgroundJobs.get? r.call.grant.jobId).any fun job =>
      (historicalLease db r.call.grant).any fun lease =>
        job.taskId = some r.call.grant.taskId && !stillCurrent job lease r.call.grant r.now &&
          (db.backgroundJobEffects.get? r.call.prepared.effectId).any (·.jobId = job.id)) = true)
    (by
      simp only [Option.any_eq_true, Bool.and_eq_true, Bool.not_eq_true', decide_eq_true_eq]
      constructor
      · rintro ⟨job, hjob, lease, hlease, ⟨htask, hlost⟩, effect, heffect, heffectJob⟩
        exact ⟨job, lease, hjob, hlease, htask, hlost, by simp [heffect, heffectJob]⟩
      · rintro ⟨job, lease, hjob, hlease, htask, hlost, heffect⟩
        simp only [Option.any_eq_true, decide_eq_true_eq] at heffect
        exact ⟨job, hjob, lease, hlease, ⟨htask, hlost⟩, heffect⟩)

/-- Why a report on a job is ignored. -/
def BackgroundJob.ignoredReason (job : BackgroundJob) : String :=
  if job.cancellationRequestedAt.isSome then "CANCELLED" else "FENCED"

/-- A row keeps the result of a report. -/
structure LateReport.KeptBy (rt : Runtime) (r : LateReport) (row : BackgroundJobIgnoredResult) :
    Prop where
  jobId : row.jobId = r.call.grant.jobId
  leaseId : row.leaseId = r.call.grant.leaseId
  fencingToken : row.fencingToken = r.call.grant.fencingToken
  effectId : row.effectId = some r.call.prepared.effectId
  fingerprint : row.resultFingerprint = ignoredResultFingerprint rt r.call.grant r.command

/-- The key and the result of a report are well formed. -/
structure LateReport.Prepared (rt : Runtime) (r : LateReport) (prepared : RedactedContent) :
    Prop where
  key : requiredIdentifier rt r.command.idempotencyKey "ignored result idempotency key"
    maxIdempotencyKeyLength = .ok (r.key rt)
  content : redactEvidenceContent rt (boundedEvidencePayload rt r.observation.payload) .json =
    .ok prepared
  object : prepared.value.obj?.isSome = true

/-- Nothing is kept under the key of a report and its evidence is accepted, or what is kept is its
own result, ignored for the reason it is ignored now. -/
def Retainable (rt : Runtime) (db : Database) (r : LateReport) : Prop :=
  ∃ job lease prepared, r.Lost db job lease ∧ r.Prepared rt prepared ∧
    match db.ignoredUnder (r.key rt) with
    | some row => r.KeptBy rt row ∧ row.reasonCode = job.ignoredReason
    | none =>
      (ignoredResultCapture rt r.service job lease r.call.grant r.command (r.key rt)
        job.ignoredReason prepared.value r.now).Accepted rt ∧
      db.evidenceRecords.get? (rt.uuid5 ("mathews:ignored-result-evidence:" ++ r.key rt)) = none ∧
      db.backgroundJobIgnoredResults.get? (rt.uuid5 ("mathews:ignored-result:" ++ r.key rt)) = none

/-! ### One report -/

section Report
variable {rt : Runtime} {r : LateReport} {db db' : Database} {job : BackgroundJob}
  {lease : BackgroundJobLease} {answer : IgnoredResult}

theorem LateReport.Lost.ids (h : r.Lost db job lease) :
    job.id = r.call.grant.jobId ∧ lease.id = r.call.grant.leaseId ∧
      lease.fencingToken = r.call.grant.fencingToken := by
  obtain ⟨hget, hfilter⟩ := Option.filter_eq_some_iff.mp h.lease_eq
  simp only [Bool.and_eq_true, decide_eq_true_eq] at hfilter
  exact ⟨Table.key_of_get? h.job_eq, Table.key_of_get? hget, hfilter.2⟩

theorem requiredIdentifier_ok {value field key : String} {maximum : ℕ}
    (h : requiredIdentifier rt value field maximum = .ok key) : key = stripped rt value := by
  simp only [requiredIdentifier] at h
  split at h
  · exact (Except.ok.inj h).symm
  · cases h

/-- A report that goes through is retainable; it is kept under its key, and the answer names what
is kept. -/
theorem LateReport.run_ok (hrun : r.run rt db = .ok (answer, db')) :
    Retainable rt db r ∧
      db.backgroundJobIgnoredResults.rows <+: db'.backgroundJobIgnoredResults.rows ∧
      ∃ row, db'.ignoredUnder (r.key rt) = some row ∧ r.KeptBy rt row ∧
        answer.ignoredResultId = row.id ∧ answer.evidenceId = row.evidenceId := by
  simp only [run, BackgroundJobService.recordIgnoredResult, Except.bind_eq_ok,
    Except.relabel_eq_ok, Except.require_eq_ok, Except.orThrow_eq_ok] at hrun
  obtain ⟨key, hkey, prepared, hprepared, -, hobject, job, hjob, lease, hlease, -, htask, -, hlost,
    -, heffect, hrun⟩ := hrun
  have hlost : r.Lost db job lease := ⟨hjob, hlease, htask, hlost, heffect⟩
  obtain ⟨hjobId, hleaseId, htoken⟩ := hlost.ids
  have hstripped : key = r.key rt := requiredIdentifier_ok hkey
  subst hstripped
  split at hrun
  · rename_i row hrow
    simp only [Except.bind_eq_ok, Except.require_eq_ok, Except.pure_eq_ok, Prod.mk.injEq] at hrun
    obtain ⟨-, ⟨hjob, hlease, htoken', heffect, hfingerprint, hreason⟩, rfl, rfl⟩ := hrun
    have hkept : r.KeptBy rt row :=
      ⟨hjob.trans hjobId, hlease.trans hleaseId, htoken'.trans htoken, heffect, hfingerprint⟩
    refine ⟨⟨job, lease, prepared, hlost, ⟨hkey, hprepared, hobject⟩, ?_⟩, List.prefix_rfl, row,
      hrow, hkept, rfl, rfl⟩
    simp only [Database.ignoredUnder, hrow]
    exact ⟨hkept, hreason⟩
  · rename_i hrow
    simp only [Except.bind_eq_ok, Except.relabel_eq_ok, Except.orThrow_eq_ok, Except.pure_eq_ok,
      Prod.mk.injEq] at hrun
    obtain ⟨⟨captured, db₁⟩, hcaptured, ignored, hinsert, rfl, rfl⟩ := hrun
    obtain ⟨haccepted, hfresh⟩ := (captureEvidence_isOk_iff rfl).mp ⟨_, _, hcaptured⟩
    obtain ⟨records, -, rfl⟩ := captureEvidence_ok hcaptured rfl
    obtain ⟨hid, hrows⟩ := Table.insert?_eq_some.mp hinsert
    refine ⟨⟨job, lease, prepared, hlost, ⟨hkey, hprepared, hobject⟩, ?_⟩, ?_, ?_⟩
    · simp only [Database.ignoredUnder, hrow]
      exact ⟨haccepted, hfresh, hid⟩
    · exact hrows ▸ List.prefix_append _ _
    · refine ⟨⟨rt.uuid5 ("mathews:ignored-result:" ++ r.key rt), job.id, lease.id,
        lease.fencingToken, r.command.effectId, r.key rt,
        ignoredResultFingerprint rt r.call.grant r.command, captured.record.id, job.ignoredReason,
        r.now⟩, ?_, ⟨hjobId, hleaseId, htoken, rfl, rfl⟩, rfl, rfl⟩
      simp only [Database.ignoredUnder, hrows, List.find?_append, hrow, Option.none_or,
        List.find?_singleton, decide_true, if_true]
      rfl

/-- A retainable report goes through. -/
theorem LateReport.exists_run (h : Retainable rt db r) :
    ∃ answer db', r.run rt db = .ok (answer, db') := by
  obtain ⟨job, lease, prepared, hlost, ⟨hkey, hprepared, hobject⟩, hkept⟩ := h
  obtain ⟨hjobId, hleaseId, htoken⟩ := hlost.ids
  have hall : (r.command.effectId.all fun effectId =>
      (db.backgroundJobEffects.get? effectId).any (·.jobId = job.id)) = true := hlost.effect
  have hcontent : redactEvidenceContent rt (boundedEvidencePayload rt r.command.result.payload)
      .json = .ok prepared := hprepared
  simp only [run, BackgroundJobService.recordIgnoredResult, hkey, hcontent, hlost.job_eq,
    hlost.lease_eq, Except.relabel, Except.orThrow, Except.ok_bind, Except.require_of hobject,
    Except.require_of hlost.task, Except.require_of hlost.lost, Except.require_of hall]
  cases hrow : db.backgroundJobIgnoredResults.rows.find? (·.idempotencyKey = r.key rt) with
  | some row =>
    simp only [Database.ignoredUnder, hrow] at hkept
    obtain ⟨⟨hjob, hlease, htoken', heffect, hfingerprint⟩, hreason⟩ := hkept
    simp only
    rw [Except.require_of (p := _ ∧ _) ⟨hjob.trans hjobId.symm, hlease.trans hleaseId.symm,
      htoken'.trans htoken.symm, heffect, hfingerprint, hreason⟩]
    exact ⟨_, _, rfl⟩
  | none =>
    simp only [Database.ignoredUnder, hrow] at hkept
    obtain ⟨haccepted, hfresh, hid⟩ := hkept
    obtain ⟨captured, db₁, hcaptured⟩ : ∃ captured db₁, captureEvidence rt db
        (ignoredResultCapture rt r.service job lease r.call.grant r.command (r.key rt)
          job.ignoredReason prepared.value r.now) = .ok (captured, db₁) :=
      (captureEvidence_isOk_iff rfl).mpr ⟨haccepted, hfresh⟩
    obtain ⟨records, -, rfl⟩ := captureEvidence_ok hcaptured rfl
    simp only [BackgroundJob.ignoredReason] at hcaptured
    simp only [hcaptured, Except.ok_bind]
    obtain ⟨rows, hinsert⟩ := Table.exists_insert? (t := db.backgroundJobIgnoredResults)
      (a := ⟨rt.uuid5 ("mathews:ignored-result:" ++ r.key rt), job.id, lease.id,
        lease.fencingToken, r.command.effectId, r.key rt,
        ignoredResultFingerprint rt r.call.grant r.command, captured.record.id, job.ignoredReason,
        r.now⟩) hid
    simp only [BackgroundJob.ignoredReason] at hinsert
    simp only [hinsert, Except.ok_bind]
    exact ⟨_, _, rfl⟩

end Report

/-! ### Runs of late reports -/

/-- A report and the store it came to. -/
structure Reported where
  report : LateReport
  before : Database

/-- Late reports of any services, one after another. Between them anything else happens; to the
ignored results rows are only added. -/
inductive LateRun (rt : Runtime) (start : Database) : List Reported → Database → Prop
  | start : LateRun rt start [] start
  | report {made : List Reported} {db : Database} (hrun : LateRun rt start made db)
      (r : LateReport) (hlate : r.Late db) :
      LateRun rt start (made ++ [⟨r, db⟩]) (db.commit ((r.run rt db).map Prod.snd))
  | elsewhere {made : List Reported} {db db' : Database} (hrun : LateRun rt start made db)
      (hrows : db.backgroundJobIgnoredResults.rows <+: db'.backgroundJobIgnoredResults.rows) :
      LateRun rt start made db'

/-- A report went through, and its result is kept under its key, as the answer said. -/
def Reported.Retained (rt : Runtime) (m : Reported) (db : Database) : Prop :=
  ∃ answer after row, m.report.run rt m.before = .ok (answer, after) ∧
    db.ignoredUnder (m.report.key rt) = some row ∧ m.report.KeptBy rt row ∧
    answer.ignoredResultId = row.id ∧ answer.evidenceId = row.evidenceId

/-- What is kept under a key stays kept when rows are added. -/
theorem Database.ignoredUnder_mono {db db' : Database} {key : String}
    {row : BackgroundJobIgnoredResult}
    (hrows : db.backgroundJobIgnoredResults.rows <+: db'.backgroundJobIgnoredResults.rows)
    (h : db.ignoredUnder key = some row) : db'.ignoredUnder key = some row := by
  obtain ⟨more, hmore⟩ := hrows
  rw [ignoredUnder, ← hmore, List.find?_append, show List.find? _ _ = some row from h]
  rfl

section Runs
variable {rt : Runtime} {start db db' : Database} {made : List Reported} {m : Reported}

theorem Reported.Retained.mono
    (hrows : db.backgroundJobIgnoredResults.rows <+: db'.backgroundJobIgnoredResults.rows)
    (h : m.Retained rt db) : m.Retained rt db' := by
  obtain ⟨answer, after, row, hrun, hrow, hkept⟩ := h
  exact ⟨answer, after, row, hrun, Database.ignoredUnder_mono hrows hrow, hkept⟩

/-- A step of a run with a report only adds rows. -/
theorem LateReport.rows_commit (r : LateReport) :
    db.backgroundJobIgnoredResults.rows <+:
      (db.commit ((r.run rt db).map Prod.snd)).backgroundJobIgnoredResults.rows := by
  cases hrun : r.run rt db with
  | error e => exact List.prefix_rfl
  | ok result =>
    obtain ⟨answer, db'⟩ := result
    exact (LateReport.run_ok hrun).2.1

/-- Every late result of a run is kept, and its report answered with what is kept, exactly when
each report was retainable in the store it came to. -/
theorem retained_iff_of_run (hrun : LateRun rt start made db) :
    (∀ m ∈ made, m.Retained rt db) ↔ ∀ m ∈ made, Retainable rt m.before m.report := by
  constructor
  · intro h m hm
    obtain ⟨answer, after, _, hanswer, -⟩ := h m hm
    exact (LateReport.run_ok hanswer).1
  · intro h
    induction hrun with
    | start => simp
    | @report made db hrun r hlate ih =>
      simp only [List.mem_append, List.mem_singleton] at h ⊢
      rintro m (hm | rfl)
      · exact (ih (fun m hm => h m (.inl hm)) m hm).mono (LateReport.rows_commit r)
      · obtain ⟨answer, after, hanswer⟩ := LateReport.exists_run (h ⟨r, db⟩ (.inr rfl))
        obtain ⟨-, -, row, hrow, hkept, hid, hevidence⟩ := LateReport.run_ok hanswer
        refine ⟨answer, after, row, hanswer, ?_, hkept, hid, hevidence⟩
        rw [show r.run rt db = .ok (answer, after) from hanswer]
        exact hrow
    | elsewhere hrun hrows ih => exact fun m hm => (ih h m hm).mono hrows

/-- Of two reports under one key at most one lease is kept. -/
theorem Reported.Retained.leaseId_eq {m' : Reported} (h : m.Retained rt db)
    (h' : m'.Retained rt db) (hkey : m.report.key rt = m'.report.key rt) :
    m.report.call.grant.leaseId = m'.report.call.grant.leaseId := by
  obtain ⟨_, _, row, -, hrow, hkept, -⟩ := h
  obtain ⟨_, _, row', -, hrow', hkept', -⟩ := h'
  rw [hkey, hrow', Option.some.injEq] at hrow
  subst hrow
  exact hkept.leaseId.symm.trans hkept'.leaseId

end Runs

/-! ### Two losers of one effect -/

namespace TwoLosersExample
open LostResultExample (service schedule claim grant push start)

/-- The first worker executes the effect and the second one reconciles it, and both report when
their lease has run out. -/
def actions : List EffectAction :=
  [.job (.schedule schedule), .job (.claimNext (claim "a" (seconds 2) (.ofNat 3))),
    .perform (grant "a" (seconds 2) (.ofNat 3) 1) (seconds 3) (push (.ofNat 5)),
    .resume 0 (.executed (some ⟨true, .obj []⟩)),
    .job (.claimNext (claim "b" (seconds 12) (.ofNat 4))),
    .perform (grant "b" (seconds 12) (.ofNat 4) 2) (seconds 13) (push (.ofNat 6)),
    .resume 1 (.reconciled (some ⟨true, .obj []⟩)), .resume 0 (.recorded (seconds 30) (.ofNat 8)),
    .resume 1 (.recorded (seconds 30) (.ofNat 9))]

def lost : World := runWorld .plain service start actions

/-- What a call of the world reports, if it lost its lease. -/
def reports (w : World) (now : Time) : List LateReport :=
  w.calls.filterMap fun call =>
    match call.stage with
    | .ignore observation => some { service, call, observation, now }
    | _ => none

theorem reports_checked :
    (match reports lost (seconds 31) with
      | [r, r'] => decide (r.Late lost.db) && decide (r'.Late lost.db) &&
          decide (r.key .plain = r'.key .plain) && r.call.grant.leaseId != r'.call.grant.leaseId
      | _ => false) = true := by
  decide +kernel

theorem exists_reports : ∃ r r', reports lost (seconds 31) = [r, r'] ∧ r.Late lost.db ∧
    r'.Late lost.db ∧ r.key .plain = r'.key .plain ∧
    r.call.grant.leaseId ≠ r'.call.grant.leaseId := by
  have hchecked := reports_checked
  split at hchecked
  · rename_i r r' hreports
    simp only [Bool.and_eq_true, decide_eq_true_eq, bne_iff_ne] at hchecked
    obtain ⟨⟨⟨hlate, hlate'⟩, hkey⟩, hlease⟩ := hchecked
    exact ⟨r, r', hreports, hlate, hlate', hkey, hlease⟩
  · cases hchecked

/-- The store after a report. -/
def reported (db : Database) (r : LateReport) : Database :=
  db.commit ((r.run .plain db).map Prod.snd)

/-- A report writes nothing that makes another one late. -/
theorem late_reported {db : Database} {r r' : LateReport} (h : r'.Late db) :
    r'.Late (reported db r) := by
  cases hrun : r.run .plain db with
  | error e =>
    rw [reported, hrun]
    exact h
  | ok result =>
    obtain ⟨answer, db'⟩ := result
    obtain ⟨records, ignored, rfl⟩ := BackgroundJobService.recordIgnoredResult_ok hrun
    obtain ⟨job, lease, hlost⟩ := h
    rw [reported, hrun]
    exact ⟨job, lease, hlost.job_eq, hlost.lease_eq, hlost.task, hlost.lost, hlost.effect⟩

/-- Both workers report. -/
theorem lateRun_two {db : Database} {r r' : LateReport} (h : r.Late db) (h' : r'.Late db) :
    LateRun .plain db [⟨r, db⟩, ⟨r', reported db r⟩] (reported (reported db r) r') :=
  .report (.report .start r h) r' (late_reported h')

theorem not_retained_two {db db' : Database} {r r' : LateReport}
    (hkey : r.key .plain = r'.key .plain)
    (hlease : r.call.grant.leaseId ≠ r'.call.grant.leaseId) :
    ¬ ∀ m ∈ [Reported.mk r db, ⟨r', reported db r⟩], m.Retained .plain db' := by
  intro hkept
  simp only [List.forall_mem_cons] at hkept
  obtain ⟨hfirst, hsecond, -⟩ := hkept
  exact hlease (hfirst.leaseId_eq hsecond hkey)

end TwoLosersExample

open TwoLosersExample in
/-- Two workers lose their leases on one effect, and only one of their results is kept. -/
theorem not_retained_losers :
    ∃ r r' db, reports lost (seconds 31) = [r, r'] ∧
      LateRun .plain lost.db [⟨r, lost.db⟩, ⟨r', reported lost.db r⟩] db ∧
      ¬ ∀ m ∈ [Reported.mk r lost.db, ⟨r', reported lost.db r⟩], m.Retained .plain db := by
  obtain ⟨r, r', hreports, hlate, hlate', hkey, hlease⟩ := exists_reports
  exact ⟨r, r', _, hreports, lateRun_two hlate hlate', not_retained_two hkey hlease⟩

open TwoLosersExample in
theorem retained_iff_of_run_losers :
    ∃ r r' db, reports lost (seconds 31) = [r, r'] ∧
      ((∀ m ∈ [Reported.mk r lost.db, ⟨r', reported lost.db r⟩], m.Retained .plain db) ↔
        ∀ m ∈ [Reported.mk r lost.db, ⟨r', reported lost.db r⟩],
          Retainable .plain m.before m.report) := by
  obtain ⟨r, r', hreports, hlate, hlate', -⟩ := exists_reports
  exact ⟨r, r', _, hreports, retained_iff_of_run (lateRun_two hlate hlate')⟩

end ControlPlane
