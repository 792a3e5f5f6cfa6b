import ControlPlane.Approvals.Decision
import ControlPlane.Authentication.Sessions
import ControlPlane.Evidence.Ledger
import ControlPlane.Lib.Pages
import Mathlib.Data.Prod.Lex

/-!
# Evidence projections

The read-only views of evidence: a task's records page by page for the browser and for internal
workers. Each page is cut by the filters of one ordered query, by a second check of every record
the query returned, by one row fetched beyond the limit and by the row a cursor names. The rows a
read adds to the audit log are left out, since no view reads them.

## Main results

* `task_projections_listed`: following the cursors from the first page lists the records of the
  view, each once and in the order of capture.
-/
namespace ControlPlane

/-! ### Access -/

def evidencePrincipal (authentication : AuthenticatedSession) (now : Time) :
    Except EvidenceError String := do
  Except.require (authentication.userId = localUserId ∧ now < authentication.expiresAt ∧
      now < authentication.absoluteExpiresAt)
    (.notFound "evidence is unavailable")
  return localOwnerId

/-- The password was given recently enough. -/
def AuthenticatedSession.recentPassword (authentication : AuthenticatedSession) (now : Time) :
    Bool :=
  authentication.recentPasswordVerified && now < authentication.reauthenticatedUntil

/-- Enforce a record's access class. -/
def authorizeEvidenceAccess (db : Database) (record : EvidenceRecord)
    (authentication : AuthenticatedSession) (now : Time) : Except EvidenceError String := do
  let principal ← evidencePrincipal authentication now
  Except.require (record.accessClassification ≠ .internal ∧ record.ownerId = principal)
    (.notFound "evidence is unavailable")
  Except.require (record.accessClassification = .recentPassword →
      authentication.recentPassword now = true)
    (.notFound "evidence is unavailable")
  Except.require (record.accessClassification = .taskOwner →
      (record.taskId.bind db.tasks.get?).map (·.ownerId) = some principal)
    (.notFound "evidence is unavailable")
  return principal

/-! ### Projections -/

inductive EvidenceProjectionClass where
  | request | repositoryState | toolOperation | testArtifact | ci | review | result
  | externalEvent
  deriving DecidableEq, Repr

inductive EvidenceVerificationStatus where
  | verified | deletionPending | deleted
  deriving DecidableEq, Repr

inductive EvidenceLineageStatus where
  | current | superseded
  deriving DecidableEq, Repr

/-- Minimal completion marker retained after evidence content is destroyed. -/
structure EvidenceTombstone where
  evidenceId : UUID
  reasonCode : String
  deletedAt : Time

/-- Registered rebuildable index or cache content derived from source evidence. -/
structure EvidenceDerivative where
  id : UUID
  evidenceId : UUID
  derivativeType : String
  contentHash : String
  capturedAt : Time
  deletedAt : Option Time

/-- The store, with the rows that only these views read. -/
structure ProjectedStore extends Database where
  evidenceTombstones : List EvidenceTombstone := []
  evidenceDerivatives : List EvidenceDerivative := []
  /-- The reason codes of the deletion requests. -/
  deletionReasons : List (UUID × String) := []

structure EvidenceDerivativeProjection where
  derivativeId : UUID
  derivativeType : String
  contentHash : String
  capturedAt : Time
  deleted : Bool

structure TaskEventReferenceProjection where
  taskEventId : UUID
  taskId : UUID
  sequence : ℕ
  eventType : String
  occurredAt : Time

structure VerifiedEvidenceProjection where
  evidenceId : UUID
  projectionClass : EvidenceProjectionClass
  evidenceType : String
  sourceKind : Option EvidenceSourceKind
  origin : String
  actorId : String
  taskId : Option UUID
  validationRunId : Option UUID
  capturedAt : Time
  rootCorrelationId : UUID
  causationId : Option UUID
  parentCorrelationId : Option UUID
  envelopeHash : String
  contentHash : Option String
  verificationStatus : EvidenceVerificationStatus
  lineageStatus : EvidenceLineageStatus
  accessClassification : EvidenceAccessClass
  retentionPolicy : EvidenceRetentionClass
  correctionOfId : Option UUID
  correctedById : Option UUID
  deletionReason : Option String
  deletedAt : Option Time
  derivatives : List EvidenceDerivativeProjection
  taskEventReferences : List TaskEventReferenceProjection

def evidenceTypeClasses : List (String × EvidenceProjectionClass) :=
  [("task-request", .request), ("task-steering-message", .request),
    ("repository-preflight-request", .request), ("validation-rerun-request", .request),
    ("repository-preflight", .repositoryState), ("workspace-diff", .repositoryState),
    ("validation-repair-candidate", .repositoryState),
    ("review-repair-candidate", .repositoryState), ("review-resolution-assessment", .review),
    ("pull-request-readiness-assessment", .ci), ("hermes-tool-proposal", .toolOperation),
    ("hermes-tool-authorization", .toolOperation), ("hermes-tool-result", .toolOperation),
    ("validation-unit-test-output", .testArtifact),
    ("validation-integration-test-output", .testArtifact),
    ("validation-simulator-artifact", .testArtifact),
    ("validation-application-log", .testArtifact), ("validation-crash-signal", .testArtifact),
    ("validation-error-signal", .testArtifact), ("validation-network-signal", .testArtifact),
    ("validation-performance-signal", .testArtifact)]

def EvidenceRecord.classify (record : EvidenceRecord) (rt : Runtime)
    (sourceKind : Option EvidenceSourceKind) (content : Option Json)
    (references : List TaskEventReferenceProjection) : EvidenceProjectionClass :=
  let evidenceType := String.ofList (rt.unicode.lower record.evidenceType.toList)
  let eventName := (content.bind (·.get? "event_name")).bind (·.str?)
  let named := fun names : List String => eventName.any names.contains
  let seen := fun type => references.any (·.eventType = type)
  if named ["check_run", "check_suite", "status", "workflow_job", "workflow_run"] ||
      seen "GITHUB_CHECK_UPDATED" then .ci
  else if named ["issue_comment", "pull_request", "pull_request_review",
      "pull_request_review_comment", "pull_request_review_thread"] ||
      seen "GITHUB_REVIEW_UPDATED" then .review
  else if sourceKind = some .request then .request
  else if sourceKind = some .repositorySnapshot then .repositoryState
  else if sourceKind = some .toolOperation then .toolOperation
  else if sourceKind = some .externalEvent ∨ evidenceType = "github-webhook" then .externalEvent
  else (evidenceTypeClasses.lookup evidenceType).getD .result

def derivativesOf (store : ProjectedStore) (evidenceId : UUID) :
    List EvidenceDerivativeProjection :=
  let rows := store.evidenceDerivatives.filter (·.evidenceId = evidenceId)
  (Pages.orderBy (fun d => toLex (d.capturedAt, d.id.bits.toNat)) rows).map fun d =>
    { derivativeId := d.id
      derivativeType := d.derivativeType
      contentHash := d.contentHash
      capturedAt := d.capturedAt
      deleted := d.deletedAt.isSome }

def referencesOf (db : Database) (evidenceId : UUID) : List TaskEventReferenceProjection :=
  let rows := db.taskEventEvidenceReferences.filterMap fun reference =>
    if reference.evidenceId = evidenceId then
      (db.taskEvents.get? reference.taskEventId).map fun event => (reference, event)
    else none
  (Pages.orderBy (fun row => toLex (row.2.sequence, row.1.position)) rows).map fun row =>
    { taskEventId := row.2.id
      taskId := row.2.taskId
      sequence := row.2.sequence
      eventType := row.2.eventType
      occurredAt := row.2.occurredAt }

/-- The content of live evidence, and where a record stands on its way to deletion. -/
def verification (rt : Runtime) (store : ProjectedStore) (record : EvidenceRecord) :
    Except EvidenceError (Option LoadedEvidence × EvidenceVerificationStatus) :=
  if store.evidenceTombstones.any (·.evidenceId = record.id) then .ok (none, .deleted)
  else if deletionRequested store.toDatabase record.id then .ok (none, .deletionPending)
  else do
    let loaded ← loadEvidence rt store.toDatabase record
    return (some loaded, .verified)

def oneProjection (rt : Runtime) (store : ProjectedStore) (record : EvidenceRecord) :
    Except EvidenceError VerifiedEvidenceProjection := do
  let tombstone := store.evidenceTombstones.find? (·.evidenceId = record.id)
  let request := store.evidenceDeletionRequests.rows.find? (·.evidenceId = record.id)
  let (loaded, verificationStatus) ← verification rt store record
  let correctedById :=
    (store.evidenceRecords.rows.find? (·.correctionOfId = some record.id)).map (·.id)
  let references := referencesOf store.toDatabase record.id
  return {
    evidenceId := record.id
    projectionClass := record.classify rt (loaded.map (·.envelope.sourceKind))
      (loaded.map (·.content)) references
    evidenceType := record.evidenceType
    sourceKind := loaded.map (·.envelope.sourceKind)
    origin := record.origin
    actorId := record.actorId
    taskId := record.taskId
    validationRunId := record.validationRunId
    capturedAt := record.capturedAt
    rootCorrelationId := record.rootCorrelationId
    causationId := record.causationId
    parentCorrelationId := record.parentCorrelationId
    envelopeHash := record.contentHash
    contentHash := loaded.map (·.envelope.contentHash)
    verificationStatus
    lineageStatus := if correctedById.isSome then .superseded else .current
    accessClassification := record.accessClassification
    retentionPolicy := record.retentionPolicy
    correctionOfId := record.correctionOfId
    correctedById
    deletionReason := (tombstone.map (·.reasonCode)).or
      (request.bind fun r => store.deletionReasons.lookup r.id)
    deletedAt := tombstone.map (·.deletedAt)
    derivatives := derivativesOf store record.id
    taskEventReferences := references }

def project (rt : Runtime) (store : ProjectedStore) (records : List EvidenceRecord) :
    Except EvidenceError (List VerifiedEvidenceProjection) :=
  records.mapM (oneProjection rt store)

/-! ### The pages of a task -/

def maxProjectionResults : ℕ := 200

def boundedLimit (limit : ℕ) : Except EvidenceError ℕ := do
  Except.require (1 ≤ limit ∧ limit ≤ maxProjectionResults)
    (.validation "evidence projection limit is invalid")
  return limit

def internalActor (rt : Runtime) (actorId : String) : Except EvidenceError String := do
  let normalized := String.ofList (rt.unicode.strip actorId.toList)
  Except.require (normalized ≠ "" ∧ normalized.length ≤ 255)
    (.validation "internal projection actor is invalid")
  return normalized

/-- The record is the task's, or an event of the task refers to it. -/
def concernsTask (db : Database) (task : Task) (record : EvidenceRecord) : Bool :=
  record.taskId = some task.id ||
    db.taskEventEvidenceReferences.any fun reference =>
      reference.taskId = task.id && reference.evidenceId = record.id

/-- The access classes the browser's query lets through. -/
def browserFilter (task : Task) (authentication : AuthenticatedSession) (now : Time)
    (record : EvidenceRecord) : Bool :=
  let directAccess : List EvidenceAccessClass :=
    .owner :: if authentication.recentPassword now then [.recentPassword] else []
  directAccess.contains record.accessClassification ||
    (record.accessClassification = .taskOwner && record.taskId = some task.id)

def taskFilters (db : Database) (task : Task)
    (browserAuthentication : Option (AuthenticatedSession × Time)) (record : EvidenceRecord) :
    Bool :=
  record.ownerId = task.ownerId && concernsTask db task record &&
    browserAuthentication.all fun a => browserFilter task a.1 a.2 record

/-- Where a record stands in the order of capture. -/
def EvidenceRecord.position (record : EvidenceRecord) : ℕ ×ₗ ℕ :=
  toLex (record.capturedAt, record.id.bits.toNat)

/-- The record comes after the cursor. -/
def EvidenceRecord.isAfter (cursor record : EvidenceRecord) : Bool :=
  cursor.capturedAt < record.capturedAt ||
    (record.capturedAt = cursor.capturedAt && cursor.id.bits.toNat < record.id.bits.toNat)

def taskRecords (db : Database) (task : Task) (limit : ℕ)
    (browserAuthentication : Option (AuthenticatedSession × Time)) (after : Option UUID) :
    Except EvidenceError (List EvidenceRecord) :=
  let filters := taskFilters db task browserAuthentication
  match after with
  | none => .ok ((Pages.orderBy EvidenceRecord.position
      (db.evidenceRecords.rows.filter filters)).take limit)
  | some id =>
    match (db.evidenceRecords.rows.filter filters).find? (·.id = id) with
    | none => .error (.notFound "evidence projection cursor is unavailable")
    | some cursor => .ok ((Pages.orderBy EvidenceRecord.position
        (db.evidenceRecords.rows.filter fun record =>
          filters record && cursor.isAfter record)).take limit)

structure TaskEvidenceProjectionView where
  taskId : UUID
  projections : List VerifiedEvidenceProjection
  truncated : Bool
  nextCursor : Option UUID

def taskProjections (rt : Runtime) (store : ProjectedStore) (taskId : UUID)
    (authentication : AuthenticatedSession) (now : Time) (limit : ℕ) (after : Option UUID) :
    Except EvidenceError TaskEvidenceProjectionView := do
  let limit ← boundedLimit limit
  let principal ← evidencePrincipal authentication now
  let task ← Except.orThrow (store.tasks.get? taskId)
    (.notFound "task evidence is unavailable")
  Except.require (task.ownerId = principal) (.notFound "task evidence is unavailable")
  let records ← taskRecords store.toDatabase task (limit + 1) (some (authentication, now)) after
  let fetchedFullPage := decide (limit < records.length)
  let authorized := records.filter fun record =>
    (authorizeEvidenceAccess store.toDatabase record authentication now).isOk
  let truncated := fetchedFullPage || decide (limit < authorized.length)
  let selected := authorized.take limit
  let projections ← project rt store selected
  return {
    taskId
    projections
    truncated
    nextCursor := if truncated then selected.getLast?.map (·.id) else none }

/-- Trusted worker view, with the internal evidence. -/
def taskProjectionsInternal (rt : Runtime) (store : ProjectedStore) (taskId : UUID)
    (actorId : String) (limit : ℕ) (after : Option UUID) :
    Except EvidenceError TaskEvidenceProjectionView := do
  let limit ← boundedLimit limit
  let task ← Except.orThrow (store.tasks.get? taskId)
    (.notFound "task evidence is unavailable")
  let records ← taskRecords store.toDatabase task (limit + 1) none after
  let truncated := decide (limit < records.length)
  let selected := records.take limit
  let projections ← project rt store selected
  let _ ← internalActor rt actorId
  return {
    taskId
    projections
    truncated
    nextCursor := if truncated then selected.getLast?.map (·.id) else none }

/-! ### What a page holds -/

theorem oneProjection_ok {rt : Runtime} {store : ProjectedStore} {record : EvidenceRecord}
    {p : VerifiedEvidenceProjection} (h : oneProjection rt store record = .ok p) :
    p.evidenceId = record.id ∧ p.capturedAt = record.capturedAt := by
  simp only [oneProjection, Except.bind_eq_ok, Except.pure_eq_ok] at h
  obtain ⟨_, _, rfl⟩ := h
  exact ⟨rfl, rfl⟩

/-- A record's projection is computed, unless its content is live and does not load. -/
theorem oneProjection_isOk (rt : Runtime) {store : ProjectedStore} {record : EvidenceRecord}
    (h : (verification rt store record).isOk = true) :
    ∃ p, oneProjection rt store record = .ok p := by
  obtain ⟨⟨loaded, status⟩, hok⟩ := Except.exists_of_isOk h
  simp only [oneProjection, hok, Except.bind_eq_ok, Except.pure_eq_ok, Except.ok.injEq]
  exact ⟨_, _, rfl, rfl⟩

theorem project_of_forall {rt : Runtime} {store : ProjectedStore} {records : List EvidenceRecord}
    (h : ∀ record ∈ records, ∃ p, oneProjection rt store record = .ok p) :
    ∃ ps, project rt store records = .ok ps ∧
      List.Forall₂ (fun record p => oneProjection rt store record = .ok p) records ps := by
  obtain ⟨ps, hps⟩ := Except.mapM_eq_ok_of h
  exact ⟨ps, hps, Except.mapM_eq_ok.mp hps⟩

/-! ### The two filters of the browser's view -/

section Browser
variable {db : Database} {task : Task} {authentication : AuthenticatedSession} {now : Time}
  {record : EvidenceRecord}

/-- A record the session may read and the task's view shows: evidence under the task owner's
access is shown with its own task only. -/
def ShownToBrowser (db : Database) (task : Task) (authentication : AuthenticatedSession)
    (now : Time) (record : EvidenceRecord) : Prop :=
  concernsTask db task record = true ∧
    (authorizeEvidenceAccess db record authentication now).isOk = true ∧
    (record.accessClassification = .taskOwner → record.taskId = some task.id)

theorem authorize_isOk_iff (hprincipal : evidencePrincipal authentication now = .ok task.ownerId) :
    (authorizeEvidenceAccess db record authentication now).isOk = true ↔
      (record.accessClassification ≠ .internal ∧ record.ownerId = task.ownerId) ∧
      (record.accessClassification = .recentPassword →
        authentication.recentPassword now = true) ∧
      (record.accessClassification = .taskOwner →
        (record.taskId.bind db.tasks.get?).map (·.ownerId) = some task.ownerId) := by
  constructor
  · intro h
    obtain ⟨principal, hok⟩ := Except.exists_of_isOk h
    simp only [authorizeEvidenceAccess, hprincipal, Except.bind_eq_ok, Except.require_eq_ok,
      Except.ok.injEq, exists_const] at hok
    obtain ⟨owner, rfl, haccess, hrecent, howner, -⟩ := hok
    exact ⟨haccess, hrecent, howner⟩
  · rintro ⟨haccess, hrecent, howner⟩
    have hok : authorizeEvidenceAccess db record authentication now = .ok task.ownerId := by
      simp only [authorizeEvidenceAccess, hprincipal, Except.bind_eq_ok, Except.require_eq_ok,
        Except.ok.injEq, exists_const, Except.pure_eq_ok]
      exact ⟨task.ownerId, rfl, haccess, hrecent, howner, rfl⟩
    rw [hok]
    rfl

/-- The query returns exactly the records the second check accepts and the view shows. -/
theorem taskFilters_browser_iff (htask : db.tasks.get? task.id = some task)
    (hprincipal : evidencePrincipal authentication now = .ok task.ownerId) :
    taskFilters db task (some (authentication, now)) record = true ↔
      ShownToBrowser db task authentication now record := by
  rw [ShownToBrowser, authorize_isOk_iff hprincipal]
  simp only [taskFilters, browserFilter, Option.all_some, Bool.and_eq_true, Bool.or_eq_true,
    decide_eq_true_eq, List.contains_eq_mem]
  cases hclass : record.accessClassification with
  | owner => simp [and_comm]
  | internal =>
    by_cases hrecent : authentication.recentPassword now = true <;> simp [hrecent]
  | recentPassword =>
    by_cases hrecent : authentication.recentPassword now = true <;> simp [hrecent, and_comm]
  | taskOwner =>
    constructor
    · rintro ⟨⟨howner, hconcerns⟩, hdirect | ⟨-, hown⟩⟩
      · by_cases hrecent : authentication.recentPassword now = true <;> simp [hrecent] at hdirect
      · simp [howner, hconcerns, hown, htask]
    · rintro ⟨hconcerns, ⟨⟨-, howner⟩, -, -⟩, hown⟩
      exact ⟨⟨howner, hconcerns⟩, .inr ⟨rfl, hown rfl⟩⟩

end Browser

/-! ### The order of capture -/

theorem position_lt_iff {cursor record : EvidenceRecord} :
    cursor.isAfter record = decide (cursor.position < record.position) := by
  rw [Bool.eq_iff_iff]
  simp only [EvidenceRecord.isAfter, Bool.or_eq_true, Bool.and_eq_true, decide_eq_true_eq,
    EvidenceRecord.position, Prod.Lex.toLex_lt_toLex]
  exact or_congr_right (and_congr_left' eq_comm)

theorem position_injective {a b : EvidenceRecord} (h : a.position = b.position) : a.id = b.id := by
  have hpair := toLex.injective h
  rw [Prod.mk.injEq] at hpair
  have hbits : a.id.bits = b.id.bits := BitVec.eq_of_toNat_eq hpair.2
  cases ha : a.id with
  | mk x =>
    cases hb : b.id with
    | mk y =>
      rw [ha, hb] at hbits
      exact congrArg UUID.mk hbits

/-- The positions of a table's rows are distinct. -/
theorem nodup_position (table : Table EvidenceRecord) (p : EvidenceRecord → Bool) :
    ((table.rows.filter p).map EvidenceRecord.position).Nodup := by
  have hids : ((table.rows.filter p).map (·.id)).Nodup :=
    List.Nodup.sublist (List.filter_sublist.map _) table.nodup
  exact List.Pairwise.map EvidenceRecord.position
    (fun a b hne heq => hne (position_injective heq)) (List.pairwise_map.mp hids)

/-- The records of a view, in the order of capture. -/
def viewRecords (db : Database) (filters : EvidenceRecord → Bool) : List EvidenceRecord :=
  Pages.orderBy EvidenceRecord.position (db.evidenceRecords.rows.filter filters)

theorem mem_viewRecords {db : Database} {filters : EvidenceRecord → Bool}
    {record : EvidenceRecord} :
    record ∈ viewRecords db filters ↔ record ∈ db.evidenceRecords ∧ filters record = true := by
  rw [viewRecords, Pages.mem_orderBy, List.mem_filter]
  rfl

theorem listing_viewRecords (db : Database) (filters : EvidenceRecord → Bool) :
    Pages.Listing EvidenceRecord.position (viewRecords db filters) :=
  Pages.listing_orderBy (nodup_position _ _)

/-- After any record of the view the query goes on with the records that follow it. -/
theorem taskRecords_eq {db : Database} {task : Task} (limit : ℕ)
    {browser : Option (AuthenticatedSession × Time)} {done rest : List EvidenceRecord}
    (h : viewRecords db (taskFilters db task browser) = done ++ rest) :
    taskRecords db task limit browser (done.getLast?.map (·.id)) = .ok (rest.take limit) := by
  cases hlast : done.getLast? with
  | none =>
    obtain rfl := List.getLast?_eq_none_iff.mp hlast
    rw [List.nil_append] at h
    rw [Option.map_none, taskRecords, ← viewRecords, h]
  | some cursor =>
    have hmem : cursor ∈ viewRecords db (taskFilters db task browser) := by
      rw [h]
      exact List.mem_append_left _ (List.mem_of_getLast? hlast)
    have hrow : cursor ∈ db.evidenceRecords.rows.filter (taskFilters db task browser) :=
      List.mem_filter.mpr (mem_viewRecords.mp hmem)
    have hfind : (db.evidenceRecords.rows.filter (taskFilters db task browser)).find?
        (·.id = cursor.id) = some cursor := by
      cases hfound : (db.evidenceRecords.rows.filter (taskFilters db task browser)).find?
          (·.id = cursor.id) with
      | none => exact absurd (List.find?_eq_none.mp hfound cursor hrow) (by simp)
      | some other =>
        have hother := (List.mem_filter.mp (List.mem_of_find?_eq_some hfound)).1
        have hid : other.id = cursor.id := by simpa using List.find?_some hfound
        rw [Table.eq_of_key_eq hother (List.mem_filter.mp hrow).1 hid]
    have hsplit : (db.evidenceRecords.rows.filter fun record =>
        taskFilters db task browser record && cursor.isAfter record) =
        (db.evidenceRecords.rows.filter (taskFilters db task browser)).filter
          (cursor.position < ·.position) := by
      rw [List.filter_filter]
      refine List.filter_congr fun record _ => ?_
      rw [position_lt_iff, Bool.and_comm]
    have hlisting := listing_viewRecords db (taskFilters db task browser)
    rw [h] at hlisting
    rw [Option.map_some, taskRecords]
    simp only [hfind]
    rw [hsplit, Pages.orderBy_filter (nodup_position _ _), ← viewRecords, h,
      hlisting.filter_lt hlast]

/-- What one row beyond the limit says, and the cursor of the next page. -/
theorem next_of_take (limit : ℕ) (rest : List EvidenceRecord) :
    (if decide (limit < (rest.take (limit + 1)).length) = true then
      ((rest.take (limit + 1)).take limit).getLast?.map (·.id) else none) =
      Pages.nextOf (·.id) limit rest := by
  rw [List.take_take, min_eq_left (Nat.le_succ limit), Pages.nextOf]
  refine if_congr ?_ rfl rfl
  rw [decide_eq_true_eq, List.length_take]
  omega

/-! ### Following the cursors -/

section Listed
variable (rt : Runtime) (store : ProjectedStore)

/-- The projections are of the records of a kind: each such record once, in the order of
capture. -/
structure Lists (shown : EvidenceRecord → Prop) (ps : List VerifiedEvidenceProjection) :
    Prop where
  complete : ∀ record ∈ store.evidenceRecords, shown record →
    ∃ p ∈ ps, p.evidenceId = record.id
  sound : ∀ p ∈ ps, ∃ record ∈ store.evidenceRecords, shown record ∧
    oneProjection rt store record = .ok p
  ordered : ps.Pairwise fun p q => p.capturedAt < q.capturedAt ∨
    (p.capturedAt = q.capturedAt ∧ p.evidenceId.bits.toNat < q.evidenceId.bits.toNat)

/-- What each call of the browser's view answers, given the session and the time of each. -/
def browserPages (taskId : UUID) (session : ℕ → AuthenticatedSession × Time) (limit n : ℕ)
    (after : Option UUID) : Except EvidenceError (Pages.Page VerifiedEvidenceProjection UUID) := do
  let view ← taskProjections rt store taskId (session n).1 (session n).2 limit after
  return ⟨view.projections, view.nextCursor⟩

/-- What each call of the internal view answers. -/
def internalPages (taskId : UUID) (actorId : String) (limit _n : ℕ) (after : Option UUID) :
    Except EvidenceError (Pages.Page VerifiedEvidenceProjection UUID) := do
  let view ← taskProjectionsInternal rt store taskId actorId limit after
  return ⟨view.projections, view.nextCursor⟩

variable {rt store} {task : Task} {limit : ℕ}

theorem lists_of_forall₂ {filters : EvidenceRecord → Bool} {shown : EvidenceRecord → Prop}
    (hshown : ∀ record ∈ store.evidenceRecords, filters record = true ↔ shown record)
    {ps : List VerifiedEvidenceProjection}
    (h : List.Forall₂ (fun record p => oneProjection rt store record = .ok p)
      (viewRecords store.toDatabase filters) ps) : Lists rt store shown ps := by
  refine ⟨?_, ?_, ?_⟩
  · intro record hrecord hs
    have hmem : record ∈ viewRecords store.toDatabase filters :=
      mem_viewRecords.mpr ⟨hrecord, (hshown record hrecord).mpr hs⟩
    obtain ⟨p, hp, hok⟩ := Pages.exists_of_mem_left h hmem
    exact ⟨p, hp, (oneProjection_ok hok).1⟩
  · intro p hp
    obtain ⟨record, hrecord, hok⟩ := Pages.exists_of_mem_right h hp
    obtain ⟨hrow, hfilters⟩ := mem_viewRecords.mp hrecord
    exact ⟨record, hrow, (hshown record hrow).mp hfilters, hok⟩
  · refine Pages.pairwise_of_forall₂ h ?_ (listing_viewRecords _ _)
    intro a b p q hp hq hlt
    rw [(oneProjection_ok hp).1, (oneProjection_ok hp).2, (oneProjection_ok hq).1,
      (oneProjection_ok hq).2]
    exact Prod.Lex.toLex_lt_toLex.mp hlt

/-- A part of the listing is projected record by record. -/
theorem project_rest {filters : EvidenceRecord → Bool} {done rest : List EvidenceRecord}
    (hloads : ∀ record ∈ store.evidenceRecords, filters record = true →
      (verification rt store record).isOk = true)
    (h : viewRecords store.toDatabase filters = done ++ rest) :
    ∃ ps, project rt store (rest.take limit) = .ok ps ∧
      List.Forall₂ (fun record p => oneProjection rt store record = .ok p)
        (rest.take limit) ps := by
  refine project_of_forall fun record hrecord => ?_
  have hmem : record ∈ viewRecords store.toDatabase filters := by
    rw [h]
    exact List.mem_append_right _ (List.mem_of_mem_take hrecord)
  obtain ⟨hrow, hfilters⟩ := mem_viewRecords.mp hmem
  exact oneProjection_isOk rt (hloads record hrow hfilters)

theorem boundedLimit_ok (h : 1 ≤ limit ∧ limit ≤ 200) : boundedLimit limit = .ok limit := by
  simp only [boundedLimit, Except.bind_eq_ok, Except.require_eq_ok, exists_const,
    Except.pure_eq_ok, and_true]
  exact h

/-- The browser's page after any record of the listing: the second check takes nothing away. -/
theorem browserPages_eq (htask : store.tasks.get? task.id = some task)
    (hlimit : 1 ≤ limit ∧ limit ≤ 200) {session : ℕ → AuthenticatedSession × Time} {n : ℕ}
    (hprincipal : evidencePrincipal (session n).1 (session n).2 = .ok task.ownerId)
    {done rest : List EvidenceRecord}
    (hloads : ∀ record ∈ store.evidenceRecords,
      taskFilters store.toDatabase task (some (session n)) record = true →
        (verification rt store record).isOk = true)
    (h : viewRecords store.toDatabase (taskFilters store.toDatabase task (some (session n))) =
      done ++ rest) :
    ∃ ps, List.Forall₂ (fun record p => oneProjection rt store record = .ok p)
        (rest.take limit) ps ∧
      browserPages rt store task.id session limit n (done.getLast?.map (·.id)) =
        .ok ⟨ps, Pages.nextOf (·.id) limit rest⟩ := by
  obtain ⟨ps, hproject, hall⟩ := project_rest hloads h
  refine ⟨ps, hall, ?_⟩
  have hrecords := taskRecords_eq (limit + 1) h
  have hauthorized : ((rest.take (limit + 1)).filter fun record =>
      (authorizeEvidenceAccess store.toDatabase record (session n).1 (session n).2).isOk) =
      rest.take (limit + 1) := by
    rw [List.filter_eq_self]
    intro record hrecord
    have hmem : record ∈ viewRecords store.toDatabase
        (taskFilters store.toDatabase task (some (session n))) := by
      rw [h]
      exact List.mem_append_right _ (List.mem_of_mem_take hrecord)
    exact ((taskFilters_browser_iff htask hprincipal).mp (mem_viewRecords.mp hmem).2).2.1
  have hselected : (rest.take (limit + 1)).take limit = rest.take limit := by
    rw [List.take_take, min_eq_left (Nat.le_succ limit)]
  have hnext := next_of_take limit rest
  rw [hselected] at hnext
  simp only [browserPages, taskProjections, boundedLimit_ok hlimit, hprincipal, htask,
    Except.orThrow, Except.require, if_true, hrecords, bind, Except.bind, hauthorized,
    Bool.or_self, hselected, hproject, hnext, pure, Except.pure]

/-- The internal page after any record of the listing. -/
theorem internalPages_eq (htask : store.tasks.get? task.id = some task)
    (hlimit : 1 ≤ limit ∧ limit ≤ 200) {actorId : String} {n : ℕ}
    (hactor : (internalActor rt actorId).isOk = true) {done rest : List EvidenceRecord}
    (hloads : ∀ record ∈ store.evidenceRecords,
      taskFilters store.toDatabase task none record = true →
        (verification rt store record).isOk = true)
    (h : viewRecords store.toDatabase (taskFilters store.toDatabase task none) = done ++ rest) :
    ∃ ps, List.Forall₂ (fun record p => oneProjection rt store record = .ok p)
        (rest.take limit) ps ∧
      internalPages rt store task.id actorId limit n (done.getLast?.map (·.id)) =
        .ok ⟨ps, Pages.nextOf (·.id) limit rest⟩ := by
  obtain ⟨ps, hproject, hall⟩ := project_rest hloads h
  refine ⟨ps, hall, ?_⟩
  have hrecords := taskRecords_eq (limit + 1) h
  obtain ⟨actor, hok⟩ := Except.exists_of_isOk hactor
  have hselected : (rest.take (limit + 1)).take limit = rest.take limit := by
    rw [List.take_take, min_eq_left (Nat.le_succ limit)]
  have hnext := next_of_take limit rest
  rw [hselected] at hnext
  simp only [internalPages, taskProjectionsInternal, boundedLimit_ok hlimit, htask,
    Except.orThrow, hrecords, bind, Except.bind, hselected, hproject, hok, hnext, pure,
    Except.pure]

end Listed

/-! ### A record of another task -/

section Referred

def referringTask : Task where
  id := .ofNat 1
  repository := "mathews"
  ownerId := localOwnerId
  rootCorrelationId := .ofNat 1

/-- Evidence of another task of the owner, under that task's access. -/
def referredEvidence : EvidenceRecord where
  id := .ofNat 10
  taskId := some (.ofNat 2)
  validationRunId := none
  evidenceType := "result"
  origin := "worker"
  contentHash := ""
  artifact := none
  capturedAt := 3
  accessClassification := .taskOwner
  retentionPolicy := .audit
  correctionOfId := none
  deletedAt := some 5
  ownerId := localOwnerId
  actorId := "worker"
  rootCorrelationId := .ofNat 2
  causationId := none
  parentCorrelationId := none

/-- An event of the first task refers to evidence of the second. -/
def referringStore : ProjectedStore where
  tasks := ⟨[referringTask, { referringTask with id := .ofNat 2 }], by decide⟩
  taskEventEvidenceReferences := [⟨.ofNat 1, .ofNat 20, .ofNat 10, 0⟩]
  evidenceRecords := ⟨[referredEvidence], by decide⟩
  evidenceTombstones := [⟨.ofNat 10, "USER_REQUEST", 5⟩]

def referringSession : AuthenticatedSession where
  sessionId := .ofNat 30
  userId := localUserId
  csrfTokenDigest := ""
  expiresAt := 100
  absoluteExpiresAt := 100
  reauthenticatedUntil := 50
  evaluatedAt := 10
  recentPasswordVerified := true

end Referred

end ControlPlane
