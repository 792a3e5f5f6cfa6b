import ControlPlane.Evidence.Deletion
import ControlPlane.Evidence.Projections
import ControlPlane.Lib.System
import Mathlib.Data.List.Chain

/-!
# Chains of corrections

A record of evidence is never changed; what is wrong in it is corrected by a later record that
names it. Captures, corrections by the user and deletions meet on the same records in any
order; the task names the newest version of its request.

## Main definitions

* `createCorrection`, `requestDeletion`, `requestInternalDeletion`, `createTaskRecord`
* `evidenceSystem`: the runs of these with finalisations and whatever the other services do.
* `SoundChains`, `NamesRequest`

## Main results

* `corrections_of_reachable`: in every state the corrections form chains of one lineage, each
  task names the tip of its request, and what is fenced or corrected gets no correction later.
-/
namespace ControlPlane.Deletion

/-! ### Operations -/

/-- A record that is there and not fenced. -/
def liveRecord (db : Database) (evidenceId : UUID) : Except EvidenceError EvidenceRecord := do
  let record ← Except.orThrow (db.evidenceRecords.get? evidenceId)
    (.notFound "evidence is unavailable")
  Except.require (record.deletedAt = none ∧ deletionRequested db evidenceId = false)
    (.notFound "evidence is unavailable")
  return record

/-- The arguments of a correction by the user. -/
structure CorrectionCommand where
  evidenceId : UUID
  payload : Json
  mediaType : MediaType
  authentication : AuthenticatedSession
  now : Time
  correctionId : UUID

/-- The capture of a correction: everything but the content is that of the original. -/
def CorrectionCommand.capture (c : CorrectionCommand) (record : EvidenceRecord)
    (sourceKind : EvidenceSourceKind) (principal : String) : EvidenceCapture where
  payload := c.payload
  mediaType := c.mediaType
  sourceKind := sourceKind
  evidenceType := record.evidenceType
  origin := "local-user:correction"
  accessClassification := record.accessClassification
  retentionPolicy := record.retentionPolicy
  ownerId := record.ownerId
  actorId := principal
  rootCorrelationId := record.rootCorrelationId
  taskId := record.taskId
  validationRunId := record.validationRunId
  causationId := some record.id
  parentCorrelationId := some record.rootCorrelationId
  correctionOfId := some record.id
  evidenceId := c.correctionId
  capturedAt := c.now

/-- Append one successor; the corrected row stays untouched. -/
def createCorrection (rt : Runtime) (db : Database) (c : CorrectionCommand) :
    Except EvidenceError (CapturedEvidence × Database) := do
  let record ← liveRecord db c.evidenceId
  let principal ← authorizeEvidenceAccess db record c.authentication c.now
  Except.require (c.authentication.recentPassword c.now = true)
    (.notFound "evidence is unavailable")
  Except.require (corrected db record.id = false) (.conflict "evidence already has a correction")
  let loaded ← loadEvidence rt db record
  Except.require (loaded.mediaType = c.mediaType)
    (.conflict "a correction must preserve the media type")
  captureEvidence rt db (c.capture record loaded.envelope.sourceKind principal)

/-- The columns a new request for deletion gets. -/
structure DeletionCommand where
  evidenceId : UUID
  requestId : UUID
  reasonCode : String
  now : Time

/-- Fence a record, once. -/
def stageDeletionRequest (store : EvidenceStore) (record : EvidenceRecord) (c : DeletionCommand) :
    Except EvidenceError (EvidenceDeletionRequest × EvidenceStore) :=
  match store.evidenceDeletionRequests.rows.find? (·.evidenceId = record.id) with
  | some existing => .ok (existing, store)
  | none => do
    let request : EvidenceDeletionRequest := ⟨c.requestId, record.id⟩
    let requests ← Except.orThrow (store.evidenceDeletionRequests.insert? request)
      (.integrity "evidence deletion request is not unique")
    return (request, { store with
      evidenceDeletionRequests := requests
      requestedAt := Function.update store.requestedAt request.id c.now
      reasonCode := Function.update store.reasonCode request.id c.reasonCode })

def requestDeletion (store : EvidenceStore) (c : DeletionCommand)
    (authentication : AuthenticatedSession) :
    Except EvidenceError (EvidenceDeletionRequest × EvidenceStore) := do
  let record ← Except.orThrow (store.evidenceRecords.get? c.evidenceId)
    (.notFound "evidence is unavailable")
  Except.require (record.deletedAt = none) (.notFound "evidence is unavailable")
  let _ ← authorizeEvidenceAccess store.toDatabase record authentication c.now
  Except.require (authentication.recentPassword c.now = true)
    (.notFound "evidence is unavailable")
  stageDeletionRequest store record c

/-- Fence internal evidence for a trusted worker. -/
def requestInternalDeletion (rt : Runtime) (store : EvidenceStore) (c : DeletionCommand)
    (actorId : String) : Except EvidenceError (EvidenceDeletionRequest × EvidenceStore) := do
  let record ← Except.orThrow (store.evidenceRecords.get? c.evidenceId)
    (.notFound "internal evidence is unavailable")
  Except.require (record.deletedAt = none ∧ record.accessClassification = .internal)
    (.notFound "internal evidence is unavailable")
  let _ ← requiredMetadataIdentifier rt actorId "actor id" 255
  stageDeletionRequest store record c

/-! ### Task intake -/

inductive TaskRecordError where
  | value (message : String)
  | evidence (error : EvidenceError)
  deriving DecidableEq

structure TaskIntake where
  repository : String
  baseRevision : String
  requester : String
  rawRequest : String
  summary : String
  ownerId : String
  actorId : String
  taskId : UUID
  evidenceId : UUID
  now : Time

/-- The capture of a new task's request. -/
def TaskIntake.capture (intake : TaskIntake) (ownerId actorId : String) : EvidenceCapture where
  payload := .str intake.rawRequest
  mediaType := .text
  sourceKind := .request
  evidenceType := "task-request"
  origin := "control-plane:task-intake"
  accessClassification := .taskOwner
  retentionPolicy := .taskLifetime
  ownerId := ownerId
  actorId := actorId
  rootCorrelationId := intake.taskId
  taskId := some intake.taskId
  evidenceId := intake.evidenceId
  capturedAt := intake.now

/-- A text that is stripped, not empty and not too long. -/
def strippedText (rt : Runtime) (text : String) (maximum : Option ℕ) (field : String) :
    Except TaskRecordError String := do
  let normalized := String.ofList (rt.unicode.strip text.toList)
  Except.require (normalized ≠ "") (.value s!"task {field} must not be empty")
  Except.require (maximum.all (normalized.length ≤ ·) = true)
    (.value s!"task {field} must not exceed 500 characters")
  return normalized

/-- Capture a redacted request, then stage the task that names it. -/
def createTaskRecord (rt : Runtime) (db : Database) (intake : TaskIntake) :
    Except TaskRecordError (Task × Database) := do
  let redacted ← Except.relabel (redactEvidenceContent rt (.str intake.summary) .text)
    TaskRecordError.evidence
  let summary ← strippedText rt (redacted.value.str?.getD "") (some 500) "summary"
  let repository ← strippedText rt intake.repository (some 500) "repository"
  let revision := rt.unicode.lower (rt.unicode.strip intake.baseRevision.toList)
  Except.require ((revision.length = 40 ∨ revision.length = 64) ∧
      revision.all "0123456789abcdef".toList.contains = true)
    (.value "task base revision must be an exact 40- or 64-character Git object ID")
  let _ ← strippedText rt intake.requester none "requester"
  let _ ← strippedText rt intake.rawRequest none "raw request"
  let owner := String.ofList (rt.unicode.strip intake.ownerId.toList)
  let actor := String.ofList (rt.unicode.strip intake.actorId.toList)
  Except.require (owner ≠ "" ∧ actor ≠ "") (.value "task owner and actor must not be empty")
  let task : Task :=
    { id := intake.taskId, repository, baseRevision := String.ofList revision
      rawRequest := "evidence://capture-pending", summary, ownerId := owner
      rootCorrelationId := intake.taskId }
  let tasks ← Except.orThrow (db.tasks.insert? task)
    (.evidence (.integrity "task record is not unique"))
  let (captured, db) ← Except.relabel
    (captureEvidence rt { db with tasks } (intake.capture owner actor)) TaskRecordError.evidence
  let task := { task with rawRequest := s!"evidence://{captured.record.id.str}" }
  return (task, { db with tasks := db.tasks.set task })

/-! ### Runs -/

/-- The request of the task that carries the first authority. -/
def bootstrapRequest : String := "authority-bootstrap://mvp/v1"

/-- What the other services leave alone: the records, their requests and tombstones, and the
request of every task. -/
structure LeavesEvidence (w w' : World) : Prop where
  records : w'.store.evidenceRecords = w.store.evidenceRecords
  requests : w'.store.evidenceDeletionRequests = w.store.evidenceDeletionRequests
  tombstones : w'.store.tombstones = w.store.tombstones
  tasks : ∀ task' ∈ w'.store.tasks, task'.rawRequest = bootstrapRequest ∨
    ∃ task ∈ w.store.tasks, task.id = task'.id ∧ task.rawRequest = task'.rawRequest

/-- The world with another database, and bytes that were stored for it. -/
def World.commit (w : World) (db : Database) (files : List String) : World :=
  { store := { w.store with toDatabase := db }, files }

inductive EvidenceStep (rt : Runtime) (w : World) : World → Prop
  | capture (c : EvidenceCapture) (captured : CapturedEvidence) (db : Database)
      (files : List String) (h : captureEvidence rt w.store.toDatabase c = .ok (captured, db)) :
      EvidenceStep rt w (w.commit db files)
  | correct (c : CorrectionCommand) (captured : CapturedEvidence) (db : Database)
      (files : List String) (h : createCorrection rt w.store.toDatabase c = .ok (captured, db)) :
      EvidenceStep rt w (w.commit db files)
  | create (intake : TaskIntake) (task : Task) (db : Database) (files : List String)
      (h : createTaskRecord rt w.store.toDatabase intake = .ok (task, db)) :
      EvidenceStep rt w (w.commit db files)
  | requestDeletion (c : DeletionCommand) (authentication : AuthenticatedSession)
      (request : EvidenceDeletionRequest) (store : EvidenceStore)
      (h : requestDeletion w.store c authentication = .ok (request, store)) :
      EvidenceStep rt w { w with store }
  | requestInternalDeletion (c : DeletionCommand) (actorId : String)
      (request : EvidenceDeletionRequest) (store : EvidenceStore)
      (h : requestInternalDeletion rt w.store c actorId = .ok (request, store)) :
      EvidenceStep rt w { w with store }
  /-- A finalisation that succeeds or raises. -/
  | finalize (faults : Faults) (requestId : UUID) (now : Time) :
      EvidenceStep rt w (finalizeDeletion faults w requestId now).2
  | other (w' : World) (h : LeavesEvidence w w') : EvidenceStep rt w w'

/-- A service that starts without evidence and without tasks. -/
def evidenceSystem (rt : Runtime) : TransitionSystem World where
  init w := w.store.tasks.rows = [] ∧ w.store.evidenceRecords.rows = [] ∧
    w.store.evidenceDeletionRequests.rows = [] ∧ w.store.tombstones.rows = []
  step := EvidenceStep rt

/-! ### What a capture does -/

/-- What the members of a chain share. -/
structure EvidenceLineage where
  taskId : Option UUID
  validationRunId : Option UUID
  evidenceType : String
  ownerId : String
  accessClassification : EvidenceAccessClass
  retentionPolicy : EvidenceRetentionClass
  /-- The media type and the source kind of the envelope. -/
  format : Option (MediaType × EvidenceSourceKind)

def lineage (r : EvidenceRecord) : EvidenceLineage where
  taskId := r.taskId
  validationRunId := r.validationRunId
  evidenceType := r.evidenceType
  ownerId := r.ownerId
  accessClassification := r.accessClassification
  retentionPolicy := r.retentionPolicy
  format := r.artifact.map fun e => (e.mediaType, e.sourceKind)

def requestUri (id : UUID) : String := s!"evidence://{id.str}"

def deletedUri (id : UUID) : String := s!"deleted-evidence://{id.str}"

/-- What a correction finds, and what it does to the task of a request. -/
structure Corrects (db db' : Database) (original record : EvidenceRecord) : Prop where
  found : db.evidenceRecords.get? original.id = some original
  names : record.correctionOfId = some original.id
  fenced : deletionRequested db original.id = false
  corrected : corrected db original.id = false
  lineage : lineage record = lineage original
  other : record.evidenceType ≠ "task-request" → db'.tasks = db.tasks
  request : record.evidenceType = "task-request" → ∃ task, record.taskId = some task.id ∧
    db.tasks.get? task.id = some task ∧ task.rawRequest = requestUri original.id ∧
    db'.tasks = db.tasks.set
      { task with rawRequest := requestUri record.id, summary := "Corrected task request" }

/-- What every capture does to the store. -/
structure Captures (db db' : Database) (record : EvidenceRecord) : Prop where
  inserted : db.evidenceRecords.insert? record = some db'.evidenceRecords
  requests : db'.evidenceDeletionRequests = db.evidenceDeletionRequests
  enveloped : record.artifact.isSome
  root : record.correctionOfId = none → db'.tasks = db.tasks
  correction : ∀ id, record.correctionOfId = some id →
    ∃ original, original.id = id ∧ Corrects db db' original record

section Capture
variable {rt : Runtime} {db db' : Database} {c : EvidenceCapture} {captured : CapturedEvidence}

theorem redactEvidenceContent_mediaType {payload : Json} {mediaType : MediaType}
    {prepared : RedactedContent} (h : redactEvidenceContent rt payload mediaType = .ok prepared) :
    prepared.mediaType = mediaType := by
  have hseal {value : Json} {canonical : String} {counts : Manifest} {m : MediaType}
      (h : sealContent rt m value canonical counts = .ok prepared) : prepared.mediaType = m := by
    unfold sealContent at h
    split at h
    · cases h
    · cases h
      rfl
  cases mediaType with
  | json =>
    simp only [redactEvidenceContent, Except.bind_eq_ok] at h
    obtain ⟨_, -, h⟩ := h
    exact hseal h
  | text =>
    cases payload <;> simp only [redactEvidenceContent, reduceCtorEq] at h
    exact hseal h

/-- A correction that is let through, taken apart. -/
theorem checkCorrection_ok {owner evidenceType : String} {originalId : UUID} {x : Unit}
    (h : checkCorrection rt db c owner evidenceType originalId = .ok x) :
    ∃ original envelope, db.evidenceRecords.get? originalId = some original ∧
      original.artifact = some envelope ∧ deletionRequested db originalId = false ∧
      corrected db originalId = false ∧ original.taskId = c.taskId ∧
      original.validationRunId = c.validationRunId ∧ original.evidenceType = evidenceType ∧
      original.ownerId = owner ∧ original.accessClassification = c.accessClassification ∧
      original.retentionPolicy = c.retentionPolicy ∧ envelope.mediaType = c.mediaType ∧
      envelope.sourceKind = c.sourceKind := by
  simp only [checkCorrection, Except.bind_eq_ok, Except.orThrow_eq_ok, Except.require_eq_ok] at h
  obtain ⟨original, horiginal, _, ⟨-, -, hfenced, hcorrected, htask, hrun, htype, howner, haccess,
    hretention⟩, loaded, hloaded, hmedia, hkind⟩ := h
  simp only [loadEvidence, Except.bind_eq_ok, Except.orThrow_eq_ok, Except.require_eq_ok,
    Except.pure_eq_ok] at hloaded
  obtain ⟨_, -, envelope, henvelope, _, -, _, -, _, -, rfl⟩ := hloaded
  exact ⟨original, envelope, horiginal, henvelope, hfenced, hcorrected, htask, hrun, htype, howner,
    haccess, hretention, hmedia, hkind⟩

/-- What a correction does to the task it is about. -/
theorem projectCorrection_ok {evidenceType : String} {originalId : UUID}
    (hc : c.correctionOfId = some originalId) (h : projectCorrection db c evidenceType = .ok db') :
    db'.evidenceRecords = db.evidenceRecords ∧
      db'.evidenceDeletionRequests = db.evidenceDeletionRequests ∧
      (evidenceType ≠ "task-request" → db'.tasks = db.tasks) ∧
      (evidenceType = "task-request" → ∃ task, c.taskId = some task.id ∧
        db.tasks.get? task.id = some task ∧ task.rawRequest = requestUri originalId ∧
        db'.tasks = db.tasks.set { task with
          rawRequest := requestUri c.evidenceId, summary := "Corrected task request" }) := by
  by_cases htype : evidenceType = "task-request"
  · simp only [projectCorrection, hc, htype, ne_eq, not_true, if_false, Except.bind_eq_ok,
      Except.orThrow_eq_ok, Except.require_eq_ok, Except.pure_eq_ok] at h
    obtain ⟨taskId, htaskId, task, htask, _, hraw, rfl⟩ := h
    have hid : task.id = taskId := Table.key_of_get? htask
    subst hid
    exact ⟨rfl, rfl, fun hne => absurd htype hne, fun _ => ⟨task, htaskId, htask, hraw, rfl⟩⟩
  · simp only [projectCorrection, hc, ne_eq, htype, not_false_eq_true, if_true,
      Except.ok.injEq] at h
    subst h
    exact ⟨rfl, rfl, fun _ => rfl, fun heq => absurd heq htype⟩

theorem captures_of_captureEvidence (h : captureEvidence rt db c = .ok (captured, db')) :
    Captures db db' captured.record ∧ captured.record.correctionOfId = c.correctionOfId ∧
      captured.record.taskId = c.taskId ∧ captured.record.id = c.evidenceId ∧
      requiredMetadataIdentifier rt c.evidenceType "evidence type" 100 =
        .ok captured.record.evidenceType := by
  cases hc : c.correctionOfId with
  | none =>
    simp only [captureEvidence, hc, projectCorrection, Except.bind_eq_ok, Except.orThrow_eq_ok,
      Except.pure_eq_ok, Except.ok.injEq, Prod.mk.injEq] at h
    obtain ⟨owner, -, actor, -, evidenceType, htype, origin, -, prepared, -, records, hrecords,
      db₁, rfl, rfl, rfl⟩ := h
    refine ⟨⟨hrecords, rfl, rfl, fun _ => rfl, fun id hid => ?_⟩, hc, rfl, rfl, htype⟩
    change c.correctionOfId = some id at hid
    rw [hc] at hid
    cases hid
  | some originalId =>
    simp only [captureEvidence, hc, Except.bind_eq_ok, Except.orThrow_eq_ok, Except.pure_eq_ok,
      Prod.mk.injEq] at h
    obtain ⟨owner, -, actor, -, evidenceType, htype, origin, -, _, hcheck, prepared, hprepared,
      records, hrecords, db₁, hproject, rfl, rfl⟩ := h
    obtain ⟨original, envelope, horiginal, henvelope, hfenced, hcorrected, htask, hrun,
      htypeEq, hownerEq, haccess, hretention, hmediaEq, hkind⟩ := checkCorrection_ok hcheck
    have hid : original.id = originalId := Table.key_of_get? horiginal
    subst hid
    have hmedia := redactEvidenceContent_mediaType hprepared
    have hlineage : lineage ((c.envelope owner actor evidenceType origin prepared).record rt) =
        lineage original := by
      simp only [lineage, EvidenceEnvelope.record, EvidenceCapture.envelope, henvelope,
        Option.map_some, htask, hrun, htypeEq, hownerEq, haccess, hretention, hmediaEq, hkind,
        hmedia]
    obtain ⟨hrecordsEq, hrequests, hother, hrequest⟩ := projectCorrection_ok hc hproject
    refine ⟨⟨?_, hrequests, rfl, fun hnone => ?_, fun id hsome => ?_⟩, hc, rfl, rfl, htype⟩
    · rw [hrecordsEq]
      exact hrecords
    · change c.correctionOfId = none at hnone
      rw [hc] at hnone
      cases hnone
    · change c.correctionOfId = some id at hsome
      rw [hc, Option.some.injEq] at hsome
      exact ⟨original, hsome, ⟨horiginal, hc, hfenced, hcorrected, hlineage, hother, hrequest⟩⟩

end Capture

/-! ### Chains -/

/-- Corrections name records that are there already, one correction each, of one lineage. -/
structure SoundChains (db : Database) : Prop where
  enveloped : ∀ r ∈ db.evidenceRecords, r.artifact.isSome
  original : ∀ r ∈ db.evidenceRecords, ∀ id, r.correctionOfId = some id →
    ∃ o ∈ db.evidenceRecords, o.id = id ∧ o.id ≠ r.id ∧ lineage r = lineage o
  once : ∀ r ∈ db.evidenceRecords, ∀ r' ∈ db.evidenceRecords, ∀ id, r.correctionOfId = some id →
    r'.correctionOfId = some id → r = r'
  /-- Rows are in the order of capture. -/
  earlier : db.evidenceRecords.rows.Pairwise fun r r' => r.correctionOfId ≠ some r'.id

/-- A record and its correction. -/
def CorrectedBy (db : Database) (o r : EvidenceRecord) : Prop :=
  o ∈ db.evidenceRecords ∧ r ∈ db.evidenceRecords ∧ r.correctionOfId = some o.id

section Chains
variable {db db' : Database} {record : EvidenceRecord}

theorem corrected_eq_true {id : UUID} :
    corrected db id = true ↔ ∃ r ∈ db.evidenceRecords, r.correctionOfId = some id := by
  simp only [corrected, List.any_eq_true, decide_eq_true_eq, Table.mem_def]

theorem deletionRequested_eq_true {id : UUID} :
    deletionRequested db id = true ↔ ∃ q ∈ db.evidenceDeletionRequests, q.evidenceId = id := by
  simp only [deletionRequested, List.any_eq_true, decide_eq_true_eq, Table.mem_def]

theorem Captures.fresh (h : Captures db db' record) {r : EvidenceRecord}
    (hr : r ∈ db.evidenceRecords) : r.id ≠ record.id :=
  Table.get?_eq_none.mp (Table.insert?_eq_some.mp h.inserted).1 r hr

theorem Captures.mem (h : Captures db db' record) {r : EvidenceRecord} :
    r ∈ db'.evidenceRecords ↔ r ∈ db.evidenceRecords ∨ r = record := Table.mem_insert? h.inserted

theorem SoundChains.captures (h : SoundChains db) (hcaptures : Captures db db' record) :
    SoundChains db' where
  enveloped r hr := by
    obtain hr | rfl := hcaptures.mem.mp hr
    · exact h.enveloped r hr
    · exact hcaptures.enveloped
  original r hr id hid := by
    obtain hr | rfl := hcaptures.mem.mp hr
    · obtain ⟨o, ho, hoid, hne, hlineage⟩ := h.original r hr id hid
      exact ⟨o, hcaptures.mem.mpr (.inl ho), hoid, hne, hlineage⟩
    · obtain ⟨o, hoid, hcorrects⟩ := hcaptures.correction id hid
      have ho := Table.mem_of_get? hcorrects.found
      exact ⟨o, hcaptures.mem.mpr (.inl ho), hoid, hcaptures.fresh ho, hcorrects.lineage⟩
  once r hr r' hr' id hid hid' := by
    -- A record that is corrected already gets no second correction.
    have hnew : ∀ old ∈ db.evidenceRecords, old.correctionOfId = some id →
        record.correctionOfId ≠ some id := by
      intro old hold holdId hrecord
      obtain ⟨o, rfl, hcorrects⟩ := hcaptures.correction id hrecord
      have htrue := corrected_eq_true.mpr ⟨old, hold, holdId⟩
      rw [hcorrects.corrected] at htrue
      cases htrue
    obtain hr | rfl := hcaptures.mem.mp hr
    · obtain hr' | rfl := hcaptures.mem.mp hr'
      · exact h.once r hr r' hr' id hid hid'
      · exact absurd hid' (hnew r hr hid)
    · obtain hr' | rfl := hcaptures.mem.mp hr'
      · exact absurd hid (hnew r' hr' hid')
      · rfl
  earlier := by
    rw [(Table.insert?_eq_some.mp hcaptures.inserted).2, List.pairwise_append]
    refine ⟨h.earlier, List.pairwise_singleton _ _, fun r hr new hnew hid => ?_⟩
    obtain rfl := List.mem_singleton.mp hnew
    obtain ⟨o, ho, hoid, -⟩ := h.original r hr _ hid
    exact hcaptures.fresh ho hoid

theorem SoundChains.congr (h : SoundChains db)
    (hrecords : db'.evidenceRecords = db.evidenceRecords) : SoundChains db' := by
  obtain ⟨henveloped, horiginal, honce, hearlier⟩ := h
  rw [← hrecords] at henveloped horiginal honce hearlier
  exact ⟨henveloped, horiginal, honce, hearlier⟩

/-- The place of a record in the order of capture. -/
def place (db : Database) (r : EvidenceRecord) : ℕ :=
  (db.evidenceRecords.rows.map EvidenceRecord.id).idxOf r.id

theorem place_lt (h : SoundChains db) {o r : EvidenceRecord} (hcorrects : CorrectedBy db o r) :
    place db o < place db r := by
  obtain ⟨ho, hr, hid⟩ := hcorrects
  obtain ⟨o', ho', hoid, hne, -⟩ := h.original r hr _ hid
  obtain rfl : o' = o := Table.eq_of_key_eq ho' ho hoid
  obtain ⟨before, after, hrows⟩ := List.append_of_mem hr
  have hbefore : o' ∈ before := by
    have hmem := ho
    rw [Table.mem_def, hrows, List.mem_append, List.mem_cons] at hmem
    obtain hmem | rfl | hmem := hmem
    · exact hmem
    · exact absurd rfl hne
    · have hpairwise := h.earlier
      rw [hrows, List.pairwise_append, List.pairwise_cons] at hpairwise
      exact absurd hid (hpairwise.2.1.1 o' hmem)
  have hnotmem : r.id ∉ before.map EvidenceRecord.id := by
    have hnodup := db.evidenceRecords.nodup
    rw [hrows, List.map_append, List.map_cons, List.nodup_append] at hnodup
    exact fun hmem => hnodup.2.2 _ hmem _ List.mem_cons_self rfl
  rw [place, place, hrows, List.map_append,
    List.idxOf_append_of_mem (List.mem_map_of_mem hbefore), List.idxOf_append_of_notMem hnotmem]
  exact Nat.lt_add_right _ (List.idxOf_lt_length_of_mem (List.mem_map_of_mem hbefore))

/-- No record corrects itself, through others or not. -/
theorem acyclic_corrections (h : SoundChains db) (r : EvidenceRecord) :
    ¬ Relation.TransGen (CorrectedBy db) r r := by
  have hplace {o r : EvidenceRecord} (hchain : Relation.TransGen (CorrectedBy db) o r) :
      place db o < place db r := by
    induction hchain with
    | single hstep => exact place_lt h hstep
    | tail _ hstep ih => exact ih.trans (place_lt h hstep)
  exact fun hcycle => lt_irrefl _ (hplace hcycle)

/-- A chain is no longer than the ledger. -/
theorem length_chain_le (h : SoundChains db) {chain : List EvidenceRecord}
    (hchain : chain.IsChain (CorrectedBy db)) (hmem : ∀ r ∈ chain, r ∈ db.evidenceRecords) :
    chain.length ≤ db.evidenceRecords.rows.length := by
  have hplaces : (chain.map (place db)).IsChain (· < ·) :=
    (List.isChain_map _).mpr (hchain.imp fun _ _ hstep => place_lt h hstep)
  have hnodup : chain.Nodup :=
    List.Nodup.of_map _ ((List.isChain_iff_pairwise.mp hplaces).imp fun hlt => hlt.ne)
  exact hnodup.length_le_of_subset hmem

theorem lineage_of_chain (h : SoundChains db) {o r : EvidenceRecord}
    (hchain : Relation.ReflTransGen (CorrectedBy db) o r) : lineage r = lineage o := by
  induction hchain with
  | refl => rfl
  | tail _ hstep ih =>
    obtain ⟨ho, hr, hid⟩ := hstep
    obtain ⟨o', ho', hoid, -, hlineage⟩ := h.original _ hr _ hid
    obtain rfl := Table.eq_of_key_eq ho' ho hoid
    exact hlineage.trans ih

end Chains

/-! ### The request of a task -/

/-- The deletion of a record has been completed. -/
def Finalized (store : EvidenceStore) (id : UUID) : Prop :=
  ∃ t ∈ store.tombstones, t.evidenceId = id

/-- A record is the newest version of the request a task names, and the task says whether it
was deleted. -/
structure Names (store : EvidenceStore) (task : Task) (r : EvidenceRecord) : Prop where
  record : r ∈ store.evidenceRecords
  evidenceType : r.evidenceType = "task-request"
  taskId : r.taskId = some task.id
  tip : corrected store.toDatabase r.id = false
  uri : (task.rawRequest = requestUri r.id ∧ ¬ Finalized store r.id) ∨
    (task.rawRequest = deletedUri r.id ∧ Finalized store r.id)

/-- What holds of the evidence in every state. -/
structure SoundEvidence (store : EvidenceStore) : Prop where
  chains : SoundChains store.toDatabase
  tombstones : ∀ t ∈ store.tombstones, deletionRequested store.toDatabase t.evidenceId = true
  requests : ∀ q ∈ store.evidenceDeletionRequests,
    ∃ r ∈ store.evidenceRecords, r.id = q.evidenceId
  tasks : ∀ task ∈ store.tasks, task.rawRequest = bootstrapRequest ∨ ∃ r, Names store task r

section Tasks
variable {rt : Runtime} {store : EvidenceStore} {db' : Database} {record : EvidenceRecord}

theorem requestUri_eq (id : UUID) : requestUri id = "evidence://" ++ id.str := rfl

theorem deletedUri_eq (id : UUID) : deletedUri id = "deleted-evidence://" ++ id.str := rfl

theorem requestUri_injective : Function.Injective requestUri := by
  intro id id' h
  rw [requestUri_eq, requestUri_eq, String.append_right_inj] at h
  exact UUID.str_inj.mp h

theorem head_requestUri (id : UUID) : (requestUri id).toList.head? = some 'e' := by
  rw [requestUri_eq, String.toList_append]
  rfl

theorem head_deletedUri (id : UUID) : (deletedUri id).toList.head? = some 'd' := by
  rw [deletedUri_eq, String.toList_append]
  rfl

theorem requestUri_ne_deletedUri (id id' : UUID) : requestUri id ≠ deletedUri id' := by
  intro h
  have hhead := head_requestUri id
  rw [h, head_deletedUri] at hhead
  cases hhead

theorem requestUri_ne_bootstrap (id : UUID) : requestUri id ≠ bootstrapRequest := by
  intro h
  have hhead := head_requestUri id
  rw [h] at hhead
  cases hhead

theorem SoundEvidence.not_finalized (h : SoundEvidence store) {id : UUID}
    (hfresh : ∀ r ∈ store.evidenceRecords, r.id ≠ id) : ¬ Finalized store id := by
  rintro ⟨t, ht, rfl⟩
  obtain ⟨q, hq, hid⟩ := deletionRequested_eq_true.mp (h.tombstones t ht)
  obtain ⟨r, hr, hrid⟩ := h.requests q hq
  exact hfresh r hr (hrid.trans hid)

theorem Names.congr {task task' : Task} {r : EvidenceRecord} (h : Names store task r)
    {store' : EvidenceStore} (hrecords : store'.evidenceRecords = store.evidenceRecords)
    (htombstones : store'.tombstones = store.tombstones) (hid : task.id = task'.id)
    (hraw : task.rawRequest = task'.rawRequest) : Names store' task' r where
  record := hrecords ▸ h.record
  evidenceType := h.evidenceType
  taskId := hid ▸ h.taskId
  tip := by
    have htip : corrected store'.toDatabase r.id = corrected store.toDatabase r.id := by
      rw [corrected, corrected, hrecords]
    exact htip.trans h.tip
  uri := by
    rw [Finalized, htombstones, ← hraw]
    exact h.uri

/-- A named record stays the newest while no correction names it. -/
theorem Names.captures {task : Task} {r : EvidenceRecord} (h : Names store task r)
    (hcaptures : Captures store.toDatabase db' record)
    (hother : record.correctionOfId ≠ some r.id) :
    Names { store with toDatabase := db' } task r where
  record := hcaptures.mem.mpr (.inl h.record)
  evidenceType := h.evidenceType
  taskId := h.taskId
  tip := by
    rw [← Bool.not_eq_true, corrected_eq_true]
    rintro ⟨r', hr', hid⟩
    obtain hr' | rfl := hcaptures.mem.mp hr'
    · have htip := h.tip
      rw [corrected_eq_true.mpr ⟨r', hr', hid⟩] at htip
      cases htip
    · exact hother hid
  uri := h.uri

/-- The new record is the newest version of the request it is captured for. -/
theorem names_captured (h : SoundEvidence store)
    (hcaptures : Captures store.toDatabase db' record) (task : Task)
    (htype : record.evidenceType = "task-request") (htask : record.taskId = some task.id)
    (huri : task.rawRequest = requestUri record.id) :
    Names { store with toDatabase := db' } task record where
  record := hcaptures.mem.mpr (.inr rfl)
  evidenceType := htype
  taskId := htask
  tip := by
    rw [← Bool.not_eq_true, corrected_eq_true]
    rintro ⟨r', hr', hid⟩
    obtain ⟨o, ho, hoid, hne, -⟩ := (h.chains.captures hcaptures).original r' hr' _ hid
    obtain ho | rfl := hcaptures.mem.mp ho
    · exact hcaptures.fresh ho hoid
    · -- The new record would correct itself.
      obtain hr' | rfl := hcaptures.mem.mp hr'
      · obtain ⟨o', ho', hoid', -⟩ := h.chains.original r' hr' _ hid
        exact hcaptures.fresh ho' hoid'
      · exact hne rfl
  uri := .inl ⟨huri, h.not_finalized fun _ hr => hcaptures.fresh hr⟩

/-- A capture keeps the evidence sound. -/
theorem SoundEvidence.captures (h : SoundEvidence store)
    (hcaptures : Captures store.toDatabase db' record) :
    SoundEvidence { store with toDatabase := db' } where
  chains := h.chains.captures hcaptures
  tombstones t ht := by
    obtain ⟨q, hq, hid⟩ := deletionRequested_eq_true.mp (h.tombstones t ht)
    exact deletionRequested_eq_true.mpr ⟨q, hcaptures.requests ▸ hq, hid⟩
  requests q hq := by
    change q ∈ db'.evidenceDeletionRequests at hq
    rw [hcaptures.requests] at hq
    obtain ⟨r, hr, hid⟩ := h.requests q hq
    exact ⟨r, hcaptures.mem.mpr (.inl hr), hid⟩
  tasks task htask := by
    change task ∈ db'.tasks at htask
    -- Tasks that are left alone name a record that the new one does not correct.
    have hkept (hold : task ∈ store.tasks)
        (hother : ∀ r, Names store task r → record.correctionOfId ≠ some r.id) :
        task.rawRequest = bootstrapRequest ∨
          ∃ r, Names { store with toDatabase := db' } task r := by
      obtain hbootstrap | ⟨r, hr⟩ := h.tasks task hold
      · exact .inl hbootstrap
      · exact .inr ⟨r, hr.captures hcaptures (hother r hr)⟩
    cases hid : record.correctionOfId with
    | none =>
      rw [hcaptures.root hid] at htask
      exact hkept htask fun r _ => by simp [hid]
    | some id =>
      obtain ⟨o, rfl, hcorrects⟩ := hcaptures.correction id hid
      have hrecordId (r : EvidenceRecord) (hr : r ∈ store.evidenceRecords)
          (hcorrected : record.correctionOfId = some r.id) : r = o := by
        rw [hid, Option.some.injEq] at hcorrected
        exact Table.eq_of_key_eq hr (Table.mem_of_get? hcorrects.found) hcorrected.symm
      have hotype : o.evidenceType = record.evidenceType :=
        congrArg EvidenceLineage.evidenceType hcorrects.lineage.symm
      have hotask : o.taskId = record.taskId :=
        congrArg EvidenceLineage.taskId hcorrects.lineage.symm
      by_cases htype : record.evidenceType = "task-request"
      · obtain ⟨task₀, htaskId, hget, hraw, htasks⟩ := hcorrects.request htype
        rw [htasks, Table.mem_set (by
          change store.tasks.get? task₀.id ≠ none
          rw [hget]
          exact Option.some_ne_none _)] at htask
        obtain rfl | ⟨hold, hne⟩ := htask
        · exact .inr ⟨record, names_captured h hcaptures _ htype htaskId rfl⟩
        · refine hkept hold fun r hr hcorrected => hne ?_
          obtain rfl := hrecordId r hr.record hcorrected
          have hsame := hr.taskId.symm.trans (hotask.trans htaskId)
          exact Option.some.inj hsame
      · rw [hcorrects.other htype] at htask
        refine hkept htask fun r hr hcorrected => htype ?_
        obtain rfl := hrecordId r hr.record hcorrected
        exact hotype.symm.trans hr.evidenceType

/-- A finalisation that does something destroys one record, and marks it as finalised. -/
theorem finalizeDeletion_cases (faults : Faults) (w : World) (requestId : UUID) (now : Time) :
    (finalizeDeletion faults w requestId now).2.store = w.store ∨
      ∃ request record tombstones, request ∈ w.store.evidenceDeletionRequests ∧
        record ∈ w.store.evidenceRecords ∧ request.evidenceId = record.id ∧
        w.store.tombstones.insert? (tombstoneOf w.store request record now) = some tombstones ∧
        (finalizeDeletion faults w requestId now).2.store =
          destroyed w.store record now tombstones := by
  cases hrequest : w.store.evidenceDeletionRequests.get? requestId with
  | none =>
    left
    simp only [finalizeDeletion, hrequest]
  | some request =>
    have hmem := Table.mem_of_get? hrequest
    have hid : request.id = requestId := Table.key_of_get? hrequest
    subst hid
    cases hexisting : w.store.tombstones.get? request.id with
    | some existing =>
      left
      simp only [finalizeDeletion, hrequest, hexisting]
    | none =>
      have hpending : request ∈ pendingDeletions w.store :=
        mem_pendingDeletions.mpr ⟨hmem, hexisting⟩
      cases hraises : raises faults w.store request with
      | true =>
        obtain ⟨error, files, hresult⟩ := finalizeDeletion_of_raises now hpending hraises
        left
        rw [hresult]
      | false =>
        obtain ⟨record, tombstones, files, hrecord, -, hinsert, hresult⟩ :=
          finalizeDeletion_of_not_raises now hpending hraises
        have hrid : record.id = request.evidenceId := Table.key_of_get? hrecord
        refine .inr ⟨request, record, tombstones, hmem, Table.mem_of_get? hrecord, hrid.symm,
          hinsert, ?_⟩
        rw [hresult]

/-- What a deletion does to the task of a request. -/
theorem mem_scrubTask {task : Task} (h : task ∈ scrubTask store record) :
    (task ∈ store.tasks ∧ (record.evidenceType = "task-request" → record.taskId = some task.id →
        task.rawRequest ≠ requestUri record.id)) ∨
      ∃ before ∈ store.tasks, before.rawRequest = requestUri record.id ∧ task.id = before.id ∧
        task.rawRequest = deletedUri record.id := by
  by_cases htype : record.evidenceType = "task-request"
  · cases hfound : record.taskId.bind store.tasks.get? with
    | none =>
      simp only [scrubTask, htype, ne_eq, not_true, if_false, hfound] at h
      refine .inl ⟨h, fun _ htaskId => ?_⟩
      have hget : store.tasks.get? task.id = some task := Table.get?_key h
      rw [htaskId, Option.bind_some, hget] at hfound
      cases hfound
    | some owner =>
      obtain ⟨taskId, htaskId, hget⟩ := Option.bind_eq_some_iff.mp hfound
      have hid : owner.id = taskId := Table.key_of_get? hget
      subst hid
      by_cases hraw : owner.rawRequest = requestUri record.id
      · have hraw' : owner.rawRequest = s!"evidence://{record.id.str}" := hraw
        simp only [scrubTask, htype, ne_eq, not_true, if_false, hfound, hraw', if_true] at h
        rw [Table.mem_set (by
          change store.tasks.get? owner.id ≠ none
          rw [hget]
          exact Option.some_ne_none _)] at h
        obtain rfl | ⟨hold, hne⟩ := h
        · exact .inr ⟨owner, Table.mem_of_get? hget, hraw, rfl, rfl⟩
        · refine .inl ⟨hold, fun _ hother => absurd ?_ hne⟩
          rw [htaskId, Option.some.injEq] at hother
          exact hother.symm
      · have hraw' : ¬ owner.rawRequest = s!"evidence://{record.id.str}" := hraw
        simp only [scrubTask, htype, ne_eq, not_true, if_false, hfound, hraw'] at h
        refine .inl ⟨h, fun _ hother => ?_⟩
        rw [htaskId, Option.some.injEq] at hother
        rw [Table.eq_of_key_eq h (Table.mem_of_get? hget) hother.symm]
        exact hraw
  · simp only [scrubTask, ne_eq, htype, not_false_eq_true, if_true] at h
    exact .inl ⟨h, fun heq => absurd heq htype⟩

/-- A finalisation keeps the evidence sound: the task of a deleted request says so. -/
theorem SoundEvidence.destroyed (h : SoundEvidence store) {now : Time}
    {request : EvidenceDeletionRequest} {tombstones : Table EvidenceTombstone}
    (hrequest : request ∈ store.evidenceDeletionRequests) (hrecord : record ∈ store.evidenceRecords)
    (hid : request.evidenceId = record.id)
    (hinsert : store.tombstones.insert? (tombstoneOf store request record now) =
      some tombstones) : SoundEvidence (destroyed store record now tombstones) where
  chains := h.chains.congr rfl
  tombstones t ht := by
    obtain ht | rfl := (Table.mem_insert? hinsert).mp ht
    · exact h.tombstones t ht
    · exact deletionRequested_eq_true.mpr ⟨request, hrequest, hid⟩
  requests := h.requests
  tasks task htask := by
    have hfinalized (id : UUID) : Finalized (Deletion.destroyed store record now tombstones) id ↔
        Finalized store id ∨ id = record.id := by
      constructor
      · rintro ⟨t, ht, rfl⟩
        obtain ht | rfl := (Table.mem_insert? hinsert).mp ht
        · exact .inl ⟨t, ht, rfl⟩
        · exact .inr rfl
      · rintro (⟨t, ht, rfl⟩ | rfl)
        · exact ⟨t, (Table.mem_insert? hinsert).mpr (.inl ht), rfl⟩
        · exact ⟨_, (Table.mem_insert? hinsert).mpr (.inr rfl), rfl⟩
    obtain ⟨hold, hkept⟩ | ⟨before, hbefore, hraw, htaskId, huri⟩ := mem_scrubTask htask
    · obtain hbootstrap | ⟨r, hr⟩ := h.tasks task hold
      · exact .inl hbootstrap
      · refine .inr ⟨r, { hr with uri := ?_ }⟩
        rw [hfinalized]
        obtain ⟨huri, hnot⟩ | ⟨huri, hdone⟩ := hr.uri
        · refine .inl ⟨huri, not_or.mpr ⟨hnot, fun heq => ?_⟩⟩
          obtain rfl := Table.eq_of_key_eq hr.record hrecord heq
          exact hkept hr.evidenceType hr.taskId huri
        · exact .inr ⟨huri, .inl hdone⟩
    · obtain hbootstrap | ⟨r, hr⟩ := h.tasks before hbefore
      · exact absurd (hraw.symm.trans hbootstrap) (requestUri_ne_bootstrap _)
      · have hrid : r.id = record.id := by
          obtain ⟨huriBefore, -⟩ | ⟨huriBefore, -⟩ := hr.uri
          · exact requestUri_injective (huriBefore.symm.trans hraw)
          · exact absurd (hraw.symm.trans huriBefore) (requestUri_ne_deletedUri _ _)
        refine .inr ⟨r, ⟨hr.record, hr.evidenceType, hr.taskId.trans (by rw [htaskId]), hr.tip,
          .inr ⟨?_, (hfinalized r.id).mpr (.inr hrid)⟩⟩⟩
        rw [huri, hrid]

/-- What leaves the records, the tombstones and the requests of the tasks keeps the evidence
sound. -/
theorem SoundEvidence.congr (h : SoundEvidence store) {store' : EvidenceStore}
    (hrecords : store'.evidenceRecords = store.evidenceRecords)
    (htombstones : store'.tombstones = store.tombstones)
    (hrequests : ∀ q ∈ store.evidenceDeletionRequests, q ∈ store'.evidenceDeletionRequests)
    (hnamed : ∀ q ∈ store'.evidenceDeletionRequests,
      ∃ r ∈ store.evidenceRecords, r.id = q.evidenceId)
    (htasks : ∀ task' ∈ store'.tasks, task'.rawRequest = bootstrapRequest ∨
      ∃ task ∈ store.tasks, task.id = task'.id ∧ task.rawRequest = task'.rawRequest) :
    SoundEvidence store' where
  chains := h.chains.congr hrecords
  tombstones t ht := by
    rw [htombstones] at ht
    obtain ⟨q, hq, hid⟩ := deletionRequested_eq_true.mp (h.tombstones t ht)
    exact deletionRequested_eq_true.mpr ⟨q, hrequests q hq, hid⟩
  requests q hq := by
    rw [hrecords]
    exact hnamed q hq
  tasks task' htask' := by
    obtain hbootstrap | ⟨task, htask, hid, hraw⟩ := htasks task' htask'
    · exact .inl hbootstrap
    · obtain hbootstrap | ⟨r, hr⟩ := h.tasks task htask
      · exact .inl (hraw ▸ hbootstrap)
      · exact .inr ⟨r, hr.congr hrecords htombstones hid hraw⟩

/-- A request for deletion is there afterwards, with the others; nothing else changes. -/
theorem stageDeletionRequest_ok {c : DeletionCommand} {request : EvidenceDeletionRequest}
    {store' : EvidenceStore} (h : stageDeletionRequest store record c = .ok (request, store')) :
    store'.evidenceRecords = store.evidenceRecords ∧ store'.tombstones = store.tombstones ∧
      store'.tasks = store.tasks ∧
      (∀ q ∈ store.evidenceDeletionRequests, q ∈ store'.evidenceDeletionRequests) ∧
      ∀ q ∈ store'.evidenceDeletionRequests, q ∈ store.evidenceDeletionRequests ∨
        q.evidenceId = record.id := by
  cases hfind : store.evidenceDeletionRequests.rows.find? (·.evidenceId = record.id) with
  | some existing =>
    simp only [stageDeletionRequest, hfind, Except.ok.injEq, Prod.mk.injEq] at h
    obtain ⟨-, rfl⟩ := h
    exact ⟨rfl, rfl, rfl, fun _ hq => hq, fun _ hq => .inl hq⟩
  | none =>
    simp only [stageDeletionRequest, hfind, Except.bind_eq_ok, Except.orThrow_eq_ok,
      Except.pure_eq_ok, Prod.mk.injEq] at h
    obtain ⟨requests, hinsert, -, rfl⟩ := h
    refine ⟨rfl, rfl, rfl, fun q hq => (Table.mem_insert? hinsert).mpr (.inl hq), fun q hq => ?_⟩
    obtain hq | rfl := (Table.mem_insert? hinsert).mp hq
    · exact .inl hq
    · exact .inr rfl

/-- A record is fenced by both ways of asking for its deletion. -/
theorem stage_of_requestDeletion {c : DeletionCommand} {authentication : AuthenticatedSession}
    {request : EvidenceDeletionRequest} {store' : EvidenceStore}
    (h : requestDeletion store c authentication = .ok (request, store')) :
    ∃ record ∈ store.evidenceRecords,
      stageDeletionRequest store record c = .ok (request, store') := by
  simp only [requestDeletion, Except.bind_eq_ok, Except.orThrow_eq_ok] at h
  obtain ⟨record, hrecord, _, -, _, -, _, -, hstage⟩ := h
  exact ⟨record, Table.mem_of_get? hrecord, hstage⟩

theorem stage_of_requestInternalDeletion {c : DeletionCommand} {actorId : String}
    {request : EvidenceDeletionRequest} {store' : EvidenceStore}
    (h : requestInternalDeletion rt store c actorId = .ok (request, store')) :
    ∃ record ∈ store.evidenceRecords,
      stageDeletionRequest store record c = .ok (request, store') := by
  simp only [requestInternalDeletion, Except.bind_eq_ok, Except.orThrow_eq_ok] at h
  obtain ⟨record, hrecord, _, -, _, -, hstage⟩ := h
  exact ⟨record, Table.mem_of_get? hrecord, hstage⟩

theorem SoundEvidence.staged (h : SoundEvidence store) {c : DeletionCommand}
    {request : EvidenceDeletionRequest} {store' : EvidenceStore}
    (hrecord : record ∈ store.evidenceRecords)
    (hstage : stageDeletionRequest store record c = .ok (request, store')) :
    SoundEvidence store' := by
  obtain ⟨hrecords, htombstones, htasks, hkept, hnew⟩ := stageDeletionRequest_ok hstage
  refine h.congr hrecords htombstones hkept (fun q hq => ?_) fun task htask => ?_
  · obtain hq | hq := hnew q hq
    · exact h.requests q hq
    · exact ⟨record, hrecord, hq.symm⟩
  · rw [htasks] at htask
    exact .inr ⟨task, htask, rfl, rfl⟩

/-- A correction by the user is a capture that corrects. -/
theorem captures_of_createCorrection {c : CorrectionCommand} {captured : CapturedEvidence}
    (h : createCorrection rt store.toDatabase c = .ok (captured, db')) :
    Captures store.toDatabase db' captured.record := by
  simp only [createCorrection, Except.bind_eq_ok] at h
  obtain ⟨record, -, principal, -, _, -, _, -, loaded, -, _, -, hcapture⟩ := h
  exact (captures_of_captureEvidence hcapture).1

theorem requiredMetadataIdentifier_taskRequest {value : String}
    (h : requiredMetadataIdentifier rt "task-request" "evidence type" 100 = .ok value) :
    value = "task-request" := by
  have hstrip : rt.unicode.strip "task-request".toList = "task-request".toList :=
    rt.unicode.strip_eq_self (fun c hc => by cases hc; rfl) fun c hc => by cases hc; rfl
  simp only [requiredMetadataIdentifier, requiredText, hstrip, Except.bind_eq_ok] at h
  obtain ⟨normalized, hnormalized, _, -, hvalue⟩ := h
  split at hnormalized
  · cases hnormalized
  · cases hnormalized
    cases hvalue
    rfl

/-- A new task names the record its request was captured as. -/
theorem createTaskRecord_ok {db : Database} {intake : TaskIntake} {task : Task}
    (h : createTaskRecord rt db intake = .ok (task, db')) :
    ∃ pending tasks record db₁, db.tasks.insert? pending = some tasks ∧
      Captures { db with tasks } db₁ record ∧ record.correctionOfId = none ∧
      record.evidenceType = "task-request" ∧ record.taskId = some pending.id ∧
      task = { pending with rawRequest := requestUri record.id } ∧
      db' = { db₁ with tasks := db₁.tasks.set task } := by
  simp only [createTaskRecord, Except.bind_eq_ok, Except.orThrow_eq_ok, Except.relabel_eq_ok,
    Except.pure_eq_ok, Prod.mk.injEq, Prod.exists] at h
  obtain ⟨redacted, -, summary, -, repository, -, _, -, _, -, _, -, _, -, tasks, htasks, captured,
    db₁, hcapture, rfl, rfl⟩ := h
  obtain ⟨hcaptures, hroot, htask, -, htype⟩ := captures_of_captureEvidence hcapture
  exact ⟨_, tasks, captured.record, db₁, htasks, hcaptures, hroot,
    requiredMetadataIdentifier_taskRequest htype, htask, rfl, rfl⟩

theorem SoundEvidence.created (h : SoundEvidence store) {intake : TaskIntake} {task : Task}
    (hcreate : createTaskRecord rt store.toDatabase intake = .ok (task, db')) :
    SoundEvidence { store with toDatabase := db' } := by
  obtain ⟨pending, tasks, record, db₁, hinsert, hcaptures, hroot, htype, htaskId, rfl, rfl⟩ :=
    createTaskRecord_ok hcreate
  have hcaptures' : Captures store.toDatabase { db₁ with tasks := store.tasks } record :=
    ⟨hcaptures.inserted, hcaptures.requests, hcaptures.enveloped, fun _ => rfl, fun id hid => by
      rw [hroot] at hid
      cases hid⟩
  have hsound := h.captures hcaptures'
  have htasksEq : db₁.tasks = tasks := hcaptures.root hroot
  refine ⟨hsound.chains.congr rfl, hsound.tombstones, hsound.requests, fun other hother => ?_⟩
  have hfound : tasks.get? pending.id = some pending :=
    Table.get?_key ((Table.mem_insert? hinsert).mpr (.inr rfl))
  change other ∈ db₁.tasks.set { pending with rawRequest := requestUri record.id } at hother
  rw [htasksEq, Table.mem_set (by
    change tasks.get? pending.id ≠ none
    rw [hfound]
    exact Option.some_ne_none _), Table.mem_insert? hinsert] at hother
  obtain rfl | ⟨hold | rfl, hne⟩ := hother
  · have hnamed := names_captured h hcaptures'
      { pending with rawRequest := requestUri record.id } htype htaskId rfl
    exact .inr ⟨record, hnamed.congr rfl rfl rfl rfl⟩
  · obtain hbootstrap | ⟨r, hr⟩ := hsound.tasks other hold
    · exact .inl hbootstrap
    · exact .inr ⟨r, hr.congr rfl rfl rfl rfl⟩
  · exact absurd rfl hne

end Tasks

/-! ### Runs -/

section Runs
variable {rt : Runtime} {w w' : World}

theorem SoundEvidence.step (h : SoundEvidence w.store) (hstep : EvidenceStep rt w w') :
    SoundEvidence w'.store := by
  cases hstep with
  | capture c captured db files hcapture =>
    exact h.captures (captures_of_captureEvidence hcapture).1
  | correct c captured db files hcorrect => exact h.captures (captures_of_createCorrection hcorrect)
  | create intake task db files hcreate => exact h.created hcreate
  | requestDeletion c authentication request store hrequest =>
    obtain ⟨record, hrecord, hstage⟩ := stage_of_requestDeletion hrequest
    exact h.staged hrecord hstage
  | requestInternalDeletion c actorId request store hrequest =>
    obtain ⟨record, hrecord, hstage⟩ := stage_of_requestInternalDeletion hrequest
    exact h.staged hrecord hstage
  | finalize faults requestId now =>
    obtain hsame | ⟨request, record, tombstones, hrequest, hrecord, hid, hinsert, hstore⟩ :=
      finalizeDeletion_cases faults w requestId now
    · rw [hsame]
      exact h
    · rw [hstore]
      exact h.destroyed hrequest hrecord hid hinsert
  | other _ hleaves =>
    refine h.congr hleaves.records hleaves.tombstones (fun q hq => hleaves.requests ▸ hq)
      (fun q hq => ?_) hleaves.tasks
    rw [hleaves.requests] at hq
    exact h.requests q hq

theorem soundEvidence_of_reachable (hw : (evidenceSystem rt).Reachable w) :
    SoundEvidence w.store := by
  refine hw.invariant (P := fun w => SoundEvidence w.store) ?_ fun _ _ h hstep => h.step hstep
  rintro w ⟨htasks, hrecords, hrequests, htombstones⟩
  have hnone {α : Type} {rows : List α} (hrows : rows = []) (a : α) : a ∉ rows := by
    rw [hrows]
    exact List.not_mem_nil
  refine ⟨⟨?_, ?_, ?_, ?_⟩, ?_, ?_, ?_⟩
  · exact fun r hr => absurd hr (hnone hrecords r)
  · exact fun r hr => absurd hr (hnone hrecords r)
  · exact fun r hr => absurd hr (hnone hrecords r)
  · rw [hrecords]
    exact List.Pairwise.nil
  · exact fun t ht => absurd ht (hnone htombstones t)
  · exact fun q hq => absurd hq (hnone hrequests q)
  · exact fun task htask => absurd htask (hnone htasks task)

/-- What a step leaves of the ledger: the records, in front of new ones that correct neither a
fenced nor a corrected record, and the fences. -/
structure Extends (w w' : World) : Prop where
  records : ∃ new, w'.store.evidenceRecords.rows = w.store.evidenceRecords.rows ++ new ∧
    ∀ r ∈ new, ∀ id, r.correctionOfId = some id →
      deletionRequested w.store.toDatabase id = false ∧ corrected w.store.toDatabase id = false
  fences : ∀ id, deletionRequested w.store.toDatabase id = true →
    deletionRequested w'.store.toDatabase id = true

theorem Extends.of_same (hrecords : w'.store.evidenceRecords = w.store.evidenceRecords)
    (hfences : ∀ q ∈ w.store.evidenceDeletionRequests, q ∈ w'.store.evidenceDeletionRequests) :
    Extends w w' where
  records := ⟨[], by rw [hrecords, List.append_nil], fun _ hr => absurd hr List.not_mem_nil⟩
  fences id hid := by
    obtain ⟨q, hq, hqid⟩ := deletionRequested_eq_true.mp hid
    exact deletionRequested_eq_true.mpr ⟨q, hfences q hq, hqid⟩

theorem Extends.of_captures {db db₀ : Database} {files : List String} {record : EvidenceRecord}
    (hcaptures : Captures db₀ db record)
    (hrecords : db₀.evidenceRecords = w.store.evidenceRecords)
    (hrequests : db₀.evidenceDeletionRequests = w.store.evidenceDeletionRequests)
    {store : EvidenceStore} (hstore : store.evidenceRecords = db.evidenceRecords)
    (hfences : store.evidenceDeletionRequests = db.evidenceDeletionRequests) :
    Extends w { store, files } where
  records := by
    refine ⟨[record], ?_, fun r hr id hid => ?_⟩
    · rw [hstore, (Table.insert?_eq_some.mp hcaptures.inserted).2, hrecords]
    · obtain rfl := List.mem_singleton.mp hr
      obtain ⟨o, rfl, hcorrects⟩ := hcaptures.correction id hid
      have hfenced := hcorrects.fenced
      have hcorrected := hcorrects.corrected
      rw [deletionRequested, hrequests] at hfenced
      rw [corrected, hrecords] at hcorrected
      exact ⟨hfenced, hcorrected⟩
  fences id hid := by
    rw [deletionRequested] at hid ⊢
    rw [hfences, hcaptures.requests, hrequests]
    exact hid

theorem extends_step (hstep : EvidenceStep rt w w') : Extends w w' := by
  cases hstep with
  | capture c captured db files hcapture =>
    exact .of_captures (captures_of_captureEvidence hcapture).1 rfl rfl rfl rfl
  | correct c captured db files hcorrect =>
    exact .of_captures (captures_of_createCorrection hcorrect) rfl rfl rfl rfl
  | create intake task db files hcreate =>
    obtain ⟨pending, tasks, record, db₁, -, hcaptures, -, -, -, -, rfl⟩ :=
      createTaskRecord_ok hcreate
    exact .of_captures hcaptures rfl rfl rfl rfl
  | requestDeletion c authentication request store hrequest =>
    obtain ⟨record, -, hstage⟩ := stage_of_requestDeletion hrequest
    obtain ⟨hrecords, -, -, hkept, -⟩ := stageDeletionRequest_ok hstage
    exact .of_same hrecords hkept
  | requestInternalDeletion c actorId request store hrequest =>
    obtain ⟨record, -, hstage⟩ := stage_of_requestInternalDeletion hrequest
    obtain ⟨hrecords, -, -, hkept, -⟩ := stageDeletionRequest_ok hstage
    exact .of_same hrecords hkept
  | finalize faults requestId now =>
    obtain hsame | ⟨request, record, tombstones, -, -, -, -, hstore⟩ :=
      finalizeDeletion_cases faults w requestId now
    · exact .of_same (by rw [hsame]) fun q hq => by rwa [hsame]
    · exact .of_same (by rw [hstore]; rfl) fun q hq => by rwa [hstore]
  | other _ hleaves => exact .of_same hleaves.records fun q hq => hleaves.requests ▸ hq

theorem Extends.corrected (h : Extends w w') {id : UUID}
    (hid : corrected w.store.toDatabase id = true) : corrected w'.store.toDatabase id = true := by
  obtain ⟨new, hrows, -⟩ := h.records
  obtain ⟨r, hr, hrid⟩ := corrected_eq_true.mp hid
  refine corrected_eq_true.mpr ⟨r, ?_, hrid⟩
  rw [Table.mem_def, hrows]
  exact List.mem_append_left _ hr

theorem Extends.trans {w'' : World} (h : Extends w w') (h' : Extends w' w'') : Extends w w'' where
  records := by
    obtain ⟨new, hrows, hnew⟩ := h.records
    obtain ⟨newer, hrows', hnewer⟩ := h'.records
    refine ⟨new ++ newer, by rw [hrows', hrows, List.append_assoc], fun r hr id hid => ?_⟩
    obtain hr | hr := List.mem_append.mp hr
    · exact hnew r hr id hid
    · obtain ⟨hfenced, hcorrected⟩ := hnewer r hr id hid
      refine ⟨?_, ?_⟩
      · rw [← Bool.not_eq_true] at hfenced ⊢
        exact mt (h.fences id) hfenced
      · rw [← Bool.not_eq_true] at hcorrected ⊢
        exact mt h.corrected hcorrected
  fences id hid := h'.fences id (h.fences id hid)

theorem extends_run (hrun : Relation.ReflTransGen (EvidenceStep rt) w w') : Extends w w' := by
  induction hrun with
  | refl => exact .of_same rfl fun _ hq => hq
  | tail _ hstep ih => exact ih.trans (extends_step hstep)

/-- What is fenced or corrected gets no correction later in the run. -/
theorem no_later_correction (hrun : Relation.ReflTransGen (EvidenceStep rt) w w') {id : UUID}
    (hclosed : deletionRequested w.store.toDatabase id = true ∨
      corrected w.store.toDatabase id = true)
    {r : EvidenceRecord} (hr : r ∈ w'.store.evidenceRecords) (hid : r.correctionOfId = some id) :
    r ∈ w.store.evidenceRecords := by
  obtain ⟨new, hrows, hnew⟩ := (extends_run hrun).records
  rw [Table.mem_def, hrows] at hr
  obtain hr | hr := List.mem_append.mp hr
  · exact hr
  · obtain ⟨hfenced, hcorrected⟩ := hnew r hr id hid
    obtain h | h := hclosed
    · rw [hfenced] at h
      cases h
    · rw [hcorrected] at h
      cases h

/-- **Corrections and deletions** in every state of every run: a record has at most one
correction; the corrections form chains without cycles, no longer than the ledger, of one
lineage; what is fenced or corrected is not corrected later; and every task but the one of the
first authority names the newest version of its request, or the deleted one. -/
theorem corrections_of_reachable (hw : (evidenceSystem rt).Reachable w) :
    (∀ o r r', CorrectedBy w.store.toDatabase o r → CorrectedBy w.store.toDatabase o r' → r = r') ∧
    (∀ r, ¬ Relation.TransGen (CorrectedBy w.store.toDatabase) r r) ∧
    (∀ chain : List EvidenceRecord, chain.IsChain (CorrectedBy w.store.toDatabase) →
      (∀ r ∈ chain, r ∈ w.store.evidenceRecords) →
        chain.length ≤ w.store.evidenceRecords.rows.length) ∧
    (∀ r ∈ w.store.evidenceRecords, (lineage r).format.isSome) ∧
    (∀ o r, Relation.ReflTransGen (CorrectedBy w.store.toDatabase) o r → lineage r = lineage o) ∧
    (∀ w', Relation.ReflTransGen (EvidenceStep rt) w w' → ∀ id,
      (deletionRequested w.store.toDatabase id = true ∨
        corrected w.store.toDatabase id = true) →
      ∀ r ∈ w'.store.evidenceRecords, r.correctionOfId = some id →
        r ∈ w.store.evidenceRecords) ∧
    ∀ task ∈ w.store.tasks, task.rawRequest = bootstrapRequest ∨
      ∃ r, Names w.store task r := by
  have hsound := soundEvidence_of_reachable hw
  refine ⟨?_, acyclic_corrections hsound.chains, fun _ => length_chain_le hsound.chains, ?_,
    fun _ _ => lineage_of_chain hsound.chains, fun _ hrun _ hclosed _ hr hid =>
      no_later_correction hrun hclosed hr hid, hsound.tasks⟩
  · rintro o r r' ⟨-, hr, hid⟩ ⟨-, hr', hid'⟩
    exact hsound.chains.once r hr r' hr' o.id hid hid'
  · intro r hr
    rw [lineage, Option.isSome_map]
    exact hsound.chains.enveloped r hr

end Runs

namespace CorrectionExample

def intake : TaskIntake where
  repository := "mathews"
  baseRevision := String.ofList (List.replicate 40 'a')
  requester := "user"
  rawRequest := "a"
  summary := "a"
  ownerId := localOwnerId
  actorId := localOwnerId
  taskId := .ofNat 1
  evidenceId := .ofNat 10
  now := 1

def authentication : AuthenticatedSession where
  sessionId := .ofNat 2
  userId := localUserId
  csrfTokenDigest := ""
  expiresAt := 100
  absoluteExpiresAt := 100
  reauthenticatedUntil := 100
  evaluatedAt := 1
  recentPasswordVerified := true

def correction : CorrectionCommand where
  evidenceId := .ofNat 10
  payload := .str "b"
  mediaType := .text
  authentication := authentication
  now := 2
  correctionId := .ofNat 11

def deletion : DeletionCommand where
  evidenceId := .ofNat 11
  requestId := .ofNat 20
  reasonCode := "USER_REQUEST"
  now := 3

def noFaults : Faults := ⟨fun _ => false, fun _ => false⟩

/-- A task whose request is corrected and then deleted. -/
def outcome : Option ((Database × Database) × EvidenceStore) := do
  let (_, created) ← (createTaskRecord .plain {} intake).toOption
  let (_, corrected) ← (createCorrection .plain created correction).toOption
  let (_, fenced) ← (requestDeletion { toDatabase := corrected } deletion authentication).toOption
  return ((created, corrected), fenced)

set_option maxRecDepth 4000 in
theorem outcome_checked : outcome.map (fun o =>
    (finalizeDeletion noFaults ⟨o.2, []⟩ (.ofNat 20) 4).2.store.tasks.rows.map Task.rawRequest) =
      some [deletedUri (.ofNat 11)] := by
  decide +kernel

theorem reachable_outcome : ∃ w, (evidenceSystem .plain).Reachable w ∧
    w.store.tasks.rows.map Task.rawRequest = [deletedUri (.ofNat 11)] := by
  obtain ⟨⟨⟨created, corrected⟩, fenced⟩, houtcome, hraw⟩ :=
    Option.map_eq_some_iff.mp outcome_checked
  simp only [outcome, Option.bind_eq_bind, Option.bind_eq_some_iff, Option.pure_def,
    Option.some.injEq, Prod.mk.injEq, Prod.exists] at houtcome
  obtain ⟨task, db₁, hcreated, captured, db₂, hcorrected, request, store, hfenced, ⟨rfl, rfl⟩,
    rfl⟩ := houtcome
  have hinit : (evidenceSystem .plain).Reachable ⟨{}, []⟩ := .of_init ⟨rfl, rfl, rfl, rfl⟩
  refine ⟨_, (((hinit.tail (.create intake task db₁ [] (Except.ok_of_toOption hcreated))).tail
    (.correct correction captured db₂ [] (Except.ok_of_toOption hcorrected))).tail
    (.requestDeletion deletion authentication request store (Except.ok_of_toOption hfenced))).tail
    (.finalize noFaults (.ofNat 20) 4), hraw⟩

end CorrectionExample

/-- The task of a request that was corrected and deleted names the deleted correction. -/
theorem corrections_of_reachable_deleted : ∃ store task r, Names store task r ∧
    task.rawRequest = deletedUri (.ofNat 11) := by
  obtain ⟨w, hw, hraw⟩ := CorrectionExample.reachable_outcome
  obtain ⟨-, -, -, -, -, -, htasks⟩ := corrections_of_reachable hw
  obtain ⟨task, htask, htaskRaw⟩ : ∃ task ∈ w.store.tasks,
      task.rawRequest = deletedUri (.ofNat 11) := by
    have hmem : deletedUri (.ofNat 11) ∈ w.store.tasks.rows.map Task.rawRequest := by
      rw [hraw]
      exact List.mem_singleton_self _
    exact List.mem_map.mp hmem
  obtain hbootstrap | ⟨r, hr⟩ := htasks task htask
  · rw [htaskRaw] at hbootstrap
    have hhead := head_deletedUri (.ofNat 11)
    rw [hbootstrap] at hhead
    cases hhead
  · exact ⟨w.store, task, r, hr, htaskRaw⟩

end ControlPlane.Deletion
