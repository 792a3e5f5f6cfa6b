import ControlPlane.Domain
import ControlPlane.Lib.Calendar
import ControlPlane.Lib.Transaction

/-!
# The evidence ledger

Capture of redacted evidence as an immutable record under a verified envelope, and the
load that every internal reader goes through.
-/
namespace ControlPlane

open Regex Regex.Re

/-! ### Metadata -/

/-- A text without surrounding white space, neither empty nor too long. -/
def requiredText (rt : Runtime) (value field : String) (maximum : ℕ) :
    Except EvidenceError String :=
  let normalized := String.ofList (rt.unicode.strip value.toList)
  if normalized.isEmpty ∨ maximum < normalized.length then
    .error (.validation s!"{field} is invalid")
  else .ok normalized

def metadataIdentifier : Pattern :=
  seq (cls alnum) (star (cls (.union alnum (oneOf "._:/-"))))

/-- The conditions on an identifier beyond its length. -/
def isMetadataIdentifier (u : Unicode) (value : List Char) : Bool :=
  metadataIdentifier.fullmatch (CharClass.holds u) value &&
  !occursIn "://".toList value && !occursIn "//".toList value && !occursIn "..".toList value &&
  !"/".toList.isPrefixOf value &&
  !opaqueToken.search (CharClass.holds u) value && !jwt.search (CharClass.holds u) value &&
  !sensitiveAssignment.search (CharClass.holds u) value

def requiredMetadataIdentifier (rt : Runtime) (value field : String) (maximum : ℕ) :
    Except EvidenceError String := do
  let normalized ← requiredText rt value field maximum
  Except.require (isMetadataIdentifier rt.unicode normalized.toList)
    (.validation s!"{field} is invalid")
  return normalized

/-! ### Envelopes -/

def optionalId : Option UUID → Json
  | none => .null
  | some id => .str id.str

/-- The envelope as it is encoded. -/
def EvidenceEnvelope.toJson (e : EvidenceEnvelope) : Json :=
  .obj
    [("schema_version", .int 1),
      ("evidence_id", .str e.evidenceId.str),
      ("source_kind", .str e.sourceKind.value),
      ("evidence_type", .str e.evidenceType),
      ("origin", .str e.origin),
      ("captured_at", .str (Calendar.timestamp e.capturedAt)),
      ("task_id", optionalId e.taskId),
      ("validation_run_id", optionalId e.validationRunId),
      ("owner_id", .str e.ownerId),
      ("actor_id", .str e.actorId),
      ("root_correlation_id", .str e.rootCorrelationId.str),
      ("causation_id", optionalId e.causationId),
      ("parent_correlation_id", optionalId e.parentCorrelationId),
      ("correction_of_id", optionalId e.correctionOfId),
      ("access_classification", .str e.accessClassification.value),
      ("retention_policy", .str e.retentionPolicy.value),
      ("media_type", .str e.mediaType.str),
      ("redaction_policy_version", .str "mvp-1"),
      ("redaction_manifest", .obj (e.redactionManifest.map fun r => (r.1, .int r.2))),
      ("content_hash", .str e.contentHash),
      ("content", e.content)]

/-- The address of an envelope in the artifact store. -/
def EvidenceEnvelope.address (rt : Runtime) (e : EvidenceEnvelope) : String :=
  digest rt (rt.dumps e.toJson)

/-- The canonical text of stored content. -/
def canonicalContent (rt : Runtime) (mediaType : MediaType) (content : Json) :
    Except EvidenceError String :=
  match mediaType, content with
  | .json, content => .ok (rt.dumps content)
  | .text, .str s => .ok s
  | .text, _ => .error (.validation "evidence envelope media type is invalid")

/-! ### Loading -/

/-- A verified live canonical envelope and its redacted content. -/
structure LoadedEvidence where
  record : EvidenceRecord
  envelope : EvidenceEnvelope
  content : Json
  contentText : String
  mediaType : MediaType

def deletionRequested (db : Database) (evidenceId : UUID) : Bool :=
  db.evidenceDeletionRequests.rows.any (·.evidenceId = evidenceId)

def corrected (db : Database) (evidenceId : UUID) : Bool :=
  db.evidenceRecords.rows.any (·.correctionOfId = some evidenceId)

/-- The columns of a record repeat its envelope. -/
def EvidenceRecord.describes (record : EvidenceRecord) (rt : Runtime) (e : EvidenceEnvelope) :
    Prop :=
  record.contentHash = e.address rt ∧ e.evidenceId = record.id ∧
  e.evidenceType = record.evidenceType ∧ e.origin = record.origin ∧
  e.capturedAt = record.capturedAt ∧ e.taskId = record.taskId ∧
  e.validationRunId = record.validationRunId ∧ e.ownerId = record.ownerId ∧
  e.actorId = record.actorId ∧ e.rootCorrelationId = record.rootCorrelationId ∧
  e.causationId = record.causationId ∧ e.parentCorrelationId = record.parentCorrelationId ∧
  e.correctionOfId = record.correctionOfId ∧
  e.accessClassification = record.accessClassification ∧
  e.retentionPolicy = record.retentionPolicy

instance (rt : Runtime) (record : EvidenceRecord) (e : EvidenceEnvelope) :
    Decidable (record.describes rt e) := by
  unfold EvidenceRecord.describes
  infer_instance

/-- Verify and decode a live canonical envelope for an internal caller. -/
def loadEvidence (rt : Runtime) (db : Database) (record : EvidenceRecord) :
    Except EvidenceError LoadedEvidence := do
  Except.require (record.deletedAt = none ∧ deletionRequested db record.id = false)
    (.notFound "evidence is unavailable")
  let envelope ← Except.orThrow record.artifact (.notFound "evidence is unavailable")
  Except.require (record.describes rt envelope)
    (.validation "evidence envelope metadata is invalid")
  let contentText ← canonicalContent rt envelope.mediaType envelope.content
  Except.require (envelope.contentHash = digest rt contentText)
    (.validation "evidence envelope content hash is invalid")
  return { record, envelope, content := envelope.content, contentText,
           mediaType := envelope.mediaType }

/-! ### Capture -/

/-- The arguments of a capture. -/
structure EvidenceCapture where
  payload : Json
  mediaType : MediaType := .json
  sourceKind : EvidenceSourceKind
  evidenceType : String
  origin : String
  accessClassification : EvidenceAccessClass
  retentionPolicy : EvidenceRetentionClass
  ownerId : String
  actorId : String
  rootCorrelationId : UUID
  taskId : Option UUID := none
  validationRunId : Option UUID := none
  causationId : Option UUID := none
  parentCorrelationId : Option UUID := none
  correctionOfId : Option UUID := none
  /-- The identifier given, or the fresh one. -/
  evidenceId : UUID
  capturedAt : Time

/-- Persisted evidence metadata without exposing its content. -/
structure CapturedEvidence where
  record : EvidenceRecord
  contentHash : String
  redactionManifest : Manifest

/-- The original a correction names must be live, uncorrected and of the same kind. -/
def checkCorrection (rt : Runtime) (db : Database) (c : EvidenceCapture)
    (owner evidenceType : String) (originalId : UUID) : Except EvidenceError Unit := do
  let original ← Except.orThrow (db.evidenceRecords.get? originalId)
    (.conflict "evidence correction lineage is invalid")
  Except.require (original.deletedAt = none ∧ c.evidenceId ≠ originalId ∧
      deletionRequested db originalId = false ∧ corrected db originalId = false ∧
      original.taskId = c.taskId ∧ original.validationRunId = c.validationRunId ∧
      original.evidenceType = evidenceType ∧ original.ownerId = owner ∧
      original.accessClassification = c.accessClassification ∧
      original.retentionPolicy = c.retentionPolicy)
    (.conflict "evidence correction lineage is invalid")
  let loaded ← loadEvidence rt db original
  Except.require (loaded.mediaType = c.mediaType ∧ loaded.envelope.sourceKind = c.sourceKind)
    (.conflict "evidence correction format is invalid")

/-- A correction of a task request becomes the task's request. -/
def projectCorrection (db : Database) (c : EvidenceCapture) (evidenceType : String) :
    Except EvidenceError Database :=
  match c.correctionOfId with
  | none => .ok db
  | some originalId =>
    if evidenceType ≠ "task-request" then .ok db
    else do
      let taskId ← Except.orThrow c.taskId
        (.conflict "task request correction lacks a task")
      let task ← Except.orThrow (db.tasks.get? taskId)
        (.conflict "task request projection is not current")
      Except.require (task.rawRequest = s!"evidence://{originalId.str}")
        (.conflict "task request projection is not current")
      return { db with
        tasks := db.tasks.set { task with
          rawRequest := s!"evidence://{c.evidenceId.str}"
          summary := "Corrected task request" } }

/-- The envelope of prepared content. -/
def EvidenceCapture.envelope (c : EvidenceCapture) (owner actor evidenceType origin : String)
    (prepared : RedactedContent) : EvidenceEnvelope where
  evidenceId := c.evidenceId
  sourceKind := c.sourceKind
  evidenceType := evidenceType
  origin := origin
  capturedAt := c.capturedAt
  taskId := c.taskId
  validationRunId := c.validationRunId
  ownerId := owner
  actorId := actor
  rootCorrelationId := c.rootCorrelationId
  causationId := c.causationId
  parentCorrelationId := c.parentCorrelationId
  correctionOfId := c.correctionOfId
  accessClassification := c.accessClassification
  retentionPolicy := c.retentionPolicy
  mediaType := prepared.mediaType
  redactionManifest := prepared.manifest
  contentHash := prepared.contentHash
  content := prepared.value

/-- The record of an envelope. -/
def EvidenceEnvelope.record (rt : Runtime) (e : EvidenceEnvelope) : EvidenceRecord where
  id := e.evidenceId
  taskId := e.taskId
  validationRunId := e.validationRunId
  evidenceType := e.evidenceType
  origin := e.origin
  contentHash := e.address rt
  artifact := some e
  capturedAt := e.capturedAt
  accessClassification := e.accessClassification
  retentionPolicy := e.retentionPolicy
  correctionOfId := e.correctionOfId
  ownerId := e.ownerId
  actorId := e.actorId
  rootCorrelationId := e.rootCorrelationId
  causationId := e.causationId
  parentCorrelationId := e.parentCorrelationId

/-- Redact, envelope, store, and stage one immutable evidence record. -/
def captureEvidence (rt : Runtime) (db : Database) (c : EvidenceCapture) :
    Except EvidenceError (CapturedEvidence × Database) := do
  let owner ← requiredMetadataIdentifier rt c.ownerId "owner id" 255
  let actor ← requiredMetadataIdentifier rt c.actorId "actor id" 255
  let evidenceType ← requiredMetadataIdentifier rt c.evidenceType "evidence type" 100
  let origin ← requiredMetadataIdentifier rt c.origin "origin" 500
  match c.correctionOfId with
  | none => pure ()
  | some originalId => checkCorrection rt db c owner evidenceType originalId
  let prepared ← redactEvidenceContent rt c.payload c.mediaType
  let record := (c.envelope owner actor evidenceType origin prepared).record rt
  let evidenceRecords ← Except.orThrow (db.evidenceRecords.insert? record)
    (.integrity "evidence record is not unique")
  let db ← projectCorrection { db with evidenceRecords } c evidenceType
  return ({ record, contentHash := prepared.contentHash,
            redactionManifest := prepared.manifest }, db)

/-! ### What is captured loads -/

theorem describes_record (rt : Runtime) (e : EvidenceEnvelope) :
    (e.record rt).describes rt e := by
  simp [EvidenceRecord.describes, EvidenceEnvelope.record]

/-- A capture that corrects nothing adds its record and changes nothing else. -/
theorem captureEvidence_ok {rt : Runtime} {db db' : Database} {c : EvidenceCapture}
    {captured : CapturedEvidence} (h : captureEvidence rt db c = .ok (captured, db'))
    (hc : c.correctionOfId = none) :
    ∃ records, db.evidenceRecords.insert? captured.record = some records ∧
      db' = { db with evidenceRecords := records } := by
  simp only [captureEvidence, hc, projectCorrection, Except.bind_eq_ok, Except.orThrow_eq_ok,
    Except.pure_eq_ok, Except.ok.injEq, Prod.mk.injEq] at h
  obtain ⟨_, _, _, _, _, _, _, _, _, _, records, hrecords, _, rfl, rfl, rfl⟩ := h
  exact ⟨records, hrecords, rfl⟩

end ControlPlane
