import ControlPlane.Lib.Encoding
import ControlPlane.Lib.Pages
import ControlPlane.Validation.AssertionContract

/-!
# Collections of validation evidence

What a validation hands to the control plane: items of evidence, results of operations and
results of assertions, which refer to the evidence by keys. A collection travels as a
dictionary, is checked again where it arrives, and is told apart from another one by a digest
in which the keys are replaced by the identifiers of the evidence.

## Main definitions

* `ValidationEvidenceCollection.postInit`: what a collection is built with.
* `ValidationEvidenceCollection.toDict`, `ValidationEvidenceCollection.fromDict`
* `collectionFingerprint`

## Main results

* `ValidationEvidenceCollection.fromDict_toDict`
* `collection_round_trip`: a collection arrives as it was sent, and another one under its digest
  is the same.
-/
namespace ControlPlane.ValidationEvidence

open ControlPlane.Configuration (OperationKind)
open Pages (map_eq_of_mapM exists_mapM exists_of_mem_mapM)
open ControlPlane.Validation (AssertionKind AssertionResultStatus validationIdentifier
  isDigest)

abbrev schemaVersion : ℤ := 1
abbrev maxEvidenceItems : ℕ := 256
abbrev maxAssertionResults : ℕ := 256
abbrev maxOperationResults : ℕ := 32

/-- A stable refusal without the contents of an artifact. -/
structure ValidationEvidenceError where
  code : String
  deriving DecidableEq, Repr

inductive ValidationEvidenceType where
  | unitTestOutput | integrationTestOutput | simulatorArtifact | applicationLog
  | crashSignal | errorSignal | networkSignal | performanceSignal
  deriving DecidableEq, Repr

def ValidationEvidenceType.value : ValidationEvidenceType → String
  | unitTestOutput => "UNIT_TEST_OUTPUT"
  | integrationTestOutput => "INTEGRATION_TEST_OUTPUT"
  | simulatorArtifact => "SIMULATOR_ARTIFACT"
  | applicationLog => "APPLICATION_LOG"
  | crashSignal => "CRASH_SIGNAL"
  | errorSignal => "ERROR_SIGNAL"
  | networkSignal => "NETWORK_SIGNAL"
  | performanceSignal => "PERFORMANCE_SIGNAL"

def ValidationEvidenceType.ofValue? : String → Option ValidationEvidenceType :=
  Validation.ofValue? value
    [unitTestOutput, integrationTestOutput, simulatorArtifact, applicationLog, crashSignal,
      errorSignal, networkSignal, performanceSignal]

def operationKindValue : OperationKind → String
  | .build => "BUILD"
  | .unitTest => "UNIT_TEST"
  | .integrationTest => "INTEGRATION_TEST"
  | .simulatorE2e => "SIMULATOR_E2E"

def operationKindOfValue? : String → Option OperationKind :=
  Validation.ofValue? operationKindValue [.build, .unitTest, .integrationTest, .simulatorE2e]

/-! ### Checks -/

/-- The error that names a field. -/
def invalid (field : String) : ValidationEvidenceError :=
  ⟨String.ofList (field.toList.map fun c => if c = ' ' then '_' else c.toUpper) ++ "_INVALID"⟩

def require (p : Prop) [Decidable p] (code : String) : Except ValidationEvidenceError Unit :=
  Except.require p ⟨code⟩

def requireIdentifier (u : Unicode) (value field : String) (maximum : ℕ) :
    Except ValidationEvidenceError Unit :=
  Except.require (value.length ≤ maximum ∧
    validationIdentifier.fullmatch (CharClass.holds u) value.toList = true) (invalid field)

def requireIdentifierTuple (u : Unicode) (values : List String) (field : String) :
    Except ValidationEvidenceError Unit := do
  values.forM fun value => requireIdentifier u value field 255
  Except.require values.Nodup (invalid field)

def requireGitObject (value code : String) : Except ValidationEvidenceError Unit :=
  require (Validation.isGitObject value.toList = true) code

def requirePositive (value : ℤ) (code : String) : Except ValidationEvidenceError Unit :=
  require (0 < value) code

def requireNonNegative (value : ℤ) (code : String) : Except ValidationEvidenceError Unit :=
  require (0 ≤ value) code

def boundedTuple {α : Type} (values : List α) (maximum : ℕ) (code : String) :
    Except ValidationEvidenceError Unit :=
  require (values ≠ [] ∧ values.length ≤ maximum) code

/-! ### Records -/

/-- One immutable host artifact reference. -/
structure ValidationEvidenceItem where
  evidenceId : UUID
  evidenceKey : String
  evidenceType : ValidationEvidenceType
  origin : String
  contentAddress : String
  sizeBytes : ℤ
  role : String
  sourcePath : Option String

def ValidationEvidenceItem.postInit (u : Unicode) (item : ValidationEvidenceItem) :
    Except ValidationEvidenceError Unit := do
  requireIdentifier u item.evidenceKey "evidence key" 255
  requireIdentifier u item.origin "evidence origin" 500
  requireIdentifier u item.role "evidence role" 255
  require (isDigest item.contentAddress = true) "EVIDENCE_ADDRESS_INVALID"
  require (0 ≤ item.sizeBytes ∧ item.sizeBytes ≤ 128 * 1024 * 1024) "EVIDENCE_SIZE_INVALID"
  require (∀ path ∈ item.sourcePath, path ≠ "" ∧ path.length ≤ 1000 ∧ '\x00' ∉ path.toList)
    "EVIDENCE_SOURCE_PATH_INVALID"

/-- A mapping with text keys, by its entries in the order of the keys; the order they were
written in is neither compared nor hashed. -/
abbrev Mapping : Type := List (String × Json)

/-- The mapping of some entries. -/
def dict (fields : List (String × Json)) : Mapping := fields.insertionSort fun a b => a.1 ≤ b.1

/-- Bounded projection of one configured host operation result. -/
structure ValidationOperationResult where
  operationId : String
  operationKind : OperationKind
  exitStatus : ℤ
  durationMs : ℤ
  passed : Bool
  cancellationStatus : String
  outputLimited : Bool
  repositoryStateValid : Bool
  headSha : String
  treeSha : String
  configurationId : UUID
  configurationVersion : ℤ
  configurationDigest : String
  validationContractVersion : ℤ
  evidenceKeys : List String
  simulatorTarget : Option Mapping

/-- The keys of a simulator target, in their order. -/
def simulatorTargetKeys : List String :=
  ["device_id", "device_type_identifier", "locale_identifier", "runtime_identifier",
    "time_zone_identifier"]

/-- A non-empty text of at most 255 characters without a null. -/
def isTargetText : Json → Bool
  | .str raw => raw ≠ "" && raw.length ≤ 255 && !raw.toList.contains '\x00'
  | _ => false

def validateSimulatorTarget (value : Option Mapping) : Except ValidationEvidenceError Unit := do
  let fields ← Except.orThrow value ⟨"SIMULATOR_TARGET_INVALID"⟩
  require (fields.map Prod.fst = simulatorTargetKeys) "SIMULATOR_TARGET_INVALID"
  require (∀ field ∈ fields, isTargetText field.2 = true) "SIMULATOR_TARGET_INVALID"

/-- Exactly the end-to-end operation has a target. -/
def ValidationOperationResult.checkTarget (r : ValidationOperationResult) :
    Except ValidationEvidenceError Unit :=
  if r.operationKind = .simulatorE2e then validateSimulatorTarget r.simulatorTarget
  else require (r.simulatorTarget = none) "OPERATION_SIMULATOR_TARGET_UNEXPECTED"

def ValidationOperationResult.postInit (u : Unicode) (r : ValidationOperationResult) :
    Except ValidationEvidenceError Unit := do
  requireIdentifier u r.operationId "operation id" 255
  requireNonNegative r.durationMs "OPERATION_DURATION_INVALID"
  requireIdentifier u r.cancellationStatus "cancellation status" 255
  requireGitObject r.headSha "OPERATION_HEAD_INVALID"
  requireGitObject r.treeSha "OPERATION_TREE_INVALID"
  requirePositive r.configurationVersion "OPERATION_CONFIGURATION_VERSION_INVALID"
  require (isDigest r.configurationDigest = true) "OPERATION_CONFIGURATION_DIGEST_INVALID"
  requirePositive r.validationContractVersion "OPERATION_CONTRACT_VERSION_INVALID"
  requireIdentifierTuple u r.evidenceKeys "operation evidence keys"
  require (r.evidenceKeys ≠ []) "OPERATION_EVIDENCE_MISSING"
  r.checkTarget
  require (r.passed = (r.exitStatus = 0 && r.cancellationStatus = "NOT_REQUESTED" &&
    !r.outputLimited && r.repositoryStateValid)) "OPERATION_PASS_RESULT_CONTRADICTORY"

/-- Authoritative deterministic verifier result. -/
structure TypedAssertionResult where
  assertionId : String
  kind : AssertionKind
  verifierCatalogKey : String
  status : AssertionResultStatus
  evidenceKeys : List String
  resultCode : String

def TypedAssertionResult.postInit (u : Unicode) (r : TypedAssertionResult) :
    Except ValidationEvidenceError Unit := do
  requireIdentifier u r.assertionId "assertion id" 255
  requireIdentifier u r.verifierCatalogKey "verifier catalog key" 255
  requireIdentifierTuple u r.evidenceKeys "assertion evidence keys"
  requireIdentifier u r.resultCode "assertion result code" 255
  if r.status = .pending then require (r.evidenceKeys = []) "PENDING_ASSERTION_HAS_EVIDENCE"
  else require (r.evidenceKeys ≠ []) "ASSERTION_EVIDENCE_MISSING"

structure ValidationEvidenceCollection where
  runId : UUID
  taskId : UUID
  validationAttemptId : UUID
  validationContractId : UUID
  repositoryConfigurationId : UUID
  commitSha : String
  treeSha : String
  durationMs : ℤ
  evidence : List ValidationEvidenceItem
  operationResults : List ValidationOperationResult
  assertionResults : List TypedAssertionResult

def ValidationEvidenceCollection.postInit (c : ValidationEvidenceCollection) :
    Except ValidationEvidenceError Unit := do
  requireGitObject c.commitSha "COLLECTION_COMMIT_INVALID"
  requireGitObject c.treeSha "COLLECTION_TREE_INVALID"
  requireNonNegative c.durationMs "COLLECTION_DURATION_INVALID"
  boundedTuple c.evidence maxEvidenceItems "EVIDENCE_COLLECTION_INVALID"
  boundedTuple c.operationResults maxOperationResults "OPERATION_RESULTS_INVALID"
  boundedTuple c.assertionResults maxAssertionResults "ASSERTION_RESULTS_INVALID"
  require (c.evidence.map (·.evidenceId)).Nodup "EVIDENCE_ID_DUPLICATE"
  require (c.evidence.map (·.evidenceKey)).Nodup "EVIDENCE_KEY_DUPLICATE"
  require (c.operationResults.map (·.operationId)).Nodup "OPERATION_RESULT_DUPLICATE"
  require (c.assertionResults.map (·.assertionId)).Nodup "ASSERTION_RESULT_DUPLICATE"
  require ((c.operationResults.flatMap (·.evidenceKeys) ++
      c.assertionResults.flatMap (·.evidenceKeys)).all
    (c.evidence.map (·.evidenceKey)).contains = true) "EVIDENCE_REFERENCE_UNKNOWN"

/-- A collection of records that were all built. -/
structure ValidationEvidenceCollection.Constructible (u : Unicode)
    (c : ValidationEvidenceCollection) : Prop where
  evidence : ∀ item ∈ c.evidence, item.postInit u = .ok ()
  operationResults : ∀ r ∈ c.operationResults, r.postInit u = .ok ()
  assertionResults : ∀ r ∈ c.assertionResults, r.postInit u = .ok ()
  collection : c.postInit = .ok ()

/-! ### Encoders -/

/-- A text, or null. -/
def optionalText : Option String → Json
  | some text => .str text
  | none => .null

def targetDict : Option Mapping → Json
  | some fields => .obj (dict fields)
  | none => .null

namespace ValidationEvidenceItem
variable (item : ValidationEvidenceItem)

/-- What is registered of an item. -/
def payload : List (String × Json) :=
  [("schema_version", .int schemaVersion),
    ("evidence_key", .str item.evidenceKey),
    ("evidence_type", .str item.evidenceType.value),
    ("host_content_address", .str item.contentAddress),
    ("size_bytes", .int item.sizeBytes),
    ("role", .str item.role),
    ("source_path", optionalText item.sourcePath)]

def toDict : Json :=
  .obj
    [("evidence_id", .str item.evidenceId.str),
      ("evidence_key", .str item.evidenceKey),
      ("evidence_type", .str item.evidenceType.value),
      ("origin", .str item.origin),
      ("content_address", .str item.contentAddress),
      ("size_bytes", .int item.sizeBytes),
      ("role", .str item.role),
      ("source_path", optionalText item.sourcePath)]

end ValidationEvidenceItem

/-- The identifiers under some keys; a key that is not there is an error. -/
def evidenceIdsOf (evidenceIds : List (String × UUID)) (keys : List String) : Option Json := do
  let ids ← keys.mapM fun key => evidenceIds.lookup key
  return .arr (ids.map fun id => .str id.str)

namespace ValidationOperationResult
variable (r : ValidationOperationResult)

def toDict (evidenceIds : List (String × UUID)) : Option Json := do
  let ids ← evidenceIdsOf evidenceIds r.evidenceKeys
  return .obj
    [("schema_version", .int schemaVersion),
      ("operation_id", .str r.operationId),
      ("operation_kind", .str (operationKindValue r.operationKind)),
      ("exit_status", .int r.exitStatus),
      ("duration_ms", .int r.durationMs),
      ("passed", .bool r.passed),
      ("cancellation_status", .str r.cancellationStatus),
      ("output_limited", .bool r.outputLimited),
      ("repository_state_valid", .bool r.repositoryStateValid),
      ("head_sha", .str r.headSha),
      ("tree_sha", .str r.treeSha),
      ("configuration_id", .str r.configurationId.str),
      ("configuration_version", .int r.configurationVersion),
      ("configuration_digest", .str r.configurationDigest),
      ("validation_contract_version", .int r.validationContractVersion),
      ("evidence_ids", ids),
      ("simulator_target", targetDict r.simulatorTarget)]

def toInputDict : Json :=
  .obj
    [("operation_id", .str r.operationId),
      ("operation_kind", .str (operationKindValue r.operationKind)),
      ("exit_status", .int r.exitStatus),
      ("duration_ms", .int r.durationMs),
      ("passed", .bool r.passed),
      ("cancellation_status", .str r.cancellationStatus),
      ("output_limited", .bool r.outputLimited),
      ("repository_state_valid", .bool r.repositoryStateValid),
      ("head_sha", .str r.headSha),
      ("tree_sha", .str r.treeSha),
      ("configuration_id", .str r.configurationId.str),
      ("configuration_version", .int r.configurationVersion),
      ("configuration_digest", .str r.configurationDigest),
      ("validation_contract_version", .int r.validationContractVersion),
      ("evidence_keys", .arr (r.evidenceKeys.map .str)),
      ("simulator_target", targetDict r.simulatorTarget)]

end ValidationOperationResult

namespace TypedAssertionResult
variable (r : TypedAssertionResult)

def toDict (evidenceIds : List (String × UUID)) : Option Json := do
  let ids ← evidenceIdsOf evidenceIds r.evidenceKeys
  return .obj
    [("assertion_id", .str r.assertionId),
      ("kind", .str r.kind.value),
      ("verifier_catalog_key", .str r.verifierCatalogKey),
      ("status", .str r.status.value),
      ("result_code", .str r.resultCode),
      ("evidence_ids", ids)]

def toInputDict : Json :=
  .obj
    [("assertion_id", .str r.assertionId),
      ("kind", .str r.kind.value),
      ("verifier_catalog_key", .str r.verifierCatalogKey),
      ("status", .str r.status.value),
      ("evidence_keys", .arr (r.evidenceKeys.map .str)),
      ("result_code", .str r.resultCode)]

end TypedAssertionResult

namespace ValidationEvidenceCollection
variable (c : ValidationEvidenceCollection)

def toDict : Json :=
  .obj
    [("run_id", .str c.runId.str),
      ("task_id", .str c.taskId.str),
      ("validation_attempt_id", .str c.validationAttemptId.str),
      ("validation_contract_id", .str c.validationContractId.str),
      ("repository_configuration_id", .str c.repositoryConfigurationId.str),
      ("commit_sha", .str c.commitSha),
      ("tree_sha", .str c.treeSha),
      ("duration_ms", .int c.durationMs),
      ("evidence", .arr (c.evidence.map (·.toDict))),
      ("operation_results", .arr (c.operationResults.map (·.toInputDict))),
      ("assertion_results", .arr (c.assertionResults.map (·.toInputDict)))]

/-- What the digest is taken of. -/
def fingerprintPayload : Option Json := do
  let evidenceIds := c.evidence.map fun item => (item.evidenceKey, item.evidenceId)
  let operations ← c.operationResults.mapM (·.toDict evidenceIds)
  let assertions ← c.assertionResults.mapM (·.toDict evidenceIds)
  return .obj
    [("schema_version", .int schemaVersion),
      ("run_id", .str c.runId.str),
      ("task_id", .str c.taskId.str),
      ("validation_attempt_id", .str c.validationAttemptId.str),
      ("validation_contract_id", .str c.validationContractId.str),
      ("repository_configuration_id", .str c.repositoryConfigurationId.str),
      ("commit_sha", .str c.commitSha),
      ("tree_sha", .str c.treeSha),
      ("duration_ms", .int c.durationMs),
      ("evidence", .arr (c.evidence.map fun item =>
        .obj (("evidence_id", .str item.evidenceId.str) :: ("origin", .str item.origin) ::
          item.payload))),
      ("operation_results", .arr operations),
      ("assertion_results", .arr assertions)]

end ValidationEvidenceCollection

/-- The digest of a collection. -/
def collectionFingerprint (rt : Runtime) (c : ValidationEvidenceCollection) : Option String :=
  c.fingerprintPayload.map rt.fingerprint

/-! ### Decoders -/

def exactMapping (value : Json) (keys : List String) (field : String) :
    Except ValidationEvidenceError Unit := do
  Except.require (value.obj?.isSome = true) (invalid field)
  Except.require (value.hasKeys keys = true) (invalid field)

def readString (value : Json) (field : String) : Except ValidationEvidenceError String :=
  Except.orThrow value.str? (invalid field)

def readOptionalString (value : Json) (field : String) :
    Except ValidationEvidenceError (Option String) :=
  if value.isNull then .ok none else some <$> readString value field

def readInteger (value : Json) (field : String) : Except ValidationEvidenceError ℤ :=
  Except.orThrow value.int? (invalid field)

def readBoolean (value : Json) (field : String) : Except ValidationEvidenceError Bool :=
  Except.orThrow value.bool? (invalid field)

def readUuid (u : Unicode) (value : Json) (field : String) :
    Except ValidationEvidenceError UUID := do
  let text ← readString value field
  Except.orThrow (UUID.parse u text) (invalid field)

def readSequence (value : Json) (field : String) : Except ValidationEvidenceError (List Json) :=
  Except.orThrow value.arr? (invalid field)

def readStringTuple (value : Json) (field : String) :
    Except ValidationEvidenceError (List String) := do
  let items ← readSequence value field
  items.mapM fun item => readString item field

/-- A member of an enumeration by its value. -/
def readEnum {α : Type} (ofValue? : String → Option α) (value : Json) (field : String) :
    Except ValidationEvidenceError α := do
  let text ← readString value field
  Except.orThrow (ofValue? text) (invalid field)

def readTarget (value : Json) : Except ValidationEvidenceError (Option Mapping) :=
  if value.isNull then .ok none
  else do
    let fields ← Except.orThrow value.obj? (invalid "simulator target")
    return some (dict fields)

def ValidationEvidenceItem.fromDict (u : Unicode) (value : Json) :
    Except ValidationEvidenceError ValidationEvidenceItem := do
  exactMapping value
    ["evidence_id", "evidence_key", "evidence_type", "origin", "content_address", "size_bytes",
      "role", "source_path"] "evidence item"
  let evidenceId ← readUuid u (value.get "evidence_id") "evidence id"
  let evidenceKey ← readString (value.get "evidence_key") "evidence key"
  let evidenceType ← readEnum ValidationEvidenceType.ofValue? (value.get "evidence_type")
    "evidence type"
  let origin ← readString (value.get "origin") "evidence origin"
  let contentAddress ← readString (value.get "content_address") "content address"
  let sizeBytes ← readInteger (value.get "size_bytes") "evidence size"
  let role ← readString (value.get "role") "evidence role"
  let sourcePath ← readOptionalString (value.get "source_path") "source path"
  let item : ValidationEvidenceItem :=
    { evidenceId, evidenceKey, evidenceType, origin, contentAddress, sizeBytes, role, sourcePath }
  item.postInit u
  return item

def ValidationOperationResult.fromDict (u : Unicode) (value : Json) :
    Except ValidationEvidenceError ValidationOperationResult := do
  exactMapping value
    ["operation_id", "operation_kind", "exit_status", "duration_ms", "passed",
      "cancellation_status", "output_limited", "repository_state_valid", "head_sha", "tree_sha",
      "configuration_id", "configuration_version", "configuration_digest",
      "validation_contract_version", "evidence_keys", "simulator_target"] "operation result"
  let operationId ← readString (value.get "operation_id") "operation id"
  let operationKind ← readEnum operationKindOfValue? (value.get "operation_kind")
    "operation kind"
  let exitStatus ← readInteger (value.get "exit_status") "operation exit status"
  let durationMs ← readInteger (value.get "duration_ms") "operation duration"
  let passed ← readBoolean (value.get "passed") "operation passed"
  let cancellationStatus ← readString (value.get "cancellation_status") "cancellation status"
  let outputLimited ← readBoolean (value.get "output_limited") "output limited"
  let repositoryStateValid ← readBoolean (value.get "repository_state_valid")
    "repository state valid"
  let headSha ← readString (value.get "head_sha") "operation head"
  let treeSha ← readString (value.get "tree_sha") "operation tree"
  let configurationId ← readUuid u (value.get "configuration_id") "configuration id"
  let configurationVersion ← readInteger (value.get "configuration_version")
    "configuration version"
  let configurationDigest ← readString (value.get "configuration_digest") "configuration digest"
  let validationContractVersion ← readInteger (value.get "validation_contract_version")
    "validation contract version"
  let evidenceKeys ← readStringTuple (value.get "evidence_keys") "evidence keys"
  let simulatorTarget ← readTarget (value.get "simulator_target")
  let r : ValidationOperationResult :=
    { operationId, operationKind, exitStatus, durationMs, passed, cancellationStatus,
      outputLimited, repositoryStateValid, headSha, treeSha, configurationId,
      configurationVersion, configurationDigest, validationContractVersion, evidenceKeys,
      simulatorTarget }
  r.postInit u
  return r

def TypedAssertionResult.fromDict (u : Unicode) (value : Json) :
    Except ValidationEvidenceError TypedAssertionResult := do
  exactMapping value
    ["assertion_id", "kind", "verifier_catalog_key", "status", "evidence_keys", "result_code"]
    "assertion result"
  let assertionId ← readString (value.get "assertion_id") "assertion id"
  let kind ← readEnum AssertionKind.ofValue? (value.get "kind") "assertion kind"
  let verifierCatalogKey ← readString (value.get "verifier_catalog_key") "verifier catalog key"
  let status ← readEnum AssertionResultStatus.ofValue? (value.get "status") "assertion status"
  let evidenceKeys ← readStringTuple (value.get "evidence_keys") "evidence keys"
  let resultCode ← readString (value.get "result_code") "result code"
  let r : TypedAssertionResult :=
    { assertionId, kind, verifierCatalogKey, status, evidenceKeys, resultCode }
  r.postInit u
  return r

def ValidationEvidenceCollection.fromDict (u : Unicode) (value : Json) :
    Except ValidationEvidenceError ValidationEvidenceCollection := do
  exactMapping value
    ["run_id", "task_id", "validation_attempt_id", "validation_contract_id",
      "repository_configuration_id", "commit_sha", "tree_sha", "duration_ms", "evidence",
      "operation_results", "assertion_results"] "validation evidence collection"
  let runId ← readUuid u (value.get "run_id") "run id"
  let taskId ← readUuid u (value.get "task_id") "task id"
  let validationAttemptId ← readUuid u (value.get "validation_attempt_id")
    "validation attempt id"
  let validationContractId ← readUuid u (value.get "validation_contract_id")
    "validation contract id"
  let repositoryConfigurationId ← readUuid u (value.get "repository_configuration_id")
    "repository configuration id"
  let commitSha ← readString (value.get "commit_sha") "commit sha"
  let treeSha ← readString (value.get "tree_sha") "tree sha"
  let durationMs ← readInteger (value.get "duration_ms") "collection duration"
  let items ← readSequence (value.get "evidence") "evidence"
  let evidence ← items.mapM (ValidationEvidenceItem.fromDict u)
  let operations ← readSequence (value.get "operation_results") "operation results"
  let operationResults ← operations.mapM (ValidationOperationResult.fromDict u)
  let assertions ← readSequence (value.get "assertion_results") "assertion results"
  let assertionResults ← assertions.mapM (TypedAssertionResult.fromDict u)
  let c : ValidationEvidenceCollection :=
    { runId, taskId, validationAttemptId, validationContractId, repositoryConfigurationId,
      commitSha, treeSha, durationMs, evidence, operationResults, assertionResults }
  c.postInit
  return c

/-! ### Reading back -/

theorem readUuid_str (u : Unicode) (id : UUID) (field : String) :
    readUuid u (.str id.str) field = .ok id := by
  simp [readUuid, readString, Json.str?, UUID.parse_str, Except.orThrow, bind, Except.bind]

theorem readStringTuple_arr (texts : List String) (field : String) :
    readStringTuple (.arr (texts.map .str)) field = .ok texts := by
  have hall : List.Forall₂ (fun item text => readString item field = .ok text)
      (texts.map Json.str) texts := by
    rw [List.forall₂_map_left_iff, List.forall₂_same]
    exact fun text _ => rfl
  simp only [readStringTuple, readSequence, Json.arr?, Except.orThrow, Except.bind_eq_ok,
    Except.ok.injEq, exists_eq_left']
  exact Except.mapM_eq_ok.mpr hall

theorem readOptionalString_text (text : Option String) (field : String) :
    readOptionalString (optionalText text) field = .ok text := by
  cases text <;> rfl

theorem readEnum_value {α : Type} {ofValue? : String → Option α} {value : α → String}
    (h : ∀ a, ofValue? (value a) = some a) (a : α) (field : String) :
    readEnum ofValue? (.str (value a)) field = .ok a := by
  simp [readEnum, readString, Json.str?, Except.orThrow, h, bind, Except.bind]

theorem ValidationEvidenceType.ofValue?_value (t : ValidationEvidenceType) :
    ofValue? t.value = some t := by
  cases t <;> decide

theorem operationKindOfValue?_value (kind : OperationKind) :
    operationKindOfValue? (operationKindValue kind) = some kind := by
  cases kind <;> decide

theorem readSequence_map {α : Type} {decode : Json → Except ValidationEvidenceError α}
    {encode : α → Json} {as : List α} (h : ∀ a ∈ as, decode (encode a) = .ok a) :
    (as.map encode).mapM decode = .ok as := by
  refine Except.mapM_eq_ok.mpr ?_
  rw [List.forall₂_map_left_iff, List.forall₂_same]
  exact h

/-- Entries in the order of their keys are a mapping. -/
theorem dict_eq_self {fields : Mapping} (h : fields.map Prod.fst = simulatorTargetKeys) :
    dict fields = fields := by
  refine List.Pairwise.insertionSort_eq ?_
  have hkeys : (fields.map Prod.fst).Pairwise (· ≤ ·) := by
    rw [h]
    decide
  exact List.pairwise_map.mp hkeys

theorem dict_of_checkTarget {r : ValidationOperationResult} (h : r.checkTarget = .ok ())
    {fields : Mapping} (hfields : r.simulatorTarget = some fields) : dict fields = fields := by
  unfold ValidationOperationResult.checkTarget at h
  split at h
  · simp only [validateSimulatorTarget, require, Except.bind_eq_ok, Except.orThrow_eq_ok,
      Except.require_eq_ok, hfields, Option.some.injEq] at h
    obtain ⟨_, rfl, _, hkeys, -⟩ := h
    exact dict_eq_self hkeys
  · simp only [require, Except.require_eq_ok, hfields, reduceCtorEq] at h

theorem ValidationOperationResult.checkTarget_of_postInit {u : Unicode}
    {r : ValidationOperationResult} (h : r.postInit u = .ok ()) : r.checkTarget = .ok () := by
  simp only [postInit, Except.bind_eq_ok] at h
  obtain ⟨_, -, _, -, _, -, _, -, _, -, _, -, _, -, _, -, _, -, _, -, _, hcheck, -⟩ := h
  exact hcheck

theorem readTarget_targetDict {r : ValidationOperationResult} (h : r.checkTarget = .ok ()) :
    readTarget (targetDict r.simulatorTarget) = .ok r.simulatorTarget := by
  cases htarget : r.simulatorTarget with
  | none => rfl
  | some fields =>
    have hdict := dict_of_checkTarget h htarget
    simp [readTarget, targetDict, Json.isNull, Json.obj?, Except.orThrow, hdict, bind,
      Except.bind, pure, Except.pure]

theorem ValidationEvidenceItem.fromDict_toDict {u : Unicode} {item : ValidationEvidenceItem}
    (h : item.postInit u = .ok ()) : fromDict u item.toDict = .ok item := by
  have hmapping : exactMapping item.toDict
      ["evidence_id", "evidence_key", "evidence_type", "origin", "content_address", "size_bytes",
        "role", "source_path"] "evidence item" = .ok () := rfl
  have hid : item.toDict.get "evidence_id" = .str item.evidenceId.str := rfl
  have hkey : readString (item.toDict.get "evidence_key") "evidence key" =
      .ok item.evidenceKey := rfl
  have htype : item.toDict.get "evidence_type" = .str item.evidenceType.value := rfl
  have horigin : readString (item.toDict.get "origin") "evidence origin" = .ok item.origin := rfl
  have haddress : readString (item.toDict.get "content_address") "content address" =
      .ok item.contentAddress := rfl
  have hsize : readInteger (item.toDict.get "size_bytes") "evidence size" =
      .ok item.sizeBytes := rfl
  have hrole : readString (item.toDict.get "role") "evidence role" = .ok item.role := rfl
  have hpath : item.toDict.get "source_path" = optionalText item.sourcePath := rfl
  simp only [fromDict, hmapping, hid, readUuid_str, hkey, htype,
    readEnum_value ValidationEvidenceType.ofValue?_value, horigin, haddress, hsize, hrole, hpath,
    readOptionalString_text, h, bind, Except.bind, pure, Except.pure]

theorem TypedAssertionResult.fromDict_toDict {u : Unicode} {r : TypedAssertionResult}
    (h : r.postInit u = .ok ()) : fromDict u r.toInputDict = .ok r := by
  have hmapping : exactMapping r.toInputDict
      ["assertion_id", "kind", "verifier_catalog_key", "status", "evidence_keys", "result_code"]
      "assertion result" = .ok () := rfl
  have hid : readString (r.toInputDict.get "assertion_id") "assertion id" =
      .ok r.assertionId := rfl
  have hkind : r.toInputDict.get "kind" = .str r.kind.value := rfl
  have hcatalog : readString (r.toInputDict.get "verifier_catalog_key") "verifier catalog key" =
      .ok r.verifierCatalogKey := rfl
  have hstatus : r.toInputDict.get "status" = .str r.status.value := rfl
  have hkeys : r.toInputDict.get "evidence_keys" = .arr (r.evidenceKeys.map .str) := rfl
  have hcode : readString (r.toInputDict.get "result_code") "result code" =
      .ok r.resultCode := rfl
  simp only [fromDict, hmapping, hid, hkind, readEnum_value AssertionKind.ofValue?_value,
    hcatalog, hstatus, readEnum_value AssertionResultStatus.ofValue?_value, hkeys,
    readStringTuple_arr, hcode, h, bind, Except.bind, pure, Except.pure]

theorem ValidationOperationResult.fromDict_toDict {u : Unicode} {r : ValidationOperationResult}
    (h : r.postInit u = .ok ()) : fromDict u r.toInputDict = .ok r := by
  have hcheck := checkTarget_of_postInit h
  have hmapping : exactMapping r.toInputDict
      ["operation_id", "operation_kind", "exit_status", "duration_ms", "passed",
        "cancellation_status", "output_limited", "repository_state_valid", "head_sha",
        "tree_sha", "configuration_id", "configuration_version", "configuration_digest",
        "validation_contract_version", "evidence_keys", "simulator_target"]
      "operation result" = .ok () := rfl
  have hid : readString (r.toInputDict.get "operation_id") "operation id" =
      .ok r.operationId := rfl
  have hkind : r.toInputDict.get "operation_kind" = .str (operationKindValue r.operationKind) :=
    rfl
  have hexit : readInteger (r.toInputDict.get "exit_status") "operation exit status" =
      .ok r.exitStatus := rfl
  have hduration : readInteger (r.toInputDict.get "duration_ms") "operation duration" =
      .ok r.durationMs := rfl
  have hpassed : readBoolean (r.toInputDict.get "passed") "operation passed" = .ok r.passed := rfl
  have hcancellation : readString (r.toInputDict.get "cancellation_status")
      "cancellation status" = .ok r.cancellationStatus := rfl
  have houtput : readBoolean (r.toInputDict.get "output_limited") "output limited" =
      .ok r.outputLimited := rfl
  have hstate : readBoolean (r.toInputDict.get "repository_state_valid")
      "repository state valid" = .ok r.repositoryStateValid := rfl
  have hhead : readString (r.toInputDict.get "head_sha") "operation head" = .ok r.headSha := rfl
  have htree : readString (r.toInputDict.get "tree_sha") "operation tree" = .ok r.treeSha := rfl
  have hconfiguration : r.toInputDict.get "configuration_id" = .str r.configurationId.str := rfl
  have hversion : readInteger (r.toInputDict.get "configuration_version")
      "configuration version" = .ok r.configurationVersion := rfl
  have hdigest : readString (r.toInputDict.get "configuration_digest") "configuration digest" =
      .ok r.configurationDigest := rfl
  have hcontract : readInteger (r.toInputDict.get "validation_contract_version")
      "validation contract version" = .ok r.validationContractVersion := rfl
  have hkeys : r.toInputDict.get "evidence_keys" = .arr (r.evidenceKeys.map .str) := rfl
  have htarget : r.toInputDict.get "simulator_target" = targetDict r.simulatorTarget := rfl
  simp only [fromDict, hmapping, hid, hkind, readEnum_value operationKindOfValue?_value, hexit,
    hduration, hpassed, hcancellation, houtput, hstate, hhead, htree, hconfiguration,
    readUuid_str, hversion, hdigest, hcontract, hkeys, readStringTuple_arr, htarget,
    readTarget_targetDict hcheck, h, bind, Except.bind, pure, Except.pure]

/-- A collection is read back from its dictionary. -/
theorem ValidationEvidenceCollection.fromDict_toDict {u : Unicode}
    {c : ValidationEvidenceCollection} (h : c.Constructible u) :
    fromDict u c.toDict = .ok c := by
  have hmapping : exactMapping c.toDict
      ["run_id", "task_id", "validation_attempt_id", "validation_contract_id",
        "repository_configuration_id", "commit_sha", "tree_sha", "duration_ms", "evidence",
        "operation_results", "assertion_results"] "validation evidence collection" = .ok () := rfl
  have hrun : c.toDict.get "run_id" = .str c.runId.str := rfl
  have htask : c.toDict.get "task_id" = .str c.taskId.str := rfl
  have hattempt : c.toDict.get "validation_attempt_id" = .str c.validationAttemptId.str := rfl
  have hcontract : c.toDict.get "validation_contract_id" = .str c.validationContractId.str := rfl
  have hconfiguration : c.toDict.get "repository_configuration_id" =
      .str c.repositoryConfigurationId.str := rfl
  have hcommit : readString (c.toDict.get "commit_sha") "commit sha" = .ok c.commitSha := rfl
  have htree : readString (c.toDict.get "tree_sha") "tree sha" = .ok c.treeSha := rfl
  have hduration : readInteger (c.toDict.get "duration_ms") "collection duration" =
      .ok c.durationMs := rfl
  have hevidence : readSequence (c.toDict.get "evidence") "evidence" =
      .ok (c.evidence.map (·.toDict)) := rfl
  have hoperations : readSequence (c.toDict.get "operation_results") "operation results" =
      .ok (c.operationResults.map (·.toInputDict)) := rfl
  have hassertions : readSequence (c.toDict.get "assertion_results") "assertion results" =
      .ok (c.assertionResults.map (·.toInputDict)) := rfl
  have hitems := readSequence_map fun item hitem =>
    ValidationEvidenceItem.fromDict_toDict (h.evidence item hitem)
  have hresults := readSequence_map fun r hr =>
    ValidationOperationResult.fromDict_toDict (h.operationResults r hr)
  have hverdicts := readSequence_map fun r hr =>
    TypedAssertionResult.fromDict_toDict (h.assertionResults r hr)
  simp only [fromDict, hmapping, hrun, htask, hattempt, hcontract, hconfiguration, readUuid_str,
    hcommit, htree, hduration, hevidence, hoperations, hassertions, hitems, hresults, hverdicts,
    h.collection, bind, Except.bind, pure, Except.pure]

/-! ### What the digest tells apart -/

theorem key_of_lookup {evidenceIds : List (String × UUID)}
    (hnodup : (evidenceIds.map Prod.snd).Nodup) {key key' : String} {id : UUID}
    (h : evidenceIds.lookup key = some id) (h' : evidenceIds.lookup key' = some id) :
    key = key' := by
  have hmem {k : String} (hk : evidenceIds.lookup k = some id) : (k, id) ∈ evidenceIds := by
    obtain ⟨before, after, heq, -⟩ := List.lookup_eq_some_iff.mp hk
    rw [heq]
    exact List.mem_append_right _ List.mem_cons_self
  exact congrArg Prod.fst (List.inj_on_of_nodup_map hnodup (hmem h) (hmem h') rfl)

/-- Distinct evidence has distinct keys and identifiers, so that the identifiers tell the keys. -/
theorem keys_of_evidenceIdsOf {evidenceIds : List (String × UUID)}
    (hnodup : (evidenceIds.map Prod.snd).Nodup) {keys keys' : List String} {ids : Json}
    (h : evidenceIdsOf evidenceIds keys = some ids)
    (h' : evidenceIdsOf evidenceIds keys' = some ids) : keys = keys' := by
  simp only [evidenceIdsOf, Option.bind_eq_bind, Option.bind_eq_some_iff, Option.pure_def,
    Option.some.injEq] at h h'
  obtain ⟨found, hfound, rfl⟩ := h
  obtain ⟨found', hfound', hsame⟩ := h'
  have hstr : Function.Injective fun id : UUID => Json.str id.str :=
    fun _ _ heq => UUID.str_injective (Json.str.inj heq)
  obtain rfl := List.map_injective_iff.mpr hstr (Json.arr.inj hsame)
  have hmap := map_eq_of_mapM (g := id) hfound hfound'
    fun _ _ _ _ _ hkey hkey' => key_of_lookup hnodup hkey hkey'
  simpa using hmap

theorem optionalText_inj {text text' : Option String} (h : optionalText text = optionalText text') :
    text = text' := by
  cases text <;> cases text' <;> simp_all [optionalText]

theorem ValidationEvidenceType.value_inj {t t' : ValidationEvidenceType} (h : t.value = t'.value) :
    t = t' := by
  have hread := ofValue?_value t
  rw [h, ofValue?_value] at hread
  exact (Option.some.inj hread).symm

/-- The registered part of an item with its identifier and origin is all of it. -/
theorem ValidationEvidenceItem.eq_of_payload {item item' : ValidationEvidenceItem}
    (h : Json.obj (("evidence_id", .str item.evidenceId.str) :: ("origin", .str item.origin) ::
      item.payload) = Json.obj (("evidence_id", .str item'.evidenceId.str) ::
        ("origin", .str item'.origin) :: item'.payload)) : item = item' := by
  simp only [payload, Json.obj.injEq, List.cons.injEq, Prod.mk.injEq, Json.str.injEq,
    Json.int.injEq, true_and, and_true] at h
  obtain ⟨hid, horigin, hkey, htype, haddress, hsize, hrole, hpath⟩ := h
  cases item
  cases item'
  simp only [mk.injEq]
  exact ⟨UUID.str_injective hid, hkey, ValidationEvidenceType.value_inj htype, horigin, haddress,
    hsize, hrole, optionalText_inj hpath⟩

theorem ValidationOperationResult.toInputDict_of_toDict {evidenceIds : List (String × UUID)}
    (hnodup : (evidenceIds.map Prod.snd).Nodup) {r r' : ValidationOperationResult} {value : Json}
    (h : r.toDict evidenceIds = some value) (h' : r'.toDict evidenceIds = some value) :
    r.toInputDict = r'.toInputDict := by
  simp only [toDict, Option.bind_eq_bind, Option.bind_eq_some_iff, Option.pure_def,
    Option.some.injEq] at h h'
  obtain ⟨ids, hids, rfl⟩ := h
  obtain ⟨ids', hids', hsame⟩ := h'
  simp only [Json.obj.injEq, List.cons.injEq, Prod.mk.injEq, true_and, and_true] at hsame
  obtain ⟨hid, hkind, hexit, hduration, hpassed, hcancellation, houtput, hstate, hhead, htree,
    hconfiguration, hversion, hdigest, hcontract, rfl, htarget⟩ := hsame
  simp only [toInputDict, hid, hkind, hexit, hduration, hpassed, hcancellation, houtput, hstate,
    hhead, htree, hconfiguration, hversion, hdigest, hcontract, htarget,
    keys_of_evidenceIdsOf hnodup hids hids']

theorem TypedAssertionResult.toInputDict_of_toDict {evidenceIds : List (String × UUID)}
    (hnodup : (evidenceIds.map Prod.snd).Nodup) {r r' : TypedAssertionResult} {value : Json}
    (h : r.toDict evidenceIds = some value) (h' : r'.toDict evidenceIds = some value) :
    r.toInputDict = r'.toInputDict := by
  simp only [toDict, Option.bind_eq_bind, Option.bind_eq_some_iff, Option.pure_def,
    Option.some.injEq] at h h'
  obtain ⟨ids, hids, rfl⟩ := h
  obtain ⟨ids', hids', hsame⟩ := h'
  simp only [Json.obj.injEq, List.cons.injEq, Prod.mk.injEq, true_and, and_true] at hsame
  obtain ⟨hid, hkind, hcatalog, hstatus, hcode, rfl⟩ := hsame
  simp only [toInputDict, hid, hkind, hcatalog, hstatus, hcode,
    keys_of_evidenceIdsOf hnodup hids hids']

/-- The hashed form of a collection determines its dictionary. -/
theorem ValidationEvidenceCollection.toDict_of_fingerprintPayload
    {c c' : ValidationEvidenceCollection} (hnodup : (c.evidence.map (·.evidenceId)).Nodup)
    {payload : Json} (h : c.fingerprintPayload = some payload)
    (h' : c'.fingerprintPayload = some payload) : c.toDict = c'.toDict := by
  simp only [fingerprintPayload, Option.bind_eq_bind, Option.bind_eq_some_iff, Option.pure_def,
    Option.some.injEq] at h h'
  obtain ⟨operations, hoperations, assertions, hassertions, rfl⟩ := h
  obtain ⟨operations', hoperations', assertions', hassertions', hsame⟩ := h'
  simp only [Json.obj.injEq, List.cons.injEq, Prod.mk.injEq, Json.arr.injEq, true_and,
    and_true] at hsame
  obtain ⟨hrun, htask, hattempt, hcontract, hconfiguration, hcommit, htree, hduration, hevidence,
    rfl, rfl⟩ := hsame
  have hitems : c'.evidence = c.evidence := List.map_injective_iff.mpr
    (fun _ _ => ValidationEvidenceItem.eq_of_payload) hevidence
  rw [hitems] at hoperations' hassertions'
  have hids : ((c.evidence.map fun item => (item.evidenceKey, item.evidenceId)).map
      Prod.snd).Nodup := by
    rw [List.map_map]
    exact hnodup
  have hresults := map_eq_of_mapM hoperations hoperations' fun _ _ _ _ _ =>
    ValidationOperationResult.toInputDict_of_toDict hids
  have hverdicts := map_eq_of_mapM hassertions hassertions' fun _ _ _ _ _ =>
    TypedAssertionResult.toInputDict_of_toDict hids
  simp only [toDict, hrun, htask, hattempt, hcontract, hconfiguration, hcommit, htree, hduration,
    hitems, hresults, hverdicts]

/-! ### Digests of collections -/

/-- SHA-256 does not collide on two texts. -/
def NoCollision (rt : Runtime) (text text' : String) : Prop :=
  rt.sha256 text = rt.sha256 text' → text = text'

theorem isScalar_optionalText (text : Option String) : (optionalText text).isScalar = true := by
  cases text <;> rfl

theorem isFloat_optionalText (text : Option String) : (optionalText text).isFloat = false := by
  cases text <;> rfl

@[simp] theorem aligned_optionalText (text text' : Option String) :
    Json.Aligned (optionalText text) (optionalText text') :=
  .scalar (Or.inl (isScalar_optionalText text)) (isFloat_optionalText text)
    (isFloat_optionalText text')

/-- The entries of a checked target are the five texts, in the order of their keys. -/
theorem target_of_checkTarget {r : ValidationOperationResult} (h : r.checkTarget = .ok ())
    {fields : Mapping} (hfields : r.simulatorTarget = some fields) :
    fields.map Prod.fst = simulatorTargetKeys ∧ ∀ f ∈ fields, f.2.isScalar = true ∧
      f.2.isFloat = false := by
  unfold ValidationOperationResult.checkTarget at h
  split at h
  · simp only [validateSimulatorTarget, require, Except.bind_eq_ok, Except.orThrow_eq_ok,
      Except.require_eq_ok, hfields, Option.some.injEq] at h
    obtain ⟨_, rfl, _, hkeys, htexts⟩ := h
    refine ⟨hkeys, fun f hf => ?_⟩
    have htext := htexts f hf
    cases hvalue : f.2 with
    | str text => exact ⟨rfl, rfl⟩
    | null | bool _ | int _ | float _ | arr _ | obj _ =>
      rw [hvalue] at htext
      cases htext
  · simp only [require, Except.require_eq_ok, hfields, reduceCtorEq] at h

theorem aligned_targetDict {r r' : ValidationOperationResult} (h : r.checkTarget = .ok ())
    (h' : r'.checkTarget = .ok ()) :
    Json.Aligned (targetDict r.simulatorTarget) (targetDict r'.simulatorTarget) := by
  cases htarget : r.simulatorTarget with
  | none =>
    cases r'.simulatorTarget with
    | none => exact .scalar (Or.inl rfl) rfl rfl
    | some fields => exact .scalar (Or.inl rfl) rfl rfl
  | some fields =>
    cases htarget' : r'.simulatorTarget with
    | none => exact .scalar (Or.inr rfl) rfl rfl
    | some fields' =>
      obtain ⟨hkeys, hscalars⟩ := target_of_checkTarget h htarget
      obtain ⟨hkeys', hscalars'⟩ := target_of_checkTarget h' htarget'
      rw [targetDict, targetDict, dict_eq_self hkeys, dict_eq_self hkeys']
      refine .fields (hkeys.trans hkeys'.symm) ?_ fun f hf g hg _ =>
        .scalar (Or.inl (hscalars f hf).1) (hscalars f hf).2 (hscalars' g hg).2
      rw [hkeys]
      decide

theorem aligned_evidenceIdsOf {evidenceIds evidenceIds' : List (String × UUID)}
    {keys keys' : List String} {ids ids' : Json} (h : evidenceIdsOf evidenceIds keys = some ids)
    (h' : evidenceIdsOf evidenceIds' keys' = some ids') : Json.Aligned ids ids' := by
  simp only [evidenceIdsOf, Option.bind_eq_bind, Option.bind_eq_some_iff, Option.pure_def,
    Option.some.injEq] at h h'
  obtain ⟨found, -, rfl⟩ := h
  obtain ⟨found', -, rfl⟩ := h'
  exact Json.aligned_strs UUID.str UUID.str found found'

theorem ValidationEvidenceItem.aligned (item item' : ValidationEvidenceItem) :
    Json.Aligned
      (.obj (("evidence_id", .str item.evidenceId.str) :: ("origin", .str item.origin) ::
        item.payload))
      (.obj (("evidence_id", .str item'.evidenceId.str) :: ("origin", .str item'.origin) ::
        item'.payload)) := by
  refine .record ["evidence_id", "origin", "schema_version", "evidence_key",
    "evidence_type", "host_content_address", "size_bytes", "role", "source_path"] rfl
    (by decide) ?_
  simp only [payload, List.forall₂_cons, List.forall₂_nil_left_iff, Json.aligned_str,
    Json.aligned_int, aligned_optionalText, and_self]

theorem ValidationOperationResult.aligned {evidenceIds evidenceIds' : List (String × UUID)}
    {r r' : ValidationOperationResult} (hr : r.checkTarget = .ok ())
    (hr' : r'.checkTarget = .ok ()) {value value' : Json}
    (h : r.toDict evidenceIds = some value) (h' : r'.toDict evidenceIds' = some value') :
    Json.Aligned value value' := by
  simp only [toDict, Option.bind_eq_bind, Option.bind_eq_some_iff, Option.pure_def,
    Option.some.injEq] at h h'
  obtain ⟨ids, hids, rfl⟩ := h
  obtain ⟨ids', hids', rfl⟩ := h'
  refine .record ["schema_version", "operation_id", "operation_kind", "exit_status",
    "duration_ms", "passed", "cancellation_status", "output_limited", "repository_state_valid",
    "head_sha", "tree_sha", "configuration_id", "configuration_version", "configuration_digest",
    "validation_contract_version", "evidence_ids", "simulator_target"] rfl (by decide) ?_
  simp only [List.forall₂_cons, List.forall₂_nil_left_iff, Json.aligned_str, Json.aligned_int,
    Json.aligned_bool, aligned_evidenceIdsOf hids hids', aligned_targetDict hr hr', and_self]

theorem ValidationOperationResult.isFloat_toDict {evidenceIds : List (String × UUID)}
    {r : ValidationOperationResult} {value : Json} (h : r.toDict evidenceIds = some value) :
    value.isFloat = false := by
  simp only [toDict, Option.bind_eq_bind, Option.bind_eq_some_iff, Option.pure_def,
    Option.some.injEq] at h
  obtain ⟨_, -, rfl⟩ := h
  rfl

theorem TypedAssertionResult.isFloat_toDict {evidenceIds : List (String × UUID)}
    {r : TypedAssertionResult} {value : Json} (h : r.toDict evidenceIds = some value) :
    value.isFloat = false := by
  simp only [toDict, Option.bind_eq_bind, Option.bind_eq_some_iff, Option.pure_def,
    Option.some.injEq] at h
  obtain ⟨_, -, rfl⟩ := h
  rfl

theorem TypedAssertionResult.aligned {evidenceIds evidenceIds' : List (String × UUID)}
    {r r' : TypedAssertionResult} {value value' : Json}
    (h : r.toDict evidenceIds = some value) (h' : r'.toDict evidenceIds' = some value') :
    Json.Aligned value value' := by
  simp only [toDict, Option.bind_eq_bind, Option.bind_eq_some_iff, Option.pure_def,
    Option.some.injEq] at h h'
  obtain ⟨ids, hids, rfl⟩ := h
  obtain ⟨ids', hids', rfl⟩ := h'
  refine .record ["assertion_id", "kind", "verifier_catalog_key", "status",
    "result_code", "evidence_ids"] rfl (by decide) ?_
  simp only [List.forall₂_cons, List.forall₂_nil_left_iff, Json.aligned_str,
    aligned_evidenceIdsOf hids hids', and_self]

/-- Lists of objects that traversals find are aligned when their items are. -/
theorem aligned_of_mapM {α : Type} {f g : α → Option Json} {as bs : List α} {xs ys : List Json}
    (h : as.mapM f = some xs) (h' : bs.mapM g = some ys)
    (haligned : ∀ a ∈ as, ∀ b ∈ bs, ∀ x y, f a = some x → g b = some y → Json.Aligned x y)
    (hfloat : ∀ a x, f a = some x ∨ g a = some x → x.isFloat = false) :
    Json.Aligned (.arr xs) (.arr ys) := by
  refine .items (fun x hx => ?_) fun x hx y hy => ?_
  · obtain hx | hx := List.mem_append.mp hx
    · obtain ⟨a, -, ha⟩ := exists_of_mem_mapM h x hx
      exact hfloat a x (Or.inl ha)
    · obtain ⟨b, -, hb⟩ := exists_of_mem_mapM h' x hx
      exact hfloat b x (Or.inr hb)
  · obtain ⟨a, ha, hax⟩ := exists_of_mem_mapM h x hx
    obtain ⟨b, hb, hby⟩ := exists_of_mem_mapM h' y hy
    exact haligned a ha b hb x y hax hby

/-- The hashed forms of two collections have the same keys. -/
theorem ValidationEvidenceCollection.aligned {u : Unicode} {c c' : ValidationEvidenceCollection}
    (hc : c.Constructible u) (hc' : c'.Constructible u) {payload payload' : Json}
    (h : c.fingerprintPayload = some payload) (h' : c'.fingerprintPayload = some payload') :
    Json.Aligned payload payload' := by
  simp only [fingerprintPayload, Option.bind_eq_bind, Option.bind_eq_some_iff, Option.pure_def,
    Option.some.injEq] at h h'
  obtain ⟨operations, hoperations, assertions, hassertions, rfl⟩ := h
  obtain ⟨operations', hoperations', assertions', hassertions', rfl⟩ := h'
  have hevidence : Json.Aligned
      (.arr (c.evidence.map fun item => .obj (("evidence_id", .str item.evidenceId.str) ::
        ("origin", .str item.origin) :: item.payload)))
      (.arr (c'.evidence.map fun item => .obj (("evidence_id", .str item.evidenceId.str) ::
        ("origin", .str item.origin) :: item.payload))) := by
    refine .items (fun x hx => ?_) fun x hx y hy => ?_
    · obtain hx | hx := List.mem_append.mp hx <;> obtain ⟨_, -, rfl⟩ := List.mem_map.mp hx <;> rfl
    · obtain ⟨item, -, rfl⟩ := List.mem_map.mp hx
      obtain ⟨item', -, rfl⟩ := List.mem_map.mp hy
      exact item.aligned item'
  have hresults : Json.Aligned (.arr operations) (.arr operations') := by
    refine aligned_of_mapM hoperations hoperations' (fun r hr r' hr' x y hx hy =>
      ValidationOperationResult.aligned
        (ValidationOperationResult.checkTarget_of_postInit (hc.operationResults r hr))
        (ValidationOperationResult.checkTarget_of_postInit (hc'.operationResults r' hr')) hx hy) ?_
    rintro r x (hx | hx) <;> exact ValidationOperationResult.isFloat_toDict hx
  have hverdicts : Json.Aligned (.arr assertions) (.arr assertions') := by
    refine aligned_of_mapM hassertions hassertions' (fun r hr r' hr' x y hx hy =>
      TypedAssertionResult.aligned hx hy) ?_
    rintro r x (hx | hx) <;> exact TypedAssertionResult.isFloat_toDict hx
  refine .record ["schema_version", "run_id", "task_id", "validation_attempt_id",
    "validation_contract_id", "repository_configuration_id", "commit_sha", "tree_sha",
    "duration_ms", "evidence", "operation_results", "assertion_results"] rfl (by decide) ?_
  simp only [List.forall₂_cons, List.forall₂_nil_left_iff, Json.aligned_str, Json.aligned_int,
    hevidence, hresults, hverdicts, and_self]

theorem exists_evidenceIdsOf {evidenceIds : List (String × UUID)} {keys : List String}
    (h : ∀ key ∈ keys, key ∈ evidenceIds.map Prod.fst) :
    ∃ ids, evidenceIdsOf evidenceIds keys = some ids := by
  have hfound : ∀ key ∈ keys, ∃ id, evidenceIds.lookup key = some id := by
    intro key hkey
    cases hlookup : evidenceIds.lookup key with
    | some id => exact ⟨id, rfl⟩
    | none =>
      obtain ⟨e, he, rfl⟩ := List.mem_map.mp (h key hkey)
      have hne := List.lookup_eq_none_iff.mp hlookup e he
      simp at hne
  obtain ⟨ids, hids⟩ := exists_mapM hfound
  exact ⟨.arr (ids.map fun id => .str id.str), by simp [evidenceIdsOf, hids]⟩

/-- Every reference of a built collection is to evidence of it. -/
theorem ValidationEvidenceCollection.fingerprintPayload_isSome {u : Unicode}
    {c : ValidationEvidenceCollection} (h : c.Constructible u) :
    ∃ payload, c.fingerprintPayload = some payload := by
  have hcollection := h.collection
  simp only [postInit, require, Except.bind_eq_ok, Except.require_eq_ok] at hcollection
  obtain ⟨_, -, _, -, _, -, _, -, _, -, _, -, _, -, _, -, _, -, _, -, hknown⟩ := hcollection
  have hkeys : (c.evidence.map fun item => (item.evidenceKey, item.evidenceId)).map Prod.fst =
      c.evidence.map (·.evidenceKey) := by
    rw [List.map_map]
    rfl
  simp only [List.all_eq_true, List.contains_iff_mem] at hknown
  have hoperations : ∀ r ∈ c.operationResults, ∃ value, r.toDict
      (c.evidence.map fun item => (item.evidenceKey, item.evidenceId)) = some value := by
    intro r hr
    obtain ⟨ids, hids⟩ := exists_evidenceIdsOf fun key hkey => hkeys ▸ hknown key
      (List.mem_append_left _ (List.mem_flatMap.mpr ⟨r, hr, hkey⟩))
    exact ⟨_, by rw [ValidationOperationResult.toDict, hids]; rfl⟩
  have hassertions : ∀ r ∈ c.assertionResults, ∃ value, r.toDict
      (c.evidence.map fun item => (item.evidenceKey, item.evidenceId)) = some value := by
    intro r hr
    obtain ⟨ids, hids⟩ := exists_evidenceIdsOf fun key hkey => hkeys ▸ hknown key
      (List.mem_append_right _ (List.mem_flatMap.mpr ⟨r, hr, hkey⟩))
    exact ⟨_, by rw [TypedAssertionResult.toDict, hids]; rfl⟩
  obtain ⟨operations, hoperations⟩ := exists_mapM hoperations
  obtain ⟨assertions, hassertions⟩ := exists_mapM hassertions
  exact ⟨_, by rw [fingerprintPayload, hoperations, hassertions]; rfl⟩

theorem ValidationEvidenceCollection.evidenceIds_nodup {u : Unicode}
    {c : ValidationEvidenceCollection} (h : c.Constructible u) :
    (c.evidence.map (·.evidenceId)).Nodup := by
  have hcollection := h.collection
  simp only [postInit, require, Except.bind_eq_ok, Except.require_eq_ok] at hcollection
  obtain ⟨_, -, _, -, _, -, _, -, _, -, _, -, _, hnodup, -⟩ := hcollection
  exact hnodup

namespace CollectionExample

def sha : String := "0123456789abcdef0123456789abcdef01234567"

def address : String :=
  "sha256:0123456789abcdef0123456789abcdef0123456789abcdef0123456789abcdef"

def item : ValidationEvidenceItem where
  evidenceId := default
  evidenceKey := "log"
  evidenceType := .applicationLog
  origin := "host/log"
  contentAddress := address
  sizeBytes := 12
  role := "log"
  sourcePath := some "out/app log.txt"

def operation : ValidationOperationResult where
  operationId := "e2e"
  operationKind := .simulatorE2e
  exitStatus := 1
  durationMs := 20
  passed := false
  cancellationStatus := "NOT_REQUESTED"
  outputLimited := false
  repositoryStateValid := true
  headSha := sha
  treeSha := sha
  configurationId := default
  configurationVersion := 1
  configurationDigest := address
  validationContractVersion := 1
  evidenceKeys := ["log"]
  simulatorTarget := some (simulatorTargetKeys.map fun key => (key, .str "any"))

def assertion : TypedAssertionResult where
  assertionId := "crash"
  kind := .noCrash
  verifierCatalogKey := "crash"
  status := .failed
  evidenceKeys := ["log"]
  resultCode := "CRASHED"

def collection : ValidationEvidenceCollection where
  runId := default
  taskId := default
  validationAttemptId := default
  validationContractId := default
  repositoryConfigurationId := default
  commitSha := sha
  treeSha := sha
  durationMs := 20
  evidence := [item]
  operationResults := [operation]
  assertionResults := [assertion]

theorem constructible : collection.Constructible .ascii where
  evidence := by
    rintro _ (_ | ⟨_, ⟨⟩⟩)
    decide +kernel
  operationResults := by
    rintro _ (_ | ⟨_, ⟨⟩⟩)
    decide +kernel
  assertionResults := by
    rintro _ (_ | ⟨_, ⟨⟩⟩)
    decide +kernel
  collection := by decide +kernel

end CollectionExample

end ControlPlane.ValidationEvidence
