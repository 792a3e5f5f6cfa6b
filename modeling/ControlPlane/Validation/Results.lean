import ControlPlane.Briefing.Policy

/-!
# Results of acceptance criteria

What a collection of validation evidence records about every criterion of the accepted
brief, and what the cockpit makes of the recorded results. The reader trusts nothing: it
reads the stored values again, with its own rules, and leaves out what breaks one.
-/
namespace ControlPlane.Validation

open Regex Regex.Re

/-! ### Vocabulary -/

inductive AssertionKind where
  | elementValuePresent
  | navigationStateReached
  | expectedNetworkResponse
  | expectedLogEvent
  | noCrash
  deriving DecidableEq, Repr

def AssertionKind.value : AssertionKind → String
  | elementValuePresent => "ELEMENT_VALUE_PRESENT"
  | navigationStateReached => "NAVIGATION_STATE_REACHED"
  | expectedNetworkResponse => "EXPECTED_NETWORK_RESPONSE"
  | expectedLogEvent => "EXPECTED_LOG_EVENT"
  | noCrash => "NO_CRASH"

def assertionKinds : List AssertionKind :=
  [.elementValuePresent, .navigationStateReached, .expectedNetworkResponse, .expectedLogEvent,
    .noCrash]

inductive AssertionResultStatus where
  | pending
  | passed
  | failed
  | blocked
  deriving DecidableEq, Repr

def AssertionResultStatus.value : AssertionResultStatus → String
  | pending => "PENDING"
  | passed => "PASSED"
  | failed => "FAILED"
  | blocked => "BLOCKED"

def assertionResultStatuses : List AssertionResultStatus := [.pending, .passed, .failed, .blocked]

inductive VerificationMethod where
  | automatedTest
  | simulatorAssertion
  | staticCheck
  | humanInspection
  deriving DecidableEq, Repr

def VerificationMethod.value : VerificationMethod → String
  | automatedTest => "AUTOMATED_TEST"
  | simulatorAssertion => "SIMULATOR_ASSERTION"
  | staticCheck => "STATIC_CHECK"
  | humanInspection => "HUMAN_INSPECTION"

def verificationMethods : List VerificationMethod :=
  [.automatedTest, .simulatorAssertion, .staticCheck, .humanInspection]

/-- The member of an enumeration with a text as its value. -/
def ofValue? {α : Type} (value : α → String) (members : List α) (text : String) : Option α :=
  members.find? fun m => value m = text

def AssertionKind.ofValue? : String → Option AssertionKind :=
  Validation.ofValue? value assertionKinds

def AssertionResultStatus.ofValue? : String → Option AssertionResultStatus :=
  Validation.ofValue? value assertionResultStatuses

def VerificationMethod.ofValue? : String → Option VerificationMethod :=
  Validation.ofValue? value verificationMethods

def validationIdentifier : Pattern :=
  seq (cls alnum) (many true 0 (some 254) (cls (.union alnum (oneOf "._:/@+-"))))

/-- An identifier of at most 255 characters. -/
def isIdentifier (u : Unicode) (text : String) : Bool :=
  text.toList.length ≤ 255 && validationIdentifier.fullmatch (CharClass.holds u) text.toList

def isLowerHex (c : Char) : Bool := Unicode.asciiDigit c || ('a' ≤ c && c ≤ 'f')

/-- The lower-case name of a git object. -/
def isGitObject (cs : List Char) : Bool :=
  (cs.length = 40 || cs.length = 64) && cs.all isLowerHex

/-! ### What a collection reports -/

/-- The result of a deterministic verifier. -/
structure TypedAssertionResult (u : Unicode) where
  assertionId : String
  kind : AssertionKind
  verifierCatalogKey : String
  status : AssertionResultStatus
  evidenceKeys : List String
  resultCode : String
  assertionId_ok : isIdentifier u assertionId = true
  catalogKey_ok : isIdentifier u verifierCatalogKey = true
  evidenceKeys_ok : ∀ key ∈ evidenceKeys, isIdentifier u key = true
  evidenceKeys_nodup : evidenceKeys.Nodup
  resultCode_ok : isIdentifier u resultCode = true
  evidenced : status = .pending ↔ evidenceKeys = []

structure ValidationEvidenceItem where
  evidenceId : UUID
  evidenceKey : String

/-- What a collection says about evidence and assertions of one run. -/
structure ValidationEvidenceCollection (u : Unicode) where
  runId : UUID
  commitSha : String
  treeSha : String
  evidence : List ValidationEvidenceItem
  assertionResults : List (TypedAssertionResult u)
  commit_ok : isGitObject commitSha.toList = true
  tree_ok : isGitObject treeSha.toList = true
  evidenceId_nodup : (evidence.map (·.evidenceId)).Nodup
  evidenceKey_nodup : (evidence.map (·.evidenceKey)).Nodup
  assertionId_nodup : (assertionResults.map (·.assertionId)).Nodup
  referenced : ∀ result ∈ assertionResults, ∀ key ∈ result.evidenceKeys,
    key ∈ evidence.map (·.evidenceKey)

/-- A contract with its assertions; the column of its version holds positive numbers. -/
structure RecordedContract extends ValidationContract where
  typedAssertions : List Json
  version_pos : 0 < version

/-- A run with the results that were recorded for it. -/
structure RecordedRun extends ValidationRun where
  acceptanceCriterionResults : List Json

/-! ### Recording -/

structure AssertionRequirement where
  assertionId : String
  kind : AssertionKind
  verifierCatalogKey : String
  criterionId : Option String

def optionalText : Json → Option (Option String)
  | .null => some none
  | .str text => some (some text)
  | _ => none

def requireIdentifier (u : Unicode) (text code : String) : Except String Unit :=
  Except.require (isIdentifier u text = true) code

def assertionRequirement (u : Unicode) (value : Json) : Except String AssertionRequirement := do
  Except.require (value.obj?.isSome = true ∧ value.hasKeys
    ["assertion_id", "kind", "verifier_catalog_key", "acceptance_criterion_id"] = true)
    "ASSERTION_REQUIREMENT_INVALID"
  let assertionId ← Except.orThrow (value.get "assertion_id").str? "ASSERTION_REQUIREMENT_INVALID"
  let rawKind ← Except.orThrow (value.get "kind").str? "ASSERTION_REQUIREMENT_INVALID"
  let catalogKey ← Except.orThrow (value.get "verifier_catalog_key").str?
    "ASSERTION_REQUIREMENT_INVALID"
  let criterionId ← Except.orThrow (optionalText (value.get "acceptance_criterion_id"))
    "ASSERTION_REQUIREMENT_INVALID"
  requireIdentifier u assertionId "ASSERTION_ID_INVALID"
  requireIdentifier u catalogKey "VERIFIER_CATALOG_KEY_INVALID"
  Except.require (∀ id ∈ criterionId, isIdentifier u id = true) "ACCEPTANCE_CRITERION_ID_INVALID"
  let kind ← Except.orThrow (AssertionKind.ofValue? rawKind) "ASSERTION_REQUIREMENT_INVALID"
  .ok ⟨assertionId, kind, catalogKey, criterionId⟩

/-- The requirements of a contract, after those already read. -/
def assertionRequirementsFrom (u : Unicode) :
    List Json → List AssertionRequirement → Except String (List AssertionRequirement)
  | [], found => do
    Except.require (found ≠ []) "ASSERTION_REQUIREMENTS_EMPTY"
    .ok found
  | value :: values, found => do
    let requirement ← assertionRequirement u value
    Except.require (requirement.assertionId ∉ found.map (·.assertionId))
      "ASSERTION_REQUIREMENT_DUPLICATE"
    assertionRequirementsFrom u values (found ++ [requirement])

def assertionRequirements (u : Unicode) (values : List Json) :
    Except String (List AssertionRequirement) :=
  assertionRequirementsFrom u values []

/-- The criteria of a brief, after those already read. -/
def briefCriterionIdsFrom (u : Unicode) : List Json → List String → Except String (List String)
  | [], found => do
    Except.require (found ≠ []) "BRIEF_CRITERIA_INVALID"
    .ok found
  | value :: values, found => do
    let id ← Except.orThrow (value.get "criterion_id").str? "BRIEF_CRITERIA_INVALID"
    requireIdentifier u id "ACCEPTANCE_CRITERION_ID_INVALID"
    Except.require (id ∉ found) "BRIEF_CRITERIA_INVALID"
    briefCriterionIdsFrom u values (found ++ [id])

/-- The criteria a brief stores. -/
def briefCriteria (brief : Brief) : List Json := brief.acceptanceCriteria.arr?.getD []

def briefCriterionIds (u : Unicode) (brief : Brief) : Except String (List String) :=
  briefCriterionIdsFrom u (briefCriteria brief) []

namespace ValidationEvidenceCollection
variable {u : Unicode} (c : ValidationEvidenceCollection u)

/-- The record captured for an evidence key; a result refers to captured ones only. -/
def evidenceIdOf (key : String) : UUID :=
  ((c.evidence.find? (·.evidenceKey = key)).map (·.evidenceId)).getD (.ofNat 0)

def evidenceIds (result : TypedAssertionResult u) : List UUID :=
  result.evidenceKeys.map c.evidenceIdOf

/-- A result as it is recorded. -/
def toDict (result : TypedAssertionResult u) : Json :=
  .obj [("assertion_id", .str result.assertionId), ("kind", .str result.kind.value),
    ("verifier_catalog_key", .str result.verifierCatalogKey),
    ("status", .str result.status.value), ("result_code", .str result.resultCode),
    ("evidence_ids", .arr ((c.evidenceIds result).map fun id => .str id.str))]

def resultOf? (assertionId : String) : Option (TypedAssertionResult u) :=
  c.assertionResults.find? (·.assertionId = assertionId)

/-- The results of a criterion, in the order of the contract. -/
def resultsOf (requirements : List AssertionRequirement) (criterionId : String) :
    List (TypedAssertionResult u) :=
  (requirements.filter (·.criterionId = some criterionId)).filterMap fun r =>
    c.resultOf? r.assertionId

/-- The status of a criterion from those of its assertions. -/
def criterionStatus (results : List (TypedAssertionResult u)) : AssertionResultStatus :=
  let statuses := results.map (·.status)
  if .failed ∈ statuses then .failed
  else if .blocked ∈ statuses then .blocked
  else if .pending ∈ statuses then .pending
  else .passed

/-- The evidence of a criterion, each record once, sorted by its text. -/
def criterionEvidence (results : List (TypedAssertionResult u)) : List UUID :=
  (results.flatMap c.evidenceIds).dedup.insertionSort fun a b => a.str ≤ b.str

def criterionResult (contractVersion : ℕ) (criterionId : String)
    (results : List (TypedAssertionResult u)) : Json :=
  .obj [("schema_version", .int 1), ("criterion_id", .str criterionId),
    ("status", .str (criterionStatus results).value),
    ("assertions", .arr (results.map c.toDict)),
    ("evidence_ids", .arr ((c.criterionEvidence results).map fun id => .str id.str)),
    ("validation_contract_version", .int contractVersion),
    ("commit_sha", .str c.commitSha), ("tree_sha", .str c.treeSha)]

/-- A requirement needs its own result, of its kind and verifier, with captured evidence. -/
def checkRequirement (r : AssertionRequirement) : Except String Unit := do
  let result ← Except.orThrow (c.resultOf? r.assertionId) "ASSERTION_RESULTS_INCOMPLETE"
  Except.require (result.kind = r.kind ∧ result.verifierCatalogKey = r.verifierCatalogKey)
    "ASSERTION_RESULT_MISMATCH"
  Except.require (∀ key ∈ result.evidenceKeys, key ∈ c.evidence.map (·.evidenceKey))
    "EVIDENCE_REFERENCE_UNKNOWN"

/-- What an accepted collection records about the criteria of the accepted brief. The other
checks of `collect` read none of this; they only refuse. -/
def collect (contract : RecordedContract) (brief : Brief) : Except String (List Json) := do
  let requirements ← assertionRequirements u contract.typedAssertions
  Except.require
    ((∀ r ∈ requirements, r.assertionId ∈ c.assertionResults.map (·.assertionId)) ∧
      ∀ result ∈ c.assertionResults, result.assertionId ∈ requirements.map (·.assertionId))
    "ASSERTION_RESULTS_INCOMPLETE"
  requirements.forM c.checkRequirement
  let criterionIds ← briefCriterionIds u brief
  Except.require
    ((∀ id ∈ criterionIds, some id ∈ requirements.map (·.criterionId)) ∧
      ∀ r ∈ requirements, ∀ id ∈ r.criterionId, id ∈ criterionIds)
    "CRITERION_BINDINGS_INCOMPLETE"
  .ok ((criterionIds.insertionSort (· ≤ ·)).map fun id =>
    c.criterionResult contract.version id (c.resultsOf requirements id))

/-- The run an accepted collection leaves. -/
def recordedRun (contract : RecordedContract) (run : ValidationRun) (results : List Json) :
    RecordedRun :=
  { run with
    id := c.runId
    validationContractId := contract.id
    commitSha := c.commitSha
    treeSha := c.treeSha
    acceptanceCriterionResults := results }

end ValidationEvidenceCollection

/-! ### Reading -/

/-- What building the response can raise. -/
inductive ReadError where
  /-- A list or an object was looked up in a set. -/
  | unhashable
  /-- A value is not one the response can have. -/
  | invalid
  deriving DecidableEq, Repr

structure TaskAcceptanceAssertionResponse where
  assertionId : String
  kind : AssertionKind
  verifierCatalogKey : String
  status : AssertionResultStatus
  resultCode : String
  evidenceIds : List UUID

structure RecordedCriterion where
  status : AssertionResultStatus
  validationRunId : UUID
  validationContractVersion : ℕ
  commitSha : String
  treeSha : String
  evidenceIds : List UUID
  assertions : List TaskAcceptanceAssertionResponse

structure TaskAcceptanceCriterionResponse where
  id : String
  requirement : String
  verification : VerificationMethod
  status : AssertionResultStatus
  validationRunId : Option UUID
  validationContractVersion : Option ℕ
  commitSha : Option String
  treeSha : Option String
  evidenceIds : List UUID
  assertions : List TaskAcceptanceAssertionResponse

/-- The member of an enumeration a stored value is, if it is one; the lookup in the set of
its values needs a value that can be hashed. -/
def memberOf? {α : Type} (ofValue? : String → Option α) : Json → Except ReadError (Option α)
  | .str text => .ok (ofValue? text)
  | .arr _ | .obj _ => .error .unhashable
  | _ => .ok none

/-- A text that is not empty. -/
def someText? (value : Json) : Option String := value.str?.filter (· ≠ "")

/-- The identifiers of a list, if every item of it is the text of one. -/
def readUuids (u : Unicode) (items : List Json) : Option (List UUID) :=
  let texts := items.filterMap Json.str?
  (texts.mapM (UUID.parse u)).filter fun ids => ids.length = items.length

/-- One recorded assertion, if it follows the rules of the reader. -/
def readAssertion (u : Unicode) (seen : List String) (a : Json) :
    Except ReadError (Option TaskAcceptanceAssertionResponse) :=
  match a.obj?, someText? (a.get "assertion_id") with
  | some _, some assertionId => do
    match ← memberOf? AssertionKind.ofValue? (a.get "kind"),
        someText? (a.get "verifier_catalog_key") with
    | some kind, some catalogKey => do
      match ← memberOf? AssertionResultStatus.ofValue? (a.get "status"),
          someText? (a.get "result_code"), (a.get "evidence_ids").arr? with
      | some status, some resultCode, some rawEvidence =>
        if assertionId ∈ seen then .ok none
        else
          match readUuids u rawEvidence with
          | some evidenceIds =>
            if evidenceIds.Nodup ∧ (status = .pending ↔ evidenceIds = []) then
              .ok (some ⟨assertionId, kind, catalogKey, status, resultCode, evidenceIds⟩)
            else .ok none
          | none => .ok none
      | _, _, _ => .ok none
    | _, _ => .ok none
  | _, _ => .ok none

/-- The assertions of a criterion, after those already read, if all are well formed. -/
def readAssertions (u : Unicode) : List Json → List TaskAcceptanceAssertionResponse →
    Except ReadError (Option (List TaskAcceptanceAssertionResponse))
  | [], found => .ok (some found)
  | a :: rest, found => do
    match ← readAssertion u (found.map (·.assertionId)) a with
    | some assertion => readAssertions u rest (found ++ [assertion])
    | none => .ok none

/-- The status the reader expects of a criterion with these assertions. -/
def expectedStatus (assertions : List TaskAcceptanceAssertionResponse) : AssertionResultStatus :=
  let statuses := assertions.map (·.status)
  if .failed ∈ statuses then .failed
  else if .blocked ∈ statuses then .blocked
  else if .pending ∈ statuses then .pending
  else .passed

def assertionEvidence (assertions : List TaskAcceptanceAssertionResponse) : List UUID :=
  assertions.flatMap (·.evidenceIds)

/-- One recorded result with its criterion, if it follows the rules of the reader. -/
def readCriterion (u : Unicode) (run : RecordedRun) (contract : RecordedContract)
    (seen : List String) (value : Json) : Except ReadError (Option (String × RecordedCriterion)) :=
  match value.obj?, someText? (value.get "criterion_id") with
  | some _, some criterionId => do
    match ← memberOf? AssertionResultStatus.ofValue? (value.get "status"),
        (value.get "evidence_ids").arr?, (value.get "assertions").arr? with
    | some status, some rawEvidence, some rawAssertions =>
      if (value.get "validation_contract_version").pyEq (.int contract.version) = true ∧
          (value.get "commit_sha").str? = some run.commitSha ∧
          (value.get "tree_sha").str? = some run.treeSha ∧ rawAssertions ≠ [] then
        match readUuids u rawEvidence with
        | some evidenceIds => do
          match ← readAssertions u rawAssertions [] with
          | some assertions =>
            if criterionId ∉ seen ∧ evidenceIds.Nodup ∧
                (∀ id ∈ evidenceIds, id ∈ assertionEvidence assertions) ∧
                (∀ id ∈ assertionEvidence assertions, id ∈ evidenceIds) ∧
                status = expectedStatus assertions then
              .ok (some (criterionId,
                { status := status
                  validationRunId := run.id
                  validationContractVersion := contract.version
                  commitSha := run.commitSha
                  treeSha := run.treeSha
                  evidenceIds := evidenceIds
                  assertions := assertions }))
            else .ok none
          | none => .ok none
        | none => .ok none
      else .ok none
    | _, _, _ => .ok none
  | _, _ => .ok none

/-- The recorded results of a run, after those already read. A result that breaks a rule is
left out. -/
def recordedCriterionResultsFrom (u : Unicode) (run : RecordedRun) (contract : RecordedContract) :
    List Json → List (String × RecordedCriterion) →
    Except ReadError (List (String × RecordedCriterion))
  | [], found => .ok found
  | value :: values, found => do
    match ← readCriterion u run contract (found.map Prod.fst) value with
    | some entry => recordedCriterionResultsFrom u run contract values (found ++ [entry])
    | none => recordedCriterionResultsFrom u run contract values found

def recordedCriterionResults (u : Unicode) (run : RecordedRun) (contract : RecordedContract) :
    Except ReadError (List (String × RecordedCriterion)) :=
  if run.validationContractId = contract.id then
    recordedCriterionResultsFrom u run contract run.acceptanceCriterionResults []
  else .ok []

/-- A commit or a tree as the response holds it: without white space around it, in lower
case, and the name of a git object. -/
def gitObjectId (u : Unicode) (text : String) : Except ReadError String :=
  let name := u.lower (u.strip text.toList)
  if isGitObject name then .ok (String.ofList name) else .error .invalid

/-- The response about a criterion of the brief without a result. -/
def pendingResponse (id requirement : String) (verification : VerificationMethod) :
    TaskAcceptanceCriterionResponse where
  id := id
  requirement := requirement
  verification := verification
  status := .pending
  validationRunId := none
  validationContractVersion := none
  commitSha := none
  treeSha := none
  evidenceIds := []
  assertions := []

/-- The response about a criterion of the brief, with its result. -/
def recordedResponse (u : Unicode) (id requirement : String) (verification : VerificationMethod)
    (recorded : RecordedCriterion) : Except ReadError TaskAcceptanceCriterionResponse := do
  let commitSha ← gitObjectId u recorded.commitSha
  let treeSha ← gitObjectId u recorded.treeSha
  .ok
    { id := id
      requirement := requirement
      verification := verification
      status := recorded.status
      validationRunId := some recorded.validationRunId
      validationContractVersion := some recorded.validationContractVersion
      commitSha := some commitSha
      treeSha := some treeSha
      evidenceIds := recorded.evidenceIds
      assertions := recorded.assertions }

/-- A stored criterion the cockpit shows: its identifier, requirement and verification. -/
def shownCriterion? (value : Json) : Option (String × String × VerificationMethod) := do
  let id ← (someText? (value.get "criterion_id")).filter (·.toList.length ≤ 128)
  let requirement ← (someText? (value.get "requirement")).filter (·.toList.length ≤ 2000)
  let verification ← (value.get "verification").str?.bind VerificationMethod.ofValue?
  return (id, requirement, verification)

/-- The criteria of a brief with their results, after those already shown. -/
def acceptanceCriteriaFrom (u : Unicode) (recorded : List (String × RecordedCriterion)) :
    List Json → List TaskAcceptanceCriterionResponse →
    Except ReadError (List TaskAcceptanceCriterionResponse)
  | [], shown => .ok shown
  | value :: values, shown =>
    match shownCriterion? value with
    | some (id, requirement, verification) =>
      if id ∈ shown.map (·.id) then acceptanceCriteriaFrom u recorded values shown
      else
        match recorded.lookup id with
        | none =>
          acceptanceCriteriaFrom u recorded values
            (shown ++ [pendingResponse id requirement verification])
        | some result => do
          let response ← recordedResponse u id requirement verification result
          acceptanceCriteriaFrom u recorded values (shown ++ [response])
    | none => acceptanceCriteriaFrom u recorded values shown

/-- The acceptance criteria the cockpit shows for a brief, a run and its contract. -/
def acceptanceCriteriaResponse (u : Unicode) (brief : Brief) (run : RecordedRun)
    (contract : RecordedContract) : Except ReadError (List TaskAcceptanceCriterionResponse) := do
  let recorded ← recordedCriterionResults u run contract
  acceptanceCriteriaFrom u recorded (briefCriteria brief) []

/-! ### Criteria of a brief -/

/-- A criterion as the briefing accepts it. -/
structure AcceptanceCriterion (u : Unicode) where
  criterionId : String
  requirement : String
  verification : VerificationMethod
  criterionId_ok : briefIdentifier.fullmatch (CharClass.holds u) criterionId.toList = true
  requirement_ok : 1 ≤ requirement.toList.length ∧ requirement.toList.length ≤ 2000

/-- A criterion as a brief stores it. -/
def AcceptanceCriterion.toDict {u : Unicode} (criterion : AcceptanceCriterion u) : Json :=
  .obj [("criterion_id", .str criterion.criterionId), ("requirement", .str criterion.requirement),
    ("verification", .str criterion.verification.value)]

end ControlPlane.Validation
