import ControlPlane.Configuration.Boundaries
import ControlPlane.Lib.Pages
import ControlPlane.Validation.Delivery
import Mathlib.Data.Prod.Lex
import Mathlib.Data.Finset.Basic
import Mathlib.Data.String.Basic

/-!
# Task assertion contracts

A contract binds the acceptance criteria of an accepted brief to assertions of a repository's
catalog. It is compiled from a selection of pairs, checked as a value of its own and checked once
more against the configuration and the brief; a stored contract is read back through the last two.
Together the checks leave one contract for a configuration and a brief.

## Main definitions

* `TaskAssertionContract.forConfiguration`, `TaskAssertionContract.fromDict`
* `Canonical`: the bindings a contract can have.

## Main results

* `Canonical.unique`: there is one such list of bindings.
* `assertion_contract_determined`
-/
namespace ControlPlane.Validation

open ControlPlane.Configuration (RepositoryConfigurationError OperationKind)

/-! ### Configurations and briefs -/

abbrev maxAcceptanceCriteria : ℕ := 64
abbrev maxAssertionBindings : ℕ := 256

/-- A canonical SHA-256 address. -/
def isDigest (text : String) : Bool :=
  "sha256:".toList.isPrefixOf text.toList && (text.toList.drop 7).length = 64 &&
    (text.toList.drop 7).all isLowerHex

/-- Whether an assertion is universal safety or approved task evidence. -/
inductive AssertionRole where
  | flowBaseline | taskSelectable
  deriving DecidableEq, Repr

structure AssertionCatalogEntry (u : Unicode) where
  assertionId : String
  kind : AssertionKind
  role : AssertionRole
  catalogKey : String
  assertionId_ok : isIdentifier u assertionId = true
  catalogKey_ok : isIdentifier u catalogKey = true

/-- What a contract copies of the end-to-end flow. -/
structure E2EFlow (u : Unicode) where
  flowId : String
  version : ℤ
  fixtureId : String
  fixtureVersion : ℤ
  fixtureDigest : String
  requiredAssertionIds : List String
  flowId_ok : isIdentifier u flowId = true
  version_pos : 0 < version
  fixtureId_ok : isIdentifier u fixtureId = true
  fixtureVersion_pos : 0 < fixtureVersion
  fixtureDigest_ok : isDigest fixtureDigest = true
  required_bounds : requiredAssertionIds ≠ [] ∧ requiredAssertionIds.length ≤ 256
  required_ok : ∀ id ∈ requiredAssertionIds, isIdentifier u id = true
  required_nodup : requiredAssertionIds.Nodup

structure TestOperation (u : Unicode) where
  kind : OperationKind
  e2eFlow : Option (E2EFlow u)
  flow_iff : kind = .simulatorE2e ↔ e2eFlow.isSome = true

/-- The part of a repository configuration that contracts are compiled against. -/
structure RepositoryConfiguration (u : Unicode) where
  configurationId : UUID
  version : ℤ
  digest : String
  operations : List (TestOperation u)
  assertionCatalog : List (AssertionCatalogEntry u)
  version_pos : 0 < version
  digest_ok : isDigest digest = true
  operations_perm : (operations.map TestOperation.kind).Perm
    [.build, .unitTest, .integrationTest, .simulatorE2e]
  assertionIds_nodup : (assertionCatalog.map (·.assertionId)).Nodup

/-- The assertions approved for one criterion. -/
structure CriterionAssertionRequirement (u : Unicode) where
  acceptanceCriterionId : String
  requiredAssertionIds : List String
  criterionId_ok : isIdentifier u acceptanceCriterionId = true
  required_bounds : requiredAssertionIds ≠ [] ∧
    requiredAssertionIds.length ≤ maxAssertionBindings
  required_ok : ∀ id ∈ requiredAssertionIds, isIdentifier u id = true
  required_nodup : requiredAssertionIds.Nodup

/-- The accepted projection of a brief. -/
structure AcceptedBriefAssertionSource (u : Unicode) where
  taskId : UUID
  briefId : UUID
  approvalDecisionId : UUID
  briefVersion : ℤ
  briefDigest : String
  assertionRequirements : List (CriterionAssertionRequirement u)
  briefVersion_pos : 0 < briefVersion
  briefDigest_ok : isDigest briefDigest = true
  requirements_bounds : assertionRequirements ≠ [] ∧
    assertionRequirements.length ≤ maxAcceptanceCriteria
  criteria_nodup : (assertionRequirements.map (·.acceptanceCriterionId)).Nodup

def AcceptedBriefAssertionSource.acceptanceCriterionIds {u : Unicode}
    (brief : AcceptedBriefAssertionSource u) : List String :=
  brief.assertionRequirements.map (·.acceptanceCriterionId)

/-- The brief requires an assertion for a criterion. -/
def AcceptedBriefAssertionSource.Requires {u : Unicode} (brief : AcceptedBriefAssertionSource u)
    (pair : String × String) : Prop :=
  ∃ r ∈ brief.assertionRequirements, r.acceptanceCriterionId = pair.1 ∧
    pair.2 ∈ r.requiredAssertionIds

/-! ### Contracts -/

/-- The raised error names what is wrong. -/
def refuseUnless (p : Prop) [Decidable p] (message : String) :
    Except RepositoryConfigurationError Unit :=
  Except.require p ⟨message⟩

/-- One catalog assertion selected for one acceptance criterion. -/
structure CriterionAssertionBinding where
  acceptanceCriterionId : String
  assertionId : String
  kind : AssertionKind
  verifierCatalogKey : String
  deriving DecidableEq

namespace CriterionAssertionBinding

def pair (b : CriterionAssertionBinding) : String × String :=
  (b.acceptanceCriterionId, b.assertionId)

/-- The canonical order of bindings. -/
def sortKey (b : CriterionAssertionBinding) : String ×ₗ String := toLex b.pair

def postInit (u : Unicode) (b : CriterionAssertionBinding) :
    Except RepositoryConfigurationError Unit := do
  refuseUnless (isIdentifier u b.acceptanceCriterionId = true)
    "acceptance criterion id must be a bounded catalog identifier"
  refuseUnless (isIdentifier u b.assertionId = true)
    "assertion id must be a bounded catalog identifier"
  refuseUnless (isIdentifier u b.verifierCatalogKey = true)
    "verifier catalog key must be a bounded catalog identifier"

end CriterionAssertionBinding

/-- Exact task-to-flow assertion binding. -/
structure TaskAssertionContract where
  schemaVersion : ℤ
  configurationId : UUID
  configurationVersion : ℤ
  configurationDigest : String
  taskId : UUID
  briefId : UUID
  approvalDecisionId : UUID
  briefVersion : ℤ
  briefDigest : String
  flowId : String
  flowVersion : ℤ
  fixtureId : String
  fixtureVersion : ℤ
  fixtureDigest : String
  requiredAssertionIds : List String
  acceptanceCriterionIds : List String
  bindings : List CriterionAssertionBinding
  deriving DecidableEq

def uniqueIdentifiers (u : Unicode) (values : List String) (field : String) :
    Except RepositoryConfigurationError Unit := do
  refuseUnless (∀ value ∈ values, isIdentifier u value = true)
    (field ++ " must be a bounded catalog identifier")
  refuseUnless values.Nodup (field ++ " must be unique")

def positiveInteger (value : ℤ) (field : String) : Except RepositoryConfigurationError Unit :=
  refuseUnless (0 < value) (field ++ " must be a positive integer")

/-- The flow of a configuration. -/
def configuredFlow {u : Unicode} (configuration : RepositoryConfiguration u) :
    Except RepositoryConfigurationError (E2EFlow u) :=
  let flows := configuration.operations.filterMap fun operation =>
    if operation.kind = .simulatorE2e then operation.e2eFlow else none
  match flows with
  | [flow] => .ok flow
  | _ => .error ⟨"repository configuration must contain exactly one E2E flow"⟩

/-- The catalog entry of an assertion. -/
def catalogAssertion? {u : Unicode} (configuration : RepositoryConfiguration u)
    (assertionId : String) : Option (AssertionCatalogEntry u) :=
  configuration.assertionCatalog.find? (·.assertionId = assertionId)

/-- The pairs give every criterion of the brief, and no other, the assertions it requires. -/
def matchesRequirements {u : Unicode} (pairs : List (String × String))
    (brief : AcceptedBriefAssertionSource u) : Prop :=
  (pairs.map Prod.fst).toFinset = brief.acceptanceCriterionIds.toFinset ∧
    ∀ r ∈ brief.assertionRequirements,
      ((pairs.filter (·.1 = r.acceptanceCriterionId)).map Prod.snd).toFinset =
        r.requiredAssertionIds.toFinset

instance {u : Unicode} (pairs : List (String × String)) (brief : AcceptedBriefAssertionSource u) :
    Decidable (matchesRequirements pairs brief) := by
  unfold matchesRequirements
  infer_instance

namespace TaskAssertionContract
variable {u : Unicode}

/-- The checks of a contract as a value. -/
def postInit (u : Unicode) (c : TaskAssertionContract) :
    Except RepositoryConfigurationError Unit := do
  refuseUnless (c.schemaVersion = 1) "task assertion contract schema version is unsupported"
  positiveInteger c.configurationVersion "configuration version"
  positiveInteger c.briefVersion "brief version"
  positiveInteger c.flowVersion "E2E flow version"
  positiveInteger c.fixtureVersion "fixture version"
  refuseUnless (isDigest c.configurationDigest = true)
    "configuration digest must be a canonical SHA-256 address"
  refuseUnless (isDigest c.fixtureDigest = true)
    "fixture digest must be a canonical SHA-256 address"
  refuseUnless (isDigest c.briefDigest = true)
    "brief digest must be a canonical SHA-256 address"
  refuseUnless (isIdentifier u c.flowId = true)
    "E2E flow id must be a bounded catalog identifier"
  refuseUnless (isIdentifier u c.fixtureId = true)
    "fixture id must be a bounded catalog identifier"
  refuseUnless (c.requiredAssertionIds ≠ [] ∧
      c.requiredAssertionIds.length ≤ maxAssertionBindings)
    "task assertion contract must contain bounded baseline assertions"
  uniqueIdentifiers u c.requiredAssertionIds "required E2E assertion ids"
  refuseUnless (c.acceptanceCriterionIds ≠ [] ∧
      c.acceptanceCriterionIds.length ≤ maxAcceptanceCriteria)
    "task assertion contract must contain 1 to 64 acceptance criteria"
  uniqueIdentifiers u c.acceptanceCriterionIds "acceptance criterion ids"
  refuseUnless (c.bindings ≠ [] ∧ c.bindings.length ≤ maxAssertionBindings)
    "task assertion contract must contain 1 to 256 assertion bindings"
  refuseUnless (c.bindings.map (·.pair)).Nodup "criterion/assertion bindings must be unique"
  refuseUnless (c.bindings = Pages.orderBy CriterionAssertionBinding.sortKey c.bindings)
    "criterion/assertion bindings must use canonical identifier order"
  refuseUnless ((c.bindings.map (·.acceptanceCriterionId)).toFinset =
      c.acceptanceCriterionIds.toFinset)
    "every acceptance criterion must have a typed assertion binding"

/-- A binding repeats its catalog entry. -/
def checkBinding (configuration : RepositoryConfiguration u) (b : CriterionAssertionBinding) :
    Except RepositoryConfigurationError Unit := do
  let assertion ← Except.orThrow (catalogAssertion? configuration b.assertionId)
    ⟨"task assertion binding references an unknown catalog assertion"⟩
  refuseUnless (b.kind = assertion.kind ∧ b.verifierCatalogKey = assertion.catalogKey ∧
      assertion.role = .taskSelectable)
    "task assertion binding does not match its typed catalog entry"

/-- Fail closed unless every copied value matches one exact configuration. -/
def validateAgainst (c : TaskAssertionContract) (configuration : RepositoryConfiguration u)
    (brief : AcceptedBriefAssertionSource u) : Except RepositoryConfigurationError Unit := do
  let flow ← configuredFlow configuration
  refuseUnless (c.configurationId = configuration.configurationId ∧
      c.configurationVersion = configuration.version ∧
      c.configurationDigest = configuration.digest ∧ c.taskId = brief.taskId ∧
      c.briefId = brief.briefId ∧ c.approvalDecisionId = brief.approvalDecisionId ∧
      c.briefVersion = brief.briefVersion ∧ c.briefDigest = brief.briefDigest ∧
      c.acceptanceCriterionIds = brief.acceptanceCriterionIds ∧ c.flowId = flow.flowId ∧
      c.flowVersion = flow.version ∧ c.fixtureId = flow.fixtureId ∧
      c.fixtureVersion = flow.fixtureVersion ∧ c.fixtureDigest = flow.fixtureDigest ∧
      c.requiredAssertionIds = flow.requiredAssertionIds)
    ("task assertion contract is not bound to the exact repository configuration, flow, and " ++
      "fixture")
  c.bindings.forM (checkBinding configuration)
  refuseUnless (c.bindings ≠ [])
    "task assertion contract must select typed criterion assertions"
  refuseUnless (matchesRequirements (c.bindings.map (·.pair)) brief)
    "task assertion bindings do not match the accepted brief's criterion requirements"

/-- The binding of a selected pair. -/
def bindSelection (configuration : RepositoryConfiguration u) (selection : String × String) :
    Except RepositoryConfigurationError CriterionAssertionBinding := do
  let assertion ← Except.orThrow (catalogAssertion? configuration selection.2)
    ⟨"task selected an assertion outside the configured catalog"⟩
  refuseUnless (assertion.role = .taskSelectable)
    "task criteria may select only task-selectable assertions"
  let b : CriterionAssertionBinding := {
    acceptanceCriterionId := selection.1
    assertionId := assertion.assertionId
    kind := assertion.kind
    verifierCatalogKey := assertion.catalogKey }
  b.postInit u
  return b

/-- The contract of a configuration and a brief with some bindings. -/
def bound (configuration : RepositoryConfiguration u) (brief : AcceptedBriefAssertionSource u)
    (flow : E2EFlow u) (bindings : List CriterionAssertionBinding) : TaskAssertionContract where
  schemaVersion := 1
  configurationId := configuration.configurationId
  configurationVersion := configuration.version
  configurationDigest := configuration.digest
  taskId := brief.taskId
  briefId := brief.briefId
  approvalDecisionId := brief.approvalDecisionId
  briefVersion := brief.briefVersion
  briefDigest := brief.briefDigest
  flowId := flow.flowId
  flowVersion := flow.version
  fixtureId := flow.fixtureId
  fixtureVersion := flow.fixtureVersion
  fixtureDigest := flow.fixtureDigest
  requiredAssertionIds := flow.requiredAssertionIds
  acceptanceCriterionIds := brief.acceptanceCriterionIds
  bindings := bindings

/-- Compile a selection into typed bindings of the catalog. -/
def forConfiguration (configuration : RepositoryConfiguration u)
    (brief : AcceptedBriefAssertionSource u) (selections : List (String × String)) :
    Except RepositoryConfigurationError TaskAssertionContract := do
  let bindings ← selections.mapM (bindSelection configuration)
  refuseUnless (matchesRequirements selections brief)
    ("task assertion selections must exactly match the accepted brief's criterion " ++
      "requirements")
  let flow ← configuredFlow configuration
  let contract := bound configuration brief flow
    (Pages.orderBy CriterionAssertionBinding.sortKey bindings)
  contract.postInit u
  contract.validateAgainst configuration brief
  return contract

end TaskAssertionContract

/-! ### The stored form -/

def readString (value : Json) (field : String) : Except RepositoryConfigurationError String :=
  Except.orThrow value.str? ⟨field ++ " must be text"⟩

def readSequence (value : Json) (field : String) :
    Except RepositoryConfigurationError (List Json) :=
  Except.orThrow value.arr? ⟨field ++ " must be an array"⟩

def readStrings (value : Json) (field : String) :
    Except RepositoryConfigurationError (List String) := do
  let items ← readSequence value field
  items.mapM fun item => readString item field

def readInteger (value : Json) (field : String) : Except RepositoryConfigurationError ℤ :=
  Except.orThrow value.int? ⟨field ++ " must be an integer"⟩

def readUuid (u : Unicode) (value : Json) (field : String) :
    Except RepositoryConfigurationError UUID := do
  let text ← readString value field
  Except.orThrow (UUID.parse u text) ⟨"configuration, task, and brief ids must be UUIDs"⟩

def exactMapping (value : Json) (keys : List String) (field : String) :
    Except RepositoryConfigurationError Unit := do
  refuseUnless (value.obj?.isSome = true) (field ++ " must be an object")
  refuseUnless (value.hasKeys keys = true) (field ++ " has missing or unknown fields")

def readAssertionKind (value : Json) : Except RepositoryConfigurationError AssertionKind := do
  let text ← Except.orThrow value.str? ⟨"assertion kind must be text"⟩
  Except.orThrow (AssertionKind.ofValue? text) ⟨"assertion kind is unsupported"⟩

namespace CriterionAssertionBinding

def toDict (b : CriterionAssertionBinding) : Json :=
  .obj
    [("acceptance_criterion_id", .str b.acceptanceCriterionId),
      ("assertion_id", .str b.assertionId),
      ("kind", .str b.kind.value),
      ("verifier_catalog_key", .str b.verifierCatalogKey)]

def fromDict (u : Unicode) (value : Json) :
    Except RepositoryConfigurationError CriterionAssertionBinding := do
  exactMapping value ["acceptance_criterion_id", "assertion_id", "kind", "verifier_catalog_key"]
    "criterion assertion binding"
  let acceptanceCriterionId ← readString (value.get "acceptance_criterion_id")
    "acceptance criterion id"
  let assertionId ← readString (value.get "assertion_id") "assertion id"
  let kind ← readAssertionKind (value.get "kind")
  let verifierCatalogKey ← readString (value.get "verifier_catalog_key") "verifier catalog key"
  let b : CriterionAssertionBinding :=
    { acceptanceCriterionId, assertionId, kind, verifierCatalogKey }
  b.postInit u
  return b

end CriterionAssertionBinding

namespace TaskAssertionContract
variable {u : Unicode}

def toDict (c : TaskAssertionContract) : Json :=
  .obj
    [("schema_version", .int c.schemaVersion),
      ("configuration_id", .str c.configurationId.str),
      ("configuration_version", .int c.configurationVersion),
      ("configuration_digest", .str c.configurationDigest),
      ("task_id", .str c.taskId.str),
      ("brief_id", .str c.briefId.str),
      ("approval_decision_id", .str c.approvalDecisionId.str),
      ("brief_version", .int c.briefVersion),
      ("brief_digest", .str c.briefDigest),
      ("flow_id", .str c.flowId),
      ("flow_version", .int c.flowVersion),
      ("fixture_id", .str c.fixtureId),
      ("fixture_version", .int c.fixtureVersion),
      ("fixture_digest", .str c.fixtureDigest),
      ("required_assertion_ids", .arr (c.requiredAssertionIds.map .str)),
      ("acceptance_criterion_ids", .arr (c.acceptanceCriterionIds.map .str)),
      ("bindings", .arr (c.bindings.map (·.toDict)))]

def digest (rt : Runtime) (c : TaskAssertionContract) : String :=
  ControlPlane.digest rt (rt.dumps c.toDict)

/-- The contract a value holds, before it is checked. -/
def ofDict (u : Unicode) (value : Json) :
    Except RepositoryConfigurationError TaskAssertionContract := do
  exactMapping value
    ["schema_version", "configuration_id", "configuration_version", "configuration_digest",
      "task_id", "brief_id", "approval_decision_id", "brief_version", "brief_digest", "flow_id",
      "flow_version", "fixture_id", "fixture_version", "fixture_digest",
      "required_assertion_ids", "acceptance_criterion_ids", "bindings"]
    "task assertion contract"
  let configurationId ← readUuid u (value.get "configuration_id") "configuration id"
  let taskId ← readUuid u (value.get "task_id") "task id"
  let briefId ← readUuid u (value.get "brief_id") "brief id"
  let approvalDecisionId ← readUuid u (value.get "approval_decision_id") "approval decision id"
  let schemaVersion ← readInteger (value.get "schema_version") "schema version"
  let configurationVersion ← readInteger (value.get "configuration_version")
    "configuration version"
  let configurationDigest ← readString (value.get "configuration_digest")
    "configuration digest"
  let briefVersion ← readInteger (value.get "brief_version") "brief version"
  let briefDigest ← readString (value.get "brief_digest") "brief digest"
  let flowId ← readString (value.get "flow_id") "E2E flow id"
  let flowVersion ← readInteger (value.get "flow_version") "E2E flow version"
  let fixtureId ← readString (value.get "fixture_id") "fixture id"
  let fixtureVersion ← readInteger (value.get "fixture_version") "fixture version"
  let fixtureDigest ← readString (value.get "fixture_digest") "fixture digest"
  let requiredAssertionIds ← readStrings (value.get "required_assertion_ids")
    "required E2E assertion ids"
  let acceptanceCriterionIds ← readStrings (value.get "acceptance_criterion_ids")
    "acceptance criterion ids"
  let items ← readSequence (value.get "bindings") "assertion bindings"
  let bindings ← items.mapM (CriterionAssertionBinding.fromDict u)
  return {
    schemaVersion, configurationId, configurationVersion, configurationDigest, taskId, briefId,
    approvalDecisionId, briefVersion, briefDigest, flowId, flowVersion, fixtureId,
    fixtureVersion, fixtureDigest, requiredAssertionIds, acceptanceCriterionIds, bindings }

def fromDict (configuration : RepositoryConfiguration u)
    (brief : AcceptedBriefAssertionSource u) (value : Json) :
    Except RepositoryConfigurationError TaskAssertionContract := do
  let contract ← ofDict u value
  contract.postInit u
  contract.validateAgainst configuration brief
  return contract

end TaskAssertionContract

/-! ### What the checks say -/

section Checks
variable {u : Unicode} {configuration : RepositoryConfiguration u}
  {brief : AcceptedBriefAssertionSource u} {flow : E2EFlow u}

@[simp] theorem refuseUnless_eq_ok {p : Prop} [Decidable p] {message : String} {x : Unit} :
    refuseUnless p message = .ok x ↔ p := by
  simp [refuseUnless]

theorem mem_of_catalogAssertion? {assertionId : String} {e : AssertionCatalogEntry u}
    (h : catalogAssertion? configuration assertionId = some e) : e.assertionId = assertionId := by
  simpa using List.find?_some h

/-- A valid configuration has its one flow. -/
theorem configuredFlow_isOk (configuration : RepositoryConfiguration u) :
    ∃ flow, configuredFlow configuration = .ok flow := by
  have hkinds : ((configuration.operations.map TestOperation.kind).filter
      (· = .simulatorE2e)).Perm [.simulatorE2e] := by
    have := configuration.operations_perm.filter fun kind => decide (kind = .simulatorE2e)
    exact this
  have hone : (configuration.operations.filter fun operation =>
      operation.kind = .simulatorE2e).length = 1 := by
    have hlength := hkinds.length_eq
    rw [List.filter_map, List.length_map] at hlength
    exact hlength
  obtain ⟨operation, hoperation⟩ := List.length_eq_one_iff.mp hone
  have hmem : operation ∈ configuration.operations.filter fun operation =>
      operation.kind = .simulatorE2e := by
    rw [hoperation]
    exact List.mem_singleton_self _
  have hkind : operation.kind = .simulatorE2e := by simpa using (List.mem_filter.mp hmem).2
  obtain ⟨flow, hflow⟩ := Option.isSome_iff_exists.mp (operation.flow_iff.mp hkind)
  have hflows : (configuration.operations.filterMap fun operation =>
      if operation.kind = .simulatorE2e then operation.e2eFlow else none) = [flow] := by
    have hfilter : (configuration.operations.filterMap fun operation =>
        if operation.kind = .simulatorE2e then operation.e2eFlow else none) =
        (configuration.operations.filter fun operation =>
          operation.kind = .simulatorE2e).filterMap TestOperation.e2eFlow := by
      rw [List.filterMap_filter]
      simp only [decide_eq_true_eq]
    rw [hfilter, hoperation, List.filterMap_cons, hflow]
    rfl
  exact ⟨flow, by rw [configuredFlow, hflows]⟩

/-- Comparing criterion by criterion is comparing the pairs. -/
theorem matchesRequirements_iff {pairs : List (String × String)} :
    matchesRequirements pairs brief ↔ ∀ p, p ∈ pairs ↔ brief.Requires p := by
  constructor
  · rintro ⟨hcriteria, hassertions⟩ p
    constructor
    · intro hp
      have hcriterion : p.1 ∈ brief.acceptanceCriterionIds := by
        rw [← List.mem_toFinset, ← hcriteria, List.mem_toFinset]
        exact List.mem_map_of_mem hp
      obtain ⟨r, hr, heq⟩ := List.mem_map.mp hcriterion
      have hassertion : p.2 ∈ r.requiredAssertionIds := by
        rw [← List.mem_toFinset, ← hassertions r hr, List.mem_toFinset]
        exact List.mem_map_of_mem (List.mem_filter.mpr ⟨hp, decide_eq_true heq.symm⟩)
      exact ⟨r, hr, heq, hassertion⟩
    · rintro ⟨r, hr, heq, hassertion⟩
      rw [← List.mem_toFinset, ← hassertions r hr, List.mem_toFinset] at hassertion
      obtain ⟨q, hq, hsecond⟩ := List.mem_map.mp hassertion
      obtain ⟨hmem, hfirst⟩ := List.mem_filter.mp hq
      have hpair : q = p := Prod.ext ((of_decide_eq_true hfirst).trans heq) hsecond
      exact hpair ▸ hmem
  · intro h
    constructor
    · ext criterion
      rw [List.mem_toFinset, List.mem_toFinset]
      constructor
      · intro hmem
        obtain ⟨p, hp, rfl⟩ := List.mem_map.mp hmem
        obtain ⟨r, hr, heq, -⟩ := (h p).mp hp
        exact List.mem_map.mpr ⟨r, hr, heq⟩
      · intro hmem
        obtain ⟨r, hr, rfl⟩ := List.mem_map.mp hmem
        obtain ⟨assertion, hassertion⟩ := List.exists_mem_of_ne_nil _ r.required_bounds.1
        exact List.mem_map.mpr ⟨(r.acceptanceCriterionId, assertion),
          (h _).mpr ⟨r, hr, rfl, hassertion⟩, rfl⟩
    · intro r hr
      ext assertion
      rw [List.mem_toFinset, List.mem_toFinset]
      constructor
      · intro hmem
        obtain ⟨p, hp, rfl⟩ := List.mem_map.mp hmem
        obtain ⟨hpair, hfirst⟩ := List.mem_filter.mp hp
        obtain ⟨r', hr', heq, hassertion⟩ := (h p).mp hpair
        have hsame : r' = r :=
          List.inj_on_of_nodup_map brief.criteria_nodup hr' hr
            (heq.trans (of_decide_eq_true hfirst))
        exact hsame ▸ hassertion
      · intro hassertion
        have hpair := (h (r.acceptanceCriterionId, assertion)).mpr ⟨r, hr, rfl, hassertion⟩
        exact List.mem_map.mpr
          ⟨_, List.mem_filter.mpr ⟨hpair, decide_eq_true rfl⟩, rfl⟩

/-- A required criterion has a catalog identifier. -/
theorem isIdentifier_of_requires {p : String × String} (h : brief.Requires p) :
    isIdentifier u p.1 = true := by
  obtain ⟨r, -, heq, -⟩ := h
  exact heq ▸ r.criterionId_ok

/-- The bindings a contract can have. -/
structure Canonical (configuration : RepositoryConfiguration u)
    (brief : AcceptedBriefAssertionSource u) (bindings : List CriterionAssertionBinding) :
    Prop where
  listing : Pages.Listing CriterionAssertionBinding.sortKey bindings
  bounded : bindings.length ≤ maxAssertionBindings
  catalogued : ∀ b ∈ bindings, ∃ e, catalogAssertion? configuration b.assertionId = some e ∧
    e.role = .taskSelectable ∧ b.kind = e.kind ∧ b.verifierCatalogKey = e.catalogKey
  required : ∀ p, p ∈ bindings.map (·.pair) ↔ brief.Requires p

theorem Canonical.ne_nil {bindings : List CriterionAssertionBinding}
    (h : Canonical configuration brief bindings) : bindings ≠ [] := by
  rintro rfl
  obtain ⟨r, hr⟩ := List.exists_mem_of_ne_nil _ brief.requirements_bounds.1
  obtain ⟨assertion, hassertion⟩ := List.exists_mem_of_ne_nil _ r.required_bounds.1
  exact List.not_mem_nil ((h.required (r.acceptanceCriterionId, assertion)).mpr
    ⟨r, hr, rfl, hassertion⟩)

/-- A binding is its pair: the catalog gives the rest. -/
theorem Canonical.mem_of_mem {bs bs' : List CriterionAssertionBinding}
    (h : Canonical configuration brief bs) (h' : Canonical configuration brief bs')
    {b : CriterionAssertionBinding} (hb : b ∈ bs) : b ∈ bs' := by
  obtain ⟨b', hb', hpair⟩ :=
    List.mem_map.mp ((h'.required _).mpr ((h.required _).mp (List.mem_map_of_mem hb)))
  obtain ⟨e, he, -, hkind, hkey⟩ := h.catalogued b hb
  obtain ⟨e', he', -, hkind', hkey'⟩ := h'.catalogued b' hb'
  have hids := Prod.mk.inj hpair
  rw [hids.2, he] at he'
  obtain rfl := Option.some.inj he'
  have heq : b' = b := by
    cases b
    cases b'
    simp_all
  exact heq ▸ hb'

/-- A configuration and a brief leave one list of bindings. -/
theorem Canonical.unique {bs bs' : List CriterionAssertionBinding}
    (h : Canonical configuration brief bs) (h' : Canonical configuration brief bs') :
    bs = bs' := by
  have hnodup : ∀ {l : List CriterionAssertionBinding},
      Pages.Listing CriterionAssertionBinding.sortKey l → l.Nodup :=
    fun hl => List.Pairwise.imp (fun {a b} hlt (heq : a = b) =>
      absurd hlt (by rw [heq]; exact lt_irrefl _)) hl
  exact h.listing.eq_of_perm h'.listing
    ((List.perm_ext_iff_of_nodup (hnodup h.listing) (hnodup h'.listing)).mpr
      fun _ => ⟨h.mem_of_mem h', h'.mem_of_mem h⟩)

theorem nodup_sortKey {bs : List CriterionAssertionBinding} (h : (bs.map (·.pair)).Nodup) :
    (bs.map CriterionAssertionBinding.sortKey).Nodup := by
  have := h.map (f := toLex) toLex.injective
  rwa [List.map_map] at this

/-- Distinct pairs in canonical order. -/
theorem listing_iff {bs : List CriterionAssertionBinding} :
    Pages.Listing CriterionAssertionBinding.sortKey bs ↔ (bs.map (·.pair)).Nodup ∧
      bs = Pages.orderBy CriterionAssertionBinding.sortKey bs := by
  constructor
  · intro h
    have hnodup : (bs.map (·.pair)).Nodup :=
      List.pairwise_map.mpr (h.imp fun {b b'} hlt heq =>
        absurd hlt (by simp [CriterionAssertionBinding.sortKey, heq]))
    exact ⟨hnodup, h.eq_of_perm (Pages.listing_orderBy (nodup_sortKey hnodup))
      (Pages.perm_orderBy bs).symm⟩
  · rintro ⟨hnodup, hsorted⟩
    rw [hsorted]
    exact Pages.listing_orderBy (nodup_sortKey hnodup)

namespace TaskAssertionContract

theorem checkBinding_ok {b : CriterionAssertionBinding} {x : Unit} :
    checkBinding configuration b = .ok x ↔
      ∃ e, catalogAssertion? configuration b.assertionId = some e ∧ e.role = .taskSelectable ∧
        b.kind = e.kind ∧ b.verifierCatalogKey = e.catalogKey := by
  simp only [checkBinding, Except.bind_eq_ok, Except.orThrow_eq_ok, refuseUnless_eq_ok]
  exact exists_congr fun e => and_congr_right fun _ =>
    ⟨fun h => ⟨h.2.2, h.1, h.2.1⟩, fun h => ⟨h.2.1, h.2.2, h.1⟩⟩

/-- A contract that copies the configuration, the brief and the flow is a contract of theirs when
its bindings are in canonical order and within bounds. -/
theorem postInit_bound {bindings : List CriterionAssertionBinding} {x : Unit} :
    (bound configuration brief flow bindings).postInit u = .ok x ↔
      (bindings ≠ [] ∧ bindings.length ≤ maxAssertionBindings) ∧
        Pages.Listing CriterionAssertionBinding.sortKey bindings ∧
        (bindings.map (·.acceptanceCriterionId)).toFinset =
          brief.acceptanceCriterionIds.toFinset := by
  have hcriteria : ∀ id ∈ brief.acceptanceCriterionIds, isIdentifier u id = true := by
    intro id hid
    obtain ⟨r, -, rfl⟩ := List.mem_map.mp hid
    exact r.criterionId_ok
  have hbounds : brief.acceptanceCriterionIds ≠ [] ∧
      brief.acceptanceCriterionIds.length ≤ maxAcceptanceCriteria := by
    rw [AcceptedBriefAssertionSource.acceptanceCriterionIds, List.length_map, ne_eq,
      List.map_eq_nil_iff]
    exact brief.requirements_bounds
  simp only [postInit, positiveInteger, uniqueIdentifiers, Except.bind_eq_ok,
    refuseUnless_eq_ok, exists_const]
  simp only [bound, configuration.version_pos, brief.briefVersion_pos, flow.version_pos,
    flow.fixtureVersion_pos, configuration.digest_ok, flow.fixtureDigest_ok,
    brief.briefDigest_ok, flow.flowId_ok, flow.fixtureId_ok, true_and, listing_iff, and_assoc]
  constructor
  · rintro ⟨-, -, -, -, -, -, -, -, h⟩
    exact h
  · intro h
    exact ⟨flow.required_bounds.1, flow.required_bounds.2, flow.required_ok,
      flow.required_nodup, hbounds.1, hbounds.2, hcriteria, brief.criteria_nodup, h⟩

/-- The two checks leave a contract of the configuration and the brief, with canonical
bindings. -/
theorem accepted_iff {c : TaskAssertionContract} (hflow : configuredFlow configuration = .ok flow) :
    (c.postInit u = .ok () ∧ c.validateAgainst configuration brief = .ok ()) ↔
      c = bound configuration brief flow c.bindings ∧
        Canonical configuration brief c.bindings := by
  constructor
  · rintro ⟨hinit, hvalid⟩
    simp only [validateAgainst, hflow, Except.bind_eq_ok, refuseUnless_eq_ok, Except.forM_eq_ok,
      Except.ok.injEq, exists_eq_left', exists_const, checkBinding_ok,
      matchesRequirements_iff] at hvalid
    obtain ⟨hcopied, hcatalogued, -, hrequired⟩ := hvalid
    have hschema : c.schemaVersion = 1 := by
      simp only [postInit, Except.bind_eq_ok, refuseUnless_eq_ok, exists_const] at hinit
      exact hinit.1
    have hbound : c = bound configuration brief flow c.bindings := by
      cases c
      simp_all [bound]
    rw [hbound, postInit_bound] at hinit
    exact ⟨hbound, hinit.2.1, hinit.1.2, hcatalogued, hrequired⟩
  · rintro ⟨hbound, hcanonical⟩
    have hcriteria : (c.bindings.map (·.acceptanceCriterionId)).toFinset =
        brief.acceptanceCriterionIds.toFinset := by
      have := (matchesRequirements_iff.mpr hcanonical.required).1
      rwa [List.map_map] at this
    rw [hbound]
    refine ⟨postInit_bound.mpr ⟨⟨hcanonical.ne_nil, hcanonical.bounded⟩, hcanonical.listing,
      hcriteria⟩, ?_⟩
    simp only [validateAgainst, hflow, Except.bind_eq_ok, refuseUnless_eq_ok, Except.forM_eq_ok,
      Except.ok.injEq, exists_eq_left', exists_const, checkBinding_ok, matchesRequirements_iff]
    exact ⟨by simp [bound], hcanonical.catalogued, hcanonical.ne_nil, hcanonical.required⟩

/-! ### Compiling a selection -/

theorem bindSelection_ok {p : String × String} {b : CriterionAssertionBinding} :
    bindSelection configuration p = .ok b ↔
      isIdentifier u p.1 = true ∧ b.pair = p ∧
      ∃ e, catalogAssertion? configuration p.2 = some e ∧ e.role = .taskSelectable ∧
        b.kind = e.kind ∧ b.verifierCatalogKey = e.catalogKey := by
  simp only [bindSelection, CriterionAssertionBinding.postInit, Except.bind_eq_ok,
    Except.orThrow_eq_ok, refuseUnless_eq_ok, exists_const, Except.pure_eq_ok]
  constructor
  · rintro ⟨e, he, hrole, ⟨hcriterion, -, -⟩, rfl⟩
    exact ⟨hcriterion, Prod.ext rfl (mem_of_catalogAssertion? he), e, he, hrole, rfl, rfl⟩
  · rintro ⟨hcriterion, hpair, e, he, hrole, hkind, hkey⟩
    refine ⟨e, he, hrole, ⟨hcriterion, e.assertionId_ok, e.catalogKey_ok⟩, ?_⟩
    have hid := mem_of_catalogAssertion? he
    cases b
    subst hpair
    simp_all [CriterionAssertionBinding.pair]

end TaskAssertionContract

/-- The selection is, in some order and without repetition, what the brief requires; the catalog
lets a task select it and it keeps the bound of a contract. -/
structure Selects (configuration : RepositoryConfiguration u)
    (brief : AcceptedBriefAssertionSource u) (selections : List (String × String)) : Prop where
  nodup : selections.Nodup
  required : ∀ p, p ∈ selections ↔ brief.Requires p
  selectable : ∀ p ∈ selections, ∃ e, catalogAssertion? configuration p.2 = some e ∧
    e.role = .taskSelectable
  bounded : selections.length ≤ maxAssertionBindings

theorem Canonical.selects {bindings : List CriterionAssertionBinding}
    (h : Canonical configuration brief bindings) :
    Selects configuration brief (bindings.map (·.pair)) where
  nodup := (listing_iff.mp h.listing).1
  required := h.required
  selectable := by
    intro p hp
    obtain ⟨b, hb, rfl⟩ := List.mem_map.mp hp
    obtain ⟨e, he, hrole, -⟩ := h.catalogued b hb
    exact ⟨e, he, hrole⟩
  bounded := by
    rw [List.length_map]
    exact h.bounded

namespace TaskAssertionContract

/-- The bindings of selected pairs have these pairs. -/
theorem map_pair_of_bindSelection {selections : List (String × String)}
    {bindings : List CriterionAssertionBinding}
    (h : List.Forall₂ (fun p b => bindSelection configuration p = .ok b) selections bindings) :
    bindings.map (·.pair) = selections := by
  induction h with
  | nil => rfl
  | cons hb _ ih => rw [List.map_cons, ih, (bindSelection_ok.mp hb).2.1]

/-- A compiled contract has canonical bindings, in the selected pairs. -/
theorem of_forConfiguration (hflow : configuredFlow configuration = .ok flow)
    {selections : List (String × String)} {c : TaskAssertionContract}
    (h : forConfiguration configuration brief selections = .ok c) :
    Selects configuration brief selections ∧ c = bound configuration brief flow c.bindings ∧
      Canonical configuration brief c.bindings := by
  simp only [forConfiguration, hflow, Except.bind_eq_ok, refuseUnless_eq_ok, Except.ok.injEq,
    exists_eq_left', Except.mapM_eq_ok, exists_const, Except.pure_eq_ok] at h
  obtain ⟨bindings, hbindings, -, _, hinit, _, hvalid, rfl⟩ := h
  obtain ⟨hbound, hcanonical⟩ := (accepted_iff hflow).mp ⟨hinit, hvalid⟩
  refine ⟨?_, hbound, hcanonical⟩
  have hselects := hcanonical.selects
  have hperm : ((Pages.orderBy CriterionAssertionBinding.sortKey bindings).map (·.pair)).Perm
      selections := by
    rw [← map_pair_of_bindSelection hbindings]
    exact (Pages.perm_orderBy bindings).map _
  exact ⟨hperm.nodup_iff.mp hselects.nodup,
    fun p => hperm.mem_iff.symm.trans (hselects.required p),
    fun p hp => hselects.selectable p (hperm.mem_iff.mpr hp),
    hperm.length_eq ▸ hselects.bounded⟩

/-- Every such selection compiles. -/
theorem forConfiguration_of_selects (hflow : configuredFlow configuration = .ok flow)
    {selections : List (String × String)} (h : Selects configuration brief selections) :
    ∃ c, forConfiguration configuration brief selections = .ok c := by
  have hbind : ∀ p ∈ selections, ∃ b, bindSelection configuration p = .ok b := by
    intro p hp
    obtain ⟨e, he, hrole⟩ := h.selectable p hp
    exact ⟨⟨p.1, p.2, e.kind, e.catalogKey⟩,
      bindSelection_ok.mpr ⟨isIdentifier_of_requires ((h.required p).mp hp), rfl,
        e, he, hrole, rfl, rfl⟩⟩
  obtain ⟨bindings, hmap⟩ := Except.mapM_eq_ok_of hbind
  have hbindings := Except.mapM_eq_ok.mp hmap
  have hpairs := map_pair_of_bindSelection hbindings
  have hperm : (Pages.orderBy CriterionAssertionBinding.sortKey bindings).Perm bindings :=
    Pages.perm_orderBy bindings
  have hcanonical : Canonical configuration brief
      (Pages.orderBy CriterionAssertionBinding.sortKey bindings) := by
    refine ⟨Pages.listing_orderBy (nodup_sortKey (hpairs ▸ h.nodup)), ?_, ?_, ?_⟩
    · rw [hperm.length_eq, ← List.length_map, hpairs]
      exact h.bounded
    · intro b hb
      obtain ⟨p, -, hok⟩ := Pages.exists_of_mem_right hbindings (hperm.mem_iff.mp hb)
      obtain ⟨-, rfl, hentry⟩ := bindSelection_ok.mp hok
      exact hentry
    · intro p
      rw [(hperm.map _).mem_iff, hpairs]
      exact h.required p
  obtain ⟨hinit, hvalid⟩ := (accepted_iff (c := bound configuration brief flow
    (Pages.orderBy CriterionAssertionBinding.sortKey bindings)) hflow).mpr ⟨rfl, hcanonical⟩
  refine ⟨bound configuration brief flow
    (Pages.orderBy CriterionAssertionBinding.sortKey bindings), ?_⟩
  simp only [forConfiguration, hflow, Except.bind_eq_ok, refuseUnless_eq_ok, Except.ok.injEq,
    exists_eq_left', exists_const, Except.pure_eq_ok]
  exact ⟨bindings, hmap, matchesRequirements_iff.mpr h.required, (), hinit, (), hvalid, rfl⟩

/-! ### Reading a stored contract -/

theorem of_fromDict (hflow : configuredFlow configuration = .ok flow) {value : Json}
    {c : TaskAssertionContract} (h : fromDict configuration brief value = .ok c) :
    c = bound configuration brief flow c.bindings ∧
      Canonical configuration brief c.bindings := by
  simp only [fromDict, Except.bind_eq_ok, Except.pure_eq_ok] at h
  obtain ⟨c', -, _, hinit, _, hvalid, rfl⟩ := h
  exact (accepted_iff hflow).mp ⟨hinit, hvalid⟩

end TaskAssertionContract

theorem readString_str (text field : String) : readString (.str text) field = .ok text := rfl

theorem readInteger_int (n : ℤ) (field : String) : readInteger (.int n) field = .ok n := rfl

theorem readUuid_str (u : Unicode) (id : UUID) (field : String) :
    readUuid u (.str id.str) field = .ok id := by
  simp [readUuid, readString_str, UUID.parse_str, Except.orThrow, bind, Except.bind]

theorem readStrings_arr (texts : List String) (field : String) :
    readStrings (.arr (texts.map .str)) field = .ok texts := by
  have hall : List.Forall₂ (fun item text => readString item field = .ok text)
      (texts.map Json.str) texts := by
    rw [List.forall₂_map_left_iff, List.forall₂_same]
    exact fun text _ => rfl
  simp only [readStrings, readSequence, Json.arr?, Except.orThrow, Except.bind_eq_ok,
    Except.ok.injEq, exists_eq_left']
  exact Except.mapM_eq_ok.mpr hall

theorem readAssertionKind_str (kind : AssertionKind) :
    readAssertionKind (.str kind.value) = .ok kind := by
  simp [readAssertionKind, Json.str?, Except.orThrow, AssertionKind.ofValue?_value, bind,
    Except.bind]

/-- A binding with catalog identifiers is read back. -/
theorem CriterionAssertionBinding.fromDict_toDict {b : CriterionAssertionBinding}
    (h : b.postInit u = .ok ()) : CriterionAssertionBinding.fromDict u b.toDict = .ok b := by
  have hmapping : exactMapping b.toDict
      ["acceptance_criterion_id", "assertion_id", "kind", "verifier_catalog_key"]
      "criterion assertion binding" = .ok () := rfl
  have hcriterion : b.toDict.get "acceptance_criterion_id" = .str b.acceptanceCriterionId := rfl
  have hassertion : b.toDict.get "assertion_id" = .str b.assertionId := rfl
  have hkind : b.toDict.get "kind" = .str b.kind.value := rfl
  have hkey : b.toDict.get "verifier_catalog_key" = .str b.verifierCatalogKey := rfl
  simp only [CriterionAssertionBinding.fromDict, hmapping, hcriterion, hassertion, hkind, hkey,
    readString_str, readAssertionKind_str, h, bind, Except.bind, pure, Except.pure]

namespace TaskAssertionContract

theorem ofDict_toDict {c : TaskAssertionContract}
    (h : ∀ b ∈ c.bindings, b.postInit u = .ok ()) : ofDict u c.toDict = .ok c := by
  have hall : List.Forall₂ (fun value b => CriterionAssertionBinding.fromDict u value = .ok b)
      (c.bindings.map CriterionAssertionBinding.toDict) c.bindings := by
    rw [List.forall₂_map_left_iff, List.forall₂_same]
    exact fun b hb => CriterionAssertionBinding.fromDict_toDict (h b hb)
  have hbindings : (c.bindings.map CriterionAssertionBinding.toDict).mapM
      (CriterionAssertionBinding.fromDict u) = .ok c.bindings := Except.mapM_eq_ok.mpr hall
  have hmapping : exactMapping c.toDict
      ["schema_version", "configuration_id", "configuration_version", "configuration_digest",
        "task_id", "brief_id", "approval_decision_id", "brief_version", "brief_digest", "flow_id",
        "flow_version", "fixture_id", "fixture_version", "fixture_digest",
        "required_assertion_ids", "acceptance_criterion_ids", "bindings"]
      "task assertion contract" = .ok () := rfl
  have hschema : c.toDict.get "schema_version" = .int c.schemaVersion := rfl
  have hconfiguration : c.toDict.get "configuration_id" = .str c.configurationId.str := rfl
  have hversion : c.toDict.get "configuration_version" = .int c.configurationVersion := rfl
  have hdigest : c.toDict.get "configuration_digest" = .str c.configurationDigest := rfl
  have htask : c.toDict.get "task_id" = .str c.taskId.str := rfl
  have hbrief : c.toDict.get "brief_id" = .str c.briefId.str := rfl
  have hdecision : c.toDict.get "approval_decision_id" = .str c.approvalDecisionId.str := rfl
  have hbriefVersion : c.toDict.get "brief_version" = .int c.briefVersion := rfl
  have hbriefDigest : c.toDict.get "brief_digest" = .str c.briefDigest := rfl
  have hflow : c.toDict.get "flow_id" = .str c.flowId := rfl
  have hflowVersion : c.toDict.get "flow_version" = .int c.flowVersion := rfl
  have hfixture : c.toDict.get "fixture_id" = .str c.fixtureId := rfl
  have hfixtureVersion : c.toDict.get "fixture_version" = .int c.fixtureVersion := rfl
  have hfixtureDigest : c.toDict.get "fixture_digest" = .str c.fixtureDigest := rfl
  have hrequired : c.toDict.get "required_assertion_ids" =
      .arr (c.requiredAssertionIds.map .str) := rfl
  have hcriteria : c.toDict.get "acceptance_criterion_ids" =
      .arr (c.acceptanceCriterionIds.map .str) := rfl
  have hitems : c.toDict.get "bindings" = .arr (c.bindings.map (·.toDict)) := rfl
  simp only [ofDict, hmapping, hschema, hconfiguration, hversion, hdigest, htask, hbrief,
    hdecision, hbriefVersion, hbriefDigest, hflow, hflowVersion, hfixture, hfixtureVersion,
    hfixtureDigest, hrequired, hcriteria, hitems, readUuid_str, readInteger_int, readString_str,
    readStrings_arr, readSequence, Json.arr?, Except.orThrow, hbindings, bind, Except.bind,
    pure, Except.pure]

/-- A contract of the configuration and the brief is read back from its stored form. -/
theorem fromDict_toDict (hflow : configuredFlow configuration = .ok flow)
    {c : TaskAssertionContract} (hbound : c = bound configuration brief flow c.bindings)
    (hcanonical : Canonical configuration brief c.bindings) :
    fromDict configuration brief c.toDict = .ok c := by
  have hbindings : ∀ b ∈ c.bindings, b.postInit u = .ok () := by
    intro b hb
    obtain ⟨e, he, -, -, hkey⟩ := hcanonical.catalogued b hb
    have hcriterion := isIdentifier_of_requires
      ((hcanonical.required b.pair).mp (List.mem_map_of_mem hb))
    simp only [CriterionAssertionBinding.postInit, Except.bind_eq_ok, refuseUnless_eq_ok,
      exists_const]
    exact ⟨hcriterion, mem_of_catalogAssertion? he ▸ e.assertionId_ok, hkey ▸ e.catalogKey_ok⟩
  obtain ⟨hinit, hvalid⟩ := (accepted_iff hflow).mpr ⟨hbound, hcanonical⟩
  simp only [fromDict, ofDict_toDict hbindings, hinit, hvalid, bind, Except.bind, pure,
    Except.pure]

end TaskAssertionContract

open TaskAssertionContract in
/-- A selection compiles exactly when it is what the brief requires, in whatever order, and all
selections that compile give one contract. It is the only contract a stored value is accepted as,
and its own stored form is. -/
theorem assertion_contract_determined (u : Unicode) (rt : Runtime)
    (configuration : RepositoryConfiguration u) (brief : AcceptedBriefAssertionSource u) :
    (∀ selections, (∃ c, forConfiguration configuration brief selections = .ok c) ↔
      Selects configuration brief selections) ∧
    (∀ selections selections' c, forConfiguration configuration brief selections = .ok c →
      selections'.Perm selections →
        forConfiguration configuration brief selections' = .ok c) ∧
    (∀ value c, fromDict configuration brief value = .ok c →
      ∃ selections, forConfiguration configuration brief selections = .ok c) ∧
    (∀ value selections c c', forConfiguration configuration brief selections = .ok c →
      fromDict configuration brief value = .ok c' → c' = c) ∧
    (∀ selections c, forConfiguration configuration brief selections = .ok c →
      ∃ c', fromDict configuration brief c.toDict = .ok c' ∧ c' = c ∧
        c'.digest rt = c.digest rt) := by
  obtain ⟨flow, hflow⟩ := configuredFlow_isOk configuration
  have hunique : ∀ {c c' : TaskAssertionContract},
      c = bound configuration brief flow c.bindings →
      Canonical configuration brief c.bindings →
      c' = bound configuration brief flow c'.bindings →
      Canonical configuration brief c'.bindings → c = c' := by
    intro c c' hc hcanonical hc' hcanonical'
    rw [hc, hc', hcanonical.unique hcanonical']
  have hcompiled : ∀ {selections c}, Selects configuration brief selections →
      c = bound configuration brief flow c.bindings →
      Canonical configuration brief c.bindings →
      forConfiguration configuration brief selections = .ok c := by
    intro selections c hselects hc hcanonical
    obtain ⟨c', hok⟩ := forConfiguration_of_selects hflow hselects
    obtain ⟨-, hc', hcanonical'⟩ := of_forConfiguration hflow hok
    rw [hok, hunique hc' hcanonical' hc hcanonical]
  refine ⟨?_, ?_, ?_, ?_, ?_⟩
  · intro selections
    constructor
    · rintro ⟨c, hok⟩
      exact (of_forConfiguration hflow hok).1
    · exact forConfiguration_of_selects hflow
  · intro selections selections' c hok hperm
    obtain ⟨hselects, hc, hcanonical⟩ := of_forConfiguration hflow hok
    have hselects' : Selects configuration brief selections' :=
      ⟨hperm.nodup_iff.mpr hselects.nodup,
        fun p => hperm.mem_iff.trans (hselects.required p),
        fun p hp => hselects.selectable p (hperm.mem_iff.mp hp),
        hperm.length_eq ▸ hselects.bounded⟩
    exact hcompiled hselects' hc hcanonical
  · intro value c hread
    obtain ⟨hc, hcanonical⟩ := of_fromDict hflow hread
    exact ⟨_, hcompiled hcanonical.selects hc hcanonical⟩
  · intro value selections c c' hok hread
    obtain ⟨-, hc, hcanonical⟩ := of_forConfiguration hflow hok
    obtain ⟨hc', hcanonical'⟩ := of_fromDict hflow hread
    exact hunique hc' hcanonical' hc hcanonical
  · intro selections c hok
    obtain ⟨-, hc, hcanonical⟩ := of_forConfiguration hflow hok
    exact ⟨c, fromDict_toDict hflow hc hcanonical, rfl, rfl⟩

end Checks

/-! ### One configuration and one brief -/

section Titled

def titledDigest : String := "sha256:" ++ String.ofList (List.replicate 64 '0')

theorem titledDigest_ok : isDigest titledDigest = true := by
  simp only [titledDigest, isDigest, String.toList_append, String.toList_ofList]
  decide

def titledFlow : E2EFlow .ascii where
  flowId := "launch"
  version := 1
  fixtureId := "account"
  fixtureVersion := 2
  fixtureDigest := titledDigest
  requiredAssertionIds := ["no-crash"]
  flowId_ok := by decide
  version_pos := by decide
  fixtureId_ok := by decide
  fixtureVersion_pos := by decide
  fixtureDigest_ok := titledDigest_ok
  required_bounds := by decide
  required_ok := by decide
  required_nodup := by decide

def titleEntry : AssertionCatalogEntry .ascii where
  assertionId := "title"
  kind := .elementValuePresent
  role := .taskSelectable
  catalogKey := "catalog/title"
  assertionId_ok := by decide
  catalogKey_ok := by decide

def titledConfiguration : RepositoryConfiguration .ascii where
  configurationId := .ofNat 1
  version := 1
  digest := titledDigest
  operations :=
    [⟨.build, none, by decide⟩, ⟨.unitTest, none, by decide⟩,
      ⟨.integrationTest, none, by decide⟩, ⟨.simulatorE2e, some titledFlow, by decide⟩]
  assertionCatalog := [titleEntry]
  version_pos := by decide
  digest_ok := titledDigest_ok
  operations_perm := .refl _
  assertionIds_nodup := by decide

def titledBrief : AcceptedBriefAssertionSource .ascii where
  taskId := .ofNat 2
  briefId := .ofNat 3
  approvalDecisionId := .ofNat 4
  briefVersion := 1
  briefDigest := titledDigest
  assertionRequirements := [⟨"AC-1", ["title"], by decide, by decide, by decide, by decide⟩]
  briefVersion_pos := by decide
  briefDigest_ok := titledDigest_ok
  requirements_bounds := by simp
  criteria_nodup := by simp

/-- The one pair that is required compiles. -/
theorem titled_selection_compiles :
    ∃ c, TaskAssertionContract.forConfiguration titledConfiguration titledBrief
      [("AC-1", "title")] = .ok c := by
  refine ((assertion_contract_determined .ascii .plain titledConfiguration titledBrief).1 _).mpr
    ⟨by decide, ?_, ?_, by decide⟩
  · intro p
    simp [AcceptedBriefAssertionSource.Requires, titledBrief, Prod.ext_iff, eq_comm]
  · intro p hp
    rw [List.mem_singleton.mp hp]
    exact ⟨titleEntry, rfl, rfl⟩

end Titled

end ControlPlane.Validation
