import ControlPlane.Approvals.Promotion
import ControlPlane.Authentication.Sessions
import ControlPlane.Lib.Placement

/-!
# Policy versions

A policy is a list of immutable versions: thresholds, review rules and prompts. A version is
the active one from its approval until a later version is approved. A rule or a prompt is
promoted, and a policy is rolled back, by a new version; each comes with the record of its
activation, and a request that was carried out before is answered again.

## Main definitions

* `PolicyStore`: the rows.
* `rollback`, `promoteReviewRule`, `promote`: the three ways to a new version.
* `createCandidate`: a prompt that may be promoted.
-/
namespace ControlPlane.Policies

/-! ### Rows -/

inductive PolicyActivationKind where
  | promptPromotion | rulePromotion | rollback
  deriving DecidableEq

def PolicyActivationKind.value : PolicyActivationKind → String
  | promptPromotion => "PROMPT_PROMOTION"
  | rulePromotion => "RULE_PROMOTION"
  | rollback => "ROLLBACK"

/-- Immutable executable set of approved rules, thresholds, and prompts. -/
structure PolicyVersion where
  id : UUID
  lineageKey : String
  version : ℕ
  predecessorId : Option UUID
  workflowThresholds : Json
  approvedBy : String
  approvedAt : Time
  rollbackPolicyVersionId : Option UUID
  ownerId : String

instance : Keyed PolicyVersion UUID := ⟨PolicyVersion.id⟩

/-- Immutable structured prompt template version. -/
structure PromptTemplateVersion where
  id : UUID
  lineageKey : String
  role : String
  version : ℕ
  predecessorId : Option UUID
  structuredTemplate : Json
  regressionReviewed : Bool
  promoted : Bool
  approvedBy : Option String
  approvedAt : Option Time
  ownerId : String

instance : Keyed PromptTemplateVersion UUID := ⟨PromptTemplateVersion.id⟩

/-- Immutable human authorization and evidence for one active policy version. -/
structure PolicyActivation where
  id : UUID
  policyVersionId : UUID
  sourcePolicyVersionId : UUID
  rollbackPolicyVersionId : UUID
  activationKind : PolicyActivationKind
  subjectType : String
  subjectId : UUID
  subjectVersion : Option ℕ
  subjectFingerprint : String
  evaluationContractVersionId : Option UUID
  thresholdEvidence : Json
  evidenceIds : List UUID
  regressionReviewed : Bool
  approvedBy : String
  activatedAt : Time
  activationFingerprint : String

instance : Keyed PolicyActivation UUID := ⟨PolicyActivation.id⟩

/-- The rows of the policies. Both tables of memberships have the same columns. -/
structure PolicyStore where
  policyVersions : Table PolicyVersion
  policyActivations : Table PolicyActivation
  reviewRules : Table ReviewRule
  promptTemplateVersions : Table PromptTemplateVersion
  policyVersionReviewRules : List (Placement UUID UUID)
  policyVersionPromptTemplates : List (Placement UUID UUID)

inductive PolicyError where
  | notFound (message : String)
  | conflict (message : String)
  | authorization (message : String)
  | promptNotFound (message : String)
  | promptConflict (message : String)
  | approvalConflict (message : String)
  /-- A constraint of the database refuses a row. -/
  | integrity

namespace PolicyStore

/-- The rules of a policy in the order of their positions. -/
def rulesOf (s : PolicyStore) (policyId : UUID) : List ReviewRule :=
  (Placement.members s.policyVersionReviewRules policyId).filterMap s.reviewRules.get?

/-- The prompts of a policy in the order of their positions. -/
def promptsOf (s : PolicyStore) (policyId : UUID) : List PromptTemplateVersion :=
  (Placement.members s.policyVersionPromptTemplates policyId).filterMap
    s.promptTemplateVersions.get?

def lineage (s : PolicyStore) (lineageKey : String) : List PolicyVersion :=
  s.policyVersions.select (·.lineageKey = lineageKey)

def nextVersion (s : PolicyStore) (lineageKey : String) : ℕ :=
  maxRank PolicyVersion.version (s.lineage lineageKey) + 1

/-- The approved version of an owner with the greatest number. -/
def activePolicy (s : PolicyStore) (ownerId lineageKey : String) (now : Time) :
    Option PolicyVersion :=
  latestBy PolicyVersion.version
    ((s.lineage lineageKey).filter fun p => p.ownerId = ownerId && p.approvedAt ≤ now)

end PolicyStore

/-! ### Activations -/

def requireHumanPolicyAuthorization (authentication : AuthenticatedSession) :
    Except PolicyError String := do
  Except.require (authentication.userId = localUserId)
    (.authorization "human policy authorization is unavailable")
  Except.require (authentication.recentPasswordVerified = true)
    (.authorization "recent password authentication required")
  return localOwnerId

def maxActivationClockSkew : Time := seconds 60

def checkActivationTime (value now : Time) : Except PolicyError Unit :=
  Except.require (value ≤ now + maxActivationClockSkew ∧ now ≤ value + maxActivationClockSkew)
    (.conflict "policy activation time is stale or future-dated")

/-- What the fingerprint of a policy is taken of. -/
def policyPayload (s : PolicyStore) (policy : PolicyVersion) : Json :=
  .obj [("lineage_key", .str policy.lineageKey),
    ("policy_version_id", .str policy.id.str),
    ("policy_version", .int policy.version),
    ("prompts", .arr ((Placement.members s.policyVersionPromptTemplates policy.id).map fun id =>
      .str id.str)),
    ("review_rules", .arr ((Placement.members s.policyVersionReviewRules policy.id).map fun id =>
      .str id.str)),
    ("workflow_thresholds", policy.workflowThresholds)]

def policyFingerprint (rt : Runtime) (s : PolicyStore) (policy : PolicyVersion) : String :=
  rt.fingerprint (policyPayload s policy)

/-- What the fingerprint of an activation is taken of. -/
def PolicyActivation.payload (a : PolicyActivation) : Json :=
  .obj [("activation_id", .str a.id.str),
    ("activation_kind", .str a.activationKind.value),
    ("activated_at", .str (Calendar.isoTimestamp a.activatedAt)),
    ("approved_by", .str a.approvedBy),
    ("evaluation_contract_version_id",
      (a.evaluationContractVersionId.map fun id => Json.str id.str).getD .null),
    ("evidence_ids", .arr (a.evidenceIds.map fun id => .str id.str)),
    ("policy_version_id", .str a.policyVersionId.str),
    ("regression_reviewed", .bool a.regressionReviewed),
    ("rollback_policy_version_id", .str a.rollbackPolicyVersionId.str),
    ("source_policy_version_id", .str a.sourcePolicyVersionId.str),
    ("subject_fingerprint", .str a.subjectFingerprint),
    ("subject_id", .str a.subjectId.str),
    ("subject_type", .str a.subjectType),
    ("subject_version", (a.subjectVersion.map fun n => Json.int n).getD .null),
    ("threshold_evidence", a.thresholdEvidence)]

/-- Record an activation under its fingerprint. A version has one activation. -/
def recordPolicyActivation (rt : Runtime) (s : PolicyStore) (a : PolicyActivation) :
    Except PolicyError PolicyStore := do
  Except.require (a.subjectFingerprint.length = 64)
    (.conflict "policy activation subject is invalid")
  Except.require (a.regressionReviewed = true)
    (.conflict "policy activation regression review is required")
  Except.require a.evidenceIds.Nodup (.conflict "policy activation evidence is invalid")
  Except.require (∀ b ∈ s.policyActivations.rows, b.policyVersionId ≠ a.policyVersionId) .integrity
  let policyActivations ← Except.orThrow
    (s.policyActivations.insert? { a with activationFingerprint := rt.fingerprint a.payload })
    .integrity
  return { s with policyActivations }

/-- A new version with the memberships that are written for it. -/
def PolicyStore.install (s : PolicyStore) (policy : PolicyVersion)
    (rules prompts : List (Placement UUID UUID)) : Except PolicyError PolicyStore := do
  let policyVersions ← Except.orThrow (s.policyVersions.insert? policy) .integrity
  return { s with
    policyVersions
    policyVersionReviewRules := s.policyVersionReviewRules ++ rules
    policyVersionPromptTemplates := s.policyVersionPromptTemplates ++ prompts }

/-! ### Rollback -/

structure RollbackCommand where
  sourcePolicyVersionId : UUID
  activationId : UUID
  restoredPolicyVersionId : UUID
  restoreFromPolicyVersionId : UUID
  activationTime : Time
  authentication : AuthenticatedSession
  now : Time

structure PolicyRollbackResult where
  sourcePolicyVersionId : UUID
  restoredPolicyVersionId : UUID
  restoredPolicyVersion : ℕ
  restoredFromPolicyVersionId : UUID
  rollbackPolicyVersionId : UUID
  activationId : UUID
  activatedAt : Time
  replayed : Bool
  deriving DecidableEq

/-- The version a rollback writes: the thresholds of its target, after the active version. -/
def restoredPolicy (s : PolicyStore) (lineageKey : String) (source restoreFrom : PolicyVersion)
    (c : RollbackCommand) (approver : String) : PolicyVersion where
  id := c.restoredPolicyVersionId
  lineageKey
  version := s.nextVersion lineageKey
  predecessorId := some source.id
  workflowThresholds := restoreFrom.workflowThresholds
  approvedBy := approver
  approvedAt := c.now
  rollbackPolicyVersionId := some source.id
  ownerId := approver

/-- The activation of a rollback. -/
def rollbackActivation (rt : Runtime) (s : PolicyStore) (source restoreFrom : PolicyVersion)
    (c : RollbackCommand) (approver : String) : PolicyActivation where
  id := c.activationId
  policyVersionId := c.restoredPolicyVersionId
  sourcePolicyVersionId := source.id
  rollbackPolicyVersionId := source.id
  activationKind := .rollback
  subjectType := "POLICY_VERSION"
  subjectId := restoreFrom.id
  subjectVersion := some restoreFrom.version
  subjectFingerprint := policyFingerprint rt s restoreFrom
  evaluationContractVersionId := none
  thresholdEvidence := .obj [("schema_version", .int 1),
    ("effective_policy_approved_at", .str (Calendar.isoTimestamp c.now)),
    ("restored_immutable_policy", .bool true)]
  evidenceIds := []
  regressionReviewed := true
  approvedBy := approver
  activatedAt := c.activationTime
  activationFingerprint := ""

/-- When the rows of a request are those of a rollback that was asked for in the same way. -/
def Replays (rt : Runtime) (s : PolicyStore) (c : RollbackCommand) (approver : String)
    (activation : PolicyActivation) (restored restoreFrom : PolicyVersion) : Prop :=
  activation.policyVersionId = restored.id ∧
    activation.sourcePolicyVersionId = c.sourcePolicyVersionId ∧
    activation.rollbackPolicyVersionId = c.sourcePolicyVersionId ∧
    activation.activationKind = .rollback ∧
    activation.subjectId = c.restoreFromPolicyVersionId ∧
    activation.subjectVersion = some restoreFrom.version ∧
    activation.subjectFingerprint = policyFingerprint rt s restoreFrom ∧
    activation.approvedBy = approver ∧
    activation.activatedAt = c.activationTime ∧
    restored.predecessorId = some c.sourcePolicyVersionId ∧
    restored.rollbackPolicyVersionId = some c.sourcePolicyVersionId ∧
    restored.approvedBy = approver ∧
    (activation.thresholdEvidence.get "effective_policy_approved_at").str? =
      some (Calendar.isoTimestamp restored.approvedAt) ∧
    restored.workflowThresholds.pyEq restoreFrom.workflowThresholds = true

instance (rt : Runtime) (s : PolicyStore) (c : RollbackCommand) (approver : String)
    (activation : PolicyActivation) (restored restoreFrom : PolicyVersion) :
    Decidable (Replays rt s c approver activation restored restoreFrom) := by
  unfold Replays
  infer_instance

def replayedRollback (rt : Runtime) (s : PolicyStore) (c : RollbackCommand) (approver : String) :
    Except PolicyError PolicyRollbackResult := do
  let conflicts : PolicyError := .conflict "policy rollback ids conflict"
  let activation ← Except.orThrow (s.policyActivations.get? c.activationId) conflicts
  let restored ← Except.orThrow (s.policyVersions.get? c.restoredPolicyVersionId) conflicts
  let restoreFrom ← Except.orThrow (s.policyVersions.get? c.restoreFromPolicyVersionId) conflicts
  Except.require (Replays rt s c approver activation restored restoreFrom) conflicts
  return {
    sourcePolicyVersionId := c.sourcePolicyVersionId
    restoredPolicyVersionId := restored.id
    restoredPolicyVersion := restored.version
    restoredFromPolicyVersionId := c.restoreFromPolicyVersionId
    rollbackPolicyVersionId := c.sourcePolicyVersionId
    activationId := activation.id
    activatedAt := activation.activatedAt
    replayed := true }

/-- Write the version that restores another one. -/
def restore (rt : Runtime) (s : PolicyStore) (lineageKey : String)
    (source restoreFrom : PolicyVersion) (c : RollbackCommand) (approver : String) :
    Except PolicyError (PolicyRollbackResult × PolicyStore) := do
  let restored := restoredPolicy s lineageKey source restoreFrom c approver
  let s ← s.install restored
    (Placement.copied s.policyVersionReviewRules restoreFrom.id restored.id)
    (Placement.copied s.policyVersionPromptTemplates restoreFrom.id restored.id)
  let s ← recordPolicyActivation rt s (rollbackActivation rt s source restoreFrom c approver)
  return ({
    sourcePolicyVersionId := source.id
    restoredPolicyVersionId := restored.id
    restoredPolicyVersion := restored.version
    restoredFromPolicyVersionId := restoreFrom.id
    rollbackPolicyVersionId := source.id
    activationId := c.activationId
    activatedAt := c.activationTime
    replayed := false }, s)

/-- Roll the active policy of a lineage back to its rollback target. -/
def rollback (rt : Runtime) (lineageKey : String) (s : PolicyStore) (c : RollbackCommand) :
    Except PolicyError (PolicyRollbackResult × PolicyStore) := do
  let approver ← requireHumanPolicyAuthorization c.authentication
  if (s.policyActivations.get? c.activationId).isSome ∨
      (s.policyVersions.get? c.restoredPolicyVersionId).isSome then
    let result ← replayedRollback rt s c approver
    return (result, s)
  checkActivationTime c.activationTime c.now
  let source ← Except.orThrow (s.activePolicy approver lineageKey c.now)
    (.notFound "active policy is unavailable")
  Except.require (source.id = c.sourcePolicyVersionId) (.conflict "active policy changed")
  Except.require (source.rollbackPolicyVersionId = some c.restoreFromPolicyVersionId)
    (.conflict "rollback target is not the active target")
  let restoreFrom ← Except.orThrow
    ((s.policyVersions.get? c.restoreFromPolicyVersionId).filter fun p =>
      p.ownerId = approver && p.lineageKey = lineageKey && p.approvedAt ≤ c.now)
    (.notFound "rollback target is unavailable")
  Except.relabel (restore rt s lineageKey source restoreFrom c approver) fun
    | .integrity => .conflict "policy rollback conflicts"
    | error => error

/-! ### Promotion of a rule -/

/-- What an approved request hands over about the rule of its candidate. -/
structure RulePromotion where
  ruleId : UUID
  policyVersionId : UUID
  decisionId : Option UUID
  candidateId : UUID
  approvalRequestId : UUID
  definition : EvaluatedReviewRule
  candidateFingerprint : String
  thresholdEvidence : Json
  evidenceIds : List UUID
  regressionReviewed : Bool
  ownerId : String
  actorId : String
  approvedAt : Time

/-- The next version of a rule in its lineage. -/
def promotedRule (s : PolicyStore) (c : RulePromotion) : ReviewRule :=
  let lineage := s.reviewRules.select (·.lineageKey = c.definition.lineageKey)
  { id := c.ruleId
    lineageKey := c.definition.lineageKey
    version := maxRank ReviewRule.version lineage + 1
    predecessorId :=
      (latestBy ReviewRule.version (lineage.filter (·.ownerId = c.ownerId))).map ReviewRule.id
    candidateId := c.candidateId
    approvalRequestId := c.approvalRequestId
    scope := c.definition.scope
    matcher := c.definition.matcher
    permittedAction := c.definition.permittedAction
    riskClass := c.definition.riskClass
    evidenceRequirements := c.definition.evidenceRequirements
    approvedBy := c.actorId
    approvedAt := c.approvedAt
    ownerId := c.ownerId }

/-- The version a promotion writes after the active one. -/
def promotedPolicy (s : PolicyStore) (active : PolicyVersion) (id : UUID) (approvedBy : String)
    (approvedAt : Time) : PolicyVersion where
  id
  lineageKey := active.lineageKey
  version := s.nextVersion active.lineageKey
  predecessorId := some active.id
  workflowThresholds := active.workflowThresholds
  approvedBy
  approvedAt
  rollbackPolicyVersionId := some active.id
  ownerId := active.ownerId

/-- Install the rule of an approved candidate in the next version of the active policy. -/
def promoteReviewRule (rt : Runtime) (lineageKey : String) (s : PolicyStore) (c : RulePromotion) :
    Except PolicyError PolicyStore := do
  let active ← Except.orThrow (s.activePolicy c.ownerId lineageKey c.approvedAt)
    (.approvalConflict "active approval policy is unavailable")
  let rule := promotedRule s c
  let reviewRules ← Except.orThrow (s.reviewRules.insert? rule) .integrity
  let s := { s with reviewRules }
  let s ← s.install (promotedPolicy s active c.policyVersionId c.actorId c.approvedAt)
    (Placement.listed c.policyVersionId (replaceLineage rule false (s.rulesOf active.id)))
    (Placement.copied s.policyVersionPromptTemplates active.id c.policyVersionId)
  let decisionId ← Except.orThrow c.decisionId
    (.approvalConflict "rule promotion decision is unavailable")
  recordPolicyActivation rt s {
    id := decisionId
    policyVersionId := c.policyVersionId
    sourcePolicyVersionId := active.id
    rollbackPolicyVersionId := active.id
    activationKind := .rulePromotion
    subjectType := "RULE_CANDIDATE"
    subjectId := c.candidateId
    subjectVersion := none
    subjectFingerprint := c.candidateFingerprint
    evaluationContractVersionId := none
    thresholdEvidence := c.thresholdEvidence
    evidenceIds := c.evidenceIds
    regressionReviewed := c.regressionReviewed
    approvedBy := c.actorId
    activatedAt := c.approvedAt
    activationFingerprint := "" }

/-! ### Promotion of a prompt -/

/-- The prompts of a lineage are numbered; the greatest number is the latest. -/
def latestPrompt (s : PolicyStore) (lineageKey : String) : Option PromptTemplateVersion :=
  latestBy PromptTemplateVersion.version
    (s.promptTemplateVersions.select (·.lineageKey = lineageKey))

structure CandidateCommand where
  promptId : UUID
  lineageKey : String
  role : String
  template : Json
  ownerId : String

/-- Store a prompt that may be promoted, or answer with the one that is stored. -/
def createCandidate (s : PolicyStore) (c : CandidateCommand) :
    Except PolicyError (PromptTemplateVersion × PolicyStore) :=
  match s.promptTemplateVersions.get? c.promptId with
  | some existing => do
    Except.require (existing.lineageKey = c.lineageKey ∧
        existing.structuredTemplate.pyEq c.template = true ∧ existing.promoted = false)
      (.promptConflict "prompt candidate id conflicts")
    return (existing, s)
  | none => do
    let predecessor := latestPrompt s c.lineageKey
    Except.require (∀ p ∈ predecessor, p.role = c.role)
      (.promptConflict "prompt lineage cannot change roles")
    let candidate : PromptTemplateVersion :=
      { id := c.promptId
        lineageKey := c.lineageKey
        role := c.role
        version := (predecessor.map (·.version)).getD 0 + 1
        predecessorId := predecessor.map (·.id)
        structuredTemplate := c.template
        regressionReviewed := false
        promoted := false
        approvedBy := none
        approvedAt := none
        ownerId := c.ownerId }
    let promptTemplateVersions ← Except.orThrow (s.promptTemplateVersions.insert? candidate)
      .integrity
    return (candidate, { s with promptTemplateVersions })

structure PromptPromotion where
  candidateId : UUID
  candidateVersion : ℕ
  activationId : UUID
  promotedPromptId : UUID
  policyVersionId : UUID
  rollbackPolicyVersionId : UUID
  evaluationContractVersionId : UUID
  evaluationBasis : Json
  regressionReviewed : Bool
  activationTime : Time
  authentication : AuthenticatedSession
  now : Time

structure PromptPromotionResult where
  candidateId : UUID
  promotedPromptId : UUID
  promotedPromptVersion : ℕ
  policyVersionId : UUID
  policyVersion : ℕ
  rollbackPolicyVersionId : UUID
  activationId : UUID
  activatedAt : Time
  replayed : Bool

/-- The compiler of prompts. What the recorded runs say about a candidate is a parameter: the
evidence that it may be promoted, with the runs it rests on. -/
structure PromptCompilerService where
  policyLineage : String
  promptThresholdEvidence : PromptPromotion → PromptTemplateVersion → PolicyVersion →
    Except PolicyError (List (String × Json) × List UUID)

def replayedPromotion (s : PolicyStore) (c : PromptPromotion) (approver : String) :
    Except PolicyError PromptPromotionResult := do
  let conflicts : PolicyError := .promptConflict "prompt promotion ids conflict"
  let prompt ← Except.orThrow (s.promptTemplateVersions.get? c.promotedPromptId) conflicts
  let policy ← Except.orThrow (s.policyVersions.get? c.policyVersionId) conflicts
  let activation ← Except.orThrow (s.policyActivations.get? c.activationId) conflicts
  Except.require (prompt.predecessorId = some c.candidateId ∧
      prompt.version = c.candidateVersion + 1 ∧ prompt.promoted = true ∧
      prompt.regressionReviewed = c.regressionReviewed ∧
      prompt.approvedBy = some approver ∧
      policy.predecessorId = some c.rollbackPolicyVersionId ∧
      policy.rollbackPolicyVersionId = some c.rollbackPolicyVersionId ∧
      policy.approvedBy = approver ∧ prompt.approvedAt = some policy.approvedAt) conflicts
  Except.require (activation.policyVersionId = policy.id ∧
      activation.sourcePolicyVersionId = c.rollbackPolicyVersionId ∧
      activation.rollbackPolicyVersionId = c.rollbackPolicyVersionId ∧
      activation.activationKind = .promptPromotion ∧
      activation.subjectId = c.candidateId ∧
      activation.subjectVersion = some c.candidateVersion ∧
      activation.evaluationContractVersionId = some c.evaluationContractVersionId ∧
      (activation.thresholdEvidence.get "evaluation_basis").pyEq c.evaluationBasis = true ∧
      (activation.thresholdEvidence.get "effective_policy_approved_at").str? =
        some (Calendar.isoTimestamp policy.approvedAt) ∧
      activation.approvedBy = approver ∧ activation.activatedAt = c.activationTime) conflicts
  Except.require (prompt.id ∈ Placement.members s.policyVersionPromptTemplates policy.id)
    (.promptConflict "stored prompt promotion is incomplete")
  return {
    candidateId := c.candidateId
    promotedPromptId := prompt.id
    promotedPromptVersion := prompt.version
    policyVersionId := policy.id
    policyVersion := policy.version
    rollbackPolicyVersionId := c.rollbackPolicyVersionId
    activationId := activation.id
    activatedAt := activation.activatedAt
    replayed := true }

/-- The prompts of a policy with a promoted one in place of those of its role. -/
def replaceRole (prompt : PromptTemplateVersion) (prompts : List PromptTemplateVersion) :
    List PromptTemplateVersion := prompts.filter (·.role ≠ prompt.role) ++ [prompt]

/-- A candidate as it is promoted: the next version of its lineage. -/
def promotedPrompt (candidate : PromptTemplateVersion) (c : PromptPromotion) (approver : String) :
    PromptTemplateVersion where
  id := c.promotedPromptId
  lineageKey := candidate.lineageKey
  role := candidate.role
  version := candidate.version + 1
  predecessorId := some candidate.id
  structuredTemplate := candidate.structuredTemplate
  regressionReviewed := true
  promoted := true
  approvedBy := some approver
  approvedAt := some c.now
  ownerId := candidate.ownerId

/-- The fingerprint of a candidate. -/
def candidateFingerprint (rt : Runtime) (candidate : PromptTemplateVersion) : String :=
  rt.fingerprint (.obj [("candidate_id", .str candidate.id.str),
    ("candidate_version", .int candidate.version),
    ("lineage_key", .str candidate.lineageKey),
    ("role", .str candidate.role),
    ("structured_template", candidate.structuredTemplate)])

/-- Install a candidate in the next version of the active policy. -/
def installPrompt (rt : Runtime) (s : PolicyStore) (active : PolicyVersion)
    (candidate : PromptTemplateVersion) (evidence : List (String × Json)) (runs : List UUID)
    (c : PromptPromotion) (approver : String) :
    Except PolicyError (PromptPromotionResult × PolicyStore) := do
  let promoted := promotedPrompt candidate c approver
  let policy := promotedPolicy s active c.policyVersionId approver c.now
  let promptTemplateVersions ← Except.orThrow (s.promptTemplateVersions.insert? promoted) .integrity
  let s := { s with promptTemplateVersions }
  let s ← s.install policy
    (Placement.copied s.policyVersionReviewRules active.id policy.id)
    (Placement.listed policy.id ((replaceRole promoted (s.promptsOf active.id)).map (·.id)))
  let s ← recordPolicyActivation rt s {
    id := c.activationId
    policyVersionId := policy.id
    sourcePolicyVersionId := active.id
    rollbackPolicyVersionId := active.id
    activationKind := .promptPromotion
    subjectType := "PROMPT_TEMPLATE_VERSION"
    subjectId := candidate.id
    subjectVersion := some candidate.version
    subjectFingerprint := candidateFingerprint rt candidate
    evaluationContractVersionId := some c.evaluationContractVersionId
    thresholdEvidence := .obj (evidence ++
      [("effective_policy_approved_at", .str (Calendar.isoTimestamp c.now))])
    evidenceIds := runs
    regressionReviewed := c.regressionReviewed
    approvedBy := approver
    activatedAt := c.activationTime
    activationFingerprint := "" }
  return ({
    candidateId := candidate.id
    promotedPromptId := promoted.id
    promotedPromptVersion := promoted.version
    policyVersionId := policy.id
    policyVersion := policy.version
    rollbackPolicyVersionId := active.id
    activationId := c.activationId
    activatedAt := c.activationTime
    replayed := false }, s)

/-- Promote the latest candidate of a lineage into the next version of the active policy. -/
def promote (rt : Runtime) (svc : PromptCompilerService) (s : PolicyStore) (c : PromptPromotion) :
    Except PolicyError (PromptPromotionResult × PolicyStore) := do
  let approver ← requireHumanPolicyAuthorization c.authentication
  if (s.policyVersions.get? c.policyVersionId).isSome ∨
      (s.promptTemplateVersions.get? c.promotedPromptId).isSome ∨
      (s.policyActivations.get? c.activationId).isSome then
    let result ← replayedPromotion s c approver
    return (result, s)
  checkActivationTime c.activationTime c.now
  let candidate ← Except.orThrow
    ((s.promptTemplateVersions.get? c.candidateId).filter fun p =>
      !p.promoted && p.version = c.candidateVersion)
    (.promptNotFound "unpromoted prompt candidate is unavailable")
  Except.require ((latestPrompt s candidate.lineageKey).map (·.id) = some candidate.id)
    (.promptConflict "only the latest prompt candidate can be promoted")
  let active ← Except.orThrow (s.activePolicy candidate.ownerId svc.policyLineage c.now)
    (.promptNotFound "active prompt policy is unavailable")
  Except.require (active.id = c.rollbackPolicyVersionId)
    (.promptConflict "prompt rollback target is not the active policy")
  Except.require (c.regressionReviewed = true)
    (.promptConflict "prompt promotion requirements are not satisfied")
  let (evidence, runs) ← svc.promptThresholdEvidence c candidate active
  installPrompt rt s active candidate evidence runs c approver

/-! ### The first policy -/

/-- The authority an installation starts from. -/
structure MvpAuthorityDefinition where
  policyId : UUID
  lineageKey : String
  workflowThresholds : Json
  ownerId : String
  approvedAt : Time
  rule : ReviewRule
  prompts : List PromptTemplateVersion
  /-- A stored object has no key twice. -/
  thresholds_self : workflowThresholds.pyEq workflowThresholds = true
  prompts_nodup : (prompts.map key).Nodup
  roles_nodup : (prompts.map PromptTemplateVersion.role).Nodup
  promoted : ∀ p ∈ prompts, p.promoted = true

/-- The store with the first version of the policy. -/
def bootstrap (d : MvpAuthorityDefinition) : PolicyStore where
  policyVersions := ⟨[{
    id := d.policyId
    lineageKey := d.lineageKey
    version := 1
    predecessorId := none
    workflowThresholds := d.workflowThresholds
    approvedBy := d.ownerId
    approvedAt := d.approvedAt
    rollbackPolicyVersionId := none
    ownerId := d.ownerId }], List.nodup_singleton _⟩
  policyActivations := .empty
  reviewRules := ⟨[d.rule], List.nodup_singleton _⟩
  promptTemplateVersions := ⟨d.prompts, d.prompts_nodup⟩
  policyVersionReviewRules := Placement.listed d.policyId [d.rule.id]
  policyVersionPromptTemplates := Placement.listed d.policyId (d.prompts.map (·.id))

/-- The policies of an installation under any requests; the services may be set up for any
lineages. -/
inductive PolicyStep (rt : Runtime) (s : PolicyStore) : PolicyStore → Prop
  | rollback {s' : PolicyStore} (lineageKey : String) (c : RollbackCommand)
      (r : PolicyRollbackResult) (h : rollback rt lineageKey s c = .ok (r, s')) : PolicyStep rt s s'
  | promoteReviewRule {s' : PolicyStore} (lineageKey : String) (c : RulePromotion)
      (h : promoteReviewRule rt lineageKey s c = .ok s') : PolicyStep rt s s'
  | promote {s' : PolicyStore} (svc : PromptCompilerService) (c : PromptPromotion)
      (r : PromptPromotionResult) (h : promote rt svc s c = .ok (r, s')) : PolicyStep rt s s'
  | createCandidate {s' : PolicyStore} (c : CandidateCommand) (p : PromptTemplateVersion)
      (h : createCandidate s c = .ok (p, s')) : PolicyStep rt s s'

def policySystem (rt : Runtime) : TransitionSystem PolicyStore where
  init s := ∃ d, s = bootstrap d
  step := PolicyStep rt

end ControlPlane.Policies
