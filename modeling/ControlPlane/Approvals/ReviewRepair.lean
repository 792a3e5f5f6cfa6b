import ControlPlane.Configuration.Boundaries
import ControlPlane.HostAgent.Dispatch
import ControlPlane.Lib.Pages
import ControlPlane.Readiness.Assessment
import ControlPlane.Tools.Scope
import ControlPlane.Validation.Results

/-!
# Repairs a review rule authorises

A classified review comment is repaired without a person when exactly one active rule matches
it. The paths the classification proposes become the paths of a job, the job asks the host for
a commit, and the commit is taken into validation when it changed those paths only.

Every boundary puts paths into their normal form again. White space inside a path comes to its
ends when segments before or after it fall away, and goes at the next boundary; so the paths of
the job need not be the paths that were classified.

## Main definitions

* `repositoryPath`: the normal form of a path.
* `authorization`, `scheduledInput`: from a classification to the input of a job.
* `repair`: the job up to its validation.

## Main results

* `repairs_bounded_iff`: when the changed paths of every repair were proposed.
* `inScope_of_payload`: what an authorised repair keeps to in any case.
* `detours_iff`: the paths that are not kept.
-/
namespace ControlPlane.ReviewResolution

open ControlPlane.Validation (isLowerHex)
open Pages (mapM_eq_some)

/-! ### Paths -/

/-- A path without white space at its ends, with slashes and without empty segments. -/
def repositoryPath (u : Unicode) (value : Json) : Option String :=
  match value with
  | .str s =>
    let normalized := (u.strip s.toList).map fun c => if c = '\\' then '/' else c
    let candidate := PurePosixPath.ofText normalized
    if normalized = [] ∨ normalized.head? = some '/' ∨ normalized.getLast? = some '/' ∨
        candidate.root ≠ 0 ∨
        candidate.parts.any (fun part => [[], ['.'], ['.', '.']].contains part) ∨
        500 < normalized.length then none
    else some (String.ofList candidate.asPosix)
  | _ => none

/-- Paths in their normal form, no two the same. -/
def uniquePaths (u : Unicode) (values : List Json) : Option (List String) := do
  let paths ← values.mapM (repositoryPath u)
  guard paths.Nodup
  return paths

/-- The paths of a stored scope. -/
def storedPaths (u : Unicode) (value : Json) : Option (List String) := do
  let values ← value.arr?
  guard !values.isEmpty
  uniquePaths u values

/-! ### Classifications -/

inductive ReviewRisk where
  | low | medium | high
  deriving DecidableEq, Repr

/-- Bounded classifier output; it is never itself authorization. The paths are in their normal
form. -/
structure ReviewClassification (u : Unicode) where
  disposition : ReviewDisposition
  category : String
  action : String
  risk : ReviewRisk
  labels : List String
  proposedPaths : List String
  dependencyChange : Bool := false
  schemaChange : Bool := false
  signingChange : Bool := false
  securityChange : Bool := false
  normalized : ∃ values, uniquePaths u values = some proposedPaths
  few : proposedPaths.length ≤ 32

/-- What is read of a review comment, its task and the versions its task is bound to. -/
structure ReviewContext where
  taskId : UUID
  taskEventId : UUID
  headSha : String
  path : String
  taskRetryCount : ℕ
  includedPaths : List String
  prohibitedPaths : List String
  validationContractId : UUID
  validationContractVersion : ℕ
  repositoryConfigurationId : UUID
  repositoryConfigurationVersion : ℕ
  policyVersionId : UUID
  maxAttempts : ℤ

/-- The repairs a policy allows for a task. -/
def reviewPolicy (policy : PolicyVersion) : Option ℤ :=
  let raw := policy.workflowThresholds.get "review_resolution_policy"
  if raw.isNull then some 1
  else if !raw.hasKeys ["max_attempts", "approval_lifetime_seconds"] then none
  else do
    let attempts ← (raw.get "max_attempts").int?
    let lifetime ← (raw.get "approval_lifetime_seconds").int?
    guard (1 ≤ attempts ∧ attempts ≤ 5 ∧ 60 ≤ lifetime ∧ lifetime ≤ 7 * 86400)
    return attempts

/-- The context of a comment; `prohibitedPaths` is what the configuration stores. The checks of
the event and of the pull request, which only refuse, are left out. -/
def reviewContext (u : Unicode) (task : Task) (event : UUID) (headSha path : String)
    (brief : Brief) (contract : ValidationContract) (configuration : RepositoryConfiguration)
    (prohibitedPaths : Json) (policy : PolicyVersion) : Option ReviewContext := do
  let included ← storedPaths u (brief.scope.get "included_paths")
  let prohibited ← storedPaths u prohibitedPaths
  let maxAttempts ← reviewPolicy policy
  return {
    taskId := task.id
    taskEventId := event
    headSha := headSha
    path := path
    taskRetryCount := task.retryCount
    includedPaths := included
    prohibitedPaths := prohibited
    validationContractId := contract.id
    validationContractVersion := contract.version
    repositoryConfigurationId := configuration.id
    repositoryConfigurationVersion := configuration.version
    policyVersionId := policy.id
    maxAttempts := maxAttempts }

/-! ### Rules -/

structure ExecutableReviewRule where
  categories : List String
  requiredLabels : List String
  pathPrefixes : List String
  maxFiles : ℤ
  evidenceRequirements : List String

def availableReviewEvidenceTypes : List String :=
  ["github-webhook", "review-resolution-assessment", "hermes-tool-proposal",
    "hermes-tool-authorization", "hermes-tool-result", "workspace-diff",
    "review-repair-candidate", "validation-decision", "draft-pull-request-proof"]

def uniqueStrings (value : Json) (required : Bool) (maximum : ℕ) : Option (List String) := do
  let items ← value.arr?
  let values ← items.mapM Json.str?
  guard (¬ (required = true ∧ values = []) ∧
    (∀ item ∈ values, item ≠ "" ∧ item.length ≤ maximum) ∧ values.Nodup)
  return values

/-- The exact data shape that the matching of rules reads. -/
def executableReviewRule (u : Unicode) (scope matcher : Json) (riskClass : List Char)
    (evidenceRequirements : Json) : Option ExecutableReviewRule := do
  guard (riskClass = "LOW".toList ∧ scope.hasKeys ["path_prefixes", "max_files"] = true ∧
    matcher.hasKeys ["categories", "required_labels"] = true)
  let categories ← uniqueStrings (matcher.get "categories") true 100
  let labels ← uniqueStrings (matcher.get "required_labels") false 100
  let named ← uniqueStrings (scope.get "path_prefixes") true 500
  let prefixes ← named.mapM fun value => repositoryPath u (.str value)
  let requirements ← uniqueStrings evidenceRequirements true 100
  let maximum ← (scope.get "max_files").int?
  guard (1 ≤ maximum ∧ maximum ≤ 32 ∧ ∀ r ∈ requirements, r ∈ availableReviewEvidenceTypes)
  return ⟨categories, labels, prefixes, maximum, requirements⟩

/-- The contract of a stored rule. -/
def ruleContract (u : Unicode) (rule : ReviewRule) : Option ExecutableReviewRule :=
  executableReviewRule u rule.scope rule.matcher (u.upper rule.riskClass.toList)
    (.arr (rule.evidenceRequirements.map Json.str))

/-- A rule matches a classification. Only approved rules of their own type are stored. -/
def ruleMatches (u : Unicode) (classification : ReviewClassification u) (rule : ReviewRule) :
    Bool :=
  if u.upper rule.riskClass.toList ≠ "LOW".toList ∨
      rule.permittedAction ≠ classification.action then false
  else
    match ruleContract u rule with
    | none => false
    | some contract =>
      if classification.category ∉ contract.categories ∨
          ¬ (∀ label ∈ contract.requiredLabels, label ∈ classification.labels) ∨
          contract.maxFiles < classification.proposedPaths.length then false
      else classification.proposedPaths.all fun path => pathInScope u path contract.pathPrefixes

/-! ### Authorization -/

def dispositionValue : ReviewDisposition → String
  | .actionable => "ACTIONABLE"
  | .informational => "INFORMATIONAL"
  | .ambiguous => "AMBIGUOUS"
  | .conflicting => "CONFLICTING"
  | .speculative => "SPECULATIVE"
  | .scopeExpanding => "SCOPE_EXPANDING"

/-- Why a rule may not authorise the repair, if it may not. -/
def unsafeReason (u : Unicode) (context : ReviewContext)
    (classification : ReviewClassification u) : Option String :=
  if classification.disposition ≠ .actionable then
    some ("REVIEW_" ++ dispositionValue classification.disposition)
  else if classification.risk ≠ .low then some "REVIEW_RISK_NOT_LOW"
  else if classification.proposedPaths = [] then some "REVIEW_PATHS_MISSING"
  else if classification.dependencyChange then some "REVIEW_DEPENDENCY_CHANGE"
  else if classification.schemaChange then some "REVIEW_SCHEMA_CHANGE"
  else if classification.signingChange then some "REVIEW_SIGNING_CHANGE"
  else if classification.securityChange then some "REVIEW_SECURITY_CHANGE"
  else if context.maxAttempts ≤ context.taskRetryCount then some "REVIEW_RETRY_BUDGET_EXHAUSTED"
  else if classification.proposedPaths.any fun path =>
      !pathInScope u path context.includedPaths || pathInScope u path context.prohibitedPaths then
    some "REVIEW_PATH_OUTSIDE_SCOPE"
  else if context.path ∉ classification.proposedPaths then some "REVIEW_ANCHOR_PATH_MISMATCH"
  else none

structure Authorization where
  source : Option String
  ruleId : Option UUID
  approvalRequestId : Option UUID
  reasonCode : String
  deriving DecidableEq

def refused (reasonCode : String) : Authorization := ⟨none, none, none, reasonCode⟩

/-- `rules` are the rules of the policy in their order, `oneOff` an approval of this very
review. -/
def authorization (u : Unicode) (context : ReviewContext)
    (classification : ReviewClassification u) (rules : List ReviewRule) (oneOff : Option UUID) :
    Authorization :=
  match oneOff with
  | some request => ⟨some "ONE_OFF_APPROVAL", none, some request, "ONE_OFF_APPROVAL_MATCHED"⟩
  | none =>
    if classification.disposition = .informational then refused "REVIEW_INFORMATIONAL"
    else
      match unsafeReason u context classification with
      | some reason => refused reason
      | none =>
        match rules.filter (ruleMatches u classification) with
        | [rule] => ⟨some "REVIEW_RULE", some rule.id, none, "REVIEW_RULE_MATCHED"⟩
        | [] => refused "REVIEW_RULE_UNMATCHED"
        | _ => refused "REVIEW_RULE_CONFLICT"

/-! ### The input of the job -/

/-- The captured assessment of a review. -/
structure Assessment where
  evidenceId : UUID
  fingerprint : String
  reviewFingerprint : String

/-- Exact review, policy, scope, and candidate bindings for one repair. -/
structure ReviewResolutionJobInput where
  taskId : UUID
  taskEventId : UUID
  assessmentEvidenceId : UUID
  assessmentFingerprint : String
  reviewFingerprint : String
  authorizationSource : String
  policyVersionId : UUID
  reviewRuleId : Option UUID
  approvalRequestId : Option UUID
  originalHeadSha : String
  validationContractId : UUID
  validationContractVersion : ℕ
  repositoryConfigurationId : UUID
  repositoryConfigurationVersion : ℕ
  authorizedPaths : List String
  maxAttempts : ℤ
  deriving DecidableEq

def isDigest (text : String) : Bool := text.toList.length = 64 && text.toList.all isLowerHex

/-- The fields of a job input other than its paths. -/
def ReviewResolutionJobInput.Valid (input : ReviewResolutionJobInput) : Prop :=
  isDigest input.assessmentFingerprint = true ∧ isDigest input.reviewFingerprint = true ∧
    input.authorizationSource ∈ ["REVIEW_RULE", "ONE_OFF_APPROVAL"] ∧
    Validation.isGitObject input.originalHeadSha.toList = true ∧
    0 < input.validationContractVersion ∧ 0 < input.repositoryConfigurationVersion ∧
    1 ≤ input.maxAttempts ∧ input.maxAttempts ≤ 5

instance (input : ReviewResolutionJobInput) : Decidable input.Valid := by
  unfold ReviewResolutionJobInput.Valid
  infer_instance

/-- An input as the model reads it: when it is made, and again from the payload of the job. -/
def modelValidate (u : Unicode) (input : ReviewResolutionJobInput) :
    Option ReviewResolutionJobInput := do
  guard (input.Valid ∧ input.authorizedPaths ≠ [] ∧ input.authorizedPaths.length ≤ 32)
  let paths ← uniquePaths u (input.authorizedPaths.map Json.str)
  return { input with authorizedPaths := paths }

/-- The payload of the job that is scheduled; none when the review is ignored or left to a
person. -/
def scheduledInput (u : Unicode) (context : ReviewContext)
    (classification : ReviewClassification u) (rules : List ReviewRule) (oneOff : Option UUID)
    (assessment : Assessment) : Option ReviewResolutionJobInput := do
  let authorization := authorization u context classification rules oneOff
  guard (classification.disposition ≠ .informational)
  let source ← authorization.source
  modelValidate u {
    taskId := context.taskId
    taskEventId := context.taskEventId
    assessmentEvidenceId := assessment.evidenceId
    assessmentFingerprint := assessment.fingerprint
    reviewFingerprint := assessment.reviewFingerprint
    authorizationSource := source
    policyVersionId := context.policyVersionId
    reviewRuleId := authorization.ruleId
    approvalRequestId := authorization.approvalRequestId
    originalHeadSha := context.headSha
    validationContractId := context.validationContractId
    validationContractVersion := context.validationContractVersion
    repositoryConfigurationId := context.repositoryConfigurationId
    repositoryConfigurationVersion := context.repositoryConfigurationVersion
    authorizedPaths := classification.proposedPaths
    maxAttempts := context.maxAttempts }

/-! ### The candidate -/

/-- The changed paths a host may report: a list of distinct paths in their normal form. -/
def candidatePaths (u : Unicode) (changed : Json) : Option (List String) := do
  let values ← changed.arr?
  guard !values.isEmpty
  let names ← values.mapM Json.str?
  let normalized ← values.mapM (repositoryPath u)
  guard (normalized = names ∧ normalized.Nodup)
  return normalized

def validatedCandidateResponse (u : Unicode) (response : HostAgent.HostResponse)
    (input : ReviewResolutionJobInput) (fencingToken : ℤ) :
    Except String (List (String × Json)) :=
  let result := Json.obj response.result
  let head := (result.get "head_sha").str?
  let tree := (result.get "tree_sha").str?
  match candidatePaths u (result.get "changed_paths"), head, tree with
  | some changed, some head, some tree =>
    if response.status = .ok ∧
        (response.executionFencingToken = some fencingToken ∨ response.replayed = true) ∧
        (result.get "committed").bool? = some true ∧ (result.get "clean").bool? = some true ∧
        (∀ path ∈ changed, path ∈ input.authorizedPaths) ∧
        Validation.isGitObject head.toList = true ∧ head ≠ input.originalHeadSha ∧
        Validation.isGitObject tree.toList = true then .ok response.result
    else .error "REVIEW_CANDIDATE_INVALID"
  | _, _, _ => .error "REVIEW_CANDIDATE_INVALID"

/-- The services around a repair. Each may refuse. -/
structure RepairServices where
  beginRepair : ReviewResolutionJobInput → Except String Unit
  hermesStatus : ReviewResolutionJobInput → Option String
  configurationCurrent : ReviewResolutionJobInput → Bool
  execute : ReviewResolutionJobInput → HostAgent.HostResponse
  captureCandidate : ReviewResolutionJobInput → List (String × Json) → Except String UUID
  revalidate : ReviewResolutionJobInput → UUID → Except String Unit

/-- The job up to its validation: its input and what the host reported of the candidate. -/
def repair (u : Unicode) (services : RepairServices) (taskId : UUID) (fencingToken : ℤ)
    (payload : ReviewResolutionJobInput) :
    Except String (ReviewResolutionJobInput × List (String × Json)) := do
  let input ← Except.orThrow (modelValidate u payload) "REVIEW_INPUT_INVALID"
  Except.require (input.taskId = taskId) "REVIEW_JOB_TASK_MISMATCH"
  services.beginRepair input
  Except.require (services.hermesStatus input = some "SUCCEEDED") "REVIEW_HERMES_INCOMPLETE"
  Except.require (services.configurationCurrent input = true) "REVIEW_CONFIGURATION_STALE"
  let result ← validatedCandidateResponse u (services.execute input) input fencingToken
  let evidence ← services.captureCandidate input result
  services.revalidate input evidence
  return (input, result)

/-- The paths a candidate is reported to change. -/
def changedPaths (result : List (String × Json)) : List String :=
  (((Json.obj result).get "changed_paths").arr?.getD []).filterMap Json.str?

/-! ### Reviews -/

/-- What a review is decided on. -/
structure Review (u : Unicode) where
  task : Task
  taskEventId : UUID
  headSha : String
  path : String
  brief : Brief
  contract : ValidationContract
  configuration : RepositoryConfiguration
  prohibitedPaths : Json
  policy : PolicyVersion
  rules : List ReviewRule
  oneOff : Option UUID
  classification : ReviewClassification u
  assessment : Assessment

namespace Review
variable {u : Unicode}

def context (r : Review u) : Option ReviewContext :=
  reviewContext u r.task r.taskEventId r.headSha r.path r.brief r.contract r.configuration
    r.prohibitedPaths r.policy

/-- The payload of the job that is scheduled for a review. -/
def payload (r : Review u) : Option ReviewResolutionJobInput := do
  scheduledInput u (← r.context) r.classification r.rules r.oneOff r.assessment

/-- A rule authorises the repair, and the input of its job is valid. -/
def AuthorizedByRule (r : Review u) : Prop :=
  ∃ payload, r.payload = some payload ∧ payload.authorizationSource = "REVIEW_RULE" ∧
    (modelValidate u payload).isSome = true

end Review

/-! ### What a rule authorises -/

/-- A path lies in a scope: without regard to case, a path of the scope is the root or a front
part of it. -/
def Within (u : Unicode) (path : String) (scopes : List String) : Prop :=
  ∃ scope ∈ scopes, foldedPath u scope = .ofText ['.'] ∨
    (foldedPath u scope).root = (foldedPath u path).root ∧
      (foldedPath u scope).parts <+: (foldedPath u path).parts

/-- What a repair that a rule authorises keeps to. -/
structure InScope {u : Unicode} (r : Review u) : Prop where
  actionable : r.classification.disposition = .actionable
  lowRisk : r.classification.risk = .low
  dependencies : r.classification.dependencyChange = false
  schemas : r.classification.schemaChange = false
  signing : r.classification.signingChange = false
  security : r.classification.securityChange = false
  included : ∃ included, storedPaths u (r.brief.scope.get "included_paths") = some included ∧
    ∀ path ∈ r.classification.proposedPaths, Within u path included
  prohibited : ∃ prohibited, storedPaths u r.prohibitedPaths = some prohibited ∧
    ∀ path ∈ r.classification.proposedPaths, ¬ Within u path prohibited
  rule : ∃ rule contract, r.rules.filter (ruleMatches u r.classification) = [rule] ∧
    ruleContract u rule = some contract ∧
    (r.classification.proposedPaths.length : ℤ) ≤ contract.maxFiles ∧
    ∀ path ∈ r.classification.proposedPaths, Within u path contract.pathPrefixes

section Authorized
variable {u : Unicode} {context : ReviewContext} {classification : ReviewClassification u}
  {rules : List ReviewRule} {oneOff : Option UUID} {assessment : Assessment}
  {payload input : ReviewResolutionJobInput}

theorem pathInScope_iff {path : String} {scopes : List String} :
    pathInScope u path scopes = true ↔ Within u path scopes := by
  simp [pathInScope, Within, PurePosixPath.covers]

/-- A repair is safe when none of the reasons applies. -/
structure Safe (context : ReviewContext) (classification : ReviewClassification u) : Prop where
  actionable : classification.disposition = .actionable
  lowRisk : classification.risk = .low
  dependencies : classification.dependencyChange = false
  schemas : classification.schemaChange = false
  signing : classification.signingChange = false
  security : classification.securityChange = false
  included : ∀ path ∈ classification.proposedPaths, Within u path context.includedPaths
  prohibited : ∀ path ∈ classification.proposedPaths, ¬ Within u path context.prohibitedPaths

theorem ite_some_eq_none {α : Type} {p : Prop} [Decidable p] {a : α} {o : Option α} :
    (if p then some a else o) = none ↔ ¬ p ∧ o = none := by
  by_cases h : p <;> simp [h]

theorem safe_of_unsafeReason (h : unsafeReason u context classification = none) :
    Safe context classification := by
  simp only [unsafeReason, ite_some_eq_none] at h
  obtain ⟨hdisposition, hrisk, -, hdependency, hschema, hsigning, hsecurity, -, hscope, -⟩ := h
  have hpath : ∀ path ∈ classification.proposedPaths,
      pathInScope u path context.includedPaths = true ∧
        pathInScope u path context.prohibitedPaths = false := by simpa using hscope
  exact {
    actionable := not_not.mp hdisposition
    lowRisk := not_not.mp hrisk
    dependencies := by simpa using hdependency
    schemas := by simpa using hschema
    signing := by simpa using hsigning
    security := by simpa using hsecurity
    included := fun path hmem => pathInScope_iff.mp (hpath path hmem).1
    prohibited := fun path hmem hwithin => by
      rw [← pathInScope_iff, (hpath path hmem).2] at hwithin
      cases hwithin }

theorem contract_of_ruleMatches {rule : ReviewRule}
    (h : ruleMatches u classification rule = true) :
    ∃ contract, ruleContract u rule = some contract ∧
      (classification.proposedPaths.length : ℤ) ≤ contract.maxFiles ∧
      ∀ path ∈ classification.proposedPaths, Within u path contract.pathPrefixes := by
  unfold ruleMatches at h
  split_ifs at h with hrisk
  cases hcontract : ruleContract u rule with
  | none => simp [hcontract] at h
  | some contract =>
    simp only [hcontract] at h
    split_ifs at h with hmatch
    simp only [not_or, not_lt] at hmatch
    refine ⟨contract, rfl, hmatch.2.2, fun path hpath => pathInScope_iff.mp ?_⟩
    exact List.all_eq_true.mp h path hpath

theorem rule_of_authorization
    (h : (authorization u context classification rules oneOff).source = some "REVIEW_RULE") :
    Safe context classification ∧
      ∃ rule, rules.filter (ruleMatches u classification) = [rule] := by
  unfold authorization at h
  cases oneOff with
  | some request => simp at h
  | none =>
    by_cases hinformational : classification.disposition = .informational
    · simp [hinformational, refused] at h
    cases hreason : unsafeReason u context classification with
    | some reason => simp [hinformational, hreason, refused] at h
    | none =>
      refine ⟨safe_of_unsafeReason hreason, ?_⟩
      cases hmatches : rules.filter (ruleMatches u classification) with
      | nil => simp [hinformational, hreason, hmatches, refused] at h
      | cons rule others =>
        cases others with
        | nil => exact ⟨rule, rfl⟩
        | cons other others => simp [hinformational, hreason, hmatches, refused] at h

theorem eq_of_modelValidate (h : modelValidate u payload = some input) :
    uniquePaths u (payload.authorizedPaths.map Json.str) = some input.authorizedPaths ∧
      input = { payload with authorizedPaths := input.authorizedPaths } := by
  simp only [modelValidate, Option.bind_eq_bind, Option.bind_eq_some_iff, Option.guard_eq_some',
    Option.pure_def, Option.some.injEq] at h
  obtain ⟨-, -, paths, hpaths, rfl⟩ := h
  exact ⟨hpaths, rfl⟩

/-- The payload of a scheduled job has the source of its authorization, and the paths of the
classification in their normal form. -/
theorem eq_of_scheduledInput
    (h : scheduledInput u context classification rules oneOff assessment = some payload) :
    (authorization u context classification rules oneOff).source =
        some payload.authorizationSource ∧
      uniquePaths u (classification.proposedPaths.map Json.str) = some payload.authorizedPaths := by
  simp only [scheduledInput, Option.bind_eq_bind, Option.bind_eq_some_iff,
    Option.guard_eq_some'] at h
  obtain ⟨-, -, source, hsource, hvalid⟩ := h
  obtain ⟨hpaths, hpayload⟩ := eq_of_modelValidate hvalid
  refine ⟨?_, hpaths⟩
  rw [hsource, hpayload]

end Authorized

/-- What an authorised repair keeps to, whatever the host reports. -/
theorem inScope_of_payload {u : Unicode} {r : Review u} {payload : ReviewResolutionJobInput}
    (h : r.payload = some payload) (hrule : payload.authorizationSource = "REVIEW_RULE") :
    InScope r := by
  simp only [Review.payload, Option.bind_eq_bind, Option.bind_eq_some_iff] at h
  obtain ⟨context, hcontext, hscheduled⟩ := h
  obtain ⟨hsource, -⟩ := eq_of_scheduledInput hscheduled
  rw [hrule] at hsource
  obtain ⟨hsafe, rule, hmatches⟩ := rule_of_authorization hsource
  have hmatch : ruleMatches u r.classification rule = true := by
    have hmem : rule ∈ r.rules.filter (ruleMatches u r.classification) := by
      rw [hmatches]
      exact List.mem_singleton_self rule
    exact (List.mem_filter.mp hmem).2
  obtain ⟨contract, hcontract, hfiles, hprefixes⟩ := contract_of_ruleMatches hmatch
  simp only [Review.context, reviewContext, Option.bind_eq_bind, Option.bind_eq_some_iff,
    Option.pure_def, Option.some.injEq] at hcontext
  obtain ⟨included, hincluded, prohibited, hprohibited, _, -, rfl⟩ := hcontext
  exact {
    actionable := hsafe.actionable
    lowRisk := hsafe.lowRisk
    dependencies := hsafe.dependencies
    schemas := hsafe.schemas
    signing := hsafe.signing
    security := hsafe.security
    included := ⟨included, hincluded, hsafe.included⟩
    prohibited := ⟨prohibited, hprohibited, hsafe.prohibited⟩
    rule := ⟨rule, contract, hmatches, hcontract, hfiles, hprefixes⟩ }

/-! ### Normal forms -/

section Paths
variable {u : Unicode} {path path' : String} {paths paths' : List String}

/-- A path that its normalisation keeps. -/
def NormalPath (u : Unicode) (path : String) : Prop := repositoryPath u (.str path) = some path

instance : Decidable (NormalPath u path) := by
  unfold NormalPath
  infer_instance

/-- A path that is not in its normal form, and reaches it when it is normalised twice: once
for the input of a job and once when the job reads it. -/
def Detours (u : Unicode) (path : String) : Prop :=
  ¬ NormalPath u path ∧ ∃ once twice, repositoryPath u (.str path) = some once ∧
    repositoryPath u (.str once) = some twice ∧ NormalPath u twice

theorem uniquePaths_iff {values : List Json} :
    uniquePaths u values = some paths ↔
      List.Forall₂ (fun value path => repositoryPath u value = some path) values paths ∧
        paths.Nodup := by
  simp only [uniquePaths, Option.bind_eq_bind, Option.bind_eq_some_iff, mapM_eq_some,
    Option.guard_eq_some', Option.pure_def, Option.some.injEq]
  constructor
  · rintro ⟨_, hall, _, hnodup, rfl⟩
    exact ⟨hall, hnodup⟩
  · rintro ⟨hall, hnodup⟩
    exact ⟨paths, hall, (), hnodup, rfl⟩

theorem mem_of_uniquePaths (h : uniquePaths u (paths.map Json.str) = some paths')
    (hpath : path ∈ paths) (hnormal : repositoryPath u (.str path) = some path') :
    path' ∈ paths' := by
  obtain ⟨other, hother, heq⟩ :=
    Pages.exists_of_mem_left (uniquePaths_iff.mp h).1 (List.mem_map_of_mem hpath)
  rw [hnormal, Option.some.injEq] at heq
  rwa [heq]

theorem exists_of_uniquePaths (h : uniquePaths u (paths.map Json.str) = some paths')
    (hpath : path' ∈ paths') :
    ∃ path ∈ paths, repositoryPath u (.str path) = some path' := by
  obtain ⟨value, hvalue, heq⟩ := Pages.exists_of_mem_right (uniquePaths_iff.mp h).1 hpath
  obtain ⟨path, hpath, rfl⟩ := List.mem_map.mp hvalue
  exact ⟨path, hpath, heq⟩

/-- Accepted paths have different normal forms. -/
theorem eq_of_uniquePaths (h : uniquePaths u (paths.map Json.str) = some paths')
    {other normal : String} (hpath : path ∈ paths) (hother : other ∈ paths)
    (hnormal : repositoryPath u (.str path) = some normal)
    (hnormal' : repositoryPath u (.str other) = some normal) : path = other := by
  induction paths generalizing paths' with
  | nil => cases hpath
  | cons first rest ih =>
    obtain ⟨hall, hnodup⟩ := uniquePaths_iff.mp h
    obtain ⟨first', rest', hfirst, hrest, rfl⟩ := List.forall₂_cons_left_iff.mp hall
    obtain ⟨hfresh, hnodup⟩ := List.nodup_cons.mp hnodup
    have htail : uniquePaths u (rest.map Json.str) = some rest' :=
      uniquePaths_iff.mpr ⟨hrest, hnodup⟩
    have hdistinct {q : String} (hq : q ∈ rest)
        (hqnormal : repositoryPath u (.str q) = some normal)
        (hsame : repositoryPath u (.str first) = some normal) : False := by
      rw [hfirst, Option.some.injEq] at hsame
      exact hfresh (hsame ▸ mem_of_uniquePaths htail hq hqnormal)
    rcases List.mem_cons.mp hpath with rfl | hpathRest
    · rcases List.mem_cons.mp hother with rfl | hotherRest
      · rfl
      · exact (hdistinct hotherRest hnormal' hnormal).elim
    · rcases List.mem_cons.mp hother with rfl | hotherRest
      · exact (hdistinct hpathRest hnormal hnormal').elim
      · exact ih htail hpathRest hotherRest

/-- The changed paths that are accepted are in their normal form. -/
theorem normal_of_candidatePaths {result : List (String × Json)}
    (h : candidatePaths u ((Json.obj result).get "changed_paths") = some paths) :
    changedPaths result = paths ∧ ∀ path ∈ paths, NormalPath u path := by
  simp only [candidatePaths, Option.bind_eq_bind, Option.bind_eq_some_iff,
    Option.guard_eq_some', Option.pure_def, Option.some.injEq, mapM_eq_some] at h
  obtain ⟨values, hvalues, -, -, names, hnames, normalized, hnormalized, -, ⟨rfl, -⟩, rfl⟩ := h
  have heq : values = normalized.map Json.str := by
    clear hvalues hnormalized
    induction hnames with
    | nil => rfl
    | cons hname _ ih => rw [List.map_cons, ← ih, Json.str?_eq_some.mp hname]
  subst heq
  refine ⟨?_, ?_⟩
  · rw [changedPaths, hvalues, Option.getD_some, List.filterMap_map]
    exact List.filterMap_some
  · rw [List.forall₂_map_left_iff] at hnormalized
    have hsame := List.forall₂_same.mp hnormalized
    exact hsame

/-- A single path in its normal form is accepted. -/
theorem candidatePaths_singleton (h : NormalPath u path) :
    candidatePaths u (.arr [.str path]) = some [path] := by
  have hnormal : repositoryPath u (.str path) = some path := h
  simp [candidatePaths, Json.arr?, Json.str?, hnormal, guard]

end Paths

/-! ### White space at the ends -/

section Segments
variable {u : Unicode} {cs : List Char}

theorem slash_notMem_of_mem_splitOn {part : List Char} (h : part ∈ cs.splitOn '/') :
    '/' ∉ part := by
  induction cs generalizing part with
  | nil =>
    rw [List.splitOn_nil, List.mem_singleton] at h
    simp [h]
  | cons c cs ih =>
    rw [List.splitOn_cons_eq_if_modifyHead] at h
    split_ifs at h with hc
    · rcases List.mem_cons.mp h with rfl | h
      · simp
      · exact ih h
    · cases hsplit : cs.splitOn '/' with
      | nil => exact absurd hsplit (List.splitOn_ne_nil _ _)
      | cons first rest =>
        rw [hsplit, List.modifyHead_cons] at h
        rcases List.mem_cons.mp h with rfl | h
        · have hfirst : '/' ∉ first := ih (by rw [hsplit]; exact List.mem_cons_self)
          have hne : '/' ≠ c := fun heq => hc (beq_iff_eq.mpr heq.symm)
          exact fun hmem => (List.mem_cons.mp hmem).elim hne hfirst
        · exact ih (by rw [hsplit]; exact List.mem_cons_of_mem _ h)

/-- Segments that fall away leave characters of the text in their order. -/
theorem intercalate_filter_sublist {α : Type} (sep : List α) (p : List α → Bool)
    (ls : List (List α)) :
    (sep.intercalate (ls.filter p)).Sublist (sep.intercalate ls) := by
  induction ls with
  | nil => exact List.Sublist.refl _
  | cons l rest ih =>
    by_cases hrest : rest = []
    · subst hrest
      by_cases hl : p l = true
      · rw [List.filter_cons_of_pos hl]
        exact List.Sublist.refl _
      · rw [List.filter_cons_of_neg hl]
        exact List.nil_sublist _
    · rw [List.intercalate_cons_of_ne_nil hrest]
      by_cases hl : p l = true
      · rw [List.filter_cons_of_pos hl]
        by_cases hkept : rest.filter p = []
        · rw [hkept, List.intercalate_singleton, List.append_assoc]
          exact List.sublist_append_left _ _
        · rw [List.intercalate_cons_of_ne_nil hkept]
          exact (List.Sublist.refl _).append ih
      · rw [List.filter_cons_of_neg hl]
        exact ih.trans (List.sublist_append_right _ _)

/-- What a relative path is written as is made of characters of its text. -/
theorem asPosix_sublist (hne : cs ≠ []) (hhead : cs.head? ≠ some '/')
    (hroot : (PurePosixPath.ofText cs).root = 0) :
    (PurePosixPath.ofText cs).asPosix.Sublist cs := by
  unfold PurePosixPath.asPosix
  split_ifs with hparts
  · cases cs with
    | nil => exact absurd rfl hne
    | cons c rest =>
      have hc : (c == '/') = false := by simpa using hhead
      cases hsplit : rest.splitOn '/' with
      | nil => exact absurd hsplit (List.splitOn_ne_nil _ _)
      | cons first others =>
        have hfiltered := hparts.2
        simp only [PurePosixPath.ofText, List.splitOn_cons_eq_if_modifyHead, hc, hsplit,
          Bool.false_eq_true, if_false, List.modifyHead_cons, List.filter_eq_nil_iff] at hfiltered
        have hdot := hfiltered (c :: first) List.mem_cons_self
        obtain ⟨rfl, -⟩ : c = '.' ∧ first = [] := by simpa using hdot
        exact (List.nil_sublist rest).cons_cons _
  · rw [hroot, List.replicate_zero, List.nil_append]
    have hsublist := intercalate_filter_sublist ['/']
      (fun part : List Char => part ≠ [] && part ≠ ['.']) (cs.splitOn '/')
    rwa [List.intercalate_splitOn] at hsublist

theorem rootOf_eq_zero (h : cs.head? ≠ some '/') : PurePosixPath.rootOf cs = 0 := by
  unfold PurePosixPath.rootOf
  split <;> simp_all

/-- A relative path is read back from what it is written as. -/
theorem ofText_asPosix (hroot : (PurePosixPath.ofText cs).root = 0) :
    PurePosixPath.ofText (PurePosixPath.ofText cs).asPosix = PurePosixPath.ofText cs ∧
      (PurePosixPath.ofText cs).asPosix.head? ≠ some '/' ∧
      (PurePosixPath.ofText cs).asPosix.getLast? ≠ some '/' := by
  by_cases hparts : (PurePosixPath.ofText cs).parts = []
  · have hdot : (PurePosixPath.ofText cs).asPosix = ['.'] := by
      simp [PurePosixPath.asPosix, hroot, hparts]
    have heq : PurePosixPath.ofText cs = ⟨0, []⟩ := by
      rw [← hroot, ← hparts]
    rw [hdot, heq]
    decide
  · have hjoined : (PurePosixPath.ofText cs).asPosix =
        ['/'].intercalate (PurePosixPath.ofText cs).parts := by
      simp [PurePosixPath.asPosix, hroot, hparts]
    have hpart : ∀ part ∈ (PurePosixPath.ofText cs).parts,
        '/' ∉ part ∧ part ≠ [] ∧ part ≠ ['.'] := by
      intro part hpart
      obtain ⟨hmem, hkept⟩ := List.mem_filter.mp hpart
      exact ⟨slash_notMem_of_mem_splitOn hmem, by simpa using hkept⟩
    have hsplit : ((PurePosixPath.ofText cs).asPosix).splitOn '/' =
        (PurePosixPath.ofText cs).parts := by
      rw [hjoined]
      exact List.splitOn_intercalate '/' (fun part h => (hpart part h).1) hparts
    have hnil : [] ∉ ((PurePosixPath.ofText cs).asPosix).splitOn '/' := by
      rw [hsplit]
      exact fun h => (hpart [] h).2.1 rfl
    have hhead : (PurePosixPath.ofText cs).asPosix.head? ≠ some '/' := by
      intro h
      obtain ⟨rest, hrest⟩ := List.head?_eq_some_iff.mp h
      rw [hrest, splitOn_slash] at hnil
      exact hnil List.mem_cons_self
    have hlast : (PurePosixPath.ofText cs).asPosix.getLast? ≠ some '/' := by
      intro h
      obtain ⟨front, hfront⟩ := List.getLast?_eq_some_iff.mp h
      rw [hfront, List.splitOn_append_cons_self, List.splitOn_nil] at hnil
      exact hnil (List.mem_append_right _ List.mem_cons_self)
    refine ⟨?_, hhead, hlast⟩
    have hfilter : (PurePosixPath.ofText cs).parts.filter
        (fun part => part ≠ [] && part ≠ ['.']) = (PurePosixPath.ofText cs).parts :=
      List.filter_eq_self.mpr fun part h => by simpa using (hpart part h).2
    rw [PurePosixPath.ofText, rootOf_eq_zero hhead, hsplit, hfilter, ← hroot]

end Segments

/-- The text a path is taken apart from. -/
def slashed (u : Unicode) (text : List Char) : List Char :=
  (u.strip text).map fun c => if c = '\\' then '/' else c

theorem strip_sublist (u : Unicode) (text : List Char) : (u.strip text).Sublist text :=
  (List.rdropWhile_prefix _ _).sublist.trans (List.dropWhile_sublist _)

theorem backslash_notMem_slashed (u : Unicode) (text : List Char) : '\\' ∉ slashed u text := by
  intro h
  obtain ⟨c, -, hc⟩ := List.mem_map.mp h
  split_ifs at hc with hbackslash
  · cases hc
  · exact hbackslash hc

theorem repositoryPath_eq_some {u : Unicode} {text path : String} :
    repositoryPath u (.str text) = some path ↔
      (slashed u text.toList ≠ [] ∧ (slashed u text.toList).head? ≠ some '/' ∧
        (slashed u text.toList).getLast? ≠ some '/' ∧
        (PurePosixPath.ofText (slashed u text.toList)).root = 0 ∧
        (PurePosixPath.ofText (slashed u text.toList)).parts.any
          (fun part => [[], ['.'], ['.', '.']].contains part) = false ∧
        (slashed u text.toList).length ≤ 500) ∧
      path.toList = (PurePosixPath.ofText (slashed u text.toList)).asPosix := by
  simp only [repositoryPath, slashed]
  split_ifs with h
  · refine iff_of_false (by simp) ?_
    rintro ⟨⟨hne, hhead, hlast, hroot, hdots, hlength⟩, -⟩
    rcases h with h | h | h | h | h | h
    · exact hne h
    · exact hhead h
    · exact hlast h
    · exact h hroot
    · rw [hdots] at h
      cases h
    · exact not_lt.mpr hlength h
  · simp only [not_or, not_lt, not_not, Bool.not_eq_true] at h
    constructor
    · intro hpath
      rw [← Option.some.inj hpath, String.toList_ofList]
      exact ⟨h, rfl⟩
    · rintro ⟨-, heq⟩
      rw [← heq, String.ofList_toList]

/-- **A path in its normal form stays** when no white space stands at its ends. -/
theorem normalPath_iff_strip {u : Unicode} {text path : String}
    (h : repositoryPath u (.str text) = some path) :
    NormalPath u path ↔ u.strip path.toList = path.toList := by
  obtain ⟨⟨hne, hhead, hlast, hroot, hdots, hlength⟩, heq⟩ := repositoryPath_eq_some.mp h
  have hsub := asPosix_sublist hne hhead hroot
  rw [← heq] at hsub
  constructor
  · intro hnormal
    obtain ⟨⟨hne', hhead', -, hroot', -⟩, heq'⟩ := repositoryPath_eq_some.mp hnormal
    have hshorter := (asPosix_sublist hne' hhead' hroot').length_le
    rw [← heq', slashed, List.length_map] at hshorter
    exact (strip_sublist u path.toList).eq_of_length_le hshorter
  · intro hstrip
    have hslashed : slashed u path.toList = path.toList := by
      rw [slashed, hstrip]
      have hkept : ∀ c ∈ path.toList, (if c = '\\' then '/' else c) = c := by
        intro c hc
        refine if_neg fun hbackslash => ?_
        subst hbackslash
        exact backslash_notMem_slashed u text.toList (hsub.subset hc)
      rw [List.map_congr_left hkept, List.map_id']
    obtain ⟨hround, hfirst, hfinal⟩ := ofText_asPosix hroot
    rw [← heq] at hround hfirst hfinal
    refine repositoryPath_eq_some.mpr ?_
    rw [hslashed, hround]
    refine ⟨⟨fun hnil => ?_, hfirst, hfinal, hroot, hdots, hsub.length_le.trans hlength⟩, heq⟩
    have hempty : PurePosixPath.ofText (slashed u text.toList) = ⟨0, []⟩ := by
      rw [← hround, hnil]
      rfl
    rw [hempty, hnil] at heq
    exact absurd heq (by decide)

/-- A classified path takes a detour when white space stands at its ends and is gone once it
has been normalised twice more. -/
theorem detours_iff {u : Unicode} {classification : ReviewClassification u} {path : String}
    (h : path ∈ classification.proposedPaths) :
    Detours u path ↔ u.strip path.toList ≠ path.toList ∧
      ∃ once twice, repositoryPath u (.str path) = some once ∧
        repositoryPath u (.str once) = some twice ∧ u.strip twice.toList = twice.toList := by
  obtain ⟨values, hvalues⟩ := classification.normalized
  obtain ⟨value, -, hvalue⟩ := Pages.exists_of_mem_right (uniquePaths_iff.mp hvalues).1 h
  obtain ⟨text, rfl⟩ : ∃ text, value = .str text := by
    cases value with
    | str text => exact ⟨text, rfl⟩
    | _ => cases hvalue
  refine and_congr (not_congr (normalPath_iff_strip hvalue)) ?_
  refine exists_congr fun once => exists_congr fun twice => and_congr_right fun _ => ?_
  exact and_congr_right fun htwice => normalPath_iff_strip htwice

/-! ### Candidates -/

section Candidates
variable {u : Unicode} {response : HostAgent.HostResponse}
  {payload input : ReviewResolutionJobInput}
  {fencingToken : ℤ} {result : List (String × Json)}

theorem of_validatedCandidateResponse
    (h : validatedCandidateResponse u response input fencingToken = .ok result) :
    ∀ path ∈ changedPaths result, path ∈ input.authorizedPaths ∧ NormalPath u path := by
  unfold validatedCandidateResponse at h
  cases hchanged : candidatePaths u ((Json.obj response.result).get "changed_paths") with
  | none => simp [hchanged] at h
  | some changed =>
    cases hhead : ((Json.obj response.result).get "head_sha").str? with
    | none => simp [hchanged, hhead] at h
    | some head =>
      cases htree : ((Json.obj response.result).get "tree_sha").str? with
      | none => simp [hchanged, hhead, htree] at h
      | some tree =>
        simp only [hchanged, hhead, htree] at h
        split_ifs at h with hvalid
        obtain ⟨-, -, -, -, hauthorized, -⟩ := hvalid
        obtain rfl := Except.ok.inj h
        obtain ⟨heq, hnormal⟩ := normal_of_candidatePaths hchanged
        rw [heq]
        exact fun path hpath => ⟨hauthorized path hpath, hnormal path hpath⟩

theorem of_repair {services : RepairServices} {taskId : UUID}
    (h : repair u services taskId fencingToken payload = .ok (input, result)) :
    modelValidate u payload = some input ∧
      validatedCandidateResponse u (services.execute input) input fencingToken = .ok result := by
  simp only [repair, Except.bind_eq_ok, Except.orThrow_eq_ok, Except.require_eq_ok,
    Except.pure_eq_ok, Prod.mk.injEq] at h
  obtain ⟨_, hinput, _, -, _, -, _, -, _, -, _, hresult, _, -, _, -, rfl, rfl⟩ := h
  exact ⟨hinput, hresult⟩

/-- An object name of one digit. -/
def repeated (digit : Char) : String := String.ofList (List.replicate 40 digit)

/-- The name of another commit. -/
def otherHead (originalHeadSha : String) : String :=
  if originalHeadSha = repeated 'a' then repeated 'b' else repeated 'a'

theorem otherHead_ne (originalHeadSha : String) : otherHead originalHeadSha ≠ originalHeadSha := by
  unfold otherHead
  split_ifs with h
  · rw [h]
    decide
  · exact Ne.symm h

theorem isGitObject_otherHead (originalHeadSha : String) :
    Validation.isGitObject (otherHead originalHeadSha).toList = true := by
  unfold otherHead
  split_ifs
  · decide
  · decide

/-- A commit of one path, as the host reports it. -/
def commitResult (originalHeadSha path : String) : List (String × Json) :=
  [("committed", .bool true), ("clean", .bool true), ("changed_paths", .arr [.str path]),
    ("head_sha", .str (otherHead originalHeadSha)), ("tree_sha", .str (repeated 'a'))]

def commitResponse (fencingToken : ℤ) (originalHeadSha path : String) :
    HostAgent.HostResponse where
  status := .ok
  code := "OK"
  result := commitResult originalHeadSha path
  replayed := false
  executionFencingToken := some fencingToken

/-- Services that refuse nothing, with a host that commits one path. -/
def committing (fencingToken : ℤ) (path : String) : RepairServices where
  beginRepair := fun _ => .ok ()
  hermesStatus := fun _ => some "SUCCEEDED"
  configurationCurrent := fun _ => true
  execute := fun input => commitResponse fencingToken input.originalHeadSha path
  captureCandidate := fun input _ => .ok input.taskEventId
  revalidate := fun _ _ => .ok ()

theorem changedPaths_commitResult (originalHeadSha path : String) :
    changedPaths (commitResult originalHeadSha path) = [path] := rfl

theorem validated_commitResponse {path : String} (hnormal : NormalPath u path)
    (hpath : path ∈ input.authorizedPaths) :
    validatedCandidateResponse u (commitResponse fencingToken input.originalHeadSha path) input
      fencingToken = .ok (commitResult input.originalHeadSha path) := by
  have hchanged : candidatePaths u
      ((Json.obj (commitResult input.originalHeadSha path)).get "changed_paths") = some [path] :=
    candidatePaths_singleton hnormal
  have hhead : ((Json.obj (commitResult input.originalHeadSha path)).get "head_sha").str? =
      some (otherHead input.originalHeadSha) := rfl
  have htree : ((Json.obj (commitResult input.originalHeadSha path)).get "tree_sha").str? =
      some (repeated 'a') := rfl
  have htreeObject : Validation.isGitObject (repeated 'a').toList = true := by decide
  simp only [validatedCandidateResponse, commitResponse, hchanged, hhead, htree]
  refine if_pos ⟨trivial, .inl trivial, rfl, rfl, ?_, isGitObject_otherHead _, otherHead_ne _,
    htreeObject⟩
  intro changed hmem
  rwa [List.mem_singleton.mp hmem]

theorem repair_committing {path : String} (hinput : modelValidate u payload = some input)
    (hnormal : NormalPath u path) (hpath : path ∈ input.authorizedPaths) :
    repair u (committing fencingToken path) input.taskId fencingToken payload =
      .ok (input, commitResult input.originalHeadSha path) := by
  have hvalidated : validatedCandidateResponse u
      (commitResponse fencingToken input.originalHeadSha path) input fencingToken =
      .ok (commitResult input.originalHeadSha path) := validated_commitResponse hnormal hpath
  simp only [repair, hinput, Except.orThrow, Except.require, committing, hvalidated, bind,
    Except.bind, pure, Except.pure, if_true]

end Candidates
/-! ### Repairs -/

/-- Whatever the services do, a repair that a rule authorised and that reaches its validation
changes proposed paths only, and these keep to what the rule allows. -/
def Bounded {u : Unicode} (r : Review u) : Prop :=
  ∀ services taskId fencingToken payload input result, r.payload = some payload →
    payload.authorizationSource = "REVIEW_RULE" →
    repair u services taskId fencingToken payload = .ok (input, result) →
    (∀ path ∈ changedPaths result, path ∈ r.classification.proposedPaths) ∧ InScope r

/-- **Every repair keeps to the paths that were proposed** exactly when none of them takes a
detour to its normal form. -/
theorem repairs_bounded_iff {u : Unicode} (r : Review u) :
    Bounded r ↔
      (r.AuthorizedByRule → ∀ path ∈ r.classification.proposedPaths, ¬ Detours u path) := by
  constructor
  · rintro h ⟨payload, hpayload, hrule, hvalid⟩ path hpath ⟨hchanged, once, twice, honce, htwice,
      hnormal⟩
    obtain ⟨input, hinput⟩ := Option.isSome_iff_exists.mp hvalid
    obtain ⟨context, -, hscheduled⟩ : ∃ context, r.context = some context ∧
        scheduledInput u context r.classification r.rules r.oneOff r.assessment = some payload := by
      simpa [Review.payload, Option.bind_eq_some_iff] using hpayload
    have hfirst := (eq_of_scheduledInput hscheduled).2
    have hsecond := (eq_of_modelValidate hinput).1
    have honceMem := mem_of_uniquePaths hfirst hpath honce
    have htwiceMem := mem_of_uniquePaths hsecond honceMem htwice
    have hproposed : twice ∈ r.classification.proposedPaths :=
      (h (committing 1 twice) input.taskId 1 payload input _ hpayload hrule
        (repair_committing hinput hnormal htwiceMem)).1 twice
        (by rw [changedPaths_commitResult]; exact List.mem_singleton_self twice)
    -- The path and its normal form would be two paths of the job with one normal form.
    have hkept := mem_of_uniquePaths hfirst hproposed hnormal
    obtain rfl := eq_of_uniquePaths hsecond honceMem hkept htwice hnormal
    obtain rfl := eq_of_uniquePaths hfirst hpath hproposed honce hnormal
    exact hchanged hnormal
  · intro h services taskId fencingToken payload input result hpayload hrule hrepair
    obtain ⟨hinput, hresult⟩ := of_repair hrepair
    refine ⟨fun path hpath => ?_, inScope_of_payload hpayload hrule⟩
    obtain ⟨hauthorized, hnormal⟩ := of_validatedCandidateResponse hresult path hpath
    obtain ⟨context, -, hscheduled⟩ : ∃ context, r.context = some context ∧
        scheduledInput u context r.classification r.rules r.oneOff r.assessment = some payload := by
      simpa [Review.payload, Option.bind_eq_some_iff] using hpayload
    obtain ⟨once, honceMem, hsecond⟩ :=
      exists_of_uniquePaths (eq_of_modelValidate hinput).1 hauthorized
    obtain ⟨original, horiginal, hfirst⟩ :=
      exists_of_uniquePaths (eq_of_scheduledInput hscheduled).2 honceMem
    have hkept : NormalPath u original := by
      by_contra hchanged
      exact h ⟨payload, hpayload, hrule, by rw [hinput]; rfl⟩ original horiginal
        ⟨hchanged, once, path, hfirst, hsecond, hnormal⟩
    rw [hkept, Option.some.injEq] at hfirst
    subst hfirst
    rw [hkept, Option.some.injEq] at hsecond
    rwa [← hsecond]

namespace DetourExample

def classification : ReviewClassification .ascii where
  disposition := .actionable
  category := "style"
  action := "code.edit"
  risk := .low
  labels := []
  proposedPaths := ["a", "b "]
  -- The white space comes to the end of the path when the segment after it falls away.
  normalized := ⟨[.str "a", .str "b /."], by decide +kernel⟩
  few := by decide

def rule : ReviewRule where
  id := .ofNat 1
  lineageKey := "style"
  version := 1
  predecessorId := none
  candidateId := .ofNat 2
  approvalRequestId := .ofNat 3
  scope := .obj [("path_prefixes", .arr [.str "."]), ("max_files", .int 2)]
  matcher := .obj [("categories", .arr [.str "style"]), ("required_labels", .arr [])]
  permittedAction := "code.edit"
  riskClass := "LOW"
  evidenceRequirements := ["github-webhook"]
  approvedBy := "owner"
  approvedAt := 1
  ownerId := "owner"

/-- The root is included, and `b` is prohibited. -/
def review : Review .ascii where
  task := ⟨.ofNat 10, "mathews", "", "", "", .prActive, none, none, none, none, 0, none, none,
    "owner", .ofNat 10, none, none⟩
  taskEventId := .ofNat 11
  headSha := repeated 'c'
  path := "a"
  brief :=
    { id := .ofNat 12, taskId := .ofNat 10
      scope := .obj [("included_paths", .arr [.str "."])] }
  contract := ⟨.ofNat 13, .ofNat 10, 1, .ofNat 12⟩
  configuration := { id := .ofNat 14, version := 1 }
  prohibitedPaths := .arr [.str "b"]
  policy := ⟨.ofNat 15, "mvp", 1, .obj [], 1, "owner"⟩
  rules := [rule]
  oneOff := none
  classification := classification
  assessment :=
    ⟨.ofNat 16, String.ofList (List.replicate 64 'd'), String.ofList (List.replicate 64 'e')⟩

/-- The source of the authorization, and what the committed candidate changes. -/
def run : Option (String × Option (List String)) := do
  let payload ← review.payload
  return (payload.authorizationSource,
    (repair .ascii (committing 1 "b") (.ofNat 10) 1 payload).toOption.map
      fun reached => changedPaths reached.2)

theorem run_eq : run = some ("REVIEW_RULE", some ["b"]) := by decide +kernel

end DetourExample

open DetourExample in
/-- A repair changes a path that was not proposed and that the configuration prohibits. -/
theorem not_repairs_bounded : ¬ ∀ (u : Unicode) (r : Review u), Bounded r := by
  intro h
  have hrun := run_eq
  simp only [run, Option.bind_eq_bind, Option.bind_eq_some_iff, Option.pure_def,
    Option.some.injEq, Prod.mk.injEq, Option.map_eq_some_iff] at hrun
  obtain ⟨payload, hpayload, hrule, ⟨input, result⟩, hrepair, hchanged⟩ := hrun
  have hreached : repair .ascii (committing 1 "b") (.ofNat 10) 1 payload = .ok (input, result) := by
    cases hcases : repair .ascii (committing 1 "b") (.ofNat 10) 1 payload with
    | error e => simp [hcases, Except.toOption] at hrepair
    | ok reached =>
      rw [hcases] at hrepair
      exact congrArg _ (Option.some.inj hrepair)
  have hbounded := (h .ascii review (committing 1 "b") (.ofNat 10) 1 payload input result hpayload
    hrule hreached).1
  simp only at hchanged
  rw [hchanged] at hbounded
  exact absurd (hbounded "b" List.mem_cons_self) (by decide)

end ControlPlane.ReviewResolution
