import ControlPlane.Tools.Scope

/-!
# The approval policy of briefs

A brief is accepted without a human when nothing about it is flagged: no ambiguity, no wider
scope, only low risks and operations that are allowed beforehand, and no path that overlaps a
sensitive one.

## Main definitions

* `evaluatePolicy`
* `pathScopesOverlap`: how the policy compares a path with a sensitive one.
-/
namespace ControlPlane

open Regex Regex.Re

inductive RiskLevel where
  | low | medium | high
  deriving DecidableEq, Repr

def RiskLevel.value : RiskLevel → String
  | low => "LOW"
  | medium => "MEDIUM"
  | high => "HIGH"

/-! ### Paths and identifiers -/

/-- The canonical form of a path relative to the repository. -/
def repositoryPath (u : Unicode) (value : String) : Option String :=
  let path := u.strip value.toList
  let candidate := PurePosixPath.ofText path
  if path = [] ∨ 500 < path.length ∨ path.head? = some '/' ∨ path.head? = some '~' ∨ '\\' ∈ path ∨
      candidate.parts.any (fun part => [[], ['.'], ['.', '.']].contains part) then none
  else some (String.ofList candidate.asPosix)

/-- The texts are equal, or one continues the other after a slash. -/
def pathScopesOverlap (path sensitivePath : String) : Bool :=
  path = sensitivePath || (sensitivePath.toList ++ ['/']).isPrefixOf path.toList ||
    (path.toList ++ ['/']).isPrefixOf sensitivePath.toList

def briefIdentifier : Pattern :=
  seq (cls alnum) (many true 0 (some 127) (cls (.union alnum (oneOf "._:/-"))))

/-- The identifiers of a policy; none when one of them is not one. -/
def policyIdentifiers (u : Unicode) (value : Json) : List String :=
  match value with
  | .arr items =>
    let identifiers := items.filterMap Json.str?
    if 100 < items.length ∨ identifiers.length ≠ items.length ∨ ¬ identifiers.Nodup ∨
        identifiers.any (fun item => !briefIdentifier.fullmatch (CharClass.holds u) item.toList)
      then []
    else identifiers
  | _ => []

def policyPaths (u : Unicode) (value : Json) : Option (List String) :=
  match value with
  | .arr items => do
    guard (items.length ≤ 100)
    let paths ← (items.filterMap Json.str?).mapM (repositoryPath u)
    guard (paths.length = items.length ∧ paths.Nodup)
    return paths
  | _ => none

def approvalHours : Json → Option ℤ
  | .int n => if 1 ≤ n ∧ n ≤ 168 then some n else none
  | _ => none

/-! ### Drafts -/

structure BriefOperation where
  operationId : String
  risk : RiskLevel
  rationale : String

/-- The scope of a draft; its paths are in canonical form. -/
structure BriefScope (u : Unicode) where
  objective : String
  includedPaths : List String
  operations : List BriefOperation
  scopeExpansion : Bool := false
  included_ne_nil : includedPaths ≠ []
  canonical : ∀ path ∈ includedPaths, ∃ value, repositoryPath u value = some path
  nodup : includedPaths.Nodup

structure RiskAssessment where
  riskId : String
  level : RiskLevel

/-- What the policy reads of a draft. -/
structure StructuredBriefDraft (u : Unicode) where
  scope : BriefScope u
  risks : List RiskAssessment
  ambiguityFlags : List String := []

def BriefOperation.toDict (o : BriefOperation) : Json :=
  .obj [("operation_id", .str o.operationId), ("risk", .str o.risk.value),
    ("rationale", .str o.rationale)]

/-- The scope as a brief stores it. -/
def BriefScope.toDict {u : Unicode} (scope : BriefScope u) : Json :=
  .obj [("objective", .str scope.objective),
    ("included_paths", .arr (scope.includedPaths.map .str)),
    ("operations", .arr (scope.operations.map BriefOperation.toDict)),
    ("scope_expansion", .bool scope.scopeExpansion)]

/-! ### The evaluation -/

def builtInSensitivePaths : List String :=
  [".github/workflows", "Package.resolved", "package-lock.json", "pyproject.toml", "uv.lock"]

/-- What a policy says about the approval of briefs. -/
structure BriefApprovalPolicy where
  preallowed : List String := []
  sensitive : List String := []
  approvalHours : ℤ := 24
  wellFormed : Bool := false

/-- A policy that is not well formed allows nothing. -/
def briefApprovalPolicy (u : Unicode) (policy : PolicyVersion) : BriefApprovalPolicy :=
  let raw := policy.workflowThresholds.get "brief_approval_policy"
  if raw.obj?.isNone || !raw.hasKeys
        ["schema_version", "preallowed_operations", "sensitive_path_prefixes",
          "approval_lifetime_hours"] ||
      !(raw.get "schema_version").pyEq (.int 1) then {}
  else
    let preallowed := policyIdentifiers u (raw.get "preallowed_operations")
    let sensitive := policyPaths u (raw.get "sensitive_path_prefixes")
    let hours := ControlPlane.approvalHours (raw.get "approval_lifetime_hours")
    { preallowed
      sensitive := sensitive.getD []
      approvalHours := hours.getD 24
      wellFormed := !preallowed.isEmpty && sensitive.isSome && hours.isSome }

structure BriefPolicyEvaluation where
  disposition : BriefDecisionDisposition
  reason : String
  flags : List String
  approvalLifetimeHours : ℤ

/-- Every path no brief opens without a human. -/
def sensitivePaths (u : Unicode) (policy : PolicyVersion) (prohibited : List String) :
    List String :=
  builtInSensitivePaths ++ (briefApprovalPolicy u policy).sensitive ++ prohibited

/-- What is flagged about a draft, in the order it is found. -/
def policyFlags {u : Unicode} (draft : StructuredBriefDraft u) (policy : PolicyVersion)
    (prohibited : List String) (configurationValid : Bool) : List String :=
  let approval := briefApprovalPolicy u policy
  draft.ambiguityFlags ++
  (if draft.scope.scopeExpansion then ["SCOPE_EXPANSION"] else []) ++
  (if configurationValid then [] else ["REPOSITORY_CONFIGURATION_INVALID"]) ++
  (if approval.wellFormed then [] else ["POLICY_CONFIGURATION_INVALID"]) ++
  (draft.scope.includedPaths.filter fun path =>
    (sensitivePaths u policy prohibited).any (pathScopesOverlap path)).map
      ("SENSITIVE_PATH:" ++ ·) ++
  draft.scope.operations.flatMap (fun operation =>
    (if approval.preallowed.contains operation.operationId then []
      else ["OPERATION_NOT_PREALLOWED:" ++ operation.operationId]) ++
    (if operation.risk = .low then []
      else ["OPERATION_RISK_NOT_LOW:" ++ operation.operationId])) ++
  (draft.risks.filter (·.level ≠ .low)).map ("RISK_NOT_LOW:" ++ ·.riskId)

/-- Accept a draft about which nothing is flagged. -/
def evaluatePolicy {u : Unicode} (draft : StructuredBriefDraft u) (policy : PolicyVersion)
    (prohibited : List String) (configurationValid : Bool) : BriefPolicyEvaluation :=
  let flags := (policyFlags draft policy prohibited configurationValid).eraseDups
  let approvalLifetimeHours := (briefApprovalPolicy u policy).approvalHours
  if flags = [] then
    { disposition := .autoAcceptedByPolicy
      reason := "Complete low-risk brief matched the active approval policy"
      flags, approvalLifetimeHours }
  else
    { disposition := .humanApprovalRequired
      reason := "Exact brief requires human approval"
      flags, approvalLifetimeHours }

end ControlPlane
