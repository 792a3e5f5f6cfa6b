import ControlPlane.Hermes.Runs

/-!
# The scope of a tool

What a tool proposal names, and whether that lies in the scope of a brief and outside the
paths a configuration prohibits: arguments in their normal form, paths taken apart into
their segments, and the fields of a host's result that carry paths.
-/
namespace ControlPlane

open Regex Regex.Re

inductive ScopedToolName where
  | listFiles | readFile | search | diff | applyPatch
  deriving DecidableEq, Repr

def ScopedToolName.value : ScopedToolName → String
  | listFiles => "workspace.list_files"
  | readFile => "workspace.read_file"
  | search => "workspace.search"
  | diff => "workspace.diff"
  | applyPatch => "git.apply_patch"

def toolNames : List String :=
  ["workspace.list_files", "workspace.read_file", "workspace.search", "workspace.diff",
    "git.apply_patch"]

structure HermesToolProposalRequest where
  proposalId : String
  toolName : ScopedToolName
  arguments : List (String × Json)

/-! ### Paths -/

/-- A path taken apart: its leading slashes, two of which are a root of their own, and its
segments; empty segments and `.` do not count. -/
structure PurePosixPath where
  root : ℕ
  parts : List (List Char)
  deriving DecidableEq

namespace PurePosixPath

def rootOf : List Char → ℕ
  | '/' :: '/' :: '/' :: _ => 1
  | '/' :: '/' :: _ => 2
  | '/' :: _ => 1
  | _ => 0

def ofText (cs : List Char) : PurePosixPath where
  root := rootOf cs
  parts := (cs.splitOn '/').filter fun part => part ≠ [] && part ≠ ['.']

def asPosix (p : PurePosixPath) : List Char :=
  if p.root = 0 ∧ p.parts = [] then ['.']
  else List.replicate p.root '/' ++ List.intercalate ['/'] p.parts

/-- The path is the other one or among its parents. -/
def covers (p q : PurePosixPath) : Bool := p.root = q.root && p.parts.isPrefixOf q.parts

end PurePosixPath

/-- A relative path in its normal form. -/
def toolPath (value : Json) (allowRoot : Bool) : Option String :=
  match value with
  | .str s =>
    let cs := s.toList
    if 4096 < cs.length then none
    else if cs = ['.'] then if allowRoot then some s else none
    else
      let path := PurePosixPath.ofText cs
      if cs = [] ∨ path.root ≠ 0 ∨ path.asPosix ≠ cs ∨ '\\' ∈ cs ∨
          path.parts.any (fun part => [[], ['.'], ['.', '.']].contains part) ∨
          cs.any (fun c => c.toNat < 32) then none
      else some s
  | _ => none

def toolLimit : Json → Option ℤ
  | .int n => if 0 < n ∧ n ≤ 200 then some n else none
  | _ => none

/-- A path without regard to case. -/
def foldedPath (u : Unicode) (path : String) : PurePosixPath := .ofText (u.casefold path.toList)

def pathInScope (u : Unicode) (path : String) (included : List String) : Bool :=
  included.any fun value =>
    foldedPath u value = .ofText ['.'] || (foldedPath u value).covers (foldedPath u path)

/-- `prohibited` are paths whose case was folded before. -/
def pathProhibited (u : Unicode) (path : String) (prohibited : List (List Char)) : Bool :=
  prohibited.any fun value => (PurePosixPath.ofText value).covers (foldedPath u path)

/-! ### Arguments -/

def toolDigest : Pattern :=
  seq (lit "sha256:") (exactly 64 (cls (.union decimal (.range 'a' 'f'))))

def toolGitObject : Pattern :=
  alt (exactly 40 (cls (.union decimal (.range 'a' 'f'))))
    (exactly 64 (cls (.union decimal (.range 'a' 'f'))))

def isGitObject (u : Unicode) (value : String) : Bool :=
  toolGitObject.fullmatch (CharClass.holds u) value.toList

def isToolDigest (u : Unicode) : Json → Bool
  | .null => true
  | .str s => toolDigest.fullmatch (CharClass.holds u) s.toList
  | _ => false

/-- The changes of a patch in their normal form, after the paths and the bytes before. -/
def normalizeChanges (u : Unicode) : List String → ℕ → List Json → Option (List Json)
  | _, _, [] => some []
  | seen, total, raw :: rest => do
    guard (raw.obj?.isSome && raw.hasKeys ["path", "expected_digest", "content"])
    let path ← toolPath (raw.get "path") false
    let digest := raw.get "expected_digest"
    let content := raw.get "content"
    guard (!seen.contains path)
    guard (isToolDigest u digest)
    guard (content.isNull || content.str?.isSome)
    guard (!(content.isNull && digest.isNull))
    let total := total + (content.str?.map String.utf8ByteSize).getD 0
    guard (total ≤ 256 * 1024)
    let changes ← normalizeChanges u (path :: seen) total rest
    return .obj [("path", .str path), ("expected_digest", digest), ("content", content)] :: changes

def normalizeArguments (u : Unicode) (proposal : HermesToolProposalRequest) :
    Option (List (String × Json)) :=
  let arguments := Json.obj proposal.arguments
  match proposal.toolName with
  | .diff => if proposal.arguments = [] then some [] else none
  | .readFile => do
    guard (arguments.hasKeys ["path"])
    let path ← toolPath (arguments.get "path") false
    return [("path", .str path)]
  | .listFiles => do
    guard (arguments.hasKeys ["path_prefix", "limit"])
    let pathPrefix ← toolPath (arguments.get "path_prefix") true
    let limit ← toolLimit (arguments.get "limit")
    return [("path_prefix", .str pathPrefix), ("limit", .int limit)]
  | .search => do
    guard (arguments.hasKeys ["query", "path_prefix", "limit"])
    let query ← (arguments.get "query").str?
    guard (query ≠ "" && query.utf8ByteSize ≤ 1000)
    let pathPrefix ← toolPath (arguments.get "path_prefix") true
    let limit ← toolLimit (arguments.get "limit")
    return [("query", .str query), ("path_prefix", .str pathPrefix), ("limit", .int limit)]
  | .applyPatch => do
    guard (arguments.hasKeys ["changes"])
    let raw ← (arguments.get "changes").arr?
    guard (0 < raw.length && raw.length ≤ 32)
    let changes ← normalizeChanges u [] 0 raw
    return [("changes", .arr changes)]

/-- The paths a proposal names, in arguments of normal form. -/
def proposalPaths (tool : ScopedToolName) (arguments : List (String × Json)) : List String :=
  match tool with
  | .diff => []
  | .readFile => ((Json.obj arguments).get "path").str?.toList
  | .listFiles | .search => ((Json.obj arguments).get "path_prefix").str?.toList
  | .applyPatch =>
    (((Json.obj arguments).get "changes").arr?.getD []).filterMap fun change =>
      (change.get "path").str?

/-- The paths a brief includes; none when one of them is not a path. -/
def includedPaths (brief : Brief) : List String :=
  match brief.scope.get "included_paths" with
  | .arr raw => (raw.mapM fun path => toolPath path true).getD []
  | _ => []

/-! ### Policies and configurations -/

/-- The operation a policy requires for each tool it allows. -/
def policyTools (u : Unicode) (policy : PolicyVersion) : List (String × String) :=
  let raw := policy.workflowThresholds.get "hermes_tool_policy"
  if !(raw.get "schema_version").pyEq (.int 1) then []
  else
    match (raw.get "tools").obj? with
    | none => []
    | some tools =>
      if tools.any (fun tool => !toolNames.contains tool.1) then []
      else
        (tools.mapM fun (tool : String × Json) => do
          let operation ← tool.2.str?
          guard (hermesIdentifier.fullmatch (CharClass.holds u) operation.toList)
          return (tool.1, operation)).getD []

/-- A configuration as the shared configuration library validates it. -/
structure ValidatedRepositoryConfiguration where
  configurationId : UUID
  repositoryKey : String
  digest : String
  prohibitedPaths : List String
  deriving DecidableEq

/-- What the tools take from the shared configuration library, and from the preflight of a
repository. -/
structure RepositoryChecks where
  validated : RepositoryConfiguration → Option ValidatedRepositoryConfiguration
  preflightReady : Database → Task → RepositoryConfiguration → Bool

def ValidatedRepositoryConfiguration.prohibited (u : Unicode)
    (configuration : ValidatedRepositoryConfiguration) : List (List Char) :=
  configuration.prohibitedPaths.map fun path => u.casefold path.toList

/-! ### Results of the host -/

/-- The values of a result that have to be paths. -/
def resultPaths (result : List (String × Json)) : Option (List Json) := do
  let result := Json.obj result
  let listed ← ["files", "changed_paths", "applied_paths"].mapM fun field =>
    ((result.get? field).getD (.arr [])).arr?
  let path := result.get "path"
  let found ← ((result.get? "matches").getD (.arr [])).arr?
  let foundPaths ← found.mapM fun found => do
    guard found.obj?.isSome
    return found.get "path"
  return listed.flatten ++ (if path.isNull then [] else [path]) ++ foundPaths

/-- Why a result cannot be taken, if it cannot. -/
def hostResultValidationCode (rt : Runtime) (checks : RepositoryChecks) (db : Database)
    (decision : HermesToolDecision) (tool : ScopedToolName) (result : List (String × Json)) :
    Option String :=
  let fields := Json.obj result
  let checked : Option (Brief × ValidatedRepositoryConfiguration × List String) := do
    let revision ← (fields.get "head_sha").str?
    guard (isGitObject rt.unicode revision)
    let brief ← decision.briefId.bind db.briefs.get?
    let record ← decision.repositoryConfigurationId.bind db.repositoryConfigurations.get?
    let configuration ← checks.validated record
    guard (!((tool = .diff || tool = .applyPatch) &&
      ((fields.get "diff").str?.isNone || (fields.get "changed_paths").arr?.isNone)))
    let paths ← (← resultPaths result).mapM fun path => toolPath path false
    return (brief, configuration, paths)
  match checked with
  | none => some "HOST_RESULT_INVALID"
  | some (brief, configuration, paths) =>
    if paths.any fun path => !pathInScope rt.unicode path (includedPaths brief) then
      some "HOST_RESULT_OUTSIDE_BRIEF"
    else if paths.any fun path => pathProhibited rt.unicode path
        (configuration.prohibited rt.unicode) then
      some "HOST_RESULT_PROHIBITED"
    else none

end ControlPlane
