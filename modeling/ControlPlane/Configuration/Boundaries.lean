import ControlPlane.Briefing.Reach

/-!
# Paths that no task may change

The validator of repository configurations wants every file that judges a change below a
prohibited path, comparing case; the workspace refuses changes below a prohibited path, without
regard to case. Folding the case of a path folds the case of each of its segments, so what the
one demands the other refuses.

## Main definitions

* `RepositoryConfiguration.validate`: the checks of the validator that concern paths.
* `assertPathsAllowed`

## Main results

* `guarded_of_allowed`: accepted changes leave the files that judge them alone.
-/
namespace ControlPlane

/-! ### Segments of a path -/

namespace PurePosixPath

/-- The operator `/` with a text on its right. -/
def child (p : PurePosixPath) (cs : List Char) : PurePosixPath :=
  let q := ofText cs
  if q.root = 0 then { p with parts := p.parts ++ q.parts } else q

def name (p : PurePosixPath) : List Char := p.parts.getLast?.getD []

def parent (p : PurePosixPath) : PurePosixPath := { p with parts := p.parts.dropLast }

/-- The characters of the name from its last dot on, unless this is its first or its last
character. -/
def suffix (p : PurePosixPath) : List Char :=
  let after := p.name.reverse.takeWhile (· ≠ '.')
  if after ≠ [] ∧ after.length + 1 < p.name.length then '.' :: after.reverse else []

def stem (p : PurePosixPath) : List Char := p.name.take (p.name.length - p.suffix.length)

end PurePosixPath

/-! ### The validator -/

namespace Configuration

structure RepositoryConfigurationError where
  message : String
  deriving DecidableEq, Repr

structure PinnedRepositoryFile where
  path : String
  digest : String

/-- What an end-to-end flow says about the repository. -/
structure E2EFlow where
  runnerTestIdentifier : String
  harnessSourceRoot : String
  harnessProjectPath : String
  harnessTargetIdentifier : String
  runnerSourceFile : String
  harnessFiles : List PinnedRepositoryFile
  fixtureFile : PinnedRepositoryFile
  testAccountRecipeFile : PinnedRepositoryFile

def E2EFlow.pinnedPaths (flow : E2EFlow) : List String :=
  flow.harnessFiles.map PinnedRepositoryFile.path ++
    [flow.fixtureFile.path, flow.testAccountRecipeFile.path]

inductive OperationKind where
  | build | unitTest | integrationTest | simulatorE2e
  deriving DecidableEq, Repr

/-- Exactly the end-to-end operation has a flow. -/
structure TestOperation where
  operationId : String
  kind : OperationKind
  e2eFlow : Option E2EFlow
  flow_iff : kind = .simulatorE2e ↔ e2eFlow.isSome = true

inductive XcodeContainerKind where
  | project | workspace
  deriving DecidableEq, Repr

structure XcodeSettings where
  containerKind : XcodeContainerKind
  containerPath : String
  scheme : String

/-- The part of a configuration that its paths are checked with. -/
structure RepositoryConfiguration where
  xcode : XcodeSettings
  operations : List TestOperation
  collectionPaths : List String
  prohibitedPaths : List String

def mandatoryProhibitedPaths : List String := [".git"]

/-- The raised error names what is wrong. -/
def require (p : Prop) [Decidable p] (message : String) :
    Except RepositoryConfigurationError Unit :=
  Except.require p ⟨message⟩

def boundedText (u : Unicode) (value field : String) (maximum : ℕ) :
    Except RepositoryConfigurationError Unit :=
  require (value ≠ "" ∧ u.strip value.toList = value.toList ∧ value.length ≤ maximum ∧
      '\x00' ∉ value.toList)
    (field ++ " must be non-empty, normalized, and at most " ++ toString maximum ++ " characters")

def relativeRepositoryPath (u : Unicode) (field value : String) :
    Except RepositoryConfigurationError Unit := do
  boundedText u value field 1024
  let path := PurePosixPath.ofText value.toList
  require (path.root = 0 ∧ path.asPosix = value.toList ∧ value ≠ "." ∧ value ≠ ".." ∧
      path.parts.contains ['.', '.'] = false ∧ '\\' ∉ value.toList ∧ value.toList.all (fun c => 32 ≤ c.toNat))
    (field ++ " must be a canonical repository-relative path")

/-- The checks of a flow that concern its paths. -/
def E2EFlow.validate (u : Unicode) (flow : E2EFlow) : Except RepositoryConfigurationError Unit := do
  flow.pinnedPaths.forM (relativeRepositoryPath u "pinned repository file path")
  require (flow.harnessFiles ≠ []) "E2E harness must pin 1 to 64 repository files"
  require flow.pinnedPaths.Nodup "E2E harness, fixture, and account recipe paths must be unique"
  relativeRepositoryPath u "E2E harness source root" flow.harnessSourceRoot
  relativeRepositoryPath u "E2E harness project path" flow.harnessProjectPath
  require (".xcodeproj".toList <:+ flow.harnessProjectPath.toList)
    "E2E harness project path must name an Xcode project"
  relativeRepositoryPath u "E2E runner source file" flow.runnerSourceFile
  require (".swift".toList <:+ flow.runnerSourceFile.toList)
    "E2E runner source file must be a Swift source"

/-- The checks of the paths of a configuration against its prohibited paths. -/
def RepositoryConfiguration.validatePathBoundaries (c : RepositoryConfiguration) (flow : E2EFlow) :
    Except RepositoryConfigurationError Unit := do
  let path (value : String) := PurePosixPath.ofText value.toList
  let prohibited := c.prohibitedPaths.map path
  let container := path c.xcode.containerPath
  require ((∀ artifact ∈ c.collectionPaths.map path, ∀ denied ∈ prohibited,
        denied.covers artifact = false ∧ artifact.covers denied = false) ∧
      ∀ denied ∈ prohibited, denied.covers container = false)
    "Xcode and artifact paths must not overlap prohibited paths"
  let harnessPaths := flow.harnessFiles.map fun file => path file.path
  let projectDefinition := (path flow.harnessProjectPath).child "project.pbxproj".toList
  let controlFiles :=
    [((container.child "xcshareddata".toList).child "xcschemes".toList).child
        (c.xcode.scheme ++ ".xcscheme").toList,
      container.child "contents.xcworkspacedata".toList, projectDefinition]
  let projectDefinitionFiles := harnessPaths.filter fun file =>
    file.name = "project.pbxproj".toList ∧ ".xcodeproj".toList <:+ file.parent.name
  let harnessRoot := path flow.harnessSourceRoot
  let runnerSource := path flow.runnerSourceFile
  let inside (file : PurePosixPath) := harnessRoot ≠ file ∧ harnessRoot.covers file = true
  require (c.xcode.containerKind = .workspace ∧ controlFiles ⊆ harnessPaths ∧
      projectDefinitionFiles ≠ [] ∧ (∀ file ∈ projectDefinitionFiles, file = projectDefinition) ∧
      inside runnerSource)
    ("E2E validation must use a workspace plus one dedicated harness project and runner inside " ++
      "the prohibited source root")
  let sourceFiles := harnessPaths.filter (· ∉ controlFiles)
  let runnerClass ← Except.orThrow (flow.runnerTestIdentifier.toList.splitOn '/')[1]?
    ⟨"E2E runner test identifier is invalid"⟩
  require (sourceFiles ≠ [] ∧ runnerSource ∈ sourceFiles ∧ runnerSource.stem = runnerClass ∧
      ∀ file ∈ sourceFiles, file.suffix = ".swift".toList ∧ inside file)
    ("E2E harness must pin only its exact Swift source closure and the selected runner source " ++
      "inside the prohibited source root")
  require (∀ pinned ∈ flow.pinnedPaths.map path, ∃ denied ∈ prohibited,
      denied.covers pinned = true)
    "E2E harness, fixture, and account recipe files must be prohibited from task mutation"
  require (∃ denied ∈ prohibited, denied.covers harnessRoot = true)
    "E2E harness source root must be prohibited from task mutation"

/-- The flow the configuration is validated with. -/
def RepositoryConfiguration.flow? (c : RepositoryConfiguration) : Option E2EFlow :=
  (c.operations.find? (·.kind = .simulatorE2e)).bind TestOperation.e2eFlow

/-- The checks of a configuration that concern its paths; those of its other fields refuse more. -/
def RepositoryConfiguration.validate (u : Unicode) (c : RepositoryConfiguration) :
    Except RepositoryConfigurationError Unit := do
  relativeRepositoryPath u "Xcode container path" c.xcode.containerPath
  (c.operations.filterMap TestOperation.e2eFlow).forM (E2EFlow.validate u)
  c.collectionPaths.forM (relativeRepositoryPath u "artifact collection path")
  require ((c.operations.map TestOperation.kind).Perm
      [.build, .unitTest, .integrationTest, .simulatorE2e])
    ("configuration must define exactly one BUILD, UNIT_TEST, INTEGRATION_TEST, and " ++
      "SIMULATOR_E2E operation")
  require (c.operations.map TestOperation.operationId).Nodup "operation ids must be unique"
  let flow ← Except.orThrow c.flow?
    ⟨"configuration must contain exactly one deterministic E2E flow"⟩
  c.prohibitedPaths.forM (relativeRepositoryPath u "prohibited path")
  require c.prohibitedPaths.Nodup "prohibited paths must be unique"
  require (mandatoryProhibitedPaths ⊆ c.prohibitedPaths)
    "prohibited paths cannot remove the mandatory .git floor"
  c.validatePathBoundaries flow

end Configuration

/-! ### The workspace -/

namespace HostAgent

structure WorkspaceLifecycleError where
  code : String
  deriving DecidableEq, Repr

/-- Whether a changed path stays in the workspace and off the prohibited paths. -/
def pathAllowed (u : Unicode) (prohibited : List PurePosixPath) (rawPath : String) : Bool :=
  let path := PurePosixPath.ofText rawPath.toList
  !(rawPath = "" || path.root ≠ 0 || path.parts.contains ['.', '.'] ||
    rawPath.toList.contains '\\' || 4096 < rawPath.length ||
    rawPath.toList.any (fun c => c.toNat < 32) ||
    prohibited.any fun denied => denied.covers (foldedPath u rawPath))

def assertPathsAllowed (u : Unicode) (changedPaths : List String)
    (configuration : Configuration.RepositoryConfiguration) :
    Except WorkspaceLifecycleError Unit :=
  let prohibited := configuration.prohibitedPaths.map (foldedPath u)
  changedPaths.forM fun rawPath =>
    Except.require (pathAllowed u prohibited rawPath = true) ⟨"PROHIBITED_PATH_CHANGED"⟩

end HostAgent

/-! ### Folding the case of a path -/

/-- Folding the case of a character beyond ASCII leaves something, and neither a slash nor a
dot. -/
structure FoldsSeparators (u : Unicode) : Prop where
  ne_nil : ∀ c, Unicode.isAscii c = false → u.casefoldTable c ≠ []
  separators : ∀ c, Unicode.isAscii c = false → '/' ∉ u.casefoldTable c ∧ '.' ∉ u.casefoldTable c

section Folding
variable {u : Unicode}

theorem FoldsSeparators.char_ne_nil (h : FoldsSeparators u) (c : Char) : u.casefoldChar c ≠ [] := by
  unfold Unicode.casefoldChar
  split
  · rename_i hascii
    simp [Unicode.lowerChar, hascii]
  · rename_i hascii
    exact h.ne_nil c (by simpa using hascii)

/-- Only a separator is folded to something with it. -/
theorem FoldsSeparators.eq_of_mem (h : FoldsSeparators u) {c d : Char} (hd : d = '/' ∨ d = '.')
    (hmem : d ∈ u.casefoldChar c) : c = d := by
  unfold Unicode.casefoldChar at hmem
  split at hmem
  · rename_i hascii
    simp only [Unicode.lowerChar, hascii, if_true, List.mem_singleton] at hmem
    split at hmem
    · rename_i hupper
      have hletters : ((List.range 128).all fun n => !Unicode.asciiUpper (Char.ofNat n) ||
          (Char.ofNat (n + 32) != '/' && Char.ofNat (n + 32) != '.')) = true := by
        decide
      have hletter := List.all_eq_true.mp hletters c.toNat
        (List.mem_range.mpr (of_decide_eq_true hascii))
      rw [Char.ofNat_toNat, hupper] at hletter
      rcases hd with rfl | rfl <;> simp [← hmem] at hletter
    · exact hmem.symm
  · rename_i hascii
    obtain ⟨hslash, hdot⟩ := h.separators c (by simpa using hascii)
    rcases hd with rfl | rfl
    · exact absurd hmem hslash
    · exact absurd hmem hdot

theorem casefoldChar_slash : u.casefoldChar '/' = ['/'] := rfl

theorem casefoldChar_dot : u.casefoldChar '.' = ['.'] := rfl

/-- Characters that are no slash go to the front of the first segment. -/
theorem splitOn_append {cs rest : List Char} (h : '/' ∉ cs) :
    (cs ++ rest).splitOn '/' = (rest.splitOn '/').modifyHead (cs ++ ·) := by
  induction cs with
  | nil =>
    rw [List.nil_append]
    cases rest.splitOn '/' <;> rfl
  | cons c cs ih =>
    have hc : '/' ≠ c := fun heq => h (heq ▸ List.mem_cons_self)
    have hcs : '/' ∉ cs := fun hmem => h (List.mem_cons_of_mem c hmem)
    have hne : (c == '/') = false := beq_false_of_ne (Ne.symm hc)
    rw [List.cons_append, List.splitOn, List.splitOnP_cons_eq_if_modifyHead, hne, if_neg (by simp),
      ← List.splitOn, ih hcs]
    cases rest.splitOn '/' <;> rfl

theorem splitOn_slash (cs : List Char) : ('/' :: cs).splitOn '/' = [] :: cs.splitOn '/' := by
  rw [List.splitOn, List.splitOnP_cons_eq_if_modifyHead]
  rfl

/-- The segments of a folded text are the folded segments. -/
theorem splitOn_casefold (h : FoldsSeparators u) (cs : List Char) :
    (u.casefold cs).splitOn '/' = (cs.splitOn '/').map u.casefold := by
  induction cs with
  | nil => rfl
  | cons c cs ih =>
    by_cases hc : c = '/'
    · subst hc
      rw [splitOn_slash, List.map_cons, ← ih]
      exact splitOn_slash _
    · have hslash : '/' ∉ u.casefoldChar c := fun hmem => hc (h.eq_of_mem (.inl rfl) hmem)
      have hcons : (c :: cs).splitOn '/' = (cs.splitOn '/').modifyHead (c :: ·) :=
        @splitOn_append [c] cs (by simpa using Ne.symm hc)
      rw [hcons, show u.casefold (c :: cs) = u.casefoldChar c ++ u.casefold cs from rfl,
        splitOn_append hslash, ih]
      cases cs.splitOn '/' <;> rfl

theorem casefold_eq_nil (h : FoldsSeparators u) {cs : List Char} : u.casefold cs = [] ↔ cs = [] := by
  constructor
  · intro hnil
    cases cs with
    | nil => rfl
    | cons c cs => exact absurd (List.append_eq_nil_iff.mp hnil).1 (h.char_ne_nil c)
  · rintro rfl
    rfl

theorem casefold_eq_dot (h : FoldsSeparators u) {cs : List Char} :
    u.casefold cs = ['.'] ↔ cs = ['.'] := by
  constructor
  · intro hdot
    cases cs with
    | nil => cases hdot
    | cons c cs =>
      have hcons : u.casefoldChar c ++ u.casefold cs = ['.'] := hdot
      rcases List.append_eq_singleton_iff.mp hcons with ⟨hnil, -⟩ | ⟨hc, hrest⟩
      · exact absurd hnil (h.char_ne_nil c)
      · obtain rfl := h.eq_of_mem (c := c) (.inr rfl) (hc ▸ List.mem_singleton_self '.')
        rw [(casefold_eq_nil h).mp hrest]
  · rintro rfl
    rfl

/-- Folding the case of a path folds the case of its segments. -/
theorem parts_casefold (h : FoldsSeparators u) (cs : List Char) :
    (PurePosixPath.ofText (u.casefold cs)).parts =
      (PurePosixPath.ofText cs).parts.map u.casefold := by
  simp only [PurePosixPath.ofText, splitOn_casefold h, List.filter_map]
  congr 1
  refine List.filter_congr fun part _ => ?_
  simp only [Function.comp_apply, ne_eq, casefold_eq_nil h, casefold_eq_dot h]

theorem rootOf_of_ne {c : Char} {cs : List Char} (h : c ≠ '/') :
    PurePosixPath.rootOf (c :: cs) = 0 := by
  simp [PurePosixPath.rootOf, h]

theorem rootOf_one {c : Char} {cs : List Char} (h : c ≠ '/') :
    PurePosixPath.rootOf ('/' :: c :: cs) = 1 := by
  simp [PurePosixPath.rootOf, h]

theorem rootOf_two {c : Char} {cs : List Char} (h : c ≠ '/') :
    PurePosixPath.rootOf ('/' :: '/' :: c :: cs) = 2 := by
  simp [PurePosixPath.rootOf, h]

/-- The root of a folded path is its root. -/
theorem rootOf_casefold (h : FoldsSeparators u) (cs : List Char) :
    PurePosixPath.rootOf (u.casefold cs) = PurePosixPath.rootOf cs := by
  have hother : ∀ {c : Char}, c ≠ '/' → ∀ cs, ∃ d ds, d ≠ '/' ∧ u.casefold (c :: cs) = d :: ds := by
    intro c hc cs
    cases hfold : u.casefoldChar c with
    | nil => exact absurd hfold (h.char_ne_nil c)
    | cons d ds =>
      refine ⟨d, ds ++ u.casefold cs, fun hd => hc ?_, ?_⟩
      · exact hd ▸ h.eq_of_mem (.inl hd) (hfold ▸ List.mem_cons_self)
      · rw [← List.cons_append, ← hfold]
        rfl
  match cs with
  | [] => rfl
  | c :: cs =>
    by_cases hc : c = '/'
    · subst hc
      match cs with
      | [] => rfl
      | c :: cs =>
        by_cases hc : c = '/'
        · subst hc
          match cs with
          | [] => rfl
          | c :: cs =>
            by_cases hc : c = '/'
            · subst hc
              rfl
            · obtain ⟨d, ds, hd, hfold⟩ := hother hc cs
              show PurePosixPath.rootOf ('/' :: '/' :: u.casefold (c :: cs)) = _
              rw [hfold, rootOf_two hd, rootOf_two hc]
        · obtain ⟨d, ds, hd, hfold⟩ := hother hc cs
          show PurePosixPath.rootOf ('/' :: u.casefold (c :: cs)) = _
          rw [hfold, rootOf_one hd, rootOf_one hc]
    · obtain ⟨d, ds, hd, hfold⟩ := hother hc cs
      rw [hfold, rootOf_of_ne hd, rootOf_of_ne hc]

theorem covers_casefold (h : FoldsSeparators u) {p q : List Char}
    (hcovers : (PurePosixPath.ofText p).covers (.ofText q) = true) :
    (PurePosixPath.ofText (u.casefold p)).covers (.ofText (u.casefold q)) = true := by
  rw [PurePosixPath.covers_iff] at hcovers ⊢
  rw [parts_casefold h, parts_casefold h]
  refine ⟨?_, hcovers.2.map _⟩
  exact ((rootOf_casefold h p).trans hcovers.1).trans (rootOf_casefold h q).symm

end Folding

/-! ### Accepted changes -/

namespace Configuration
variable {u : Unicode} {c : RepositoryConfiguration} {flow : E2EFlow}

/-- The paths that judge a change: those of git, the pinned files of a flow and the root of its
harness. -/
def RepositoryConfiguration.guardedPaths (c : RepositoryConfiguration) : List String :=
  ".git" :: (c.operations.filterMap TestOperation.e2eFlow).flatMap fun flow =>
    flow.pinnedPaths ++ [flow.harnessSourceRoot]

theorem require_eq_ok {p : Prop} [Decidable p] {message : String} {x : Unit} :
    require p message = .ok x ↔ p := by
  simp [require]

/-- A validated flow has its guarded paths below prohibited ones. -/
theorem covered_of_validated (h : c.validatePathBoundaries flow = .ok ()) {path : String}
    (hpath : path ∈ flow.pinnedPaths ++ [flow.harnessSourceRoot]) :
    ∃ denied ∈ c.prohibitedPaths,
      (PurePosixPath.ofText denied.toList).covers (.ofText path.toList) = true := by
  simp only [RepositoryConfiguration.validatePathBoundaries, Except.bind_eq_ok,
    require_eq_ok, Except.orThrow_eq_ok] at h
  obtain ⟨-, -, -, -, runnerClass, -, -, -, -, hpinned, hroot⟩ := h
  rw [List.mem_append, List.mem_singleton] at hpath
  rcases hpath with hpath | rfl
  · obtain ⟨_, hdenied, hcovers⟩ := hpinned _ (List.mem_map_of_mem hpath)
    obtain ⟨denied, hmem, rfl⟩ := List.mem_map.mp hdenied
    exact ⟨denied, hmem, hcovers⟩
  · obtain ⟨_, hdenied, hcovers⟩ := hroot
    obtain ⟨denied, hmem, rfl⟩ := List.mem_map.mp hdenied
    exact ⟨denied, hmem, hcovers⟩

/-- A configuration with one operation of each kind has one flow. -/
theorem flow_unique (h : (c.operations.map TestOperation.kind).Perm
      [.build, .unitTest, .integrationTest, .simulatorE2e]) (hflow : c.flow? = some flow)
    {flow' : E2EFlow} (hmem : flow' ∈ c.operations.filterMap TestOperation.e2eFlow) :
    flow' = flow := by
  obtain ⟨operation', hmem', hflow'⟩ := List.mem_filterMap.mp hmem
  obtain ⟨operation, hfind, hflow⟩ := Option.bind_eq_some_iff.mp hflow
  have hkind' : operation'.kind = .simulatorE2e := operation'.flow_iff.mpr (by rw [hflow']; rfl)
  have hone : (c.operations.filter (·.kind = .simulatorE2e)).length = 1 := by
    have hcount := h.count_eq OperationKind.simulatorE2e
    rw [List.count, List.countP_map] at hcount
    rw [← List.countP_eq_length_filter]
    exact hcount
  obtain ⟨single, hsingle⟩ := List.length_eq_one_iff.mp hone
  have heq : ∀ x ∈ c.operations, x.kind = .simulatorE2e → x = single := by
    intro x hx hkind
    have hfilter : x ∈ c.operations.filter (·.kind = .simulatorE2e) :=
      List.mem_filter.mpr ⟨hx, decide_eq_true hkind⟩
    rw [hsingle] at hfilter
    exact List.mem_singleton.mp hfilter
  have hkind := List.find?_some hfind
  rw [decide_eq_true_eq] at hkind
  have hoperation := heq operation (List.mem_of_find?_eq_some hfind) hkind
  rw [heq operation' hmem' hkind', ← hoperation, hflow] at hflow'
  exact (Option.some.inj hflow').symm

theorem covered_of_validate (h : c.validate u = .ok ()) {path : String}
    (hpath : path ∈ c.guardedPaths) :
    ∃ denied ∈ c.prohibitedPaths,
      (PurePosixPath.ofText denied.toList).covers (.ofText path.toList) = true := by
  simp only [RepositoryConfiguration.validate, Except.bind_eq_ok, require_eq_ok,
    Except.orThrow_eq_ok] at h
  obtain ⟨-, -, -, -, -, -, -, hkinds, -, -, flow, hflow, -, -, -, -, -, hmandatory, hboundaries⟩ := h
  rcases List.mem_cons.mp hpath with rfl | hpath
  · exact ⟨".git", hmandatory List.mem_cons_self, PurePosixPath.covers_refl _⟩
  · obtain ⟨flow', hflow', hpath⟩ := List.mem_flatMap.mp hpath
    obtain rfl := flow_unique hkinds hflow hflow'
    exact covered_of_validated hboundaries hpath

end Configuration

namespace HostAgent

theorem mem_of_allowed {u : Unicode} {changed : List String}
    {c : Configuration.RepositoryConfiguration}
    (h : assertPathsAllowed u changed c = .ok ()) {path : String} (hpath : path ∈ changed) :
    pathAllowed u (c.prohibitedPaths.map (foldedPath u)) path = true := by
  simp only [assertPathsAllowed, List.forM_eq_forM] at h
  induction changed with
  | nil => cases hpath
  | cons first rest ih =>
    rw [List.forM_cons, Except.bind_eq_ok] at h
    obtain ⟨_, hfirst, hrest⟩ := h
    rcases List.mem_cons.mp hpath with rfl | hpath
    · exact Except.require_eq_ok.mp hfirst
    · exact ih hrest hpath

/-- No accepted change is of a path that judges changes, or of one inside. -/
theorem guarded_of_allowed {u : Unicode} (hfolds : FoldsSeparators u)
    {c : Configuration.RepositoryConfiguration} {changed : List String} (hvalid : c.validate u = .ok ())
    (hallowed : assertPathsAllowed u changed c = .ok ()) :
    ∀ path ∈ changed, ∀ guarded ∈ c.guardedPaths,
      (foldedPath u guarded).covers (foldedPath u path) = false := by
  intro path hpath guarded hguarded
  obtain ⟨denied, hdenied, hcovers⟩ := Configuration.covered_of_validate hvalid hguarded
  have hallowed := mem_of_allowed hallowed hpath
  rw [← Bool.not_eq_true]
  intro hinside
  have hdeniedCovers : (foldedPath u denied).covers (foldedPath u path) = true :=
    PurePosixPath.covers_trans (covers_casefold hfolds hcovers) hinside
  simp only [pathAllowed, Bool.not_eq_true', Bool.or_eq_false_iff, List.any_eq_false] at hallowed
  exact hallowed.2 _ (List.mem_map_of_mem hdenied) hdeniedCovers

end HostAgent

namespace BoundaryExample
open Configuration

theorem foldsSeparators_ascii : FoldsSeparators .ascii where
  ne_nil _ _ := List.cons_ne_nil _ _
  separators c h := by
    have hne : ∀ d, Unicode.isAscii d = true → d ∉ [c] := by
      intro d hd hmem
      rw [List.mem_singleton.mp hmem, h] at hd
      cases hd
    exact ⟨hne '/' rfl, hne '.' rfl⟩

/-- A file of the harness and its digest. -/
def pinned (path : String) : PinnedRepositoryFile := ⟨path, "sha256:0"⟩

def flow : E2EFlow where
  runnerTestIdentifier := "Harness/RunnerTests/testFlow"
  harnessSourceRoot := "Harness"
  harnessProjectPath := "Harness/Harness.xcodeproj"
  harnessTargetIdentifier := "AAAAAAAAAAAAAAAAAAAAAAAA"
  runnerSourceFile := "Harness/RunnerTests.swift"
  harnessFiles :=
    [pinned "App.xcworkspace/xcshareddata/xcschemes/App.xcscheme",
      pinned "App.xcworkspace/contents.xcworkspacedata",
      pinned "Harness/Harness.xcodeproj/project.pbxproj", pinned "Harness/RunnerTests.swift"]
  fixtureFile := pinned "Harness/fixture.json"
  testAccountRecipeFile := pinned "Harness/recipe.json"

def operation (id : String) (kind : OperationKind) : TestOperation where
  operationId := id
  kind := kind
  e2eFlow := if kind = .simulatorE2e then some flow else none
  flow_iff := by cases kind <;> simp

def configuration : Configuration.RepositoryConfiguration where
  xcode := ⟨.workspace, "App.xcworkspace", "App"⟩
  operations :=
    [operation "build" .build, operation "unit" .unitTest, operation "integration" .integrationTest,
      operation "e2e" .simulatorE2e]
  collectionPaths := ["build/results"]
  prohibitedPaths :=
    [".git", "Harness", "App.xcworkspace/xcshareddata", "App.xcworkspace/contents.xcworkspacedata"]

theorem validate_configuration : configuration.validate .ascii = .ok () := by decide +kernel

theorem allowed_source :
    HostAgent.assertPathsAllowed .ascii ["Sources/App.swift"] configuration = .ok () := by
  decide +kernel

end BoundaryExample

open BoundaryExample in
theorem guarded_of_allowed_source :
    "Harness" ∈ configuration.guardedPaths ∧
      ∀ path ∈ ["Sources/App.swift"], ∀ guarded ∈ configuration.guardedPaths,
        (foldedPath .ascii guarded).covers (foldedPath .ascii path) = false :=
  ⟨by decide, HostAgent.guarded_of_allowed foldsSeparators_ascii validate_configuration
    allowed_source⟩

end ControlPlane
