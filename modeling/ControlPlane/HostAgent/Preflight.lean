import ControlPlane.Configuration.Boundaries
import ControlPlane.HostAgent.OpenStep

/-!
# The closure of the harness project

Preflight reads the project file of the end-to-end harness and accepts it if its target compiles
exactly the pinned sources and nothing else can enter the build. A field that is no list of
object identifiers reads like one that is missing, so that entries with other identifiers are not
seen.

## Main definitions

* `projectCompilesExactSources`
* `HarnessTarget.Closed`, `HarnessTarget.Legible`

## Main results

* `closed_iff_of_compiles`: an accepted target is closed just if what the check reads as a list
  of identifiers is one.
-/
namespace ControlPlane.HostAgent

open OpenStep Regex

/-! ### Objects of a project -/

/-- A check is not passed, or a comparison with the members of a set raises for a value that has
no hash. -/
inductive Refusal where
  | failed | unhashable
  deriving DecidableEq, Repr

abbrev Mapping := List (List Char × OpenStep)

namespace Mapping

def get (m : Mapping) (key : List Char) : Option OpenStep := m.lookup key

def field (m : Mapping) (key : String) : Option OpenStep := m.get key.toList

/-- A field holds a text. -/
def holdsText (m : Mapping) (key : String) (value : List Char) : Bool :=
  match m.field key with
  | some (.text held) => held = value
  | _ => false

def reads (m : Mapping) (key value : String) : Bool := m.holdsText key value.toList

end Mapping

section Regex
open Regex Re CharClass

def pbxObjectIdPattern : Re CharClass :=
  exactly 24 (cls (.union (.range 'A' 'F') (.range '0' '9')))

def versionPattern : Re CharClass :=
  seq (plus (cls decimal)) (many true 0 (some 2) (seq (lit ".") (plus (cls decimal))))

def developmentTeamPattern : Re CharClass := exactly 10 (cls (.union upperLetter decimal))

def bundleIdentifierPattern : Re CharClass :=
  let label := seq (cls alnum) (star (cls (.union alnum (oneOf "-"))))
  seq label (plus (seq (lit ".") label))

def schemePattern : Re CharClass :=
  seq (cls alnum) (many true 0 (some 127) (cls (.union alnum (oneOf " ._-"))))

def deviceFamilyPattern : Re CharClass :=
  seq (cls (oneOf "12")) (opt (seq (lit ",") (cls (oneOf "12"))))

end Regex

def pbxMapping : Option OpenStep → Option Mapping
  | some (.mapping entries) => some entries
  | _ => none

def pbxObjectId : OpenStep → Option (List Char)
  | .text value =>
    if pbxObjectIdPattern.fullmatch (CharClass.holds .ascii) value then some value else none
  | _ => none

def pbxObjectIds : Option OpenStep → Option (List (List Char))
  | some (.array items) => items.mapM pbxObjectId
  | _ => none

mutual

/-- Texts have a hash, and arrays of what has one. -/
def hashable : OpenStep → Bool
  | .text _ => true
  | .array items => hashableAll items
  | .mapping _ => false

def hashableAll : List OpenStep → Bool
  | [] => true
  | item :: rest => hashable item && hashableAll rest

end

/-! ### The check -/

def targetBuildSettingKeys : List (List Char) :=
  ["CLANG_ENABLE_MODULES", "CODE_SIGN_STYLE", "CURRENT_PROJECT_VERSION", "DEVELOPMENT_TEAM",
    "GENERATE_INFOPLIST_FILE", "IPHONEOS_DEPLOYMENT_TARGET", "MARKETING_VERSION",
    "PRODUCT_BUNDLE_IDENTIFIER", "PRODUCT_NAME", "SDKROOT", "SUPPORTED_PLATFORMS",
    "SWIFT_EMIT_LOC_STRINGS", "SWIFT_VERSION", "TARGETED_DEVICE_FAMILY",
    "TEST_TARGET_NAME"].map String.toList

/-- A value of one of some settings is one of some values. -/
def settingIn (keys values : List String) (key value : List Char) : Bool :=
  !(keys.map String.toList).contains key || (values.map String.toList).contains value

/-- A value of one of some settings has a form. -/
def settingMatches (keys : List String) (pattern : Re CharClass) (key value : List Char) : Bool :=
  !(keys.map String.toList).contains key || pattern.fullmatch (CharClass.holds .ascii) value

def settingIsSafe (u : Unicode) (key : List Char) : OpenStep → Bool
  | .text value =>
    u.strip value = value && !value.isEmpty && value.all (fun c => 32 ≤ c.toNat) &&
    settingIn ["CLANG_ENABLE_MODULES", "GENERATE_INFOPLIST_FILE", "SWIFT_EMIT_LOC_STRINGS"]
      ["YES", "NO"] key value &&
    settingIn ["CODE_SIGN_STYLE"] ["Automatic", "Manual"] key value &&
    settingMatches ["CURRENT_PROJECT_VERSION", "IPHONEOS_DEPLOYMENT_TARGET", "MARKETING_VERSION",
      "SWIFT_VERSION"] versionPattern key value &&
    settingMatches ["DEVELOPMENT_TEAM"] developmentTeamPattern key value &&
    settingMatches ["PRODUCT_BUNDLE_IDENTIFIER"] bundleIdentifierPattern key value &&
    settingIn ["PRODUCT_NAME"] ["$(TARGET_NAME)"] key value &&
    settingIn ["SDKROOT"] ["iphoneos"] key value &&
    settingIn ["SUPPORTED_PLATFORMS"]
      ["iphoneos", "iphonesimulator", "iphoneos iphonesimulator"] key value &&
    settingMatches ["TARGETED_DEVICE_FAMILY"] deviceFamilyPattern key value &&
    settingMatches ["TEST_TARGET_NAME"] schemePattern key value
  | _ => false

/-- Membership of a value, or of nothing, in a set of texts. -/
def requireIn (value : Option OpenStep) (texts : List String) : Except Refusal Unit := do
  Except.require (value.all hashable = true) .unhashable
  Except.require (value.all (fun v => match v with
    | .text held => (texts.map String.toList).contains held
    | _ => false) = true) .failed

def targetBuildSettingsAreSafe (u : Unicode) (settings : Mapping) : Except Refusal Unit := do
  Except.require (settings.map Prod.fst ⊆ targetBuildSettingKeys) .failed
  Except.require (settings.reads "GENERATE_INFOPLIST_FILE" "YES" = true) .failed
  requireIn (settings.field "PRODUCT_NAME") ["$(TARGET_NAME)"]
  Except.require (∀ setting ∈ settings, settingIsSafe u setting.1 setting.2 = true) .failed

/-- One configuration refers to no other file, and has no settings but safe ones of the target. -/
def configurationIsClosed (u : Unicode) (objects : Mapping) (target : Bool) (id : List Char) :
    Except Refusal Unit := do
  let configuration ← Except.orThrow (pbxMapping (objects.get id)) .failed
  Except.require (configuration.reads "isa" "XCBuildConfiguration" = true ∧
    (configuration.map Prod.fst).contains "baseConfigurationReference".toList = false) .failed
  let settings ← Except.orThrow (pbxMapping (configuration.field "buildSettings")) .failed
  if target then targetBuildSettingsAreSafe u settings
  else Except.require (settings.isEmpty = true) .failed

def buildConfigurationsAreClosed (u : Unicode) (objects : Mapping) (listId : Option (List Char))
    (target : Bool) : Except Refusal Unit := do
  let list ← Except.orThrow (listId.bind fun id => pbxMapping (objects.get id)) .failed
  Except.require (list.reads "isa" "XCConfigurationList" = true) .failed
  let ids ← Except.orThrow (pbxObjectIds (list.field "buildConfigurations")) .failed
  Except.require (ids ≠ []) .failed
  ids.forM (configurationIsClosed u objects target)

/-- No identifiers are read from a field. -/
def readsNoIds (value : Option OpenStep) : Bool :=
  pbxObjectIds value = none || pbxObjectIds value = some []

/-- Whether a phase compiles sources. One of another kind reads no files. -/
def compilesSources (objects : Mapping) (id : List Char) : Except Refusal Bool := do
  let phase ← Except.orThrow (pbxMapping (objects.get id)) .failed
  if phase.reads "isa" "PBXSourcesBuildPhase" then return true
  else do
    Except.require ((phase.field "isa").all hashable = true) .unhashable
    Except.require ((phase.reads "isa" "PBXFrameworksBuildPhase" = true ∨
      phase.reads "isa" "PBXResourcesBuildPhase" = true) ∧
      readsNoIds (phase.field "files") = true) .failed
    return false

def sourcePhases (objects : Mapping) : List (List Char) → Except Refusal (List (List Char))
  | [] => .ok []
  | id :: rest => do
    let compiles ← compilesSources objects id
    let phases ← sourcePhases objects rest
    return if compiles then id :: phases else phases

def safeRelativePath (value : List Char) : Bool :=
  !value.isEmpty && value.length ≤ 1000 && !value.contains '\\' && !value.contains '\x00' &&
    (PurePosixPath.ofText value).root = 0 && !(PurePosixPath.ofText value).parts.contains ['.', '.']

/-- The path of the source that a build file compiles. -/
def sourcePath (objects : Mapping) (buildFileId : List Char) : Except Refusal (List Char) := do
  let buildFile ← Except.orThrow (pbxMapping (objects.get buildFileId)) .failed
  Except.require (buildFile.reads "isa" "PBXBuildFile" = true ∧
    (buildFile.map Prod.fst).contains "settings".toList = false) .failed
  let reference ← Except.orThrow (((buildFile.field "fileRef").bind pbxObjectId).bind
    fun id => pbxMapping (objects.get id)) .failed
  Except.require (reference.reads "isa" "PBXFileReference" = true ∧
    reference.reads "sourceTree" "SOURCE_ROOT" = true) .failed
  match reference.field "path" with
  | some (.text path) => do
    Except.require (safeRelativePath path = true ∧ ".swift".toList <:+ path) .failed
    return path
  | _ => throw .failed

/-- The sources of the build files, each of them new. -/
def actualSources (objects : Mapping) :
    List (List Char) → List (List Char) → Except Refusal (List (List Char))
  | actual, [] => .ok actual
  | actual, id :: rest => do
    let path ← sourcePath objects id
    Except.require (actual.contains path = false) .failed
    actualSources objects (actual ++ [path]) rest

def closedFields : List String :=
  ["buildRules", "dependencies", "packageProductDependencies", "fileSystemSynchronizedGroups"]

/-- The checks of the target and of what it refers to. -/
def targetIsClosed (u : Unicode) (file objects target : Mapping) (flow : Configuration.E2EFlow)
    (expected : List (List Char)) : Except Refusal Unit := do
  Except.require (target.reads "isa" "PBXNativeTarget" = true ∧
    target.holdsText "name" (flow.runnerTestIdentifier.toList.takeWhile (· ≠ '/')) = true ∧
    target.reads "productType" "com.apple.product-type.bundle.ui-testing" = true) .failed
  Except.require (∀ field ∈ closedFields, readsNoIds (target.field field) = true) .failed
  let targetConfigurations ← Except.orThrow ((target.field "buildConfigurationList").bind
    pbxObjectId) .failed
  let root ← Except.orThrow (((file.field "rootObject").bind pbxObjectId).bind
    fun id => pbxMapping (objects.get id)) .failed
  Except.require (root.reads "isa" "PBXProject" = true ∧
    ((pbxObjectIds (root.field "targets")).getD []).contains
      flow.harnessTargetIdentifier.toList = true) .failed
  buildConfigurationsAreClosed u objects ((root.field "buildConfigurationList").bind pbxObjectId)
    false
  buildConfigurationsAreClosed u objects (some targetConfigurations) true
  let phases ← Except.orThrow (pbxObjectIds (target.field "buildPhases")) .failed
  Except.require (phases ≠ []) .failed
  match ← sourcePhases objects phases with
  | [id] => do
    let phase ← Except.orThrow (pbxMapping (objects.get id)) .failed
    let files ← Except.orThrow (pbxObjectIds (phase.field "files")) .failed
    Except.require (files ≠ []) .failed
    let actual ← actualSources objects [] files
    Except.require (actual ⊆ expected ∧ expected ⊆ actual) .failed
  | _ => throw .failed

def maxPinnedFileBytes : ℕ := 10000000

def decode (content : ByteArray) : Option (List Char) :=
  (String.fromUTF8? content).map String.toList

def textIsClosed (u : Unicode) (text : List Char) (flow : Configuration.E2EFlow)
    (expected : List (List Char)) : Except Refusal Unit := do
  let project ← (OpenStep.parse u text).relabel fun _ => .failed
  let file ← Except.orThrow (pbxMapping (some project)) .failed
  let objects ← Except.orThrow (pbxMapping (file.field "objects")) .failed
  let target ← Except.orThrow (pbxMapping (objects.get flow.harnessTargetIdentifier.toList)) .failed
  targetIsClosed u file objects target flow expected

def projectIsClosed (u : Unicode) (content : Option ByteArray) (flow : Configuration.E2EFlow)
    (expected : List (List Char)) : Except Refusal Unit := do
  let bytes ← Except.orThrow content .failed
  Except.require (bytes.size ≤ maxPinnedFileBytes) .failed
  let text ← Except.orThrow (decode bytes) .failed
  textIsClosed u text flow expected

/-- The expected sources are a set. -/
def projectCompilesExactSources (u : Unicode) (content : Option ByteArray)
    (flow : Configuration.E2EFlow) (expected : List (List Char)) : Except Refusal Bool :=
  match projectIsClosed u content flow expected with
  | .ok () => .ok true
  | .error .failed => .ok false
  | .error .unhashable => .error .unhashable

/-! ### A closed target -/

/-- There is nothing in a value, whatever its shape. -/
def OpenStep.Empty : OpenStep → Prop
  | .text value => value = []
  | .array items => items = []
  | .mapping entries => entries = []

/-- A field is missing or there is nothing in it. -/
def NoEntry (value : Option OpenStep) : Prop := ∀ held ∈ value, OpenStep.Empty held

/-- A field is missing, has nothing in it, or is a list of object identifiers. -/
def Legible (value : Option OpenStep) : Prop :=
  ∀ held ∈ value, OpenStep.Empty held ∨ (pbxObjectIds (some held)).isSome = true

def isSourcesPhase (objects : Mapping) (id : List Char) : Bool :=
  match objects.get id with
  | some (.mapping phase) => Mapping.reads phase "isa" "PBXSourcesBuildPhase"
  | _ => false

/-- A build file compiles the source at a path, with no settings of its own. -/
def Compiles (objects : Mapping) (buildFileId path : List Char) : Prop :=
  ∃ (buildFile : Mapping) (referenceId : List Char) (reference : Mapping),
    objects.get buildFileId = some (.mapping buildFile) ∧
    "settings".toList ∉ buildFile.map Prod.fst ∧
    buildFile.field "fileRef" = some (.text referenceId) ∧
    objects.get referenceId = some (.mapping reference) ∧
    reference.field "path" = some (.text path)

/-- Every configuration of a list has settings of a kind, and takes none from another file. -/
def Configured (objects : Mapping) (list : Option OpenStep) (P : Mapping → Prop) : Prop :=
  ∃ (listId : List Char) (configurations : Mapping) (ids : List (List Char)),
    list = some (.text listId) ∧
    objects.get listId = some (.mapping configurations) ∧
    configurations.field "buildConfigurations" = some (.array (ids.map .text)) ∧
    ∀ id ∈ ids, ∃ (configuration settings : Mapping),
      objects.get id = some (.mapping configuration) ∧
      "baseConfigurationReference".toList ∉ configuration.map Prod.fst ∧
      configuration.field "buildSettings" = some (.mapping settings) ∧ P settings

/-- The target of the harness in a project, with the identifiers of its phases. -/
structure HarnessTarget (project : OpenStep) (flow : Configuration.E2EFlow) where
  file : Mapping
  objects : Mapping
  target : Mapping
  phases : List (List Char)
  file_eq : project = .mapping file
  objects_eq : file.field "objects" = some (.mapping objects)
  target_eq : objects.get flow.harnessTargetIdentifier.toList = some (.mapping target)
  phases_eq : target.field "buildPhases" = some (.array (phases.map .text))

namespace HarnessTarget
variable {project : OpenStep} {flow : Configuration.E2EFlow}

/-- The one phase that compiles sources lists every expected one once. -/
def CompilesExactly (t : HarnessTarget project flow) (expected : List (List Char)) : Prop :=
  ∃ (id : List Char) (phase : Mapping) (files paths : List (List Char)),
    t.phases.filter (isSourcesPhase t.objects) = [id] ∧
    t.objects.get id = some (.mapping phase) ∧
    phase.field "files" = some (.array (files.map .text)) ∧
    List.Forall₂ (Compiles t.objects) files paths ∧ paths.Nodup ∧
    ∀ path, path ∈ paths ↔ path ∈ expected

/-- The settings are allowed ones: the project has none, and the target only safe ones. -/
structure Settled (t : HarnessTarget project flow) (u : Unicode) : Prop where
  project : ∃ (rootId : List Char) (root : Mapping),
    t.file.field "rootObject" = some (.text rootId) ∧
    t.objects.get rootId = some (.mapping root) ∧
    Configured t.objects (root.field "buildConfigurationList") (· = [])
  target : Configured t.objects (t.target.field "buildConfigurationList") fun settings =>
    ∀ setting ∈ settings, setting.1 ∈ targetBuildSettingKeys ∧
      settingIsSafe u setting.1 setting.2 = true

/-- Nothing enters the build of the target but the expected sources. -/
structure Closed (t : HarnessTarget project flow) (u : Unicode) (expected : List (List Char)) :
    Prop where
  fields : ∀ field ∈ closedFields, NoEntry (t.target.field field)
  sources : t.CompilesExactly expected
  others : ∀ id ∈ t.phases, isSourcesPhase t.objects id = false →
    ∃ phase : Mapping, t.objects.get id = some (.mapping phase) ∧ NoEntry (phase.field "files")
  settled : t.Settled u

/-- What the check reads as a list of identifiers is one, where there is anything. -/
structure Legible (t : HarnessTarget project flow) : Prop where
  fields : ∀ field ∈ closedFields, HostAgent.Legible (t.target.field field)
  others : ∀ id ∈ t.phases, isSourcesPhase t.objects id = false →
    ∃ phase : Mapping, t.objects.get id = some (.mapping phase) ∧ HostAgent.Legible (phase.field "files")

end HarnessTarget

/-! ### What the check finds out -/

section Check
variable {u : Unicode} {objects : Mapping} {value : Option OpenStep}

theorem pbxMapping_eq_some {m : Mapping} :
    pbxMapping value = some m ↔ value = some (.mapping m) := by
  unfold pbxMapping
  split
  · simp
  · rename_i hne
    simp only [reduceCtorEq, false_iff]
    exact hne m

theorem holdsText_iff {m : Mapping} {key : String} {text : List Char} :
    m.holdsText key text = true ↔ m.field key = some (.text text) := by
  unfold Mapping.holdsText
  split
  · rename_i held heq
    simp [heq]
  · rename_i hne
    simp only [Bool.false_eq_true, false_iff]
    exact hne text

theorem text_of_pbxObjectId {v : OpenStep} {id : List Char} (h : pbxObjectId v = some id) :
    v = .text id := by
  unfold pbxObjectId at h
  split at h
  · simp only [Option.ite_none_right_eq_some, Option.some.injEq] at h
    rw [h.2]
  · cases h

theorem array_of_pbxObjectIds {ids : List (List Char)} (h : pbxObjectIds value = some ids) :
    value = some (.array (ids.map .text)) := by
  unfold pbxObjectIds at h
  split at h
  · rename_i items
    congr 2
    induction items generalizing ids with
    | nil =>
      cases h
      rfl
    | cons item rest ih =>
      simp only [List.mapM_cons, Option.bind_eq_bind, Option.bind_eq_some_iff, Option.pure_def,
        Option.some.injEq] at h
      obtain ⟨id, hid, more, hmore, rfl⟩ := h
      rw [List.map_cons, ← ih hmore, text_of_pbxObjectId hid]
  · cases h

/-- Where no identifiers are read, there is no entry just if the field is legible. -/
theorem noEntry_iff_legible (h : readsNoIds value = true) : NoEntry value ↔ Legible value := by
  refine ⟨fun hempty held hheld => .inl (hempty held hheld), fun hlegible held hheld => ?_⟩
  refine (hlegible held hheld).elim id fun hids => ?_
  obtain ⟨ids, hids⟩ := Option.isSome_iff_exists.mp hids
  rw [← Option.mem_def.mp hheld] at hids
  simp only [readsNoIds, hids, Bool.or_eq_true, decide_eq_true_eq, reduceCtorEq, Option.some.injEq,
    false_or] at h
  have harray := array_of_pbxObjectIds hids
  rw [Option.mem_def.mp hheld, h] at harray
  cases harray
  rfl

theorem reads_iff {m : Mapping} {key text : String} :
    m.reads key text = true ↔ m.field key = some (.text text.toList) :=
  holdsText_iff

theorem settings_of_safe {settings : Mapping}
    (h : targetBuildSettingsAreSafe u settings = .ok ()) :
    ∀ setting ∈ settings, setting.1 ∈ targetBuildSettingKeys ∧
      settingIsSafe u setting.1 setting.2 = true := by
  simp only [targetBuildSettingsAreSafe, Except.bind_eq_ok, Except.require_eq_ok] at h
  obtain ⟨-, hkeys, -, -, -, -, hsafe⟩ := h
  exact fun setting hsetting =>
    ⟨hkeys (List.mem_map_of_mem hsetting), hsafe setting hsetting⟩

/-- What is allowed as the settings of a configuration. -/
def AllowedSettings (u : Unicode) (target : Bool) (settings : Mapping) : Prop :=
  if target then ∀ setting ∈ settings, setting.1 ∈ targetBuildSettingKeys ∧
    settingIsSafe u setting.1 setting.2 = true
  else settings = []

theorem configured_of_closed {listId : Option (List Char)} {target : Bool}
    (h : buildConfigurationsAreClosed u objects listId target = .ok ()) :
    ∃ id, listId = some id ∧ Configured objects (some (.text id)) (AllowedSettings u target) := by
  simp only [buildConfigurationsAreClosed, Except.bind_eq_ok, Except.orThrow_eq_ok,
    Except.require_eq_ok, Option.bind_eq_some_iff, pbxMapping_eq_some, Except.forM_eq_ok] at h
  obtain ⟨list, ⟨id, rfl, hlist⟩, -, -, ids, hids, -, -, hconfigurations⟩ := h
  refine ⟨id, rfl, id, list, ids, rfl, hlist, array_of_pbxObjectIds hids, fun c hc => ?_⟩
  have hclosed := hconfigurations c hc
  simp only [configurationIsClosed, Except.bind_eq_ok, Except.orThrow_eq_ok,
    Except.require_eq_ok, pbxMapping_eq_some] at hclosed
  obtain ⟨configuration, hget, -, ⟨-, hbase⟩, settings, hsettings, hallowed⟩ := hclosed
  refine ⟨configuration, settings, hget, by simpa using hbase, hsettings, ?_⟩
  cases target with
  | true => exact settings_of_safe hallowed
  | false => exact List.isEmpty_iff.mp (Except.require_eq_ok.mp hallowed)

theorem phase_of_compilesSources {id : List Char} {compiles : Bool}
    (h : compilesSources objects id = .ok compiles) :
    isSourcesPhase objects id = compiles ∧ ∃ phase : Mapping,
      objects.get id = some (.mapping phase) ∧
      (compiles = false → readsNoIds (phase.field "files") = true) := by
  simp only [compilesSources, Except.bind_eq_ok, Except.orThrow_eq_ok, pbxMapping_eq_some] at h
  obtain ⟨phase, hphase, h⟩ := h
  simp only [isSourcesPhase, hphase]
  split at h
  · rename_i hsources
    cases h
    exact ⟨hsources, phase, rfl, fun h => by cases h⟩
  · rename_i hother
    simp only [Except.bind_eq_ok, Except.require_eq_ok, Except.pure_eq_ok] at h
    obtain ⟨-, -, -, ⟨-, hfiles⟩, rfl⟩ := h
    exact ⟨Bool.eq_false_iff.mpr hother, phase, rfl, fun _ => hfiles⟩

/-- The phases that compile sources are found, and the others read no files. -/
theorem sourcePhases_eq {ids phases : List (List Char)}
    (h : sourcePhases objects ids = .ok phases) :
    phases = ids.filter (isSourcesPhase objects) ∧
      ∀ id ∈ ids, isSourcesPhase objects id = false → ∃ phase : Mapping,
        objects.get id = some (.mapping phase) ∧ readsNoIds (phase.field "files") = true := by
  induction ids generalizing phases with
  | nil =>
    cases h
    exact ⟨rfl, nofun⟩
  | cons id rest ih =>
    simp only [sourcePhases, Except.bind_eq_ok, Except.pure_eq_ok] at h
    obtain ⟨compiles, hone, more, hmore, rfl⟩ := h
    obtain ⟨hcompiles, phase, hphase, hfiles⟩ := phase_of_compilesSources hone
    obtain ⟨rfl, hothers⟩ := ih hmore
    refine ⟨by rw [List.filter_cons, hcompiles], fun other hother hkind => ?_⟩
    rcases List.mem_cons.mp hother with rfl | hother
    · exact ⟨phase, hphase, hfiles (hcompiles.symm.trans hkind)⟩
    · exact hothers other hother hkind

theorem compiles_of_sourcePath {id path : List Char} (h : sourcePath objects id = .ok path) :
    Compiles objects id path := by
  simp only [sourcePath, Except.bind_eq_ok, Except.orThrow_eq_ok, Except.require_eq_ok,
    Option.bind_eq_some_iff, pbxMapping_eq_some] at h
  obtain ⟨buildFile, hbuildFile, -, ⟨-, hsettings⟩, reference, ⟨referenceId,
    ⟨value, hvalue, hid⟩, hreference⟩, -, -, h⟩ := h
  split at h
  · rename_i held hpath
    simp only [Except.bind_eq_ok, Except.pure_eq_ok] at h
    obtain ⟨-, -, rfl⟩ := h
    rw [text_of_pbxObjectId hid] at hvalue
    exact ⟨buildFile, referenceId, reference, hbuildFile, by simpa using hsettings, hvalue,
      hreference, hpath⟩
  · cases h

theorem actualSources_eq {ids actual paths : List (List Char)}
    (hactual : actual.Nodup) (h : actualSources objects actual ids = .ok paths) :
    paths.Nodup ∧ ∃ more, paths = actual ++ more ∧ List.Forall₂ (Compiles objects) ids more := by
  induction ids generalizing actual with
  | nil =>
    cases h
    exact ⟨hactual, [], (List.append_nil _).symm, .nil⟩
  | cons id rest ih =>
    simp only [actualSources, Except.bind_eq_ok, Except.require_eq_ok] at h
    obtain ⟨path, hpath, -, hnew, hrest⟩ := h
    have hnodup : (actual ++ [path]).Nodup := by
      rw [List.nodup_append_comm]
      exact List.nodup_cons.mpr ⟨by simpa using hnew, hactual⟩
    obtain ⟨hpaths, more, rfl, hmore⟩ := ih hnodup hrest
    exact ⟨hpaths, path :: more, List.append_assoc _ _ _,
      .cons (compiles_of_sourcePath hpath) hmore⟩

end Check

section Target
variable {u : Unicode} {project : OpenStep} {flow : Configuration.E2EFlow}
  {expected : List (List Char)}

/-- A project has at most one target with the identifier of the flow. -/
instance : Subsingleton (HarnessTarget project flow) := by
  refine ⟨fun a b => ?_⟩
  obtain ⟨file, objects, target, phases, rfl, hobjects, htarget, hphases⟩ := a
  obtain ⟨file', objects', target', phases', hfile, hobjects', htarget', hphases'⟩ := b
  cases hfile
  cases hobjects.symm.trans hobjects'
  cases htarget.symm.trans htarget'
  have hsame := hphases.symm.trans hphases'
  simp only [Option.some.injEq, OpenStep.array.injEq] at hsame
  cases List.map_injective_iff.mpr (fun _ _ => OpenStep.text.inj) hsame
  rfl

/-- A closed target compiles the expected sources and has allowed settings, and no identifiers are
read from the other fields. -/
theorem target_of_closed {file objects target : Mapping} (hfile : project = .mapping file)
    (hobjects : file.field "objects" = some (.mapping objects))
    (htarget : objects.get flow.harnessTargetIdentifier.toList = some (.mapping target))
    (h : targetIsClosed u file objects target flow expected = .ok ()) :
    ∃ t : HarnessTarget project flow, t.CompilesExactly expected ∧ t.Settled u ∧
      (∀ field ∈ closedFields, readsNoIds (t.target.field field) = true) ∧
      ∀ id ∈ t.phases, isSourcesPhase t.objects id = false → ∃ phase : Mapping,
        t.objects.get id = some (.mapping phase) ∧ readsNoIds (phase.field "files") = true := by
  simp only [targetIsClosed, Except.bind_eq_ok, Except.orThrow_eq_ok, Except.require_eq_ok,
    Option.bind_eq_some_iff, pbxMapping_eq_some] at h
  obtain ⟨-, -, -, hfields, listId, ⟨list, hlist, hlistId⟩, root, ⟨rootId, ⟨rootRef, hrootRef,
    hrootId⟩, hroot⟩, -, -, _, hproject, _, hconfigured, ids, hids, -, -, found, hfound, h⟩ := h
  obtain ⟨projectListId, hprojectListId, hprojectConfigured⟩ := configured_of_closed hproject
  obtain ⟨targetListId, htargetListId, htargetConfigured⟩ := configured_of_closed hconfigured
  obtain ⟨projectList, hprojectList, hprojectId⟩ := Option.bind_eq_some_iff.mp hprojectListId
  cases htargetListId
  rw [text_of_pbxObjectId hrootId] at hrootRef
  rw [text_of_pbxObjectId hlistId] at hlist
  rw [text_of_pbxObjectId hprojectId] at hprojectList
  obtain ⟨rfl, hothers⟩ := sourcePhases_eq hfound
  refine ⟨⟨file, objects, target, ids, hfile, hobjects, htarget, array_of_pbxObjectIds hids⟩,
    ?_, ⟨⟨rootId, root, hrootRef, hroot, ?_⟩, ?_⟩, hfields, hothers⟩
  · split at h
    · rename_i id hfilter
      simp only [Except.bind_eq_ok, Except.orThrow_eq_ok, Except.require_eq_ok,
        pbxMapping_eq_some] at h
      obtain ⟨phase, hphase, files, hfiles, -, -, actual, hactual, hin, hout⟩ := h
      obtain ⟨hnodup, paths, hsplit, hpaths⟩ := actualSources_eq List.nodup_nil hactual
      obtain rfl : actual = paths := hsplit
      exact ⟨id, phase, files, actual, hfilter, hphase, array_of_pbxObjectIds hfiles, hpaths, hnodup,
        fun path => ⟨fun hpath => hin hpath, fun hpath => hout hpath⟩⟩
    · cases h
  · rw [hprojectList]
    exact hprojectConfigured
  · rw [hlist]
    exact htargetConfigured

theorem closed_iff_legible {t : HarnessTarget project flow} (hsources : t.CompilesExactly expected)
    (hsettled : t.Settled u)
    (hfields : ∀ field ∈ closedFields, readsNoIds (t.target.field field) = true)
    (hothers : ∀ id ∈ t.phases, isSourcesPhase t.objects id = false → ∃ phase : Mapping,
      t.objects.get id = some (.mapping phase) ∧ readsNoIds (phase.field "files") = true) :
    t.Closed u expected ↔ t.Legible := by
  constructor
  · rintro ⟨hempty, -, hunfilled, -⟩
    refine ⟨fun field hfield => (noEntry_iff_legible (hfields field hfield)).mp
      (hempty field hfield), fun id hid hkind => ?_⟩
    obtain ⟨phase, hphase, hnone⟩ := hunfilled id hid hkind
    obtain ⟨phase', hphase', hreads⟩ := hothers id hid hkind
    cases hphase.symm.trans hphase'
    exact ⟨phase, hphase, (noEntry_iff_legible hreads).mp hnone⟩
  · rintro ⟨hlegible, hphases⟩
    refine ⟨fun field hfield => (noEntry_iff_legible (hfields field hfield)).mpr
      (hlegible field hfield), hsources, fun id hid hkind => ?_, hsettled⟩
    obtain ⟨phase, hphase, hnone⟩ := hphases id hid hkind
    obtain ⟨phase', hphase', hreads⟩ := hothers id hid hkind
    cases hphase.symm.trans hphase'
    exact ⟨phase, hphase, (noEntry_iff_legible hreads).mpr hnone⟩

end Target

/-- The target of an accepted project is closed just if the fields that the check finds empty, and
the files of the phases that compile no sources, are lists of object identifiers wherever there is
anything in them. -/
theorem closed_iff_of_compiles {u : Unicode} {content : Option ByteArray}
    {flow : Configuration.E2EFlow} {expected : List (List Char)}
    (h : projectCompilesExactSources u content flow expected = .ok true) :
    ∃ bytes text project, content = some bytes ∧ decode bytes = some text ∧
      OpenStep.parse u text = .ok project ∧
      ∃ t : HarnessTarget project flow, t.Closed u expected ↔ t.Legible := by
  unfold projectCompilesExactSources at h
  split at h
  · rename_i hclosed
    simp only [projectIsClosed, textIsClosed, Except.bind_eq_ok, Except.orThrow_eq_ok, Except.require_eq_ok,
      Except.relabel_eq_ok, pbxMapping_eq_some, Option.some.injEq] at hclosed
    obtain ⟨bytes, hbytes, -, -, text, htext, project, hproject, file, hfile, objects, hobjects,
      target, htarget, hclosed⟩ := hclosed
    obtain ⟨t, hsources, hsettled, hfields, hothers⟩ :=
      target_of_closed hfile hobjects htarget hclosed
    exact ⟨bytes, text, project, hbytes, htext, hproject, t,
      closed_iff_legible hsources hsettled hfields hothers⟩
  · cases h
  · cases h

/-! ### A dependency without an object identifier -/

theorem decode_toByteArray (s : String) : decode s.toByteArray = some s.toList := by
  have hvalid := s.isValidUTF8
  simp only [decode, String.fromUTF8?, hvalid, dif_pos, Option.map_some]
  rfl

theorem utf8ByteSize_ofChars (cs : List Char) :
    (String.ofList cs).utf8ByteSize = (cs.flatMap String.utf8EncodeChar).length := by
  simp [String.utf8ByteSize, List.utf8Encode]

/-- A text that passes is accepted as the content of a file. -/
theorem compiles_of_text {u : Unicode} {cs : List Char} {flow : Configuration.E2EFlow}
    {expected : List (List Char)}
    (hsize : (cs.flatMap String.utf8EncodeChar).length ≤ maxPinnedFileBytes)
    (h : textIsClosed u cs flow expected = .ok ()) :
    projectCompilesExactSources u (some (String.ofList cs).toByteArray) flow expected =
      .ok true := by
  have hclosed : projectIsClosed u (some (String.ofList cs).toByteArray) flow expected =
      .ok () := by
    simp only [projectIsClosed, Except.bind_eq_ok, Except.orThrow_eq_ok, Except.require_eq_ok]
    refine ⟨_, rfl, (), ?_, cs, ?_, h⟩
    · rw [String.size_toByteArray, utf8ByteSize_ofChars]
      exact hsize
    · rw [decode_toByteArray, String.toList_ofList]
  simp only [projectCompilesExactSources, hclosed]

namespace ForeignDependencyExample
open BoundaryExample (flow)

/-- A mapping of a project file. -/
def mapping (fields : List (List Char × List Char)) : List Char :=
  '\x7b' :: (fields.flatMap fun field => field.1 ++ '=' :: field.2 ++ [';']) ++ ['\x7d']

def array (item : List Char) : List Char := '(' :: item ++ [')']

/-- The identifier of an object. -/
def object (c : Char) : List Char := List.replicate 24 c

def field (key : String) (value : List Char) : List Char × List Char := (key.toList, value)

/-- The target depends on something that no object identifier names. -/
def objects : List (List Char × List Char) :=
  [(object 'A', mapping [field "isa" "PBXNativeTarget".toList, field "name" "Harness".toList,
      field "productType" ("com.apple.product-type.".toList ++ "bundle.ui-testing".toList),
      field "dependencies" (array "app".toList), field "buildConfigurationList" (object 'D'),
      field "buildPhases" (array (object 'E'))]),
    (object 'B', mapping [field "isa" "PBXProject".toList, field "targets" (array (object 'A')),
      field "buildConfigurationList" (object 'C')]),
    (object 'C', mapping [field "isa" "XCConfigurationList".toList,
      field "buildConfigurations" (array (object '1'))]),
    (object 'D', mapping [field "isa" "XCConfigurationList".toList,
      field "buildConfigurations" (array (object '2'))]),
    (object '1', mapping [field "isa" "XCBuildConfiguration".toList,
      field "buildSettings" (mapping [])]),
    (object '2', mapping [field "isa" "XCBuildConfiguration".toList,
      field "buildSettings" (mapping [field "GENERATE_INFOPLIST_FILE" "YES".toList])]),
    (object 'E', mapping [field "isa" "PBXSourcesBuildPhase".toList,
      field "files" (array (object 'F'))]),
    (object 'F', mapping [field "isa" "PBXBuildFile".toList, field "fileRef" (object '0')]),
    (object '0', mapping [field "isa" "PBXFileReference".toList,
      field "sourceTree" "SOURCE_ROOT".toList, field "path" "Harness/RunnerTests.swift".toList])]

def source : List Char :=
  mapping [field "objects" (mapping objects), field "rootObject" (object 'B')]

def content : ByteArray := (String.ofList source).toByteArray

def expected : List (List Char) := ["Harness/RunnerTests.swift".toList]

/-- There is an item among the dependencies of the target. -/
def depends (project : OpenStep) : Bool :=
  match (((pbxMapping (some project)).bind fun file => pbxMapping (file.field "objects")).bind
      fun objects => pbxMapping (objects.get flow.harnessTargetIdentifier.toList)).bind
      fun target => target.field "dependencies" with
  | some (.array (_ :: _)) => true
  | _ => false

theorem source_checked :
    ((source.flatMap String.utf8EncodeChar).length ≤ maxPinnedFileBytes ∧
      textIsClosed .ascii source flow expected = .ok ()) ∧
    (OpenStep.parse .ascii source).toOption.any depends = true := by
  decide +kernel

theorem content_accepted :
    projectCompilesExactSources .ascii (some content) flow expected = .ok true :=
  compiles_of_text source_checked.1.1 source_checked.1.2

theorem decode_content : decode content = some source := by
  rw [content, decode_toByteArray, String.toList_ofList]

/-- A target with a dependency is not closed. -/
theorem not_closed_of_depends {project : OpenStep} (h : depends project = true)
    (t : HarnessTarget project flow) : ¬ t.Closed .ascii expected := by
  intro hclosed
  have hempty := hclosed.fields "dependencies" (by decide)
  have hread : (((pbxMapping (some project)).bind
      fun file => pbxMapping (file.field "objects")).bind fun objects =>
      pbxMapping (objects.get flow.harnessTargetIdentifier.toList)).bind
      (fun target => target.field "dependencies") = t.target.field "dependencies" := by
    simp only [t.file_eq, pbxMapping, Option.bind_some, t.objects_eq, t.target_eq]
  unfold depends at h
  rw [hread] at h
  split at h
  · rename_i item rest hheld
    have hnil := hempty _ hheld
    cases hnil
  · cases h

end ForeignDependencyExample

open ForeignDependencyExample in
/-- A project is accepted although its target depends on something. -/
theorem not_closed_foreignDependency :
    projectCompilesExactSources .ascii (some content) BoundaryExample.flow expected = .ok true ∧
    ∃ project, decode content = some source ∧ OpenStep.parse .ascii source = .ok project ∧
      ∀ t : HarnessTarget project BoundaryExample.flow, ¬ t.Closed .ascii expected := by
  refine ⟨content_accepted, ?_⟩
  have hdepends := source_checked.2
  cases hparse : OpenStep.parse .ascii source with
  | error e =>
    rw [hparse] at hdepends
    cases hdepends
  | ok project =>
    rw [hparse] at hdepends
    exact ⟨project, decode_content, rfl, fun t => not_closed_of_depends hdepends t⟩

open ForeignDependencyExample in
theorem closed_iff_of_compiles_foreignDependency :
    ∃ bytes text project, some content = some bytes ∧ decode bytes = some text ∧
      OpenStep.parse .ascii text = .ok project ∧
      ∃ t : HarnessTarget project BoundaryExample.flow, t.Closed .ascii expected ↔ t.Legible :=
  closed_iff_of_compiles content_accepted

end ControlPlane.HostAgent
