import ControlPlane.Briefing.Policy

/-!
# What a brief accepted without a human opens

The policy compares paths as texts when a brief is accepted; the tools compare segments
without regard to case, and take the root for every path. A brief that the policy accepts
keeps the tools off every sensitive path exactly when the two comparisons agree about it.

## Main results

* `lowRisk_of_accepted`: what acceptance says about a draft.
* `opensNothingSensitive_iff`
-/
namespace ControlPlane
variable {u : Unicode}

/-- One of the two paths covers the other, without regard to case. -/
def pathsMeet (u : Unicode) (a b : String) : Bool :=
  (foldedPath u a).covers (foldedPath u b) || (foldedPath u b).covers (foldedPath u a)

/-- A path the tools accept as an argument and find in the scope of a brief. -/
def toolReaches (u : Unicode) (brief : Brief) (path : String) : Prop :=
  toolPath (.str path) true = some path ∧ pathInScope u path (includedPaths brief) = true

def OpensNothingSensitive (u : Unicode) (brief : Brief) (policy : PolicyVersion)
    (prohibited : List String) : Prop :=
  ∀ path, toolReaches u brief path → ∀ sensitive ∈ sensitivePaths u policy prohibited,
    pathsMeet u path sensitive = false

/-- What a draft needs to be accepted besides its paths. -/
structure LowRisk (draft : StructuredBriefDraft u) (policy : PolicyVersion)
    (configurationValid : Bool) : Prop where
  unambiguous : draft.ambiguityFlags = []
  contained : draft.scope.scopeExpansion = false
  configurationValid : configurationValid = true
  wellFormed : (briefApprovalPolicy u policy).wellFormed = true
  operations : ∀ operation ∈ draft.scope.operations,
    operation.operationId ∈ (briefApprovalPolicy u policy).preallowed ∧ operation.risk = .low
  risks : ∀ risk ∈ draft.risks, risk.level = .low

/-- The policy finds an overlap wherever the tools compare an included path with a sensitive
one and find that they meet. -/
def ComparisonsAgree (u : Unicode) (brief : Brief) (policy : PolicyVersion)
    (prohibited : List String) : Prop :=
  ∀ path ∈ includedPaths brief, ∀ sensitive ∈ sensitivePaths u policy prohibited,
    pathsMeet u path sensitive = true → pathScopesOverlap path sensitive = true

/-! ### Paths that cover one another -/

namespace PurePosixPath
variable {p q r : PurePosixPath}

theorem covers_iff : p.covers q = true ↔ p.root = q.root ∧ p.parts <+: q.parts := by
  simp [covers]

theorem covers_refl (p : PurePosixPath) : p.covers p = true :=
  covers_iff.mpr ⟨rfl, List.prefix_rfl⟩

theorem covers_trans (hpq : p.covers q = true) (hqr : q.covers r = true) : p.covers r = true := by
  rw [covers_iff] at *
  exact ⟨hpq.1.trans hqr.1, hpq.2.trans hqr.2⟩

/-- Two paths that cover a third one are comparable. -/
theorem covers_total (hp : p.covers r = true) (hq : q.covers r = true) :
    (p.covers q || q.covers p) = true := by
  rw [covers_iff] at hp hq
  rw [Bool.or_eq_true, covers_iff, covers_iff]
  rcases List.prefix_or_prefix_of_prefix hp.2 hq.2 with h | h
  · exact .inl ⟨hp.1.trans hq.1.symm, h⟩
  · exact .inr ⟨hq.1.trans hp.1.symm, h⟩

end PurePosixPath

/-- What meets a path below another one meets that one. -/
theorem pathsMeet_of_covers {a b c : String} (hab : (foldedPath u a).covers (foldedPath u b) = true)
    (hbc : pathsMeet u b c = true) : pathsMeet u a c = true := by
  rw [pathsMeet, Bool.or_eq_true] at hbc
  rcases hbc with hbc | hcb
  · rw [pathsMeet, PurePosixPath.covers_trans hab hbc, Bool.true_or]
  · exact PurePosixPath.covers_total hab hcb

/-- The root meets every sensitive path that is built in. -/
theorem pathsMeet_root {path sensitive : String} (hroot : foldedPath u path = .ofText ['.'])
    (hsensitive : sensitive ∈ builtInSensitivePaths) : pathsMeet u path sensitive = true := by
  have hrelative : (foldedPath u sensitive).root = 0 := by
    simp only [builtInSensitivePaths, List.mem_cons, List.not_mem_nil, or_false] at hsensitive
    rcases hsensitive with rfl | rfl | rfl | rfl | rfl <;> rfl
  rw [pathsMeet, Bool.or_eq_true]
  exact .inl (PurePosixPath.covers_iff.mpr ⟨hroot ▸ hrelative.symm, hroot ▸ List.nil_prefix⟩)

/-! ### Acceptance -/

section Accepted
variable {draft : StructuredBriefDraft u} {policy : PolicyVersion} {prohibited : List String}
  {configurationValid : Bool}

theorem policyFlags_of_accepted
    (h : (evaluatePolicy draft policy prohibited configurationValid).disposition =
      .autoAcceptedByPolicy) :
    policyFlags draft policy prohibited configurationValid = [] := by
  unfold evaluatePolicy at h
  cases hflags : policyFlags draft policy prohibited configurationValid with
  | nil => rfl
  | cons flag flags => simp [hflags, List.eraseDups_cons] at h

theorem lowRisk_of_accepted
    (h : (evaluatePolicy draft policy prohibited configurationValid).disposition =
      .autoAcceptedByPolicy) : LowRisk draft policy configurationValid := by
  have hflags := policyFlags_of_accepted h
  simp only [policyFlags, List.append_eq_nil_iff, List.flatMap_eq_nil_iff, List.map_eq_nil_iff,
    ite_eq_left_iff, ite_eq_right_iff, List.cons_ne_nil, imp_false, Bool.not_eq_true,
    Bool.not_eq_false, List.filter_eq_nil_iff, decide_eq_true_eq, not_not,
    List.contains_iff_mem] at hflags
  obtain ⟨⟨⟨⟨⟨⟨hambiguity, hexpansion⟩, hconfiguration⟩, hpolicy⟩, -⟩, hoperations⟩, hrisks⟩ :=
    hflags
  exact ⟨hambiguity, hexpansion, hconfiguration, hpolicy, hoperations, hrisks⟩

/-- No included path of an accepted draft overlaps a sensitive one as a text. -/
theorem pathScopesOverlap_of_accepted
    (h : (evaluatePolicy draft policy prohibited configurationValid).disposition =
      .autoAcceptedByPolicy) {path sensitive : String} (hpath : path ∈ draft.scope.includedPaths)
    (hsensitive : sensitive ∈ sensitivePaths u policy prohibited) :
    pathScopesOverlap path sensitive = false := by
  have hflags := policyFlags_of_accepted h
  simp only [policyFlags, List.append_eq_nil_iff, List.map_eq_nil_iff, List.filter_eq_nil_iff]
    at hflags
  have hnone := hflags.1.1.2 path hpath
  rw [Bool.not_eq_true, List.any_eq_false] at hnone
  exact Bool.eq_false_iff.mpr (hnone sensitive hsensitive)

/-! ### What the tools read -/

variable {brief : Brief}

/-- A path is read as it is or not at all. -/
theorem eq_of_toolPath {value path : String} (h : toolPath (.str value) true = some path) :
    path = value := by
  simp only [toolPath] at h
  split at h
  · cases h
  · split at h
    · simpa using h.symm
    · split at h
      · cases h
      · exact (Option.some.inj h).symm

theorem mem_of_mapM_toolPath {values paths : List String}
    (h : (values.map Json.str).mapM (toolPath · true) = some paths) {path : String}
    (hpath : path ∈ paths) : path ∈ values ∧ toolPath (.str path) true = some path := by
  induction values generalizing paths with
  | nil =>
    obtain rfl : [] = paths := by simpa using h
    cases hpath
  | cons value values ih =>
    simp only [List.map_cons, List.mapM_cons, Option.bind_eq_bind, Option.bind_eq_some_iff,
      Option.pure_def, Option.some.injEq] at h
    obtain ⟨first, hfirst, rest, hrest, rfl⟩ := h
    obtain rfl := eq_of_toolPath hfirst
    rcases List.mem_cons.mp hpath with rfl | hpath
    · exact ⟨List.mem_cons_self, hfirst⟩
    · exact (ih hrest hpath).imp (List.mem_cons_of_mem _) id

/-- The tools read the paths of a draft as they are, or none of them. -/
theorem mem_includedPaths (hbrief : brief.scope = draft.scope.toDict) {path : String}
    (hpath : path ∈ includedPaths brief) :
    path ∈ draft.scope.includedPaths ∧ toolPath (.str path) true = some path := by
  have hraw : brief.scope.get "included_paths" = .arr (draft.scope.includedPaths.map .str) := by
    rw [hbrief]
    rfl
  simp only [includedPaths, hraw] at hpath
  cases hread : (draft.scope.includedPaths.map Json.str).mapM (toolPath · true) with
  | none => simp [hread] at hpath
  | some paths =>
    rw [hread] at hpath
    exact mem_of_mapM_toolPath hread hpath

/-- An included path is one the tools accept. -/
theorem toolReaches_of_included (hbrief : brief.scope = draft.scope.toDict) {path : String}
    (hpath : path ∈ includedPaths brief) : toolReaches u brief path := by
  refine ⟨(mem_includedPaths hbrief hpath).2, ?_⟩
  rw [pathInScope, List.any_eq_true]
  exact ⟨path, hpath, by simp [PurePosixPath.covers_refl]⟩

/-- What the tools reach under a brief meets a sensitive path only if an included path does. -/
theorem included_meets {path sensitive : String} (hreach : toolReaches u brief path)
    (hmeet : pathsMeet u path sensitive = true) :
    ∃ included ∈ includedPaths brief,
      foldedPath u included = .ofText ['.'] ∨ pathsMeet u included sensitive = true := by
  obtain ⟨-, hscope⟩ := hreach
  rw [pathInScope, List.any_eq_true] at hscope
  obtain ⟨included, hmem, hcovers⟩ := hscope
  rw [Bool.or_eq_true, decide_eq_true_eq] at hcovers
  refine ⟨included, hmem, ?_⟩
  rcases hcovers with hroot | hcovers
  · exact .inl hroot
  · exact .inr (pathsMeet_of_covers hcovers hmeet)

/-- A brief accepted without a human opens nothing sensitive, and is of low risk throughout,
exactly when the comparisons of the policy and of the tools agree about its paths. -/
theorem opensNothingSensitive_iff (hbrief : brief.scope = draft.scope.toDict)
    (h : (evaluatePolicy draft policy prohibited configurationValid).disposition =
      .autoAcceptedByPolicy) :
    (LowRisk draft policy configurationValid ∧
      OpensNothingSensitive u brief policy prohibited) ↔
      ComparisonsAgree u brief policy prohibited := by
  constructor
  · rintro ⟨-, hopens⟩ path hpath sensitive hsensitive hmeet
    rw [hopens path (toolReaches_of_included hbrief hpath) sensitive hsensitive] at hmeet
    cases hmeet
  · intro hagree
    refine ⟨lowRisk_of_accepted h, ?_⟩
    intro path hreach sensitive hsensitive
    rw [Bool.eq_false_iff]
    intro hmeet
    obtain ⟨included, hmem, hmeets⟩ := included_meets hreach hmeet
    have hapart : ∀ s ∈ sensitivePaths u policy prohibited, pathsMeet u included s ≠ true := by
      intro s hs hmeets
      have hnone := pathScopesOverlap_of_accepted h (mem_includedPaths hbrief hmem).1 hs
      rw [hagree included hmem s hs hmeets] at hnone
      cases hnone
    rcases hmeets with hroot | hmeets
    · have hbuiltIn : ".github/workflows" ∈ builtInSensitivePaths := by decide
      exact hapart _ (List.mem_append_left _ (List.mem_append_left _ hbuiltIn))
        (pathsMeet_root hroot hbuiltIn)
    · exact hapart sensitive hsensitive hmeets

end Accepted

/-! ### A brief for the whole repository -/

namespace BriefExample

def operation : BriefOperation := ⟨"edit-source", .low, "a small change"⟩

def scope (path : String) (h : ∃ value, repositoryPath .ascii value = some path) :
    BriefScope .ascii where
  objective := "rename a function"
  includedPaths := [path]
  operations := [operation]
  included_ne_nil := List.cons_ne_nil _ _
  canonical := by simpa using h
  nodup := List.nodup_singleton _

def draft (scope : BriefScope .ascii) : StructuredBriefDraft .ascii where
  scope := scope
  risks := [⟨"regression", .low⟩]

def brief (scope : BriefScope .ascii) : Brief where
  id := .ofNat 1
  taskId := .ofNat 2
  scope := scope.toDict

def policy : PolicyVersion where
  id := .ofNat 3
  lineageKey := "mvp"
  version := 1
  workflowThresholds := .obj [("brief_approval_policy", .obj
    [("schema_version", .int 1), ("preallowed_operations", .arr [.str "edit-source"]),
      ("sensitive_path_prefixes", .arr [.str "infra"]), ("approval_lifetime_hours", .int 24)])]
  approvedAt := 0
  ownerId := "owner"

def sources : BriefScope .ascii := scope "src" ⟨"src", by decide⟩
def wholeRepository : BriefScope .ascii := scope "." ⟨".", by decide⟩

theorem sources_accepted : (evaluatePolicy (draft sources) policy ["vendor"] true).disposition =
    .autoAcceptedByPolicy := by decide +kernel

theorem wholeRepository_accepted :
    (evaluatePolicy (draft wholeRepository) policy ["vendor"] true).disposition =
      .autoAcceptedByPolicy := by decide +kernel

theorem workflow_reached : toolReaches .ascii (brief wholeRepository) ".github/workflows/ci.yml" :=
  ⟨by decide +kernel, by decide +kernel⟩

end BriefExample

open BriefExample in
theorem opensNothingSensitive_iff_sources :
    (LowRisk (draft sources) policy true ∧
      OpensNothingSensitive .ascii (brief sources) policy ["vendor"]) ↔
      ComparisonsAgree .ascii (brief sources) policy ["vendor"] :=
  opensNothingSensitive_iff rfl sources_accepted

open BriefExample in
/-- The root overlaps no sensitive path as a text, and opens every one of them. -/
theorem not_opensNothingSensitive_root :
    ¬ ∀ (u : Unicode) (draft : StructuredBriefDraft u) (brief : Brief) (policy : PolicyVersion)
      (prohibited : List String) (configurationValid : Bool),
      brief.scope = draft.scope.toDict →
      (evaluatePolicy draft policy prohibited configurationValid).disposition =
        .autoAcceptedByPolicy →
      LowRisk draft policy configurationValid ∧
        OpensNothingSensitive u brief policy prohibited := by
  intro hall
  have hopens := (hall .ascii (draft wholeRepository) (brief wholeRepository) policy ["vendor"]
    true rfl wholeRepository_accepted).2
  have hmem : ".github/workflows" ∈ sensitivePaths .ascii policy ["vendor"] :=
    List.mem_append_left _ (List.mem_append_left _ (by decide))
  have hmeet : pathsMeet .ascii ".github/workflows/ci.yml" ".github/workflows" = true := by
    decide +kernel
  rw [hopens _ workflow_reached _ hmem] at hmeet
  cases hmeet

end ControlPlane
