import ControlPlane.Domain
import ControlPlane.Lib.History
import ControlPlane.Lib.Runtime
import ControlPlane.Lib.System
import ControlPlane.Lib.Transaction

/-!
# Evaluation contracts

A lineage of contract versions: the thresholds and regression cases that runs are evaluated
against. A version with the contents of the latest one is not created again; a version that is
created active takes the place of the active one.

## Main definitions

* `createContractVersion`
* `contractSystem`: any sequence of calls.

## Main results

* `versions_of_reachable`: each lineage is numbered from one, linked, and active once at most.
* `contract_promises_iff`: when every activating call returns the active version it asked for.
-/
namespace ControlPlane.Evaluation

open Regex Regex.Re

/-! ### Requests -/

inductive EvaluationTelemetryError where
  | validation (message : String)
  /-- A constraint of the database refuses the row. -/
  | integrity
  deriving DecidableEq

def identifierPattern : Pattern :=
  seq (cls alnum) (many true 0 (some 254) (cls (.union alnum (oneOf "._:/-"))))

def identifier (rt : Runtime) (value field : String) : Except EvaluationTelemetryError String := do
  let normalized := rt.unicode.strip value.toList
  Except.require (identifierPattern.fullmatch (CharClass.holds rt.unicode) normalized = true)
    (.validation s!"{field} is invalid")
  return String.ofList normalized

structure EvaluationThresholds where
  minimumRunCount : ℤ
  minimumQualityScore : ℚ
  maximumAverageCostMicrousd : ℤ
  minimumRegressionPassRate : ℚ
  deriving DecidableEq

def EvaluationThresholds.toJson (t : EvaluationThresholds) : Json :=
  .obj [("minimum_run_count", .int t.minimumRunCount),
    ("minimum_quality_score", .float t.minimumQualityScore),
    ("maximum_average_cost_microusd", .int t.maximumAverageCostMicrousd),
    ("minimum_regression_pass_rate", .float t.minimumRegressionPassRate)]

def thresholdKeys : List String :=
  ["minimum_run_count", "minimum_quality_score", "maximum_average_cost_microusd",
    "minimum_regression_pass_rate"]

def invalidThresholds : EvaluationTelemetryError :=
  .validation "evaluation thresholds are invalid"

/-- An integer or a float between zero and one, as a float. -/
def unitRate : Json → Except EvaluationTelemetryError ℚ
  | .int n => do
    Except.require (0 ≤ n ∧ n ≤ 1) invalidThresholds
    return n
  | .float q => do
    Except.require (0 ≤ q ∧ q ≤ 1) invalidThresholds
    return q
  | _ => .error invalidThresholds

/-- The thresholds of a mapping with exactly their keys. -/
def thresholds (value : List (String × Json)) :
    Except EvaluationTelemetryError EvaluationThresholds := do
  Except.require ((∀ key ∈ value.map Prod.fst, key ∈ thresholdKeys) ∧
    ∀ key ∈ thresholdKeys, key ∈ value.map Prod.fst) invalidThresholds
  let runCount ← Except.orThrow ((Json.obj value).get "minimum_run_count").int? invalidThresholds
  let cost ← Except.orThrow ((Json.obj value).get "maximum_average_cost_microusd").int?
    invalidThresholds
  Except.require (1 ≤ runCount ∧ 0 ≤ cost) invalidThresholds
  let quality ← unitRate ((Json.obj value).get "minimum_quality_score")
  let regression ← unitRate ((Json.obj value).get "minimum_regression_pass_rate")
  return ⟨runCount, quality, cost, regression⟩

def regressionCases (rt : Runtime) (values : List String) :
    Except EvaluationTelemetryError (List String) := do
  let cases ← values.mapM fun value => identifier rt value "regression case"
  Except.require (cases ≠ [] ∧ cases.length ≤ 100 ∧ cases.Nodup)
    (.validation "regression cases are invalid")
  return cases

/-- The arguments of a call. -/
structure ContractRequest where
  lineageKey : String
  promotionThresholds : List (String × Json)
  regressionCases : List String
  actorId : String
  activate : Bool := false

/-- What a version is about. -/
structure ContractContent where
  promotionThresholds : EvaluationThresholds
  regressionCases : List String
  deriving DecidableEq

def ContractContent.fingerprint (rt : Runtime) (content : ContractContent) : String :=
  rt.fingerprint (.obj [("thresholds", content.promotionThresholds.toJson),
    ("cases", .arr (content.regressionCases.map .str))])

/-- A request whose arguments passed their checks. -/
structure CheckedRequest where
  lineage : String
  actor : String
  content : ContractContent
  activate : Bool
  deriving DecidableEq

def ContractRequest.check (rt : Runtime) (c : ContractRequest) :
    Except EvaluationTelemetryError CheckedRequest := do
  let lineage ← identifier rt c.lineageKey "evaluation lineage"
  let actor ← identifier rt c.actorId "evaluation actor"
  let thresholds ← thresholds c.promotionThresholds
  let cases ← Evaluation.regressionCases rt c.regressionCases
  return ⟨lineage, actor, ⟨thresholds, cases⟩, c.activate⟩

/-! ### Versions -/

structure EvaluationContractVersion where
  id : UUID
  lineageKey : String
  version : ℕ
  predecessorId : Option UUID
  content : ContractContent
  contractFingerprint : String
  active : Bool
  activatedAt : Option Time
  actorId : String
  rootCorrelationId : UUID
  causationId : Option UUID
  deriving DecidableEq

instance : Keyed EvaluationContractVersion UUID := ⟨EvaluationContractVersion.id⟩

abbrev EvaluationContracts := Table EvaluationContractVersion

/-- What a new version draws. -/
structure FreshContract where
  id : UUID
  rootCorrelationId : UUID
  deriving DecidableEq

def lineageVersions (lineage : String) (contracts : EvaluationContracts) :
    List EvaluationContractVersion :=
  contracts.rows.filter fun row => row.lineageKey = lineage

def latestVersion (lineage : String) (contracts : EvaluationContracts) :
    Option EvaluationContractVersion :=
  latestBy EvaluationContractVersion.version (lineageVersions lineage contracts)

/-- The active version of a lineage is active no more. -/
def deactivate (lineage : String) (contracts : EvaluationContracts) : EvaluationContracts :=
  match (lineageVersions lineage contracts).find? (·.active) with
  | some active => contracts.set { active with active := false }
  | none => contracts

def CheckedRequest.version (asked : CheckedRequest) (rt : Runtime) (now : Time)
    (fresh : FreshContract) (latest : Option EvaluationContractVersion) :
    EvaluationContractVersion where
  id := fresh.id
  lineageKey := asked.lineage
  version := match latest with
    | none => 1
    | some latest => latest.version + 1
  predecessorId := latest.map (·.id)
  content := asked.content
  contractFingerprint := asked.content.fingerprint rt
  active := asked.activate
  activatedAt := if asked.activate then some now else none
  actorId := asked.actor
  rootCorrelationId := match latest with
    | none => fresh.rootCorrelationId
    | some latest => latest.rootCorrelationId
  causationId := latest.map (·.id)

/-- The unique columns: a version of a lineage, and its active version. -/
def admitsVersion (contracts : EvaluationContracts) (row : EvaluationContractVersion) : Prop :=
  ∀ other ∈ lineageVersions row.lineageKey contracts,
    other.version ≠ row.version ∧ ¬(other.active = true ∧ row.active = true)

instance (contracts : EvaluationContracts) (row : EvaluationContractVersion) :
    Decidable (admitsVersion contracts row) := by
  unfold admitsVersion
  infer_instance

def CheckedRequest.insert (asked : CheckedRequest) (rt : Runtime) (now : Time)
    (fresh : FreshContract) (contracts : EvaluationContracts) :
    Except EvaluationTelemetryError (EvaluationContractVersion × EvaluationContracts) := do
  let row := asked.version rt now fresh (latestVersion asked.lineage contracts)
  let contracts := if asked.activate then deactivate asked.lineage contracts else contracts
  Except.require (admitsVersion contracts row) .integrity
  let contracts ← Except.orThrow (contracts.insert? row) .integrity
  return (row, contracts)

def CheckedRequest.create (asked : CheckedRequest) (rt : Runtime) (now : Time)
    (fresh : FreshContract) (contracts : EvaluationContracts) :
    Except EvaluationTelemetryError (EvaluationContractVersion × EvaluationContracts) :=
  match latestVersion asked.lineage contracts with
  | some latest =>
    if latest.contractFingerprint = asked.content.fingerprint rt then .ok (latest, contracts)
    else asked.insert rt now fresh contracts
  | none => asked.insert rt now fresh contracts

def createContractVersion (rt : Runtime) (now : Time) (fresh : FreshContract)
    (c : ContractRequest) (contracts : EvaluationContracts) :
    Except EvaluationTelemetryError (EvaluationContractVersion × EvaluationContracts) := do
  let asked ← c.check rt
  asked.create rt now fresh contracts

/-! ### Lineages -/

/-- The versions of a lineage, in the order they were created. -/
structure Versions (vs : List EvaluationContractVersion) : Prop where
  numbered : vs.map EvaluationContractVersion.version = List.range' 1 vs.length
  linked : History.Linked EvaluationContractVersion.predecessorId (fun row => some row.id) vs
  first : ∀ row ∈ vs.head?, row.predecessorId = none
  active : vs.Pairwise fun a b => ¬(a.active = true ∧ b.active = true)

section Lineages
variable {rt : Runtime} {now : Time} {fresh : FreshContract} {asked : CheckedRequest}
  {contracts contracts' : EvaluationContracts} {row : EvaluationContractVersion}
  {vs : List EvaluationContractVersion} {lineage : String}

theorem mem_lineageVersions :
    row ∈ lineageVersions lineage contracts ↔ row ∈ contracts ∧ row.lineageKey = lineage := by
  simp [lineageVersions, Table.mem_def]

theorem Versions.nil : Versions [] :=
  ⟨rfl, List.isChain_nil, by simp, List.Pairwise.nil⟩

/-- The latest version is the last one, and its number is how many there are. -/
theorem Versions.latest (h : Versions vs) : latestBy EvaluationContractVersion.version vs =
    vs.getLast? := by
  have hincreasing : (vs.map EvaluationContractVersion.version).Pairwise (· < ·) := by
    rw [h.numbered]
    exact List.pairwise_lt_range'
  exact History.Increasing.latestBy_eq_getLast? (List.pairwise_map.mp hincreasing)

theorem Versions.version_of_getLast? (h : Versions vs) (hrow : vs.getLast? = some row) :
    row.version = vs.length := by
  obtain ⟨before, rfl⟩ := List.getLast?_eq_some_iff.mp hrow
  have hnumbered := h.numbered
  rw [List.map_append, List.length_append, List.range'_append_1.symm] at hnumbered
  have hlast := (List.append_inj' hnumbered rfl).2
  simp only [List.map_cons, List.map_nil, List.length_singleton, List.range'_one,
    List.cons.injEq, and_true] at hlast
  rw [hlast, List.length_append, List.length_singleton, Nat.add_comm]

theorem Versions.version_le (h : Versions vs) (hrow : row ∈ vs) : row.version ≤ vs.length := by
  have hmem : row.version ∈ List.range' 1 vs.length := by
    rw [← h.numbered]
    exact List.mem_map_of_mem hrow
  have := List.mem_range'_1.mp hmem
  omega

/-- A version appended under the next number, as the successor of the last one. -/
theorem Versions.concat (h : Versions vs) (hversion : row.version = vs.length + 1)
    (hpredecessor : row.predecessorId = vs.getLast?.map (·.id))
    (hactive : row.active = true → ∀ other ∈ vs, other.active = false) :
    Versions (vs ++ [row]) where
  numbered := by
    rw [List.map_append, h.numbered, List.length_append, List.length_singleton,
      ← List.range'_append_1, List.map_singleton, hversion, List.range'_one, Nat.add_comm]
  linked := by
    refine h.linked.concat fun a ha => ?_
    rw [hpredecessor, Option.mem_def.mp ha]
    rfl
  first := by
    intro first hfirst
    cases vs with
    | nil =>
      obtain rfl : row = first := by simpa using hfirst
      rw [hpredecessor]
      rfl
    | cons a vs => exact h.first first (by simpa using hfirst)
  active := by
    refine List.pairwise_append.mpr ⟨h.active, List.pairwise_singleton _ _, ?_⟩
    intro a ha b hb
    obtain rfl := List.mem_singleton.mp hb
    rintro ⟨hother, hrow⟩
    rw [hactive hrow a ha] at hother
    cases hother

/-- Versions that are changed in whether they are active, and not made active. -/
theorem Versions.map (h : Versions vs) {f : EvaluationContractVersion → EvaluationContractVersion}
    (hversion : ∀ row ∈ vs, (f row).version = row.version)
    (hpredecessor : ∀ row ∈ vs, (f row).predecessorId = row.predecessorId)
    (hid : ∀ row ∈ vs, (f row).id = row.id)
    (hactive : ∀ row ∈ vs, (f row).active = true → row.active = true) :
    Versions (vs.map f) where
  numbered := by
    rw [List.length_map, ← h.numbered, List.map_map]
    exact List.map_congr_left hversion
  linked := by
    refine List.isChain_map f |>.mpr ?_
    refine List.IsChain.imp_of_mem_imp ?_ h.linked
    intro a b ha hb hlink
    change some (f a).id = (f b).predecessorId
    rw [hid a ha, hpredecessor b hb]
    exact hlink
  first := by
    intro first hfirst
    rw [List.head?_map] at hfirst
    obtain ⟨row, hrow, rfl⟩ := Option.map_eq_some_iff.mp hfirst
    rw [hpredecessor row (List.mem_of_mem_head? hrow)]
    exact h.first row hrow
  active := by
    refine List.pairwise_map.mpr (h.active.imp_of_mem ?_)
    rintro a b ha hb hnot ⟨hfa, hfb⟩
    exact hnot ⟨hactive a ha hfa, hactive b hb hfb⟩

/-- At most one version is active. -/
theorem Versions.eq_of_active (h : Versions vs) {other : EvaluationContractVersion}
    (hrow : row ∈ vs) (hother : other ∈ vs) (hactive : row.active = true)
    (hactive' : other.active = true) : row = other := by
  by_contra hne
  have hsymm : Std.Symm fun a b : EvaluationContractVersion =>
      ¬(a.active = true ∧ b.active = true) := ⟨fun a b hab hba => hab hba.symm⟩
  exact h.active.forall hrow hother hne ⟨hactive, hactive'⟩

/-! ### What a call changes -/

def EvaluationContractVersion.retire (row : EvaluationContractVersion) :
    EvaluationContractVersion :=
  { row with active := false }

theorem lineageVersions_set (row' : EvaluationContractVersion) (hrow : row ∈ contracts)
    (hid : row'.id = row.id) (hlineage : row'.lineageKey = row.lineageKey) :
    lineageVersions lineage (contracts.set row') =
      (lineageVersions lineage contracts).map fun other =>
        if other.id = row'.id then row' else other := by
  change (contracts.rows.map fun other => if other.id = row'.id then row' else other).filter _ = _
  rw [List.filter_map]
  refine congrArg _ (List.filter_congr fun other hother => ?_)
  by_cases hsame : other.id = row'.id
  · obtain rfl : other = row := Table.eq_of_key_eq hother hrow (hsame.trans hid)
    simp [hsame, hlineage]
  · simp [hsame]

/-- Deactivation retires the versions of the lineage, of which one at most was active. -/
theorem lineageVersions_deactivate (h : Versions (lineageVersions asked.lineage contracts)) :
    lineageVersions lineage (deactivate asked.lineage contracts) =
      if lineage = asked.lineage then
        (lineageVersions lineage contracts).map EvaluationContractVersion.retire
      else lineageVersions lineage contracts := by
  have hretired : ∀ other : EvaluationContractVersion, other.active = false →
      other.retire = other := by
    intro other hother
    rw [EvaluationContractVersion.retire, ← hother]
  rw [deactivate]
  cases hfind : (lineageVersions asked.lineage contracts).find? (·.active) with
  | none =>
    by_cases hlineage : lineage = asked.lineage
    · subst hlineage
      rw [if_pos rfl]
      refine ((List.map_congr_left fun other hother => ?_).trans (List.map_id' _)).symm
      exact hretired other (by simpa using List.find?_eq_none.mp hfind other hother)
    · rw [if_neg hlineage]
  | some active =>
    have hmem := List.mem_of_find?_eq_some hfind
    have hactive : active.active = true := by simpa using List.find?_some hfind
    obtain ⟨hstored, hkey⟩ := mem_lineageVersions.mp hmem
    simp only [lineageVersions_set { active with active := false } hstored rfl rfl]
    by_cases hlineage : lineage = asked.lineage
    · subst hlineage
      rw [if_pos rfl]
      refine List.map_congr_left fun other hother => ?_
      by_cases hsame : other.id = active.id
      · obtain rfl : other = active :=
          Table.eq_of_key_eq (mem_lineageVersions.mp hother).1 hstored hsame
        rw [if_pos rfl]
        rfl
      · rw [if_neg hsame, hretired]
        by_contra hother'
        have := h.eq_of_active hother hmem (by simpa using hother') hactive
        exact hsame (congrArg _ this)
    · rw [if_neg hlineage]
      refine (List.map_congr_left fun other hother => ?_).trans (List.map_id' _)
      refine if_neg fun hsame => hlineage ?_
      obtain ⟨hmem', hkey'⟩ := mem_lineageVersions.mp hother
      obtain rfl : other = active := Table.eq_of_key_eq hmem' hstored hsame
      rw [← hkey', hkey]

/-- The versions a new one is appended to. -/
def CheckedRequest.previous (asked : CheckedRequest) (contracts : EvaluationContracts) :
    List EvaluationContractVersion :=
  if asked.activate then
    (lineageVersions asked.lineage contracts).map EvaluationContractVersion.retire
  else lineageVersions asked.lineage contracts

theorem Versions.previous (h : Versions (lineageVersions asked.lineage contracts)) :
    Versions (asked.previous contracts) := by
  rw [CheckedRequest.previous]
  split
  · exact h.map (fun _ _ => rfl) (fun _ _ => rfl) (fun _ _ => rfl) fun _ _ hactive => by
      cases hactive
  · exact h

theorem length_previous :
    (asked.previous contracts).length = (lineageVersions asked.lineage contracts).length := by
  rw [CheckedRequest.previous]
  split
  · exact List.length_map _
  · rfl

theorem getLast?_previous :
    (asked.previous contracts).getLast?.map (·.id) =
      (lineageVersions asked.lineage contracts).getLast?.map (·.id) := by
  rw [CheckedRequest.previous]
  split
  · rw [List.getLast?_map, Option.map_map]
    rfl
  · rfl

theorem not_active_of_previous (hactivate : asked.activate = true)
    (hrow : row ∈ asked.previous contracts) : row.active = false := by
  rw [CheckedRequest.previous, if_pos hactivate] at hrow
  obtain ⟨other, -, rfl⟩ := List.mem_map.mp hrow
  rfl

/-- The number of a new version. -/
theorem version_new (h : Versions (lineageVersions asked.lineage contracts)) :
    (asked.version rt now fresh (latestVersion asked.lineage contracts)).version =
      (lineageVersions asked.lineage contracts).length + 1 := by
  rw [latestVersion, h.latest]
  cases hlast : (lineageVersions asked.lineage contracts).getLast? with
  | none =>
    rw [List.getLast?_eq_none_iff.mp hlast]
    rfl
  | some latest =>
    show latest.version + 1 = _
    rw [h.version_of_getLast? hlast]

/-- The lineages before the new row is inserted. -/
theorem lineageVersions_before (h : Versions (lineageVersions asked.lineage contracts)) :
    lineageVersions lineage
        (if asked.activate then deactivate asked.lineage contracts else contracts) =
      if lineage = asked.lineage then asked.previous contracts
      else lineageVersions lineage contracts := by
  rw [CheckedRequest.previous]
  by_cases hactivate : asked.activate = true
  · rw [if_pos hactivate, if_pos hactivate, lineageVersions_deactivate h]
    by_cases hlineage : lineage = asked.lineage
    · subst hlineage
      rfl
    · rw [if_neg hlineage, if_neg hlineage]
  · rw [if_neg hactivate, if_neg hactivate]
    by_cases hlineage : lineage = asked.lineage
    · subst hlineage
      rw [if_pos rfl]
    · rw [if_neg hlineage]

/-- A new row is appended to its lineage. -/
theorem insert_ok (h : Versions (lineageVersions asked.lineage contracts))
    (hinsert : asked.insert rt now fresh contracts = .ok (row, contracts')) :
    row = asked.version rt now fresh (latestVersion asked.lineage contracts) ∧
      ∀ lineage, lineageVersions lineage contracts' =
        if lineage = asked.lineage then asked.previous contracts ++ [row]
        else lineageVersions lineage contracts := by
  simp only [CheckedRequest.insert, Except.bind_eq_ok, Except.require_eq_ok, Except.orThrow_eq_ok,
    Except.pure_eq_ok, Prod.mk.injEq] at hinsert
  obtain ⟨_, -, inserted, hrows, rfl, rfl⟩ := hinsert
  refine ⟨rfl, fun lineage => ?_⟩
  rw [lineageVersions, (Table.insert?_eq_some.mp hrows).2, List.filter_append]
  change lineageVersions lineage _ ++ _ = _
  rw [lineageVersions_before h]
  by_cases hlineage : lineage = asked.lineage
  · subst hlineage
    simp [CheckedRequest.version]
  · simp [CheckedRequest.version, hlineage, Ne.symm hlineage]

theorem create_cases (h : Versions (lineageVersions asked.lineage contracts))
    (hcreate : asked.create rt now fresh contracts = .ok (row, contracts')) :
    (latestVersion asked.lineage contracts = some row ∧
        row.contractFingerprint = asked.content.fingerprint rt ∧ contracts' = contracts) ∨
      ((∀ latest, latestVersion asked.lineage contracts = some latest →
          latest.contractFingerprint ≠ asked.content.fingerprint rt) ∧
        row = asked.version rt now fresh (latestVersion asked.lineage contracts) ∧
        ∀ lineage, lineageVersions lineage contracts' =
          if lineage = asked.lineage then asked.previous contracts ++ [row]
          else lineageVersions lineage contracts) := by
  rw [CheckedRequest.create] at hcreate
  cases hlatest : latestVersion asked.lineage contracts with
  | none =>
    rw [hlatest] at hcreate
    refine .inr ⟨nofun, ?_⟩
    rw [← hlatest]
    exact insert_ok h hcreate
  | some latest =>
    simp only [hlatest] at hcreate
    by_cases hsame : latest.contractFingerprint = asked.content.fingerprint rt
    · simp only [hsame, if_true, Except.ok.injEq, Prod.mk.injEq] at hcreate
      obtain ⟨rfl, rfl⟩ := hcreate
      exact .inl ⟨rfl, hsame, rfl⟩
    · rw [if_neg hsame] at hcreate
      refine .inr ⟨?_, ?_⟩
      · rintro _ ⟨⟩
        exact hsame
      · rw [← hlatest]
        exact insert_ok h hcreate

/-- A lineage with its new version. -/
theorem Versions.created (h : Versions (lineageVersions asked.lineage contracts)) :
    Versions (asked.previous contracts ++
      [asked.version rt now fresh (latestVersion asked.lineage contracts)]) := by
  refine h.previous.concat ?_ ?_ ?_
  · rw [version_new h, length_previous]
  · rw [getLast?_previous, ← h.latest]
    rfl
  · intro hactivate other hother
    exact not_active_of_previous hactivate hother

/-- No constraint refuses a new version. -/
theorem isOk_create (h : Versions (lineageVersions asked.lineage contracts))
    (hfresh : contracts.get? fresh.id = none) :
    (asked.create rt now fresh contracts).isOk = true := by
  have hinsert : (asked.insert rt now fresh contracts).isOk = true := by
    have hadmits : admitsVersion
        (if asked.activate then deactivate asked.lineage contracts else contracts)
        (asked.version rt now fresh (latestVersion asked.lineage contracts)) := by
      intro other hother
      change other ∈ lineageVersions asked.lineage _ at hother
      rw [lineageVersions_before h, if_pos rfl] at hother
      constructor
      · rw [version_new h]
        have := h.previous.version_le hother
        rw [length_previous] at this
        omega
      · rintro ⟨hactive, hactivate⟩
        rw [not_active_of_previous hactivate hother] at hactive
        cases hactive
    have hnone : (if asked.activate then deactivate asked.lineage contracts else contracts).get?
        (key (asked.version rt now fresh (latestVersion asked.lineage contracts))) = none := by
      change Table.get? _ fresh.id = none
      split
      · rw [deactivate]
        split
        · rw [Table.get?_set, hfresh]
          simp
        · exact hfresh
      · exact hfresh
    obtain ⟨inserted, hinserted⟩ : ∃ inserted,
        (if asked.activate then deactivate asked.lineage contracts else contracts).insert?
          (asked.version rt now fresh (latestVersion asked.lineage contracts)) =
            some inserted := Table.exists_insert? hnone
    simp [CheckedRequest.insert, hadmits, Except.require, hinserted, Except.orThrow, pure,
      Except.pure, Except.isOk, Except.toBool, bind, Except.bind]
  rw [CheckedRequest.create]
  split
  · split
    · rfl
    · exact hinsert
  · exact hinsert

end Lineages

/-! ### Runs -/

/-- A call that returned: what it found, what it asked for, and what it left. -/
structure ContractAnswer where
  before : EvaluationContracts
  asked : CheckedRequest
  returned : EvaluationContractVersion
  after : EvaluationContracts

/-- A call that activates returns the active version of the lineage, with what was asked for. -/
def ContractAnswer.Kept (a : ContractAnswer) : Prop :=
  a.asked.activate = true →
    a.returned ∈ lineageVersions a.asked.lineage a.after ∧ a.returned.active = true ∧
    (∀ row ∈ lineageVersions a.asked.lineage a.after, row.active = true → row = a.returned) ∧
    a.returned.content = a.asked.content

/-- A call does not ask to activate what the latest version already says, unless that version
is active. -/
def ContractAnswer.Timely (a : ContractAnswer) : Prop :=
  a.asked.activate = true → ∀ latest, latestVersion a.asked.lineage a.before = some latest →
    latest.content = a.asked.content → latest.active = true

structure ContractRun where
  contracts : EvaluationContracts := .empty
  answers : List ContractAnswer := []

inductive ContractStep (rt : Runtime) (admitted : ContractContent → Prop) :
    ContractRun → ContractRun → Prop
  | answer {s : ContractRun} {now : Time} {fresh : FreshContract} {c : ContractRequest}
    {asked : CheckedRequest} {row : EvaluationContractVersion} {contracts : EvaluationContracts}
    (hcheck : c.check rt = .ok asked) (hadmitted : admitted asked.content)
    (hcreate : createContractVersion rt now fresh c s.contracts = .ok (row, contracts)) :
    ContractStep rt admitted s
      ⟨contracts, s.answers ++ [⟨s.contracts, asked, row, contracts⟩]⟩
  /-- The transaction is rolled back. -/
  | refuse {s : ContractRun} {now : Time} {fresh : FreshContract} {c : ContractRequest}
    {error : EvaluationTelemetryError}
    (hcreate : createContractVersion rt now fresh c s.contracts = .error error) :
    ContractStep rt admitted s s

def contractSystem (rt : Runtime) (admitted : ContractContent → Prop) :
    TransitionSystem ContractRun where
  init s := s = {}
  step := ContractStep rt admitted

/-- The contents asked for in a run differ in their digests. -/
def FingerprintsDiffer (rt : Runtime) (admitted : ContractContent → Prop) : Prop :=
  ∀ a b, admitted a → admitted b → a.fingerprint rt = b.fingerprint rt → a = b

structure ContractRun.Kept (rt : Runtime) (admitted : ContractContent → Prop) (s : ContractRun) :
    Prop where
  versions : ∀ lineage, Versions (lineageVersions lineage s.contracts)
  fingerprints : ∀ lineage, ∀ row ∈ lineageVersions lineage s.contracts,
    admitted row.content ∧ row.contractFingerprint = row.content.fingerprint rt
  answers : ∀ a ∈ s.answers, a.Kept ↔ a.Timely

section Runs
variable {rt : Runtime} {admitted : ContractContent → Prop} {s t : ContractRun}

/-- One answer, over lineages that are in order. -/
theorem ContractRun.Kept.answer {now : Time} {fresh : FreshContract} {asked : CheckedRequest}
    {row : EvaluationContractVersion} {contracts : EvaluationContracts}
    (hdiffer : FingerprintsDiffer rt admitted) (h : s.Kept rt admitted)
    (hadmitted : admitted asked.content)
    (hcreate : asked.create rt now fresh s.contracts = .ok (row, contracts)) :
    (⟨contracts, s.answers ++ [⟨s.contracts, asked, row, contracts⟩]⟩ : ContractRun).Kept rt
      admitted := by
  have hversions := h.versions asked.lineage
  have hanswers : ∀ new : ContractAnswer, (new.Kept ↔ new.Timely) →
      ∀ a ∈ s.answers ++ [new], a.Kept ↔ a.Timely := by
    intro new hnew a ha
    rcases List.mem_append.mp ha with ha | ha
    · exact h.answers a ha
    · obtain rfl := List.mem_singleton.mp ha
      exact hnew
  rcases create_cases hversions hcreate with
    ⟨hlatest, hfingerprint, rfl⟩ | ⟨hother, rfl, hcontracts⟩
  · refine ⟨h.versions, h.fingerprints, hanswers _ ?_⟩
    have hrow : row ∈ lineageVersions asked.lineage s.contracts := (latestBy_spec hlatest).1
    obtain ⟨hadmitted', hstored⟩ := h.fingerprints asked.lineage row hrow
    have hcontent : row.content = asked.content :=
      hdiffer _ _ hadmitted' hadmitted (hstored.symm.trans hfingerprint)
    constructor
    · intro hkept hactivate latest hfound _
      obtain rfl : row = latest := Option.some.inj (hlatest.symm.trans hfound)
      exact (hkept hactivate).2.1
    · intro htimely hactivate
      have hactive : row.active = true := htimely hactivate row hlatest hcontent
      exact ⟨hrow, hactive, fun other hmem hactive' =>
        hversions.eq_of_active hmem hrow hactive' hactive, hcontent⟩
  · have hcreated : Versions (asked.previous s.contracts ++
        [asked.version rt now fresh (latestVersion asked.lineage s.contracts)]) :=
      hversions.created
    refine ⟨fun lineage => ?_, fun lineage other hmem => ?_, hanswers _ ?_⟩
    · rw [hcontracts]
      split
      · exact hcreated
      · exact h.versions lineage
    · rw [hcontracts] at hmem
      split at hmem
      · rcases List.mem_append.mp hmem with hmem | hmem
        · rw [CheckedRequest.previous] at hmem
          split at hmem
          · obtain ⟨row, hrow, rfl⟩ := List.mem_map.mp hmem
            exact h.fingerprints asked.lineage row hrow
          · exact h.fingerprints asked.lineage other hmem
        · obtain rfl := List.mem_singleton.mp hmem
          exact ⟨hadmitted, rfl⟩
      · exact h.fingerprints lineage other hmem
    · constructor
      · intro _ _ latest hlatest hcontent
        obtain ⟨-, hstored⟩ := h.fingerprints asked.lineage latest (latestBy_spec hlatest).1
        exact absurd (hstored.trans (congrArg (ContractContent.fingerprint rt) hcontent))
          (hother latest hlatest)
      · intro _ hactivate
        have hafter : lineageVersions asked.lineage contracts = asked.previous s.contracts ++
            [asked.version rt now fresh (latestVersion asked.lineage s.contracts)] := by
          rw [hcontracts, if_pos rfl]
        have hmem := List.mem_append_right (asked.previous s.contracts) (List.mem_singleton_self
          (asked.version rt now fresh (latestVersion asked.lineage s.contracts)))
        rw [← hafter] at hcreated hmem
        exact ⟨hmem, hactivate, fun other hother hactive =>
          hcreated.eq_of_active hother hmem hactive hactivate, rfl⟩

theorem ContractRun.kept_of_reachable (hdiffer : FingerprintsDiffer rt admitted)
    (hs : (contractSystem rt admitted).Reachable s) : s.Kept rt admitted := by
  refine hs.invariant ?_ ?_
  · rintro s rfl
    exact ⟨fun _ => .nil, fun _ _ hrow => absurd hrow List.not_mem_nil,
      fun _ ha => absurd ha List.not_mem_nil⟩
  · intro s t hs hstep
    cases hstep with
    | answer hcheck hadmitted hcreate =>
      rw [createContractVersion, hcheck, Except.ok_bind] at hcreate
      exact hs.answer hdiffer hadmitted hcreate
    | refuse => exact hs

/-- Every lineage is in order after any calls, a well-formed call returns, and the activating
calls of a run return the active version they asked for exactly when none of them repeats a
latest version that is not active. -/
theorem contract_promises_iff (hdiffer : FingerprintsDiffer rt admitted)
    (hs : (contractSystem rt admitted).Reachable s) :
    (∀ lineage, Versions (lineageVersions lineage s.contracts)) ∧
      (∀ c asked now fresh, c.check rt = .ok asked → s.contracts.get? fresh.id = none →
        (createContractVersion rt now fresh c s.contracts).isOk = true) ∧
      ((∀ a ∈ s.answers, a.Kept) ↔ ∀ a ∈ s.answers, a.Timely) := by
  have hkept := ContractRun.kept_of_reachable hdiffer hs
  refine ⟨hkept.versions, ?_, ?_⟩
  · intro c asked now fresh hcheck hfresh
    rw [createContractVersion, hcheck, Except.ok_bind]
    exact isOk_create (hkept.versions asked.lineage) hfresh
  · exact forall₂_congr hkept.answers

end Runs

/-! ### A version that is asked for again -/

def sampleContent : ContractContent := ⟨⟨1, 0, 0, 1⟩, ["smoke"]⟩

def sampleRequest (activate : Bool) : ContractRequest where
  lineageKey := "quality"
  promotionThresholds := [("minimum_run_count", .int 1), ("minimum_quality_score", .int 0),
    ("maximum_average_cost_microusd", .int 0), ("minimum_regression_pass_rate", .int 1)]
  regressionCases := ["smoke"]
  actorId := "local-user"
  activate := activate

def sampleChecked (activate : Bool) : CheckedRequest :=
  ⟨"quality", "local-user", sampleContent, activate⟩

theorem sampleRequest_checked (activate : Bool) :
    (sampleRequest activate).check .plain = .ok (sampleChecked activate) := by
  cases activate <;> decide +kernel

def sampleFresh : FreshContract := ⟨.ofNat 1, .ofNat 2⟩

def sampleVersion (activate : Bool) : EvaluationContractVersion :=
  (sampleChecked activate).version .plain 0 sampleFresh none

theorem sampleVersion_nodup (activate : Bool) :
    ([sampleVersion activate].map key).Nodup := List.nodup_singleton _

def sampleContracts (activate : Bool) : EvaluationContracts :=
  ⟨[sampleVersion activate], sampleVersion_nodup activate⟩

/-- The version is created, and asked for again with activation. -/
def sampleRun (activate : Bool) : ContractRun :=
  ⟨sampleContracts activate,
    [⟨.empty, sampleChecked activate, sampleVersion activate, sampleContracts activate⟩,
      ⟨sampleContracts activate, sampleChecked true, sampleVersion activate,
        sampleContracts activate⟩]⟩

theorem sampleRun_reachable (activate : Bool) :
    (contractSystem .plain (· = sampleContent)).Reachable (sampleRun activate) := by
  have hfirst : createContractVersion .plain 0 sampleFresh (sampleRequest activate) .empty =
      .ok (sampleVersion activate, sampleContracts activate) := by
    rw [createContractVersion, sampleRequest_checked, Except.ok_bind]
    cases activate <;> rfl
  have hsecond : createContractVersion .plain 0 sampleFresh (sampleRequest true)
      (sampleContracts activate) = .ok (sampleVersion activate, sampleContracts activate) := by
    rw [createContractVersion, sampleRequest_checked, Except.ok_bind]
    cases activate <;> rfl
  have hstart : (contractSystem .plain (· = sampleContent)).Reachable {} := .of_init rfl
  have hcreated := hstart.tail (ContractStep.answer (sampleRequest_checked activate) rfl hfirst)
  exact hcreated.tail (ContractStep.answer (sampleRequest_checked true) rfl hsecond)

theorem sample_differ : FingerprintsDiffer .plain (· = sampleContent) := by
  rintro a b rfl rfl _
  rfl

/-- A version that was created inactive is returned inactive to a call that activates. -/
theorem not_kept_inactive : ¬∀ s, (contractSystem .plain (· = sampleContent)).Reachable s →
    ∀ a ∈ s.answers, a.Kept := by
  intro h
  have hkept := h _ (sampleRun_reachable false) _ (List.mem_cons_of_mem _ List.mem_cons_self)
  exact absurd (hkept rfl).2.1 (by decide)

theorem contract_promises_iff_active :
    (∀ a ∈ (sampleRun true).answers, a.Kept) ↔ ∀ a ∈ (sampleRun true).answers, a.Timely :=
  (contract_promises_iff sample_differ (sampleRun_reachable true)).2.2

end ControlPlane.Evaluation
