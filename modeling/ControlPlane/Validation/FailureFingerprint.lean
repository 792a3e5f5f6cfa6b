import ControlPlane.Validation.EvidenceCollection
import Mathlib.Data.Bool.Basic

/-!
# Fingerprints of failures

A failed validation is compared with earlier ones by a digest of what did not pass. The results
of a run are stored without types: the digest filters them, keeps a few fields of each as texts,
and sorts what is left.

## Main definitions

* `failureFingerprint`
* `CollectedRun.Typed`: the results have the fields that a collection writes.
* `failedOperations`, `openAssertions`, `openCriteria`: what did not pass.

## Main results

* `failureFingerprint_eq_iff`: two runs have one fingerprint exactly when they belong to one
  contract and the same did not pass.
-/
namespace ControlPlane.ValidationEvidence

open ControlPlane.Validation (RecordedRun AssertionResultStatus)

abbrev repairSchemaVersion : ℤ := 1

/-- A run with all of its results. -/
structure CollectedRun extends RecordedRun where
  operationResults : List Json
  assertionResults : List Json

/-! ### The digest -/

section Fingerprint
variable (print : Json → String)

/-- A value as a text; `print` is for lists, dictionaries and fractions. -/
def text : Json → String
  | .null => "None"
  | .bool b => if b then "True" else "False"
  | .int n => toString n
  | .str s => s
  | other => print other

abbrev OperationFailure : Type := String ×ₗ Bool ×ₗ Bool ×ₗ String ×ₗ String
abbrev AssertionFailure : Type := String ×ₗ String ×ₗ String
abbrev CriterionFailure : Type := String ×ₗ String

def operationFailure (value : Json) : OperationFailure :=
  toLex (text print (value.get "operation_id"), toLex ((value.get "passed").truthy,
    toLex ((value.get "repository_state_valid").truthy,
      toLex (text print (value.get "exit_status"),
        text print (value.get "cancellation_status")))))

def assertionFailure (value : Json) : AssertionFailure :=
  toLex (text print (value.get "assertion_id"),
    toLex (text print (value.get "status"), text print (value.get "result_code")))

def criterionFailure (value : Json) : CriterionFailure :=
  toLex (text print (value.get "criterion_id"), text print (value.get "status"))

/-- An operation that is not recorded as passed. -/
def operationFailed (value : Json) : Bool :=
  value.obj?.isSome && (value.get "passed").bool? ≠ some true

/-- An assertion or a criterion whose status is another one. -/
def notPassed (value : Json) : Bool :=
  value.obj?.isSome && (value.get "status").str? ≠ some "PASSED"

def operationFailures (run : CollectedRun) : List OperationFailure :=
  ((run.operationResults.filter operationFailed).map (operationFailure print)).insertionSort
    (· ≤ ·)

def assertionFailures (run : CollectedRun) : List AssertionFailure :=
  ((run.assertionResults.filter notPassed).map (assertionFailure print)).insertionSort (· ≤ ·)

def criterionFailures (run : CollectedRun) : List CriterionFailure :=
  ((run.acceptanceCriterionResults.filter notPassed).map (criterionFailure print)).insertionSort
    (· ≤ ·)

/-- A tuple is encoded as a list. -/
def operationJson (failure : OperationFailure) : Json :=
  .arr [.str failure.1, .bool failure.2.1, .bool failure.2.2.1, .str failure.2.2.2.1,
    .str failure.2.2.2.2]

def assertionJson (failure : AssertionFailure) : Json :=
  .arr [.str failure.1, .str failure.2.1, .str failure.2.2]

def criterionJson (failure : CriterionFailure) : Json := .arr [.str failure.1, .str failure.2]

def failurePayload (run : CollectedRun) : Json :=
  .obj
    [("schema_version", .int repairSchemaVersion),
      ("validation_contract_id", .str run.validationContractId.str),
      ("operation_failures", .arr ((operationFailures print run).map operationJson)),
      ("assertion_failures", .arr ((assertionFailures print run).map assertionJson)),
      ("criterion_failures", .arr ((criterionFailures print run).map criterionJson))]

def failureFingerprint (rt : Runtime) (run : CollectedRun) : String :=
  rt.sha256 (rt.dumps (failurePayload print run))

end Fingerprint

/-! ### What did not pass -/

/-- What identifies the failure of an operation. -/
structure OperationOutcome where
  operationId : String
  passed : Bool
  repositoryStateValid : Bool
  exitStatus : ℤ
  cancellationStatus : String
  deriving DecidableEq

structure AssertionOutcome where
  assertionId : String
  status : String
  resultCode : String
  deriving DecidableEq

structure CriterionOutcome where
  criterionId : String
  status : String
  deriving DecidableEq

/-- The outcome of an operation whose fields have the types that a collection writes. -/
def operationOutcome (value : Json) : Option OperationOutcome := do
  let operationId ← (value.get "operation_id").str?
  let passed ← (value.get "passed").bool?
  let repositoryStateValid ← (value.get "repository_state_valid").bool?
  let exitStatus ← (value.get "exit_status").int?
  let cancellationStatus ← (value.get "cancellation_status").str?
  return { operationId, passed, repositoryStateValid, exitStatus, cancellationStatus }

def assertionOutcome (value : Json) : Option AssertionOutcome := do
  let assertionId ← (value.get "assertion_id").str?
  let status ← (value.get "status").str?
  let resultCode ← (value.get "result_code").str?
  return { assertionId, status, resultCode }

def criterionOutcome (value : Json) : Option CriterionOutcome := do
  let criterionId ← (value.get "criterion_id").str?
  let status ← (value.get "status").str?
  return { criterionId, status }

/-- The results of a run have the types that a collection writes. -/
structure CollectedRun.Typed (run : CollectedRun) : Prop where
  operations : ∀ value ∈ run.operationResults, (operationOutcome value).isSome = true
  assertions : ∀ value ∈ run.assertionResults, (assertionOutcome value).isSome = true
  criteria : ∀ value ∈ run.acceptanceCriterionResults, (criterionOutcome value).isSome = true

def failedOperations (run : CollectedRun) : List OperationOutcome :=
  (run.operationResults.filterMap operationOutcome).filter fun outcome => !outcome.passed

def openAssertions (run : CollectedRun) : List AssertionOutcome :=
  (run.assertionResults.filterMap assertionOutcome).filter fun outcome =>
    outcome.status ≠ "PASSED"

def openCriteria (run : CollectedRun) : List CriterionOutcome :=
  (run.acceptanceCriterionResults.filterMap criterionOutcome).filter fun outcome =>
    outcome.status ≠ "PASSED"

/-! ### Reading the results -/

section Outcomes
variable {print : Json → String} {run run' : CollectedRun}

theorem isSome_obj?_of_get {value : Json} {key s : String} (h : value.get key = .str s) :
    value.obj?.isSome = true := by
  cases value with
  | obj fields => rfl
  | null | bool _ | int _ | float _ | str _ | arr _ => cases h

/-- The digested form of an outcome. -/
def OperationOutcome.key (outcome : OperationOutcome) : OperationFailure :=
  toLex (outcome.operationId, toLex (outcome.passed, toLex (outcome.repositoryStateValid,
    toLex (toString outcome.exitStatus, outcome.cancellationStatus))))

def AssertionOutcome.key (outcome : AssertionOutcome) : AssertionFailure :=
  toLex (outcome.assertionId, toLex (outcome.status, outcome.resultCode))

def CriterionOutcome.key (outcome : CriterionOutcome) : CriterionFailure :=
  toLex (outcome.criterionId, outcome.status)

theorem OperationOutcome.key_injective : Function.Injective OperationOutcome.key := by
  rintro ⟨id, passed, valid, exit, cancellation⟩ ⟨id', passed', valid', exit', cancellation'⟩ h
  simp only [key, toLex_inj, Prod.mk.injEq] at h
  obtain ⟨rfl, rfl, rfl, hexit, rfl⟩ := h
  rw [Json.toString_int_injective hexit]

theorem AssertionOutcome.key_injective : Function.Injective AssertionOutcome.key := by
  rintro ⟨id, status, code⟩ ⟨id', status', code'⟩ h
  simp only [key, toLex_inj, Prod.mk.injEq] at h
  obtain ⟨rfl, rfl, rfl⟩ := h
  rfl

theorem CriterionOutcome.key_injective : Function.Injective CriterionOutcome.key := by
  rintro ⟨id, status⟩ ⟨id', status'⟩ h
  simp only [key, toLex_inj, Prod.mk.injEq] at h
  obtain ⟨rfl, rfl⟩ := h
  rfl

/-- A typed operation is filtered and digested by its outcome. -/
theorem operation_of_outcome {value : Json} {outcome : OperationOutcome}
    (h : operationOutcome value = some outcome) :
    operationFailed value = !outcome.passed ∧ operationFailure print value = outcome.key := by
  simp only [operationOutcome, Option.bind_eq_bind, Option.bind_eq_some_iff, Json.str?_eq_some,
    Json.bool?_eq_some, Json.int?_eq_some, Option.pure_def, Option.some.injEq] at h
  obtain ⟨id, hid, passed, hpassed, valid, hvalid, exit, hexit, cancellation, hcancellation,
    rfl⟩ := h
  refine ⟨?_, ?_⟩
  · rw [operationFailed, isSome_obj?_of_get hid, hpassed]
    cases passed <;> rfl
  · simp only [operationFailure, OperationOutcome.key, text, Json.truthy, hid, hpassed, hvalid,
      hexit, hcancellation]

theorem assertion_of_outcome {value : Json} {outcome : AssertionOutcome}
    (h : assertionOutcome value = some outcome) :
    notPassed value = decide (outcome.status ≠ "PASSED") ∧
      assertionFailure print value = outcome.key := by
  simp only [assertionOutcome, Option.bind_eq_bind, Option.bind_eq_some_iff, Json.str?_eq_some,
    Option.pure_def, Option.some.injEq] at h
  obtain ⟨id, hid, status, hstatus, code, hcode, rfl⟩ := h
  refine ⟨?_, ?_⟩
  · simp [notPassed, isSome_obj?_of_get hid, hstatus, Json.str?]
  · simp only [assertionFailure, AssertionOutcome.key, text, hid, hstatus, hcode]

theorem criterion_of_outcome {value : Json} {outcome : CriterionOutcome}
    (h : criterionOutcome value = some outcome) :
    notPassed value = decide (outcome.status ≠ "PASSED") ∧
      criterionFailure print value = outcome.key := by
  simp only [criterionOutcome, Option.bind_eq_bind, Option.bind_eq_some_iff, Json.str?_eq_some,
    Option.pure_def, Option.some.injEq] at h
  obtain ⟨id, hid, status, hstatus, rfl⟩ := h
  refine ⟨?_, ?_⟩
  · simp [notPassed, isSome_obj?_of_get hid, hstatus, Json.str?]
  · simp only [criterionFailure, CriterionOutcome.key, text, hid, hstatus]

/-- Filtering and projecting values is filtering and projecting what they stand for. -/
theorem map_filter_of_outcome {α β : Type} {outcome : Json → Option α} {failed : Json → Bool}
    {project : Json → β} {keep : α → Bool} {key : α → β} {values : List Json}
    (htyped : ∀ value ∈ values, (outcome value).isSome = true)
    (h : ∀ value a, outcome value = some a → failed value = keep a ∧ project value = key a) :
    (values.filter failed).map project =
      ((values.filterMap outcome).filter keep).map key := by
  induction values with
  | nil => rfl
  | cons value values ih =>
    obtain ⟨a, ha⟩ := Option.isSome_iff_exists.mp (htyped value List.mem_cons_self)
    obtain ⟨hfailed, hproject⟩ := h value a ha
    have hrest := ih fun v hv => htyped v (List.mem_cons_of_mem _ hv)
    rw [List.filter_cons, List.filterMap_cons, ha, List.filter_cons, hfailed]
    cases keep a with
    | true =>
      simp only [if_true, List.map_cons]
      rw [hrest, hproject]
    | false => simpa using hrest

theorem insertionSort_eq_iff {α : Type} [LinearOrder α] {as bs : List α} :
    as.insertionSort (· ≤ ·) = bs.insertionSort (· ≤ ·) ↔ as.Perm bs := by
  constructor
  · intro h
    exact (List.perm_insertionSort _ as).symm.trans
      ((List.Perm.of_eq h).trans (List.perm_insertionSort _ bs))
  · intro h
    refine List.Perm.eq_of_pairwise (fun a b _ _ (hab : a ≤ b) hba => le_antisymm hab hba)
      (List.pairwise_insertionSort _ _) (List.pairwise_insertionSort _ _) ?_
    exact (List.perm_insertionSort _ as).trans (h.trans (List.perm_insertionSort _ bs).symm)

theorem operationFailures_eq_iff (h : run.Typed) (h' : run'.Typed) :
    operationFailures print run = operationFailures print run' ↔
      (failedOperations run).Perm (failedOperations run') := by
  rw [operationFailures, operationFailures, insertionSort_eq_iff,
    map_filter_of_outcome h.operations fun _ _ => operation_of_outcome,
    map_filter_of_outcome h'.operations fun _ _ => operation_of_outcome]
  exact List.map_perm_map_iff OperationOutcome.key_injective

theorem assertionFailures_eq_iff (h : run.Typed) (h' : run'.Typed) :
    assertionFailures print run = assertionFailures print run' ↔
      (openAssertions run).Perm (openAssertions run') := by
  rw [assertionFailures, assertionFailures, insertionSort_eq_iff,
    map_filter_of_outcome h.assertions fun _ _ => assertion_of_outcome,
    map_filter_of_outcome h'.assertions fun _ _ => assertion_of_outcome]
  exact List.map_perm_map_iff AssertionOutcome.key_injective

theorem criterionFailures_eq_iff (h : run.Typed) (h' : run'.Typed) :
    criterionFailures print run = criterionFailures print run' ↔
      (openCriteria run).Perm (openCriteria run') := by
  rw [criterionFailures, criterionFailures, insertionSort_eq_iff,
    map_filter_of_outcome h.criteria fun _ _ => criterion_of_outcome,
    map_filter_of_outcome h'.criteria fun _ _ => criterion_of_outcome]
  exact List.map_perm_map_iff CriterionOutcome.key_injective

/-! ### What a collection writes -/

theorem operationOutcome_toDict {evidenceIds : List (String × UUID)}
    {r : ValidationOperationResult} {value : Json} (h : r.toDict evidenceIds = some value) :
    operationOutcome value = some ⟨r.operationId, r.passed, r.repositoryStateValid, r.exitStatus,
      r.cancellationStatus⟩ := by
  simp only [ValidationOperationResult.toDict, Option.bind_eq_bind, Option.bind_eq_some_iff,
    Option.pure_def, Option.some.injEq] at h
  obtain ⟨_, -, rfl⟩ := h
  rfl

theorem assertionOutcome_toDict {evidenceIds : List (String × UUID)} {r : TypedAssertionResult}
    {value : Json} (h : r.toDict evidenceIds = some value) :
    assertionOutcome value = some ⟨r.assertionId, r.status.value, r.resultCode⟩ := by
  simp only [TypedAssertionResult.toDict, Option.bind_eq_bind, Option.bind_eq_some_iff,
    Option.pure_def, Option.some.injEq] at h
  obtain ⟨_, -, rfl⟩ := h
  rfl

/-- The results that are recorded of a collection are typed. -/
theorem typed_of_recorded {u : Unicode} {evidenceIds : List (String × UUID)}
    {c : ValidationEvidenceCollection} {reported : Validation.ValidationEvidenceCollection u}
    (hoperations : c.operationResults.mapM (·.toDict evidenceIds) = some run.operationResults)
    (hassertions : c.assertionResults.mapM (·.toDict evidenceIds) = some run.assertionResults)
    (hcriteria : ∀ value ∈ run.acceptanceCriterionResults, ∃ version id results,
      value = reported.criterionResult version id results) : run.Typed where
  operations value hvalue := by
    obtain ⟨r, -, hr⟩ := Pages.exists_of_mem_mapM hoperations value hvalue
    rw [operationOutcome_toDict hr]
    rfl
  assertions value hvalue := by
    obtain ⟨r, -, hr⟩ := Pages.exists_of_mem_mapM hassertions value hvalue
    rw [assertionOutcome_toDict hr]
    rfl
  criteria value hvalue := by
    obtain ⟨version, id, results, rfl⟩ := hcriteria value hvalue
    rfl

/-! ### The digest and what did not pass -/

theorem operationJson_injective : Function.Injective operationJson := by
  rintro ⟨id, passed, valid, exit, cancellation⟩ ⟨id', passed', valid', exit', cancellation'⟩ h
  simp only [operationJson, Json.arr.injEq, List.cons.injEq, Json.str.injEq, Json.bool.injEq,
    and_true] at h
  obtain ⟨rfl, rfl, rfl, rfl, rfl⟩ := h
  rfl

theorem assertionJson_injective : Function.Injective assertionJson := by
  rintro ⟨id, status, code⟩ ⟨id', status', code'⟩ h
  simp only [assertionJson, Json.arr.injEq, List.cons.injEq, Json.str.injEq, and_true] at h
  obtain ⟨rfl, rfl, rfl⟩ := h
  rfl

theorem criterionJson_injective : Function.Injective criterionJson := by
  rintro ⟨id, status⟩ ⟨id', status'⟩ h
  simp only [criterionJson, Json.arr.injEq, List.cons.injEq, Json.str.injEq, and_true] at h
  obtain ⟨rfl, rfl⟩ := h
  rfl

theorem failurePayload_eq_iff : failurePayload print run = failurePayload print run' ↔
    run.validationContractId = run'.validationContractId ∧
      operationFailures print run = operationFailures print run' ∧
      assertionFailures print run = assertionFailures print run' ∧
      criterionFailures print run = criterionFailures print run' := by
  simp only [failurePayload, Json.obj.injEq, List.cons.injEq, Prod.mk.injEq, Json.str.injEq,
    Json.arr.injEq, true_and, and_true, UUID.str_inj,
    (List.map_injective_iff.mpr operationJson_injective).eq_iff,
    (List.map_injective_iff.mpr assertionJson_injective).eq_iff,
    (List.map_injective_iff.mpr criterionJson_injective).eq_iff]

/-- Lists of scalars are aligned. -/
theorem aligned_scalars {xs ys : List Json} (h : ∀ x ∈ xs ++ ys, x.isScalar = true) :
    Json.Aligned (.arr xs) (.arr ys) := by
  have hfloat : ∀ x : Json, x.isScalar = true → x.isFloat = false := by
    intro x hx
    cases x with
    | float _ => cases hx
    | null | bool _ | int _ | str _ | arr _ | obj _ => rfl
  refine .items (fun x hx => hfloat x (h x hx)) fun x hx y hy => ?_
  have hleft := h x (List.mem_append_left _ hx)
  exact .scalar (Or.inl hleft) (hfloat x hleft) (hfloat y (h y (List.mem_append_right _ hy)))

/-- Lists of such lists are aligned. -/
theorem aligned_rows {α : Type} {row : α → Json} (as bs : List α)
    (h : ∀ a, ∃ xs, row a = .arr xs ∧ ∀ x ∈ xs, x.isScalar = true) :
    Json.Aligned (.arr (as.map row)) (.arr (bs.map row)) := by
  refine .items (fun x hx => ?_) fun x hx y hy => ?_
  · rw [← List.map_append] at hx
    obtain ⟨a, -, rfl⟩ := List.mem_map.mp hx
    obtain ⟨xs, hxs, -⟩ := h a
    rw [hxs]
    rfl
  · obtain ⟨a, -, rfl⟩ := List.mem_map.mp hx
    obtain ⟨b, -, rfl⟩ := List.mem_map.mp hy
    obtain ⟨xs, hxs, hxscalar⟩ := h a
    obtain ⟨ys, hys, hyscalar⟩ := h b
    rw [hxs, hys]
    refine aligned_scalars fun x hx => ?_
    obtain hx | hx := List.mem_append.mp hx
    · exact hxscalar x hx
    · exact hyscalar x hx

theorem aligned_failurePayload :
    Json.Aligned (failurePayload print run) (failurePayload print run') := by
  refine .record ["schema_version", "validation_contract_id", "operation_failures",
    "assertion_failures", "criterion_failures"] rfl (by decide) ?_
  simp only [List.forall₂_cons, List.forall₂_nil_left_iff, Json.aligned_int, Json.aligned_str,
    true_and, and_true]
  refine ⟨aligned_rows _ _ fun a => ⟨_, rfl, ?_⟩, aligned_rows _ _ fun a => ⟨_, rfl, ?_⟩,
    aligned_rows _ _ fun a => ⟨_, rfl, ?_⟩⟩ <;> simp [Json.isScalar, Json.isWord]

end Outcomes

/-- Two failures have one fingerprint exactly when they belong to one contract and the same
operations, assertions and criteria did not pass, in whatever order they are recorded. -/
theorem failureFingerprint_eq_iff (rt : Runtime) (print : Json → String) {run run' : CollectedRun}
    (h : run.Typed) (h' : run'.Typed)
    (hcollision : NoCollision rt (rt.dumps (failurePayload print run))
      (rt.dumps (failurePayload print run'))) :
    failureFingerprint print rt run = failureFingerprint print rt run' ↔
      run.validationContractId = run'.validationContractId ∧
        (failedOperations run).Perm (failedOperations run') ∧
        (openAssertions run).Perm (openAssertions run') ∧
        (openCriteria run).Perm (openCriteria run') := by
  have hpayload : failureFingerprint print rt run = failureFingerprint print rt run' ↔
      failurePayload print run = failurePayload print run' := by
    constructor
    · intro hsame
      exact aligned_failurePayload.eq_of_encode (String.ofList_injective (hcollision hsame))
    · intro hsame
      rw [failureFingerprint, failureFingerprint, hsame]
  rw [hpayload, failurePayload_eq_iff, operationFailures_eq_iff h h', assertionFailures_eq_iff h h',
    criterionFailures_eq_iff h h']

namespace FingerprintExample

def operation (id : String) (passed : Bool) (exitStatus : ℤ) : Json :=
  .obj
    [("operation_id", .str id), ("passed", .bool passed), ("repository_state_valid", .bool true),
      ("exit_status", .int exitStatus), ("cancellation_status", .str "NOT_REQUESTED")]

/-- A run with some operations and one criterion that failed. -/
def run (operations : List Json) : CollectedRun where
  id := default
  taskId := default
  validationContractId := default
  repositoryConfigurationId := default
  commitSha := CollectionExample.sha
  treeSha := CollectionExample.sha
  outcome := .failed
  operationResults := operations
  assertionResults := []
  acceptanceCriterionResults :=
    [.obj [("criterion_id", .str "opens"), ("status", .str "FAILED")]]

def first : CollectedRun := run [operation "unit" false 1, operation "e2e" false (-9)]

/-- The same failures in another order, and an operation that passed. -/
def second : CollectedRun :=
  run [operation "e2e" false (-9), operation "build" true 0, operation "unit" false 1]

theorem first_typed : first.Typed := ⟨by decide, by decide, by decide⟩

theorem second_typed : second.Typed := ⟨by decide, by decide, by decide⟩

theorem payload_reordered :
    failurePayload (fun _ => "") first = failurePayload (fun _ => "") second :=
  failurePayload_eq_iff.mpr ⟨rfl, by decide, by decide, by decide⟩

end FingerprintExample

open FingerprintExample in
theorem failureFingerprint_reordered :
    failureFingerprint (fun _ => "") .plain first =
      failureFingerprint (fun _ => "") .plain second :=
  (failureFingerprint_eq_iff .plain _ first_typed second_typed fun _ => by
    rw [payload_reordered]).mpr ⟨rfl, by decide, by decide, by decide⟩

end ControlPlane.ValidationEvidence
