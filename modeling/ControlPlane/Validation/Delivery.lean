import ControlPlane.Validation.Results
import Mathlib.Data.List.Dedup

/-!
# Recorded results reach the cockpit

The reader of recorded results accepts exactly what an accepted collection records, and
shows a criterion as passed only on the strength of a recorded result that says so.

## Main results

* `passed_of_shown`: what a criterion that is shown as passed rests on.
* `shown_of_collected`: the results of an accepted collection are shown as recorded.
-/
namespace ControlPlane.Validation

variable {u : Unicode}

/-! ### What a response rests on -/

theorem AssertionResultStatus.value_of_ofValue? {text : String} {status : AssertionResultStatus}
    (h : AssertionResultStatus.ofValue? text = some status) : text = status.value := by
  have hfound := List.find?_some h
  simp only [decide_eq_true_eq] at hfound
  exact hfound.symm

theorem memberOf?_eq_some {α : Type} {ofValue? : String → Option α} {value : Json} {m : α}
    (h : memberOf? ofValue? value = .ok (some m)) :
    ∃ text, value = .str text ∧ ofValue? text = some m := by
  cases value with
  | str text => exact ⟨text, rfl, by simpa [memberOf?] using h⟩
  | _ => simp [memberOf?] at h

theorem length_eq_of_readUuids {items : List Json} {ids : List UUID}
    (h : readUuids u items = some ids) : ids.length = items.length := by
  simp only [readUuids, Option.filter_eq_some_iff, decide_eq_true_eq] at h
  exact h.2

/-- A stored assertion and what the reader makes of it. -/
structure AssertionRead (u : Unicode) (raw : Json) (a : TaskAcceptanceAssertionResponse) :
    Prop where
  status : raw.get "status" = .str a.status.value
  evidence : ∃ items, raw.get "evidence_ids" = .arr items ∧ items.length = a.evidenceIds.length
  evidenced : a.status = .pending ↔ a.evidenceIds = []

theorem assertionRead_of_ok {seen : List String} {raw : Json} {a : TaskAcceptanceAssertionResponse}
    (h : readAssertion u seen raw = .ok (some a)) : AssertionRead u raw a := by
  unfold readAssertion at h
  split at h
  · simp only [Except.bind_eq_ok] at h
    obtain ⟨kind, -, h⟩ := h
    split at h
    · simp only [Except.bind_eq_ok] at h
      obtain ⟨status?, hstatus, h⟩ := h
      split at h
      · rename_i status resultCode rawEvidence hcode hevidence
        split at h
        · cases h
        · split at h
          · rename_i ids hids
            split at h
            · rename_i hok
              cases h
              obtain ⟨text, htext, hvalue⟩ := memberOf?_eq_some hstatus
              refine ⟨?_, ⟨rawEvidence, Json.arr?_eq_some.mp hevidence, ?_⟩, hok.2⟩
              · rw [htext, AssertionResultStatus.value_of_ofValue? hvalue]
              · exact (length_eq_of_readUuids hids).symm
            · cases h
          · cases h
      · cases h
    · cases h
  · cases h

theorem readAssertions_sound {raws : List Json} {found all : List TaskAcceptanceAssertionResponse}
    (h : readAssertions u raws found = .ok (some all)) :
    (∀ a ∈ found, a ∈ all) ∧ ∀ raw ∈ raws, ∃ a ∈ all, AssertionRead u raw a := by
  induction raws generalizing found with
  | nil =>
    simp only [readAssertions, Except.ok.injEq, Option.some.injEq] at h
    subst h
    exact ⟨fun a ha => ha, by simp⟩
  | cons raw raws ih =>
    simp only [readAssertions, Except.bind_eq_ok] at h
    obtain ⟨a?, ha, h⟩ := h
    cases a? with
    | none => cases h
    | some a =>
      obtain ⟨hfound, hraws⟩ := ih h
      refine ⟨fun b hb => hfound b (List.mem_append_left _ hb), fun raw' hraw => ?_⟩
      rcases List.mem_cons.mp hraw with rfl | hraw
      · exact ⟨a, hfound a (by simp), assertionRead_of_ok ha⟩
      · exact hraws raw' hraw

/-- What a stored result says that the reader takes over. -/
structure CriterionRead (u : Unicode) (run : RecordedRun) (contract : RecordedContract)
    (value : Json) (id : String) (recorded : RecordedCriterion) : Prop where
  criterion : value.get "criterion_id" = .str id
  version : (value.get "validation_contract_version").pyEq (.int contract.version) = true
  commit : value.get "commit_sha" = .str run.commitSha
  tree : value.get "tree_sha" = .str run.treeSha
  assertions : ∃ raws, value.get "assertions" = .arr raws ∧ raws ≠ [] ∧
    ∀ raw ∈ raws, ∃ a ∈ recorded.assertions, AssertionRead u raw a
  status : recorded.status = expectedStatus recorded.assertions

theorem criterionRead_of_ok {run : RecordedRun} {contract : RecordedContract} {seen : List String}
    {value : Json} {id : String} {recorded : RecordedCriterion}
    (h : readCriterion u run contract seen value = .ok (some (id, recorded))) :
    CriterionRead u run contract value id recorded := by
  unfold readCriterion at h
  split at h
  · rename_i hid
    simp only [Except.bind_eq_ok] at h
    obtain ⟨status?, -, h⟩ := h
    split at h
    · rename_i hraws
      split at h
      · rename_i hbound
        split at h
        · simp only [Except.bind_eq_ok] at h
          obtain ⟨assertions?, hassertions, h⟩ := h
          split at h
          · split at h
            · rename_i hrules
              cases h
              refine ⟨?_, hbound.1, Json.str?_eq_some.mp hbound.2.1,
                Json.str?_eq_some.mp hbound.2.2.1,
                ⟨_, Json.arr?_eq_some.mp hraws, hbound.2.2.2,
                  (readAssertions_sound hassertions).2⟩, hrules.2.2.2.2⟩
              simp only [someText?, Option.filter_eq_some_iff, Json.str?_eq_some] at hid
              exact hid.1
            · cases h
          · cases h
        · cases h
      · cases h
    · cases h
  · cases h

theorem recordedFrom_sound {run : RecordedRun} {contract : RecordedContract} {values : List Json}
    {found all : List (String × RecordedCriterion)}
    (h : recordedCriterionResultsFrom u run contract values found = .ok all) :
    ∀ entry ∈ all, entry ∈ found ∨
      ∃ value ∈ values, CriterionRead u run contract value entry.1 entry.2 := by
  induction values generalizing found with
  | nil =>
    simp only [recordedCriterionResultsFrom, Except.ok.injEq] at h
    subst h
    exact fun entry hentry => .inl hentry
  | cons value values ih =>
    simp only [recordedCriterionResultsFrom, Except.bind_eq_ok] at h
    obtain ⟨read?, hread, h⟩ := h
    intro entry hentry
    cases read? with
    | none =>
      refine (ih h entry hentry).imp_right ?_
      rintro ⟨v, hv, hvalue⟩
      exact ⟨v, List.mem_cons_of_mem _ hv, hvalue⟩
    | some new =>
      rcases ih h entry hentry with hfound | ⟨v, hv, hvalue⟩
      · rcases List.mem_append.mp hfound with hold | hnew
        · exact .inl hold
        · obtain rfl : entry = new := List.mem_singleton.mp hnew
          exact .inr ⟨value, List.mem_cons_self .., criterionRead_of_ok hread⟩
      · exact .inr ⟨v, List.mem_cons_of_mem _ hv, hvalue⟩

/-- A response without a result is pending; any other has the status of its result. -/
theorem acceptanceCriteriaFrom_sound {recorded : List (String × RecordedCriterion)}
    {values : List Json} {shown all : List TaskAcceptanceCriterionResponse}
    (h : acceptanceCriteriaFrom u recorded values shown = .ok all) :
    ∀ r ∈ all, r ∈ shown ∨ r.status = .pending ∨
      ∃ result, (r.id, result) ∈ recorded ∧ r.status = result.status := by
  induction values generalizing shown with
  | nil =>
    simp only [acceptanceCriteriaFrom, Except.ok.injEq] at h
    subst h
    exact fun r hr => .inl hr
  | cons value values ih =>
    simp only [acceptanceCriteriaFrom] at h
    split at h
    · rename_i id requirement verification hshown
      split at h
      · exact ih h
      · split at h
        · intro r hr
          rcases ih h r hr with hold | hrest
          · rcases List.mem_append.mp hold with hold | hnew
            · exact .inl hold
            · obtain rfl := List.mem_singleton.mp hnew
              exact .inr (.inl rfl)
          · exact .inr hrest
        · rename_i result hlookup
          simp only [Except.bind_eq_ok] at h
          obtain ⟨response, hresponse, h⟩ := h
          intro r hr
          rcases ih h r hr with hold | hrest
          · rcases List.mem_append.mp hold with hold | hnew
            · exact .inl hold
            · obtain rfl := List.mem_singleton.mp hnew
              simp only [recordedResponse, Except.bind_eq_ok, Except.ok.injEq] at hresponse
              obtain ⟨commit, -, tree, -, rfl⟩ := hresponse
              obtain ⟨before, after, hmem, -⟩ := List.lookup_eq_some_iff.mp hlookup
              refine .inr (.inr ⟨result, ?_, rfl⟩)
              rw [hmem]
              exact List.mem_append_right _ (List.mem_cons_self ..)
          · exact .inr hrest
    · exact ih h

/-- A stored result that says that a criterion passed: for this contract version, commit and
tree, with assertions that all passed with evidence. -/
structure RecordedPassed (run : RecordedRun) (contract : RecordedContract) (id : String)
    (value : Json) : Prop where
  recorded : value ∈ run.acceptanceCriterionResults
  bound : run.validationContractId = contract.id
  criterion : value.get "criterion_id" = .str id
  version : (value.get "validation_contract_version").pyEq (.int contract.version) = true
  commit : value.get "commit_sha" = .str run.commitSha
  tree : value.get "tree_sha" = .str run.treeSha
  assertions : ∃ raws, value.get "assertions" = .arr raws ∧ raws ≠ [] ∧ ∀ raw ∈ raws,
    raw.get "status" = .str "PASSED" ∧
      ∃ items, raw.get "evidence_ids" = .arr items ∧ items ≠ []

theorem all_passed_of_expectedStatus {assertions : List TaskAcceptanceAssertionResponse}
    (h : expectedStatus assertions = .passed) : ∀ a ∈ assertions, a.status = .passed := by
  intro a ha
  have hmem : a.status ∈ assertions.map (·.status) := List.mem_map_of_mem ha
  simp only [expectedStatus] at h
  split at h
  · cases h
  · split at h
    · cases h
    · split at h
      · cases h
      · rename_i hfailed hblocked hpending
        cases hstatus : a.status with
        | pending => exact absurd (hstatus ▸ hmem) hpending
        | passed => rfl
        | failed => exact absurd (hstatus ▸ hmem) hfailed
        | blocked => exact absurd (hstatus ▸ hmem) hblocked

theorem passed_of_shown {brief : Brief} {run : RecordedRun} {contract : RecordedContract}
    {responses : List TaskAcceptanceCriterionResponse}
    (h : acceptanceCriteriaResponse u brief run contract = .ok responses)
    {r : TaskAcceptanceCriterionResponse} (hr : r ∈ responses) (hpassed : r.status = .passed) :
    ∃ value, RecordedPassed run contract r.id value := by
  simp only [acceptanceCriteriaResponse, Except.bind_eq_ok] at h
  obtain ⟨recorded, hrecorded, h⟩ := h
  rcases acceptanceCriteriaFrom_sound h r hr with hnone | hpending | ⟨result, hresult, hstatus⟩
  · cases hnone
  · rw [hpassed] at hpending
    cases hpending
  · simp only [recordedCriterionResults] at hrecorded
    split at hrecorded
    · rename_i hcontract
      rcases recordedFrom_sound hrecorded _ hresult with hnone | ⟨value, hvalue, hread⟩
      · cases hnone
      · obtain ⟨raws, hraws, hne, hreads⟩ := hread.assertions
        have hall : ∀ a ∈ result.assertions, a.status = .passed := by
          apply all_passed_of_expectedStatus
          rw [← hread.status, ← hstatus, hpassed]
        refine ⟨value, hvalue, hcontract, hread.criterion, hread.version, hread.commit,
          hread.tree, raws, hraws, hne, fun raw hraw => ?_⟩
        obtain ⟨a, ha, hassertion⟩ := hreads raw hraw
        have hstatus : a.status = .passed := hall a ha
        obtain ⟨items, hitems, hlength⟩ := hassertion.evidence
        refine ⟨by rw [hassertion.status, hstatus]; rfl, items, hitems, ?_⟩
        rintro rfl
        have hempty : a.evidenceIds = [] := List.length_eq_zero_iff.mp hlength.symm
        rw [hassertion.evidenced.mpr hempty] at hstatus
        cases hstatus
    · cases hrecorded
      cases hresult

/-! ### Reading back one assertion -/

theorem AssertionResultStatus.ofValue?_value (status : AssertionResultStatus) :
    AssertionResultStatus.ofValue? status.value = some status := by
  cases status <;> decide

theorem AssertionKind.ofValue?_value (kind : AssertionKind) :
    AssertionKind.ofValue? kind.value = some kind := by
  cases kind <;> decide

theorem VerificationMethod.ofValue?_value (method : VerificationMethod) :
    VerificationMethod.ofValue? method.value = some method := by
  cases method <;> decide

theorem ne_empty_of_isIdentifier {text : String} (h : isIdentifier u text = true) :
    text ≠ "" := by
  rintro rfl
  simp only [isIdentifier, Bool.and_eq_true] at h
  rw [show ("" : String).toList = [] from rfl, validationIdentifier, cls,
    Regex.Re.fullmatch_seq_char_nil] at h
  exact absurd h.2 (by decide)

theorem someText?_str {text : String} (h : text ≠ "") : someText? (.str text) = some text := by
  simp [someText?, Json.str?, h]

/-- The texts of identifiers are read back. -/
theorem readUuids_str (ids : List UUID) :
    readUuids u (ids.map fun id => .str id.str) = some ids := by
  have htexts : (ids.map fun id => Json.str id.str).filterMap Json.str? = ids.map UUID.str := by
    rw [List.filterMap_map, show Json.str? ∘ (fun id : UUID => Json.str id.str) =
      some ∘ UUID.str from rfl, List.filterMap_eq_map]
  have hparse : (ids.map UUID.str).mapM (UUID.parse u) = some ids := by
    induction ids with
    | nil => rfl
    | cons id ids ih => simp [UUID.parse_str, ih (by simpa using htexts)]
  simp [readUuids, htexts, hparse]

namespace ValidationEvidenceCollection
variable (c : ValidationEvidenceCollection u)

/-- A result as the reader understands it. -/
def response (result : TypedAssertionResult u) : TaskAcceptanceAssertionResponse where
  assertionId := result.assertionId
  kind := result.kind
  verifierCatalogKey := result.verifierCatalogKey
  status := result.status
  resultCode := result.resultCode
  evidenceIds := c.evidenceIds result

/-- Different keys of a collection name different records. -/
theorem evidenceIdOf_injOn {k l : String} (hk : k ∈ c.evidence.map (·.evidenceKey))
    (hl : l ∈ c.evidence.map (·.evidenceKey)) (h : c.evidenceIdOf k = c.evidenceIdOf l) :
    k = l := by
  have hfind : ∀ key ∈ c.evidence.map (·.evidenceKey), ∃ item ∈ c.evidence,
      item.evidenceKey = key ∧ c.evidenceIdOf key = item.evidenceId := by
    intro key hkey
    obtain ⟨item, hitem, rfl⟩ := List.mem_map.mp hkey
    cases hfound : c.evidence.find? (·.evidenceKey = item.evidenceKey) with
    | none => exact absurd (List.find?_eq_none.mp hfound item hitem) (by simp)
    | some found =>
      refine ⟨found, List.mem_of_find?_eq_some hfound, by simpa using List.find?_some hfound, ?_⟩
      simp [evidenceIdOf, hfound]
  obtain ⟨a, ha, rfl, hida⟩ := hfind k hk
  obtain ⟨b, hb, rfl, hidb⟩ := hfind l hl
  rw [hida, hidb] at h
  rw [List.inj_on_of_nodup_map c.evidenceId_nodup ha hb h]

theorem evidenceIds_nodup {result : TypedAssertionResult u} (h : result ∈ c.assertionResults) :
    (c.evidenceIds result).Nodup :=
  result.evidenceKeys_nodup.map_on fun k hk l hl heq =>
    c.evidenceIdOf_injOn (c.referenced result h k hk) (c.referenced result h l hl) heq

/-- The reader accepts a recorded result, unless it has read its assertion before. -/
theorem readAssertion_toDict {result : TypedAssertionResult u} {seen : List String}
    (h : result ∈ c.assertionResults) (hseen : result.assertionId ∉ seen) :
    readAssertion u seen (c.toDict result) = .ok (some (c.response result)) := by
  have hid : (c.toDict result).get "assertion_id" = .str result.assertionId := rfl
  have hkind : (c.toDict result).get "kind" = .str result.kind.value := rfl
  have hkey : (c.toDict result).get "verifier_catalog_key" = .str result.verifierCatalogKey := rfl
  have hstatus : (c.toDict result).get "status" = .str result.status.value := rfl
  have hcode : (c.toDict result).get "result_code" = .str result.resultCode := rfl
  have hevidence : (c.toDict result).get "evidence_ids" =
      .arr ((c.evidenceIds result).map fun id => .str id.str) := rfl
  have hobj : ∃ fields, (c.toDict result).obj? = some fields := ⟨_, rfl⟩
  obtain ⟨fields, hobj⟩ := hobj
  have hrules : (c.evidenceIds result).Nodup ∧
      (result.status = .pending ↔ c.evidenceIds result = []) := by
    refine ⟨c.evidenceIds_nodup h, ?_⟩
    rw [result.evidenced, evidenceIds, List.map_eq_nil_iff]
  simp only [readAssertion, hobj, hid, hkind, hkey, hstatus, hcode, hevidence, memberOf?,
    someText?_str (ne_empty_of_isIdentifier result.assertionId_ok),
    someText?_str (ne_empty_of_isIdentifier result.catalogKey_ok),
    someText?_str (ne_empty_of_isIdentifier result.resultCode_ok),
    AssertionKind.ofValue?_value, AssertionResultStatus.ofValue?_value, Except.ok_bind,
    Json.arr?, if_neg hseen, readUuids_str, if_pos hrules]
  rfl

theorem readAssertions_toDict {results : List (TypedAssertionResult u)}
    {found : List TaskAcceptanceAssertionResponse}
    (h : ∀ result ∈ results, result ∈ c.assertionResults)
    (hnodup : (found.map (·.assertionId) ++ results.map (·.assertionId)).Nodup) :
    readAssertions u (results.map c.toDict) found =
      .ok (some (found ++ results.map c.response)) := by
  induction results generalizing found with
  | nil => simp [readAssertions]
  | cons result results ih =>
    have hseen : result.assertionId ∉ found.map (·.assertionId) := by
      intro hmem
      have hdisjoint := (List.nodup_append.mp hnodup).2.2
      exact hdisjoint _ hmem _ (List.mem_cons_self ..) rfl
    have hrest : readAssertions u (results.map c.toDict) (found ++ [c.response result]) =
        .ok (some (found ++ [c.response result] ++ results.map c.response)) := ih
      (fun r hr => h r (List.mem_cons_of_mem _ hr)) (by simpa [response] using hnodup)
    simp only [List.map_cons, readAssertions, Except.ok_bind,
      c.readAssertion_toDict (h result (List.mem_cons_self ..)) hseen, hrest]
    simp

end ValidationEvidenceCollection

/-! ### What an accepted collection has checked -/

theorem assertionRequirements_nodup {values : List Json} {found all : List AssertionRequirement}
    (h : assertionRequirementsFrom u values found = .ok all)
    (hfound : (found.map (·.assertionId)).Nodup) : (all.map (·.assertionId)).Nodup := by
  induction values generalizing found with
  | nil =>
    simp only [assertionRequirementsFrom, Except.bind_eq_ok, Except.require_eq_ok,
      Except.ok.injEq] at h
    obtain ⟨_, -, rfl⟩ := h
    exact hfound
  | cons value values ih =>
    simp only [assertionRequirementsFrom, Except.bind_eq_ok, Except.require_eq_ok] at h
    obtain ⟨requirement, -, _, hnew, h⟩ := h
    refine ih h ?_
    rw [List.map_append, List.map_singleton, ← List.concat_eq_append, List.nodup_concat]
    exact ⟨hnew, hfound⟩

/-- The criteria of a brief that stores some, in their order and without repetition. -/
theorem briefCriterionIdsFrom_eq {criteria : List (AcceptanceCriterion u)}
    {found ids : List String}
    (h : briefCriterionIdsFrom u (criteria.map AcceptanceCriterion.toDict) found = .ok ids)
    (hfound : found.Nodup) :
    ids = found ++ criteria.map (·.criterionId) ∧ ids.Nodup ∧
      ∀ id ∈ criteria.map (·.criterionId), isIdentifier u id = true := by
  induction criteria generalizing found with
  | nil =>
    simp only [List.map_nil, briefCriterionIdsFrom, Except.bind_eq_ok, Except.require_eq_ok,
      Except.ok.injEq] at h
    obtain ⟨_, -, rfl⟩ := h
    exact ⟨by simp, hfound, by simp⟩
  | cons criterion criteria ih =>
    simp only [List.map_cons, briefCriterionIdsFrom, Except.bind_eq_ok, Except.require_eq_ok,
      Except.orThrow_eq_ok, requireIdentifier] at h
    obtain ⟨id, hid, _, hok, _, hnew, h⟩ := h
    have hcriterion : criterion.criterionId = id := by
      have htext : (Json.str criterion.criterionId).str? = some id := hid
      simpa [Json.str?] using htext
    subst hcriterion
    have hnodup : (found ++ [criterion.criterionId]).Nodup := by
      rw [← List.concat_eq_append, List.nodup_concat]
      exact ⟨hnew, hfound⟩
    obtain ⟨hids, hall, hrest⟩ := ih h hnodup
    refine ⟨by rw [hids]; simp, hall, fun id' hid' => ?_⟩
    rcases List.mem_cons.mp hid' with rfl | hid'
    · exact hok
    · exact hrest id' hid'

namespace ValidationEvidenceCollection
variable (c : ValidationEvidenceCollection u)

theorem resultOf?_eq_some {id : String} {result : TypedAssertionResult u}
    (h : c.resultOf? id = some result) : result ∈ c.assertionResults ∧ result.assertionId = id :=
  ⟨List.mem_of_find?_eq_some h, by simpa using List.find?_some h⟩

theorem exists_resultOf? {id : String} (h : id ∈ c.assertionResults.map (·.assertionId)) :
    ∃ result, c.resultOf? id = some result := by
  obtain ⟨result, hresult, rfl⟩ := List.mem_map.mp h
  cases hfound : c.resultOf? result.assertionId with
  | none => exact absurd (List.find?_eq_none.mp hfound result hresult) (by simp)
  | some found => exact ⟨found, rfl⟩

/-- The results of a criterion: reported ones, each assertion once. -/
theorem resultsOf_spec {requirements : List AssertionRequirement} (criterionId : String)
    (hnodup : (requirements.map (·.assertionId)).Nodup) :
    (∀ result ∈ c.resultsOf requirements criterionId, result ∈ c.assertionResults) ∧
      ((c.resultsOf requirements criterionId).map (·.assertionId)).Nodup := by
  constructor
  · intro result hresult
    obtain ⟨r, -, hr⟩ := List.mem_filterMap.mp hresult
    exact (c.resultOf?_eq_some hr).1
  · have hsublist : List.Sublist ((c.resultsOf requirements criterionId).map (·.assertionId))
        (requirements.map (·.assertionId)) := by
      have hfiltered : List.Sublist ((c.resultsOf requirements criterionId).map (·.assertionId))
          ((requirements.filter (·.criterionId = some criterionId)).map (·.assertionId)) := by
        rw [resultsOf, List.map_filterMap]
        have heq : ∀ r : AssertionRequirement, ((c.resultOf? r.assertionId).map
            (·.assertionId)) = ((c.resultOf? r.assertionId).map fun _ => r.assertionId) := by
          intro r
          cases h : c.resultOf? r.assertionId with
          | none => rfl
          | some result => simp [(c.resultOf?_eq_some h).2]
        simp only [heq]
        generalize requirements.filter (·.criterionId = some criterionId) = chosen
        induction chosen with
        | nil => exact .slnil
        | cons r chosen ih =>
          cases h : c.resultOf? r.assertionId with
          | none =>
            rw [List.filterMap_cons_none (by simp [h]), List.map_cons]
            exact .cons _ ih
          | some result =>
            rw [List.filterMap_cons_some (b := r.assertionId) (by simp [h]), List.map_cons]
            exact .cons_cons _ ih
      exact hfiltered.trans (List.filter_sublist.map _)
    exact hsublist.nodup hnodup

theorem resultsOf_ne_nil {requirements : List AssertionRequirement} {criterionId : String}
    (hreported : ∀ r ∈ requirements, r.assertionId ∈ c.assertionResults.map (·.assertionId))
    (h : some criterionId ∈ requirements.map (·.criterionId)) :
    c.resultsOf requirements criterionId ≠ [] := by
  obtain ⟨r, hr, hcriterion⟩ := List.mem_map.mp h
  obtain ⟨result, hresult⟩ := c.exists_resultOf? (hreported r hr)
  have hmem : result ∈ c.resultsOf requirements criterionId :=
    List.mem_filterMap.mpr ⟨r, List.mem_filter.mpr ⟨hr, by simpa using hcriterion⟩, hresult⟩
  exact List.ne_nil_of_mem hmem

/-! ### Reading back a criterion -/

/-- A recorded criterion as the reader understands it. -/
def recordedCriterion (contractVersion : ℕ) (results : List (TypedAssertionResult u)) :
    RecordedCriterion where
  status := criterionStatus results
  validationRunId := c.runId
  validationContractVersion := contractVersion
  commitSha := c.commitSha
  treeSha := c.treeSha
  evidenceIds := c.criterionEvidence results
  assertions := results.map c.response

theorem mem_criterionEvidence {results : List (TypedAssertionResult u)} {id : UUID} :
    id ∈ c.criterionEvidence results ↔ id ∈ assertionEvidence (results.map c.response) := by
  rw [criterionEvidence, (List.perm_insertionSort _ _).mem_iff, List.mem_dedup,
    assertionEvidence, List.flatMap_map]
  rfl

theorem criterionEvidence_nodup (results : List (TypedAssertionResult u)) :
    (c.criterionEvidence results).Nodup :=
  (List.perm_insertionSort _ _).nodup_iff.mpr (List.nodup_dedup _)

theorem expectedStatus_response (results : List (TypedAssertionResult u)) :
    expectedStatus (results.map c.response) = criterionStatus results := by
  simp only [expectedStatus, criterionStatus, List.map_map]
  rfl

/-- The reader accepts a recorded criterion, unless it has read it before. -/
theorem readCriterion_criterionResult {contract : RecordedContract} {run : ValidationRun}
    {all : List Json} {seen : List String} {id : String}
    {results : List (TypedAssertionResult u)} (hid : isIdentifier u id = true)
    (hseen : id ∉ seen) (hne : results ≠ [])
    (hresults : ∀ result ∈ results, result ∈ c.assertionResults)
    (hnodup : (results.map (·.assertionId)).Nodup) :
    readCriterion u (c.recordedRun contract run all) contract seen
        (c.criterionResult contract.version id results) =
      .ok (some (id, c.recordedCriterion contract.version results)) := by
  have hcriterion : (c.criterionResult contract.version id results).get "criterion_id" =
      .str id := rfl
  have hstatus : (c.criterionResult contract.version id results).get "status" =
      .str (criterionStatus results).value := rfl
  have hassertions : (c.criterionResult contract.version id results).get "assertions" =
      .arr (results.map c.toDict) := rfl
  have hevidence : (c.criterionResult contract.version id results).get "evidence_ids" =
      .arr ((c.criterionEvidence results).map fun id => .str id.str) := rfl
  have hversion : (c.criterionResult contract.version id results).get
      "validation_contract_version" = .int contract.version := rfl
  have hcommit : (c.criterionResult contract.version id results).get "commit_sha" =
      .str c.commitSha := rfl
  have htree : (c.criterionResult contract.version id results).get "tree_sha" =
      .str c.treeSha := rfl
  obtain ⟨fields, hobj⟩ : ∃ fields, (c.criterionResult contract.version id results).obj? =
      some fields := ⟨_, rfl⟩
  have hbound : (Json.int contract.version).pyEq (.int contract.version) = true ∧
      (Json.str c.commitSha).str? = some (c.recordedRun contract run all).commitSha ∧
      (Json.str c.treeSha).str? = some (c.recordedRun contract run all).treeSha ∧
      results.map c.toDict ≠ [] :=
    ⟨by simp, rfl, rfl, by simpa using hne⟩
  have hread : readAssertions u (results.map c.toDict) [] =
      .ok (some (results.map c.response)) :=
    c.readAssertions_toDict hresults (by simpa using hnodup)
  have hrules : id ∉ seen ∧ (c.criterionEvidence results).Nodup ∧
      (∀ x ∈ c.criterionEvidence results, x ∈ assertionEvidence (results.map c.response)) ∧
      (∀ x ∈ assertionEvidence (results.map c.response), x ∈ c.criterionEvidence results) ∧
      criterionStatus results = expectedStatus (results.map c.response) :=
    ⟨hseen, c.criterionEvidence_nodup results, fun x hx => c.mem_criterionEvidence.mp hx,
      fun x hx => c.mem_criterionEvidence.mpr hx, (c.expectedStatus_response results).symm⟩
  simp only [readCriterion, hobj, hcriterion, someText?_str (ne_empty_of_isIdentifier hid),
    hstatus, hevidence, hassertions, hversion, hcommit, htree, memberOf?,
    AssertionResultStatus.ofValue?_value, Except.ok_bind, Json.arr?, if_pos hbound,
    readUuids_str, hread, if_pos hrules]
  rfl

/-- The reader takes over every recorded criterion. -/
theorem recordedFrom_criterionResults {contract : RecordedContract} {run : ValidationRun}
    {all : List Json} {results : String → List (TypedAssertionResult u)} {ids : List String}
    {found : List (String × RecordedCriterion)}
    (hids : ∀ id ∈ ids, isIdentifier u id = true ∧ results id ≠ [] ∧
      (∀ result ∈ results id, result ∈ c.assertionResults) ∧
      ((results id).map (·.assertionId)).Nodup)
    (hnodup : (found.map Prod.fst ++ ids).Nodup) :
    recordedCriterionResultsFrom u (c.recordedRun contract run all) contract
        (ids.map fun id => c.criterionResult contract.version id (results id)) found =
      .ok (found ++ ids.map fun id => (id, c.recordedCriterion contract.version (results id))) := by
  induction ids generalizing found with
  | nil => simp [recordedCriterionResultsFrom]
  | cons id ids ih =>
    obtain ⟨hid, hne, hreported, hassertions⟩ := hids id (List.mem_cons_self ..)
    have hseen : id ∉ found.map Prod.fst := by
      intro hmem
      exact (List.nodup_append.mp hnodup).2.2 _ hmem _ (List.mem_cons_self ..) rfl
    have hrest : recordedCriterionResultsFrom u (c.recordedRun contract run all) contract
        (ids.map fun id => c.criterionResult contract.version id (results id))
        (found ++ [(id, c.recordedCriterion contract.version (results id))]) = _ :=
      ih (fun i hi => hids i (List.mem_cons_of_mem _ hi)) (by simpa using hnodup)
    simp only [List.map_cons, recordedCriterionResultsFrom, Except.ok_bind, hrest,
      c.readCriterion_criterionResult hid hseen hne hreported hassertions]
    simp

end ValidationEvidenceCollection

/-! ### Criteria of a brief in the cockpit -/

/-- Every criterion a brief can have is shown. -/
theorem shownCriterion?_toDict (criterion : AcceptanceCriterion u) :
    shownCriterion? criterion.toDict =
      some (criterion.criterionId, criterion.requirement, criterion.verification) := by
  have hid : criterion.criterionId ≠ "" ∧ criterion.criterionId.toList.length ≤ 128 := by
    have hmatch := criterion.criterionId_ok
    cases hchars : criterion.criterionId.toList with
    | nil =>
      rw [hchars, briefIdentifier, cls, Regex.Re.fullmatch_seq_char_nil] at hmatch
      cases hmatch
    | cons x xs =>
      rw [hchars, briefIdentifier, cls, cls, Regex.Re.fullmatch_seq_char_many] at hmatch
      have hlength : xs.length ≤ 127 := hmatch.2.2 127 rfl
      refine ⟨fun hempty => ?_, ?_⟩
      · rw [hempty] at hchars
        cases hchars
      · rw [List.length_cons]
        omega
  have hrequirement : criterion.requirement ≠ "" := by
    intro hempty
    have hone := criterion.requirement_ok.1
    rw [hempty] at hone
    exact absurd hone (by decide)
  have h1 : criterion.toDict.get "criterion_id" = .str criterion.criterionId := rfl
  have h2 : criterion.toDict.get "requirement" = .str criterion.requirement := rfl
  have h3 : criterion.toDict.get "verification" = .str criterion.verification.value := rfl
  simp only [shownCriterion?, h1, h2, h3, someText?_str hid.1, someText?_str hrequirement,
    Option.filter_some, hid.2, criterion.requirement_ok.2, Json.str?,
    VerificationMethod.ofValue?_value, decide_true, if_true, Option.bind_some]
  rfl

theorem isLowerHex_checked {x : Char} (h : isLowerHex x = true) :
    Unicode.isAscii x = true ∧ Unicode.asciiUpper x = false ∧ Unicode.asciiAlnum x = true := by
  simp only [isLowerHex, Unicode.asciiDigit, Bool.or_eq_true, Bool.and_eq_true,
    decide_eq_true_eq, Char.le_def, UInt32.le_iff_toNat_le] at h
  have hn : x.toNat = x.val.toNat := rfl
  have h0 : ('0' : Char).val.toNat = 48 := rfl
  have h9 : ('9' : Char).val.toNat = 57 := rfl
  have ha : ('a' : Char).val.toNat = 97 := rfl
  have hf : ('f' : Char).val.toNat = 102 := rfl
  have hz : ('z' : Char).val.toNat = 122 := rfl
  have hA : ('A' : Char).val.toNat = 65 := rfl
  have hZ : ('Z' : Char).val.toNat = 90 := rfl
  simp only [Unicode.isAscii, Unicode.asciiUpper, Unicode.asciiAlnum, Unicode.asciiAlpha,
    Unicode.asciiLower, Unicode.asciiDigit, Bool.or_eq_true, Bool.and_eq_true,
    Bool.and_eq_false_iff, decide_eq_true_eq, decide_eq_false_iff_not, Char.le_def,
    UInt32.le_iff_toNat_le]
  omega

/-- The name of a git object is shown as it is. -/
theorem gitObjectId_of_isGitObject {text : String} (h : isGitObject text.toList = true) :
    gitObjectId u text = .ok text := by
  have hall : ∀ x ∈ text.toList, isLowerHex x = true := by
    simp only [isGitObject, Bool.and_eq_true, List.all_eq_true] at h
    exact h.2
  have hname : u.lower (u.strip text.toList) = text.toList := by
    rw [u.strip_eq_self_of_alnum fun x hx => (isLowerHex_checked (hall x hx)).2.2]
    exact u.lower_eq_self fun x hx =>
      ⟨(isLowerHex_checked (hall x hx)).1, (isLowerHex_checked (hall x hx)).2.1⟩
  rw [gitObjectId, hname, if_pos h, String.ofList_toList]

theorem lookup_map_of_mem {α : Type} {f : String → α} {ids : List String} {id : String}
    (h : id ∈ ids) : (ids.map fun i => (i, f i)).lookup id = some (f id) := by
  induction ids with
  | nil => cases h
  | cons i ids ih =>
    by_cases hi : id = i
    · subst hi
      simp
    · rw [List.map_cons, List.lookup_cons, beq_false_of_ne hi]
      exact ih ((List.mem_cons.mp h).resolve_left hi)

/-- A shown assertion, written as it is recorded. -/
def TaskAcceptanceAssertionResponse.toDict (a : TaskAcceptanceAssertionResponse) : Json :=
  .obj [("assertion_id", .str a.assertionId), ("kind", .str a.kind.value),
    ("verifier_catalog_key", .str a.verifierCatalogKey), ("status", .str a.status.value),
    ("result_code", .str a.resultCode),
    ("evidence_ids", .arr (a.evidenceIds.map fun id => .str id.str))]

/-- A response shows a recorded result: its status, assertions and evidence, and the run,
contract version, commit and tree it is for. -/
structure Shows (run : RecordedRun) (contract : RecordedContract)
    (r : TaskAcceptanceCriterionResponse) (result : Json) : Prop where
  criterion : result.get "criterion_id" = .str r.id
  status : result.get "status" = .str r.status.value
  assertions : result.get "assertions" =
    .arr (r.assertions.map TaskAcceptanceAssertionResponse.toDict)
  evidence : result.get "evidence_ids" = .arr (r.evidenceIds.map fun id => .str id.str)
  validationRun : r.validationRunId = some run.id
  version : r.validationContractVersion = some contract.version
  commit : r.commitSha = some run.commitSha
  tree : r.treeSha = some run.treeSha

namespace ValidationEvidenceCollection
variable (c : ValidationEvidenceCollection u)

/-- What is shown about a criterion with these results. -/
def shown (contractVersion : ℕ) (criterion : AcceptanceCriterion u)
    (results : List (TypedAssertionResult u)) : TaskAcceptanceCriterionResponse where
  id := criterion.criterionId
  requirement := criterion.requirement
  verification := criterion.verification
  status := criterionStatus results
  validationRunId := some c.runId
  validationContractVersion := some contractVersion
  commitSha := some c.commitSha
  treeSha := some c.treeSha
  evidenceIds := c.criterionEvidence results
  assertions := results.map c.response

theorem recordedResponse_recordedCriterion (contractVersion : ℕ)
    (criterion : AcceptanceCriterion u) (results : List (TypedAssertionResult u)) :
    recordedResponse u criterion.criterionId criterion.requirement criterion.verification
        (c.recordedCriterion contractVersion results) =
      .ok (c.shown contractVersion criterion results) := by
  simp only [recordedResponse, recordedCriterion, gitObjectId_of_isGitObject c.commit_ok,
    gitObjectId_of_isGitObject c.tree_ok, Except.ok_bind]
  rfl

theorem acceptanceCriteriaFrom_recorded {recorded : List (String × RecordedCriterion)}
    {contractVersion : ℕ} {results : String → List (TypedAssertionResult u)}
    {criteria : List (AcceptanceCriterion u)} {before : List TaskAcceptanceCriterionResponse}
    (hrecorded : ∀ criterion ∈ criteria, recorded.lookup criterion.criterionId =
      some (c.recordedCriterion contractVersion (results criterion.criterionId)))
    (hnodup : (before.map (·.id) ++ criteria.map (·.criterionId)).Nodup) :
    acceptanceCriteriaFrom u recorded (criteria.map AcceptanceCriterion.toDict) before =
      .ok (before ++ criteria.map fun criterion =>
        c.shown contractVersion criterion (results criterion.criterionId)) := by
  induction criteria generalizing before with
  | nil => simp [acceptanceCriteriaFrom]
  | cons criterion criteria ih =>
    have hnew : criterion.criterionId ∉ before.map (·.id) := by
      intro hmem
      exact (List.nodup_append.mp hnodup).2.2 _ hmem _ (List.mem_cons_self ..) rfl
    have hrest : acceptanceCriteriaFrom u recorded (criteria.map AcceptanceCriterion.toDict)
        (before ++ [c.shown contractVersion criterion (results criterion.criterionId)]) = _ :=
      ih (fun i hi => hrecorded i (List.mem_cons_of_mem _ hi)) (by simpa [shown] using hnodup)
    simp only [List.map_cons, acceptanceCriteriaFrom, shownCriterion?_toDict, if_neg hnew,
      hrecorded criterion (List.mem_cons_self ..), c.recordedResponse_recordedCriterion,
      Except.ok_bind, hrest]
    simp

theorem toDict_response (result : TypedAssertionResult u) :
    (c.response result).toDict = c.toDict result := rfl

/-- The results of an accepted collection are shown as they were recorded, every criterion of
the brief once. -/
theorem shown_of_collected {contract : RecordedContract} {brief : Brief} {run : ValidationRun}
    {criteria : List (AcceptanceCriterion u)} {results : List Json}
    (hbrief : briefCriteria brief = criteria.map AcceptanceCriterion.toDict)
    (h : c.collect contract brief = .ok results) :
    ∃ responses, acceptanceCriteriaResponse u brief (c.recordedRun contract run results)
        contract = .ok responses ∧
      responses.map (·.id) = criteria.map (·.criterionId) ∧ (responses.map (·.id)).Nodup ∧
      ∀ r ∈ responses, ∃ result ∈ results,
        Shows (c.recordedRun contract run results) contract r result := by
  simp only [collect, Except.bind_eq_ok, Except.require_eq_ok, Except.ok.injEq,
    assertionRequirements, briefCriterionIds, hbrief] at h
  obtain ⟨requirements, hrequirements, _, ⟨hreported, -⟩, _, -, ids, hids, _, ⟨hbound, -⟩, rfl⟩ := h
  have hnodup := assertionRequirements_nodup hrequirements List.nodup_nil
  obtain ⟨rfl, hidsNodup, hidentifiers⟩ := briefCriterionIdsFrom_eq hids List.nodup_nil
  rw [List.nil_append] at hidsNodup hbound ⊢
  generalize hsorted : (criteria.map (·.criterionId)).insertionSort (· ≤ ·) = sorted
  have hperm : sorted.Perm (criteria.map (·.criterionId)) := by
    rw [← hsorted]
    exact List.perm_insertionSort _ _
  have hresults : ∀ id ∈ sorted, isIdentifier u id = true ∧
      c.resultsOf requirements id ≠ [] ∧
      (∀ result ∈ c.resultsOf requirements id, result ∈ c.assertionResults) ∧
      ((c.resultsOf requirements id).map (·.assertionId)).Nodup := by
    intro id hid
    have hmem := hperm.mem_iff.mp hid
    obtain ⟨hassertions, hassertionIds⟩ := c.resultsOf_spec id hnodup
    exact ⟨hidentifiers id hmem, c.resultsOf_ne_nil hreported (hbound id hmem), hassertions,
      hassertionIds⟩
  have hrecorded : recordedCriterionResults u (c.recordedRun contract run (sorted.map fun id =>
      c.criterionResult contract.version id (c.resultsOf requirements id))) contract =
      .ok (sorted.map fun id =>
        (id, c.recordedCriterion contract.version (c.resultsOf requirements id))) := by
    have hfresh : (([] : List (String × RecordedCriterion)).map Prod.fst ++ sorted).Nodup := by
      simpa using hperm.nodup_iff.mpr hidsNodup
    exact (if_pos rfl).trans (c.recordedFrom_criterionResults hresults hfresh)
  have hlookup : ∀ criterion ∈ criteria, (sorted.map fun id =>
      (id, c.recordedCriterion contract.version (c.resultsOf requirements id))).lookup
        criterion.criterionId =
      some (c.recordedCriterion contract.version
        (c.resultsOf requirements criterion.criterionId)) := by
    intro criterion hcriterion
    have hmem : criterion.criterionId ∈ sorted :=
      hperm.mem_iff.mpr (List.mem_map.mpr ⟨criterion, hcriterion, rfl⟩)
    exact lookup_map_of_mem hmem
  have hfresh : (([] : List TaskAcceptanceCriterionResponse).map (·.id) ++
      criteria.map (·.criterionId)).Nodup := by
    simpa using hidsNodup
  have hshown := c.acceptanceCriteriaFrom_recorded hlookup hfresh
  refine ⟨criteria.map fun criterion => c.shown contract.version criterion
    (c.resultsOf requirements criterion.criterionId), ?_, ?_, ?_, ?_⟩
  · simp only [acceptanceCriteriaResponse, hrecorded, Except.ok_bind, hbrief]
    exact hshown
  · rw [List.map_map]
    rfl
  · rw [List.map_map]
    exact hidsNodup
  · intro r hr
    obtain ⟨criterion, hcriterion, rfl⟩ := List.mem_map.mp hr
    refine ⟨_, List.mem_map_of_mem (hperm.mem_iff.mpr (List.mem_map_of_mem hcriterion)), ?_⟩
    refine ⟨rfl, rfl, ?_, rfl, rfl, rfl, rfl, rfl⟩
    simp only [shown, List.map_map]
    rfl

end ValidationEvidenceCollection

/-- What an accepted collection records is shown as recorded, every criterion once; and
whatever is stored, a criterion is shown as passed only for a recorded result that says so. -/
theorem results_reach_cockpit (u : Unicode) :
    (∀ (c : ValidationEvidenceCollection u) (contract : RecordedContract) (brief : Brief)
        (run : ValidationRun) (criteria : List (AcceptanceCriterion u)) (results : List Json),
      briefCriteria brief = criteria.map AcceptanceCriterion.toDict →
      c.collect contract brief = .ok results →
      ∃ responses, acceptanceCriteriaResponse u brief (c.recordedRun contract run results)
          contract = .ok responses ∧
        responses.map (·.id) = criteria.map (·.criterionId) ∧ (responses.map (·.id)).Nodup ∧
        ∀ r ∈ responses, ∃ result ∈ results,
          Shows (c.recordedRun contract run results) contract r result) ∧
    (∀ (brief : Brief) (run : RecordedRun) (contract : RecordedContract)
        (responses : List TaskAcceptanceCriterionResponse),
      acceptanceCriteriaResponse u brief run contract = .ok responses →
      ∀ r ∈ responses, r.status = .passed → ∃ value, RecordedPassed run contract r.id value) := by
  constructor
  · intro c contract brief run criteria results hbrief h
    exact c.shown_of_collected hbrief h
  · intro brief run contract responses h r hr hpassed
    exact passed_of_shown h hr hpassed

/-! ### One criterion with one passed assertion -/

theorem sampleIdentifiers_ok : ∀ text ∈ ["a1", "k1", "e1", "ok"], isIdentifier .ascii text = true := by
  decide +kernel

theorem sampleAssertion_ok : isIdentifier .ascii "a1" = true :=
  sampleIdentifiers_ok _ (by simp)

theorem sampleKey_ok : isIdentifier .ascii "k1" = true := sampleIdentifiers_ok _ (by simp)

theorem sampleCode_ok : isIdentifier .ascii "ok" = true := sampleIdentifiers_ok _ (by simp)

theorem sampleEvidence_ok : ∀ key ∈ ["e1"], isIdentifier .ascii key = true :=
  fun key hkey => sampleIdentifiers_ok key (by simp_all)

theorem sampleEvidence_nodup : ["e1"].Nodup := List.nodup_singleton _

theorem samplePassed_evidenced : AssertionResultStatus.passed = .pending ↔ ["e1"] = [] := by
  simp

def sampleResult : TypedAssertionResult .ascii where
  assertionId := "a1"
  kind := .noCrash
  verifierCatalogKey := "k1"
  status := .passed
  evidenceKeys := ["e1"]
  resultCode := "ok"
  assertionId_ok := sampleAssertion_ok
  catalogKey_ok := sampleKey_ok
  evidenceKeys_ok := sampleEvidence_ok
  evidenceKeys_nodup := sampleEvidence_nodup
  resultCode_ok := sampleCode_ok
  evidenced := samplePassed_evidenced

def sampleHex : List Char := List.replicate 40 'a'

theorem sampleHex_ok : isGitObject sampleHex = true := by decide +kernel

def sampleSha : String := String.ofList sampleHex

theorem sampleSha_ok : isGitObject sampleSha.toList = true :=
  (congrArg isGitObject (String.toList_ofList)).trans sampleHex_ok

def sampleItems : List ValidationEvidenceItem := [⟨.ofNat 7, "e1"⟩]

theorem sampleItems_ids : (sampleItems.map (·.evidenceId)).Nodup := List.nodup_singleton _

theorem sampleItems_keys : (sampleItems.map (·.evidenceKey)).Nodup := List.nodup_singleton _

theorem sampleResults_ids : ([sampleResult].map (·.assertionId)).Nodup := List.nodup_singleton _

theorem sampleResults_referenced : ∀ result ∈ [sampleResult], ∀ key ∈ result.evidenceKeys,
    key ∈ sampleItems.map (·.evidenceKey) := by
  simp [sampleResult, sampleItems]

def sampleCollection : ValidationEvidenceCollection .ascii where
  runId := .ofNat 1
  commitSha := sampleSha
  treeSha := sampleSha
  evidence := sampleItems
  assertionResults := [sampleResult]
  commit_ok := sampleSha_ok
  tree_ok := sampleSha_ok
  evidenceId_nodup := sampleItems_ids
  evidenceKey_nodup := sampleItems_keys
  assertionId_nodup := sampleResults_ids
  referenced := sampleResults_referenced

theorem sampleCriterion_ok :
    briefIdentifier.fullmatch (CharClass.holds .ascii) "c1".toList = true := by decide +kernel

theorem sampleRequirement_ok :
    1 ≤ "starts".toList.length ∧ "starts".toList.length ≤ 2000 := by decide

def sampleCriterion : AcceptanceCriterion .ascii where
  criterionId := "c1"
  requirement := "starts"
  verification := .automatedTest
  criterionId_ok := sampleCriterion_ok
  requirement_ok := sampleRequirement_ok

def sampleBrief : Brief where
  id := .ofNat 2
  taskId := .ofNat 3
  scope := .null
  acceptanceCriteria := .arr ([sampleCriterion].map AcceptanceCriterion.toDict)

theorem briefCriteria_sampleBrief :
    briefCriteria sampleBrief = [sampleCriterion].map AcceptanceCriterion.toDict := rfl

def sampleContract : RecordedContract where
  id := .ofNat 4
  taskId := .ofNat 3
  version := 1
  briefId := .ofNat 2
  typedAssertions :=
    [.obj [("assertion_id", .str "a1"), ("kind", .str "NO_CRASH"),
      ("verifier_catalog_key", .str "k1"), ("acceptance_criterion_id", .str "c1")]]
  version_pos := Nat.one_pos

def sampleRun : ValidationRun where
  id := .ofNat 1
  taskId := .ofNat 3
  validationContractId := .ofNat 4
  repositoryConfigurationId := .ofNat 5
  commitSha := sampleSha
  treeSha := sampleSha
  outcome := .pending

def recordedStatuses : Except String (List Json) → List (Option String)
  | .ok results => results.map fun result => (result.get "status").str?
  | .error _ => []

theorem sample_statuses :
    recordedStatuses (sampleCollection.collect sampleContract sampleBrief) = [some "PASSED"] := by
  decide +kernel

/-- The result of the one criterion is shown, as passed, and rests on what was recorded. -/
theorem sample_reaches_cockpit : ∃ results responses,
    sampleCollection.collect sampleContract sampleBrief = .ok results ∧
    acceptanceCriteriaResponse .ascii sampleBrief
      (sampleCollection.recordedRun sampleContract sampleRun results) sampleContract =
        .ok responses ∧
    responses.map (·.id) = ["c1"] ∧
    ∀ r ∈ responses, r.status = .passed ∧ ∃ value, RecordedPassed
      (sampleCollection.recordedRun sampleContract sampleRun results) sampleContract r.id value := by
  have hstatuses := sample_statuses
  cases hresults : sampleCollection.collect sampleContract sampleBrief with
  | error e =>
    rw [hresults] at hstatuses
    cases hstatuses
  | ok results =>
    rw [hresults] at hstatuses
    obtain ⟨responses, hresponses, hids, -, hshows⟩ := (results_reach_cockpit .ascii).1
      sampleCollection sampleContract sampleBrief sampleRun [sampleCriterion] results briefCriteria_sampleBrief
      hresults
    have hone : responses.map (·.id) = ["c1"] := hids
    refine ⟨results, responses, rfl, hresponses, hone, fun r hr => ?_⟩
    have hpassed : r.status = .passed := by
      obtain ⟨result, hresult, hshown⟩ := hshows r hr
      have hmem : (result.get "status").str? ∈ recordedStatuses (.ok results) :=
        List.mem_map_of_mem hresult
      rw [hstatuses, hshown.status, List.mem_singleton] at hmem
      cases hstatus : r.status with
      | passed => rfl
      | pending => rw [hstatus] at hmem; exact absurd hmem (by decide)
      | failed => rw [hstatus] at hmem; exact absurd hmem (by decide)
      | blocked => rw [hstatus] at hmem; exact absurd hmem (by decide)
    exact ⟨hpassed, (results_reach_cockpit .ascii).2 sampleBrief _ sampleContract responses
      hresponses r hr hpassed⟩

end ControlPlane.Validation
