import ControlPlane.Readiness.Head
import ControlPlane.Readiness.Assessment
import ControlPlane.Evidence.Rewriting

/-!
# Stored assessments

An assessment is captured as evidence and compared with the next one. What is stored is the
redacted payload, so the comparison succeeds exactly when redaction leaves every text of the
assessment as it is.

## Main definitions

* `captureAssessment`
* `ReadinessAssessment.texts`: the texts of an assessment that come from outside.
* `SameAssessment`: nothing an assessment is about changed.
-/
namespace ControlPlane

open Regex

/-! ### Values that redaction leaves equal -/

section Equal
variable {u : Unicode}

theorem lookup_of_nodup {fields : List (String × Json)} (h : (fields.map Prod.fst).Nodup) :
    ∀ f ∈ fields, fields.lookup f.1 = some f.2 := by
  induction fields with
  | nil => exact fun f hf => absurd hf List.not_mem_nil
  | cons field rest ih =>
    rw [List.map_cons, List.nodup_cons] at h
    intro f hf
    rcases List.mem_cons.mp hf with rfl | hf
    · rw [List.lookup_cons, beq_self_eq_true]
    · have hne : (f.1 == field.1) = false := by
        rw [beq_eq_false_iff_ne]
        exact fun heq => h.1 (heq ▸ List.mem_map_of_mem hf)
      rw [List.lookup_cons, hne]
      exact ih h.2 f hf

theorem length_redactedFields (fields : List (String × Json)) :
    (redactedFields u fields).length = fields.length := by
  induction fields with
  | nil => simp only [redactedFields]
  | cons field rest ih => simp only [redactedFields, List.length_cons, ih]

mutual

/-- A value equals what redaction makes of it when its texts are left alone. -/
theorem redacted_pyEq_iff : ∀ {j : Json}, WellKeyed u j →
    ((redacted u j).pyEq j = true ↔ ∀ s ∈ strings j, Plain u s)
  | .null, _ => by simp [redacted, strings]
  | .bool b, _ => by simp [redacted, strings, Json.pyEq, Json.num?]
  | .int n, _ => by simp [redacted, strings, Json.pyEq, Json.num?]
  | .float q, _ => by simp [redacted, strings, Json.pyEq, Json.num?]
  | .str s, _ => by
    simp only [redacted, Json.str_pyEq, Json.str.injEq, strings, List.forall_mem_singleton, Plain]
    exact eq_comm
  | .arr items, h => by
    simp only [redacted, Json.pyEq, Json.arr?, strings]
    rw [WellKeyed] at h
    exact redactedItems_pyEq_iff h
  | .obj fields, h => by
    rw [WellKeyed] at h
    simp only [redacted, Json.pyEq, Json.obj?, strings, length_redactedFields, beq_self_eq_true,
      Bool.true_and]
    exact redactedFields_pyEq_iff h.2 (lookup_of_nodup h.1)

theorem redactedItems_pyEq_iff : ∀ {items : List Json}, WellKeyedItems u items →
    (Json.pyEqItems (redactedItems u items) items = true ↔
      ∀ s ∈ stringsOfItems items, Plain u s)
  | [], _ => by simp [redactedItems, Json.pyEqItems, stringsOfItems]
  | item :: rest, h => by
    rw [WellKeyedItems] at h
    simp only [redactedItems, Json.pyEqItems, stringsOfItems, Bool.and_eq_true,
      List.forall_mem_append]
    rw [redacted_pyEq_iff h.1, redactedItems_pyEq_iff h.2]

theorem redactedFields_pyEq_iff : ∀ {fields gs : List (String × Json)}, WellKeyedFields u fields →
    (∀ f ∈ fields, gs.lookup f.1 = some f.2) →
    (Json.pyEqFields (redactedFields u fields) gs = true ↔
      ∀ s ∈ stringsOfFields fields, Plain u s)
  | [], _, _, _ => by simp [redactedFields, Json.pyEqFields, stringsOfFields]
  | (key, child) :: rest, gs, h, hlookup => by
    rw [WellKeyedFields] at h
    obtain ⟨hkey, hchild, hrest⟩ := h
    have hhead := hlookup (key, child) List.mem_cons_self
    have htail := fun f hf => hlookup f (List.mem_cons_of_mem _ hf)
    simp only [redactedFields, hkey, Bool.false_eq_true, if_false, Json.pyEqFields, hhead,
      stringsOfFields, Bool.and_eq_true, List.forall_mem_append]
    rw [redacted_pyEq_iff hchild, redactedFields_pyEq_iff hrest htail]

end

/-! ### Identifiers and fingerprints -/

theorem exists_alphabet_of_fits {shape : Shape} {text : List Char} (h : Fits shape text) :
    ∀ c ∈ text, ∃ alphabet ∈ shape, c ∈ alphabet := by
  induction h with
  | nil => exact fun c hc => absurd hc List.not_mem_nil
  | cons hhead _ ih =>
    intro c hc
    rcases List.mem_cons.mp hc with rfl | hc
    · exact ⟨_, List.mem_cons_self, hhead⟩
    · obtain ⟨alphabet, halphabet, hmem⟩ := ih c hc
      exact ⟨alphabet, List.mem_cons_of_mem _ halphabet, hmem⟩

/-- The characters of identifiers and fingerprints. -/
def idAlphabet : List Char := '-' :: UUID.hexAlphabet

theorem idAlphabet_checked : ∀ c ∈ idAlphabet, Unicode.isAscii c = true ∧ c ≠ '\r' := by
  have hall : (idAlphabet.all fun c => Unicode.isAscii c && c != '\r') = true := by decide +kernel
  intro c hc
  have hchecked := List.all_eq_true.mp hall c hc
  simpa using hchecked

theorem shape_checked : ∀ alphabet ∈ UUID.shape, ∀ c ∈ alphabet, c ∈ idAlphabet := by
  have hall : (UUID.shape.all fun alphabet => alphabet.all fun c => idAlphabet.contains c) =
      true := by decide +kernel
  intro alphabet halphabet c hc
  have hchecked := List.all_eq_true.mp (List.all_eq_true.mp hall alphabet halphabet) c hc
  exact List.contains_iff_mem.mp hchecked

/-- Most patterns need another character, and the others do not fit between the dashes. -/
theorem patterns_checked (rule : RedactionRule) (h : rule ∈ redactionRules) :
    (rule.pattern.blocked (CharClass.holds .ascii) idAlphabet ||
      rule.pattern.inert (CharClass.holds .ascii) UUID.shape) = true := by
  have hall : (redactionRules.all fun rule =>
      rule.pattern.blocked (CharClass.holds .ascii) idAlphabet ||
        rule.pattern.inert (CharClass.holds .ascii) UUID.shape) = true := by
    decide +kernel
  exact List.all_eq_true.mp hall rule h

theorem hexPatterns_checked (rule : RedactionRule) (h : rule ∈ redactionRules) :
    rule.pattern.blocked (CharClass.holds .ascii) UUID.hexAlphabet = true := by
  have hall : (redactionRules.all fun rule =>
      rule.pattern.blocked (CharClass.holds .ascii) UUID.hexAlphabet) = true := by
    decide +kernel
  exact List.all_eq_true.mp hall rule h

theorem plain_uuid (id : UUID) : Plain u id.str := by
  have hfit : Fits UUID.shape id.str.toList := by
    rw [UUID.str, String.toList_ofList]
    exact id.fits_chars
  have hchars : ∀ c ∈ id.str.toList, c ∈ idAlphabet := by
    intro c hc
    obtain ⟨alphabet, halphabet, hmem⟩ := exists_alphabet_of_fits hfit c hc
    exact shape_checked alphabet halphabet c hmem
  have hagree : ∀ k, ∀ x ∈ idAlphabet, CharClass.holds u k x = CharClass.holds .ascii k x :=
    fun k x hx => k.holds_eq_of_isAscii u .ascii (idAlphabet_checked x hx).1
  refine plain_of_subn (fun hmem => (idAlphabet_checked _ (hchars _ hmem)).2 rfl)
    fun rule hrule => ?_
  rcases Bool.or_eq_true_iff.mp (patterns_checked rule hrule) with hblocked | hinert
  · exact Re.subn_of_blocked hagree hchars hblocked
  · exact Re.subn_of_inert rule.replacement
      (fun k alphabet halphabet x hx => hagree k x (shape_checked alphabet halphabet x hx)) hfit hinert

/-- A text is left alone when its characters block every pattern. -/
theorem plain_of_blocked {s : String} {alphabet : List Char}
    (hchars : ∀ x ∈ alphabet, Unicode.isAscii x = true ∧ x ≠ '\r')
    (hblocked : ∀ rule ∈ redactionRules,
      rule.pattern.blocked (CharClass.holds .ascii) alphabet = true)
    (h : ∀ c ∈ s.toList, c ∈ alphabet) : Plain u s :=
  plain_of_subn (fun hmem => (hchars _ (h _ hmem)).2 rfl) fun rule hrule =>
    Re.subn_of_blocked (fun k x hx => k.holds_eq_of_isAscii u .ascii (hchars x hx).1) h
      (hblocked rule hrule)

theorem mem_hexAlphabet_fingerprint (rt : Runtime) (j : Json) :
    ∀ c ∈ (rt.fingerprint j).toList, c ∈ UUID.hexAlphabet := by
  intro c hc
  obtain ⟨alphabet, halphabet, hmem⟩ := exists_alphabet_of_fits (rt.sha256_fits _) c hc
  rwa [List.eq_of_mem_replicate halphabet] at hmem

theorem plain_fingerprint (rt : Runtime) (j : Json) : Plain u (rt.fingerprint j) :=
  plain_of_blocked (fun x hx => idAlphabet_checked x (List.mem_cons_of_mem _ hx))
    hexPatterns_checked (mem_hexAlphabet_fingerprint rt j)

end Equal

/-! ### The capture -/

/-- Failures of the readiness service. -/
inductive ReadinessError where
  | failed (code : String)
  | evidence (error : EvidenceError)

def assessmentEvidenceId (rt : Runtime) (taskId triggerEventId : UUID) (a : ReadinessAssessment) :
    UUID :=
  let fingerprint := rt.fingerprint (assessmentPayload a triggerEventId)
  rt.uuid5 s!"mathews:readiness-assessment:{taskId.str}:{triggerEventId.str}:{fingerprint}"

def assessmentCapture (rt : Runtime) (principalId : String) (task : Task) (trigger : TaskEvent)
    (a : ReadinessAssessment) (evidenceId : UUID) (now : Time) : EvidenceCapture where
  payload := signedPayload rt a trigger.id
  sourceKind := .result
  evidenceType := "pull-request-readiness-assessment"
  origin := "control-plane:readiness"
  accessClassification := .taskOwner
  retentionPolicy := .audit
  ownerId := task.ownerId
  actorId := principalId
  rootCorrelationId := task.rootCorrelationId
  taskId := some task.id
  causationId := some trigger.id
  parentCorrelationId := a.draftProofEvidenceId
  evidenceId := evidenceId
  capturedAt := now

/-- An assessment is captured once for its trigger. -/
def captureAssessment (rt : Runtime) (principalId : String) (db : Database)
    (taskId triggerEventId : UUID) (a : ReadinessAssessment) (now : Time) :
    Except ReadinessError (UUID × Database) := do
  let evidenceId := assessmentEvidenceId rt taskId triggerEventId a
  match db.evidenceRecords.get? evidenceId with
  | some existing => do
    let loaded ← Except.relabel (loadEvidence rt db existing) .evidence
    Except.require (loaded.content.pyEq (signedPayload rt a triggerEventId) = true)
      (.failed "READINESS_ASSESSMENT_CONFLICT")
    return (existing.id, db)
  | none => do
    let stale : ReadinessError := .failed "READINESS_TASK_STALE"
    let task ← Except.orThrow (db.tasks.get? taskId) stale
    let trigger ← Except.orThrow (db.taskEvents.get? triggerEventId) stale
    Except.require (trigger.taskId = task.id ∧
      (task.state = .prActive ∨ task.state = .readyForHumanMerge)) stale
    let capture := assessmentCapture rt principalId task trigger a evidenceId now
    let (captured, db) ← Except.relabel (captureEvidence rt db capture) .evidence
    return (captured.record.id, db)

/-- The texts of an assessment that come from outside. -/
def ReadinessAssessment.texts (a : ReadinessAssessment) : List String :=
  (a.draftPr.map DraftPrGateFacts.currentHeadSha).toList ++ a.github.branchName.toList ++
    a.github.headSha.toList ++ a.github.requiredChecks ++
    a.github.checkStates.flatMap fun c => [c.1, c.2]

/-- The record of an assessment is there, and assessing the task again gives the same. -/
structure SameAssessment (rt : Runtime) (classify : ClassificationReader) (db : Database)
    (taskId : UUID) (a : ReadinessAssessment) (evidenceId : UUID) (later : Database) (task : Task) :
    Prop where
  present : later.tasks.get? taskId = some task
  record : later.evidenceRecords.get? evidenceId = db.evidenceRecords.get? evidenceId
  live : deletionRequested later evidenceId = false
  assessed : assess rt classify later task = a

/-- The assessment can be captured again, and the gates let the task be marked ready when it is
ready, and its readiness be invalidated when it is not. -/
structure Survives (rt : Runtime) (classify : ClassificationReader) (principalId : String)
    (a : ReadinessAssessment) (triggerEventId evidenceId : UUID) (later : Database) (task : Task)
    (policy : PolicyVersion) (now : Time) : Prop where
  captured : captureAssessment rt principalId later task.id triggerEventId a now =
    .ok (evidenceId, later)
  ready : a.ready = true →
    readinessTransitionGates rt classify (some evidenceId) none later task .markMergeReady policy
      now = .ok { readiness := a.gateFacts }
  notReady : a.ready = false →
    readinessTransitionGates rt classify (some evidenceId) none later task .invalidateReadiness
      policy now = .ok { readinessInvalidationCurrent := true }

section Survival
variable {rt : Runtime} {classify : ClassificationReader} {principalId : String}
  {db db' later : Database} {a : ReadinessAssessment} {task : Task}
  {taskId triggerEventId evidenceId : UUID} {now time : Time} {policy : PolicyVersion}

/-! ### The payload -/

theorem wellKeyedItems_str {u : Unicode} (values : List String) :
    WellKeyedItems u (values.map .str) := by
  induction values with
  | nil => simp only [List.map_nil, WellKeyedItems]
  | cons value rest ih => simp only [List.map_cons, WellKeyedItems, WellKeyed, ih, and_self]

theorem wellKeyedItems_pairs {u : Unicode} (pairs : List (String × String)) :
    WellKeyedItems u (pairs.map fun c => .arr [.str c.1, .str c.2]) := by
  induction pairs with
  | nil => simp only [List.map_nil, WellKeyedItems]
  | cons pair rest ih => simp only [List.map_cons, WellKeyedItems, WellKeyed, ih, and_self]

theorem wellKeyed_optionalId {u : Unicode} (id : Option UUID) : WellKeyed u (optionalId id) := by
  cases id <;> simp only [optionalId, WellKeyed]

theorem wellKeyed_optionalText {u : Unicode} (text : Option String) :
    WellKeyed u (optionalText text) := by
  cases text <;> simp only [optionalText, WellKeyed]

theorem wellKeyed_optionalInt {u : Unicode} (n : Option ℤ) : WellKeyed u (optionalInt n) := by
  cases n <;> simp only [optionalInt, WellKeyed]

theorem stringsOfItems_str (values : List String) :
    stringsOfItems (values.map .str) = values := by
  induction values with
  | nil => rfl
  | cons value rest ih => simp only [List.map_cons, stringsOfItems, strings, ih,
      List.singleton_append]

theorem stringsOfItems_pairs (pairs : List (String × String)) :
    stringsOfItems (pairs.map fun c => .arr [.str c.1, .str c.2]) =
      pairs.flatMap fun c => [c.1, c.2] := by
  induction pairs with
  | nil => rfl
  | cons pair rest ih =>
    simp only [List.map_cons, stringsOfItems, strings, ih, List.flatMap_cons,
      List.append_nil, List.singleton_append]

theorem plain_optionalId {u : Unicode} (id : Option UUID) :
    ∀ s ∈ strings (optionalId id), Plain u s := by
  cases id with
  | none => simp [optionalId, strings]
  | some id => simp [optionalId, strings, plain_uuid]

theorem strings_optionalText (text : Option String) :
    strings (optionalText text) = text.toList := by
  cases text <;> rfl

theorem strings_optionalInt (n : Option ℤ) : strings (optionalInt n) = [] := by
  cases n <;> rfl

def payloadKeys : List String :=
  ["schema_version", "task_id", "trigger_event_id", "draft_proof_evidence_id",
    "verified_head_sha", "binding_event_id", "pull_request_number", "branch_name",
    "current_head_sha", "required_checks", "check_states", "required_ci_green",
    "blocking_reviews", "open_review_threads", "no_blocking_review", "pull_request_state_known",
    "current_pull_request_is_draft", "repairs_authorized", "blocker_codes",
    "ready_for_human_merge", "merge_available_to_automation", "assessment_fingerprint"]

theorem payloadKeys_checked :
    ∀ key ∈ payloadKeys, key.toList.all Unicode.isAscii = true ∧
      sensitiveKey .ascii key = false := by
  decide +kernel

theorem sensitiveKey_payloadKeys {u : Unicode} {key : String} (h : key ∈ payloadKeys) :
    sensitiveKey u key = false := by
  obtain ⟨hascii, hkey⟩ := payloadKeys_checked key h
  rw [sensitiveKey_eq hascii, hkey]

theorem wellKeyed_signedPayload {u : Unicode} :
    WellKeyed u (signedPayload rt a triggerEventId) := by
  have hkey : ∀ key ∈ payloadKeys, sensitiveKey u key = false :=
    fun key h => sensitiveKey_payloadKeys h
  simp only [payloadKeys, List.forall_mem_cons, List.not_mem_nil, false_implies, implies_true,
    and_true] at hkey
  rw [signedPayload, WellKeyed]
  refine ⟨?_, ?_⟩
  · show payloadKeys.Nodup
    decide
  · simp only [ReadinessAssessment.fields, List.cons_append, List.nil_append, WellKeyedFields,
      hkey, WellKeyed, wellKeyed_optionalId, wellKeyed_optionalText, wellKeyed_optionalInt, texts,
      wellKeyedItems_str, wellKeyedItems_pairs, and_self]

def blockerTexts : List String :=
  ["VERIFIED_DRAFT_PROOF_UNAVAILABLE", "PULL_REQUEST_NOT_BOUND", "PULL_REQUEST_HEAD_CHANGED",
    "PULL_REQUEST_NOT_DRAFT", "PULL_REQUEST_STATE_UNKNOWN", "REQUIRED_CI_NOT_GREEN",
    "BLOCKING_REVIEW_PRESENT", "REVIEW_REPAIRS_NOT_SETTLED"]

theorem blocker_subset {applies : Bool} {code : String} (h : code ∈ blockerTexts) :
    blocker applies code ⊆ blockerTexts := by
  cases applies with
  | true => exact List.cons_subset.mpr ⟨h, List.nil_subset _⟩
  | false => exact List.nil_subset _

theorem blockerCodes_subset (proofId : Option UUID) (draft : Option DraftPrGateFacts)
    (github : GitHubFacts) (repairs : Bool) :
    blockerCodes proofId draft github repairs ⊆ blockerTexts := by
  simp only [blockerCodes, List.append_subset]
  refine ⟨⟨⟨⟨⟨⟨?_, ?_⟩, ?_⟩, ?_⟩, ?_⟩, ?_⟩, ?_⟩
  case refine_4 =>
    split
    · exact blocker_subset (by decide)
    · exact List.cons_subset.mpr ⟨by decide, List.nil_subset _⟩
  all_goals exact blocker_subset (by decide)

theorem blockerTexts_checked : ∀ code ∈ blockerTexts,
    (code.toList.all (fun x => Unicode.isAscii x && x != '\r') &&
      redactionRules.all fun rule =>
        rule.pattern.blocked (CharClass.holds .ascii) code.toList) = true := by
  decide +kernel

theorem plain_blockerCodes {u : Unicode} (classify : ClassificationReader) (later : Database)
    (task : Task) : ∀ s ∈ (assess rt classify later task).blockerCodes, Plain u s := by
  intro s hs
  have hchecked := blockerTexts_checked s (blockerCodes_subset _ _ _ _ hs)
  simp only [Bool.and_eq_true, List.all_eq_true, bne_iff_ne] at hchecked
  exact plain_of_blocked hchecked.1 hchecked.2 fun c hc => hc

/-- What redaction leaves of the payload equals it when the texts from outside are left alone. -/
theorem redacted_signedPayload_iff (rt : Runtime) (triggerEventId : UUID) {u : Unicode}
    (hcodes : ∀ s ∈ a.blockerCodes, Plain u s) :
    (redacted u (signedPayload rt a triggerEventId)).pyEq (signedPayload rt a triggerEventId) =
        true ↔ ∀ s ∈ a.texts, Plain u s := by
  rw [redacted_pyEq_iff wellKeyed_signedPayload]
  simp only [signedPayload, ReadinessAssessment.fields, strings, stringsOfFields,
    List.cons_append, List.nil_append, List.append_nil, strings_optionalText, strings_optionalInt,
    texts, stringsOfItems_str, stringsOfItems_pairs, List.forall_mem_append, List.forall_mem_cons,
    plain_uuid, plain_fingerprint, ReadinessAssessment.texts, true_and]
  constructor
  · rintro ⟨-, hverified, -, hbranch, hhead, hchecks, hstates, -⟩
    exact ⟨⟨⟨⟨hverified, hbranch⟩, hhead⟩, hchecks⟩, hstates⟩
  · rintro ⟨⟨⟨⟨hverified, hbranch⟩, hhead⟩, hchecks⟩, hstates⟩
    exact ⟨plain_optionalId _, hverified, plain_optionalId _, hbranch, hhead, hchecks, hstates,
      hcodes, by simp⟩

/-- The texts of a payload are identifiers, digests, codes and the texts from outside. -/
theorem forall_strings_signedPayload {P : String → Prop} (hid : ∀ id : UUID, P id.str)
    (hdigest : ∀ j, P (rt.fingerprint j)) (hcodes : ∀ s ∈ a.blockerCodes, P s)
    (htexts : ∀ s ∈ a.texts, P s) : ∀ s ∈ strings (signedPayload rt a triggerEventId), P s := by
  have hoptional : ∀ id : Option UUID, ∀ s ∈ strings (optionalId id), P s := by
    intro id
    cases id with
    | none => simp [optionalId, strings]
    | some id => simp [optionalId, strings, hid]
  simp only [ReadinessAssessment.texts, List.forall_mem_append] at htexts
  obtain ⟨⟨⟨⟨hverified, hbranch⟩, hhead⟩, hchecks⟩, hstates⟩ := htexts
  simp only [signedPayload, ReadinessAssessment.fields, strings, stringsOfFields,
    List.cons_append, List.nil_append, List.append_nil, strings_optionalText, strings_optionalInt,
    texts, stringsOfItems_str, stringsOfItems_pairs, List.forall_mem_append, List.forall_mem_cons,
    hid, hdigest, true_and]
  exact ⟨hoptional _, hverified, hoptional _, hbranch, hhead, hchecks, hstates, hcodes, by simp⟩

/-! ### The record -/

theorem captureEvidence_taskId {c : EvidenceCapture} {captured : CapturedEvidence}
    (h : captureEvidence rt db c = .ok (captured, db')) (hc : c.correctionOfId = none) :
    captured.record.taskId = c.taskId := by
  simp only [captureEvidence, hc, projectCorrection, Except.bind_eq_ok, Except.orThrow_eq_ok,
    Except.pure_eq_ok, Except.ok.injEq, Prod.mk.injEq] at h
  obtain ⟨_, _, _, _, _, _, _, _, _, _, records, _, _, rfl, rfl, rfl⟩ := h
  rfl

/-- A new assessment leaves a record whose content is the redacted payload. -/
theorem captureAssessment_fresh
    (h : captureAssessment rt principalId db taskId triggerEventId a now = .ok (evidenceId, db'))
    (hfresh : db.evidenceRecords.get? evidenceId = none) :
    evidenceId = assessmentEvidenceId rt taskId triggerEventId a ∧
      (∃ records, db' = { db with evidenceRecords := records }) ∧
      ∃ record, db'.evidenceRecords.get? evidenceId = some record ∧ record.taskId = some taskId ∧
        record.id = evidenceId ∧
        ∀ later, deletionRequested later evidenceId = false →
          ∃ loaded, loadEvidence rt later record = .ok loaded ∧
            loaded.content = redacted rt.unicode (signedPayload rt a triggerEventId) := by
  rw [captureAssessment] at h
  split at h
  · rename_i existing hexisting
    simp only [Except.bind_eq_ok, Except.pure_eq_ok, Prod.mk.injEq] at h
    obtain ⟨-, -, -, -, hid, -⟩ := h
    rw [← Table.key_of_get? hexisting] at hexisting
    rw [show key existing = evidenceId from hid, hfresh] at hexisting
    cases hexisting
  · simp only [Except.bind_eq_ok, Except.orThrow_eq_ok, Except.relabel_eq_ok, Except.pure_eq_ok,
      Prod.mk.injEq] at h
    obtain ⟨task, htask, trigger, htrigger, -, -, ⟨captured, db₁⟩, hcaptured, hid, rfl⟩ := h
    obtain ⟨hget, hcontent⟩ := captureEvidence_content hcaptured rfl rfl
    have htaskId : task.id = taskId := Table.key_of_get? htask
    have htriggerId : trigger.id = triggerEventId := Table.key_of_get? htrigger
    have hsame : captured.record.id = assessmentEvidenceId rt taskId triggerEventId a :=
      Table.key_of_get? hget
    rw [hsame] at hid
    subst hid
    obtain ⟨records, -, hdb⟩ := captureEvidence_ok hcaptured rfl
    refine ⟨rfl, ⟨records, hdb⟩, captured.record, hget, ?_, hsame, ?_⟩
    · rw [← htaskId]
      exact captureEvidence_taskId hcaptured rfl
    · subst htriggerId
      exact hcontent

/-! ### The comparison -/

theorem isSha256_fingerprint (j : Json) : isSha256 (rt.fingerprint j) = true := by
  simp only [isSha256, Runtime.fingerprint, Runtime.length_sha256, decide_true, Bool.true_and,
    List.all_eq_true, decide_eq_true_eq]
  exact mem_hexAlphabet_fingerprint rt j

theorem assessmentMatches_redacted :
    assessmentMatches rt (redacted rt.unicode (signedPayload rt a triggerEventId)) a =
      (redacted rt.unicode (signedPayload rt a triggerEventId)).pyEq
        (signedPayload rt a triggerEventId) := by
  have hkey : ∀ key ∈ payloadKeys,
      (redacted rt.unicode (signedPayload rt a triggerEventId)).get key =
        redacted rt.unicode ((signedPayload rt a triggerEventId).get key) :=
    fun key h => get_redacted (sensitiveKey_payloadKeys h) _
  have hobj : (redacted rt.unicode (signedPayload rt a triggerEventId)).obj?.isSome = true := by
    rw [signedPayload, redacted]
    rfl
  have htrigger : (redacted rt.unicode (signedPayload rt a triggerEventId)).get
      "trigger_event_id" = .str triggerEventId.str := by
    rw [hkey _ (by decide), show (signedPayload rt a triggerEventId).get "trigger_event_id" =
      .str triggerEventId.str from rfl, redacted, plain_uuid]
  have hfingerprint : (redacted rt.unicode (signedPayload rt a triggerEventId)).get
      "assessment_fingerprint" =
        .str (rt.fingerprint (assessmentPayload a triggerEventId)) := by
    rw [hkey _ (by decide), show (signedPayload rt a triggerEventId).get
      "assessment_fingerprint" = .str (rt.fingerprint (assessmentPayload a triggerEventId)) from
      rfl, redacted, plain_fingerprint]
  simp only [assessmentMatches, hobj, htrigger, hfingerprint, UUID.parse_str,
    isSha256_fingerprint, Bool.true_and]

theorem gate_markMergeReady (policy : PolicyVersion) (time : Time) {payload : Json}
    (hassess : assess rt classify later task = a)
    (hcontent : contentOf rt later task.id (some evidenceId) = some payload) :
    readinessTransitionGates rt classify (some evidenceId) none later task .markMergeReady policy
        time =
      .ok (if assessmentMatches rt payload a then { readiness := a.gateFacts } else {}) := by
  subst hassess
  simp only [readinessTransitionGates, hcontent]

theorem gate_invalidateReadiness (policy : PolicyVersion) (time : Time) {payload : Json}
    (hassess : assess rt classify later task = a)
    (hcontent : contentOf rt later task.id (some evidenceId) = some payload) :
    readinessTransitionGates rt classify (some evidenceId) none later task .invalidateReadiness
        policy time =
      .ok (if assessmentMatches rt payload a then { readinessInvalidationCurrent := !a.ready }
        else {}) := by
  subst hassess
  simp only [readinessTransitionGates, hcontent]

theorem gateFacts_ne_none (h : a.ready = true) : a.gateFacts ≠ none := by
  rw [ReadinessAssessment.gateFacts, if_pos h]
  simp only [ReadinessAssessment.ready, Bool.and_eq_true] at h
  obtain ⟨facts, hfacts⟩ := Option.isSome_iff_exists.mp h.2
  rw [hfacts]
  exact Option.some_ne_none _

/-- What the gates read of an assessment. -/
theorem contentOf_of_unchanged
    (hcapture : captureAssessment rt principalId db taskId triggerEventId a now =
      .ok (evidenceId, db'))
    (hfresh : db.evidenceRecords.get? evidenceId = none)
    (hunchanged : SameAssessment rt classify db' taskId a evidenceId later task) :
    contentOf rt later task.id (some evidenceId) =
      some (redacted rt.unicode (signedPayload rt a triggerEventId)) := by
  obtain ⟨-, -, record, hget, htask, -, hcontent⟩ := captureAssessment_fresh hcapture hfresh
  obtain ⟨loaded, hloaded, hpayload⟩ := hcontent later hunchanged.live
  have htaskId : task.id = taskId := Table.key_of_get? hunchanged.present
  simp [contentOf, hunchanged.record.trans hget, htask, htaskId, hloaded, hpayload]

/-- A repeated capture finds an equal payload. -/
theorem captureAssessment_again
    (hcapture : captureAssessment rt principalId db taskId triggerEventId a now =
      .ok (evidenceId, db'))
    (hfresh : db.evidenceRecords.get? evidenceId = none)
    (hunchanged : SameAssessment rt classify db' taskId a evidenceId later task)
    (hsame : (redacted rt.unicode (signedPayload rt a triggerEventId)).pyEq
      (signedPayload rt a triggerEventId) = true) (time : Time) :
    captureAssessment rt principalId later task.id triggerEventId a time =
      .ok (evidenceId, later) := by
  obtain ⟨hid, -, record, hget, -, hrecord, hcontent⟩ := captureAssessment_fresh hcapture hfresh
  obtain ⟨loaded, hloaded, hpayload⟩ := hcontent later hunchanged.live
  obtain rfl : task.id = taskId := Table.key_of_get? hunchanged.present
  rw [captureAssessment, ← hid]
  simp only [hunchanged.record.trans hget, hloaded, hrecord, Except.bind_eq_ok,
    Except.relabel_eq_ok, Except.require_eq_ok, Except.pure_eq_ok]
  exact ⟨loaded, rfl, (), hpayload ▸ hsame, by simp⟩

/-- A stored assessment is recognised exactly when redaction leaves its texts as they are. -/
theorem survives_iff
    (hcapture : captureAssessment rt principalId db taskId triggerEventId a now =
      .ok (evidenceId, db'))
    (hfresh : db.evidenceRecords.get? evidenceId = none)
    (hunchanged : SameAssessment rt classify db' taskId a evidenceId later task) :
    Survives rt classify principalId a triggerEventId evidenceId later task policy time ↔
      ∀ text ∈ a.texts, Plain rt.unicode text := by
  have hcontent := contentOf_of_unchanged hcapture hfresh hunchanged
  have hmark := gate_markMergeReady policy time hunchanged.assessed hcontent
  have hinvalidate := gate_invalidateReadiness policy time hunchanged.assessed hcontent
  have hcodes : ∀ s ∈ a.blockerCodes, Plain rt.unicode s := by
    rw [← hunchanged.assessed]
    exact plain_blockerCodes classify later task
  rw [← redacted_signedPayload_iff rt triggerEventId hcodes]
  rw [assessmentMatches_redacted] at hmark hinvalidate
  constructor
  · intro h
    by_contra hne
    rw [if_neg hne] at hmark hinvalidate
    cases hready : a.ready with
    | true =>
      have hguards := Except.ok.inj (hmark.symm.trans (h.ready hready))
      exact gateFacts_ne_none hready (congrArg TaskTransitionGuards.readiness hguards).symm
    | false =>
      have hguards := Except.ok.inj (hinvalidate.symm.trans (h.notReady hready))
      cases congrArg TaskTransitionGuards.readinessInvalidationCurrent hguards
  · intro hsame
    rw [if_pos hsame] at hmark hinvalidate
    refine ⟨captureAssessment_again hcapture hfresh hunchanged hsame time, fun _ => hmark,
      fun hready => ?_⟩
    rw [hinvalidate, hready]
    rfl

/-- Without a draft and open comments the records of evidence do not matter. -/
theorem assess_records {records : Table EvidenceRecord} (hdraft : latestOpening db task.id = none)
    (hcomments : (githubFacts rt (assessedEvents db task.id)).openReviewEventIds = []) :
    assess rt classify { db with evidenceRecords := records } task =
      assess rt classify db task := by
  have hdraft' : draftPrFacts rt { db with evidenceRecords := records } task = (none, none) := by
    rw [draftPrFacts, show latestOpening { db with evidenceRecords := records } task.id = none from
      hdraft]
  have hevents : assessedEvents { db with evidenceRecords := records } task.id =
      assessedEvents db task.id := rfl
  have hrepairs : ∀ head, repairsAuthorized rt classify { db with evidenceRecords := records }
      task.id head [] = repairsAuthorized rt classify db task.id head [] := by
    intro head
    cases head <;> rfl
  have hnone : draftPrFacts rt db task = (none, none) := by
    rw [draftPrFacts, hdraft]
  simp only [assess, hdraft', hnone, hevents, hcomments, hrepairs]

end Survival

/-! ### A required check whose name is redacted -/

namespace StorageExample
open GitHubExample (binding sha tableOf)

def task : Task := { GitHubExample.task with state := .readyForHumanMerge }

def policy : PolicyVersion where
  id := .ofNat 20
  lineageKey := "mvp"
  version := 1
  workflowThresholds := .null
  approvedAt := 0
  ownerId := "owner"

def named : PullRequestBinding := { binding (sha 'a') 500 with requiredChecks := ["token=x"] }

/-- The task is marked ready, and its pull request is bound again. -/
def start : Database where
  tasks := tableOf [task]

def bound : Database := GitHubExample.bind named start

def classify : ClassificationReader := fun _ => none

def assessment : ReadinessAssessment := assess .plain classify bound task

def stored : Except ReadinessError (UUID × Database) :=
  captureAssessment .plain "control-plane" bound task.id named.eventId assessment (seconds 1)

/-- What is stored in place of a text of the assessment. -/
def storedText (text : String) : String :=
  if text = "token=x" then redactedText .ascii text else text

/-- What the pull request binds, what the capture of its assessment looks at, and the texts that
it redacts. -/
theorem capture_checked :
    (GitHubExample.binds named start && bound.evidenceRecords.rows.isEmpty &&
      bound.evidenceDeletionRequests.rows.isEmpty && (latestOpening bound task.id).isNone &&
      (githubFacts .plain (assessedEvents bound task.id)).openReviewEventIds.isEmpty &&
      assessment.texts.contains "token=x" && !assessment.ready) = true ∧
    (assessment.texts.all fun text => text = "token=x" || decide (Plain .ascii text)) = true ∧
    ((bound.taskEvents.get? named.eventId).any (·.taskId = task.id) &&
      (counted 0 (signedPayload .plain assessment named.eventId) 0).isSome) = true ∧
    ((Json.encode Runtime.plain.floatRepr
      (rewritten storedText (signedPayload .plain assessment named.eventId))).flatMap
        String.utf8EncodeChar).length ≤ maxEvidenceBytes ∧
    (requiredMetadataIdentifier .plain task.ownerId "owner id" 255).isOk ∧
      (requiredMetadataIdentifier .plain "control-plane" "actor id" 255).isOk ∧
      (requiredMetadataIdentifier .plain "pull-request-readiness-assessment"
        "evidence type" 100).isOk ∧
      (requiredMetadataIdentifier .plain "control-plane:readiness" "origin" 500).isOk := by
  refine ⟨?_, ?_, ?_, ?_, ?_, ?_, ?_, ?_⟩ <;> decide +kernel

theorem bound_tasks : bound.tasks = start.tasks := by
  have hchecked := capture_checked.1
  simp only [Bool.and_eq_true, GitHubExample.binds] at hchecked
  obtain ⟨⟨⟨⟨⟨⟨⟨-, hbind⟩, -⟩, -⟩, -⟩, -⟩, -⟩, -⟩ := hchecked
  have hbound : bindTransaction .plain GitHubExample.cfg start named =
      .ok (GitHubExample.resultOr (bindTransaction .plain GitHubExample.cfg start named)
        (named.eventId, [], start)) := GitHubExample.eq_ok_resultOr hbind
  obtain ⟨_, _, -, -, -, -, htasks, -⟩ := bindTransaction_ok hbound
  exact htasks

theorem fresh (evidenceId : UUID) : bound.evidenceRecords.get? evidenceId = none := by
  have hchecked := capture_checked.1
  simp only [Bool.and_eq_true] at hchecked
  obtain ⟨⟨⟨⟨⟨⟨-, hempty⟩, -⟩, -⟩, -⟩, -⟩, -⟩ := hchecked
  refine Table.get?_eq_none.mpr fun record hrecord => ?_
  rw [Table.mem_def, List.isEmpty_iff.mp hempty] at hrecord
  cases hrecord

theorem storedText_eq {text : String} (h : text = "token=x" ∨ Plain .ascii text) :
    redactedText .ascii text = storedText text := by
  unfold storedText
  split
  · rfl
  · rename_i hne
    exact h.resolve_left hne

/-- Redaction accepts the payload of the assessment. -/
theorem exists_prepared : ∃ prepared,
    redactEvidenceContent .plain (signedPayload .plain assessment named.eventId) .json =
      .ok prepared := by
  have hchecked := capture_checked.2.2.1
  rw [Bool.and_eq_true, Option.isSome_iff_exists] at hchecked
  obtain ⟨-, n, hn⟩ := hchecked
  have htexts : ∀ text ∈ assessment.texts,
      redactedText Runtime.plain.unicode text = storedText text := by
    intro text htext
    have hplain := List.all_eq_true.mp capture_checked.2.1 text htext
    rw [Bool.or_eq_true, decide_eq_true_eq, decide_eq_true_eq] at hplain
    exact storedText_eq hplain
  have hstrings : ∀ text ∈ strings (signedPayload .plain assessment named.eventId),
      redactedText Runtime.plain.unicode text = storedText text :=
    forall_strings_signedPayload (fun id => storedText_eq (.inr (plain_uuid id)))
      (fun j => storedText_eq (.inr (plain_fingerprint .plain j)))
      (fun code hcode => storedText_eq (.inr (plain_blockerCodes classify bound task code hcode)))
      htexts
  exact redactEvidenceContent_of_rewritten wellKeyed_signedPayload hn hstrings
    capture_checked.2.2.2.1

theorem exists_stored : ∃ evidenceId captured, stored = .ok (evidenceId, captured) := by
  have htask : bound.tasks.get? task.id = some task := by
    rw [bound_tasks]
    rfl
  have hchecked := capture_checked.2.2.1
  rw [Bool.and_eq_true, Option.any_eq_true] at hchecked
  obtain ⟨⟨trigger, htrigger, htaskId⟩, -⟩ := hchecked
  have hid : trigger.id = named.eventId := Table.key_of_get? htrigger
  obtain ⟨howner, hactor, htype, horigin⟩ := capture_checked.2.2.2.2
  obtain ⟨prepared, hprepared⟩ := exists_prepared
  have hcontent : (redactEvidenceContent .plain (signedPayload .plain assessment trigger.id)
      .json).isOk = true := by
    rw [hid, hprepared]
    rfl
  obtain ⟨captured, db, hcaptured⟩ : ∃ captured db, captureEvidence .plain bound
      (assessmentCapture .plain "control-plane" task trigger assessment
        (assessmentEvidenceId .plain task.id named.eventId assessment) (seconds 1)) =
      .ok (captured, db) :=
    (captureEvidence_isOk_iff rfl).mpr ⟨⟨howner, hactor, htype, horigin, hcontent⟩, fresh _⟩
  refine ⟨captured.record.id, db, ?_⟩
  rw [stored, captureAssessment]
  simp only [fresh, htask, htrigger, Except.orThrow, Except.ok_bind]
  rw [Except.require_of ⟨of_decide_eq_true htaskId, .inr rfl⟩, Except.ok_bind, hcaptured]
  rfl

theorem assessment_checked : assessment.ready = false ∧ "token=x" ∈ assessment.texts := by
  have hchecked := capture_checked.1
  simp only [Bool.and_eq_true, Bool.not_eq_true'] at hchecked
  obtain ⟨⟨-, hnamed⟩, hready⟩ := hchecked
  exact ⟨hready, List.contains_iff_mem.mp hnamed⟩

theorem not_plain_named : ¬ Plain .ascii "token=x" := by decide +kernel

/-- Nothing changes after the capture. -/
theorem unchanged {evidenceId : UUID} {captured : Database}
    (h : stored = .ok (evidenceId, captured)) :
    SameAssessment .plain classify captured task.id assessment evidenceId captured task := by
  have hchecked := capture_checked.1
  simp only [Bool.and_eq_true, Option.isNone_iff_eq_none, List.isEmpty_iff] at hchecked
  obtain ⟨⟨⟨⟨⟨⟨-, -⟩, hlive⟩, hdraft⟩, hcomments⟩, -⟩, -⟩ := hchecked
  obtain ⟨-, ⟨records, rfl⟩, -⟩ := captureAssessment_fresh h (fresh evidenceId)
  refine ⟨?_, rfl, ?_, assess_records hdraft hcomments⟩
  · show bound.tasks.get? task.id = some task
    rw [bound_tasks]
    rfl
  · simp only [deletionRequested, hlive, List.any_nil]

end StorageExample

open StorageExample in
/-- The task is not ready any more, and its readiness cannot be invalidated. -/
theorem not_survives_named :
    ∃ evidenceId captured, stored = .ok (evidenceId, captured) ∧
      SameAssessment .plain classify captured task.id assessment evidenceId captured task ∧
      assessment.ready = false ∧
      readinessTransitionGates .plain classify (some evidenceId) none captured task
        .invalidateReadiness policy (seconds 2) = .ok {} := by
  obtain ⟨evidenceId, captured, hstored⟩ := exists_stored
  have hunchanged := unchanged hstored
  have hcontent := contentOf_of_unchanged hstored (fresh evidenceId) hunchanged
  have hgate := gate_invalidateReadiness policy (seconds 2) hunchanged.assessed hcontent
  have hcodes : ∀ s ∈ assessment.blockerCodes, Plain Runtime.plain.unicode s :=
    plain_blockerCodes classify bound task
  rw [assessmentMatches_redacted, if_neg] at hgate
  · exact ⟨evidenceId, captured, hstored, hunchanged, assessment_checked.1, hgate⟩
  · rw [redacted_signedPayload_iff Runtime.plain _ hcodes]
    exact fun hplain => not_plain_named (hplain _ assessment_checked.2)

open StorageExample in
theorem survives_iff_named :
    ∃ evidenceId captured, stored = .ok (evidenceId, captured) ∧
      ¬ Survives .plain classify "control-plane" assessment named.eventId evidenceId captured task
        policy (seconds 2) := by
  obtain ⟨evidenceId, captured, hstored⟩ := exists_stored
  refine ⟨evidenceId, captured, hstored, fun hsurvives => ?_⟩
  have hplain := (survives_iff hstored (fresh evidenceId) (unchanged hstored)).mp hsurvives
  exact not_plain_named (hplain _ assessment_checked.2)

end ControlPlane
