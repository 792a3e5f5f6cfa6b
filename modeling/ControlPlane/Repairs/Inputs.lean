import ControlPlane.Jobs.LateResults
import ControlPlane.Repairs.Schedule

/-!
# The inputs of repairs

A job keeps its input as redaction leaves it, and redaction leaves identifiers, digests and
numbers alone.

## Main definitions

* `Untouched`: no rule applies to a text.
-/
namespace ControlPlane.RepairLoop

/-! ### Texts of an input -/

section Texts
variable {rt : Runtime} {value payload : Json} {field name text : String}

/-- The characters of the type and of the keys of repairs. -/
def keyAlphabet : List Char := "validation-repair:".toList ++ idAlphabet

theorem keyAlphabet_checked : ∀ c ∈ keyAlphabet, Unicode.isAscii c = true ∧
    Unicode.ascii.isSpace c = false ∧
    CharClass.holds .ascii (.union alnum (oneOf "._:/-")) c = true ∧
    c ≠ '/' ∧ c ≠ '.' := by
  have hall : (keyAlphabet.all fun c => Unicode.isAscii c && !Unicode.ascii.isSpace c &&
      CharClass.holds .ascii (.union alnum (oneOf "._:/-")) c && c != '/' && c != '.') = true := by
    decide +kernel
  intro c hc
  have hchecked := List.all_eq_true.mp hall c hc
  simp only [Bool.and_eq_true, Bool.not_eq_true', bne_iff_ne] at hchecked
  obtain ⟨⟨⟨⟨hascii, hspace⟩, hholds⟩, hslash⟩, hdot⟩ := hchecked
  exact ⟨hascii, hspace, hholds, hslash, hdot⟩

theorem jobType_subset : ∀ c ∈ validationRepairJobType.toList, c ∈ keyAlphabet := by
  have hall : validationRepairJobType.toList.all (keyAlphabet.contains ·) = true := by decide
  exact fun c hc => List.contains_iff_mem.mp (List.all_eq_true.mp hall c hc)

theorem toList_repairKey (runId : UUID) :
    (repairKey runId).toList = "validation-repair:".toList ++ runId.chars :=
  String.toList_append.trans (congrArg ("validation-repair:".toList ++ ·) String.toList_ofList)

theorem repairKey_subset (runId : UUID) : ∀ c ∈ (repairKey runId).toList, c ∈ keyAlphabet := by
  intro c hc
  rw [toList_repairKey, List.mem_append] at hc
  exact List.mem_append.mpr (hc.imp_right UUID.mem_chars)

/-- Nothing is stripped of a text without white space. -/
theorem strip_of_subset (h : ∀ c ∈ text.toList, c ∈ keyAlphabet) :
    rt.unicode.strip text.toList = text.toList := by
  have hspace : ∀ c ∈ text.toList, rt.unicode.isSpace c = false := by
    intro c hc
    obtain ⟨hascii, hspace, -⟩ := keyAlphabet_checked c (h c hc)
    simpa [Unicode.isSpace, hascii] using hspace
  exact Unicode.strip_eq_self _ (fun c hc => hspace c (List.mem_of_mem_head? hc))
    fun c hc => hspace c (List.mem_of_mem_getLast? hc)

theorem occursIn_eq_false {part text : List Char} {c : Char} (hpart : c ∈ part)
    (htext : c ∉ text) : occursIn part text = false := by
  refine List.any_eq_false.mpr fun rest hrest hprefix => htext ?_
  exact ((List.mem_tails _ _).mp hrest).subset
    ((List.isPrefixOf_iff_prefix.mp hprefix).subset hpart)

/-- The type and the keys of repairs are identifiers. -/
theorem requiredIdentifier_eq {maximum : ℕ} (h : ∀ c ∈ text.toList, c ∈ keyAlphabet)
    (hfirst : text.toList.head? = some 'v') (hlength : text.toList.length ≤ maximum) :
    requiredIdentifier rt text field maximum = .ok text := by
  obtain ⟨rest, hrest⟩ : ∃ rest, text.toList = 'v' :: rest := List.head?_eq_some_iff.mp hfirst
  have hslash : '/' ∉ text.toList := fun hmem => (keyAlphabet_checked _ (h _ hmem)).2.2.2.1 rfl
  have hdot : '.' ∉ text.toList := fun hmem => (keyAlphabet_checked _ (h _ hmem)).2.2.2.2 rfl
  have hholds : ∀ c ∈ text.toList, CharClass.holds rt.unicode
      (.union alnum (oneOf "._:/-")) c = true := by
    intro c hc
    obtain ⟨hascii, -, hholds, -⟩ := keyAlphabet_checked c (h c hc)
    rwa [CharClass.holds_eq_of_isAscii _ .ascii _ hascii]
  have hmatch : jobIdentifier.fullmatch (CharClass.holds rt.unicode) text.toList = true := by
    rw [hrest] at hholds ⊢
    refine Regex.Re.fullmatch_seq_char_many.mpr
      ⟨?_, fun c hc => hholds c (List.mem_cons_of_mem _ hc), fun n hn => absurd hn (by simp)⟩
    rw [CharClass.holds_eq_of_isAscii _ .ascii _ (by decide)]
    decide
  rw [requiredIdentifier, strip_of_subset h, if_pos, stripped, strip_of_subset h,
    String.ofList_toList]
  refine ⟨by simp [hrest], hlength, hmatch, occursIn_eq_false (c := '/') (by decide) hslash,
    occursIn_eq_false (c := '/') (by decide) hslash, occursIn_eq_false (c := '.') (by decide) hdot,
    ?_⟩
  rw [hrest]
  rfl

theorem requiredIdentifier_jobType : requiredIdentifier rt validationRepairJobType field
    maxJobIdentifierLength = .ok validationRepairJobType :=
  requiredIdentifier_eq jobType_subset (by decide) (by decide)

theorem requiredIdentifier_repairKey (runId : UUID) : requiredIdentifier rt (repairKey runId) field
    maxIdempotencyKeyLength = .ok (repairKey runId) := by
  refine requiredIdentifier_eq (repairKey_subset runId) ?_ ?_
  · rw [toList_repairKey]
    rfl
  · rw [toList_repairKey, List.length_append, UUID.length_chars]
    decide

/-- What a payload keeps of a text that redaction leaves alone. -/
theorem text_of_safePayload (h : safePayload rt value field = .ok payload)
    (hname : name.toList.all Unicode.isAscii = true)
    (hsensitive : sensitiveKey .ascii name = false) (hvalue : value.get name = .str text)
    (hplain : Plain rt.unicode text) : (payload.get name).str? = some text := by
  simp only [safePayload, redactEvidenceContent, sealContent, Except.bind_eq_ok,
    Except.relabel_eq_ok, Except.pure_eq_ok, Except.ite_error_eq_ok, Except.ok.injEq] at h
  obtain ⟨prepared, ⟨⟨v, t⟩, hredacted, -, rfl⟩, _, -, _, -, _, -, rfl⟩ := h
  rw [redactJsonValue_ok value hredacted, get_redacted ((sensitiveKey_eq hname).trans hsensitive),
    hvalue, redacted, hplain]
  rfl

end Texts

/-! ### Inputs that redaction leaves alone -/

section Untouched
open Regex

variable {rt : Runtime} {u : Unicode} {text : String}

/-- An expression replaces nothing, or a replacement shows. -/
theorem subnFrom_eq_or {κ : Type} (holds : κ → Char → Bool) (r : Re κ)
    (replace : Option (List Char) → List Char) (fuel : ℕ) (seen text : List Char) :
    r.subnFrom holds replace fuel seen text = (text, 0) ∨
      ∃ captured, replace captured ⊆ (r.subnFrom holds replace fuel seen text).1 := by
  induction fuel generalizing seen text with
  | zero => exact .inl rfl
  | succ fuel ih =>
    cases text with
    | nil => exact .inl rfl
    | cons x xs =>
      cases hmatch : r.matchAt holds ⟨seen, x :: xs, none⟩ with
      | none =>
        simp only [Re.subnFrom, hmatch]
        rcases ih (x :: seen) xs with h | ⟨captured, h⟩
        · rw [h]
          exact .inl rfl
        · exact .inr ⟨captured, List.Subset.trans h (List.subset_cons_self _ _)⟩
      | some c =>
        simp only [Re.subnFrom, hmatch]
        exact .inr ⟨c.captured, List.subset_append_left _ _⟩

/-- A rule that leaves no mark did not apply. -/
theorem applyRule_eq_self {rule : RedactionRule} (h : rule ∈ redactionRules)
    {state : List Char × Manifest} (hmark : '[' ∉ (applyRule u state rule).1) :
    applyRule u state rule = state := by
  rcases subnFrom_eq_or (CharClass.holds u) rule.pattern rule.replacement
    state.1.length [] state.1 with hsame | ⟨captured, hreplaced⟩
  · rw [applyRule, Re.subn, hsame]
    rfl
  · exact absurd (hreplaced (bracket_mem_replacement h captured)) hmark

theorem foldl_applyRule_eq_self {rules : List RedactionRule} (h : rules ⊆ redactionRules)
    {state : List Char × Manifest} (hmark : '[' ∉ (rules.foldl (applyRule u) state).1) :
    rules.foldl (applyRule u) state = state := by
  induction rules generalizing state with
  | nil => rfl
  | cons rule rules ih =>
    have htail : rules ⊆ redactionRules := List.Subset.trans (List.subset_cons_self rule rules) h
    rw [List.foldl_cons] at hmark ⊢
    have hrest := ih htail hmark
    rw [hrest] at hmark ⊢
    exact applyRule_eq_self (h List.mem_cons_self) hmark

/-- No rule applies to a text. -/
def Untouched (u : Unicode) (text : String) : Prop :=
  ∀ counts, redactText u text counts = (text, counts)

/-- No rule applies to a text without marks that redaction leaves alone. -/
theorem Untouched.of_plain (hplain : Plain u text) (hmark : '[' ∉ text.toList)
    (hlines : '\r' ∉ text.toList) : Untouched u text := by
  intro counts
  have htext : (redactText u text counts).1 = text := (redactText_fst text counts).trans hplain
  simp only [redactText, normalizeNewlines_eq_self hlines] at htext ⊢
  have hchars := congrArg String.toList htext
  rw [String.toList_ofList] at hchars
  rw [foldl_applyRule_eq_self (List.Subset.refl _) fun hmem => hmark (hchars ▸ hmem),
    String.ofList_toList]

theorem idAlphabet_marks : ∀ c ∈ idAlphabet, c ≠ '[' ∧ c ≠ '\r' := by
  have hall : (idAlphabet.all fun c => c != '[' && c != '\r') = true := by decide +kernel
  intro c hc
  have hchecked := List.all_eq_true.mp hall c hc
  simpa using hchecked

theorem Untouched.of_idAlphabet (hplain : Plain u text) (h : ∀ c ∈ text.toList, c ∈ idAlphabet) :
    Untouched u text :=
  .of_plain hplain (fun hmem => (idAlphabet_marks _ (h _ hmem)).1 rfl)
    fun hmem => (idAlphabet_marks _ (h _ hmem)).2 rfl

theorem untouched_uuid (id : UUID) : Untouched u id.str := by
  refine .of_idAlphabet (plain_uuid id) fun c hc => ?_
  rw [UUID.str, String.toList_ofList] at hc
  exact UUID.mem_chars hc

theorem untouched_hex (h : ∀ c ∈ text.toList, c ∈ UUID.hexAlphabet) : Untouched u text := by
  refine .of_idAlphabet (plain_of_blocked (fun x hx => ?_) hexPatterns_checked h) fun c hc => ?_
  · exact idAlphabet_checked x (List.mem_cons_of_mem _ hx)
  · exact List.mem_cons_of_mem _ (h c hc)

theorem untouched_inert (h : inertText text = true) (hmark : '[' ∉ text.toList) :
    Untouched u text := by
  refine .of_plain (plain_of_inertText h) hmark fun hmem => ?_
  rw [inertText, Bool.and_eq_true, List.all_eq_true] at h
  simpa using h.1 _ hmem

mutual

/-- A value within the limits, to whose texts no rule applies, is kept and counts nothing. -/
theorem redactJsonValue_untouched {depth : ℕ} : ∀ {j : Json} {t : Tally} {n : ℕ},
    WellKeyed u j → (∀ s ∈ strings j, Untouched u s) → counted depth j t.nodes = some n →
      redactJsonValue u depth j t = .ok (j, ⟨n, t.counts⟩)
  | .null, t, _, _, _, h | .bool _, t, _, _, _, h | .int _, t, _, _, _, h
  | .float _, t, _, _, _, h => by
    simp only [counted] at h
    rw [redactJsonValue, enter_of_entered h]
    rfl
  | .str s, t, _, _, hs, h => by
    simp only [counted] at h
    have htext := hs s List.mem_cons_self t.counts
    simp only [redactJsonValue, enter_of_entered h, Except.ok_bind, htext]
    rfl
  | .arr items, t, n, hkeyed, hs, h => by
    simp only [counted, Option.bind_eq_some_iff] at h
    obtain ⟨m, hm, h⟩ := h
    simp only [WellKeyed] at hkeyed
    have hitems := redactItems_untouched (t := ⟨m, t.counts⟩) hkeyed hs h
    simp only [redactJsonValue, enter_of_entered hm, Except.ok_bind, hitems]
    rfl
  | .obj fields, t, n, hkeyed, hs, h => by
    simp only [counted, Option.bind_eq_some_iff] at h
    obtain ⟨m, hm, h⟩ := h
    simp only [WellKeyed] at hkeyed
    have hfields := redactFields_untouched (t := ⟨m, t.counts⟩) hkeyed.1
      (fun _ _ => List.not_mem_nil) hkeyed.2 hs h
    simp only [redactJsonValue, enter_of_entered hm, Except.ok_bind, hfields]
    rfl

theorem redactItems_untouched {depth : ℕ} : ∀ {items : List Json} {t : Tally} {n : ℕ},
    WellKeyedItems u items → (∀ s ∈ stringsOfItems items, Untouched u s) →
      countedItems depth items t.nodes = some n →
        redactItems u depth items t = .ok (items, ⟨n, t.counts⟩)
  | [], t, n, _, _, h => by
    rw [countedItems, Option.some.injEq] at h
    rw [redactItems, ← h]
  | item :: rest, t, n, hkeyed, hs, h => by
    rw [countedItems, Option.bind_eq_some_iff] at h
    obtain ⟨m, hm, h⟩ := h
    rw [WellKeyedItems] at hkeyed
    rw [stringsOfItems, List.forall_mem_append] at hs
    have hitem := redactJsonValue_untouched hkeyed.1 hs.1 hm
    have hrest := redactItems_untouched (t := ⟨m, t.counts⟩) hkeyed.2 hs.2 h
    simp only [redactItems, hitem, Except.ok_bind, hrest]
    rfl

theorem redactFields_untouched {depth : ℕ} : ∀ {fields : List (String × Json)}
    {taken : List String} {t : Tally} {n : ℕ}, (fields.map Prod.fst).Nodup →
      (∀ key ∈ fields.map Prod.fst, key ∉ taken) → WellKeyedFields u fields →
        (∀ s ∈ stringsOfFields fields, Untouched u s) →
          countedFields depth fields t.nodes = some n →
            redactFields u depth taken fields t = .ok (fields, ⟨n, t.counts⟩)
  | [], taken, t, n, _, _, _, _, h => by
    rw [countedFields, Option.some.injEq] at h
    rw [redactFields, ← h]
  | (key, child) :: rest, taken, t, n, hnodup, hfresh, hkeyed, hs, h => by
    rw [countedFields, Option.bind_eq_some_iff] at h
    obtain ⟨m, hm, h⟩ := h
    rw [WellKeyedFields] at hkeyed
    rw [stringsOfFields, List.forall_mem_append] at hs
    rw [List.map_cons, List.nodup_cons] at hnodup
    have hkey : taken.contains key = false := by
      simpa using hfresh key (by simp)
    have hlater : ∀ k ∈ rest.map Prod.fst, k ∉ key :: taken := by
      intro k hk hmem
      obtain rfl | hmem := List.mem_cons.mp hmem
      · exact hnodup.1 hk
      · exact hfresh k (List.mem_cons_of_mem _ hk) hmem
    have hchild := redactJsonValue_untouched hkeyed.2.1 hs.1 hm
    have hrest := redactFields_untouched (t := ⟨m, t.counts⟩) hnodup.2 hlater hkeyed.2.2 hs.2 h
    rw [redactFields, hkey, hkeyed.1]
    simp only [Bool.false_eq_true, if_false, pure_bind, hchild, Except.ok_bind, hrest]
    rfl

end

/-- A character takes four bytes at most. -/
theorem utf8ByteSize_dumps_le (value : Json) :
    (rt.dumps value).utf8ByteSize ≤ 4 * encodedLength rt value := by
  have hchars : ∀ cs : List Char, (cs.flatMap String.utf8EncodeChar).length ≤ 4 * cs.length := by
    intro cs
    induction cs with
    | nil => exact le_rfl
    | cons c cs ih =>
      have hc := c.utf8Size_le_four
      rw [List.flatMap_cons, List.length_append, List.length_cons, String.length_utf8EncodeChar]
      omega
  rw [Runtime.dumps, utf8ByteSize_ofList]
  exact hchars _

/-- A payload within the limits, to whose texts no rule applies, is kept as it is. -/
theorem safePayload_untouched {fields : List (String × Json)} {field : String} {n : ℕ}
    (hkeyed : WellKeyed rt.unicode (.obj fields))
    (hs : ∀ s ∈ strings (.obj fields), Untouched rt.unicode s)
    (hcounted : counted 0 (.obj fields) 0 = some n)
    (hbytes : (rt.dumps (.obj fields)).utf8ByteSize ≤ maxEvidenceBytes)
    (hlength : encodedLength rt (.obj fields) ≤ 1024 * 1024) :
    safePayload rt (.obj fields) field = .ok (.obj fields) := by
  have hredacted := redactJsonValue_untouched (t := {}) hkeyed hs hcounted
  simp only [safePayload, redactEvidenceContent, hredacted, Except.ok_bind, sealContent,
    if_neg (Nat.not_lt.mpr hbytes), Except.relabel, List.insertionSort, Except.require, Json.obj?,
    Option.isSome_some, if_pos, hlength]
  rfl

/-! ### The input of a repair -/

theorem mem_hexAlphabet_of_isLowerHex {x : Char} (h : Validation.isLowerHex x = true) :
    x ∈ UUID.hexAlphabet := by
  have hall : ∀ n < 103, (48 ≤ n ∧ n ≤ 57) ∨ (97 ≤ n ∧ n ≤ 102) →
      Char.ofNat n ∈ UUID.hexAlphabet := by decide
  simp only [Validation.isLowerHex, Unicode.asciiDigit, Bool.or_eq_true, Bool.and_eq_true,
    decide_eq_true_eq, Char.le_def, UInt32.le_iff_toNat_le] at h
  have hn : x.toNat = x.val.toNat := rfl
  have h0 : ('0' : Char).val.toNat = 48 := rfl
  have h9 : ('9' : Char).val.toNat = 57 := rfl
  have ha : ('a' : Char).val.toNat = 97 := rfl
  have hf : ('f' : Char).val.toNat = 102 := rfl
  rw [← Char.ofNat_toNat x]
  exact hall x.toNat (by omega) (by omega)

theorem untouched_gitObject (h : Validation.isGitObject text.toList = true) :
    Untouched u text := by
  rw [Validation.isGitObject, Bool.and_eq_true, List.all_eq_true] at h
  exact untouched_hex fun c hc => mem_hexAlphabet_of_isLowerHex (h.2 c hc)

def inputKeys : List String :=
  ["schema_version", "validation_run_id", "task_id", "failure_fingerprint", "failed_commit_sha",
    "failed_tree_sha", "validation_contract_id", "validation_contract_version",
    "repository_configuration_id", "repository_configuration_version", "decision_evidence_id",
    "manifest_evidence_id", "prompt", "retry_approval_decision_id"]

def promptKeys : List String :=
  ["task_id", "role", "template_id", "template_version", "policy_version_id", "evaluation_label",
    "content", "evidence_ids"]

theorem keys_checked : ∀ key ∈ inputKeys ++ promptKeys,
    key.toList.all Unicode.isAscii = true ∧ sensitiveKey .ascii key = false := by
  decide +kernel

theorem sensitiveKey_keys {key : String} (h : key ∈ inputKeys ++ promptKeys) :
    sensitiveKey u key = false := by
  obtain ⟨hascii, hkey⟩ := keys_checked key h
  rw [sensitiveKey_eq hascii, hkey]

theorem wellKeyed_ids (ids : List UUID) :
    WellKeyedItems u (ids.map fun id => .str id.str) := by
  induction ids with
  | nil => trivial
  | cons id rest ih => exact ⟨trivial, ih⟩

theorem strings_ids (ids : List UUID) :
    ∀ s ∈ stringsOfItems (ids.map fun id => .str id.str), Untouched u s := by
  induction ids with
  | nil => exact fun s hs => absurd hs List.not_mem_nil
  | cons id rest ih => exact List.forall_mem_cons.mpr ⟨untouched_uuid id, ih⟩

theorem wellKeyed_payload (input : RepairJobInput) : WellKeyed u input.payload := by
  have hkey : ∀ key ∈ inputKeys ++ promptKeys, sensitiveKey u key = false :=
    fun key h => sensitiveKey_keys h
  simp only [inputKeys, promptKeys, List.cons_append, List.nil_append, List.forall_mem_cons,
    List.not_mem_nil, false_implies, implies_true, and_true] at hkey
  have hlabel : WellKeyed u (optionalLabel input.prompt.evaluationLabel) := by
    cases input.prompt.evaluationLabel <;> trivial
  have hprompt : promptKeys.Nodup := by decide
  rw [RepairJobInput.payload, WellKeyed]
  refine ⟨(by decide : inputKeys.Nodup), ?_⟩
  simp only [WellKeyedFields, WellKeyed, promptJson, hkey, wellKeyed_optionalId, wellKeyed_ids,
    hlabel, and_true, true_and]
  exact hprompt

theorem countedItems_ids (ids : List UUID) {depth n : ℕ} (hdepth : depth ≤ maxEvidenceDepth)
    (h : n + ids.length ≤ maxEvidenceNodes) :
    countedItems depth (ids.map fun id => .str id.str) n = some (n + ids.length) := by
  induction ids generalizing n with
  | nil => rfl
  | cons id rest ih =>
    rw [List.length_cons] at h ⊢
    have hentered : counted depth (.str id.str) n = some (n + 1) := if_neg (by omega)
    rw [List.map_cons, countedItems, hentered, Option.bind_some, ih (by omega), Nat.add_assoc,
      Nat.add_comm 1]

/-- The prompt is within the limits with its identifiers. -/
theorem counted_payload (input : RepairJobInput)
    (h : 22 + input.prompt.evidenceIds.length < maxEvidenceNodes) :
    ∃ n, counted 0 input.payload 0 = some n := by
  have hids := countedItems_ids input.prompt.evidenceIds (by decide : 3 ≤ maxEvidenceDepth) h.le
  have hpayload : counted 0 input.payload 0 =
      ((countedItems 3 (input.prompt.evidenceIds.map fun id => .str id.str) 22).bind
        (countedFields 2 [])).bind (countedFields 1
          [("retry_approval_decision_id", optionalId input.retryApprovalDecisionId)]) := by
    rw [RepairJobInput.payload, promptJson]
    cases input.prompt.evaluationLabel <;> rfl
  have hentered : entered 1 (22 + input.prompt.evidenceIds.length) =
      some (22 + input.prompt.evidenceIds.length + 1) := by
    have hdepth : ¬ maxEvidenceDepth < 1 := by decide
    exact if_neg (by omega)
  have hretry : counted 1 (optionalId input.retryApprovalDecisionId)
      (22 + input.prompt.evidenceIds.length) =
        entered 1 (22 + input.prompt.evidenceIds.length) := by
    cases input.retryApprovalDecisionId <;> rfl
  rw [hpayload, hids, Option.bind_some, countedFields, Option.bind_some, countedFields, hretry,
    hentered]
  exact ⟨_, rfl⟩

theorem untouched_role (role : PromptRole) : Untouched u role.value := by
  cases role
  all_goals exact untouched_inert (by decide +kernel) (by decide)

/-- No rule applies to the texts of a valid input, when none applies to its prompt. -/
theorem untouched_payload {input : RepairJobInput} (hvalid : input.Valid)
    (hcontent : Untouched u input.prompt.content)
    (hlabel : ∀ label ∈ input.prompt.evaluationLabel, Untouched u label) :
    ∀ s ∈ strings input.payload, Untouched u s := by
  obtain ⟨⟨-, hfingerprint⟩, hcommit, htree, -⟩ := hvalid
  rw [List.all_eq_true] at hfingerprint
  have hretry : ∀ s ∈ strings (optionalId input.retryApprovalDecisionId), Untouched u s := by
    cases input.retryApprovalDecisionId with
    | none => exact fun s hs => absurd hs List.not_mem_nil
    | some id => exact List.forall_mem_singleton.mpr (untouched_uuid id)
  have hlabels : ∀ s ∈ strings (optionalLabel input.prompt.evaluationLabel), Untouched u s := by
    cases hsome : input.prompt.evaluationLabel with
    | none => exact fun s hs => absurd hs List.not_mem_nil
    | some label => exact List.forall_mem_singleton.mpr (hlabel label hsome)
  have hfailure : Untouched u input.failureFingerprint :=
    untouched_hex fun c hc => mem_hexAlphabet_of_isLowerHex (hfingerprint c hc)
  simp only [RepairJobInput.payload, promptJson, strings, stringsOfFields, List.cons_append,
    List.nil_append, List.append_nil, List.forall_mem_append, List.forall_mem_cons, untouched_uuid,
    untouched_gitObject hcommit, untouched_gitObject htree, hfailure, untouched_role, hcontent,
    true_and]
  exact ⟨⟨hlabels, strings_ids _⟩, hretry⟩

end Untouched

end ControlPlane.RepairLoop
