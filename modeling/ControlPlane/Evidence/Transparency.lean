import ControlPlane.Evidence.Ledger

/-!
# What redaction does to a value

Without its limits and its counts the policy is a function on values: every text is
rewritten on its own, the value of a sensitive key is dropped, and everything else stays.

## Main definitions

* `redactedText`, `redacted`
* `Plain`: a text that the policy leaves as it is.
-/
namespace ControlPlane

open Regex Regex.Re

section Redacted
variable (u : Unicode)

/-- The text that is stored in place of another. -/
def redactedText (s : String) : String := (redactText u s []).1

def Plain (s : String) : Prop := redactedText u s = s

instance (s : String) : Decidable (Plain u s) := inferInstanceAs (Decidable (_ = _))

mutual

/-- The value that is stored in place of another. -/
def redacted : Json → Json
  | .str s => .str (redactedText u s)
  | .arr items => .arr (redactedItems items)
  | .obj fields => .obj (redactedFields fields)
  | other => other

def redactedItems : List Json → List Json
  | [] => []
  | child :: rest => redacted child :: redactedItems rest

def redactedFields : List (String × Json) → List (String × Json)
  | [] => []
  | (key, child) :: rest =>
    (key, if sensitiveKey u key then .str "[REDACTED:SENSITIVE_FIELD]" else redacted child) ::
      redactedFields rest

end

variable {u}

theorem applyRule_fst (rule : RedactionRule) (cs : List Char) (counts : Manifest) :
    (applyRule u (cs, counts) rule).1 = (applyRule u (cs, []) rule).1 := rfl

/-- The counts do not influence the text. -/
theorem foldl_applyRule_fst (rules : List RedactionRule) (cs : List Char) (counts : Manifest) :
    (rules.foldl (applyRule u) (cs, counts)).1 = (rules.foldl (applyRule u) (cs, [])).1 := by
  induction rules generalizing cs counts with
  | nil => rfl
  | cons rule rules ih =>
    simp only [List.foldl_cons]
    rw [← Prod.mk.eta (p := applyRule u (cs, counts) rule), ih, applyRule_fst,
      ← Prod.mk.eta (p := applyRule u (cs, []) rule), ih _ (applyRule u (cs, []) rule).2]

theorem redactText_fst (s : String) (counts : Manifest) :
    (redactText u s counts).1 = redactedText u s := by
  simp only [redactedText, redactText]
  exact congrArg String.ofList (foldl_applyRule_fst _ _ _)

mutual

/-- A redaction that succeeds gives the redacted value. -/
theorem redactJsonValue_ok {depth : ℕ} : ∀ (j : Json) {t t' : Tally} {j' : Json},
    redactJsonValue u depth j t = .ok (j', t') → j' = redacted u j
  | .null, _, _, _, h | .bool _, _, _, _, h | .int _, _, _, _, h | .float _, _, _, _, h => by
    simp only [redactJsonValue, Except.bind_eq_ok, Except.pure_eq_ok, Prod.ext_iff] at h
    obtain ⟨_, -, rfl, -⟩ := h
    rfl
  | .str s, _, _, _, h => by
    simp only [redactJsonValue, Except.bind_eq_ok, Except.pure_eq_ok, Prod.ext_iff] at h
    obtain ⟨_, -, rfl, -⟩ := h
    rw [redacted, redactText_fst]
  | .arr items, _, _, _, h => by
    simp only [redactJsonValue, Except.bind_eq_ok, Except.pure_eq_ok, Prod.ext_iff] at h
    obtain ⟨_, -, ⟨items', _⟩, hitems, rfl, -⟩ := h
    rw [redacted, redactItems_ok items hitems]
  | .obj fields, _, _, _, h => by
    simp only [redactJsonValue, Except.bind_eq_ok, Except.pure_eq_ok, Prod.ext_iff] at h
    obtain ⟨_, -, ⟨fields', _⟩, hfields, rfl, -⟩ := h
    rw [redacted, redactFields_ok fields hfields]

theorem redactItems_ok {depth : ℕ} : ∀ (items : List Json) {t t' : Tally} {items' : List Json},
    redactItems u depth items t = .ok (items', t') → items' = redactedItems u items
  | [], _, _, _, h => by
    simp only [redactItems, Except.ok.injEq, Prod.ext_iff] at h
    exact h.1.symm
  | child :: rest, _, _, _, h => by
    simp only [redactItems, Except.bind_eq_ok, Except.pure_eq_ok, Prod.ext_iff] at h
    obtain ⟨⟨child', _⟩, hchild, ⟨rest', _⟩, hrest, rfl, -⟩ := h
    rw [redactedItems, redactJsonValue_ok child hchild, redactItems_ok rest hrest]

theorem redactFields_ok {depth : ℕ} : ∀ (fields : List (String × Json)) {taken : List String}
    {t t' : Tally} {fields' : List (String × Json)},
    redactFields u depth taken fields t = .ok (fields', t') → fields' = redactedFields u fields
  | [], _, _, _, _, h => by
    simp only [redactFields, Except.ok.injEq, Prod.ext_iff] at h
    exact h.1.symm
  | (key, child) :: rest, taken, _, _, _, h => by
    simp only [redactFields] at h
    by_cases htaken : taken.contains key = true
    · rw [if_pos htaken] at h
      cases h
    · rw [if_neg htaken] at h
      by_cases hkey : sensitiveKey u key = true
      · simp only [hkey, if_true, Except.bind_eq_ok, Except.pure_eq_ok, Prod.ext_iff] at h
        obtain ⟨⟨child', _⟩, hchild, ⟨rest', _⟩, hrest, rfl, -⟩ := h
        obtain rfl : Json.str "[REDACTED:SENSITIVE_FIELD]" = child' := hchild.1
        simp only [redactedFields, hkey, if_true]
        rw [redactFields_ok rest hrest]
      · simp only [hkey, if_false, Bool.false_eq_true, Except.bind_eq_ok,
          Except.pure_eq_ok, Prod.ext_iff] at h
        obtain ⟨⟨child', _⟩, hchild, ⟨rest', _⟩, hrest, rfl, -⟩ := h
        simp only [redactedFields, hkey, if_false, Bool.false_eq_true]
        rw [redactJsonValue_ok child hchild, redactFields_ok rest hrest]

end

/-! ### Texts that are left alone -/

theorem bracket_mem_replacement {rule : RedactionRule} (h : rule ∈ redactionRules)
    (captured : Option (List Char)) : '[' ∈ rule.replacement captured := by
  simp only [redactionRules, List.mem_cons, List.not_mem_nil, or_false] at h
  rcases h with rfl | rfl | rfl | rfl | rfl | rfl | rfl | rfl | rfl | rfl | rfl <;>
    simp [RedactionRule.constant, RedactionRule.keeping]

/-- A rule leaves a text alone, or leaves its mark. -/
theorem applyRule_cases {rule : RedactionRule} (h : rule ∈ redactionRules) (cs : List Char)
    (counts : Manifest) :
    (applyRule u (cs, counts) rule).1 = cs ∨ '[' ∈ (applyRule u (cs, counts) rule).1 := by
  have hcases : (applyRule u (cs, counts) rule).1 = cs ∨
      ∃ captured, rule.replacement captured ⊆ (applyRule u (cs, counts) rule).1 :=
    Re.subnFrom_cases _ _ _ _ _
  rcases hcases with hsame | ⟨captured, hmark⟩
  · exact .inl hsame
  · exact .inr (hmark (bracket_mem_replacement h captured))

theorem foldl_applyRule_cases {rules : List RedactionRule} (h : rules ⊆ redactionRules)
    (state : List Char × Manifest) :
    (rules.foldl (applyRule u) state).1 = state.1 ∨ '[' ∈ (rules.foldl (applyRule u) state).1 := by
  induction rules generalizing state with
  | nil => exact .inl rfl
  | cons rule rules ih =>
    have htail : rules ⊆ redactionRules := List.Subset.trans (List.subset_cons_self rule rules) h
    rcases ih htail (applyRule u state rule) with hsame | hmark
    · rw [List.foldl_cons, hsame]
      exact applyRule_cases (h List.mem_cons_self) state.1 state.2
    · exact .inr hmark

theorem normalizeNewlines_cases (cs : List Char) :
    normalizeNewlines cs = cs ∨ '\n' ∈ normalizeNewlines cs := by
  fun_induction normalizeNewlines cs with
  | case1 cs ih => exact .inr List.mem_cons_self
  | case2 cs _ ih => exact .inr List.mem_cons_self
  | case3 c cs _ _ ih =>
    rcases ih with hsame | hmark
    · exact .inl (by rw [hsame])
    · exact .inr (List.mem_cons_of_mem c hmark)
  | case4 => exact .inl rfl

/-- A text that is changed shows the mark of a rule or a line end. -/
theorem redactedText_cases (s : String) :
    Plain u s ∨ '[' ∈ (redactedText u s).toList ∨ '\n' ∈ (redactedText u s).toList := by
  simp only [Plain, redactedText, redactText, String.toList_ofList]
  rcases foldl_applyRule_cases (u := u) (List.Subset.refl redactionRules)
    (normalizeNewlines s.toList, []) with hsame | hmark
  · rcases normalizeNewlines_cases s.toList with hlines | hline
    · exact .inl (by rw [hsame, hlines, String.ofList_toList])
    · exact .inr (.inr (by rw [hsame]; exact hline))
  · exact .inr (.inl hmark)

/-- A text of ASCII characters on which every pattern is inert. -/
def inertText (s : String) : Bool :=
  s.toList.all (fun c => Unicode.isAscii c && c != '\r') &&
  redactionRules.all fun rule => rule.pattern.inert (CharClass.holds .ascii) (s.toList.map ([·]))

theorem normalizeNewlines_eq_self {cs : List Char} (h : '\r' ∉ cs) : normalizeNewlines cs = cs := by
  fun_induction normalizeNewlines cs with
  | case1 cs ih => exact absurd List.mem_cons_self h
  | case2 cs _ ih => exact absurd List.mem_cons_self h
  | case3 c cs _ _ ih => rw [ih fun hmem => h (List.mem_cons_of_mem c hmem)]
  | case4 => rfl

/-- A text without carriage returns that no rule rewrites is left alone. -/
theorem plain_of_subn {s : String} (hchars : '\r' ∉ s.toList)
    (h : ∀ rule ∈ redactionRules,
      rule.pattern.subn (CharClass.holds u) rule.replacement s.toList = (s.toList, 0)) :
    Plain u s := by
  have hrules : ∀ rules ⊆ redactionRules,
      (rules.foldl (applyRule u) (s.toList, [])).1 = s.toList := by
    intro rules hrules
    induction rules with
    | nil => rfl
    | cons rule rules ih =>
      rw [List.foldl_cons, applyRule, h rule (hrules List.mem_cons_self)]
      exact ih (List.Subset.trans (List.subset_cons_self rule rules) hrules)
  simp only [Plain, redactedText, redactText, normalizeNewlines_eq_self hchars,
    hrules _ (List.Subset.refl _), String.ofList_toList]

/-- Such a text is left alone, whatever the tables. -/
theorem plain_of_inertText {s : String} (h : inertText s = true) : Plain u s := by
  simp only [inertText, Bool.and_eq_true, List.all_eq_true, bne_iff_ne] at h
  obtain ⟨hchars, hinert⟩ := h
  have hagree : ∀ k, ∀ alphabet ∈ s.toList.map ([·]), ∀ x ∈ alphabet,
      CharClass.holds u k x = CharClass.holds .ascii k x := by
    intro k alphabet halphabet x hx
    obtain ⟨c, hc, rfl⟩ := List.mem_map.mp halphabet
    rw [List.mem_singleton.mp hx]
    exact k.holds_eq_of_isAscii u .ascii (hchars c hc).1
  exact plain_of_subn (fun hmem => (hchars _ hmem).2 rfl) fun rule hrule =>
    Re.subn_of_inert rule.replacement hagree (Fits.singletons s.toList) (hinert rule hrule)

/-! ### Reading a redacted value -/

theorem lookup_redactedFields {key : String} (hkey : sensitiveKey u key = false)
    (fields : List (String × Json)) :
    (redactedFields u fields).lookup key = (fields.lookup key).map (redacted u) := by
  induction fields with
  | nil => rfl
  | cons field rest ih =>
    obtain ⟨name, child⟩ := field
    by_cases hname : key == name
    · have heq : key = name := eq_of_beq hname
      subst heq
      simp [redactedFields, hkey]
    · simp [redactedFields, List.lookup_cons, hname, ih]

/-- The value of a key that is not sensitive is redacted on its own. -/
theorem get_redacted {key : String} (hkey : sensitiveKey u key = false) (j : Json) :
    (redacted u j).get key = redacted u (j.get key) := by
  cases j with
  | obj fields =>
    simp only [redacted, Json.get, Json.get?, Json.obj?, Option.bind_some,
      lookup_redactedFields hkey]
    cases fields.lookup key with
    | none => simp only [Option.map_none, Option.getD_none, redacted]
    | some value => simp only [Option.map_some, Option.getD_some]
  | null | bool | int | float | str | arr =>
    simp only [redacted, Json.get, Json.get?, Json.obj?, Option.bind_none, Option.getD_none]

/-- The tables do not matter for a key of ASCII characters. -/
theorem sensitiveKey_eq {key : String} (h : key.toList.all Unicode.isAscii = true) :
    sensitiveKey u key = sensitiveKey .ascii key := by
  have hascii : ∀ c ∈ key.toList, Unicode.isAscii c = true := List.all_eq_true.mp h
  have hfilter : key.toList.filter u.isAlnum = key.toList.filter Unicode.ascii.isAlnum :=
    List.filter_congr fun c hc => by simp [Unicode.isAlnum, hascii c hc]
  have hlower : (key.toList.filter Unicode.ascii.isAlnum).flatMap u.lowerChar =
      (key.toList.filter Unicode.ascii.isAlnum).flatMap Unicode.ascii.lowerChar := by
    refine List.flatMap_congr fun c hc => ?_
    simp [Unicode.lowerChar, hascii c (List.mem_of_mem_filter hc)]
  simp only [sensitiveKey, hfilter, hlower]

/-- A loaded record holds the envelope its artifact names. -/
theorem loadEvidence_ok {rt : Runtime} {db : Database} {record : EvidenceRecord}
    {loaded : LoadedEvidence} (h : loadEvidence rt db record = .ok loaded) :
    ∃ envelope, record.artifact = some envelope ∧ loaded.content = envelope.content := by
  simp only [loadEvidence, Except.bind_eq_ok, Except.orThrow_eq_ok, Except.pure_eq_ok] at h
  obtain ⟨-, -, envelope, hartifact, -, -, text, -, -, -, rfl⟩ := h
  exact ⟨envelope, hartifact, rfl⟩

/-- A live record of a JSON envelope loads its content. -/
theorem loadEvidence_record {rt : Runtime} {later : Database} (e : EvidenceEnvelope)
    (hmedia : e.mediaType = .json) (hhash : e.contentHash = digest rt (rt.dumps e.content))
    (hlive : deletionRequested later e.evidenceId = false) :
    ∃ loaded, loadEvidence rt later (e.record rt) = .ok loaded ∧ loaded.content = e.content := by
  have hcanonical : canonicalContent rt e.mediaType e.content = .ok (rt.dumps e.content) := by
    rw [hmedia]
    rfl
  simp only [loadEvidence, Except.bind_eq_ok, Except.require_eq_ok, Except.orThrow_eq_ok,
    Except.pure_eq_ok]
  exact ⟨_, ⟨(), ⟨rfl, hlive⟩, e, rfl, (), describes_record rt e, _, hcanonical, (), hhash, rfl⟩,
    rfl⟩

/-- The metadata and the content of a capture are well formed. -/
structure EvidenceCapture.Accepted (rt : Runtime) (c : EvidenceCapture) : Prop where
  owner : (requiredMetadataIdentifier rt c.ownerId "owner id" 255).isOk = true
  actor : (requiredMetadataIdentifier rt c.actorId "actor id" 255).isOk = true
  evidenceType : (requiredMetadataIdentifier rt c.evidenceType "evidence type" 100).isOk = true
  origin : (requiredMetadataIdentifier rt c.origin "origin" 500).isOk = true
  content : (redactEvidenceContent rt c.payload c.mediaType).isOk = true

/-- A capture that corrects nothing goes through when it is accepted and its identifier is not
taken. -/
theorem captureEvidence_isOk_iff {rt : Runtime} {db : Database} {c : EvidenceCapture}
    (hc : c.correctionOfId = none) :
    (∃ captured db', captureEvidence rt db c = .ok (captured, db')) ↔
      c.Accepted rt ∧ db.evidenceRecords.get? c.evidenceId = none := by
  constructor
  · rintro ⟨captured, db', h⟩
    simp only [captureEvidence, hc, projectCorrection, Except.bind_eq_ok, Except.orThrow_eq_ok,
      Except.pure_eq_ok, Except.ok.injEq, Prod.mk.injEq] at h
    obtain ⟨_, howner, _, hactor, _, htype, _, horigin, _, hprepared, records, hinsert, -⟩ := h
    refine ⟨⟨?_, ?_, ?_, ?_, ?_⟩, (Table.insert?_eq_some.mp hinsert).1⟩
    · rw [howner]; rfl
    · rw [hactor]; rfl
    · rw [htype]; rfl
    · rw [horigin]; rfl
    · rw [hprepared]; rfl
  · rintro ⟨⟨howner, hactor, htype, horigin, hcontent⟩, hfresh⟩
    obtain ⟨owner, howner⟩ := Except.exists_of_isOk howner
    obtain ⟨actor, hactor⟩ := Except.exists_of_isOk hactor
    obtain ⟨type, htype⟩ := Except.exists_of_isOk htype
    obtain ⟨origin, horigin⟩ := Except.exists_of_isOk horigin
    obtain ⟨prepared, hprepared⟩ := Except.exists_of_isOk hcontent
    obtain ⟨records, hrecords⟩ : ∃ records,
        db.evidenceRecords.insert? ((c.envelope owner actor type origin prepared).record rt) =
          some records := Table.exists_insert? hfresh
    simp only [captureEvidence, howner, hactor, htype, horigin, hc, hprepared, hrecords,
      projectCorrection, Except.orThrow, Except.ok_bind]
    exact ⟨_, _, rfl⟩

/-- A captured value is loaded redacted until its deletion is requested. -/
theorem captureEvidence_content {rt : Runtime} {db db' : Database} {c : EvidenceCapture}
    {captured : CapturedEvidence} (h : captureEvidence rt db c = .ok (captured, db'))
    (hc : c.correctionOfId = none) (hmedia : c.mediaType = .json) :
    db'.evidenceRecords.get? c.evidenceId = some captured.record ∧
      ∀ later, deletionRequested later c.evidenceId = false →
        ∃ loaded, loadEvidence rt later captured.record = .ok loaded ∧
          loaded.content = redacted rt.unicode c.payload := by
  simp only [captureEvidence, hc, hmedia, projectCorrection, Except.bind_eq_ok,
    Except.orThrow_eq_ok, Except.pure_eq_ok, Except.ok.injEq, Prod.mk.injEq] at h
  obtain ⟨owner, -, actor, -, evidenceType, -, origin, -, prepared, hprepared, records,
    hinsert, -, rfl, rfl, rfl⟩ := h
  refine ⟨?_, fun later hlive => ?_⟩
  · rw [Table.get?_insert? hinsert]
    exact if_pos rfl
  · simp only [redactEvidenceContent, Except.bind_eq_ok, sealContent,
      Except.ite_error_eq_ok, Except.ok.injEq] at hprepared
    obtain ⟨⟨value, t⟩, hvalue, -, hsealed⟩ := hprepared
    have hhash : prepared.contentHash = digest rt (rt.dumps prepared.value) := by rw [← hsealed]
    have hjson : prepared.mediaType = .json := by rw [← hsealed]
    have hcontent : prepared.value = redacted rt.unicode c.payload := by
      rw [← hsealed]
      exact redactJsonValue_ok _ hvalue
    obtain ⟨loaded, hloaded, hsame⟩ := loadEvidence_record
      (c.envelope owner actor evidenceType origin prepared) hjson hhash hlive
    exact ⟨loaded, hloaded, hsame.trans hcontent⟩

/-- The record of a capture names the redacted value. -/
theorem captureEvidence_artifact {rt : Runtime} {db db' : Database} {c : EvidenceCapture}
    {captured : CapturedEvidence} (h : captureEvidence rt db c = .ok (captured, db'))
    (hc : c.correctionOfId = none) (hmedia : c.mediaType = .json) :
    ∃ record envelope, db'.evidenceRecords.get? c.evidenceId = some record ∧
      record.artifact = some envelope ∧ envelope.content = redacted rt.unicode c.payload := by
  simp only [captureEvidence, hc, hmedia, projectCorrection, Except.bind_eq_ok,
    Except.orThrow_eq_ok, Except.pure_eq_ok, Except.ok.injEq, Prod.mk.injEq] at h
  obtain ⟨owner, -, actor, -, evidenceType, -, origin, -, prepared, hprepared, records,
    hinsert, -, rfl, rfl, rfl⟩ := h
  refine ⟨(c.envelope owner actor evidenceType origin prepared).record rt,
    c.envelope owner actor evidenceType origin prepared, ?_, rfl, ?_⟩
  · rw [Table.get?_insert? hinsert]
    exact if_pos rfl
  · simp only [redactEvidenceContent, Except.bind_eq_ok, sealContent,
      Except.ite_error_eq_ok, Except.ok.injEq] at hprepared
    obtain ⟨⟨value, t⟩, hvalue, -, hsealed⟩ := hprepared
    show prepared.value = _
    rw [← hsealed]
    exact redactJsonValue_ok _ hvalue

end Redacted

end ControlPlane
