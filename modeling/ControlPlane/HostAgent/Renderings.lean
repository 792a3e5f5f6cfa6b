import ControlPlane.HostAgent.OpenStep
import Mathlib.Data.List.Infix

/-!
# Renderings of property lists

The texts that write a value down: quoted texts with escapes, unquoted texts, arrays with or
without a last comma, mappings, and white space and comments between the tokens.

## Main definitions

* `Renders`: what a text between two gaps writes down.
* `Apart`: the gap behind an unquoted text does not make its last slash part of a comment.

## Main results

* `parse_rendering`: every rendering of a value is parsed as that value.
-/
namespace ControlPlane.OpenStep

variable {u : Unicode}

/-! ### Tokens and what stands between them -/

/-- White space and comments. -/
inductive Ignored (u : Unicode) : List Char → Prop
  | nil : Ignored u []
  | space {c : Char} {rest : List Char} (hspace : u.isSpace c = true) (hrest : Ignored u rest) :
    Ignored u (c :: rest)
  | block {body rest : List Char} (hbody : ¬['*', '/'] <:+: body) (hrest : Ignored u rest) :
    Ignored u ('/' :: '*' :: body ++ '*' :: '/' :: rest)
  | line {body rest : List Char} (hbody : '\n' ∉ body) (hrest : Ignored u rest) :
    Ignored u ('/' :: '/' :: body ++ '\n' :: rest)

/-- What stands behind the last token: the line of a last comment may be open. -/
inductive Trailing (u : Unicode) : List Char → Prop
  | closed {gap : List Char} (hgap : Ignored u gap) : Trailing u gap
  | line {gap body : List Char} (hgap : Ignored u gap) (hbody : '\n' ∉ body) :
    Trailing u (gap ++ '/' :: '/' :: body)

/-- A text that may stand unquoted. -/
structure IsAtom (u : Unicode) (value : List Char) : Prop where
  ne_nil : value ≠ []
  plain : ∀ c ∈ value, u.isSpace c = false ∧ c ∉ delimiters
  block : ¬['/', '*'] <:+: value
  line : ¬['/', '/'] <:+: value

/-- What stands between the quotes of a text. -/
inductive Quotes : List Char → List Char → Prop
  | nil : Quotes [] []
  | plain {c : Char} {value body : List Char} (hquote : c ≠ '"') (hslash : c ≠ '\\')
    (hrest : Quotes value body) : Quotes (c :: value) (c :: body)
  | escape {escaped c : Char} {value body : List Char} (hescape : escapes escaped = some c)
    (hrest : Quotes value body) : Quotes (c :: value) ('\\' :: escaped :: body)

/-- No comment begins with the last slash of a token. -/
def Apart (token gap : List Char) : Prop := ¬(token.getLast? = some '/' ∧ gap.head? = some '/')

/-- What is rendered: a value, or the rest of an array or of a mapping. -/
inductive Rendered where
  | value (value : OpenStep)
  | items (items : List OpenStep)
  | entries (entries : List (List Char × OpenStep))

inductive Renders (u : Unicode) : Rendered → List Char → Prop
  | atom {value : List Char} (hatom : IsAtom u value) : Renders u (.value (.text value)) value
  | quoted {value body : List Char} (hquotes : Quotes value body) :
    Renders u (.value (.text value)) ('"' :: body ++ ['"'])
  | array {items : List OpenStep} {body : List Char} (hitems : Renders u (.items items) body) :
    Renders u (.value (.array items)) ('(' :: body)
  | mapping {entries : List (List Char × OpenStep)} {body : List Char}
    (hentries : Renders u (.entries entries) body) :
    Renders u (.value (.mapping entries)) ('{' :: body)
  | closeItems {gap : List Char} (hgap : Ignored u gap) : Renders u (.items []) (gap ++ [')'])
  | lastItem {item : OpenStep} {token before after : List Char} (hbefore : Ignored u before)
    (hitem : Renders u (.value item) token) (hafter : Ignored u after)
    (hapart : Apart token after) :
    Renders u (.items [item]) (before ++ token ++ after ++ [')'])
  | item {item : OpenStep} {items : List OpenStep} {token before after rest : List Char}
    (hbefore : Ignored u before) (hitem : Renders u (.value item) token)
    (hafter : Ignored u after) (hapart : Apart token after)
    (hrest : Renders u (.items items) rest) :
    Renders u (.items (item :: items)) (before ++ token ++ after ++ ',' :: rest)
  | closeEntries {gap : List Char} (hgap : Ignored u gap) : Renders u (.entries []) (gap ++ ['}'])
  | entry {key : List Char} {value : OpenStep} {entries : List (List Char × OpenStep)}
    {keyToken valueToken gap₁ gap₂ gap₃ gap₄ rest : List Char}
    (hgap₁ : Ignored u gap₁) (hkey : Renders u (.value (.text key)) keyToken)
    (hgap₂ : Ignored u gap₂) (hapart₂ : Apart keyToken gap₂) (hgap₃ : Ignored u gap₃)
    (hvalue : Renders u (.value value) valueToken) (hgap₄ : Ignored u gap₄)
    (hapart₄ : Apart valueToken gap₄) (hdistinct : key ∉ entries.map Prod.fst)
    (hrest : Renders u (.entries entries) rest) :
    Renders u (.entries ((key, value) :: entries))
      (gap₁ ++ keyToken ++ gap₂ ++ '=' :: (gap₃ ++ valueToken ++ gap₄ ++ ';' :: rest))

mutual

/-- How deep values are nested inside a value. -/
def height : OpenStep → ℕ
  | .text _ => 0
  | .array items => itemsHeight items
  | .mapping entries => entriesHeight entries

def itemsHeight : List OpenStep → ℕ
  | [] => 0
  | item :: items => max (height item + 1) (itemsHeight items)

def entriesHeight : List (List Char × OpenStep) → ℕ
  | [] => 0
  | (_, value) :: entries => max (height value + 1) (entriesHeight entries)

end

/-! ### Skipping -/

section Skipping
variable {c : Char} {cs rest : List Char}

/-- What happens to a character in each mode, unless a comment starts or ends with it. -/
theorem skip_cons (u : Unicode) (c : Char) (rest : List Char) :
    ((c = '*' → rest.head? ≠ some '/') →
      skipIgnored u .block (c :: rest) = skipIgnored u .block rest) ∧
    (c ≠ '\n' → skipIgnored u .line (c :: rest) = skipIgnored u .line rest) ∧
    (startsComment (c :: rest) = false → skipIgnored u .code (c :: rest) =
      if u.isSpace c then skipIgnored u .code rest else .ok (c :: rest)) := by
  refine ⟨fun h => ?_, fun h => ?_, fun h => ?_⟩
  · rw [skipIgnored]
    rintro _ rfl rfl
    exact h rfl rfl
  · rw [skipIgnored]
    exact h
  · rw [skipIgnored]
    · rintro _ rfl rfl
      cases h
    · rintro _ rfl rfl
      cases h

theorem skip_block {body : List Char} (h : ¬['*', '/'] <:+: body) :
    skipIgnored u .block (body ++ '*' :: '/' :: rest) = skipIgnored u .code rest := by
  induction body with
  | nil => rfl
  | cons c body ih =>
    have hrest := ih fun hsub => h (hsub.trans (List.suffix_cons c body).isInfix)
    rw [List.cons_append]
    by_cases hstar : c = '*'
    · subst hstar
      cases body with
      | nil => exact hrest
      | cons d body =>
        by_cases hslash : d = '/'
        · subst hslash
          exact absurd ⟨[], body, rfl⟩ h
        · rw [List.cons_append] at hrest ⊢
          have hopen : (d :: (body ++ '*' :: '/' :: rest)).head? ≠ some '/' := fun heq =>
            hslash (Option.some.inj heq)
          rw [(skip_cons u '*' _).1 fun _ => hopen]
          exact hrest
    · rw [(skip_cons u c _).1 fun heq => absurd heq hstar]
      exact hrest

theorem skip_line {body : List Char} (h : '\n' ∉ body) :
    skipIgnored u .line (body ++ '\n' :: rest) = skipIgnored u .code rest := by
  induction body with
  | nil => rfl
  | cons c body ih =>
    obtain ⟨hc, hbody⟩ := not_or.mp (mt List.mem_cons.mpr h)
    rw [List.cons_append, (skip_cons u c _).2.1 (Ne.symm hc)]
    exact ih hbody

theorem skip_openLine {body : List Char} (h : '\n' ∉ body) :
    skipIgnored u .line body = .ok [] := by
  induction body with
  | nil => rfl
  | cons c body ih =>
    obtain ⟨hc, hbody⟩ := not_or.mp (mt List.mem_cons.mpr h)
    rw [(skip_cons u c _).2.1 (Ne.symm hc)]
    exact ih hbody

/-- A gap is skipped. -/
theorem skip_ignored {gap : List Char} (h : Ignored u gap) (cs : List Char) :
    skipIgnored u .code (gap ++ cs) = skipIgnored u .code cs := by
  induction h with
  | nil => rfl
  | @space c rest hspace _ ih =>
    have hslash : c ≠ '/' := by
      rintro rfl
      cases hspace
    have hcomment : startsComment (c :: (rest ++ cs)) = false := by
      simp [startsComment, List.isPrefixOf, beq_false_of_ne (Ne.symm hslash)]
    rw [List.cons_append, (skip_cons u c _).2.2 hcomment, if_pos hspace, ih]
  | block hbody _ ih =>
    simp only [List.cons_append, List.append_assoc]
    exact (skip_block hbody).trans ih
  | line hbody _ ih =>
    simp only [List.cons_append, List.append_assoc]
    exact (skip_line hbody).trans ih

theorem skip_trailing {gap : List Char} (h : Trailing u gap) : skipIgnored u .code gap = .ok [] := by
  cases h with
  | closed hgap =>
    have hskip := skip_ignored hgap []
    rw [List.append_nil] at hskip
    exact hskip
  | line hgap hbody => exact (skip_ignored hgap _).trans (skip_openLine hbody)

/-- Nothing is skipped before a token. -/
theorem skip_token (hspace : u.isSpace c = false) (hcomment : startsComment (c :: rest) = false) :
    skipIgnored u .code (c :: rest) = .ok (c :: rest) := by
  rw [(skip_cons u c rest).2.2 hcomment, hspace]
  rfl

theorem skip_delimiter (hc : c ∈ delimiters) :
    skipIgnored u .code (c :: rest) = .ok (c :: rest) := by
  simp only [delimiters, List.mem_cons, List.not_mem_nil, or_false] at hc
  rcases hc with rfl | rfl | rfl | rfl | rfl | rfl | rfl | rfl <;> exact skip_token rfl rfl

theorem consume_gap {gap : List Char} (hgap : Ignored u gap) (hc : c ∈ delimiters) :
    consume u c (gap ++ c :: rest) = .ok rest := by
  rw [consume, skip_ignored hgap, skip_delimiter hc, Except.ok_bind]
  simp only [Except.require_of, Except.ok_bind]
  rfl

end Skipping

/-! ### Tokens -/

/-- An unquoted text ends before this. -/
def stops (u : Unicode) : List Char → Bool
  | [] => true
  | c :: rest => u.isSpace c || delimiters.contains c || startsComment (c :: rest)

/-- What may stand behind a token. -/
structure Follows (u : Unicode) (token rest : List Char) : Prop where
  stops : stops u rest = true
  apart : Apart token rest

section Tokens
variable {value token rest gap : List Char} {c d : Char}

theorem startsComment_iff :
    startsComment (c :: d :: rest) = true ↔ c = '/' ∧ (d = '*' ∨ d = '/') := by
  simp only [startsComment, List.isPrefixOf, Bool.and_true, Bool.or_eq_true, Bool.and_eq_true,
    beq_iff_eq]
  constructor
  · rintro (⟨rfl, rfl⟩ | ⟨rfl, rfl⟩)
    · exact ⟨rfl, .inl rfl⟩
    · exact ⟨rfl, .inr rfl⟩
  · rintro ⟨rfl, rfl | rfl⟩
    · exact .inl ⟨rfl, rfl⟩
    · exact .inr ⟨rfl, rfl⟩

theorem stops_gap (hgap : Ignored u gap) (hrest : stops u rest = true) :
    stops u (gap ++ rest) = true := by
  cases hgap with
  | nil => exact hrest
  | space hspace => simp [stops, hspace]
  | block => simp [stops, startsComment]
  | line => simp [stops, startsComment]

theorem follows_gap (rest : List Char) (hgap : Ignored u gap) (hapart : Apart token gap) (hc : c ∈ delimiters) :
    Follows u token (gap ++ c :: rest) := by
  refine ⟨stops_gap hgap (by simp [stops, hc]), ?_⟩
  cases gap with
  | nil =>
    rintro ⟨-, hslash⟩
    obtain rfl : c = '/' := by simpa using hslash
    exact absurd hc (by decide)
  | cons => exact hapart

theorem follows_trailing (hgap : Trailing u gap) (hapart : Apart token gap) :
    Follows u token gap := by
  refine ⟨?_, hapart⟩
  cases hgap with
  | closed hclosed =>
    have hstops : stops u (gap ++ []) = true := stops_gap hclosed rfl
    rwa [List.append_nil] at hstops
  | line hclosed => exact stops_gap hclosed (by simp [stops, startsComment])

/-- No comment begins inside an unquoted text. -/
theorem IsAtom.startsComment_eq_false (h : IsAtom u value) (hfollows : Follows u value rest)
    {suffix : List Char} (hsuffix : suffix <:+ value) (hne : suffix ≠ []) :
    startsComment (suffix ++ rest) = false := by
  rw [Bool.eq_false_iff]
  intro hcomment
  cases suffix with
  | nil => exact hne rfl
  | cons c suffix =>
    cases suffix with
    | cons d suffix =>
      obtain ⟨rfl, hd⟩ := startsComment_iff.mp hcomment
      have hsub : ['/', d] <:+: value :=
        List.IsPrefix.isInfix ⟨suffix, rfl⟩ |>.trans hsuffix.isInfix
      rcases hd with rfl | rfl
      · exact h.block hsub
      · exact h.line hsub
    | nil =>
      cases rest with
      | nil => simp [startsComment] at hcomment
      | cons d rest =>
        obtain ⟨rfl, rfl | rfl⟩ := startsComment_iff.mp hcomment
        · exact absurd hfollows.stops (by simp [stops, startsComment, delimiters, Unicode.isSpace,
            Unicode.isAscii])
        · obtain ⟨before, rfl⟩ := hsuffix
          exact hfollows.apart ⟨by simp, rfl⟩

theorem scanAtom_append (hplain : ∀ c ∈ value, u.isSpace c = false ∧ c ∉ delimiters)
    (hcomment : ∀ suffix, suffix <:+ value → suffix ≠ [] → startsComment (suffix ++ rest) = false)
    (hstops : stops u rest = true) : scanAtom u (value ++ rest) = (value, rest) := by
  induction value with
  | nil =>
    cases rest with
    | nil => rfl
    | cons c rest => exact if_pos hstops
  | cons c value ih =>
    obtain ⟨hspace, hdelimiter⟩ := hplain c List.mem_cons_self
    have hstart : startsComment (c :: (value ++ rest)) = false :=
      hcomment (c :: value) (List.suffix_refl _) (List.cons_ne_nil _ _)
    have hscan := ih (fun d hd => hplain d (List.mem_cons_of_mem c hd))
      fun suffix hsuffix => hcomment suffix (hsuffix.trans (List.suffix_cons c value))
    rw [List.cons_append, scanAtom, hscan, hspace, hstart]
    simp [hdelimiter]

theorem parseAtom_append (h : IsAtom u value) (hfollows : Follows u value rest) :
    parseAtom u (value ++ rest) = .ok (value, rest) := by
  have hscan := scanAtom_append h.plain (fun _ => h.startsComment_eq_false hfollows)
    hfollows.stops
  rw [parseAtom, hscan, if_neg h.ne_nil]

theorem parseQuotedString_append {body : List Char} (h : Quotes value body) :
    parseQuotedString (body ++ '"' :: rest) = .ok (value, rest) := by
  induction h with
  | nil => rfl
  | plain hquote hslash _ ih =>
    rw [List.cons_append, parseQuotedString, ih]
    · rfl
    · exact hquote
    · rintro rfl
      exact absurd rfl hslash
    · rintro _ _ rfl
      exact absurd rfl hslash
  | escape hescape _ ih =>
    rw [List.cons_append, List.cons_append, parseQuotedString, hescape, ih]
    rfl

/-- A token does not close an array or a mapping. -/
theorem token_head {v : OpenStep} (h : Renders u (.value v) token) :
    ∃ c cs, token = c :: cs ∧ c ≠ ')' ∧ c ≠ '}' := by
  cases h with
  | atom hatom =>
    obtain ⟨c, cs, rfl⟩ := List.exists_cons_of_ne_nil hatom.ne_nil
    have hdelimiter := (hatom.plain c List.mem_cons_self).2
    refine ⟨c, cs, rfl, ?_, ?_⟩
    all_goals
      rintro rfl
      exact hdelimiter (by decide)
  | quoted => exact ⟨'"', _, rfl, by decide, by decide⟩
  | array => exact ⟨'(', _, rfl, by decide, by decide⟩
  | mapping => exact ⟨'{', _, rfl, by decide, by decide⟩

theorem skip_rendered {v : OpenStep} (h : Renders u (.value v) token)
    (hfollows : Follows u token rest) :
    skipIgnored u .code (token ++ rest) = .ok (token ++ rest) := by
  cases h with
  | atom hatom =>
    have hcomment := hatom.startsComment_eq_false hfollows (List.suffix_refl _) hatom.ne_nil
    obtain ⟨c, cs, rfl⟩ := List.exists_cons_of_ne_nil hatom.ne_nil
    exact skip_token (hatom.plain c List.mem_cons_self).1 hcomment
  | quoted => exact skip_delimiter (by decide)
  | array => exact skip_delimiter (by decide)
  | mapping => exact skip_delimiter (by decide)

end Tokens

/-! ### Parsing what is rendered -/

/-- What is parsed of a rendering, from enough rounds on. -/
def Parses (u : Unicode) (cs : List Char) : Rendered → Prop
  | .value v => ∀ fuel depth rest, 2 * cs.length ≤ fuel → depth + v.height ≤ 64 →
    Follows u cs rest → parseValue u fuel depth (cs ++ rest) = .ok (v, rest)
  | .items items => ∀ fuel depth found rest, 2 * cs.length + 1 ≤ fuel →
    depth + itemsHeight items ≤ 65 →
    parseArray u fuel depth found (cs ++ rest) = .ok (.array (found ++ items), rest)
  | .entries entries => ∀ fuel depth found rest, 2 * cs.length + 1 ≤ fuel →
    depth + entriesHeight entries ≤ 65 →
    (∀ key ∈ entries.map Prod.fst, key ∉ found.map Prod.fst) →
    parseMapping u fuel depth found (cs ++ rest) = .ok (.mapping (found ++ entries), rest)

section Parsing
variable {value token rest gap : List Char} {fuel depth : ℕ}

theorem parseValue_atom (h : IsAtom u value) (hfollows : Follows u value rest)
    (hdepth : depth ≤ 64) :
    parseValue u (fuel + 1) depth (value ++ rest) = .ok (.text value, rest) := by
  have hskip := skip_rendered (.atom h) hfollows
  have hparse := parseAtom_append h hfollows
  obtain ⟨c, cs, rfl⟩ := List.exists_cons_of_ne_nil h.ne_nil
  have hdelimiter := (h.plain c List.mem_cons_self).2
  rw [parseValue, Except.require_of hdepth, Except.ok_bind, hskip, Except.ok_bind,
    List.cons_append]
  split
  · contradiction
  · rename_i heq
    cases heq
    exact absurd (by decide) hdelimiter
  · rename_i heq
    cases heq
    exact absurd (by decide) hdelimiter
  · rename_i heq
    cases heq
    exact absurd (by decide) hdelimiter
  · rename_i heq
    cases heq
    rw [List.cons_append] at hparse
    rw [hparse]
    rfl

/-- The next item of an array, behind a gap. -/
theorem parseArray_token {v : OpenStep} {found : List OpenStep} {tail : List Char}
    (hgap : Ignored u gap) (htoken : Renders u (.value v) token)
    (hfollows : Follows u token tail)
    (hvalue : parseValue u fuel depth (token ++ tail) = .ok (v, tail)) :
    parseArray u (fuel + 1) depth found (gap ++ (token ++ tail)) =
      (do
        match ← skipIgnored u .code tail with
        | [] => throw unexpectedEnd
        | ',' :: rest => parseArray u fuel depth (found ++ [v]) rest
        | ')' :: rest => parseArray u fuel depth (found ++ [v]) (')' :: rest)
        | _ => throw (.value "OpenStep array delimiter is invalid")) := by
  have hskip := skip_rendered htoken hfollows
  obtain ⟨c, cs, rfl, hparen, -⟩ := token_head htoken
  rw [parseArray, skip_ignored hgap, hskip, Except.ok_bind, List.cons_append]
  split
  · contradiction
  · rename_i heq
    cases heq
    exact absurd rfl hparen
  · rename_i heq
    cases heq
    rw [List.cons_append] at hvalue
    rw [hvalue]
    rfl

/-- The next entry of a mapping, behind a gap. -/
theorem parseMapping_entry {v : OpenStep} {found : List (List Char × OpenStep)} {name : List Char}
    {gap₂ gap₃ gap₄ valueToken : List Char} (hgap : Ignored u gap)
    (htoken : Renders u (.value (.text name)) token) (hgap₂ : Ignored u gap₂)
    (hapart : Apart token gap₂) (hgap₄ : Ignored u gap₄)
    (hapart₄ : Apart valueToken gap₄) (hfresh : name ∉ found.map Prod.fst)
    (hkey : ∀ tail, Follows u token tail →
      parseValue u fuel depth (token ++ tail) = .ok (.text name, tail))
    (hvalue : ∀ tail, Follows u valueToken tail →
      parseValue u fuel depth (gap₃ ++ (valueToken ++ tail)) = .ok (v, tail)) :
    parseMapping u (fuel + 1) depth found
        (gap ++ (token ++ (gap₂ ++ '=' :: (gap₃ ++ (valueToken ++ (gap₄ ++ ';' :: rest)))))) =
      parseMapping u fuel depth (found ++ [(name, v)]) rest := by
  have hfollows := follows_gap (gap₃ ++ (valueToken ++ (gap₄ ++ ';' :: rest))) hgap₂ hapart
    (show '=' ∈ delimiters by decide)
  have hfollows₄ := follows_gap rest hgap₄ hapart₄ (show ';' ∈ delimiters by decide)
  have hskip := skip_rendered htoken hfollows
  have hparsed := hkey _ hfollows
  obtain ⟨c, cs, rfl, -, hbrace⟩ := token_head htoken
  rw [parseMapping, skip_ignored hgap, hskip, Except.ok_bind, List.cons_append]
  split
  · contradiction
  · rename_i heq
    cases heq
    exact absurd rfl hbrace
  · rename_i heq
    cases heq
    rw [List.cons_append] at hparsed
    simp only [hparsed, Except.ok_bind, newKey, Except.require_of hfresh,
      consume_gap hgap₂ (show '=' ∈ delimiters by decide), hvalue _ hfollows₄,
      consume_gap hgap₄ (show ';' ∈ delimiters by decide)]
    rfl

/-- Leading gaps do not matter. -/
theorem parseValue_gap (hgap : Ignored u gap) (cs : List Char) :
    parseValue u fuel depth (gap ++ cs) = parseValue u fuel depth cs := by
  cases fuel with
  | zero => rw [parseValue, parseValue]
  | succ fuel => rw [parseValue, parseValue, skip_ignored hgap]

end Parsing

theorem parses_rendered {r : Rendered} {cs : List Char} (h : Renders u r cs) :
    Parses u cs r := by
  induction h with
  | atom hatom =>
    intro fuel depth rest hfuel hdepth hfollows
    have hpos := List.length_pos_of_ne_nil hatom.ne_nil
    obtain ⟨fuel, rfl⟩ := Nat.exists_eq_succ_of_ne_zero (n := fuel) (by omega)
    exact parseValue_atom hatom hfollows (Nat.le_of_add_right_le hdepth)
  | @quoted value body hquotes =>
    intro fuel depth rest hfuel hdepth hfollows
    simp only [List.cons_append, List.length_cons] at hfuel
    obtain ⟨fuel, rfl⟩ := Nat.exists_eq_succ_of_ne_zero (n := fuel) (by omega)
    rw [parseValue, Except.require_of (Nat.le_of_add_right_le hdepth), Except.ok_bind,
      List.cons_append, List.cons_append, skip_delimiter (by decide), Except.ok_bind,
      List.append_assoc]
    show (parseQuotedString (body ++ '"' :: rest)).bind
      (fun parsed => pure (OpenStep.text parsed.1, parsed.2)) = _
    rw [parseQuotedString_append hquotes]
    rfl
  | @array items body _ ih =>
    intro fuel depth rest hfuel hdepth hfollows
    rw [List.length_cons] at hfuel
    rw [height] at hdepth
    obtain ⟨fuel, rfl⟩ := Nat.exists_eq_succ_of_ne_zero (n := fuel) (by omega)
    rw [parseValue, Except.require_of (Nat.le_of_add_right_le hdepth), Except.ok_bind,
      List.cons_append, skip_delimiter (by decide), Except.ok_bind]
    show parseArray u fuel (depth + 1) [] (body ++ rest) = _
    rw [ih fuel (depth + 1) [] rest (by omega) (by omega)]
    rfl
  | @mapping entries body _ ih =>
    intro fuel depth rest hfuel hdepth hfollows
    rw [List.length_cons] at hfuel
    rw [height] at hdepth
    obtain ⟨fuel, rfl⟩ := Nat.exists_eq_succ_of_ne_zero (n := fuel) (by omega)
    rw [parseValue, Except.require_of (Nat.le_of_add_right_le hdepth), Except.ok_bind,
      List.cons_append, skip_delimiter (by decide), Except.ok_bind]
    show parseMapping u fuel (depth + 1) [] (body ++ rest) = _
    rw [ih fuel (depth + 1) [] rest (by omega) (by omega) fun _ _ => List.not_mem_nil]
    rfl
  | closeItems hgap =>
    intro fuel depth found rest hfuel hdepth
    obtain ⟨fuel, rfl⟩ := Nat.exists_eq_succ_of_ne_zero (n := fuel) (by omega)
    rw [List.append_assoc, parseArray, skip_ignored hgap, List.singleton_append,
      skip_delimiter (by decide), Except.ok_bind, List.append_nil]
    rfl
  | @lastItem item token before after hbefore hitem hafter hapart ih =>
    intro fuel depth found rest hfuel hdepth
    simp only [List.length_append, List.length_singleton] at hfuel
    simp only [itemsHeight] at hdepth
    obtain ⟨fuel, rfl⟩ := Nat.exists_eq_succ_of_ne_zero (n := fuel) (by omega)
    obtain ⟨c, cs, htoken, -, -⟩ := token_head hitem
    have hpos : 0 < token.length := by
      rw [htoken]
      exact Nat.succ_pos _
    have hfollows := follows_gap rest hafter hapart (show ')' ∈ delimiters by decide)
    have hparsed := ih fuel depth _ (by omega) (by omega) hfollows
    simp only [List.append_assoc, List.singleton_append]
    rw [parseArray_token hbefore hitem hfollows hparsed, skip_ignored hafter,
      skip_delimiter (by decide), Except.ok_bind]
    show parseArray u fuel depth (found ++ [item]) (')' :: rest) = _
    obtain ⟨fuel, rfl⟩ := Nat.exists_eq_succ_of_ne_zero (n := fuel) (by omega)
    rw [parseArray, skip_delimiter (by decide), Except.ok_bind]
    rfl
  | @item item items token before after tail hbefore hitem hafter hapart _ ih ihrest =>
    intro fuel depth found rest hfuel hdepth
    simp only [List.length_append, List.length_cons] at hfuel
    simp only [itemsHeight] at hdepth
    obtain ⟨fuel, rfl⟩ := Nat.exists_eq_succ_of_ne_zero (n := fuel) (by omega)
    have hfollows := follows_gap (tail ++ rest) hafter hapart
      (show ',' ∈ delimiters by decide)
    have hparsed := ih fuel depth _ (by omega) (by omega) hfollows
    simp only [List.append_assoc, List.cons_append]
    rw [parseArray_token hbefore hitem hfollows hparsed, skip_ignored hafter,
      skip_delimiter (by decide), Except.ok_bind]
    show parseArray u fuel depth (found ++ [item]) (tail ++ rest) = _
    rw [ihrest fuel depth (found ++ [item]) rest (by omega) (by omega), List.append_assoc]
    rfl
  | closeEntries hgap =>
    intro fuel depth found rest hfuel hdepth _
    obtain ⟨fuel, rfl⟩ := Nat.exists_eq_succ_of_ne_zero (n := fuel) (by omega)
    rw [List.append_assoc, parseMapping, skip_ignored hgap, List.singleton_append,
      skip_delimiter (by decide), Except.ok_bind, List.append_nil]
    rfl
  | @entry name value entries keyToken valueToken gap₁ gap₂ gap₃ gap₄ tail hgap₁ hkey hgap₂
      hapart₂ hgap₃ hvalue hgap₄ hapart₄ hdistinct _ ihkey ihvalue ihrest =>
    intro fuel depth found rest hfuel hdepth hfresh
    simp only [List.length_append, List.length_cons] at hfuel
    simp only [entriesHeight] at hdepth
    obtain ⟨fuel, rfl⟩ := Nat.exists_eq_succ_of_ne_zero (n := fuel) (by omega)
    simp only [List.append_assoc, List.cons_append]
    rw [parseMapping_entry hgap₁ hkey hgap₂ hapart₂ hgap₄ hapart₄
      (hfresh name List.mem_cons_self)]
    · rw [ihrest fuel depth (found ++ [(name, value)]) rest (by omega) (by omega)]
      · rw [List.append_assoc]
        rfl
      · intro other hother
        rw [List.map_append, List.mem_append, not_or]
        refine ⟨hfresh other (List.mem_cons_of_mem name hother), ?_⟩
        rintro hmem
        obtain rfl : other = name := by simpa using hmem
        exact hdistinct hother
    · intro rest' hfollows
      exact ihkey fuel depth rest' (by omega) (by rw [height]; omega) hfollows
    · intro rest' hfollows
      rw [parseValue_gap hgap₃]
      exact ihvalue fuel depth rest' (by omega) (by omega) hfollows

/-- Every rendering of a value is parsed as that value; and any text at all gives a value, and
is read to its end, or it is refused. -/
theorem parse_rendering (u : Unicode) :
    (∀ v lead cs trail, Renders u (.value v) cs → Ignored u lead → Trailing u trail →
      Apart cs trail → v.height ≤ 64 → parse u (lead ++ cs ++ trail) = .ok v) ∧
    ∀ cs, (∃ message, parse u cs = .error (.value message)) ∨
      ∃ v rest, parse u cs = .ok v ∧
        parseValue u (2 * cs.length + 1) 0 cs = .ok (v, rest) ∧
        skipIgnored u .code rest = .ok [] := by
  constructor
  · intro v lead cs trail hrenders hlead htrail hapart hheight
    have hparsed := parses_rendered hrenders (2 * (lead ++ cs ++ trail).length + 1) 0 trail
      (by simp only [List.length_append]; omega) (by omega) (follows_trailing htrail hapart)
    rw [parse, List.append_assoc, parseValue_gap hlead, ← List.append_assoc, hparsed,
      Except.ok_bind]
    simp only [skip_trailing htrail, Except.ok_bind, Except.require_of]
    rfl
  · intro cs
    cases hparse : parse u cs with
    | error e =>
      cases e with
      | value message => exact .inl ⟨message, rfl⟩
      | fuel => exact absurd hparse (parse_ne_fuel cs)
    | ok v =>
      simp only [parse, Except.bind_eq_ok, Except.require_eq_ok, Except.pure_eq_ok] at hparse
      obtain ⟨⟨value, rest⟩, hvalue, end_, hskip, _, rfl, rfl⟩ := hparse
      exact .inr ⟨value, rest, rfl, hvalue, hskip⟩

/-! ### An array, and a slash before a comment -/

def arrayText : List Char :=
  ['(', '"', 'x', ' ', 'y', '"', '/', '*', 'k', '*', '/', ',', 'z', ')']

theorem arrayText_renders :
    Renders .ascii (.value (.array [.text ['x', ' ', 'y'], .text ['z']])) arrayText := by
  have hquotes : Quotes ['x', ' ', 'y'] ['x', ' ', 'y'] :=
    .plain (by decide) (by decide) (.plain (by decide) (by decide)
      (.plain (by decide) (by decide) .nil))
  have hquoted : Renders .ascii (.value (.text ['x', ' ', 'y']))
      ('"' :: ['x', ' ', 'y'] ++ ['"']) := .quoted hquotes
  have hatom : Renders .ascii (.value (.text ['z'])) ['z'] :=
    .atom ⟨by decide, List.forall_mem_singleton.mpr (by decide), by decide, by decide⟩
  have hgap : Ignored .ascii ('/' :: '*' :: ['k'] ++ '*' :: '/' :: []) := .block (by decide) .nil
  have hlast : Renders .ascii (.items [.text ['z']]) ([] ++ ['z'] ++ [] ++ [')']) :=
    .lastItem .nil hatom .nil (by simp [Apart])
  exact .array (.item .nil hquoted hgap (by simp [Apart]) hlast)

theorem parse_arrayText : parse .ascii ([' '] ++ arrayText ++ ['\n']) =
    .ok (.array [.text ['x', ' ', 'y'], .text ['z']]) :=
  (parse_rendering .ascii).1 _ [' '] arrayText ['\n'] arrayText_renders (.space rfl .nil)
    (.closed (.space rfl .nil)) (by simp [Apart]) (by decide)

def slashText : List Char := ['a', '/']

theorem slashText_atom : IsAtom .ascii slashText :=
  ⟨by decide, List.forall_mem_cons.mpr ⟨by decide, List.forall_mem_singleton.mpr (by decide)⟩,
    by decide, by decide⟩

/-- An unquoted text that ends in a slash, and a comment right behind it. -/
theorem not_parse_slash : ¬∀ v cs trail, Renders .ascii (.value v) cs → Trailing .ascii trail →
    v.height ≤ 64 → parse .ascii (cs ++ trail) = .ok v := by
  intro h
  have hgap : Ignored .ascii ('/' :: '*' :: ['c'] ++ '*' :: '/' :: []) := .block (by decide) .nil
  have hparse := h (.text slashText) slashText ['/', '*', 'c', '*', '/'] (.atom slashText_atom)
    (.closed hgap) (Nat.zero_le _)
  have hfound : parse .ascii (slashText ++ ['/', '*', 'c', '*', '/']) = .ok (.text ['a']) := by rfl
  rw [hfound] at hparse
  cases hparse

end ControlPlane.OpenStep
