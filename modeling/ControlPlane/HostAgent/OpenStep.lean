import Mathlib.Tactic.Linarith
import ControlPlane.Lib.Transaction
import ControlPlane.Lib.Unicode

/-!
# Property lists of projects

The parser of the property lists that Xcode keeps its projects in: texts, arrays and mappings,
between white space and comments, nested at most 64 deep.

## Main definitions

* `OpenStep`
* `OpenStep.parse`

## Main results

* `OpenStep.parse_ne_fuel`: parsing a text never runs out of rounds.
-/
namespace ControlPlane

/-- A value of a property list. The keys of a mapping are distinct, in the order they were
written. -/
inductive OpenStep where
  | text (value : List Char)
  | array (items : List OpenStep)
  | mapping (entries : List (List Char × OpenStep))

namespace OpenStep

/-- Why there is no value: the text is wrong, or the rounds ran out. -/
inductive ParseError where
  | value (message : String)
  | fuel
  deriving DecidableEq, Repr

variable (u : Unicode)

/-- Where ignored text is being skipped: between tokens, in a block comment, in a line comment. -/
inductive Skipping where
  | code | block | line
  deriving DecidableEq

/-- Skip white space and comments. -/
def skipIgnored : Skipping → List Char → Except ParseError (List Char)
  | .code, '/' :: '*' :: rest => skipIgnored .block rest
  | .code, '/' :: '/' :: rest => skipIgnored .line rest
  | .code, c :: rest => if u.isSpace c then skipIgnored .code rest else .ok (c :: rest)
  | .code, [] => .ok []
  | .block, '*' :: '/' :: rest => skipIgnored .code rest
  | .block, _ :: rest => skipIgnored .block rest
  | .block, [] => .error (.value "unterminated OpenStep block comment")
  | .line, '\n' :: rest => skipIgnored .code rest
  | .line, _ :: rest => skipIgnored .line rest
  | .line, [] => .ok []

def unexpectedEnd : ParseError := .value "unexpected end of OpenStep input"

/-- Skip what is ignored and one expected character. -/
def consume (expected : Char) (cs : List Char) : Except ParseError (List Char) := do
  match ← skipIgnored u .code cs with
  | [] => throw (.value "unexpected OpenStep token")
  | c :: rest =>
    Except.require (c = expected) (.value "unexpected OpenStep token")
    return rest

def escapes : Char → Option Char
  | '"' => some '"'
  | '\\' => some '\\'
  | 'n' => some '\n'
  | 'r' => some '\r'
  | 't' => some '\t'
  | _ => none

def unterminated : ParseError := .value "unterminated OpenStep string"

/-- The rest of a quoted text, behind the opening quote. -/
def parseQuotedString : List Char → Except ParseError (List Char × List Char)
  | [] => .error unterminated
  | '"' :: rest => .ok ([], rest)
  | ['\\'] => .error unterminated
  | '\\' :: escaped :: rest => do
    let replacement ← Except.orThrow (escapes escaped) (.value "unsupported OpenStep string escape")
    let (value, rest) ← parseQuotedString rest
    return (replacement :: value, rest)
  | c :: rest => do
    let (value, rest) ← parseQuotedString rest
    return (c :: value, rest)

def delimiters : List Char := ['{', '}', '(', ')', '=', ';', ',', '"']

def startsComment (cs : List Char) : Bool := ['/', '*'].isPrefixOf cs || ['/', '/'].isPrefixOf cs

/-- The characters before white space, a delimiter or a comment, and the rest. -/
def scanAtom : List Char → List Char × List Char
  | [] => ([], [])
  | c :: rest =>
    if u.isSpace c || delimiters.contains c || startsComment (c :: rest) then ([], c :: rest)
    else (c :: (scanAtom rest).1, (scanAtom rest).2)

def parseAtom (cs : List Char) : Except ParseError (List Char × List Char) :=
  if (scanAtom u cs).1 = [] then .error (.value "missing OpenStep atom") else .ok (scanAtom u cs)

/-- The text of a mapping's key that it does not have yet. -/
def newKey (entries : List (List Char × OpenStep)) : OpenStep → Except ParseError (List Char)
  | .text key => do
    Except.require (key ∉ entries.map Prod.fst) (.value "OpenStep dictionary key is invalid")
    return key
  | _ => throw (.value "OpenStep dictionary key is invalid")

mutual

def parseValue : ℕ → ℕ → List Char → Except ParseError (OpenStep × List Char)
  | 0, _, _ => .error .fuel
  | fuel + 1, depth, cs => do
    Except.require (depth ≤ 64) (.value "OpenStep nesting is too deep")
    match ← skipIgnored u .code cs with
    | [] => throw unexpectedEnd
    | '{' :: rest => parseMapping fuel (depth + 1) [] rest
    | '(' :: rest => parseArray fuel (depth + 1) [] rest
    | '"' :: rest => do
      let (value, rest) ← parseQuotedString rest
      return (.text value, rest)
    | c :: rest => do
      let (value, rest) ← parseAtom u (c :: rest)
      return (.text value, rest)

/-- The rest of a mapping, behind the entries that were read. -/
def parseMapping : ℕ → ℕ → List (List Char × OpenStep) → List Char →
    Except ParseError (OpenStep × List Char)
  | 0, _, _, _ => .error .fuel
  | fuel + 1, depth, entries, cs => do
    match ← skipIgnored u .code cs with
    | [] => throw unexpectedEnd
    | '}' :: rest => return (.mapping entries, rest)
    | c :: rest => do
      let (value, rest) ← parseValue fuel depth (c :: rest)
      let key ← newKey entries value
      let rest ← consume u '=' rest
      let (value, rest) ← parseValue fuel depth rest
      let rest ← consume u ';' rest
      parseMapping fuel depth (entries ++ [(key, value)]) rest

/-- The rest of an array, behind the items that were read. -/
def parseArray : ℕ → ℕ → List OpenStep → List Char → Except ParseError (OpenStep × List Char)
  | 0, _, _, _ => .error .fuel
  | fuel + 1, depth, items, cs => do
    match ← skipIgnored u .code cs with
    | [] => throw unexpectedEnd
    | ')' :: rest => return (.array items, rest)
    | c :: rest => do
      let (item, rest) ← parseValue fuel depth (c :: rest)
      match ← skipIgnored u .code rest with
      | [] => throw unexpectedEnd
      | ',' :: rest => parseArray fuel depth (items ++ [item]) rest
      | ')' :: rest => parseArray fuel depth (items ++ [item]) (')' :: rest)
      | _ => throw (.value "OpenStep array delimiter is invalid")

end

/-- The value that a whole text writes down. Every value takes a character, so that the length of
the text bounds the rounds. -/
def parse (cs : List Char) : Except ParseError OpenStep := do
  let (value, rest) ← parseValue u (2 * cs.length + 1) 0 cs
  let rest ← skipIgnored u .code rest
  Except.require (rest = []) (.value "trailing OpenStep input")
  return value

/-! ### Rounds -/

/-- A result has a property, and the rounds did not run out before it. -/
def Settles {α : Type} (P : α → Prop) : Except ParseError α → Prop
  | .ok a => P a
  | .error e => e ≠ .fuel

namespace Settles
variable {α β : Type} {P : α → Prop} {Q : β → Prop}

theorem bind {x : Except ParseError α} {f : α → Except ParseError β} (hx : Settles P x)
    (hf : ∀ a, P a → Settles Q (f a)) : Settles Q (x >>= f) := by
  cases x with
  | error e => exact hx
  | ok a => exact hf a hx

theorem mono {Q : α → Prop} {x : Except ParseError α} (hx : Settles P x)
    (h : ∀ a, P a → Q a) : Settles Q x := by
  cases x with
  | error e => exact hx
  | ok a => exact h a hx

theorem value {message : String} : Settles P (.error (.value message)) := nofun

theorem require {p : Prop} [Decidable p] {message : String} :
    Settles (fun _ => p) (Except.require p (.value message)) := by
  by_cases h : p
  · rw [Except.require, if_pos h]
    exact h
  · rw [Except.require, if_neg h]
    exact value

end Settles

variable {u}

theorem skipIgnored_settles (m : Skipping) (cs : List Char) :
    Settles (fun rest => rest.length ≤ cs.length) (skipIgnored u m cs) := by
  fun_induction skipIgnored u m cs with
  | case1 rest ih | case2 rest ih | case6 rest ih => exact ih.mono fun _ h => by grind
  | case3 c rest _ _ _ ih | case7 c rest _ ih | case9 rest ih | case10 c rest _ ih =>
    exact ih.mono fun _ h => by grind
  | case4 c rest => exact Nat.le_refl _
  | case5 => exact Nat.le_refl _
  | case8 => exact .value
  | case11 => exact Nat.le_refl _

theorem skipCode_settles (cs : List Char) :
    Settles (fun rest => rest.length ≤ cs.length) (skipIgnored u .code cs) :=
  skipIgnored_settles .code cs

theorem consume_settles (expected : Char) (cs : List Char) :
    Settles (fun rest => rest.length < cs.length) (consume u expected cs) := by
  refine (skipCode_settles cs).bind fun rest hrest => ?_
  cases rest with
  | nil => exact .value
  | cons c rest => exact Settles.require.bind fun _ _ => Nat.lt_of_succ_le hrest

theorem parseQuotedString_settles (cs : List Char) :
    Settles (fun r => r.2.length < cs.length) (parseQuotedString cs) := by
  fun_induction parseQuotedString cs with
  | case1 => exact .value
  | case2 rest => exact Nat.lt_succ_self _
  | case3 => exact .value
  | case4 escaped rest ih =>
    cases escapes escaped with
    | none => exact .value
    | some replacement =>
      refine ih.bind fun r h => ?_
      show r.2.length < rest.length + 2
      omega
  | case5 c rest _ _ _ ih =>
    refine ih.bind fun r h => ?_
    show r.2.length < rest.length + 1
    omega

theorem length_scanAtom (cs : List Char) :
    (scanAtom u cs).1.length + (scanAtom u cs).2.length = cs.length := by
  fun_induction scanAtom u cs with
  | case1 => rfl
  | case2 => exact Nat.zero_add _
  | case3 c rest _ ih => grind

theorem parseAtom_settles (cs : List Char) :
    Settles (fun r => r.2.length < cs.length) (parseAtom u cs) := by
  rw [parseAtom]
  split
  · exact .value
  · rename_i hne
    have hlength := length_scanAtom (u := u) cs
    have hpos := List.length_pos_of_ne_nil hne
    show (scanAtom u cs).2.length < cs.length
    omega

theorem newKey_settles (entries : List (List Char × OpenStep)) (value : OpenStep) :
    Settles (fun _ => True) (newKey entries value) := by
  cases value with
  | text key => exact Settles.require.bind fun _ _ => trivial
  | array items => exact .value
  | mapping entries => exact .value

/-- Twice as many rounds as there are characters are enough, and a value takes a character. -/
theorem parse_settles (fuel : ℕ) :
    (∀ depth cs, 2 * cs.length < fuel →
      Settles (fun r => r.2.length < cs.length) (parseValue u fuel depth cs)) ∧
    (∀ depth entries cs, 2 * cs.length + 1 < fuel →
      Settles (fun r => r.2.length < cs.length) (parseMapping u fuel depth entries cs)) ∧
    ∀ depth items cs, 2 * cs.length + 1 < fuel →
      Settles (fun r => r.2.length < cs.length) (parseArray u fuel depth items cs) := by
  induction fuel with
  | zero => exact ⟨nofun, nofun, nofun⟩
  | succ fuel ih =>
    obtain ⟨hvalue, hmapping, harray⟩ := ih
    refine ⟨fun depth cs hfuel => ?_, fun depth entries cs hfuel => ?_,
      fun depth items cs hfuel => ?_⟩
    · rw [parseValue]
      refine Settles.require.bind fun _ _ => (skipCode_settles cs).bind fun rest hrest => ?_
      split
      · exact .value
      · rename_i rest
        rw [List.length_cons] at hrest
        exact (hmapping _ _ rest (by omega)).mono fun _ h => by omega
      · rename_i rest
        rw [List.length_cons] at hrest
        exact (harray _ _ rest (by omega)).mono fun _ h => by omega
      · rename_i rest
        rw [List.length_cons] at hrest
        exact (parseQuotedString_settles rest).bind fun r h => by
          show r.2.length < cs.length
          omega
      · rename_i c rest _ _ _
        exact (parseAtom_settles (c :: rest)).bind fun r h => by
          show r.2.length < cs.length
          omega
    · rw [parseMapping]
      refine (skipCode_settles cs).bind fun rest hrest => ?_
      split
      · exact .value
      · rename_i rest
        exact Nat.lt_of_succ_le hrest
      · rename_i c rest _
        refine (hvalue depth (c :: rest) (by omega)).bind fun r hr => ?_
        refine (newKey_settles entries r.1).bind fun key _ => ?_
        refine (consume_settles '=' r.2).bind fun rest₁ h₁ => ?_
        refine (hvalue depth rest₁ (by omega)).bind fun r₂ h₂ => ?_
        refine (consume_settles ';' r₂.2).bind fun rest₃ h₃ => ?_
        exact (hmapping _ _ rest₃ (by omega)).mono fun _ h => by omega
    · rw [parseArray]
      refine (skipCode_settles cs).bind fun rest hrest => ?_
      split
      · exact .value
      · rename_i rest
        exact Nat.lt_of_succ_le hrest
      · rename_i c rest _
        refine (hvalue depth (c :: rest) (by omega)).bind fun r hr => ?_
        refine (skipCode_settles r.2).bind fun rest₁ h₁ => ?_
        split
        · exact .value
        · rename_i rest₁
          rw [List.length_cons] at h₁
          exact (harray _ _ rest₁ (by omega)).mono fun _ h => by omega
        · rename_i rest₁
          exact (harray _ _ (')' :: rest₁) (by omega)).mono fun _ h => by omega
        · exact .value

theorem parse_settles_true (cs : List Char) : Settles (fun _ => True) (parse u cs) := by
  refine ((parse_settles (2 * cs.length + 1)).1 0 cs (Nat.lt_succ_self _)).bind fun r _ => ?_
  exact (skipCode_settles r.2).bind fun rest _ => Settles.require.bind fun _ _ => trivial

theorem parse_ne_fuel (cs : List Char) : parse u cs ≠ .error .fuel := by
  have hsettles := parse_settles_true (u := u) cs
  intro h
  rw [h] at hsettles
  exact hsettles rfl

end OpenStep

end ControlPlane
