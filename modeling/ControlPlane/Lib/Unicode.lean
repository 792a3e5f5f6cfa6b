import Mathlib.Data.List.DropRight
import Mathlib.Data.Char

/-!
# Character classes of a Unicode string type

The ASCII part of every class is computed. The classes of the other characters, and
their case mappings, are tables that depend on the version of the Unicode database the
interpreter was built with, so they are a parameter.
-/

/-- The tables of a Unicode database, consulted beyond ASCII only. -/
structure Unicode where
  spaceTable : Char → Bool
  alnumTable : Char → Bool
  /-- The value of a decimal digit. -/
  digitTable : Char → Option ℕ
  lowerTable : Char → List Char
  upperTable : Char → List Char
  casefoldTable : Char → List Char

namespace Unicode
variable (u : Unicode)

/-- Tables that know nothing beyond ASCII. -/
def ascii : Unicode where
  spaceTable := fun _ => false
  alnumTable := fun _ => false
  digitTable := fun _ => none
  lowerTable := fun c => [c]
  upperTable := fun c => [c]
  casefoldTable := fun c => [c]

def isAscii (c : Char) : Bool := c.toNat < 128
def asciiDigit (c : Char) : Bool := '0' ≤ c && c ≤ '9'
def asciiLower (c : Char) : Bool := 'a' ≤ c && c ≤ 'z'
def asciiUpper (c : Char) : Bool := 'A' ≤ c && c ≤ 'Z'
def asciiAlpha (c : Char) : Bool := asciiLower c || asciiUpper c
def asciiAlnum (c : Char) : Bool := asciiAlpha c || asciiDigit c

/-- The white space of `strip` and of the class `\s`; the ASCII separators count. -/
def isSpace (c : Char) : Bool :=
  if isAscii c then c == ' ' || (9 ≤ c.toNat && c.toNat ≤ 13) || (28 ≤ c.toNat && c.toNat ≤ 31)
  else u.spaceTable c

def isAlnum (c : Char) : Bool := if isAscii c then asciiAlnum c else u.alnumTable c

def digit? (c : Char) : Option ℕ :=
  if isAscii c then if asciiDigit c then some (c.toNat - 48) else none else u.digitTable c

/-- The class `\d`. -/
def isDigit (c : Char) : Bool := (u.digit? c).isSome

/-- The class `\w`. -/
def isWord (c : Char) : Bool := u.isAlnum c || c == '_'

def lowerChar (c : Char) : List Char :=
  if isAscii c then [if asciiUpper c then Char.ofNat (c.toNat + 32) else c] else u.lowerTable c

def upperChar (c : Char) : List Char :=
  if isAscii c then [if asciiLower c then Char.ofNat (c.toNat - 32) else c] else u.upperTable c

def casefoldChar (c : Char) : List Char :=
  if isAscii c then u.lowerChar c else u.casefoldTable c

def lower (cs : List Char) : List Char := cs.flatMap u.lowerChar
def upper (cs : List Char) : List Char := cs.flatMap u.upperChar
def casefold (cs : List Char) : List Char := cs.flatMap u.casefoldChar

/-- White space removed at both ends. -/
def strip (cs : List Char) : List Char := (cs.dropWhile u.isSpace).rdropWhile u.isSpace

/-- White space inside a text removed at its ends only: nothing to do when neither end
is white space. -/
theorem strip_eq_self {cs : List Char} (hhead : ∀ c ∈ cs.head?, u.isSpace c = false)
    (hlast : ∀ c ∈ cs.getLast?, u.isSpace c = false) : u.strip cs = cs := by
  have hdrop : cs.dropWhile u.isSpace = cs := by
    cases cs with
    | nil => rfl
    | cons c cs => simp [hhead c rfl]
  rw [strip, hdrop]
  rcases List.eq_nil_or_concat cs with rfl | ⟨init, c, rfl⟩
  · rfl
  · have hc : u.isSpace c = false := hlast c (by simp)
    rw [List.concat_eq_append, List.rdropWhile_concat, hc]
    rfl

theorem isSpace_eq_false_of_asciiAlnum {c : Char} (h : asciiAlnum c = true) :
    u.isSpace c = false := by
  simp only [asciiAlnum, asciiAlpha, asciiLower, asciiUpper, asciiDigit, Bool.or_eq_true,
    Bool.and_eq_true, decide_eq_true_eq, Char.le_def, UInt32.le_iff_toNat_le] at h
  have hn : c.toNat = c.val.toNat := rfl
  have hspace : (c == ' ') = false := by
    refine beq_false_of_ne fun heq => ?_
    subst heq
    revert h
    decide
  have hbound : 48 ≤ c.toNat ∧ c.toNat < 128 := by
    have h0 : ('0' : Char).val.toNat = 48 := rfl
    have h9 : ('9' : Char).val.toNat = 57 := rfl
    have ha : ('a' : Char).val.toNat = 97 := rfl
    have hz : ('z' : Char).val.toNat = 122 := rfl
    have hA : ('A' : Char).val.toNat = 65 := rfl
    have hZ : ('Z' : Char).val.toNat = 90 := rfl
    omega
  have hascii : isAscii c = true := by simp [isAscii, hbound.2]
  simp only [isSpace, hascii, if_true, hspace, Bool.false_or, Bool.or_eq_false_iff,
    Bool.and_eq_false_iff, decide_eq_false_iff_not]
  omega

theorem lower_eq_self {cs : List Char}
    (h : ∀ c ∈ cs, isAscii c = true ∧ asciiUpper c = false) : u.lower cs = cs := by
  induction cs with
  | nil => rfl
  | cons c cs ih =>
    obtain ⟨hascii, hupper⟩ := h c List.mem_cons_self
    have hc : u.lowerChar c = [c] := by simp [lowerChar, hascii, hupper]
    simp only [lower, List.flatMap_cons, hc, List.singleton_append, List.cons.injEq, true_and]
    exact ih fun d hd => h d (List.mem_cons_of_mem c hd)

/-- A text of ASCII letters and digits has nothing to strip. -/
theorem strip_eq_self_of_alnum {cs : List Char} (h : ∀ c ∈ cs, asciiAlnum c = true) :
    u.strip cs = cs :=
  u.strip_eq_self
    (fun c hc => u.isSpace_eq_false_of_asciiAlnum (h c (List.mem_of_mem_head? hc)))
    (fun c hc => u.isSpace_eq_false_of_asciiAlnum (h c (List.mem_of_mem_getLast? hc)))

end Unicode

/-! ### Classes -/

/-- Character classes of regular expressions. -/
inductive CharClass where
  | chars (cs : List Char)
  | range (lo hi : Char)
  | space
  | word
  | digit
  | union (a b : CharClass)
  | compl (a : CharClass)
  /-- A class of ASCII characters, matched up to case. -/
  | caseless (a : CharClass)

namespace CharClass

/-- The character a case-insensitive comparison looks at: lower case, and the four
characters beyond ASCII that fold onto an ASCII letter. -/
def fold (c : Char) : Char :=
  if c = 'ı' ∨ c = 'İ' then 'i'
  else if c = 'ſ' then 's'
  else if c = '\u212a' then 'k'
  else if Unicode.asciiUpper c then Char.ofNat (c.toNat + 32)
  else c

def holds (u : Unicode) : CharClass → Char → Bool
  | chars cs, c => cs.contains c
  | range lo hi, c => lo ≤ c && c ≤ hi
  | space, c => u.isSpace c
  | word, c => u.isWord c
  | digit, c => u.isDigit c
  | union a b, c => a.holds u c || b.holds u c
  | compl a, c => !a.holds u c
  | caseless a, c => a.holds u (fold c)

theorem isAscii_fold : ∀ n < 128, Unicode.isAscii (fold (Char.ofNat n)) = true := by
  decide +kernel

/-- On ASCII characters a class does not depend on the tables. -/
theorem holds_eq_of_isAscii (u v : Unicode) (k : CharClass) {c : Char}
    (h : Unicode.isAscii c = true) : k.holds u c = k.holds v c := by
  induction k generalizing c with
  | chars cs | range lo hi => rfl
  | space => simp [holds, Unicode.isSpace, h]
  | word => simp [holds, Unicode.isWord, Unicode.isAlnum, h]
  | digit => simp [holds, Unicode.isDigit, Unicode.digit?, h]
  | union a b iha ihb => simp only [holds, iha h, ihb h]
  | compl a ih => simp only [holds, ih h]
  | caseless a ih =>
    have hlt : c.toNat < 128 := by simpa [Unicode.isAscii] using h
    have hfold := isAscii_fold c.toNat hlt
    rw [Char.ofNat_toNat] at hfold
    exact ih hfold

end CharClass
