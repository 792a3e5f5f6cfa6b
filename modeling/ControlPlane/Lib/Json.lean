import Mathlib.Data.List.Sort
import Mathlib.Data.Rat.Defs

/-!
# JSON values of a dynamically typed program

Values as the standard decoder of such a language builds them: booleans, integers and
floating-point numbers are different types that compare equal by value, and an object is
a dictionary, compared without regard to the order of its keys. A finite float is the
rational number it denotes.

## Main definitions

* `Json.get`: the value of a key, `null` when it is absent.
* `Json.pyEq`: equality as the language decides it.
* `Json.encode`: the canonical ASCII encoding, keys sorted, no white space.
-/

inductive Json where
  | null
  | bool (b : Bool)
  | int (n : ℤ)
  | float (q : ℚ)
  | str (s : String)
  | arr (items : List Json)
  | obj (fields : List (String × Json))
  deriving Inhabited

namespace Json

/-! ### Type tests and accessors -/

def isNull : Json → Bool
  | null => true
  | _ => false

def str? : Json → Option String
  | str s => some s
  | _ => none

def bool? : Json → Option Bool
  | bool b => some b
  | _ => none

/-- An integer that is not a boolean. -/
def int? : Json → Option ℤ
  | int n => some n
  | _ => none

def arr? : Json → Option (List Json)
  | arr items => some items
  | _ => none

def obj? : Json → Option (List (String × Json))
  | obj fields => some fields
  | _ => none

/-- The number a value denotes in a comparison; booleans count. -/
def num? : Json → Option ℚ
  | bool b => some (if b then 1 else 0)
  | int n => some n
  | float q => some q
  | _ => none

/-- Whether a condition takes the value for true. -/
def truthy : Json → Bool
  | null => false
  | bool b => b
  | int n => n ≠ 0
  | float q => q ≠ 0
  | str s => s ≠ ""
  | arr items => items ≠ []
  | obj fields => fields ≠ []

/-- The first value unless a condition takes it for false. -/
def or (a b : Json) : Json := if a.truthy then a else b

/-- The value stored under a key, if the value is an object that has it. -/
def get? (j : Json) (key : String) : Option Json := j.obj?.bind (·.lookup key)

/-- The value stored under a key, or `null`. -/
def get (j : Json) (key : String) : Json := (j.get? key).getD null

/-- The keys of an object. -/
def keys (j : Json) : List String := (j.obj?.getD []).map Prod.fst

/-- Whether the keys of an object are exactly the given ones. -/
def hasKeys (j : Json) (names : List String) : Bool :=
  j.keys.all names.contains && names.all j.keys.contains

/-- An object without some of its keys. -/
def without (j : Json) (names : List String) : Json :=
  match j with
  | obj fields => obj (fields.filter fun f => !names.contains f.1)
  | other => other

/-- An object with one key more at its end. -/
def extend (j : Json) (key : String) (value : Json) : Json :=
  match j with
  | obj fields => obj (fields ++ [(key, value)])
  | other => other

@[simp] theorem str?_eq_some {j : Json} {s : String} : j.str? = some s ↔ j = str s := by
  cases j <;> simp [str?]

@[simp] theorem bool?_eq_some {j : Json} {b : Bool} : j.bool? = some b ↔ j = bool b := by
  cases j <;> simp [bool?]

@[simp] theorem int?_eq_some {j : Json} {n : ℤ} : j.int? = some n ↔ j = int n := by
  cases j <;> simp [int?]

@[simp] theorem arr?_eq_some {j : Json} {items : List Json} :
    j.arr? = some items ↔ j = arr items := by
  cases j <;> simp [arr?]

@[simp] theorem obj?_eq_some {j : Json} {fields : List (String × Json)} :
    j.obj? = some fields ↔ j = obj fields := by
  cases j <;> simp [obj?]

/-! ### Equality -/

mutual

/-- Equality of values as the language decides it. -/
def pyEq : Json → Json → Bool
  | null, b => b.isNull
  | str s, b => b.str? == some s
  | arr xs, b => match b.arr? with
    | some ys => pyEqItems xs ys
    | none => false
  | obj fs, b => match b.obj? with
    | some gs => fs.length == gs.length && pyEqFields fs gs
    | none => false
  | bool x, b => b.num? == some (if x then 1 else 0)
  | int n, b => b.num? == some (n : ℚ)
  | float q, b => b.num? == some q

/-- Equality of lists, item by item. -/
def pyEqItems : List Json → List Json → Bool
  | [], [] => true
  | x :: xs, y :: ys => pyEq x y && pyEqItems xs ys
  | _, _ => false

/-- Every field has an equal value under its key in the other dictionary. -/
def pyEqFields : List (String × Json) → List (String × Json) → Bool
  | [], _ => true
  | (k, v) :: fs, gs =>
    (match gs.lookup k with
      | some w => pyEq v w
      | none => false) && pyEqFields fs gs

end

theorem null_pyEq_def (j : Json) : null.pyEq j = j.isNull := rfl

theorem str_pyEq_def (s : String) (j : Json) : (str s).pyEq j = (j.str? == some s) := rfl

theorem int_pyEq_def (n : ℤ) (j : Json) : (int n).pyEq j = (j.num? == some (n : ℚ)) := rfl

theorem obj_pyEq_obj (fs gs : List (String × Json)) :
    (obj fs).pyEq (obj gs) = (fs.length == gs.length && pyEqFields fs gs) := rfl

theorem pyEqFields_cons (k : String) (v : Json) (fs gs : List (String × Json)) :
    pyEqFields ((k, v) :: fs) gs = ((match gs.lookup k with
      | some w => pyEq v w
      | none => false) && pyEqFields fs gs) := rfl

@[simp] theorem str_pyEq (s : String) (j : Json) : (str s).pyEq j = true ↔ j = str s := by
  rw [str_pyEq_def, beq_iff_eq, str?_eq_some]

@[simp] theorem pyEq_str (j : Json) (s : String) : j.pyEq (str s) = true ↔ j = str s := by
  cases j with
  | str t => rw [str_pyEq, eq_comm]
  | _ => exact iff_of_false Bool.false_ne_true nofun

@[simp] theorem null_pyEq (j : Json) : null.pyEq j = true ↔ j = null := by
  rw [null_pyEq_def]
  cases j <;> simp [isNull]

/-- Equal dictionaries have equal values under every key of the first. -/
theorem pyEq_get_of_lookup {fs gs : List (String × Json)} (h : (obj fs).pyEq (obj gs) = true)
    (key : String) {v : Json} (hv : fs.lookup key = some v) :
    v.pyEq ((obj gs).get key) = true := by
  have hfields : pyEqFields fs gs = true := by
    rw [obj_pyEq_obj, Bool.and_eq_true] at h
    exact h.2
  clear h
  induction fs with
  | nil => simp at hv
  | cons f fs ih =>
    obtain ⟨k, w⟩ := f
    rw [pyEqFields_cons, Bool.and_eq_true] at hfields
    obtain ⟨hhead, hrest⟩ := hfields
    rw [List.lookup_cons] at hv
    by_cases hk : key = k
    · subst hk
      simp only [beq_self_eq_true, Option.some.injEq] at hv
      subst hv
      cases hlookup : gs.lookup key with
      | none => simp [hlookup] at hhead
      | some x => simpa [get, get?, obj?, hlookup] using hhead
    · have hbeq : (key == k) = false := beq_false_of_ne hk
      rw [hbeq] at hv
      exact ih hv hrest

@[simp] theorem int_pyEq_int (m n : ℤ) : (int m).pyEq (int n) = true ↔ m = n := by
  rw [int_pyEq_def, num?, beq_iff_eq, Option.some.injEq]
  constructor
  · exact fun h => (Rat.intCast_inj.mp h).symm
  · exact fun h => congrArg _ h.symm

/-! ### The canonical encoding -/

/-- The lower-case hexadecimal digit of a number below sixteen. -/
def hexDigit (n : ℕ) : Char := if n < 10 then Char.ofNat (48 + n) else Char.ofNat (87 + n)

/-- Four hexadecimal digits. -/
def hex4 (n : ℕ) : List Char :=
  [hexDigit (n / 4096 % 16), hexDigit (n / 256 % 16), hexDigit (n / 16 % 16), hexDigit (n % 16)]

/-- One character inside a string; beyond printable ASCII by its UTF-16 code units. -/
def escapeChar (c : Char) : List Char :=
  if c = '"' then ['\\', '"']
  else if c = '\\' then ['\\', '\\']
  else if c = '\n' then ['\\', 'n']
  else if c = '\r' then ['\\', 'r']
  else if c = '\t' then ['\\', 't']
  else if c.toNat = 8 then ['\\', 'b']
  else if c.toNat = 12 then ['\\', 'f']
  else if 32 ≤ c.toNat ∧ c.toNat < 127 then [c]
  else if c.toNat < 65536 then ['\\', 'u'] ++ hex4 c.toNat
  else
    let v := c.toNat - 65536
    ['\\', 'u'] ++ hex4 (55296 + v / 1024) ++ (['\\', 'u'] ++ hex4 (56320 + v % 1024))

def encodeString (s : String) : List Char := '"' :: (s.toList.flatMap escapeChar ++ ['"'])

/-- Texts joined by commas. -/
def commas (parts : List (List Char)) : List Char := List.intercalate [','] parts

mutual

/-- The canonical encoding; `floatRepr` prints a float. -/
def encode (floatRepr : ℚ → List Char) : Json → List Char
  | null => "null".toList
  | bool true => "true".toList
  | bool false => "false".toList
  | int n => (toString n).toList
  | float q => floatRepr q
  | str s => encodeString s
  | arr xs => '[' :: (commas (encodeItems floatRepr xs) ++ [']'])
  | obj fs =>
    '{' :: (commas (((encodeFields floatRepr fs).insertionSort fun a b => a.1 ≤ b.1).map
      fun f => encodeString f.1 ++ ':' :: f.2) ++ ['}'])

def encodeItems (floatRepr : ℚ → List Char) : List Json → List (List Char)
  | [] => []
  | x :: xs => encode floatRepr x :: encodeItems floatRepr xs

def encodeFields (floatRepr : ℚ → List Char) : List (String × Json) → List (String × List Char)
  | [] => []
  | (k, v) :: fs => (k, encode floatRepr v) :: encodeFields floatRepr fs

end

end Json
