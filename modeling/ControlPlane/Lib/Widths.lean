import ControlPlane.Lib.Encoding
import Mathlib.Algebra.Order.Ring.Nat

/-!
# Widths of canonical encodings

How many characters the canonical encoding of a text and of an object has. The order in
which the fields of an object were written does not matter.

## Main results

* `Json.length_encode_obj`: the width of an object from the widths of its fields.
-/
namespace Json
variable {floatRepr : ℚ → List Char}

/-- The width of a character inside a string. -/
def charWidth (c : Char) : ℕ := (escapeChar c).length

/-- The width of a string of some characters. -/
def textWidth (chars : List Char) : ℕ := 2 + (chars.map charWidth).sum

theorem length_encodeString (s : String) : (encodeString s).length = textWidth s.toList := by
  have hchars : (s.toList.flatMap escapeChar).length = (s.toList.map charWidth).sum :=
    List.length_flatMap
  rw [encodeString, List.length_cons, List.length_append, hchars, List.length_singleton, textWidth]
  omega

theorem textWidth_replicate (n : ℕ) (c : Char) :
    textWidth (List.replicate n c) = 2 + n * charWidth c := by
  simp [textWidth]

/-- The width of a key with its value. -/
def fieldWidth (floatRepr : ℚ → List Char) (f : String × Json) : ℕ :=
  textWidth f.1.toList + 1 + (f.2.encode floatRepr).length

theorem length_encodeField (f : String × Json) :
    (encodeField floatRepr f).length = fieldWidth floatRepr f := by
  rw [encodeField, List.length_append, List.length_cons, length_encodeString, fieldWidth]
  omega

theorem length_tails {α : Type} (encoded : α → List Char) (as : List α) :
    (tails encoded as).length = (as.map fun a => (encoded a).length + 1).sum := by
  simp [tails, List.length_flatMap]

/-- Every field of an object takes one character beside its own, the object one more. -/
theorem length_encode_obj {fs : List (String × Json)} (h : fs ≠ []) :
    ((obj fs).encode floatRepr).length =
      1 + (fs.map fun f => fieldWidth floatRepr f + 1).sum := by
  have hperm : (sortFields fs).Perm fs := List.perm_insertionSort _ fs
  rw [encode_obj, ← (hperm.map fun f => fieldWidth floatRepr f + 1).sum_nat]
  cases hsort : sortFields fs with
  | nil => exact absurd (hsort ▸ hperm).nil_eq.symm h
  | cons f gs =>
    rw [commas_cons, List.length_cons, List.length_append, List.length_append, length_tails,
      length_encodeField, List.map_cons, List.sum_cons, List.length_singleton]
    simp only [length_encodeField]
    omega

end Json
