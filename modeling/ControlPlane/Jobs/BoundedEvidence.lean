import ControlPlane.Jobs.Command
import ControlPlane.Lib.Widths

/-!
# The size of operational evidence

Results of jobs are bounded before they are kept as evidence: a payload that is too large
is cut down to its first fields, the texts among them to their first characters. What is
counted are fields and characters, what is limited are bytes of the encoding.

## Main definitions

* `boundedEvidencePayloadWithin`: a payload cut down when it is larger than a limit.
* `FitsEvidence`: when what is returned is within the limit.

## Main results

* `encodedLength_truncatedPayload`: the size of what a payload is cut down to.
* `boundedEvidence_fits_iff`: what is returned is within the limit exactly when the payload
  is, or its first fields are small enough.
-/
namespace ControlPlane
open Json

/-- The decimal digits of an integer that the interpreter prints. -/
def maxStrDigits : ℕ := 4300

mutual

/-- Whether a value has an encoding: none of its integers is too long to be printed. -/
def serializable : Json → Bool
  | .int n => (Nat.repr n.natAbs).length ≤ maxStrDigits
  | .arr items => serializableItems items
  | .obj fields => serializableFields fields
  | .null | .bool _ | .float _ | .str _ => true

def serializableItems : List Json → Bool
  | [] => true
  | item :: items => serializable item && serializableItems items

def serializableFields : List (String × Json) → Bool
  | [] => true
  | (_, value) :: fields => serializable value && serializableFields fields

end

/-- The payload cut down to its first fields, with a note on what it was. -/
def truncatedPayload (rt : Runtime) (fields : List (String × Json)) : Json :=
  let kept := ((fields.insertionSort fun a b => a.1 ≤ b.1).take 64).map fun f =>
    (f.1, boundedField f.2)
  .obj <| (kept.filter fun f => f.1 ≠ "_truncation") ++
    [("_truncation", .obj
      [("byte_count", .int (encodedLength rt (.obj fields))), ("field_count", .int fields.length),
        ("truncated", .bool true)])]

/-- The bound of operational evidence with its limit as an argument, and with its refusal. -/
def boundedEvidencePayloadWithin (rt : Runtime) (maximumBytes : ℕ)
    (fields : List (String × Json)) : Except BackgroundJobError Json :=
  if serializable (.obj fields) = false then
    .error (.invalid "background job evidence is not JSON serializable")
  else if encodedLength rt (.obj fields) ≤ maximumBytes then .ok (.obj fields)
  else .ok (truncatedPayload rt fields)

/-- What the service keeps is bounded by 256 KiB. -/
theorem boundedEvidencePayloadWithin_eq {rt : Runtime} {fields : List (String × Json)}
    (h : serializable (.obj fields) = true) :
    boundedEvidencePayloadWithin rt (256 * 1024) fields =
      .ok (boundedEvidencePayload rt (.obj fields)) := by
  rw [boundedEvidencePayloadWithin, if_neg (by simp [h]), boundedEvidencePayload]
  split
  · rfl
  · rfl

/-! ### Widths -/

/-- The width of what is kept of a value. -/
def childWidth (rt : Runtime) : Json → ℕ
  | .str s => textWidth (s.toList.take 2048)
  | .arr _ | .obj _ => 38
  | child => encodedLength rt child

/-- The first fields in the order of their keys. -/
def keptFields (fields : List (String × Json)) : List (String × Json) :=
  ((fields.insertionSort fun a b => a.1 ≤ b.1).take 64).filter fun f => f.1 ≠ "_truncation"

/-- The number of characters that are left of a payload: those of the note on what it was,
and those of the fields kept beside it. -/
def truncatedWidth (rt : Runtime) (fields : List (String × Json)) : ℕ :=
  63 + (toString (encodedLength rt (.obj fields) : ℤ)).length +
    (toString (fields.length : ℤ)).length +
    ((keptFields fields).map fun f => textWidth f.1.toList + 1 + childWidth rt f.2 + 1).sum

/-- A payload within a limit, or whose first fields are. -/
def FitsEvidence (rt : Runtime) (maximumBytes : ℕ) (fields : List (String × Json)) : Prop :=
  serializable (.obj fields) = true →
    encodedLength rt (.obj fields) ≤ maximumBytes ∨ truncatedWidth rt fields ≤ maximumBytes

variable {rt : Runtime}

theorem encodedLength_obj {fields : List (String × Json)} (h : fields ≠ []) :
    encodedLength rt (.obj fields) =
      1 + (fields.map fun f => fieldWidth rt.floatRepr f + 1).sum :=
  length_encode_obj h

theorem encodedLength_truncated {typeName : String} (h : textWidth typeName.toList = 6) :
    encodedLength rt (.obj [("truncated", .bool true), ("value_type", .str typeName)]) = 38 := by
  have hkeys : textWidth "truncated".toList = 11 ∧ textWidth "value_type".toList = 12 := by
    decide
  have hflag : ((Json.bool true).encode rt.floatRepr).length = 4 := rfl
  rw [encodedLength_obj (List.cons_ne_nil _ _)]
  simp only [List.map_cons, List.map_nil, List.sum_cons, List.sum_nil, fieldWidth, hkeys, hflag,
    encode_str, length_encodeString, h, Nat.add_zero, Nat.reduceAdd]

theorem encodedLength_boundedField (child : Json) :
    encodedLength rt (boundedField child) = childWidth rt child := by
  cases child with
  | str s =>
    rw [boundedField, encodedLength, encode_str, length_encodeString, String.toList_ofList]
    rfl
  | arr items => exact encodedLength_truncated (show textWidth "list".toList = 6 by decide)
  | obj fields => exact encodedLength_truncated (show textWidth "dict".toList = 6 by decide)
  | _ => rfl

/-- The width of the note on what a payload was. -/
theorem fieldWidth_truncation (bytes count : ℕ) :
    fieldWidth rt.floatRepr ("_truncation", .obj [("byte_count", .int bytes),
      ("field_count", .int count), ("truncated", .bool true)]) =
      61 + (toString (bytes : ℤ)).length + (toString (count : ℤ)).length := by
  have hkeys : textWidth "_truncation".toList = 13 ∧ textWidth "byte_count".toList = 12 ∧
      textWidth "field_count".toList = 13 ∧ textWidth "truncated".toList = 11 := by decide
  have hflag : ((Json.bool true).encode rt.floatRepr).length = 4 := rfl
  rw [fieldWidth, length_encode_obj (List.cons_ne_nil _ _)]
  simp only [List.map_cons, List.map_nil, List.sum_cons, List.sum_nil, fieldWidth, hkeys, hflag,
    encode_int, String.length_toList]
  omega

/-- The size of what a payload is cut down to. -/
theorem encodedLength_truncatedPayload (fields : List (String × Json)) :
    encodedLength rt (truncatedPayload rt fields) = truncatedWidth rt fields := by
  have hkept : ∀ f : String × Json,
      fieldWidth rt.floatRepr (f.1, boundedField f.2) = textWidth f.1.toList + 1 +
        childWidth rt f.2 := by
    intro f
    rw [fieldWidth, ← encodedLength_boundedField]
    rfl
  rw [truncatedPayload, encodedLength_obj (by simp), List.map_append, List.sum_append,
    List.map_singleton, List.sum_singleton, fieldWidth_truncation, List.filter_map, List.map_map,
    truncatedWidth]
  simp only [Function.comp_def, hkept, keptFields]
  omega

/-- A payload is kept within the limit exactly when it fits, or its first fields do beside
the note on what it was. -/
theorem boundedEvidence_fits_iff (rt : Runtime) (maximumBytes : ℕ)
    (fields : List (String × Json)) :
    (∀ payload, boundedEvidencePayloadWithin rt maximumBytes fields = .ok payload →
      encodedLength rt payload ≤ maximumBytes) ↔
    FitsEvidence rt maximumBytes fields := by
  unfold boundedEvidencePayloadWithin FitsEvidence
  by_cases hserial : serializable (.obj fields) = false
  · simp [hserial]
  · rw [if_neg hserial]
    rw [Bool.not_eq_false] at hserial
    by_cases hfits : encodedLength rt (.obj fields) ≤ maximumBytes
    · simp [hfits]
    · rw [if_neg hfits]
      constructor
      · intro h _
        have hpayload := h _ rfl
        rw [encodedLength_truncatedPayload] at hpayload
        exact .inr hpayload
      · rintro h payload hpayload
        obtain rfl := Except.ok.inj hpayload
        rw [encodedLength_truncatedPayload]
        exact (h hserial).resolve_left hfits

/-! ### A key that is too long -/

namespace BoundedEvidenceExample

def longKey (n : ℕ) : String := String.ofList (List.replicate n 'k')

theorem textWidth_longKey (n : ℕ) : textWidth (longKey n).toList = 2 + n := by
  have hk : charWidth 'k' = 1 := by decide
  rw [longKey, String.toList_ofList, textWidth_replicate, hk, Nat.mul_one]

/-- The only field of a payload is kept, unless it has the name of the note. -/
theorem keptFields_singleton {f : String × Json} (h : f.1 ≠ "_truncation") :
    keptFields [f] = [f] := by
  simp [keptFields, h]

theorem longKey_ne {n : ℕ} (h : 11 < n) : longKey n ≠ "_truncation" := by
  intro heq
  have hwidth := textWidth_longKey n
  have hnote : textWidth "_truncation".toList = 13 := by decide
  rw [heq, hnote] at hwidth
  omega

/-- A payload of one field is not within a limit that its key exceeds. -/
theorem not_fitsEvidence {n : ℕ} (h : 11 < n) :
    ¬ FitsEvidence .plain n [(longKey n, .null)] := by
  intro hfits
  rcases hfits rfl with hle | hle
  · rw [encodedLength_obj (List.cons_ne_nil _ _), List.map_singleton, List.sum_singleton,
      fieldWidth, textWidth_longKey] at hle
    omega
  · rw [truncatedWidth, keptFields_singleton (longKey_ne h), List.map_singleton,
      List.sum_singleton, textWidth_longKey] at hle
    omega

end BoundedEvidenceExample

open BoundedEvidenceExample in
/-- Keys are kept as they are. -/
theorem not_boundedEvidence_fits : ¬ ∀ payload,
    boundedEvidencePayloadWithin .plain (256 * 1024) [(longKey (256 * 1024), .null)] =
      .ok payload → encodedLength .plain payload ≤ 256 * 1024 :=
  fun h => not_fitsEvidence (by decide) ((boundedEvidence_fits_iff _ _ _).mp h)

end ControlPlane
