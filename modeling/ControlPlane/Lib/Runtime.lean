import ControlPlane.Lib.Calendar
import ControlPlane.Lib.Uuid

/-!
# The language runtime

What a program takes from its interpreter and is not computed here: the Unicode tables,
the printing of floats, and digests. Digests are only known to have the right form;
results that need two digests to differ say so.
-/

/-- What reading an ISO 8601 text gives. -/
inductive IsoReading where
  | malformed
  /-- A datetime without an offset. -/
  | naive
  /-- A datetime with an offset that leaves the calendar when it is converted to UTC. -/
  | outOfRange
  /-- A datetime with an offset, in UTC. -/
  | aware (t : Calendar.Instant)

structure Runtime where
  unicode : Unicode
  /-- The shortest decimal that reads back as the same float. -/
  floatRepr : ℚ → List Char
  /-- The hexadecimal SHA-256 digest of the UTF-8 bytes of a text. -/
  sha256 : String → String
  sha256_fits : ∀ text, Regex.Fits (UUID.hexShape 64) (sha256 text).toList
  /-- The name-based identifier of a text in the namespace of URLs. -/
  uuid5 : String → UUID
  /-- The datetime an ISO 8601 text stands for. -/
  fromIsoformat : String → IsoReading
  /-- A printed datetime is read back. -/
  fromIsoformat_isoTimestamp : ∀ t : Calendar.Instant,
    fromIsoformat (Calendar.isoTimestamp t) = .aware t

namespace Runtime
variable (rt : Runtime)

/-- The canonical encoding of a value. -/
def dumps (j : Json) : String := String.ofList (j.encode rt.floatRepr)

/-- The digest of the canonical encoding. -/
def fingerprint (j : Json) : String := rt.sha256 (rt.dumps j)

/-- A runtime for concrete inputs whose outcome depends on no table and no digest. -/
def plain : Runtime where
  unicode := .ascii
  floatRepr := fun _ => []
  sha256 := fun _ => String.ofList (List.replicate 64 '0')
  sha256_fits := by
    intro text
    rw [String.toList_ofList]
    have hmem : ∀ c ∈ List.replicate 64 '0', c ∈ UUID.hexAlphabet := by
      intro c hc
      rw [List.eq_of_mem_replicate hc]
      decide
    exact Regex.Fits.replicate hmem
  uuid5 := fun name => .ofNat (5000 + name.length)
  fromIsoformat := fun text =>
    match Calendar.parseIsoTimestamp text with
    | some t => if h : t < Calendar.endOfTime then .aware ⟨t, h⟩ else .malformed
    | none => .malformed
  fromIsoformat_isoTimestamp := by
    intro t
    simp only [Calendar.parseIsoTimestamp_isoTimestamp, t.property, dif_pos]

@[simp] theorem length_sha256 (text : String) : (rt.sha256 text).length = 64 := by
  have hfits := (rt.sha256_fits text).length_eq
  rw [← String.length_toList, ← hfits]
  rfl

end Runtime
