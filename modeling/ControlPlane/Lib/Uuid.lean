import ControlPlane.Lib.Json
import ControlPlane.Lib.Regex
import ControlPlane.Lib.Unicode
import Mathlib.Algebra.Group.Nat.Defs

/-!
# Universally unique identifiers

A UUID is a 128-bit number. Its text form is eight, four, four, four and twelve lower-case
hexadecimal digits between dashes; `UUID.parse` reads every form the constructor of the
standard library accepts.
-/

structure UUID where
  bits : BitVec 128
  deriving DecidableEq, Inhabited

namespace UUID

/-- The UUID of a small number, for concrete inputs. -/
def ofNat (n : ℕ) : UUID := ⟨BitVec.ofNat 128 n⟩

/-- Digit `i` of the thirty-two hexadecimal digits, the most significant one first. -/
def digit (u : UUID) (i : ℕ) : ℕ := u.bits.toNat / 16 ^ (31 - i) % 16

/-- Digits `lo` up to `lo + n`. -/
def hexRange (u : UUID) (lo n : ℕ) : List Char :=
  (List.range n).map fun i => Json.hexDigit (u.digit (lo + i))

def chars (u : UUID) : List Char :=
  u.hexRange 0 8 ++ '-' :: (u.hexRange 8 4 ++ '-' :: (u.hexRange 12 4 ++ '-' ::
    (u.hexRange 16 4 ++ '-' :: u.hexRange 20 12)))

/-- The text form. -/
def str (u : UUID) : String := String.ofList u.chars

/-! ### Order -/

/-- Identifiers are ordered as numbers. -/
instance : LE UUID := ⟨fun a b => a.bits.toNat ≤ b.bits.toNat⟩

instance (a b : UUID) : Decidable (a ≤ b) := inferInstanceAs (Decidable (_ ≤ _))

/-! ### The text form determines the identifier -/

@[simp] theorem toList_str (u : UUID) : u.str.toList = u.chars := by simp [str]

@[simp] theorem length_hexRange (u : UUID) (lo n : ℕ) : (u.hexRange lo n).length = n := by
  simp [hexRange]

@[simp] theorem length_chars (u : UUID) : u.chars.length = 36 := by simp [chars]

theorem hexDigit_injective {a b : ℕ} (ha : a < 16) (hb : b < 16)
    (h : Json.hexDigit a = Json.hexDigit b) : a = b := by
  have hall : ∀ a < 16, ∀ b < 16, Json.hexDigit a = Json.hexDigit b → a = b := by decide
  exact hall a ha b hb h

theorem digit_lt (u : UUID) (i : ℕ) : u.digit i < 16 := Nat.mod_lt _ (by decide)

theorem digit_eq_of_hexRange_eq {u v : UUID} {lo n i : ℕ}
    (h : u.hexRange lo n = v.hexRange lo n) (hi : i < n) :
    u.digit (lo + i) = v.digit (lo + i) := by
  have hget : (u.hexRange lo n)[i]? = (v.hexRange lo n)[i]? := by rw [h]
  simp only [hexRange, List.getElem?_map, List.getElem?_range hi, Option.map_some,
    Option.some.injEq] at hget
  exact hexDigit_injective (u.digit_lt _) (v.digit_lt _) hget

/-- A number below a power of sixteen is determined by its hexadecimal digits. -/
theorem eq_of_hexDigits_eq (n : ℕ) {a b : ℕ} (ha : a < 16 ^ n) (hb : b < 16 ^ n)
    (h : ∀ i < n, a / 16 ^ i % 16 = b / 16 ^ i % 16) : a = b := by
  induction n generalizing a b with
  | zero =>
    have ha' : a = 0 := by omega
    have hb' : b = 0 := by omega
    rw [ha', hb']
  | succ n ih =>
    have hlow : a % 16 = b % 16 := by simpa using h 0 (Nat.succ_pos n)
    rw [Nat.pow_succ] at ha hb
    have hhigh : a / 16 = b / 16 := by
      refine ih ?_ ?_ fun i hi => ?_
      · exact (Nat.div_lt_iff_lt_mul (by decide)).mpr ha
      · exact (Nat.div_lt_iff_lt_mul (by decide)).mpr hb
      · have := h (i + 1) (by omega)
        simpa only [Nat.pow_succ', Nat.div_div_eq_div_mul] using this
    omega

theorem chars_injective {u v : UUID} (h : u.chars = v.chars) : u = v := by
  simp only [chars] at h
  obtain ⟨h0, h⟩ := List.append_inj h (by simp)
  obtain ⟨h1, h⟩ := List.append_inj (List.cons.inj h).2 (by simp)
  obtain ⟨h2, h⟩ := List.append_inj (List.cons.inj h).2 (by simp)
  obtain ⟨h3, h⟩ := List.append_inj (List.cons.inj h).2 (by simp)
  have h4 := (List.cons.inj h).2
  have hdigit : ∀ i < 32, u.digit i = v.digit i := by
    intro i hi
    by_cases hi0 : i < 8
    · simpa using digit_eq_of_hexRange_eq h0 hi0
    by_cases hi1 : i < 12
    · have := digit_eq_of_hexRange_eq h1 (show i - 8 < 4 by omega)
      rwa [show 8 + (i - 8) = i by omega] at this
    by_cases hi2 : i < 16
    · have := digit_eq_of_hexRange_eq h2 (show i - 12 < 4 by omega)
      rwa [show 12 + (i - 12) = i by omega] at this
    by_cases hi3 : i < 20
    · have := digit_eq_of_hexRange_eq h3 (show i - 16 < 4 by omega)
      rwa [show 16 + (i - 16) = i by omega] at this
    · have := digit_eq_of_hexRange_eq h4 (show i - 20 < 12 by omega)
      rwa [show 20 + (i - 20) = i by omega] at this
  have hbits : u.bits.toNat = v.bits.toNat := by
    refine eq_of_hexDigits_eq 32 ?_ ?_ fun i hi => ?_
    · exact lt_of_lt_of_eq u.bits.isLt (by decide)
    · exact lt_of_lt_of_eq v.bits.isLt (by decide)
    · have := hdigit (31 - i) (by omega)
      simpa only [digit, show 31 - (31 - i) = i by omega] using this
  exact congrArg UUID.mk (BitVec.eq_of_toNat_eq hbits)

theorem str_injective : Function.Injective str := by
  intro u v h
  have : u.str.toList = v.str.toList := by rw [h]
  simp only [toList_str] at this
  exact chars_injective this

@[simp] theorem str_inj {u v : UUID} : u.str = v.str ↔ u = v := str_injective.eq_iff

/-! ### The shape of the text form -/

def hexAlphabet : List Char :=
  ['0', '1', '2', '3', '4', '5', '6', '7', '8', '9', 'a', 'b', 'c', 'd', 'e', 'f']

/-- `n` hexadecimal digits. -/
def hexShape (n : ℕ) : Regex.Shape := List.replicate n hexAlphabet

/-- Hexadecimal digits and four dashes. -/
def shape : Regex.Shape :=
  hexShape 8 ++ ['-'] :: (hexShape 4 ++ ['-'] :: (hexShape 4 ++ ['-'] ::
    (hexShape 4 ++ ['-'] :: hexShape 12)))

theorem hexDigit_mem (n : ℕ) (h : n < 16) : Json.hexDigit n ∈ hexAlphabet := by
  revert n
  decide

theorem fits_hexRange (u : UUID) (lo n : ℕ) : Regex.Fits (hexShape n) (u.hexRange lo n) := by
  have hmem : ∀ c ∈ u.hexRange lo n, c ∈ hexAlphabet := by
    intro c hc
    obtain ⟨i, -, rfl⟩ := List.mem_map.mp hc
    exact hexDigit_mem _ (u.digit_lt _)
  have := Regex.Fits.replicate hmem
  rwa [length_hexRange] at this

theorem fits_chars (u : UUID) : Regex.Fits shape u.chars :=
  (u.fits_hexRange 0 8).append <| .cons (List.mem_singleton_self _) <|
    (u.fits_hexRange 8 4).append <| .cons (List.mem_singleton_self _) <|
    (u.fits_hexRange 12 4).append <| .cons (List.mem_singleton_self _) <|
    (u.fits_hexRange 16 4).append <| .cons (List.mem_singleton_self _) <|
    u.fits_hexRange 20 12

/-! ### Reading -/

/-- Every occurrence of a part removed, from the left. Fuel bounds the characters left. -/
def removeAll (part : List Char) : ℕ → List Char → List Char
  | 0, text => text
  | _ + 1, [] => []
  | fuel + 1, c :: text =>
    if part.isPrefixOf (c :: text) then removeAll part fuel ((c :: text).drop part.length)
    else c :: removeAll part fuel text

def hexDigit? (u : Unicode) (c : Char) : Option ℕ :=
  match u.digit? c with
  | some d => some d
  | none =>
    if 'a' ≤ c ∧ c ≤ 'f' then some (c.toNat - 87)
    else if 'A' ≤ c ∧ c ≤ 'F' then some (c.toNat - 55)
    else none

/-- Hexadecimal digits, with single underscores between them. -/
def readDigits (u : Unicode) (n : ℕ) : List Char → Option ℕ
  | [] => none
  | c :: cs =>
    match hexDigit? u c, cs with
    | none, _ => none
    | some d, [] => some (n * 16 + d)
    | some d, '_' :: cs => readDigits u (n * 16 + d) cs
    | some d, c' :: cs => readDigits u (n * 16 + d) (c' :: cs)

/-- A number without its plus sign. -/
def unsigned : List Char → List Char
  | '+' :: cs => cs
  | cs => cs

/-- A number without the prefix of its base. -/
def withoutBase : List Char → List Char
  | '0' :: 'x' :: '_' :: cs | '0' :: 'X' :: '_' :: cs => cs
  | '0' :: 'x' :: cs | '0' :: 'X' :: cs => cs
  | cs => cs

/-- An integer in base sixteen: white space around it, a sign and a base prefix are
allowed. The texts read here have no minus sign. -/
def readHex (u : Unicode) (cs : List Char) : Option ℕ :=
  readDigits u 0 (withoutBase (unsigned (u.strip cs)))

/-- The identifier a text denotes: prefixes, braces and dashes do not matter. -/
def parse (u : Unicode) (text : String) : Option UUID :=
  let cs := removeAll "urn:".toList text.length text.toList
  let cs := removeAll "uuid:".toList cs.length cs
  let isBrace : Char → Bool := fun c => c == '{' || c == '}'
  let cs := ((cs.dropWhile isBrace).rdropWhile isBrace).filter (· ≠ '-')
  if cs.length = 32 then (readHex u cs).map fun n => ⟨BitVec.ofNat 128 n⟩ else none

/-! ### The text form is read back -/

theorem removeAll_of_not_mem {p : Char} {part text : List Char} (h : p ∉ text) (fuel : ℕ) :
    removeAll (p :: part) fuel text = text := by
  induction fuel generalizing text with
  | zero => rfl
  | succ fuel ih =>
    cases text with
    | nil => rfl
    | cons c text =>
      obtain ⟨hne, htext⟩ : p ≠ c ∧ p ∉ text := by simpa using h
      have hprefix : (p :: part).isPrefixOf (c :: text) = false := by
        simp [List.isPrefixOf, hne]
      rw [removeAll, hprefix, ih htext]
      rfl

theorem mem_hexRange {u : UUID} {lo n : ℕ} {c : Char} (h : c ∈ u.hexRange lo n) :
    c ∈ hexAlphabet := by
  obtain ⟨i, -, rfl⟩ := List.mem_map.mp h
  exact hexDigit_mem _ (u.digit_lt _)

theorem hexRange_append (u : UUID) (lo m n : ℕ) :
    u.hexRange lo m ++ u.hexRange (lo + m) n = u.hexRange lo (m + n) := by
  simp [hexRange, List.range_add, Function.comp_def, Nat.add_assoc]

theorem filter_hexRange (u : UUID) (lo n : ℕ) :
    (u.hexRange lo n).filter (· ≠ '-') = u.hexRange lo n := by
  refine List.filter_eq_self.mpr ?_
  intro c hc
  have hne : ∀ c ∈ hexAlphabet, decide (c ≠ '-') = true := List.all_eq_true.mp (by decide)
  exact hne c (mem_hexRange hc)

/-- Without its dashes the text form is thirty-two digits. -/
theorem filter_chars (u : UUID) : u.chars.filter (· ≠ '-') = u.hexRange 0 32 := by
  have hcons : ∀ cs : List Char, ('-' :: cs).filter (· ≠ '-') = cs.filter (· ≠ '-') :=
    fun cs => List.filter_cons_of_neg (by decide)
  rw [chars, List.filter_append, hcons, List.filter_append, hcons, List.filter_append, hcons,
    List.filter_append, hcons]
  simp only [filter_hexRange]
  rw [u.hexRange_append 16 4 12, u.hexRange_append 12 4 16, u.hexRange_append 8 4 20,
    u.hexRange_append 0 8 24]

theorem mem_chars {u : UUID} {c : Char} (h : c ∈ u.chars) : c ∈ '-' :: hexAlphabet := by
  by_cases hdash : c = '-'
  · rw [hdash]
    exact List.mem_cons_self
  · have hmem : c ∈ u.chars.filter (· ≠ '-') := List.mem_filter.mpr ⟨h, by simpa using hdash⟩
    rw [filter_chars] at hmem
    exact List.mem_cons_of_mem _ (mem_hexRange hmem)

theorem hexDigit?_hexDigit (u : Unicode) {n : ℕ} (h : n < 16) :
    hexDigit? u (Json.hexDigit n) = some n := by
  have hascii : ∀ n < 16, Unicode.isAscii (Json.hexDigit n) = true := by decide
  have hplain : ∀ n < 16, hexDigit? .ascii (Json.hexDigit n) = some n := by decide
  rw [← hplain n h, hexDigit?, hexDigit?, Unicode.digit?, Unicode.digit?, hascii n h]
  rfl

theorem readDigits_map (u : Unicode) (n : ℕ) {ds : List ℕ} (hne : ds ≠ [])
    (h : ∀ d ∈ ds, d < 16) :
    readDigits u n (ds.map Json.hexDigit) = some (ds.foldl (fun n d => n * 16 + d) n) := by
  induction ds generalizing n with
  | nil => exact absurd rfl hne
  | cons d ds ih =>
    have hd := hexDigit?_hexDigit u (h d List.mem_cons_self)
    cases ds with
    | nil => simp [readDigits, hd]
    | cons d' ds =>
      have hd' : Json.hexDigit d' ≠ '_' := by
        have hall : ∀ n < 16, Json.hexDigit n ≠ '_' := by decide
        exact hall d' (h d' (List.mem_cons_of_mem _ List.mem_cons_self))
      have hrest := ih (n * 16 + d) (List.cons_ne_nil _ _)
        fun e he => h e (List.mem_cons_of_mem _ he)
      have hstep : readDigits u n ((d :: d' :: ds).map Json.hexDigit) =
          readDigits u (n * 16 + d) ((d' :: ds).map Json.hexDigit) := by
        simp [readDigits, hd]
      rw [hstep, hrest]
      rfl

/-- The digits of a number give the number. -/
theorem foldl_digit (u : UUID) {k : ℕ} (hk : k ≤ 32) :
    ((List.range k).map u.digit).foldl (fun n d => n * 16 + d) 0 =
      u.bits.toNat / 16 ^ (32 - k) := by
  induction k with
  | zero =>
    have hlt : u.bits.toNat < 16 ^ 32 := lt_of_lt_of_eq u.bits.isLt (by decide)
    simpa using (Nat.div_eq_of_lt hlt).symm
  | succ k ih =>
    rw [List.range_succ, List.map_append, List.foldl_append, ih (by omega)]
    simp only [List.map_singleton, List.foldl_cons, List.foldl_nil, digit]
    have hpow : 32 - k = 31 - k + 1 := by omega
    have hlast : 32 - (k + 1) = 31 - k := by omega
    rw [hpow, Nat.pow_succ, ← Nat.div_div_eq_div_mul, hlast]
    omega

/-- A text over the hexadecimal alphabet is read as digits. -/
theorem readHex_of_mem (u : Unicode) {cs : List Char} (h : ∀ c ∈ cs, c ∈ hexAlphabet) :
    readHex u cs = readDigits u 0 cs := by
  have halnum : ∀ c ∈ hexAlphabet, Unicode.asciiAlnum c = true :=
    List.all_eq_true.mp (by decide)
  have hstrip : u.strip cs = cs := u.strip_eq_self_of_alnum fun c hc => halnum c (h c hc)
  have hx : 'x' ∉ cs := fun hc => absurd (h _ hc) (by decide)
  have hX : 'X' ∉ cs := fun hc => absurd (h _ hc) (by decide)
  have hplus : '+' ∉ cs := fun hc => absurd (h _ hc) (by decide)
  have hunsigned : unsigned cs = cs := by
    unfold unsigned
    split
    · exact absurd List.mem_cons_self hplus
    · rfl
  have hbase : withoutBase cs = cs := by
    unfold withoutBase
    split
    · exact absurd (List.mem_cons_of_mem _ List.mem_cons_self) hx
    · exact absurd (List.mem_cons_of_mem _ List.mem_cons_self) hX
    · exact absurd (List.mem_cons_of_mem _ List.mem_cons_self) hx
    · exact absurd (List.mem_cons_of_mem _ List.mem_cons_self) hX
    · rfl
  rw [readHex, hstrip, hunsigned, hbase]

/-- The text form is read back. -/
theorem parse_str (u : Unicode) (id : UUID) : parse u id.str = some id := by
  have hurn : 'u' ∉ id.chars := fun hc => absurd (mem_chars hc) (by decide)
  have hbrace : ∀ c ∈ id.chars, (c == '{' || c == '}') = false := by
    intro c hc
    have hall : ∀ c ∈ '-' :: hexAlphabet, (!(c == '{' || c == '}')) = true :=
      List.all_eq_true.mp (by decide)
    simpa using hall c (mem_chars hc)
  have hdrop : id.chars.dropWhile (fun c => c == '{' || c == '}') = id.chars := by
    cases hcs : id.chars with
    | nil => rfl
    | cons c cs => simp [hbrace c (hcs ▸ List.mem_cons_self)]
  have hrdrop : id.chars.rdropWhile (fun c => c == '{' || c == '}') = id.chars := by
    rcases List.eq_nil_or_concat id.chars with hcs | ⟨init, c, hcs⟩
    · rw [hcs]
      rfl
    · have hc := hbrace c (by rw [hcs]; simp)
      rw [hcs, List.concat_eq_append, List.rdropWhile_concat, hc]
      rfl
  have hdigits : id.hexRange 0 32 = ((List.range 32).map id.digit).map Json.hexDigit := by
    simp [hexRange, Function.comp_def]
  have hread : readHex u (id.hexRange 0 32) = some id.bits.toNat := by
    rw [readHex_of_mem u fun c hc => mem_hexRange hc, hdigits, readDigits_map u 0 (by simp) ?_,
      id.foldl_digit le_rfl]
    · simp
    · intro d hd
      obtain ⟨i, -, rfl⟩ := List.mem_map.mp hd
      exact id.digit_lt i
  simp only [parse, toList_str]
  rw [show "urn:".toList = 'u' :: "rn:".toList from rfl,
    show "uuid:".toList = 'u' :: "uid:".toList from rfl, removeAll_of_not_mem hurn,
    removeAll_of_not_mem hurn, hdrop, hrdrop, filter_chars, length_hexRange, if_pos rfl, hread,
    Option.map_some]
  simp

end UUID
