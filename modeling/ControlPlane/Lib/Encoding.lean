import ControlPlane.Lib.Json
import Mathlib.Data.List.Sort

/-!
# The canonical encoding tells values apart

An encoded value can be followed by a comma or a closing bracket, and ends where that begins.
Two values whose objects have the same keys, each once and in the same order, therefore have one
encoding only when they are the same. The encoding sorts the fields of an object, so values
that differ in the order of their keys have one encoding too.

## Main definitions

* `Json.Aligned`: two values without fractions whose objects have the same keys.

## Main results

* `Json.Aligned.eq_of_encode`
-/
namespace Json

/-! ### Numerals -/

theorem nat_repr_injective : Function.Injective Nat.repr := by
  intro m n h
  have hdigits : Nat.toDigits 10 m = Nat.toDigits 10 n := by
    rw [← Nat.toList_repr, ← Nat.toList_repr, h]
  rw [← Nat.ofDigitChars_ten_toDigits (n := m), hdigits, Nat.ofDigitChars_ten_toDigits]

theorem isDigit_of_mem_repr {n : ℕ} {c : Char} (h : c ∈ (Nat.repr n).toList) :
    c.isDigit = true := by
  rw [Nat.toList_repr] at h
  exact Nat.isDigit_of_mem_toDigits (by decide) le_rfl h

/-- A decimal numeral of a natural number has no sign. -/
theorem nat_repr_ne_neg (m n : ℕ) : Nat.repr m ≠ "-" ++ Nat.repr n := by
  intro h
  have hmem : '-' ∈ (Nat.repr m).toList := by
    rw [h]
    simp
  have hdigit := isDigit_of_mem_repr hmem
  revert hdigit
  decide

theorem toString_int_ne (n : ℤ) : toString n ≠ "" := by
  intro h
  have hchars : (toString n).toList = [] := by rw [h]; rfl
  cases n with
  | ofNat m => simp [toString, Int.repr, Nat.repr] at hchars
  | negSucc m => simp [toString, Int.repr] at hchars

theorem toString_int_injective : Function.Injective (toString : ℤ → String) := by
  intro a b h
  cases a with
  | ofNat m =>
    cases b with
    | ofNat n => exact congrArg Int.ofNat (nat_repr_injective h)
    | negSucc n => exact absurd h (nat_repr_ne_neg m (n + 1))
  | negSucc m =>
    cases b with
    | ofNat n => exact absurd h.symm (nat_repr_ne_neg n (m + 1))
    | negSucc n =>
      have hrepr : Nat.repr (m + 1) = Nat.repr (n + 1) := by
        have hlists := congrArg String.toList h
        change ("-" ++ Nat.repr (m + 1)).toList = ("-" ++ Nat.repr (n + 1)).toList at hlists
        rw [String.toList_append, String.toList_append] at hlists
        exact String.toList_injective (List.append_cancel_left hlists)
      exact congrArg Int.negSucc (Nat.succ_injective (nat_repr_injective hrepr))

theorem mem_toString_int {n : ℤ} {c : Char} (h : c ∈ (toString n).toList) :
    c.isDigit = true ∨ c = '-' := by
  cases n with
  | ofNat m => exact Or.inl (isDigit_of_mem_repr h)
  | negSucc m =>
    change c ∈ ("-" ++ Nat.repr (m + 1)).toList at h
    rw [String.toList_append, List.mem_append] at h
    obtain hsign | hdigit := h
    · exact Or.inr (List.mem_singleton.mp hsign)
    · exact Or.inl (isDigit_of_mem_repr hdigit)

/-! ### Texts -/

/-- The value of a lower-case hexadecimal digit. -/
def hexValue (c : Char) : ℕ := if c.toNat < 58 then c.toNat - 48 else c.toNat - 87

theorem hexValue_hexDigit : ∀ n < 16, hexValue (hexDigit n) = n := by decide

/-- The character after an escape, and what follows it. -/
def readUnit : List Char → Option (ℕ × List Char)
  | a :: b :: c :: d :: rest =>
    some (hexValue a * 4096 + hexValue b * 256 + hexValue c * 16 + hexValue d, rest)
  | _ => none

theorem readUnit_hex4 {n : ℕ} (h : n < 65536) (rest : List Char) :
    readUnit (hex4 n ++ rest) = some (n, rest) := by
  have ha := hexValue_hexDigit (n / 4096 % 16) (by omega)
  have hb := hexValue_hexDigit (n / 256 % 16) (by omega)
  have hc := hexValue_hexDigit (n / 16 % 16) (by omega)
  have hd := hexValue_hexDigit (n % 16) (by omega)
  simp only [hex4, List.cons_append, List.nil_append, readUnit, ha, hb, hc, hd,
    Option.some.injEq, Prod.mk.injEq, and_true]
  omega

/-- The characters that have an escape of their own. -/
def shortEscapes : List (Char × Char) :=
  [('"', '"'), ('\\', '\\'), ('n', '\n'), ('r', '\r'), ('t', '\t'), ('b', Char.ofNat 8),
    ('f', Char.ofNat 12)]

/-- The character of one or two code units, and what follows it. -/
def readUnits (chars : List Char) : Option (Char × List Char) :=
  (readUnit chars).bind fun (high, rest) =>
    if 55296 ≤ high ∧ high < 56320 then
      (readUnit (rest.drop 2)).map fun (low, rest) =>
        (Char.ofNat (65536 + (high - 55296) * 1024 + (low - 56320)), rest)
    else some (Char.ofNat high, rest)

/-- The first character of an escaped text, and what follows it. -/
def readChar : List Char → Option (Char × List Char)
  | '\\' :: 'u' :: rest => readUnits rest
  | '\\' :: e :: rest => (shortEscapes.lookup e).map fun c => (c, rest)
  | c :: rest => some (c, rest)
  | [] => none

theorem toNat_bounds (c : Char) : c.toNat < 55296 ∨ 57343 < c.toNat ∧ c.toNat < 1114112 := c.valid

/-- An escaped character is read back. -/
theorem readChar_escapeChar (c : Char) (rest : List Char) :
    readChar (escapeChar c ++ rest) = some (c, rest) := by
  unfold escapeChar
  split_ifs with hquote hslash hnewline hreturn htab hback hfeed hplain hunit
  · subst hquote
    rfl
  · subst hslash
    rfl
  · subst hnewline
    rfl
  · subst hreturn
    rfl
  · subst htab
    rfl
  · have hc : c = Char.ofNat 8 := by rw [← hback, Char.ofNat_toNat]
    subst hc
    rfl
  · have hc : c = Char.ofNat 12 := by rw [← hfeed, Char.ofNat_toNat]
    subst hc
    rfl
  · simp [readChar, hslash]
  · have hrange := toNat_bounds c
    have hnot : ¬ (55296 ≤ c.toNat ∧ c.toNat < 56320) := by omega
    change readUnits (hex4 c.toNat ++ rest) = some (c, rest)
    rw [readUnits, readUnit_hex4 hunit, Option.bind_some]
    dsimp only
    rw [if_neg hnot, Char.ofNat_toNat]
  · have hrange := toNat_bounds c
    have hhigh : 55296 + (c.toNat - 65536) / 1024 < 65536 := by omega
    have hlow : 56320 + (c.toNat - 65536) % 1024 < 65536 := by omega
    have hbounds : 55296 ≤ 55296 + (c.toNat - 65536) / 1024 ∧
        55296 + (c.toNat - 65536) / 1024 < 56320 := by omega
    have hvalue : 65536 + (55296 + (c.toNat - 65536) / 1024 - 55296) * 1024 +
        (56320 + (c.toNat - 65536) % 1024 - 56320) = c.toNat := by omega
    rw [List.append_assoc, List.append_assoc, List.append_assoc]
    change readUnits (hex4 _ ++ ('\\' :: 'u' :: (hex4 _ ++ rest))) = some (c, rest)
    rw [readUnits, readUnit_hex4 hhigh, Option.bind_some]
    dsimp only [List.drop]
    rw [if_pos hbounds, readUnit_hex4 hlow, Option.map_some, hvalue, Char.ofNat_toNat]

theorem escapeChar_inj {c d : Char} {r r' : List Char}
    (h : escapeChar c ++ r = escapeChar d ++ r') : c = d ∧ r = r' := by
  have hread := readChar_escapeChar c r
  rw [h, readChar_escapeChar, Option.some.injEq, Prod.mk.injEq] at hread
  exact ⟨hread.1.symm, hread.2.symm⟩

/-- An escape never begins with a quote. -/
theorem escapeChar_head (c : Char) : ∃ d rest, escapeChar c = d :: rest ∧ d ≠ '"' := by
  unfold escapeChar
  split_ifs <;> simp_all

/-- A quoted text ends where its quote does. -/
theorem encodeString_inj {s t : String} {r r' : List Char}
    (h : encodeString s ++ r = encodeString t ++ r') : s = t ∧ r = r' := by
  suffices hchars : ∀ cs ds : List Char,
      cs.flatMap escapeChar ++ '"' :: r = ds.flatMap escapeChar ++ '"' :: r' →
        cs = ds ∧ r = r' by
    simp only [encodeString, List.cons_append, List.append_assoc, List.nil_append,
      List.cons.injEq, true_and] at h
    obtain ⟨hst, hr⟩ := hchars _ _ h
    exact ⟨String.toList_injective hst, hr⟩
  intro cs
  induction cs with
  | nil =>
    intro ds h
    cases ds with
    | nil => exact ⟨rfl, (List.cons.inj h).2⟩
    | cons d ds =>
      obtain ⟨e, rest, he, hne⟩ := escapeChar_head d
      rw [List.flatMap_cons, he] at h
      exact absurd (List.cons.inj h).1.symm hne
  | cons c cs ih =>
    intro ds h
    cases ds with
    | nil =>
      obtain ⟨e, rest, he, hne⟩ := escapeChar_head c
      rw [List.flatMap_cons, he] at h
      exact absurd (List.cons.inj h).1 hne
    | cons d ds =>
      rw [List.flatMap_cons, List.flatMap_cons, List.append_assoc, List.append_assoc] at h
      obtain ⟨rfl, hrest⟩ := escapeChar_inj h
      obtain ⟨rfl, hr⟩ := ih ds hrest
      exact ⟨rfl, hr⟩

/-! ### Where a value ends -/

/-- What can follow an encoded value. -/
def Stops : List Char → Prop
  | [] => True
  | c :: _ => c = ',' ∨ c = ']' ∨ c = '}'

/-- The items of a list, each after a comma. -/
def tails {α : Type} (encoded : α → List Char) (as : List α) : List Char :=
  as.flatMap fun a => ',' :: encoded a

theorem commas_cons {α : Type} (encoded : α → List Char) (a : α) (as : List α) :
    commas ((a :: as).map encoded) = encoded a ++ tails encoded as := by
  induction as generalizing a with
  | nil => simp [commas, tails]
  | cons b bs ih =>
    have hrest := ih b
    simp only [commas, List.map_cons] at hrest
    simp only [commas, List.map_cons, tails, List.flatMap_cons, List.cons_append]
    rw [List.intercalate_cons_cons, hrest, List.append_assoc]
    rfl

theorem stops_tails {α : Type} (encoded : α → List Char) (as : List α) {close : Char}
    (hclose : close = ']' ∨ close = '}') (r : List Char) :
    Stops (tails encoded as ++ close :: r) := by
  cases as with
  | nil => exact Or.inr hclose
  | cons a as => exact Or.inl rfl

/-- Two values are told apart by their encodings, whatever follows them. -/
def Separate {α : Type} (encoded : α → List Char) (a b : α) : Prop :=
  ∀ r r', Stops r → Stops r' → encoded a ++ r = encoded b ++ r' → a = b ∧ r = r'

section Lists
variable {α : Type} {encoded : α → List Char} {close : Char}

theorem tails_inj (hclose : close = ']' ∨ close = '}') {as bs : List α}
    (hseparate : ∀ a ∈ as, ∀ b ∈ bs, Separate encoded a b) {r r' : List Char}
    (h : tails encoded as ++ close :: r = tails encoded bs ++ close :: r') :
    as = bs ∧ r = r' := by
  have hcomma : close ≠ ',' := by
    rintro rfl
    simp at hclose
  induction as generalizing bs with
  | nil =>
    cases bs with
    | nil => exact ⟨rfl, (List.cons.inj h).2⟩
    | cons b bs => exact absurd (List.cons.inj h).1 hcomma
  | cons a as ih =>
    cases bs with
    | nil => exact absurd (List.cons.inj h).1.symm hcomma
    | cons b bs =>
      simp only [tails, List.flatMap_cons, List.cons_append, List.append_assoc, List.cons.injEq,
        true_and] at h
      obtain ⟨rfl, hrest⟩ := hseparate a List.mem_cons_self b List.mem_cons_self _ _
        (stops_tails encoded as hclose r) (stops_tails encoded bs hclose r') h
      obtain ⟨rfl, hr⟩ := ih (fun a ha b hb => hseparate a (List.mem_cons_of_mem _ ha) b
        (List.mem_cons_of_mem _ hb)) hrest
      exact ⟨rfl, hr⟩

/-- A bracketed list of values that are told apart is told apart. -/
theorem commas_inj (hclose : close = ']' ∨ close = '}')
    {as bs : List α} (hheads : ∀ a ∈ as ++ bs, ∀ r r', encoded a ++ r ≠ close :: r')
    (hseparate : ∀ a ∈ as, ∀ b ∈ bs, Separate encoded a b) {r r' : List Char}
    (h : commas (as.map encoded) ++ close :: r = commas (bs.map encoded) ++ close :: r') :
    as = bs ∧ r = r' := by
  cases as with
  | nil =>
    cases bs with
    | nil => exact ⟨rfl, (List.cons.inj h).2⟩
    | cons b bs =>
      rw [commas_cons, List.append_assoc] at h
      exact absurd h.symm (hheads b (List.mem_append_right _ List.mem_cons_self) _ _)
  | cons a as =>
    cases bs with
    | nil =>
      rw [commas_cons, List.append_assoc] at h
      exact absurd h (hheads a (List.mem_append_left _ List.mem_cons_self) _ _)
    | cons b bs =>
      rw [commas_cons, commas_cons, List.append_assoc, List.append_assoc] at h
      obtain ⟨rfl, hrest⟩ := hseparate a List.mem_cons_self b List.mem_cons_self _ _
        (stops_tails encoded as hclose r) (stops_tails encoded bs hclose r') h
      obtain ⟨rfl, hr⟩ := tails_inj hclose (fun a ha b hb => hseparate a
        (List.mem_cons_of_mem _ ha) b (List.mem_cons_of_mem _ hb)) hrest
      exact ⟨rfl, hr⟩

end Lists

/-! ### Words -/

/-- A value that is encoded without brackets or quotes. -/
def isWord : Json → Bool
  | null | bool _ | int _ => true
  | _ => false

def isScalar : Json → Bool
  | str _ => true
  | j => j.isWord

def isFloat : Json → Bool
  | float _ => true
  | _ => false

/-- A character of a word. -/
def wordChar (c : Char) : Bool := c.isDigit || c = '-' || c.isAlpha

section Values
variable {floatRepr : ℚ → List Char} {j j' : Json}

section Encodings
variable (floatRepr : ℚ → List Char)

theorem encode_null : null.encode floatRepr = "null".toList := rfl

theorem encode_true : (bool true).encode floatRepr = "true".toList := rfl

theorem encode_false : (bool false).encode floatRepr = "false".toList := rfl

theorem encode_int (n : ℤ) : (int n).encode floatRepr = (toString n).toList := rfl

theorem encode_str (s : String) : (str s).encode floatRepr = encodeString s := rfl

end Encodings

theorem wordChar_of_mem (h : j.isWord = true) {c : Char} (hc : c ∈ j.encode floatRepr) :
    wordChar c = true := by
  cases j with
  | null =>
    have hall : "null".toList.all wordChar = true := by decide
    exact List.all_eq_true.mp hall c hc
  | bool b =>
    have htrue : "true".toList.all wordChar = true := by decide
    have hfalse : "false".toList.all wordChar = true := by decide
    cases b with
    | true => exact List.all_eq_true.mp htrue c hc
    | false => exact List.all_eq_true.mp hfalse c hc
  | int n =>
    rw [encode_int] at hc
    obtain hdigit | rfl := mem_toString_int hc
    · simp [wordChar, hdigit]
    · decide
  | float _ | str _ | arr _ | obj _ => cases h

variable (floatRepr) in
theorem word_head (h : j.isWord = true) :
    ∃ c rest, j.encode floatRepr = c :: rest ∧ wordChar c = true := by
  cases hencode : j.encode floatRepr with
  | nil =>
    cases j with
    | null => simp [encode_null] at hencode
    | bool b => cases b <;> simp [encode_true, encode_false] at hencode
    | int n =>
      have hempty : (toString n).toList = [] := hencode
      exact absurd (String.toList_eq_nil_iff.mp hempty) (toString_int_ne n)
    | float _ | str _ | arr _ | obj _ => cases h
  | cons c rest =>
    exact ⟨c, rest, rfl, wordChar_of_mem h (hencode ▸ List.mem_cons_self)⟩

variable (floatRepr) in
/-- What is not a word begins with a quote or a bracket. -/
theorem bracket_head (h : j.isWord = false) (hfloat : j.isFloat = false) :
    ∃ c rest, j.encode floatRepr = c :: rest ∧ (c = '"' ∨ c = '[' ∨ c = '{') := by
  cases j with
  | null | bool _ | int _ => cases h
  | float _ => cases hfloat
  | str s => exact ⟨_, _, rfl, Or.inl rfl⟩
  | arr xs => exact ⟨_, _, rfl, Or.inr (Or.inl rfl)⟩
  | obj fs => exact ⟨_, _, rfl, Or.inr (Or.inr rfl)⟩

theorem chars_inj {as bs r r' : List Char} (has : ∀ c ∈ as, wordChar c = true)
    (hbs : ∀ c ∈ bs, wordChar c = true) (hr : Stops r) (hr' : Stops r')
    (h : as ++ r = bs ++ r') : as = bs ∧ r = r' := by
  have hstop {c : Char} {rest : List Char} (hstops : Stops (c :: rest)) : wordChar c = false := by
    obtain rfl | rfl | rfl := hstops <;> decide
  induction as generalizing bs with
  | nil =>
    cases bs with
    | nil => exact ⟨rfl, h⟩
    | cons b bs =>
      rw [List.nil_append] at h
      rw [h] at hr
      exact absurd (hbs b List.mem_cons_self) (by simp [hstop hr])
  | cons a as ih =>
    cases bs with
    | nil =>
      rw [List.nil_append] at h
      rw [← h] at hr'
      exact absurd (has a List.mem_cons_self) (by simp [hstop hr'])
    | cons b bs =>
      obtain ⟨rfl, hrest⟩ := List.cons.inj h
      obtain ⟨rfl, hr⟩ := ih (fun c hc => has c (List.mem_cons_of_mem _ hc))
        (fun c hc => hbs c (List.mem_cons_of_mem _ hc)) hrest
      exact ⟨rfl, hr⟩

theorem int_ne_letters {n : ℤ} {letters : String} {c : Char} (hc : c ∈ letters.toList)
    (hletter : c.isDigit = false ∧ c ≠ '-') : (toString n).toList ≠ letters.toList := by
  intro h
  obtain hdigit | hsign := mem_toString_int (h ▸ hc)
  · rw [hletter.1] at hdigit
    cases hdigit
  · exact hletter.2 hsign

theorem word_inj (h : j.isWord = true) (h' : j'.isWord = true)
    (hsame : j.encode floatRepr = j'.encode floatRepr) : j = j' := by
  have hnull (n : ℤ) : (toString n).toList ≠ "null".toList :=
    int_ne_letters (c := 'n') (by decide) (by decide)
  have htrue (n : ℤ) : (toString n).toList ≠ "true".toList :=
    int_ne_letters (c := 't') (by decide) (by decide)
  have hfalse (n : ℤ) : (toString n).toList ≠ "false".toList :=
    int_ne_letters (c := 'f') (by decide) (by decide)
  rcases j with _ | (_ | _) | n | _ | _ | _ | _ <;>
    rcases j' with _ | (_ | _) | m | _ | _ | _ | _ <;>
    simp only [isWord, Bool.false_eq_true] at h h' <;>
    simp only [encode_null, encode_true, encode_false, encode_int] at hsame
  all_goals first
    | rfl
    | exact absurd hsame (by decide)
    | exact absurd hsame (hnull _)
    | exact absurd hsame (htrue _)
    | exact absurd hsame (hfalse _)
    | exact absurd hsame.symm (hnull _)
    | exact absurd hsame.symm (htrue _)
    | exact absurd hsame.symm (hfalse _)
    | exact congrArg int (toString_int_injective (String.toList_injective hsame))

/-- A word and what is not one begin differently. -/
theorem word_ne_bracket (h : j.isWord = true) (h' : j'.isWord = false)
    (hfloat : j'.isFloat = false) (r r' : List Char) :
    j.encode floatRepr ++ r ≠ j'.encode floatRepr ++ r' := by
  intro hsame
  obtain ⟨c, rest, hc, hword⟩ := word_head floatRepr h
  obtain ⟨d, rest', hd, hbracket⟩ := bracket_head floatRepr h' hfloat
  rw [hc, hd] at hsame
  obtain rfl := (List.cons.inj hsame).1
  obtain rfl | rfl | rfl := hbracket <;> revert hword <;> decide

theorem separate_scalar (h : j.isScalar = true ∨ j'.isScalar = true) (hj : j.isFloat = false)
    (hj' : j'.isFloat = false) : Separate (encode floatRepr) j j' := by
  intro r r' hr hr' hsame
  cases hword : j.isWord with
  | true =>
    cases hword' : j'.isWord with
    | true =>
      obtain ⟨hencode, hrest⟩ := chars_inj (fun c => wordChar_of_mem hword)
        (fun c => wordChar_of_mem hword') hr hr' hsame
      exact ⟨word_inj hword hword' hencode, hrest⟩
    | false => exact absurd hsame (word_ne_bracket hword hword' hj' r r')
  | false =>
    cases hword' : j'.isWord with
    | true => exact absurd hsame.symm (word_ne_bracket hword' hword hj r' r)
    | false =>
      cases j <;> cases j' <;> simp only [isScalar, isWord, isFloat, Bool.false_eq_true, or_self,
        reduceCtorEq] at h hj hj' hword hword' <;> simp only [encode] at hsame
      case str.str =>
        obtain ⟨rfl, hrest⟩ := encodeString_inj hsame
        exact ⟨rfl, hrest⟩
      all_goals
        simp only [encodeString, List.cons_append, List.cons.injEq] at hsame
        exact absurd hsame.1 (by decide)

/-! ### Aligned values -/

/-- Two values without fractions whose objects have the same keys, each once and in the same
order. -/
inductive Aligned : Json → Json → Prop
  | scalar {j j' : Json} (h : j.isScalar = true ∨ j'.isScalar = true) (hj : j.isFloat = false)
    (hj' : j'.isFloat = false) : Aligned j j'
  | items {xs ys : List Json} (hfloat : ∀ x ∈ xs ++ ys, x.isFloat = false)
    (h : ∀ x ∈ xs, ∀ y ∈ ys, Aligned x y) : Aligned (arr xs) (arr ys)
  | fields {fs gs : List (String × Json)} (hkeys : fs.map Prod.fst = gs.map Prod.fst)
    (hnodup : (fs.map Prod.fst).Nodup)
    (h : ∀ f ∈ fs, ∀ g ∈ gs, f.1 = g.1 → Aligned f.2 g.2) : Aligned (obj fs) (obj gs)

@[simp] theorem aligned_str (s t : String) : Aligned (str s) (str t) := .scalar (Or.inl rfl) rfl rfl

@[simp] theorem aligned_int (m n : ℤ) : Aligned (int m) (int n) := .scalar (Or.inl rfl) rfl rfl

@[simp] theorem aligned_bool (a b : Bool) : Aligned (bool a) (bool b) :=
  .scalar (Or.inl rfl) rfl rfl

theorem aligned_strs {α β : Type} (f : α → String) (g : β → String) (as : List α) (bs : List β) :
    Aligned (arr (as.map fun a => str (f a))) (arr (bs.map fun b => str (g b))) := by
  refine .items (fun x hx => ?_) fun x hx y hy => ?_
  · obtain hx | hx := List.mem_append.mp hx <;> obtain ⟨_, -, rfl⟩ := List.mem_map.mp hx <;> rfl
  · obtain ⟨_, -, rfl⟩ := List.mem_map.mp hx
    obtain ⟨_, -, rfl⟩ := List.mem_map.mp hy
    exact aligned_str _ _

theorem keys_eq_of_forall₂ {fs gs : List (String × Json)}
    (h : List.Forall₂ (fun f g => f.1 = g.1 ∧ Aligned f.2 g.2) fs gs) :
    fs.map Prod.fst = gs.map Prod.fst := by
  induction h with
  | nil => rfl
  | cons hfg _ ih => rw [List.map_cons, List.map_cons, hfg.1, ih]

/-- Objects with the same keys are aligned when their values are, key by key. -/
theorem Aligned.record (keys : List String) {fs gs : List (String × Json)}
    (hkeys : fs.map Prod.fst = keys) (hnodup : keys.Nodup)
    (h : List.Forall₂ (fun f g => f.1 = g.1 ∧ Aligned f.2 g.2) fs gs) :
    Aligned (obj fs) (obj gs) := by
  subst hkeys
  refine .fields (keys_eq_of_forall₂ h) hnodup ?_
  induction h with
  | nil => exact fun f hf => absurd hf List.not_mem_nil
  | @cons f g fs gs hfg hrest ih =>
    rw [List.map_cons, List.nodup_cons] at hnodup
    have hgs : gs.map Prod.fst = fs.map Prod.fst := (keys_eq_of_forall₂ hrest).symm
    intro a ha b hb hab
    obtain rfl | ha := List.mem_cons.mp ha
    · obtain rfl | hb := List.mem_cons.mp hb
      · exact hfg.2
      · exact absurd (hgs ▸ hab ▸ List.mem_map_of_mem hb) hnodup.1
    · obtain rfl | hb := List.mem_cons.mp hb
      · exact absurd ((hfg.1.trans hab.symm) ▸ List.mem_map_of_mem ha) hnodup.1
      · exact ih hnodup.2 a ha b hb hab

/-- The encoding of a field. -/
def encodeField (floatRepr : ℚ → List Char) (f : String × Json) : List Char :=
  encodeString f.1 ++ ':' :: f.2.encode floatRepr

/-- The fields of an object in the order of their keys. -/
def sortFields (fs : List (String × Json)) : List (String × Json) :=
  fs.insertionSort fun a b => a.1 ≤ b.1

theorem encodeItems_eq_map (xs : List Json) :
    encodeItems floatRepr xs = xs.map (encode floatRepr) := by
  induction xs with
  | nil => simp [encodeItems]
  | cons x xs ih => simp [encodeItems, ih]

theorem encodeFields_eq_map (fs : List (String × Json)) :
    encodeFields floatRepr fs = fs.map fun f => (f.1, f.2.encode floatRepr) := by
  induction fs with
  | nil => simp [encodeFields]
  | cons f fs ih => simp [encodeFields, ih]

theorem encode_obj (fs : List (String × Json)) : (obj fs).encode floatRepr =
    '{' :: (commas ((sortFields fs).map (encodeField floatRepr)) ++ ['}']) := by
  have hsort := List.map_insertionSort (fun a b : String × Json => a.1 ≤ b.1)
    (fun a b : String × List Char => a.1 ≤ b.1) (fun f => (f.1, f.2.encode floatRepr)) fs
    fun _ _ _ _ => Iff.rfl
  rw [encode, encodeFields_eq_map, ← hsort, List.map_map]
  rfl

/-- Lists with the same distinct keys in the same order that are permutations are the same. -/
theorem eq_of_perm {fs gs : List (String × Json)} (hkeys : fs.map Prod.fst = gs.map Prod.fst)
    (hnodup : (fs.map Prod.fst).Nodup) (h : fs.Perm gs) : fs = gs := by
  induction fs generalizing gs with
  | nil => exact h.nil_eq
  | cons f fs ih =>
    cases gs with
    | nil => exact absurd h.eq_nil (List.cons_ne_nil _ _)
    | cons g gs =>
      rw [List.map_cons, List.map_cons, List.cons.injEq] at hkeys
      rw [List.map_cons, List.nodup_cons] at hnodup
      have hfg : f = g := by
        obtain heq | hmem := List.mem_cons.mp (h.subset List.mem_cons_self)
        · exact heq
        · exact absurd (hkeys.2 ▸ List.mem_map_of_mem hmem) hnodup.1
      subst hfg
      rw [ih hkeys.2 hnodup.2 (List.perm_cons f |>.mp h)]

theorem Aligned.separate (h : Aligned j j') : Separate (encode floatRepr) j j' := by
  induction h with
  | scalar h hj hj' => exact separate_scalar h hj hj'
  | @items xs ys hfloat _ ih =>
    intro r r' _ _ hsame
    rw [encode, encode, encodeItems_eq_map, encodeItems_eq_map, List.cons_append, List.cons_append,
      List.append_assoc, List.append_assoc] at hsame
    have hheads : ∀ x ∈ xs ++ ys, ∀ r r', x.encode floatRepr ++ r ≠ ']' :: r' := by
      intro x hx r r' heq
      cases hword : x.isWord with
      | true =>
        obtain ⟨c, rest, hc, hchar⟩ := word_head floatRepr hword
        rw [hc] at heq
        obtain rfl := (List.cons.inj heq).1
        revert hchar
        decide
      | false =>
        obtain ⟨c, rest, hc, hbracket⟩ := bracket_head floatRepr hword (hfloat x hx)
        rw [hc] at heq
        obtain rfl := (List.cons.inj heq).1
        simp at hbracket
    obtain ⟨rfl, hr⟩ := commas_inj (Or.inl rfl) hheads ih (List.cons.inj hsame).2
    exact ⟨rfl, hr⟩
  | @fields fs gs hkeys hnodup _ ih =>
    intro r r' _ _ hsame
    rw [encode_obj, encode_obj, List.cons_append, List.cons_append, List.append_assoc,
      List.append_assoc] at hsame
    have hheads : ∀ f ∈ sortFields fs ++ sortFields gs, ∀ r r',
        encodeField floatRepr f ++ r ≠ '}' :: r' := by
      intro f _ r r' heq
      simp only [encodeField, encodeString, List.cons_append] at heq
      exact absurd (List.cons.inj heq).1 (by decide)
    have hseparate : ∀ f ∈ sortFields fs, ∀ g ∈ sortFields gs,
        Separate (encodeField floatRepr) f g := by
      intro f hf g hg r r' hr hr' heq
      simp only [encodeField, List.append_assoc, List.cons_append] at heq
      obtain ⟨hkey, hrest⟩ := encodeString_inj heq
      obtain ⟨hvalue, hr⟩ := ih f ((List.mem_insertionSort _).mp hf) g
        ((List.mem_insertionSort _).mp hg) hkey r r' hr hr' (List.cons.inj hrest).2
      exact ⟨Prod.ext hkey hvalue, hr⟩
    obtain ⟨hsorted, hr⟩ := commas_inj (Or.inr rfl) hheads hseparate (List.cons.inj hsame).2
    have hperm : fs.Perm gs := (List.perm_insertionSort _ fs).symm.trans
      ((List.Perm.of_eq hsorted).trans (List.perm_insertionSort _ gs))
    exact ⟨congrArg obj (eq_of_perm hkeys hnodup hperm), hr⟩

/-- Aligned values with one encoding are the same. -/
theorem Aligned.eq_of_encode (h : Aligned j j')
    (hsame : j.encode floatRepr = j'.encode floatRepr) : j = j' :=
  (h.separate [] [] trivial trivial (congrArg (· ++ []) hsame)).1

end Values

end Json
