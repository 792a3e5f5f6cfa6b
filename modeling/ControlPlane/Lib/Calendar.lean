import ControlPlane.Lib.Regex
import Mathlib.Tactic.Ring
import Mathlib.Tactic.NormNum

/-!
# Dates and ISO 8601 timestamps

The proleptic Gregorian calendar by day numbers, and timestamps in UTC with microseconds
as `isoformat` prints them. A point in time is the number of microseconds since the start
of year 1; an `Instant` is one that a datetime can represent.

## Main results

* `toOrdinal_ofOrdinal`: a day number is recovered from its date.
* `parseTimestamp_timestamp`: reading a printed timestamp gives the time back.
-/
namespace Calendar

/-- A date of the proleptic Gregorian calendar, without its invariant. -/
structure Date where
  year : ℕ
  month : ℕ
  day : ℕ
  deriving DecidableEq, Repr

def isLeap (year : ℕ) : Bool := year % 4 == 0 && (year % 100 != 0 || year % 400 == 0)

def daysInMonth (leap : Bool) : ℕ → ℕ
  | 2 => if leap then 29 else 28
  | 4 | 6 | 9 | 11 => 30
  | _ => 31

/-- Days of a year before a month. -/
def daysBeforeMonth (leap : Bool) (month : ℕ) : ℕ :=
  ((List.range (month - 1)).map fun m => daysInMonth leap (m + 1)).sum

/-- Days before a year, the first year being 1. -/
def daysBeforeYear (year : ℕ) : ℕ :=
  let y := year - 1
  y * 365 + y / 4 - y / 100 + y / 400

/-- The number of a day, counted from zero. -/
def toOrdinal (d : Date) : ℕ :=
  daysBeforeYear d.year + daysBeforeMonth (isLeap d.year) d.month + (d.day - 1)

/-- The month and day of a day of the year: the first month that has it. -/
def monthDay (leap : Bool) (dayOfYear : ℕ) : ℕ × ℕ :=
  let month := ((List.range 12).filter fun m => daysBeforeMonth leap (m + 1) ≤ dayOfYear).length
  (month, dayOfYear - daysBeforeMonth leap month + 1)

/-- The date of a day number: cycles of 400, 100, 4 years and one year, the last day of a
cycle apart. -/
def ofOrdinal (n : ℕ) : Date :=
  let n400 := n / 146097
  let n100 := n % 146097 / 36524
  let n4 := n % 146097 % 36524 / 1461
  let n1 := n % 146097 % 36524 % 1461 / 365
  let rest := n % 146097 % 36524 % 1461 % 365
  let year := n400 * 400 + n100 * 100 + n4 * 4 + n1 + 1
  if n1 = 4 ∨ n100 = 4 then ⟨year - 1, 12, 31⟩
  else
    let leap := n1 = 3 ∧ (n4 ≠ 24 ∨ n100 = 3)
    let md := monthDay (decide leap) rest
    ⟨year, md.1, md.2⟩

theorem monthDay_spec : ∀ leap : Bool, ∀ n < 366,
    daysBeforeMonth leap (monthDay leap n).1 + ((monthDay leap n).2 - 1) = n := by
  decide +kernel

theorem monthDay_bounds : ∀ leap : Bool, ∀ n < 366,
    (monthDay leap n).1 < 100 ∧ (monthDay leap n).2 < 400 := by
  decide +kernel

theorem daysBeforeMonth_december (leap : Bool) :
    daysBeforeMonth leap 12 = 334 + leap.toNat := by
  cases leap <;> decide

/-- The days before a year that is split into its cycles. -/
theorem daysBeforeYear_cycles {a b c d : ℕ} (hb : b ≤ 3) (hc : c ≤ 24) (hd : d ≤ 3) :
    daysBeforeYear (a * 400 + b * 100 + c * 4 + d + 1) =
      a * 146097 + b * 36524 + c * 1461 + d * 365 := by
  simp only [daysBeforeYear, Nat.add_sub_cancel]
  omega

theorem isLeap_cycles {a b c d : ℕ} (hb : b ≤ 3) (hc : c ≤ 24) (hd : d ≤ 3) :
    isLeap (a * 400 + b * 100 + c * 4 + d + 1) = decide (d = 3 ∧ (c ≠ 24 ∨ b = 3)) := by
  rw [Bool.eq_iff_iff]
  simp only [isLeap, Bool.and_eq_true, Bool.or_eq_true, beq_iff_eq, bne_iff_ne, ne_eq,
    decide_eq_true_eq]
  omega

/-- A day number is recovered from its date. -/
theorem toOrdinal_ofOrdinal (n : ℕ) : toOrdinal (ofOrdinal n) = n := by
  obtain ⟨a, ha⟩ : ∃ a, a = n / 146097 := ⟨_, rfl⟩
  obtain ⟨b, hb⟩ : ∃ b, b = n % 146097 / 36524 := ⟨_, rfl⟩
  obtain ⟨c, hc⟩ : ∃ c, c = n % 146097 % 36524 / 1461 := ⟨_, rfl⟩
  obtain ⟨d, hd⟩ : ∃ d, d = n % 146097 % 36524 % 1461 / 365 := ⟨_, rfl⟩
  obtain ⟨e, he⟩ : ∃ e, e = n % 146097 % 36524 % 1461 % 365 := ⟨_, rfl⟩
  have hn : n = a * 146097 + b * 36524 + c * 1461 + d * 365 + e := by omega
  have hbound : b ≤ 4 ∧ c ≤ 24 ∧ d ≤ 4 ∧ e < 365 := by omega
  have hday : (d = 4 → e = 0 ∧ b ≤ 3 ∧ (c ≠ 24 ∨ b = 3)) ∧ (b = 4 → c = 0 ∧ d = 0 ∧ e = 0) := by
    omega
  by_cases hlast : d = 4 ∨ b = 4
  · -- The last day of a leap year, or of a cycle of 400 years.
    have hdate : ofOrdinal n = ⟨a * 400 + b * 100 + c * 4 + d, 12, 31⟩ := by
      simp only [ofOrdinal, ← ha, ← hb, ← hc, ← hd, hlast, if_true, Nat.add_sub_cancel]
    rw [hdate, toOrdinal]
    dsimp only
    rw [daysBeforeMonth_december]
    rcases hlast with hd4 | hb4
    · obtain ⟨he0, hb3, hc24⟩ := hday.1 hd4
      have hyear : a * 400 + b * 100 + c * 4 + d = a * 400 + b * 100 + c * 4 + 3 + 1 := by omega
      have hdays := (congrArg daysBeforeYear hyear).trans
        (daysBeforeYear_cycles hb3 hbound.2.1 (le_refl 3))
      have hleap := (congrArg isLeap hyear).trans (isLeap_cycles hb3 hbound.2.1 (le_refl 3))
      simp only [hdays, hleap, hc24, and_true, decide_true, Bool.toNat_true]
      clear hdays hleap hyear hdate hday hbound ha hb hc hd he
      omega
    · obtain ⟨hc0, hd0, he0⟩ := hday.2 hb4
      have hyear : a * 400 + b * 100 + c * 4 + d = a * 400 + 3 * 100 + 24 * 4 + 3 + 1 := by omega
      have hdays := (congrArg daysBeforeYear hyear).trans
        (daysBeforeYear_cycles (a := a) (b := 3) (c := 24) (d := 3) le_rfl le_rfl le_rfl)
      have hleap := (congrArg isLeap hyear).trans
        (isLeap_cycles (a := a) (b := 3) (c := 24) (d := 3) le_rfl le_rfl le_rfl)
      simp only [hdays, hleap, or_true, and_true, decide_true, Bool.toNat_true]
      clear hdays hleap hyear hdate hday hbound ha hb hc hd he
      omega
  · have hb3 : b ≤ 3 := by omega
    have hd3 : d ≤ 3 := by omega
    have hdate : ofOrdinal n = ⟨a * 400 + b * 100 + c * 4 + d + 1,
        (monthDay (decide (d = 3 ∧ (c ≠ 24 ∨ b = 3))) e).1,
        (monthDay (decide (d = 3 ∧ (c ≠ 24 ∨ b = 3))) e).2⟩ := by
      simp only [ofOrdinal, ← ha, ← hb, ← hc, ← hd, ← he, hlast, if_false]
    have hspec := monthDay_spec (decide (d = 3 ∧ (c ≠ 24 ∨ b = 3))) e (by omega)
    rw [hdate, toOrdinal]
    simp only [isLeap_cycles hb3 hbound.2.1 hd3, daysBeforeYear_cycles hb3 hbound.2.1 hd3]
    omega

/-! ### Timestamps -/

/-- The first microsecond after the year 9999. -/
def endOfTime : ℕ := 3652059 * 86400000000

/-- A point in time that a datetime represents. -/
abbrev Instant := { t : ℕ // t < endOfTime }

/-- The `w` last decimal digits of a number. -/
def pad (w n : ℕ) : List Char :=
  (List.range w).map fun i => Char.ofNat (48 + n / 10 ^ (w - 1 - i) % 10)

/-- The timestamp with microseconds and the suffix of UTC. -/
def timestampChars (t : ℕ) : List Char :=
  let date := ofOrdinal (t / 86400000000)
  let micros := t % 86400000000
  pad 4 date.year ++ '-' :: (pad 2 date.month ++ '-' :: (pad 2 date.day ++ 'T' ::
    (pad 2 (micros / 3600000000) ++ ':' :: (pad 2 (micros / 60000000 % 60) ++ ':' ::
    (pad 2 (micros / 1000000 % 60) ++ '.' :: (pad 6 (micros % 1000000) ++ ['Z']))))))

def timestamp (t : ℕ) : String := String.ofList (timestampChars t)

/-- The number some decimal digits stand for. -/
def readDigits (cs : List Char) : Option ℕ :=
  cs.foldl (fun acc c => acc.bind fun n =>
    if '0' ≤ c ∧ c ≤ '9' then some (n * 10 + (c.toNat - 48)) else none) (some 0)

/-- Read a timestamp of the printed form. -/
def parseTimestampChars (cs : List Char) : Option ℕ := do
  if cs.length ≠ 27 then none
  if cs[4]? ≠ some '-' ∨ cs[7]? ≠ some '-' ∨ cs[10]? ≠ some 'T' ∨ cs[13]? ≠ some ':' ∨
      cs[16]? ≠ some ':' ∨ cs[19]? ≠ some '.' ∨ cs[26]? ≠ some 'Z' then none
  let year ← readDigits (cs.take 4)
  let month ← readDigits ((cs.drop 5).take 2)
  let day ← readDigits ((cs.drop 8).take 2)
  let hour ← readDigits ((cs.drop 11).take 2)
  let minute ← readDigits ((cs.drop 14).take 2)
  let second ← readDigits ((cs.drop 17).take 2)
  let micro ← readDigits ((cs.drop 20).take 6)
  if year = 0 ∨ month = 0 ∨ 12 < month ∨ day = 0 ∨ daysInMonth (isLeap year) month < day ∨
      23 < hour ∨ 59 < minute ∨ 59 < second then none
  return toOrdinal ⟨year, month, day⟩ * 86400000000 + hour * 3600000000 + minute * 60000000 +
    second * 1000000 + micro

def parseTimestamp (s : String) : Option ℕ := parseTimestampChars s.toList

/-! ### A printed timestamp is read back -/

theorem readDigits_map {ds : List ℕ} (h : ∀ d ∈ ds, d < 10) (n : ℕ) :
    (ds.map fun d => Char.ofNat (48 + d)).foldl (fun acc c => acc.bind fun n =>
      if '0' ≤ c ∧ c ≤ '9' then some (n * 10 + (c.toNat - 48)) else none) (some n) =
      some (ds.foldl (fun n d => n * 10 + d) n) := by
  induction ds generalizing n with
  | nil => rfl
  | cons d ds ih =>
    have hdigit : ∀ d < 10, ('0' ≤ Char.ofNat (48 + d) ∧ Char.ofNat (48 + d) ≤ '9') ∧
        (Char.ofNat (48 + d)).toNat - 48 = d := by decide
    obtain ⟨hrange, hvalue⟩ := hdigit d (h d List.mem_cons_self)
    rw [List.map_cons, List.foldl_cons, Option.bind_some, if_pos hrange, hvalue]
    exact ih (fun e he => h e (List.mem_cons_of_mem _ he)) _

/-- The leading digits of a number. -/
theorem foldl_digits (n w : ℕ) {k : ℕ} (hk : k ≤ w) :
    ((List.range k).map fun i => n / 10 ^ (w - 1 - i) % 10).foldl (fun n d => n * 10 + d) 0 =
      n / 10 ^ (w - k) % 10 ^ k := by
  induction k with
  | zero => simp [Nat.mod_one]
  | succ k ih =>
    rw [List.range_succ, List.map_append, List.foldl_append, ih (by omega)]
    simp only [List.map_singleton, List.foldl_cons, List.foldl_nil]
    have hpow : w - k = w - 1 - k + 1 := by omega
    have hlast : w - (k + 1) = w - 1 - k := by omega
    rw [hpow, Nat.pow_succ, ← Nat.div_div_eq_div_mul, hlast, Nat.pow_succ,
      Nat.mul_comm (10 ^ k) 10, Nat.mod_mul]
    omega

theorem readDigits_pad {w n : ℕ} (h : n < 10 ^ w) : readDigits (pad w n) = some n := by
  have hmap : pad w n =
      ((List.range w).map fun i => n / 10 ^ (w - 1 - i) % 10).map fun d => Char.ofNat (48 + d) := by
    simp [pad, Function.comp_def]
  have hlt : ∀ d ∈ (List.range w).map fun i => n / 10 ^ (w - 1 - i) % 10, d < 10 := by
    intro d hd
    obtain ⟨i, -, rfl⟩ := List.mem_map.mp hd
    exact Nat.mod_lt _ (by decide)
  rw [readDigits, hmap, readDigits_map hlt, foldl_digits n w le_rfl]
  simp [Nat.mod_eq_of_lt h]

theorem monthDay_valid : ∀ leap : Bool, ∀ n < 365,
    1 ≤ (monthDay leap n).1 ∧ (monthDay leap n).1 ≤ 12 ∧ 1 ≤ (monthDay leap n).2 ∧
      (monthDay leap n).2 ≤ daysInMonth leap (monthDay leap n).1 := by
  decide +kernel

/-- A date whose month and day exist. -/
structure Date.Valid (d : Date) : Prop where
  year : 1 ≤ d.year ∧ d.year ≤ 9999
  month : 1 ≤ d.month ∧ d.month ≤ 12
  day : 1 ≤ d.day ∧ d.day ≤ daysInMonth (isLeap d.year) d.month

theorem daysInMonth_le (leap : Bool) (month : ℕ) : daysInMonth leap month ≤ 31 := by
  unfold daysInMonth
  split
  · split <;> omega
  · omega
  · omega
  · omega
  · omega
  · omega

/-- The days up to the year 9999 have valid dates. -/
theorem ofOrdinal_valid {n : ℕ} (h : n < 3652059) : (ofOrdinal n).Valid := by
  obtain ⟨a, ha⟩ : ∃ a, a = n / 146097 := ⟨_, rfl⟩
  obtain ⟨b, hb⟩ : ∃ b, b = n % 146097 / 36524 := ⟨_, rfl⟩
  obtain ⟨c, hc⟩ : ∃ c, c = n % 146097 % 36524 / 1461 := ⟨_, rfl⟩
  obtain ⟨d, hd⟩ : ∃ d, d = n % 146097 % 36524 % 1461 / 365 := ⟨_, rfl⟩
  obtain ⟨e, he⟩ : ∃ e, e = n % 146097 % 36524 % 1461 % 365 := ⟨_, rfl⟩
  have hn : n = a * 146097 + b * 36524 + c * 1461 + d * 365 + e := by omega
  have hbound : b ≤ 4 ∧ c ≤ 24 ∧ d ≤ 4 ∧ e < 365 := by omega
  by_cases hlast : d = 4 ∨ b = 4
  · have hdate : ofOrdinal n = ⟨a * 400 + b * 100 + c * 4 + d, 12, 31⟩ := by
      simp only [ofOrdinal, ← ha, ← hb, ← hc, ← hd, hlast, if_true, Nat.add_sub_cancel]
    rw [hdate]
    refine ⟨⟨?_, ?_⟩, ⟨(by decide : 1 ≤ 12), (le_refl 12)⟩, (by decide : 1 ≤ 31), (le_refl 31)⟩
    · change 1 ≤ a * 400 + b * 100 + c * 4 + d
      omega
    · change a * 400 + b * 100 + c * 4 + d ≤ 9999
      omega
  · have hb3 : b ≤ 3 := by omega
    have hd3 : d ≤ 3 := by omega
    have hdate : ofOrdinal n = ⟨a * 400 + b * 100 + c * 4 + d + 1,
        (monthDay (decide (d = 3 ∧ (c ≠ 24 ∨ b = 3))) e).1,
        (monthDay (decide (d = 3 ∧ (c ≠ 24 ∨ b = 3))) e).2⟩ := by
      simp only [ofOrdinal, ← ha, ← hb, ← hc, ← hd, ← he, hlast, if_false]
    have hvalid := monthDay_valid (decide (d = 3 ∧ (c ≠ 24 ∨ b = 3))) e hbound.2.2.2
    rw [← isLeap_cycles (a := a) hb3 hbound.2.1 hd3] at hvalid hdate
    rw [hdate]
    refine ⟨⟨?_, ?_⟩, ⟨hvalid.1, hvalid.2.1⟩, hvalid.2.2⟩
    · change 1 ≤ a * 400 + b * 100 + c * 4 + d + 1
      omega
    · change a * 400 + b * 100 + c * 4 + d + 1 ≤ 9999
      omega

theorem parseTimestamp_timestamp (t : Instant) : parseTimestamp (timestamp t) = some t.val := by
  obtain ⟨t, ht⟩ := t
  have hday : t / 86400000000 < 3652059 := by
    rw [endOfTime] at ht
    omega
  obtain ⟨date, hdate⟩ : ∃ date, date = ofOrdinal (t / 86400000000) := ⟨_, rfl⟩
  have hordinal : toOrdinal date = t / 86400000000 := by rw [hdate, toOrdinal_ofOrdinal]
  have hvalid : date.Valid := hdate ▸ ofOrdinal_valid hday
  have hday31 := hvalid.day.2.trans (daysInMonth_le _ _)
  have hyear : readDigits ((timestampChars t).take 4) = some date.year := by
    rw [hdate] at hvalid ⊢
    exact readDigits_pad (w := 4) (lt_of_le_of_lt hvalid.year.2 (by decide))
  have hmonth : readDigits (((timestampChars t).drop 5).take 2) = some date.month := by
    rw [hdate] at hvalid ⊢
    exact readDigits_pad (w := 2) (lt_of_le_of_lt hvalid.month.2 (by decide))
  have hdayOf : readDigits (((timestampChars t).drop 8).take 2) = some date.day := by
    rw [hdate] at hday31 ⊢
    exact readDigits_pad (w := 2) (lt_of_le_of_lt hday31 (by decide))
  obtain ⟨micros, hmicros⟩ : ∃ micros, micros = t % 86400000000 := ⟨_, rfl⟩
  have hhour : readDigits (((timestampChars t).drop 11).take 2) = some (micros / 3600000000) := by
    rw [hmicros]
    exact readDigits_pad (w := 2) (by omega)
  have hminute : readDigits (((timestampChars t).drop 14).take 2) =
      some (micros / 60000000 % 60) := by
    rw [hmicros]
    exact readDigits_pad (w := 2) (by omega)
  have hsecond : readDigits (((timestampChars t).drop 17).take 2) =
      some (micros / 1000000 % 60) := by
    rw [hmicros]
    exact readDigits_pad (w := 2) (by omega)
  have hmicro : readDigits (((timestampChars t).drop 20).take 6) = some (micros % 1000000) := by
    rw [hmicros]
    exact readDigits_pad (w := 6) (by omega)
  have hlength : (timestampChars t).length = 27 := rfl
  have hseparators : ¬ ((timestampChars t)[4]? ≠ some '-' ∨ (timestampChars t)[7]? ≠ some '-' ∨
      (timestampChars t)[10]? ≠ some 'T' ∨ (timestampChars t)[13]? ≠ some ':' ∨
      (timestampChars t)[16]? ≠ some ':' ∨ (timestampChars t)[19]? ≠ some '.' ∨
      (timestampChars t)[26]? ≠ some 'Z') := by
    simp only [not_or, not_not]
    exact ⟨rfl, rfl, rfl, rfl, rfl, rfl, rfl⟩
  have hfields : ¬ (date.year = 0 ∨ date.month = 0 ∨ 12 < date.month ∨ date.day = 0 ∨
      daysInMonth (isLeap date.year) date.month < date.day ∨ 23 < micros / 3600000000 ∨
      59 < micros / 60000000 % 60 ∨ 59 < micros / 1000000 % 60) := by
    have hy := hvalid.year.1
    have hm := hvalid.month
    have hd := hvalid.day
    omega
  have hparts : t / 86400000000 * 86400000000 + micros / 3600000000 * 3600000000 +
      micros / 60000000 % 60 * 60000000 + micros / 1000000 % 60 * 1000000 +
      micros % 1000000 = t := by
    omega
  simp only [parseTimestamp, timestamp, String.toList_ofList, parseTimestampChars, hlength,
    ne_eq, not_true, if_false, hseparators, hyear, hmonth, hdayOf, hhour, hminute, hsecond, hmicro,
    Option.bind_eq_bind, Option.bind_some, hfields, hordinal, hparts]
  rfl

/-! ### Timestamps of a datetime -/

/-- The timestamp of a datetime in UTC: the fraction is left out when it is zero. -/
def isoChars (t : ℕ) : List Char :=
  if t % 1000000 = 0 then (timestampChars t).take 19 ++ ['Z'] else timestampChars t

def isoTimestamp (t : ℕ) : String := String.ofList (isoChars t)

/-- Read a timestamp of either form. -/
def parseIsoTimestamp (s : String) : Option ℕ :=
  if s.length = 20 then parseTimestampChars (s.toList.take 19 ++ ".000000Z".toList)
  else parseTimestampChars s.toList

/-- Reading a printed timestamp gives the time back. -/
theorem parseIsoTimestamp_isoTimestamp (t : Instant) :
    parseIsoTimestamp (isoTimestamp t) = some t.val := by
  have hparse : parseTimestampChars (timestampChars t.val) = some t.val := by
    have := parseTimestamp_timestamp t
    rwa [parseTimestamp, timestamp, String.toList_ofList] at this
  have hlength : (timestampChars t.val).length = 27 := rfl
  by_cases hfraction : t.val % 1000000 = 0
  · have hchars : (timestampChars t.val).take 19 ++ ".000000Z".toList = timestampChars t.val := by
      have hmicro : t.val % 86400000000 % 1000000 = 0 := by omega
      have hdrop : (timestampChars t.val).drop 19 = ".000000Z".toList := by
        have hpad : pad 6 (t.val % 86400000000 % 1000000) = "000000".toList := by
          rw [hmicro]
          decide
        exact congrArg (fun digits => '.' :: (digits ++ ['Z'])) hpad
      rw [← hdrop, List.take_append_drop]
    have htake : ((timestampChars t.val).take 19 ++ ['Z']).take 19 = (timestampChars t.val).take 19 :=
      List.take_left' (by simp [hlength])
    simp only [parseIsoTimestamp, isoTimestamp, isoChars, hfraction, if_true,
      String.length_ofList, List.length_append, List.length_take, hlength, String.toList_ofList,
      htake, hchars, hparse]
    rfl
  · simp only [parseIsoTimestamp, isoTimestamp, isoChars, hfraction, if_false,
      String.length_ofList, hlength, String.toList_ofList, hparse]
    rfl

end Calendar
