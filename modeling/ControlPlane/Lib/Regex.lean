import Mathlib.Data.List.Forall2
import Mathlib.Data.List.Infix

/-!
# Backtracking regular expressions

The matcher of a backtracking regular-expression engine as a list of successes in
priority order, `subn` over it, and a static analysis that shows that an expression
matches nowhere in any text of a given shape. Expressions are data over any type of
character classes; what a class holds of is a parameter of the matcher.

## Main definitions

* `Re.run`: all ways an expression can match at a cursor, preferred ones first.
* `Re.subn`: replace every leftmost, preferred, non-overlapping match and count them.
* `Re.inert`: a computable test; an inert expression leaves every text of the shape alone.
* `Re.blocked`: a cheaper test, for texts of any length over an alphabet.
-/
namespace Regex

/-- A position in a text: the characters already read, last one first, the characters
left, and the text captured by the group. -/
structure Cursor where
  seen : List Char
  rest : List Char
  captured : Option (List Char) := none
  deriving DecidableEq, Repr

/-- Expressions over character classes, with one capture group. -/
inductive Re (κ : Type) where
  | eps
  | fail
  | char (k : κ)
  | seq (a b : Re κ)
  | alt (a b : Re κ)
  /-- `many greedy lo hi r`: from `lo` to `hi` repetitions. -/
  | many (greedy : Bool) (lo : ℕ) (hi : Option ℕ) (r : Re κ)
  | group (r : Re κ)
  /-- Negative lookbehind for one character. -/
  | notAfter (k : κ)
  /-- Negative lookahead. -/
  | notBefore (r : Re κ)
  /-- A boundary between the characters of a class and the others. -/
  | boundary (k : κ)

/-- Bounded repetition of a step on any state with a size. An iteration that consumes
nothing ends the loop, so `fuel` never has to exceed the size of the state. -/
def loop {σ : Type*} (size : σ → ℕ) (step : σ → List σ) (greedy : Bool) :
    ℕ → ℕ → Option ℕ → σ → List σ
  | 0, lo, _, s => if lo = 0 then [s] else []
  | fuel + 1, lo, hi, s =>
    let more :=
      if hi = some 0 then []
      else ((step s).filter (fun t => size t < size s)).flatMap
        (loop size step greedy fuel (lo - 1) (hi.map Nat.pred))
    if lo ≠ 0 then more
    else if greedy then more ++ [s]
    else s :: more

theorem loop_zero {σ : Type*} (size : σ → ℕ) (step : σ → List σ) (greedy : Bool) (lo : ℕ)
    (hi : Option ℕ) (s : σ) :
    loop size step greedy 0 lo hi s = if lo = 0 then [s] else [] := rfl

theorem loop_succ {σ : Type*} (size : σ → ℕ) (step : σ → List σ) (greedy : Bool)
    (fuel lo : ℕ) (hi : Option ℕ) (s : σ) :
    loop size step greedy (fuel + 1) lo hi s =
      let more :=
        if hi = some 0 then []
        else ((step s).filter (fun t => size t < size s)).flatMap
          (loop size step greedy fuel (lo - 1) (hi.map Nat.pred))
      if lo ≠ 0 then more
      else if greedy then more ++ [s]
      else s :: more := rfl

namespace Re
variable {κ : Type}

/-- The concatenation of several expressions. -/
def seqs : List (Re κ) → Re κ
  | [] => eps
  | [r] => r
  | r :: rs => seq r (seqs rs)

/-- The alternation of several expressions, earlier ones preferred. -/
def alts : List (Re κ) → Re κ
  | [] => fail
  | [r] => r
  | r :: rs => alt r (alts rs)

def star (r : Re κ) : Re κ := many true 0 none r
def plus (r : Re κ) : Re κ := many true 1 none r
def opt (r : Re κ) : Re κ := many true 0 (some 1) r
def lazyStar (r : Re κ) : Re κ := many false 0 none r
/-- Exactly `n` repetitions. -/
def exactly (n : ℕ) (r : Re κ) : Re κ := many true n (some n) r
/-- At least `n` repetitions. -/
def atLeast (n : ℕ) (r : Re κ) : Re κ := many true n none r

variable (holds : κ → Char → Bool)

/-- All successes of an expression at a cursor, in the order the engine tries them. -/
def run : Re κ → Cursor → List Cursor
  | eps, c => [c]
  | fail, _ => []
  | char k, c =>
    match c.rest with
    | [] => []
    | x :: xs => if holds k x then [{ c with seen := x :: c.seen, rest := xs }] else []
  | seq a b, c => (a.run c).flatMap b.run
  | alt a b, c => a.run c ++ b.run c
  | many greedy lo hi r, c => loop (·.rest.length) r.run greedy c.rest.length lo hi c
  | group r, c =>
    (r.run c).map fun d =>
      { d with captured := some (d.seen.take (d.seen.length - c.seen.length)).reverse }
  | notAfter k, c => if c.seen.head?.any (holds k) then [] else [c]
  | notBefore r, c => if (r.run c).isEmpty then [c] else []
  | boundary k, c =>
    if c.seen.head?.any (holds k) != c.rest.head?.any (holds k) then [c] else []

theorem run_fail (c : Cursor) : (fail : Re κ).run holds c = [] := rfl

theorem run_char (k : κ) (c : Cursor) : (char k).run holds c =
    match c.rest with
    | [] => []
    | x :: xs => if holds k x then [{ c with seen := x :: c.seen, rest := xs }] else [] := rfl

theorem run_seq (a b : Re κ) (c : Cursor) :
    (seq a b).run holds c = (a.run holds c).flatMap (b.run holds) := rfl

theorem run_alt (a b : Re κ) (c : Cursor) :
    (alt a b).run holds c = a.run holds c ++ b.run holds c := rfl

theorem run_many (greedy : Bool) (lo : ℕ) (hi : Option ℕ) (r : Re κ) (c : Cursor) :
    (many greedy lo hi r).run holds c =
      loop (·.rest.length) (r.run holds) greedy c.rest.length lo hi c := rfl

theorem run_group (r : Re κ) (c : Cursor) : (group r).run holds c =
    (r.run holds c).map fun d =>
      { d with captured := some (d.seen.take (d.seen.length - c.seen.length)).reverse } := rfl

/-- The first success at a cursor. -/
def matchAt (r : Re κ) (c : Cursor) : Option Cursor := (r.run holds c).head?

/-- Replace from the left; `replace` is given the captured text. Fuel bounds the number
of characters left. -/
def subnFrom (r : Re κ) (replace : Option (List Char) → List Char) :
    ℕ → List Char → List Char → List Char × ℕ
  | 0, _, rest => (rest, 0)
  | _ + 1, _, [] => ([], 0)
  | fuel + 1, seen, x :: xs =>
    match r.matchAt holds ⟨seen, x :: xs, none⟩ with
    | none =>
      let (out, count) := subnFrom r replace fuel (x :: seen) xs
      (x :: out, count)
    | some c =>
      let (out, count) := subnFrom r replace fuel c.seen c.rest
      (replace c.captured ++ out, count + 1)

/-- All non-overlapping matches replaced, with their number. -/
def subn (r : Re κ) (replace : Option (List Char) → List Char) (text : List Char) :
    List Char × ℕ :=
  r.subnFrom holds replace text.length [] text

/-- Whether the expression matches somewhere. -/
def search (r : Re κ) (text : List Char) : Bool :=
  (List.range (text.length + 1)).any fun n =>
    (r.matchAt holds ⟨(text.take n).reverse, text.drop n, none⟩).isSome

/-- Whether the expression matches the whole text. -/
def fullmatch (r : Re κ) (text : List Char) : Bool :=
  (r.run holds ⟨[], text, none⟩).any (·.rest.isEmpty)

end Re

/-! ### Shapes -/

/-- A shape lists the characters possible at each position of a text. -/
abbrev Shape := List (List Char)

/-- A text fits a shape when it has its length and a possible character everywhere. -/
def Fits (shape : Shape) (text : List Char) : Prop :=
  List.Forall₂ (fun alphabet c => c ∈ alphabet) shape text

theorem Fits.length_eq {shape : Shape} {text : List Char} (h : Fits shape text) :
    shape.length = text.length := List.Forall₂.length_eq h

theorem Fits.append {s t : Shape} {a b : List Char} (hs : Fits s a) (ht : Fits t b) :
    Fits (s ++ t) (a ++ b) := List.rel_append hs ht

theorem Fits.singletons (text : List Char) : Fits (text.map ([·])) text := by
  induction text with
  | nil => exact .nil
  | cons c text ih => exact .cons (List.mem_singleton_self c) ih

/-- A text over one alphabet fits the shape that repeats it. -/
theorem Fits.replicate {alphabet text : List Char} (h : ∀ c ∈ text, c ∈ alphabet) :
    Fits (List.replicate text.length alphabet) text := by
  induction text with
  | nil => exact .nil
  | cons c text ih =>
    exact .cons (h c List.mem_cons_self) (ih fun d hd => h d (List.mem_cons_of_mem c hd))

namespace Re
variable {κ : Type} (holds : κ → Char → Bool)

/-- The matcher on shapes: what can be left after some success on some text of the
shape. Assertions about the surroundings are taken to hold. -/
def runShape : Re κ → Shape → List Shape
  | eps, s => [s]
  | fail, _ => []
  | char k, s =>
    match s with
    | [] => []
    | alphabet :: rest => if alphabet.any (holds k) then [rest] else []
  | seq a b, s => (a.runShape s).flatMap b.runShape
  | alt a b, s => a.runShape s ++ b.runShape s
  | many greedy lo hi r, s => loop List.length r.runShape greedy s.length lo hi s
  | group r, s => r.runShape s
  | notAfter _, s => [s]
  | notBefore _, s => [s]
  | boundary _, s => [s]

theorem runShape_char (k : κ) (s : Shape) : (char k).runShape holds s =
    match s with
    | [] => []
    | alphabet :: rest => if alphabet.any (holds k) then [rest] else [] := rfl

theorem runShape_many (greedy : Bool) (lo : ℕ) (hi : Option ℕ) (r : Re κ) (s : Shape) :
    (many greedy lo hi r).runShape holds s =
      loop List.length (r.runShape holds) greedy s.length lo hi s := rfl

/-- No text of the shape has a match of the expression at any position. -/
def inert (r : Re κ) (s : Shape) : Bool := s.tails.all fun t => (r.runShape holds t).isEmpty

/-- Every match reads a character of a class that no character of the alphabet is in. -/
def blocked (alphabet : List Char) : Re κ → Bool
  | fail => true
  | char k => !alphabet.any (holds k)
  | seq a b => a.blocked alphabet || b.blocked alphabet
  | alt a b => a.blocked alphabet && b.blocked alphabet
  | many _ lo _ r => lo != 0 && r.blocked alphabet
  | group r => r.blocked alphabet
  | eps | notAfter _ | notBefore _ | boundary _ => false

end Re

/-- A loop is simulated by a loop over related states of the same size. -/
theorem loop_simulates {σ τ : Type*} {size : σ → ℕ} {size' : τ → ℕ} {step : σ → List σ}
    {step' : τ → List τ} (rel : τ → σ → Prop) {greedy : Bool}
    (hsize : ∀ t s, rel t s → size' t = size s)
    (hstep : ∀ t s, rel t s → ∀ s' ∈ step s, ∃ t' ∈ step' t, rel t' s')
    (fuel lo : ℕ) (hi : Option ℕ) {t : τ} {s s' : σ} (h : rel t s)
    (hs : s' ∈ loop size step greedy fuel lo hi s) :
    ∃ t' ∈ loop size' step' greedy fuel lo hi t, rel t' s' := by
  induction fuel generalizing lo hi t s with
  | zero =>
    by_cases hlo : lo = 0
    · simp only [loop_zero, hlo, if_true, List.mem_singleton] at hs ⊢
      exact ⟨t, rfl, hs ▸ h⟩
    · simp [loop_zero, hlo] at hs
  | succ fuel ih =>
    -- One more iteration: related states take related steps.
    have hmore : s' ∈ (if hi = some 0 then []
          else ((step s).filter (fun t => size t < size s)).flatMap
            (loop size step greedy fuel (lo - 1) (hi.map Nat.pred))) →
        ∃ t' ∈ (if hi = some 0 then []
          else ((step' t).filter (fun u => size' u < size' t)).flatMap
            (loop size' step' greedy fuel (lo - 1) (hi.map Nat.pred))), rel t' s' := by
      intro hmem
      by_cases hhi : hi = some 0
      · simp [hhi] at hmem
      · rw [if_neg hhi, List.mem_flatMap] at hmem
        obtain ⟨u, hu, hloop⟩ := hmem
        obtain ⟨hu, hlt⟩ := List.mem_filter.mp hu
        obtain ⟨v, hv, hrel⟩ := hstep t s h u hu
        obtain ⟨t', ht', hrel'⟩ := ih _ _ hrel hloop
        refine ⟨t', ?_, hrel'⟩
        rw [if_neg hhi, List.mem_flatMap]
        refine ⟨v, List.mem_filter.mpr ⟨hv, ?_⟩, ht'⟩
        simpa only [hsize t s h, hsize v u hrel] using hlt
    by_cases hlo : lo = 0
    · cases greedy with
      | true =>
        simp only [loop_succ, hlo, ne_eq, not_true_eq_false, if_false, if_true] at hs hmore ⊢
        rcases List.mem_append.mp hs with hs | hs
        · obtain ⟨t', ht', hrel⟩ := hmore hs
          exact ⟨t', List.mem_append_left _ ht', hrel⟩
        · rw [List.mem_singleton] at hs
          exact ⟨t, List.mem_append_right _ (List.mem_singleton_self t), hs ▸ h⟩
      | false =>
        simp only [loop_succ, hlo, ne_eq, not_true_eq_false, if_false, Bool.false_eq_true]
          at hs hmore ⊢
        rcases List.mem_cons.mp hs with hs | hs
        · exact ⟨t, List.mem_cons_self, hs ▸ h⟩
        · obtain ⟨t', ht', hrel⟩ := hmore hs
          exact ⟨t', List.mem_cons_of_mem t ht', hrel⟩
    · simp only [loop_succ, ne_eq, hlo, not_false_eq_true, if_true] at hs ⊢
      exact hmore hs

namespace Re
variable {κ : Type} {holds : κ → Char → Bool}

/-- Every success on a text of the shape is among the successes on the shape, also when
the analysis runs with classes that only agree on the characters of the shape. -/
theorem mem_runShape (r : Re κ) {holds' : κ → Char → Bool} {s : Shape} {c d : Cursor}
    (hagree : ∀ k, ∀ alphabet ∈ s, ∀ x ∈ alphabet, holds k x = holds' k x)
    (h : Fits s c.rest) (hd : d ∈ r.run holds c) :
    ∃ t ∈ r.runShape holds' s, t <:+ s ∧ Fits t d.rest := by
  induction r generalizing s c d with
  | eps =>
    obtain rfl : d = c := List.mem_singleton.mp hd
    exact ⟨s, List.mem_singleton_self s, List.suffix_rfl, h⟩
  | fail => simp [run_fail] at hd
  | char k =>
    cases h' : c.rest with
    | nil => simp [run_char, h'] at hd
    | cons x xs =>
      rw [h'] at h
      obtain ⟨alphabet, rest, hx, hrest, rfl⟩ := List.forall₂_cons_right_iff.mp h
      by_cases hk : holds k x = true
      · simp only [run_char, h', hk, if_true, List.mem_singleton] at hd
        have hk' : holds' k x = true := hagree k alphabet List.mem_cons_self x hx ▸ hk
        have hany : alphabet.any (holds' k) = true := List.any_eq_true.mpr ⟨x, hx, hk'⟩
        exact ⟨rest, by simp [runShape_char, hany], List.suffix_cons _ _, by rw [hd]; exact hrest⟩
      · simp [run_char, h', hk] at hd
  | seq a b iha ihb =>
    obtain ⟨e, he, hd⟩ := List.mem_flatMap.mp hd
    obtain ⟨t, ht, hts, hfit⟩ := iha hagree h he
    have hagree' : ∀ k, ∀ alphabet ∈ t, ∀ x ∈ alphabet, holds k x = holds' k x :=
      fun k alphabet hmem => hagree k alphabet (hts.subset hmem)
    obtain ⟨u, hu, hut, hfit'⟩ := ihb hagree' hfit hd
    exact ⟨u, List.mem_flatMap.mpr ⟨t, ht, hu⟩, hut.trans hts, hfit'⟩
  | alt a b iha ihb =>
    rcases List.mem_append.mp hd with hd | hd
    · obtain ⟨t, ht, hfit⟩ := iha hagree h hd
      exact ⟨t, List.mem_append_left _ ht, hfit⟩
    · obtain ⟨t, ht, hfit⟩ := ihb hagree h hd
      exact ⟨t, List.mem_append_right _ ht, hfit⟩
  | many greedy lo hi r ih =>
    simp only [run_many, runShape_many, h.length_eq] at hd ⊢
    refine loop_simulates (fun t c => t <:+ s ∧ Fits t c.rest)
      (fun t c h => h.2.length_eq) (fun t c h d hd => ?_) _ lo hi ⟨List.suffix_rfl, h⟩ hd
    have hagree' : ∀ k, ∀ alphabet ∈ t, ∀ x ∈ alphabet, holds k x = holds' k x :=
      fun k alphabet hmem => hagree k alphabet (h.1.subset hmem)
    obtain ⟨u, hu, hut, hfit⟩ := ih hagree' h.2 hd
    exact ⟨u, hu, hut.trans h.1, hfit⟩
  | group r ih =>
    simp only [run_group, List.mem_map] at hd
    obtain ⟨e, he, rfl⟩ := hd
    obtain ⟨t, ht, hfit⟩ := ih hagree h he
    exact ⟨t, ht, hfit⟩
  | notAfter k | notBefore r | boundary k =>
    simp only [run] at hd
    split at hd <;> simp_all [runShape]

theorem runShape_eq_nil_of_inert {r : Re κ} {s t : Shape} (h : r.inert holds s = true)
    (ht : t <:+ s) : r.runShape holds t = [] := by
  have hall := List.all_eq_true.mp h t ((List.mem_tails t s).mpr ht)
  exact List.isEmpty_iff.mp hall

/-- A success on a text over an alphabet leaves a text over it. -/
theorem mem_alphabet_of_run (r : Re κ) {alphabet : List Char} {c d : Cursor}
    (h : ∀ x ∈ c.rest, x ∈ alphabet) (hd : d ∈ r.run holds c) : ∀ x ∈ d.rest, x ∈ alphabet := by
  intro x hx
  obtain ⟨t, -, hts, hfit⟩ := mem_runShape r (fun _ _ _ _ _ => rfl) (Fits.replicate h) hd
  obtain ⟨i, hi, rfl⟩ := List.mem_iff_getElem.mp hx
  have hi' : i < t.length := hfit.length_eq ▸ hi
  have hmem : t[i] = alphabet :=
    List.eq_of_mem_replicate (hts.subset (List.getElem_mem hi'))
  exact hmem ▸ List.Forall₂.get hfit hi' hi

/-- A loop that has to take a step takes none when no step can be taken. -/
theorem loop_eq_nil {σ : Type*} {size : σ → ℕ} {step : σ → List σ} {greedy : Bool}
    (fuel : ℕ) {lo : ℕ} (hi : Option ℕ) {s : σ} (hlo : lo ≠ 0) (hs : step s = []) :
    loop size step greedy fuel lo hi s = [] := by
  cases fuel with
  | zero => simp [loop_zero, hlo]
  | succ fuel => simp [loop_succ, hlo, hs]

theorem run_eq_nil_of_blocked (r : Re κ) {holds' : κ → Char → Bool} {alphabet : List Char}
    {c : Cursor} (hagree : ∀ k, ∀ x ∈ alphabet, holds k x = holds' k x)
    (h : ∀ x ∈ c.rest, x ∈ alphabet) (hb : r.blocked holds' alphabet = true) :
    r.run holds c = [] := by
  induction r generalizing c with
  | fail => rfl
  | char k =>
    cases hrest : c.rest with
    | nil => simp [run_char, hrest]
    | cons x xs =>
      have hx : x ∈ alphabet := h x (hrest ▸ List.mem_cons_self)
      have hk : holds k x = false := by
        simp only [blocked, Bool.not_eq_true', List.any_eq_false] at hb
        rw [hagree k x hx]
        simpa using hb x hx
      simp [run_char, hrest, hk]
  | seq a b iha ihb =>
    rcases Bool.or_eq_true_iff.mp hb with hb | hb
    · simp [run_seq, iha h hb]
    · rw [run_seq, List.flatMap_eq_nil_iff]
      exact fun d hd => ihb (mem_alphabet_of_run a h hd) hb
  | alt a b iha ihb =>
    obtain ⟨ha, hb⟩ := Bool.and_eq_true_iff.mp hb
    rw [run_alt, iha h ha, ihb h hb, List.append_nil]
  | many greedy lo hi r ih =>
    obtain ⟨hlo, hb⟩ := Bool.and_eq_true_iff.mp hb
    exact loop_eq_nil _ hi (by simpa using hlo) (ih h hb)
  | group r ih => rw [run_group, ih h hb, List.map_nil]
  | eps | notAfter k | notBefore r | boundary k => simp [blocked] at hb

theorem matchAt_eq_none_of_blocked {r : Re κ} {holds' : κ → Char → Bool}
    {alphabet : List Char} {c : Cursor} (hagree : ∀ k, ∀ x ∈ alphabet, holds k x = holds' k x)
    (h : ∀ x ∈ c.rest, x ∈ alphabet) (hb : r.blocked holds' alphabet = true) :
    r.matchAt holds c = none := by
  rw [matchAt, run_eq_nil_of_blocked r hagree h hb]
  rfl

/-- A bounded run of characters of one class reaches the end of a text exactly when the
whole text is in the class and not too long. -/
theorem any_loop_char {k : κ} {fuel : ℕ} {hi : Option ℕ} {seen rest : List Char}
    {captured : Option (List Char)} (hfuel : rest.length ≤ fuel) :
    (loop (·.rest.length) (run holds (char k)) true fuel 0 hi ⟨seen, rest, captured⟩).any
        (·.rest.isEmpty) = true ↔
      (∀ x ∈ rest, holds k x = true) ∧ ∀ n ∈ hi, rest.length ≤ n := by
  induction rest generalizing fuel hi seen with
  | nil =>
    cases fuel with
    | zero => simp [loop_zero]
    | succ fuel => simp [loop_succ]
  | cons x xs ih =>
    cases fuel with
    | zero => simp at hfuel
    | succ fuel =>
      have hxs : xs.length ≤ fuel := by simpa using hfuel
      by_cases hhi : hi = some 0
      · simp [loop_succ, hhi]
      · by_cases hx : holds k x = true
        · -- One character is read, and the rest is a run with one repetition less.
          have hbound : (∀ n ∈ hi.map Nat.pred, xs.length ≤ n) ↔
              ∀ n ∈ hi, (x :: xs).length ≤ n := by
            cases hi with
            | none => simp
            | some n =>
              have hn : n ≠ 0 := fun h => hhi (by rw [h])
              simp only [Option.map_some, Option.mem_some_iff, forall_eq', List.length_cons,
                Nat.pred_eq_sub_one]
              omega
          have hstep : run holds (char k) ⟨seen, x :: xs, captured⟩ =
              [⟨x :: seen, xs, captured⟩] := by simp [run_char, hx]
          simp only [loop_succ, hstep, hhi, if_true, if_false, ne_eq, not_true_eq_false,
            List.length_cons, Nat.lt_succ_self, decide_true, List.filter_cons,
            List.filter_nil, List.flatMap_cons, List.flatMap_nil, List.append_nil,
            List.any_append, List.any_cons, List.any_nil, List.isEmpty_cons, Bool.or_false,
            Nat.zero_sub, ih hxs, hbound, List.forall_mem_cons, hx, true_and]
        · simp [loop_succ, run_char, hx, hhi]

/-- A character of one class followed by a bounded number of characters of another. -/
theorem fullmatch_seq_char_many {a k : κ} {hi : Option ℕ} {x : Char} {xs : List Char} :
    (seq (char a) (many true 0 hi (char k))).fullmatch holds (x :: xs) = true ↔
      holds a x = true ∧ (∀ y ∈ xs, holds k y = true) ∧ ∀ n ∈ hi, xs.length ≤ n := by
  by_cases ha : holds a x = true
  · simp only [fullmatch, run_seq, run_char, run_many, ha, if_true, List.flatMap_cons, List.flatMap_nil,
      List.append_nil, true_and]
    exact any_loop_char le_rfl
  · simp [fullmatch, run_seq, run_char, ha]

theorem fullmatch_seq_char_nil {a : κ} {r : Re κ} :
    (seq (char a) r).fullmatch holds [] = false := by
  simp [fullmatch, run_seq, run_char]

/-- An expression that is inert on a shape matches nowhere in a text of that shape. -/
theorem matchAt_eq_none {r : Re κ} {holds' : κ → Char → Bool} {s : Shape} {c : Cursor}
    (hagree : ∀ k, ∀ alphabet ∈ s, ∀ x ∈ alphabet, holds k x = holds' k x)
    (hfit : Fits s c.rest) (h : r.inert holds' s = true) : r.matchAt holds c = none := by
  have hnil : r.run holds c = [] := by
    refine List.eq_nil_iff_forall_not_mem.mpr fun d hd => ?_
    obtain ⟨t, ht, -⟩ := mem_runShape r hagree hfit hd
    simp [runShape_eq_nil_of_inert h List.suffix_rfl] at ht
  rw [matchAt, hnil]
  rfl

/-- Where an expression matches at no suffix of a text, it changes nothing. -/
theorem subnFrom_of_matchAt_eq_none {r : Re κ} {replace : Option (List Char) → List Char}
    (fuel : ℕ) {seen text : List Char}
    (h : ∀ seen rest, rest <:+ text → r.matchAt holds ⟨seen, rest, none⟩ = none) :
    r.subnFrom holds replace fuel seen text = (text, 0) := by
  induction fuel generalizing seen text with
  | zero => rfl
  | succ fuel ih =>
    cases text with
    | nil => rfl
    | cons x xs =>
      have htail : ∀ seen rest, rest <:+ xs → r.matchAt holds ⟨seen, rest, none⟩ = none :=
        fun seen rest hrest => h seen rest (hrest.trans (List.suffix_cons x xs))
      simp only [subnFrom, h seen (x :: xs) List.suffix_rfl, ih htail]

/-- A text is left as it is, or a replacement shows. -/
theorem subnFrom_cases (r : Re κ) (replace : Option (List Char) → List Char) (fuel : ℕ)
    (seen text : List Char) :
    (r.subnFrom holds replace fuel seen text).1 = text ∨
      ∃ captured, replace captured ⊆ (r.subnFrom holds replace fuel seen text).1 := by
  induction fuel generalizing seen text with
  | zero => exact .inl rfl
  | succ fuel ih =>
    cases text with
    | nil => exact .inl rfl
    | cons x xs =>
      cases hmatch : r.matchAt holds ⟨seen, x :: xs, none⟩ with
      | none =>
        simp only [subnFrom, hmatch, List.cons.injEq, true_and]
        rcases ih (x :: seen) xs with h | ⟨captured, h⟩
        · exact .inl h
        · exact .inr ⟨captured, List.Subset.trans h (List.subset_cons_self _ _)⟩
      | some c =>
        simp only [subnFrom, hmatch]
        exact .inr ⟨c.captured, List.subset_append_left _ _⟩

/-- An expression that is inert on a shape changes no text of that shape. -/
theorem subn_of_inert {r : Re κ} {holds' : κ → Char → Bool}
    (replace : Option (List Char) → List Char) {text : List Char} {s : Shape}
    (hagree : ∀ k, ∀ alphabet ∈ s, ∀ x ∈ alphabet, holds k x = holds' k x)
    (hfit : Fits s text) (h : r.inert holds' s = true) :
    r.subn holds replace text = (text, 0) := by
  refine subnFrom_of_matchAt_eq_none _ fun seen rest hrest => ?_
  obtain ⟨pre, rfl⟩ := hrest
  have hfit' : Fits (s.drop pre.length) rest := by
    have := List.forall₂_drop pre.length hfit
    rwa [List.drop_left] at this
  have hinert : r.inert holds' (s.drop pre.length) = true := by
    refine List.all_eq_true.mpr fun t ht => ?_
    have hts : t <:+ s := ((List.mem_tails t _).mp ht).trans (List.drop_suffix _ _)
    exact List.all_eq_true.mp h t ((List.mem_tails t s).mpr hts)
  exact matchAt_eq_none (fun k alphabet hmem => hagree k alphabet (List.mem_of_mem_drop hmem))
    hfit' hinert

/-- An expression blocked by an alphabet changes no text over it. -/
theorem subn_of_blocked {r : Re κ} {holds' : κ → Char → Bool}
    {replace : Option (List Char) → List Char} {text alphabet : List Char}
    (hagree : ∀ k, ∀ x ∈ alphabet, holds k x = holds' k x)
    (h : ∀ x ∈ text, x ∈ alphabet) (hb : r.blocked holds' alphabet = true) :
    r.subn holds replace text = (text, 0) :=
  subnFrom_of_matchAt_eq_none _ fun _ _ hrest =>
    matchAt_eq_none_of_blocked hagree (fun x hx => h x (hrest.subset hx)) hb

end Re
end Regex
