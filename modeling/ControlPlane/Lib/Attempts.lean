import Mathlib.Logic.Relation
import Mathlib.Data.Nat.Notation

/-!
# Attempts at a piece of work

Work is done in attempts, of which a limited number may be used. Each attempt is granted
while the work waits, or takes over from the attempt before; it ends the work, or returns
it for another attempt, or is given back unused.

## Main results

* `Attempts.Turns.balanced`: what is used is what was granted and not given back, waiting
  work has an attempt left, and an active one is within the limit.
* `Attempts.Turns.finished`: finished work stays finished, with the attempts it used.
-/
namespace Attempts

/-- Where a piece of work stands; finished work has an outcome. It is corrupt when its
parts contradict each other. -/
inductive Phase (ω : Type*) where
  | absent | waiting | active | corrupt
  | finished (outcome : ω)
  deriving DecidableEq, Repr

/-- The attempts at a piece of work: how many are used, how many may be, how many were
granted and how many of these were given back. -/
structure Account (ω : Type*) where
  phase : Phase ω
  used : ℕ
  limit : ℕ
  granted : ℕ
  refunded : ℕ

variable {ω : Type*}

/-- One turn of an account. -/
inductive Turn : Account ω → Account ω → Prop
  | enter (a : Account ω) (limit : ℕ) (habsent : a.phase = .absent) (hlimit : 0 < limit) :
    Turn a { a with phase := .waiting, used := 0, limit := limit }
  | grant (a : Account ω) (hwaiting : a.phase = .waiting) :
    Turn a { a with phase := .active, used := a.used + 1, granted := a.granted + 1 }
  | takeOver (a : Account ω) (hactive : a.phase = .active) (hleft : a.used < a.limit) :
    Turn a { a with phase := .active, used := a.used + 1, granted := a.granted + 1 }
  | giveUp (a : Account ω) (hactive : a.phase = .active) (hleft : a.used < a.limit) :
    Turn a { a with phase := .waiting }
  | refund (a : Account ω) (hactive : a.phase = .active) :
    Turn a { a with phase := .waiting, used := a.used - 1, refunded := a.refunded + 1 }
  | close (a : Account ω) (outcome : ω) (hopen : a.phase = .waiting ∨ a.phase = .active) :
    Turn a { a with phase := .finished outcome }

/-- Turns one after another. -/
abbrev Turns : Account ω → Account ω → Prop := Relation.ReflTransGen Turn

/-- The invariant of an account. -/
structure Balanced (a : Account ω) : Prop where
  sound : a.phase ≠ .corrupt
  absent : a.phase = .absent → a.used = 0 ∧ a.granted = 0
  waiting : a.phase = .waiting → a.used < a.limit
  active : a.phase = .active → 1 ≤ a.used ∧ a.used ≤ a.limit
  total : a.used + a.refunded = a.granted

theorem Turn.balanced {a b : Account ω} (h : Turn a b) (ha : Balanced a) : Balanced b := by
  have htotal := ha.total
  cases h with
  | enter limit habsent hlimit =>
    obtain ⟨hused, hgranted⟩ := ha.absent habsent
    constructor <;> simp <;> omega
  | grant hwaiting =>
    have hleft := ha.waiting hwaiting
    constructor <;> simp <;> omega
  | takeOver hactive hleft =>
    constructor <;> simp <;> omega
  | giveUp hactive hleft =>
    constructor <;> simp <;> omega
  | refund hactive =>
    obtain ⟨hone, hlimit⟩ := ha.active hactive
    constructor <;> simp <;> omega
  | close outcome hopen =>
    constructor <;> simp <;> omega

theorem Turns.balanced {a b : Account ω} (h : Turns a b) (ha : Balanced a) : Balanced b := by
  induction h with
  | refl => exact ha
  | tail _ h ih => exact h.balanced ih

theorem Turns.sound {a b : Account ω} (h : Turns a b) (ha : a.phase ≠ .corrupt) :
    b.phase ≠ .corrupt := by
  induction h with
  | refl => exact ha
  | tail _ h _ => cases h <;> simp

/-- No turn is left to finished work. -/
theorem Turns.finished {a b : Account ω} {outcome : ω} (h : Turns a b)
    (ha : a.phase = .finished outcome) : b = a := by
  induction h with
  | refl => rfl
  | tail _ h ih =>
    subst ih
    cases h with
    | enter limit habsent _ => rw [ha] at habsent; cases habsent
    | grant hwaiting => rw [ha] at hwaiting; cases hwaiting
    | takeOver hactive _ => rw [ha] at hactive; cases hactive
    | giveUp hactive _ => rw [ha] at hactive; cases hactive
    | refund hactive => rw [ha] at hactive; cases hactive
    | close _ hopen => rw [ha] at hopen; rcases hopen with h | h <;> cases h

/-- Work once admitted is never absent again. -/
theorem Turns.phase_ne_absent {a b : Account ω} (h : Turns a b) (ha : a.phase ≠ .absent) :
    b.phase ≠ .absent := by
  induction h with
  | refl => exact ha
  | tail _ h _ => cases h <;> simp

end Attempts
