import ControlPlane.Lib.System
import Mathlib.Logic.Function.Basic

/-!
# Idempotent inboxes

Messages are received under a key and processed later. Processing settles a message, puts
it aside until something makes it worth another try, or accepts it with the effect it has.
However often messages are received, put aside and processed again, a key has an effect
only when its message was accepted, and then exactly the one that was recorded.
-/
namespace Inbox
variable {κ ε : Type*}

/-- Where the message of a key stands. -/
inductive Standing (ε : Type*) where
  | unknown
  | pending
  | settled
  | deferred
  | accepted (effect : ε)

/-- The effects of a message that are accounted for. -/
def Standing.effects : Standing ε → List ε
  | .accepted e => [e]
  | _ => []

/-- What may happen to a message without an effect. -/
inductive Standing.Moves : Standing ε → Standing ε → Prop
  | receive : Moves .unknown .pending
  | settle : Moves .pending .settled
  | defer : Moves .pending .deferred
  | release : Moves .deferred .pending

/-- The standing of every key, and the effects it has had. -/
@[ext]
structure State (κ ε : Type*) where
  standing : κ → Standing ε
  effects : κ → List ε

section System
variable [DecidableEq κ]

/-- A message accepted, and the effect it has. -/
def State.accept (s : State κ ε) (k : κ) (e : ε) : State κ ε where
  standing := Function.update s.standing k (.accepted e)
  effects := Function.update s.effects k (s.effects k ++ [e])

/-- Any number of messages move without an effect, or one is accepted. -/
inductive Step (s s' : State κ ε) : Prop
  | move (heffects : s'.effects = s.effects)
      (h : ∀ k, s'.standing k = s.standing k ∨ (s.standing k).Moves (s'.standing k))
  | accept (k : κ) (e : ε) (hpending : s.standing k = .pending) (h : s' = s.accept k e)

/-- The inbox in which no message has had an effect yet. -/
def inboxSystem (κ ε : Type*) [DecidableEq κ] : TransitionSystem (State κ ε) where
  init s := ∀ k, s.effects k = [] ∧ (s.standing k).effects = []
  step := Step

variable {s s' : State κ ε} {k : κ}

theorem Standing.Moves.effects_left {a b : Standing ε} (h : a.Moves b) : a.effects = [] := by
  cases h <;> rfl

theorem Standing.Moves.effects_right {a b : Standing ε} (h : a.Moves b) : b.effects = [] := by
  cases h <;> rfl

/-- The effects stay the ones accounted for. -/
theorem Step.accounted (h : Step s s') (hs : ∀ k, s.effects k = (s.standing k).effects) (k : κ) :
    s'.effects k = (s'.standing k).effects := by
  cases h with
  | move heffects hmove =>
    rw [heffects, hs k]
    rcases hmove k with hsame | hmoves
    · rw [hsame]
    · rw [hmoves.effects_left, hmoves.effects_right]
  | accept l e hpending h =>
    subst h
    by_cases hk : k = l
    · subst hk
      simp [State.accept, hs k, hpending, Standing.effects]
    · simp [State.accept, hk, hs k]

theorem effects_of_reachable (h : (inboxSystem κ ε).Reachable s) (k : κ) :
    s.effects k = (s.standing k).effects :=
  h.invariant (P := fun s => ∀ k, s.effects k = (s.standing k).effects)
    (fun _ hinit k => (hinit k).1.trans (hinit k).2.symm) (fun _ _ hs hstep => hstep.accounted hs) k

/-- A key has at most one effect. -/
theorem length_effects_le (h : (inboxSystem κ ε).Reachable s) (k : κ) :
    (s.effects k).length ≤ 1 := by
  rw [effects_of_reachable h]
  cases s.standing k <;> simp [Standing.effects]

/-- What was accepted stays accepted with its effect. -/
theorem Step.accepted {e : ε} (h : Step s s') (hs : s.standing k = .accepted e) :
    s'.standing k = .accepted e := by
  cases h with
  | move heffects hmove =>
    rcases hmove k with hsame | hmoves
    · rw [hsame, hs]
    · rw [hs] at hmoves
      cases hmoves
  | accept l e' hpending h =>
    subst h
    by_cases hk : k = l
    · subst hk
      rw [hs] at hpending
      cases hpending
    · simp [State.accept, hk, hs]

end System

end Inbox
