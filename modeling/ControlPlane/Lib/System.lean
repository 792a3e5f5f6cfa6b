import Mathlib.Logic.Relation

/-!
# Transition systems

Systems given by their initial states and their steps, the states reachable in a run,
the rule for inductive invariants, and refinement of one system by another.
-/

structure TransitionSystem (σ : Type*) where
  init : σ → Prop
  step : σ → σ → Prop

namespace TransitionSystem
variable {σ τ : Type*}

/-- A state some run ends in. -/
def Reachable (S : TransitionSystem σ) (s : σ) : Prop :=
  ∃ s₀, S.init s₀ ∧ Relation.ReflTransGen S.step s₀ s

variable {S : TransitionSystem σ} {T : TransitionSystem τ}

theorem Reachable.of_init {s : σ} (h : S.init s) : S.Reachable s := ⟨s, h, .refl⟩

theorem Reachable.tail {s t : σ} (hs : S.Reachable s) (h : S.step s t) : S.Reachable t := by
  obtain ⟨s₀, h₀, hrun⟩ := hs
  exact ⟨s₀, h₀, hrun.tail h⟩

/-- What holds initially and is kept by every step from a reachable state holds in every
reachable state. -/
theorem Reachable.induction {P : σ → Prop} {s : σ} (hs : S.Reachable s)
    (hinit : ∀ s, S.init s → P s)
    (hstep : ∀ s t, S.Reachable s → P s → S.step s t → P t) : P s := by
  obtain ⟨s₀, h₀, hrun⟩ := hs
  induction hrun with
  | refl => exact hinit s₀ h₀
  | tail hrun h ih => exact hstep _ _ ⟨s₀, h₀, hrun⟩ ih h

/-- The rule for an invariant that is inductive on its own. -/
theorem Reachable.invariant {P : σ → Prop} {s : σ} (hs : S.Reachable s)
    (hinit : ∀ s, S.init s → P s) (hstep : ∀ s t, P s → S.step s t → P t) : P s :=
  hs.induction hinit fun s t _ => hstep s t

/-- A system is simulated by another through a relation when its initial states relate to
initial ones and each of its steps, from related states, to a run. -/
structure Simulates (S : TransitionSystem σ) (T : TransitionSystem τ) (rel : σ → τ → Prop) :
    Prop where
  init : ∀ s, S.init s → ∃ t, T.init t ∧ rel s t
  step : ∀ s s' t, S.Reachable s → T.Reachable t → rel s t → S.step s s' →
    ∃ t', Relation.ReflTransGen T.step t t' ∧ rel s' t'

/-- Every reachable state relates to a reachable one, so that invariants of the abstract
system hold of the concrete one. -/
theorem Simulates.reachable {rel : σ → τ → Prop} (h : S.Simulates T rel) {s : σ}
    (hs : S.Reachable s) : ∃ t, T.Reachable t ∧ rel s t := by
  refine hs.induction (P := fun s => ∃ t, T.Reachable t ∧ rel s t) (fun s hs => ?_)
    fun s s' hs ih hstep => ?_
  · obtain ⟨t, ht, hrel⟩ := h.init s hs
    exact ⟨t, .of_init ht, hrel⟩
  · obtain ⟨t, ht, hrel⟩ := ih
    obtain ⟨t', hrun, hrel'⟩ := h.step s s' t hs ht hrel hstep
    obtain ⟨t₀, h₀, hrun₀⟩ := ht
    exact ⟨t', ⟨t₀, h₀, hrun₀.trans hrun⟩, hrel'⟩

end TransitionSystem
