import ControlPlane.Lib.System
import Mathlib.Logic.Function.Basic

/-!
# Interleaved processes

Processes that take steps in turn on a shared state, beside steps of the surroundings. What a
process relies on is kept when no step of another one interferes with it.

## Main definitions

* `Processes.system`: the interleavings of any number of processes.
* `Processes.Outline`: assertions about the shared state, about each process and about each
  two of them, kept by every step.

## Main results

* `Processes.Outline.asserts_of_reachable`: the assertions of an outline hold in every run.
-/

/-- Processes of one kind: how they start, and what a step of one does while the others are in
some states. -/
structure Processes (σ α : Type*) where
  init : σ → Prop
  start : α → Prop
  act : σ → Set α → α → σ → α → Prop
  surroundings : σ → σ → Prop

/-- The shared state with the processes under way. -/
structure Interleaved (σ α ι : Type*) where
  shared : σ
  processes : ι → Option α

namespace Processes
variable {σ α ι : Type*}

/-- The states of the other processes. -/
def others (processes : ι → Option α) (i : ι) : Set α :=
  {b | ∃ j, j ≠ i ∧ processes j = some b}

theorem mem_others {i j : ι} {b : α} {processes : ι → Option α} (hne : j ≠ i)
    (h : processes j = some b) : b ∈ others processes i := ⟨j, hne, h⟩

/-- What is asserted of the shared state, of each process and of each two of them. -/
structure Asserts (Shared : σ → Prop) (Own : σ → α → Prop) (Apart : α → α → Prop)
    (s : Interleaved σ α ι) : Prop where
  shared : Shared s.shared
  own : ∀ i a, s.processes i = some a → Own s.shared a
  apart : ∀ i j a b, i ≠ j → s.processes i = some a → s.processes j = some b → Apart a b

theorem Asserts.others {Shared : σ → Prop} {Own : σ → α → Prop} {Apart : α → α → Prop}
    {s : Interleaved σ α ι} (h : Asserts Shared Own Apart s) {i : ι} {a : α}
    (hat : s.processes i = some a) :
    ∀ b ∈ Processes.others s.processes i, Own s.shared b ∧ Apart a b := by
  rintro b ⟨j, hne, hb⟩
  exact ⟨h.own j b hb, h.apart i j a b (Ne.symm hne) hat hb⟩

variable [DecidableEq ι] {P : Processes σ α}

/-- One step of one process, a process more, or a step of the surroundings. -/
inductive Step (P : Processes σ α) : Interleaved σ α ι → Interleaved σ α ι → Prop
  | start {s : Interleaved σ α ι} (i : ι) (a : α) (hfree : s.processes i = none)
      (hstart : P.start a) :
      Step P s { s with processes := Function.update s.processes i (some a) }
  | act {s : Interleaved σ α ι} (i : ι) {a a' : α} {shared' : σ}
      (hat : s.processes i = some a)
      (hact : P.act s.shared (others s.processes i) a shared' a') :
      Step P s ⟨shared', Function.update s.processes i (some a')⟩
  | surroundings {s : Interleaved σ α ι} {shared' : σ}
      (hstep : P.surroundings s.shared shared') : Step P s { s with shared := shared' }

/-- The interleavings of processes, none of which has started. -/
def system (P : Processes σ α) (ι : Type*) [DecidableEq ι] :
    TransitionSystem (Interleaved σ α ι) where
  init s := P.init s.shared ∧ ∀ i, s.processes i = none
  step := P.Step

/-- A proof outline: what is asserted of the shared state, of a process and of two processes
is kept by each step, also by the steps of others. -/
structure Outline (P : Processes σ α) (Shared : σ → Prop) (Own : σ → α → Prop)
    (Apart : α → α → Prop) : Prop where
  init : ∀ s, P.init s → Shared s
  symm : ∀ a b, Apart a b → Apart b a
  start : ∀ s a, Shared s → P.start a → Own s a ∧ ∀ b, Apart a b
  act : ∀ s others a s' a', Shared s → Own s a → (∀ b ∈ others, Own s b ∧ Apart a b) →
    P.act s others a s' a' → Shared s' ∧ Own s' a' ∧ ∀ b ∈ others, Own s' b ∧ Apart a' b
  surroundings : ∀ s s', Shared s → P.surroundings s s' →
    Shared s' ∧ ∀ b, Own s b → Own s' b

/-- What a process is after one of them has moved. -/
theorem at_update {processes : ι → Option α} {i j : ι} {a b : α}
    (h : Function.update processes i (some a) j = some b) :
    j = i ∧ b = a ∨ j ≠ i ∧ processes j = some b := by
  by_cases hj : j = i
  · subst hj
    rw [Function.update_self, Option.some.injEq] at h
    exact .inl ⟨rfl, h.symm⟩
  · rw [Function.update_of_ne hj] at h
    exact .inr ⟨hj, h⟩

section Rules
variable {Shared : σ → Prop} {Own : σ → α → Prop} {Apart : α → α → Prop}
  {s t : Interleaved σ α ι}

/-- Putting one process into a state that is apart from all others keeps the assertions. -/
theorem Asserts.update (hsymm : ∀ a b, Apart a b → Apart b a) {processes : ι → Option α}
    {shared' : σ} {i : ι} {a' : α} (hshared : Shared shared') (hown : Own shared' a')
    (hothers : ∀ j b, j ≠ i → processes j = some b → Own shared' b ∧ Apart a' b)
    (hapart : ∀ j k b c, j ≠ k → j ≠ i → k ≠ i → processes j = some b →
      processes k = some c → Apart b c) :
    Asserts Shared Own Apart ⟨shared', Function.update processes i (some a')⟩ := by
  refine ⟨hshared, fun j b hb => ?_, fun j k b c hne hb hc => ?_⟩
  · obtain ⟨-, rfl⟩ | ⟨hj, hb'⟩ := at_update hb
    · exact hown
    · exact (hothers j b hj hb').1
  · obtain ⟨rfl, rfl⟩ | ⟨hj, hb'⟩ := at_update hb
    · obtain ⟨rfl, -⟩ | ⟨hk, hc'⟩ := at_update hc
      · exact absurd rfl hne
      · exact (hothers k c hk hc').2
    · obtain ⟨rfl, rfl⟩ | ⟨hk, hc'⟩ := at_update hc
      · exact hsymm _ _ (hothers j b hj hb').2
      · exact hapart j k b c hne hj hk hb' hc'

theorem Outline.step (h : P.Outline Shared Own Apart) (hs : Asserts Shared Own Apart s)
    (hstep : P.Step s t) : Asserts Shared Own Apart t := by
  cases hstep with
  | start i a hfree hstart =>
    obtain ⟨hown, hapart⟩ := h.start _ a hs.shared hstart
    exact Asserts.update h.symm hs.shared hown (fun j b _ hb => ⟨hs.own j b hb, hapart b⟩)
      fun j k b c hne _ _ hb hc => hs.apart j k b c hne hb hc
  | @act i a a' shared' hat hact =>
    obtain ⟨hshared, hown, hothers⟩ :=
      h.act _ _ a _ a' hs.shared (hs.own i a hat) (hs.others hat) hact
    exact Asserts.update h.symm hshared hown
      (fun j b hne hb => hothers b (mem_others hne hb))
      fun j k b c hne _ _ hb hc => hs.apart j k b c hne hb hc
  | surroundings hsurroundings =>
    obtain ⟨hshared, hown⟩ := h.surroundings _ _ hs.shared hsurroundings
    exact ⟨hshared, fun i a ha => hown a (hs.own i a ha), hs.apart⟩

/-- The assertions of an outline hold in every state of every interleaving. -/
theorem Outline.asserts_of_reachable (h : P.Outline Shared Own Apart)
    (hs : (P.system ι).Reachable s) : Asserts Shared Own Apart s := by
  refine hs.invariant (fun s hinit => ?_) fun s t => h.step
  refine ⟨h.init _ hinit.1, fun i a ha => ?_, fun i j a b _ ha => ?_⟩
  · rw [hinit.2] at ha
    cases ha
  · rw [hinit.2] at ha
    cases ha

end Rules

end Processes
