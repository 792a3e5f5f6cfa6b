import ControlPlane.Lib.System
import ControlPlane.Lib.History
import Mathlib.Data.List.Perm.Basic

/-!
# Work done at most once

Workers that take a ticket for a piece of work, do it later, and may drop the ticket at
any point. Work may be reset, after which it may be done again. If a ticket is only taken
when no ticket for the work is out and it was not done since the last reset, then it is
done at most once between two resets.

## Main results

* `AtMostOnce.uses_le_one`: the invariant, over every run.
* `AtMostOnce.count_ran_le_one`: without resets, at most once altogether.
-/
namespace AtMostOnce

inductive Event (κ : Type*) where
  | ran (k : κ)
  | reset (k : κ)
  deriving DecidableEq

/-- The same event for other work. -/
def Event.map {κ ι : Type*} (f : κ → ι) : Event κ → Event ι
  | .ran k => .ran (f k)
  | .reset k => .reset (f k)

/-- The tickets that are out, and what happened. -/
structure State (κ : Type*) where
  tickets : List κ := []
  events : List (Event κ) := []

variable {κ : Type*} [DecidableEq κ]

/-- What happened since work was last reset. -/
def State.recent (s : State κ) (k : κ) : List (Event κ) :=
  History.since (fun e => decide (e = .reset k)) s.events

/-- How often work was done since the last reset or may still be done. -/
def State.uses (s : State κ) (k : κ) : ℕ := s.tickets.count k + (s.recent k).count (.ran k)

inductive Step (s : State κ) : State κ → Prop
  | issue (k : κ) (hunused : s.uses k = 0) : Step s { s with tickets := s.tickets ++ [k] }
  | run (k : κ) (tickets : List κ) (hperm : (k :: tickets).Perm s.tickets) :
    Step s ⟨tickets, s.events ++ [.ran k]⟩
  | drop (tickets : List κ) (hsub : tickets.Sublist s.tickets) : Step s { s with tickets }
  | reset (k : κ) : Step s { s with events := s.events ++ [.reset k] }

/-- Work, from the state in which nothing was done. -/
def machine : TransitionSystem (State κ) := ⟨fun s => s.tickets = [] ∧ s.events = [], Step⟩

section Recent
variable {s : State κ} {tickets : List κ} {k k' : κ}

@[simp] theorem recent_ran :
    State.recent ⟨tickets, s.events ++ [.ran k]⟩ k' = s.recent k' ++ [.ran k] := by
  simp [State.recent]

@[simp] theorem recent_reset_self :
    State.recent ⟨tickets, s.events ++ [.reset k]⟩ k = [] := by
  simp [State.recent]

theorem recent_reset_of_ne (h : k ≠ k') :
    State.recent ⟨tickets, s.events ++ [.reset k]⟩ k' = s.recent k' ++ [.reset k] := by
  simp [State.recent, h]

/-- Resets of other work do not matter. -/
theorem State.count_ran_recent_reset_le (s : State κ) (tickets : List κ) (k k' : κ) :
    (State.recent ⟨tickets, s.events ++ [.reset k]⟩ k').count (.ran k') ≤
      (s.recent k').count (.ran k') := by
  by_cases h : k = k'
  · subst h
    simp
  · simp [recent_reset_of_ne h]

/-- Without a ticket for it, work is used as often as it was done. -/
theorem uses_of_not_mem (h : k ∉ s.tickets) : s.uses k = (s.recent k).count (.ran k) := by
  rw [State.uses, List.count_eq_zero.mpr h, Nat.zero_add]

/-- Work for which no ticket is out and which was not done is unused. -/
theorem uses_eq_zero (htickets : k ∉ s.tickets) (hevents : .ran k ∉ s.events) :
    s.uses k = 0 := by
  rw [uses_of_not_mem htickets, List.count_eq_zero]
  exact fun hmem => hevents (History.mem_of_mem_since hmem)

end Recent

/-- Work is done at most once between two resets. -/
theorem Step.uses_le_one {s t : State κ} (h : Step s t) (hs : ∀ k, s.uses k ≤ 1) (k : κ) :
    t.uses k ≤ 1 := by
  have hk := hs k
  cases h with
  | issue k' hunused =>
    by_cases heq : k' = k
    · subst heq
      have hrecent : State.recent { s with tickets := s.tickets ++ [k'] } k' = s.recent k' := rfl
      unfold State.uses at hunused ⊢
      rw [hrecent, List.count_append]
      simp only [List.count_singleton_self]
      omega
    · have hnot : [k'].count k = 0 := List.count_eq_zero.mpr (by simpa using Ne.symm heq)
      unfold State.uses at hk ⊢
      rw [List.count_append, hnot]
      exact hk
  | run k' tickets hperm =>
    have hcount := hperm.count_eq k
    have hran : [Event.ran k'].count (.ran k) = [k'].count k := by
      simp [List.count_singleton]
    rw [← List.singleton_append, List.count_append] at hcount
    unfold State.uses at hk ⊢
    rw [recent_ran, List.count_append, hran]
    simp only
    omega
  | drop tickets hsub =>
    have hle := hsub.count_le k
    have hrecent : State.recent { s with tickets := tickets } k = s.recent k := rfl
    unfold State.uses at hk ⊢
    rw [hrecent]
    simp only
    omega
  | reset k' =>
    have hle := s.count_ran_recent_reset_le s.tickets k' k
    unfold State.uses at hk ⊢
    simp only at hle ⊢
    omega

theorem uses_le_one {s : State κ} (h : machine.Reachable s) (k : κ) : s.uses k ≤ 1 := by
  refine h.invariant (P := fun s => ∀ k, s.uses k ≤ 1) ?_ ?_ k
  · rintro s ⟨htickets, hevents⟩ k
    simp [State.uses, State.recent, htickets, hevents]
  · intro s t hs hstep
    exact hstep.uses_le_one hs

/-- Work never reset is done at most once altogether. -/
theorem count_ran_le_one {s : State κ} (h : machine.Reachable s) {k : κ}
    (hreset : .reset k ∉ s.events) : s.events.count (.ran k) ≤ 1 := by
  have hrecent : s.recent k = s.events := by
    refine List.rtakeWhile_eq_self_iff.mpr ?_
    intro e he
    have hne : e ≠ .reset k := fun heq => hreset (heq ▸ he)
    simpa using hne
  have huses := uses_le_one h k
  unfold State.uses at huses
  rw [hrecent] at huses
  omega

/-! ### Tickets held by the entries of a list -/

section Held
variable {α β : Type*} {f : α → Option β}

/-- An entry that holds no ticket afterwards is as good as removed. -/
theorem filterMap_set_none {a : α} (h : f a = none) (as : List α) (i : ℕ) :
    (as.set i a).filterMap f = (as.eraseIdx i).filterMap f := by
  induction as generalizing i with
  | nil => rfl
  | cons b as ih =>
    cases i with
    | zero => simp [h]
    | succ i => simp only [List.set_cons_succ, List.eraseIdx_cons_succ, List.filterMap_cons, ih i]

/-- The ticket of an entry and those of the others. -/
theorem perm_filterMap_eraseIdx {as : List α} {i : ℕ} {a : α} {b : β} (hget : as[i]? = some a)
    (h : f a = some b) : (b :: (as.eraseIdx i).filterMap f).Perm (as.filterMap f) := by
  obtain ⟨hi, rfl⟩ := List.getElem?_eq_some_iff.mp hget
  have hperm := (List.getElem_cons_eraseIdx_perm hi).filterMap f
  rwa [List.filterMap_cons, h] at hperm

end Held

end AtMostOnce
