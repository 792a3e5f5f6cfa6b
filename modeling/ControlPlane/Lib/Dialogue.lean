import Mathlib.Data.List.Basic

/-!
# Dialogues with an environment

Programs that ask an environment, may depend on all that was exchanged so far, and end
with a result or an error. A dialogue only ever adds to what was exchanged: its run gives
the new exchanges, so that no program can forget or rewrite one.

## Main definitions

* `Dialogue.ask`: one exchange, read by a function that may reject it.
* `Dialogue.rescue`, `Dialogue.ensure`: handlers of errors, and a last dialogue that is
  held in any case.

## Main results

* `Dialogue.run_bind`, `Dialogue.run_rescue` and `Dialogue.run_ensure` split a run into the
  runs of its parts; their exchanges follow one another.
* `Dialogue.mem_run_bind` and its companions find an exchange of a part in the whole.
-/

/-- A dialogue: from the exchanges so far to a result and the exchanges it adds. -/
structure Dialogue (χ ε α : Type) where
  run : List χ → Except ε α × List χ

namespace Dialogue
variable {χ ε α β : Type}

def pure (a : α) : Dialogue χ ε α := ⟨fun _ => (.ok a, [])⟩

def throw (e : ε) : Dialogue χ ε α := ⟨fun _ => (.error e, [])⟩

/-- Something decided from the exchanges so far, with none added. -/
def decideOn (f : List χ → Except ε α) : Dialogue χ ε α := ⟨fun log => (f log, [])⟩

/-- A check that needs no exchange. -/
def lift (x : Except ε α) : Dialogue χ ε α := decideOn fun _ => x

/-- One exchange, and what is made of it. -/
def ask (next : List χ → χ) (read : χ → Except ε α) : Dialogue χ ε α :=
  ⟨fun log => (read (next log), [next log])⟩

def bind (m : Dialogue χ ε α) (f : α → Dialogue χ ε β) : Dialogue χ ε β :=
  ⟨fun log =>
    match (m.run log).1 with
    | .error e => (.error e, (m.run log).2)
    | .ok a =>
      let rest := (f a).run (log ++ (m.run log).2)
      (rest.1, (m.run log).2 ++ rest.2)⟩

instance : Monad (Dialogue χ ε) where
  pure := pure
  bind := bind

/-- Hold another dialogue when the first one ends with an error. -/
def rescue (m : Dialogue χ ε α) (handler : ε → Dialogue χ ε α) : Dialogue χ ε α :=
  ⟨fun log =>
    match (m.run log).1 with
    | .ok a => (.ok a, (m.run log).2)
    | .error e =>
      let rest := (handler e).run (log ++ (m.run log).2)
      (rest.1, (m.run log).2 ++ rest.2)⟩

/-- Hold a last dialogue however the first one ends; its error takes precedence. -/
def ensure (m : Dialogue χ ε α) (last : Dialogue χ ε Unit) : Dialogue χ ε α :=
  ⟨fun log =>
    let rest := last.run (log ++ (m.run log).2)
    (match rest.1 with
      | .error e => .error e
      | .ok _ => (m.run log).1, (m.run log).2 ++ rest.2)⟩

@[simp] theorem run_pure (a : α) (log : List χ) :
    (Pure.pure a : Dialogue χ ε α).run log = (.ok a, []) := rfl
@[simp] theorem run_throw (e : ε) (log : List χ) :
    (throw e : Dialogue χ ε α).run log = (.error e, []) := rfl
@[simp] theorem run_decideOn (f : List χ → Except ε α) (log : List χ) :
    (decideOn f).run log = (f log, []) := rfl
@[simp] theorem run_lift (x : Except ε α) (log : List χ) :
    (lift x : Dialogue χ ε α).run log = (x, []) := rfl
@[simp] theorem run_ask (next : List χ → χ) (read : χ → Except ε α) (log : List χ) :
    (ask next read).run log = (read (next log), [next log]) := rfl

/-! ### Runs of composed dialogues -/

/-- A sequence ends early with an error of its first part, or runs on after its result. -/
theorem run_bind {m : Dialogue χ ε α} {f : α → Dialogue χ ε β} {log new : List χ}
    {r : Except ε β} (h : (m >>= f).run log = (r, new)) :
    (∃ e, m.run log = (.error e, new) ∧ r = .error e) ∨
    (∃ a first rest, m.run log = (.ok a, first) ∧ (f a).run (log ++ first) = (r, rest) ∧
      new = first ++ rest) := by
  change (bind m f).run log = _ at h
  rcases hm : m.run log with ⟨r₁, first⟩
  simp only [bind, hm] at h
  cases r₁ with
  | error e =>
    cases h
    exact .inl ⟨e, rfl, rfl⟩
  | ok a =>
    cases h
    exact .inr ⟨a, first, _, rfl, rfl, rfl⟩

theorem run_rescue {m : Dialogue χ ε α} {handler : ε → Dialogue χ ε α} {log new : List χ}
    {r : Except ε α} (h : (m.rescue handler).run log = (r, new)) :
    (∃ a, m.run log = (.ok a, new) ∧ r = .ok a) ∨
    (∃ e first rest, m.run log = (.error e, first) ∧
      (handler e).run (log ++ first) = (r, rest) ∧ new = first ++ rest) := by
  rcases hm : m.run log with ⟨r₁, first⟩
  simp only [rescue, hm] at h
  cases r₁ with
  | ok a =>
    cases h
    exact .inl ⟨a, rfl, rfl⟩
  | error e =>
    cases h
    exact .inr ⟨e, first, _, rfl, rfl, rfl⟩

theorem run_ensure {m : Dialogue χ ε α} {last : Dialogue χ ε Unit} {log new : List χ}
    {r : Except ε α} (h : (m.ensure last).run log = (r, new)) :
    ∃ first rest ended, last.run (log ++ first) = (ended, rest) ∧ new = first ++ rest ∧
      (m.run log).2 = first ∧
      ((∃ e, ended = .error e ∧ r = .error e) ∨ (ended = .ok () ∧ r = (m.run log).1)) := by
  rcases hlast : last.run (log ++ (m.run log).2) with ⟨ended, rest⟩
  simp only [ensure, hlast] at h
  cases ended with
  | error e =>
    cases h
    exact ⟨_, rest, _, hlast, rfl, rfl, .inl ⟨e, rfl, rfl⟩⟩
  | ok u =>
    cases h
    exact ⟨_, rest, _, hlast, rfl, rfl, .inr ⟨rfl, rfl⟩⟩

/-! ### Exchanges of the parts -/

variable {x : χ} {log first : List χ}

theorem mem_run_bind {m : Dialogue χ ε α} {f : α → Dialogue χ ε β} (h : x ∈ (m.run log).2) :
    x ∈ ((m >>= f).run log).2 := by
  rcases hrun : (m >>= f).run log with ⟨r, new⟩
  rcases run_bind hrun with ⟨e, hm, -⟩ | ⟨a, first, rest, hm, -, rfl⟩
  · rwa [hm] at h
  · rw [hm] at h
    exact List.mem_append_left _ h

theorem mem_run_bind_of_ok {m : Dialogue χ ε α} {f : α → Dialogue χ ε β} {a : α}
    (hm : m.run log = (.ok a, first)) (h : x ∈ ((f a).run (log ++ first)).2) :
    x ∈ ((m >>= f).run log).2 := by
  rcases hrun : (m >>= f).run log with ⟨r, new⟩
  rcases run_bind hrun with ⟨e, he, -⟩ | ⟨a', first', rest, ha, hrest, rfl⟩
  · rw [hm] at he
    cases he
  · rw [hm] at ha
    cases ha
    rw [hrest] at h
    exact List.mem_append_right _ h

theorem mem_run_rescue {m : Dialogue χ ε α} {handler : ε → Dialogue χ ε α}
    (h : x ∈ (m.run log).2) : x ∈ ((m.rescue handler).run log).2 := by
  rcases hrun : (m.rescue handler).run log with ⟨r, new⟩
  rcases run_rescue hrun with ⟨a, hm, -⟩ | ⟨e, first, rest, hm, -, rfl⟩
  · rwa [hm] at h
  · rw [hm] at h
    exact List.mem_append_left _ h

theorem mem_run_ensure {m : Dialogue χ ε α} {last : Dialogue χ ε Unit}
    (h : x ∈ (last.run (log ++ (m.run log).2)).2) : x ∈ ((m.ensure last).run log).2 :=
  List.mem_append_right _ h

end Dialogue
