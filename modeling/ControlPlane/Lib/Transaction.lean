import Mathlib.Data.List.Forall2

/-!
# Failing computations

Rules that take an accepted computation in `Except` apart: what `require`, `orThrow` and
the monad's operations say when the whole returned a value.
-/
namespace Except
universe u v
variable {ε : Type u} {α β : Type v}

/-- Refuse unless a condition holds. -/
def require (p : Prop) [Decidable p] (e : ε) : Except ε Unit := if p then .ok () else .error e

/-- The value of an option, or a refusal. -/
def orThrow (o : Option α) (e : ε) : Except ε α :=
  match o with
  | some a => .ok a
  | none => .error e

/-- Failures translated. -/
def relabel {ε' : Type*} (x : Except ε α) (f : ε → ε') : Except ε' α :=
  match x with
  | .ok a => .ok a
  | .error e => .error (f e)

@[simp] theorem require_eq_ok {p : Prop} [Decidable p] {e : ε} {u : Unit} :
    require p e = .ok u ↔ p := by
  by_cases h : p <;> simp [require, h]

@[simp] theorem orThrow_eq_ok {o : Option α} {e : ε} {a : α} :
    orThrow o e = .ok a ↔ o = some a := by
  cases o <;> simp [orThrow]

@[simp] theorem relabel_eq_ok {ε' : Type*} {x : Except ε α} {f : ε → ε'} {a : α} :
    relabel x f = .ok a ↔ x = .ok a := by
  cases x <;> simp [relabel]

@[simp] theorem bind_eq_ok {x : Except ε α} {f : α → Except ε β} {b : β} :
    (x >>= f) = .ok b ↔ ∃ a, x = .ok a ∧ f a = .ok b := by
  cases x with
  | error e => simp [bind, Except.bind]
  | ok a => simp [bind, Except.bind]

theorem exists_of_isOk {x : Except ε α} (h : x.isOk = true) : ∃ value, x = .ok value := by
  cases x with
  | ok value => exact ⟨value, rfl⟩
  | error e => cases h

theorem ok_of_toOption {x : Except ε α} {a : α} (h : x.toOption = some a) : x = .ok a := by
  cases x with
  | error e => cases h
  | ok b => exact congrArg _ (Option.some.inj h)

@[simp] theorem map_eq_ok {x : Except ε α} {f : α → β} {b : β} :
    (f <$> x) = .ok b ↔ ∃ a, x = .ok a ∧ f a = b := by
  cases x with
  | error e => simp [Functor.map, Except.map]
  | ok a => simp [Functor.map, Except.map]

@[simp] theorem ite_error_eq_ok {p : Prop} [Decidable p] {e : ε} {x : Except ε α} {a : α} :
    (if p then .error e else x) = .ok a ↔ ¬p ∧ x = .ok a := by
  by_cases h : p <;> simp [h]

@[simp] theorem pure_eq_ok {a b : α} : (pure a : Except ε α) = .ok b ↔ a = b := by
  simp [pure, Except.pure]

@[simp] theorem throw_eq_ok {e : ε} {a : α} : (throw e : Except ε α) = .ok a ↔ False := by
  simp [throw, throwThe, MonadExceptOf.throw]

@[simp] theorem require_of {p : Prop} [Decidable p] {e : ε} (h : p) :
    require p e = .ok () := if_pos h

@[simp] theorem ok_bind {a : α} {f : α → Except ε β} : (Except.ok a >>= f) = f a := rfl

@[simp] theorem error_bind {e : ε} {f : α → Except ε β} : (Except.error e >>= f) = .error e := rfl

theorem bind_map_left {γ : Type v} {x : Except ε α} {f : α → β} {g : β → Except ε γ} :
    (f <$> x) >>= g = x >>= fun a => g (f a) := by
  cases x <;> rfl

/-- Computations that agree on every value the first step returns. -/
theorem bind_congr_ok {x : Except ε α} {f g : α → Except ε β}
    (h : ∀ a, x = .ok a → f a = g a) : x >>= f = x >>= g := by
  cases x with
  | error e => rfl
  | ok a => exact h a rfl

/-! ### Traversals -/

theorem mapM_eq_ok {γ : Type v} {f : α → Except ε γ} {as : List α} {cs : List γ} :
    as.mapM f = .ok cs ↔ List.Forall₂ (fun a c => f a = .ok c) as cs := by
  induction as generalizing cs with
  | nil => simp [pure, Except.pure, eq_comm]
  | cons a as ih =>
    simp only [List.mapM_cons, bind_eq_ok, pure_eq_ok, ih, List.forall₂_cons_left_iff]
    constructor
    · rintro ⟨c, hc, cs', hcs, rfl⟩
      exact ⟨c, cs', hc, hcs, rfl⟩
    · rintro ⟨c, cs', hc, hcs, rfl⟩
      exact ⟨c, hc, cs', hcs, rfl⟩

/-- A traversal whose steps all return has a list to return. -/
theorem mapM_eq_ok_of {γ : Type v} {f : α → Except ε γ} {as : List α}
    (h : ∀ a ∈ as, ∃ c, f a = .ok c) : ∃ cs, as.mapM f = .ok cs := by
  induction as with
  | nil => exact ⟨[], rfl⟩
  | cons a as ih =>
    obtain ⟨c, hc⟩ := h a List.mem_cons_self
    obtain ⟨cs, hcs⟩ := ih fun a' ha' => h a' (List.mem_cons_of_mem a ha')
    exact ⟨c :: cs, mapM_eq_ok.mpr (.cons hc (mapM_eq_ok.mp hcs))⟩

theorem exists_of_mapM {γ : Type v} {f : α → Except ε γ} {as : List α} {cs : List γ}
    (h : as.mapM f = .ok cs) : ∀ a ∈ as, ∃ c, f a = .ok c := by
  rw [mapM_eq_ok] at h
  induction h with
  | nil => exact fun a ha => absurd ha List.not_mem_nil
  | cons hc _ ih => exact List.forall_mem_cons.mpr ⟨⟨_, hc⟩, ih⟩

theorem forM_eq_ok {α : Type*} {f : α → Except ε Unit} {as : List α} {u : Unit} :
    as.forM f = .ok u ↔ ∀ a ∈ as, f a = .ok () := by
  induction as with
  | nil => simp [pure, Except.pure]
  | cons a as ih =>
    simp only [List.forM_eq_forM, List.forM_cons, bind_eq_ok, List.forall_mem_cons] at ih ⊢
    constructor
    · rintro ⟨⟨⟩, ha, has⟩
      exact ⟨ha, ih.mp has⟩
    · rintro ⟨ha, has⟩
      exact ⟨(), ha, ih.mpr has⟩

end Except
