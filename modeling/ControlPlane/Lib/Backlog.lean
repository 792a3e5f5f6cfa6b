import Mathlib.Data.List.Sort
import Mathlib.Data.List.TakeWhile
import Mathlib.Data.Prod.Lex
import Mathlib.Order.BooleanAlgebra.Basic

/-!
# Backlogs

A backlog is worked off in batches: what is pending is put in an order, a bounded part of it
is taken, and the batch ends at the first item that fails. Items of one rank may come in any
order, another one for each batch.

## Main definitions

* `Backlog.drain`: one batch.
* `Backlog.after`: repeated batches.

## Main results

* `Backlog.drains_iff`: repeated batches settle every item that does not fail exactly when
  all of these come before all that do.
-/

namespace Backlog
variable {α ρ : Type*} [DecidableEq α] [LinearOrder ρ]

/-- A way to order items by their rank. -/
structure Orders (rank : α → ρ) (order : List α → List α) : Prop where
  perm : ∀ l, (order l).Perm l
  sorted : ∀ l, (order l).Pairwise fun a b => rank a ≤ rank b

/-- The items of a batch that are settled: those before the first that fails. -/
def settled (fails : α → Bool) (batch : List α) : List α := batch.takeWhile fun a => !fails a

/-- What is pending after one batch. -/
def drain (fails : α → Bool) (limit : ℕ) (order : List α → List α) (pending : List α) : List α :=
  pending.filter (· ∉ settled fails ((order pending).take limit))

/-- What is pending after some batches. -/
def after (fails : α → Bool) (limit : ℕ) (orders : ℕ → List α → List α) (pending : List α) :
    ℕ → List α
  | 0 => pending
  | n + 1 => drain fails limit (orders n) (after fails limit orders pending n)

section
variable {fails : α → Bool} {limit : ℕ} {order : List α → List α} {pending : List α}

omit [DecidableEq α] in
theorem not_fails_of_settled {batch : List α} {a : α} (h : a ∈ settled fails batch) :
    fails a = false := by
  simpa using List.mem_takeWhile_imp h

theorem mem_drain {a : α} :
    a ∈ drain fails limit order pending ↔
      a ∈ pending ∧ a ∉ settled fails ((order pending).take limit) := by
  simp [drain]

theorem after_subset {orders : ℕ → List α → List α} (n : ℕ) :
    after fails limit orders pending n ⊆ pending := by
  induction n with
  | zero => exact fun _ h => h
  | succ n ih => exact fun a h => ih (mem_drain.mp h).1

/-- A batch settles something as long as what does not fail comes first. -/
theorem exists_settled {rank : α → ρ} (horder : Orders rank order) (hlimit : 0 < limit)
    (hfirst : ∀ a ∈ pending, ∀ b ∈ pending, fails a = true → fails b = false → rank b < rank a)
    {b : α} (hb : b ∈ pending) (hfails : fails b = false) :
    ∃ a ∈ pending, fails a = false ∧ a ∉ drain fails limit order pending := by
  have hmem : b ∈ order pending := (horder.perm pending).mem_iff.mpr hb
  cases hcases : order pending with
  | nil =>
    rw [hcases] at hmem
    cases hmem
  | cons a rest =>
    have hsorted := horder.sorted pending
    rw [hcases] at hsorted hmem
    have ha : a ∈ pending := by
      rw [← (horder.perm pending).mem_iff, hcases]
      exact List.mem_cons_self
    have hgood : fails a = false := by
      by_contra hbad
      have hlt := hfirst a ha b hb (by simpa using hbad) hfails
      rcases List.mem_cons.mp hmem with rfl | hrest
      · exact lt_irrefl _ hlt
      · exact absurd hlt (not_lt.mpr ((List.pairwise_cons.mp hsorted).1 b hrest))
    obtain ⟨n, rfl⟩ := Nat.exists_eq_succ_of_ne_zero hlimit.ne'
    refine ⟨a, ha, hgood, fun hdrain => (mem_drain.mp hdrain).2 ?_⟩
    rw [hcases, settled, List.take_succ_cons, List.takeWhile_cons_of_pos (by simp [hgood])]
    exact List.mem_cons_self

theorem length_filter_drain_lt {a : α} (ha : a ∈ pending) (hfails : fails a = false)
    (hdrain : a ∉ drain fails limit order pending) :
    ((drain fails limit order pending).filter fun a => !fails a).length <
      (pending.filter fun a => !fails a).length := by
  have hsub : ((drain fails limit order pending).filter fun a => !fails a).Sublist
      (pending.filter fun a => !fails a) := List.filter_sublist.filter _
  refine lt_of_le_of_ne hsub.length_le fun hlength => hdrain ?_
  have hmem : a ∈ pending.filter fun a => !fails a := by simp [ha, hfails]
  rw [← hsub.eq_of_length hlength] at hmem
  exact (List.mem_filter.mp hmem).1

/-- Everything that does not fail is settled when it comes first. -/
theorem drains_of_first {rank : α → ρ} {orders : ℕ → List α → List α}
    (horders : ∀ n, Orders rank (orders n)) (hlimit : 0 < limit)
    (hfirst : ∀ a ∈ pending, ∀ b ∈ pending, fails a = true → fails b = false → rank b < rank a) :
    ∃ n, ∀ a ∈ after fails limit orders pending n, fails a = true := by
  by_contra hnever
  simp only [not_exists, not_forall] at hnever
  -- The number of pending items that do not fail falls with every batch.
  have hfalls : ∀ n, ((after fails limit orders pending n).filter fun a => !fails a).length + n ≤
      (pending.filter fun a => !fails a).length := by
    intro n
    induction n with
    | zero => exact le_rfl
    | succ n ih =>
      obtain ⟨b, hb, hfails⟩ := hnever n
      obtain ⟨a, ha, hgood, hdrain⟩ := exists_settled (horders n) hlimit
        (fun a ha b hb => hfirst a (after_subset n ha) b (after_subset n hb)) hb
        (by simpa using hfails)
      have hlt := length_filter_drain_lt ha hgood hdrain
      change (((drain fails limit (orders n) _).filter _).length) + (n + 1) ≤ _
      omega
  have hlast := hfalls ((pending.filter fun a => !fails a).length + 1)
  omega

/-- The order by rank that puts what fails first. -/
def failingFirst (rank : α → ρ) (fails : α → Bool) (l : List α) : List α :=
  l.insertionSort fun a b => toLex (rank a, !fails a) ≤ toLex (rank b, !fails b)

omit [DecidableEq α] in
theorem sorted_failingFirst (rank : α → ρ) (l : List α) :
    (failingFirst rank fails l).Pairwise
      fun a b => toLex (rank a, !fails a) ≤ toLex (rank b, !fails b) := by
  have : Std.Total fun a b : α => toLex (rank a, !fails a) ≤ toLex (rank b, !fails b) :=
    ⟨fun a b => le_total _ _⟩
  have : IsTrans α fun a b : α => toLex (rank a, !fails a) ≤ toLex (rank b, !fails b) :=
    ⟨fun a b c => le_trans⟩
  exact List.pairwise_insertionSort _ l

omit [DecidableEq α] in
theorem orders_failingFirst (fails : α → Bool) (rank : α → ρ) :
    Orders rank (failingFirst rank fails) where
  perm l := List.perm_insertionSort _ l
  sorted l := (sorted_failingFirst rank l).imp fun h => by
    rcases Prod.Lex.toLex_le_toLex.mp h with h | h
    · exact h.le
    · exact h.1.le

omit [DecidableEq α] in
/-- What is settled stands before everything that fails. -/
theorem rel_of_settled {r : α → α → Prop} {l : List α} (hsorted : l.Pairwise r) {a b : α}
    (ha : a ∈ l) (hfails : fails a = true) (hb : b ∈ settled fails (l.take limit)) : r b a := by
  have hsplit : settled fails (l.take limit) ++
      ((l.take limit).dropWhile (fun a => !fails a) ++ l.drop limit) = l := by
    rw [← List.append_assoc, settled, List.takeWhile_append_dropWhile, List.take_append_drop]
  rw [← hsplit] at ha hsorted
  have hrest := (List.mem_append.mp ha).resolve_left fun h => by
    rw [not_fails_of_settled h] at hfails
    cases hfails
  exact (List.pairwise_append.mp hsorted).2.2 b hb a hrest

/-- An item that fails holds back what never stands before it. -/
theorem mem_after_of_failing {r : α → α → Prop} {orders : ℕ → List α → List α}
    (hperm : ∀ n l, (orders n l).Perm l) (hsorted : ∀ n l, (orders n l).Pairwise r) {a b : α}
    (ha : a ∈ pending) (hb : b ∈ pending) (hfails : fails a = true) (hbehind : ¬ r b a) (n : ℕ) :
    a ∈ after fails limit orders pending n ∧ b ∈ after fails limit orders pending n := by
  induction n with
  | zero => exact ⟨ha, hb⟩
  | succ n ih =>
    refine ⟨mem_drain.mpr ⟨ih.1, fun h => ?_⟩, mem_drain.mpr ⟨ih.2, fun h => ?_⟩⟩
    · rw [not_fails_of_settled h] at hfails
      cases hfails
    · exact hbehind (rel_of_settled (hsorted n _) ((hperm n _).mem_iff.mpr ih.1) hfails h)

/-- **Repeated batches settle every item that does not fail** exactly when all of these rank
before all that do. -/
theorem drains_iff (rank : α → ρ) (hlimit : 0 < limit) :
    (∀ orders : ℕ → List α → List α, (∀ n, Orders rank (orders n)) →
        ∀ b ∈ pending, fails b = false → ∃ n, b ∉ after fails limit orders pending n) ↔
      ∀ a ∈ pending, ∀ b ∈ pending, fails a = true → fails b = false → rank b < rank a := by
  constructor
  · intro h a ha b hb hfails hgood
    by_contra hrank
    obtain ⟨n, hn⟩ := h _ (fun _ => orders_failingFirst fails rank) b hb hgood
    refine hn (mem_after_of_failing (fun _ l => List.perm_insertionSort _ l)
      (fun _ => sorted_failingFirst rank) ha hb hfails (fun hle => ?_) n).2
    rcases Prod.Lex.toLex_le_toLex.mp hle with hlt | ⟨-, hle⟩
    · exact hrank hlt
    · rw [hgood, hfails] at hle
      exact Bool.false_ne_true (hle rfl)
  · intro h orders horders b hb hgood
    obtain ⟨n, hn⟩ := drains_of_first horders hlimit h
    refine ⟨n, fun hmem => ?_⟩
    rw [hn b hmem] at hgood
    cases hgood

end

end Backlog
