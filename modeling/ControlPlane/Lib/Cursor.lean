import Mathlib.Data.List.Pairwise
import Mathlib.Data.List.Infix

/-!
# Reading a log with a cursor

A log is a list whose entries have strictly increasing ranks. A reader with a cursor takes the
entries after it, and the entries between two cursors are what was read in between. Entries are
appended at the end, so what was read stays read.
-/
namespace Cursor
variable {α : Type*} (rank : α → ℕ)

/-- The entries of a log have increasing ranks. -/
def Log (l : List α) : Prop := l.Pairwise fun a b => rank a < rank b

/-- The entries after a cursor. -/
def after (c : ℕ) (l : List α) : List α := l.filter fun a => c < rank a

/-- The entries after one cursor and up to another. -/
def between (c d : ℕ) (l : List α) : List α := l.filter fun a => c < rank a && rank a ≤ d

variable {rank} {l l' : List α} {a : α} {b c d : ℕ}

theorem Log.log_after (h : Log rank l) (c : ℕ) : Log rank (after rank c l) := h.filter _

theorem Log.log_between (h : Log rank l) (c d : ℕ) : Log rank (between rank c d l) := h.filter _

theorem mem_after : a ∈ after rank c l ↔ a ∈ l ∧ c < rank a := by simp [after]

theorem mem_between : a ∈ between rank c d l ↔ a ∈ l ∧ c < rank a ∧ rank a ≤ d := by
  simp [between]

@[simp] theorem between_self : between rank c c l = [] := by
  rw [between, List.filter_eq_nil_iff]
  intro a _
  simp only [Bool.and_eq_true, decide_eq_true_eq]
  omega

/-- A log is what has a rank up to a bound, followed by the rest. -/
theorem Log.filter_append_filter (h : Log rank l) (d : ℕ) :
    (l.filter fun a => rank a ≤ d) ++ l.filter (fun a => d < rank a) = l := by
  induction l with
  | nil => rfl
  | cons a l ih =>
    obtain ⟨hlt, hl⟩ := List.pairwise_cons.mp h
    by_cases ha : rank a ≤ d
    · have hnot : ¬ d < rank a := not_lt.mpr ha
      simp [ha, hnot, ih hl]
    · have hnone : l.filter (fun b => rank b ≤ d) = [] := by
        rw [List.filter_eq_nil_iff]
        intro b hb
        have := hlt b hb
        simp only [decide_eq_true_eq]
        omega
      have hall : l.filter (fun b => d < rank b) = l := by
        rw [List.filter_eq_self]
        intro b hb
        have := hlt b hb
        simp only [decide_eq_true_eq]
        omega
      simp [ha, not_le.mp ha, hnone, hall]

/-- What is after a cursor is read up to a later one, and the rest is after that. -/
theorem Log.between_append_after (h : Log rank l) (hcd : c ≤ d) :
    between rank c d l ++ after rank d l = after rank c l := by
  rw [← (h.log_after c).filter_append_filter d]
  congr 1
  · simp only [between, after, List.filter_filter]
    refine List.filter_congr fun a _ => ?_
    rw [Bool.and_comm]
  · simp only [after, List.filter_filter]
    refine List.filter_congr fun a _ => ?_
    by_cases ha : d < rank a
    · simp [ha, hcd.trans_lt ha]
    · simp [ha]

theorem Log.between_append_between (h : Log rank l) (hbc : b ≤ c) (hcd : c ≤ d) :
    between rank b c l ++ between rank c d l = between rank b d l := by
  rw [← (h.log_between b d).filter_append_filter c]
  congr 1
  · simp only [between, List.filter_filter]
    refine List.filter_congr fun a _ => ?_
    by_cases ha : rank a ≤ c
    · simp [ha, ha.trans hcd]
    · simp [ha]
  · simp only [between, List.filter_filter]
    refine List.filter_congr fun a _ => ?_
    by_cases ha : c < rank a
    · simp [ha, hbc.trans_lt ha]
    · simp [ha]

/-- The first entry after a cursor becomes the cursor. -/
theorem Log.after_eq_cons (h : Log rank l) {as : List α} (hafter : after rank c l = a :: as) :
    c < rank a ∧ between rank c (rank a) l = [a] ∧ after rank (rank a) l = as := by
  have hmem : a ∈ after rank c l := by rw [hafter]; exact List.mem_cons_self
  have hlt := (mem_after.mp hmem).2
  have hlog := h.log_after c
  rw [hafter] at hlog
  have hsplit := h.between_append_after hlt.le
  rw [hafter] at hsplit
  have hall := (List.pairwise_cons.mp hlog).1
  have hbetween : between rank c (rank a) l = [a] := by
    have hfilter : between rank c (rank a) l =
        (after rank c l).filter fun b => rank b ≤ rank a := by
      simp only [between, after, List.filter_filter]
      exact List.filter_congr fun b _ => Bool.and_comm _ _
    rw [hfilter, hafter, List.filter_cons_of_pos (by simp)]
    congr 1
    rw [List.filter_eq_nil_iff]
    intro b hb
    have := hall b hb
    simp only [decide_eq_true_eq]
    omega
  rw [hbetween] at hsplit
  exact ⟨hlt, hbetween, List.tail_eq_of_cons_eq hsplit⟩

theorem Log.between_eq_cons (h : Log rank l) {as : List α}
    (hbetween : between rank c d l = a :: as) :
    c < rank a ∧ rank a ≤ d ∧ between rank c (rank a) l = [a] ∧
      between rank (rank a) d l = as := by
  have hmem : a ∈ between rank c d l := by rw [hbetween]; exact List.mem_cons_self
  obtain ⟨-, hlt, hle⟩ := mem_between.mp hmem
  have hsplit := h.between_append_after (hlt.le.trans hle)
  rw [hbetween, List.cons_append] at hsplit
  obtain ⟨-, hfirst, -⟩ := h.after_eq_cons hsplit.symm
  have hparts := h.between_append_between hlt.le hle
  rw [hbetween, hfirst] at hparts
  exact ⟨hlt, hle, hfirst, List.tail_eq_of_cons_eq hparts⟩

/-! ### A log that grows -/

theorem after_grown (h : l <+: l') : after rank c l <+: after rank c l' := h.filter _

/-- What was read up to an entry of the log is read for good. -/
theorem Log.between_of_prefix (h : Log rank l') (hgrown : l <+: l')
    (hread : c = d ∨ ∃ a ∈ l, rank a = d) : between rank c d l' = between rank c d l := by
  rcases hread with rfl | ⟨a, ha, rfl⟩
  · rw [between_self, between_self]
  · obtain ⟨new, rfl⟩ := hgrown
    have hnone : between rank c (rank a) new = [] := by
      rw [between, List.filter_eq_nil_iff]
      intro b hb
      have := (List.pairwise_append.mp h).2.2 a ha b hb
      simp only [Bool.and_eq_true, decide_eq_true_eq]
      omega
    rw [between, List.filter_append]
    change _ ++ between rank c (rank a) new = _
    rw [hnone, List.append_nil]
    rfl

end Cursor
