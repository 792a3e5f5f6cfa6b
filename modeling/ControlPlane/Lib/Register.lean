import Mathlib.Data.List.Induction
import Mathlib.Data.List.Perm.Basic
import Mathlib.Algebra.Order.Ring.Nat

/-!
# Registers that only move forward

Entries with a key and a time arrive in some order, and an entry is kept only when it is
newer than every entry kept for its key. What is kept depends on the order, the last entry
kept for a key does not: it is the newest one.

## Main definitions

* `Register.run`: the entries kept, in order of arrival.
* `Register.last`: the last entry kept for a key.

## Main results

* `Register.last_spec`, `Register.last_perm`
-/

namespace Register
variable {α κ : Type*} (key : α → κ) (time : α → ℕ) (admissible : α → Prop)

/-- Newer than everything kept for its key. -/
def Newer (log : List α) (a : α) : Prop := ∀ b ∈ log, key b = key a → time b < time a

open Classical in
/-- Keep an entry that is admissible and newer. -/
noncomputable def accept (log : List α) (a : α) : List α :=
  if admissible a ∧ Newer key time log a then log ++ [a] else log

/-- The entries kept of those that arrived. -/
noncomputable def run (entries : List α) : List α :=
  entries.foldl (accept key time admissible) []

open Classical in
/-- The last entry kept for a key. -/
noncomputable def last (log : List α) (k : κ) : Option α := (log.filter (key · = k)).getLast?

variable {key time admissible} {entries : List α} {a : α} {k : κ}

theorem run_concat (entries : List α) (a : α) :
    run key time admissible (entries ++ [a]) =
      accept key time admissible (run key time admissible entries) a := by
  rw [run, List.foldl_append]
  rfl

theorem accept_of (log : List α) (h : admissible a ∧ Newer key time log a) :
    accept key time admissible log a = log ++ [a] := if_pos h

theorem accept_of_not (log : List α) (h : ¬ (admissible a ∧ Newer key time log a)) :
    accept key time admissible log a = log := if_neg h

theorem mem_of_mem_run (h : a ∈ run key time admissible entries) : a ∈ entries ∧ admissible a := by
  induction entries using List.reverseRecOn with
  | nil => cases h
  | append_singleton entries b ih =>
    rw [run_concat] at h
    by_cases hb : admissible b ∧ Newer key time (run key time admissible entries) b
    · rw [accept_of _ hb, List.mem_append, List.mem_singleton] at h
      rcases h with h | rfl
      · exact ⟨List.mem_append_left _ (ih h).1, (ih h).2⟩
      · exact ⟨List.mem_append_right _ (List.mem_singleton_self a), hb.1⟩
    · rw [accept_of_not _ hb] at h
      exact ⟨List.mem_append_left _ (ih h).1, (ih h).2⟩

/-- For every admissible entry something at least as new is kept. -/
theorem exists_mem_run (h : a ∈ entries) (ha : admissible a) :
    ∃ b ∈ run key time admissible entries, key b = key a ∧ time a ≤ time b := by
  induction entries using List.reverseRecOn with
  | nil => cases h
  | append_singleton entries c ih =>
    rw [run_concat]
    rw [List.mem_append, List.mem_singleton] at h
    by_cases hc : admissible c ∧ Newer key time (run key time admissible entries) c
    · rw [accept_of _ hc]
      rcases h with h | rfl
      · obtain ⟨b, hb, hkey, hle⟩ := ih h
        exact ⟨b, List.mem_append_left _ hb, hkey, hle⟩
      · exact ⟨a, List.mem_append_right _ (List.mem_singleton_self a), rfl, le_rfl⟩
    · rw [accept_of_not _ hc]
      rcases h with h | rfl
      · exact ih h
      · have hold : ¬ Newer key time (run key time admissible entries) a := fun hnew =>
          hc ⟨ha, hnew⟩
        simp only [Newer, not_forall, not_lt] at hold
        obtain ⟨b, hb, hkey, hle⟩ := hold
        exact ⟨b, hb, hkey, hle⟩

/-- What is kept for a key gets newer and newer. -/
theorem pairwise_run (entries : List α) :
    (run key time admissible entries).Pairwise fun a b => key a = key b → time a < time b := by
  induction entries using List.reverseRecOn with
  | nil => exact List.Pairwise.nil
  | append_singleton entries c ih =>
    rw [run_concat]
    by_cases hc : admissible c ∧ Newer key time (run key time admissible entries) c
    · rw [accept_of _ hc, List.pairwise_append]
      refine ⟨ih, List.pairwise_singleton _ _, fun a ha b hb hkey => ?_⟩
      obtain rfl := List.mem_singleton.mp hb
      exact hc.2 a ha hkey
    · rw [accept_of_not _ hc]
      exact ih

theorem last_eq [DecidableEq κ] (log : List α) (k : κ) :
    last key log k = (log.filter fun a => decide (key a = k)).getLast? := by
  refine congrArg List.getLast? (List.filter_congr fun a _ => ?_)
  by_cases hkey : key a = k
  · simp [hkey]
  · simp [hkey]

theorem last_mem {log : List α} (h : last key log k = some a) : a ∈ log ∧ key a = k := by
  classical
  have hmem := List.mem_of_getLast? h
  simpa using hmem

theorem last_eq_none {log : List α} : last key log k = none ↔ ∀ a ∈ log, key a ≠ k := by
  classical
  simp [last]

/-- The last of a log that gets newer is the newest. -/
theorem le_last {log : List α} (hlog : log.Pairwise fun a b => key a = key b → time a < time b)
    (h : last key log k = some a) {b : α} (hb : b ∈ log) (hkey : key b = k) :
    time b ≤ time a := by
  classical
  obtain ⟨init, hinit⟩ := List.getLast?_eq_some_iff.mp h
  have hmem : b ∈ log.filter (key · = k) := List.mem_filter.mpr ⟨hb, by simpa using hkey⟩
  have hpairs := hlog.filter (key · = k)
  rw [hinit] at hmem hpairs
  rcases List.mem_append.mp hmem with hbefore | hlast
  · have ha := (last_mem h).2
    exact ((List.pairwise_append.mp hpairs).2.2 b hbefore a (List.mem_singleton_self a)
      (hkey.trans ha.symm)).le
  · rw [List.mem_singleton.mp hlast]

/-- The last entry kept for a key is the newest admissible one. -/
theorem last_spec (h : last key (run key time admissible entries) k = some a) :
    a ∈ entries ∧ admissible a ∧ key a = k ∧
      ∀ b ∈ entries, admissible b → key b = k → time b ≤ time a := by
  obtain ⟨hmem, hkey⟩ := last_mem h
  obtain ⟨hentry, hadmissible⟩ := mem_of_mem_run hmem
  refine ⟨hentry, hadmissible, hkey, fun b hb hadm hbkey => ?_⟩
  obtain ⟨c, hc, hckey, hle⟩ := exists_mem_run hb hadm
  exact hle.trans (le_last (pairwise_run entries) h hc (hckey.trans hbkey))

theorem last_run_eq_none : last key (run key time admissible entries) k = none ↔
    ∀ a ∈ entries, admissible a → key a ≠ k := by
  rw [last_eq_none]
  constructor
  · intro h a ha hadmissible hkey
    obtain ⟨b, hb, hbkey, -⟩ := exists_mem_run ha hadmissible
    exact h b hb (hbkey.trans hkey)
  · intro h a ha
    obtain ⟨hentry, hadmissible⟩ := mem_of_mem_run ha
    exact h a hentry hadmissible

/-- With distinct times the last entry kept does not depend on the order of arrival. -/
theorem last_perm {entries' : List α} (hperm : entries.Perm entries')
    (hdistinct : ∀ a ∈ entries, ∀ b ∈ entries, key a = key b → time a = time b → a = b) (k : κ) :
    last key (run key time admissible entries) k = last key (run key time admissible entries') k := by
  cases h : last key (run key time admissible entries) k with
  | none =>
    refine (last_run_eq_none.mpr fun a ha => ?_).symm
    exact last_run_eq_none.mp h a (hperm.mem_iff.mpr ha)
  | some a =>
    obtain ⟨ha, hadm, hkey, hmax⟩ := last_spec h
    cases h' : last key (run key time admissible entries') k with
    | none => exact absurd hkey (last_run_eq_none.mp h' a (hperm.mem_iff.mp ha) hadm)
    | some b =>
      obtain ⟨hb, hbdm, hbkey, hbmax⟩ := last_spec h'
      have hb' := hperm.mem_iff.mpr hb
      have htime : time a = time b :=
        le_antisymm (hbmax a (hperm.mem_iff.mp ha) hadm hkey) (hmax b hb' hbdm hbkey)
      exact congrArg some (hdistinct a ha b hb' (hkey.trans hbkey.symm) htime)

end Register
