import ControlPlane.Lib.System
import Mathlib.Data.List.Nodup
import Mathlib.Logic.Function.Basic

/-!
# Fenced leases

Resources leased to one holder at a time. Every lease carries a token drawn from one
counter, so that a holder whose lease was taken away can be told from the current one.

## Main results

* `FencedLease.fenced_of_reachable`: tokens increase in the order of issue, and an
  unreleased lease is the one its resource names.
* `FencedLease.Fenced.unique`: a resource has at most one unreleased lease.
-/
namespace FencedLease

structure Lease (ρ ι : Type*) where
  id : ι
  resource : ρ
  token : ℕ
  released : Bool

/-- The lease each resource names, every lease in the order of issue, the next token. -/
structure State (ρ ι : Type*) where
  current : ρ → Option ι
  leases : List (Lease ρ ι)
  next : ℕ

variable {ρ ι : Type*} [DecidableEq ρ] [DecidableEq ι]

omit [DecidableEq ρ] in
/-- A lease released if it is the given one. -/
def Lease.releaseIf (i : ι) (l : Lease ρ ι) : Lease ρ ι :=
  if l.id = i then { l with released := true } else l

section ReleaseIf
omit [DecidableEq ρ]

@[simp] theorem Lease.id_releaseIf (i : ι) (l : Lease ρ ι) : (l.releaseIf i).id = l.id := by
  by_cases h : l.id = i <;> simp [releaseIf, h]

@[simp] theorem Lease.resource_releaseIf (i : ι) (l : Lease ρ ι) :
    (l.releaseIf i).resource = l.resource := by
  by_cases h : l.id = i <;> simp [releaseIf, h]

@[simp] theorem Lease.token_releaseIf (i : ι) (l : Lease ρ ι) :
    (l.releaseIf i).token = l.token := by
  by_cases h : l.id = i <;> simp [releaseIf, h]

@[simp] theorem Lease.released_releaseIf (i : ι) (l : Lease ρ ι) :
    (l.releaseIf i).released = false ↔ l.id ≠ i ∧ l.released = false := by
  by_cases h : l.id = i <;> simp [releaseIf, h]

end ReleaseIf

/-- A resource leased under the next token. -/
def State.issue (s : State ρ ι) (r : ρ) (i : ι) : State ρ ι where
  current := Function.update s.current r (some i)
  leases := s.leases ++ [⟨i, r, s.next, false⟩]
  next := s.next + 1

/-- The lease of a resource released. -/
def State.release (s : State ρ ι) (r : ρ) (i : ι) : State ρ ι where
  current := Function.update s.current r none
  leases := s.leases.map (Lease.releaseIf i)
  next := s.next

/-- A free resource is leased under the next token, or the lease a resource names is
released. -/
inductive Step (s : State ρ ι) : State ρ ι → Prop
  | issue (r : ρ) (i : ι) (hfree : s.current r = none) (hfresh : ∀ l ∈ s.leases, l.id ≠ i) :
    Step s (s.issue r i)
  | release (r : ρ) (i : ι) (hcurrent : s.current r = some i) : Step s (s.release r i)

/-- Leasing, from the state in which nothing was leased. -/
def machine : TransitionSystem (State ρ ι) :=
  ⟨fun s => (∀ r, s.current r = none) ∧ s.leases = [], Step⟩

omit [DecidableEq ρ] [DecidableEq ι] in
/-- The invariant of leasing. -/
structure Fenced (s : State ρ ι) : Prop where
  tokens : s.leases.Pairwise fun a b => a.token < b.token
  below : ∀ l ∈ s.leases, l.token < s.next
  distinct : (s.leases.map Lease.id).Nodup
  unreleased : ∀ l ∈ s.leases, l.released = false → s.current l.resource = some l.id
  issued : ∀ r i, s.current r = some i → ∃ l ∈ s.leases, l.id = i ∧ l.resource = r

omit [DecidableEq ρ] [DecidableEq ι] in
theorem Fenced.eq_of_id_eq {s : State ρ ι} (h : Fenced s) {a b : Lease ρ ι} (ha : a ∈ s.leases)
    (hb : b ∈ s.leases) (hid : a.id = b.id) : a = b :=
  List.inj_on_of_nodup_map h.distinct ha hb hid

omit [DecidableEq ρ] [DecidableEq ι] in
/-- A resource has at most one unreleased lease. -/
theorem Fenced.unique {s : State ρ ι} (h : Fenced s) {a b : Lease ρ ι} (ha : a ∈ s.leases)
    (hb : b ∈ s.leases) (hr : a.resource = b.resource) (hra : a.released = false)
    (hrb : b.released = false) : a = b := by
  have hcur := h.unreleased a ha hra
  rw [hr, h.unreleased b hb hrb] at hcur
  exact h.eq_of_id_eq ha hb (Option.some.inj hcur).symm

omit [DecidableEq ι] in
theorem Fenced.issue {s : State ρ ι} (h : Fenced s) {r : ρ} {i : ι} (hfree : s.current r = none)
    (hfresh : ∀ l ∈ s.leases, l.id ≠ i) : Fenced (s.issue r i) where
  tokens := by
    refine List.pairwise_append.mpr ⟨h.tokens, List.pairwise_singleton _ _, ?_⟩
    intro a ha b hb
    rw [List.mem_singleton.mp hb]
    exact h.below a ha
  below := by
    intro l hl
    rcases List.mem_append.mp hl with hl | hl
    · exact Nat.lt_succ_of_lt (h.below l hl)
    · rw [List.mem_singleton.mp hl]
      exact Nat.lt_succ_self _
  distinct := by
    rw [State.issue, List.map_append, List.nodup_append]
    refine ⟨h.distinct, List.nodup_singleton _, ?_⟩
    intro a ha b hb
    obtain ⟨l, hl, rfl⟩ := List.mem_map.mp ha
    rw [List.mem_singleton.mp hb]
    exact hfresh l hl
  unreleased := by
    intro l hl hrel
    rcases List.mem_append.mp hl with hl | hl
    · have hcur := h.unreleased l hl hrel
      have hne : l.resource ≠ r := by
        intro heq
        rw [heq, hfree] at hcur
        cases hcur
      simpa [State.issue, Function.update_of_ne hne] using hcur
    · rw [List.mem_singleton.mp hl]
      simp [State.issue]
  issued := by
    intro r' i' hcur
    by_cases heq : r' = r
    · subst heq
      simp only [State.issue, Function.update_self, Option.some.injEq] at hcur
      exact ⟨_, List.mem_append_right _ (List.mem_singleton_self _), hcur, rfl⟩
    · simp only [State.issue, Function.update_of_ne heq] at hcur
      obtain ⟨l, hl, hspec⟩ := h.issued r' i' hcur
      exact ⟨l, List.mem_append_left _ hl, hspec⟩

theorem Fenced.release {s : State ρ ι} (h : Fenced s) {r : ρ} {i : ι}
    (hcurrent : s.current r = some i) : Fenced (s.release r i) where
  tokens := by
    refine List.pairwise_map.mpr (h.tokens.imp ?_)
    intro a b hab
    simpa using hab
  below := by
    intro l hl
    obtain ⟨a, ha, rfl⟩ := List.mem_map.mp hl
    simpa [State.release] using h.below a ha
  distinct := by
    rw [State.release, List.map_map]
    simpa [Function.comp_def] using h.distinct
  unreleased := by
    intro l hl hrel
    obtain ⟨a, ha, rfl⟩ := List.mem_map.mp hl
    rw [Lease.released_releaseIf] at hrel
    have hcur := h.unreleased a ha hrel.2
    have hne : a.resource ≠ r := by
      intro heq
      rw [heq, hcurrent, Option.some.injEq] at hcur
      exact hrel.1 hcur.symm
    simpa [State.release, Function.update_of_ne hne] using hcur
  issued := by
    intro r' i' hcur
    by_cases heq : r' = r
    · subst heq
      simp only [State.release, Function.update_self] at hcur
      cases hcur
    · simp only [State.release, Function.update_of_ne heq] at hcur
      obtain ⟨l, hl, hspec⟩ := h.issued r' i' hcur
      exact ⟨l.releaseIf i, List.mem_map_of_mem hl, by simpa using hspec⟩

theorem fenced_of_reachable {s : State ρ ι} (h : machine.Reachable s) : Fenced s := by
  refine h.invariant ?_ ?_
  · rintro s ⟨hcurrent, hleases⟩
    constructor <;> simp [hcurrent, hleases]
  · intro s t hs hstep
    cases hstep with
    | issue r i hfree hfresh => exact hs.issue hfree hfresh
    | release r i hcurrent => exact hs.release hcurrent

/-- A lease that its resource does not name any more is never named again. -/
theorem Step.lost {s t : State ρ ι} (h : Step s t) {l : Lease ρ ι} (hl : l ∈ s.leases) {r : ρ}
    (hlost : s.current r ≠ some l.id) :
    t.current r ≠ some l.id ∧ ∃ l' ∈ t.leases, l'.id = l.id := by
  cases h with
  | issue r' i hfree hfresh =>
    refine ⟨?_, l, List.mem_append_left _ hl, rfl⟩
    by_cases heq : r = r'
    · subst heq
      simpa [State.issue] using fun h => hfresh l hl h.symm
    · simpa [State.issue, Function.update_of_ne heq] using hlost
  | release r' i hcurrent =>
    refine ⟨?_, l.releaseIf i, List.mem_map_of_mem hl, by simp⟩
    by_cases heq : r = r'
    · subst heq
      simp [State.release]
    · simpa [State.release, Function.update_of_ne heq] using hlost

theorem lost_of_run {s t : State ρ ι} (h : Relation.ReflTransGen Step s t) {i : ι} {r : ρ}
    (hl : ∃ l ∈ s.leases, l.id = i) (hlost : s.current r ≠ some i) :
    t.current r ≠ some i ∧ ∃ l ∈ t.leases, l.id = i := by
  induction h with
  | refl => exact ⟨hlost, hl⟩
  | tail _ hstep ih =>
    obtain ⟨hlost', l, hmem, rfl⟩ := ih
    exact hstep.lost hmem hlost'

/-- Leases are kept. -/
theorem mem_of_run {s t : State ρ ι} (h : Relation.ReflTransGen Step s t) {i : ι}
    (hl : ∃ l ∈ s.leases, l.id = i) : ∃ l ∈ t.leases, l.id = i := by
  induction h with
  | refl => exact hl
  | tail _ hstep ih =>
    obtain ⟨l, hmem, rfl⟩ := ih
    cases hstep with
    | issue r i hfree hfresh => exact ⟨l, List.mem_append_left _ hmem, rfl⟩
    | release r i hcurrent => exact ⟨l.releaseIf i, List.mem_map_of_mem hmem, by simp⟩

end FencedLease
