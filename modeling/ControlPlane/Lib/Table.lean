import Mathlib.Data.List.Nodup
import Mathlib.Order.Lattice
import Mathlib.Data.Nat.Basic

/-!
# Tables

A table of a relational store: rows in insertion order whose primary keys are distinct.
The structure carries that as a field, so no operation can break it: an insertion with a
key that is taken has no result, and a row is written back over the row with its key.

## Main definitions

* `Table.get?`, `Table.insert?`, `Table.set`
* `latestBy`: the row with the greatest rank, as an ordered query limited to one row.
-/

/-- Rows with a primary key. -/
class Keyed (α : Type*) (κ : outParam Type*) where
  key : α → κ

export Keyed (key)

structure Table (α : Type*) {κ : Type*} [Keyed α κ] where
  rows : List α
  nodup : (rows.map key).Nodup

namespace Table
variable {α κ : Type*} [Keyed α κ]

/-- The table without rows. -/
def empty : Table α := ⟨[], List.nodup_nil⟩

instance : Inhabited (Table α) := ⟨empty⟩

instance : Membership α (Table α) := ⟨fun t a => a ∈ t.rows⟩

theorem mem_def {a : α} {t : Table α} : a ∈ t ↔ a ∈ t.rows := Iff.rfl

theorem ext {s t : Table α} (h : s.rows = t.rows) : s = t := by
  cases s
  cases t
  simpa using h

variable [DecidableEq κ]

/-- The row with a key. -/
def get? (t : Table α) (k : κ) : Option α := t.rows.find? (key · = k)

/-- A table with one row more; none when the key is taken. -/
def insert? (t : Table α) (a : α) : Option (Table α) :=
  if h : key a ∈ t.rows.map key then none
  else some
    { rows := t.rows ++ [a]
      nodup := by
        rw [List.map_append, List.nodup_append]
        refine ⟨t.nodup, List.nodup_singleton _, ?_⟩
        intro x hx y hy
        obtain rfl : y = key a := by simpa using hy
        exact fun heq => h (heq ▸ hx) }

/-- Write a row back over the row with its key, if there is one. -/
def set (t : Table α) (a : α) : Table α where
  rows := t.rows.map fun b => if key b = key a then a else b
  nodup := by
    have hkey : (t.rows.map fun b => if key b = key a then a else b).map key = t.rows.map key := by
      rw [List.map_map]
      refine List.map_congr_left fun b _ => ?_
      by_cases h : key b = key a <;> simp [h]
    rw [hkey]
    exact t.nodup

/-- The rows that satisfy a condition. -/
def select (t : Table α) (p : α → Bool) : List α := t.rows.filter p

/-! ### Lookup -/

omit [DecidableEq κ] in
theorem eq_of_key_eq {t : Table α} {a b : α} (ha : a ∈ t) (hb : b ∈ t) (h : key a = key b) :
    a = b := List.inj_on_of_nodup_map t.nodup ha hb h

theorem mem_of_get? {t : Table α} {k : κ} {a : α} (h : t.get? k = some a) : a ∈ t :=
  List.mem_of_find?_eq_some h

theorem key_of_get? {t : Table α} {k : κ} {a : α} (h : t.get? k = some a) : key a = k := by
  simpa using List.find?_some h

theorem get?_eq_some {t : Table α} {k : κ} {a : α} :
    t.get? k = some a ↔ a ∈ t ∧ key a = k := by
  constructor
  · exact fun h => ⟨mem_of_get? h, key_of_get? h⟩
  · rintro ⟨ha, rfl⟩
    cases hfind : t.get? (key a) with
    | none => exact absurd (List.find?_eq_none.mp hfind a ha) (by simp)
    | some b => rw [eq_of_key_eq (mem_of_get? hfind) ha (key_of_get? hfind)]

theorem get?_eq_none {t : Table α} {k : κ} : t.get? k = none ↔ ∀ a ∈ t, key a ≠ k := by
  simp only [get?, List.find?_eq_none, decide_eq_true_eq]
  exact Iff.rfl

theorem get?_key {t : Table α} {a : α} (h : a ∈ t) : t.get? (key a) = some a :=
  get?_eq_some.mpr ⟨h, rfl⟩

/-! ### Insertion -/

theorem insert?_eq_some {t t' : Table α} {a : α} :
    t.insert? a = some t' ↔ t.get? (key a) = none ∧ t'.rows = t.rows ++ [a] := by
  have hkey : key a ∈ t.rows.map key ↔ t.get? (key a) ≠ none := by
    rw [ne_eq, get?_eq_none]
    simp only [List.mem_map, mem_def, ne_eq, not_forall, not_not, exists_prop]
  by_cases h : key a ∈ t.rows.map key
  · have hsome := hkey.mp h
    simp [insert?, h, hsome]
  · have hnone : t.get? (key a) = none := not_not.mp (mt hkey.mpr h)
    simp only [insert?, h, dite_false, Option.some.injEq, hnone, true_and]
    exact ⟨fun h => h ▸ rfl, fun h => ext h.symm⟩

/-- A row with a new key can be added. -/
theorem exists_insert? {t : Table α} {a : α} (h : t.get? (key a) = none) :
    ∃ t', t.insert? a = some t' := by
  refine ⟨_, dif_neg fun hmem => ?_⟩
  obtain ⟨b, hb, hkey⟩ := List.mem_map.mp hmem
  exact get?_eq_none.mp h b hb hkey

theorem mem_insert? {t t' : Table α} {a b : α} (h : t.insert? a = some t') :
    b ∈ t' ↔ b ∈ t ∨ b = a := by
  rw [mem_def, (insert?_eq_some.mp h).2, List.mem_append, List.mem_singleton]
  rfl

theorem get?_insert? {t t' : Table α} {a : α} {k : κ} (h : t.insert? a = some t') :
    t'.get? k = if key a = k then some a else t.get? k := by
  obtain ⟨hnone, hrows⟩ := insert?_eq_some.mp h
  by_cases hk : key a = k
  · subst hk
    rw [if_pos rfl, get?_eq_some, mem_def, hrows]
    exact ⟨List.mem_append_right _ (List.mem_singleton_self a), rfl⟩
  · rw [if_neg hk, get?, get?, hrows, List.find?_append]
    simp [hk]

/-! ### Writing back -/

theorem get?_set {t : Table α} {a : α} {k : κ} :
    (t.set a).get? k = if key a = k then (t.get? k).map fun _ => a else t.get? k := by
  have hfind : ∀ rows : List α,
      (rows.map fun b => if key b = key a then a else b).find? (key · = k) =
        if key a = k then (rows.find? (key · = k)).map fun _ => a
        else rows.find? (key · = k) := by
    intro rows
    induction rows with
    | nil => simp
    | cons b rows ih =>
      by_cases hba : key b = key a
      · by_cases hk : key a = k
        · simp [hba, hk]
        · simp [hba, hk, ih]
      · by_cases hbk : key b = k
        · have hak : key a ≠ k := fun h => hba (hbk.trans h.symm)
          simp [hbk, hak, Ne.symm hak]
        · simp [hba, hbk, ih]
  exact hfind t.rows

/-- Writing back a row that is in the table. -/
theorem mem_set {t : Table α} {a b : α} (h : t.get? (key a) ≠ none) :
    b ∈ t.set a ↔ b = a ∨ (b ∈ t ∧ key b ≠ key a) := by
  obtain ⟨c, hc⟩ := Option.ne_none_iff_exists'.mp h
  simp only [mem_def, set, List.mem_map]
  constructor
  · rintro ⟨d, hd, rfl⟩
    by_cases hda : key d = key a
    · exact .inl (by simp [hda])
    · exact .inr (by simp [hda, hd])
  · rintro (rfl | ⟨hb, hne⟩)
    · exact ⟨c, mem_of_get? hc, by simp [key_of_get? hc]⟩
    · exact ⟨b, hb, by simp [hne]⟩

/-- Writing back a row changes a view of the table where the row was. -/
theorem map_rows_set {β : Type*} {t : Table α} {a : α} (view : α → β) (change : β → β)
    (hat : ∀ b ∈ t, key b = key a → view a = change (view b))
    (hoff : ∀ b ∈ t, key b ≠ key a → view b = change (view b)) :
    (t.set a).rows.map view = (t.rows.map view).map change := by
  simp only [set, List.map_map]
  refine List.map_congr_left ?_
  intro b hb
  by_cases h : key b = key a
  · simpa [h] using hat b hb h
  · simpa [h] using hoff b hb h

theorem get?_set_self {t : Table α} {a : α} (h : t.get? (key a) ≠ none) :
    (t.set a).get? (key a) = some a := by
  obtain ⟨b, hb⟩ := Option.ne_none_iff_exists'.mp h
  rw [get?_set, if_pos rfl, hb]
  rfl

/-- Of two rows written back under one key the second stays. -/
theorem set_set {t : Table α} {a b : α} (h : key a = key b) : (t.set a).set b = t.set b := by
  refine ext ?_
  simp only [set, List.map_map]
  refine List.map_congr_left ?_
  intro c _
  by_cases hc : key c = key b <;> simp [h, hc]

theorem get?_set_of_ne {t : Table α} {a : α} {k : κ} (h : key a ≠ k) :
    (t.set a).get? k = t.get? k := by
  rw [get?_set, if_neg h]

/-! ### Several rows, and another unique column -/

/-- Rows of distinct keys written back one after the other. -/
theorem rows_foldl_set {f : α → α} (hf : ∀ a, key (f a) = key a) {as : List α}
    (has : (as.map key).Nodup) (t : Table α) :
    (as.foldl (fun t a => t.set (f a)) t).rows =
      t.rows.map fun b => ((as.find? (key · = key b)).map f).getD b := by
  induction as generalizing t with
  | nil => simp
  | cons a as ih =>
    obtain ⟨hnot, has⟩ := List.nodup_cons.mp has
    rw [List.foldl_cons, ih has, set, List.map_map]
    refine List.map_congr_left fun b _ => ?_
    by_cases hb : key b = key a
    · have hnone : as.find? (fun c => decide (key c = key a)) = none := by
        simpa using fun c hc heq => hnot (List.mem_map.mpr ⟨c, hc, heq⟩)
      simp [hb, hf, hnone]
    · have hab : ¬ key a = key b := fun h => hb h.symm
      simp [hb, hf, hab]

/-- The rows of a query written back one after the other. -/
theorem rows_foldl_set_select {f : α → α} (hf : ∀ a, key (f a) = key a) {p : α → Bool}
    {as : List α} {t : Table α} (has : as.Perm (t.select p)) :
    (as.foldl (fun t a => t.set (f a)) t).rows = t.rows.map fun b => if p b then f b else b := by
  have hnodup : (as.map key).Nodup :=
    (has.map key).nodup_iff.mpr (t.nodup.sublist (List.filter_sublist.map key))
  rw [rows_foldl_set hf hnodup]
  refine List.map_congr_left fun b hb => ?_
  cases hfind : as.find? (fun a => decide (key a = key b)) with
  | none =>
    have hnot : ¬ p b = true := fun hp =>
      absurd (has.mem_iff.mpr (List.mem_filter.mpr ⟨hb, hp⟩))
        fun hmem => by simpa using List.find?_eq_none.mp hfind b hmem
    simp [hnot]
  | some a =>
    have hmem := List.mem_filter.mp (has.mem_iff.mp (List.mem_of_find?_eq_some hfind))
    have hkey : key a = key b := by simpa using List.find?_some hfind
    obtain rfl : a = b := eq_of_key_eq hmem.1 hb hkey
    simp [hmem.2]

section Column
variable {β : Type*} [DecidableEq β] {col : α → β} {t : Table α}

omit [DecidableEq κ] in
/-- Lookup by a column whose values are distinct. -/
theorem find?_col_eq_some (h : (t.rows.map col).Nodup) {x : β} {a : α} :
    t.rows.find? (col · = x) = some a ↔ a ∈ t ∧ col a = x := by
  constructor
  · intro hfind
    exact ⟨List.mem_of_find?_eq_some hfind, by simpa using List.find?_some hfind⟩
  · rintro ⟨ha, rfl⟩
    cases hfind : t.rows.find? (fun b => decide (col b = col a)) with
    | none => exact absurd (List.find?_eq_none.mp hfind a ha) (by simp)
    | some b =>
      have hb : col b = col a := by simpa using List.find?_some hfind
      rw [List.inj_on_of_nodup_map h (List.mem_of_find?_eq_some hfind) ha hb]

omit [DecidableEq β] in
theorem map_col_set {a b : α} (hb : t.get? (key a) = some b) (hcol : col a = col b) :
    (t.set a).rows.map col = t.rows.map col := by
  simpa using map_rows_set col id (fun c hc hkey => by
    rw [hcol, eq_of_key_eq (mem_of_get? hb) hc ((key_of_get? hb).trans hkey.symm)]; rfl)
    fun _ _ _ => rfl

/-- Lookup by another unique column after a row was written back. -/
theorem find?_col_set (h : (t.rows.map col).Nodup) {a b : α} (hb : t.get? (key a) = some b)
    (hcol : col a = col b) (x : β) :
    (t.set a).rows.find? (col · = x) =
      if col a = x then some a else t.rows.find? (col · = x) := by
  have hset : ((t.set a).rows.map col).Nodup := by rwa [map_col_set hb hcol]
  have hne : t.get? (key a) ≠ none := by rw [hb]; exact Option.some_ne_none b
  by_cases hx : col a = x
  · rw [if_pos hx, find?_col_eq_some hset]
    exact ⟨(mem_set hne).mpr (.inl rfl), hx⟩
  · rw [if_neg hx]
    refine Option.ext fun c => ?_
    rw [find?_col_eq_some hset, find?_col_eq_some h, mem_set hne]
    constructor
    · rintro ⟨rfl | ⟨hc, -⟩, hcx⟩
      · exact absurd hcx hx
      · exact ⟨hc, hcx⟩
    · rintro ⟨hc, hcx⟩
      refine ⟨.inr ⟨hc, fun hkey => hx ?_⟩, hcx⟩
      rw [hcol, ← eq_of_key_eq hc (mem_of_get? hb) (hkey.trans (key_of_get? hb).symm), hcx]

end Column

end Table

/-! ### Ordered queries -/

/-- The row with the greatest rank; of several, the last one. -/
def latestBy {α : Type*} (rank : α → ℕ) : List α → Option α
  | [] => none
  | a :: as =>
    match latestBy rank as with
    | none => some a
    | some b => if rank b < rank a then some a else some b

section Latest
variable {α : Type*} {rank : α → ℕ}

@[simp] theorem latestBy_eq_none {as : List α} : latestBy rank as = none ↔ as = [] := by
  cases as with
  | nil => simp [latestBy]
  | cons a as =>
    simp only [latestBy]
    cases latestBy rank as with
    | none => simp
    | some b => by_cases h : rank b < rank a <;> simp [h]

theorem latestBy_spec {as : List α} {a : α} (h : latestBy rank as = some a) :
    a ∈ as ∧ ∀ b ∈ as, rank b ≤ rank a := by
  induction as generalizing a with
  | nil => simp [latestBy] at h
  | cons c as ih =>
    simp only [latestBy] at h
    cases hlast : latestBy rank as with
    | none =>
      obtain rfl : c = a := by simpa [hlast] using h
      obtain rfl : as = [] := latestBy_eq_none.mp hlast
      simp
    | some d =>
      obtain ⟨hmem, hmax⟩ := ih hlast
      rw [hlast] at h
      by_cases hlt : rank d < rank c
      · obtain rfl : c = a := by simpa [hlt] using h
        refine ⟨List.mem_cons_self, fun b hb => ?_⟩
        rcases List.mem_cons.mp hb with rfl | hb
        · exact le_rfl
        · exact (hmax b hb).trans hlt.le
      · obtain rfl : d = a := by simpa [hlt] using h
        refine ⟨List.mem_cons_of_mem c hmem, fun b hb => ?_⟩
        rcases List.mem_cons.mp hb with rfl | hb
        · exact not_lt.mp hlt
        · exact hmax b hb

/-- A row appended with a rank at least as great is the latest. -/
theorem latestBy_append_singleton {as : List α} {a : α} (h : ∀ b ∈ as, rank b ≤ rank a) :
    latestBy rank (as ++ [a]) = some a := by
  induction as with
  | nil => rfl
  | cons c as ih =>
    have hlast := ih fun b hb => h b (List.mem_cons_of_mem c hb)
    have hle : ¬ rank a < rank c := not_lt.mpr (h c List.mem_cons_self)
    simp only [List.cons_append, latestBy, hlast, hle, if_false]

end Latest

/-- The greatest rank among rows, zero without rows. -/
def maxRank {α : Type*} (rank : α → ℕ) (as : List α) : ℕ := (as.map rank).foldr max 0

theorem le_maxRank {α : Type*} {rank : α → ℕ} {as : List α} {a : α} (h : a ∈ as) :
    rank a ≤ maxRank rank as := by
  induction as with
  | nil => simp at h
  | cons b as ih =>
    simp only [maxRank, List.map_cons, List.foldr_cons]
    rcases List.mem_cons.mp h with rfl | h
    · exact le_max_left _ _
    · exact (ih h).trans (le_max_right _ _)
