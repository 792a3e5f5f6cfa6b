import Mathlib.Data.List.Nodup
import Mathlib.Data.List.Perm.Basic
import Mathlib.Data.List.Lattice

/-!
# Dictionaries

A dictionary of a dynamically typed program: entries in the order their keys were first
written, each key once. The structure carries that as a field.

## Main definitions

* `Dict.get?`, `Dict.set`
* `Dict.keysWhere`: the keys whose value satisfies a condition.

## Main results

* `length_keysWhere_eq`: how many keys satisfy a condition depends on the values alone, not
  on the order in which they were written.
-/

structure Dict (κ α : Type*) where
  entries : List (κ × α)
  nodup : (entries.map Prod.fst).Nodup

namespace Dict
variable {κ α : Type*}

/-- The dictionary without entries. -/
def empty : Dict κ α := ⟨[], List.nodup_nil⟩

instance : Inhabited (Dict κ α) := ⟨empty⟩

variable [DecidableEq κ]

/-- The value under a key. -/
def get? (d : Dict κ α) (k : κ) : Option α := (d.entries.find? (·.1 = k)).map Prod.snd

/-- Write a value under a key: in place when the key is there, at the end otherwise. -/
def set (d : Dict κ α) (k : κ) (a : α) : Dict κ α :=
  if h : k ∈ d.entries.map Prod.fst then
    { entries := d.entries.map fun e => if e.1 = k then (k, a) else e
      nodup := by
        have hkeys : (d.entries.map fun e => if e.1 = k then (k, a) else e).map Prod.fst =
            d.entries.map Prod.fst := by
          rw [List.map_map]
          refine List.map_congr_left fun e _ => ?_
          by_cases he : e.1 = k <;> simp [he]
        rw [hkeys]
        exact d.nodup }
  else
    { entries := d.entries ++ [(k, a)]
      nodup := by
        rw [List.map_append, List.nodup_append]
        refine ⟨d.nodup, List.nodup_singleton _, fun x hx y hy => ?_⟩
        obtain rfl : y = k := by simpa using hy
        exact fun heq => h (heq ▸ hx) }

/-- The dictionary that writes some pairs one after another. -/
def ofList (pairs : List (κ × α)) : Dict κ α :=
  pairs.foldl (fun d p => d.set p.1 p.2) empty

/-- The keys whose value satisfies a condition. -/
def keysWhere (d : Dict κ α) (p : α → Bool) : List κ :=
  (d.entries.filter fun e => p e.2).map Prod.fst

/-! ### Lookup -/

@[simp] theorem get?_empty (k : κ) : (empty : Dict κ α).get? k = none := rfl

theorem get?_eq_some {d : Dict κ α} {k : κ} {a : α} :
    d.get? k = some a ↔ (k, a) ∈ d.entries := by
  constructor
  · intro h
    obtain ⟨e, hfind, rfl⟩ := Option.map_eq_some_iff.mp h
    have hkey : e.1 = k := by simpa using List.find?_some hfind
    subst hkey
    exact List.mem_of_find?_eq_some hfind
  · intro h
    cases hfind : d.entries.find? (·.1 = k) with
    | none => exact absurd (List.find?_eq_none.mp hfind _ h) (by simp)
    | some e =>
      have hkey : e.1 = k := by simpa using List.find?_some hfind
      have he : e = (k, a) :=
        List.inj_on_of_nodup_map d.nodup (List.mem_of_find?_eq_some hfind) h hkey
      simp [get?, hfind, he]

theorem get?_eq_none {d : Dict κ α} {k : κ} : d.get? k = none ↔ k ∉ d.entries.map Prod.fst := by
  constructor
  · intro h hmem
    obtain ⟨e, he, rfl⟩ := List.mem_map.mp hmem
    rw [get?_eq_some.mpr he] at h
    cases h
  · intro h
    cases hget : d.get? k with
    | none => rfl
    | some a => exact absurd (List.mem_map_of_mem (get?_eq_some.mp hget)) h

theorem get?_set (d : Dict κ α) (k l : κ) (a : α) :
    (d.set k a).get? l = if l = k then some a else d.get? l := by
  by_cases hmem : k ∈ d.entries.map Prod.fst
  · have hentries : (d.set k a).entries = d.entries.map fun e => if e.1 = k then (k, a) else e := by
      simp [set, hmem]
    by_cases hl : l = k
    · subst hl
      rw [if_pos rfl, get?_eq_some, hentries]
      obtain ⟨e, he, hkey⟩ := List.mem_map.mp hmem
      exact List.mem_map.mpr ⟨e, he, by simp [hkey]⟩
    · rw [if_neg hl]
      ext b
      rw [get?_eq_some, get?_eq_some, hentries, List.mem_map]
      constructor
      · rintro ⟨e, he, heq⟩
        by_cases hek : e.1 = k
        · simp only [hek, if_true, Prod.mk.injEq] at heq
          exact absurd heq.1.symm hl
        · simp only [hek, if_false] at heq
          exact heq ▸ he
      · intro he
        exact ⟨(l, b), he, by simp [hl]⟩
  · have hentries : (d.set k a).entries = d.entries ++ [(k, a)] := by simp [set, hmem]
    by_cases hl : l = k
    · subst hl
      rw [if_pos rfl, get?_eq_some, hentries]
      simp
    · rw [if_neg hl]
      ext b
      rw [get?_eq_some, get?_eq_some, hentries]
      simp [hl]

/-- What is written for a key last counts. -/
theorem get?_foldl_set_const {keys : List κ} {a : α} {d : Dict κ α} {k : κ} :
    ((keys.map fun key => (key, a)).foldl (fun d p => d.set p.1 p.2) d).get? k =
      if k ∈ keys then some a else d.get? k := by
  induction keys generalizing d with
  | nil => simp
  | cons key keys ih =>
    rw [List.map_cons, List.foldl_cons, ih, get?_set]
    by_cases hk : k = key
    · simp [hk]
    · simp [hk]

theorem get?_ofList_const {keys : List κ} {a : α} {k : κ} :
    (ofList (keys.map fun key => (key, a))).get? k = if k ∈ keys then some a else none := by
  rw [ofList, get?_foldl_set_const, get?_empty]

/-- A query that looks at one key only finds what is under the key. -/
theorem getLast?_filterMap_entries {β : Type*} (d : Dict κ α) (k : κ) (f : α → Option β) :
    (d.entries.filterMap fun e => if e.1 = k then f e.2 else none).getLast? =
      (d.get? k).bind f := by
  obtain ⟨entries, hnodup⟩ := d
  simp only [get?]
  induction entries with
  | nil => rfl
  | cons e entries ih =>
    rw [List.map_cons, List.nodup_cons] at hnodup
    have ih := ih hnodup.2
    by_cases he : e.1 = k
    · -- No later entry has the key.
      have hrest : (entries.filterMap fun e => if e.1 = k then f e.2 else none) = [] := by
        refine List.filterMap_eq_nil_iff.mpr fun x hx => ?_
        have hne : x.1 ≠ k := fun heq => hnodup.1 (he ▸ heq ▸ List.mem_map_of_mem hx)
        rw [if_neg hne]
      cases hf : f e.2 with
      | none => simp [he, hf, hrest]
      | some b => simp [he, hf, hrest]
    · rw [List.find?_cons_of_neg (by simpa using he), ← ih]
      simp [he]

/-! ### Keys -/

theorem mem_keysWhere {d : Dict κ α} {p : α → Bool} {k : κ} :
    k ∈ d.keysWhere p ↔ ∃ a, d.get? k = some a ∧ p a = true := by
  simp only [keysWhere, List.mem_map, List.mem_filter, get?_eq_some]
  constructor
  · rintro ⟨e, ⟨he, hp⟩, rfl⟩
    exact ⟨e.2, he, hp⟩
  · rintro ⟨a, ha, hp⟩
    exact ⟨(k, a), ⟨ha, hp⟩, rfl⟩

omit [DecidableEq κ] in
theorem nodup_keysWhere (d : Dict κ α) (p : α → Bool) : (d.keysWhere p).Nodup :=
  (List.filter_sublist.map Prod.fst).nodup d.nodup

omit [DecidableEq κ] in
/-- How many keys satisfy a condition depends on the values alone. -/
theorem length_keysWhere_eq {β : Type*} {d : Dict κ α} {e : Dict κ β} {p : α → Bool}
    {q : β → Bool} (h : ∀ k, k ∈ d.keysWhere p ↔ k ∈ e.keysWhere q) :
    (d.keysWhere p).length = (e.keysWhere q).length :=
  ((List.perm_ext_iff_of_nodup (d.nodup_keysWhere p) (e.nodup_keysWhere q)).mpr h).length_eq

end Dict
