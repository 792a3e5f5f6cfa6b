import Mathlib.Data.List.Sort
import Mathlib.Data.Nat.Notation

/-!
# Ordered placements

Rows that say which members an owner has, and at which position. What an owner has is read in
the order of the positions. New owners get a list of members, or the rows of another owner.

## Main definitions

* `Placement.members`: the members of an owner, in order.
* `Placement.listed`, `Placement.copied`: the rows of a new owner.

## Main results

* `Placement.members_listed`, `Placement.members_copied`: a new owner has what it was given.
-/

structure Placement (κ ι : Type*) where
  owner : κ
  member : ι
  position : ℕ

namespace Placement
variable {κ ι : Type*} [DecidableEq κ]

/-- The rows of an owner in the order of their positions. -/
def rowsOf (rows : List (Placement κ ι)) (owner : κ) : List (Placement κ ι) :=
  (rows.filter (·.owner = owner)).insertionSort fun a b => a.position ≤ b.position

/-- What an owner has, in the order of the positions. -/
def members (rows : List (Placement κ ι)) (owner : κ) : List ι := (rowsOf rows owner).map member

/-- The rows of an owner with the members of a list, from position one on. -/
def listed (owner : κ) (ids : List ι) : List (Placement κ ι) :=
  ids.zipIdx.map fun (id, n) => ⟨owner, id, n + 1⟩

/-- The rows of one owner written again for another. -/
def copied (rows : List (Placement κ ι)) (source target : κ) : List (Placement κ ι) :=
  (rowsOf rows source).map fun m => { m with owner := target }

section Rows
variable {rows new : List (Placement κ ι)} {owner source target : κ} {ids : List ι}

theorem mem_rowsOf {m : Placement κ ι} : m ∈ rowsOf rows owner ↔ m ∈ rows ∧ m.owner = owner := by
  simp [rowsOf]

omit [DecidableEq κ] in
theorem owner_of_mem_listed {m : Placement κ ι} (h : m ∈ listed owner ids) : m.owner = owner := by
  obtain ⟨_, -, rfl⟩ := List.mem_map.mp h
  rfl

theorem owner_of_mem_copied {m : Placement κ ι} (h : m ∈ copied rows source target) :
    m.owner = target := by
  obtain ⟨_, -, rfl⟩ := List.mem_map.mp h
  rfl

theorem exists_of_mem_copied {m : Placement κ ι} (h : m ∈ copied rows source target) :
    ∃ m' ∈ rows, m'.owner = source ∧ m'.member = m.member := by
  obtain ⟨m', hm', rfl⟩ := List.mem_map.mp h
  exact ⟨m', (mem_rowsOf.mp hm').1, (mem_rowsOf.mp hm').2, rfl⟩

theorem mem_members {id : ι} : id ∈ members rows owner ↔
    ∃ m ∈ rows, m.owner = owner ∧ m.member = id := by
  simp only [members, List.mem_map, mem_rowsOf, and_assoc]

/-- Rows of other owners add nothing. -/
theorem members_append_of_ne (h : ∀ m ∈ new, m.owner ≠ owner) :
    members (rows ++ new) owner = members rows owner := by
  have hnone : new.filter (·.owner = owner) = [] :=
    List.filter_eq_nil_iff.mpr fun m hm => by simpa using h m hm
  rw [members, members, rowsOf, rowsOf, List.filter_append, hnone, List.append_nil]

/-- An owner without rows gets the members of new ones in the order they are written in. -/
theorem members_append_of_sorted (hold : ∀ m ∈ rows, m.owner ≠ owner)
    (hnew : ∀ m ∈ new, m.owner = owner)
    (hsorted : new.Pairwise fun a b => a.position ≤ b.position) :
    members (rows ++ new) owner = new.map member := by
  have hnone : rows.filter (·.owner = owner) = [] :=
    List.filter_eq_nil_iff.mpr fun m hm => by simpa using hold m hm
  have hall : new.filter (·.owner = owner) = new :=
    List.filter_eq_self.mpr fun m hm => decide_eq_true (hnew m hm)
  rw [members, rowsOf, List.filter_append, hnone, hall, List.nil_append,
    hsorted.insertionSort_eq]

omit [DecidableEq κ] in
theorem pairwise_listed (owner : κ) (ids : List ι) :
    (listed owner ids).Pairwise fun a b => a.position ≤ b.position := by
  have hpositions : (listed owner ids).map position = (ids.zipIdx.map Prod.snd).map (1 + ·) := by
    rw [listed, List.map_map, List.map_map]
    exact List.map_congr_left fun _ _ => Nat.add_comm _ _
  have hstrict : ((listed owner ids).map position).Pairwise (· < ·) := by
    rw [hpositions, List.zipIdx_map_snd, List.map_add_range']
    exact List.pairwise_lt_range'
  exact (List.pairwise_map.mp hstrict).imp fun h => h.le

omit [DecidableEq κ] in
theorem map_member_listed (owner : κ) (ids : List ι) : (listed owner ids).map member = ids := by
  rw [listed, List.map_map]
  exact List.zipIdx_map_fst 0 ids

/-- A new owner has the members it was given. -/
theorem members_listed (h : ∀ m ∈ rows, m.owner ≠ owner) :
    members (rows ++ listed owner ids) owner = ids := by
  rw [members_append_of_sorted h (fun _ => owner_of_mem_listed) (pairwise_listed owner ids),
    map_member_listed]

theorem pairwise_rowsOf (rows : List (Placement κ ι)) (owner : κ) :
    (rowsOf rows owner).Pairwise fun a b => a.position ≤ b.position := by
  exact List.pairwise_insertionSort _ _

/-- A new owner has the members of the owner whose rows it was given. -/
theorem members_copied (h : ∀ m ∈ rows, m.owner ≠ target) :
    members (rows ++ copied rows source target) target = members rows source := by
  have hsorted : (copied rows source target).Pairwise fun a b => a.position ≤ b.position :=
    List.pairwise_map.mpr (pairwise_rowsOf rows source)
  rw [members_append_of_sorted h (fun _ => owner_of_mem_copied) hsorted, copied, List.map_map,
    members]
  rfl

end Rows

end Placement
