import ControlPlane.Lib.Table

/-!
# Deleting rows

The rows of a table that satisfy a condition are deleted; the others, and every lookup of
them, stay as they were.
-/
namespace Table
variable {α κ : Type*} [Keyed α κ]

/-- The table without the rows that satisfy a condition. -/
def deleteWhere (t : Table α) (p : α → Bool) : Table α where
  rows := t.rows.filter fun a => !p a
  nodup := t.nodup.sublist (List.filter_sublist.map key)

@[simp] theorem mem_deleteWhere {t : Table α} {p : α → Bool} {a : α} :
    a ∈ t.deleteWhere p ↔ a ∈ t ∧ p a = false := by
  simp [mem_def, deleteWhere]

theorem mem_of_mem_deleteWhere {t : Table α} {p : α → Bool} {a : α} (h : a ∈ t.deleteWhere p) :
    a ∈ t := (mem_deleteWhere.mp h).1

variable [DecidableEq κ]

theorem get?_deleteWhere {t : Table α} {p : α → Bool} {k : κ} :
    (t.deleteWhere p).get? k = (t.get? k).filter fun a => !p a := by
  refine Option.ext fun a => ?_
  rw [get?_eq_some, mem_deleteWhere, Option.filter_eq_some_iff, get?_eq_some]
  simp only [Bool.not_eq_true']
  constructor
  · rintro ⟨⟨ha, hp⟩, hkey⟩
    exact ⟨⟨ha, hkey⟩, hp⟩
  · rintro ⟨⟨ha, hkey⟩, hp⟩
    exact ⟨⟨ha, hp⟩, hkey⟩

end Table
