import Mathlib.Data.List.Sort
import Mathlib.Order.Basic
import Mathlib.Tactic.Common
import Mathlib.Algebra.Ring.Int.Defs
import Mathlib.Algebra.Ring.Nat

/-!
# Sorted Vectors

A `SortedVector` is a set of items kept in strictly increasing order: iteration by index is
iteration in order, and no item is there twice. The order is a field of the structure.

## Main results

* `SortedVector.mem_add`, `SortedVector.mem_remove`: membership after an edit.
-/

namespace MtkHardware

structure SortedVector (α : Type*) [LinearOrder α] where
  /-- The items, in index order. -/
  items : List α
  /-- The items are strictly increasing. -/
  sorted : items.Pairwise (· < ·)

namespace SortedVector

variable {α : Type*} [LinearOrder α] {a b : α}

instance : DecidableEq (SortedVector α) := fun s t =>
  decidable_of_iff (s.items = t.items)
    ⟨fun h => by cases s; cases t; cases h; rfl, fun h => h ▸ rfl⟩

instance : Membership α (SortedVector α) := ⟨fun s a => a ∈ s.items⟩

instance (a : α) (s : SortedVector α) : Decidable (a ∈ s) :=
  inferInstanceAs (Decidable (a ∈ s.items))

def empty : SortedVector α := ⟨[], List.Pairwise.nil⟩

/-- The number of items. -/
def size (s : SortedVector α) : ℕ := s.items.length

@[simp] theorem mem_items {s : SortedVector α} : a ∈ s.items ↔ a ∈ s := Iff.rfl

@[simp] theorem not_mem_empty : a ∉ (empty : SortedVector α) := by
  simp [← mem_items, empty]

theorem nodup (s : SortedVector α) : s.items.Nodup := s.sorted.imp fun h => ne_of_lt h

def insertItem (a : α) : List α → List α
  | [] => [a]
  | b :: l => if a < b then a :: b :: l else if a = b then b :: l else b :: insertItem a l

theorem mem_insertItem {l : List α} : b ∈ insertItem a l ↔ b = a ∨ b ∈ l := by
  induction l with
  | nil => simp [insertItem]
  | cons c l ih =>
    rw [insertItem]
    split
    · exact List.mem_cons
    · split
      · rename_i heq
        subst heq
        simp
      · rw [List.mem_cons, ih, List.mem_cons]
        exact or_left_comm

theorem sorted_insertItem {l : List α} (h : l.Pairwise (· < ·)) :
    (insertItem a l).Pairwise (· < ·) := by
  induction l with
  | nil => simp [insertItem]
  | cons b l ih =>
    have hb := List.pairwise_cons.mp h
    rw [insertItem]
    split
    · rename_i hlt
      refine List.pairwise_cons.mpr ⟨fun c hc => ?_, h⟩
      rcases List.mem_cons.mp hc with rfl | hc
      · exact hlt
      · exact lt_trans hlt (hb.1 c hc)
    · split
      · exact h
      · rename_i hlt hne
        refine List.pairwise_cons.mpr ⟨fun c hc => ?_, ih hb.2⟩
        rcases mem_insertItem.mp hc with rfl | hc
        · exact lt_of_le_of_ne (not_lt.mp hlt) (Ne.symm hne)
        · exact hb.1 c hc

def add (s : SortedVector α) (a : α) : SortedVector α :=
  ⟨insertItem a s.items, sorted_insertItem s.sorted⟩

def remove (s : SortedVector α) (a : α) : SortedVector α :=
  ⟨s.items.filter (· ≠ a), s.sorted.filter _⟩

@[simp] theorem mem_add {s : SortedVector α} : b ∈ s.add a ↔ b = a ∨ b ∈ s := mem_insertItem

@[simp] theorem mem_remove {s : SortedVector α} : b ∈ s.remove a ↔ b ∈ s ∧ b ≠ a := by
  simp [← mem_items, remove]

end SortedVector

end MtkHardware
