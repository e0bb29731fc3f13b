import Mathlib.Data.List.Induction
import Mathlib.Data.List.Sort
import Mathlib.Data.Multiset.Filter
import Mathlib.Data.Multiset.Count
import Mathlib.Algebra.Ring.Int.Defs
import Mathlib.Algebra.Ring.Nat

/-!
# Ordered Multisets

An `OrderedMultiset` is a list of elements in increasing order of their keys, where elements of
equal keys are in the order of their insertion: `insert` puts an element behind the last one that
is not greater, `eraseKey` takes all elements of a key out, and `eraseFirst` the first element that
a predicate holds of. The order is a field of the structure.

## Main results

* `OrderedMultiset.contents_insert`, `OrderedMultiset.contents_eraseFirst`,
  `OrderedMultiset.contents_eraseKey`: the elements after an edit.
* `OrderedMultiset.contents_ofList`: the elements of a list, inserted one by one.
* `filter_ne_eq_erase_iff`: erasing all elements of a key erases one exactly where there is one.
-/

namespace MtkHardware

structure OrderedMultiset {α κ : Type*} [LinearOrder κ] (key : α → κ) where
  /-- The elements, in iteration order. -/
  entries : List α
  /-- The keys are increasing. -/
  sorted : entries.Pairwise fun a b => key a ≤ key b

namespace OrderedMultiset

variable {α κ : Type*} [LinearOrder κ] {key : α → κ}

instance [DecidableEq α] : DecidableEq (OrderedMultiset key) := fun s t =>
  decidable_of_iff (s.entries = t.entries)
    ⟨fun h => by cases s; cases t; cases h; rfl, fun h => h ▸ rfl⟩

def empty : OrderedMultiset key := ⟨[], List.Pairwise.nil⟩

/-- The elements, in no order. -/
def contents (s : OrderedMultiset key) : Multiset α := s.entries

/-- The list with an element behind the last one that is not greater. -/
def insertEntry (key : α → κ) (a : α) (l : List α) : List α :=
  l.orderedInsert (fun a b => key a < key b) a

theorem sorted_insertEntry (a : α) {l : List α} (h : l.Pairwise fun a b => key a ≤ key b) :
    (insertEntry key a l).Pairwise fun a b => key a ≤ key b := by
  induction l with
  | nil => simp [insertEntry]
  | cons b l ih =>
    obtain ⟨hb, hl⟩ := List.pairwise_cons.mp h
    rw [insertEntry, List.orderedInsert_cons]
    split_ifs with hlt
    · refine List.pairwise_cons.mpr ⟨fun c hc => ?_, h⟩
      obtain rfl | hc := List.mem_cons.mp hc
      · exact hlt.le
      · exact hlt.le.trans (hb c hc)
    · refine List.pairwise_cons.mpr ⟨fun c hc => ?_, ih hl⟩
      obtain rfl | hc := List.mem_cons.mp ((List.perm_orderedInsert _ a l).subset hc)
      · exact not_lt.mp hlt
      · exact hb c hc

/-- An element more. -/
def insert (s : OrderedMultiset key) (a : α) : OrderedMultiset key :=
  ⟨insertEntry key a s.entries, sorted_insertEntry a s.sorted⟩

/-- Without the first element that the predicate holds of. -/
def eraseFirst (s : OrderedMultiset key) (p : α → Bool) : OrderedMultiset key :=
  ⟨s.entries.eraseP p, s.sorted.sublist List.eraseP_sublist⟩

/-- Without all elements of a key. -/
def eraseKey (s : OrderedMultiset key) (k : κ) : OrderedMultiset key :=
  ⟨s.entries.filter fun a => key a ≠ k, s.sorted.sublist List.filter_sublist⟩

def ofList (key : α → κ) (l : List α) : OrderedMultiset key := l.foldl insert empty

@[simp] theorem contents_empty : (empty : OrderedMultiset key).contents = 0 := rfl

@[simp] theorem contents_insert (s : OrderedMultiset key) (a : α) :
    (s.insert a).contents = a ::ₘ s.contents :=
  Multiset.coe_eq_coe.mpr (List.perm_orderedInsert _ a s.entries)

@[simp] theorem contents_eraseKey (s : OrderedMultiset key) (k : κ) :
    (s.eraseKey k).contents = s.contents.filter fun a => key a ≠ k := rfl

/-- The first element that the predicate holds of is erased. -/
theorem contents_eraseFirst {s : OrderedMultiset key} {p : α → Bool} {a : α}
    (h : s.entries.find? p = some a) : s.contents = a ::ₘ (s.eraseFirst p).contents := by
  obtain ⟨hp, l, l', hl, hnot⟩ := List.find?_eq_some_iff_append.mp h
  have hnot : ∀ b ∈ l, ¬ p b = true := fun b hb => by simpa using hnot b hb
  have herase : s.entries.eraseP p = l ++ l' := by
    rw [hl, List.eraseP_append_right _ hnot, List.eraseP_cons_of_pos hp]
  have hperm : s.entries.Perm (a :: s.entries.eraseP p) := by
    rw [herase, hl]
    exact List.perm_middle
  exact Multiset.coe_eq_coe.mpr hperm

theorem contents_ofList (l : List α) : (ofList key l).contents = l := by
  induction l using List.reverseRecOn with
  | nil => rfl
  | append_singleton l a ih =>
    rw [ofList, List.foldl_append, List.foldl_cons, List.foldl_nil, contents_insert, ← ofList, ih]
    exact Multiset.coe_eq_coe.mpr (List.perm_append_singleton a l).symm

theorem mem_insert {s : OrderedMultiset key} {a b : α} :
    a ∈ (s.insert b).entries ↔ a = b ∨ a ∈ s.entries :=
  List.mem_orderedInsert _

theorem mem_ofList {l : List α} {a : α} : a ∈ (ofList key l).entries ↔ a ∈ l := by
  rw [← Multiset.mem_coe, ← Multiset.mem_coe, ← contents, contents_ofList]

end OrderedMultiset

/-- Erasing all elements of a value erases one exactly where there is one. -/
theorem filter_ne_eq_erase_iff {α : Type*} [DecidableEq α] {s : Multiset α} {a : α} (h : a ∈ s) :
    s.filter (· ≠ a) = s.erase a ↔ s.count a = 1 := by
  have hpos : 0 < s.count a := Multiset.count_pos.mpr h
  have hnone : (s.filter (· ≠ a)).count a = 0 := Multiset.count_eq_zero.mpr (by simp)
  constructor
  · intro heq
    rw [heq, Multiset.count_erase_self] at hnone
    omega
  · intro hone
    ext b
    by_cases hb : b = a
    · rw [hb, hnone, Multiset.count_erase_self, hone]
    · rw [Multiset.count_filter, if_pos hb, Multiset.count_erase_of_ne hb]

end MtkHardware
