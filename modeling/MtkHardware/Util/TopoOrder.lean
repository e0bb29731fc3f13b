import Mathlib.Logic.Relation
import Mathlib.Data.List.Nodup
import Mathlib.Tactic.Common
import Mathlib.Algebra.Ring.Int.Defs
import Mathlib.Algebra.Ring.Nat

/-!
# Topological Orders

A list is in **topological order** for a relation when no element is there twice and
everything an element is related to comes after it in the list. The list is built at its
front: an element is put before a list that has all its successors.

## Main results

* `IsTopological.idxOf_lt_of_transGen`: a path leads from an earlier to a later position.
* `IsTopological.acyclic`: no element of a topological order is on a cycle.
-/

namespace MtkHardware

open Relation

variable {α : Type*} {R : α → α → Prop} {a b : α} {l : List α}

/-- The list is in **topological order** for the relation `R`. -/
inductive IsTopological (R : α → α → Prop) : List α → Prop
  | nil : IsTopological R []
  | cons {a : α} {l : List α} :
      a ∉ l → (∀ b, R a b → b ∈ l) → IsTopological R l → IsTopological R (a :: l)

namespace IsTopological

theorem nodup (h : IsTopological R l) : l.Nodup := by
  induction h with
  | nil => exact List.nodup_nil
  | cons hnew _ _ ih => exact List.nodup_cons.mpr ⟨hnew, ih⟩

theorem mem_of_rel (h : IsTopological R l) (ha : a ∈ l) (hab : R a b) : b ∈ l := by
  induction h with
  | nil => simp at ha
  | cons _ hsucc _ ih =>
    rcases List.mem_cons.mp ha with rfl | ha
    · exact List.mem_cons_of_mem _ (hsucc b hab)
    · exact List.mem_cons_of_mem _ (ih ha)

variable [DecidableEq α]

theorem idxOf_lt (h : IsTopological R l) (ha : a ∈ l) (hab : R a b) :
    l.idxOf a < l.idxOf b := by
  induction h with
  | nil => simp at ha
  | cons hnew hsucc hl ih =>
    rcases List.mem_cons.mp ha with rfl | ha
    · have hne : a ≠ b := fun heq => hnew (heq ▸ hsucc b hab)
      rw [List.idxOf_cons_self, List.idxOf_cons_ne _ hne]
      exact Nat.succ_pos _
    · have hb := hl.mem_of_rel ha hab
      rw [List.idxOf_cons_ne _ (ne_of_mem_of_not_mem ha hnew).symm,
        List.idxOf_cons_ne _ (ne_of_mem_of_not_mem hb hnew).symm]
      exact Nat.succ_lt_succ (ih ha)

/-- An element comes before everything a path leads to from it. -/
theorem idxOf_lt_of_transGen (h : IsTopological R l) (ha : a ∈ l) (hab : TransGen R a b) :
    l.idxOf a < l.idxOf b := by
  have hboth : b ∈ l ∧ l.idxOf a < l.idxOf b := by
    induction hab with
    | single hab => exact ⟨h.mem_of_rel ha hab, h.idxOf_lt ha hab⟩
    | tail _ hbc ih =>
      exact ⟨h.mem_of_rel ih.1 hbc, Nat.lt_trans ih.2 (h.idxOf_lt ih.1 hbc)⟩
  exact hboth.2

/-- No element of a topological order is on a **cycle**. -/
theorem acyclic (h : IsTopological R l) (ha : a ∈ l) : ¬ TransGen R a a :=
  fun hcycle => Nat.lt_irrefl _ (h.idxOf_lt_of_transGen ha hcycle)

end IsTopological

end MtkHardware
