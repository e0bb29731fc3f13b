import Mathlib.Data.List.Basic
import Mathlib.Data.List.Nodup
import Mathlib.Algebra.BigOperators.Group.List.Basic
import Mathlib.Tactic.Common
import Mathlib.Algebra.Ring.Int.Defs
import Mathlib.Algebra.Ring.Nat
import Mathlib.Order.Lattice

/-!
# Lists

Facts about lists that several developments share.

## Main results

* `mapM_eq_some_iff`: a traversal in `Option` succeeds exactly when every call does.
* `countP_eq_countP_add_one`: the count of a predicate over distinct elements drops by
  one when the predicate is switched off at one of them.
* `countP_update`: what a change of a function at one point does to a count of its values.
* `sum_map_set_add`: what replacing one element does to a sum over a list.
* `mem_takeWhile_ne_iff`: what precedes an element of an increasing list.
* `forall_of_getElem`: what holds at each index.
* `forall_eq_of_filterMap_eq`: when two selections of the same elements are equal.
-/

namespace MtkHardware

/-- A property of the elements of a list is decided over the list, also where the type is finite. -/
instance (priority := 2000) decidableForallMem {α : Type*} (l : List α) (p : α → Prop)
    [DecidablePred p] : Decidable (∀ a ∈ l, p a) := List.decidableBAll p l

instance (priority := 2000) decidableForallMemOption {α : Type*} (o : Option α) (p : α → Prop)
    [DecidablePred p] : Decidable (∀ a ∈ o, p a) :=
  decidable_of_iff (∀ a ∈ o.toList, p a) (by simp)

/-- A traversal in `Option` succeeds exactly when every call does. -/
theorem mapM_eq_some_iff {α β : Type*} {f : α → Option β} {l : List α} {rs : List β} :
    l.mapM f = some rs ↔ l.map f = rs.map some := by
  induction l generalizing rs with
  | nil => cases rs <;> simp
  | cons a l ih =>
    rw [List.mapM_cons, Option.bind_eq_bind, Option.bind_eq_some_iff]
    constructor
    · rintro ⟨b, hb, hrest⟩
      rw [Option.bind_eq_bind, Option.bind_eq_some_iff] at hrest
      obtain ⟨bs, hbs, heq⟩ := hrest
      rw [← Option.some_inj.mp heq, List.map_cons, List.map_cons, hb, ih.mp hbs]
    · intro h
      cases rs with
      | nil => simp at h
      | cons b bs =>
        rw [List.map_cons, List.map_cons, List.cons.injEq] at h
        exact ⟨b, h.1, by simp [ih.mpr h.2]⟩

/-- A function that yields a value on every element of a list. -/
theorem exists_map_eq_map_some {α β : Type*} {f : α → Option β} {l : List α}
    (h : ∀ a ∈ l, ∃ b, f a = some b) : ∃ rs : List β, l.map f = rs.map some := by
  induction l with
  | nil => exact ⟨[], rfl⟩
  | cons a l ih =>
    obtain ⟨b, hb⟩ := h a List.mem_cons_self
    obtain ⟨rs, hrs⟩ := ih fun c hc => h c (List.mem_cons_of_mem _ hc)
    exact ⟨b :: rs, by rw [List.map_cons, List.map_cons, hb, hrs]⟩

theorem isEmpty_append {α : Type*} (l₁ l₂ : List α) :
    (l₁ ++ l₂).isEmpty = (l₁.isEmpty && l₂.isEmpty) := by
  cases l₁ <;> rfl

/-! ### Counting over distinct elements -/

/-- Switching a predicate off at exactly one member of a list of distinct elements
lowers its count by one. -/
theorem countP_eq_countP_add_one {α : Type*} {l : List α} {a : α} {p q : α → Bool}
    (hl : l.Nodup) (ha : a ∈ l) (hp : p a = true) (hq : q a = false)
    (hpq : ∀ b ∈ l, b ≠ a → p b = q b) : l.countP p = l.countP q + 1 := by
  induction l with
  | nil => simp at ha
  | cons b l ih =>
    rw [List.nodup_cons] at hl
    rcases List.mem_cons.mp ha with rfl | hmem
    · have hrest : l.countP p = l.countP q := List.countP_congr fun c hc => by
        rw [hpq c (List.mem_cons_of_mem _ hc) (ne_of_mem_of_not_mem hc hl.1)]
      simp [hp, hq, hrest]
    · have hb : b ≠ a := (ne_of_mem_of_not_mem hmem hl.1).symm
      rw [List.countP_cons, List.countP_cons, hpq b List.mem_cons_self hb,
        ih hl.2 hmem fun c hc => hpq c (List.mem_cons_of_mem _ hc)]
      omega

/-- A predicate that holds of the same members of two lists of distinct elements. -/
theorem countP_eq_of_nodup {α : Type*} {l l' : List α} {p : α → Bool} (hl : l.Nodup)
    (hl' : l'.Nodup) (h : ∀ a, p a = true → (a ∈ l ↔ a ∈ l')) : l.countP p = l'.countP p := by
  have hperm : (l.filter p).Perm (l'.filter p) := by
    refine (List.perm_ext_iff_of_nodup (hl.filter p) (hl'.filter p)).mpr fun a => ?_
    rw [List.mem_filter, List.mem_filter]
    exact and_congr_left fun hp => h a hp
  rw [List.countP_eq_length_filter, List.countP_eq_length_filter, hperm.length_eq]

/-- A predicate that is one of two others, which exclude each other. -/
theorem countP_eq_add {α : Type*} {l : List α} {p q r : α → Bool}
    (h : ∀ a ∈ l, r a = (p a || q a) ∧ (p a && q a) = false) :
    l.countP r = l.countP p + l.countP q := by
  induction l with
  | nil => rfl
  | cons a l ih =>
    obtain ⟨⟨hor, hand⟩, hrest⟩ := List.forall_mem_cons.mp h
    rw [List.countP_cons, List.countP_cons, List.countP_cons, ih hrest, hor]
    cases hp : p a <;> cases hq : q a <;> simp [hp, hq] at hand ⊢ <;> omega

/-! ### Sums -/

/-- Replacing one element of a list changes a sum over the list by what the element
contributes. -/
theorem sum_map_set_add {α : Type*} {l : List α} {c : ℕ} {a : α} (h : l[c]? = some a)
    (a' : α) (f : α → ℕ) :
    ((l.set c a').map f).sum + f a = (l.map f).sum + f a' := by
  induction l generalizing c with
  | nil => simp at h
  | cons b l ih =>
    cases c with
    | zero =>
      obtain rfl : b = a := by simpa using h
      rw [List.set_cons_zero, List.map_cons, List.map_cons, List.sum_cons, List.sum_cons]
      omega
    | succ c =>
      have hrest := ih (c := c) (by simpa using h)
      rw [List.set_cons_succ, List.map_cons, List.map_cons, List.sum_cons, List.sum_cons]
      omega

/-- The count of the values of a function over distinct points, when the function is
changed at one of them. -/
theorem countP_update {α β : Type*} [DecidableEq α] {l : List α} (hl : l.Nodup) {a : α}
    (ha : a ∈ l) (f : α → β) (b : β) (P : β → Bool) :
    (l.countP fun c => P (Function.update f a b c)) + (if P (f a) then 1 else 0) =
      (l.countP fun c => P (f c)) + if P b then 1 else 0 := by
  induction l with
  | nil => simp at ha
  | cons c l ih =>
    rw [List.nodup_cons] at hl
    rw [List.countP_cons, List.countP_cons]
    rcases List.mem_cons.mp ha with rfl | hmem
    · have hrest : (l.countP fun c => P (Function.update f a b c)) =
          l.countP fun c => P (f c) := List.countP_congr fun c hc => by
        rw [Function.update_of_ne (ne_of_mem_of_not_mem hc hl.1)]
      rw [hrest, Function.update_self]
      omega
    · have hrest := ih hl.2 hmem
      rw [Function.update_of_ne (ne_of_mem_of_not_mem hmem hl.1).symm]
      omega

/-- Where a stronger property holds of no fewer elements, it holds of all that have the
weaker one. -/
theorem forall_of_countP_le {α : Type*} {l : List α} {p q : α → Bool}
    (hpq : ∀ a ∈ l, p a = true → q a = true) (h : l.countP q ≤ l.countP p) :
    ∀ a ∈ l, q a = true → p a = true := by
  induction l with
  | nil => simp
  | cons b l ih =>
    have htail := List.countP_mono_left fun a ha => hpq a (List.mem_cons_of_mem _ ha)
    have hb := hpq b List.mem_cons_self
    rw [List.countP_cons, List.countP_cons] at h
    intro a ha hq
    rcases List.mem_cons.mp ha with rfl | hmem
    · by_contra hp
      simp only [hq, hp, if_true, if_false] at h
      omega
    · refine ih (fun c hc => hpq c (List.mem_cons_of_mem _ hc)) ?_ a hmem hq
      by_cases hpb : p b = true
      · simp only [hpb, hb hpb, if_true] at h
        omega
      · simp only [hpb, Bool.false_eq_true, if_false] at h
        omega

theorem sum_map_ite_eq_countP {α : Type*} (l : List α) (p : α → Prop) [DecidablePred p] :
    (l.map fun a => if p a then 1 else 0).sum = l.countP fun a => decide (p a) := by
  induction l with
  | nil => rfl
  | cons a l ih =>
    rw [List.map_cons, List.sum_cons, ih, List.countP_cons, Nat.add_comm]
    simp

theorem count_eq_sum_map_ite {α : Type*} [DecidableEq α] (l : List α) (a : α) :
    l.count a = (l.map fun b => if b = a then 1 else 0).sum := by
  rw [sum_map_ite_eq_countP, List.count]
  congr 1

/-! ### Increasing lists -/

theorem mem_takeWhile_ne_iff {α : Type*} [LinearOrder α] {l : List α} {a b : α}
    (hl : l.Pairwise (· < ·)) (ha : a ∈ l) :
    b ∈ l.takeWhile (fun c => decide (c ≠ a)) ↔ b ∈ l ∧ b < a := by
  induction l with
  | nil => simp at ha
  | cons c l ih =>
    rw [List.pairwise_cons] at hl
    by_cases hc : c = a
    · subst hc
      have hnot : ∀ d ∈ l, ¬ d < c := fun d hd => not_lt_of_gt (hl.1 d hd)
      rw [List.takeWhile_cons_of_neg (by simp)]
      simp only [List.not_mem_nil, List.mem_cons, false_iff, not_and]
      rintro (rfl | hb)
      · exact lt_irrefl _
      · exact hnot b hb
    · have hmem : a ∈ l := (List.mem_cons.mp ha).resolve_left (Ne.symm hc)
      rw [List.takeWhile_cons_of_pos (by simpa using hc), List.mem_cons, List.mem_cons,
        ih hl.2 hmem]
      constructor
      · rintro (rfl | ⟨hb, hlt⟩)
        · exact ⟨.inl rfl, hl.1 a hmem⟩
        · exact ⟨.inr hb, hlt⟩
      · rintro ⟨rfl | hb, hlt⟩
        · exact .inl rfl
        · exact .inr ⟨hb, hlt⟩

/-- Erasing a number from the numbers that have a property. -/
theorem erase_filter_range (n a : ℕ) (p : ℕ → Bool) :
    ((List.range n).filter p).erase a = (List.range n).filter fun b => p b && b != a := by
  rw [(List.nodup_range.filter p).erase_eq_filter, List.filter_filter]
  simp only [Bool.and_comm]

/-- What holds at each index holds of each element, with the ones in front. -/
theorem forall_of_getElem {α : Type*} {l : List α} {P : List α → α → Prop}
    (h : ∀ i (hi : i < l.length), P (l.take i) l[i]) (before : List α) (a : α) (after : List α)
    (hl : l = before ++ a :: after) : P before a := by
  subst hl
  have ha := h before.length (by simp)
  simpa using ha

theorem length_filterMap_le {α β : Type*} {f g : α → Option β} {l : List α}
    (h : ∀ a ∈ l, f a = g a ∨ g a = none) : (l.filterMap g).length ≤ (l.filterMap f).length := by
  induction l with
  | nil => exact Nat.le_refl _
  | cons a l ih =>
    obtain ⟨ha, hl⟩ := List.forall_mem_cons.mp h
    have hlength := ih hl
    rcases ha with ha | ha
    · rw [List.filterMap_cons, List.filterMap_cons, ha]
      cases g a <;> simpa using hlength
    · rw [List.filterMap_cons_none ha]
      exact Nat.le_trans hlength ((List.sublist_cons_self a l).filterMap f).length_le

/-- Two selections of which one leaves out more are equal only where they agree. -/
theorem forall_eq_of_filterMap_eq {α β : Type*} {f g : α → Option β} {l : List α}
    (h : ∀ a ∈ l, f a = g a ∨ g a = none) (heq : l.filterMap f = l.filterMap g) :
    ∀ a ∈ l, f a = g a := by
  induction l with
  | nil => nofun
  | cons a l ih =>
    obtain ⟨ha, hl⟩ := List.forall_mem_cons.mp h
    have hagree : f a = g a := by
      rcases ha with ha | ha
      · exact ha
      · cases hf : f a with
        | none => exact ha.symm
        | some b =>
          have hlength := length_filterMap_le hl
          rw [List.filterMap_cons_some hf, List.filterMap_cons_none ha] at heq
          rw [← heq, List.length_cons] at hlength
          omega
    refine List.forall_mem_cons.mpr ⟨hagree, ih hl ?_⟩
    cases hg : g a with
    | none => rwa [List.filterMap_cons_none (hagree.trans hg), List.filterMap_cons_none hg] at heq
    | some b =>
      rw [List.filterMap_cons_some (hagree.trans hg), List.filterMap_cons_some hg] at heq
      exact List.tail_eq_of_cons_eq heq

end MtkHardware
