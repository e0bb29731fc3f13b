import Mathlib.Data.List.Basic
import Mathlib.Algebra.Ring.Int.Defs
import Mathlib.Algebra.Ring.Nat

/-!
# Walks that Erase

A walk visits the elements of a linked list from the first to the last and erases some of them on
its way. It moves on with `++` on its iterator also after it has erased the element that the
iterator is at: what it then reads is no longer of the list, and the walk notes that it has done
so. The link of an erased element still leads to its successor.

## Main results

* `walk_advancedErased`: a walk reads an erased element as soon as it erases one.
* `walk_erased`, `walk_once`: the elements that a walk erases, all of a kind, or the first.
* `walk_invariant`: a relation between what is erased and the state, kept by every visit.
-/

namespace MtkHardware

/-- What a walk leaves. -/
structure Walk (α σ : Type*) where
  acc : σ
  kept : List α
  erased : List α
  /-- Has the iterator been moved on from an erased element? -/
  advancedErased : Bool

/-- The walk over a list, whose visits change a state and tell what to erase. -/
def walk {α σ : Type*} (visit : σ → α → σ × Bool) : σ → List α → Walk α σ
  | acc, [] => { acc, kept := [], erased := [], advancedErased := false }
  | acc, a :: l =>
    let w := walk visit (visit acc a).1 l
    if (visit acc a).2 then { w with erased := a :: w.erased, advancedErased := true }
    else { w with kept := a :: w.kept }

section walk

variable {α σ : Type*} {visit : σ → α → σ × Bool} {acc : σ} {a : α} {l : List α} {p : α → Bool}

@[simp] theorem walk_nil :
    walk visit acc [] = { acc, kept := [], erased := [], advancedErased := false } := rfl

theorem walk_of_erased (h : (visit acc a).2 = true) :
    walk visit acc (a :: l) =
      { walk visit (visit acc a).1 l with
        erased := a :: (walk visit (visit acc a).1 l).erased, advancedErased := true } := by
  exact if_pos h

theorem walk_of_kept (h : (visit acc a).2 = false) :
    walk visit acc (a :: l) =
      { walk visit (visit acc a).1 l with kept := a :: (walk visit (visit acc a).1 l).kept } := by
  exact if_neg (by rw [h]; exact Bool.false_ne_true)

/-- A walk reads an erased element as soon as it erases one. -/
theorem walk_advancedErased :
    (walk visit acc l).advancedErased = false ↔ (walk visit acc l).erased = [] := by
  induction l generalizing acc with
  | nil => simp
  | cons a l ih =>
    cases h : (visit acc a).2 with
    | true => simp [walk_of_erased h]
    | false => simp [walk_of_kept h, ih]

theorem walk_kept_sublist : (walk visit acc l).kept.Sublist l := by
  induction l generalizing acc with
  | nil => exact .slnil
  | cons a l ih =>
    cases h : (visit acc a).2 with
    | true =>
      rw [walk_of_erased h]
      exact ih.cons a
    | false =>
      rw [walk_of_kept h]
      exact ih.cons₂ a

/-- Elements that are erased whenever they are visited. -/
theorem walk_erased (hp : ∀ acc a, p a = true → (visit acc a).2 = true) :
    (walk visit acc l).erased.filter p = l.filter p ∧
      (walk visit acc l).kept.filter p = [] := by
  induction l generalizing acc with
  | nil => simp
  | cons a l ih =>
    obtain ⟨herased, hkept⟩ := @ih (visit acc a).1
    cases h : (visit acc a).2 with
    | true =>
      rw [walk_of_erased h]
      exact ⟨by simp only [List.filter_cons, herased], hkept⟩
    | false =>
      have hnot : p a = false :=
        Bool.eq_false_iff.mpr fun hpa => by rw [hp acc a hpa] at h; cases h
      rw [walk_of_kept h]
      exact ⟨by simp [hnot, herased], by simp [hnot, hkept]⟩

theorem walk_kept (hp : ∀ acc a, p a = true → (visit acc a).2 = false) :
    (walk visit acc l).erased.filter p = [] ∧
      (walk visit acc l).kept.filter p = l.filter p := by
  induction l generalizing acc with
  | nil => simp
  | cons a l ih =>
    obtain ⟨herased, hkept⟩ := @ih (visit acc a).1
    cases h : (visit acc a).2 with
    | true =>
      have hnot : p a = false :=
        Bool.eq_false_iff.mpr fun hpa => by rw [hp acc a hpa] at h; cases h
      rw [walk_of_erased h]
      exact ⟨by simp [hnot, herased], by simp [hnot, hkept]⟩
    | false =>
      rw [walk_of_kept h]
      exact ⟨herased, by simp only [List.filter_cons, hkept]⟩

theorem walk_once (done : σ → Bool)
    (hp : ∀ acc a, p a = true → (visit acc a).2 = !done acc ∧ done (visit acc a).1 = true)
    (hn : ∀ acc a, p a = false → done (visit acc a).1 = done acc) :
    (walk visit acc l).erased.filter p = (l.filter p).take (if done acc then 0 else 1) ∧
      (walk visit acc l).kept.filter p = (l.filter p).drop (if done acc then 0 else 1) := by
  induction l generalizing acc with
  | nil => simp
  | cons a l ih =>
    obtain ⟨herased, hkept⟩ := @ih (visit acc a).1
    cases hpa : p a with
    | false =>
      rw [hn acc a hpa] at herased hkept
      cases h : (visit acc a).2 with
      | true => simp [walk_of_erased h, hpa, herased, hkept]
      | false => simp [walk_of_kept h, hpa, herased, hkept]
    | true =>
      obtain ⟨hvisit, hdone⟩ := hp acc a hpa
      rw [hdone] at herased hkept
      cases hacc : done acc with
      | true => simp [walk_of_kept (hvisit.trans (by rw [hacc]; rfl)), hpa, herased, hkept]
      | false => simp [walk_of_erased (hvisit.trans (by rw [hacc]; rfl)), hpa, herased, hkept]

/-- **The rule of walks**: a relation between the elements erased so far and the state that every
visit keeps. -/
theorem walk_invariant_from {I : List α → σ → Prop} {es : List α}
    (hkept : ∀ es acc a, I es acc → (visit acc a).2 = false → I es (visit acc a).1)
    (herased : ∀ es acc a, I es acc → (visit acc a).2 = true → I (es ++ [a]) (visit acc a).1)
    (h : I es acc) : I (es ++ (walk visit acc l).erased) (walk visit acc l).acc := by
  induction l generalizing acc es with
  | nil => simpa using h
  | cons a l ih =>
    cases hvisit : (visit acc a).2 with
    | true =>
      rw [walk_of_erased hvisit]
      simpa using ih (herased es acc a h hvisit)
    | false =>
      rw [walk_of_kept hvisit]
      exact ih (hkept es acc a h hvisit)

theorem walk_invariant {I : List α → σ → Prop} (h : I [] acc)
    (hkept : ∀ es acc a, I es acc → (visit acc a).2 = false → I es (visit acc a).1)
    (herased : ∀ es acc a, I es acc → (visit acc a).2 = true → I (es ++ [a]) (visit acc a).1) :
    I (walk visit acc l).erased (walk visit acc l).acc :=
  walk_invariant_from hkept herased h

/-- A walk erases none of the list if it keeps its first element and erases none of the rest. -/
theorem walk_erased_eq_nil_of_cons (h : (walk visit acc (a :: l)).erased = []) :
    (visit acc a).2 = false := by
  cases hvisit : (visit acc a).2 with
  | true => simp [walk_of_erased hvisit] at h
  | false => rfl

end walk

end MtkHardware
