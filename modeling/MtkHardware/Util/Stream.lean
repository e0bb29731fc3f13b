import Mathlib.Tactic.Common
import Mathlib.Data.List.Infix
import Mathlib.Algebra.Ring.Int.Defs
import Mathlib.Algebra.Ring.Nat

/-!
# Streams of Items

What a sender puts one behind the other is a stream: the concatenation of the bytes of its items. A
receiver has a part of the stream in front, in which some of the items are whole.

## Main results

* `stream_cons`, `stream_append`: a stream by its items.
* `whole_append`, `whole_short`: the items that are whole, behind others.
* `lt_length_of_whole_eq_nil`: the data in which no item is whole.
* `whole_mem`: an item that is whole is in the data.
* `prefix_append_cases`: where data that are a part of two things end.
-/

namespace MtkHardware

variable {α β : Type*} (wire : α → List β)

/-- The bytes of items, one behind the other. -/
def stream (items : List α) : List β := items.flatMap wire

/-- The items of which the last byte is among so many bytes of the stream. -/
def whole (n : ℕ) : List α → List α
  | [] => []
  | item :: items =>
    if (wire item).length ≤ n then item :: whole (n - (wire item).length) items else []

variable {wire} {item : α} {items : List α} {data : List β} {n : ℕ}

theorem stream_cons (item : α) (items : List α) :
    stream wire (item :: items) = wire item ++ stream wire items := List.flatMap_cons

theorem stream_append (items items' : List α) :
    stream wire (items ++ items') = stream wire items ++ stream wire items' :=
  List.flatMap_append

/-- What is whole behind the items that have been taken. -/
theorem whole_append (items todo : List α) (n : ℕ) :
    whole wire ((stream wire items).length + n) (items ++ todo) = items ++ whole wire n todo := by
  induction items with
  | nil => simp [stream]
  | cons item items ih =>
    have hlength : (stream wire (item :: items)).length + n =
        (wire item).length + ((stream wire items).length + n) := by
      rw [stream_cons, List.length_append, Nat.add_assoc]
    rw [hlength, List.cons_append, whole, if_pos (Nat.le_add_right _ _), Nat.add_sub_cancel_left,
      ih, List.cons_append]

theorem whole_short (h : n < (wire item).length) (items : List α) :
    whole wire n (item :: items) = [] := by
  rw [whole, if_neg (not_le.mpr h)]

theorem whole_zero (h : ∀ item ∈ items, wire item ≠ []) : whole wire 0 items = [] := by
  cases items with
  | nil => rfl
  | cons item items =>
    exact whole_short (List.length_pos_iff.mpr (h item List.mem_cons_self)) items

theorem lt_length_of_whole_eq_nil (h : whole wire n items = []) (items' : List α)
    (hpre : items' <+: items) (hne : items' ≠ []) : n < (stream wire items').length := by
  obtain ⟨first, rest, rfl⟩ := List.exists_cons_of_ne_nil hne
  obtain ⟨after, rfl⟩ := hpre
  rw [List.cons_append, whole] at h
  split at h
  · cases h
  · rw [stream_cons, List.length_append]
    omega

theorem whole_mem {tail : List β} (hitem : item ∈ whole wire data.length items)
    (hpre : data <+: stream wire items ++ tail) :
    ∃ mid post, data = mid ++ (wire item ++ post) := by
  induction items generalizing data with
  | nil => cases hitem
  | cons first items ih =>
    rw [whole] at hitem
    split at hitem
    · rename_i hlength
      rw [stream_cons, List.append_assoc] at hpre
      obtain ⟨data', rfl⟩ :=
        List.prefix_of_prefix_length_le (List.prefix_append _ _) hpre hlength
      rw [List.length_append, Nat.add_sub_cancel_left] at hitem
      rcases List.mem_cons.mp hitem with rfl | hitem
      · exact ⟨[], data', rfl⟩
      · obtain ⟨mid, post, rfl⟩ := ih hitem ((List.prefix_append_right_inj _).mp hpre)
        exact ⟨wire first ++ mid, post, (List.append_assoc _ _ _).symm⟩
    · cases hitem

/-- A prefix of two parts ends in front of the end of the first one, or in the second one. -/
theorem prefix_append_cases {p l l' : List β} (h : p <+: l ++ l') :
    (p <+: l ∧ p ≠ l) ∨ ∃ p', p = l ++ p' ∧ p' <+: l' := by
  rcases List.prefix_or_prefix_of_prefix h (List.prefix_append l l') with hp | ⟨p', rfl⟩
  · by_cases heq : p = l
    · exact .inr ⟨[], by rw [heq, List.append_nil], List.nil_prefix⟩
    · exact .inl ⟨hp, heq⟩
  · exact .inr ⟨p', rfl, (List.prefix_append_right_inj l).mp h⟩

end MtkHardware
