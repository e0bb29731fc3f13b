import Mathlib.Data.List.Basic
import Mathlib.Order.Basic
import Mathlib.Tactic.Common
import Mathlib.Algebra.Ring.Int.Defs
import Mathlib.Algebra.Ring.Nat

/-!
# 32-Bit Sets

A `BitSet32` is a set of the indices below 32 in one machine word; index 0 is the most
significant bit. An index of 32 or more names no bit, so marking it changes nothing and
at most 32 indices are ever counted.

## Main results

* `BitSet32.hasBit_markBit`, `BitSet32.hasBit_union`: membership after an operation.
* `BitSet32.count_eq_iff`: a bit set whose indices are all below `n` has `n` of them
  exactly when `n ≤ 32` and every index below `n` is there.
-/

namespace MtkHardware

/-- A set of indices below 32, held in one word. -/
structure BitSet32 where
  /-- The word. -/
  value : BitVec 32
  deriving DecidableEq, Repr

namespace BitSet32

/-- The empty set. -/
def clear : BitSet32 := ⟨0⟩

/-- The one-bit word of an index. -/
def valueForBit (n : ℕ) : BitVec 32 := 0x80000000#32 >>> n

/-- Put an index in the set. -/
def markBit (b : BitSet32) (n : ℕ) : BitSet32 := ⟨b.value ||| valueForBit n⟩

/-- Is the index in the set? -/
def hasBit (b : BitSet32) (n : ℕ) : Bool := (b.value &&& valueForBit n) != 0

def isEmpty (b : BitSet32) : Bool := b.value == 0

/-- The union of two sets. -/
def union (a b : BitSet32) : BitSet32 := ⟨a.value ||| b.value⟩

/-- The **number of indices** in the set. -/
def count (b : BitSet32) : ℕ := (List.range 32).countP b.hasBit

/-! ### Membership -/

theorem twoPow_ne_zero {i : ℕ} (hi : i < 32) : BitVec.twoPow 32 i ≠ 0#32 := by
  intro hzero
  have hbit := congrArg (fun w => w.getLsbD i) hzero
  simp [hi] at hbit

theorem valueForBit_eq_twoPow {n : ℕ} (h : n < 32) :
    valueForBit n = BitVec.twoPow 32 (31 - n) :=
  have hall : ∀ k < 32, valueForBit k = BitVec.twoPow 32 (31 - k) := by decide
  hall n h

theorem valueForBit_eq_zero {n : ℕ} (h : 32 ≤ n) : valueForBit n = 0 :=
  BitVec.ushiftRight_eq_zero h

/-- An index is in the set exactly when its bit of the word, counted from the most
significant one, is set. -/
theorem hasBit_eq_getLsbD (b : BitSet32) (n : ℕ) :
    b.hasBit n = (decide (n < 32) && b.value.getLsbD (31 - n)) := by
  rw [hasBit]
  by_cases h : n < 32
  · rw [valueForBit_eq_twoPow h, BitVec.and_twoPow]
    cases hb : b.value.getLsbD (31 - n) with
    | false => simp [h]
    | true =>
      have hne := twoPow_ne_zero (show 31 - n < 32 by omega)
      simp [h, bne_iff_ne, hne]
  · simp [valueForBit_eq_zero (Nat.le_of_not_lt h), h]

@[simp] theorem hasBit_clear (n : ℕ) : clear.hasBit n = false := by
  simp [clear, hasBit]

theorem hasBit_of_isEmpty {b : BitSet32} (h : b.isEmpty = true) (n : ℕ) :
    b.hasBit n = false := by
  rw [isEmpty, beq_iff_eq] at h
  simp [hasBit, h]

/-- **Membership after marking**: an index of 32 or more is never in the set. -/
theorem hasBit_markBit (b : BitSet32) (m n : ℕ) :
    (b.markBit m).hasBit n = (b.hasBit n || (decide (n < 32) && decide (n = m))) := by
  simp only [hasBit_eq_getLsbD, markBit, BitVec.getLsbD_or]
  by_cases hn : n < 32
  · by_cases hm : m < 32
    · rw [valueForBit_eq_twoPow hm, BitVec.getLsbD_twoPow]
      have heq : (31 - m < 32 ∧ 31 - m = 31 - n) ↔ n = m := by omega
      simp only [hn, decide_true, Bool.true_and, ← Bool.decide_and, heq]
    · have hne : n ≠ m := by omega
      simp [valueForBit_eq_zero (Nat.le_of_not_lt hm), hn, hne]
  · simp [hn]

theorem hasBit_markBit_self {b : BitSet32} {n : ℕ} (h : n < 32) :
    (b.markBit n).hasBit n = true := by
  simp [hasBit_markBit, h]

theorem hasBit_ite_markBit (b : BitSet32) {m : ℕ} (hm : m < 32) (c : Bool) (n : ℕ) :
    (if c then b.markBit m else b).hasBit n = (b.hasBit n || (c && decide (n = m))) := by
  cases c with
  | false => simp
  | true =>
    rw [if_pos rfl, hasBit_markBit, Bool.true_and]
    by_cases hn : n = m <;> simp [hn, hm]

@[simp] theorem hasBit_union (a b : BitSet32) (n : ℕ) :
    (a.union b).hasBit n = (a.hasBit n || b.hasBit n) := by
  simp only [hasBit_eq_getLsbD, union, BitVec.getLsbD_or]
  rw [Bool.and_or_distrib_left]

/-! ### Counting -/

theorem count_le (b : BitSet32) : b.count ≤ 32 := by
  simpa [count] using List.countP_le_length (p := b.hasBit) (l := List.range 32)

theorem countP_range_lt (m n : ℕ) :
    (List.range m).countP (fun k => decide (k < n)) = min m n := by
  induction m with
  | zero => simp
  | succ m ih =>
    rw [List.range_succ, List.countP_append, ih, List.countP_singleton]
    split_ifs with h <;> simp only [decide_eq_true_eq] at h <;> omega

/-- A set of indices below `n` is **full** exactly when `n` fits the word and every index
below `n` is in it. -/
theorem count_eq_iff {b : BitSet32} {n : ℕ} (h : ∀ k, b.hasBit k = true → k < n) :
    b.count = n ↔ n ≤ 32 ∧ ∀ k < n, b.hasBit k = true := by
  constructor
  · intro hcount
    have hn : n ≤ 32 := hcount ▸ b.count_le
    have hle : (List.range 32).countP b.hasBit ≤
        (List.range 32).countP (fun k => decide (k < n)) :=
      List.countP_mono_left fun k _ hk => by simpa using h k hk
    refine ⟨hn, fun k hk => ?_⟩
    by_contra hfalse
    have hlt : (List.range 32).countP b.hasBit <
        (List.range 32).countP (fun k => decide (k < n)) := by
      rw [List.countP_eq_length_filter, List.countP_eq_length_filter]
      have hsub : ((List.range 32).filter b.hasBit).Sublist
          ((List.range 32).filter fun k => decide (k < n)) :=
        List.monotone_filter_right _ fun j hj => by simpa using h j hj
      refine Nat.lt_of_le_of_ne hsub.length_le fun heq => ?_
      have hmem : k ∈ (List.range 32).filter b.hasBit := by
        rw [hsub.eq_of_length heq]
        simp [hk, Nat.lt_of_lt_of_le hk hn]
      exact hfalse (List.mem_filter.mp hmem).2
    rw [countP_range_lt] at hlt
    rw [count] at hcount
    omega
  · rintro ⟨hn, hall⟩
    have hcongr : (List.range 32).countP b.hasBit =
        (List.range 32).countP (fun k => decide (k < n)) := by
      refine List.countP_congr fun k _ => ?_
      rw [decide_eq_true_eq]
      exact ⟨h k, hall k⟩
    rw [count, hcongr, countP_range_lt]
    omega

end BitSet32

end MtkHardware
