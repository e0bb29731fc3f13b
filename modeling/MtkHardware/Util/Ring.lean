import Mathlib.Data.List.Basic
import Mathlib.Data.List.Range
import Mathlib.Algebra.Ring.Int.Defs
import Mathlib.Algebra.Ring.Nat

/-!
# Rings

A ring of `size` cells is read from a cell on, and goes on at cell `0` behind the last one. Its
cells are given by a function, of which only the values below `size` are used. A block of cells that
does not reach behind the last one is copied out of them, or over them.

## Main results

* `window_succ`, `window_add`: a window is read cell by cell, or in two parts.
* `copy_eq_window`, `copy_append_eq_window`: a window is copied out in one block, or in two.
* `window_blit`, `window_blit_blit`: what is copied behind a window, in one block or in two, is
  appended to it.
-/

namespace MtkHardware.RingBuffer

variable {α : Type*} {size r k m p : ℕ} {data data' : ℕ → α} {l : List α}

/-- The cell behind a cell. -/
def next (size r : ℕ) : ℕ := if r + 1 = size then 0 else r + 1

/-- The `k` cells from cell `r` on. -/
def window (size : ℕ) (data : ℕ → α) (r k : ℕ) : List α :=
  (List.range k).map fun i => data ((r + i) % size)

/-- A block of cells, copied out. -/
def copy (data : ℕ → α) (p k : ℕ) : List α := (List.range k).map fun i => data (p + i)

/-- A block of cells, copied over. -/
def blit (data : ℕ → α) (p : ℕ) (l : List α) : ℕ → α :=
  fun i => if p ≤ i then (l[i - p]?).getD (data i) else data i

/-! ### Cells -/

theorem next_lt (hr : r < size) : next size r < size := by
  unfold next
  split_ifs <;> omega

theorem next_eq_mod (hr : r < size) : next size r = (r + 1) % size := by
  unfold next
  split_ifs with heq
  · rw [heq, Nat.mod_self]
  · exact (Nat.mod_eq_of_lt (by omega)).symm

/-! ### Windows -/

@[simp] theorem length_window : (window size data r k).length = k := by simp [window]

@[simp] theorem window_zero : window size data r 0 = [] := rfl

theorem window_add (k m : ℕ) : window size data r (k + m) =
    window size data r k ++ window size data ((r + k) % size) m := by
  unfold window
  rw [List.range_add, List.map_append, List.map_map]
  congr 1
  refine List.map_congr_left fun i _ => ?_
  simp only [Function.comp_apply, Nat.mod_add_mod, Nat.add_assoc]

theorem window_succ (hr : r < size) (k : ℕ) :
    window size data r (k + 1) = data r :: window size data (next size r) k := by
  rw [Nat.add_comm, window_add, next_eq_mod hr]
  simp [window, Nat.mod_eq_of_lt hr]

theorem take_window (hkm : k ≤ m) :
    (window size data r m).take k = window size data r k := by
  obtain ⟨n, rfl⟩ := Nat.exists_eq_add_of_le hkm
  rw [window_add, List.take_left' length_window]

theorem drop_window (hkm : k ≤ m) :
    (window size data r m).drop k = window size data ((r + k) % size) (m - k) := by
  obtain ⟨n, rfl⟩ := Nat.exists_eq_add_of_le hkm
  rw [window_add, List.drop_left' length_window, Nat.add_sub_cancel_left]

theorem window_congr (h : ∀ i < k, data ((r + i) % size) = data' ((r + i) % size)) :
    window size data r k = window size data' r k :=
  List.map_congr_left fun i hi => h i (List.mem_range.mp hi)

/-! ### Blocks -/

@[simp] theorem length_copy : (copy data p k).length = k := by simp [copy]

theorem copy_add (data : ℕ → α) (p k m : ℕ) :
    copy data p (k + m) = copy data p k ++ copy data (p + k) m := by
  unfold copy
  rw [List.range_add, List.map_append, List.map_map]
  simp only [Function.comp_def, Nat.add_assoc]

theorem copy_update (data : ℕ → α) (k : ℕ) (a : α) :
    copy (Function.update data k a) 0 (k + 1) = copy data 0 k ++ [a] := by
  unfold copy
  rw [List.range_succ, List.map_append]
  congr 1
  · refine List.map_congr_left fun i hi => ?_
    have hlt := List.mem_range.mp hi
    rw [Function.update_of_ne (by omega)]
  · simp

/-- A window that ends before the last cell is one block. -/
theorem copy_eq_window (h : p + k ≤ size) : copy data p k = window size data p k := by
  refine List.map_congr_left fun i hi => ?_
  have hlt := List.mem_range.mp hi
  rw [Nat.mod_eq_of_lt (by omega)]

/-- A window that goes on at the first cell is two blocks. -/
theorem copy_append_eq_window (hp : p < size) (hend : size < p + k) (hk : k ≤ size) :
    copy data p (size - p) ++ copy data 0 (k - (size - p)) = window size data p k := by
  have hsplit : k = (size - p) + (k - (size - p)) := by omega
  have hwrap : (p + (size - p)) % size = 0 := by
    rw [Nat.add_sub_cancel' hp.le, Nat.mod_self]
  have hfirst : copy data p (size - p) = window size data p (size - p) := copy_eq_window (by omega)
  have hsecond : copy data 0 (k - (size - p)) = window size data 0 (k - (size - p)) :=
    copy_eq_window (by omega)
  conv_rhs => rw [hsplit]
  rw [window_add, hwrap, hfirst, hsecond]

theorem blit_of_lt {i : ℕ} (hi : i < p) : blit data p l i = data i := by
  rw [blit, if_neg (by omega)]

theorem blit_of_le {i : ℕ} (hi : p + l.length ≤ i) : blit data p l i = data i := by
  rw [blit, List.getElem?_eq_none (by omega)]
  split_ifs <;> rfl

theorem copy_blit (data : ℕ → α) (p : ℕ) (l : List α) : copy (blit data p l) p l.length = l := by
  refine List.ext_getElem (by simp) fun i hi _ => ?_
  have hlt : i < l.length := by simpa using hi
  simp [copy, blit, hlt]

theorem window_blit_of_behind (hr : r < size) (hk : k + l.length ≤ size)
    (hbehind : p = (r + k) % size) :
    window size (blit data p l) r k = window size data r k := by
  refine window_congr fun i hi => ?_
  by_cases hwrap : r + k < size
  · -- the window does not wrap, and ends where the block starts
    rw [Nat.mod_eq_of_lt hwrap] at hbehind
    rw [Nat.mod_eq_of_lt (by omega)]
    exact blit_of_lt (by omega)
  · have hp' : p = r + k - size := by
      rw [hbehind, Nat.mod_eq_sub_mod (by omega), Nat.mod_eq_of_lt (by omega)]
    by_cases hi' : r + i < size
    · rw [Nat.mod_eq_of_lt hi']
      exact blit_of_le (by omega)
    · rw [Nat.mod_eq_sub_mod (by omega), Nat.mod_eq_of_lt (by omega)]
      exact blit_of_lt (by omega)

/-- **One block** behind a window is appended to it. -/
theorem window_blit (data : ℕ → α) (hr : r < size) (hk : k + l.length ≤ size)
    (hp : p + l.length ≤ size)
    (hbehind : p = (r + k) % size) :
    window size (blit data p l) r (k + l.length) = window size data r k ++ l := by
  rw [window_add, window_blit_of_behind hr hk hbehind, ← hbehind, ← copy_eq_window hp, copy_blit]

/-- **Two blocks**, the first of which ends with the last cell. -/
theorem window_blit_blit {l₁ l₂ : List α} (data : ℕ → α) (hr : r < size)
    (hk : k + (l₁ ++ l₂).length ≤ size)
    (hp : p + l₁.length = size) (hbehind : p = (r + k) % size) :
    window size (blit (blit data p l₁) 0 l₂) r (k + (l₁ ++ l₂).length) =
      window size data r k ++ (l₁ ++ l₂) := by
  rw [List.length_append] at hk
  have hfirst := window_blit data hr (by omega) hp.le hbehind
  have hnext : 0 = (r + (k + l₁.length)) % size := by
    rw [← Nat.add_assoc, ← Nat.mod_add_mod, ← hbehind, hp, Nat.mod_self]
  rw [List.length_append, ← Nat.add_assoc, ← List.append_assoc, ← hfirst]
  exact window_blit _ hr (by omega) (by omega) hnext

end MtkHardware.RingBuffer
