import Mathlib.Data.Nat.Notation
import Mathlib.Data.Set.Disjoint
import Mathlib.Tactic.Common
import Mathlib.Algebra.Ring.Int.Defs
import Mathlib.Algebra.Ring.Nat
import Mathlib.Data.Set.Lattice
import Mathlib.Order.CompletePartialOrder

/-!
# Regions of Memory

The bytes behind an address, as a set of addresses. Regions at distances from one address are
compared by the distances, where these do not wrap around.

## Main results

* `bytes_subset_iff`, `disjoint_bytes_iff`: containment and disjointness by the distances.
-/

namespace MtkHardware

variable {w : ℕ} {base a : BitVec w} {k k' n n' : ℕ}

/-- The `n` bytes behind an address. -/
def bytes (va : BitVec w) (n : ℕ) : Set (BitVec w) := {a | ∃ t < n, a = va + BitVec.ofNat w t}

theorem toNat_add_ofNat_sub (base : BitVec w) (hk : k < 2 ^ w) :
    (base + BitVec.ofNat w k - base).toNat = k := by
  rw [BitVec.add_comm, BitVec.add_sub_cancel, BitVec.toNat_ofNat, Nat.mod_eq_of_lt hk]

/-- The bytes of a region lie at the distances behind its own. -/
theorem mem_bytes_iff (h : k + n < 2 ^ w) : a ∈ bytes (base + BitVec.ofNat w k) n ↔
    k ≤ (a - base).toNat ∧ (a - base).toNat < k + n := by
  constructor
  · rintro ⟨t, ht, rfl⟩
    rw [BitVec.add_assoc, ← BitVec.ofNat_add, toNat_add_ofNat_sub base (by omega)]
    omega
  · rintro ⟨hle, hlt⟩
    refine ⟨(a - base).toNat - k, by omega, ?_⟩
    rw [BitVec.add_assoc, ← BitVec.ofNat_add, Nat.add_sub_cancel' hle, BitVec.ofNat_toNat,
      BitVec.setWidth_eq, BitVec.add_comm, BitVec.sub_add_cancel]

theorem mem_bytes_base_iff (h : n < 2 ^ w) : a ∈ bytes base n ↔ (a - base).toNat < n := by
  have hbase : a ∈ bytes (base + BitVec.ofNat w 0) n ↔
      0 ≤ (a - base).toNat ∧ (a - base).toNat < 0 + n := mem_bytes_iff (by omega)
  rw [BitVec.add_zero] at hbase
  rw [hbase]
  omega

/-- **Containment** of a region in one that begins at the address. -/
theorem bytes_subset_iff (h : k + n < 2 ^ w) (h' : n' < 2 ^ w) :
    bytes (base + BitVec.ofNat w k) n ⊆ bytes base n' ↔ n = 0 ∨ k + n ≤ n' := by
  constructor
  · intro hsub
    by_contra hnot
    rw [not_or, not_le] at hnot
    have hlast : base + BitVec.ofNat w (k + n - 1) ∈ bytes (base + BitVec.ofNat w k) n := by
      rw [mem_bytes_iff h, toNat_add_ofNat_sub base (by omega)]
      omega
    have hin := hsub hlast
    rw [mem_bytes_base_iff h', toNat_add_ofNat_sub base (by omega)] at hin
    omega
  · intro hfits a ha
    rw [mem_bytes_iff h] at ha
    rw [mem_bytes_base_iff h']
    omega

/-- **Disjointness** of two regions. -/
theorem disjoint_bytes_iff (h : k + n < 2 ^ w) (h' : k' + n' < 2 ^ w) :
    Disjoint (bytes (base + BitVec.ofNat w k) n) (bytes (base + BitVec.ofNat w k') n') ↔
      n = 0 ∨ n' = 0 ∨ k + n ≤ k' ∨ k' + n' ≤ k := by
  rw [Set.disjoint_left]
  constructor
  · intro hapart
    by_contra hnot
    have hboth := hapart (a := base + BitVec.ofNat w (max k k'))
    rw [mem_bytes_iff h, mem_bytes_iff h', toNat_add_ofNat_sub base (by omega)] at hboth
    omega
  · intro hapart a ha ha'
    rw [mem_bytes_iff h] at ha
    rw [mem_bytes_iff h'] at ha'
    omega

end MtkHardware
