import Mathlib.Tactic.Common
import Mathlib.Order.Lattice
import Mathlib.Algebra.Order.Ring.Int
import Mathlib.Algebra.Ring.Int.Defs
import Mathlib.Algebra.Ring.Nat

/-!
# PCM Samples

Samples of 16 bits, in the order of their bytes in memory: the lower one comes first. A sum that
leaves 16 bits is clamped.
-/

namespace MtkHardware.Audio

def sampleOf (lo hi : UInt8) : BitVec 16 := BitVec.ofNat 16 (lo.toNat + 256 * hi.toNat)

def bytesOf (x : BitVec 16) : List UInt8 := [UInt8.ofNat x.toNat, UInt8.ofNat (x.toNat / 256)]

def clamp16 (sample : BitVec 32) : BitVec 32 :=
  if sample.sshiftRight 15 ^^^ sample.sshiftRight 31 ≠ 0 then 0x7FFF ^^^ sample.sshiftRight 31
  else sample

def saturate (x : ℤ) : ℤ := max (-32768) (min 32767 x)

theorem bytesOf_sampleOf (lo hi : UInt8) : bytesOf (sampleOf lo hi) = [lo, hi] := by
  have hlo := lo.toNat_lt
  have hhi := hi.toNat_lt
  have hsample : (sampleOf lo hi).toNat = lo.toNat + 256 * hi.toNat := by
    rw [sampleOf, BitVec.toNat_ofNat, Nat.mod_eq_of_lt (by omega)]
  have hfirst : UInt8.ofNat (lo.toNat + 256 * hi.toNat) = lo := by
    rw [← UInt8.toNat_inj, UInt8.toNat_ofNat']
    omega
  have hsecond : UInt8.ofNat ((lo.toNat + 256 * hi.toNat) / 256) = hi := by
    rw [← UInt8.toNat_inj, UInt8.toNat_ofNat']
    omega
  rw [bytesOf, hsample, hfirst, hsecond]

theorem sampleOf_bytesOf (x : BitVec 16) :
    sampleOf (UInt8.ofNat x.toNat) (UInt8.ofNat (x.toNat / 256)) = x := by
  have hx := x.isLt
  refine BitVec.eq_of_toNat_eq ?_
  rw [sampleOf, BitVec.toNat_ofNat, UInt8.toNat_ofNat', UInt8.toNat_ofNat']
  omega

/-- **Clamping** gives the nearest sample. -/
theorem toInt_clamp16 (x : BitVec 32) : (clamp16 x).toInt = saturate x.toInt := by
  have hlt := BitVec.two_mul_toInt_lt (x := x)
  have hle := BitVec.le_two_mul_toInt (x := x)
  have h15 : (x.sshiftRight 15).toInt = x.toInt / 32768 := by
    rw [BitVec.toInt_sshiftRight, Int.shiftRight_eq_div_pow]
    rfl
  have h31 : (x.sshiftRight 31).toInt = x.toInt / 2147483648 := by
    rw [BitVec.toInt_sshiftRight, Int.shiftRight_eq_div_pow]
    rfl
  have hsign : x.sshiftRight 31 = if x.toInt < 0 then -1 else 0 := by
    refine BitVec.eq_of_toInt_eq ?_
    rw [h31]
    split_ifs with hneg
    · have : (-1 : BitVec 32).toInt = -1 := by decide
      omega
    · have : (0 : BitVec 32).toInt = 0 := by decide
      omega
  have hfit : x.sshiftRight 15 ^^^ x.sshiftRight 31 = 0 ↔ -32768 ≤ x.toInt ∧ x.toInt ≤ 32767 := by
    refine BitVec.xor_eq_zero_iff.trans ?_
    rw [← BitVec.toInt_inj, h15, h31]
    omega
  rw [clamp16, saturate]
  split
  · rename_i hout
    rw [ne_eq, hfit] at hout
    rw [hsign]
    split_ifs with hneg
    · have hmin : (0x7FFF ^^^ (-1) : BitVec 32).toInt = -32768 := by decide
      omega
    · have hmax : (0x7FFF ^^^ 0 : BitVec 32).toInt = 32767 := by decide
      omega
  · rename_i hin
    rw [not_not, hfit] at hin
    omega

end MtkHardware.Audio
