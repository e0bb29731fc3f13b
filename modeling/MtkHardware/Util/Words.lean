import Mathlib.Data.Nat.Digits.Lemmas
import Mathlib.Tactic.Common
import Mathlib.Algebra.Ring.Int.Defs
import Mathlib.Algebra.Ring.Nat

/-!
# Bytes as a Number

The bytes of a buffer are one number, the low byte first, and a position in their bits is a power of
two. A number holds digits to a base when its lowest digits are these; what is read digit by digit
from a position are the digits of a quotient.

## Main results

* `word_append`, `word_take`, `word_drop`, `word_lt`: parts of the bytes.
* `testBit_word`: a bit of the number is a bit of a byte.
* `holds_cons_iff`: the first digit, and the ones behind it.
-/

namespace MtkHardware

/-- The number that the bytes are. -/
def word (bytes : List UInt8) : ℕ := Nat.ofDigits 256 (bytes.map UInt8.toNat)

variable {bytes : List UInt8}

@[simp] theorem word_nil : word [] = 0 := rfl

@[simp] theorem word_cons (b : UInt8) (bytes : List UInt8) :
    word (b :: bytes) = b.toNat + 256 * word bytes := Nat.ofDigits_cons

theorem word_append (bytes bytes' : List UInt8) :
    word (bytes ++ bytes') = word bytes + 256 ^ bytes.length * word bytes' := by
  rw [word, List.map_append, Nat.ofDigits_append, List.length_map]
  rfl

theorem digits_lt (bytes : List UInt8) : ∀ x ∈ bytes.map UInt8.toNat, x < 256 := by
  intro x hx
  obtain ⟨b, -, rfl⟩ := List.mem_map.mp hx
  exact b.toNat_lt

theorem word_lt (bytes : List UInt8) : word bytes < 256 ^ bytes.length := by
  have hlt := Nat.ofDigits_lt_base_pow_length (b := 256) (by decide) (digits_lt bytes)
  rwa [List.length_map] at hlt

theorem word_take (bytes : List UInt8) (i : ℕ) : word (bytes.take i) = word bytes % 256 ^ i := by
  rw [word, word, Nat.ofDigits_mod_pow_eq_ofDigits_take i (by decide) _ (digits_lt bytes),
    List.map_take]

theorem word_drop (bytes : List UInt8) (i : ℕ) : word (bytes.drop i) = word bytes / 256 ^ i := by
  rw [word, word, Nat.ofDigits_div_pow_eq_ofDigits_drop i (by decide) _ (digits_lt bytes),
    List.map_drop]

/-- A bit of the bytes, from the low bit of the first on. -/
def bit (bytes : List UInt8) (i : ℕ) : Bool := (bytes.getD (i / 8) 0).toNat.testBit (i % 8)

theorem testBit_word (bytes : List UInt8) (i : ℕ) : (word bytes).testBit i = bit bytes i := by
  rw [bit]
  induction bytes generalizing i with
  | nil => simp
  | cons b bytes ih =>
    have hb : b.toNat < 2 ^ 8 := b.toNat_lt
    rw [word_cons, Nat.add_comm, show 256 = 2 ^ 8 from rfl, Nat.testBit_two_pow_mul_add _ hb]
    split
    · rename_i hi
      rw [Nat.div_eq_of_lt hi, Nat.mod_eq_of_lt hi]
      rfl
    · rename_i hi
      obtain ⟨j, rfl⟩ := Nat.exists_eq_add_of_le (not_lt.mp hi)
      rw [ih, Nat.add_sub_cancel_left, Nat.add_div_left _ (by decide), Nat.add_mod_left,
        List.getD_cons_succ]

/-! ### Digits -/

/-- The lowest digits of the number are the given ones. -/
def Holds (b S : ℕ) (ds : List ℕ) : Prop := S % b ^ ds.length = Nat.ofDigits b ds

instance (b S : ℕ) (ds : List ℕ) : Decidable (Holds b S ds) := inferInstanceAs (Decidable (_ = _))

variable {b S d : ℕ} {ds : List ℕ}

theorem holds_cons_iff (hd : d < b) : Holds b S (d :: ds) ↔ S % b = d ∧ Holds b (S / b) ds := by
  have hb : 0 < b := Nat.zero_lt_of_lt hd
  have hmod : S % b ^ (d :: ds).length = S % b + b * (S / b % b ^ ds.length) := by
    rw [List.length_cons, Nat.pow_succ', Nat.mod_mul]
  rw [Holds, Holds, hmod, Nat.ofDigits_cons]
  constructor
  · intro h
    have hlow : S % b = d := by
      have h' := congrArg (· % b) h
      simpa [Nat.mod_eq_of_lt hd] using h'
    rw [hlow] at h
    exact ⟨hlow, Nat.eq_of_mul_eq_mul_left hb (Nat.add_left_cancel h)⟩
  · rintro ⟨hlow, hrest⟩
    rw [hlow, hrest]

end MtkHardware
