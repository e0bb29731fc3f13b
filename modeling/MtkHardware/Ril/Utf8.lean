import Mathlib.Tactic.Common
import Mathlib.Tactic.IntervalCases
import Mathlib.Algebra.Ring.Int.Defs
import Mathlib.Algebra.Ring.Nat

/-!
# UTF-8 in the RIL

`utf8_next` takes a character from a string and `utf8_write` writes one. The reader takes the bits
of a first byte and then every byte that continues a character, so that a character comes back where
what is behind it does not begin with such a byte; a text that has been written never does.
-/

namespace MtkHardware.Ril

def Continues (b : UInt8) : Prop := b &&& 0xC0 = 0x80

instance (b : UInt8) : Decidable (Continues b) := inferInstanceAs (Decidable (_ = _))

/-- The loop of `utf8_next` over the bytes that continue the character; an `int` has 32 bits. -/
def utf8_continue (c : ℕ) : List UInt8 → ℕ × List UInt8
  | [] => (c, [])
  | b :: rest =>
    if Continues b then utf8_continue (((c <<< 6) ||| (b &&& 0x3F).toNat) % 4294967296) rest
    else (c, b :: rest)

def utf8_lead (b : UInt8) : ℕ :=
  if b &&& 0xE0 = 0xC0 then (b &&& 0x1F).toNat
  else if b &&& 0xF0 = 0xE0 then (b &&& 0x0F).toNat
  else (b &&& 0x07).toNat

def utf8_next : List UInt8 → Option (ℕ × List UInt8)
  | [] => none
  | b :: rest => some (if 128 ≤ b then utf8_continue (utf8_lead b) rest else (b.toNat, rest))

def utf8_write (v : ℕ) : List UInt8 :=
  if v < 128 then [v.toUInt8]
  else if v < 0x800 then [(0xC0 ||| v >>> 6).toUInt8, (0x80 ||| v &&& 0x3F).toUInt8]
  else if v < 0x10000 then
    [(0xE0 ||| v >>> 12).toUInt8, (0x80 ||| (v >>> 6) &&& 0x3F).toUInt8,
      (0x80 ||| v &&& 0x3F).toUInt8]
  else
    [(0xF0 ||| (v >>> 18) &&& 0x7).toUInt8, (0x80 ||| (v >>> 12) &&& 0x3F).toUInt8,
      (0x80 ||| (v >>> 6) &&& 0x3F).toUInt8, (0x80 ||| v &&& 0x3F).toUInt8]

def Starts (bytes : List UInt8) : Prop := ∀ b ∈ bytes.head?, ¬ Continues b

variable {v w : ℕ} {rest rest' : List UInt8}

theorem continues_byte : ∀ x < 64, Continues (0x80 ||| x).toUInt8 ∧
    ((0x80 ||| x).toUInt8 &&& 0x3F).toNat = x := by decide

theorem lead_two : ∀ x < 32, ¬ Continues (0xC0 ||| x).toUInt8 ∧ 128 ≤ (0xC0 ||| x).toUInt8 ∧
    utf8_lead (0xC0 ||| x).toUInt8 = x := by decide

theorem lead_three : ∀ x < 16, ¬ Continues (0xE0 ||| x).toUInt8 ∧ 128 ≤ (0xE0 ||| x).toUInt8 ∧
    utf8_lead (0xE0 ||| x).toUInt8 = x := by decide

theorem single_byte : ∀ x < 128, ¬ Continues (Nat.toUInt8 x) ∧ ¬ 128 ≤ Nat.toUInt8 x ∧
    (Nat.toUInt8 x).toNat = x := by decide

theorem utf8_continue_byte {c x : ℕ} (hc : c < 2 ^ 26) (hx : x < 64) (rest : List UInt8) :
    utf8_continue c ((0x80 ||| x).toUInt8 :: rest) = utf8_continue (c * 64 + x) rest := by
  obtain ⟨hcontinues, hbits⟩ := continues_byte x hx
  have hor : c <<< 6 ||| x = c * 64 + x := by
    rw [← Nat.shiftLeft_add_eq_or_of_lt hx, Nat.shiftLeft_eq]
  rw [utf8_continue, if_pos hcontinues, hbits, hor, Nat.mod_eq_of_lt (by omega)]

theorem utf8_continue_starts {c : ℕ} (h : Starts rest) : utf8_continue c rest = (c, rest) := by
  cases rest with
  | nil => rfl
  | cons b rest => rw [utf8_continue, if_neg (h b rfl)]

theorem and_low (v : ℕ) : v &&& 0x3F = v % 64 := Nat.and_two_pow_sub_one_eq_mod v 6

/-- **The reader undoes the writer.** -/
theorem utf8_next_write (hv : v < 0x10000) (h : Starts rest) :
    utf8_next (utf8_write v ++ rest) = some (v, rest) := by
  rw [utf8_write]
  split
  · rename_i hlt
    obtain ⟨-, hle, heq⟩ := single_byte v hlt
    rw [List.singleton_append, utf8_next, if_neg hle, heq]
  split
  · rename_i hlt
    obtain ⟨-, hle, hlead⟩ := lead_two (v >>> 6) (by rw [Nat.shiftRight_eq_div_pow]; omega)
    rw [List.cons_append, List.singleton_append, utf8_next, if_pos hle, hlead, and_low,
      utf8_continue_byte (by rw [Nat.shiftRight_eq_div_pow]; omega) (by omega),
      utf8_continue_starts h, Nat.shiftRight_eq_div_pow]
    congr 2
    omega
  · obtain ⟨-, hle, hlead⟩ := lead_three (v >>> 12) (by rw [Nat.shiftRight_eq_div_pow]; omega)
    rw [List.cons_append, List.cons_append, List.singleton_append, utf8_next, if_pos hle, hlead,
      and_low, and_low, utf8_continue_byte (by rw [Nat.shiftRight_eq_div_pow]; omega) (by omega),
      utf8_continue_byte (by simp only [Nat.shiftRight_eq_div_pow]; omega) (by omega),
      utf8_continue_starts h]
    simp only [Nat.shiftRight_eq_div_pow]
    congr 2
    omega

theorem starts_write (hv : v < 0x10000) (rest : List UInt8) : Starts (utf8_write v ++ rest) := by
  rw [utf8_write]
  split
  · rename_i hlt
    exact fun b hb => Option.some.inj hb ▸ (single_byte v hlt).1
  split
  · rename_i hlt
    exact fun b hb => Option.some.inj hb ▸
      (lead_two (v >>> 6) (by rw [Nat.shiftRight_eq_div_pow]; omega)).1
  · exact fun b hb => Option.some.inj hb ▸
      (lead_three (v >>> 12) (by rw [Nat.shiftRight_eq_div_pow]; omega)).1

theorem utf8_write_inj (hv : v < 0x10000) (hw : w < 0x10000) (h : Starts rest) (h' : Starts rest')
    (heq : utf8_write v ++ rest = utf8_write w ++ rest') : v = w ∧ rest = rest' := by
  have hnext := utf8_next_write hv h
  rw [heq, utf8_next_write hw h'] at hnext
  exact Prod.mk.inj (Option.some.inj hnext.symm)

theorem utf8_write_char (c : Char) : utf8_write c.toNat = String.utf8EncodeChar c := by
  have hlow : ∀ x < 64, 0x80 ||| x = x + 128 := by decide
  have htwo : ∀ x < 32, 0xC0 ||| x = x + 192 := by decide
  have hthree : ∀ x < 16, 0xE0 ||| x = x + 224 := by decide
  have hfour : ∀ x < 8, 0xF0 ||| x = x + 240 := by decide
  have hseven : ∀ x, x &&& 0x7 = x % 8 := fun x => Nat.and_two_pow_sub_one_eq_mod x 3
  have hvalid : c.toNat < 0x110000 := by
    rcases c.valid with h | ⟨-, h⟩
    · exact Nat.lt_trans h (by decide)
    · exact h
  change c.val.toNat < 0x110000 at hvalid
  rw [utf8_write, String.utf8EncodeChar]
  simp only [Char.toNat, Nat.shiftRight_eq_div_pow, and_low, hseven]
  generalize c.val.toNat = v at hvalid ⊢
  rw [hlow _ (by omega), hlow _ (by omega), hlow _ (by omega), hfour _ (by omega)]
  split
  · rw [if_pos (by omega)]
  split
  · rw [if_neg (by omega), if_pos (by omega), htwo _ (by omega),
      Nat.mod_eq_of_lt (show v / 64 < 32 by omega)]
  split
  · rw [if_neg (by omega), if_neg (by omega), if_pos (by omega), hthree _ (by omega),
      Nat.mod_eq_of_lt (show v / 4096 < 16 by omega)]
  · rw [if_neg (by omega), if_neg (by omega), if_neg (by omega)]

end MtkHardware.Ril
