import MtkHardware.Ril.Gsm7
import MtkHardware.Util.Words
import Mathlib.Data.List.GetD

/-!
# Packed Septets

The bytes of a buffer are a number, and the septets from a bit on are the digits to the base of 128
of a quotient of that number. The reader takes the lowest digit and divides; the writer has written
a number that ends with the bits in front of the first septet.
-/

namespace MtkHardware.Ril

variable {src bytes dst : List UInt8} {shift offset v : ℕ} {vs cs : List ℕ}

/-! ### The reader -/

theorem low_septet (n : ℕ) : n &&& 0x7F = n % 128 := Nat.and_two_pow_sub_one_eq_mod n 7

theorem septet_eq (hshift : shift < 8) (hroom : shift + 7 ≤ 8 * src.length) :
    septet src shift = .ok (word src / 2 ^ shift % 128) := by
  cases src with
  | nil => simp at hroom
  | cons b₀ rest =>
    have hb₀ := b₀.toNat_lt
    have hlow : b₀.toNat >>> shift < 2 ^ (8 - shift) := by
      rw [Nat.shiftRight_eq_div_pow, Nat.div_lt_iff_lt_mul (Nat.two_pow_pos _), ← Nat.pow_add,
        Nat.sub_add_cancel hshift.le]
      exact hb₀
    rw [septet.eq_def]
    dsimp only
    split
    · cases rest with
      | nil =>
        rw [List.length_singleton] at hroom
        omega
      | cons b₁ rest =>
        have hseptet : (b₀.toNat >>> shift) &&& 0x7F = b₀.toNat >>> shift := by
          have hpow : 2 ^ (8 - shift) ≤ 2 ^ 6 := Nat.pow_le_pow_right (by decide) (by omega)
          rw [low_septet, Nat.mod_eq_of_lt (by omega)]
        dsimp only
        rw [hseptet, ← Nat.shiftLeft_add_eq_or_of_lt hlow, low_septet, word_cons, word_cons,
          Nat.shiftLeft_eq, Nat.shiftRight_eq_div_pow]
        interval_cases shift <;> congr 1 <;> omega
    · rw [low_septet, word_cons, Nat.shiftRight_eq_div_pow]
      interval_cases shift <;> congr 1 <;> omega

/-- What is decoded from septets: nothing ends an escape. -/
def packedText (escaped : Bool) : List ℕ → List UInt8
  | [] => []
  | c :: cs =>
    if escaped then utf8_write (entry gsm7bits_extend_to_unicode c) ++ packedText escaped cs
    else if c = GSM_7BITS_ESCAPE then packedText true cs
    else utf8_write (entry gsm7bits_to_unicode c) ++ packedText escaped cs

theorem fromGsm7_holds (hshift : shift < 8) (hroom : shift + 7 * cs.length ≤ 8 * src.length)
    (hcs : ∀ c ∈ cs, c < 128) (h : Holds 128 (word src / 2 ^ shift) cs) (escaped : Bool) :
    fromGsm7 cs.length src shift escaped = .ok (packedText escaped cs) := by
  induction cs generalizing src shift escaped with
  | nil => rfl
  | cons c cs ih =>
    obtain ⟨hc, hcs⟩ := List.forall_mem_cons.mp hcs
    obtain ⟨hlow, hrest⟩ := (holds_cons_iff hc).mp h
    rw [List.length_cons] at hroom ⊢
    have hnext : ∀ escaped, (if 8 ≤ shift + 7 then
          fromGsm7 cs.length src.tail (shift + 7 - 8) escaped
        else fromGsm7 cs.length src (shift + 7) escaped) = .ok (packedText escaped cs) := by
      intro escaped
      split
      · cases src with
        | nil =>
          rw [List.length_nil] at hroom
          omega
        | cons b src =>
          have hb := b.toNat_lt
          rw [List.length_cons] at hroom
          refine ih (by omega) (by rw [List.tail_cons]; omega) hcs ?_ escaped
          have hquotient : word src / 2 ^ (shift + 7 - 8) =
              word (b :: src) / 2 ^ shift / 128 := by
            rw [Nat.div_div_eq_div_mul, show 128 = 2 ^ 7 from rfl, ← Nat.pow_add,
              show shift + 7 = 8 + (shift + 7 - 8) by omega, Nat.pow_add,
              ← Nat.div_div_eq_div_mul, word_cons, Nat.add_sub_cancel_left]
            congr 1
            omega
          rwa [List.tail_cons, hquotient]
      · refine ih (by omega) (by omega) hcs ?_ escaped
        rwa [Nat.pow_add, ← Nat.div_div_eq_div_mul]
    rw [fromGsm7, septet_eq hshift (by omega), hlow]
    dsimp only [bind, Except.bind, pure, Except.pure]
    simp only [hnext, packedText]
    split
    · rename_i hescaped
      rw [hescaped]
    · rename_i hescaped
      rw [Bool.not_eq_true] at hescaped
      rw [hescaped]
      split <;> rfl

theorem utf8_from_gsm7_holds (hroom : offset + 7 * cs.length ≤ 8 * src.length)
    (hcs : ∀ c ∈ cs, c < 128) (h : Holds 128 (word src / 2 ^ offset) cs) :
    utf8_from_gsm7 src offset cs.length = .ok (packedText false cs) := by
  have hshift : offset &&& 7 = offset % 8 := Nat.and_two_pow_sub_one_eq_mod offset 3
  have hbyte : offset >>> 3 = offset / 8 := Nat.shiftRight_eq_div_pow offset 3
  have hpow : 2 ^ offset = 256 ^ (offset / 8) * 2 ^ (offset % 8) := by
    rw [show 256 = 2 ^ 8 from rfl, ← Nat.pow_mul, ← Nat.pow_add, Nat.div_add_mod]
  rw [utf8_from_gsm7, hshift, hbyte]
  refine fromGsm7_holds (Nat.mod_lt _ (by decide)) ?_ hcs ?_ false
  · rw [List.length_drop]
    omega
  · rwa [word_drop, Nat.div_div_eq_div_mul, ← hpow]

/-! ### The writer -/

/-- The writer has **written** the septets from a bit of the destination on. -/
structure BWriter.Wrote (old : List UInt8) (start : ℕ) (vs : List ℕ) (writer : BWriter) :
    Prop where
  bits : writer.bits < 8
  pad : writer.pad < 2 ^ writer.bits
  position : 8 * writer.dst + writer.bits = start + 7 * vs.length
  offset : writer.offset = start + 7 * vs.length
  length : writer.bytes.length = old.length
  value : word (writer.bytes.take writer.dst) + 256 ^ writer.dst * writer.pad =
    word old % 2 ^ start + 2 ^ start * Nat.ofDigits 128 vs

namespace BWriter

variable {writer : BWriter} {old : List UInt8} {start : ℕ}

theorem put_eq (h : writer.dst < writer.bytes.length) (b : UInt8) :
    writer.put b = .ok (writer.bytes.set writer.dst b) := if_pos h

theorem word_take_set {i : ℕ} (h : i < bytes.length) (b : UInt8) :
    word ((bytes.set i b).take (i + 1)) = word (bytes.take i) + 256 ^ i * b.toNat := by
  have htake : (bytes.set i b).take (i + 1) = bytes.take i ++ [b] := by
    rw [List.set_eq_take_append_cons_drop, if_pos h, List.take_append, List.length_take,
      Nat.min_eq_left h.le, Nat.add_sub_cancel_left, List.take_take, Nat.min_eq_right (by omega)]
    rfl
  rw [htake, word_append, List.length_take, Nat.min_eq_left h.le]
  simp

theorem pow_position (i j : ℕ) : 2 ^ (8 * i + j) = 256 ^ i * 2 ^ j := by
  rw [Nat.pow_add, Nat.pow_mul]

theorem init_wrote (hroom : start ≤ 8 * old.length) :
    Yields (BWriter.init old start) (Wrote old start []) := by
  have hshift : start &&& 7 = start % 8 := Nat.and_two_pow_sub_one_eq_mod start 3
  have hbyte : start >>> 3 = start / 8 := Nat.shiftRight_eq_div_pow start 3
  have hpow : 2 ^ start = 256 ^ (start / 8) * 2 ^ (start % 8) := by
    rw [← pow_position, Nat.div_add_mod]
  have hvalue : ∀ pad, word (old.drop (start / 8)) % 2 ^ (start % 8) = pad →
      word (old.take (start / 8)) + 256 ^ (start / 8) * pad =
        word old % 2 ^ start + 2 ^ start * Nat.ofDigits 128 [] := by
    rintro pad rfl
    rw [hpow, Nat.mod_mul, word_take, word_drop]
    rfl
  rw [BWriter.init, hshift, hbyte]
  split
  · rename_i hpos
    have hlt : start / 8 < old.length := by omega
    have hbits : ∀ b < 256, ∀ shift < 8,
        b &&& ((0xFF <<< shift) ^^^ 0xFFFFFFFF) = b % 2 ^ shift := by decide +kernel
    rw [List.getElem?_eq_getElem hlt]
    dsimp only
    rw [hbits _ old[start / 8].toNat_lt _ (Nat.mod_lt _ (by decide))]
    refine ⟨_, rfl, Nat.mod_lt _ (by decide), Nat.mod_lt _ (Nat.two_pow_pos _),
      Nat.div_add_mod start 8, rfl, rfl, hvalue _ ?_⟩
    have hdvd : 2 ^ (start % 8) ∣ 256 :=
      Nat.pow_dvd_pow 2 (Nat.mod_lt start (show 0 < 8 by decide)).le
    rw [List.drop_eq_getElem_cons hlt, word_cons, Nat.add_mod, Nat.mod_eq_zero_of_dvd
      (hdvd.mul_right _), Nat.add_zero, Nat.mod_mod]
  · rename_i hpos
    refine ⟨_, rfl, Nat.mod_lt _ (by decide), Nat.two_pow_pos _, Nat.div_add_mod start 8, rfl, rfl,
      hvalue _ ?_⟩
    rw [Nat.eq_zero_of_not_pos hpos, Nat.pow_zero, Nat.mod_one]

/-- **One septet more.** -/
theorem Wrote.add7 (h : Wrote old start vs writer) (hv : v < 128)
    (hroom : start + 7 * (vs.length + 1) ≤ 8 * old.length) :
    Yields (writer.add7 v) (Wrote old start (vs ++ [v])) := by
  have hbits := h.bits
  have hposition := h.position
  have hlength := h.length
  have hor : writer.pad ||| v <<< writer.bits = writer.pad + 2 ^ writer.bits * v := by
    rw [Nat.or_comm, ← Nat.shiftLeft_add_eq_or_of_lt h.pad, Nat.shiftLeft_eq, Nat.mul_comm,
      Nat.add_comm]
  have hpad : writer.pad + 2 ^ writer.bits * v < 2 ^ (writer.bits + 7) := by
    have hmul := Nat.mul_le_mul_left (2 ^ writer.bits) (show v ≤ 127 by omega)
    have hlt := h.pad
    rw [Nat.pow_add]
    omega
  have hvalue : word (writer.bytes.take writer.dst) +
      256 ^ writer.dst * (writer.pad + 2 ^ writer.bits * v) =
      word old % 2 ^ start + 2 ^ start * Nat.ofDigits 128 (vs ++ [v]) := by
    have hpow : 256 ^ writer.dst * 2 ^ writer.bits = 2 ^ start * 128 ^ vs.length := by
      rw [← pow_position, hposition, Nat.pow_add, Nat.pow_mul]
    rw [Nat.mul_add, ← Nat.add_assoc, h.value, ← Nat.mul_assoc, hpow, Nat.ofDigits_append,
      Nat.ofDigits_singleton]
    ring
  have hposition' : 8 * writer.dst + (writer.bits + 7) = start + 7 * (vs ++ [v]).length := by
    rw [List.length_append, List.length_singleton]
    omega
  have hoffset : writer.offset + 7 = start + 7 * (vs ++ [v]).length := by
    rw [h.offset, List.length_append, List.length_singleton]
    omega
  rw [BWriter.add7, hor]
  split
  · rename_i hfull
    have hlt : writer.dst < writer.bytes.length := by omega
    rw [put_eq hlt]
    refine ⟨_, rfl, by dsimp only; omega, ?_, by dsimp only; omega, hoffset, ?_, ?_⟩
    · dsimp only
      rw [Nat.shiftRight_eq_div_pow, Nat.div_lt_iff_lt_mul (by decide), ← Nat.pow_add,
        Nat.sub_add_cancel hfull]
      exact hpad
    · rw [List.length_set, hlength]
    · dsimp only
      rw [word_take_set hlt, ← hvalue]
      generalize writer.pad + 2 ^ writer.bits * v = p
      have hhigh : 256 ^ (writer.dst + 1) * (p >>> 8) = 256 ^ writer.dst * (256 * (p / 256)) := by
        rw [Nat.shiftRight_eq_div_pow, Nat.pow_succ, Nat.mul_assoc]
      rw [hhigh, Nat.toUInt8, UInt8.toNat_ofNat', Nat.add_assoc, ← Nat.mul_add, Nat.mod_add_div]
  · exact ⟨_, rfl, by dsimp only; omega, hpad, hposition', hoffset, hlength, hvalue⟩

theorem Wrote.done (h : Wrote old start vs writer)
    (hroom : start + 7 * vs.length ≤ 8 * old.length) :
    Yields writer.done fun r => r.2 = start + 7 * vs.length ∧ r.1.length = old.length ∧
      word r.1 % 2 ^ (start + 7 * vs.length) =
        word old % 2 ^ start + 2 ^ start * Nat.ofDigits 128 vs := by
  have hposition := h.position
  have hlength := h.length
  have hbits := h.bits
  have hlt : word old % 2 ^ start + 2 ^ start * Nat.ofDigits 128 vs <
      2 ^ (start + 7 * vs.length) := by
    have hpad := Nat.mul_le_mul_left (256 ^ writer.dst) (Nat.succ_le_of_lt h.pad)
    have hword := word_lt (writer.bytes.take writer.dst)
    rw [List.length_take, Nat.min_eq_left (by omega)] at hword
    rw [← h.value, ← hposition, pow_position]
    rw [Nat.mul_succ] at hpad
    omega
  rw [BWriter.done]
  split
  · rename_i hpos
    have hdst : writer.dst < writer.bytes.length := by omega
    have hpad : writer.pad.toUInt8.toNat = writer.pad := by
      have hpow : 2 ^ writer.bits ≤ 2 ^ 8 := Nat.pow_le_pow_right (by decide) hbits.le
      have hlow := h.pad
      rw [Nat.toUInt8, UInt8.toNat_ofNat', Nat.mod_eq_of_lt (by omega)]
    have hvalue := word_take_set hdst writer.pad.toUInt8
    rw [hpad, h.value] at hvalue
    rw [put_eq hdst]
    refine ⟨_, rfl, h.offset, by rw [List.length_set, hlength], ?_⟩
    have hdvd : 2 ^ (start + 7 * vs.length) ∣ 256 ^ (writer.dst + 1) := by
      rw [show 256 = 2 ^ 8 from rfl, ← Nat.pow_mul]
      exact Nat.pow_dvd_pow 2 (by omega)
    rw [← Nat.mod_mod_of_dvd _ hdvd, ← word_take, hvalue, Nat.mod_eq_of_lt hlt]
  · rename_i hpos
    have hzero : writer.bits = 0 := by omega
    have hpad : writer.pad = 0 := by
      have hlow := h.pad
      rw [hzero] at hlow
      omega
    have hvalue := h.value
    rw [hpad, Nat.mul_zero, Nat.add_zero, word_take] at hvalue
    refine ⟨_, rfl, h.offset, hlength, ?_⟩
    rw [← hposition, hzero, pow_position, Nat.pow_zero, Nat.mul_one, hvalue]

end BWriter

/-! ### Strings -/

def septetsOf (c : ℕ) : List ℕ :=
  match unichar_to_gsm7 c with
  | some nn => [nn]
  | none =>
    match unichar_to_gsm7_extend c with
    | some nn => [GSM_7BITS_ESCAPE, nn]
    | none => [0x20]

theorem entry_of_findIdx? {table : List ℕ} {c nn : ℕ}
    (h : table.findIdx? (· = c) = some nn) :
    nn < table.length ∧ entry table nn = c ∧ c ∈ table := by
  obtain ⟨hlt, heq, -⟩ := List.findIdx?_eq_some_iff_getElem.mp h
  have heq := of_decide_eq_true heq
  exact ⟨hlt, by rw [entry, List.getD_eq_getElem _ _ hlt, heq], heq ▸ List.getElem_mem hlt⟩

theorem unichar_to_gsm7_some {c nn : ℕ} (h : unichar_to_gsm7 c = some nn) :
    nn < 128 ∧ entry gsm7bits_to_unicode nn = c ∧ c ∈ gsm7bits_to_unicode := entry_of_findIdx? h

theorem unichar_to_gsm7_extend_some {c nn : ℕ} (h : unichar_to_gsm7_extend c = some nn) :
    nn < 128 ∧ entry gsm7bits_extend_to_unicode nn = c ∧ c ∈ gsm7bits_extend_to_unicode :=
  entry_of_findIdx? h

theorem septetsOf_lt (c : ℕ) : ∀ v ∈ septetsOf c, v < 128 := by
  rw [septetsOf]
  intro v hv
  split at hv
  · rename_i nn h
    rw [List.mem_singleton.mp hv]
    exact (unichar_to_gsm7_some h).1
  · split at hv
    · rename_i nn h
      rcases List.mem_pair.mp hv with rfl | rfl
      · decide
      · exact (unichar_to_gsm7_extend_some h).1
    · rw [List.mem_singleton.mp hv]
      decide

theorem length_septetsOf (c : ℕ) : (septetsOf c).length =
    if unichar_to_gsm7_count c = 0 then 1 else unichar_to_gsm7_count c := by
  rw [septetsOf, unichar_to_gsm7_count]
  cases unichar_to_gsm7 c with
  | some nn => rfl
  | none =>
    cases unichar_to_gsm7_extend c with
    | some nn => rfl
    | none => rfl

def septets (utf8 : List UInt8) : List ℕ := (chars utf8).flatMap septetsOf

theorem septets_lt (utf8 : List UInt8) : ∀ v ∈ septets utf8, v < 128 := by
  intro v hv
  obtain ⟨c, -, hv⟩ := List.mem_flatMap.mp hv
  exact septetsOf_lt c v hv

theorem utf8_to_gsm7_count_eq (utf8 : List UInt8) :
    utf8_to_gsm7_count utf8 = (septets utf8).length := by
  rw [utf8_to_gsm7_count, septets, List.length_flatMap]
  congr 1
  exact List.map_congr_left fun c _ => (length_septetsOf c).symm

namespace BWriter

variable {writer : BWriter} {old : List UInt8} {start : ℕ}

theorem addChar_eq (writer : BWriter) (c : ℕ) :
    writer.addChar c = (septetsOf c).foldlM add7 writer := by
  rw [addChar, septetsOf]
  cases unichar_to_gsm7 c with
  | some nn => exact (bind_pure _).symm
  | none =>
    cases unichar_to_gsm7_extend c with
    | some nn => exact congrArg (writer.add7 GSM_7BITS_ESCAPE >>= ·) (funext fun w =>
      (bind_pure _).symm)
    | none => exact (bind_pure _).symm

theorem foldlM_addChar (cs : List ℕ) (writer : BWriter) :
    cs.foldlM addChar writer = (cs.flatMap septetsOf).foldlM add7 writer := by
  induction cs generalizing writer with
  | nil => rfl
  | cons c cs ih =>
    rw [List.foldlM_cons, List.flatMap_cons, List.foldlM_append, addChar_eq]
    exact congrArg ((septetsOf c).foldlM add7 writer >>= ·) (funext ih)

theorem Wrote.foldlM (h : Wrote old start vs writer) (hcs : ∀ v ∈ cs, v < 128)
    (hroom : start + 7 * (vs ++ cs).length ≤ 8 * old.length) :
    Yields (cs.foldlM BWriter.add7 writer) (Wrote old start (vs ++ cs)) := by
  induction cs generalizing vs writer with
  | nil => exact ⟨writer, rfl, by rwa [List.append_nil]⟩
  | cons v cs ih =>
    obtain ⟨hv, hcs⟩ := List.forall_mem_cons.mp hcs
    rw [List.foldlM_cons]
    refine (h.add7 hv ?_).bind fun writer' h' => ?_
    · rw [List.length_append, List.length_cons] at hroom
      omega
    · have hall := ih h' hcs (by rwa [List.append_assoc])
      rwa [List.append_assoc] at hall

end BWriter

/-- **The buffer holds the septets** that are written, behind the bits that it had in front. -/
theorem BWriter.foldlM_add7_holds (hcs : ∀ v ∈ cs, v < 128)
    (hroom : offset + 7 * cs.length ≤ 8 * dst.length) :
    Yields (do
      let writer ← BWriter.init dst offset
      (← cs.foldlM BWriter.add7 writer).done) fun r =>
      r.2 = offset + 7 * cs.length ∧ r.1.length = dst.length ∧
      (∀ i < offset, bit r.1 i = bit dst i) ∧ Holds 128 (word r.1 / 2 ^ offset) cs := by
  have hdone : Yields (do
      let writer ← BWriter.init dst offset
      (← cs.foldlM BWriter.add7 writer).done) fun r =>
      r.2 = offset + 7 * cs.length ∧ r.1.length = dst.length ∧
      word r.1 % 2 ^ (offset + 7 * cs.length) =
        word dst % 2 ^ offset + 2 ^ offset * Nat.ofDigits 128 cs := by
    refine (BWriter.init_wrote (by omega)).bind fun writer hinit => ?_
    exact (hinit.foldlM hcs hroom).bind fun writer' h => h.done hroom
  refine hdone.mono fun r ⟨hend, hlength, hvalue⟩ => ⟨hend, hlength, fun i hi => ?_, ?_⟩
  · have hlow : word r.1 % 2 ^ offset = word dst % 2 ^ offset := by
      rw [← Nat.mod_mod_of_dvd _ (Nat.pow_dvd_pow 2 (Nat.le_add_right offset _)), hvalue,
        Nat.add_mul_mod_self_left, Nat.mod_mod]
    have hbit := congrArg (Nat.testBit · i) hlow
    rw [← testBit_word, ← testBit_word]
    simpa [Nat.testBit_mod_two_pow, hi] using hbit
  · have hpow : 128 ^ cs.length = 2 ^ (7 * cs.length) := by
      rw [Nat.pow_mul]
    rw [Holds, hpow, ← Nat.mod_mul_right_div_self, ← Nat.pow_add, hvalue,
      Nat.add_mul_div_left _ _ (Nat.two_pow_pos _), Nat.div_eq_of_lt
        (Nat.mod_lt _ (Nat.two_pow_pos _)), Nat.zero_add]

/-- **The buffer holds the septets of the string**, behind the bits that it had in front. -/
theorem utf8_to_gsm7_holds (utf8 : List UInt8)
    (hroom : offset + 7 * utf8_to_gsm7_count utf8 ≤ 8 * dst.length) :
    Yields (utf8_to_gsm7 utf8 dst offset) fun r =>
      r.2 = offset + 7 * utf8_to_gsm7_count utf8 ∧ r.1.length = dst.length ∧
      (∀ i < offset, bit r.1 i = bit dst i) ∧
      Holds 128 (word r.1 / 2 ^ offset) (septets utf8) := by
  rw [utf8_to_gsm7_count_eq] at hroom ⊢
  have hadd := BWriter.foldlM_add7_holds (septets_lt utf8) hroom
  rw [utf8_to_gsm7]
  simp only [BWriter.foldlM_addChar]
  exact hadd

end MtkHardware.Ril
