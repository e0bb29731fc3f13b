import MtkHardware.Ril.Gsm7Packing

/-!
# UCS-2 and the GSM Alphabet

`ucs2_to_gsm7` is to pack the septets of UCS-2 characters, and `ucs2_from_gsm7` is to make the
characters of them again. The one takes every byte for a character, and so writes the septets of the
high bytes too. The other looks up the characters of the default alphabet in the extension table and
those behind an escape in the default table, and it does not go on in its source: all septets that
it reads are the first one.
-/

namespace MtkHardware.Ril

/-- `ucs2_write` -/
def ucs2_write (v : ℕ) : List UInt8 := [(v >>> 8).toUInt8, v.toUInt8]

/-- The loop of `ucs2_from_gsm7`. Neither `p` nor `shift` changes. -/
def fromSeptet (p : List UInt8) (shift : ℕ) : ℕ → Bool → Except GsmFault (List UInt8)
  | 0, _ => .ok []
  | septet_count + 1, escaped => do
      let val ← septet p shift
      if escaped then
        return ucs2_write (entry gsm7bits_to_unicode val) ++
          (← fromSeptet p shift septet_count false)
      else if val = GSM_7BITS_ESCAPE then fromSeptet p shift septet_count true
      else
        let val := entry gsm7bits_extend_to_unicode val
        return ucs2_write (if val = 0 then 0x20 else val) ++
          (← fromSeptet p shift septet_count escaped)

/-- **`ucs2_from_gsm7`**: the bytes that are written. -/
def ucs2_from_gsm7 (src : List UInt8) (septet_offset septet_count : ℕ) :
    Except GsmFault (List UInt8) :=
  fromSeptet (src.drop (septet_offset >>> 3)) (septet_offset &&& 7) septet_count false

/-- **`ucs2_to_gsm7`**: the destination with the septets from a bit on, and the bit behind them. The
pointer goes over the `2 * ucs2len` bytes one by one. -/
def ucs2_to_gsm7 (ucs2 : List UInt8) (ucs2len : ℕ) (dst : List UInt8) (offset : ℕ) :
    Except GsmFault (List UInt8 × ℕ) :=
  if ucs2.length < 2 * ucs2len then .error .src
  else do
    let writer ← BWriter.init dst offset
    (← ((ucs2.take (2 * ucs2len)).map UInt8.toNat).foldlM BWriter.addChar writer).done

/-! ### The encoder -/

def ucs2Bytes (cs : List ℕ) : List UInt8 := cs.flatMap ucs2_write

def ucs2Septets (cs : List ℕ) : List ℕ := ((ucs2Bytes cs).map UInt8.toNat).flatMap septetsOf

variable {cs : List ℕ} {dst p : List UInt8} {offset shift n : ℕ}

@[simp] theorem length_ucs2Bytes (cs : List ℕ) : (ucs2Bytes cs).length = 2 * cs.length := by
  induction cs with
  | nil => rfl
  | cons c cs ih =>
    rw [ucs2Bytes, List.flatMap_cons, List.length_append, ← ucs2Bytes, ih, List.length_cons,
      ucs2_write, List.length_cons, List.length_singleton]
    omega

theorem ucs2Septets_lt (cs : List ℕ) : ∀ v ∈ ucs2Septets cs, v < 128 := by
  intro v hv
  obtain ⟨c, -, hv⟩ := List.mem_flatMap.mp hv
  exact septetsOf_lt c v hv

/-- **The buffer holds the septets of the bytes**, behind the bits that it had in front. -/
theorem ucs2_to_gsm7_holds (cs : List ℕ)
    (hroom : offset + 7 * (ucs2Septets cs).length ≤ 8 * dst.length) :
    Yields (ucs2_to_gsm7 (ucs2Bytes cs) cs.length dst offset) fun r =>
      r.2 = offset + 7 * (ucs2Septets cs).length ∧ r.1.length = dst.length ∧
      (∀ i < offset, bit r.1 i = bit dst i) ∧
      Holds 128 (word r.1 / 2 ^ offset) (ucs2Septets cs) := by
  have hadd := BWriter.foldlM_add7_holds (ucs2Septets_lt cs) hroom
  have hlength := length_ucs2Bytes cs
  rw [ucs2_to_gsm7, if_neg (by omega), ← hlength, List.take_length]
  simp only [BWriter.foldlM_addChar]
  exact hadd

/-! ### The decoder -/

theorem fromSeptet_escape {bytes : List UInt8} (hval : septet p shift = .ok GSM_7BITS_ESCAPE)
    (h : fromSeptet p shift (n + 2) false = .ok bytes) :
    ∃ rest, bytes = 0 :: 0 :: rest := by
  rw [fromSeptet, hval] at h
  change fromSeptet p shift (n + 1) true = .ok bytes at h
  rw [fromSeptet, hval] at h
  change (fromSeptet p shift n false >>= fun rest =>
    Except.ok (ucs2_write (entry gsm7bits_to_unicode GSM_7BITS_ESCAPE) ++ rest)) = .ok bytes at h
  obtain ⟨rest, -, hbytes⟩ := bind_ok_iff.mp h
  exact ⟨rest, (Except.ok.inj hbytes).symm⟩

theorem fromSeptet_space {bytes : List UInt8} (hval : septet p shift = .ok 0x20)
    (h : fromSeptet p shift (n + 1) false = .ok bytes) :
    ∃ rest, bytes = 0 :: 0x20 :: rest := by
  rw [fromSeptet, hval] at h
  change (fromSeptet p shift n false >>= fun rest =>
    Except.ok (ucs2_write 0x20 ++ rest)) = .ok bytes at h
  obtain ⟨rest, -, hbytes⟩ := bind_ok_iff.mp h
  exact ⟨rest, (Except.ok.inj hbytes).symm⟩

theorem septet_of_holds {src : List UInt8} {v : ℕ} {vs : List ℕ} (hv : v < 128)
    (hroom : offset + 7 ≤ 8 * src.length) (h : Holds 128 (word src / 2 ^ offset) (v :: vs)) :
    septet (src.drop (offset >>> 3)) (offset &&& 7) = .ok v := by
  have hshift : offset &&& 7 = offset % 8 := Nat.and_two_pow_sub_one_eq_mod offset 3
  have hbyte : offset >>> 3 = offset / 8 := Nat.shiftRight_eq_div_pow offset 3
  have hpow : 2 ^ offset = 256 ^ (offset / 8) * 2 ^ (offset % 8) := by
    rw [← BWriter.pow_position, Nat.div_add_mod]
  have hlow := ((holds_cons_iff hv).mp h).1
  rw [hshift, hbyte, septet_eq (Nat.mod_lt _ (by decide)) (by rw [List.length_drop]; omega),
    word_drop, Nat.div_div_eq_div_mul, ← hpow, hlow]

/-! ### The round trip -/

/-- A character of the default or of the extension alphabet. -/
def InUcs2Alphabet (c : ℕ) : Prop :=
  c ≠ 0 ∧ (c ∈ gsm7bits_to_unicode ∨ c ∈ gsm7bits_extend_to_unicode)

/-- The high byte of a character: a zero is taken for an escape, and any other for a space. -/
theorem septetsOf_high {c : ℕ} (hc : InUcs2Alphabet c) :
    c < 65536 ∧ (c >>> 8 = 0 ∧ septetsOf (c >>> 8).toUInt8.toNat = [GSM_7BITS_ESCAPE] ∨
      (c >>> 8).toUInt8 ≠ 0 ∧ septetsOf (c >>> 8).toUInt8.toNat = [0x20]) := by
  have hall : ∀ c ∈ gsm7bits_to_unicode ++ gsm7bits_extend_to_unicode,
      c < 65536 ∧ (c >>> 8 = 0 ∧ septetsOf (c >>> 8).toUInt8.toNat = [GSM_7BITS_ESCAPE] ∨
        (c >>> 8).toUInt8 ≠ 0 ∧ septetsOf (c >>> 8).toUInt8.toNat = [0x20]) := by
    decide +kernel
  exact hall c (List.mem_append.mpr hc.2)

theorem two_le_length_ucs2Septets (c : ℕ) (cs : List ℕ) :
    2 ≤ (ucs2Septets (c :: cs)).length := by
  have hpos : ∀ c, 1 ≤ (septetsOf c).length := by
    intro c
    rw [length_septetsOf]
    split <;> omega
  have hhigh := hpos (c >>> 8).toUInt8.toNat
  have hlow := hpos c.toUInt8.toNat
  simp only [ucs2Septets, ucs2Bytes, ucs2_write, List.flatMap_cons, List.map_append, List.map_cons,
    List.flatMap_append, List.length_append]
  omega

def Ucs2RoundTrips (cs : List ℕ) (dst : List UInt8) (offset : ℕ) : Prop :=
  ∃ dst' last, ucs2_to_gsm7 (ucs2Bytes cs) cs.length dst offset = .ok (dst', last) ∧
    ucs2_from_gsm7 dst' offset ((last - offset) / 7) = .ok (ucs2Bytes cs)

/-- **The round trip** of UCS-2: of the strings of the two alphabets without a zero, at every bit of
a destination with room for what is written, only the empty one comes back. -/
theorem ucs2_round_trip_iff (hcs : ∀ c ∈ cs, InUcs2Alphabet c)
    (hroom : offset + 7 * (ucs2Septets cs).length ≤ 8 * dst.length) :
    Ucs2RoundTrips cs dst offset ↔ cs = [] := by
  obtain ⟨⟨dst', last⟩, hto, hlast, hlength, -, hholds⟩ := ucs2_to_gsm7_holds cs hroom
  have hcount : (last - offset) / 7 = (ucs2Septets cs).length := by
    have hlast : last = offset + 7 * (ucs2Septets cs).length := hlast
    omega
  cases cs with
  | nil => exact iff_of_true ⟨dst', last, hto, by rw [hcount]; rfl⟩ rfl
  | cons c cs =>
    refine iff_of_false ?_ (List.cons_ne_nil c cs)
    rintro ⟨dst'', last', hto', hfrom⟩
    rw [hto] at hto'
    cases hto'
    rw [hcount] at hfrom
    have htwo := two_le_length_ucs2Septets c cs
    obtain ⟨n, hn⟩ := Nat.exists_eq_add_of_le' htwo
    rw [hn, ucs2_from_gsm7] at hfrom
    have hbytes : ucs2Bytes (c :: cs) = (c >>> 8).toUInt8 :: c.toUInt8 :: ucs2Bytes cs := rfl
    have hseptets : ucs2Septets (c :: cs) = septetsOf (c >>> 8).toUInt8.toNat ++
        (septetsOf c.toUInt8.toNat ++ ucs2Septets cs) := by
      simp [ucs2Septets, hbytes]
    have hfirst : offset + 7 ≤ 8 * dst'.length := by
      have hlength : dst'.length = dst.length := hlength
      omega
    have hc := hcs c List.mem_cons_self
    rw [hseptets] at hholds
    obtain ⟨hlt, ⟨hzero, hhigh⟩ | ⟨hhigh, hspace⟩⟩ := septetsOf_high hc
    · rw [hhigh] at hholds
      obtain ⟨rest, hrest⟩ := fromSeptet_escape
        (septet_of_holds (by decide) hfirst hholds) hfrom
      rw [hbytes] at hrest
      -- both bytes of the character would be zero
      have hlow : c.toUInt8 = 0 := (List.cons.inj (List.cons.inj hrest).2).1
      have hc0 : c = 0 := by
        have hmod := congrArg UInt8.toNat hlow
        rw [Nat.toUInt8, UInt8.toNat_ofNat'] at hmod
        rw [Nat.shiftRight_eq_div_pow] at hzero
        have hmod : c % 2 ^ 8 = 0 := hmod
        omega
      exact hc.1 hc0
    · rw [hspace] at hholds
      obtain ⟨rest, hrest⟩ := fromSeptet_space
        (septet_of_holds (by decide) hfirst hholds) hfrom
      rw [hbytes] at hrest
      exact hhigh (List.cons.inj hrest).1

/-- Nothing comes back as nothing, and a letter behind three bits does not come back. -/
theorem ucs2_round_trip_iff_letter :
    Ucs2RoundTrips [] [0x07] 3 ∧ ¬ Ucs2RoundTrips [0x41] [0x07, 0x00, 0x00] 3 := by
  have hletter : ∀ c ∈ [0x41], InUcs2Alphabet c := by
    intro c hc
    obtain rfl := List.mem_singleton.mp hc
    exact ⟨by decide, .inl (by decide)⟩
  exact ⟨(ucs2_round_trip_iff (by simp) (by decide)).mpr rfl, fun h =>
    List.cons_ne_nil _ _ ((ucs2_round_trip_iff hletter (by decide)).mp h)⟩

/-- A letter does not come back. -/
theorem ucs2_letter_lost : InUcs2Alphabet 0x41 ∧
    ucs2_to_gsm7 (ucs2Bytes [0x41]) 1 [0, 0] 0 = .ok ([0x9B, 0x20], 14) ∧
    ucs2_from_gsm7 [0x9B, 0x20] 0 2 = .ok [0x00, 0x00] ∧ ¬ Ucs2RoundTrips [0x41] [0, 0] 0 := by
  have hto : ucs2_to_gsm7 (ucs2Bytes [0x41]) 1 [0, 0] 0 = .ok ([0x9B, 0x20], 14) := by rfl
  have hfrom : ucs2_from_gsm7 [0x9B, 0x20] 0 2 = .ok [0x00, 0x00] := by rfl
  refine ⟨⟨by decide, .inl (by decide)⟩, hto, hfrom, ?_⟩
  rintro ⟨dst', last, hto', hfrom'⟩
  obtain ⟨rfl, rfl⟩ := Prod.mk.inj (Except.ok.inj (hto.symm.trans hto'))
  exact absurd (hfrom.symm.trans hfrom') (by decide)

end MtkHardware.Ril
