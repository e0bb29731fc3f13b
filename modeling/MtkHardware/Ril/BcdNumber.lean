import MtkHardware.Ril.Gsm7

/-!
# BCD Numbers

A dial string is stored as nibbles, the low one of a byte first; where their number is odd, the last
high nibble is a filler. `gsm_bcdnum_from_ascii` puts the first digit of a byte into the high
nibble, and writes a byte behind the place where it belongs. `gsm_bcdnum_to_ascii` does not count
the nibbles down, and so does not end.
-/

namespace MtkHardware.Ril

/-! ### The code -/

/-- `"0123456789*#,N"`. -/
def bcdChars : List UInt8 :=
  [0x30, 0x31, 0x32, 0x33, 0x34, 0x35, 0x36, 0x37, 0x38, 0x39, 0x2A, 0x23, 0x2C, 0x4E]

/-- `dst[i] = b`, if there is a destination. -/
def putByte (dst : Option (List UInt8)) (i : ℕ) (b : UInt8) :
    Except GsmFault (Option (List UInt8)) :=
  match dst with
  | none => .ok none
  | some bytes => if i < bytes.length then .ok (some (bytes.set i b)) else .error .dst

/-- Some rounds of the loop of `gsm_bcdnum_to_ascii`. No round changes `count`. -/
def toAsciiLoop (count : ℤ) : ℕ → List UInt8 → ℕ → ℕ → Option (List UInt8) →
    Option (Except GsmFault (ℕ × Option (List UInt8)))
  | 0, _, _, _, _ => none
  | rounds + 1, bcd, shift, result, dst =>
    if 0 < count then
      match bcd with
      | [] => some (.error .src)
      | b :: rest =>
        let c := (b.toNat >>> shift) &&& 0xF
        -- a trailing filler
        if c = 15 ∧ count = 1 then some (.ok (result, dst))
        else
          match putByte dst result (bcdChars.getD (if 14 ≤ c then 0 else c) 0) with
          | .error e => some (.error e)
          | .ok dst =>
            if shift + 4 = 8 then toAsciiLoop count rounds rest 0 (result + 1) dst
            else toAsciiLoop count rounds bcd (shift + 4) (result + 1) dst
    else some (.ok (result, dst))

/-- **`gsm_bcdnum_to_ascii`**, for some rounds of its loop: the number of characters, and the
destination. -/
def gsm_bcdnum_to_ascii (rounds : ℕ) (bcd : List UInt8) (count : ℤ) (dst : Option (List UInt8)) :
    Option (Except GsmFault (ℕ × Option (List UInt8))) :=
  toAsciiLoop count rounds bcd 0 0 dst

def bcdNibble (c : UInt8) : Option ℕ :=
  if c = 0x2A then some 10
  else if c = 0x23 then some 11
  else if c = 0x2C then some 12
  else if c = 0x4E then some 13
  else if 0x30 ≤ c.toNat ∧ c.toNat < 0x30 + 10 then some (c.toNat - 0x30)
  else none

/-- The loop of `gsm_bcdnum_from_ascii`. A bit in front of the nibbles in `phase` tells how many
there are. -/
def fromAsciiLoop : List UInt8 → ℕ → ℕ → Option (List UInt8) →
    Except GsmFault (ℤ × Option (List UInt8))
  | [], phase, result, dst => do
      if result &&& 1 ≠ 0 then
        return (result, ← putByte dst (result / 2) (UInt8.ofNat (phase ||| 0xF0)))
      else return (result, dst)
  | ch :: ascii, phase, result, dst =>
    match bcdNibble ch with
    | none => .ok (-1, dst)
    | some c => do
        let phase := phase <<< 4 ||| c
        let result := result + 1
        if phase &&& 0x100 ≠ 0 then
          fromAsciiLoop ascii 0x01 result (← putByte dst (result / 2) (UInt8.ofNat phase))
        else fromAsciiLoop ascii phase result dst

/-- **`gsm_bcdnum_from_ascii`**: the number of digits or `-1`, and the destination. -/
def gsm_bcdnum_from_ascii (ascii : List UInt8) (dst : Option (List UInt8)) :
    Except GsmFault (ℤ × Option (List UInt8)) :=
  fromAsciiLoop ascii 0x01 0 dst

/-! ### What is meant -/

def IsDialString (s : List UInt8) : Prop := ∀ c ∈ s, c ∈ bcdChars

def packNibbles : List ℕ → List UInt8
  | [] => []
  | [a] => [UInt8.ofNat (a + 16 * 0xF)]
  | a :: b :: rest => UInt8.ofNat (a + 16 * b) :: packNibbles rest

def bcdBytes (s : List UInt8) : List UInt8 := packNibbles (s.map fun c => (bcdNibble c).getD 0)

/-- The bytes of a string are written, into any destination with room for them. -/
def Packs (s : List UInt8) : Prop :=
  ∀ dst : List UInt8, (s.length + 1) / 2 ≤ dst.length →
    gsm_bcdnum_from_ascii s (some dst) =
      .ok (s.length, some (bcdBytes s ++ dst.drop ((s.length + 1) / 2)))

/-- The decoder ends, and makes the string of its bytes. -/
def Unpacks (s : List UInt8) : Prop :=
  ∀ out : List UInt8, s.length ≤ out.length →
    ∃ rounds, gsm_bcdnum_to_ascii rounds (bcdBytes s) (2 * (bcdBytes s).length) (some out) =
      some (.ok (s.length, some (s ++ out.drop s.length)))

/-! ### The encoder -/

variable {s rest : List UInt8} {dst dst' out : List UInt8} {phase result : ℕ} {r : ℤ}

theorem exists_nibble {c : UInt8} (hc : c ∈ bcdChars) : ∃ n < 14, bcdNibble c = some n := by
  have hall : bcdChars.Forall fun c => ∃ n < 14, bcdNibble c = some n := by decide
  exact List.forall_iff_forall_mem.mp hall c hc

theorem length_packNibbles (ns : List ℕ) : (packNibbles ns).length = (ns.length + 1) / 2 := by
  induction ns using packNibbles.induct with
  | case1 => rfl
  | case2 a => rw [packNibbles, List.length_singleton, List.length_singleton]
  | case3 a b rest ih =>
    rw [packNibbles, List.length_cons, ih, List.length_cons, List.length_cons]
    omega

theorem length_bcdBytes (s : List UInt8) : (bcdBytes s).length = (s.length + 1) / 2 := by
  rw [bcdBytes, length_packNibbles, List.length_map]

theorem putByte_head {i : ℕ} {b : UInt8} {d : Option (List UInt8)} (hi : i ≠ 0)
    (h : putByte (some dst) i b = .ok d) : ∃ dst', d = some dst' ∧ dst'.head? = dst.head? := by
  rw [putByte] at h
  split at h
  · obtain rfl := Except.ok.inj h
    refine ⟨_, rfl, ?_⟩
    cases dst with
    | nil => rfl
    | cons a dst =>
      obtain ⟨j, rfl⟩ := Nat.exists_eq_succ_of_ne_zero hi
      rfl
  · cases h

theorem fromAsciiLoop_head (hresult : 1 ≤ result)
    (hphase : result = 1 → result &&& 1 ≠ 0 → rest ≠ [])
    (h : fromAsciiLoop rest phase result (some dst) = .ok (r, some dst')) :
    dst'.head? = dst.head? := by
  induction rest generalizing phase result dst with
  | nil =>
    rw [fromAsciiLoop] at h
    split at h
    · rename_i hodd
      obtain ⟨d, hput, hd⟩ := bind_ok_iff.mp h
      have hone : result ≠ 1 := fun heq => hphase heq hodd rfl
      obtain ⟨dst'', rfl, hhead⟩ := putByte_head (by omega) hput
      obtain ⟨-, hd⟩ := Prod.mk.inj (Except.ok.inj hd)
      obtain rfl := Option.some.inj hd
      exact hhead
    · obtain ⟨-, hd⟩ := Prod.mk.inj (Except.ok.inj h)
      rw [Option.some.inj hd]
  | cons c rest ih =>
    rw [fromAsciiLoop] at h
    split at h
    · obtain ⟨-, hd⟩ := Prod.mk.inj (Except.ok.inj h)
      rw [Option.some.inj hd]
    · dsimp only at h
      split at h
      · obtain ⟨d, hput, hd⟩ := bind_ok_iff.mp h
        obtain ⟨dst'', rfl, hhead⟩ := putByte_head (by omega) hput
        rw [ih (by omega) (by omega) hd, hhead]
      · exact ih (by omega) (by omega) h

theorem single_digit : ∀ n < 14, (1 <<< 4 ||| n) &&& 0x100 = 0 ∧
    UInt8.ofNat ((1 <<< 4 ||| n) ||| 0xF0) = UInt8.ofNat (n + 16 * 0xF) := by decide

/-- **The encoder**: of the dial strings, those of one digit at most are stored as they should. -/
theorem packs_iff (hs : IsDialString s) : Packs s ↔ s.length ≤ 1 := by
  match s with
  | [] =>
    refine iff_of_true (fun dst _ => ?_) (Nat.zero_le 1)
    rfl
  | [c] =>
    obtain ⟨n, hn, hnibble⟩ := exists_nibble (hs c List.mem_cons_self)
    obtain ⟨hphase, hbyte⟩ := single_digit n hn
    refine iff_of_true (fun dst hroom => ?_) (Nat.le_refl 1)
    have hpos : 0 < dst.length := by
      rw [List.length_singleton] at hroom
      omega
    obtain ⟨b, dst, rfl⟩ := List.exists_cons_of_length_pos hpos
    have hbytes : bcdBytes [c] = [UInt8.ofNat (n + 16 * 0xF)] := by
      rw [bcdBytes, List.map_singleton, hnibble]
      rfl
    rw [gsm_bcdnum_from_ascii, fromAsciiLoop, hnibble, hbytes, ← hbyte]
    dsimp only
    have hput : putByte (some (b :: dst)) ((0 + 1) / 2) (UInt8.ofNat ((1 <<< 4 ||| n) ||| 0xF0)) =
        .ok (some (UInt8.ofNat ((1 <<< 4 ||| n) ||| 0xF0) :: dst)) :=
      if_pos (e := .error .dst) hpos
    rw [if_neg (not_not.mpr hphase), fromAsciiLoop, if_pos (by decide), hput,
      List.length_singleton]
    rfl
  | c :: c' :: rest =>
    refine iff_of_false (fun h => ?_) (by simp)
    obtain ⟨n, hn, hnibble⟩ := exists_nibble (hs c List.mem_cons_self)
    obtain ⟨hphase, -⟩ := single_digit n hn
    -- a destination that begins with another byte than the first
    obtain ⟨b, bytes, hbytes⟩ := List.exists_cons_of_length_pos (l := bcdBytes (c :: c' :: rest))
      (by rw [length_bcdBytes, List.length_cons, List.length_cons]; omega)
    have hlength := length_bcdBytes (c :: c' :: rest)
    rw [hbytes, List.length_cons] at hlength
    have hstored := h ((b + 1) :: bytes) (by rw [← hlength, List.length_cons])
    rw [gsm_bcdnum_from_ascii, fromAsciiLoop, hnibble, hbytes] at hstored
    dsimp only at hstored
    rw [if_neg (not_not.mpr hphase)] at hstored
    have hhead := fromAsciiLoop_head (Nat.le_refl 1) (fun _ _ => List.cons_ne_nil c' rest) hstored
    have hne : b ≠ b + 1 := fun heq => by
      have hone : b + 0 = b + 1 := by rwa [UInt8.add_zero]
      exact absurd ((UInt8.add_right_inj b).mp hone) (by decide)
    exact hne (Option.some.inj hhead)

/-! ### The decoder -/

/-- **The decoder** does not come to an end of two nibbles or more. -/
theorem toAsciiLoop_ne_ok {count : ℤ} (hcount : 2 ≤ count) (rounds : ℕ) (bcd : List UInt8)
    (shift result : ℕ) (d : Option (List UInt8)) (x : ℕ × Option (List UInt8)) :
    toAsciiLoop count rounds bcd shift result d ≠ some (.ok x) := by
  induction rounds generalizing bcd shift result d with
  | zero => exact fun h => nomatch h
  | succ rounds ih =>
    rw [toAsciiLoop.eq_def]
    dsimp only
    rw [if_pos (by omega)]
    cases bcd with
    | nil => exact fun h => nomatch Option.some.inj h
    | cons b rest =>
      dsimp only
      rw [if_neg (fun h => by omega)]
      split
      · exact fun h => nomatch Option.some.inj h
      · split
        · exact ih rest 0 (result + 1) _
        · exact ih (b :: rest) (shift + 4) (result + 1) _

theorem unpacks_iff : Unpacks s ↔ s = [] := by
  cases s with
  | nil => exact iff_of_true (fun out _ => ⟨1, rfl⟩) rfl
  | cons c s =>
    refine iff_of_false (fun h => ?_) (List.cons_ne_nil c s)
    obtain ⟨rounds, hdecoded⟩ := h (c :: s) (Nat.le_refl _)
    have hlength := length_bcdBytes (c :: s)
    rw [List.length_cons] at hlength
    exact toAsciiLoop_ne_ok (by omega) rounds _ 0 0 _ _ hdecoded

/-- **The round trip** of BCD numbers: of the dial strings, only the empty one is stored as it
should and comes back. -/
theorem bcd_round_trip_iff (hs : IsDialString s) : Packs s ∧ Unpacks s ↔ s = [] := by
  rw [packs_iff hs, unpacks_iff]
  refine ⟨fun h => h.2, ?_⟩
  rintro rfl
  exact ⟨Nat.zero_le 1, rfl⟩

theorem isDialString_digits : IsDialString [0x31, 0x32] :=
  List.forall_iff_forall_mem.mp (by decide)

/-- Nothing comes back as nothing, and the digits `1` and `2` do not come back. -/
theorem bcd_round_trip_iff_digits :
    (Packs [] ∧ Unpacks []) ∧ ¬ (Packs [0x31, 0x32] ∧ Unpacks [0x31, 0x32]) :=
  ⟨(bcd_round_trip_iff (s := []) (fun _ h => nomatch h)).mpr rfl, fun h =>
    List.cons_ne_nil _ _ ((bcd_round_trip_iff isDialString_digits).mp h)⟩

/-- The digits `1` and `2` are stored behind the first byte, with their nibbles exchanged; and what
should have been stored is decoded beyond its end. -/
theorem bcd_digits_lost : IsDialString [0x31, 0x32] ∧ bcdBytes [0x31, 0x32] = [0x21] ∧
    gsm_bcdnum_from_ascii [0x31, 0x32] (some [0, 0]) = .ok (2, some [0, 0x12]) ∧
    gsm_bcdnum_to_ascii 3 [0x21] 2 (some [0, 0]) = some (.error .src) ∧
    ¬ (Packs [0x31, 0x32] ∧ Unpacks [0x31, 0x32]) := by
  have hstored : gsm_bcdnum_from_ascii [0x31, 0x32] (some [0, 0]) = .ok (2, some [0, 0x12]) := rfl
  refine ⟨isDialString_digits, rfl, hstored, rfl, ?_⟩
  rintro ⟨hpacks, -⟩
  have hmeant := hpacks [0, 0] (by decide)
  rw [hstored] at hmeant
  exact absurd hmeant (by decide)

end MtkHardware.Ril
