import Mathlib.Data.List.Basic
import Mathlib.Data.Nat.Notation
import Mathlib.Algebra.Ring.Int.Defs
import Mathlib.Algebra.Ring.Nat

/-!
# Frames

A frame has an address field, a control field, in basic mode a length field of one or two bytes, the
payload and a check sequence over the fields before the payload, between two flags. In advanced mode
the flags tell how long it is, and bytes that are special are escaped.
-/

namespace MtkHardware.Gsm0710

/-! ### Constants -/

def GSM0710_BUFFER_SIZE : ℕ := 4096
def GSM0710_FRAME_FLAG : UInt8 := 0xF9
def GSM0710_FRAME_ADV_FLAG : UInt8 := 0x7E
def GSM0710_FRAME_ADV_ESC : UInt8 := 0x7D
def GSM0710_FRAME_ADV_ESC_COPML : UInt8 := 0x20
def GSM0710_FRAME_ADV_ESCAPED_SYMS : List UInt8 :=
  [GSM0710_FRAME_ADV_FLAG, GSM0710_FRAME_ADV_ESC, 0x11, 0x91, 0x13, 0x93]
def GSM0710_PF : UInt8 := 0x10
def GSM0710_CR : UInt8 := 0x02
def GSM0710_EA : UInt8 := 0x01
def GSM0710_TYPE_UIH : UInt8 := 0xEF
def GSM0710_TYPE_UI : UInt8 := 0x03
def GSM0710_CONTROL_MSC : UInt8 := 0xE0 ||| GSM0710_EA
def MAX_RESYNC_GET_FRAME_COUNT : ℕ := 3

/-- `r_crctable`. -/
def r_crctable : Array UInt8 := #[
  0x00, 0x91, 0xE3, 0x72, 0x07, 0x96, 0xE4, 0x75, 0x0E, 0x9F, 0xED, 0x7C, 0x09, 0x98, 0xEA, 0x7B,
  0x1C, 0x8D, 0xFF, 0x6E, 0x1B, 0x8A, 0xF8, 0x69, 0x12, 0x83, 0xF1, 0x60, 0x15, 0x84, 0xF6, 0x67,
  0x38, 0xA9, 0xDB, 0x4A, 0x3F, 0xAE, 0xDC, 0x4D, 0x36, 0xA7, 0xD5, 0x44, 0x31, 0xA0, 0xD2, 0x43,
  0x24, 0xB5, 0xC7, 0x56, 0x23, 0xB2, 0xC0, 0x51, 0x2A, 0xBB, 0xC9, 0x58, 0x2D, 0xBC, 0xCE, 0x5F,
  0x70, 0xE1, 0x93, 0x02, 0x77, 0xE6, 0x94, 0x05, 0x7E, 0xEF, 0x9D, 0x0C, 0x79, 0xE8, 0x9A, 0x0B,
  0x6C, 0xFD, 0x8F, 0x1E, 0x6B, 0xFA, 0x88, 0x19, 0x62, 0xF3, 0x81, 0x10, 0x65, 0xF4, 0x86, 0x17,
  0x48, 0xD9, 0xAB, 0x3A, 0x4F, 0xDE, 0xAC, 0x3D, 0x46, 0xD7, 0xA5, 0x34, 0x41, 0xD0, 0xA2, 0x33,
  0x54, 0xC5, 0xB7, 0x26, 0x53, 0xC2, 0xB0, 0x21, 0x5A, 0xCB, 0xB9, 0x28, 0x5D, 0xCC, 0xBE, 0x2F,
  0xE0, 0x71, 0x03, 0x92, 0xE7, 0x76, 0x04, 0x95, 0xEE, 0x7F, 0x0D, 0x9C, 0xE9, 0x78, 0x0A, 0x9B,
  0xFC, 0x6D, 0x1F, 0x8E, 0xFB, 0x6A, 0x18, 0x89, 0xF2, 0x63, 0x11, 0x80, 0xF5, 0x64, 0x16, 0x87,
  0xD8, 0x49, 0x3B, 0xAA, 0xDF, 0x4E, 0x3C, 0xAD, 0xD6, 0x47, 0x35, 0xA4, 0xD1, 0x40, 0x32, 0xA3,
  0xC4, 0x55, 0x27, 0xB6, 0xC3, 0x52, 0x20, 0xB1, 0xCA, 0x5B, 0x29, 0xB8, 0xCD, 0x5C, 0x2E, 0xBF,
  0x90, 0x01, 0x73, 0xE2, 0x97, 0x06, 0x74, 0xE5, 0x9E, 0x0F, 0x7D, 0xEC, 0x99, 0x08, 0x7A, 0xEB,
  0x8C, 0x1D, 0x6F, 0xFE, 0x8B, 0x1A, 0x68, 0xF9, 0x82, 0x13, 0x61, 0xF0, 0x85, 0x14, 0x66, 0xF7,
  0xA8, 0x39, 0x4B, 0xDA, 0xAF, 0x3E, 0x4C, 0xDD, 0xA6, 0x37, 0x45, 0xD4, 0xA1, 0x30, 0x42, 0xD3,
  0xB4, 0x25, 0x57, 0xC6, 0xB3, 0x22, 0x50, 0xC1, 0xBA, 0x2B, 0x59, 0xC8, 0xBD, 0x2C, 0x5E, 0xCF]

def crc (fcs b : UInt8) : UInt8 := r_crctable.getD (fcs ^^^ b).toNat 0

/-- What `crc` gives with the check sequence itself. -/
def goodFcs : UInt8 := 0xCF

/-! ### Frames and channels -/

/-- `GSM0710_Frame`, of which the length is that of the data. -/
structure GSM0710_Frame where
  channel : UInt8
  control : UInt8
  data : List UInt8
  deriving DecidableEq, Repr

/-- `channellist`, as far as frames are concerned. How many channels there are depends on what is
built. -/
structure ChannelList where
  GSM0710_MAX_CHANNELS : ℕ
  maxChannels : GSM0710_MAX_CHANNELS = 32 ∨ GSM0710_MAX_CHANNELS = 64
  negotiated_N1 : ℕ → ℕ

def GSM0710_DECODE_ADDRESS (byte : UInt8) : UInt8 := (byte &&& 252) >>> 2

/-- `GSM0710_FRAME_IS(GSM0710_TYPE_UI, frame)`. -/
def isUI (control : UInt8) : Bool := control &&& ~~~GSM0710_PF == GSM0710_TYPE_UI

/-- `GSM0710_COMMAND_IS`. -/
def GSM0710_COMMAND_IS (type command : UInt8) : Bool := type &&& ~~~GSM0710_CR == command

/-! ### Writing -/

def frame_calc_crc (input : List UInt8) : UInt8 := 0xFF - input.foldl crc 0xFF

def fill_adv_frame_buf : List UInt8 → List UInt8
  | [] => []
  | b :: data =>
    if b ∈ GSM0710_FRAME_ADV_ESCAPED_SYMS then
      GSM0710_FRAME_ADV_ESC :: (b ^^^ GSM0710_FRAME_ADV_ESC_COPML) :: fill_adv_frame_buf data
    else b :: fill_adv_frame_buf data

/-- The address field that `write_frame` writes. -/
def address (channel : UInt8) : UInt8 := GSM0710_EA ||| GSM0710_CR ||| (63 &&& channel) <<< 2

/-- The length field that `write_frame` writes in basic mode. -/
def lengthField (length : ℕ) : List UInt8 :=
  if 127 < length then
    [UInt8.ofNat ((0x007F &&& length) <<< 1), UInt8.ofNat ((0x7F80 &&& length) >>> 7)]
  else [UInt8.ofNat (1 ||| length <<< 1)]

/-- What `write_frame` makes of the type, and of `uih_pf_bit_received`. -/
def controlField (uih_pf_bit_received : Bool) (input : List UInt8) (type : UInt8) : UInt8 × Bool :=
  if (type = GSM0710_TYPE_UIH ∨ type = GSM0710_TYPE_UI) ∧ uih_pf_bit_received ∧
      GSM0710_COMMAND_IS (input.headD 0) GSM0710_CONTROL_MSC then
    (type ||| GSM0710_PF, false)
  else (type, uih_pf_bit_received)

/-- The fields that `write_frame` writes behind the start flag and before the payload. -/
def header (cmux_mode : Bool) (channel control : UInt8) (length : ℕ) : List UInt8 :=
  address channel :: control :: if cmux_mode then [] else lengthField length

/-- What `write_frame` writes to the serial device, and `uih_pf_bit_received` then. -/
def write_frame (channels : ChannelList) (cmux_mode uih_pf_bit_received : Bool) (channel : UInt8)
    (input : List UInt8) (type : UInt8) : List UInt8 × Bool :=
  let control := controlField uih_pf_bit_received input type
  let data := input.take (channels.negotiated_N1 channel.toNat)
  let fields := header cmux_mode channel control.1 data.length
  let fcs := frame_calc_crc fields
  if cmux_mode then
    (GSM0710_FRAME_ADV_FLAG :: fill_adv_frame_buf fields ++ fill_adv_frame_buf data ++
      fill_adv_frame_buf [fcs] ++ [GSM0710_FRAME_ADV_FLAG], control.2)
  else (GSM0710_FRAME_FLAG :: fields ++ data ++ [fcs, GSM0710_FRAME_FLAG], control.2)

/-! ### What the fields are good for -/

theorem forall_byte {P : UInt8 → Prop} (h : ∀ n < 256, P (UInt8.ofNat n)) (b : UInt8) : P b := by
  have hb := h b.toNat b.toNat_lt
  rwa [UInt8.ofNat_toNat] at hb

theorem crc_frame_calc_crc (fields : List UInt8) :
    crc (fields.foldl crc 0xFF) (frame_calc_crc fields) = goodFcs := by
  have hxor : ∀ fcs : UInt8, fcs ^^^ (0xFF - fcs) = 0xFF := by
    intro fcs
    refine UInt8.toBitVec_inj.mp ?_
    change fcs.toBitVec ^^^ (BitVec.allOnes 8 - fcs.toBitVec) = BitVec.allOnes 8
    rw [BitVec.allOnes_sub_eq_not, ← BitVec.not_xor_right, BitVec.xor_self, BitVec.not_zero]
  have hlast : r_crctable.getD (0xFF : UInt8).toNat 0 = goodFcs := by decide +kernel
  rw [crc, frame_calc_crc, hxor, hlast]

theorem exists_bits (channel : UInt8) : ∃ n < 64, 63 &&& channel = UInt8.ofNat n := by
  refine ⟨channel.toNat % 64, Nat.mod_lt _ (by decide), UInt8.toNat_inj.mp ?_⟩
  have hand : 63 &&& channel.toNat = channel.toNat % 64 := by
    rw [Nat.and_comm]
    exact Nat.and_two_pow_sub_one_eq_mod channel.toNat 6
  rw [UInt8.toNat_and, UInt8.toNat_ofNat', Nat.mod_eq_of_lt (by omega)]
  exact hand

theorem decode_address (channel : UInt8) (h : channel.toNat < 64) :
    GSM0710_DECODE_ADDRESS (address channel) = channel := by
  have hall : ∀ n < 64, GSM0710_DECODE_ADDRESS (address (UInt8.ofNat n)) = UInt8.ofNat n := by
    decide
  have hchannel := hall channel.toNat h
  rwa [UInt8.ofNat_toNat] at hchannel

theorem address_ne_flag (channel : UInt8) : address channel ≠ GSM0710_FRAME_FLAG := by
  have hall : ∀ n < 64, GSM0710_EA ||| GSM0710_CR ||| UInt8.ofNat n <<< 2 ≠ GSM0710_FRAME_FLAG := by
    decide
  obtain ⟨n, hn, hbits⟩ := exists_bits channel
  rw [address, hbits]
  exact hall n hn

theorem decode_address_lt (b : UInt8) : (GSM0710_DECODE_ADDRESS b).toNat < 64 := by
  have hlt := (b &&& 252).toNat_lt
  rw [GSM0710_DECODE_ADDRESS, UInt8.toNat_shiftRight, Nat.shiftRight_eq_div_pow]
  have hpow : 2 ^ ((2 : UInt8).toNat % 8) = 4 := rfl
  rw [hpow]
  omega

/-! ### Length fields -/

/-- The first byte of a length field, as far as it gives the length. -/
def lowLength (b : UInt8) : ℕ := ((b &&& 254) >>> 1).toNat

def isLastLength (b : UInt8) : Bool := b &&& 1 != 0

theorem lengthField_short {length : ℕ} (h : length ≤ 127) :
    ∃ b, lengthField length = [b] ∧ isLastLength b = true ∧ lowLength b = length := by
  have hall : ∀ n < 128, isLastLength (UInt8.ofNat (1 ||| n <<< 1)) = true ∧
      lowLength (UInt8.ofNat (1 ||| n <<< 1)) = n := by decide
  refine ⟨_, by rw [lengthField, if_neg (by omega)], hall length (by omega)⟩

theorem lengthField_long {length : ℕ} (h : 127 < length) (hmax : length < 2 ^ 15) :
    ∃ b₁ b₂, lengthField length = [b₁, b₂] ∧ isLastLength b₁ = false ∧
      lowLength b₁ + b₂.toNat * 128 = length := by
  refine ⟨_, _, by rw [lengthField, if_pos h], ?_⟩
  have hlow : 0x007F &&& length = length % 128 := by
    rw [Nat.and_comm]
    exact Nat.and_two_pow_sub_one_eq_mod length 7
  have hhigh : (0x7F80 &&& length) >>> 7 = length / 128 := by
    have hand : length / 128 &&& 2 ^ 8 - 1 = length / 128 % 2 ^ 8 :=
      Nat.and_two_pow_sub_one_eq_mod _ 8
    rw [Nat.shiftRight_and_distrib, Nat.shiftRight_eq_div_pow length 7, Nat.and_comm]
    exact hand.trans (Nat.mod_eq_of_lt (by omega))
  have hall : ∀ n < 128, isLastLength (UInt8.ofNat (n <<< 1)) = false ∧
      lowLength (UInt8.ofNat (n <<< 1)) = n := by decide
  rw [hlow, hhigh]
  obtain ⟨hlast, heq⟩ := hall (length % 128) (Nat.mod_lt _ (by omega))
  refine ⟨hlast, ?_⟩
  rw [heq, UInt8.toNat_ofNat']
  omega

end MtkHardware.Gsm0710
