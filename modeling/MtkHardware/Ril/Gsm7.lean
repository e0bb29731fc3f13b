import MtkHardware.Ril.Utf8
import MtkHardware.Util.Checked

/-!
# The GSM Alphabet

A character of the default alphabet is a septet, and one of the extension alphabet is a septet
behind an escape. Septets are packed into bytes from the low bits on, from any bit of the
destination. There are three decoders: of packed septets, of septets that are bytes, and of
eight-bit data.

A buffer is the list of its bytes, and a pointer into it the list of the bytes from it on or its
index. An access outside of it is a fault.
-/

namespace MtkHardware.Ril

def GSM_7BITS_ESCAPE : ℕ := 0x1B

def gsm7bits_to_unicode : List ℕ :=
  [0x40, 0xA3, 0x24, 0xA5, 0xE8, 0xE9, 0xF9, 0xEC, 0xF2, 0xC7, 0x0A, 0xD8, 0xF8, 0x0D, 0xC5, 0xE5,
    0x394, 0x5F, 0x3A6, 0x393, 0x39B, 0x3A9, 0x3A0, 0x3A8, 0x3A3, 0x398, 0x39E, 0, 0xC6, 0xE6, 0xDF,
    0xC9,
    0x20, 0x21, 0x22, 0x23, 0xA4, 0x25, 0x26, 0x27, 0x28, 0x29, 0x2A, 0x2B, 0x2C, 0x2D, 0x2E, 0x2F,
    0x30, 0x31, 0x32, 0x33, 0x34, 0x35, 0x36, 0x37, 0x38, 0x39, 0x3A, 0x3B, 0x3C, 0x3D, 0x3E, 0x3F,
    0xA1, 0x41, 0x42, 0x43, 0x44, 0x45, 0x46, 0x47, 0x48, 0x49, 0x4A, 0x4B, 0x4C, 0x4D, 0x4E, 0x4F,
    0x50, 0x51, 0x52, 0x53, 0x54, 0x55, 0x56, 0x57, 0x58, 0x59, 0x5A, 0xC4, 0xD6, 0x147, 0xDC, 0xA7,
    0xBF, 0x61, 0x62, 0x63, 0x64, 0x65, 0x66, 0x67, 0x68, 0x69, 0x6A, 0x6B, 0x6C, 0x6D, 0x6E, 0x6F,
    0x70, 0x71, 0x72, 0x73, 0x74, 0x75, 0x76, 0x77, 0x78, 0x79, 0x7A, 0xE4, 0xF6, 0xF1, 0xFC, 0xE0]

def gsm7bits_extend_to_unicode : List ℕ :=
  [0, 0, 0, 0, 0, 0, 0, 0, 0, 0, 0x0C, 0, 0, 0, 0, 0,
    0, 0, 0, 0, 0x5E, 0, 0, 0, 0, 0, 0, 0, 0, 0, 0, 0,
    0, 0, 0, 0, 0, 0, 0, 0, 0x7B, 0x7D, 0, 0, 0, 0, 0, 0x5C,
    0, 0, 0, 0, 0, 0, 0, 0, 0, 0, 0, 0, 0x5B, 0x7E, 0x5D, 0,
    0x7C, 0, 0, 0, 0, 0, 0, 0, 0, 0, 0, 0, 0, 0, 0, 0,
    0, 0, 0, 0, 0, 0, 0, 0, 0, 0, 0, 0, 0, 0, 0, 0,
    0, 0, 0, 0, 0, 0x20AC, 0, 0, 0, 0, 0, 0, 0, 0, 0, 0,
    0, 0, 0, 0, 0, 0, 0, 0, 0, 0, 0, 0, 0, 0, 0, 0]

def entry (table : List ℕ) (c : ℕ) : ℕ := table.getD c 0

def unichar_to_gsm7 (unicode : ℕ) : Option ℕ := gsm7bits_to_unicode.findIdx? (· = unicode)

def unichar_to_gsm7_extend (unichar : ℕ) : Option ℕ :=
  gsm7bits_extend_to_unicode.findIdx? (· = unichar)

def unichar_to_gsm7_count (unicode : ℕ) : ℕ :=
  if (unichar_to_gsm7 unicode).isSome then 1
  else if (unichar_to_gsm7_extend unicode).isSome then 2
  else 0

inductive GsmFault
  | src
  | dst
  deriving DecidableEq, Repr

/-! ### Decoders

A decoder returns the bytes that it writes; their number is what it returns in the source. -/

def septet (src : List UInt8) (shift : ℕ) : Except GsmFault ℕ :=
  match src with
  | [] => .error .src
  | b₀ :: rest =>
    let c := (b₀.toNat >>> shift) &&& 0x7F
    if 1 < shift then
      match rest with
      | [] => .error .src
      | b₁ :: _ => .ok ((b₁.toNat <<< (8 - shift) ||| c) &&& 0x7F)
    else .ok c

/-- The loop of `utf8_from_gsm7`. -/
def fromGsm7 : ℕ → List UInt8 → ℕ → Bool → Except GsmFault (List UInt8)
  | 0, _, _, _ => .ok []
  | septet_count + 1, src, shift, escaped => do
      let c ← septet src shift
      let next := fun escaped =>
        if 8 ≤ shift + 7 then fromGsm7 septet_count src.tail (shift + 7 - 8) escaped
        else fromGsm7 septet_count src (shift + 7) escaped
      if escaped then
        return utf8_write (entry gsm7bits_extend_to_unicode c) ++ (← next escaped)
      else if c = GSM_7BITS_ESCAPE then next true
      else return utf8_write (entry gsm7bits_to_unicode c) ++ (← next escaped)

def utf8_from_gsm7 (src : List UInt8) (septet_offset septet_count : ℕ) :
    Except GsmFault (List UInt8) :=
  fromGsm7 septet_count (src.drop (septet_offset >>> 3)) (septet_offset &&& 7) false

/-- The loop of `utf8_from_unpackedgsm7`. -/
def fromUnpackedGsm7 : ℕ → List UInt8 → Bool → Except GsmFault (List UInt8)
  | 0, _, _ => .ok []
  | _ + 1, [], _ => .error .src
  | septet_count + 1, b :: src, escaped => do
      let c := (b &&& 0x7F).toNat
      if escaped then
        return utf8_write (entry gsm7bits_extend_to_unicode c) ++
          (← fromUnpackedGsm7 septet_count src false)
      else if c = GSM_7BITS_ESCAPE then fromUnpackedGsm7 septet_count src true
      else
        return utf8_write (entry gsm7bits_to_unicode c) ++
          (← fromUnpackedGsm7 septet_count src escaped)

def utf8_from_unpackedgsm7 (src : List UInt8) (septet_count : ℕ) : Except GsmFault (List UInt8) :=
  fromUnpackedGsm7 septet_count src false

/-- The loop of `utf8_from_gsm8`. -/
def fromGsm8 : ℕ → List UInt8 → Bool → Except GsmFault (List UInt8)
  | 0, _, _ => .ok []
  | _ + 1, [], _ => .error .src
  | count + 1, b :: src, escaped => do
      let c := b.toNat
      if c = 0xFF then return []
      else if c = GSM_7BITS_ESCAPE then
        -- two escape characters are one space
        if escaped then return utf8_write 0x20 ++ (← fromGsm8 count src false)
        else fromGsm8 count src true
      else if 0x80 ≤ c then return utf8_write 0x20 ++ (← fromGsm8 count src false)
      else if escaped then
        return utf8_write (entry gsm7bits_extend_to_unicode c) ++ (← fromGsm8 count src escaped)
      else return utf8_write (entry gsm7bits_to_unicode c) ++ (← fromGsm8 count src escaped)

def utf8_from_gsm8 (src : List UInt8) (count : ℕ) : Except GsmFault (List UInt8) :=
  fromGsm8 count src false

/-! ### The encoder -/

/-- The characters that a loop over a string comes to; it breaks at a negative one. -/
def charsIn : ℕ → List UInt8 → List ℕ
  | 0, _ => []
  | n + 1, utf8 =>
    match utf8_next utf8 with
    | none => []
    | some (c, rest) => if 2147483648 ≤ c then [] else c :: charsIn n rest

/-- The characters of a string. Each takes a byte at least. -/
def chars (utf8 : List UInt8) : List ℕ := charsIn utf8.length utf8

/-- How many septets a string takes. What cannot be represented is replaced with a space. -/
def utf8_to_gsm7_count (utf8 : List UInt8) : ℕ :=
  ((chars utf8).map fun c => if unichar_to_gsm7_count c = 0 then 1 else unichar_to_gsm7_count c).sum

/-- The destination, with the index of the pointer into it. -/
structure BWriter where
  bytes : List UInt8
  dst : ℕ
  pad : ℕ
  bits : ℕ
  offset : ℕ
  deriving DecidableEq, Repr

namespace BWriter

def put (writer : BWriter) (b : UInt8) : Except GsmFault (List UInt8) :=
  if writer.dst < writer.bytes.length then .ok (writer.bytes.set writer.dst b) else .error .dst

/-- A writer that starts at a bit. The bits in front of it in its byte are kept. -/
def init (bytes : List UInt8) (start : ℕ) : Except GsmFault BWriter :=
  let shift := start &&& 7
  let dst := start >>> 3
  if 0 < shift then
    match bytes[dst]? with
    | none => .error .dst
    | some b => .ok ⟨bytes, dst, b.toNat &&& (0xFF <<< shift ^^^ 0xFFFFFFFF), shift, start⟩
  else .ok ⟨bytes, dst, 0, shift, start⟩

def add7 (writer : BWriter) (value : ℕ) : Except GsmFault BWriter := do
  let pad := writer.pad ||| value <<< writer.bits
  let bits := writer.bits + 7
  if 8 ≤ bits then
    let bytes ← writer.put pad.toUInt8
    return ⟨bytes, writer.dst + 1, pad >>> 8, bits - 8, writer.offset + 7⟩
  else return { writer with pad, bits, offset := writer.offset + 7 }

/-- The destination, and the bit behind the last septet. -/
def done (writer : BWriter) : Except GsmFault (List UInt8 × ℕ) := do
  if 0 < writer.bits then return (← writer.put writer.pad.toUInt8, writer.offset)
  else return (writer.bytes, writer.offset)

def addChar (writer : BWriter) (c : ℕ) : Except GsmFault BWriter :=
  match unichar_to_gsm7 c with
  | some nn => writer.add7 nn
  | none =>
    match unichar_to_gsm7_extend c with
    | some nn => do (← writer.add7 GSM_7BITS_ESCAPE).add7 nn
    | none => writer.add7 0x20

end BWriter

/-- The destination with the string from a bit on, and the bit behind it. -/
def utf8_to_gsm7 (utf8 : List UInt8) (dst : List UInt8) (offset : ℕ) :
    Except GsmFault (List UInt8 × ℕ) := do
  let writer ← BWriter.init dst offset
  (← (chars utf8).foldlM BWriter.addChar writer).done

end MtkHardware.Ril
