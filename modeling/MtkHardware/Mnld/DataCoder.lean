import Mathlib.Algebra.Ring.Int.Defs
import Mathlib.Algebra.Ring.Nat
import Mathlib.Data.List.TakeWhile
import Mathlib.Tactic.Common
import MtkHardware.Util.Checked

/-!
# The Data Coder

The messages between the positioning daemon and its assistant are datagrams of numbers, strings and
binaries, put one behind another. Reading one moves an offset over what has been received; a string
and a binary announce their length. Nothing is checked there, so a step is stopped where it would
read outside of the receive buffer, write outside of its destination, or move the offset backwards
or past the received bytes.

The numbers are read exactly (`Exact`): a step succeeds exactly where what is put for its result
comes next. A message is read back behind any offset exactly where all of it has been received
(`getMessage_iff`).
-/

namespace MtkHardware.Mnld

/-- What a coder may not do: read outside of the receive buffer, write outside of the destination,
move the offset backwards or past the received bytes. -/
inductive CoderFault
  | read
  | write
  | offset
  deriving DecidableEq, Repr

def MNL_AGPS_MAX_BUFF_SIZE : ℕ := 8 * 1024

structure CString where
  bytes : List UInt8
  no_zero : ∀ c ∈ bytes, c ≠ 0
  deriving DecidableEq

/-- A length with so many bytes, of which a negative one has none. -/
structure Binary where
  len : BitVec 32
  bytes : List UInt8
  length_eq : bytes.length = len.toInt.toNat
  deriving DecidableEq

/-! ### Putting -/

def put_byte (input : UInt8) : List UInt8 := [input]

def put_short (input : BitVec 16) : List UInt8 :=
  put_byte (.ofBitVec (input.extractLsb' 0 8)) ++ put_byte (.ofBitVec (input.extractLsb' 8 8))

def put_int (input : BitVec 32) : List UInt8 :=
  put_short (input.extractLsb' 0 16) ++ put_short (input.extractLsb' 16 16)

def put_long (input : BitVec 64) : List UInt8 :=
  put_int (input.extractLsb' 0 32) ++ put_int (input.extractLsb' 32 32)

/-- A `float` is put as its bits. -/
def put_float (input : BitVec 32) : List UInt8 := put_int input

/-- A `double` is put as its bits. -/
def put_double (input : BitVec 64) : List UInt8 := put_long input

def put_string : Option CString → List UInt8
  | none => put_byte 0
  | some input =>
      put_byte 1 ++ (put_int (.ofNat 32 (input.bytes.length + 1)) ++ (input.bytes ++ [0]))

def put_binary (input : Binary) : List UInt8 := put_int input.len ++ input.bytes

/-! ### Getting -/

abbrev Coder := StateT ℕ (Except CoderFault)

section Get

variable (received : List UInt8)

/-- `*offset += n` -/
def advance (n : ℤ) : Coder Unit := fun offset =>
  if 0 ≤ n ∧ offset + n ≤ received.length then .ok ((), (offset + n).toNat) else .error .offset

/-- The bytes from the offset on; behind what has been received the buffer is zero. -/
def buff (n : ℕ) : Coder (List UInt8) := fun offset =>
  if offset + n ≤ MNL_AGPS_MAX_BUFF_SIZE then
    .ok ((List.range n).map fun i => received.getD (offset + i) 0, offset)
  else .error .read

def get_byte : Coder UInt8 := do
  let ret ← buff received 1
  advance received 1
  return ret.getD 0 0

def get_short : Coder (BitVec 16) := do
  let low ← get_byte received
  let high ← get_byte received
  return high.toBitVec ++ low.toBitVec

def get_int : Coder (BitVec 32) := do
  let low ← get_short received
  let high ← get_short received
  return high ++ low

def get_long : Coder (BitVec 64) := do
  let low ← get_int received
  let high ← get_int received
  return high ++ low

def get_float : Coder (BitVec 32) := get_int received

def get_double : Coder (BitVec 64) := get_long received

def stringAt (p : ℕ) : CString where
  bytes := (received.drop p).takeWhile (· ≠ 0)
  no_zero c hc := by simpa using List.mem_takeWhile_imp hc

/-- The string that is found at the pointer which the source returns. -/
def get_string : Coder (Option CString) := do
  let ret ← get_byte received
  if ret = 0 then return none
  else
    let len ← get_int received
    let p ← get
    advance received len.toInt
    return some (stringAt received p)

def overwrite {n : ℕ} (output : Vector UInt8 n) (bytes : List UInt8) : Vector UInt8 n :=
  Vector.ofFn fun i => bytes.getD i output[i]

def memcpy {n : ℕ} (output : Vector UInt8 n) (bytes : List UInt8) : Coder (Vector UInt8 n) :=
  fun offset =>
    if bytes.length ≤ n then .ok (overwrite output bytes, offset)
    else .error .write

def get_binary {n : ℕ} (output : Vector UInt8 n) : Coder (BitVec 32 × Vector UInt8 n) := do
  let len ← get_int received
  if 0 < len.toInt then
    let bytes ← buff received len.toInt.toNat
    let output ← memcpy output bytes
    advance received len.toInt
    return (len, output)
  else return (len, output)

end Get

/-! ### What is read exactly -/

section Exact

variable {α β γ : Type} {received : List UInt8} {o o' : ℕ} {bytes rest : List UInt8}

theorem drop_of_append (h : received.drop o = bytes ++ rest) :
    received.drop (o + bytes.length) = rest := by
  rw [← List.drop_drop, h, List.drop_left]

theorem run_bind_ok_iff {x : Coder α} {f : α → Coder β} {b : β} :
    (x >>= f).run o = .ok (b, o') ↔ ∃ a o₁, x.run o = .ok (a, o₁) ∧ (f a).run o₁ = .ok (b, o') := by
  rw [StateT.run_bind, bind_ok_iff]
  constructor
  · rintro ⟨⟨a, o₁⟩, h⟩
    exact ⟨a, o₁, h⟩
  · rintro ⟨a, o₁, h⟩
    exact ⟨(a, o₁), h⟩

theorem advance_ok_iff {n : ℤ} {u : Unit} : (advance received n).run o = .ok (u, o') ↔
    0 ≤ n ∧ o + n ≤ received.length ∧ o' = (o + n).toNat := by
  rw [StateT.run, advance]
  split
  · rename_i h
    refine ⟨fun hok => ?_, fun hok => by rw [hok.2.2]⟩
    cases hok
    exact ⟨h.1, h.2, rfl⟩
  · rename_i h
    exact ⟨fun hok => (by cases hok), fun hok => absurd ⟨hok.1, hok.2.1⟩ h⟩

theorem buff_ok_iff {n : ℕ} : (buff received n).run o = .ok (bytes, o') ↔
    o + n ≤ MNL_AGPS_MAX_BUFF_SIZE ∧
      bytes = (List.range n).map (fun i => received.getD (o + i) 0) ∧ o' = o := by
  rw [StateT.run, buff]
  split
  · rename_i h
    refine ⟨fun hok => ?_, fun hok => by rw [hok.2.1, hok.2.2]⟩
    cases hok
    exact ⟨h, rfl, rfl⟩
  · rename_i h
    exact ⟨fun hok => (by cases hok), fun hok => absurd hok.1 h⟩

/-- The step reads what is put for its result, and nothing else. -/
def Exact (received : List UInt8) (x : Coder α) (put : α → List UInt8) : Prop :=
  ∀ o a o', x.run o = .ok (a, o') ↔
    received.drop o = put a ++ received.drop o' ∧ o' = o + (put a).length

theorem exact_byte (h : received.length ≤ MNL_AGPS_MAX_BUFF_SIZE) :
    Exact received (get_byte received) put_byte := by
  intro o a o'
  rw [get_byte, run_bind_ok_iff]
  constructor
  · rintro ⟨ret, o₁, hbuff, hrest⟩
    obtain ⟨-, rfl, rfl⟩ := buff_ok_iff.mp hbuff
    obtain ⟨u, o₂, hadvance, hrest⟩ := run_bind_ok_iff.mp hrest
    obtain ⟨-, hlength, rfl⟩ := advance_ok_iff.mp hadvance
    have hlt : o₁ < received.length := by omega
    cases hrest
    have ho : (o₁ + (1 : ℤ)).toNat = o₁ + 1 := by omega
    refine ⟨?_, ho⟩
    rw [ho, List.drop_eq_getElem_cons hlt]
    simp [put_byte, List.getElem?_eq_getElem hlt]
  · rintro ⟨hdrop, rfl⟩
    have hlt : o < received.length := by
      by_contra hle
      rw [List.drop_eq_nil_of_le (by omega)] at hdrop
      cases hdrop
    rw [List.drop_eq_getElem_cons hlt] at hdrop
    refine ⟨_, o, buff_ok_iff.mpr ⟨by omega, rfl, rfl⟩, run_bind_ok_iff.mpr ⟨(), o + 1,
      advance_ok_iff.mpr ⟨by omega, by omega, by omega⟩, ?_⟩⟩
    have ha : received[o] = a := List.head_eq_of_cons_eq hdrop
    simp [List.getElem?_eq_getElem hlt, ha, put_byte]
    rfl

theorem Exact.pair {x : Coder α} {y : Coder β} {put₁ : α → List UInt8} {put₂ : β → List UInt8}
    (hx : Exact received x put₁) (hy : Exact received y put₂) (join : β → α → γ) {low : γ → α}
    {high : γ → β} (hjoin : ∀ c, join (high c) (low c) = c) (hlow : ∀ b a, low (join b a) = a)
    (hhigh : ∀ b a, high (join b a) = b) :
    Exact received (do let a ← x; let b ← y; return join b a)
      fun c => put₁ (low c) ++ put₂ (high c) := by
  intro o c o'
  rw [run_bind_ok_iff]
  constructor
  · rintro ⟨a, o₁, ha, hrest⟩
    obtain ⟨b, o₂, hb, hrest⟩ := run_bind_ok_iff.mp hrest
    cases hrest
    obtain ⟨hdrop₁, rfl⟩ := (hx _ _ _).mp ha
    obtain ⟨hdrop₂, rfl⟩ := (hy _ _ _).mp hb
    dsimp only
    rw [hlow, hhigh, List.length_append, List.append_assoc, ← hdrop₂]
    exact ⟨hdrop₁, Nat.add_assoc _ _ _⟩
  · rintro ⟨hdrop, rfl⟩
    rw [List.append_assoc] at hdrop
    have hmid := drop_of_append hdrop
    refine ⟨low c, o + (put₁ (low c)).length, (hx _ _ _).mpr ⟨by rw [hmid, hdrop], rfl⟩,
      run_bind_ok_iff.mpr ⟨high c, _, (hy _ _ _).mpr ⟨hmid, ?_⟩, ?_⟩⟩
    · rw [List.length_append, Nat.add_assoc]
    · rw [hjoin]
      rfl

theorem exact_short (h : received.length ≤ MNL_AGPS_MAX_BUFF_SIZE) :
    Exact received (get_short received) put_short :=
  (exact_byte h).pair (exact_byte h) (fun high low => high.toBitVec ++ low.toBitVec)
    (fun _ => BitVec.extractLsb'_append_extractLsb')
    (fun _ _ => congrArg UInt8.ofBitVec BitVec.extractLsb'_append_eq_right)
    fun _ _ => congrArg UInt8.ofBitVec BitVec.extractLsb'_append_eq_left

theorem exact_int (h : received.length ≤ MNL_AGPS_MAX_BUFF_SIZE) :
    Exact received (get_int received) put_int :=
  (exact_short h).pair (exact_short h) _ (fun _ => BitVec.extractLsb'_append_extractLsb')
    (fun _ _ => BitVec.extractLsb'_append_eq_right) fun _ _ => BitVec.extractLsb'_append_eq_left

theorem exact_long (h : received.length ≤ MNL_AGPS_MAX_BUFF_SIZE) :
    Exact received (get_long received) put_long :=
  (exact_int h).pair (exact_int h) _ (fun _ => BitVec.extractLsb'_append_extractLsb')
    (fun _ _ => BitVec.extractLsb'_append_eq_right) fun _ _ => BitVec.extractLsb'_append_eq_left

end Exact

/-! ### Messages -/

inductive Field
  | byte (input : UInt8)
  | short (input : BitVec 16)
  | int (input : BitVec 32)
  | long (input : BitVec 64)
  | float (input : BitVec 32)
  | double (input : BitVec 64)
  | string (input : Option CString)
  | binary (input : Binary)
  deriving DecidableEq

def Field.put : Field → List UInt8
  | .byte input => put_byte input
  | .short input => put_short input
  | .int input => put_int input
  | .long input => put_long input
  | .float input => put_float input
  | .double input => put_double input
  | .string input => put_string input
  | .binary input => put_binary input

def putMessage (fields : List Field) : List UInt8 := fields.flatMap Field.put

/-- What is asked for, a binary together with its destination. -/
inductive FieldType
  | byte
  | short
  | int
  | long
  | float
  | double
  | string
  | binary {n : ℕ} (output : Vector UInt8 n)

/-- The field is of the type, and a destination has room for it. -/
inductive Field.HasType : Field → FieldType → Prop
  | byte (input : UInt8) : HasType (.byte input) .byte
  | short (input : BitVec 16) : HasType (.short input) .short
  | int (input : BitVec 32) : HasType (.int input) .int
  | long (input : BitVec 64) : HasType (.long input) .long
  | float (input : BitVec 32) : HasType (.float input) .float
  | double (input : BitVec 64) : HasType (.double input) .double
  | string (input : Option CString) : HasType (.string input) .string
  | binary {n : ℕ} (input : Binary) (output : Vector UInt8 n) (h : input.bytes.length ≤ n) :
      HasType (.binary input) (.binary output)

/-- The length that `get_binary` returns, with what it announces of the destination. -/
def Binary.ofOutput {n : ℕ} (len : BitVec 32) (output : Vector UInt8 n) : Binary where
  len := len
  bytes := (List.range len.toInt.toNat).map fun i => output.toList.getD i 0
  length_eq := by simp

section Message

variable (received : List UInt8)

def getField : FieldType → Coder Field
  | .byte => do return .byte (← get_byte received)
  | .short => do return .short (← get_short received)
  | .int => do return .int (← get_int received)
  | .long => do return .long (← get_long received)
  | .float => do return .float (← get_float received)
  | .double => do return .double (← get_double received)
  | .string => do return .string (← get_string received)
  | .binary output => do
      let ret ← get_binary received output
      return .binary (.ofOutput ret.1 ret.2)

def getMessage (types : List FieldType) : Coder (List Field) := types.mapM (getField received)

end Message

/-! ### What is read back -/

section Reads

variable {α β : Type} {received : List UInt8} {o n : ℕ} {a : α} {b : β}
  {bytes bytes₁ bytes₂ rest : List UInt8} {x : Coder α} {f : α → Coder β}

/-- Where nothing but the bytes is to come, the step reads them as a value exactly if all of them
have been received. -/
def Reads (received : List UInt8) (x : Coder α) (bytes : List UInt8) (a : α) : Prop :=
  ∀ o rest, received.drop o <+: bytes ++ rest → ∀ r, x.run o = .ok r ↔
    bytes <+: received.drop o ∧ r = (a, o + bytes.length)

theorem reads_pure : Reads received (pure a) [] a := by
  intro o rest _ r
  have hnil : [] <+: received.drop o := List.nil_prefix
  rw [and_iff_right hnil]
  exact ⟨fun h => (Except.ok.inj h).symm, fun h => by rw [h]; rfl⟩

theorem prefix_of_drop (hpre : received.drop o <+: bytes₁ ++ bytes₂)
    (h : bytes₁ <+: received.drop o) : received.drop (o + bytes₁.length) <+: bytes₂ := by
  obtain ⟨l, hl⟩ := h
  rw [drop_of_append hl.symm]
  rw [← hl] at hpre
  exact (List.prefix_append_right_inj bytes₁).mp hpre

/-- **The rule** for steps behind one another. -/
theorem Reads.bind (hx : Reads received x bytes₁ a) (hf : Reads received (f a) bytes₂ b) :
    Reads received (x >>= f) (bytes₁ ++ bytes₂) b := by
  intro o rest hpre r
  rw [List.append_assoc] at hpre
  obtain ⟨b', o'⟩ := r
  rw [run_bind_ok_iff]
  constructor
  · rintro ⟨a', o₁, ha, hb⟩
    obtain ⟨h₁, heq⟩ := (hx o _ hpre _).mp ha
    cases heq
    obtain ⟨h₂, heq⟩ := (hf _ rest (prefix_of_drop hpre h₁) _).mp hb
    obtain ⟨l, hl⟩ := h₁
    rw [drop_of_append hl.symm] at h₂
    refine ⟨?_, by rw [heq, List.length_append, Nat.add_assoc]⟩
    rw [← hl]
    exact (List.prefix_append_right_inj bytes₁).mpr h₂
  · rintro ⟨h, heq⟩
    have h₁ := (List.prefix_append bytes₁ bytes₂).trans h
    obtain ⟨l, hl⟩ := h₁
    refine ⟨a, o + bytes₁.length, (hx o _ hpre _).mpr ⟨⟨l, hl⟩, rfl⟩,
      (hf _ rest (prefix_of_drop hpre ⟨l, hl⟩) _).mpr ⟨?_, ?_⟩⟩
    · rw [drop_of_append hl.symm]
      rw [← hl] at h
      exact (List.prefix_append_right_inj bytes₁).mp h
    · rw [heq, List.length_append, Nat.add_assoc]

theorem Reads.map (hx : Reads received x bytes a) (g : α → β) :
    Reads received (do let r ← x; return g r) bytes (g a) := by
  have h := hx.bind (f := fun r => pure (g r)) reads_pure
  rwa [List.append_nil] at h

theorem Exact.reads {put : α → List UInt8} (hx : Exact received x put)
    (hwidth : ∀ a, (put a).length = n) (a : α) : Reads received x (put a) a := by
  intro o rest hpre r
  obtain ⟨a', o'⟩ := r
  constructor
  · intro h
    obtain ⟨hdrop, hoff⟩ := (hx o a' o').mp h
    have hput : put a' <+: received.drop o := ⟨_, hdrop.symm⟩
    have hsame : put a' = put a :=
      (List.prefix_of_prefix_length_le (hput.trans hpre) (List.prefix_append _ _)
        (by rw [hwidth, hwidth])).eq_of_length (by rw [hwidth, hwidth])
    have ha := (hx o a o').mpr ⟨by rw [← hsame, ← hdrop], by rw [← hsame, hoff]⟩
    rw [h] at ha
    cases ha
    exact ⟨hput, by rw [hoff]⟩
  · rintro ⟨⟨l, hl⟩, heq⟩
    cases heq
    exact (hx o a _).mpr ⟨by rw [drop_of_append hl.symm, hl], rfl⟩

/-- Bytes that nothing but is to come have been received exactly if there is room for them. -/
theorem prefix_drop_iff (hpre : received.drop o <+: bytes ++ rest) :
    bytes <+: received.drop o ↔ bytes.length ≤ received.length - o := by
  rw [← List.length_drop]
  exact ⟨List.IsPrefix.length_le,
    List.prefix_of_prefix_length_le (List.prefix_append bytes rest) hpre⟩

theorem toInt_ofNat {k : ℕ} (h : k < 2147483648) : (BitVec.ofNat 32 k).toInt = k := by
  rw [BitVec.toInt_eq_toNat_of_lt (by rw [BitVec.toNat_ofNat]; omega), BitVec.toNat_ofNat]
  omega

theorem reads_int (h : received.length ≤ MNL_AGPS_MAX_BUFF_SIZE) (input : BitVec 32) :
    Reads received (get_int received) (put_int input) input :=
  (exact_int h).reads (n := 4) (fun _ => rfl) input

theorem reads_string (h : received.length ≤ MNL_AGPS_MAX_BUFF_SIZE) {input : Option CString}
    (hfits : (put_string input).length ≤ MNL_AGPS_MAX_BUFF_SIZE) :
    Reads received (get_string received) (put_string input) input := by
  have hbyte : ∀ c, Reads received (get_byte received) (put_byte c) c :=
    (exact_byte h).reads (n := 1) fun _ => rfl
  cases input with
  | none => exact (hbyte 0).bind reads_pure
  | some input =>
    refine (hbyte 1).bind ((reads_int h _).bind ?_)
    intro o rest hpre r
    obtain ⟨p, o'⟩ := r
    have hlen : (BitVec.ofNat 32 (input.bytes.length + 1)).toInt =
        (input.bytes.length + 1 : ℕ) := by
      refine toInt_ofNat ?_
      simp only [put_string, List.length_append, MNL_AGPS_MAX_BUFF_SIZE] at hfits
      omega
    have hat : input.bytes ++ [0] <+: received.drop o → stringAt received o = input := by
      rintro ⟨l, hl⟩
      obtain ⟨bytes, hzero⟩ := input
      simp only [stringAt, CString.mk.injEq]
      rw [← hl, List.append_assoc, List.takeWhile_append_of_pos (by simpa using hzero)]
      simp
    constructor
    · intro hok
      obtain ⟨p', o₁, hget, hok⟩ := run_bind_ok_iff.mp hok
      cases hget
      obtain ⟨u, o₂, hadvance, hok⟩ := run_bind_ok_iff.mp hok
      cases hok
      obtain ⟨-, hle, rfl⟩ := advance_ok_iff.mp hadvance
      rw [hlen] at hle
      have hall : input.bytes ++ [0] <+: received.drop o := by
        rw [prefix_drop_iff hpre, List.length_append, List.length_singleton]
        omega
      refine ⟨hall, ?_⟩
      rw [hat hall, hlen, List.length_append, List.length_singleton]
      rfl
    · rintro ⟨hall, heq⟩
      cases heq
      have hle := (prefix_drop_iff hpre).mp hall
      rw [List.length_append, List.length_singleton] at hle ⊢
      refine run_bind_ok_iff.mpr ⟨o, o, rfl, run_bind_ok_iff.mpr ⟨(), _,
        advance_ok_iff.mpr ⟨by omega, by omega, rfl⟩, ?_⟩⟩
      rw [hat hall, hlen]
      rfl

theorem ofOutput_overwrite (input : Binary) (output : Vector UInt8 n)
    (hn : input.bytes.length ≤ n) :
    Binary.ofOutput input.len (overwrite output input.bytes) = input := by
  obtain ⟨len, bytes, hlength⟩ := input
  simp only [Binary.ofOutput, overwrite, Binary.mk.injEq, true_and]
  refine List.ext_getElem (by simpa using hlength.symm) fun i hi hi' => ?_
  simp only at hi' hn
  simp [show i < n by omega, hi']

theorem reads_binary (h : received.length ≤ MNL_AGPS_MAX_BUFF_SIZE) (input : Binary)
    (output : Vector UInt8 n) (hn : input.bytes.length ≤ n) :
    Reads received (getField received (.binary output)) (put_binary input) (.binary input) := by
  have hget : Reads received (get_binary received output) (put_binary input)
      (input.len, overwrite output input.bytes) := by
    refine (reads_int h _).bind ?_
    have hlength := input.length_eq
    split_ifs with hpos
    · intro o rest hpre r
      obtain ⟨ret, o'⟩ := r
      have hbuff : input.bytes <+: received.drop o →
          (List.range input.len.toInt.toNat).map (fun i => received.getD (o + i) 0) =
            input.bytes := by
        rintro ⟨l, hl⟩
        refine List.ext_getElem (by simpa using hlength.symm) fun i hi hi' => ?_
        have hat : received[o + i]? = some input.bytes[i] := by
          rw [← List.getElem?_drop, ← hl, List.getElem?_append_left hi',
            List.getElem?_eq_getElem hi']
        simp [hat]
      constructor
      · intro hok
        obtain ⟨bytes, o₁, hread, hok⟩ := run_bind_ok_iff.mp hok
        obtain ⟨-, rfl, rfl⟩ := buff_ok_iff.mp hread
        obtain ⟨output', o₂, hcopy, hok⟩ := run_bind_ok_iff.mp hok
        rw [StateT.run, memcpy, if_pos (by simpa [← hlength] using hn)] at hcopy
        cases hcopy
        obtain ⟨u, o₃, hadvance, hok⟩ := run_bind_ok_iff.mp hok
        cases hok
        obtain ⟨-, hle, rfl⟩ := advance_ok_iff.mp hadvance
        have hall := (prefix_drop_iff hpre).mpr (by omega)
        exact ⟨hall, by rw [hbuff hall, hlength]; congr 1; omega⟩
      · rintro ⟨hall, heq⟩
        cases heq
        have hle := (prefix_drop_iff hpre).mp hall
        have hread : (buff received input.len.toInt.toNat).run o = .ok (input.bytes, o) :=
          buff_ok_iff.mpr ⟨by omega, (hbuff hall).symm, rfl⟩
        have hcopy : (memcpy output input.bytes).run o =
            .ok (overwrite output input.bytes, o) := if_pos hn
        have hadvance : (advance received input.len.toInt).run o =
            .ok ((), o + input.bytes.length) := advance_ok_iff.mpr ⟨by omega, by omega, by omega⟩
        exact run_bind_ok_iff.mpr ⟨_, o, hread, run_bind_ok_iff.mpr ⟨_, o, hcopy,
          run_bind_ok_iff.mpr ⟨(), _, hadvance, rfl⟩⟩⟩
    · have hnil : input.bytes = [] := List.length_eq_zero_iff.mp (by omega)
      have hsame : overwrite output [] = output := by
        ext i hi
        simp [overwrite]
      rw [hnil, hsame]
      exact reads_pure
  have hmap := hget.map fun ret => Field.binary (.ofOutput ret.1 ret.2)
  simp only [ofOutput_overwrite input output hn] at hmap
  exact hmap

theorem reads_field (h : received.length ≤ MNL_AGPS_MAX_BUFF_SIZE) {f : Field} {t : FieldType}
    (ht : f.HasType t) (hfits : f.put.length ≤ MNL_AGPS_MAX_BUFF_SIZE) :
    Reads received (getField received t) f.put f := by
  cases ht with
  | byte input => exact ((exact_byte h).reads (n := 1) (fun _ => rfl) input).map Field.byte
  | short input => exact ((exact_short h).reads (n := 2) (fun _ => rfl) input).map Field.short
  | int input => exact (reads_int h input).map Field.int
  | long input => exact ((exact_long h).reads (n := 8) (fun _ => rfl) input).map Field.long
  | float input => exact (reads_int h input).map Field.float
  | double input => exact ((exact_long h).reads (n := 8) (fun _ => rfl) input).map Field.double
  | string input => exact (reads_string h hfits).map Field.string
  | binary input output hn => exact reads_binary h input output hn

theorem reads_message (h : received.length ≤ MNL_AGPS_MAX_BUFF_SIZE) {fields : List Field}
    {types : List FieldType} (ht : List.Forall₂ Field.HasType fields types)
    (hfits : (putMessage fields).length ≤ MNL_AGPS_MAX_BUFF_SIZE) :
    Reads received (getMessage received types) (putMessage fields) fields := by
  induction ht with
  | nil => exact reads_pure
  | cons hf _ ih =>
    rw [putMessage, List.flatMap_cons, List.length_append] at hfits
    rw [getMessage, List.mapM_cons, putMessage, List.flatMap_cons]
    exact (reads_field h hf (by omega)).bind ((ih (by rw [putMessage]; omega)).map _)

end Reads

/-- **A message is read back** behind any offset exactly where all of it has been received, and the
offset is then behind it: one that is cut at any place makes the offset leave the received
bytes. -/
theorem getMessage_iff {received : List UInt8} (h : received.length ≤ MNL_AGPS_MAX_BUFF_SIZE)
    {fields : List Field} {types : List FieldType}
    (ht : List.Forall₂ Field.HasType fields types)
    (hfits : (putMessage fields).length ≤ MNL_AGPS_MAX_BUFF_SIZE) {offset : ℕ} {rest : List UInt8}
    (hpre : received.drop offset <+: putMessage fields ++ rest) (fields' : List Field)
    (offset' : ℕ) :
    (getMessage received types).run offset = .ok (fields', offset') ↔
      putMessage fields <+: received.drop offset ∧ fields' = fields ∧
        offset' = offset + (putMessage fields).length := by
  rw [reads_message h ht hfits offset rest hpre, Prod.mk.injEq]

theorem getMessage_iff_three :
    let fields : List Field := [.int (-2),
      .string (some ⟨[0x41], List.forall_mem_singleton.mpr (by decide)⟩),
      .binary ⟨2, [0, 7], by decide⟩]
    let types : List FieldType := [.int, .string, .binary (Vector.replicate 3 1)]
    List.Forall₂ Field.HasType fields types ∧
      (getMessage (0 :: putMessage fields ++ [9, 9]) types).run 1 = .ok (fields, 18) := by
  intro fields types
  have ht : List.Forall₂ Field.HasType fields types :=
    .cons (.int _) (.cons (.string _) (.cons (.binary _ _ (by decide)) .nil))
  exact ⟨ht, (getMessage_iff (by decide) ht (by decide) (List.prefix_refl _) fields 18).mpr
    ⟨List.prefix_append _ _, rfl, by decide⟩⟩

end MtkHardware.Mnld
