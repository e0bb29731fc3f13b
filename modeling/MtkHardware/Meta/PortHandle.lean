import MtkHardware.Meta.MetaPub
import MtkHardware.Util.Checked

/-!
# Frames to the PC

`FTMuxPrimitiveData` makes a frame of a confirmation: a header of eight bytes, the local and the
peer data, and the XOR of all of them. The bytes `0xA5` and `0x5A` are escaped on the way into a
buffer of `FRAME_MAX_LEN` bytes. The size is checked before the escapes are counted, so a frame
that is short enough may still be too long for the buffer.
-/

namespace MtkHardware.Meta.PortHandle

/-! ### The function -/

inductive MuxFault
  /-- The data of the confirmation. -/
  | source
  | dest
  deriving DecidableEq, Repr

/-- The loop variables of `FTMuxPrimitiveData`, with a buffer of a size. -/
structure MuxState (size : ℕ) where
  dest : Vector UInt8 size
  /-- `pTempDstBuf - pDestptrBase`. -/
  dst : ℕ
  dest_index : ℕ
  cCheckSum : UInt8

variable {size : ℕ}

def muxStep (s : MuxState size) (b : UInt8) : Except MuxFault (MuxState size) := do
  let cCheckSum := s.cCheckSum ^^^ b
  let dest ← writeAt .dest s.dest s.dst b
  if b = 0xA5 then do
    let dest ← writePair .dest dest s.dst 0x5A 0x01
    .ok ⟨dest, s.dst + 2, s.dest_index + 2, cCheckSum⟩
  else if b = 0x5A then do
    let dest ← writePair .dest dest s.dst 0x5A 0x5A
    .ok ⟨dest, s.dst + 2, s.dest_index + 2, cCheckSum⟩
  else .ok ⟨dest, s.dst + 1, s.dest_index + 1, cCheckSum⟩

/-- The check byte, and what is written to the PC: nothing, when an escaped check byte does not
pass the check of `dest_index` against the size of the buffer. -/
def putCheckSum (s : MuxState size) : Except MuxFault (Option (List UInt8)) :=
  if s.cCheckSum = 0xA5 then
    if size < s.dest_index + 1 then .ok none
    else do
      let dest ← writePair .dest s.dest s.dst 0x5A 0x01
      .ok (some (dest.toList.take (s.dest_index + 2)))
  else if s.cCheckSum = 0x5A then
    if size < s.dest_index + 1 then .ok none
    else do
      let dest ← writePair .dest s.dest s.dst 0x5A 0x5A
      .ok (some (dest.toList.take (s.dest_index + 2)))
  else do
    let dest ← writeAt .dest s.dest s.dst s.cCheckSum
    .ok (some (dest.toList.take (s.dest_index + 1)))

def frameHeader (LocalLen PeerLen : ℕ) : List UInt8 :=
  [0x55, UInt8.ofNat (((LocalLen + PeerLen + 5) &&& 0xFF00) >>> 8),
    UInt8.ofNat ((LocalLen + PeerLen + 5) &&& 0xFF), 0x60,
    UInt8.ofNat (LocalLen &&& 0xFF), UInt8.ofNat ((LocalLen &&& 0xFF00) >>> 8),
    UInt8.ofNat (PeerLen &&& 0xFF), UInt8.ofNat ((PeerLen &&& 0xFF00) >>> 8)]

/-- **`FTMuxPrimitiveData`**: what is written to the PC, if anything is. Whether there is memory is
up to `malloc`. -/
def FTMuxPrimitiveData (malloc : ℕ → Bool) (pMuxBuf : META_RX_DATA) :
    Except MuxFault (Option (List UInt8)) :=
  let cbTxBuffer := pMuxBuf.LocalLen + pMuxBuf.PeerLen + 9
  if FRAME_MAX_LEN < cbTxBuffer then .ok none
  else if !malloc cbTxBuffer then .ok none
  else if !malloc FRAME_MAX_LEN then .ok none
  else if pMuxBuf.pData.length < pMuxBuf.LocalLen + pMuxBuf.PeerLen then .error .source
  else do
    let bytes := frameHeader pMuxBuf.LocalLen pMuxBuf.PeerLen ++
      pMuxBuf.pData.take (pMuxBuf.LocalLen + pMuxBuf.PeerLen)
    let s ← bytes.foldlM muxStep ⟨.replicate FRAME_MAX_LEN 0, 0, 0, 0⟩
    putCheckSum s

/-! ### Escapes -/

def isEscaped (b : UInt8) : Bool := b == 0xA5 || b == 0x5A

def escapeByte (b : UInt8) : List UInt8 :=
  if b = 0xA5 then [0x5A, 0x01] else if b = 0x5A then [0x5A, 0x5A] else [b]

def escape (bytes : List UInt8) : List UInt8 := bytes.flatMap escapeByte

/-- What the PC reads: `0x5A 0x01` as `0xA5`, and `0x5A 0x5A` as `0x5A`. -/
def unescape : List UInt8 → List UInt8
  | [] => []
  | [b] => [b]
  | b₁ :: b₂ :: bytes =>
    if b₁ = 0x5A ∧ b₂ = 0x01 then 0xA5 :: unescape bytes
    else if b₁ = 0x5A ∧ b₂ = 0x5A then 0x5A :: unescape bytes
    else b₁ :: unescape (b₂ :: bytes)

def xorAll (bytes : List UInt8) : UInt8 := bytes.foldl (· ^^^ ·) 0

def frameOf (LocalLen PeerLen : ℕ) (data : List UInt8) : List UInt8 :=
  frameHeader LocalLen PeerLen ++ data ++ [xorAll (frameHeader LocalLen PeerLen ++ data)]

theorem length_escapeByte (b : UInt8) :
    (escapeByte b).length = 1 + if isEscaped b then 1 else 0 := by
  rw [escapeByte, isEscaped]
  by_cases h₁ : b = 0xA5
  · simp [h₁]
  · by_cases h₂ : b = 0x5A
    · simp [h₂]
    · simp [h₁, h₂]

theorem length_escape (bytes : List UInt8) :
    (escape bytes).length = bytes.length + bytes.countP isEscaped := by
  induction bytes with
  | nil => rfl
  | cons b bytes ih =>
    rw [escape, List.flatMap_cons, List.length_append, length_escapeByte, List.length_cons,
      List.countP_cons]
    rw [escape] at ih
    omega

theorem escape_append (bytes bytes' : List UInt8) :
    escape (bytes ++ bytes') = escape bytes ++ escape bytes' := List.flatMap_append

/-- **What the PC reads** is what was escaped. -/
theorem unescape_escape (bytes : List UInt8) : unescape (escape bytes) = bytes := by
  induction bytes with
  | nil => rfl
  | cons b bytes ih =>
    rw [escape, List.flatMap_cons, ← escape, escapeByte]
    split_ifs with h₁ h₂
    · rw [List.cons_append, List.singleton_append, unescape, if_pos ⟨rfl, rfl⟩, ih, h₁]
    · rw [List.cons_append, List.singleton_append, unescape, if_neg (by decide),
        if_pos ⟨rfl, rfl⟩, ih, h₂]
    · rw [List.singleton_append]
      cases hrest : escape bytes with
      | nil =>
        rw [hrest] at ih
        rw [← ih]
        rfl
      | cons b' rest =>
        rw [unescape, if_neg (fun h => h₂ h.1), if_neg (fun h => h₂ h.1), ← hrest, ih]

theorem xorAll_append (bytes : List UInt8) (b : UInt8) :
    xorAll (bytes ++ [b]) = xorAll bytes ^^^ b := by
  rw [xorAll, List.foldl_append]
  rfl

/-! ### The loop -/

/-- The loop **has escaped** what it has read. -/
structure HasEscaped (s : MuxState size) (bytes : List UInt8) : Prop where
  dst : s.dst = (escape bytes).length
  dest_index : s.dest_index = (escape bytes).length
  written : s.dest.toList.take s.dst = escape bytes
  checkSum : s.cCheckSum = xorAll bytes

variable {s : MuxState size} {bytes bytes' : List UInt8} {dest : Vector UInt8 size} {n : ℕ}
  {b b₁ b₂ : UInt8}

/-- **The step**: one more byte has been escaped, or there is no room for it. -/
theorem muxStep_spec (h : HasEscaped s bytes) (b : UInt8) :
    ((escape (bytes ++ [b])).length ≤ size ∧
      ∃ s', muxStep s b = .ok s' ∧ HasEscaped s' (bytes ++ [b])) ∨
    (size < (escape (bytes ++ [b])).length ∧ muxStep s b = .error .dest) := by
  have hescape : escape (bytes ++ [b]) = escape bytes ++ escapeByte b := by
    rw [escape_append]
    simp [escape]
  have hsum : s.cCheckSum ^^^ b = xorAll (bytes ++ [b]) := by
    rw [xorAll_append, h.checkSum]
  have hlength : (escape (bytes ++ [b])).length = s.dst + (escapeByte b).length := by
    rw [hescape, List.length_append, h.dst]
  -- a step that puts a pair in the place of the byte
  have hpair : ∀ b₂ : UInt8, escapeByte b = [0x5A, b₂] →
      muxStep s b = (do
        let dest ← writeAt .dest s.dest s.dst b
        let dest ← writePair .dest dest s.dst 0x5A b₂
        .ok ⟨dest, s.dst + 2, s.dest_index + 2, s.cCheckSum ^^^ b⟩) →
      ((escape (bytes ++ [b])).length ≤ size ∧
        ∃ s', muxStep s b = .ok s' ∧ HasEscaped s' (bytes ++ [b])) ∨
      (size < (escape (bytes ++ [b])).length ∧ muxStep s b = .error .dest) := by
    intro b₂ hbyte hstep
    rw [hbyte] at hescape hlength
    rw [hstep]
    by_cases hroom : s.dst < size
    · rw [writeAt_natCast hroom]
      rcases writePair_spec MuxFault.dest (s.dest.set s.dst b hroom) s.dst 0x5A b₂ with
        ⟨hfit, dest, hput, htake⟩ | ⟨hfull, hput⟩
      · refine .inl ⟨hlength ▸ hfit, ⟨dest, s.dst + 2, s.dest_index + 2, s.cCheckSum ^^^ b⟩, ?_,
          hlength.symm, ?_, ?_, hsum⟩
        · change (writePair _ _ _ _ _ >>= _) = _
          rw [hput]
          rfl
        · rw [hlength, h.dst, h.dest_index]
          rfl
        · change dest.toList.take (s.dst + 2) = _
          rw [htake, take_set_self, h.written, hescape]
      · refine .inr ⟨hlength ▸ hfull, ?_⟩
        change (writePair _ _ _ _ _ >>= _) = _
        rw [hput]
        rfl
    · rw [writeAt_error (by omega)]
      refine .inr ⟨?_, rfl⟩
      rw [hlength, List.length_cons]
      omega
  by_cases h₁ : b = 0xA5
  · exact hpair 0x01 (if_pos h₁) (by rw [muxStep]; simp only [if_pos h₁])
  · by_cases h₂ : b = 0x5A
    · exact hpair 0x5A (by rw [escapeByte, if_neg h₁, if_pos h₂])
        (by rw [muxStep]; simp only [if_neg h₁, if_pos h₂])
    · have hbyte : escapeByte b = [b] := by rw [escapeByte, if_neg h₁, if_neg h₂]
      rw [hbyte] at hescape hlength
      rw [muxStep]
      simp only [if_neg h₁, if_neg h₂]
      by_cases hroom : s.dst < size
      · rw [writeAt_natCast hroom]
        refine .inl ⟨hlength ▸ hroom, ⟨_, s.dst + 1, s.dest_index + 1, s.cCheckSum ^^^ b⟩, rfl,
          hlength.symm, ?_, ?_, hsum⟩
        · change s.dest_index + 1 = _
          rw [hlength, h.dest_index, h.dst]
          rfl
        · change (s.dest.set s.dst b hroom).toList.take (s.dst + 1) = _
          rw [take_set_succ hroom, h.written, hescape]
      · rw [writeAt_error (by omega)]
        refine .inr ⟨?_, rfl⟩
        rw [hlength, List.length_singleton]
        omega

/-- **The loop** escapes all bytes, or runs out of the buffer. -/
theorem foldlM_muxStep (h : HasEscaped s bytes) (bytes' : List UInt8)
    (hfits : (escape bytes).length ≤ size) :
    ((escape (bytes ++ bytes')).length ≤ size ∧
      ∃ s', bytes'.foldlM muxStep s = .ok s' ∧ HasEscaped s' (bytes ++ bytes')) ∨
    (size < (escape (bytes ++ bytes')).length ∧ bytes'.foldlM muxStep s = .error .dest) := by
  induction bytes' generalizing s bytes with
  | nil => exact .inl ⟨by rwa [List.append_nil], s, rfl, by rwa [List.append_nil]⟩
  | cons b bytes' ih =>
    have hcons : bytes ++ b :: bytes' = bytes ++ [b] ++ bytes' := by simp
    rw [List.foldlM_cons, hcons]
    rcases muxStep_spec h b with ⟨hfit, s', hstep, h'⟩ | ⟨hfull, hstep⟩
    · rw [hstep]
      exact ih h' hfit
    · rw [hstep]
      refine .inr ⟨?_, rfl⟩
      rw [escape_append, List.length_append]
      omega

/-- **The end** of the frame: it is written with its check byte, or not written. -/
theorem putCheckSum_spec (h : HasEscaped s bytes) :
    ((escape (bytes ++ [xorAll bytes])).length ≤ size ∧
      putCheckSum s = .ok (some (escape (bytes ++ [xorAll bytes])))) ∨
    (size < (escape (bytes ++ [xorAll bytes])).length ∧
      ∀ sent, putCheckSum s ≠ .ok (some sent)) := by
  have hescape : escape (bytes ++ [xorAll bytes]) = s.dest.toList.take s.dst ++
      escapeByte s.cCheckSum := by
    rw [escape_append, h.written, h.checkSum]
    simp [escape]
  have hlength : (escape (bytes ++ [xorAll bytes])).length =
      s.dst + (escapeByte s.cCheckSum).length := by
    rw [hescape, List.length_append, h.written, h.dst]
  have hindex : s.dest_index = s.dst := h.dest_index.trans h.dst.symm
  -- an escaped check byte
  have hpair : ∀ b₂ : UInt8, escapeByte s.cCheckSum = [0x5A, b₂] →
      putCheckSum s = (if size < s.dest_index + 1 then .ok none
        else writePair .dest s.dest s.dst 0x5A b₂ >>= fun dest =>
          .ok (some (dest.toList.take (s.dest_index + 2)))) →
      ((escape (bytes ++ [xorAll bytes])).length ≤ size ∧
        putCheckSum s = .ok (some (escape (bytes ++ [xorAll bytes])))) ∨
      (size < (escape (bytes ++ [xorAll bytes])).length ∧
        ∀ sent, putCheckSum s ≠ .ok (some sent)) := by
    intro b₂ hbyte hput
    rw [hbyte] at hescape hlength
    rw [hput]
    split
    · rename_i hfull
      refine .inr ⟨?_, fun sent h => by cases h⟩
      rw [hlength, List.length_cons]
      omega
    · rcases writePair_spec MuxFault.dest s.dest s.dst 0x5A b₂ with
        ⟨hfit, dest, hput', htake⟩ | ⟨hfull, hput'⟩
      · refine .inl ⟨hlength ▸ hfit, ?_⟩
        rw [hput', hescape, ← htake, hindex]
        rfl
      · refine .inr ⟨hlength ▸ hfull, fun sent h => ?_⟩
        rw [hput'] at h
        cases h
  by_cases h₁ : s.cCheckSum = 0xA5
  · exact hpair 0x01 (if_pos h₁) (by rw [putCheckSum, if_pos h₁])
  · by_cases h₂ : s.cCheckSum = 0x5A
    · exact hpair 0x5A (by rw [escapeByte, if_neg h₁, if_pos h₂])
        (by rw [putCheckSum, if_neg h₁, if_pos h₂])
    · have hbyte : escapeByte s.cCheckSum = [s.cCheckSum] := by
        rw [escapeByte, if_neg h₁, if_neg h₂]
      rw [hbyte] at hescape hlength
      rw [putCheckSum, if_neg h₁, if_neg h₂]
      by_cases hroom : s.dst < size
      · refine .inl ⟨hlength ▸ hroom, ?_⟩
        rw [writeAt_natCast hroom, hescape, hindex, ← take_set_succ hroom]
        rfl
      · refine .inr ⟨?_, fun sent h => ?_⟩
        · rw [hlength, List.length_singleton]
          omega
        · rw [writeAt_error (by omega)] at h
          cases h

/-! ### The frame -/

/-- A frame **reaches the PC**: no access is out of bounds, and the PC reads the frame. -/
def ReachesPC (x : Except MuxFault (Option (List UInt8))) (frame : List UInt8) : Prop :=
  ∃ sent, x = .ok (some sent) ∧ unescape sent = frame

theorem hasEscaped_nil (size : ℕ) : HasEscaped ⟨.replicate size 0, 0, 0, 0⟩ [] where
  dst := rfl
  dest_index := rfl
  written := rfl
  checkSum := rfl

theorem reachesPC_iff (bytes : List UInt8) :
    ReachesPC (bytes.foldlM muxStep ⟨.replicate size 0, 0, 0, 0⟩ >>= putCheckSum)
      (bytes ++ [xorAll bytes]) ↔
    (escape (bytes ++ [xorAll bytes])).length ≤ size := by
  rcases foldlM_muxStep (hasEscaped_nil size) bytes (Nat.zero_le _) with
    ⟨-, s, hloop, hs⟩ | ⟨hfull, hloop⟩
  · rw [List.nil_append] at hs
    rw [hloop]
    change ReachesPC (putCheckSum s) _ ↔ _
    rcases putCheckSum_spec hs with ⟨hfit, hput⟩ | ⟨hfull, hput⟩
    · exact iff_of_true ⟨_, hput, unescape_escape _⟩ hfit
    · exact iff_of_false (fun ⟨sent, h, _⟩ => hput sent h) (by omega)
  · rw [hloop]
    rw [List.nil_append] at hfull
    refine iff_of_false (fun ⟨sent, h, _⟩ => by cases h) ?_
    rw [escape_append, List.length_append]
    omega

/-- **Frames to the PC**: for every confirmation of a size that passes the check, the PC reads the
header, the data and their XOR, and no write is outside of the buffer, exactly when there is memory
and the frame is not too long with every escaped byte counted twice. -/
theorem FTMuxPrimitiveData_iff (malloc : ℕ → Bool) (pMuxBuf : META_RX_DATA)
    (hsize : pMuxBuf.LocalLen + pMuxBuf.PeerLen + 9 ≤ FRAME_MAX_LEN)
    (hdata : pMuxBuf.LocalLen + pMuxBuf.PeerLen ≤ pMuxBuf.pData.length) :
    ReachesPC (FTMuxPrimitiveData malloc pMuxBuf)
      (frameOf pMuxBuf.LocalLen pMuxBuf.PeerLen
        (pMuxBuf.pData.take (pMuxBuf.LocalLen + pMuxBuf.PeerLen))) ↔
    (malloc (pMuxBuf.LocalLen + pMuxBuf.PeerLen + 9) = true ∧ malloc FRAME_MAX_LEN = true) ∧
      pMuxBuf.LocalLen + pMuxBuf.PeerLen + 9 +
        (frameOf pMuxBuf.LocalLen pMuxBuf.PeerLen
          (pMuxBuf.pData.take (pMuxBuf.LocalLen + pMuxBuf.PeerLen))).countP isEscaped ≤
        FRAME_MAX_LEN := by
  have hlength : (frameOf pMuxBuf.LocalLen pMuxBuf.PeerLen
      (pMuxBuf.pData.take (pMuxBuf.LocalLen + pMuxBuf.PeerLen))).length =
      pMuxBuf.LocalLen + pMuxBuf.PeerLen + 9 := by
    simp only [frameOf, frameHeader, List.length_append, List.length_cons, List.length_nil,
      List.length_take_of_le hdata]
    omega
  rw [← hlength, ← length_escape, hlength, FTMuxPrimitiveData]
  simp only [if_neg (Nat.not_lt.mpr hsize), if_neg (Nat.not_lt.mpr hdata)]
  by_cases h₁ : malloc (pMuxBuf.LocalLen + pMuxBuf.PeerLen + 9) = true
  · by_cases h₂ : malloc FRAME_MAX_LEN = true
    · simp only [h₁, h₂, Bool.not_true, Bool.false_eq_true, if_false, true_and, and_self]
      exact reachesPC_iff _
    · refine iff_of_false ?_ fun h => h₂ h.1.2
      rintro ⟨sent, h, -⟩
      simp [h₁, h₂] at h
  · refine iff_of_false ?_ fun h => h₁ h.1.1
    rintro ⟨sent, h, -⟩
    simp [h₁] at h

/-- One byte that is escaped. -/
theorem FTMuxPrimitiveData_iff_oneByte :
    ReachesPC (FTMuxPrimitiveData (fun _ => true) ⟨.AP_FRAME, [0xA5], 1, 0⟩)
      (frameOf 1 0 [0xA5]) := by
  refine (FTMuxPrimitiveData_iff (fun _ => true) ⟨.AP_FRAME, [0xA5], 1, 0⟩ (by decide)
    (by decide)).mpr ⟨⟨rfl, rfl⟩, ?_⟩
  have hcount := List.countP_le_length (p := isEscaped) (l := frameOf 1 0 [0xA5])
  have hlength : (frameOf 1 0 [0xA5]).length = 10 := rfl
  have hmax : FRAME_MAX_LEN = 65536 := rfl
  change 1 + 0 + 9 + (frameOf 1 0 [0xA5]).countP isEscaped ≤ FRAME_MAX_LEN
  omega

/-- A confirmation of nothing but bytes that are escaped. -/
def escapedData (n : ℕ) : META_RX_DATA := ⟨.AP_FRAME, List.replicate n 0xA5, n, 0⟩

/-- The longest one that passes the check does not reach the PC. -/
theorem not_reachesPC_escapedData :
    (escapedData 65527).LocalLen + (escapedData 65527).PeerLen + 9 ≤ FRAME_MAX_LEN ∧
    ¬ ReachesPC (FTMuxPrimitiveData (fun _ => true) (escapedData 65527))
      (frameOf 65527 0 (escapedData 65527).pData) := by
  have hall : ∀ n, n + 9 ≤ FRAME_MAX_LEN → FRAME_MAX_LEN < n + n →
      ¬ ReachesPC (FTMuxPrimitiveData (fun _ => true) (escapedData n))
        (frameOf n 0 (escapedData n).pData) := by
    intro n hsize hlong
    have htake : (escapedData n).pData.take (n + 0) = (escapedData n).pData :=
      List.take_of_length_le (by simp [escapedData])
    have hbytes : (escape (frameOf n 0 (escapedData n).pData)).length ≥ n + n := by
      have hcount : (escapedData n).pData.countP isEscaped = n := by
        rw [escapedData, List.countP_replicate, if_pos (by decide)]
      have hlength : (escapedData n).pData.length = n := List.length_replicate
      rw [frameOf, List.append_assoc, escape_append, escape_append, List.length_append,
        List.length_append, length_escape (escapedData n).pData]
      omega
    rw [FTMuxPrimitiveData]
    simp only [escapedData] at htake hbytes ⊢
    simp only [Nat.add_zero] at htake
    simp only [Nat.add_zero, if_neg (Nat.not_lt.mpr hsize), Bool.not_true, Bool.false_eq_true,
      if_false, List.length_replicate, lt_irrefl, htake]
    intro h
    have hfit := (reachesPC_iff _).mp h
    rw [frameOf] at hbytes
    omega
  exact ⟨by decide, hall 65527 (by decide) (by decide)⟩

end MtkHardware.Meta.PortHandle
