import MtkHardware.Meta.UsbRxWatcher
import MtkHardware.Util.Checked

/-!
# The Flow Control of a UART

The bytes `0x11`, `0x13` and `0x77` do not go over a UART as they are: `processMDConfirm` sends a
pair for each of them, through a cache that it writes out when a pair might not fit any more, and
`flowControl` puts the byte in the place of the pair, in the buffer of the call. A call may end
between the two bytes of a pair, and `m_flow_ctrl_flag` says so to the next one.
-/

namespace MtkHardware.Meta

open UsbRxWatcher (getUARTEsc flowBytes)

/-! ### The sender -/

inductive TxFault
  | data
  | cache
  deriving DecidableEq, Repr

/-- The cache of `processMDConfirm`, of a size. -/
structure TxCache (size : ℕ) where
  pCache : Vector UInt8 size
  /-- `pTempDstBuf - pCache`. -/
  dst : ℕ
  dest_index : ℕ

/-- The second byte of the pair that is sent for a byte. -/
def setUARTEsc (ch : UInt8) : Option UInt8 :=
  if ch = 0x11 then some 0x01
  else if ch = 0x13 then some 0x02
  else if ch = SOFT_FLOW_CTRL_BYTE then some 0x03
  else none

namespace TxCache

variable {size : ℕ}

def empty (size : ℕ) : TxCache size := ⟨.replicate size 0, 0, 0⟩

def put (s : TxCache size) (ch : UInt8) : Except TxFault (TxCache size) :=
  match setUARTEsc ch with
  | some esc => do
      let pCache ← writePair .cache s.pCache s.dst SOFT_FLOW_CTRL_BYTE esc
      .ok ⟨pCache, s.dst + 2, s.dest_index + 2⟩
  | none => do
      let pCache ← writeAt .cache s.pCache s.dst ch
      .ok ⟨pCache, s.dst + 1, s.dest_index + 1⟩

def content (s : TxCache size) : List UInt8 := s.pCache.toList.take s.dest_index

end TxCache

variable {size : ℕ}

/-- A round of the loop of `processMDConfirm`: a byte, and the piece that is written to the port
when a pair might not fit any more. -/
def confirmRound : Machine (TxCache size) UInt8 (List UInt8) TxFault := fun s ch => do
  let s ← s.put ch
  if size < s.dest_index + 2 then .ok ({ s with dst := 0, dest_index := 0 }, [s.content])
  else .ok (s, [])

/-- **`processMDConfirm`**: the pieces that are written to the port. -/
def processMDConfirm (ctx : Context) (pdata : List UInt8) (len : UInt16) :
    Except TxFault (List (List UInt8)) :=
  match ctx.getComType with
  | .META_USB_COM =>
    if pdata.length < len.toNat then .error .data else .ok [pdata.take len.toNat]
  | .META_UART_COM =>
    if pdata.length < len.toNat then .error .data
    else do
      let (s, pieces) ← confirmRound.run (.empty FRAME_MAX_LEN) (pdata.take len.toNat)
      if 0 < s.dest_index then .ok (pieces ++ [s.content]) else .ok pieces
  | .META_UNKNOWN_COM => .ok []

def flowEscape (ch : UInt8) : List UInt8 :=
  match setUARTEsc ch with
  | some esc => [SOFT_FLOW_CTRL_BYTE, esc]
  | none => [ch]

/-- What has been written and is in the cache stands for the bytes, and there is room for a pair. -/
structure TxCache.Holds (s : TxCache size) (pieces : List (List UInt8)) (bytes : List UInt8) :
    Prop where
  dst : s.dst = s.dest_index
  room : s.dest_index + 2 ≤ size
  sent : pieces.flatten ++ s.content = bytes.flatMap flowEscape

/-- **A byte** is put in the cache, which has room for it. -/
theorem TxCache.put_spec (s : TxCache size) (ch : UInt8) (hdst : s.dst = s.dest_index)
    (hroom : s.dest_index + 2 ≤ size) :
    ∃ s' : TxCache size, s.put ch = .ok s' ∧ s'.dst = s'.dest_index ∧ s'.dest_index ≤ size ∧
      s'.content = s.content ++ flowEscape ch := by
  rw [put, flowEscape]
  cases setUARTEsc ch with
  | some esc =>
    rcases writePair_spec TxFault.cache s.pCache s.dst SOFT_FLOW_CTRL_BYTE esc with
      ⟨-, pCache, hwrite, htake⟩ | ⟨hfull, -⟩
    · simp only [hwrite]
      refine ⟨⟨pCache, s.dst + 2, s.dest_index + 2⟩, rfl, congrArg (· + 2) hdst, hroom, ?_⟩
      rw [content, content, ← hdst, htake]
    · omega
  | none =>
    have hone : s.dst < size := by omega
    simp only
    rw [writeAt_natCast hone]
    refine ⟨⟨s.pCache.set s.dst ch hone, s.dst + 1, s.dest_index + 1⟩, rfl,
      congrArg (· + 1) hdst, by simp only; omega, ?_⟩
    rw [content, content]
    simp only [← hdst]
    exact take_set_succ hone

/-- **The round** of the loop. -/
theorem TxCache.Holds.round {s : TxCache size} {pieces : List (List UInt8)} {bytes : List UInt8}
    (h : s.Holds pieces bytes) (ch : UInt8) :
    ∃ s' o, confirmRound s ch = .ok (s', o) ∧ s'.Holds (pieces ++ o) (bytes ++ [ch]) := by
  obtain ⟨s', hput, hdst, hfits, hcontent⟩ := s.put_spec ch h.dst h.room
  have hroom := h.room
  have hsent : pieces.flatten ++ s'.content = (bytes ++ [ch]).flatMap flowEscape := by
    rw [hcontent, ← List.append_assoc, h.sent, List.flatMap_append, List.flatMap_singleton]
  rw [confirmRound, hput]
  change ∃ s'' o, (if size < s'.dest_index + 2 then _ else _) = _ ∧ _
  split
  · refine ⟨_, _, rfl, rfl, by simp only; omega, ?_⟩
    rw [List.flatten_append, List.flatten_singleton, ← hsent]
    simp [content]
  · exact ⟨_, _, rfl, hdst, by omega, by rwa [List.append_nil]⟩

/-- **The loop** is not stopped by the bounds of the cache. -/
theorem exists_run_confirmRound (hsize : 2 ≤ size) (bytes : List UInt8) :
    ∃ s pieces, confirmRound.run (.empty size) bytes = .ok (s, pieces) ∧
      s.Holds pieces bytes := by
  have hempty : (TxCache.empty size).Holds [] [] :=
    ⟨rfl, by simpa [TxCache.empty] using hsize, by simp [TxCache.content, TxCache.empty]⟩
  obtain ⟨s, pieces, hrun, hs⟩ := Machine.exists_run_of_invariant
    (I := fun bytes s pieces => TxCache.Holds s pieces bytes) hempty bytes
    fun _ ch _ s _ _ _ hs => hs.round ch
  exact ⟨s, pieces, Machine.runs_iff_run.mp hrun, hs⟩

/-- **The pieces** are the pairs and bytes, and the cache is not overrun. -/
theorem processMDConfirm_spec {ctx : Context} (hcom : ctx.getComType = .META_UART_COM)
    {pdata : List UInt8} {len : UInt16} (hlen : len.toNat ≤ pdata.length) :
    ∃ pieces, processMDConfirm ctx pdata len = .ok pieces ∧
      pieces.flatten = (pdata.take len.toNat).flatMap flowEscape := by
  obtain ⟨s, pieces, hrun, hs⟩ := exists_run_confirmRound
    (show 2 ≤ FRAME_MAX_LEN by decide) (pdata.take len.toNat)
  rw [processMDConfirm, hcom]
  simp only [if_neg (Nat.not_lt.mpr hlen), hrun, bind, Except.bind]
  split
  · refine ⟨_, rfl, ?_⟩
    rw [List.flatten_append, List.flatten_singleton, hs.sent]
  · rename_i hempty
    refine ⟨_, rfl, ?_⟩
    have hcontent : s.content = [] := by
      rw [TxCache.content, Nat.eq_zero_of_not_pos hempty, List.take_zero]
    rw [← hs.sent, hcontent, List.append_nil]

/-! ### The receiver, in place -/

/-- The variables of the loop of `flowControl`. -/
structure FlowCursor where
  pdata : List UInt8
  idx : ℕ
  /-- `pTempBuf - pdata`. -/
  pTempBuf : ℕ
  /-- `pDestBuf - pdata`. -/
  pDestBuf : ℕ
  newLen : ℕ
  m_flow_ctrl_flag : Bool

/-- `*pDestBuf = ch`, and on to the next round, behind the byte at `pTempBuf` or behind a pair. -/
def FlowCursor.put (c : FlowCursor) (ch : UInt8) (taken : ℕ) :
    Except UsbFault (FlowCursor ⊕ List UInt8 × ℕ × Bool) :=
  if c.pDestBuf < c.pdata.length then
    .ok (.inl ⟨c.pdata.set c.pDestBuf ch, c.idx + taken, c.pTempBuf + taken, c.pDestBuf + 1,
      c.newLen + 1, false⟩)
  else .error .input

/-- A round of the loop of `flowControl`; at its end the data, the new length and the flag. -/
def flowRound (len : ℕ) : Loop FlowCursor (List UInt8 × ℕ × Bool) UsbFault := fun c =>
  if c.idx = len then .ok (.inr (c.pdata, c.newLen, c.m_flow_ctrl_flag))
  else
    match c.pdata[c.pTempBuf]? with
    | none => .error .input
    | some ch =>
      if c.idx + 1 = len ∧ ch = SOFT_FLOW_CTRL_BYTE then .ok (.inr (c.pdata, c.newLen, true))
      else if ch = SOFT_FLOW_CTRL_BYTE ∨ c.m_flow_ctrl_flag then
        -- the first byte of the pair has been in the call before, or is this one
        let skip := if c.m_flow_ctrl_flag then 0 else 1
        match c.pdata[c.pTempBuf + skip]? with
        | none => .error .input
        | some next =>
          match getUARTEsc next with
          | none => .ok (.inr (c.pdata, c.newLen, false))
          | some ch => c.put ch (skip + 1)
      else c.put ch 1

/-- `flowControl`, with its loop. -/
def UsbRxWatcher.flowControlInPlace (ctx : Context) (s : UsbRxWatcher) (pdata : List UInt8)
    (len : ℕ) : Except UsbFault (UsbRxWatcher × ℕ × List UInt8) :=
  if ctx.getComType = .META_UART_COM then do
    let (pdata, newLen, flag) ← (flowRound len).run .endless (len + 1)
      ⟨pdata, 0, 0, 0, 0, s.m_flow_ctrl_flag⟩
    .ok ({ s with m_flow_ctrl_flag := flag }, newLen, pdata)
  else .ok (s, len, pdata)

/-- What the loop ends with when it has still to write bytes. -/
def FlowCursor.ending (c : FlowCursor) (r : List UInt8 × Bool) : List UInt8 × ℕ × Bool :=
  (c.pdata.take c.pDestBuf ++ r.1 ++ c.pdata.drop (c.pDestBuf + r.1.length),
    c.pDestBuf + r.1.length, r.2)

/-- Where the loop is: the byte that is written is never behind the byte that is read. -/
structure FlowCursor.At (c : FlowCursor) (len : ℕ) : Prop where
  pTempBuf : c.pTempBuf = c.idx
  newLen : c.newLen = c.pDestBuf
  pDestBuf : c.pDestBuf ≤ c.idx
  idx : c.idx ≤ len
  length : len ≤ c.pdata.length

def FlowCursor.rest (c : FlowCursor) (len : ℕ) : List UInt8 := (c.pdata.take len).drop c.idx

/-- **A byte is written** over one that has been read. -/
theorem FlowCursor.At.put {c : FlowCursor} {len taken : ℕ} (h : c.At len) (ch : UInt8)
    (htaken : 1 ≤ taken) (hle : c.idx + taken ≤ len) :
    ∃ c', c.put ch taken = .ok (.inl c') ∧ c'.At len ∧ c'.idx = c.idx + taken ∧
      c'.m_flow_ctrl_flag = false ∧ c'.rest len = (c.pdata.take len).drop (c.idx + taken) ∧
      ∀ r : List UInt8 × Bool, c'.ending r = c.ending (ch :: r.1, r.2) := by
  have hdest := h.pDestBuf
  have hlength := h.length
  have hwrite : c.pDestBuf < c.pdata.length := by omega
  refine ⟨⟨c.pdata.set c.pDestBuf ch, c.idx + taken, c.pTempBuf + taken, c.pDestBuf + 1,
    c.newLen + 1, false⟩, if_pos hwrite, ⟨by simp only [h.pTempBuf], by simp only [h.newLen],
    by simp only; omega, hle, by simpa using hlength⟩, rfl, rfl, ?_, fun r => ?_⟩
  · rw [FlowCursor.rest, List.take_set, List.drop_set_of_lt (by simp only; omega)]
  · have htake : (c.pdata.set c.pDestBuf ch).take (c.pDestBuf + 1) =
        c.pdata.take c.pDestBuf ++ [ch] := by
      rw [List.take_succ_eq_append_getElem (by simpa using hwrite),
        List.take_set_of_le (Nat.le_refl _)]
      simp
    have hdrop : (c.pdata.set c.pDestBuf ch).drop (c.pDestBuf + 1 + r.1.length) =
        c.pdata.drop (c.pDestBuf + 1 + r.1.length) := List.drop_set_of_lt (by omega)
    simp only [FlowCursor.ending, htake, hdrop, List.length_cons]
    simp [Nat.add_assoc, Nat.add_comm 1]

/-- **The loop in place** writes what `flowBytes` says, over what it has read. -/
theorem run_flowRound {len n : ℕ} {c : FlowCursor} (h : c.At len) (hn : len - c.idx < n) :
    (flowRound len).run .endless n c =
      .ok (c.ending (flowBytes c.m_flow_ctrl_flag (c.rest len))) := by
  induction n generalizing c with
  | zero => exact absurd hn (Nat.not_lt_zero _)
  | succ n ih =>
    have hidx := h.idx
    have hlength := h.length
    -- a round that writes a byte, and the rounds behind it
    have hput : ∀ (ch : UInt8) (taken : ℕ), 1 ≤ taken → c.idx + taken ≤ len →
        flowRound len c = c.put ch taken →
        (flowRound len).run .endless (n + 1) c = .ok (c.ending
          (ch :: (flowBytes false ((c.pdata.take len).drop (c.idx + taken))).1,
            (flowBytes false ((c.pdata.take len).drop (c.idx + taken))).2)) := by
      intro ch taken htaken hle hround
      obtain ⟨c', hc', hat, hidx', hflag, hrest, hending⟩ := h.put ch htaken hle
      rw [Loop.run, hround, hc']
      simp only
      rw [ih hat (by omega), hending, hflag, hrest]
    by_cases hend : c.idx = len
    · have hrest : c.rest len = [] := by
        rw [FlowCursor.rest, hend]
        simp
      have hround : flowRound len c = .ok (.inr (c.pdata, c.newLen, c.m_flow_ctrl_flag)) :=
        if_pos hend
      rw [Loop.run, hround, hrest]
      simp [flowBytes, FlowCursor.ending, h.newLen]
    · have hlt : c.idx < c.pdata.length := by omega
      have htake : c.idx < (c.pdata.take len).length := by
        rw [List.length_take]
        omega
      have hrest : c.rest len = c.pdata[c.idx] :: (c.pdata.take len).drop (c.idx + 1) := by
        rw [FlowCursor.rest, List.drop_eq_getElem_cons htake, List.getElem_take]
      have hlast : (c.pdata.take len).drop (c.idx + 1) = [] ↔ c.idx + 1 = len := by
        rw [List.drop_eq_nil_iff, List.length_take]
        omega
      have hread : c.pdata[c.pTempBuf]? = some c.pdata[c.idx] := by
        rw [h.pTempBuf, List.getElem?_eq_getElem hlt]
      generalize hch : c.pdata[c.idx] = ch at hrest hread
      rw [hrest, flowBytes.eq_def]
      by_cases hbreak : c.idx + 1 = len ∧ ch = SOFT_FLOW_CTRL_BYTE
      · have hround : flowRound len c = .ok (.inr (c.pdata, c.newLen, true)) := by
          rw [flowRound, if_neg hend, hread]
          exact if_pos hbreak
        rw [Loop.run, hround]
        simp only [if_pos (And.intro hbreak.2 (hlast.mpr hbreak.1))]
        simp [FlowCursor.ending, h.newLen]
      · have hgo : ¬ (ch = SOFT_FLOW_CTRL_BYTE ∧ (c.pdata.take len).drop (c.idx + 1) = []) :=
          fun hand => hbreak ⟨hlast.mp hand.2, hand.1⟩
        simp only [if_neg hgo]
        cases hflag : c.m_flow_ctrl_flag with
        | true =>
          -- the first byte of the pair has been in the call before
          have hround : flowRound len c = (match getUARTEsc ch with
              | none => .ok (.inr (c.pdata, c.newLen, false))
              | some ch => c.put ch 1) := by
            rw [flowRound, if_neg hend, hread]
            simp only [if_neg hbreak, hflag, or_true, if_true, Nat.add_zero, hread]
          cases hesc : getUARTEsc ch with
          | none =>
            rw [hesc] at hround
            rw [Loop.run, hround]
            simp [FlowCursor.ending, h.newLen]
          | some e =>
            rw [hesc] at hround
            rw [hput e 1 (Nat.le_refl 1) (by omega) hround]
            rfl
        | false =>
          by_cases hsoft : ch = SOFT_FLOW_CTRL_BYTE
          · -- the other byte of the pair is in this call too
            have hnext : c.idx + 1 < len := by
              have hne : c.idx + 1 ≠ len := fun heq => hbreak ⟨heq, hsoft⟩
              omega
            have hnextLt : c.idx + 1 < (c.pdata.take len).length := by
              rw [List.length_take]
              omega
            have hcons : (c.pdata.take len).drop (c.idx + 1) =
                c.pdata[c.idx + 1] :: (c.pdata.take len).drop (c.idx + 2) := by
              rw [List.drop_eq_getElem_cons hnextLt, List.getElem_take]
            have hreadNext : c.pdata[c.pTempBuf + 1]? = some c.pdata[c.idx + 1] := by
              rw [h.pTempBuf, List.getElem?_eq_getElem (by omega)]
            have hround : flowRound len c = (match getUARTEsc c.pdata[c.idx + 1] with
                | none => .ok (.inr (c.pdata, c.newLen, false))
                | some ch => c.put ch 2) := by
              rw [flowRound, if_neg hend, hread]
              simp only [if_neg hbreak, if_pos (Or.inl hsoft), hflag, Bool.false_eq_true,
                if_false, hreadNext]
            simp only [hcons, if_pos hsoft, Bool.false_eq_true, if_false]
            cases hesc : getUARTEsc c.pdata[c.idx + 1] with
            | none =>
              rw [hesc] at hround
              rw [Loop.run, hround]
              simp [FlowCursor.ending, h.newLen]
            | some e =>
              rw [hesc] at hround
              rw [hput e 2 (by omega) (by omega) hround]
          · have hround : flowRound len c = c.put ch 1 := by
              have hplain : ¬ (ch = SOFT_FLOW_CTRL_BYTE ∨ c.m_flow_ctrl_flag = true) := by
                simp [hsoft, hflag]
              rw [flowRound, if_neg hend, hread]
              simp only [if_neg hbreak, if_neg hplain]
            simp only [if_neg hsoft, Bool.false_eq_true, if_false]
            rw [hput ch 1 (Nat.le_refl 1) (by omega) hround]

/-- **The loop in place** does what `flowControl` says. -/
theorem UsbRxWatcher.flowControlInPlace_eq (ctx : Context) (s : UsbRxWatcher)
    {pdata : List UInt8} {len : ℕ} (hlen : len ≤ pdata.length) :
    s.flowControlInPlace ctx pdata len = s.flowControl ctx pdata len := by
  rw [flowControlInPlace, flowControl]
  split
  · rw [if_neg (Nat.not_lt.mpr hlen)]
    have hat : FlowCursor.At ⟨pdata, 0, 0, 0, 0, s.m_flow_ctrl_flag⟩ len :=
      ⟨rfl, rfl, Nat.le_refl 0, Nat.zero_le _, hlen⟩
    rw [run_flowRound hat (by simp only; omega)]
    simp [FlowCursor.ending, FlowCursor.rest, bind, Except.bind]
  · rfl

/-! ### Pairs over calls -/

/-- What the receiver is to make of bytes, where the flag says whether the byte before them was the
first of a pair; nothing, where a pair stands for no byte. -/
def unpair : Bool → List UInt8 → Option (List UInt8 × Bool)
  | flag, [] => some ([], flag)
  | true, ch :: rest =>
    (getUARTEsc ch).bind fun ch => (unpair false rest).map fun r => (ch :: r.1, r.2)
  | false, ch :: rest =>
    if ch = SOFT_FLOW_CTRL_BYTE then unpair true rest
    else (unpair false rest).map fun r => (ch :: r.1, r.2)

/-- **One call behind the other.** -/
theorem unpair_append (flag : Bool) (bytes bytes' : List UInt8) :
    unpair flag (bytes ++ bytes') = (unpair flag bytes).bind fun r =>
      (unpair r.2 bytes').map fun r' => (r.1 ++ r'.1, r'.2) := by
  induction bytes generalizing flag with
  | nil => simp [unpair]
  | cons ch bytes ih =>
    cases flag with
    | true =>
      rw [List.cons_append, unpair, unpair]
      cases getUARTEsc ch with
      | none => rfl
      | some e =>
        rw [Option.bind_some, Option.bind_some, ih]
        cases unpair false bytes with
        | none => rfl
        | some r =>
          simp only [Option.bind_some, Option.map_some, Option.map_map]
          rfl
    | false =>
      rw [List.cons_append, unpair, unpair]
      split
      · exact ih true
      · rw [ih]
        cases unpair false bytes with
        | none => rfl
        | some r =>
          simp only [Option.bind_some, Option.map_some, Option.map_map]
          rfl

/-- **A call** does with its bytes what it is to do, where every pair stands for a byte. -/
theorem flowBytes_of_unpair {flag : Bool} {bytes : List UInt8} {r : List UInt8 × Bool}
    (h : unpair flag bytes = some r) : flowBytes flag bytes = r := by
  induction hlength : bytes.length using Nat.strong_induction_on generalizing flag bytes r with
  | _ n ih =>
    cases bytes with
    | nil =>
      obtain rfl := Option.some_inj.mp h
      rfl
    | cons ch rest =>
      rw [List.length_cons] at hlength
      rw [UsbRxWatcher.flowBytes.eq_def]
      cases flag with
      | true =>
        obtain ⟨e, hesc, h⟩ := Option.bind_eq_some_iff.mp h
        obtain ⟨r', hrest, rfl⟩ := Option.map_eq_some_iff.mp h
        have hnone : getUARTEsc SOFT_FLOW_CTRL_BYTE = none := by decide
        have hne : ch ≠ SOFT_FLOW_CTRL_BYTE := by
          rintro rfl
          rw [hnone] at hesc
          cases hesc
        simp only [hne, false_and, if_false, if_true, hesc]
        rw [ih rest.length (by omega) hrest rfl]
      | false =>
        rw [unpair] at h
        split at h
        · rename_i hsoft
          cases rest with
          | nil =>
            obtain rfl := Option.some_inj.mp h
            simp [hsoft]
          | cons next rest =>
            rw [List.length_cons] at hlength
            obtain ⟨e, hesc, h⟩ := Option.bind_eq_some_iff.mp h
            obtain ⟨r', hrest, rfl⟩ := Option.map_eq_some_iff.mp h
            simp only [hsoft, true_and, if_true, Bool.false_eq_true, if_false, hesc,
              reduceCtorEq]
            rw [ih rest.length (by omega) hrest rfl]
        · rename_i hne
          obtain ⟨r', hrest, rfl⟩ := Option.map_eq_some_iff.mp h
          simp only [hne, false_and, if_false, Bool.false_eq_true]
          rw [ih rest.length (by omega) hrest rfl]

theorem getUARTEsc_of_set {ch esc : UInt8} (h : setUARTEsc ch = some esc) :
    getUARTEsc esc = some ch := by
  rw [setUARTEsc] at h
  split_ifs at h with h₁ h₂ h₃ <;> obtain rfl := Option.some_inj.mp h
  · rw [h₁]
    rfl
  · rw [h₂]
    rfl
  · rw [h₃]
    rfl

theorem ne_of_setUARTEsc {ch : UInt8} (h : setUARTEsc ch = none) : ch ≠ SOFT_FLOW_CTRL_BYTE := by
  rintro rfl
  exact absurd h (by decide)

/-- **The inverse.** -/
theorem unpair_flowEscape (bytes : List UInt8) :
    unpair false (bytes.flatMap flowEscape) = some (bytes, false) := by
  induction bytes with
  | nil => rfl
  | cons ch bytes ih =>
    have hone : unpair false (flowEscape ch) = some ([ch], false) := by
      rw [flowEscape]
      cases hset : setUARTEsc ch with
      | some esc =>
        simp only
        rw [unpair, if_pos rfl, unpair, getUARTEsc_of_set hset]
        rfl
      | none =>
        simp only
        rw [unpair, if_neg (ne_of_setUARTEsc hset)]
        rfl
    rw [List.flatMap_cons, unpair_append, hone, Option.bind_some, ih]
    rfl

/-! ### Calls -/

/-- The calls for what has been received, with the data that they leave one behind the other. -/
def UsbRxWatcher.receiveCalls (ctx : Context) :
    UsbRxWatcher → List (List UInt8) → Except UsbFault (UsbRxWatcher × List UInt8)
  | s, [] => .ok (s, [])
  | s, chunk :: chunks => do
      let (s, newLen, pdata) ← s.flowControlInPlace ctx chunk chunk.length
      let (s, bytes) ← UsbRxWatcher.receiveCalls ctx s chunks
      .ok (s, pdata.take newLen ++ bytes)

/-- **The calls** do what they are to do, however the bytes are cut. -/
theorem UsbRxWatcher.receiveCalls_of_unpair {ctx : Context}
    (hcom : ctx.getComType = .META_UART_COM) (s : UsbRxWatcher) (chunks : List (List UInt8))
    {r : List UInt8 × Bool} (h : unpair s.m_flow_ctrl_flag chunks.flatten = some r) :
    s.receiveCalls ctx chunks = .ok ({ s with m_flow_ctrl_flag := r.2 }, r.1) := by
  induction chunks generalizing s r with
  | nil =>
    obtain rfl := Option.some_inj.mp h
    rfl
  | cons chunk chunks ih =>
    rw [List.flatten_cons, unpair_append, Option.bind_eq_some_iff] at h
    obtain ⟨r₁, hchunk, h⟩ := h
    obtain ⟨r₂, hrest, rfl⟩ := Option.map_eq_some_iff.mp h
    have hcall : s.flowControl ctx chunk chunk.length =
        .ok ({ s with m_flow_ctrl_flag := r₁.2 }, r₁.1.length,
          r₁.1 ++ chunk.drop r₁.1.length) := by
      rw [flowControl, if_pos hcom, if_neg (lt_irrefl _), List.take_length,
        flowBytes_of_unpair hchunk]
    rw [receiveCalls, flowControlInPlace_eq ctx s (Nat.le_refl _), hcall]
    simp only [bind, Except.bind]
    rw [ih { s with m_flow_ctrl_flag := r₁.2 } hrest]
    simp

/-- **The flow control of a UART**: for every data that are confirmed, the sender does not overrun
its cache; and a receiver which is not within a pair makes the same data of what is sent, in
whatever calls it comes, and is not within a pair behind them. -/
theorem flowControl_processMDConfirm {ctx : Context} (hcom : ctx.getComType = .META_UART_COM)
    {pdata : List UInt8} {len : UInt16} (hlen : len.toNat ≤ pdata.length) (s : UsbRxWatcher)
    (hflag : s.m_flow_ctrl_flag = false) :
    ∃ pieces, processMDConfirm ctx pdata len = .ok pieces ∧
      ∀ chunks : List (List UInt8), chunks.flatten = pieces.flatten →
        s.receiveCalls ctx chunks =
          .ok ({ s with m_flow_ctrl_flag := false }, pdata.take len.toNat) := by
  obtain ⟨pieces, hpieces, hsent⟩ := processMDConfirm_spec hcom hlen
  refine ⟨pieces, hpieces, fun chunks hchunks => ?_⟩
  refine s.receiveCalls_of_unpair hcom chunks (r := (pdata.take len.toNat, false)) ?_
  rw [hflag, hchunks, hsent]
  exact unpair_flowEscape _

def Context.uart : Context :=
  ⟨.META_UART_COM, fun _ => .FT_MODEM_CH_NATIVE_INVALID, fun _ => false, fun _ => false, fun _ => 0⟩

/-- Calls that end within a pair. -/
theorem flowControl_processMDConfirm_cut :
    ∃ pieces, processMDConfirm .uart [0x11, 0x41, 0x77] 3 = .ok pieces ∧
      pieces.flatten = [0x77, 0x01, 0x41, 0x77, 0x03] ∧
      ({} : UsbRxWatcher).receiveCalls .uart [[0x77], [0x01, 0x41, 0x77], [], [0x03]] =
        .ok ({}, [0x11, 0x41, 0x77]) := by
  obtain ⟨pieces, hpieces, hcalls⟩ :=
    @flowControl_processMDConfirm .uart rfl [0x11, 0x41, 0x77] 3 (by decide) {} rfl
  obtain ⟨pieces', hpieces', hsent⟩ :=
    @processMDConfirm_spec .uart rfl [0x11, 0x41, 0x77] 3 (by decide)
  obtain rfl := Except.ok.inj (hpieces.symm.trans hpieces')
  exact ⟨pieces, hpieces, hsent, hcalls _ hsent.symm⟩

end MtkHardware.Meta
