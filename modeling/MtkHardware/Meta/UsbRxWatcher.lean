import MtkHardware.Meta.MetaPub
import MtkHardware.Util.Rounds
import MtkHardware.Util.Run

/-!
# The Watcher of the Host in META Mode

`UsbRxWatcher::decode` looks for a frame in the bytes that have been received. It skips to a start
byte, reads the length and the type, and hands over to the decoder of the type. The position is
kept twice: `u16Length`, an `unsigned short`, counts the bytes that have been taken, and a pointer
goes through the data. Each loop ends when `u16Length` is equal to the length of the data.

A loop is given by its round. The pointer is the list of the bytes from it on, and a read where
there is none is a fault.

`onReceived` puts what has been kept in front of the bytes of a call, and has the first frame of
these data executed. What is left is received anew behind a valid frame, and kept behind one that is
not valid; data without one are kept whole.
-/

namespace MtkHardware.Meta

def RS232_COMMAND_TYPE_OCTET : UInt8 := 0x63
def RS232_INJECT_PRIMITIVE_OCTET : UInt8 := 0x64
def RS232_INJECT_APPRIMITIVE_OCTET : UInt8 := 0x66
def RS232_INJECT_PRIMITIVE_OCTETMODEM2 : UInt8 := 0xA0
def RS232_INJECT_PRIMITIVE_OCTETMODEM2_END : UInt8 := 0xA7
def RS232_COMMAND_TYPE_MD2_MEMORY_DUMP : UInt8 := 0xC0
def RS232_COMMAND_TYPE_MD2_MEMORY_DUMP_END : UInt8 := 0xC7
def RS232_COMMAND_TYPE_MD_DATA_TUNNEL_START : UInt8 := 0xD0
def RS232_COMMAND_TYPE_MD_DATA_TUNNEL_END : UInt8 := 0xD7

def FrameMaxSize : ℕ := 4096 * 16

/-- The value of an `unsigned int`. -/
def u32 (n : ℕ) : ℕ := n % 4294967296

/-- The states of `m_cTstFrameState`, less `RS232_FRAME_`. -/
inductive FrameState
  | STX
  | LENHI
  | LENLO
  | TYPE
  | MD_DATA
  | AP_INJECT_PIRIMITIVE_HEADER
  | AP_PRIM_LOCAL_PARA_DATA
  | CHECKSUM
  | KEYWORD
  | MD_TUNNELING_DATA
  deriving DecidableEq, Repr

structure PRIM_FRAME where
  /-- The `PRIM_HEADER`: `local_len` and `peer_len`, the low byte first. -/
  inject_prim : Vector UInt8 4 := .replicate 4 0
  received_prig_header_length : ℕ := 0
  received_buf_para_length : ℕ := 0
  /-- How far the pointer is in the header. -/
  header_ptr : ℕ := 0
  buf_ptr : List UInt8 := []

def PRIM_FRAME.local_len (f : PRIM_FRAME) : ℕ :=
  f.inject_prim[0].toNat + 256 * f.inject_prim[1].toNat

def PRIM_FRAME.peer_len (f : PRIM_FRAME) : ℕ :=
  f.inject_prim[2].toNat + 256 * f.inject_prim[3].toNat

structure UsbRxWatcher where
  /-- What is kept, `nRemainLen` bytes. -/
  szRemainBuf : List UInt8 := []
  m_checksum : UInt8 := STX_OCTET
  m_uFrameLength : ℕ := 0
  m_cTstFrameState : FrameState := .STX
  m_cOldTstFrameState : FrameState := .STX
  m_frame_buf_len : ℕ := 0
  m_sRs232Frame : PRIM_FRAME := {}
  m_flow_ctrl_flag : Bool := false
  m_md_index : ℕ := 0
  m_frm_len_byte : ℕ := 2
  m_nStartByteLen : ℕ := 0

inductive UsbFault
  /-- A read past the data. -/
  | input
  /-- A write past the `PRIM_HEADER`. -/
  | header
  /-- A write into the frame buffer past the bytes that the header announces. -/
  | frameBuf
  /-- A write past `szRemainBuf`. -/
  | remain
  /-- A loop that does not end. -/
  | endless
  deriving DecidableEq, Repr

/-- What a decoder returns, with the watcher and the position behind it. -/
structure Parsed where
  frame : Option Frame
  watcher : UsbRxWatcher
  u16Length : ℕ

structure Cursor where
  watcher : UsbRxWatcher
  u16Length : ℕ
  src : List UInt8

namespace UsbRxWatcher

variable (ctx : Context) (s : UsbRxWatcher)

/-- Enter the escape, where the byte is the start of one. -/
def checkEscape (ch : UInt8) : UsbRxWatcher × Bool :=
  if ch = MUX_KEY_WORD ∧ s.m_cTstFrameState ≠ .KEYWORD ∧ s.m_cTstFrameState ≠ .MD_DATA then
    ({ s with m_cOldTstFrameState := s.m_cTstFrameState, m_cTstFrameState := .KEYWORD }, true)
  else (s, false)

/-- Leave the escape, with the byte that it is for, if it is for one. -/
def transferFrame (ch : UInt8) : UsbRxWatcher × Option UInt8 :=
  if s.m_cTstFrameState = .KEYWORD then
    let s := { s with m_cTstFrameState := s.m_cOldTstFrameState }
    if ch = MUX_KEY_WORD then (s, some MUX_KEY_WORD)
    else if ch = 0x01 then (s, some STX_OCTET)
    else (s, none)
  else (s, none)

/-- The byte that an escape is for, or the `MUX_KEY_WORD` itself when it is not the start of one. -/
def escape (u16Length : ℕ) (src : List UInt8) : Except UsbFault (Bool × UInt8 × Cursor) :=
  match src with
  | [] => .error .input
  | next :: rest =>
    match s.transferFrame next with
    | (s, some ch) => .ok (true, ch, ⟨s, u16 (u16Length + 1), rest⟩)
    | (s, none) => .ok (false, MUX_KEY_WORD, ⟨s, u16Length, next :: rest⟩)

/-- The byte that a pair of the flow control stands for. -/
def getUARTEsc (ch : UInt8) : Option UInt8 :=
  if ch = 0x01 then some 0x11
  else if ch = 0x02 then some 0x13
  else if ch = 0x03 then some SOFT_FLOW_CTRL_BYTE
  else none

/-- The loop of `flowControl`: the bytes that are written, and `m_flow_ctrl_flag`. -/
def flowBytes (flag : Bool) : List UInt8 → List UInt8 × Bool
  | [] => ([], flag)
  | ch :: rest =>
    if ch = SOFT_FLOW_CTRL_BYTE ∧ rest = [] then ([], true)
    else if flag then
      match getUARTEsc ch with
      | some ch =>
        let (bytes, flag) := flowBytes false rest
        (ch :: bytes, flag)
      | none => ([], false)
    else if ch = SOFT_FLOW_CTRL_BYTE then
      match rest with
      | [] => ([], true)
      | next :: rest =>
        match getUARTEsc next with
        | some ch =>
          let (bytes, flag) := flowBytes false rest
          (ch :: bytes, flag)
        | none => ([], false)
    else
      let (bytes, flag) := flowBytes false rest
      (ch :: bytes, flag)

def flowControl (pdata : List UInt8) (len : ℕ) :
    Except UsbFault (UsbRxWatcher × ℕ × List UInt8) :=
  if ctx.getComType = .META_UART_COM then
    if pdata.length < len then .error .input
    else
      let (bytes, flag) := flowBytes s.m_flow_ctrl_flag (pdata.take len)
      .ok ({ s with m_flow_ctrl_flag := flag }, bytes.length, bytes ++ pdata.drop bytes.length)
  else .ok (s, len, pdata)

def mdId (frmType : UInt8) : ℕ :=
  if (RS232_INJECT_PRIMITIVE_OCTETMODEM2 ≤ frmType ∧
        frmType ≤ RS232_INJECT_PRIMITIVE_OCTETMODEM2_END) ∨
      (RS232_COMMAND_TYPE_MD2_MEMORY_DUMP ≤ frmType ∧
        frmType ≤ RS232_COMMAND_TYPE_MD2_MEMORY_DUMP_END) ∨
      (RS232_COMMAND_TYPE_MD_DATA_TUNNEL_START ≤ frmType ∧
        frmType ≤ RS232_COMMAND_TYPE_MD_DATA_TUNNEL_END) then s.m_md_index
  else 0

def sendMdTask (pdata : List UInt8) (len : ℕ) (frmType : UInt8) : Frame :=
  if ctx.getModem (s.mdId frmType) then
    .valid ⟨.MD_FRAME, pdata, u16 len, 0⟩ (.modem (s.mdId frmType))
  else .invalid

/-- A field of the `FT_H` in the frame buffer. -/
def ftField (i : ℕ) : ℕ :=
  let byte i := s.m_sRs232Frame.buf_ptr.getD i
    (ctx.behind (i - s.m_sRs232Frame.buf_ptr.length))
  (byte i).toNat + 256 * (byte (i + 1)).toNat

def sendFtTask : Frame :=
  let token := s.ftField ctx 0
  let id := s.ftField ctx 2
  if ctx.getModule id then
    .valid ⟨.AP_FRAME, s.m_sRs232Frame.buf_ptr, s.m_sRs232Frame.local_len,
      s.m_sRs232Frame.peer_len⟩ (.module id token)
  else .invalid

/-! ### `decodeMDFrame` -/

/-- A position in the frame of a modem; `newLen` counts the escapes. -/
structure MdCursor where
  newLen : ℕ
  u16Length : ℕ
  local_ptr : List UInt8

/-- Take the byte behind an escape; there is none where the data ends. -/
def MdCursor.next (len : ℕ) (escapes : List UInt8) (c : MdCursor) :
    Except UsbFault (Option (UInt8 × MdCursor)) :=
  if c.u16Length = len then .ok none
  else
    match c.local_ptr with
    | [] => .error .input
    | ch :: rest =>
      .ok (some (ch,
        ⟨if ch ∈ escapes then c.newLen + 1 else c.newLen, u16 (c.u16Length + 1), rest⟩))

def mdFrame (pdata : List UInt8) (frmType : UInt8) (u16Length : ℕ) : Except UsbFault Parsed := do
  let (s, len, pdata) ← s.flowControl ctx pdata u16Length
  return ⟨some (s.sendMdTask ctx (pdata.drop s.m_nStartByteLen)
    (u32 (len + 4294967296 - s.m_nStartByteLen)) frmType), s, u16Length⟩

/-- What is done with a byte of a frame behind its escapes. -/
def mdByte (pdata : List UInt8) (frmType : UInt8) (ch : UInt8) (c : MdCursor) :
    Except UsbFault (MdCursor ⊕ Parsed) := do
  if ch = STX_OCTET then return .inr (← s.mdFrame ctx pdata frmType (u16 (c.u16Length + 65535)))
  else if c.u16Length = u32 (c.newLen + 3 + s.m_frm_len_byte + s.m_nStartByteLen) then
    return .inr (← s.mdFrame ctx pdata frmType c.u16Length)
  else return .inl c

/-- The byte behind `SOFT_FLOW_CTRL_BYTE`. -/
def mdFlow (pdata : List UInt8) (frmType : UInt8) (ch : UInt8) (c : MdCursor) :
    Except UsbFault (MdCursor ⊕ Parsed) := do
  if ctx.getComType = .META_UART_COM ∧ ch = SOFT_FLOW_CTRL_BYTE then
    match ← c.next pdata.length [0x01, 0x02, 0x03] with
    | none => return .inr ⟨none, s, c.u16Length⟩
    | some (ch, c) => s.mdByte ctx pdata frmType ch c
  else s.mdByte ctx pdata frmType ch c

/-- A round of the loop of `decodeMDFrame`. -/
def mdRound (pdata : List UInt8) (frmType : UInt8) : Loop MdCursor Parsed UsbFault := fun c =>
  if c.u16Length = pdata.length then .ok (.inr ⟨none, s, c.u16Length⟩)
  else
    match c.local_ptr with
    | [] => .error .input
    | ch :: rest =>
      let c := { c with u16Length := u16 (c.u16Length + 1), local_ptr := rest }
      if ch = MUX_KEY_WORD then do
        match ← c.next pdata.length [MUX_KEY_WORD, 0x01] with
        | none => return .inr ⟨none, s, c.u16Length⟩
        | some (ch, c) => s.mdFlow ctx pdata frmType ch c
      else s.mdFlow ctx pdata frmType ch c

def decodeMDFrame (pdata : List UInt8) (frmType : UInt8) (u16Length : ℕ) :
    Except UsbFault Parsed :=
  (s.mdRound ctx pdata frmType).run .endless (pdata.length + 1)
    ⟨s.m_uFrameLength, u16Length, pdata.drop u16Length⟩

/-! ### `decodeAPFrame` -/

def reallocFrameBuf (len : ℕ) : UsbRxWatcher :=
  { s with
    m_sRs232Frame := { s.m_sRs232Frame with buf_ptr := .replicate len 0 }
    m_frame_buf_len := u16 len }

def apHeader (ch : UInt8) : Except UsbFault UsbRxWatcher := do
  let frame := s.m_sRs232Frame
  let inject_prim ← writeAt .header frame.inject_prim frame.header_ptr ch
  let frame := { frame with
    inject_prim, header_ptr := frame.header_ptr + 1
    received_prig_header_length := u16 (frame.received_prig_header_length + 1) }
  let s := { s with m_sRs232Frame := frame }
  if frame.received_prig_header_length = 4 ∧ frame.local_len ≠ 0 then
    return { s with m_cTstFrameState := .AP_PRIM_LOCAL_PARA_DATA }.reallocFrameBuf
      (frame.local_len + frame.peer_len + 1)
  else return s

def apPara (ch : UInt8) : Except UsbFault UsbRxWatcher :=
  let frame := s.m_sRs232Frame
  if frame.buf_ptr ≠ [] ∧ frame.local_len + frame.peer_len ≤ frame.received_buf_para_length then
    .error .frameBuf
  else
    let frame := { frame with
      buf_ptr := frame.buf_ptr.set frame.received_buf_para_length ch
      received_buf_para_length := u16 (frame.received_buf_para_length + 1) }
    if frame.local_len + frame.peer_len = frame.received_buf_para_length then
      .ok { s with m_sRs232Frame := frame, m_cTstFrameState := .CHECKSUM }
    else .ok { s with m_sRs232Frame := frame }

/-- What is done with a byte of a frame behind its escape. -/
def apByte (ch : UInt8) (c : Cursor) : Except UsbFault (Cursor ⊕ Parsed) := do
  let s := c.watcher
  match s.m_cTstFrameState with
  | .AP_INJECT_PIRIMITIVE_HEADER =>
    let s ← s.apHeader ch
    return .inl { c with watcher := { s with m_checksum := s.m_checksum ^^^ ch } }
  | .AP_PRIM_LOCAL_PARA_DATA =>
    let s ← s.apPara ch
    return .inl { c with watcher := { s with m_checksum := s.m_checksum ^^^ ch } }
  | .CHECKSUM =>
    let s := { s with m_cTstFrameState := .STX }
    if s.m_checksum ≠ ch then return .inr ⟨some .invalid, s, c.u16Length⟩
    else
      let s := { s with
        m_sRs232Frame := { s.m_sRs232Frame with received_buf_para_length := 0 }
        m_checksum := STX_OCTET }
      return .inr ⟨some (s.sendFtTask ctx), s, c.u16Length⟩
  | _ => return .inl { c with watcher := { s with m_checksum := s.m_checksum ^^^ ch } }

/-- A round of the loop of `decodeAPFrame`. -/
def apRound (input_len : ℕ) : Loop Cursor Parsed UsbFault := fun c =>
  if c.u16Length = input_len then .ok (.inr ⟨none, c.watcher, c.u16Length⟩)
  else
    match c.src with
    | [] => .error .input
    | ch :: rest =>
      let u16Length := u16 (c.u16Length + 1)
      if ch = STX_OCTET then .ok (.inr ⟨none, c.watcher, u16Length⟩)
      else
        match c.watcher.checkEscape ch with
        | (s, false) => apByte ctx ch ⟨s, u16Length, rest⟩
        | (s, true) =>
          if u16Length = input_len then .ok (.inr ⟨none, s, u16Length⟩)
          else do
            let (_, ch, c) ← s.escape u16Length rest
            apByte ctx ch c

def decodeAPFrame (input_len : ℕ) (c : Cursor) : Except UsbFault Parsed :=
  (apRound ctx input_len).run .endless (c.src.length + 1) c

/-! ### `decodeLTE_C2KFrame` -/

structure LteCursor where
  watcher : UsbRxWatcher
  data_len : ℕ
  newlen : ℕ
  u16Length : ℕ
  local_ptr : List UInt8

/-- The checksum, which may be escaped; there is none when its escape is not one. -/
def lteChecksum (input_len : ℕ) (ch : UInt8) (c : LteCursor) :
    Except UsbFault (Option UInt8 × LteCursor) :=
  if c.data_len + 3 + c.watcher.m_frm_len_byte ≤ input_len then
    if ctx.getComType = .META_UART_COM ∧ ch = SOFT_FLOW_CTRL_BYTE then
      match c.local_ptr with
      | [] => .error .input
      | ch :: rest =>
        .ok (getUARTEsc ch, { c with u16Length := u16 (c.u16Length + 1), local_ptr := rest })
    else if ch = MUX_KEY_WORD then
      match c.local_ptr with
      | [] => .error .input
      | ch :: rest =>
        .ok (if ch = 0x01 then some STX_OCTET
          else if ch = MUX_KEY_WORD then some MUX_KEY_WORD else none,
          { c with u16Length := u16 (c.u16Length + 1), local_ptr := rest })
    else .ok (some ch, c)
  else .ok (some ch, c)

def lteFrame (src : List UInt8) (frmType : UInt8) (c : LteCursor) : Except UsbFault Parsed := do
  let (s, len, src) ← c.watcher.flowControl ctx src c.newlen
  return ⟨some (s.sendMdTask ctx src len frmType), s, c.u16Length⟩

def lteEnd (input_len : ℕ) (src : List UInt8) (frmType : UInt8) (ch : UInt8) (c : LteCursor) :
    Except UsbFault Parsed := do
  if ctx.getMDChType c.watcher.m_md_index = .FT_MODEM_CH_TUNNELING then
    let c := { c with watcher := { c.watcher with m_cTstFrameState := .STX } }
    match ← lteChecksum ctx input_len ch c with
    | (none, c) => return ⟨some .invalid, c.watcher, c.u16Length⟩
    | (some ch, c) =>
      if c.watcher.m_checksum ≠ ch then return ⟨some .invalid, c.watcher, c.u16Length⟩
      else
        lteFrame ctx src frmType
          { c with watcher := { c.watcher with m_checksum := STX_OCTET } }
  else lteFrame ctx src frmType c

/-- What is done with a byte of a frame behind its escape. -/
def lteByte (input_len : ℕ) (src : List UInt8) (frmType : UInt8) (ch : UInt8) (c : LteCursor) :
    Except UsbFault (LteCursor ⊕ Parsed) := do
  if c.data_len = c.newlen + 1 then return .inr (← lteEnd ctx input_len src frmType ch c)
  else
    return .inl { c with
      watcher := { c.watcher with m_checksum := c.watcher.m_checksum ^^^ ch } }

/-- A round of the loop of `decodeLTE_C2KFrame`. -/
def lteRound (input_len : ℕ) (src : List UInt8) (frmType : UInt8) :
    Loop LteCursor Parsed UsbFault := fun c =>
  if c.u16Length = input_len then .ok (.inr ⟨none, c.watcher, c.u16Length⟩)
  else
    match c.local_ptr with
    | [] => .error .input
    | ch :: rest =>
      let c := { c with
        data_len := c.data_len + 1, u16Length := u16 (c.u16Length + 1), local_ptr := rest }
      if ctx.getComType = .META_UART_COM ∧ c.data_len ≠ c.newlen + 1 ∧
          ch = SOFT_FLOW_CTRL_BYTE then
        if c.u16Length = input_len then .ok (.inr ⟨none, c.watcher, c.u16Length⟩)
        else
          match c.local_ptr with
          | [] => .error .input
          | next :: rest =>
            let c := { c with
              data_len := c.data_len + 1, u16Length := u16 (c.u16Length + 1),
              local_ptr := rest }
            match getUARTEsc next with
            | none => .ok (.inr ⟨none, c.watcher, c.u16Length⟩)
            | some ch =>
              lteByte ctx input_len src frmType ch { c with newlen := u16 (c.newlen + 1) }
      else lteByte ctx input_len src frmType ch c

def decodeLTE_C2KFrame (input_len : ℕ) (frmType : UInt8) (c : Cursor) : Except UsbFault Parsed :=
  (lteRound ctx input_len c.src frmType).run .endless (c.src.length + 1)
    ⟨c.watcher, 0, u16 c.watcher.m_uFrameLength, c.u16Length, c.src⟩

/-! ### `decode` -/

inductive Decoder
  | decodeMDFrame
  | decodeAPFrame
  | decodeLTE_C2KFrame
  | none
  deriving DecidableEq, Repr

/-- The decoder of a type, and `m_md_index`. -/
def decoder (ch : UInt8) : Decoder × ℕ :=
  if ch = RS232_INJECT_PRIMITIVE_OCTET ∨ ch = RS232_COMMAND_TYPE_OCTET then
    (.decodeMDFrame, s.m_md_index)
  else if RS232_INJECT_PRIMITIVE_OCTETMODEM2 ≤ ch ∧
      ch ≤ RS232_INJECT_PRIMITIVE_OCTETMODEM2_END then
    (.decodeMDFrame, ch.toNat - RS232_INJECT_PRIMITIVE_OCTETMODEM2.toNat + 1)
  else if RS232_COMMAND_TYPE_MD2_MEMORY_DUMP ≤ ch ∧
      ch ≤ RS232_COMMAND_TYPE_MD2_MEMORY_DUMP_END then
    (.decodeMDFrame, ch.toNat - RS232_COMMAND_TYPE_MD2_MEMORY_DUMP.toNat + 1)
  else if ch = RS232_INJECT_APPRIMITIVE_OCTET then (.decodeAPFrame, s.m_md_index)
  else if RS232_COMMAND_TYPE_MD_DATA_TUNNEL_START ≤ ch ∧
      ch ≤ RS232_COMMAND_TYPE_MD_DATA_TUNNEL_END then
    (.decodeLTE_C2KFrame, ch.toNat - RS232_COMMAND_TYPE_MD_DATA_TUNNEL_START.toNat)
  else (.none, s.m_md_index)

def startAP : UsbRxWatcher :=
  { s with
    m_cTstFrameState := .AP_INJECT_PIRIMITIVE_HEADER
    m_sRs232Frame := { s.m_sRs232Frame with
      received_prig_header_length := 0
      received_buf_para_length := 0
      inject_prim := .replicate 4 0
      header_ptr := 0 } }

/-- Hand over to the decoder of the type; the position is behind the byte of the type. -/
def dispatchFrame (buf : List UInt8) (ch : UInt8) (c : Cursor) : Except UsbFault Parsed :=
  let s := { c.watcher with m_md_index := (c.watcher.decoder ch).2 }
  match (c.watcher.decoder ch).1 with
  | .decodeMDFrame => { s with m_cTstFrameState := .MD_DATA }.decodeMDFrame ctx buf ch c.u16Length
  | .decodeAPFrame => decodeAPFrame ctx buf.length { c with watcher := s.startAP }
  | .decodeLTE_C2KFrame =>
    decodeLTE_C2KFrame ctx buf.length ch
      { c with watcher := { s with m_cTstFrameState := .MD_TUNNELING_DATA } }
  | .none => .ok ⟨none, { s with m_cTstFrameState := .STX }, c.u16Length⟩

/-- How the loop of `decode` ends: with its own result, or with the byte of the type. -/
inductive Header
  | parsed (p : Parsed)
  | typed (ch : UInt8) (c : Cursor)

def start (u16Length : ℕ) : UsbRxWatcher :=
  { s with
    m_cTstFrameState := .LENHI
    m_uFrameLength := 0
    m_frm_len_byte := 2
    m_checksum := STX_OCTET
    m_nStartByteLen := u32 (u16Length + 4294967295) }

/-- The `switch` on the state; the position is behind the byte. -/
def headerByte (ch : UInt8) (c : Cursor) : Cursor ⊕ Header :=
  let s := { c.watcher with m_checksum := c.watcher.m_checksum ^^^ ch }
  match s.m_cTstFrameState with
  | .LENHI =>
    .inl { c with
      watcher := { s with m_uFrameLength := ch.toNat * 256, m_cTstFrameState := .LENLO } }
  | .LENLO =>
    let m_uFrameLength := u16 (s.m_uFrameLength + ch.toNat)
    if FRAME_MAX_LEN < m_uFrameLength + 5 then
      .inr (.parsed
        ⟨none, { c.watcher with m_uFrameLength, m_cTstFrameState := .TYPE }, c.u16Length⟩)
    else .inl { c with watcher := { s with m_uFrameLength, m_cTstFrameState := .TYPE } }
  | .TYPE => .inr (.typed ch { c with watcher := s })
  | _ => .inl { c with watcher := s }

def countEscape (escaped : Bool) : UsbRxWatcher :=
  if escaped ∧ (s.m_cTstFrameState = .LENHI ∨ s.m_cTstFrameState = .LENLO) then
    { s with m_frm_len_byte := (s.m_frm_len_byte + 1) % 256 }
  else s

/-- A round of the loop of `decode`. -/
def decodeRound (input_len : ℕ) : Loop Cursor Header UsbFault := fun c =>
  if c.u16Length = input_len then .ok (.inr (.parsed ⟨none, c.watcher, c.u16Length⟩))
  else
    match c.src with
    | [] => .error .input
    | ch :: rest =>
      let u16Length := u16 (c.u16Length + 1)
      if ch = STX_OCTET then .ok (.inl ⟨c.watcher.start u16Length, u16Length, rest⟩)
      else if c.watcher.m_cTstFrameState = .STX then .ok (.inl ⟨c.watcher, u16Length, rest⟩)
      else
        match c.watcher.checkEscape ch with
        | (s, false) => .ok (headerByte ch ⟨s, u16Length, rest⟩)
        | (s, true) => do
            let (escaped, ch, c) ← s.escape u16Length rest
            return headerByte ch { c with watcher := c.watcher.countEscape escaped }

/-- The frame in the data, with the position behind it. -/
def decode (buf : List UInt8) : Except UsbFault Parsed := do
  match ← (decodeRound buf.length).run .endless (buf.length + 1) ⟨s, 0, buf⟩ with
  | .parsed p => return p
  | .typed ch c => dispatchFrame ctx buf ch c

/-! ### `onReceived` -/

/-- Keep the bytes in `szRemainBuf`. -/
def keep (bytes : List UInt8) : Except UsbFault UsbRxWatcher :=
  if FrameMaxSize < bytes.length then .error .remain
  else .ok { s with szRemainBuf := bytes }

/-- A call of `onReceived`, for so many calls within it: the watcher behind it, and the valid frames
that have been executed. -/
def onReceivedIn : ℕ → UsbRxWatcher → List UInt8 → Except UsbFault (UsbRxWatcher × List Frame)
  | 0, _, _ => .error .endless
  | n + 1, s, buf => do
      let data := s.szRemainBuf ++ buf
      if s.szRemainBuf ≠ [] ∧ FrameMaxSize < data.length then throw .remain
      let p ← s.decode ctx data
      match p.frame with
      | some .invalid =>
        if data.length < p.u16Length then return (p.watcher, [])
        else return (← p.watcher.keep (data.drop p.u16Length), [])
      | some frame =>
        if p.u16Length < data.length then
          let left := data.drop p.u16Length
          let _ ← p.watcher.keep left
          let (s, frames) ← onReceivedIn n { p.watcher with szRemainBuf := [] } left
          return (s, frame :: frames)
        else if data.length = p.u16Length then
          return ({ p.watcher with szRemainBuf := [] }, [frame])
        else return (p.watcher, [frame])
      | none =>
        if data.length = p.u16Length then return (← p.watcher.keep data, [])
        else if p.u16Length = 0 then throw .input
        else
          onReceivedIn n { p.watcher with szRemainBuf := [] } (data.drop (p.u16Length - 1))

/-- A call of `onReceived`. Within it there is at most one more call for each byte that is taken and
for each state that a byte may be read anew in. -/
def onReceived (buf : List UInt8) : Except UsbFault (UsbRxWatcher × List Frame) :=
  onReceivedIn ctx (4 * (s.szRemainBuf.length + buf.length) + 4) s buf

end UsbRxWatcher

/-- The watcher of the host, a step for each call of `onReceived`; it emits the frames that are
executed. -/
def usb (ctx : Context) : Machine UsbRxWatcher (List UInt8) Frame UsbFault :=
  fun s buf => s.onReceived ctx buf

end MtkHardware.Meta
