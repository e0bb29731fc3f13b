import MtkHardware.Gsm0710.Frame
import MtkHardware.Util.Checked

/-!
# The Control Channel

A frame on channel 0 carries a command of the modem: a type field and a length field, both of one
or more bytes of which the last has the `EA` bit, and the value. `handle_command` answers a command
that it knows with the frame itself, without the `C/R` bit, and any other command with an `NSC`
response that names its type.

The length of the type field is taken without asking whether the field ends in the frame, and is
cut to seven bits; and the channel of a modem status command is looked up without asking whether
there is one. Those are the commands that are not answered as they should be.
-/

namespace MtkHardware.Gsm0710

/-! ### Constants -/

def GSM0710_CONTROL_PN : UInt8 := 0x80 ||| GSM0710_EA
def GSM0710_CONTROL_CLD : UInt8 := 0xC0 ||| GSM0710_EA
def GSM0710_CONTROL_PSC : UInt8 := 0x40 ||| GSM0710_EA
def GSM0710_CONTROL_TEST : UInt8 := 0x20 ||| GSM0710_EA
def GSM0710_CONTROL_NSC : UInt8 := 0x10 ||| GSM0710_EA
def GSM0710_SIGNAL_FC : UInt8 := 0x02

/-! ### State -/

/-- A channel, as far as the flow control of its sending side is concerned. -/
structure TxChannel where
  opened : Bool
  tx_fc_off : Bool
  deriving DecidableEq, Repr

structure ControlState where
  /-- `serial.state` is `MUX_STATE_PEER_CLOSING`. -/
  peerClosing : Bool
  channellist : List TxChannel
  deriving DecidableEq, Repr

inductive ControlEvent
  /-- `rx_thread_write_frame`. -/
  | written (channel : UInt8) (input : List UInt8) (type : UInt8)
  /-- `_fc_chokePty`. -/
  | choked (id : ℕ)
  /-- `_fc_releasePty`. -/
  | released (id : ℕ)
  deriving DecidableEq, Repr

inductive ControlFault
  | data
  | response
  | channellist
  deriving DecidableEq, Repr

/-! ### The handler -/

/-- `frame->data[i]`. -/
def dataAt (data : List UInt8) (i : ℕ) : Except ControlFault UInt8 :=
  match data[i]? with
  | some b => .ok b
  | none => .error .data

/-- `response[i] = b`. -/
def setResponse (response : List UInt8) (i : ℕ) (b : UInt8) : Except ControlFault (List UInt8) :=
  if i < response.length then .ok (response.set i b) else .error .response

/-- The loops over the type field and over the length field: to the byte with the `EA` bit, or to
the end of the frame. The first argument is how far the end is. The length itself is only
logged. -/
def skipField (data : List UInt8) : ℕ → ℕ → Except ControlFault ℕ
  | 0, i => .ok i
  | left + 1, i => do
      let b ← dataAt data i
      if b &&& GSM0710_EA == 0 then skipField data left (i + 1) else .ok i

/-- The frame without the `C/R` bit of its type. -/
def clearCR (data : List UInt8) : List UInt8 := data.modify 0 (· &&& ~~~GSM0710_CR)

def acknowledgment (data : List UInt8) : ControlEvent :=
  .written 0 (clearCR data) GSM0710_TYPE_UIH

/-- `GSM0710_CONTROL_MSC`: the flow control of a channel. -/
def modemStatus (s : ControlState) (data : List UInt8) (i : ℕ) :
    Except ControlFault (ControlState × List ControlEvent) :=
  if i + 1 < data.length then do
    let address ← dataAt data i
    let id := (GSM0710_DECODE_ADDRESS address).toNat
    let signals ← dataAt data (i + 1)
    match s.channellist[id]? with
    | none => .error .channellist
    | some channel =>
      if !channel.opened then .ok (s, [])
      else if signals &&& GSM0710_SIGNAL_FC == GSM0710_SIGNAL_FC then
        if channel.tx_fc_off then .ok (s, [])
        else .ok ({ s with
          channellist := s.channellist.set id { channel with tx_fc_off := true } }, [.choked id])
      else if channel.tx_fc_off then
        .ok ({ s with
          channellist := s.channellist.set id { channel with tx_fc_off := false } },
          [.released id])
      else .ok (s, [])
  else .ok (s, [])

/-- The loop that copies the type field into the response. -/
def copyType (data : List UInt8) :
    ℕ → ℕ → List UInt8 → Except ControlFault (ℕ × List UInt8)
  | 0, i, response => .ok (i, response)
  | type_length + 1, i, response => do
      let b ← dataAt data (i - 2)
      let response ← setResponse response i b
      copyType data type_length (i + 1) response

/-- The answer to a command that is not known. Whether there is memory for the response is up to
`calloc`. -/
def unknownCommand (calloc : ℕ → Bool) (data : List UInt8) (type_length : ℕ) :
    Except ControlFault (List ControlEvent) :=
  if calloc (2 + type_length) then do
    let response := List.replicate (2 + type_length) 0
    let response ← setResponse response 0 GSM0710_CONTROL_NSC
    -- supposes that type length is less than 128
    let type_length := type_length &&& 127
    let response ← setResponse response 1 (GSM0710_EA ||| UInt8.ofNat (type_length <<< 1))
    let (i, response) ← copyType data type_length 2 response
    .ok [.written 0 (response.take i) GSM0710_TYPE_UIH]
  else .ok [acknowledgment data]

/-- **`handle_command`**. -/
def handle_command (calloc : ℕ → Bool) (s : ControlState) (data : List UInt8) :
    Except ControlFault (ControlState × List ControlEvent) :=
  if 0 < data.length then do
    let type ← dataAt data 0
    let i ← skipField data data.length 0
    let type_length := i + 1
    if type &&& GSM0710_CR == GSM0710_CR then do
      let i ← skipField data (data.length - type_length) type_length
      let i := i + 1
      let command := type &&& ~~~GSM0710_CR
      if command = GSM0710_CONTROL_CLD then
        .ok ({ s with peerClosing := true }, [acknowledgment data])
      else if command = GSM0710_CONTROL_PSC ∨ command = GSM0710_CONTROL_TEST ∨
          command = GSM0710_CONTROL_PN then
        .ok (s, [acknowledgment data])
      else if command = GSM0710_CONTROL_MSC then do
        let (s, events) ← modemStatus s data i
        .ok (s, events ++ [acknowledgment data])
      else do
        let events ← unknownCommand calloc data type_length
        .ok (s, events)
    else .ok (s, [])
  else .ok (s, [])

/-! ### Fields -/

/-- The bytes of a field before the one with the `EA` bit. -/
def fieldFrom (data : List UInt8) (i : ℕ) : List UInt8 :=
  (data.drop i).takeWhile fun b => b &&& GSM0710_EA == 0

/-- The index behind a field that begins at an index; a field that does not end in the frame is
taken as one byte longer than the frame. -/
def fieldEnd (data : List UInt8) (i : ℕ) : ℕ := i + (fieldFrom data i).length + 1

/-- The length that the handler takes the type field to have. -/
def typeLength (data : List UInt8) : ℕ := fieldEnd data 0

def valueIndex (data : List UInt8) : ℕ := fieldEnd data (typeLength data)

def typeField (data : List UInt8) : List UInt8 := data.take (typeLength data)

/-- An `NSC` response to a command of a type. -/
def nscResponse (type : List UInt8) : List UInt8 :=
  GSM0710_CONTROL_NSC :: (GSM0710_EA ||| UInt8.ofNat (type.length <<< 1)) :: type

theorem dataAt_eq {data : List UInt8} {i : ℕ} (h : i < data.length) :
    dataAt data i = .ok data[i] := by
  rw [dataAt, List.getElem?_eq_getElem h]

theorem setResponse_eq {response : List UInt8} {i : ℕ} {b : UInt8} (h : i < response.length) :
    setResponse response i b = .ok (response.set i b) := if_pos h

/-- **The loop** over a field ends in the frame, or right behind it. -/
theorem skipField_eq (data : List UInt8) (left i : ℕ) (h : left = data.length - i) :
    skipField data left i = .ok (i + (fieldFrom data i).length) := by
  induction left generalizing i with
  | zero =>
    have hdrop : data.drop i = [] := List.drop_eq_nil_of_le (by omega)
    rw [skipField, fieldFrom, hdrop]
    rfl
  | succ left ih =>
    have hi : i < data.length := by omega
    have hfield : fieldFrom data i =
        if data[i] &&& GSM0710_EA == 0 then data[i] :: fieldFrom data (i + 1) else [] := by
      rw [fieldFrom, List.drop_eq_getElem_cons hi, List.takeWhile_cons]
      rfl
    rw [skipField, dataAt_eq hi, hfield]
    change (if data[i] &&& GSM0710_EA == 0 then _ else _) = _
    split
    · rw [ih (i + 1) (by omega), List.length_cons]
      congr 1
      omega
    · rfl

theorem length_fieldFrom_le (data : List UInt8) (i : ℕ) :
    (fieldFrom data i).length ≤ data.length - i := by
  rw [← List.length_drop]
  exact (List.takeWhile_prefix _).length_le

theorem typeLength_le (data : List UInt8) : typeLength data ≤ data.length + 1 := by
  have h := length_fieldFrom_le data 0
  rw [typeLength, fieldEnd]
  omega

/-! ### The answer to an unknown command -/

variable {calloc : ℕ → Bool} {data response : List UInt8} {n j : ℕ} {type : UInt8}
  {s : ControlState}

/-- **The copy of the type field**, when the frame has that many bytes. -/
theorem copyType_spec (j : ℕ) (response : List UInt8) (hdata : j + n ≤ data.length)
    (hresponse : j + 2 + n ≤ response.length) :
    ∃ response', copyType data n (j + 2) response = .ok (j + 2 + n, response') ∧
      response'.take (j + 2 + n) = response.take (j + 2) ++ (data.drop j).take n := by
  induction n generalizing j response with
  | zero => exact ⟨response, rfl, by simp⟩
  | succ n ih =>
    have hj : j < data.length := by omega
    have hset : j + 2 < response.length := by omega
    obtain ⟨response', hcopy, htake⟩ := ih (j + 1) (response.set (j + 2) data[j]) (by omega)
      (by rw [List.length_set]; omega)
    refine ⟨response', ?_, ?_⟩
    · rw [copyType, Nat.add_sub_cancel, dataAt_eq hj]
      change (setResponse response (j + 2) data[j] >>= _) = _
      rw [setResponse_eq hset]
      change copyType data n (j + 2 + 1) _ = _
      rw [show j + 2 + 1 = j + 1 + 2 by omega, hcopy]
      congr 2
      omega
    · have hfirst : (response.set (j + 2) data[j]).take (j + 1 + 2) =
          response.take (j + 2) ++ [data[j]] := by
        rw [show j + 1 + 2 = j + 2 + 1 by omega, List.take_succ_eq_append_getElem
          (by rw [List.length_set]; omega), List.take_set_of_le (Nat.le_refl _)]
        simp
      rw [show j + 2 + (n + 1) = j + 1 + 2 + n by omega, htake, hfirst, List.append_assoc]
      rw [List.drop_eq_getElem_cons hj, List.take_succ_cons, List.singleton_append]

theorem copyType_error (hj : j ≤ data.length) (hdata : data.length < j + n)
    (hresponse : j + 2 + n ≤ response.length) :
    copyType data n (j + 2) response = .error .data := by
  induction n generalizing j response with
  | zero => omega
  | succ n ih =>
    rw [copyType, Nat.add_sub_cancel]
    by_cases hend : j < data.length
    · rw [dataAt_eq hend]
      change (setResponse response (j + 2) data[j] >>= _) = _
      rw [setResponse_eq (by omega)]
      exact ih (j := j + 1) (by omega) (by omega) (by rw [List.length_set]; omega)
    · rw [dataAt, List.getElem?_eq_none (by omega)]
      rfl

theorem unknownCommand_eq (hcalloc : calloc (2 + n) = true) :
    unknownCommand calloc data n =
      (copyType data (n &&& 127) 2 (GSM0710_CONTROL_NSC ::
        (GSM0710_EA ||| UInt8.ofNat ((n &&& 127) <<< 1)) :: List.replicate n 0)) >>=
        fun r => .ok [.written 0 (r.2.take r.1) GSM0710_TYPE_UIH] := by
  rw [unknownCommand, if_pos hcalloc, Nat.add_comm 2 n, List.replicate_succ, List.replicate_succ]
  rfl

theorem and_127 (n : ℕ) : n &&& 127 = n % 128 := Nat.and_two_pow_sub_one_eq_mod n 7

theorem unknownCommand_ok (hcalloc : calloc (2 + n) = true) (hdata : n &&& 127 ≤ data.length) :
    unknownCommand calloc data n = .ok [.written 0 (GSM0710_CONTROL_NSC ::
      (GSM0710_EA ||| UInt8.ofNat ((n &&& 127) <<< 1)) :: data.take (n &&& 127))
      GSM0710_TYPE_UIH] := by
  have hle : n &&& 127 ≤ n := Nat.and_le_left
  obtain ⟨response, hcopy, htake⟩ := copyType_spec 0 (GSM0710_CONTROL_NSC ::
    (GSM0710_EA ||| UInt8.ofNat ((n &&& 127) <<< 1)) :: List.replicate n 0)
    (show 0 + (n &&& 127) ≤ data.length by omega) (by simp; omega)
  rw [unknownCommand_eq hcalloc, hcopy]
  change Except.ok [ControlEvent.written 0 (response.take (0 + 2 + (n &&& 127))) _] = _
  rw [htake]
  rfl

theorem unknownCommand_error (hcalloc : calloc (2 + n) = true) (hdata : data.length < n &&& 127) :
    unknownCommand calloc data n = .error .data := by
  have hle : n &&& 127 ≤ n := Nat.and_le_left
  rw [unknownCommand_eq hcalloc, copyType_error (Nat.zero_le _) (by omega)
    (by simp; omega)]
  rfl

/-! ### The handler within its bounds -/

def knownCommands : List UInt8 :=
  [GSM0710_CONTROL_CLD, GSM0710_CONTROL_PSC, GSM0710_CONTROL_TEST, GSM0710_CONTROL_PN,
    GSM0710_CONTROL_MSC]

/-- A command is **handled as said**: no access is out of bounds, and every answer is the frame
without its `C/R` bit or an `NSC` response with the type field. -/
def HandledAsSaid (data : List UInt8)
    (x : Except ControlFault (ControlState × List ControlEvent)) : Prop :=
  ∃ s events, x = .ok (s, events) ∧ ∀ channel input type,
    .written channel input type ∈ events → channel = 0 ∧ type = GSM0710_TYPE_UIH ∧
      (input = clearCR data ∨ input = nscResponse (typeField data))

/-- What a command has to be for that, with a number of channels: a modem status command with a
value names one of them, and the type field of a command that is not known ends in the frame and
has fewer than 128 bytes. -/
def Answerable (calloc : ℕ → Bool) (channels : ℕ) (data : List UInt8) : Prop :=
  ∀ type, data.head? = some type → type &&& GSM0710_CR = GSM0710_CR →
    (type &&& ~~~GSM0710_CR = GSM0710_CONTROL_MSC → valueIndex data + 1 < data.length →
      ∀ address, data[valueIndex data]? = some address →
        (GSM0710_DECODE_ADDRESS address).toNat < channels) ∧
    (type &&& ~~~GSM0710_CR ∉ knownCommands → calloc (2 + typeLength data) = true →
      typeLength data ≤ data.length ∧ typeLength data < 128)

theorem handledAsSaid_ack (events : List ControlEvent)
    (hevents : ∀ channel input type, .written channel input type ∉ events) :
    HandledAsSaid data (.ok (s, events ++ [acknowledgment data])) := by
  refine ⟨s, _, rfl, fun channel input type hmem => ?_⟩
  rcases List.mem_append.mp hmem with hmem | hmem
  · exact absurd hmem (hevents _ _ _)
  · obtain ⟨rfl, rfl, rfl⟩ := ControlEvent.written.inj (List.mem_singleton.mp hmem)
    exact ⟨rfl, rfl, .inl rfl⟩

/-- **A modem status command** stays in the frame; it stays in the list of channels exactly when
the channel that it names is there. It writes no frame. -/
theorem modemStatus_cases (s : ControlState) (data : List UInt8) (i : ℕ) :
    ((i + 1 < data.length → ∀ address, data[i]? = some address →
        (GSM0710_DECODE_ADDRESS address).toNat < s.channellist.length) ∧
      ∃ s' events, modemStatus s data i = .ok (s', events) ∧
        ∀ channel input type, .written channel input type ∉ events) ∨
    (¬ (i + 1 < data.length → ∀ address, data[i]? = some address →
        (GSM0710_DECODE_ADDRESS address).toNat < s.channellist.length) ∧
      modemStatus s data i = .error .channellist) := by
  rw [modemStatus]
  by_cases hi : i + 1 < data.length
  · have hget : data[i]? = some data[i] := List.getElem?_eq_getElem (by omega)
    rw [if_pos hi, dataAt_eq (show i < data.length by omega), dataAt_eq hi]
    simp only [hi, hget, forall_true_left, Option.some_inj, forall_eq', bind, Except.bind]
    cases hchannel : s.channellist[(GSM0710_DECODE_ADDRESS data[i]).toNat]? with
    | none =>
      have hout := List.getElem?_eq_none_iff.mp hchannel
      exact .inr ⟨by omega, rfl⟩
    | some channel =>
      have hin := (List.getElem?_eq_some_iff.mp hchannel).1
      refine .inl ⟨hin, ?_⟩
      simp only
      split_ifs <;> exact ⟨_, _, rfl, by simp⟩
  · rw [if_neg hi]
    exact .inl ⟨fun h => absurd h hi, s, [], rfl, by simp⟩

/-- A type field of more than one byte begins with a byte without the `EA` bit. -/
theorem exists_cons_of_typeLength (h : 2 ≤ typeLength data) :
    ∃ b rest, data = b :: rest ∧ b &&& GSM0710_EA = 0 := by
  cases data with
  | nil => simp [typeLength, fieldEnd, fieldFrom] at h
  | cons b rest =>
    refine ⟨b, rest, rfl, ?_⟩
    by_contra hb
    simp [typeLength, fieldEnd, fieldFrom, hb] at h

/-- What is not an acknowledgment: an `NSC` response to a type of more than one byte. -/
theorem nsc_ne_clearCR {rest : List UInt8} (h : 2 ≤ typeLength data) :
    GSM0710_CONTROL_NSC :: rest ≠ clearCR data := by
  obtain ⟨b, rest', rfl, hb⟩ := exists_cons_of_typeLength h
  have hall : ∀ b : UInt8, b &&& GSM0710_EA = 0 → GSM0710_CONTROL_NSC ≠ b &&& ~~~GSM0710_CR :=
    forall_byte (by decide +kernel)
  intro heq
  exact hall b hb (List.cons.inj heq).1

/-- The answer to a command that is not known is as said exactly when there is no memory for the
response, or the type field ends in the frame and has fewer than 128 bytes. -/
theorem unknownCommand_iff :
    HandledAsSaid data ((unknownCommand calloc data (typeLength data)).map fun events =>
      (s, events)) ↔
    (calloc (2 + typeLength data) = true →
      typeLength data ≤ data.length ∧ typeLength data < 128) := by
  by_cases hcalloc : calloc (2 + typeLength data) = true
  · have hmod := and_127 (typeLength data)
    have hend := typeLength_le data
    have hand : typeLength data < 128 → typeLength data &&& 127 = typeLength data := fun h =>
      hmod.trans (Nat.mod_eq_of_lt h)
    simp only [hcalloc, forall_true_left]
    constructor
    · rintro ⟨s', events, hok, hall⟩
      by_contra hbad
      -- the field is longer than the handler's answer can say
      have hlong : 2 ≤ typeLength data := by
        by_cases h128 : typeLength data < 128
        · have hpos : 1 ≤ typeLength data := by rw [typeLength, fieldEnd]; omega
          have hout : data.length < typeLength data := by omega
          rw [unknownCommand_error hcalloc (by rw [hand h128]; exact hout)] at hok
          cases hok
        · omega
      by_cases hdata : typeLength data &&& 127 ≤ data.length
      · rw [unknownCommand_ok hcalloc hdata] at hok
        obtain ⟨-, rfl⟩ := Prod.mk.inj (Except.ok.inj hok)
        obtain ⟨-, -, hinput⟩ := hall _ _ _ List.mem_cons_self
        rcases hinput with hinput | hinput
        · exact nsc_ne_clearCR hlong hinput
        · have hlength := congrArg List.length hinput
          simp only [nscResponse, typeField, List.length_cons, List.length_take] at hlength
          -- 128 bytes are cut to none, and a field that does not end to what is there
          by_cases h128 : typeLength data < 128
          · rw [hand h128] at hdata
            exact hbad ⟨hdata, h128⟩
          · omega
      · rw [unknownCommand_error hcalloc (by omega)] at hok
        cases hok
    · rintro ⟨hin, h128⟩
      rw [unknownCommand_ok hcalloc (by rw [hand h128]; exact hin), hand h128]
      refine ⟨s, _, rfl, fun channel input type hmem => ?_⟩
      obtain ⟨rfl, rfl, rfl⟩ := ControlEvent.written.inj (List.mem_singleton.mp hmem)
      refine ⟨rfl, rfl, .inr ?_⟩
      rw [nscResponse, typeField, List.length_take_of_le hin]
  · rw [unknownCommand, if_neg hcalloc]
    exact iff_of_true (handledAsSaid_ack [] (by simp)) fun h => absurd h hcalloc

theorem handle_command_of_cons {rest : List UInt8}
    (hcommand : type &&& GSM0710_CR = GSM0710_CR) (hdata : data = type :: rest) :
    handle_command calloc s data =
      (let command := type &&& ~~~GSM0710_CR
      if command = GSM0710_CONTROL_CLD then
        .ok ({ s with peerClosing := true }, [acknowledgment data])
      else if command = GSM0710_CONTROL_PSC ∨ command = GSM0710_CONTROL_TEST ∨
          command = GSM0710_CONTROL_PN then
        .ok (s, [acknowledgment data])
      else if command = GSM0710_CONTROL_MSC then
        (modemStatus s data (valueIndex data)).map fun r => (r.1, r.2 ++ [acknowledgment data])
      else (unknownCommand calloc data (typeLength data)).map fun events => (s, events)) := by
  have hlength : 0 < data.length := by simp [hdata]
  have htype : dataAt data 0 = .ok type := by rw [hdata]; rfl
  have hloop := skipField_eq data data.length 0 rfl
  have hvalue := skipField_eq data (data.length - typeLength data) (typeLength data) rfl
  have htypeLength : 0 + (fieldFrom data 0).length + 1 = typeLength data := rfl
  have hvalueIndex : typeLength data + (fieldFrom data (typeLength data)).length + 1 =
    valueIndex data := rfl
  rw [handle_command, if_pos hlength, htype, hloop]
  simp only [bind, Except.bind, hcommand, beq_self_eq_true, if_true, htypeLength, hvalue,
    hvalueIndex]
  split_ifs
  · rfl
  · rfl
  · cases modemStatus s data (valueIndex data) <;> rfl
  · cases unknownCommand calloc data (typeLength data) <;> rfl

/-- **Commands of the control channel**: for every frame, list of channels and memory, the handler
reads and writes within bounds and answers with the frame without its `C/R` bit, or with an `NSC`
response with the type field, exactly when the command is answerable. -/
theorem handle_command_iff (calloc : ℕ → Bool) (s : ControlState) (data : List UInt8) :
    HandledAsSaid data (handle_command calloc s data) ↔
      Answerable calloc s.channellist.length data := by
  cases hdata : data with
  | nil => exact iff_of_true ⟨s, [], rfl, by simp⟩ fun type h => by cases h
  | cons type rest =>
    rw [← hdata]
    have hhead : data.head? = some type := by rw [hdata]; rfl
    by_cases hcommand : type &&& GSM0710_CR = GSM0710_CR
    · have hiff : Answerable calloc s.channellist.length data ↔
          (type &&& ~~~GSM0710_CR = GSM0710_CONTROL_MSC → valueIndex data + 1 < data.length →
            ∀ address, data[valueIndex data]? = some address →
              (GSM0710_DECODE_ADDRESS address).toNat < s.channellist.length) ∧
          (type &&& ~~~GSM0710_CR ∉ knownCommands → calloc (2 + typeLength data) = true →
            typeLength data ≤ data.length ∧ typeLength data < 128) := by
        simp only [Answerable, hhead, Option.some_inj, forall_eq', hcommand, forall_true_left]
      have hMSC : GSM0710_CONTROL_MSC ∈ knownCommands := by decide
      rw [hiff, handle_command_of_cons hcommand hdata]
      simp only
      split_ifs with hcld hknown hmsc
      · refine iff_of_true (handledAsSaid_ack [] (by simp))
          ⟨fun h => absurd (hcld.symm.trans h) (by decide), fun h => absurd ?_ h⟩
        simp [knownCommands, hcld]
      · refine iff_of_true (handledAsSaid_ack [] (by simp))
          ⟨fun h => absurd hknown (by rw [h]; decide), fun h => absurd ?_ h⟩
        rcases hknown with h | h | h <;> simp [knownCommands, h]
      · have hmem : type &&& ~~~GSM0710_CR ∈ knownCommands := hmsc ▸ hMSC
        simp only [hmsc, hMSC, not_true_eq_false, false_imp_iff, and_true, true_imp_iff]
        rcases modemStatus_cases s data (valueIndex data) with
          ⟨hin, s', events, hok, hevents⟩ | ⟨hout, herror⟩
        · rw [hok]
          exact iff_of_true (handledAsSaid_ack _ hevents) hin
        · rw [herror]
          exact iff_of_false (fun ⟨_, _, h, _⟩ => by cases h) hout
      · have hnot : type &&& ~~~GSM0710_CR ∉ knownCommands := by
          simp only [not_or] at hknown
          simp [knownCommands, hcld, hknown, hmsc]
        simp only [hmsc, hnot, false_imp_iff, true_and, not_false_eq_true, true_imp_iff]
        exact unknownCommand_iff
    · refine iff_of_true ?_ fun type' htype' h => ?_
      · have hlength : 0 < data.length := by simp [hdata]
        have htype : dataAt data 0 = .ok type := by rw [hdata]; rfl
        refine ⟨s, [], ?_, by simp⟩
        rw [handle_command, if_pos hlength, htype, skipField_eq data data.length 0 rfl]
        simp [bind, Except.bind, hcommand]
      · rw [hhead, Option.some_inj] at htype'
        exact absurd (htype' ▸ h) hcommand

def openChannels : ControlState := ⟨false, List.replicate 32 ⟨true, false⟩⟩

/-- A type field that does not end in the frame is read beyond the frame; and a modem status command
on channel 33 is looked up beyond a list of 32 channels. -/
theorem handle_command_outOfBounds :
    ¬ HandledAsSaid [0x02] (handle_command (fun _ => true) openChannels [0x02]) ∧
    ¬ HandledAsSaid [0xE3, 0x05, 0x87, 0x01]
      (handle_command (fun _ => true) openChannels [0xE3, 0x05, 0x87, 0x01]) := by
  have hdata : handle_command (fun _ => true) openChannels [0x02] = .error .data := by
    decide +kernel
  have hchannel : handle_command (fun _ => true) openChannels [0xE3, 0x05, 0x87, 0x01] =
      .error .channellist := by
    decide +kernel
  rw [hdata, hchannel]
  constructor
  · rintro ⟨s, events, h, -⟩
    cases h
  · rintro ⟨s, events, h, -⟩
    cases h

/-- The same command on channel 31 is acknowledged, and its channel choked. -/
example : handle_command (fun _ => true) openChannels [0xE3, 0x05, 0x7F, 0x03] =
    .ok (⟨false, openChannels.channellist.set 31 ⟨true, true⟩⟩,
      [.choked 31, .written 0 [0xE1, 0x05, 0x7F, 0x03] GSM0710_TYPE_UIH]) := by
  decide +kernel

end MtkHardware.Gsm0710
