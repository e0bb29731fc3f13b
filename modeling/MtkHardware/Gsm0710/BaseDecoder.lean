import MtkHardware.Gsm0710.Chunks
import MtkHardware.Gsm0710.Flags

/-!
# The Decoder of Basic Mode

`gsm0710_base_buffer_get_frame` looks for a start flag, passes the flags behind it, and then reads a
frame with a copy of the read pointer: only when the frame is there as a whole, or is corrupt, is it
taken out of the buffer. Behind a corrupt frame it goes on with the next one, by a call of itself.

`scan` is what there is to know of it: the same for a list of bytes, without a ring.
-/

namespace MtkHardware.Gsm0710

/-! ### The code -/

structure Header where
  channel : UInt8
  control : UInt8
  length : ℕ
  fcs : UInt8
  deriving DecidableEq, Repr

inductive Extracted
  | notEnough
  | dropped (c : Cursor)
  | frame (frame : GSM0710_Frame) (c : Cursor)

/-- The header is read up to the last byte of the length field, which is not passed. -/
def readHeader (data : ℕ → UInt8) (c : Cursor) : Except MuxFault (Header × Cursor) := do
  let channel := GSM0710_DECODE_ADDRESS (data c.readp)
  let fcs := crc 0xFF (data c.readp)
  let c ← gsm0710_buffer_inc c
  let control := data c.readp
  let fcs := crc fcs (data c.readp)
  let c ← gsm0710_buffer_inc c
  let length := lowLength (data c.readp)
  let fcs := crc fcs (data c.readp)
  if isLastLength (data c.readp) then
    return ({ channel, control, length, fcs }, c)
  else
    let c ← gsm0710_buffer_inc c
    let length := length + (data c.readp).toNat * 128
    return ({ channel, control, length, fcs := crc fcs (data c.readp) }, c)

/-- The payload, the check sequence and the end flag are read, which are there. Neither of the two
bytes at the end is passed before it has been checked. -/
def readBody (data : ℕ → UInt8) (header : Header) (c : Cursor) : Except MuxFault Extracted := do
  let c ← gsm0710_buffer_inc c
  let (payload, c) ← readBytes data header.length c
  let fcs := if isUI header.control then payload.foldl crc header.fcs else header.fcs
  let fcs := crc fcs (data c.readp)
  let c ← gsm0710_buffer_inc c
  if fcs ≠ goodFcs then return .dropped c
  else if data c.readp ≠ GSM0710_FRAME_FLAG then return .dropped c
  else
    let c ← gsm0710_buffer_inc c
    return .frame { channel := header.channel, control := header.control, data := payload } c

/-- A frame is read with the copies of `readp` and `datacount`. Five bytes are needed at least; two
of them have been passed behind the header, and a third one, which `length_needed` does not count,
where the length field has two bytes. -/
def extract (channels : ChannelList) (data : ℕ → UInt8) (c : Cursor) :
    Except MuxFault Extracted :=
  if c.datacount < 5 then .ok .notEnough
  else do
    let (header, c) ← readHeader data c
    if channels.GSM0710_MAX_CHANNELS ≤ header.channel.toNat then
      .error (.channelIndex header.channel.toNat)
    else if channels.negotiated_N1 header.channel.toNat < header.length then return .dropped c
    else if c.datacount < 3 + header.length then return .notEnough
    else readBody data header c

namespace GSM0710_Buffer

def dropTo (buf : GSM0710_Buffer) (start c : Cursor) : GSM0710_Buffer :=
  { buf with flag_found := false, dropped_count := buf.dropped_count + 1 }.commit start c

def takeTo (buf : GSM0710_Buffer) (start c : Cursor) : GSM0710_Buffer :=
  { { buf with received_count := buf.received_count + 1 }.commit start c with flag_found := false }

/-- `gsm0710_base_buffer_get_frame`, with how many levels of the recursion are left. The loops end
when `datacount` is `0`. -/
def gsm0710_base_buffer_get_frame (channels : ChannelList) :
    ℕ → GSM0710_Buffer → Except MuxFault (Option GSM0710_Frame × GSM0710_Buffer)
  | 0, _ => .error .resyncDepth
  | levels + 1, buf =>
    let buf := buf.findFlag false buf.datacount
    if buf.flag_found = false then .ok (none, buf)
    else
      let buf := buf.skipFlags GSM0710_FRAME_FLAG buf.datacount
      match extract channels buf.data buf.cursor with
      | .error fault => .error fault
      | .ok .notEnough => .ok (none, buf)
      | .ok (.dropped c) =>
        gsm0710_base_buffer_get_frame channels levels (buf.dropTo buf.cursor c)
      | .ok (.frame frame c) => .ok (some frame, buf.takeTo buf.cursor c)

end GSM0710_Buffer

/-- `gsm0710_base_buffer_get_frame`, as `extract_frames` calls it. -/
def baseDecoder (channels : ChannelList) : Decoder :=
  GSM0710_Buffer.gsm0710_base_buffer_get_frame channels MAX_RESYNC_GET_FRAME_COUNT

/-! ### Scanning a list -/

inductive Scan
  | short
  | outside (channel : ℕ)
  | corrupt (rest : List UInt8)
  | frame (frame : GSM0710_Frame) (rest : List UInt8)
  deriving DecidableEq, Repr

/-- The header of a frame, and the bytes from the last byte of the length field on. -/
def scanHeader : List UInt8 → Option (Header × List UInt8)
  | address :: control :: length :: l =>
    let channel := GSM0710_DECODE_ADDRESS address
    let fcs := crc (crc (crc 0xFF address) control) length
    if isLastLength length then
      some ({ channel, control, length := lowLength length, fcs }, length :: l)
    else
      match l with
      | high :: l =>
        some ({ channel, control, length := lowLength length + high.toNat * 128,
                fcs := crc fcs high }, high :: l)
      | [] => none
  | _ => none

def scanBody (header : Header) (l : List UInt8) : Scan :=
  let payload := l.take header.length
  let fcs := if isUI header.control then payload.foldl crc header.fcs else header.fcs
  match l.drop header.length with
  | b :: flag :: rest =>
    if crc fcs b = goodFcs ∧ flag = GSM0710_FRAME_FLAG then
      .frame { channel := header.channel, control := header.control, data := payload } rest
    else .corrupt (flag :: rest)
  | _ => .short

def scan (channels : ChannelList) (l : List UInt8) : Scan :=
  if l.length < 5 then .short
  else
    match scanHeader l with
    | none => .short
    | some (header, l) =>
      if channels.GSM0710_MAX_CHANNELS ≤ header.channel.toNat then
        .outside header.channel.toNat
      else if channels.negotiated_N1 header.channel.toNat < header.length then .corrupt l
      else if l.length < 3 + header.length then .short
      else scanBody header l.tail

/-- The bytes behind the start flag, if there is one, and the flags that follow it. -/
def sync (found : Bool) (l : List UInt8) : Option (List UInt8) :=
  if found then some (l.dropWhile (· == GSM0710_FRAME_FLAG))
  else
    match l.dropWhile (· != GSM0710_FRAME_FLAG) with
    | [] => none
    | _ :: l => some (l.dropWhile (· == GSM0710_FRAME_FLAG))

/-- What is left after a call: whether the start flag has been found, the bytes, and how many frames
have been dropped. -/
structure Scanned where
  frame : Option GSM0710_Frame
  found : Bool
  rest : List UInt8
  dropped : ℕ
  deriving DecidableEq, Repr

/-- Scanning until a frame is there, or nothing is left that may become one. -/
def scanFrames (channels : ChannelList) : ℕ → Bool → List UInt8 → Except MuxFault Scanned
  | 0, _, _ => .error .resyncDepth
  | levels + 1, found, l =>
    match sync found l with
    | none => .ok { frame := none, found := false, rest := [], dropped := 0 }
    | some l =>
      match scan channels l with
      | .short => .ok { frame := none, found := true, rest := l, dropped := 0 }
      | .outside channel => .error (.channelIndex channel)
      | .corrupt rest => do
          let r ← scanFrames channels levels false rest
          return { r with dropped := r.dropped + 1 }
      | .frame frame rest => .ok { frame := some frame, found := false, rest, dropped := 0 }

/-! ### The code scans -/

/-- What is found, and where the cursor is then, with at most `n` bytes behind it. -/
inductive Extracted.Is (data : ℕ → UInt8) (writep n : ℕ) : Extracted → Scan → Prop
  | notEnough : Is data writep n .notEnough .short
  | dropped {c : Cursor} {rest : List UInt8} (hc : c.At data writep rest) (hle : rest.length ≤ n) :
      Is data writep n (.dropped c) (.corrupt rest)
  | frame {f : GSM0710_Frame} {c : Cursor} {rest : List UInt8} (hc : c.At data writep rest)
      (hle : rest.length ≤ n) : Is data writep n (.frame f c) (.frame f rest)

theorem Extracted.Is.mono {data : ℕ → UInt8} {writep n m : ℕ} {e : Extracted} {found : Scan}
    (h : e.Is data writep n found) (hnm : n ≤ m) : e.Is data writep m found := by
  cases h with
  | notEnough => exact .notEnough
  | dropped hc hle => exact .dropped hc (hle.trans hnm)
  | frame hc hle => exact .frame hc (hle.trans hnm)

section

variable {channels : ChannelList} {data : ℕ → UInt8} {writep : ℕ} {c : Cursor} {b : UInt8}
  {l rest : List UInt8}

theorem readHeader_spec (hc : c.At data writep l) (hlength : 5 ≤ l.length) :
    ∃ header b rest c', scanHeader l = some (header, b :: rest) ∧
      readHeader data c = .ok (header, c') ∧ c'.At data writep (b :: rest) ∧
      rest.length + 3 ≤ l.length := by
  obtain ⟨address, control, length, high, l, rfl⟩ :
      ∃ address control length high l', l = address :: control :: length :: high :: l' := by
    match l, hlength with
    | address :: control :: length :: high :: l, _ => exact ⟨address, control, length, high, l, rfl⟩
  obtain ⟨haddress, c₁, hc₁, hat₁⟩ := hc.inc
  obtain ⟨hcontrol, c₂, hc₂, hat₂⟩ := hat₁.inc
  obtain ⟨hlow, c₃, hc₃, hat₃⟩ := hat₂.inc
  obtain ⟨hhigh, -⟩ := hat₃.inc
  simp only [readHeader, haddress, hc₁, hcontrol, hc₂, hlow, scanHeader, bind, Except.bind]
  split_ifs with hlast
  · exact ⟨_, length, high :: l, c₂, rfl, rfl, hat₂, by simp⟩
  · simp only [hc₃, hhigh]
    exact ⟨_, high, l, c₃, rfl, rfl, hat₃, by simp⟩

theorem readBody_spec (header : Header) (hc : c.At data writep (b :: l))
    (hlength : header.length + 2 ≤ l.length) :
    ∃ e, readBody data header c = .ok e ∧ e.Is data writep l.length (scanBody header l) := by
  obtain ⟨-, c₁, hc₁, hat₁⟩ := hc.inc
  obtain ⟨fcs, flag, rest, hdrop⟩ :
      ∃ fcs flag rest, l.drop header.length = fcs :: flag :: rest := by
    have hdrop : 2 ≤ (l.drop header.length).length := by
      rw [List.length_drop]
      omega
    match l.drop header.length, hdrop with
    | fcs :: flag :: rest, _ => exact ⟨fcs, flag, rest, rfl⟩
  have htake : (l.take header.length).length = header.length := by
    rw [List.length_take]
    omega
  rw [← List.take_append_drop header.length l, hdrop] at hat₁
  obtain ⟨c₂, hc₂, hat₂⟩ := hat₁.readBytes
  rw [htake] at hc₂
  obtain ⟨hfcs, c₃, hc₃, hat₃⟩ := hat₂.inc
  obtain ⟨hflag, c₄, hc₄, hat₄⟩ := hat₃.inc
  simp only [readBody, hc₁, hc₂, hfcs, hc₃, hflag, hc₄, scanBody, hdrop, bind, Except.bind]
  have hle : rest.length + 2 ≤ l.length := by
    have hlengths := congrArg List.length hdrop
    rw [List.length_drop, List.length_cons, List.length_cons] at hlengths
    omega
  generalize (if isUI header.control = true then
    (l.take header.length).foldl crc header.fcs else header.fcs) = sum
  by_cases hgood : crc sum fcs = goodFcs
  · rw [if_neg (not_not.mpr hgood)]
    by_cases hend : flag = GSM0710_FRAME_FLAG
    · rw [if_neg (not_not.mpr hend), if_pos ⟨hgood, hend⟩]
      exact ⟨_, rfl, .frame hat₄ (by omega)⟩
    · rw [if_pos hend, if_neg fun h => hend h.2]
      exact ⟨_, rfl, .dropped hat₃ (by rw [List.length_cons]; omega)⟩
  · rw [if_pos hgood, if_neg fun h => hgood h.1]
    exact ⟨_, rfl, .dropped hat₃ (by rw [List.length_cons]; omega)⟩

theorem extract_spec (hc : c.At data writep l) :
    (∃ channel, scan channels l = .outside channel ∧
      extract channels data c = .error (.channelIndex channel)) ∨
    ∃ e, extract channels data c = .ok e ∧ e.Is data writep l.length (scan channels l) := by
  unfold extract scan
  rw [hc.length]
  split_ifs with hshort
  · exact .inr ⟨_, rfl, .notEnough⟩
  · obtain ⟨header, b, rest, c', hscan, hread, hat, hle⟩ := readHeader_spec hc (by omega)
    simp only [hscan, hread, bind, Except.bind, hat.length]
    split_ifs with houtside hlong hmore
    · exact .inl ⟨_, rfl, rfl⟩
    · exact .inr ⟨_, rfl, .dropped hat (by rw [List.length_cons]; omega)⟩
    · exact .inr ⟨_, rfl, .notEnough⟩
    · rw [List.length_cons] at hmore
      rw [List.tail_cons]
      obtain ⟨e, he, his⟩ := readBody_spec header hat (by omega)
      exact .inr ⟨e, he, his.mono (by omega)⟩

end

namespace GSM0710_Buffer

variable {buf buf' : GSM0710_Buffer}

structure Leaves (buf buf' : GSM0710_Buffer) (r : Scanned) : Prop where
  sound : buf'.Sound
  found : buf'.flag_found = r.found
  content : buf'.content = r.rest
  dropped : buf'.dropped_count = buf.dropped_count + r.dropped

theorem sync_spec (h : buf.Sound) :
    ((buf.findFlag false buf.datacount).flag_found = false ∧
      sync buf.flag_found buf.content = none ∧
      (buf.findFlag false buf.datacount).Sound ∧ (buf.findFlag false buf.datacount).content = [] ∧
      (buf.findFlag false buf.datacount).dropped_count = buf.dropped_count) ∨
    ∃ buf', (buf.findFlag false buf.datacount).skipFlags GSM0710_FRAME_FLAG
        (buf.findFlag false buf.datacount).datacount = buf' ∧
      (buf.findFlag false buf.datacount).flag_found = true ∧
      sync buf.flag_found buf.content = some buf'.content ∧
      buf'.Sound ∧ buf'.flag_found = true ∧ buf'.dropped_count = buf.dropped_count := by
  have hskip : ∀ buf₁ : GSM0710_Buffer, buf₁.Sound → buf₁.flag_found = true →
      ∃ buf', buf₁.skipFlags GSM0710_FRAME_FLAG buf₁.datacount = buf' ∧
        buf'.content = buf₁.content.dropWhile (· == GSM0710_FRAME_FLAG) ∧ buf'.Sound ∧
        buf'.flag_found = true ∧ buf'.dropped_count = buf₁.dropped_count := by
    intro buf₁ h₁ hfound
    obtain ⟨hsound, hcontent, c, hc⟩ :=
      skipFlags_spec h₁ GSM0710_FRAME_FLAG (Nat.le_refl buf₁.datacount)
    refine ⟨_, rfl, hcontent, hsound, ?_, ?_⟩
    · rw [hc]
      exact hfound
    · rw [hc]
  cases hfound : buf.flag_found with
  | true =>
    rw [findFlag_of_found hfound]
    obtain ⟨buf', hbuf', hcontent, hsound, hfound', hdropped⟩ := hskip buf h hfound
    exact .inr ⟨buf', hbuf', hfound, by rw [sync, if_pos rfl, hcontent], hsound, hfound',
      hdropped⟩
  | false =>
    obtain ⟨hsound, hrest⟩ := findFlag_spec h false (Nat.le_refl _) hfound
    rw [sync, if_neg (by simp)]
    change match buf.content.dropWhile (· != GSM0710_FRAME_FLAG) with
      | [] => _
      | _ :: _ => _ at hrest
    cases hdrop : buf.content.dropWhile (· != GSM0710_FRAME_FLAG) with
    | nil =>
      rw [hdrop] at hrest
      obtain ⟨hcontent, c, hc⟩ := hrest
      exact .inl ⟨by rw [hc, ← hfound], rfl, hsound, hcontent, by rw [hc]⟩
    | cons b l =>
      rw [hdrop] at hrest
      obtain ⟨hcontent, c, hc⟩ := hrest
      have hstarted : (buf.findFlag false buf.datacount).flag_found = true := by rw [hc]; rfl
      obtain ⟨buf', hbuf', hcontent', hsound', hfound', hdropped'⟩ := hskip _ hsound hstarted
      rw [hcontent] at hcontent'
      exact .inr ⟨buf', hbuf', hstarted, by rw [hcontent'], hsound', hfound',
        hdropped'.trans (by rw [hc]; rfl)⟩

theorem dropTo_spec {c : Cursor} {rest : List UInt8} (hc : c.At buf.data buf.writep rest)
    (hle : c.datacount ≤ buf.datacount) :
    (buf.dropTo buf.cursor c).Sound ∧ (buf.dropTo buf.cursor c).content = rest :=
  let buf₁ : GSM0710_Buffer :=
    { buf with flag_found := false, dropped_count := buf.dropped_count + 1 }
  commit_spec (show c.At buf₁.data buf₁.writep rest from hc) hle

theorem takeTo_spec {c : Cursor} {rest : List UInt8} (hc : c.At buf.data buf.writep rest)
    (hle : c.datacount ≤ buf.datacount) :
    (buf.takeTo buf.cursor c).Sound ∧ (buf.takeTo buf.cursor c).content = rest := by
  let buf₁ : GSM0710_Buffer := { buf with received_count := buf.received_count + 1 }
  have hc₁ : c.At buf₁.data buf₁.writep rest := hc
  obtain ⟨hsound, hcontent⟩ := commit_spec hc₁ hle
  exact ⟨⟨hsound.readp, hsound.datacount, hsound.writep⟩, hcontent⟩

/-- **The code scans.** A call ends as the scan of the content does, and leaves what that leaves. -/
theorem get_frame_spec (channels : ChannelList) (h : buf.Sound) (levels : ℕ) :
    (∃ fault, scanFrames channels levels buf.flag_found buf.content = .error fault ∧
      gsm0710_base_buffer_get_frame channels levels buf = .error fault) ∨
    ∃ r buf', scanFrames channels levels buf.flag_found buf.content = .ok r ∧
      gsm0710_base_buffer_get_frame channels levels buf = .ok (r.frame, buf') ∧
      buf.Leaves buf' r := by
  induction levels generalizing buf with
  | zero => exact .inl ⟨_, rfl, rfl⟩
  | succ levels ih =>
    rw [scanFrames, gsm0710_base_buffer_get_frame]
    dsimp only
    obtain ⟨hfound, hsync, hsound, hcontent, hdropped⟩ |
      ⟨buf', hbuf', hfound, hsync, hsound, hfound', hdropped⟩ := sync_spec h
    · rw [hsync, if_pos hfound]
      exact .inr ⟨_, _, rfl, rfl, hsound, hfound, hcontent, hdropped⟩
    · rw [hsync, if_neg (by simp [hfound]), hbuf']
      dsimp only
      obtain ⟨channel, hscan, hextract⟩ | ⟨e, hextract, he⟩ := extract_spec hsound.at_cursor
      · rw [hscan, hextract]
        exact .inl ⟨_, rfl, rfl⟩
      · rw [hextract]
        generalize scan channels buf'.content = found at he
        rw [length_content] at he
        cases he with
        | notEnough => exact .inr ⟨_, _, rfl, rfl, hsound, hfound', rfl, hdropped⟩
        | @dropped c rest hc hle =>
          obtain ⟨hsound₁, hcontent₁⟩ := dropTo_spec hc (hc.length.trans_le hle)
          have hfound₁ : (buf'.dropTo buf'.cursor c).flag_found = false := rfl
          have hdropped₁ : (buf'.dropTo buf'.cursor c).dropped_count = buf.dropped_count + 1 :=
            congrArg (· + 1) hdropped
          obtain ⟨fault, hfault, hframe⟩ | ⟨r, buf₂, hr, hframe, hleaves⟩ := ih hsound₁
          · rw [hfound₁, hcontent₁] at hfault
            exact .inl ⟨fault, by dsimp only; rw [hfault]; rfl, hframe⟩
          · rw [hfound₁, hcontent₁] at hr
            refine .inr ⟨{ r with dropped := r.dropped + 1 }, buf₂, by dsimp only; rw [hr]; rfl,
              hframe, hleaves.sound, hleaves.found, hleaves.content, ?_⟩
            rw [hleaves.dropped, hdropped₁, Nat.add_assoc, Nat.add_comm 1]
        | @frame f c rest hc hle =>
          obtain ⟨hsound₁, hcontent₁⟩ := takeTo_spec hc (hc.length.trans_le hle)
          exact .inr ⟨_, _, rfl, rfl, hsound₁, rfl, hcontent₁, hdropped⟩

end GSM0710_Buffer

end MtkHardware.Gsm0710
