import MtkHardware.Gsm0710.BaseDecoder

/-!
# The Round Trip in Basic Mode

What `write_frame` writes for a list of frames goes through the buffer, cut into chunks at any
place, and `gsm0710_base_buffer_get_frame` returns the same frames.

A scan of a whole frame finds it (`scan_frame`), and a scan of a part of it finds nothing yet
(`scan_part`): the header is complete once five bytes are there, and from then on the length is
known. So between two calls the buffer holds a part of what is still to come, with the start flag
of the next frame passed or not (`BasePending`), and every call keeps it like this.
-/

namespace MtkHardware.Gsm0710

/-- What `write_frame` writes for a frame in basic mode, with no P/F bit pending. -/
def baseBytes (channels : ChannelList) (f : GSM0710_Frame) : List UInt8 :=
  (write_frame channels false false f.channel f.data f.control).1

structure BaseSendable (channels : ChannelList) (f : GSM0710_Frame) : Prop where
  channel : f.channel.toNat < channels.GSM0710_MAX_CHANNELS
  control : isUI f.control = false
  negotiated : f.data.length ≤ channels.negotiated_N1 f.channel.toNat
  fits : (baseBytes channels f).length < GSM0710_BUFFER_SIZE

/-- The fields of a frame behind the start flag and before the payload. -/
def baseFields (f : GSM0710_Frame) : List UInt8 := header false f.channel f.control f.data.length

def baseTrailer (f : GSM0710_Frame) : List UInt8 :=
  [frame_calc_crc (baseFields f), GSM0710_FRAME_FLAG]

section

variable {channels : ChannelList} {f : GSM0710_Frame} {l q : List UInt8}

theorem ChannelList.channel_lt (h : f.channel.toNat < channels.GSM0710_MAX_CHANNELS) :
    f.channel.toNat < 64 := by
  rcases channels.maxChannels with hmax | hmax <;> omega

theorem length_baseFields (f : GSM0710_Frame) :
    3 ≤ (baseFields f).length ∧ (baseFields f).length ≤ 4 := by
  simp only [baseFields, header, lengthField]
  split_ifs <;> simp at *

theorem BaseSendable.bytes (h : BaseSendable channels f) : baseBytes channels f =
    GSM0710_FRAME_FLAG :: (baseFields f ++ (f.data ++ baseTrailer f)) := by
  have htake : f.data.take (channels.negotiated_N1 f.channel.toNat) = f.data :=
    List.take_of_length_le h.negotiated
  simp [baseBytes, write_frame, controlField, htake, baseFields, baseTrailer]

theorem BaseSendable.length (h : BaseSendable channels f) :
    (baseFields f ++ (f.data ++ baseTrailer f)).length + 1 < GSM0710_BUFFER_SIZE := by
  have hfits := h.fits
  rwa [h.bytes, List.length_cons] at hfits

/-! ### Scanning one frame -/

theorem BaseSendable.scanHeader (h : BaseSendable channels f)
    (hlength : 5 ≤ (baseFields f ++ q).length) :
    ∃ last, Gsm0710.scanHeader (baseFields f ++ q) = some
      ({ channel := f.channel, control := f.control, length := f.data.length,
         fcs := (baseFields f).foldl crc 0xFF }, last :: q) := by
  have hdecode := decode_address f.channel (ChannelList.channel_lt h.channel)
  by_cases hshort : f.data.length ≤ 127
  · obtain ⟨b, hfield, hlast, hlow⟩ := lengthField_short hshort
    have hfields : baseFields f = [address f.channel, f.control, b] := by
      simp [baseFields, header, hfield]
    refine ⟨b, ?_⟩
    simp [hfields, Gsm0710.scanHeader, hdecode, hlast, hlow]
  · have hsize := h.length
    have hmax : f.data.length < 2 ^ 15 := by
      simp only [List.length_append, GSM0710_BUFFER_SIZE] at hsize
      omega
    obtain ⟨b₁, b₂, hfield, hlast, hlow⟩ := lengthField_long (by omega) hmax
    have hfields : baseFields f = [address f.channel, f.control, b₁, b₂] := by
      simp [baseFields, header, hfield]
    refine ⟨b₂, ?_⟩
    simp [hfields, Gsm0710.scanHeader, hdecode, hlast, hlow]

theorem BaseSendable.scan_fields (h : BaseSendable channels f)
    (hlength : 5 ≤ (baseFields f ++ q).length) : scan channels (baseFields f ++ q) =
      if q.length < 2 + f.data.length then .short
      else scanBody { channel := f.channel, control := f.control, length := f.data.length,
                      fcs := (baseFields f).foldl crc 0xFF } q := by
  obtain ⟨last, hheader⟩ := h.scanHeader hlength
  have hchannel := h.channel
  have hnegotiated := h.negotiated
  rw [scan, if_neg (by omega), hheader]
  dsimp only
  rw [if_neg (by omega), if_neg (by omega), List.length_cons, List.tail_cons]
  exact if_congr (by omega) rfl rfl

theorem BaseSendable.scan_frame (h : BaseSendable channels f) (rest : List UInt8) :
    scan channels (baseFields f ++ (f.data ++ baseTrailer f) ++ rest) = .frame f rest := by
  obtain ⟨hle, -⟩ := length_baseFields f
  rw [List.append_assoc, h.scan_fields (by simp [baseTrailer]; omega),
    if_neg (by simp [baseTrailer]; omega)]
  have htake : (f.data ++ baseTrailer f ++ rest).take f.data.length = f.data := by
    rw [List.append_assoc, List.take_left' rfl]
  have hdrop : (f.data ++ baseTrailer f ++ rest).drop f.data.length =
      frame_calc_crc (baseFields f) :: GSM0710_FRAME_FLAG :: rest := by
    rw [List.append_assoc, List.drop_left' rfl]
    rfl
  have hgood : crc ((baseFields f).foldl crc 0xFF) (frame_calc_crc (baseFields f)) = goodFcs :=
    crc_frame_calc_crc (baseFields f)
  simp only [scanBody, htake, hdrop, h.control, Bool.false_eq_true, if_false, hgood, and_self,
    if_true]

theorem BaseSendable.scan_part (h : BaseSendable channels f)
    (hfront : l <+: baseFields f ++ (f.data ++ baseTrailer f))
    (hlt : l.length < (baseFields f ++ (f.data ++ baseTrailer f)).length) :
    scan channels l = .short := by
  by_cases hlength : l.length < 5
  · rw [scan, if_pos hlength]
  · obtain ⟨-, hle⟩ := length_baseFields f
    obtain ⟨q, rfl⟩ : ∃ q, l = baseFields f ++ q := by
      obtain ⟨q, hq⟩ := List.prefix_of_prefix_length_le (List.prefix_append ..) hfront
        (show (baseFields f).length ≤ l.length by omega)
      exact ⟨q, hq.symm⟩
    rw [h.scan_fields (by omega), if_pos]
    simp only [List.length_append, baseTrailer, List.length_cons, List.length_nil] at hlt
    omega

/-! ### Scanning a stream -/

/-- What is still to be scanned is of the stream: from the start flag of the next frame on, or from
behind it. -/
def BaseStream (channels : ChannelList) (frames : List GSM0710_Frame) (found : Bool)
    (l : List UInt8) : Prop :=
  if found then
    ∃ f frames', frames = f :: frames' ∧
      l = baseFields f ++ (f.data ++ baseTrailer f) ++ frames'.flatMap (baseBytes channels)
  else l = frames.flatMap (baseBytes channels)

theorem head_baseFields (f : GSM0710_Frame) : ∃ b l, baseFields f = b :: l ∧
    b ≠ GSM0710_FRAME_FLAG :=
  ⟨_, _, rfl, address_ne_flag f.channel⟩

theorem dropWhile_flag (hfront : l <+: baseFields f ++ q) :
    l.dropWhile (· == GSM0710_FRAME_FLAG) = l := by
  obtain ⟨b, fields, hfields, hne⟩ := head_baseFields f
  rw [hfields] at hfront
  cases l with
  | nil => rfl
  | cons b' l =>
    obtain ⟨rfl, -⟩ := List.cons_prefix_cons.mp hfront
    rw [List.dropWhile_cons, if_neg (by simpa using hne)]

variable {frames : List GSM0710_Frame} {later : List UInt8}

theorem scanFrames_found (hsend : ∀ f ∈ frames, BaseSendable channels f) {levels : ℕ}
    (hlevels : 0 < levels) {found : Bool} {l₀ : List UInt8}
    (hsync : sync found l₀ = some (l.dropWhile (· == GSM0710_FRAME_FLAG)))
    (hstream : BaseStream channels frames true (l ++ later)) :
    ∃ r, scanFrames channels levels found l₀ = .ok r ∧ r.dropped = 0 ∧
      match r.frame with
      | some f => ∃ frames', frames = f :: frames' ∧
          BaseStream channels frames' r.found (r.rest ++ later)
      | none => BaseStream channels frames r.found (r.rest ++ later) ∧
          r.rest.length < GSM0710_BUFFER_SIZE ∧ (later = [] → frames = []) := by
  obtain ⟨f, frames', rfl, hl⟩ := hstream
  have hf := hsend f List.mem_cons_self
  obtain ⟨levels, rfl⟩ := Nat.exists_eq_succ_of_ne_zero hlevels.ne'
  have hsize := hf.length
  by_cases hlt : l.length < (baseFields f ++ (f.data ++ baseTrailer f)).length
  · -- a part of the frame
    have hfront : l <+: baseFields f ++ (f.data ++ baseTrailer f) :=
      List.prefix_of_prefix_length_le ⟨later, rfl⟩ ⟨_, hl.symm⟩ hlt.le
    rw [dropWhile_flag hfront] at hsync
    rw [scanFrames, hsync]
    dsimp only
    rw [hf.scan_part hfront hlt]
    refine ⟨_, rfl, rfl, ⟨f, frames', rfl, hl⟩, (by dsimp only; omega), fun hlater => ?_⟩
    rw [hlater, List.append_nil] at hl
    rw [hl, List.length_append] at hlt
    omega
  · obtain ⟨rest, rfl⟩ := List.prefix_of_prefix_length_le
      (show baseFields f ++ (f.data ++ baseTrailer f) <+: l ++ later from ⟨_, hl.symm⟩)
      ⟨later, rfl⟩ (by omega)
    rw [List.append_assoc, List.append_cancel_left_eq] at hl
    have hfront : baseFields f ++ (f.data ++ baseTrailer f) ++ rest <+:
        baseFields f ++ (f.data ++ baseTrailer f ++ rest) :=
      ⟨[], by simp⟩
    rw [dropWhile_flag hfront] at hsync
    rw [scanFrames, hsync]
    dsimp only
    rw [hf.scan_frame]
    exact ⟨_, rfl, rfl, frames', rfl, hl⟩

/-- **One scan of the stream** keeps what is to be scanned. -/
theorem scanFrames_stream (hsend : ∀ f ∈ frames, BaseSendable channels f) {levels : ℕ}
    (hlevels : 0 < levels) {found : Bool}
    (hstream : BaseStream channels frames found (l ++ later)) :
    ∃ r, scanFrames channels levels found l = .ok r ∧ r.dropped = 0 ∧
      match r.frame with
      | some f => ∃ frames', frames = f :: frames' ∧
          BaseStream channels frames' r.found (r.rest ++ later)
      | none => BaseStream channels frames r.found (r.rest ++ later) ∧
          r.rest.length < GSM0710_BUFFER_SIZE ∧ (later = [] → frames = []) := by
  cases found with
  | true => exact scanFrames_found hsend hlevels rfl hstream
  | false =>
    change l ++ later = _ at hstream
    cases frames with
    | nil =>
      obtain ⟨rfl, rfl⟩ := List.append_eq_nil_iff.mp hstream
      obtain ⟨levels, rfl⟩ := Nat.exists_eq_succ_of_ne_zero hlevels.ne'
      exact ⟨_, rfl, rfl, rfl, by decide, fun _ => rfl⟩
    | cons f frames' =>
      have hbytes := (hsend f List.mem_cons_self).bytes
      cases l with
      | nil =>
        obtain ⟨levels, rfl⟩ := Nat.exists_eq_succ_of_ne_zero hlevels.ne'
        refine ⟨_, rfl, rfl, hstream, by decide, fun hlater => ?_⟩
        rw [hlater, List.flatMap_cons, hbytes] at hstream
        simp at hstream
      | cons b l =>
        -- the next byte is the start flag
        rw [List.flatMap_cons, hbytes] at hstream
        obtain ⟨rfl, hl⟩ := List.cons.inj hstream
        exact scanFrames_found hsend hlevels rfl ⟨f, frames', rfl, hl⟩

end

/-! ### The round trip -/

/-- What is pending is in the buffer, or still to be written. -/
structure BasePending (channels : ChannelList) (dropped : ℕ) (frames : List GSM0710_Frame)
    (later : List UInt8) (buf : GSM0710_Buffer) : Prop where
  sound : buf.Sound
  sendable : ∀ f ∈ frames, BaseSendable channels f
  stream : BaseStream channels frames buf.flag_found (buf.content ++ later)
  dropped : buf.dropped_count = dropped

theorem resumes_baseDecoder (channels : ChannelList) (dropped : ℕ) :
    Resumes (baseDecoder channels) (BasePending channels dropped) where
  write := by
    intro frames chunk later buf h
    have hsound := h.sound.put chunk
    have hstream := h.stream
    rw [← List.append_assoc, ← h.sound.content_put chunk] at hstream
    obtain ⟨data, writep, datacount, hput⟩ := buf.exists_put_eq chunk
    rw [hput] at hsound hstream ⊢
    exact ⟨⟨hsound.readp, hsound.datacount, hsound.writep⟩, h.sendable, hstream, h.dropped⟩
  getFrame := by
    intro frames later buf h
    obtain ⟨r, hscan, hzero, hframe⟩ := scanFrames_stream h.sendable
      (show 0 < MAX_RESYNC_GET_FRAME_COUNT by decide) h.stream
    obtain ⟨fault, hfault, -⟩ | ⟨r', buf', hr', hget, hleaves⟩ :=
      GSM0710_Buffer.get_frame_spec channels h.sound MAX_RESYNC_GET_FRAME_COUNT
    · rw [hscan] at hfault
      cases hfault
    · rw [hscan] at hr'
      cases hr'
      have hdropped : buf'.dropped_count = dropped := by
        rw [hleaves.dropped, hzero, h.dropped, Nat.add_zero]
      refine ⟨r.frame, buf', hget, ?_⟩
      rw [← hleaves.found, ← hleaves.content] at hframe
      cases hr : r.frame with
      | none =>
        rw [hr] at hframe
        obtain ⟨hstream, hlt, hdone⟩ := hframe
        rw [GSM0710_Buffer.length_content] at hlt
        refine ⟨⟨hleaves.sound, h.sendable, hstream, hdropped⟩, ?_, hdone⟩
        rw [GSM0710_Buffer.free]
        omega
      | some f =>
        rw [hr] at hframe
        obtain ⟨frames', rfl, hstream⟩ := hframe
        exact ⟨frames', rfl, hleaves.sound, fun f hf => h.sendable f (List.mem_cons_of_mem _ hf),
          hstream, hdropped⟩

/-- **The round trip in basic mode**: as long as the bytes that are written to the buffer, in
whatever chunks, are those of the frames, what the decoder returns are these frames in their order,
none is dropped, and the next call does not fault. When it returns `NULL` there is room for more,
and once all bytes have been written all frames have been returned. -/
theorem base_round_trip (channels : ChannelList) {frames : List GSM0710_Frame}
    (hsend : ∀ f ∈ frames, BaseSendable channels f) {buf₀ buf : GSM0710_Buffer}
    (hidle : buf₀.Idle) {ops : List MuxOp} {os : List MuxOutput}
    (hrun : (bufferMachine (baseDecoder channels)).Runs buf₀ ops buf os)
    (hwritten : writtenBytes os <+: frames.flatMap (baseBytes channels)) :
    returnedFrames os <+: frames ∧ buf.dropped_count = buf₀.dropped_count ∧
      ∃ frame buf', baseDecoder channels buf = .ok (frame, buf') ∧
        (frame = none → 0 < buf'.free ∧
          (writtenBytes os = frames.flatMap (baseBytes channels) →
            returnedFrames os = frames)) := by
  refine (resumes_baseDecoder channels buf₀.dropped_count).round_trip ?_ (fun h => h.dropped) hrun
    hwritten
  refine ⟨hidle.sound, hsend, ?_, rfl⟩
  rw [hidle.content, hidle.flag_found]
  rfl

/-- A frame with a flag in its payload, in two chunks. -/
theorem base_round_trip_twoChunks :
    let channels : ChannelList :=
      { GSM0710_MAX_CHANNELS := 32, maxChannels := .inl rfl, negotiated_N1 := fun _ => 1509 }
    let frame : GSM0710_Frame :=
      { channel := 1, control := GSM0710_TYPE_UIH, data := [GSM0710_FRAME_FLAG, 0x41] }
    let bytes := baseBytes channels frame
    ∃ buf os, (bufferMachine (baseDecoder channels)).Runs {}
        [.write (bytes.take 5), .getFrame, .write (bytes.drop 5), .getFrame] buf os ∧
      writtenBytes os = [frame].flatMap (baseBytes channels) ∧
      returnedFrames os <+: [frame] ∧ buf.dropped_count = 0 ∧
      ∃ frame' buf', baseDecoder channels buf = .ok (frame', buf') ∧
        (frame' = none → 0 < buf'.free ∧
          (writtenBytes os = [frame].flatMap (baseBytes channels) →
            returnedFrames os = [frame])) := by
  intro channels frame bytes
  obtain ⟨buf, os, hrun, hos⟩ : ∃ buf os, (bufferMachine (baseDecoder channels)).Runs {}
      [.write (bytes.take 5), .getFrame, .write (bytes.drop 5), .getFrame] buf os ∧
      writtenBytes os = [frame].flatMap (baseBytes channels) :=
    Machine.exists_run_of_shows (by decide +kernel)
  have hsend : ∀ f ∈ [frame], BaseSendable channels f := by
    intro f hf
    obtain rfl := List.mem_singleton.mp hf
    exact ⟨by decide, by decide, by decide, by decide +kernel⟩
  exact ⟨buf, os, hrun, hos, base_round_trip channels hsend
    ⟨GSM0710_Buffer.sound_init, rfl, rfl⟩ hrun (hos ▸ List.prefix_refl _)⟩

end MtkHardware.Gsm0710
