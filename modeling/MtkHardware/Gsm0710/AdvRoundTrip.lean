import MtkHardware.Gsm0710.AdvDecoder

/-!
# The Round Trip in Advanced Mode

What `write_frame` writes for a list of frames in advanced mode goes through the buffer, cut into
chunks at any place, and `gsm0710_advanced_buffer_get_frame` returns the same frames.

Behind any byte of the stream the decoder knows how far it has come: it looks for the next start
flag, or it has stored a first part of the frame, and the rest of it is still to come; and where it
has seen an escape the next byte is the complement of the one that is meant (`AdvStream`). One byte
keeps this (`AdvStream.feed`), and so does a call.
-/

namespace MtkHardware.Gsm0710

open RingBuffer

/-- What `write_frame` writes for a frame in advanced mode, with no P/F bit pending. -/
def advBytes (channels : ChannelList) (f : GSM0710_Frame) : List UInt8 :=
  (write_frame channels true false f.channel f.data f.control).1

/-- The frames of the round trip. The decoder stores the payload and three more bytes. -/
structure AdvSendable (channels : ChannelList) (f : GSM0710_Frame) : Prop where
  channel : f.channel.toNat < channels.GSM0710_MAX_CHANNELS
  control : isUI f.control = false
  negotiated : f.data.length ≤ channels.negotiated_N1 f.channel.toNat
  fits : f.data.length + 3 ≤ GSM0710_BUFFER_SIZE

/-- The bytes of a frame between the flags, before they are escaped. -/
def advRaw (f : GSM0710_Frame) : List UInt8 :=
  address f.channel :: f.control :: (f.data ++ [frame_calc_crc [address f.channel, f.control]])

variable {channels : ChannelList} {f : GSM0710_Frame} {frames : List GSM0710_Frame}
  {s : AdvState} {b : UInt8} {l later : List UInt8}

theorem length_advRaw (f : GSM0710_Frame) : (advRaw f).length = f.data.length + 3 := by
  simp [advRaw]

/-! ### Escapes -/

theorem fill_adv_frame_buf_append (l₁ l₂ : List UInt8) :
    fill_adv_frame_buf (l₁ ++ l₂) = fill_adv_frame_buf l₁ ++ fill_adv_frame_buf l₂ := by
  induction l₁ with
  | nil => rfl
  | cons b l₁ ih =>
    rw [List.cons_append, fill_adv_frame_buf, fill_adv_frame_buf, ih]
    split_ifs <;> rfl

theorem AdvSendable.bytes (h : AdvSendable channels f) : advBytes channels f =
    GSM0710_FRAME_ADV_FLAG :: (fill_adv_frame_buf (advRaw f) ++ [GSM0710_FRAME_ADV_FLAG]) := by
  have htake : f.data.take (channels.negotiated_N1 f.channel.toNat) = f.data :=
    List.take_of_length_le h.negotiated
  have hraw : advRaw f = [address f.channel, f.control] ++
      (f.data ++ [frame_calc_crc [address f.channel, f.control]]) := rfl
  rw [hraw, fill_adv_frame_buf_append, fill_adv_frame_buf_append]
  simp [advBytes, write_frame, controlField, header, htake]

theorem complement_ne_flag (hb : b ∈ GSM0710_FRAME_ADV_ESCAPED_SYMS) :
    b ^^^ GSM0710_FRAME_ADV_ESC_COPML ≠ GSM0710_FRAME_ADV_FLAG := by
  have hall : ∀ b ∈ GSM0710_FRAME_ADV_ESCAPED_SYMS,
      b ^^^ GSM0710_FRAME_ADV_ESC_COPML ≠ GSM0710_FRAME_ADV_FLAG := by decide +kernel
  exact hall b hb

theorem complement_complement (b : UInt8) :
    b ^^^ GSM0710_FRAME_ADV_ESC_COPML ^^^ GSM0710_FRAME_ADV_ESC_COPML = b := by
  rw [UInt8.xor_assoc, UInt8.xor_self, UInt8.xor_zero]

theorem ne_of_not_escaped (hb : b ∉ GSM0710_FRAME_ADV_ESCAPED_SYMS) :
    b ≠ GSM0710_FRAME_ADV_FLAG ∧ b ≠ GSM0710_FRAME_ADV_ESC := by
  constructor
  · rintro rfl
    exact hb (by decide)
  · rintro rfl
    exact hb (by decide)

/-! ### How far the decoder has come -/

/-- What the decoder knows, and the bytes that are still to come, with the frames that they make. -/
inductive AdvStream (channels : ChannelList) :
    List GSM0710_Frame → AdvState → List UInt8 → Prop
  | idle {frames : List GSM0710_Frame} {s : AdvState} (hfound : s.flag_found = false) :
      AdvStream channels frames s (frames.flatMap (advBytes channels))
  | stored {f : GSM0710_Frame} {frames : List GSM0710_Frame} {s : AdvState} {q : List UInt8}
      (hfound : s.flag_found = true) (hesc : s.adv_found_esc = false)
      (hraw : advRaw f = copy s.adv_data 0 s.adv_length ++ q) :
      AdvStream channels (f :: frames) s (fill_adv_frame_buf q ++
        GSM0710_FRAME_ADV_FLAG :: frames.flatMap (advBytes channels))
  | escaped {f : GSM0710_Frame} {frames : List GSM0710_Frame} {s : AdvState} {b : UInt8}
      {q : List UInt8} (hfound : s.flag_found = true) (hesc : s.adv_found_esc = true)
      (hb : b ∈ GSM0710_FRAME_ADV_ESCAPED_SYMS)
      (hraw : advRaw f = copy s.adv_data 0 s.adv_length ++ b :: q) :
      AdvStream channels (f :: frames) s ((b ^^^ GSM0710_FRAME_ADV_ESC_COPML) ::
        (fill_adv_frame_buf q ++ GSM0710_FRAME_ADV_FLAG :: frames.flatMap (advBytes channels)))

theorem AdvSendable.close (h : AdvSendable channels f)
    (hraw : advRaw f = copy s.adv_data 0 s.adv_length) :
    s.close = ({ s with flag_found := false }, some f) := by
  have hlength : s.adv_length = 2 + f.data.length + 1 := by
    have hlengths := congrArg List.length hraw
    rw [length_advRaw, length_copy] at hlengths
    omega
  rw [hlength, copy_add, copy_add, Nat.zero_add, Nat.zero_add] at hraw
  have hsplit : advRaw f = [address f.channel, f.control] ++ f.data ++
      [frame_calc_crc [address f.channel, f.control]] := rfl
  rw [hsplit] at hraw
  obtain ⟨hfront, hlast⟩ := List.append_inj' hraw (by simp)
  obtain ⟨hfields, hdata⟩ := List.append_inj hfront (by simp)
  obtain ⟨haddress, hcontrol⟩ :
      s.adv_data 0 = address f.channel ∧ s.adv_data 1 = f.control := by
    simpa [copy, List.range_succ, eq_comm] using hfields
  have hfcs : s.adv_data (2 + f.data.length) =
      frame_calc_crc [address f.channel, f.control] := by
    simpa [copy, eq_comm] using hlast
  have hchannel : f.channel.toNat < 64 := by
    have hmax := channels.maxChannels
    have hlt := h.channel
    omega
  have hframe : advFrame s.adv_data s.adv_length = f := by
    have hn : s.adv_length - 3 = f.data.length := by omega
    rw [advFrame, haddress, hcontrol, decode_address f.channel hchannel, hn, ← hdata]
  have hcheck : advCheck s.adv_data s.adv_length = goodFcs := by
    have hn : s.adv_length - 1 = 2 + f.data.length := by omega
    have hgood := crc_frame_calc_crc [address f.channel, f.control]
    simp only [List.foldl_cons, List.foldl_nil] at hgood
    simp only [advCheck, hframe, h.control, haddress, hcontrol, hn, hfcs, hgood,
      Bool.false_eq_true, if_false]
  rw [AdvState.close, if_neg (by omega), hcheck, if_neg (not_not.mpr rfl), hframe]

/-- **One byte** of the stream. -/
theorem AdvStream.feed (h : AdvStream channels frames s (b :: l))
    (hsend : ∀ f ∈ frames, AdvSendable channels f) :
    ∃ s' frame, s.feed b = (s', frame) ∧ s'.dropped_count = s.dropped_count ∧
      match frame with
      | none => AdvStream channels frames s' l
      | some f => ∃ frames', frames = f :: frames' ∧ AdvStream channels frames' s' l := by
  generalize hl : b :: l = bytes at h
  cases h with
  | idle hfound =>
    cases frames with
    | nil => cases hl
    | cons f frames =>
      rw [List.flatMap_cons, (hsend f List.mem_cons_self).bytes] at hl
      obtain ⟨rfl, rfl⟩ := List.cons.inj hl
      have hfeed : s.feed GSM0710_FRAME_ADV_FLAG = ({ s with
          flag_found := true, adv_length := 0, adv_found_esc := false }, none) := by
        rw [AdvState.feed, if_pos hfound, AdvState.search, if_pos rfl]
      refine ⟨_, none, hfeed, rfl, ?_⟩
      rw [List.append_eq, List.append_assoc]
      exact .stored rfl rfl rfl
  | @stored f frames _ q hfound hesc hraw =>
    have hf := hsend f List.mem_cons_self
    have hfits := hf.fits
    have hlength : s.adv_length + q.length = f.data.length + 3 := by
      have hlengths := congrArg List.length hraw
      rw [length_advRaw, List.length_append, length_copy] at hlengths
      exact hlengths.symm
    cases q with
    | nil =>
      obtain ⟨rfl, rfl⟩ := List.cons.inj hl
      rw [List.append_nil] at hraw
      have hnonempty : ¬ s.adv_length = 0 := by
        rw [List.length_nil] at hlength
        omega
      have hfeed : s.feed GSM0710_FRAME_ADV_FLAG =
          ({ s with flag_found := false }, some f) := by
        rw [AdvState.feed, if_neg (by simp [hfound]), if_pos ⟨hesc, rfl⟩, if_neg hnonempty,
          hf.close hraw]
      exact ⟨_, some f, hfeed, rfl, frames, rfl, .idle rfl⟩
    | cons c q =>
      have hroom : ¬ GSM0710_BUFFER_SIZE ≤ s.adv_length := by
        rw [List.length_cons] at hlength
        omega
      rw [fill_adv_frame_buf] at hl
      by_cases hc : c ∈ GSM0710_FRAME_ADV_ESCAPED_SYMS
      · rw [if_pos hc] at hl
        obtain ⟨rfl, rfl⟩ := List.cons.inj hl
        have hfeed : s.feed GSM0710_FRAME_ADV_ESC =
            ({ s with adv_found_esc := true }, none) := by
          rw [AdvState.feed, if_neg (by simp [hfound]),
            if_neg fun hand => absurd hand.2 (by decide), if_neg hroom, AdvState.store,
            if_neg (by simp [hesc]), if_pos rfl]
        exact ⟨_, none, hfeed, rfl, .escaped hfound rfl hc hraw⟩
      · rw [if_neg hc] at hl
        obtain ⟨rfl, rfl⟩ := List.cons.inj hl
        obtain ⟨hflag, hnesc⟩ := ne_of_not_escaped hc
        have hfeed : s.feed b = ({ s with
            adv_data := Function.update s.adv_data s.adv_length b
            adv_length := s.adv_length + 1 }, none) := by
          rw [AdvState.feed, if_neg (by simp [hfound]), if_neg fun hand => hflag hand.2,
            if_neg hroom, AdvState.store, if_neg (by simp [hesc]), if_neg hnesc]
        refine ⟨_, none, hfeed, rfl, .stored hfound hesc ?_⟩
        rw [copy_update, List.append_assoc, hraw]
        rfl
  | @escaped f frames _ c q hfound hesc hc hraw =>
    have hfits := (hsend f List.mem_cons_self).fits
    have hroom : ¬ GSM0710_BUFFER_SIZE ≤ s.adv_length := by
      have hlengths := congrArg List.length hraw
      rw [length_advRaw, List.length_append, length_copy, List.length_cons] at hlengths
      omega
    obtain ⟨rfl, rfl⟩ := List.cons.inj hl
    have hfeed : s.feed (c ^^^ GSM0710_FRAME_ADV_ESC_COPML) = ({ s with
        adv_data := Function.update s.adv_data s.adv_length c
        adv_length := s.adv_length + 1
        adv_found_esc := false }, none) := by
      rw [AdvState.feed, if_neg (by simp [hfound]), if_neg (by simp [hesc]), if_neg hroom,
        AdvState.store, if_pos hesc, complement_complement]
    refine ⟨_, none, hfeed, rfl, .stored hfound rfl ?_⟩
    rw [copy_update, List.append_assoc, hraw]
    rfl

theorem AdvStream.enter (h : AdvStream channels frames s (l ++ later)) : s.enter l = l := by
  unfold AdvState.enter
  split_ifs with hstart
  · obtain ⟨hfound, hzero⟩ := hstart
    cases l with
    | nil => rfl
    | cons b l =>
      have hne : b ≠ GSM0710_FRAME_ADV_FLAG := by
        generalize hl : b :: l ++ later = bytes at h
        cases h with
        | idle hfound' => exact absurd (hfound.symm.trans hfound') (by simp)
        | @stored f frames _ q _ _ hraw =>
          rw [hzero] at hraw
          obtain rfl : advRaw f = q := hraw
          rw [advRaw, fill_adv_frame_buf] at hl
          by_cases hc : address f.channel ∈ GSM0710_FRAME_ADV_ESCAPED_SYMS
          · rw [if_pos hc] at hl
            obtain ⟨rfl, -⟩ := List.cons.inj hl
            decide
          · rw [if_neg hc] at hl
            obtain ⟨rfl, -⟩ := List.cons.inj hl
            exact (ne_of_not_escaped hc).1
        | escaped _ _ hb _ =>
          obtain ⟨rfl, -⟩ := List.cons.inj hl
          exact complement_ne_flag hb
      rw [List.dropWhile_cons, if_neg (by simpa using hne)]
  · rfl

theorem AdvStream.feedFirst (h : AdvStream channels frames s (l ++ later))
    (hsend : ∀ f ∈ frames, AdvSendable channels f) :
    ∃ s' frame rest, s.feedFirst l = (s', frame, rest) ∧ s'.dropped_count = s.dropped_count ∧
      match frame with
      | none => rest = [] ∧ AdvStream channels frames s' later
      | some f => ∃ frames', frames = f :: frames' ∧
          AdvStream channels frames' s' (rest ++ later) := by
  induction l generalizing s with
  | nil => exact ⟨s, none, [], rfl, rfl, rfl, h⟩
  | cons b l ih =>
    obtain ⟨s', frame, hfeed, hdropped, hframe⟩ := AdvStream.feed h hsend
    cases frame with
    | none =>
      obtain ⟨s'', frame, rest, hfirst, hdropped', hframe'⟩ := ih hframe
      refine ⟨s'', frame, rest, ?_, hdropped'.trans hdropped, hframe'⟩
      rw [AdvState.feedFirst_cons_of_none hfeed, hfirst]
    | some f =>
      exact ⟨s', some f, l, AdvState.feedFirst_cons_of_some hfeed, hdropped, hframe⟩

theorem AdvStream.nil_of_done (h : AdvStream channels frames s [])
    (hsend : ∀ f ∈ frames, AdvSendable channels f) : frames = [] := by
  generalize hl : ([] : List UInt8) = bytes at h
  cases h with
  | idle _ =>
    cases frames with
    | nil => rfl
    | cons f frames =>
      rw [List.flatMap_cons, (hsend f List.mem_cons_self).bytes] at hl
      cases hl
  | stored _ _ _ => exact absurd hl (by simp)
  | escaped _ _ _ _ => cases hl

/-! ### The round trip -/

/-- What is pending is in the buffer, or still to be written. -/
structure AdvPending (channels : ChannelList) (dropped : ℕ) (frames : List GSM0710_Frame)
    (later : List UInt8) (buf : GSM0710_Buffer) : Prop where
  sound : buf.Sound
  sendable : ∀ f ∈ frames, AdvSendable channels f
  stream : AdvStream channels frames buf.advState (buf.content ++ later)
  dropped : buf.dropped_count = dropped

theorem resumes_advDecoder (channels : ChannelList) (dropped : ℕ) :
    Resumes advDecoder (AdvPending channels dropped) where
  write := by
    intro frames chunk later buf h
    have hsound := h.sound.put chunk
    have hstream := h.stream
    rw [← List.append_assoc, ← h.sound.content_put chunk] at hstream
    obtain ⟨data, writep, datacount, hput⟩ := buf.exists_put_eq chunk
    rw [hput] at hsound hstream ⊢
    exact ⟨⟨hsound.readp, hsound.datacount, hsound.writep⟩, h.sendable, hstream, h.dropped⟩
  getFrame := by
    intro frames later buf h
    obtain ⟨frame, buf', hget, hsound, hfirst⟩ := GSM0710_Buffer.advDecoder_spec h.sound
    rw [h.stream.enter] at hfirst
    obtain ⟨s', frame', rest, hfirst', hdropped, hframe⟩ :=
      AdvStream.feedFirst h.stream h.sendable
    rw [hfirst] at hfirst'
    obtain ⟨rfl, rfl, rfl⟩ : buf'.advState = s' ∧ frame = frame' ∧ buf'.content = rest := by
      simpa using hfirst'
    have hdropped' : buf'.dropped_count = dropped := hdropped.trans h.dropped
    refine ⟨frame, buf', hget, ?_⟩
    cases frame with
    | none =>
      obtain ⟨hnil, hstream⟩ := hframe
      refine ⟨⟨hsound, h.sendable, by rwa [hnil], hdropped'⟩, ?_, ?_⟩
      · rw [GSM0710_Buffer.free, GSM0710_Buffer.datacount_of_content_nil hnil]
        decide
      · rintro rfl
        exact hstream.nil_of_done h.sendable
    | some f =>
      obtain ⟨frames', rfl, hstream⟩ := hframe
      exact ⟨frames', rfl, hsound, fun f hf => h.sendable f (List.mem_cons_of_mem _ hf), hstream,
        hdropped'⟩

/-- **The round trip in advanced mode**: as long as the bytes that are written to the buffer, in
whatever chunks, are those of the frames, what the decoder returns are these frames in their order,
none is dropped, and the next call does not fault. When it returns `NULL` there is room for more,
and once all bytes have been written all frames have been returned. -/
theorem adv_round_trip (channels : ChannelList) {frames : List GSM0710_Frame}
    (hsend : ∀ f ∈ frames, AdvSendable channels f) {buf₀ buf : GSM0710_Buffer}
    (hidle : buf₀.Idle) {ops : List MuxOp} {os : List MuxOutput}
    (hrun : (bufferMachine advDecoder).Runs buf₀ ops buf os)
    (hwritten : writtenBytes os <+: frames.flatMap (advBytes channels)) :
    returnedFrames os <+: frames ∧ buf.dropped_count = buf₀.dropped_count ∧
      ∃ frame buf', advDecoder buf = .ok (frame, buf') ∧
        (frame = none → 0 < buf'.free ∧
          (writtenBytes os = frames.flatMap (advBytes channels) → returnedFrames os = frames)) := by
  refine (resumes_advDecoder channels buf₀.dropped_count).round_trip ?_ (fun h => h.dropped) hrun
    hwritten
  refine ⟨hidle.sound, hsend, ?_, rfl⟩
  rw [hidle.content]
  exact .idle hidle.flag_found

/-- A frame with a flag and an escape in its payload, cut between an escape and its complement. -/
theorem adv_round_trip_cutEscape :
    let channels : ChannelList :=
      { GSM0710_MAX_CHANNELS := 32, maxChannels := .inl rfl, negotiated_N1 := fun _ => 1509 }
    let frame : GSM0710_Frame :=
      { channel := 1, control := GSM0710_TYPE_UIH
        data := [GSM0710_FRAME_ADV_FLAG, GSM0710_FRAME_ADV_ESC] }
    let bytes := advBytes channels frame
    ∃ buf os, (bufferMachine advDecoder).Runs {}
        [.write (bytes.take 4), .getFrame, .write (bytes.drop 4), .getFrame] buf os ∧
      writtenBytes os = [frame].flatMap (advBytes channels) ∧
      returnedFrames os <+: [frame] ∧ buf.dropped_count = 0 ∧
      ∃ frame' buf', advDecoder buf = .ok (frame', buf') ∧ (frame' = none → 0 < buf'.free ∧
        (writtenBytes os = [frame].flatMap (advBytes channels) → returnedFrames os = [frame])) := by
  intro channels frame bytes
  obtain ⟨buf, os, hrun, hos⟩ : ∃ buf os, (bufferMachine advDecoder).Runs {}
      [.write (bytes.take 4), .getFrame, .write (bytes.drop 4), .getFrame] buf os ∧
      writtenBytes os = [frame].flatMap (advBytes channels) :=
    Machine.exists_run_of_shows (by decide +kernel)
  have hsend : ∀ f ∈ [frame], AdvSendable channels f := by
    intro f hf
    obtain rfl := List.mem_singleton.mp hf
    exact ⟨by decide, by decide, by decide, by decide⟩
  exact ⟨buf, os, hrun, hos, adv_round_trip channels hsend
    ⟨GSM0710_Buffer.sound_init, rfl, rfl⟩ hrun (hos ▸ List.prefix_refl _)⟩

end MtkHardware.Gsm0710
