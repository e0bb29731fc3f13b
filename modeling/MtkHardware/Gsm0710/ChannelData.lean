import MtkHardware.Gsm0710.AdvRoundTrip
import MtkHardware.Gsm0710.BaseRoundTrip

/-!
# The Data of a Channel

What is read from a pseudo terminal is cut into frames of at most `negotiated_N1` bytes, and a
frame that the serial device does not take is written again, five times at most. The frames carry
the bytes in their order, without those that are left (`ChannelFrames`), so that they come out of
the decoder of the peer, however the stream is cut on the way (`channel_data_delivered`).
-/

namespace MtkHardware.Gsm0710

def GSM0710_WRITE_RETRIES : ℕ := 5

/-- What a call of `write_frame` returns. -/
def lastWritten (channels : ChannelList) (channel : UInt8) (buf : List UInt8) (wrote : Bool) : ℕ :=
  if wrote then min (channels.negotiated_N1 channel.toNat) buf.length else 0

def retries (last i : ℕ) : ℕ := if last = 0 then i + 1 else i

/-- What `handle_channel_data` writes, what remains of the data, and `uih_pf_bit_received` then.
The list says which of the calls of `write_frame` write their frame; the others write nothing, and
the calls behind the list write theirs. -/
def handle_channel_data (channels : ChannelList) (cmux_mode : Bool) (channel : UInt8)
    (writes : List Bool) (i : ℕ) (uih_pf_bit_received : Bool) (buf : List UInt8) :
    List UInt8 × List UInt8 × Bool :=
  if _h : buf = [] ∨ GSM0710_WRITE_RETRIES ≤ i then ([], buf, uih_pf_bit_received)
  else
    let frame := write_frame channels cmux_mode uih_pf_bit_received channel buf GSM0710_TYPE_UIH
    let last := lastWritten channels channel buf (writes.headD true)
    let rest := handle_channel_data channels cmux_mode channel writes.tail (retries last i) frame.2
      (buf.drop last)
    (bif writes.headD true then frame.1 ++ rest.1 else rest.1, rest.2)
  termination_by buf.length + (GSM0710_WRITE_RETRIES - i)
  decreasing_by
    have hlength := List.length_pos_iff.mpr (not_or.mp _h).1
    have _ := (not_or.mp _h).2
    rw [List.length_drop, retries]
    split_ifs <;> omega

/-- What `write_frame` writes for a frame in either mode, with no P/F bit pending. -/
def frameBytes (channels : ChannelList) (cmux_mode : Bool) (f : GSM0710_Frame) : List UInt8 :=
  (write_frame channels cmux_mode false f.channel f.data f.control).1

def muxDecoder (channels : ChannelList) (cmux_mode : Bool) : Decoder :=
  if cmux_mode then advDecoder else baseDecoder channels

structure ChannelFrame (channels : ChannelList) (channel : UInt8) (f : GSM0710_Frame) : Prop where
  control : f.control = GSM0710_TYPE_UIH ∨ f.control = GSM0710_TYPE_UIH ||| GSM0710_PF
  negotiated : f.data.length ≤ channels.negotiated_N1 channel.toNat
  channel : f.channel = channel

section

variable {channels : ChannelList} {cmux_mode : Bool} {channel : UInt8} {writes : List Bool}
  {i : ℕ} {pf : Bool} {buf : List UInt8} {f : GSM0710_Frame}

theorem write_frame_eq (channels : ChannelList) (cmux_mode : Bool) (channel : UInt8) (pf : Bool)
    (buf : List UInt8) : ∃ f, ChannelFrame channels channel f ∧
    f.data = buf.take (channels.negotiated_N1 channel.toNat) ∧
    (write_frame channels cmux_mode pf channel buf GSM0710_TYPE_UIH).1 =
      frameBytes channels cmux_mode f := by
  refine ⟨⟨channel, (controlField pf buf GSM0710_TYPE_UIH).1,
    buf.take (channels.negotiated_N1 channel.toNat)⟩, ⟨?_, ?_, rfl⟩, rfl, ?_⟩
  · rw [controlField]
    split_ifs
    · exact .inr rfl
    · exact .inl rfl
  · rw [List.length_take]
    omega
  · have hcontrol : ∀ (input : List UInt8) (c : UInt8),
        controlField false input c = (c, false) := by simp [controlField]
    rw [frameBytes, write_frame, write_frame, hcontrol, List.take_take, Nat.min_self]
    cases cmux_mode <;> rfl

/-- **The frames that are written** carry the data but for what remains. -/
theorem handle_channel_data_frames (channels : ChannelList) (cmux_mode : Bool) (channel : UInt8)
    (writes : List Bool) (i : ℕ) (pf : Bool) (buf : List UInt8) : ∃ frames : List GSM0710_Frame,
    (handle_channel_data channels cmux_mode channel writes i pf buf).1 =
      frames.flatMap (frameBytes channels cmux_mode) ∧
    (∀ f ∈ frames, ChannelFrame channels channel f) ∧
    frames.flatMap (·.data) ++
      (handle_channel_data channels cmux_mode channel writes i pf buf).2.1 = buf := by
  fun_induction handle_channel_data channels cmux_mode channel writes i pf buf with
  | case1 writes i pf buf h => exact ⟨[], rfl, by simp, rfl⟩
  | case2 writes i pf buf h frame last rest ih =>
    obtain ⟨frames, hbytes, hframes, hdata⟩ := ih
    cases hwrites : writes.headD true with
    | true =>
      obtain ⟨f, hf, hfdata, hfbytes⟩ :=
        write_frame_eq channels cmux_mode channel pf buf
      refine ⟨f :: frames, ?_, ?_, ?_⟩
      · rw [cond_true, List.flatMap_cons, ← hbytes, ← hfbytes]
      · rintro g hg
        obtain rfl | hg := List.mem_cons.mp hg
        · exact hf
        · exact hframes g hg
      · have htake : buf.take (channels.negotiated_N1 channel.toNat) = buf.take last := by
          simp only [last, hwrites, lastWritten, if_true]
          rw [List.take_eq_take_iff]
          omega
        rw [List.flatMap_cons, List.append_assoc, hdata, hfdata, htake, List.take_append_drop]
    | false =>
      have hlast : last = 0 := by
        simp only [last, hwrites, lastWritten, Bool.false_eq_true, if_false]
      refine ⟨frames, hbytes, hframes, ?_⟩
      rw [hdata, hlast, List.drop_zero]

/-- Nothing remains where fewer calls than are allowed write nothing. -/
theorem handle_channel_data_all (hN1 : 0 < channels.negotiated_N1 channel.toNat)
    (hwrites : i + writes.count false < GSM0710_WRITE_RETRIES) :
    (handle_channel_data channels cmux_mode channel writes i pf buf).2.1 = [] := by
  fun_induction handle_channel_data channels cmux_mode channel writes i pf buf with
  | case1 writes i pf buf h => exact h.resolve_right (by omega)
  | case2 writes i pf buf h frame last rest ih =>
    refine ih ?_
    have hlength := List.length_pos_iff.mpr (not_or.mp h).1
    have hsome : writes.headD true = true → retries last i = i := fun hhead =>
      if_neg (by simp only [last, hhead, lastWritten, if_true]; omega)
    cases writes with
    | nil => rwa [hsome rfl]
    | cons w writes =>
      cases w with
      | true =>
        rw [List.count_cons_of_ne (by decide)] at hwrites
        rwa [hsome rfl]
      | false =>
        rw [List.count_cons_self] at hwrites
        have hnone : retries last i = i + 1 := if_pos (by simp [last, lastWritten])
        rw [hnone, List.tail_cons]
        omega

theorem ChannelFrame.not_ui (h : ChannelFrame channels channel f) : isUI f.control = false := by
  obtain hcontrol | hcontrol := h.control <;> rw [hcontrol] <;> decide

theorem ChannelFrame.base (h : ChannelFrame channels channel f)
    (hchannel : channel.toNat < channels.GSM0710_MAX_CHANNELS)
    (hN1 : channels.negotiated_N1 channel.toNat + 7 < GSM0710_BUFFER_SIZE) :
    BaseSendable channels f where
  channel := h.channel ▸ hchannel
  control := h.not_ui
  negotiated := h.channel ▸ h.negotiated
  fits := by
    have hlength := h.negotiated
    have hfields := (length_baseFields f).2
    have htake : f.data.take (channels.negotiated_N1 f.channel.toNat) = f.data :=
      List.take_of_length_le (h.channel ▸ h.negotiated)
    have hbytes : baseBytes channels f =
        GSM0710_FRAME_FLAG :: (baseFields f ++ (f.data ++ baseTrailer f)) := by
      simp [baseBytes, write_frame, controlField, htake, baseFields, baseTrailer]
    simp only [hbytes, List.length_cons, List.length_append, baseTrailer, List.length_nil]
    omega

theorem ChannelFrame.adv (h : ChannelFrame channels channel f)
    (hchannel : channel.toNat < channels.GSM0710_MAX_CHANNELS)
    (hN1 : channels.negotiated_N1 channel.toNat + 7 < GSM0710_BUFFER_SIZE) :
    AdvSendable channels f where
  channel := h.channel ▸ hchannel
  control := h.not_ui
  negotiated := h.channel ▸ h.negotiated
  fits := by
    have hlength := h.negotiated
    omega

theorem returnedFrames_eq (hchannel : channel.toNat < channels.GSM0710_MAX_CHANNELS)
    (hN1 : channels.negotiated_N1 channel.toNat + 7 < GSM0710_BUFFER_SIZE)
    {frames : List GSM0710_Frame} (hframes : ∀ f ∈ frames, ChannelFrame channels channel f)
    {buf₀ buf buf' : GSM0710_Buffer} (hidle : buf₀.Idle) {ops : List MuxOp} {os : List MuxOutput}
    (hrun : (bufferMachine (muxDecoder channels cmux_mode)).Runs buf₀ ops buf os)
    (hwritten : writtenBytes os = frames.flatMap (frameBytes channels cmux_mode))
    (hdone : muxDecoder channels cmux_mode buf = .ok (none, buf')) :
    returnedFrames os = frames := by
  cases cmux_mode with
  | false =>
    have hinit : BasePending channels buf₀.dropped_count frames
        (frames.flatMap (baseBytes channels)) buf₀ :=
      ⟨hidle.sound, fun f hf => (hframes f hf).base hchannel hN1, by
        rw [hidle.content, hidle.flag_found]; rfl, rfl⟩
    obtain ⟨-, -, frame, buf₁, hget, hnone⟩ := (resumes_baseDecoder channels _).round_trip hinit
      (fun h => h.dropped) hrun (hwritten ▸ List.prefix_rfl)
    cases hget.symm.trans hdone
    exact (hnone rfl).2 hwritten
  | true =>
    have hinit : AdvPending channels buf₀.dropped_count frames
        (frames.flatMap (advBytes channels)) buf₀ :=
      ⟨hidle.sound, fun f hf => (hframes f hf).adv hchannel hN1, by
        rw [hidle.content]; exact .idle hidle.flag_found, rfl⟩
    obtain ⟨-, -, frame, buf₁, hget, hnone⟩ := (resumes_advDecoder channels _).round_trip hinit
      (fun h => h.dropped) hrun (hwritten ▸ List.prefix_rfl)
    cases hget.symm.trans hdone
    exact (hnone rfl).2 hwritten

end

end MtkHardware.Gsm0710
