import MtkHardware.Gsm0710.BaseDecoder

/-!
# Corrupt Streams in Basic Mode

Whatever the modem sends, a call of `gsm0710_base_buffer_get_frame` has one of three ends. It
returns a frame or `NULL`, and has taken nothing out but bytes of the buffer. Or it stops at the
assertion on the depth of the recursion, which is there for the stack: it is reached when as many
corrupt frames follow each other as a call may drop (`CorruptRun`). Or an address names a channel
that a `channellist` of 32 entries does not have.
-/

namespace MtkHardware.Gsm0710

def CorruptRun (channels : ChannelList) : ℕ → Bool → List UInt8 → Prop
  | 0, _, _ => True
  | n + 1, found, l => ∃ l' rest, sync found l = some l' ∧ scan channels l' = .corrupt rest ∧
      CorruptRun channels n false rest

variable {channels : ChannelList} {found : Bool} {l rest : List UInt8} {levels channel : ℕ}

theorem scanFrames_resync_iff : scanFrames channels levels found l = .error .resyncDepth ↔
    CorruptRun channels levels found l := by
  induction levels generalizing found l with
  | zero => exact iff_of_true rfl trivial
  | succ levels ih =>
    rw [scanFrames, CorruptRun]
    cases hsync : sync found l with
    | none => simp
    | some l' =>
      cases hscan : scan channels l' with
      | short => simp [hscan]
      | outside channel => simp [hscan]
      | frame f rest => simp [hscan]
      | corrupt rest =>
        cases hr : scanFrames channels levels false rest with
        | error fault => simp [hscan, hr, ← ih, bind, Except.bind]
        | ok r => simp [hscan, hr, ← ih, bind, Except.bind, pure, Except.pure]

/-! ### What is scanned is of the list -/

theorem sync_suffix (h : sync found l = some rest) : rest <:+ l := by
  rw [sync] at h
  split at h
  · cases h
    exact List.dropWhile_suffix _
  · split at h
    · cases h
    · rename_i b l' hdrop
      cases h
      have hl' : b :: l' <:+ l := hdrop ▸ List.dropWhile_suffix _
      exact (List.dropWhile_suffix _).trans ((List.suffix_cons b l').trans hl')

theorem scanHeader_suffix {header : Header} (h : scanHeader l = some (header, rest)) :
    rest <:+ l ∧ header.channel.toNat < 64 := by
  unfold scanHeader at h
  split at h
  · rename_i address control length l'
    dsimp only at h
    split at h
    · cases h
      exact ⟨⟨[address, control], rfl⟩, decode_address_lt address⟩
    · split at h
      · rename_i high l''
        cases h
        exact ⟨⟨[address, control, length], rfl⟩, decode_address_lt address⟩
      · cases h
  · cases h

def Scan.Of (channels : ChannelList) (l : List UInt8) : Scan → Prop
  | .short => True
  | .outside channel => channels.GSM0710_MAX_CHANNELS ≤ channel ∧ channel < 64
  | .corrupt rest => rest <:+ l
  | .frame _ rest => rest <:+ l

theorem scanBody_of (channels : ChannelList) (header : Header) (l : List UInt8) :
    (scanBody header l).Of channels l := by
  unfold scanBody
  dsimp only
  generalize (if isUI header.control = true then
    (l.take header.length).foldl crc header.fcs else header.fcs) = sum
  have hdrop := List.drop_suffix header.length l
  split
  · rename_i b flag rest hl
    rw [hl] at hdrop
    have hflag : flag :: rest <:+ l := (List.suffix_cons b _).trans hdrop
    generalize crc sum b = check
    split
    · exact (List.suffix_cons flag _).trans hflag
    · exact hflag
  · trivial

theorem scan_of (channels : ChannelList) (l : List UInt8) : (scan channels l).Of channels l := by
  unfold scan
  split
  · trivial
  · split
    · trivial
    · rename_i header l' hheader
      obtain ⟨hsuffix, hlt⟩ := scanHeader_suffix hheader
      split
      · rename_i houtside
        exact ⟨houtside, hlt⟩
      · split
        · exact hsuffix
        · split
          · trivial
          · have htail : l'.tail <:+ l := (List.tail_suffix l').trans hsuffix
            have hbody := scanBody_of channels header l'.tail
            revert hbody
            cases scanBody header l'.tail with
            | short => exact id
            | outside channel => exact id
            | corrupt rest => exact fun hbody => List.IsSuffix.trans hbody htail
            | frame f rest => exact fun hbody => List.IsSuffix.trans hbody htail

/-- **The ends of a scan.** -/
theorem scanFrames_ends (channels : ChannelList) (levels : ℕ) (found : Bool) (l : List UInt8) :
    (∃ r, scanFrames channels levels found l = .ok r ∧ r.rest <:+ l) ∨
      scanFrames channels levels found l = .error .resyncDepth ∨
      ∃ channel, scanFrames channels levels found l = .error (.channelIndex channel) ∧
        channels.GSM0710_MAX_CHANNELS ≤ channel ∧ channel < 64 := by
  induction levels generalizing found l with
  | zero => exact .inr (.inl rfl)
  | succ levels ih =>
    rw [scanFrames]
    cases hsync : sync found l with
    | none => exact .inl ⟨_, rfl, List.nil_suffix⟩
    | some l' =>
      have hsuffix := sync_suffix hsync
      have hof := scan_of channels l'
      dsimp only
      cases hscan : scan channels l' with
      | short => exact .inl ⟨_, rfl, hsuffix⟩
      | outside channel =>
        rw [hscan] at hof
        exact .inr (.inr ⟨channel, rfl, hof⟩)
      | frame f rest =>
        rw [hscan] at hof
        exact .inl ⟨_, rfl, List.IsSuffix.trans hof hsuffix⟩
      | corrupt rest =>
        rw [hscan] at hof
        dsimp only
        obtain ⟨r, hr, hrest⟩ | hdepth | ⟨channel, hchannel, hlt⟩ := ih false rest
        · rw [hr]
          exact .inl ⟨_, rfl, hrest.trans (List.IsSuffix.trans hof hsuffix)⟩
        · rw [hdepth]
          exact .inr (.inl rfl)
        · rw [hchannel]
          exact .inr (.inr ⟨channel, rfl, hlt⟩)

/-! ### Reachable states -/

theorem sound_of_runs {ops : List MuxOp} {buf : GSM0710_Buffer} {os : List MuxOutput}
    (hrun : (bufferMachine (baseDecoder channels)).Runs {} ops buf os) : buf.Sound := by
  refine hrun.invariant (I := fun _ buf _ => buf.Sound) GSM0710_Buffer.sound_init ?_
  intro _ buf _ op buf' o hsound hstep
  cases op with
  | write chunk =>
    rw [bufferMachine_write] at hstep
    cases hstep
    have hput := hsound.put chunk
    exact ⟨hput.readp, hput.datacount, hput.writep⟩
  | getFrame =>
    obtain ⟨r, hr, heq⟩ := map_eq_ok_iff.mp hstep
    cases heq
    obtain ⟨fault, -, hget⟩ | ⟨r', buf'', -, hget, hleaves⟩ :=
      GSM0710_Buffer.get_frame_spec channels hsound MAX_RESYNC_GET_FRAME_COUNT
    · rw [baseDecoder, hget] at hr
      cases hr
    · rw [baseDecoder, hget] at hr
      cases hr
      exact hleaves.sound

/-- **The ends of a call**, in every state that is reached: it returns, and has consumed bytes of
the buffer only; it reaches the assertion, which is so exactly when as many corrupt frames follow
each other as it may drop; or an address names a channel behind the end of a `channellist` of 32
entries. It never reads more bytes than there are. -/
theorem base_get_frame_ends (channels : ChannelList) {ops : List MuxOp} {buf : GSM0710_Buffer}
    {os : List MuxOutput} (hrun : (bufferMachine (baseDecoder channels)).Runs {} ops buf os) :
    ((∃ frame buf', baseDecoder channels buf = .ok (frame, buf') ∧ buf'.content <:+ buf.content) ∨
      baseDecoder channels buf = .error .resyncDepth ∨
      ∃ channel, baseDecoder channels buf = .error (.channelIndex channel) ∧
        channels.GSM0710_MAX_CHANNELS = 32 ∧ 32 ≤ channel ∧ channel < 64) ∧
    (baseDecoder channels buf = .error .resyncDepth ↔
      CorruptRun channels MAX_RESYNC_GET_FRAME_COUNT buf.flag_found buf.content) := by
  have hends := scanFrames_ends channels MAX_RESYNC_GET_FRAME_COUNT buf.flag_found buf.content
  rw [← scanFrames_resync_iff]
  obtain ⟨fault, hscan, hget⟩ | ⟨r, buf', hscan, hget, hleaves⟩ :=
    GSM0710_Buffer.get_frame_spec channels (sound_of_runs hrun)
      MAX_RESYNC_GET_FRAME_COUNT
  · rw [baseDecoder, hget, hscan]
    rw [hscan] at hends
    refine ⟨.inr ?_, by simp⟩
    obtain ⟨r, hr, -⟩ | hdepth | ⟨channel, hchannel, hle, hlt⟩ := hends
    · cases hr
    · cases hdepth
      exact .inl rfl
    · cases hchannel
      have hmax := channels.maxChannels
      exact .inr ⟨channel, rfl, by omega, by omega, hlt⟩
  · rw [baseDecoder, hget, hscan]
    rw [hscan] at hends
    refine ⟨.inl ⟨r.frame, buf', rfl, ?_⟩, by simp⟩
    obtain ⟨r', hr, hsuffix⟩ | hdepth | ⟨channel, hchannel, -⟩ := hends
    · cases hr
      rwa [hleaves.content]
    · cases hdepth
    · cases hchannel

/-- A `channellist` of 64 entries. -/
def wideChannels : ChannelList :=
  { GSM0710_MAX_CHANNELS := 64, maxChannels := .inr rfl, negotiated_N1 := fun _ => 1509 }

/-- An empty frame of which the check sequence is wrong. -/
def corruptFrame : List UInt8 := [GSM0710_FRAME_FLAG, 0x07, GSM0710_TYPE_UIH, 0x01, 0x00]

theorem base_get_frame_ends_corrupt : ∃ buf os,
    (bufferMachine (baseDecoder wideChannels)).Runs {}
      [.write (corruptFrame ++ [GSM0710_FRAME_FLAG]), .getFrame] buf os ∧
    ((∃ frame buf', baseDecoder wideChannels buf = .ok (frame, buf') ∧
        buf'.content <:+ buf.content) ∨
      baseDecoder wideChannels buf = .error .resyncDepth ∨
      ∃ channel, baseDecoder wideChannels buf = .error (.channelIndex channel) ∧
        wideChannels.GSM0710_MAX_CHANNELS = 32 ∧ 32 ≤ channel ∧ channel < 64) ∧
    (baseDecoder wideChannels buf = .error .resyncDepth ↔
      CorruptRun wideChannels MAX_RESYNC_GET_FRAME_COUNT buf.flag_found buf.content) := by
  obtain ⟨buf, os, hrun, -⟩ : ∃ buf os, (bufferMachine (baseDecoder wideChannels)).Runs {}
      [.write (corruptFrame ++ [GSM0710_FRAME_FLAG]), .getFrame] buf os ∧ buf.dropped_count = 1 :=
    Machine.exists_run_of_shows (by decide +kernel)
  exact ⟨buf, os, hrun, base_get_frame_ends wideChannels hrun⟩

/-- Three corrupt frames that follow each other end at the assertion. -/
theorem threeCorruptFrames_resync : ∃ buf os,
    (bufferMachine (baseDecoder wideChannels)).Runs {}
      [.write (corruptFrame ++ corruptFrame ++ corruptFrame ++ [GSM0710_FRAME_FLAG])] buf os ∧
    baseDecoder wideChannels buf = .error .resyncDepth := by
  obtain ⟨buf, os, hrun, hscan⟩ : ∃ buf os, (bufferMachine (baseDecoder wideChannels)).Runs {}
      [.write (corruptFrame ++ corruptFrame ++ corruptFrame ++ [GSM0710_FRAME_FLAG])] buf os ∧
      scanFrames wideChannels MAX_RESYNC_GET_FRAME_COUNT buf.flag_found buf.content =
        .error .resyncDepth :=
    Machine.exists_run_of_shows (by decide +kernel)
  refine ⟨buf, os, hrun, ?_⟩
  obtain ⟨fault, hfault, hget⟩ | ⟨r, buf', hr, -⟩ :=
    GSM0710_Buffer.get_frame_spec wideChannels (sound_of_runs hrun)
      MAX_RESYNC_GET_FRAME_COUNT
  · rw [hscan] at hfault
    cases hfault
    exact hget
  · rw [hscan] at hr
    cases hr

end MtkHardware.Gsm0710
