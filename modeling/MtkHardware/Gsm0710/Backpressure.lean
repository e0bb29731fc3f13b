import MtkHardware.Gsm0710.AdvDecoder
import MtkHardware.Gsm0710.BaseDecoder

/-!
# Back-Pressure

`thread_serial_device_read` writes to the buffer, and sleeps when it is full.
`assemble_frame_thread` makes passes over the buffer: each is a call of `extract_frames`, which
takes frames out until a decoder returns `NULL`. It is to signal `bufferready_signal` when it has
freed space and `input_sleeping` is set.

Both threads are interleaved between any two accesses to what they share. A decoder works byte by
byte on the buffer; what the decoder of basic mode does with its own copies is one step, and taking
out what it has found is another. `bufferready_lock` is held by the reader from where it sets
`input_sleeping` to where it sleeps, and `newdataready_lock` by the other thread where it is about
to sleep.

A signal is sent behind a frame, and where basic mode finds no start flag. A pass that ends because
a frame is not complete yet does not signal, nor does any end in advanced mode; what has been freed
before, by passing flags, dropping frames or storing bytes, is not announced then.
-/

namespace MtkHardware.Gsm0710

/-! ### The threads -/

/-- Where `thread_serial_device_read` is. -/
inductive ReaderAt
  | idle
  /-- There is so much space. -/
  | reading (length : ℕ)
  /-- In `gsm0710_buffer_write`. -/
  | writing (bytes : List UInt8)
  /-- The bytes have been copied and counted. -/
  | notifying
  /-- There is no space. -/
  | full
  /-- It has set `input_sleeping`, and holds `bufferready_lock`. -/
  | checking
  | waiting (signaled : Bool)
  deriving DecidableEq, Repr

/-- Where `assemble_frame_thread` is. -/
inductive AssemblerAt
  | top
  /-- There is no data, or no new data; it holds `newdataready_lock`. -/
  | testing
  | sleeping (signaled : Bool)
  /-- At `l_begin`, or at the start of `gsm0710_base_buffer_get_frame` with some levels left. -/
  | searching (levels : ℕ)
  | skipping (levels : ℕ)
  /-- In the third loop of advanced mode. -/
  | analyzing
  /-- Basic mode found no start flag. -/
  | noFlag
  /-- A corrupt frame is to be taken out, with the copies of `readp` and `datacount` from before. -/
  | dropping (levels : ℕ) (start c : Cursor)
  | taking (frame : GSM0710_Frame) (start c : Cursor)
  /-- `extract_frames` has a frame. -/
  | extracted (frame : GSM0710_Frame)
  deriving DecidableEq, Repr

structure Backpressure where
  buf : GSM0710_Buffer := {}
  reader : ReaderAt := .idle
  assembler : AssemblerAt := .top

inductive BackpressureOp
  /-- The next step of the reader, but for a read and a wake-up. -/
  | reader
  | read (bytes : List UInt8)
  | wakeReader
  /-- The next step of the other thread, but for a wake-up. -/
  | assembler
  | wakeAssembler
  deriving DecidableEq, Repr

/-- Why a step cannot be taken, or what goes wrong in it. -/
inductive BackpressureFault
  | blocked
  | mux (fault : MuxFault)
  deriving DecidableEq, Repr

/-- `pthread_cond_signal(&buf->newdataready_signal)`. -/
def AssemblerAt.signal : AssemblerAt → AssemblerAt
  | .sleeping _ => .sleeping true
  | at' => at'

/-- `pthread_cond_signal(&buf->bufferready_signal)`. -/
def ReaderAt.signal : ReaderAt → ReaderAt
  | .waiting _ => .waiting true
  | at' => at'

namespace Backpressure

/-- The next step of `thread_serial_device_read`. -/
def readerStep (s : Backpressure) : Except BackpressureFault Backpressure :=
  match s.reader with
  | .idle =>
    if 0 < s.buf.free then .ok { s with reader := .reading s.buf.free }
    else .ok { s with reader := .full }
  | .reading _ => .error .blocked
  | .writing bytes => .ok { s with buf := s.buf.put bytes, reader := .notifying }
  | .notifying =>
    if s.assembler = .testing then .error .blocked
    else
      .ok { s with
        buf := { s.buf with newdataready := true }, reader := .idle
        assembler := s.assembler.signal }
  | .full => .ok { s with buf := { s.buf with input_sleeping := true }, reader := .checking }
  | .checking =>
    if s.buf.free = 0 then .ok { s with reader := .waiting false }
    else .ok { s with buf := { s.buf with input_sleeping := false }, reader := .idle }
  | .waiting _ => .error .blocked

/-- `read`, which may also return nothing, or fail. -/
def read (s : Backpressure) (bytes : List UInt8) : Except BackpressureFault Backpressure :=
  match s.reader with
  | .reading length =>
    if min length 4096 < bytes.length then .error .blocked
    else .ok { s with reader := if bytes = [] then .idle else .writing bytes }
  | _ => .error .blocked

/-- `bufferready_signal` is sent if `input_sleeping` is set. -/
def signalReader (s : Backpressure) : Backpressure :=
  if s.buf.input_sleeping then { s with reader := s.reader.signal } else s

/-- The start of a pass, or of another call of the decoder in it. -/
def decode : AssemblerAt := .searching MAX_RESYNC_GET_FRAME_COUNT

/-- The next step of `assemble_frame_thread`, with the frame that it has extracted. -/
def assemblerStep (channels : ChannelList) (cmux_mode : Bool) (s : Backpressure) :
    Except BackpressureFault (Backpressure × List GSM0710_Frame) :=
  match s.assembler with
  | .top =>
    if s.buf.datacount = 0 ∨ s.buf.newdataready = false then
      .ok ({ s with assembler := .testing }, [])
    else
      .ok ({ s with buf := { s.buf with newdataready := false }, assembler := decode }, [])
  | .testing =>
    if s.buf.input_sleeping then
      .ok ({ s with buf := { s.buf with newdataready := false }, assembler := decode }, [])
    else .ok ({ s with assembler := .sleeping false }, [])
  | .sleeping _ => .error .blocked
  | .searching levels =>
    if s.buf.flag_found = false ∧ 0 < s.buf.datacount then
      .ok ({ s with buf := s.buf.findFlag cmux_mode 1 }, [])
    else if s.buf.flag_found then
      if cmux_mode ∧ s.buf.adv_length ≠ 0 then .ok ({ s with assembler := .analyzing }, [])
      else .ok ({ s with assembler := .skipping levels }, [])
    else if cmux_mode then .ok ({ s with assembler := .top }, [])
    else .ok ({ s with assembler := .noFlag }, [])
  | .skipping levels =>
    if 0 < s.buf.datacount ∧ s.buf.data s.buf.readp = frameFlag cmux_mode then
      .ok ({ s with buf := s.buf.inc }, [])
    else if cmux_mode then .ok ({ s with assembler := .analyzing }, [])
    else
      match extract channels s.buf.data s.buf.cursor with
      | .error fault => .error (.mux fault)
      | .ok .notEnough => .ok ({ s with assembler := .top }, [])
      | .ok (.dropped c) => .ok ({ s with assembler := .dropping levels s.buf.cursor c }, [])
      | .ok (.frame frame c) => .ok ({ s with assembler := .taking frame s.buf.cursor c }, [])
  | .analyzing =>
    if 0 < s.buf.datacount then
      match s.buf.analyzeByte with
      | .restart buf => .ok ({ s with buf, assembler := decode }, [])
      | .frame frame buf => .ok ({ s with buf, assembler := .extracted frame }, [])
      | .next buf => .ok ({ s with buf }, [])
    else .ok ({ s with assembler := .top }, [])
  | .noFlag =>
    if s.reader = .checking then .error .blocked
    else .ok ({ s.signalReader with assembler := .top }, [])
  | .dropping levels start c =>
    match levels with
    | 0 | 1 => .error (.mux .resyncDepth)
    | levels + 2 =>
      .ok ({ s with buf := s.buf.dropTo start c, assembler := .searching (levels + 1) }, [])
  | .taking frame start c =>
    .ok ({ s with buf := s.buf.takeTo start c, assembler := .extracted frame }, [])
  | .extracted frame =>
    if s.reader = .checking then .error .blocked
    else .ok ({ s.signalReader with assembler := decode }, [frame])

end Backpressure

/-- The threads, in basic or in advanced mode. A sleeping thread may also wake up without a
signal. -/
def backpressure (channels : ChannelList) (cmux_mode : Bool) :
    Machine Backpressure BackpressureOp GSM0710_Frame BackpressureFault
  | s, .reader => s.readerStep.map (·, [])
  | s, .read bytes => (s.read bytes).map (·, [])
  | s, .wakeReader =>
    match s.reader with
    | .waiting _ => .ok ({ s with reader := .checking }, [])
    | _ => .error .blocked
  | s, .assembler => s.assemblerStep channels cmux_mode
  | s, .wakeAssembler =>
    match s.assembler with
    | .sleeping _ => .ok ({ s with assembler := .top }, [])
    | _ => .error .blocked

/-! ### The law -/

def AssemblerAt.isBetween : AssemblerAt → Bool
  | .top | .testing | .sleeping _ => true
  | _ => false

/-- Is `input_sleeping` to be set? -/
def ReaderAt.sleeps : ReaderAt → Bool
  | .checking | .waiting _ => true
  | _ => false

namespace Backpressure

/-- The reader sleeps, no signal has been sent to it, and there is space: something has been freed
since it found none. -/
def Stuck (s : Backpressure) : Prop := s.reader = .waiting false ∧ 0 < s.buf.free

/-- Space that is freed while the reader sleeps is announced before the pass ends. -/
def NoLostWakeup (s : Backpressure) : Prop := s.assembler.isBetween = true → ¬ s.Stuck

/-- Is the pass about to end without a signal? In basic mode the frame is not complete, in advanced
mode there are no more bytes. -/
def EndsSilently (channels : ChannelList) (cmux_mode : Bool) (s : Backpressure) : Prop :=
  match s.assembler with
  | .searching _ => cmux_mode = true ∧ s.buf.flag_found = false ∧ s.buf.datacount = 0
  | .skipping _ => cmux_mode = false ∧
      ¬ (0 < s.buf.datacount ∧ s.buf.data s.buf.readp = GSM0710_FRAME_FLAG) ∧
      match extract channels s.buf.data s.buf.cursor with
      | .ok .notEnough => True
      | _ => False
  | .analyzing => s.buf.datacount = 0
  | _ => False

/-- No pass ends without a signal while the reader sleeps and something has been freed. -/
def Announced (channels : ChannelList) (cmux_mode : Bool) (s : Backpressure) :
    BackpressureOp → Prop
  | .assembler => s.EndsSilently channels cmux_mode → ¬ s.Stuck
  | _ => True

instance (s : Backpressure) : Decidable s.Stuck := inferInstanceAs (Decidable (_ ∧ _))

instance (channels : ChannelList) (cmux_mode : Bool) (s : Backpressure) :
    Decidable (s.EndsSilently channels cmux_mode) := by
  unfold EndsSilently
  split
  · infer_instance
  · have hmatch : Decidable (match extract channels s.buf.data s.buf.cursor with
        | .ok .notEnough => True
        | _ => False) := by
      split <;> infer_instance
    infer_instance
  · infer_instance
  · infer_instance

instance (channels : ChannelList) (cmux_mode : Bool) (s : Backpressure) (op : BackpressureOp) :
    Decidable (s.Announced channels cmux_mode op) := by
  cases op <;> unfold Announced <;> infer_instance

variable {channels : ChannelList} {cmux_mode : Bool} {s s' : Backpressure}
  {ops : List BackpressureOp} {op : BackpressureOp} {os o : List GSM0710_Frame}

/-! ### Steps -/

@[simp] theorem sleeps_signal (r : ReaderAt) : r.signal.sleeps = r.sleeps := by
  cases r <;> rfl

theorem input_sleeping_findFlag (buf : GSM0710_Buffer) (cmux_mode : Bool) (fuel : ℕ) :
    (buf.findFlag cmux_mode fuel).input_sleeping = buf.input_sleeping := by
  induction fuel generalizing buf with
  | zero => rfl
  | succ fuel ih =>
    rw [GSM0710_Buffer.findFlag]
    split_ifs
    · rw [ih]
      cases cmux_mode <;> rfl
    · rw [ih]
      rfl
    · rfl

theorem input_sleeping_analyzeByte (buf : GSM0710_Buffer) :
    match buf.analyzeByte with
    | .restart buf' => buf'.input_sleeping = buf.input_sleeping
    | .frame _ buf' => buf'.input_sleeping = buf.input_sleeping
    | .next buf' => buf'.input_sleeping = buf.input_sleeping := by
  unfold GSM0710_Buffer.analyzeByte GSM0710_Buffer.closeFrame
  dsimp only
  generalize advCheck buf.inc.adv_data buf.inc.adv_length = check
  split_ifs
  · rfl
  · rfl
  · rfl
  · rfl
  · unfold GSM0710_Buffer.storeByte
    split_ifs <;> rfl

/-- **What a step of the assembling thread does**: it leaves the reader alone and stays in its pass,
or signals behind a frame; it ends the pass silently; it signals and ends the pass; or it is between
two passes. -/
theorem assemblerStep_cases (h : s.assemblerStep channels cmux_mode = .ok (s', o)) :
    (¬ s.EndsSilently channels cmux_mode ∧ s'.assembler.isBetween = false ∧
      s'.buf.input_sleeping = s.buf.input_sleeping ∧
      (s'.reader = s.reader ∨ s'.reader = s.reader.signal)) ∨
    (s.EndsSilently channels cmux_mode ∧ s' = { s with assembler := .top }) ∨
    (¬ s.EndsSilently channels cmux_mode ∧ s.reader ≠ .checking ∧
      s' = { s.signalReader with assembler := .top }) ∨
    (¬ s.EndsSilently channels cmux_mode ∧ s.assembler.isBetween = true ∧
      ∃ at', s' = { s with assembler := at' }) := by
  unfold assemblerStep at h
  unfold EndsSilently
  split at h
  · -- the top of the loop
    rename_i hat
    rw [hat]
    split_ifs at h
    · cases h
      exact .inr (.inr (.inr ⟨id, rfl, _, rfl⟩))
    · cases h
      exact .inl ⟨id, rfl, rfl, .inl rfl⟩
  · rename_i hat
    rw [hat]
    split_ifs at h
    · cases h
      exact .inl ⟨id, rfl, rfl, .inl rfl⟩
    · cases h
      exact .inr (.inr (.inr ⟨id, rfl, _, rfl⟩))
  · cases h
  · -- the search for the start flag
    rename_i levels hat
    rw [hat]
    dsimp only
    split_ifs at h with hmore hfound hstored hmode
    · cases h
      refine .inl ⟨fun hand => absurd hmore.2 (by omega), ?_, input_sleeping_findFlag .., .inl rfl⟩
      dsimp only
      rw [hat]
      rfl
    · cases h
      exact .inl ⟨fun hand => absurd (hfound.symm.trans hand.2.1) (by simp), rfl, rfl, .inl rfl⟩
    · cases h
      exact .inl ⟨fun hand => absurd (hfound.symm.trans hand.2.1) (by simp), rfl, rfl, .inl rfl⟩
    · cases h
      have hfalse : s.buf.flag_found = false := by simpa using hfound
      exact .inr (.inl ⟨⟨hmode, hfalse, Nat.eq_zero_of_not_pos fun hpos => hmore ⟨hfalse, hpos⟩⟩,
        rfl⟩)
    · cases h
      exact .inl ⟨fun hand => hmode hand.1, rfl, rfl, .inl rfl⟩
  · -- flags are passed, and a frame is looked for
    rename_i levels hat
    rw [hat]
    dsimp only
    split_ifs at h with hflag hmode
    · cases h
      refine .inl ⟨?_, by dsimp only; rw [hat]; rfl, rfl, .inl rfl⟩
      rintro ⟨rfl, hno, -⟩
      exact hno hflag
    · cases h
      refine .inl ⟨?_, rfl, rfl, .inl rfl⟩
      rintro ⟨hfalse, -⟩
      exact absurd (hmode.symm.trans hfalse) (by simp)
    · have hfalse : cmux_mode = false := by simpa using hmode
      subst hfalse
      split at h
      · cases h
      · rename_i hextract
        cases h
        exact .inr (.inl ⟨⟨rfl, hflag, by rw [hextract]; trivial⟩, rfl⟩)
      · rename_i c hextract
        cases h
        refine .inl ⟨?_, rfl, rfl, .inl rfl⟩
        rintro ⟨-, -, hmatch⟩
        rw [hextract] at hmatch
        exact hmatch
      · rename_i frame c hextract
        cases h
        refine .inl ⟨?_, rfl, rfl, .inl rfl⟩
        rintro ⟨-, -, hmatch⟩
        rw [hextract] at hmatch
        exact hmatch
  · -- the third loop of advanced mode
    rename_i hat
    rw [hat]
    dsimp only
    have hinput := input_sleeping_analyzeByte s.buf
    split_ifs at h with hmore
    · split at h
      · rename_i buf' hbyte
        rw [hbyte] at hinput
        cases h
        exact .inl ⟨by omega, rfl, hinput, .inl rfl⟩
      · rename_i frame buf' hbyte
        rw [hbyte] at hinput
        cases h
        exact .inl ⟨by omega, rfl, hinput, .inl rfl⟩
      · rename_i buf' hbyte
        rw [hbyte] at hinput
        cases h
        exact .inl ⟨by omega, by dsimp only; rw [hat]; rfl, hinput, .inl rfl⟩
    · cases h
      exact .inr (.inl ⟨by omega, rfl⟩)
  · rename_i hat
    rw [hat]
    split_ifs at h with hchecking
    cases h
    exact .inr (.inr (.inl ⟨id, hchecking, rfl⟩))
  · rename_i levels start c hat
    rw [hat]
    split at h
    · cases h
    · cases h
    · cases h
      exact .inl ⟨id, rfl, rfl, .inl rfl⟩
  · rename_i frame start c hat
    rw [hat]
    cases h
    exact .inl ⟨id, rfl, rfl, .inl rfl⟩
  · rename_i frame hat
    rw [hat]
    split_ifs at h with hchecking
    cases h
    unfold signalReader
    refine .inl ⟨id, rfl, ?_, ?_⟩
    · split_ifs <;> rfl
    · split_ifs
      · exact .inr rfl
      · exact .inl rfl

/-- `input_sleeping` is set while the reader checks or sleeps. -/
def Coherent (s : Backpressure) : Prop := s.buf.input_sleeping = s.reader.sleeps

theorem coherent_step (h : s.Coherent)
    (hstep : backpressure channels cmux_mode s op = .ok (s', o)) : s'.Coherent := by
  unfold Coherent at h ⊢
  cases op with
  | reader =>
    obtain ⟨t, ht, heq⟩ := map_eq_ok_iff.mp hstep
    cases heq
    unfold readerStep at ht
    split at ht
    · rename_i hat
      rw [hat] at h
      split_ifs at ht <;> cases ht <;> exact h
    · cases ht
    · rename_i bytes hat
      rw [hat] at h
      obtain ⟨data, writep, datacount, hput⟩ := s.buf.exists_put_eq bytes
      cases ht
      rw [hput]
      exact h
    · rename_i hat
      rw [hat] at h
      split_ifs at ht
      cases ht
      exact h
    · cases ht
      rfl
    · rename_i hat
      rw [hat] at h
      split_ifs at ht
      · cases ht
        exact h
      · cases ht
        rfl
    · cases ht
  | read bytes =>
    obtain ⟨t, ht, heq⟩ := map_eq_ok_iff.mp hstep
    cases heq
    unfold read at ht
    split at ht
    · rename_i length hat
      rw [hat] at h
      split_ifs at ht <;> cases ht
      · exact h
      · exact h
    · cases ht
  | wakeReader =>
    unfold backpressure at hstep
    dsimp only at hstep
    split at hstep
    · rename_i signaled hat
      rw [hat] at h
      cases hstep
      exact h
    · cases hstep
  | assembler =>
    obtain ⟨-, -, hinput, hreader⟩ | ⟨-, rfl⟩ | ⟨-, -, rfl⟩ | ⟨-, -, at', rfl⟩ :=
      assemblerStep_cases hstep
    · rcases hreader with hreader | hreader
      · rw [hinput, hreader, h]
      · rw [hinput, hreader, sleeps_signal, h]
    · exact h
    · unfold signalReader
      split_ifs
      · exact h.trans (sleeps_signal _).symm
      · exact h
    · exact h
  | wakeAssembler =>
    unfold backpressure at hstep
    dsimp only at hstep
    split at hstep
    · cases hstep
      exact h
    · cases hstep

/-- **Exact conditions**: a step loses a wake-up exactly when it ends a pass silently over a reader
that sleeps with space free. -/
theorem noLostWakeup_step_iff (hcoherent : s.Coherent) (h : s.NoLostWakeup)
    (hstep : backpressure channels cmux_mode s op = .ok (s', o)) :
    s'.NoLostWakeup ↔ s.Announced channels cmux_mode op := by
  cases op with
  | reader =>
    refine iff_of_true ?_ trivial
    obtain ⟨t, ht, heq⟩ := map_eq_ok_iff.mp hstep
    cases heq
    rintro - ⟨hwaiting, hfree⟩
    unfold readerStep at ht
    split at ht
    · split_ifs at ht <;> cases ht <;> cases hwaiting
    · cases ht
    · cases ht
      cases hwaiting
    · split_ifs at ht
      cases ht
      cases hwaiting
    · cases ht
      cases hwaiting
    · split_ifs at ht with hfull
      · cases ht
        exact absurd hfree (by simp [hfull])
      · cases ht
        cases hwaiting
    · cases ht
  | read bytes =>
    refine iff_of_true ?_ trivial
    obtain ⟨t, ht, heq⟩ := map_eq_ok_iff.mp hstep
    cases heq
    rintro - ⟨hwaiting, -⟩
    unfold read at ht
    split at ht
    · split_ifs at ht <;> cases ht <;> cases hwaiting
    · cases ht
  | wakeReader =>
    refine iff_of_true ?_ trivial
    rintro - ⟨hwaiting, -⟩
    unfold backpressure at hstep
    dsimp only at hstep
    split at hstep
    · cases hstep
      cases hwaiting
    · cases hstep
  | assembler =>
    obtain ⟨hloud, hbetween, -⟩ | ⟨hsilent, rfl⟩ | ⟨hloud, -, rfl⟩ |
      ⟨hloud, hbetween, at', rfl⟩ := assemblerStep_cases hstep
    · exact iff_of_true (fun htrue => absurd (hbetween.symm.trans htrue) (by simp))
        fun hsilent => absurd hsilent hloud
    · exact ⟨fun hlaw _ => hlaw rfl, fun hannounced _ => hannounced hsilent⟩
    · refine iff_of_true ?_ fun hsilent => absurd hsilent hloud
      rintro - ⟨hwaiting, -⟩
      unfold signalReader at hwaiting
      split_ifs at hwaiting with hinput
      · -- a reader that sleeps has been signaled
        dsimp only at hwaiting
        cases hreader : s.reader <;> rw [hreader] at hwaiting <;> cases hwaiting
      · rw [Coherent] at hcoherent
        rw [hcoherent, show s.reader = .waiting false from hwaiting] at hinput
        exact hinput rfl
    · exact iff_of_true (fun _ => h hbetween) fun hsilent => absurd hsilent hloud
  | wakeAssembler =>
    refine iff_of_true ?_ trivial
    unfold backpressure at hstep
    dsimp only at hstep
    split at hstep
    · rename_i signaled hat
      cases hstep
      exact fun _ => h (by rw [hat]; rfl)
    · cases hstep

theorem coherent_of_runs (hrun : (backpressure channels cmux_mode).Runs {} ops s os) :
    s.Coherent :=
  hrun.invariant (I := fun _ s _ => s.Coherent) rfl
    fun _ _ _ _ _ _ h hstep => coherent_step h hstep

/-- **The reader does not stay asleep**: in every state of a run between two passes, space that has
been freed while it sleeps has been announced, exactly when no pass ends silently over a reader that
sleeps while something has been freed. -/
theorem announced_iff (hrun : (backpressure channels cmux_mode).Runs {} ops s os) :
    (backpressure channels cmux_mode).RunsMeeting
        (fun _ s op => s.Announced channels cmux_mode op) {} ops s os ↔
      ∀ ops₁ ops₂ s₁ os₁, ops = ops₁ ++ ops₂ →
        (backpressure channels cmux_mode).Runs {} ops₁ s₁ os₁ → s₁.NoLostWakeup :=
  Machine.Runs.meeting_iff (I := fun _ s => s.NoLostWakeup) (fun _ hstuck => nomatch hstuck.1)
    (fun _ _ _ _ _ _ hrun₁ hlaw hstep =>
      noLostWakeup_step_iff (coherent_of_runs hrun₁) hlaw hstep) hrun

/-- A `channellist` with frames of up to 4080 bytes. -/
def longChannels : ChannelList :=
  { GSM0710_MAX_CHANNELS := 32, maxChannels := .inl rfl, negotiated_N1 := fun _ => 4080 }

def longFrameStart : List UInt8 :=
  GSM0710_FRAME_FLAG :: header false 1 GSM0710_TYPE_UIH 4080 ++ List.replicate 4079 0

/-- The buffer is filled by one read, and the reader goes to sleep. -/
def fillOps (bytes : List UInt8) : List BackpressureOp :=
  [.reader, .read bytes, .reader, .reader, .reader, .reader, .reader]

def frameFirst : List UInt8 :=
  (write_frame longChannels false false 1 [] GSM0710_TYPE_UIH).1 ++
    List.replicate 6 GSM0710_FRAME_FLAG ++ longFrameStart

theorem announced_iff_frameFirst : ∃ s os,
    (backpressure longChannels false).Runs {}
      (fillOps frameFirst ++ List.replicate 15 .assembler) s os ∧
    (s.reader = .waiting true ∧ s.assembler = .top ∧ 0 < s.buf.free) ∧
    ((backpressure longChannels false).RunsMeeting
        (fun _ s op => s.Announced longChannels false op) {}
        (fillOps frameFirst ++ List.replicate 15 .assembler) s os ↔
      ∀ ops₁ ops₂ s₁ os₁, fillOps frameFirst ++ List.replicate 15 .assembler = ops₁ ++ ops₂ →
        (backpressure longChannels false).Runs {} ops₁ s₁ os₁ → s₁.NoLostWakeup) := by
  obtain ⟨s, os, hrun, hend⟩ : ∃ s os, (backpressure longChannels false).Runs {}
      (fillOps frameFirst ++ List.replicate 15 .assembler) s os ∧
      (s.reader = .waiting true ∧ s.assembler = .top ∧ 0 < s.buf.free) :=
    Machine.exists_run_of_shows (by decide +kernel)
  exact ⟨s, os, hrun, hend, announced_iff hrun⟩

/-- Flags, and the first part of a frame: the pass frees what the flags took, and ends over the
reader that sleeps. -/
theorem flagsFirst_lost : ∃ s os,
    (backpressure longChannels false).Runs {}
      (fillOps (List.replicate 13 GSM0710_FRAME_FLAG ++ longFrameStart.take 4083) ++
        List.replicate 17 .assembler) s os ∧
    ¬ s.NoLostWakeup ∧ s.buf.free = 14 := by
  obtain ⟨s, os, hrun, hreader, hassembler, hfree⟩ :
      ∃ s os, (backpressure longChannels false).Runs {}
        (fillOps (List.replicate 13 GSM0710_FRAME_FLAG ++ longFrameStart.take 4083) ++
          List.replicate 17 .assembler) s os ∧
        s.reader = .waiting false ∧ s.assembler = .top ∧ s.buf.free = 14 :=
    Machine.exists_run_of_shows (by decide +kernel)
  refine ⟨s, os, hrun, fun hlaw => hlaw (by rw [hassembler]; rfl) ⟨hreader, ?_⟩, hfree⟩
  omega

end Backpressure

end MtkHardware.Gsm0710
