import MtkHardware.Gsm0710.Buffer

/-!
# Chunks

The bytes from the modem are written to the buffer in chunks, as they come, and a decoder is called
after each chunk. A decoder that gets frames out of chunks has to keep what it knows between two
calls in the buffer.

What this comes to is stated here for any decoder: there has to be a relation `Pending` between the
frames that are still to be returned, the bytes that are still to be written, and the buffer, and a
call has to keep it.
-/

namespace MtkHardware.Gsm0710

/-- A call of a decoder: a frame or `NULL`, and the buffer then. -/
abbrev Decoder := GSM0710_Buffer → Except MuxFault (Option GSM0710_Frame × GSM0710_Buffer)

inductive MuxOp
  | write (chunk : List UInt8)
  | getFrame

inductive MuxOutput
  /-- The bytes of a chunk that have been written. -/
  | written (bytes : List UInt8)
  | returned (frame : Option GSM0710_Frame)

def bufferMachine (getFrame : Decoder) : Machine GSM0710_Buffer MuxOp MuxOutput MuxFault
  | buf, .write chunk =>
    let (buf', length) := buf.gsm0710_buffer_write chunk
    .ok (buf', [.written (chunk.take length)])
  | buf, .getFrame =>
    (getFrame buf).map fun r => (r.2, [.returned r.1])

def writtenBytes (os : List MuxOutput) : List UInt8 :=
  os.flatMap fun
    | .written bytes => bytes
    | .returned _ => []

def returnedFrames (os : List MuxOutput) : List GSM0710_Frame :=
  os.filterMap fun
    | .written _ => none
    | .returned frame => frame

@[simp] theorem writtenBytes_append (os o : List MuxOutput) :
    writtenBytes (os ++ o) = writtenBytes os ++ writtenBytes o := List.flatMap_append

@[simp] theorem returnedFrames_append (os o : List MuxOutput) :
    returnedFrames (os ++ o) = returnedFrames os ++ returnedFrames o := List.filterMap_append

theorem bufferMachine_write (getFrame : Decoder) (buf : GSM0710_Buffer) (chunk : List UInt8) :
    bufferMachine getFrame buf (.write chunk) =
      .ok ({ buf.put chunk with newdataready := true }, [.written (chunk.take buf.free)]) := by
  simp [bufferMachine, GSM0710_Buffer.gsm0710_buffer_write, List.take_eq_take_iff, Nat.min_comm]

/-- Nothing is in the buffer, and no frame has been started. -/
structure GSM0710_Buffer.Idle (buf : GSM0710_Buffer) : Prop where
  sound : buf.Sound
  content : buf.content = []
  flag_found : buf.flag_found = false

/-! ### Decoders that resume -/

/-- A decoder **resumes**: with frames still to be returned, and bytes still to be written, what is
pending stays so when some of the bytes are written, and a call returns the next frame, or returns
`NULL` and leaves room for more. When there is nothing more to be written, `NULL` means that no
frame is left. -/
structure Resumes (getFrame : Decoder)
    (Pending : List GSM0710_Frame → List UInt8 → GSM0710_Buffer → Prop) : Prop where
  write : ∀ {frames chunk later buf}, Pending frames (chunk.take buf.free ++ later) buf →
    Pending frames later { buf.put chunk with newdataready := true }
  getFrame : ∀ {frames later buf}, Pending frames later buf →
    ∃ frame buf', getFrame buf = .ok (frame, buf') ∧
      match frame with
      | some f => ∃ frames', frames = f :: frames' ∧ Pending frames' later buf'
      | none => Pending frames later buf' ∧ 0 < buf'.free ∧ (later = [] → frames = [])

/-- **However the stream is cut**: as long as what is written is of the stream, what is returned is
of the frames, the next call returns, and once all has been written a call that returns `NULL` has
nothing left to return. -/
theorem Resumes.run {getFrame : Decoder}
    {Pending : List GSM0710_Frame → List UInt8 → GSM0710_Buffer → Prop}
    (h : Resumes getFrame Pending) {frames : List GSM0710_Frame} {stream : List UInt8}
    {buf₀ buf : GSM0710_Buffer} (hinit : Pending frames stream buf₀) {ops : List MuxOp}
    {os : List MuxOutput} (hrun : (bufferMachine getFrame).Runs buf₀ ops buf os)
    (hstream : writtenBytes os <+: stream) :
    ∃ left later, frames = returnedFrames os ++ left ∧ stream = writtenBytes os ++ later ∧
      Pending left later buf := by
  revert hstream
  refine hrun.invariant (I := fun _ buf os => writtenBytes os <+: stream → ∃ left later,
    frames = returnedFrames os ++ left ∧ stream = writtenBytes os ++ later ∧
      Pending left later buf) (fun _ => ⟨frames, stream, rfl, rfl, hinit⟩) ?_
  intro _ buf os op buf' o ih hstep hstream
  rw [writtenBytes_append] at hstream
  obtain ⟨left, later, hframes, hlater, hpending⟩ := ih ((List.prefix_append ..).trans hstream)
  cases op with
  | write chunk =>
    rw [bufferMachine_write] at hstep
    cases hstep
    have hwritten : writtenBytes [.written (chunk.take buf.free)] = chunk.take buf.free := by
      simp [writtenBytes]
    rw [hwritten] at hstream
    obtain ⟨later', hlater'⟩ := hstream
    rw [hlater, List.append_assoc, List.append_cancel_left_eq] at hlater'
    rw [← hlater'] at hpending hlater
    refine ⟨left, later', ?_, ?_, h.write hpending⟩
    · rw [returnedFrames_append, hframes]
      simp [returnedFrames]
    · rw [writtenBytes_append, hwritten, hlater, List.append_assoc]
  | getFrame =>
    obtain ⟨r, hr, heq⟩ := map_eq_ok_iff.mp hstep
    cases heq
    obtain ⟨frame, buf'', hget, hframe⟩ := h.getFrame hpending
    rw [hget] at hr
    cases hr
    have hwritten : writtenBytes [.returned frame] = [] := rfl
    rw [writtenBytes_append, returnedFrames_append, hwritten, List.append_nil]
    cases frame with
    | none => exact ⟨left, later, by simpa [returnedFrames] using hframes, hlater, hframe.1⟩
    | some f =>
      obtain ⟨left', rfl, hpending'⟩ := hframe
      exact ⟨left', later, by rw [hframes]; simp [returnedFrames], hlater, hpending'⟩

theorem Resumes.round_trip {getFrame : Decoder}
    {Pending : List GSM0710_Frame → List UInt8 → GSM0710_Buffer → Prop}
    (h : Resumes getFrame Pending) {frames : List GSM0710_Frame} {stream : List UInt8}
    {buf₀ buf : GSM0710_Buffer} (hinit : Pending frames stream buf₀) {dropped : ℕ}
    (hdropped : ∀ {frames later buf}, Pending frames later buf → buf.dropped_count = dropped)
    {ops : List MuxOp} {os : List MuxOutput}
    (hrun : (bufferMachine getFrame).Runs buf₀ ops buf os)
    (hwritten : writtenBytes os <+: stream) :
    returnedFrames os <+: frames ∧ buf.dropped_count = dropped ∧
      ∃ frame buf', getFrame buf = .ok (frame, buf') ∧
        (frame = none → 0 < buf'.free ∧
          (writtenBytes os = stream → returnedFrames os = frames)) := by
  obtain ⟨left, later, hframes, hlater, hpending⟩ := h.run hinit hrun hwritten
  obtain ⟨frame, buf', hget, hframe⟩ := h.getFrame hpending
  refine ⟨⟨left, hframes.symm⟩, hdropped hpending, frame, buf', hget, ?_⟩
  rintro rfl
  obtain ⟨-, hfree, hdone⟩ := hframe
  refine ⟨hfree, fun hall => ?_⟩
  rw [hall, List.self_eq_append_right] at hlater
  rw [hframes, hdone hlater, List.append_nil]

end MtkHardware.Gsm0710
