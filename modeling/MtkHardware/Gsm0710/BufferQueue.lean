import MtkHardware.Gsm0710.Buffer

/-!
# The Receive Buffer as a Queue

Bytes are written by `gsm0710_buffer_write`, of which the buffer takes as many as there is room for,
and read one by one, `*readp` and `gsm0710_buffer_inc`, where `datacount` says that there is one.
The pointers and the counter then make up a queue.
-/

namespace MtkHardware.Gsm0710

open RingBuffer

inductive BufferOp
  | write (input : List UInt8)
  | read

/-- What comes out of a call: the bytes that have been accepted, or the byte that has been read. -/
inductive BufferOut
  | accepted (bytes : List UInt8)
  | byte (b : UInt8)

namespace BufferOut

def accepted? : BufferOut → List UInt8
  | accepted bytes => bytes
  | byte _ => []

def read? : BufferOut → Option UInt8
  | accepted _ => none
  | byte b => some b

end BufferOut

/-- **The buffer** under calls in any order. Nothing is read where there is nothing. -/
def buffer : Machine GSM0710_Buffer BufferOp BufferOut MuxFault
  | buf, .write input =>
    let (buf, written) := buf.gsm0710_buffer_write input
    .ok (buf, [.accepted (input.take written)])
  | buf, .read =>
    if buf.datacount = 0 then .error .underflow
    else .ok (buf.inc, [.byte (buf.data buf.readp)])

def acceptedBytes (os : List BufferOut) : List UInt8 := os.flatMap BufferOut.accepted?

def readBack (os : List BufferOut) : List UInt8 := os.filterMap BufferOut.read?

namespace GSM0710_Buffer

variable {buf buf' : GSM0710_Buffer} {input : List UInt8} {op : BufferOp} {o : List BufferOut}

/-- **No byte that has not been read is written over.** -/
theorem Sound.data_put (h : buf.Sound) (input : List UInt8) {i : ℕ} (hi : i < buf.datacount) :
    (buf.put input).data ((buf.readp + i) % GSM0710_BUFFER_SIZE) =
      buf.data ((buf.readp + i) % GSM0710_BUFFER_SIZE) := by
  obtain ⟨data, writep, datacount, hput⟩ := exists_put_eq buf input
  have hcontent := h.content_put input
  have hcount := congrArg List.length hcontent
  rw [List.length_append, length_content, length_content] at hcount
  have hfirst := congrArg (List.take buf.datacount) hcontent
  rw [content, take_window (by omega), List.take_append_of_le_length (by rw [length_content]),
    List.take_of_length_le (by rw [length_content]), content] at hfirst
  have hreadp : (buf.put input).readp = buf.readp := by rw [hput]
  rw [hreadp] at hfirst
  exact List.map_eq_map_iff.mp hfirst i (List.mem_range.mpr hi)

/-- **A call**: the buffer stays sound, and its content is that of a queue. -/
theorem Sound.step (h : buf.Sound) (hstep : buffer buf op = .ok (buf', o)) :
    buf'.Sound ∧ buf.content ++ acceptedBytes o = readBack o ++ buf'.content := by
  cases op with
  | write input =>
    obtain ⟨rfl, rfl⟩ := Prod.mk.inj (Except.ok.inj hstep)
    have hsound := h.put input
    refine ⟨⟨hsound.readp, hsound.datacount, hsound.writep⟩, ?_⟩
    have htake : input.take (min input.length buf.free) = input.take buf.free := by
      rw [← List.take_take]
      exact List.take_of_length_le (List.length_take_le' _ _)
    have haccepted : acceptedBytes [.accepted (input.take (min input.length buf.free))] =
        input.take (min input.length buf.free) := List.append_nil _
    have hcontent := h.content_put input
    rw [haccepted, htake]
    exact hcontent.symm
  | read =>
    rw [buffer] at hstep
    split at hstep
    · cases hstep
    · rename_i hne
      obtain ⟨rfl, rfl⟩ := Prod.mk.inj (Except.ok.inj hstep)
      have hpos := Nat.pos_of_ne_zero hne
      refine ⟨h.inc hpos, ?_⟩
      rw [h.content_inc hpos]
      exact List.append_nil _

end GSM0710_Buffer

open GSM0710_Buffer

variable {ops : List BufferOp} {s : GSM0710_Buffer} {os : List BufferOut}

theorem accepted_eq (hrun : buffer.Runs {} ops s os) :
    s.Sound ∧ acceptedBytes os = readBack os ++ s.content := by
  refine hrun.invariant (I := fun _ s os => s.Sound ∧ acceptedBytes os = readBack os ++ s.content)
    ⟨sound_init, rfl⟩ ?_
  intro ops s os op s' o ⟨hsound, heq⟩ hstep
  obtain ⟨hsound', hcontent⟩ := hsound.step hstep
  refine ⟨hsound', ?_⟩
  rw [acceptedBytes, readBack, List.flatMap_append, List.filterMap_append, ← acceptedBytes,
    ← acceptedBytes, ← readBack, ← readBack, heq, List.append_assoc, hcontent, List.append_assoc]

/-- **The receive buffer is a queue**: after every sequence of writes and reads, `datacount` is the
number of the bytes that have been accepted and not been read, and not more than the size; the
distance of the pointers agrees with it; the bytes that have been read are the first ones that have
been accepted, in order, and the unread ones are behind `readp`, where no write changes them. -/
theorem buffer_is_queue (hrun : buffer.Runs {} ops s os) :
    s.datacount + (readBack os).length = (acceptedBytes os).length ∧
    s.datacount ≤ GSM0710_BUFFER_SIZE ∧
    ((s.writep : ℤ) - s.readp) % GSM0710_BUFFER_SIZE = s.datacount % GSM0710_BUFFER_SIZE ∧
    acceptedBytes os = readBack os ++ s.content ∧
    ∀ input, ∀ i < s.datacount,
      (s.gsm0710_buffer_write input).1.data ((s.readp + i) % GSM0710_BUFFER_SIZE) =
        s.data ((s.readp + i) % GSM0710_BUFFER_SIZE) := by
  obtain ⟨hsound, heq⟩ := accepted_eq hrun
  refine ⟨?_, hsound.datacount, ?_, heq, fun input i hi => hsound.data_put input hi⟩
  · rw [heq, List.length_append, length_content]
    omega
  · have hwritep := hsound.writep
    have hsize : GSM0710_BUFFER_SIZE = 4096 := rfl
    rw [hsize] at hwritep ⊢
    omega

/-- Three bytes are written, and one is read. -/
theorem buffer_is_queue_three : ∃ s os, buffer.Runs {} [.write [1, 2, 3], .read] s os ∧
    s.datacount + (readBack os).length = (acceptedBytes os).length := by
  obtain ⟨s, os, hrun⟩ : ∃ s os, buffer.Runs {} [.write [1, 2, 3], .read] s os :=
    ⟨_, _, Machine.runs_of_run rfl⟩
  exact ⟨s, os, hrun, (buffer_is_queue hrun).1⟩

end MtkHardware.Gsm0710
