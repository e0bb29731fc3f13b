import MtkHardware.Audio.Pcm
import MtkHardware.Audio.RingBuf
import MtkHardware.Util.Run

/-!
# The Capture Data Client

The bytes that are captured go through three rings, of raw, converted and processed data. A client
that needs no conversion moves them from one into the next, as far as there is room. `read` takes
them out of the last one, after the bytes that are dropped, and waits where there are too few. What
is read is faded in, faded out or muted in its buffer.
-/

namespace MtkHardware.Audio

/-! ### The volume -/

def MTK_STREAMIN_VOLUEM_MAX : ℤ := 0x1000
def MTK_STREAMIN_VOLUME_VALID_BIT : ℕ := 12

/-- The `float` that is nearest to a number: of two that are as near, the one with the even
significand of 24 bits. -/
def floatOf (n : ℤ) : ℤ :=
  let e := n.natAbs.log2 - 23
  let q := n.natAbs / 2 ^ e
  let r := n.natAbs % 2 ^ e
  let q := if 2 ^ e < 2 * r ∨ 2 ^ e = 2 * r ∧ q % 2 = 1 then q + 1 else q
  n.sign * (q * 2 ^ e : ℕ)

def scaleSamples (volume : ℕ → ℤ) : ℕ → List UInt8 → List UInt8
  | i, lo :: hi :: buffer =>
    let value := floatOf ((sampleOf lo hi).toInt * volume i)
    bytesOf ((clamp16 ((BitVec.ofInt 32 value).sshiftRight
      MTK_STREAMIN_VOLUME_VALID_BIT)).setWidth 16) ++ scaleSamples volume (i + 1) buffer
  | _, buffer => buffer

/-- The mute of the client: as it is, whether the transition to it is done, and as it is set. -/
structure MicMute where
  mMicMute : Bool := false
  mMuteTransition : Bool := false
  micmute : Bool := false
  deriving DecidableEq, Repr

def applyVolume (mute : MicMute) (buffer : List UInt8) : MicMute × List UInt8 :=
  let mute := if mute.mMicMute ≠ mute.micmute then
    { mute with mMicMute := mute.micmute, mMuteTransition := false } else mute
  let count : ℤ := (buffer.length / 2 : ℕ)
  if mute.mMicMute then
    if mute.mMuteTransition = false then
      ({ mute with mMuteTransition := true }, scaleSamples (fun ConsumeSample =>
        MTK_STREAMIN_VOLUEM_MAX + MTK_STREAMIN_VOLUEM_MAX / count * -1 * ConsumeSample) 0 buffer)
    else (mute, List.replicate buffer.length 0)
  else if mute.mMuteTransition = false then
    ({ mute with mMuteTransition := true }, scaleSamples (fun ConsumeSample =>
      MTK_STREAMIN_VOLUEM_MAX / count * ConsumeSample) 0 buffer)
  else (mute, buffer)

/-- The microphone is on, and the transition to it is done. -/
def MicMute.Steady (mute : MicMute) : Prop :=
  mute.mMicMute = false ∧ mute.micmute = false ∧ mute.mMuteTransition = true

instance : DecidablePred MicMute.Steady := fun _ => inferInstanceAs (Decidable (_ ∧ _))

theorem applyVolume_steady {mute : MicMute} (h : mute.Steady) (buffer : List UInt8) :
    applyVolume mute buffer = (mute, buffer) := by
  obtain ⟨mMicMute, mMuteTransition, micmute⟩ := mute
  obtain ⟨rfl, rfl, rfl⟩ := h
  rfl

/-! ### The client -/

/-- A call of `read`: the bytes that are asked for, its buffer, and what is left to be done. -/
structure ReadCall where
  bytes : ℕ
  buffer : List UInt8
  pWrite : ℕ := 0
  ReadDataBytes : ℕ
  TryCount : ℕ := 20
  waiting : Bool := false
  deriving DecidableEq, Repr

structure CaptureDataClient where
  mRawDataBuf : RingBuf
  mSrcDataBuf : RingBuf
  mProcessedDataBuf : RingBuf
  dropBesRecordDataSize : ℕ := 0
  mute : MicMute := {}
  reader : Option ReadCall := none

/-- What a call of `read` has done: it stored some bytes in its buffer, and returned a number. -/
structure ReadResult where
  bytes : ℕ
  stored : List UInt8
  /-- Is the microphone on, and its transition done? -/
  steady : Bool
  buffer : List UInt8
  ret : ℕ
  deriving DecidableEq, Repr

inductive CaptureEvent
  /-- A chunk comes, while there is some free space, and some of it is kept. -/
  | copied (chunk : List UInt8) (freeSpace : ℕ) (kept : List UInt8)
  | dropped (bytes : List UInt8)
  | returned (result : ReadResult)
  deriving DecidableEq, Repr

/-- The bytes of a block of memory, with some of them replaced. -/
def store (buffer : List UInt8) (p : ℕ) (bytes : List UInt8) : List UInt8 :=
  buffer.take p ++ bytes ++ buffer.drop (p + bytes.length)

namespace CaptureDataClient

variable (s : CaptureDataClient)

def moveInto (RingBuft RingBufs : RingBuf) : Except Assertion (RingBuf × RingBuf) :=
  RingBuf.copyFromRingBuf RingBuft RingBufs
    (if RingBuft.getFreeSpace < RingBufs.getDataCount then RingBuft.getFreeSpace
      else RingBufs.getDataCount)

def copyCaptureDataToClient (pcm_read_buf : RingBuf) :
    Except Assertion (CaptureDataClient × List CaptureEvent) := do
  let freeSpace := s.mRawDataBuf.getFreeSpace
  let chunk := pcm_read_buf.content
  let (mRawDataBuf, _) ← moveInto s.mRawDataBuf pcm_read_buf
  let (mSrcDataBuf, mRawDataBuf) ← moveInto s.mSrcDataBuf mRawDataBuf
  let (mProcessedDataBuf, mSrcDataBuf) ← moveInto s.mProcessedDataBuf mSrcDataBuf
  .ok ({ s with mRawDataBuf, mSrcDataBuf, mProcessedDataBuf },
    [.copied chunk freeSpace (chunk.take freeSpace)])

inductive CaptureFault
  | assertion (a : Assertion)
  /-- A loop that drops blocks of no bytes. -/
  | endless
  /-- A step that is not there: of a read that is not called, or waits, or does not wait. -/
  | blocked
  deriving DecidableEq, Repr

/-- Drop bytes in blocks that fit into the rest of the buffer, of which each is copied over the one
before. -/
def dropLoop (pWrite ReadDataBytes : ℕ) : ℕ → ℕ → ℕ → List UInt8 → RingBuf →
    Except CaptureFault (List UInt8 × ℕ × List UInt8 × RingBuf)
  | fuel, RingBufferSize, toDrop, buffer, ring =>
    if RingBufferSize = 0 ∨ toDrop = 0 then .ok ([], toDrop, buffer, ring)
    else
      match fuel with
      | 0 => .error .endless
      | fuel + 1 =>
        let dropSize := min (min toDrop ReadDataBytes) RingBufferSize
        let block := ring.copyToLinear dropSize
        match dropLoop pWrite ReadDataBytes fuel (RingBufferSize - dropSize)
          (toDrop - dropSize) (store buffer pWrite block.1) block.2 with
        | .error e => .error e
        | .ok (rest, result) => .ok (block.1 ++ rest, result)

/-- The drop phase. Where all bytes can be dropped, the loop does not look at what is in the ring,
which is as if there were just these. A block has a byte, so that there are at most as many blocks
as bytes. -/
def dropData (r : ReadCall) : Except CaptureFault (List UInt8 × ℕ × List UInt8 × RingBuf) :=
  let RingBufferSize := s.mProcessedDataBuf.getDataCount
  let toDrop := s.dropBesRecordDataSize
  let size := if toDrop ≤ RingBufferSize then toDrop else RingBufferSize
  dropLoop r.pWrite r.ReadDataBytes size size toDrop r.buffer s.mProcessedDataBuf

def stored (r : ReadCall) : List UInt8 := r.buffer.take (r.bytes % 2 ^ 32 - r.ReadDataBytes)

def returnRead (r : ReadCall) : CaptureDataClient × CaptureEvent :=
  let BufferSize := r.bytes % 2 ^ 32
  let volume := applyVolume s.mute (r.buffer.take BufferSize)
  ({ s with mute := volume.1, reader := none },
    .returned { bytes := r.bytes, stored := stored r, steady := s.mute.Steady,
                buffer := volume.2 ++ r.buffer.drop BufferSize, ret := r.bytes - r.ReadDataBytes })

/-- One pass of a call through its loop, up to the wait. -/
def pass (r : ReadCall) : Except CaptureFault (CaptureDataClient × List CaptureEvent) :=
  match s.dropData r with
  | .error e => .error e
  | .ok (dropped, dropBesRecordDataSize, buffer, ring) =>
    let s := { s with dropBesRecordDataSize, mProcessedDataBuf := ring }
    if dropBesRecordDataSize = 0 then
      let RingBufferSize := ring.getDataCount
      if r.ReadDataBytes ≤ RingBufferSize then
        let block := ring.copyToLinear r.ReadDataBytes
        let (s, returned) := { s with mProcessedDataBuf := block.2 }.returnRead
          { r with buffer := store buffer r.pWrite block.1, ReadDataBytes := 0 }
        .ok (s, [.dropped dropped, returned])
      else
        let block := ring.copyToLinear RingBufferSize
        .ok ({ s with
          mProcessedDataBuf := block.2
          reader := some { r with
            buffer := store buffer r.pWrite block.1
            ReadDataBytes := r.ReadDataBytes - RingBufferSize
            pWrite := r.pWrite + RingBufferSize
            waiting := true } }, [.dropped dropped])
    else .ok ({ s with reader := some { r with buffer, waiting := true } }, [.dropped dropped])

def wake (r : ReadCall) (signalled : Bool) : CaptureDataClient × List CaptureEvent :=
  if signalled then
    let r := { r with TryCount := r.TryCount - 1, waiting := false }
    if 0 < r.ReadDataBytes ∧ r.TryCount ≠ 0 then ({ s with reader := some r }, [])
    else
      let (s, returned) := s.returnRead r
      (s, [returned])
  else
    let (s, returned) := s.returnRead r
    (s, [returned])

variable {s}

/-! ### Blocks -/

section Store

variable {buffer bytes : List UInt8} {p : ℕ}

theorem length_store (h : p + bytes.length ≤ buffer.length) :
    (store buffer p bytes).length = buffer.length := by
  rw [store, List.length_append, List.length_append, List.length_take, List.length_drop]
  omega

theorem take_store (h : p + bytes.length ≤ buffer.length) :
    (store buffer p bytes).take (p + bytes.length) = buffer.take p ++ bytes := by
  refine List.take_left' ?_
  rw [List.length_append, List.length_take]
  omega

theorem take_store_of_le (h : p + bytes.length ≤ buffer.length) :
    (store buffer p bytes).take p = buffer.take p := by
  rw [store, List.append_assoc]
  refine List.take_left' ?_
  rw [List.length_take]
  omega

end Store

theorem moveInto_spec {RingBuft RingBufs : RingBuf} (ht : RingBuft.Sound) (hs : RingBufs.Valid) :
    ∃ t s, moveInto RingBuft RingBufs = .ok (t, s) ∧ t.Sound ∧ s.Valid ∧
      t.content = RingBuft.content ++ RingBufs.content.take RingBuft.getFreeSpace ∧
      s.content = RingBufs.content.drop RingBuft.getFreeSpace ∧ s.bufLen = RingBufs.bufLen := by
  have hlength : RingBufs.content.length = _ := RingBuf.length_content
  rw [moveInto]
  split
  · rename_i hlt
    exact ht.copyFromRingBuf hs hlt.le le_rfl
  · rename_i hle
    obtain ⟨t, s, hok, hts, hsv, htc, hsc, hsl⟩ :=
      ht.copyFromRingBuf hs le_rfl (not_lt.mp hle)
    refine ⟨t, s, hok, hts, hsv, ?_, ?_, hsl⟩
    · rw [htc, ← hlength, List.take_length, List.take_of_length_le (by omega)]
    · rw [hsc, ← hlength, List.drop_length, List.drop_of_length_le (by omega)]

theorem moveInto_sound {RingBuft RingBufs : RingBuf} (ht : RingBuft.Sound) (hs : RingBufs.Sound) :
    ∃ t s, moveInto RingBuft RingBufs = .ok (t, s) ∧ t.Sound ∧ s.Sound ∧
      t.content ++ s.content = RingBuft.content ++ RingBufs.content := by
  obtain ⟨t, s, hok, hts, hsv, htc, hsc, hsl⟩ := moveInto_spec ht hs.toValid
  refine ⟨t, s, hok, hts, ⟨hsv, ?_⟩, ?_⟩
  · have := hs.room
    rw [← RingBuf.length_content, hsc, hsl, List.length_drop, RingBuf.length_content]
    omega
  · rw [htc, hsc, List.append_assoc, List.take_append_drop]

/-- **Copying a chunk** appends what there is room for, and moves bytes from ring to ring. -/
theorem copyCaptureDataToClient_spec (hraw : s.mRawDataBuf.Sound) (hsrc : s.mSrcDataBuf.Sound)
    (hproc : s.mProcessedDataBuf.Sound) {pcm_read_buf : RingBuf} (hchunk : pcm_read_buf.Valid) :
    ∃ raw src proc, s.copyCaptureDataToClient pcm_read_buf =
        .ok ({ s with mRawDataBuf := raw, mSrcDataBuf := src, mProcessedDataBuf := proc },
          [.copied pcm_read_buf.content s.mRawDataBuf.getFreeSpace
            (pcm_read_buf.content.take s.mRawDataBuf.getFreeSpace)]) ∧
      raw.Sound ∧ src.Sound ∧ proc.Sound ∧
      proc.content ++ src.content ++ raw.content =
        s.mProcessedDataBuf.content ++ s.mSrcDataBuf.content ++ s.mRawDataBuf.content ++
          pcm_read_buf.content.take s.mRawDataBuf.getFreeSpace := by
  obtain ⟨raw₁, chunk, h₁, hraw₁, -, hcontent₁, -, -⟩ := moveInto_spec hraw hchunk
  obtain ⟨src₁, raw, h₂, hsrc₁, hraw₂, hcontent₂⟩ := moveInto_sound hsrc hraw₁
  obtain ⟨proc, src, h₃, hproc₁, hsrc₂, hcontent₃⟩ := moveInto_sound hproc hsrc₁
  refine ⟨raw, src, proc, ?_, hraw₂, hsrc₂, hproc₁, ?_⟩
  · rw [copyCaptureDataToClient, h₁]
    dsimp only [bind, Except.bind]
    rw [h₂]
    dsimp only
    rw [h₃]
  · calc proc.content ++ src.content ++ raw.content
        = s.mProcessedDataBuf.content ++ (src₁.content ++ raw.content) := by
          rw [hcontent₃, List.append_assoc]
      _ = s.mProcessedDataBuf.content ++ s.mSrcDataBuf.content ++ raw₁.content := by
          rw [hcontent₂, List.append_assoc]
      _ = _ := by rw [hcontent₁, ← List.append_assoc]

/-- **The drop loop** takes bytes out of the ring, and leaves what is stored in the buffer. -/
theorem dropLoop_spec {pWrite ReadDataBytes fuel RingBufferSize toDrop toDrop' : ℕ}
    {buffer buffer' dropped : List UInt8} {ring ring' : RingBuf} (h : ring.Sound)
    (hsize : RingBufferSize ≤ ring.getDataCount) (hbuffer : pWrite + ReadDataBytes ≤ buffer.length)
    (hloop : dropLoop pWrite ReadDataBytes fuel RingBufferSize toDrop buffer ring =
      .ok (dropped, toDrop', buffer', ring')) :
    ring'.Sound ∧ ring.content = dropped ++ ring'.content ∧ dropped.length + toDrop' = toDrop ∧
      buffer'.length = buffer.length ∧ buffer'.take pWrite = buffer.take pWrite := by
  induction fuel generalizing RingBufferSize toDrop buffer ring dropped with
  | zero =>
    rw [dropLoop] at hloop
    split at hloop
    · cases hloop
      exact ⟨h, rfl, Nat.zero_add _, rfl, rfl⟩
    · cases hloop
  | succ fuel ih =>
    rw [dropLoop] at hloop
    split at hloop
    · cases hloop
      exact ⟨h, rfl, Nat.zero_add _, rfl, rfl⟩
    · dsimp only at hloop
      have hcount : min (min toDrop ReadDataBytes) RingBufferSize ≤ ring.getDataCount := by omega
      have hlength : ring.content.length = _ := RingBuf.length_content
      obtain ⟨htake, hsound, hdrop⟩ := h.copyToLinear hcount
      have hblock : (ring.copyToLinear (min (min toDrop ReadDataBytes) RingBufferSize)).1.length =
          min (min toDrop ReadDataBytes) RingBufferSize := by
        rw [htake, List.length_take]
        omega
      generalize ring.copyToLinear (min (min toDrop ReadDataBytes) RingBufferSize) = block at *
      split at hloop
      · cases hloop
      · rename_i rest result hrest
        obtain ⟨rfl, rfl⟩ := Prod.mk.inj (Except.ok.inj hloop)
        have hstore : pWrite + block.1.length ≤ buffer.length := by omega
        have hrestsize : RingBufferSize - min (min toDrop ReadDataBytes) RingBufferSize ≤
            block.2.getDataCount := by
          rw [← RingBuf.length_content, hdrop, List.length_drop]
          omega
        obtain ⟨hsound', hcontent, hnum, hlen, hkept⟩ := ih hsound hrestsize
          (by rw [length_store hstore]; exact hbuffer) hrest
        refine ⟨hsound', ?_, ?_, hlen.trans (length_store hstore),
          hkept.trans (take_store_of_le hstore)⟩
        · rw [List.append_assoc, ← hcontent, hdrop, htake, List.take_append_drop]
        · rw [List.length_append]
          omega

end CaptureDataClient

/-- The steps of the client: a chunk comes, a read is called with its buffer, it passes its loop and
its wait ends; the microphone is muted or not. -/
inductive CaptureOp
  | copyCaptureDataToClient (pcm_read_buf : { rb : RingBuf // rb.Valid })
  | read (buffer : List UInt8)
  | pass
  | wake (signalled : Bool)
  | setMicMute (micmute : Bool)

open CaptureDataClient in
def captureClient : Machine CaptureDataClient CaptureOp CaptureEvent CaptureFault := fun s op =>
  match op with
  | .copyCaptureDataToClient pcm_read_buf =>
    match s.copyCaptureDataToClient pcm_read_buf with
    | .error e => .error (.assertion e)
    | .ok result => .ok result
  | .read buffer =>
    match s.reader with
    | some _ => .error .blocked
    | none => .ok ({ s with reader := some {
        bytes := buffer.length, buffer, ReadDataBytes := buffer.length % 2 ^ 32 } }, [])
  | .pass =>
    match s.reader with
    | none => .error .blocked
    | some r => if r.waiting then .error .blocked else s.pass r
  | .wake signalled =>
    match s.reader with
    | none => .error .blocked
    | some r => if r.waiting then .ok (s.wake r signalled) else .error .blocked
  | .setMicMute micmute => .ok ({ s with mute := { s.mute with micmute } }, [])

/-! ### Runs of the client -/

namespace CaptureEvent

def kept : CaptureEvent → List UInt8
  | copied _ _ kept => kept
  | _ => []

def gone : CaptureEvent → List UInt8
  | dropped bytes => bytes
  | _ => []

def read : CaptureEvent → List UInt8
  | returned result => result.stored
  | _ => []

/-- What an event is to be: of a chunk, only what there is no room for is lost; a read returns the
number of the bytes it has stored, and leaves them where the microphone is on. -/
def Right : CaptureEvent → Prop
  | copied chunk freeSpace kept => kept = chunk.take freeSpace
  | dropped _ => True
  | returned result =>
    result.ret = result.stored.length + (result.bytes - result.bytes % 2 ^ 32) ∧
      (result.steady = true → result.buffer.take result.stored.length = result.stored)

end CaptureEvent

namespace CaptureDataClient

variable {s s' : CaptureDataClient} {r : ReadCall} {d : ℕ} {es es' : List CaptureEvent}

def inProgress (s : CaptureDataClient) : List UInt8 :=
  match s.reader with
  | none => []
  | some r => stored r

/-- The bytes in the rings, the next one to be read first. -/
def inRings (s : CaptureDataClient) : List UInt8 :=
  s.mProcessedDataBuf.content ++ s.mSrcDataBuf.content ++ s.mRawDataBuf.content

structure ReadSound (r : ReadCall) : Prop where
  buffer : r.buffer.length = r.bytes
  rest : r.pWrite + r.ReadDataBytes = r.bytes % 2 ^ 32

/-- What holds between the steps, after some events: all bytes that were kept are dropped, read, in
the buffer of a call or in a ring, in this order. -/
structure Flow (d : ℕ) (s : CaptureDataClient) (es : List CaptureEvent) : Prop where
  raw : s.mRawDataBuf.Sound
  src : s.mSrcDataBuf.Sound
  processed : s.mProcessedDataBuf.Sound
  order : es.flatMap CaptureEvent.kept = es.flatMap CaptureEvent.gone ++
    (es.flatMap CaptureEvent.read ++ s.inProgress) ++ s.inRings
  dropping : (es.flatMap CaptureEvent.gone).length + s.dropBesRecordDataSize = d
  undropped : 0 < s.dropBesRecordDataSize →
    es.flatMap CaptureEvent.read ++ s.inProgress = []
  reader : ∀ r, s.reader = some r → ReadSound r
  events : ∀ e ∈ es, e.Right

theorem length_stored (hbuffer : r.buffer.length = r.bytes) :
    (stored r).length = r.bytes % 2 ^ 32 - r.ReadDataBytes := by
  have hmod := Nat.mod_le r.bytes (2 ^ 32)
  rw [stored, List.length_take, hbuffer]
  omega

theorem returnRead_right (hbuffer : r.buffer.length = r.bytes)
    (hrest : r.ReadDataBytes ≤ r.bytes % 2 ^ 32) (s : CaptureDataClient) :
    (s.returnRead r).2.Right := by
  have hmod := Nat.mod_le r.bytes (2 ^ 32)
  have hlength := length_stored hbuffer
  rw [returnRead]
  refine ⟨?_, fun hsteady => ?_⟩
  · dsimp only
    omega
  · dsimp only at hsteady ⊢
    rw [applyVolume_steady (of_decide_eq_true hsteady), List.take_append_drop, hlength]
    rfl

/-- **A chunk comes.** -/
theorem Flow.copy (h : s.Flow d es) {pcm_read_buf : RingBuf} (hchunk : pcm_read_buf.Valid)
    (hstep : s.copyCaptureDataToClient pcm_read_buf = .ok (s', es')) : s'.Flow d (es ++ es') := by
  obtain ⟨raw, src, proc, hok, hraw, hsrc, hproc, hcontent⟩ :=
    copyCaptureDataToClient_spec h.raw h.src h.processed hchunk
  rw [hok] at hstep
  obtain ⟨rfl, rfl⟩ := Prod.mk.inj (Except.ok.inj hstep)
  have hgone : (es ++ [CaptureEvent.copied pcm_read_buf.content s.mRawDataBuf.getFreeSpace
      (pcm_read_buf.content.take s.mRawDataBuf.getFreeSpace)]).flatMap CaptureEvent.gone =
      es.flatMap CaptureEvent.gone := by
    simp [CaptureEvent.gone]
  have hread : (es ++ [CaptureEvent.copied pcm_read_buf.content s.mRawDataBuf.getFreeSpace
      (pcm_read_buf.content.take s.mRawDataBuf.getFreeSpace)]).flatMap CaptureEvent.read =
      es.flatMap CaptureEvent.read := by
    simp [CaptureEvent.read]
  refine { raw := hraw, src := hsrc, processed := hproc, order := ?_, dropping := ?_,
           undropped := ?_, reader := h.reader, events := ?_ }
  · rw [hgone, hread, List.flatMap_append, h.order, inRings, inRings]
    dsimp only
    rw [hcontent, List.append_assoc]
    simp [CaptureEvent.kept]
    rfl
  · rw [hgone]
    exact h.dropping
  · rw [hread]
    exact h.undropped
  · intro e he
    rcases List.mem_append.mp he with he | he
    · exact h.events e he
    · rw [List.mem_singleton.mp he]
      rfl

/-- **A step that takes bytes** from the front of the rings: it drops some, and only then stores
some. -/
theorem Flow.take (h : s.Flow d es) (stored : List UInt8) (hraw : s'.mRawDataBuf.Sound)
    (hsrc : s'.mSrcDataBuf.Sound) (hproc : s'.mProcessedDataBuf.Sound)
    (hkept : es'.flatMap CaptureEvent.kept = [])
    (hstored : es'.flatMap CaptureEvent.read ++ s'.inProgress = s.inProgress ++ stored)
    (hrings : s.inRings = es'.flatMap CaptureEvent.gone ++ stored ++ s'.inRings)
    (hdrop : (es'.flatMap CaptureEvent.gone).length + s'.dropBesRecordDataSize =
      s.dropBesRecordDataSize)
    (hlast : 0 < s'.dropBesRecordDataSize → stored = [])
    (hreader : ∀ r, s'.reader = some r → ReadSound r) (hevents : ∀ e ∈ es', e.Right) :
    s'.Flow d (es ++ es') := by
  have hread : (es ++ es').flatMap CaptureEvent.read ++ s'.inProgress =
      es.flatMap CaptureEvent.read ++ s.inProgress ++ stored := by
    rw [List.flatMap_append, List.append_assoc, hstored, ← List.append_assoc]
  have hundropped : ∀ g, g = es'.flatMap CaptureEvent.gone →
      es.flatMap CaptureEvent.read ++ s.inProgress ++ g =
        g ++ (es.flatMap CaptureEvent.read ++ s.inProgress) := fun g hg => by
    by_cases hpos : 0 < s.dropBesRecordDataSize
    · rw [h.undropped hpos, List.nil_append, List.append_nil]
    · obtain rfl : g = [] := List.length_eq_zero_iff.mp (by rw [hg]; omega)
      rw [List.append_nil, List.nil_append]
  refine { raw := hraw, src := hsrc, processed := hproc, order := ?_, dropping := ?_,
           undropped := ?_, reader := hreader, events := ?_ }
  · rw [hread, List.flatMap_append, hkept, List.append_nil, h.order, List.flatMap_append]
    calc _ = es.flatMap CaptureEvent.gone ++ (es.flatMap CaptureEvent.read ++ s.inProgress ++
          es'.flatMap CaptureEvent.gone) ++ stored ++ s'.inRings := by
          rw [hrings]
          simp only [List.append_assoc]
      _ = _ := by
          rw [List.append_assoc (es.flatMap CaptureEvent.gone), hundropped _ rfl]
          simp only [List.append_assoc]
  · rw [List.flatMap_append, List.length_append]
    have hdropping := h.dropping
    omega
  · intro hpos
    rw [hread, hlast hpos, h.undropped (by omega), List.nil_append]
  · intro e he
    exact (List.mem_append.mp he).elim (h.events e) (hevents e)

/-- **A pass** of a call drops bytes, and stores bytes where all are dropped. -/
theorem Flow.pass (h : s.Flow d es) (hr : s.reader = some r) (hstep : s.pass r = .ok (s', es')) :
    s'.Flow d (es ++ es') := by
  have hsound := h.reader r hr
  have hrest := hsound.rest
  have hmod := Nat.mod_le r.bytes (2 ^ 32)
  have hprogress : s.inProgress = stored r := by rw [inProgress, hr]
  rw [CaptureDataClient.pass] at hstep
  split at hstep
  · cases hstep
  · rename_i dropped toDrop buffer ring hdrop
    obtain ⟨hring, hcontent, hnum, hlength, hbefore⟩ :=
      dropLoop_spec h.processed (by split_ifs <;> omega) (by rw [hsound.buffer]; omega) hdrop
    have hstored : buffer.take r.pWrite = stored r := by
      rw [hbefore, stored]
      congr 1
      omega
    dsimp only at hstep
    split at hstep
    · rename_i hzero
      have hfit : ∀ count, count ≤ ring.getDataCount → count ≤ r.ReadDataBytes →
          r.pWrite + (ring.copyToLinear count).1.length ≤ buffer.length ∧
          (ring.copyToLinear count).1.length = count := fun count hcount hle => by
        have hlength : ring.content.length = _ := RingBuf.length_content
        have hblock : (ring.copyToLinear count).1.length = count := by
          rw [(hring.copyToLinear hcount).1, List.length_take]
          omega
        have := hsound.buffer
        exact ⟨by omega, hblock⟩
      -- what is stored is the front of the ring
      have hfront : ∀ count, count ≤ ring.getDataCount → s.inRings = dropped ++
          (ring.copyToLinear count).1 ++ inRings
            { s with mProcessedDataBuf := (ring.copyToLinear count).2 } := fun count hcount => by
        obtain ⟨htake, -, hdrop'⟩ := hring.copyToLinear hcount
        rw [inRings, inRings, hcontent, htake]
        dsimp only
        rw [hdrop']
        conv_lhs => rw [← List.take_append_drop count ring.content]
        simp only [List.append_assoc]
      split at hstep
      · -- there is enough: the call returns
        rename_i henough
        obtain ⟨hfits, hblock⟩ := hfit r.ReadDataBytes henough le_rfl
        have htaken : stored { r with
            buffer := store buffer r.pWrite (ring.copyToLinear r.ReadDataBytes).1
            ReadDataBytes := 0 } = s.inProgress ++ (ring.copyToLinear r.ReadDataBytes).1 := by
          rw [hprogress, ← hstored, ← take_store hfits, stored]
          dsimp only
          congr 1
          omega
        obtain ⟨rfl, rfl⟩ := Prod.mk.inj (Except.ok.inj hstep)
        refine h.take (ring.copyToLinear r.ReadDataBytes).1 h.raw h.src
          (hring.copyToLinear henough).2.1 rfl ?_ ?_ ?_
          (fun hpos => absurd hpos (by simp [hzero, returnRead])) nofun ?_
        · rw [← htaken]
          simp [CaptureEvent.read, returnRead, inProgress]
        · rw [hfront _ henough]
          simp [CaptureEvent.gone, returnRead, inRings]
        · simp only [List.flatMap_cons, List.flatMap_nil, CaptureEvent.gone, returnRead,
            List.append_nil]
          exact hnum
        · intro e he
          rcases List.mem_cons.mp he with rfl | he
          · exact trivial
          · rw [List.mem_singleton.mp he]
            refine returnRead_right ?_ (Nat.zero_le _) _
            exact (length_store hfits).trans (hlength.trans hsound.buffer)
      · -- there is too little: the call waits
        rename_i hfew
        obtain ⟨hfits, hblock⟩ := hfit ring.getDataCount le_rfl (by omega)
        have htaken : stored { r with
            buffer := store buffer r.pWrite (ring.copyToLinear ring.getDataCount).1
            ReadDataBytes := r.ReadDataBytes - ring.getDataCount } =
            s.inProgress ++ (ring.copyToLinear ring.getDataCount).1 := by
          rw [hprogress, ← hstored, ← take_store hfits, stored]
          dsimp only
          congr 1
          omega
        obtain ⟨rfl, rfl⟩ := Prod.mk.inj (Except.ok.inj hstep)
        refine h.take (ring.copyToLinear ring.getDataCount).1 h.raw h.src
          (hring.copyToLinear le_rfl).2.1 rfl ?_ ?_ ?_ (fun hpos => absurd hpos (by simp [hzero]))
          ?_ ?_
        · rw [← htaken]
          rfl
        · rw [hfront _ le_rfl]
          simp [CaptureEvent.gone, inRings]
        · simp only [List.flatMap_cons, List.flatMap_nil, CaptureEvent.gone, List.append_nil]
          exact hnum
        · rintro r' hr'
          obtain rfl := Option.some.inj hr'
          refine ⟨(length_store hfits).trans (hlength.trans hsound.buffer), ?_⟩
          dsimp only
          omega
        · intro e he
          rw [List.mem_singleton.mp he]
          exact trivial
    · rename_i hleft
      obtain ⟨rfl, rfl⟩ := Prod.mk.inj (Except.ok.inj hstep)
      refine h.take [] h.raw h.src hring rfl ?_ ?_ ?_ (fun _ => rfl) ?_ ?_
      · rw [List.append_nil, hprogress, ← hstored]
        simp only [List.flatMap_cons, List.flatMap_nil, CaptureEvent.read, inProgress, stored,
          List.append_nil, List.nil_append]
        congr 1
        omega
      · rw [inRings, hcontent, inRings]
        simp [CaptureEvent.gone]
      · simp only [List.flatMap_cons, List.flatMap_nil, CaptureEvent.gone, List.append_nil]
        exact hnum
      · rintro r' hr'
        obtain rfl := Option.some.inj hr'
        exact ⟨hlength.trans hsound.buffer, hrest⟩
      · intro e he
        rw [List.mem_singleton.mp he]
        exact trivial

theorem Flow.returnRead (h : s.Flow d es) (hr : s.reader = some r) {r' : ReadCall}
    (hbuffer : r'.buffer = r.buffer) (hbytes : r'.bytes = r.bytes)
    (hleft : r'.ReadDataBytes = r.ReadDataBytes) :
    (s.returnRead r').1.Flow d (es ++ [(s.returnRead r').2]) := by
  have hsound := h.reader r hr
  have hrest := hsound.rest
  have hprogress : s.inProgress = stored r := by rw [inProgress, hr]
  have hstored : stored r' = s.inProgress := by
    rw [hprogress, stored, stored, hbuffer, hbytes, hleft]
  refine h.take [] h.raw h.src h.processed rfl ?_ rfl (Nat.zero_add _) (fun _ => rfl)
    nofun ?_
  · rw [← hstored]
    simp [CaptureEvent.read, CaptureDataClient.returnRead, inProgress]
  · intro e he
    rw [List.mem_singleton.mp he]
    refine returnRead_right ?_ ?_ s
    · rw [hbuffer, hbytes, hsound.buffer]
    · rw [hleft, hbytes]
      omega

/-- **The end of a wait.** -/
theorem Flow.wake (h : s.Flow d es) (hr : s.reader = some r) (signalled : Bool) :
    (s.wake r signalled).1.Flow d (es ++ (s.wake r signalled).2) := by
  rw [CaptureDataClient.wake]
  split
  · dsimp only
    split
    · have hsound := h.reader r hr
      refine h.take [] h.raw h.src h.processed rfl ?_ rfl (Nat.zero_add _)
        (fun _ => rfl) ?_ nofun
      · rw [inProgress, inProgress, hr]
        exact (List.append_nil _).symm
      · rintro r' hr'
        obtain rfl := Option.some.inj hr'
        exact ⟨hsound.buffer, hsound.rest⟩
    · exact h.returnRead hr rfl rfl rfl
  · exact h.returnRead hr rfl rfl rfl

/-- `kClientBufferSize`, of which there are two. -/
def kClientBufferSize (large : Bool) : ℕ := if large then 0x20000 else 0x8000

def create (large : Bool) (dropBesRecordDataSize : ℕ) (micmute : Bool) : CaptureDataClient where
  mRawDataBuf := { bufLen := kClientBufferSize large }
  mSrcDataBuf := { bufLen := kClientBufferSize large }
  mProcessedDataBuf := { bufLen := kClientBufferSize large }
  dropBesRecordDataSize := dropBesRecordDataSize
  mute := { micmute }

theorem flow_create (large : Bool) (d : ℕ) (micmute : Bool) :
    (create large d micmute).Flow d [] := by
  have hsize : 8 ≤ kClientBufferSize large := by
    rw [kClientBufferSize]
    split <;> omega
  have hsound := RingBuf.sound_empty hsize
  exact { raw := hsound, src := hsound, processed := hsound, order := rfl,
          dropping := Nat.zero_add d, undropped := fun _ => rfl, reader := nofun, events := nofun }

/-- **One step** keeps the bytes in their order. -/
theorem Flow.step (h : s.Flow d es) {op : CaptureOp} (hstep : captureClient s op = .ok (s', es')) :
    s'.Flow d (es ++ es') := by
  rw [captureClient.eq_def] at hstep
  cases op with
  | copyCaptureDataToClient pcm_read_buf =>
    dsimp only at hstep
    split at hstep
    · cases hstep
    · rename_i result hcopy
      obtain rfl := Except.ok.inj hstep
      exact h.copy pcm_read_buf.2 hcopy
  | read buffer =>
    dsimp only at hstep
    split at hstep
    · cases hstep
    · rename_i hnone
      obtain ⟨rfl, rfl⟩ := Prod.mk.inj (Except.ok.inj hstep)
      refine h.take [] h.raw h.src h.processed rfl ?_ rfl (Nat.zero_add _)
        (fun _ => rfl) ?_ nofun
      · rw [inProgress, inProgress, hnone]
        simp [stored]
      · rintro r hr
        obtain rfl := Option.some.inj hr
        exact ⟨rfl, Nat.zero_add _⟩
  | pass =>
    dsimp only at hstep
    split at hstep
    · cases hstep
    · rename_i r hr
      split at hstep
      · cases hstep
      · exact h.pass hr hstep
  | wake signalled =>
    dsimp only at hstep
    split at hstep
    · cases hstep
    · rename_i r hr
      split at hstep
      · obtain ⟨rfl, rfl⟩ := Prod.mk.inj (Except.ok.inj hstep)
        exact h.wake hr signalled
      · cases hstep
  | setMicMute micmute =>
    obtain ⟨rfl, rfl⟩ := Prod.mk.inj (Except.ok.inj hstep)
    refine h.take [] h.raw h.src h.processed rfl ?_ rfl (Nat.zero_add _)
      (fun _ => rfl) h.reader nofun
    exact (List.append_nil _).symm

end CaptureDataClient

def fourBytes : { rb : RingBuf // rb.Valid } :=
  ⟨{ data := fun i => UInt8.ofNat (i + 1), pWrite := 4, bufLen := 16 }, ⟨by decide, by decide⟩⟩

def twoReads : List CaptureOp :=
  [.copyCaptureDataToClient fourBytes, .read [0, 0], .pass, .read [0, 0], .pass]

def CaptureEvent.given : CaptureEvent → List UInt8
  | returned result => result.buffer.take result.ret
  | _ => []

end MtkHardware.Audio
