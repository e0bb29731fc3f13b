import MtkHardware.Audio.Pcm
import MtkHardware.Audio.RingBuf
import MtkHardware.Util.Run

/-!
# The Background Sound Player

Each play buffer is a ring into which its writer converts samples. The speaker looks at all of them
for the least count, then takes as many bytes out of each and mixes them. Between two of its steps
the writers go on.
-/

namespace MtkHardware.Audio

def BGS_RETRY_TIMES : ℕ := 20
def BGS_CHANNEL_NUM : ℕ := 1

/-- `BGS_PLAY_BUFFER_LEN`, with `SPH_NORMAL_SR32K` and without. -/
def BGS_PLAY_BUFFER_LEN (sr32k : Bool) : ℕ := if sr32k then 6044 else 3072

/-- `audio_bytes_per_sample(AUDIO_FORMAT_PCM_16_BIT)`. -/
def bytesPerSample : ℕ := 2

/-! ### The mixer -/

/-- The first samples of a block are added to those of another. -/
def mixLoop : ℕ → List UInt8 → List UInt8 → List UInt8
  | frameCnt + 1, lo :: hi :: out, lo' :: hi' :: input =>
    let sum := (sampleOf lo hi).signExtend 32 + (sampleOf lo' hi').signExtend 32
    bytesOf ((clamp16 sum).setWidth 16) ++ mixLoop frameCnt out input
  | _, out, _ => out

def samples : List UInt8 → List (BitVec 16)
  | lo :: hi :: l => sampleOf lo hi :: samples l
  | _ => []

def satAdd (x y : BitVec 16) : BitVec 16 := BitVec.ofInt 16 (saturate (x.toInt + y.toInt))

/-- The mix of some blocks of `n` bytes, each added to those before it. -/
def mixed (n : ℕ) (blocks : List (List UInt8)) : List (BitVec 16) :=
  blocks.foldl (fun out block => List.zipWith satAdd out (samples block))
    (List.replicate (n / 2) 0)

theorem clamp16_add (x y : BitVec 16) :
    (clamp16 (x.signExtend 32 + y.signExtend 32)).setWidth 16 = satAdd x y := by
  have hx := BitVec.two_mul_toInt_lt (x := x)
  have hx' := BitVec.le_two_mul_toInt (x := x)
  have hy := BitVec.two_mul_toInt_lt (x := y)
  have hy' := BitVec.le_two_mul_toInt (x := y)
  have hsum : (x.signExtend 32 + y.signExtend 32).toInt = x.toInt + y.toInt := by
    rw [BitVec.toInt_add, BitVec.toInt_signExtend_of_le (by omega),
      BitVec.toInt_signExtend_of_le (by omega), Int.bmod_eq_of_le (by omega) (by omega)]
  have hclamp := toInt_clamp16 (x.signExtend 32 + y.signExtend 32)
  rw [hsum] at hclamp
  generalize clamp16 (x.signExtend 32 + y.signExtend 32) = c at hclamp
  have hmod : (c.toNat : ℤ) % (2 ^ 16 : ℕ) = c.toInt % (2 ^ 16 : ℕ) := by
    rw [BitVec.toInt_eq_toNat_cond]
    split_ifs <;> omega
  refine BitVec.eq_of_toInt_eq ?_
  rw [satAdd, BitVec.toInt_setWidth, BitVec.toInt_ofInt, ← hclamp, ← Int.emod_bmod, hmod,
    Int.emod_bmod]

@[simp] theorem length_samples (l : List UInt8) : (samples l).length = l.length / 2 := by
  fun_induction samples l with
  | case1 lo hi l ih =>
    rw [List.length_cons, ih, List.length_cons, List.length_cons]
    omega
  | case2 l hne =>
    match l with
    | [] => rfl
    | [_] => simp
    | lo :: hi :: l => exact absurd rfl (hne lo hi l)

theorem samples_bytesOf_append (x : BitVec 16) (l : List UInt8) :
    samples (bytesOf x ++ l) = x :: samples l := by
  rw [bytesOf, List.cons_append, List.cons_append, List.nil_append, samples, sampleOf_bytesOf]

theorem flatMap_bytesOf_samples {l : List UInt8} (h : 2 ∣ l.length) :
    (samples l).flatMap bytesOf = l := by
  fun_induction samples l with
  | case1 lo hi l ih =>
    rw [List.length_cons, List.length_cons] at h
    rw [List.flatMap_cons, ih (by omega), bytesOf_sampleOf]
    rfl
  | case2 l hne =>
    match l with
    | [] => rfl
    | [_] => simp at h
    | lo :: hi :: l => exact absurd rfl (hne lo hi l)

theorem samples_zeros {n : ℕ} (h : 2 ∣ n) :
    samples (List.replicate n 0) = List.replicate (n / 2) 0 := by
  obtain ⟨k, rfl⟩ := h
  rw [Nat.mul_div_cancel_left k (by omega)]
  induction k with
  | zero => rfl
  | succ k ih =>
    rw [Nat.mul_succ, List.replicate_succ, List.replicate_succ, samples, ih]
    rfl

/-- **The loop of the mixer** adds samples, and leaves what is behind them. -/
theorem mixLoop_spec {frameCnt : ℕ} {out input : List UInt8} (hout : 2 * frameCnt ≤ out.length)
    (hinput : 2 * frameCnt ≤ input.length) :
    (mixLoop frameCnt out input).length = out.length ∧
      samples ((mixLoop frameCnt out input).take (2 * frameCnt)) =
        List.zipWith satAdd (samples (out.take (2 * frameCnt)))
          (samples (input.take (2 * frameCnt))) ∧
      (mixLoop frameCnt out input).drop (2 * frameCnt) = out.drop (2 * frameCnt) := by
  induction frameCnt generalizing out input with
  | zero => exact ⟨rfl, rfl, rfl⟩
  | succ frameCnt ih =>
    match out, input with
    | lo :: hi :: out, lo' :: hi' :: input =>
      simp only [List.length_cons] at hout hinput
      obtain ⟨hlength, htake, hdrop⟩ := @ih out input (by omega) (by omega)
      have hsucc : 2 * (frameCnt + 1) = 2 * frameCnt + 1 + 1 := by omega
      have hbytes : ∀ x l, (bytesOf x ++ l).take (2 * frameCnt + 1 + 1) =
          bytesOf x ++ l.take (2 * frameCnt) := fun x l => rfl
      rw [mixLoop, clamp16_add, hsucc, hbytes, samples_bytesOf_append, htake]
      refine ⟨?_, rfl, hdrop⟩
      rw [List.length_append, hlength]
      exact Nat.add_comm 2 out.length
    | [], _ => simp at hout
    | [_], _ =>
      simp only [List.length_cons, List.length_nil] at hout
      omega
    | _ :: _ :: _, [] => simp at hinput
    | _ :: _ :: _, [_] =>
      simp only [List.length_cons, List.length_nil] at hinput
      omega

theorem satAdd_zero (x : BitVec 16) : satAdd 0 x = x := by
  have hx := BitVec.two_mul_toInt_lt (x := x)
  have hx' := BitVec.le_two_mul_toInt (x := x)
  have hzero : (0 : BitVec 16).toInt = 0 := by decide
  have hin : saturate x.toInt = x.toInt := by
    rw [saturate]
    omega
  rw [satAdd, hzero, zero_add, hin, BitVec.ofInt_toInt]

theorem mixed_singleton {n : ℕ} {block : List UInt8} (h : block.length = n) :
    mixed n [block] = samples block := by
  rw [mixed, List.foldl_cons, List.foldl_nil, ← h, ← length_samples]
  generalize samples block = l
  induction l with
  | nil => rfl
  | cons x l ih =>
    rw [List.length_cons, List.replicate_succ, List.zipWith_cons_cons, satAdd_zero, ih]

/-- **The loop of the mixer, over zeros**, copies a block. -/
theorem mixLoop_zeros {n : ℕ} {target block : List UInt8} (heven : 2 ∣ n)
    (hblock : block.length = n) (hn : n ≤ target.length)
    (hmix : samples (target.take n) = mixed n [block])
    (hzeros : target.drop n = List.replicate (target.length - n) 0) :
    mixLoop (n / 2) (List.replicate target.length 0) block = target := by
  have htwo : 2 * (n / 2) = n := Nat.mul_div_cancel' heven
  obtain ⟨hlength, htake, hdrop⟩ := @mixLoop_spec (n / 2)
    (List.replicate target.length 0) block (by rw [List.length_replicate]; omega) (by omega)
  rw [List.length_replicate] at hlength
  rw [htwo, List.take_replicate, min_eq_left hn, samples_zeros heven,
    List.take_of_length_le hblock.le] at htake
  rw [htwo, List.drop_replicate] at hdrop
  -- a block of whole samples is known by them
  have hsame : (mixLoop (n / 2) (List.replicate target.length 0) block).take n = target.take n := by
    have hleft : ((mixLoop (n / 2) (List.replicate target.length 0) block).take n).length = n := by
      rw [List.length_take, hlength]
      omega
    have hright : (target.take n).length = n := by
      rw [List.length_take]
      omega
    rw [← flatMap_bytesOf_samples (l := target.take n) (hright.symm ▸ heven), hmix,
      mixed_singleton hblock]
    refine (flatMap_bytesOf_samples (hleft.symm ▸ heven)).symm.trans (congrArg _ (htake.trans ?_))
    exact mixed_singleton hblock
  rw [← List.take_append_drop n (mixLoop _ _ _), hsame, hdrop, ← hzeros, List.take_append_drop]

theorem mixed_snoc (n : ℕ) (blocks : List (List UInt8)) (block : List UInt8) :
    mixed n (blocks ++ [block]) = List.zipWith satAdd (mixed n blocks) (samples block) := by
  rw [mixed, List.foldl_append]
  rfl

/-! ### The player -/

/-- A call of `BGSPlayBuffer::Write`. -/
structure WriteCall where
  num : ℕ
  leftCount : ℕ
  tryCount : ℕ := 0
  waiting : Bool := false
  deriving DecidableEq, Repr

structure BGSPlayBuffer where
  mRingBuf : RingBuf
  writer : Option WriteCall := none

/-- `PutDataToSpeaker`, with what it has taken out of the buffers before. -/
inductive Speaker
  | idle
  /-- The buffers before `i` have been looked at. -/
  | counting (target : List UInt8) (i dataCountInBufMin : ℕ)
  /-- The buffers before `i` have been mixed. -/
  | mixing (target : List UInt8) (write_count i : ℕ) (taken : List (List UInt8))
  deriving DecidableEq, Repr

structure BGSPlayer where
  /-- `mBGSPlayBufferVector.size()`. -/
  count : ℕ
  buffers : ℕ → BGSPlayBuffer
  mBufBaseTemp : List UInt8
  speaker : Speaker := .idle

inductive BgsEvent
  /-- The writer puts bytes into a buffer. -/
  | put (i : ℕ) (bytes : List UInt8)
  /-- `Write` returns. -/
  | wrote (i ret : ℕ)
  /-- `PutDataToSpeaker` returns, having taken some bytes out of each buffer. -/
  | returned (target : List UInt8) (write_count : ℕ) (taken : List (List UInt8))
  deriving DecidableEq, Repr

inductive BgsFault
  | assertion (a : Assertion)
  /-- A step that is not there. -/
  | blocked
  deriving DecidableEq, Repr

namespace BGSPlayer

variable (s : BGSPlayer)

def setBuffer (i : ℕ) (b : BGSPlayBuffer) : BGSPlayer :=
  { s with buffers := Function.update s.buffers i b }

def copyInto (target bytes : List UInt8) : List UInt8 := bytes ++ target.drop bytes.length

/-- `PutData`: the target, what is taken out of the buffer, and the buffer. -/
def PutData (b : BGSPlayBuffer) (target_ptr : List UInt8) (num_data_request : ℕ) :
    List UInt8 × List UInt8 × BGSPlayBuffer :=
  let dataCountInBuf := b.mRingBuf.getDataCount % 2 ^ 16
  if dataCountInBuf = 0 then (target_ptr, [], b)
  else
    let write_count :=
      if num_data_request ≤ dataCountInBuf then num_data_request else dataCountInBuf
    let block := b.mRingBuf.copyToLinear write_count
    (copyInto target_ptr block.1, block.1, { b with mRingBuf := block.2 })

def countNext (target : List UInt8) (i dataCountInBufMin : ℕ) : BGSPlayer × List BgsEvent :=
  let dataCountInBuf := (s.buffers i).mRingBuf.getDataCount % 2 ^ 16
  let dataCountInBufMin :=
    if dataCountInBuf < dataCountInBufMin then dataCountInBuf else dataCountInBufMin
  if i + 1 < s.count then
    ({ s with speaker := .counting target (i + 1) dataCountInBufMin }, [])
  else if dataCountInBufMin = 0 then
    ({ s with speaker := .idle }, [.returned target 0 []])
  else
    let write_count :=
      if target.length ≤ dataCountInBufMin then target.length else dataCountInBufMin
    ({ s with speaker := .mixing (List.replicate target.length 0) write_count 0 [] }, [])

/-- The data of a buffer goes straight into the target, or is mixed into it where there is more than
one buffer: the target, the temporary block, what is taken, and the buffer. -/
def mixInto (b : BGSPlayBuffer) (target : List UInt8) (write_count : ℕ) :
    List UInt8 × List UInt8 × List UInt8 × BGSPlayBuffer :=
  if s.count = 1 then
    let put := PutData b target write_count
    (put.1, s.mBufBaseTemp, put.2)
  else
    let put := PutData b s.mBufBaseTemp write_count
    let frameCnt := write_count / BGS_CHANNEL_NUM / bytesPerSample
    (mixLoop frameCnt target put.1, put)

def mixNext (target : List UInt8) (write_count i : ℕ) (taken : List (List UInt8)) :
    BGSPlayer × List BgsEvent :=
  let (target, mBufBaseTemp, bytes, b) := s.mixInto (s.buffers i) target write_count
  let s := { s.setBuffer i b with mBufBaseTemp }
  let taken := taken ++ [bytes]
  if i + 1 < s.count then ({ s with speaker := .mixing target write_count (i + 1) taken }, [])
  else ({ s with speaker := .idle }, [.returned target write_count taken])

/-- The end of a call of `Write`. -/
def returnWrite (i : ℕ) (w : WriteCall) : BGSPlayer × List BgsEvent :=
  (s.setBuffer i { s.buffers i with writer := none }, [.wrote i (w.num - w.leftCount)])

/-- One round of the loop of `Write`, up to the wait: the converter has consumed some bytes and
produced others. -/
def writeRound (i : ℕ) (w : WriteCall) (consumed : ℕ) (output : List UInt8) :
    Except BgsFault (BGSPlayer × List BgsEvent) :=
  if w.leftCount = 0 then .ok (s.returnWrite i w)
  else if w.leftCount < consumed ∨ (s.buffers i).mRingBuf.getFreeSpace < output.length ∨
      consumed % 2 = 1 ∨ output.length % 2 = 1 then .error .blocked
  else
    match (s.buffers i).mRingBuf.copyFromLinear output with
    | .error e => .error (.assertion e)
    | .ok mRingBuf =>
      let w := { w with leftCount := w.leftCount - consumed, waiting := true }
      let s := s.setBuffer i { s.buffers i with mRingBuf, writer := some w }
      if w.leftCount = 0 then
        .ok ((s.returnWrite i w).1, .put i output :: (s.returnWrite i w).2)
      else .ok (s, [.put i output])

/-- The end of a wait of `Write`, by a signal or by a time-out. -/
def writeWake (i : ℕ) (w : WriteCall) (signalled : Bool) : BGSPlayer × List BgsEvent :=
  let tryCount := if signalled then w.tryCount else w.tryCount + 1
  if tryCount < BGS_RETRY_TIMES then
    (s.setBuffer i { s.buffers i with writer := some { w with tryCount, waiting := false } }, [])
  else s.returnWrite i w

end BGSPlayer

/-- The steps of the writers and of the speaker. The converter of a writer consumes and produces
whole samples, within the counts it is given. -/
inductive BgsOp
  | write (i num : ℕ)
  | writeRound (i consumed : ℕ) (output : List UInt8)
  | writeWake (i : ℕ) (signalled : Bool)
  | putDataToSpeaker
      (target : { target : List UInt8 // target.length < 2 ^ 16 ∧ 2 ∣ target.length })
  | speak

open BGSPlayer in
def bgsPlayer : Machine BGSPlayer BgsOp BgsEvent BgsFault := fun s op =>
  match op with
  | .write i num =>
    if s.count ≤ i ∨ (s.buffers i).writer.isSome then .error .blocked
    else .ok (s.setBuffer i { s.buffers i with writer := some { num, leftCount := num } }, [])
  | .writeRound i consumed output =>
    match (s.buffers i).writer with
    | none => .error .blocked
    | some w => if w.waiting then .error .blocked else s.writeRound i w consumed output
  | .writeWake i signalled =>
    match (s.buffers i).writer with
    | none => .error .blocked
    | some w => if w.waiting then .ok (s.writeWake i w signalled) else .error .blocked
  | .putDataToSpeaker target =>
    match s.speaker with
    | .idle =>
      if s.count = 0 then .ok (s, [.returned target 0 []])
      else .ok ({ s with speaker := .counting target 0 65535 }, [])
    | _ => .error .blocked
  | .speak =>
    match s.speaker with
    | .idle => .error .blocked
    | .counting target i dataCountInBufMin => .ok (s.countNext target i dataCountInBufMin)
    | .mixing target write_count i taken => .ok (s.mixNext target write_count i taken)

/-! ### Runs of the player -/

namespace BgsEvent

def putTo (i : ℕ) : BgsEvent → List UInt8
  | put j bytes => if j = i then bytes else []
  | _ => []

def takenFrom (i : ℕ) : BgsEvent → List UInt8
  | returned _ _ taken => taken[i]?.getD []
  | _ => []

/-- What a call of `PutDataToSpeaker` on some number of buffers is to be: it has taken as many bytes
out of each buffer as it returns, and its target has their mix, and zeros behind it. -/
def Right (count : ℕ) : BgsEvent → Prop
  | returned target write_count taken =>
    (∀ block ∈ taken, block.length = write_count) ∧
      (0 < write_count → taken.length = count ∧ write_count ≤ target.length ∧ 2 ∣ write_count ∧
        samples (target.take write_count) = mixed write_count taken ∧
        target.drop write_count = List.replicate (target.length - write_count) 0)
  | _ => True

end BgsEvent

namespace BGSPlayer

variable {s s' : BGSPlayer} {count i : ℕ} {es es' : List BgsEvent}

def dataCount (s : BGSPlayer) (i : ℕ) : ℕ := (s.buffers i).mRingBuf.getDataCount

/-- The bytes that the call that is on its way has taken out of a buffer. -/
def takenNow (s : BGSPlayer) (i : ℕ) : List UInt8 :=
  match s.speaker with
  | .mixing _ _ _ taken => taken[i]?.getD []
  | _ => []

/-- Where the speaker is. It has looked for the least count of the buffers before `i`, or the
buffers from `i` on have what it is to take, and the target has the mix of those before. -/
def SpeakerSound (count : ℕ) (dataCount : ℕ → ℕ) : Speaker → Prop
  | .idle => True
  | .counting target i dataCountInBufMin =>
    i < count ∧ 2 ∣ target.length ∧ (∀ j < i, dataCountInBufMin ≤ dataCount j) ∧
      (0 < i → 2 ∣ dataCountInBufMin) ∧ (i = 0 → dataCountInBufMin = 65535)
  | .mixing target write_count i taken =>
    i < count ∧ taken.length = i ∧ (∀ block ∈ taken, block.length = write_count) ∧
      2 ∣ write_count ∧ write_count ≤ target.length ∧
      (∀ j, i ≤ j → j < count → write_count ≤ dataCount j) ∧
      samples (target.take write_count) = mixed write_count taken ∧
      target.drop write_count = List.replicate (target.length - write_count) 0

/-- What holds between the steps, after some events: the bytes that were put into a buffer are those
that were taken out of it, and those in its ring. -/
structure Mixing (count : ℕ) (s : BGSPlayer) (es : List BgsEvent) : Prop where
  size : s.count = count
  rings : ∀ i, (s.buffers i).mRingBuf.Sound
  sizes : ∀ i, (s.buffers i).mRingBuf.bufLen = s.mBufBaseTemp.length
  small : s.mBufBaseTemp.length < 2 ^ 16
  even : ∀ i, 2 ∣ s.dataCount i
  stream : ∀ i, es.flatMap (BgsEvent.putTo i) =
    es.flatMap (BgsEvent.takenFrom i) ++ s.takenNow i ++ (s.buffers i).mRingBuf.content
  speaker : SpeakerSound count s.dataCount s.speaker
  events : ∀ e ∈ es, e.Right count

theorem SpeakerSound.mono {n m : ℕ → ℕ} {p : Speaker} (h : SpeakerSound count n p)
    (hle : ∀ j, n j ≤ m j) : SpeakerSound count m p := by
  cases p with
  | idle => trivial
  | counting target i least =>
    obtain ⟨hi, htarget, hleast, heven, hfirst⟩ := h
    exact ⟨hi, htarget, fun j hj => (hleast j hj).trans (hle j), heven, hfirst⟩
  | mixing target write_count i taken =>
    obtain ⟨hi, hlength, hblocks, heven, hfit, hrest, hmix⟩ := h
    exact ⟨hi, hlength, hblocks, heven, hfit,
      fun j hij hj => (hrest j hij hj).trans (hle j), hmix⟩

theorem Mixing.dataCount_lt (h : s.Mixing count es) (i : ℕ) :
    s.dataCount i + 8 ≤ s.mBufBaseTemp.length := by
  rw [← h.sizes i]
  exact (h.rings i).room

/-- **A step of a writer**: it puts some bytes into its buffer. -/
theorem Mixing.write (h : s.Mixing count es) {b : BGSPlayBuffer} {output : List UInt8}
    (hring : b.mRingBuf.Sound) (hlen : b.mRingBuf.bufLen = (s.buffers i).mRingBuf.bufLen)
    (hcontent : b.mRingBuf.content = (s.buffers i).mRingBuf.content ++ output)
    (heven : 2 ∣ output.length)
    (hput : ∀ j, es'.flatMap (BgsEvent.putTo j) = if i = j then output else [])
    (htaken : ∀ j, es'.flatMap (BgsEvent.takenFrom j) = [])
    (hevents : ∀ e ∈ es', e.Right count) : (s.setBuffer i b).Mixing count (es ++ es') := by
  have hcount : b.mRingBuf.getDataCount = s.dataCount i + output.length := by
    rw [← RingBuf.length_content, hcontent, List.length_append, RingBuf.length_content]
    rfl
  have hbuffer : ∀ j, (s.setBuffer i b).buffers j = if i = j then b else s.buffers j := fun j => by
    rw [setBuffer]
    by_cases hij : i = j
    · rw [if_pos hij, ← hij]
      exact Function.update_self ..
    · rw [if_neg hij]
      exact Function.update_of_ne (Ne.symm hij) ..
  have hmore : ∀ j, (s.setBuffer i b).dataCount j =
      s.dataCount j + if i = j then output.length else 0 := fun j => by
    rw [dataCount, hbuffer]
    split_ifs with hij
    · rw [← hij, hcount]
    · rfl
  refine { size := h.size, rings := fun j => ?_, sizes := fun j => ?_, small := h.small,
           even := fun j => ?_, stream := fun j => ?_, speaker := ?_, events := fun e he => ?_ }
  · rw [hbuffer]
    split_ifs
    · exact hring
    · exact h.rings j
  · rw [hbuffer]
    split_ifs
    · exact hlen.trans (h.sizes i)
    · exact h.sizes j
  · rw [hmore]
    refine Nat.dvd_add (h.even j) ?_
    split_ifs
    · exact heven
    · exact Nat.dvd_zero 2
  · rw [List.flatMap_append, List.flatMap_append, htaken, hput, h.stream, List.append_nil, hbuffer]
    split_ifs with hij
    · rw [hcontent, ← hij]
      simp only [List.append_assoc]
      rfl
    · rw [List.append_nil]
      rfl
  · exact h.speaker.mono fun j => by
      rw [hmore]
      exact Nat.le_add_right ..
  · exact (List.mem_append.mp he).elim (h.events e) (hevents e)

/-- **The speaker looks at a buffer.** -/
theorem Mixing.look (h : s.Mixing count es) {target : List UInt8} {dataCountInBufMin : ℕ}
    (hspeaker : s.speaker = .counting target i dataCountInBufMin) :
    (s.countNext target i dataCountInBufMin).1.Mixing count
      (es ++ (s.countNext target i dataCountInBufMin).2) := by
  have hsound := h.speaker
  rw [hspeaker] at hsound
  obtain ⟨hi, htarget, hleast, heven, hfirst⟩ := hsound
  have hlt := h.dataCount_lt i
  have hsmall := h.small
  have hnow : ∀ j, s.takenNow j = [] := fun j => by rw [takenNow, hspeaker]
  have hmod : (s.buffers i).mRingBuf.getDataCount % 2 ^ 16 = s.dataCount i :=
    Nat.mod_eq_of_lt (by rw [dataCount] at hlt; omega)
  rw [countNext, hmod]
  -- the least count of one buffer more
  obtain ⟨least, hleast_eq⟩ : ∃ least, least =
      if s.dataCount i < dataCountInBufMin then s.dataCount i else dataCountInBufMin := ⟨_, rfl⟩
  have hleast' : ∀ j < i + 1, least ≤ s.dataCount j := fun j hj => by
    rw [hleast_eq]
    rcases Nat.lt_succ_iff_lt_or_eq.mp hj with hj | rfl
    · have := hleast j hj
      split_ifs <;> omega
    · split_ifs <;> omega
  have heven' : 2 ∣ least := by
    have := h.even i
    rw [hleast_eq]
    split_ifs with hless
    · exact this
    · rcases Nat.eq_zero_or_pos i with hzero | hpos
      · have := hfirst hzero
        omega
      · exact heven hpos
  rw [← hleast_eq]
  dsimp only
  split
  · rename_i hmore
    rw [h.size] at hmore
    refine { size := h.size, rings := h.rings, sizes := h.sizes, small := h.small, even := h.even,
             stream := fun j => ?_, speaker := ?_, events := ?_ }
    · rw [List.append_nil, h.stream, hnow]
      rfl
    · exact ⟨hmore, htarget, hleast', fun _ => heven', nofun⟩
    · rw [List.append_nil]
      exact h.events
  · rename_i hlast
    rw [h.size] at hlast
    split
    · refine { size := h.size, rings := h.rings, sizes := h.sizes, small := h.small,
               even := h.even, stream := fun j => ?_, speaker := trivial, events := ?_ }
      · rw [List.flatMap_append, List.flatMap_append, h.stream, hnow]
        simp [BgsEvent.putTo, BgsEvent.takenFrom, takenNow]
      · intro e he
        rcases List.mem_append.mp he with he | he
        · exact h.events e he
        · rw [List.mem_singleton.mp he]
          exact ⟨nofun, fun hpos => absurd hpos (lt_irrefl 0)⟩
    · refine { size := h.size, rings := h.rings, sizes := h.sizes, small := h.small, even := h.even,
               stream := fun j => ?_, speaker := ?_, events := ?_ }
      · rw [List.append_nil, h.stream, hnow]
        simp [takenNow]
      · dsimp only
        generalize hwrite : (if target.length ≤ least then target.length else least) = write_count
        have hle : write_count ≤ target.length ∧ write_count ≤ least := by
          split_ifs at hwrite <;> omega
        have hdvd : 2 ∣ write_count := by
          rw [← hwrite]
          split_ifs
          · exact htarget
          · exact heven'
        refine ⟨by omega, rfl, nofun, hdvd, ?_, fun j _ hj => ?_, ?_, ?_⟩
        · rw [List.length_replicate]
          exact hle.1
        · exact hle.2.trans (hleast' j (by omega))
        · rw [List.take_replicate, min_eq_left hle.1, mixed, List.foldl_nil]
          exact samples_zeros hdvd
        · rw [List.drop_replicate, List.length_replicate]
      · rw [List.append_nil]
        exact h.events

theorem PutData_spec {b : BGSPlayBuffer} (hring : b.mRingBuf.Sound)
    (hsmall : b.mRingBuf.getDataCount < 2 ^ 16) {target : List UInt8} {n : ℕ}
    (hn : n ≤ b.mRingBuf.getDataCount) :
    ∃ bytes ring, PutData b target n = (copyInto target bytes, bytes, { b with mRingBuf := ring }) ∧
      bytes.length = n ∧ ring.Sound ∧ ring.bufLen = b.mRingBuf.bufLen ∧
      b.mRingBuf.content = bytes ++ ring.content := by
  rw [PutData, Nat.mod_eq_of_lt hsmall]
  split
  · rename_i hzero
    exact ⟨[], b.mRingBuf, rfl, by rw [List.length_nil]; omega, hring, rfl, rfl⟩
  · obtain ⟨htake, hsound, hdrop⟩ := hring.copyToLinear hn
    refine ⟨_, _, rfl, ?_, hsound, RingBuf.bufLen_copyToLinear .., ?_⟩
    · rw [htake, List.length_take, RingBuf.length_content]
      omega
    · rw [htake, hdrop, List.take_append_drop]

theorem take_copyInto {target bytes : List UInt8} :
    (copyInto target bytes).take bytes.length = bytes := List.take_left' rfl

/-- **What is mixed into the target.** -/
theorem mixInto_spec {b : BGSPlayBuffer} (hring : b.mRingBuf.Sound)
    (hsmall : b.mRingBuf.getDataCount < 2 ^ 16) {target : List UInt8} {n : ℕ} (heven : 2 ∣ n)
    (hn : n ≤ b.mRingBuf.getDataCount) (htarget : n ≤ target.length)
    (htemp : n ≤ s.mBufBaseTemp.length) {taken : List (List UInt8)}
    (hmix : samples (target.take n) = mixed n taken) (hone : s.count = 1 → taken = []) :
    ∃ target' temp bytes ring, s.mixInto b target n =
        (target', temp, bytes, { b with mRingBuf := ring }) ∧
      target'.length = target.length ∧ samples (target'.take n) = mixed n (taken ++ [bytes]) ∧
      target'.drop n = target.drop n ∧ temp.length = s.mBufBaseTemp.length ∧ bytes.length = n ∧
      ring.Sound ∧ ring.bufLen = b.mRingBuf.bufLen ∧
      b.mRingBuf.content = bytes ++ ring.content := by
  have hlength : ∀ block bytes : List UInt8, bytes.length = n → n ≤ block.length →
      (copyInto block bytes).length = block.length := fun block bytes hbytes hblock => by
    rw [copyInto, List.length_append, List.length_drop]
    omega
  rw [mixInto]
  split
  · rename_i hcount
    obtain ⟨bytes, ring, hput, hbytes, hsound, hlen, hcontent⟩ :=
      PutData_spec hring hsmall hn
    rw [hput]
    refine ⟨_, _, bytes, ring, rfl, hlength _ _ hbytes htarget, ?_, ?_, rfl, hbytes, hsound, hlen,
      hcontent⟩
    · rw [hone hcount, List.nil_append, mixed_singleton hbytes]
      dsimp only
      rw [← hbytes, take_copyInto]
    · dsimp only
      rw [← hbytes, copyInto, List.drop_left' rfl]
  · obtain ⟨bytes, ring, hput, hbytes, hsound, hlen, hcontent⟩ :=
      PutData_spec hring hsmall hn
    rw [hput]
    have hframes : n / BGS_CHANNEL_NUM / bytesPerSample = n / 2 := by
      rw [BGS_CHANNEL_NUM, Nat.div_one, bytesPerSample]
    have htwo : 2 * (n / 2) = n := Nat.mul_div_cancel' heven
    obtain ⟨hlen', htake, hdrop⟩ := @mixLoop_spec (n / 2) target
      (copyInto s.mBufBaseTemp bytes) (by omega)
      (by rw [hlength _ _ hbytes htemp]; omega)
    rw [htwo] at htake hdrop
    refine ⟨_, _, bytes, ring, rfl, ?_, ?_, ?_, hlength _ _ hbytes htemp, hbytes, hsound, hlen,
      hcontent⟩
    · rw [hframes]
      exact hlen'
    · rw [hframes, htake, hmix, mixed_snoc]
      congr 2
      rw [← hbytes, take_copyInto]
    · rw [hframes]
      exact hdrop

/-- **The speaker takes data out of a buffer**, and mixes it. -/
theorem Mixing.mix (h : s.Mixing count es) {target : List UInt8} {write_count : ℕ}
    {taken : List (List UInt8)} (hspeaker : s.speaker = .mixing target write_count i taken) :
    (s.mixNext target write_count i taken).1.Mixing count
      (es ++ (s.mixNext target write_count i taken).2) := by
  have hsound := h.speaker
  rw [hspeaker] at hsound
  obtain ⟨hi, hlength, hblocks, heven, hfit, hrest, hmix, hzeros⟩ := hsound
  have hlt := h.dataCount_lt i
  have hsmall := h.small
  have henough := hrest i le_rfl hi
  have hone : s.count = 1 → taken = [] := fun hcount => by
    have := h.size
    exact List.length_eq_zero_iff.mp (by omega)
  obtain ⟨target', temp, bytes, ring, hput, hlength', hmix', hdrop', htemp, hbytes, hring, hlen,
    hcontent⟩ := mixInto_spec (s := s) (h.rings i) (by rw [← dataCount]; omega) heven henough hfit
      (by omega) hmix hone
  have hother : ∀ j, j ≠ i → (s.setBuffer i { s.buffers i with mRingBuf := ring }).buffers j =
      s.buffers j := fun j hj => Function.update_of_ne hj ..
  have hself : (s.setBuffer i { s.buffers i with mRingBuf := ring }).buffers i =
      { s.buffers i with mRingBuf := ring } := Function.update_self ..
  have hblocks' : ∀ block ∈ taken ++ [bytes], block.length = write_count := fun block hblock => by
    rcases List.mem_append.mp hblock with hblock | hblock
    · exact hblocks block hblock
    · rw [List.mem_singleton.mp hblock, hbytes]
  have hzeros' : target'.drop write_count = List.replicate (target'.length - write_count) 0 := by
    rw [hdrop', hzeros, hlength']
  -- what is taken is what is missing in the ring
  have hmoved : ∀ j, s.takenNow j ++ (s.buffers j).mRingBuf.content =
      (taken ++ [bytes])[j]?.getD [] ++
        ((s.setBuffer i { s.buffers i with mRingBuf := ring }).buffers j).mRingBuf.content := by
    intro j
    rw [takenNow, hspeaker]
    dsimp only
    by_cases hj : j = i
    · rw [hj, hself, hcontent, List.getElem?_eq_none (by omega),
        List.getElem?_append_right (by omega), hlength, Nat.sub_self]
      rfl
    · rw [hother j hj]
      rcases Nat.lt_or_gt_of_ne hj with hlt | hgt
      · rw [List.getElem?_append_left (by omega)]
      · have hsucc : (taken ++ [bytes]).length = i + 1 := by
          rw [List.length_append, hlength, List.length_singleton]
        rw [List.getElem?_eq_none (by omega), List.getElem?_eq_none (by omega)]
  have hrings : ∀ j rb,
      rb = ((s.setBuffer i { s.buffers i with mRingBuf := ring }).buffers j).mRingBuf →
        rb.Sound ∧ rb.bufLen = temp.length ∧ 2 ∣ rb.getDataCount := by
    rintro j _ rfl
    rw [htemp]
    by_cases hj : j = i
    · have hcount := congrArg List.length hcontent
      rw [RingBuf.length_content, List.length_append, RingBuf.length_content, hbytes] at hcount
      have := h.even i
      rw [dataCount] at this
      rw [hj, hself]
      refine ⟨hring, hlen.trans (h.sizes i), ?_⟩
      dsimp only
      omega
    · rw [hother j hj]
      exact ⟨h.rings j, h.sizes j, h.even j⟩
  rw [mixNext, hput]
  dsimp only
  split
  · rename_i hmore
    refine { size := h.size, rings := fun j => (hrings j _ rfl).1,
             sizes := fun j => (hrings j _ rfl).2.1,
             small := by rw [htemp]; exact hsmall, even := fun j => (hrings j _ rfl).2.2,
             stream := fun j => ?_, speaker := ?_, events := ?_ }
    · rw [List.append_nil, h.stream, List.append_assoc, hmoved, ← List.append_assoc]
      rfl
    · refine ⟨h.size ▸ hmore, by rw [List.length_append, hlength]; rfl, hblocks', heven,
        hlength' ▸ hfit, fun j hij hj => ?_, hmix', hzeros'⟩
      have hrest' := hrest j (by omega) hj
      rw [dataCount, hother j (by omega)]
      exact hrest'
    · rw [List.append_nil]
      exact h.events
  · rename_i hlast
    refine { size := h.size, rings := fun j => (hrings j _ rfl).1,
             sizes := fun j => (hrings j _ rfl).2.1,
             small := by rw [htemp]; exact hsmall, even := fun j => (hrings j _ rfl).2.2,
             stream := fun j => ?_, speaker := trivial, events := ?_ }
    · have hstream := h.stream j
      rw [List.append_assoc, hmoved] at hstream
      rw [List.flatMap_append, List.flatMap_append, hstream]
      simp [BgsEvent.putTo, BgsEvent.takenFrom, takenNow]
    · intro e he
      rcases List.mem_append.mp he with he | he
      · exact h.events e he
      · rw [List.mem_singleton.mp he]
        refine ⟨hblocks', fun _ => ⟨?_, hlength' ▸ hfit, heven, hmix', hzeros'⟩⟩
        have hcount := h.size
        change ¬i + 1 < s.count at hlast
        rw [List.length_append, List.length_singleton]
        omega

/-- The player as it is set up, with some buffers that are empty. -/
def create (sr32k : Bool) (count : ℕ) : BGSPlayer where
  count := count
  buffers _ := { mRingBuf := { bufLen := BGS_PLAY_BUFFER_LEN sr32k } }
  mBufBaseTemp := List.replicate (BGS_PLAY_BUFFER_LEN sr32k) 0

theorem mixing_create (sr32k : Bool) (count : ℕ) : (create sr32k count).Mixing count [] := by
  have hsize : 8 ≤ BGS_PLAY_BUFFER_LEN sr32k ∧ BGS_PLAY_BUFFER_LEN sr32k < 2 ^ 16 := by
    cases sr32k <;> decide
  refine { size := rfl, rings := fun _ => RingBuf.sound_empty hsize.1, sizes := fun _ => ?_,
           small := ?_, even := fun _ => ?_, stream := fun _ => rfl, speaker := trivial,
           events := nofun }
  · exact List.length_replicate.symm
  · exact List.length_replicate.trans_lt hsize.2
  · exact Nat.dvd_zero 2

theorem Mixing.writer (h : s.Mixing count es) (i : ℕ) (writer : Option WriteCall)
    (hput : ∀ j, es'.flatMap (BgsEvent.putTo j) = [])
    (htaken : ∀ j, es'.flatMap (BgsEvent.takenFrom j) = [])
    (hevents : ∀ e ∈ es', e.Right count) :
    (s.setBuffer i { s.buffers i with writer }).Mixing count (es ++ es') := by
  refine h.write (b := { s.buffers i with writer }) (h.rings i) rfl (List.append_nil _).symm
    (Nat.dvd_zero 2) (fun j => ?_) htaken hevents
  rw [hput, ite_self]

theorem Mixing.returnWrite (h : s.Mixing count es) (i : ℕ) (w : WriteCall) :
    (s.returnWrite i w).1.Mixing count (es ++ (s.returnWrite i w).2) :=
  h.writer i none (fun _ => rfl) (fun _ => rfl) fun e he => by
    rw [List.mem_singleton.mp he]
    trivial

/-- **A round of the loop of the writer.** -/
theorem Mixing.writeRound (h : s.Mixing count es) {w : WriteCall} {consumed : ℕ}
    {output : List UInt8} (hstep : s.writeRound i w consumed output = .ok (s', es')) :
    s'.Mixing count (es ++ es') := by
  rw [BGSPlayer.writeRound] at hstep
  split at hstep
  · have hreturned := h.returnWrite i w
    rw [Except.ok.inj hstep] at hreturned
    exact hreturned
  split at hstep
  · cases hstep
  · rename_i hguard
    obtain ⟨mRingBuf, hcopy, hsound, hcontent, hlen⟩ :=
      (h.rings i).copyFromLinear (l := output) (by omega)
    rw [hcopy] at hstep
    dsimp only at hstep
    have hput : ∀ w', (s.setBuffer i { mRingBuf, writer := some w' }).Mixing count
        (es ++ [.put i output]) := fun w' => by
      refine h.write hsound hlen hcontent (by omega) (fun j => ?_) (fun j => rfl) fun e he => ?_
      · exact List.append_nil _
      · rw [List.mem_singleton.mp he]
        trivial
    split at hstep
    · obtain ⟨rfl, rfl⟩ := Prod.mk.inj (Except.ok.inj hstep)
      have hrest := hput { w with leftCount := w.leftCount - consumed, waiting := true }
      have hreturned := hrest.returnWrite i
        { w with leftCount := w.leftCount - consumed, waiting := true }
      rw [List.append_assoc] at hreturned
      exact hreturned
    · obtain ⟨rfl, rfl⟩ := Prod.mk.inj (Except.ok.inj hstep)
      exact hput _

theorem Mixing.writeWake (h : s.Mixing count es) (i : ℕ) (w : WriteCall) (signalled : Bool) :
    (s.writeWake i w signalled).1.Mixing count (es ++ (s.writeWake i w signalled).2) := by
  rw [BGSPlayer.writeWake]
  dsimp only
  generalize (if signalled then w.tryCount else w.tryCount + 1) = tryCount
  split
  · exact h.writer i _ (fun _ => rfl) (fun _ => rfl) nofun
  · exact h.returnWrite i w

/-- **The speaker begins.** -/
theorem Mixing.begin (h : s.Mixing count es) {target : List UInt8} (hidle : s.speaker = .idle)
    (heven : 2 ∣ target.length) (hcount : s.count ≠ 0) :
    ({ s with speaker := .counting target 0 65535 } : BGSPlayer).Mixing count es := by
  have hpos : 0 < count := by
    have := h.size
    omega
  refine { size := h.size, rings := h.rings, sizes := h.sizes, small := h.small, even := h.even,
           stream := fun j => ?_, speaker := ⟨hpos, heven, nofun, nofun, fun _ => rfl⟩,
           events := h.events }
  rw [h.stream, takenNow, takenNow, hidle]

/-- **One step** keeps the bytes of every buffer in their order. -/
theorem Mixing.step (h : s.Mixing count es) {op : BgsOp} (hstep : bgsPlayer s op = .ok (s', es')) :
    s'.Mixing count (es ++ es') := by
  rw [bgsPlayer.eq_def] at hstep
  cases op with
  | write i num =>
    dsimp only at hstep
    split at hstep
    · cases hstep
    · obtain ⟨rfl, rfl⟩ := Prod.mk.inj (Except.ok.inj hstep)
      exact h.writer i _ (fun _ => rfl) (fun _ => rfl) nofun
  | writeRound i consumed output =>
    dsimp only at hstep
    split at hstep
    · cases hstep
    · split at hstep
      · cases hstep
      · exact h.writeRound hstep
  | writeWake i signalled =>
    dsimp only at hstep
    split at hstep
    · cases hstep
    · split at hstep
      · rename_i w _ _
        have hwake := h.writeWake i w signalled
        rw [Except.ok.inj hstep] at hwake
        exact hwake
      · cases hstep
  | putDataToSpeaker target =>
    dsimp only at hstep
    split at hstep
    · rename_i hidle
      split at hstep
      · obtain ⟨rfl, rfl⟩ := Prod.mk.inj (Except.ok.inj hstep)
        refine { size := h.size, rings := h.rings, sizes := h.sizes, small := h.small,
                 even := h.even, stream := fun j => ?_, speaker := h.speaker,
                 events := fun e he => ?_ }
        · rw [List.flatMap_append, List.flatMap_append, h.stream]
          simp [BgsEvent.putTo, BgsEvent.takenFrom]
        · rcases List.mem_append.mp he with he | he
          · exact h.events e he
          · rw [List.mem_singleton.mp he]
            exact ⟨nofun, fun hpos => absurd hpos (lt_irrefl 0)⟩
      · rename_i hcount
        obtain ⟨rfl, rfl⟩ := Prod.mk.inj (Except.ok.inj hstep)
        rw [List.append_nil]
        exact h.begin hidle target.2.2 hcount
    · cases hstep
  | speak =>
    dsimp only at hstep
    split at hstep
    · cases hstep
    · rename_i hspeaker
      have hlook := h.look hspeaker
      rw [Except.ok.inj hstep] at hlook
      exact hlook
    · rename_i hspeaker
      have hmix := h.mix hspeaker
      rw [Except.ok.inj hstep] at hmix
      exact hmix

end BGSPlayer

open BGSPlayer in
/-- **The speaker takes the next bytes of every buffer and gets their mix**, in every run, and the
target of one buffer is what the mixer would make of it. -/
theorem speaker_mixes {sr32k : Bool} {count : ℕ} {ops : List BgsOp} {s : BGSPlayer}
    {es : List BgsEvent} (h : bgsPlayer.Runs (create sr32k count) ops s es) :
    (∀ i, es.flatMap (BgsEvent.takenFrom i) <+: es.flatMap (BgsEvent.putTo i)) ∧
      (∀ e ∈ es, e.Right count) ∧
      ∀ target n block, .returned target n [block] ∈ es → 0 < n →
        mixLoop (n / 2) (List.replicate target.length 0) block = target := by
  have hmixing : s.Mixing count es := h.invariant (I := fun _ s es => s.Mixing count es)
    (mixing_create sr32k count) fun _ _ _ _ _ _ hs hstep => hs.step hstep
  refine ⟨fun i => ⟨s.takenNow i ++ (s.buffers i).mRingBuf.content, ?_⟩, hmixing.events,
    fun target n block he hn => ?_⟩
  · rw [hmixing.stream, List.append_assoc]
  · obtain ⟨hblocks, hmix⟩ := hmixing.events _ he
    obtain ⟨-, hfit, heven, hmix, hzeros⟩ := hmix hn
    exact mixLoop_zeros heven (hblocks block (List.mem_singleton.mpr rfl)) hfit hmix hzeros

/-- Two buffers are mixed: the sum leaves sixteen bits. -/
def twoBuffers : List BgsOp :=
  [.write 0 2, .writeRound 0 2 [255, 127], .write 1 2, .writeRound 1 2 [1, 0],
    .putDataToSpeaker ⟨[9, 9, 9, 9], by decide⟩, .speak, .speak, .speak, .speak]

theorem speaker_mixes_twoBuffers : ∃ s es,
    bgsPlayer.Runs (BGSPlayer.create false 2) twoBuffers s es ∧
      .returned [255, 127, 0, 0] 2 [[255, 127], [1, 0]] ∈ es ∧ ∀ e ∈ es, e.Right 2 := by
  obtain ⟨s, es, hrun, hmem⟩ : ∃ s es, bgsPlayer.Runs (BGSPlayer.create false 2) twoBuffers s es ∧
      .returned [255, 127, 0, 0] 2 [[255, 127], [1, 0]] ∈ es :=
    Machine.exists_run_of_shows (by decide +kernel)
  exact ⟨s, es, hrun, hmem, (speaker_mixes hrun).2.1⟩

end MtkHardware.Audio
