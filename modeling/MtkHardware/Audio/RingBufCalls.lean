import MtkHardware.Audio.RingBuf
import MtkHardware.Util.Run

/-!
# Calls on Ring Buffers

A pointer that comes to the end of its buffer is set back to the base by some of the calls, and left
at the end by others: `RingBuf_writeDataValue` leaves `pWrite` there, and reading leaves `pRead`
there where it is not behind `pWrite`. So the end and the base are two names of one place. Each
access is checked to be in the buffer here, and the rings of a system are read and written in any
order, also from one into another, or into itself.
-/

namespace MtkHardware.Audio

open RingBuffer

/-! ### The code -/

inductive RingFault
  | assertion
  /-- Memory outside of the buffer is accessed. -/
  | access
  deriving DecidableEq

namespace RingBuf

/-- The source of a `memcpy`, from an index on. -/
def readBlock (rb : RingBuf) (p count : ℕ) : Except RingFault (List UInt8) :=
  if p + count ≤ rb.bufLen then .ok (copy rb.data p count) else .error .access

/-- The target of a `memcpy` or `memset`, from an index on. -/
def writeBlock (rb : RingBuf) (p : ℕ) (l : List UInt8) : Except RingFault RingBuf :=
  if p + l.length ≤ rb.bufLen then .ok { rb with data := blit rb.data p l } else .error .access

/-- The calls that write, with what they make of a pointer that may be at the end. -/
def write (atEnd : RingBuf → ℕ → ℕ) (rb : RingBuf) (l : List UInt8) : Except RingFault RingBuf :=
  if rb.bufLen < rb.getDataCount + l.length + 8 then .error .assertion
  else if rb.pRead ≤ rb.pWrite then
    let w2e := rb.bufLen - rb.pWrite
    if l.length ≤ w2e then do
      let rb ← rb.writeBlock rb.pWrite l
      return { rb with pWrite := atEnd rb (rb.pWrite + l.length) }
    else do
      let rb ← rb.writeBlock rb.pWrite (l.take w2e)
      let rb ← rb.writeBlock 0 (l.drop w2e)
      return { rb with pWrite := l.length - w2e }
  else do
    let rb ← rb.writeBlock rb.pWrite l
    return { rb with pWrite := rb.pWrite + l.length }

end RingBuf

def RingBuf_copyFromLinear (rb : RingBuf) (buf : List UInt8) : Except RingFault RingBuf :=
  rb.write RingBuf.wrap buf

def RingBuf_fillZero (rb : RingBuf) (count : ℕ) : Except RingFault RingBuf :=
  rb.write RingBuf.wrap (List.replicate count 0)

def RingBuf_writeDataValue (rb : RingBuf) (value : BitVec 32) (count : ℕ) :
    Except RingFault RingBuf :=
  rb.write (fun _ p => p) (List.replicate count (UInt8.ofNat value.toNat))

def RingBuf_copyToLinear (rb : RingBuf) (count : ℕ) : Except RingFault (List UInt8 × RingBuf) :=
  if rb.pRead ≤ rb.pWrite then do
    let l ← rb.readBlock rb.pRead count
    return (l, { rb with pRead := rb.pRead + count })
  else
    let r2e := rb.bufLen - rb.pRead
    if count ≤ r2e then do
      let l ← rb.readBlock rb.pRead count
      return (l, { rb with pRead := rb.wrap (rb.pRead + count) })
    else do
      let l₁ ← rb.readBlock rb.pRead r2e
      let l₂ ← rb.readBlock 0 (count - r2e)
      return (l₁ ++ l₂, { rb with pRead := count - r2e })

section

variable {ι : Type} [DecidableEq ι]

def copyBlock (rings : ι → RingBuf) (RingBuft RingBufs : ι) (p count : ℕ) :
    Except RingFault (List UInt8 × (ι → RingBuf)) := do
  let l ← (rings RingBufs).readBlock p count
  let rb ← RingBuf_copyFromLinear (rings RingBuft) l
  return (l, Function.update rings RingBuft rb)

/-- `RingBufs->pRead` is set. -/
def setRead (rings : ι → RingBuf) (RingBufs : ι) (pRead : ℕ) : ι → RingBuf :=
  Function.update rings RingBufs { rings RingBufs with pRead }

/-- The bytes that are copied, and the rings, of which the target may be the source. -/
def RingBuf_copyFromRingBuf (rings : ι → RingBuf) (RingBuft RingBufs : ι) (count : ℕ) :
    Except RingFault (List UInt8 × (ι → RingBuf)) :=
  let s := rings RingBufs
  if s.getDataCount < count ∨ (rings RingBuft).getFreeSpace < count then .error .assertion
  else if s.pRead ≤ s.pWrite then do
    let (l, rings) ← copyBlock rings RingBuft RingBufs s.pRead count
    return (l, setRead rings RingBufs (s.pRead + count))
  else
    let cnt2e := s.bufLen - s.pRead
    if count ≤ cnt2e then do
      let (l, rings) ← copyBlock rings RingBuft RingBufs s.pRead count
      return (l, setRead rings RingBufs (s.wrap (s.pRead + count)))
    else do
      let (l₁, rings) ← copyBlock rings RingBuft RingBufs s.pRead cnt2e
      let (l₂, rings) ← copyBlock rings RingBuft RingBufs 0 (count - cnt2e)
      return (l₁ ++ l₂, setRead rings RingBufs (count - cnt2e))

inductive RingCall (ι : Type)
  | copyFromLinear (ring : ι) (buf : List UInt8)
  | fillZero (ring : ι) (count : ℕ)
  | writeDataValue (ring : ι) (value : BitVec 32) (count : ℕ)
  | copyToLinear (ring : ι) (count : ℕ)
  | copyFromRingBuf (RingBuft RingBufs : ι) (count : ℕ)

/-- Bytes that go into a ring, and that come out of one. -/
inductive RingMove (ι : Type)
  | written (ring : ι) (bytes : List UInt8)
  | read (ring : ι) (bytes : List UInt8)

/-- **The rings** of a system. -/
def rings : Machine (ι → RingBuf) (RingCall ι) (RingMove ι) RingFault
  | s, .copyFromLinear i buf => do
      let rb ← RingBuf_copyFromLinear (s i) buf
      return (Function.update s i rb, [.written i buf])
  | s, .fillZero i count => do
      let rb ← RingBuf_fillZero (s i) count
      return (Function.update s i rb, [.written i (List.replicate count 0)])
  | s, .writeDataValue i value count => do
      let rb ← RingBuf_writeDataValue (s i) value count
      return (Function.update s i rb,
        [.written i (List.replicate count (UInt8.ofNat value.toNat))])
  | s, .copyToLinear i count => do
      let (l, rb) ← RingBuf_copyToLinear (s i) count
      return (Function.update s i rb, [.read i l])
  | s, .copyFromRingBuf t i count => do
      let (l, s) ← RingBuf_copyFromRingBuf s t i count
      return (s, [.read i l, .written t l])

def RingCall.Permitted (s : ι → RingBuf) : RingCall ι → Prop
  | copyFromLinear i buf => buf.length ≤ (s i).getFreeSpace
  | fillZero i count => count ≤ (s i).getFreeSpace
  | writeDataValue i _ count => count ≤ (s i).getFreeSpace
  | copyToLinear i count => count ≤ (s i).getDataCount
  | copyFromRingBuf t i count => count ≤ (s i).getDataCount ∧ count ≤ (s t).getFreeSpace

end

namespace RingBuf

/-- The pointers are in the buffer or at its end, and eight bytes are free. -/
structure Within (rb : RingBuf) : Prop where
  pRead : rb.pRead ≤ rb.bufLen
  pWrite : rb.pWrite ≤ rb.bufLen
  room : rb.getDataCount + 8 ≤ rb.bufLen

variable {rb rb' : RingBuf} {l : List UInt8} {count : ℕ} {atEnd : RingBuf → ℕ → ℕ}

/-! ### Reading -/

theorem window_mod {α : Type*} (size : ℕ) (data : ℕ → α) (r k : ℕ) :
    window size data (r % size) k = window size data r k := by
  refine List.map_congr_left fun i _ => ?_
  rw [Nat.mod_add_mod]

theorem Within.getFreeSpace_add (h : rb.Within) :
    rb.getDataCount + rb.getFreeSpace + 8 = rb.bufLen := by
  have hroom := h.room
  have hread := h.pRead
  have hwrite := h.pWrite
  rw [getDataCount] at hroom
  rw [getDataCount, getFreeSpace]
  split_ifs at hroom ⊢ <;> omega

/-- **The read pointer**, some bytes on: not behind the end, or once around. -/
theorem Within.read_on (h : rb.Within) (hcount : count ≤ rb.getDataCount) {pRead : ℕ}
    (hread : (pRead = rb.pRead + count ∧ pRead ≤ rb.bufLen) ∨
      (pRead + rb.bufLen = rb.pRead + count ∧ rb.pWrite < rb.pRead)) :
    ({ rb with pRead } : RingBuf).Within ∧
      ({ rb with pRead } : RingBuf).content = rb.content.drop count := by
  have hroom := h.room
  have hle := h.pRead
  have hwrite := h.pWrite
  have hcount' : ({ rb with pRead } : RingBuf).getDataCount = rb.getDataCount - count := by
    simp only [getDataCount] at hcount hroom ⊢
    split_ifs at hcount hroom ⊢ <;> omega
  refine ⟨⟨?_, hwrite, ?_⟩, ?_⟩
  · rcases hread with ⟨-, hle'⟩ | ⟨heq, -⟩
    · exact hle'
    · dsimp only
      simp only [getDataCount] at hcount
      split_ifs at hcount <;> omega
  · rw [hcount']
    dsimp only
    omega
  · have hmod : pRead % rb.bufLen = (rb.pRead + count) % rb.bufLen := by
      rcases hread with ⟨rfl, -⟩ | ⟨heq, -⟩
      · rfl
      · rw [← heq, Nat.add_mod_right]
    rw [content, hcount', content, drop_window hcount, ← hmod, window_mod]

theorem copy_eq_take (hcount : count ≤ rb.getDataCount) (hfit : rb.pRead + count ≤ rb.bufLen) :
    copy rb.data rb.pRead count = rb.content.take count := by
  rw [content, take_window hcount, copy_eq_window hfit]

theorem Within.copy_append_eq_take (h : rb.Within) (hcount : count ≤ rb.getDataCount)
    (hend : rb.bufLen - rb.pRead < count) :
    copy rb.data rb.pRead (rb.bufLen - rb.pRead) ++
        copy rb.data 0 (count - (rb.bufLen - rb.pRead)) = rb.content.take count := by
  have hle := h.pRead
  have hroom := h.room
  rw [content, take_window hcount]
  rcases Nat.lt_or_eq_of_le hle with hlt | heq
  · exact copy_append_eq_window hlt (by omega) (by omega)
  · have hbase : copy rb.data 0 count = window rb.bufLen rb.data 0 count :=
      copy_eq_window (by omega)
    rw [heq, Nat.sub_self, Nat.sub_zero, ← window_mod, Nat.mod_self, ← hbase]
    rfl

theorem readBlock_eq {p : ℕ} (h : p + count ≤ rb.bufLen) :
    rb.readBlock p count = .ok (copy rb.data p count) := if_pos h

/-- **Copying out** takes the first bytes. -/
theorem Within.copyToLinear (h : rb.Within) (hcount : count ≤ rb.getDataCount) :
    ∃ rb', RingBuf_copyToLinear rb count = .ok (rb.content.take count, rb') ∧ rb'.Within ∧
      rb'.content = rb.content.drop count ∧ rb'.bufLen = rb.bufLen := by
  have hle := h.pRead
  have hwrite := h.pWrite
  have hroom := h.room
  have hcount' := hcount
  rw [getDataCount] at hcount'
  rw [RingBuf_copyToLinear]
  split
  · rename_i hread
    rw [if_neg (by omega)] at hcount'
    obtain ⟨hwithin, hcontent⟩ := h.read_on hcount (.inl ⟨rfl, by omega⟩)
    rw [readBlock_eq (by omega), copy_eq_take hcount (by omega)]
    exact ⟨_, rfl, hwithin, hcontent, rfl⟩
  · rename_i hread
    dsimp only
    split
    · rename_i hend
      have hwrap : rb.wrap (rb.pRead + count) = rb.pRead + count ∧
            rb.wrap (rb.pRead + count) ≤ rb.bufLen ∨
          rb.wrap (rb.pRead + count) + rb.bufLen = rb.pRead + count ∧ rb.pWrite < rb.pRead := by
        rw [wrap]
        split_ifs <;> omega
      obtain ⟨hwithin, hcontent⟩ := h.read_on hcount hwrap
      rw [readBlock_eq (by omega), copy_eq_take hcount (by omega)]
      exact ⟨_, rfl, hwithin, hcontent, rfl⟩
    · rename_i hend
      obtain ⟨hwithin, hcontent⟩ := h.read_on hcount
        (.inr ⟨(by omega : count - (rb.bufLen - rb.pRead) + rb.bufLen = rb.pRead + count),
          by omega⟩)
      rw [readBlock_eq (by omega), readBlock_eq (by omega),
        ← h.copy_append_eq_take hcount (by omega)]
      exact ⟨_, rfl, hwithin, hcontent, rfl⟩

/-! ### Writing -/

structure Extends (rb rb' : RingBuf) (l : List UInt8) : Prop where
  within : rb'.Within
  content : rb'.content = rb.content ++ l
  bufLen : rb'.bufLen = rb.bufLen
  pRead : rb'.pRead = rb.pRead
  behind : rb.pWrite < rb.pRead → rb'.pWrite < rb'.pRead

theorem Within.extends_nil (h : rb.Within) : rb.Extends rb [] :=
  ⟨h, (List.append_nil _).symm, rfl, rfl, id⟩

theorem Extends.trans {rb'' : RingBuf} {l' : List UInt8} (h : rb.Extends rb' l)
    (h' : rb'.Extends rb'' l') : rb.Extends rb'' (l ++ l') where
  within := h'.within
  content := by rw [h'.content, h.content, List.append_assoc]
  bufLen := h'.bufLen.trans h.bufLen
  pRead := h'.pRead.trans h.pRead
  behind hlt := h'.behind (h.behind hlt)

theorem Extends.getDataCount (h : rb.Extends rb' l) :
    rb'.getDataCount = rb.getDataCount + l.length := by
  rw [← length_content, h.content, List.length_append, length_content]

/-- **The write pointer**, behind bytes that are appended: not behind the end, or once around. -/
theorem Within.write_on (h : rb.Within) (hroom : rb.getDataCount + l.length + 8 ≤ rb.bufLen)
    {data : ℕ → UInt8} {pWrite : ℕ}
    (hwrite : (pWrite = rb.pWrite + l.length ∧ pWrite ≤ rb.bufLen) ∨
      (pWrite + rb.bufLen = rb.pWrite + l.length ∧ rb.pRead ≤ rb.pWrite))
    (hdata : window rb.bufLen data rb.pRead (rb.getDataCount + l.length) = rb.content ++ l) :
    rb.Extends { rb with data, pWrite } l := by
  have hread := h.pRead
  have hle := h.pWrite
  have hroom' := hroom
  rw [RingBuf.getDataCount] at hroom'
  have hcount : ({ rb with data, pWrite } : RingBuf).getDataCount =
      rb.getDataCount + l.length := by
    simp only [RingBuf.getDataCount]
    split_ifs at hroom' ⊢ <;> omega
  refine ⟨⟨hread, ?_, ?_⟩, ?_, rfl, rfl, fun hlt => ?_⟩
  · dsimp only
    split_ifs at hroom' <;> omega
  · rw [hcount]
    exact hroom
  · rw [RingBuf.content, hcount]
    exact hdata
  · rw [if_pos hlt] at hroom'
    dsimp only
    omega

theorem Within.pWrite_mod (h : rb.Within) :
    rb.pWrite % rb.bufLen = (rb.pRead % rb.bufLen + rb.getDataCount) % rb.bufLen := by
  have hread := h.pRead
  rw [Nat.mod_add_mod, RingBuf.getDataCount]
  split_ifs with hlt
  · rw [Nat.add_sub_cancel' (by omega), Nat.add_mod_right]
  · rw [Nat.add_sub_cancel' (by omega)]

theorem blit_nil (data : ℕ → UInt8) (p : ℕ) : blit data p [] = data := by
  funext i
  by_cases hi : p ≤ i
  · exact blit_of_le hi
  · exact blit_of_lt (by omega)

theorem Within.window_blit (h : rb.Within) (hroom : rb.getDataCount + l.length + 8 ≤ rb.bufLen)
    (hfit : rb.pWrite + l.length ≤ rb.bufLen) :
    window rb.bufLen (blit rb.data rb.pWrite l) rb.pRead (rb.getDataCount + l.length) =
      rb.content ++ l := by
  rcases Nat.lt_or_eq_of_le h.pWrite with hlt | heq
  · have hmod := h.pWrite_mod
    rw [Nat.mod_eq_of_lt hlt] at hmod
    rw [content, ← window_mod, ← window_mod _ rb.data]
    exact RingBuffer.window_blit rb.data (Nat.mod_lt _ (by omega)) (by omega) hfit hmod
  · -- there is nothing to be written at the end
    obtain rfl := List.length_eq_zero_iff.mp (by omega : l.length = 0)
    rw [blit_nil, List.append_nil]
    rfl

theorem Within.window_blit_blit (h : rb.Within)
    (hroom : rb.getDataCount + l.length + 8 ≤ rb.bufLen)
    (hend : rb.bufLen - rb.pWrite < l.length) :
    window rb.bufLen
        (blit (blit rb.data rb.pWrite (l.take (rb.bufLen - rb.pWrite))) 0
          (l.drop (rb.bufLen - rb.pWrite))) rb.pRead (rb.getDataCount + l.length) =
      rb.content ++ l := by
  have hmod := h.pWrite_mod
  have hpos : rb.pRead % rb.bufLen < rb.bufLen := Nat.mod_lt _ (by omega)
  rw [content, ← window_mod, ← window_mod _ rb.data]
  rcases Nat.lt_or_eq_of_le h.pWrite with hlt | heq
  · rw [Nat.mod_eq_of_lt hlt] at hmod
    have hsplit := List.take_append_drop (rb.bufLen - rb.pWrite) l
    have hfirst : rb.pWrite + (l.take (rb.bufLen - rb.pWrite)).length = rb.bufLen := by
      rw [List.length_take]
      omega
    have hblit := RingBuffer.window_blit_blit rb.data hpos
      (by rw [hsplit]; omega) hfirst hmod
    rwa [hsplit] at hblit
  · -- the first block is empty, as the write pointer is at the end
    rw [heq, Nat.mod_self] at hmod
    rw [heq, Nat.sub_self, List.take_zero, List.drop_zero, blit_nil]
    exact RingBuffer.window_blit rb.data hpos (by omega) (by omega) hmod

theorem writeBlock_eq {p : ℕ} (h : p + l.length ≤ rb.bufLen) :
    rb.writeBlock p l = .ok { rb with data := blit rb.data p l } := if_pos h

/-- **Writing** appends the bytes, whether the write pointer is left at the end or not. -/
theorem Within.write (h : rb.Within) (hroom : rb.getDataCount + l.length + 8 ≤ rb.bufLen)
    (hend : ∀ rb p, atEnd rb p = p ∨ (p = rb.bufLen ∧ atEnd rb p = 0)) :
    ∃ rb', rb.write atEnd l = .ok rb' ∧ rb.Extends rb' l := by
  have hread := h.pRead
  have hle := h.pWrite
  have hroom' := hroom
  rw [RingBuf.getDataCount] at hroom'
  rw [RingBuf.write, if_neg (by omega)]
  split
  · rename_i hnot
    dsimp only
    split
    · rw [writeBlock_eq (by omega)]
      refine ⟨_, rfl, h.write_on hroom ?_ (h.window_blit hroom (by omega))⟩
      dsimp only
      rcases hend { rb with data := blit rb.data rb.pWrite l } (rb.pWrite + l.length) with heq | heq
      · exact .inl ⟨heq, by omega⟩
      · obtain ⟨hlen, hzero⟩ := heq
        dsimp only at hlen
        exact .inr ⟨by omega, hnot⟩
    · rw [writeBlock_eq (by rw [List.length_take]; omega)]
      dsimp only [bind, Except.bind]
      rw [writeBlock_eq (by dsimp only; rw [List.length_drop]; omega)]
      exact ⟨_, rfl, h.write_on hroom (.inr ⟨by omega, hnot⟩)
        (h.window_blit_blit hroom (by omega))⟩
  · rw [if_pos (by omega)] at hroom'
    rw [writeBlock_eq (by omega)]
    exact ⟨_, rfl, h.write_on hroom (.inl ⟨rfl, by dsimp only; omega⟩)
      (h.window_blit hroom (by omega))⟩

theorem wrap_cases (rb : RingBuf) (p : ℕ) :
    rb.wrap p = p ∨ (p = rb.bufLen ∧ rb.wrap p = 0) := by
  rw [wrap]
  split_ifs with heq
  · exact .inr ⟨heq, rfl⟩
  · exact .inl rfl

/-- Bytes have gone through: `out` has come out of the content, with `into` behind it. -/
structure Moves (rb rb' : RingBuf) (out into : List UInt8) : Prop where
  within : rb'.Within
  bufLen : rb'.bufLen = rb.bufLen
  content : rb.content ++ into = out ++ rb'.content

theorem Within.moves_nil (h : rb.Within) : rb.Moves rb [] [] := ⟨h, rfl, List.append_nil _⟩

theorem Extends.moves (h : rb.Extends rb' l) : rb.Moves rb' [] l :=
  ⟨h.within, h.bufLen, h.content.symm⟩

theorem Extends.moves_read (h : rb.Extends rb' l) (hcount : count ≤ rb.getDataCount) {pRead : ℕ}
    (hread : (pRead = rb.pRead + count ∧ pRead ≤ rb.bufLen) ∨
      (pRead + rb.bufLen = rb.pRead + count ∧ rb.pWrite < rb.pRead)) :
    rb.Moves { rb' with pRead } (rb.content.take count) l := by
  have hread' : (pRead = rb'.pRead + count ∧ pRead ≤ rb'.bufLen) ∨
      (pRead + rb'.bufLen = rb'.pRead + count ∧ rb'.pWrite < rb'.pRead) := by
    rcases hread with hon | ⟨haround, hbehind⟩
    · exact .inl (by rwa [h.pRead, h.bufLen])
    · exact .inr ⟨by rwa [h.pRead, h.bufLen], h.behind hbehind⟩
  obtain ⟨hwithin, hcontent⟩ := h.within.read_on (by rw [h.getDataCount]; omega) hread'
  refine ⟨hwithin, h.bufLen, ?_⟩
  rw [hcontent, h.content, List.drop_append_of_le_length (by rw [length_content]; exact hcount),
    ← List.append_assoc, List.take_append_drop]

end RingBuf

/-! ### From one into another -/

section

open RingBuf

variable {ι : Type} [DecidableEq ι] {s s' : ι → RingBuf} {RingBuft RingBufs i : ι}
  {count p pRead : ℕ} {l l' : List UInt8}

/-- The bytes that a call on one of the rings is about. -/
def only (ring : ι) (l : List UInt8) (i : ι) : List UInt8 := if i = ring then l else []

@[simp] theorem only_self : only i l i = l := if_pos rfl

theorem only_of_ne {ring : ι} (h : i ≠ ring) : only ring l i = [] := if_neg h

theorem only_append (ring : ι) (l l' : List UInt8) (i : ι) :
    only ring l i ++ only ring l' i = only ring (l ++ l') i := by
  by_cases hi : i = ring
  · subst hi
    simp only [only_self]
  · simp only [only_of_ne hi, List.append_nil]

theorem extends_update (hall : ∀ i, (s i).Within) {rb : RingBuf}
    (h : (s RingBuft).Extends rb l) (i : ι) :
    (s i).Extends (Function.update s RingBuft rb i) (only RingBuft l i) := by
  by_cases hi : i = RingBuft
  · subst hi
    rwa [Function.update_self, only_self]
  · rw [Function.update_of_ne hi, only_of_ne hi]
    exact (hall i).extends_nil

/-- **A block** is appended to the target. -/
theorem copyBlock_spec (hall : ∀ i, (s i).Within) (RingBuft RingBufs : ι) (p count : ℕ)
    (hblock : p + count ≤ (s RingBufs).bufLen)
    (hroom : (s RingBuft).getDataCount + count + 8 ≤ (s RingBuft).bufLen) :
    ∃ s', copyBlock s RingBuft RingBufs p count = .ok (copy (s RingBufs).data p count, s') ∧
      ∀ i, (s i).Extends (s' i) (only RingBuft (copy (s RingBufs).data p count) i) := by
  obtain ⟨rb, hok, hext⟩ := (hall RingBuft).write (l := copy (s RingBufs).data p count)
    (by rw [length_copy]; exact hroom) wrap_cases
  rw [copyBlock, readBlock_eq hblock]
  dsimp only [bind, Except.bind]
  rw [RingBuf_copyFromLinear, hok]
  exact ⟨_, rfl, extends_update hall hext⟩

/-- The read pointer of the source is set, after the bytes have been appended to the target. -/
theorem setRead_moves
    (hext : ∀ i, (s i).Extends (s' i) (only RingBuft ((s RingBufs).content.take count) i))
    (hcount : count ≤ (s RingBufs).getDataCount)
    (hread : (pRead = (s RingBufs).pRead + count ∧ pRead ≤ (s RingBufs).bufLen) ∨
      (pRead + (s RingBufs).bufLen = (s RingBufs).pRead + count ∧
        (s RingBufs).pWrite < (s RingBufs).pRead)) (i : ι) :
    (s i).Moves (setRead s' RingBufs pRead i) (only RingBufs ((s RingBufs).content.take count) i)
      (only RingBuft ((s RingBufs).content.take count) i) := by
  by_cases hi : i = RingBufs
  · subst hi
    rw [setRead, Function.update_self, only_self]
    exact (hext i).moves_read hcount hread
  · rw [setRead, Function.update_of_ne hi, only_of_ne hi]
    exact (hext i).moves

/-- **Copying from one into another** moves the first bytes, also where the two are one. -/
theorem copyFromRingBuf_spec (hall : ∀ i, (s i).Within)
    (hcount : count ≤ (s RingBufs).getDataCount) (hfree : count ≤ (s RingBuft).getFreeSpace) :
    ∃ s', RingBuf_copyFromRingBuf s RingBuft RingBufs count =
        .ok ((s RingBufs).content.take count, s') ∧
      ∀ i, (s i).Moves (s' i) (only RingBufs ((s RingBufs).content.take count) i)
        (only RingBuft ((s RingBufs).content.take count) i) := by
  have hle := (hall RingBufs).pRead
  have hwrite := (hall RingBufs).pWrite
  have hsource := (hall RingBufs).room
  have hroom := (hall RingBuft).getFreeSpace_add
  have hcount' := hcount
  rw [getDataCount] at hcount'
  rw [RingBuf_copyFromRingBuf, if_neg (by omega)]
  split
  · rw [if_neg (by omega)] at hcount'
    obtain ⟨s', hok, hext⟩ := copyBlock_spec hall RingBuft RingBufs (s RingBufs).pRead count
      (by omega) (by omega)
    rw [copy_eq_take hcount (by omega)] at hok hext
    rw [hok]
    exact ⟨_, rfl, setRead_moves hext hcount (.inl ⟨rfl, by omega⟩)⟩
  · rename_i hnot
    rw [if_pos (by omega)] at hcount'
    dsimp only
    split
    · rename_i hend
      obtain ⟨s', hok, hext⟩ := copyBlock_spec hall RingBuft RingBufs (s RingBufs).pRead count
        (by omega) (by omega)
      rw [copy_eq_take hcount (by omega)] at hok hext
      rw [hok]
      refine ⟨_, rfl, setRead_moves hext hcount ?_⟩
      rcases wrap_cases (s RingBufs) ((s RingBufs).pRead + count) with heq | ⟨hlen, heq⟩
      · exact .inl ⟨heq, by omega⟩
      · exact .inr ⟨by omega, by omega⟩
    · rename_i hend
      have htake := (hall RingBufs).copy_append_eq_take hcount (by omega)
      obtain ⟨s₁, hok₁, hext₁⟩ := copyBlock_spec hall RingBuft RingBufs (s RingBufs).pRead
        ((s RingBufs).bufLen - (s RingBufs).pRead) (by omega) (by omega)
      have hcount₁ := (hext₁ RingBuft).getDataCount
      rw [only_self, length_copy] at hcount₁
      have hsource₁ := (hext₁ RingBufs).getDataCount
      obtain ⟨s₂, hok₂, hext₂⟩ := copyBlock_spec (fun i => (hext₁ i).within) RingBuft RingBufs 0
        (count - ((s RingBufs).bufLen - (s RingBufs).pRead))
        (by rw [(hext₁ RingBufs).bufLen]; omega)
        (by rw [(hext₁ RingBuft).bufLen]; omega)
      -- the first block has not been copied over what is still to be read
      have htake₁ := (hext₁ RingBufs).within.copy_append_eq_take
        (by omega : count ≤ (s₁ RingBufs).getDataCount)
        (by rw [(hext₁ RingBufs).bufLen, (hext₁ RingBufs).pRead]; omega)
      rw [(hext₁ RingBufs).bufLen, (hext₁ RingBufs).pRead, (hext₁ RingBufs).content,
        List.take_append_of_le_length (by rw [length_content]; exact hcount), ← htake] at htake₁
      obtain ⟨-, hsecond⟩ := List.append_inj htake₁ (by simp only [length_copy])
      rw [hsecond] at hok₂ hext₂
      have hext : ∀ i, (s i).Extends (s₂ i)
          (only RingBuft ((s RingBufs).content.take count) i) := by
        intro i
        rw [← htake, ← only_append]
        exact (hext₁ i).trans (hext₂ i)
      rw [hok₁]
      dsimp only [bind, Except.bind]
      rw [hok₂]
      dsimp only
      rw [htake]
      refine ⟨_, rfl, setRead_moves hext hcount (.inr ⟨?_, ?_⟩)⟩ <;> omega

end

/-! ### Runs -/

section

open RingBuf

variable {ι : Type} [DecidableEq ι] {s₀ s s' : ι → RingBuf} {i : ι} {c : RingCall ι}
  {cs : List (RingCall ι)} {os o : List (RingMove ι)}

namespace RingMove

def writtenTo (i : ι) : RingMove ι → List UInt8
  | written ring bytes => only ring bytes i
  | read _ _ => []

def readFrom (i : ι) : RingMove ι → List UInt8
  | written _ _ => []
  | read ring bytes => only ring bytes i

end RingMove

def writtenTo (i : ι) (os : List (RingMove ι)) : List UInt8 := os.flatMap (RingMove.writtenTo i)

def readFrom (i : ι) (os : List (RingMove ι)) : List UInt8 := os.flatMap (RingMove.readFrom i)

theorem writtenTo_append : writtenTo i (os ++ o) = writtenTo i os ++ writtenTo i o :=
  List.flatMap_append

theorem readFrom_append : readFrom i (os ++ o) = readFrom i os ++ readFrom i o :=
  List.flatMap_append

theorem writtenTo_written (ring : ι) (l : List UInt8) :
    writtenTo i [.written ring l] = only ring l i := List.append_nil _

theorem readFrom_read (ring : ι) (l : List UInt8) :
    readFrom i [.read ring l] = only ring l i := List.append_nil _

/-- **A call that writes** into one of the rings. -/
theorem exists_write (hall : ∀ i, (s i).Within) {ring : ι} {l : List UInt8}
    (hfree : l.length ≤ (s ring).getFreeSpace) {atEnd : RingBuf → ℕ → ℕ}
    (hend : ∀ rb p, atEnd rb p = p ∨ (p = rb.bufLen ∧ atEnd rb p = 0)) :
    ∃ rb, (s ring).write atEnd l = .ok rb ∧
      ∀ i, (s i).Moves (Function.update s ring rb i) (readFrom i [.written ring l])
        (writtenTo i [.written ring l]) := by
  have hroom := (hall ring).getFreeSpace_add
  obtain ⟨rb, hok, hext⟩ := (hall ring).write (l := l) (by omega) hend
  refine ⟨rb, hok, fun i => ?_⟩
  rw [writtenTo_written]
  exact (extends_update hall hext i).moves

/-- **A call** whose count is permitted does what a queue does, and accesses the buffers only. -/
theorem exists_step (hall : ∀ i, (s i).Within) (hperm : c.Permitted s) :
    ∃ s' o, rings s c = .ok (s', o) ∧
      ∀ i, (s i).Moves (s' i) (readFrom i o) (writtenTo i o) := by
  cases c with
  | copyFromLinear ring buf =>
    obtain ⟨rb, hok, hmoves⟩ := exists_write hall hperm wrap_cases
    rw [rings, RingBuf_copyFromLinear, hok]
    exact ⟨_, _, rfl, hmoves⟩
  | fillZero ring count =>
    obtain ⟨rb, hok, hmoves⟩ := exists_write (l := List.replicate count 0) hall
      (by rw [List.length_replicate]; exact hperm) wrap_cases
    rw [rings, RingBuf_fillZero, hok]
    exact ⟨_, _, rfl, hmoves⟩
  | writeDataValue ring value count =>
    obtain ⟨rb, hok, hmoves⟩ := exists_write
      (l := List.replicate count (UInt8.ofNat value.toNat)) hall
      (by rw [List.length_replicate]; exact hperm) (fun _ _ => .inl rfl)
    rw [rings, RingBuf_writeDataValue, hok]
    exact ⟨_, _, rfl, hmoves⟩
  | copyToLinear ring count =>
    obtain ⟨rb, hok, hwithin, hcontent, hlen⟩ := (hall ring).copyToLinear hperm
    rw [rings, hok]
    refine ⟨_, _, rfl, fun i => ?_⟩
    rw [readFrom_read]
    by_cases hi : i = ring
    · subst hi
      rw [Function.update_self, only_self]
      refine ⟨hwithin, hlen, ?_⟩
      rw [hcontent, List.take_append_drop]
      exact List.append_nil _
    · rw [Function.update_of_ne hi, only_of_ne hi]
      exact (hall i).moves_nil
  | copyFromRingBuf t ring count =>
    obtain ⟨hcount, hfree⟩ := hperm
    obtain ⟨s', hok, hmoves⟩ := copyFromRingBuf_spec hall hcount hfree
    rw [rings, hok]
    refine ⟨_, _, rfl, fun i => ?_⟩
    have hread : readFrom i [.read ring ((s ring).content.take count),
        .written t ((s ring).content.take count)] =
        only ring ((s ring).content.take count) i := List.append_nil _
    have hwritten : writtenTo i [.read ring ((s ring).content.take count),
        .written t ((s ring).content.take count)] =
        only t ((s ring).content.take count) i := List.append_nil _
    rw [hread, hwritten]
    exact hmoves i

/-- Rings between the calls, with the bytes that have gone through them. -/
structure Queues (s₀ s : ι → RingBuf) (os : List (RingMove ι)) (i : ι) : Prop where
  within : (s i).Within
  bufLen : (s i).bufLen = (s₀ i).bufLen
  bytes : writtenTo i os = readFrom i os ++ (s i).content

theorem within_of_empty {rb : RingBuf} (hread : rb.pRead = 0) (hwrite : rb.pWrite = 0)
    (hlen : 9 ≤ rb.bufLen) : rb.Within ∧ rb.content = [] := by
  have hcount : rb.getDataCount = 0 := by rw [getDataCount, hread, hwrite]; rfl
  refine ⟨⟨by omega, by omega, by omega⟩, ?_⟩
  rw [content, hcount, window_zero]

theorem queues_of_runs (hread : ∀ i, (s₀ i).pRead = 0) (hwrite : ∀ i, (s₀ i).pWrite = 0)
    (hlen : ∀ i, 9 ≤ (s₀ i).bufLen)
    (hrun : rings.RunsMeeting (fun _ s c => c.Permitted s) s₀ cs s os) :
    ∀ i, Queues s₀ s os i := by
  refine hrun.invariant (I := fun _ s os => ∀ i, Queues s₀ s os i) ?_ ?_
  · intro i
    obtain ⟨hwithin, hcontent⟩ := within_of_empty (hread i) (hwrite i) (hlen i)
    exact ⟨hwithin, rfl, hcontent.symm⟩
  · intro cs s os c s' o hall hperm hstep i
    obtain ⟨s₁, o₁, hok, hmoves⟩ := exists_step (fun i => (hall i).within) hperm
    rw [hok] at hstep
    obtain ⟨rfl, rfl⟩ := Prod.mk.inj (Except.ok.inj hstep)
    refine ⟨(hmoves i).within, (hmoves i).bufLen.trans (hall i).bufLen, ?_⟩
    rw [writtenTo_append, readFrom_append, (hall i).bytes, List.append_assoc, (hmoves i).content,
      List.append_assoc]

/-- **The rings are queues**: from rings that are empty at their bases, after every run of calls
whose counts are permitted, the pointers of each ring are in its buffer or at the end of it, its
data count is the number of bytes written and not read, its free space is what else there is of the
buffer less eight bytes, and the bytes read are the first ones written, in order. No permitted call
fails, so all that is accessed is in the buffers. -/
theorem rings_are_queues (hread : ∀ i, (s₀ i).pRead = 0) (hwrite : ∀ i, (s₀ i).pWrite = 0)
    (hlen : ∀ i, 9 ≤ (s₀ i).bufLen)
    (hrun : rings.RunsMeeting (fun _ s c => c.Permitted s) s₀ cs s os) :
    (∀ i, (s i).bufLen = (s₀ i).bufLen ∧
      (s i).pRead ≤ (s i).bufLen ∧ (s i).pWrite ≤ (s i).bufLen ∧
      (s i).getDataCount + (readFrom i os).length = (writtenTo i os).length ∧
      (s i).getDataCount + (s i).getFreeSpace = (s i).bufLen - 8 ∧
      writtenTo i os = readFrom i os ++ (s i).content) ∧
    ∀ c, c.Permitted s → ∃ s' o, rings s c = .ok (s', o) := by
  have hall := queues_of_runs hread hwrite hlen hrun
  refine ⟨fun i => ?_, fun c hperm => ?_⟩
  · obtain ⟨hwithin, hbufLen, hbytes⟩ := hall i
    have hadd := hwithin.getFreeSpace_add
    refine ⟨hbufLen, hwithin.pRead, hwithin.pWrite, ?_, by omega, hbytes⟩
    rw [hbytes, List.length_append, length_content, Nat.add_comm]
  · obtain ⟨s', o, hok, -⟩ := exists_step (fun i => (hall i).within) hperm
    exact ⟨s', o, hok⟩

instance (s : ι → RingBuf) : DecidablePred (RingCall.Permitted s)
  | .copyFromLinear i buf => inferInstanceAs (Decidable (buf.length ≤ (s i).getFreeSpace))
  | .fillZero i count => inferInstanceAs (Decidable (count ≤ (s i).getFreeSpace))
  | .writeDataValue i _ count => inferInstanceAs (Decidable (count ≤ (s i).getFreeSpace))
  | .copyToLinear i count => inferInstanceAs (Decidable (count ≤ (s i).getDataCount))
  | .copyFromRingBuf t i count =>
    inferInstanceAs (Decidable (count ≤ (s i).getDataCount ∧ count ≤ (s t).getFreeSpace))

/-- Two rings of sixteen bytes: both pointers of the first one come to its end. -/
theorem rings_are_queues_two : ∃ (s : Bool → RingBuf) (os : List (RingMove Bool)),
    (s false).pRead = 16 ∧ (s false).pWrite = 16 ∧
      writtenTo true os = readFrom true os ++ (s true).content := by
  let s₀ : Bool → RingBuf := fun _ => { bufLen := 16 }
  let cs : List (RingCall Bool) := [.writeDataValue false 7 8, .copyToLinear false 8,
    .writeDataValue false 5 8, .copyFromRingBuf true false 8]
  obtain ⟨s, os, hrun, hread, hwrite⟩ : ∃ s os, rings.Runs s₀ cs s os ∧
      (s false).pRead = 16 ∧ (s false).pWrite = 16 :=
    ⟨_, _, Machine.runs_of_run rfl, rfl, rfl⟩
  have hmeeting := hrun.meeting (C := RingCall.Permitted) (by decide)
  have hqueues :=
    rings_are_queues (fun _ => rfl) (fun _ => rfl) (fun _ => by decide) hmeeting
  exact ⟨s, os, hread, hwrite, (hqueues.1 true).2.2.2.2.2⟩

end

end MtkHardware.Audio
