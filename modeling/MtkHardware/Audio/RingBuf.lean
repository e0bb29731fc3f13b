import MtkHardware.Util.Ring

/-!
# Ring Buffers

The bytes of a stream go through a `RingBuf`, of which eight bytes are always free. What is in it is
its `content`. The lemmas say what copying out of it, into it and from one into another does to the
contents; what is proved of the streams is proved of contents.
-/

namespace MtkHardware.Audio

open RingBuffer

/-- A ring buffer. The pointers are given by the index from `pBufBase` on. -/
structure RingBuf where
  data : ℕ → UInt8 := fun _ => 0
  pRead : ℕ := 0
  pWrite : ℕ := 0
  bufLen : ℕ

inductive Assertion
  /-- There is too little space. -/
  | space
  /-- There is too little data. -/
  | data
  deriving DecidableEq, Repr

namespace RingBuf

variable (rb : RingBuf)

def getDataCount : ℕ :=
  if rb.pWrite < rb.pRead then rb.pWrite + rb.bufLen - rb.pRead else rb.pWrite - rb.pRead

def getFreeSpace : ℕ :=
  if rb.pWrite < rb.pRead then rb.pRead - rb.pWrite - 8
  else rb.pRead + rb.bufLen - rb.pWrite - 8

/-- The pointer, back at the base where it is at the end. -/
def wrap (p : ℕ) : ℕ := if p = rb.bufLen then 0 else p

def copyToLinear (count : ℕ) : List UInt8 × RingBuf :=
  if rb.pRead ≤ rb.pWrite then
    (copy rb.data rb.pRead count, { rb with pRead := rb.pRead + count })
  else
    let r2e := rb.bufLen - rb.pRead
    if count ≤ r2e then
      (copy rb.data rb.pRead count, { rb with pRead := rb.wrap (rb.pRead + count) })
    else
      (copy rb.data rb.pRead r2e ++ copy rb.data 0 (count - r2e),
        { rb with pRead := count - r2e })

def copyFromLinear (buf : List UInt8) : Except Assertion RingBuf :=
  if rb.bufLen < rb.getDataCount + buf.length + 8 then .error .space
  else if rb.pRead ≤ rb.pWrite then
    let w2e := rb.bufLen - rb.pWrite
    if buf.length ≤ w2e then
      .ok { rb with
        data := blit rb.data rb.pWrite buf
        pWrite := rb.wrap (rb.pWrite + buf.length) }
    else
      .ok { rb with
        data := blit (blit rb.data rb.pWrite (buf.take w2e)) 0 (buf.drop w2e)
        pWrite := buf.length - w2e }
  else .ok { rb with data := blit rb.data rb.pWrite buf, pWrite := rb.pWrite + buf.length }

def copyFromRingBuf (RingBuft RingBufs : RingBuf) (count : ℕ) :
    Except Assertion (RingBuf × RingBuf) :=
  if RingBufs.getDataCount < count then .error .data
  else if RingBuft.getFreeSpace < count then .error .space
  else if RingBufs.pRead ≤ RingBufs.pWrite then do
    let RingBuft ← RingBuft.copyFromLinear (copy RingBufs.data RingBufs.pRead count)
    .ok (RingBuft, { RingBufs with pRead := RingBufs.pRead + count })
  else
    let cnt2e := RingBufs.bufLen - RingBufs.pRead
    if count ≤ cnt2e then do
      let RingBuft ← RingBuft.copyFromLinear (copy RingBufs.data RingBufs.pRead count)
      .ok (RingBuft, { RingBufs with pRead := RingBufs.wrap (RingBufs.pRead + count) })
    else do
      let RingBuft ← RingBuft.copyFromLinear (copy RingBufs.data RingBufs.pRead cnt2e)
      let RingBuft ← RingBuft.copyFromLinear (copy RingBufs.data 0 (count - cnt2e))
      .ok (RingBuft, { RingBufs with pRead := count - cnt2e })

/-! ### Contents -/

def content : List UInt8 := window rb.bufLen rb.data rb.pRead rb.getDataCount

structure Valid (rb : RingBuf) : Prop where
  pRead : rb.pRead < rb.bufLen
  pWrite : rb.pWrite < rb.bufLen

variable {rb : RingBuf} {l : List UInt8} {count : ℕ}

theorem valid_empty {bufLen : ℕ} (h : 0 < bufLen) : ({ bufLen } : RingBuf).Valid := ⟨h, h⟩

@[simp] theorem length_content : rb.content.length = rb.getDataCount := length_window

theorem content_empty (bufLen : ℕ) : ({ bufLen } : RingBuf).content = [] := rfl

theorem Valid.getDataCount_lt (h : rb.Valid) : rb.getDataCount < rb.bufLen := by
  have := h.pRead
  have := h.pWrite
  rw [getDataCount]
  split_ifs <;> omega

theorem Valid.getFreeSpace_eq (h : rb.Valid) :
    rb.getFreeSpace = rb.bufLen - rb.getDataCount - 8 := by
  have := h.pRead
  have := h.pWrite
  rw [getFreeSpace, getDataCount]
  split_ifs <;> omega

theorem Valid.pWrite_eq (h : rb.Valid) :
    rb.pWrite = (rb.pRead + rb.getDataCount) % rb.bufLen := by
  have := h.pRead
  have := h.pWrite
  rw [getDataCount]
  split_ifs with hlt
  · rw [Nat.mod_eq_sub_mod (by omega), Nat.mod_eq_of_lt (by omega)]
    omega
  · rw [Nat.mod_eq_of_lt (by omega)]
    omega

theorem getDataCount_of_pWrite (hvalid : rb.Valid) (hcount : count < rb.bufLen)
    (hwrite : rb.pWrite = (rb.pRead + count) % rb.bufLen) : rb.getDataCount = count := by
  have := hvalid.pRead
  have := hvalid.pWrite
  rw [getDataCount]
  by_cases hwrap : rb.pRead + count < rb.bufLen
  · rw [Nat.mod_eq_of_lt hwrap] at hwrite
    rw [if_neg (by omega)]
    omega
  · rw [Nat.mod_eq_sub_mod (by omega), Nat.mod_eq_of_lt (by omega)] at hwrite
    rw [if_pos (by omega)]
    omega

theorem Valid.read_on (h : rb.Valid) (hcount : count ≤ rb.getDataCount) {pRead : ℕ}
    (hread : pRead = (rb.pRead + count) % rb.bufLen) :
    ({ rb with pRead } : RingBuf).Valid ∧
      ({ rb with pRead } : RingBuf).content = rb.content.drop count := by
  have hlt := h.getDataCount_lt
  have hvalid : ({ rb with pRead } : RingBuf).Valid :=
    ⟨hread ▸ Nat.mod_lt _ (by omega), h.pWrite⟩
  have hrest : ({ rb with pRead } : RingBuf).getDataCount = rb.getDataCount - count := by
    refine getDataCount_of_pWrite hvalid (by dsimp only; omega) ?_
    dsimp only
    rw [hread, Nat.mod_add_mod, h.pWrite_eq]
    congr 1
    omega
  refine ⟨hvalid, ?_⟩
  rw [content, hrest, content, drop_window hcount]
  dsimp only
  rw [hread]

theorem Valid.wrap_eq (h : rb.Valid) {p : ℕ} (hp : p ≤ rb.bufLen) :
    rb.wrap p = p % rb.bufLen := by
  have := h.pRead
  rw [wrap]
  split_ifs with heq
  · rw [heq, Nat.mod_self]
  · exact (Nat.mod_eq_of_lt (by omega)).symm

/-- **Copying out** takes the first bytes. -/
theorem Valid.copyToLinear (h : rb.Valid) (hcount : count ≤ rb.getDataCount) :
    (rb.copyToLinear count).1 = rb.content.take count ∧ (rb.copyToLinear count).2.Valid ∧
      (rb.copyToLinear count).2.content = rb.content.drop count ∧
      (rb.copyToLinear count).2.bufLen = rb.bufLen := by
  have hread := h.pRead
  have hwrite := h.pWrite
  have hlt := h.getDataCount_lt
  have hcount' := hcount
  rw [content, take_window hcount, ← content, RingBuf.copyToLinear]
  rw [getDataCount] at hcount'
  split
  · rw [if_neg (by omega)] at hcount'
    obtain ⟨hvalid, hcontent⟩ := h.read_on hcount (Nat.mod_eq_of_lt (by omega)).symm
    exact ⟨copy_eq_window (by omega), hvalid, hcontent, rfl⟩
  · dsimp only
    split
    · obtain ⟨hvalid, hcontent⟩ := h.read_on hcount (h.wrap_eq (by omega))
      exact ⟨copy_eq_window (by omega), hvalid, hcontent, rfl⟩
    · have hmod : count - (rb.bufLen - rb.pRead) = (rb.pRead + count) % rb.bufLen := by
        rw [Nat.mod_eq_sub_mod (by omega), Nat.mod_eq_of_lt (by omega)]
        omega
      obtain ⟨hvalid, hcontent⟩ := h.read_on hcount hmod
      exact ⟨copy_append_eq_window h.pRead (by omega) (by omega), hvalid, hcontent, rfl⟩

theorem Valid.write_on (h : rb.Valid) (hroom : rb.getDataCount + l.length < rb.bufLen)
    {data : ℕ → UInt8} {pWrite : ℕ} (hwrite : pWrite = (rb.pWrite + l.length) % rb.bufLen)
    (hdata : window rb.bufLen data rb.pRead (rb.getDataCount + l.length) = rb.content ++ l) :
    ({ rb with data, pWrite } : RingBuf).Valid ∧
      ({ rb with data, pWrite } : RingBuf).content = rb.content ++ l := by
  have hvalid : ({ rb with data, pWrite } : RingBuf).Valid :=
    ⟨h.pRead, hwrite ▸ Nat.mod_lt _ (by omega)⟩
  have hcount : ({ rb with data, pWrite } : RingBuf).getDataCount =
      rb.getDataCount + l.length := by
    refine getDataCount_of_pWrite hvalid hroom ?_
    dsimp only
    rw [hwrite, h.pWrite_eq, Nat.mod_add_mod, Nat.add_assoc]
  refine ⟨hvalid, ?_⟩
  rw [content, hcount]
  exact hdata

/-- **Copying in** appends the bytes, where there is room for them. -/
theorem Valid.copyFromLinear (h : rb.Valid) (hroom : rb.getDataCount + l.length + 8 ≤ rb.bufLen) :
    ∃ rb', rb.copyFromLinear l = .ok rb' ∧ rb'.Valid ∧ rb'.content = rb.content ++ l ∧
      rb'.bufLen = rb.bufLen := by
  have hread := h.pRead
  have hwrite := h.pWrite
  have hroom' := hroom
  rw [RingBuf.copyFromLinear, if_neg (by omega)]
  rw [getDataCount] at hroom'
  split
  · rename_i hle
    dsimp only
    split
    · obtain ⟨hvalid, hcontent⟩ := h.write_on (l := l) (by omega) (h.wrap_eq (by omega))
        (window_blit rb.data hread (by omega) (by omega) h.pWrite_eq)
      exact ⟨_, rfl, hvalid, hcontent, rfl⟩
    · rename_i hend
      -- the two blocks make up the bytes
      have hsplit := List.take_append_drop (rb.bufLen - rb.pWrite) l
      have hfirst : (l.take (rb.bufLen - rb.pWrite)).length = rb.bufLen - rb.pWrite := by
        rw [List.length_take]
        omega
      have hfit : rb.getDataCount + (l.take (rb.bufLen - rb.pWrite) ++
          l.drop (rb.bufLen - rb.pWrite)).length ≤ rb.bufLen := by
        rw [hsplit]
        omega
      have hblit := window_blit_blit rb.data hread hfit (by rw [hfirst]; omega) h.pWrite_eq
      rw [hsplit] at hblit
      have hmod : l.length - (rb.bufLen - rb.pWrite) = (rb.pWrite + l.length) % rb.bufLen := by
        rw [if_neg (by omega)] at hroom'
        rw [Nat.mod_eq_sub_mod (by omega), Nat.mod_eq_of_lt (by omega)]
        omega
      obtain ⟨hvalid, hcontent⟩ := h.write_on (l := l) (by omega) hmod hblit
      exact ⟨_, rfl, hvalid, hcontent, rfl⟩
  · rw [if_pos (by omega)] at hroom'
    obtain ⟨hvalid, hcontent⟩ := h.write_on (l := l) (by omega)
      (Nat.mod_eq_of_lt (by omega : rb.pWrite + l.length < rb.bufLen)).symm
      (window_blit rb.data hread (by omega) (by omega) h.pWrite_eq)
    exact ⟨_, rfl, hvalid, hcontent, rfl⟩

/-- **Copying from one into another** moves the first bytes. -/
theorem Valid.copyFromRingBuf {RingBuft RingBufs : RingBuf} (ht : RingBuft.Valid)
    (hs : RingBufs.Valid) (hcount : count ≤ RingBufs.getDataCount)
    (hroom : RingBuft.getDataCount + count + 8 ≤ RingBuft.bufLen) :
    ∃ t s, copyFromRingBuf RingBuft RingBufs count = .ok (t, s) ∧ t.Valid ∧ s.Valid ∧
      t.content = RingBuft.content ++ RingBufs.content.take count ∧
      s.content = RingBufs.content.drop count ∧ t.bufLen = RingBuft.bufLen ∧
      s.bufLen = RingBufs.bufLen := by
  -- the source is read as it is when its bytes are copied out
  obtain ⟨htake, hvalid, hdrop, hlen⟩ := hs.copyToLinear hcount
  have hlength : (RingBufs.copyToLinear count).1.length = count := by
    rw [htake, List.length_take, length_content]
    omega
  rw [← htake, ← hdrop, ← hlen, RingBuf.copyFromRingBuf, if_neg (by omega),
    if_neg (by rw [ht.getFreeSpace_eq]; omega)]
  rw [RingBuf.copyToLinear] at hvalid hlength ⊢
  split
  · rename_i hle
    rw [if_pos hle] at hvalid hlength
    obtain ⟨t, ht', htv, htc, htl⟩ := ht.copyFromLinear (by rw [hlength]; exact hroom)
    rw [ht']
    exact ⟨t, _, rfl, htv, hvalid, htc, rfl, htl, rfl⟩
  · rename_i hle
    rw [if_neg hle] at hvalid hlength
    dsimp only at hvalid hlength ⊢
    split
    · rename_i hend
      rw [if_pos hend] at hvalid hlength
      obtain ⟨t, ht', htv, htc, htl⟩ := ht.copyFromLinear (by rw [hlength]; exact hroom)
      rw [ht']
      exact ⟨t, _, rfl, htv, hvalid, htc, rfl, htl, rfl⟩
    · rename_i hend
      rw [if_neg hend] at hvalid hlength
      dsimp only at hlength
      rw [List.length_append] at hlength
      obtain ⟨t₁, ht₁, htv₁, htc₁, htl₁⟩ := ht.copyFromLinear
        (l := copy RingBufs.data RingBufs.pRead (RingBufs.bufLen - RingBufs.pRead)) (by omega)
      have hcount₁ := congrArg List.length htc₁
      rw [length_content, List.length_append, length_content] at hcount₁
      obtain ⟨t, ht', htv, htc, htl⟩ := htv₁.copyFromLinear
        (l := copy RingBufs.data 0 (count - (RingBufs.bufLen - RingBufs.pRead))) (by omega)
      rw [ht₁]
      dsimp only [bind, Except.bind]
      rw [ht']
      refine ⟨t, _, rfl, htv, hvalid, ?_, rfl, htl.trans htl₁, rfl⟩
      rw [htc, htc₁, List.append_assoc]

theorem bufLen_copyToLinear (rb : RingBuf) (count : ℕ) :
    (rb.copyToLinear count).2.bufLen = rb.bufLen := by
  rw [RingBuf.copyToLinear]
  split
  · rfl
  · dsimp only
    split <;> rfl

/-- A ring buffer between the calls: eight bytes of it are free. -/
structure Sound (rb : RingBuf) : Prop extends rb.Valid where
  room : rb.getDataCount + 8 ≤ rb.bufLen

theorem sound_empty {bufLen : ℕ} (h : 8 ≤ bufLen) : ({ bufLen } : RingBuf).Sound where
  toValid := valid_empty (by omega)
  room := by
    rw [← length_content, content_empty]
    exact h

theorem Sound.copyToLinear (h : rb.Sound) (hcount : count ≤ rb.getDataCount) :
    (rb.copyToLinear count).1 = rb.content.take count ∧ (rb.copyToLinear count).2.Sound ∧
      (rb.copyToLinear count).2.content = rb.content.drop count := by
  obtain ⟨htake, hvalid, hdrop, hlen⟩ := h.toValid.copyToLinear hcount
  refine ⟨htake, ⟨hvalid, ?_⟩, hdrop⟩
  rw [← length_content, hdrop, hlen, List.length_drop, length_content]
  have := h.room
  omega

theorem Sound.copyFromLinear (h : rb.Sound) (hfree : l.length ≤ rb.getFreeSpace) :
    ∃ rb', rb.copyFromLinear l = .ok rb' ∧ rb'.Sound ∧ rb'.content = rb.content ++ l ∧
      rb'.bufLen = rb.bufLen := by
  have hroom := h.room
  rw [h.getFreeSpace_eq] at hfree
  obtain ⟨rb', hok, hvalid, hcontent, hlen⟩ := h.toValid.copyFromLinear (l := l) (by omega)
  refine ⟨rb', hok, ⟨hvalid, ?_⟩, hcontent, hlen⟩
  rw [← length_content, hcontent, hlen, List.length_append, length_content]
  omega

theorem Sound.copyFromRingBuf {RingBuft RingBufs : RingBuf} (ht : RingBuft.Sound)
    (hs : RingBufs.Valid) (hcount : count ≤ RingBufs.getDataCount)
    (hfree : count ≤ RingBuft.getFreeSpace) :
    ∃ t s, RingBuf.copyFromRingBuf RingBuft RingBufs count = .ok (t, s) ∧ t.Sound ∧ s.Valid ∧
      t.content = RingBuft.content ++ RingBufs.content.take count ∧
      s.content = RingBufs.content.drop count ∧ s.bufLen = RingBufs.bufLen := by
  have hroom := ht.room
  rw [ht.getFreeSpace_eq] at hfree
  obtain ⟨t, s, hok, htv, hsv, htc, hsc, htl, hsl⟩ :=
    ht.toValid.copyFromRingBuf hs hcount (by omega)
  refine ⟨t, s, hok, ⟨htv, ?_⟩, hsv, htc, hsc, hsl⟩
  rw [← length_content, htc, htl, List.length_append, List.length_take, length_content,
    length_content]
  omega

end RingBuf

end MtkHardware.Audio
