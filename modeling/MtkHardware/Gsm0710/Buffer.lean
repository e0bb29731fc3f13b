import MtkHardware.Gsm0710.Frame
import MtkHardware.Util.Ring
import MtkHardware.Util.Run

/-!
# The Receive Buffer

The bytes from the modem go through a ring of `GSM0710_BUFFER_SIZE` bytes. `readp` and `writep`
point to the next byte that is read and written; `datacount` tells how many there are between them.
The reading side works on copies of `readp` and `datacount`, a `Cursor`.

What is in the ring is its `content`. The lemmas say what writing, reading and copying do to it;
what is proved of the decoders is proved of contents.
-/

namespace MtkHardware.Gsm0710

open RingBuffer

/-- `GSM0710_Buffer`. A pointer is given by the index it points to, and `endp` is
`GSM0710_BUFFER_SIZE`. -/
structure GSM0710_Buffer where
  data : ℕ → UInt8 := fun _ => 0
  readp : ℕ := 0
  writep : ℕ := 0
  datacount : ℕ := 0
  newdataready : Bool := false
  input_sleeping : Bool := false
  flag_found : Bool := false
  received_count : ℕ := 0
  dropped_count : ℕ := 0
  adv_data : ℕ → UInt8 := fun _ => 0
  adv_length : ℕ := 0
  adv_found_esc : Bool := false

inductive MuxFault
  /-- More bytes are read than there are. -/
  | underflow
  /-- `channellist` is read behind its end. -/
  | channelIndex (channel : ℕ)
  /-- The assertion on the depth of the recursion. -/
  | resyncDepth
  deriving DecidableEq, Repr

/-- `local_readp` and `local_datacount`. -/
structure Cursor where
  readp : ℕ
  datacount : ℕ
  deriving DecidableEq, Repr

/-- `gsm0710_buffer_inc`. -/
def gsm0710_buffer_inc (c : Cursor) : Except MuxFault Cursor :=
  if c.datacount = 0 then .error .underflow
  else .ok { readp := next GSM0710_BUFFER_SIZE c.readp, datacount := c.datacount - 1 }

/-- The bytes from the cursor on are copied, in two blocks where they go on at the start. -/
def readBytes (data : ℕ → UInt8) (length : ℕ) (c : Cursor) :
    Except MuxFault (List UInt8 × Cursor) :=
  if c.datacount < length then .error .underflow
  else
    let toEnd := GSM0710_BUFFER_SIZE - c.readp
    if toEnd < length then
      .ok (copy data c.readp toEnd ++ copy data 0 (length - toEnd),
        { readp := length - toEnd, datacount := c.datacount - length })
    else
      let readp := c.readp + length
      .ok (copy data c.readp length,
        { readp := if readp = GSM0710_BUFFER_SIZE then 0 else readp,
          datacount := c.datacount - length })

namespace GSM0710_Buffer

/-- `gsm0710_buffer_free`. -/
def free (buf : GSM0710_Buffer) : ℕ := GSM0710_BUFFER_SIZE - buf.datacount

/-- `gsm0710_buffer_inc`, where there is a byte. -/
def inc (buf : GSM0710_Buffer) : GSM0710_Buffer :=
  { buf with readp := next GSM0710_BUFFER_SIZE buf.readp, datacount := buf.datacount - 1 }

def cursor (buf : GSM0710_Buffer) : Cursor := { readp := buf.readp, datacount := buf.datacount }

/-- What has been analyzed, from the cursor `start` to the cursor `c`, is taken out. -/
def commit (buf : GSM0710_Buffer) (start c : Cursor) : GSM0710_Buffer :=
  { buf with readp := c.readp, datacount := buf.datacount - (start.datacount - c.datacount) }

/-- The first half of `gsm0710_buffer_write`: the bytes there is room for are copied and counted. -/
def put (buf : GSM0710_Buffer) (input : List UInt8) : GSM0710_Buffer :=
  let toEnd := GSM0710_BUFFER_SIZE - buf.writep
  let input := input.take buf.free
  if toEnd < input.length then
    { buf with
      data := blit (blit buf.data buf.writep (input.take toEnd)) 0 (input.drop toEnd)
      writep := input.length - toEnd
      datacount := buf.datacount + input.length }
  else
    let writep := buf.writep + input.length
    { buf with
      data := blit buf.data buf.writep input
      writep := if writep = GSM0710_BUFFER_SIZE then 0 else writep
      datacount := buf.datacount + input.length }

/-- `gsm0710_buffer_write`, which returns how many bytes it has written. -/
def gsm0710_buffer_write (buf : GSM0710_Buffer) (input : List UInt8) : GSM0710_Buffer × ℕ :=
  ({ buf.put input with newdataready := true }, min input.length buf.free)

/-! ### Contents -/

def content (buf : GSM0710_Buffer) : List UInt8 :=
  window GSM0710_BUFFER_SIZE buf.data buf.readp buf.datacount

structure Sound (buf : GSM0710_Buffer) : Prop where
  readp : buf.readp < GSM0710_BUFFER_SIZE
  datacount : buf.datacount ≤ GSM0710_BUFFER_SIZE
  writep : buf.writep = (buf.readp + buf.datacount) % GSM0710_BUFFER_SIZE

variable {buf : GSM0710_Buffer} {c : Cursor} {b : UInt8} {l p : List UInt8}

theorem sound_init : ({} : GSM0710_Buffer).Sound := ⟨by decide, by decide, rfl⟩

@[simp] theorem length_content : buf.content.length = buf.datacount := length_window

theorem Sound.inc (h : buf.Sound) (hpos : 0 < buf.datacount) : buf.inc.Sound where
  readp := next_lt h.readp
  datacount := (Nat.sub_le ..).trans h.datacount
  writep := by
    change buf.writep = (next GSM0710_BUFFER_SIZE buf.readp + (buf.datacount - 1)) % _
    rw [h.writep, next_eq_mod h.readp, Nat.mod_add_mod]
    congr 1
    omega

theorem Sound.content_inc (h : buf.Sound) (hpos : 0 < buf.datacount) :
    buf.content = buf.data buf.readp :: buf.inc.content := by
  obtain ⟨k, hk⟩ := Nat.exists_eq_succ_of_ne_zero hpos.ne'
  unfold content
  rw [hk, window_succ h.readp, GSM0710_Buffer.inc, hk]
  rfl

theorem Sound.content_put (h : buf.Sound) (input : List UInt8) :
    (buf.put input).content = buf.content ++ input.take buf.free := by
  have hfit : buf.datacount + (input.take buf.free).length ≤ GSM0710_BUFFER_SIZE := by
    have := h.datacount
    rw [List.length_take, free]
    omega
  have hlt : buf.writep < GSM0710_BUFFER_SIZE := by
    rw [h.writep]
    exact Nat.mod_lt _ (by decide)
  unfold GSM0710_Buffer.put content
  dsimp only
  split
  · rename_i hend
    -- the two blocks make up the input
    generalize input.take buf.free = l at hfit hend
    have hsplit := List.take_append_drop (GSM0710_BUFFER_SIZE - buf.writep) l
    have hfirst : (l.take (GSM0710_BUFFER_SIZE - buf.writep)).length =
        GSM0710_BUFFER_SIZE - buf.writep := by
      rw [List.length_take]
      omega
    have hblit := window_blit_blit buf.data h.readp (by rw [hsplit]; exact hfit)
      (by rw [hfirst]; omega) h.writep
    rwa [hsplit] at hblit
  · rename_i hend
    exact window_blit _ h.readp hfit (by omega) h.writep

theorem exists_put_eq (buf : GSM0710_Buffer) (input : List UInt8) : ∃ data writep datacount,
    buf.put input = { buf with data, writep, datacount } := by
  unfold GSM0710_Buffer.put
  dsimp only
  split <;> exact ⟨_, _, _, rfl⟩

theorem Sound.put (h : buf.Sound) (input : List UInt8) : (buf.put input).Sound := by
  have hfit : buf.datacount + (input.take buf.free).length ≤ GSM0710_BUFFER_SIZE := by
    have := h.datacount
    rw [List.length_take, free]
    omega
  have hlt : buf.writep < GSM0710_BUFFER_SIZE := by
    rw [h.writep]
    exact Nat.mod_lt _ (by decide)
  have hwritep : ∀ n, (buf.writep + n) % GSM0710_BUFFER_SIZE =
      (buf.readp + (buf.datacount + n)) % GSM0710_BUFFER_SIZE := by
    intro n
    rw [h.writep, Nat.mod_add_mod, Nat.add_assoc]
  unfold GSM0710_Buffer.put
  dsimp only
  split_ifs with hend hwrap
  · refine ⟨h.readp, hfit, ?_⟩
    dsimp only
    rw [← hwritep, Nat.mod_eq_sub_mod (by omega), Nat.mod_eq_of_lt (by omega)]
    omega
  · refine ⟨h.readp, hfit, ?_⟩
    rw [← hwritep, hwrap, Nat.mod_self]
  · refine ⟨h.readp, hfit, ?_⟩
    rw [← hwritep, Nat.mod_eq_of_lt (by omega)]

end GSM0710_Buffer

/-! ### Cursors -/

namespace Cursor

variable {c : Cursor} {data : ℕ → UInt8} {writep : ℕ} {b : UInt8} {l p : List UInt8}

/-- The bytes from a cursor up to `writep`. -/
structure At (c : Cursor) (data : ℕ → UInt8) (writep : ℕ) (l : List UInt8) : Prop where
  readp : c.readp < GSM0710_BUFFER_SIZE
  datacount : c.datacount ≤ GSM0710_BUFFER_SIZE
  writep : writep = (c.readp + c.datacount) % GSM0710_BUFFER_SIZE
  window : window GSM0710_BUFFER_SIZE data c.readp c.datacount = l

theorem At.length (h : c.At data writep l) : c.datacount = l.length := by
  rw [← h.window, length_window]

theorem At.drop (h : c.At data writep (p ++ l)) {readp : ℕ}
    (hreadp : readp = (c.readp + p.length) % GSM0710_BUFFER_SIZE) :
    ({ readp, datacount := c.datacount - p.length } : Cursor).At data writep l := by
  have hlength : c.datacount = p.length + l.length := by rw [h.length, List.length_append]
  have hwindow := h.window
  rw [hlength, window_add] at hwindow
  obtain ⟨-, hl⟩ := List.append_inj hwindow length_window
  refine ⟨?_, (Nat.sub_le ..).trans h.datacount, ?_, ?_⟩
  · rw [hreadp]
    exact Nat.mod_lt _ (by decide)
  · rw [h.writep, hreadp, Nat.mod_add_mod, hlength]
    congr 1
    dsimp only
    omega
  · dsimp only
    rw [hreadp, hlength, Nat.add_sub_cancel_left, hl]

theorem At.inc (h : c.At data writep (b :: l)) :
    data c.readp = b ∧ ∃ c', gsm0710_buffer_inc c = .ok c' ∧ c'.At data writep l := by
  have hlength : c.datacount = l.length + 1 := h.length
  have hwindow := h.window
  rw [hlength, window_succ h.readp] at hwindow
  obtain ⟨hb, -⟩ := List.cons.inj hwindow
  refine ⟨hb, _, by rw [gsm0710_buffer_inc, if_neg (by omega)], ?_⟩
  exact At.drop (p := [b]) h (next_eq_mod h.readp)

theorem At.readBytes (h : c.At data writep (p ++ l)) :
    ∃ c', Gsm0710.readBytes data p.length c = .ok (p, c') ∧ c'.At data writep l := by
  have hlength : c.datacount = p.length + l.length := by rw [h.length, List.length_append]
  have hwindow := h.window
  rw [hlength, window_add] at hwindow
  obtain ⟨hp, -⟩ := List.append_inj hwindow length_window
  have hlt := h.readp
  have hle := h.datacount
  unfold Gsm0710.readBytes
  rw [if_neg (by omega)]
  dsimp only
  split
  · rename_i hend
    have hcopy : copy data c.readp (GSM0710_BUFFER_SIZE - c.readp) ++
        copy data 0 (p.length - (GSM0710_BUFFER_SIZE - c.readp)) = p := by
      rw [copy_append_eq_window hlt (by omega) (by omega), hp]
    refine ⟨_, by rw [hcopy], h.drop ?_⟩
    rw [Nat.mod_eq_sub_mod (by omega), Nat.mod_eq_of_lt (by omega)]
    omega
  · rename_i hend
    have hfit : c.readp + p.length ≤ GSM0710_BUFFER_SIZE := by omega
    refine ⟨_, by rw [copy_eq_window hfit, hp], h.drop ?_⟩
    split_ifs with hwrap
    · rw [hwrap, Nat.mod_self]
    · exact (Nat.mod_eq_of_lt (by omega)).symm

end Cursor

namespace GSM0710_Buffer

variable {buf : GSM0710_Buffer} {c : Cursor} {l : List UInt8}

theorem Sound.at_cursor (h : buf.Sound) : buf.cursor.At buf.data buf.writep buf.content :=
  ⟨h.readp, h.datacount, h.writep, rfl⟩

theorem commit_spec (hc : c.At buf.data buf.writep l) (hle : c.datacount ≤ buf.datacount) :
    (buf.commit buf.cursor c).Sound ∧ (buf.commit buf.cursor c).content = l := by
  have hdatacount : buf.datacount - (buf.datacount - c.datacount) = c.datacount :=
    Nat.sub_sub_self hle
  refine ⟨⟨hc.readp, ?_, ?_⟩, ?_⟩
  · change buf.datacount - (buf.datacount - c.datacount) ≤ _
    rw [hdatacount]
    exact hc.datacount
  · change buf.writep = (c.readp + (buf.datacount - (buf.datacount - c.datacount))) % _
    rw [hdatacount]
    exact hc.writep
  · change window _ buf.data c.readp (buf.datacount - (buf.datacount - c.datacount)) = l
    rw [hdatacount]
    exact hc.window

end GSM0710_Buffer

end MtkHardware.Gsm0710
