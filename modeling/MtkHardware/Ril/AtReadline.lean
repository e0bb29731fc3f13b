import MtkHardware.Ril.AtReader
import MtkHardware.Util.Checked
import MtkHardware.Util.Stream

/-!
# Lines of an AT Channel

`readline` returns the next line of the modem. One buffer holds what has been read: the cursor is
behind the last line, and a byte of zero there says that the buffer is empty. A part of a line is
moved to the front of the buffer before more is read. A `> ` with nothing behind it is a prompt, and
a line of its own.

`readline` waits within `read`, so the state of the reader is the buffer with the pointer at which
the next bytes are put. A step takes the bytes of a read, with every line that is returned until the
reader waits again. An access outside of the buffer is a fault.
-/

namespace MtkHardware.Ril

def MAX_AT_RESPONSE : ℕ := 8 * 1024

inductive AtFault
  /-- An access outside of `ATBuffer`. -/
  | buffer
  /-- Bytes that `read` does not return: one at least, and no more than it is asked for. -/
  | notRead
  /-- Lines without an end. -/
  | endless
  deriving DecidableEq, Repr

structure AtBuffer where
  ATBuffer : List UInt8 := .replicate (MAX_AT_RESPONSE + 1) 0
  ATBufferCur : ℕ := 0

/-- The buffer within `read`. -/
structure Waiting where
  buffer : AtBuffer := {}
  p_read : ℕ := 0

def IsNewline (b : UInt8) : Prop := b = 0x0D ∨ b = 0x0A

instance (b : UInt8) : Decidable (IsNewline b) := inferInstanceAs (Decidable (_ ∨ _))

def newlines : List UInt8 → Except AtFault ℕ
  | [] => .error .buffer
  | b :: rest => if IsNewline b then return (← newlines rest) + 1 else return 0

/-- The loop of `findNextEOL`. -/
def findNewline : List UInt8 → Except AtFault (Option ℕ)
  | [] => .error .buffer
  | b :: rest =>
    if b = 0 then return none
    else if IsNewline b then return some 0
    else return (← findNewline rest).map (· + 1)

def findNextEOL (cur : List UInt8) : Except AtFault (Option ℕ) :=
  if cur.take 3 = prompt ++ [0] then return some 2 else findNewline cur

def strlen : List UInt8 → Except AtFault ℕ
  | [] => .error .buffer
  | b :: rest => if b = 0 then return 0 else return (← strlen rest) + 1

def store (buffer : List UInt8) (i : ℕ) (bytes : List UInt8) : Except AtFault (List UInt8) :=
  if i + bytes.length ≤ buffer.length then
    .ok (buffer.take i ++ (bytes ++ buffer.drop (i + bytes.length)))
  else .error .buffer

namespace AtBuffer

variable (s : AtBuffer)

def atCur : List UInt8 := s.ATBuffer.drop s.ATBufferCur

/-- Skip the newlines at the cursor, and look for the end of the line. -/
def nextLine : Except AtFault (AtBuffer × Option ℕ) := do
  let s := { s with ATBufferCur := s.ATBufferCur + (← newlines s.atCur) }
  return (s, (← findNextEOL s.atCur).map (s.ATBufferCur + ·))

def clear : Except AtFault AtBuffer := do
  return ⟨← store s.ATBuffer 0 [0], 0⟩

/-- A call of `readline` up to its loop: the end of the line, or where to read more. -/
def begin : Except AtFault (AtBuffer × (ℕ ⊕ ℕ)) := do
  match s.atCur with
  | [] => throw .buffer
  | b :: _ =>
    if b = 0 then return (← s.clear, .inr 0)
    else
      match ← s.nextLine with
      | (s, some p_eol) => return (s, .inl p_eol)
      | (s, none) =>
        let len ← strlen s.atCur
        return (⟨← store s.ATBuffer 0 (s.atCur.take (len + 1)), 0⟩, .inr len)

/-- The end of a call: the line is returned, up to its terminator. -/
def finish (p_eol : ℕ) : Except AtFault (AtBuffer × Line) := do
  let ATBuffer ← store s.ATBuffer p_eol [0]
  return (⟨ATBuffer, p_eol + 1⟩, (ATBuffer.drop s.ATBufferCur).takeWhile (· ≠ 0))

/-- The calls of `readline` until one waits. -/
def readlines : ℕ → AtBuffer → Except AtFault (Waiting × List Line)
  | 0, _ => .error .endless
  | n + 1, s => do
      match ← s.begin with
      | (s, .inr p_read) => return (⟨s, p_read⟩, [])
      | (s, .inl p_eol) =>
        let (s, line) ← s.finish p_eol
        let (w, lines) ← readlines n s
        return (w, line :: lines)

end AtBuffer

namespace Waiting

variable (w : Waiting)

def ditch : Except AtFault Waiting := do
  if MAX_AT_RESPONSE - w.p_read = 0 then return ⟨← w.buffer.clear, 0⟩ else return w

def received (bytes : List UInt8) : Except AtFault (Waiting × Option ℕ) := do
  let w ← w.ditch
  if bytes = [] ∨ MAX_AT_RESPONSE - w.p_read < bytes.length then throw .notRead
  else
    let ATBuffer ← store w.buffer.ATBuffer w.p_read (bytes ++ [0])
    let (buffer, p_eol) ← { w.buffer with ATBuffer }.nextLine
    return (⟨buffer, w.p_read + bytes.length⟩, p_eol)

end Waiting

/-- **The reader of lines**, a step for each read; it emits the lines that are returned. A line
takes a byte of the buffer at least. -/
def lineReader : Machine Waiting (List UInt8) Line AtFault := fun w bytes => do
  match ← w.received bytes with
  | (w, none) => return (w, [])
  | (w, some p_eol) =>
    let (buffer, line) ← w.buffer.finish p_eol
    let (w, lines) ← buffer.readlines (MAX_AT_RESPONSE + 2)
    return (w, line :: lines)

/-! ### Where a line ends -/

section Lines

theorem IsNewline.ne_zero {b : UInt8} (h : IsNewline b) : b ≠ 0 := by
  rintro rfl
  revert h
  decide

variable {g text rest : List UInt8} {b e : UInt8}

theorem newlines_append (hg : ∀ b ∈ g, IsNewline b) (hb : ¬ IsNewline b) :
    newlines (g ++ b :: rest) = .ok g.length := by
  induction g with
  | nil => exact if_neg hb
  | cons c g ih =>
    obtain ⟨hc, hg⟩ := List.forall_mem_cons.mp hg
    rw [List.cons_append, newlines, if_pos hc, ih hg]
    rfl

theorem findNewline_append (htext : ∀ b ∈ text, b ≠ 0 ∧ ¬ IsNewline b) (hb : b = 0 ∨ IsNewline b) :
    findNewline (text ++ b :: rest) = .ok (if b = 0 then none else some text.length) := by
  induction text with
  | nil =>
    rw [List.nil_append, findNewline]
    split
    · rfl
    · rename_i hne
      rw [if_pos (hb.resolve_left hne)]
      rfl
  | cons c text ih =>
    obtain ⟨hc, htext⟩ := List.forall_mem_cons.mp htext
    rw [List.cons_append, findNewline, if_neg hc.1, if_neg hc.2, ih htext]
    split <;> rfl

theorem prompt_eq : prompt = [0x3E, 0x20] := by decide

theorem take_ne_prompt (htext : ∀ b ∈ text, b ≠ 0 ∧ ¬ IsNewline b) (hb : b = 0 ∨ IsNewline b)
    (hne : text = prompt → b ≠ 0) : (text ++ b :: rest).take 3 ≠ prompt ++ [0] := by
  rw [prompt_eq]
  intro heq
  match text with
  | [] =>
    have hfirst : b = 0x3E := (List.cons.inj heq).1
    rw [hfirst] at hb
    revert hb
    decide
  | [_] =>
    have hsecond : b = 0x20 := (List.cons.inj (List.cons.inj heq).2).1
    rw [hsecond] at hb
    revert hb
    decide
  | [c, d] =>
    obtain ⟨rfl, h⟩ : c = 0x3E ∧ _ := List.cons.inj heq
    obtain ⟨rfl, h'⟩ : d = 0x20 ∧ _ := List.cons.inj h
    exact hne prompt_eq.symm (List.cons.inj h').1
  | _ :: _ :: c :: _ =>
    have hthird : c = 0 := (List.cons.inj (List.cons.inj (List.cons.inj heq).2).2).1
    exact (htext c (by simp)).1 hthird

theorem findNextEOL_line (htext : ∀ b ∈ text, b ≠ 0 ∧ ¬ IsNewline b) (he : IsNewline e) :
    findNextEOL (text ++ e :: rest) = .ok (some text.length) := by
  rw [findNextEOL, if_neg (take_ne_prompt htext (.inr he) fun _ => he.ne_zero),
    findNewline_append htext (.inr he), if_neg he.ne_zero]

theorem findNextEOL_prompt (rest : List UInt8) :
    findNextEOL (prompt ++ 0 :: rest) = .ok (some prompt.length) := if_pos rfl

theorem findNextEOL_part (rest : List UInt8) (htext : ∀ b ∈ text, b ≠ 0 ∧ ¬ IsNewline b)
    (hne : text ≠ prompt) : findNextEOL (text ++ 0 :: rest) = .ok none := by
  rw [findNextEOL, if_neg (take_ne_prompt htext (.inl rfl) fun heq => absurd heq hne),
    findNewline_append htext (.inl rfl), if_pos rfl]

theorem strlen_append (htext : ∀ b ∈ text, b ≠ 0) :
    strlen (text ++ 0 :: rest) = .ok text.length := by
  induction text with
  | nil => exact if_pos rfl
  | cons c text ih =>
    obtain ⟨hc, htext⟩ := List.forall_mem_cons.mp htext
    rw [List.cons_append, strlen, if_neg hc, ih htext]
    rfl

end Lines

/-! ### The buffer -/

namespace AtBuffer

variable {s : AtBuffer} {g text rest bytes : List UInt8} {b e : UInt8}

structure At (s : AtBuffer) (bytes : List UInt8) : Prop where
  length : s.ATBuffer.length = MAX_AT_RESPONSE + 1
  atCur : s.atCur = bytes

theorem At.cur_add (h : s.At bytes) (hne : bytes ≠ []) :
    s.ATBufferCur + bytes.length = MAX_AT_RESPONSE + 1 := by
  have hlength := congrArg List.length h.atCur
  have hpos := List.length_pos_iff.mpr hne
  rw [AtBuffer.atCur, List.length_drop, h.length] at hlength
  omega

theorem exists_store (buffer : List UInt8) (i : ℕ) (bytes : List UInt8)
    (h : i + bytes.length ≤ buffer.length) :
    ∃ buffer', store buffer i bytes = .ok buffer' ∧ buffer'.length = buffer.length ∧
      (∀ j ≤ i, buffer'.drop j =
        (buffer.drop j).take (i - j) ++ (bytes ++ buffer.drop (i + bytes.length))) ∧
      buffer'.drop (i + bytes.length) = buffer.drop (i + bytes.length) := by
  refine ⟨_, if_pos h, ?_, fun j hj => ?_, ?_⟩
  · simp only [List.length_append, List.length_take, List.length_drop]
    omega
  · rw [List.drop_append_of_le_length (by rw [List.length_take]; omega), List.drop_take]
  · have htake : (buffer.take i).length = i := by
      rw [List.length_take]
      omega
    rw [← List.append_assoc, List.drop_left' (by rw [List.length_append, htake])]

theorem At.store_front (h : s.At rest) (bytes : List UInt8)
    (hfits : bytes.length ≤ MAX_AT_RESPONSE + 1) :
    ∃ buffer behind, store s.ATBuffer 0 bytes = .ok buffer ∧
      (⟨buffer, 0⟩ : AtBuffer).At (bytes ++ behind) ∧
      buffer.drop bytes.length = s.ATBuffer.drop bytes.length := by
  obtain ⟨buffer, hstore, hlength, hdrop, hbehind⟩ := exists_store s.ATBuffer 0 bytes
    (by rw [h.length, Nat.zero_add]; exact hfits)
  rw [Nat.zero_add] at hbehind
  exact ⟨buffer, _, hstore, ⟨hlength.trans h.length, hdrop 0 le_rfl⟩, hbehind⟩

theorem At.clear (h : s.At rest) : ∃ s' behind, s.clear = .ok s' ∧ s'.ATBufferCur = 0 ∧
    s'.At (0 :: behind) ∧ s'.ATBuffer.drop 1 = s.ATBuffer.drop 1 := by
  obtain ⟨buffer, behind, hstore, hat, hbehind⟩ := h.store_front [0] (by simp)
  refine ⟨⟨buffer, 0⟩, behind, ?_, rfl, hat, hbehind⟩
  rw [AtBuffer.clear, hstore]
  rfl

theorem At.nextLine (h : s.At (g ++ b :: rest)) (hg : ∀ b ∈ g, IsNewline b) (hb : ¬ IsNewline b)
    {eol : Option ℕ} (heol : findNextEOL (b :: rest) = .ok eol) : ∃ s',
    s.nextLine = .ok (s', eol.map (s'.ATBufferCur + ·)) ∧ s'.At (b :: rest) ∧
      s'.ATBufferCur = s.ATBufferCur + g.length := by
  have hcur : ({ s with ATBufferCur := s.ATBufferCur + g.length } : AtBuffer).atCur =
      b :: rest := by
    rw [AtBuffer.atCur, ← List.drop_drop, ← AtBuffer.atCur, h.atCur, List.drop_left]
  refine ⟨{ s with ATBufferCur := s.ATBufferCur + g.length }, ?_, ⟨h.length, hcur⟩, rfl⟩
  rw [AtBuffer.nextLine, h.atCur, newlines_append hg hb]
  simp only [bind, Except.bind, pure, Except.pure]
  rw [hcur, heol]

theorem At.finish (h : s.At (text ++ b :: rest)) (htext : ∀ b ∈ text, b ≠ 0) : ∃ s',
    s.finish (s.ATBufferCur + text.length) = .ok (s', text) ∧ s'.At rest := by
  have hlength := h.cur_add (by simp)
  rw [List.length_append, List.length_cons] at hlength
  obtain ⟨buffer, hstore, hbuffer, hdrop, hbehind⟩ := exists_store s.ATBuffer
    (s.ATBufferCur + text.length) [0] (by rw [h.length, List.length_singleton]; omega)
  have hline : buffer.drop s.ATBufferCur = text ++ 0 ::
      s.ATBuffer.drop (s.ATBufferCur + text.length + 1) := by
    rw [hdrop _ (Nat.le_add_right _ _), Nat.add_sub_cancel_left, ← AtBuffer.atCur, h.atCur,
      List.take_left]
    rfl
  refine ⟨⟨buffer, s.ATBufferCur + text.length + 1⟩, ?_, hbuffer.trans h.length, ?_⟩
  · rw [AtBuffer.finish, hstore]
    simp only [bind, Except.bind, pure, Except.pure]
    rw [hline, List.takeWhile_append_of_pos (by simpa using htext), List.takeWhile_cons_of_neg
      (by simp), List.append_nil]
  · rw [AtBuffer.atCur, ← List.length_singleton (a := (0 : UInt8)), hbehind, List.length_singleton,
      Nat.add_assoc, ← List.drop_drop, ← AtBuffer.atCur, h.atCur, List.append_cons,
      List.drop_left' (by simp)]

def Blank (bytes : List UInt8) : Prop :=
  ∃ g behind, (∀ b ∈ g, IsNewline b) ∧ bytes = g ++ 0 :: behind

theorem blank_of_head? (h : bytes.head? = some 0) : Blank bytes := by
  cases bytes with
  | nil => cases h
  | cons b behind =>
    obtain rfl := Option.some.inj h
    exact ⟨[], behind, by simp, rfl⟩

theorem begin_of_ne_zero (h : s.At (g ++ b :: rest)) (hg : ∀ b ∈ g, IsNewline b) (hb : b ≠ 0) :
    s.begin = s.nextLine >>= fun r => match r with
      | (s, some p_eol) => return (s, .inl p_eol)
      | (s, none) => do
          let len ← strlen s.atCur
          return (⟨← store s.ATBuffer 0 (s.atCur.take (len + 1)), 0⟩, .inr len) := by
  have hfirst : ∃ c rest', g ++ b :: rest = c :: rest' ∧ c ≠ 0 := by
    cases g with
    | nil => exact ⟨b, rest, rfl, hb⟩
    | cons c g => exact ⟨c, g ++ b :: rest, rfl, (hg c List.mem_cons_self).ne_zero⟩
  obtain ⟨c, rest', heq, hc⟩ := hfirst
  rw [AtBuffer.begin, h.atCur, heq]
  dsimp only
  rw [if_neg hc]

theorem At.move (text : List UInt8) (h : s.At (text ++ 0 :: rest))
    (htext : ∀ b ∈ text, b ≠ 0) : ∃ s' behind,
    (do
      let len ← strlen s.atCur
      return (⟨← store s.ATBuffer 0 (s.atCur.take (len + 1)), 0⟩, .inr len)) =
        (.ok (s', .inr text.length) : Except AtFault (AtBuffer × (ℕ ⊕ ℕ))) ∧
      s'.ATBufferCur = 0 ∧ s'.At (text ++ 0 :: behind) := by
  have hlength := h.cur_add (by simp)
  rw [List.length_append, List.length_cons] at hlength
  obtain ⟨buffer, behind, hstore, hat, -⟩ := h.store_front (text ++ [0])
    (by rw [List.length_append, List.length_singleton]; omega)
  rw [← List.append_cons] at hat
  refine ⟨⟨buffer, 0⟩, behind, ?_, rfl, hat⟩
  rw [h.atCur, strlen_append htext]
  simp only [bind, Except.bind, pure, Except.pure]
  rw [List.append_cons, List.take_left' (by simp), hstore]

theorem At.begin_blank (h : s.At bytes) (hblank : Blank bytes) : ∃ s' behind,
    s.begin = .ok (s', .inr 0) ∧ s'.ATBufferCur = 0 ∧ s'.At (0 :: behind) := by
  obtain ⟨g, behind, hg, rfl⟩ := hblank
  cases g with
  | nil =>
    obtain ⟨s', behind', hclear, hcur, hat, -⟩ := h.clear
    refine ⟨s', behind', ?_, hcur, hat⟩
    rw [AtBuffer.begin, h.atCur]
    simp only [List.nil_append, if_true, hclear]
    rfl
  | cons c g =>
    have heol : findNextEOL ([] ++ 0 :: behind) = .ok none :=
      findNextEOL_part behind (by simp) (by decide)
    obtain ⟨s', hnext, hat, -⟩ := h.nextLine hg (by decide) heol
    obtain ⟨s'', behind', hmove, hcur, hat'⟩ := At.move [] hat (by simp)
    refine ⟨s'', behind', ?_, hcur, hat'⟩
    rw [begin_of_ne_zero (g := []) h (by simp) (hg c List.mem_cons_self).ne_zero, hnext]
    exact hmove

theorem At.begin_line (h : s.At (g ++ b :: rest)) (hg : ∀ b ∈ g, IsNewline b)
    (hb : ¬ IsNewline b) (hne : b ≠ 0) {eol : ℕ}
    (heol : findNextEOL (b :: rest) = .ok (some eol)) : ∃ s',
    s.begin = .ok (s', .inl (s'.ATBufferCur + eol)) ∧ s'.At (b :: rest) := by
  obtain ⟨s', hnext, hat, -⟩ := h.nextLine hg hb heol
  refine ⟨s', ?_, hat⟩
  rw [begin_of_ne_zero h hg hne, hnext]
  rfl

theorem At.begin_part (h : s.At (g ++ b :: (text ++ 0 :: rest))) (hg : ∀ b ∈ g, IsNewline b)
    (htext : ∀ c ∈ b :: text, c ≠ 0 ∧ ¬ IsNewline c) (hprompt : b :: text ≠ prompt) :
    ∃ s' behind, s.begin = .ok (s', .inr (b :: text).length) ∧ s'.ATBufferCur = 0 ∧
      s'.At (b :: text ++ 0 :: behind) := by
  obtain ⟨hb, hb'⟩ := htext b List.mem_cons_self
  obtain ⟨s', hnext, hat, -⟩ := h.nextLine hg hb' (findNextEOL_part rest htext hprompt)
  obtain ⟨s'', behind, hmove, hcur, hat'⟩ :=
    At.move (b :: text) hat fun c hc => (htext c hc).1
  refine ⟨s'', behind, ?_, hcur, hat'⟩
  rw [begin_of_ne_zero h hg hb, hnext]
  exact hmove

end AtBuffer

namespace Waiting

variable {w : Waiting} {left bytes : List UInt8}

def next (w : Waiting) : ℕ := if MAX_AT_RESPONSE - w.p_read = 0 then 0 else w.p_read

def Ready (w : Waiting) (left : List UInt8) : Prop :=
  w.p_read = w.buffer.ATBufferCur + left.length ∧ ∃ behind, w.buffer.At (left ++ 0 :: behind)

theorem ready_init : ({} : Waiting).Ready [] :=
  ⟨rfl, .replicate MAX_AT_RESPONSE 0, by rw [List.length_replicate], rfl⟩

theorem Ready.ditch (h : w.Ready left) (hfull : MAX_AT_RESPONSE ≤ w.p_read → left = []) : ∃ w',
    w.ditch = .ok w' ∧ w'.Ready left ∧ w'.p_read = w.next ∧
      w'.buffer.ATBuffer.drop 1 = w.buffer.ATBuffer.drop 1 := by
  rw [Waiting.ditch, next]
  split
  · rename_i hzero
    obtain rfl := hfull (by omega)
    obtain ⟨-, behind, hat⟩ := h
    obtain ⟨s', behind', hclear, hcur, hat', hdrop⟩ := hat.clear
    refine ⟨⟨s', 0⟩, ?_, ⟨hcur.symm, behind', hat'⟩, rfl, hdrop⟩
    rw [hclear]
    rfl
  · exact ⟨w, rfl, h, rfl, rfl⟩

/-- **A read** puts its bytes behind what is left, and the next line is looked for. -/
theorem Ready.received (h : w.Ready left) (hfull : MAX_AT_RESPONSE ≤ w.p_read → left = [])
    (hne : bytes ≠ []) (hfits : bytes.length ≤ MAX_AT_RESPONSE - w.next) : ∃ s : AtBuffer,
    w.received bytes =
        (s.nextLine >>= fun r => return (⟨r.1, w.next + bytes.length⟩, r.2)) ∧
      s.At (left ++ (bytes ++ 0 :: w.buffer.ATBuffer.drop (w.next + bytes.length + 1))) ∧
      w.next = s.ATBufferCur + left.length := by
  obtain ⟨w', hditch, ⟨hread, behind, hat⟩, hnext, hdrop⟩ := h.ditch hfull
  have hlength := hat.cur_add (by simp)
  rw [List.length_append, List.length_cons] at hlength
  rw [← hnext] at hfits
  obtain ⟨buffer, hstore, hbuffer, hstored, -⟩ := AtBuffer.exists_store
    w'.buffer.ATBuffer w'.p_read (bytes ++ [0])
    (by rw [hat.length, List.length_append, List.length_singleton]; omega)
  refine ⟨{ w'.buffer with ATBuffer := buffer }, ?_, ⟨hbuffer.trans hat.length, ?_⟩, ?_⟩
  · rw [Waiting.received, hditch]
    simp only [bind, Except.bind]
    rw [if_neg (not_or.mpr ⟨hne, not_lt.mpr hfits⟩), hstore, hnext]
  · have hbehind : w'.buffer.ATBuffer.drop (w'.p_read + (bytes ++ [0]).length) =
        w.buffer.ATBuffer.drop (w.next + bytes.length + 1) := by
      rw [hnext, List.length_append, List.length_singleton, ← Nat.add_assoc, Nat.add_comm _ 1,
        ← List.drop_drop, hdrop, List.drop_drop]
    have hleft : w'.buffer.ATBuffer.drop w'.buffer.ATBufferCur = left ++ 0 :: behind := hat.atCur
    change buffer.drop w'.buffer.ATBufferCur = _
    rw [hstored _ (by rw [hread]; exact Nat.le_add_right _ _), hread,
      Nat.add_sub_cancel_left, ← hread, hbehind, hleft, List.take_left,
      List.append_assoc]
    rfl
  · rw [← hnext, hread]

end Waiting

end MtkHardware.Ril
