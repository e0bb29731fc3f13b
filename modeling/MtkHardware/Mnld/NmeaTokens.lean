import MtkHardware.Util.Checked

/-!
# Sentences and Their Tokens

The characters of an NMEA sentence come one by one into `in` of the reader; a complete sentence is
cut at its commas into tokens, which are places in `in`. Every access to `in` and to the array of
the tokens is checked. The value of a number with a fraction is not modelled, its text stands for
it.
-/

namespace MtkHardware.Mnld

inductive NmeaFault
  | sentence
  | tokens
  | prn
  | snr
  | sv_list
  | nmea_cash
  deriving DecidableEq, Repr

def NMEA_MAX_SIZE : ℕ := 255

def MAX_NMEA_TOKENS : ℕ := 64

/-- The sentence buffer, `in` of the reader. -/
abbrev Sentence := Vector UInt8 (NMEA_MAX_SIZE + 1)

def ascii (c : Char) : UInt8 := c.toNat.toUInt8

/-- The value of an `int` of 32 bits. -/
def int (x : ℤ) : ℤ := x.bmod (2 ^ 32)

namespace Sentence

variable (sentence : Sentence)

/-- `p[0]`. -/
def char (p : ℕ) : Except NmeaFault UInt8 := readAt .sentence sentence p

def chars : ℕ → ℕ → Except NmeaFault (List UInt8)
  | 0, _ => .ok []
  | n + 1, p => do
      let c ← sentence.char p
      let cs ← chars n (p + 1)
      return c :: cs

/-- The characters up to the next zero, of which at most some are in the buffer. -/
def string : ℕ → ℕ → Except NmeaFault (List UInt8)
  | 0, _ => .error .sentence
  | n + 1, p => do
      let c ← sentence.char p
      if c = 0 then return []
      let cs ← string n (p + 1)
      return c :: cs

/-- Does `memcmp` find the text? It may look at all of its characters. -/
def memcmp (p : ℕ) (text : List Char) : Except NmeaFault Bool := do
  let cs ← sentence.chars text.length p
  return cs = text.map ascii

/-- The digits of `str2int`; there is no number where another character is found. -/
def digits : ℕ → ℕ → ℤ → Except NmeaFault (Option ℤ)
  | 0, _, result => .ok (some result)
  | len + 1, p, result => do
      let c ← sentence.char p
      if c < ascii '0' ∨ ascii '9' < c then return none
      digits len (p + 1) (int (result * 10 + (c - ascii '0').toNat))

def str2int (p last : ℕ) : Except NmeaFault ℤ := do
  let c ← sentence.char p
  let minus : Bool := c = ascii '-'
  let p := if minus then p + 1 else p
  match ← sentence.digits (last - p) p 0 with
  | none => return -1
  | some result => return int (if minus then -result else result)

/-- The text of which `str2float` takes the value, which is zero where there is none. -/
def str2float (p last : ℕ) : Except NmeaFault (List UInt8) :=
  if 16 ≤ last - p then .ok [] else sentence.chars (last - p) p

end Sentence

/-! ### Reading within the sentence -/

section Reading

variable {sentence : Sentence} {p last n : ℕ}

theorem yields_char (h : p ≤ NMEA_MAX_SIZE) : Yields (sentence.char p) fun _ => True :=
  yields_readAt (by omega) (by omega)

theorem yields_chars (h : p + n ≤ NMEA_MAX_SIZE + 1) :
    Yields (sentence.chars n p) fun _ => True := by
  induction n generalizing p with
  | zero => exact yields_ok.mpr trivial
  | succ n ih =>
    exact (yields_char (by omega)).bind fun _ _ =>
      (ih (by omega)).bind fun _ _ => yields_pure.mpr trivial

theorem yields_string (hzero : sentence.char NMEA_MAX_SIZE = .ok 0)
    (h : p + n = NMEA_MAX_SIZE + 1) (hn : 0 < n) : Yields (sentence.string n p) fun _ => True := by
  induction n generalizing p with
  | zero => omega
  | succ n ih =>
    by_cases hp : p = NMEA_MAX_SIZE
    · rw [Sentence.string, hp, hzero]
      exact yields_ok.mpr trivial
    · refine (yields_char (by omega)).bind fun c _ => ?_
      split
      · exact yields_pure.mpr trivial
      · exact (ih (by omega) (by omega)).bind fun _ _ => yields_pure.mpr trivial

theorem yields_memcmp {text : List Char} (h : p + text.length ≤ NMEA_MAX_SIZE + 1) :
    Yields (sentence.memcmp p text) fun _ => True :=
  (yields_chars h).bind fun _ _ => yields_pure.mpr trivial

theorem yields_digits {result : ℤ} (h : p + n ≤ NMEA_MAX_SIZE + 1) :
    Yields (sentence.digits n p result) fun _ => True := by
  induction n generalizing p result with
  | zero => exact yields_ok.mpr trivial
  | succ n ih =>
    refine (yields_char (by omega)).bind fun c _ => ?_
    split
    · exact yields_pure.mpr trivial
    · exact ih (by omega)

theorem yields_str2int (h : p ≤ last) (hlast : last ≤ NMEA_MAX_SIZE) :
    Yields (sentence.str2int p last) fun _ => True := by
  refine (yields_char (by omega)).bind fun c _ => ?_
  refine (yields_digits (by split <;> omega)).bind fun result _ => ?_
  cases result <;> exact yields_pure.mpr trivial

theorem yields_str2float (h : p ≤ last) (hlast : last ≤ NMEA_MAX_SIZE) :
    Yields (sentence.str2float p last) fun _ => True := by
  rw [Sentence.str2float]
  split
  · exact yields_ok.mpr trivial
  · exact yields_chars (by omega)

end Reading

/-! ### Tokens -/

/-- A part of the sentence from `p` up to `last`, the source's `end`, or the empty text. -/
inductive Token
  | dummy
  | slice (p last : ℕ)
  deriving DecidableEq, Repr, Inhabited

namespace Token

/-- `tok.p >= tok.end` -/
def empty : Token → Bool
  | .dummy => true
  | .slice p last => last ≤ p

/-- `tok.p[0]` -/
def head (sentence : Sentence) : Token → Except NmeaFault UInt8
  | .dummy => .ok 0
  | .slice p _ => sentence.char p

def str2int (sentence : Sentence) : Token → Except NmeaFault ℤ
  | .dummy => .ok 0
  | .slice p last => sentence.str2int p last

def str2float (sentence : Sentence) : Token → Except NmeaFault (List UInt8)
  | .dummy => .ok []
  | .slice p last => sentence.str2float p last

def Within : Token → Prop
  | .dummy => True
  | .slice p last => p ≤ last ∧ last ≤ NMEA_MAX_SIZE

end Token

structure NmeaTokenizer where
  count : ℕ := 0
  tokens : Vector Token MAX_NMEA_TOKENS := .replicate _ .dummy

namespace NmeaTokenizer

def push (t : NmeaTokenizer) (token : Token) : Except NmeaFault NmeaTokenizer :=
  if t.count < MAX_NMEA_TOKENS then do
    let tokens ← writeAt .tokens t.tokens t.count token
    return { count := t.count + 1, tokens }
  else .ok t

/-- The loop of `nmea_tokenizer_init` with its `memchr`: a token ends at the next comma or at the
end of the sentence, which is `len` characters away from `q`. -/
def scan (sentence : Sentence) (p : ℕ) : ℕ → ℕ → NmeaTokenizer → Except NmeaFault NmeaTokenizer
  | 0, q, t => if p < q then t.push (.slice p q) else .ok t
  | len + 1, q, t => do
      let c ← sentence.char q
      if c = ascii ',' then
        let t ← t.push (.slice p q)
        scan sentence (q + 1) len (q + 1) t
      else scan sentence p len (q + 1) t

/-- The end of the sentence that starts at `p`, without what begins with the character `k` places in
front of it. -/
def dropEnd (sentence : Sentence) (p last k : ℕ) (c : Char) : Except NmeaFault ℕ :=
  if p + k ≤ last then do
    let last' ← sentence.char (last - k)
    return if last' = ascii c then last - k else last
  else .ok last

/-- The end of the sentence without the newline, in front of which a return may stand. -/
def dropNewline (sentence : Sentence) (p last : ℕ) : Except NmeaFault ℕ := do
  let line ← dropEnd sentence p last 1 '\n'
  if line < last then dropEnd sentence p line 1 '\r' else .ok line

/-- Where the sentence begins: the initial dollar is optional. -/
def start (sentence : Sentence) (last : ℕ) : Except NmeaFault ℕ :=
  if 0 < last then do
    let c ← sentence.char 0
    return if c = ascii '$' then 1 else 0
  else .ok 0

def nmea_tokenizer_init (sentence : Sentence) (last : ℕ) : Except NmeaFault NmeaTokenizer := do
  let p ← start sentence last
  let line ← dropNewline sentence p last
  -- the checksum
  let line ← dropEnd sentence p line 3 '*'
  scan sentence p (line - p) p {}

def nmea_tokenizer_get (t : NmeaTokenizer) (index : ℕ) : Except NmeaFault Token :=
  if t.count ≤ index then .ok .dummy else readAt .tokens t.tokens index

end NmeaTokenizer

/-! ### Tokens within the sentence -/

section Within

variable {sentence : Sentence} {token : Token}

theorem yields_head (h : token.Within) : Yields (token.head sentence) fun _ => True := by
  cases token with
  | dummy => exact yields_ok.mpr trivial
  | slice p last => exact yields_char (h.1.trans h.2)

theorem Token.Within.yields_str2int (h : token.Within) (sentence : Sentence) :
    Yields (token.str2int sentence) fun _ => True := by
  cases token with
  | dummy => exact yields_ok.mpr trivial
  | slice p last => exact Mnld.yields_str2int h.1 h.2

theorem Token.Within.yields_str2float (h : token.Within) (sentence : Sentence) :
    Yields (token.str2float sentence) fun _ => True := by
  cases token with
  | dummy => exact yields_ok.mpr trivial
  | slice p last => exact Mnld.yields_str2float h.1 h.2

end Within

namespace NmeaTokenizer

variable {sentence : Sentence} {t : NmeaTokenizer} {p last k len q : ℕ} {c : Char}

/-- The tokens lie within the sentence, and the first of them begins at one of its first two
characters. -/
structure Good (t : NmeaTokenizer) : Prop where
  count : t.count ≤ MAX_NMEA_TOKENS
  within : ∀ (i : ℕ) (hi : i < MAX_NMEA_TOKENS), t.tokens[i].Within
  first : ∀ p last, 0 < t.count → t.tokens[0]? = some (.slice p last) → p ≤ 1

theorem good_init : Good {} where
  count := by decide
  within i hi := by
    simp only [Vector.getElem_replicate]
    trivial
  first p last h := absurd h (by decide)

theorem Good.push (h : t.Good) (hp : t.count = 0 → p ≤ 1) (hq : p ≤ q) (hlast : q ≤ NMEA_MAX_SIZE) :
    Yields (t.push (.slice p q)) fun t' => t'.Good ∧ 0 < t'.count := by
  rw [NmeaTokenizer.push]
  split
  · rename_i hcount
    rw [writeAt_eq (by omega) (by omega)]
    refine yields_ok.mpr ⟨⟨hcount, fun i hi => ?_, fun p' last' _ hfirst => ?_⟩, Nat.succ_pos _⟩
    · simp only [Vector.getElem_set]
      split
      · exact ⟨hq, hlast⟩
      · exact h.within i hi
    · simp only [Vector.getElem?_set] at hfirst
      split at hfirst
      · cases hfirst
        exact hp (by omega)
      · exact h.first p' last' (by omega) hfirst
  · have hfull := h.count
    exact yields_ok.mpr ⟨h, by simp only [MAX_NMEA_TOKENS] at *; omega⟩

theorem Good.scan (h : t.Good) (hp : t.count = 0 → p ≤ 1) (hq : p ≤ q)
    (hlast : q + len ≤ NMEA_MAX_SIZE) : Yields (scan sentence p len q t) Good := by
  induction len generalizing p q t with
  | zero =>
    rw [NmeaTokenizer.scan]
    split
    · exact (h.push hp hq (by omega)).mono fun _ ht => ht.1
    · exact yields_ok.mpr h
  | succ len ih =>
    refine (yields_char (by omega)).bind fun c _ => ?_
    split
    · refine (h.push hp hq (by omega)).bind fun t' ht => ?_
      exact ih ht.1 (fun hcount => by omega) le_rfl (by omega)
    · exact ih h hp (by omega) (by omega)

theorem yields_dropEnd (h : last ≤ NMEA_MAX_SIZE) :
    Yields (dropEnd sentence p last k c) fun last' => last' ≤ last := by
  rw [dropEnd]
  split
  · refine (yields_char (by omega)).bind fun b _ => yields_pure.mpr ?_
    split <;> omega
  · exact yields_ok.mpr le_rfl

theorem yields_dropNewline (h : last ≤ NMEA_MAX_SIZE) :
    Yields (dropNewline sentence p last) fun last' => last' ≤ last := by
  refine (yields_dropEnd h).bind fun line hline => ?_
  split
  · exact (yields_dropEnd (by omega)).mono fun _ h' => h'.trans hline
  · exact yields_ok.mpr hline

theorem yields_start : Yields (start sentence last) fun p => p ≤ 1 := by
  rw [start]
  split
  · refine (yields_char (by omega)).bind fun c _ => yields_pure.mpr ?_
    split <;> omega
  · exact yields_ok.mpr (by omega)

theorem yields_nmea_tokenizer_init (h : last ≤ NMEA_MAX_SIZE) :
    Yields (nmea_tokenizer_init sentence last) Good := by
  refine yields_start.bind fun p hp => ?_
  refine (yields_dropNewline h).bind fun line hline => ?_
  refine (yields_dropEnd (by omega)).bind fun line' hline' => ?_
  exact good_init.scan (fun _ => hp) le_rfl (by simp only [NMEA_MAX_SIZE] at h ⊢; omega)

theorem Good.yields_get (h : t.Good) (index : ℕ) :
    Yields (t.nmea_tokenizer_get index) Token.Within := by
  rw [nmea_tokenizer_get]
  split
  · exact yields_ok.mpr trivial
  · have hcount := h.count
    rw [readAt_eq (by omega) (by omega)]
    exact yields_ok.mpr (h.within index (by omega))

theorem Good.first_le (h : t.Good) (hget : t.nmea_tokenizer_get 0 = .ok (.slice p last)) :
    p ≤ 1 := by
  rw [nmea_tokenizer_get] at hget
  split at hget
  · cases hget
  · rename_i hcount
    rw [readAt_eq (by omega) (by decide)] at hget
    refine h.first p last (by omega) ?_
    rw [← Except.ok.inj hget]
    exact Vector.getElem?_eq_getElem (by decide)

end NmeaTokenizer
end MtkHardware.Mnld
