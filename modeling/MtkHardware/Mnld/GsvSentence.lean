import MtkHardware.Mnld.NmeaParser
import Mathlib.Data.List.GetD

/-!
# The Text of a Sentence

A text that stands in the sentence buffer is read back by the tokenizer: the fields between the
commas are its tokens, a field of digits is read as its number, and a short one by `str2float` as it
stands. A `GSV` sentence is such a text, with a checksum or without, and with a return in front of
its newline or without.
-/

namespace MtkHardware.Mnld

theorem int_eq {x : ℤ} (h₀ : -2 ^ 31 ≤ x) (h : x < 2 ^ 31) : int x = x :=
  Int.bmod_eq_of_le (by omega) (by omega)

/-! ### Texts in the buffer -/

namespace Sentence

/-- The text stands at `p`. -/
def Shows (sentence : Sentence) : ℕ → List UInt8 → Prop
  | _, [] => True
  | p, c :: text => sentence.char p = .ok c ∧ Shows sentence (p + 1) text

variable {sentence : Sentence} {p : ℕ} {a b text ds : List UInt8} {r : ℤ}

theorem shows_append : sentence.Shows p (a ++ b) ↔
    sentence.Shows p a ∧ sentence.Shows (p + a.length) b := by
  induction a generalizing p with
  | nil => simp [Shows]
  | cons c a ih =>
    rw [List.cons_append, Shows, Shows, ih, List.length_cons, and_assoc, Nat.add_assoc,
      Nat.add_comm 1]

theorem Shows.chars (h : sentence.Shows p text) : sentence.chars text.length p = .ok text := by
  induction text generalizing p with
  | nil => rfl
  | cons c text ih =>
    rw [List.length_cons, Sentence.chars, h.1, ih h.2]
    rfl

theorem Shows.exists_char {i : ℕ} (h : sentence.Shows p text) (hi : i < text.length) :
    ∃ c ∈ text, sentence.char (p + i) = .ok c := by
  induction text generalizing p i with
  | nil => cases hi
  | cons c text ih =>
    cases i with
    | zero => exact ⟨c, List.mem_cons_self, h.1⟩
    | succ i =>
      obtain ⟨d, hd, hchar⟩ := ih h.2 (Nat.lt_of_succ_lt_succ hi)
      exact ⟨d, List.mem_cons_of_mem _ hd, by rwa [Nat.add_right_comm] at hchar⟩

theorem Shows.memcmp {chars : List Char} (h : sentence.Shows p text)
    (hlength : text.length = chars.length) :
    sentence.memcmp p chars = .ok (decide (text = chars.map ascii)) := by
  rw [Sentence.memcmp, ← hlength, h.chars]
  rfl

theorem memcmp_ne {c : UInt8} {d : Char} {chars : List Char} (hc : sentence.char p = .ok c)
    (hne : c ≠ ascii d) (hp : p + (d :: chars).length ≤ NMEA_MAX_SIZE + 1) :
    sentence.memcmp p (d :: chars) = .ok false := by
  rw [List.length_cons] at hp
  obtain ⟨cs, hcs, -⟩ : Yields (sentence.chars chars.length (p + 1)) fun _ => True :=
    yields_chars (by omega)
  simp only [Sentence.memcmp, List.length_cons, Sentence.chars, hc, hcs, bind, Except.bind, pure,
    Except.pure, List.map_cons, List.cons.injEq, hne, false_and, decide_false]

def decimal (r : ℤ) (digits : List UInt8) : ℤ :=
  digits.foldl (fun r c => r * 10 + (c - ascii '0').toNat) r

theorem le_decimal (h : 0 ≤ r) : r ≤ decimal r ds := by
  induction ds generalizing r with
  | nil => exact le_rfl
  | cons c ds ih =>
    have hstep : r ≤ r * 10 + (c - ascii '0').toNat := by omega
    exact hstep.trans (ih (by omega))

theorem Shows.digits (h : sentence.Shows p ds)
    (hdigits : ∀ c ∈ ds, ascii '0' ≤ c ∧ c ≤ ascii '9') (h₀ : 0 ≤ r)
    (hsmall : decimal r ds < 2 ^ 31) :
    sentence.digits ds.length p r = .ok (some (decimal r ds)) := by
  induction ds generalizing p r with
  | nil => rfl
  | cons c ds ih =>
    obtain ⟨hc, hrest⟩ := List.forall_mem_cons.mp hdigits
    have hle : r * 10 + (c - ascii '0').toNat ≤ decimal r (c :: ds) := le_decimal (by omega)
    have hint : int (r * 10 + (c - ascii '0').toNat) = r * 10 + (c - ascii '0').toNat :=
      int_eq (by omega) (by omega)
    have hdigit : ¬ (c < ascii '0' ∨ ascii '9' < c) := by
      rw [not_or, UInt8.not_lt, UInt8.not_lt]
      exact hc
    rw [List.length_cons, Sentence.digits, h.1]
    simp only [bind, Except.bind, if_neg hdigit, hint]
    exact ih h.2 hrest (by omega) hsmall

end Sentence

/-- A number as it is written: a minus where there is one, and digits whose value is an `int`. -/
structure Number where
  minus : Bool := false
  digits : List UInt8
  isDigit : ∀ c ∈ digits, ascii '0' ≤ c ∧ c ≤ ascii '9'
  small : Sentence.decimal 0 digits < 2 ^ 31

namespace Number

variable (n : Number)

def text : List UInt8 := if n.minus then ascii '-' :: n.digits else n.digits

def value : ℤ :=
  if n.minus then -Sentence.decimal 0 n.digits else Sentence.decimal 0 n.digits

theorem abs_value : -2 ^ 31 ≤ n.value ∧ n.value < 2 ^ 31 := by
  have hsmall := n.small
  have h₀ : 0 ≤ Sentence.decimal 0 n.digits := Sentence.le_decimal le_rfl
  rw [value]
  split <;> omega

theorem str2int_eq {sentence : Sentence} {p : ℕ} (h : sentence.Shows p n.text)
    (hp : p ≤ NMEA_MAX_SIZE) : sentence.str2int p (p + n.text.length) = .ok n.value := by
  have hvalue := n.abs_value
  obtain ⟨c, hc, -⟩ : Yields (sentence.char p) fun _ => True := yields_char hp
  rw [Sentence.str2int, hc]
  rw [value] at hvalue ⊢
  rw [text] at h ⊢
  by_cases hminus : n.minus
  · simp only [if_pos hminus] at h hvalue ⊢
    obtain rfl : c = ascii '-' := Except.ok.inj (hc.symm.trans h.1)
    have hlength : p + (ascii '-' :: n.digits).length - (p + 1) = n.digits.length := by
      rw [List.length_cons]
      omega
    simp only [bind, Except.bind, decide_true, if_true, hlength,
      h.2.digits n.isDigit le_rfl n.small, int_eq hvalue.1 hvalue.2]
    rfl
  · simp only [if_neg hminus] at h hvalue ⊢
    by_cases hc' : c = ascii '-'
    · -- only an empty text can be followed by a minus
      have hempty : n.digits = [] := by
        cases hdigits : n.digits with
        | nil => rfl
        | cons d digits =>
          rw [hdigits] at h
          obtain rfl : c = d := Except.ok.inj (hc.symm.trans h.1)
          have hd := n.isDigit c (by rw [hdigits]; exact List.mem_cons_self)
          rw [hc'] at hd
          exact absurd hd (by decide)
      rw [hempty]
      simp only [bind, Except.bind, hc', decide_true, if_true, List.length_nil, Nat.add_zero,
        Nat.sub_eq_zero_of_le (Nat.le_succ p)]
      rfl
    · simp only [bind, Except.bind, hc', decide_false, Bool.false_eq_true, if_false,
        Nat.add_sub_cancel_left, h.digits n.isDigit le_rfl n.small, int_eq hvalue.1 hvalue.2]
      rfl

theorem comma_lt_of_mem_text {c : UInt8} (h : c ∈ n.text) : ascii ',' < c := by
  have hdigit : c ∈ n.digits → ascii ',' < c := fun hc =>
    UInt8.lt_of_lt_of_le (by decide) (n.isDigit c hc).1
  rw [text] at h
  split at h
  · rcases List.mem_cons.mp h with rfl | h
    · decide
    · exact hdigit h
  · exact hdigit h

end Number

/-! ### Tokens of a text -/

def Token.Shows (sentence : Sentence) (text : List UInt8) : Token → Prop
  | .dummy => text = []
  | .slice p last =>
    last = p + text.length ∧ last ≤ NMEA_MAX_SIZE ∧ sentence.Shows p text

namespace Token.Shows

variable {sentence : Sentence} {text : List UInt8} {tok : Token}

theorem str2int_eq {n : Number} (h : tok.Shows sentence n.text) :
    tok.str2int sentence = .ok n.value := by
  cases tok with
  | dummy =>
    have hminus : n.minus = false := by
      by_contra hminus
      rw [Bool.not_eq_false] at hminus
      rw [Token.Shows, Number.text, if_pos hminus] at h
      cases h
    rw [Token.Shows, Number.text, hminus] at h
    rw [Number.value, hminus, show n.digits = [] from h]
    rfl
  | slice p last =>
    obtain ⟨rfl, hlast, h⟩ := h
    exact n.str2int_eq h (by omega)

theorem str2float_eq (h : tok.Shows sentence text) (hshort : text.length < 16) :
    tok.str2float sentence = .ok text := by
  cases tok with
  | dummy =>
    rw [show text = [] from h]
    rfl
  | slice p last =>
    obtain ⟨rfl, hlast, h⟩ := h
    rw [Token.str2float, Sentence.str2float, Nat.add_sub_cancel_left, if_neg (by omega), h.chars]

end Token.Shows

namespace NmeaTokenizer

/-- The tokens are these fields; behind them they are empty. -/
structure Cut (sentence : Sentence) (fields : List (List UInt8)) (t : NmeaTokenizer) : Prop where
  count : t.count ≤ MAX_NMEA_TOKENS
  get : ∀ i, ∃ tok, t.nmea_tokenizer_get i = .ok tok ∧ tok.Shows sentence (fields.getD i [])

variable {sentence : Sentence} {fields rest : List (List UInt8)} {t : NmeaTokenizer}
  {field : List UInt8} {p q k last : ℕ}

theorem cut_init : Cut sentence [] {} where
  count := by decide
  get _ := ⟨.dummy, rfl, rfl⟩

theorem Cut.snoc_nil (h : Cut sentence fields t) : Cut sentence (fields ++ [[]]) t where
  count := h.count
  get i := by
    obtain ⟨tok, htok, hshows⟩ := h.get i
    refine ⟨tok, htok, ?_⟩
    by_cases hi : i < fields.length
    · rwa [List.getD_append _ _ _ _ hi]
    · rw [List.getD_eq_default _ _ (by omega)] at hshows
      rw [List.getD_append_right _ _ _ _ (by omega)]
      cases i - fields.length <;> exact hshows

theorem Cut.push (h : Cut sentence fields t) (hcount : t.count = fields.length)
    (hroom : fields.length < MAX_NMEA_TOKENS)
    (hfield : (Token.slice p q).Shows sentence field) :
    Yields (t.push (.slice p q)) fun t' =>
      Cut sentence (fields ++ [field]) t' ∧ t'.count = (fields ++ [field]).length := by
  rw [NmeaTokenizer.push, if_pos (by omega), writeAt_natCast (by omega)]
  refine yields_ok.mpr ⟨⟨by simp only; omega, fun i => ?_⟩, by simp [hcount]⟩
  obtain ⟨tok, htok, hshows⟩ := h.get i
  rw [nmea_tokenizer_get] at htok ⊢
  rcases Nat.lt_trichotomy i fields.length with hi | rfl | hi
  · rw [if_neg (by omega), readAt_eq (by omega) (by omega)] at htok
    rw [if_neg (by simp only; omega), readAt_eq (by omega) (by omega)]
    refine ⟨tok, ?_, by rwa [List.getD_append _ _ _ _ hi]⟩
    rw [← htok]
    simp only [Vector.getElem_set, Int.toNat_natCast]
    rw [if_neg (by omega)]
  · rw [if_neg (by simp only; omega), readAt_eq (by omega) (by omega)]
    refine ⟨.slice p q, ?_, by simpa using hfield⟩
    simp [hcount]
  · rw [if_pos (by simp only; omega)]
    refine ⟨.dummy, rfl, ?_⟩
    rw [List.getD_eq_default _ _ (by simp; omega)]
    rfl

theorem scan_skip (h : sentence.Shows q field) (hcomma : ∀ c ∈ field, c ≠ ascii ',') :
    scan sentence p (field.length + k) q t = scan sentence p k (q + field.length) t := by
  induction field generalizing q with
  | nil => rw [List.length_nil, Nat.zero_add, Nat.add_zero]
  | cons c field ih =>
    obtain ⟨hc, hrest⟩ := List.forall_mem_cons.mp hcomma
    rw [List.length_cons, Nat.add_right_comm, scan, h.1]
    simp only [bind, Except.bind, if_neg hc]
    rw [ih h.2 hrest, Nat.add_right_comm, Nat.add_assoc]

/-- Fields behind one another, with a comma in front of each. -/
def commaed (fields : List (List UInt8)) : List UInt8 := fields.flatMap (ascii ',' :: ·)

theorem commaed_cons : commaed (field :: rest) = ascii ',' :: (field ++ commaed rest) := rfl

/-- **The tokens of a text are its fields.** -/
theorem scan_fields (hshows : sentence.Shows p (field ++ commaed rest))
    (hlast : p + (field ++ commaed rest).length ≤ NMEA_MAX_SIZE)
    (hcomma : ∀ f ∈ field :: rest, ∀ c ∈ f, c ≠ ascii ',') (h : Cut sentence fields t)
    (hcount : t.count = fields.length)
    (hroom : fields.length + (field :: rest).length ≤ MAX_NMEA_TOKENS) :
    Yields (scan sentence p (field ++ commaed rest).length p t)
      (Cut sentence (fields ++ field :: rest)) := by
  induction rest generalizing field fields p t with
  | nil =>
    have hfield := hcomma field List.mem_cons_self
    simp only [commaed, List.flatMap_nil, List.append_nil] at hshows hlast ⊢
    have hskip := scan_skip (p := p) (k := 0) (t := t) hshows hfield
    rw [Nat.add_zero] at hskip
    rw [hskip, scan]
    split
    · rw [List.length_singleton] at hroom
      exact (h.push hcount (by omega) ⟨rfl, hlast, hshows⟩).mono fun _ ht => ht.1
    · rename_i hempty
      have hnil : field = [] := List.length_eq_zero_iff.mp (by omega)
      exact yields_ok.mpr (hnil ▸ h.snoc_nil)
  | cons next rest ih =>
    obtain ⟨hfield, hrest⟩ := List.forall_mem_cons.mp hcomma
    rw [commaed_cons] at hshows hlast ⊢
    obtain ⟨hshows₁, hshows₂⟩ := Sentence.shows_append.mp hshows
    rw [List.length_append, List.length_cons] at hlast ⊢
    rw [scan_skip hshows₁ hfield, scan, hshows₂.1]
    simp only [bind, Except.bind, if_true]
    rw [List.length_cons] at hroom
    obtain ⟨t', ht', hcut, hcount'⟩ :=
      h.push (q := p + field.length) hcount (by omega) ⟨rfl, by omega, hshows₁⟩
    rw [ht']
    have := ih (p := p + field.length + 1) hshows₂.2 (by omega) hrest hcut hcount'
      (by rw [List.length_append, List.length_singleton]; omega)
    rwa [List.append_assoc, List.singleton_append] at this

theorem dropEnd_eq {c : Char} {b : UInt8} (hk : p + k ≤ last)
    (hb : sentence.char (last - k) = .ok b) :
    dropEnd sentence p last k c = .ok (if b = ascii c then last - k else last) := by
  rw [dropEnd, if_pos hk, hb]
  rfl

end NmeaTokenizer

/-! ### `GSV` sentences -/

inductive GnssSystem
  | GPS
  | GLONASS
  | BDS
  | GALILEO
  deriving DecidableEq, Repr

namespace GnssSystem

def talker : GnssSystem → List UInt8
  | GPS => [ascii 'G', ascii 'P']
  | GLONASS => [ascii 'G', ascii 'L']
  | BDS => [ascii 'B', ascii 'D']
  | GALILEO => [ascii 'G', ascii 'A']

def svType : GnssSystem → SvType
  | GPS => .GPS_SV
  | GLONASS => .GLONASS_SV
  | BDS => .BDS_SV
  | GALILEO => .GALILEO_SV

end GnssSystem

structure Snr where
  text : List UInt8
  isDecimal : ∀ c ∈ text, (ascii '0' ≤ c ∧ c ≤ ascii '9') ∨ c = ascii '.'
  short : text.length < 16

structure Satellite where
  id : Number
  elevation : Number
  azimuth : Number
  snr : Snr

def Satellite.fields (sat : Satellite) : List (List UInt8) :=
  [sat.id.text, sat.elevation.text, sat.azimuth.text, sat.snr.text]

def hexDigit (n : Fin 16) : UInt8 :=
  if n < 10 then ascii '0' + n.toNat.toUInt8 else ascii 'A' + (n.toNat - 10).toUInt8

structure GsvSentence where
  system : GnssSystem
  num : Number
  seq : Number
  cnt : Number
  sats : List Satellite
  checksum : Option (Fin 16 × Fin 16)
  /-- Does a return stand in front of the newline? -/
  carriage : Bool

namespace GsvSentence

variable (g : GsvSentence)

def address : List UInt8 := g.system.talker ++ [ascii 'G', ascii 'S', ascii 'V']

def fields : List (List UInt8) :=
  [g.num.text, g.seq.text, g.cnt.text] ++ g.sats.flatMap Satellite.fields

def body : List UInt8 := g.address ++ NmeaTokenizer.commaed g.fields

def checksumText : List UInt8 :=
  match g.checksum with
  | none => []
  | some (high, low) => [ascii '*', hexDigit high, hexDigit low]

def carriageText : List UInt8 := if g.carriage then [ascii '\r'] else []

def line : List UInt8 := ascii '$' :: (g.body ++ (g.checksumText ++ g.carriageText))

def text : List UInt8 := g.line ++ [ascii '\n']

variable {g} {c : UInt8} {sentence : Sentence}

theorem comma_lt_of_mem_field {f : List UInt8} (hf : f ∈ g.address :: g.fields) (hc : c ∈ f) :
    ascii ',' < c := by
  rcases List.mem_cons.mp hf with rfl | hf
  · cases hsystem : g.system <;> simp only [address, hsystem, GnssSystem.talker] at hc <;>
      revert c <;> decide
  · rcases List.mem_append.mp hf with hf | hf
    · simp only [List.mem_cons, List.not_mem_nil, or_false] at hf
      rcases hf with rfl | rfl | rfl <;> exact Number.comma_lt_of_mem_text _ hc
    · obtain ⟨sat, -, hf⟩ := List.mem_flatMap.mp hf
      simp only [Satellite.fields, List.mem_cons, List.not_mem_nil, or_false] at hf
      rcases hf with rfl | rfl | rfl | rfl
      · exact Number.comma_lt_of_mem_text _ hc
      · exact Number.comma_lt_of_mem_text _ hc
      · exact Number.comma_lt_of_mem_text _ hc
      · rcases sat.snr.isDecimal c hc with ⟨h, -⟩ | rfl
        · exact UInt8.lt_of_lt_of_le (by decide) h
        · decide

theorem comma_le_of_mem_body (h : c ∈ g.body) : ascii ',' ≤ c := by
  rcases List.mem_append.mp h with hc | hc
  · exact UInt8.le_of_lt (comma_lt_of_mem_field List.mem_cons_self hc)
  · obtain ⟨f, hf, hc⟩ := List.mem_flatMap.mp hc
    rcases List.mem_cons.mp hc with rfl | hc
    · exact UInt8.le_refl _
    · exact UInt8.le_of_lt (comma_lt_of_mem_field (List.mem_cons_of_mem _ hf) hc)

theorem star_le_of_mem_checksum (h : c ∈ g.checksumText) : ascii '*' ≤ c := by
  have hhex : ∀ n, ascii '*' ≤ hexDigit n := by decide
  rw [checksumText] at h
  split at h
  · cases h
  · simp only [List.mem_cons, List.not_mem_nil, or_false] at h
    rcases h with rfl | rfl | rfl
    · exact UInt8.le_refl _
    · exact hhex _
    · exact hhex _

theorem ne_newline_of_mem_line (h : c ∈ g.line) : c ≠ ascii '\n' := by
  have hstar : ascii '*' ≤ c → c ≠ ascii '\n' := by
    rintro hle rfl
    exact absurd hle (by decide)
  rcases List.mem_cons.mp h with rfl | h
  · decide
  · rcases List.mem_append.mp h with h | h
    · exact hstar (UInt8.le_trans (by decide) (comma_le_of_mem_body h))
    · rcases List.mem_append.mp h with h | h
      · exact hstar (star_le_of_mem_checksum h)
      · rw [carriageText] at h
        split at h
        · rw [List.mem_singleton] at h
          subst h
          decide
        · cases h

theorem length_address : g.address.length = 5 := by
  cases hsystem : g.system <;> simp [address, hsystem, GnssSystem.talker]

theorem length_text : g.text.length =
    1 + g.body.length + g.checksumText.length + g.carriageText.length + 1 := by
  simp only [text, line, List.length_append, List.length_cons, List.length_nil]
  omega

theorem le_length_body : 8 ≤ g.body.length := by
  simp only [body, List.length_append, length_address, fields, NmeaTokenizer.commaed,
    List.flatMap_append, List.flatMap_cons, List.flatMap_nil, List.length_cons, List.length_nil]
  omega

theorem shows_text : sentence.Shows 0 g.text ↔
    sentence.char 0 = .ok (ascii '$') ∧ sentence.Shows 1 g.body ∧
      sentence.Shows (1 + g.body.length) g.checksumText ∧
      sentence.Shows (1 + g.body.length + g.checksumText.length) g.carriageText ∧
      sentence.char (g.text.length - 1) = .ok (ascii '\n') := by
  have hlast : 1 + (g.body ++ (g.checksumText ++ g.carriageText)).length = g.text.length - 1 := by
    rw [length_text, List.length_append, List.length_append]
    omega
  rw [text, line, List.cons_append, Sentence.Shows, Sentence.shows_append, Nat.zero_add, hlast,
    Sentence.shows_append, Sentence.shows_append, and_assoc, and_assoc]
  simp only [Sentence.Shows, and_true]
  rfl

theorem dropNewline_eq (h : sentence.Shows 0 g.text) :
    NmeaTokenizer.dropNewline sentence 1 g.text.length =
      .ok (1 + g.body.length + g.checksumText.length) := by
  obtain ⟨-, hbody, hchecksum, hcarriage, hnewline⟩ := shows_text.mp h
  have hlength := g.length_text
  have hle := g.le_length_body
  rw [NmeaTokenizer.dropNewline, NmeaTokenizer.dropEnd_eq (by omega) hnewline]
  simp only [bind, Except.bind, if_true]
  rw [if_pos (by omega)]
  rw [carriageText] at hcarriage hlength
  by_cases hc : g.carriage
  · rw [if_pos hc] at hcarriage hlength
    rw [List.length_singleton] at hlength
    have hlast : g.text.length - 1 - 1 = 1 + g.body.length + g.checksumText.length := by omega
    rw [NmeaTokenizer.dropEnd_eq (by omega) (hlast ▸ hcarriage.1), if_pos rfl, hlast]
  · rw [if_neg hc, List.length_nil] at hlength
    have hlast : g.text.length - 1 - 1 =
        1 + (g.body.length + g.checksumText.length - 1) := by omega
    obtain ⟨c, hmem, hchar⟩ := (Sentence.shows_append.mpr ⟨hbody, hchecksum⟩).exists_char
      (i := g.body.length + g.checksumText.length - 1) (by rw [List.length_append]; omega)
    have hstar : ascii '*' ≤ c := by
      rcases List.mem_append.mp hmem with h | h
      · exact UInt8.le_trans (by decide) (comma_le_of_mem_body h)
      · exact star_le_of_mem_checksum h
    have hne : c ≠ ascii '\r' := by
      rintro rfl
      exact absurd hstar (by decide)
    rw [NmeaTokenizer.dropEnd_eq (by omega) (hlast ▸ hchar), if_neg hne]
    exact congrArg Except.ok (by omega)

theorem dropChecksum_eq (h : sentence.Shows 0 g.text) :
    NmeaTokenizer.dropEnd sentence 1 (1 + g.body.length + g.checksumText.length) 3 '*' =
      .ok (1 + g.body.length) := by
  obtain ⟨-, hbody, hchecksum, -⟩ := shows_text.mp h
  have hle := g.le_length_body
  rw [checksumText] at hchecksum ⊢
  cases hc : g.checksum with
  | none =>
    obtain ⟨c, hmem, hchar⟩ := hbody.exists_char (i := g.body.length - 3) (by omega)
    have hne : c ≠ ascii '*' := by
      rintro rfl
      exact absurd (comma_le_of_mem_body hmem) (by decide)
    have hlast : 1 + g.body.length + 0 - 3 = 1 + (g.body.length - 3) := by omega
    rw [List.length_nil, NmeaTokenizer.dropEnd_eq (by omega) (hlast ▸ hchar), if_neg hne]
    rfl
  | some digits =>
    rw [hc] at hchecksum
    have hlast : 1 + g.body.length + 3 - 3 = 1 + g.body.length := by omega
    simp only [List.length_cons, List.length_nil]
    rw [NmeaTokenizer.dropEnd_eq (by omega) (hlast ▸ hchecksum.1), if_pos rfl, hlast]

theorem tokenizer_init (h : sentence.Shows 0 g.text) (hlength : g.text.length ≤ NMEA_MAX_SIZE)
    (hsats : g.sats.length ≤ 4) :
    Yields (NmeaTokenizer.nmea_tokenizer_init sentence g.text.length)
      (NmeaTokenizer.Cut sentence (g.address :: g.fields)) := by
  obtain ⟨hdollar, hbody, -⟩ := shows_text.mp h
  have hstart : NmeaTokenizer.start sentence g.text.length = .ok 1 := by
    rw [NmeaTokenizer.start, if_pos (by rw [length_text]; omega), hdollar]
    rfl
  have hlast : 1 + g.body.length ≤ NMEA_MAX_SIZE := by
    have := g.length_text
    omega
  have hroom : (g.address :: g.fields).length ≤ MAX_NMEA_TOKENS := by
    have hfields : g.fields.length = 3 + 4 * g.sats.length := by
      simp only [fields, List.length_append, List.length_flatMap, Satellite.fields]
      simp [Nat.mul_comm]
    rw [List.length_cons, hfields, MAX_NMEA_TOKENS]
    omega
  have hcomma : ∀ f ∈ g.address :: g.fields, ∀ c ∈ f, c ≠ ascii ',' := by
    rintro f hf c hc rfl
    exact UInt8.lt_irrefl _ (comma_lt_of_mem_field hf hc)
  rw [NmeaTokenizer.nmea_tokenizer_init, hstart]
  simp only [bind, Except.bind, dropNewline_eq h, dropChecksum_eq h, Nat.add_sub_cancel_left]
  have hscan := NmeaTokenizer.scan_fields hbody hlast hcomma NmeaTokenizer.cut_init rfl
    (by simpa using hroom)
  rwa [List.nil_append] at hscan

theorem get_address {tzer : NmeaTokenizer} (h : sentence.Shows 0 g.text)
    (hcut : tzer.Cut sentence (g.address :: g.fields)) (hgood : tzer.Good) :
    tzer.nmea_tokenizer_get 0 = .ok (.slice 1 6) := by
  obtain ⟨tok, htok, hshows⟩ := hcut.get 0
  rw [List.getD_cons_zero] at hshows
  cases tok with
  | dummy =>
    have := g.length_address
    rw [show g.address = [] from hshows] at this
    cases this
  | slice p last =>
    have hp := hgood.first_le htok
    obtain ⟨rfl, -, hshows⟩ := hshows
    have hne : p ≠ 0 := by
      rintro rfl
      obtain ⟨hdollar, -⟩ := shows_text.mp h
      obtain ⟨c, hmem, hchar⟩ := hshows.exists_char (i := 0) (by rw [length_address]; omega)
      obtain rfl := Except.ok.inj (hdollar.symm.trans hchar)
      exact absurd (comma_lt_of_mem_field List.mem_cons_self hmem) (by decide)
    rw [htok, length_address, show p = 1 by omega]

variable {s : NmeaParser}

theorem svType_eq (h : s.sentence.Shows 0 g.text) : s.svType 1 = .ok g.system.svType := by
  obtain ⟨-, hbody, -⟩ := shows_text.mp h
  rw [body, address, List.append_assoc, Sentence.shows_append] at hbody
  have htalker : ∀ c d, s.sentence.memcmp 1 [c, d] =
      .ok (decide (g.system.talker = [ascii c, ascii d])) := fun c d =>
    hbody.1.memcmp (by cases g.system <;> rfl)
  simp only [NmeaParser.svType, NmeaParser.findText, Nat.add_zero, htalker, bind, Except.bind]
  cases g.system <;> rfl

theorem sentenceId_eq (h : s.sentence.Shows 0 g.text) : s.sentenceId 3 = .ok .GSV := by
  obtain ⟨-, hbody, -⟩ := shows_text.mp h
  have htalker : g.system.talker.length = 2 := by cases g.system <;> rfl
  rw [body, address, List.append_assoc, Sentence.shows_append, htalker,
    Sentence.shows_append] at hbody
  have hid : ∀ c d e, s.sentence.memcmp 3 [c, d, e] =
      .ok (decide ([ascii 'G', ascii 'S', ascii 'V'] = [ascii c, ascii d, ascii e])) :=
    fun c d e => hbody.2.1.memcmp rfl
  -- behind the name there is a comma
  have hcomma : s.sentence.char 6 = .ok (ascii ',') := hbody.2.2.1
  have hbehind : ∀ c d e, ascii ',' ≠ ascii c → s.sentence.memcmp 6 [c, d, e] = .ok false :=
    fun c d e hne => Sentence.memcmp_ne hcomma hne (by simp [NMEA_MAX_SIZE])
  simp only [NmeaParser.sentenceId, NmeaParser.findText, Nat.add_zero, hid, bind, Except.bind,
    hbehind 'E' 'P' 'H' (by decide), hbehind 'A' 'L' 'M' (by decide)]
  rfl

theorem header_eq (h : s.sentence.Shows 0 g.text) (hpos : s.pos = g.text.length)
    (hlength : g.text.length ≤ NMEA_MAX_SIZE) (hsats : g.sats.length ≤ 4) :
    ∃ tzer, s.header = .ok (some (tzer, g.system.svType, .GSV)) ∧
      tzer.Cut s.sentence (g.address :: g.fields) := by
  obtain ⟨tzer, hinit, hcut⟩ := tokenizer_init h hlength hsats
  have hgood : tzer.Good := (NmeaTokenizer.yields_nmea_tokenizer_init hlength).of_ok hinit
  have hlong : ¬ s.pos < 9 := by
    have := g.le_length_body
    rw [hpos, length_text]
    omega
  refine ⟨tzer, ?_, hcut⟩
  rw [NmeaParser.header, if_neg hlong, hpos, hinit]
  simp only [bind, Except.bind, get_address h hcut hgood, svType_eq h, sentenceId_eq h]
  rfl

end GsvSentence

end MtkHardware.Mnld
