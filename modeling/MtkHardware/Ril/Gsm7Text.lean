import MtkHardware.Ril.Gsm7Packing
import MtkHardware.Util.Lists

/-!
# Texts of the GSM Alphabet

A text is a list of symbols, each a code of the default alphabet or a code of the extension alphabet
behind an escape. The decoder of septets that are bytes ends the escape with the code behind it. The
decoder of packed septets does not, and the one of eight-bit data only with a second escape, so that
what is behind a symbol of the extension alphabet is looked up in the wrong table.
-/

namespace MtkHardware.Ril

/-- The elements that meet the predicate have nothing behind them. -/
def OnlyLast {α : Type*} (p : α → Prop) : List α → Prop
  | [] => True
  | a :: as => (p a → as = []) ∧ OnlyLast p as

/-- A **symbol** of the two alphabets. -/
structure Symbol where
  extended : Bool
  code : ℕ
  lt : code < 128
  valid : if extended then entry gsm7bits_extend_to_unicode code ≠ 0 else code ≠ GSM_7BITS_ESCAPE

namespace Symbol

variable (s : Symbol)

def septets : List ℕ := if s.extended then [GSM_7BITS_ESCAPE, s.code] else [s.code]

def unicode : ℕ :=
  if s.extended then entry gsm7bits_extend_to_unicode s.code else entry gsm7bits_to_unicode s.code

def text (symbols : List Symbol) : List UInt8 := symbols.flatMap fun s => utf8_write s.unicode

def codes (symbols : List Symbol) : List ℕ := symbols.flatMap septets

end Symbol

theorem entry_ne : ∀ c < 128, c ≠ GSM_7BITS_ESCAPE →
    entry gsm7bits_extend_to_unicode c ≠ entry gsm7bits_to_unicode c := by decide +kernel

theorem entry_lt (c : ℕ) : entry gsm7bits_to_unicode c < 0x10000 ∧
    entry gsm7bits_extend_to_unicode c < 0x10000 := by
  have hall : ∀ v ∈ gsm7bits_to_unicode ++ gsm7bits_extend_to_unicode, v < 0x10000 := by
    decide +kernel
  have hentry : ∀ table : List ℕ, (∀ v ∈ table, v < 0x10000) → entry table c < 0x10000 := by
    intro table htable
    by_cases hc : c < table.length
    · rw [entry, List.getD_eq_getElem _ _ hc]
      exact htable _ (List.getElem_mem hc)
    · rw [entry, List.getD_eq_default _ _ (by omega)]
      decide
  exact ⟨hentry _ fun v hv => hall v (List.mem_append_left _ hv),
    hentry _ fun v hv => hall v (List.mem_append_right _ hv)⟩

namespace Symbol

variable {symbols : List Symbol} {s : Symbol}

theorem codes_plain (h : s.extended = false) (symbols : List Symbol) :
    codes (s :: symbols) = s.code :: codes symbols := by
  rw [codes, List.flatMap_cons, septets, h]
  rfl

theorem codes_extended (h : s.extended = true) (symbols : List Symbol) :
    codes (s :: symbols) = GSM_7BITS_ESCAPE :: s.code :: codes symbols := by
  rw [codes, List.flatMap_cons, septets, h]
  rfl

theorem text_plain (h : s.extended = false) (symbols : List Symbol) :
    text (s :: symbols) = utf8_write (entry gsm7bits_to_unicode s.code) ++ text symbols := by
  rw [text, List.flatMap_cons, unicode, h]
  rfl

theorem text_extended (h : s.extended = true) (symbols : List Symbol) :
    text (s :: symbols) =
      utf8_write (entry gsm7bits_extend_to_unicode s.code) ++ text symbols := by
  rw [text, List.flatMap_cons, unicode, h]
  rfl

theorem length_le_codes (symbols : List Symbol) : symbols.length ≤ (codes symbols).length := by
  induction symbols with
  | nil => exact le_rfl
  | cons s symbols ih =>
    cases h : s.extended with
    | false =>
      rw [codes_plain h]
      exact Nat.succ_le_succ ih
    | true =>
      rw [codes_extended h]
      exact Nat.succ_le_succ (Nat.le_succ_of_le ih)

theorem unicode_lt (s : Symbol) : s.unicode < 0x10000 := by
  rw [unicode]
  split
  · exact (entry_lt _).2
  · exact (entry_lt _).1

theorem code_ne_escape (s : Symbol) : s.code ≠ GSM_7BITS_ESCAPE := by
  intro heq
  have hvalid := s.valid
  rw [heq] at hvalid
  split at hvalid
  · exact hvalid (by decide)
  · exact hvalid rfl

theorem starts_text (symbols : List Symbol) : Starts (text symbols) := by
  cases symbols with
  | nil => exact fun b hb => nomatch hb
  | cons s symbols => exact starts_write s.unicode_lt _

theorem starts_packedText (escaped : Bool) (cs : List ℕ) : Starts (packedText escaped cs) := by
  induction cs generalizing escaped with
  | nil => exact fun b hb => nomatch hb
  | cons c cs ih =>
    rw [packedText]
    split
    · exact starts_write (entry_lt c).2 _
    split
    · exact ih true
    · exact starts_write (entry_lt c).1 _

theorem packedText_escaped_ne (s : Symbol) (symbols : List Symbol) :
    packedText true (codes (s :: symbols)) ≠ text (s :: symbols) := by
  have hvalid := s.valid
  intro heq
  cases h : s.extended with
  | false =>
    rw [codes_plain h, text_plain h] at heq
    exact entry_ne s.code s.lt s.code_ne_escape
      (utf8_write_inj (entry_lt _).2 (entry_lt _).1 (starts_packedText _ _)
        (starts_text symbols) heq).1
  | true =>
    rw [codes_extended h, text_extended h] at heq
    rw [if_pos h] at hvalid
    exact hvalid (utf8_write_inj (entry_lt _).2 (entry_lt _).2 (starts_packedText _ _)
      (starts_text symbols) heq).1.symm

/-- **Packed symbols** are decoded to their text exactly when one of the extension alphabet is the
last. -/
theorem packedText_iff (symbols : List Symbol) :
    packedText false (codes symbols) = text symbols ↔
      OnlyLast (fun s : Symbol => s.extended = true) symbols := by
  induction symbols with
  | nil => exact iff_of_true rfl trivial
  | cons s symbols ih =>
    rw [OnlyLast, ← ih]
    cases h : s.extended with
    | false =>
      rw [codes_plain h, text_plain h, packedText, if_neg Bool.false_ne_true,
        if_neg s.code_ne_escape, List.append_cancel_left_eq]
      simp only [Bool.false_eq_true, false_implies, true_and]
    | true =>
      rw [codes_extended h, text_extended h, packedText, if_neg Bool.false_ne_true, if_pos rfl,
        packedText, if_pos rfl, List.append_cancel_left_eq]
      cases symbols with
      | nil => exact iff_of_true rfl ⟨fun _ => rfl, rfl⟩
      | cons s' symbols =>
        exact iff_of_false (packedText_escaped_ne s' symbols) fun h =>
          List.cons_ne_nil _ _ (h.1 rfl)

def unpacked (cs : List ℕ) : List UInt8 := cs.map Nat.toUInt8

theorem toNat_toUInt8 {c : ℕ} (hc : c < 128) :
    c.toUInt8.toNat = c ∧ (c.toUInt8 &&& 0x7F).toNat = c := by
  have hbyte : c.toUInt8.toNat = c := Nat.mod_eq_of_lt (by omega)
  have hlow : (c.toUInt8 &&& 0x7F).toNat = c.toUInt8.toNat &&& 127 := UInt8.toNat_and _ _
  refine ⟨hbyte, ?_⟩
  rw [hlow, hbyte]
  exact (Nat.and_two_pow_sub_one_eq_mod c 7).trans (Nat.mod_eq_of_lt hc)

theorem fromUnpackedGsm7_codes (symbols : List Symbol) (more : List UInt8) :
    fromUnpackedGsm7 (codes symbols).length (unpacked (codes symbols) ++ more) false =
      .ok (text symbols) := by
  induction symbols with
  | nil => rfl
  | cons s symbols ih =>
    have hcode := (toNat_toUInt8 s.lt).2
    cases h : s.extended with
    | false =>
      rw [codes_plain h, text_plain h, unpacked, List.map_cons, List.cons_append,
        List.length_cons, fromUnpackedGsm7, hcode, if_neg Bool.false_ne_true,
        if_neg s.code_ne_escape, ← unpacked, ih]
      rfl
    | true =>
      have hescape := (toNat_toUInt8 (show GSM_7BITS_ESCAPE < 128 by decide)).2
      rw [codes_extended h, text_extended h, unpacked, List.map_cons, List.map_cons,
        List.cons_append, List.cons_append, List.length_cons, List.length_cons,
        fromUnpackedGsm7, hescape, if_neg Bool.false_ne_true, if_pos rfl, fromUnpackedGsm7,
        hcode, if_pos rfl, ← unpacked, ih]
      rfl

theorem fromGsm8_codes (h : OnlyLast (fun s : Symbol => s.extended = true) symbols)
    (more : List UInt8) :
    fromGsm8 (codes symbols).length (unpacked (codes symbols) ++ more) false =
      .ok (text symbols) := by
  induction symbols with
  | nil => rfl
  | cons s symbols ih =>
    obtain ⟨hlast, h⟩ := h
    have hcode := (toNat_toUInt8 s.lt).1
    have hlt := s.lt
    cases hextended : s.extended with
    | false =>
      rw [codes_plain hextended, text_plain hextended, unpacked, List.map_cons,
        List.cons_append, List.length_cons, fromGsm8, hcode, if_neg (by omega),
        if_neg s.code_ne_escape, if_neg (by omega), if_neg Bool.false_ne_true, ← unpacked, ih h]
      rfl
    | true =>
      obtain rfl := hlast hextended
      have hescape := (toNat_toUInt8 (show GSM_7BITS_ESCAPE < 128 by decide)).1
      rw [codes_extended hextended, text_extended hextended, unpacked, List.map_cons,
        List.map_cons, List.cons_append, List.cons_append, List.length_cons, List.length_cons,
        fromGsm8, hescape, if_neg (by decide), if_pos rfl, if_neg Bool.false_ne_true,
        fromGsm8, hcode, if_neg (by omega), if_neg s.code_ne_escape, if_neg (by omega),
        if_pos rfl]
      rfl

end Symbol

/-! ### Septets -/

/-- Each escape is followed by a code of the extension alphabet. -/
def EscapesDefined (cs : List ℕ) : Prop :=
  ∀ before behind, cs = before ++ GSM_7BITS_ESCAPE :: behind →
    ∃ c more, behind = c :: more ∧ entry gsm7bits_extend_to_unicode c ≠ 0

/-- There is nothing behind the code that an escape is for. -/
def EscapeLast (cs : List ℕ) : Prop :=
  ∀ before behind, cs = before ++ GSM_7BITS_ESCAPE :: behind → behind.length ≤ 1

variable {symbols : List Symbol} {c : ℕ}

theorem EscapesDefined.of_append (before : List ℕ) (h : EscapesDefined (before ++ cs)) :
    EscapesDefined cs := fun more behind hcs =>
  h (before ++ more) behind (by rw [hcs, List.append_assoc])

theorem EscapesDefined.exists_codes (h : EscapesDefined cs) (hcs : ∀ c ∈ cs, c < 128) :
    ∃ symbols, cs = Symbol.codes symbols := by
  induction hn : cs.length using Nat.strong_induction_on generalizing cs with
  | _ n ih =>
    subst hn
    cases cs with
    | nil => exact ⟨[], rfl⟩
    | cons c cs =>
      by_cases hc : c = GSM_7BITS_ESCAPE
      · subst hc
        obtain ⟨e, cs, rfl, he⟩ := h [] cs rfl
        obtain ⟨symbols, rfl⟩ := ih cs.length (by simp) (h.of_append [GSM_7BITS_ESCAPE, e])
          (fun c hc => hcs c (by simp [hc])) rfl
        exact ⟨⟨true, e, hcs e (by simp), he⟩ :: symbols, rfl⟩
      · obtain ⟨symbols, rfl⟩ := ih cs.length (by simp) (h.of_append [c])
          (fun c hc => hcs c (by simp [hc])) rfl
        exact ⟨⟨false, c, hcs c (by simp), hc⟩ :: symbols, rfl⟩

theorem escapesDefined_codes (symbols : List Symbol) : EscapesDefined (Symbol.codes symbols) := by
  induction symbols with
  | nil => exact fun before behind h => by simp [Symbol.codes] at h
  | cons s symbols ih =>
    intro before behind hcs
    cases h : s.extended with
    | false =>
      rw [Symbol.codes_plain h] at hcs
      cases before with
      | nil => exact absurd (List.cons.inj hcs).1 s.code_ne_escape
      | cons c before => exact ih before behind (List.cons.inj hcs).2
    | true =>
      rw [Symbol.codes_extended h] at hcs
      have hvalid := s.valid
      rw [if_pos h] at hvalid
      match before with
      | [] =>
        obtain rfl := (List.cons.inj hcs).2
        exact ⟨s.code, _, rfl, hvalid⟩
      | [c] => exact absurd (List.cons.inj (List.cons.inj hcs).2).1 s.code_ne_escape
      | c :: d :: before =>
        exact ih before behind (List.cons.inj (List.cons.inj hcs).2).2

theorem escapeLast_cons (hc : c ≠ GSM_7BITS_ESCAPE) : EscapeLast (c :: cs) ↔ EscapeLast cs := by
  constructor
  · exact fun h before behind hcs => h (c :: before) behind (by rw [hcs, List.cons_append])
  · intro h before behind hcs
    cases before with
    | nil => exact absurd (List.cons.inj hcs).1 hc
    | cons d before => exact h before behind (List.cons.inj hcs).2

theorem escapeLast_codes_iff (symbols : List Symbol) :
    EscapeLast (Symbol.codes symbols) ↔
      OnlyLast (fun s : Symbol => s.extended = true) symbols := by
  induction symbols with
  | nil => exact iff_of_true (fun before behind h => by simp [Symbol.codes] at h) trivial
  | cons s symbols ih =>
    rw [OnlyLast, ← ih]
    cases h : s.extended with
    | false =>
      rw [Symbol.codes_plain h, escapeLast_cons s.code_ne_escape]
      simp only [Bool.false_eq_true, false_implies, true_and]
    | true =>
      rw [Symbol.codes_extended h]
      constructor
      · intro hlast
        have hlength := hlast [] _ rfl
        have hle := Symbol.length_le_codes symbols
        rw [List.length_cons] at hlength
        obtain rfl : symbols = [] := List.length_eq_zero_iff.mp (by omega)
        exact ⟨fun _ => rfl, fun before behind h => by simp [Symbol.codes] at h⟩
      · rintro ⟨hnil, -⟩ before behind hcs
        obtain rfl := hnil rfl
        have hlength := congrArg List.length hcs
        rw [List.length_append] at hlength
        simp only [Symbol.codes, List.flatMap_nil, List.length_cons, List.length_nil] at hlength
        omega

/-- **The three decoders agree** on septets of which each escape is defined exactly when there is
nothing behind the code that an escape is for. -/
theorem decoders_agree_iff (hcs : ∀ c ∈ cs, c < 128) (hescapes : EscapesDefined cs)
    (hroom : offset + 7 * cs.length ≤ 8 * src.length)
    (hpacked : Holds 128 (word src / 2 ^ offset) cs) (more : List UInt8) :
    (∃ text, utf8_from_gsm7 src offset cs.length = .ok text ∧
      utf8_from_unpackedgsm7 (Symbol.unpacked cs ++ more) cs.length = .ok text ∧
      utf8_from_gsm8 (Symbol.unpacked cs ++ more) cs.length = .ok text) ↔ EscapeLast cs := by
  have hfrom := utf8_from_gsm7_holds hroom hcs hpacked
  obtain ⟨symbols, rfl⟩ := hescapes.exists_codes hcs
  have hunpacked := Symbol.fromUnpackedGsm7_codes symbols more
  rw [escapeLast_codes_iff, hfrom, utf8_from_unpackedgsm7, hunpacked, utf8_from_gsm8,
    ← Symbol.packedText_iff]
  constructor
  · rintro ⟨text, hpackedText, htext, -⟩
    rw [Except.ok.injEq] at hpackedText htext
    rw [hpackedText, htext]
  · intro heq
    exact ⟨_, congrArg _ heq, rfl,
      Symbol.fromGsm8_codes ((Symbol.packedText_iff symbols).mp heq) more⟩

/-- `A[`, from the fourth bit on. -/
theorem decoders_agree_bracket : ∃ text,
    utf8_from_gsm7 [0x08, 0x6E, 0x78] 3 3 = .ok text ∧
      utf8_from_unpackedgsm7 [0x41, 0x1B, 0x3C] 3 = .ok text ∧
      utf8_from_gsm8 [0x41, 0x1B, 0x3C] 3 = .ok text := by
  have hescapes : EscapesDefined [0x41, 0x1B, 0x3C] := escapesDefined_codes
    [⟨false, 0x41, by decide, by decide⟩, ⟨true, 0x3C, by decide, by decide⟩]
  have hlast : EscapeLast [0x41, 0x1B, 0x3C] := (escapeLast_codes_iff
    [⟨false, 0x41, by decide, by decide⟩, ⟨true, 0x3C, by decide, by decide⟩]).mpr
      ⟨by simp, by simp, trivial⟩
  have hpacked : Holds 128 (word [0x08, 0x6E, 0x78] / 2 ^ 3) [0x41, 0x1B, 0x3C] := by
    decide
  exact (decoders_agree_iff (by decide) hescapes (by decide) hpacked []).mpr hlast

/-- `[A`: two of the decoders look up the `A` in the wrong table. -/
theorem decoders_differ : ∃ cs : List ℕ, (∀ c ∈ cs, c < 128) ∧ EscapesDefined cs ∧
    Holds 128 (word [0x1B, 0x5E, 0x10]) cs ∧
    utf8_from_gsm7 [0x1B, 0x5E, 0x10] 0 cs.length = .ok [0x5B, 0x00] ∧
    utf8_from_unpackedgsm7 (Symbol.unpacked cs) cs.length = .ok [0x5B, 0x41] ∧
    utf8_from_gsm8 (Symbol.unpacked cs) cs.length = .ok [0x5B, 0x00] :=
  ⟨[0x1B, 0x3C, 0x41], by decide, escapesDefined_codes
    [⟨true, 0x3C, by decide, by decide⟩, ⟨false, 0x41, by decide, by decide⟩], by decide,
    by rfl, by rfl, by rfl⟩

/-! ### Strings -/

def utf8 (cs : List Char) : List UInt8 := cs.flatMap String.utf8EncodeChar

def InAlphabet (c : Char) : Prop :=
  c.toNat ≠ 0 ∧ (c.toNat ∈ gsm7bits_to_unicode ∨ c.toNat ∈ gsm7bits_extend_to_unicode)

def InExtension (c : Char) : Prop := c.toNat ∈ gsm7bits_extend_to_unicode

theorem InAlphabet.exists_symbol {c : Char} (h : InAlphabet c) : ∃ s : Symbol,
    septetsOf c.toNat = s.septets ∧ s.unicode = c.toNat ∧ (s.extended = true ↔ InExtension c) := by
  have hdisjoint : ∀ c ∈ gsm7bits_to_unicode, c ≠ 0 → c ∉ gsm7bits_extend_to_unicode := by
    decide +kernel
  have hzero : entry gsm7bits_to_unicode GSM_7BITS_ESCAPE = 0 := by decide
  obtain ⟨hne, hmem⟩ := h
  have hnone : ∀ table : List ℕ, table.findIdx? (· = c.toNat) = none → c.toNat ∉ table :=
    fun table h hc => by simpa using List.findIdx?_eq_none_iff.mp h _ hc
  rw [septetsOf]
  cases hplain : unichar_to_gsm7 c.toNat with
  | some nn =>
    obtain ⟨hlt, hentry, hin⟩ := unichar_to_gsm7_some hplain
    have hescape : nn ≠ GSM_7BITS_ESCAPE := fun heq => hne (by rw [← hentry, heq, hzero])
    exact ⟨⟨false, nn, hlt, hescape⟩, rfl, hentry,
      iff_of_false Bool.false_ne_true (hdisjoint _ hin hne)⟩
  | none =>
    have hin := hmem.resolve_left (hnone _ hplain)
    cases hextended : unichar_to_gsm7_extend c.toNat with
    | none => exact absurd hin (hnone _ hextended)
    | some nn =>
      obtain ⟨hlt, hentry, -⟩ := unichar_to_gsm7_extend_some hextended
      exact ⟨⟨true, nn, hlt, by rw [if_pos rfl, hentry]; exact hne⟩, rfl, hentry,
        iff_of_true rfl hin⟩

theorem exists_symbols {cs : List Char} (h : ∀ c ∈ cs, InAlphabet c) : ∃ symbols : List Symbol,
    symbols.length = cs.length ∧ (cs.map Char.toNat).flatMap septetsOf = Symbol.codes symbols ∧
      utf8 cs = Symbol.text symbols ∧
      (OnlyLast (fun s : Symbol => s.extended = true) symbols ↔ OnlyLast InExtension cs) := by
  induction cs with
  | nil => exact ⟨[], rfl, rfl, rfl, Iff.rfl⟩
  | cons c cs ih =>
    obtain ⟨hc, h⟩ := List.forall_mem_cons.mp h
    obtain ⟨symbols, hlength, hcodes, htext, hlast⟩ := ih h
    obtain ⟨s, hsepets, hunicode, hextended⟩ := hc.exists_symbol
    refine ⟨s :: symbols, by rw [List.length_cons, List.length_cons, hlength], ?_, ?_, ?_⟩
    · rw [List.map_cons, List.flatMap_cons, hcodes, hsepets]
      rfl
    · rw [utf8, List.flatMap_cons, ← utf8, htext, ← utf8_write_char, ← hunicode]
      rfl
    · rw [OnlyLast, OnlyLast, hextended, hlast, ← List.length_eq_zero_iff, hlength,
        List.length_eq_zero_iff]

theorem InAlphabet.lt {c : Char} (h : InAlphabet c) : c.toNat < 0x10000 := by
  obtain ⟨s, -, hunicode, -⟩ := h.exists_symbol
  rw [← hunicode]
  exact s.unicode_lt

theorem starts_utf8 {cs : List Char} (h : ∀ c ∈ cs, InAlphabet c) : Starts (utf8 cs) := by
  obtain ⟨symbols, -, -, htext, -⟩ := exists_symbols h
  rw [htext]
  exact Symbol.starts_text symbols

theorem chars_utf8 {cs : List Char} (h : ∀ c ∈ cs, InAlphabet c) :
    chars (utf8 cs) = cs.map Char.toNat := by
  have hin : ∀ n, cs.length ≤ n → charsIn n (utf8 cs) = cs.map Char.toNat := by
    induction cs with
    | nil => exact fun n _ => by cases n <;> rfl
    | cons c cs ih =>
      obtain ⟨hc, h⟩ := List.forall_mem_cons.mp h
      intro n hn
      obtain ⟨n, rfl⟩ : ∃ m, n = m + 1 := ⟨n - 1, by rw [List.length_cons] at hn; omega⟩
      have hlt := hc.lt
      rw [utf8, List.flatMap_cons, ← utf8, ← utf8_write_char, charsIn,
        utf8_next_write hlt (starts_utf8 h)]
      dsimp only
      rw [if_neg (by omega), ih h n (by rw [List.length_cons] at hn; omega), List.map_cons]
  refine hin _ ?_
  rw [utf8, List.length_flatMap]
  refine le_trans ?_ (List.length_le_sum_of_one_le _ fun n hn => ?_)
  · rw [List.length_map]
  · obtain ⟨c, -, rfl⟩ := List.mem_map.mp hn
    rw [String.length_utf8EncodeChar]
    exact c.utf8Size_pos

/-- The string comes back, and the bits in front of it stay. -/
def RoundTrips (text dst : List UInt8) (offset : ℕ) : Prop :=
  ∃ dst', utf8_to_gsm7 text dst offset = .ok (dst', offset + 7 * utf8_to_gsm7_count text) ∧
    (∀ i < offset, bit dst' i = bit dst i) ∧
    utf8_from_gsm7 dst' offset (utf8_to_gsm7_count text) = .ok text

/-- **The round trip**: a string of the alphabets comes back from its packed septets exactly when it
has nothing behind a character of the extension alphabet. -/
theorem round_trip_iff {cs : List Char} (hcs : ∀ c ∈ cs, InAlphabet c)
    (hroom : offset + 7 * utf8_to_gsm7_count (utf8 cs) ≤ 8 * dst.length) :
    RoundTrips (utf8 cs) dst offset ↔ OnlyLast InExtension cs := by
  obtain ⟨⟨dst', n⟩, hto, rfl, hlength, hbits, hholds⟩ := utf8_to_gsm7_holds (utf8 cs) hroom
  obtain ⟨symbols, -, hcodes, htext, hlast⟩ := exists_symbols hcs
  have hfrom : utf8_from_gsm7 dst' offset (utf8_to_gsm7_count (utf8 cs)) =
      .ok (packedText false (Symbol.codes symbols)) := by
    rw [utf8_to_gsm7_count_eq] at hroom ⊢
    rw [utf8_from_gsm7_holds (by rw [hlength]; exact hroom) (septets_lt _) hholds, septets,
      chars_utf8 hcs, hcodes]
  rw [← hlast, ← Symbol.packedText_iff, ← htext]
  constructor
  · rintro ⟨bytes, hto', -, hfrom'⟩
    rw [hto] at hto'
    cases hto'
    rw [hfrom] at hfrom'
    exact Except.ok.inj hfrom'
  · intro heq
    exact ⟨dst', hto, hbits, by rw [hfrom, heq]⟩

/-- A bracket behind a letter, behind bits that stay. -/
theorem round_trip_bracket : RoundTrips (utf8 ['A', '[']) [0x07, 0x00, 0x00] 3 := by
  have hcs : ∀ c ∈ ['A', '['], InAlphabet c := by
    simp only [InAlphabet]
    decide
  have hlast : OnlyLast InExtension ['A', '['] := by
    simp only [OnlyLast, InExtension]
    decide
  exact (round_trip_iff hcs (by decide)).mpr hlast

/-- A letter behind a bracket does not come back. -/
theorem letter_lost : (∀ c ∈ ['[', 'A'], InAlphabet c) ∧
    ¬ RoundTrips (utf8 ['[', 'A']) [0x00, 0x00, 0x00] 0 := by
  constructor
  · simp only [InAlphabet]
    decide
  · rintro ⟨dst', hto, -, hfrom⟩
    have hdst : utf8_to_gsm7 (utf8 ['[', 'A']) [0x00, 0x00, 0x00] 0 =
        .ok ([0x1B, 0x5E, 0x10], 21) := by rfl
    rw [hdst] at hto
    cases hto
    have htext : utf8_from_gsm7 [0x1B, 0x5E, 0x10] 0 (utf8_to_gsm7_count (utf8 ['[', 'A'])) =
        .ok [0x5B, 0x00] := by rfl
    rw [htext] at hfrom
    cases hfrom

end MtkHardware.Ril
