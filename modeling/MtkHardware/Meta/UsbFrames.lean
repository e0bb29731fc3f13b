import MtkHardware.Meta.UsbBounds
import MtkHardware.Util.Stream
import Mathlib.Data.List.GetD

/-!
# Well-Formed Frames of the AP

A frame of the AP is a start byte, the length, the type, the `PRIM_HEADER`, the two parameters and a
checksum, with the start byte and `MUX_KEY_WORD` escaped behind the first byte. The local parameter
begins with a `FT_H`.
-/

namespace MtkHardware.Meta

/-- A byte as it is sent by the host: what `transferFrame` undoes. -/
def hostEscape (b : UInt8) : List UInt8 :=
  if b = MUX_KEY_WORD then [MUX_KEY_WORD, MUX_KEY_WORD]
  else if b = STX_OCTET then [MUX_KEY_WORD, 0x01]
  else [b]

def lowByte (n : ℕ) : UInt8 := n.toUInt8

def highByte (n : ℕ) : UInt8 := (n / 256).toUInt8

def le16 (bytes : List UInt8) (i : ℕ) : ℕ :=
  (bytes.getD i 0).toNat + 256 * (bytes.getD (i + 1) 0).toNat

/-- A **well-formed frame** of the AP: its local parameter has a `FT_H`, and its length is one that
`decode` does not reject. -/
structure ApFrame where
  localPara : List UInt8
  peerPara : List UInt8
  ft : 4 ≤ localPara.length
  fits : localPara.length + peerPara.length + 10 ≤ FRAME_MAX_LEN

namespace ApFrame

variable (f : ApFrame)

/-- The length that is sent: that of the type, the header and the parameters. -/
def length : ℕ := f.localPara.length + f.peerPara.length + 5

def header : List UInt8 :=
  [lowByte f.localPara.length, highByte f.localPara.length, lowByte f.peerPara.length,
    highByte f.peerPara.length]

def content : List UInt8 := f.header ++ (f.localPara ++ f.peerPara)

def checksum : UInt8 :=
  f.content.foldl (· ^^^ ·)
    (STX_OCTET ^^^ highByte f.length ^^^ lowByte f.length ^^^ RS232_INJECT_APPRIMITIVE_OCTET)

/-- The bytes behind the start byte, before they are escaped. -/
def plain : List UInt8 :=
  [highByte f.length, lowByte f.length, RS232_INJECT_APPRIMITIVE_OCTET] ++
    (f.content ++ [f.checksum])

def wire : List UInt8 := STX_OCTET :: f.plain.flatMap hostEscape

/-- The token of the `FT_H`. -/
def token : ℕ := le16 f.localPara 0

/-- The id of the `FT_H`. -/
def id : ℕ := le16 f.localPara 2

def frame : Frame :=
  .valid ⟨.AP_FRAME, f.localPara ++ f.peerPara ++ [0], f.localPara.length, f.peerPara.length⟩
    (.module f.id f.token)

end ApFrame

/-! ### Escapes -/

section Escapes

variable {d ch : UInt8} {rest : List UInt8}

theorem hostEscape_cases (d : UInt8) :
    (hostEscape d = [d] ∧ d ≠ MUX_KEY_WORD ∧ d ≠ STX_OCTET) ∨
      (hostEscape d = [MUX_KEY_WORD, MUX_KEY_WORD] ∧ d = MUX_KEY_WORD) ∨
      (hostEscape d = [MUX_KEY_WORD, 0x01] ∧ d = STX_OCTET) := by
  rw [hostEscape]
  split
  · rename_i hmux
    exact .inr (.inl ⟨rfl, hmux⟩)
  split
  · rename_i hstx
    exact .inr (.inr ⟨rfl, hstx⟩)
  · rename_i hmux hstx
    exact .inl ⟨rfl, hmux, hstx⟩

theorem hostEscape_ne_nil (d : UInt8) : hostEscape d ≠ [] := by
  rcases hostEscape_cases d with ⟨h, -⟩ | ⟨h, -⟩ | ⟨h, -⟩ <;> rw [h] <;> exact List.cons_ne_nil _ _

theorem nextContent_hostEscape (d : UInt8) (rest : List UInt8) :
    nextContent (hostEscape d ++ rest) = some (d, rest) := by
  rcases hostEscape_cases d with ⟨h, hmux, hstx⟩ | ⟨h, rfl⟩ | ⟨h, rfl⟩
  · rw [h, List.singleton_append, nextContent.eq_def]
    dsimp only
    rw [if_neg hstx, if_neg hmux]
  · rw [h]
    rfl
  · rw [h]
    rfl

theorem cut_pair {p : List UInt8} {b : UInt8} {l : List UInt8} (h : p <+: [MUX_KEY_WORD, b])
    (hne : p ≠ [MUX_KEY_WORD, b]) (hl : [MUX_KEY_WORD, b] ≠ l) :
    p = [] ∨ (p = [MUX_KEY_WORD] ∧ [MUX_KEY_WORD, b] ≠ l) := by
  rcases List.prefix_cons_iff.mp h with rfl | ⟨t, rfl, ht⟩
  · exact .inl rfl
  rcases List.prefix_cons_iff.mp ht with rfl | ⟨t', rfl, ht'⟩
  · exact .inr ⟨rfl, hl⟩
  · exact absurd (by rw [List.prefix_nil.mp ht']) hne

/-- **Cut-off data**: what is in front of a cut is whole bytes, and at most the first half of an
escape. -/
theorem prefix_flatMap_hostEscape {p bs : List UInt8} (h : p <+: bs.flatMap hostEscape) :
    p = bs.flatMap hostEscape ∨ ∃ bs₁ d bs₂ q, bs = bs₁ ++ d :: bs₂ ∧
      p = bs₁.flatMap hostEscape ++ q ∧ (q = [] ∨ (q = [MUX_KEY_WORD] ∧ hostEscape d ≠ [d])) := by
  induction bs generalizing p with
  | nil =>
    rw [List.flatMap_nil, List.prefix_nil] at h
    exact .inl h
  | cons d bs ih =>
    rw [List.flatMap_cons] at h ⊢
    rcases prefix_append_cases h with ⟨hp, hne⟩ | ⟨p', rfl, hp'⟩
    · refine .inr ⟨[], d, bs, p, rfl, rfl, ?_⟩
      rcases hostEscape_cases d with ⟨hd, -⟩ | ⟨hd, hmux⟩ | ⟨hd, hstx⟩
      · rw [hd] at hp hne
        rcases List.prefix_cons_iff.mp hp with rfl | ⟨t, rfl, ht⟩
        · exact .inl rfl
        · exact absurd (by rw [List.prefix_nil.mp ht]) hne
      · rw [hd] at hp hne ⊢
        exact cut_pair hp hne (by simp)
      · rw [hd] at hp hne ⊢
        exact cut_pair hp hne (by simp)
    · rcases ih hp' with rfl | ⟨bs₁, d', bs₂, q, rfl, rfl, hq⟩
      · exact .inl rfl
      · exact .inr ⟨d :: bs₁, d', bs₂, q, rfl, by simp, hq⟩

end Escapes

/-- The data end in the first byte of an escape that is one of a length byte. -/
def CutLength (data : List UInt8) : Prop :=
  ∃ pre, data = pre ++ [STX_OCTET, MUX_KEY_WORD] ∨
    ∃ hi, data = pre ++ STX_OCTET :: (hostEscape hi ++ [MUX_KEY_WORD])

/-! ### In front of the type -/

namespace UsbRxWatcher

open Loop

variable {ctx : Context} {s : UsbRxWatcher} {len u16Length : ℕ} {src rest g : List UInt8}
  {d ch : UInt8}

def InLength (s : UsbRxWatcher) : Prop :=
  s.m_cTstFrameState = .LENHI ∨ s.m_cTstFrameState = .LENLO ∨ s.m_cTstFrameState = .TYPE

/-- The states in which `decode` looks for escapes. -/
def Escapes (s : UsbRxWatcher) : Prop :=
  s.m_cTstFrameState ≠ .STX ∧ s.m_cTstFrameState ≠ .KEYWORD ∧ s.m_cTstFrameState ≠ .MD_DATA

theorem InLength.escapes (h : s.InLength) : s.Escapes := by
  rcases h with h | h | h <;> rw [Escapes, h] <;> decide

theorem countEscape_eq (s : UsbRxWatcher) (escaped : Bool) :
    ∃ l, s.countEscape escaped = { s with m_frm_len_byte := l } := by
  rw [countEscape]
  split
  · exact ⟨_, rfl⟩
  · exact ⟨s.m_frm_len_byte, rfl⟩

theorem decodeRound_plain (h : s.m_cTstFrameState ≠ .STX) (hopen : u16Length ≠ len)
    (hstx : ch ≠ STX_OCTET) (hmux : s.Escapes → ch ≠ MUX_KEY_WORD) (rest : List UInt8) :
    decodeRound len ⟨s, u16Length, ch :: rest⟩ =
      .ok (headerByte ch ⟨s, u16 (u16Length + 1), rest⟩) := by
  rw [decodeRound, if_neg hopen]
  dsimp only
  rw [if_neg hstx, if_neg h, checkEscape, if_neg fun hbad => hmux ⟨h, hbad.2⟩ hbad.1]

theorem decodeRound_escape (h : s.Escapes) (hopen : u16Length ≠ len) (ch : UInt8)
    (rest : List UInt8) :
    ∃ l, decodeRound len ⟨s, u16Length, MUX_KEY_WORD :: ch :: rest⟩ =
      .ok (if ch = MUX_KEY_WORD then
          headerByte MUX_KEY_WORD ⟨{ s with
            m_cOldTstFrameState := s.m_cTstFrameState, m_frm_len_byte := l },
            u16 (u16 (u16Length + 1) + 1), rest⟩
        else if ch = 0x01 then
          headerByte STX_OCTET ⟨{ s with
            m_cOldTstFrameState := s.m_cTstFrameState, m_frm_len_byte := l },
            u16 (u16 (u16Length + 1) + 1), rest⟩
        else
          headerByte MUX_KEY_WORD ⟨{ s with
            m_cOldTstFrameState := s.m_cTstFrameState, m_frm_len_byte := l },
            u16 (u16Length + 1), ch :: rest⟩) := by
  rw [decodeRound, if_neg hopen]
  dsimp only
  rw [if_neg (by decide), if_neg h.1, checkEscape, if_pos ⟨rfl, h.2⟩]
  dsimp only
  rw [escape_cons]
  by_cases hmux : ch = MUX_KEY_WORD
  · obtain ⟨l, hl⟩ := countEscape_eq { s with m_cOldTstFrameState := s.m_cTstFrameState } true
    refine ⟨l, ?_⟩
    simp only [if_pos hmux, bind, Except.bind, pure, Except.pure, hl]
  by_cases hone : ch = 0x01
  · obtain ⟨l, hl⟩ := countEscape_eq { s with m_cOldTstFrameState := s.m_cTstFrameState } true
    refine ⟨l, ?_⟩
    simp only [if_neg hmux, if_pos hone, bind, Except.bind, pure, Except.pure, hl]
  · obtain ⟨l, hl⟩ := countEscape_eq { s with m_cOldTstFrameState := s.m_cTstFrameState } false
    refine ⟨l, ?_⟩
    simp only [if_neg hmux, if_neg hone, bind, Except.bind, pure, Except.pure, hl]

theorem decodeRound_field (h : s.InLength)
    (hsync : Synced len u16Length (hostEscape d ++ rest)) : ∃ o l u,
    decodeRound len ⟨s, u16Length, hostEscape d ++ rest⟩ =
      .ok (headerByte d
        ⟨{ s with m_cOldTstFrameState := o, m_frm_len_byte := l }, u, rest⟩) ∧
    Synced len u rest := by
  have hopen : u16Length ≠ len := fun heq => by
    have hnil := (hsync.eq_iff.mp heq).2
    exact hostEscape_ne_nil d (List.append_eq_nil_iff.mp hnil).1
  rcases hostEscape_cases d with ⟨hd, hmux, hstx⟩ | ⟨hd, rfl⟩ | ⟨hd, rfl⟩
  · rw [hd, List.singleton_append] at hsync ⊢
    exact ⟨s.m_cOldTstFrameState, s.m_frm_len_byte, _,
      decodeRound_plain h.escapes.1 hopen hstx (fun _ => hmux) rest, hsync.next⟩
  · rw [hd] at hsync ⊢
    obtain ⟨l, hl⟩ := decodeRound_escape h.escapes hopen MUX_KEY_WORD rest
    exact ⟨_, l, _, hl, hsync.next.next⟩
  · rw [hd] at hsync ⊢
    obtain ⟨l, hl⟩ := decodeRound_escape h.escapes hopen 0x01 rest
    exact ⟨_, l, _, hl, hsync.next.next⟩

theorem headerByte_other (h : ¬ s.InLength) (ch : UInt8) : headerByte ch ⟨s, u16Length, rest⟩ =
    .inl ⟨{ s with m_checksum := s.m_checksum ^^^ ch }, u16Length, rest⟩ := by
  rw [InLength, not_or, not_or] at h
  rw [headerByte]
  dsimp only
  split
  · rename_i hstate
    exact absurd hstate h.1
  · rename_i hstate
    exact absurd hstate h.2.1
  · rename_i hstate
    exact absurd hstate h.2.2
  · rfl

theorem decodeRound_escape_other (h : ¬ s.InLength) (hescapes : s.Escapes)
    (hopen : u16Length ≠ len) (ch : UInt8) (rest : List UInt8) : ∃ s', ¬ s'.InLength ∧
      s'.szRemainBuf = s.szRemainBuf ∧
      decodeRound len ⟨s, u16Length, MUX_KEY_WORD :: ch :: rest⟩ =
        .ok (.inl (if ch = MUX_KEY_WORD ∨ ch = 0x01 then ⟨s', u16 (u16 (u16Length + 1) + 1), rest⟩
          else ⟨s', u16 (u16Length + 1), ch :: rest⟩)) := by
  obtain ⟨l, hl⟩ := decodeRound_escape hescapes hopen ch rest
  have hother : ¬ InLength { s with
      m_cOldTstFrameState := s.m_cTstFrameState, m_frm_len_byte := l } := h
  by_cases hmux : ch = MUX_KEY_WORD
  · rw [if_pos hmux, headerByte_other hother] at hl
    refine ⟨{ s with
      m_cOldTstFrameState := s.m_cTstFrameState, m_frm_len_byte := l,
      m_checksum := s.m_checksum ^^^ MUX_KEY_WORD }, h, rfl, ?_⟩
    rw [hl, if_pos (.inl hmux)]
  by_cases hone : ch = 0x01
  · rw [if_neg hmux, if_pos hone, headerByte_other hother] at hl
    refine ⟨{ s with
      m_cOldTstFrameState := s.m_cTstFrameState, m_frm_len_byte := l,
      m_checksum := s.m_checksum ^^^ STX_OCTET }, h, rfl, ?_⟩
    rw [hl, if_pos (.inr hone)]
  · rw [if_neg hmux, if_neg hone, headerByte_other hother] at hl
    refine ⟨{ s with
      m_cOldTstFrameState := s.m_cTstFrameState, m_frm_len_byte := l,
      m_checksum := s.m_checksum ^^^ MUX_KEY_WORD }, h, rfl, ?_⟩
    rw [hl, if_neg (not_or.mpr ⟨hmux, hone⟩)]

theorem comes_skip (h : s.m_cTstFrameState = .STX) (hg : STX_OCTET ∉ g)
    (hsync : Synced len u16Length (g ++ src)) : ∃ u,
    (decodeRound len).Comes ⟨s, u16Length, g ++ src⟩ ⟨s, u, src⟩ ∧ Synced len u src := by
  induction g generalizing u16Length with
  | nil => exact ⟨u16Length, .start, hsync⟩
  | cons ch g ih =>
    rw [List.mem_cons, not_or] at hg
    rw [List.cons_append] at hsync ⊢
    obtain ⟨u, hcomes, hu⟩ := ih hg.2 hsync.next
    refine ⟨u, hcomes.head ?_, hu⟩
    rw [decodeRound, if_neg (hsync.not_end (List.cons_ne_nil _ _))]
    dsimp only
    rw [if_neg (Ne.symm hg.1), if_pos h]

/-- In front of a start byte every byte is let go, but in a state of the length and the type. The
induction is on the length, as an escape is two bytes. -/
theorem comes_start_byte (h : ¬ s.InLength) (hg : STX_OCTET ∉ g)
    (hsync : Synced len u16Length (g ++ STX_OCTET :: rest)) : ∃ s' u,
    (decodeRound len).Comes ⟨s, u16Length, g ++ STX_OCTET :: rest⟩ ⟨s', u, STX_OCTET :: rest⟩ ∧
      Synced len u (STX_OCTET :: rest) ∧ s'.szRemainBuf = s.szRemainBuf := by
  induction hn : g.length using Nat.strong_induction_on generalizing g s u16Length with
  | _ n ih =>
    subst hn
    cases g with
    | nil => exact ⟨s, u16Length, .start, hsync, rfl⟩
    | cons ch g =>
      have hopen := hsync.not_end (List.cons_ne_nil _ _)
      rw [List.mem_cons, not_or] at hg
      obtain ⟨hch, hg⟩ := hg
      by_cases hstx : s.m_cTstFrameState = .STX
      · obtain ⟨u, hcomes, hu⟩ :=
          comes_skip (g := ch :: g) hstx (by simp [hch, hg]) hsync
        exact ⟨s, u, hcomes, hu, rfl⟩
      by_cases hescape : s.Escapes ∧ ch = MUX_KEY_WORD
      · obtain ⟨hescapes, rfl⟩ := hescape
        rw [List.cons_append] at hsync ⊢
        cases g with
        | nil =>
          obtain ⟨s', -, hkept, hround⟩ :=
            decodeRound_escape_other h hescapes hopen STX_OCTET rest
          rw [if_neg (by decide)] at hround
          exact ⟨s', _, Comes.start.round hround, hsync.next, hkept⟩
        | cons next g =>
          rw [List.cons_append] at hsync ⊢
          obtain ⟨s₁, h₁, hkept₁, hround⟩ := decodeRound_escape_other h hescapes
            hopen next (g ++ STX_OCTET :: rest)
          split at hround
          · obtain ⟨s', u, hcomes, hu, hkept⟩ :=
              ih g.length (by simp only [List.length_cons]; omega) h₁
                (fun hmem => hg (List.mem_cons_of_mem _ hmem)) hsync.next.next rfl
            exact ⟨s', u, hcomes.head hround, hu, hkept.trans hkept₁⟩
          · obtain ⟨s', u, hcomes, hu, hkept⟩ :=
              ih (next :: g).length (Nat.lt_succ_self _) (g := next :: g) h₁ hg
                hsync.next rfl
            exact ⟨s', u, hcomes.head hround, hu, hkept.trans hkept₁⟩
      · rw [List.cons_append] at hsync ⊢
        have hround := decodeRound_plain hstx hopen (Ne.symm hch)
          (fun hescapes hmux => hescape ⟨hescapes, hmux⟩) (g ++ STX_OCTET :: rest)
        rw [headerByte_other h] at hround
        obtain ⟨s', u, hcomes, hu, hkept⟩ :=
          ih g.length (Nat.lt_succ_self _)
            (s := { s with m_checksum := s.m_checksum ^^^ ch }) h hg hsync.next rfl
        exact ⟨s', u, hcomes.head hround, hu, hkept⟩

/-- What is known in front of a byte of the length or the type. -/
structure AtField (s : UsbRxWatcher) (state : FrameState) (n : ℕ) (x : UInt8)
    (kept : List UInt8) : Prop where
  state : s.m_cTstFrameState = state
  frameLength : s.m_uFrameLength = n
  checksum : s.m_checksum = x
  kept : s.szRemainBuf = kept

variable {n : ℕ} {x : UInt8} {kept : List UInt8}

theorem comes_start (s : UsbRxWatcher) (hsync : Synced len u16Length (STX_OCTET :: rest)) :
    ∃ s' u, (decodeRound len).Comes ⟨s, u16Length, STX_OCTET :: rest⟩ ⟨s', u, rest⟩ ∧
      Synced len u rest ∧ AtField s' .LENHI 0 STX_OCTET s.szRemainBuf := by
  have hround : decodeRound len ⟨s, u16Length, STX_OCTET :: rest⟩ =
      .ok (.inl ⟨s.start (u16 (u16Length + 1)), u16 (u16Length + 1), rest⟩) := by
    rw [decodeRound, if_neg (hsync.not_end (List.cons_ne_nil _ _))]
    dsimp only
    rw [if_pos rfl]
  exact ⟨_, _, Comes.start.round hround, hsync.next, rfl, rfl, rfl, rfl⟩

theorem comes_lenhi (h : AtField s .LENHI n x kept)
    (hsync : Synced len u16Length (hostEscape d ++ rest)) : ∃ s' u,
    (decodeRound len).Comes ⟨s, u16Length, hostEscape d ++ rest⟩ ⟨s', u, rest⟩ ∧
      Synced len u rest ∧ AtField s' .LENLO (d.toNat * 256) (x ^^^ d) kept := by
  obtain ⟨o, l, u, hround, hu⟩ := decodeRound_field (.inl h.state) hsync
  simp only [headerByte, h.state] at hround
  exact ⟨_, _, Comes.start.round hround, hu, rfl, rfl, by rw [← h.checksum], h.kept⟩

theorem comes_lenlo (h : AtField s .LENLO n x kept)
    (hlen : u16 (n + d.toNat) + 5 ≤ FRAME_MAX_LEN)
    (hsync : Synced len u16Length (hostEscape d ++ rest)) : ∃ s' u,
    (decodeRound len).Comes ⟨s, u16Length, hostEscape d ++ rest⟩ ⟨s', u, rest⟩ ∧
      Synced len u rest ∧ AtField s' .TYPE (u16 (n + d.toNat)) (x ^^^ d) kept := by
  obtain ⟨o, l, u, hround, hu⟩ := decodeRound_field (.inr (.inl h.state)) hsync
  simp only [headerByte, h.state, h.frameLength, if_neg (not_lt.mpr hlen)] at hround
  exact ⟨_, _, Comes.start.round hround, hu, rfl, rfl, by rw [← h.checksum], h.kept⟩

theorem round_type (h : AtField s .TYPE n x kept)
    (hsync : Synced len u16Length (hostEscape d ++ rest)) : ∃ s' u,
    decodeRound len ⟨s, u16Length, hostEscape d ++ rest⟩ =
        .ok (.inr (.typed d ⟨s', u, rest⟩)) ∧
      Synced len u rest ∧ s'.m_checksum = x ^^^ d ∧ s'.szRemainBuf = kept := by
  obtain ⟨o, l, u, hround, hu⟩ := decodeRound_field (.inr (.inr h.state)) hsync
  simp only [headerByte, h.state] at hround
  exact ⟨_, _, hround, hu, by rw [← h.checksum], h.kept⟩

/-! ### Behind the type -/

variable {f : ApFrame} {p : List UInt8} {c : Cursor} {t : UsbRxWatcher}

theorem toNat_lowByte_highByte {m : ℕ} (h : m < 65536) :
    (lowByte m).toNat + 256 * (highByte m).toNat = m := by
  simp only [lowByte, highByte, Nat.toUInt8, UInt8.toNat_ofNat']
  omega

theorem announced {v : Vector UInt8 4} (h : v.toList = f.header) :
    (getElem v 0 (by decide)).toNat + 256 * (getElem v 1 (by decide)).toNat =
        f.localPara.length ∧
      (getElem v 2 (by decide)).toNat + 256 * (getElem v 3 (by decide)).toNat =
        f.peerPara.length := by
  have hfits := f.fits
  simp only [FRAME_MAX_LEN] at hfits
  have hlocal := toNat_lowByte_highByte (m := f.localPara.length) (by omega)
  have hpeer := toNat_lowByte_highByte (m := f.peerPara.length) (by omega)
  obtain ⟨⟨bytes⟩, hbytes⟩ := v
  simp only [Vector.toList_mk, ApFrame.header] at h
  subst h
  exact ⟨hlocal, hpeer⟩

theorem length_content (f : ApFrame) :
    f.content.length = 4 + (f.localPara.length + f.peerPara.length) := by
  simp only [ApFrame.content, ApFrame.header, List.length_append, List.length_cons,
    List.length_nil]

theorem content_fits (f : ApFrame) : f.content.length + 6 ≤ FRAME_MAX_LEN := by
  have hfits := f.fits
  rw [length_content]
  omega

structure StoredUpTo (f : ApFrame) (x : UInt8) (kept : List UInt8) (p : List UInt8)
    (s : UsbRxWatcher) : Prop where
  checksum : s.m_checksum = p.foldl (· ^^^ ·) x
  kept : s.szRemainBuf = kept
  stored : (p.length < 4 ∧ InHeader p s) ∨
    (4 ≤ p.length ∧
      s.m_cTstFrameState = (if p.length = f.content.length then .CHECKSUM
        else .AP_PRIM_LOCAL_PARA_DATA) ∧
      s.m_sRs232Frame.inject_prim.toList = f.header ∧
      s.m_sRs232Frame.received_buf_para_length = p.length - 4 ∧
      s.m_sRs232Frame.buf_ptr =
        p.drop 4 ++ List.replicate (f.content.length + 1 - p.length) 0)

theorem StoredUpTo.apState (h : StoredUpTo f x kept p s) : s.ApState := by
  rcases h.stored with ⟨-, hin⟩ | ⟨-, hstate, -⟩
  · exact .inl hin.state
  · split at hstate
    · exact .inr (.inr hstate)
    · exact .inr (.inl hstate)

theorem StoredUpTo.apByte {b : UInt8} {bs : List UInt8} (h : StoredUpTo f x kept p s)
    (hcontent : f.content = p ++ b :: bs) (ctx : Context) (o : FrameState) (u16Length : ℕ)
    (rest : List UInt8) : ∃ s',
    apByte ctx b ⟨{ s with m_cOldTstFrameState := o }, u16Length, rest⟩ =
        .ok (.inl ⟨s', u16Length, rest⟩) ∧ StoredUpTo f x kept (p ++ [b]) s' := by
  have hlength : f.content.length = p.length + (bs.length + 1) := by rw [hcontent]; simp
  have hfits := content_fits f
  have htotal := length_content f
  have hft := f.ft
  have happend : (p ++ [b]).length = p.length + 1 := by simp
  have hsum : (p ++ [b]).foldl (· ^^^ ·) x = s.m_checksum ^^^ b := by
    rw [List.foldl_append, ← h.checksum]
    rfl
  rcases h.stored with ⟨hlen, hin⟩ | ⟨hlen, hstate, hheader, hreceived, hbuf⟩
  · have hin' : InHeader p { s with m_cOldTstFrameState := o } :=
      ⟨hin.state, hin.header_ptr, hin.received, hin.para, hin.stored, hin.length, hin.zero⟩
    obtain ⟨v, hv, hs'⟩ := hin'.apHeader_eq hlen b
    rw [apByte_header (c := ⟨{ s with m_cOldTstFrameState := o }, u16Length, rest⟩) hin.state, hs']
    refine ⟨_, rfl, ?_⟩
    by_cases hlast : p.length + 1 = 4
    · have hvheader : v.toList = f.header := by
        rw [hlast, List.take_of_length_le (by simp)] at hv
        have htake : f.content.take 4 = p ++ [b] := by
          rw [hcontent, ← List.singleton_append, ← List.append_assoc, ← hlast, ← happend,
            List.take_left]
        rw [hv, ← htake]
        rfl
      obtain ⟨hlocal, hpeer⟩ := announced hvheader
      rw [hlocal, hpeer, if_pos ⟨hlast, by omega⟩]
      refine ⟨hsum.symm, h.kept, .inr ⟨by omega, ?_, hvheader, ?_, ?_⟩⟩
      · rw [if_neg (by omega)]
        rfl
      · rw [happend, hlast]
        exact hin.para
      · rw [List.drop_eq_nil_of_le (by omega), happend, hlast, List.nil_append]
        exact congrArg (List.replicate · 0) (by omega)
    · rw [if_neg fun hbad => hlast hbad.1]
      refine ⟨hsum.symm, h.kept, .inl ⟨by omega, hin.state, happend.symm, happend.symm, hin.para,
        ?_, by omega, fun hbad => by omega⟩⟩
      rw [happend]
      exact hv
  · have hlocal := (announced hheader).1
    have hpeer := (announced hheader).2
    rw [if_neg (by omega)] at hstate
    have hset : s.m_sRs232Frame.buf_ptr.set s.m_sRs232Frame.received_buf_para_length b =
        (p ++ [b]).drop 4 ++ List.replicate (f.content.length + 1 - (p ++ [b]).length) 0 := by
      have hroom : f.content.length + 1 - p.length =
          f.content.length + 1 - (p ++ [b]).length + 1 := by omega
      rw [hbuf, hreceived, List.set_append_right _ _ (by simp), List.length_drop, Nat.sub_self,
        hroom, List.replicate_succ, List.set_cons_zero, List.drop_append_of_le_length hlen,
        List.append_assoc, List.singleton_append]
    have hnext : u16 (s.m_sRs232Frame.received_buf_para_length + 1) = p.length + 1 - 4 := by
      rw [hreceived, u16_of_lt (by omega)]
      omega
    have hroom : ¬ (s.m_sRs232Frame.buf_ptr ≠ [] ∧
        s.m_sRs232Frame.local_len + s.m_sRs232Frame.peer_len ≤
          s.m_sRs232Frame.received_buf_para_length) := fun hfull => by
      have hle := hfull.2
      rw [hreceived, PRIM_FRAME.local_len, PRIM_FRAME.peer_len, hlocal, hpeer] at hle
      omega
    rw [apByte_para (c := ⟨{ s with m_cOldTstFrameState := o }, u16Length, rest⟩) hstate, apPara,
      if_neg hroom]
    dsimp only
    rw [hset, hnext]
    have htest : PRIM_FRAME.local_len { s.m_sRs232Frame with
          buf_ptr := (p ++ [b]).drop 4 ++
            List.replicate (f.content.length + 1 - (p ++ [b]).length) 0,
          received_buf_para_length := p.length + 1 - 4 } +
        PRIM_FRAME.peer_len { s.m_sRs232Frame with
          buf_ptr := (p ++ [b]).drop 4 ++
            List.replicate (f.content.length + 1 - (p ++ [b]).length) 0,
          received_buf_para_length := p.length + 1 - 4 } = p.length + 1 - 4 ↔
        (p ++ [b]).length = f.content.length := by
      rw [PRIM_FRAME.local_len, PRIM_FRAME.peer_len, hlocal, hpeer, happend]
      omega
    by_cases hend : (p ++ [b]).length = f.content.length
    · rw [if_pos (htest.mpr hend)]
      refine ⟨_, rfl, hsum.symm, h.kept, .inr ⟨by omega, ?_, hheader, ?_, rfl⟩⟩
      · rw [if_pos hend]
      · rw [happend]
    · rw [if_neg (mt htest.mp hend)]
      refine ⟨_, rfl, hsum.symm, h.kept, .inr ⟨by omega, ?_, hheader, ?_, rfl⟩⟩
      · rw [if_neg hend]
        exact hstate
      · rw [happend]

theorem comes_content {bs more : List UInt8} (ctx : Context) (h : StoredUpTo f x kept p s)
    (hcontent : f.content = p ++ (bs ++ more))
    (hsync : Synced len u16Length (bs.flatMap hostEscape ++ rest)) : ∃ s' u,
    (apRound ctx len).Comes ⟨s, u16Length, bs.flatMap hostEscape ++ rest⟩ ⟨s', u, rest⟩ ∧
      Synced len u rest ∧ StoredUpTo f x kept (p ++ bs) s' := by
  induction bs generalizing s u16Length p with
  | nil => exact ⟨s, u16Length, .start, hsync, by rwa [List.append_nil]⟩
  | cons b bs ih =>
    rw [List.flatMap_cons, List.append_assoc] at hsync ⊢
    obtain ⟨o, u, hround, hu⟩ := apRound_some ctx (c := ⟨s, u16Length, _⟩) h.apState hsync
      (nextContent_hostEscape b _)
    obtain ⟨s', hs', h'⟩ := h.apByte hcontent ctx o u (bs.flatMap hostEscape ++ rest)
    rw [hs'] at hround
    obtain ⟨s'', u', hcomes, hu', h''⟩ := ih h' (by simpa using hcontent) hu
    refine ⟨s'', u', hcomes.head hround, hu', ?_⟩
    rwa [List.append_assoc] at h''

theorem storedUpTo_startAP (f : ApFrame) (s : UsbRxWatcher) :
    StoredUpTo f s.m_checksum s.szRemainBuf [] s.startAP :=
  ⟨rfl, rfl, .inl ⟨Nat.zero_lt_succ _, inHeader_startAP s⟩⟩

theorem sendFtTask_stored (h : StoredUpTo f x kept f.content s) (ctx : Context) :
    s.sendFtTask ctx = if ctx.getModule f.id then f.frame else .invalid := by
  have hlength := length_content f
  have hft := f.ft
  rcases h.stored with ⟨hlen, -⟩ | ⟨-, -, hheader, -, hbuf⟩
  · omega
  have hpara : s.m_sRs232Frame.buf_ptr = f.localPara ++ f.peerPara ++ [0] := by
    rw [hbuf, Nat.add_sub_cancel_left]
    rfl
  have hfield : ∀ i, i + 1 < 4 → s.ftField ctx i = le16 f.localPara i := fun i hi => by
    rw [ftField, le16]
    dsimp only
    rw [hpara, List.append_assoc, List.getD_append _ _ _ _ (by omega),
      List.getD_append _ _ _ _ (by omega), List.getD_eq_getElem _ _ (by omega),
      List.getD_eq_getElem _ _ (by omega), List.getD_eq_getElem _ _ (by omega),
      List.getD_eq_getElem _ _ (by omega)]
  obtain ⟨hlocal, hpeer⟩ := announced hheader
  rw [sendFtTask, hfield 0 (by decide), hfield 2 (by decide), hpara, PRIM_FRAME.local_len,
    PRIM_FRAME.peer_len, hlocal, hpeer]
  rfl

theorem apRound_checksum (ctx : Context) (h : StoredUpTo f x kept f.content s)
    (hsum : f.content.foldl (· ^^^ ·) x = d)
    (hsync : Synced len u16Length (hostEscape d ++ rest)) : ∃ s' u,
    apRound ctx len ⟨s, u16Length, hostEscape d ++ rest⟩ =
        .ok (.inr ⟨some (if ctx.getModule f.id then f.frame else .invalid), s', u⟩) ∧
      Synced len u rest ∧ s'.m_cTstFrameState = .STX ∧ s'.szRemainBuf = kept := by
  have hstate : s.m_cTstFrameState = .CHECKSUM := by
    rcases h.stored with ⟨hlen, -⟩ | ⟨-, hstate, -⟩
    · rw [length_content] at hlen
      omega
    · rwa [if_pos rfl] at hstate
  obtain ⟨o, u, hround, hu⟩ := apRound_some ctx (c := ⟨s, u16Length, _⟩) h.apState hsync
    (nextContent_hostEscape d rest)
  rw [apByte_checksum (c := ⟨{ s with m_cOldTstFrameState := o }, u, rest⟩) hstate,
    if_neg (not_not.mpr (h.checksum.trans hsum))] at hround
  refine ⟨{ s with
    m_cOldTstFrameState := o
    m_cTstFrameState := .STX
    m_sRs232Frame := { s.m_sRs232Frame with received_buf_para_length := 0 }
    m_checksum := STX_OCTET }, u, ?_, hu, rfl, h.kept⟩
  rw [hround, ← sendFtTask_stored h ctx]
  rfl

/-! ### A whole frame, and one that is cut off -/

theorem synced_start (data : List UInt8) : Synced data.length 0 data :=
  ⟨by rw [Nat.sub_self]; rfl, le_rfl⟩

theorem comes_to_frame (hg : STX_OCTET ∉ g) (hlength : s.InLength → g = [])
    (hsync : Synced len u16Length (g ++ STX_OCTET :: rest)) : ∃ s' u,
    (decodeRound len).Comes ⟨s, u16Length, g ++ STX_OCTET :: rest⟩ ⟨s', u, rest⟩ ∧
      Synced len u rest ∧ AtField s' .LENHI 0 STX_OCTET s.szRemainBuf := by
  obtain ⟨s₁, u₁, hcomes₁, hu₁, hkept⟩ : ∃ s' u,
      (decodeRound len).Comes ⟨s, u16Length, g ++ STX_OCTET :: rest⟩ ⟨s', u, STX_OCTET :: rest⟩ ∧
        Synced len u (STX_OCTET :: rest) ∧ s'.szRemainBuf = s.szRemainBuf := by
    by_cases h : s.InLength
    · obtain rfl := hlength h
      exact ⟨s, u16Length, .start, hsync, rfl⟩
    · exact comes_start_byte h hg hsync
  obtain ⟨s₂, u₂, hcomes₂, hu₂, hfield⟩ := comes_start s₁ hu₁
  rw [hkept] at hfield
  exact ⟨s₂, u₂, hcomes₁.trans hcomes₂, hu₂, hfield⟩

theorem length_eq (f : ApFrame) :
    u16 ((highByte f.length).toNat * 256 + (lowByte f.length).toNat) = f.length ∧
      f.length + 5 ≤ FRAME_MAX_LEN := by
  have hfits := f.fits
  have hlt : f.length < FRAME_MAX_LEN := by
    rw [ApFrame.length]
    omega
  have heq := toNat_lowByte_highByte hlt
  refine ⟨?_, by rw [ApFrame.length]; omega⟩
  rw [Nat.mul_comm, Nat.add_comm, heq, u16_of_lt hlt]

theorem comes_typed {x : UInt8} (h : AtField s .LENHI 0 STX_OCTET kept)
    (hsync : Synced len u16Length (hostEscape (highByte f.length) ++
      (hostEscape (lowByte f.length) ++ (hostEscape RS232_INJECT_APPRIMITIVE_OCTET ++ rest))))
    (hx : x = STX_OCTET ^^^ highByte f.length ^^^ lowByte f.length ^^^
      RS232_INJECT_APPRIMITIVE_OCTET) : ∃ c s' u,
    (decodeRound len).Comes ⟨s, u16Length, hostEscape (highByte f.length) ++
      (hostEscape (lowByte f.length) ++ (hostEscape RS232_INJECT_APPRIMITIVE_OCTET ++ rest))⟩ c ∧
    decodeRound len c = .ok (.inr (.typed RS232_INJECT_APPRIMITIVE_OCTET ⟨s', u, rest⟩)) ∧
    Synced len u rest ∧ s'.m_checksum = x ∧ s'.szRemainBuf = kept := by
  obtain ⟨s₁, u₁, hcomes₁, hu₁, h₁⟩ := comes_lenhi h hsync
  obtain ⟨heq, hle⟩ := length_eq f
  obtain ⟨s₂, u₂, hcomes₂, hu₂, h₂⟩ := comes_lenlo h₁ (by rw [heq]; exact hle) hu₁
  obtain ⟨s₃, u₃, hround, hu₃, hsum, hkept⟩ := round_type h₂ hu₂
  exact ⟨_, s₃, u₃, hcomes₁.trans hcomes₂, hround, hu₃, hsum.trans hx.symm, hkept⟩

theorem decode_of_typed {data : List UInt8} {ch : UInt8} {c' : Cursor}
    (hcomes : (decodeRound data.length).Comes ⟨s, 0, data⟩ c)
    (hround : decodeRound data.length c = .ok (.inr (.typed ch c'))) :
    s.decode ctx data = dispatchFrame ctx data ch c' := by
  rw [UsbRxWatcher.decode, run_ok_of_comes decodeRound_decreases hcomes hround
    (Nat.lt_succ_self _)]
  rfl

/-- **A whole frame** is executed when its module is registered. -/
theorem decode_frame (ctx : Context) (f : ApFrame) (rest : List UInt8) (hg : STX_OCTET ∉ g)
    (hlength : s.InLength → g = []) : ∃ s' u,
    s.decode ctx (g ++ (f.wire ++ rest)) =
        .ok ⟨some (if ctx.getModule f.id then f.frame else .invalid), s', u⟩ ∧
      Synced (g ++ (f.wire ++ rest)).length u rest ∧ s'.m_cTstFrameState = .STX ∧
      s'.szRemainBuf = s.szRemainBuf := by
  have hdata : g ++ (f.wire ++ rest) = g ++ STX_OCTET :: (hostEscape (highByte f.length) ++
      (hostEscape (lowByte f.length) ++ (hostEscape RS232_INJECT_APPRIMITIVE_OCTET ++
        (f.content.flatMap hostEscape ++ (hostEscape f.checksum ++ rest))))) := by
    simp [ApFrame.wire, ApFrame.plain]
  generalize g ++ (f.wire ++ rest) = data at *
  have hsync : Synced data.length 0 (g ++ STX_OCTET :: (hostEscape (highByte f.length) ++
      (hostEscape (lowByte f.length) ++ (hostEscape RS232_INJECT_APPRIMITIVE_OCTET ++
        (f.content.flatMap hostEscape ++ (hostEscape f.checksum ++ rest)))))) := by
    rw [← hdata]
    exact synced_start data
  obtain ⟨s₁, u₁, hcomes₁, hu₁, h₁⟩ := comes_to_frame hg hlength hsync
  rw [← hdata] at hcomes₁
  obtain ⟨c, s₂, u₂, hcomes₂, hround, hu₂, hsum, hkept⟩ := comes_typed h₁ hu₁ rfl
  rw [decode_of_typed (hcomes₁.trans hcomes₂) hround, dispatchFrame_ap]
  have hstart := storedUpTo_startAP f s₂
  rw [hsum, hkept] at hstart
  obtain ⟨s₃, u₃, hcomes₃, hu₃, h₃⟩ :=
    comes_content ctx hstart (f.content.append_nil.symm) hu₂
  obtain ⟨s₄, u₄, hend, hu₄, hstate, hkept'⟩ := apRound_checksum ctx h₃ rfl hu₃
  refine ⟨s₄, u₄, ?_, hu₄, hstate, hkept'⟩
  exact run_ok_of_comes apRound_decreases hcomes₃ hend (Nat.lt_succ_self _)

theorem decode_of_end {data : List UInt8} {u : ℕ} (hshort : data.length < 65536)
    (hcomes : (decodeRound data.length).Comes ⟨s, 0, data⟩ ⟨t, u, []⟩)
    (hu : Synced data.length u []) : s.decode ctx data = .ok ⟨none, t, data.length⟩ := by
  have hend : u = data.length := hu.eq_iff.mpr ⟨hshort, rfl⟩
  have hround : decodeRound data.length ⟨t, u, []⟩ =
      .ok (.inr (.parsed ⟨none, t, data.length⟩)) := by
    rw [decodeRound, if_pos hend, hend]
  rw [UsbRxWatcher.decode, run_ok_of_comes decodeRound_decreases hcomes hround
    (Nat.lt_succ_self _)]
  rfl

/-- Where the content is cut off, `decodeAPFrame` has come to the end of the data. -/
theorem apRound_cut {q : List UInt8} {x : UInt8} (ctx : Context) (h : StoredUpTo f x kept p s)
    (hq : q = [] ∨ q = [MUX_KEY_WORD]) (hsync : Synced len u16Length q) (hshort : len < 65536) :
    ∃ s', apRound ctx len ⟨s, u16Length, q⟩ = .ok (.inr ⟨none, s', len⟩) ∧
      s'.szRemainBuf = kept := by
  rcases hq with rfl | rfl
  · have hend : u16Length = len := hsync.eq_iff.mpr ⟨hshort, rfl⟩
    rw [apRound, if_pos hend, hend]
    exact ⟨s, rfl, h.kept⟩
  · have hopen : u16Length ≠ len := hsync.not_end (List.cons_ne_nil _ _)
    have hend : u16 (u16Length + 1) = len := hsync.next.eq_iff.mpr ⟨hshort, rfl⟩
    rw [apRound, if_neg hopen]
    dsimp only
    rw [if_neg (by decide), h.apState.checkEscape, if_pos rfl]
    dsimp only
    rw [if_pos hend, hend]
    exact ⟨_, rfl, h.kept⟩

theorem cut_plain {q : List UInt8} (hpre : q <+: f.plain.flatMap hostEscape)
    (hne : q ≠ f.plain.flatMap hostEscape) :
    (q = [] ∨ q = [MUX_KEY_WORD]) ∨
    (∃ q', q = hostEscape (highByte f.length) ++ q' ∧ (q' = [] ∨ q' = [MUX_KEY_WORD])) ∨
    q = hostEscape (highByte f.length) ++ hostEscape (lowByte f.length) ∨
    ∃ bs more q', f.content = bs ++ more ∧ (q' = [] ∨ q' = [MUX_KEY_WORD]) ∧
      q = hostEscape (highByte f.length) ++ (hostEscape (lowByte f.length) ++
        (hostEscape RS232_INJECT_APPRIMITIVE_OCTET ++ (bs.flatMap hostEscape ++ q'))) := by
  rcases prefix_flatMap_hostEscape hpre with heq | ⟨bs₁, d, bs₂, q', hplain, rfl, hq'⟩
  · exact absurd heq hne
  have hcut : q' = [] ∨ q' = [MUX_KEY_WORD] := hq'.imp id And.left
  rw [ApFrame.plain] at hplain
  match bs₁ with
  | [] => exact .inl hcut
  | [b₀] =>
    obtain ⟨rfl, -⟩ : highByte f.length = b₀ ∧ _ := List.cons.inj hplain
    exact .inr (.inl ⟨q', by simp, hcut⟩)
  | [b₀, b₁] =>
    obtain ⟨rfl, rfl, rfl, -⟩ : highByte f.length = b₀ ∧ lowByte f.length = b₁ ∧
        RS232_INJECT_APPRIMITIVE_OCTET = d ∧ f.content ++ [f.checksum] = bs₂ := by
      simpa using hplain
    obtain rfl : q' = [] := hq'.resolve_right fun hbad => hbad.2 (by decide)
    exact .inr (.inr (.inl (by simp)))
  | b₀ :: b₁ :: b₂ :: bs =>
    obtain ⟨rfl, rfl, rfl, hcontent⟩ : highByte f.length = b₀ ∧ lowByte f.length = b₁ ∧
        RS232_INJECT_APPRIMITIVE_OCTET = b₂ ∧ f.content ++ [f.checksum] = bs ++ d :: bs₂ := by
      simpa using hplain
    refine .inr (.inr (.inr ?_))
    obtain ⟨more, hmore⟩ : ∃ more, f.content = bs ++ more := by
      rcases List.eq_nil_or_concat bs₂ with rfl | ⟨bs₂, b, rfl⟩
      · exact ⟨[], by rw [(List.append_inj' hcontent rfl).1, List.append_nil]⟩
      · rw [List.concat_eq_append, ← List.cons_append, ← List.append_assoc] at hcontent
        exact ⟨d :: bs₂, (List.append_inj' hcontent rfl).1⟩
    exact ⟨bs, more, q', hmore, hcut, by simp⟩

/-- **A frame that is cut off** leaves the position behind the data. -/
theorem decode_cut (ctx : Context) (f : ApFrame) {q : List UInt8} (hg : STX_OCTET ∉ g)
    (hlength : s.InLength → g = []) (hpre : STX_OCTET :: q <+: f.wire)
    (hne : STX_OCTET :: q ≠ f.wire) (hshort : (g ++ STX_OCTET :: q).length < 65536)
    (hcut : ¬ CutLength (g ++ STX_OCTET :: q)) : ∃ s',
    s.decode ctx (g ++ STX_OCTET :: q) = .ok ⟨none, s', (g ++ STX_OCTET :: q).length⟩ ∧
      s'.szRemainBuf = s.szRemainBuf := by
  have hsync := synced_start (g ++ STX_OCTET :: q)
  obtain ⟨s₁, u₁, hcomes₁, hu₁, h₁⟩ := comes_to_frame hg hlength hsync
  rw [ApFrame.wire] at hpre hne
  have hpre : q <+: f.plain.flatMap hostEscape := (List.cons_prefix_cons.mp hpre).2
  have hne : q ≠ f.plain.flatMap hostEscape := fun heq => hne (by rw [heq])
  rcases cut_plain hpre hne with (rfl | rfl) | ⟨q', rfl, rfl | rfl⟩ | rfl |
    ⟨bs, more, q', hcontent, hq', rfl⟩
  · exact ⟨s₁, decode_of_end hshort hcomes₁ hu₁, h₁.kept⟩
  · exact absurd ⟨g, .inl rfl⟩ hcut
  · obtain ⟨s₂, u₂, hcomes₂, hu₂, h₂⟩ := comes_lenhi h₁ hu₁
    exact ⟨s₂, decode_of_end hshort (hcomes₁.trans hcomes₂) hu₂, h₂.kept⟩
  · exact absurd ⟨g, .inr ⟨_, rfl⟩⟩ hcut
  · obtain ⟨s₂, u₂, hcomes₂, hu₂, h₂⟩ := comes_lenhi h₁ hu₁
    obtain ⟨heq, hle⟩ := length_eq f
    obtain ⟨s₃, u₃, hcomes₃, hu₃, h₃⟩ :=
      comes_lenlo h₂ (by rw [heq]; exact hle) (by rw [List.append_nil]; exact hu₂)
    rw [List.append_nil] at hcomes₃
    exact ⟨s₃, decode_of_end hshort ((hcomes₁.trans hcomes₂).trans hcomes₃) hu₃, h₃.kept⟩
  · obtain ⟨c, s₂, u₂, hcomes₂, hround, hu₂, hsum, hkept⟩ := comes_typed h₁ hu₁ rfl
    rw [decode_of_typed (hcomes₁.trans hcomes₂) hround, dispatchFrame_ap]
    have hstart := storedUpTo_startAP f s₂
    rw [hsum, hkept] at hstart
    obtain ⟨s₃, u₃, hcomes₃, hu₃, h₃⟩ := comes_content ctx hstart hcontent hu₂
    obtain ⟨s₄, hend, hkept'⟩ := apRound_cut ctx h₃ hq' hu₃ hshort
    exact ⟨s₄, run_ok_of_comes apRound_decreases hcomes₃ hend (Nat.lt_succ_self _), hkept'⟩

theorem decode_between (h : s.m_cTstFrameState = .STX) (hg : STX_OCTET ∉ g)
    (hshort : g.length < 65536) : s.decode ctx g = .ok ⟨none, s, g.length⟩ := by
  have hsync : Synced g.length 0 (g ++ []) := by
    rw [List.append_nil]
    exact synced_start g
  obtain ⟨u, hcomes, hu⟩ := comes_skip h hg hsync
  rw [List.append_nil] at hcomes
  exact decode_of_end hshort hcomes hu

end UsbRxWatcher

end MtkHardware.Meta
