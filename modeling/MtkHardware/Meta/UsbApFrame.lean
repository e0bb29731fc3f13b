import MtkHardware.Meta.UsbRxWatcher

/-!
# Frames of the AP

`decodeAPFrame` takes the escapes out of the bytes behind the type and stores what is left, the
content: four bytes into the `PRIM_HEADER`, then what the header announces into a buffer that has
been allocated for it. The state goes on behind the header only when `local_len` is not zero.
-/

namespace MtkHardware.Meta

/-- The content of the bytes behind a type. It ends at a start byte, and where the data end in an
escape. -/
def content : List UInt8 → List UInt8
  | [] => []
  | ch :: rest =>
    if ch = STX_OCTET then []
    else if ch = MUX_KEY_WORD then
      match rest with
      | [] => []
      | next :: rest' =>
        if next = MUX_KEY_WORD then MUX_KEY_WORD :: content rest'
        else if next = 0x01 then STX_OCTET :: content rest'
        else MUX_KEY_WORD :: content (next :: rest')
    else ch :: content rest

/-- The next byte of the content, with what comes behind it. -/
def nextContent : List UInt8 → Option (UInt8 × List UInt8)
  | [] => none
  | ch :: rest =>
    if ch = STX_OCTET then none
    else if ch = MUX_KEY_WORD then
      match rest with
      | [] => none
      | next :: rest' =>
        if next = MUX_KEY_WORD then some (MUX_KEY_WORD, rest')
        else if next = 0x01 then some (STX_OCTET, rest')
        else some (MUX_KEY_WORD, next :: rest')
    else some (ch, rest)

theorem content_eq (src : List UInt8) : content src =
    match nextContent src with
    | none => []
    | some (b, rest) => b :: content rest := by
  cases src with
  | nil => rfl
  | cons ch rest =>
    rw [content.eq_def, nextContent.eq_def]
    dsimp only
    split
    · rfl
    split
    · cases rest with
      | nil => rfl
      | cons next rest =>
        dsimp only
        split
        · rfl
        split <;> rfl
    · rfl

theorem content_none {src : List UInt8} (h : nextContent src = none) : content src = [] := by
  rw [content_eq, h]

theorem content_some {src rest : List UInt8} {b : UInt8} (h : nextContent src = some (b, rest)) :
    content src = b :: content rest := by
  rw [content_eq, h]

/-- `u16Length` counts the bytes that have been taken. -/
structure Synced (input_len u16Length : ℕ) (src : List UInt8) : Prop where
  count : u16Length = u16 (input_len - src.length)
  length : src.length ≤ input_len

section Synced

variable {input_len u16Length : ℕ} {src rest : List UInt8} {ch : UInt8}

theorem Synced.le (h : Synced input_len u16Length src) : u16Length ≤ input_len := by
  rw [h.count]
  exact (Nat.mod_le _ _).trans (Nat.sub_le _ _)

theorem Synced.next (h : Synced input_len u16Length (ch :: src)) :
    Synced input_len (u16 (u16Length + 1)) src := by
  have hlength := h.length
  rw [List.length_cons] at hlength
  refine ⟨?_, by omega⟩
  rw [h.count, List.length_cons, u16, u16, u16]
  omega

theorem Synced.eq_iff (h : Synced input_len u16Length src) :
    u16Length = input_len ↔ input_len < 65536 ∧ src = [] := by
  have hlength := h.length
  rw [h.count, u16, ← List.length_eq_zero_iff]
  omega

theorem Synced.not_end (h : Synced input_len u16Length src) (hne : src ≠ []) :
    u16Length ≠ input_len := fun heq => hne (h.eq_iff.mp heq).2

theorem Synced.lt (h : Synced input_len u16Length src) : u16Length < 65536 := by
  rw [h.count]
  exact Nat.mod_lt _ (by decide)

theorem Synced.long (h : Synced input_len u16Length []) (hne : u16Length ≠ input_len) :
    65536 ≤ input_len := by
  by_contra hshort
  exact hne (h.eq_iff.mpr ⟨by omega, rfl⟩)

theorem Synced.short (h : Synced input_len u16Length src) (heq : u16Length = input_len) :
    ¬ 65536 ≤ input_len := by
  have hshort := (h.eq_iff.mp heq).1
  omega

end Synced

namespace UsbRxWatcher

variable {ctx : Context} {s : UsbRxWatcher} {input_len : ℕ} {c : Cursor} {ch b : UInt8}
  {rest : List UInt8}


/-- `decodeAPFrame` is at work. -/
def ApState (s : UsbRxWatcher) : Prop :=
  s.m_cTstFrameState = .AP_INJECT_PIRIMITIVE_HEADER ∨
    s.m_cTstFrameState = .AP_PRIM_LOCAL_PARA_DATA ∨ s.m_cTstFrameState = .CHECKSUM

theorem ApState.checkEscape (h : s.ApState) (ch : UInt8) : s.checkEscape ch =
    if ch = MUX_KEY_WORD then
      ({ s with m_cOldTstFrameState := s.m_cTstFrameState, m_cTstFrameState := .KEYWORD }, true)
    else (s, false) := by
  have hstate : s.m_cTstFrameState ≠ .KEYWORD ∧ s.m_cTstFrameState ≠ .MD_DATA := by
    rcases h with h | h | h <;> rw [h] <;> decide
  rw [UsbRxWatcher.checkEscape]
  by_cases hch : ch = MUX_KEY_WORD
  · rw [if_pos ⟨hch, hstate⟩, if_pos hch]
  · rw [if_neg fun h => hch h.1, if_neg hch]

/-- An escape leaves a trace in `m_cOldTstFrameState` only. -/
theorem escape_cons (state : FrameState) (u16Length : ℕ) (next : UInt8) (rest : List UInt8) :
    { s with m_cOldTstFrameState := state, m_cTstFrameState := .KEYWORD }.escape u16Length
      (next :: rest) = .ok
        (if next = MUX_KEY_WORD then (true, MUX_KEY_WORD,
          ⟨{ s with m_cOldTstFrameState := state, m_cTstFrameState := state },
            u16 (u16Length + 1), rest⟩)
        else if next = 0x01 then (true, STX_OCTET,
          ⟨{ s with m_cOldTstFrameState := state, m_cTstFrameState := state },
            u16 (u16Length + 1), rest⟩)
        else (false, MUX_KEY_WORD,
          ⟨{ s with m_cOldTstFrameState := state, m_cTstFrameState := state },
            u16Length, next :: rest⟩)) := by
  simp only [escape, transferFrame, if_true]
  by_cases hmux : next = MUX_KEY_WORD
  · simp only [hmux, if_true]
  by_cases hone : next = 0x01
  · simp only [hone, if_true]
    rfl
  · simp only [hmux, hone, if_false]

theorem apRound_some (ctx : Context) (hap : c.watcher.ApState)
    (hsync : Synced input_len c.u16Length c.src)
    (h : nextContent c.src = some (b, rest)) : ∃ o u16Length,
      apRound ctx input_len c =
        apByte ctx b ⟨{ c.watcher with m_cOldTstFrameState := o }, u16Length, rest⟩ ∧
      Synced input_len u16Length rest := by
  cases hsrc : c.src with
  | nil =>
    rw [hsrc] at h
    cases h
  | cons ch src =>
    rw [hsrc] at h hsync
    have hopen : c.u16Length ≠ input_len := fun heq => nomatch (hsync.eq_iff.mp heq).2
    rw [nextContent.eq_def] at h
    dsimp only at h
    rw [apRound, if_neg hopen, hsrc]
    dsimp only
    split at h
    · cases h
    rename_i hstx
    rw [if_neg hstx, hap.checkEscape]
    split at h
    · rename_i hmux
      rw [if_pos hmux]
      cases src with
      | nil => cases h
      | cons next src =>
        have hopen' : u16 (c.u16Length + 1) ≠ input_len :=
          fun heq => nomatch (hsync.next.eq_iff.mp heq).2
        dsimp only at h ⊢
        rw [if_neg hopen', escape_cons]
        split at h
        · cases h
          rename_i hnext
          simp only [hnext, if_true]
          exact ⟨_, _, rfl, hsync.next.next⟩
        split at h
        · cases h
          rename_i hmux' hone
          simp only [hmux', hone, if_false, if_true]
          exact ⟨_, _, rfl, hsync.next.next⟩
        · cases h
          rename_i hmux' hone
          simp only [hmux', hone, if_false]
          exact ⟨_, _, rfl, hsync.next⟩
    · cases h
      rename_i hmux
      rw [if_neg hmux]
      exact ⟨c.watcher.m_cOldTstFrameState, _, rfl, hsync.next⟩

/-- Where there is no next byte the loop ends without a frame; with too much data it does not see
the end of it. -/
theorem apRound_none (ctx : Context) (hap : c.watcher.ApState)
    (hsync : Synced input_len c.u16Length c.src)
    (h : nextContent c.src = none) :
    (65536 ≤ input_len ∧ (c.src = [] ∨ c.src = [MUX_KEY_WORD]) ∧
      apRound ctx input_len c = .error .input) ∨
    ∃ p, apRound ctx input_len c = .ok (.inr p) ∧ p.frame = none ∧ p.u16Length ≤ input_len ∧
      ((c.src = [] ∨ c.src = [MUX_KEY_WORD]) → input_len < 65536 ∧ p.u16Length = input_len) := by
  cases hsrc : c.src with
  | nil =>
    rw [hsrc] at hsync
    by_cases hend : c.u16Length = input_len
    · rw [apRound, if_pos hend]
      exact .inr ⟨_, rfl, rfl, hend.le, fun _ => ⟨(hsync.eq_iff.mp hend).1, hend⟩⟩
    · have hlong : 65536 ≤ input_len := by
        by_contra hshort
        exact hend (hsync.eq_iff.mpr ⟨by omega, rfl⟩)
      rw [apRound, if_neg hend, hsrc]
      exact .inl ⟨hlong, .inl rfl, rfl⟩
  | cons ch src =>
    rw [hsrc] at h hsync
    have hopen : c.u16Length ≠ input_len := fun heq => nomatch (hsync.eq_iff.mp heq).2
    rw [nextContent.eq_def] at h
    dsimp only at h
    rw [apRound, if_neg hopen, hsrc]
    dsimp only
    split at h
    · rename_i hstx
      rw [if_pos hstx]
      refine .inr ⟨_, rfl, rfl, hsync.next.le, fun hend => ?_⟩
      rcases hend with hend | hend
      · cases hend
      · cases hend
        exact absurd hstx (by decide)
    rename_i hstx
    split at h
    · rename_i hmux
      subst hmux
      rw [if_neg hstx, hap.checkEscape, if_pos rfl]
      cases src with
      | nil =>
        dsimp only
        by_cases hend : u16 (c.u16Length + 1) = input_len
        · rw [if_pos hend]
          exact .inr ⟨_, rfl, rfl, hend.le, fun _ => ⟨(hsync.next.eq_iff.mp hend).1, hend⟩⟩
        · have hlong : 65536 ≤ input_len := by
            by_contra hshort
            exact hend (hsync.next.eq_iff.mpr ⟨by omega, rfl⟩)
          rw [if_neg hend]
          exact .inl ⟨hlong, .inr rfl, rfl⟩
      | cons next src =>
        dsimp only at h
        split at h
        · cases h
        split at h <;> cases h
    · cases h

/-! ### What has been stored -/

/-- The first two bytes of the header, `local_len`, are zero. -/
def ZeroLocal (p : List UInt8) : Prop := p.take 2 = [0, 0]

theorem zeroLocal_append {p : List UInt8} (h : 2 ≤ p.length) (q : List UInt8) :
    ZeroLocal (p ++ q) ↔ ZeroLocal p := by
  rw [ZeroLocal, ZeroLocal, List.take_append_of_le_length h]

theorem toNat_eq_zero_iff {b : UInt8} : b.toNat = 0 ↔ b = 0 := by
  rw [← UInt8.toNat_inj]
  rfl

theorem local_len_eq_zero_iff (v : Vector UInt8 4) :
    (getElem v 0 (by decide)).toNat + 256 * (getElem v 1 (by decide)).toNat = 0 ↔
      ZeroLocal v.toList := by
  obtain ⟨⟨l⟩, hl⟩ := v
  match l, hl with
  | [b₀, b₁, b₂, b₃], _ =>
    have h₀ := toNat_eq_zero_iff (b := b₀)
    have h₁ := toNat_eq_zero_iff (b := b₁)
    simp only [ZeroLocal, Vector.toList_mk, List.take_succ_cons, List.take_zero,
      List.cons.injEq, and_true, ← h₀, ← h₁]
    change b₀.toNat + 256 * b₁.toNat = 0 ↔ _
    omega

/-- The bytes are stored in the header, and the state has not gone on. -/
structure InHeader (p : List UInt8) (s : UsbRxWatcher) : Prop where
  state : s.m_cTstFrameState = .AP_INJECT_PIRIMITIVE_HEADER
  header_ptr : s.m_sRs232Frame.header_ptr = p.length
  received : s.m_sRs232Frame.received_prig_header_length = p.length
  para : s.m_sRs232Frame.received_buf_para_length = 0
  stored : s.m_sRs232Frame.inject_prim.toList.take p.length = p
  length : p.length ≤ 4
  zero : p.length = 4 → ZeroLocal p

structure BehindHeader (p : List UInt8) (s : UsbRxWatcher) : Prop where
  length : 4 ≤ p.length
  nonzero : ¬ ZeroLocal p
  state : (s.m_cTstFrameState = .AP_PRIM_LOCAL_PARA_DATA ∧
      s.m_sRs232Frame.received_buf_para_length < 65536 ∧
      s.m_sRs232Frame.received_buf_para_length <
        s.m_sRs232Frame.local_len + s.m_sRs232Frame.peer_len) ∨
    s.m_cTstFrameState = .CHECKSUM

theorem inHeader_startAP (s : UsbRxWatcher) : InHeader [] s.startAP :=
  ⟨rfl, rfl, rfl, rfl, rfl, Nat.zero_le _, nofun⟩

def headed (s : UsbRxWatcher) (v : Vector UInt8 4) (n : ℕ) : UsbRxWatcher :=
  { s with
    m_sRs232Frame := { s.m_sRs232Frame with
      inject_prim := v, header_ptr := n, received_prig_header_length := n } }

theorem InHeader.apHeader_eq {p : List UInt8} (h : InHeader p s) (hlen : p.length < 4)
    (b : UInt8) : ∃ v : Vector UInt8 4, v.toList.take (p.length + 1) = p ++ [b] ∧
      s.apHeader b = .ok (
        if p.length + 1 = 4 ∧ v[0].toNat + 256 * v[1].toNat ≠ 0 then
          { s.headed v (p.length + 1) with
            m_cTstFrameState := .AP_PRIM_LOCAL_PARA_DATA }.reallocFrameBuf
            (v[0].toNat + 256 * v[1].toNat + (v[2].toNat + 256 * v[3].toNat) + 1)
        else s.headed v (p.length + 1)) := by
  have hptr : s.m_sRs232Frame.header_ptr < 4 := by rw [h.header_ptr]; exact hlen
  have hreceived : u16 (s.m_sRs232Frame.received_prig_header_length + 1) = p.length + 1 := by
    rw [h.received]
    exact u16_of_lt (lt_trans (by omega : p.length + 1 < 5) (by decide))
  refine ⟨s.m_sRs232Frame.inject_prim.set s.m_sRs232Frame.header_ptr b hptr, ?_, ?_⟩
  · rw [← h.header_ptr, take_set_succ hptr, h.header_ptr, h.stored]
  · rw [UsbRxWatcher.apHeader, writeAt_natCast hptr]
    simp only [hreceived, bind, Except.bind, pure, Except.pure, PRIM_FRAME.local_len,
      PRIM_FRAME.peer_len, headed, h.header_ptr]
    split <;> rfl

/-- A byte of the header is stored, and with the last one the state goes on unless `local_len` is
zero. -/
theorem InHeader.apHeader {p : List UInt8} (h : InHeader p s) (hlen : p.length < 4) (b : UInt8) :
    ∃ s', s.apHeader b = .ok s' ∧ (InHeader (p ++ [b]) s' ∨ BehindHeader (p ++ [b]) s') := by
  obtain ⟨v, hv, hs'⟩ := h.apHeader_eq hlen b
  have hlength : (p ++ [b]).length = p.length + 1 := by simp
  have hfour : p.length + 1 = 4 → v.toList = p ++ [b] := fun hfour => by
    rw [hfour, List.take_of_length_le (by simp)] at hv
    exact hv
  refine ⟨_, hs', ?_⟩
  split
  · rename_i hgo
    have hlocal : ¬ ZeroLocal (p ++ [b]) := by
      rw [← hfour hgo.1, ← local_len_eq_zero_iff]
      exact hgo.2
    refine .inr ⟨by omega, hlocal, .inl ⟨rfl, ?_, ?_⟩⟩
    · simp only [reallocFrameBuf, headed, h.para]
      decide
    · simp only [reallocFrameBuf, headed, h.para]
      exact Nat.add_pos_left (Nat.pos_of_ne_zero hgo.2) _
  · rename_i hstay
    refine .inl ⟨h.state, hlength.symm, hlength.symm, h.para, ?_, by omega, fun hlast => ?_⟩
    · rw [hlength]
      exact hv
    · have hzero := not_not.mp fun hne => hstay ⟨by omega, hne⟩
      rw [local_len_eq_zero_iff, hfour (by omega)] at hzero
      exact hzero

theorem InHeader.apHeader_full {p : List UInt8} (h : InHeader p s) (hlen : p.length = 4)
    (b : UInt8) : s.apHeader b = .error .header := by
  rw [UsbRxWatcher.apHeader, writeAt, dif_neg (by rw [h.header_ptr, hlen]; decide)]
  rfl

theorem BehindHeader.apPara {p : List UInt8} (h : BehindHeader p s)
    (hstate : s.m_cTstFrameState = .AP_PRIM_LOCAL_PARA_DATA) (b : UInt8) :
    ∃ s', s.apPara b = .ok s' ∧ BehindHeader (p ++ [b]) s' := by
  have hroom : s.m_sRs232Frame.received_buf_para_length < 65536 ∧
      s.m_sRs232Frame.received_buf_para_length <
        s.m_sRs232Frame.local_len + s.m_sRs232Frame.peer_len := by
    rcases h.state with ⟨-, hroom⟩ | hsum
    · exact hroom
    · rw [hsum] at hstate
      cases hstate
  have hlength : 4 ≤ (p ++ [b]).length := by
    rw [List.length_append]
    exact h.length.trans (Nat.le_add_right _ _)
  have hnonzero : ¬ ZeroLocal (p ++ [b]) := by
    rw [zeroLocal_append (le_trans (by decide) h.length)]
    exact h.nonzero
  rw [UsbRxWatcher.apPara, if_neg fun hfull => absurd hroom.2 (not_lt.mpr hfull.2)]
  dsimp only
  split
  · exact ⟨_, rfl, hlength, hnonzero, .inr rfl⟩
  · rename_i hmore
    refine ⟨_, rfl, hlength, hnonzero, .inl ⟨hstate, u16_lt _, ?_⟩⟩
    simp only [PRIM_FRAME.local_len, PRIM_FRAME.peer_len, u16] at hmore hroom ⊢
    omega

theorem apByte_header (h : c.watcher.m_cTstFrameState = .AP_INJECT_PIRIMITIVE_HEADER) :
    apByte ctx b c = (c.watcher.apHeader b).map fun s =>
      .inl { c with watcher := { s with m_checksum := s.m_checksum ^^^ b } } := by
  simp only [apByte, h]
  rfl

theorem apByte_para (h : c.watcher.m_cTstFrameState = .AP_PRIM_LOCAL_PARA_DATA) :
    apByte ctx b c = (c.watcher.apPara b).map fun s =>
      .inl { c with watcher := { s with m_checksum := s.m_checksum ^^^ b } } := by
  simp only [apByte, h]
  rfl

theorem apByte_checksum (h : c.watcher.m_cTstFrameState = .CHECKSUM) : apByte ctx b c =
    if c.watcher.m_checksum ≠ b then
      .ok (.inr ⟨some .invalid, { c.watcher with m_cTstFrameState := .STX }, c.u16Length⟩)
    else
      let s := { c.watcher with
        m_cTstFrameState := .STX
        m_sRs232Frame := { c.watcher.m_sRs232Frame with received_buf_para_length := 0 }
        m_checksum := STX_OCTET }
      .ok (.inr ⟨some (s.sendFtTask ctx), s, c.u16Length⟩) := by
  simp only [apByte, h]
  rfl

/-- What `decodeAPFrame` has come to behind some of the content. -/
structure ApAt (input_len : ℕ) (src : List UInt8) (p : List UInt8) (c : Cursor) : Prop where
  content : content src = p ++ content c.src
  synced : Synced input_len c.u16Length c.src
  stored : InHeader p c.watcher ∨ BehindHeader p c.watcher

theorem ApAt.state {src p : List UInt8} (h : ApAt input_len src p c) : c.watcher.ApState := by
  rcases h.stored with hin | hbehind
  · exact .inl hin.state
  · rcases hbehind.state with ⟨hstate, -⟩ | hstate
    · exact .inr (.inl hstate)
    · exact .inr (.inr hstate)

/-- **The round**: the loop ends where there is no content, goes past the header, or goes on with
one more byte of the content or to the end of a frame. -/
theorem ApAt.round {src p : List UInt8} (h : ApAt input_len src p c) (ctx : Context) :
    (nextContent c.src = none ∧ ((65536 ≤ input_len ∧
        (c.src = [] ∨ c.src = [MUX_KEY_WORD]) ∧ apRound ctx input_len c = .error .input) ∨
      ∃ r, apRound ctx input_len c = .ok (.inr r) ∧ r.u16Length ≤ input_len)) ∨
    ∃ b rest, nextContent c.src = some (b, rest) ∧
      ((InHeader p c.watcher ∧ p.length = 4 ∧ apRound ctx input_len c = .error .header) ∨
        (∃ c', apRound ctx input_len c = .ok (.inl c') ∧ c'.src = rest ∧
          ApAt input_len src (p ++ [b]) c') ∨
        (BehindHeader p c.watcher ∧
          ∃ r, apRound ctx input_len c = .ok (.inr r) ∧ r.u16Length ≤ input_len)) := by
  cases hnext : nextContent c.src with
  | none =>
    refine .inl ⟨rfl, ?_⟩
    rcases apRound_none ctx h.state h.synced hnext with hlong | ⟨r, hr, -, hle, -⟩
    · exact .inl hlong
    · exact .inr ⟨r, hr, hle⟩
  | some r =>
    obtain ⟨b, rest⟩ := r
    refine .inr ⟨b, rest, rfl, ?_⟩
    obtain ⟨o, u16Length, hround, hsync⟩ := apRound_some ctx h.state h.synced hnext
    have hcontent : Meta.content src = (p ++ [b]) ++ Meta.content rest := by
      rw [h.content, content_some hnext, List.append_assoc, List.singleton_append]
    rw [hround]
    rcases h.stored with hin | hbehind
    · have hin' : InHeader p { c.watcher with m_cOldTstFrameState := o } :=
        ⟨hin.state, hin.header_ptr, hin.received, hin.para, hin.stored, hin.length, hin.zero⟩
      rw [apByte_header (c := ⟨_, u16Length, rest⟩) hin'.state]
      by_cases hfull : p.length = 4
      · rw [hin'.apHeader_full hfull]
        exact .inl ⟨hin, hfull, rfl⟩
      · obtain ⟨s', hs', hstored⟩ := hin'.apHeader (lt_of_le_of_ne hin.length hfull) b
        rw [hs']
        refine .inr (.inl ⟨_, rfl, rfl, hcontent, hsync, ?_⟩)
        rcases hstored with h' | h'
        · exact .inl ⟨h'.state, h'.header_ptr, h'.received, h'.para, h'.stored, h'.length,
            h'.zero⟩
        · exact .inr ⟨h'.length, h'.nonzero, h'.state⟩
    · have hbehind' : BehindHeader p { c.watcher with m_cOldTstFrameState := o } :=
        ⟨hbehind.length, hbehind.nonzero, hbehind.state⟩
      rcases hbehind.state with ⟨hstate, -⟩ | hstate
      · rw [apByte_para (c := ⟨{ c.watcher with m_cOldTstFrameState := o }, u16Length, rest⟩)
          hstate]
        obtain ⟨s', hs', h'⟩ := hbehind'.apPara hstate b
        rw [hs']
        exact .inr (.inl ⟨_, rfl, rfl, hcontent, hsync, .inr ⟨h'.length, h'.nonzero, h'.state⟩⟩)
      · rw [apByte_checksum (c := ⟨{ c.watcher with m_cOldTstFrameState := o }, u16Length, rest⟩)
          hstate]
        refine .inr (.inr ⟨hbehind, ?_⟩)
        split
        · exact ⟨_, rfl, hsync.le⟩
        · exact ⟨_, rfl, hsync.le⟩

/-! ### The loop -/

theorem escape_length {u16Length : ℕ} {src : List UInt8} {r : Bool × UInt8 × Cursor}
    (h : s.escape u16Length src = .ok r) : r.2.2.src.length ≤ src.length := by
  cases src with
  | nil => cases h
  | cons next rest =>
    rw [escape] at h
    split at h
    · cases h
      exact Nat.le_succ _
    · cases h
      exact le_rfl

theorem apByte_src {c' : Cursor} (h : apByte ctx b c = .ok (.inl c')) : c'.src = c.src := by
  rw [apByte] at h
  dsimp only at h
  split at h
  · obtain ⟨s', -, h⟩ := bind_ok_iff.mp h
    cases h
    rfl
  · obtain ⟨s', -, h⟩ := bind_ok_iff.mp h
    cases h
    rfl
  · split at h <;> cases h
  · cases h
    rfl

theorem apRound_decreases : (apRound ctx input_len).Decreases fun c => c.src.length := by
  intro c c' h
  rw [apRound] at h
  split at h
  · cases h
  split at h
  · cases h
  rename_i ch rest hsrc
  dsimp only at h ⊢
  rw [hsrc, List.length_cons]
  split at h
  · cases h
  split at h
  · rw [apByte_src h]
    exact Nat.lt_succ_self _
  · split at h
    · cases h
    · obtain ⟨r, hr, h⟩ := bind_ok_iff.mp h
      rw [apByte_src h]
      exact Nat.lt_succ_of_le (escape_length hr)

theorem ApAt.comes {src p : List UInt8} {c₀ : Cursor} (h : ApAt input_len src p c₀)
    (hcomes : (apRound ctx input_len).Comes c₀ c) : ∃ p, ApAt input_len src p c := by
  refine hcomes.invariant (I := fun c => ∃ p, ApAt input_len src p c) ⟨p, h⟩
    fun t t' ⟨p, ht⟩ hround => ?_
  rcases ht.round ctx with ⟨-, hend⟩ | ⟨b, rest, -, hfull | ⟨c', hc', -, h'⟩ | ⟨-, r, hr, -⟩⟩
  · rcases hend with ⟨-, -, hend⟩ | ⟨r, hr, -⟩
    · rw [hround] at hend
      cases hend
    · rw [hround] at hr
      cases hr
  · rw [hround] at hfull
    exact absurd hfull.2.2 nofun
  · rw [hround] at hc'
    cases hc'
    exact ⟨_, h'⟩
  · rw [hround] at hr
    cases hr

theorem dispatchFrame_ap (buf : List UInt8) :
    dispatchFrame ctx buf RS232_INJECT_APPRIMITIVE_OCTET c =
      decodeAPFrame ctx buf.length { c with watcher := c.watcher.startAP } := rfl

theorem synced_behind (pre src : List UInt8) :
    Synced (pre ++ src).length (u16 pre.length) src := by
  refine ⟨?_, by simp⟩
  rw [List.length_append, Nat.add_sub_cancel]

theorem apAt_start {u16Length : ℕ} {src : List UInt8} (h : Synced input_len u16Length src)
    (s : UsbRxWatcher) : ApAt input_len src [] ⟨s.startAP, u16Length, src⟩ :=
  ⟨rfl, h, .inl (inHeader_startAP s)⟩

theorem decodeAPFrame_ne_frameBuf {u16Length : ℕ} {src : List UInt8}
    (h : Synced input_len u16Length src) :
    decodeAPFrame ctx input_len ⟨s.startAP, u16Length, src⟩ ≠ .error .frameBuf := by
  intro hfault
  obtain ⟨c, hcomes, hround⟩ :=
    (Loop.run_eq_error_iff apRound_decreases (Nat.lt_succ_self _)).mp hfault
  obtain ⟨p, hc⟩ := (apAt_start h s).comes hcomes
  rcases hc.round ctx with ⟨-, hend⟩ | ⟨b, rest, -, hfull | ⟨c', hc', -⟩ | ⟨-, r, hr, -⟩⟩
  · rcases hend with ⟨-, -, hend⟩ | ⟨r, hr, -⟩
    · rw [hround] at hend
      cases hend
    · rw [hround] at hr
      cases hr
  · rw [hround] at hfull
    cases hfull.2.2
  · rw [hround] at hc'
    cases hc'
  · rw [hround] at hr
    cases hr

/-- The header overflows exactly when `local_len` is zero and a byte comes behind the header. -/
theorem decodeAPFrame_header_iff (ctx : Context) (s : UsbRxWatcher) {u16Length : ℕ}
    {src : List UInt8} (h : Synced input_len u16Length src) :
    decodeAPFrame ctx input_len ⟨s.startAP, u16Length, src⟩ = .error .header ↔
      4 < (content src).length ∧ ZeroLocal (content src) := by
  constructor
  · intro hfault
    obtain ⟨c, hcomes, hround⟩ :=
      (Loop.run_eq_error_iff apRound_decreases (Nat.lt_succ_self _)).mp hfault
    obtain ⟨p, hc⟩ := (apAt_start h s).comes hcomes
    rcases hc.round ctx with ⟨-, hend⟩ | ⟨b, rest, hnext, hfull | ⟨c', hc', -⟩ | ⟨-, r, hr, -⟩⟩
    · rcases hend with ⟨-, -, hend⟩ | ⟨r, hr, -⟩
      · rw [hround] at hend
        cases hend
      · rw [hround] at hr
        cases hr
    · obtain ⟨hin, hlength, -⟩ := hfull
      rw [hc.content, content_some hnext, zeroLocal_append (by omega), List.length_append,
        List.length_cons]
      exact ⟨by omega, hin.zero hlength⟩
    · rw [hround] at hc'
      cases hc'
    · rw [hround] at hr
      cases hr
  · rintro ⟨hlength, hzero⟩
    obtain ⟨c, hcomes, hlast⟩ :=
      Loop.exists_last (L := apRound ctx input_len) apRound_decreases
        ⟨s.startAP, u16Length, src⟩
    refine Loop.run_error_of_comes apRound_decreases hcomes ?_ (Nat.lt_succ_self _)
    obtain ⟨p, hc⟩ := (apAt_start h s).comes hcomes
    -- the bytes that have gone behind the header are not those of a header with a zero `local_len`
    have hstays : ¬ BehindHeader p c.watcher := fun hbehind => by
      rw [hc.content, zeroLocal_append (le_trans (by decide) hbehind.length)] at hzero
      exact hbehind.nonzero hzero
    rcases hc.round ctx with ⟨hnone, -⟩ | ⟨b, rest, -, hfull | ⟨c', hc', -⟩ | ⟨hbehind, -⟩⟩
    · have hall := hc.content
      rw [content_none hnone, List.append_nil] at hall
      have hin := hc.stored.resolve_right hstays
      rw [hall] at hlength
      exact absurd hin.length (not_le.mpr hlength)
    · exact hfull.2.2
    · rcases hlast with ⟨r, hr⟩ | ⟨e, he⟩
      · rw [hc'] at hr
        cases hr
      · rw [hc'] at he
        cases he
    · exact absurd hbehind hstays

end UsbRxWatcher

open UsbRxWatcher in
/-- **Stores of `decodeAPFrame`**: behind the type byte of any data, no byte is stored past the
`PRIM_HEADER` and none past the bytes that it announces, exactly when the content is not longer than
the header or `local_len` is not zero. -/
theorem stored_within_iff (ctx : Context) (s : UsbRxWatcher) (pre src : List UInt8) :
    (dispatchFrame ctx (pre ++ src) RS232_INJECT_APPRIMITIVE_OCTET ⟨s, u16 pre.length, src⟩ ≠
        .error .header ∧
      dispatchFrame ctx (pre ++ src) RS232_INJECT_APPRIMITIVE_OCTET ⟨s, u16 pre.length, src⟩ ≠
        .error .frameBuf) ↔
      ¬ (4 < (content src).length ∧ ZeroLocal (content src)) := by
  rw [dispatchFrame_ap, ← decodeAPFrame_header_iff ctx s (synced_behind pre src)]
  exact and_iff_left (decodeAPFrame_ne_frameBuf (synced_behind pre src))

/-- A byte behind a header with a zero `local_len`, in the data of a whole frame. -/
theorem zero_local_overflows : UsbRxWatcher.dispatchFrame (.usb [])
    ([0x55, 0x00, 0x0A, 0x66] ++ [0x00, 0x00, 0x01, 0x00, 0x00, 0x38])
    RS232_INJECT_APPRIMITIVE_OCTET ⟨{}, u16 4, [0x00, 0x00, 0x01, 0x00, 0x00, 0x38]⟩ =
      .error .header := rfl

end MtkHardware.Meta
