import MtkHardware.Meta.MdRxWatcher

/-!
# The Frames of the Protocol Stack

The modem sends frames and nothing else, and the calls of `process` cut them anywhere. A frame is
forwarded as it is when the counts of `process` are right for it, which they are not in three cases:
the end of the content is looked for behind a byte of content only; the escape of the high byte of
the length is counted in an `m_frmLen` that is then overwritten; and the length that
`processMDConfirm` is given is an `unsigned short`.

In the other direction what counts is that no byte may be lost: the bytes that have been sent and
those that are held are at most those that have come, so that a frame which is sent as it is was
sent with its last byte.
-/

namespace MtkHardware.Meta

/-- A byte as `fillDataToTSTBuffer` puts it into a buffer. -/
def fillDataToTSTBuffer (data : UInt8) : List UInt8 :=
  if data = MUX_KEY_WORD then [MUX_KEY_WORD, MUX_KEY_WORD]
  else if data = STX_L1HEADER then [MUX_KEY_WORD, 0x01]
  else [data]

def lenHi (content : List UInt8) : UInt8 := (content.length / 256).toUInt8

def lenLo (content : List UInt8) : UInt8 := content.length.toUInt8

def checksum (content : List UInt8) : UInt8 :=
  (lenHi content :: lenLo content :: content).foldl (· ^^^ ·) STX_OCTET

def wire (content : List UInt8) : List UInt8 :=
  STX_OCTET :: (lenHi content :: lenLo content :: content ++ [checksum content]).flatMap
    fillDataToTSTBuffer

/-- The length check accepts the length of the content, which counts an escaped low byte, too. -/
def Accepted (content : List UInt8) : Prop :=
  content.length + (fillDataToTSTBuffer (lenLo content)).length + 3 ≤ FRAME_MAX_LEN

instance (content : List UInt8) : Decidable (Accepted content) :=
  inferInstanceAs (Decidable (_ ≤ _))

/-- **The condition on a frame**: it has content, the high byte of its length is not escaped, and
`processMDConfirm` can be told its length. -/
structure Forwardable (content : List UInt8) : Prop where
  nonempty : content ≠ []
  plain : lenHi content ≠ MUX_KEY_WORD ∧ lenHi content ≠ STX_L1HEADER
  short : (wire content).length < FRAME_MAX_LEN

def FrmStat.isField : FrmStat → Bool
  | .LENHI | .LENLO | .MD_CONFIRM_DATA | .CHECKSUM => true
  | .STX | .KEYWORD => false

theorem fill_length_pos (d : UInt8) : 0 < (fillDataToTSTBuffer d).length := by
  rw [fillDataToTSTBuffer]
  split
  · exact Nat.succ_pos _
  split <;> exact Nat.succ_pos _

theorem length_le_flatMap_fill (bs : List UInt8) :
    bs.length ≤ (bs.flatMap fillDataToTSTBuffer).length := by
  induction bs with
  | nil => exact Nat.zero_le _
  | cons d bs ih =>
    have hpos := fill_length_pos d
    rw [List.flatMap_cons, List.length_append, List.length_cons]
    omega

theorem fill_eq {d : UInt8} (hmux : d ≠ MUX_KEY_WORD) (hl1 : d ≠ STX_L1HEADER) :
    fillDataToTSTBuffer d = [d] := by
  rw [fillDataToTSTBuffer, if_neg hmux, if_neg hl1]

theorem fill_cases (d : UInt8) :
    (fillDataToTSTBuffer d = [d] ∧ d ≠ MUX_KEY_WORD ∧ d ≠ STX_L1HEADER) ∨
      ∃ ch, fillDataToTSTBuffer d = [MUX_KEY_WORD, ch] ∧ unescape ch = d ∧ ch ≠ STX_OCTET ∧
        ch ≠ STX_L1HEADER := by
  by_cases hmux : d = MUX_KEY_WORD
  · subst hmux
    exact .inr ⟨MUX_KEY_WORD, by decide, by decide, by decide, by decide⟩
  by_cases hl1 : d = STX_L1HEADER
  · subst hl1
    exact .inr ⟨0x01, by decide, by decide, by decide, by decide⟩
  exact .inl ⟨fill_eq hmux hl1, hmux, hl1⟩

section Steps

variable {s s' t : MdRxWatcher} {op : MdOp} {ops : List MdOp} {raw bs : List UInt8} {ch d : UInt8}
  {os o : List (List UInt8)} {stat : FrmStat} {n : ℕ} {x : UInt8} {l1 : Bool}

theorem md_receive (h : s.returned = false) : md s (.receive ch) = s.receive ch := by
  rw [md, if_neg (by simp [h])]

/-! ### A stored byte -/

namespace MdRxWatcher

theorem dispatch_start (hstat : s.m_frmStat = .STX ∨ s.m_frmStat = .KEYWORD) :
    s.dispatch STX_OCTET = ({ s with
      m_bL1Header := false, m_frmStat := .LENHI, m_chkSum := STX_OCTET, m_frmLen := 0 }, []) := by
  have hfirst : s.m_frmStat ≠ .MD_CONFIRM_DATA ∧ s.m_frmStat ≠ .LENHI ∧ s.m_frmStat ≠ .LENLO ∧
      s.m_frmStat ≠ .CHECKSUM := by
    rcases hstat with hstat | hstat <;> rw [hstat] <;> decide
  rw [dispatch, if_pos ⟨.inl rfl, hfirst.1, hfirst.2.1, hfirst.2.2.1⟩]
  dsimp only
  rw [if_pos hfirst.2.2.2]
  rfl

theorem dispatch_plain (hl1 : s.m_bL1Header = false) (hstat : s.m_frmStat.isField)
    (hmux : ch ≠ MUX_KEY_WORD) (hch : ch ≠ STX_L1HEADER) : s.dispatch ch = s.act ch := by
  rw [dispatch]
  split
  · rename_i hstart
    obtain ⟨-, hdata, hlenhi, hlenlo⟩ := hstart
    have hsum : s.m_frmStat = .CHECKSUM := by
      cases h : s.m_frmStat <;> simp_all [FrmStat.isField]
    dsimp only
    rw [if_neg (not_not.mpr hsum), decide_eq_false hch, ← hl1]
  · rw [if_neg fun h => hmux h.2.1, if_neg fun h => by rw [h] at hstat; cases hstat]

theorem dispatch_mux (hl1 : s.m_bL1Header = false) (hstat : s.m_frmStat ≠ .KEYWORD) :
    s.dispatch MUX_KEY_WORD =
      ({ s with m_frmStat0 := s.m_frmStat, m_frmStat := .KEYWORD }, []) := by
  rw [dispatch, if_neg fun h => absurd h.1 (by decide), if_pos ⟨by simp [hl1], rfl, hstat⟩]

theorem dispatch_keyword (hstat : s.m_frmStat = .KEYWORD) (hstx : ch ≠ STX_OCTET)
    (hl1 : ch ≠ STX_L1HEADER) : s.dispatch ch =
      { s with m_frmStat := s.m_frmStat0, m_frmLen := u16 (s.m_frmLen + 1) }.act (unescape ch) := by
  rw [dispatch, if_neg fun h => h.1.elim hstx hl1, if_neg fun h => h.2.2 hstat, if_pos hstat]

end MdRxWatcher

/-- The bytes of a frame have been stored, and `process` has come to the state, the length and the
checksum. -/
structure InFrame (s : MdRxWatcher) (raw : List UInt8) (stat : FrmStat) (n : ℕ) (x : UInt8)
    (l1 : Bool) : Prop where
  bufLen : s.m_bufLen = raw.length
  frmBuf : s.m_frmBuf.toList.take raw.length = raw
  frmStat : s.m_frmStat = stat
  frmLen : s.m_frmLen = n
  chkSum : s.m_chkSum = x
  l1 : s.m_bL1Header = l1
  returned : s.returned = false

theorem InFrame.store (h : InFrame s raw stat n x l1) (hlen : raw.length + 1 < FRAME_MAX_LEN)
    (ch : UInt8) : ∃ t, InFrame t (raw ++ [ch]) stat n x l1 ∧ t.m_frmStat0 = s.m_frmStat0 ∧
      s.receive ch = .ok (t.dispatch ch) := by
  have hbuf : s.m_bufLen < FRAME_MAX_LEN := by rw [h.bufLen]; omega
  refine ⟨s.stored ch hbuf, ⟨?_, ?_, h.frmStat, h.frmLen, h.chkSum, h.l1, h.returned⟩, rfl,
    MdRxWatcher.receive_eq hbuf⟩
  · rw [List.length_append, List.length_singleton, MdRxWatcher.stored]
    dsimp only
    rw [h.bufLen, u16_of_lt hlen]
  · rw [List.length_append, List.length_singleton, MdRxWatcher.stored]
    dsimp only
    rw [← h.bufLen, take_set_succ, h.bufLen, h.frmBuf]

theorem InFrame.field (h : InFrame s raw stat n x false) (hstat : stat.isField)
    (hlen : raw.length + (fillDataToTSTBuffer d).length < FRAME_MAX_LEN)
    (hn : n + 1 < FRAME_MAX_LEN) :
    ∃ t, InFrame t (raw ++ fillDataToTSTBuffer d) stat (n + (fillDataToTSTBuffer d).length - 1) x
        false ∧
      md.Runs s ((fillDataToTSTBuffer d).map .receive) (t.act d).1 (t.act d).2 := by
  rcases fill_cases d with ⟨hfill, hmux, hl1⟩ | ⟨ch, hfill, rfl, hstx, hl1⟩
  · rw [hfill] at hlen ⊢
    obtain ⟨t, ht, -, hreceive⟩ := h.store hlen d
    refine ⟨t, ht, Machine.Runs.single ?_⟩
    rw [md_receive h.returned, hreceive,
      MdRxWatcher.dispatch_plain ht.l1 (by rw [ht.frmStat]; exact hstat) hmux hl1]
  · rw [hfill] at hlen ⊢
    simp only [List.length_cons, List.length_nil] at hlen
    have hkey : stat ≠ .KEYWORD := fun h => by rw [h] at hstat; cases hstat
    obtain ⟨t, ht, -, hreceive⟩ := h.store (by omega) MUX_KEY_WORD
    rw [MdRxWatcher.dispatch_mux ht.l1 (by rw [ht.frmStat]; exact hkey), ht.frmStat] at hreceive
    have hkeyword : InFrame { t with m_frmStat0 := stat, m_frmStat := .KEYWORD }
        (raw ++ [MUX_KEY_WORD]) .KEYWORD n x false :=
      ⟨ht.bufLen, ht.frmBuf, rfl, ht.frmLen, ht.chkSum, ht.l1, ht.returned⟩
    obtain ⟨t', ht', hstat0, hreceive'⟩ := hkeyword.store (by simp; omega) ch
    rw [MdRxWatcher.dispatch_keyword ht'.frmStat hstx hl1, hstat0, ht'.frmLen, u16_of_lt hn]
      at hreceive'
    refine ⟨{ t' with m_frmStat := stat, m_frmStat0 := stat, m_frmLen := n + 1 }, ?_, ?_⟩
    · have hframe := ht'.frmBuf
      rw [List.append_assoc] at hframe
      exact ⟨by simpa using ht'.bufLen, hframe, rfl, rfl, ht'.chkSum, ht'.l1, ht'.returned⟩
    · have hmux := (md_receive h.returned).trans hreceive
      have hch := (md_receive hkeyword.returned).trans hreceive'
      exact (Machine.Runs.single hmux).append (Machine.Runs.single hch)

/-! ### A frame, field by field -/

/-- A frame may start: nothing is held, and the call is taken. -/
structure Ready (s : MdRxWatcher) : Prop where
  frmStat : s.m_frmStat = .STX ∨ s.m_frmStat = .KEYWORD
  bufLen : s.m_bufLen = 0
  returned : s.returned = false

theorem ready_init : Ready {} := ⟨.inl rfl, rfl, rfl⟩

theorem Ready.inFrame (h : Ready s) :
    InFrame s [] s.m_frmStat s.m_frmLen s.m_chkSum s.m_bL1Header :=
  ⟨h.bufLen, rfl, rfl, rfl, rfl, rfl, h.returned⟩

theorem Ready.start (h : Ready s) : ∃ t, InFrame t [STX_OCTET] .LENHI 0 STX_OCTET false ∧
    md.Runs s [.receive STX_OCTET] t [] := by
  obtain ⟨t, ht, -, hreceive⟩ := h.inFrame.store (by decide) STX_OCTET
  rw [MdRxWatcher.dispatch_start (by rw [ht.frmStat]; exact h.frmStat)] at hreceive
  refine ⟨_, ?_, .single ((md_receive h.returned).trans hreceive)⟩
  exact ⟨ht.bufLen, ht.frmBuf, rfl, rfl, rfl, rfl, ht.returned⟩

theorem InFrame.lenhi (h : InFrame s raw .LENHI n x false)
    (hlen : raw.length + (fillDataToTSTBuffer d).length < FRAME_MAX_LEN)
    (hn : n + 1 < FRAME_MAX_LEN) :
    ∃ t, InFrame t (raw ++ fillDataToTSTBuffer d) .LENLO (d.toNat * 256) (x ^^^ d) false ∧
      md.Runs s ((fillDataToTSTBuffer d).map .receive) t [] := by
  obtain ⟨t, ht, hrun⟩ := h.field (d := d) rfl hlen hn
  rw [MdRxWatcher.act_lenhi ht.frmStat] at hrun
  refine ⟨_, ?_, hrun⟩
  refine ⟨ht.bufLen, ht.frmBuf, rfl, ?_, ?_, ht.l1, ht.returned⟩
  · dsimp only
    rw [ht.l1]
    rfl
  · dsimp only
    rw [ht.chkSum]

theorem InFrame.lenlo (h : InFrame s raw .LENLO n x false)
    (hlen : raw.length + (fillDataToTSTBuffer d).length < FRAME_MAX_LEN)
    (hn : n + 1 < FRAME_MAX_LEN)
    (haccept : n + (fillDataToTSTBuffer d).length - 1 + d.toNat + 4 ≤ FRAME_MAX_LEN) :
    ∃ t, InFrame t (raw ++ fillDataToTSTBuffer d) .MD_CONFIRM_DATA
        (n + (fillDataToTSTBuffer d).length - 1 + d.toNat) (x ^^^ d) false ∧
      md.Runs s ((fillDataToTSTBuffer d).map .receive) t [] := by
  obtain ⟨t, ht, hrun⟩ := h.field (d := d) rfl hlen hn
  have hlenlo : t.lenlo d = n + (fillDataToTSTBuffer d).length - 1 + d.toNat := by
    rw [MdRxWatcher.lenlo, ht.l1, ht.frmLen, if_neg Bool.false_ne_true]
    exact u16_of_lt (by omega)
  rw [MdRxWatcher.act_lenlo ht.frmStat, hlenlo, if_neg (by omega)] at hrun
  refine ⟨_, ?_, hrun⟩
  refine ⟨ht.bufLen, ht.frmBuf, rfl, rfl, ?_, ht.l1, ht.returned⟩
  dsimp only
  rw [ht.chkSum]

/-- By induction on the content: what is held and the length in the frame differ by the content that
is still to come. -/
theorem InFrame.content (content : List UInt8) (h : InFrame s raw .MD_CONFIRM_DATA n x false)
    (hcontent : content ≠ []) (hcount : raw.length + content.length = n + 3)
    (hlen : raw.length + (content.flatMap fillDataToTSTBuffer).length < FRAME_MAX_LEN) :
    ∃ t, InFrame t (raw ++ content.flatMap fillDataToTSTBuffer) .CHECKSUM
        (raw.length + (content.flatMap fillDataToTSTBuffer).length - 3)
        (content.foldl (· ^^^ ·) x) false ∧
      md.Runs s ((content.flatMap fillDataToTSTBuffer).map .receive) t [] := by
  induction content generalizing s raw n x with
  | nil => exact absurd rfl hcontent
  | cons d content ih =>
    have hpos := fill_length_pos d
    have hle := length_le_flatMap_fill content
    rw [List.flatMap_cons, List.length_append] at hlen ⊢
    rw [List.length_cons] at hcount
    obtain ⟨t, ht, hrun⟩ := h.field (d := d) rfl (by omega) (by omega)
    have hcheck : t.m_bufLen = t.m_frmLen + 3 ↔ content = [] := by
      rw [ht.bufLen, ht.frmLen, List.length_append, ← List.length_eq_zero_iff]
      omega
    rw [MdRxWatcher.act_data ht.frmStat] at hrun
    by_cases hlast : content = []
    · rw [if_pos (hcheck.mpr hlast)] at hrun
      subst hlast
      rw [List.length_nil] at hcount
      rw [List.flatMap_nil, List.append_nil, List.length_nil, Nat.add_zero]
      refine ⟨_, ?_, hrun⟩
      refine ⟨ht.bufLen, ht.frmBuf, rfl, ?_, ?_, ht.l1, ht.returned⟩
      · dsimp only
        rw [ht.frmLen]
        omega
      · dsimp only
        rw [ht.chkSum]
        rfl
    · rw [if_neg (mt hcheck.mp hlast)] at hrun
      have ht' : InFrame { t with m_chkSum := t.m_chkSum ^^^ d } (raw ++ fillDataToTSTBuffer d)
          .MD_CONFIRM_DATA (n + (fillDataToTSTBuffer d).length - 1) (x ^^^ d) false :=
        ⟨ht.bufLen, ht.frmBuf, ht.frmStat, ht.frmLen, by rw [← ht.chkSum], ht.l1, ht.returned⟩
      obtain ⟨t₂, ht₂, hrun₂⟩ := ih ht' hlast (by rw [List.length_append]; omega)
        (by rw [List.length_append]; omega)
      rw [List.append_assoc, List.length_append, Nat.add_assoc] at ht₂
      refine ⟨t₂, ht₂, ?_⟩
      rw [List.map_append]
      exact hrun.append hrun₂

theorem InFrame.checksum (h : InFrame s raw .CHECKSUM n x false)
    (hlen : raw.length + (fillDataToTSTBuffer x).length < FRAME_MAX_LEN)
    (hn : n + 3 = raw.length) :
    ∃ t, Ready t ∧ md.Runs s ((fillDataToTSTBuffer x).map .receive) t
      [raw ++ fillDataToTSTBuffer x] := by
  have hpos := fill_length_pos x
  obtain ⟨t, ht, hrun⟩ := h.field (d := x) rfl hlen (by omega)
  rw [MdRxWatcher.act_checksum ht.frmStat, if_pos ht.chkSum, ht.frmLen, u16_of_lt (by omega)]
    at hrun
  have hframe := ht.frmBuf
  rw [List.length_append] at hframe
  have hsent : n + (fillDataToTSTBuffer x).length - 1 + 4 =
      raw.length + (fillDataToTSTBuffer x).length := by omega
  rw [hsent, hframe] at hrun
  refine ⟨_, ?_, hrun⟩
  exact ⟨.inl rfl, rfl, ht.returned⟩

/-! ### A whole frame -/

variable {content : List UInt8}

theorem wire_eq (content : List UInt8) : wire content = [STX_OCTET] ++
    fillDataToTSTBuffer (lenHi content) ++ fillDataToTSTBuffer (lenLo content) ++
    content.flatMap fillDataToTSTBuffer ++ fillDataToTSTBuffer (checksum content) := by
  simp [wire]

theorem length_wire (content : List UInt8) : (wire content).length =
    1 + (fillDataToTSTBuffer (lenHi content)).length +
      (fillDataToTSTBuffer (lenLo content)).length +
      (content.flatMap fillDataToTSTBuffer).length +
      (fillDataToTSTBuffer (checksum content)).length := by
  simp only [wire_eq, List.length_append, List.length_singleton]

theorem toNat_lenHi (h : content.length < FRAME_MAX_LEN) :
    (lenHi content).toNat * 256 + (lenLo content).toNat = content.length := by
  simp only [FRAME_MAX_LEN] at h
  simp only [lenHi, lenLo, Nat.toUInt8, UInt8.toNat_ofNat']
  omega

theorem Ready.frame (h : Ready s) (hf : Forwardable content) :
    ∃ t, Ready t ∧ md.Runs s ((wire content).map .receive) t [wire content] := by
  have hshort := hf.short
  rw [length_wire, fill_eq hf.plain.1 hf.plain.2, List.length_singleton] at hshort
  have hle := length_le_flatMap_fill content
  have hlo := fill_length_pos (lenLo content)
  have hnumber := toNat_lenHi (by omega : content.length < FRAME_MAX_LEN)
  obtain ⟨s₁, h₁, hrun₁⟩ := h.start
  obtain ⟨s₂, h₂, hrun₂⟩ := h₁.lenhi (d := lenHi content)
    (by rw [fill_eq hf.plain.1 hf.plain.2]; exact (by decide : 2 < FRAME_MAX_LEN)) (by decide)
  rw [fill_eq hf.plain.1 hf.plain.2] at h₂
  obtain ⟨s₃, h₃, hrun₃⟩ := h₂.lenlo (d := lenLo content)
    (by simp only [List.length_append, List.length_singleton]; omega) (by omega) (by omega)
  obtain ⟨s₄, h₄, hrun₄⟩ := h₃.content content hf.nonempty
    (by simp only [List.length_append, List.length_singleton]; omega)
    (by simp only [List.length_append, List.length_singleton]; omega)
  have hsum : content.foldl (· ^^^ ·) (STX_OCTET ^^^ lenHi content ^^^ lenLo content) =
      checksum content := rfl
  rw [hsum] at h₄
  obtain ⟨s₅, h₅, hrun₅⟩ := h₄.checksum
    (by simp only [List.length_append, List.length_singleton]; omega)
    (by simp only [List.length_append, List.length_singleton]; omega)
  refine ⟨s₅, h₅, ?_⟩
  have hrun := (((hrun₁.append hrun₂).append hrun₃).append hrun₄).append hrun₅
  rw [wire_eq, fill_eq hf.plain.1 hf.plain.2] at *
  simpa using hrun

/-! ### Frames that are not forwarded -/

theorem quiet (hidle : s.Idle) (hbalanced : s.Balanced) (hopen : s.returned = false) (d : UInt8) :
    ∃ t, t.returned = false ∧ md.Runs s ((fillDataToTSTBuffer d).map .receive) t [] := by
  rcases fill_cases d with ⟨hfill, -, -⟩ | ⟨ch, hfill, -, -, -⟩
  · obtain ⟨t, hstep, hopen', -, -⟩ := hidle.step hbalanced hopen d
    rw [hfill]
    exact ⟨t, hopen', .single hstep⟩
  · obtain ⟨t, hstep, hopen', hbalanced', hidle'⟩ := hidle.step hbalanced hopen MUX_KEY_WORD
    obtain ⟨t', hstep', hopen'', -, -⟩ := (hidle' (by decide) (by decide)).step hbalanced' hopen' ch
    rw [hfill]
    exact ⟨t', hopen'', (Machine.Runs.single hstep).append (.single hstep')⟩

/-- Without content the check of the length, which comes behind a byte of content, is missed. -/
theorem Ready.empty_not_sent (h : Ready s) :
    ∃ t, t.returned = false ∧ md.Runs s ((wire []).map .receive) t [] := by
  obtain ⟨s₁, h₁, hrun₁⟩ := h.start
  obtain ⟨s₂, h₂, hrun₂⟩ := h₁.lenhi (d := 0) (by decide) (by decide)
  obtain ⟨s₃, h₃, hrun₃⟩ := h₂.lenlo (d := 0) (by decide) (by decide) (by decide)
  obtain ⟨t, ht, hrun₄⟩ := h₃.field (d := STX_OCTET) rfl (by decide) (by decide)
  rw [MdRxWatcher.act_data ht.frmStat, if_neg (by rw [ht.bufLen, ht.frmLen]; decide)] at hrun₄
  have hrun := ((hrun₁.append hrun₂).append hrun₃).append hrun₄
  refine ⟨_, ?_, hrun⟩
  exact ht.returned

theorem Ready.escaped_not_sent (h : Ready s) (hbalanced : s.Balanced) (haccept : Accepted content)
    (hshort : (wire content).length < FRAME_MAX_LEN)
    (hescaped : (fillDataToTSTBuffer (lenHi content)).length = 2) (hcontent : 2 ≤ content.length) :
    ∃ t os, t.returned = false ∧ md.Runs s ((wire content).map .receive) t os ∧
      os ≠ [wire content] := by
  rw [Accepted] at haccept
  have hlength := length_wire content
  have hlo := fill_length_pos (lenLo content)
  have hsum := fill_length_pos (checksum content)
  have hnumber := toNat_lenHi (by omega : content.length < FRAME_MAX_LEN)
  have hne : content ≠ [] := fun h => by simp [h] at hcontent
  obtain ⟨init, last, hlast⟩ : ∃ init last, content = init ++ [last] :=
    ⟨_, _, (List.dropLast_append_getLast hne).symm⟩
  have hinit : init.length + 1 = content.length := by rw [hlast]; simp
  have hfill : (content.flatMap fillDataToTSTBuffer).length =
      (init.flatMap fillDataToTSTBuffer).length + (fillDataToTSTBuffer last).length := by
    rw [hlast]
    simp
  have hle := length_le_flatMap_fill init
  obtain ⟨s₁, h₁, hrun₁⟩ := h.start
  obtain ⟨s₂, h₂, hrun₂⟩ := h₁.lenhi (d := lenHi content)
    (by rw [List.length_singleton]; omega) (by decide)
  obtain ⟨s₃, h₃, hrun₃⟩ := h₂.lenlo (d := lenLo content)
    (by simp only [List.length_append, List.length_singleton]; omega) (by omega) (by omega)
  obtain ⟨s₄, h₄, hrun₄⟩ := h₃.content init (fun h => by simp [h] at hinit; omega)
    (by simp only [List.length_append, List.length_singleton]; omega)
    (by simp only [List.length_append, List.length_singleton]; omega)
  obtain ⟨t, ht, hrun₅⟩ := h₄.field (d := last) rfl
    (by simp only [List.length_append, List.length_singleton]; omega)
    (by simp only [List.length_append, List.length_singleton]; omega)
  have hrun := (((hrun₁.append hrun₂).append hrun₃).append hrun₄).append hrun₅
  have hafter := (hbalanced.size_le hrun).1
  -- the last byte of the content is taken for the checksum
  have hact : (t.act last).1.Idle ∧ (t.act last).1.returned = false ∧
      ((t.act last).2 = [] ∨ ∃ frame, (t.act last).2 = [frame] ∧
        frame.length < (wire content).length) := by
    rw [MdRxWatcher.act_checksum ht.frmStat]
    split
    · refine ⟨.inl rfl, ht.returned, .inr ⟨_, rfl, ?_⟩⟩
      rw [ht.frmLen, u16_of_lt (by simp only [List.length_append, List.length_singleton]; omega),
        List.length_take]
      simp only [List.length_append, List.length_singleton]
      omega
    · exact ⟨.inl rfl, ht.returned, .inl rfl⟩
  obtain ⟨hidle, hopen, hsent⟩ := hact
  obtain ⟨t', hopen', hrun₆⟩ := quiet hidle hafter hopen (checksum content)
  refine ⟨t', (t.act last).2, hopen', ?_, ?_⟩
  · have hall := hrun.append hrun₆
    have hwire : wire content = [STX_OCTET] ++ fillDataToTSTBuffer (lenHi content) ++
        fillDataToTSTBuffer (lenLo content) ++ init.flatMap fillDataToTSTBuffer ++
        fillDataToTSTBuffer last ++ fillDataToTSTBuffer (checksum content) := by
      have hflat : content.flatMap fillDataToTSTBuffer =
          init.flatMap fillDataToTSTBuffer ++ fillDataToTSTBuffer last := by
        rw [hlast]
        simp
      rw [wire_eq, hflat]
      simp only [List.append_assoc]
    rw [hwire]
    simpa using hall
  · rintro heq
    rcases hsent with hsent | ⟨frame, hsent, hframe⟩
    · rw [hsent] at heq
      cases heq
    · rw [hsent] at heq
      cases heq
      exact absurd hframe (lt_irrefl _)

theorem Ready.not_sent (h : Ready s) (hbalanced : s.Balanced) (haccept : Accepted content)
    (hshort : (wire content).length < FRAME_MAX_LEN) (hbad : ¬ Forwardable content) :
    ∃ t os, t.returned = false ∧ md.Runs s ((wire content).map .receive) t os ∧
      os ≠ [wire content] := by
  by_cases hcontent : content = []
  · subst hcontent
    obtain ⟨t, hopen, hrun⟩ := h.empty_not_sent
    exact ⟨t, [], hopen, hrun, nofun⟩
  have hlt : content.length < FRAME_MAX_LEN := by
    rw [Accepted] at haccept
    omega
  have hnumber := toNat_lenHi hlt
  have hlo := (lenLo content).toNat_lt
  by_cases hmux : lenHi content = MUX_KEY_WORD
  · refine h.escaped_not_sent hbalanced haccept hshort (by rw [hmux]; decide) ?_
    rw [hmux] at hnumber
    simp only [MUX_KEY_WORD, UInt8.reduceToNat] at hnumber
    omega
  by_cases hl1 : lenHi content = STX_L1HEADER
  · refine h.escaped_not_sent hbalanced haccept hshort (by rw [hl1]; decide) ?_
    rw [hl1] at hnumber
    simp only [STX_L1HEADER, UInt8.reduceToNat] at hnumber
    omega
  exact absurd ⟨hcontent, ⟨hmux, hl1⟩, hshort⟩ hbad

/-! ### A stream of frames -/

variable {frames calls : List (List UInt8)}

theorem Ready.stream (h : Ready s) (hall : ∀ content ∈ frames, Forwardable content) :
    ∃ t, Ready t ∧ md.Runs s ((frames.flatMap wire).map .receive) t (frames.map wire) := by
  induction frames generalizing s with
  | nil => exact ⟨s, h, .init⟩
  | cons content frames ih =>
    obtain ⟨hfirst, hrest⟩ := List.forall_mem_cons.mp hall
    obtain ⟨s₁, h₁, hrun₁⟩ := h.frame hfirst
    obtain ⟨s₂, h₂, hrun₂⟩ := ih h₁ hrest
    refine ⟨s₂, h₂, ?_⟩
    rw [List.flatMap_cons, List.map_append, List.map_cons]
    exact hrun₁.append hrun₂

theorem one_of_step (h : md s op = .ok (s', o)) : o.length ≤ 1 := by
  cases op with
  | process len =>
    rw [md] at h
    split at h
    · cases h
    · cases h
      exact Nat.zero_le _
  | receive ch =>
    rw [md] at h
    split at h
    · cases h
      exact Nat.zero_le _
    · obtain ⟨t, -, hdispatch⟩ := bind_ok_iff.mp h
      have heq : t.dispatch ch = (s', o) := Except.ok.inj hdispatch
      have hle := t.length_dispatch_le ch
      rw [heq] at hle
      exact hle

theorem size_map_wire (frames : List (List UInt8)) :
    MdRxWatcher.size (frames.map wire) = (frames.flatMap wire).length := by
  rw [MdRxWatcher.size, List.length_flatMap, List.map_map]
  rfl

/-- Where the frames are sent as they are, each of them meets the condition: nothing is lost, so
that the first one is sent with its last byte. -/
theorem forwardable_of_runs (h : Ready s) (hbalanced : s.Balanced) (hshort : Short ops)
    (haccept : ∀ content ∈ frames, Accepted content) (hbytes : bytes ops = frames.flatMap wire)
    (hrun : md.Runs s ops s' (frames.map wire)) : ∀ content ∈ frames, Forwardable content := by
  induction frames generalizing s ops with
  | nil => simp
  | cons content frames ih =>
    obtain ⟨ops₁, op, ops₂, s₁, s₂, rfl, hrun₁, hstep, hrun₂⟩ :=
      hrun.first_output fun _ _ _ _ => one_of_step
    obtain ⟨hbalanced₁, hsize₁⟩ := hbalanced.size_le hrun₁
    have hsettled := hbalanced₁.step hstep
    obtain ⟨-, hsize₂⟩ := hsettled.balanced.size_le hrun₂
    have hsize := hsettled.size
    have hempty : s₂.m_bufLen = 0 := hsettled.sent nofun
    have hlength : (wire content).length < FRAME_MAX_LEN := hsettled.short _ List.mem_cons_self
    have hsplit : bytes (ops₁ ++ [op]) ++ bytes ops₂ = wire content ++ frames.flatMap wire := by
      rw [← bytes_append, List.append_assoc, ← List.flatMap_cons]
      exact hbytes
    have hall := congrArg List.length hsplit
    rw [size_map_wire] at hsize₂
    simp only [bytes_append, List.length_append, MdRxWatcher.size, List.map_cons, List.map_nil,
      List.sum_cons, List.sum_nil, h.bufLen] at hall hsize hsize₁ hsize₂
    obtain ⟨hfirst, hrest⟩ := List.append_inj hsplit
      (by rw [bytes_append, List.length_append]; omega)
    have hshort₁ : Short (ops₁ ++ [op]) := fun len hlen =>
      hshort len (by simp only [List.mem_append, List.mem_cons] at hlen ⊢; tauto)
    have hshort₂ : Short ops₂ := fun len hlen =>
      hshort len (by simp only [List.mem_append, List.mem_cons]; tauto)
    have hrun₃ : md.Runs s (ops₁ ++ [op]) s₂ [wire content] := hrun₁.snoc hstep
    obtain ⟨haccept₁, haccept₂⟩ := List.forall_mem_cons.mp haccept
    by_cases hf : Forwardable content
    · obtain ⟨t, ht, hflat⟩ := h.frame hf
      obtain ⟨rfl, -⟩ :=
        hrun₃.deterministic (runs_of_bytes hflat ht.returned hfirst hshort₁)
      exact List.forall_mem_cons.mpr ⟨hf, ih ht hsettled.balanced hshort₂ haccept₂ hrest hrun₂⟩
    · obtain ⟨t, os, hopen, hflat, hne⟩ := h.not_sent hbalanced haccept₁ hlength hf
      obtain ⟨-, hos⟩ := hrun₃.deterministic (runs_of_bytes hflat hopen hfirst hshort₁)
      exact absurd hos.symm hne

theorem bytes_calls (calls : List (List UInt8)) :
    bytes (calls.flatMap process) = calls.flatten := by
  induction calls with
  | nil => rfl
  | cons call calls ih =>
    rw [List.flatMap_cons, bytes_append, ih, process, bytes, bytes_map_receive, List.flatten_cons]

theorem short_calls : Short (calls.flatMap process) ↔ ∀ call ∈ calls, call.length < 65536 := by
  constructor
  · intro h call hcall
    exact h _ (List.mem_flatMap.mpr ⟨call, hcall, List.mem_cons_self⟩)
  · intro h len hlen
    obtain ⟨call, hcall, hmem⟩ := List.mem_flatMap.mp hlen
    obtain rfl : len = call.length := by simpa [process] using hmem
    exact h call hcall

theorem short_of_runs (hrun : md.Runs s ops s' os) : Short ops := by
  induction hrun with
  | init => exact nofun
  | snoc _ hstep ih =>
    intro len hlen
    rcases List.mem_append.mp hlen with hlen | hlen
    · exact ih len hlen
    · obtain rfl := List.mem_singleton.mp hlen
      rw [md] at hstep
      split at hstep
      · cases hstep
      · omega

end Steps

/-- **Forwarding**: the frames of a stream, in calls of `process` wherever they are cut, are handed
to `processMDConfirm` once each and as they are, exactly when each of them meets the condition and
no call is too long. Nothing is ever written past `m_frmBuf`. -/
theorem forwarded_iff {frames calls : List (List UInt8)}
    (haccept : ∀ content ∈ frames, Accepted content)
    (hcalls : calls.flatten = frames.flatMap wire) :
    ((∃ s, md.Runs {} (calls.flatMap process) s (frames.map wire)) ↔
      (∀ content ∈ frames, Forwardable content) ∧ ∀ call ∈ calls, call.length < 65536) ∧
    md.faultOf {} (calls.flatMap process) ≠ some .frmBuf := by
  have hbytes : bytes (calls.flatMap process) = frames.flatMap wire := by rw [bytes_calls, hcalls]
  refine ⟨⟨fun ⟨s, hrun⟩ => ?_, fun ⟨hall, hshort⟩ => ?_⟩, ?_⟩
  · have hshort := short_of_runs hrun
    exact ⟨forwardable_of_runs ready_init MdRxWatcher.balanced_init hshort haccept hbytes hrun,
      short_calls.mp hshort⟩
  · obtain ⟨t, ht, hrun⟩ := ready_init.stream hall
    exact ⟨t, runs_of_bytes hrun ht.returned hbytes (short_calls.mpr hshort)⟩
  · exact Machine.faultOf_ne MdRxWatcher.balanced_init
      (fun s op s' o h hstep => (h.step hstep).balanced) (fun s op h => h.not_frmBuf) _

/-- A frame with an escape in its content, cut in the middle of the escape. -/
theorem forwarded_two_calls : ∃ s, md.Runs {}
    ([(wire [0x5A, 0x11]).take 4, (wire [0x5A, 0x11]).drop 4].flatMap process) s
    ([[0x5A, 0x11]].map wire) := by
  refine (forwarded_iff ?_ ?_).1.mpr ⟨?_, ?_⟩
  · decide
  · decide
  · exact List.forall_mem_singleton.mpr ⟨by decide, by decide, by decide⟩
  · decide

/-- Of a frame without content nothing is forwarded. -/
theorem empty_unforwarded :
    Accepted [] ∧ ¬ ∃ s, md.Runs {} ([wire []].flatMap process) s ([[]].map wire) := by
  refine ⟨by decide, ?_⟩
  rintro ⟨s, hrun⟩
  have hnothing : md.observe {} ([wire []].flatMap process) (fun _ => ()) = some ((), []) := by
    decide
  obtain ⟨s', hrun', -⟩ := Machine.exists_run_of_observe hnothing
  obtain ⟨-, heq⟩ := hrun.deterministic hrun'
  cases heq

end MtkHardware.Meta
