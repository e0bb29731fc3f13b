import MtkHardware.Meta.UsbApFrame

/-!
# The Bounds of the Decoders

Each loop of `decode` and of its decoders ends where `u16Length` is equal to the length of the data.
Data of 65536 bytes or more have a length that `u16Length` never is, so that a loop which comes to
their end does not see it. In shorter data the end is seen by every round, but not by the reads
behind an escape: `decode` reads behind a `MUX_KEY_WORD` in front of the type, and
`decodeLTE_C2KFrame` behind an escaped checksum, whether or not there is a byte.
-/

namespace MtkHardware.Meta

/-- A frame of the AP is cut off before a byte that is read. -/
def Cursor.CutOff (c : Cursor) : Prop := c.src = [] ∨ c.src = [MUX_KEY_WORD]

/-- `decode` is about to read behind the last byte of the data: it does not see the end of data that
are too long, and it does not look for the end behind a `MUX_KEY_WORD`. -/
def Cursor.Overruns (len : ℕ) (c : Cursor) : Prop :=
  (65536 ≤ len ∧ c.src = []) ∨ (c.src = [MUX_KEY_WORD] ∧
    c.watcher.m_cTstFrameState ≠ .STX ∧ c.watcher.m_cTstFrameState ≠ .KEYWORD ∧
    c.watcher.m_cTstFrameState ≠ .MD_DATA)

namespace UsbRxWatcher

open Loop

variable {ctx : Context} {s : UsbRxWatcher} {len u16Length : ℕ} {buf pdata src rest : List UInt8}
  {ch b frmType : UInt8}

/-- The position behind a result is not behind the data. -/
def Within (len : ℕ) (p : Parsed) : Prop := p.u16Length ≤ len

/-! ### `flowControl` -/

theorem yields_flowControl (ctx : Context) (s : UsbRxWatcher) (h : len ≤ pdata.length) :
    Yields (s.flowControl ctx pdata len) fun _ => True := by
  rw [flowControl]
  split
  · rw [if_neg (not_lt.mpr h)]
    exact ⟨_, rfl, trivial⟩
  · exact ⟨_, rfl, trivial⟩

/-! ### `decodeMDFrame` -/

/-- A frame of a modem is cut off before a byte that is read. -/
def MdCursor.CutOff (ctx : Context) (c : MdCursor) : Prop :=
  c.local_ptr = [] ∨ c.local_ptr = [MUX_KEY_WORD] ∨ (ctx.getComType = .META_UART_COM ∧
    (c.local_ptr = [SOFT_FLOW_CTRL_BYTE] ∨
      c.local_ptr = [MUX_KEY_WORD, SOFT_FLOW_CTRL_BYTE]))

variable {c : MdCursor}

theorem mdFrame_within (ctx : Context) (s : UsbRxWatcher) (frmType : UInt8)
    (h : u16Length ≤ pdata.length) :
    ∃ p, s.mdFrame ctx pdata frmType u16Length = .ok p ∧ Within pdata.length p := by
  obtain ⟨r, hr, -⟩ := yields_flowControl ctx s h
  rw [mdFrame, hr]
  exact ⟨_, rfl, h⟩

/-- What the rounds keep, and the bytes are read from the data. -/
def MdCursor.At (len : ℕ) (c : MdCursor) : Prop := Synced len c.u16Length c.local_ptr

theorem mdByte_settles (h : c.At pdata.length) (hone : c.local_ptr.length < pdata.length) :
    Settles False (MdCursor.At pdata.length) (Within pdata.length)
      (s.mdByte ctx pdata frmType ch c) := by
  rw [mdByte]
  split
  · have hle : u16 (c.u16Length + 65535) ≤ pdata.length := by
      have hcount := h.count
      rw [u16] at hcount ⊢
      omega
    obtain ⟨p, hp, hwithin⟩ := mdFrame_within ctx s frmType hle
    rw [hp]
    exact ⟨not_false, hwithin⟩
  split
  · obtain ⟨p, hp, hwithin⟩ := mdFrame_within ctx s frmType h.le
    rw [hp]
    exact ⟨not_false, hwithin⟩
  · exact ⟨not_false, h⟩

theorem mdFlow_settles (h : c.At pdata.length) (hone : c.local_ptr.length < pdata.length) :
    Settles (65536 ≤ pdata.length ∧ ctx.getComType = .META_UART_COM ∧ ch = SOFT_FLOW_CTRL_BYTE ∧
        c.local_ptr = []) (MdCursor.At pdata.length) (Within pdata.length)
      (s.mdFlow ctx pdata frmType ch c) := by
  rw [mdFlow]
  split
  · rename_i hflow
    rw [MdCursor.next]
    split
    · rename_i hend
      exact ⟨fun hlong => h.short hend hlong.1, h.le⟩
    · rename_i hend
      rcases hptr : c.local_ptr with _ | ⟨next, rest⟩
      · rw [MdCursor.At, hptr] at h
        exact ⟨h.long hend, hflow.1, hflow.2, rfl⟩
      · rw [MdCursor.At, hptr] at h
        rw [hptr, List.length_cons] at hone
        exact (mdByte_settles (c := ⟨_, _, rest⟩) h.next (Nat.lt_of_succ_lt hone)).congr (by simp)
  · rename_i hflow
    exact (mdByte_settles h hone).congr (by tauto)

theorem mdRound_settles (h : c.At pdata.length) :
    Settles (65536 ≤ pdata.length ∧ c.CutOff ctx) (MdCursor.At pdata.length)
      (Within pdata.length) (s.mdRound ctx pdata frmType c) := by
  have hlength := h.length
  rw [mdRound]
  split
  · rename_i hend
    exact ⟨fun hlong => h.short hend hlong.1, h.le⟩
  rename_i hopen
  rcases hptr : c.local_ptr with _ | ⟨ch, rest⟩
  · rw [MdCursor.At, hptr] at h
    exact ⟨h.long hopen, .inl hptr⟩
  rw [MdCursor.At, hptr] at h
  rw [hptr, List.length_cons] at hlength
  dsimp only
  split
  · rename_i hmux
    subst hmux
    rw [MdCursor.next]
    split
    · rename_i hend
      exact ⟨fun hlong => h.next.short hend hlong.1, h.next.le⟩
    · rename_i hend
      rcases rest with _ | ⟨next, rest⟩
      · exact ⟨h.next.long hend, .inr (.inl hptr)⟩
      · rw [List.length_cons] at hlength
        refine (mdFlow_settles (c := ⟨_, _, rest⟩) h.next.next (Nat.lt_of_succ_lt hlength)).congr ?_
        have hne : MUX_KEY_WORD ≠ SOFT_FLOW_CTRL_BYTE := by decide
        simp [MdCursor.CutOff, hptr, hne]
  · rename_i hmux
    refine (mdFlow_settles (c := ⟨_, _, rest⟩) h.next hlength).congr ?_
    simp [MdCursor.CutOff, hptr, hmux]

theorem mdNext_shorter {escapes : List UInt8} {r : UInt8 × MdCursor}
    (h : c.next len escapes = .ok (some r)) : r.2.local_ptr.length < c.local_ptr.length := by
  rw [MdCursor.next] at h
  split at h
  · cases h
  split at h
  · cases h
  · rename_i hptr
    cases h
    rw [hptr]
    exact Nat.lt_succ_self _

theorem mdByte_goes {c' : MdCursor} (h : s.mdByte ctx pdata frmType ch c = .ok (.inl c')) :
    c' = c := by
  rw [mdByte] at h
  split at h
  · obtain ⟨p, -, h⟩ := bind_ok_iff.mp h
    cases h
  split at h
  · obtain ⟨p, -, h⟩ := bind_ok_iff.mp h
    cases h
  · cases h
    rfl

theorem mdFlow_goes {c' : MdCursor} (h : s.mdFlow ctx pdata frmType ch c = .ok (.inl c')) :
    c'.local_ptr.length ≤ c.local_ptr.length := by
  rw [mdFlow] at h
  split at h
  · obtain ⟨r, hr, h⟩ := bind_ok_iff.mp h
    cases r with
    | none => cases h
    | some r =>
      rw [mdByte_goes h]
      exact (mdNext_shorter hr).le
  · rw [mdByte_goes h]

theorem mdRound_decreases :
    (s.mdRound ctx pdata frmType).Decreases fun c => c.local_ptr.length := by
  intro c c' h
  rw [mdRound] at h
  split at h
  · cases h
  split at h
  · cases h
  rename_i hptr
  dsimp only at h ⊢
  rw [hptr, List.length_cons]
  split at h
  · obtain ⟨r, hr, h⟩ := bind_ok_iff.mp h
    cases r with
    | none => cases h
    | some r => exact Nat.lt_succ_of_le ((mdFlow_goes h).trans (mdNext_shorter hr).le)
  · exact Nat.lt_succ_of_le (mdFlow_goes h)

/-- Where `decodeMDFrame` begins. -/
def mdStart (s : UsbRxWatcher) (pdata : List UInt8) (u16Length : ℕ) : MdCursor :=
  ⟨s.m_uFrameLength, u16Length, pdata.drop u16Length⟩

/-- `decodeMDFrame` reads within the data unless it comes to a frame that is cut off, with data that
are too long. -/
theorem decodeMDFrame_within_iff (hle : u16Length ≤ pdata.length) (hlt : u16Length < 65536) :
    Yields (s.decodeMDFrame ctx pdata frmType u16Length) (Within pdata.length) ↔
      ∀ c, (s.mdRound ctx pdata frmType).Comes (s.mdStart pdata u16Length) c →
        ¬ (65536 ≤ pdata.length ∧ c.CutOff ctx) := by
  have hstart : (s.mdStart pdata u16Length).At pdata.length := by
    refine ⟨?_, by simp [mdStart]⟩
    simp only [mdStart, List.length_drop, u16]
    omega
  have hbound : (s.mdStart pdata u16Length).local_ptr.length < pdata.length + 1 := by
    simp only [mdStart, List.length_drop]
    omega
  exact yields_run_iff_of_settles mdRound_decreases hbound hstart fun t ht => mdRound_settles ht

/-! ### `decodeLTE_C2KFrame` -/

/-- The checksum at the end of the data is the first byte of an escape, and what is in front of the
frame hides that there is no second one. -/
def LteCursor.Unguarded (ctx : Context) (len : ℕ) (c : LteCursor) : Prop :=
  c.data_len = c.newlen ∧
    ctx.getMDChType c.watcher.m_md_index = .FT_MODEM_CH_TUNNELING ∧
    c.data_len + 4 + c.watcher.m_frm_len_byte ≤ len ∧
    (c.local_ptr = [MUX_KEY_WORD] ∨
      (ctx.getComType = .META_UART_COM ∧ c.local_ptr = [SOFT_FLOW_CTRL_BYTE]))

/-- A tunnelled frame is cut off before a byte that is read. -/
def LteCursor.CutOff (ctx : Context) (c : LteCursor) : Prop :=
  c.local_ptr = [] ∨ (ctx.getComType = .META_UART_COM ∧ c.data_len ≠ c.newlen ∧
    c.local_ptr = [SOFT_FLOW_CTRL_BYTE])

def LteCursor.Fails (ctx : Context) (len : ℕ) (c : LteCursor) : Prop :=
  (65536 ≤ len ∧ c.CutOff ctx) ∨ c.Unguarded ctx len

structure LteCursor.At (len : ℕ) (src : List UInt8) (c : LteCursor) : Prop where
  synced : Synced len c.u16Length c.local_ptr
  taken : c.data_len + c.local_ptr.length = src.length
  newlen : c.newlen < 65536

variable {d : LteCursor}

theorem lteFrame_within (h : d.u16Length ≤ len) (hsrc : d.newlen ≤ src.length) :
    ∃ p, lteFrame ctx src frmType d = .ok p ∧ Within len p := by
  obtain ⟨r, hr, -⟩ := yields_flowControl ctx d.watcher hsrc
  rw [lteFrame, hr]
  exact ⟨_, rfl, h⟩

theorem lteChecksum_settles (ctx : Context) (ch : UInt8)
    (h : Synced len d.u16Length d.local_ptr) :
    (d.data_len + 3 + d.watcher.m_frm_len_byte ≤ len ∧ d.local_ptr = [] ∧
      (ch = MUX_KEY_WORD ∨ (ctx.getComType = .META_UART_COM ∧ ch = SOFT_FLOW_CTRL_BYTE)) ∧
      lteChecksum ctx len ch d = .error .input) ∨
    (¬ (d.data_len + 3 + d.watcher.m_frm_len_byte ≤ len ∧ d.local_ptr = [] ∧
      (ch = MUX_KEY_WORD ∨ (ctx.getComType = .META_UART_COM ∧ ch = SOFT_FLOW_CTRL_BYTE))) ∧
      ∃ r, lteChecksum ctx len ch d = .ok r ∧ r.2.u16Length ≤ len ∧ r.2.newlen = d.newlen) := by
  rw [lteChecksum]
  split
  · rename_i hlen
    split
    · rename_i hflow
      split
      · rename_i hptr
        exact .inl ⟨hlen, hptr, .inr hflow, rfl⟩
      · rename_i next rest hptr
        rw [hptr] at h
        refine .inr ⟨?_, _, rfl, h.next.le, rfl⟩
        simp [hptr]
    split
    · rename_i hmux
      split
      · rename_i hptr
        exact .inl ⟨hlen, hptr, .inl hmux, rfl⟩
      · rename_i next rest hptr
        rw [hptr] at h
        refine .inr ⟨?_, _, rfl, h.next.le, rfl⟩
        simp [hptr]
    · rename_i hflow hmux
      refine .inr ⟨?_, _, rfl, h.le, rfl⟩
      tauto
  · rename_i hlen
    exact .inr ⟨fun hbad => hlen hbad.1, _, rfl, h.le, rfl⟩

theorem lteEnd_settles (ctx : Context) (frmType ch : UInt8)
    (h : Synced len d.u16Length d.local_ptr) (hsrc : d.newlen ≤ src.length) :
    (ctx.getMDChType d.watcher.m_md_index = .FT_MODEM_CH_TUNNELING ∧
      d.data_len + 3 + d.watcher.m_frm_len_byte ≤ len ∧ d.local_ptr = [] ∧
      (ch = MUX_KEY_WORD ∨ (ctx.getComType = .META_UART_COM ∧ ch = SOFT_FLOW_CTRL_BYTE)) ∧
      lteEnd ctx len src frmType ch d = .error .input) ∨
    (¬ (ctx.getMDChType d.watcher.m_md_index = .FT_MODEM_CH_TUNNELING ∧
      d.data_len + 3 + d.watcher.m_frm_len_byte ≤ len ∧ d.local_ptr = [] ∧
      (ch = MUX_KEY_WORD ∨ (ctx.getComType = .META_UART_COM ∧ ch = SOFT_FLOW_CTRL_BYTE))) ∧
      ∃ p, lteEnd ctx len src frmType ch d = .ok p ∧ Within len p) := by
  rw [lteEnd]
  split
  · rename_i htunnel
    dsimp only
    rcases lteChecksum_settles ctx ch
      (d := { d with watcher := { d.watcher with m_cTstFrameState := .STX } }) h with
      ⟨hlen, hptr, hescape, hfail⟩ | ⟨hno, r, hr, hle, hnewlen⟩
    · rw [hfail]
      exact .inl ⟨htunnel, hlen, hptr, hescape, rfl⟩
    · rw [hr]
      refine .inr ⟨fun hbad => hno hbad.2, ?_⟩
      obtain ⟨_ | sum, d'⟩ := r
      · exact ⟨_, rfl, hle⟩
      · dsimp only at hle hnewlen ⊢
        simp only [bind, Except.bind]
        split
        · exact ⟨_, rfl, hle⟩
        · exact lteFrame_within hle (by rw [hnewlen]; exact hsrc)
  · rename_i htunnel
    exact .inr ⟨fun hbad => htunnel hbad.1, lteFrame_within h.le hsrc⟩

theorem lteByte_settles (h : d.At len src) :
    Settles (d.data_len = d.newlen + 1 ∧
        ctx.getMDChType d.watcher.m_md_index = .FT_MODEM_CH_TUNNELING ∧
        d.data_len + 3 + d.watcher.m_frm_len_byte ≤ len ∧ d.local_ptr = [] ∧
        (ch = MUX_KEY_WORD ∨ (ctx.getComType = .META_UART_COM ∧ ch = SOFT_FLOW_CTRL_BYTE)))
      (LteCursor.At len src) (Within len) (lteByte ctx len src frmType ch d) := by
  rw [lteByte]
  split
  · rename_i hlast
    have hsrc : d.newlen ≤ src.length := by
      have htaken := h.taken
      omega
    rcases lteEnd_settles ctx frmType ch h.synced hsrc with
      ⟨htunnel, hlen, hptr, hescape, hfail⟩ | ⟨hno, p, hp, hwithin⟩
    · rw [hfail]
      exact ⟨hlast, htunnel, hlen, hptr, hescape⟩
    · rw [hp]
      exact ⟨fun hbad => hno hbad.2, hwithin⟩
  · rename_i hmore
    exact ⟨fun hbad => hmore hbad.1, h.synced, h.taken, h.newlen⟩

theorem lteRound_settles (h : d.At len src) :
    Settles (d.Fails ctx len) (LteCursor.At len src) (Within len)
      (lteRound ctx len src frmType d) := by
  obtain ⟨hsync, htaken, hnewlen⟩ := h
  rw [lteRound]
  split
  · rename_i hend
    refine ⟨?_, hsync.le⟩
    rintro (⟨hlong, -⟩ | ⟨-, -, -, hptr | ⟨-, hptr⟩⟩)
    · exact hsync.short hend hlong
    · exact absurd ((hsync.eq_iff.mp hend).2.symm.trans hptr) nofun
    · exact absurd ((hsync.eq_iff.mp hend).2.symm.trans hptr) nofun
  rename_i hopen
  rcases hptr : d.local_ptr with _ | ⟨ch, rest⟩
  · rw [hptr] at hsync
    exact .inl ⟨hsync.long hopen, .inl hptr⟩
  rw [hptr] at hsync
  rw [hptr, List.length_cons] at htaken
  dsimp only
  split
  · rename_i hflow
    obtain ⟨hcom, hlast, rfl⟩ := hflow
    have hdata : d.data_len ≠ d.newlen := fun heq => hlast (by rw [heq])
    have hguarded : ¬ d.Unguarded ctx len := fun hbad => hdata hbad.1
    split
    · rename_i hend
      refine ⟨?_, hsync.next.le⟩
      rintro (⟨hlong, -⟩ | hbad)
      · exact hsync.next.short hend hlong
      · exact hguarded hbad
    rename_i hmore
    rcases rest with _ | ⟨next, rest⟩
    · exact .inl ⟨hsync.next.long hmore, .inr ⟨hcom, hdata, hptr⟩⟩
    rw [List.length_cons] at htaken
    have hfine : ¬ d.Fails ctx len := by
      rintro (⟨-, hcut | ⟨-, -, hcut⟩⟩ | hbad)
      · rw [hptr] at hcut
        cases hcut
      · rw [hptr] at hcut
        cases hcut
      · exact hguarded hbad
    dsimp only
    split
    · exact ⟨hfine, hsync.next.next.le⟩
    · refine (lteByte_settles (d := ⟨_, _, _, _, rest⟩) ⟨hsync.next.next, ?_, u16_lt _⟩).congr ?_
      · dsimp only
        omega
      · refine iff_of_false (fun hbad => ?_) hfine
        have hlength := hbad.1
        simp only [u16] at hlength
        omega
  · rename_i hflow
    refine (lteByte_settles (d := ⟨_, _, _, _, rest⟩) ⟨hsync.next, ?_, hnewlen⟩).congr ?_
    · dsimp only
      omega
    · have hcut : ¬ d.CutOff ctx := by
        rintro (hcut | ⟨hcom, hdata, hcut⟩)
        · rw [hptr] at hcut
          cases hcut
        · rw [hptr] at hcut
          cases hcut
          exact hflow ⟨hcom, fun heq => hdata (Nat.succ_injective heq), rfl⟩
      rw [LteCursor.Fails, LteCursor.Unguarded, hptr]
      simp only [hcut, and_false, false_or, Nat.succ_inj, List.cons.injEq]
      constructor
      · rintro ⟨hlast, htunnel, hlen, hrest, hescape⟩
        exact ⟨hlast, htunnel, by omega, hescape.imp (⟨·, hrest⟩) fun h => ⟨h.1, h.2, hrest⟩⟩
      · rintro ⟨hlast, htunnel, hlen, ⟨hch, hrest⟩ | ⟨hcom, hch, hrest⟩⟩
        · exact ⟨hlast, htunnel, by omega, hrest, .inl hch⟩
        · exact ⟨hlast, htunnel, by omega, hrest, .inr ⟨hcom, hch⟩⟩

theorem lteByte_goes {d' : LteCursor} (h : lteByte ctx len src frmType ch d = .ok (.inl d')) :
    d'.local_ptr = d.local_ptr := by
  rw [lteByte] at h
  split at h
  · obtain ⟨p, -, h⟩ := bind_ok_iff.mp h
    cases h
  · cases h
    rfl

theorem lteRound_decreases :
    (lteRound ctx len src frmType).Decreases fun d => d.local_ptr.length := by
  intro d d' h
  rw [lteRound] at h
  split at h
  · cases h
  split at h
  · cases h
  rename_i hptr
  dsimp only at h ⊢
  rw [hptr, List.length_cons]
  split at h
  · split at h
    · cases h
    split at h
    · cases h
    split at h
    · cases h
    · rw [lteByte_goes h]
      simp only [List.length_cons]
      omega
  · rw [lteByte_goes h]
    exact Nat.lt_succ_self _

/-- Where `decodeLTE_C2KFrame` begins. -/
def lteStart (c : Cursor) : LteCursor :=
  ⟨c.watcher, 0, u16 c.watcher.m_uFrameLength, c.u16Length, c.src⟩

/-- `decodeLTE_C2KFrame` reads within the data unless it comes to an unguarded escape of the
checksum, or, with data that are too long, to a frame that is cut off. -/
theorem decodeLTE_within_iff {c : Cursor} (h : Synced len c.u16Length c.src) :
    Yields (decodeLTE_C2KFrame ctx len frmType c) (Within len) ↔
      ∀ d, (lteRound ctx len c.src frmType).Comes (lteStart c) d → ¬ d.Fails ctx len :=
  yields_run_iff_of_settles lteRound_decreases (Nat.lt_succ_self _)
    (LteCursor.At.mk h (Nat.zero_add _) (u16_lt _)) fun _ hd => lteRound_settles hd

/-! ### `decodeAPFrame` -/

/-- `decodeAPFrame` reads within the data, and stores within the header, unless a byte comes behind
a header with a zero `local_len`, or, with data that are too long, it comes to a frame that is cut
off. -/
theorem decodeAPFrame_within_iff (h : Synced len u16Length src) :
    Yields (decodeAPFrame ctx len ⟨s.startAP, u16Length, src⟩) (Within len) ↔
      ¬ (4 < (content src).length ∧ ZeroLocal (content src)) ∧
        ∀ c, (apRound ctx len).Comes ⟨s.startAP, u16Length, src⟩ c →
          ¬ (65536 ≤ len ∧ c.CutOff) := by
  rw [← decodeAPFrame_header_iff ctx s h]
  constructor
  · rintro ⟨p, hp, -⟩
    refine ⟨fun hfail => ?_, fun c hcomes hbad => ?_⟩
    · rw [hfail] at hp
      cases hp
    · obtain ⟨q, hc⟩ := (apAt_start h s).comes hcomes
      have hnone : nextContent c.src = none := by
        rcases hbad.2 with hcut | hcut <;> rw [hcut] <;> rfl
      rcases apRound_none ctx hc.state hc.synced hnone with ⟨-, -, hfail⟩ | ⟨p', -, -, -, hshort⟩
      · rw [decodeAPFrame, run_error_of_comes apRound_decreases hcomes hfail
          (Nat.lt_succ_self _)] at hp
        cases hp
      · exact absurd hbad.1 (not_le.mpr (hshort hbad.2).1)
  · rintro ⟨hheader, hcut⟩
    obtain ⟨c, hcomes, hlast⟩ := exists_last (L := apRound ctx len) apRound_decreases
      ⟨s.startAP, u16Length, src⟩
    obtain ⟨q, hc⟩ := (apAt_start h s).comes hcomes
    have hrun : ∀ {e}, apRound ctx len c = .error e →
        decodeAPFrame ctx len ⟨s.startAP, u16Length, src⟩ = .error e := fun hfail =>
      run_error_of_comes apRound_decreases hcomes hfail (Nat.lt_succ_self _)
    have hend : ∀ {p}, apRound ctx len c = .ok (.inr p) → p.u16Length ≤ len →
        Yields (decodeAPFrame ctx len ⟨s.startAP, u16Length, src⟩) (Within len) := fun hend hle =>
      ⟨_, run_ok_of_comes apRound_decreases hcomes hend (Nat.lt_succ_self _), hle⟩
    rcases hc.round ctx with ⟨-, ⟨hlong, hbad, -⟩ | ⟨p, hp, hle⟩⟩ |
      ⟨b, rest, -, ⟨-, -, hfail⟩ | ⟨c', hc', -⟩ | ⟨-, p, hp, hle⟩⟩
    · exact absurd ⟨hlong, hbad⟩ (hcut c hcomes)
    · exact hend hp hle
    · exact absurd (hrun hfail) hheader
    · rcases hlast with ⟨p, hp⟩ | ⟨e, he⟩
      · rw [hc'] at hp
        cases hp
      · rw [hc'] at he
        cases he
    · exact hend hp hle

/-! ### `decode` -/

variable {e : Cursor}

/-- What `decode` may end with. -/
def Header.Within (len : ℕ) : Header → Prop
  | .parsed p => UsbRxWatcher.Within len p
  | .typed _ c => Synced len c.u16Length c.src

theorem headerByte_settles (h : Synced len e.u16Length e.src) :
    Settles False (fun c => Synced len c.u16Length c.src) (Header.Within len)
      (.ok (headerByte ch e) : Except UsbFault (Cursor ⊕ Header)) := by
  rw [headerByte]
  dsimp only
  split
  · exact ⟨not_false, h⟩
  · split
    · exact ⟨not_false, h.le⟩
    · exact ⟨not_false, h⟩
  · exact ⟨not_false, h⟩
  · exact ⟨not_false, h⟩

theorem escape_synced {r : Bool × UInt8 × Cursor} (h : Synced len u16Length src)
    (hr : s.escape u16Length src = .ok r) : Synced len r.2.2.u16Length r.2.2.src := by
  cases src with
  | nil => cases hr
  | cons next rest =>
    rw [escape] at hr
    split at hr
    · cases hr
      exact h.next
    · cases hr
      exact h

theorem escape_error_iff : (∃ fault, s.escape u16Length src = .error fault) ↔ src = [] := by
  cases src with
  | nil => exact ⟨fun _ => rfl, fun _ => ⟨_, rfl⟩⟩
  | cons next rest =>
    refine iff_of_false ?_ (List.cons_ne_nil _ _)
    rintro ⟨fault, h⟩
    rw [escape] at h
    split at h <;> cases h

theorem decodeRound_settles (h : Synced len e.u16Length e.src) :
    Settles (e.Overruns len) (fun c => Synced len c.u16Length c.src) (Header.Within len)
      (decodeRound len e) := by
  rw [decodeRound]
  split
  · rename_i hend
    refine ⟨?_, h.le⟩
    rintro (⟨hlong, -⟩ | ⟨hmux, -⟩)
    · exact h.short hend hlong
    · exact absurd ((h.eq_iff.mp hend).2.symm.trans hmux) nofun
  rename_i hopen
  rcases hsrc : e.src with _ | ⟨ch, rest⟩
  · rw [hsrc] at h
    exact .inl ⟨h.long hopen, hsrc⟩
  rw [hsrc] at h
  have hoverruns : e.Overruns len ↔ (ch = MUX_KEY_WORD ∧ rest = []) ∧
      e.watcher.m_cTstFrameState ≠ .STX ∧ e.watcher.m_cTstFrameState ≠ .KEYWORD ∧
      e.watcher.m_cTstFrameState ≠ .MD_DATA := by
    simp [Cursor.Overruns, hsrc]
  dsimp only
  split
  · rename_i hstx
    subst hstx
    exact ⟨fun hbad => absurd (hoverruns.mp hbad).1.1 (by decide), h.next⟩
  split
  · rename_i hstate
    exact ⟨fun hbad => (hoverruns.mp hbad).2.1 hstate, h.next⟩
  rename_i hstate
  rw [checkEscape]
  split
  · rename_i hcheck
    split at hcheck
    · cases hcheck
    · rename_i hno
      cases hcheck
      refine (headerByte_settles (e := ⟨_, _, rest⟩) h.next).congr ?_
      rw [hoverruns]
      tauto
  · rename_i hcheck
    split at hcheck
    · rename_i hyes
      cases hcheck
      rcases hr : escape _ _ rest with fault | r
      · have hrest := escape_error_iff.mp ⟨fault, hr⟩
        exact hoverruns.mpr ⟨⟨hyes.1, hrest⟩, hstate, hyes.2⟩
      · have hrest : rest ≠ [] := fun hnil => by
          obtain ⟨fault, hfault⟩ := escape_error_iff.mpr hnil
          rw [hr] at hfault
          cases hfault
        have hsync := escape_synced h.next hr
        refine (headerByte_settles
          (e := ⟨r.2.2.watcher.countEscape r.1, r.2.2.u16Length, r.2.2.src⟩) hsync).congr ?_
        refine iff_of_false not_false fun hbad => ?_
        exact hrest (hoverruns.mp hbad).1.2
    · cases hcheck

theorem headerByte_src {c : Cursor} (h : headerByte ch e = .inl c) : c.src = e.src := by
  rw [headerByte] at h
  dsimp only at h
  split at h
  · cases h
    rfl
  · split at h
    · cases h
    · cases h
      rfl
  · cases h
  · cases h
    rfl

theorem decodeRound_decreases : (decodeRound len).Decreases fun c => c.src.length := by
  intro c c' h
  rw [decodeRound] at h
  split at h
  · cases h
  split at h
  · cases h
  rename_i ch rest hsrc
  dsimp only at h ⊢
  rw [hsrc, List.length_cons]
  split at h
  · cases h
    exact Nat.lt_succ_self _
  split at h
  · cases h
    exact Nat.lt_succ_self _
  split at h
  · rw [headerByte_src (Except.ok.inj h)]
    exact Nat.lt_succ_self _
  · obtain ⟨r, hr, h⟩ := bind_ok_iff.mp h
    rw [headerByte_src (Except.ok.inj h)]
    exact Nat.lt_succ_of_le (escape_length hr)

def entered (c : Cursor) (ch : UInt8) (state : FrameState) : UsbRxWatcher :=
  { c.watcher with m_md_index := (c.watcher.decoder ch).2, m_cTstFrameState := state }

/-- **The condition on a frame** whose type has been read. -/
def FrameGuarded (ctx : Context) (buf : List UInt8) (ch : UInt8) (c : Cursor) : Prop :=
  match (c.watcher.decoder ch).1 with
  | .decodeMDFrame =>
    ∀ d, ((entered c ch .MD_DATA).mdRound ctx buf ch).Comes
        ((entered c ch .MD_DATA).mdStart buf c.u16Length) d →
      ¬ (65536 ≤ buf.length ∧ d.CutOff ctx)
  | .decodeAPFrame =>
    ¬ (4 < (content c.src).length ∧ ZeroLocal (content c.src)) ∧
      ∀ d, (apRound ctx buf.length).Comes
          ⟨startAP { c.watcher with m_md_index := (c.watcher.decoder ch).2 }, c.u16Length, c.src⟩
          d →
        ¬ (65536 ≤ buf.length ∧ d.CutOff)
  | .decodeLTE_C2KFrame =>
    ∀ d, (lteRound ctx buf.length c.src ch).Comes
        (lteStart ⟨entered c ch .MD_TUNNELING_DATA, c.u16Length, c.src⟩) d →
      ¬ d.Fails ctx buf.length
  | .none => True

theorem dispatchFrame_within_iff (h : Synced buf.length e.u16Length e.src) :
    Yields (dispatchFrame ctx buf ch e) (Within buf.length) ↔ FrameGuarded ctx buf ch e := by
  rw [dispatchFrame, FrameGuarded]
  dsimp only
  cases (e.watcher.decoder ch).1 with
  | decodeMDFrame => exact decodeMDFrame_within_iff h.le h.lt
  | decodeAPFrame => exact decodeAPFrame_within_iff h
  | decodeLTE_C2KFrame => exact decodeLTE_within_iff (c := ⟨_, _, e.src⟩) h
  | none => exact iff_of_true ⟨_, rfl, h.le⟩ trivial

end UsbRxWatcher

/-- **The condition on the data** and the state in which they come. -/
structure Guarded (ctx : Context) (s : UsbRxWatcher) (buf : List UInt8) : Prop where
  header : ∀ c, (UsbRxWatcher.decodeRound buf.length).Comes ⟨s, 0, buf⟩ c →
    ¬ c.Overruns buf.length
  frame : ∀ c ch d, (UsbRxWatcher.decodeRound buf.length).Comes ⟨s, 0, buf⟩ c →
    UsbRxWatcher.decodeRound buf.length c = .ok (.inr (.typed ch d)) →
    UsbRxWatcher.FrameGuarded ctx buf ch d

open UsbRxWatcher Loop in
/-- **Bounds**: for any data, in any state, `decode` and the decoder that it hands over to end, read
within the data and leave a position within them, exactly when the data meet the condition. -/
theorem decode_within_iff (ctx : Context) (s : UsbRxWatcher) (buf : List UInt8) :
    Yields (s.decode ctx buf) (fun p => p.u16Length ≤ buf.length) ↔ Guarded ctx s buf := by
  have hstart : Synced buf.length 0 buf := ⟨by rw [Nat.sub_self]; rfl, le_rfl⟩
  have hkept : ∀ c, (decodeRound buf.length).Comes ⟨s, 0, buf⟩ c →
      Settles (c.Overruns buf.length) (fun c => Synced buf.length c.u16Length c.src)
        (Header.Within buf.length) (decodeRound buf.length c) := fun c hcomes =>
    decodeRound_settles (hcomes.invariant (I := fun c => Synced buf.length c.u16Length c.src) hstart
      fun t t' ht hgo => by
        have hsettles := decodeRound_settles ht
        rw [hgo] at hsettles
        exact hsettles.2)
  have hends : ∀ c h, (decodeRound buf.length).Comes ⟨s, 0, buf⟩ c →
      decodeRound buf.length c = .ok (.inr h) → s.decode ctx buf =
        match h with
        | .parsed p => .ok p
        | .typed ch c => dispatchFrame ctx buf ch c := fun c h hcomes hend => by
    rw [UsbRxWatcher.decode, run_ok_of_comes decodeRound_decreases hcomes hend
      (Nat.lt_succ_self _)]
    rfl
  constructor
  · rintro ⟨p, hp, hwithin⟩
    refine ⟨fun c hcomes hbad => ?_, fun c ch d hcomes hend => ?_⟩
    · have hsettles := hkept c hcomes
      rcases hr : decodeRound buf.length c with fault | c' | h
      · rw [UsbRxWatcher.decode, run_error_of_comes decodeRound_decreases hcomes hr
          (Nat.lt_succ_self _)] at hp
        cases hp
      · rw [hr] at hsettles
        exact hsettles.1 hbad
      · rw [hr] at hsettles
        exact hsettles.1 hbad
    · have hsettles := hkept c hcomes
      rw [hend] at hsettles
      refine (dispatchFrame_within_iff hsettles.2).mp ⟨p, ?_, hwithin⟩
      rw [← hp, hends c _ hcomes hend]
  · rintro ⟨hheader, hframe⟩
    obtain ⟨c, hcomes, ⟨h, hend⟩ | ⟨fault, hfail⟩⟩ :=
      exists_last (L := decodeRound buf.length) decodeRound_decreases ⟨s, 0, buf⟩
    · have hsettles := hkept c hcomes
      rw [hend] at hsettles
      rw [hends c h hcomes hend]
      cases h with
      | parsed p => exact ⟨p, rfl, hsettles.2⟩
      | typed ch d => exact (dispatchFrame_within_iff hsettles.2).mpr (hframe c ch d hcomes hend)
    · have hsettles := hkept c hcomes
      rw [hfail] at hsettles
      exact absurd hsettles (hheader c hcomes)

/-- A start byte and the first byte of an escape. -/
theorem escape_cut_off :
    ¬ Yields (UsbRxWatcher.decode (.usb []) {} [0x55, 0x5A]) (fun p => p.u16Length ≤ 2) := by
  rintro ⟨p, hp, -⟩
  cases hp

end MtkHardware.Meta
