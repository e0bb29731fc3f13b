import MtkHardware.Meta.MdRxFrames

/-!
# The Watcher Behind a Rejected Frame

The exits for a frame that is rejected leave `m_bufLen` as it is: the bytes of the frame stay in
`m_frmBuf` until a byte comes that no frame starts with. A frame that comes right behind is stored
behind them, and its length is compared with the count of both. For a frame that is too long
`process` returns, too, and with it goes what is left of the call.
-/

namespace MtkHardware.Meta

/-! ### Frames of L1 -/

/-- The checksum of a frame of L1, whose length comes with the low byte first. -/
def l1Checksum (content : List UInt8) : UInt8 :=
  (lenLo content :: lenHi content :: content).foldl (· ^^^ ·) STX_L1HEADER

/-- The raw bytes of a frame of L1, in which nothing is escaped. -/
def l1Wire (content : List UInt8) : List UInt8 :=
  STX_L1HEADER :: lenLo content :: lenHi content :: content ++ [l1Checksum content]

inductive MdFrame
  | ps (content : List UInt8)
  | l1 (content : List UInt8)

def MdFrame.raw : MdFrame → List UInt8
  | .ps content => wire content
  | .l1 content => l1Wire content

/-- The condition on a frame: that of one of the protocol stack, or, for one of L1, content and a
length that `processMDConfirm` can be told. -/
def MdFrame.Forwardable : MdFrame → Prop
  | .ps content => Meta.Forwardable content
  | .l1 content => content ≠ [] ∧ (l1Wire content).length < FRAME_MAX_LEN

section Steps

variable {s s' t : MdRxWatcher} {op : MdOp} {ops : List MdOp} {raw bs content : List UInt8}
  {ch d : UInt8} {os o : List (List UInt8)} {stat : FrmStat} {n : ℕ} {x : UInt8}

namespace MdRxWatcher

theorem dispatch_l1_start (hstat : s.m_frmStat = .STX ∨ s.m_frmStat = .KEYWORD) :
    s.dispatch STX_L1HEADER = ({ s with
      m_bL1Header := true, m_frmStat := .LENHI, m_chkSum := STX_L1HEADER, m_frmLen := 0 }, []) := by
  have hfirst : s.m_frmStat ≠ .MD_CONFIRM_DATA ∧ s.m_frmStat ≠ .LENHI ∧ s.m_frmStat ≠ .LENLO ∧
      s.m_frmStat ≠ .CHECKSUM := by
    rcases hstat with hstat | hstat <;> rw [hstat] <;> decide
  rw [dispatch, if_pos ⟨.inr rfl, hfirst.1, hfirst.2.1, hfirst.2.2.1⟩]
  dsimp only
  rw [if_pos hfirst.2.2.2]
  rfl

theorem dispatch_l1 (hl1 : s.m_bL1Header = true) (hstat : s.m_frmStat.isField)
    (hsum : s.m_frmStat ≠ .CHECKSUM) : s.dispatch ch = s.act ch := by
  have hdata : ¬ ((ch = STX_OCTET ∨ ch = STX_L1HEADER) ∧ s.m_frmStat ≠ .MD_CONFIRM_DATA ∧
      s.m_frmStat ≠ .LENHI ∧ s.m_frmStat ≠ .LENLO) := by
    cases h : s.m_frmStat <;> simp_all [FrmStat.isField]
  rw [dispatch, if_neg hdata, if_neg fun h => h.1 hl1,
    if_neg fun h => by rw [h] at hstat; cases hstat]

end MdRxWatcher

theorem Ready.l1_start (h : Ready s) : ∃ t, InFrame t [STX_L1HEADER] .LENHI 0 STX_L1HEADER true ∧
    md.Runs s [.receive STX_L1HEADER] t [] := by
  obtain ⟨t, ht, -, hreceive⟩ := h.inFrame.store (by decide) STX_L1HEADER
  rw [MdRxWatcher.dispatch_l1_start (by rw [ht.frmStat]; exact h.frmStat)] at hreceive
  refine ⟨_, ?_, .single ((md_receive h.returned).trans hreceive)⟩
  exact ⟨ht.bufLen, ht.frmBuf, rfl, rfl, rfl, rfl, ht.returned⟩

theorem InFrame.l1_field (h : InFrame s raw stat n x true) (hstat : stat.isField)
    (hsum : stat ≠ .CHECKSUM) (hlen : raw.length + 1 < FRAME_MAX_LEN) (d : UInt8) :
    ∃ t, InFrame t (raw ++ [d]) stat n x true ∧
      md.Runs s [.receive d] (t.act d).1 (t.act d).2 := by
  obtain ⟨t, ht, -, hreceive⟩ := h.store hlen d
  rw [MdRxWatcher.dispatch_l1 ht.l1 (by rw [ht.frmStat]; exact hstat)
    (by rw [ht.frmStat]; exact hsum)] at hreceive
  exact ⟨t, ht, .single ((md_receive h.returned).trans hreceive)⟩

theorem InFrame.l1_lenhi (h : InFrame s raw .LENHI n x true)
    (hlen : raw.length + 1 < FRAME_MAX_LEN) (d : UInt8) :
    ∃ t, InFrame t (raw ++ [d]) .LENLO d.toNat (x ^^^ d) true ∧ md.Runs s [.receive d] t [] := by
  obtain ⟨t, ht, hrun⟩ := h.l1_field rfl (by decide) hlen d
  rw [MdRxWatcher.act_lenhi ht.frmStat] at hrun
  refine ⟨_, ?_, hrun⟩
  refine ⟨ht.bufLen, ht.frmBuf, rfl, ?_, ?_, ht.l1, ht.returned⟩
  · dsimp only
    rw [ht.l1, if_pos rfl]
  · dsimp only
    rw [ht.chkSum]

theorem InFrame.l1_lenlo (h : InFrame s raw .LENLO n x true)
    (hlen : raw.length + 1 < FRAME_MAX_LEN) (d : UInt8)
    (haccept : n + d.toNat * 256 + 4 ≤ FRAME_MAX_LEN) :
    ∃ t, InFrame t (raw ++ [d]) .MD_CONFIRM_DATA (n + d.toNat * 256) (x ^^^ d) true ∧
      md.Runs s [.receive d] t [] := by
  obtain ⟨t, ht, hrun⟩ := h.l1_field rfl (by decide) hlen d
  have hlenlo : t.lenlo d = n + d.toNat * 256 := by
    rw [MdRxWatcher.lenlo, ht.l1, ht.frmLen, if_pos rfl]
    exact u16_of_lt (by omega)
  rw [MdRxWatcher.act_lenlo ht.frmStat, hlenlo, if_neg (by omega)] at hrun
  refine ⟨_, ?_, hrun⟩
  refine ⟨ht.bufLen, ht.frmBuf, rfl, rfl, ?_, ht.l1, ht.returned⟩
  dsimp only
  rw [ht.chkSum]

theorem InFrame.l1_content (content : List UInt8) (h : InFrame s raw .MD_CONFIRM_DATA n x true)
    (hcontent : content ≠ []) (hcount : raw.length + content.length = n + 3)
    (hlen : n + 3 < FRAME_MAX_LEN) :
    ∃ t, InFrame t (raw ++ content) .CHECKSUM n (content.foldl (· ^^^ ·) x) true ∧
      md.Runs s (content.map .receive) t [] := by
  induction content generalizing s raw x with
  | nil => exact absurd rfl hcontent
  | cons d content ih =>
    rw [List.length_cons] at hcount
    obtain ⟨t, ht, hrun⟩ := h.l1_field rfl (by decide) (by omega) d
    have hcheck : t.m_bufLen = t.m_frmLen + 3 ↔ content = [] := by
      rw [ht.bufLen, ht.frmLen, List.length_append, List.length_singleton,
        ← List.length_eq_zero_iff]
      omega
    rw [MdRxWatcher.act_data ht.frmStat] at hrun
    by_cases hlast : content = []
    · rw [if_pos (hcheck.mpr hlast)] at hrun
      subst hlast
      refine ⟨_, ?_, hrun⟩
      refine ⟨ht.bufLen, ht.frmBuf, rfl, ht.frmLen, ?_, ht.l1, ht.returned⟩
      dsimp only
      rw [ht.chkSum]
      rfl
    · rw [if_neg (mt hcheck.mp hlast)] at hrun
      have ht' : InFrame { t with m_chkSum := t.m_chkSum ^^^ d } (raw ++ [d])
          .MD_CONFIRM_DATA n (x ^^^ d) true :=
        ⟨ht.bufLen, ht.frmBuf, ht.frmStat, ht.frmLen, by rw [← ht.chkSum], ht.l1, ht.returned⟩
      obtain ⟨t₂, ht₂, hrun₂⟩ := ih ht' hlast (by simp; omega)
      rw [List.append_assoc] at ht₂
      exact ⟨t₂, ht₂, hrun.append hrun₂⟩

/-- The checksum of a frame of L1 may be a start byte, which is the end of the L1 flag but not of
the frame. -/
theorem MdRxWatcher.dispatch_l1_checksum (hl1 : s.m_bL1Header = true)
    (hstat : s.m_frmStat = .CHECKSUM) (ch : UInt8) :
    ∃ l1, s.dispatch ch = { s with m_bL1Header := l1 }.act ch := by
  rw [MdRxWatcher.dispatch]
  split
  · dsimp only
    rw [if_neg (not_not.mpr hstat)]
    exact ⟨_, rfl⟩
  · rw [if_neg fun h => h.1 hl1, if_neg fun h => by rw [h] at hstat; cases hstat]
    exact ⟨s.m_bL1Header, rfl⟩

theorem InFrame.l1_checksum (h : InFrame s raw .CHECKSUM n x true)
    (hlen : raw.length + 1 < FRAME_MAX_LEN) (hn : n + 3 = raw.length) :
    ∃ t, Ready t ∧ md.Runs s [.receive x] t [raw ++ [x]] := by
  obtain ⟨t, ht, -, hreceive⟩ := h.store hlen x
  obtain ⟨l1, hdispatch⟩ := MdRxWatcher.dispatch_l1_checksum ht.l1 ht.frmStat x
  have hframe := ht.frmBuf
  have hsent : u16 (n + 4) = (raw ++ [x]).length := by
    rw [List.length_append, List.length_singleton, u16_of_lt (by omega)]
    omega
  rw [hdispatch, MdRxWatcher.act_checksum (s := { t with m_bL1Header := l1 }) ht.frmStat,
    if_pos ht.chkSum, ht.frmLen, hsent, hframe] at hreceive
  refine ⟨_, ?_, .single ((md_receive h.returned).trans hreceive)⟩
  exact ⟨.inl rfl, rfl, ht.returned⟩

theorem length_l1Wire (content : List UInt8) : (l1Wire content).length = content.length + 4 := by
  simp [l1Wire]

theorem Ready.l1_frame (h : Ready s) (hcontent : content ≠ [])
    (hshort : (l1Wire content).length < FRAME_MAX_LEN) :
    ∃ t, Ready t ∧ md.Runs s ((l1Wire content).map .receive) t [l1Wire content] := by
  rw [length_l1Wire] at hshort
  have hnumber := toNat_lenHi (by omega : content.length < FRAME_MAX_LEN)
  obtain ⟨s₁, h₁, hrun₁⟩ := h.l1_start
  obtain ⟨s₂, h₂, hrun₂⟩ := h₁.l1_lenhi (by decide) (lenLo content)
  obtain ⟨s₃, h₃, hrun₃⟩ := h₂.l1_lenlo (by decide : 3 < FRAME_MAX_LEN) (lenHi content)
    (by omega)
  obtain ⟨s₄, h₄, hrun₄⟩ := h₃.l1_content content hcontent (by simp; omega) (by omega)
  have hsum : content.foldl (· ^^^ ·) (STX_L1HEADER ^^^ lenLo content ^^^ lenHi content) =
      l1Checksum content := rfl
  rw [hsum] at h₄
  obtain ⟨s₅, h₅, hrun₅⟩ := h₄.l1_checksum (by simp; omega) (by simp; omega)
  refine ⟨s₅, h₅, ?_⟩
  have hrun := (((hrun₁.append hrun₂).append hrun₃).append hrun₄).append hrun₅
  simpa [l1Wire] using hrun

theorem Ready.mdFrame {f : MdFrame} (h : Ready s) (hf : f.Forwardable) :
    ∃ t, Ready t ∧ md.Runs s (f.raw.map .receive) t [f.raw] := by
  cases f with
  | ps content => exact h.frame hf
  | l1 content => exact h.l1_frame hf.1 hf.2

/-! ### Behind a rejected frame -/

namespace MdRxWatcher

/-- The field of a frame that the next byte is of, or ends an escape in. -/
def field (s : MdRxWatcher) : FrmStat :=
  if s.m_frmStat = .KEYWORD then s.m_frmStat0 else s.m_frmStat

/-- The step gives a frame up: for its length, or for its checksum. -/
structure Rejects (s : MdRxWatcher) (op : MdOp) (s' : MdRxWatcher) : Prop where
  field : s.field = .LENLO ∨ s.field = .CHECKSUM
  step : md s op = .ok (s', [])
  frmStat : s'.m_frmStat = .STX

end MdRxWatcher

def NoStart (bs : List UInt8) : Prop := ∀ ch ∈ bs, ch ≠ STX_OCTET ∧ ch ≠ STX_L1HEADER

instance (bs : List UInt8) : Decidable (NoStart bs) := List.decidableBAll _ _

theorem MdRxWatcher.Balanced.runs (h : s.Balanced) (hrun : md.Runs s ops s' os) : s'.Balanced :=
  (h.size_le hrun).1

theorem MdRxWatcher.Idle.runs (h : s.Idle) (hbalanced : s.Balanced) (hrun : md.Runs s ops s' os)
    (hbytes : NoStart (bytes ops)) : s'.Idle ∧ os = [] := by
  induction hrun with
  | init => exact ⟨h, rfl⟩
  | @snoc ops₁ s₁ os₁ op s₂ o hrun hstep ih =>
    rw [bytes_append, NoStart, List.forall_mem_append] at hbytes
    obtain ⟨hidle, rfl⟩ := ih hbytes.1
    cases op with
    | process len =>
      rw [md] at hstep
      split at hstep
      · cases hstep
      · cases hstep
        exact ⟨hidle, rfl⟩
    | receive ch =>
      by_cases hopen : s₁.returned = false
      · obtain ⟨t, hstep', -, -, hstays⟩ := hidle.step (hbalanced.runs hrun) hopen ch
        rw [hstep'] at hstep
        cases hstep
        obtain ⟨hstx, hl1⟩ := hbytes.2 ch List.mem_cons_self
        exact ⟨hstays hstx hl1, rfl⟩
      · rw [md, if_pos (by simpa using hopen)] at hstep
        cases hstep
        exact ⟨hidle, rfl⟩

end Steps

/-- **Resynchronisation**: in any run, behind a frame that has been rejected and bytes with which no
frame starts, the next frame is forwarded as it is and nothing else is, when with its first byte
nothing is held in `m_frmBuf` any more and `process` has not returned from the call. -/
theorem next_frame_forwarded {before garbage frame : List MdOp} {op : MdOp}
    {s₀ s₁ s₂ s₃ : MdRxWatcher} {os₀ os₁ os₂ : List (List UInt8)} {f : MdFrame}
    (hbefore : md.Runs {} before s₀ os₀) (hreject : s₀.Rejects op s₁)
    (hgarbage : md.Runs s₁ garbage s₂ os₁) (hnostart : NoStart (bytes garbage))
    (hempty : s₂.m_bufLen = 0) (hopen : s₂.returned = false) (hf : f.Forwardable)
    (hframe : md.Runs s₂ frame s₃ os₂) (hraw : bytes frame = f.raw) : os₁ ++ os₂ = [f.raw] := by
  have hbalanced : s₁.Balanced :=
    ((MdRxWatcher.balanced_init.runs hbefore).step hreject.step).balanced
  have hidle : s₁.Idle := .inl hreject.frmStat
  obtain ⟨hidle', rfl⟩ := hidle.runs hbalanced hgarbage hnostart
  have hready : Ready s₂ := ⟨hidle'.imp id And.left, hempty, hopen⟩
  obtain ⟨t, ht, hrun⟩ := hready.mdFrame hf
  obtain ⟨-, rfl⟩ :=
    hframe.deterministic (runs_of_bytes hrun ht.returned hraw (short_of_runs hframe))
  rfl

/-- A frame whose checksum does not match, less its checksum. -/
def mismatch : List MdOp := .process 5 :: [0x55, 0x00, 0x01, 0x11].map .receive

/-- A frame behind a mismatch of the checksum and a byte that no frame starts with. -/
theorem next_frame_forwarded_behind_byte : ∃ s, md.Runs {}
    (mismatch ++ .receive 0xFF :: (process [0x00] ++ process (wire [0x22]))) s [wire [0x22]] := by
  have hshows : md.shows {} (mismatch ++ .receive 0xFF :: (process [0x00] ++ process (wire [0x22])))
      (fun _ _ => True) = true := by decide
  have hchecksum : md.observe {} mismatch MdRxWatcher.field = some (.CHECKSUM, []) := by
    decide
  have hstx : md.observe {} (mismatch ++ [.receive 0xFF]) MdRxWatcher.m_frmStat =
      some (.STX, []) := by decide
  have hready : md.observe {} (mismatch ++ [.receive 0xFF] ++ process [0x00])
      (fun s => (s.m_bufLen, s.returned)) = some ((0, false), []) := by decide
  obtain ⟨s₃, os, hrun, -⟩ := Machine.exists_run_of_shows hshows
  obtain ⟨s₀, s₁, os₀, o, os₁₂, hbefore, hstep, hrest, rfl⟩ := hrun.split_step
  obtain ⟨s₂, os₁, os₂, hgarbage, hframe, rfl⟩ := hrest.split
  obtain ⟨hfield, rfl⟩ := hbefore.view_of_observe hchecksum
  obtain ⟨hstat, rfl⟩ := (hbefore.snoc hstep).view_of_observe hstx
  obtain ⟨hopen, -⟩ := ((hbefore.snoc hstep).append hgarbage).view_of_observe hready
  have hforwarded := next_frame_forwarded (f := .ps [0x22]) hbefore ⟨.inr hfield, hstep, hstat⟩
    hgarbage (by decide) (congrArg Prod.fst hopen) (congrArg Prod.snd hopen)
    ⟨by decide, by decide, by decide⟩ hframe (by decide)
  rw [hforwarded] at hrun
  exact ⟨s₃, hrun⟩

/-- Of a frame right behind a mismatch of the checksum nothing is forwarded. -/
theorem stale_bytes_unforwarded : ∃ s₀ s₁ s₂, md.Runs {} mismatch s₀ [] ∧
    s₀.Rejects (.receive 0xFF) s₁ ∧ (MdFrame.ps [0x22]).Forwardable ∧
    md.Runs s₁ (process (wire [0x22])) s₂ [] := by
  have hall : md.observe {} (mismatch ++ .receive 0xFF :: process (wire [0x22])) (fun _ => ()) =
      some ((), []) := by decide
  have hchecksum : md.observe {} mismatch MdRxWatcher.field = some (.CHECKSUM, []) := by
    decide
  have hstx : md.observe {} (mismatch ++ [.receive 0xFF]) MdRxWatcher.m_frmStat =
      some (.STX, []) := by decide
  obtain ⟨s₂, hrun, -⟩ := Machine.exists_run_of_observe hall
  obtain ⟨s₀, s₁, os₀, o, os₁, hbefore, hstep, hframe, hnothing⟩ := hrun.split_step
  obtain ⟨hfield, rfl⟩ := hbefore.view_of_observe hchecksum
  obtain ⟨hstat, rfl⟩ := (hbefore.snoc hstep).view_of_observe hstx
  obtain rfl : os₁ = [] := by simpa using hnothing
  exact ⟨s₀, s₁, s₂, hbefore, ⟨.inr hfield, hstep, hstat⟩, ⟨by decide, by decide, by decide⟩,
    hframe⟩

end MtkHardware.Meta
