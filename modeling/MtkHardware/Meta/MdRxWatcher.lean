import MtkHardware.Meta.MetaPub
import MtkHardware.Util.Checked
import MtkHardware.Util.Run
import Mathlib.Data.List.Basic

/-!
# The Watcher of a Modem in META Mode

`MdRxWatcher::process` gathers the bytes of a modem in `m_frmBuf` and calls `processMDConfirm` with
every frame whose checksum is right. The bytes of a call come one by one; what is left of a call is
dropped when `process` returns in its middle.

A frame of the protocol stack is `0x55`, two length bytes, the content and a checksum, with `0x5A`
and `0xA5` escaped behind the `0x55`. `m_bufLen` counts the bytes as they come, `m_frmLen` is the
length of the content and counts the escapes.
-/

namespace MtkHardware.Meta

/-- The states of `m_frmStat`, less `RS232_FRAME_`. -/
inductive FrmStat
  | STX
  | LENHI
  | LENLO
  | MD_CONFIRM_DATA
  | CHECKSUM
  | KEYWORD
  deriving DecidableEq, Repr

structure MdRxWatcher where
  m_bufLen : ℕ := 0
  m_frmLen : ℕ := 0
  m_frmBuf : Vector UInt8 FRAME_MAX_LEN := .replicate _ 0
  m_frmStat : FrmStat := .STX
  m_frmStat0 : FrmStat := .STX
  m_chkSum : UInt8 := 0
  m_bL1Header : Bool := false
  /-- `process` has returned; what is left of the call is dropped. -/
  returned : Bool := false

inductive MdFault
  /-- A write past `m_frmBuf`. -/
  | frmBuf
  /-- The index of `process`, an `unsigned short`, never reaches the length of the call. -/
  | endless
  deriving DecidableEq, Repr

def unescape (ch : UInt8) : UInt8 :=
  if ch = MUX_KEY_WORD then MUX_KEY_WORD else if ch = 0x01 then STX_L1HEADER else ch

namespace MdRxWatcher

variable (s : MdRxWatcher) (ch : UInt8)

/-- `m_frmBuf[m_bufLen] = ch` -/
def store : Except MdFault MdRxWatcher := do
  let m_frmBuf ← writeAt .frmBuf s.m_frmBuf s.m_bufLen ch
  return { s with m_frmBuf, m_bufLen := u16 (s.m_bufLen + 1) }

/-- The `switch` on the state, with the frame that is handed to `processMDConfirm`. -/
def act : MdRxWatcher × List (List UInt8) :=
  let m_chkSum := s.m_chkSum ^^^ ch
  match s.m_frmStat with
  | .LENHI =>
    let m_frmLen := if s.m_bL1Header then ch.toNat else ch.toNat * 256
    ({ s with m_frmLen, m_frmStat := .LENLO, m_chkSum }, [])
  | .LENLO =>
    let m_frmLen := u16 (s.m_frmLen + if s.m_bL1Header then ch.toNat * 256 else ch.toNat)
    -- the frame is too long
    if FRAME_MAX_LEN < m_frmLen + 4 then
      ({ s with m_frmLen, m_frmStat := .STX, returned := true }, [])
    else ({ s with m_frmLen, m_frmStat := .MD_CONFIRM_DATA, m_chkSum }, [])
  | .MD_CONFIRM_DATA =>
    if s.m_bufLen = s.m_frmLen + 3 then ({ s with m_frmStat := .CHECKSUM, m_chkSum }, [])
    else ({ s with m_chkSum }, [])
  | .CHECKSUM =>
    if s.m_chkSum = ch then
      ({ s with m_frmStat := .STX, m_bufLen := 0, m_frmLen := 0, m_chkSum := 0 ^^^ ch },
        [s.m_frmBuf.toList.take (u16 (s.m_frmLen + 4))])
    else ({ s with m_frmStat := .STX, m_chkSum }, [])
  | .STX => ({ s with m_bufLen := 0, m_frmLen := 0, m_chkSum := ch ^^^ ch }, [])
  | .KEYWORD => ({ s with m_chkSum }, [])

def dispatch : MdRxWatcher × List (List UInt8) :=
  if (ch = STX_OCTET ∨ ch = STX_L1HEADER) ∧ s.m_frmStat ≠ .MD_CONFIRM_DATA ∧
      s.m_frmStat ≠ .LENHI ∧ s.m_frmStat ≠ .LENLO then
    let s := { s with m_bL1Header := ch = STX_L1HEADER }
    if s.m_frmStat ≠ .CHECKSUM then
      ({ s with m_frmStat := .LENHI, m_chkSum := ch, m_frmLen := 0 }, [])
    else s.act ch
  else if ¬ s.m_bL1Header ∧ ch = MUX_KEY_WORD ∧ s.m_frmStat ≠ .KEYWORD then
    ({ s with m_frmStat0 := s.m_frmStat, m_frmStat := .KEYWORD }, [])
  else if s.m_frmStat = .KEYWORD then
    { s with m_frmStat := s.m_frmStat0, m_frmLen := u16 (s.m_frmLen + 1) }.act (unescape ch)
  else s.act ch

/-- A round of the loop of `process`. -/
def receive : Except MdFault (MdRxWatcher × List (List UInt8)) := do
  let s ← s.store ch
  return s.dispatch ch

end MdRxWatcher

inductive MdOp
  /-- A call of `process` for so many bytes. -/
  | process (len : ℕ)
  /-- The next byte of the call. -/
  | receive (ch : UInt8)
  deriving DecidableEq, Repr

/-- The watcher: what it emits are the frames handed to `processMDConfirm`. -/
def md : Machine MdRxWatcher MdOp (List UInt8) MdFault
  | s, .process len =>
    if 65536 ≤ len then .error .endless else .ok ({ s with returned := false }, [])
  | s, .receive ch => if s.returned then .ok (s, []) else s.receive ch

/-- The steps of a call of `process`. -/
def process (buf : List UInt8) : List MdOp := .process buf.length :: buf.map .receive

def bytes : List MdOp → List UInt8
  | [] => []
  | .process _ :: ops => bytes ops
  | .receive ch :: ops => ch :: bytes ops

def Short (ops : List MdOp) : Prop := ∀ len, MdOp.process len ∈ ops → len < 65536

theorem bytes_append (ops ops' : List MdOp) : bytes (ops ++ ops') = bytes ops ++ bytes ops' := by
  induction ops with
  | nil => rfl
  | cons op ops ih => cases op <;> simp [bytes, ih]

theorem bytes_map_receive (bs : List UInt8) : bytes (bs.map .receive) = bs := by
  induction bs with
  | nil => rfl
  | cons b bs ih => rw [List.map_cons, bytes, ih]

section Steps

variable {s s' : MdRxWatcher} {op : MdOp} {ops : List MdOp} {bs : List UInt8} {ch : UInt8}
  {os o : List (List UInt8)}

namespace MdRxWatcher

def stored (s : MdRxWatcher) (ch : UInt8) (h : s.m_bufLen < FRAME_MAX_LEN) : MdRxWatcher :=
  { s with m_frmBuf := s.m_frmBuf.set s.m_bufLen ch h, m_bufLen := u16 (s.m_bufLen + 1) }

theorem receive_eq (h : s.m_bufLen < FRAME_MAX_LEN) :
    s.receive ch = .ok ((s.stored ch h).dispatch ch) := by
  rw [receive, store, writeAt_natCast h]
  rfl

end MdRxWatcher

/-! ### The `switch`, state by state -/

namespace MdRxWatcher

theorem act_lenhi (h : s.m_frmStat = .LENHI) : s.act ch = ({ s with
    m_frmLen := if s.m_bL1Header then ch.toNat else ch.toNat * 256, m_frmStat := .LENLO,
    m_chkSum := s.m_chkSum ^^^ ch }, []) := by
  simp only [act, h]

/-- The length in the state `LENLO`. -/
def lenlo (s : MdRxWatcher) (ch : UInt8) : ℕ :=
  u16 (s.m_frmLen + if s.m_bL1Header then ch.toNat * 256 else ch.toNat)

theorem act_lenlo (h : s.m_frmStat = .LENLO) : s.act ch =
    if FRAME_MAX_LEN < s.lenlo ch + 4 then
      ({ s with m_frmLen := s.lenlo ch, m_frmStat := .STX, returned := true }, [])
    else ({ s with
      m_frmLen := s.lenlo ch, m_frmStat := .MD_CONFIRM_DATA,
      m_chkSum := s.m_chkSum ^^^ ch }, []) := by
  simp only [act, h]
  rfl

theorem act_data (h : s.m_frmStat = .MD_CONFIRM_DATA) : s.act ch =
    if s.m_bufLen = s.m_frmLen + 3 then
      ({ s with m_frmStat := .CHECKSUM, m_chkSum := s.m_chkSum ^^^ ch }, [])
    else ({ s with m_chkSum := s.m_chkSum ^^^ ch }, []) := by
  simp only [act, h]

theorem act_checksum (h : s.m_frmStat = .CHECKSUM) : s.act ch =
    if s.m_chkSum = ch then
      ({ s with m_frmStat := .STX, m_bufLen := 0, m_frmLen := 0, m_chkSum := 0 ^^^ ch },
        [s.m_frmBuf.toList.take (u16 (s.m_frmLen + 4))])
    else ({ s with m_frmStat := .STX, m_chkSum := s.m_chkSum ^^^ ch }, []) := by
  simp only [act, h]

theorem act_stx (h : s.m_frmStat = .STX) : s.act ch =
    ({ s with m_bufLen := 0, m_frmLen := 0, m_chkSum := ch ^^^ ch }, []) := by
  simp only [act, h]

end MdRxWatcher

/-! ### Calls -/

/-- Once `process` has returned, the rest of the call is dropped. -/
theorem open_of_runs (h : md.Runs s (bs.map .receive) s' os) (hopen : s'.returned = false) :
    s.returned = false := by
  induction bs generalizing s os with
  | nil =>
    obtain ⟨rfl, -⟩ := h.deterministic .init
    exact hopen
  | cons ch bs ih =>
    obtain ⟨s₁, o, os', hstep, hrest, -⟩ := Machine.runs_cons_iff.mp h
    have hopen₁ := ih hrest
    by_contra hreturned
    rw [md, if_pos (by simpa using hreturned)] at hstep
    cases hstep
    exact hreturned hopen₁

theorem runs_of_bytes (h : md.Runs s (bs.map .receive) s' os) (hopen : s'.returned = false)
    (hbytes : bytes ops = bs) (hshort : Short ops) : md.Runs s ops s' os := by
  induction ops generalizing s bs os with
  | nil =>
    cases hbytes
    exact h
  | cons op ops ih =>
    have hrest : Short ops := fun len hlen => hshort len (List.mem_cons_of_mem op hlen)
    cases op with
    | process len =>
      have hlen : ¬ 65536 ≤ len := not_le.mpr (hshort len List.mem_cons_self)
      have hstep : md s (.process len) = .ok (s, []) := by
        rw [md, if_neg hlen, ← open_of_runs h hopen]
      exact Machine.runs_cons_iff.mpr ⟨s, [], os, hstep, ih h hbytes hrest, rfl⟩
    | receive ch =>
      subst hbytes
      obtain ⟨s₁, o, os', hstep, hrun, rfl⟩ := Machine.runs_cons_iff.mp h
      exact Machine.runs_cons_iff.mpr ⟨s₁, o, os', hstep, ih hrun rfl hrest, rfl⟩

/-! ### What is held and what is sent -/

namespace MdRxWatcher

/-- **The invariant** of the counts: what has been stored is what the checksum is expected behind.
-/
structure Balanced (s : MdRxWatcher) : Prop where
  bufLen : s.m_bufLen < FRAME_MAX_LEN
  checksum : s.m_frmStat = .CHECKSUM → s.m_bufLen = u16 (s.m_frmLen + 3)
  keyword : s.m_frmStat = .KEYWORD → s.m_frmStat0 = .CHECKSUM → s.m_bufLen = u16 (s.m_frmLen + 4)
  keyword0 : s.m_frmStat0 ≠ .KEYWORD

theorem balanced_init : Balanced {} := ⟨by decide, nofun, nofun, nofun⟩

theorem length_act_le (s : MdRxWatcher) (ch : UInt8) : (s.act ch).2.length ≤ 1 := by
  cases h : s.m_frmStat with
  | LENHI =>
    rw [act_lenhi h]
    exact Nat.zero_le _
  | LENLO =>
    rw [act_lenlo h]
    split <;> exact Nat.zero_le _
  | MD_CONFIRM_DATA =>
    rw [act_data h]
    split <;> exact Nat.zero_le _
  | CHECKSUM =>
    rw [act_checksum h]
    split
    · exact le_rfl
    · exact Nat.zero_le _
  | STX =>
    rw [act_stx h]
    exact Nat.zero_le _
  | KEYWORD => simp [act, h]

theorem length_dispatch_le (s : MdRxWatcher) (ch : UInt8) : (s.dispatch ch).2.length ≤ 1 := by
  rw [dispatch]
  split
  · dsimp only
    split
    · exact Nat.zero_le _
    · exact length_act_le _ _
  split
  · exact Nat.zero_le _
  split <;> exact length_act_le _ _

def size (os : List (List UInt8)) : ℕ := (os.map List.length).sum

/-- What a step leaves, when so many bytes are held: what it sends and still holds is not more. -/
structure Settled (held : ℕ) (r : MdRxWatcher × List (List UInt8)) : Prop where
  balanced : r.1.Balanced
  size : size r.2 + r.1.m_bufLen ≤ held
  one : r.2.length ≤ 1
  sent : r.2 ≠ [] → r.1.m_bufLen = 0
  short : ∀ x ∈ r.2, x.length < FRAME_MAX_LEN

theorem settled_quiet {held : ℕ} (h : s.Balanced) (hheld : s.m_bufLen ≤ held) :
    Settled held (s, []) :=
  ⟨h, by simpa [MdRxWatcher.size] using hheld, Nat.zero_le _, fun hne => absurd rfl hne, by simp⟩

theorem settled_act (hbuf : s.m_bufLen < FRAME_MAX_LEN)
    (hsum : s.m_frmStat = .CHECKSUM → s.m_bufLen = u16 (s.m_frmLen + 4))
    (hkey : s.m_frmStat ≠ .KEYWORD) (hkey0 : s.m_frmStat0 ≠ .KEYWORD) :
    Settled s.m_bufLen (s.act ch) := by
  cases hstat : s.m_frmStat with
  | LENHI =>
    rw [act_lenhi hstat]
    refine settled_quiet ?_ le_rfl
    exact ⟨hbuf, nofun, nofun, hkey0⟩
  | LENLO =>
    rw [act_lenlo hstat]
    split
    · refine settled_quiet ?_ le_rfl
      exact ⟨hbuf, nofun, nofun, hkey0⟩
    · refine settled_quiet ?_ le_rfl
      exact ⟨hbuf, nofun, nofun, hkey0⟩
  | MD_CONFIRM_DATA =>
    rw [act_data hstat]
    split
    · rename_i hlen
      refine settled_quiet ?_ le_rfl
      exact ⟨hbuf, fun _ => by rw [← hlen, u16_of_lt hbuf], nofun, hkey0⟩
    · refine settled_quiet ?_ le_rfl
      exact ⟨hbuf, fun h => (nomatch hstat.symm.trans h),
        fun h => (nomatch hstat.symm.trans h), hkey0⟩
  | CHECKSUM =>
    rw [act_checksum hstat]
    split
    · have hlength : (s.m_frmBuf.toList.take (u16 (s.m_frmLen + 4))).length = s.m_bufLen := by
        have hlt := u16_lt (s.m_frmLen + 4)
        rw [hsum hstat, List.length_take, Vector.length_toList]
        omega
      refine ⟨⟨Nat.zero_lt_succ _, nofun, nofun, hkey0⟩, ?_, le_rfl, fun _ => rfl, ?_⟩
      · simp [MdRxWatcher.size, hlength]
      · simpa [hlength] using hbuf
    · refine settled_quiet ?_ le_rfl
      exact ⟨hbuf, nofun, nofun, hkey0⟩
  | STX =>
    rw [act_stx hstat]
    refine settled_quiet ?_ (Nat.zero_le _)
    exact ⟨Nat.zero_lt_succ _, fun h => (nomatch hstat.symm.trans h),
      fun h => (nomatch hstat.symm.trans h), hkey0⟩
  | KEYWORD => exact absurd hstat hkey

theorem settled_dispatch (hbuf : s.m_bufLen < FRAME_MAX_LEN)
    (hsum : s.m_frmStat = .CHECKSUM → s.m_bufLen = u16 (s.m_frmLen + 4))
    (hkeyword : s.m_frmStat = .KEYWORD → s.m_frmStat0 = .CHECKSUM →
      s.m_bufLen = u16 (s.m_frmLen + 5)) (hkey0 : s.m_frmStat0 ≠ .KEYWORD) :
    Settled s.m_bufLen (s.dispatch ch) := by
  rw [dispatch]
  split
  · dsimp only
    split
    · refine settled_quiet ?_ le_rfl
      exact ⟨hbuf, nofun, nofun, hkey0⟩
    · rename_i hstat
      have hstat : s.m_frmStat = .CHECKSUM := not_not.mp hstat
      exact settled_act (s := { s with m_bL1Header := ch = STX_L1HEADER }) hbuf hsum
        (fun h => (nomatch hstat.symm.trans h)) hkey0
  split
  · rename_i hkey
    refine settled_quiet ?_ le_rfl
    exact ⟨hbuf, nofun, fun _ hstat => hsum hstat, hkey.2.2⟩
  split
  · rename_i hkey
    refine settled_act
      (s := { s with m_frmStat := s.m_frmStat0, m_frmLen := u16 (s.m_frmLen + 1) })
      hbuf (fun hstat => ?_) hkey0 hkey0
    simp only [hkeyword hkey hstat, u16]
    omega
  · rename_i hkey
    exact settled_act hbuf hsum hkey hkey0

theorem Balanced.yields_receive (h : s.Balanced) :
    Yields (s.receive ch) (Settled (s.m_bufLen + 1)) := by
  refine ⟨_, receive_eq h.bufLen, ?_⟩
  have hsum : s.m_frmStat = .CHECKSUM → u16 (s.m_bufLen + 1) = u16 (s.m_frmLen + 4) := by
    intro hstat
    simp only [h.checksum hstat, u16]
    omega
  have hkeyword : s.m_frmStat = .KEYWORD → s.m_frmStat0 = .CHECKSUM →
      u16 (s.m_bufLen + 1) = u16 (s.m_frmLen + 5) := fun hstat hstat0 => by
    simp only [h.keyword hstat hstat0, u16]
    omega
  have hstored : Settled (u16 (s.m_bufLen + 1)) ((s.stored ch h.bufLen).dispatch ch) :=
    settled_dispatch (s := s.stored ch h.bufLen) (u16_lt _) hsum hkeyword h.keyword0
  have hle : u16 (s.m_bufLen + 1) ≤ s.m_bufLen + 1 := Nat.mod_le _ _
  exact ⟨hstored.balanced, hstored.size.trans hle, hstored.one, hstored.sent, hstored.short⟩

/-- **The step lemma.** -/
theorem Balanced.step (h : s.Balanced) (hstep : md s op = .ok (s', o)) :
    Settled (s.m_bufLen + (bytes [op]).length) (s', o) := by
  cases op with
  | process len =>
    rw [md] at hstep
    split at hstep
    · cases hstep
    · cases hstep
      exact settled_quiet ⟨h.bufLen, h.checksum, h.keyword, h.keyword0⟩ le_rfl
  | receive ch =>
    rw [md] at hstep
    split at hstep
    · cases hstep
      exact settled_quiet h (Nat.le_add_right _ _)
    · exact h.yields_receive.of_ok hstep

theorem Balanced.not_frmBuf (h : s.Balanced) : md s op ≠ .error .frmBuf := by
  intro hfault
  cases op with
  | process len =>
    rw [md] at hfault
    split at hfault <;> cases hfault
  | receive ch =>
    obtain ⟨r, hr, -⟩ : Yields (s.receive ch) _ := h.yields_receive
    rw [md, hr] at hfault
    split at hfault <;> cases hfault

theorem Balanced.size_le (h : s.Balanced) (hrun : md.Runs s ops s' os) :
    s'.Balanced ∧ size os + s'.m_bufLen ≤ s.m_bufLen + (bytes ops).length := by
  induction hrun with
  | init => exact ⟨h, by simp [MdRxWatcher.size, bytes]⟩
  | snoc _ hstep ih =>
    obtain ⟨hbalanced, hsize⟩ := ih
    have hsettled := hbalanced.step hstep
    refine ⟨hsettled.balanced, ?_⟩
    have hstep := hsettled.size
    rw [bytes_append, List.length_append]
    simp only [MdRxWatcher.size, List.map_append, List.sum_append] at *
    omega

/-! ### Between the frames -/

def Idle (s : MdRxWatcher) : Prop :=
  s.m_frmStat = .STX ∨ (s.m_frmStat = .KEYWORD ∧ s.m_frmStat0 = .STX)

theorem Idle.dispatch (h : s.Idle) (ch : UInt8) :
    (s.dispatch ch).2 = [] ∧ (s.dispatch ch).1.returned = s.returned ∧
      (ch ≠ STX_OCTET → ch ≠ STX_L1HEADER → (s.dispatch ch).1.Idle) := by
  rw [MdRxWatcher.dispatch]
  split
  · rename_i hstart
    have hsum : s.m_frmStat ≠ .CHECKSUM := by
      rcases h with h | ⟨h, -⟩ <;> rw [h] <;> decide
    dsimp only
    rw [if_pos hsum]
    exact ⟨rfl, rfl, fun hstx hl1 => absurd hstart.1 (not_or.mpr ⟨hstx, hl1⟩)⟩
  split
  · rename_i hmux
    rcases h with h | ⟨h, -⟩
    · exact ⟨rfl, rfl, fun _ _ => .inr ⟨rfl, h⟩⟩
    · exact absurd h hmux.2.2
  split
  · rename_i hkey
    have hstat0 : s.m_frmStat0 = .STX := by
      rcases h with h | ⟨-, h⟩
      · rw [h] at hkey
        cases hkey
      · exact h
    rw [act_stx (s := { s with m_frmStat := s.m_frmStat0, m_frmLen := _ }) hstat0]
    exact ⟨rfl, rfl, fun _ _ => .inl hstat0⟩
  · rename_i hkey
    have hstat : s.m_frmStat = .STX := h.resolve_right fun h => hkey h.1
    rw [act_stx hstat]
    exact ⟨rfl, rfl, fun _ _ => .inl hstat⟩

theorem Idle.step (h : s.Idle) (hbalanced : s.Balanced) (hopen : s.returned = false) (ch : UInt8) :
    ∃ t, md s (.receive ch) = .ok (t, []) ∧ t.returned = false ∧ t.Balanced ∧
      (ch ≠ STX_OCTET → ch ≠ STX_L1HEADER → t.Idle) := by
  have hidle : (s.stored ch hbalanced.bufLen).Idle := h
  obtain ⟨hquiet, hopen', hstays⟩ := hidle.dispatch ch
  have hstep : md s (.receive ch) = .ok (((s.stored ch hbalanced.bufLen).dispatch ch).1, []) := by
    rw [md, if_neg (by simp [hopen]), receive_eq hbalanced.bufLen, ← hquiet]
  exact ⟨_, hstep, hopen'.trans hopen, (hbalanced.step hstep).balanced, hstays⟩

end MdRxWatcher

end Steps

end MtkHardware.Meta
