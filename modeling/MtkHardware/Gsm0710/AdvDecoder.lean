import MtkHardware.Gsm0710.Chunks
import MtkHardware.Gsm0710.Flags

/-!
# The Decoder of Advanced Mode

`gsm0710_advanced_buffer_get_frame` passes every byte as it looks at it, and keeps what it knows of
a frame in the buffer: whether a start flag has been found, what has been stored, and whether the
last byte was an escape. It goes back to its beginning when a frame is too short, too long or
corrupt.

`AdvState.feed` is what there is to know of it: what one byte does to what the decoder knows. There
is one thing it does not tell. At the beginning of a call flags are passed as long as nothing has
been stored, and also where an escape has been seen (`AdvState.enter`).
-/

namespace MtkHardware.Gsm0710

open RingBuffer

/-! ### The code -/

inductive AdvStep
  /-- `goto l_begin`. -/
  | restart (buf : GSM0710_Buffer)
  | frame (frame : GSM0710_Frame) (buf : GSM0710_Buffer)
  | next (buf : GSM0710_Buffer)

/-- The frame that is stored in `adv_data`. -/
def advFrame (data : ℕ → UInt8) (length : ℕ) : GSM0710_Frame where
  channel := GSM0710_DECODE_ADDRESS (data 0)
  control := data 1
  data := copy data 2 (length - 3)

/-- What `fcs` comes to with the check sequence itself. -/
def advCheck (data : ℕ → UInt8) (length : ℕ) : UInt8 :=
  let frame := advFrame data length
  let fcs := crc (crc 0xFF (data 0)) (data 1)
  let fcs := if isUI frame.control then frame.data.foldl crc fcs else fcs
  crc fcs (data (length - 1))

namespace GSM0710_Buffer

def closeFrame (buf : GSM0710_Buffer) : AdvStep :=
  if buf.adv_length < 3 then .restart { buf with flag_found := false }
  else if advCheck buf.adv_data buf.adv_length ≠ goodFcs then
    .restart { buf with flag_found := false, dropped_count := buf.dropped_count + 1 }
  else
    .frame (advFrame buf.adv_data buf.adv_length)
      { buf with received_count := buf.received_count + 1, flag_found := false }

def storeByte (buf : GSM0710_Buffer) (b : UInt8) : GSM0710_Buffer :=
  if buf.adv_found_esc then
    { buf with
      adv_data := Function.update buf.adv_data buf.adv_length (b ^^^ GSM0710_FRAME_ADV_ESC_COPML)
      adv_length := buf.adv_length + 1
      adv_found_esc := false }
  else if b = GSM0710_FRAME_ADV_ESC then { buf with adv_found_esc := true }
  else
    { buf with
      adv_data := Function.update buf.adv_data buf.adv_length b
      adv_length := buf.adv_length + 1 }

def analyzeByte (buf : GSM0710_Buffer) : AdvStep :=
  let b := buf.data buf.readp
  if buf.adv_found_esc = false ∧ b = GSM0710_FRAME_ADV_FLAG then buf.inc.closeFrame
  else if GSM0710_BUFFER_SIZE ≤ buf.adv_length then
    .restart { buf with flag_found := false, dropped_count := buf.dropped_count + 1 }
  else .next (buf.storeByte b).inc

/-- The third loop, which ends when `datacount` is `0`. -/
def analyze : ℕ → GSM0710_Buffer → AdvStep
  | 0, buf => .next buf
  | fuel + 1, buf =>
    if 0 < buf.datacount then
      match buf.analyzeByte with
      | .next buf => analyze fuel buf
      | step => step
    else .next buf

/-- The flags at the front are passed if nothing has been stored. -/
def skipEmpty (buf : GSM0710_Buffer) : GSM0710_Buffer :=
  if buf.adv_length = 0 then buf.skipFlags GSM0710_FRAME_ADV_FLAG buf.datacount else buf

/-- `gsm0710_advanced_buffer_get_frame` from `l_begin` on, which is passed so many times at most. -/
def gsm0710_advanced_buffer_get_frame :
    ℕ → GSM0710_Buffer → Option GSM0710_Frame × GSM0710_Buffer
  | 0, buf => (none, buf)
  | passes + 1, buf =>
    let buf := buf.findFlag true buf.datacount
    if buf.flag_found = false then (none, buf)
    else
      let buf := buf.skipEmpty
      match buf.analyze buf.datacount with
      | .next buf => (none, buf)
      | .frame frame buf => (some frame, buf)
      | .restart buf => gsm0710_advanced_buffer_get_frame passes buf

end GSM0710_Buffer

/-- `gsm0710_advanced_buffer_get_frame`. Every pass but the first one takes the next flag out of the
buffer. -/
def advDecoder : Decoder := fun buf =>
  .ok (buf.gsm0710_advanced_buffer_get_frame (buf.datacount + 2))

/-! ### Feeding bytes -/

structure AdvState where
  flag_found : Bool
  adv_data : ℕ → UInt8
  adv_length : ℕ
  adv_found_esc : Bool
  dropped_count : ℕ

namespace AdvState

def search (s : AdvState) (b : UInt8) : AdvState :=
  if b = GSM0710_FRAME_ADV_FLAG then
    { s with flag_found := true, adv_length := 0, adv_found_esc := false }
  else s

def close (s : AdvState) : AdvState × Option GSM0710_Frame :=
  if s.adv_length < 3 then ({ s with flag_found := false }, none)
  else if advCheck s.adv_data s.adv_length ≠ goodFcs then
    ({ s with flag_found := false, dropped_count := s.dropped_count + 1 }, none)
  else ({ s with flag_found := false }, some (advFrame s.adv_data s.adv_length))

def store (s : AdvState) (b : UInt8) : AdvState :=
  if s.adv_found_esc then
    { s with
      adv_data := Function.update s.adv_data s.adv_length (b ^^^ GSM0710_FRAME_ADV_ESC_COPML)
      adv_length := s.adv_length + 1
      adv_found_esc := false }
  else if b = GSM0710_FRAME_ADV_ESC then { s with adv_found_esc := true }
  else
    { s with
      adv_data := Function.update s.adv_data s.adv_length b, adv_length := s.adv_length + 1 }

/-- **One byte.** -/
def feed (s : AdvState) (b : UInt8) : AdvState × Option GSM0710_Frame :=
  if s.flag_found = false then (s.search b, none)
  else if s.adv_found_esc = false ∧ b = GSM0710_FRAME_ADV_FLAG then
    if s.adv_length = 0 then (s, none) else s.close
  else if GSM0710_BUFFER_SIZE ≤ s.adv_length then
    ({ s with flag_found := false, dropped_count := s.dropped_count + 1 }.search b, none)
  else (s.store b, none)

/-- Bytes are fed until there is a frame: the state then, the frame, and the bytes that are left. -/
def feedFirst : AdvState → List UInt8 → AdvState × Option GSM0710_Frame × List UInt8
  | s, [] => (s, none, [])
  | s, b :: l =>
    match s.feed b with
    | (s', some f) => (s', some f, l)
    | (s', none) => feedFirst s' l

/-- What a call looks at: flags at the front are passed if nothing has been stored. -/
def enter (s : AdvState) (l : List UInt8) : List UInt8 :=
  if s.flag_found ∧ s.adv_length = 0 then l.dropWhile (· == GSM0710_FRAME_ADV_FLAG) else l

variable {s : AdvState} {b : UInt8} {l : List UInt8}

theorem feedFirst_cons_of_none {s' : AdvState} (h : s.feed b = (s', none)) :
    s.feedFirst (b :: l) = s'.feedFirst l := by
  rw [feedFirst, h]

theorem feedFirst_cons_of_some {s' : AdvState} {f : GSM0710_Frame} (h : s.feed b = (s', some f)) :
    s.feedFirst (b :: l) = (s', some f, l) := by
  rw [feedFirst, h]

theorem feedFirst_search (hfound : s.flag_found = false) (l : List UInt8) :
    s.feedFirst l =
      match l.dropWhile (· != GSM0710_FRAME_ADV_FLAG) with
      | [] => (s, none, [])
      | _ :: l =>
        { s with flag_found := true, adv_length := 0, adv_found_esc := false }.feedFirst l := by
  induction l with
  | nil => rfl
  | cons b l ih =>
    by_cases hflag : b = GSM0710_FRAME_ADV_FLAG
    · rw [feedFirst_cons_of_none (by rw [feed, if_pos hfound]), List.dropWhile_cons,
        if_neg (by simp [hflag]), search, if_pos hflag]
    · rw [feedFirst_cons_of_none (by rw [feed, if_pos hfound]), List.dropWhile_cons,
        if_pos (by simpa using hflag), search, if_neg hflag, ih]

theorem feedFirst_skip (hfound : s.flag_found = true) (hlength : s.adv_length = 0)
    (hesc : s.adv_found_esc = false) (l : List UInt8) :
    s.feedFirst (l.dropWhile (· == GSM0710_FRAME_ADV_FLAG)) = s.feedFirst l := by
  induction l with
  | nil => rfl
  | cons b l ih =>
    rw [List.dropWhile_cons]
    split_ifs with hflag
    · have hb : b = GSM0710_FRAME_ADV_FLAG := by simpa using hflag
      have hfeed : s.feed b = (s, none) := by
        rw [feed, if_neg (by simp [hfound]), if_pos ⟨hesc, hb⟩, if_pos hlength]
      rw [feedFirst_cons_of_none hfeed, ih]
    · rfl

theorem feedFirst_long (hfound : s.flag_found = true)
    (hopen : ¬ (s.adv_found_esc = false ∧ b = GSM0710_FRAME_ADV_FLAG))
    (hlong : GSM0710_BUFFER_SIZE ≤ s.adv_length) (l : List UInt8) :
    s.feedFirst (b :: l) =
      { s with flag_found := false, dropped_count := s.dropped_count + 1 }.feedFirst (b :: l) := by
  have hfeed : s.feed b =
      ({ s with flag_found := false, dropped_count := s.dropped_count + 1 }.search b, none) := by
    rw [feed, if_neg (by simp [hfound]), if_neg hopen, if_pos hlong]
  rw [feedFirst_cons_of_none hfeed, feedFirst_cons_of_none (by rw [feed, if_pos rfl])]

end AdvState

/-! ### The code feeds bytes -/

def GSM0710_Buffer.advState (buf : GSM0710_Buffer) : AdvState where
  flag_found := buf.flag_found
  adv_data := buf.adv_data
  adv_length := buf.adv_length
  adv_found_esc := buf.adv_found_esc
  dropped_count := buf.dropped_count

/-- Where the third loop leads from a state, with some bytes left. -/
def AdvStep.Leads (s : AdvState) (l : List UInt8) : AdvStep → Prop
  | .restart buf => buf.Sound ∧ buf.flag_found = false ∧ buf.content.length ≤ l.length ∧
      s.feedFirst l = buf.advState.feedFirst buf.content
  | .frame f buf => buf.Sound ∧ s.feedFirst l = (buf.advState, some f, buf.content)
  | .next buf => buf.Sound ∧ buf.content = [] ∧ s.feedFirst l = (buf.advState, none, [])

namespace GSM0710_Buffer

variable {buf : GSM0710_Buffer} {b : UInt8} {l : List UInt8}

theorem closeFrame_leads (h : buf.Sound) {s : AdvState} (hfeed : s.feed b = buf.advState.close) :
    buf.closeFrame.Leads s (b :: buf.content) := by
  unfold AdvState.close at hfeed
  unfold closeFrame
  change _ = if buf.adv_length < 3 then _ else _ at hfeed
  by_cases hshort : buf.adv_length < 3
  · rw [if_pos hshort] at hfeed ⊢
    exact ⟨⟨h.readp, h.datacount, h.writep⟩, rfl, Nat.le_succ _,
      AdvState.feedFirst_cons_of_none hfeed⟩
  · rw [if_neg hshort] at hfeed ⊢
    change _ = if advCheck buf.adv_data buf.adv_length ≠ goodFcs then _ else _ at hfeed
    generalize advCheck buf.adv_data buf.adv_length = check at hfeed ⊢
    by_cases hgood : check = goodFcs
    · rw [if_neg (not_not.mpr hgood)] at hfeed ⊢
      exact ⟨⟨h.readp, h.datacount, h.writep⟩, AdvState.feedFirst_cons_of_some hfeed⟩
    · rw [if_pos hgood] at hfeed ⊢
      exact ⟨⟨h.readp, h.datacount, h.writep⟩, rfl, Nat.le_succ _,
        AdvState.feedFirst_cons_of_none hfeed⟩

theorem storeByte_spec (buf : GSM0710_Buffer) (b : UInt8) :
    (buf.storeByte b).advState = buf.advState.store b ∧
      (buf.storeByte b).data = buf.data ∧ (buf.storeByte b).readp = buf.readp ∧
      (buf.storeByte b).writep = buf.writep ∧ (buf.storeByte b).datacount = buf.datacount ∧
      (buf.storeByte b).flag_found = buf.flag_found ∧
      ¬ ((buf.storeByte b).adv_length = 0 ∧ (buf.storeByte b).adv_found_esc = false) := by
  unfold storeByte AdvState.store advState
  dsimp only
  split_ifs <;> simp

theorem analyzeByte_leads (h : buf.Sound) (hfound : buf.flag_found = true)
    (hcontent : buf.content = b :: l)
    (hopen : b = GSM0710_FRAME_ADV_FLAG → ¬ (buf.adv_length = 0 ∧ buf.adv_found_esc = false)) :
    (∃ buf', buf.analyzeByte = .next buf' ∧ buf'.Sound ∧ buf'.content = l ∧
      buf.advState.feed b = (buf'.advState, none) ∧ buf'.flag_found = true ∧
      ¬ (buf'.adv_length = 0 ∧ buf'.adv_found_esc = false)) ∨
    (∀ buf', buf.analyzeByte ≠ .next buf') ∧ buf.analyzeByte.Leads buf.advState (b :: l) := by
  obtain ⟨hpos, hb, hsound, hl⟩ := h.content_eq_cons hcontent
  have hsearching : ¬ buf.advState.flag_found = false := by simp [advState, hfound]
  unfold analyzeByte
  dsimp only
  rw [hb]
  by_cases hclose : buf.adv_found_esc = false ∧ b = GSM0710_FRAME_ADV_FLAG
  · have hlength : ¬ buf.adv_length = 0 := fun hzero => hopen hclose.2 ⟨hzero, hclose.1⟩
    have hfeed : buf.advState.feed b = buf.inc.advState.close := by
      rw [AdvState.feed, if_neg hsearching]
      exact (if_pos hclose).trans (if_neg hlength)
    have hleads := closeFrame_leads hsound hfeed
    rw [if_pos hclose]
    rw [hl] at hleads
    refine .inr ⟨fun buf' hnext => ?_, hleads⟩
    unfold closeFrame at hnext
    split_ifs at hnext
  · rw [if_neg hclose]
    by_cases hlong : GSM0710_BUFFER_SIZE ≤ buf.adv_length
    · rw [if_pos hlong]
      refine .inr ⟨nofun, ⟨h.readp, h.datacount, h.writep⟩, rfl, ?_, ?_⟩
      · exact (congrArg List.length hcontent).le
      · rw [show ({ buf with flag_found := false, dropped_count := buf.dropped_count + 1 } :
          GSM0710_Buffer).content = b :: l from hcontent]
        exact AdvState.feedFirst_long hfound hclose hlong l
    · rw [if_neg hlong]
      obtain ⟨hstate, hdata, hreadp, hwritep, hcount, hfound', hstored⟩ := storeByte_spec buf b
      refine .inl ⟨_, rfl, ?_, ?_, ?_, hfound'.trans hfound, hstored⟩
      · refine ⟨?_, ?_, ?_⟩
        · change next _ (buf.storeByte b).readp < _
          rw [hreadp]
          exact hsound.readp
        · change (buf.storeByte b).datacount - 1 ≤ _
          rw [hcount]
          exact hsound.datacount
        · change (buf.storeByte b).writep =
            (next _ (buf.storeByte b).readp + ((buf.storeByte b).datacount - 1)) % _
          rw [hwritep, hreadp, hcount]
          exact hsound.writep
      · change window _ (buf.storeByte b).data (next _ (buf.storeByte b).readp)
          ((buf.storeByte b).datacount - 1) = l
        rw [hdata, hreadp, hcount]
        exact hl
      · rw [AdvState.feed, if_neg hsearching]
        refine (if_neg hclose).trans ((if_neg hlong).trans ?_)
        rw [← hstate]
        rfl

theorem analyze_leads (h : buf.Sound) {fuel : ℕ} (hfuel : buf.datacount ≤ fuel)
    (hfound : buf.flag_found = true)
    (hopen : ∀ l, buf.content = GSM0710_FRAME_ADV_FLAG :: l →
      ¬ (buf.adv_length = 0 ∧ buf.adv_found_esc = false)) :
    (buf.analyze fuel).Leads buf.advState buf.content := by
  induction fuel generalizing buf with
  | zero =>
    have hnil : buf.content = [] := List.length_eq_zero_iff.mp (by rw [length_content]; omega)
    rw [hnil]
    exact ⟨h, hnil, rfl⟩
  | succ fuel ih =>
    rw [analyze]
    cases hcontent : buf.content with
    | nil =>
      rw [if_neg (by rw [datacount_of_content_nil hcontent]; omega)]
      exact ⟨h, hcontent, rfl⟩
    | cons b l =>
      obtain ⟨hpos, -⟩ := h.content_eq_cons hcontent
      rw [if_pos hpos]
      obtain ⟨buf', hnext, hsound, hl, hfeed, hfound', hstored⟩ | ⟨hnext, hleads⟩ :=
        analyzeByte_leads h hfound hcontent (by rintro rfl; exact hopen l hcontent)
      · rw [hnext]
        have hle : buf'.datacount ≤ fuel := by
          have hlengths := congrArg List.length hl
          have hlengths' := congrArg List.length hcontent
          rw [length_content] at hlengths hlengths'
          rw [List.length_cons] at hlengths'
          omega
        have hleads := ih hsound hle hfound' fun _ _ => hstored
        rw [hl] at hleads
        dsimp only
        revert hleads
        cases buf'.analyze fuel with
        | restart buf₁ =>
          rintro ⟨hsound₁, hfound₁, hlength, hfirst⟩
          refine ⟨hsound₁, hfound₁, hlength.trans (Nat.le_succ _), ?_⟩
          rw [AdvState.feedFirst_cons_of_none hfeed, hfirst]
        | frame f buf₁ =>
          rintro ⟨hsound₁, hfirst⟩
          exact ⟨hsound₁, by rw [AdvState.feedFirst_cons_of_none hfeed, hfirst]⟩
        | next buf₁ =>
          rintro ⟨hsound₁, hnil, hfirst⟩
          exact ⟨hsound₁, hnil, by rw [AdvState.feedFirst_cons_of_none hfeed, hfirst]⟩
      · revert hnext hleads
        cases buf.analyzeByte with
        | restart buf₁ => exact fun _ hleads => hleads
        | frame f buf₁ => exact fun _ hleads => hleads
        | next buf₁ => exact fun hnext _ => absurd rfl (hnext buf₁)

theorem pass_leads (h : buf.Sound) (hfound : buf.flag_found = true) :
    (buf.skipEmpty.analyze buf.skipEmpty.datacount).Leads buf.advState
      (buf.advState.enter buf.content) := by
  unfold skipEmpty AdvState.enter
  by_cases hlength : buf.adv_length = 0
  · obtain ⟨hsound, hcontent, c, hc⟩ :=
      skipFlags_spec h GSM0710_FRAME_ADV_FLAG (Nat.le_refl buf.datacount)
    have hstate : (buf.skipFlags GSM0710_FRAME_ADV_FLAG buf.datacount).advState = buf.advState := by
      rw [hc]
      rfl
    have hfound' : (buf.skipFlags GSM0710_FRAME_ADV_FLAG buf.datacount).flag_found = true := by
      rw [hc]
      exact hfound
    rw [if_pos hlength, if_pos ⟨hfound, hlength⟩, ← hcontent, ← hstate]
    refine analyze_leads hsound (Nat.le_refl _) hfound' fun l hl _ => ?_
    -- the first byte is not a flag
    have hhead := List.head?_dropWhile_not (· == GSM0710_FRAME_ADV_FLAG) buf.content
    rw [← hcontent, hl] at hhead
    simp at hhead
  · rw [if_neg hlength, if_neg fun hand => hlength hand.2]
    exact analyze_leads h (Nat.le_refl _) hfound fun _ _ hand => hlength hand.1

theorem length_enter_le (s : AdvState) (l : List UInt8) : (s.enter l).length ≤ l.length := by
  unfold AdvState.enter
  split_ifs
  · exact (List.dropWhile_suffix _).length_le
  · exact Nat.le_refl _

/-- **The code feeds bytes**: a call does what feeding the content does until there is a frame. -/
theorem adv_get_frame_spec (h : buf.Sound) {passes : ℕ} (hpasses : buf.content.length < passes)
    (hmore : buf.flag_found = true → buf.content.length + 1 < passes) :
    ∃ frame buf', buf.gsm0710_advanced_buffer_get_frame passes = (frame, buf') ∧ buf'.Sound ∧
      buf.advState.feedFirst (buf.advState.enter buf.content) =
        (buf'.advState, frame, buf'.content) := by
  induction passes generalizing buf with
  | zero => omega
  | succ passes ih =>
    have hpass : ∀ buf₁ : GSM0710_Buffer, buf₁.Sound → buf₁.flag_found = true →
        buf₁.content.length < passes →
        buf.advState.feedFirst (buf.advState.enter buf.content) =
          buf₁.advState.feedFirst (buf₁.advState.enter buf₁.content) →
        ∃ frame buf', (match buf₁.skipEmpty.analyze buf₁.skipEmpty.datacount with
            | .next buf => (none, buf)
            | .frame frame buf => (some frame, buf)
            | .restart buf => gsm0710_advanced_buffer_get_frame passes buf) = (frame, buf') ∧
          buf'.Sound ∧ buf.advState.feedFirst (buf.advState.enter buf.content) =
            (buf'.advState, frame, buf'.content) := by
      intro buf₁ h₁ hfound₁ hlength₁ heq
      have hleads := pass_leads h₁ hfound₁
      rw [heq]
      revert hleads
      cases buf₁.skipEmpty.analyze buf₁.skipEmpty.datacount with
      | next buf' =>
        rintro ⟨hsound', hnil, hfirst⟩
        exact ⟨none, buf', rfl, hsound', by rw [hfirst, hnil]⟩
      | frame f buf' =>
        rintro ⟨hsound', hfirst⟩
        exact ⟨some f, buf', rfl, hsound', hfirst⟩
      | restart buf' =>
        rintro ⟨hsound', hfound', hle, hfirst⟩
        have hlength' := hle.trans (length_enter_le buf₁.advState buf₁.content)
        obtain ⟨frame, buf'', hget, hsound'', hfirst'⟩ :=
          ih hsound' (by omega) (by simp [hfound'])
        refine ⟨frame, buf'', hget, hsound'', ?_⟩
        rw [hfirst, ← hfirst', AdvState.enter, if_neg]
        exact fun hand => absurd (hfound'.symm.trans hand.1) Bool.false_ne_true
    rw [gsm0710_advanced_buffer_get_frame]
    dsimp only
    cases hfound : buf.flag_found with
    | true =>
      rw [findFlag_of_found hfound, if_neg (by simp [hfound])]
      have hlt := hmore hfound
      exact hpass buf h hfound (by omega) rfl
    | false =>
      obtain ⟨hsound, hrest⟩ := findFlag_spec h true (Nat.le_refl _) hfound
      have henter : buf.advState.enter buf.content = buf.content :=
        if_neg fun hand => absurd (hfound.symm.trans hand.1) Bool.false_ne_true
      have hsearch := AdvState.feedFirst_search (s := buf.advState) hfound buf.content
      change match buf.content.dropWhile (· != GSM0710_FRAME_ADV_FLAG) with
        | [] => _
        | _ :: _ => _ at hrest
      rw [henter]
      rw [henter] at hpass
      cases hdrop : buf.content.dropWhile (· != GSM0710_FRAME_ADV_FLAG) with
      | nil =>
        rw [hdrop] at hrest hsearch
        obtain ⟨hcontent, c, hc⟩ := hrest
        rw [if_pos (by rw [hc]; exact hfound)]
        refine ⟨none, _, rfl, hsound, ?_⟩
        rw [hsearch, hcontent, hc]
        rfl
      | cons b l =>
        rw [hdrop] at hrest hsearch
        obtain ⟨hcontent, c, hc⟩ := hrest
        have hstate : (buf.findFlag true buf.datacount).advState =
            { buf.advState with
              flag_found := true, adv_length := 0, adv_found_esc := false } := by
          rw [hc]
          rfl
        have hfound₁ : (buf.findFlag true buf.datacount).flag_found = true := by
          rw [hc]
          rfl
        have hlength : l.length < buf.content.length := by
          have hle := (List.dropWhile_suffix
            (l := buf.content) (· != GSM0710_FRAME_ADV_FLAG)).length_le
          rw [hdrop, List.length_cons] at hle
          omega
        rw [if_neg (by simp [hfound₁])]
        refine hpass _ hsound hfound₁ (by rw [hcontent]; omega) ?_
        rw [hsearch, ← hstate, hcontent, AdvState.enter, if_pos (by rw [hstate]; simp)]
        rw [AdvState.feedFirst_skip] <;> rw [hstate]

theorem advDecoder_spec (h : buf.Sound) :
    ∃ frame buf', advDecoder buf = .ok (frame, buf') ∧ buf'.Sound ∧
      buf.advState.feedFirst (buf.advState.enter buf.content) =
        (buf'.advState, frame, buf'.content) := by
  obtain ⟨frame, buf', hget, hsound, hfirst⟩ := adv_get_frame_spec h
    (show buf.content.length < buf.datacount + 2 by rw [length_content]; omega)
    (fun _ => by rw [length_content]; omega)
  exact ⟨frame, buf', congrArg Except.ok hget, hsound, hfirst⟩

end GSM0710_Buffer

end MtkHardware.Gsm0710
