import MtkHardware.Gsm0710.Buffer

/-!
# Flags

Both decoders look for the flag that starts a frame, and pass the flags behind it, with the same two
loops; only the flag is another one, and in advanced mode a flag that is found also starts
`adv_data` anew.
-/

namespace MtkHardware.Gsm0710

def frameFlag (cmux_mode : Bool) : UInt8 :=
  if cmux_mode then GSM0710_FRAME_ADV_FLAG else GSM0710_FRAME_FLAG

namespace GSM0710_Buffer

def started (cmux_mode : Bool) (buf : GSM0710_Buffer) : GSM0710_Buffer :=
  if cmux_mode then { buf with flag_found := true, adv_length := 0, adv_found_esc := false }
  else { buf with flag_found := true }

def findFlag (cmux_mode : Bool) : ℕ → GSM0710_Buffer → GSM0710_Buffer
  | 0, buf => buf
  | fuel + 1, buf =>
    if buf.flag_found = false ∧ 0 < buf.datacount then
      if buf.data buf.readp = frameFlag cmux_mode then
        findFlag cmux_mode fuel (buf.started cmux_mode).inc
      else findFlag cmux_mode fuel buf.inc
    else buf

def skipFlags (flag : UInt8) : ℕ → GSM0710_Buffer → GSM0710_Buffer
  | 0, buf => buf
  | fuel + 1, buf =>
    if 0 < buf.datacount ∧ buf.data buf.readp = flag then skipFlags flag fuel buf.inc else buf

variable {buf : GSM0710_Buffer} {c : Cursor}

theorem Sound.content_eq_cons (h : buf.Sound) {b : UInt8} {l : List UInt8}
    (hcontent : buf.content = b :: l) :
    0 < buf.datacount ∧ buf.data buf.readp = b ∧ buf.inc.Sound ∧ buf.inc.content = l := by
  have hpos : 0 < buf.datacount := by
    rw [← length_content, hcontent, List.length_cons]
    omega
  rw [h.content_inc hpos] at hcontent
  obtain ⟨hb, hl⟩ := List.cons.inj hcontent
  exact ⟨hpos, hb, h.inc hpos, hl⟩

theorem datacount_of_content_nil (hcontent : buf.content = []) : buf.datacount = 0 := by
  rw [← length_content, hcontent, List.length_nil]

theorem findFlag_of_found (hfound : buf.flag_found = true) (cmux_mode : Bool) (fuel : ℕ) :
    buf.findFlag cmux_mode fuel = buf := by
  cases fuel with
  | zero => rfl
  | succ fuel => rw [findFlag, if_neg fun hand => absurd hand.1 (by simp [hfound])]

@[simp] theorem flag_found_started (cmux_mode : Bool) :
    (buf.started cmux_mode).flag_found = true := by
  cases cmux_mode <;> rfl

theorem findFlag_spec (h : buf.Sound) (cmux_mode : Bool) {fuel : ℕ} (hfuel : buf.datacount ≤ fuel)
    (hfound : buf.flag_found = false) :
    (buf.findFlag cmux_mode fuel).Sound ∧
      match buf.content.dropWhile (· != frameFlag cmux_mode) with
      | [] => (buf.findFlag cmux_mode fuel).content = [] ∧
          ∃ c : Cursor, buf.findFlag cmux_mode fuel =
            { buf with readp := c.readp, datacount := c.datacount }
      | _ :: l => (buf.findFlag cmux_mode fuel).content = l ∧
          ∃ c : Cursor, buf.findFlag cmux_mode fuel =
            { buf.started cmux_mode with readp := c.readp, datacount := c.datacount } := by
  induction fuel generalizing buf with
  | zero =>
    have hnil : buf.content = [] := List.length_eq_zero_iff.mp (by rw [length_content]; omega)
    rw [findFlag, hnil]
    exact ⟨h, rfl, buf.cursor, rfl⟩
  | succ fuel ih =>
    rw [findFlag]
    cases hcontent : buf.content with
    | nil =>
      have hzero := datacount_of_content_nil hcontent
      rw [if_neg fun hand => absurd hand.2 (by omega)]
      exact ⟨h, hcontent, buf.cursor, rfl⟩
    | cons b l =>
      obtain ⟨hpos, hb, hsound, hl⟩ := h.content_eq_cons hcontent
      have hle : buf.inc.datacount ≤ fuel := by
        change buf.datacount - 1 ≤ fuel
        omega
      rw [if_pos ⟨hfound, hpos⟩, hb]
      split_ifs with hflag
      · -- the next byte is the flag, and the loop ends behind it
        have hinc : (buf.started cmux_mode).inc.flag_found = true :=
          flag_found_started cmux_mode
        rw [findFlag_of_found hinc, List.dropWhile_cons, hflag, if_neg (by simp)]
        cases cmux_mode <;>
          exact ⟨⟨hsound.readp, hsound.datacount, hsound.writep⟩, hl, buf.inc.cursor, rfl⟩
      · have hne : (b != frameFlag cmux_mode) = true := by simpa using hflag
        rw [List.dropWhile_cons, if_pos hne, ← hl]
        obtain ⟨hsound', hrest⟩ := ih hsound hle hfound
        refine ⟨hsound', ?_⟩
        cases hdrop : buf.inc.content.dropWhile (· != frameFlag cmux_mode) with
        | nil =>
          rw [hdrop] at hrest
          exact hrest
        | cons b' l' =>
          rw [hdrop] at hrest
          cases cmux_mode <;> exact hrest

theorem skipFlags_spec (h : buf.Sound) (flag : UInt8) {fuel : ℕ} (hfuel : buf.datacount ≤ fuel) :
    (buf.skipFlags flag fuel).Sound ∧
      (buf.skipFlags flag fuel).content = buf.content.dropWhile (· == flag) ∧
      ∃ c : Cursor, buf.skipFlags flag fuel =
        { buf with readp := c.readp, datacount := c.datacount } := by
  induction fuel generalizing buf with
  | zero =>
    have hnil : buf.content = [] := List.length_eq_zero_iff.mp (by rw [length_content]; omega)
    rw [skipFlags, hnil]
    exact ⟨h, rfl, buf.cursor, rfl⟩
  | succ fuel ih =>
    rw [skipFlags]
    cases hcontent : buf.content with
    | nil =>
      have hzero := datacount_of_content_nil hcontent
      rw [if_neg fun hand => absurd hand.1 (by omega)]
      exact ⟨h, hcontent, buf.cursor, rfl⟩
    | cons b l =>
      obtain ⟨hpos, hb, hsound, hl⟩ := h.content_eq_cons hcontent
      rw [hb, List.dropWhile_cons]
      by_cases hflag : b = flag
      · have hle : buf.inc.datacount ≤ fuel := by
          change buf.datacount - 1 ≤ fuel
          omega
        obtain ⟨hsound', hcontent', c, hc⟩ := ih hsound hle
        rw [if_pos ⟨hpos, hflag⟩, if_pos (by simpa using hflag), ← hl]
        exact ⟨hsound', hcontent', c, hc⟩
      · rw [if_neg fun hand => hflag hand.2, if_neg (by simpa using hflag)]
        exact ⟨h, hcontent, buf.cursor, rfl⟩

end GSM0710_Buffer

end MtkHardware.Gsm0710
