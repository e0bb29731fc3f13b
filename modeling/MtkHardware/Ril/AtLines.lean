import MtkHardware.Ril.AtReadline
import MtkHardware.Util.Lists

/-!
# The Stream of the Modem

The modem sends lines, each with a newline behind it and any newlines in front, and prompts, which
have nothing behind them. The reads cut the stream anywhere but behind a prompt, where there is a
cut.

A prompt leaves the cursor behind its terminator, on bytes of an earlier read: a read is fine where
these are none but newlines, up to a zero. It is also to leave room for a part of a line, and not to
end behind a part of a line that reads as a prompt.
-/

namespace MtkHardware.Ril

structure AtItem where
  newlines : List UInt8 := []
  text : Line
  eol : Option UInt8

namespace AtItem

def wire (item : AtItem) : List UInt8 := item.newlines ++ (item.text ++ item.eol.toList)

structure Valid (item : AtItem) : Prop where
  newlines : ∀ b ∈ item.newlines, IsNewline b
  line : ∀ e ∈ item.eol, IsNewline e ∧ item.text ≠ [] ∧ ∀ b ∈ item.text, b ≠ 0 ∧ ¬ IsNewline b
  prompt : item.eol = none → item.text = Ril.prompt

instance (item : AtItem) : Decidable item.Valid :=
  decidable_of_iff
    ((∀ b ∈ item.newlines, IsNewline b) ∧
      (∀ e ∈ item.eol, IsNewline e ∧ item.text ≠ [] ∧ ∀ b ∈ item.text, b ≠ 0 ∧ ¬ IsNewline b) ∧
      (item.eol = none → item.text = Ril.prompt))
    ⟨fun ⟨h, h', h''⟩ => ⟨h, h', h''⟩, fun ⟨h, h', h''⟩ => ⟨h, h', h''⟩⟩

end AtItem

/-- The data are fine behind the items in front, with the given bytes behind the terminator. -/
structure Fine (items : List AtItem) (data behind : List UInt8) : Prop where
  /-- A prompt ends the data, and leaves the buffer empty. -/
  ends : ∀ before item after, items = before ++ item :: after → item.eol = none →
    stream AtItem.wire (before ++ [item]) <+: data →
    data = stream AtItem.wire (before ++ [item]) ∧ AtBuffer.Blank behind
  /-- A part of a line does not read as a prompt. -/
  part : ∀ before item after, items = before ++ item :: after → item.eol ≠ none →
    data ≠ stream AtItem.wire before ++ (item.newlines ++ prompt)

section Items

variable {item : AtItem} {items rest todo : List AtItem}
  {data behind skipped bytes g left : List UInt8}

theorem Fine.tail (h : Fine (item :: items) (item.wire ++ data) behind) :
    Fine items data behind := by
  constructor
  · intro before next after hitems hnone hpre
    have hends := h.ends (item :: before) next after (by rw [hitems, List.cons_append]) hnone
      (by rw [List.cons_append, stream_cons]; exact (List.prefix_append_right_inj _).mpr hpre)
    rw [List.cons_append, stream_cons, List.append_cancel_left_eq] at hends
    exact hends
  · intro before next after hitems hsome heq
    refine h.part (item :: before) next after (by rw [hitems, List.cons_append]) hsome ?_
    rw [heq, stream_cons, List.append_assoc]

theorem AtItem.Valid.text_ne_nil (h : item.Valid) : item.text ≠ [] := by
  cases heol : item.eol with
  | none =>
    rw [h.prompt heol]
    decide
  | some e => exact (h.line e heol).2.1

theorem AtItem.Valid.text_bytes (h : item.Valid) : ∀ b ∈ item.text, b ≠ 0 ∧ ¬ IsNewline b := by
  cases heol : item.eol with
  | none =>
    rw [h.prompt heol]
    decide
  | some e => exact (h.line e heol).2.2

theorem AtItem.Valid.wire_ne_nil (h : item.Valid) : item.wire ≠ [] := by
  intro hnil
  rw [AtItem.wire, List.append_eq_nil_iff, List.append_eq_nil_iff] at hnil
  exact h.text_ne_nil hnil.2.1

theorem AtItem.Valid.findNextEOL (h : item.Valid) (bytes behind : List UInt8)
    (hprompt : item.eol = none → bytes = []) :
    findNextEOL (item.text ++ (item.eol.toList ++ (bytes ++ 0 :: behind))) =
      .ok (some item.text.length) := by
  cases heol : item.eol with
  | none =>
    rw [hprompt heol, h.prompt heol]
    exact findNextEOL_prompt behind
  | some e => exact findNextEOL_line h.text_bytes (h.line e heol).1

theorem newlines_split {newlines : List UInt8} (hskipped : ∀ b ∈ skipped, IsNewline b)
    (heq : skipped ++ bytes = newlines ++ data) (hdata : ∀ b ∈ data.head?, ¬ IsNewline b) :
    ∃ g, skipped ++ g = newlines ∧ bytes = g ++ data := by
  rcases List.append_eq_append_iff.mp heq with ⟨g, rfl, rfl⟩ | ⟨g, rfl, rfl⟩
  · exact ⟨g, rfl, rfl⟩
  · cases g with
    | nil => exact ⟨[], by simp, rfl⟩
    | cons c g => exact absurd (hskipped c (by simp)) (hdata c rfl)

/-- **What the data begin with**: a part of an item, or a whole one. -/
theorem next_item (skipped : List UInt8) (hvalid : ∀ item ∈ todo, item.Valid)
    (hskipped : ∀ b ∈ skipped, IsNewline b) (hpre : skipped ++ bytes <+: stream AtItem.wire todo)
    (hfine : Fine todo (skipped ++ bytes) behind) :
    (∃ g left, bytes = g ++ left ∧ (∀ b ∈ g, IsNewline b) ∧
      (∀ c ∈ left, c ≠ 0 ∧ ¬ IsNewline c) ∧ left ≠ prompt ∧
      whole AtItem.wire (skipped ++ bytes).length todo = []) ∨
    ∃ item rest g more, todo = item :: rest ∧ skipped ++ g = item.newlines ∧
      bytes = g ++ (item.text ++ (item.eol.toList ++ more)) ∧ more <+: stream AtItem.wire rest ∧
      (item.eol = none → more = [] ∧ AtBuffer.Blank behind) := by
  cases todo with
  | nil =>
    obtain ⟨-, rfl⟩ := List.append_eq_nil_iff.mp (List.prefix_nil.mp hpre)
    exact .inl ⟨[], [], rfl, by simp, by simp, by decide, rfl⟩
  | cons item rest =>
    have hitem := hvalid item List.mem_cons_self
    rw [stream_cons, AtItem.wire, List.append_assoc, List.append_assoc] at hpre
    rcases prefix_append_cases hpre with ⟨hin, hne⟩ | ⟨data, heq, hdata⟩
    · have hlt := hin.length_le.lt_of_ne fun heq => hne (hin.eq_of_length heq)
      refine .inl ⟨bytes, [], by simp, fun b hb => ?_, by simp, by decide, whole_short ?_ rest⟩
      · exact hitem.newlines b (hin.subset (List.mem_append_right _ hb))
      · exact hlt.trans_le (List.prefix_append _ _).length_le
    have hfirst : ∀ b ∈ data.head?, ¬ IsNewline b := fun b hb => by
      cases data with
      | nil => cases hb
      | cons d data =>
        obtain rfl := Option.some.inj hb
        obtain ⟨c, text, htext⟩ := List.exists_cons_of_ne_nil hitem.text_ne_nil
        rw [htext, List.cons_append, List.cons_prefix_cons] at hdata
        rw [hdata.1]
        exact (hitem.text_bytes c (by rw [htext]; exact List.mem_cons_self)).2
    obtain ⟨g, hg, rfl⟩ := newlines_split hskipped heq hfirst
    have hgs : ∀ b ∈ g, IsNewline b := fun b hb =>
      hitem.newlines b (hg ▸ List.mem_append_right _ hb)
    rw [heq] at hfine ⊢
    cases heol : item.eol with
    | none =>
      have htext := hitem.prompt heol
      rw [heol, Option.toList_none, List.nil_append] at hdata
      rcases prefix_append_cases hdata with ⟨hin, hne⟩ | ⟨more, rfl, hmore⟩
      · have hlt := hin.length_le.lt_of_ne fun heq => hne (hin.eq_of_length heq)
        refine .inl ⟨g, data, rfl, hgs, fun c hc => hitem.text_bytes c (hin.subset hc),
          htext ▸ hne, whole_short ?_ rest⟩
        rw [AtItem.wire, heol, Option.toList_none, List.append_nil, List.length_append,
          List.length_append]
        exact Nat.add_lt_add_left hlt _
      · have hwire : stream AtItem.wire ([] ++ [item]) = item.newlines ++ item.text := by
          rw [List.nil_append, stream_cons, AtItem.wire, heol]
          simp [stream]
        obtain ⟨hall, hblank⟩ := hfine.ends [] item rest rfl heol (by
          rw [hwire, ← List.append_assoc]
          exact List.prefix_append _ _)
        rw [hwire, List.append_cancel_left_eq] at hall
        have hnil : more = [] := by simpa using hall
        refine .inr ⟨item, rest, g, more, rfl, hg, ?_, hmore, fun _ => ⟨hnil, hblank⟩⟩
        rw [heol]
        rfl
    | some e =>
      have hsplit : item.text ++ (item.eol.toList ++ stream AtItem.wire rest) =
          (item.text ++ [e]) ++ stream AtItem.wire rest := by
        rw [heol, List.append_assoc]
        rfl
      rw [hsplit] at hdata
      rcases prefix_append_cases hdata with ⟨hin, hne⟩ | ⟨more, rfl, hmore⟩
      · have hin := (List.prefix_concat_iff.mp hin).resolve_left hne
        refine .inl ⟨g, data, rfl, hgs, fun c hc => hitem.text_bytes c (hin.subset hc), ?_,
          whole_short ?_ rest⟩
        · rintro rfl
          exact hfine.part [] item rest rfl (by rw [heol]; exact Option.some_ne_none e) rfl
        · have hle := hin.length_le
          rw [AtItem.wire, heol, List.length_append, List.length_append, List.length_append,
            Option.toList_some, List.length_singleton]
          omega
      · refine .inr ⟨item, rest, g, more, rfl, hg, ?_, hmore, fun hnone => ?_⟩
        · rw [heol, List.append_assoc]
          rfl
        · rw [heol] at hnone
          cases hnone

end Items

/-! ### The reader -/

/-- Some of the items have been returned, and the reader waits behind newlines and a part of the
next one. -/
def Returned (items : List AtItem) (data : List UInt8) (w : Waiting) (lines : List Line) : Prop :=
  ∃ done todo skipped left, items = done ++ todo ∧ lines = done.map AtItem.text ∧
    data = stream AtItem.wire done ++ (skipped ++ left) ∧ (∀ b ∈ skipped, IsNewline b) ∧
    w.Ready left ∧ (∀ c ∈ left, c ≠ 0 ∧ ¬ IsNewline c) ∧
    whole AtItem.wire (skipped ++ left).length todo = []

section Reader

variable {item : AtItem} {items rest todo done : List AtItem} {s : AtBuffer} {w : Waiting}
  {data behind skipped bytes g left more : List UInt8} {lines : List Line} {n : ℕ}

theorem Returned.append (h : Returned todo data w lines) (done : List AtItem) :
    Returned (done ++ todo) (stream AtItem.wire done ++ data) w
      (done.map AtItem.text ++ lines) := by
  obtain ⟨done', todo, skipped, left, rfl, rfl, rfl, hskipped, hready, hleft, hwhole⟩ := h
  refine ⟨done ++ done', todo, skipped, left, (List.append_assoc _ _ _).symm, ?_, ?_, hskipped,
    hready, hleft, hwhole⟩
  · rw [List.map_append]
  · rw [stream_append, List.append_assoc]

theorem Returned.lines_eq (h : Returned items data w lines) :
    lines = (whole AtItem.wire data.length items).map AtItem.text := by
  obtain ⟨done, todo, skipped, left, rfl, rfl, rfl, -, -, -, hwhole⟩ := h
  rw [List.length_append, whole_append, hwhole, List.append_nil]

theorem AtBuffer.readlines_blank (h : s.At data) (hblank : Blank data) (n : ℕ) : ∃ w,
    s.readlines (n + 1) = .ok (w, []) ∧ w.Ready [] := by
  obtain ⟨s', behind, hbegin, hcur, hat⟩ := h.begin_blank hblank
  refine ⟨⟨s', 0⟩, ?_, hcur.symm, behind, hat⟩
  rw [AtBuffer.readlines, hbegin]
  rfl

theorem AtBuffer.finish_item (hitem : item.Valid) (hvalid : ∀ item ∈ rest, item.Valid)
    (hat : s.At (item.text ++ (item.eol.toList ++ (more ++ 0 :: behind))))
    (hprompt : item.eol = none → more = [] ∧ Blank behind)
    (hrest : ∀ s' : AtBuffer, s'.At (more ++ 0 :: behind) → ∃ w lines,
      s'.readlines n = .ok (w, lines) ∧ Returned rest more w lines) (hn : 0 < n) : ∃ s' w lines,
    s.finish (s.ATBufferCur + item.text.length) = .ok (s', item.text) ∧
      s'.readlines n = .ok (w, lines) ∧
      Returned (item :: rest) (item.wire ++ more) w (item.text :: lines) := by
  have hnul : ∀ b ∈ item.text, b ≠ 0 := fun b hb => (hitem.text_bytes b hb).1
  have happend : ∀ w lines, Returned rest more w lines →
      Returned (item :: rest) (item.wire ++ more) w (item.text :: lines) := fun w lines h => by
    have h := h.append [item]
    rw [stream_cons] at h
    simpa [stream] using h
  cases heol : item.eol with
  | some e =>
    rw [heol] at hat
    obtain ⟨s', hfinish, hat'⟩ := hat.finish hnul
    obtain ⟨w, lines, hlines, hreturned⟩ := hrest s' hat'
    exact ⟨s', w, lines, hfinish, hlines, happend w lines hreturned⟩
  | none =>
    obtain ⟨rfl, hblank⟩ := hprompt heol
    rw [heol] at hat
    obtain ⟨s', hfinish, hat'⟩ := hat.finish hnul
    obtain ⟨n, rfl⟩ : ∃ m, n = m + 1 := ⟨n - 1, by omega⟩
    obtain ⟨w, hlines, hready⟩ := readlines_blank hat' hblank n
    refine ⟨s', w, [], hfinish, hlines, happend w [] ?_⟩
    have hwhole : whole AtItem.wire 0 rest = [] :=
      whole_zero fun item hitem => (hvalid item hitem).wire_ne_nil
    exact ⟨[], rest, [], [], rfl, rfl, rfl, by simp, hready, by simp, hwhole⟩

/-- **The calls of `readline`** until one waits return the items that are whole. -/
theorem AtBuffer.At.readlines_taken (hat : s.At (bytes ++ 0 :: behind))
    (hvalid : ∀ item ∈ todo, item.Valid) (hpre : bytes <+: stream AtItem.wire todo)
    (hfine : Fine todo bytes behind) (hn : bytes.length + 1 < n) : ∃ w lines,
    s.readlines n = .ok (w, lines) ∧ Returned todo bytes w lines := by
  induction todo generalizing s bytes n with
  | nil =>
    obtain rfl := List.prefix_nil.mp hpre
    obtain ⟨n, rfl⟩ : ∃ m, n = m + 1 := ⟨n - 1, by omega⟩
    obtain ⟨w, hlines, hready⟩ := readlines_blank hat ⟨[], behind, by simp, rfl⟩ n
    exact ⟨w, [], hlines, [], [], [], [], rfl, rfl, rfl, by simp, hready, by simp, rfl⟩
  | cons first todo ih =>
    obtain ⟨n, rfl⟩ : ∃ m, n = m + 1 := ⟨n - 1, by omega⟩
    rcases next_item [] hvalid (by simp) hpre hfine with
      ⟨g, left, rfl, hg, hleft, hne, hwhole⟩ |
      ⟨item, rest, g, more, htodo, hnewlines, rfl, hmore, hprompt⟩
    · rw [List.append_assoc] at hat
      rw [List.nil_append] at hwhole
      obtain ⟨s', hbegin, hcur, behind', hat'⟩ : ∃ s', s.begin = .ok (s', .inr left.length) ∧
          s'.ATBufferCur = 0 ∧ ∃ behind, s'.At (left ++ 0 :: behind) := by
        cases left with
        | nil =>
          obtain ⟨s', behind', hbegin, hcur, hat'⟩ := hat.begin_blank ⟨g, behind, hg, rfl⟩
          exact ⟨s', hbegin, hcur, behind', hat'⟩
        | cons b text =>
          obtain ⟨s', behind', hbegin, hcur, hat'⟩ := hat.begin_part hg hleft hne
          exact ⟨s', hbegin, hcur, behind', hat'⟩
      refine ⟨⟨s', left.length⟩, [], ?_, [], first :: todo, g, left, rfl, rfl, rfl, hg, ?_, hleft,
        hwhole⟩
      · rw [readlines, hbegin]
        rfl
      · exact ⟨by rw [hcur, Nat.zero_add], behind', hat'⟩
    · obtain ⟨rfl, rfl⟩ := List.cons.inj htodo
      obtain ⟨hfirst, hvalid⟩ := List.forall_mem_cons.mp hvalid
      rw [List.nil_append] at hnewlines
      have hwire : g ++ (first.text ++ (first.eol.toList ++ more)) = first.wire ++ more := by
        simp only [hnewlines, AtItem.wire, List.append_assoc]
      have hcontent : g ++ (first.text ++ (first.eol.toList ++ more)) ++ 0 :: behind =
          g ++ (first.text ++ (first.eol.toList ++ (more ++ 0 :: behind))) := by
        simp only [List.append_assoc]
      have heol := hfirst.findNextEOL more behind fun h => (hprompt h).1
      obtain ⟨b, text, htext⟩ := List.exists_cons_of_ne_nil hfirst.text_ne_nil
      have hb := hfirst.text_bytes b (by rw [htext]; exact List.mem_cons_self)
      rw [hcontent] at hat
      obtain ⟨s', hbegin, hat'⟩ : ∃ s' : AtBuffer,
          s.begin = .ok (s', .inl (s'.ATBufferCur + first.text.length)) ∧
            s'.At (first.text ++ (first.eol.toList ++ (more ++ 0 :: behind))) := by
        generalize first.eol.toList ++ (more ++ 0 :: behind) = content at hat heol ⊢
        rw [htext] at hat heol ⊢
        exact hat.begin_line (hnewlines ▸ hfirst.newlines) hb.2 hb.1 heol
      rw [hwire] at hfine hn ⊢
      have hpos := List.length_pos_iff.mpr hfirst.wire_ne_nil
      rw [List.length_append] at hn
      have hrest : ∀ s'' : AtBuffer, s''.At (more ++ 0 :: behind) → ∃ w lines,
          s''.readlines n = .ok (w, lines) ∧ Returned todo more w lines := fun s'' h =>
        ih h hvalid hmore hfine.tail (by omega)
      obtain ⟨s'', w, lines, hfinish, hlines, hreturned⟩ :=
        finish_item hfirst hvalid hat' hprompt hrest (by omega)
      refine ⟨w, _, ?_, hreturned⟩
      rw [readlines, hbegin]
      simp only [bind, Except.bind, pure, Except.pure, hfinish, hlines]

/-- **A read** returns the items that have become whole. -/
theorem lineReader_step (hvalid : ∀ item ∈ todo, item.Valid) (hready : w.Ready left)
    (hfull : MAX_AT_RESPONSE ≤ w.p_read → left = []) (hne : bytes ≠ [])
    (hfits : bytes.length ≤ MAX_AT_RESPONSE - w.next) (hskipped : ∀ b ∈ skipped, IsNewline b)
    (hpre : skipped ++ (left ++ bytes) <+: stream AtItem.wire todo)
    (hfine : Fine todo (skipped ++ (left ++ bytes))
      (w.buffer.ATBuffer.drop (w.next + bytes.length + 1))) : ∃ w' lines,
    lineReader w bytes = .ok (w', lines) ∧
      Returned todo (skipped ++ (left ++ bytes)) w' lines := by
  obtain ⟨s, hreceived, hat, hnext⟩ := hready.received hfull hne hfits
  generalize w.buffer.ATBuffer.drop (w.next + bytes.length + 1) = behind at hat hfine
  rw [← List.append_assoc] at hat
  rcases next_item skipped hvalid hskipped hpre hfine with
    ⟨g, left', hsplit, hg, hleft', hne', hwhole⟩ |
    ⟨item, rest, g, more, rfl, hnewlines, hsplit, hmore, hprompt⟩
  · rw [hsplit] at hat hwhole ⊢
    rw [List.append_assoc] at hat
    obtain ⟨s', hnextLine, hat', hcur⟩ : ∃ s' : AtBuffer, s.nextLine = .ok (s', none) ∧
        s'.At (left' ++ 0 :: behind) ∧ s'.ATBufferCur = s.ATBufferCur + g.length := by
      have heol := findNextEOL_part behind hleft' hne'
      cases left' with
      | nil => exact hat.nextLine hg (by decide) heol
      | cons b text => exact hat.nextLine hg (hleft' b List.mem_cons_self).2 heol
    refine ⟨⟨s', w.next + bytes.length⟩, [], ?_, [], todo, skipped ++ g, left', rfl, rfl, ?_, ?_,
      ?_, hleft', ?_⟩
    · rw [lineReader, hreceived, hnextLine]
      rfl
    · rw [List.append_assoc]
      rfl
    · exact List.forall_mem_append.mpr ⟨hskipped, hg⟩
    · have hlen := congrArg List.length hsplit
      rw [List.length_append, List.length_append] at hlen
      exact ⟨by dsimp only; omega, behind, hat'⟩
    · rw [List.append_assoc]
      exact hwhole
  · obtain ⟨hfirst, hvalid⟩ := List.forall_mem_cons.mp hvalid
    have hdata : skipped ++ (left ++ bytes) = item.wire ++ more := by
      rw [hsplit, ← List.append_assoc, hnewlines, AtItem.wire, List.append_assoc, List.append_assoc]
    have hle := congrArg List.length hdata
    have hpos := List.length_pos_iff.mpr hfirst.wire_ne_nil
    have hcontent : left ++ bytes ++ 0 :: behind =
        g ++ (item.text ++ (item.eol.toList ++ (more ++ 0 :: behind))) := by
      rw [hsplit]
      simp only [List.append_assoc]
    rw [hcontent] at hat
    have heol := hfirst.findNextEOL more behind fun h => (hprompt h).1
    obtain ⟨b, text, htext⟩ := List.exists_cons_of_ne_nil hfirst.text_ne_nil
    have hb := hfirst.text_bytes b (by rw [htext]; exact List.mem_cons_self)
    obtain ⟨s', hnextLine, hat', -⟩ : ∃ s' : AtBuffer,
        s.nextLine = .ok (s', some (s'.ATBufferCur + item.text.length)) ∧
          s'.At (item.text ++ (item.eol.toList ++ (more ++ 0 :: behind))) ∧
          s'.ATBufferCur = s.ATBufferCur + g.length := by
      have hg : ∀ b ∈ g, IsNewline b := fun b hb =>
        hfirst.newlines b (hnewlines ▸ List.mem_append_right _ hb)
      generalize item.eol.toList ++ (more ++ 0 :: behind) = content at hat heol ⊢
      rw [htext] at hat heol ⊢
      exact hat.nextLine hg hb.2 heol
    rw [hdata] at hfine ⊢
    have hrest : ∀ s'' : AtBuffer, s''.At (more ++ 0 :: behind) → ∃ w' lines,
        s''.readlines (MAX_AT_RESPONSE + 2) = .ok (w', lines) ∧ Returned rest more w' lines :=
      fun s'' h => h.readlines_taken hvalid hmore hfine.tail (by
        have := h.cur_add (by simp)
        rw [List.length_append, List.length_cons] at this
        omega)
    obtain ⟨s'', w', lines, hfinish, hlines, hreturned⟩ :=
      AtBuffer.finish_item hfirst hvalid hat' hprompt hrest (Nat.succ_pos _)
    refine ⟨w', item.text :: lines, ?_, hreturned⟩
    rw [lineReader, hreceived, hnextLine]
    simp only [bind, Except.bind, pure, Except.pure, hfinish, hlines]

end Reader

/-! ### Runs -/

def PromptsEnd (items : List AtItem) (chunks : List (List UInt8)) : Prop :=
  ∀ before item after, items = before ++ item :: after → item.eol = none →
    stream AtItem.wire (before ++ [item]) <+: chunks.flatten →
    ∃ first last, chunks = first ++ last ∧ first.flatten = stream AtItem.wire (before ++ [item])

structure ReadFine (items : List AtItem) (data : List UInt8) (w : Waiting) (bytes : List UInt8) :
    Prop where
  /-- A part of a line does not fill the buffer. -/
  full : MAX_AT_RESPONSE ≤ w.p_read → w.buffer.atCur.head? = some 0
  /-- Nothing is behind a prompt but newlines, up to a zero. -/
  blank : ∀ before item after, items = before ++ item :: after → item.eol = none →
    data ++ bytes = stream AtItem.wire (before ++ [item]) →
    AtBuffer.Blank (w.buffer.ATBuffer.drop (w.next + bytes.length + 1))
  /-- A part of a line does not read as a prompt. -/
  part : ∀ before item after, items = before ++ item :: after → item.eol ≠ none →
    data ++ bytes ≠ stream AtItem.wire before ++ (item.newlines ++ prompt)

section Runs

variable {item : AtItem} {items todo done : List AtItem} {w : Waiting}
  {skipped bytes left : List UInt8} {chunks before after : List (List UInt8)}

theorem PromptsEnd.eq (h : PromptsEnd items (before ++ bytes :: after))
    {items₁ items₂ : List AtItem} (hitems : items = items₁ ++ item :: items₂)
    (hnone : item.eol = none)
    (hin : stream AtItem.wire (items₁ ++ [item]) <+: before.flatten ++ bytes)
    (hnew : before.flatten.length < (stream AtItem.wire (items₁ ++ [item])).length) :
    before.flatten ++ bytes = stream AtItem.wire (items₁ ++ [item]) := by
  have hall : (before ++ bytes :: after).flatten = before.flatten ++ bytes ++ after.flatten := by
    rw [List.flatten_append, List.flatten_cons, List.append_assoc]
  obtain ⟨first, last, hchunks, hfirst⟩ := h items₁ item items₂ hitems hnone
    (hin.trans (by rw [hall]; exact List.prefix_append _ _))
  -- the cut is not among the reads in front
  rcases List.append_eq_append_iff.mp hchunks with ⟨t, rfl, htail⟩ | ⟨t, rfl, -⟩
  · rw [List.flatten_append] at hfirst
    cases t with
    | nil =>
      rw [← hfirst, List.flatten_nil, List.append_nil] at hnew
      omega
    | cons c t =>
      obtain rfl : bytes = c := (List.cons.inj htail).1
      rw [List.flatten_cons, ← List.append_assoc] at hfirst
      exact (hin.eq_of_length_le (by rw [← hfirst]; simp)).symm
  · rw [List.flatten_append, List.length_append, hfirst] at hnew
    omega

theorem ReadFine.fine (hitems : items = done ++ todo)
    (h : ReadFine items before.flatten w bytes)
    (hends : PromptsEnd items (before ++ bytes :: after))
    (hdata : before.flatten = stream AtItem.wire done ++ (skipped ++ left))
    (hwhole : whole AtItem.wire (skipped ++ left).length todo = []) :
    Fine todo (skipped ++ (left ++ bytes))
      (w.buffer.ATBuffer.drop (w.next + bytes.length + 1)) := by
  have hall : before.flatten ++ bytes =
      stream AtItem.wire done ++ (skipped ++ (left ++ bytes)) := by
    rw [hdata]
    simp only [List.append_assoc]
  have hmove : ∀ items', stream AtItem.wire (done ++ items') =
      stream AtItem.wire done ++ stream AtItem.wire items' := stream_append done
  constructor
  · intro items₁ item items₂ htodo hnone hin
    have hitems' : items = (done ++ items₁) ++ item :: items₂ := by
      rw [hitems, htodo, List.append_assoc]
    have heq := hends.eq hitems' hnone
      (by rw [List.append_assoc, hmove, hall]; exact (List.prefix_append_right_inj _).mpr hin)
      (by
        have hlt := lt_length_of_whole_eq_nil hwhole (items₁ ++ [item])
          ⟨items₂, by rw [htodo, List.append_assoc]; rfl⟩ (by simp)
        rw [List.append_assoc, hmove, hdata]
        simp only [List.length_append] at hlt ⊢
        omega)
    refine ⟨?_, h.blank _ _ _ hitems' hnone heq⟩
    rw [hall, List.append_assoc, hmove] at heq
    exact List.append_cancel_left heq
  · intro items₁ item items₂ htodo hsome heq
    refine h.part (done ++ items₁) item items₂ (by rw [hitems, htodo, List.append_assoc]) hsome ?_
    rw [hall, heq, hmove, List.append_assoc]

theorem Returned.step {lines : List Line} (h : Returned items before.flatten w lines)
    (hvalid : ∀ item ∈ items, item.Valid)
    (hpre : (before ++ bytes :: after).flatten <+: stream AtItem.wire items)
    (hends : PromptsEnd items (before ++ bytes :: after)) (hne : bytes ≠ [])
    (hfits : bytes.length ≤ MAX_AT_RESPONSE - w.next)
    (hread : ReadFine items before.flatten w bytes) : ∃ w' lines',
    lineReader w bytes = .ok (w', lines') ∧
      Returned items (before ++ [bytes]).flatten w' (lines ++ lines') := by
  obtain ⟨done, todo, skipped, left, rfl, rfl, hdata, hskipped, hready, hleft, hwhole⟩ := h
  have hall : (before ++ [bytes]).flatten =
      stream AtItem.wire done ++ (skipped ++ (left ++ bytes)) := by
    rw [List.flatten_append, hdata]
    simp
  have hfull : MAX_AT_RESPONSE ≤ w.p_read → left = [] := fun hfull => by
    have hzero := hread.full hfull
    obtain ⟨-, behind, hat⟩ := hready
    rw [hat.atCur] at hzero
    cases left with
    | nil => rfl
    | cons b left => exact absurd (Option.some.inj hzero) (hleft b List.mem_cons_self).1
  have hin : skipped ++ (left ++ bytes) <+: stream AtItem.wire todo := by
    rw [List.append_cons, List.flatten_append, hall, stream_append, List.append_assoc] at hpre
    exact (List.prefix_append _ _).trans ((List.prefix_append_right_inj _).mp hpre)
  obtain ⟨w', lines, hstep, hreturned⟩ := lineReader_step
    (fun item h => hvalid item (List.mem_append_right _ h)) hready hfull hne hfits hskipped hin
    (hread.fine rfl hends hdata hwhole)
  refine ⟨w', lines, hstep, ?_⟩
  rw [hall]
  exact hreturned.append done

/-- **The lines of the stream are returned in order.** -/
theorem lines_in_order (hvalid : ∀ item ∈ items, item.Valid)
    (hpre : chunks.flatten <+: stream AtItem.wire items) (hends : PromptsEnd items chunks)
    (hread : ∀ before bytes after w lines, chunks = before ++ bytes :: after →
      lineReader.Runs {} before w lines → bytes ≠ [] ∧ bytes.length ≤ MAX_AT_RESPONSE - w.next)
    (hfine : ∀ before bytes after w lines, chunks = before ++ bytes :: after →
      lineReader.Runs {} before w lines → ReadFine items before.flatten w bytes) :
    ∃ w, lineReader.Runs {} chunks w
      ((whole AtItem.wire chunks.flatten.length items).map AtItem.text) := by
  have hinit : Returned items ([] : List (List UInt8)).flatten {} [] :=
    ⟨[], items, [], [], rfl, rfl, rfl, by simp, Waiting.ready_init, by simp,
      whole_zero fun item hitem => (hvalid item hitem).wire_ne_nil⟩
  have hstep : ∀ before bytes after w lines, chunks = before ++ bytes :: after →
      lineReader.Runs {} before w lines → Returned items before.flatten w lines →
      ∃ w' lines', lineReader w bytes = .ok (w', lines') ∧
        Returned items (before ++ [bytes]).flatten w' (lines ++ lines') := by
    rintro before bytes after w lines rfl hruns hreturned
    obtain ⟨hne, hfits⟩ := hread before bytes after w lines rfl hruns
    exact hreturned.step hvalid hpre hends hne hfits (hfine before bytes after w lines rfl hruns)
  obtain ⟨w, lines, hruns, hreturned⟩ := Machine.exists_run_of_invariant
    (I := fun before w lines => Returned items before.flatten w lines) hinit chunks hstep
  rw [← hreturned.lines_eq]
  exact ⟨w, hruns⟩

end Runs

def promptItems : List AtItem :=
  [⟨[0x0D, 0x0A], cString "OK", some 0x0D⟩, ⟨[0x0A], prompt, none⟩]

def promptChunks : List (List UInt8) := [[0x0D, 0x0A, 0x4F, 0x4B, 0x0D], [0x0A, 0x3E, 0x20]]

/-- A response, and a prompt, in two reads. -/
theorem lines_in_order_prompt :
    ∃ w, lineReader.Runs {} promptChunks w [cString "OK", prompt] := by
  have hends : ∀ before item after, promptItems = before ++ item :: after → item.eol = none →
      ∃ n ∈ List.range 3, (promptChunks.take n).flatten = stream AtItem.wire (before ++ [item]) :=
    forall_of_getElem (P := fun before item => item.eol = none → ∃ n ∈ List.range 3,
      (promptChunks.take n).flatten = stream AtItem.wire (before ++ [item])) (by decide)
  have hreads : ∀ before bytes after, promptChunks = before ++ bytes :: after →
      lineReader.shows {} before (fun w _ => bytes ≠ [] ∧
        bytes.length ≤ MAX_AT_RESPONSE - w.next ∧ w.p_read < MAX_AT_RESPONSE ∧
        (w.buffer.ATBuffer.drop (w.next + bytes.length + 1)).head? = some 0) = true :=
    forall_of_getElem (P := fun before bytes => lineReader.shows {} before (fun w _ => bytes ≠ [] ∧
        bytes.length ≤ MAX_AT_RESPONSE - w.next ∧ w.p_read < MAX_AT_RESPONSE ∧
        (w.buffer.ATBuffer.drop (w.next + bytes.length + 1)).head? = some 0) = true)
      (by decide +kernel)
  have hparts : ∀ before bytes after, promptChunks = before ++ bytes :: after →
      ∀ before' item after', promptItems = before' ++ item :: after' → item.eol ≠ none →
      before.flatten ++ bytes ≠ stream AtItem.wire before' ++ (item.newlines ++ prompt) :=
    fun before bytes after hchunks => forall_of_getElem
      (forall_of_getElem (P := fun before bytes => ∀ n (h : n < promptItems.length),
        promptItems[n].eol ≠ none → before.flatten ++ bytes ≠
          stream AtItem.wire (promptItems.take n) ++ (promptItems[n].newlines ++ prompt))
        (by decide) before bytes after hchunks)
  have hvalid : ∀ item ∈ promptItems, item.Valid := by decide
  refine lines_in_order hvalid (by decide +kernel) ?_ ?_ ?_
  · intro before item after hitems hnone _
    obtain ⟨n, -, hn⟩ := hends before item after hitems hnone
    exact ⟨promptChunks.take n, promptChunks.drop n, (List.take_append_drop _ _).symm, hn⟩
  · intro before bytes after w lines hchunks hruns
    obtain ⟨hne, hfits, -⟩ := hruns.of_shows (hreads before bytes after hchunks)
    exact ⟨hne, hfits⟩
  · intro before bytes after w lines hchunks hruns
    obtain ⟨-, -, hread, hhead⟩ := hruns.of_shows (hreads before bytes after hchunks)
    exact ⟨fun hfull => absurd hread (not_lt.mpr hfull), fun _ _ _ _ _ _ =>
      AtBuffer.blank_of_head? hhead, hparts before bytes after hchunks⟩

def staleItems : List AtItem :=
  [⟨[0x0D, 0x0A], cString "OK", some 0x0D⟩, ⟨[0x0A], cString "+CREG: 1", some 0x0D⟩,
    ⟨[0x0A, 0x0D, 0x0A], prompt, none⟩, ⟨[], cString "+CMGS: 1", some 0x0D⟩,
    ⟨[0x0A], cString "OK", some 0x0D⟩]

def staleChunks : List (List UInt8) :=
  ["\r\nOK\r\n+CREG: 1\r\n", "\r\n> ", "+CMGS: 1\r\nOK\r"].map cString

/-- A line of an earlier read is in front of one that is sent. -/
theorem stale_line :
    (∀ item ∈ staleItems, item.Valid) ∧ staleChunks.flatten = stream AtItem.wire staleItems ∧
      PromptsEnd staleItems staleChunks ∧
      (∃ w, lineReader.Runs {} staleChunks w
        (["OK", "+CREG: 1", "> ", "+CREG: 1+CMGS: 1", "OK"].map cString)) ∧
      ¬ ∃ w, lineReader.Runs {} staleChunks w (staleItems.map AtItem.text) := by
  have hends : ∀ before item after, staleItems = before ++ item :: after → item.eol = none →
      ∃ n ∈ List.range 4, (staleChunks.take n).flatten = stream AtItem.wire (before ++ [item]) :=
    forall_of_getElem (P := fun before item => item.eol = none → ∃ n ∈ List.range 4,
      (staleChunks.take n).flatten = stream AtItem.wire (before ++ [item])) (by decide)
  have hobserve : lineReader.observe {} staleChunks (fun _ => ()) =
      some ((), ["OK", "+CREG: 1", "> ", "+CREG: 1+CMGS: 1", "OK"].map cString) := by
    decide +kernel
  obtain ⟨w, hruns, -⟩ := Machine.exists_run_of_observe hobserve
  refine ⟨by decide, by decide +kernel, ?_, ⟨w, hruns⟩, ?_⟩
  · intro before item after hitems hnone _
    obtain ⟨n, -, hn⟩ := hends before item after hitems hnone
    exact ⟨staleChunks.take n, staleChunks.drop n, (List.take_append_drop _ _).symm, hn⟩
  · rintro ⟨w', hruns'⟩
    obtain ⟨-, hlines⟩ := hruns.deterministic hruns'
    revert hlines
    decide

end MtkHardware.Ril
