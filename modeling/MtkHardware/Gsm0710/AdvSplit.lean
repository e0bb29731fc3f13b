import MtkHardware.Gsm0710.AdvDecoder

/-!
# Splitting a Stream in Advanced Mode

The decoder is called until it returns `NULL` after each chunk, so it looks at every byte before the
next chunk comes, and what it knows then is in the buffer. Where a chunk ends would not matter if a
call went on as the call before would have.

It does but for the flags at its beginning. As long as nothing has been stored a call passes flags,
also if the byte before it was an escape; the loop that stores bytes would have taken the flag for
the byte that the escape announces. So it matters where the chunks end exactly when a flag comes
behind an escape that is the first byte of its frame (`EscapedFlag`).
-/

namespace MtkHardware.Gsm0710

/-! ### The code -/

namespace GSM0710_Buffer

/-- The decoder is called until it returns `NULL`. Every frame takes a byte out of the buffer at
least. -/
def drain : ℕ → GSM0710_Buffer → List GSM0710_Frame × GSM0710_Buffer
  | 0, buf => ([], buf)
  | calls + 1, buf =>
    match buf.gsm0710_advanced_buffer_get_frame (buf.datacount + 2) with
    | (none, buf) => ([], buf)
    | (some f, buf) =>
      let r := drain calls buf
      (f :: r.1, r.2)

/-- Chunks are written, and the decoder is called after each of them. -/
def receive : List (List UInt8) → GSM0710_Buffer → List GSM0710_Frame × GSM0710_Buffer
  | [], buf => ([], buf)
  | chunk :: chunks, buf =>
    let buf := (buf.gsm0710_buffer_write chunk).1
    let r := buf.drain (buf.datacount + 1)
    let r' := receive chunks r.2
    (r.1 ++ r'.1, r'.2)

structure SameDecoder (buf buf' : GSM0710_Buffer) : Prop where
  flag_found : buf.flag_found = buf'.flag_found
  adv_length : buf.adv_length = buf'.adv_length
  adv_found_esc : buf.adv_found_esc = buf'.adv_found_esc
  adv_data : buf.adv_data = buf'.adv_data

end GSM0710_Buffer

/-- A way of splitting a stream into chunks that the buffer has room for. -/
structure Splits (stream : List UInt8) (chunks : List (List UInt8)) : Prop where
  flatten : chunks.flatten = stream
  fits : ∀ chunk ∈ chunks, chunk.length ≤ GSM0710_BUFFER_SIZE

/-! ### Feeding all bytes -/

namespace AdvState

def feedAll : AdvState → List UInt8 → AdvState × List GSM0710_Frame
  | s, [] => (s, [])
  | s, b :: l =>
    let r := (s.feed b).1.feedAll l
    (r.1, (s.feed b).2.toList ++ r.2)

def receiveChunks : AdvState → List (List UInt8) → AdvState × List GSM0710_Frame
  | s, [] => (s, [])
  | s, chunk :: chunks =>
    let r := s.feedAll (s.enter chunk)
    let r' := r.1.receiveChunks chunks
    (r'.1, r.2 ++ r'.2)

def Escaping (s : AdvState) : Prop :=
  s.flag_found = true ∧ s.adv_length = 0 ∧ s.adv_found_esc = true

/-- A flag comes behind an escape that is the first byte of its frame. -/
def EscapedFlag (s : AdvState) (l : List UInt8) : Prop :=
  ∃ p, p ++ [GSM0710_FRAME_ADV_FLAG] <+: l ∧ (s.feedAll p).1.Escaping

variable {s : AdvState} {b : UInt8} {l p : List UInt8} {chunks : List (List UInt8)}

theorem feedAll_append (s : AdvState) (p l : List UInt8) : s.feedAll (p ++ l) =
    (((s.feedAll p).1.feedAll l).1, (s.feedAll p).2 ++ ((s.feedAll p).1.feedAll l).2) := by
  induction p generalizing s with
  | nil => rfl
  | cons b p ih =>
    rw [List.cons_append, feedAll, feedAll, ih]
    simp only [List.append_assoc]

theorem receiveChunks_append (s : AdvState) (cs ds : List (List UInt8)) :
    s.receiveChunks (cs ++ ds) = (((s.receiveChunks cs).1.receiveChunks ds).1,
      (s.receiveChunks cs).2 ++ ((s.receiveChunks cs).1.receiveChunks ds).2) := by
  induction cs generalizing s with
  | nil => rfl
  | cons c cs ih =>
    rw [List.cons_append, receiveChunks, receiveChunks, ih]
    simp only [List.append_assoc]

theorem flag_found_of_feed {f : GSM0710_Frame} {s' : AdvState} (h : s.feed b = (s', some f)) :
    s'.flag_found = false := by
  unfold feed close at h
  split_ifs at h <;> simp only [Prod.mk.injEq, reduceCtorEq, and_false] at h
  rw [← h.1]

theorem feedAll_of_feedFirst {s' : AdvState} {frame : Option GSM0710_Frame} {rest : List UInt8}
    (h : s.feedFirst l = (s', frame, rest)) :
    s.feedAll l = ((s'.feedAll rest).1, frame.toList ++ (s'.feedAll rest).2) ∧
      match frame with
      | none => rest = []
      | some _ => s'.flag_found = false ∧ rest.length < l.length := by
  induction l generalizing s with
  | nil =>
    cases h
    exact ⟨rfl, rfl⟩
  | cons b l ih =>
    rcases hfeed : s.feed b with ⟨s₁, _ | f⟩
    · rw [feedFirst_cons_of_none hfeed] at h
      obtain ⟨hall, hrest⟩ := ih h
      refine ⟨?_, ?_⟩
      · rw [feedAll, hfeed]
        exact hall
      · cases frame with
        | none => exact hrest
        | some f => exact ⟨hrest.1, hrest.2.trans (Nat.lt_succ_self _)⟩
    · rw [feedFirst_cons_of_some hfeed] at h
      cases h
      refine ⟨?_, flag_found_of_feed hfeed, Nat.lt_succ_self _⟩
      rw [feedAll, hfeed]

theorem feedAll_skip (hfound : s.flag_found = true) (hlength : s.adv_length = 0)
    (hesc : s.adv_found_esc = false) (l : List UInt8) :
    s.feedAll (l.dropWhile (· == GSM0710_FRAME_ADV_FLAG)) = s.feedAll l := by
  rcases hfirst : s.feedFirst l with ⟨s', frame, rest⟩
  obtain ⟨hall, -⟩ := feedAll_of_feedFirst hfirst
  rw [← feedFirst_skip hfound hlength hesc] at hfirst
  obtain ⟨hall', -⟩ := feedAll_of_feedFirst hfirst
  rw [hall, hall']

theorem feedAll_enter (hclean : ¬ s.EscapedFlag l) : s.feedAll (s.enter l) = s.feedAll l := by
  unfold enter
  split_ifs with hstart
  · obtain ⟨hfound, hlength⟩ := hstart
    cases hesc : s.adv_found_esc with
    | false => exact feedAll_skip hfound hlength hesc l
    | true =>
      cases l with
      | nil => rfl
      | cons b l =>
        have hne : b ≠ GSM0710_FRAME_ADV_FLAG := by
          rintro rfl
          exact hclean ⟨[], ⟨l, rfl⟩, hfound, hlength, hesc⟩
        rw [List.dropWhile_cons, if_neg (by simpa using hne)]
  · rfl

/-- **Without such a flag** the chunks are received as the whole stream. -/
theorem receiveChunks_eq (hclean : ¬ s.EscapedFlag chunks.flatten) :
    s.receiveChunks chunks = s.feedAll chunks.flatten := by
  induction chunks generalizing s with
  | nil => rfl
  | cons chunk chunks ih =>
    rw [List.flatten_cons] at hclean ⊢
    have hchunk : ¬ s.EscapedFlag chunk := fun ⟨p, hp, hesc⟩ =>
      hclean ⟨p, hp.trans (List.prefix_append ..), hesc⟩
    have hchunks : ¬ (s.feedAll chunk).1.EscapedFlag chunks.flatten := by
      rintro ⟨p, ⟨l, hl⟩, hesc⟩
      refine hclean ⟨chunk ++ p, ⟨l, ?_⟩, ?_⟩
      · rw [← hl]
        simp only [List.append_assoc]
      · rwa [feedAll_append]
    rw [receiveChunks, feedAll_enter hchunk, ih hchunks, feedAll_append]

theorem Escaping.of_feed (h : (s.feed b).1.Escaping) :
    b = GSM0710_FRAME_ADV_ESC ∧ s.flag_found = true ∧ s.adv_length = 0 ∧
      s.adv_found_esc = false := by
  obtain ⟨hfound, hlength, hesc⟩ := h
  unfold feed search close store at hfound hlength hesc
  split_ifs at hfound hlength hesc <;> simp_all

theorem feed_escape (hfound : s.flag_found = true) (hlength : s.adv_length = 0)
    (hesc : s.adv_found_esc = false) :
    s.feed GSM0710_FRAME_ADV_ESC = ({ s with adv_found_esc := true }, none) := by
  have hroom : ¬ GSM0710_BUFFER_SIZE ≤ s.adv_length := by
    rw [hlength]
    decide
  rw [feed, if_neg (by simp [hfound]), if_neg fun hand => absurd hand.2 (by decide), if_neg hroom,
    store, if_neg (by simp [hesc]), if_pos rfl]

theorem feed_escaped_flag (hfound : s.flag_found = true) (hlength : s.adv_length = 0)
    (hesc : s.adv_found_esc = true) : (s.feed GSM0710_FRAME_ADV_FLAG).1.adv_length = 1 := by
  have hroom : ¬ GSM0710_BUFFER_SIZE ≤ s.adv_length := by
    rw [hlength]
    decide
  rw [feed, if_neg (by simp [hfound]), if_neg (by simp [hesc]), if_neg hroom, store, if_pos hesc]
  dsimp only
  rw [hlength]

theorem receiveChunks_together (hfound : s.flag_found = true) (hlength : s.adv_length = 0)
    (hesc : s.adv_found_esc = false) :
    (s.receiveChunks [[GSM0710_FRAME_ADV_ESC, GSM0710_FRAME_ADV_FLAG]]).1.adv_length = 1 := by
  have henter : s.enter [GSM0710_FRAME_ADV_ESC, GSM0710_FRAME_ADV_FLAG] =
      [GSM0710_FRAME_ADV_ESC, GSM0710_FRAME_ADV_FLAG] := by
    unfold enter
    split_ifs <;> rfl
  rw [receiveChunks, receiveChunks, henter, feedAll, feedAll, feedAll,
    feed_escape hfound hlength hesc]
  exact feed_escaped_flag (s := { s with adv_found_esc := true }) hfound hlength rfl

theorem receiveChunks_apart (hfound : s.flag_found = true) (hlength : s.adv_length = 0)
    (hesc : s.adv_found_esc = false) :
    (s.receiveChunks [[GSM0710_FRAME_ADV_ESC], [GSM0710_FRAME_ADV_FLAG]]).1.adv_length = 0 := by
  have henter : s.enter [GSM0710_FRAME_ADV_ESC] = [GSM0710_FRAME_ADV_ESC] := by
    unfold enter
    split_ifs <;> rfl
  have henter' :
      ({ s with adv_found_esc := true } : AdvState).enter [GSM0710_FRAME_ADV_FLAG] = [] := by
    rw [enter, if_pos ⟨hfound, hlength⟩]
    rfl
  rw [receiveChunks, receiveChunks, receiveChunks, henter, feedAll, feedAll,
    feed_escape hfound hlength hesc]
  dsimp only
  rw [henter']
  exact hlength

end AdvState

/-! ### The code feeds all bytes -/

namespace GSM0710_Buffer

variable {buf : GSM0710_Buffer}

theorem drain_spec (h : buf.Sound) {calls : ℕ} (hcalls : buf.content.length < calls) :
    ∃ frames buf', buf.drain calls = (frames, buf') ∧ buf'.Sound ∧ buf'.content = [] ∧
      buf.advState.feedAll (buf.advState.enter buf.content) = (buf'.advState, frames) := by
  induction calls generalizing buf with
  | zero => omega
  | succ calls ih =>
    obtain ⟨frame, buf', hget, hsound, hfirst⟩ := advDecoder_spec h
    obtain ⟨hall, hframe⟩ := AdvState.feedAll_of_feedFirst hfirst
    have hget' : buf.gsm0710_advanced_buffer_get_frame (buf.datacount + 2) = (frame, buf') :=
      Except.ok.inj hget
    rw [drain, hget', hall]
    cases frame with
    | none =>
      rw [show buf'.content = [] from hframe]
      exact ⟨[], buf', rfl, hsound, hframe, rfl⟩
    | some f =>
      obtain ⟨hfound, hlt⟩ := hframe
      have hle := length_enter_le buf.advState buf.content
      obtain ⟨frames, buf'', hdrain, hsound', hnil, hall'⟩ := ih hsound (by omega)
      have henter : buf'.advState.enter buf'.content = buf'.content :=
        if_neg fun hand => absurd (hfound.symm.trans hand.1) Bool.false_ne_true
      rw [henter] at hall'
      refine ⟨f :: frames, buf'', ?_, hsound', hnil, ?_⟩
      · dsimp only
        rw [hdrain]
      · rw [hall']
        rfl

theorem receive_spec (h : buf.Sound) (hnil : buf.content = []) {chunks : List (List UInt8)}
    (hfits : ∀ chunk ∈ chunks, chunk.length ≤ GSM0710_BUFFER_SIZE) :
    ∃ frames buf', buf.receive chunks = (frames, buf') ∧
      buf.advState.receiveChunks chunks = (buf'.advState, frames) := by
  induction chunks generalizing buf with
  | nil => exact ⟨[], buf, rfl, rfl⟩
  | cons chunk chunks ih =>
    have hfree : buf.free = GSM0710_BUFFER_SIZE := by
      rw [free, datacount_of_content_nil hnil]
      rfl
    have hput := h.put chunk
    have hcontent := h.content_put chunk
    rw [hnil, List.nil_append, hfree, List.take_of_length_le (hfits chunk List.mem_cons_self)]
      at hcontent
    obtain ⟨data, writep, datacount, hbuf⟩ := buf.exists_put_eq chunk
    have hwritten : (buf.gsm0710_buffer_write chunk).1 =
        { buf with data, writep, datacount, newdataready := true } := by
      rw [gsm0710_buffer_write, hbuf]
    rw [hbuf] at hput hcontent
    rw [receive, hwritten]
    have hsound : ({ buf with data, writep, datacount, newdataready := true } :
        GSM0710_Buffer).Sound := ⟨hput.readp, hput.datacount, hput.writep⟩
    obtain ⟨frames, buf₁, hdrain, hsound₁, hnil₁, hall⟩ := drain_spec hsound
      (Nat.lt_succ_of_le (length_content).le)
    obtain ⟨frames', buf₂, hreceive, hchunks⟩ := ih hsound₁ hnil₁ fun c hc =>
      hfits c (List.mem_cons_of_mem _ hc)
    have hall' : buf.advState.feedAll (buf.advState.enter chunk) = (buf₁.advState, frames) := by
      rw [← hcontent]
      exact hall
    dsimp only
    rw [hdrain, hreceive, AdvState.receiveChunks, hall', hchunks]
    exact ⟨_, _, rfl, rfl⟩

end GSM0710_Buffer

/-! ### Splits -/

theorem flatten_singletons (l : List UInt8) : (l.map fun b => [b]).flatten = l := by
  induction l with
  | nil => rfl
  | cons b l ih => rw [List.map_cons, List.flatten_cons, ih, List.singleton_append]

theorem receive_singletons {buf : GSM0710_Buffer} (h : buf.Idle) {p l : List UInt8}
    (hclean : ¬ buf.advState.EscapedFlag p) {chunks : List (List UInt8)}
    (hsplits : Splits l chunks) :
    Splits (p ++ l) ((p.map fun b => [b]) ++ chunks) ∧
      (buf.receive ((p.map fun b => [b]) ++ chunks)).2.adv_length =
        ((buf.advState.feedAll p).1.receiveChunks chunks).1.adv_length := by
  have hall : Splits (p ++ l) ((p.map fun b => [b]) ++ chunks) := by
    refine ⟨?_, fun chunk hchunk => ?_⟩
    · rw [List.flatten_append, flatten_singletons, hsplits.flatten]
    · rcases List.mem_append.mp hchunk with hp | hl
      · obtain ⟨b, -, rfl⟩ := List.mem_map.mp hp
        exact (by decide : 1 ≤ GSM0710_BUFFER_SIZE)
      · exact hsplits.fits chunk hl
  obtain ⟨frames, buf', hreceive, hchunks⟩ :=
    GSM0710_Buffer.receive_spec h.sound h.content hall.fits
  have hp : buf.advState.receiveChunks (p.map fun b => [b]) = buf.advState.feedAll p := by
    rw [← flatten_singletons p] at hclean
    rw [AdvState.receiveChunks_eq hclean, flatten_singletons]
  refine ⟨hall, ?_⟩
  rw [AdvState.receiveChunks_append, hp] at hchunks
  rw [hreceive, (Prod.mk.inj hchunks).1]
  rfl

/-- **Where the chunks end does not matter**, at any point of the stream, exactly when no flag comes
behind an escape that is the first byte of its frame. -/
theorem adv_split_iff {buf : GSM0710_Buffer} (h : buf.Idle) (stream : List UInt8) :
    (∀ l, l <+: stream → ∀ chunks₁ chunks₂, Splits l chunks₁ → Splits l chunks₂ →
      (buf.receive chunks₁).1 = (buf.receive chunks₂).1 ∧
        (buf.receive chunks₁).2.SameDecoder (buf.receive chunks₂).2) ↔
      ¬ buf.advState.EscapedFlag stream := by
  constructor
  · intro hsame
    -- by induction on how much comes before the flag
    have hclean : ∀ n p, p.length = n → p ++ [GSM0710_FRAME_ADV_FLAG] <+: stream →
        ¬ (buf.advState.feedAll p).1.Escaping := by
      intro n
      induction n using Nat.strong_induction_on with
      | _ n ih =>
        rintro p rfl hfront hesc
        cases p using List.reverseRecOn with
        | nil => exact absurd (h.flag_found.symm.trans hesc.1) Bool.false_ne_true
        | append_singleton p b =>
          rw [AdvState.feedAll_append] at hesc
          obtain ⟨rfl, hfound, hlength, hnesc⟩ := AdvState.Escaping.of_feed hesc
          have hp : ¬ buf.advState.EscapedFlag p := by
            rintro ⟨q, hq, hqesc⟩
            have hlt := hq.length_le
            rw [List.length_append, List.length_singleton] at hlt
            refine ih q.length ?_ q rfl (hq.trans ?_) hqesc
            · rw [List.length_append, List.length_singleton]
              omega
            · rw [List.append_assoc] at hfront
              exact (List.prefix_append ..).trans hfront
          obtain ⟨htogether, hone⟩ := receive_singletons h hp
            (show Splits _ [[GSM0710_FRAME_ADV_ESC, GSM0710_FRAME_ADV_FLAG]] from
              ⟨rfl, by simp [GSM0710_BUFFER_SIZE]⟩)
          obtain ⟨hapart, hzero⟩ := receive_singletons h hp
            (show Splits _ [[GSM0710_FRAME_ADV_ESC], [GSM0710_FRAME_ADV_FLAG]] from
              ⟨rfl, by simp [GSM0710_BUFFER_SIZE]⟩)
          rw [List.append_assoc] at hfront
          obtain ⟨-, hstate⟩ := hsame _ hfront _ _ htogether hapart
          have hlengths := hstate.adv_length
          rw [hone, hzero, AdvState.receiveChunks_together hfound hlength hnesc,
            AdvState.receiveChunks_apart hfound hlength hnesc] at hlengths
          omega
    rintro ⟨p, hfront, hesc⟩
    exact hclean p.length p rfl hfront hesc
  · intro hclean l hl chunks₁ chunks₂ h₁ h₂
    have hl' : ¬ buf.advState.EscapedFlag l := fun ⟨p, hp, hesc⟩ => hclean ⟨p, hp.trans hl, hesc⟩
    have hreceived : ∀ chunks, Splits l chunks → ∃ frames buf',
        buf.receive chunks = (frames, buf') ∧ buf.advState.feedAll l = (buf'.advState, frames) := by
      intro chunks hsplits
      obtain ⟨frames, buf', hreceive, hchunks⟩ :=
        GSM0710_Buffer.receive_spec h.sound h.content hsplits.fits
      have hflatten := hsplits.flatten
      refine ⟨frames, buf', hreceive, ?_⟩
      rw [← hchunks, AdvState.receiveChunks_eq (by rw [hflatten]; exact hl'), hflatten]
    obtain ⟨frames₁, buf₁, hreceive₁, hall₁⟩ := hreceived chunks₁ h₁
    obtain ⟨frames₂, buf₂, hreceive₂, hall₂⟩ := hreceived chunks₂ h₂
    rw [hall₁] at hall₂
    obtain ⟨hstate, hframes⟩ := Prod.mk.inj hall₂
    rw [hreceive₁, hreceive₂]
    exact ⟨hframes, congrArg AdvState.flag_found hstate, congrArg AdvState.adv_length hstate,
      congrArg AdvState.adv_found_esc hstate, congrArg AdvState.adv_data hstate⟩

theorem adv_split_iff_idle :
    (∀ l, l <+: [GSM0710_FRAME_ADV_FLAG, GSM0710_FRAME_ADV_ESC, 0x5E] → ∀ chunks₁ chunks₂,
      Splits l chunks₁ → Splits l chunks₂ →
      (({} : GSM0710_Buffer).receive chunks₁).1 = (({} : GSM0710_Buffer).receive chunks₂).1 ∧
        (({} : GSM0710_Buffer).receive chunks₁).2.SameDecoder
          (({} : GSM0710_Buffer).receive chunks₂).2) ↔
      ¬ ({} : GSM0710_Buffer).advState.EscapedFlag
        [GSM0710_FRAME_ADV_FLAG, GSM0710_FRAME_ADV_ESC, 0x5E] :=
  adv_split_iff ⟨GSM0710_Buffer.sound_init, rfl, rfl⟩ _

/-- A frame of which the address is a flag that an escape announces, in one chunk and cut behind the
escape: it is returned, or dropped as too short. -/
theorem adv_split_differs :
    let body := [GSM0710_FRAME_ADV_FLAG, GSM0710_TYPE_UIH,
      frame_calc_crc [0x5E, GSM0710_TYPE_UIH], GSM0710_FRAME_ADV_FLAG]
    let start := [GSM0710_FRAME_ADV_FLAG, GSM0710_FRAME_ADV_ESC]
    Splits (start ++ body) [start ++ body] ∧ Splits (start ++ body) [start, body] ∧
      (({} : GSM0710_Buffer).receive [start ++ body]).1 =
        [{ channel := 23, control := GSM0710_TYPE_UIH, data := [] }] ∧
      (({} : GSM0710_Buffer).receive [start, body]).1 = [] := by
  refine ⟨⟨rfl, by decide⟩, ⟨rfl, by decide⟩, by decide +kernel, by decide +kernel⟩

end MtkHardware.Gsm0710
