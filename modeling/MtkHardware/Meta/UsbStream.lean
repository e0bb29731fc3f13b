import MtkHardware.Meta.UsbFrames

/-!
# The Stream of the Host

The host sends frames with any bytes between them that are no start bytes, and the calls of
`onReceived` cut them anywhere. What has been received and is not part of a frame that has been
taken is kept, and parsed from its start with the bytes of the next call.

A call takes a frame of a registered module and goes on, but behind a frame of another module it
only keeps what is left, so that a registered frame there is late. A call is fine where that does
not happen, where the data are short and do not end in an escape of the length, and where bytes that
are not of a frame are not parsed anew as a length.
-/

namespace MtkHardware.Meta

/-- The bytes of a frame, behind the bytes in front of it. -/
def framed (item : List UInt8 × ApFrame) : List UInt8 := item.1 ++ item.2.wire

def executed (ctx : Context) (items : List (List UInt8 × ApFrame)) : List Frame :=
  (items.filter fun item => ctx.getModule item.2.id).map fun item => item.2.frame

def RegisteredBehind (ctx : Context) (data : List UInt8) : Prop :=
  ∃ pre f mid f' post, data = pre ++ (ApFrame.wire f ++ (mid ++ (ApFrame.wire f' ++ post))) ∧
    ctx.getModule f.id = false ∧ ctx.getModule f'.id = true

/-- **The condition on a call** of `onReceived`. -/
structure CallFine (ctx : Context) (s : UsbRxWatcher) (chunk : List UInt8) : Prop where
  short : (s.szRemainBuf ++ chunk).length < 65536
  length : ¬ CutLength (s.szRemainBuf ++ chunk)
  order : ¬ RegisteredBehind ctx (s.szRemainBuf ++ chunk)
  state : s.InLength → (s.szRemainBuf ++ chunk).head? = some STX_OCTET

section Stream

variable {ctx : Context} {items : List (List UInt8 × ApFrame)} {data rest : List UInt8}

theorem whole_framed_zero (items : List (List UInt8 × ApFrame)) : whole framed 0 items = [] :=
  whole_zero fun item _ => by simp [framed, ApFrame.wire]

theorem executed_append (items items' : List (List UInt8 × ApFrame)) :
    executed ctx (items ++ items') = executed ctx items ++ executed ctx items' := by
  rw [executed, List.filter_append, List.map_append]
  rfl

theorem executed_unregistered (h : ∀ item ∈ items, ctx.getModule item.2.id = false) :
    executed ctx items = [] := by
  have hnone : items.filter (fun item => ctx.getModule item.2.id) = [] :=
    List.filter_eq_nil_iff.mpr fun item hitem => by simp [h item hitem]
  rw [executed, hnone]
  rfl

theorem Synced.drop {pre : List UInt8} {u : ℕ}
    (h : Synced (pre ++ rest).length u rest)
    (hshort : (pre ++ rest).length < 65536) : u = pre.length ∧ (pre ++ rest).drop u = rest := by
  have hu : u = pre.length := by
    rw [h.count, List.length_append, Nat.add_sub_cancel, u16]
    rw [List.length_append] at hshort
    omega
  exact ⟨hu, by rw [hu, List.drop_left]⟩

theorem CutLength.append (h : CutLength data) (pre : List UInt8) : CutLength (pre ++ data) := by
  obtain ⟨p, rfl | ⟨hi, rfl⟩⟩ := h
  · exact ⟨pre ++ p, .inl (List.append_assoc _ _ _).symm⟩
  · exact ⟨pre ++ p, .inr ⟨hi, (List.append_assoc _ _ _).symm⟩⟩

theorem CutLength.getLast? (h : CutLength data) : data.getLast? = some MUX_KEY_WORD := by
  obtain ⟨p, rfl | ⟨hi, rfl⟩⟩ := h
  · rw [List.getLast?_append]
    rfl
  · rw [← List.cons_append, List.getLast?_append, List.getLast?_append]
    rfl

theorem RegisteredBehind.two_le_count (h : RegisteredBehind ctx data) :
    2 ≤ data.count STX_OCTET := by
  obtain ⟨p, f, mid, f', post, rfl, -⟩ := h
  simp only [List.count_append, ApFrame.wire, List.count_cons_self]
  omega

theorem RegisteredBehind.append (h : RegisteredBehind ctx data) (pre : List UInt8) :
    RegisteredBehind ctx (pre ++ data) := by
  obtain ⟨p, f, mid, f', post, rfl, hf, hf'⟩ := h
  exact ⟨pre ++ p, f, mid, f', post, (List.append_assoc _ _ _).symm, hf, hf'⟩

end Stream

/-! ### A call -/

namespace UsbRxWatcher

variable {ctx : Context} {s s' : UsbRxWatcher} {items : List (List UInt8 × ApFrame)}
  {buf data rest g tail : List UInt8} {f : ApFrame} {n : ℕ}

theorem keep_eq (h : data.length ≤ FrameMaxSize) (s : UsbRxWatcher) :
    s.keep data = .ok { s with szRemainBuf := data } := by
  rw [keep, if_neg (not_lt.mpr h)]

variable {done todo : List (List UInt8 × ApFrame)}

theorem onReceivedIn_none (hdata : s.szRemainBuf ++ buf = data) (hshort : data.length < 65536)
    (h : s.decode ctx data = .ok ⟨none, s', data.length⟩) (n : ℕ) :
    onReceivedIn ctx (n + 1) s buf = .ok ({ s' with szRemainBuf := data }, []) := by
  rw [onReceivedIn]
  dsimp only
  rw [hdata, if_neg fun hbad => absurd hbad.2 (by simp only [FrameMaxSize]; omega), h]
  simp only [bind, Except.bind, pure, Except.pure, if_true]
  rw [keep_eq (by simp only [FrameMaxSize]; omega)]

theorem onReceivedIn_unregistered (f : ApFrame)
    (hdata : s.szRemainBuf ++ buf = g ++ (f.wire ++ rest))
    (hshort : (g ++ (f.wire ++ rest)).length < 65536) (hg : STX_OCTET ∉ g)
    (hlength : s.InLength → g = []) (hf : ctx.getModule f.id = false) (n : ℕ) :
    ∃ s' : UsbRxWatcher, onReceivedIn ctx (n + 1) s buf =
      .ok ({ s' with szRemainBuf := rest }, []) ∧ s'.m_cTstFrameState = .STX := by
  obtain ⟨s', u, hdecode, hsync, hstate, -⟩ := decode_frame ctx f rest hg hlength
  rw [hf, if_neg Bool.false_ne_true] at hdecode
  rw [← List.append_assoc] at hdecode hsync hshort hdata
  obtain ⟨rfl, hdrop⟩ := hsync.drop hshort
  refine ⟨s', ?_, hstate⟩
  rw [onReceivedIn]
  dsimp only
  rw [hdata, if_neg fun hbad => absurd hbad.2 (by simp only [FrameMaxSize]; omega), hdecode]
  simp only [bind, Except.bind, pure, Except.pure, hdrop]
  rw [List.length_append] at hshort ⊢
  rw [if_neg (by omega), keep_eq (by simp only [FrameMaxSize]; omega)]

/-- A frame of a registered module is executed, and what comes behind it is received anew. -/
theorem onReceivedIn_registered (f : ApFrame)
    (hdata : s.szRemainBuf ++ buf = g ++ (f.wire ++ rest))
    (hshort : (g ++ (f.wire ++ rest)).length < 65536) (hg : STX_OCTET ∉ g)
    (hlength : s.InLength → g = []) (hf : ctx.getModule f.id) (n : ℕ) :
    ∃ s' : UsbRxWatcher, s'.m_cTstFrameState = .STX ∧ s'.szRemainBuf = [] ∧
      onReceivedIn ctx (n + 1) s buf =
        if rest = [] then .ok (s', [f.frame])
        else (onReceivedIn ctx n s' rest).map fun r => (r.1, f.frame :: r.2) := by
  obtain ⟨s', u, hdecode, hsync, hstate, -⟩ := decode_frame ctx f rest hg hlength
  rw [if_pos hf] at hdecode
  rw [← List.append_assoc] at hdecode hsync hshort hdata
  obtain ⟨rfl, hdrop⟩ := hsync.drop hshort
  refine ⟨{ s' with szRemainBuf := [] }, hstate, rfl, ?_⟩
  rw [onReceivedIn]
  dsimp only
  rw [hdata, if_neg fun hbad => absurd hbad.2 (by simp only [FrameMaxSize]; omega), hdecode]
  simp only [bind, Except.bind, pure, Except.pure, hdrop, ApFrame.frame]
  rw [List.length_append] at hshort ⊢
  cases rest with
  | nil => rw [if_neg (by simp), if_pos (by simp), if_pos rfl]
  | cons b rest =>
    rw [if_pos (by simp), keep_eq (by simp only [FrameMaxSize]; omega), if_neg (by simp)]
    dsimp only
    cases onReceivedIn ctx n { s' with szRemainBuf := [] } (b :: rest) <;> rfl

/-- Some of the frames have been taken, and what is kept comes behind them. -/
def Taken (ctx : Context) (items : List (List UInt8 × ApFrame)) (data : List UInt8)
    (s : UsbRxWatcher) (frames : List Frame) : Prop :=
  ∃ done todo, items = done ++ todo ∧ frames = executed ctx done ∧
    data = stream framed done ++ s.szRemainBuf ∧
    (∀ item ∈ whole framed s.szRemainBuf.length todo, ctx.getModule item.2.id = false) ∧
    (STX_OCTET ∉ s.szRemainBuf → s.m_cTstFrameState = .STX)

variable {frames frames' : List Frame}

theorem Taken.append (h : Taken ctx todo data s frames)
    (done : List (List UInt8 × ApFrame)) :
    Taken ctx (done ++ todo) (stream framed done ++ data) s
      (executed ctx done ++ frames) := by
  obtain ⟨done', todo, rfl, rfl, rfl, hwhole, hstate⟩ := h
  refine ⟨done ++ done', todo, (List.append_assoc _ _ _).symm, ?_, ?_, hwhole, hstate⟩
  · rw [executed_append]
  · rw [stream_append, List.append_assoc]

theorem Taken.executed_eq (h : Taken ctx items data s frames) :
    frames = executed ctx (whole framed data.length items) := by
  obtain ⟨done, todo, rfl, rfl, rfl, hwhole, -⟩ := h
  rw [List.length_append, whole_append, executed_append, executed_unregistered hwhole,
    List.append_nil]

theorem taken_none (hdata : s.szRemainBuf ++ buf = data) (hshort : data.length < 65536)
    (hwhole : whole framed data.length items = [])
    (h : s.decode ctx data = .ok ⟨none, s', data.length⟩)
    (hstate : STX_OCTET ∉ data → s'.m_cTstFrameState = .STX) (n : ℕ) : ∃ s' frames,
    onReceivedIn ctx (n + 1) s buf = .ok (s', frames) ∧ Taken ctx items data s' frames := by
  refine ⟨_, _, onReceivedIn_none hdata hshort h n, [], items, rfl, rfl, rfl, ?_, hstate⟩
  rw [hwhole]
  exact fun f hf => absurd hf List.not_mem_nil

/-- **A call** of `onReceived` takes what is to be taken from the data. -/
theorem onReceivedIn_taken (s : UsbRxWatcher) (buf : List UInt8) (n : ℕ)
    (hgap : ∀ item ∈ items, STX_OCTET ∉ item.1) (htail : STX_OCTET ∉ tail)
    (hdata : s.szRemainBuf ++ buf = data) (hpre : data <+: stream framed items ++ tail)
    (hshort : data.length < 65536) (hcut : ¬ CutLength data) (horder : ¬ RegisteredBehind ctx data)
    (hlength : s.InLength → data.head? = some STX_OCTET)
    (hbetween : STX_OCTET ∉ data → s.m_cTstFrameState = .STX) (hn : data.length < n) :
    ∃ s' frames, onReceivedIn ctx n s buf = .ok (s', frames) ∧
      Taken ctx items data s' frames := by
  induction items generalizing s buf data n with
  | nil =>
    have hg : STX_OCTET ∉ data := fun hmem => htail (hpre.subset hmem)
    obtain ⟨n, rfl⟩ := Nat.exists_eq_add_of_lt hn
    exact taken_none hdata hshort rfl (decode_between (hbetween hg) hg hshort) hbetween _
  | cons item items ih =>
    obtain ⟨g, f⟩ := item
    obtain ⟨hg, hgap⟩ := List.forall_mem_cons.mp hgap
    dsimp only at hg
    obtain ⟨n, rfl⟩ : ∃ m, n = m + 1 := ⟨n - 1, by omega⟩
    -- bytes between the frames, and nothing else
    have hnone : whole framed data.length ((g, f) :: items) = [] → STX_OCTET ∉ data → ∃ s' frames,
        onReceivedIn ctx (n + 1) s buf = .ok (s', frames) ∧
          Taken ctx ((g, f) :: items) data s' frames := fun hwhole hg =>
      taken_none hdata hshort hwhole (decode_between (hbetween hg) hg hshort) hbetween n
    rw [stream_cons, framed, List.append_assoc, List.append_assoc] at hpre
    dsimp only at hpre
    rcases prefix_append_cases hpre with ⟨hin, hne⟩ | ⟨data', rfl, hpre'⟩
    · have hlt := hin.length_le.lt_of_ne fun heq => hne (hin.eq_of_length heq)
      refine hnone (whole_short ?_ items) fun hmem => hg (hin.subset hmem)
      rw [framed, List.length_append]
      exact hlt.trans_le (Nat.le_add_right _ _)
    have hstart : s.InLength → g = [] := fun h => by
      cases g with
      | nil => rfl
      | cons b g => exact absurd (Option.some.inj (hlength h)) (ne_of_mem_of_not_mem (by simp) hg)
    rcases prefix_append_cases hpre' with ⟨hin, hne⟩ | ⟨rest, rfl, hrest⟩
    · have hlt := hin.length_le.lt_of_ne fun heq => hne (hin.eq_of_length heq)
      have hshorter : whole framed (g ++ data').length ((g, f) :: items) = [] := whole_short (by
        rw [framed, List.length_append, List.length_append]
        exact Nat.add_lt_add_left hlt _) items
      cases data' with
      | nil => exact hnone hshorter (by rwa [List.append_nil])
      | cons ch q =>
        obtain rfl : ch = STX_OCTET := (List.cons_prefix_cons.mp hin).1
        obtain ⟨s', hdecode, -⟩ := decode_cut ctx f hg
          hstart hin hne hshort hcut
        exact taken_none hdata hshort hshorter hdecode (by simp) n
    · have hbytes : g ++ (f.wire ++ rest) = stream framed [(g, f)] ++ rest := by
        rw [stream_cons, framed, List.append_assoc]
        simp [stream]
      cases hf : ctx.getModule f.id with
      | false =>
        obtain ⟨s', hreceived, hstx⟩ := onReceivedIn_unregistered f hdata hshort hg hstart
          hf n
        refine ⟨_, _, hreceived, [(g, f)], items, rfl, ?_, hbytes, ?_, fun _ => hstx⟩
        · exact (executed_unregistered (by simpa using hf)).symm
        · intro item hitem
          obtain ⟨mid, post, rfl⟩ := whole_mem hitem hrest
          by_contra hreg
          exact horder ⟨g, f, mid ++ item.1, item.2, post, by simp [framed], hf,
            Bool.not_eq_false _ ▸ hreg⟩
      | true =>
        obtain ⟨s', hstx, hempty, hreceived⟩ := onReceivedIn_registered f hdata hshort hg hstart
          hf n
        have hexecuted : [f.frame] = executed ctx [(g, f)] := by
          simp [executed, hf]
        cases rest with
        | nil =>
          refine ⟨s', _, hreceived, [(g, f)], items, rfl, hexecuted, ?_, ?_, fun _ => hstx⟩
          · rw [hbytes, hempty]
          · rw [hempty]
            exact fun f' hf' => absurd (whole_framed_zero items ▸ hf') List.not_mem_nil
        | cons b rest =>
          have hbehind := List.append_assoc g f.wire (b :: rest)
          rw [if_neg (List.cons_ne_nil _ _)] at hreceived
          obtain ⟨s'', frames, hbehind', htaken⟩ := ih s' (b :: rest) n hgap
            (by rw [hempty, List.nil_append]) hrest (by simp at hshort ⊢; omega)
            (fun h => hcut (hbehind ▸ h.append _)) (fun h => horder (hbehind ▸ h.append _))
            (fun h => by rw [InLength, hstx] at h; simp at h) (fun _ => hstx)
            (by simp [ApFrame.wire] at hn ⊢; omega)
          rw [hbehind'] at hreceived
          have htaken := htaken.append [(g, f)]
          rw [← hbytes, ← hexecuted] at htaken
          exact ⟨s'', _, hreceived, htaken⟩

theorem Taken.onReceived (chunk : List UInt8) (h : Taken ctx items data s frames)
    (hgap : ∀ item ∈ items, STX_OCTET ∉ item.1) (htail : STX_OCTET ∉ tail)
    (hpre : data ++ chunk <+: stream framed items ++ tail) (hfine : CallFine ctx s chunk) :
    ∃ s' frames', s.onReceived ctx chunk = .ok (s', frames') ∧
      Taken ctx items (data ++ chunk) s' (frames ++ frames') := by
  obtain ⟨done, todo, rfl, rfl, rfl, -, hstate⟩ := h
  rw [List.append_assoc, stream_append, List.append_assoc, List.prefix_append_right_inj]
    at hpre
  obtain ⟨s', frames', hreceived, htaken⟩ := onReceivedIn_taken s chunk
    (4 * (s.szRemainBuf.length + chunk.length) + 4)
    (fun item hitem => hgap item (List.mem_append_right _ hitem)) htail rfl hpre hfine.short
    hfine.length hfine.order hfine.state
    (fun h => hstate fun hmem => h (List.mem_append_left _ hmem))
    (by rw [List.length_append]; omega)
  refine ⟨s', frames', hreceived, ?_⟩
  rw [List.append_assoc]
  exact htaken.append done

end UsbRxWatcher

/-- **Chunk independence**: where every call meets its condition, what has been executed after the
calls are the registered frames of which the last byte has been received. -/
theorem executed_in_order {ctx : Context} {items : List (List UInt8 × ApFrame)}
    {tail : List UInt8} {chunks : List (List UInt8)} (hgap : ∀ item ∈ items, STX_OCTET ∉ item.1)
    (htail : STX_OCTET ∉ tail) (hpre : chunks.flatten <+: stream framed items ++ tail)
    (hfine : ∀ before chunk after s os, chunks = before ++ chunk :: after →
      (usb ctx).Runs {} before s os → CallFine ctx s chunk) :
    ∃ s, (usb ctx).Runs {} chunks s (executed ctx (whole framed chunks.flatten.length items)) := by
  have hinit : UsbRxWatcher.Taken ctx items [] {} [] :=
    ⟨[], items, rfl, rfl, rfl, by simp [whole_framed_zero], fun _ => rfl⟩
  obtain ⟨s, os, hruns, htaken⟩ := (usb ctx).exists_run_of_invariant
    (I := fun before s os => UsbRxWatcher.Taken ctx items before.flatten s os) hinit chunks
    (fun before chunk after s os hchunks hruns htaken => by
      obtain ⟨s', os', hreceived, htaken'⟩ := htaken.onReceived chunk hgap htail
        (by
          rw [hchunks] at hpre
          exact .trans ⟨after.flatten, by simp⟩ hpre)
        (hfine before chunk after s os hchunks hruns)
      exact ⟨s', os', hreceived, by simpa using htaken'⟩)
  rw [htaken.executed_eq] at hruns
  exact ⟨s, hruns⟩

/-- A frame with nothing but the `FT_H` for the module of an id. -/
def ftFrame (id : UInt8) : ApFrame :=
  ⟨[0x01, 0x00, id, 0x00], [], by simp, by simp [FRAME_MAX_LEN]⟩

/-- A frame in two calls, cut within its header. -/
theorem executed_in_order_cut : ∃ s, (usb (.usb [2])).Runs {}
    [(ftFrame 2).wire.take 6, (ftFrame 2).wire.drop 6] s [(ftFrame 2).frame] := by
  have hfirst : (usb (.usb [2])).observe {} [(ftFrame 2).wire.take 6] (fun s =>
      (s.szRemainBuf, s.m_cTstFrameState)) =
      some (((ftFrame 2).wire.take 6, .AP_INJECT_PIRIMITIVE_HEADER), []) := by decide
  have hfine : ∀ s : UsbRxWatcher, ∀ chunk, s.szRemainBuf ++ chunk <+: (ftFrame 2).wire →
      ¬ s.InLength → CallFine (.usb [2]) s chunk := fun s chunk hpre hstate => by
    have hlength := hpre.length_le
    have hcount := hpre.sublist.count_le STX_OCTET
    refine ⟨hlength.trans_lt (by decide), fun h => ?_, fun h => ?_, fun h => absurd h hstate⟩
    · have hmux : MUX_KEY_WORD ∈ (ftFrame 2).wire :=
        hpre.subset (List.mem_of_getLast? h.getLast?)
      revert hmux
      decide
    · exact absurd (h.two_le_count.trans hcount) (by decide)
  exact @executed_in_order (.usb [2]) [([], ftFrame 2)] [] _ (by simp)
    (by simp) (by simp [stream, framed]) fun before chunk after s os hchunks hruns => by
      rcases before with - | ⟨b, - | ⟨_, _⟩⟩
      · obtain ⟨rfl, -⟩ := hruns.deterministic .init
        obtain ⟨rfl, -⟩ := List.cons.inj hchunks
        exact hfine _ _ (List.take_prefix _ _) (by simp [UsbRxWatcher.InLength])
      · obtain ⟨rfl, rfl, rfl⟩ : (ftFrame 2).wire.take 6 = b ∧
            (ftFrame 2).wire.drop 6 = chunk ∧ after = [] := by simpa using hchunks
        obtain ⟨hview, -⟩ := hruns.view_of_observe hfirst
        obtain ⟨hkept, hstate⟩ := Prod.ext_iff.mp hview
        dsimp only at hkept hstate
        refine hfine s _ ?_ ?_
        · rw [hkept, List.take_append_drop]
        · rw [UsbRxWatcher.InLength, hstate]
          decide
      · simp at hchunks

/-- A frame of a module that is registered, behind one that is not, in the same call. -/
theorem unexecuted_behind_unregistered : ∃ s, (usb (.usb [2])).Runs {}
    [stream framed [([], ftFrame 3), ([], ftFrame 2)]] s [] ∧
    executed (.usb [2]) (whole framed (stream framed [([], ftFrame 3), ([], ftFrame 2)]).length
      [([], ftFrame 3), ([], ftFrame 2)]) = [(ftFrame 2).frame] := by
  have hnone : (usb (.usb [2])).observe {} [stream framed [([], ftFrame 3), ([], ftFrame 2)]]
      (fun _ => ()) = some ((), []) := by decide
  obtain ⟨s, hruns, -⟩ := Machine.exists_run_of_observe hnone
  exact ⟨s, hruns, by decide⟩

end MtkHardware.Meta
