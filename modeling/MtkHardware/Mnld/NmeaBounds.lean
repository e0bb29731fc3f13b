import MtkHardware.Mnld.GsvBuffer

/-!
# The Bounds of the NMEA Parser

Every access of the parser is within its array, but for those of a `GSV` sentence: its satellites
are written to `prn` and `snr` at `sv_count`, which is held below the length of the satellite list,
twice that of `prn` and `snr`. What a satellite needs depends on how many have been taken only, and
each that is listed is one more.
-/

namespace MtkHardware.Mnld

namespace NmeaParser

variable {s s' : NmeaParser} {tzer : NmeaTokenizer} {tok : Token} {n : ℕ} {sv_type : SvType}
  {search : Option ℤ}

structure Keeps (s s' : NmeaParser) : Prop where
  sentence : s'.sentence = s.sentence
  pos : s'.pos = s.pos
  sv_count : s'.sv_count = s.sv_count

theorem Keeps.refl (s : NmeaParser) : s.Keeps s := ⟨rfl, rfl, rfl⟩

theorem Keeps.trans {s₁ s₂ s₃ : NmeaParser} (h₁ : s₁.Keeps s₂) (h₂ : s₂.Keeps s₃) :
    s₁.Keeps s₃ :=
  ⟨h₂.sentence.trans h₁.sentence, h₂.pos.trans h₁.pos, h₂.sv_count.trans h₁.sv_count⟩

/-! ### The position -/

theorem yields_update_time (h : tok.Within) :
    Yields (s.nmea_reader_update_time tok) fun _ => True := by
  cases tok with
  | dummy => exact yields_ok.mpr trivial
  | slice p last =>
    obtain ⟨hp, hlast⟩ := h
    rw [nmea_reader_update_time]
    split
    · exact yields_ok.mpr trivial
    · refine (yields_str2int (by omega) (by omega)).bind fun _ _ => ?_
      refine (yields_str2int (by omega) (by omega)).bind fun _ _ => ?_
      refine (yields_str2float (by omega) hlast).bind fun _ _ => ?_
      exact yields_pure.mpr trivial

theorem yields_update_date {time : Token} (h : tok.Within) (htime : time.Within) :
    Yields (s.nmea_reader_update_date tok time) fun _ => True := by
  cases tok with
  | dummy => exact yields_ok.mpr trivial
  | slice p last =>
    obtain ⟨hp, hlast⟩ := h
    rw [nmea_reader_update_date]
    split
    · refine (yields_str2int (by omega) (by omega)).bind fun _ _ => ?_
      refine (yields_str2int (by omega) (by omega)).bind fun _ _ => ?_
      refine (yields_str2int (by omega) (by omega)).bind fun _ _ => ?_
      split
      · exact yields_pure.mpr trivial
      · exact yields_update_time htime
    · exact yields_ok.mpr trivial

theorem yields_update_latlong {longitude : Token} (h : tok.Within) (hlong : longitude.Within) :
    Yields (s.nmea_reader_update_latlong tok longitude) s.Keeps := by
  rw [nmea_reader_update_latlong]
  split
  · exact yields_ok.mpr (.refl s)
  · refine (h.yields_str2float _).bind fun _ _ => ?_
    split
    · exact yields_pure.mpr (.refl s)
    · exact (hlong.yields_str2float _).bind fun _ _ => yields_pure.mpr ⟨rfl, rfl, rfl⟩

theorem yields_updateField {flag : UInt16} (h : tok.Within) :
    Yields (s.updateField flag tok) s.Keeps := by
  rw [updateField]
  split
  · exact yields_ok.mpr (.refl s)
  · exact (h.yields_str2float _).bind fun _ _ => yields_pure.mpr ⟨rfl, rfl, rfl⟩

theorem yields_updatePlace (h : tzer.Good) (index : ℕ) :
    Yields (s.updatePlace tzer index) s.Keeps := by
  refine (h.yields_get _).bind fun lat hlat => ?_
  refine (h.yields_get _).bind fun latHemi hlatHemi => ?_
  refine (h.yields_get _).bind fun long hlong => ?_
  refine (h.yields_get _).bind fun longHemi hlongHemi => ?_
  refine (yields_head hlatHemi).bind fun _ _ => ?_
  refine (yields_head hlongHemi).bind fun _ _ => ?_
  exact yields_update_latlong hlat hlong

theorem yields_parseGGA (h : tzer.Good) : Yields (s.parseGGA tzer) s.Keeps := by
  refine (h.yields_get _).bind fun time htime => ?_
  refine (h.yields_get _).bind fun altitude haltitude => ?_
  refine (yields_update_time htime).bind fun _ _ => ?_
  refine (yields_updatePlace h 2).bind fun s' hs' => ?_
  exact (yields_updateField haltitude).mono fun _ => hs'.trans

theorem yields_parseRMC (h : tzer.Good) : Yields (s.parseRMC tzer) s.Keeps := by
  refine (h.yields_get _).bind fun time htime => ?_
  refine (h.yields_get _).bind fun status hstatus => ?_
  refine (h.yields_get _).bind fun speed hspeed => ?_
  refine (h.yields_get _).bind fun bearing hbearing => ?_
  refine (h.yields_get _).bind fun date hdate => ?_
  refine (yields_head hstatus).bind fun _ _ => ?_
  split
  · refine (yields_update_date hdate htime).bind fun _ _ => ?_
    refine (yields_updatePlace h 3).bind fun s₁ h₁ => ?_
    refine (yields_updateField hbearing).bind fun s₂ h₂ => ?_
    exact (yields_updateField hspeed).mono fun _ h₃ => (h₁.trans h₂).trans h₃
  · exact yields_pure.mpr (.refl s)

theorem yields_parseACCURACY (h : tzer.Good) : Yields (s.parseACCURACY tzer) s.Keeps := by
  rw [parseACCURACY]
  split
  · exact (h.yields_get _).bind fun _ haccuracy => yields_updateField haccuracy
  · exact yields_ok.mpr (.refl s)

/-! ### What is known of the satellites -/

theorem yields_updateCash {index : ℤ} {mark : NmeaCash → NmeaCash} (h₀ : 0 ≤ index)
    (h : index < NMEA_CASH_SIZE) : Yields (s.updateCash index mark) s.Keeps := by
  refine (yields_readAt h₀ h).bind fun _ _ => ?_
  exact (yields_writeAt h₀ h).bind fun _ _ => yields_pure.mpr ⟨rfl, rfl, rfl⟩

theorem yields_gsaSatellites (h : tzer.Good) (indices : List ℕ) :
    Yields (gsaSatellites tzer sv_type indices s) s.Keeps := by
  induction indices generalizing s with
  | nil => exact yields_ok.mpr (.refl s)
  | cons idx rest ih =>
    refine (h.yields_get _).bind fun tok htok => ?_
    split
    · exact yields_pure.mpr (.refl s)
    · refine (htok.yields_str2int _).bind fun id _ => ?_
      dsimp only
      split
      · rename_i hid
        exact (yields_updateCash hid.1 hid.2).bind fun s' hs' => ih.mono fun _ => hs'.trans
      · exact ih

theorem yields_parseGSA (h : tzer.Good) : Yields (s.parseGSA tzer sv_type) s.Keeps := by
  refine (h.yields_get _).bind fun fix hfix => ?_
  refine (hfix.yields_str2int _).bind fun fix_mode _ => ?_
  have hmode : s.Keeps { s with fix_mode } := ⟨rfl, rfl, rfl⟩
  dsimp only
  split
  · exact (yields_gsaSatellites h _).mono fun _ => hmode.trans
  · exact yields_pure.mpr hmode

theorem yields_markSatellites {mark : NmeaCash → NmeaCash} (h : tzer.Good) :
    Yields (s.markSatellites tzer mark) s.Keeps := by
  refine (h.yields_get _).bind fun num hnum => ?_
  refine (hnum.yields_str2int _).bind fun _ _ => ?_
  refine Yields.foldlM (.refl s) fun idx hidx s' hs' => ?_
  refine (h.yields_get _).bind fun tok htok => ?_
  refine (htok.yields_str2int _).bind fun there _ => ?_
  have hidx : idx < GPS_MAX_SVS := List.mem_range.mp hidx
  split
  · have hcash : (idx + 1 : ℤ) < NMEA_CASH_SIZE := by
      simp only [GPS_MAX_SVS, NMEA_CASH_SIZE] at *
      omega
    exact (yields_updateCash (by omega) hcash).mono fun _ => hs'.trans
  · exact yields_pure.mpr hs'

/-! ### The satellites in view -/

/-- A satellite with this number may come when `c` have been taken: there is room in `prn` and
`snr`, and the place in the satellite list, for a satellite that is put there, is not negative, as
it is when the number of satellites overflows. -/
def SatelliteFits (num_svs id : ℤ) (c : ℕ) : Prop :=
  c < AT_MAX_SVS ∧ ((constellation id).isSome → 0 ≤ int (c + num_svs))

/-- How many satellites have been taken behind this one. -/
def countBehind (num_svs id : ℤ) (c : ℕ) : ℕ :=
  if (constellation id).isSome ∧ int (c + num_svs) < GNSS_MAX_SVS then c + 1 else c

/-- The number of the satellite at an index of a `GSV` sentence. -/
def satelliteAt (sentence : Sentence) (tzer : NmeaTokenizer) (sv_type : SvType) (idx : ℕ) :
    Except NmeaFault ℤ := do
  let tok_id ← tzer.nmea_tokenizer_get (4 * (idx + 1))
  let id ← tok_id.str2int sentence
  return satelliteId sv_type id

/-- The satellites at these indices may come one after the other when `c` have been taken. -/
def EntriesFit (sentence : Sentence) (tzer : NmeaTokenizer) (sv_type : SvType) (num_svs : ℤ) :
    List ℕ → ℕ → Prop
  | [], _ => True
  | idx :: rest, c => ∀ id, satelliteAt sentence tzer sv_type idx = .ok id →
      SatelliteFits num_svs id c ∧
        EntriesFit sentence tzer sv_type num_svs rest (countBehind num_svs id c)

/-- The satellites of the `GSV` sentence may come. -/
def GsvFits (s : NmeaParser) (tzer : NmeaTokenizer) (sv_type : SvType) : Prop :=
  ∀ gsv, s.gsv tzer = .ok gsv →
    EntriesFit s.sentence tzer sv_type s.num_svs (List.range gsv.sv_num.toNat)
      (if gsv.seq = 1 then 0 else s.sv_count)

structure Taken (id : ℤ) (s s' : NmeaParser) : Prop where
  sentence : s'.sentence = s.sentence
  pos : s'.pos = s.pos
  num_svs : s'.num_svs = s.num_svs
  sv_count : s'.sv_count = countBehind s.num_svs id s.sv_count

theorem yields_update_sv_status {id : ℤ} {ele azi snr : Token} (hele : ele.Within)
    (hazi : azi.Within) (hsnr : snr.Within)
    (hfits : (constellation id).isSome → 0 ≤ int (s.sv_count + s.num_svs)) :
    Yields (s.nmea_reader_update_sv_status id ele azi snr) (s.Taken id) := by
  rw [nmea_reader_update_sv_status]
  split
  · rename_i hfull
    refine yields_ok.mpr ⟨rfl, rfl, rfl, (if_neg fun h => ?_).symm⟩
    omega
  rename_i hfull
  have hknown : (constellation id).isSome → 0 ≤ id ∧ id < NMEA_CASH_SIZE := constellation_lt
  split
  · rename_i hnone
    refine yields_ok.mpr ⟨rfl, rfl, rfl, (if_neg fun h => ?_).symm⟩
    rw [hnone] at h
    exact Bool.false_ne_true h.1
  · rename_i svid type hsome
    rw [hsome] at hfits hknown
    obtain ⟨hid₀, hid⟩ := hknown rfl
    refine (hsnr.yields_str2float _).bind fun _ _ => ?_
    refine (hele.yields_str2int _).bind fun _ _ => ?_
    refine (hazi.yields_str2int _).bind fun _ _ => ?_
    refine (yields_readAt hid₀ hid).bind fun _ _ => ?_
    refine (yields_writeAt (hfits rfl) (by omega)).bind fun _ _ => ?_
    refine yields_pure.mpr ⟨rfl, rfl, rfl, (if_pos ⟨?_, by omega⟩).symm⟩
    rw [hsome]
    rfl

theorem nonneg_of_update_sv_status {id : ℤ} {ele azi snr : Token}
    (h : s.nmea_reader_update_sv_status id ele azi snr = .ok s')
    (hknown : (constellation id).isSome) : 0 ≤ int (s.sv_count + s.num_svs) := by
  rw [nmea_reader_update_sv_status] at h
  split at h
  · rename_i hfull
    exact le_trans (by decide) hfull
  split at h
  · rename_i hnone
    rw [hnone] at hknown
    cases hknown
  · obtain ⟨_, -, h⟩ := bind_ok_iff.mp h
    obtain ⟨_, -, h⟩ := bind_ok_iff.mp h
    obtain ⟨_, -, h⟩ := bind_ok_iff.mp h
    obtain ⟨_, -, h⟩ := bind_ok_iff.mp h
    obtain ⟨_, hwrite, -⟩ := bind_ok_iff.mp h
    exact (writeAt_iff.mp ⟨_, hwrite, trivial⟩).1

theorem yields_satelliteAt (sentence : Sentence) (h : tzer.Good) (sv_type : SvType) (idx : ℕ) :
    Yields (satelliteAt sentence tzer sv_type idx) fun _ => True := by
  refine (h.yields_get _).bind fun tok htok => ?_
  exact (htok.yields_str2int _).bind fun _ _ => yields_pure.mpr trivial

theorem satelliteAt_ok {idx : ℕ} {tok_id : Token} {id : ℤ}
    (hget : tzer.nmea_tokenizer_get (4 * (idx + 1)) = .ok tok_id)
    (hid : tok_id.str2int s.sentence = .ok id) :
    satelliteAt s.sentence tzer sv_type idx = .ok (satelliteId sv_type id) :=
  bind_ok_iff.mpr ⟨tok_id, hget, bind_ok_iff.mpr ⟨id, hid, rfl⟩⟩

theorem yields_gsvEntry {idx : ℕ} {id : ℤ} (h : tzer.Good)
    (hid : satelliteAt s.sentence tzer sv_type idx = .ok id)
    (hfits : SatelliteFits s.num_svs id s.sv_count) :
    Yields (gsvEntry tzer sv_type s idx) (s.Taken id) := by
  obtain ⟨hroom, hplace⟩ := hfits
  obtain ⟨tok_id, hget, htok⟩ := h.yields_get (4 * (idx + 1))
  obtain ⟨n, hn, -⟩ := htok.yields_str2int s.sentence
  obtain rfl : satelliteId sv_type n = id := Except.ok.inj ((satelliteAt_ok hget hn).symm.trans hid)
  refine Yields.bind (P := (· = tok_id)) ⟨tok_id, hget, rfl⟩ fun tok_id' htok_id' => ?_
  subst htok_id'
  refine Yields.bind (P := (· = n)) ⟨n, hn, rfl⟩ fun n' hn' => ?_
  subst hn'
  refine (h.yields_get _).bind fun ele hele => ?_
  refine (h.yields_get _).bind fun azi hazi => ?_
  refine (h.yields_get _).bind fun snr hsnr => ?_
  refine (yields_writeAt (by omega) (by omega)).bind fun _ _ => ?_
  refine (hsnr.yields_str2float _).bind fun _ _ => ?_
  refine (yields_writeAt (by omega) (by omega)).bind fun _ _ => ?_
  refine (yields_update_sv_status hele hazi hsnr ?_).mono fun _ h' =>
    ⟨h'.sentence, h'.pos, h'.num_svs, h'.sv_count⟩
  exact hplace

theorem fits_of_gsvEntry {idx : ℕ} {id : ℤ}
    (hid : satelliteAt s.sentence tzer sv_type idx = .ok id)
    (hentry : gsvEntry tzer sv_type s idx = .ok s') :
    SatelliteFits s.num_svs id s.sv_count := by
  obtain ⟨tok_id, hget, hentry⟩ := bind_ok_iff.mp hentry
  obtain ⟨n, hn, hentry⟩ := bind_ok_iff.mp hentry
  obtain rfl : satelliteId sv_type n = id := Except.ok.inj ((satelliteAt_ok hget hn).symm.trans hid)
  obtain ⟨_, -, hentry⟩ := bind_ok_iff.mp hentry
  obtain ⟨_, -, hentry⟩ := bind_ok_iff.mp hentry
  obtain ⟨_, -, hentry⟩ := bind_ok_iff.mp hentry
  obtain ⟨_, hprn, hentry⟩ := bind_ok_iff.mp hentry
  obtain ⟨_, -, hentry⟩ := bind_ok_iff.mp hentry
  obtain ⟨_, -, hupdate⟩ := bind_ok_iff.mp hentry
  have hroom := (writeAt_iff.mp ⟨_, hprn, trivial⟩).2
  have hplace := nonneg_of_update_sv_status hupdate
  exact ⟨by omega, hplace⟩

theorem countBehind_le {num_svs id : ℤ} {c : ℕ} (h : SatelliteFits num_svs id c) :
    countBehind num_svs id c ≤ AT_MAX_SVS := by
  have hroom := h.1
  rw [countBehind]
  split <;> omega

/-- The sentence is that of before, and the count is within `prn` and `snr`. -/
structure Stays (s s' : NmeaParser) : Prop where
  sentence : s'.sentence = s.sentence
  pos : s'.pos = s.pos
  sv_count : s'.sv_count ≤ AT_MAX_SVS

theorem Keeps.stays (h : s.Keeps s') (hcount : s.sv_count ≤ AT_MAX_SVS) : s.Stays s' :=
  ⟨h.sentence, h.pos, h.sv_count.trans_le hcount⟩

theorem Stays.trans {s₁ s₂ s₃ : NmeaParser} (h₁ : s₁.Stays s₂) (h₂ : s₂.Stays s₃) :
    s₁.Stays s₃ :=
  ⟨h₂.sentence.trans h₁.sentence, h₂.pos.trans h₁.pos, h₂.sv_count⟩

theorem yields_gsvEntries (h : tzer.Good) {indices : List ℕ} (hcount : s.sv_count ≤ AT_MAX_SVS)
    (hfits : EntriesFit s.sentence tzer sv_type s.num_svs indices s.sv_count) :
    Yields (indices.foldlM (gsvEntry tzer sv_type) s) s.Stays := by
  induction indices generalizing s with
  | nil => exact yields_pure.mpr ((Keeps.refl s).stays hcount)
  | cons idx rest ih =>
    obtain ⟨id, hid, -⟩ := yields_satelliteAt s.sentence h sv_type idx
    obtain ⟨hfirst, hrest⟩ := hfits id hid
    rw [List.foldlM_cons]
    refine (yields_gsvEntry h hid hfirst).bind fun s₁ h₁ => ?_
    have hcount₁ : s₁.sv_count ≤ AT_MAX_SVS := h₁.sv_count.trans_le (countBehind_le hfirst)
    refine (ih hcount₁ ?_).mono fun s₂ h₂ =>
      ⟨h₂.sentence.trans h₁.sentence, h₂.pos.trans h₁.pos, h₂.sv_count⟩
    rw [h₁.sentence, h₁.num_svs, h₁.sv_count]
    exact hrest

theorem entriesFit_of_gsvEntries (h : tzer.Good) {indices : List ℕ}
    (hentries : indices.foldlM (gsvEntry tzer sv_type) s = .ok s') :
    EntriesFit s.sentence tzer sv_type s.num_svs indices s.sv_count := by
  induction indices generalizing s with
  | nil => exact trivial
  | cons idx rest ih =>
    intro id hid
    rw [List.foldlM_cons] at hentries
    obtain ⟨s₁, hentry, hrest⟩ := bind_ok_iff.mp hentries
    have hfirst := fits_of_gsvEntry hid hentry
    have h₁ := (yields_gsvEntry h hid hfirst).of_ok hentry
    have hfits := ih hrest
    rw [h₁.sentence, h₁.num_svs, h₁.sv_count] at hfits
    exact ⟨hfirst, hfits⟩

theorem yields_gsvDone {gsv : Gsv} (hcount : s.sv_count ≤ AT_MAX_SVS) :
    Yields (s.gsvDone gsv search) s.Stays := by
  rw [gsvDone]
  split
  · split
    · dsimp only
      split
      · exact yields_ok.mpr ⟨rfl, rfl, hcount⟩
      · refine (yields_searchFrom _ (by simpa using hcount)).bind fun _ _ => ?_
        exact yields_pure.mpr ⟨rfl, rfl, hcount⟩
    · exact yields_ok.mpr ⟨rfl, rfl, Nat.zero_le _⟩
  · exact yields_ok.mpr ⟨rfl, rfl, hcount⟩

theorem yields_gsv (h : tzer.Good) : Yields (s.gsv tzer) fun _ => True := by
  refine (h.yields_get _).bind fun num hnum => ?_
  refine (h.yields_get _).bind fun seq hseq => ?_
  refine (h.yields_get _).bind fun cnt hcnt => ?_
  refine (hnum.yields_str2int _).bind fun _ _ => ?_
  refine (hseq.yields_str2int _).bind fun _ _ => ?_
  exact (hcnt.yields_str2int _).bind fun _ _ => yields_pure.mpr trivial

theorem yields_parseGSV (h : tzer.Good) (hcount : s.sv_count ≤ AT_MAX_SVS)
    (hfits : s.GsvFits tzer sv_type) : Yields (s.parseGSV tzer sv_type search) s.Stays := by
  obtain ⟨gsv, hgsv, -⟩ := yields_gsv (s := s) h
  have hfits := hfits gsv hgsv
  refine Yields.bind (P := (· = gsv)) ⟨gsv, hgsv, rfl⟩ fun gsv' hgsv' => ?_
  subst hgsv'
  have hentries : Yields ((List.range gsv'.sv_num.toNat).foldlM (gsvEntry tzer sv_type)
      (if gsv'.seq = 1 then { s with sv_count := 0 } else s)) s.Stays := by
    split
    · rename_i hseq
      rw [if_pos hseq] at hfits
      exact (yields_gsvEntries h (Nat.zero_le _) hfits).mono fun _ h' =>
        ⟨h'.sentence, h'.pos, h'.sv_count⟩
    · rename_i hseq
      rw [if_neg hseq] at hfits
      exact yields_gsvEntries h hcount hfits
  refine hentries.bind fun s₁ h₁ => ?_
  exact (yields_gsvDone h₁.sv_count).mono fun _ => h₁.trans

theorem gsvFits_of_parseGSV (h : tzer.Good)
    (hparse : s.parseGSV tzer sv_type search = .ok s') : s.GsvFits tzer sv_type := by
  intro gsv hgsv
  obtain ⟨gsv', hgsv', hparse⟩ := bind_ok_iff.mp hparse
  obtain rfl : gsv = gsv' := Except.ok.inj (hgsv.symm.trans hgsv')
  obtain ⟨s₁, hentries, -⟩ := bind_ok_iff.mp hparse
  split
  · rename_i hseq
    rw [if_pos hseq] at hentries
    exact entriesFit_of_gsvEntries h hentries
  · rename_i hseq
    rw [if_neg hseq] at hentries
    exact entriesFit_of_gsvEntries h hentries

/-! ### A sentence -/

/-- The satellites of the sentence, if it is a `GSV` sentence, may come. -/
def SentenceFits (s : NmeaParser) : Prop :=
  ∀ tzer sv_type, s.header = .ok (some (tzer, sv_type, .GSV)) → s.GsvFits tzer sv_type

theorem yields_findText {α : Type} {p : ℕ} {otherwise : α} {texts : List (ℕ × List Char × α)}
    (h : ∀ text ∈ texts, p + text.1 + text.2.1.length ≤ NMEA_MAX_SIZE + 1) :
    Yields (s.findText p otherwise texts) fun _ => True := by
  induction texts with
  | nil => exact yields_ok.mpr trivial
  | cons text rest ih =>
    obtain ⟨htext, hrest⟩ := List.forall_mem_cons.mp h
    refine (yields_memcmp htext).bind fun _ _ => ?_
    split
    · exact yields_pure.mpr trivial
    · exact ih hrest

theorem yields_svType {p : ℕ} (h : p ≤ 1) : Yields (s.svType p) fun _ => True := by
  refine yields_findText ?_
  simp only [List.forall_mem_cons, List.length_cons, List.length_nil, NMEA_MAX_SIZE]
  exact ⟨by omega, by omega, by omega, by omega, by simp⟩

theorem yields_sentenceId {p : ℕ} (h : p ≤ 3) : Yields (s.sentenceId p) fun _ => True := by
  refine yields_findText ?_
  simp only [List.forall_mem_cons, List.length_cons, List.length_nil, NMEA_MAX_SIZE]
  exact ⟨by omega, by omega, by omega, by omega, by omega, by omega, by omega, by simp⟩

theorem yields_header (hpos : s.pos ≤ NMEA_MAX_SIZE) :
    Yields s.header fun r => ∀ tzer sv_type id, r = some (tzer, sv_type, id) → tzer.Good := by
  rw [header]
  split
  · exact yields_ok.mpr (by simp)
  refine (NmeaTokenizer.yields_nmea_tokenizer_init hpos).bind fun tzer hgood => ?_
  obtain ⟨tok, hget, -⟩ := hgood.yields_get 0
  refine Yields.bind (P := (· = tok)) ⟨tok, hget, rfl⟩ fun tok' htok => ?_
  subst htok
  cases tok' with
  | dummy => exact yields_pure.mpr (by simp)
  | slice p last =>
    have hfirst := hgood.first_le hget
    dsimp only
    split
    · exact yields_pure.mpr (by simp)
    refine (yields_svType hfirst).bind fun sv_type _ => ?_
    refine (yields_sentenceId (by omega)).bind fun id _ => ?_
    refine yields_pure.mpr fun tzer' sv_type' id' heq => ?_
    cases heq
    exact hgood

theorem yields_update {id : SentenceId} (h : tzer.Good) (hcount : s.sv_count ≤ AT_MAX_SVS)
    (hfits : id = .GSV → s.GsvFits tzer sv_type) :
    Yields (s.update tzer sv_type search id) s.Stays := by
  cases id with
  | GGA => exact (yields_parseGGA h).mono fun _ h' => h'.stays hcount
  | GSA => exact (yields_parseGSA h).mono fun _ h' => h'.stays hcount
  | RMC => exact (yields_parseRMC h).mono fun _ h' => h'.stays hcount
  | EPH => exact (yields_markSatellites h).mono fun _ h' => h'.stays hcount
  | ALM => exact (yields_markSatellites h).mono fun _ h' => h'.stays hcount
  | GSV => exact yields_parseGSV h hcount (hfits rfl)
  | ACCURACY => exact (yields_parseACCURACY h).mono fun _ h' => h'.stays hcount
  | unknown => exact yields_ok.mpr ((Keeps.refl s).stays hcount)

theorem keeps_reportLocation : s.Keeps s.reportLocation.1 := by
  rw [reportLocation]
  split <;> exact ⟨rfl, rfl, rfl⟩

theorem yields_reportSatellites (hcount : s.sv_count ≤ AT_MAX_SVS) :
    Yields s.reportSatellites fun r => s.Stays r.1 := by
  rw [reportSatellites]
  split
  · refine (yields_readAt le_rfl (by decide)).bind fun _ _ => ?_
    exact yields_pure.mpr ⟨rfl, rfl, Nat.zero_le _⟩
  · exact yields_ok.mpr ⟨rfl, rfl, hcount⟩

theorem yields_nmea_reader_parse (hpos : s.pos ≤ NMEA_MAX_SIZE) (hcount : s.sv_count ≤ AT_MAX_SVS)
    (hfits : s.SentenceFits) :
    Yields (s.nmea_reader_parse search) fun r => s.Stays r.1 := by
  obtain ⟨header, hheader, hgood⟩ := yields_header hpos
  refine Yields.bind (P := (· = header)) ⟨header, hheader, rfl⟩ fun header' heq => ?_
  subst heq
  cases header' with
  | none => exact yields_pure.mpr ⟨rfl, rfl, hcount⟩
  | some parts =>
    obtain ⟨tzer, sv_type, id⟩ := parts
    have hupdate : Yields (s.update tzer sv_type search id) s.Stays :=
      yields_update (hgood _ _ _ rfl) hcount fun hid => hfits _ _ (hid ▸ hheader)
    refine hupdate.bind fun s₁ h₁ => ?_
    have h₂ := h₁.trans (keeps_reportLocation.stays h₁.sv_count)
    refine (yields_reportSatellites h₂.sv_count).bind fun r h₃ => ?_
    exact yields_pure.mpr (h₂.trans h₃)

theorem sentenceFits_of_parse {r : NmeaParser × List NmeaOut} (hpos : s.pos ≤ NMEA_MAX_SIZE)
    (hparse : s.nmea_reader_parse search = .ok r) : s.SentenceFits := by
  intro tzer sv_type hheader
  obtain ⟨header, hheader', hparse⟩ := bind_ok_iff.mp hparse
  obtain rfl := Except.ok.inj (hheader.symm.trans hheader')
  obtain ⟨s₁, hupdate, -⟩ := bind_ok_iff.mp hparse
  exact gsvFits_of_parseGSV ((yields_header hpos).of_ok hheader _ _ _ rfl) hupdate

/-! ### The machine -/

/-- If the character completes a `GSV` sentence, its satellites may come. -/
def CharFits (s : NmeaParser) (c : UInt8) : Prop :=
  s.overflow = false → s.pos < NMEA_MAX_SIZE → c = ascii '\n' →
    ∀ sentence, writeAt NmeaFault.sentence s.sentence s.pos c = .ok sentence →
      SentenceFits { s with sentence, pos := s.pos + 1 }

/-- **The condition on a step**: the satellites of a sentence that it completes may come. -/
def Fits (s : NmeaParser) : NmeaOp → Prop
  | .begin => True
  | .addc c last _ => (s.tagged last).CharFits c

/-- **The invariant**: there is room in the sentence for what has come, the last place of the
sentence is free, and the satellites that have been taken are within `prn` and `snr`. -/
structure Good (s : NmeaParser) : Prop where
  pos : s.pos ≤ NMEA_MAX_SIZE
  zero : s.sentence.char NMEA_MAX_SIZE = .ok 0
  sv_count : s.sv_count ≤ AT_MAX_SVS

theorem good_begin (s : NmeaParser) :
    Good { s with toNmeaReader := {}, gps_nmea_end_tag := false } where
  pos := Nat.zero_le _
  zero := by
    rw [Sentence.char, readAt_eq (by decide) (by decide)]
    exact congrArg _ (Vector.getElem_replicate _)
  sv_count := Nat.zero_le _

variable {r : NmeaParser × List NmeaOut} {op : NmeaOp}

theorem Good.yields_complete (h : s.Good) (hfits : s.SentenceFits) :
    Yields (s.complete search) fun r => r.1.Good := by
  refine (yields_nmea_reader_parse h.pos h.sv_count hfits).bind fun r hr => ?_
  have hzero : r.1.sentence.char NMEA_MAX_SIZE = .ok 0 := by
    rw [hr.sentence]
    exact h.zero
  refine (yields_string hzero (Nat.zero_add _) (Nat.succ_pos _)).bind fun _ _ => ?_
  exact yields_pure.mpr ⟨Nat.zero_le _, hzero, hr.sv_count⟩

theorem Good.received {c : UInt8} {sentence : Sentence} (h : s.Good) (hpos : s.pos < NMEA_MAX_SIZE)
    (hwrite : writeAt NmeaFault.sentence s.sentence s.pos c = .ok sentence) :
    Good { s with sentence, pos := s.pos + 1 } where
  pos := hpos
  zero := by
    have hother : (s.pos : ℤ) ≠ (NMEA_MAX_SIZE : ℕ) := by omega
    have hzero := readAt_of_writeAt hwrite hother
    exact hzero.trans h.zero
  sv_count := h.sv_count

theorem Good.tagged (h : s.Good) (last : Bool) : (s.tagged last).Good := ⟨h.pos, h.zero, h.sv_count⟩

theorem Good.yields_addc {c : UInt8} (h : s.Good) (hfits : s.CharFits c) :
    Yields (s.nmea_reader_addc c search) fun r => r.1.Good := by
  rw [nmea_reader_addc]
  split
  · exact yields_ok.mpr ⟨h.pos, h.zero, h.sv_count⟩
  rename_i hoverflow
  split
  · exact yields_ok.mpr ⟨Nat.zero_le _, h.zero, h.sv_count⟩
  rename_i hpos
  obtain ⟨sentence, hwrite⟩ : ∃ sentence, writeAt NmeaFault.sentence s.sentence s.pos c =
      .ok sentence := ⟨_, writeAt_eq (by omega) (by omega)⟩
  have hgood := h.received (not_le.mp hpos) hwrite
  refine Yields.bind (P := (· = sentence)) ⟨sentence, hwrite, rfl⟩ fun sentence' heq => ?_
  subst heq
  dsimp only
  split
  · rename_i hend
    exact hgood.yields_complete
      (hfits (eq_false_of_ne_true hoverflow) (not_le.mp hpos) hend _ hwrite)
  · exact yields_pure.mpr hgood

theorem Good.fits_of_addc {c : UInt8} (h : s.Good) (haddc : s.nmea_reader_addc c search = .ok r) :
    s.CharFits c := by
  intro hoverflow hpos hend sentence hwrite
  rw [nmea_reader_addc, if_neg (by simp [hoverflow]), if_neg (not_le.mpr hpos)] at haddc
  obtain ⟨sentence', hwrite', haddc⟩ := bind_ok_iff.mp haddc
  obtain rfl := Except.ok.inj (hwrite.symm.trans hwrite')
  dsimp only at haddc
  rw [if_pos hend] at haddc
  obtain ⟨r', hparse, -⟩ := bind_ok_iff.mp haddc
  exact sentenceFits_of_parse (h.received hpos hwrite).pos hparse

/-- **The step lemma.** -/
theorem Good.yields_step (h : s.Good) (hfits : s.Fits op) :
    Yields (nmea s op) fun r => r.1.Good := by
  cases op with
  | begin => exact yields_ok.mpr (good_begin s)
  | addc c last search => exact (h.tagged last).yields_addc hfits

theorem Good.fits_of_step (h : s.Good) (hstep : nmea s op = .ok r) : s.Fits op := by
  cases op with
  | begin => exact trivial
  | addc c last search => exact (h.tagged last).fits_of_addc hstep

end NmeaParser

open NmeaParser in
/-- **The bounds of the parser**: all accesses of a run are within their arrays exactly when each of
its steps meets the condition. -/
theorem in_bounds_iff (ops : List NmeaOp) : (∃ s os, nmea.Runs {} ops s os) ↔
    ∀ before op after, ops = before ++ op :: after →
      ∀ s os, nmea.Runs {} before s os → s.Fits op := by
  refine Machine.exists_run_iff (good_begin {}) (fun s op s' o h hstep => ?_) (fun s op h => ?_) ops
  · exact (h.yields_step (h.fits_of_step hstep)).of_ok hstep
  · refine ⟨fun ⟨s', o, hstep⟩ => h.fits_of_step hstep, fun hfits => ?_⟩
    obtain ⟨r, hstep, -⟩ := h.yields_step hfits
    exact ⟨r.1, r.2, hstep⟩

/-- A set of 36 satellites: the first satellite of the ninth sentence is the 33rd. -/
def crowded : List UInt8 :=
  [ "$GPGSV,9,1,36,01,,,,02,,,,03,,,,04,,,\n".toList,
    "$GPGSV,9,2,36,05,,,,06,,,,07,,,,08,,,\n".toList,
    "$GPGSV,9,3,36,09,,,,10,,,,11,,,,12,,,\n".toList,
    "$GPGSV,9,4,36,13,,,,14,,,,15,,,,16,,,\n".toList,
    "$GPGSV,9,5,36,17,,,,18,,,,19,,,,20,,,\n".toList,
    "$GPGSV,9,6,36,21,,,,22,,,,23,,,,24,,,\n".toList,
    "$GPGSV,9,7,36,25,,,,26,,,,27,,,,28,,,\n".toList,
    "$GPGSV,9,8,36,29,,,,30,,,,31,,,,65,,,\n".toList,
    "$GPGSV,9,9,36,66,,,,67,,,,68,,,,69,,,\n".toList].flatten.map ascii

namespace GsvBuffer

open NmeaParser

def bareSatellite (id : Number) : Satellite where
  id := id
  elevation := { digits := [], isDigit := by decide, small := by decide }
  azimuth := { digits := [], isDigit := by decide, small := by decide }
  snr := { text := [], isDecimal := by decide, short := by decide }

def oneDigit (a : Fin 10) : Number where
  digits := [ascii '0' + a.toNat.toUInt8]
  isDigit := by revert a; decide
  small := by revert a; decide

def crowdedSatellites : List Satellite :=
  (((List.finRange 100).drop 1).take 31 ++ ((List.finRange 100).drop 65).take 5).map fun id =>
    bareSatellite (twoDigits (.ofNat 10 (id / 10)) (.ofNat 10 (id % 10)))

def crowdedSentence (i : Fin 9) : GsvSentence where
  system := .GPS
  num := oneDigit 9
  seq := oneDigit i.succ
  cnt := twoDigits 3 6
  sats := (crowdedSatellites.drop (4 * i)).take 4
  checksum := none
  carriage := false

def crowdedParts : GsvParts where
  system := .GPS
  sats := crowdedSatellites
  sentences := (List.finRange 9).map crowdedSentence
  count := by decide
  part i g h := by
    rw [List.getElem?_map, Option.map_eq_some_iff] at h
    obtain ⟨j, hj, rfl⟩ := h
    obtain ⟨hi, rfl⟩ := List.getElem?_eq_some_iff.mp hj
    rw [List.getElem_finRange]
    have hseq : ∀ j : Fin 9, (oneDigit j.succ).value = j + 1 := by decide
    have hlength : ∀ j : Fin 9, (crowdedSentence j).text.length ≤ NMEA_MAX_SIZE := by decide
    exact ⟨rfl, rfl, hseq _, rfl, rfl, hlength _⟩

end GsvBuffer

namespace NmeaParser

variable {g : GsvSentence} {done cur : List Seen}

theorem gsvEntry_of_full (hcut : tzer.Cut s.sentence (g.address :: g.fields)) {sat : Satellite}
    (hsat : g.sats[0]? = some sat) (hfull : s.sv_count = AT_MAX_SVS) :
    gsvEntry tzer sv_type s 0 = .error .prn := by
  obtain ⟨tok_id, hid, hshows_id⟩ := hcut.get (4 * (0 + 1))
  obtain ⟨tok_ele, hele, -⟩ := hcut.get (4 * (0 + 1) + 1)
  obtain ⟨tok_azi, hazi, -⟩ := hcut.get (4 * (0 + 1) + 2)
  obtain ⟨tok_snr, hsnr, -⟩ := hcut.get (4 * (0 + 1) + 3)
  have hshows_id : tok_id.Shows s.sentence sat.id.text := by
    rw [← Nat.add_zero (4 * (0 + 1)), getD_fields hsat (by omega)] at hshows_id
    exact hshows_id
  rw [gsvEntry, hid, hele, hazi, hsnr]
  simp only [bind, Except.bind, hshows_id.str2int_eq, hfull, writeAt_error (Nat.le_refl _)]

theorem complete_of_full {before : ℕ} (h : Receiving g.text s) (hcounts : Counts g before)
    (hbefore : before ≠ 0) (hsats : g.sats ≠ []) (hlength : g.text.length ≤ NMEA_MAX_SIZE)
    (hfull : s.sv_count = AT_MAX_SVS) : s.complete search = .error .prn := by
  obtain ⟨tzer, hheader, hcut⟩ := g.header_eq h.shows h.pos hlength hcounts.sats
  obtain ⟨sat, sats, hcons⟩ := List.exists_cons_of_ne_nil hsats
  have hentry : gsvEntry tzer g.system.svType s 0 = .error .prn :=
    gsvEntry_of_full hcut (by rw [hcons]; rfl) hfull
  have hseq : ¬ g.seq.value = 1 := fun heq => hbefore (hcounts.seq.mp heq)
  have hparse : s.parseGSV tzer g.system.svType search = .error .prn := by
    rw [parseGSV, gsv_eq hcut]
    simp only [bind, Except.bind, hcounts.sv_num_eq, Int.toNat_natCast, if_neg hseq]
    rw [hcons, List.length_cons, List.range_succ_eq_map, List.foldlM_cons, hentry]
    rfl
  rw [complete, nmea_reader_parse, hheader]
  simp only [bind, Except.bind, update, hparse]

end NmeaParser

open NmeaParser GsvBuffer in
theorem crowded_out_of_bounds :
    ¬ ∃ s os, nmea.Runs {} (mtk_mnl_nmea_parser_process crowded) s os := by
  rintro ⟨s, os, hrun⟩
  have hg : crowdedParts.sentences[8]? = some (crowdedSentence 8) := rfl
  have hcrowded : crowded = GsvParts.texts (crowdedParts.sentences.take 8) ++
      (crowdedSentence 8).line ++ [ascii '\n'] := by decide +kernel
  -- eight sentences fill the arrays
  obtain ⟨s₁, os₁, hrun₁, hreached, h₁, htag₁, -⟩ := crowdedParts.exists_run (k := 8)
    (fun _ => none) 0 (receiving_begin {}) rfl (show Kept [] _ from ⟨rfl, rfl⟩) (by decide)
    (by decide) (by decide)
  rw [GsvParts.Reached, if_neg (by decide), if_neg (by decide)] at hreached
  -- the ninth one comes
  obtain ⟨s₂, hrun₂, h₂, hsame₂, htag₂⟩ := exists_run_feed (fun _ => none)
    (0 + (GsvParts.texts (crowdedParts.sentences.take 8)).length) h₁ htag₁
    (fun c (hc : c ∈ (crowdedSentence 8).line) => GsvSentence.ne_newline_of_mem_line hc)
    (by decide)
  obtain ⟨s₃, h₃, hsame₃, -, hstep⟩ := h₂.exists_addc (by decide) true (ascii '\n')
  have hfull : s₃.sv_count = AT_MAX_SVS :=
    (hreached.of_same (hsame₂.trans hsame₃)).sv_count.trans (by decide)
  have herror : nmea s₂ (.addc (ascii '\n') true none) = .error .prn := by
    rw [hstep, if_pos rfl]
    exact complete_of_full (g := crowdedSentence 8) h₃ (GsvParts.counts hg) (by decide) (by decide)
      (by decide) hfull
  rw [← process_none, hcrowded, process_snoc, feed_append, ← List.cons_append] at hrun
  have hfront := (Machine.Runs.single (M := nmea) (s := {}) (a := .begin) rfl).append
    (hrun₁.append hrun₂)
  obtain ⟨t, t', os₂, o, os₃, hfront', hlast, -⟩ := hrun.split_step
  obtain ⟨rfl, -⟩ := hfront.deterministic hfront'
  rw [herror] at hlast
  cases hlast

end MtkHardware.Mnld
