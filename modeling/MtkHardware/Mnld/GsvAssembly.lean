import MtkHardware.Mnld.GsvSentence
import MtkHardware.Util.Lists

/-!
# Gathering the Satellites of `GSV` Sentences

The sets of a buffer are gathered one behind another: what the complete sets have brought is counted
by `num_svs`, what the sentences of the present set have brought by `sv_count`, and both stand in
`sv_list` in the order in which they were listed.

A satellite is gathered when its number is in one of the four ranges of `constellation`. That is not
always when its number is valid for the system that lists it: satellite 32 of GPS is in no range,
and a number in the range of another system is taken for a satellite of that one.
-/

namespace MtkHardware.Mnld

/-! ### What is listed and what is received -/

/-- What is delivered of a satellite, apart from its flags. -/
structure Seen where
  svid : ℤ
  constellation : SvType
  elevation : ℤ
  azimuth : ℤ
  c_n0_dbhz : List UInt8
  deriving DecidableEq, Repr

def GnssSv.seen (sv : GnssSv) : Seen :=
  { svid := sv.svid, constellation := sv.constellation, elevation := sv.elevation,
    azimuth := sv.azimuth, c_n0_dbhz := sv.c_n0_dbhz }

namespace GnssSystem

/-- The number of a satellite within its system, where it is valid. -/
def number (n : ℤ) : GnssSystem → Option ℤ
  | GPS => if 1 ≤ n ∧ n ≤ 32 then some n else none
  | GLONASS => if 65 ≤ n ∧ n ≤ 96 then some (n - 64) else none
  | BDS => if 1 ≤ n ∧ n ≤ 37 then some n else none
  | GALILEO => if 1 ≤ n ∧ n ≤ 36 then some n else none

end GnssSystem

namespace Satellite

variable (sat : Satellite) (system : GnssSystem)

def seenAs (svid : ℤ) (constellation : SvType) : Seen :=
  { svid, constellation, elevation := sat.elevation.value, azimuth := sat.azimuth.value,
    c_n0_dbhz := sat.snr.text }

/-- What is to be delivered of a satellite: nothing when its number is not valid. -/
def listed : Option Seen := (system.number sat.id.value).map (sat.seenAs · system.svType)

def received : Option Seen :=
  (NmeaParser.constellation (NmeaParser.satelliteId system.svType sat.id.value)).map
    fun (svid, constellation) => sat.seenAs svid constellation

def Lost : Prop := system = .GPS ∧ sat.id.value = 32

/-- The number of the satellite is in the range of another system. -/
def Foreign : Prop := ∃ svid constellation,
  NmeaParser.constellation (NmeaParser.satelliteId system.svType sat.id.value) =
    some (svid, constellation) ∧ constellation ≠ system.svType

end Satellite

namespace NmeaParser

theorem range_of_constellation {id svid : ℤ} {sv_type : SvType}
    (h : constellation id = some (svid, sv_type)) :
    (sv_type = .GPS_SV → 0 < id ∧ id < 32) ∧ (sv_type = .GLONASS_SV → 65 ≤ id ∧ id ≤ 96) ∧
      (sv_type = .BDS_SV → 201 ≤ id ∧ id ≤ 237) ∧
      (sv_type = .GALILEO_SV → 401 ≤ id ∧ id ≤ 436) := by
  rw [constellation] at h
  split at h
  · cases h
    exact ⟨fun _ => by assumption, by simp, by simp, by simp⟩
  split at h
  · cases h
    exact ⟨by simp, fun _ => by assumption, by simp, by simp⟩
  split at h
  · cases h
    exact ⟨by simp, by simp, fun _ => by assumption, by simp⟩
  split at h
  · cases h
    exact ⟨by simp, by simp, by simp, fun _ => by assumption⟩
  · cases h

end NmeaParser

theorem Number.int_add (n : Number) {k : ℤ} (h₀ : 0 ≤ k) (hk : k ≤ 400) :
    int (n.value + k) = n.value + k ∨ 2 ^ 31 - 400 ≤ n.value ∧ int (n.value + k) < 0 := by
  obtain ⟨hlow, hhigh⟩ := n.abs_value
  by_cases h : n.value + k < 2 ^ 31
  · exact .inl (int_eq (by omega) h)
  · refine .inr ⟨by omega, ?_⟩
    rw [int, Int.bmod_def]
    omega

namespace Satellite

open NmeaParser

variable {sat : Satellite} {system : GnssSystem}

theorem constellation_of_number {svid : ℤ} (h : system.number sat.id.value = some svid)
    (hlost : ¬ sat.Lost system) :
    constellation (satelliteId system.svType sat.id.value) = some (svid, system.svType) := by
  cases system with
  | GPS =>
    rw [GnssSystem.number, Option.ite_none_right_eq_some] at h
    obtain ⟨⟨hlow, hhigh⟩, h⟩ := h
    cases h
    have hne : sat.id.value ≠ 32 := fun heq => hlost ⟨rfl, heq⟩
    rw [GnssSystem.svType, satelliteId, constellation, if_pos (by omega)]
    all_goals simp
  | GLONASS =>
    rw [GnssSystem.number, Option.ite_none_right_eq_some] at h
    obtain ⟨⟨hlow, hhigh⟩, h⟩ := h
    cases h
    rw [GnssSystem.svType, satelliteId, constellation, if_neg (by omega), if_pos (by omega)]
    all_goals simp
  | BDS =>
    rw [GnssSystem.number, Option.ite_none_right_eq_some] at h
    obtain ⟨⟨hlow, hhigh⟩, h⟩ := h
    cases h
    rw [GnssSystem.svType, satelliteId, int_eq (by omega) (by omega), constellation,
      if_neg (by omega), if_neg (by omega), if_pos (by omega), Int.add_sub_cancel]
  | GALILEO =>
    rw [GnssSystem.number, Option.ite_none_right_eq_some] at h
    obtain ⟨⟨hlow, hhigh⟩, h⟩ := h
    cases h
    rw [GnssSystem.svType, satelliteId, int_eq (by omega) (by omega), constellation,
      if_neg (by omega), if_neg (by omega), if_neg (by omega), if_pos (by omega),
      Int.add_sub_cancel]

theorem exists_number {svid : ℤ}
    (h : constellation (satelliteId system.svType sat.id.value) = some (svid, system.svType)) :
    (system.number sat.id.value).isSome := by
  have hrange := range_of_constellation h
  cases system with
  | GPS =>
    have hid := hrange.1 rfl
    rw [GnssSystem.svType, satelliteId] at hid
    · rw [GnssSystem.number, if_pos (by omega)]
      rfl
    all_goals simp
  | GLONASS =>
    have hid := hrange.2.1 rfl
    rw [GnssSystem.svType, satelliteId] at hid
    · rw [GnssSystem.number, if_pos hid]
      rfl
    all_goals simp
  | BDS =>
    have hid := hrange.2.2.1 rfl
    have hadd := sat.id.int_add (k := 200) (by omega) (by omega)
    rw [GnssSystem.svType, satelliteId] at hid
    rw [GnssSystem.number, if_pos (by omega)]
    rfl
  | GALILEO =>
    have hid := hrange.2.2.2 rfl
    have hadd := sat.id.int_add (k := 400) (by omega) (by omega)
    rw [GnssSystem.svType, satelliteId] at hid
    rw [GnssSystem.number, if_pos (by omega)]
    rfl

theorem received_of_not_lost (hlost : ¬ sat.Lost system) :
    sat.received system = sat.listed system ∨
      sat.listed system = none ∧ sat.Foreign system ∧ (sat.received system).isSome := by
  rw [listed]
  cases hnumber : system.number sat.id.value with
  | some svid =>
    rw [received, constellation_of_number hnumber hlost]
    exact .inl rfl
  | none =>
    rw [received]
    cases hid : constellation (satelliteId system.svType sat.id.value) with
    | none => exact .inl rfl
    | some r =>
      obtain ⟨svid, sv_type⟩ := r
      refine .inr ⟨rfl, ⟨svid, sv_type, hid, ?_⟩, rfl⟩
      rintro rfl
      have hsome := exists_number hid
      rw [hnumber] at hsome
      cases hsome

theorem Lost.received_eq (h : sat.Lost system) :
    sat.listed system = some (sat.seenAs 32 .GPS_SV) ∧ sat.received system = none := by
  obtain ⟨rfl, hid⟩ := h
  rw [listed, received, hid]
  exact ⟨rfl, rfl⟩

theorem Foreign.listed_eq (h : sat.Foreign system) :
    sat.listed system = none ∧ (sat.received system).isSome := by
  obtain ⟨svid, sv_type, hid, hne⟩ := h
  refine ⟨?_, by rw [received, hid]; rfl⟩
  rw [listed]
  cases hnumber : system.number sat.id.value with
  | none => rfl
  | some n =>
    by_cases hlost : sat.Lost system
    · have hnone := hlost.received_eq.2
      rw [received, hid] at hnone
      cases hnone
    · rw [constellation_of_number hnumber hlost] at hid
      cases hid
      exact absurd rfl hne

theorem received_ne (other : Satellite) : sat.received system ≠ some (other.seenAs 32 .GPS_SV) := by
  intro h
  obtain ⟨⟨svid, sv_type⟩, hid, hseen⟩ := Option.map_eq_some_iff.mp h
  obtain ⟨rfl, rfl⟩ : svid = 32 ∧ sv_type = .GPS_SV :=
    ⟨congrArg Seen.svid hseen, congrArg Seen.constellation hseen⟩
  have hrange := (range_of_constellation hid).1 rfl
  generalize satelliteId system.svType sat.id.value = id at hid hrange
  rw [constellation, if_pos hrange] at hid
  cases hid
  omega

/-- What is received of several satellites is what is listed exactly when none of them is lost and
none is of another system. -/
theorem filterMap_received_eq_iff (sats : List (GnssSystem × Satellite)) :
    (sats.filterMap fun p => p.2.received p.1) = (sats.filterMap fun p => p.2.listed p.1) ↔
      ∀ p ∈ sats, ¬ p.2.Lost p.1 ∧ ¬ p.2.Foreign p.1 := by
  constructor
  · intro h
    have hlost : ∀ p ∈ sats, ¬ p.2.Lost p.1 := by
      intro p hp hlost
      have hmem : p.2.seenAs 32 .GPS_SV ∈ sats.filterMap fun p => p.2.listed p.1 :=
        List.mem_filterMap.mpr ⟨p, hp, hlost.received_eq.1⟩
      rw [← h] at hmem
      obtain ⟨q, -, hq⟩ := List.mem_filterMap.mp hmem
      exact received_ne _ hq
    have heq := forall_eq_of_filterMap_eq
      (fun p hp => (received_of_not_lost (hlost p hp)).imp_right fun h => h.1) h
    refine fun p hp => ⟨hlost p hp, fun hforeign => ?_⟩
    obtain ⟨hnone, hsome⟩ := hforeign.listed_eq
    rw [heq p hp, hnone] at hsome
    cases hsome
  · intro h
    refine List.filterMap_congr fun p hp => ?_
    exact (received_of_not_lost (h p hp).1).resolve_right fun hforeign =>
      (h p hp).2 hforeign.2.1

end Satellite

/-! ### A sentence -/

namespace NmeaParser

variable {s s' : NmeaParser} {tzer : NmeaTokenizer} {g : GsvSentence} {done cur : List Seen}
  {sat : Satellite} {system : GnssSystem} {idx : ℕ} {search : Option ℤ}

/-- The satellites that have been sent for, as far as they are counted. -/
def seen (s : NmeaParser) (n : ℕ) : List Seen := (s.sv_list.toList.take n).map GnssSv.seen

/-- Between two sets: the complete ones have brought these satellites. -/
structure Kept (done : List Seen) (s : NmeaParser) : Prop where
  num_svs : s.num_svs = done.length
  seen : s.seen done.length = done

/-- Within a set, which has brought some satellites behind those of the complete ones. -/
structure Gathered (done cur : List Seen) (s : NmeaParser) : Prop where
  num_svs : s.num_svs = done.length
  sv_count : s.sv_count = cur.length
  seen : s.seen (done ++ cur).length = done ++ cur

/-- A sentence changes only what is known of the satellites. -/
structure Aside (s s' : NmeaParser) : Prop where
  sentence : s'.sentence = s.sentence
  pos : s'.pos = s.pos
  overflow : s'.overflow = s.overflow
  fix_mode : s'.fix_mode = s.fix_mode
  gps_nmea_end_tag : s'.gps_nmea_end_tag = s.gps_nmea_end_tag

theorem Aside.refl (s : NmeaParser) : s.Aside s := ⟨rfl, rfl, rfl, rfl, rfl⟩

theorem Aside.trans {s₁ s₂ s₃ : NmeaParser} (h₁ : s₁.Aside s₂) (h₂ : s₂.Aside s₃) : s₁.Aside s₃ :=
  ⟨h₂.sentence.trans h₁.sentence, h₂.pos.trans h₁.pos, h₂.overflow.trans h₁.overflow,
    h₂.fix_mode.trans h₁.fix_mode, h₂.gps_nmea_end_tag.trans h₁.gps_nmea_end_tag⟩

theorem Kept.open (h : Kept done s) : Gathered done [] { s with sv_count := 0 } where
  num_svs := h.num_svs
  sv_count := rfl
  seen := by
    rw [List.append_nil]
    exact h.seen

theorem yields_update_sv_status_of_shows {id : ℤ} {ele azi snr : Token}
    (hid : id = satelliteId system.svType sat.id.value)
    (hele : ele.Shows s.sentence sat.elevation.text) (hazi : azi.Shows s.sentence sat.azimuth.text)
    (hsnr : snr.Shows s.sentence sat.snr.text) (h : Gathered done cur s)
    (hroom : (done ++ cur).length < GNSS_MAX_SVS) :
    Yields (s.nmea_reader_update_sv_status id ele azi snr) fun s' =>
      Gathered done (cur ++ (sat.received system).toList) s' ∧ s.Aside s' := by
  have hroom' := hroom
  rw [GNSS_MAX_SVS] at hroom'
  have hindex : int (s.sv_count + s.num_svs) = ((done ++ cur).length : ℕ) := by
    rw [h.sv_count, h.num_svs, int_eq (by simp at *; omega) (by simp at *; omega)]
    simp only [List.length_append]
    omega
  rw [nmea_reader_update_sv_status, hindex, if_neg (by omega), Satellite.received, ← hid]
  cases hc : constellation id with
  | none =>
    refine yields_ok.mpr ⟨?_, .refl s⟩
    simpa using h
  | some r =>
    obtain ⟨svid, sv_type⟩ := r
    have hrange := constellation_lt (by rw [hc]; rfl)
    simp only [hsnr.str2float_eq sat.snr.short, hele.str2int_eq, hazi.str2int_eq, bind,
      Except.bind, readAt_eq hrange.1 hrange.2, writeAt_natCast hroom]
    refine yields_ok.mpr ⟨⟨h.num_svs, ?_, ?_⟩, ⟨rfl, rfl, rfl, rfl, rfl⟩⟩
    · simp [h.sv_count]
    · have hseen := h.seen
      simp only [seen, Option.map_some, Option.toList_some] at hseen ⊢
      rw [← List.append_assoc, List.length_append, List.length_singleton, take_set_succ hroom,
        List.map_append, hseen]
      rfl

theorem getD_fields {j : ℕ} (hsat : g.sats[idx]? = some sat) (hj : j < 4) :
    (g.address :: g.fields).getD (4 * (idx + 1) + j) [] = sat.fields.getD j [] := by
  have hflat : ∀ (sats : List Satellite) (idx : ℕ), sats[idx]? = some sat →
      (sats.flatMap Satellite.fields)[4 * idx + j]? = sat.fields[j]? := by
    intro sats
    induction sats with
    | nil => nofun
    | cons first sats ih =>
      intro idx hsat
      rw [List.flatMap_cons]
      cases idx with
      | zero =>
        rw [List.getElem?_cons_zero, Option.some.injEq] at hsat
        rw [hsat, Nat.mul_zero, Nat.zero_add, List.getElem?_append_left (by exact hj)]
      | succ idx =>
        rw [List.getElem?_cons_succ] at hsat
        rw [List.getElem?_append_right (by simp [Satellite.fields]; omega), ← ih idx hsat]
        congr 1
        simp [Satellite.fields]
        omega
  have hindex : 4 * (idx + 1) + j = 4 * idx + j + 3 + 1 := by omega
  rw [hindex, List.getD_cons_succ, GsvSentence.fields, List.getD_eq_getElem?_getD,
    List.getElem?_append_right (by simp), List.getD_eq_getElem?_getD]
  simp only [List.length_cons, List.length_nil, Nat.zero_add, Nat.add_sub_cancel]
  rw [hflat _ _ hsat]

theorem yields_gsvEntry_of_cut (system : GnssSystem)
    (hcut : tzer.Cut s.sentence (g.address :: g.fields))
    (hsat : g.sats[idx]? = some sat) (h : Gathered done cur s) (hcur : cur.length < AT_MAX_SVS)
    (hroom : (done ++ cur).length < GNSS_MAX_SVS) :
    Yields (gsvEntry tzer system.svType s idx) fun s' =>
      Gathered done (cur ++ (sat.received system).toList) s' ∧ s.Aside s' := by
  obtain ⟨tok_id, hid, hshows_id⟩ := hcut.get (4 * (idx + 1))
  obtain ⟨tok_ele, hele, hshows_ele⟩ := hcut.get (4 * (idx + 1) + 1)
  obtain ⟨tok_azi, hazi, hshows_azi⟩ := hcut.get (4 * (idx + 1) + 2)
  obtain ⟨tok_snr, hsnr, hshows_snr⟩ := hcut.get (4 * (idx + 1) + 3)
  rw [← Nat.add_zero (4 * (idx + 1)), getD_fields hsat (by omega)] at hshows_id
  rw [getD_fields hsat (by omega)] at hshows_ele hshows_azi hshows_snr
  have hcount : s.sv_count < AT_MAX_SVS := by rwa [h.sv_count]
  rw [gsvEntry, hid, hele, hazi, hsnr]
  simp only [bind, Except.bind, hshows_id.str2int_eq, hshows_snr.str2float_eq sat.snr.short,
    writeAt_natCast hcount]
  have hnext : ∀ prn snr, Yields ({ s with prn, snr }.nmea_reader_update_sv_status
      (satelliteId system.svType sat.id.value) tok_ele tok_azi tok_snr) fun s' =>
      Gathered done (cur ++ (sat.received system).toList) s' ∧ Aside { s with prn, snr } s' :=
    fun prn snr => yields_update_sv_status_of_shows rfl hshows_ele hshows_azi hshows_snr
      ⟨h.num_svs, h.sv_count, h.seen⟩ hroom
  exact (hnext _ _).mono fun s' hs' => ⟨hs'.1, hs'.2.sentence, hs'.2.pos, hs'.2.overflow,
    hs'.2.fix_mode, hs'.2.gps_nmea_end_tag⟩

def gathering (system : GnssSystem) (sats : List Satellite) : List Seen :=
  sats.filterMap (Satellite.received · system)

theorem length_gathering_le {sats : List Satellite} :
    (gathering system sats).length ≤ sats.length := List.length_filterMap_le _ _

theorem gathering_append {sats more : List Satellite} :
    gathering system (sats ++ more) = gathering system sats ++ gathering system more :=
  List.filterMap_append

theorem gathering_singleton : gathering system [sat] = (sat.received system).toList := by
  rw [gathering]
  cases hreceived : sat.received system <;> simp [hreceived]

theorem yields_gsvEntries_of_cut {n : ℕ} (hcut : tzer.Cut s.sentence (g.address :: g.fields))
    (hn : n ≤ g.sats.length) (h : Gathered done cur s) (hcur : cur.length + n ≤ AT_MAX_SVS)
    (hroom : (done ++ cur).length + n ≤ GNSS_MAX_SVS) :
    Yields ((List.range n).foldlM (gsvEntry tzer system.svType) s) fun s' =>
      Gathered done (cur ++ gathering system (g.sats.take n)) s' ∧ s.Aside s' := by
  induction n with
  | zero =>
    refine yields_pure.mpr ⟨?_, .refl s⟩
    rwa [List.take_zero, gathering, List.filterMap_nil, List.append_nil]
  | succ n ih =>
    rw [List.range_succ, List.foldlM_append]
    refine (ih (by omega) (by omega) (by omega)).bind fun s₁ h₁ => ?_
    obtain ⟨sat, hsat⟩ : ∃ sat, g.sats[n]? = some sat := ⟨_, List.getElem?_eq_getElem (by omega)⟩
    have hlength : (gathering system (g.sats.take n)).length ≤ n :=
      length_gathering_le.trans (List.length_take_le _ _)
    have hnext := yields_gsvEntry_of_cut system (h₁.2.sentence ▸ hcut) hsat h₁.1
      (by rw [List.length_append]; omega)
      (by rw [List.length_append] at hroom ⊢; rw [List.length_append]; omega)
    rw [List.foldlM_cons]
    refine hnext.bind fun s₂ h₂ => yields_pure.mpr ⟨?_, h₁.2.trans h₂.2⟩
    rw [List.take_add_one, hsat, Option.toList_some, gathering_append, gathering_singleton,
      ← List.append_assoc]
    exact h₂.1

/-- What the numbers of a sentence are to be for its satellites. -/
structure Counts (g : GsvSentence) (before : ℕ) : Prop where
  sats : g.sats.length ≤ 4
  seq : g.seq.value = 1 ↔ before = 0
  sv_num : min (g.cnt.value - (g.seq.value - 1) * 4) 4 = g.sats.length
  seq_range : 1 ≤ g.seq.value ∧ (g.seq.value - 1) * 4 ≤ g.cnt.value
  cnt : before + g.sats.length ≤ g.cnt.value

theorem Counts.sv_num_eq {before : ℕ} (h : Counts g before) :
    Gsv.sv_num { num := g.num.value, seq := g.seq.value, cnt := g.cnt.value } =
      g.sats.length := by
  have hcnt := g.cnt.abs_value
  have hseq := h.seq_range
  rw [← h.sv_num]
  simp only [Gsv.sv_num, NMEA_MAX_SV_INFO]
  rw [int_eq (x := g.seq.value - 1) (by omega) (by omega), int_eq (x := _ * 4) (by omega)
    (by omega), int_eq (by omega) (by omega)]

theorem gsv_eq (hcut : tzer.Cut s.sentence (g.address :: g.fields)) :
    s.gsv tzer = .ok { num := g.num.value, seq := g.seq.value, cnt := g.cnt.value } := by
  obtain ⟨tok_num, hnum, hshows_num⟩ := hcut.get 1
  obtain ⟨tok_seq, hseq, hshows_seq⟩ := hcut.get 2
  obtain ⟨tok_cnt, hcnt, hshows_cnt⟩ := hcut.get 3
  have hshows_num : tok_num.Shows s.sentence g.num.text := hshows_num
  have hshows_seq : tok_seq.Shows s.sentence g.seq.text := hshows_seq
  have hshows_cnt : tok_cnt.Shows s.sentence g.cnt.text := hshows_cnt
  rw [gsv, hnum, hseq, hcnt]
  simp only [bind, Except.bind, hshows_num.str2int_eq, hshows_seq.str2int_eq,
    hshows_cnt.str2int_eq]
  rfl

/-- What a sentence leaves behind: the last one completes its set. -/
def Parsed (done cur : List Seen) (g : GsvSentence) (s : NmeaParser) : Prop :=
  if g.seq.value = g.num.value then Kept (done ++ cur) s else Gathered done cur s

/-- **The sentence lemma.** -/
theorem yields_parseGSV_of_cut (search : Option ℤ) {before : List Satellite}
    (hcut : tzer.Cut s.sentence (g.address :: g.fields)) (hcounts : Counts g before.length)
    (hkept : before = [] → Kept done s)
    (hgathered : before ≠ [] → Gathered done (gathering g.system before) s)
    (hfew : before.length + g.sats.length ≤ AT_MAX_SVS)
    (hroom : done.length + before.length + g.sats.length ≤ GNSS_MAX_SVS) :
    Yields (s.parseGSV tzer g.system.svType search) fun s' =>
      Parsed done (gathering g.system (before ++ g.sats)) g s' ∧ s.Aside s' := by
  set s₁ : NmeaParser := if g.seq.value = 1 then { s with sv_count := 0 } else s with hs₁
  obtain ⟨hopened, haside⟩ : Gathered done (gathering g.system before) s₁ ∧ s.Aside s₁ := by
    by_cases hbefore : before = []
    · rw [hs₁, if_pos (hcounts.seq.mpr (by rw [hbefore]; rfl)), hbefore]
      exact ⟨(hkept hbefore).open, rfl, rfl, rfl, rfl, rfl⟩
    · have hseq : ¬ g.seq.value = 1 := fun h =>
        hbefore (List.length_eq_zero_iff.mp (hcounts.seq.mp h))
      rw [hs₁, if_neg hseq]
      exact ⟨hgathered hbefore, .refl s⟩
  have hlength : (gathering g.system before).length ≤ before.length := length_gathering_le
  have hcnt := hcounts.cnt
  rw [parseGSV, gsv_eq hcut]
  simp only [bind, Except.bind, hcounts.sv_num_eq, Int.toNat_natCast]
  refine (yields_gsvEntries_of_cut (haside.sentence ▸ hcut) le_rfl hopened
    (by omega) (by rw [List.length_append]; omega)).bind fun s₂ h₂ => ?_
  rw [List.take_length, ← gathering_append] at h₂
  have hcount : s₂.sv_count ≤ before.length + g.sats.length := by
    rw [h₂.1.sv_count, ← List.length_append]
    exact length_gathering_le
  have haside₂ := haside.trans h₂.2
  rw [gsvDone]
  by_cases hlast : g.seq.value = g.num.value
  · have hsvs : int (s₂.num_svs + s₂.sv_count) =
        ((done ++ gathering g.system (before ++ g.sats)).length : ℕ) := by
      have hnum := h₂.1.num_svs
      rw [GNSS_MAX_SVS] at hroom
      rw [List.length_append, ← h₂.1.sv_count, hnum, int_eq (by omega) (by omega)]
      omega
    have hparsed : Parsed done (gathering g.system (before ++ g.sats)) g
        { s₂ with num_svs := int (s₂.num_svs + s₂.sv_count) } := by
      rw [Parsed, if_pos hlast]
      exact ⟨hsvs, h₂.1.seen⟩
    rw [if_pos hlast, if_pos (by simp only; omega)]
    cases search with
    | none => exact yields_ok.mpr ⟨hparsed, haside₂.trans ⟨rfl, rfl, rfl, rfl, rfl⟩⟩
    | some prn_num =>
      refine (yields_searchFrom _ (by simp only; omega)).bind fun _ _ => ?_
      exact yields_pure.mpr ⟨hparsed, haside₂.trans ⟨rfl, rfl, rfl, rfl, rfl⟩⟩
  · rw [if_neg hlast]
    refine yields_ok.mpr ⟨?_, haside₂⟩
    rw [Parsed, if_neg hlast]
    exact h₂.1

structure Receiving (text : List UInt8) (s : NmeaParser) : Prop where
  pos : s.pos = text.length
  overflow : s.overflow = false
  fix_mode : s.fix_mode = 0
  zero : s.sentence.char NMEA_MAX_SIZE = .ok 0
  shows : s.sentence.Shows 0 text

/-- What a complete sentence of a set finds: the satellites of the sentences before it. -/
structure Expecting (done : List Seen) (before : List Satellite) (g : GsvSentence)
    (s : NmeaParser) : Prop where
  counts : Counts g before.length
  kept : before = [] → Kept done s
  gathered : before ≠ [] → Gathered done (gathering g.system before) s
  few : before.length + g.sats.length ≤ AT_MAX_SVS
  room : done.length + before.length + g.sats.length ≤ GNSS_MAX_SVS
  length : g.text.length ≤ NMEA_MAX_SIZE

def statuses (os : List NmeaOut) : List (List Seen) :=
  os.filterMap fun
    | .mnl2hal_gps_sv num_svs sv_list => some ((sv_list.toList.take num_svs.toNat).map GnssSv.seen)
    | _ => none

variable {before : List Satellite}

theorem exists_parsed (search : Option ℤ) (h : Receiving g.text s)
    (hexpect : Expecting done before g s) :
    ∃ s₁, s.nmea_reader_parse search = s₁.reportSatellites ∧
      Parsed done (gathering g.system (before ++ g.sats)) g s₁ ∧ s.Aside s₁ := by
  obtain ⟨tzer, hheader, hcut⟩ :=
    g.header_eq h.shows h.pos hexpect.length hexpect.counts.sats
  obtain ⟨s₁, hparse, hparsed, haside⟩ := yields_parseGSV_of_cut search hcut
    hexpect.counts hexpect.kept hexpect.gathered hexpect.few hexpect.room
  refine ⟨s₁, ?_, hparsed, haside⟩
  have hnofix : s₁.reportLocation = (s₁, []) := by
    rw [reportLocation, if_neg]
    simp [locFixed, haside.fix_mode, h.fix_mode]
  rw [nmea_reader_parse, hheader]
  simp only [bind, Except.bind, update, hparse, hnofix]
  cases s₁.reportSatellites <;> rfl

theorem yields_complete_of_text (h : Receiving g.text s) (hexpect : Expecting done before g s)
    (htag : s.gps_nmea_end_tag = false) :
    Yields (s.complete search) fun r =>
      Parsed done (gathering g.system (before ++ g.sats)) g r.1 ∧ Receiving [] r.1 ∧
        r.1.gps_nmea_end_tag = false ∧ statuses r.2 = [] := by
  obtain ⟨s₁, hparse, hparsed, haside⟩ := exists_parsed search h hexpect
  have hreport : s₁.reportSatellites = .ok (s₁, []) := by
    rw [reportSatellites, if_neg]
    simp [haside.gps_nmea_end_tag, htag]
  have hzero : s₁.sentence.char NMEA_MAX_SIZE = .ok 0 := haside.sentence ▸ h.zero
  rw [complete, hparse, hreport]
  refine (yields_string hzero (Nat.zero_add _) (Nat.succ_pos _)).bind fun _ _ => ?_
  refine yields_pure.mpr ⟨?_, ⟨rfl, haside.overflow.trans h.overflow,
    haside.fix_mode.trans h.fix_mode, hzero, trivial⟩, haside.gps_nmea_end_tag.trans htag, rfl⟩
  rw [Parsed] at hparsed ⊢
  split at hparsed
  · rw [if_pos (by assumption)]
    exact ⟨hparsed.num_svs, hparsed.seen⟩
  · rw [if_neg (by assumption)]
    exact ⟨hparsed.num_svs, hparsed.sv_count, hparsed.seen⟩

theorem yields_complete_last (h : Receiving g.text s) (hexpect : Expecting done before g s)
    (htag : s.gps_nmea_end_tag = true) (hlast : g.seq.value = g.num.value) :
    Yields (s.complete search) fun r =>
      statuses r.2 = [done ++ gathering g.system (before ++ g.sats)].filter (· ≠ []) := by
  obtain ⟨s₁, hparse, hparsed, haside⟩ := exists_parsed search h hexpect
  have hzero : s₁.sentence.char NMEA_MAX_SIZE = .ok 0 := haside.sentence ▸ h.zero
  rw [Parsed, if_pos hlast] at hparsed
  generalize done ++ gathering g.system (before ++ g.sats) = all at hparsed ⊢
  rw [complete, hparse, reportSatellites, haside.gps_nmea_end_tag, htag, hparsed.num_svs]
  cases all with
  | nil =>
    rw [if_neg (by simp)]
    refine (yields_string hzero (Nat.zero_add _) (Nat.succ_pos _)).bind fun _ _ => ?_
    exact yields_pure.mpr rfl
  | cons first all =>
    obtain ⟨text, htext, -⟩ := yields_string hzero (Nat.zero_add _) (Nat.succ_pos _)
    obtain ⟨sv, hsv, -⟩ : Yields (readAt NmeaFault.sv_list s₁.sv_list 0) fun _ => True :=
      yields_readAt le_rfl (by decide)
    have hseen := hparsed.seen
    rw [if_pos (by simp)]
    simp only [bind, Except.bind, hsv, pure, Except.pure, htext]
    refine yields_ok.mpr ?_
    simpa [statuses, seen] using hseen

end NmeaParser
end MtkHardware.Mnld
