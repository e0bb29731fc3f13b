import MtkHardware.Mnld.NmeaTokens
import MtkHardware.Util.Run

/-!
# The NMEA Parser

What the receiver puts out is handed to `mtk_mnl_nmea_parser_process`, a buffer at a time. A reader
made anew for each buffer gathers its characters; a complete sentence is cut into tokens and leaves
its traces in the reader, in the table of what is known of the satellites (`nmea_cash`) and in the
arrays `prn` and `snr` of the AT command test. Of a position only its flags are kept, and the time
and the date are read and forgotten.

A satellite set comes in several `GSV` sentences, each with up to four satellites: `sv_count` is how
many of them have been taken, `num_svs` how many the sets before have brought.

The AT command test may look for a satellite when a set is complete; for which one, if for any, is
an input of the step.
-/

namespace MtkHardware.Mnld

def GNSS_MAX_SVS : ℕ := 64

def GPS_MAX_SVS : ℕ := 32

/-- Satellites in a `GSV` sentence. -/
def NMEA_MAX_SV_INFO : ℤ := 4

/-- The length of `prn` and of `snr`. -/
def AT_MAX_SVS : ℕ := 32

/-- The length of `nmea_cash`. -/
def NMEA_CASH_SIZE : ℕ := 450

/-- `SV_TYPE` -/
inductive SvType
  | UNKNOWN_SV
  | GPS_SV
  | SBAS_SV
  | GLONASS_SV
  | QZSS_SV
  | BDS_SV
  | GALILEO_SV
  deriving DecidableEq, Repr

structure NmeaCash where
  prn : ℤ := 0
  has_ephemeris_data : Bool := false
  has_almanac_data : Bool := false
  used_in_fix : Bool := false
  deriving DecidableEq, Repr

/-- `gnss_sv`; its flags are what has been known of the satellite. -/
structure GnssSv where
  svid : ℤ := 0
  constellation : SvType := .UNKNOWN_SV
  c_n0_dbhz : List UInt8 := []
  elevation : ℤ := 0
  azimuth : ℤ := 0
  flags : NmeaCash := {}
  deriving DecidableEq, Repr

structure NmeaReader where
  pos : ℕ := 0
  overflow : Bool := false
  /-- `fix.flags` -/
  fix_flags : UInt16 := 0
  fix_mode : ℤ := 0
  sv_count : ℕ := 0
  /-- `sv_status.num_svs` -/
  num_svs : ℤ := 0
  /-- `sv_status.sv_list` -/
  sv_list : Vector GnssSv GNSS_MAX_SVS := .replicate _ {}
  /-- `in` -/
  sentence : Sentence := .replicate _ 0

structure NmeaParser extends NmeaReader where
  gps_nmea_end_tag : Bool := false
  nmea_cash : Vector NmeaCash NMEA_CASH_SIZE := .replicate _ {}
  prn : Vector ℤ AT_MAX_SVS := .replicate _ 0
  snr : Vector (List UInt8) AT_MAX_SVS := .replicate _ []

inductive NmeaOut
  | mnl2hal_location (flags : UInt16)
  | mnl2hal_gps_sv (num_svs : ℤ) (sv_list : Vector GnssSv GNSS_MAX_SVS)
  | mnl2hal_nmea (nmea : List UInt8) (length : ℕ)

/-- `tok.p + k > tok.end` -/
def Token.shorter (k : ℕ) : Token → Bool
  | .dummy => 0 < k
  | .slice p last => last < p + k

namespace NmeaParser

variable (s : NmeaParser) (tzer : NmeaTokenizer)

/-- `LOC_FIXED` -/
def locFixed : Bool := s.fix_mode = 2 ∨ s.fix_mode = 3

/-! ### The position -/

def nmea_reader_update_time (tok : Token) : Except NmeaFault Unit :=
  match tok with
  | .dummy => .ok ()
  | .slice p last =>
    if last < p + 6 then .ok ()
    else do
      let _hour ← s.sentence.str2int p (p + 2)
      let _minute ← s.sentence.str2int (p + 2) (p + 4)
      let _seconds ← s.sentence.str2float (p + 4) last
      return ()

def nmea_reader_update_date (date time : Token) : Except NmeaFault Unit :=
  match date with
  | .dummy => .ok ()
  | .slice p last =>
    if p + 6 = last then do
      let day ← s.sentence.str2int p (p + 2)
      let mon ← s.sentence.str2int (p + 2) (p + 4)
      let year ← s.sentence.str2int (p + 4) (p + 6)
      if day < 0 ∨ mon < 0 ∨ int (year + 2000) < 0 then return ()
      s.nmea_reader_update_time time
    else .ok ()

def nmea_reader_update_latlong (latitude longitude : Token) : Except NmeaFault NmeaParser :=
  if latitude.shorter 6 then .ok s
  else do
    let _lat ← latitude.str2float s.sentence
    if longitude.shorter 6 then return s
    let _lon ← longitude.str2float s.sentence
    return { s with fix_flags := s.fix_flags ||| 0x1 }

/-- A field of the position is known when its token is there. -/
def updateField (flag : UInt16) (tok : Token) : Except NmeaFault NmeaParser :=
  if tok.empty then .ok s
  else do
    let _value ← tok.str2float s.sentence
    return { s with fix_flags := s.fix_flags ||| flag }

def nmea_reader_update_altitude : Token → Except NmeaFault NmeaParser := s.updateField 0x2

def nmea_reader_update_speed : Token → Except NmeaFault NmeaParser := s.updateField 0x4

def nmea_reader_update_bearing : Token → Except NmeaFault NmeaParser := s.updateField 0x8

def nmea_reader_update_accuracy : Token → Except NmeaFault NmeaParser := s.updateField 0x10

/-- The place in the sentence that starts with the latitude in token `index`: the two hemispheres
are looked at, too. -/
def updatePlace (index : ℕ) : Except NmeaFault NmeaParser := do
  let tok_latitude ← tzer.nmea_tokenizer_get index
  let tok_latitudeHemi ← tzer.nmea_tokenizer_get (index + 1)
  let tok_longitude ← tzer.nmea_tokenizer_get (index + 2)
  let tok_longitudeHemi ← tzer.nmea_tokenizer_get (index + 3)
  let _latitudeHemi ← tok_latitudeHemi.head s.sentence
  let _longitudeHemi ← tok_longitudeHemi.head s.sentence
  s.nmea_reader_update_latlong tok_latitude tok_longitude

def parseGGA : Except NmeaFault NmeaParser := do
  let tok_time ← tzer.nmea_tokenizer_get 1
  let tok_altitude ← tzer.nmea_tokenizer_get 9
  s.nmea_reader_update_time tok_time
  let s ← s.updatePlace tzer 2
  s.nmea_reader_update_altitude tok_altitude

def parseRMC : Except NmeaFault NmeaParser := do
  let tok_time ← tzer.nmea_tokenizer_get 1
  let tok_fixStatus ← tzer.nmea_tokenizer_get 2
  let tok_speed ← tzer.nmea_tokenizer_get 7
  let tok_bearing ← tzer.nmea_tokenizer_get 8
  let tok_date ← tzer.nmea_tokenizer_get 9
  let fixStatus ← tok_fixStatus.head s.sentence
  if fixStatus = ascii 'A' then
    s.nmea_reader_update_date tok_date tok_time
    let s ← s.updatePlace tzer 3
    let s ← s.nmea_reader_update_bearing tok_bearing
    s.nmea_reader_update_speed tok_speed
  else return s

def parseACCURACY : Except NmeaFault NmeaParser :=
  if s.locFixed then do
    let tok_accuracy ← tzer.nmea_tokenizer_get 1
    s.nmea_reader_update_accuracy tok_accuracy
  else .ok s

/-! ### What is known of the satellites -/

/-- The satellites of BDS and of Galileo are numbered behind the others. -/
def satelliteId (sv_type : SvType) (id : ℤ) : ℤ :=
  match sv_type with
  | .BDS_SV => int (id + 200)
  | .GALILEO_SV => int (id + 400)
  | _ => id

/-- An entry of `nmea_cash` is changed. -/
def updateCash (index : ℤ) (mark : NmeaCash → NmeaCash) : Except NmeaFault NmeaParser := do
  let cash ← readAt .nmea_cash s.nmea_cash index
  let nmea_cash ← writeAt .nmea_cash s.nmea_cash index (mark cash)
  return { s with nmea_cash }

/-- The loop of a `GSA` sentence, which ends at the first empty token. -/
def gsaSatellites (sv_type : SvType) : List ℕ → NmeaParser → Except NmeaFault NmeaParser
  | [], s => .ok s
  | idx :: rest, s => do
      let tok_satellite ← tzer.nmea_tokenizer_get (idx + 3)
      if tok_satellite.empty then return s
      let id ← tok_satellite.str2int s.sentence
      let sate_id := satelliteId sv_type id
      if 0 ≤ sate_id ∧ sate_id < NMEA_CASH_SIZE then
        let s ← s.updateCash sate_id fun cash => { cash with prn := sate_id, used_in_fix := true }
        gsaSatellites sv_type rest s
      else gsaSatellites sv_type rest s

def parseGSA (sv_type : SvType) : Except NmeaFault NmeaParser := do
  let tok_fix ← tzer.nmea_tokenizer_get 2
  let fix_mode ← tok_fix.str2int s.sentence
  let s := { s with fix_mode }
  if s.locFixed then gsaSatellites tzer sv_type (List.range 12) s else return s

/-- The loop of the `EPH` and `ALM` sentences. -/
def markSatellite (mark : NmeaCash → NmeaCash) (s : NmeaParser) (idx : ℕ) :
    Except NmeaFault NmeaParser := do
  let tok_satellite ← tzer.nmea_tokenizer_get (idx + 2)
  let there ← tok_satellite.str2int s.sentence
  if 0 < there then s.updateCash (idx + 1) mark else return s

def markSatellites (mark : NmeaCash → NmeaCash) : Except NmeaFault NmeaParser := do
  let tok_num ← tzer.nmea_tokenizer_get 1
  let _num ← tok_num.str2int s.sentence
  (List.range GPS_MAX_SVS).foldlM (markSatellite tzer mark) s

def parseEPH : Except NmeaFault NmeaParser :=
  s.markSatellites tzer fun cash => { cash with has_ephemeris_data := true }

def parseALM : Except NmeaFault NmeaParser :=
  s.markSatellites tzer fun cash => { cash with has_almanac_data := true }

/-! ### The satellites in view -/

/-- The constellation of a satellite and its number there; other numbers are ignored. -/
def constellation (prn : ℤ) : Option (ℤ × SvType) :=
  if 0 < prn ∧ prn < 32 then some (prn, .GPS_SV)
  else if 65 ≤ prn ∧ prn ≤ 96 then some (prn - 64, .GLONASS_SV)
  else if 201 ≤ prn ∧ prn ≤ 237 then some (prn - 200, .BDS_SV)
  else if 401 ≤ prn ∧ prn ≤ 436 then some (prn - 400, .GALILEO_SV)
  else none

theorem constellation_lt {id : ℤ} (h : (constellation id).isSome) :
    0 ≤ id ∧ id < NMEA_CASH_SIZE := by
  simp only [constellation] at h
  simp only [NMEA_CASH_SIZE]
  split at h
  · omega
  split at h
  · omega
  split at h
  · omega
  split at h
  · omega
  · cases h

def nmea_reader_update_sv_status (id : ℤ) (elevation azimuth snr : Token) :
    Except NmeaFault NmeaParser :=
  let sv_index := int (s.sv_count + s.num_svs)
  if GNSS_MAX_SVS ≤ sv_index then .ok s
  else
    match constellation id with
    | none => .ok s
    | some (svid, constellation) => do
        let c_n0_dbhz ← snr.str2float s.sentence
        let elevation ← elevation.str2int s.sentence
        let azimuth ← azimuth.str2int s.sentence
        let flags ← readAt .nmea_cash s.nmea_cash id
        let sv_list ← writeAt .sv_list s.sv_list sv_index
          { svid, constellation, c_n0_dbhz, elevation, azimuth, flags }
        return { s with sv_list, sv_count := s.sv_count + 1 }

/-- A satellite of a `GSV` sentence. -/
def gsvEntry (sv_type : SvType) (s : NmeaParser) (idx : ℕ) : Except NmeaFault NmeaParser := do
  let base_idx := 4 * (idx + 1)
  let tok_id ← tzer.nmea_tokenizer_get base_idx
  let id ← tok_id.str2int s.sentence
  let tok_ele ← tzer.nmea_tokenizer_get (base_idx + 1)
  let tok_azi ← tzer.nmea_tokenizer_get (base_idx + 2)
  let tok_snr ← tzer.nmea_tokenizer_get (base_idx + 3)
  let prn ← writeAt .prn s.prn s.sv_count id
  let cn ← tok_snr.str2float s.sentence
  let snr ← writeAt .snr s.snr s.sv_count cn
  { s with prn, snr }.nmea_reader_update_sv_status (satelliteId sv_type id) tok_ele tok_azi tok_snr

/-- The loop of `gps_at_command_search_satellite`, which ends at the satellite it looks for. -/
def searchFrom (prn_num : ℤ) : ℕ → ℕ → Except NmeaFault Unit
  | 0, _ => .ok ()
  | left + 1, i => do
      let id ← readAt .prn s.prn i
      if id = prn_num then
        let _cn ← readAt .snr s.snr i
        return ()
      else searchFrom prn_num left (i + 1)

theorem yields_searchFrom {prn_num : ℤ} {left i : ℕ} (h : i + left ≤ AT_MAX_SVS) :
    Yields (s.searchFrom prn_num left i) fun _ => True := by
  induction left generalizing i with
  | zero => exact yields_ok.mpr trivial
  | succ left ih =>
    refine (yields_readAt (by omega) (by omega)).bind fun id _ => ?_
    split
    · exact (yields_readAt (by omega) (by omega)).bind fun _ _ => yields_pure.mpr trivial
    · exact ih (by omega)

def gps_at_command_search_satellite (prn_num : ℤ) : Except NmeaFault Unit :=
  s.searchFrom prn_num s.sv_count 0

/-- `num`, `seq` and `cnt` of a `GSV` sentence. -/
structure Gsv where
  num : ℤ
  seq : ℤ
  cnt : ℤ

def Gsv.sv_num (gsv : Gsv) : ℤ :=
  let sv_base := int (int (gsv.seq - 1) * NMEA_MAX_SV_INFO)
  min (int (gsv.cnt - sv_base)) NMEA_MAX_SV_INFO

def gsv : Except NmeaFault Gsv := do
  let tok_num ← tzer.nmea_tokenizer_get 1
  let tok_seq ← tzer.nmea_tokenizer_get 2
  let tok_cnt ← tzer.nmea_tokenizer_get 3
  let num ← tok_num.str2int s.sentence
  let seq ← tok_seq.str2int s.sentence
  let cnt ← tok_cnt.str2int s.sentence
  return { num, seq, cnt }

/-- Behind the last sentence of a set: it counts unless it has more satellites than announced. -/
def gsvDone (gsv : Gsv) (search : Option ℤ) : Except NmeaFault NmeaParser :=
  if gsv.seq = gsv.num then
    if s.sv_count ≤ gsv.cnt then
      let s := { s with num_svs := int (s.num_svs + s.sv_count) }
      match search with
      | none => .ok s
      | some prn_num => do
          s.gps_at_command_search_satellite prn_num
          return s
    else .ok { s with sv_count := 0, num_svs := 0 }
  else .ok s

def parseGSV (sv_type : SvType) (search : Option ℤ) : Except NmeaFault NmeaParser := do
  let gsv ← s.gsv tzer
  -- a new set
  let s := if gsv.seq = 1 then { s with sv_count := 0 } else s
  let s ← (List.range gsv.sv_num.toNat).foldlM (gsvEntry tzer sv_type) s
  s.gsvDone gsv search

/-! ### A sentence -/

inductive SentenceId
  | GGA
  | GSA
  | RMC
  | EPH
  | ALM
  | GSV
  | ACCURACY
  | unknown
  deriving DecidableEq, Repr

/-- The first of the texts that `memcmp` finds, each so many characters behind `p`. -/
def findText {α : Type} (p : ℕ) (otherwise : α) : List (ℕ × List Char × α) → Except NmeaFault α
  | [] => .ok otherwise
  | (k, text, a) :: rest => do
      if ← s.sentence.memcmp (p + k) text then return a
      findText p otherwise rest

def svType (p : ℕ) : Except NmeaFault SvType :=
  s.findText p .GPS_SV [
    (0, ['B', 'D'], .BDS_SV),
    (0, ['G', 'P'], .GPS_SV),
    (0, ['G', 'L'], .GLONASS_SV),
    (0, ['G', 'A'], .GALILEO_SV)]

def sentenceId (p : ℕ) : Except NmeaFault SentenceId :=
  s.findText p .unknown [
    (0, ['G', 'G', 'A'], .GGA),
    (0, ['G', 'S', 'A'], .GSA),
    (0, ['R', 'M', 'C'], .RMC),
    (3, ['E', 'P', 'H'], .EPH),
    (3, ['A', 'L', 'M'], .ALM),
    (0, ['G', 'S', 'V'], .GSV),
    (0, ['A', 'C', 'C', 'U', 'R', 'A', 'C', 'Y'], .ACCURACY)]

/-- The tokens of a sentence, its constellation and what it is about; a sentence that is too short
is discarded. -/
def header : Except NmeaFault (Option (NmeaTokenizer × SvType × SentenceId)) :=
  if s.pos < 9 then .ok none
  else do
    let tzer ← NmeaTokenizer.nmea_tokenizer_init s.sentence s.pos
    match ← tzer.nmea_tokenizer_get 0 with
    | .dummy => return none
    | .slice p last =>
      if last < p + 5 then return none
      let sv_type ← s.svType p
      let id ← s.sentenceId (p + 2)
      return some (tzer, sv_type, id)

def update (sv_type : SvType) (search : Option ℤ) : SentenceId → Except NmeaFault NmeaParser
  | .GGA => s.parseGGA tzer
  | .GSA => s.parseGSA tzer sv_type
  | .RMC => s.parseRMC tzer
  | .EPH => s.parseEPH tzer
  | .ALM => s.parseALM tzer
  | .GSV => s.parseGSV tzer sv_type search
  | .ACCURACY => s.parseACCURACY tzer
  | .unknown => .ok s

def reportLocation : NmeaParser × List NmeaOut :=
  if s.locFixed ∧ s.fix_flags ≠ 0 ∧ s.gps_nmea_end_tag then
    ({ s with fix_flags := 0 }, [.mnl2hal_location s.fix_flags])
  else (s, [])

/-- The satellites are sent at the end of a buffer. The loop over them has only one round, since
that sets `num_svs` to zero. -/
def reportSatellites : Except NmeaFault (NmeaParser × List NmeaOut) :=
  if 0 < s.num_svs ∧ s.gps_nmea_end_tag then do
    let _sv ← readAt .sv_list s.sv_list 0
    return ({ s with sv_count := 0, num_svs := 0, nmea_cash := .replicate _ {} },
      [.mnl2hal_gps_sv s.num_svs s.sv_list])
  else .ok (s, [])

def nmea_reader_parse (search : Option ℤ) : Except NmeaFault (NmeaParser × List NmeaOut) := do
  match ← s.header with
  | none => return (s, [])
  | some (tzer, sv_type, id) =>
    let s ← s.update tzer sv_type search id
    let (s, location) := s.reportLocation
    let (s, satellites) ← s.reportSatellites
    return (s, location ++ satellites)

/-- A complete sentence is parsed and sent, as far as it goes to the next zero. -/
def complete (search : Option ℤ) : Except NmeaFault (NmeaParser × List NmeaOut) := do
  let (s, out) ← s.nmea_reader_parse search
  let nmea ← s.sentence.string (NMEA_MAX_SIZE + 1) 0
  return ({ s with pos := 0 }, out ++ [.mnl2hal_nmea nmea s.pos])

def nmea_reader_addc (c : UInt8) (search : Option ℤ) :
    Except NmeaFault (NmeaParser × List NmeaOut) :=
  if s.overflow then .ok ({ s with overflow := c ≠ ascii '\n' }, [])
  else if NMEA_MAX_SIZE ≤ s.pos then .ok ({ s with overflow := true, pos := 0 }, [])
  else do
    let sentence ← writeAt .sentence s.sentence s.pos c
    let s := { s with sentence, pos := s.pos + 1 }
    if c = ascii '\n' then s.complete search else return (s, [])

/-- The end tag is set when the last character of a buffer comes. -/
def tagged (last : Bool) : NmeaParser :=
  { s with gps_nmea_end_tag := s.gps_nmea_end_tag || last }

end NmeaParser

/-! ### The machine -/

inductive NmeaOp
  /-- A buffer begins. -/
  | begin
  /-- The next character of the buffer; is it the last one, and which satellite does the AT command
  test look for? -/
  | addc (c : UInt8) (last : Bool) (search : Option ℤ)

/-- A step of `mtk_mnl_nmea_parser_process`. -/
def nmea : Machine NmeaParser NmeaOp NmeaOut NmeaFault
  | s, .begin => .ok ({ s with toNmeaReader := {}, gps_nmea_end_tag := false }, [])
  | s, .addc c last search => (s.tagged last).nmea_reader_addc c search

def mtk_mnl_nmea_parser_process (buffer : List UInt8) : List NmeaOp :=
  .begin :: buffer.zipIdx.map fun (c, nn) => .addc c (nn + 1 = buffer.length) none

end MtkHardware.Mnld
