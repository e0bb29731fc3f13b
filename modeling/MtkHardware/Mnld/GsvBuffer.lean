import MtkHardware.Mnld.GsvAssembly

/-!
# Buffers of `GSV` Sentences

A buffer of satellite sets is received a character at a time. Its sentences find what those before
them have left behind, and only the last one, whose newline ends the buffer, sends the satellites.
-/

namespace MtkHardware.Mnld

namespace NmeaParser

variable {s s' : NmeaParser} {g : GsvSentence} {done cur : List Seen} {search : Option ℤ}
  {before : List Satellite}

/-! ### The characters of a buffer -/

structure SameSky (s s' : NmeaParser) : Prop where
  num_svs : s'.num_svs = s.num_svs
  sv_count : s'.sv_count = s.sv_count
  sv_list : s'.sv_list = s.sv_list

theorem SameSky.trans {s₁ s₂ s₃ : NmeaParser} (h₁ : s₁.SameSky s₂) (h₂ : s₂.SameSky s₃) :
    s₁.SameSky s₃ :=
  ⟨h₂.num_svs.trans h₁.num_svs, h₂.sv_count.trans h₁.sv_count, h₂.sv_list.trans h₁.sv_list⟩

theorem Kept.of_same (h : Kept done s) (hsame : s.SameSky s') : Kept done s' where
  num_svs := hsame.num_svs.trans h.num_svs
  seen := by
    rw [NmeaParser.seen, hsame.sv_list]
    exact h.seen

theorem Gathered.of_same (h : Gathered done cur s) (hsame : s.SameSky s') :
    Gathered done cur s' where
  num_svs := hsame.num_svs.trans h.num_svs
  sv_count := hsame.sv_count.trans h.sv_count
  seen := by
    rw [NmeaParser.seen, hsame.sv_list]
    exact h.seen

theorem Expecting.of_same (h : Expecting done before g s) (hsame : s.SameSky s') :
    Expecting done before g s' :=
  { h with
    kept := fun hbefore => (h.kept hbefore).of_same hsame
    gathered := fun hbefore => (h.gathered hbefore).of_same hsame }

variable {text part : List UInt8} {c : UInt8} {last : Bool} {searches : ℕ → Option ℤ} {nn : ℕ}

theorem Receiving.exists_addc (h : Receiving text s) (hroom : text.length < NMEA_MAX_SIZE)
    (last : Bool) (c : UInt8) :
    ∃ s₁, Receiving (text ++ [c]) s₁ ∧ s.SameSky s₁ ∧
      s₁.gps_nmea_end_tag = (s.gps_nmea_end_tag || last) ∧
      ∀ search, nmea s (.addc c last search) =
        if c = ascii '\n' then s₁.complete search else .ok (s₁, []) := by
  have hpos : s.pos < NMEA_MAX_SIZE + 1 := by
    rw [h.pos]
    omega
  have hwrite : writeAt NmeaFault.sentence s.sentence s.pos c =
      .ok (s.sentence.set s.pos c hpos) := writeAt_natCast hpos
  have hother : ∀ p : ℕ, p ≠ s.pos →
      Sentence.char (s.sentence.set s.pos c hpos) p = s.sentence.char p := fun p hp =>
    readAt_of_writeAt hwrite (by omega)
  have hshows : ∀ (q : ℕ) (text : List UInt8), q + text.length ≤ s.pos →
      s.sentence.Shows q text → Sentence.Shows (s.sentence.set s.pos c hpos) q text := by
    intro q text
    induction text generalizing q with
    | nil => exact fun _ _ => trivial
    | cons d text ih =>
      intro hq hshows
      rw [List.length_cons] at hq
      exact ⟨(hother q (by omega)).trans hshows.1, ih (q + 1) (by omega) hshows.2⟩
  refine ⟨{ s.tagged last with sentence := s.sentence.set s.pos c hpos, pos := s.pos + 1 },
    ⟨?_, h.overflow, h.fix_mode, (hother _ (by rw [h.pos]; omega)).trans h.zero, ?_⟩,
    ⟨rfl, rfl, rfl⟩, rfl, fun search => ?_⟩
  · rw [List.length_append, List.length_singleton, ← h.pos]
  · refine Sentence.shows_append.mpr ⟨hshows 0 text (by rw [h.pos]; omega) h.shows, ?_, trivial⟩
    rw [Nat.zero_add, ← h.pos, Sentence.char, readAt_eq (by omega) (by omega)]
    simp
  · rw [nmea, nmea_reader_addc]
    simp only [tagged, h.overflow, Bool.false_eq_true, if_false]
    rw [if_neg (by rw [h.pos]; omega)]
    simp only [bind, Except.bind, hwrite]
    rfl

theorem receiving_begin (s : NmeaParser) :
    Receiving [] { s with toNmeaReader := {}, gps_nmea_end_tag := false } where
  pos := rfl
  overflow := rfl
  fix_mode := rfl
  zero := by
    rw [Sentence.char, readAt_eq (by decide) (by decide)]
    exact congrArg _ (Vector.getElem_replicate _)
  shows := trivial

/-- The steps for a part of a buffer behind which there is more. -/
def feed (searches : ℕ → Option ℤ) (nn : ℕ) (part : List UInt8) : List NmeaOp :=
  (part.zipIdx nn).map fun p => .addc p.1 false (searches p.2)

theorem feed_append {more : List UInt8} : feed searches nn (part ++ more) =
    feed searches nn part ++ feed searches (nn + part.length) more := by
  rw [feed, List.zipIdx_append, List.map_append]
  rfl

theorem exists_run_feed (searches : ℕ → Option ℤ) (nn : ℕ) (h : Receiving text s)
    (htag : s.gps_nmea_end_tag = false) (hpart : ∀ c ∈ part, c ≠ ascii '\n')
    (hroom : text.length + part.length ≤ NMEA_MAX_SIZE) :
    ∃ s', nmea.Runs s (feed searches nn part) s' [] ∧ Receiving (text ++ part) s' ∧
      s.SameSky s' ∧ s'.gps_nmea_end_tag = false := by
  induction part generalizing s text nn with
  | nil => exact ⟨s, .init, by rwa [List.append_nil], ⟨rfl, rfl, rfl⟩, htag⟩
  | cons c part ih =>
    obtain ⟨hc, hpart⟩ := List.forall_mem_cons.mp hpart
    rw [List.length_cons] at hroom
    obtain ⟨s₁, h₁, hsame₁, htag₁, hstep⟩ := h.exists_addc (by omega) false c
    have hstep := hstep (searches nn)
    rw [if_neg hc] at hstep
    obtain ⟨s₂, hrun, h₂, hsame₂, htag₂⟩ := ih (nn + 1) h₁ (by rw [htag₁, htag]; rfl) hpart
      (by rw [List.length_append, List.length_singleton]; omega)
    refine ⟨s₂, Machine.runs_cons_iff.mpr ⟨s₁, [], [], hstep, hrun, rfl⟩, ?_,
      hsame₁.trans hsame₂, htag₂⟩
    rwa [List.append_assoc, List.singleton_append] at h₂

theorem exists_run_sentence (h : Receiving [] s) (htag : s.gps_nmea_end_tag = false)
    (hexpect : Expecting done before g s) :
    ∃ s' os, nmea.Runs s (feed searches nn g.text) s' os ∧
      Parsed done (gathering g.system (before ++ g.sats)) g s' ∧ Receiving [] s' ∧
      s'.gps_nmea_end_tag = false ∧ statuses os = [] := by
  have hlength := hexpect.length
  rw [GsvSentence.text, List.length_append, List.length_singleton] at hlength
  obtain ⟨s₁, hrun, h₁, hsame₁, htag₁⟩ := exists_run_feed searches nn h htag
    (fun c (hc : c ∈ g.line) => GsvSentence.ne_newline_of_mem_line hc)
    (by rw [List.length_nil]; omega)
  obtain ⟨s₂, h₂, hsame₂, htag₂, hstep⟩ :=
    h₁.exists_addc (by rw [List.nil_append]; omega) false (ascii '\n')
  have hstep := hstep (searches (nn + g.line.length))
  rw [if_pos rfl] at hstep
  obtain ⟨⟨s₃, os⟩, hcomplete, hparsed, h₃, htag₃, hos⟩ := yields_complete_of_text h₂
    (hexpect.of_same (hsame₁.trans hsame₂)) (by rw [htag₂, htag₁]; rfl)
  refine ⟨s₃, os, ?_, hparsed, h₃, htag₃, hos⟩
  rw [GsvSentence.text, feed_append]
  exact hrun.snoc (hstep.trans hcomplete)

theorem exists_run_last (searches : ℕ → Option ℤ) (nn : ℕ) (search : Option ℤ)
    (h : Receiving [] s) (htag : s.gps_nmea_end_tag = false) (hexpect : Expecting done before g s)
    (hlast : g.seq.value = g.num.value) :
    ∃ s' os, nmea.Runs s (feed searches nn g.line ++ [.addc (ascii '\n') true search]) s' os ∧
      statuses os = [done ++ gathering g.system (before ++ g.sats)].filter (· ≠ []) := by
  have hlength := hexpect.length
  rw [GsvSentence.text, List.length_append, List.length_singleton] at hlength
  obtain ⟨s₁, hrun, h₁, hsame₁, htag₁⟩ := exists_run_feed searches nn h htag
    (fun c (hc : c ∈ g.line) => GsvSentence.ne_newline_of_mem_line hc)
    (by rw [List.length_nil]; omega)
  obtain ⟨s₂, h₂, hsame₂, htag₂, hstep⟩ :=
    h₁.exists_addc (by rw [List.nil_append]; omega) true (ascii '\n')
  have hstep := hstep search
  rw [if_pos rfl] at hstep
  obtain ⟨⟨s₃, os⟩, hcomplete, hos⟩ := yields_complete_last h₂
    (hexpect.of_same (hsame₁.trans hsame₂)) (by rw [htag₂, htag₁]; rfl) hlast
  exact ⟨s₃, os, hrun.snoc (hstep.trans hcomplete), hos⟩

end NmeaParser

/-! ### Sets -/

/-- The sentence is this part of a set of so many sentences. -/
structure GsvSentence.IsPart (system : GnssSystem) (sats : List Satellite) (count i : ℕ)
    (g : GsvSentence) : Prop where
  system : g.system = system
  num : g.num.value = count
  seq : g.seq.value = i + 1
  cnt : g.cnt.value = sats.length
  sats : g.sats = (sats.drop (4 * i)).take 4
  length : g.text.length ≤ NMEA_MAX_SIZE

structure GsvParts where
  system : GnssSystem
  sats : List Satellite
  sentences : List GsvSentence
  count : sentences.length = max 1 ((sats.length + 3) / 4)
  part : ∀ (i : ℕ) (g : GsvSentence), sentences[i]? = some g →
    g.IsPart system sats sentences.length i

structure GsvSet extends GsvParts where
  few : sats.length ≤ AT_MAX_SVS

theorem GsvSet.few_take (v : GsvSet) (n : ℕ) : (v.sats.take n).length ≤ AT_MAX_SVS :=
  (List.length_take_le' _ _).trans v.few

namespace GsvParts

open NmeaParser

variable {v : GsvParts} {s : NmeaParser} {done : List Seen} {g : GsvSentence} {i k : ℕ}
  {searches : ℕ → Option ℤ} {nn : ℕ}

def Reached (v : GsvParts) (done : List Seen) (k : ℕ) (s : NmeaParser) : Prop :=
  if k = 0 then Kept done s
  else if k = v.sentences.length then Kept (done ++ gathering v.system v.sats) s
  else Gathered done (gathering v.system (v.sats.take (4 * k))) s

theorem counts (hg : v.sentences[i]? = some g) : Counts g (v.sats.take (4 * i)).length := by
  have hpart := v.part i g hg
  have hi : i < v.sentences.length := (List.getElem?_eq_some_iff.mp hg).1
  have hcount := v.count
  rw [List.length_take]
  constructor
  · rw [hpart.sats, List.length_take]
    exact Nat.min_le_left _ _
  · rw [hpart.seq]
    omega
  · rw [hpart.seq, hpart.cnt, hpart.sats, List.length_take, List.length_drop]
    omega
  · rw [hpart.seq, hpart.cnt]
    omega
  · rw [hpart.cnt, hpart.sats, List.length_take, List.length_drop]
    omega

theorem take_append_sats (hg : v.sentences[i]? = some g) :
    v.sats.take (4 * i) ++ g.sats = v.sats.take (4 * (i + 1)) := by
  rw [(v.part i g hg).sats, ← List.take_add]
  rfl

theorem expecting (hg : v.sentences[i]? = some g) (h : v.Reached done i s)
    (hfew : (v.sats.take (4 * (i + 1))).length ≤ AT_MAX_SVS)
    (hroom : done.length + v.sats.length ≤ GNSS_MAX_SVS) :
    Expecting done (v.sats.take (4 * i)) g s := by
  have hpart := v.part i g hg
  have hi : i < v.sentences.length := (List.getElem?_eq_some_iff.mp hg).1
  have hcount := v.count
  rw [← take_append_sats hg, List.length_append] at hfew
  refine ⟨counts hg, fun hbefore => ?_, fun hbefore => ?_, hfew, ?_, hpart.length⟩
  · have hi₀ : i = 0 := by
      have hlength := congrArg List.length hbefore
      rw [List.length_take, List.length_nil] at hlength
      omega
    rwa [Reached, if_pos hi₀] at h
  · have hi₀ : i ≠ 0 := by
      rintro rfl
      exact hbefore rfl
    rwa [Reached, if_neg hi₀, if_neg (by omega), ← hpart.system] at h
  · rw [hpart.sats, List.length_take, List.length_take, List.length_drop]
    omega

theorem reached_succ (hg : v.sentences[i]? = some g)
    (h : Parsed done (gathering g.system (v.sats.take (4 * i) ++ g.sats)) g s) :
    v.Reached done (i + 1) s := by
  have hpart := v.part i g hg
  have hi : i < v.sentences.length := (List.getElem?_eq_some_iff.mp hg).1
  have hcount := v.count
  rw [take_append_sats hg, hpart.system, Parsed, hpart.seq, hpart.num] at h
  rw [Reached, if_neg (by omega)]
  by_cases hlast : i + 1 = v.sentences.length
  · rw [if_pos (by omega), List.take_of_length_le (by omega)] at h
    rwa [if_pos hlast]
  · rw [if_neg (by omega)] at h
    rwa [if_neg hlast]

def texts (sentences : List GsvSentence) : List UInt8 := sentences.flatMap GsvSentence.text

/-- **The run over a set**: its first sentences, behind which there is more. -/
theorem exists_run (searches : ℕ → Option ℤ) (nn : ℕ) (h : Receiving [] s)
    (htag : s.gps_nmea_end_tag = false) (hkept : Kept done s)
    (hfew : (v.sats.take (4 * k)).length ≤ AT_MAX_SVS)
    (hroom : done.length + v.sats.length ≤ GNSS_MAX_SVS) (hk : k ≤ v.sentences.length) :
    ∃ s' os, nmea.Runs s (feed searches nn (texts (v.sentences.take k))) s' os ∧
      v.Reached done k s' ∧ Receiving [] s' ∧ s'.gps_nmea_end_tag = false ∧ statuses os = [] := by
  induction k with
  | zero => exact ⟨s, [], .init, by rwa [Reached, if_pos rfl], h, htag, rfl⟩
  | succ k ih =>
    obtain ⟨s₁, os₁, hrun₁, hreached, h₁, htag₁, hos₁⟩ := ih
      (by rw [List.length_take] at hfew ⊢; omega) (by omega)
    obtain ⟨g, hg⟩ : ∃ g, v.sentences[k]? = some g := ⟨_, List.getElem?_eq_getElem (by omega)⟩
    obtain ⟨s₂, os₂, hrun₂, hparsed, h₂, htag₂, hos₂⟩ :=
      exists_run_sentence h₁ htag₁ (expecting hg hreached hfew hroom)
    refine ⟨s₂, os₁ ++ os₂, ?_, reached_succ hg hparsed, h₂, htag₂, ?_⟩
    · rw [List.take_add_one, hg, texts, List.flatMap_append, feed_append]
      refine hrun₁.append ?_
      simpa using hrun₂
    · rw [statuses, List.filterMap_append]
      exact List.append_eq_nil_iff.mpr ⟨hos₁, hos₂⟩

theorem sentences_ne_nil : v.sentences ≠ [] := by
  intro h
  have hcount := v.count
  rw [h, List.length_nil] at hcount
  omega

end GsvParts

/-! ### Buffers -/

/-- Complete sets of satellites, of which there are not too many. -/
structure GsvBuffer where
  sets : List GsvSet
  room : (sets.map fun v => v.sats.length).sum ≤ GNSS_MAX_SVS

namespace GsvBuffer

open NmeaParser

def texts (sets : List GsvSet) : List UInt8 := sets.flatMap fun v => GsvParts.texts v.sentences

def listing (sets : List GsvSet) : List (GnssSystem × Satellite) :=
  sets.flatMap fun v => v.sats.map (v.system, ·)

def received (sets : List GsvSet) : List Seen :=
  (listing sets).filterMap fun p => p.2.received p.1

variable {s : NmeaParser} {done : List Seen} {sets : List GsvSet} {v : GsvSet}
  {searches : ℕ → Option ℤ} {nn : ℕ} {search : Option ℤ}

theorem received_cons : received (v :: sets) = gathering v.system v.sats ++ received sets := by
  rw [received, listing, List.flatMap_cons, List.filterMap_append, List.filterMap_map]
  rfl

theorem received_snoc : received (sets ++ [v]) = received sets ++ gathering v.system v.sats := by
  rw [received, listing, List.flatMap_append, List.flatMap_singleton, List.filterMap_append,
    List.filterMap_map]
  rfl

theorem length_received_le :
    (received sets).length ≤ (sets.map fun v => v.sats.length).sum := by
  refine (List.length_filterMap_le _ _).trans (le_of_eq ?_)
  simp [listing, List.length_flatMap]

/-- **The run over several sets**, behind which there is more. -/
theorem exists_run_sets (searches : ℕ → Option ℤ) (nn : ℕ) (sets : List GsvSet)
    (h : Receiving [] s) (htag : s.gps_nmea_end_tag = false)
    (hkept : Kept done s)
    (hroom : done.length + (sets.map fun v => v.sats.length).sum ≤ GNSS_MAX_SVS) :
    ∃ s' os, nmea.Runs s (feed searches nn (texts sets)) s' os ∧
      Kept (done ++ received sets) s' ∧ Receiving [] s' ∧ s'.gps_nmea_end_tag = false ∧
      statuses os = [] := by
  induction sets generalizing s done nn with
  | nil => exact ⟨s, [], .init, by rwa [received, listing, List.flatMap_nil, List.filterMap_nil,
      List.append_nil], h, htag, rfl⟩
  | cons v sets ih =>
    rw [List.map_cons, List.sum_cons] at hroom
    obtain ⟨s₁, os₁, hrun₁, hreached, h₁, htag₁, hos₁⟩ :=
      v.exists_run (k := v.sentences.length) searches nn h htag hkept
        (v.few_take _) (by omega) le_rfl
    have hne := v.sentences_ne_nil
    rw [GsvParts.Reached, if_neg (by simpa using hne), if_pos rfl] at hreached
    have hlength : (gathering v.system v.sats).length ≤ v.sats.length := length_gathering_le
    obtain ⟨s₂, os₂, hrun₂, hkept₂, h₂, htag₂, hos₂⟩ := ih _ h₁ htag₁ hreached
      (by rw [List.length_append]; omega)
    refine ⟨s₂, os₁ ++ os₂, ?_, ?_, h₂, htag₂, ?_⟩
    · rw [List.take_length] at hrun₁
      rw [texts, List.flatMap_cons, feed_append]
      exact hrun₁.append hrun₂
    · rwa [received_cons, ← List.append_assoc]
    · rw [statuses, List.filterMap_append]
      exact List.append_eq_nil_iff.mpr ⟨hos₁, hos₂⟩

/-- The steps for a buffer, in which the AT command test may look for satellites. -/
def process (searches : ℕ → Option ℤ) (buffer : List UInt8) : List NmeaOp :=
  .begin :: buffer.zipIdx.map fun p => .addc p.1 (p.2 + 1 = buffer.length) (searches p.2)

theorem process_none (buffer : List UInt8) :
    process (fun _ => none) buffer = mtk_mnl_nmea_parser_process buffer := rfl

theorem process_snoc (searches : ℕ → Option ℤ) (part : List UInt8) (c : UInt8) :
    process searches (part ++ [c]) =
      .begin :: (feed searches 0 part ++ [.addc c true (searches part.length)]) := by
  have hpart : (part.zipIdx.map fun p =>
      NmeaOp.addc p.1 (p.2 + 1 = (part ++ [c]).length) (searches p.2)) = feed searches 0 part := by
    refine List.map_congr_left fun p hp => ?_
    have hnn := List.snd_lt_of_mem_zipIdx hp
    have hne : ¬ p.2 + 1 = part.length + 1 := by omega
    simp only [List.length_append, List.length_singleton, hne, decide_false]
  rw [process, List.zipIdx_append, List.map_append, hpart]
  simp

theorem exists_run_process (b : GsvBuffer) (searches : ℕ → Option ℤ) (s : NmeaParser) :
    ∃ s' os, nmea.Runs s (process searches (texts b.sets)) s' os ∧
      statuses os = [received b.sets].filter (· ≠ []) := by
  set s₀ : NmeaParser := { s with toNmeaReader := {}, gps_nmea_end_tag := false } with hs₀
  have hbegin : nmea s .begin = .ok (s₀, []) := rfl
  have h₀ : Receiving [] s₀ := receiving_begin s
  have hkept₀ : Kept [] s₀ := ⟨rfl, rfl⟩
  have hroom := b.room
  rcases b.sets.eq_nil_or_concat' with hnil | ⟨front, v, hsets⟩
  · rw [hnil]
    exact ⟨s₀, [], Machine.Runs.single hbegin, rfl⟩
  rw [hsets, List.map_append, List.sum_append, List.map_singleton, List.sum_singleton] at hroom
  have hfront : (received front).length ≤ (front.map fun v => v.sats.length).sum :=
    length_received_le
  obtain ⟨s₁, os₁, hrun₁, hkept₁, h₁, htag₁, hos₁⟩ := exists_run_sets searches 0 front h₀ rfl hkept₀
    (by rw [List.length_nil]; omega)
  rw [List.nil_append] at hkept₁
  -- the last sentence of the last set
  obtain ⟨before, g, hsentences⟩ := (v.sentences.eq_nil_or_concat').resolve_left v.sentences_ne_nil
  have hg : v.sentences[before.length]? = some g := by
    rw [hsentences]
    simp
  have hpart := v.part _ g hg
  obtain ⟨s₂, os₂, hrun₂, hreached, h₂, htag₂, hos₂⟩ := v.exists_run (k := before.length) searches
    (0 + (texts front).length) h₁ htag₁ hkept₁
    (v.few_take _) (by omega) (by rw [hsentences]; simp)
  have hlast : g.seq.value = g.num.value := by
    rw [hpart.seq, hpart.num, hsentences, List.length_append, List.length_singleton]
    omega
  have hall : v.sats.take (4 * before.length) ++ g.sats = v.sats := by
    have hcount := v.count
    rw [hsentences, List.length_append, List.length_singleton] at hcount
    rw [GsvParts.take_append_sats hg, List.take_of_length_le (by omega)]
  have hbefore : v.sentences.take before.length = before := by
    rw [hsentences, List.take_left]
  rw [hbefore] at hrun₂
  obtain ⟨s₃, os₃, hrun₃, hos₃⟩ := exists_run_last searches
    (0 + (texts front ++ GsvParts.texts before).length)
    (searches (texts front ++ GsvParts.texts before ++ g.line).length) h₂ htag₂
    (GsvParts.expecting hg hreached (v.few_take _) (by omega)) hlast
  have htext : texts b.sets =
      texts front ++ GsvParts.texts before ++ g.line ++ [ascii '\n'] := by
    simp only [hsets, texts, List.flatMap_append, List.flatMap_singleton, hsentences,
      GsvParts.texts,
      GsvSentence.text, List.append_assoc]
  refine ⟨s₃, [] ++ (os₁ ++ (os₂ ++ os₃)), ?_, ?_⟩
  · rw [htext, process_snoc, feed_append, feed_append, List.append_assoc, List.append_assoc]
    refine (Machine.Runs.single hbegin).append (hrun₁.append (hrun₂.append ?_))
    exact hrun₃
  · rw [hsets, received_snoc, ← hall, ← hpart.system]
    rw [statuses] at hos₁ hos₂ hos₃ ⊢
    rw [List.nil_append, List.filterMap_append, List.filterMap_append, hos₁, hos₂, hos₃]
    rfl

def listed (sets : List GsvSet) : List Seen :=
  (listing sets).filterMap fun p => p.2.listed p.1

/-- One status is sent, and it consists of the satellites that are listed with valid numbers. -/
def DeliversListed (b : GsvBuffer) (searches : ℕ → Option ℤ) (s : NmeaParser) : Prop :=
  ∃ s' os, nmea.Runs s (process searches (texts b.sets)) s' os ∧ statuses os = [listed b.sets]

/-- **The satellites that are delivered are those that are listed** exactly when none of them is
satellite 32 of GPS, none has a number of another system, and there is one. -/
theorem delivers_listed_iff (b : GsvBuffer) (searches : ℕ → Option ℤ) (s : NmeaParser) :
    b.DeliversListed searches s ↔
      (∀ p ∈ listing b.sets, ¬ p.2.Lost p.1 ∧ ¬ p.2.Foreign p.1) ∧
        ∃ p ∈ listing b.sets, (p.1.number p.2.id.value).isSome := by
  have hsome : listed b.sets ≠ [] ↔ ∃ p ∈ listing b.sets, (p.1.number p.2.id.value).isSome := by
    rw [listed, Ne, List.filterMap_eq_nil_iff]
    simp [Satellite.listed, Option.isSome_iff_ne_none]
  obtain ⟨s', os, hrun, hos⟩ := exists_run_process b searches s
  rw [← Satellite.filterMap_received_eq_iff, ← hsome]
  constructor
  · rintro ⟨s'', os', hrun', hos'⟩
    obtain ⟨-, rfl⟩ := hrun.deterministic hrun'
    rw [hos] at hos'
    by_cases hne : received b.sets ≠ []
    · rw [List.filter_cons_of_pos (by simpa using hne), List.filter_nil] at hos'
      obtain heq := List.head_eq_of_cons_eq hos'
      exact ⟨heq, heq ▸ hne⟩
    · rw [List.filter_cons_of_neg (by simpa using hne), List.filter_nil] at hos'
      cases hos'
  · rintro ⟨heq, hne⟩
    refine ⟨s', os, hrun, ?_⟩
    have heq : received b.sets = listed b.sets := heq
    rw [hos, heq, List.filter_cons_of_pos (by simpa using hne), List.filter_nil]

/-- Numerals are digits. -/
scoped instance neZeroDigit : NeZero 10 := ⟨by decide⟩

def twoDigits (a b : Fin 10) : Number where
  digits := [ascii '0' + a.toNat.toUInt8, ascii '0' + b.toNat.toUInt8]
  isDigit := by revert a b; decide
  small := by revert a b; decide

/-- A satellite with the elevation 45, the azimuth 90 and the signal-to-noise ratio 35. -/
def satellite (id : Number) : Satellite where
  id := id
  elevation := twoDigits 4 5
  azimuth := twoDigits 9 0
  snr := { text := [ascii '3', ascii '5'], isDecimal := by decide, short := by decide }

/-- `$GPGSV,01,01,02,31,45,90,35,32,45,90,35` -/
def boundarySentence : GsvSentence where
  system := .GPS
  num := twoDigits 0 1
  seq := twoDigits 0 1
  cnt := twoDigits 0 2
  sats := [satellite (twoDigits 3 1), satellite (twoDigits 3 2)]
  checksum := none
  carriage := true

def boundarySet : GsvSet where
  system := .GPS
  sats := [satellite (twoDigits 3 1), satellite (twoDigits 3 2)]
  sentences := [boundarySentence]
  few := by decide
  count := by decide
  part i g h := by
    cases i with
    | zero =>
      obtain rfl : boundarySentence = g := Option.some.inj h
      exact ⟨rfl, by decide, by decide, by decide, rfl, by decide⟩
    | succ i => cases h

/-- Satellite 32 of GPS is listed and not delivered. -/
theorem satellite_32_lost : ¬ ∀ (b : GsvBuffer) (searches : ℕ → Option ℤ) (s : NmeaParser),
    b.DeliversListed searches s := by
  intro h
  let b : GsvBuffer := { sets := [boundarySet], room := by decide }
  obtain ⟨_, os, hrun, hos⟩ := h b (fun _ => none) {}
  obtain ⟨_, os', hrun', hos'⟩ := exists_run_process b (fun _ => none) {}
  obtain ⟨-, rfl⟩ := hrun.deterministic hrun'
  have hne : [received [boundarySet]].filter (· ≠ []) ≠ [listed [boundarySet]] := by decide
  exact hne (hos'.symm.trans hos)

end GsvBuffer
end MtkHardware.Mnld
