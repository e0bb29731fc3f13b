import MtkHardware.Ril.FcpTlv
import MtkHardware.Util.Words

/-!
# Proprietary Information

The proprietary information of a file is an object that holds objects. Four searches over them, one
behind another, fill a structure. There are two pointers: `out_ptr`, to the objects, and `prop_ptr`,
to the value of the one that has been found. The minimum clock frequency is read through the wrong
one, so that it is the tag of the first object.
-/

namespace MtkHardware.Ril

open Tlv

/-! ### The code -/

def FCP_PROPRIETARY_T : UInt8 := 0xA5

def PROP_UICC_CHAR_T : UInt8 := 0x80

def PROP_APP_PWR_T : UInt8 := 0x81

def PROP_MIN_APP_CLK_T : UInt8 := 0x82

def PROP_AVAIL_MEM_T : UInt8 := 0x83

/-- `usim_proprietary_information_struct`, cleared. -/
structure PropInfo where
  do_flag : UInt8 := 0
  char_byte : UInt8 := 0
  supp_volt_class : UInt8 := 0
  app_pwr_consump : UInt8 := 0
  pwr_ref_freq : UInt8 := 0
  app_min_freq : UInt8 := 0
  available_mem_bytes : ℕ := 0
  deriving DecidableEq

def queryProp (rounds : ℕ) (out_ptr : List UInt8) (tag : UInt8) (legal : ℕ → Bool)
    (fill : ℕ → ℕ → PropInfo → Except FcpFault PropInfo) (query : PropInfo) :
    Except FcpFault PropInfo := do
  match ← prop_info_tlv_search_tag rounds out_ptr out_ptr.length tag with
  | (some prop_ptr, prop_len) =>
    if prop_len = 0 then return query
    else if legal prop_len then fill prop_ptr prop_len query
    else .error .assertion
  | (none, _) => return query

def fillChar (out_ptr : List UInt8) (prop_ptr _ : ℕ) (query : PropInfo) :
    Except FcpFault PropInfo := do
  return { query with
    do_flag := query.do_flag ||| 0x01
    char_byte := ← byteAt out_ptr prop_ptr }

def fillPower (out_ptr : List UInt8) (prop_ptr _ : ℕ) (query : PropInfo) :
    Except FcpFault PropInfo := do
  return { query with
    do_flag := query.do_flag ||| 0x02
    supp_volt_class := ← byteAt out_ptr prop_ptr
    app_pwr_consump := ← byteAt out_ptr (prop_ptr + 1)
    pwr_ref_freq := ← byteAt out_ptr (prop_ptr + 2) }

/-- Minimum application clock frequency: `out_ptr[0]`, not `prop_ptr[0]`. -/
def fillClock (out_ptr : List UInt8) (_ _ : ℕ) (query : PropInfo) : Except FcpFault PropInfo := do
  return { query with
    do_flag := query.do_flag ||| 0x04
    app_min_freq := ← byteAt out_ptr 0 }

/-- Amount of available memory. It has four bytes at most, so that nothing overflows. -/
def fillMemory (out_ptr : List UInt8) (prop_ptr prop_len : ℕ) (query : PropInfo) :
    Except FcpFault PropInfo := do
  let memory ← (List.range prop_len).foldlM (fun memory i => do
    return memory ||| (← byteAt out_ptr (prop_ptr + (prop_len - i - 1))).toNat <<< (i * 8))
    query.available_mem_bytes
  return { query with do_flag := query.do_flag ||| 0x08, available_mem_bytes := memory }

/-- **`fcp_proprietary_info_query`**, with so many rounds for each search: whether there is such
information, and the structure that is filled. -/
def fcp_proprietary_info_query (rounds : ℕ) (in_ptr : List UInt8) (len : ℕ) :
    Except FcpFault (Bool × PropInfo) := do
  match ← fcp_tlv_search_tag rounds in_ptr len FCP_PROPRIETARY_T with
  | (some out_ptr, value_len) =>
    if value_len = 0 then return (false, {})
    else
      let out_ptr := (in_ptr.drop out_ptr).take value_len
      let query ← queryProp rounds out_ptr PROP_UICC_CHAR_T (· == 1) (fillChar out_ptr) {}
      let query ← queryProp rounds out_ptr PROP_APP_PWR_T (· == 3) (fillPower out_ptr) query
      let query ← queryProp rounds out_ptr PROP_MIN_APP_CLK_T (· == 1) (fillClock out_ptr) query
      let query ← queryProp rounds out_ptr PROP_AVAIL_MEM_T (· ≤ 4) (fillMemory out_ptr) query
      return (true, query)
  | (none, _) => return (false, {})

/-! ### What is meant -/

def valueOf (tag : UInt8) (ts : List Tlv) : List UInt8 :=
  ((ts.find? fun t => t.tag = tag).map Tlv.value).getD []

def flagOf (tag : UInt8) (mask : UInt8) (ts : List Tlv) : UInt8 :=
  if ts.any fun t => t.tag = tag then mask else 0

def bigEndian (bytes : List UInt8) : ℕ := word bytes.reverse

def propWith (clock : UInt8) (ts : List Tlv) : PropInfo where
  do_flag := flagOf PROP_UICC_CHAR_T 0x01 ts ||| flagOf PROP_APP_PWR_T 0x02 ts |||
    flagOf PROP_MIN_APP_CLK_T 0x04 ts ||| flagOf PROP_AVAIL_MEM_T 0x08 ts
  char_byte := (valueOf PROP_UICC_CHAR_T ts).getD 0 0
  supp_volt_class := (valueOf PROP_APP_PWR_T ts).getD 0 0
  app_pwr_consump := (valueOf PROP_APP_PWR_T ts).getD 1 0
  pwr_ref_freq := (valueOf PROP_APP_PWR_T ts).getD 2 0
  app_min_freq := clock
  available_mem_bytes := bigEndian (valueOf PROP_AVAIL_MEM_T ts)

/-- **What objects say**: whether there are some, and their values. -/
def propOf (ts : List Tlv) : PropInfo := propWith ((valueOf PROP_MIN_APP_CLK_T ts).getD 0 0) ts

/-- An object of one of the four kinds, with a legal length. -/
def PropLegal (t : Tlv) : Prop :=
  (t.tag = PROP_UICC_CHAR_T ∧ t.value.length = 1) ∨ (t.tag = PROP_APP_PWR_T ∧ t.value.length = 3) ∨
    (t.tag = PROP_MIN_APP_CLK_T ∧ t.value.length = 1) ∨
    (t.tag = PROP_AVAIL_MEM_T ∧ 1 ≤ t.value.length ∧ t.value.length ≤ 4)

/-! ### Searches -/

variable {ts pre post : List Tlv} {t : Tlv} {tag mask : UInt8} {legal : ℕ → Bool}
  {fill : ℕ → ℕ → PropInfo → Except FcpFault PropInfo} {query q : PropInfo} {i : ℕ}

theorem byteAt_value (pre : List Tlv) (t : Tlv) (post : List Tlv) (hi : i < t.value.length) :
    byteAt (encode (pre ++ t :: post)) ((encode pre).length + 2 + i) =
      .ok (t.value.getD i 0) := by
  refine byteAt_of_some ?_
  have hvalue := value_of_encode pre t post
  have hbyte : (((encode (pre ++ t :: post)).drop ((encode pre).length + 2)).take
      t.value.length)[i]? = t.value[i]? := by rw [hvalue]
  rw [List.getElem?_take_of_lt hi, List.getElem?_drop] at hbyte
  rw [hbyte, List.getD_eq_getElem?_getD, List.getElem?_eq_getElem hi]
  rfl

theorem valueOf_eq (htag : t.tag = tag) (hpre : ∀ u ∈ pre, u.tag ≠ tag) :
    valueOf tag (pre ++ t :: post) = t.value := by
  have hfind : (pre ++ t :: post).find? (fun t => t.tag = tag) = some t :=
    List.find?_eq_some_iff_append.mpr
      ⟨by simpa using htag, pre, post, rfl, fun u hu => by simpa using hpre u hu⟩
  rw [valueOf, hfind]
  rfl

theorem valueOf_none (h : ∀ u ∈ ts, u.tag ≠ tag) : valueOf tag ts = [] := by
  have hfind : ts.find? (fun t => t.tag = tag) = none :=
    List.find?_eq_none.mpr fun u hu => by simpa using h u hu
  rw [valueOf, hfind]
  rfl

theorem flagOf_eq (htag : t.tag = tag) : flagOf tag mask (pre ++ t :: post) = mask :=
  if_pos (by simp [htag])

theorem flagOf_none (h : ∀ u ∈ ts, u.tag ≠ tag) : flagOf tag mask ts = 0 :=
  if_neg (by simpa using h)

/-- **A search** fills the structure where there is an object, and leaves it where there is none. -/
theorem queryProp_settled (hlen : (encode ts).length < 65536)
    (hsome : ∀ pre t post, ts = pre ++ t :: post → t.tag = tag → (∀ u ∈ pre, u.tag ≠ tag) →
      t.value.length ≠ 0 ∧ legal t.value.length = true ∧
        fill ((encode pre).length + 2) t.value.length query = .ok q)
    (hnone : (∀ u ∈ ts, u.tag ≠ tag) → q = query) :
    Settled (fun rounds => queryProp rounds (encode ts) tag legal fill query) q := by
  refine (prop_info_tlv_search_tag_objects hlen tag).bind ?_
  obtain ⟨pre, t, post, hts, hpre, htag, hplace, hfirst⟩ | ⟨hne, -, hfirst⟩ :=
    firstWith_cases tag ts
  · obtain ⟨hzero, hlegal, hfill⟩ := hsome pre t post hts htag hpre
    rw [hfirst, hplace]
    dsimp only
    rw [if_neg hzero, if_pos hlegal, hfill]
    exact Settled.const q
  · rw [hfirst, hnone hne]
    exact Settled.const query

theorem foldlM_memory (pre : List Tlv) (t : Tlv) (post : List Tlv) {n k : ℕ}
    (hlen : t.value.length = n) (hk : k ≤ n) :
    (List.range k).foldlM (fun memory i => do
      return memory ||| (← byteAt (encode (pre ++ t :: post))
        ((encode pre).length + 2 + (n - i - 1))).toNat <<< (i * 8)) 0 =
      (.ok (word (t.value.reverse.take k)) : Except FcpFault ℕ) := by
  induction k with
  | zero => rfl
  | succ k ih =>
    have hbyte := byteAt_value pre t post (i := n - k - 1) (by omega)
    have hnext : t.value.reverse[k]? = some (t.value.getD (n - k - 1) 0) := by
      have hindex : t.value.length - 1 - k = n - k - 1 := by omega
      rw [List.getElem?_reverse (by omega), hindex, List.getElem?_eq_getElem (by omega),
        List.getD_eq_getElem?_getD, List.getElem?_eq_getElem (by omega)]
      rfl
    have hlength : (t.value.reverse.take k).length = k := by
      rw [List.length_take, List.length_reverse]
      omega
    have hlt := word_lt (t.value.reverse.take k)
    have hpow : 256 ^ k = 2 ^ (k * 8) := by
      rw [Nat.mul_comm, Nat.pow_mul]
    rw [hlength, hpow] at hlt
    have hor : word (t.value.reverse.take k) ||| (t.value.getD (n - k - 1) 0).toNat <<< (k * 8) =
        word (t.value.reverse.take (k + 1)) := by
      rw [List.take_add_one, hnext, Option.toList_some, word_append, hlength, hpow, word_cons,
        word_nil, Nat.or_comm, ← Nat.shiftLeft_add_eq_or_of_lt hlt, Nat.shiftLeft_eq]
      ring
    rw [List.range_succ, List.foldlM_append, ih (by omega)]
    simp only [List.foldlM_cons, List.foldlM_nil, bind, Except.bind, hbyte]
    exact congrArg Except.ok hor

theorem fillMemory_eq (hmem : query.available_mem_bytes = 0) :
    fillMemory (encode (pre ++ t :: post)) ((encode pre).length + 2) t.value.length query =
      .ok { query with
        do_flag := query.do_flag ||| 0x08
        available_mem_bytes := bigEndian t.value } := by
  have hloop := foldlM_memory pre t post rfl (Nat.le_refl _)
  rw [List.take_of_length_le (by rw [List.length_reverse])] at hloop
  rw [fillMemory, hmem, hloop]
  rfl

/-! ### The query -/

theorem PropLegal.length_eq (h : PropLegal t) :
    (t.tag = PROP_UICC_CHAR_T → t.value.length = 1) ∧
    (t.tag = PROP_APP_PWR_T → t.value.length = 3) ∧
    (t.tag = PROP_MIN_APP_CLK_T → t.value.length = 1) ∧
    (t.tag = PROP_AVAIL_MEM_T → 1 ≤ t.value.length ∧ t.value.length ≤ 4) := by
  rcases h with ⟨ht, hlen⟩ | ⟨ht, hlen⟩ | ⟨ht, hlen⟩ | ⟨ht, hlen⟩
  · refine ⟨fun _ => hlen, ?_, ?_, ?_⟩ <;> exact fun h => absurd (ht.symm.trans h) (by decide)
  · refine ⟨?_, fun _ => hlen, ?_, ?_⟩ <;> exact fun h => absurd (ht.symm.trans h) (by decide)
  · refine ⟨?_, ?_, fun _ => hlen, ?_⟩ <;> exact fun h => absurd (ht.symm.trans h) (by decide)
  · refine ⟨?_, ?_, ?_, fun _ => hlen⟩ <;> exact fun h => absurd (ht.symm.trans h) (by decide)

section

variable (hlen : (encode ts).length < 65536) (hlegal : ∀ t ∈ ts, PropLegal t)
include hlen hlegal

theorem queryChar_settled (hzero : query.char_byte = 0) :
    Settled (fun rounds =>
      queryProp rounds (encode ts) PROP_UICC_CHAR_T (· == 1) (fillChar (encode ts)) query)
      { query with
        do_flag := query.do_flag ||| flagOf PROP_UICC_CHAR_T 0x01 ts
        char_byte := (valueOf PROP_UICC_CHAR_T ts).getD 0 0 } := by
  refine queryProp_settled hlen (fun pre t post hts htag hpre => ?_) fun hne => ?_
  · have hone := (hlegal t (hts ▸ List.mem_append_right pre List.mem_cons_self)).length_eq.1 htag
    have hbyte := byteAt_value pre t post (i := 0) (by omega)
    refine ⟨by omega, by rw [hone]; rfl, ?_⟩
    rw [fillChar, hts, flagOf_eq htag, valueOf_eq htag hpre]
    rw [Nat.add_zero] at hbyte
    rw [hbyte]
    rfl
  · rw [flagOf_none hne, valueOf_none hne, UInt8.or_zero]
    cases query
    cases hzero
    rfl

theorem queryPower_settled (hzero : query.supp_volt_class = 0 ∧ query.app_pwr_consump = 0 ∧
      query.pwr_ref_freq = 0) :
    Settled (fun rounds =>
      queryProp rounds (encode ts) PROP_APP_PWR_T (· == 3) (fillPower (encode ts)) query)
      { query with
        do_flag := query.do_flag ||| flagOf PROP_APP_PWR_T 0x02 ts
        supp_volt_class := (valueOf PROP_APP_PWR_T ts).getD 0 0
        app_pwr_consump := (valueOf PROP_APP_PWR_T ts).getD 1 0
        pwr_ref_freq := (valueOf PROP_APP_PWR_T ts).getD 2 0 } := by
  refine queryProp_settled hlen (fun pre t post hts htag hpre => ?_) fun hne => ?_
  · have hthree :=
      (hlegal t (hts ▸ List.mem_append_right pre List.mem_cons_self)).length_eq.2.1 htag
    have hbyte : ∀ i < 3, byteAt (encode ts) ((encode pre).length + 2 + i) =
        .ok (t.value.getD i 0) := by
      intro i hi
      rw [hts]
      exact byteAt_value pre t post (by omega)
    refine ⟨by omega, by rw [hthree]; rfl, ?_⟩
    have hbyte₀ := hbyte 0 (by decide)
    rw [Nat.add_zero] at hbyte₀
    rw [fillPower, hbyte₀, hbyte 1 (by decide), hbyte 2 (by decide), hts, flagOf_eq htag,
      valueOf_eq htag hpre]
    rfl
  · rw [flagOf_none hne, valueOf_none hne, UInt8.or_zero]
    obtain ⟨h₁, h₂, h₃⟩ := hzero
    cases query
    cases h₁
    cases h₂
    cases h₃
    rfl

theorem queryClock_settled (hzero : query.app_min_freq = 0) :
    Settled (fun rounds =>
      queryProp rounds (encode ts) PROP_MIN_APP_CLK_T (· == 1) (fillClock (encode ts)) query)
      { query with
        do_flag := query.do_flag ||| flagOf PROP_MIN_APP_CLK_T 0x04 ts
        app_min_freq := flagOf PROP_MIN_APP_CLK_T ((encode ts).getD 0 0) ts } := by
  refine queryProp_settled hlen (fun pre t post hts htag hpre => ?_) fun hne => ?_
  · have hone :=
      (hlegal t (hts ▸ List.mem_append_right pre List.mem_cons_self)).length_eq.2.2.1 htag
    have hpos : 0 < (encode ts).length := by
      rw [hts, encode_append, encode_cons, List.length_append, List.length_append, t.length_bytes]
      omega
    have hbyte : byteAt (encode ts) 0 = .ok ((encode ts).getD 0 0) := by
      rw [byteAt_of_some (List.getElem?_eq_getElem hpos), List.getD_eq_getElem?_getD,
        List.getElem?_eq_getElem hpos]
      rfl
    refine ⟨by omega, by rw [hone]; rfl, ?_⟩
    rw [fillClock, hbyte]
    have hflag : ∀ mask, flagOf PROP_MIN_APP_CLK_T mask ts = mask := fun mask => by
      rw [hts]
      exact flagOf_eq htag
    rw [hflag, hflag]
    rfl
  · rw [flagOf_none hne, flagOf_none hne, UInt8.or_zero]
    cases query
    cases hzero
    rfl

theorem queryMemory_settled (hzero : query.available_mem_bytes = 0) :
    Settled (fun rounds =>
      queryProp rounds (encode ts) PROP_AVAIL_MEM_T (· ≤ 4) (fillMemory (encode ts)) query)
      { query with
        do_flag := query.do_flag ||| flagOf PROP_AVAIL_MEM_T 0x08 ts
        available_mem_bytes := bigEndian (valueOf PROP_AVAIL_MEM_T ts) } := by
  refine queryProp_settled hlen (fun pre t post hts htag hpre => ?_) fun hne => ?_
  · obtain ⟨hone, hfour⟩ :=
      (hlegal t (hts ▸ List.mem_append_right pre List.mem_cons_self)).length_eq.2.2.2 htag
    refine ⟨by omega, decide_eq_true hfour, ?_⟩
    rw [hts, fillMemory_eq hzero, flagOf_eq htag, valueOf_eq htag hpre]
  · rw [flagOf_none hne, valueOf_none hne, UInt8.or_zero]
    cases query
    cases hzero
    rfl

theorem queries_settled :
    Settled (fun rounds => do
      let query ← queryProp rounds (encode ts) PROP_UICC_CHAR_T (· == 1) (fillChar (encode ts)) {}
      let query ← queryProp rounds (encode ts) PROP_APP_PWR_T (· == 3) (fillPower (encode ts)) query
      let query ←
        queryProp rounds (encode ts) PROP_MIN_APP_CLK_T (· == 1) (fillClock (encode ts)) query
      let query ←
        queryProp rounds (encode ts) PROP_AVAIL_MEM_T (· ≤ 4) (fillMemory (encode ts)) query
      return (true, query))
      (true, propWith (flagOf PROP_MIN_APP_CLK_T ((encode ts).getD 0 0) ts) ts) := by
  refine (queryChar_settled hlen hlegal rfl).bind ?_
  refine (queryPower_settled hlen hlegal ⟨rfl, rfl, rfl⟩).bind ?_
  refine (queryClock_settled hlen hlegal rfl).bind ?_
  refine (queryMemory_settled hlen hlegal rfl).bind ?_
  dsimp only
  rw [UInt8.zero_or]
  exact Settled.const _

end

/-- **What is said of the query** of parameters whose proprietary information is these objects: the
structure is filled with what they say. -/
def PropInfoAsSaid (in_ptr : List UInt8) (ts : List Tlv) : Prop :=
  ∃ rounds found, fcp_proprietary_info_query rounds in_ptr in_ptr.length = .ok (found, propOf ts)

theorem query_settled (pre : List Tlv) (o : Tlv) (post ts : List Tlv)
    (htag : o.tag = FCP_PROPRIETARY_T) (hpre : ∀ u ∈ pre, u.tag ≠ FCP_PROPRIETARY_T)
    (hlen : (encode (pre ++ o :: post)).length ≤ 255) (hvalue : o.value = encode ts)
    (hlegal : ∀ t ∈ ts, PropLegal t) :
    ∃ found, Settled (fun rounds => fcp_proprietary_info_query rounds (encode (pre ++ o :: post))
        (encode (pre ++ o :: post)).length)
      (found, propWith (flagOf PROP_MIN_APP_CLK_T ((encode ts).getD 0 0) ts) ts) := by
  have hfirst := firstWith_eq post htag hpre
  have hregion := value_of_encode pre o post
  have hshort := o.length_le
  rw [hvalue] at hfirst hregion hshort
  have hsearch := fcp_tlv_search_tag_objects hlen FCP_PROPRIETARY_T
  rw [hfirst] at hsearch
  by_cases hzero : (encode ts).length = 0
  · obtain rfl : ts = [] := by
      cases ts with
      | nil => rfl
      | cons t ts => cases hzero
    exact ⟨false, hsearch.bind (Settled.const _)⟩
  · refine ⟨true, hsearch.bind ?_⟩
    dsimp only
    simp only [if_neg hzero, hregion]
    exact queries_settled (by omega) hlegal

/-- **The query of the proprietary information** fills the structure with what the objects say
exactly where there is no minimum clock frequency among them, or it is the first byte of the
objects, the tag of the first one. The length of the parameters is a byte, as it is where the query
is called. -/
theorem proprietary_info_query_iff (pre : List Tlv) (o : Tlv) (post ts : List Tlv)
    (htag : o.tag = FCP_PROPRIETARY_T) (hpre : ∀ u ∈ pre, u.tag ≠ FCP_PROPRIETARY_T)
    (hlen : (encode (pre ++ o :: post)).length ≤ 255) (hvalue : o.value = encode ts)
    (hlegal : ∀ t ∈ ts, PropLegal t) :
    PropInfoAsSaid (encode (pre ++ o :: post)) ts ↔
      ((∀ t ∈ ts, t.tag ≠ PROP_MIN_APP_CLK_T) ∨
        (valueOf PROP_MIN_APP_CLK_T ts).getD 0 0 = (encode ts).getD 0 0) := by
  obtain ⟨found, hsettled⟩ := query_settled pre o post ts htag hpre hlen hvalue hlegal
  have hsaid : PropInfoAsSaid (encode (pre ++ o :: post)) ts ↔
      flagOf PROP_MIN_APP_CLK_T ((encode ts).getD 0 0) ts =
        (valueOf PROP_MIN_APP_CLK_T ts).getD 0 0 := by
    constructor
    · rintro ⟨rounds, found', h⟩
      obtain ⟨-, hprop⟩ := Prod.mk.inj (hsettled.unique h)
      exact (congrArg PropInfo.app_min_freq hprop).symm
    · intro h
      obtain ⟨n, hn⟩ := hsettled.enough
      rw [h] at hn
      exact ⟨n, found, hn n (Nat.le_refl n)⟩
  rw [hsaid]
  by_cases hnone : ∀ t ∈ ts, t.tag ≠ PROP_MIN_APP_CLK_T
  · exact iff_of_true (by rw [flagOf_none hnone, valueOf_none hnone]; rfl) (.inl hnone)
  · have hflag : flagOf PROP_MIN_APP_CLK_T ((encode ts).getD 0 0) ts = (encode ts).getD 0 0 :=
      if_pos (by simpa using hnone)
    rw [hflag, or_iff_right hnone]
    exact eq_comm

/-- The minimum clock frequency, as the first of the objects. -/
def clockFirst : Tlv := ⟨FCP_PROPRIETARY_T, [PROP_MIN_APP_CLK_T, 1, 0x0A], by decide⟩

/-- No objects are read as said; and a minimum clock frequency of 1 MHz is not. -/
theorem proprietary_info_query_iff_clock :
    PropInfoAsSaid (encode [⟨FCP_PROPRIETARY_T, [], by decide⟩]) [] ∧
    ¬ PropInfoAsSaid (encode [clockFirst]) [⟨PROP_MIN_APP_CLK_T, [0x0A], by decide⟩] := by
  constructor
  · have hnone : ∀ P : Tlv → Prop, ∀ t ∈ ([] : List Tlv), P t := fun _ _ h => nomatch h
    exact (proprietary_info_query_iff [] ⟨FCP_PROPRIETARY_T, [], by decide⟩ [] [] rfl (hnone _)
      (by decide) rfl (hnone _)).mpr (.inl (hnone _))
  · intro h
    have hclock := (proprietary_info_query_iff [] clockFirst [] _ rfl
      (fun _ h => nomatch h) (by decide) rfl fun t ht => by
        obtain rfl := List.mem_singleton.mp ht
        exact .inr (.inr (.inl ⟨rfl, rfl⟩))).mp h
    rcases hclock with hnone | heq
    · exact hnone _ List.mem_cons_self rfl
    · exact absurd heq (by decide)

/-- A minimum clock frequency of `0x0A` is filled in as `0x82`, the tag of its object. -/
theorem clock_is_tag : fcp_proprietary_info_query 4 (encode [clockFirst]) 5 =
      .ok (true, { do_flag := 0x04, app_min_freq := 0x82 }) ∧
    ¬ PropInfoAsSaid (encode [clockFirst]) [⟨PROP_MIN_APP_CLK_T, [0x0A], by decide⟩] := by
  refine ⟨rfl, ?_⟩
  rintro ⟨rounds, found, h⟩
  obtain ⟨found', hsettled⟩ := query_settled [] clockFirst []
    [⟨PROP_MIN_APP_CLK_T, [0x0A], by decide⟩] rfl (fun _ h => nomatch h) (by decide) rfl
    fun t ht => by
      obtain rfl := List.mem_singleton.mp ht
      exact .inr (.inr (.inl ⟨rfl, rfl⟩))
  obtain ⟨-, hprop⟩ := Prod.mk.inj (hsettled.unique h)
  exact absurd (congrArg PropInfo.app_min_freq hprop) (by decide)

end MtkHardware.Ril
