import MtkHardware.Ril.FcpTlv
import MtkHardware.Util.Run

/-!
# The PIN Status Template

The PIN status template has a `PS_DO`, whose bits tell which PINs are enabled, and references to
keys: the `i`-th reference belongs to the `i`-th bit. The walk over the template counts the
references. It asserts that there is a bit for each, but compares their number with the length of
the reference itself, not with that of the `PS_DO`; and it does not compare what it reads with the
end of the template.
-/

namespace MtkHardware.Ril

open Tlv

/-! ### The code -/

def FCP_PIN_DO_T : UInt8 := 0xC6

def PIN_PS_DO_T : UInt8 := 0x90

def PIN_USAGE_QUALIFIER_T : UInt8 := 0x95

def PIN_KEY_REF_T : UInt8 := 0x83

/-- The key references and their masks: `USIM_PIN1_APP1` is `0x01` and `APP1_PIN1_M` is `1`. -/
def pinMasks : List (UInt8 × BitVec 32) :=
  [(0x01, 0x00000001), (0x02, 0x00000004), (0x03, 0x00000010), (0x04, 0x00000040),
    (0x05, 0x00000100), (0x06, 0x00000400), (0x07, 0x00001000), (0x08, 0x00004000),
    (0x81, 0x00000002), (0x82, 0x00000008), (0x83, 0x00000020), (0x84, 0x00000080),
    (0x85, 0x00000200), (0x86, 0x00000800), (0x87, 0x00002000), (0x88, 0x00008000),
    (0x0A, 0x00010000), (0x0B, 0x00020000), (0x0C, 0x00040000), (0x0D, 0x00080000),
    (0x0E, 0x00100000), (0x8A, 0x00200000), (0x8B, 0x00400000), (0x8C, 0x00800000),
    (0x8D, 0x01000000), (0x8E, 0x02000000), (0x11, 0x80000000)]

def pinMask (ref : UInt8) : Option (BitVec 32) := pinMasks.lookup ref

/-- `usim_pin_status_temp_do_struct`. -/
structure PinStatus where
  pin_flag : BitVec 32
  enabled_pin_flag : BitVec 32
  deriving DecidableEq

/-- The variables of the walk. A pointer is the list of the bytes of the template from it on.
`pin_ps_do_len` is written but not read. -/
structure PinCursor where
  tag : List UInt8
  value_len : ℕ
  pin_ps_do_ptr : Option (List UInt8) := none
  count : ℕ := 0
  query : PinStatus

/-- `byte & (0x80 >> (count % 8))`. -/
def pinBit (byte : UInt8) (count : ℕ) : Bool := byte.toNat &&& (0x80 >>> (count % 8)) ≠ 0

def PinStatus.mark (query : PinStatus) (mask : BitVec 32) (enabled : Bool) : PinStatus where
  pin_flag := query.pin_flag ||| mask
  enabled_pin_flag :=
    if enabled then query.enabled_pin_flag ||| mask else query.enabled_pin_flag

/-- The inner `switch`: `tag[2]` is looked up, and the byte of its bit is read. -/
def markKey (c : PinCursor) : Except FcpFault PinStatus := do
  match pinMask (← byteAt c.tag 2) with
  | none => return c.query
  | some mask =>
    match c.pin_ps_do_ptr with
    | none => .error .outside
    | some ps => return c.query.mark mask (pinBit (← byteAt ps (c.count / 8)) c.count)

/-- The outer `switch`. -/
def pinObject (c : PinCursor) (length : ℕ) (t : UInt8) : Except FcpFault PinCursor :=
  if t = PIN_PS_DO_T then .ok { c with pin_ps_do_ptr := some (c.tag.drop 2) }
  else if t = PIN_USAGE_QUALIFIER_T then .ok c
  else if t = PIN_KEY_REF_T then
    if length ≤ c.count / 8 then .error .assertion
    else do return { c with query := ← markKey c, count := (c.count + 1) % 256 }
  else .error .assertion

def pinRound : Loop PinCursor PinStatus FcpFault := fun c =>
  if 0 < c.value_len then do
    let length := (← byteAt c.tag 1).toNat
    let c ← pinObject c length (← byteAt c.tag 0)
    return .inl { c with
      tag := c.tag.drop (length + 2)
      value_len := lenMinus c.value_len (length + 2) }
  else return .inr c.query

/-- The walk over a template. Each round reads two bytes, so that it does not need more rounds than
there are bytes. -/
def pinWalk (template : List UInt8) (query : PinStatus) : Except FcpFault PinStatus :=
  pinRound.run .endless (template.length + 1)
    { tag := template, value_len := template.length, query }

/-- **`fcp_pin_status_do_query`**, with so many rounds for the search: whether there is a template,
and the structure that is filled. -/
def fcp_pin_status_do_query (rounds : ℕ) (in_ptr : List UInt8) (len : ℕ) (query : PinStatus) :
    Except FcpFault (Bool × PinStatus) := do
  match ← fcp_tlv_search_tag rounds in_ptr len FCP_PIN_DO_T with
  | (some out_ptr, value_len) =>
    return (true, ← pinWalk ((in_ptr.drop out_ptr).take value_len) query)
  | (none, _) => return (false, { query with pin_flag := 0 })

/-! ### What is meant -/

/-- An object behind the `PS_DO`. -/
inductive PinObject
  | usageQualifier (value : UInt8)
  | keyRef (value : UInt8)

namespace PinObject

def bytes : PinObject → List UInt8
  | usageQualifier value => [PIN_USAGE_QUALIFIER_T, 1, value]
  | keyRef value => [PIN_KEY_REF_T, 1, value]

def ref? : PinObject → Option UInt8
  | usageQualifier _ => none
  | keyRef value => some value

end PinObject

/-- A **template**: there is a bit for each reference. -/
structure PinTemplate where
  psDo : List UInt8
  objects : List PinObject
  bits : (objects.filterMap PinObject.ref?).length ≤ 8 * psDo.length

def pinsOf (refs : List UInt8) : BitVec 32 :=
  refs.foldr (fun ref flag => (pinMask ref).getD 0 ||| flag) 0

/-- The masks of those, from the reference at an index on, whose bit is set. -/
def enabledOf (psDo : List UInt8) : ℕ → List UInt8 → BitVec 32
  | _, [] => 0
  | i, ref :: refs =>
    (if pinBit (psDo.getD (i / 8) 0) i then (pinMask ref).getD 0 else 0) |||
      enabledOf psDo (i + 1) refs

namespace PinTemplate

def refs (T : PinTemplate) : List UInt8 := T.objects.filterMap PinObject.ref?

def bytes (T : PinTemplate) : List UInt8 :=
  PIN_PS_DO_T :: UInt8.ofNat T.psDo.length :: (T.psDo ++ T.objects.flatMap PinObject.bytes)

def status (T : PinTemplate) : PinStatus where
  pin_flag := pinsOf T.refs
  enabled_pin_flag := enabledOf T.psDo 0 T.refs

end PinTemplate

/-- **What is said of the query** of parameters whose template is `value`: where it is well-formed,
the structure is filled with what it says; and nothing outside of it is read. -/
def PinStatusAsSaid (in_ptr value : List UInt8) (query : PinStatus) : Prop :=
  (∀ T : PinTemplate, T.bytes = value →
    ∃ rounds, fcp_pin_status_do_query rounds in_ptr in_ptr.length query = .ok (true, T.status)) ∧
  ∀ rounds, fcp_pin_status_do_query rounds in_ptr in_ptr.length query ≠ .error .outside

/-- There is a byte in the template, from the `PS_DO` on, for a reference that is known. -/
def KeyReadable (ps : Option (List UInt8)) (k : ℕ) (ref : UInt8) : Prop :=
  pinMask ref ≠ none → ∃ bytes, ps = some bytes ∧ k / 8 < bytes.length

/-- From a tag on, with a `PS_DO` and so many references in front: the objects are complete, up to
the end or to the first one at which an assertion fails, and there is a byte for each reference that
is known. -/
inductive PinReadable : Option (List UInt8) → ℕ → List UInt8 → Prop
  | nil {ps : Option (List UInt8)} {k : ℕ} : PinReadable ps k []
  | psDo {ps : Option (List UInt8)} {k : ℕ} {t n : UInt8} {rest : List UInt8} :
      t = PIN_PS_DO_T → n.toNat ≤ rest.length → PinReadable (some rest) k (rest.drop n.toNat) →
      PinReadable ps k (t :: n :: rest)
  | usageQualifier {ps : Option (List UInt8)} {k : ℕ} {t n : UInt8} {rest : List UInt8} :
      t = PIN_USAGE_QUALIFIER_T → n.toNat ≤ rest.length →
      PinReadable ps k (rest.drop n.toNat) → PinReadable ps k (t :: n :: rest)
  | keyRef {ps : Option (List UInt8)} {k : ℕ} {t n ref : UInt8} {rest : List UInt8} :
      t = PIN_KEY_REF_T → k / 8 < n.toNat → n.toNat ≤ rest.length + 1 →
      KeyReadable ps k ref →
      PinReadable ps ((k + 1) % 256) ((ref :: rest).drop n.toNat) →
      PinReadable ps k (t :: n :: ref :: rest)
  | shortRef {ps : Option (List UInt8)} {k : ℕ} {t n : UInt8} {rest : List UInt8} :
      t = PIN_KEY_REF_T → n.toNat ≤ k / 8 → PinReadable ps k (t :: n :: rest)
  | unknown {ps : Option (List UInt8)} {k : ℕ} {t n : UInt8} {rest : List UInt8} :
      t ≠ PIN_PS_DO_T → t ≠ PIN_USAGE_QUALIFIER_T → t ≠ PIN_KEY_REF_T →
      PinReadable ps k (t :: n :: rest)

/-! ### Rounds -/

variable {c c' : PinCursor} {t n : UInt8} {rest : List UInt8} {query : PinStatus}

def PinCursor.behind (c : PinCursor) (length : ℕ) : PinCursor :=
  { c with tag := c.tag.drop (length + 2), value_len := lenMinus c.value_len (length + 2) }

theorem pinRound_end (hzero : c.value_len = 0) : pinRound c = .ok (.inr c.query) := by
  rw [pinRound, if_neg (by omega)]
  rfl

theorem pinRound_short (hpos : 0 < c.value_len) (h : c.tag.length < 2) :
    pinRound c = .error .outside := by
  rw [pinRound, if_pos hpos, byteAt_of_none (by omega)]
  rfl

theorem pinRound_eq (hpos : 0 < c.value_len) (htag : c.tag = t :: n :: rest) :
    pinRound c = (pinObject c n.toNat t).map fun c => .inl (c.behind n.toNat) := by
  have hlength : byteAt c.tag 1 = .ok n := byteAt_of_some (by rw [htag]; rfl)
  have ht : byteAt c.tag 0 = .ok t := byteAt_of_some (by rw [htag]; rfl)
  rw [pinRound, if_pos hpos, hlength, ht]
  dsimp only [bind, Except.bind]
  cases pinObject c n.toNat t with
  | error e => rfl
  | ok c' => rfl

theorem pinObject_same {length : ℕ} (h : pinObject c length t = .ok c') :
    c'.tag = c.tag ∧ c'.value_len = c.value_len := by
  rw [pinObject] at h
  split_ifs at h
  · cases h
    exact ⟨rfl, rfl⟩
  · cases h
    exact ⟨rfl, rfl⟩
  · obtain ⟨q, -, hq⟩ := bind_ok_iff.mp h
    cases hq
    exact ⟨rfl, rfl⟩

theorem pinRound_decreases : pinRound.Decreases fun c => c.tag.length := by
  intro c c' hround
  rcases Nat.eq_zero_or_pos c.value_len with hzero | hpos
  · rw [pinRound_end hzero] at hround
    cases hround
  rcases htag : c.tag with _ | ⟨t, _ | ⟨n, rest⟩⟩
  · rw [pinRound_short hpos (by rw [htag, List.length_nil]; decide)] at hround
    cases hround
  · rw [pinRound_short hpos (by rw [htag, List.length_singleton]; decide)] at hround
    cases hround
  · rw [pinRound_eq hpos htag] at hround
    obtain ⟨c'', hobject, heq⟩ := map_eq_ok_iff.mp hround
    obtain rfl := Sum.inl.inj heq
    dsimp only [PinCursor.behind]
    rw [(pinObject_same hobject).1, htag, List.length_drop, List.length_cons, List.length_cons]
    omega

/-! ### Bounds -/

def ReadsOutside (c : PinCursor) : Prop := ∃ t, pinRound.Comes c t ∧ pinRound t = .error .outside

/-- Behind an object, the count of the bytes is right where the object is complete; otherwise the
next round reads outside. -/
theorem readsOutside_behind_iff (hlen : c.value_len = rest.length + 2)
    (htag : c.tag = t :: n :: rest) (hmax : rest.length + 2 < 65536)
    (hcomplete : n.toNat ≤ rest.length → (ReadsOutside (c.behind n.toNat) ↔
      ¬ PinReadable c.pin_ps_do_ptr c.count (rest.drop n.toNat))) :
    ReadsOutside (c.behind n.toNat) ↔
      ¬ (n.toNat ≤ rest.length ∧ PinReadable c.pin_ps_do_ptr c.count (rest.drop n.toNat)) := by
  by_cases hn : n.toNat ≤ rest.length
  · rw [hcomplete hn]
    exact not_congr ⟨fun h => ⟨hn, h⟩, fun h => h.2⟩
  · refine iff_of_true ⟨_, .start, pinRound_short ?_ ?_⟩ fun h => hn h.1
    · have hbyte := n.toNat_lt
      dsimp only [PinCursor.behind, lenMinus]
      omega
    · rw [PinCursor.behind, htag, List.length_drop, List.length_cons, List.length_cons]
      omega

theorem readsOutside_of_object (hpos : 0 < c.value_len) (htag : c.tag = t :: n :: rest)
    (hobject : pinObject c n.toNat t = .ok c') :
    ReadsOutside c ↔ ReadsOutside (c'.behind n.toNat) := by
  have hround : pinRound c = .ok (.inl (c'.behind n.toNat)) := by
    rw [pinRound_eq hpos htag, hobject]
    rfl
  rw [ReadsOutside, Loop.exists_error_iff, hround]
  constructor
  · rintro (hfail | ⟨s', hs, h⟩)
    · cases hfail
    · obtain rfl := Sum.inl.inj (Except.ok.inj hs)
      exact h
  · exact fun h => .inr ⟨_, rfl, h⟩

theorem readsOutside_of_error {e : FcpFault} (hpos : 0 < c.value_len)
    (htag : c.tag = t :: n :: rest) (hobject : pinObject c n.toNat t = .error e) :
    ReadsOutside c ↔ e = .outside := by
  have hround : pinRound c = .error e := by
    rw [pinRound_eq hpos htag, hobject]
    rfl
  rw [ReadsOutside, Loop.exists_error_iff, hround]
  constructor
  · rintro (hfail | ⟨s', hs, -⟩)
    · exact Except.error.inj hfail
    · cases hs
  · rintro rfl
    exact .inl rfl

theorem markKey_cases {ref : UInt8} (htag : c.tag = t :: n :: ref :: rest) :
    (KeyReadable c.pin_ps_do_ptr c.count ref ∧ ∃ q, markKey c = .ok q) ∨
    (¬ KeyReadable c.pin_ps_do_ptr c.count ref ∧ markKey c = .error .outside) := by
  have href : byteAt c.tag 2 = .ok ref := byteAt_of_some (by rw [htag]; rfl)
  rw [markKey, href, KeyReadable]
  dsimp only [bind, Except.bind]
  cases pinMask ref with
  | none => exact .inl ⟨fun h => absurd rfl h, _, rfl⟩
  | some mask =>
    cases hps : c.pin_ps_do_ptr with
    | none =>
      refine .inr ⟨fun h => ?_, rfl⟩
      obtain ⟨bytes, hbytes, -⟩ := h (Option.some_ne_none mask)
      cases hbytes
    | some ps =>
      by_cases hlt : c.count / 8 < ps.length
      · refine .inl ⟨fun _ => ⟨ps, rfl, hlt⟩, ?_⟩
        dsimp only
        rw [byteAt_of_some (List.getElem?_eq_getElem hlt)]
        exact ⟨_, rfl⟩
      · refine .inr ⟨fun h => ?_, ?_⟩
        · obtain ⟨bytes, hbytes, hlt'⟩ := h (Option.some_ne_none mask)
          cases hbytes
          exact hlt hlt'
        · dsimp only
          rw [byteAt_of_none (by omega)]

theorem markKey_none (htag : c.tag = [t, n]) : markKey c = .error .outside := by
  rw [markKey, htag]
  rfl

/-- **The bounds of the walk**: it reads outside of a template exactly where the template is not
readable. By induction on the bytes that are left. -/
theorem readsOutside_iff (hlen : c.value_len = c.tag.length) (hmax : c.tag.length < 65536) :
    ReadsOutside c ↔ ¬ PinReadable c.pin_ps_do_ptr c.count c.tag := by
  induction hk : c.tag.length using Nat.strong_induction_on generalizing c with
  | _ k ih =>
  rcases htag : c.tag with _ | ⟨t, _ | ⟨n, rest⟩⟩
  · refine iff_of_false ?_ fun h => h .nil
    rw [htag, List.length_nil] at hlen
    rw [ReadsOutside, Loop.exists_error_iff, pinRound_end hlen]
    rintro (hfail | ⟨s', hs, -⟩)
    · cases hfail
    · cases hs
  · rw [htag, List.length_singleton] at hlen
    refine iff_of_true ⟨c, .start, pinRound_short (by omega) ?_⟩ fun h => nomatch h
    rw [htag, List.length_singleton]
    decide
  rw [htag, List.length_cons, List.length_cons] at hk hlen hmax
  have hpos : 0 < c.value_len := by omega
  -- behind a complete object the walk goes on with fewer bytes
  have hbehind : ∀ c' : PinCursor, c'.tag = c.tag → c'.value_len = c.value_len →
      (ReadsOutside (c'.behind n.toNat) ↔
        ¬ (n.toNat ≤ rest.length ∧ PinReadable c'.pin_ps_do_ptr c'.count (rest.drop n.toNat))) := by
    intro c' hsame hsame'
    refine readsOutside_behind_iff (hsame'.trans hlen) (hsame.trans htag) hmax fun hn => ?_
    have hdrop : (c'.behind n.toNat).tag = rest.drop n.toNat := by
      rw [PinCursor.behind, hsame, htag]
      rfl
    have hleft : (rest.drop n.toNat).length = rest.length - n.toNat := List.length_drop
    have hrest := ih (rest.length - n.toNat) (by omega) (c := c'.behind n.toNat)
      (by
        rw [hdrop, hleft]
        dsimp only [PinCursor.behind, lenMinus]
        omega) (by rw [hdrop, hleft]; omega) (by rw [hdrop, hleft])
    rw [hdrop] at hrest
    exact hrest
  by_cases hpsDo : t = PIN_PS_DO_T
  · have hobject : pinObject c n.toNat t = .ok { c with pin_ps_do_ptr := some rest } := by
      rw [pinObject, if_pos hpsDo, htag]
      rfl
    rw [readsOutside_of_object hpos htag hobject,
      hbehind { c with pin_ps_do_ptr := some rest } rfl rfl, not_iff_not]
    refine ⟨fun h => .psDo hpsDo h.1 h.2, fun h => ?_⟩
    cases h with
    | psDo _ hn h => exact ⟨hn, h⟩
    | usageQualifier ht => exact absurd (hpsDo.symm.trans ht) (by decide)
    | keyRef ht => exact absurd (hpsDo.symm.trans ht) (by decide)
    | shortRef ht => exact absurd (hpsDo.symm.trans ht) (by decide)
    | unknown ht => exact absurd hpsDo ht
  by_cases husage : t = PIN_USAGE_QUALIFIER_T
  · have hobject : pinObject c n.toNat t = .ok c := by
      rw [pinObject, if_neg hpsDo, if_pos husage]
    rw [readsOutside_of_object hpos htag hobject, hbehind _ rfl rfl, not_iff_not]
    refine ⟨fun h => .usageQualifier husage h.1 h.2, fun h => ?_⟩
    cases h with
    | psDo ht => exact absurd ht hpsDo
    | usageQualifier _ hn h => exact ⟨hn, h⟩
    | keyRef ht => exact absurd (husage.symm.trans ht) (by decide)
    | shortRef ht => exact absurd (husage.symm.trans ht) (by decide)
    | unknown _ ht => exact absurd husage ht
  by_cases hkey : t = PIN_KEY_REF_T
  · by_cases hshort : n.toNat ≤ c.count / 8
    · have hobject : pinObject c n.toNat t = .error .assertion := by
        rw [pinObject, if_neg hpsDo, if_neg husage, if_pos hkey, if_pos hshort]
      rw [readsOutside_of_error hpos htag hobject]
      exact iff_of_false (by decide) fun h => h (.shortRef hkey hshort)
    have hobject : pinObject c n.toNat t =
        (markKey c).map fun query => { c with query, count := (c.count + 1) % 256 } := by
      rw [pinObject, if_neg hpsDo, if_neg husage, if_pos hkey, if_neg hshort]
      cases markKey c <;> rfl
    cases rest with
    | nil =>
      rw [markKey_none htag] at hobject
      rw [readsOutside_of_error hpos htag hobject]
      refine iff_of_true rfl fun h => ?_
      cases h with
      | psDo ht => exact hpsDo ht
      | usageQualifier ht => exact husage ht
      | shortRef _ hle => exact hshort hle
      | unknown _ _ ht => exact ht hkey
    | cons ref rest =>
      have hinv : PinReadable c.pin_ps_do_ptr c.count (t :: n :: ref :: rest) ↔
          KeyReadable c.pin_ps_do_ptr c.count ref ∧ n.toNat ≤ (ref :: rest).length ∧
            PinReadable c.pin_ps_do_ptr ((c.count + 1) % 256) ((ref :: rest).drop n.toNat) := by
        refine ⟨fun h => ?_, fun h => .keyRef hkey (by omega) h.2.1 h.1 h.2.2⟩
        cases h with
        | psDo ht => exact absurd ht hpsDo
        | usageQualifier ht => exact absurd ht husage
        | keyRef _ _ hn hread h => exact ⟨hread, hn, h⟩
        | shortRef _ hle => exact absurd hle hshort
        | unknown _ _ ht => exact absurd hkey ht
      rw [hinv]
      rcases markKey_cases htag with ⟨hread, q, hmark⟩ | ⟨hread, hmark⟩
      · rw [hmark] at hobject
        rw [readsOutside_of_object hpos htag hobject,
          hbehind { c with query := q, count := (c.count + 1) % 256 } rfl rfl, not_iff_not]
        exact ⟨fun h => ⟨hread, h⟩, fun h => h.2⟩
      · rw [hmark] at hobject
        rw [readsOutside_of_error hpos htag hobject]
        exact iff_of_true rfl fun h => hread h.1
  · have hobject : pinObject c n.toNat t = .error .assertion := by
      rw [pinObject, if_neg hpsDo, if_neg husage, if_neg hkey]
    rw [readsOutside_of_error hpos htag hobject]
    exact iff_of_false (by decide) fun h => h (.unknown hpsDo husage hkey)

/-! ### Templates -/

variable {objects : List PinObject} {ps psDo : List UInt8} {ref : UInt8} {o : PinObject}

theorem length_objects (objects : List PinObject) :
    (objects.flatMap PinObject.bytes).length = 3 * objects.length := by
  induction objects with
  | nil => rfl
  | cons o objects ih =>
    have hthree : o.bytes.length = 3 := by cases o <;> rfl
    rw [List.flatMap_cons, List.length_append, ih, hthree, List.length_cons]
    omega

theorem lenMinus_of_le {len k : ℕ} (hle : k ≤ len) (hmax : len < 65536) :
    lenMinus len k = len - k := by
  rw [lenMinus]
  omega

theorem or_no_mask (flag : BitVec 32) : flag ||| 0 = flag := BitVec.or_zero

theorem markKey_eq (htag : c.tag = t :: n :: ref :: rest) (hps : c.pin_ps_do_ptr = some ps)
    {b : UInt8} (hb : byteAt ps (c.count / 8) = .ok b) :
    markKey c = .ok
      { pin_flag := c.query.pin_flag ||| (pinMask ref).getD 0
        enabled_pin_flag := c.query.enabled_pin_flag |||
          if pinBit b c.count then (pinMask ref).getD 0 else 0 } := by
  have href : byteAt c.tag 2 = .ok ref := byteAt_of_some (by rw [htag]; rfl)
  rw [markKey, href, hps]
  dsimp only [bind, Except.bind]
  cases pinMask ref with
  | none =>
    dsimp only [Option.getD_none]
    rw [ite_self, or_no_mask, or_no_mask]
    rfl
  | some mask =>
    dsimp only [Option.getD_some]
    rw [hb]
    dsimp only [pure, Except.pure, PinStatus.mark]
    cases pinBit b c.count
    · rw [if_neg Bool.false_ne_true, if_neg Bool.false_ne_true, or_no_mask]
    · rw [if_pos rfl, if_pos rfl]

structure PinCursor.At (c : PinCursor) (psDo : List UInt8) (objects : List PinObject) : Prop where
  tag : c.tag = objects.flatMap PinObject.bytes
  value_len : c.value_len = c.tag.length
  length_lt : c.tag.length < 65536
  psDo : ∃ ps, c.pin_ps_do_ptr = some ps ∧
    (objects.filterMap PinObject.ref? ≠ [] → byteAt ps 0 = .ok (psDo.getD 0 0))

theorem PinCursor.At.behind (h : c.At psDo (o :: objects)) (c' : PinCursor) (htag : c'.tag = c.tag)
    (hlen : c'.value_len = c.value_len) (hps : c'.pin_ps_do_ptr = c.pin_ps_do_ptr) :
    (c'.behind 1).At psDo objects := by
  have hbytes : c.tag = o.bytes ++ objects.flatMap PinObject.bytes := h.tag
  have hthree : o.bytes.length = 3 := by cases o <;> rfl
  have hdrop : (c'.behind 1).tag = objects.flatMap PinObject.bytes := by
    rw [PinCursor.behind, htag, hbytes]
    exact List.drop_left' hthree
  have hlength := congrArg List.length hbytes
  rw [List.length_append, hthree] at hlength
  have hlt := h.length_lt
  refine ⟨hdrop, ?_, ?_, ?_⟩
  · rw [hdrop]
    dsimp only [PinCursor.behind]
    rw [hlen, h.value_len, lenMinus_of_le (by omega) hlt]
    omega
  · rw [hdrop]
    omega
  · obtain ⟨ps, hsome, hbyte⟩ := h.psDo
    refine ⟨ps, hps.trans hsome, fun hne => hbyte ?_⟩
    cases hr : o.ref? with
    | none => rwa [List.filterMap_cons_none hr]
    | some ref =>
      rw [List.filterMap_cons_some hr]
      exact List.cons_ne_nil _ _

theorem PinCursor.At.pos (h : c.At psDo (o :: objects)) : 0 < c.value_len := by
  rw [h.value_len, h.tag, List.flatMap_cons, List.length_append]
  cases o <;> exact Nat.lt_of_lt_of_le (by decide) (Nat.le_add_right 3 _)

/-- **A walk over eight references at most** marks them all. By induction on the objects. -/
theorem comes_end (h : c.At psDo objects)
    (hcount : c.count + (objects.filterMap PinObject.ref?).length ≤ 8) :
    ∃ c', pinRound.Comes c c' ∧ pinRound c' = .ok (.inr
      { pin_flag := c.query.pin_flag ||| pinsOf (objects.filterMap PinObject.ref?)
        enabled_pin_flag := c.query.enabled_pin_flag |||
          enabledOf psDo c.count (objects.filterMap PinObject.ref?) }) := by
  induction objects generalizing c with
  | nil =>
    refine ⟨c, .start, ?_⟩
    rw [pinRound_end (by rw [h.value_len, h.tag]; rfl)]
    dsimp only [List.filterMap_nil, pinsOf, List.foldr_nil, enabledOf]
    rw [or_no_mask, or_no_mask]
  | cons o objects ih =>
    have hpos := h.pos
    cases o with
    | usageQualifier value =>
      have htag : c.tag = PIN_USAGE_QUALIFIER_T :: 1 :: value ::
        objects.flatMap PinObject.bytes := h.tag
      have hround : pinRound c = .ok (.inl (c.behind 1)) := by
        rw [pinRound_eq hpos htag]
        rfl
      obtain ⟨c', hcomes, hend⟩ := ih (h.behind c rfl rfl rfl) hcount
      exact ⟨c', hcomes.head hround, hend⟩
    | keyRef ref =>
      have htag : c.tag = PIN_KEY_REF_T :: 1 :: ref ::
        objects.flatMap PinObject.bytes := h.tag
      have hrefs : (PinObject.keyRef ref :: objects).filterMap PinObject.ref? =
        ref :: objects.filterMap PinObject.ref? := rfl
      rw [hrefs] at hcount ⊢
      rw [List.length_cons] at hcount
      have hzero : c.count / 8 = 0 := by omega
      obtain ⟨ps, hps, hbyte⟩ := h.psDo
      have hmark := markKey_eq htag hps
        (by rw [hzero]; exact hbyte (by rw [hrefs]; exact List.cons_ne_nil _ _))
      have hmod : (c.count + 1) % 256 = c.count + 1 := Nat.mod_eq_of_lt (by omega)
      have hround : pinRound c = .ok (.inl (PinCursor.behind { c with
          query :=
            { pin_flag := c.query.pin_flag ||| (pinMask ref).getD 0
              enabled_pin_flag := c.query.enabled_pin_flag |||
                if pinBit (psDo.getD 0 0) c.count then (pinMask ref).getD 0 else 0 }
          count := c.count + 1 } 1)) := by
        have hlong : ¬ (1 : UInt8).toNat ≤ c.count / 8 := by
          rw [hzero]
          decide
        rw [pinRound_eq hpos htag, pinObject, if_neg (by decide), if_neg (by decide),
          if_pos rfl, if_neg hlong, hmark, hmod]
        rfl
      obtain ⟨c', hcomes, hend⟩ := ih (h.behind { c with
          query :=
            { pin_flag := c.query.pin_flag ||| (pinMask ref).getD 0
              enabled_pin_flag := c.query.enabled_pin_flag |||
                if pinBit (psDo.getD 0 0) c.count then (pinMask ref).getD 0 else 0 }
          count := c.count + 1 } rfl rfl rfl) (by
            change c.count + 1 + _ ≤ 8
            omega)
      refine ⟨c', hcomes.head hround, hend.trans ?_⟩
      dsimp only [PinCursor.behind, pinsOf, List.foldr_cons, enabledOf]
      rw [hzero, BitVec.or_assoc, BitVec.or_assoc]

/-- **A walk over more references** comes to the assertion. -/
theorem comes_assertion (h : c.At psDo objects) (hle : c.count ≤ 8)
    (hcount : 8 < c.count + (objects.filterMap PinObject.ref?).length) :
    ∃ c', pinRound.Comes c c' ∧ pinRound c' = .error .assertion := by
  induction objects generalizing c with
  | nil =>
    rw [List.filterMap_nil, List.length_nil] at hcount
    omega
  | cons o objects ih =>
    have hpos := h.pos
    cases o with
    | usageQualifier value =>
      have htag : c.tag = PIN_USAGE_QUALIFIER_T :: 1 :: value ::
        objects.flatMap PinObject.bytes := h.tag
      have hround : pinRound c = .ok (.inl (c.behind 1)) := by
        rw [pinRound_eq hpos htag]
        rfl
      obtain ⟨c', hcomes, hend⟩ := ih (h.behind c rfl rfl rfl) hle hcount
      exact ⟨c', hcomes.head hround, hend⟩
    | keyRef ref =>
      have htag : c.tag = PIN_KEY_REF_T :: 1 :: ref ::
        objects.flatMap PinObject.bytes := h.tag
      have hrefs : (PinObject.keyRef ref :: objects).filterMap PinObject.ref? =
        ref :: objects.filterMap PinObject.ref? := rfl
      rw [hrefs, List.length_cons] at hcount
      by_cases height : c.count = 8
      · refine ⟨c, .start, ?_⟩
        rw [pinRound_eq hpos htag, pinObject, if_neg (by decide), if_neg (by decide),
          if_pos rfl, if_pos (by rw [height]; decide)]
        rfl
      have hzero : c.count / 8 = 0 := by omega
      obtain ⟨ps, hps, hbyte⟩ := h.psDo
      have hmark := markKey_eq htag hps
        (by rw [hzero]; exact hbyte (by rw [hrefs]; exact List.cons_ne_nil _ _))
      have hlong : ¬ (1 : UInt8).toNat ≤ c.count / 8 := by
        rw [hzero]
        decide
      have hmod : (c.count + 1) % 256 = c.count + 1 := Nat.mod_eq_of_lt (by omega)
      have hround := pinRound_eq hpos htag
      rw [pinObject, if_neg (by decide), if_neg (by decide), if_pos rfl, if_neg hlong, hmark,
        hmod] at hround
      obtain ⟨c', hcomes, hend⟩ := ih (h.behind { c with
          query :=
            { pin_flag := c.query.pin_flag ||| (pinMask ref).getD 0
              enabled_pin_flag := c.query.enabled_pin_flag |||
                if pinBit (psDo.getD 0 0) c.count then (pinMask ref).getD 0 else 0 }
          count := c.count + 1 } rfl rfl rfl) (by
            change c.count + 1 ≤ 8
            omega) (by
            change 8 < c.count + 1 + _
            omega)
      exact ⟨c', hcomes.head hround, hend⟩

theorem PinTemplate.exists_at (T : PinTemplate) (hlen : T.bytes.length ≤ 255)
    (query : PinStatus) :
    ∃ c : PinCursor,
      pinRound { tag := T.bytes, value_len := T.bytes.length, query } = .ok (.inl c) ∧
      c.At T.psDo T.objects ∧ c.count = 0 ∧ c.query = query := by
  have hbytes : T.bytes = PIN_PS_DO_T :: UInt8.ofNat T.psDo.length ::
    (T.psDo ++ T.objects.flatMap PinObject.bytes) := rfl
  have hlength := congrArg List.length hbytes
  rw [List.length_cons, List.length_cons, List.length_append] at hlength
  have hn : (UInt8.ofNat T.psDo.length).toNat = T.psDo.length := by
    rw [UInt8.toNat_ofNat', Nat.mod_eq_of_lt (by omega)]
  have hround := pinRound_eq (c := { tag := T.bytes, value_len := T.bytes.length, query })
    (by dsimp only; omega) hbytes
  rw [pinObject, if_pos rfl, hn] at hround
  refine ⟨_, hround, ⟨?_, ?_, ?_, ?_⟩, rfl, rfl⟩
  · have hfront : T.bytes = (PIN_PS_DO_T :: UInt8.ofNat T.psDo.length :: T.psDo) ++
        T.objects.flatMap PinObject.bytes := rfl
    dsimp only [PinCursor.behind]
    rw [hfront]
    exact List.drop_left' rfl
  · dsimp only [PinCursor.behind]
    rw [lenMinus_of_le (by omega) (by omega), List.length_drop]
  · dsimp only [PinCursor.behind]
    rw [List.length_drop]
    omega
  · refine ⟨_, rfl, fun hne => ?_⟩
    have hbits := T.bits
    have hpos := List.length_pos_iff.mpr hne
    obtain ⟨b, bits, hps⟩ := List.exists_cons_of_length_pos (l := T.psDo) (by omega)
    rw [hbytes, hps]
    rfl

/-- **The walk over a template** marks its references where they are eight at most; otherwise an
assertion fails. -/
theorem PinTemplate.pinWalk_eq (T : PinTemplate) (hlen : T.bytes.length ≤ 255)
    (query : PinStatus) :
    pinWalk T.bytes query = if T.refs.length ≤ 8 then
      .ok { pin_flag := query.pin_flag ||| T.status.pin_flag
            enabled_pin_flag := query.enabled_pin_flag ||| T.status.enabled_pin_flag }
    else .error .assertion := by
  obtain ⟨c, hround, hat, hcount, hquery⟩ := T.exists_at hlen query
  rw [pinWalk]
  split
  · rename_i hle
    obtain ⟨c', hcomes, hend⟩ := comes_end hat (by rw [hcount, Nat.zero_add]; exact hle)
    rw [hquery, hcount] at hend
    exact Loop.run_ok_of_comes pinRound_decreases (hcomes.head hround) hend (Nat.lt_succ_self _)
  · rename_i hgt
    obtain ⟨c', hcomes, hfail⟩ := comes_assertion hat (by omega)
      (by rw [hcount, Nat.zero_add]; exact Nat.lt_of_not_le hgt)
    exact Loop.run_error_of_comes pinRound_decreases (hcomes.head hround) hfail
      (Nat.lt_succ_self _)

theorem pinWalk_ne_outside_iff {value : List UInt8} (query : PinStatus)
    (hlen : value.length < 65536) :
    pinWalk value query ≠ .error .outside ↔ PinReadable none 0 value := by
  have hreads := readsOutside_iff
    (c := { tag := value, value_len := value.length, query }) rfl hlen
  have hrun : pinWalk value query = .error .outside ↔
      ReadsOutside { tag := value, value_len := value.length, query } :=
    Loop.run_eq_error_iff pinRound_decreases (Nat.lt_succ_self _)
  exact (not_congr (hrun.trans hreads)).trans not_not

/-! ### The query -/

/-- In parameters of which the length is a byte, the query walks over their first template. -/
theorem query_eq (pre : List Tlv) (o : Tlv) (post : List Tlv) (htag : o.tag = FCP_PIN_DO_T)
    (hpre : ∀ u ∈ pre, u.tag ≠ FCP_PIN_DO_T) (hlen : (encode (pre ++ o :: post)).length ≤ 255)
    (query : PinStatus) :
    (∃ rounds, fcp_pin_status_do_query rounds (encode (pre ++ o :: post))
      (encode (pre ++ o :: post)).length query = (pinWalk o.value query).map fun q => (true, q)) ∧
    ∀ rounds, fcp_pin_status_do_query rounds (encode (pre ++ o :: post))
        (encode (pre ++ o :: post)).length query = .error .endless ∨
      fcp_pin_status_do_query rounds (encode (pre ++ o :: post))
        (encode (pre ++ o :: post)).length query =
          (pinWalk o.value query).map fun q => (true, q) := by
  have hfirst := firstWith_eq post htag hpre
  have hvalue := value_of_encode pre o post
  have hsettled := fcp_tlv_search_tag_objects hlen FCP_PIN_DO_T
  have hquery : ∀ rounds, fcp_tlv_search_tag rounds (encode (pre ++ o :: post))
      (encode (pre ++ o :: post)).length FCP_PIN_DO_T = .ok (firstWith FCP_PIN_DO_T
        (pre ++ o :: post)) →
      fcp_pin_status_do_query rounds (encode (pre ++ o :: post))
        (encode (pre ++ o :: post)).length query =
          (pinWalk o.value query).map fun q => (true, q) := by
    intro rounds hsearch
    rw [fcp_pin_status_do_query, hsearch, hfirst]
    dsimp only [bind, Except.bind]
    rw [hvalue]
    cases pinWalk o.value query <;> rfl
  constructor
  · obtain ⟨rounds, hsearch⟩ := hsettled.enough
    exact ⟨rounds, hquery rounds (hsearch rounds (Nat.le_refl _))⟩
  · intro rounds
    rcases hsettled.few rounds with hsearch | hsearch
    · refine .inl ?_
      rw [fcp_pin_status_do_query, hsearch]
      rfl
    · exact .inr (hquery rounds hsearch)

def nineRefs : PinTemplate where
  psDo := [0xFF, 0x80]
  objects := ([0x01, 0x02, 0x03, 0x04, 0x05, 0x06, 0x07, 0x08, 0x0A] : List UInt8).map .keyRef
  bits := by decide

def nineObject : Tlv where
  tag := FCP_PIN_DO_T
  value := nineRefs.bytes
  length_le := by decide

/-- The assertion fails at the ninth reference. -/
theorem nine_refs_assertion : pinWalk nineRefs.bytes ⟨0, 0⟩ = .error .assertion ∧
    ¬ PinStatusAsSaid (encode [nineObject]) nineRefs.bytes ⟨0, 0⟩ := by
  have hwalk : pinWalk nineRefs.bytes ⟨0, 0⟩ = .error .assertion :=
    (nineRefs.pinWalk_eq (by decide) ⟨0, 0⟩).trans (if_neg (by decide))
  refine ⟨hwalk, fun h => ?_⟩
  obtain ⟨rounds, hrounds⟩ := h.1 nineRefs rfl
  have hall := (query_eq [] nineObject [] rfl (fun _ h => nomatch h) (by decide) ⟨0, 0⟩).2 rounds
  rw [List.nil_append, hrounds] at hall
  rcases hall with hend | heq
  · cases hend
  · have hvalue : nineObject.value = nineRefs.bytes := rfl
    rw [hvalue, hwalk] at heq
    cases heq

/-- **The query of the PIN status** does what is said exactly for readable templates that, where
they are well-formed, have eight references at most, and for structures that have no other flags set
than those which the template sets. The length of the parameters is a byte, as it is where the query
is called. -/
theorem pin_status_do_query_iff (pre : List Tlv) (o : Tlv) (post : List Tlv)
    (htag : o.tag = FCP_PIN_DO_T) (hpre : ∀ u ∈ pre, u.tag ≠ FCP_PIN_DO_T)
    (hlen : (encode (pre ++ o :: post)).length ≤ 255)
    (query : PinStatus) :
    PinStatusAsSaid (encode (pre ++ o :: post)) o.value query ↔
      (∀ T : PinTemplate, T.bytes = o.value → T.refs.length ≤ 8 ∧
        query.pin_flag ||| T.status.pin_flag = T.status.pin_flag ∧
        query.enabled_pin_flag ||| T.status.enabled_pin_flag = T.status.enabled_pin_flag) ∧
      PinReadable none 0 o.value := by
  obtain ⟨⟨m, hm⟩, hall⟩ := query_eq pre o post htag hpre hlen query
  have hshort : o.value.length ≤ 255 := o.length_le
  refine and_congr (forall₂_congr fun T hT => ?_) ?_
  · have hwalk := T.pinWalk_eq (by rw [hT]; exact hshort) query
    rw [hT] at hwalk
    constructor
    · rintro ⟨rounds, hrounds⟩
      rcases hall rounds with hend | heq
      · rw [hend] at hrounds
        cases hrounds
      rw [heq, hwalk] at hrounds
      split at hrounds
      · rename_i hle
        obtain ⟨-, hstatus⟩ := Prod.mk.inj (Except.ok.inj hrounds)
        exact ⟨hle, congrArg PinStatus.pin_flag hstatus,
          congrArg PinStatus.enabled_pin_flag hstatus⟩
      · cases hrounds
    · rintro ⟨hle, hpins, henabled⟩
      refine ⟨m, hm.trans ?_⟩
      rw [hwalk, if_pos hle, hpins, henabled]
      rfl
  · rw [← pinWalk_ne_outside_iff query (by omega)]
    constructor
    · intro h hout
      refine h m (hm.trans ?_)
      rw [hout]
      rfl
    · intro h rounds hout
      rcases hall rounds with hend | heq
      · rw [hend] at hout
        cases hout
      rw [heq] at hout
      cases hwalk : pinWalk o.value query with
      | ok q =>
        rw [hwalk] at hout
        cases hout
      | error e =>
        rw [hwalk] at hout
        cases hout
        exact h hwalk

/-- One reference, of an enabled PIN, is read as said; nine references are not. -/
theorem pin_status_do_query_iff_refs :
    PinStatusAsSaid (encode [⟨FCP_PIN_DO_T, [0x90, 1, 0x80, 0x83, 1, 1], by decide⟩])
      [0x90, 1, 0x80, 0x83, 1, 1] ⟨0, 0⟩ ∧
    ¬ PinStatusAsSaid (encode [nineObject]) nineRefs.bytes ⟨0, 0⟩ := by
  constructor
  · refine (pin_status_do_query_iff [] ⟨FCP_PIN_DO_T, [0x90, 1, 0x80, 0x83, 1, 1], by decide⟩ [] rfl
      (fun _ h => nomatch h) (by decide) _).mpr ⟨fun T hT => ?_, ?_⟩
    · have hlength := congrArg List.length hT
      have hbytes : T.bytes.length =
          (T.psDo ++ T.objects.flatMap PinObject.bytes).length + 2 := rfl
      have hrefs : T.refs.length ≤ T.objects.length := List.length_filterMap_le _ _
      rw [hbytes, List.length_append, length_objects] at hlength
      change _ = 6 at hlength
      exact ⟨by omega, BitVec.zero_or, BitVec.zero_or⟩
    · exact .psDo rfl (by decide)
        (.keyRef rfl (by decide) (by decide) (fun _ => ⟨_, rfl, by decide⟩) .nil)
  · intro h
    have hle := ((pin_status_do_query_iff [] nineObject [] rfl (fun _ h => nomatch h) (by decide)
      _).mp h).1 nineRefs rfl
    exact absurd hle.1 (by decide)

end MtkHardware.Ril
