import MtkHardware.Util.Rounds
import Mathlib.Data.List.TakeWhile

/-!
# Tags of File Control Parameters

The parameters of a file are objects one behind another, each a tag, a length and a value. Both
searches go from object to object and count down the bytes that are left in an `unsigned short`.
`fcp_tlv_search_tag` holds the length of an object with its header in an `unsigned char`, so that an
object of 254 bytes is not passed, and one of 255 bytes is passed by one byte. An object that is cut
off makes the count go below zero, which an `unsigned short` does not, and the search goes on behind
the buffer.
-/

namespace MtkHardware.Ril

/-! ### The code -/

inductive FcpFault
  /-- A byte outside of the buffer is read. -/
  | outside
  /-- A failed assertion. -/
  | assertion
  /-- The search has not ended in the rounds that it was given. -/
  | endless
  deriving DecidableEq, Repr

def byteAt (buf : List UInt8) (i : ℕ) : Except FcpFault UInt8 :=
  match buf[i]? with
  | some b => .ok b
  | none => .error .outside

/-- `*out_ptr`, as an index into the buffer, and `len`. -/
structure TlvCursor where
  out_ptr : ℕ
  len : ℕ
  deriving DecidableEq, Repr

/-- `len -= n`. -/
def lenMinus (len n : ℕ) : ℕ := (len + 65536 - n) % 65536

/-- A round of a search. The assertion behind the loop does not fail, as `len` is zero there. -/
def tlvRound (tagLen : ℕ → ℕ) (buf : List UInt8) (tag : UInt8) :
    Loop TlvCursor (Option ℕ × ℕ) FcpFault := fun c =>
  if 0 < c.len then do
    let length ← byteAt buf (c.out_ptr + 1)
    let t ← byteAt buf c.out_ptr
    if t = tag then return .inr (some (c.out_ptr + 2), length.toNat)
    else
      let tag_len := tagLen length.toNat
      return .inl { out_ptr := c.out_ptr + tag_len, len := lenMinus c.len tag_len }
  else return .inr (none, 0)

/-- `tag_len` of `fcp_tlv_search_tag`, an `unsigned char`. -/
def byteTagLen (length : ℕ) : ℕ := (length + 2) % 256

/-- **`fcp_tlv_search_tag`**, for some rounds: the index of the value and its length. -/
def fcp_tlv_search_tag (rounds : ℕ) (in_ptr : List UInt8) (len : ℕ) (tag : UInt8) :
    Except FcpFault (Option ℕ × ℕ) :=
  (tlvRound byteTagLen in_ptr tag).run .endless rounds { out_ptr := 0, len }

/-- **`prop_info_tlv_search_tag`**, for some rounds. It reads the tag before the length, and both in
each round. -/
def prop_info_tlv_search_tag (rounds : ℕ) (in_ptr : List UInt8) (len : ℕ) (tag : UInt8) :
    Except FcpFault (Option ℕ × ℕ) :=
  (tlvRound (· + 2) in_ptr tag).run .endless rounds { out_ptr := 0, len }

/-! ### What is meant -/

/-- An **object**: its length is a byte. -/
structure Tlv where
  tag : UInt8
  value : List UInt8
  length_le : value.length ≤ 255

namespace Tlv

def bytes (t : Tlv) : List UInt8 := t.tag :: UInt8.ofNat t.value.length :: t.value

def encode (ts : List Tlv) : List UInt8 := ts.flatMap bytes

/-- The place of the first object with a tag, or of the end. -/
def place (tag : UInt8) (ts : List Tlv) : ℕ := (encode (ts.takeWhile fun t => t.tag ≠ tag)).length

def firstWith (tag : UInt8) (ts : List Tlv) : Option ℕ × ℕ :=
  match ts.find? fun t => t.tag = tag with
  | some t => (some (place tag ts + 2), t.value.length)
  | none => (none, 0)

end Tlv

/-- The search comes from the start to a place: it passes headers in the buffer that have another
tag. -/
inductive Passes (tagLen : ℕ → ℕ) (buf : List UInt8) (tag : UInt8) : ℕ → Prop
  | start : Passes tagLen buf tag 0
  | next {p : ℕ} {t length : UInt8} : Passes tagLen buf tag p → buf[p]? = some t →
      buf[p + 1]? = some length → t ≠ tag → Passes tagLen buf tag (p + tagLen length.toNat)

open Tlv

/-- **What is said of the search**: in objects, it finds the first one with the tag; and in what are
no objects, it does not read outside of the buffer. -/
def SearchesAsSaid (buf : List UInt8) (tag : UInt8) : Prop :=
  (∀ ts, encode ts = buf →
    ∃ rounds, fcp_tlv_search_tag rounds buf buf.length tag = .ok (firstWith tag ts)) ∧
  ((¬ ∃ ts, encode ts = buf) →
    ∀ rounds, fcp_tlv_search_tag rounds buf buf.length tag ≠ .error .outside)

/-! ### The places of a search -/

variable {tagLen : ℕ → ℕ} {buf : List UInt8} {tag : UInt8} {c c' : TlvCursor} {p : ℕ}
  {ts : List Tlv}

theorem byteAt_of_some {b : UInt8} (h : buf[p]? = some b) : byteAt buf p = .ok b := by
  rw [byteAt, h]

theorem byteAt_of_none (h : buf.length ≤ p) : byteAt buf p = .error .outside := by
  rw [byteAt, List.getElem?_eq_none h]

theorem exists_header (h : p + 2 ≤ buf.length) :
    ∃ t length, buf[p]? = some t ∧ buf[p + 1]? = some length :=
  ⟨_, _, List.getElem?_eq_getElem (by omega), List.getElem?_eq_getElem (by omega)⟩

theorem Passes.le (hstep : ∀ n, tagLen n ≤ n + 2) (h : Passes tagLen buf tag p) :
    p ≤ buf.length + 255 := by
  cases h with
  | start => exact Nat.zero_le _
  | @next p t length _ _ hlength _ =>
    have hlt := (List.getElem?_eq_some_iff.mp hlength).1
    have hle := hstep length.toNat
    have hbyte := length.toNat_lt
    omega

/-- The count of a cursor tells how far it is from the end. -/
def TlvCursor.Counts (buf : List UInt8) (c : TlvCursor) : Prop :=
  c.len = (buf.length + 65536 - c.out_ptr) % 65536

theorem TlvCursor.Counts.eq_zero_iff (hlen : buf.length < 65536) (h : c.Counts buf)
    (hle : c.out_ptr ≤ buf.length + 255) : c.len = 0 ↔ c.out_ptr = buf.length := by
  rw [TlvCursor.Counts] at h
  omega

/-- **A round** behind a header with another tag. -/
theorem tlvRound_next {t length : UInt8} (hpos : 0 < c.len) (ht : buf[c.out_ptr]? = some t)
    (hlength : buf[c.out_ptr + 1]? = some length) (hne : t ≠ tag) :
    tlvRound tagLen buf tag c = .ok (.inl
      { out_ptr := c.out_ptr + tagLen length.toNat,
        len := lenMinus c.len (tagLen length.toNat) }) := by
  rw [tlvRound, if_pos hpos, byteAt_of_some ht, byteAt_of_some hlength]
  exact if_neg hne

theorem tlvRound_found {length : UInt8} (hpos : 0 < c.len) (ht : buf[c.out_ptr]? = some tag)
    (hlength : buf[c.out_ptr + 1]? = some length) :
    tlvRound tagLen buf tag c = .ok (.inr (some (c.out_ptr + 2), length.toNat)) := by
  rw [tlvRound, if_pos hpos, byteAt_of_some ht, byteAt_of_some hlength]
  exact if_pos rfl

theorem tlvRound_end (hzero : c.len = 0) : tlvRound tagLen buf tag c = .ok (.inr (none, 0)) := by
  rw [tlvRound, if_neg (by omega)]
  rfl

theorem tlvRound_outside (hpos : 0 < c.len) (h : buf.length < c.out_ptr + 2) :
    tlvRound tagLen buf tag c = .error .outside := by
  rw [tlvRound, if_pos hpos, byteAt_of_none (by omega)]
  rfl

theorem Counts.next {n : ℕ} (hlen : buf.length < 65536) (h : c.Counts buf) (hn : n ≤ 257)
    (hle : c.out_ptr + 2 ≤ buf.length) :
    ({ out_ptr := c.out_ptr + n, len := lenMinus c.len n } : TlvCursor).Counts buf := by
  rw [TlvCursor.Counts] at h ⊢
  dsimp only [lenMinus]
  omega

theorem comes_iff_passes (hstep : ∀ n, tagLen n ≤ n + 2) (hlen : buf.length < 65536) :
    (tlvRound tagLen buf tag).Comes { out_ptr := 0, len := buf.length } c ↔
      Passes tagLen buf tag c.out_ptr ∧ c.Counts buf := by
  constructor
  · intro h
    refine h.invariant (I := fun c => Passes tagLen buf tag c.out_ptr ∧ c.Counts buf)
      ⟨.start, ?_⟩ ?_
    · rw [TlvCursor.Counts]
      dsimp only
      omega
    · rintro c c' ⟨hpasses, hcounts⟩ hround
      rcases Nat.eq_zero_or_pos c.len with hzero | hpos
      · rw [tlvRound_end hzero] at hround
        cases hround
      by_cases hin : c.out_ptr + 2 ≤ buf.length
      · obtain ⟨t, length, ht, hlength⟩ := exists_header hin
        by_cases heq : t = tag
        · rw [tlvRound_found hpos (heq ▸ ht) hlength] at hround
          cases hround
        · rw [tlvRound_next hpos ht hlength heq] at hround
          cases hround
          have hbyte := length.toNat_lt
          have hle := hstep length.toNat
          exact ⟨hpasses.next ht hlength heq, Counts.next hlen hcounts (by omega) hin⟩
      · rw [tlvRound_outside hpos (by omega)] at hround
        cases hround
  · rintro ⟨hpasses, hcounts⟩
    obtain ⟨out_ptr, len⟩ := c
    dsimp only at hpasses
    induction hpasses generalizing len with
    | start =>
      rw [TlvCursor.Counts] at hcounts
      dsimp only at hcounts
      obtain rfl : len = buf.length := by omega
      exact .start
    | @next p t length hpasses ht hlength hne ih =>
      have hlt := (List.getElem?_eq_some_iff.mp hlength).1
      have hbyte := length.toNat_lt
      have hle := hstep length.toNat
      have hcounts' : ({ out_ptr := p, len := (buf.length + 65536 - p) % 65536 } :
        TlvCursor).Counts buf := rfl
      have hpos : 0 < (buf.length + 65536 - p) % 65536 := by omega
      have hnext := Counts.next (n := tagLen length.toNat) hlen hcounts' (by omega) (by
        dsimp only
        omega)
      obtain rfl : len = lenMinus ((buf.length + 65536 - p) % 65536) (tagLen length.toNat) :=
        hcounts.trans hnext.symm
      exact (ih _ hcounts').round (tlvRound_next hpos ht hlength hne)

/-! ### Objects -/

@[simp] theorem encode_nil : encode [] = [] := rfl

theorem encode_cons (t : Tlv) (ts : List Tlv) : encode (t :: ts) = t.bytes ++ encode ts := rfl

theorem encode_append (ts us : List Tlv) : encode (ts ++ us) = encode ts ++ encode us :=
  List.flatMap_append

theorem Tlv.length_bytes (t : Tlv) : t.bytes.length = t.value.length + 2 := rfl

theorem Tlv.toNat_length (t : Tlv) : (UInt8.ofNat t.value.length).toNat = t.value.length := by
  have hle := t.length_le
  rw [UInt8.toNat_ofNat', Nat.mod_eq_of_lt (by omega)]

theorem header_of_encode (pre : List Tlv) (t : Tlv) (post : List Tlv) :
    (encode (pre ++ t :: post))[(encode pre).length]? = some t.tag ∧
      (encode (pre ++ t :: post))[(encode pre).length + 1]? =
        some (UInt8.ofNat t.value.length) := by
  rw [encode_append, encode_cons]
  constructor
  · rw [List.getElem?_append_right (Nat.le_refl _), Nat.sub_self]
    rfl
  · rw [List.getElem?_append_right (Nat.le_add_right _ 1), Nat.add_sub_cancel_left]
    rfl

theorem firstWith_cases (tag : UInt8) (ts : List Tlv) :
    (∃ pre t post, ts = pre ++ t :: post ∧ (∀ u ∈ pre, u.tag ≠ tag) ∧ t.tag = tag ∧
      place tag ts = (encode pre).length ∧
      firstWith tag ts = (some (place tag ts + 2), t.value.length)) ∨
    ((∀ u ∈ ts, u.tag ≠ tag) ∧ place tag ts = (encode ts).length ∧
      firstWith tag ts = (none, 0)) := by
  rw [firstWith, place]
  cases hfind : ts.find? fun t => t.tag = tag with
  | some t =>
    obtain ⟨ht, pre, post, rfl, hpre⟩ := List.find?_eq_some_iff_append.mp hfind
    have hne : ∀ u ∈ pre, u.tag ≠ tag := fun u hu => by simpa using hpre u hu
    have htag : t.tag = tag := by simpa using ht
    refine .inl ⟨pre, t, post, rfl, hne, htag, ?_, rfl⟩
    rw [List.takeWhile_append_of_pos (by simpa using hne),
      List.takeWhile_cons_of_neg (by simpa using htag), List.append_nil]
  | none =>
    have hne : ∀ u ∈ ts, u.tag ≠ tag := fun u hu => by
      simpa using List.find?_eq_none.mp hfind u hu
    refine .inr ⟨hne, ?_, rfl⟩
    rw [List.takeWhile_eq_self_iff.mpr (by simpa using hne)]

theorem firstWith_eq {pre : List Tlv} {t : Tlv} (post : List Tlv) (htag : t.tag = tag)
    (hpre : ∀ u ∈ pre, u.tag ≠ tag) :
    firstWith tag (pre ++ t :: post) = (some ((encode pre).length + 2), t.value.length) := by
  have hfind : (pre ++ t :: post).find? (fun t => t.tag = tag) = some t :=
    List.find?_eq_some_iff_append.mpr
      ⟨by simpa using htag, pre, post, rfl, fun u hu => by simpa using hpre u hu⟩
  have hplace : place tag (pre ++ t :: post) = (encode pre).length := by
    rw [place, List.takeWhile_append_of_pos (by simpa using hpre),
      List.takeWhile_cons_of_neg (by simpa using htag), List.append_nil]
  rw [firstWith, hfind, hplace]

theorem value_of_encode (pre : List Tlv) (t : Tlv) (post : List Tlv) :
    ((encode (pre ++ t :: post)).drop ((encode pre).length + 2)).take t.value.length =
      t.value := by
  rw [encode_append, encode_cons, ← List.drop_drop, List.drop_left]
  exact List.take_left

theorem passes_encode (tagLen : ℕ → ℕ) (pre post : List Tlv)
    (hpre : ∀ u ∈ pre, u.tag ≠ tag ∧ tagLen u.value.length = u.value.length + 2) :
    Passes tagLen (encode (pre ++ post)) tag (encode pre).length := by
  induction pre using List.reverseRecOn generalizing post with
  | nil => exact .start
  | append_singleton pre u ih =>
    have hpasses := ih (u :: post) fun v hv => hpre v (List.mem_append_left [u] hv)
    obtain ⟨hne, hlen⟩ := hpre u (List.mem_append_right pre (List.mem_singleton_self u))
    obtain ⟨htag, hlength⟩ := header_of_encode pre u post
    have hnext := hpasses.next htag hlength hne
    rw [u.toNat_length, hlen] at hnext
    have hone : (encode [u]).length = u.value.length + 2 := by
      rw [encode_cons, encode_nil, List.append_nil, u.length_bytes]
    rw [List.append_assoc, List.singleton_append, encode_append pre [u], List.length_append, hone]
    exact hnext

/-- **Passing**: the objects in front of the first one with the tag are passed where they are
shorter than 254 bytes. -/
theorem passes_place (h : ∀ u ∈ ts.takeWhile fun t => t.tag ≠ tag, u.value.length < 254) :
    Passes byteTagLen (encode ts) tag (place tag ts) := by
  have hsplit := List.takeWhile_append_dropWhile (p := fun t : Tlv => t.tag ≠ tag) (l := ts)
  have hpasses := passes_encode byteTagLen (ts.takeWhile fun t => t.tag ≠ tag)
    (ts.dropWhile fun t => t.tag ≠ tag)
    fun u hu => ⟨by simpa using List.mem_takeWhile_imp hu,
      Nat.mod_eq_of_lt (by have := h u hu; omega)⟩
  rwa [hsplit] at hpasses

/-! ### Results -/

/-- **What a search finds**: the first object with the tag, exactly where it passes those in front
of it. -/
theorem exists_search_iff (hstep : ∀ n, tagLen n ≤ n + 2) (hlen : buf.length < 65536)
    (hts : encode ts = buf) :
    (∃ rounds, (tlvRound tagLen buf tag).run .endless rounds { out_ptr := 0, len := buf.length } =
      .ok (firstWith tag ts)) ↔ Passes tagLen buf tag (place tag ts) := by
  subst hts
  constructor
  · rintro ⟨rounds, hrun⟩
    obtain ⟨c, hcomes, hend⟩ := Loop.exists_comes_of_run_ok hrun
    obtain ⟨hpasses, hcounts⟩ := (comes_iff_passes hstep hlen).mp hcomes
    have hzero := hcounts.eq_zero_iff hlen (hpasses.le hstep)
    rcases Nat.eq_zero_or_pos c.len with hz | hpos
    · rw [tlvRound_end hz] at hend
      obtain ⟨_, _, _, -, -, -, -, hfirst⟩ | ⟨-, hplace, -⟩ := firstWith_cases tag ts
      · rw [hfirst] at hend
        cases hend
      · rwa [hplace, ← hzero.mp hz]
    by_cases hin : c.out_ptr + 2 ≤ (encode ts).length
    · obtain ⟨t, length, ht, hlength⟩ := exists_header hin
      by_cases heq : t = tag
      · rw [tlvRound_found hpos (heq ▸ ht) hlength] at hend
        obtain ⟨_, _, _, -, -, -, -, hfirst⟩ | ⟨-, -, hfirst⟩ := firstWith_cases tag ts
        · rw [hfirst] at hend
          obtain ⟨hptr, -⟩ := Prod.mk.inj (Sum.inr.inj (Except.ok.inj hend))
          have hptr := Option.some.inj hptr
          have hplace : c.out_ptr = place tag ts := by omega
          rwa [← hplace]
        · rw [hfirst] at hend
          cases hend
      · rw [tlvRound_next hpos ht hlength heq] at hend
        cases hend
    · rw [tlvRound_outside hpos (by omega)] at hend
      cases hend
  · intro hpasses
    have hcounts : (TlvCursor.mk (place tag ts)
      (((encode ts).length + 65536 - place tag ts) % 65536)).Counts (encode ts) := rfl
    have hcomes := (comes_iff_passes hstep hlen).mpr ⟨hpasses, hcounts⟩
    refine hcomes.exists_run ⟨1, ?_⟩
    obtain ⟨pre, t, post, rfl, -, htag, hplace, hfirst⟩ | ⟨-, hplace, hfirst⟩ :=
      firstWith_cases tag ts
    · obtain ⟨ht, hlength⟩ := header_of_encode pre t post
      have hlt := (List.getElem?_eq_some_iff.mp hlength).1
      rw [← hplace] at ht hlength hlt
      rw [htag] at ht
      rw [Loop.run, tlvRound_found (by dsimp only; omega) ht hlength, hfirst, t.toNat_length]
    · rw [Loop.run, tlvRound_end (by dsimp only; rw [hplace]; omega), hfirst]

/-- **What a search reads**: it comes to a place, other than the end, that has no header. -/
theorem search_outside_iff (tag : UInt8) (hstep : ∀ n, tagLen n ≤ n + 2)
    (hlen : buf.length < 65536) :
    (∃ rounds, (tlvRound tagLen buf tag).run .endless rounds { out_ptr := 0, len := buf.length } =
      .error .outside) ↔
    ∃ p, Passes tagLen buf tag p ∧ p ≠ buf.length ∧ buf.length < p + 2 := by
  rw [Loop.exists_run_error_iff (by decide)]
  constructor
  · rintro ⟨c, hcomes, hfail⟩
    obtain ⟨hpasses, hcounts⟩ := (comes_iff_passes hstep hlen).mp hcomes
    have hzero := hcounts.eq_zero_iff hlen (hpasses.le hstep)
    rcases Nat.eq_zero_or_pos c.len with hz | hpos
    · rw [tlvRound_end hz] at hfail
      cases hfail
    refine ⟨c.out_ptr, hpasses, fun heq => by have := hzero.mpr heq; omega, ?_⟩
    by_contra hout
    have hin : c.out_ptr + 2 ≤ buf.length := by omega
    obtain ⟨t, length, ht, hlength⟩ := exists_header hin
    by_cases heq : t = tag
    · rw [tlvRound_found hpos (heq ▸ ht) hlength] at hfail
      cases hfail
    · rw [tlvRound_next hpos ht hlength heq] at hfail
      cases hfail
  · rintro ⟨p, hpasses, hne, hout⟩
    have hcounts : ({ out_ptr := p, len := (buf.length + 65536 - p) % 65536 } :
      TlvCursor).Counts buf := rfl
    refine ⟨_, (comes_iff_passes hstep hlen).mpr ⟨hpasses, hcounts⟩, tlvRound_outside ?_ hout⟩
    have hzero := hcounts.eq_zero_iff hlen (hpasses.le hstep)
    exact Nat.pos_of_ne_zero fun hz => hne (hzero.mp hz)

theorem byteTagLen_le (n : ℕ) : byteTagLen n ≤ n + 2 := Nat.mod_le _ _

/-- **The search for a tag** does what is said exactly where it passes the objects in front of the
one that it should find, and in other bytes comes to no place but the end without a header. -/
theorem searchesAsSaid_iff (hlen : buf.length < 65536) :
    SearchesAsSaid buf tag ↔
      (∀ ts, encode ts = buf → Passes byteTagLen buf tag (place tag ts)) ∧
      ((¬ ∃ ts, encode ts = buf) →
        ∀ p, Passes byteTagLen buf tag p → p = buf.length ∨ p + 2 ≤ buf.length) := by
  refine and_congr (forall₂_congr fun ts hts => exists_search_iff byteTagLen_le hlen hts)
    (imp_congr_right fun _ => ?_)
  have houtside := search_outside_iff tag byteTagLen_le hlen
  rw [← not_iff_not, not_exists] at houtside
  refine houtside.trans ⟨fun h p hpasses => ?_, fun h hout => ?_⟩
  · by_contra hp
    exact h ⟨p, hpasses, by omega, by omega⟩
  · obtain ⟨p, hpasses, hne, hlt⟩ := hout
    have hp := h p hpasses
    omega

/-- Given enough rounds, a computation yields a result; given too few, it does not end. -/
structure Settled {α : Type} (x : ℕ → Except FcpFault α) (a : α) : Prop where
  enough : ∃ n, ∀ m, n ≤ m → x m = .ok a
  few : ∀ m, x m = .error .endless ∨ x m = .ok a

theorem Settled.const {α : Type} (a : α) : Settled (fun _ => .ok a) a :=
  ⟨⟨0, fun _ _ => rfl⟩, fun _ => .inr rfl⟩

theorem Settled.bind {α β : Type} {x : ℕ → Except FcpFault α} {f : ℕ → α → Except FcpFault β}
    {a : α} {b : β} (hx : Settled x a) (hf : Settled (fun m => f m a) b) :
    Settled (fun m => x m >>= f m) b := by
  obtain ⟨n, hn⟩ := hx.enough
  obtain ⟨n', hn'⟩ := hf.enough
  refine ⟨⟨max n n', fun m hm => ?_⟩, fun m => ?_⟩
  · rw [hn m (by omega)]
    exact hn' m (by omega)
  · rcases hx.few m with hm | hm
    · exact .inl (by rw [hm]; rfl)
    · rw [hm]
      exact hf.few m

theorem Settled.unique {α : Type} {x : ℕ → Except FcpFault α} {a b : α} {m : ℕ} (hx : Settled x a)
    (h : x m = .ok b) : b = a := by
  rcases hx.few m with hm | hm
  · rw [hm] at h
    cases h
  · exact Except.ok.inj (h.symm.trans hm)

theorem settled_run {c : TlvCursor} {r : Option ℕ × ℕ}
    (h : ∃ rounds, (tlvRound tagLen buf tag).run .endless rounds c = .ok r) :
    Settled (fun rounds => (tlvRound tagLen buf tag).run .endless rounds c) r := by
  obtain ⟨n, hn⟩ := h
  refine ⟨⟨n, fun m hm => Loop.run_ok_mono hm hn⟩, fun m => ?_⟩
  cases hm : (tlvRound tagLen buf tag).run .endless m c with
  | ok r' => exact .inr (congrArg Except.ok (Loop.run_ok_unique hm hn))
  | error e =>
    refine .inl (congrArg Except.error ?_)
    by_contra hne
    -- a failing round would be the last one
    exact Loop.run_error_ne_ok hne hm hn

/-- In parameters of which the length is a byte, as it is in the template of a file, the first
object with a tag is found. -/
theorem fcp_tlv_search_tag_objects (hlen : (encode ts).length ≤ 255) (tag : UInt8) :
    Settled (fun rounds => fcp_tlv_search_tag rounds (encode ts) (encode ts).length tag)
      (firstWith tag ts) := by
  have hshort : ∀ u ∈ ts, u.value.length < 254 := by
    intro u hu
    obtain ⟨pre, post, rfl⟩ := List.append_of_mem hu
    rw [encode_append, encode_cons, List.length_append, List.length_append,
      u.length_bytes] at hlen
    omega
  exact settled_run ((exists_search_iff byteTagLen_le (by omega) rfl).mpr
    (passes_place fun u hu => hshort u ((List.takeWhile_prefix _).subset hu)))

theorem not_encode_cut (tag : UInt8) {n : UInt8} (hn : n ≠ 0) :
    ¬ ∃ ts, encode ts = [tag, n] := by
  rintro ⟨ts, hts⟩
  cases ts with
  | nil => cases hts
  | cons t ts =>
    rw [encode_cons, Tlv.bytes, List.cons_append, List.cons_append] at hts
    obtain ⟨-, hrest⟩ := List.cons.inj hts
    obtain ⟨hlength, hrest⟩ := List.cons.inj hrest
    have hnil := (List.append_eq_nil_iff.mp hrest).1
    rw [hnil] at hlength
    exact hn hlength.symm

/-- Nothing is searched as said, and an object that is cut off is not. -/
theorem searchesAsSaid_iff_cut : SearchesAsSaid [] 0xC6 ∧ ¬ SearchesAsSaid [0x82, 5] 0xC6 := by
  constructor
  · refine (searchesAsSaid_iff (by decide)).mpr ⟨fun ts hts => ?_, fun h => absurd ⟨[], rfl⟩ h⟩
    cases ts with
    | nil => exact .start
    | cons t ts => cases hts
  · intro h
    have htag : ([0x82, 5] : List UInt8)[0]? = some 0x82 := rfl
    have hlength : ([0x82, 5] : List UInt8)[0 + 1]? = some 5 := rfl
    have hpasses : Passes byteTagLen [0x82, 5] 0xC6 (0 + byteTagLen 5) :=
      Passes.start.next htag hlength (by decide)
    have hp := ((searchesAsSaid_iff (by decide)).mp h).2 (not_encode_cut _ (by decide)) _ hpasses
    exact absurd hp (by decide)

/-- The search for a tag goes on behind an object that is cut off: `len` is 65531 there. -/
theorem cut_off_read_outside : (¬ ∃ ts, encode ts = [0x82, 5]) ∧
    fcp_tlv_search_tag 2 [0x82, 5] 2 0xC6 = .error .outside ∧ ¬ SearchesAsSaid [0x82, 5] 0xC6 := by
  have hcut := not_encode_cut 0x82 (n := 5) (by decide)
  have hout : fcp_tlv_search_tag 2 [0x82, 5] 2 0xC6 = .error .outside := rfl
  exact ⟨hcut, hout, fun h => h.2 hcut 2 hout⟩

/-- `prop_info_tlv_search_tag` finds the first object with the tag, however long the others are. -/
theorem prop_info_tlv_search_tag_objects (hlen : (encode ts).length < 65536) (tag : UInt8) :
    Settled (fun rounds => prop_info_tlv_search_tag rounds (encode ts) (encode ts).length tag)
      (firstWith tag ts) := by
  refine settled_run ((exists_search_iff (fun n => Nat.le_refl _) hlen rfl).mpr ?_)
  have hsplit := List.takeWhile_append_dropWhile (p := fun t : Tlv => t.tag ≠ tag) (l := ts)
  have hpasses := passes_encode (· + 2) (ts.takeWhile fun t => t.tag ≠ tag)
    (ts.dropWhile fun t => t.tag ≠ tag)
    fun u hu => ⟨by simpa using List.mem_takeWhile_imp hu, rfl⟩
  rwa [hsplit] at hpasses

end MtkHardware.Ril
