import MtkHardware.ImgBuf.Geometry
import MtkHardware.Util.Run

/-!
# Windows in Image Buffers

`setExtParam` makes a window of an image: a size, and for each plane an offset in bytes. It checks
that the window is inside the first plane, and puts the offsets of the other planes where half the
first one is. The offsets are left in pixels, where `onCreate` makes bytes of them again, so that
the offset of the first plane is the one that has been asked for where a pixel is a byte.

A `size_t` is a natural number below `2 ^ 64`, and the calculations of `setExtParam` wrap around.
-/

namespace MtkHardware.ImgBuf

open Format

/-! ### The code -/

/-- `BYTE2PIXEL` of a `size_t`. -/
def BYTE2PIXEL_size_t (bpp byte : ℕ) : ℕ := (byte <<< 3) % 2 ^ 64 / bpp

/-- The values of an `int`. -/
def MSize.IsInt (size : MSize) : Prop :=
  -2 ^ 31 ≤ size.w ∧ size.w < 2 ^ 31 ∧ -2 ^ 31 ≤ size.h ∧ size.h < 2 ^ 31

instance : DecidablePred MSize.IsInt := fun _ => inferInstanceAs (Decidable (_ ∧ _))

/-- What `setExtParam` changes. -/
structure ExtState where
  mImgSize : MSize
  extOffsetInBytes : ℕ → ℕ

namespace CreateParam

variable (p : CreateParam)

def extInit : ExtState := ⟨p.imgSize, fun _ => 0⟩

def extOffset (offsetInBytes i : ℕ) : ℕ :=
  queryPlaneWidthInPixels p.imgFormat i
    (BYTE2PIXEL_size_t (p.getPlaneBitsPerPixel i) offsetInBytes)

/-- `imgWidthInBytes` of `setExtParam`. -/
def extWidthInBytes (imgSize : MSize) : ℕ :=
  let bits := toSize (imgSize.w * p.getPlaneBitsPerPixel 0)
  bits / 8 + if bits % 8 > 0 then 1 else 0

/-- `imgSizeInBytes` of `setExtParam`. -/
def extSizeInBytes (imgSize : MSize) (offsetInBytes : ℕ) : ℕ :=
  if offsetInBytes = 0 then toSize (p.strides 0 * imgSize.h)
  else toSize (p.strides 0 * (imgSize.h - 1) + p.extWidthInBytes imgSize)

/-- **`setExtParam`**. The height of the buffer stays the one that it has been created with. -/
def setExtParam (s : ExtState) (imgSize : MSize) (offsetInBytes : ℕ) :
    Except Fault (Bool × ExtState) :=
  let sizeInBytes := (p.sizeInBytes 0 + p.offsetInBytes 0) % 2 ^ 64
  let bitsPerPixel := p.getPlaneBitsPerPixel 0
  if bitsPerPixel = 0 then .error .divisionByZero
  else
    let strideInPixels := BYTE2PIXEL_size_t bitsPerPixel (p.strides 0)
    let imgSizeInBytes := p.extSizeInBytes imgSize offsetInBytes
    if toSize imgSize.w > strideInPixels ∨ imgSize.h > p.imgSize.h then .ok (false, s)
    else if (imgSizeInBytes + offsetInBytes) % 2 ^ 64 > sizeInBytes then .ok (false, s)
    else if s.mImgSize ≠ imgSize ∨ s.extOffsetInBytes 0 ≠ offsetInBytes then
      .ok (true, ⟨imgSize, p.extOffset offsetInBytes⟩)
    else .ok (true, s)

def getExtOffsetInBytes (s : ExtState) (index : ℕ) : ℕ :=
  if p.getPlaneCount ≤ index then 0 else s.extOffsetInBytes index

/-- The calls of `setExtParam`, with what they return. -/
def extCalls : Machine ExtState (MSize × ℕ) Bool Fault := fun s call =>
  match p.setExtParam s call.1 call.2 with
  | .error e => .error e
  | .ok (ret, s) => .ok (s, [ret])

/-! ### What is to be -/

def positionInBytes (offsetInBytes i : ℕ) : ℕ :=
  let x := BYTE2PIXEL (p.getPlaneBitsPerPixel 0) (offsetInBytes % p.strides 0)
  let y := offsetInBytes / p.strides 0
  p.strides i * queryPlaneHeightInPixels p.imgFormat i y +
    PIXEL2BYTE (p.getPlaneBitsPerPixel i) (queryPlaneWidthInPixels p.imgFormat i x)

def rows (imgSize : MSize) (i : ℕ) : ℕ := queryPlaneHeightInPixels p.imgFormat i imgSize.h.toNat

/-- The number of the bytes of a row of a window in a plane. -/
def rowInBytes (imgSize : MSize) (i : ℕ) : ℕ :=
  let bits := queryPlaneWidthInPixels p.imgFormat i imgSize.w.toNat * p.getPlaneBitsPerPixel i
  bits / 8 + if bits % 8 > 0 then 1 else 0

/-- Every row of a window that starts at a byte of a plane ends inside the plane. -/
def WindowInside (imgSize : MSize) (i start : ℕ) : Prop :=
  ∀ y < p.rows imgSize i,
    start + p.strides i * y + p.rowInBytes imgSize i ≤ p.sizeInBytes i + p.offsetInBytes i

def LastRowInside (imgSize : MSize) (i start : ℕ) : Prop :=
  p.rows imgSize i = 0 ∨
    start + (p.strides i * (p.rows imgSize i - 1) + p.rowInBytes imgSize i) ≤
      p.sizeInBytes i + p.offsetInBytes i

/-- **The window is where it should be**, after a call. -/
structure WindowHolds (s : ExtState) (imgSize : MSize) (offsetInBytes : ℕ) : Prop where
  first : p.getExtOffsetInBytes s 0 = offsetInBytes
  others : ∀ i, 0 < i → i < p.getPlaneCount →
    p.getExtOffsetInBytes s i = p.positionInBytes offsetInBytes i
  inside : ∀ i < p.getPlaneCount, p.WindowInside imgSize i (p.getExtOffsetInBytes s i)
  again : p.setExtParam s imgSize offsetInBytes = .ok (true, s)

/-- What the check of the first plane compares, without the wrap-around. -/
def checkedEnd (imgSize : MSize) (offsetInBytes : ℕ) : ℕ :=
  if offsetInBytes = 0 then p.strides 0 * p.rows imgSize 0
  else offsetInBytes + (p.strides 0 * (p.rows imgSize 0 - 1) + p.rowInBytes imgSize 0)

/-- **The condition** on a call: the bytes of the offset are its pixels, as many as half of them in
each other plane are just the position there, and there is room in the other planes. -/
structure Suitable (s : ExtState) (imgSize : MSize) (offsetInBytes : ℕ) : Prop where
  first : offsetInBytes = 0 ∨ p.getPlaneBitsPerPixel 0 = 8 ∧ offsetInBytes < 2 ^ 61 ∨
    s.mImgSize = imgSize ∧ s.extOffsetInBytes 0 = offsetInBytes
  others : ∀ i, 0 < i → i < p.getPlaneCount →
    8 * offsetInBytes / p.getPlaneBitsPerPixel i / 2 = p.positionInBytes offsetInBytes i
  wraps : p.checkedEnd imgSize offsetInBytes < 2 ^ 64 ∨ p.LastRowInside imgSize 0 offsetInBytes
  room : ∀ i, 0 < i → i < p.getPlaneCount →
    p.LastRowInside imgSize i (p.positionInBytes offsetInBytes i)

end CreateParam

/-! ### Formats -/

theorem eight_le_bitsPerPixel {fmt : EImageFormat} (h : 0 < queryPlaneCount fmt) :
    8 ≤ queryPlaneBitsPerPixel fmt 0 := by
  cases fmt <;> first | decide | cases h

/-- Where there are other planes, a pixel of the first one takes a byte, and the others have half
the width. -/
theorem half_width {fmt : EImageFormat} {i : ℕ} (hpos : 0 < i) (hi : i < queryPlaneCount fmt) :
    queryPlaneBitsPerPixel fmt 0 = 8 ∧
      ∀ w, queryPlaneWidthInPixels fmt i w = w / 2 := by
  have hhalf : ∀ m, getMapper fmt = some m → i < m.mPlaneCount →
      m.getPlaneBitsPerPixel 0 = 8 ∧ m.halfWidth = true := by
    intro m hm hlt
    cases fmt <;> cases hm <;> first | exact ⟨rfl, rfl⟩ | exact absurd hlt (by
      change ¬ i < 1
      omega)
  rw [queryPlaneCount] at hi
  rw [queryPlaneBitsPerPixel]
  cases hm : getMapper fmt with
  | none => simp [hm] at hi
  | some m =>
    simp only [hm] at hi
    obtain ⟨hbits, hwidth⟩ := hhalf m hm hi
    refine ⟨hbits, fun w => ?_⟩
    simp only [queryPlaneWidthInPixels, hm, CBaseImgFmt.getPlaneWidthInPixels]
    rw [if_neg (by simp [hwidth, hpos.ne']), Nat.shiftRight_eq_div_pow]

theorem planeCount_pos_of_bits {fmt : EImageFormat} (h : queryPlaneBitsPerPixel fmt 0 ≠ 0) :
    0 < queryPlaneCount fmt := by
  refine planeCount_pos ?_
  rw [checkValidFormat]
  rw [queryPlaneBitsPerPixel] at h
  cases hm : getMapper fmt with
  | none => simp [hm] at h
  | some m => rfl

theorem first_plane {fmt : EImageFormat} (h : 0 < queryPlaneCount fmt) (n : ℕ) :
    queryPlaneWidthInPixels fmt 0 n = n ∧ queryPlaneHeightInPixels fmt 0 n = n := by
  rw [queryPlaneCount] at h
  cases hm : getMapper fmt with
  | none => simp [hm] at h
  | some m =>
    simp only [queryPlaneWidthInPixels, queryPlaneHeightInPixels, hm]
    exact ⟨if_pos (.inl rfl), if_pos (.inl rfl)⟩

theorem queryPlaneWidthInPixels_zero (fmt : EImageFormat) (i : ℕ) :
    queryPlaneWidthInPixels fmt i 0 = 0 := by
  rw [queryPlaneWidthInPixels]
  split
  · rw [CBaseImgFmt.getPlaneWidthInPixels]
    split <;> rfl
  · rfl

namespace CreateParam

variable {p : CreateParam} {s s' : ExtState} {imgSize : MSize} {offsetInBytes i start o : ℕ}
  {calls : List (MSize × ℕ)} {os : List Bool}

/-! ### One call -/

/-- The checks of `setExtParam`, which only look at what does not change. -/
structure Accepted (p : CreateParam) (imgSize : MSize) (offsetInBytes : ℕ) : Prop where
  bits : p.getPlaneBitsPerPixel 0 ≠ 0
  width : toSize imgSize.w ≤ BYTE2PIXEL_size_t (p.getPlaneBitsPerPixel 0) (p.strides 0)
  height : imgSize.h ≤ p.imgSize.h
  size : (p.extSizeInBytes imgSize offsetInBytes + offsetInBytes) % 2 ^ 64 ≤
    (p.sizeInBytes 0 + p.offsetInBytes 0) % 2 ^ 64

/-- **A call that succeeds.** -/
theorem setExtParam_eq_true_iff : p.setExtParam s imgSize offsetInBytes = .ok (true, s') ↔
    p.Accepted imgSize offsetInBytes ∧
      s' = if s.mImgSize ≠ imgSize ∨ s.extOffsetInBytes 0 ≠ offsetInBytes then
        ⟨imgSize, p.extOffset offsetInBytes⟩ else s := by
  rw [setExtParam]
  dsimp only
  split
  · rename_i hbits
    exact iff_of_false nofun fun h => h.1.bits hbits
  split
  · rename_i hbits hdim
    refine iff_of_false (fun h => by cases h) fun h => ?_
    rcases hdim with hw | hh
    · exact absurd h.1.width (Nat.not_le.mpr hw)
    · exact absurd h.1.height (not_le.mpr hh)
  split
  · rename_i hbits hdim hsize
    refine iff_of_false (fun h => by cases h) fun h => ?_
    exact absurd h.1.size (Nat.not_le.mpr hsize)
  · rename_i hbits hdim hsize
    rw [not_or] at hdim
    have haccepted : p.Accepted imgSize offsetInBytes :=
      ⟨hbits, Nat.not_lt.mp hdim.1, not_lt.mp hdim.2, Nat.not_lt.mp hsize⟩
    rw [and_iff_right haccepted]
    split
    · exact ⟨fun h => (Prod.mk.inj (Except.ok.inj h)).2.symm, fun h => by rw [h]⟩
    · exact ⟨fun h => (Prod.mk.inj (Except.ok.inj h)).2.symm, fun h => by rw [h]⟩

theorem ext_of_setExtParam {ret : Bool}
    (h : p.setExtParam s imgSize offsetInBytes = .ok (ret, s')) :
    s' = s ∨ s'.extOffsetInBytes = p.extOffset offsetInBytes := by
  cases ret with
  | false =>
    rw [setExtParam] at h
    dsimp only at h
    split_ifs at h
    · exact .inl (Prod.mk.inj (Except.ok.inj h)).2.symm
    · exact .inl (Prod.mk.inj (Except.ok.inj h)).2.symm
    · exact absurd (Prod.mk.inj (Except.ok.inj h)).1 (by decide)
    · exact absurd (Prod.mk.inj (Except.ok.inj h)).1 (by decide)
  | true =>
    obtain ⟨-, rfl⟩ := setExtParam_eq_true_iff.mp h
    split
    · exact .inr rfl
    · exact .inl rfl

/-- **A second call** changes nothing. -/
theorem setExtParam_again (h : p.setExtParam s imgSize offsetInBytes = .ok (true, s')) :
    p.setExtParam s' imgSize offsetInBytes = .ok (true, s') := by
  obtain ⟨haccepted, rfl⟩ := setExtParam_eq_true_iff.mp h
  refine setExtParam_eq_true_iff.mpr ⟨haccepted, ?_⟩
  by_cases hchanged : s.mImgSize ≠ imgSize ∨ s.extOffsetInBytes 0 ≠ offsetInBytes
  · rw [if_pos hchanged, ite_self]
  · rw [if_neg hchanged, if_neg hchanged]

/-! ### Runs of calls -/

theorem ext_of_runs (hrun : p.extCalls.Runs p.extInit calls s os) :
    ∃ o, s.extOffsetInBytes = p.extOffset o := by
  refine hrun.invariant (I := fun _ s _ => ∃ o, s.extOffsetInBytes = p.extOffset o) ⟨0, ?_⟩ ?_
  · funext i
    rw [extOffset, BYTE2PIXEL_size_t, Nat.zero_shiftLeft, Nat.zero_mod, Nat.zero_div,
      queryPlaneWidthInPixels_zero]
    rfl
  · intro calls s os call s' os' ⟨o, ho⟩ hstep
    rw [extCalls] at hstep
    split at hstep
    · cases hstep
    · rename_i ret s₁ hcall
      obtain ⟨rfl, -⟩ := Prod.mk.inj (Except.ok.inj hstep)
      rcases ext_of_setExtParam hcall with rfl | hset
      · exact ⟨o, ho⟩
      · exact ⟨call.2, hset⟩

/-! ### Bytes and pixels -/

theorem byte2Pixel_eq_self_iff {bpp : ℕ} (hbpp : 8 ≤ bpp) (n : ℕ) :
    BYTE2PIXEL_size_t bpp n = n ↔ n = 0 ∨ bpp = 8 ∧ n < 2 ^ 61 := by
  rw [BYTE2PIXEL_size_t, Nat.shiftLeft_eq]
  constructor
  · intro heq
    by_contra hnot
    rw [not_or] at hnot
    have hle : n * 2 ^ 3 % 2 ^ 64 ≤ n * 2 ^ 3 := Nat.mod_le _ _
    have hlt : n * 2 ^ 3 % 2 ^ 64 < 2 ^ 64 := Nat.mod_lt _ (by decide)
    rcases Nat.lt_or_eq_of_le hbpp with hbpp | rfl
    · -- a pixel of more than a byte
      have hdiv : n * 2 ^ 3 % 2 ^ 64 / bpp ≤ n * 2 ^ 3 % 2 ^ 64 / 9 :=
        Nat.div_le_div_left hbpp (by decide)
      omega
    · omega
  · rintro (rfl | ⟨rfl, hlt⟩)
    · exact Nat.zero_div bpp
    · omega

theorem toSize_natCast {n : ℕ} (h : n < 2 ^ 64) : toSize (n : ℤ) = n := by
  rw [toSize, Int.emod_eq_of_lt (Int.natCast_nonneg n) (by exact_mod_cast h), Int.toNat_natCast]

theorem Accepted.row (h : p.Accepted imgSize offsetInBytes) (hint : imgSize.IsInt) :
    0 ≤ imgSize.w ∧ p.extWidthInBytes imgSize = p.rowInBytes imgSize 0 ∧
      p.rowInBytes imgSize 0 ≤ p.strides 0 := by
  obtain ⟨hwlow, hwhigh, -, -⟩ := hint
  have hbpp := eight_le_bitsPerPixel (planeCount_pos_of_bits h.bits)
  change 8 ≤ p.getPlaneBitsPerPixel 0 at hbpp
  have hwidth := h.width
  rw [BYTE2PIXEL_size_t, Nat.shiftLeft_eq] at hwidth
  have hmod : p.strides 0 * 2 ^ 3 % 2 ^ 64 < 2 ^ 64 := Nat.mod_lt _ (by decide)
  have hmodle : p.strides 0 * 2 ^ 3 % 2 ^ 64 ≤ p.strides 0 * 2 ^ 3 := Nat.mod_le _ _
  have hpixels : p.strides 0 * 2 ^ 3 % 2 ^ 64 / p.getPlaneBitsPerPixel 0 ≤
      p.strides 0 * 2 ^ 3 % 2 ^ 64 / 8 := Nat.div_le_div_left hbpp (by decide)
  have hnonneg : 0 ≤ imgSize.w := by
    rw [toSize] at hwidth
    omega
  obtain ⟨w, hw⟩ := Int.eq_ofNat_of_zero_le hnonneg
  rw [hw, toSize_natCast (by omega)] at hwidth
  have hbits : w * p.getPlaneBitsPerPixel 0 ≤ p.strides 0 * 2 ^ 3 % 2 ^ 64 :=
    (Nat.mul_le_mul_right _ hwidth).trans (Nat.div_mul_le_self _ _)
  have hrow : p.rowInBytes imgSize 0 = w * p.getPlaneBitsPerPixel 0 / 8 +
      if w * p.getPlaneBitsPerPixel 0 % 8 > 0 then 1 else 0 := by
    rw [rowInBytes, (first_plane (planeCount_pos_of_bits h.bits) _).1, hw]
    rfl
  refine ⟨hnonneg, ?_, ?_⟩
  · rw [hrow, extWidthInBytes, hw, ← Int.natCast_mul, toSize_natCast (by omega)]
  · rw [hrow]
    split_ifs <;> omega

/-! ### Windows -/

theorem windowInside_iff : p.WindowInside imgSize i start ↔ p.LastRowInside imgSize i start := by
  rw [WindowInside, LastRowInside]
  constructor
  · intro h
    rcases Nat.eq_zero_or_pos (p.rows imgSize i) with hzero | hpos
    · exact .inl hzero
    · have hlast := h (p.rows imgSize i - 1) (by omega)
      exact .inr (by omega)
  · intro h y hy
    have hlast := h.resolve_left (by omega)
    have hrow : p.strides i * y ≤ p.strides i * (p.rows imgSize i - 1) :=
      Nat.mul_le_mul_left _ (by omega)
    omega

/-- **The check of the first plane** is worth what it says, where nothing wraps around. -/
theorem lastRow_of_success (h : p.Accepted imgSize offsetInBytes) (hint : imgSize.IsInt)
    (hend : p.checkedEnd imgSize offsetInBytes < 2 ^ 64) :
    p.LastRowInside imgSize 0 offsetInBytes := by
  obtain ⟨-, hwidth, hrow⟩ := h.row hint
  have hrows : p.rows imgSize 0 = imgSize.h.toNat :=
    (first_plane (planeCount_pos_of_bits h.bits) _).2
  rcases Nat.eq_zero_or_pos (p.rows imgSize 0) with hzero | hpos
  · exact .inl hzero
  refine .inr ?_
  have hheight : imgSize.h = (p.rows imgSize 0 : ℕ) := by omega
  have hsize := h.size
  have hmod : (p.sizeInBytes 0 + p.offsetInBytes 0) % 2 ^ 64 ≤
      p.sizeInBytes 0 + p.offsetInBytes 0 := Nat.mod_le _ _
  rw [checkedEnd] at hend
  rw [extSizeInBytes] at hsize
  generalize hr : p.rows imgSize 0 = r at *
  obtain ⟨n, rfl⟩ := Nat.exists_eq_add_of_lt hpos
  rw [Nat.zero_add, Nat.add_sub_cancel] at *
  by_cases hoffset : offsetInBytes = 0
  · rw [if_pos hoffset] at hend hsize
    rw [hheight, ← Int.natCast_mul, toSize_natCast hend, hoffset, Nat.add_zero,
      Nat.mod_eq_of_lt hend, Nat.mul_succ] at hsize
    omega
  · rw [if_neg hoffset] at hend hsize
    have hpred : imgSize.h - 1 = (n : ℕ) := by omega
    rw [hpred, hwidth, ← Int.natCast_mul, ← Int.natCast_add, toSize_natCast (by omega),
      Nat.mod_eq_of_lt (by omega)] at hsize
    omega

/-! ### The offsets -/

theorem extOffset_first (hcount : 0 < p.getPlaneCount) (o : ℕ) :
    p.extOffset o 0 = BYTE2PIXEL_size_t (p.getPlaneBitsPerPixel 0) o :=
  (first_plane hcount _).1

/-- **The offset of the first plane**, after a call that succeeds. -/
theorem ext_first_iff (h : p.setExtParam s imgSize offsetInBytes = .ok (true, s')) :
    s'.extOffsetInBytes 0 = offsetInBytes ↔
      offsetInBytes = 0 ∨ p.getPlaneBitsPerPixel 0 = 8 ∧ offsetInBytes < 2 ^ 61 ∨
        s.mImgSize = imgSize ∧ s.extOffsetInBytes 0 = offsetInBytes := by
  obtain ⟨haccepted, rfl⟩ := setExtParam_eq_true_iff.mp h
  have hcount := planeCount_pos_of_bits haccepted.bits
  have hbpp : 8 ≤ p.getPlaneBitsPerPixel 0 := eight_le_bitsPerPixel hcount
  split
  · rename_i hchanged
    have hnot : ¬ (s.mImgSize = imgSize ∧ s.extOffsetInBytes 0 = offsetInBytes) :=
      not_and_or.mpr hchanged
    rw [or_iff_left hnot]
    change p.extOffset offsetInBytes 0 = offsetInBytes ↔ _
    rw [extOffset_first hcount]
    exact byte2Pixel_eq_self_iff hbpp offsetInBytes
  · rename_i hsame
    obtain ⟨hsize, hext⟩ := not_or.mp hsame
    exact iff_of_true (not_not.mp hext) (.inr (.inr ⟨not_not.mp hsize, not_not.mp hext⟩))

/-- **The offsets of the other planes**, after a call that sets the one of the first plane. -/
theorem ext_other (hrun : p.extCalls.Runs p.extInit calls s os)
    (h : p.setExtParam s imgSize offsetInBytes = .ok (true, s'))
    (hfirst : s'.extOffsetInBytes 0 = offsetInBytes) (hpos : 0 < i) (hi : i < p.getPlaneCount) :
    s'.extOffsetInBytes i = 8 * offsetInBytes / p.getPlaneBitsPerPixel i / 2 := by
  have hbits : p.getPlaneBitsPerPixel 0 = 8 := (half_width hpos hi).1
  -- the offsets before the call are those of an earlier one
  obtain ⟨o, ho⟩ : ∃ o, s'.extOffsetInBytes = p.extOffset o := by
    rcases ext_of_setExtParam h with rfl | hset
    · exact ext_of_runs hrun
    · exact ⟨offsetInBytes, hset⟩
  rw [ho, extOffset_first (by omega), hbits, BYTE2PIXEL_size_t, Nat.shiftLeft_eq] at hfirst
  have hmod : o * 2 ^ 3 % 2 ^ 64 = 8 * offsetInBytes := by omega
  rw [ho, extOffset, (half_width hpos hi).2, BYTE2PIXEL_size_t, Nat.shiftLeft_eq, hmod]

end CreateParam

def grayParam : CreateParam := ⟨⟨16, 4⟩, .Y8, fun _ => 16, 0⟩

/-- A heap of an image of sixteen by four pixels of two bytes. -/
def yuy2Heap : ImageBufferHeap where
  mImgFormat := .YUY2
  mImgSize := ⟨16, 4⟩
  mvBufInfo := [⟨32, 128⟩]
  format_valid := rfl
  format_ne := by decide
  size_pos := by decide
  planes_length := rfl
  strides_pos := by decide

end MtkHardware.ImgBuf
