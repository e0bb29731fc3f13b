import MtkHardware.ImgBuf.Format
import MtkHardware.ImgBuf.LockCount
import MtkHardware.Util.Regions

/-!
# The Geometry of Image Buffers

An image buffer is created from a heap with an offset, a size, a format and the strides of its
planes. Whether it fits is checked in `onCreate`, by the format of the heap; where its planes are is
computed in `lockBuf`, by the number of planes of the heap. The two do not agree in a BLOB heap,
where the check leaves out the offset that `getBufVA` adds to every plane.

Sizes are natural numbers: no operation on `size_t` overflows.
-/

namespace MtkHardware.ImgBuf

open Format

/-- A size of two `int` values. -/
structure MSize where
  w : ℤ
  h : ℤ
  deriving DecidableEq, Repr

/-- A `size_t` as an `int`. -/
def toInt (n : ℕ) : ℤ := (n : ℤ).bmod (2 ^ 32)

/-- An `int` as a `size_t`. -/
def toSize (z : ℤ) : ℕ := (z % 2 ^ 64).toNat

def BYTE2PIXEL (bpp byte : ℕ) : ℕ := (byte <<< 3) / bpp

def PIXEL2BYTE (bpp pixel : ℕ) : ℕ := (pixel * bpp) >>> 3

/-! ### The heap -/

structure PlaneSize where
  stridesInBytes : ℕ
  sizeInBytes : ℕ
  deriving DecidableEq, Repr

/-- The image of a heap, as `onCreate` and `initLocked` of the heap leave it. -/
structure ImageBufferHeap where
  mImgFormat : EImageFormat
  mImgSize : MSize
  mvBufInfo : List PlaneSize
  format_valid : checkValidFormat mImgFormat = true
  format_ne : mImgFormat ≠ .JPEG
  size_pos : 0 < mImgSize.w ∧ 0 < mImgSize.h
  planes_length : mvBufInfo.length = queryPlaneCount mImgFormat
  strides_pos : ∀ p ∈ mvBufInfo, 0 < p.stridesInBytes

namespace ImageBufferHeap

def getPlaneCount (heap : ImageBufferHeap) : ℕ := queryPlaneCount heap.mImgFormat

def getBufStridesInBytes (heap : ImageBufferHeap) (index : ℕ) : ℕ :=
  match heap.mvBufInfo[index]? with
  | some p => p.stridesInBytes
  | none => 0

def getBufSizeInBytes (heap : ImageBufferHeap) (index : ℕ) : ℕ :=
  match heap.mvBufInfo[index]? with
  | some p => p.sizeInBytes
  | none => 0

end ImageBufferHeap

/-! ### Creation -/

structure CreateParam where
  imgSize : MSize
  imgFormat : EImageFormat
  strides : ℕ → ℕ
  offset : ℕ

inductive CreateCall
  | createImageBuffer
  | createImageBuffer_FromBlobHeap (offsetInBytes sizeInBytes : ℕ)
  | createImageBuffer_FromBlobHeap_format (offsetInBytes : ℕ) (imgFormat : EImageFormat)
      (imgSize : MSize) (bufStridesInBytes : ℕ → ℕ)
  | createImageBuffer_SideBySide (isRightSide : Bool)

/-- What a call passes on to the image buffer, unless the format of the heap is illegal. -/
def ImageBufferHeap.param (heap : ImageBufferHeap) : CreateCall → Option CreateParam
  | .createImageBuffer =>
    some ⟨heap.mImgSize, heap.mImgFormat, heap.getBufStridesInBytes, 0⟩
  | .createImageBuffer_FromBlobHeap offsetInBytes sizeInBytes =>
    if heap.mImgFormat ≠ .BLOB ∧ heap.mImgFormat ≠ .CAMERA_OPAQUE then none
    else
      some ⟨⟨toInt sizeInBytes, heap.mImgSize.h⟩, heap.mImgFormat,
        fun i => if i = 0 then sizeInBytes else 0, offsetInBytes⟩
  | .createImageBuffer_FromBlobHeap_format offsetInBytes imgFormat imgSize bufStridesInBytes =>
    if heap.mImgFormat ≠ .BLOB ∧ heap.mImgFormat ≠ .CAMERA_OPAQUE then none
    else some ⟨imgSize, imgFormat, bufStridesInBytes, offsetInBytes⟩
  | .createImageBuffer_SideBySide isRightSide =>
    let imgWidth := toSize (heap.mImgSize.w / 2)
    let imgHeight := toSize heap.mImgSize.h
    let offset :=
      if isRightSide then (imgWidth * queryPlaneBitsPerPixel heap.mImgFormat 0) >>> 3 else 0
    some ⟨⟨toInt imgWidth, toInt imgHeight⟩, heap.mImgFormat,
      fun i =>
        if heap.mImgFormat = .BLOB then heap.getBufStridesInBytes i >>> 1
        else heap.getBufStridesInBytes i, offset⟩

namespace CreateParam

variable (p : CreateParam) (i : ℕ)

def getPlaneCount : ℕ := queryPlaneCount p.imgFormat

def getPlaneBitsPerPixel : ℕ := queryPlaneBitsPerPixel p.imgFormat i

def imgWidthInPixels : ℕ := queryPlaneWidthInPixels p.imgFormat i (toSize p.imgSize.w)

def imgHeightInPixels : ℕ := queryPlaneHeightInPixels p.imgFormat i (toSize p.imgSize.h)

def imgWidthInBytes : ℕ :=
  p.imgWidthInPixels i * p.getPlaneBitsPerPixel i / 8 +
    if p.imgWidthInPixels i * p.getPlaneBitsPerPixel i % 8 > 0 then 1 else 0

def offsetInBytes : ℕ :=
  PIXEL2BYTE (p.getPlaneBitsPerPixel i)
    (queryPlaneWidthInPixels p.imgFormat i (BYTE2PIXEL (p.getPlaneBitsPerPixel i) p.offset))

def sizeInBytes : ℕ :=
  match p.imgFormat with
  | .JPEG | .BLOB => p.strides i
  | _ =>
    if p.offsetInBytes i = 0 then p.strides i * p.imgHeightInPixels i
    else p.strides i * (p.imgHeightInPixels i - 1) + p.imgWidthInBytes i

def StridesOk : Prop := ¬ (p.strides i ≤ 0 ∨ p.strides i < p.imgWidthInBytes i)

instance : Decidable (p.StridesOk i) := inferInstanceAs (Decidable (¬ _))

def IsBlob : Prop := p.imgFormat = .BLOB ∨ p.imgFormat = .JPEG

instance : Decidable p.IsBlob := inferInstanceAs (Decidable (_ ∨ _))

/-- What `onCreate` stores for a plane. -/
def info : ImgBufInfo where
  stridesInBytes := p.strides i
  sizeInBytes := p.sizeInBytes i
  offsetInBytes := p.offsetInBytes i

end CreateParam

def RoiOk (heap : ImageBufferHeap) (p : CreateParam) (i : ℕ) : Prop :=
  let planeStartXInBytes := p.offsetInBytes i % heap.getBufStridesInBytes i
  let planeStartYInBytes := p.offsetInBytes i / heap.getBufStridesInBytes i
  let planeStartXInPixels := BYTE2PIXEL (p.getPlaneBitsPerPixel i) planeStartXInBytes
  let planeStartYInPixels := BYTE2PIXEL (p.getPlaneBitsPerPixel i) planeStartYInBytes
  let planeStridesInPixels :=
    BYTE2PIXEL (p.getPlaneBitsPerPixel i) (heap.getBufStridesInBytes i)
  let planeHeightInPixels := queryPlaneHeightInPixels p.imgFormat i (toSize p.imgSize.h)
  ¬ (toSize (toInt planeStartXInPixels) + toSize (toInt (p.imgWidthInPixels i)) >
      planeStridesInPixels ∨
    toSize (toInt planeStartYInPixels) + toSize (toInt (p.imgHeightInPixels i)) >
      planeHeightInPixels)

def PlaneFits (heap : ImageBufferHeap) (p : CreateParam) (i : ℕ) : Prop :=
  ¬ p.offsetInBytes i + p.sizeInBytes i > heap.getBufSizeInBytes i

instance (heap : ImageBufferHeap) (p : CreateParam) (i : ℕ) : Decidable (RoiOk heap p i) :=
  inferInstanceAs (Decidable (¬ _))

instance (heap : ImageBufferHeap) (p : CreateParam) (i : ℕ) : Decidable (PlaneFits heap p i) :=
  inferInstanceAs (Decidable (¬ _))

inductive Fault
  | divisionByZero
  deriving DecidableEq, Repr

/-- One iteration of the loop of `onCreate`: a division by the bits of a pixel comes first, and the
ones by the strides of the heap come after the check of the strides. -/
def onCreatePlane (heap : ImageBufferHeap) (p : CreateParam) (i : ℕ) :
    Except Fault (Option ImgBufInfo) :=
  if p.getPlaneBitsPerPixel i = 0 then .error .divisionByZero
  else if ¬ p.StridesOk i then .ok none
  else if heap.mImgFormat ≠ .BLOB then
    if heap.getBufStridesInBytes i = 0 then .error .divisionByZero
    else if ¬ RoiOk heap p i then .ok none
    else if ¬ PlaneFits heap p i then .ok none
    else .ok (some (p.info i))
  else if p.IsBlob ∧ ¬ PlaneFits heap p i then .ok none
  else .ok (some (p.info i))

/-- The loop of `onCreate`, over `n` planes from the `i`-th on. -/
def onCreatePlanes (heap : ImageBufferHeap) (p : CreateParam) :
    ℕ → ℕ → Except Fault (Option (List ImgBufInfo))
  | _, 0 => .ok (some [])
  | i, n + 1 =>
    match onCreatePlane heap p i with
    | .error e => .error e
    | .ok none => .ok none
    | .ok (some info) =>
      match onCreatePlanes heap p (i + 1) n with
      | .ok (some infos) => .ok (some (info :: infos))
      | r => r

/-- `BaseImageBuffer::onCreate`: **the planes**, unless it answers false. -/
def onCreate (heap : ImageBufferHeap) (p : CreateParam) :
    Except Fault (Option (List ImgBufInfo)) :=
  match onCreatePlanes heap p 0 p.getPlaneCount with
  | .ok (some infos) =>
    if heap.mImgFormat = .BLOB ∧ p.imgFormat ≠ .BLOB ∧
        (infos.map (·.sizeInBytes)).sum > heap.getBufSizeInBytes 0 then .ok none
    else .ok (some infos)
  | r => r

/-! ### What `onCreate` answers -/

variable {heap : ImageBufferHeap} {p : CreateParam} {i n : ℕ} {infos : List ImgBufInfo}

structure Passes (heap : ImageBufferHeap) (p : CreateParam) (i : ℕ) : Prop where
  strides : p.StridesOk i
  image : heap.mImgFormat ≠ .BLOB →
    heap.getBufStridesInBytes i ≠ 0 ∧ RoiOk heap p i ∧ PlaneFits heap p i
  blob : heap.mImgFormat = .BLOB → p.IsBlob → PlaneFits heap p i

def Faults (heap : ImageBufferHeap) (p : CreateParam) (i : ℕ) : Prop :=
  p.StridesOk i ∧ heap.mImgFormat ≠ .BLOB ∧ heap.getBufStridesInBytes i = 0

theorem getBufStridesInBytes_eq_zero_iff :
    heap.getBufStridesInBytes i = 0 ↔ heap.getPlaneCount ≤ i := by
  rw [ImageBufferHeap.getBufStridesInBytes, ImageBufferHeap.getPlaneCount, ← heap.planes_length]
  cases hplane : heap.mvBufInfo[i]? with
  | none => exact iff_of_true rfl (List.getElem?_eq_none_iff.mp hplane)
  | some q =>
    have hpos := heap.strides_pos q (List.mem_of_getElem? hplane)
    obtain ⟨hlt, -⟩ := List.getElem?_eq_some_iff.mp hplane
    exact iff_of_false (by dsimp only; omega) (by omega)

/-- **One plane.** -/
theorem onCreatePlane_spec (heap : ImageBufferHeap) (hi : i < p.getPlaneCount) :
    (∀ e, onCreatePlane heap p i = .error e ↔ Faults heap p i) ∧
      ∀ info, onCreatePlane heap p i = .ok (some info) ↔ info = p.info i ∧ Passes heap p i := by
  have hbits : p.getPlaneBitsPerPixel i ≠ 0 := (bitsPerPixel_pos hi).ne'
  rw [onCreatePlane, if_neg hbits, Faults]
  by_cases hstrides : p.StridesOk i
  · rw [if_neg (not_not.mpr hstrides)]
    by_cases hblob : heap.mImgFormat = .BLOB
    · rw [if_neg (not_not.mpr hblob)]
      split
      · rename_i hbad
        refine ⟨fun e => iff_of_false nofun fun h => h.2.1 hblob,
          fun info => iff_of_false nofun fun h => hbad.2 (h.2.blob hblob hbad.1)⟩
      · rename_i hgood
        refine ⟨fun e => iff_of_false nofun fun h => h.2.1 hblob, fun info => ?_⟩
        have hpass : Passes heap p i := ⟨hstrides, fun h => absurd hblob h,
          fun _ his => not_not.mp fun hnot => hgood ⟨his, hnot⟩⟩
        simp only [Except.ok.injEq, Option.some.injEq, and_iff_left hpass, eq_comm]
    · rw [if_pos hblob]
      split
      · rename_i hzero
        exact ⟨fun e => iff_of_true (by cases e; rfl) ⟨hstrides, hblob, hzero⟩,
          fun info => iff_of_false nofun fun h => (h.2.image hblob).1 hzero⟩
      · rename_i hzero
        refine ⟨fun e => iff_of_false (fun h => ?_) fun h => hzero h.2.2, fun info => ?_⟩
        · split at h
          · cases h
          · split at h <;> cases h
        · split
          · rename_i hroi
            exact iff_of_false nofun fun h => hroi (h.2.image hblob).2.1
          · rename_i hroi
            split
            · rename_i hfits
              exact iff_of_false nofun fun h => hfits (h.2.image hblob).2.2
            · rename_i hfits
              have hpass : Passes heap p i := ⟨hstrides,
                fun _ => ⟨hzero, not_not.mp hroi, not_not.mp hfits⟩, fun h => absurd h hblob⟩
              simp only [Except.ok.injEq, Option.some.injEq, and_iff_left hpass, eq_comm]
  · rw [if_pos hstrides]
    exact ⟨fun e => iff_of_false nofun fun h => hstrides h.1,
      fun info => iff_of_false nofun fun h => hstrides h.2.strides⟩

/-- **The loop.** -/
theorem onCreatePlanes_spec (heap : ImageBufferHeap) (hn : i + n ≤ p.getPlaneCount) :
    (∀ e, onCreatePlanes heap p i n = .error e ↔
      ∃ m ∈ List.range' i n, Faults heap p m ∧ ∀ k ∈ List.range' i n, k < m → Passes heap p k) ∧
    ∀ infos, onCreatePlanes heap p i n = .ok (some infos) ↔
      infos = (List.range' i n).map p.info ∧ ∀ m ∈ List.range' i n, Passes heap p m := by
  induction n generalizing i with
  | zero => simp [onCreatePlanes, eq_comm]
  | succ n ih =>
    obtain ⟨herror, hsome⟩ := onCreatePlane_spec heap (show i < p.getPlaneCount by omega)
    obtain ⟨herrors, hsomes⟩ := ih (show i + 1 + n ≤ p.getPlaneCount by omega)
    have hhead : ∀ m ∈ List.range' (i + 1) n, i < m := fun m hm => (List.mem_range'_1.mp hm).1
    have hnot : ¬ Passes heap p i → ¬ Faults heap p i →
        ¬ ∃ m ∈ List.range' i (n + 1), Faults heap p m ∧
          ∀ k ∈ List.range' i (n + 1), k < m → Passes heap p k := by
      rintro hpass hfault ⟨m, hm, hfaultm, hpassed⟩
      rw [List.range'_succ] at hm hpassed
      rcases List.mem_cons.mp hm with rfl | hm
      · exact hfault hfaultm
      · exact hpass (hpassed i List.mem_cons_self (hhead m hm))
    rw [onCreatePlanes]
    cases hplane : onCreatePlane heap p i with
    | error e =>
      have hfault := (herror e).mp hplane
      have hpass : ¬ Passes heap p i := fun h => by
        cases hplane.symm.trans ((hsome _).mpr ⟨rfl, h⟩)
      refine ⟨fun e' => iff_of_true (by cases e; cases e'; rfl) ⟨i, ?_, hfault, ?_⟩,
        fun infos => iff_of_false nofun fun h => hpass (h.2 i ?_)⟩
      · exact List.mem_range'_1.mpr ⟨Nat.le_refl i, by omega⟩
      · exact fun k hk hlt => absurd (List.mem_range'_1.mp hk).1 (by omega)
      · exact List.mem_range'_1.mpr ⟨Nat.le_refl i, by omega⟩
    | ok r =>
      have hfault : ¬ Faults heap p i := fun h => by
        cases hplane.symm.trans ((herror .divisionByZero).mpr h)
      cases r with
      | none =>
        have hpass : ¬ Passes heap p i := fun h => by
          cases hplane.symm.trans ((hsome _).mpr ⟨rfl, h⟩)
        refine ⟨fun e => iff_of_false nofun (hnot hpass hfault),
          fun infos => iff_of_false nofun fun h => hpass (h.2 i ?_)⟩
        exact List.mem_range'_1.mpr ⟨Nat.le_refl i, by omega⟩
      | some info =>
        obtain ⟨rfl, hpass⟩ := (hsome info).mp hplane
        rw [List.range'_succ]
        constructor
        · intro e
          have hrest : (∃ m ∈ i :: List.range' (i + 1) n, Faults heap p m ∧
              ∀ k ∈ i :: List.range' (i + 1) n, k < m → Passes heap p k) ↔
              ∃ m ∈ List.range' (i + 1) n, Faults heap p m ∧
                ∀ k ∈ List.range' (i + 1) n, k < m → Passes heap p k := by
            simp only [List.exists_mem_cons_iff, List.forall_mem_cons, hfault, false_and,
              false_or, hpass, implies_true, true_and]
          rw [hrest, ← herrors e]
          cases onCreatePlanes heap p (i + 1) n with
          | error e' => rfl
          | ok r => cases r <;> exact iff_of_false nofun nofun
        · intro infos
          rw [List.map_cons, List.forall_mem_cons, and_iff_right hpass]
          cases hrest : onCreatePlanes heap p (i + 1) n with
          | error e' =>
            refine iff_of_false nofun fun h => ?_
            cases hrest.symm.trans ((hsomes _).mpr ⟨rfl, h.2⟩)
          | ok r =>
            cases r with
            | none =>
              refine iff_of_false nofun fun h => ?_
              cases hrest.symm.trans ((hsomes _).mpr ⟨rfl, h.2⟩)
            | some rest =>
              obtain ⟨rfl, hall⟩ := (hsomes rest).mp hrest
              simp only [Except.ok.injEq, Option.some.injEq, and_iff_left hall, eq_comm]

theorem range'_zero (n : ℕ) : List.range' 0 n = List.range n := List.range_eq_range'.symm

def CreateParam.sizeBefore (p : CreateParam) (i : ℕ) : ℕ :=
  ((List.range i).map p.sizeInBytes).sum

/-- **A division by zero** is where a plane comes up that the heap has not. -/
theorem onCreate_eq_error_iff (e : Fault) : onCreate heap p = .error e ↔
    ∃ m < p.getPlaneCount, Faults heap p m ∧ ∀ k < m, Passes heap p k := by
  obtain ⟨herror, -⟩ := onCreatePlanes_spec heap (Nat.zero_add p.getPlaneCount).le
  have hiff := herror e
  simp only [range'_zero, List.mem_range] at hiff
  have hrun : onCreate heap p = .error e ↔
      onCreatePlanes heap p 0 p.getPlaneCount = .error e := by
    rw [onCreate]
    cases onCreatePlanes heap p 0 p.getPlaneCount with
    | error e' => rfl
    | ok r =>
      cases r with
      | none => exact iff_of_false nofun nofun
      | some infos =>
        dsimp only
        split <;> exact iff_of_false nofun nofun
  rw [hrun, hiff]
  refine exists_congr fun m => and_congr_right fun hm => and_congr_right fun _ => ?_
  exact ⟨fun h k hk => h k (hk.trans hm) hk, fun h k _ hk => h k hk⟩

/-- **The planes** of an image buffer that is created. -/
theorem onCreate_eq_some_iff (infos : List ImgBufInfo) : onCreate heap p = .ok (some infos) ↔
    infos = (List.range p.getPlaneCount).map p.info ∧ (∀ m < p.getPlaneCount, Passes heap p m) ∧
      (heap.mImgFormat = .BLOB → p.imgFormat ≠ .BLOB →
        p.sizeBefore p.getPlaneCount ≤ heap.getBufSizeInBytes 0) := by
  obtain ⟨-, hsome⟩ := onCreatePlanes_spec heap (Nat.zero_add p.getPlaneCount).le
  simp only [range'_zero, List.mem_range] at hsome
  have hsum : (((List.range p.getPlaneCount).map p.info).map (·.sizeInBytes)).sum =
      p.sizeBefore p.getPlaneCount := by
    rw [List.map_map]
    rfl
  rw [onCreate]
  cases hrun : onCreatePlanes heap p 0 p.getPlaneCount with
  | error e =>
    refine iff_of_false nofun fun h => ?_
    cases hrun.symm.trans ((hsome _).mpr ⟨rfl, h.2.1⟩)
  | ok r =>
    cases r with
    | none =>
      refine iff_of_false nofun fun h => ?_
      cases hrun.symm.trans ((hsome _).mpr ⟨rfl, h.2.1⟩)
    | some planes =>
      obtain ⟨rfl, hall⟩ := (hsome planes).mp hrun
      dsimp only
      rw [hsum]
      split
      · rename_i hbig
        refine iff_of_false nofun fun h => ?_
        exact absurd (h.2.2 hbig.1 hbig.2.1) (not_le.mpr hbig.2.2)
      · rename_i hfits
        have hsize : heap.mImgFormat = .BLOB → p.imgFormat ≠ .BLOB →
            p.sizeBefore p.getPlaneCount ≤ heap.getBufSizeInBytes 0 := fun hblob hformat =>
          not_lt.mp fun hlt => hfits ⟨hblob, hformat, hlt⟩
        rw [Except.ok.injEq, Option.some.injEq]
        exact ⟨fun h => ⟨h.symm, hall, hsize⟩, fun h => h.1.symm⟩

/-! ### Where the planes are after a lock -/

namespace BaseImageBuffer

/-- The virtual address of a plane; legal only after a lock with SW usage. -/
def getBufVA (buf : BaseImageBuffer) (index : ℕ) : MIntPtr :=
  match buf.mvImgBufInfo[index]? with
  | none => 0
  | some info =>
    if buf.mLockCount = 0 ∨ buf.mLockUsage &&& eBUFFER_USAGE_SW_MASK = 0 then 0
    else info.va + BitVec.ofNat 64 info.offsetInBytes

def getBufSizeInBytes (buf : BaseImageBuffer) (index : ℕ) : ℕ :=
  match buf.mvImgBufInfo[index]? with
  | none => 0
  | some info => info.sizeInBytes

variable {ion ion' : IonImageBufferHeap} {buf buf' : BaseImageBuffer} {env : IonEnv}
  {usage : Usage} {k : ℕ} {rs rs' : List BufInfo}

theorem readPlanes_get (h : readPlanes ion usage k rs = (true, rs')) (i : ℕ) :
    rs'[i]? = rs[i]?.map (readPlane ion usage (k + i)) ∧
      ∀ r ∈ rs', HasAddresses usage r := by
  induction rs generalizing k rs' i with
  | nil =>
    cases h
    simp
  | cons r rs ih =>
    rw [readPlanes] at h
    split at h
    · rename_i haddr
      obtain ⟨hok, rfl⟩ := Prod.mk.inj h
      have hrest : readPlanes ion usage (k + 1) rs =
          (true, (readPlanes ion usage (k + 1) rs).2) := Prod.ext hok rfl
      refine ⟨?_, List.forall_mem_cons.mpr ⟨haddr, (ih hrest 0).2⟩⟩
      cases i with
      | zero => rfl
      | succ i =>
        rw [List.getElem?_cons_succ, List.getElem?_cons_succ, (ih hrest i).1]
        congr 2
        omega
    · cases h

/-- **A buffer that is locked** has the addresses of the heap. -/
theorem lockBufLocked_true (h : lockBufLocked ion buf env usage = .ok (true, ion', buf')) :
    ion'.mPlaneCount = buf.mvBufHeapInfo.length ∧ buf'.mvImgBufInfo = buf.mvImgBufInfo ∧
      buf'.mLockCount = buf.mLockCount + 1 ∧ buf'.mLockUsage = usage ∧
      (∀ i, buf'.mvBufHeapInfo[i]? = buf.mvBufHeapInfo[i]?.map (readPlane ion' usage i)) ∧
      ∀ r ∈ buf'.mvBufHeapInfo, HasAddresses usage r := by
  rw [lockBufLocked] at h
  split at h
  · cases h
  · split at h
    · cases h
    · rename_i heap₁ _
      split at h
      · cases h
      · rename_i hcount
        cases hread : readPlanes heap₁ usage 0 buf.mvBufHeapInfo with
        | mk ok rs' =>
          rw [hread] at h
          cases ok with
          | false => cases h
          | true =>
            cases h
            refine ⟨not_not.mp hcount, rfl, rfl, rfl, fun i => ?_, (readPlanes_get hread 0).2⟩
            rw [(readPlanes_get hread i).1, Nat.zero_add]

theorem placeBehind_get {va₀ : MIntPtr} (pa₀ : MIntPtr) (hva : va₀ ≠ 0) (prev : ImgBufInfo)
    {infos : List ImgBufInfo} {info : ImgBufInfo} {i : ℕ} (hi : infos[i]? = some info) :
    ∃ info', (placeBehind va₀ pa₀ prev infos)[i]? = some info' ∧
      info'.offsetInBytes = info.offsetInBytes ∧ info'.sizeInBytes = info.sizeInBytes ∧
      info'.va = prev.va +
        BitVec.ofNat 64 (prev.sizeInBytes + ((infos.take i).map (·.sizeInBytes)).sum) := by
  induction infos generalizing prev i with
  | nil => cases hi
  | cons first infos ih =>
    rw [placeBehind]
    cases i with
    | zero =>
      cases hi
      exact ⟨_, rfl, rfl, rfl, if_neg hva⟩
    | succ i =>
      obtain ⟨info', hget, hoffset, hsize, hplace⟩ := ih { first with
        pa := if pa₀ = 0 then 0 else prev.pa + BitVec.ofNat 64 prev.sizeInBytes
        va := if va₀ = 0 then 0 else prev.va + BitVec.ofNat 64 prev.sizeInBytes } hi
      refine ⟨info', hget, hoffset, hsize, ?_⟩
      rw [hplace, List.take_succ_cons, List.map_cons, List.sum_cons]
      dsimp only
      rw [if_neg hva, BitVec.ofNat_add, BitVec.ofNat_add, BitVec.ofNat_add, BitVec.add_assoc]

/-- **The addresses of the planes** after a lock: those of the heap, where it has as many planes,
and else one behind the other in its first plane. -/
theorem lockBuf_va {locked : Bool} {info : ImgBufInfo} {i : ℕ}
    (h : lockBuf ion buf env usage = .ok (true, locked, ion', buf'))
    (husage : usage &&& eBUFFER_USAGE_SW_MASK ≠ 0) (hi : buf.mvImgBufInfo[i]? = some info)
    (hplanes : 0 < buf.mvBufHeapInfo.length) :
    buf'.getBufSizeInBytes i = info.sizeInBytes ∧ buf'.getBufVA i =
      (if buf.mvImgBufInfo.length = buf.mvBufHeapInfo.length then ion'.getBufVA i
        else ion'.getBufVA 0 +
          BitVec.ofNat 64 ((buf.mvImgBufInfo.take i).map (·.sizeInBytes)).sum) +
        BitVec.ofNat 64 info.offsetInBytes := by
  rw [lockBuf] at h
  cases hlock : lockBufLocked ion buf env usage with
  | error e => simp [hlock] at h
  | ok r =>
    obtain ⟨ok, ion₁, buf₁⟩ := r
    simp only [hlock, Except.ok.injEq, Prod.mk.injEq] at h
    obtain ⟨rfl, -, rfl, rfl⟩ := h
    obtain ⟨hcount, hinfos, hlocks, husage', hread, haddr⟩ := lockBufLocked_true hlock
    have hlegal : ¬ (buf₁.mLockCount = 0 ∨ buf₁.mLockUsage &&& eBUFFER_USAGE_SW_MASK = 0) := by
      rw [hlocks, husage']
      exact not_or.mpr ⟨by omega, husage⟩
    have hplaced : ∃ info', (if buf₁.mvImgBufInfo.length = ion₁.mPlaneCount then
          copyAddresses buf₁.mvImgBufInfo buf₁.mvBufHeapInfo
        else placeAll (buf₁.mvBufHeapInfo.headD {}) buf₁.mvImgBufInfo)[i]? = some info' ∧
        info'.offsetInBytes = info.offsetInBytes ∧ info'.sizeInBytes = info.sizeInBytes ∧
        info'.va =
          (if buf.mvImgBufInfo.length = buf.mvBufHeapInfo.length then ion₁.getBufVA i
            else ion₁.getBufVA 0 +
              BitVec.ofNat 64 ((buf.mvImgBufInfo.take i).map (·.sizeInBytes)).sum) := by
      rw [hcount, hinfos]
      split
      · rename_i hsame
        have hi' : i < buf.mvBufHeapInfo.length := by
          rw [← hsame]
          exact (List.getElem?_eq_some_iff.mp hi).1
        have hget := (hread i).trans (by rw [List.getElem?_eq_getElem hi', Option.map_some])
        refine ⟨{ info with
          va := (readPlane ion₁ usage i buf.mvBufHeapInfo[i]).va
          pa := (readPlane ion₁ usage i buf.mvBufHeapInfo[i]).pa }, ?_, rfl, rfl,
          if_pos husage⟩
        rw [copyAddresses, List.getElem?_zipWith, hi, hget]
      · have hget := (hread 0).trans (by rw [List.getElem?_eq_getElem hplanes, Option.map_some])
        set first := readPlane ion₁ usage 0 buf.mvBufHeapInfo[0] with hfirst
        have hhead : buf₁.mvBufHeapInfo.headD {} = first := by
          rw [List.headD_eq_head?_getD, List.head?_eq_getElem?, hget, Option.getD_some]
        have hva : first.va ≠ 0 := (haddr first (List.mem_of_getElem? hget)).1 husage
        have hva' : first.va = ion₁.getBufVA 0 := if_pos husage
        rw [hhead, ← hva']
        cases hcase : buf.mvImgBufInfo with
        | nil =>
          rw [hcase] at hi
          cases hi
        | cons info₀ infos =>
          rw [hcase] at hi
          rw [placeAll]
          cases i with
          | zero =>
            cases hi
            exact ⟨_, rfl, rfl, rfl, by simp⟩
          | succ i =>
            exact placeBehind_get first.pa hva
              { info₀ with va := first.va, pa := first.pa }
              (List.getElem?_cons_succ.symm.trans hi)
    obtain ⟨info', hget, hoffset, hsize, hva⟩ := hplaced
    constructor
    · rw [getBufSizeInBytes, hget]
      exact hsize
    · rw [getBufVA, hget]
      dsimp only
      rw [if_neg hlegal, hva, hoffset]

end BaseImageBuffer

/-! ### Sound geometry -/

/-- The heap that is locked, and unlocked, has the planes of the heap. -/
def IonImageBufferHeap.Of (ion : IonImageBufferHeap) (heap : ImageBufferHeap) : Prop :=
  ion.mPlaneCount = heap.getPlaneCount ∧
    ion.planes.map (fun q => (⟨q.info.stridesInBytes, q.info.sizeInBytes⟩ : PlaneSize)) =
      heap.mvBufInfo

def newBuffer (heap : ImageBufferHeap) (infos : List ImgBufInfo) : BaseImageBuffer where
  mvBufHeapInfo := heap.mvBufInfo.map fun q =>
    { stridesInBytes := q.stridesInBytes, sizeInBytes := q.sizeInBytes }
  mvImgBufInfo := infos

/-- Where a plane is, behind the address of the one plane of a heap. -/
def CreateParam.planeStart (p : CreateParam) (i : ℕ) : ℕ := p.sizeBefore i + p.offsetInBytes i

/-- No operation on `size_t` overflows. -/
structure NoOverflow (heap : ImageBufferHeap) (p : CreateParam) : Prop where
  heap : ∀ i, heap.getBufSizeInBytes i < 2 ^ 64
  image : ∀ i < p.getPlaneCount, p.planeStart i + p.sizeInBytes i < 2 ^ 64
  height : ∀ i < p.getPlaneCount, p.offsetInBytes i ≠ 0 → 0 < p.imgHeightInPixels i

/-- **The geometry is sound**: nothing is divided by zero, and after a lock the planes of a buffer
that is created are inside planes of the heap, and apart in a BLOB heap. -/
structure GeometrySound (heap : ImageBufferHeap) (p : CreateParam) : Prop where
  divides : ∀ e, onCreate heap p ≠ .error e
  planes : ∀ infos, onCreate heap p = .ok (some infos) →
    ∀ (ion ion' : IonImageBufferHeap) (env : IonEnv) (usage : Usage) (r : Bool)
      (buf : BaseImageBuffer), ion.Of heap → usage &&& eBUFFER_USAGE_SW_MASK ≠ 0 →
      BaseImageBuffer.lockBuf ion (newBuffer heap infos) env usage = .ok (true, r, ion', buf) →
      (∀ i < p.getPlaneCount, ∃ j < heap.getPlaneCount,
        bytes (buf.getBufVA i) (buf.getBufSizeInBytes i) ⊆
          bytes (ion'.getBufVA j) (heap.getBufSizeInBytes j)) ∧
      (heap.mImgFormat = .BLOB → ∀ i < p.getPlaneCount, ∀ j < p.getPlaneCount, i ≠ j →
        Disjoint (bytes (buf.getBufVA i) (buf.getBufSizeInBytes i))
          (bytes (buf.getBufVA j) (buf.getBufSizeInBytes j)))

/-- The planes of the image **suit** the heap: it has every plane that comes up to be checked, and
in a BLOB heap the offsets leave the planes inside it and apart, for an image that passes the
check without them. -/
structure Suits (heap : ImageBufferHeap) (p : CreateParam) : Prop where
  covered : heap.mImgFormat ≠ .BLOB → ∀ i < p.getPlaneCount, (∀ k < i, Passes heap p k) →
    p.StridesOk i → i < heap.getPlaneCount
  blob : heap.mImgFormat = .BLOB → ¬ p.IsBlob → (∀ i < p.getPlaneCount, p.StridesOk i) →
    p.sizeBefore p.getPlaneCount ≤ heap.getBufSizeInBytes 0 →
    (∀ i < p.getPlaneCount, p.sizeInBytes i = 0 ∨
      p.planeStart i + p.sizeInBytes i ≤ heap.getBufSizeInBytes 0) ∧
    ∀ i < p.getPlaneCount, ∀ j < p.getPlaneCount, i ≠ j → p.sizeInBytes i = 0 ∨
      p.sizeInBytes j = 0 ∨ p.planeStart i + p.sizeInBytes i ≤ p.planeStart j ∨
      p.planeStart j + p.sizeInBytes j ≤ p.planeStart i

theorem format_of_param {call : CreateCall} (h : heap.param call = some p) :
    p.imgFormat = heap.mImgFormat ∨ heap.getPlaneCount = 1 := by
  cases call with
  | createImageBuffer =>
    cases h
    exact .inl rfl
  | createImageBuffer_FromBlobHeap offsetInBytes sizeInBytes =>
    rw [ImageBufferHeap.param] at h
    split at h
    · cases h
    · exact .inl (congrArg CreateParam.imgFormat (Option.some.inj h)).symm
  | createImageBuffer_FromBlobHeap_format offsetInBytes imgFormat imgSize bufStridesInBytes =>
    rw [ImageBufferHeap.param] at h
    split at h
    · cases h
    · rename_i hformat
      right
      rw [not_and_or, not_not, not_not] at hformat
      rw [ImageBufferHeap.getPlaneCount]
      rcases hformat with hformat | hformat <;> rw [hformat] <;> rfl
  | createImageBuffer_SideBySide isRightSide =>
    exact .inl (congrArg CreateParam.imgFormat (Option.some.inj h)).symm

theorem va_of_lock {ion ion' : IonImageBufferHeap} {env : IonEnv} {usage : Usage} {r : Bool}
    {buf : BaseImageBuffer} (husage : usage &&& eBUFFER_USAGE_SW_MASK ≠ 0)
    (h : BaseImageBuffer.lockBuf ion (newBuffer heap ((List.range p.getPlaneCount).map p.info)) env
      usage = .ok (true, r, ion', buf)) (hi : i < p.getPlaneCount) :
    buf.getBufSizeInBytes i = p.sizeInBytes i ∧ buf.getBufVA i =
      (if p.getPlaneCount = heap.getPlaneCount then ion'.getBufVA i
        else ion'.getBufVA 0 + BitVec.ofNat 64 (p.sizeBefore i)) +
        BitVec.ofNat 64 (p.offsetInBytes i) := by
  have hinfo : (newBuffer heap ((List.range p.getPlaneCount).map p.info)).mvImgBufInfo[i]? =
      some (p.info i) := by
    rw [newBuffer, List.getElem?_map, List.getElem?_range hi, Option.map_some]
  have hcount : (newBuffer heap ((List.range p.getPlaneCount).map p.info)).mvBufHeapInfo.length =
      heap.getPlaneCount := by
    rw [newBuffer, List.length_map, heap.planes_length, ImageBufferHeap.getPlaneCount]
  have hpos : 0 < heap.getPlaneCount := planeCount_pos heap.format_valid
  have hva := BaseImageBuffer.lockBuf_va h husage hinfo (hcount ▸ hpos)
  have hbefore : (((newBuffer heap ((List.range p.getPlaneCount).map p.info)).mvImgBufInfo.take
      i).map (·.sizeInBytes)).sum = p.sizeBefore i := by
    rw [newBuffer, ← List.map_take, List.take_range, Nat.min_eq_left hi.le, List.map_map]
    rfl
  rw [hcount, hbefore] at hva
  have hlength : (newBuffer heap ((List.range p.getPlaneCount).map p.info)).mvImgBufInfo.length =
      p.getPlaneCount := by
    rw [newBuffer, List.length_map, List.length_range]
  rw [hlength] at hva
  exact hva

theorem va_of_onePlane {ion ion' : IonImageBufferHeap} {env : IonEnv} {usage : Usage} {r : Bool}
    {buf : BaseImageBuffer} (husage : usage &&& eBUFFER_USAGE_SW_MASK ≠ 0)
    (h : BaseImageBuffer.lockBuf ion (newBuffer heap ((List.range p.getPlaneCount).map p.info)) env
      usage = .ok (true, r, ion', buf)) (hcount : heap.getPlaneCount = 1)
    (hi : i < p.getPlaneCount) : buf.getBufSizeInBytes i = p.sizeInBytes i ∧
      buf.getBufVA i = ion'.getBufVA 0 + BitVec.ofNat 64 (p.planeStart i) := by
  obtain ⟨hsize, hva⟩ := va_of_lock husage h hi
  refine ⟨hsize, ?_⟩
  rw [hva, CreateParam.planeStart]
  split
  · obtain rfl : i = 0 := by omega
    rw [CreateParam.sizeBefore, List.range_zero, List.map_nil, List.sum_nil, Nat.zero_add]
  · rw [BitVec.ofNat_add, BitVec.add_assoc]

def freshIon (heap : ImageBufferHeap) : IonImageBufferHeap where
  mPlaneCount := heap.getPlaneCount
  planes := heap.mvBufInfo.map fun q =>
    { info := { stridesInBytes := q.stridesInBytes, sizeInBytes := q.sizeInBytes } }

theorem freshIon_of (heap : ImageBufferHeap) : (freshIon heap).Of heap := by
  refine ⟨rfl, ?_⟩
  rw [freshIon, List.map_map]
  exact List.map_id _

theorem exists_lock (heap : ImageBufferHeap) (infos : List ImgBufInfo) : ∃ r ion' buf,
    BaseImageBuffer.lockBuf (freshIon heap) (newBuffer heap infos) mapsAll 1 =
      .ok (true, r, ion', buf) := by
  have hlength : (freshIon heap).planes.length = (freshIon heap).mPlaneCount := by
    rw [freshIon, List.length_map, heap.planes_length, ImageBufferHeap.getPlaneCount]
  have hbuffer : (newBuffer heap infos).mvBufHeapInfo.length = (freshIon heap).mPlaneCount := by
    rw [newBuffer, List.length_map, freshIon, heap.planes_length, ImageBufferHeap.getPlaneCount]
  have hlockable : (freshIon heap).Lockable mapsAll 1 := by
    have hunlocked : ¬ 0 < (freshIon heap).mLockCount := Nat.lt_irrefl 0
    rw [IonImageBufferHeap.Lockable, if_neg hunlocked]
    intro i q hq
    obtain ⟨s, -, rfl⟩ := List.mem_map.mp (List.mem_of_getElem? hq)
    have hmap : (mapVA mapsAll 1 0 {}).va ≠ 0 ∧ (mapVA mapsAll 1 0 {}).va ≠ -1 := by decide
    exact ⟨fun _ => hmap, fun h => absurd (by decide) h⟩
  obtain ⟨locked, ion', buf, hlock, hiff, -, -⟩ := BaseImageBuffer.lockBufLocked_spec
    ⟨hlength, fun h => absurd h (Nat.lt_irrefl 0)⟩ hbuffer rfl mapsAll 1
  obtain rfl := hiff.mpr hlockable
  exact ⟨_, _, _, by rw [BaseImageBuffer.lockBuf, hlock]⟩

theorem planeCount_blob (hblob : heap.mImgFormat = .BLOB) : heap.getPlaneCount = 1 := by
  rw [ImageBufferHeap.getPlaneCount, hblob]
  rfl

theorem planeCount_of_isBlob (h : p.IsBlob) : p.getPlaneCount = 1 := by
  rw [CreateParam.getPlaneCount]
  rcases h with h | h <;> rw [h] <;> rfl

theorem planeStart_zero (p : CreateParam) : p.planeStart 0 = p.offsetInBytes 0 := by
  rw [CreateParam.planeStart, CreateParam.sizeBefore, List.range_zero, List.map_nil, List.sum_nil,
    Nat.zero_add]

/-- The planes of a sound image **suit** the heap. -/
theorem GeometrySound.suits (hno : NoOverflow heap p) (h : GeometrySound heap p) :
    Suits heap p := by
  constructor
  · intro hformat i hi hpass hstrides
    by_contra hnot
    have hzero := getBufStridesInBytes_eq_zero_iff.mpr (not_lt.mp hnot)
    exact h.divides .divisionByZero ((onCreate_eq_error_iff _).mpr
      ⟨i, hi, ⟨hstrides, hformat, hzero⟩, hpass⟩)
  · intro hblob himage hstrides hsize
    have hcount := planeCount_blob hblob
    have hpass : ∀ m < p.getPlaneCount, Passes heap p m := fun m hm =>
      ⟨hstrides m hm, fun hne => absurd hblob hne, fun _ his => absurd his himage⟩
    have hcreate := (onCreate_eq_some_iff _).mpr ⟨rfl, hpass, fun _ _ => hsize⟩
    obtain ⟨r, ion', buf, hlock⟩ :=
      exists_lock heap ((List.range p.getPlaneCount).map p.info)
    obtain ⟨hinside, hapart⟩ :=
      h.planes _ hcreate _ ion' mapsAll 1 r buf (freshIon_of heap) (by decide) hlock
    have hva := fun i (hi : i < p.getPlaneCount) =>
      va_of_onePlane (by decide) hlock hcount hi
    constructor
    · intro i hi
      obtain ⟨j, hj, hsub⟩ := hinside i hi
      obtain rfl : j = 0 := by omega
      rw [(hva i hi).1, (hva i hi).2, bytes_subset_iff (hno.image i hi) (hno.heap 0)] at hsub
      exact hsub
    · intro i hi j hj hne
      have hdisjoint := hapart hblob i hi j hj hne
      rw [(hva i hi).1, (hva i hi).2, (hva j hj).1, (hva j hj).2,
        disjoint_bytes_iff (hno.image i hi) (hno.image j hj)] at hdisjoint
      exact hdisjoint

theorem Suits.geometrySound {call : CreateCall} (hp : heap.param call = some p)
    (hno : NoOverflow heap p) (h : Suits heap p) : GeometrySound heap p := by
  constructor
  · intro e herror
    obtain ⟨m, hm, ⟨hstrides, hformat, hzero⟩, hpass⟩ := (onCreate_eq_error_iff e).mp herror
    have hcovered := h.covered hformat m hm hpass hstrides
    exact absurd (getBufStridesInBytes_eq_zero_iff.mp hzero) (not_le.mpr hcovered)
  · intro infos hcreate ion ion' env usage r buf _ husage hlock
    obtain ⟨rfl, hpass, hsize⟩ := (onCreate_eq_some_iff infos).mp hcreate
    by_cases hblob : heap.mImgFormat = .BLOB
    · have hcount := planeCount_blob hblob
      have hva := fun i (hi : i < p.getPlaneCount) => va_of_onePlane husage hlock hcount hi
      by_cases himage : p.IsBlob
      · have hone := planeCount_of_isBlob himage
        refine ⟨fun i hi => ⟨0, by omega, ?_⟩, fun _ i hi j hj hne => absurd hne (by omega)⟩
        obtain rfl : i = 0 := by omega
        have hfits := not_lt.mp ((hpass 0 hi).blob hblob himage)
        rw [(hva 0 hi).1, (hva 0 hi).2, bytes_subset_iff (hno.image 0 hi) (hno.heap 0),
          planeStart_zero]
        exact .inr hfits
      · have hformat : p.imgFormat ≠ .BLOB := fun heq => himage (.inl heq)
        obtain ⟨hinside, hapart⟩ := h.blob hblob himage (fun i hi => (hpass i hi).strides)
          (hsize hblob hformat)
        refine ⟨fun i hi => ⟨0, by omega, ?_⟩, fun _ i hi j hj hne => ?_⟩
        · rw [(hva i hi).1, (hva i hi).2, bytes_subset_iff (hno.image i hi) (hno.heap 0)]
          exact hinside i hi
        · rw [(hva i hi).1, (hva i hi).2, (hva j hj).1, (hva j hj).2,
            disjoint_bytes_iff (hno.image i hi) (hno.image j hj)]
          exact hapart i hi j hj hne
    · refine ⟨fun i hi => ?_, fun heq => absurd heq hblob⟩
      have hcovered : ∀ k < p.getPlaneCount, k < heap.getPlaneCount := fun k hk =>
        h.covered hblob k hk (fun m hm => hpass m (hm.trans hk)) (hpass k hk).strides
      have hsame : p.getPlaneCount = heap.getPlaneCount := by
        rcases format_of_param hp with heq | hone
        · rw [CreateParam.getPlaneCount, ImageBufferHeap.getPlaneCount, heq]
        · have hlast := hcovered (p.getPlaneCount - 1) (by omega)
          omega
      obtain ⟨hbuf, hva⟩ := va_of_lock husage hlock hi
      have hfits := not_lt.mp ((hpass i hi).image hblob).2.2
      have hlt := hno.heap i
      refine ⟨i, hcovered i hi, ?_⟩
      rw [hbuf, hva, if_pos hsame, bytes_subset_iff (by omega) hlt]
      exact .inr hfits

/-- **The geometry is sound** exactly when the planes of the image suit the heap. -/
theorem geometry_iff {call : CreateCall} (hp : heap.param call = some p)
    (hno : NoOverflow heap p) : GeometrySound heap p ↔ Suits heap p :=
  ⟨GeometrySound.suits hno, Suits.geometrySound hp hno⟩

def nv12Heap : ImageBufferHeap where
  mImgFormat := .NV12
  mImgSize := ⟨8, 4⟩
  mvBufInfo := [⟨8, 32⟩, ⟨8, 16⟩]
  format_valid := rfl
  format_ne := by decide
  size_pos := by decide
  planes_length := rfl
  strides_pos := by decide

/-- The right side. -/
theorem geometry_rightSide : ∃ p, nv12Heap.param (.createImageBuffer_SideBySide true) = some p ∧
    (GeometrySound nv12Heap p ↔ Suits nv12Heap p) := by
  have hparam : ∃ p, nv12Heap.param (.createImageBuffer_SideBySide true) = some p ∧
      NoOverflow nv12Heap p := by
    refine ⟨_, rfl, ?_, by decide +kernel, by decide +kernel⟩
    rintro (_ | _ | i)
    · decide
    · decide
    · exact Nat.two_pow_pos 64
  obtain ⟨p, hp, hno⟩ := hparam
  exact ⟨p, hp, geometry_iff hp hno⟩

def opaqueHeap : ImageBufferHeap where
  mImgFormat := .CAMERA_OPAQUE
  mImgSize := ⟨16, 1⟩
  mvBufInfo := [⟨100, 100⟩]
  format_valid := rfl
  format_ne := by decide
  size_pos := by decide
  planes_length := rfl
  strides_pos := by decide

def blobHeap : ImageBufferHeap where
  mImgFormat := .BLOB
  mImgSize := ⟨100, 1⟩
  mvBufInfo := [⟨100, 100⟩]
  format_valid := rfl
  format_ne := by decide
  size_pos := by decide
  planes_length := rfl
  strides_pos := by decide

/-- An image of two planes in an opaque heap is divided by the strides of a plane that the heap has
not, and an image of 100 bytes at the offset 50 is created in a heap of 100 bytes. -/
theorem geometry_fails :
    (∃ p, opaqueHeap.param (.createImageBuffer_FromBlobHeap_format 0 .NV12 ⟨4, 2⟩ fun _ => 4) =
        some p ∧ onCreate opaqueHeap p = .error .divisionByZero ∧ ¬ GeometrySound opaqueHeap p) ∧
      ∃ p, blobHeap.param (.createImageBuffer_FromBlobHeap_format 50 .Y8 ⟨10, 10⟩ fun _ => 10) =
        some p ∧ onCreate blobHeap p = .ok (some [⟨⟨10, 100, 0, 0⟩, 50⟩]) ∧
          ¬ GeometrySound blobHeap p := by
  constructor
  · have herror : ∃ p, opaqueHeap.param (.createImageBuffer_FromBlobHeap_format 0 .NV12 ⟨4, 2⟩
        fun _ => 4) = some p ∧ onCreate opaqueHeap p = .error .divisionByZero :=
      ⟨_, rfl, by decide +kernel⟩
    obtain ⟨p, hp, herror⟩ := herror
    exact ⟨p, hp, herror, fun h => h.divides _ herror⟩
  · refine ⟨_, rfl, by decide +kernel, fun h => ?_⟩
    have hheap : ∀ i, blobHeap.getBufSizeInBytes i < 2 ^ 64 := by
      rintro (_ | i)
      · decide
      · exact Nat.two_pow_pos 64
    have hsuits := h.suits ⟨hheap, by decide +kernel, by decide +kernel⟩
    have hblob := hsuits.blob rfl (by decide) (by decide +kernel) (by decide +kernel)
    exact absurd (hblob.1 0 (by decide)) (by decide +kernel)

end MtkHardware.ImgBuf
