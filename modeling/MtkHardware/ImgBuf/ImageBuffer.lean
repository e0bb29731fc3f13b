import MtkHardware.Util.Run
import MtkHardware.Util.Lists

/-!
# Image Buffers and Their Heap

An image buffer keeps a lock count and a usage of its own, and so does the heap it shares with other
buffers. The first lock of the heap maps the planes, and later ones are let in where they read with
the same usage. A buffer that is locked takes the addresses of the heap, for its planes.

What the kernel answers is of the environment: the address of a mapping, and the physical address.
-/

namespace MtkHardware.ImgBuf

/-- `MINTPTR`. -/
abbrev MIntPtr := BitVec 64

abbrev Usage := BitVec 32

def eBUFFER_USAGE_SW_READ_MASK : Usage := 0x0000000F
def eBUFFER_USAGE_SW_WRITE_MASK : Usage := 0x000000F0
def eBUFFER_USAGE_SW_MASK : Usage := eBUFFER_USAGE_SW_READ_MASK ||| eBUFFER_USAGE_SW_WRITE_MASK
def eBUFFER_USAGE_HW_TEXTURE : Usage := 0x00000100
def eBUFFER_USAGE_HW_CAMERA_READ : Usage := 0x00040000
def eBUFFER_USAGE_HW_MASK : Usage := 0x00071F00

def PROT_READ : BitVec 32 := 1
def PROT_WRITE : BitVec 32 := 2

structure BufInfo where
  stridesInBytes : ℕ := 0
  sizeInBytes : ℕ := 0
  va : MIntPtr := 0
  pa : MIntPtr := 0
  deriving DecidableEq, Repr

/-- The mapping of a plane, which the heap keeps while it is unlocked. -/
structure MyBufInfo where
  va : MIntPtr := 0
  pa : MIntPtr := 0
  iProt_flag_va : BitVec 32 := 0
  deriving DecidableEq, Repr

/-- A plane of the heap: what a lock shows of it, and what the heap keeps. -/
structure HeapPlane where
  info : BufInfo := {}
  stored : MyBufInfo := {}
  deriving DecidableEq, Repr

/-- What the kernel answers for each plane: the address of `ion_mmap`, and the physical address
where `helpMapPhyAddr` succeeds. -/
structure IonEnv where
  ion_mmap : ℕ → MIntPtr
  phyAddr : ℕ → Option MIntPtr

/-! ### The planes -/

section Planes

variable (env : IonEnv) (usage : Usage) (i : ℕ) (p : HeapPlane)

def protFlag : BitVec 32 :=
  (if usage &&& eBUFFER_USAGE_SW_READ_MASK ≠ 0 then PROT_READ else 0) |||
    (if usage &&& eBUFFER_USAGE_SW_WRITE_MASK ≠ 0 then PROT_WRITE else 0)

/-- Map the plane for the CPU, where it is not mapped for as much. -/
def mapVA (stored : MyBufInfo) : MyBufInfo :=
  if (stored.iProt_flag_va ^^^ protFlag usage) &&& protFlag usage ≠ 0 then
    { stored with va := env.ion_mmap i, iProt_flag_va := protFlag usage }
  else stored

def lockSW : Bool × HeapPlane :=
  if usage &&& eBUFFER_USAGE_SW_MASK ≠ 0 then
    let stored := mapVA env usage i p.stored
    (stored.va ≠ 0 ∧ stored.va ≠ -1, { info := { p.info with va := stored.va }, stored })
  else (true, p)

def lockHW : Bool × HeapPlane :=
  if usage &&& eBUFFER_USAGE_HW_MASK ≠ 0 then
    if p.stored.pa = 0 then
      match env.phyAddr i with
      | none => (false, p)
      | some pa => (true, { info := { p.info with pa }, stored := { p.stored with pa } })
    else (true, { p with info := { p.info with pa := p.stored.pa } })
  else (true, p)

def lockPlane : Bool × HeapPlane :=
  match lockSW env usage i p with
  | (false, p) => (false, p)
  | (true, p) => lockHW env usage i p

/-- The planes from an index on, up to one that cannot be mapped. -/
def lockPlanes : ℕ → List HeapPlane → Bool × List HeapPlane
  | _, [] => (true, [])
  | i, p :: ps =>
    match lockPlane env usage i p with
    | (false, p) => (false, p :: ps)
    | (true, p) => ((lockPlanes (i + 1) ps).1, p :: (lockPlanes (i + 1) ps).2)

def unlockPlane : HeapPlane :=
  { p with info :=
    { p.info with
      pa := if usage &&& eBUFFER_USAGE_HW_MASK ≠ 0 then 0 else p.info.pa
      va := if usage &&& eBUFFER_USAGE_SW_MASK ≠ 0 then 0 else p.info.va } }

def HasAddresses (info : BufInfo) : Prop :=
  (usage &&& eBUFFER_USAGE_SW_MASK ≠ 0 → info.va ≠ 0) ∧
    (usage &&& eBUFFER_USAGE_HW_MASK ≠ 0 → info.pa ≠ 0)

instance : DecidablePred (HasAddresses usage) := fun _ => inferInstanceAs (Decidable (_ ∧ _))

end Planes

/-! ### The heap -/

structure IonImageBufferHeap where
  mPlaneCount : ℕ
  planes : List HeapPlane
  mLockCount : ℕ := 0
  mLockUsage : Usage := 0
  deriving DecidableEq

namespace IonImageBufferHeap

variable (heap : IonImageBufferHeap) (env : IonEnv) (usage : Usage)

def impUnlockBuf : IonImageBufferHeap :=
  { heap with planes := heap.planes.map (unlockPlane usage) }

def impLockBuf : Bool × IonImageBufferHeap :=
  match lockPlanes env usage 0 heap.planes with
  | (true, planes) => (true, { heap with planes })
  | (false, planes) => (false, { heap with planes }.impUnlockBuf usage)

def readUsage : Usage :=
  eBUFFER_USAGE_SW_READ_MASK ||| eBUFFER_USAGE_HW_CAMERA_READ ||| eBUFFER_USAGE_HW_TEXTURE

def lockBuf : Bool × IonImageBufferHeap :=
  if 0 < heap.mLockCount then
    if usage &&& ~~~readUsage = 0 ∧ heap.mLockUsage = usage then
      (true, { heap with mLockCount := heap.mLockCount + 1 })
    else (false, heap)
  else
    match heap.impLockBuf env usage with
    | (false, heap) => (false, heap)
    | (true, heap) =>
      if heap.mPlaneCount ≠ heap.planes.length then (false, heap)
      else if ∀ p ∈ heap.planes, HasAddresses usage p.info then
        (true, { heap with mLockUsage := usage, mLockCount := heap.mLockCount + 1 })
      else (false, heap)

def unlockBuf : Bool × IonImageBufferHeap :=
  if 1 < heap.mLockCount then (true, { heap with mLockCount := heap.mLockCount - 1 })
  else if heap.mLockCount = 0 then (false, heap)
  else
    let heap := heap.impUnlockBuf heap.mLockUsage
    (true, { heap with mLockUsage := 0, mLockCount := heap.mLockCount - 1 })

def getBufVA (index : ℕ) : MIntPtr :=
  if heap.mPlaneCount ≤ index then 0
  else if heap.mLockCount = 0 ∨ heap.mLockUsage &&& eBUFFER_USAGE_SW_MASK = 0 then 0
  else (heap.planes[index]?.getD {}).info.va

def getBufPA (index : ℕ) : MIntPtr :=
  if heap.mPlaneCount ≤ index then 0
  else if heap.mLockCount = 0 ∨ heap.mLockUsage &&& eBUFFER_USAGE_HW_MASK = 0 then 0
  else (heap.planes[index]?.getD {}).info.pa

end IonImageBufferHeap

/-! ### Image buffers -/

structure ImgBufInfo extends BufInfo where
  offsetInBytes : ℕ := 0
  deriving DecidableEq, Repr

structure BaseImageBuffer where
  mLockCount : ℕ := 0
  mLockUsage : Usage := 0
  mvBufHeapInfo : List BufInfo
  mvImgBufInfo : List ImgBufInfo
  deriving DecidableEq

inductive Fatal
  | hasLocked
  deriving DecidableEq, Repr

namespace BaseImageBuffer

open IonImageBufferHeap

variable (heap : IonImageBufferHeap) (buf : BaseImageBuffer) (env : IonEnv) (usage : Usage)

def readPlane (i : ℕ) (info : BufInfo) : BufInfo :=
  { info with
    va := if usage &&& eBUFFER_USAGE_SW_MASK ≠ 0 then heap.getBufVA i else 0
    pa := if usage &&& eBUFFER_USAGE_HW_MASK ≠ 0 then heap.getBufPA i else 0 }

/-- The planes from an index on take their addresses, up to one that has none. -/
def readPlanes : ℕ → List BufInfo → Bool × List BufInfo
  | _, [] => (true, [])
  | i, info :: infos =>
    if HasAddresses usage (readPlane heap usage i info) then
      ((readPlanes (i + 1) infos).1,
        readPlane heap usage i info :: (readPlanes (i + 1) infos).2)
    else (false, readPlane heap usage i info :: infos)

def lockBufLocked : Except Fatal (Bool × IonImageBufferHeap × BaseImageBuffer) :=
  if 0 < buf.mLockCount then .error .hasLocked
  else
    match heap.lockBuf env usage with
    | (false, heap) => .ok (false, heap, buf)
    | (true, heap) =>
      if heap.mPlaneCount ≠ buf.mvBufHeapInfo.length then .ok (false, heap, buf)
      else
        match readPlanes heap usage 0 buf.mvBufHeapInfo with
        | (false, mvBufHeapInfo) => .ok (false, heap, { buf with mvBufHeapInfo })
        | (true, mvBufHeapInfo) =>
          .ok (true, heap, { buf with
            mvBufHeapInfo, mLockUsage := usage, mLockCount := buf.mLockCount + 1 })

def unlockBufLocked : Bool × IonImageBufferHeap × BaseImageBuffer :=
  if buf.mLockCount = 0 then (false, heap, buf)
  else
    match heap.unlockBuf with
    | (false, heap) => (false, heap, buf)
    | (true, heap) =>
      (true, heap, { buf with
        mvBufHeapInfo := buf.mvBufHeapInfo.map fun info => { info with va := 0, pa := 0 }
        mLockUsage := 0, mLockCount := buf.mLockCount - 1 })

def copyAddresses (infos : List ImgBufInfo) (heapInfos : List BufInfo) : List ImgBufInfo :=
  List.zipWith (fun (info : ImgBufInfo) heapInfo =>
    { info with va := heapInfo.va, pa := heapInfo.pa }) infos heapInfos

/-- The planes behind one in the same plane of the heap: each begins where the one before ends. -/
def placeBehind (va₀ pa₀ : MIntPtr) : ImgBufInfo → List ImgBufInfo → List ImgBufInfo
  | _, [] => []
  | prev, info :: infos =>
    let info := { info with
      pa := if pa₀ = 0 then 0 else prev.pa + BitVec.ofNat 64 prev.sizeInBytes
      va := if va₀ = 0 then 0 else prev.va + BitVec.ofNat 64 prev.sizeInBytes }
    info :: placeBehind va₀ pa₀ info infos

def placeAll (heapInfo : BufInfo) : List ImgBufInfo → List ImgBufInfo
  | [] => []
  | info :: infos =>
    let info := { info with va := heapInfo.va, pa := heapInfo.pa }
    info :: placeBehind info.va info.pa info infos

/-- Locking the image buffer. The result of `lockBufLocked` is the first one: it is not looked at.
-/
def lockBuf : Except Fatal (Bool × Bool × IonImageBufferHeap × BaseImageBuffer) :=
  match lockBufLocked heap buf env usage with
  | .error e => .error e
  | .ok (locked, heap, buf) =>
    .ok (locked, true, heap, { buf with
      mvImgBufInfo :=
        if buf.mvImgBufInfo.length = heap.mPlaneCount then
          copyAddresses buf.mvImgBufInfo buf.mvBufHeapInfo
        else placeAll (buf.mvBufHeapInfo.headD {}) buf.mvImgBufInfo })

/-- The addresses that are left where the first plane has none. -/
def clearBehind (info₀ : BufInfo) : List ImgBufInfo → List ImgBufInfo
  | [] => []
  | info :: infos =>
    let info := { info with va := info₀.va, pa := info₀.pa }
    info :: infos.map fun info =>
      { info with
        pa := if info₀.pa = 0 then 0 else info.pa
        va := if info₀.va = 0 then 0 else info.va }

/-- Unlocking the image buffer. The result of `unlockBufLocked` is the first one. -/
def unlockBuf : Bool × Bool × IonImageBufferHeap × BaseImageBuffer :=
  match unlockBufLocked heap buf with
  | (unlocked, heap, buf) =>
    (unlocked, true, heap, { buf with
      mvImgBufInfo :=
        if buf.mvImgBufInfo.length = heap.mPlaneCount then
          copyAddresses buf.mvImgBufInfo buf.mvBufHeapInfo
        else clearBehind (buf.mvBufHeapInfo.headD {}) buf.mvImgBufInfo })

end BaseImageBuffer

end MtkHardware.ImgBuf
