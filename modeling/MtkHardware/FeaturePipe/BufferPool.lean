import Mathlib.Data.Int.Notation
import MtkHardware.Util.Run

/-!
# Buffer Pools

A `BufferPool` keeps the buffers that have been allocated in `mPool`, and those that may be
requested in `mAvailable`. A request takes an available buffer, allocates one where the pool may
grow, or waits. A buffer is held by smart buffers, which count themselves in `mCount`: the one that
takes the count to zero hands the buffer back, and holds it until `recycle` has the mutex of the
pool. `setAutoFree` and `recycle` release the buffers that are too many. `releaseAll` gives the pool
up: the buffers that are held then are no longer tracked, and are released when they are handed
back.

What is done with the mutex is one step of `bufferPool`, as is `doAllocate`, which a caller calls
without it, and the change of a count. The buffers are named by the number of those allocated
before. Threads in the same place of a call are alike, and named by where they are.
-/

namespace MtkHardware.FeaturePipe

/-- `BufferHandle`. -/
structure BufferHandle where
  mTrack : Bool
  mCount : ℕ
  deriving DecidableEq, Repr

def BufferHandle.new : BufferHandle := { mTrack := true, mCount := 0 }

/-- Who allocates: a request, or `allocate(count)` with how many buffers are left after this one
and how many there are. `allocate()` is `allocate(1)`. -/
inductive AllocatingFor
  | request
  | allocate (left result : ℕ)
  deriving DecidableEq, Repr

inductive Caller
  /-- In the wait of a request. -/
  | waiting (signaled : Bool)
  /-- Before `doAllocate`. -/
  | allocating (caller : AllocatingFor)
  /-- In `addToPool`, before it has the mutex. -/
  | adding (caller : AllocatingFor) (handle : ℕ)
  /-- In a request that has allocated, before it has the mutex again. -/
  | relocking
  deriving DecidableEq, Repr

structure BufferPool where
  mPool : List ℕ := []
  mAvailable : List ℕ := []
  mAutoFree : ℤ := -1
  mAutoAllocate : ℤ := -1
  mAllocatingCount : ℕ := 0
  handles : List BufferHandle := []
  callers : List Caller := []
  /-- The buffers that are handed back, before `recycle` has the mutex. -/
  recycling : List ℕ := []

inductive BufferOp
  | allocate (count : ℕ)
  /-- `doAllocate` returns a buffer, or `NULL`. -/
  | doAllocate (caller : AllocatingFor) (allocated : Bool)
  | addToPool (caller : AllocatingFor) (handle : ℕ)
  | request
  /-- A request that waits is woken up, perhaps without a signal. -/
  | wakeUp (signaled : Bool)
  /-- A request that has allocated has the mutex again. -/
  | relock
  /-- A smart buffer is copied. -/
  | inc (handle : ℕ)
  /-- A smart buffer is dropped, or assigned another buffer. -/
  | dec (handle : ℕ)
  | recycle (handle : ℕ)
  | setAutoAllocate (bound : ℤ)
  | setAutoFree (bound : ℤ)
  | releaseAll
  deriving DecidableEq, Repr

inductive BufferEvent
  /-- A request starts to allocate, under this bound. -/
  | allocating (bound : ℤ)
  /-- `allocate` returns. -/
  | allocated (result : ℕ)
  /-- A request returns. -/
  | returned (handle : ℕ)
  | doRelease (handle : ℕ)
  deriving DecidableEq, Repr

namespace BufferPool

def handle (s : BufferPool) (h : ℕ) : BufferHandle := s.handles[h]?.getD .new

def onHandle (s : BufferPool) (h : ℕ) (f : BufferHandle → BufferHandle) : BufferPool :=
  { s with handles := s.handles.modify h f }

/-- `incSbCount`. -/
def incSbCount (b : BufferHandle) : BufferHandle := { b with mCount := b.mCount + 1 }

/-- `decSbCount`, but for the call of `recycle`. -/
def decSbCount (b : BufferHandle) : BufferHandle := { b with mCount := b.mCount - 1 }

def untrack (b : BufferHandle) : BufferHandle := { b with mTrack := false }

def afterAllocate (caller : AllocatingFor) (created : ℕ) : List Caller × List BufferEvent :=
  match caller with
  | .request => ([.relocking], [])
  | .allocate 0 result => ([], [.allocated (result + created)])
  | .allocate (left + 1) result => ([.allocating (.allocate left (result + created))], [])

def move (s : BufferPool) (caller : Caller) (next : List Caller) : BufferPool :=
  { s with callers := next ++ s.callers.erase caller }

/-- `mCondition.broadcast`. -/
def broadcast (s : BufferPool) : BufferPool :=
  { s with callers := s.callers.map fun
      | .waiting _ => .waiting true
      | caller => caller }

/-- The loop of `request`, with the mutex. -/
def requestLoop (s : BufferPool) : BufferPool × List BufferEvent :=
  match s.mAvailable with
  | handle :: mAvailable => ({ s with mAvailable }.onHandle handle incSbCount, [.returned handle])
  | [] =>
    if 0 < s.mAutoAllocate ∧ (s.mPool.length + s.mAllocatingCount : ℤ) < s.mAutoAllocate then
      ({ s with mAllocatingCount := s.mAllocatingCount + 1
                callers := .allocating .request :: s.callers }, [.allocating s.mAutoAllocate])
    else ({ s with callers := .waiting false :: s.callers }, [])

/-- `freeFromPool_locked`. -/
def freeFromPool_locked (s : BufferPool) (handle : ℕ) : BufferPool × List BufferEvent :=
  if handle ∈ s.mPool then ({ s with mPool := s.mPool.erase handle }, [.doRelease handle])
  else (s, [])

/-- The loop of `autoFree_locked`, over the available buffers. -/
def autoFreeLoop (s : BufferPool) (count : ℕ) : List ℕ → BufferPool × List BufferEvent
  | [] => ({ s with mAvailable := [] }, [])
  | handle :: mAvailable =>
    if s.mAutoFree < count then
      let freed := s.freeFromPool_locked handle
      let rest := autoFreeLoop freed.1 (count - 1) mAvailable
      (rest.1, freed.2 ++ rest.2)
    else ({ s with mAvailable := handle :: mAvailable }, [])

/-- `autoFree_locked`. -/
def autoFree_locked (s : BufferPool) : BufferPool × List BufferEvent :=
  if 0 ≤ s.mAutoFree then s.autoFreeLoop s.mPool.length s.mAvailable else (s, [])

/-- `recycle`. -/
def recycle (s : BufferPool) (handle : ℕ) : BufferPool × List BufferEvent :=
  if (s.handle handle).mTrack then
    if 0 ≤ s.mAutoFree ∧ s.mAutoFree < s.mPool.length then
      ((s.freeFromPool_locked handle).1.broadcast, (s.freeFromPool_locked handle).2)
    else ({ s with mAvailable := s.mAvailable ++ [handle] }.broadcast, [])
  else (s, [.doRelease handle])

/-- `releaseAll`. -/
def releaseAll (s : BufferPool) : BufferPool × List BufferEvent :=
  ({ s with handles := s.mPool.foldl (fun handles handle => handles.modify handle untrack) s.handles
            mAvailable := []
            mPool := [] }, s.mAvailable.map .doRelease)

def step (s : BufferPool) (op : BufferOp) : Except Blocked (BufferPool × List BufferEvent) :=
  match op with
  | .allocate 0 => .ok (s, [.allocated 0])
  | .allocate (left + 1) =>
    .ok ({ s with callers := .allocating (.allocate left 0) :: s.callers }, [])
  | .doAllocate caller allocated =>
    if .allocating caller ∈ s.callers then
      if allocated then
        .ok ({ s with handles := s.handles ++ [BufferHandle.new] }.move (.allocating caller)
          [.adding caller s.handles.length], [])
      else
        let next := afterAllocate caller 0
        .ok (s.move (.allocating caller) next.1, next.2)
    else .error .blocked
  | .addToPool caller handle =>
    if .adding caller handle ∈ s.callers then
      let next := afterAllocate caller 1
      .ok (({ s with mPool := s.mPool ++ [handle], mAvailable := s.mAvailable ++ [handle] }.move
        (.adding caller handle) next.1).broadcast, next.2)
    else .error .blocked
  | .request => .ok s.requestLoop
  | .wakeUp signaled =>
    if .waiting signaled ∈ s.callers then .ok (s.move (.waiting signaled) []).requestLoop
    else .error .blocked
  | .relock =>
    if .relocking ∈ s.callers then
      .ok ({ s with mAllocatingCount := s.mAllocatingCount - 1 }.move .relocking []).requestLoop
    else .error .blocked
  | .inc handle =>
    if 0 < (s.handle handle).mCount then .ok (s.onHandle handle incSbCount, [])
    else .error .blocked
  | .dec handle =>
    if (s.handle handle).mCount = 1 then
      .ok ({ s with recycling := handle :: s.recycling }.onHandle handle decSbCount, [])
    else if 1 < (s.handle handle).mCount then .ok (s.onHandle handle decSbCount, [])
    else .error .blocked
  | .recycle handle =>
    if handle ∈ s.recycling then
      .ok ({ s with recycling := s.recycling.erase handle }.recycle handle)
    else .error .blocked
  | .setAutoAllocate bound => .ok ({ s with mAutoAllocate := bound }, [])
  | .setAutoFree bound => .ok { s with mAutoFree := bound }.autoFree_locked
  | .releaseAll => .ok s.releaseAll

end BufferPool

def bufferPool : Machine BufferPool BufferOp BufferEvent Blocked := BufferPool.step

end MtkHardware.FeaturePipe
