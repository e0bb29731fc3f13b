import MtkHardware.Util.KeyedVector
import MtkHardware.Util.Ledger

/-!
# Selectors and Their Pools

A selector is handed the buffers of a result and gives them back to the pools they come from: to
the consumer pool that is registered for the stream of the buffer, through a weak reference. A
buffer whose pool is not registered, or is gone, is given back to nobody.
-/

namespace MtkHardware.LegacyPipeline

abbrev StreamId := ℕ

abbrev IImageBufferHeap := ℕ

abbrev IConsumerPool := ℕ

abbrev Caller := ℕ

structure BufferItemSet where
  id : StreamId
  heap : IImageBufferHeap
  deriving DecidableEq, Repr

structure IMetadata where
  sensorTimestamp : Option ℤ := none
  controlAfState : Option ℕ := none
  controlAfMode : Option ℕ := none
  lensState : Option ℕ := none
  deriving DecidableEq, Repr

structure MetaItemSet where
  id : StreamId
  metadata : IMetadata
  deriving DecidableEq, Repr

inductive Status
  | ok
  | unknownError
  | timedOut
  deriving DecidableEq, Repr

structure PoolItemSet where
  rpPool : Option IConsumerPool
  deriving DecidableEq, Repr

/-- The pools a selector knows, and those that are gone. -/
structure BaseSelector where
  mPoolItemMap : KeyedVector StreamId PoolItemSet := .empty
  /-- The pools without a strong reference. -/
  destroyed : List IConsumerPool := []

inductive PoolOp
  | setPool (rStreamId : StreamId) (rpPool : Option IConsumerPool)
  | destroy (pool : IConsumerPool)

/-- What is seen of a selector: buffers come in, go to a caller, and go back to their pool. -/
inductive SelectorEvent
  | handed (rvBuffers : List BufferItemSet)
  | sendDataToDumpThread (rRequestNo : ℤ) (rvBuffers : List BufferItemSet)
  | got (caller : Caller) (rRequestNo : ℤ) (rvResultMeta : List MetaItemSet)
      (rvBuffers : List BufferItemSet)
  | noResult (caller : Caller) (status : Status)
  | returnBuffer (pPool : IConsumerPool) (rBuffer : BufferItemSet)
  | answered (status : Status)
  deriving DecidableEq, Repr

namespace SelectorEvent

def inflow : SelectorEvent → List BufferItemSet
  | handed rvBuffers => rvBuffers
  | _ => []

def outflow : SelectorEvent → List BufferItemSet
  | returnBuffer _ rBuffer => [rBuffer]
  | _ => []

end SelectorEvent

def handedBuffers (events : List SelectorEvent) : List BufferItemSet :=
  events.flatMap SelectorEvent.inflow

def returnedBuffers (events : List SelectorEvent) : List BufferItemSet :=
  events.flatMap SelectorEvent.outflow

def selectorLedger {σ : Type*} (held : σ → List BufferItemSet) :
    Ledger σ SelectorEvent BufferItemSet where
  content := held
  inflow := SelectorEvent.inflow
  outflow := SelectorEvent.outflow

theorem flows_iff_perm {σ : Type*} {held : σ → List BufferItemSet} {s s' : σ}
    {o : List SelectorEvent} : (selectorLedger held).Flows s o s' ↔
      (held s' ++ returnedBuffers o).Perm (held s ++ handedBuffers o) :=
  .rfl

namespace BaseSelector

def promote (s : BaseSelector) (rpPool : Option IConsumerPool) : Option IConsumerPool :=
  rpPool.filter fun pool => decide (pool ∉ s.destroyed)

def setPool (s : BaseSelector) (rStreamId : StreamId) (rpPool : Option IConsumerPool) :
    BaseSelector :=
  let mPoolItemMap :=
    if (s.mPoolItemMap.find? rStreamId).isSome then s.mPoolItemMap.remove rStreamId
    else s.mPoolItemMap
  { s with mPoolItemMap := mPoolItemMap.add rStreamId ⟨rpPool⟩ }

def update (s : BaseSelector) : PoolOp → BaseSelector
  | .setPool rStreamId rpPool => s.setPool rStreamId rpPool
  | .destroy pool => { s with destroyed := pool :: s.destroyed }

/-- Gives a buffer back to its pool. Consumer pools answer that all is well. -/
def returnBufferToPool (s : BaseSelector) (rBuffer : BufferItemSet) :
    Status × List SelectorEvent :=
  match s.mPoolItemMap.find? rBuffer.id with
  | none => (.unknownError, [])
  | some item =>
    match s.promote item.rpPool with
    | none => (.unknownError, [])
    | some pPool => (.ok, [.returnBuffer pPool rBuffer])

/-- Gives buffers back to their pools. The vector of the caller is empty then. -/
def returnBuffersToPool (s : BaseSelector) : List BufferItemSet → Status × List SelectorEvent
  | [] => (.ok, [])
  | rBuffer :: rvBuffers =>
    let first := s.returnBufferToPool rBuffer
    let rest := s.returnBuffersToPool rvBuffers
    (if first.1 = .ok then rest.1 else .unknownError, first.2 ++ rest.2)

/-- Gives the buffers of several results back to their pools. -/
def returnSets (s : BaseSelector) (sets : List (List BufferItemSet)) : List SelectorEvent :=
  sets.flatMap fun bufferSet => (s.returnBuffersToPool bufferSet).2

def takes (s : BaseSelector) (rBuffer : BufferItemSet) : Bool :=
  ((s.mPoolItemMap.find? rBuffer.id).bind fun item => s.promote item.rpPool).isSome

theorem returnBufferToPool_eq (s : BaseSelector) (rBuffer : BufferItemSet) :
    (s.takes rBuffer = false ∧ s.returnBufferToPool rBuffer = (.unknownError, [])) ∨
      s.takes rBuffer = true ∧
        ∃ pPool, s.returnBufferToPool rBuffer = (.ok, [.returnBuffer pPool rBuffer]) := by
  rw [takes, returnBufferToPool]
  cases s.mPoolItemMap.find? rBuffer.id with
  | none => exact .inl ⟨rfl, rfl⟩
  | some item =>
    cases hpool : s.promote item.rpPool with
    | none => exact .inl (by simp [hpool])
    | some pPool => exact .inr (by simp [hpool])

theorem returned_returnBufferToPool (s : BaseSelector) (rBuffer : BufferItemSet) :
    returnedBuffers (s.returnBufferToPool rBuffer).2 =
      if s.takes rBuffer then [rBuffer] else [] := by
  rcases s.returnBufferToPool_eq rBuffer with ⟨htakes, heq⟩ | ⟨htakes, pPool, heq⟩ <;>
    rw [heq, htakes] <;> rfl

theorem handed_returnBufferToPool (s : BaseSelector) (rBuffer : BufferItemSet) :
    handedBuffers (s.returnBufferToPool rBuffer).2 = [] := by
  rcases s.returnBufferToPool_eq rBuffer with ⟨-, heq⟩ | ⟨-, pPool, heq⟩ <;> rw [heq] <;> rfl

theorem returned_append (o₁ o₂ : List SelectorEvent) :
    returnedBuffers (o₁ ++ o₂) = returnedBuffers o₁ ++ returnedBuffers o₂ :=
  List.flatMap_append

theorem handed_append (o₁ o₂ : List SelectorEvent) :
    handedBuffers (o₁ ++ o₂) = handedBuffers o₁ ++ handedBuffers o₂ :=
  List.flatMap_append

/-- **The buffers that are given back are those whose pools are there.** -/
@[simp] theorem returned_returnBuffersToPool (s : BaseSelector) (rvBuffers : List BufferItemSet) :
    returnedBuffers (s.returnBuffersToPool rvBuffers).2 = rvBuffers.filter s.takes := by
  induction rvBuffers with
  | nil => rfl
  | cons rBuffer rvBuffers ih =>
    rw [returnBuffersToPool, returned_append, ih, returned_returnBufferToPool,
      List.filter_cons]
    split <;> rfl

@[simp] theorem handed_returnBuffersToPool (s : BaseSelector) (rvBuffers : List BufferItemSet) :
    handedBuffers (s.returnBuffersToPool rvBuffers).2 = [] := by
  induction rvBuffers with
  | nil => rfl
  | cons rBuffer rvBuffers ih =>
    rw [returnBuffersToPool, handed_append, ih, handed_returnBufferToPool, List.nil_append]

theorem returned_returnSets (s : BaseSelector) (sets : List (List BufferItemSet)) :
    returnedBuffers (s.returnSets sets) = sets.flatten.filter s.takes := by
  induction sets with
  | nil => rfl
  | cons bufferSet sets ih =>
    rw [returnSets, List.flatMap_cons, returned_append, returned_returnBuffersToPool,
      List.flatten_cons, List.filter_append, ← ih]
    rfl

theorem handed_returnSets (s : BaseSelector) (sets : List (List BufferItemSet)) :
    handedBuffers (s.returnSets sets) = [] := by
  induction sets with
  | nil => rfl
  | cons bufferSet sets ih =>
    rw [returnSets, List.flatMap_cons, handed_append, handed_returnBuffersToPool,
      List.nil_append]
    exact ih

end BaseSelector

end MtkHardware.LegacyPipeline
