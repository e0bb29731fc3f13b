import MtkHardware.LegacyPipeline.BaseSelector

/-!
# The Provider of Stream Buffers

`StreamBufferProviderImp` acquires heaps from its pool for the stream buffers of requests. When a
stream buffer is enqueued its heap waits for the timestamp of its request: whatever comes first
makes an entry for the request. An entry that has both, or a heap alone where there are no
timestamps, goes to the consumer, or back to the pool if there is none. After each result the
frame ends that have come drop the entries of their requests.

A result is handled with a lock, and the frame ends are taken within it; what a caller does before
it has the lock is seen by nobody, so each call is one step. `dequeStreamBufferAndWait` does what
`dequeStreamBuffer` does, after a wait.
-/

namespace MtkHardware.LegacyPipeline

abbrev HalImageStreamBuffer := ℕ

structure BufferT where
  requestNo : ℕ
  heap : IImageBufferHeap
  deriving DecidableEq, Repr

/-- What has come for a request. A timestamp that has not come is negative. -/
structure ProviderResultSet where
  requestNo : ℕ
  heap : Option IImageBufferHeap
  error : Bool
  timestamp : ℤ
  deriving DecidableEq, Repr

structure StreamBufferProvider where
  hasTimeStampInfo : Bool
  /-- Is there a buffer pool? -/
  mpBufferPool : Bool := false
  /-- Is there a consumer? -/
  mpConsumer : Bool := false
  mBufferMap : KeyedVector HalImageStreamBuffer BufferT := .empty
  mResultSetMap : KeyedVector ℕ ProviderResultSet := .empty
  mConsumerMap : KeyedVector ℕ ProviderResultSet := .empty
  mvFrameEnd : List ℕ := []
  /-- The requests whose timestamps have come. -/
  stamped : List ℕ := []
  /-- The requests whose frame ends have been handled. -/
  ended : List ℕ := []

inductive ProviderOp
  | setBufferPool
  | setPairRule (pConsumer : Bool)
  | dequeStreamBuffer (iRequestNo : ℕ) (rpStreamBuffer : HalImageStreamBuffer)
      (pHeap : Option IImageBufferHeap)
  | enqueStreamBuffer (rpStreamBuffer : HalImageStreamBuffer) (error : Bool)
  | doTimestampCallback (requestNo : ℕ) (errorResult : Bool) (timestamp : ℤ)
  | onFrameEnd (requestNo : ℕ)
  | flush
  | returnBuffer (rpHeap : IImageBufferHeap)

inductive ProviderStatus
  | ok
  | unknownError
  | noMemory
  deriving DecidableEq, Repr

/-- What is seen: heaps come from the pool, go to the consumer or back to the pool, and come back
from the consumer. -/
inductive ProviderEvent
  | acquired (requestNo : ℕ) (heap : IImageBufferHeap)
  | getResultBufferFromProvider (requestNo : ℕ) (heap : IImageBufferHeap) (timestamp : ℤ)
      (error : Bool)
  | releaseToPool (requestNo : ℕ) (heap : IImageBufferHeap) (timestamp : ℤ) (error : Bool)
  | releaseReturned (requestNo : ℕ) (heap : IImageBufferHeap) (timestamp : ℤ) (error : Bool)
  | flushConsumer
  | answered (status : ProviderStatus)
  deriving DecidableEq, Repr

namespace ProviderResultSet

def merge (result part : ProviderResultSet) : ProviderResultSet :=
  { result with
    heap := if part.heap = none then result.heap else part.heap
    error := result.error || part.error
    timestamp := if 0 ≤ part.timestamp then part.timestamp else result.timestamp }

def release (r : ProviderResultSet) : List ProviderEvent :=
  match r.heap with
  | none => []
  | some heap => [.releaseToPool r.requestNo heap r.timestamp r.error]

/-- An entry goes to the consumer, or back to the pool. -/
def handOver (mpConsumer : Bool) (r : ProviderResultSet) : List ProviderEvent :=
  match r.heap with
  | none => []
  | some heap =>
    if mpConsumer then
      [.getResultBufferFromProvider r.requestNo heap r.timestamp r.error]
    else [.releaseToPool r.requestNo heap r.timestamp r.error]

end ProviderResultSet

namespace StreamBufferProvider

def new (hasTimeStampInfo : Bool) : StreamBufferProvider :=
  { hasTimeStampInfo := hasTimeStampInfo }

def dequeStreamBuffer (s : StreamBufferProvider) (iRequestNo : ℕ)
    (rpStreamBuffer : HalImageStreamBuffer) (pHeap : Option IImageBufferHeap) :
    StreamBufferProvider × List ProviderEvent :=
  if s.mpBufferPool then
    match pHeap with
    | none => (s, [.answered .noMemory])
    | some heap =>
      ({ s with mBufferMap := s.mBufferMap.add rpStreamBuffer ⟨iRequestNo, heap⟩ },
        [.acquired iRequestNo heap, .answered .ok])
  else (s, [.answered .unknownError])

def mergePart (mResultSetMap : KeyedVector ℕ ProviderResultSet) (part : ProviderResultSet) :
    KeyedVector ℕ ProviderResultSet :=
  mResultSetMap.insertWith part.requestNo part fun result => result.merge part

def isComplete (hasTimeStampInfo : Bool) (r : ProviderResultSet) : Bool :=
  (r.heap.isSome && decide (0 ≤ r.timestamp)) || (!hasTimeStampInfo && r.heap.isSome)

def deliver (s : StreamBufferProvider) : StreamBufferProvider × List ProviderEvent :=
  let complete := s.mResultSetMap.filterVal (isComplete s.hasTimeStampInfo)
  ({ s with
      mResultSetMap := s.mResultSetMap.filterVal fun r => !isComplete s.hasTimeStampInfo r
      mConsumerMap :=
        if s.mpConsumer then
          complete.entries.foldl (fun m e => m.add e.2.requestNo e.2) s.mConsumerMap
        else s.mConsumerMap },
    complete.entries.flatMap fun e => e.2.handOver s.mpConsumer)

def removeItems (rvFrameEnd : List ℕ) (mResultSetMap : KeyedVector ℕ ProviderResultSet) :
    KeyedVector ℕ ProviderResultSet :=
  rvFrameEnd.foldl KeyedVector.remove mResultSetMap

/-- Hands over what is complete, and then handles the frame ends. -/
def handleReturn (s : StreamBufferProvider) : StreamBufferProvider × List ProviderEvent :=
  let delivered := s.deliver
  ({ delivered.1 with
      mResultSetMap := removeItems s.mvFrameEnd delivered.1.mResultSetMap
      mvFrameEnd := []
      ended := s.ended ++ s.mvFrameEnd },
    delivered.2)

def handleResult (s : StreamBufferProvider) (part : ProviderResultSet) :
    StreamBufferProvider × List ProviderEvent :=
  handleReturn { s with mResultSetMap := mergePart s.mResultSetMap part }

def enqueStreamBuffer (s : StreamBufferProvider) (rpStreamBuffer : HalImageStreamBuffer)
    (buf : BufferT) (error : Bool) : StreamBufferProvider × List ProviderEvent :=
  if s.mpBufferPool then
    let handled := { s with mBufferMap := s.mBufferMap.remove rpStreamBuffer }.handleResult
      ⟨buf.requestNo, some buf.heap, error, -1⟩
    (handled.1, handled.2 ++ [.answered .ok])
  else (s, [.answered .unknownError])

def doTimestampCallback (s : StreamBufferProvider) (requestNo : ℕ) (errorResult : Bool)
    (timestamp : ℤ) : StreamBufferProvider × List ProviderEvent :=
  { s with stamped := s.stamped ++ [requestNo] }.handleResult
    ⟨requestNo, none, errorResult, timestamp⟩

/-- Gives the heaps of all entries back to the pool, and flushes the consumer. -/
def flush (s : StreamBufferProvider) : StreamBufferProvider × List ProviderEvent :=
  ({ s with mResultSetMap := .empty },
    (s.mResultSetMap.entries.flatMap fun e => e.2.release) ++
      if s.mpConsumer then [.flushConsumer] else [])

def returnBuffer (s : StreamBufferProvider) (rpHeap : IImageBufferHeap) :
    StreamBufferProvider × List ProviderEvent :=
  match s.mConsumerMap.entries.find? fun e => decide (e.2.heap = some rpHeap) with
  | none => (s, [.answered .ok])
  | some (requestNo, r) =>
    ({ s with mConsumerMap := s.mConsumerMap.remove requestNo },
      [.releaseReturned r.requestNo rpHeap r.timestamp r.error, .answered .ok])

end StreamBufferProvider

/-- The provider as a machine. A stream buffer that is made has an address of its own, and one
that comes back has been made. -/
def providerMachine : Machine StreamBufferProvider ProviderOp ProviderEvent Blocked
  | s, .setBufferPool => .ok ({ s with mpBufferPool := true }, [])
  | s, .setPairRule pConsumer => .ok ({ s with mpConsumer := pConsumer }, [])
  | s, .dequeStreamBuffer iRequestNo rpStreamBuffer pHeap =>
    match s.mBufferMap.find? rpStreamBuffer with
    | some _ => .error .blocked
    | none => .ok (s.dequeStreamBuffer iRequestNo rpStreamBuffer pHeap)
  | s, .enqueStreamBuffer rpStreamBuffer error =>
    match s.mBufferMap.find? rpStreamBuffer with
    | none => .error .blocked
    | some buf => .ok (s.enqueStreamBuffer rpStreamBuffer buf error)
  | s, .doTimestampCallback requestNo errorResult timestamp =>
    .ok (s.doTimestampCallback requestNo errorResult timestamp)
  | s, .onFrameEnd requestNo => .ok ({ s with mvFrameEnd := s.mvFrameEnd ++ [requestNo] }, [])
  | s, .flush => .ok s.flush
  | s, .returnBuffer rpHeap => .ok (s.returnBuffer rpHeap)

end MtkHardware.LegacyPipeline
