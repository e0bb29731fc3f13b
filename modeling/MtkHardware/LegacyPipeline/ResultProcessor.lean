import MtkHardware.LegacyPipeline.BaseSelector
import MtkHardware.LegacyPipeline.MetadataMap
import MtkHardware.Util.BitSet32
import MtkHardware.Util.Run

/-!
# The Result Processor

A `ResultProcessor` takes the results of the frames and the early metadata, and hands them to its
listeners on a thread of its own. The updates of a frame are merged in `mResultQueue` until the
thread takes them, and collected in `mFullResultQueue` until the last of them has come, when the
full result is handed to the listeners of `mFullListenerList`.

Each listener is held by a weak reference: it is gone once its client has dropped it, at any time.

What is done under `mResultQueueLock` is one step of `resultProcessor`, and so is a call of
`handleResult`, which has taken what it handles from the queues. `flush` is five steps. A thread
that waits for `mResultQueueCond` may be woken at any time. A read of the first element of an
empty vector ends the process.
-/

namespace MtkHardware.LegacyPipeline

abbrev IListener := ℕ

structure IMetaStreamBuffer where
  streamId : StreamId
  metadata : MetadataMap
  /-- `STREAM_BUFFER_STATUS::ERROR`. -/
  error : Bool := false
  deriving DecidableEq

/-- `IAppCallback::Result`. -/
structure FrameResult where
  nAppOutMetaLeft : ℤ
  vAppOutMeta : List IMetaStreamBuffer
  nHalOutMetaLeft : ℤ
  vHalOutMeta : List IMetaStreamBuffer
  bFrameEnd : Bool := false
  deriving DecidableEq

structure RangeListener where
  startRequestNo : ℕ
  endRequestNo : ℕ
  listener : IListener
  deriving DecidableEq, Repr

structure StreamListener where
  streamId : StreamId
  listener : IListener
  deriving DecidableEq, Repr

/-- What the lists of listeners hold. -/
class ListenerBase (L : Type) where
  canCallback : L → ℕ → StreamId → Bool
  listener : L → IListener

instance : ListenerBase RangeListener where
  canCallback l requestNo _ :=
    decide (l.startRequestNo ≤ requestNo) && decide (requestNo ≤ l.endRequestNo)
  listener := RangeListener.listener

instance : ListenerBase StreamListener where
  canCallback l _ id := id == l.streamId
  listener := StreamListener.listener

/-- `BufferBit::RETURNED`. -/
def RETURNED : ℕ := 0

/-- `BufferBit::LAST_PARTIAL`. -/
def LAST_PARTIAL : ℕ := 1

/-- `eSTREAMID_META_HAL_FULL`. -/
def eSTREAMID_META_HAL_FULL : StreamId := 0x100C

/-- `eSTREAMID_META_APP_FULL`. -/
def eSTREAMID_META_APP_FULL : StreamId := 0x2011

structure ResultItem where
  requestNo : ℕ
  status : BitSet32 := BitSet32.clear
  outAppBuffer : List IMetaStreamBuffer
  outHalBuffer : List IMetaStreamBuffer
  deriving DecidableEq

structure EarlyResultItem where
  requestNo : ℕ
  streamId : StreamId
  errorResult : Bool
  metadata : MetadataMap
  deriving DecidableEq

/-- A call of `onResultReceived` to be made. -/
structure Callback where
  requestNo : ℕ
  streamId : StreamId
  errorResult : Bool
  buffer : MetadataMap
  listener : IListener
  deriving DecidableEq

abbrev BufQue := KeyedVector ℕ ResultItem

abbrev EBufQue := KeyedVector ℕ EarlyResultItem

inductive ResultThread
  /-- About to call `dequeResult`. -/
  | looping
  /-- In the wait of `dequeResult`. -/
  | waiting (signaled : Bool)
  /-- About to call `handleResult`. -/
  | handling (rvResult : BufQue) (rvEarlyResult : EBufQue) (rvFrameEnd : List ℕ)
  | exited
  deriving DecidableEq

/-- What the call of `flush` has done. -/
inductive FlushAt
  | notCalled
  | exitRequested
  | listenersCleared
  | resultsCleared
  | fullResultsCleared
  | joined
  deriving DecidableEq, Repr

/-- The processor, its thread, the call of `flush`, and the clients that are gone. -/
structure ResultProcessor where
  mRangeListenerList : List RangeListener := []
  mStreamListenerList : List StreamListener := []
  mEarlyListenerList : List IListener := []
  mResultQueue : BufQue := .empty
  mFrameEndList : List ℕ := []
  mEarlyResultQueue : EBufQue := .empty
  mFullResultQueue : BufQue := .empty
  mFullListenerList : List RangeListener := []
  thread : ResultThread := .looping
  flushAt : FlushAt := .notCalled
  gone : List IListener := []
  /-- Has a read of an empty vector ended the process? -/
  aborted : Bool := false
  deriving DecidableEq

inductive ResultOp
  | updateFrame (requestNo : ℕ) (result : FrameResult)
  | onMetaCallback (requestNo : ℕ) (streamId : StreamId) (rMetaData : MetadataMap)
      (errorResult : Bool)
  /-- The thread calls `dequeResult`. -/
  | dequeResult
  /-- The thread wakes up in `dequeResult`. -/
  | wakeUp
  | handleResult
  /-- The next step of `flush`. -/
  | flush
  /-- A client drops its last reference. -/
  | drop (listener : IListener)
  deriving DecidableEq

inductive ResultEvent
  /-- `onResultReceived`, by `handlePartialResultCallback`. -/
  | partialResult (callback : Callback)
  /-- `onResultReceived`, by `handleFullResultCallback`. -/
  | fullResult (callback : Callback)
  | onFrameEnd (listener : IListener) (requestNo : ℕ)
  | onMetaReceived (listener : IListener) (item : EarlyResultItem)
  deriving DecidableEq

namespace ResultItem

def isLast (item : ResultItem) : Bool := item.status.hasBit LAST_PARTIAL

def isReturned (item : ResultItem) : Bool := item.status.hasBit RETURNED

end ResultItem

namespace ResultProcessor

/-- `wp::promote`: the client of a listener, unless it is gone. -/
def getListener {L : Type} [ListenerBase L] (gone : List IListener) (item : L) :
    Option IListener :=
  if ListenerBase.listener item ∈ gone then none else some (ListenerBase.listener item)

/-- `Thread::exitPending`. -/
def exitPending (p : ResultProcessor) : Bool := p.flushAt != .notCalled

/-- `mResultQueueCond.broadcast`. -/
def broadcast (p : ResultProcessor) : ResultProcessor :=
  match p.thread with
  | .waiting _ => { p with thread := .waiting true }
  | _ => p

/-- What `updateFrame` and `collectPartialResult` do to their queue: the buffers are appended to
those of the request, and the bit of the last update is marked. -/
def addResult (q : BufQue) (requestNo : ℕ) (app hal : List IMetaStreamBuffer) (last : Bool) :
    BufQue :=
  let mark (status : BitSet32) := if last then status.markBit LAST_PARTIAL else status
  q.insertWith requestNo
    { requestNo, status := mark .clear, outAppBuffer := app, outHalBuffer := hal }
    fun item => { item with
      status := mark item.status
      outAppBuffer := item.outAppBuffer ++ app
      outHalBuffer := item.outHalBuffer ++ hal }

def updateFrame (p : ResultProcessor) (requestNo : ℕ) (result : FrameResult) :
    ResultProcessor :=
  if p.exitPending then p
  else if result.bFrameEnd then { p with mFrameEndList := p.mFrameEndList ++ [requestNo] }
  else { p with
    mResultQueue := addResult p.mResultQueue requestNo result.vAppOutMeta result.vHalOutMeta
      (decide (result.nAppOutMetaLeft = 0) && decide (result.nHalOutMetaLeft = 0)) }.broadcast

/-- Takes an early metadata, unless there is one of the request already. -/
def onMetaCallback (p : ResultProcessor) (item : EarlyResultItem) : ResultProcessor :=
  if p.exitPending then p
  else match p.mEarlyResultQueue.find? item.requestNo with
    | some _ => p
    | none => { p with
        mEarlyResultQueue := p.mEarlyResultQueue.add item.requestNo item }.broadcast

/-- The thread back in `_threadLoop`, which ends if an exit has been requested. -/
def loop (p : ResultProcessor) : ResultProcessor :=
  { p with thread := if p.exitPending then .exited else .looping }

/-- `dequeResult` from the test of its loop on, with the test of `threadLoop`. -/
def dequeResult (p : ResultProcessor) : ResultProcessor :=
  if p.mResultQueue.entries.isEmpty then
    if p.exitPending then p.loop else { p with thread := .waiting false }
  else { p with
    thread := .handling p.mResultQueue p.mEarlyResultQueue p.mFrameEndList
    mResultQueue := .empty
    mEarlyResultQueue := .empty
    mFrameEndList := [] }

/-! ### Partial results -/

section Listeners

variable {L : Type} [ListenerBase L]

def addPartialCallback (gone : List IListener) (requestNo : ℕ) (item : L) :
    List IMetaStreamBuffer → List Callback → List Callback
  | [], callbackList => callbackList
  | b :: vOutMeta, callbackList =>
    if ListenerBase.canCallback item requestNo b.streamId then
      match getListener gone item with
      | none => callbackList
      | some listener => addPartialCallback gone requestNo item vOutMeta (callbackList ++
          [{ requestNo, streamId := b.streamId, errorResult := b.error,
             buffer := b.metadata, listener }])
    else addPartialCallback gone requestNo item vOutMeta callbackList

def handleListener (gone : List IListener) (pItem : ResultItem) (listenerList : List L)
    (callbackList : List Callback) : List Callback :=
  listenerList.foldl (fun callbackList item =>
    addPartialCallback gone pItem.requestNo item pItem.outHalBuffer
      (addPartialCallback gone pItem.requestNo item pItem.outAppBuffer callbackList))
    callbackList

end Listeners

/-- Collects the results that have been taken, up to a full result for each request. -/
def collectPartialResult (q : BufQue) (requestNo : ℕ) (rpItem : ResultItem) : BufQue :=
  addResult q requestNo rpItem.outAppBuffer rpItem.outHalBuffer rpItem.isLast

def handlePartialResultCallback (p : ResultProcessor) (rvResult : BufQue) :
    ResultProcessor × List ResultEvent :=
  let callbacks (e : ℕ × ResultItem) :=
    handleListener p.gone e.2 p.mStreamListenerList
      (handleListener p.gone e.2 p.mRangeListenerList [])
  let mFullResultQueue := rvResult.entries.foldl
    (fun q e => collectPartialResult q e.1 e.2) p.mFullResultQueue
  ({ p with mFullResultQueue }, rvResult.entries.flatMap fun e =>
    (callbacks e).map .partialResult)

/-! ### Full results -/

/-- The callback of a listener for a full result: the metadata of all buffers are added to that
of the first. There is none if the listener has no use for it, and the process is ended if there
is no first buffer. -/
def addFullCallback (gone : List IListener) (requestNo : ℕ) (streamId : StreamId)
    (item : RangeListener) (vOutMeta : List IMetaStreamBuffer) (callbackList : List Callback) :
    Option (List Callback) :=
  if ListenerBase.canCallback item requestNo 0 then
    match getListener gone item with
    | none => some callbackList
    | some listener =>
      match vOutMeta with
      | [] => none
      | b :: bs =>
        let result := bs.foldl (fun result b => result.append b.metadata) b.metadata
        let errorResult := ((b :: bs).getLast (List.cons_ne_nil b bs)).error
        some (callbackList ++
          [{ requestNo, streamId, errorResult, buffer := result, listener }])
  else some callbackList

/-- The loop over the listeners for an item: the item and the callbacks, unless the process is
ended. The bit of the item is marked at the first listener, called back or not. -/
def handleFullItem (gone : List IListener) :
    List RangeListener → ResultItem → List Callback → Option (ResultItem × List Callback)
  | [], pItem, callbackList => some (pItem, callbackList)
  | item :: listeners, pItem, callbackList =>
    if pItem.isLast && !pItem.isReturned then do
      let callbackList ← addFullCallback gone pItem.requestNo eSTREAMID_META_APP_FULL item
        pItem.outAppBuffer callbackList
      let callbackList ← addFullCallback gone pItem.requestNo eSTREAMID_META_HAL_FULL item
        pItem.outHalBuffer callbackList
      handleFullItem gone listeners { pItem with status := pItem.status.markBit RETURNED }
        callbackList
    else handleFullItem gone listeners pItem callbackList

def handledItem (gone : List IListener) (listeners : List RangeListener) (pItem : ResultItem) :
    ResultItem :=
  ((handleFullItem gone listeners pItem []).map Prod.fst).getD pItem

/-- The full results of the items: have they all been handled, or has one ended the process? -/
def handleFullResultCallback (gone : List IListener) (listeners : List RangeListener) :
    List (ℕ × ResultItem) → Bool × List ResultEvent
  | [] => (true, [])
  | (_, pItem) :: items =>
    match handleFullItem gone listeners pItem [] with
    | none => (false, [])
    | some (_, callbackList) =>
      let (handled, events) := handleFullResultCallback gone listeners items
      (handled, callbackList.map .fullResult ++ events)

/-! ### Frame ends and early metadata -/

/-- `HANDLE_FRAME_END`: calls the listeners of a list, and drops those that are gone. -/
def handleFrameEnd {L : Type} [ListenerBase L] (gone : List IListener) (requestNo : ℕ)
    (listeners : List L) : List L × List ResultEvent :=
  (listeners.filter fun item => (getListener gone item).isSome,
    (listeners.filterMap (getListener gone)).map (.onFrameEnd · requestNo))

def handleFrameEnds (p : ResultProcessor) : List ℕ → ResultProcessor × List ResultEvent
  | [] => (p, [])
  | requestNo :: rvFrameEnd =>
    let (range, events₁) := handleFrameEnd p.gone requestNo p.mRangeListenerList
    let (stream, events₂) := handleFrameEnd p.gone requestNo p.mStreamListenerList
    let (full, events₃) := handleFrameEnd p.gone requestNo p.mFullListenerList
    let (p', events) := handleFrameEnds { p with
      mRangeListenerList := range
      mStreamListenerList := stream
      mFullListenerList := full } rvFrameEnd
    (p', events₁ ++ events₂ ++ events₃ ++ events)

def handleEarly (p : ResultProcessor) : List EarlyResultItem → ResultProcessor × List ResultEvent
  | [] => (p, [])
  | pItem :: items =>
    let listeners := p.mEarlyListenerList.filter (· ∉ p.gone)
    let (p', events) := handleEarly { p with mEarlyListenerList := listeners } items
    (p', listeners.map (.onMetaReceived · pItem) ++ events)

def handleResult (p : ResultProcessor) (rvResult : BufQue) (rvEarlyResult : EBufQue)
    (rvFrameEnd : List ℕ) : ResultProcessor × List ResultEvent :=
  let (p₁, events₁) := p.handlePartialResultCallback rvResult
  match handleFullResultCallback p₁.gone p₁.mFullListenerList p₁.mFullResultQueue.entries with
  | (false, events₂) => ({ p₁ with aborted := true }, events₁ ++ events₂)
  | (true, events₂) =>
    let p₂ := { p₁ with mFullResultQueue := (p₁.mFullResultQueue.mapVal fun _ =>
      handledItem p₁.gone p₁.mFullListenerList).filterVal (!·.isLast) }
    let (p₃, events₃) := p₂.handleFrameEnds rvFrameEnd
    let (p₄, events₄) := p₃.handleEarly (rvEarlyResult.entries.map Prod.snd)
    (p₄.loop, events₁ ++ events₂ ++ events₃ ++ events₄)

/-! ### Flush -/

/-- The next step of `flush`, or its last, `join`, once the thread has exited. -/
def flush (p : ResultProcessor) : Except Blocked ResultProcessor :=
  match p.flushAt with
  | .notCalled => .ok { p with flushAt := .exitRequested }
  | .exitRequested => .ok { p with
      flushAt := .listenersCleared
      mRangeListenerList := []
      mFullListenerList := []
      mStreamListenerList := [] }
  | .listenersCleared => .ok { p with
      flushAt := .resultsCleared
      mResultQueue := .empty
      mFrameEndList := [] }.broadcast
  | .resultsCleared => .ok { p with
      flushAt := .fullResultsCleared
      mFullResultQueue := .empty }
  | .fullResultsCleared =>
    if p.thread = .exited then .ok { p with flushAt := .joined } else .error .blocked
  | .joined => .error .blocked

def started (mRangeListenerList mFullListenerList : List RangeListener)
    (mStreamListenerList : List StreamListener) (mEarlyListenerList : List IListener) :
    ResultProcessor :=
  { mRangeListenerList, mFullListenerList, mStreamListenerList, mEarlyListenerList }

def step (p : ResultProcessor) (op : ResultOp) :
    Except Blocked (ResultProcessor × List ResultEvent) :=
  if p.aborted then .error .blocked
  else match op with
    | .updateFrame requestNo result => .ok (p.updateFrame requestNo result, [])
    | .onMetaCallback requestNo streamId rMetaData errorResult =>
      .ok (p.onMetaCallback { requestNo, streamId, errorResult, metadata := rMetaData }, [])
    | .dequeResult =>
      if p.thread = .looping then .ok (p.dequeResult, []) else .error .blocked
    | .wakeUp =>
      match p.thread with
      | .waiting _ => .ok (p.dequeResult, [])
      | _ => .error .blocked
    | .handleResult =>
      match p.thread with
      | .handling rvResult rvEarlyResult rvFrameEnd =>
        .ok (p.handleResult rvResult rvEarlyResult rvFrameEnd)
      | _ => .error .blocked
    | .flush =>
      match p.flush with
      | .ok p' => .ok (p', [])
      | .error e => .error e
    | .drop listener => .ok ({ p with gone := listener :: p.gone }, [])

end ResultProcessor

/-- The callers, the thread and the clients of a processor. -/
def resultProcessor : Machine ResultProcessor ResultOp ResultEvent Blocked := ResultProcessor.step

end MtkHardware.LegacyPipeline
