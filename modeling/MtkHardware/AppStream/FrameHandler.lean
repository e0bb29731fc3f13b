import MtkHardware.Pipeline.FrameControl
import MtkHardware.Util.BitSet32
import MtkHardware.Util.KeyedVector
import MtkHardware.Util.Run

/-!
# Frame Handler

The frame handler of the application stream manager keeps a queue of the requests in
flight. Each request has an item for every image buffer that it came with, and gets an
item for every metadata buffer that the pipeline reports. `update` comes in two parts: one
applies the results that have arrived to the frames they belong to, the other walks
through the frame queue and prepares what is to be handed back to the camera framework.

The definitions follow `AppStreamMgr.FrameHandler.cpp` and `AppStreamMgr.h`. Frames and
image items, which the source shares by pointer, are addressed by the order in which they
were made; a metadata item is reached through its set only and is kept there. What the
source overloads by item kind is told apart by a suffix.

The users of a stream buffer run in threads of their own, so what they have done by the
time of a pass is an argument of the pass, `BufferEnv`: a pass asks about a buffer at most
once.
-/

namespace MtkHardware.AppStream

open Pipeline (StreamId UserStatus.release UserStatus.preRelease)

abbrev FrameNo := Fin (2 ^ 32)

/-- Numerals are frame numbers. -/
scoped instance neZeroFrameNo : NeZero (2 ^ 32) := ⟨by decide⟩

/-- `0 < (MINT32)(a - b)`. -/
def FrameNo.isAfter (a b : FrameNo) : Bool := 0 < (BitVec.ofFin (a - b)).toInt

abbrev FramePtr := ℕ

abbrev ImagePtr := ℕ

/-! ### Stream buffers -/

structure AppImageStreamBuffer where
  handle : ℕ
  streamId : StreamId
  acquireFence : ℤ := -1
  releaseFence : ℤ := -1
  deriving DecidableEq, Repr

inductive StreamType
  | metaIn
  | metaOut
  deriving DecidableEq, Repr

structure MetaStreamBuffer where
  handle : ℕ
  streamId : StreamId
  streamType : StreamType := .metaOut
  deriving DecidableEq, Repr

structure ImageBufferStatus where
  getAllUsersStatus : BitVec 32
  haveAllUsersReleased : Bool
  hasStatusError : Bool
  createAcquireFence : ℤ
  createReleaseFence : ℤ

structure MetaBufferStatus where
  haveAllUsersReleased : Bool
  haveAllProducerUsersReleased : Bool
  hasStatusError : Bool
  sensorTimestamp : Option (BitVec 64)

/-- What the handler finds when it asks about the buffer behind a handle. -/
structure BufferEnv where
  image : ℕ → ImageBufferStatus
  metadata : ℕ → MetaBufferStatus

/-! ### Items and frames -/

inductive State
  | inFlight
  | preRelease
  | valid
  | error
  deriving DecidableEq, Repr

namespace HistoryBit

def returned : ℕ := 0

def errorSentFrame : ℕ := 1

def errorSentMeta : ℕ := 2

def errorSentImage : ℕ := 3

end HistoryBit

structure ImageItem where
  pFrame : FramePtr
  asInput : Bool
  state : State := .inFlight
  history : BitSet32 := .clear
  buffer : AppImageStreamBuffer
  deriving DecidableEq

def ImageItem.streamId (i : ImageItem) : StreamId := i.buffer.streamId

/-- A set of image items. A released item has been set to `NULL`. -/
structure ImageItemSet where
  items : KeyedVector StreamId (Option ImagePtr) := .empty
  numReturnedStreams : ℕ := 0
  numValidStreams : ℕ := 0
  numErrorStreams : ℕ := 0

/-- A metadata item. The source keeps only the buffer number of the item that came as the
last partial; here the item also remembers that it did. No function reads it. -/
structure MetaItem where
  pFrame : FramePtr
  state : State := .inFlight
  history : BitSet32 := .clear
  buffer : MetaStreamBuffer
  bufferNo : ℕ := 0
  lastPartial : Bool := false
  deriving DecidableEq

structure MetaItemSet where
  items : KeyedVector StreamId (Option MetaItem) := .empty
  numReturnedStreams : ℕ := 0
  numValidStreams : ℕ := 0
  numErrorStreams : ℕ := 0
  hasLastPartial : Bool := false

/-- The item of the largest stream, if the set has one and it is not `NULL`. -/
def MetaItemSet.lastItem (set : MetaItemSet) : Option MetaItem :=
  set.items.last?.bind Prod.snd

/-- Does an earlier frame with these metadata items keep a final one back? -/
def MetaItemSet.blocksFinal (set : MetaItemSet) : Bool :=
  match set.items.last? with
  | none => true
  | some (_, pMetaItem) =>
    (set.hasLastPartial && pMetaItem.isSome) || (!set.hasLastPartial && pMetaItem.isNone)

structure FrameParcel where
  vOutputImageItem : ImageItemSet := {}
  vInputImageItem : ImageItemSet := {}
  vOutputMetaItem : MetaItemSet := {}
  frameNo : FrameNo := 0
  timestampShutter : BitVec 64 := 0
  errors : BitSet32 := .clear

def FrameParcel.itemSet (f : FrameParcel) (asInput : Bool) : ImageItemSet :=
  if asInput then f.vInputImageItem else f.vOutputImageItem

def FrameParcel.editItemSet (f : FrameParcel) (asInput : Bool)
    (g : ImageItemSet → ImageItemSet) : FrameParcel :=
  if asInput then { f with vInputImageItem := g f.vInputImageItem }
  else { f with vOutputImageItem := g f.vOutputImageItem }

/-! ### Callback parcels -/

/-- An image buffer that is handed back. The address and the state of its item tell which
item it was; the source drops them. -/
structure CallbackParcel.ImageItem where
  buffer : AppImageStreamBuffer
  stream : StreamId
  item : ImagePtr
  state : State
  deriving DecidableEq, Repr

/-- A metadata buffer that is handed back. The item that it was held by is kept too; the
source drops it. -/
structure CallbackParcel.MetaItem where
  buffer : MetaStreamBuffer
  bufferNo : ℕ
  item : AppStream.MetaItem
  deriving DecidableEq

inductive ErrorCode
  | errorRequest
  | errorResult
  | errorBuffer
  deriving DecidableEq, Repr

structure CallbackParcel.Error where
  stream : Option StreamId := none
  errorCode : ErrorCode
  deriving DecidableEq, Repr

structure CallbackParcel where
  vInputImageItem : List CallbackParcel.ImageItem := []
  vOutputImageItem : List CallbackParcel.ImageItem := []
  vOutputMetaItem : List CallbackParcel.MetaItem := []
  vError : List CallbackParcel.Error := []
  shutter : Option (BitVec 64) := none
  timestampShutter : BitVec 64 := 0
  frameNo : FrameNo
  pFrame : FramePtr
  valid : Bool := false
  deriving DecidableEq

def CallbackParcel.images (cb : CallbackParcel) (asInput : Bool) :
    List CallbackParcel.ImageItem :=
  if asInput then cb.vInputImageItem else cb.vOutputImageItem

def CallbackParcel.addImage (cb : CallbackParcel) (asInput : Bool)
    (i : CallbackParcel.ImageItem) : CallbackParcel :=
  if asInput then { cb with vInputImageItem := cb.vInputImageItem ++ [i] }
  else { cb with vOutputImageItem := cb.vOutputImageItem ++ [i] }

/-! ### The handler -/

/-- The state of the frame handler: the frame queue, the frames of each configured image
stream, and the frames and image items made so far. -/
structure FrameHandler where
  mAtMostMetaStreamCount : ℕ
  mFrameQueue : List FramePtr := []
  latestResultFrameNo : FrameNo := 0
  /-- The `vItemFrameQueue` of each configured image stream. -/
  mImageConfigMap : KeyedVector StreamId (List ImagePtr) := .empty
  frames : FramePtr → FrameParcel := fun _ => {}
  numFrames : ℕ := 0
  items : ImagePtr → ImageItem := fun _ =>
    { pFrame := 0, asInput := false, buffer := { handle := 0, streamId := 0 } }
  numItems : ℕ := 0

/-- The source would use an item that is `NULL`. -/
inductive Fault
  | nullItem
  deriving DecidableEq, Repr

namespace FrameHandler

def editFrame (s : FrameHandler) (f : FramePtr) (g : FrameParcel → FrameParcel) :
    FrameHandler :=
  { s with frames := Function.update s.frames f (g (s.frames f)) }

def editItem (s : FrameHandler) (p : ImagePtr) (g : ImageItem → ImageItem) : FrameHandler :=
  { s with items := Function.update s.items p (g (s.items p)) }

def editItemSet (s : FrameHandler) (f : FramePtr) (asInput : Bool)
    (g : ImageItemSet → ImageItemSet) : FrameHandler :=
  s.editFrame f (·.editItemSet asInput g)

def editMetaSet (s : FrameHandler) (f : FramePtr) (g : MetaItemSet → MetaItemSet) :
    FrameHandler :=
  s.editFrame f fun frame => { frame with vOutputMetaItem := g frame.vOutputMetaItem }

/-- The `vItemFrameQueue` of a stream. -/
def vItemFrameQueue (s : FrameHandler) (k : StreamId) : List ImagePtr :=
  (s.mImageConfigMap.find? k).getD []

def addConfigStream (s : FrameHandler) (k : StreamId) : FrameHandler :=
  { s with mImageConfigMap := s.mImageConfigMap.add k [] }

def configure (mAtMostMetaStreamCount : ℕ) (streams : List StreamId) : FrameHandler :=
  streams.foldl addConfigStream { mAtMostMetaStreamCount }

end FrameHandler

/-! ### Registering -/

theorem ImageBuffers.keyed_empty (k : StreamId) (b : AppImageStreamBuffer)
    (h : (KeyedVector.empty : KeyedVector StreamId AppImageStreamBuffer).find? k = some b) :
    b.streamId = k := by
  cases h

/-- The image buffers of a request, each under its own stream. -/
structure ImageBuffers where
  buffers : KeyedVector StreamId AppImageStreamBuffer := .empty
  keyed : ∀ k b, buffers.find? k = some b → b.streamId = k := by
    exact ImageBuffers.keyed_empty

/-- Adds a buffer under its stream, as `createRequest` does. -/
def ImageBuffers.add (v : ImageBuffers) (b : AppImageStreamBuffer) : ImageBuffers where
  buffers := v.buffers.add b.streamId b
  keyed k b' h := by
    rw [KeyedVector.find?_add] at h
    split at h
    · cases h
      exact Eq.symm ‹_›
    · exact v.keyed k b' h

structure Request where
  frameNo : FrameNo
  vInputImageBuffers : ImageBuffers := {}
  vOutputImageBuffers : ImageBuffers := {}

namespace FrameHandler

/-- Makes an item for a buffer, at the end of the queue of its stream. -/
def registerItem (s : FrameHandler) (f : FramePtr) (asInput : Bool)
    (b : AppImageStreamBuffer) : FrameHandler :=
  { s with
    mImageConfigMap := s.mImageConfigMap.modify b.streamId (· ++ [s.numItems])
    items := Function.update s.items s.numItems { pFrame := f, asInput, buffer := b }
    numItems := s.numItems + 1 }.editItemSet f asInput fun set =>
      { set with items := set.items.add b.streamId (some s.numItems) }

def registerStreamBuffers (f : FramePtr) (asInput : Bool) :
    List AppImageStreamBuffer → FrameHandler → FrameHandler
  | [], s => s
  | b :: bs, s =>
    match s.mImageConfigMap.find? b.streamId with
    | none => s
    | some _ => registerStreamBuffers f asInput bs (s.registerItem f asInput b)

/-- The values of the buffers of a request, in index order. -/
def buffersOf (v : ImageBuffers) : List AppImageStreamBuffer :=
  v.buffers.entries.map Prod.snd

def pushFrame (s : FrameHandler) (frameNo : FrameNo) : FrameHandler :=
  { s with
    mFrameQueue := s.mFrameQueue ++ [s.numFrames]
    frames := Function.update s.frames s.numFrames { frameNo }
    numFrames := s.numFrames + 1 }

def registerFrame (s : FrameHandler) (rRequest : Request) : FrameHandler :=
  let pFrame := s.numFrames
  let s := s.pushFrame rRequest.frameNo
  let s := registerStreamBuffers pFrame false (buffersOf rRequest.vOutputImageBuffers) s
  registerStreamBuffers pFrame true (buffersOf rRequest.vInputImageBuffers) s

end FrameHandler

/-! ### Applying results -/

structure ResultItem where
  lastPartial : Bool
  frameNo : FrameNo
  buffer : List MetaStreamBuffer
  deriving DecidableEq, Repr

abbrev ResultQueue := KeyedVector FrameNo ResultItem

namespace FrameHandler

def updateMetaItem (env : BufferEnv) (f : FramePtr) (s : FrameHandler) (k : StreamId) :
    FrameHandler :=
  match (s.frames f).vOutputMetaItem.items.find? k with
  | some (some pItem) =>
    if pItem.state ≠ .valid ∧ pItem.state ≠ .error ∧
        pItem.buffer.streamType ≠ .metaIn ∧
        (env.metadata pItem.buffer.handle).haveAllProducerUsersReleased = true then
      if (env.metadata pItem.buffer.handle).hasStatusError then
        s.editMetaSet f fun set => { set with
          items := set.items.modify k fun _ => some { pItem with state := .error }
          numErrorStreams := set.numErrorStreams + 1 }
      else
        s.editMetaSet f fun set => { set with
          items := set.items.modify k fun _ => some { pItem with state := .valid }
          numValidStreams := set.numValidStreams + 1 }
    else s
  | _ => s

/-- `updateItemSet` on the metadata set of a frame. -/
def updateMetaItemSet (env : BufferEnv) (f : FramePtr) (s : FrameHandler) : FrameHandler :=
  (s.frames f).vOutputMetaItem.items.keys.foldl (updateMetaItem env f) s

def releaseHandler (env : BufferEnv) (s : FrameHandler) (p : ImagePtr) : FrameHandler :=
  let pItem := s.items p
  if (env.image pItem.buffer.handle).hasStatusError then
    (s.editItem p fun i => { i with
      state := .error
      buffer := { i.buffer with
        releaseFence := (env.image pItem.buffer.handle).createAcquireFence
        acquireFence := -1 } }).editItemSet pItem.pFrame pItem.asInput fun set =>
          { set with numErrorStreams := set.numErrorStreams + 1 }
  else
    (s.editItem p fun i => { i with
      state := .valid
      buffer := { i.buffer with
        releaseFence := -1
        acquireFence := -1 } }).editItemSet pItem.pFrame pItem.asInput fun set =>
          { set with numValidStreams := set.numValidStreams + 1 }

def preReleaseHandler (env : BufferEnv) (s : FrameHandler) (p : ImagePtr) : FrameHandler :=
  s.editItem p fun i => { i with
    state := .preRelease
    buffer := { i.buffer with
      releaseFence := (env.image i.buffer.handle).createReleaseFence
      acquireFence := -1 } }

def updateImageItem (env : BufferEnv) (f : FramePtr) (asInput : Bool) (s : FrameHandler)
    (k : StreamId) : FrameHandler :=
  match ((s.frames f).itemSet asInput).items.find? k with
  | some (some p) =>
    let pItem := s.items p
    match pItem.state with
    | .inFlight =>
      if (env.image pItem.buffer.handle).getAllUsersStatus = UserStatus.release then
        releaseHandler env s p
      else if (env.image pItem.buffer.handle).getAllUsersStatus = UserStatus.preRelease then
        preReleaseHandler env s p
      else s
    | .preRelease =>
      if (env.image pItem.buffer.handle).haveAllUsersReleased then releaseHandler env s p else s
    | _ => s
  | _ => s

/-- `updateItemSet` on an image set of a frame. -/
def updateImageItemSet (env : BufferEnv) (f : FramePtr) (asInput : Bool)
    (s : FrameHandler) : FrameHandler :=
  ((s.frames f).itemSet asInput).items.keys.foldl (updateImageItem env f asInput) s

def addMetaItem (f : FramePtr) (s : FrameHandler) (pBuffer : MetaStreamBuffer) :
    FrameHandler :=
  s.editMetaSet f fun set => { set with
    items := set.items.add pBuffer.streamId
      (some { pFrame := f, buffer := pBuffer, bufferNo := set.items.size + 1 }) }

def markLastPartial (f : FramePtr) (s : FrameHandler) (pBuffer : MetaStreamBuffer) :
    FrameHandler :=
  s.editMetaSet f fun set => { set with
    items := set.items.modify pBuffer.streamId fun pItem => pItem.map fun i =>
      { i with bufferNo := s.mAtMostMetaStreamCount, lastPartial := true }
    hasLastPartial := true }

/-- Puts the metadata of a result into the set of its frame. -/
def addResult (f : FramePtr) (r : ResultItem) (s : FrameHandler) : FrameHandler :=
  let s := r.buffer.foldl (addMetaItem f) s
  match r.buffer.getLast? with
  | none => s
  | some pBuffer => if r.lastPartial then markLastPartial f s pBuffer else s

def applyResult (env : BufferEnv) (f : FramePtr) (r : ResultItem) (s : FrameHandler) :
    FrameHandler :=
  updateImageItemSet env f true
    (updateImageItemSet env f false (updateMetaItemSet env f (addResult f r s)))

/-- Applies the results in order. The second argument is what is left of the frame queue
from the iterator on: the search for a frame goes forward, and starts again at the front
after a frame that is not there. -/
def applyResults (env : BufferEnv) :
    List ResultItem → List FramePtr → FrameHandler → FrameHandler
  | [], _, s => s
  | r :: rs, itFrame, s =>
    match itFrame.dropWhile fun f => r.frameNo ≠ (s.frames f).frameNo with
    | [] => applyResults env rs s.mFrameQueue s
    | f :: itFrame => applyResults env rs (f :: itFrame) (applyResult env f r s)

/-- `update(results)`. The results are never empty. -/
def updateResults (env : BufferEnv) (rvResult : ResultQueue) (s : FrameHandler) :
    FrameHandler :=
  match s.mFrameQueue with
  | [] => s
  | _ =>
    let s := applyResults env (rvResult.entries.map Prod.snd) s.mFrameQueue s
    match rvResult.last? with
    | none => s
    | some (_, r) =>
      if r.frameNo.isAfter s.latestResultFrameNo then
        { s with latestResultFrameNo := r.frameNo }
      else s

end FrameHandler

/-! ### Errors -/

/-- Is the frame a request error? Positive if it is, negative if it is not, and zero while
that is uncertain. -/
def checkRequestError (frame : FrameParcel) : ℤ :=
  if frame.vOutputImageItem.numValidStreams > 0 ∨
      (frame.vOutputMetaItem.numValidStreams = frame.vOutputMetaItem.items.size ∧
        frame.vOutputMetaItem.hasLastPartial = true) then -1
  else if frame.vOutputImageItem.numErrorStreams = frame.vOutputImageItem.items.size ∧
      frame.vOutputMetaItem.numErrorStreams > 0 then 1
  else 0

namespace FrameHandler

def cbItem (s : FrameHandler) (p : ImagePtr) : CallbackParcel.ImageItem where
  buffer := (s.items p).buffer
  stream := (s.items p).streamId
  item := p
  state := (s.items p).state

/-- The item is returned: it leaves the queue of its stream. -/
def returnItem (s : FrameHandler) (p : ImagePtr) : FrameHandler :=
  let pItem := s.items p
  { s with
    items := Function.update s.items p
      { pItem with history := pItem.history.markBit HistoryBit.returned }
    mImageConfigMap := s.mImageConfigMap.modify pItem.streamId (·.erase p) }.editItemSet
      pItem.pFrame pItem.asInput fun set =>
        { set with numReturnedStreams := set.numReturnedStreams + 1 }

def prepareReturnImage (s : FrameHandler) (cb : CallbackParcel) (p : ImagePtr) :
    FrameHandler × CallbackParcel :=
  let cb := { cb with valid := true }
  if (s.items p).history.hasBit HistoryBit.returned then (s, cb)
  else (s.returnItem p, cb.addImage (s.items p).asInput (s.cbItem p))

def prepareErrorFrameImage (f : FramePtr) (x : FrameHandler × CallbackParcel)
    (k : StreamId) : Except Fault (FrameHandler × CallbackParcel) :=
  match (x.1.frames f).vOutputImageItem.items.find? k with
  | some (some p) => .ok (x.1.prepareReturnImage x.2 p)
  | _ => .error .nullItem

def prepareErrorFrame (s : FrameHandler) (cb : CallbackParcel) (f : FramePtr) :
    Except Fault (FrameHandler × CallbackParcel) :=
  let cb := { cb with
    valid := true
    vError := cb.vError ++ [{ errorCode := .errorRequest }] }
  match (s.frames f).vOutputImageItem.items.keys.foldlM (prepareErrorFrameImage f) (s, cb) with
  | .error e => .error e
  | .ok (s, cb) => .ok (s.editFrame f fun frame =>
    { frame with errors := frame.errors.markBit HistoryBit.errorSentFrame }, cb)

/-- Reports a metadata error, once for the frame. The item is edited in place. -/
def prepareErrorMetaIfPossible (s : FrameHandler) (cb : CallbackParcel) (pItem : MetaItem) :
    FrameHandler × CallbackParcel × MetaItem :=
  let pItem' := { pItem with history := pItem.history.markBit HistoryBit.errorSentMeta }
  if (s.frames pItem.pFrame).errors.hasBit HistoryBit.errorSentMeta then (s, cb, pItem')
  else
    (s.editFrame pItem.pFrame fun frame =>
      { frame with errors := frame.errors.markBit HistoryBit.errorSentMeta },
      { cb with vError := cb.vError ++ [{ errorCode := .errorResult }], valid := true },
      pItem')

def prepareErrorImage (s : FrameHandler) (cb : CallbackParcel) (p : ImagePtr) :
    FrameHandler × CallbackParcel :=
  (s.editItem p fun i => { i with history := i.history.markBit HistoryBit.errorSentImage },
    { cb with
      valid := true
      vError := cb.vError ++
        [{ errorCode := .errorBuffer, stream := some (s.items p).streamId }] })

/-! ### Metadata -/

def prepareShutterNotificationIfPossible (env : BufferEnv) (s : FrameHandler)
    (cb : CallbackParcel) (pItem : MetaItem) : FrameHandler × CallbackParcel :=
  if (s.frames pItem.pFrame).timestampShutter = 0 then
    match (env.metadata pItem.buffer.handle).sensorTimestamp with
    | none => (s, cb)
    | some timestamp =>
      (s.editFrame pItem.pFrame fun frame => { frame with timestampShutter := timestamp },
        { cb with shutter := some timestamp, valid := true })
  else (s, cb)

def prepareReturnMeta (s : FrameHandler) (cb : CallbackParcel) (pItem : MetaItem) :
    FrameHandler × CallbackParcel × MetaItem :=
  let s := s.editMetaSet pItem.pFrame fun set =>
    { set with numReturnedStreams := set.numReturnedStreams + 1 }
  let bufferNo :=
    if pItem.bufferNo = s.mAtMostMetaStreamCount then s.mAtMostMetaStreamCount
    else (s.frames pItem.pFrame).vOutputMetaItem.numReturnedStreams
  (s,
    { cb with
      valid := true
      vOutputMetaItem := cb.vOutputMetaItem ++
        [{ buffer := pItem.buffer, bufferNo, item := pItem }] },
    { pItem with history := pItem.history.markBit HistoryBit.returned })

/-- `isReturnable` of a metadata item: the final ones keep the order of the frames. -/
def isReturnableMeta (s : FrameHandler) (pItem : MetaItem) : Bool :=
  if pItem.bufferNo = s.mAtMostMetaStreamCount then
    (s.mFrameQueue.takeWhile (· ≠ pItem.pFrame)).all fun f =>
      !(s.frames f).vOutputMetaItem.blocksFinal
  else true

/-- Everybody is done with an item: it has been returned, or its error has been sent. -/
def isSent (history : BitSet32) : Bool :=
  history.hasBit HistoryBit.returned || history.hasBit HistoryBit.errorSentFrame ||
    history.hasBit HistoryBit.errorSentMeta || history.hasBit HistoryBit.errorSentImage

/-- One turn of `prepareCallbackIfPossible` on the metadata set of a frame. -/
def prepareCallbackMeta (env : BufferEnv) (f : FramePtr) (x : FrameHandler × CallbackParcel)
    (k : StreamId) : FrameHandler × CallbackParcel :=
  match (x.1.frames f).vOutputMetaItem.items.find? k with
  | some (some pItem) =>
    let y : FrameHandler × CallbackParcel × MetaItem :=
      match pItem.state with
      | .valid =>
        if !pItem.history.hasBit HistoryBit.returned && x.1.isReturnableMeta pItem then
          let x := x.1.prepareShutterNotificationIfPossible env x.2 pItem
          x.1.prepareReturnMeta x.2 pItem
        else (x.1, x.2, pItem)
      | .error =>
        if !pItem.history.hasBit HistoryBit.errorSentMeta &&
            checkRequestError (x.1.frames pItem.pFrame) < 0 then
          x.1.prepareErrorMetaIfPossible x.2 pItem
        else (x.1, x.2, pItem)
      | _ => (x.1, x.2, pItem)
    let needRelease :=
      (env.metadata pItem.buffer.handle).haveAllUsersReleased && isSent y.2.2.history
    (y.1.editMetaSet f fun set => { set with
        items := set.items.modify k fun _ => if needRelease then none else some y.2.2 },
      y.2.1)
  | _ => x

/-- `prepareCallbackIfPossible` on the metadata set of a frame. -/
def prepareCallbackMetas (env : BufferEnv) (f : FramePtr)
    (x : FrameHandler × CallbackParcel) : FrameHandler × CallbackParcel :=
  (x.1.frames f).vOutputMetaItem.items.keys.foldl (prepareCallbackMeta env f) x

/-! ### Images -/

/-- `isReturnable` of an image item: no item before it in the queue of its stream is in
flight. -/
def isReturnableImage (s : FrameHandler) (p : ImagePtr) : Bool :=
  ((s.vItemFrameQueue (s.items p).streamId).takeWhile (· ≠ p)).all fun q =>
    (s.items q).state ≠ .inFlight

def prepareCallbackImageItem (x : FrameHandler × CallbackParcel) (p : ImagePtr) :
    FrameHandler × CallbackParcel :=
  let pItem := x.1.items p
  match pItem.state with
  | .preRelease | .valid =>
    if !pItem.history.hasBit HistoryBit.returned && x.1.isReturnableImage p then
      x.1.prepareReturnImage x.2 p
    else x
  | .error =>
    if !pItem.history.hasBit HistoryBit.errorSentImage &&
        checkRequestError (x.1.frames pItem.pFrame) < 0 then
      let x := x.1.prepareErrorImage x.2 p
      if (x.1.items p).history.hasBit HistoryBit.returned then x
      else x.1.prepareReturnImage x.2 p
    else x
  | .inFlight => x

/-- One turn of `prepareCallbackIfPossible` on an image set of a frame. -/
def prepareCallbackImage (env : BufferEnv) (f : FramePtr) (asInput : Bool)
    (x : FrameHandler × CallbackParcel) (k : StreamId) : FrameHandler × CallbackParcel :=
  match ((x.1.frames f).itemSet asInput).items.find? k with
  | some (some p) =>
    let x := prepareCallbackImageItem x p
    let needRelease :=
      (env.image (x.1.items p).buffer.handle).haveAllUsersReleased && isSent (x.1.items p).history
    if needRelease then
      (x.1.editItemSet f asInput fun set =>
        { set with items := set.items.modify k fun _ => none }, x.2)
    else x
  | _ => x

/-- `prepareCallbackIfPossible` on an image set of a frame. -/
def prepareCallbackImages (env : BufferEnv) (f : FramePtr) (asInput : Bool)
    (x : FrameHandler × CallbackParcel) : FrameHandler × CallbackParcel :=
  ((x.1.frames f).itemSet asInput).items.keys.foldl (prepareCallbackImage env f asInput) x

/-! ### The callback pass -/

/-- Has everything of the frame been handed back? The source forms the address of the last
entry of an empty metadata set too, and then does not use it. -/
def isFrameRemovable (s : FrameHandler) (f : FramePtr) : Bool :=
  let pFrame := s.frames f
  if pFrame.vOutputImageItem.items.size ≠ pFrame.vOutputImageItem.numReturnedStreams then false
  else if pFrame.vInputImageItem.items.size ≠ pFrame.vInputImageItem.numReturnedStreams then
    false
  else if pFrame.errors.hasBit HistoryBit.errorSentFrame then true
  else if pFrame.errors.hasBit HistoryBit.errorSentMeta then true
  else if !pFrame.vOutputMetaItem.hasLastPartial || pFrame.vOutputMetaItem.lastItem.isSome then
    false
  else pFrame.timestampShutter ≠ 0

def prepareFrame (env : BufferEnv) (f : FramePtr) (s : FrameHandler) :
    Except Fault (FrameHandler × CallbackParcel) :=
  let cb : CallbackParcel :=
    { frameNo := (s.frames f).frameNo
      pFrame := f
      timestampShutter := (s.frames f).timestampShutter }
  if checkRequestError (s.frames f) > 0 then
    match s.prepareErrorFrame cb f with
    | .error e => .error e
    | .ok x => .ok (prepareCallbackImages env f true x)
  else
    .ok (prepareCallbackImages env f true
      (prepareCallbackImages env f false (prepareCallbackMetas env f (s, cb))))

/-- The frame leaves the queue once nothing more is to be done for it. -/
def removeFrame (s : FrameHandler) (f : FramePtr) : FrameHandler :=
  if s.isFrameRemovable f then { s with mFrameQueue := s.mFrameQueue.erase f } else s

/-- The loop of a pass over the frames from the iterator on, up to the first frame that is
newer than the latest result. -/
def updateFrames (env : BufferEnv) :
    List FramePtr → FrameHandler → Except Fault (FrameHandler × List CallbackParcel)
  | [], s => .ok (s, [])
  | f :: fs, s =>
    if (s.frames f).frameNo.isAfter s.latestResultFrameNo then .ok (s, [])
    else
      match prepareFrame env f s with
      | .error e => .error e
      | .ok (s₁, cb) =>
        match updateFrames env fs (s₁.removeFrame f) with
        | .error e => .error e
        | .ok (s₂, cbs) => .ok (s₂, (if cb.valid then [cb] else []) ++ cbs)

/-- `update(callback list)`. -/
def updateCallbacks (env : BufferEnv) (s : FrameHandler) :
    Except Fault (FrameHandler × List CallbackParcel) :=
  updateFrames env s.mFrameQueue s

end FrameHandler

/-! ### The machine -/

inductive Op
  | registerFrame (rRequest : Request)
  | updateResults (env : BufferEnv) (rvResult : ResultQueue)
  | updateCallbacks (env : BufferEnv)

/-- The frame handler as a machine, with the callback parcels as its outputs. -/
def handlerMachine : Machine FrameHandler Op CallbackParcel Fault
  | s, .registerFrame rRequest => .ok (s.registerFrame rRequest, [])
  | s, .updateResults env rvResult => .ok (s.updateResults env rvResult, [])
  | s, .updateCallbacks env => s.updateCallbacks env

end MtkHardware.AppStream
