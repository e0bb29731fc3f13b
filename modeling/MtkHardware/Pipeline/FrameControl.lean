import MtkHardware.Pipeline.UsersManager
import MtkHardware.Util.Run

/-!
# Frame Control

A pipeline frame holds the stream buffers of one request. Each buffer is an `Item`,
reached through one of four maps (application or HAL, image or metadata). Nodes mark
their status on the users manager of an item, and `applyRelease` then looks at the items
of the calling node: items whose users are all done leave their map and go to a
collector, whose content is handed on, outside the frame's lock, in a callback to the
application.

The definitions follow `PipelineBufferSetFrameControlImp.cpp` and its header. Objects
that the source shares by pointer are addressed: the item of stream `s` in map `k` is at
`(k, s)`. A call of `applyRelease` or `applyPreRelease` is a `Call` record, which holds
what the source keeps in the local variables of the call.
-/

namespace MtkHardware.Pipeline

abbrev StreamId := ℤ

abbrev NodeId := ℤ

inductive MapKind
  | appImage
  | appMeta
  | halImage
  | halMeta
  deriving DecidableEq, Repr

def MapKind.isImage : MapKind → Bool
  | .appImage | .halImage => true
  | .appMeta | .halMeta => false

abbrev ItemId := MapKind × StreamId

/-- A stream buffer: the item it belongs to, and the memory behind it. -/
structure StreamBuffer where
  item : ItemId
  handle : ℕ
  deriving DecidableEq, Repr

/-! ### Buffer status -/

def eBUF_STATUS_ACQUIRE : ℕ := 0

def eBUF_STATUS_RELEASE : ℕ := 1

def eBUF_STATUS_PRODUCERS_RELEASE : ℕ := 2

def eBUF_STATUS_ACQUIRE_FAILED : ℕ := 3

/-! ### Items, maps and the collector -/

structure Item where
  mBuffer : Option StreamBuffer
  mUsersManager : UsersManager
  mBitStatus : BitSet32

/-- A map of items; the value of a stream whose item has left is `none`. -/
structure ItemMap where
  mMap : KeyedVector StreamId (Option ItemId)
  mNonReleasedNum : ℤ

/-- The buffers released since the last callback, and the numbers of output metadata
items with producers in flight. -/
structure ReleasedCollector where
  mHalImageSet_AllUsersReleased : List StreamBuffer
  mHalMetaSet_AllUsersReleased : List StreamBuffer
  mAppMetaSetO_ProducersReleased : List StreamBuffer
  mAppMetaNumO_ProducersInFlight : ℤ
  mHalMetaSetO_ProducersReleased : List StreamBuffer
  mHalMetaNumO_ProducersInFlight : ℤ
  deriving DecidableEq, Repr

def ReleasedCollector.new : ReleasedCollector := ⟨[], [], [], 0, [], 0⟩

/-- The copy of the collector that a call takes under the collector's lock. -/
structure Snapshot where
  aHalImageSet : List StreamBuffer
  aHalMetaSet : List StreamBuffer
  aAppMetaSetO : List StreamBuffer
  aAppMetaNumO : ℤ
  aHalMetaSetO : List StreamBuffer
  aHalMetaNumO : ℤ
  deriving DecidableEq, Repr

abbrev Listener := ℕ

/-- A call of `applyRelease` or `applyPreRelease` that has left the frame's lock. -/
structure Call where
  userId : UserId
  /-- Is it a call of `applyPreRelease`? -/
  isPreRelease : Bool
  /-- Could the application callback be promoted? -/
  pAppCallback : Bool
  nodeStatusUpdated : BitSet32
  listeners : List Listener
  /-- The collector's content, once the call has taken it. -/
  snapshot : Option Snapshot
  /-- Has the call made its callbacks? -/
  returned : Bool
  deriving DecidableEq, Repr

/-- The buffers of a frame: the items, their maps, the collector, and the calls that
share the collector. -/
structure Store where
  items : ItemId → Item
  itemMap : MapKind → ItemMap
  mpReleasedCollector : ReleasedCollector
  calls : List Call

/-! ### Node status -/

/-- The items of a node, of one type and direction, that the node has not released. -/
structure IOSet where
  items : List ItemId
  mNotified : Bool
  deriving DecidableEq, Repr

structure NodeStatus where
  mISetImage : IOSet
  mOSetImage : IOSet
  mISetMeta : IOSet
  mOSetMeta : IOSet
  deriving DecidableEq, Repr

/-- The nodes of a frame, and the number of them that have not released everything. -/
structure NodeStatusMap where
  nodes : KeyedVector NodeId NodeStatus
  mInFlightNodeCount : ℤ

/-- A **frame**. -/
structure Frame extends Store where
  mNodeStatusMap : NodeStatusMap
  mListeners : List Listener

/-! ### Observable events -/

def eMSG_FRAME_RELEASED : ℕ := 0

/-- All output metadata buffers of a node are released. -/
def eMSG_ALL_OUT_META_BUFFERS_RELEASED : ℕ := 1

def eMSG_ALL_OUT_IMAGE_BUFFERS_RELEASED : ℕ := 2

/-- The argument of `IAppCallback::updateFrame`. -/
structure Result where
  nAppOutMetaLeft : ℤ
  vAppOutMeta : List StreamBuffer
  nHalOutMetaLeft : ℤ
  vHalOutMeta : List StreamBuffer
  bFrameEnd : Bool
  deriving DecidableEq, Repr

/-- What a step shows to its caller, to the application and to the HAL. -/
inductive Event
  /-- A status mask is returned. -/
  | userStatus (status : BitVec 32)
  /-- The stream of `markUserStatus` was not found. -/
  | nameNotFound
  /-- An error code is returned. -/
  | error (err : MERROR)
  /-- A group usage is returned. -/
  | groupUsage (usage : BitVec 32)
  /-- A fence is returned. -/
  | fence (fd : ℤ)
  /-- A buffer, or `NULL`, is returned. -/
  | buffer (b : Option StreamBuffer)
  /-- The application is called back. -/
  | updateFrame (userId : UserId) (result : Result)
  /-- A buffer is released to the HAL. -/
  | releaseBuffer (b : StreamBuffer)
  /-- A listener is told about a node, or about the whole frame. -/
  | onPipelineFrame (listener : Listener) (nodeId : Option NodeId) (message : ℕ)
  deriving DecidableEq, Repr

inductive Fault
  /-- An item that is `NULL` is dereferenced. -/
  | nullItem
  /-- A recursion does not return. -/
  | nonReturning
  /-- A fatal log call aborts the process. -/
  | fatal
  deriving DecidableEq, Repr

namespace Store

def editItem (st : Store) (i : ItemId) (f : Item → Item) : Store :=
  { st with items := Function.update st.items i (f (st.items i)) }

end Store

/-! ### Collecting released buffers -/

/-- `ReleasedCollector::onAllUsersReleased`, for an item of a map. -/
def ReleasedCollector.onAllUsersReleased (c : ReleasedCollector) (kind : MapKind)
    (item : Item) : ReleasedCollector :=
  match kind with
  | .appImage | .appMeta => c
  | .halImage =>
    { c with mHalImageSet_AllUsersReleased :=
        c.mHalImageSet_AllUsersReleased ++ item.mBuffer.toList }
  | .halMeta =>
    { c with mHalMetaSet_AllUsersReleased :=
        c.mHalMetaSet_AllUsersReleased ++ item.mBuffer.toList }

/-- `ReleasedCollector::onProducersReleased`, for an item of a map. -/
def ReleasedCollector.onProducersReleased (c : ReleasedCollector) (kind : MapKind)
    (item : Item) : ReleasedCollector :=
  match kind with
  | .appImage | .halImage => c
  | .halMeta =>
    if 0 < item.mUsersManager.getNumberOfProducers then
      { c with
        mHalMetaNumO_ProducersInFlight := c.mHalMetaNumO_ProducersInFlight - 1
        mHalMetaSetO_ProducersReleased :=
          c.mHalMetaSetO_ProducersReleased ++ item.mBuffer.toList }
    else c
  | .appMeta =>
    if 0 < item.mUsersManager.getNumberOfProducers then
      { c with
        mAppMetaNumO_ProducersInFlight := c.mAppMetaNumO_ProducersInFlight - 1
        mAppMetaSetO_ProducersReleased :=
          c.mAppMetaSetO_ProducersReleased ++ item.mBuffer.toList }
    else c

/-- Take the collector's content: the four sets are cleared, the two counts are only
read. -/
def ReleasedCollector.take (c : ReleasedCollector) : Snapshot × ReleasedCollector :=
  (⟨c.mHalImageSet_AllUsersReleased, c.mHalMetaSet_AllUsersReleased,
      c.mAppMetaSetO_ProducersReleased, c.mAppMetaNumO_ProducersInFlight,
      c.mHalMetaSetO_ProducersReleased, c.mHalMetaNumO_ProducersInFlight⟩,
    { c with
      mHalImageSet_AllUsersReleased := []
      mHalMetaSet_AllUsersReleased := []
      mAppMetaSetO_ProducersReleased := []
      mHalMetaSetO_ProducersReleased := [] })

namespace Store

/-- `TItemMap::onAllUsersReleased`: the item leaves its map. -/
def onAllUsersReleased (st : Store) (i : ItemId) : Store :=
  match (st.itemMap i.1).mMap.find? i.2 with
  | some (some _) =>
    { st with
      mpReleasedCollector := st.mpReleasedCollector.onAllUsersReleased i.1 (st.items i)
      itemMap := Function.update st.itemMap i.1
        { mMap := (st.itemMap i.1).mMap.modify i.2 fun _ => none
          mNonReleasedNum := (st.itemMap i.1).mNonReleasedNum - 1 } }
  | _ => st

/-- `Item::handleAllUsersReleased`. The map of an item lives as long as the frame. -/
def handleAllUsersReleased (st : Store) (i : ItemId) : Store :=
  if (st.items i).mBitStatus.hasBit eBUF_STATUS_RELEASE then st
  else
    (st.editItem i fun item =>
      { item with mBitStatus := item.mBitStatus.markBit eBUF_STATUS_RELEASE }).onAllUsersReleased i

/-- `Item::handleProducersReleased`. -/
def handleProducersReleased (st : Store) (i : ItemId) : Store :=
  if (st.items i).mBitStatus.hasBit eBUF_STATUS_PRODUCERS_RELEASE then st
  else
    let st := st.editItem i fun item =>
      { item with mBitStatus := item.mBitStatus.markBit eBUF_STATUS_PRODUCERS_RELEASE }
    { st with mpReleasedCollector :=
        st.mpReleasedCollector.onProducersReleased i.1 (st.items i) }

/-- A call **takes its snapshot** of the collector, once. -/
def takeSnapshot (st : Store) (c : ℕ) : Store :=
  match st.calls[c]? with
  | none => st
  | some call =>
    if call.snapshot.isSome then st
    else
      { st with
        mpReleasedCollector := st.mpReleasedCollector.take.2
        calls := st.calls.set c
          { call with snapshot := some st.mpReleasedCollector.take.1 } }

end Store

/-- Where the calls of other threads take their snapshots while the frame is locked: the
collector has a lock of its own, so at each item visited there may be some before its
producers are checked, and some more before its users are. -/
abbrev Preemption := List (List ℕ × List ℕ)

/-! ### Node status update -/

namespace NodeStatusUpdater

/-- The loop of `updateNodeStatus` over the items of an IO set; the result has the items
that stay in the set. -/
def updateItems (nodeId : NodeId) : List ItemId → Preemption → Store →
    Store × List ItemId
  | [], _, st => (st, [])
  | i :: is, preemption, st =>
    let now := preemption.headD ([], [])
    let st := now.1.foldl Store.takeSnapshot st
    let st :=
      if (st.items i).mUsersManager.haveAllProducerUsersReleased = .ok then
        st.handleProducersReleased i
      else st
    -- has this user released?
    let status := (st.items i).mUsersManager.getUserStatus nodeId
    if status &&& UserStatus.release = 0 then
      let rest := updateItems nodeId is preemption.tail st
      (rest.1, i :: rest.2)
    else
      let st := now.2.foldl Store.takeSnapshot st
      let st :=
        if (st.items i).mUsersManager.haveAllUsersReleased = .ok then
          st.handleAllUsersReleased i
        else st
      updateItems nodeId is preemption.tail st

/-- `updateNodeStatus`: the result says whether the set has just become empty. -/
def updateNodeStatus (nodeId : NodeId) (ioSet : IOSet) (preemption : Preemption)
    (st : Store) : Store × IOSet × Bool :=
  if ioSet.mNotified then (st, ioSet, false)
  else
    let rest := updateItems nodeId ioSet.items preemption st
    if rest.2.isEmpty then (rest.1, ⟨rest.2, true⟩, true)
    else (rest.1, ⟨rest.2, false⟩, false)

/-- What `run` hands back to `applyRelease`. -/
structure Update where
  store : Store
  nodeStatusMap : NodeStatusMap
  nodeStatusUpdated : BitSet32
  isAnyUpdate : Bool

/-- `run`: update the four sets of a node, and the count of nodes in flight. -/
def run (nodeId : NodeId) (map : NodeStatusMap) (updated : BitSet32)
    (preemption : Preemption) (st : Store) : Update :=
  match map.nodes.find? nodeId with
  | none => ⟨st, map, updated, false⟩
  | some status =>
    -- O Image
    let oImage := updateNodeStatus nodeId status.mOSetImage preemption st
    let updated :=
      if oImage.2.2 then updated.markBit eMSG_ALL_OUT_IMAGE_BUFFERS_RELEASED else updated
    let preemption := preemption.drop status.mOSetImage.items.length
    -- I Image
    let iImage := updateNodeStatus nodeId status.mISetImage preemption oImage.1
    let preemption := preemption.drop status.mISetImage.items.length
    -- O Meta
    let oMeta := updateNodeStatus nodeId status.mOSetMeta preemption iImage.1
    let updated :=
      if oMeta.2.2 then updated.markBit eMSG_ALL_OUT_META_BUFFERS_RELEASED else updated
    let preemption := preemption.drop status.mOSetMeta.items.length
    -- I Meta
    let iMeta := updateNodeStatus nodeId status.mISetMeta preemption oMeta.1
    let isAnyUpdate := oImage.2.2 || iImage.2.2 || oMeta.2.2 || iMeta.2.2
    let status' : NodeStatus := ⟨iImage.2.1, oImage.2.1, iMeta.2.1, oMeta.2.1⟩
    -- is it a new node with all buffers released?
    let isNewlyReleased := isAnyUpdate &&
      status'.mOSetImage.items.isEmpty && status'.mISetImage.items.isEmpty &&
      status'.mOSetMeta.items.isEmpty && status'.mISetMeta.items.isEmpty
    ⟨iMeta.1,
      { nodes := map.nodes.modify nodeId fun _ => status'
        mInFlightNodeCount :=
          if isNewlyReleased then map.mInFlightNodeCount - 1 else map.mInFlightNodeCount },
      updated, isAnyUpdate⟩

end NodeStatusUpdater

namespace Store

/-! ### Operations on one item -/

/-- `findSubjectUsersLocked`: the item of a stream, in the first map that has the stream.
The users manager is read through the item, so an item that has left its map faults. -/
def findSubjectUsersLocked (st : Store) (streamId : StreamId) :
    Except Fault (Option ItemId) :=
  let usersManagerAt (kind : MapKind) (otherwise : Except Fault (Option ItemId)) :
      Except Fault (Option ItemId) :=
    match (st.itemMap kind).mMap.find? streamId with
    | none => otherwise
    | some none => .error .nullItem
    | some (some i) => .ok (some i)
  usersManagerAt .appImage (usersManagerAt .appMeta (usersManagerAt .halImage
    (usersManagerAt .halMeta (.ok none))))

def markItem (st : Store) (i : ItemId) (userId : UserId) (eStatus : BitVec 32) : Store :=
  st.editItem i fun item =>
    { item with mUsersManager := (item.mUsersManager.markUserStatus userId eStatus).1 }

/-- What `acquireHalStreamBuffer` of the buffer provider would answer: `none` if the
provider is gone, `some none` if it fails. -/
abbrev Provider := Option (Option ℕ)

/-- `getBufferLockedImp`: the buffer of a stream in a map, which a HAL image item
acquires at its first use. -/
def getBufferLockedImp (st : Store) (streamId : StreamId) (userId : UserId)
    (kind : MapKind) (provider : Provider) : Except Fault (Store × Option StreamBuffer) :=
  if (st.itemMap kind).mNonReleasedNum = 0 then .ok (st, none)
  else
    match (st.itemMap kind).mMap.find? streamId with
    | none | some none => .ok (st, none)
    | some (some i) =>
      let item := st.items i
      if item.mBitStatus.hasBit eBUF_STATUS_ACQUIRE then .ok (st, item.mBuffer)
      else if item.mBitStatus.hasBit eBUF_STATUS_ACQUIRE_FAILED then
        .ok (st.markItem i userId UserStatus.release, none)
      else if item.mBuffer.isSome then .error .fatal
      else
        match provider with
        | none => .ok (st, none)
        | some acquired =>
          match kind, acquired with
          | .halImage, some handle =>
            .ok (st.editItem i fun item =>
              { item with
                mBuffer := some ⟨i, handle⟩
                mBitStatus := item.mBitStatus.markBit eBUF_STATUS_ACQUIRE },
              some ⟨i, handle⟩)
          | .halImage, none =>
            .ok ((st.editItem i fun item =>
              { item with
                mBuffer := none
                mBitStatus := item.mBitStatus.markBit eBUF_STATUS_ACQUIRE_FAILED
              }).markItem i userId UserStatus.release, none)
          -- only HAL images are acquired: INVALID_OPERATION
          | _, _ => .ok (st.editItem i fun item => { item with mBuffer := none }, none)

/-- `getBufferLocked`: the buffer is not available if all its users have released it, or
if a user ahead of `userId` has not passed it on. -/
def getBufferLocked (st : Store) (streamId : StreamId) (userId : UserId) (kind : MapKind)
    (provider : Provider) : Except Fault (Store × Option StreamBuffer) :=
  match st.getBufferLockedImp streamId userId kind provider with
  | .error fault => .error fault
  | .ok (st, none) => .ok (st, none)
  | .ok (st, some b) =>
    let users := (st.items b.item).mUsersManager
    if users.haveAllUsersReleased = .ok then .ok (st, none)
    else
      match users.haveAllUsersReleasedOrPreReleased userId with
      | none => .error .nonReturning
      | some .ok => .ok (st, some b)
      | some _ => .ok (st, none)

def getBuffer (st : Store) (streamId : StreamId) (userId : UserId) (hal app : MapKind)
    (provider : Provider) : Except Fault (Store × Option StreamBuffer) :=
  match st.getBufferLocked streamId userId hal provider with
  | .error fault => .error fault
  | .ok (st, some b) => .ok (st, some b)
  | .ok (st, none) => st.getBufferLocked streamId userId app provider

/-- `getMetaBuffer`. -/
def getMetaBuffer (st : Store) (streamId : StreamId) (userId : UserId)
    (provider : Provider) : Except Fault (Store × Option StreamBuffer) :=
  st.getBuffer streamId userId .halMeta .appMeta provider

/-- `getImageBuffer`. -/
def getImageBuffer (st : Store) (streamId : StreamId) (userId : UserId)
    (provider : Provider) : Except Fault (Store × Option StreamBuffer) :=
  st.getBuffer streamId userId .halImage .appImage provider

end Store

namespace Frame

/-- `markUserStatus`. -/
def markUserStatus (frame : Frame) (streamId : StreamId) (userId : UserId)
    (eStatus : BitVec 32) : Except Fault (Frame × List Event) :=
  match frame.findSubjectUsersLocked streamId with
  | .error fault => .error fault
  | .ok none => .ok (frame, [.nameNotFound])
  | .ok (some i) =>
    .ok ({ frame with toStore := frame.markItem i userId eStatus },
      [.userStatus ((frame.items i).mUsersManager.markUserStatus userId eStatus).2])

/-- `setUserReleaseFence`. -/
def setUserReleaseFence (frame : Frame) (streamId : StreamId) (userId : UserId)
    (releaseFence : ℤ) : Except Fault (Frame × List Event) :=
  match frame.findSubjectUsersLocked streamId with
  | .error fault => .error fault
  | .ok none => .ok (frame, [.error .nameNotFound])
  | .ok (some i) =>
    let set := (frame.items i).mUsersManager.setUserReleaseFence userId releaseFence
    .ok ({ frame with toStore := frame.editItem i fun item =>
      { item with mUsersManager := set.1 } }, [.error set.2])

/-- `queryGroupUsage`. -/
def queryGroupUsage (frame : Frame) (streamId : StreamId) (userId : UserId) :
    Except Fault (Frame × List Event) :=
  match frame.findSubjectUsersLocked streamId with
  | .error fault => .error fault
  | .ok none => .ok (frame, [.groupUsage 0])
  | .ok (some i) =>
    .ok (frame, [.groupUsage ((frame.items i).mUsersManager.queryGroupUsage userId)])

/-- `createAcquireFence`. -/
def createAcquireFence (driver : SyncDriver) (frame : Frame) (streamId : StreamId)
    (userId : UserId) : Except Fault (Frame × List Event) :=
  match frame.findSubjectUsersLocked streamId with
  | .error fault => .error fault
  | .ok none => .ok (frame, [.fence (-1)])
  | .ok (some i) =>
    match (frame.items i).mUsersManager.createAcquireFence driver userId with
    | none => .error .nonReturning
    | some fd => .ok (frame, [.fence fd])

/-- `applyRelease`, up to the release of the frame's lock. -/
def applyRelease (frame : Frame) (userId : UserId) (pAppCallback : Bool)
    (preemption : Preemption) : Frame :=
  let update := NodeStatusUpdater.run userId frame.mNodeStatusMap .clear preemption
    frame.toStore
  -- is the entire frame released?
  let nodeStatusUpdated :=
    if update.isAnyUpdate && update.nodeStatusMap.mInFlightNodeCount == 0 then
      update.nodeStatusUpdated.markBit eMSG_FRAME_RELEASED
    else update.nodeStatusUpdated
  let call : Call :=
    { userId, isPreRelease := false, pAppCallback, nodeStatusUpdated
      listeners := if nodeStatusUpdated.isEmpty then [] else frame.mListeners
      snapshot := none, returned := false }
  { frame with
    toStore := { update.store with calls := update.store.calls ++ [call] }
    mNodeStatusMap := update.nodeStatusMap }

/-- `applyPreRelease`, which takes no lock of the frame. -/
def applyPreRelease (frame : Frame) (userId : UserId) (pAppCallback : Bool) : Frame :=
  let call : Call :=
    { userId, isPreRelease := true, pAppCallback, nodeStatusUpdated := .clear
      listeners := [], snapshot := none, returned := false }
  { frame with toStore := { frame.toStore with calls := frame.calls ++ [call] } }

end Frame

namespace Call

def updateFrame (call : Call) (snapshot : Snapshot) : List Event :=
  if call.pAppCallback then
    [.updateFrame call.userId ⟨snapshot.aAppMetaNumO, snapshot.aAppMetaSetO,
      snapshot.aHalMetaNumO, snapshot.aHalMetaSetO, false⟩]
  else []

def notify (call : Call) (listener : Listener) : List Event :=
  (if call.nodeStatusUpdated.hasBit eMSG_ALL_OUT_META_BUFFERS_RELEASED then
    [.onPipelineFrame listener (some call.userId) eMSG_ALL_OUT_META_BUFFERS_RELEASED]
  else []) ++
  (if call.nodeStatusUpdated.hasBit eMSG_ALL_OUT_IMAGE_BUFFERS_RELEASED then
    [.onPipelineFrame listener (some call.userId) eMSG_ALL_OUT_IMAGE_BUFFERS_RELEASED]
  else []) ++
  (if call.nodeStatusUpdated.hasBit eMSG_FRAME_RELEASED then
    [.onPipelineFrame listener none eMSG_FRAME_RELEASED]
  else [])

/-- What a call does after its snapshot, with no lock held: the callback to the
application and, for `applyRelease`, the release of the HAL buffers and the messages to
the listeners that can be promoted. -/
def callbacks (call : Call) (snapshot : Snapshot) (gone : List Listener) : List Event :=
  call.updateFrame snapshot ++
  if call.isPreRelease then []
  else
    (snapshot.aHalImageSet ++ snapshot.aHalMetaSet).map .releaseBuffer ++
    if call.nodeStatusUpdated.isEmpty then []
    else (call.listeners.filter (· ∉ gone)).flatMap call.notify

end Call

/-- A call that has its snapshot **makes its callbacks** and returns. -/
def Frame.callback (frame : Frame) (c : ℕ) (gone : List Listener) : Frame × List Event :=
  match frame.calls[c]? with
  | none => (frame, [])
  | some call =>
    match call.snapshot with
    | none => (frame, [])
    | some snapshot =>
      if call.returned then (frame, [])
      else
        ({ frame with toStore := { frame.toStore with
            calls := frame.calls.set c { call with returned := true } } },
          call.callbacks snapshot gone)

/-! ### The frame as a machine -/

/-- The operations on a frame. A call of `applyRelease` or `applyPreRelease` takes three
operations: the call itself, its snapshot, and its callbacks; calls are numbered in the
order in which they were made. -/
inductive Op
  | attachListener (listener : Listener)
  | markUserStatus (streamId : StreamId) (userId : UserId) (eStatus : BitVec 32)
  | setUserReleaseFence (streamId : StreamId) (userId : UserId) (releaseFence : ℤ)
  | queryGroupUsage (streamId : StreamId) (userId : UserId)
  | createAcquireFence (streamId : StreamId) (userId : UserId)
  | getMetaBuffer (streamId : StreamId) (userId : UserId) (provider : Store.Provider)
  | getImageBuffer (streamId : StreamId) (userId : UserId) (provider : Store.Provider)
  | applyRelease (userId : UserId) (pAppCallback : Bool) (preemption : Preemption)
  | applyPreRelease (userId : UserId) (pAppCallback : Bool)
  | takeSnapshot (call : ℕ)
  | callback (call : ℕ) (gone : List Listener)
  deriving DecidableEq, Repr

/-- **The frame as a machine.** -/
def frameMachine (driver : SyncDriver) : Machine Frame Op Event Fault
  | frame, .attachListener listener =>
    .ok ({ frame with mListeners := frame.mListeners ++ [listener] }, [])
  | frame, .markUserStatus streamId userId eStatus =>
    frame.markUserStatus streamId userId eStatus
  | frame, .setUserReleaseFence streamId userId releaseFence =>
    frame.setUserReleaseFence streamId userId releaseFence
  | frame, .queryGroupUsage streamId userId => frame.queryGroupUsage streamId userId
  | frame, .createAcquireFence streamId userId =>
    frame.createAcquireFence driver streamId userId
  | frame, .getMetaBuffer streamId userId provider =>
    match frame.getMetaBuffer streamId userId provider with
    | .error fault => .error fault
    | .ok (st, b) => .ok ({ frame with toStore := st }, [.buffer b])
  | frame, .getImageBuffer streamId userId provider =>
    match frame.getImageBuffer streamId userId provider with
    | .error fault => .error fault
    | .ok (st, b) => .ok ({ frame with toStore := st }, [.buffer b])
  | frame, .applyRelease userId pAppCallback preemption =>
    .ok (frame.applyRelease userId pAppCallback preemption, [])
  | frame, .applyPreRelease userId pAppCallback =>
    .ok (frame.applyPreRelease userId pAppCallback, [])
  | frame, .takeSnapshot c => .ok ({ frame with toStore := frame.toStore.takeSnapshot c }, [])
  | frame, .callback c gone => .ok (frame.callback c gone)

end MtkHardware.Pipeline
