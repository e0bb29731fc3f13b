import MtkHardware.Pipeline.FrameControl

/-!
# Frame Configuration

How `PipelineContextImpl::constructRequest` sets up a frame: the stream buffers are added
to the item maps, every buffer gets a graph of its users (`evaluate_buffer_users`), and
`finishConfiguration` counts the producers in flight and gives every node its IO sets.

A `FrameConfig` is what the request brings: the nodes of its graph with their streams, the
edges, and the buffers.
-/

namespace MtkHardware.Pipeline

/-- A node of the frame, with the streams of its `IOMap`s. -/
structure INode where
  iImage : List StreamId
  oImage : List StreamId
  iMeta : List StreamId
  oMeta : List StreamId
  deriving DecidableEq, Repr

structure FrameConfig where
  /-- The nodes of the frame, by id. -/
  nodeMap : KeyedVector NodeId INode
  /-- The nodes in topological order. -/
  toposort : List NodeId
  mem_toposort : ∀ n, n ∈ toposort ↔ n ∈ nodeMap.keys
  /-- The edges between nodes. -/
  edges : List (NodeId × NodeId)
  /-- The usage that a node needs of an image stream. -/
  queryMinimalUsage : NodeId → StreamId → BitVec 32
  /-- The buffers added to each map: a stream, and the memory behind it if the buffer is
  not to be acquired later. -/
  buffers : MapKind → List (StreamId × Option ℕ)

/-! ### Adding buffers -/

def Store.empty : Store where
  items _ := ⟨none, .new, .clear⟩
  itemMap _ := ⟨.empty, 0⟩
  mpReleasedCollector := .new
  calls := []

/-- `TItemMap::add`: a buffer that is there already counts as acquired. -/
def Store.add (st : Store) (kind : MapKind) (value : StreamId × Option ℕ) : Store :=
  let i : ItemId := (kind, value.1)
  { st with
    items := Function.update st.items i
      { mBuffer := value.2.map fun handle => ⟨i, handle⟩
        mUsersManager := .new
        mBitStatus :=
          if value.2.isSome then BitSet32.clear.markBit eBUF_STATUS_ACQUIRE else .clear }
    itemMap := Function.update st.itemMap kind
      { mMap := (st.itemMap kind).mMap.add value.1 (some i)
        mNonReleasedNum := (st.itemMap kind).mNonReleasedNum + 1 } }

def Store.addAll (st : Store) (kind : MapKind) (values : List (StreamId × Option ℕ)) :
    Store :=
  values.foldl (fun st value => st.add kind value) st

namespace FrameConfig

variable (cfg : FrameConfig)

/-! ### Users of a buffer -/

/-- `refineUser`: what a node does with a stream of an image or of a metadata map. -/
def refineUser (i : ItemId) (nodeId : NodeId) : Category :=
  match cfg.nodeMap.find? nodeId with
  | none => .none
  | some node =>
    let oStreams := if i.1.isImage then node.oImage else node.oMeta
    let iStreams := if i.1.isImage then node.iImage else node.iMeta
    if i.2 ∈ oStreams then .producer else if i.2 ∈ iStreams then .consumer else .none

/-- `makeImageUser` and `makeMetaUser`. -/
def makeUser (i : ItemId) (nodeId : NodeId) : User where
  mUserId := nodeId
  mUsage :=
    if i.1.isImage && cfg.refineUser i nodeId != .none then
      cfg.queryMinimalUsage nodeId i.2
    else 0
  mCategory := cfg.refineUser i nodeId

/-- `evaluate_buffer_users`, for the item of one buffer: one user for each node, one edge
for each edge between nodes. -/
def evaluateBufferUsers (i : ItemId) : UsersManager :=
  match UsersManager.new.createGraph with
  | none => .new
  | some (m, userGraph) =>
    let m := cfg.toposort.foldl (fun m nodeId =>
      (m.addUser userGraph (cfg.makeUser i nodeId)).1) m
    let m := cfg.edges.foldl (fun m edge => (m.addEdge userGraph edge.1 edge.2).1) m
    (m.enqueUserGraph userGraph).finishUserSetup

def store : Store :=
  let st := (((Store.empty.addAll .appMeta (cfg.buffers .appMeta)).addAll
    .halMeta (cfg.buffers .halMeta)).addAll .appImage (cfg.buffers .appImage)).addAll
    .halImage (cfg.buffers .halImage)
  { st with items := fun i =>
      { st.items i with mUsersManager := cfg.evaluateBufferUsers i } }

end FrameConfig

/-! ### Finishing the configuration -/

namespace Store

/-- `getMapItemLocked`. -/
def getMapItemLocked (st : Store) (streamId : StreamId) (kind : MapKind) : Option ItemId :=
  match (st.itemMap kind).mMap.find? streamId with
  | some (some i) => some i
  | _ => none

/-- `getMetaMapItemLocked`. -/
def getMetaMapItemLocked (st : Store) (streamId : StreamId) : Option ItemId :=
  (st.getMapItemLocked streamId .halMeta).or (st.getMapItemLocked streamId .appMeta)

/-- `getImageMapItemLocked`. -/
def getImageMapItemLocked (st : Store) (streamId : StreamId) : Option ItemId :=
  (st.getMapItemLocked streamId .halImage).or (st.getMapItemLocked streamId .appImage)

def producersInFlight (st : Store) (kind : MapKind) : ℤ :=
  (st.itemMap kind).mMap.entries.countP fun e =>
    match e.2 with
    | none => false
    | some i => decide (0 < (st.items i).mUsersManager.getNumberOfProducers)

end Store

inductive ConfigError
  /-- There is no node. -/
  | noInit
  /-- A node has a stream without an item: a fatal log call. -/
  | noItem
  deriving DecidableEq, Repr

/-- The IO sets of a node, if every stream of it has an item. -/
def NodeStatus.ofNode (st : Store) (node : INode) : Option NodeStatus :=
  match node.iMeta.mapM st.getMetaMapItemLocked, node.iImage.mapM st.getImageMapItemLocked,
    node.oMeta.mapM st.getMetaMapItemLocked, node.oImage.mapM st.getImageMapItemLocked with
  | some iMeta, some iImage, some oMeta, some oImage =>
    some ⟨⟨iImage, false⟩, ⟨oImage, false⟩, ⟨iMeta, false⟩, ⟨oMeta, false⟩⟩
  | _, _, _, _ => none

def NodeStatus.isEmpty (status : NodeStatus) : Bool :=
  status.mISetMeta.items.isEmpty && status.mOSetMeta.items.isEmpty &&
    status.mISetImage.items.isEmpty && status.mOSetImage.items.isEmpty

/-- The loop of `finishConfiguration` over the nodes: only a node that has a stream gets a
status. -/
def NodeStatusMap.build (st : Store) :
    List (NodeId × INode) → NodeStatusMap → Except ConfigError NodeStatusMap
  | [], map => .ok map
  | (nodeId, node) :: rest, map =>
    match NodeStatus.ofNode st node with
    | none => .error .noItem
    | some status =>
      if status.isEmpty then build st rest map
      else build st rest ⟨map.nodes.add nodeId status, map.mInFlightNodeCount + 1⟩

/-- `finishConfiguration`. -/
def FrameConfig.finishConfiguration (cfg : FrameConfig) (st : Store) :
    Except ConfigError Frame :=
  if cfg.nodeMap.entries.isEmpty then .error .noInit
  else
    match NodeStatusMap.build st cfg.nodeMap.entries ⟨.empty, 0⟩ with
    | .error err => .error err
    | .ok nodeStatusMap =>
      .ok
        { items := st.items
          itemMap := st.itemMap
          calls := st.calls
          mpReleasedCollector :=
            { st.mpReleasedCollector with
              mAppMetaNumO_ProducersInFlight := st.producersInFlight .appMeta
              mHalMetaNumO_ProducersInFlight := st.producersInFlight .halMeta }
          mNodeStatusMap := nodeStatusMap
          mListeners := [] }

/-- `constructRequest`: **the configured frame**. -/
def FrameConfig.constructRequest (cfg : FrameConfig) : Except ConfigError Frame :=
  cfg.finishConfiguration cfg.store

end MtkHardware.Pipeline
