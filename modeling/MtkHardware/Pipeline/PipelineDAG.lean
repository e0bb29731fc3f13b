import MtkHardware.Util.SortedVector
import MtkHardware.Pipeline.FrameControl

/-!
# The Pipeline Graph

A `PipelineDAG` holds the nodes of a pipeline with two sets each, the nodes it has an edge
to and the nodes it has an edge from, a root, and the topological order that `getToposort`
computes on its first call and keeps.

The definitions follow `PipelineDAGImp.cpp`. Memory does not run out. A function whose
result is an `Option` yields `none` where the source does not return: it accesses the entry
of a key that is not there (`editValueFor`, `valueAt`).
-/

namespace MtkHardware.Pipeline

/-- The value of a node: its index in the node map of the pipeline. -/
abbrev NodeVal := ℤ

structure NodeObj where
  id : NodeId
  val : NodeVal
  deriving DecidableEq, Repr

def NodeObj.bad : NodeObj := ⟨-1, -1⟩

structure Edge where
  src : NodeId
  dst : NodeId
  deriving DecidableEq, Repr

abbrev NodeIdSet := SortedVector NodeId

structure NodeWithAdj where
  mNode : NodeObj
  /-- In adjacent nodes. -/
  mInAdj : NodeIdSet
  /-- Out adjacent nodes. -/
  mOutAdj : NodeIdSet
  deriving DecidableEq

def NodeWithAdj.ofNode (node : NodeObj) : NodeWithAdj := ⟨node, .empty, .empty⟩

namespace NodeWithAdj

def addIn (id : NodeId) (node : NodeWithAdj) : NodeWithAdj :=
  { node with mInAdj := node.mInAdj.add id }

def addOut (id : NodeId) (node : NodeWithAdj) : NodeWithAdj :=
  { node with mOutAdj := node.mOutAdj.add id }

def removeIn (id : NodeId) (node : NodeWithAdj) : NodeWithAdj :=
  { node with mInAdj := node.mInAdj.remove id }

def removeOut (id : NodeId) (node : NodeWithAdj) : NodeWithAdj :=
  { node with mOutAdj := node.mOutAdj.remove id }

def setValue (val : NodeVal) (node : NodeWithAdj) : NodeWithAdj :=
  { node with mNode := { node.mNode with val := val } }

end NodeWithAdj

abbrev NodeMap := KeyedVector NodeId NodeWithAdj

/-- The **pipeline graph**. -/
structure PipelineDAG where
  mRootId : NodeId
  mNodesVec : NodeMap
  /-- The topological order that is kept. -/
  mToposort : List NodeObj

namespace PipelineDAG

def BAD_ID : NodeId := -1

/-- `IPipelineDAG::create`. -/
def create : PipelineDAG := ⟨BAD_ID, .empty, []⟩

/-! ### Nodes -/

def addNode (dag : PipelineDAG) (id : NodeId) (val : NodeVal) : PipelineDAG × MERROR :=
  ({ dag with mNodesVec := dag.mNodesVec.add id (.ofNode ⟨id, val⟩) }, .ok)

/-- The loops of `removeNode`: edit the nodes of some ids. -/
def editValues (f : NodeWithAdj → NodeWithAdj) : List NodeId → NodeMap → Option NodeMap
  | [], nodes => some nodes
  | k :: ks, nodes =>
    match nodes.find? k with
    | none => none
    | some _ => editValues f ks (nodes.modify k f)

/-- **Remove a node** and its edges. -/
def removeNode (dag : PipelineDAG) (id : NodeId) : Option (PipelineDAG × MERROR) :=
  match dag.mNodesVec.find? id with
  | none => some (dag, .nameNotFound)
  | some node =>
    let mRootId := if id = dag.mRootId then BAD_ID else dag.mRootId
    match editValues (.removeOut id) node.mInAdj.items dag.mNodesVec with
    | none => none
    | some nodes =>
      match nodes.find? id with
      | none => none
      | some node =>
        match editValues (.removeIn id) node.mOutAdj.items nodes with
        | none => none
        | some nodes =>
          some ({ dag with mRootId := mRootId, mNodesVec := nodes.remove id }, .ok)

def setRootNode (dag : PipelineDAG) (id : NodeId) : PipelineDAG × MERROR :=
  match dag.mNodesVec.find? id with
  | none => (dag, .nameNotFound)
  | some _ => ({ dag with mRootId := id }, .ok)

def setNodeValue (dag : PipelineDAG) (id : NodeId) (val : NodeVal) : PipelineDAG × MERROR :=
  match dag.mNodesVec.find? id with
  | none => (dag, .nameNotFound)
  | some _ =>
    ({ dag with mNodesVec := dag.mNodesVec.modify id (.setValue val) }, .ok)

def getNode (dag : PipelineDAG) (id : NodeId) : NodeObj :=
  match dag.mNodesVec.find? id with
  | none => .bad
  | some node => node.mNode

def getRootNode (dag : PipelineDAG) : NodeObj :=
  if dag.mRootId = BAD_ID then .bad else dag.getNode dag.mRootId

/-! ### Edges -/

/-- **Add an edge.** -/
def addEdge (dag : PipelineDAG) (id_src id_dst : NodeId) : PipelineDAG × MERROR :=
  match dag.mNodesVec.find? id_src, dag.mNodesVec.find? id_dst with
  | some src, some dst =>
    if id_dst ∉ src.mOutAdj ∨ id_src ∉ dst.mInAdj then
      let nodes := dag.mNodesVec.modify id_src (.addOut id_dst)
      ({ dag with mNodesVec := nodes.modify id_dst (.addIn id_src) }, .ok)
    else (dag, .ok)
  | _, _ => (dag, .nameNotFound)

/-- **Remove an edge.** -/
def removeEdge (dag : PipelineDAG) (id_src id_dst : NodeId) : PipelineDAG × MERROR :=
  match dag.mNodesVec.find? id_src, dag.mNodesVec.find? id_dst with
  | some src, some dst =>
    if id_dst ∉ src.mOutAdj ∨ id_src ∉ dst.mInAdj then (dag, .nameNotFound)
    else
      let nodes := dag.mNodesVec.modify id_src (.removeOut id_dst)
      ({ dag with mNodesVec := nodes.modify id_dst (.removeIn id_src) }, .ok)
  | _, _ => (dag, .nameNotFound)

def getEdges (dag : PipelineDAG) : List Edge :=
  dag.mNodesVec.entries.flatMap fun e => e.2.mOutAdj.items.map fun dst => ⟨e.2.mNode.id, dst⟩

/-- The objects of the nodes that a node has an edge to. -/
def getOutAdjacentNodes (dag : PipelineDAG) (id : NodeId) : Option (MERROR × List NodeObj) :=
  match dag.mNodesVec.find? id with
  | none => some (.nameNotFound, [])
  | some node =>
    match node.mOutAdj.items.mapM dag.mNodesVec.find? with
    | none => none
    | some nodes => some (.ok, nodes.map NodeWithAdj.mNode)

/-! ### Topological order -/

inductive Visit
  | notVisit
  | visited
  | sorted
  deriving DecidableEq, Repr

structure Search where
  visit : KeyedVector NodeId Visit
  rToposort : List NodeObj

/-- A loop over nodes, which ends at the first that fails. -/
def runAll (run : NodeId → Search → Option (Except MERROR Search)) :
    List NodeId → Search → Option (Except MERROR Search)
  | [], s => some (.ok s)
  | id :: ids, s =>
    match run id s with
    | none => none
    | some (.error _) => some (.error .unknownError)
    | some (.ok s') => runAll run ids s'

/-- `DFS::run`: **the search** below a node, which puts every node it completes in front of
the order. It does not return when its calls are nested deeper than `fuel`. -/
def dfsRun (nodes : NodeMap) : ℕ → NodeId → Search → Option (Except MERROR Search)
  | 0, _, _ => none
  | fuel + 1, id, s =>
    match s.visit.find? id with
    | none => some (.error .noInit)
    | some .sorted => some (.ok s)
    | some .visited => some (.error .unknownError)
    | some .notVisit =>
      match nodes.find? id with
      | none => none
      | some node =>
        match runAll (dfsRun nodes fuel) node.mOutAdj.items
            { s with visit := s.visit.modify id fun _ => .visited } with
        | none => none
        | some (.error _) => some (.error .unknownError)
        | some (.ok s') =>
          some (.ok ⟨s'.visit.modify id fun _ => .sorted, node.mNode :: s'.rToposort⟩)

/-- One iteration of the loop of `evaluateToposort`. -/
def sortFrom (nodes : NodeMap) (fuel : ℕ) (id : NodeId) (s : Search) :
    Option (Except MERROR Search) :=
  if s.visit.find? id = some .notVisit then dfsRun nodes fuel id s else some (.ok s)

/-- **Evaluate a topological order**, with search calls nested up to `fuel` deep. -/
def evaluateToposortWith (fuel : ℕ) (nodes : NodeMap) : Option (MERROR × List NodeObj) :=
  match runAll (sortFrom nodes fuel) nodes.keys ⟨nodes.mapVal fun _ _ => .notVisit, []⟩ with
  | none => none
  | some (.error _) => some (.unknownError, [])
  | some (.ok s) => some (.ok, s.rToposort)

/-- **Evaluate a topological order.** The nodes on the call chain of a search are distinct. -/
def evaluateToposort (nodes : NodeMap) : Option (MERROR × List NodeObj) :=
  evaluateToposortWith (nodes.size + 1) nodes

/-- The topological order that is kept, computed if it is empty. -/
def getToposort (dag : PipelineDAG) : Option (PipelineDAG × List NodeObj) :=
  if dag.mToposort.isEmpty then
    match evaluateToposort dag.mNodesVec with
    | none => none
    | some (_, rToposort) => some ({ dag with mToposort := rToposort }, rToposort)
  else some (dag, dag.mToposort)

def getTopological (dag : PipelineDAG) : Option (MERROR × List NodeObj) :=
  match evaluateToposort dag.mNodesVec with
  | none => none
  | some (err, result) => some (if err = .ok then .ok else .failed, result)

/-! ### Clones -/

def clone (dag : PipelineDAG) : PipelineDAG := ⟨dag.mRootId, dag.mNodesVec, []⟩

def removeNodes : List NodeId → PipelineDAG → Option PipelineDAG
  | [], dag => some dag
  | id :: ids, dag =>
    match dag.removeNode id with
    | none => none
    | some (dag, _) => removeNodes ids dag

/-- The copy of the part of the graph on a set of nodes, unless the set is without the root
or with a node that is not in the graph. -/
def cloneOf (dag : PipelineDAG) (ids : NodeIdSet) : Option (Option PipelineDAG) :=
  let vDirty := dag.mNodesVec.keys.filter (· ∉ ids)
  if dag.mRootId ∈ vDirty then some none
  else if dag.mNodesVec.size ≠ vDirty.length + ids.size then some none
  else (removeNodes vDirty dag.clone).map some

end PipelineDAG

end MtkHardware.Pipeline
