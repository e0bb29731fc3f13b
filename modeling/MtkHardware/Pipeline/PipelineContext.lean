import MtkHardware.Pipeline.DagToposort

/-!
# Configuring a Pipeline

A pipeline is configured from its nodes, its edges and its root. `updateConfig` checks what
the pipeline builder brings against the configured nodes, and `config_pipeline` builds the
graph of the pipeline, in which the value of a node is its index in the node map. A request
has a graph of its own, on a part of the nodes of the pipeline (`constructDAG`).

The definitions follow `PipelineContextImpl.cpp` and `PipelineNodeMapControlImp.cpp`. A node
object is identified with the id of its node.
-/

namespace MtkHardware.Pipeline

open Relation NodeMap

structure StreamInfoSet where
  mAppMeta : List StreamId
  mHalMeta : List StreamId
  mAppImage : List StreamId
  mHalImage : List StreamId
  deriving DecidableEq, Repr

def StreamInfoSet.create : StreamInfoSet := ⟨[], [], [], []⟩

structure ContextNode where
  mNodeId : NodeId
  mpInStreams : StreamInfoSet
  mpOutStreams : StreamInfoSet
  deriving DecidableEq, Repr

structure NodeConfig where
  mConfig_NodeMap : KeyedVector NodeId ContextNode
  keyed : ∀ id node, mConfig_NodeMap.find? id = some node → node.mNodeId = id

namespace NodeConfig

def new : NodeConfig := ⟨.empty, fun _ _ h => by cases h⟩

def addNode (cfg : NodeConfig) (pNode : ContextNode) : NodeConfig where
  mConfig_NodeMap := cfg.mConfig_NodeMap.add pNode.mNodeId pNode
  keyed id node h := by
    rw [KeyedVector.find?_add] at h
    split at h
    · rename_i heq
      rw [← Option.some_inj.mp h, heq]
    · exact cfg.keyed id node h

def queryNode (cfg : NodeConfig) (nodeId : NodeId) : Option ContextNode :=
  cfg.mConfig_NodeMap.find? nodeId

def ids (cfg : NodeConfig) : List NodeId := cfg.mConfig_NodeMap.keys

end NodeConfig

structure PipelineBuilder where
  mRootNodes : List NodeId
  mNodeEdges : List Edge
  deriving DecidableEq, Repr

structure PipelineConfig where
  mRootNodes : List NodeId
  mNodeEdges : List Edge
  deriving DecidableEq, Repr

/-! ### The node map -/

structure MyNode where
  mpNode : NodeId
  mpInStreams : StreamInfoSet
  mpOutStreams : StreamInfoSet
  deriving DecidableEq, Repr

/-- The **node map** of a pipeline. -/
abbrev PipelineNodeMapControl := KeyedVector NodeId MyNode

namespace PipelineNodeMapControl

def add (map : PipelineNodeMapControl) (id node : NodeId) : PipelineNodeMapControl :=
  KeyedVector.add map id ⟨node, .create, .create⟩

def nodeAt (map : PipelineNodeMapControl) (index : ℤ) : Option NodeId :=
  if index < 0 then none else (map.entries[index.toNat]?).map fun e => e.2.mpNode

end PipelineNodeMapControl

/-! ### Configuration -/

/-- `updateConfig` for a pipeline builder. -/
def updateConfig (pNodeConfig : NodeConfig) (pBuilder : PipelineBuilder) :
    Except MERROR PipelineConfig :=
  if pBuilder.mRootNodes.length ≠ 1 then .error .badValue
  else if pBuilder.mNodeEdges.all fun e =>
      (pNodeConfig.queryNode e.src).isSome && (pNodeConfig.queryNode e.dst).isSome then
    .ok ⟨pBuilder.mRootNodes, pBuilder.mNodeEdges⟩
  else .error .nameNotFound

namespace PipelineDAG

def addEdges : List Edge → PipelineDAG → PipelineDAG × MERROR
  | [], dag => (dag, .ok)
  | e :: es, dag =>
    match dag.addEdge e.src e.dst with
    | (dag', .ok) => addEdges es dag'
    | (dag', err) => (dag', err)

end PipelineDAG

/-- The loop of `config_pipeline` over the configured nodes: one node of the graph, whose
value is the index `i`, and one node of the node map, which gets the streams. -/
def configNode (acc : PipelineDAG × PipelineNodeMapControl) (e : (NodeId × ContextNode) × ℕ) :
    PipelineDAG × PipelineNodeMapControl :=
  let pNode := e.1.2
  let nodeMap := PipelineNodeMapControl.add acc.2 pNode.mNodeId pNode.mNodeId
  ((acc.1.addNode pNode.mNodeId e.2).1,
    nodeMap.modify pNode.mNodeId fun pINode =>
      { pINode with mpInStreams := pNode.mpInStreams, mpOutStreams := pNode.mpOutStreams })

/-- **`config_pipeline`**, for a new graph and a new node map. It finds that there is no
topological order, and returns `OK` all the same. -/
def config_pipeline (pNodeConfig : NodeConfig) (pPipelineConfig : PipelineConfig) :
    Option (MERROR × PipelineDAG × PipelineNodeMapControl) :=
  let (pDAG, pNodeMap) :=
    pNodeConfig.mConfig_NodeMap.entries.zipIdx.foldl configNode (.create, .empty)
  match PipelineDAG.addEdges pPipelineConfig.mNodeEdges pDAG with
  | (pDAG, .ok) =>
    match pPipelineConfig.mRootNodes with
    | [] => some (.invalidOperation, pDAG, pNodeMap)
    | root :: _ =>
      -- the result of `setRootNode` is not looked at
      match (pDAG.setRootNode root).1.getToposort with
      | none => none
      | some (pDAG, _) => some (.ok, pDAG, pNodeMap)
  | (pDAG, err) => some (err, pDAG, pNodeMap)

/-- The configuration of a pipeline: `updateConfig`, then `config_pipeline`. -/
def configure (pNodeConfig : NodeConfig) (pBuilder : PipelineBuilder) :
    Option (Except MERROR (PipelineDAG × PipelineNodeMapControl)) :=
  match updateConfig pNodeConfig pBuilder with
  | .error err => some (.error err)
  | .ok pPipelineConfig =>
    match config_pipeline pNodeConfig pPipelineConfig with
    | none => none
    | some (.ok, pDAG, pNodeMap) => some (.ok (pDAG, pNodeMap))
    | some (err, _, _) => some (.error err)

/-! ### Request graphs -/

/-- `Set::add`. -/
def addToSet (set : List NodeId) (item : NodeId) : List NodeId :=
  if item ∈ set then set else set ++ [item]

def requestNodeSet (rootNodes : List NodeId) (edges : List Edge) : List NodeId :=
  rootNodes.foldl addToSet (edges.foldl (fun set e => addToSet (addToSet set e.src) e.dst) [])

/-- The loop of `constructDAG` over the nodes of the request: the value of a node is that of
the node of the pipeline. -/
def addRequestNodes (pConfigDAG : PipelineDAG) : List NodeId → PipelineDAG → Option PipelineDAG
  | [], pDAG => some pDAG
  | nodeId :: nodes, pDAG =>
    let obj := pConfigDAG.getNode nodeId
    if obj.val = -1 then none
    else addRequestNodes pConfigDAG nodes (pDAG.addNode nodeId obj.val).1

/-- **`constructDAG`**: the graph of a request, if it is accepted. -/
def constructDAG (pConfigDAG : PipelineDAG) (rootNodes : List NodeId) (edges : List Edge) :
    Option PipelineDAG :=
  match addRequestNodes pConfigDAG (requestNodeSet rootNodes edges) .create with
  | none => none
  | some pDAG =>
    match rootNodes with
    | [root] =>
      match pDAG.setRootNode root with
      | (pDAG, .ok) =>
        match PipelineDAG.addEdges edges pDAG with
        | (pDAG, .ok) =>
          match pDAG.getToposort with
          | none => none
          | some (pDAG, rToposort) => if rToposort.isEmpty then none else some pDAG
        | _ => none
      | _ => none
    | _ => none

/-! ### Adding edges -/

namespace PipelineDAG

variable {dag dag' dag'' : PipelineDAG} {e : Edge} {es : List Edge} {a b : NodeId}

def Joins (dag : PipelineDAG) (e : Edge) : Prop :=
  e.src ∈ dag.mNodesVec.keys ∧ e.dst ∈ dag.mNodesVec.keys

structure SameNodes (dag dag' : PipelineDAG) : Prop where
  root : dag'.mRootId = dag.mRootId
  nodeOf : ∀ a, NodeMap.nodeOf dag'.mNodesVec a = NodeMap.nodeOf dag.mNodesVec a
  order : dag'.mToposort = dag.mToposort

theorem SameNodes.refl (dag : PipelineDAG) : SameNodes dag dag := ⟨rfl, fun _ => rfl, rfl⟩

theorem SameNodes.trans (h : SameNodes dag dag') (h' : SameNodes dag' dag'') :
    SameNodes dag dag'' :=
  ⟨h'.root.trans h.root, fun a => (h'.nodeOf a).trans (h.nodeOf a), h'.order.trans h.order⟩

theorem SameNodes.mem_keys (h : SameNodes dag dag') (a : NodeId) :
    a ∈ dag'.mNodesVec.keys ↔ a ∈ dag.mNodesVec.keys := by
  rw [mem_keys_iff_nodeOf, mem_keys_iff_nodeOf, h.nodeOf]

theorem SameNodes.joins (h : SameNodes dag dag') : dag'.Joins e ↔ dag.Joins e :=
  and_congr (h.mem_keys _) (h.mem_keys _)

theorem sameNodes_addEdge (dag : PipelineDAG) (a b : NodeId) :
    SameNodes dag (dag.addEdge a b).1 :=
  ⟨(addEdge_keeps dag a b).1, nodeOf_addEdge dag a b, (addEdge_keeps dag a b).2⟩

theorem addEdges_of_joins (h : dag.Coherent) (hes : ∀ e ∈ es, dag.Joins e) :
    ∃ dag', addEdges es dag = (dag', .ok) ∧ dag'.Coherent ∧ SameNodes dag dag' ∧
      ∀ a b, dag'.mNodesVec.HasEdge a b ↔ dag.mNodesVec.HasEdge a b ∨ ⟨a, b⟩ ∈ es := by
  induction es generalizing dag with
  | nil => exact ⟨dag, rfl, h, .refl dag, fun a b => by simp⟩
  | cons e es ih =>
    have he := hes e List.mem_cons_self
    obtain ⟨hok, -, -, hout, -⟩ := addEdge_spec he.1 he.2
    have hsame := sameNodes_addEdge dag e.src e.dst
    obtain ⟨dag', heq, h', hsame', hedge⟩ := ih (coherent_addEdge h e.src e.dst)
      fun e' he' => hsame.joins.mpr (hes e' (List.mem_cons_of_mem _ he'))
    refine ⟨dag', ?_, h', hsame.trans hsame', fun a b => ?_⟩
    · rw [addEdges, ← heq]
      split
      · rename_i hadd
        rw [hadd]
      · rename_i hne hadd
        rw [hadd] at hok
        exact absurd hok hne
    · rw [hedge, HasEdge, hout, List.mem_cons, or_assoc]
      have hab : a = e.src ∧ b = e.dst ↔ (⟨a, b⟩ : Edge) = e := by
        cases e
        simp
      rw [hab]
      rfl

theorem addEdges_of_not_joins (hes : ∃ e ∈ es, ¬ dag.Joins e) :
    (addEdges es dag).2 = .nameNotFound := by
  induction es generalizing dag with
  | nil => simp at hes
  | cons e es ih =>
    rw [addEdges]
    by_cases he : dag.Joins e
    · obtain ⟨hok, -⟩ := addEdge_spec he.1 he.2
      split
      · rename_i dag' hadd
        have hsame := sameNodes_addEdge dag e.src e.dst
        rw [hadd] at hsame
        obtain ⟨e', he', hnot⟩ := hes
        have hne : e' ≠ e := fun heq => hnot (heq ▸ he)
        exact ih ⟨e', (List.mem_cons.mp he').resolve_left hne, mt hsame.joins.mp hnot⟩
      · rename_i hne hadd
        rw [hadd] at hok
        exact absurd hok hne
    · rw [addEdge_of_not_mem he]

end PipelineDAG

/-! ### What `config_pipeline` builds -/

open PipelineDAG

/-- The graph and the node map of some configured nodes, by position. -/
structure BuiltFrom (l : List (NodeId × ContextNode))
    (acc : PipelineDAG × PipelineNodeMapControl) : Prop where
  root : acc.1.mRootId = BAD_ID
  order : acc.1.mToposort = []
  nodeOf : ∀ a, NodeMap.nodeOf acc.1.mNodesVec a =
    if a ∈ l.map Prod.fst then some ⟨a, (l.map Prod.fst).idxOf a⟩ else none
  out : ∀ a, outOf acc.1.mNodesVec a = .empty
  ahead : ∀ a, inOf acc.1.mNodesVec a = .empty
  node : ∀ a, acc.2.find? a =
    (l.lookup a).map fun pNode => ⟨a, pNode.mpInStreams, pNode.mpOutStreams⟩

/-- **The loop over the configured nodes.** -/
theorem builtFrom_foldl {l : List (NodeId × ContextNode)} (hnodup : (l.map Prod.fst).Nodup)
    (hkeyed : ∀ e ∈ l, e.2.mNodeId = e.1) :
    BuiltFrom l (l.zipIdx.foldl configNode (.create, .empty)) := by
  induction l using List.reverseRecOn with
  | nil => exact ⟨rfl, rfl, fun _ => rfl, fun _ => rfl, fun _ => rfl, fun _ => rfl⟩
  | append_singleton l e ih =>
    rw [List.map_append, List.nodup_append] at hnodup
    obtain ⟨hroot, horder, hnodeOf, hout, hin, hnode⟩ := ih hnodup.1
      fun e' he' => hkeyed e' (List.mem_append_left _ he')
    have hid : e.2.mNodeId = e.1 := hkeyed e (by simp)
    have hnew : e.1 ∉ l.map Prod.fst := fun hmem => hnodup.2.2 e.1 hmem e.1 (by simp) rfl
    rw [List.zipIdx_append, List.foldl_append]
    set acc := l.zipIdx.foldl configNode (.create, .empty) with hacc
    simp only [List.zipIdx_singleton, List.foldl_cons, List.foldl_nil, configNode, hid,
      Nat.zero_add]
    refine ⟨hroot, horder, fun a => ?_, fun a => ?_, fun a => ?_, fun a => ?_⟩
    · rw [NodeMap.nodeOf, PipelineDAG.addNode, KeyedVector.find?_add, List.map_append]
      split
      · rename_i heq
        subst heq
        rw [if_pos (by simp), List.idxOf_append_of_notMem hnew]
        simp [NodeWithAdj.ofNode]
      · rename_i hne
        rw [← NodeMap.nodeOf, hnodeOf]
        by_cases hmem : a ∈ l.map Prod.fst
        · rw [if_pos hmem, if_pos (List.mem_append_left _ hmem),
            List.idxOf_append_of_mem hmem]
        · rw [if_neg hmem, if_neg (by simpa [hne] using hmem)]
    · rw [outOf, PipelineDAG.addNode, KeyedVector.find?_add]
      split
      · rfl
      · exact hout a
    · rw [inOf, PipelineDAG.addNode, KeyedVector.find?_add]
      split
      · rfl
      · exact hin a
    · rw [KeyedVector.find?_modify, PipelineNodeMapControl.add, KeyedVector.find?_add,
        List.lookup_append]
      split
      · rename_i heq
        subst heq
        have hlookup : l.lookup e.1 = none := by
          rw [List.lookup_eq_none_iff]
          intro x hx
          simpa using fun heq : e.1 = x.1 => hnew (List.mem_map.mpr ⟨x, hx, heq.symm⟩)
        rw [hlookup, KeyedVector.lookup_cons_ite]
        simp
      · rename_i hne
        rw [hnode, KeyedVector.lookup_cons_ite, if_neg hne]
        simp

/-- What a configured pipeline is: a coherent graph of the configured nodes and the edges of
the configuration, in which the value of a node is its index in the node map. -/
structure Configured (pNodeConfig : NodeConfig) (edges : List Edge) (pDAG : PipelineDAG)
    (pNodeMap : PipelineNodeMapControl) : Prop where
  coherent : pDAG.Coherent
  mem_keys : ∀ a, a ∈ pDAG.mNodesVec.keys ↔ a ∈ pNodeConfig.ids
  edge : ∀ a b, pDAG.mNodesVec.HasEdge a b ↔ ⟨a, b⟩ ∈ edges
  value : ∀ a x, NodeMap.nodeOf pDAG.mNodesVec a = some x →
    0 ≤ x.val ∧ PipelineNodeMapControl.nodeAt pNodeMap x.val = some a

theorem configured_of_builtFrom {pNodeConfig : NodeConfig}
    {acc : PipelineDAG × PipelineNodeMapControl}
    (h : BuiltFrom pNodeConfig.mConfig_NodeMap.entries acc) :
    Configured pNodeConfig [] acc.1 acc.2 := by
  have hmem : ∀ a, a ∈ acc.1.mNodesVec.keys ↔ a ∈ pNodeConfig.ids := fun a => by
    rw [mem_keys_iff_nodeOf, h.nodeOf]
    split
    · rename_i ha
      exact iff_of_true ⟨_, rfl⟩ ha
    · rename_i ha
      exact iff_of_false (fun ⟨x, hx⟩ => by cases hx) ha
  have hkeys : acc.2.keys = pNodeConfig.ids := by
    refine List.Pairwise.eq_of_mem_iff acc.2.sorted pNodeConfig.mConfig_NodeMap.sorted
      fun a => ?_
    change a ∈ acc.2.keys ↔ a ∈ pNodeConfig.mConfig_NodeMap.keys
    rw [KeyedVector.mem_keys_iff, KeyedVector.mem_keys_iff, h.node]
    simp [KeyedVector.find?]
  refine ⟨⟨⟨fun a b => ?_, fun a b hab => ?_, .inl h.root⟩, fun a x hx => ?_⟩, hmem,
    fun a b => ?_, fun a x hx => ?_⟩
  · rw [h.out, h.ahead]
    simp
  · rw [h.out, h.ahead] at hab
    simp at hab
  · rw [h.nodeOf] at hx
    split at hx
    · cases hx
      rfl
    · cases hx
  · rw [HasEdge, h.out]
    simp
  · rw [h.nodeOf] at hx
    split at hx
    · rename_i ha
      cases hx
      have hindex : acc.2.keys[pNodeConfig.ids.idxOf a]? = some a := by
        rw [hkeys]
        exact List.getElem?_idxOf ha
      rw [KeyedVector.keys, List.getElem?_map, Option.map_eq_some_iff] at hindex
      obtain ⟨e, he, rfl⟩ := hindex
      have hnode := h.node e.1
      rw [KeyedVector.find?_eq_some_iff.mpr (List.mem_of_getElem? he), eq_comm,
        Option.map_eq_some_iff] at hnode
      obtain ⟨pNode, -, hnode⟩ := hnode
      refine ⟨Int.natCast_nonneg _, ?_⟩
      rw [PipelineNodeMapControl.nodeAt, if_neg (by simp), Int.toNat_natCast]
      change Option.map _ acc.2.entries[pNodeConfig.ids.idxOf e.1]? = _
      rw [he, Option.map_some, ← hnode]
    · cases hx

theorem Configured.congr {pNodeConfig : NodeConfig} {edges : List Edge}
    {pDAG pDAG' : PipelineDAG} {pNodeMap : PipelineNodeMapControl}
    (h : Configured pNodeConfig edges pDAG pNodeMap) (hcoh : pDAG'.Coherent)
    (hnodes : pDAG'.mNodesVec = pDAG.mNodesVec) :
    Configured pNodeConfig edges pDAG' pNodeMap :=
  ⟨hcoh, by rw [hnodes]; exact h.mem_keys, by rw [hnodes]; exact h.edge,
    by rw [hnodes]; exact h.value⟩

def EdgesConfigured (pNodeConfig : NodeConfig) (edges : List Edge) : Prop :=
  ∀ e ∈ edges, e.src ∈ pNodeConfig.ids ∧ e.dst ∈ pNodeConfig.ids

instance (pNodeConfig : NodeConfig) (edges : List Edge) :
    Decidable (EdgesConfigured pNodeConfig edges) :=
  inferInstanceAs (Decidable (∀ e ∈ edges, _ ∧ _))

theorem setRootNode_mRootId (dag : PipelineDAG) (root : NodeId) :
    (dag.setRootNode root).1.mNodesVec = dag.mNodesVec ∧
      (dag.setRootNode root).1.mToposort = dag.mToposort ∧
      (dag.setRootNode root).1.mRootId =
        if root ∈ dag.mNodesVec.keys then root else dag.mRootId := by
  rw [setRootNode]
  split
  · rename_i hnone
    rw [if_neg (KeyedVector.find?_eq_none_iff.mp hnone)]
    exact ⟨rfl, rfl, rfl⟩
  · rename_i node hnode
    rw [if_pos (KeyedVector.mem_keys_of_find? hnode)]
    exact ⟨rfl, rfl, rfl⟩

/-- **`config_pipeline`** returns `OK` for every configuration that has a root and whose
edges join configured nodes; whether the root is configured, and whether there is a
topological order, makes no difference to the result. -/
theorem config_pipeline_spec (pNodeConfig : NodeConfig) (pPipelineConfig : PipelineConfig) :
    (∃ pDAG pNodeMap root, config_pipeline pNodeConfig pPipelineConfig =
        some (.ok, pDAG, pNodeMap) ∧
      EdgesConfigured pNodeConfig pPipelineConfig.mNodeEdges ∧
      pPipelineConfig.mRootNodes.head? = some root ∧
      Configured pNodeConfig pPipelineConfig.mNodeEdges pDAG pNodeMap ∧
      pDAG.mRootId = if root ∈ pNodeConfig.ids then root else BAD_ID) ∨
    (∃ err pDAG pNodeMap, config_pipeline pNodeConfig pPipelineConfig =
        some (err, pDAG, pNodeMap) ∧ err ≠ .ok ∧
      ¬ (EdgesConfigured pNodeConfig pPipelineConfig.mNodeEdges ∧
        pPipelineConfig.mRootNodes ≠ [])) := by
  have hbuilt := builtFrom_foldl pNodeConfig.mConfig_NodeMap.nodup_keys fun e he =>
    pNodeConfig.keyed e.1 e.2 (KeyedVector.find?_eq_some_iff.mpr he)
  have hconf := configured_of_builtFrom hbuilt
  rw [config_pipeline]
  set acc := pNodeConfig.mConfig_NodeMap.entries.zipIdx.foldl configNode (.create, .empty)
  obtain ⟨pDAG, pNodeMap⟩ := acc
  dsimp only at hbuilt hconf ⊢
  have hjoins : ∀ e, pDAG.Joins e ↔ e.src ∈ pNodeConfig.ids ∧ e.dst ∈ pNodeConfig.ids :=
    fun e => and_congr (hconf.mem_keys _) (hconf.mem_keys _)
  by_cases hedges : EdgesConfigured pNodeConfig pPipelineConfig.mNodeEdges
  · obtain ⟨pDAG', heq, hcoh, hsame, hedge⟩ := addEdges_of_joins hconf.coherent
      fun e he => (hjoins e).mpr (hedges e he)
    rw [heq]
    dsimp only
    cases hroots : pPipelineConfig.mRootNodes with
    | nil => exact .inr ⟨_, _, _, rfl, by simp, by simp⟩
    | cons root roots =>
      obtain ⟨hnodes, -, hroot⟩ := setRootNode_mRootId pDAG' root
      have hcoh' := coherent_setRootNode hcoh root
      obtain ⟨l, htopo⟩ := getToposort_spec hcoh'.ids
      have hconf' : Configured pNodeConfig pPipelineConfig.mNodeEdges pDAG' pNodeMap := by
        refine ⟨hcoh, fun a => (hsame.mem_keys a).trans (hconf.mem_keys a), fun a b => ?_,
          fun a x hx => hconf.value a x (hsame.nodeOf a ▸ hx)⟩
        rw [hedge, hconf.edge]
        simp
      refine .inl ⟨{ (pDAG'.setRootNode root).1 with mToposort := l }, pNodeMap, root,
        by simp only [htopo], hedges, rfl, hconf'.congr (hcoh'.congr rfl rfl) hnodes, ?_⟩
      rw [hroot, hsame.root, hbuilt.root]
      exact if_congr (hconf'.mem_keys root) rfl rfl
  · obtain ⟨e, he, hnot⟩ : ∃ e ∈ pPipelineConfig.mNodeEdges, ¬ pDAG.Joins e := by
      by_contra hall
      push Not at hall
      exact hedges fun e he => (hjoins e).mp (hall e he)
    have herr := addEdges_of_not_joins ⟨e, he, hnot⟩
    generalize addEdges pPipelineConfig.mNodeEdges pDAG = r at herr ⊢
    obtain ⟨pDAG', err⟩ := r
    obtain rfl : err = .nameNotFound := herr
    exact .inr ⟨_, _, _, rfl, by simp, fun h => hedges h.1⟩

/-! ### Request graphs -/

theorem mem_addToSet {set : List NodeId} {item a : NodeId} :
    a ∈ addToSet set item ↔ a ∈ set ∨ a = item := by
  rw [addToSet]
  split
  · rename_i hmem
    exact ⟨.inl, fun h => h.elim (fun h => h) fun h => h ▸ hmem⟩
  · simp

theorem mem_foldl_addToSet {set items : List NodeId} {a : NodeId} :
    a ∈ items.foldl addToSet set ↔ a ∈ set ∨ a ∈ items := by
  induction items generalizing set with
  | nil => simp
  | cons item items ih => rw [List.foldl_cons, ih, mem_addToSet, List.mem_cons, or_assoc]

theorem mem_requestNodeSet {rootNodes : List NodeId} {edges : List Edge} {a : NodeId} :
    a ∈ requestNodeSet rootNodes edges ↔
      (∃ e ∈ edges, a = e.src ∨ a = e.dst) ∨ a ∈ rootNodes := by
  have hends : ∀ set : List NodeId,
      a ∈ edges.foldl (fun set e => addToSet (addToSet set e.src) e.dst) set ↔
        a ∈ set ∨ ∃ e ∈ edges, a = e.src ∨ a = e.dst := by
    induction edges with
    | nil => simp
    | cons e edges ih =>
      intro set
      rw [List.foldl_cons, ih, mem_addToSet, mem_addToSet, List.exists_mem_cons_iff]
      simp only [or_assoc]
  rw [requestNodeSet, mem_foldl_addToSet, hends]
  simp

theorem addRequestNodes_spec {pConfigDAG dag dag' : PipelineDAG} {nodes : List NodeId}
    (hids : pConfigDAG.IdsMatch) (hout : ∀ a, outOf dag.mNodesVec a = .empty)
    (hin : ∀ a, inOf dag.mNodesVec a = .empty)
    (heq : addRequestNodes pConfigDAG nodes dag = some dag') :
    (dag'.mRootId = dag.mRootId ∧ dag'.mToposort = dag.mToposort) ∧
      (∀ a, outOf dag'.mNodesVec a = .empty) ∧ (∀ a, inOf dag'.mNodesVec a = .empty) ∧
      (∀ a, a ∈ dag'.mNodesVec.keys ↔ a ∈ dag.mNodesVec.keys ∨ a ∈ nodes) ∧
      ∀ a x, NodeMap.nodeOf dag'.mNodesVec a = some x →
        NodeMap.nodeOf dag.mNodesVec a = some x ∨
          NodeMap.nodeOf pConfigDAG.mNodesVec a = some x := by
  induction nodes generalizing dag with
  | nil =>
    cases heq
    exact ⟨⟨rfl, rfl⟩, hout, hin, by simp, fun _ _ hx => .inl hx⟩
  | cons nodeId nodes ih =>
    rw [addRequestNodes] at heq
    split at heq
    · cases heq
    · rename_i hval
      have hobj : NodeMap.nodeOf pConfigDAG.mNodesVec nodeId =
          some ⟨nodeId, (pConfigDAG.getNode nodeId).val⟩ := by
        rw [getNode] at hval ⊢
        cases hfind : pConfigDAG.mNodesVec.find? nodeId with
        | none =>
          rw [hfind] at hval
          exact absurd rfl hval
        | some node =>
          have hid := hids nodeId node.mNode (by rw [NodeMap.nodeOf, hfind]; rfl)
          rw [NodeMap.nodeOf, hfind, ← hid]
          rfl
      have hviews : ∀ a,
          outOf (dag.addNode nodeId (pConfigDAG.getNode nodeId).val).1.mNodesVec a = .empty ∧
          inOf (dag.addNode nodeId (pConfigDAG.getNode nodeId).val).1.mNodesVec a = .empty := by
        intro a
        rw [outOf, inOf, PipelineDAG.addNode, KeyedVector.find?_add]
        split
        · exact ⟨rfl, rfl⟩
        · exact ⟨hout a, hin a⟩
      obtain ⟨hroot, hout', hin', hkeys, hnode⟩ :=
        ih (fun a => (hviews a).1) (fun a => (hviews a).2) heq
      refine ⟨hroot, hout', hin', fun a => ?_, fun a x hx => ?_⟩
      · rw [hkeys, PipelineDAG.addNode, KeyedVector.mem_keys_add, List.mem_cons]
        tauto
      · rcases hnode a x hx with hx | hx
        · rw [NodeMap.nodeOf, PipelineDAG.addNode, KeyedVector.find?_add] at hx
          split at hx
          · rename_i heq
            obtain rfl := Option.some_inj.mp hx
            rw [heq]
            exact .inr hobj
          · exact .inl hx
        · exact .inr hx

/-- What an accepted **request graph** is: a coherent graph without a cycle, on nodes of the
pipeline, with the edges and the root of the request. -/
structure RequestGraph (pConfigDAG : PipelineDAG) (rootNodes : List NodeId)
    (edges : List Edge) (dag : PipelineDAG) : Prop where
  coherent : dag.Coherent
  root : rootNodes = [dag.mRootId] ∧ dag.mRootId ∈ dag.mNodesVec.keys
  mem_keys : ∀ a, a ∈ dag.mNodesVec.keys ↔ a ∈ requestNodeSet rootNodes edges
  edge : ∀ a b, dag.mNodesVec.HasEdge a b ↔ ⟨a, b⟩ ∈ edges
  value : ∀ a x, NodeMap.nodeOf dag.mNodesVec a = some x →
    NodeMap.nodeOf pConfigDAG.mNodesVec a = some x
  order : evaluateToposort dag.mNodesVec = some (.ok, dag.mToposort) ∧ dag.mToposort ≠ []

theorem RequestGraph.exists_topological {pConfigDAG dag : PipelineDAG}
    {rootNodes : List NodeId} {edges : List Edge}
    (h : RequestGraph pConfigDAG rootNodes edges dag) :
    ∃ ks, IsTopological dag.mNodesVec.HasEdge ks ∧ ∀ a, a ∈ ks ↔ a ∈ dag.mNodesVec.keys := by
  rcases evaluateToposortWith_spec dag.mNodesVec (Nat.lt_succ_self _) with
    ⟨l, ks, -, horder, hks, -⟩ | ⟨heq, -⟩
  · exact ⟨ks, horder, hks⟩
  · have hok := h.order.1
    rw [evaluateToposort, heq] at hok
    cases hok

theorem RequestGraph.mem_mToposort {pConfigDAG dag : PipelineDAG} {rootNodes : List NodeId}
    {edges : List Edge} (h : RequestGraph pConfigDAG rootNodes edges dag) (a : NodeId) :
    a ∈ dag.mToposort.map NodeObj.id ↔ a ∈ dag.mNodesVec.keys := by
  have hok := h.order.1
  rcases evaluateToposort_spec h.coherent.ids with ⟨l, heq, horder, -⟩ | ⟨heq, -⟩
  · rw [heq] at hok
    cases hok
    exact horder.mem a
  · rw [heq] at hok
    cases hok

/-- **A request graph** is accepted only as one. -/
theorem constructDAG_spec {pConfigDAG dag : PipelineDAG} {rootNodes : List NodeId}
    {edges : List Edge} (hids : pConfigDAG.IdsMatch)
    (heq : constructDAG pConfigDAG rootNodes edges = some dag) :
    RequestGraph pConfigDAG rootNodes edges dag := by
  rw [constructDAG] at heq
  split at heq
  · cases heq
  · rename_i dag₀ hnodes
    obtain ⟨⟨hroot₀, horder₀⟩, hout₀, hin₀, hkeys₀, hnode₀⟩ :=
      addRequestNodes_spec hids (fun _ => rfl) (fun _ => rfl) hnodes
    have hcoh₀ : dag₀.Coherent := by
      refine ⟨⟨fun a b => ?_, fun a b hab => ?_, .inl hroot₀⟩, fun a x hx => ?_⟩
      · rw [hout₀, hin₀]
        simp
      · rw [hout₀, hin₀] at hab
        simp at hab
      · exact (hnode₀ a x hx).elim (fun hx => by cases hx) fun hx => hids a x hx
    split at heq
    · rename_i root
      split at heq
      · rename_i dag₁ hset
        obtain ⟨hnodes₁, horder₁, hroot₁⟩ := setRootNode_mRootId dag₀ root
        have hcoh₁ := coherent_setRootNode hcoh₀ root
        have hmem : root ∈ dag₀.mNodesVec.keys :=
          (hkeys₀ root).mpr (.inr (mem_requestNodeSet.mpr (.inr List.mem_cons_self)))
        rw [if_pos hmem] at hroot₁
        rw [hset] at hnodes₁ horder₁ hroot₁ hcoh₁
        dsimp only at hnodes₁ horder₁ hroot₁ hcoh₁
        have hjoins : ∀ e ∈ edges, dag₁.Joins e := fun e he => by
          rw [Joins, hnodes₁, hkeys₀, hkeys₀, mem_requestNodeSet, mem_requestNodeSet]
          exact ⟨.inr (.inl ⟨e, he, .inl rfl⟩), .inr (.inl ⟨e, he, .inr rfl⟩)⟩
        obtain ⟨dag₂, hadd, hcoh₂, hsame₂, hedge₂⟩ := addEdges_of_joins hcoh₁ hjoins
        rw [hadd] at heq
        dsimp only at heq
        obtain ⟨l, htopo⟩ := getToposort_spec hcoh₂.ids
        rw [htopo] at heq
        dsimp only at heq
        split at heq
        · cases heq
        · rename_i hnonempty
          cases heq
          have hkeys : ∀ a, a ∈ dag₂.mNodesVec.keys ↔ a ∈ requestNodeSet [root] edges :=
            fun a => by
              rw [hsame₂.mem_keys, hnodes₁, hkeys₀]
              simp [create]
          refine ⟨hcoh₂.congr rfl rfl, ⟨?_, ?_⟩, hkeys, fun a b => ?_, fun a x hx => ?_, ?_,
            mt List.isEmpty_iff.mpr hnonempty⟩
          · dsimp only
            rw [hsame₂.root, hroot₁]
          · dsimp only
            rw [hsame₂.root, hroot₁, hsame₂.mem_keys, hnodes₁]
            exact hmem
          · dsimp only
            rw [hedge₂, HasEdge, hnodes₁, hout₀]
            simp
          · dsimp only at hx
            rw [hsame₂.nodeOf, hnodes₁] at hx
            exact (hnode₀ a x hx).elim (fun hx => by cases hx) fun hx => hx
          · have hempty : dag₂.mToposort = [] := by
              rw [hsame₂.order, horder₁, horder₀]
              rfl
            have hevaluate := evaluateToposort_of_getToposort hempty htopo
              (mt List.isEmpty_iff.mpr hnonempty)
            exact hevaluate
      · cases heq
    · cases heq

end MtkHardware.Pipeline
