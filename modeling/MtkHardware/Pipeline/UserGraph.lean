import MtkHardware.Pipeline.ConfigCheck
import MtkHardware.Pipeline.UserSetup

/-!
# The User Graphs of a Request

`evaluate_buffer_users` gives every buffer of a frame the graph of the request, with the
nodes as users. A node that does not use the buffer is a user without a category: it takes no
part in the maps of the manager, but the search for the users ahead goes through it.
-/

namespace MtkHardware.Pipeline

open Relation PipelineDAG

/-! ### The frame of a request -/

/-- The streams that a node takes in and gives out together. -/
structure IOMap where
  vIn : List StreamId
  vOut : List StreamId
  deriving DecidableEq, Repr

/-- The `IOMap`s of a request, by node. -/
structure RequestIOMaps where
  mImageNodeIOMaps : NodeId → List IOMap
  mMetaNodeIOMaps : NodeId → List IOMap

namespace RequestIOMaps

variable (io : RequestIOMaps)

/-- The `IOMap`s of a node that are about images, or about metadata. -/
def ofKind (kind : MapKind) (nodeId : NodeId) : List IOMap :=
  if kind.isImage then io.mImageNodeIOMaps nodeId else io.mMetaNodeIOMaps nodeId

def inStreams (kind : MapKind) (nodeId : NodeId) : List StreamId :=
  (io.ofKind kind nodeId).flatMap IOMap.vIn

def outStreams (kind : MapKind) (nodeId : NodeId) : List StreamId :=
  (io.ofKind kind nodeId).flatMap IOMap.vOut

/-- `setINodeIOStreams`. -/
def toINode (nodeId : NodeId) : INode where
  iImage := (io.mImageNodeIOMaps nodeId).flatMap IOMap.vIn
  oImage := (io.mImageNodeIOMaps nodeId).flatMap IOMap.vOut
  iMeta := (io.mMetaNodeIOMaps nodeId).flatMap IOMap.vIn
  oMeta := (io.mMetaNodeIOMaps nodeId).flatMap IOMap.vOut

/-- `construct_FrameNodeMapControl`: a node of the frame for every node of the request. -/
def constructNodeMap (rToposort : List NodeObj) : KeyedVector NodeId INode :=
  rToposort.foldl (fun map node => map.add node.id (io.toINode node.id)) .empty

theorem find?_constructNodeMap (rToposort : List NodeObj) (a : NodeId) :
    (io.constructNodeMap rToposort).find? a =
      if a ∈ rToposort.map NodeObj.id then some (io.toINode a) else none := by
  have hfold : ∀ (l : List NodeObj) (map : KeyedVector NodeId INode),
      (l.foldl (fun map node => map.add node.id (io.toINode node.id)) map).find? a =
        if a ∈ l.map NodeObj.id then some (io.toINode a) else map.find? a := by
    intro l
    induction l with
    | nil => intro map; rfl
    | cons node l ih =>
      intro map
      rw [List.foldl_cons, ih, KeyedVector.find?_add]
      simp only [List.map_cons, List.mem_cons]
      by_cases ha : a ∈ l.map NodeObj.id
      · rw [if_pos ha, if_pos (.inr ha)]
      · by_cases hnode : a = node.id
        · rw [if_neg ha, if_pos hnode, if_pos (.inl hnode), hnode]
        · rw [if_neg ha, if_neg hnode, if_neg (not_or.mpr ⟨hnode, ha⟩)]
  exact hfold rToposort .empty

end RequestIOMaps

def FrameConfig.ofRequest (dag : PipelineDAG) (io : RequestIOMaps)
    (queryMinimalUsage : NodeId → StreamId → BitVec 32)
    (buffers : MapKind → List (StreamId × Option ℕ)) : FrameConfig where
  nodeMap := io.constructNodeMap dag.mToposort
  toposort := dag.mToposort.map NodeObj.id
  mem_toposort n := by
    rw [KeyedVector.mem_keys_iff, io.find?_constructNodeMap]
    split
    · rename_i hn
      exact iff_of_true hn ⟨_, rfl⟩
    · rename_i hn
      exact iff_of_false hn fun ⟨_, h⟩ => by cases h
  edges := dag.getEdges.map fun e => (e.src, e.dst)
  queryMinimalUsage := queryMinimalUsage
  buffers := buffers

theorem FrameConfig.refineUser_ofRequest {dag : PipelineDAG} {a : NodeId} (io : RequestIOMaps)
    (queryMinimalUsage : NodeId → StreamId → BitVec 32)
    (buffers : MapKind → List (StreamId × Option ℕ)) (i : ItemId)
    (ha : a ∈ dag.mToposort.map NodeObj.id) :
    (ofRequest dag io queryMinimalUsage buffers).refineUser i a =
      if i.2 ∈ io.outStreams i.1 a then .producer
      else if i.2 ∈ io.inStreams i.1 a then .consumer else .none := by
  rw [refineUser, ofRequest, io.find?_constructNodeMap, if_pos ha]
  cases himage : i.1.isImage with
  | true => simp [RequestIOMaps.toINode, RequestIOMaps.outStreams, RequestIOMaps.inStreams,
      RequestIOMaps.ofKind, himage]
  | false => simp [RequestIOMaps.toINode, RequestIOMaps.outStreams, RequestIOMaps.inStreams,
      RequestIOMaps.ofKind, himage]

/-! ### Edges -/

theorem PipelineDAG.mem_getEdges {dag : PipelineDAG} (h : dag.IdsMatch) {a b : NodeId} :
    ⟨a, b⟩ ∈ dag.getEdges ↔ dag.mNodesVec.HasEdge a b := by
  rw [getEdges, List.mem_flatMap]
  constructor
  · rintro ⟨⟨k, node⟩, he, hmem⟩
    obtain ⟨dst, hdst, heq⟩ := List.mem_map.mp hmem
    have hfind := KeyedVector.find?_eq_some_iff.mpr he
    have hid := h k node.mNode (by rw [NodeMap.nodeOf, hfind]; rfl)
    cases heq
    rw [hid]
    exact (NodeMap.hasEdge_iff hfind).mpr hdst
  · intro hab
    obtain ⟨node, hfind⟩ := KeyedVector.mem_keys_iff.mp (NodeMap.mem_keys_of_mem_outOf hab)
    have hid := h a node.mNode (by rw [NodeMap.nodeOf, hfind]; rfl)
    refine ⟨(a, node), KeyedVector.find?_eq_some_iff.mp hfind, List.mem_map.mpr ⟨b, ?_, ?_⟩⟩
    · exact (NodeMap.hasEdge_iff hfind).mp hab
    · rw [hid]

namespace MyUserGraph

variable {g : MyUserGraph} {u v a b : UserId}

/-- There is an edge from `a` to `b` among the out-going edges of `a`. -/
def Behind (g : MyUserGraph) (a b : UserId) : Prop :=
  ∃ node, g.mUserVector.find? a = some node ∧ b ∈ node.mOut

/-- Every edge is an out-going edge and an in-coming edge. -/
def Mirrored (g : MyUserGraph) : Prop := ∀ a b, g.Behind a b ↔ g.Ahead a b

def withUser (g : MyUserGraph) (u : UserId) (p : UserPtr) : MyUserGraph :=
  { g with mUserVector := g.mUserVector.add u ⟨p, [], []⟩ }

def withEdge (g : MyUserGraph) (u v : UserId) : MyUserGraph :=
  { g with mUserVector :=
      (g.mUserVector.modify u fun n =>
        { n with mOut := n.mOut.orderedInsert (· ≤ ·) v }).modify v fun n =>
        { n with mIn := n.mIn.orderedInsert (· ≤ ·) u } }

theorem ahead_withUser {p : UserPtr} (hu : u ∉ g.mUserVector.keys) :
    (g.withUser u p).Ahead a b ↔ g.Ahead a b := by
  rw [Ahead, Ahead, withUser, KeyedVector.find?_add]
  split
  · rename_i heq
    rw [heq, KeyedVector.find?_eq_none_iff.mpr hu]
    simp
  · rfl

theorem behind_withUser {p : UserPtr} (hu : u ∉ g.mUserVector.keys) :
    (g.withUser u p).Behind a b ↔ g.Behind a b := by
  rw [Behind, Behind, withUser, KeyedVector.find?_add]
  split
  · rename_i heq
    rw [heq, KeyedVector.find?_eq_none_iff.mpr hu]
    simp
  · rfl

theorem ahead_withEdge (hv : v ∈ g.mUserVector.keys) :
    (g.withEdge u v).Ahead a b ↔ g.Ahead a b ∨ a = u ∧ b = v := by
  obtain ⟨node, hnode⟩ := KeyedVector.mem_keys_iff.mp hv
  rw [Ahead, Ahead, withEdge, KeyedVector.find?_modify, KeyedVector.find?_modify]
  by_cases hbv : b = v
  · by_cases hbu : b = u
    · simp [← hbv, ← hbu, hbv ▸ hnode, or_comm]
    · rw [if_pos hbv, if_neg hbu, hbv, hnode]
      simp [or_comm]
  · rw [if_neg hbv]
    by_cases hbu : b = u
    · rw [if_pos hbu]
      cases g.mUserVector.find? b with
      | none => simp [hbv]
      | some n => simp [hbv]
    · rw [if_neg hbu]
      simp [hbv]

theorem behind_withEdge (hu : u ∈ g.mUserVector.keys) :
    (g.withEdge u v).Behind a b ↔ g.Behind a b ∨ a = u ∧ b = v := by
  obtain ⟨node, hnode⟩ := KeyedVector.mem_keys_iff.mp hu
  rw [Behind, Behind, withEdge, KeyedVector.find?_modify, KeyedVector.find?_modify]
  by_cases hau : a = u
  · by_cases hav : a = v
    · simp [← hav, ← hau, hau ▸ hnode, or_comm]
    · rw [if_neg hav, if_pos hau, hau, hnode]
      simp [or_comm]
  · rw [if_neg hau]
    by_cases hav : a = v
    · rw [if_pos hav]
      cases g.mUserVector.find? a with
      | none => simp [hau]
      | some n => simp [hau]
    · rw [if_neg hav]
      simp [hau]

theorem keys_withEdge (g : MyUserGraph) (u v : UserId) :
    (g.withEdge u v).mUserVector.keys = g.mUserVector.keys := by
  simp [withEdge]

/-! ### The search returns -/

/-- **The search** returns on a graph with a topological order, when it may be nested as deep
as the position of its root. -/
theorem exists_dfs {R : UserId → UserId → Prop} {ks : List UserId} {fuel : ℕ}
    (hks : IsTopological R ks) (hnode : ∀ a ∈ ks, a ∈ g.mUserVector.keys)
    (hahead : ∀ a b, g.Ahead a b → a ∈ ks ∧ R a b) (hu : u ∈ ks) (hfuel : ks.idxOf u < fuel) :
    ∃ result, g.dfs fuel u = some result := by
  induction fuel generalizing u with
  | zero => exact absurd hfuel (Nat.not_lt_zero _)
  | succ fuel ih =>
    obtain ⟨node, hfind⟩ := KeyedVector.mem_keys_iff.mp (hnode u hu)
    -- the users directly ahead are at earlier positions
    have hsome : ∀ v ∈ node.mIn, ∃ result, g.dfs fuel v = some result := by
      intro v hv
      obtain ⟨hvks, hvu⟩ := hahead v u ⟨node, hfind, hv⟩
      have hlt := hks.idxOf_lt hvks hvu
      exact ih hvks (by omega)
    obtain ⟨results, hresults⟩ := exists_map_eq_map_some hsome
    exact ⟨_, dfs_succ_eq_some_iff.mpr ⟨node, results, hfind, hresults, rfl⟩⟩

theorem exists_getPriorUsers {R : UserId → UserId → Prop} {ks : List UserId}
    (hks : IsTopological R ks) (hnode : ∀ a, a ∈ ks ↔ a ∈ g.mUserVector.keys)
    (hahead : ∀ a b, g.Ahead a b → a ∈ ks ∧ R a b) (hu : u ∈ g.mUserVector.keys) :
    ∃ result, g.getPriorUsers u = some result := by
  have hperm : ks.Perm g.mUserVector.keys :=
    (List.perm_ext_iff_of_nodup hks.nodup g.mUserVector.nodup_keys).mpr hnode
  have hlt := List.idxOf_lt_length_of_mem ((hnode u).mpr hu)
  refine exists_dfs hks (fun a => (hnode a).mp) hahead ((hnode u).mpr hu) ?_
  rw [← KeyedVector.length_keys, ← hperm.length_eq]
  exact hlt

end MyUserGraph

/-! ### Setting up the users -/

namespace UsersManager

variable {m : UsersManager} {g : MyUserGraph} {u v : UserId}

theorem exists_graph_addUser (hm : m.mUserGroupGraph = [g]) (usr : User) :
    ∃ g', (m.addUser 0 usr).1.mUserGroupGraph = [g'] ∧
      (∀ a b, g'.Ahead a b ↔ g.Ahead a b) ∧ ∀ a b, g'.Behind a b ↔ g.Behind a b := by
  have hget : m.mUserGroupGraph[0]? = some g := by simp [hm]
  rw [addUser]
  simp only [hget]
  cases hfind : g.mUserVector.find? usr.mUserId with
  | some node => exact ⟨g, hm, fun _ _ => .rfl, fun _ _ => .rfl⟩
  | none =>
    have hnew := KeyedVector.find?_eq_none_iff.mp hfind
    refine ⟨g.withUser usr.mUserId m.heap.length, by simp [editGraph, hm]; rfl, fun a b => ?_,
      fun a b => ?_⟩
    · exact MyUserGraph.ahead_withUser hnew
    · exact MyUserGraph.behind_withUser hnew

theorem exists_graph_addUsers (mk : UserId → User) (us : List UserId)
    (hm : m.mUserGroupGraph = [g]) :
    ∃ g', (us.foldl (fun m u => (m.addUser 0 (mk u)).1) m).mUserGroupGraph = [g'] ∧
      (∀ a b, g'.Ahead a b ↔ g.Ahead a b) ∧ ∀ a b, g'.Behind a b ↔ g.Behind a b := by
  induction us generalizing m g with
  | nil => exact ⟨g, hm, fun _ _ => .rfl, fun _ _ => .rfl⟩
  | cons u us ih =>
    obtain ⟨g₁, hm₁, hahead₁, hbehind₁⟩ := exists_graph_addUser hm (mk u)
    obtain ⟨g', hm', hahead, hbehind⟩ := ih hm₁
    exact ⟨g', hm', fun a b => (hahead a b).trans (hahead₁ a b),
      fun a b => (hbehind a b).trans (hbehind₁ a b)⟩

theorem exists_graph_addEdge (hm : m.mUserGroupGraph = [g]) (hmirror : g.Mirrored)
    (u v : UserId) :
    ∃ g', (m.addEdge 0 u v).1.mUserGroupGraph = [g'] ∧ g'.Mirrored ∧
      g'.mUserVector.keys = g.mUserVector.keys ∧
      ∀ a b, g'.Ahead a b ↔ g.Ahead a b ∨
        (a = u ∧ b = v) ∧ u ∈ g.mUserVector.keys ∧ v ∈ g.mUserVector.keys := by
  have hget : m.mUserGroupGraph[0]? = some g := by simp [hm]
  rw [addEdge]
  simp only [hget]
  cases hsrc : g.mUserVector.find? u with
  | none =>
    have hu := KeyedVector.find?_eq_none_iff.mp hsrc
    exact ⟨g, hm, hmirror, rfl, fun a b => by simp [hu]⟩
  | some src =>
    have hu := KeyedVector.mem_keys_of_find? hsrc
    cases hdst : g.mUserVector.find? v with
    | none =>
      have hv := KeyedVector.find?_eq_none_iff.mp hdst
      exact ⟨g, hm, hmirror, rfl, fun a b => by simp [hv]⟩
    | some dst =>
      have hv := KeyedVector.mem_keys_of_find? hdst
      simp only
      split
      · refine ⟨g.withEdge u v, by simp [editGraph, hm]; rfl, fun a b => ?_,
          g.keys_withEdge u v, fun a b => ?_⟩
        · rw [MyUserGraph.ahead_withEdge hv, MyUserGraph.behind_withEdge hu, hmirror a b]
        · rw [MyUserGraph.ahead_withEdge hv]
          simp [hu, hv]
      · rename_i hthere
        -- the edge is there on one side, and so on both
        have hedge : g.Ahead u v := by
          by_cases hout : v ∈ src.mOut
          · exact (hmirror u v).mp ⟨src, hsrc, hout⟩
          · exact ⟨dst, hdst, not_not.mp fun hin => hthere ⟨hout, hin⟩⟩
        refine ⟨g, hm, hmirror, rfl, fun a b => ?_⟩
        constructor
        · exact .inl
        · rintro (h | ⟨⟨rfl, rfl⟩, -⟩)
          · exact h
          · exact hedge

theorem exists_graph_addEdges (es : List (UserId × UserId)) (hm : m.mUserGroupGraph = [g])
    (hmirror : g.Mirrored) :
    ∃ g', (es.foldl (fun m e => (m.addEdge 0 e.1 e.2).1) m).mUserGroupGraph = [g'] ∧
      g'.Mirrored ∧
      ∀ a b, g'.Ahead a b ↔ g.Ahead a b ∨
        (a, b) ∈ es ∧ a ∈ g.mUserVector.keys ∧ b ∈ g.mUserVector.keys := by
  induction es generalizing m g with
  | nil => exact ⟨g, hm, hmirror, fun a b => by simp⟩
  | cons e es ih =>
    obtain ⟨g₁, hm₁, hmirror₁, hkeys₁, hahead₁⟩ := exists_graph_addEdge hm hmirror e.1 e.2
    obtain ⟨g', hm', hmirror', hahead⟩ := ih hm₁ hmirror₁
    refine ⟨g', hm', hmirror', fun a b => ?_⟩
    have he : (a, b) = e ↔ a = e.1 ∧ b = e.2 := by
      rw [Prod.ext_iff]
    rw [hahead, hahead₁, hkeys₁, List.mem_cons, he, or_and_right, or_assoc]
    refine or_congr_right (or_congr_left (and_congr_right fun hab => ?_))
    rw [hab.1, hab.2]

/-- User `u` **waits for** `v`: the search for the users ahead of `u` finds `v`, which is
another user and uses the buffer. -/
def WaitsFor (m : UsersManager) (u v : UserId) : Prop :=
  ∃ p usr g result q w, m.queryUser_ u = some (p, usr) ∧ usr.mGroupIndex = 0 ∧
    m.mUserGroupGraph[0]? = some g ∧ g.getPriorUsers u = some result ∧ q ∈ result ∧
    m.heap[q]? = some w ∧ w.mUserId = v ∧ v ≠ u ∧ w.mCategory ≠ .none

end UsersManager

theorem FrameConfig.exists_graph_evaluateBufferUsers (cfg : FrameConfig) (i : ItemId) :
    ∃ g, (cfg.evaluateBufferUsers i).mUserGroupGraph = [g] ∧
      (∀ a, a ∈ g.mUserVector.keys ↔ a ∈ cfg.toposort) ∧ g.Mirrored ∧
      (∀ a b, g.Ahead a b ↔ (a, b) ∈ cfg.edges ∧ a ∈ cfg.toposort ∧ b ∈ cfg.toposort) ∧
      ∀ a node, g.mUserVector.find? a = some node →
        (cfg.evaluateBufferUsers i).heap[node.mMyUser]? =
          some (MyUser.ofUser (cfg.makeUser i a) 0) := by
  have hid : ∀ u, (cfg.makeUser i u).mUserId = u := fun _ => rfl
  have hstart := UsersManager.setup_new (cfg.makeUser i)
  obtain ⟨g₁, h₁, hkeys₁⟩ := hstart.addUsers hid cfg.toposort
  obtain ⟨g₂, h₂, hkeys₂⟩ := h₁.addEdges cfg.edges
  obtain ⟨g₁', hm₁, hahead₁, hbehind₁⟩ :=
    UsersManager.exists_graph_addUsers (cfg.makeUser i) cfg.toposort hstart.graph
  obtain rfl : g₁ = g₁' := List.singleton_inj.mp (h₁.graph.symm.trans hm₁)
  have hmirror₁ : g₁.Mirrored := fun a b => by
    rw [hahead₁, hbehind₁]
    simp [MyUserGraph.Ahead, MyUserGraph.Behind]
  obtain ⟨g₂', hm₂, hmirror₂, hahead₂⟩ :=
    UsersManager.exists_graph_addEdges cfg.edges h₁.graph hmirror₁
  obtain rfl : g₂ = g₂' := List.singleton_inj.mp (h₂.graph.symm.trans hm₂)
  have hmem : ∀ a, a ∈ g₁.mUserVector.keys ↔ a ∈ cfg.toposort := fun a => by
    rw [hkeys₁]
    simp
  have henq := h₂.enqueueGraph hid
  obtain ⟨usage, hgraph⟩ := henq.graph
  refine ⟨{ g₂ with mConsumerUsage := usage }, hgraph, fun a => (hkeys₂ a).trans (hmem a),
    hmirror₂, fun a b => ?_, fun a node hnode => ?_⟩
  · have hnone : ¬ g₁.Ahead a b := by
      rw [hahead₁]
      simp [MyUserGraph.Ahead]
    change g₂.Ahead a b ↔ _
    rw [hahead₂, or_iff_right hnone, hmem, hmem]
  · exact henq.heap_eq ▸ h₂.user a node hnode

def RequestIOMaps.Uses (io : RequestIOMaps) (i : ItemId) (a : NodeId) : Prop :=
  i.2 ∈ io.outStreams i.1 a ∨ i.2 ∈ io.inStreams i.1 a

instance (io : RequestIOMaps) (i : ItemId) (a : NodeId) : Decidable (io.Uses i a) :=
  inferInstanceAs (Decidable (_ ∨ _))

def requestUsers (dag : PipelineDAG) (io : RequestIOMaps)
    (queryMinimalUsage : NodeId → StreamId → BitVec 32)
    (buffers : MapKind → List (StreamId × Option ℕ)) (i : ItemId) : UsersManager :=
  (FrameConfig.ofRequest dag io queryMinimalUsage buffers).evaluateBufferUsers i

/-- A user graph is **that of a request**: it has the nodes and the edges of the request graph,
and the category of a node is what the node does with the stream. -/
structure MyUserGraph.OfRequest (g : MyUserGraph) (heap : List MyUser) (dag : PipelineDAG)
    (io : RequestIOMaps) (i : ItemId) : Prop where
  mem_keys : ∀ a, a ∈ g.mUserVector.keys ↔ a ∈ dag.mNodesVec.keys
  behind : ∀ a b, g.Behind a b ↔ dag.mNodesVec.HasEdge a b
  ahead : ∀ a b, g.Ahead a b ↔ dag.mNodesVec.HasEdge a b
  user : ∀ a node, g.mUserVector.find? a = some node → ∃ usr,
    heap[node.mMyUser]? = some usr ∧ usr.mUserId = a ∧ usr.mGroupIndex = 0 ∧
      usr.mCategory =
        if i.2 ∈ io.outStreams i.1 a then .producer
        else if i.2 ∈ io.inStreams i.1 a then .consumer else .none

section

variable {pConfigDAG dag : PipelineDAG} {rootNodes : List NodeId} {edges : List Edge}
  {u v : NodeId} (io : RequestIOMaps) (queryMinimalUsage : NodeId → StreamId → BitVec 32)
  (buffers : MapKind → List (StreamId × Option ℕ)) (i : ItemId)

theorem RequestGraph.exists_userGraph (h : RequestGraph pConfigDAG rootNodes edges dag) :
    ∃ g, (requestUsers dag io queryMinimalUsage buffers i).mUserGroupGraph = [g] ∧
      g.OfRequest (requestUsers dag io queryMinimalUsage buffers i).heap dag io i := by
  obtain ⟨g, hgraph, hkeys, hmirror, hahead, huser⟩ :=
    (FrameConfig.ofRequest dag io queryMinimalUsage buffers).exists_graph_evaluateBufferUsers i
  have hmem := h.mem_mToposort
  have hedge : ∀ a b, g.Ahead a b ↔ dag.mNodesVec.HasEdge a b := by
    intro a b
    have hpair : (a, b) ∈ (FrameConfig.ofRequest dag io queryMinimalUsage buffers).edges ↔
        dag.mNodesVec.HasEdge a b := by
      rw [← mem_getEdges h.coherent.ids, FrameConfig.ofRequest, List.mem_map]
      constructor
      · rintro ⟨e, he, heq⟩
        cases heq
        exact he
      · exact fun he => ⟨_, he, rfl⟩
    rw [hahead, hpair]
    refine and_iff_left_of_imp fun hab => ⟨(hmem a).mpr ?_, (hmem b).mpr ?_⟩
    · exact NodeMap.mem_keys_of_mem_outOf hab
    · exact h.coherent.adjacent.mem_keys_of_out hab
  refine ⟨g, hgraph, fun a => (hkeys a).trans (hmem a),
    fun a b => (hmirror a b).trans (hedge a b), hedge, fun a node hnode => ?_⟩
  refine ⟨_, huser a node hnode, rfl, rfl, ?_⟩
  have ha := (hkeys a).mp (KeyedVector.mem_keys_of_find? hnode)
  exact FrameConfig.refineUser_ofRequest io queryMinimalUsage buffers i ha

theorem RequestGraph.hasRole_iff (h : RequestGraph pConfigDAG rootNodes edges dag)
    (hu : u ∈ dag.mNodesVec.keys) :
    (requestUsers dag io queryMinimalUsage buffers i).HasRole u ↔ io.Uses i u := by
  have hrefine := FrameConfig.refineUser_ofRequest io queryMinimalUsage buffers i
    ((h.mem_mToposort u).mpr hu)
  rw [UsersManager.HasRole, requestUsers, FrameConfig.mem_producers_iff,
    FrameConfig.mem_consumers_iff, hrefine, RequestIOMaps.Uses]
  by_cases hout : i.2 ∈ io.outStreams i.1 u
  · simp [hout]
  · by_cases hin : i.2 ∈ io.inStreams i.1 u <;> simp [hout, hin]

/-- **The order of the users** of an item of a request. -/
theorem RequestGraph.waitsFor_iff (h : RequestGraph pConfigDAG rootNodes edges dag)
    (hu : u ∈ dag.mNodesVec.keys) (hv : v ∈ dag.mNodesVec.keys) (huse : io.Uses i u)
    (hvuse : io.Uses i v) :
    (requestUsers dag io queryMinimalUsage buffers i).WaitsFor u v ↔
      TransGen dag.mNodesVec.HasEdge v u := by
  obtain ⟨g, hgraph, hg⟩ := h.exists_userGraph io queryMinimalUsage buffers i
  obtain ⟨ks, horder, hks⟩ := h.exists_topological
  have hahead : g.Ahead = dag.mNodesVec.HasEdge := by
    funext a b
    exact propext (hg.ahead a b)
  have hget : (requestUsers dag io queryMinimalUsage buffers i).mUserGroupGraph[0]? = some g := by
    rw [hgraph]
    rfl
  constructor
  · rintro ⟨p, usr, g', result, q, w, -, -, hg', hresult, hq, hw, rfl, hne, -⟩
    obtain rfl : g = g' := Option.some_inj.mp (hget.symm.trans hg')
    obtain ⟨a, node, hreach, hnode, rfl⟩ := (MyUserGraph.mem_dfs_iff hresult).mp hq
    obtain ⟨w', hw', hid, -⟩ := hg.user a node hnode
    obtain rfl : w = w' := Option.some_inj.mp (hw.symm.trans hw')
    rw [hahead] at hreach
    rw [hid] at hne ⊢
    exact (Relation.reflTransGen_iff_eq_or_transGen.mp hreach).resolve_left (Ne.symm hne)
  · intro hpath
    obtain ⟨result, hresult⟩ := MyUserGraph.exists_getPriorUsers horder
      (fun a => (hks a).trans (hg.mem_keys a).symm)
      (fun a b hab => ⟨(hks a).mpr (NodeMap.mem_keys_of_mem_outOf ((hg.ahead a b).mp hab)),
        (hg.ahead a b).mp hab⟩) ((hg.mem_keys u).mpr hu)
    obtain ⟨node, hnode⟩ := KeyedVector.mem_keys_iff.mp ((hg.mem_keys v).mpr hv)
    obtain ⟨w, hw, hid, -, hcat⟩ := hg.user v node hnode
    have hcoh : (requestUsers dag io queryMinimalUsage buffers i).Coherent :=
      FrameConfig.coherent_evaluateBufferUsers _ i
    obtain ⟨p, hp⟩ := UsersManager.hasRole_iff.mp
      ((h.hasRole_iff io queryMinimalUsage buffers i hu).mpr huse)
    obtain ⟨usr, husr, -, hgroup⟩ := hcoh.exists_user hp
    refine ⟨p, usr, g, result, node.mMyUser, w, hcoh.queryUser_eq_some_iff.mpr ⟨hp, husr⟩,
      hgroup, hget, hresult, (MyUserGraph.mem_dfs_iff hresult).mpr ⟨v, node, ?_, hnode, rfl⟩, hw,
      hid, ?_, ?_⟩
    · rw [hahead]
      exact hpath.to_reflTransGen
    · rintro rfl
      exact horder.acyclic ((hks v).mpr hv) hpath
    · rw [hcat]
      rcases hvuse with hout | hin
      · simp [hout]
      · by_cases hout : i.2 ∈ io.outStreams i.1 v <;> simp [hout, hin]

/-- **The user graphs of a request.** For every request graph that is accepted for a configured
pipeline, every input and output streams of its nodes and every item: the users of the item
are set up as the graph of the request, with the category of every node given by what it does
with the stream; and of two nodes that use the stream, one waits for the other exactly when
there is a path to it from the other in the request graph, whatever nodes are on the path. -/
theorem evaluateBufferUsers_ofRequest {pNodeConfig : NodeConfig} {pBuilder : PipelineBuilder}
    {pNodeMap : PipelineNodeMapControl}
    (hconfig : configure pNodeConfig pBuilder = some (.ok (pConfigDAG, pNodeMap)))
    (hreq : constructDAG pConfigDAG rootNodes edges = some dag) :
    (∃ g, (requestUsers dag io queryMinimalUsage buffers i).mUserGroupGraph = [g] ∧
      g.OfRequest (requestUsers dag io queryMinimalUsage buffers i).heap dag io i) ∧
    ∀ u ∈ dag.mNodesVec.keys, ∀ v ∈ dag.mNodesVec.keys, io.Uses i u → io.Uses i v →
      ((requestUsers dag io queryMinimalUsage buffers i).WaitsFor u v ↔
        TransGen dag.mNodesVec.HasEdge v u) := by
  have h := (requestGraph_of_constructDAG hconfig hreq).2
  exact ⟨h.exists_userGraph io queryMinimalUsage buffers i, fun u hu v hv huse hvuse =>
    h.waitsFor_iff io queryMinimalUsage buffers i hu hv huse hvuse⟩

/-- Of the chain `1 → 2 → 3`, node 1 puts out a stream that node 3 takes in. -/
def chainIO : RequestIOMaps where
  mImageNodeIOMaps n := if n = 1 then [⟨[], [7]⟩] else if n = 3 then [⟨[7], []⟩] else []
  mMetaNodeIOMaps _ := []

/-- Node 3 waits for node 1, though node 2 between them does not use the stream. -/
theorem waitsFor_chain :
    ∃ pConfigDAG pNodeMap dag,
      configure (twoNodes.addNode ⟨3, .create, .create⟩) ⟨[1], [⟨1, 2⟩, ⟨2, 3⟩]⟩ =
        some (.ok (pConfigDAG, pNodeMap)) ∧
      constructDAG pConfigDAG [1] [⟨1, 2⟩, ⟨2, 3⟩] = some dag ∧
      ¬ chainIO.Uses (.halImage, 7) 2 ∧
      (requestUsers dag chainIO (fun _ _ => 0) (fun _ => []) (.halImage, 7)).WaitsFor 3 1 := by
  have hsome : (requestOf (twoNodes.addNode ⟨3, .create, .create⟩) ⟨[1], [⟨1, 2⟩, ⟨2, 3⟩]⟩ [1]
      [⟨1, 2⟩, ⟨2, 3⟩]).any (fun r => (1 ∈ r.2.mNodesVec.keys ∧ 3 ∈ r.2.mNodesVec.keys) ∧
        r.2.mNodesVec.HasEdge 1 2 ∧ r.2.mNodesVec.HasEdge 2 3) = true := by
    decide
  obtain ⟨pConfigDAG, pNodeMap, dag, hconfig, hdag, ⟨h1, h3⟩, h12, h23⟩ :=
    exists_of_requestOf hsome
  refine ⟨pConfigDAG, pNodeMap, dag, hconfig, hdag, by decide, ?_⟩
  exact ((evaluateBufferUsers_ofRequest chainIO (fun _ _ => 0) (fun _ => []) (.halImage, 7)
    hconfig hdag).2 3 h3 1 h1 (by decide) (by decide)).mpr (.tail (.single h12) h23)

end

end MtkHardware.Pipeline
