import MtkHardware.Pipeline.PipelineDAG

/-!
# Adjacency in the Pipeline Graph

The two sets of a node are mirrored in the sets of its adjacent nodes: `b` is behind `a`
exactly when `a` is ahead of `b`. Every operation on the graph is described by what it does
to three views of the node map: the object of a node, the nodes behind it, and the nodes
ahead of it.
-/

namespace MtkHardware.Pipeline

/-! ### Views of a node map -/

namespace NodeMap

variable {nodes : NodeMap} {a b c k : NodeId} {f : NodeWithAdj → NodeWithAdj}

def nodeOf (nodes : NodeMap) (a : NodeId) : Option NodeObj :=
  (nodes.find? a).map NodeWithAdj.mNode

def outOf (nodes : NodeMap) (a : NodeId) : NodeIdSet :=
  ((nodes.find? a).map NodeWithAdj.mOutAdj).getD .empty

def inOf (nodes : NodeMap) (a : NodeId) : NodeIdSet :=
  ((nodes.find? a).map NodeWithAdj.mInAdj).getD .empty

theorem mem_keys_iff_nodeOf : a ∈ nodes.keys ↔ ∃ x, nodeOf nodes a = some x := by
  rw [KeyedVector.mem_keys_iff]
  constructor
  · rintro ⟨node, hnode⟩
    exact ⟨node.mNode, by rw [nodeOf, hnode]; rfl⟩
  · rintro ⟨x, hx⟩
    obtain ⟨node, hnode, -⟩ := Option.map_eq_some_iff.mp hx
    exact ⟨node, hnode⟩

theorem mem_keys_of_mem_outOf (h : b ∈ outOf nodes a) : a ∈ nodes.keys := by
  rw [outOf] at h
  cases hfind : nodes.find? a with
  | none => simp [hfind] at h
  | some node => exact KeyedVector.mem_keys_of_find? hfind

theorem outOf_of_find? {node : NodeWithAdj} (h : nodes.find? a = some node) :
    outOf nodes a = node.mOutAdj := by
  rw [outOf, h]
  rfl

theorem inOf_of_find? {node : NodeWithAdj} (h : nodes.find? a = some node) :
    inOf nodes a = node.mInAdj := by
  rw [inOf, h]
  rfl

/-! ### Views after an edit -/

theorem nodeOf_modify (hf : ∀ node, (f node).mNode = node.mNode) :
    nodeOf (nodes.modify k f) a = nodeOf nodes a := by
  rw [nodeOf, nodeOf, KeyedVector.find?_modify]
  split
  · rw [Option.map_map]
    exact Option.map_congr fun node _ => hf node
  · rfl

theorem outOf_modify (hf : ∀ node, (f node).mOutAdj = node.mOutAdj) :
    outOf (nodes.modify k f) a = outOf nodes a := by
  rw [outOf, outOf, KeyedVector.find?_modify]
  split
  · rw [Option.map_map]
    exact congrArg (·.getD .empty) (Option.map_congr fun node _ => hf node)
  · rfl

theorem inOf_modify (hf : ∀ node, (f node).mInAdj = node.mInAdj) :
    inOf (nodes.modify k f) a = inOf nodes a := by
  rw [inOf, inOf, KeyedVector.find?_modify]
  split
  · rw [Option.map_map]
    exact congrArg (·.getD .empty) (Option.map_congr fun node _ => hf node)
  · rfl

@[simp] theorem nodeOf_addIn : nodeOf (nodes.modify k (.addIn c)) a = nodeOf nodes a :=
  nodeOf_modify fun _ => rfl

@[simp] theorem nodeOf_addOut : nodeOf (nodes.modify k (.addOut c)) a = nodeOf nodes a :=
  nodeOf_modify fun _ => rfl

@[simp] theorem nodeOf_removeIn : nodeOf (nodes.modify k (.removeIn c)) a = nodeOf nodes a :=
  nodeOf_modify fun _ => rfl

@[simp] theorem nodeOf_removeOut : nodeOf (nodes.modify k (.removeOut c)) a = nodeOf nodes a :=
  nodeOf_modify fun _ => rfl

@[simp] theorem outOf_addIn : outOf (nodes.modify k (.addIn c)) a = outOf nodes a :=
  outOf_modify fun _ => rfl

@[simp] theorem outOf_removeIn : outOf (nodes.modify k (.removeIn c)) a = outOf nodes a :=
  outOf_modify fun _ => rfl

@[simp] theorem inOf_addOut : inOf (nodes.modify k (.addOut c)) a = inOf nodes a :=
  inOf_modify fun _ => rfl

@[simp] theorem inOf_removeOut : inOf (nodes.modify k (.removeOut c)) a = inOf nodes a :=
  inOf_modify fun _ => rfl

theorem mem_outOf_removeOut :
    b ∈ outOf (nodes.modify k (.removeOut c)) a ↔ b ∈ outOf nodes a ∧ ¬ (a = k ∧ b = c) := by
  rw [outOf, outOf, KeyedVector.find?_modify]
  split
  · rename_i heq
    cases nodes.find? a with
    | none => simp
    | some node => simp [NodeWithAdj.removeOut, heq]
  · rename_i hne
    simp [hne]

theorem mem_inOf_removeIn :
    b ∈ inOf (nodes.modify k (.removeIn c)) a ↔ b ∈ inOf nodes a ∧ ¬ (a = k ∧ b = c) := by
  rw [inOf, inOf, KeyedVector.find?_modify]
  split
  · rename_i heq
    cases nodes.find? a with
    | none => simp
    | some node => simp [NodeWithAdj.removeIn, heq]
  · rename_i hne
    simp [hne]

theorem mem_outOf_addOut (hk : k ∈ nodes.keys) :
    b ∈ outOf (nodes.modify k (.addOut c)) a ↔ b ∈ outOf nodes a ∨ a = k ∧ b = c := by
  obtain ⟨node, hnode⟩ := KeyedVector.mem_keys_iff.mp hk
  rw [outOf, outOf, KeyedVector.find?_modify]
  split
  · rename_i heq
    simp [NodeWithAdj.addOut, heq, hnode, or_comm]
  · rename_i hne
    simp [hne]

theorem mem_inOf_addIn (hk : k ∈ nodes.keys) :
    b ∈ inOf (nodes.modify k (.addIn c)) a ↔ b ∈ inOf nodes a ∨ a = k ∧ b = c := by
  obtain ⟨node, hnode⟩ := KeyedVector.mem_keys_iff.mp hk
  rw [inOf, inOf, KeyedVector.find?_modify]
  split
  · rename_i heq
    simp [NodeWithAdj.addIn, heq, hnode, or_comm]
  · rename_i hne
    simp [hne]

end NodeMap

namespace PipelineDAG

open NodeMap

variable {dag dag' : PipelineDAG} {nodes nodes' : NodeMap} {a b id : NodeId} {val : NodeVal}
  {f : NodeWithAdj → NodeWithAdj} {ids ks : List NodeId} {err : MERROR}

theorem eq_of_editValues (h : editValues f ks nodes = some nodes') :
    nodes' = ks.foldl (fun nodes k => nodes.modify k f) nodes := by
  induction ks generalizing nodes with
  | nil =>
    cases h
    rfl
  | cons k ks ih =>
    rw [editValues] at h
    split at h
    · cases h
    · exact ih h

theorem editValues_eq (f : NodeWithAdj → NodeWithAdj) (h : ∀ k ∈ ks, k ∈ nodes.keys) :
    editValues f ks nodes = some (ks.foldl (fun nodes k => nodes.modify k f) nodes) := by
  induction ks generalizing nodes with
  | nil => rfl
  | cons k ks ih =>
    obtain ⟨node, hnode⟩ := KeyedVector.mem_keys_iff.mp (h k List.mem_cons_self)
    rw [editValues, hnode, List.foldl_cons]
    exact ih fun k' hk' => by simpa using h k' (List.mem_cons_of_mem _ hk')

theorem foldl_modify_eq {β : Type*} (view : NodeMap → β)
    (hview : ∀ nodes k, view (nodes.modify k f) = view nodes) (ks : List NodeId)
    (nodes : NodeMap) :
    view (ks.foldl (fun nodes k => nodes.modify k f) nodes) = view nodes := by
  induction ks generalizing nodes with
  | nil => rfl
  | cons k ks ih => rw [List.foldl_cons, ih, hview]

theorem mem_outOf_foldl_removeOut (ks : List NodeId) (nodes : NodeMap) :
    b ∈ outOf (ks.foldl (fun nodes k => nodes.modify k (.removeOut id)) nodes) a ↔
      b ∈ outOf nodes a ∧ ¬ (a ∈ ks ∧ b = id) := by
  induction ks generalizing nodes with
  | nil => simp
  | cons k ks ih =>
    rw [List.foldl_cons, ih, mem_outOf_removeOut, List.mem_cons]
    tauto

theorem mem_inOf_foldl_removeIn (ks : List NodeId) (nodes : NodeMap) :
    b ∈ inOf (ks.foldl (fun nodes k => nodes.modify k (.removeIn id)) nodes) a ↔
      b ∈ inOf nodes a ∧ ¬ (a ∈ ks ∧ b = id) := by
  induction ks generalizing nodes with
  | nil => simp
  | cons k ks ih =>
    rw [List.foldl_cons, ih, mem_inOf_removeIn, List.mem_cons]
    tauto

/-! ### Coherence -/

/-- The **adjacency invariant**: the sets mirror each other, the ends of every edge are nodes
of the graph, and so is the root, if there is one. -/
structure Adjacent (dag : PipelineDAG) : Prop where
  mirror : ∀ a b, b ∈ outOf dag.mNodesVec a ↔ a ∈ inOf dag.mNodesVec b
  ends : ∀ a b, b ∈ outOf dag.mNodesVec a ∨ a ∈ inOf dag.mNodesVec b →
    a ∈ dag.mNodesVec.keys ∧ b ∈ dag.mNodesVec.keys
  root : dag.mRootId = BAD_ID ∨ dag.mRootId ∈ dag.mNodesVec.keys

def IdsMatch (dag : PipelineDAG) : Prop :=
  ∀ a x, nodeOf dag.mNodesVec a = some x → x.id = a

/-- A graph is **coherent** when it meets the adjacency invariant and its nodes are at their
ids. -/
structure Coherent (dag : PipelineDAG) : Prop where
  adjacent : dag.Adjacent
  ids : dag.IdsMatch

theorem Adjacent.mem_keys_of_out (h : dag.Adjacent) (hab : b ∈ outOf dag.mNodesVec a) :
    b ∈ dag.mNodesVec.keys :=
  (h.ends a b (.inl hab)).2

theorem Adjacent.mem_keys_of_in (h : dag.Adjacent) (hab : a ∈ inOf dag.mNodesVec b) :
    a ∈ dag.mNodesVec.keys :=
  (h.ends a b (.inr hab)).1

theorem coherent_create : create.Coherent :=
  ⟨⟨fun a b => by simp [create, outOf, inOf], fun a b => by simp [create, outOf, inOf], .inl rfl⟩,
    fun a x => by simp [create, nodeOf]⟩

theorem Coherent.congr (h : dag.Coherent) (hroot : dag'.mRootId = dag.mRootId)
    (hnodes : dag'.mNodesVec = dag.mNodesVec) : dag'.Coherent := by
  obtain ⟨⟨hmirror, hends, hrootOk⟩, hids⟩ := h
  exact ⟨⟨hnodes ▸ hmirror, hnodes ▸ hends, by rw [hroot, hnodes]; exact hrootOk⟩,
    fun a x => by rw [hnodes]; exact hids a x⟩

/-! ### Nodes -/

theorem IdsMatch.addNode (h : dag.IdsMatch) (id : NodeId) (val : NodeVal) :
    (dag.addNode id val).1.IdsMatch := by
  intro a x hx
  rw [PipelineDAG.addNode, nodeOf, KeyedVector.find?_add] at hx
  split at hx
  · rename_i heq
    cases hx
    exact heq.symm
  · exact h a x hx

/-- **Adding a node** keeps the graph coherent exactly when no other node has an edge with a
node of that id. -/
theorem adjacent_addNode_iff (h : dag.Adjacent) (id : NodeId) (val : NodeVal) :
    (dag.addNode id val).1.Adjacent ↔
      ∀ k, k ∈ outOf dag.mNodesVec id ∨ k ∈ inOf dag.mNodesVec id → k = id := by
  have hout : ∀ a, outOf (dag.addNode id val).1.mNodesVec a =
      if a = id then .empty else outOf dag.mNodesVec a := fun a => by
    rw [outOf, outOf, PipelineDAG.addNode, KeyedVector.find?_add]
    split <;> rfl
  have hin : ∀ a, inOf (dag.addNode id val).1.mNodesVec a =
      if a = id then .empty else inOf dag.mNodesVec a := fun a => by
    rw [inOf, inOf, PipelineDAG.addNode, KeyedVector.find?_add]
    split <;> rfl
  constructor
  · intro h' k hk
    by_contra hne
    rcases hk with hk | hk
    · -- `id` stays ahead of `k`, but `k` is not behind `id` any more
      have hmem : id ∈ inOf (dag.addNode id val).1.mNodesVec k := by
        rw [hin, if_neg hne]
        exact (h.mirror id k).mp hk
      have hmem' := (h'.mirror id k).mpr hmem
      rw [hout, if_pos rfl] at hmem'
      exact SortedVector.not_mem_empty hmem'
    · have hmem : id ∈ outOf (dag.addNode id val).1.mNodesVec k := by
        rw [hout, if_neg hne]
        exact (h.mirror k id).mpr hk
      have hmem' := (h'.mirror k id).mp hmem
      rw [hin, if_pos rfl] at hmem'
      exact SortedVector.not_mem_empty hmem'
  · intro hcond
    have hmirror : ∀ a b, b ∈ outOf (dag.addNode id val).1.mNodesVec a ↔
        a ∈ inOf (dag.addNode id val).1.mNodesVec b := by
      intro a b
      rw [hout, hin]
      split
      · rename_i ha
        split
        · simp
        · rename_i hb
          refine iff_of_false SortedVector.not_mem_empty fun hmem => hb ?_
          exact hcond b (.inl (ha ▸ (h.mirror a b).mpr hmem))
      · rename_i ha
        split
        · rename_i hb
          refine iff_of_false (fun hmem => ha ?_) SortedVector.not_mem_empty
          exact hcond a (.inr (hb ▸ (h.mirror a b).mp hmem))
        · exact h.mirror a b
    have hkeys : ∀ a, a ∈ (dag.addNode id val).1.mNodesVec.keys ↔
        a = id ∨ a ∈ dag.mNodesVec.keys := fun a => KeyedVector.mem_keys_add
    refine ⟨hmirror, fun a b hab => ?_, ?_⟩
    · rw [← hmirror a b, or_self, hout] at hab
      split at hab
      · exact absurd hab SortedVector.not_mem_empty
      · obtain ⟨ha, hb⟩ := h.ends a b (.inl hab)
        exact ⟨(hkeys a).mpr (.inr ha), (hkeys b).mpr (.inr hb)⟩
    · exact h.root.imp_right fun hroot => (hkeys _).mpr (.inr hroot)

theorem coherent_addNode (h : dag.Coherent) (val : NodeVal)
    (hid : ∀ k, k ∈ outOf dag.mNodesVec id ∨ k ∈ inOf dag.mNodesVec id → k = id) :
    (dag.addNode id val).1.Coherent :=
  ⟨(adjacent_addNode_iff h.adjacent id val).mpr hid, h.ids.addNode id val⟩

theorem coherent_setRootNode (h : dag.Coherent) (id : NodeId) :
    (dag.setRootNode id).1.Coherent := by
  rw [setRootNode]
  split
  · exact h
  · rename_i node hnode
    exact ⟨⟨h.adjacent.mirror, h.adjacent.ends, .inr (KeyedVector.mem_keys_of_find? hnode)⟩,
      h.ids⟩

theorem IdsMatch.setNodeValue (h : dag.IdsMatch) (id : NodeId) (val : NodeVal) :
    (dag.setNodeValue id val).1.IdsMatch := by
  rw [PipelineDAG.setNodeValue]
  split
  · exact h
  · intro a x hx
    rw [nodeOf, KeyedVector.find?_modify] at hx
    split at hx
    · rw [Option.map_map] at hx
      obtain ⟨node, hnode, rfl⟩ := Option.map_eq_some_iff.mp hx
      exact h a node.mNode (by rw [nodeOf, hnode]; rfl)
    · exact h a x hx

theorem coherent_setNodeValue (h : dag.Coherent) (id : NodeId) (val : NodeVal) :
    (dag.setNodeValue id val).1.Coherent := by
  refine ⟨?_, h.ids.setNodeValue id val⟩
  rw [setNodeValue]
  split
  · exact h.adjacent
  · have hout : ∀ a, outOf (dag.mNodesVec.modify id (.setValue val)) a = outOf dag.mNodesVec a :=
      fun a => outOf_modify fun _ => rfl
    have hin : ∀ a, inOf (dag.mNodesVec.modify id (.setValue val)) a = inOf dag.mNodesVec a :=
      fun a => inOf_modify fun _ => rfl
    refine ⟨fun a b => ?_, fun a b => ?_, ?_⟩
    · rw [hout, hin]
      exact h.adjacent.mirror a b
    · simp only [hout, hin, KeyedVector.keys_modify]
      exact h.adjacent.ends a b
    · simpa using h.adjacent.root

/-! ### Edges -/

/-- **Adding an edge** between nodes: it is among the edges afterwards, and no other is
new. -/
theorem addEdge_spec (ha : a ∈ dag.mNodesVec.keys)
    (hb : b ∈ dag.mNodesVec.keys) :
    (dag.addEdge a b).2 = .ok ∧ (dag.addEdge a b).1.mRootId = dag.mRootId ∧
      (dag.addEdge a b).1.mNodesVec.keys = dag.mNodesVec.keys ∧
      (∀ c d, d ∈ outOf (dag.addEdge a b).1.mNodesVec c ↔
        d ∈ outOf dag.mNodesVec c ∨ c = a ∧ d = b) ∧
      ∀ c d, c ∈ inOf (dag.addEdge a b).1.mNodesVec d ↔
        c ∈ inOf dag.mNodesVec d ∨ c = a ∧ d = b := by
  obtain ⟨src, hsrc⟩ := KeyedVector.mem_keys_iff.mp ha
  obtain ⟨dst, hdst⟩ := KeyedVector.mem_keys_iff.mp hb
  have hout := outOf_of_find? hsrc
  have hin := inOf_of_find? hdst
  rw [addEdge]
  simp only [hsrc, hdst]
  split
  · refine ⟨rfl, rfl, by simp, fun c d => ?_, fun c d => ?_⟩
    · rw [outOf_addIn, mem_outOf_addOut ha]
    · rw [mem_inOf_addIn (by simpa using hb), inOf_addOut, and_comm (a := d = b)]
  · rename_i hold
    rw [not_or, not_not, not_not] at hold
    refine ⟨rfl, rfl, rfl, fun c d => ?_, fun c d => ?_⟩
    · refine ⟨.inl, fun hd => hd.elim (fun hd => hd) ?_⟩
      rintro ⟨rfl, rfl⟩
      exact hout ▸ hold.1
    · refine ⟨.inl, fun hd => hd.elim (fun hd => hd) ?_⟩
      rintro ⟨rfl, rfl⟩
      exact hin ▸ hold.2

theorem nodeOf_addEdge (dag : PipelineDAG) (a b c : NodeId) :
    nodeOf (dag.addEdge a b).1.mNodesVec c = nodeOf dag.mNodesVec c := by
  rw [addEdge]
  split
  · split
    · rw [nodeOf_addIn, nodeOf_addOut]
    · rfl
  · rfl

theorem addEdge_keeps (dag : PipelineDAG) (a b : NodeId) :
    (dag.addEdge a b).1.mRootId = dag.mRootId ∧
      (dag.addEdge a b).1.mToposort = dag.mToposort := by
  rw [addEdge]
  split
  · split <;> exact ⟨rfl, rfl⟩
  · exact ⟨rfl, rfl⟩

theorem nodeOf_removeEdge (dag : PipelineDAG) (a b c : NodeId) :
    nodeOf (dag.removeEdge a b).1.mNodesVec c = nodeOf dag.mNodesVec c := by
  rw [removeEdge]
  split
  · split
    · rfl
    · rw [nodeOf_removeIn, nodeOf_removeOut]
  · rfl

theorem addEdge_of_not_mem (h : ¬ (a ∈ dag.mNodesVec.keys ∧ b ∈ dag.mNodesVec.keys)) :
    dag.addEdge a b = (dag, .nameNotFound) := by
  rw [addEdge]
  cases hsrc : dag.mNodesVec.find? a with
  | none => rfl
  | some src =>
    cases hdst : dag.mNodesVec.find? b with
    | none => rfl
    | some dst =>
      exact absurd ⟨KeyedVector.mem_keys_of_find? hsrc, KeyedVector.mem_keys_of_find? hdst⟩ h

theorem coherent_addEdge (h : dag.Coherent) (a b : NodeId) : (dag.addEdge a b).1.Coherent := by
  by_cases hab : a ∈ dag.mNodesVec.keys ∧ b ∈ dag.mNodesVec.keys
  · obtain ⟨-, hroot, hkeys, hout, hin⟩ := addEdge_spec hab.1 hab.2
    refine ⟨⟨fun c d => ?_, fun c d hcd => ?_, ?_⟩,
      fun c x hx => h.ids c x (nodeOf_addEdge dag a b c ▸ hx)⟩
    · rw [hout, hin, h.adjacent.mirror]
    · rw [hout, hin] at hcd
      rw [hkeys]
      rcases hcd with (hcd | ⟨rfl, rfl⟩) | (hcd | ⟨rfl, rfl⟩)
      · exact h.adjacent.ends c d (.inl hcd)
      · exact hab
      · exact h.adjacent.ends c d (.inr hcd)
      · exact hab
    · rw [hroot, hkeys]
      exact h.adjacent.root
  · rw [addEdge_of_not_mem hab]
    exact h

theorem coherent_removeEdge (h : dag.Coherent) (a b : NodeId) :
    (dag.removeEdge a b).1.Coherent := by
  refine ⟨?_, fun c x hx => h.ids c x (nodeOf_removeEdge dag a b c ▸ hx)⟩
  rw [removeEdge]
  split
  · split
    · exact h.adjacent
    · dsimp only
      set nodes := (dag.mNodesVec.modify a (.removeOut b)).modify b (.removeIn a) with hnodes
      have hout : ∀ c d, d ∈ outOf nodes c ↔ d ∈ outOf dag.mNodesVec c ∧ ¬ (c = a ∧ d = b) :=
        fun c d => by rw [hnodes, outOf_removeIn, mem_outOf_removeOut]
      have hin : ∀ c d, c ∈ inOf nodes d ↔ c ∈ inOf dag.mNodesVec d ∧ ¬ (c = a ∧ d = b) :=
        fun c d => by rw [hnodes, mem_inOf_removeIn, inOf_removeOut, and_comm (a := d = b)]
      have hkeys : nodes.keys = dag.mNodesVec.keys := by simp [hnodes]
      refine ⟨fun c d => ?_, fun c d hcd => ?_, ?_⟩
      · rw [hout, hin, h.adjacent.mirror]
      · rw [hkeys]
        exact h.adjacent.ends c d
          (hcd.imp (fun hcd => ((hout c d).mp hcd).1) fun hcd => ((hin c d).mp hcd).1)
      · simpa only [hkeys] using h.adjacent.root
  · exact h.adjacent

/-! ### Removal -/

/-- **Removing a node** takes the node and its edges out, and nothing else. -/
theorem removeNode_spec (h : dag.Adjacent) (hid : id ∈ dag.mNodesVec.keys) :
    ∃ nodes, dag.removeNode id =
        some ({ dag with
          mRootId := if id = dag.mRootId then BAD_ID else dag.mRootId
          mNodesVec := nodes }, .ok) ∧
      (∀ a, nodeOf nodes a = if a = id then none else nodeOf dag.mNodesVec a) ∧
      (∀ a b, b ∈ outOf nodes a ↔ b ∈ outOf dag.mNodesVec a ∧ a ≠ id ∧ b ≠ id) ∧
      ∀ a b, a ∈ inOf nodes b ↔ a ∈ inOf dag.mNodesVec b ∧ a ≠ id ∧ b ≠ id := by
  obtain ⟨node, hnode⟩ := KeyedVector.mem_keys_iff.mp hid
  have hinOf := inOf_of_find? hnode
  -- the nodes ahead
  set nodes₁ := node.mInAdj.items.foldl (fun nodes k => nodes.modify k (.removeOut id))
    dag.mNodesVec with hnodes₁
  have hkeys₁ : nodes₁.keys = dag.mNodesVec.keys :=
    foldl_modify_eq KeyedVector.keys (fun _ _ => KeyedVector.keys_modify _ _ _) _ _
  have hout₁ : ∀ a b, b ∈ outOf nodes₁ a ↔ b ∈ outOf dag.mNodesVec a ∧ b ≠ id := by
    intro a b
    rw [hnodes₁, mem_outOf_foldl_removeOut, SortedVector.mem_items, ← hinOf]
    refine and_congr_right fun hb => ⟨fun hnot heq => hnot ⟨?_, heq⟩, fun hne hand => hne hand.2⟩
    exact (h.mirror a id).mp (heq ▸ hb)
  have hin₁ : ∀ a, inOf nodes₁ a = inOf dag.mNodesVec a := fun a =>
    foldl_modify_eq (inOf · a) (fun _ _ => inOf_removeOut) _ _
  obtain ⟨node₁, hnode₁⟩ := KeyedVector.mem_keys_iff.mp (hkeys₁ ▸ hid : id ∈ nodes₁.keys)
  have houtOf := outOf_of_find? hnode₁
  -- the nodes behind
  set nodes₂ := node₁.mOutAdj.items.foldl (fun nodes k => nodes.modify k (.removeIn id)) nodes₁
    with hnodes₂
  have hin₂ : ∀ a b, b ≠ id → (a ∈ inOf nodes₂ b ↔ a ∈ inOf dag.mNodesVec b ∧ a ≠ id) := by
    intro a b hb
    rw [hnodes₂, mem_inOf_foldl_removeIn, hin₁, SortedVector.mem_items, ← houtOf]
    refine and_congr_right fun ha => ⟨fun hnot heq => hnot ⟨?_, heq⟩, fun hne hand => hne hand.2⟩
    exact (hout₁ id b).mpr ⟨(h.mirror id b).mpr (heq ▸ ha), hb⟩
  have hout₂ : ∀ a, outOf nodes₂ a = outOf nodes₁ a := fun a =>
    foldl_modify_eq (outOf · a) (fun _ _ => outOf_removeIn) _ _
  have hnodeOf : ∀ a, nodeOf nodes₂ a = nodeOf dag.mNodesVec a := fun a =>
    (foldl_modify_eq (nodeOf · a) (fun _ _ => nodeOf_removeIn) _ _).trans
      (foldl_modify_eq (nodeOf · a) (fun _ _ => nodeOf_removeOut) _ _)
  have hahead : ∀ k ∈ node.mInAdj.items, k ∈ dag.mNodesVec.keys := fun k hk =>
    h.mem_keys_of_in (b := id) (hinOf ▸ hk)
  have hbehind : ∀ k ∈ node₁.mOutAdj.items, k ∈ nodes₁.keys := fun k hk =>
    hkeys₁ ▸ h.mem_keys_of_out ((hout₁ id k).mp (houtOf ▸ hk)).1
  have hfirst := editValues_eq (.removeOut id) hahead
  have hsecond := editValues_eq (.removeIn id) hbehind
  refine ⟨nodes₂.remove id, ?_, fun a => ?_, fun a b => ?_, fun a b => ?_⟩
  · rw [removeNode]
    simp only [hnode, hfirst, ← hnodes₁, hnode₁, hsecond, ← hnodes₂]
  · rw [nodeOf, KeyedVector.find?_remove]
    split
    · rfl
    · exact hnodeOf a
  · rw [outOf, KeyedVector.find?_remove]
    split
    · rename_i heq
      simp [heq]
    · rename_i hne
      rw [← outOf, hout₂, hout₁]
      tauto
  · rw [inOf, KeyedVector.find?_remove]
    split
    · rename_i heq
      simp [heq]
    · rename_i hne
      rw [← inOf, hin₂ a b hne]
      tauto

theorem IdsMatch.removeNode (h : dag.IdsMatch) (heq : dag.removeNode id = some (dag', err)) :
    dag'.IdsMatch ∧ dag'.mToposort = dag.mToposort := by
  rw [PipelineDAG.removeNode] at heq
  split at heq
  · cases heq
    exact ⟨h, rfl⟩
  · dsimp only at heq
    split at heq
    · cases heq
    · rename_i nodes₁ hfirst
      split at heq
      · cases heq
      · split at heq
        · cases heq
        · rename_i nodes₂ hsecond
          cases heq
          refine ⟨fun a x hx => h a x ?_, rfl⟩
          rw [nodeOf, KeyedVector.find?_remove] at hx
          split at hx
          · cases hx
          · rw [← hx, ← nodeOf, eq_of_editValues hsecond, eq_of_editValues hfirst]
            exact ((foldl_modify_eq (nodeOf · a) (fun _ _ => nodeOf_removeIn) _ _).trans
              (foldl_modify_eq (nodeOf · a) (fun _ _ => nodeOf_removeOut) _ _)).symm

theorem removeNode_of_not_mem (hid : id ∉ dag.mNodesVec.keys) :
    dag.removeNode id = some (dag, .nameNotFound) := by
  rw [removeNode, KeyedVector.find?_eq_none_iff.mpr hid]

theorem coherent_removeNode (h : dag.Coherent) (id : NodeId) :
    ∃ dag' err, dag.removeNode id = some (dag', err) ∧ dag'.Coherent := by
  by_cases hid : id ∈ dag.mNodesVec.keys
  · obtain ⟨nodes, heq, hnode, hout, hin⟩ := removeNode_spec h.adjacent hid
    have hkeys : ∀ a, a ∈ nodes.keys ↔ a ≠ id ∧ a ∈ dag.mNodesVec.keys := fun a => by
      rw [mem_keys_iff_nodeOf, mem_keys_iff_nodeOf, hnode]
      split <;> simp_all
    refine ⟨_, _, heq, ⟨fun a b => ?_, fun a b hab => ?_, ?_⟩, fun a x hx => ?_⟩
    · dsimp only
      rw [hout, hin, h.adjacent.mirror]
    · dsimp only at hab ⊢
      rw [hout, hin, ← h.adjacent.mirror, or_self] at hab
      obtain ⟨hab, ha, hb⟩ := hab
      obtain ⟨hakey, hbkey⟩ := h.adjacent.ends a b (.inl hab)
      exact ⟨(hkeys a).mpr ⟨ha, hakey⟩, (hkeys b).mpr ⟨hb, hbkey⟩⟩
    · dsimp only
      split
      · exact .inl rfl
      · rename_i hne
        exact h.adjacent.root.imp_right fun hroot => (hkeys _).mpr ⟨Ne.symm hne, hroot⟩
    · dsimp only at hx
      rw [hnode] at hx
      split at hx
      · cases hx
      · exact h.ids a x hx
  · exact ⟨dag, _, removeNode_of_not_mem hid, h⟩

/-! ### Clones -/

theorem coherent_clone (h : dag.Coherent) : dag.clone.Coherent := h.congr rfl rfl

theorem coherent_removeNodes (h : dag.Coherent) (ids : List NodeId) :
    ∃ dag', removeNodes ids dag = some dag' ∧ dag'.Coherent := by
  induction ids generalizing dag with
  | nil => exact ⟨dag, rfl, h⟩
  | cons id ids ih =>
    obtain ⟨dag₁, err, heq, h₁⟩ := coherent_removeNode h id
    obtain ⟨dag', hrest, h'⟩ := ih h₁
    exact ⟨dag', by rw [removeNodes, heq, ← hrest], h'⟩

theorem coherent_cloneOf (h : dag.Coherent) (ids : NodeIdSet) :
    ∃ r, dag.cloneOf ids = some r ∧ ∀ dag', r = some dag' → dag'.Coherent := by
  rw [cloneOf]
  split
  · exact ⟨none, rfl, fun _ h => by cases h⟩
  · split
    · exact ⟨none, rfl, fun _ h => by cases h⟩
    · obtain ⟨dag', heq, h'⟩ := coherent_removeNodes (coherent_clone h)
        (dag.mNodesVec.keys.filter (· ∉ ids))
      rw [heq]
      exact ⟨some dag', rfl, fun dag'' h'' => Option.some_inj.mp h'' ▸ h'⟩

end PipelineDAG

end MtkHardware.Pipeline
