import MtkHardware.Pipeline.ConfigCheck
import MtkHardware.Util.Run
import Mathlib.Data.Nat.Cast.Basic

/-!
# Dispatching a Frame

A frame is queued to the root of its request graph. A node that has done its part dispatches
the frame, and the dispatcher queues it to every node behind, however many other nodes are
ahead of that one. The calls of `onDispatchFrame` run on the threads of the nodes, so that
any number of them may be on their way through their loops.

The definitions follow `PipelineContextImpl::queue` and `DefaultDispatcher::onDispatchFrame`,
for one frame that is not flushed.
-/

namespace MtkHardware.Pipeline

open Relation NodeMap PipelineDAG

structure Dispatch where
  /-- The frame has been queued to the pipeline. -/
  mQueued : Bool
  /-- How often a node has the frame queued and has not dispatched it. -/
  pending : NodeId → ℕ
  /-- The calls of `onDispatchFrame`: the nodes that each has still to queue. -/
  calls : List (List NodeObj)

inductive DispatchOp
  /-- `PipelineContextImpl::queue`. -/
  | queue
  /-- A node dispatches the frame: a call of `onDispatchFrame` begins. -/
  | dispatch (nodeId : NodeId)
  /-- One iteration of the loop of a call. -/
  | next (call : ℕ)
  deriving DecidableEq, Repr

inductive DispatchEvent
  /-- `queue()` of the node is called. -/
  | queue (nodeId : NodeId)
  /-- The node calls `onDispatchFrame`. -/
  | dispatch (nodeId : NodeId)
  deriving DecidableEq, Repr

inductive DispatchFault
  /-- The frame is queued to the pipeline again. -/
  | queuedTwice
  /-- A node dispatches a frame that it does not have. -/
  | notQueued
  /-- There is no such call. -/
  | noCall
  /-- A node that is not there is accessed. -/
  | missingNode
  deriving DecidableEq, Repr

namespace Dispatch

def new : Dispatch := ⟨false, fun _ => 0, []⟩

/-- `queue()` of a node, if there is the node. -/
def deliver (s : Dispatch) : Option NodeId → Dispatch × List DispatchEvent
  | none => (s, [])
  | some nodeId =>
    ({ s with pending := Function.update s.pending nodeId (s.pending nodeId + 1) },
      [.queue nodeId])

def dispatchMachine (pNodeMap : PipelineNodeMapControl) (dag : PipelineDAG) :
    Machine Dispatch DispatchOp DispatchEvent DispatchFault := fun s op =>
  match op with
  | .queue =>
    if s.mQueued then .error .queuedTwice
    else if pNodeMap.entries.isEmpty then .ok ({ s with mQueued := true }, [])
    else
      .ok (deliver { s with mQueued := true }
        (PipelineNodeMapControl.nodeAt pNodeMap dag.getRootNode.val))
  | .dispatch nodeId =>
    if s.pending nodeId = 0 then .error .notQueued
    else
      let s := { s with pending := Function.update s.pending nodeId (s.pending nodeId - 1) }
      if pNodeMap.entries.isEmpty then .ok (s, [.dispatch nodeId])
      else
        match dag.getOutAdjacentNodes nodeId with
        | none => .error .missingNode
        | some (.ok, nextNodes) =>
          .ok ({ s with calls := s.calls ++ [nextNodes] }, [.dispatch nodeId])
        | some (_, _) => .ok (s, [.dispatch nodeId])
  | .next call =>
    match s.calls[call]? with
    | some (node :: nodes) =>
      .ok (deliver { s with calls := s.calls.set call nodes }
        (PipelineNodeMapControl.nodeAt pNodeMap node.val))
    | _ => .error .noCall

/-- The run is **complete**: the frame has been queued, every node has dispatched it as often
as it was queued, and every call has ended. -/
def Complete (s : Dispatch) : Prop :=
  s.mQueued = true ∧ (∀ nodeId, s.pending nodeId = 0) ∧ ∀ call ∈ s.calls, call = []

def AfterAhead (dag : PipelineDAG) (os : List DispatchEvent) : Prop :=
  ∀ os₁ b os₂, os = os₁ ++ .queue b :: os₂ → ∀ a, dag.mNodesVec.HasEdge a b →
    .dispatch a ∈ os₁

/-- The frame is **queued once**: in every run a node is queued only after all nodes ahead of
it have dispatched, and in every complete run every node is queued exactly once. -/
def QueuedOnce (pNodeMap : PipelineNodeMapControl) (dag : PipelineDAG) : Prop :=
  ∀ ops s os, (dispatchMachine pNodeMap dag).Runs new ops s os →
    AfterAhead dag os ∧
      (s.Complete → ∀ nodeId ∈ dag.mNodesVec.keys, os.count (.queue nodeId) = 1)

/-- A request graph that is a **tree**: nothing is ahead of the root, and one node is ahead
of every other node. -/
def IsTree (dag : PipelineDAG) : Prop :=
  dag.mRootId ≠ BAD_ID ∧
    ∀ b ∈ dag.mNodesVec.keys, (inOf dag.mNodesVec b).size = if b = dag.mRootId then 0 else 1

/-- The frame of an **accepted** request graph. -/
structure Accepted (pNodeMap : PipelineNodeMapControl) (dag : PipelineDAG) : Prop where
  coherent : dag.Coherent
  root : dag.mRootId ∈ dag.mNodesVec.keys
  order : ∃ ks, IsTopological dag.mNodesVec.HasEdge ks ∧ ∀ a, a ∈ ks ↔ a ∈ dag.mNodesVec.keys
  value : ∀ a x, NodeMap.nodeOf dag.mNodesVec a = some x →
    PipelineNodeMapControl.nodeAt pNodeMap x.val = some a

variable {pNodeMap : PipelineNodeMapControl} {dag : PipelineDAG} {s s' : Dispatch}
  {op : DispatchOp} {ops : List DispatchOp} {os o : List DispatchEvent} {a b : NodeId}

theorem accepted_of_constructDAG {pNodeConfig : NodeConfig} {pBuilder : PipelineBuilder}
    {confDAG : PipelineDAG} {rootNodes : List NodeId} {edges : List Edge}
    (hconfig : configure pNodeConfig pBuilder = some (.ok (confDAG, pNodeMap)))
    (hreq : constructDAG confDAG rootNodes edges = some dag) : Accepted pNodeMap dag := by
  obtain ⟨hconf, hgraph⟩ := requestGraph_of_constructDAG hconfig hreq
  exact ⟨hgraph.coherent, hgraph.root.2, hgraph.exists_topological, fun a x hx =>
    (hconf.value a x (hgraph.value a x hx)).2⟩

namespace Accepted

theorem isEmpty_eq_false (h : Accepted pNodeMap dag) : pNodeMap.entries.isEmpty = false := by
  obtain ⟨x, hx⟩ := mem_keys_iff_nodeOf.mp h.root
  have hval := h.value _ x hx
  rw [PipelineNodeMapControl.nodeAt] at hval
  cases hentries : pNodeMap.entries with
  | nil => simp [hentries] at hval
  | cons e es => rfl

theorem exists_mapM_find? (h : Accepted pNodeMap dag) (ids : List NodeId)
    (hids : ∀ b ∈ ids, b ∈ dag.mNodesVec.keys) :
    ∃ nodes : List NodeWithAdj, ids.mapM dag.mNodesVec.find? = some nodes ∧
      nodes.map (fun n => n.mNode.id) = ids ∧
      ∀ n ∈ nodes, NodeMap.nodeOf dag.mNodesVec n.mNode.id = some n.mNode := by
  induction ids with
  | nil => exact ⟨[], rfl, rfl, by simp⟩
  | cons b ids ih =>
    obtain ⟨node, hnode⟩ := KeyedVector.mem_keys_iff.mp (hids b List.mem_cons_self)
    obtain ⟨nodes, heq, hmap, hobj⟩ := ih fun c hc => hids c (List.mem_cons_of_mem _ hc)
    have hb : NodeMap.nodeOf dag.mNodesVec b = some node.mNode := by
      rw [NodeMap.nodeOf, hnode]
      rfl
    have hid := h.coherent.ids b _ hb
    refine ⟨node :: nodes, ?_, ?_, ?_⟩
    · rw [List.mapM_cons, hnode, heq]
      rfl
    · rw [List.map_cons, hmap, hid]
    · exact List.forall_mem_cons.mpr ⟨by rw [hid, hb], hobj⟩

theorem exists_getOutAdjacentNodes (h : Accepted pNodeMap dag) (ha : a ∈ dag.mNodesVec.keys) :
    ∃ nextNodes, dag.getOutAdjacentNodes a = some (.ok, nextNodes) ∧
      nextNodes.map NodeObj.id = (outOf dag.mNodesVec a).items ∧
      ∀ x ∈ nextNodes, NodeMap.nodeOf dag.mNodesVec x.id = some x := by
  obtain ⟨node, hnode⟩ := KeyedVector.mem_keys_iff.mp ha
  have hout := outOf_of_find? hnode
  obtain ⟨nodes, heq, hmap, hobj⟩ := h.exists_mapM_find? node.mOutAdj.items
    fun b hb => h.coherent.adjacent.mem_keys_of_out (a := a) (by rwa [hout])
  refine ⟨nodes.map NodeWithAdj.mNode, ?_, ?_, ?_⟩
  · rw [getOutAdjacentNodes, hnode]
    dsimp only
    rw [heq]
  · rw [hout, List.map_map]
    exact hmap
  · intro x hx
    obtain ⟨n, hn, rfl⟩ := List.mem_map.mp hx
    exact hobj n hn

end Accepted

/-! ### The steps -/

/-- A frame is **queued** to the root. -/
theorem step_queue (h : Accepted pNodeMap dag) (hs : s.mQueued = false) :
    dispatchMachine pNodeMap dag s .queue =
      .ok (deliver { s with mQueued := true }
        (if dag.mRootId = BAD_ID then none else some dag.mRootId)) := by
  have hroot : PipelineNodeMapControl.nodeAt pNodeMap dag.getRootNode.val =
      if dag.mRootId = BAD_ID then none else some dag.mRootId := by
    rw [getRootNode]
    split
    · rfl
    · obtain ⟨x, hx⟩ := mem_keys_iff_nodeOf.mp h.root
      obtain ⟨node, hnode, rfl⟩ := Option.map_eq_some_iff.mp hx
      rw [getNode, hnode]
      exact h.value _ _ hx
  rw [dispatchMachine, hs, h.isEmpty_eq_false, hroot]
  simp

/-- A node **dispatches** the frame. -/
theorem step_dispatch (h : Accepted pNodeMap dag) (hs : s.pending a ≠ 0)
    (ha : a ∈ dag.mNodesVec.keys) :
    ∃ nextNodes, dispatchMachine pNodeMap dag s (.dispatch a) =
        .ok (⟨s.mQueued, Function.update s.pending a (s.pending a - 1), s.calls ++ [nextNodes]⟩,
          [.dispatch a]) ∧
      nextNodes.map NodeObj.id = (outOf dag.mNodesVec a).items ∧
      ∀ x ∈ nextNodes, NodeMap.nodeOf dag.mNodesVec x.id = some x := by
  obtain ⟨nextNodes, heq, hmap, hobj⟩ := h.exists_getOutAdjacentNodes ha
  refine ⟨nextNodes, ?_, hmap, hobj⟩
  rw [dispatchMachine]
  dsimp only
  rw [if_neg hs, h.isEmpty_eq_false, heq]
  rfl

/-- A call **queues** the next node. -/
theorem step_next (h : Accepted pNodeMap dag) {call : ℕ} {node : NodeObj}
    {nodes : List NodeObj} (hs : s.calls[call]? = some (node :: nodes))
    (hnode : NodeMap.nodeOf dag.mNodesVec node.id = some node) :
    dispatchMachine pNodeMap dag s (.next call) =
      .ok (deliver { s with calls := s.calls.set call nodes } (some node.id)) := by
  rw [dispatchMachine, hs]
  simp only [h.value _ _ hnode]

/-! ### The ledger -/

def toQueue (s : Dispatch) (b : NodeId) : ℕ :=
  (s.calls.map fun call => (call.map NodeObj.id).count b).sum

/-- The **ledger** of a frame. A node is queued, or is on its way to be, once for every
dispatch of a node ahead of it, and the root once more. -/
structure Ledger (dag : PipelineDAG) (s : Dispatch) (os : List DispatchEvent) : Prop where
  queued : ∀ b, os.count (.queue b) = os.count (.dispatch b) + s.pending b
  flow : ∀ b, os.count (.queue b) + s.toQueue b =
    ((inOf dag.mNodesVec b).items.map fun a => os.count (.dispatch a)).sum +
      if s.mQueued = true ∧ dag.mRootId ≠ BAD_ID ∧ b = dag.mRootId then 1 else 0
  object : ∀ call ∈ s.calls, ∀ x ∈ call, NodeMap.nodeOf dag.mNodesVec x.id = some x
  nodes : ∀ b, s.pending b ≠ 0 → b ∈ dag.mNodesVec.keys

theorem step_cases (h : Accepted pNodeMap dag) (hL : Ledger dag s os)
    (hstep : dispatchMachine pNodeMap dag s op = .ok (s', o)) :
    (op = .queue ∧ s.mQueued = false ∧
      deliver { s with mQueued := true }
        (if dag.mRootId = BAD_ID then none else some dag.mRootId) = (s', o)) ∨
    (∃ a nextNodes, op = .dispatch a ∧ s.pending a ≠ 0 ∧
      nextNodes.map NodeObj.id = (outOf dag.mNodesVec a).items ∧
      (∀ x ∈ nextNodes, NodeMap.nodeOf dag.mNodesVec x.id = some x) ∧
      s' = ⟨s.mQueued, Function.update s.pending a (s.pending a - 1), s.calls ++ [nextNodes]⟩ ∧
      o = [.dispatch a]) ∨
    ∃ call node nodes, op = .next call ∧ s.calls[call]? = some (node :: nodes) ∧
      NodeMap.nodeOf dag.mNodesVec node.id = some node ∧
      deliver { s with calls := s.calls.set call nodes } (some node.id) = (s', o) := by
  cases op with
  | queue =>
    cases hq : s.mQueued with
    | true => simp [dispatchMachine, hq] at hstep
    | false =>
      rw [step_queue h hq, Except.ok.injEq] at hstep
      exact .inl ⟨rfl, rfl, hstep⟩
  | dispatch a =>
    by_cases hp : s.pending a = 0
    · simp [dispatchMachine, hp] at hstep
    · obtain ⟨nextNodes, heq, hmap, hobj⟩ := step_dispatch h hp (hL.nodes a hp)
      rw [heq, Except.ok.injEq, Prod.mk.injEq] at hstep
      exact .inr (.inl ⟨a, nextNodes, rfl, hp, hmap, hobj, hstep.1.symm, hstep.2.symm⟩)
  | next call =>
    cases hcall : s.calls[call]? with
    | none => simp [dispatchMachine, hcall] at hstep
    | some nodes =>
      cases nodes with
      | nil => simp [dispatchMachine, hcall] at hstep
      | cons node nodes =>
        have hnode := hL.object _ (List.mem_of_getElem? hcall) node List.mem_cons_self
        rw [step_next h hcall hnode, Except.ok.injEq] at hstep
        exact .inr (.inr ⟨call, node, nodes, rfl, hcall, hnode, hstep⟩)

theorem ledger_new (dag : PipelineDAG) : Ledger dag new [] := by
  refine ⟨fun b => rfl, fun b => ?_, by simp [new], fun b hb => absurd rfl hb⟩
  simp [new, toQueue]

theorem ledger_deliver {s₁ : Dispatch} (hs : deliver s₁ (some b) = (s', o))
    (hb : b ∈ dag.mNodesVec.keys)
    (hqueued : ∀ c, os.count (.queue c) = os.count (.dispatch c) + s₁.pending c)
    (hflow : ∀ c, (os.count (.queue c) + if b = c then 1 else 0) + s₁.toQueue c =
      ((inOf dag.mNodesVec c).items.map fun a => os.count (.dispatch a)).sum +
        if s₁.mQueued = true ∧ dag.mRootId ≠ BAD_ID ∧ c = dag.mRootId then 1 else 0)
    (hobject : ∀ call ∈ s₁.calls, ∀ x ∈ call, NodeMap.nodeOf dag.mNodesVec x.id = some x)
    (hnodes : ∀ c, s₁.pending c ≠ 0 → c ∈ dag.mNodesVec.keys) : Ledger dag s' (os ++ o) := by
  cases hs
  have hqueue : ∀ c, (os ++ [DispatchEvent.queue b]).count (.queue c) =
      os.count (.queue c) + if b = c then 1 else 0 := fun c => by
    simp [List.count_append, List.count_cons]
  have hdispatch : ∀ c, (os ++ [DispatchEvent.queue b]).count (.dispatch c) =
      os.count (.dispatch c) := fun c => by
    simp [List.count_append]
  refine ⟨fun c => ?_, fun c => ?_, hobject, fun c hc => ?_⟩
  · rw [hqueue, hdispatch, hqueued]
    dsimp only
    by_cases hbc : b = c
    · subst hbc
      rw [if_pos rfl, Function.update_self]
      omega
    · rw [if_neg hbc, Function.update_of_ne (Ne.symm hbc)]
      omega
  · rw [hqueue]
    simp only [hdispatch]
    exact hflow c
  · by_cases hbc : c = b
    · exact hbc ▸ hb
    · dsimp only at hc
      rw [Function.update_of_ne hbc] at hc
      exact hnodes c hc

theorem ledger_queue (h : Accepted pNodeMap dag) (hL : Ledger dag s os)
    (hq : s.mQueued = false)
    (hs : deliver { s with mQueued := true }
      (if dag.mRootId = BAD_ID then none else some dag.mRootId) = (s', o)) :
    Ledger dag s' (os ++ o) := by
  have hflow := hL.flow
  simp only [hq, Bool.false_eq_true, false_and, if_false, Nat.add_zero] at hflow
  by_cases hroot : dag.mRootId = BAD_ID
  · rw [if_pos hroot] at hs
    cases hs
    rw [List.append_nil]
    refine ⟨hL.queued, fun b => ?_, hL.object, hL.nodes⟩
    rw [if_neg fun hb => hb.2.1 hroot]
    exact hflow b
  · rw [if_neg hroot] at hs
    refine ledger_deliver hs h.root hL.queued (fun c => ?_) hL.object hL.nodes
    have hc := hflow c
    have hsame : ({ s with mQueued := true } : Dispatch).toQueue c = s.toQueue c := rfl
    rw [hsame]
    by_cases hcr : dag.mRootId = c
    · rw [if_pos hcr, if_pos ⟨rfl, hroot, hcr.symm⟩]
      omega
    · rw [if_neg hcr, if_neg fun hb => hcr hb.2.2.symm]
      omega

theorem ledger_dispatch (h : Accepted pNodeMap dag) (hL : Ledger dag s os)
    (hp : s.pending a ≠ 0) {nextNodes : List NodeObj}
    (hmap : nextNodes.map NodeObj.id = (outOf dag.mNodesVec a).items)
    (hobj : ∀ x ∈ nextNodes, NodeMap.nodeOf dag.mNodesVec x.id = some x) :
    Ledger dag
      ⟨s.mQueued, Function.update s.pending a (s.pending a - 1), s.calls ++ [nextNodes]⟩
      (os ++ [.dispatch a]) := by
  have hqueue : ∀ c, (os ++ [DispatchEvent.dispatch a]).count (.queue c) =
      os.count (.queue c) := fun c => by
    simp [List.count_append]
  have hdispatch : ∀ c, (os ++ [DispatchEvent.dispatch a]).count (.dispatch c) =
      os.count (.dispatch c) + if c = a then 1 else 0 := fun c => by
    simp [List.count_append, List.count_singleton, @eq_comm _ c a]
  refine ⟨fun b => ?_, fun b => ?_, fun l hl x hx => ?_, fun b hb => ?_⟩
  · have hb := hL.queued b
    rw [hqueue, hdispatch]
    dsimp only
    by_cases hba : b = a
    · subst hba
      rw [if_pos rfl, Function.update_self]
      omega
    · rw [if_neg hba, Function.update_of_ne hba]
      omega
  · have hb := hL.flow b
    have hout : (nextNodes.map NodeObj.id).count b =
        if b ∈ outOf dag.mNodesVec a then 1 else 0 := by
      rw [hmap, (outOf dag.mNodesVec a).nodup.count]
      rfl
    have hin : ((inOf dag.mNodesVec b).items.map fun c => if c = a then 1 else 0).sum =
        if a ∈ inOf dag.mNodesVec b then 1 else 0 := by
      rw [← count_eq_sum_map_ite]
      exact (inOf dag.mNodesVec b).nodup.count
    have hadd : toQueue ⟨s.mQueued, Function.update s.pending a (s.pending a - 1),
        s.calls ++ [nextNodes]⟩ b = s.toQueue b + (nextNodes.map NodeObj.id).count b := by
      simp [toQueue]
    rw [hqueue, hadd, hout, if_congr (h.coherent.adjacent.mirror a b) rfl rfl]
    simp only [hdispatch]
    rw [List.sum_map_add, hin]
    omega
  · rcases List.mem_append.mp hl with hl | hl
    · exact hL.object l hl x hx
    · rw [List.mem_singleton] at hl
      exact hobj x (hl ▸ hx)
  · by_cases hba : b = a
    · exact hba ▸ hL.nodes a hp
    · dsimp only at hb
      rw [Function.update_of_ne hba] at hb
      exact hL.nodes b hb

theorem ledger_next (hL : Ledger dag s os) {call : ℕ} {node : NodeObj} {nodes : List NodeObj}
    (hcall : s.calls[call]? = some (node :: nodes))
    (hnode : NodeMap.nodeOf dag.mNodesVec node.id = some node)
    (hs : deliver { s with calls := s.calls.set call nodes } (some node.id) = (s', o)) :
    Ledger dag s' (os ++ o) := by
  refine ledger_deliver hs (mem_keys_iff_nodeOf.mpr ⟨node, hnode⟩) hL.queued (fun c => ?_)
    (fun l hl x hx => ?_) hL.nodes
  · have hc := hL.flow c
    have hsum := sum_map_set_add hcall nodes fun call => (call.map NodeObj.id).count c
    rw [List.map_cons, List.count_cons] at hsum
    have hset : ({ s with calls := s.calls.set call nodes } : Dispatch).toQueue c =
      ((s.calls.set call nodes).map fun call => (call.map NodeObj.id).count c).sum := rfl
    rw [hset]
    rw [toQueue] at hc
    dsimp only
    simp only [beq_iff_eq] at hsum
    omega
  · rcases List.mem_or_eq_of_mem_set hl with hl | rfl
    · exact hL.object l hl x hx
    · exact hL.object _ (List.mem_of_getElem? hcall) x (List.mem_cons_of_mem _ hx)

/-- **One step** keeps the ledger. -/
theorem ledger_step (h : Accepted pNodeMap dag) (hL : Ledger dag s os)
    (hstep : dispatchMachine pNodeMap dag s op = .ok (s', o)) : Ledger dag s' (os ++ o) := by
  rcases step_cases h hL hstep with
    ⟨-, hq, hs⟩ | ⟨a, nextNodes, -, hp, hmap, hobj, rfl, rfl⟩ |
      ⟨call, node, nodes, -, hcall, hnode, hs⟩
  · exact ledger_queue h hL hq hs
  · exact ledger_dispatch h hL hp hmap hobj
  · exact ledger_next hL hcall hnode hs

/-- **The ledger** holds in every run. -/
theorem ledger_of_runs (h : Accepted pNodeMap dag)
    (hrun : (dispatchMachine pNodeMap dag).Runs new ops s os) : Ledger dag s os :=
  hrun.invariant (I := fun _ s os => Ledger dag s os) (ledger_new dag)
    fun _ _ _ _ _ _ hL hstep => ledger_step h hL hstep

/-! ### Complete runs -/

theorem toQueue_of_closed (hs : ∀ call ∈ s.calls, call = []) (b : NodeId) : s.toQueue b = 0 := by
  rw [toQueue, List.sum_eq_zero_iff_forall_eq_nat]
  intro n hn
  obtain ⟨call, hcall, rfl⟩ := List.mem_map.mp hn
  rw [hs call hcall]
  rfl

/-- **In a complete run** a node is queued once for each time a node ahead of it is, and the
root once more. -/
theorem count_queue (h : Accepted pNodeMap dag)
    (hrun : (dispatchMachine pNodeMap dag).Runs new ops s os) (hs : s.Complete) (b : NodeId) :
    os.count (.queue b) =
      ((inOf dag.mNodesVec b).items.map fun a => os.count (.queue a)).sum +
        if dag.mRootId ≠ BAD_ID ∧ b = dag.mRootId then 1 else 0 := by
  have hL := ledger_of_runs h hrun
  obtain ⟨hq, hpending, hclosed⟩ := hs
  have hqueued : ∀ a, os.count (.queue a) = os.count (.dispatch a) := fun a => by
    rw [hL.queued, hpending, Nat.add_zero]
  have hflow := hL.flow b
  rw [toQueue_of_closed hclosed, Nat.add_zero] at hflow
  simp only [hq, true_and, ← hqueued] at hflow
  exact hflow

def left (s : Dispatch) : ℕ := (s.calls.map List.length).sum

theorem exists_closed (h : Accepted pNodeMap dag)
    (hs : ∀ call ∈ s.calls, ∀ x ∈ call, NodeMap.nodeOf dag.mNodesVec x.id = some x) :
    ∃ ops s' os, (dispatchMachine pNodeMap dag).Runs s ops s' os ∧
      (∀ call ∈ s'.calls, call = []) ∧ s'.mQueued = s.mQueued ∧
      ∀ b, s'.pending b = s.pending b + s.toQueue b := by
  induction hn : s.left generalizing s with
  | zero =>
    have hclosed : ∀ call ∈ s.calls, call = [] := fun call hcall => by
      rw [left, List.sum_eq_zero_iff_forall_eq_nat] at hn
      exact List.length_eq_zero_iff.mp (hn _ (List.mem_map_of_mem hcall))
    exact ⟨[], s, [], .init, hclosed, rfl, fun b => by rw [toQueue_of_closed hclosed]; rfl⟩
  | succ n ih =>
    rw [left] at hn
    obtain ⟨m, hm, hpos⟩ := List.sum_pos_iff_exists_pos_nat.mp
      (show 0 < (s.calls.map List.length).sum by omega)
    obtain ⟨call, hcall, rfl⟩ := List.mem_map.mp hm
    obtain ⟨c, hc⟩ := List.mem_iff_getElem?.mp hcall
    cases call with
    | nil => simp at hpos
    | cons node nodes =>
      have hstep := step_next h hc (hs _ hcall node List.mem_cons_self)
      have hleft := sum_map_set_add hc nodes List.length
      rw [List.length_cons] at hleft
      set s₁ := (deliver { s with calls := s.calls.set c nodes } (some node.id)).1 with hs₁
      have hobject : ∀ l ∈ s₁.calls, ∀ x ∈ l, NodeMap.nodeOf dag.mNodesVec x.id = some x := by
        intro l hl x hx
        rcases List.mem_or_eq_of_mem_set hl with hl | rfl
        · exact hs l hl x hx
        · exact hs _ hcall x (List.mem_cons_of_mem _ hx)
      have hs₁left : s₁.left = n := by
        rw [left, hs₁, deliver]
        dsimp only
        omega
      obtain ⟨ops, s', os, hrun, hclosed, hqueued, hpending⟩ := ih hobject hs₁left
      refine ⟨_, s', _, (Machine.Runs.single hstep).append hrun, hclosed, hqueued,
        fun b => ?_⟩
      have hsum := sum_map_set_add hc nodes fun call => (call.map NodeObj.id).count b
      rw [List.map_cons, List.count_cons] at hsum
      rw [hpending, toQueue, toQueue, hs₁, deliver]
      dsimp only
      simp only [beq_iff_eq] at hsum
      by_cases hb : node.id = b
      · rw [if_pos hb] at hsum
        rw [hb, Function.update_self]
        omega
      · rw [if_neg hb] at hsum
        rw [Function.update_of_ne (Ne.symm hb)]
        omega

/-- A node can dispatch the frame as often as it has it. Then only the nodes behind it may
have the frame that did not have it before. -/
theorem exists_drained (h : Accepted pNodeMap dag) (ha : a ∈ dag.mNodesVec.keys)
    (hself : ¬ dag.mNodesVec.HasEdge a a) (hs : ∀ call ∈ s.calls, call = []) :
    ∃ ops s' os, (dispatchMachine pNodeMap dag).Runs s ops s' os ∧
      (∀ call ∈ s'.calls, call = []) ∧ s'.mQueued = s.mQueued ∧ s'.pending a = 0 ∧
      ∀ b, s'.pending b ≠ 0 → s.pending b ≠ 0 ∨ dag.mNodesVec.HasEdge a b := by
  induction hn : s.pending a generalizing s with
  | zero => exact ⟨[], s, [], .init, hs, rfl, hn, fun b hb => .inl hb⟩
  | succ n ih =>
    obtain ⟨nextNodes, hstep, hmap, hobj⟩ := step_dispatch h (s := s) (by omega) ha
    set s₁ : Dispatch :=
      ⟨s.mQueued, Function.update s.pending a (s.pending a - 1), s.calls ++ [nextNodes]⟩
    have hself₁ : s₁.pending a = n := (Function.update_self ..).trans (by omega)
    have hother₁ : ∀ b, b ≠ a → s₁.pending b = s.pending b := fun b hb =>
      Function.update_of_ne hb _ _
    have hobject : ∀ call ∈ s₁.calls, ∀ x ∈ call,
        NodeMap.nodeOf dag.mNodesVec x.id = some x := by
      intro call hcall x hx
      rcases List.mem_append.mp hcall with hcall | hcall
      · rw [hs call hcall] at hx
        simp at hx
      · rw [List.mem_singleton.mp hcall] at hx
        exact hobj x hx
    have hqueue : ∀ b, s₁.toQueue b = (nextNodes.map NodeObj.id).count b := fun b => by
      have hzero := toQueue_of_closed hs b
      rw [toQueue] at hzero
      rw [toQueue, List.map_append, List.sum_append, hzero]
      simp
    obtain ⟨ops₁, s₂, os₁, hrun₁, hclosed₁, hqueued₁, hpending₁⟩ := exists_closed h hobject
    have hs₂ : s₂.pending a = n := by
      have hnot : a ∉ nextNodes.map NodeObj.id := hmap ▸ hself
      rw [hpending₁, hqueue, List.count_eq_zero.mpr hnot, hself₁, Nat.add_zero]
    obtain ⟨ops₂, s', os₂, hrun₂, hclosed₂, hqueued₂, hzero, hpending₂⟩ := ih hclosed₁ hs₂
    refine ⟨_, s', _, (Machine.Runs.single hstep).append (hrun₁.append hrun₂), hclosed₂,
      hqueued₂.trans hqueued₁, hzero, fun b hb => ?_⟩
    rcases hpending₂ b hb with hb | hb
    · by_cases hout : dag.mNodesVec.HasEdge a b
      · exact .inr hout
      · have hnot : b ∉ nextNodes.map NodeObj.id := hmap ▸ hout
        rw [hpending₁, hqueue, List.count_eq_zero.mpr hnot, Nat.add_zero] at hb
        by_cases hba : b = a
        · subst hba
          exact .inl (by omega)
        · exact .inl (hother₁ b hba ▸ hb)
    · exact .inr hb

/-- Once all nodes that have the frame are in a list in topological order, the nodes of the
list can dispatch it one after the other, until no node has it. -/
theorem exists_drained_all (h : Accepted pNodeMap dag) {ks : List NodeId}
    (hks : IsTopological dag.mNodesVec.HasEdge ks) (hmem : ∀ a ∈ ks, a ∈ dag.mNodesVec.keys)
    (hs : ∀ call ∈ s.calls, call = []) (hpending : ∀ b, s.pending b ≠ 0 → b ∈ ks) :
    ∃ ops s' os, (dispatchMachine pNodeMap dag).Runs s ops s' os ∧
      (∀ call ∈ s'.calls, call = []) ∧ s'.mQueued = s.mQueued ∧ ∀ b, s'.pending b = 0 := by
  induction hks generalizing s with
  | nil =>
    exact ⟨[], s, [], .init, hs, rfl, fun b => by
      by_contra hb
      exact absurd (hpending b hb) List.not_mem_nil⟩
  | @cons a ks hnew hsucc _ ih =>
    obtain ⟨ops₁, s₁, os₁, hrun₁, hclosed₁, hqueued₁, hzero₁, hpending₁⟩ :=
      exists_drained h (hmem a List.mem_cons_self) (fun hself => hnew (hsucc a hself)) hs
    obtain ⟨ops₂, s', os₂, hrun₂, hclosed₂, hqueued₂, hzero₂⟩ :=
      ih (fun b hb => hmem b (List.mem_cons_of_mem _ hb)) hclosed₁ fun b hb => by
        rcases hpending₁ b hb with hb' | hb'
        · refine (List.mem_cons.mp (hpending b hb')).resolve_left fun hba => ?_
          exact hb (hba ▸ hzero₁)
        · exact hsucc b hb'
    exact ⟨_, s', _, hrun₁.append hrun₂, hclosed₂, hqueued₂.trans hqueued₁, hzero₂⟩

/-- **Every run can be completed.** -/
theorem exists_complete (h : Accepted pNodeMap dag)
    (hrun : (dispatchMachine pNodeMap dag).Runs new ops s os) :
    ∃ ops' s' os', (dispatchMachine pNodeMap dag).Runs new (ops ++ ops') s' (os ++ os') ∧
      s'.Complete := by
  obtain ⟨ops₀, s₀, os₀, hrun₀, hq₀⟩ : ∃ ops₀ s₀ os₀,
      (dispatchMachine pNodeMap dag).Runs s ops₀ s₀ os₀ ∧ s₀.mQueued = true := by
    cases hq : s.mQueued with
    | true => exact ⟨[], s, [], .init, hq⟩
    | false =>
      refine ⟨_, _, _, .single (step_queue h hq), ?_⟩
      split <;> rfl
  have hrun' := hrun.append hrun₀
  have hL := ledger_of_runs h hrun'
  obtain ⟨ops₁, s₁, os₁, hrun₁, hclosed₁, hqueued₁, -⟩ := exists_closed h hL.object
  have hL₁ := ledger_of_runs h (hrun'.append hrun₁)
  obtain ⟨ks, horder, hks⟩ := h.order
  obtain ⟨ops₂, s', os₂, hrun₂, hclosed₂, hqueued₂, hzero₂⟩ :=
    exists_drained_all h horder (fun a ha => (hks a).mp ha) hclosed₁
      fun b hb => (hks b).mpr (hL₁.nodes b hb)
  refine ⟨ops₀ ++ (ops₁ ++ ops₂), s', os₀ ++ (os₁ ++ os₂), ?_, ?_, hzero₂, hclosed₂⟩
  · exact hrun.append (hrun₀.append (hrun₁.append hrun₂))
  · rw [hqueued₂, hqueued₁, hq₀]

/-! ### Trees -/

theorem Accepted.exists_inOf_empty (h : Accepted pNodeMap dag) :
    ∃ b ∈ dag.mNodesVec.keys, (inOf dag.mNodesVec b).size = 0 := by
  obtain ⟨ks, horder, hks⟩ := h.order
  cases ks with
  | nil => exact absurd ((hks _).mpr h.root) List.not_mem_nil
  | cons b ks =>
    refine ⟨b, (hks b).mp List.mem_cons_self, ?_⟩
    rw [SortedVector.size, List.length_eq_zero_iff, List.eq_nil_iff_forall_not_mem]
    intro a ha
    have hlt := horder.idxOf_lt ((hks a).mpr (h.coherent.adjacent.mem_keys_of_in ha))
      ((h.coherent.adjacent.mirror a b).mpr ha)
    rw [List.idxOf_cons_self] at hlt
    exact Nat.not_lt_zero _ hlt

theorem afterAhead_snoc {e : DispatchEvent} (hos : AfterAhead dag os)
    (he : ∀ b, e = .queue b → ∀ a, dag.mNodesVec.HasEdge a b → .dispatch a ∈ os) :
    AfterAhead dag (os ++ [e]) := by
  intro os₁ b os₂ heq a hab
  cases os₂ using List.reverseRecOn with
  | nil =>
    obtain ⟨rfl, hb⟩ := List.append_inj' heq rfl
    exact he b (by simpa using hb) a hab
  | append_singleton os₂ e' =>
    rw [← List.cons_append, ← List.append_assoc] at heq
    obtain ⟨rfl, -⟩ := List.append_inj' heq rfl
    exact hos os₁ b os₂ rfl a hab

theorem dispatched_of_toQueue (htree : IsTree dag) (hL : Ledger dag s os)
    (hb : b ∈ dag.mNodesVec.keys) (hto : b = dag.mRootId ∨ 0 < s.toQueue b)
    (hab : a ∈ inOf dag.mNodesVec b) : .dispatch a ∈ os := by
  have hsize := htree.2 b hb
  have hpos : 0 < (inOf dag.mNodesVec b).size := List.length_pos_of_mem hab
  by_cases hroot : b = dag.mRootId
  · rw [if_pos hroot] at hsize
    omega
  · rw [if_neg hroot] at hsize
    obtain ⟨c, hc⟩ := List.length_eq_one_iff.mp hsize
    obtain rfl : a = c := by simpa [hc] using SortedVector.mem_items.mpr hab
    have hflow := hL.flow b
    rw [hc, if_neg fun h => hroot h.2.2, List.map_singleton, List.sum_singleton] at hflow
    have hto := hto.resolve_left hroot
    exact List.count_pos_iff.mp (by omega)

theorem afterAhead_of_isTree (h : Accepted pNodeMap dag) (htree : IsTree dag)
    (hrun : (dispatchMachine pNodeMap dag).Runs new ops s os) : AfterAhead dag os := by
  have hboth : Ledger dag s os ∧ AfterAhead dag os := by
    refine hrun.invariant (I := fun _ s os => Ledger dag s os ∧ AfterAhead dag os)
      ⟨ledger_new dag, fun os₁ b os₂ heq => by simp at heq⟩ ?_
    rintro _ s os op s' o ⟨hL, hos⟩ hstep
    refine ⟨ledger_step h hL hstep, ?_⟩
    have hahead : ∀ b, b ∈ dag.mNodesVec.keys → (b = dag.mRootId ∨ 0 < s.toQueue b) →
        ∀ a, dag.mNodesVec.HasEdge a b → .dispatch a ∈ os := fun b hb hto a hab =>
      dispatched_of_toQueue htree hL hb hto ((h.coherent.adjacent.mirror a b).mp hab)
    rcases step_cases h hL hstep with
      ⟨-, -, hs⟩ | ⟨a, nextNodes, -, -, -, -, -, rfl⟩ | ⟨call, node, nodes, -, hcall, hnode, hs⟩
    · rw [if_neg htree.1] at hs
      cases hs
      refine afterAhead_snoc hos fun b hb => ?_
      cases hb
      exact hahead _ h.root (.inl rfl)
    · exact afterAhead_snoc hos fun b hb => by cases hb
    · cases hs
      refine afterAhead_snoc hos fun b hb => ?_
      cases hb
      refine hahead _ (mem_keys_iff_nodeOf.mpr ⟨node, hnode⟩) (.inr ?_)
      refine List.sum_pos_iff_exists_pos_nat.mpr ⟨_, List.mem_map_of_mem
        (List.mem_of_getElem? hcall), ?_⟩
      exact List.count_pos_iff.mpr List.mem_cons_self
  exact hboth.2

theorem count_queue_of_isTree (h : Accepted pNodeMap dag) (htree : IsTree dag)
    (hrun : (dispatchMachine pNodeMap dag).Runs new ops s os) (hs : s.Complete)
    (hb : b ∈ dag.mNodesVec.keys) : os.count (.queue b) = 1 := by
  obtain ⟨ks, horder, hks⟩ := h.order
  -- by induction on the position of the node in the order
  induction hn : ks.idxOf b using Nat.strong_induction_on generalizing b with
  | _ n ih =>
    have hcount := count_queue h hrun hs b
    have hsize := htree.2 b hb
    by_cases hroot : b = dag.mRootId
    · rw [if_pos hroot] at hsize
      rw [hcount, if_pos ⟨htree.1, hroot⟩, List.length_eq_zero_iff.mp hsize]
      rfl
    · rw [if_neg hroot] at hsize
      obtain ⟨a, ha⟩ := List.length_eq_one_iff.mp hsize
      have hab : a ∈ inOf dag.mNodesVec b := by simp [← SortedVector.mem_items, ha]
      have hakeys := h.coherent.adjacent.mem_keys_of_in hab
      have hlt := horder.idxOf_lt ((hks a).mpr hakeys)
        ((h.coherent.adjacent.mirror a b).mpr hab)
      rw [hcount, if_neg fun hbr => hroot hbr.2, ha, List.map_singleton, List.sum_singleton,
        ih _ (hn ▸ hlt) hakeys rfl]

theorem isTree_of_queuedOnce (h : Accepted pNodeMap dag) (honce : QueuedOnce pNodeMap dag) :
    IsTree dag := by
  obtain ⟨ops, s, os, hrun, hs⟩ := exists_complete h .init
  rw [List.nil_append, List.nil_append] at hrun
  have hone := (honce _ s _ hrun).2 hs
  have hsize : ∀ b ∈ dag.mNodesVec.keys, 1 = (inOf dag.mNodesVec b).size +
      if dag.mRootId ≠ BAD_ID ∧ b = dag.mRootId then 1 else 0 := by
    intro b hb
    have hcount := count_queue h hrun hs b
    have hsum : ((inOf dag.mNodesVec b).items.map fun a => os.count (.queue a)).sum =
        (inOf dag.mNodesVec b).size := by
      rw [List.map_congr_left fun a ha => hone a (h.coherent.adjacent.mem_keys_of_in ha),
        List.map_const', List.sum_replicate, SortedVector.size]
      simp
    rw [hone b hb, hsum] at hcount
    exact hcount
  obtain ⟨b₀, hb₀, hempty⟩ := h.exists_inOf_empty
  have hroot : dag.mRootId ≠ BAD_ID := by
    intro hbad
    have hone₀ := hsize b₀ hb₀
    rw [if_neg fun hb => hb.1 hbad] at hone₀
    omega
  refine ⟨hroot, fun b hb => ?_⟩
  have hone_b := hsize b hb
  split
  · rename_i hbr
    rw [if_pos ⟨hroot, hbr⟩] at hone_b
    omega
  · rename_i hbr
    rw [if_neg fun h => hbr h.2] at hone_b
    omega

theorem queuedOnce_iff_isTree (h : Accepted pNodeMap dag) :
    QueuedOnce pNodeMap dag ↔ IsTree dag :=
  ⟨isTree_of_queuedOnce h, fun htree _ _ _ hrun => ⟨afterAhead_of_isTree h htree hrun,
    fun hs _ hb => count_queue_of_isTree h htree hrun hs hb⟩⟩

/-- **Dispatching a frame.** For every request graph that is accepted for a configured
pipeline: every run can be completed, and in a complete run a node is queued once for each
time a node ahead of it is, and the root once more. So every node is queued exactly once, and
only after all nodes ahead of it have dispatched, if and only if the graph is a tree. -/
theorem queuedOnce_iff {pNodeConfig : NodeConfig} {pBuilder : PipelineBuilder}
    {confDAG : PipelineDAG} {rootNodes : List NodeId} {edges : List Edge}
    (hconfig : configure pNodeConfig pBuilder = some (.ok (confDAG, pNodeMap)))
    (hreq : constructDAG confDAG rootNodes edges = some dag) :
    (∀ ops s os, (dispatchMachine pNodeMap dag).Runs new ops s os →
      (∃ ops' s' os', (dispatchMachine pNodeMap dag).Runs new (ops ++ ops') s' (os ++ os') ∧
        s'.Complete) ∧
      (s.Complete → ∀ b, os.count (.queue b) =
        ((inOf dag.mNodesVec b).items.map fun a => os.count (.queue a)).sum +
          if dag.mRootId ≠ BAD_ID ∧ b = dag.mRootId then 1 else 0)) ∧
    (QueuedOnce pNodeMap dag ↔ IsTree dag) := by
  have h := accepted_of_constructDAG hconfig hreq
  exact ⟨fun _ _ _ hrun => ⟨exists_complete h hrun, count_queue h hrun⟩,
    queuedOnce_iff_isTree h⟩

def fourNodes : NodeConfig :=
  (twoNodes.addNode ⟨3, .create, .create⟩).addNode ⟨4, .create, .create⟩

/-- The edges `1 → 2`, `1 → 3`, `2 → 4`, `3 → 4`. -/
def diamond : List Edge := [⟨1, 2⟩, ⟨1, 3⟩, ⟨2, 4⟩, ⟨3, 4⟩]

/-- The chain `1 → 2` is a tree. -/
theorem queuedOnce_iff_chain :
    ∃ confDAG pNodeMap dag,
      configure twoNodes ⟨[1], [⟨1, 2⟩]⟩ = some (.ok (confDAG, pNodeMap)) ∧
      constructDAG confDAG [1] [⟨1, 2⟩] = some dag ∧ QueuedOnce pNodeMap dag := by
  have hsome : (requestOf twoNodes ⟨[1], [⟨1, 2⟩]⟩ [1] [⟨1, 2⟩]).any (fun r =>
      r.2.mRootId = 1 ∧ ∀ b ∈ r.2.mNodesVec.keys,
        (inOf r.2.mNodesVec b).size = if b = r.2.mRootId then 0 else 1) = true := by
    decide
  obtain ⟨confDAG, pNodeMap, dag, hconfig, hdag, hroot, hsize⟩ := exists_of_requestOf hsome
  refine ⟨confDAG, pNodeMap, dag, hconfig, hdag, ?_⟩
  refine (queuedOnce_iff hconfig hdag).2.mpr ⟨?_, hsize⟩
  rw [hroot]
  decide

/-- The last node of a diamond is queued as soon as one of the two nodes ahead of it has
dispatched, and again after the other one has. -/
theorem diamond_not_queuedOnce :
    ∃ confDAG pNodeMap dag,
      configure fourNodes ⟨[1], diamond⟩ = some (.ok (confDAG, pNodeMap)) ∧
      constructDAG confDAG [1] diamond = some dag ∧
      (∃ ops s os, (dispatchMachine pNodeMap dag).Runs new ops s os ∧
        os.count (.queue 4) = 2 ∧ ¬ AfterAhead dag os) ∧
      ¬ QueuedOnce pNodeMap dag := by
  have hsome : (requestOf fourNodes ⟨[1], diamond⟩ [1] diamond).any (fun r =>
      r.2.mNodesVec.HasEdge 3 4 ∧
      (dispatchMachine r.1 r.2).observe new
          [.queue, .dispatch 1, .next 0, .next 0, .dispatch 2, .next 1, .dispatch 3, .next 2]
          (fun _ => ()) =
        some ((), [.queue 1, .dispatch 1, .queue 2, .queue 3, .dispatch 2, .queue 4, .dispatch 3,
          .queue 4])) = true := by
    decide
  obtain ⟨confDAG, pNodeMap, dag, hconfig, hdag, hedge, hobserve⟩ := exists_of_requestOf hsome
  obtain ⟨s, hrun, -⟩ := Machine.exists_run_of_observe hobserve
  have hnot : ¬ AfterAhead dag [.queue 1, .dispatch 1, .queue 2, .queue 3, .dispatch 2,
      .queue 4, .dispatch 3, .queue 4] := by
    intro hafter
    have hmem := hafter [.queue 1, .dispatch 1, .queue 2, .queue 3, .dispatch 2] 4
      [.dispatch 3, .queue 4] rfl 3 hedge
    simp at hmem
  exact ⟨confDAG, pNodeMap, dag, hconfig, hdag, ⟨_, s, _, hrun, by decide, hnot⟩,
    fun honce => hnot (honce _ _ _ hrun).1⟩

end Dispatch

end MtkHardware.Pipeline
