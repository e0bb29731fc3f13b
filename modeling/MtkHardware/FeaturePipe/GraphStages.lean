import Mathlib.Data.List.Sort
import MtkHardware.Util.Run

/-!
# Stages of Graphs

The nodes of a graph are initialized and started one after the other; where one of them fails, those
before it are taken back. `uninit` and `stop` go on whatever a node returns. The nodes have a stage
each, as the graph has, and do what they are called for in the right stage only.

`uninit`, `start` and `stop` look at the stage of the graph first. `init` only reports that the
graph is not idle, or has no root node, and goes on.
-/

namespace MtkHardware.FeaturePipe

/-- `CamGraph::Stage` and `CamNode::Stage`. -/
inductive Stage
  | idle
  | ready
  | running
  deriving DecidableEq, Repr

/-- `CamNode::HandlerEntry`. -/
structure HandlerEntry where
  mDstID : ℕ
  mHandler : Option ℕ

/-- `CamNode`. -/
structure CamNode where
  mStage : Stage := .idle
  mAllowDataFlow : Bool := true
  mHandlerMap : ℕ → Option HandlerEntry := fun _ => none
  mSourceSet : List ℕ := []

namespace CamNode

def connectData (node : CamNode) (src dst : ℕ) (handler : Option ℕ) : CamNode × Bool :=
  if node.mStage = .idle then
    let mHandlerMap := Function.update node.mHandlerMap src (some ⟨dst, handler⟩)
    ({ node with mHandlerMap }, true)
  else (node, false)

def registerInputDataID (node : CamNode) (id : ℕ) : CamNode × Bool :=
  if node.mStage = .idle then ({ node with mSourceSet := node.mSourceSet.insert id }, true)
  else (node, false)

def disconnect (node : CamNode) : CamNode × Bool :=
  if node.mStage = .idle then
    ({ node with mHandlerMap := fun _ => none, mSourceSet := [] }, true)
  else (node, false)

def setDataFlow (node : CamNode) (allow : Bool) : CamNode := { node with mAllowDataFlow := allow }

def init (node : CamNode) (onInit : Bool) : CamNode × Bool :=
  if node.mStage = .idle then
    if onInit then ({ node with mStage := .ready }, true) else (node, false)
  else (node, false)

def uninit (node : CamNode) : CamNode × Bool :=
  if node.mStage = .ready then ({ node with mStage := .idle }, true) else (node, false)

def start (node : CamNode) (onStart : Bool) : CamNode × Bool :=
  if node.mStage = .ready then
    if onStart then ({ node with mStage := .running }, true) else (node, false)
  else (node, false)

def stop (node : CamNode) : CamNode × Bool :=
  if node.mStage = .running then ({ node with mStage := .ready }, true) else (node, false)

end CamNode

/-- `CamGraph`, with all nodes that there are. The nodes of the graph are in the order of
`mNodes`. -/
structure StagedGraph where
  mStage : Stage := .idle
  mRootNode : Option ℕ := none
  mNodes : List ℕ := []
  mAllowDataFlow : Bool := true
  node : ℕ → CamNode := fun _ => {}

/-- The calls of a graph, with what the nodes return in the course of them. -/
inductive StageOp
  | setRootNode (rootNode : Option ℕ)
  | connectData (srcID dstID srcNode dstNode : ℕ)
  /-- `connectData` to a handler. -/
  | connectHandler (src dst node : ℕ) (handler : Option ℕ)
  | disconnect
  | setDataFlow (allow : Bool)
  | init (onInit : ℕ → Bool)
  | uninit
  | start (onStart : ℕ → Bool)
  | stop
  | enque (id : ℕ) (onData : Bool)

inductive StageEvent
  | returned (ret : Bool)
  | onData (node id : ℕ)
  deriving DecidableEq, Repr

/-- `mRootNode` is dereferenced, and is `NULL`. -/
inductive StageFault
  | nullRootNode
  deriving DecidableEq, Repr

namespace StagedGraph

/-- `mNodes.insert`. -/
def insert (s : StagedGraph) (n : ℕ) : StagedGraph :=
  if n ∈ s.mNodes then s else { s with mNodes := s.mNodes.orderedInsert (· ≤ ·) n }

def onNode (s : StagedGraph) (n : ℕ) (f : CamNode → CamNode) : StagedGraph :=
  { s with node := Function.update s.node n (f (s.node n)) }

def forEach (s : StagedGraph) (nodes : List ℕ) (f : CamNode → CamNode) : StagedGraph :=
  nodes.foldl (fun s n => s.onNode n f) s

/-- The loops of `init` and `start`: the nodes are called until one of them fails; those before it,
`done` with the last one first, are then undone. -/
def advance (call : ℕ → CamNode → CamNode × Bool) (undo : CamNode → CamNode) (done : List ℕ) :
    List ℕ → StagedGraph → StagedGraph × Bool
  | [], s => (s, true)
  | n :: nodes, s =>
    if (call n (s.node n)).2 then
      advance call undo (n :: done) nodes (s.onNode n fun node => (call n node).1)
    else ((s.onNode n fun node => (call n node).1).forEach done undo, false)

/-- The end of `init` and `start`: where no node has failed, the graph has a new stage. -/
def settle (stage : Stage) (r : StagedGraph × Bool) : StagedGraph × Bool :=
  if r.2 then ({ r.1 with mStage := stage }, true) else (r.1, false)

def setRootNode (s : StagedGraph) (rootNode : Option ℕ) : StagedGraph × Bool :=
  match rootNode with
  | some root =>
    if s.mStage = .idle then ({ s.insert root with mRootNode := some root }, true) else (s, false)
  | none => (s, false)

def connectData (s : StagedGraph) (srcID dstID srcNode dstNode : ℕ) : StagedGraph × Bool :=
  if s.mStage = .idle then
    let s := (s.insert srcNode).insert dstNode
    let ret := ((s.node srcNode).connectData srcID dstID (some dstNode)).2
    let s := s.onNode srcNode fun node => (node.connectData srcID dstID (some dstNode)).1
    if ret then (s.onNode dstNode fun node => (node.registerInputDataID dstID).1, true)
    else (s, false)
  else (s, false)

def connectHandler (s : StagedGraph) (src dst node : ℕ) (handler : Option ℕ) :
    StagedGraph × Bool :=
  if s.mStage = .idle then
    let s := s.insert node
    let ret := ((s.node node).connectData src dst handler).2
    (s.onNode node fun node => (node.connectData src dst handler).1, ret)
  else (s, false)

def disconnect (s : StagedGraph) : StagedGraph × Bool :=
  if s.mStage = .idle then
    ({ s.forEach s.mNodes (fun node => node.disconnect.1) with mRootNode := none, mNodes := [] },
      true)
  else (s, false)

def setFlow (s : StagedGraph) (flow : Bool) : StagedGraph :=
  s.forEach s.mNodes fun node => node.setDataFlow flow

def setDataFlow (s : StagedGraph) (allow : Bool) : StagedGraph :=
  let s := { s with mAllowDataFlow := allow }
  if s.mStage = .running then s.setFlow allow else s

/-- `init`. What it looks at first is only logged. -/
def init (s : StagedGraph) (onInit : ℕ → Bool) : StagedGraph × Bool :=
  settle .ready
    (s.advance (fun n node => node.init (onInit n)) (fun node => node.uninit.1) [] s.mNodes)

def uninit (s : StagedGraph) : StagedGraph × Bool :=
  if s.mStage = .ready then
    ({ s.forEach s.mNodes.reverse (fun node => node.uninit.1) with mStage := .idle }, true)
  else (s, false)

def start (s : StagedGraph) (onStart : ℕ → Bool) : StagedGraph × Bool :=
  if s.mStage = .ready then
    let s := s.setFlow s.mAllowDataFlow
    settle .running
      (s.advance (fun n node => node.start (onStart n)) (fun node => node.stop.1) [] s.mNodes)
  else (s, false)

/-- `stop`, once the nodes are in sync. -/
def stop (s : StagedGraph) : StagedGraph × Bool :=
  if s.mStage = .running then
    let s := s.setFlow false
    ({ s.forEach s.mNodes (fun node => node.stop.1) with mStage := .ready }, true)
  else (s, false)

def step (s : StagedGraph) : StageOp → Except StageFault (StagedGraph × List StageEvent)
  | .setRootNode rootNode =>
    .ok ((s.setRootNode rootNode).1, [.returned (s.setRootNode rootNode).2])
  | .connectData srcID dstID srcNode dstNode =>
    let r := s.connectData srcID dstID srcNode dstNode
    .ok (r.1, [.returned r.2])
  | .connectHandler src dst node handler =>
    let r := s.connectHandler src dst node handler
    .ok (r.1, [.returned r.2])
  | .disconnect => .ok (s.disconnect.1, [.returned s.disconnect.2])
  | .setDataFlow allow => .ok (s.setDataFlow allow, [])
  | .init onInit => .ok ((s.init onInit).1, [.returned (s.init onInit).2])
  | .uninit => .ok (s.uninit.1, [.returned s.uninit.2])
  | .start onStart => .ok ((s.start onStart).1, [.returned (s.start onStart).2])
  | .stop => .ok (s.stop.1, [.returned s.stop.2])
  | .enque id onData =>
    if s.mStage = .running then
      match s.mRootNode with
      | some root => .ok (s, [.onData root id, .returned onData])
      | none => .error .nullRootNode
    else .ok (s, [.returned false])

end StagedGraph

def stagedGraph : Machine StagedGraph StageOp StageEvent StageFault := StagedGraph.step

namespace CamNode

/-! ### Calls that leave the stage -/

theorem mStage_connectData (node : CamNode) (src dst : ℕ) (handler : Option ℕ) :
    (node.connectData src dst handler).1.mStage = node.mStage := by
  unfold connectData
  split_ifs <;> rfl

theorem mStage_registerInputDataID (node : CamNode) (id : ℕ) :
    (node.registerInputDataID id).1.mStage = node.mStage := by
  unfold registerInputDataID
  split_ifs <;> rfl

theorem mStage_disconnect (node : CamNode) : node.disconnect.1.mStage = node.mStage := by
  unfold disconnect
  split_ifs <;> rfl

end CamNode

namespace StagedGraph

variable {s s' : StagedGraph} {os o : List StageEvent} {op : StageOp} {n : ℕ}

/-! ### Calls of nodes -/

theorem mem_insert {n m : ℕ} : n ∈ (s.insert m).mNodes ↔ n = m ∨ n ∈ s.mNodes := by
  unfold insert
  split_ifs with hmem
  · exact ⟨.inr, fun h => h.elim (fun heq => heq ▸ hmem) id⟩
  · exact List.mem_orderedInsert ..

theorem nodup_insert (m : ℕ) (h : s.mNodes.Nodup) : (s.insert m).mNodes.Nodup := by
  unfold insert
  split_ifs with hmem
  · exact h
  · exact (List.perm_orderedInsert ..).nodup_iff.mpr (List.nodup_cons.mpr ⟨hmem, h⟩)

theorem insert_frame (m : ℕ) : (s.insert m).mStage = s.mStage ∧
    (s.insert m).mRootNode = s.mRootNode ∧ (s.insert m).node = s.node := by
  unfold insert
  split_ifs <;> exact ⟨rfl, rfl, rfl⟩

theorem mStage_onNode (m : ℕ) (f : CamNode → CamNode) (n : ℕ) :
    ((s.onNode m f).node n).mStage =
      if n = m then (f (s.node n)).mStage else (s.node n).mStage := by
  unfold onNode
  by_cases hnm : n = m
  · simp [hnm]
  · simp [hnm]

theorem forEach_frame (nodes : List ℕ) (f : CamNode → CamNode) :
    (s.forEach nodes f).mStage = s.mStage ∧ (s.forEach nodes f).mRootNode = s.mRootNode ∧
      (s.forEach nodes f).mNodes = s.mNodes := by
  unfold forEach
  induction nodes generalizing s with
  | nil => exact ⟨rfl, rfl, rfl⟩
  | cons m nodes ih => exact ih

theorem mStage_forEach {nodes : List ℕ} (hnodup : nodes.Nodup) (f : CamNode → CamNode) (n : ℕ) :
    ((s.forEach nodes f).node n).mStage =
      if n ∈ nodes then (f (s.node n)).mStage else (s.node n).mStage := by
  unfold forEach
  induction nodes generalizing s with
  | nil => simp
  | cons m nodes ih =>
    obtain ⟨hm, hnodup⟩ := List.nodup_cons.mp hnodup
    have hnode : n ≠ m → (s.onNode m f).node n = s.node n := by
      intro hnm
      simp [onNode, hnm]
    rw [List.foldl_cons, ih hnodup]
    by_cases hnm : n = m
    · rw [if_neg (hnm ▸ hm), if_pos (hnm ▸ List.mem_cons_self), mStage_onNode, if_pos hnm]
    · simp [hnode hnm, hnm]

theorem mStage_forEach_keep {f : CamNode → CamNode} (hf : ∀ node, (f node).mStage = node.mStage)
    (nodes : List ℕ) (n : ℕ) : ((s.forEach nodes f).node n).mStage = (s.node n).mStage := by
  unfold forEach
  induction nodes generalizing s with
  | nil => rfl
  | cons m nodes ih =>
    rw [List.foldl_cons, ih, mStage_onNode, hf, ite_self]

variable {call : ℕ → CamNode → CamNode × Bool} {undo : CamNode → CamNode} {ok : ℕ → Bool}
  {fromStage toStage : Stage}

theorem advance_frame (call : ℕ → CamNode → CamNode × Bool) (undo : CamNode → CamNode)
    (done nodes : List ℕ) :
    (s.advance call undo done nodes).1.mStage = s.mStage ∧
      (s.advance call undo done nodes).1.mRootNode = s.mRootNode ∧
      (s.advance call undo done nodes).1.mNodes = s.mNodes := by
  induction nodes generalizing s done with
  | nil => exact ⟨rfl, rfl, rfl⟩
  | cons m nodes ih =>
    rw [advance]
    split_ifs
    · exact ih (m :: done)
    · exact forEach_frame done undo

theorem advance_spec
    (hcall : ∀ n node, node.mStage = fromStage →
      (call n node).2 = ok n ∧ (call n node).1.mStage = if ok n then toStage else fromStage)
    (hundo : ∀ node, node.mStage = toStage → (undo node).mStage = fromStage)
    {done nodes : List ℕ} (hnodup : (done ++ nodes).Nodup)
    (hdone : ∀ n ∈ done, (s.node n).mStage = toStage)
    (hnodes : ∀ n ∈ nodes, (s.node n).mStage = fromStage) :
    (s.advance call undo done nodes).2 = nodes.all ok ∧
      ∀ n, ((s.advance call undo done nodes).1.node n).mStage =
        if n ∈ done ++ nodes then (if nodes.all ok then toStage else fromStage)
        else (s.node n).mStage := by
  induction nodes generalizing s done with
  | nil =>
    refine ⟨rfl, fun n => ?_⟩
    rw [List.append_nil]
    split_ifs with hmem hall
    · exact hdone n hmem
    · exact absurd rfl hall
    · rfl
  | cons m nodes ih =>
    obtain ⟨hret, hstage⟩ := hcall m _ (hnodes m List.mem_cons_self)
    have hperm : (done ++ m :: nodes).Perm (m :: done ++ nodes) := List.perm_middle
    obtain ⟨hmdone, -⟩ := List.nodup_cons.mp (hperm.nodup_iff.mp hnodup)
    have hne : ∀ n ∈ done ++ nodes, n ≠ m := by
      rintro n hmem rfl
      exact hmdone hmem
    rw [advance, hret, List.all_cons]
    cases hok : ok m with
    | true =>
      rw [hok, if_pos rfl] at hstage
      rw [if_pos rfl, Bool.true_and]
      have hdone' : ∀ n ∈ m :: done,
          ((s.onNode m fun node => (call m node).1).node n).mStage = toStage := by
        refine List.forall_mem_cons.mpr ⟨by rw [mStage_onNode, if_pos rfl, hstage], ?_⟩
        intro n hmem
        rw [mStage_onNode, if_neg (hne n (List.mem_append_left _ hmem)), hdone n hmem]
      have hnodes' : ∀ n ∈ nodes,
          ((s.onNode m fun node => (call m node).1).node n).mStage = fromStage := by
        intro n hmem
        rw [mStage_onNode, if_neg (hne n (List.mem_append_right _ hmem)),
          hnodes n (List.mem_cons_of_mem _ hmem)]
      obtain ⟨hall, hstages⟩ := ih (hperm.nodup_iff.mp hnodup) hdone' hnodes'
      refine ⟨hall, fun n => ?_⟩
      rw [hstages, mStage_onNode]
      by_cases hmem : n ∈ done ++ m :: nodes
      · rw [if_pos hmem, if_pos (hperm.mem_iff.mp hmem)]
      · have hnm : n ≠ m := fun heq => hmem (by simp [heq])
        rw [if_neg hmem, if_neg fun h => hmem (hperm.mem_iff.mpr h), if_neg hnm]
    | false =>
      rw [hok] at hstage
      simp only [Bool.false_eq_true, if_false, Bool.false_and] at hstage ⊢
      refine ⟨trivial, fun n => ?_⟩
      have hdnodup : done.Nodup := (List.nodup_append.mp hnodup).1
      rw [mStage_forEach hdnodup]
      by_cases hmem : n ∈ done
      · have hnode : ((s.onNode m fun node => (call m node).1).node n) = s.node n := by
          simp [onNode, hne n (List.mem_append_left _ hmem)]
        rw [if_pos hmem, if_pos (List.mem_append_left _ hmem), hnode,
          hundo _ (hdone n hmem)]
      · rw [if_neg hmem, mStage_onNode]
        by_cases hnm : n = m
        · rw [if_pos hnm, if_pos (by simp [hnm]), hnm]
          exact hstage
        · rw [if_neg hnm]
          split_ifs with happ
          · exact hnodes n ((List.mem_append.mp happ).resolve_left hmem)
          · rfl

theorem advance_all
    (hcall : ∀ n node, node.mStage = fromStage →
      (call n node).2 = ok n ∧ (call n node).1.mStage = if ok n then toStage else fromStage)
    (hundo : ∀ node, node.mStage = toStage → (undo node).mStage = fromStage)
    {nodes : List ℕ} (hnodup : nodes.Nodup) (hnodes : ∀ n ∈ nodes, (s.node n).mStage = fromStage) :
    (s.advance call undo [] nodes).2 = nodes.all ok ∧
      ∀ n, ((s.advance call undo [] nodes).1.node n).mStage =
        if n ∈ nodes then (if nodes.all ok then toStage else fromStage)
        else (s.node n).mStage :=
  advance_spec hcall hundo (List.nil_append nodes ▸ hnodup) nofun hnodes

/-! ### Stages -/

structure InStep (s : StagedGraph) : Prop where
  nodup : s.mNodes.Nodup
  root : ∀ r, s.mRootNode = some r → r ∈ s.mNodes
  mStage : ∀ n, (s.node n).mStage = if n ∈ s.mNodes then s.mStage else .idle

theorem InStep.idle (h : s.InStep) (hidle : s.mStage = .idle) (n : ℕ) :
    (s.node n).mStage = .idle := by
  rw [h.mStage, hidle, ite_self]

theorem InStep.of_idle (hnodup : s'.mNodes.Nodup)
    (hroot : ∀ r, s'.mRootNode = some r → r ∈ s'.mNodes) (hidle : s'.mStage = .idle)
    (hnodes : ∀ n, (s'.node n).mStage = .idle) : s'.InStep :=
  ⟨hnodup, hroot, fun n => by rw [hnodes, hidle, ite_self]⟩

theorem InStep.keep (h : s.InStep) (hnodes : s'.mNodes = s.mNodes)
    (hroot : s'.mRootNode = s.mRootNode)
    (hstage : ∀ n, (s'.node n).mStage = if n ∈ s.mNodes then s'.mStage else .idle) : s'.InStep :=
  ⟨hnodes ▸ h.nodup, by rw [hnodes, hroot]; exact h.root, by rw [hnodes]; exact hstage⟩

theorem onNode_eq_self {f : CamNode → CamNode} (h : f (s.node n) = s.node n) :
    s.onNode n f = s := by
  rw [onNode, h, Function.update_eq_self]

theorem InStep.setRootNode (h : s.InStep) (rootNode : Option ℕ) :
    (s.setRootNode rootNode).1.InStep := by
  unfold StagedGraph.setRootNode
  split
  · rename_i root
    split_ifs with hidle
    · obtain ⟨hstage, -, hnode⟩ := s.insert_frame root
      refine .of_idle (nodup_insert root h.nodup) (fun r hr => ?_) (hstage.trans hidle) fun n => ?_
      · obtain rfl := Option.some.inj hr
        exact mem_insert.mpr (.inl rfl)
      · change ((s.insert root).node n).mStage = .idle
        rw [hnode, h.idle hidle]
    · exact h
  · exact h

theorem InStep.insert (h : s.InStep) (hidle : s.mStage = .idle) (m : ℕ) :
    (s.insert m).InStep := by
  obtain ⟨hstage, hroot, hnode⟩ := s.insert_frame m
  refine .of_idle (nodup_insert m h.nodup) (fun r hr => ?_) (hstage.trans hidle) fun n => ?_
  · rw [hroot] at hr
    exact mem_insert.mpr (.inr (h.root r hr))
  · rw [hnode, h.idle hidle]

theorem InStep.onNode (h : s.InStep) {f : CamNode → CamNode}
    (hf : ∀ node, (f node).mStage = node.mStage) (m : ℕ) : (s.onNode m f).InStep :=
  h.keep rfl rfl fun n => by rw [mStage_onNode, hf, ite_self, h.mStage]; rfl

theorem InStep.connectData (h : s.InStep) (srcID dstID srcNode dstNode : ℕ) :
    (s.connectData srcID dstID srcNode dstNode).1.InStep := by
  unfold StagedGraph.connectData
  split_ifs with hidle
  · have hsrc := h.insert hidle srcNode
    have hdst := hsrc.insert ((s.insert_frame srcNode).1.trans hidle) dstNode
    have hconnect := hdst.onNode
      (fun node => node.mStage_connectData srcID dstID (some dstNode)) srcNode
    dsimp only
    split_ifs
    · exact hconnect.onNode (fun node => node.mStage_registerInputDataID dstID) dstNode
    · exact hconnect
  · exact h

theorem InStep.connectHandler (h : s.InStep) (src dst node : ℕ) (handler : Option ℕ) :
    (s.connectHandler src dst node handler).1.InStep := by
  unfold StagedGraph.connectHandler
  split_ifs with hidle
  · exact (h.insert hidle node).onNode (fun n => n.mStage_connectData src dst handler) node
  · exact h

theorem InStep.disconnect (h : s.InStep) : s.disconnect.1.InStep := by
  unfold StagedGraph.disconnect
  split_ifs with hidle
  · refine .of_idle List.nodup_nil nofun ?_ fun n => ?_
    · exact (forEach_frame s.mNodes fun node => node.disconnect.1).1.trans hidle
    · change ((s.forEach s.mNodes fun node => node.disconnect.1).node n).mStage = .idle
      rw [mStage_forEach_keep (fun node => node.mStage_disconnect), h.idle hidle]
  · exact h

theorem setFlow_frame (flow : Bool) : (s.setFlow flow).mStage = s.mStage ∧
    (s.setFlow flow).mRootNode = s.mRootNode ∧ (s.setFlow flow).mNodes = s.mNodes :=
  forEach_frame ..

theorem mStage_setFlow (flow : Bool) (n : ℕ) :
    ((s.setFlow flow).node n).mStage = (s.node n).mStage :=
  mStage_forEach_keep (f := fun node => node.setDataFlow flow) (fun _ => rfl) s.mNodes n

theorem InStep.setFlow (h : s.InStep) (flow : Bool) : (s.setFlow flow).InStep := by
  obtain ⟨hstage, hroot, hnodes⟩ := s.setFlow_frame flow
  refine h.keep hnodes hroot fun n => ?_
  rw [mStage_setFlow, hstage, h.mStage]

theorem InStep.setDataFlow (h : s.InStep) (allow : Bool) : (s.setDataFlow allow).InStep := by
  have hallow : ({ s with mAllowDataFlow := allow } : StagedGraph).InStep :=
    h.keep rfl rfl h.mStage
  unfold StagedGraph.setDataFlow
  dsimp only
  split_ifs
  · exact hallow.setFlow allow
  · exact hallow

theorem InStep.uninit (h : s.InStep) : s.uninit.1.InStep := by
  unfold StagedGraph.uninit
  split_ifs with hready
  · obtain ⟨-, hroot, hnodes⟩ := s.forEach_frame s.mNodes.reverse fun node => node.uninit.1
    refine h.keep hnodes hroot fun n => ?_
    change ((s.forEach s.mNodes.reverse fun node => node.uninit.1).node n).mStage = _
    rw [mStage_forEach (List.nodup_reverse.mpr h.nodup), h.mStage, ite_self]
    by_cases hmem : n ∈ s.mNodes
    · have hstage : (s.node n).mStage = .ready := by rw [h.mStage, if_pos hmem, hready]
      rw [if_pos (List.mem_reverse.mpr hmem), CamNode.uninit, if_pos hstage]
    · rw [if_neg fun hrev => hmem (List.mem_reverse.mp hrev), if_neg hmem]
  · exact h

theorem InStep.stop (h : s.InStep) : s.stop.1.InStep := by
  unfold StagedGraph.stop
  split_ifs with hrunning
  · have hflow := h.setFlow false
    obtain ⟨hstage, -, hsame⟩ := s.setFlow_frame false
    obtain ⟨-, hroot, hnodes⟩ :=
      (s.setFlow false).forEach_frame (s.setFlow false).mNodes fun node => node.stop.1
    refine hflow.keep hnodes hroot fun n => ?_
    change (((s.setFlow false).forEach (s.setFlow false).mNodes fun node =>
      node.stop.1).node n).mStage = _
    rw [mStage_forEach hflow.nodup, hflow.mStage]
    split_ifs with hmem
    · have hrun : ((s.setFlow false).node n).mStage = .running := by
        rw [hflow.mStage, if_pos hmem, hstage, hrunning]
      rw [CamNode.stop, if_pos hrun]
    · rfl
  · exact h

/-- The new stage is all that the end of `init` and `start` changes. -/
theorem settle_spec (stage : Stage) (r : StagedGraph × Bool) :
    (settle stage r).2 = r.2 ∧ (settle stage r).1.node = r.1.node ∧
      (settle stage r).1.mRootNode = r.1.mRootNode ∧ (settle stage r).1.mNodes = r.1.mNodes ∧
      (settle stage r).1.mStage = if r.2 then stage else r.1.mStage := by
  obtain ⟨s, ret⟩ := r
  cases ret <;> exact ⟨rfl, rfl, rfl, rfl, rfl⟩

theorem init_frame (onInit : ℕ → Bool) : (s.init onInit).1.mRootNode = s.mRootNode ∧
    (s.init onInit).1.mNodes = s.mNodes ∧
      (s.init onInit).1.mStage = if (s.init onInit).2 then .ready else s.mStage := by
  obtain ⟨hstage, hroot, hnodes⟩ := s.advance_frame
    (fun n node => node.init (onInit n)) (fun node => node.uninit.1) [] s.mNodes
  obtain ⟨hret, -, hroot', hnodes', hstage'⟩ := settle_spec .ready
    (s.advance (fun n node => node.init (onInit n)) (fun node => node.uninit.1) [] s.mNodes)
  rw [hstage, ← hret] at hstage'
  exact ⟨hroot'.trans hroot, hnodes'.trans hnodes, hstage'⟩

theorem InStep.init_of_not_idle (h : s.InStep) (hidle : s.mStage ≠ .idle) (onInit : ℕ → Bool) :
    s.init onInit = (s, false) ∨
      s.mNodes = [] ∧ s.init onInit = ({ s with mStage := .ready }, true) := by
  unfold StagedGraph.init
  cases hnodes : s.mNodes with
  | nil => exact .inr ⟨rfl, by simp [advance, settle, hnodes]⟩
  | cons m nodes =>
    have hstage : (s.node m).mStage ≠ .idle := by
      rw [h.mStage, hnodes, if_pos List.mem_cons_self]
      exact hidle
    have hcall : (s.node m).init (onInit m) = (s.node m, false) := by
      rw [CamNode.init, if_neg hstage]
    left
    simp only [advance, hcall, Bool.false_eq_true, if_false]
    rw [onNode_eq_self (by rw [hcall])]
    rfl

/-- The nodes of an idle graph are all ready after `init`, or all idle. -/
theorem InStep.init_of_idle (h : s.InStep) (hidle : s.mStage = .idle) (onInit : ℕ → Bool)
    (n : ℕ) : ((s.init onInit).1.node n).mStage =
      if n ∈ s.mNodes then (if (s.init onInit).2 then .ready else .idle) else .idle := by
  have hcall : ∀ n (node : CamNode), node.mStage = .idle → (node.init (onInit n)).2 = onInit n ∧
      (node.init (onInit n)).1.mStage = if onInit n then .ready else .idle := by
    intro n node hnode
    rw [CamNode.init, if_pos hnode]
    cases onInit n with
    | true => exact ⟨rfl, rfl⟩
    | false => exact ⟨rfl, hnode⟩
  have hundo : ∀ node : CamNode, node.mStage = .ready → node.uninit.1.mStage = .idle := by
    intro node hnode
    rw [CamNode.uninit, if_pos hnode]
  obtain ⟨hret, hstages⟩ := advance_all hcall hundo h.nodup fun n _ => h.idle hidle n
  obtain ⟨hret', hnode, -⟩ := settle_spec .ready
    (s.advance (fun n node => node.init (onInit n)) (fun node => node.uninit.1) [] s.mNodes)
  rw [StagedGraph.init, hnode, hret', hret, hstages, h.idle hidle]

theorem InStep.init (h : s.InStep) (onInit : ℕ → Bool) : (s.init onInit).1.InStep := by
  by_cases hidle : s.mStage = .idle
  · obtain ⟨hroot, hnodes, hstage⟩ := s.init_frame onInit
    refine h.keep hnodes hroot fun n => ?_
    rw [h.init_of_idle hidle onInit, hstage, hidle]
  · obtain hinit | ⟨hnil, hinit⟩ := h.init_of_not_idle hidle onInit
    · rwa [hinit]
    · rw [hinit]
      refine h.keep rfl rfl fun n => ?_
      change (s.node n).mStage = _
      rw [h.mStage, hnil]
      rfl

theorem start_frame (onStart : ℕ → Bool) : (s.start onStart).1.mRootNode = s.mRootNode ∧
    (s.start onStart).1.mNodes = s.mNodes ∧
      (s.start onStart).1.mStage = if (s.start onStart).2 then .running else s.mStage := by
  unfold StagedGraph.start
  by_cases hready : s.mStage = .ready
  · rw [if_pos hready]
    obtain ⟨hstage, hroot, hnodes⟩ := s.setFlow_frame s.mAllowDataFlow
    generalize s.setFlow s.mAllowDataFlow = t at hstage hroot hnodes
    obtain ⟨hstage', hroot', hnodes'⟩ := t.advance_frame
      (fun n node => node.start (onStart n)) (fun node => node.stop.1) [] t.mNodes
    obtain ⟨hret, -, hroot'', hnodes'', hstage''⟩ := settle_spec .running
      (t.advance (fun n node => node.start (onStart n)) (fun node => node.stop.1) [] t.mNodes)
    rw [hstage', hstage, ← hret] at hstage''
    exact ⟨hroot''.trans (hroot'.trans hroot), hnodes''.trans (hnodes'.trans hnodes), hstage''⟩
  · rw [if_neg hready]
    exact ⟨rfl, rfl, rfl⟩

/-- The nodes of a graph that is ready are all running after `start`, or all ready. -/
theorem InStep.start_of_ready (h : s.InStep) (hready : s.mStage = .ready) (onStart : ℕ → Bool) :
    (s.start onStart).2 = s.mNodes.all onStart ∧ ∀ n, ((s.start onStart).1.node n).mStage =
      if n ∈ s.mNodes then (if (s.start onStart).2 then .running else .ready) else .idle := by
  have hcall : ∀ n (node : CamNode), node.mStage = .ready →
      (node.start (onStart n)).2 = onStart n ∧
        (node.start (onStart n)).1.mStage = if onStart n then .running else .ready := by
    intro n node hnode
    rw [CamNode.start, if_pos hnode]
    cases onStart n with
    | true => exact ⟨rfl, rfl⟩
    | false => exact ⟨rfl, hnode⟩
  have hundo : ∀ node : CamNode, node.mStage = .running → node.stop.1.mStage = .ready := by
    intro node hnode
    rw [CamNode.stop, if_pos hnode]
  have hflow := h.setFlow s.mAllowDataFlow
  obtain ⟨hstage, -, hnodes⟩ := s.setFlow_frame s.mAllowDataFlow
  unfold StagedGraph.start
  rw [if_pos hready]
  generalize s.setFlow s.mAllowDataFlow = t at hflow hstage hnodes
  have hnodes' : ∀ n ∈ t.mNodes, (t.node n).mStage = .ready := by
    intro n hmem
    rw [hflow.mStage, if_pos hmem, hstage, hready]
  obtain ⟨hret, hstages⟩ := advance_all hcall hundo hflow.nodup hnodes'
  obtain ⟨hret', hnode, -⟩ := settle_spec .running
    (t.advance (fun n node => node.start (onStart n)) (fun node => node.stop.1) [] t.mNodes)
  dsimp only
  rw [← hnodes, hret', hret, hnode]
  refine ⟨rfl, fun n => ?_⟩
  rw [hstages, hflow.mStage]
  split_ifs <;> rfl

theorem InStep.start (h : s.InStep) (onStart : ℕ → Bool) : (s.start onStart).1.InStep := by
  by_cases hready : s.mStage = .ready
  · obtain ⟨hroot, hnodes, hstage⟩ := s.start_frame onStart
    refine h.keep hnodes hroot fun n => ?_
    rw [(h.start_of_ready hready onStart).2, hstage, hready]
  · rwa [StagedGraph.start, if_neg hready]

theorem InStep.step (h : s.InStep) (hstep : s.step op = .ok (s', o)) : s'.InStep := by
  cases op with
  | setRootNode rootNode =>
    cases hstep
    exact h.setRootNode rootNode
  | connectData srcID dstID srcNode dstNode =>
    cases hstep
    exact h.connectData srcID dstID srcNode dstNode
  | connectHandler src dst node handler =>
    cases hstep
    exact h.connectHandler src dst node handler
  | disconnect =>
    cases hstep
    exact h.disconnect
  | setDataFlow allow =>
    cases hstep
    exact h.setDataFlow allow
  | init onInit =>
    cases hstep
    exact h.init onInit
  | uninit =>
    cases hstep
    exact h.uninit
  | start onStart =>
    cases hstep
    exact h.start onStart
  | stop =>
    cases hstep
    exact h.stop
  | enque id onData =>
    simp only [StagedGraph.step] at hstep
    split_ifs at hstep
    · split at hstep
      · cases hstep
        exact h
      · cases hstep
    · cases hstep
      exact h

/-! ### Coherence -/

structure Staged (s : StagedGraph) : Prop where
  stage : ∀ stage, s.mNodes ≠ [] →
    (s.mStage = stage ↔ ∀ n ∈ s.mNodes, (s.node n).mStage = stage)
  init_failed : ∀ onInit s', s.step (.init onInit) = .ok (s', [.returned false]) →
    ∀ n, (s'.node n).mStage = (s.node n).mStage
  start_failed : ∀ onStart s', s.step (.start onStart) = .ok (s', [.returned false]) →
    ∀ n, (s'.node n).mStage = (s.node n).mStage

structure Coherent (s : StagedGraph) : Prop extends s.Staged where
  root : s.mStage = .running → ∃ root ∈ s.mNodes, s.mRootNode = some root
  enque : ∀ id onData, s.step (.enque id onData) ≠ .error .nullRootNode

def StartsRooted (s : StagedGraph) : StageOp → Prop
  | .start onStart =>
    s.mStage = .ready → s.mRootNode = none → ∃ n ∈ s.mNodes, onStart n = false
  | _ => True

instance (s : StagedGraph) (op : StageOp) : Decidable (s.StartsRooted op) := by
  cases op <;> unfold StartsRooted <;> infer_instance

theorem InStep.staged (h : s.InStep) : s.Staged where
  stage stage hne := by
    constructor
    · rintro rfl n hmem
      rw [h.mStage, if_pos hmem]
    · intro hall
      obtain ⟨n, hmem⟩ := List.exists_mem_of_ne_nil _ hne
      rw [← hall n hmem, h.mStage, if_pos hmem]
  init_failed onInit s' hstep n := by
    obtain ⟨rfl, hret⟩ := Prod.ext_iff.mp (Except.ok.inj hstep)
    have hret : (s.init onInit).2 = false := by simpa using hret
    obtain ⟨-, hnodes, hstage⟩ := s.init_frame onInit
    rw [(h.init onInit).mStage, h.mStage, hnodes, hstage, hret]
    rfl
  start_failed onStart s' hstep n := by
    obtain ⟨rfl, hret⟩ := Prod.ext_iff.mp (Except.ok.inj hstep)
    have hret : (s.start onStart).2 = false := by simpa using hret
    obtain ⟨-, hnodes, hstage⟩ := s.start_frame onStart
    rw [(h.start onStart).mStage, h.mStage, hnodes, hstage, hret]
    rfl

def HasRoot (s : StagedGraph) : Prop := s.mStage = .running → s.mRootNode ≠ none

theorem InStep.coherent_iff_hasRoot (h : s.InStep) : s.Coherent ↔ s.HasRoot := by
  constructor
  · intro hcoherent hrunning hnone
    obtain ⟨root, -, hroot⟩ := hcoherent.root hrunning
    rw [hnone] at hroot
    cases hroot
  · intro hroot
    refine ⟨h.staged, fun hrunning => ?_, fun id onData => ?_⟩
    · obtain ⟨root, hsome⟩ := Option.ne_none_iff_exists'.mp (hroot hrunning)
      exact ⟨root, h.root root hsome, hsome⟩
    · simp only [StagedGraph.step]
      split_ifs with hrunning
      · obtain ⟨root, hsome⟩ := Option.ne_none_iff_exists'.mp (hroot hrunning)
        simp [hsome]
      · simp

theorem HasRoot.keep (h : s.HasRoot)
    (hroot : s'.mStage = .running → s.mStage = .running ∧ s'.mRootNode = s.mRootNode) :
    s'.HasRoot := by
  intro hrunning
  obtain ⟨hrunning, hsame⟩ := hroot hrunning
  rw [hsame]
  exact h hrunning

theorem connectData_frame (srcID dstID srcNode dstNode : ℕ) :
    (s.connectData srcID dstID srcNode dstNode).1.mStage = s.mStage ∧
      (s.connectData srcID dstID srcNode dstNode).1.mRootNode = s.mRootNode := by
  obtain ⟨hstage, hroot, -⟩ := s.insert_frame srcNode
  obtain ⟨hstage', hroot', -⟩ := (s.insert srcNode).insert_frame dstNode
  unfold StagedGraph.connectData
  dsimp only
  split_ifs
  · exact ⟨hstage'.trans hstage, hroot'.trans hroot⟩
  · exact ⟨hstage'.trans hstage, hroot'.trans hroot⟩
  · exact ⟨rfl, rfl⟩

theorem connectHandler_frame (src dst node : ℕ) (handler : Option ℕ) :
    (s.connectHandler src dst node handler).1.mStage = s.mStage ∧
      (s.connectHandler src dst node handler).1.mRootNode = s.mRootNode := by
  obtain ⟨hstage, hroot, -⟩ := s.insert_frame node
  unfold StagedGraph.connectHandler
  split_ifs
  · exact ⟨hstage, hroot⟩
  · exact ⟨rfl, rfl⟩

theorem setDataFlow_frame (allow : Bool) : (s.setDataFlow allow).mStage = s.mStage ∧
    (s.setDataFlow allow).mRootNode = s.mRootNode := by
  obtain ⟨hstage, hroot, -⟩ :=
    ({ s with mAllowDataFlow := allow } : StagedGraph).setFlow_frame allow
  unfold StagedGraph.setDataFlow
  dsimp only
  split_ifs
  · exact ⟨hstage, hroot⟩
  · exact ⟨rfl, rfl⟩

/-- **Every step** keeps the root node of a running graph exactly when it starts no graph that has
none. -/
theorem hasRoot_step_iff (h : s.InStep) (hroot : s.HasRoot) (hstep : s.step op = .ok (s', o)) :
    s'.HasRoot ↔ s.StartsRooted op := by
  cases op with
  | setRootNode rootNode =>
    refine iff_of_true ?_ trivial
    cases hstep
    cases rootNode with
    | none => exact hroot
    | some root =>
      unfold setRootNode
      dsimp only
      split_ifs
      · exact fun _ => nofun
      · exact hroot
  | connectData srcID dstID srcNode dstNode =>
    refine iff_of_true ?_ trivial
    cases hstep
    obtain ⟨hstage, hsame⟩ := s.connectData_frame srcID dstID srcNode dstNode
    exact hroot.keep fun hrunning => ⟨hstage ▸ hrunning, hsame⟩
  | connectHandler src dst node handler =>
    refine iff_of_true ?_ trivial
    cases hstep
    obtain ⟨hstage, hsame⟩ := s.connectHandler_frame src dst node handler
    exact hroot.keep fun hrunning => ⟨hstage ▸ hrunning, hsame⟩
  | disconnect =>
    refine iff_of_true ?_ trivial
    cases hstep
    unfold disconnect
    split_ifs with hidle
    · have hstage := (s.forEach_frame s.mNodes fun node => node.disconnect.1).1
      refine hroot.keep fun hrunning => ?_
      have hrunning : (s.forEach s.mNodes fun node => node.disconnect.1).mStage = .running :=
        hrunning
      rw [hstage, hidle] at hrunning
      cases hrunning
    · exact hroot
  | setDataFlow allow =>
    refine iff_of_true ?_ trivial
    cases hstep
    obtain ⟨hstage, hsame⟩ := s.setDataFlow_frame allow
    exact hroot.keep fun hrunning => ⟨hstage ▸ hrunning, hsame⟩
  | init onInit =>
    refine iff_of_true ?_ trivial
    cases hstep
    obtain ⟨hsame, -, hstage⟩ := s.init_frame onInit
    refine hroot.keep fun hrunning => ?_
    rw [hstage] at hrunning
    split_ifs at hrunning
    exact ⟨hrunning, hsame⟩
  | uninit =>
    refine iff_of_true ?_ trivial
    cases hstep
    unfold uninit
    split_ifs
    · exact nofun
    · exact hroot
  | start onStart =>
    cases hstep
    obtain ⟨hsame, -, hstage⟩ := s.start_frame onStart
    by_cases hready : s.mStage = .ready
    · obtain ⟨hret, -⟩ := h.start_of_ready hready onStart
      rw [HasRoot, hstage, hsame, hret, StartsRooted, forall_prop_of_true hready, hready]
      cases hall : s.mNodes.all onStart with
      | true =>
        simp only [List.all_eq_true] at hall
        simp only [if_true, forall_const]
        refine ⟨fun hne hnone => absurd hnone hne, fun hcond hnone => ?_⟩
        obtain ⟨n, hmem, hfalse⟩ := hcond hnone
        rw [hall n hmem] at hfalse
        cases hfalse
      | false =>
        simp only [List.all_eq_false, Bool.not_eq_true] at hall
        exact iff_of_true (by simp) fun _ => hall
    · refine iff_of_true ?_ fun h => absurd h hready
      rwa [StagedGraph.start, if_neg hready]
  | stop =>
    refine iff_of_true ?_ trivial
    cases hstep
    unfold stop
    split_ifs
    · exact nofun
    · exact hroot
  | enque id onData =>
    refine iff_of_true ?_ trivial
    simp only [StagedGraph.step] at hstep
    split_ifs at hstep
    · split at hstep
      · cases hstep
        exact hroot
      · cases hstep
    · cases hstep
      exact hroot

/-! ### Runs -/

variable {ops : List StageOp}

theorem inStep_create : ({} : StagedGraph).InStep := ⟨List.nodup_nil, nofun, fun _ => rfl⟩

theorem inStep_of_runs (hrun : stagedGraph.Runs {} ops s os) : s.InStep :=
  hrun.invariant (I := fun _ s _ => s.InStep) inStep_create fun _ _ _ _ _ _ h hstep => h.step hstep

/-- **The stages are coherent** in every run, and the root node is there when the graph runs exactly
in the runs in which no graph without one is started. -/
theorem stages_coherent_iff (hrun : stagedGraph.Runs {} ops s os) :
    s.Staged ∧ ((∀ ops₁ ops₂ s₁ os₁, ops = ops₁ ++ ops₂ → stagedGraph.Runs {} ops₁ s₁ os₁ →
      s₁.Coherent) ↔ stagedGraph.RunsMeeting (fun _ => StartsRooted) {} ops s os) := by
  refine ⟨(inStep_of_runs hrun).staged, ?_⟩
  refine (Machine.Runs.meeting_iff (I := fun _ => Coherent)
    (inStep_create.coherent_iff_hasRoot.mpr nofun)
    (fun ops s os op s' o hrun hcoherent hstep => ?_) hrun).symm
  have h := inStep_of_runs hrun
  rw [(h.step hstep).coherent_iff_hasRoot]
  exact hasRoot_step_iff h (h.coherent_iff_hasRoot.mp hcoherent) hstep

/-- A graph of two nodes, the second of which is first not initialized. -/
def twoNodeOps : List StageOp :=
  [.connectData 0 0 5 7, .setRootNode (some 5), .init (· == 5), .init fun _ => true,
    .start fun _ => true, .enque 0 true, .stop, .uninit]

theorem stages_coherent_iff_twoNode : ∃ s os, stagedGraph.Runs {} twoNodeOps s os ∧
    os = [.returned true, .returned true, .returned false, .returned true, .returned true,
      .onData 5 0, .returned true, .returned true, .returned true] ∧ s.Staged ∧
    ∀ ops₁ ops₂ s₁ os₁, twoNodeOps = ops₁ ++ ops₂ → stagedGraph.Runs {} ops₁ s₁ os₁ →
      s₁.Coherent := by
  obtain ⟨s, os, hrun, hos⟩ : ∃ s os, stagedGraph.Runs {} twoNodeOps s os ∧
      os = [.returned true, .returned true, .returned false, .returned true, .returned true,
        .onData 5 0, .returned true, .returned true, .returned true] :=
    Machine.exists_run_of_shows (by decide +kernel)
  obtain ⟨hstaged, hiff⟩ := stages_coherent_iff hrun
  exact ⟨s, os, hrun, hos, hstaged, hiff.mpr (hrun.meeting (by decide +kernel))⟩

/-- A graph whose root node has not been set is initialized and started all the same. -/
theorem startWithoutRoot_runs : ¬ ∀ ops s os, stagedGraph.Runs {} ops s os → s.Coherent := by
  obtain ⟨s, os, hrun, hrunning, hnone⟩ : ∃ s os,
      stagedGraph.Runs {} [.connectHandler 0 0 5 none, .init fun _ => true, .start fun _ => true] s
        os ∧ s.mStage = .running ∧ s.mRootNode = none :=
    Machine.exists_run_of_shows (by decide +kernel)
  intro hall
  obtain ⟨root, -, hroot⟩ := (hall _ s os hrun).root hrunning
  rw [hnone] at hroot
  cases hroot

end StagedGraph

end MtkHardware.FeaturePipe
