import MtkHardware.Pipeline.DagToposort
import MtkHardware.Util.Run

/-!
# Histories of the Pipeline Graph

A graph is created empty and then edited, cloned and sorted by any sequence of calls. Two
things can go wrong on the way. A node that is added again under its id loses its edges, and
its neighbours keep them. And the topological order that `getToposort` keeps is never
cleared, so that it outlives the graph it was computed from.
-/

namespace MtkHardware.Pipeline

open NodeMap

/-- A call on a graph. The history of a clone is that of its original up to the `clone`, and
its own from there. -/
inductive DagOp
  | addNode (id : NodeId) (val : NodeVal)
  | removeNode (id : NodeId)
  | addEdge (id_src id_dst : NodeId)
  | removeEdge (id_src id_dst : NodeId)
  | setRootNode (id : NodeId)
  | setNodeValue (id : NodeId) (val : NodeVal)
  | clone
  | cloneOf (ids : NodeIdSet)
  | getToposort
  | getTopological

inductive DagEvent
  | returned (err : MERROR)
  /-- Is there a clone? -/
  | cloned (made : Bool)
  | toposort (rToposort : List NodeObj)
  | topological (err : MERROR) (result : List NodeObj)
  deriving DecidableEq, Repr

/-- A call accesses the entry of a node that is not there. -/
inductive DagFault
  | missingNode
  deriving DecidableEq, Repr

namespace PipelineDAG

variable {dag dag' : PipelineDAG} {op : DagOp} {ops : List DagOp} {o os : List DagEvent}
  {ids : List NodeId}

def dagMachine : Machine PipelineDAG DagOp DagEvent DagFault := fun dag op =>
  let returned (r : PipelineDAG × MERROR) : Except DagFault (PipelineDAG × List DagEvent) :=
    .ok (r.1, [.returned r.2])
  match op with
  | .addNode id val => returned (dag.addNode id val)
  | .removeNode id =>
    match dag.removeNode id with
    | none => .error .missingNode
    | some r => returned r
  | .addEdge id_src id_dst => returned (dag.addEdge id_src id_dst)
  | .removeEdge id_src id_dst => returned (dag.removeEdge id_src id_dst)
  | .setRootNode id => returned (dag.setRootNode id)
  | .setNodeValue id val => returned (dag.setNodeValue id val)
  | .clone => .ok (dag.clone, [.cloned true])
  | .cloneOf ids =>
    match dag.cloneOf ids with
    | none => .error .missingNode
    | some none => .ok (dag, [.cloned false])
    | some (some dag) => .ok (dag, [.cloned true])
  | .getToposort =>
    match dag.getToposort with
    | none => .error .missingNode
    | some (dag, rToposort) => .ok (dag, [.toposort rToposort])
  | .getTopological =>
    match dag.getTopological with
    | none => .error .missingNode
    | some (err, result) => .ok (dag, [.topological err result])

/-! ### Adjacency -/

/-- A node is added that is not in the graph, or has no edge with another node. -/
def AddCondition (dag : PipelineDAG) : DagOp → Prop
  | .addNode id _ => ∀ k, k ∈ outOf dag.mNodesVec id ∨ k ∈ inOf dag.mNodesVec id → k = id
  | _ => True

/-- **One call** on a coherent graph returns, and keeps the graph coherent, under the
condition. -/
theorem coherent_step (h : dag.Coherent) (hop : AddCondition dag op) :
    ∃ dag' o, dagMachine dag op = .ok (dag', o) ∧ dag'.Coherent := by
  cases op with
  | addNode id val => exact ⟨_, _, rfl, coherent_addNode h val hop⟩
  | removeNode id =>
    obtain ⟨dag', err, heq, h'⟩ := coherent_removeNode h id
    exact ⟨dag', [.returned err], by simp [dagMachine, heq], h'⟩
  | addEdge id_src id_dst => exact ⟨_, _, rfl, coherent_addEdge h id_src id_dst⟩
  | removeEdge id_src id_dst => exact ⟨_, _, rfl, coherent_removeEdge h id_src id_dst⟩
  | setRootNode id => exact ⟨_, _, rfl, coherent_setRootNode h id⟩
  | setNodeValue id val => exact ⟨_, _, rfl, coherent_setNodeValue h id val⟩
  | clone => exact ⟨_, _, rfl, coherent_clone h⟩
  | cloneOf ids =>
    obtain ⟨r, heq, h'⟩ := coherent_cloneOf h ids
    cases r with
    | none => exact ⟨dag, [.cloned false], by simp only [dagMachine, heq], h⟩
    | some dag' => exact ⟨dag', [.cloned true], by simp only [dagMachine, heq], h' dag' rfl⟩
  | getToposort =>
    obtain ⟨l, heq⟩ := getToposort_spec h.ids
    exact ⟨{ dag with mToposort := l }, [.toposort l], by simp only [dagMachine, heq],
      h.congr rfl rfl⟩
  | getTopological =>
    obtain ⟨err, result, heq⟩ := exists_getTopological h.ids
    exact ⟨dag, [.topological err result], by simp only [dagMachine, heq], h⟩

/-- **Adjacency.** For every sequence of calls on a new graph: every call returns and leaves
a graph that meets the adjacency invariant if and only if every node that is added is new,
or has no edge with another node at that moment. -/
theorem adjacency_iff (ops : List DagOp) :
    (∀ as bs, ops = as ++ bs → ∃ dag os, dagMachine.Runs create as dag os ∧ dag.Adjacent) ↔
      ∀ as op bs, ops = as ++ op :: bs → ∀ dag os, dagMachine.Runs create as dag os →
        AddCondition dag op := by
  constructor
  · intro hall as op bs hops dag os hrun
    obtain ⟨dag₀, os₀, hrun₀, hadj⟩ := hall as (op :: bs) hops
    obtain ⟨rfl, -⟩ := hrun₀.deterministic hrun
    cases op with
    | addNode id val =>
      obtain ⟨dag', os', hrun', hadj'⟩ := hall (as ++ [.addNode id val]) bs (by simpa using hops)
      obtain ⟨rfl, -⟩ := hrun'.deterministic (hrun.snoc rfl)
      exact (adjacent_addNode_iff hadj id val).mp hadj'
    | _ => trivial
  · intro hcond as bs hops
    obtain ⟨dag, os, hrun, h⟩ := Machine.exists_run_of_steps coherent_create
      (fun _ _ h hop => coherent_step h hop) as fun as₁ op as₂ has =>
        hcond as₁ op (as₂ ++ bs) (by rw [hops, has, List.append_assoc, List.cons_append])
    exact ⟨dag, os, hrun, h.adjacent⟩

def addedAgain : List DagOp :=
  [.addNode 1 0, .addNode 2 1, .addEdge 1 2, .addNode 1 0]

/-- The edge of a node that is added again is lost at this end and kept at the other. -/
theorem addedAgain_not_adjacent :
    ¬ ∀ as bs, addedAgain = as ++ bs →
      ∃ dag os, dagMachine.Runs create as dag os ∧ dag.Adjacent := by
  intro hall
  obtain ⟨dag, os, hrun, hadj⟩ := hall addedAgain [] (by simp)
  have hobserve : dagMachine.observe create addedAgain
      (fun dag => (decide (2 ∈ outOf dag.mNodesVec 1), decide (1 ∈ inOf dag.mNodesVec 2))) =
        some ((false, true), List.replicate 4 (.returned .ok)) := by decide
  obtain ⟨dag', hrun', hview⟩ := Machine.exists_run_of_observe hobserve
  obtain ⟨rfl, -⟩ := hrun'.deterministic hrun
  rw [Prod.mk.injEq, decide_eq_false_iff_not, decide_eq_true_eq] at hview
  exact hview.1 ((hadj.mirror 1 2).mpr hview.2)

/-! ### The order that is kept -/

/-- The call changes the nodes of the graph, their edges or their values. -/
def Mutates (dag : PipelineDAG) : DagOp → Prop
  | .addNode id val => (dag.addNode id val).1.mNodesVec ≠ dag.mNodesVec
  | .removeNode id => id ∈ dag.mNodesVec.keys
  | .addEdge id_src id_dst => (dag.addEdge id_src id_dst).1.mNodesVec ≠ dag.mNodesVec
  | .removeEdge id_src id_dst => (dag.removeEdge id_src id_dst).1.mNodesVec ≠ dag.mNodesVec
  | .setNodeValue id val => (dag.setNodeValue id val).1.mNodesVec ≠ dag.mNodesVec
  | .setRootNode _ | .clone | .cloneOf _ | .getToposort | .getTopological => False

def CacheCondition (dag : PipelineDAG) (op : DagOp) : Prop :=
  dag.mToposort = [] ∨ ¬ dag.Mutates op

instance (dag : PipelineDAG) : (op : DagOp) → Decidable (dag.Mutates op)
  | .addNode id val =>
    inferInstanceAs (Decidable ((dag.addNode id val).1.mNodesVec ≠ dag.mNodesVec))
  | .removeNode id => inferInstanceAs (Decidable (id ∈ dag.mNodesVec.keys))
  | .addEdge id_src id_dst =>
    inferInstanceAs (Decidable ((dag.addEdge id_src id_dst).1.mNodesVec ≠ dag.mNodesVec))
  | .removeEdge id_src id_dst =>
    inferInstanceAs (Decidable ((dag.removeEdge id_src id_dst).1.mNodesVec ≠ dag.mNodesVec))
  | .setNodeValue id val =>
    inferInstanceAs (Decidable ((dag.setNodeValue id val).1.mNodesVec ≠ dag.mNodesVec))
  | .setRootNode _ | .clone | .cloneOf _ | .getToposort | .getTopological =>
    inferInstanceAs (Decidable False)

instance (dag : PipelineDAG) (op : DagOp) : Decidable (CacheCondition dag op) :=
  inferInstanceAs (Decidable (_ ∨ _))

/-- The order that `getToposort` returns is **fresh**: it is what `getTopological` returns,
an order of the nodes and edges of the graph as it is, or nothing if there is none. -/
def ToposortFresh (dag : PipelineDAG) : Prop :=
  ∃ dag' err rToposort, dag.getToposort = some (dag', rToposort) ∧
    dag.getTopological = some (err, rToposort) ∧
    (err = .ok → IsOrder dag.mNodesVec rToposort) ∧ (err ≠ .ok → NoOrder dag.mNodesVec)

/-- An order that is **kept** is the one of the graph as it is. -/
structure Kept (dag : PipelineDAG) : Prop where
  ids : dag.IdsMatch
  order : dag.mToposort ≠ [] → evaluateToposort dag.mNodesVec = some (.ok, dag.mToposort)

theorem Kept.fresh (h : dag.Kept) : dag.ToposortFresh := by
  rw [ToposortFresh, getToposort, getTopological]
  split
  · rcases evaluateToposort_spec h.ids with ⟨l, heq, horder, -⟩ | ⟨heq, hno⟩
    · rw [heq]
      exact ⟨_, .ok, l, rfl, rfl, fun _ => horder, fun hne => absurd rfl hne⟩
    · rw [heq]
      exact ⟨_, .failed, [], rfl, rfl, fun herr => (by cases herr), fun _ => hno⟩
  · rename_i hnonempty
    have heq := h.order (mt List.isEmpty_iff.mpr hnonempty)
    rcases evaluateToposort_spec h.ids with ⟨l, heq', horder, -⟩ | ⟨heq', -⟩
    · rw [heq, Option.some_inj, Prod.mk.injEq] at heq'
      obtain rfl := heq'.2
      rw [heq]
      exact ⟨dag, .ok, _, rfl, rfl, fun _ => horder, fun hne => absurd rfl hne⟩
    · rw [heq] at heq'
      cases heq'

theorem Kept.of_edit (h : dag.Kept) (hids : dag'.IdsMatch)
    (horder : dag'.mToposort = dag.mToposort)
    (hnodes : dag.mToposort ≠ [] → dag'.mNodesVec = dag.mNodesVec) : dag'.Kept := by
  refine ⟨hids, fun hne => ?_⟩
  rw [horder] at hne ⊢
  rw [hnodes hne]
  exact h.order hne

theorem IdsMatch.removeNodes (h : dag.IdsMatch) (heq : removeNodes ids dag = some dag') :
    dag'.IdsMatch ∧ dag'.mToposort = dag.mToposort := by
  induction ids generalizing dag with
  | nil =>
    cases heq
    exact ⟨h, rfl⟩
  | cons id ids ih =>
    rw [PipelineDAG.removeNodes] at heq
    split at heq
    · cases heq
    · rename_i dag₁ err heq₁
      obtain ⟨h₁, horder⟩ := h.removeNode heq₁
      obtain ⟨h', horder'⟩ := ih h₁ heq
      exact ⟨h', horder'.trans horder⟩

theorem mToposort_removeEdge (dag : PipelineDAG) (a b : NodeId) :
    (dag.removeEdge a b).1.mToposort = dag.mToposort := by
  rw [removeEdge]
  split
  · split <;> rfl
  · rfl

theorem mToposort_setNodeValue (dag : PipelineDAG) (id : NodeId) (val : NodeVal) :
    (dag.setNodeValue id val).1.mToposort = dag.mToposort := by
  rw [setNodeValue]
  split <;> rfl

theorem setRootNode_eq (dag : PipelineDAG) (id : NodeId) :
    ∃ root, (dag.setRootNode id).1 = { dag with mRootId := root } := by
  rw [setRootNode]
  split
  · exact ⟨dag.mRootId, rfl⟩
  · exact ⟨id, rfl⟩

/-- **One call** keeps the order right, under the condition. -/
theorem Kept.step (h : dag.Kept) (hop : CacheCondition dag op)
    (heq : dagMachine dag op = .ok (dag', o)) : dag'.Kept := by
  have hkeep : dag.mToposort ≠ [] → ¬ dag.Mutates op := fun hne => hop.resolve_left hne
  cases op with
  | addNode id val =>
    cases heq
    exact h.of_edit (h.ids.addNode id val) rfl fun hne => not_not.mp (hkeep hne)
  | removeNode id =>
    simp only [dagMachine] at heq
    split at heq
    · cases heq
    · rename_i r hr
      cases heq
      obtain ⟨hids, horder⟩ := h.ids.removeNode hr
      refine h.of_edit hids horder fun hne => ?_
      rw [removeNode_of_not_mem (hkeep hne)] at hr
      cases hr
      rfl
  | addEdge id_src id_dst =>
    cases heq
    exact h.of_edit (fun c x hx => h.ids c x (nodeOf_addEdge dag id_src id_dst c ▸ hx))
      (addEdge_keeps dag id_src id_dst).2 fun hne => not_not.mp (hkeep hne)
  | removeEdge id_src id_dst =>
    cases heq
    exact h.of_edit (fun c x hx => h.ids c x (nodeOf_removeEdge dag id_src id_dst c ▸ hx))
      (mToposort_removeEdge dag id_src id_dst) fun hne => not_not.mp (hkeep hne)
  | setRootNode id =>
    cases heq
    obtain ⟨root, hroot⟩ := setRootNode_eq dag id
    rw [hroot]
    exact h.of_edit h.ids rfl fun _ => rfl
  | setNodeValue id val =>
    cases heq
    exact h.of_edit (h.ids.setNodeValue id val) (mToposort_setNodeValue dag id val)
      fun hne => not_not.mp (hkeep hne)
  | clone =>
    cases heq
    exact ⟨h.ids, fun hne => absurd rfl hne⟩
  | cloneOf ids =>
    simp only [dagMachine] at heq
    split at heq
    · cases heq
    · cases heq
      exact h
    · rename_i dag₁ hclone
      cases heq
      rw [cloneOf] at hclone
      split at hclone
      · cases hclone
      · split at hclone
        · cases hclone
        · obtain ⟨dag₂, hremove, hdag⟩ := Option.map_eq_some_iff.mp hclone
          obtain rfl := Option.some_inj.mp hdag
          have hids : dag.clone.IdsMatch := h.ids
          obtain ⟨hids', horder⟩ := hids.removeNodes hremove
          exact ⟨hids', fun hne => absurd horder hne⟩
  | getToposort =>
    simp only [dagMachine] at heq
    rcases evaluateToposort_spec h.ids with ⟨l, hl, -⟩ | ⟨hl, -⟩
    · by_cases hempty : dag.mToposort.isEmpty
      · simp only [getToposort, hempty, if_true, hl] at heq
        cases heq
        exact ⟨h.ids, fun _ => hl⟩
      · simp only [getToposort, hempty, if_false, Bool.false_eq_true] at heq
        cases heq
        exact h
    · by_cases hempty : dag.mToposort.isEmpty
      · simp only [getToposort, hempty, if_true, hl] at heq
        cases heq
        exact ⟨h.ids, fun hne => absurd rfl hne⟩
      · simp only [getToposort, hempty, if_false, Bool.false_eq_true] at heq
        cases heq
        exact h
  | getTopological =>
    simp only [dagMachine] at heq
    split at heq
    · cases heq
    · cases heq
      exact h

/-- **The order that is kept.** In every state of a history in which no call changes the
nodes while an order is kept, `getToposort` returns what `getTopological` returns: an order
of exactly the nodes and edges of the graph, and nothing if the graph has none. -/
theorem toposort_fresh
    (hrun : dagMachine.RunsMeeting (fun _ => CacheCondition) create ops dag os) :
    dag.ToposortFresh := by
  have hkept : dag.Kept := hrun.invariant (I := fun _ dag _ => dag.Kept)
    ⟨coherent_create.ids, fun hne => absurd rfl hne⟩
    fun _ _ _ _ _ _ h hop heq => h.step hop heq
  exact hkept.fresh

def sortedLast : List DagOp :=
  [.addNode 1 0, .addNode 2 1, .addEdge 1 2, .getToposort, .clone, .addNode 3 2,
    .removeEdge 1 2, .getToposort]

/-- The order of the edited clone is its own. -/
theorem toposort_fresh_sortedLast : ∃ dag os,
    dagMachine.Runs create sortedLast dag os ∧ dag.ToposortFresh := by
  have hobserve : (dagMachine.observe create sortedLast fun _ => ()).isSome = true := by decide
  obtain ⟨⟨⟨⟩, os⟩, hview⟩ := Option.isSome_iff_exists.mp hobserve
  obtain ⟨dag, hrun, -⟩ := Machine.exists_run_of_observe hview
  exact ⟨dag, os, hrun, toposort_fresh (hrun.meeting (by decide))⟩

def sortedEarly : List DagOp := [.addNode 1 0, .getToposort, .addNode 2 1]

/-- The order that is kept lacks the node that was added later. -/
theorem sortedEarly_not_fresh : ∃ dag os,
    dagMachine.Runs create sortedEarly dag os ∧ ¬ dag.ToposortFresh := by
  have hobserve : dagMachine.observe create sortedEarly
      (fun dag => (dag.getToposort.map Prod.snd, dag.getTopological)) =
        some ((some [⟨1, 0⟩], some (.ok, [⟨2, 1⟩, ⟨1, 0⟩])),
          [.returned .ok, .toposort [⟨1, 0⟩], .returned .ok]) := by decide
  obtain ⟨dag, hrun, hview⟩ := Machine.exists_run_of_observe hobserve
  rw [Prod.mk.injEq] at hview
  refine ⟨dag, _, hrun, ?_⟩
  rintro ⟨dag', err, rToposort, hkept, hnew, -⟩
  have hold : rToposort = [⟨1, 0⟩] := by simpa [hkept] using hview.1
  have hcurrent : rToposort = [⟨2, 1⟩, ⟨1, 0⟩] := by
    have htopological := hview.2
    rw [hnew, Option.some_inj, Prod.mk.injEq] at htopological
    exact htopological.2
  rw [hold] at hcurrent
  exact absurd hcurrent (by decide)

end PipelineDAG

end MtkHardware.Pipeline
