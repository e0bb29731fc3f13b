import MtkHardware.Pipeline.PipelineContext

/-!
# Which Configurations Are Accepted

`updateConfig` and `config_pipeline` check the number of roots and the ends of the edges. A
root that is not configured, and edges that form a cycle, are noticed and then accepted.
-/

namespace MtkHardware.Pipeline

open Relation PipelineDAG

variable {pNodeConfig : NodeConfig} {pBuilder : PipelineBuilder} {pDAG : PipelineDAG}
  {pNodeMap : PipelineNodeMapControl}

def PipelineBuilder.HasEdge (pBuilder : PipelineBuilder) (a b : NodeId) : Prop :=
  ⟨a, b⟩ ∈ pBuilder.mNodeEdges

/-- The edges form **no cycle**. -/
def PipelineBuilder.Acyclic (pBuilder : PipelineBuilder) : Prop :=
  ∀ a, ¬ TransGen pBuilder.HasEdge a a

/-- A configuration that is **right**: the edges join configured nodes and form no cycle,
the root is configured, and the value of every node of the graph indexes that node in the
node map. -/
structure ConfigRight (pNodeConfig : NodeConfig) (pBuilder : PipelineBuilder)
    (pDAG : PipelineDAG) (pNodeMap : PipelineNodeMapControl) : Prop where
  edges : EdgesConfigured pNodeConfig pBuilder.mNodeEdges
  acyclic : pBuilder.Acyclic
  root : ∃ root ∈ pNodeConfig.ids, pBuilder.mRootNodes = [root] ∧ pDAG.mRootId = root
  value : ∀ a x, NodeMap.nodeOf pDAG.mNodesVec a = some x →
    0 ≤ x.val ∧ PipelineNodeMapControl.nodeAt pNodeMap x.val = some a

def ConfigSound (pNodeConfig : NodeConfig) (pBuilder : PipelineBuilder) : Prop :=
  ∀ pDAG pNodeMap, configure pNodeConfig pBuilder = some (.ok (pDAG, pNodeMap)) →
    ConfigRight pNodeConfig pBuilder pDAG pNodeMap

theorem all_isSome_iff (pNodeConfig : NodeConfig) (edges : List Edge) :
    (edges.all fun e =>
      (pNodeConfig.queryNode e.src).isSome && (pNodeConfig.queryNode e.dst).isSome) = true ↔
      EdgesConfigured pNodeConfig edges := by
  rw [List.all_eq_true]
  refine forall_congr' fun e => imp_congr_right fun _ => ?_
  rw [Bool.and_eq_true, NodeConfig.queryNode, NodeConfig.queryNode, NodeConfig.ids,
    KeyedVector.mem_keys_iff, KeyedVector.mem_keys_iff, Option.isSome_iff_exists,
    Option.isSome_iff_exists]

theorem updateConfig_eq (pNodeConfig : NodeConfig) (pBuilder : PipelineBuilder) :
    (pBuilder.mRootNodes.length = 1 ∧ EdgesConfigured pNodeConfig pBuilder.mNodeEdges ∧
      updateConfig pNodeConfig pBuilder = .ok ⟨pBuilder.mRootNodes, pBuilder.mNodeEdges⟩) ∨
    (¬ (pBuilder.mRootNodes.length = 1 ∧ EdgesConfigured pNodeConfig pBuilder.mNodeEdges) ∧
      ∃ err, updateConfig pNodeConfig pBuilder = .error err) := by
  rw [updateConfig]
  split
  · rename_i hroots
    exact .inr ⟨fun h => hroots h.1, _, rfl⟩
  · rename_i hroots
    split
    · rename_i hedges
      exact .inl ⟨not_not.mp hroots, (all_isSome_iff _ _).mp hedges, rfl⟩
    · rename_i hedges
      exact .inr ⟨fun h => hedges ((all_isSome_iff _ _).mpr h.2), _, rfl⟩

/-- **A configuration is accepted** exactly when there is one root and every edge joins
configured nodes. -/
theorem configure_spec (pNodeConfig : NodeConfig) (pBuilder : PipelineBuilder) :
    (∃ pDAG pNodeMap root, configure pNodeConfig pBuilder = some (.ok (pDAG, pNodeMap)) ∧
      pBuilder.mRootNodes = [root] ∧ EdgesConfigured pNodeConfig pBuilder.mNodeEdges ∧
      Configured pNodeConfig pBuilder.mNodeEdges pDAG pNodeMap ∧
      pDAG.mRootId = if root ∈ pNodeConfig.ids then root else BAD_ID) ∨
    (¬ (pBuilder.mRootNodes.length = 1 ∧ EdgesConfigured pNodeConfig pBuilder.mNodeEdges) ∧
      ∃ err, configure pNodeConfig pBuilder = some (.error err)) := by
  rw [configure]
  rcases updateConfig_eq pNodeConfig pBuilder with ⟨hroots, hedges, heq⟩ | ⟨hnot, err, heq⟩
  · obtain ⟨root, hroot⟩ := List.length_eq_one_iff.mp hroots
    rcases config_pipeline_spec pNodeConfig ⟨pBuilder.mRootNodes, pBuilder.mNodeEdges⟩ with
      ⟨pDAG, pNodeMap, root', hok, -, hhead, hconf, hid⟩ | ⟨err, pDAG, pNodeMap, -, -, hbad⟩
    · rw [hroot] at hhead
      obtain rfl := Option.some_inj.mp hhead
      exact .inl ⟨pDAG, pNodeMap, root, by rw [heq]; dsimp only; rw [hok], hroot, hedges, hconf,
        hid⟩
    · exact absurd ⟨hedges, by simp [hroot]⟩ hbad
  · exact .inr ⟨hnot, err, by rw [heq]⟩

/-- **Accepted configurations.** For every set of nodes, every list of edges and every list
of roots, `updateConfig` and `config_pipeline` return, and they accept the configuration only
if it is right exactly when the edges form no cycle and the root is configured, or else the
number of roots or the ends of an edge are wrong. -/
theorem config_sound_iff (pNodeConfig : NodeConfig) (pBuilder : PipelineBuilder) :
    (∃ r, configure pNodeConfig pBuilder = some r) ∧
      (ConfigSound pNodeConfig pBuilder ↔
        (pBuilder.mRootNodes.length = 1 → EdgesConfigured pNodeConfig pBuilder.mNodeEdges →
          pBuilder.Acyclic ∧ ∀ root ∈ pBuilder.mRootNodes, root ∈ pNodeConfig.ids)) := by
  rcases configure_spec pNodeConfig pBuilder with
    ⟨pDAG, pNodeMap, root, heq, hroots, hedges, hconf, hid⟩ | ⟨hnot, err, heq⟩
  · refine ⟨⟨_, heq⟩, fun hsound _ _ => ?_, fun hcond pDAG' pNodeMap' heq' => ?_⟩
    · obtain ⟨-, hacyclic, ⟨root', hroot', hroots', -⟩, -⟩ := hsound pDAG pNodeMap heq
      exact ⟨hacyclic, fun r hr => by
        rw [hroots'] at hr
        rwa [List.mem_singleton.mp hr]⟩
    · rw [heq, Option.some_inj, Except.ok.injEq, Prod.mk.injEq] at heq'
      obtain ⟨rfl, rfl⟩ := heq'
      obtain ⟨hacyclic, hroot⟩ := hcond (by simp [hroots]) hedges
      have hmem := hroot root (by simp [hroots])
      rw [if_pos hmem] at hid
      exact ⟨hedges, hacyclic, ⟨root, hmem, hroots, hid⟩, hconf.value⟩
  · refine ⟨⟨_, heq⟩, fun _ hlen hedges => absurd ⟨hlen, hedges⟩ hnot, fun _ pDAG pNodeMap h => ?_⟩
    rw [heq] at h
    cases h

def twoNodes : NodeConfig :=
  (NodeConfig.new.addNode ⟨1, .create, .create⟩).addNode ⟨2, .create, .create⟩

/-- A cycle is accepted, and so is a root that is not configured. -/
theorem twoNodes_not_sound :
    ¬ ConfigSound twoNodes ⟨[1], [⟨1, 2⟩, ⟨2, 1⟩]⟩ ∧ ¬ ConfigSound twoNodes ⟨[3], [⟨1, 2⟩]⟩ := by
  constructor
  · intro hsound
    rcases configure_spec twoNodes ⟨[1], [⟨1, 2⟩, ⟨2, 1⟩]⟩ with
      ⟨pDAG, pNodeMap, root, heq, -⟩ | ⟨hnot, -⟩
    · have hout : PipelineBuilder.HasEdge ⟨[1], [⟨1, 2⟩, ⟨2, 1⟩]⟩ 1 2 := List.mem_cons_self
      have hback : PipelineBuilder.HasEdge ⟨[1], [⟨1, 2⟩, ⟨2, 1⟩]⟩ 2 1 :=
        List.mem_cons_of_mem _ List.mem_cons_self
      exact (hsound pDAG pNodeMap heq).acyclic 1 (.tail (.single hout) hback)
    · exact hnot (by decide)
  · intro hsound
    rcases configure_spec twoNodes ⟨[3], [⟨1, 2⟩]⟩ with
      ⟨pDAG, pNodeMap, root, heq, -⟩ | ⟨hnot, -⟩
    · obtain ⟨root, hmem, hroots, -⟩ := (hsound pDAG pNodeMap heq).root
      obtain rfl : 3 = root := by simpa using hroots
      exact absurd hmem (by decide)
    · exact hnot (by decide)

/-! ### Requests to a configured pipeline -/

section Requests

variable {confDAG dag : PipelineDAG} {rootNodes : List NodeId} {edges : List Edge}

theorem requestGraph_of_constructDAG
    (hconfig : configure pNodeConfig pBuilder = some (.ok (confDAG, pNodeMap)))
    (hreq : constructDAG confDAG rootNodes edges = some dag) :
    Configured pNodeConfig pBuilder.mNodeEdges confDAG pNodeMap ∧
      RequestGraph confDAG rootNodes edges dag := by
  rcases configure_spec pNodeConfig pBuilder with
    ⟨pDAG, pNodeMap', root, heq, -, -, hconf, -⟩ | ⟨-, err, heq⟩
  · rw [heq, Option.some_inj, Except.ok.injEq, Prod.mk.injEq] at hconfig
    obtain ⟨rfl, rfl⟩ := hconfig
    exact ⟨hconf, constructDAG_spec hconf.coherent.ids hreq⟩
  · rw [heq] at hconfig
    cases hconfig

def requestOf (pNodeConfig : NodeConfig) (pBuilder : PipelineBuilder) (rootNodes : List NodeId)
    (edges : List Edge) : Option (PipelineNodeMapControl × PipelineDAG) :=
  match configure pNodeConfig pBuilder with
  | some (.ok (confDAG, pNodeMap)) =>
    (constructDAG confDAG rootNodes edges).map fun dag => (pNodeMap, dag)
  | _ => none

theorem exists_of_requestOf {p : PipelineNodeMapControl × PipelineDAG → Prop} [DecidablePred p]
    (h : (requestOf pNodeConfig pBuilder rootNodes edges).any (fun r => p r) = true) :
    ∃ confDAG pNodeMap dag,
      configure pNodeConfig pBuilder = some (.ok (confDAG, pNodeMap)) ∧
      constructDAG confDAG rootNodes edges = some dag ∧ p (pNodeMap, dag) := by
  obtain ⟨r, hr, hp⟩ := (Option.any_eq_true ..).mp h
  rw [requestOf] at hr
  split at hr
  · rename_i confDAG pNodeMap hconfig
    obtain ⟨dag, hdag, rfl⟩ := Option.map_eq_some_iff.mp hr
    exact ⟨confDAG, pNodeMap, dag, hconfig, hdag, of_decide_eq_true hp⟩
  · cases hr

end Requests

end MtkHardware.Pipeline
