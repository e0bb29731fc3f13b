import MtkHardware.Pipeline.DagToposort

/-!
# Clones of a Part of the Pipeline Graph

`clone(ids)` copies the graph and removes the nodes that are not among the given ones. The capacity
of the list of these nodes is a difference of two sizes, which is taken before the given nodes are
looked for in the graph.
-/

namespace MtkHardware.Pipeline

open NodeMap

namespace PipelineDAG

/-- The capacity of the list of the nodes to remove; there is none where the difference of the sizes
is negative. -/
def dirtyCapacity (dag : PipelineDAG) (ids : NodeIdSet) : Option ℕ :=
  if ids.size ≤ dag.mNodesVec.size then some (dag.mNodesVec.size - ids.size) else none

structure Induced (dag dag' : PipelineDAG) (P : NodeId → Prop) : Prop where
  coherent : dag'.Coherent
  mem : ∀ a, a ∈ dag'.mNodesVec.keys ↔ a ∈ dag.mNodesVec.keys ∧ P a
  value : ∀ a, P a → nodeOf dag'.mNodesVec a = nodeOf dag.mNodesVec a
  out : ∀ a b, b ∈ outOf dag'.mNodesVec a ↔ b ∈ outOf dag.mNodesVec a ∧ P a ∧ P b
  in' : ∀ a b, a ∈ inOf dag'.mNodesVec b ↔ a ∈ inOf dag.mNodesVec b ∧ P a ∧ P b
  root : P dag.mRootId → dag'.mRootId = dag.mRootId

variable {dag dag' dag₁ : PipelineDAG} {id : NodeId} {ids : List NodeId} {P Q : NodeId → Prop}

theorem Induced.refl (h : dag.Coherent) : Induced dag dag fun _ => True :=
  ⟨h, by simp, fun _ _ => rfl, by simp, by simp, fun _ => rfl⟩

theorem Induced.trans (h : Induced dag dag₁ P) (h' : Induced dag₁ dag' Q) :
    Induced dag dag' fun a => P a ∧ Q a := by
  refine ⟨h'.coherent, fun a => ?_, fun a ha => ?_, fun a b => ?_, fun a b => ?_, fun hroot => ?_⟩
  · rw [h'.mem, h.mem, and_assoc]
  · rw [h'.value a ha.2, h.value a ha.1]
  · rw [h'.out, h.out]
    tauto
  · rw [h'.in', h.in']
    tauto
  · have hsame := h.root hroot.1
    rw [h'.root (hsame ▸ hroot.2), hsame]

theorem Induced.congr (h : Induced dag dag' P) (hPQ : ∀ a, P a ↔ Q a) : Induced dag dag' Q := by
  obtain rfl : P = Q := funext fun a => propext (hPQ a)
  exact h

theorem Induced.of_mem_keys (h : Induced dag dag' P) (hP : ∀ a ∈ dag.mNodesVec.keys, P a ↔ Q a)
    (hQ : ∀ a, Q a → a ∈ dag.mNodesVec.keys) (hdag : dag.Coherent) : Induced dag dag' Q := by
  have hPQ : ∀ a, Q a → P a := fun a ha => (hP a (hQ a ha)).mpr ha
  have hends : ∀ a b, b ∈ outOf dag.mNodesVec a → (P a ∧ P b ↔ Q a ∧ Q b) := fun a b hab => by
    obtain ⟨ha, hb⟩ := hdag.adjacent.ends a b (.inl hab)
    rw [hP a ha, hP b hb]
  refine ⟨h.coherent, fun a => ?_, fun a ha => h.value a (hPQ a ha), fun a b => ?_, fun a b => ?_,
    fun hroot => h.root (hPQ _ hroot)⟩
  · rw [h.mem]
    exact and_congr_right (hP a)
  · rw [h.out]
    exact and_congr_right (hends a b)
  · rw [h.in']
    exact and_congr_right fun hab => hends a b ((hdag.adjacent.mirror a b).mpr hab)

theorem induced_removeNode (h : dag.Coherent) (hid : id ∈ dag.mNodesVec.keys) :
    ∃ dag' err, dag.removeNode id = some (dag', err) ∧ Induced dag dag' (· ≠ id) := by
  obtain ⟨nodes, heq, hnode, hout, hin⟩ := removeNode_spec h.adjacent hid
  obtain ⟨dag', err, heq', hcoherent⟩ := coherent_removeNode h id
  rw [heq] at heq'
  cases heq'
  refine ⟨_, _, heq, hcoherent, fun a => ?_, fun a ha => ?_, hout, hin, fun hroot => ?_⟩
  · rw [mem_keys_iff_nodeOf, mem_keys_iff_nodeOf]
    dsimp only
    rw [hnode]
    split <;> simp_all
  · exact (hnode a).trans (if_neg ha)
  · exact if_neg (Ne.symm hroot)

/-- **Removing nodes** leaves the part on the others. -/
theorem removeNodes_spec (h : dag.Coherent) (hids : ∀ id ∈ ids, id ∈ dag.mNodesVec.keys)
    (hnodup : ids.Nodup) :
    ∃ dag', removeNodes ids dag = some dag' ∧ Induced dag dag' (· ∉ ids) := by
  induction ids generalizing dag with
  | nil => exact ⟨dag, rfl, (Induced.refl h).congr (by simp)⟩
  | cons id ids ih =>
    obtain ⟨hid, hids⟩ := List.forall_mem_cons.mp hids
    obtain ⟨hnot, hnodup⟩ := List.nodup_cons.mp hnodup
    obtain ⟨dag₁, err, heq, h₁⟩ := induced_removeNode h hid
    have hids₁ : ∀ a ∈ ids, a ∈ dag₁.mNodesVec.keys := fun a ha =>
      (h₁.mem a).mpr ⟨hids a ha, fun heq => hnot (heq ▸ ha)⟩
    obtain ⟨dag', hrest, h'⟩ := ih h₁.coherent hids₁ hnodup
    refine ⟨dag', by rw [removeNodes, heq, ← hrest], (h₁.trans h').congr fun a => ?_⟩
    rw [List.mem_cons, not_or]

theorem size_eq_iff (nodes : NodeMap) (ids : NodeIdSet) :
    nodes.size = (nodes.keys.filter (· ∉ ids)).length + ids.size ↔ ∀ id ∈ ids, id ∈ nodes.keys := by
  have hsplit : nodes.size =
      (nodes.keys.filter (· ∉ ids)).length + (nodes.keys.filter (· ∈ ids)).length := by
    rw [← KeyedVector.length_keys, List.length_eq_length_filter_add fun a => decide (a ∉ ids)]
    simp
  rw [hsplit, Nat.add_left_cancel_iff, SortedVector.size]
  have hsub : (nodes.keys.filter (· ∈ ids)).Subperm ids.items :=
    List.subperm_of_subset (nodes.nodup_keys.filter _) fun a ha => by
      simpa using (List.mem_filter.mp ha).2
  constructor
  · intro hlength id hid
    have hperm := hsub.perm_of_length_le hlength.ge
    exact (List.mem_filter.mp (hperm.mem_iff.mpr hid)).1
  · intro hids
    refine le_antisymm hsub.length_le (List.subperm_of_subset ids.nodup fun id hid => ?_).length_le
    exact List.mem_filter.mpr ⟨hids id hid, decide_eq_true hid⟩

/-- **The clone** is the part of the graph on the given nodes; there is none without the root, or
with a node that is not in the graph. -/
theorem cloneOf_spec (h : dag.Coherent) (ids : NodeIdSet) : ∃ r, dag.cloneOf ids = some r ∧
    (r = none ↔ (∃ id ∈ ids, id ∉ dag.mNodesVec.keys) ∨
      dag.mRootId ∈ dag.mNodesVec.keys ∧ dag.mRootId ∉ ids) ∧
    ∀ dag', r = some dag' → Induced dag dag' (· ∈ ids) ∧ dag'.mRootId = dag.mRootId := by
  have hdirty : ∀ a, a ∈ dag.mNodesVec.keys.filter (· ∉ ids) ↔
      a ∈ dag.mNodesVec.keys ∧ a ∉ ids := fun a => by simp
  rw [cloneOf]
  by_cases hroot : dag.mRootId ∈ dag.mNodesVec.keys.filter (· ∉ ids)
  · rw [if_pos hroot]
    exact ⟨none, rfl, iff_of_true rfl (.inr ((hdirty _).mp hroot)), by simp⟩
  rw [if_neg hroot]
  by_cases hsize : dag.mNodesVec.size = (dag.mNodesVec.keys.filter (· ∉ ids)).length + ids.size
  · rw [if_neg (not_not.mpr hsize)]
    have hids := (size_eq_iff dag.mNodesVec ids).mp hsize
    obtain ⟨dag', heq, hpart⟩ := removeNodes_spec (coherent_clone h)
      (fun a ha => ((hdirty a).mp ha).1) (dag.mNodesVec.nodup_keys.filter _)
    refine ⟨some dag', by rw [heq]; rfl, iff_of_false (Option.some_ne_none _) ?_, ?_⟩
    · rintro (⟨id, hid, hnot⟩ | hmissing)
      · exact hnot (hids id hid)
      · exact hroot ((hdirty _).mpr hmissing)
    · rintro _ ⟨rfl⟩
      have hpart' : Induced dag dag' (· ∉ dag.mNodesVec.keys.filter (· ∉ ids)) :=
        ⟨hpart.coherent, hpart.mem, hpart.value, hpart.out, hpart.in', hpart.root⟩
      have hgiven : ∀ a ∈ dag.mNodesVec.keys,
          a ∉ dag.mNodesVec.keys.filter (· ∉ ids) ↔ a ∈ ids := fun a ha => by
        rw [hdirty, not_and, not_not]
        exact ⟨fun himp => himp ha, fun hmem _ => hmem⟩
      exact ⟨hpart'.of_mem_keys hgiven hids h, hpart'.root hroot⟩
  · rw [if_pos hsize]
    refine ⟨none, rfl, iff_of_true rfl (.inl ?_), by simp⟩
    by_contra hnot
    refine hsize ((size_eq_iff dag.mNodesVec ids).mpr fun id hid => ?_)
    exact not_not.mp fun hmissing => hnot ⟨id, hid, hmissing⟩

/-- A clone on the given nodes, or none, and no difference of sizes is negative. -/
def CloneExact (dag : PipelineDAG) (ids : NodeIdSet) : Prop :=
  (dag.dirtyCapacity ids).isSome = true ∧ ∃ r, dag.cloneOf ids = some r ∧
    (r = none ↔ (∃ id ∈ ids, id ∉ dag.mNodesVec.keys) ∨
      dag.mRootId ∈ dag.mNodesVec.keys ∧ dag.mRootId ∉ ids) ∧
    ∀ dag', r = some dag' → Induced dag dag' (· ∈ ids) ∧ dag'.mRootId = dag.mRootId

/-- **The clone is exact** exactly when no more nodes are given than the graph has. -/
theorem clone_iff (h : dag.Coherent) (ids : NodeIdSet) :
    CloneExact dag ids ↔ ids.size ≤ dag.mNodesVec.size := by
  rw [CloneExact, and_iff_left (cloneOf_spec h ids), dirtyCapacity]
  split <;> simp [*]

/-- The part of `1 → 2` on `1`. -/
theorem clone_oneEdge : CloneExact oneEdge (SortedVector.empty.add 1) :=
  (clone_iff coherent_oneEdge _).mpr (by decide)

/-- A node is given, and the graph has none. -/
theorem clone_underflow : create.Coherent ∧ ¬ CloneExact create (SortedVector.empty.add 1) :=
  ⟨coherent_create, fun h => absurd ((clone_iff coherent_create _).mp h) (by decide)⟩

end PipelineDAG

end MtkHardware.Pipeline
