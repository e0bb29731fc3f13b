import MtkHardware.Pipeline.DagToposort

/-!
# The Nodes that the Root Reaches

`getOrphanNodes` marks the nodes below the root and sorts all nodes into those that are marked and
the others. The search below a node does not look at the marks, so it goes down every path. It has
no end where a path comes back to a node.
-/

namespace MtkHardware.Pipeline

open Relation NodeMap

namespace PipelineDAG

abbrev CheckList := KeyedVector NodeId Bool

/-- The loop of `checkListDFS`. -/
def checkAll (run : NodeId → CheckList → Option (Except MERROR CheckList)) :
    List NodeId → CheckList → Option (Except MERROR CheckList)
  | [], checkList => some (.ok checkList)
  | id :: ids, checkList =>
    match run id checkList with
    | none => none
    | some (.error _) => some (.error .failed)
    | some (.ok checkList) => checkAll run ids checkList

/-- **Mark the nodes below a node.** The search does not return when its calls are nested deeper
than `fuel`. -/
def checkListDFS (nodes : NodeMap) : ℕ → NodeId → CheckList → Option (Except MERROR CheckList)
  | 0, _, _ => none
  | fuel + 1, id, checkList =>
    match nodes.find? id with
    | none => some (.error .failed)
    | some node =>
      checkAll (checkListDFS nodes fuel) node.mOutAdj.items (checkList.modify id fun _ => true)

/-- What is done for a node in the loop of `getOrphanNodes`. -/
def sortNode (checkList : CheckList) (sets : NodeIdSet × NodeIdSet) (id : NodeId) :
    NodeIdSet × NodeIdSet :=
  if checkList.find? id = some true then (sets.1, sets.2.add id) else (sets.1.add id, sets.2)

/-- **The nodes that the root does not reach, and the ones that it reaches.** -/
def getOrphanNodes (fuel : ℕ) (dag : PipelineDAG) (orphanNodes connectedNodes : NodeIdSet) :
    Option (MERROR × NodeIdSet × NodeIdSet) :=
  match checkListDFS dag.mNodesVec fuel dag.mRootId (dag.mNodesVec.mapVal fun _ _ => false) with
  | none => none
  | some (.error _) => some (.failed, .empty, connectedNodes)
  | some (.ok checkList) =>
    some (.ok, dag.mNodesVec.keys.foldl (sortNode checkList) (orphanNodes, connectedNodes))

inductive Built : PipelineDAG → Prop
  | create : Built create
  | addNode {dag : PipelineDAG} (h : Built dag) (id : NodeId) (val : NodeVal) :
      Built (dag.addNode id val).1
  | addEdge {dag : PipelineDAG} (h : Built dag) (id_src id_dst : NodeId) :
      Built (dag.addEdge id_src id_dst).1

def OutClosed (nodes : NodeMap) : Prop := ∀ a b, nodes.HasEdge a b → b ∈ nodes.keys

variable {dag : PipelineDAG} {nodes : NodeMap} {id a b : NodeId} {ids path : List NodeId} {fuel : ℕ}
  {checkList checkList' : CheckList} {r : Except MERROR CheckList}

theorem Built.outClosed (h : Built dag) : OutClosed dag.mNodesVec := by
  induction h with
  | create =>
    exact fun a b hedge => absurd (mem_keys_of_mem_outOf hedge) (by simp [PipelineDAG.create])
  | @addNode dag _ id val ih =>
    intro a b hedge
    have hkeys : ∀ c, c ∈ (dag.addNode id val).1.mNodesVec.keys ↔
        c = id ∨ c ∈ dag.mNodesVec.keys := fun c => KeyedVector.mem_keys_add
    rw [hkeys]
    rw [HasEdge, outOf, PipelineDAG.addNode, KeyedVector.find?_add] at hedge
    split at hedge
    · exact absurd hedge SortedVector.not_mem_empty
    · exact .inr (ih a b hedge)
  | @addEdge dag _ id_src id_dst ih =>
    by_cases hends : id_src ∈ dag.mNodesVec.keys ∧ id_dst ∈ dag.mNodesVec.keys
    · obtain ⟨-, -, hkeys, hout, -⟩ := addEdge_spec hends.1 hends.2
      intro a b hedge
      rw [hkeys]
      rcases (hout a b).mp hedge with hold | ⟨-, rfl⟩
      · exact ih a b hold
      · exact hends.2
    · rw [addEdge_of_not_mem hends]
      exact ih

/-! ### A search that returns -/

theorem exists_of_checkAll {run : NodeId → CheckList → Option (Except MERROR CheckList)}
    (hrun : ∀ id ∈ ids, ∀ checkList r, run id checkList = some r → ∃ checkList', r = .ok checkList')
    (h : checkAll run ids checkList = some r) : ∃ checkList', r = .ok checkList' ∧
      ∀ id ∈ ids, ∃ checkList r, run id checkList = some r := by
  induction ids generalizing checkList with
  | nil => exact ⟨checkList, (Option.some.inj h).symm, by simp⟩
  | cons id ids ih =>
    rw [checkAll] at h
    cases hid : run id checkList with
    | none => simp [hid] at h
    | some r₁ =>
      obtain ⟨checkList₁, rfl⟩ := hrun id List.mem_cons_self checkList r₁ hid
      simp only [hid] at h
      obtain ⟨checkList', hr, hids⟩ := ih (fun a ha => hrun a (List.mem_cons_of_mem _ ha)) h
      exact ⟨checkList', hr, List.forall_mem_cons.mpr ⟨⟨_, _, hid⟩, hids⟩⟩

/-- **A search that returns** succeeds, and has no endless path below it. -/
theorem acc_of_checkListDFS (hclosed : OutClosed nodes) (hid : id ∈ nodes.keys)
    (h : checkListDFS nodes fuel id checkList = some r) :
    (∃ checkList', r = .ok checkList') ∧ Acc (fun b a => nodes.HasEdge a b) id := by
  induction fuel generalizing id checkList r with
  | zero => cases h
  | succ fuel ih =>
    obtain ⟨node, hnode⟩ := KeyedVector.mem_keys_iff.mp hid
    rw [checkListDFS, hnode] at h
    have hbehind : ∀ b ∈ node.mOutAdj.items, b ∈ nodes.keys := fun b hb =>
      hclosed id b ((hasEdge_iff hnode).mpr hb)
    obtain ⟨checkList', hr, hall⟩ := exists_of_checkAll
      (fun b hb _ _ hb' => (ih (hbehind b hb) hb').1) h
    refine ⟨⟨checkList', hr⟩, .intro id fun b hedge => ?_⟩
    have hb := (hasEdge_iff hnode).mp hedge
    obtain ⟨_, _, hb'⟩ := hall b hb
    exact (ih (hbehind b hb) hb').2

theorem not_cycle_of_acc (h : Acc (fun b a => nodes.HasEdge a b) id) :
    ¬ ∃ a, ReflTransGen nodes.HasEdge id a ∧ TransGen nodes.HasEdge a a := by
  induction h with
  | intro id _ ih =>
    rintro ⟨a, hreach, hcycle⟩
    rcases hreach.cases_head with rfl | ⟨b, hedge, hreach⟩
    · -- the cycle begins with an edge, and comes back to the node behind it
      obtain ⟨b, hedge, hback⟩ := TransGen.head'_iff.mp hcycle
      exact ih b hedge ⟨b, .refl, TransGen.tail' hback hedge⟩
    · exact ih b hedge ⟨a, hreach, hcycle⟩

/-! ### A search without a cycle below it -/

def Marks (nodes : NodeMap) (id : NodeId) (checkList checkList' : CheckList) : Prop :=
  checkList'.keys = checkList.keys ∧
    ∀ a, checkList'.find? a = some true ↔
      checkList.find? a = some true ∨ ReflTransGen nodes.HasEdge id a

theorem checkAll_spec {run : NodeId → CheckList → Option (Except MERROR CheckList)}
    (hrun : ∀ id ∈ ids, ∀ checkList, checkList.keys = nodes.keys →
      ∃ checkList', run id checkList = some (.ok checkList') ∧ Marks nodes id checkList checkList')
    (hkeys : checkList.keys = nodes.keys) :
    ∃ checkList', checkAll run ids checkList = some (.ok checkList') ∧
      checkList'.keys = checkList.keys ∧ ∀ a, checkList'.find? a = some true ↔
        checkList.find? a = some true ∨ ∃ id ∈ ids, ReflTransGen nodes.HasEdge id a := by
  induction ids generalizing checkList with
  | nil => exact ⟨checkList, rfl, rfl, by simp⟩
  | cons id ids ih =>
    obtain ⟨checkList₁, hid, hkeys₁, hmarks₁⟩ := hrun id List.mem_cons_self checkList hkeys
    obtain ⟨checkList', hids, hkeys', hmarks'⟩ :=
      ih (fun a ha => hrun a (List.mem_cons_of_mem _ ha)) (hkeys₁.trans hkeys)
    refine ⟨checkList', ?_, hkeys'.trans hkeys₁, fun a => ?_⟩
    · rw [checkAll, hid]
      exact hids
    · rw [hmarks', hmarks₁, List.exists_mem_cons_iff, or_assoc]

theorem nodup_path (hcycle : ¬ ∃ a, ReflTransGen nodes.HasEdge id a ∧ TransGen nodes.HasEdge a a)
    (hid : id ∈ nodes.keys) (hnodup : path.Nodup)
    (hpath : ∀ a ∈ path, a ∈ nodes.keys ∧ TransGen nodes.HasEdge a id) :
    (id :: path).Nodup ∧ path.length + 1 ≤ nodes.size := by
  have hfresh : (id :: path).Nodup :=
    List.nodup_cons.mpr ⟨fun hmem => hcycle ⟨id, .refl, (hpath id hmem).2⟩, hnodup⟩
  have hsub : id :: path ⊆ nodes.keys :=
    List.cons_subset.mpr ⟨hid, fun a ha => (hpath a ha).1⟩
  have hle := (List.subperm_of_subset hfresh hsub).length_le
  rw [KeyedVector.length_keys, List.length_cons] at hle
  exact ⟨hfresh, hle⟩

/-- **The search**, with the nodes on the path to it, which are all different. -/
theorem checkListDFS_spec (hclosed : OutClosed nodes)
    (hcycle : ¬ ∃ a, ReflTransGen nodes.HasEdge id a ∧ TransGen nodes.HasEdge a a)
    (hid : id ∈ nodes.keys) (hkeys : checkList.keys = nodes.keys) (hnodup : path.Nodup)
    (hpath : ∀ a ∈ path, a ∈ nodes.keys ∧ TransGen nodes.HasEdge a id)
    (hfuel : nodes.size < fuel + path.length + 1) : ∃ checkList',
    checkListDFS nodes fuel id checkList = some (.ok checkList') ∧
      Marks nodes id checkList checkList' := by
  induction fuel generalizing id checkList path with
  | zero =>
    have hlength := (nodup_path hcycle hid hnodup hpath).2
    omega
  | succ fuel ih =>
    obtain ⟨node, hnode⟩ := KeyedVector.mem_keys_iff.mp hid
    have hfresh := (nodup_path hcycle hid hnodup hpath).1
    have hmarked : ∀ a, (checkList.modify id fun _ => true).find? a = some true ↔
        checkList.find? a = some true ∨ a = id := fun a => by
      obtain ⟨c, hc⟩ := KeyedVector.mem_keys_iff.mp (hkeys ▸ hid)
      rw [KeyedVector.find?_modify]
      split
      · rename_i heq
        simp [heq, hc]
      · rename_i hne
        simp [hne]
    have hrun : ∀ b ∈ node.mOutAdj.items, ∀ c : CheckList, c.keys = nodes.keys → ∃ c',
        checkListDFS nodes fuel b c = some (.ok c') ∧ Marks nodes b c c' := fun b hb c hc => by
      have hedge := (hasEdge_iff hnode).mpr hb
      have hcycle' : ¬ ∃ a, ReflTransGen nodes.HasEdge b a ∧ TransGen nodes.HasEdge a a :=
        fun ⟨a, hreach, hback⟩ => hcycle ⟨a, .head hedge hreach, hback⟩
      have hpath' : ∀ a ∈ id :: path, a ∈ nodes.keys ∧ TransGen nodes.HasEdge a b :=
        List.forall_mem_cons.mpr ⟨⟨hid, .single hedge⟩, fun a ha =>
          ⟨(hpath a ha).1, (hpath a ha).2.tail hedge⟩⟩
      exact ih hcycle' (hclosed id b hedge) hc hfresh hpath'
        (by rw [List.length_cons]; omega)
    obtain ⟨checkList', hall, hkeys', hmarks⟩ :=
      checkAll_spec hrun ((KeyedVector.keys_modify _ id fun _ => true).trans hkeys)
    refine ⟨checkList', by rw [checkListDFS, hnode]; exact hall,
      hkeys'.trans (KeyedVector.keys_modify _ _ _), fun a => ?_⟩
    rw [hmarks, hmarked, or_assoc, ReflTransGen.cases_head_iff]
    simp only [← hasEdge_iff hnode, eq_comm (a := a)]

theorem mem_foldl_sortNode (checkList : CheckList) (sets : NodeIdSet × NodeIdSet) (a : NodeId) :
    (a ∈ (ids.foldl (sortNode checkList) sets).1 ↔
      a ∈ sets.1 ∨ a ∈ ids ∧ checkList.find? a ≠ some true) ∧
    (a ∈ (ids.foldl (sortNode checkList) sets).2 ↔
      a ∈ sets.2 ∨ a ∈ ids ∧ checkList.find? a = some true) := by
  induction ids generalizing sets with
  | nil => simp
  | cons id ids ih =>
    rw [List.foldl_cons, (ih _).1, (ih _).2, sortNode]
    by_cases hmark : checkList.find? id = some true
    · rw [if_pos hmark]
      constructor
      · rw [List.mem_cons]
        refine or_congr_right ⟨fun h => ⟨.inr h.1, h.2⟩, fun ⟨hmem, hne⟩ => ⟨?_, hne⟩⟩
        exact hmem.resolve_left fun heq => hne (heq ▸ hmark)
      · rw [SortedVector.mem_add, List.mem_cons]
        have heq : a = id → checkList.find? a = some true := fun heq => heq ▸ hmark
        tauto
    · rw [if_neg hmark]
      constructor
      · rw [SortedVector.mem_add, List.mem_cons]
        have heq : a = id → checkList.find? a ≠ some true := fun heq => heq ▸ hmark
        tauto
      · rw [List.mem_cons]
        refine or_congr_right ⟨fun h => ⟨.inr h.1, h.2⟩, fun ⟨hmem, htrue⟩ => ⟨?_, htrue⟩⟩
        exact hmem.resolve_left fun heq => hmark (heq ▸ htrue)

def OrphansExact (dag : PipelineDAG) : Prop :=
  ∃ fuel err orphanNodes connectedNodes,
    getOrphanNodes fuel dag .empty .empty = some (err, orphanNodes, connectedNodes) ∧
    (∀ a, a ∈ connectedNodes ↔ a ∈ dag.mNodesVec.keys ∧
      ReflTransGen dag.mNodesVec.HasEdge dag.mRootId a) ∧
    ∀ a, a ∈ orphanNodes ↔ a ∈ dag.mNodesVec.keys ∧
      ¬ ReflTransGen dag.mNodesVec.HasEdge dag.mRootId a

/-- **The sets are exact** exactly when the root is a node, or there is none, and it reaches no
cycle. -/
theorem orphans_iff (h : Built dag) (root : NodeId) :
    OrphansExact { dag with mRootId := root } ↔
      (root ∈ dag.mNodesVec.keys ∨ dag.mNodesVec.keys = []) ∧
        ¬ ∃ a, ReflTransGen dag.mNodesVec.HasEdge root a ∧ TransGen dag.mNodesVec.HasEdge a a := by
  have hclosed := h.outClosed
  have hleaf : root ∉ dag.mNodesVec.keys → ∀ a, ReflTransGen dag.mNodesVec.HasEdge root a →
      a = root := fun hroot a hreach => by
    rcases hreach.cases_head with rfl | ⟨b, hedge, -⟩
    · rfl
    · exact absurd (mem_keys_of_mem_outOf hedge) hroot
  have hfailed : ∀ fuel, root ∉ dag.mNodesVec.keys →
      getOrphanNodes (fuel + 1) { dag with mRootId := root } .empty .empty =
        some (.failed, .empty, .empty) := fun fuel hroot => by
    rw [getOrphanNodes, checkListDFS, KeyedVector.find?_eq_none_iff.mpr hroot]
  constructor
  · rintro ⟨fuel, err, orphanNodes, connectedNodes, hget, -, horphan⟩
    by_cases hroot : root ∈ dag.mNodesVec.keys
    · refine ⟨.inl hroot, ?_⟩
      rw [getOrphanNodes] at hget
      cases hsearch : checkListDFS dag.mNodesVec fuel root
          (dag.mNodesVec.mapVal fun _ _ => false) with
      | none => simp [hsearch] at hget
      | some r => exact not_cycle_of_acc (acc_of_checkListDFS hclosed hroot hsearch).2
    · refine ⟨.inr (List.eq_nil_iff_forall_not_mem.mpr fun a ha => ?_), ?_⟩
      · cases fuel with
        | zero => cases hget
        | succ fuel =>
          rw [hfailed fuel hroot] at hget
          cases hget
          refine SortedVector.not_mem_empty ((horphan a).mpr ⟨ha, fun hreach => ?_⟩)
          exact hroot (hleaf hroot a hreach ▸ ha)
      · rintro ⟨a, hreach, hcycle⟩
        obtain ⟨b, hedge, -⟩ := TransGen.head'_iff.mp hcycle
        exact hroot (hleaf hroot a hreach ▸ mem_keys_of_mem_outOf hedge)
  · rintro ⟨hroot, hcycle⟩
    by_cases hmem : root ∈ dag.mNodesVec.keys
    · have hstart : ∀ a, (dag.mNodesVec.mapVal fun _ _ => false).find? a ≠ some true := fun a => by
        rw [KeyedVector.find?_mapVal]
        cases dag.mNodesVec.find? a <;> simp
      obtain ⟨checkList, hsearch, -, hmarks⟩ := checkListDFS_spec hclosed hcycle hmem
        (KeyedVector.keys_mapVal (fun _ _ => false) dag.mNodesVec) List.nodup_nil (by simp)
        (Nat.lt_succ_self _)
      refine ⟨_, _, _, _, by rw [getOrphanNodes, hsearch], fun a => ?_, fun a => ?_⟩
      · rw [(mem_foldl_sortNode _ _ _).2, hmarks, or_iff_right (hstart a)]
        simp
      · rw [(mem_foldl_sortNode _ _ _).1, ne_eq, hmarks, or_iff_right (hstart a)]
        simp
    · have hnone := hroot.resolve_left hmem
      exact ⟨1, _, _, _, hfailed 0 hmem, by simp [hnone], by simp [hnone]⟩

theorem built_oneEdge : Built oneEdge := ((Built.create.addNode 1 0).addNode 2 1).addEdge 1 2

/-- The root of `1 → 2`. -/
theorem orphans_oneEdge : OrphansExact { oneEdge with mRootId := 1 } := by
  have hsearch : (checkListDFS oneEdge.mNodesVec 2 1 .empty).isSome = true := by decide
  obtain ⟨r, hr⟩ := Option.isSome_iff_exists.mp hsearch
  have hacc := (acc_of_checkListDFS built_oneEdge.outClosed (by decide) hr).2
  exact (orphans_iff built_oneEdge 1).mpr ⟨.inl (by decide), not_cycle_of_acc hacc⟩

/-- The cycle `1 → 2 → 1`. -/
def twoCycle : PipelineDAG := { (oneEdge.addEdge 2 1).1 with mRootId := 1 }

/-- The search on a cycle does not return. -/
theorem endless_search :
    Built (oneEdge.addEdge 2 1).1 ∧ (∀ fuel, getOrphanNodes fuel twoCycle .empty .empty = none) ∧
      ¬ OrphansExact twoCycle := by
  have hbuilt : Built (oneEdge.addEdge 2 1).1 := built_oneEdge.addEdge 2 1
  have hcycle : ∃ a, ReflTransGen twoCycle.mNodesVec.HasEdge 1 a ∧
      TransGen twoCycle.mNodesVec.HasEdge a a :=
    ⟨1, .refl, .head (by decide : twoCycle.mNodesVec.HasEdge 1 2) (.single (by decide))⟩
  have hnone : ∀ fuel, getOrphanNodes fuel twoCycle .empty .empty = none := fun fuel => by
    rw [getOrphanNodes]
    cases hsearch : checkListDFS twoCycle.mNodesVec fuel twoCycle.mRootId
        (twoCycle.mNodesVec.mapVal fun _ _ => false) with
    | none => rfl
    | some r =>
      have hacc := (acc_of_checkListDFS hbuilt.outClosed (by decide) hsearch).2
      exact absurd hcycle (not_cycle_of_acc hacc)
  refine ⟨hbuilt, hnone, ?_⟩
  rintro ⟨fuel, err, orphanNodes, connectedNodes, hget, -⟩
  rw [hnone] at hget
  cases hget

end PipelineDAG

end MtkHardware.Pipeline
