import MtkHardware.Pipeline.DagClone
import MtkHardware.Pipeline.OrphanSearch
import MtkHardware.Util.Lists
import Mathlib.Data.List.Infix

/-!
# Reconnecting a Part of the Pipeline Graph

`getNodesAndPathsForNewDAG` gives every orphan of a part of the graph a path from the root. It
searches backwards from the orphan, breadth first, until it meets a node that the root reaches, and
adds the nodes of the path to the part. A node that is there already is replaced, so it loses its
own two sets, and its id stays in the sets of the others.
-/

namespace MtkHardware.Pipeline

open Relation NodeMap

namespace PipelineDAG

/-! ### The search -/

/-- The nodes to visit, and the nodes that they were met from. -/
structure Bfs where
  queue : List NodeId
  parent : KeyedVector NodeId NodeId

/-- The inner loop of `findPathBFS`, over the nodes ahead of `dst`. It ends at the first that is in
the check list. -/
def scanIn (checkList : NodeIdSet) (dst : NodeId) : List NodeId → Bfs → Option NodeId × Bfs
  | [], s => (none, s)
  | a :: as, s =>
    if a ∈ checkList then (some a, s)
    else scanIn checkList dst as ⟨s.queue ++ [a], s.parent.add a dst⟩

/-- Add a node of the graph to the part, with an edge from `src`. -/
def link (src dst : NodeId) (node : NodeObj) (newDAG : PipelineDAG) : PipelineDAG :=
  ((newDAG.addNode node.id node.val).1.addEdge src dst).1

/-- The walk of `findPathBFS` from `dst` to `id`, by the nodes that the nodes were met from. It does
not return when it is longer than `fuel`. -/
def walk (nodes : NodeMap) (parent : KeyedVector NodeId NodeId) (id : NodeId) :
    ℕ → NodeId → NodeId → NodeIdSet → PipelineDAG → Option (NodeIdSet × PipelineDAG)
  | 0, _, _, _, _ => none
  | fuel + 1, src, dst, checkList, newDAG =>
    match nodes.find? dst with
    | none => none
    | some node =>
      let newDAG := link src dst node.mNode newDAG
      let checkList := checkList.add dst
      if dst = id then some (checkList, newDAG)
      else
        match parent.find? dst with
        | none => none
        | some next => walk nodes parent id fuel dst next checkList newDAG

/-- The outer loop of `findPathBFS`. -/
def searchPath (nodes : NodeMap) (id : NodeId) :
    ℕ → Bfs → NodeIdSet → PipelineDAG → Option (MERROR × NodeIdSet × PipelineDAG)
  | 0, _, _, _ => none
  | fuel + 1, s, checkList, newDAG =>
    match s.queue with
    | [] => some (.failed, checkList, newDAG)
    | dst :: _ =>
      match nodes.find? dst with
      | none => none
      | some node =>
        match scanIn checkList dst node.mInAdj.items s with
        | (some src, s) =>
          (walk nodes s.parent id fuel src dst checkList newDAG).map fun r => (.ok, r)
        | (none, s) =>
          searchPath nodes id fuel { s with queue := s.queue.tail } checkList newDAG

/-- **Find a path to a node.** The search does not return after `fuel` nodes. -/
def findPathBFS (dag : PipelineDAG) (fuel : ℕ) (id : NodeId) (checkList : NodeIdSet)
    (newDAG : PipelineDAG) : Option (MERROR × NodeIdSet × PipelineDAG) :=
  searchPath dag.mNodesVec id fuel ⟨[id], .empty⟩ checkList newDAG

/-- The orphans by the number of nodes ahead of them. The sort is stable; `adjCompare` swaps two
nodes when the first has more nodes ahead of it. -/
def sortedByInAdj (dag : PipelineDAG) (orphanNodes : NodeIdSet) : Option (List NodeId) :=
  (orphanNodes.items.mapM dag.mNodesVec.find?).map fun nodes =>
    (nodes.insertionSort fun lhs rhs => lhs.mInAdj.size ≤ rhs.mInAdj.size).map (·.mNode.id)

/-- The loop of `getNodesAndPathsForNewDAG`. -/
def findPaths (dag : PipelineDAG) (fuel : ℕ) :
    List NodeId → NodeIdSet → PipelineDAG → Option (MERROR × NodeIdSet × PipelineDAG)
  | [], checkList, newDAG => some (.ok, checkList, newDAG)
  | id :: ids, checkList, newDAG =>
    match dag.findPathBFS fuel id checkList newDAG with
    | none => none
    | some (.ok, checkList, newDAG) => findPaths dag fuel ids checkList newDAG
    | some (_, checkList, newDAG) => some (.failed, checkList, newDAG)

/-- **Make the orphans reachable.** -/
def getNodesAndPathsForNewDAG (dag : PipelineDAG) (fuel : ℕ) (orphanNodes checkList : NodeIdSet)
    (newDAG : PipelineDAG) : Option (MERROR × NodeIdSet × PipelineDAG) :=
  match dag.sortedByInAdj orphanNodes with
  | none => none
  | some ids => dag.findPaths fuel ids checkList newDAG

/-! ### Adding a path -/

/-- The nodes of a path are added one after another, each with an edge from the one before. -/
inductive Adds (nodes : NodeMap) :
    NodeId → List NodeId → NodeIdSet → PipelineDAG → NodeIdSet → PipelineDAG → Prop
  | nil {src : NodeId} {checkList : NodeIdSet} {newDAG : PipelineDAG} :
      Adds nodes src [] checkList newDAG checkList newDAG
  | cons {src dst : NodeId} {path : List NodeId} {node : NodeWithAdj}
      {checkList checkList' : NodeIdSet} {newDAG newDAG' : PipelineDAG}
      (hnode : nodes.find? dst = some node)
      (hrest : Adds nodes dst path (checkList.add dst) (link src dst node.mNode newDAG) checkList'
        newDAG') :
      Adds nodes src (dst :: path) checkList newDAG checkList' newDAG'

structure Frame (src : NodeId) (path : List NodeId) (dag dag' : PipelineDAG) : Prop where
  root : dag'.mRootId = dag.mRootId
  mem : ∀ a, a ∈ dag'.mNodesVec.keys ↔ a ∈ dag.mNodesVec.keys ∨ a ∈ path
  value : ∀ a, a ∉ path → nodeOf dag'.mNodesVec a = nodeOf dag.mNodesVec a
  in' : ∀ a b, b ∉ path → (a ∈ inOf dag'.mNodesVec b ↔ a ∈ inOf dag.mNodesVec b)
  out : ∀ a b, b ∉ path →
    (b ∈ outOf dag'.mNodesVec a ↔ b ∈ outOf dag.mNodesVec a ∧ a ∉ path)
  away : ∀ a b, a ≠ src → a ∉ path →
    (b ∈ outOf dag'.mNodesVec a ↔ b ∈ outOf dag.mNodesVec a)

variable {dag newDAG newDAG' : PipelineDAG} {src dst id a b : NodeId} {path ids : List NodeId}
  {checkList checkList' orphanNodes : NodeIdSet} {node : NodeObj} {fuel : ℕ}

/-- **Linking a node** takes its edges away, and adds the one from `src`. -/
theorem link_spec (hid : node.id = dst) (hsrc : src ∈ newDAG.mNodesVec.keys) :
    (link src dst node newDAG).mRootId = newDAG.mRootId ∧
      (∀ a, a ∈ (link src dst node newDAG).mNodesVec.keys ↔
        a ∈ newDAG.mNodesVec.keys ∨ a = dst) ∧
      (∀ a, nodeOf (link src dst node newDAG).mNodesVec a =
        if a = dst then some node else nodeOf newDAG.mNodesVec a) ∧
      (∀ a b, a ∈ inOf (link src dst node newDAG).mNodesVec b ↔
        a ∈ inOf newDAG.mNodesVec b ∧ b ≠ dst ∨ a = src ∧ b = dst) ∧
      ∀ a b, b ∈ outOf (link src dst node newDAG).mNodesVec a ↔
        b ∈ outOf newDAG.mNodesVec a ∧ a ≠ dst ∨ a = src ∧ b = dst := by
  subst hid
  set added := (newDAG.addNode node.id node.val).1 with hadded
  have hmem : ∀ a, a ∈ added.mNodesVec.keys ↔ a = node.id ∨ a ∈ newDAG.mNodesVec.keys := fun a =>
    KeyedVector.mem_keys_add
  have hvalue : ∀ a, nodeOf added.mNodesVec a =
      if a = node.id then some node else nodeOf newDAG.mNodesVec a := fun a => by
    rw [hadded, nodeOf, nodeOf, PipelineDAG.addNode, KeyedVector.find?_add]
    split <;> rfl
  have hin : ∀ a b, a ∈ inOf added.mNodesVec b ↔ a ∈ inOf newDAG.mNodesVec b ∧ b ≠ node.id := by
    intro a b
    rw [hadded, inOf, inOf, PipelineDAG.addNode, KeyedVector.find?_add]
    split <;> simp_all [NodeWithAdj.ofNode]
  have hout : ∀ a b, b ∈ outOf added.mNodesVec a ↔
      b ∈ outOf newDAG.mNodesVec a ∧ a ≠ node.id := by
    intro a b
    rw [hadded, outOf, outOf, PipelineDAG.addNode, KeyedVector.find?_add]
    split <;> simp_all [NodeWithAdj.ofNode]
  obtain ⟨-, hroot, hkeys, hout', hin'⟩ :=
    addEdge_spec ((hmem src).mpr (.inr hsrc)) ((hmem node.id).mpr (.inl rfl))
  refine ⟨hroot, fun a => ?_, fun a => ?_, fun a b => ?_, fun a b => ?_⟩
  · rw [link, hkeys, hmem, or_comm]
  · rw [link, nodeOf_addEdge, hvalue]
  · rw [link, hin', hin]
  · rw [link, hout', hout]

/-- **A path** touches the edges of its nodes only. -/
theorem adds_frame (hids : dag.IdsMatch) (hsrc : src ∈ newDAG.mNodesVec.keys)
    (h : Adds dag.mNodesVec src path checkList newDAG checkList' newDAG') :
    Frame src path newDAG newDAG' ∧ ∀ a, a ∈ checkList' ↔ a ∈ checkList ∨ a ∈ path := by
  induction h with
  | nil =>
    exact ⟨⟨rfl, by simp, fun _ _ => rfl, fun _ _ _ => Iff.rfl, by simp,
      fun _ _ _ _ => Iff.rfl⟩, by simp⟩
  | @cons src dst path node checkList checkList' newDAG newDAG' hnode _ ih =>
    have hid : node.mNode.id = dst := hids dst _ (by rw [nodeOf, hnode]; rfl)
    obtain ⟨hroot, hmem, hvalue, hin, hout⟩ := link_spec hid hsrc
    obtain ⟨hframe, hcheck⟩ := ih ((hmem dst).mpr (.inr rfl))
    refine ⟨⟨hframe.root.trans hroot, fun a => ?_, fun a ha => ?_, fun a b hb => ?_,
      fun a b hb => ?_, fun a b hsrc' ha => ?_⟩, fun a => ?_⟩
    · rw [hframe.mem, hmem, List.mem_cons, or_assoc]
    · obtain ⟨hne, ha⟩ := List.ne_and_not_mem_of_not_mem_cons ha
      rw [hframe.value a ha, hvalue, if_neg hne]
    · obtain ⟨hne, hb⟩ := List.ne_and_not_mem_of_not_mem_cons hb
      rw [hframe.in' a b hb, hin]
      simp [hne]
    · obtain ⟨hne, hb⟩ := List.ne_and_not_mem_of_not_mem_cons hb
      rw [hframe.out a b hb, hout, List.mem_cons]
      simp [hne, and_assoc]
    · obtain ⟨hne, ha⟩ := List.ne_and_not_mem_of_not_mem_cons ha
      rw [hframe.away a b hne ha, hout]
      simp [hne, hsrc']
    · rw [hcheck, SortedVector.mem_add, List.mem_cons]
      tauto

theorem pair_infix_cons_cons : [a, b] <:+: src :: dst :: path ↔
    a = src ∧ b = dst ∨ [a, b] <:+: dst :: path := by
  rw [List.infix_cons_iff, List.cons_prefix_cons, List.cons_prefix_cons]
  simp

/-- **The edges of a path** that comes to none of its nodes twice. -/
theorem adds_spec (hids : dag.IdsMatch) (hsrc : src ∈ newDAG.mNodesVec.keys)
    (hnodup : (src :: path).Nodup)
    (h : Adds dag.mNodesVec src path checkList newDAG checkList' newDAG') :
    (∀ a b, a ∈ inOf newDAG'.mNodesVec b ↔
        a ∈ inOf newDAG.mNodesVec b ∧ b ∉ path ∨ [a, b] <:+: src :: path) ∧
      (∀ a b, b ∈ outOf newDAG'.mNodesVec a ↔
        b ∈ outOf newDAG.mNodesVec a ∧ a ∉ path ∨ [a, b] <:+: src :: path) ∧
      ∀ a ∈ path, nodeOf newDAG'.mNodesVec a = nodeOf dag.mNodesVec a := by
  induction h with
  | @nil src =>
    have hnone : ∀ a b : NodeId, ¬ [a, b] <:+: [src] := fun a b hpair => by
      have hlength := hpair.length_le
      simp at hlength
    simp [hnone]
  | @cons src dst path node checkList checkList' newDAG newDAG' hnode hrest ih =>
    have hid : node.mNode.id = dst := hids dst _ (by rw [nodeOf, hnode]; rfl)
    obtain ⟨-, hmem, hvalue, hin, hout⟩ := link_spec hid hsrc
    have hdst := (hmem dst).mpr (.inr rfl)
    obtain ⟨hframe, -⟩ := adds_frame hids hdst hrest
    obtain ⟨hsrcPath, hnodup⟩ := List.nodup_cons.mp hnodup
    obtain ⟨hsrcDst, hsrcPath⟩ := List.ne_and_not_mem_of_not_mem_cons hsrcPath
    have hdstPath := (List.nodup_cons.mp hnodup).1
    obtain ⟨hin', hout', hvalue'⟩ := ih hdst hnodup
    refine ⟨fun a b => ?_, fun a b => ?_, fun a ha => ?_⟩
    · rw [hin', hin, pair_infix_cons_cons, List.mem_cons]
      have hb : b = dst → b ∉ path := fun heq => heq ▸ hdstPath
      tauto
    · rw [hout', hout, pair_infix_cons_cons, List.mem_cons]
      have ha : a = src → a ∉ path := fun heq => heq ▸ hsrcPath
      tauto
    · rcases List.mem_cons.mp ha with rfl | ha
      · rw [hframe.value a hdstPath, hvalue, if_pos rfl, nodeOf, hnode]
        rfl
      · exact hvalue' a ha

/-! ### Paths that are found -/

/-- A path by the nodes that nodes were met from, to its end. -/
inductive Parents (parent : KeyedVector NodeId NodeId) (id : NodeId) : List NodeId → Prop
  | last : Parents parent id [id]
  | cons {a b : NodeId} {path : List NodeId} (hne : a ≠ id) (hparent : parent.find? a = some b)
      (hrest : Parents parent id (b :: path)) : Parents parent id (a :: b :: path)

variable {parent : KeyedVector NodeId NodeId} {nodes : NodeMap} {s : Bfs}

theorem Parents.unique {p q : List NodeId} (hp : Parents parent id p) (hq : Parents parent id q)
    (hhead : p.head? = q.head?) : p = q := by
  induction hp generalizing q with
  | last =>
    cases hq with
    | last => rfl
    | cons hne _ _ => exact absurd (Option.some.inj hhead).symm hne
  | cons hne hparent _ ih =>
    cases hq with
    | last => exact absurd (Option.some.inj hhead) hne
    | cons _ hparent' hrest' =>
      cases Option.some.inj hhead
      cases Option.some.inj (hparent.symm.trans hparent')
      rw [ih hrest' rfl]

theorem Parents.suffix {p q : List NodeId} (hp : Parents parent id p) (hq : q <:+ p)
    (hne : q ≠ []) : Parents parent id q := by
  induction hp with
  | last =>
    rcases List.suffix_cons_iff.mp hq with rfl | hq
    · exact .last
    · exact absurd (List.eq_nil_of_suffix_nil hq) hne
  | cons hne' hparent hrest ih =>
    rcases List.suffix_cons_iff.mp hq with rfl | hq
    · exact .cons hne' hparent hrest
    · exact ih hq

theorem Parents.nodup {p : List NodeId} (hp : Parents parent id p) : p.Nodup := by
  induction hp with
  | last => exact List.nodup_singleton id
  | @cons a b path hne hparent hrest ih =>
    refine List.nodup_cons.mpr ⟨fun hmem => ?_, ih⟩
    obtain ⟨l₁, l₂, hsplit⟩ := List.append_of_mem hmem
    have hback := hrest.suffix ⟨l₁, hsplit.symm⟩ (List.cons_ne_nil a l₂)
    have hsame := (Parents.cons hne hparent hrest).unique hback rfl
    have hlength := congrArg List.length hsame
    rw [hsplit] at hlength
    simp at hlength
    omega

theorem Parents.last_eq {p : List NodeId} (hp : Parents parent id p) : ∃ l, p = l ++ [id] := by
  induction hp with
  | last => exact ⟨[], rfl⟩
  | @cons a b path _ _ _ ih =>
    obtain ⟨l, hl⟩ := ih
    exact ⟨a :: l, by rw [hl]; rfl⟩

theorem Parents.find?_of_infix {p : List NodeId} (hp : Parents parent id p)
    (hpair : [a, b] <:+: p) : parent.find? a = some b := by
  induction hp with
  | last =>
    have hlength := hpair.length_le
    simp at hlength
  | cons _ hparent _ ih =>
    rcases pair_infix_cons_cons.mp hpair with ⟨rfl, rfl⟩ | hpair
    · exact hparent
    · exact ih hpair

theorem Parents.exists_find? {p : List NodeId} (hp : Parents parent id p) (ha : a ∈ p)
    (hne : a ≠ id) : ∃ b, parent.find? a = some b := by
  induction hp with
  | last => exact absurd (List.mem_singleton.mp ha) hne
  | cons _ hparent _ ih =>
    rcases List.mem_cons.mp ha with rfl | ha
    · exact ⟨_, hparent⟩
    · exact ih ha

/-- **The walk** adds the nodes of a path. -/
theorem walk_spec (h : walk nodes parent id fuel src dst checkList newDAG =
    some (checkList', newDAG')) : ∃ path, Parents parent id (dst :: path) ∧
      Adds nodes src (dst :: path) checkList newDAG checkList' newDAG' := by
  induction fuel generalizing src dst checkList newDAG with
  | zero => cases h
  | succ fuel ih =>
    rw [walk] at h
    cases hnode : nodes.find? dst with
    | none => simp [hnode] at h
    | some node =>
      simp only [hnode] at h
      split at h
      · rename_i heq
        cases h
        exact ⟨[], heq ▸ .last, .cons hnode .nil⟩
      · rename_i hne
        cases hparent : parent.find? dst with
        | none => simp [hparent] at h
        | some next =>
          simp only [hparent] at h
          obtain ⟨path, hpath, hadds⟩ := ih h
          exact ⟨next :: path, .cons hne hparent hpath, .cons hnode hadds⟩

def Met (nodes : NodeMap) (checkList : NodeIdSet) (parent : KeyedVector NodeId NodeId) : Prop :=
  ∀ a b, parent.find? a = some b → a ∈ inOf nodes b ∧ a ∉ checkList

/-- **The inner loop** finds the first node that is in the check list. -/
theorem scanIn_spec (hids : ∀ a ∈ ids, a ∈ inOf nodes dst) (hmet : Met nodes checkList s.parent) :
    (scanIn checkList dst ids s).1 = ids.find? (· ∈ checkList) ∧
      Met nodes checkList (scanIn checkList dst ids s).2.parent := by
  induction ids generalizing s with
  | nil => exact ⟨rfl, hmet⟩
  | cons a as ih =>
    obtain ⟨ha, has⟩ := List.forall_mem_cons.mp hids
    rw [scanIn]
    split
    · rename_i hmem
      exact ⟨by rw [List.find?_cons_of_pos (by simpa using hmem)], hmet⟩
    · rename_i hmem
      rw [List.find?_cons_of_neg (by simpa using hmem)]
      refine ih has fun c b hc => ?_
      rw [KeyedVector.find?_add] at hc
      split at hc
      · rename_i heq
        cases hc
        exact heq ▸ ⟨ha, hmem⟩
      · exact hmet c b hc

def firstAhead (nodes : NodeMap) (checkList : NodeIdSet) (id : NodeId) : Option NodeId :=
  (inOf nodes id).items.find? (· ∈ checkList)

/-- What a path to `id` is that is found. -/
structure Found (nodes : NodeMap) (checkList : NodeIdSet) (id src : NodeId) (path : List NodeId) :
    Prop where
  start : src ∈ checkList
  ahead : ∀ a b, [a, b] <:+: src :: path → a ∈ inOf nodes b
  last : ∃ l, path = l ++ [id]
  nodup : path.Nodup
  fresh : ∀ a ∈ path, a ≠ id → a ∉ checkList
  direct : path = [id] → firstAhead nodes checkList id = some src

theorem searchPath_spec (hmet : Met nodes checkList s.parent)
    (h : searchPath nodes id fuel s checkList newDAG = some (.ok, checkList', newDAG')) :
    ∃ src path, Found nodes checkList id src path ∧
      Adds nodes src path checkList newDAG checkList' newDAG' ∧
      (s.queue.head? = some id → firstAhead nodes checkList id ≠ none → path = [id]) := by
  induction fuel generalizing s with
  | zero => cases h
  | succ fuel ih =>
    rw [searchPath] at h
    cases hqueue : s.queue with
    | nil => simp [hqueue] at h
    | cons dst queue =>
      simp only [hqueue] at h
      cases hnode : nodes.find? dst with
      | none => simp [hnode] at h
      | some node =>
        simp only [hnode] at h
        have hin := inOf_of_find? hnode
        have hahead : ∀ a ∈ node.mInAdj.items, a ∈ inOf nodes dst := fun a ha => hin ▸ ha
        obtain ⟨hfirst, hmet'⟩ := scanIn_spec hahead hmet
        rw [← hin, ← firstAhead] at hfirst
        rw [← hin] at hmet' h
        cases hscan : scanIn checkList dst (inOf nodes dst).items s with
        | mk found s' =>
          rw [hscan] at hfirst hmet' h
          dsimp only at hfirst hmet' h
          cases found with
          | some src =>
            obtain ⟨⟨_, _⟩, hwalk, heq⟩ := Option.map_eq_some_iff.mp h
            cases heq
            obtain ⟨path, hpath, hadds⟩ := walk_spec hwalk
            have hsrc := List.mem_of_find?_eq_some hfirst.symm
            refine ⟨src, dst :: path, ⟨?_, fun a b hpair => ?_, hpath.last_eq,
              hpath.nodup, fun a ha hne => ?_, fun heq => ?_⟩, hadds, fun heq _ => ?_⟩
            · simpa using List.find?_some hfirst.symm
            · rcases pair_infix_cons_cons.mp hpair with ⟨rfl, rfl⟩ | hpair
              · exact hsrc
              · exact (hmet' a b (hpath.find?_of_infix hpair)).1
            · obtain ⟨b, hb⟩ := hpath.exists_find? ha hne
              exact (hmet' a b hb).2
            · cases heq
              exact hfirst.symm
            · cases Option.some.inj heq
              exact hpath.unique .last rfl
          | none =>
            obtain ⟨src, path, hfound, hadds, -⟩ := ih (s := ⟨s'.queue.tail, s'.parent⟩)
              hmet' h
            refine ⟨src, path, hfound, hadds, fun heq hsome => ?_⟩
            cases Option.some.inj heq
            exact absurd hfirst.symm hsome

/-- **A path that is found** comes from a node in the check list, and directly if there is such a
node ahead of the orphan. -/
theorem findPathBFS_spec
    (h : dag.findPathBFS fuel id checkList newDAG = some (.ok, checkList', newDAG')) :
    ∃ src path, Found dag.mNodesVec checkList id src path ∧
      Adds dag.mNodesVec src path checkList newDAG checkList' newDAG' ∧
      (firstAhead dag.mNodesVec checkList id ≠ none → path = [id]) := by
  obtain ⟨src, path, hfound, hadds, hfirst⟩ := searchPath_spec (fun a b hab => by cases hab) h
  exact ⟨src, path, hfound, hadds, hfirst rfl⟩

/-! ### Orphans in their turn -/

structure SubgraphOf (newDAG dag : PipelineDAG) : Prop where
  nodes : ∀ a x, nodeOf newDAG.mNodesVec a = some x → nodeOf dag.mNodesVec a = some x
  edges : ∀ a b, newDAG.mNodesVec.HasEdge a b → dag.mNodesVec.HasEdge a b

structure SetsExact (newDAG : PipelineDAG) (orphanNodes checkList : NodeIdSet) : Prop where
  connected : ∀ a, a ∈ checkList ↔ a ∈ newDAG.mNodesVec.keys ∧
    ReflTransGen newDAG.mNodesVec.HasEdge newDAG.mRootId a
  orphan : ∀ a, a ∈ orphanNodes ↔ a ∈ newDAG.mNodesVec.keys ∧
    ¬ ReflTransGen newDAG.mNodesVec.HasEdge newDAG.mRootId a

/-- **The part is reconnected**: its orphans are reachable, it is a part of the graph whose edges
are coherent, and it still has the nodes and the edges it had. -/
structure Reconnected (dag newDAG newDAG' : PipelineDAG) (orphanNodes : NodeIdSet) : Prop where
  root : newDAG'.mRootId = newDAG.mRootId
  reachable : ∀ a ∈ orphanNodes, ReflTransGen newDAG'.mNodesVec.HasEdge newDAG'.mRootId a
  subgraph : newDAG'.SubgraphOf dag
  coherent : newDAG'.Coherent
  kept : newDAG.SubgraphOf newDAG'

/-- An orphan is **ready** when it is not in the check list, no node behind it is, and each node
ahead of it is the first node ahead of it in the graph that is in the check list. -/
structure Ready (dag : PipelineDAG) (id : NodeId) (checkList : NodeIdSet) (newDAG : PipelineDAG) :
    Prop where
  fresh : id ∉ checkList
  behind : ∀ b, newDAG.mNodesVec.HasEdge id b → b ∉ checkList
  ahead : ∀ a ∈ inOf newDAG.mNodesVec id, firstAhead dag.mNodesVec checkList id = some a

def InTurn (dag : PipelineDAG) (fuel : ℕ) : List NodeId → NodeIdSet → PipelineDAG → Prop
  | [], _, _ => True
  | id :: ids, checkList, newDAG => Ready dag id checkList newDAG ∧
      ∀ checkList' newDAG',
        dag.findPathBFS fuel id checkList newDAG = some (.ok, checkList', newDAG') →
          InTurn dag fuel ids checkList' newDAG'

def OrphansInTurn (dag : PipelineDAG) (fuel : ℕ) (orphanNodes checkList : NodeIdSet)
    (newDAG : PipelineDAG) : Prop :=
  ∀ ids, dag.sortedByInAdj orphanNodes = some ids → InTurn dag fuel ids checkList newDAG

theorem map_id_of_map_find? {nodes : List NodeWithAdj} (hids : dag.IdsMatch)
    (h : ids.map dag.mNodesVec.find? = nodes.map some) : nodes.map (·.mNode.id) = ids := by
  induction ids generalizing nodes with
  | nil => rw [List.map_eq_nil_iff.mp h.symm, List.map_nil]
  | cons id ids ih =>
    cases nodes with
    | nil => cases h
    | cons node nodes =>
      obtain ⟨hnode, hnodes⟩ := List.cons.inj h
      have hid : node.mNode.id = id := hids id _ (by rw [nodeOf, hnode]; rfl)
      rw [List.map_cons, hid, ih hnodes]

theorem perm_sortedByInAdj (hids : dag.IdsMatch) (h : dag.sortedByInAdj orphanNodes = some ids) :
    ids.Perm orphanNodes.items := by
  obtain ⟨nodes, hnodes, rfl⟩ := Option.map_eq_some_iff.mp h
  have hitems := map_id_of_map_find? hids (mapM_eq_some_iff.mp hnodes)
  exact hitems ▸ (List.perm_insertionSort _ nodes).map _

theorem findPaths_cons
    (h : dag.findPaths fuel (id :: ids) checkList newDAG = some (.ok, checkList', newDAG')) :
    ∃ checkList₁ newDAG₁,
      dag.findPathBFS fuel id checkList newDAG = some (.ok, checkList₁, newDAG₁) ∧
      dag.findPaths fuel ids checkList₁ newDAG₁ = some (.ok, checkList', newDAG') := by
  rw [findPaths] at h
  split at h
  · cases h
  · rename_i checkList₁ newDAG₁ hfind
    exact ⟨checkList₁, newDAG₁, hfind, h⟩
  · cases h

/-! ### Runs of the loop -/

/-- How far the loop is: the nodes that are not in the check list are as they were. -/
structure Tracks (newDAG₀ : PipelineDAG) (ids : List NodeId) (checkList : NodeIdSet)
    (newDAG : PipelineDAG) : Prop where
  root : newDAG.mRootId = newDAG₀.mRootId
  mem : ∀ a, a ∈ newDAG.mNodesVec.keys ↔ a ∈ newDAG₀.mNodesVec.keys ∨ a ∈ checkList
  left : ∀ a ∈ newDAG₀.mNodesVec.keys, a ∈ checkList ∨ a ∈ ids
  in' : ∀ b ∉ checkList, ∀ a, a ∈ inOf newDAG.mNodesVec b ↔ a ∈ inOf newDAG₀.mNodesVec b
  out : ∀ a ∉ checkList, ∀ b, b ∈ outOf newDAG.mNodesVec a ↔ b ∈ outOf newDAG₀.mNodesVec a

variable {newDAG₀ newDAG₁ : PipelineDAG} {checkList₁ : NodeIdSet}

structure PathAdded (dag : PipelineDAG) (id : NodeId) (checkList : NodeIdSet)
    (newDAG : PipelineDAG) (checkList₁ : NodeIdSet) (newDAG₁ : PipelineDAG) (src : NodeId)
    (path : List NodeId) : Prop where
  found : Found dag.mNodesVec checkList id src path
  direct : firstAhead dag.mNodesVec checkList id ≠ none → path = [id]
  frame : Frame src path newDAG newDAG₁
  check : ∀ a, a ∈ checkList₁ ↔ a ∈ checkList ∨ a ∈ path
  edges : (src :: path).Nodup →
    (∀ a b, a ∈ inOf newDAG₁.mNodesVec b ↔
        a ∈ inOf newDAG.mNodesVec b ∧ b ∉ path ∨ [a, b] <:+: src :: path) ∧
      (∀ a b, b ∈ outOf newDAG₁.mNodesVec a ↔
        b ∈ outOf newDAG.mNodesVec a ∧ a ∉ path ∨ [a, b] <:+: src :: path) ∧
      ∀ a ∈ path, nodeOf newDAG₁.mNodesVec a = nodeOf dag.mNodesVec a

theorem Tracks.pathAdded (h : Tracks newDAG₀ ids checkList newDAG) (hids : dag.IdsMatch)
    (hfind : dag.findPathBFS fuel id checkList newDAG = some (.ok, checkList₁, newDAG₁)) :
    ∃ src path, PathAdded dag id checkList newDAG checkList₁ newDAG₁ src path := by
  obtain ⟨src, path, hfound, hadds, hdirect⟩ := findPathBFS_spec hfind
  have hsrc := (h.mem src).mpr (.inr hfound.start)
  obtain ⟨hframe, hcheck⟩ := adds_frame hids hsrc hadds
  exact ⟨src, path, hfound, hdirect, hframe, hcheck, fun hnodup =>
    adds_spec hids hsrc hnodup hadds⟩

/-- A node that is not in the check list before the step is not on the path before its end. -/
theorem PathAdded.nodup
    (h : PathAdded dag id checkList newDAG checkList₁ newDAG₁ src path)
    (hid : id ∉ checkList) : (∀ a ∈ path, a ∉ checkList) ∧ (src :: path).Nodup := by
  have hfresh : ∀ a ∈ path, a ∉ checkList := fun a ha => by
    by_cases heq : a = id
    · exact heq ▸ hid
    · exact h.found.fresh a ha heq
  exact ⟨hfresh, List.nodup_cons.mpr ⟨fun hmem => hfresh src hmem h.found.start, h.found.nodup⟩⟩

theorem PathAdded.mem_path
    (h : PathAdded dag id checkList newDAG checkList₁ newDAG₁ src path) : id ∈ path := by
  obtain ⟨l, rfl⟩ := h.found.last
  simp

/-- **The step** keeps track. -/
theorem Tracks.step (h : Tracks newDAG₀ (id :: ids) checkList newDAG)
    (hpath : PathAdded dag id checkList newDAG checkList₁ newDAG₁ src path) :
    Tracks newDAG₀ ids checkList₁ newDAG₁ := by
  refine ⟨hpath.frame.root.trans h.root, fun a => ?_, fun a ha => ?_, fun b hb a => ?_,
    fun a ha b => ?_⟩
  · rw [hpath.frame.mem, h.mem, hpath.check, or_assoc]
  · rw [hpath.check]
    rcases h.left a ha with hcheck | hmem
    · exact .inl (.inl hcheck)
    · rcases List.mem_cons.mp hmem with rfl | hmem
      · exact .inl (.inr hpath.mem_path)
      · exact .inr hmem
  · rw [hpath.check, not_or] at hb
    rw [hpath.frame.in' a b hb.2, h.in' b hb.1]
  · rw [hpath.check, not_or] at ha
    have hsrc : a ≠ src := fun heq => ha.1 (heq ▸ hpath.found.start)
    rw [hpath.frame.away a b hsrc ha.2, h.out a ha.1]

/-- **What a run cannot undo.** The edges into a node that is in the check list, and whose turn is
over, are only taken away. -/
theorem findPaths_frame (hids : dag.IdsMatch) (h : Tracks newDAG₀ ids checkList newDAG)
    (hrun : dag.findPaths fuel ids checkList newDAG = some (.ok, checkList', newDAG'))
    (hb : b ∈ checkList) (hturn : b ∉ ids) :
    (∀ a, a ∈ inOf newDAG'.mNodesVec b ↔ a ∈ inOf newDAG.mNodesVec b) ∧
      ∀ a, a ∈ ids ∨ b ∉ outOf newDAG.mNodesVec a → b ∉ outOf newDAG'.mNodesVec a := by
  induction ids generalizing checkList newDAG with
  | nil =>
    cases hrun
    simp
  | cons id ids ih =>
    obtain ⟨checkList₁, newDAG₁, hfind, hrest⟩ := findPaths_cons hrun
    obtain ⟨src, path, hpath⟩ := h.pathAdded hids hfind
    obtain ⟨hne, hturn⟩ := List.ne_and_not_mem_of_not_mem_cons hturn
    have hbPath : b ∉ path := fun hmem => hpath.found.fresh b hmem hne hb
    obtain ⟨hin, hout⟩ := ih (h.step hpath) hrest ((hpath.check b).mpr (.inl hb)) hturn
    refine ⟨fun a => (hin a).trans (hpath.frame.in' a b hbPath), fun a ha => hout a ?_⟩
    rw [hpath.frame.out a b hbPath]
    rcases ha with hmem | hnot
    · rcases List.mem_cons.mp hmem with rfl | hmem
      · exact .inr fun hand => hand.2 hpath.mem_path
      · exact .inl hmem
    · exact .inr fun hand => hnot hand.1

/-! ### A part that is reconnected -/

theorem exists_pair_of_mem {P : NodeId → Prop} {l : List NodeId} (hid : ¬ P id)
    (ha : a ∈ l ++ [id]) (hP : P a) : ∃ x y, [x, y] <:+: l ++ [id] ∧ P x ∧ ¬ P y := by
  induction l generalizing a with
  | nil => exact absurd (List.mem_singleton.mp ha ▸ hP) hid
  | cons c l ih =>
    have hlater : ∀ d ∈ l ++ [id], P d → ∃ x y, [x, y] <:+: c :: (l ++ [id]) ∧ P x ∧ ¬ P y :=
      fun d hd hPd => by
        obtain ⟨x, y, hpair, hx, hy⟩ := ih hd hPd
        exact ⟨x, y, List.infix_cons hpair, hx, hy⟩
    rcases List.mem_cons.mp ha with rfl | ha
    · cases hrest : l ++ [id] with
      | nil => simp at hrest
      | cons d rest =>
        by_cases hPd : P d
        · exact hlater d (by simp [hrest]) hPd
        · refine ⟨a, d, ?_, hP, hPd⟩
          rw [List.cons_append, hrest, pair_infix_cons_cons]
          exact .inl ⟨rfl, rfl⟩
    · exact hlater a ha hP

theorem pair_infix_last {l : List NodeId} (hnodup : (src :: (l ++ [id])).Nodup)
    (hpair : [a, id] <:+: src :: (l ++ [id])) : l = [] ∧ a = src ∨ a ∈ l := by
  induction l generalizing src with
  | nil =>
    rcases pair_infix_cons_cons.mp hpair with ⟨rfl, -⟩ | hpair
    · exact .inl ⟨rfl, rfl⟩
    · have hlength := hpair.length_le
      simp at hlength
  | cons d l ih =>
    have hrest := (List.nodup_cons.mp hnodup).2
    rcases pair_infix_cons_cons.mp hpair with ⟨rfl, rfl⟩ | hpair
    · exact absurd (by simp) (List.nodup_cons.mp hrest).1
    · rcases ih hrest hpair with ⟨-, rfl⟩ | hmem
      · exact .inr List.mem_cons_self
      · exact .inr (List.mem_cons_of_mem _ hmem)

/-- The next orphans are not on the path, when the part is reconnected: an orphan on it would lose
the edge to the node behind it. -/
theorem not_mem_of_reconnected (hids : dag.IdsMatch)
    (h : Tracks newDAG₀ ids checkList₁ newDAG₁)
    (hpath : PathAdded dag id checkList newDAG checkList₁ newDAG₁ src path)
    (hturn : ∀ a ∈ id :: ids, a ∉ checkList) (hid : id ∉ ids)
    (hrun : dag.findPaths fuel ids checkList₁ newDAG₁ = some (.ok, checkList', newDAG'))
    (hmirror : newDAG'.Adjacent) : ∀ a ∈ ids, a ∉ checkList₁ := by
  obtain ⟨-, hnodup⟩ := hpath.nodup (hturn id List.mem_cons_self)
  intro a ha hcheck
  have hmem : a ∈ path :=
    ((hpath.check a).mp hcheck).resolve_left (hturn a (List.mem_cons_of_mem _ ha))
  obtain ⟨l, rfl⟩ := hpath.found.last
  obtain ⟨x, y, hpair, hx, hy⟩ := exists_pair_of_mem (P := (· ∈ ids)) hid hmem ha
  have hyPath : y ∈ l ++ [id] := hpair.subset (by simp)
  obtain ⟨hin, hout⟩ := findPaths_frame hids h hrun ((hpath.check y).mpr (.inr hyPath)) hy
  have hedge : x ∈ inOf newDAG₁.mNodesVec y :=
    ((hpath.edges hnodup).1 x y).mpr (.inr (List.infix_cons hpair))
  exact hout x (.inl hx) ((hmirror.mirror x y).mpr ((hin x).mpr hedge))

/-- **A part that is reconnected** has every orphan in its turn. -/
theorem inTurn_of_reconnected (hids : dag.IdsMatch) (hnew : newDAG₀.Coherent)
    (h : Tracks newDAG₀ ids checkList newDAG) (hnodup : ids.Nodup)
    (hturn : ∀ a ∈ ids, a ∉ checkList)
    (hrun : dag.findPaths fuel ids checkList newDAG = some (.ok, checkList', newDAG'))
    (hgood : Reconnected dag newDAG₀ newDAG' orphanNodes) :
    InTurn dag fuel ids checkList newDAG := by
  induction ids generalizing checkList newDAG with
  | nil => trivial
  | cons id ids ih =>
    obtain ⟨hid, hnodup⟩ := List.nodup_cons.mp hnodup
    obtain ⟨checkList₁, newDAG₁, hfind, hrest⟩ := findPaths_cons hrun
    obtain ⟨src, path, hpath⟩ := h.pathAdded hids hfind
    have hfresh := hturn id List.mem_cons_self
    obtain ⟨hpathFresh, hpathNodup⟩ := hpath.nodup hfresh
    have hstep := h.step hpath
    have hlater := not_mem_of_reconnected hids hstep hpath hturn hid hrest hgood.coherent.adjacent
    have hidCheck : id ∈ checkList₁ := (hpath.check id).mpr (.inr hpath.mem_path)
    refine ⟨⟨hfresh, fun b hedge hb => ?_, fun a ha => ?_⟩, fun checkList₂ newDAG₂ hfind₂ => ?_⟩
    · -- the edge goes with the adjacent nodes of the orphan, and does not come back
      have hkept := hgood.kept.edges id b ((h.out id hfresh b).mp hedge)
      exact (findPaths_frame hids h hrun hb fun hmem => hturn b hmem hb).2 id
        (.inl List.mem_cons_self) hkept
    · -- the edge is one of the path
      have hedge := (hnew.adjacent.mirror a id).mpr ((h.in' id hfresh a).mp ha)
      have hkept := (hgood.coherent.adjacent.mirror a id).mp (hgood.kept.edges a id hedge)
      have hin := ((findPaths_frame hids hstep hrest hidCheck hid).1 a).mp hkept
      have hpair : [a, id] <:+: src :: path :=
        (((hpath.edges hpathNodup).1 a id).mp hin).resolve_left fun hand => hand.2 hpath.mem_path
      obtain ⟨l, hl⟩ := hpath.found.last
      have hnot : a ∉ l := fun hmem => by
        have hmem' : a ∈ path := hl ▸ List.mem_append_left _ hmem
        rcases h.left a (mem_keys_of_mem_outOf hedge) with hcheck | hcheck
        · exact hpathFresh a hmem' hcheck
        · rcases List.mem_cons.mp hcheck with rfl | hcheck
          · have hdup := (List.nodup_cons.mp hpathNodup).2
            rw [hl] at hdup
            exact List.disjoint_of_nodup_append hdup hmem (List.mem_singleton_self a)
          · exact hlater a hcheck ((hpath.check a).mpr (.inr hmem'))
      subst hl
      obtain ⟨rfl, rfl⟩ := (pair_infix_last hpathNodup hpair).resolve_right hnot
      exact hpath.found.direct rfl
    · rw [hfind] at hfind₂
      cases hfind₂
      exact ih hstep hnodup hlater hrest

/-! ### Orphans in their turn are reconnected -/

/-- How far the reconnection is: the edges into the nodes of the check list are coherent, and lead
from the root to each of them. -/
structure Attached (dag newDAG₀ : PipelineDAG) (checkList : NodeIdSet) (newDAG : PipelineDAG) : Prop
    where
  subgraph : newDAG.SubgraphOf dag
  mirror : ∀ b ∈ checkList, ∀ a,
    b ∈ outOf newDAG.mNodesVec a ↔ a ∈ inOf newDAG.mNodesVec b
  closed : ∀ a ∈ checkList, ∀ b, newDAG.mNodesVec.HasEdge a b → b ∈ checkList
  kept : ∀ b ∈ checkList, ∀ a ∈ inOf newDAG₀.mNodesVec b, a ∈ inOf newDAG.mNodesVec b
  reach : ∀ c ∈ checkList, ReflTransGen
    (fun a b => a ∈ checkList ∧ newDAG.mNodesVec.HasEdge a b) newDAG₀.mRootId c

theorem mem_keys_of_mem_inOf {nodes : NodeMap} (h : a ∈ inOf nodes b) : b ∈ nodes.keys := by
  rw [inOf] at h
  cases hfind : nodes.find? b with
  | none => simp [hfind] at h
  | some node => exact KeyedVector.mem_keys_of_find? hfind

theorem mem_of_pair_infix (h : [a, b] <:+: src :: path) : b ∈ path := by
  obtain ⟨l, rest, hl⟩ := h
  cases l with
  | nil =>
    cases hl
    exact List.mem_cons_self
  | cons c l =>
    cases hl
    simp

theorem reflTransGen_of_path {R : NodeId → NodeId → Prop}
    (hR : ∀ a b, [a, b] <:+: src :: path → R a b) : ∀ c ∈ path, ReflTransGen R src c := by
  induction path generalizing src with
  | nil => simp
  | cons d path ih =>
    have hfirst : R src d := hR src d (pair_infix_cons_cons.mpr (.inl ⟨rfl, rfl⟩))
    have hrest := ih fun a b hpair => hR a b (List.infix_cons hpair)
    intro c hc
    rcases List.mem_cons.mp hc with rfl | hc
    · exact .single hfirst
    · exact .head hfirst (hrest c hc)

theorem SetsExact.attached (hsets : SetsExact newDAG orphanNodes checkList) (hnew : newDAG.Coherent)
    (hsub : newDAG.SubgraphOf dag) : Attached dag newDAG checkList newDAG := by
  have hreached : ∀ a, a ∈ newDAG.mNodesVec.keys →
      ReflTransGen newDAG.mNodesVec.HasEdge newDAG.mRootId a → a ∈ checkList := fun a ha hreach =>
    (hsets.connected a).mpr ⟨ha, hreach⟩
  refine ⟨hsub, fun b _ a => hnew.adjacent.mirror a b, fun a ha b hedge => ?_, fun _ _ _ ha => ha,
    fun c hc => ?_⟩
  · exact hreached b (hnew.adjacent.mem_keys_of_out hedge)
      (((hsets.connected a).mp ha).2.tail hedge)
  · have hpath := ((hsets.connected c).mp hc).2
    clear hc
    induction hpath with
    | refl => exact .refl
    | @tail b c hreach hedge ih =>
      exact ih.tail ⟨hreached b (mem_keys_of_mem_outOf hedge) hreach, hedge⟩

theorem PathAdded.not_mem_keys (h : Tracks newDAG₀ (id :: ids) checkList newDAG)
    (hpath : PathAdded dag id checkList newDAG checkList₁ newDAG₁ src path)
    (hlater : ∀ a ∈ ids, a ∉ checkList₁) (hb : b ∈ path) (hne : b ≠ id) :
    b ∉ newDAG₀.mNodesVec.keys := by
  intro hkey
  rcases h.left b hkey with hcheck | hmem
  · exact hpath.found.fresh b hb hne hcheck
  · have hmem' := (List.mem_cons.mp hmem).resolve_left hne
    exact hlater b hmem' ((hpath.check b).mpr (.inr hb))

/-- **The step**, for an orphan that is ready. -/
theorem Attached.step (hdag : dag.Coherent) (hnew : newDAG₀.Coherent)
    (htracks : Tracks newDAG₀ (id :: ids) checkList newDAG)
    (hpath : PathAdded dag id checkList newDAG checkList₁ newDAG₁ src path)
    (hready : Ready dag id checkList newDAG) (hlater : ∀ a ∈ ids, a ∉ checkList₁)
    (h : Attached dag newDAG₀ checkList newDAG) : Attached dag newDAG₀ checkList₁ newDAG₁ := by
  obtain ⟨hfresh, hnodup⟩ := hpath.nodup hready.fresh
  obtain ⟨hin, hout, hvalue⟩ := hpath.edges hnodup
  have hnone : ∀ b ∈ path, b ≠ id → b ∉ newDAG₀.mNodesVec.keys := fun b hb hne =>
    hpath.not_mem_keys htracks hlater hb hne
  have hpair : ∀ a b, [a, b] <:+: src :: path → a ∈ checkList₁ ∧ b ∈ path := fun a b hpair => by
    have ha : a ∈ src :: path := hpair.subset (by simp)
    rw [hpath.check]
    rcases List.mem_cons.mp ha with rfl | ha
    · exact ⟨.inl hpath.found.start, mem_of_pair_infix hpair⟩
    · exact ⟨.inr ha, mem_of_pair_infix hpair⟩
  -- an edge of the orphan, as it was, comes from where its path comes from
  have hahead : ∀ a ∈ inOf newDAG₀.mNodesVec id, path = [id] ∧ a = src := fun a ha => by
    have hfirst := hready.ahead a ((htracks.in' id hready.fresh a).mpr ha)
    obtain rfl := hpath.direct (by rw [hfirst]; exact Option.some_ne_none a)
    exact ⟨rfl, Option.some.inj (hfirst.symm.trans (hpath.found.direct rfl))⟩
  -- the edges into the path are those of the path
  have hinto : ∀ b ∈ path, ∀ a, b ∈ outOf newDAG.mNodesVec a → a ∉ path →
      [a, b] <:+: src :: path := by
    intro b hb a hedge ha
    by_cases hcheck : a ∈ checkList
    · exact absurd (h.closed a hcheck b hedge) (hfresh b hb)
    · have hedge₀ := (htracks.out a hcheck b).mp hedge
      by_cases hne : b = id
      · subst hne
        obtain ⟨rfl, rfl⟩ := hahead a ((hnew.adjacent.mirror a b).mp hedge₀)
        exact List.infix_rfl
      · exact absurd (hnew.adjacent.mem_keys_of_out hedge₀) (hnone b hb hne)
  -- no edge leads from the path to the check list
  have hfrom : ∀ a ∈ path, ∀ b ∈ checkList, b ∉ outOf newDAG.mNodesVec a := by
    intro a ha b hb hedge
    by_cases hne : a = id
    · exact hready.behind b (hne ▸ hedge) hb
    · exact hnone a ha hne (mem_keys_of_mem_outOf ((htracks.out a (hfresh a ha) b).mp hedge))
  refine ⟨⟨fun a x hx => ?_, fun a b hedge => ?_⟩, fun b hb a => ?_, fun a ha b hedge => ?_,
    fun b hb a ha => ?_, fun c hc => ?_⟩
  · by_cases ha : a ∈ path
    · rwa [hvalue a ha] at hx
    · rw [hpath.frame.value a ha] at hx
      exact h.subgraph.nodes a x hx
  · rcases (hout a b).mp hedge with ⟨hold, -⟩ | hpair'
    · exact h.subgraph.edges a b hold
    · exact (hdag.adjacent.mirror a b).mpr (hpath.found.ahead a b hpair')
  · rw [hout, hin]
    by_cases hbPath : b ∈ path
    · have hold := hinto b hbPath a
      tauto
    · have hbCheck := ((hpath.check b).mp hb).resolve_right hbPath
      rw [h.mirror b hbCheck a]
      have hold := hfrom a
      have hmirror := h.mirror b hbCheck a
      tauto
  · rw [hpath.check]
    rcases (hout a b).mp hedge with ⟨hold, hnot⟩ | hpair'
    · exact .inl (h.closed a (((hpath.check a).mp ha).resolve_right hnot) b hold)
    · exact .inr (hpair a b hpair').2
  · rw [hin]
    by_cases hbPath : b ∈ path
    · right
      by_cases hne : b = id
      · subst hne
        obtain ⟨rfl, rfl⟩ := hahead a ha
        exact List.infix_rfl
      · exact absurd (mem_keys_of_mem_inOf ha) (hnone b hbPath hne)
    · exact .inl ⟨h.kept b (((hpath.check b).mp hb).resolve_right hbPath) a ha, hbPath⟩
  · have hold : ∀ c ∈ checkList, ReflTransGen
        (fun a b => a ∈ checkList₁ ∧ newDAG₁.mNodesVec.HasEdge a b) newDAG₀.mRootId c := by
      intro c hc
      refine (h.reach c hc).lift (fun a => a) fun a b hab =>
        ⟨(hpath.check a).mpr (.inl hab.1), ?_⟩
      exact (hout a b).mpr (.inl ⟨hab.2, fun hmem => hfresh a hmem hab.1⟩)
    rcases (hpath.check c).mp hc with hc | hc
    · exact hold c hc
    · refine (hold src hpath.found.start).trans (reflTransGen_of_path (fun a b hab => ?_) c hc)
      exact ⟨(hpair a b hab).1, (hout a b).mpr (.inr hab)⟩

theorem not_mem_of_inTurn (hids : dag.IdsMatch) (h : Tracks newDAG₀ ids checkList newDAG)
    (hrun : dag.findPaths fuel ids checkList newDAG = some (.ok, checkList', newDAG'))
    (hturn : InTurn dag fuel ids checkList newDAG) : ∀ a ∈ ids, a ∉ checkList := by
  induction ids generalizing checkList newDAG with
  | nil => simp
  | cons id ids ih =>
    obtain ⟨checkList₁, newDAG₁, hfind, hrest⟩ := findPaths_cons hrun
    obtain ⟨src, path, hpath⟩ := h.pathAdded hids hfind
    have hlater := ih (h.step hpath) hrest (hturn.2 _ _ hfind)
    refine List.forall_mem_cons.mpr ⟨hturn.1.fresh, fun a ha hcheck => hlater a ha ?_⟩
    exact (hpath.check a).mpr (.inl hcheck)

/-- **A run** with every orphan in its turn. -/
theorem Attached.findPaths (hdag : dag.Coherent) (hnew : newDAG₀.Coherent)
    (h : Tracks newDAG₀ ids checkList newDAG)
    (hattached : Attached dag newDAG₀ checkList newDAG)
    (hrun : dag.findPaths fuel ids checkList newDAG = some (.ok, checkList', newDAG'))
    (hturn : InTurn dag fuel ids checkList newDAG) :
    Tracks newDAG₀ [] checkList' newDAG' ∧ Attached dag newDAG₀ checkList' newDAG' := by
  induction ids generalizing checkList newDAG with
  | nil =>
    cases hrun
    exact ⟨h, hattached⟩
  | cons id ids ih =>
    obtain ⟨checkList₁, newDAG₁, hfind, hrest⟩ := findPaths_cons hrun
    obtain ⟨src, path, hpath⟩ := h.pathAdded hdag.ids hfind
    have hstep := h.step hpath
    have hrestTurn := hturn.2 _ _ hfind
    have hlater := not_mem_of_inTurn hdag.ids hstep hrest hrestTurn
    exact ih hstep (hattached.step hdag hnew h hpath hturn.1 hlater) hrest hrestTurn

theorem Attached.reconnected (hdag : dag.Coherent) (hnew : newDAG.Coherent)
    (hsub : newDAG.SubgraphOf dag) (hsets : SetsExact newDAG orphanNodes checkList)
    (h : Tracks newDAG [] checkList' newDAG') (hattached : Attached dag newDAG checkList' newDAG') :
    Reconnected dag newDAG newDAG' orphanNodes := by
  have hall : ∀ a ∈ newDAG'.mNodesVec.keys, a ∈ checkList' := fun a ha =>
    ((h.mem a).mp ha).elim (fun hold => (h.left a hold).resolve_right List.not_mem_nil) fun hc => hc
  have hmirror : ∀ a b, b ∈ outOf newDAG'.mNodesVec a ↔ a ∈ inOf newDAG'.mNodesVec b := by
    intro a b
    constructor
    · intro hedge
      have hb := hattached.closed a (hall a (mem_keys_of_mem_outOf hedge)) b hedge
      exact (hattached.mirror b hb a).mp hedge
    · intro hedge
      exact (hattached.mirror b (hall b (mem_keys_of_mem_inOf hedge)) a).mpr hedge
  have hkeys : ∀ a ∈ newDAG.mNodesVec.keys, a ∈ newDAG'.mNodesVec.keys := fun a ha =>
    (h.mem a).mpr (.inl ha)
  refine ⟨h.root, fun a ha => ?_, hattached.subgraph, ⟨⟨hmirror, fun a b hab => ?_, ?_⟩,
    fun a x hx => hdag.ids a x (hattached.subgraph.nodes a x hx)⟩, fun a x hx => ?_,
    fun a b hedge => ?_⟩
  · have hmem := hall a (hkeys a ((hsets.orphan a).mp ha).1)
    rw [h.root]
    exact (hattached.reach a hmem).lift (fun a => a) fun _ _ hstep => hstep.2
  · rw [hmirror, or_self] at hab
    exact ⟨mem_keys_of_mem_outOf ((hmirror a b).mpr hab), mem_keys_of_mem_inOf hab⟩
  · rw [h.root]
    exact hnew.adjacent.root.imp_right (hkeys _)
  · obtain ⟨y, hy⟩ := mem_keys_iff_nodeOf.mp (hkeys a (mem_keys_iff_nodeOf.mpr ⟨x, hx⟩))
    have hsame := (hattached.subgraph.nodes a y hy).symm.trans (hsub.nodes a x hx)
    rw [hy, hsame]
  · have hb := hall b (hkeys b (hnew.adjacent.mem_keys_of_out hedge))
    exact (hmirror a b).mpr (hattached.kept b hb a ((hnew.adjacent.mirror a b).mp hedge))

theorem coherent_addNode_new (h : dag.Coherent) (id : NodeId) (val : NodeVal)
    (hid : id ∉ dag.mNodesVec.keys) : (dag.addNode id val).1.Coherent := by
  refine coherent_addNode h val fun k hk => absurd ?_ hid
  exact hk.elim mem_keys_of_mem_outOf mem_keys_of_mem_inOf

/-- **The part is reconnected**, when a path is found for every orphan, exactly when every orphan is
ready in its turn. -/
theorem reconnected_iff (hdag : dag.Coherent) (hnew : newDAG.Coherent)
    (hsub : newDAG.SubgraphOf dag) (hsets : SetsExact newDAG orphanNodes checkList)
    (hrun : dag.getNodesAndPathsForNewDAG fuel orphanNodes checkList newDAG =
      some (.ok, checkList', newDAG')) :
    Reconnected dag newDAG newDAG' orphanNodes ↔
      OrphansInTurn dag fuel orphanNodes checkList newDAG := by
  rw [getNodesAndPathsForNewDAG] at hrun
  cases hsort : dag.sortedByInAdj orphanNodes with
  | none => simp [hsort] at hrun
  | some ids =>
    simp only [hsort] at hrun
    have hperm := perm_sortedByInAdj hdag.ids hsort
    have horphan : ∀ a, a ∈ ids ↔ a ∈ newDAG.mNodesVec.keys ∧
        ¬ ReflTransGen newDAG.mNodesVec.HasEdge newDAG.mRootId a := fun a => by
      rw [hperm.mem_iff, SortedVector.mem_items, hsets.orphan]
    have htracks : Tracks newDAG ids checkList newDAG := by
      refine ⟨rfl, fun a => ?_, fun a ha => ?_, fun _ _ _ => Iff.rfl, fun _ _ _ => Iff.rfl⟩
      · rw [or_iff_left_of_imp fun hmem => ((hsets.connected a).mp hmem).1]
      · rw [horphan, hsets.connected]
        tauto
    have hall : OrphansInTurn dag fuel orphanNodes checkList newDAG ↔
        InTurn dag fuel ids checkList newDAG := by
      rw [OrphansInTurn, hsort]
      exact ⟨fun h => h ids rfl, fun h ids' heq => Option.some.inj heq ▸ h⟩
    rw [hall]
    constructor
    · intro hgood
      refine inTurn_of_reconnected hdag.ids hnew htracks (hperm.nodup_iff.mpr orphanNodes.nodup)
        (fun a ha hmem => ?_) hrun hgood
      exact ((horphan a).mp ha).2 ((hsets.connected a).mp hmem).2
    · intro hturn
      obtain ⟨hend, hattached⟩ :=
        (hsets.attached hnew hsub).findPaths hdag hnew htracks hrun hturn
      exact hattached.reconnected hdag hnew hsub hsets hend

/-- The graph `1 → 2 → 3`, `1 → 4`, with the root `1`. -/
def chain : PipelineDAG :=
  let nodes := ((((create.addNode 1 0).1.addNode 2 1).1.addNode 3 2).1.addNode 4 3).1
  (((((nodes.addEdge 1 2).1.addEdge 2 3).1.addEdge 1 4).1).setRootNode 1).1

/-- The same graph with `3 → 4`. -/
def bypass : PipelineDAG := (chain.addEdge 3 4).1

/-- The nodes of a request; `2` is not among them. -/
def requested : NodeIdSet := ((SortedVector.empty.add 1).add 3).add 4

/-- The part of `chain` on these nodes. -/
def chainPart : PipelineDAG :=
  let nodes := (((create.addNode 1 0).1.addNode 3 2).1.addNode 4 3).1
  ((nodes.addEdge 1 4).1.setRootNode 1).1

/-- The part of `bypass` on these nodes. -/
def bypassPart : PipelineDAG := (chainPart.addEdge 3 4).1

theorem coherent_chain : chain.Coherent := by
  have h₁ := coherent_addNode_new coherent_create 1 0 (by decide)
  have h₂ := coherent_addNode_new h₁ 2 1 (by decide)
  have h₃ := coherent_addNode_new h₂ 3 2 (by decide)
  have h₄ := coherent_addNode_new h₃ 4 3 (by decide)
  exact coherent_setRootNode (coherent_addEdge (coherent_addEdge (coherent_addEdge h₄ 1 2) 2 3) 1 4)
    1

theorem Induced.subgraphOf {P : NodeId → Prop} (h : Induced dag newDAG P) :
    newDAG.SubgraphOf dag := by
  refine ⟨fun a x hx => ?_, fun a b hedge => ((h.out a b).mp hedge).1⟩
  have ha := ((h.mem a).mp (mem_keys_iff_nodeOf.mpr ⟨x, hx⟩)).2
  rw [← h.value a ha, hx]

theorem part_of_cloneOf (hdag : dag.Coherent) {ids : NodeIdSet}
    (h : dag.cloneOf ids = some (some newDAG)) : newDAG.Coherent ∧ newDAG.SubgraphOf dag := by
  obtain ⟨r, hr, -, hpart⟩ := cloneOf_spec hdag ids
  cases h.symm.trans hr
  have hind := (hpart newDAG rfl).1
  exact ⟨hind.coherent, hind.subgraphOf⟩

theorem SetsExact.of_closed (hroot : newDAG.mRootId ∈ checkList)
    (hclosed : ∀ a ∈ checkList.items, ∀ b ∈ (outOf newDAG.mNodesVec a).items, b ∈ checkList)
    (hreach : ∀ a ∈ checkList.items, a = newDAG.mRootId ∨
      newDAG.mNodesVec.HasEdge newDAG.mRootId a)
    (hkeys : ∀ a ∈ checkList.items, a ∈ newDAG.mNodesVec.keys)
    (horphan : orphanNodes.items = newDAG.mNodesVec.keys.filter (· ∉ checkList)) :
    SetsExact newDAG orphanNodes checkList := by
  have hiff : ∀ a, a ∈ checkList ↔ ReflTransGen newDAG.mNodesVec.HasEdge newDAG.mRootId a := by
    intro a
    constructor
    · intro ha
      rcases hreach a ha with rfl | hedge
      · exact .refl
      · exact .single hedge
    · intro hpath
      induction hpath with
      | refl => exact hroot
      | tail _ hedge ih => exact hclosed _ ih _ hedge
  refine ⟨fun a => ?_, fun a => ?_⟩
  · rw [← hiff, iff_and_self]
    exact hkeys a
  · rw [← hiff, ← SortedVector.mem_items, horphan, List.mem_filter, decide_eq_true_iff]

/-- The orphan of `chainPart` is made reachable. -/
theorem reconnected_chain : ∃ checkList' newDAG',
    chain.getNodesAndPathsForNewDAG 4 (SortedVector.empty.add 3)
      ((SortedVector.empty.add 1).add 4) chainPart = some (.ok, checkList', newDAG') ∧
    (Reconnected chain chainPart newDAG' (SortedVector.empty.add 3) ↔
      OrphansInTurn chain 4 (SortedVector.empty.add 3) ((SortedVector.empty.add 1).add 4)
        chainPart) := by
  obtain ⟨hnew, hsub⟩ := part_of_cloneOf coherent_chain
    (show chain.cloneOf requested = some (some chainPart) from rfl)
  refine ⟨_, _, rfl, reconnected_iff coherent_chain hnew hsub ?_ rfl⟩
  exact .of_closed (by decide) (by decide) (by decide) (by decide) (by decide)

/-- The orphan of `bypassPart` loses its edge: it stays ahead of `4`, which is not behind it any
more. -/
theorem reconnect_loses : bypass.Coherent ∧
    bypass.cloneOf requested = some (some bypassPart) ∧
    getOrphanNodes 4 bypassPart .empty .empty =
      some (.ok, SortedVector.empty.add 3, (SortedVector.empty.add 1).add 4) ∧
    ∃ checkList' newDAG',
      bypass.getNodesAndPathsForNewDAG 4 (SortedVector.empty.add 3)
        ((SortedVector.empty.add 1).add 4) bypassPart = some (.ok, checkList', newDAG') ∧
      3 ∈ inOf newDAG'.mNodesVec 4 ∧ ¬ newDAG'.mNodesVec.HasEdge 3 4 ∧
      ¬ Reconnected bypass bypassPart newDAG' (SortedVector.empty.add 3) := by
  refine ⟨coherent_addEdge coherent_chain 3 4, rfl, rfl, _, _, rfl, by decide, by decide,
    fun h => ?_⟩
  exact absurd (h.kept.edges 3 4 (by decide)) (by decide)

end PipelineDAG

end MtkHardware.Pipeline
