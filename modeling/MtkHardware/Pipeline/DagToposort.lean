import MtkHardware.Pipeline.DagAdjacency
import MtkHardware.Util.Lists
import MtkHardware.Util.TopoOrder

/-!
# Topological Orders of the Pipeline Graph

`evaluateToposort` is a depth-first search that marks a node when it enters it and again
when it has completed everything behind it. A marked node that is entered again is on a
cycle, since the marked nodes that are not completed form the path to the current one.
-/

namespace MtkHardware.Pipeline

open Relation NodeMap

/-- There is an edge from `a` to `b`. -/
def NodeMap.HasEdge (nodes : NodeMap) (a b : NodeId) : Prop := b ∈ outOf nodes a

instance (nodes : NodeMap) (a b : NodeId) : Decidable (nodes.HasEdge a b) :=
  inferInstanceAs (Decidable (b ∈ outOf nodes a))

theorem NodeMap.hasEdge_iff {nodes : NodeMap} {a b : NodeId} {node : NodeWithAdj}
    (h : nodes.find? a = some node) : nodes.HasEdge a b ↔ b ∈ node.mOutAdj.items := by
  rw [HasEdge, outOf_of_find? h, SortedVector.mem_items]

namespace PipelineDAG

variable {dag : PipelineDAG} {nodes : NodeMap} {s s' s₁ : Search} {ks ks' ids : List NodeId}
  {id a b : NodeId} {fuel : ℕ}

/-- There is **no order**: a cycle, or an edge to a node that is not there. -/
def NoOrder (nodes : NodeMap) : Prop :=
  (∃ a, TransGen nodes.HasEdge a a) ∨ ∃ a b, nodes.HasEdge a b ∧ b ∉ nodes.keys

/-! ### The search -/

/-- What holds of a search at any time: it has completed the nodes `ks`, and they are in
topological order. -/
structure Sound (nodes : NodeMap) (s : Search) (ks : List NodeId) : Prop where
  keys : s.visit.keys = nodes.keys
  order : IsTopological nodes.HasEdge ks
  objects : s.rToposort.map some = ks.map nodes.nodeOf
  sorted : ∀ a, s.visit.find? a = some .sorted ↔ a ∈ ks

/-- What a part of a search does: it enters new nodes, and completes all it has entered. -/
structure Advance (s s' : Search) : Prop where
  visited : ∀ a, s'.visit.find? a = some .visited ↔ s.visit.find? a = some .visited
  sorted : ∀ a, s.visit.find? a = some .sorted → s'.visit.find? a = some .sorted
  fresh : ∀ a, s'.visit.find? a = some .notVisit → s.visit.find? a = some .notVisit

theorem Advance.refl (s : Search) : Advance s s :=
  ⟨fun _ => .rfl, fun _ h => h, fun _ h => h⟩

theorem Advance.trans (h₁ : Advance s s₁) (h₂ : Advance s₁ s') : Advance s s' :=
  ⟨fun a => (h₂.visited a).trans (h₁.visited a), fun a ha => h₂.sorted a (h₁.sorted a ha),
    fun a ha => h₁.fresh a (h₂.fresh a ha)⟩

def unvisited (nodes : NodeMap) (s : Search) : ℕ :=
  nodes.keys.countP fun a => decide (s.visit.find? a = some .notVisit)

theorem unvisited_le (h : Advance s s') : unvisited nodes s' ≤ unvisited nodes s :=
  List.countP_mono_left fun a _ ha =>
    decide_eq_true (h.fresh a (of_decide_eq_true ha))

def enter (s : Search) (id : NodeId) : Search :=
  { s with visit := s.visit.modify id fun _ => .visited }

theorem find?_enter (h : s.visit.find? id = some .notVisit) :
    (enter s id).visit.find? a = if a = id then some .visited else s.visit.find? a := by
  rw [enter, KeyedVector.find?_modify]
  split
  · rename_i heq
    rw [heq, h]
    rfl
  · rfl

theorem unvisited_enter (hid : id ∈ nodes.keys) (h : s.visit.find? id = some .notVisit) :
    unvisited nodes s = unvisited nodes (enter s id) + 1 := by
  refine countP_eq_countP_add_one nodes.nodup_keys hid (decide_eq_true h) ?_ fun b _ hb => ?_
  · rw [find?_enter h, if_pos rfl]
    rfl
  · rw [find?_enter h, if_neg hb]

theorem Sound.enter (hs : Sound nodes s ks) (h : s.visit.find? id = some .notVisit) :
    Sound nodes (enter s id) ks := by
  refine ⟨by rw [← hs.keys]; exact KeyedVector.keys_modify _ _ _, hs.order, hs.objects,
    fun a => ?_⟩
  rw [find?_enter h, ← hs.sorted]
  split
  · rename_i heq
    rw [heq, h]
    simp
  · rfl

/-- How a part of a search over some nodes comes out: it completes them all, or it fails and
there is no order. -/
def Outcome (nodes : NodeMap) (s : Search) (ids : List NodeId)
    (r : Option (Except MERROR Search)) : Prop :=
  (∃ s' ks', r = some (.ok s') ∧ Sound nodes s' ks' ∧ Advance s s' ∧
    ∀ a ∈ ids, s'.visit.find? a = some .sorted) ∨
  (∃ err, r = some (.error err)) ∧ NoOrder nodes

/-- **The loop rule**: every node is searched from a state with the property `P`. -/
theorem runAll_spec {run : NodeId → Search → Option (Except MERROR Search)}
    {P : Search → Prop} (hP : ∀ s s', P s → Advance s s' → P s')
    (hrun : ∀ id ∈ ids, ∀ s ks, Sound nodes s ks → P s → Outcome nodes s [id] (run id s))
    (hs : Sound nodes s ks) (hPs : P s) : Outcome nodes s ids (runAll run ids s) := by
  induction ids generalizing s ks with
  | nil => exact .inl ⟨s, ks, rfl, hs, .refl s, by simp⟩
  | cons id ids ih =>
    rw [runAll]
    rcases hrun id List.mem_cons_self s ks hs hPs with
      ⟨s₁, ks₁, heq, hs₁, hadv₁, hsorted₁⟩ | ⟨⟨err, heq⟩, hno⟩
    · rw [heq]
      dsimp only
      rcases ih (fun id' hid' => hrun id' (List.mem_cons_of_mem _ hid')) hs₁
          (hP s s₁ hPs hadv₁) with
        ⟨s', ks', heq', hs', hadv', hsorted'⟩ | ⟨herr, hno⟩
      · refine .inl ⟨s', ks', heq', hs', hadv₁.trans hadv', fun a ha => ?_⟩
        rcases List.mem_cons.mp ha with rfl | ha
        · exact hadv'.sorted a (hsorted₁ a List.mem_cons_self)
        · exact hsorted' a ha
      · exact .inr ⟨herr, hno⟩
    · rw [heq]
      exact .inr ⟨⟨_, rfl⟩, hno⟩

theorem outcome_complete {node : NodeWithAdj} (hnode : nodes.find? id = some node)
    (hv : s.visit.find? id = some .notVisit) (hs' : Sound nodes s' ks')
    (hadv : Advance (enter s id) s')
    (hsorted : ∀ b ∈ node.mOutAdj.items, s'.visit.find? b = some .sorted) :
    Outcome nodes s [id]
      (some (.ok ⟨s'.visit.modify id fun _ => .sorted, node.mNode :: s'.rToposort⟩)) := by
  have hid : s'.visit.find? id = some .visited :=
    (hadv.visited id).mpr (by rw [find?_enter hv, if_pos rfl])
  have hfind : ∀ a, (s'.visit.modify id fun _ => Visit.sorted).find? a =
      if a = id then some .sorted else s'.visit.find? a := fun a => by
    rw [KeyedVector.find?_modify]
    split
    · rename_i heq
      rw [heq, hid]
      rfl
    · rfl
  have hnew : id ∉ ks' := fun hmem => by
    rw [(hs'.sorted id).mpr hmem] at hid
    cases hid
  refine .inl ⟨_, id :: ks', rfl, ⟨?_, ?_, ?_, fun a => ?_⟩,
    ⟨fun a => ?_, fun a ha => ?_, fun a ha => ?_⟩, fun a ha => ?_⟩
  · exact (KeyedVector.keys_modify _ _ _).trans hs'.keys
  · refine .cons hnew (fun b hb => ?_) hs'.order
    exact (hs'.sorted b).mp (hsorted b ((hasEdge_iff hnode).mp hb))
  · rw [List.map_cons, List.map_cons, hs'.objects, nodeOf, hnode]
    rfl
  · rw [hfind, List.mem_cons, ← hs'.sorted]
    split <;> simp_all
  · rw [hfind]
    split
    · rename_i heq
      simp [heq, hv]
    · rename_i hne
      rw [hadv.visited, find?_enter hv, if_neg hne]
  · rw [hfind]
    split
    · rfl
    · rename_i hne
      exact hadv.sorted a (by rw [find?_enter hv, if_neg hne]; exact ha)
  · rw [hfind] at ha
    split at ha
    · cases ha
    · rename_i hne
      have hfresh := hadv.fresh a ha
      rwa [find?_enter hv, if_neg hne] at hfresh
  · obtain rfl := List.mem_singleton.mp ha
    rw [hfind, if_pos rfl]

/-- **The search** below a node completes the node, or there is no order. Its calls are
nested at most as deep as there are nodes that have not been entered. -/
theorem dfsRun_spec (hs : Sound nodes s ks) (hid : id ∈ nodes.keys ∨ NoOrder nodes)
    (hpath : ∀ a, s.visit.find? a = some .visited → TransGen nodes.HasEdge a id)
    (hfuel : unvisited nodes s < fuel) : Outcome nodes s [id] (dfsRun nodes fuel id s) := by
  induction fuel generalizing id s ks with
  | zero => omega
  | succ fuel ih =>
    rw [dfsRun]
    cases hv : s.visit.find? id with
    | none =>
      rw [KeyedVector.find?_eq_none_iff, hs.keys] at hv
      exact .inr ⟨⟨_, rfl⟩, hid.resolve_left hv⟩
    | some v =>
      have hid' : id ∈ nodes.keys := hs.keys ▸ KeyedVector.mem_keys_of_find? hv
      cases v with
      | sorted => exact .inl ⟨s, ks, rfl, hs, .refl s, by simpa using hv⟩
      | visited => exact .inr ⟨⟨_, rfl⟩, .inl ⟨id, hpath id hv⟩⟩
      | notVisit =>
        obtain ⟨node, hnode⟩ := KeyedVector.mem_keys_iff.mp hid'
        have hcount := unvisited_enter hid' hv
        simp only [hnode]
        -- the nodes behind, with `id` at the end of the path of entered nodes
        have hall : Outcome nodes (enter s id) node.mOutAdj.items
            (runAll (dfsRun nodes fuel) node.mOutAdj.items (enter s id)) := by
          refine runAll_spec (P := fun s' =>
              (∀ a, s'.visit.find? a = some .visited →
                a = id ∨ TransGen nodes.HasEdge a id) ∧ unvisited nodes s' < fuel)
            (fun s₁ s₂ h hadv => ⟨fun a ha => h.1 a ((hadv.visited a).mp ha),
              Nat.lt_of_le_of_lt (unvisited_le hadv) h.2⟩)
            (fun b hb s₁ ks₁ hs₁ h => ?_) (hs.enter hv) ⟨fun a ha => ?_, by omega⟩
          · have hedge := (hasEdge_iff hnode).mpr hb
            refine ih hs₁ ?_ (fun a ha => ?_) h.2
            · by_cases hbkey : b ∈ nodes.keys
              · exact .inl hbkey
              · exact .inr (.inr ⟨id, b, hedge, hbkey⟩)
            · rcases h.1 a ha with rfl | hpath'
              · exact .single hedge
              · exact hpath'.tail hedge
          · rw [find?_enter hv] at ha
            split at ha
            · exact .inl ‹_›
            · exact .inr (hpath a ha)
        rw [← enter]
        rcases hall with ⟨s₂, ks₂, heq, hs₂, hadv, hsorted⟩ | ⟨⟨err, heq⟩, hno⟩
        · rw [heq]
          exact outcome_complete hnode hv hs₂ hadv hsorted
        · rw [heq]
          exact .inr ⟨⟨_, rfl⟩, hno⟩

theorem runAll_mono {run run' : NodeId → Search → Option (Except MERROR Search)}
    (h : ∀ id s r, run id s = some r → run' id s = some r) {r : Except MERROR Search}
    (hr : runAll run ids s = some r) : runAll run' ids s = some r := by
  induction ids generalizing s with
  | nil => exact hr
  | cons id ids ih =>
    rw [runAll] at hr ⊢
    cases hrun : run id s with
    | none => simp [hrun] at hr
    | some r₁ =>
      rw [h id s r₁ hrun]
      rw [hrun] at hr
      cases r₁ with
      | error err => exact hr
      | ok s₁ => exact ih hr

theorem dfsRun_mono {r : Except MERROR Search} (h : dfsRun nodes fuel id s = some r) :
    dfsRun nodes (fuel + 1) id s = some r := by
  induction fuel generalizing id s r with
  | zero => cases h
  | succ fuel ih =>
    rw [dfsRun] at h ⊢
    split at h
    · exact h
    · exact h
    · exact h
    · split at h
      · cases h
      · rename_i node hnode
        rw [← enter] at h ⊢
        cases hall : runAll (dfsRun nodes fuel) node.mOutAdj.items (enter s id) with
        | none => simp [hall] at h
        | some r₁ =>
          rw [runAll_mono (fun _ _ _ => ih) hall]
          rwa [hall] at h

/-! ### The whole order -/

theorem not_noOrder (h : IsTopological nodes.HasEdge ks)
    (hks : ∀ a, a ∈ ks ↔ a ∈ nodes.keys) : ¬ NoOrder nodes := by
  rintro (⟨a, hcycle⟩ | ⟨a, b, hedge, hb⟩)
  · obtain ⟨b, hab, -⟩ := TransGen.head'_iff.mp hcycle
    exact h.acyclic ((hks a).mpr (mem_keys_of_mem_outOf hab)) hcycle
  · exact hb ((hks b).mp (h.mem_of_rel ((hks a).mpr (mem_keys_of_mem_outOf hedge)) hedge))

/-- A list of node objects is an **order of the graph**: it has the object of every node,
once, and the source of every edge before its target. -/
structure IsOrder (nodes : NodeMap) (l : List NodeObj) : Prop where
  nodup : (l.map NodeObj.id).Nodup
  mem : ∀ a, a ∈ l.map NodeObj.id ↔ a ∈ nodes.keys
  object : ∀ x ∈ l, nodes.nodeOf x.id = some x
  edge : ∀ a b, nodes.HasEdge a b →
    (l.map NodeObj.id).idxOf a < (l.map NodeObj.id).idxOf b

/-- **The evaluation** returns an order of all nodes, or an error when there is none. -/
theorem evaluateToposortWith_spec (nodes : NodeMap) (hfuel : nodes.size < fuel) :
    (∃ l ks, evaluateToposortWith fuel nodes = some (.ok, l) ∧
      IsTopological nodes.HasEdge ks ∧ (∀ a, a ∈ ks ↔ a ∈ nodes.keys) ∧
      l.map some = ks.map nodes.nodeOf) ∨
    evaluateToposortWith fuel nodes = some (.unknownError, []) ∧ NoOrder nodes := by
  set s₀ : Search := ⟨nodes.mapVal fun _ _ => .notVisit, []⟩ with hs₀
  have hfind : ∀ a, s₀.visit.find? a = (nodes.find? a).map fun _ => .notVisit := fun a =>
    KeyedVector.find?_mapVal _ _ _
  have hstart : ∀ a v, s₀.visit.find? a = some v → v = .notVisit := fun a v hv => by
    rw [hfind] at hv
    obtain ⟨-, -, rfl⟩ := Option.map_eq_some_iff.mp hv
    rfl
  have hsound : Sound nodes s₀ [] := by
    refine ⟨KeyedVector.keys_mapVal _ _, .nil, rfl, fun a => ?_⟩
    refine iff_of_false (fun ha => ?_) List.not_mem_nil
    cases hstart a _ ha
  have hall : Outcome nodes s₀ nodes.keys (runAll (sortFrom nodes fuel) nodes.keys s₀) := by
    refine runAll_spec (P := fun s => ∀ a, s.visit.find? a ≠ some .visited)
      (fun s s' h hadv a ha => h a ((hadv.visited a).mp ha)) (fun id hid s ks hs h => ?_)
      hsound fun a ha => by cases hstart a _ ha
    rw [sortFrom]
    split
    · refine dfsRun_spec hs (.inl hid) (fun a ha => absurd ha (h a)) ?_
      have hle : unvisited nodes s ≤ nodes.size := by
        rw [unvisited, ← KeyedVector.length_keys]
        exact List.countP_le_length
      omega
    · rename_i hv
      refine .inl ⟨s, ks, rfl, hs, .refl s, fun a ha => ?_⟩
      obtain rfl := List.mem_singleton.mp ha
      obtain ⟨v, hv'⟩ := KeyedVector.mem_keys_iff.mp (hs.keys ▸ hid)
      cases v with
      | notVisit => exact absurd hv' hv
      | visited => exact absurd hv' (h a)
      | sorted => exact hv'
  rw [evaluateToposortWith, ← hs₀]
  rcases hall with ⟨s, ks, heq, hs, -, hsorted⟩ | ⟨⟨err, heq⟩, hno⟩
  · rw [heq]
    refine .inl ⟨s.rToposort, ks, rfl, hs.order, fun a => ?_, hs.objects⟩
    rw [← hs.sorted]
    exact ⟨fun ha => hs.keys ▸ KeyedVector.mem_keys_of_find? ha, hsorted a⟩
  · rw [heq]
    exact .inr ⟨rfl, hno⟩

theorem evaluateToposortWith_eq (nodes : NodeMap) (hfuel : nodes.size < fuel) :
    evaluateToposortWith fuel nodes = evaluateToposort nodes := by
  obtain ⟨n, rfl⟩ : ∃ n, fuel = nodes.size + 1 + n := ⟨fuel - (nodes.size + 1), by omega⟩
  clear hfuel
  induction n with
  | zero => rfl
  | succ n ih =>
    rw [← ih, evaluateToposortWith, evaluateToposortWith, ← Nat.add_assoc]
    set s₀ : Search := ⟨nodes.mapVal fun _ _ => .notVisit, []⟩ with hs₀
    cases hall : runAll (sortFrom nodes (nodes.size + 1 + n)) nodes.keys s₀ with
    | none =>
      -- the search with less fuel returns
      have hspec := evaluateToposortWith_spec nodes
        (show nodes.size < nodes.size + 1 + n by omega)
      rw [evaluateToposortWith, ← hs₀, hall] at hspec
      rcases hspec with ⟨l, ks, heq, -⟩ | ⟨heq, -⟩ <;> cases heq
    | some r =>
      have hmono : ∀ id s r, sortFrom nodes (nodes.size + 1 + n) id s = some r →
          sortFrom nodes (nodes.size + 1 + n + 1) id s = some r := by
        intro id s r hr
        rw [sortFrom] at hr ⊢
        split
        · rename_i hv
          rw [if_pos hv] at hr
          exact dfsRun_mono hr
        · rename_i hv
          rwa [if_neg hv] at hr
      rw [runAll_mono hmono hall]

/-- **An order exists** exactly when the evaluation succeeds, on any graph whose nodes are at
their ids. -/
theorem evaluateToposort_spec (hids : ∀ a x, nodes.nodeOf a = some x → x.id = a) :
    (∃ l, evaluateToposort nodes = some (.ok, l) ∧ IsOrder nodes l ∧ ¬ NoOrder nodes) ∨
      evaluateToposort nodes = some (.unknownError, []) ∧ NoOrder nodes := by
  rcases evaluateToposortWith_spec nodes (Nat.lt_succ_self nodes.size) with
    ⟨l, ks, heq, horder, hks, hobjects⟩ | h
  · have hkey : ∀ a ∈ ks, (nodes.nodeOf a).map NodeObj.id = some a := by
      intro a ha
      obtain ⟨x, hx⟩ := mem_keys_iff_nodeOf.mp ((hks a).mp ha)
      rw [hx, Option.map_some, hids a x hx]
    have hids' : l.map NodeObj.id = ks := by
      have hmap := congrArg (List.map (Option.map NodeObj.id)) hobjects
      rw [List.map_map, List.map_map] at hmap
      have hsome : ks.map (Option.map NodeObj.id ∘ nodes.nodeOf) = ks.map some :=
        List.map_congr_left hkey
      rw [hsome] at hmap
      refine List.map_injective_iff.mpr (Option.some_injective _) ?_
      rw [List.map_map]
      exact hmap
    refine .inl ⟨l, heq, ⟨?_, fun a => ?_, fun x hx => ?_, fun a b hab => ?_⟩,
      not_noOrder horder hks⟩
    · exact hids' ▸ horder.nodup
    · rw [hids', hks]
    · obtain ⟨a, -, ha⟩ := List.mem_map.mp (hobjects ▸ List.mem_map_of_mem hx)
      rw [hids a x ha, ha]
    · rw [hids']
      exact horder.idxOf_lt ((hks a).mpr (mem_keys_of_mem_outOf hab)) hab
  · exact .inr h

theorem getToposort_spec (h : dag.IdsMatch) :
    ∃ rToposort, dag.getToposort = some ({ dag with mToposort := rToposort }, rToposort) := by
  rw [getToposort]
  split
  · rcases evaluateToposort_spec h with ⟨l, heq, -⟩ | ⟨heq, -⟩
    · exact ⟨l, by rw [heq]⟩
    · exact ⟨[], by rw [heq]⟩
  · exact ⟨dag.mToposort, rfl⟩

theorem evaluateToposort_of_getToposort {dag' : PipelineDAG} {rToposort : List NodeObj}
    (hempty : dag.mToposort = []) (h : dag.getToposort = some (dag', rToposort))
    (hne : rToposort ≠ []) : evaluateToposort dag.mNodesVec = some (.ok, rToposort) := by
  rw [getToposort, hempty] at h
  simp only [List.isEmpty_nil, if_true] at h
  rcases evaluateToposortWith_spec dag.mNodesVec (Nat.lt_succ_self _) with
    ⟨l, -, heq, -⟩ | ⟨heq, -⟩
  · rw [evaluateToposort, heq] at h
    cases h
    exact heq
  · rw [evaluateToposort, heq] at h
    cases h
    exact absurd rfl hne

theorem exists_getTopological (h : dag.IdsMatch) :
    ∃ err result, dag.getTopological = some (err, result) := by
  rw [getTopological]
  rcases evaluateToposort_spec h with ⟨l, heq, -⟩ | ⟨heq, -⟩
  · exact ⟨_, l, by rw [heq]⟩
  · exact ⟨_, [], by rw [heq]⟩

theorem Coherent.noOrder_iff (h : dag.Coherent) :
    NoOrder dag.mNodesVec ↔ ∃ a, TransGen dag.mNodesVec.HasEdge a a := by
  refine ⟨fun hno => hno.elim (fun hcycle => hcycle) ?_, .inl⟩
  rintro ⟨a, b, hab, hb⟩
  exact absurd (h.adjacent.mem_keys_of_out hab) hb

/-- **The topological order** of a coherent graph: the evaluation returns, however deep its
calls may be nested beyond the number of nodes; `getTopological` succeeds, as
`evaluateToposort` does, exactly when the graph has no cycle, and then it lists every node
once, with the source of every edge before its target; otherwise it reports an error and no
order. -/
theorem getTopological_spec (h : dag.Coherent) :
    (∀ fuel, dag.mNodesVec.size < fuel →
      evaluateToposortWith fuel dag.mNodesVec = evaluateToposort dag.mNodesVec) ∧
    ∃ err err' result, evaluateToposort dag.mNodesVec = some (err', result) ∧
      dag.getTopological = some (err, result) ∧ (err' = .ok ↔ err = .ok) ∧
      (err = .ok ↔ ∀ a, ¬ TransGen dag.mNodesVec.HasEdge a a) ∧
      (err = .ok → IsOrder dag.mNodesVec result) ∧
      (err ≠ .ok → err = .failed ∧ result = []) := by
  refine ⟨fun fuel => evaluateToposortWith_eq _, ?_⟩
  rw [getTopological]
  rcases evaluateToposort_spec h.ids with ⟨l, heq, horder, hgood⟩ | ⟨heq, hbad⟩
  · rw [heq]
    exact ⟨.ok, .ok, l, rfl, rfl, .rfl,
      ⟨fun _ a hcycle => hgood (h.noOrder_iff.mpr ⟨a, hcycle⟩), fun _ => rfl⟩,
      fun _ => horder, fun hne => absurd rfl hne⟩
  · rw [heq]
    obtain ⟨a, hcycle⟩ := h.noOrder_iff.mp hbad
    exact ⟨.failed, .unknownError, [], rfl, rfl, by simp, by simpa using ⟨a, hcycle⟩, by simp,
      fun _ => ⟨rfl, rfl⟩⟩

/-- The graph `1 → 2`. -/
def oneEdge : PipelineDAG := (((create.addNode 1 0).1.addNode 2 1).1.addEdge 1 2).1

theorem coherent_oneEdge : oneEdge.Coherent := by
  have hempty : ∀ a, outOf create.mNodesVec a = .empty ∧ inOf create.mNodesVec a = .empty :=
    fun _ => ⟨rfl, rfl⟩
  have h₁ : (create.addNode 1 0).1.Coherent :=
    coherent_addNode coherent_create 0 fun k hk => by simp [hempty] at hk
  have h₂ : ((create.addNode 1 0).1.addNode 2 1).1.Coherent :=
    coherent_addNode h₁ 1 fun k hk => by
      have hout : outOf (create.addNode 1 0).1.mNodesVec 2 = .empty := by decide
      have hin : inOf (create.addNode 1 0).1.mNodesVec 2 = .empty := by decide
      simp [hout, hin] at hk
  exact coherent_addEdge h₂ 1 2

/-- The order of `1 → 2`. -/
theorem getTopological_oneEdge :
    ∃ err err' result, evaluateToposort oneEdge.mNodesVec = some (err', result) ∧
      oneEdge.getTopological = some (err, result) ∧ (err' = .ok ↔ err = .ok) ∧
      (err = .ok ↔ ∀ a, ¬ TransGen oneEdge.mNodesVec.HasEdge a a) ∧
      (err = .ok → IsOrder oneEdge.mNodesVec result) ∧
      (err ≠ .ok → err = .failed ∧ result = []) :=
  (getTopological_spec coherent_oneEdge).2

example : oneEdge.getTopological = some (.ok, [⟨1, 0⟩, ⟨2, 1⟩]) := by decide

example : (oneEdge.addEdge 2 1).1.getTopological = some (.failed, []) := by decide

end PipelineDAG

end MtkHardware.Pipeline
