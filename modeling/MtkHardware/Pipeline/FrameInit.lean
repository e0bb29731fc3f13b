import MtkHardware.Pipeline.UserSetup

/-!
# The Configured Frame

What `constructRequest` establishes: every stream that was added is in its map with an
item of its own, nothing is released or collected, and each node that has a stream has
the items of its streams in its IO sets.
-/

namespace MtkHardware.Pipeline

/-! ### Item maps -/

/-- A store whose maps **hold** exactly the items of some streams, none of them touched
since it was added. -/
structure Store.Holds (streams : MapKind → List StreamId) (st : Store) : Prop where
  entry : ∀ kind s, (st.itemMap kind).mMap.find? s =
    if s ∈ streams kind then some (some (kind, s)) else none
  num : ∀ kind, (st.itemMap kind).mNonReleasedNum = (streams kind).length
  buffer : ∀ i b, (st.items i).mBuffer = some b → b.item = i
  acquired : ∀ i, (st.items i).mBitStatus.hasBit eBUF_STATUS_ACQUIRE =
    (st.items i).mBuffer.isSome
  untouched : ∀ i n, (st.items i).mBitStatus.hasBit n = true → n = eBUF_STATUS_ACQUIRE
  collector : st.mpReleasedCollector = .new
  calls : st.calls = []

namespace Store.Holds

variable {streams : MapKind → List StreamId} {st : Store}

theorem empty : Store.empty.Holds fun _ => [] where
  entry kind s := by simp [Store.empty]
  num kind := rfl
  buffer i b h := by simp [Store.empty] at h
  acquired i := by simp [Store.empty]
  untouched i n h := by simp [Store.empty] at h
  collector := rfl
  calls := rfl

theorem add (h : st.Holds streams) (kind : MapKind) (value : StreamId × Option ℕ) :
    (st.add kind value).Holds
      (Function.update streams kind (streams kind ++ [value.1])) where
  entry kind' s := by
    by_cases hk : kind' = kind
    · subst hk
      simp only [Store.add, Function.update_self, KeyedVector.find?_add, h.entry,
        List.mem_append, List.mem_singleton]
      by_cases hs : s = value.1 <;> simp [hs]
    · simp only [Store.add, Function.update_of_ne hk, h.entry]
  num kind' := by
    by_cases hk : kind' = kind
    · subst hk
      simp [Store.add, h.num]
    · simp only [Store.add, Function.update_of_ne hk, h.num]
  buffer i b hb := by
    by_cases hi : i = (kind, value.1)
    · subst hi
      simp only [Store.add, Function.update_self, Option.map_eq_some_iff] at hb
      obtain ⟨_, -, rfl⟩ := hb
      rfl
    · rw [Store.add] at hb
      simp only [Function.update_of_ne hi] at hb
      exact h.buffer i b hb
  acquired i := by
    by_cases hi : i = (kind, value.1)
    · subst hi
      cases hv : value.2 <;>
        simp [Store.add, hv, BitSet32.hasBit_markBit, eBUF_STATUS_ACQUIRE]
    · simpa only [Store.add, Function.update_of_ne hi] using h.acquired i
  untouched i n hn := by
    by_cases hi : i = (kind, value.1)
    · subst hi
      cases hv : value.2 with
      | none => simp [Store.add, hv] at hn
      | some handle =>
        simp only [Store.add, hv, Function.update_self, Option.isSome_some, if_true,
          BitSet32.hasBit_markBit, BitSet32.hasBit_clear, Bool.false_or, Bool.and_eq_true,
          decide_eq_true_eq] at hn
        exact hn.2
    · simp only [Store.add, Function.update_of_ne hi] at hn
      exact h.untouched i n hn
  collector := h.collector
  calls := h.calls

theorem addAll (h : st.Holds streams) (kind : MapKind)
    (values : List (StreamId × Option ℕ)) :
    (st.addAll kind values).Holds
      (Function.update streams kind (streams kind ++ values.map Prod.fst)) := by
  induction values generalizing st streams with
  | nil => simpa [Store.addAll] using h
  | cons value values ih =>
    have h' := ih (h.add kind value)
    rw [Function.update_idem, Function.update_self, List.append_assoc] at h'
    exact h'

theorem congr (streams' : MapKind → List StreamId) (h : st.Holds streams)
    (heq : ∀ kind, streams kind = streams' kind) : st.Holds streams' :=
  funext heq ▸ h

end Store.Holds

namespace FrameConfig

variable (cfg : FrameConfig)

def streams (kind : MapKind) : List StreamId := (cfg.buffers kind).map Prod.fst

/-- **The item maps of a configured frame** hold the streams that were added. -/
theorem holds_store : cfg.store.Holds cfg.streams := by
  have h := (((Store.Holds.empty.addAll .appMeta (cfg.buffers .appMeta)).addAll
    .halMeta (cfg.buffers .halMeta)).addAll .appImage (cfg.buffers .appImage)).addAll
    .halImage (cfg.buffers .halImage)
  have h' := h.congr cfg.streams fun kind => by cases kind <;> rfl
  exact ⟨h'.entry, h'.num, h'.buffer, h'.acquired, h'.untouched, h'.collector, h'.calls⟩

/-! ### Node statuses -/

def imageItem (s : StreamId) : Option ItemId := cfg.store.getImageMapItemLocked s

def metaItem (s : StreamId) : Option ItemId := cfg.store.getMetaMapItemLocked s

theorem imageItem_eq (s : StreamId) : cfg.imageItem s =
    if s ∈ cfg.streams .halImage then some (.halImage, s)
    else if s ∈ cfg.streams .appImage then some (.appImage, s) else none := by
  rw [imageItem, Store.getImageMapItemLocked, Store.getMapItemLocked,
    Store.getMapItemLocked, cfg.holds_store.entry, cfg.holds_store.entry]
  split_ifs <;> simp

theorem metaItem_eq (s : StreamId) : cfg.metaItem s =
    if s ∈ cfg.streams .halMeta then some (.halMeta, s)
    else if s ∈ cfg.streams .appMeta then some (.appMeta, s) else none := by
  rw [metaItem, Store.getMetaMapItemLocked, Store.getMapItemLocked,
    Store.getMapItemLocked, cfg.holds_store.entry, cfg.holds_store.entry]
  split_ifs <;> simp

def nodeStatus (nodeId : NodeId) : Option NodeStatus :=
  (cfg.nodeMap.find? nodeId).bind fun node => NodeStatus.ofNode cfg.store node

end FrameConfig

/-- The four IO sets of a node, in the order in which they are updated. -/
def NodeStatus.items (status : NodeStatus) : List ItemId :=
  status.mOSetImage.items ++ status.mISetImage.items ++ status.mOSetMeta.items ++
    status.mISetMeta.items

theorem NodeStatus.isEmpty_iff {status : NodeStatus} :
    status.isEmpty = true ↔ status.items = [] := by
  simp [NodeStatus.isEmpty, NodeStatus.items, and_comm, and_left_comm]

theorem NodeStatusMap.build_spec {st : Store} {entries : List (NodeId × INode)}
    {map map' : NodeStatusMap} (hbuild : NodeStatusMap.build st entries map = .ok map')
    (hnodup : (entries.map Prod.fst).Nodup)
    (hnew : ∀ e ∈ entries, e.1 ∉ map.nodes.keys)
    (hcount : map.mInFlightNodeCount = map.nodes.size) :
    (∀ e ∈ entries, ∃ status, NodeStatus.ofNode st e.2 = some status) ∧
      (∀ n status, map'.nodes.find? n = some status ↔ map.nodes.find? n = some status ∨
        ∃ node, (n, node) ∈ entries ∧ NodeStatus.ofNode st node = some status ∧
          status.items ≠ []) ∧
      map'.mInFlightNodeCount = map'.nodes.size := by
  induction entries generalizing map with
  | nil =>
    obtain rfl : map = map' := by simpa [build] using hbuild
    exact ⟨by simp, by simp, hcount⟩
  | cons e entries ih =>
    obtain ⟨nodeId, node⟩ := e
    rw [List.map_cons, List.nodup_cons] at hnodup
    rw [build] at hbuild
    cases hstatus : NodeStatus.ofNode st node with
    | none => simp [hstatus] at hbuild
    | some status =>
      simp only [hstatus] at hbuild
      have hnodeId := hnew _ List.mem_cons_self
      have hnew' : ∀ e ∈ entries, e.1 ∉ map.nodes.keys :=
        fun e he => hnew e (List.mem_cons_of_mem _ he)
      split at hbuild
      · rename_i hempty
        obtain ⟨hall, hfind, hcount'⟩ := ih hbuild hnodup.2 hnew' hcount
        refine ⟨fun e he => ?_, fun n status' => ?_, hcount'⟩
        · rcases List.mem_cons.mp he with rfl | he
          · exact ⟨status, hstatus⟩
          · exact hall e he
        · rw [hfind]
          refine or_congr_right (exists_congr fun node' => ?_)
          constructor
          · rintro ⟨hmem, hrest⟩
            exact ⟨List.mem_cons_of_mem _ hmem, hrest⟩
          · rintro ⟨hmem, hof, hne⟩
            rcases List.mem_cons.mp hmem with heq | hmem
            · rw [Prod.mk.injEq] at heq
              rw [heq.2, hstatus, Option.some_inj] at hof
              exact absurd (NodeStatus.isEmpty_iff.mp hempty) (hof ▸ hne)
            · exact ⟨hmem, hof, hne⟩
      · rename_i hempty
        have hfresh : ∀ e ∈ entries, e.1 ∉ (map.nodes.add nodeId status).keys := by
          intro e he hmem
          rcases KeyedVector.mem_keys_add.mp hmem with heq | hmem
          · exact hnodup.1 (List.mem_map.mpr ⟨e, he, heq⟩)
          · exact hnew' e he hmem
        obtain ⟨hall, hfind, hcount'⟩ := ih hbuild hnodup.2 hfresh (by
          simp [hcount, KeyedVector.size_add hnodeId])
        refine ⟨fun e he => ?_, fun n status' => ?_, hcount'⟩
        · rcases List.mem_cons.mp he with rfl | he
          · exact ⟨status, hstatus⟩
          · exact hall e he
        · rw [hfind, KeyedVector.find?_add]
          by_cases hn : n = nodeId
          · subst hn
            have hnone : map.nodes.find? n = none := KeyedVector.find?_eq_none_iff.mpr hnodeId
            simp only [if_true, Option.some_inj, hnone, List.mem_cons, Prod.mk.injEq,
              true_and]
            constructor
            · rintro (rfl | ⟨node', hmem, hrest⟩)
              · exact .inr ⟨node, .inl rfl, hstatus, mt NodeStatus.isEmpty_iff.mpr hempty⟩
              · exact .inr ⟨node', .inr hmem, hrest⟩
            · rintro (hfalse | ⟨node', rfl | hmem, hof, hne⟩)
              · cases hfalse
              · exact .inl (Option.some_inj.mp (hstatus.symm.trans hof))
              · exact .inr ⟨node', hmem, hof, hne⟩
          · simp [hn]

namespace FrameConfig

variable {cfg : FrameConfig} {frame₀ : Frame}

theorem constructRequest_spec (h : cfg.constructRequest = .ok frame₀) :
    frame₀.items = cfg.store.items ∧ frame₀.itemMap = cfg.store.itemMap ∧
      frame₀.calls = [] ∧ frame₀.mListeners = [] ∧
      frame₀.mpReleasedCollector = { ReleasedCollector.new with
        mAppMetaNumO_ProducersInFlight := cfg.store.producersInFlight .appMeta
        mHalMetaNumO_ProducersInFlight := cfg.store.producersInFlight .halMeta } ∧
      NodeStatusMap.build cfg.store cfg.nodeMap.entries ⟨.empty, 0⟩ =
        .ok frame₀.mNodeStatusMap := by
  rw [constructRequest, finishConfiguration] at h
  split at h
  · cases h
  · split at h
    · cases h
    · rename_i hbuild
      cases h
      exact ⟨rfl, rfl, cfg.holds_store.calls, rfl, by rw [cfg.holds_store.collector], hbuild⟩

theorem build_spec (h : cfg.constructRequest = .ok frame₀) :
    (∀ e ∈ cfg.nodeMap.entries, ∃ status, NodeStatus.ofNode cfg.store e.2 = some status) ∧
      (∀ n status, frame₀.mNodeStatusMap.nodes.find? n = some status ↔
        ∃ node, (n, node) ∈ cfg.nodeMap.entries ∧
          NodeStatus.ofNode cfg.store node = some status ∧ status.items ≠ []) ∧
      frame₀.mNodeStatusMap.mInFlightNodeCount = frame₀.mNodeStatusMap.nodes.size := by
  obtain ⟨-, -, -, -, -, hbuild⟩ := constructRequest_spec h
  simpa using NodeStatusMap.build_spec hbuild cfg.nodeMap.nodup_keys (by simp) rfl

/-- **The node statuses** of a configured frame: those of the nodes that have a stream. -/
theorem find?_nodes_iff (h : cfg.constructRequest = .ok frame₀) (n : NodeId)
    (status : NodeStatus) : frame₀.mNodeStatusMap.nodes.find? n = some status ↔
      cfg.nodeStatus n = some status ∧ status.items ≠ [] := by
  rw [(build_spec h).2.1 n status, nodeStatus, Option.bind_eq_some_iff]
  simp only [← KeyedVector.find?_eq_some_iff]
  exact ⟨fun ⟨node, hnode, hof, hne⟩ => ⟨⟨node, hnode, hof⟩, hne⟩,
    fun ⟨⟨node, hnode, hof⟩, hne⟩ => ⟨node, hnode, hof, hne⟩⟩

theorem exists_nodeStatus (h : cfg.constructRequest = .ok frame₀) {n : NodeId}
    {node : INode} (hnode : cfg.nodeMap.find? n = some node) :
    ∃ status, cfg.nodeStatus n = some status := by
  obtain ⟨status, hof⟩ := (build_spec h).1 _ (KeyedVector.find?_eq_some_iff.mp hnode)
  exact ⟨status, by rw [nodeStatus, hnode, Option.bind_some, hof]⟩

end FrameConfig

end MtkHardware.Pipeline
