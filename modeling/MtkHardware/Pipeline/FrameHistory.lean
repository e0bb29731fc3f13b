import MtkHardware.Pipeline.FrameRun

/-!
# The History of a Frame

What a reachable state of a configured frame says about the operations that led to it: which
releases a node has applied, and which items have been found released.
-/

namespace MtkHardware.Pipeline

variable {cfg : FrameConfig} {frame₀ frame frame' : Frame} {i j : ItemId}
  {driver : SyncDriver} {n u : NodeId} {ops : List Op} {op : Op} {events o : List Event}

namespace FrameConfig

/-! ### The configured frame -/

theorem hasBit_store (i : ItemId) {b : ℕ} (hb : b ≠ eBUF_STATUS_ACQUIRE) :
    cfg.store.hasBit i b = false := by
  rw [← Bool.not_eq_true]
  exact fun hbit => hb (cfg.holds_store.untouched i b hbit)

theorem hasBit_release_store (i : ItemId) :
    cfg.store.hasBit i eBUF_STATUS_RELEASE = false :=
  hasBit_store i (by decide)

theorem hasBit_producers_store (i : ItemId) :
    cfg.store.hasBit i eBUF_STATUS_PRODUCERS_RELEASE = false :=
  hasBit_store i (by decide)

theorem usersInvariant_store : UsersInvariant cfg cfg.store where
  coherent i := cfg.coherent_evaluateBufferUsers i
  same i := .refl _
  released i hbit := by simp [hasBit_release_store] at hbit
  producers i hbit := by simp [hasBit_producers_store] at hbit

theorem mapInvariant_store : MapInvariant cfg cfg.store where
  entry kind s := by
    rw [cfg.holds_store.entry, hasBit_release_store, if_neg Bool.false_ne_true]
    exact if_congr (cfg.mem_keys_iff kind s).symm rfl rfl
  keys kind := rfl
  num kind := by
    rw [cfg.holds_store.num]
    simp [hasBit_release_store, streams]
  hasItem i hbit := by simp [hasBit_release_store] at hbit

theorem bufferInvariant_store : BufferInvariant cfg cfg.store :=
  ⟨cfg.holds_store.buffer, cfg.holds_store.acquired, fun _ _ => rfl⟩

theorem producersInFlight_store (kind : MapKind) : cfg.store.producersInFlight kind =
    (cfg.keys kind).countP fun s => cfg.store.inFlight cfg (kind, s) := by
  rw [Store.producersInFlight, keys, KeyedVector.keys, List.countP_map]
  congr 1
  refine List.countP_congr fun e he => ?_
  have hfind := KeyedVector.find?_eq_some_iff.mpr he
  rw [cfg.holds_store.entry] at hfind
  split at hfind
  · rw [← Option.some_inj.mp hfind]
    simp only [Function.comp_apply, Store.inFlight, hasBit_producers_store, Bool.not_false,
      Bool.and_true]
    rfl
  · cases hfind

theorem ledgerInvariant_constructRequest (h : cfg.constructRequest = .ok frame₀) :
    LedgerInvariant cfg frame₀.toStore := by
  obtain ⟨hitems, -, hcalls, -, hcollector, -⟩ := constructRequest_spec h
  have hbits : ∀ j b, frame₀.hasBit j b = cfg.store.hasBit j b := fun j b => by
    rw [Store.hasBit, Store.hasBit, hitems]
  have hno : ∀ b, b = eBUF_STATUS_RELEASE ∨ b = eBUF_STATUS_PRODUCERS_RELEASE → ∀ j,
      frame₀.hasBit j b = false := by
    rintro b (rfl | rfl) j
    · rw [hbits, hasBit_release_store]
    · rw [hbits, hasBit_producers_store]
  refine ⟨fun kind hkind => ?_, fun b => ?_, fun b => ?_⟩
  · have hnum : frame₀.mpReleasedCollector.metaNum kind =
        cfg.store.producersInFlight kind := by
      rw [hcollector]
      cases kind <;> first | rfl | cases hkind
    rw [hnum, producersInFlight_store]
    simp only [Store.inFlight, hbits]
  · have hnone : ¬ frame₀.Batched b := fun hb => by
      rw [Store.Batched, hno _ (.inl rfl)] at hb
      cases hb.1
    rw [if_neg hnone, Store.times, hcalls, hcollector]
    rfl
  · have hnone : ¬ frame₀.Produced cfg b := fun hb => by
      rw [Store.Produced, hno _ (.inr rfl)] at hb
      cases hb.1
    rw [if_neg hnone, Store.times, hcalls, hcollector]
    rfl

theorem storeInvariant_constructRequest (h : cfg.constructRequest = .ok frame₀) :
    StoreInvariant cfg frame₀.toStore := by
  obtain ⟨hitems, hmap, -, -, -, -⟩ := constructRequest_spec h
  have husers := cfg.usersInvariant_store
  have hbit : ∀ j b, frame₀.hasBit j b = cfg.store.hasBit j b := fun j b => by
    rw [Store.hasBit, Store.hasBit, hitems]
  have husersAt : ∀ j, frame₀.users j = cfg.store.users j := fun j => by
    rw [Store.users, Store.users, hitems]
  refine ⟨⟨fun j => ?_, fun j => ?_, fun j => ?_, fun j => ?_⟩,
    cfg.mapInvariant_store.congr hmap fun j => hbit j _,
    cfg.bufferInvariant_store.congr (fun j => by rw [hitems]) fun j => hbit j _,
    ledgerInvariant_constructRequest h⟩
  · exact husersAt j ▸ husers.coherent j
  · exact husersAt j ▸ husers.same j
  · rw [hbit, husersAt]
    exact husers.released j
  · rw [hbit, husersAt]
    exact husers.producers j

theorem nodeStatus_spec {status : NodeStatus} (h : cfg.nodeStatus n = some status) :
    ∃ node, cfg.nodeMap.find? n = some node ∧
      (node.iMeta.map cfg.metaItem = status.mISetMeta.items.map some ∧
        node.iImage.map cfg.imageItem = status.mISetImage.items.map some ∧
        node.oMeta.map cfg.metaItem = status.mOSetMeta.items.map some ∧
        node.oImage.map cfg.imageItem = status.mOSetImage.items.map some) ∧
      status.mISetMeta.mNotified = false ∧ status.mISetImage.mNotified = false ∧
      status.mOSetMeta.mNotified = false ∧ status.mOSetImage.mNotified = false := by
  rw [nodeStatus, Option.bind_eq_some_iff] at h
  obtain ⟨node, hnode, hof⟩ := h
  rw [NodeStatus.ofNode] at hof
  split at hof
  · rename_i iMeta iImage oMeta oImage h₁ h₂ h₃ h₄
    rw [mapM_eq_some_iff] at h₁ h₂ h₃ h₄
    rw [Option.some_inj] at hof
    subst hof
    exact ⟨node, hnode, ⟨h₁, h₂, h₃, h₄⟩, rfl, rfl, rfl, rfl⟩
  · cases hof

theorem imageItem_spec {s : StreamId} (h : cfg.imageItem s = some i) :
    cfg.HasItem i ∧ i.2 = s ∧ i.1.isImage = true := by
  rw [imageItem_eq] at h
  split at h
  · cases h
    exact ⟨‹_›, rfl, rfl⟩
  · split at h
    · cases h
      exact ⟨‹_›, rfl, rfl⟩
    · cases h

theorem metaItem_spec {s : StreamId} (h : cfg.metaItem s = some i) :
    cfg.HasItem i ∧ i.2 = s ∧ i.1.isImage = false := by
  rw [metaItem_eq] at h
  split at h
  · cases h
    exact ⟨‹_›, rfl, rfl⟩
  · split at h
    · cases h
      exact ⟨‹_›, rfl, rfl⟩
    · cases h

theorem exists_stream_of_mem {f : StreamId → Option ItemId} {ss : List StreamId}
    {is : List ItemId} (h : ss.map f = is.map some) (hi : i ∈ is) : ∃ s ∈ ss, f s = some i := by
  have hmem : some i ∈ ss.map f := h ▸ List.mem_map_of_mem hi
  simpa using hmem

theorem hasItem_of_mem_nodeStatus {status : NodeStatus} (h : cfg.nodeStatus n = some status)
    (hi : i ∈ status.items) : cfg.HasItem i := by
  obtain ⟨node, -, ⟨h₁, h₂, h₃, h₄⟩, -⟩ := nodeStatus_spec h
  simp only [NodeStatus.items, List.mem_append] at hi
  rcases hi with ((hi | hi) | hi) | hi
  · obtain ⟨s, -, hs⟩ := exists_stream_of_mem h₄ hi
    exact (imageItem_spec hs).1
  · obtain ⟨s, -, hs⟩ := exists_stream_of_mem h₂ hi
    exact (imageItem_spec hs).1
  · obtain ⟨s, -, hs⟩ := exists_stream_of_mem h₃ hi
    exact (metaItem_spec hs).1
  · obtain ⟨s, -, hs⟩ := exists_stream_of_mem h₁ hi
    exact (metaItem_spec hs).1

/-- **The invariant holds of a configured frame.** -/
theorem invariant_constructRequest (h : cfg.constructRequest = .ok frame₀) :
    FrameInvariant cfg frame₀ := by
  refine ⟨storeInvariant_constructRequest h, fun n status hfind => ?_⟩
  obtain ⟨hstatus, -⟩ := (find?_nodes_iff h n status).mp hfind
  obtain ⟨node, -, -, h₁, h₂, h₃, h₄⟩ := nodeStatus_spec hstatus
  exact ⟨⟨fun hnot => by simp [h₂] at hnot, fun hnot => by simp [h₄] at hnot,
    fun hnot => by simp [h₁] at hnot, fun hnot => by simp [h₃] at hnot⟩,
    fun i hi => hasItem_of_mem_nodeStatus hstatus hi⟩

/-- **The invariant holds in every reachable state.** -/
theorem runs_invariant (h : cfg.constructRequest = .ok frame₀)
    (hrun : (frameMachine driver).Runs frame₀ ops frame events) : FrameInvariant cfg frame := by
  induction hrun with
  | init => exact invariant_constructRequest h
  | snoc _ hstep ih => exact ih.step hstep

def observe {α : Type*} (cfg : FrameConfig) (driver : SyncDriver) (ops : List Op)
    (view : Frame → α) : Option (List Event × α) :=
  match cfg.constructRequest with
  | .error _ => none
  | .ok frame₀ =>
    match (frameMachine driver).run frame₀ ops with
    | .error _ => none
    | .ok (frame, events) => some (events, view frame)

theorem exists_run_of_observe {α : Type*} {view : Frame → α} {a : α}
    (h : cfg.observe driver ops view = some (events, a)) :
    ∃ frame₀ frame, cfg.constructRequest = .ok frame₀ ∧
      (frameMachine driver).Runs frame₀ ops frame events ∧ view frame = a := by
  rw [observe] at h
  split at h
  · cases h
  · rename_i frame₀ hcfg
    split at h
    · cases h
    · rename_i frame events' hrun
      cases h
      exact ⟨frame₀, frame, hcfg, Machine.runs_of_run hrun, rfl⟩

/-- A frame with one node, which outputs one application metadata stream. -/
def singleProducer : FrameConfig where
  nodeMap := KeyedVector.empty.add 1 ⟨[], [], [], [10]⟩
  toposort := [1]
  mem_toposort n := by simp [KeyedVector.mem_keys_add]
  edges := []
  queryMinimalUsage _ _ := 0
  buffers
    | .appMeta => [(10, some 100)]
    | _ => []

end FrameConfig

def SyncDriver.inert : SyncDriver := ⟨id, fun _ _ => -1⟩

/-! ### Items found released -/

/-- Is the step an `applyRelease` of a node that has the item in an IO set and has released
it, at a moment when **all users** have? -/
def FindsReleased (i : ItemId) (frame : Frame) (op : Op) : Prop :=
  ∃ n pAppCallback preemption, op = .applyRelease n pAppCallback preemption ∧
    i ∈ frame.pending n ∧ frame.Released i n ∧ (frame.users i).haveAllUsersReleased = .ok

/-- Is the step an `applyRelease` of a node that has the item in an IO set, at a moment when
**all producers** have released it? -/
def FindsProduced (i : ItemId) (frame : Frame) (op : Op) : Prop :=
  ∃ n pAppCallback preemption, op = .applyRelease n pAppCallback preemption ∧
    i ∈ frame.pending n ∧ (frame.users i).haveAllProducerUsersReleased = .ok

theorem hasBit_frameMachine (hinv : FrameInvariant cfg frame)
    (h : frameMachine driver frame op = .ok (frame', o)) :
    (frame'.hasBit i eBUF_STATUS_RELEASE = true ↔
      frame.hasBit i eBUF_STATUS_RELEASE = true ∨ FindsReleased i frame op) ∧
    (frame'.hasBit i eBUF_STATUS_PRODUCERS_RELEASE = true ↔
      frame.hasBit i eBUF_STATUS_PRODUCERS_RELEASE = true ∨ FindsProduced i frame op) := by
  have hsteps := steps_frameMachine hinv h
  by_cases hvisited : i ∈ frame.visited op
  · cases op with
    | applyRelease n pAppCallback preemption =>
      cases h
      rw [Frame.visited] at hvisited
      have hpending := hvisited
      rw [Frame.pending] at hvisited
      cases hfind : frame.mNodeStatusMap.nodes.find? n with
      | none => simp [hfind] at hvisited
      | some status =>
        rw [hfind] at hvisited
        obtain ⟨st₁, bits, hupd, heq, -⟩ :=
          Frame.applyRelease_spec hfind (hinv.nodes n status hfind).1 pAppCallback preemption
        have hbit : ∀ b, (frame.applyRelease n pAppCallback preemption).hasBit i b =
            st₁.hasBit i b := fun b => by
          rw [heq]
          rfl
        rw [hbit, hbit]
        refine ⟨⟨fun hrel => ?_, ?_⟩, ⟨fun hprod => ?_, ?_⟩⟩
        · rcases hupd.of_hasBit_release hrel with hrel | ⟨-, hn, hall⟩
          · exact .inl hrel
          · exact .inr ⟨n, pAppCallback, preemption, rfl, hpending, hn, hall⟩
        · rintro (hrel | ⟨m, a, p, heq', -, hn, hall⟩)
          · exact hupd.hasBit_mono hrel
          · cases heq'
            exact hupd.allReleased i hvisited hn hall
        · rcases hupd.of_hasBit_producers hprod with hprod | ⟨-, hall⟩
          · exact .inl hprod
          · exact .inr ⟨n, pAppCallback, preemption, rfl, hpending, hall⟩
        · rintro (hprod | ⟨m, a, p, heq', -, hall⟩)
          · exact hupd.hasBit_mono hprod
          · cases heq'
            exact hupd.producersReleased i hvisited hall
    | _ => cases hvisited
  · rw [hsteps.hasBit_of_notMem hvisited (.inl rfl), hsteps.hasBit_of_notMem hvisited (.inr rfl)]
    refine ⟨⟨.inl, ?_⟩, ⟨.inl, ?_⟩⟩
    · rintro (hrel | ⟨n, a, p, rfl, hmem, -⟩)
      · exact hrel
      · exact absurd hmem hvisited
    · rintro (hprod | ⟨n, a, p, rfl, hmem, -⟩)
      · exact hprod
      · exact absurd hmem hvisited

/-- **The `RELEASE` bit** of an item tells that it has been found released. -/
theorem hasBit_release_iff (h : cfg.constructRequest = .ok frame₀)
    (hrun : (frameMachine driver).Runs frame₀ ops frame events) :
    frame.hasBit i eBUF_STATUS_RELEASE = true ↔
      (frameMachine driver).Met frame₀ ops (FindsReleased i) := by
  induction hrun with
  | init =>
    obtain ⟨hitems, -⟩ := FrameConfig.constructRequest_spec h
    rw [Store.hasBit, hitems]
    exact iff_of_false (by simpa [Store.hasBit] using cfg.hasBit_release_store i)
      Machine.not_met_nil
  | snoc hrun hstep ih =>
    rw [(hasBit_frameMachine (FrameConfig.runs_invariant h hrun) hstep).1, ih,
      Machine.met_snoc hrun]

/-- **The `PRODUCERS_RELEASE` bit** of an item tells that it has been found produced. -/
theorem hasBit_producers_iff (h : cfg.constructRequest = .ok frame₀)
    (hrun : (frameMachine driver).Runs frame₀ ops frame events) :
    frame.hasBit i eBUF_STATUS_PRODUCERS_RELEASE = true ↔
      (frameMachine driver).Met frame₀ ops (FindsProduced i) := by
  induction hrun with
  | init =>
    obtain ⟨hitems, -⟩ := FrameConfig.constructRequest_spec h
    rw [Store.hasBit, hitems]
    exact iff_of_false (by simpa [Store.hasBit] using cfg.hasBit_producers_store i)
      Machine.not_met_nil
  | snoc hrun hstep ih =>
    rw [(hasBit_frameMachine (FrameConfig.runs_invariant h hrun) hstep).2, ih,
      Machine.met_snoc hrun]

/-! ### Applied releases -/

/-- The node **has applied the release** of all the items `is`: at one of its calls of
`applyRelease` it had released them all. -/
def HasApplied (driver : SyncDriver) (frame₀ : Frame) (ops : List Op) (n : NodeId)
    (is : List ItemId) : Prop :=
  (frameMachine driver).Met frame₀ ops fun frame op =>
    (∃ pAppCallback preemption, op = .applyRelease n pAppCallback preemption) ∧
      ∀ i ∈ is, frame.Released i n

namespace HasApplied

variable {is is₁ is₂ : List ItemId}

theorem released (h : cfg.constructRequest = .ok frame₀)
    (hrun : (frameMachine driver).Runs frame₀ ops frame events)
    (happlied : HasApplied driver frame₀ ops n is) : ∀ i ∈ is, frame.Released i n := by
  induction hrun with
  | init => exact absurd happlied Machine.not_met_nil
  | snoc hrun hstep ih =>
    have hinv := FrameConfig.runs_invariant h hrun
    have hsteps := steps_frameMachine hinv hstep
    intro i hi
    refine hsteps.released hinv.store ?_
    rcases (Machine.met_snoc hrun).mp happlied with happlied | ⟨-, hrel⟩
    · exact ih happlied i hi
    · exact hrel i hi

/-- After an `applyRelease` of the node, what it has released has been applied. -/
theorem snoc_self (h : cfg.constructRequest = .ok frame₀)
    (hrun : (frameMachine driver).Runs frame₀ ops frame events) (pAppCallback : Bool)
    (preemption : Preemption) :
    HasApplied driver frame₀ (ops ++ [.applyRelease n pAppCallback preemption]) n is ↔
      ∀ i ∈ is, frame.Released i n := by
  rw [HasApplied, Machine.met_snoc hrun]
  constructor
  · rintro (happlied | ⟨-, hrel⟩)
    · exact released h hrun happlied
    · exact hrel
  · exact fun hrel => .inr ⟨⟨_, _, rfl⟩, hrel⟩

theorem snoc_of_ne (hrun : (frameMachine driver).Runs frame₀ ops frame events)
    (hop : ∀ pAppCallback preemption, op ≠ .applyRelease n pAppCallback preemption) :
    HasApplied driver frame₀ (ops ++ [op]) n is ↔ HasApplied driver frame₀ ops n is := by
  rw [HasApplied, Machine.met_snoc hrun]
  exact or_iff_left fun ⟨⟨a, p, heq⟩, _⟩ => hop a p heq

theorem not_nil : ¬ HasApplied driver frame₀ [] n is := Machine.not_met_nil

theorem append_iff (h : cfg.constructRequest = .ok frame₀)
    (hrun : (frameMachine driver).Runs frame₀ ops frame events) :
    HasApplied driver frame₀ ops n (is₁ ++ is₂) ↔
      HasApplied driver frame₀ ops n is₁ ∧ HasApplied driver frame₀ ops n is₂ := by
  induction hrun with
  | init => exact iff_of_false not_nil fun h => not_nil h.1
  | @snoc _ _ _ op _ _ hrun hstep ih =>
    by_cases hop : ∃ pAppCallback preemption, op = .applyRelease n pAppCallback preemption
    · obtain ⟨pAppCallback, preemption, rfl⟩ := hop
      rw [snoc_self h hrun, snoc_self h hrun, snoc_self h hrun]
      simp only [List.mem_append, or_imp, forall_and]
    · have hne : ∀ a p, op ≠ .applyRelease n a p := fun a p heq => hop ⟨a, p, heq⟩
      rw [snoc_of_ne hrun hne, snoc_of_ne hrun hne, snoc_of_ne hrun hne, ih]

theorem mono (hsub : ∀ i ∈ is₁, i ∈ is₂) (happlied : HasApplied driver frame₀ ops n is₂) :
    HasApplied driver frame₀ ops n is₁ := by
  obtain ⟨ops₁, op, ops₂, frame₁, events₁, hops, hrun, hop, hrel⟩ := happlied
  exact ⟨ops₁, op, ops₂, frame₁, events₁, hops, hrun, hop, fun i hi => hrel i (hsub i hi)⟩

theorem snoc (hrun : (frameMachine driver).Runs frame₀ ops frame events)
    (happlied : HasApplied driver frame₀ ops n is) (op : Op) :
    HasApplied driver frame₀ (ops ++ [op]) n is :=
  (Machine.met_snoc hrun).mpr (.inl happlied)

end HasApplied

/-! ### Node statuses -/

/-- An IO set of a node **follows** its configured one: it has the items whose release the
node has not applied, and it is notified when the release of all has been applied. -/
structure IOSet.Follows (driver : SyncDriver) (frame₀ : Frame) (ops : List Op) (n : NodeId)
    (ioSet₀ ioSet : IOSet) : Prop where
  mem : ∀ i, i ∈ ioSet.items ↔
    i ∈ ioSet₀.items ∧ ¬ HasApplied driver frame₀ ops n [i]
  notified : ioSet.mNotified = true ↔ HasApplied driver frame₀ ops n ioSet₀.items

structure NodeStatus.Follows (driver : SyncDriver) (frame₀ : Frame) (ops : List Op)
    (n : NodeId) (status₀ status : NodeStatus) : Prop where
  iImage : status₀.mISetImage.Follows driver frame₀ ops n status.mISetImage
  oImage : status₀.mOSetImage.Follows driver frame₀ ops n status.mOSetImage
  iMeta : status₀.mISetMeta.Follows driver frame₀ ops n status.mISetMeta
  oMeta : status₀.mOSetMeta.Follows driver frame₀ ops n status.mOSetMeta

namespace IOSet.Follows

variable {ioSet₀ ioSet : IOSet}

theorem init (h : ioSet.mNotified = false) : ioSet.Follows driver frame₀ [] n ioSet := by
  refine ⟨fun i => ?_, iff_of_false (by simp [h]) HasApplied.not_nil⟩
  exact (and_iff_left HasApplied.not_nil).symm

/-- No set changes without an `applyRelease` of its node. -/
theorem snoc_of_ne (hfollows : ioSet₀.Follows driver frame₀ ops n ioSet)
    (hrun : (frameMachine driver).Runs frame₀ ops frame events)
    (hop : ∀ pAppCallback preemption, op ≠ .applyRelease n pAppCallback preemption) :
    ioSet₀.Follows driver frame₀ (ops ++ [op]) n ioSet := by
  refine ⟨fun i => ?_, ?_⟩
  · rw [HasApplied.snoc_of_ne hrun hop, hfollows.mem]
  · rw [HasApplied.snoc_of_ne hrun hop, hfollows.notified]

theorem filter_isEmpty_iff (hfollows : ioSet₀.Follows driver frame₀ ops n ioSet)
    (h : cfg.constructRequest = .ok frame₀)
    (hrun : (frameMachine driver).Runs frame₀ ops frame events) :
    (ioSet.items.filter fun i => !decide (frame.Released i n)).isEmpty = true ↔
      ∀ i ∈ ioSet₀.items, frame.Released i n := by
  simp only [List.isEmpty_iff, List.filter_eq_nil_iff, Bool.not_eq_true', decide_eq_false_iff_not,
    not_not]
  constructor
  · intro hall i hi
    by_cases happlied : HasApplied driver frame₀ ops n [i]
    · exact HasApplied.released h hrun happlied i List.mem_cons_self
    · exact hall i ((hfollows.mem i).mpr ⟨hi, happlied⟩)
  · exact fun hall i hi => hall i ((hfollows.mem i).mp hi).1

theorem snoc_self (hfollows : ioSet₀.Follows driver frame₀ ops n ioSet)
    (h : cfg.constructRequest = .ok frame₀)
    (hrun : (frameMachine driver).Runs frame₀ ops frame events) (pAppCallback : Bool)
    (preemption : Preemption) :
    ioSet₀.Follows driver frame₀ (ops ++ [.applyRelease n pAppCallback preemption]) n
      (ioSet.release (frame.Released · n)) := by
  refine ⟨fun i => ?_, ?_⟩
  · rw [HasApplied.snoc_self h hrun, IOSet.release, List.mem_filter, hfollows.mem]
    simp only [List.mem_singleton, forall_eq, Bool.not_eq_true', decide_eq_false_iff_not]
    constructor
    · rintro ⟨⟨hi, -⟩, hrel⟩
      exact ⟨hi, hrel⟩
    · rintro ⟨hi, hrel⟩
      exact ⟨⟨hi, fun happlied =>
        hrel (HasApplied.released h hrun happlied i List.mem_cons_self)⟩, hrel⟩
  · rw [HasApplied.snoc_self h hrun, IOSet.release, Bool.or_eq_true, hfollows.notified,
      hfollows.filter_isEmpty_iff h hrun]
    exact or_iff_right_of_imp (HasApplied.released h hrun)

theorem isNew_iff (hfollows : ioSet₀.Follows driver frame₀ ops n ioSet)
    (h : cfg.constructRequest = .ok frame₀)
    (hrun : (frameMachine driver).Runs frame₀ ops frame events) (pAppCallback : Bool)
    (preemption : Preemption) :
    ioSet.isNew (frame.Released · n) = true ↔
      HasApplied driver frame₀ (ops ++ [.applyRelease n pAppCallback preemption]) n
        ioSet₀.items ∧ ¬ HasApplied driver frame₀ ops n ioSet₀.items := by
  rw [HasApplied.snoc_self h hrun, IOSet.isNew, Bool.and_eq_true,
    hfollows.filter_isEmpty_iff h hrun, ← hfollows.notified, Bool.not_eq_true', Bool.not_eq_true]
  exact and_comm

end IOSet.Follows

end MtkHardware.Pipeline
