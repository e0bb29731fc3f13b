import MtkHardware.Pipeline.FrameCalls
import Mathlib.Algebra.Order.BigOperators.Group.List
import Mathlib.Data.Set.Card

/-!
# Frame Completion

The listeners of a frame are told when a node has released all its output images, or all its
output metadata, and when all nodes have released everything. The counters behind these
messages are updated step by step; here they are compared with the history of the frame.
-/

namespace MtkHardware.Pipeline

variable {cfg : FrameConfig} {frame₀ frame frame' : Frame} {driver : SyncDriver}
  {n m : NodeId} {ops : List Op} {op : Op} {events o : List Event}
  {status₀ status : NodeStatus} {pAppCallback : Bool} {preemption : Preemption}

/-! ### One node -/

namespace NodeStatus.Follows

theorem release_isEmpty_iff (hfollows : status₀.Follows driver frame₀ ops n status)
    (h : cfg.constructRequest = .ok frame₀)
    (hrun : (frameMachine driver).Runs frame₀ ops frame events) (pAppCallback : Bool)
    (preemption : Preemption) :
    (status.release (frame.Released · n)).items.isEmpty = true ↔
      HasApplied driver frame₀ (ops ++ [.applyRelease n pAppCallback preemption]) n
        status₀.items := by
  rw [HasApplied.snoc_self h hrun]
  simp only [NodeStatus.items, NodeStatus.release, IOSet.release, isEmpty_append,
    Bool.and_eq_true, List.mem_append, or_imp, forall_and]
  rw [hfollows.oImage.filter_isEmpty_iff h hrun, hfollows.iImage.filter_isEmpty_iff h hrun,
    hfollows.oMeta.filter_isEmpty_iff h hrun, hfollows.iMeta.filter_isEmpty_iff h hrun]

/-- When the release of all of a node is applied, some set of it becomes empty exactly if
this is the first time. -/
theorem isAnyUpdate_iff (hfollows : status₀.Follows driver frame₀ ops n status)
    (h : cfg.constructRequest = .ok frame₀)
    (hrun : (frameMachine driver).Runs frame₀ ops frame events)
    (happlied : HasApplied driver frame₀
      (ops ++ [.applyRelease n pAppCallback preemption]) n status₀.items) :
    status.isAnyUpdate (frame.Released · n) = true ↔
      ¬ HasApplied driver frame₀ ops n status₀.items := by
  have hset : ∀ {is : List ItemId}, (∀ i ∈ is, i ∈ status₀.items) →
      HasApplied driver frame₀ (ops ++ [.applyRelease n pAppCallback preemption]) n is :=
    fun hsub => happlied.mono hsub
  rw [NodeStatus.isAnyUpdate, Bool.or_eq_true, Bool.or_eq_true, Bool.or_eq_true,
    hfollows.oImage.isNew_iff h hrun pAppCallback preemption,
    hfollows.iImage.isNew_iff h hrun pAppCallback preemption,
    hfollows.oMeta.isNew_iff h hrun pAppCallback preemption,
    hfollows.iMeta.isNew_iff h hrun pAppCallback preemption,
    and_iff_right (hset fun i hi => by simp [NodeStatus.items, hi]),
    and_iff_right (hset fun i hi => by simp [NodeStatus.items, hi]),
    and_iff_right (hset fun i hi => by simp [NodeStatus.items, hi]),
    and_iff_right (hset fun i hi => by simp [NodeStatus.items, hi]),
    NodeStatus.items, HasApplied.append_iff h hrun, HasApplied.append_iff h hrun,
    HasApplied.append_iff h hrun]
  tauto

theorem snoc_of_ne (hfollows : status₀.Follows driver frame₀ ops n status)
    (hrun : (frameMachine driver).Runs frame₀ ops frame events)
    (hop : ∀ pAppCallback preemption, op ≠ .applyRelease n pAppCallback preemption) :
    status₀.Follows driver frame₀ (ops ++ [op]) n status :=
  ⟨hfollows.iImage.snoc_of_ne hrun hop, hfollows.oImage.snoc_of_ne hrun hop,
    hfollows.iMeta.snoc_of_ne hrun hop, hfollows.oMeta.snoc_of_ne hrun hop⟩

theorem snoc_self (hfollows : status₀.Follows driver frame₀ ops n status)
    (h : cfg.constructRequest = .ok frame₀)
    (hrun : (frameMachine driver).Runs frame₀ ops frame events) :
    status₀.Follows driver frame₀ (ops ++ [.applyRelease n pAppCallback preemption]) n
      (status.release (frame.Released · n)) :=
  ⟨hfollows.iImage.snoc_self h hrun _ _, hfollows.oImage.snoc_self h hrun _ _,
    hfollows.iMeta.snoc_self h hrun _ _, hfollows.oMeta.snoc_self h hrun _ _⟩

end NodeStatus.Follows

/-! ### All nodes -/

namespace FrameConfig

def StatusOf (cfg : FrameConfig) (n : NodeId) (status : NodeStatus) : Prop :=
  cfg.nodeStatus n = some status ∧ status.items ≠ []

/-- **The IO sets** of the nodes of a frame, in every reachable state. -/
theorem follows (h : cfg.constructRequest = .ok frame₀)
    (hrun : (frameMachine driver).Runs frame₀ ops frame events) (n : NodeId) :
    (∀ status₀, cfg.StatusOf n status₀ → ∃ status,
      frame.mNodeStatusMap.nodes.find? n = some status ∧
        status₀.Follows driver frame₀ ops n status) ∧
      ∀ status, frame.mNodeStatusMap.nodes.find? n = some status →
        ∃ status₀, cfg.StatusOf n status₀ := by
  induction hrun with
  | init =>
    constructor
    · intro status₀ hstatus
      obtain ⟨node, -, -, h₁, h₂, h₃, h₄⟩ := nodeStatus_spec hstatus.1
      exact ⟨status₀, (find?_nodes_iff h n status₀).mpr hstatus,
        .init h₂, .init h₄, .init h₁, .init h₃⟩
    · exact fun status hfind => ⟨status, (find?_nodes_iff h n status).mp hfind⟩
  | @snoc ops frame events op frame' o hrun hstep ih =>
    by_cases hop : ∃ m pAppCallback preemption, op = .applyRelease m pAppCallback preemption
    · obtain ⟨m, pAppCallback, preemption, rfl⟩ := hop
      cases hstep
      cases hm : frame.mNodeStatusMap.nodes.find? m with
      | none =>
        rw [Frame.applyRelease_of_none hm]
        refine ⟨fun status₀ hstatus => ?_, ih.2⟩
        obtain ⟨status, hfind, hfollows⟩ := ih.1 status₀ hstatus
        have hne : m ≠ n := fun heq => by simp [← heq, hm] at hfind
        exact ⟨status, hfind, hfollows.snoc_of_ne hrun fun a p heq => by
          rw [Op.applyRelease.injEq] at heq
          exact hne heq.1⟩
      | some statusm =>
        have hsound := ((runs_invariant h hrun).nodes m statusm hm).1
        obtain ⟨st₁, bits, -, heq, -⟩ :=
          Frame.applyRelease_spec hm hsound pAppCallback preemption
        rw [heq]
        simp only [KeyedVector.find?_modify]
        by_cases hnm : n = m
        · subst hnm
          refine ⟨fun status₀ hstatus => ?_, fun status _ => ih.2 statusm hm⟩
          obtain ⟨status, hfind, hfollows⟩ := ih.1 status₀ hstatus
          rw [hm, Option.some_inj] at hfind
          subst hfind
          exact ⟨_, by rw [if_pos rfl, hm, Option.map_some],
            hfollows.snoc_self h hrun⟩
        · refine ⟨fun status₀ hstatus => ?_, fun status hfind => ?_⟩
          · obtain ⟨status, hfind, hfollows⟩ := ih.1 status₀ hstatus
            exact ⟨status, by rw [if_neg hnm, hfind],
              hfollows.snoc_of_ne hrun fun a p heq => by
                rw [Op.applyRelease.injEq] at heq
                exact hnm heq.1.symm⟩
          · rw [if_neg hnm] at hfind
            exact ih.2 status hfind
    · rw [mNodeStatusMap_frameMachine hstep fun m a p heq => hop ⟨m, a, p, heq⟩]
      refine ⟨fun status₀ hstatus => ?_, ih.2⟩
      obtain ⟨status, hfind, hfollows⟩ := ih.1 status₀ hstatus
      exact ⟨status, hfind, hfollows.snoc_of_ne hrun fun a p heq => hop ⟨n, a, p, heq⟩⟩

/-! ### The count of nodes in flight -/

/-- The nodes **in flight**: those with a stream whose release they have not applied. -/
def inFlight (cfg : FrameConfig) (driver : SyncDriver) (frame₀ : Frame) (ops : List Op) :
    Set NodeId :=
  {n | ∃ status, cfg.StatusOf n status ∧ ¬ HasApplied driver frame₀ ops n status.items}

theorem finite_inFlight : (cfg.inFlight driver frame₀ ops).Finite := by
  refine (List.finite_toSet cfg.nodeMap.keys).subset ?_
  rintro n ⟨status, ⟨hstatus, -⟩, -⟩
  obtain ⟨node, hnode, -⟩ := nodeStatus_spec hstatus
  exact KeyedVector.mem_keys_of_find? hnode

theorem StatusOf.unique (h₁ : cfg.StatusOf n status₀) (h₂ : cfg.StatusOf n status) :
    status₀ = status :=
  Option.some_inj.mp (h₁.1.symm.trans h₂.1)

theorem mem_inFlight_iff (hstatus : cfg.StatusOf n status) :
    n ∈ cfg.inFlight driver frame₀ ops ↔ ¬ HasApplied driver frame₀ ops n status.items := by
  constructor
  · rintro ⟨status', hstatus', hnot⟩
    rwa [hstatus.unique hstatus']
  · exact fun hnot => ⟨status, hstatus, hnot⟩

/-- An operation other than an `applyRelease` of a node does not change whether the node is
in flight. -/
theorem mem_inFlight_snoc_of_ne (hrun : (frameMachine driver).Runs frame₀ ops frame events)
    (hop : ∀ pAppCallback preemption, op ≠ .applyRelease n pAppCallback preemption) :
    n ∈ cfg.inFlight driver frame₀ (ops ++ [op]) ↔ n ∈ cfg.inFlight driver frame₀ ops := by
  simp only [inFlight, Set.mem_ofPred_eq, HasApplied.snoc_of_ne hrun hop]

/-- An `applyRelease` changes the nodes in flight at most at its node. -/
theorem inFlight_snoc (hrun : (frameMachine driver).Runs frame₀ ops frame events)
    (hstatus : cfg.StatusOf n status) (pAppCallback : Bool) (preemption : Preemption) :
    (HasApplied driver frame₀ (ops ++ [.applyRelease n pAppCallback preemption]) n
        status.items →
      cfg.inFlight driver frame₀ (ops ++ [.applyRelease n pAppCallback preemption]) =
        cfg.inFlight driver frame₀ ops \ {n}) ∧
    (¬ HasApplied driver frame₀ (ops ++ [.applyRelease n pAppCallback preemption]) n
        status.items →
      cfg.inFlight driver frame₀ (ops ++ [.applyRelease n pAppCallback preemption]) =
        cfg.inFlight driver frame₀ ops) := by
  have hother : ∀ m, m ≠ n →
      (m ∈ cfg.inFlight driver frame₀ (ops ++ [.applyRelease n pAppCallback preemption]) ↔
        m ∈ cfg.inFlight driver frame₀ ops) := fun m hm =>
    mem_inFlight_snoc_of_ne hrun fun a p heq => hm (by
      rw [Op.applyRelease.injEq] at heq
      exact heq.1.symm)
  constructor
  · intro happlied
    ext m
    by_cases hm : m = n
    · subst hm
      simp [mem_inFlight_iff hstatus, happlied]
    · simp [hother m hm, hm]
  · intro hnot
    ext m
    by_cases hm : m = n
    · subst hm
      rw [mem_inFlight_iff hstatus, mem_inFlight_iff hstatus]
      exact iff_of_true hnot fun happlied => hnot (happlied.snoc hrun _)
    · exact hother m hm

theorem inFlight_snoc_of_ne (hrun : (frameMachine driver).Runs frame₀ ops frame events)
    (hop : ∀ n status pAppCallback preemption, cfg.StatusOf n status →
      op ≠ .applyRelease n pAppCallback preemption) :
    cfg.inFlight driver frame₀ (ops ++ [op]) = cfg.inFlight driver frame₀ ops := by
  ext n
  constructor
  · rintro ⟨status, hstatus, hnot⟩
    exact ⟨status, hstatus, fun happlied => hnot (happlied.snoc hrun op)⟩
  · rintro ⟨status, hstatus, hnot⟩
    refine ⟨status, hstatus, ?_⟩
    rwa [HasApplied.snoc_of_ne hrun fun a p => hop n status a p hstatus]

theorem inFlight_nil (h : cfg.constructRequest = .ok frame₀) :
    (frame₀.mNodeStatusMap.mInFlightNodeCount : ℤ) =
      (cfg.inFlight driver frame₀ []).ncard := by
  have hset : cfg.inFlight driver frame₀ [] =
      (frame₀.mNodeStatusMap.nodes.keys.toFinset : Set NodeId) := by
    ext n
    rw [List.coe_toFinset, Set.mem_ofPred_eq, KeyedVector.mem_keys_iff]
    simp only [find?_nodes_iff h]
    exact ⟨fun ⟨status, hstatus, _⟩ => ⟨status, hstatus⟩,
      fun ⟨status, hstatus⟩ => ⟨status, hstatus, HasApplied.not_nil⟩⟩
  rw [hset, Set.ncard_coe_finset, List.toFinset_card_of_nodup (KeyedVector.nodup_keys _),
    KeyedVector.length_keys, (build_spec h).2.2]

/-- The count after an `applyRelease` of a node that has a stream. -/
theorem countAfter_eq (h : cfg.constructRequest = .ok frame₀)
    (hrun : (frameMachine driver).Runs frame₀ ops frame events)
    (hstatus : cfg.StatusOf n status₀)
    (hfollows : status₀.Follows driver frame₀ ops n status)
    (hcount : (frame.mNodeStatusMap.mInFlightNodeCount : ℤ) =
      (cfg.inFlight driver frame₀ ops).ncard) (pAppCallback : Bool)
    (preemption : Preemption) :
    frame.mNodeStatusMap.countAfter status (frame.Released · n) =
      (cfg.inFlight driver frame₀
        (ops ++ [.applyRelease n pAppCallback preemption])).ncard := by
  have hempty := hfollows.release_isEmpty_iff h hrun pAppCallback preemption
  obtain ⟨hdone, hnotDone⟩ := inFlight_snoc hrun hstatus pAppCallback preemption
  rw [NodeStatusMap.countAfter, hcount]
  by_cases happlied : HasApplied driver frame₀
      (ops ++ [.applyRelease n pAppCallback preemption]) n status₀.items
  · rw [hdone happlied, hempty.mpr happlied, Bool.and_true]
    by_cases hbefore : HasApplied driver frame₀ ops n status₀.items
    · have hnotMem : n ∉ cfg.inFlight driver frame₀ ops := by
        rw [mem_inFlight_iff hstatus]
        exact not_not.mpr hbefore
      rw [if_neg (mt (hfollows.isAnyUpdate_iff h hrun happlied).mp (not_not.mpr hbefore)),
        Set.sdiff_singleton_eq_self hnotMem]
    · have hmem := (mem_inFlight_iff hstatus).mpr hbefore
      rw [if_pos ((hfollows.isAnyUpdate_iff h hrun happlied).mpr hbefore)]
      have hcard := Set.ncard_sdiff_singleton_add_one hmem finite_inFlight
      omega
  · rw [hnotDone happlied, if_neg]
    rw [Bool.and_eq_true, hempty]
    exact fun hboth => happlied hboth.2

/-- **The count of nodes in flight** is right in every reachable state. -/
theorem mInFlightNodeCount_eq (h : cfg.constructRequest = .ok frame₀)
    (hrun : (frameMachine driver).Runs frame₀ ops frame events) :
    (frame.mNodeStatusMap.mInFlightNodeCount : ℤ) =
      (cfg.inFlight driver frame₀ ops).ncard := by
  induction hrun with
  | init => exact inFlight_nil h
  | @snoc ops frame events op frame' o hrun hstep ih =>
    by_cases hop : ∃ n status₀ pAppCallback preemption, cfg.StatusOf n status₀ ∧
        op = .applyRelease n pAppCallback preemption
    · obtain ⟨n, status₀, pAppCallback, preemption, hstatus, rfl⟩ := hop
      cases hstep
      obtain ⟨status, hfind, hfollows⟩ := (follows h hrun n).1 status₀ hstatus
      obtain ⟨st₁, bits, -, heq, -⟩ := Frame.applyRelease_spec hfind
        ((runs_invariant h hrun).nodes n status hfind).1 pAppCallback preemption
      rw [heq]
      exact countAfter_eq h hrun hstatus hfollows ih pAppCallback preemption
    · rw [inFlight_snoc_of_ne hrun fun n status a p hstatus heq =>
        hop ⟨n, status, a, p, hstatus, heq⟩, ← ih]
      by_cases happly : ∃ n pAppCallback preemption,
          op = .applyRelease n pAppCallback preemption
      · obtain ⟨n, pAppCallback, preemption, rfl⟩ := happly
        cases hstep
        cases hfind : frame.mNodeStatusMap.nodes.find? n with
        | none => rw [Frame.applyRelease_of_none hfind]
        | some status =>
          obtain ⟨status₀, hstatus⟩ := (follows h hrun n).2 status hfind
          exact absurd ⟨n, status₀, _, _, hstatus, rfl⟩ hop
      · rw [mNodeStatusMap_frameMachine hstep fun n a p heq => happly ⟨n, a, p, heq⟩]

/-! ### Messages -/

/-- The node **has applied its outputs** of the kind that a message about a node tells of. -/
def OutputsApplied (cfg : FrameConfig) (driver : SyncDriver) (frame₀ : Frame)
    (ops : List Op) (n : NodeId) (message : ℕ) : Prop :=
  ∃ status, cfg.StatusOf n status ∧
    (message = eMSG_ALL_OUT_META_BUFFERS_RELEASED ∧
        HasApplied driver frame₀ ops n status.mOSetMeta.items ∨
      message = eMSG_ALL_OUT_IMAGE_BUFFERS_RELEASED ∧
        HasApplied driver frame₀ ops n status.mOSetImage.items)

/-- An `applyRelease` of a node **announces** a message when what the message tells becomes
true. -/
def Announces (cfg : FrameConfig) (driver : SyncDriver) (frame₀ : Frame) (ops : List Op)
    (op : Op) (n : NodeId) (message : ℕ) : Prop :=
  cfg.OutputsApplied driver frame₀ (ops ++ [op]) n message ∧
      ¬ cfg.OutputsApplied driver frame₀ ops n message ∨
    message = eMSG_FRAME_RELEASED ∧ cfg.inFlight driver frame₀ (ops ++ [op]) = ∅ ∧
      cfg.inFlight driver frame₀ ops ≠ ∅

theorem outputsApplied_iff (hstatus : cfg.StatusOf n status₀) {message : ℕ} :
    cfg.OutputsApplied driver frame₀ ops n message ↔
      message = eMSG_ALL_OUT_META_BUFFERS_RELEASED ∧
        HasApplied driver frame₀ ops n status₀.mOSetMeta.items ∨
      message = eMSG_ALL_OUT_IMAGE_BUFFERS_RELEASED ∧
        HasApplied driver frame₀ ops n status₀.mOSetImage.items := by
  constructor
  · rintro ⟨status, hstatus', hmessage⟩
    rwa [hstatus.unique hstatus']
  · exact fun hmessage => ⟨status₀, hstatus, hmessage⟩

theorem OutputsApplied.snoc (hrun : (frameMachine driver).Runs frame₀ ops frame events)
    {message : ℕ} (happlied : cfg.OutputsApplied driver frame₀ ops n message) (op : Op) :
    cfg.OutputsApplied driver frame₀ (ops ++ [op]) n message := by
  obtain ⟨status, hstatus, hmessage⟩ := happlied
  exact ⟨status, hstatus, hmessage.imp (fun hm => ⟨hm.1, hm.2.snoc hrun op⟩)
    fun hm => ⟨hm.1, hm.2.snoc hrun op⟩⟩

theorem outputsApplied_snoc_of_ne (hrun : (frameMachine driver).Runs frame₀ ops frame events)
    (hop : ∀ pAppCallback preemption, op ≠ .applyRelease n pAppCallback preemption)
    {message : ℕ} : cfg.OutputsApplied driver frame₀ (ops ++ [op]) n message ↔
      cfg.OutputsApplied driver frame₀ ops n message := by
  simp only [OutputsApplied, HasApplied.snoc_of_ne hrun hop]

/-- The bits that an `applyRelease` sets are the messages that it announces. -/
theorem announces_iff (h : cfg.constructRequest = .ok frame₀)
    (hrun : (frameMachine driver).Runs frame₀ ops frame events)
    (hstatus : cfg.StatusOf n status₀)
    (hfollows : status₀.Follows driver frame₀ ops n status) (pAppCallback : Bool)
    (preemption : Preemption) (message : ℕ) :
    status.announces (frame.Released · n)
        (frame.mNodeStatusMap.countAfter status (frame.Released · n)) message = true ↔
      cfg.Announces driver frame₀ ops (.applyRelease n pAppCallback preemption) n message := by
  have hframe : status.isAnyUpdate (frame.Released · n) = true ∧
      frame.mNodeStatusMap.countAfter status (frame.Released · n) = 0 ↔
      cfg.inFlight driver frame₀ (ops ++ [.applyRelease n pAppCallback preemption]) = ∅ ∧
        cfg.inFlight driver frame₀ ops ≠ ∅ := by
    rw [countAfter_eq h hrun hstatus hfollows (mInFlightNodeCount_eq h hrun) pAppCallback
      preemption, Int.natCast_eq_zero, Set.ncard_eq_zero finite_inFlight,
      ← Set.nonempty_iff_ne_empty, and_comm]
    refine and_congr_right fun hempty => ?_
    have happlied : HasApplied driver frame₀
        (ops ++ [.applyRelease n pAppCallback preemption]) n status₀.items := by
      by_contra hnot
      exact Set.notMem_empty n (hempty ▸ (mem_inFlight_iff hstatus).mpr hnot)
    rw [hfollows.isAnyUpdate_iff h hrun happlied]
    constructor
    · exact fun hnot => ⟨n, (mem_inFlight_iff hstatus).mpr hnot⟩
    · rintro ⟨m, hm⟩ hbefore
      rw [(inFlight_snoc hrun hstatus _ _).1 happlied] at hempty
      have hmn : m = n := by
        by_contra hne
        exact Set.notMem_empty m (hempty ▸ ⟨hm, hne⟩)
      subst hmn
      exact (mem_inFlight_iff hstatus).mp hm hbefore
  simp only [NodeStatus.announces, Bool.or_eq_true, Bool.and_eq_true, decide_eq_true_eq, hframe,
    hfollows.oImage.isNew_iff h hrun pAppCallback preemption,
    hfollows.oMeta.isNew_iff h hrun pAppCallback preemption, Announces,
    outputsApplied_iff hstatus]
  by_cases hmeta : message = eMSG_ALL_OUT_META_BUFFERS_RELEASED
  · subst hmeta
    simp [eMSG_ALL_OUT_META_BUFFERS_RELEASED, eMSG_ALL_OUT_IMAGE_BUFFERS_RELEASED,
      eMSG_FRAME_RELEASED]
  · by_cases himage : message = eMSG_ALL_OUT_IMAGE_BUFFERS_RELEASED
    · subst himage
      simp [eMSG_ALL_OUT_META_BUFFERS_RELEASED, eMSG_ALL_OUT_IMAGE_BUFFERS_RELEASED,
        eMSG_FRAME_RELEASED]
    · simp [hmeta, himage, and_comm]

/-- **The call that an `applyRelease` makes**, of any node. -/
theorem announces_spec (h : cfg.constructRequest = .ok frame₀)
    (hrun : (frameMachine driver).Runs frame₀ ops frame events) (n : NodeId)
    (pAppCallback : Bool) (preemption : Preemption) :
    ∃ bits, (frame.applyRelease n pAppCallback preemption).info =
        frame.info ++ [frame.newCall n pAppCallback bits] ∧
      ∀ message, bits.hasBit message = true ↔ cfg.Announces driver frame₀ ops
        (.applyRelease n pAppCallback preemption) n message := by
  cases hfind : frame.mNodeStatusMap.nodes.find? n with
  | some status =>
    obtain ⟨status₀, hstatus⟩ := (follows h hrun n).2 status hfind
    obtain ⟨status', hfind', hfollows⟩ := (follows h hrun n).1 status₀ hstatus
    rw [hfind, Option.some_inj] at hfind'
    subst hfind'
    obtain ⟨bits, hinfo, hbits⟩ := info_applyRelease hfind
      ((runs_invariant h hrun).nodes n status hfind).1 pAppCallback preemption
    refine ⟨bits, hinfo, fun message => ?_⟩
    rw [hbits, announces_iff h hrun hstatus hfollows pAppCallback preemption]
  | none =>
    have hno : ∀ status, ¬ cfg.StatusOf n status := fun status hstatus => by
      obtain ⟨status', hfind', -⟩ := (follows h hrun n).1 status hstatus
      simp [hfind] at hfind'
    refine ⟨.clear, info_applyRelease_of_none hfind pAppCallback preemption, fun message => ?_⟩
    rw [BitSet32.hasBit_clear]
    refine iff_of_false Bool.false_ne_true ?_
    rintro (⟨⟨status, hstatus, -⟩, -⟩ | ⟨-, hempty, hne⟩)
    · exact hno status hstatus
    · refine hne ?_
      rwa [inFlight_snoc_of_ne hrun] at hempty
      intro m status a p hstatus heq
      rw [Op.applyRelease.injEq] at heq
      exact hno status (heq.1 ▸ hstatus)

/-! ### Once -/

theorem countP_info {p : Call → Bool} {D : List Op → Prop} (hinit : ¬ D [])
    (h : cfg.constructRequest = .ok frame₀)
    (hpre : ∀ userId pAppCallback, p (.preRelease userId pAppCallback) = false)
    (hother : ∀ {ops frame events op}, (frameMachine driver).Runs frame₀ ops frame events →
      (∀ n pAppCallback preemption, op ≠ .applyRelease n pAppCallback preemption) →
      (D (ops ++ [op]) ↔ D ops))
    (happly : ∀ {ops frame events n pAppCallback preemption bits},
      (frameMachine driver).Runs frame₀ ops frame events →
      (∀ message, bits.hasBit message = true ↔ cfg.Announces driver frame₀ ops
        (.applyRelease n pAppCallback preemption) n message) →
      (p (frame.newCall n pAppCallback bits) = true ↔
        D (ops ++ [.applyRelease n pAppCallback preemption]) ∧ ¬ D ops) ∧
      (D ops → D (ops ++ [.applyRelease n pAppCallback preemption])))
    (hrun : (frameMachine driver).Runs frame₀ ops frame events) :
    D ops ∧ frame.info.countP p = 1 ∨ ¬ D ops ∧ frame.info.countP p = 0 := by
  induction hrun with
  | init =>
    obtain ⟨-, -, hcalls, -⟩ := constructRequest_spec h
    exact .inr ⟨hinit, by simp [Store.info, hcalls]⟩
  | @snoc ops frame events op frame' o hrun hstep ih =>
    by_cases hop : ∃ n pAppCallback preemption, op = .applyRelease n pAppCallback preemption
    · obtain ⟨n, pAppCallback, preemption, rfl⟩ := hop
      cases hstep
      obtain ⟨bits, hinfo, hbits⟩ := announces_spec h hrun n pAppCallback preemption
      obtain ⟨hp, hmono⟩ := happly hrun hbits
      rw [hinfo, List.countP_append, List.countP_singleton]
      rcases ih with ⟨hD, hcount⟩ | ⟨hD, hcount⟩
      · rw [if_neg fun hp' => (hp.mp hp').2 hD, hcount]
        exact .inl ⟨hmono hD, rfl⟩
      · by_cases hD' : D (ops ++ [.applyRelease n pAppCallback preemption])
        · rw [if_pos (hp.mpr ⟨hD', hD⟩), hcount]
          exact .inl ⟨hD', rfl⟩
        · rw [if_neg fun hp' => hD' (hp.mp hp').1, hcount]
          exact .inr ⟨hD', rfl⟩
    · have hne : ∀ n a p, op ≠ .applyRelease n a p := fun n a p heq => hop ⟨n, a, p, heq⟩
      have hnew : op.preCalls.countP p = 0 := by
        cases op <;> simp [Op.preCalls, hpre]
      rw [(info_frameMachine hstep hne).1, List.countP_append, hnew, hother hrun hne]
      exact ih

theorem countP_outputs (h : cfg.constructRequest = .ok frame₀) (n : NodeId) {message : ℕ}
    (hmessage : message ≠ eMSG_FRAME_RELEASED)
    (hrun : (frameMachine driver).Runs frame₀ ops frame events) :
    cfg.OutputsApplied driver frame₀ ops n message ∧ frame.info.countP (fun call =>
        decide (call.userId = n) && call.nodeStatusUpdated.hasBit message) = 1 ∨
      ¬ cfg.OutputsApplied driver frame₀ ops n message ∧ frame.info.countP (fun call =>
        decide (call.userId = n) && call.nodeStatusUpdated.hasBit message) = 0 := by
  refine countP_info (D := fun ops => cfg.OutputsApplied driver frame₀ ops n message) ?_ h
    (fun _ _ => by simp [Call.preRelease])
    (fun hrun hne => outputsApplied_snoc_of_ne hrun (hne n)) (fun hrun hbits => ?_) hrun
  · rintro ⟨status, -, hbefore⟩
    exact hbefore.elim (fun hm => HasApplied.not_nil hm.2) fun hm => HasApplied.not_nil hm.2
  · rename_i m a p bits
    refine ⟨?_, fun hD => hD.snoc hrun _⟩
    simp only [Frame.newCall, Bool.and_eq_true, hbits, Announces]
    constructor
    · rintro ⟨huser, hmessages⟩
      obtain rfl : m = n := of_decide_eq_true huser
      rcases hmessages with hnew | ⟨hframe, -⟩
      · exact hnew
      · exact absurd hframe hmessage
    · rintro ⟨hafter, hbefore⟩
      have hmn : m = n := by
        by_contra hne
        refine hbefore ((outputsApplied_snoc_of_ne hrun fun a' p' heq => hne ?_).mp hafter)
        rw [Op.applyRelease.injEq] at heq
        exact heq.1
      subst hmn
      exact ⟨decide_eq_true rfl, .inl ⟨hafter, hbefore⟩⟩

theorem countP_frame (h : cfg.constructRequest = .ok frame₀)
    (hstream : ∃ n status, cfg.StatusOf n status)
    (hrun : (frameMachine driver).Runs frame₀ ops frame events) :
    cfg.inFlight driver frame₀ ops = ∅ ∧ frame.info.countP (fun call =>
        call.nodeStatusUpdated.hasBit eMSG_FRAME_RELEASED) = 1 ∨
      ¬ cfg.inFlight driver frame₀ ops = ∅ ∧ frame.info.countP (fun call =>
        call.nodeStatusUpdated.hasBit eMSG_FRAME_RELEASED) = 0 := by
  refine countP_info (D := fun ops => cfg.inFlight driver frame₀ ops = ∅) ?_ h
    (fun _ _ => by simp [Call.preRelease]) (fun hrun hne => ?_) (fun hrun hbits => ?_) hrun
  · obtain ⟨n, status, hstatus⟩ := hstream
    intro hempty
    exact Set.notMem_empty n (hempty ▸ (mem_inFlight_iff hstatus).mpr HasApplied.not_nil)
  · rw [inFlight_snoc_of_ne hrun fun n status a p _ => hne n a p]
  · rename_i n a p bits
    constructor
    · simp only [Frame.newCall, hbits, Announces]
      constructor
      · rintro (⟨⟨status, -, hmessage⟩, -⟩ | ⟨-, hempty, hne⟩)
        · exact hmessage.elim (fun hm => absurd hm.1 (by decide)) fun hm =>
            absurd hm.1 (by decide)
        · exact ⟨hempty, hne⟩
      · exact fun hboth => .inr ⟨trivial, hboth⟩
    · intro hempty
      rw [Set.eq_empty_iff_forall_notMem] at hempty ⊢
      rintro m ⟨status, hstatus, hnot⟩
      exact hempty m ⟨status, hstatus, fun happlied => hnot (happlied.snoc hrun _)⟩

theorem count_listeners_le (h : cfg.constructRequest = .ok frame₀)
    (hrun : (frameMachine driver).Runs frame₀ ops frame events) (l : Listener) :
    ∀ call ∈ frame.info, call.listeners.count l ≤ frame.mListeners.count l := by
  induction hrun with
  | init =>
    obtain ⟨-, -, hcalls, -⟩ := constructRequest_spec h
    simp [Store.info, hcalls]
  | @snoc ops frame events op frame' o hrun hstep ih =>
    by_cases hop : ∃ n pAppCallback preemption, op = .applyRelease n pAppCallback preemption
    · obtain ⟨n, pAppCallback, preemption, rfl⟩ := hop
      cases hstep
      obtain ⟨bits, hinfo, -⟩ := announces_spec h hrun n pAppCallback preemption
      have hlisteners : (frame.applyRelease n pAppCallback preemption).mListeners =
          frame.mListeners := rfl
      rw [hinfo, hlisteners]
      intro call hcall
      rcases List.mem_append.mp hcall with hcall | hcall
      · exact ih call hcall
      · rw [List.mem_singleton.mp hcall, Frame.newCall]
        dsimp only
        split <;> simp
    · obtain ⟨hinfo, hlisteners⟩ := info_frameMachine hstep fun n a p heq =>
        hop ⟨n, a, p, heq⟩
      rw [hinfo, hlisteners]
      intro call hcall
      rw [List.count_append]
      rcases List.mem_append.mp hcall with hcall | hcall
      · exact (ih call hcall).trans (Nat.le_add_right _ _)
      · have hnone : call.listeners = [] := by
          cases op <;> simp [Op.preCalls] at hcall
          rw [hcall]
          rfl
        simp [hnone]

end FrameConfig

/-! ### What listeners are told -/

def Call.tells (call : Call) (nodeId : Option NodeId) (message : ℕ) : Bool :=
  call.nodeStatusUpdated.hasBit message &&
    match nodeId with
    | some n => decide (call.userId = n) &&
        (decide (message = eMSG_ALL_OUT_META_BUFFERS_RELEASED) ||
          decide (message = eMSG_ALL_OUT_IMAGE_BUFFERS_RELEASED))
    | none => decide (message = eMSG_FRAME_RELEASED)

theorem Call.count_notify (call : Call) (l l' : Listener) (nodeId : Option NodeId)
    (message : ℕ) : (call.notify l').count (.onPipelineFrame l nodeId message) =
      if l' = l ∧ call.tells nodeId message = true then 1 else 0 := by
  by_cases hl : l' = l
  · subst hl
    by_cases hmeta : message = eMSG_ALL_OUT_META_BUFFERS_RELEASED
    · subst hmeta
      cases nodeId <;> simp [notify, tells, eMSG_ALL_OUT_META_BUFFERS_RELEASED,
        eMSG_ALL_OUT_IMAGE_BUFFERS_RELEASED, eMSG_FRAME_RELEASED] <;> grind
    · by_cases himage : message = eMSG_ALL_OUT_IMAGE_BUFFERS_RELEASED
      · subst himage
        cases nodeId <;> simp [notify, tells, eMSG_ALL_OUT_META_BUFFERS_RELEASED,
          eMSG_ALL_OUT_IMAGE_BUFFERS_RELEASED, eMSG_FRAME_RELEASED] <;> grind
      · cases nodeId <;> simp [notify, tells] <;> grind
  · simp [notify]
    grind

theorem Call.count_flatMap_notify (call : Call) (l : Listener) (nodeId : Option NodeId)
    (message : ℕ) (ls : List Listener) :
    (ls.flatMap call.notify).count (.onPipelineFrame l nodeId message) =
      if call.tells nodeId message = true then ls.count l else 0 := by
  induction ls with
  | nil => simp
  | cons l' ls ih =>
    rw [List.flatMap_cons, List.count_append, ih, count_notify, List.count_cons]
    by_cases htells : call.tells nodeId message = true <;> by_cases hl : l' = l <;>
      simp [htells, hl]
    omega

theorem Call.count_callbacks (call : Call) (snapshot : Snapshot) (gone : List Listener)
    (l : Listener) (nodeId : Option NodeId) (message : ℕ) :
    (call.callbacks snapshot gone).count (.onPipelineFrame l nodeId message) =
      if call.isPreRelease = false ∧ call.tells nodeId message = true then
        (call.listeners.filter (· ∉ gone)).count l
      else 0 := by
  have hupdate : (call.updateFrame snapshot).count (.onPipelineFrame l nodeId message) = 0 := by
    rw [updateFrame]
    split <;> simp
  have hrelease : ((snapshot.aHalImageSet ++ snapshot.aHalMetaSet).map
      Event.releaseBuffer).count (.onPipelineFrame l nodeId message) = 0 := by
    refine List.count_eq_zero.mpr fun hmem => ?_
    obtain ⟨b, -, hb⟩ := List.mem_map.mp hmem
    cases hb
  rw [callbacks, List.count_append, hupdate]
  cases hpre : call.isPreRelease with
  | true => simp
  | false =>
    rw [if_neg Bool.false_ne_true, List.count_append, hrelease]
    split
    · rename_i hempty
      have hnone : call.tells nodeId message = false := by
        simp [tells, BitSet32.hasBit_of_isEmpty hempty]
      simp [hnone]
    · rw [count_flatMap_notify]
      simp

namespace FrameConfig

theorem countP_tells_le (h : cfg.constructRequest = .ok frame₀)
    (hstream : ∃ n status, cfg.StatusOf n status)
    (hrun : (frameMachine driver).Runs frame₀ ops frame events) (nodeId : Option NodeId)
    (message : ℕ) : frame.info.countP (fun call => call.tells nodeId message) ≤ 1 := by
  cases nodeId with
  | none =>
    have hsub : frame.info.countP (fun call => call.tells none message) ≤
        frame.info.countP fun call =>
          call.nodeStatusUpdated.hasBit eMSG_FRAME_RELEASED := by
      refine List.countP_mono_left fun call _ htells => ?_
      simp only [Call.tells, Bool.and_eq_true, decide_eq_true_eq] at htells
      exact htells.2 ▸ htells.1
    refine hsub.trans ?_
    rcases countP_frame h hstream hrun with ⟨-, hcount⟩ | ⟨-, hcount⟩ <;> omega
  | some n =>
    by_cases hmessage : message = eMSG_FRAME_RELEASED
    · subst hmessage
      simp [Call.tells, eMSG_FRAME_RELEASED, eMSG_ALL_OUT_META_BUFFERS_RELEASED,
        eMSG_ALL_OUT_IMAGE_BUFFERS_RELEASED]
    · have hsub : frame.info.countP (fun call => call.tells (some n) message) ≤
          frame.info.countP fun call =>
            decide (call.userId = n) && call.nodeStatusUpdated.hasBit message := by
        refine List.countP_mono_left fun call _ htells => ?_
        simp only [Call.tells, Bool.and_eq_true] at htells
        rw [htells.1, htells.2.1, Bool.and_self]
      refine hsub.trans ?_
      rcases countP_outputs h n hmessage hrun with ⟨-, hcount⟩ | ⟨-, hcount⟩ <;> omega

/-- **A listener is told each message at most once.** -/
theorem count_events_le (h : cfg.constructRequest = .ok frame₀)
    (hstream : ∃ n status, cfg.StatusOf n status)
    (hrun : (frameMachine driver).Runs frame₀ ops frame events) {l : Listener}
    (hl : frame.mListeners.count l ≤ 1) (nodeId : Option NodeId) (message : ℕ) :
    events.count (.onPipelineFrame l nodeId message) ≤ 1 := by
  have hcount := fun es : List Event =>
    count_eq_sum_map_ite es (.onPipelineFrame l nodeId message)
  have hdelivered := delivered_le
    (μ := fun e => if e = .onPipelineFrame l nodeId message then 1 else 0)
    (W := fun call => if call.tells nodeId message = true then call.listeners.count l else 0)
    h (fun e he => if_neg fun heq => by
      rw [heq] at he
      cases he) (fun _ => rfl) (fun call snapshot gone _ => ?_) hrun
  · rw [hcount]
    refine hdelivered.trans (le_trans ?_ (countP_tells_le h hstream hrun nodeId message))
    -- no call has the listener twice
    have hcountP := sum_map_ite_eq_countP frame.info
      fun call => call.tells nodeId message = true
    simp only [Bool.decide_eq_true] at hcountP
    rw [← hcountP, Store.info, List.map_map, Store.delivered]
    refine List.sum_le_sum fun call hcall => ?_
    have hlisteners : call.listeners.count l ≤ frame.mListeners.count l :=
      count_listeners_le h hrun l call.info (List.mem_map_of_mem hcall)
    have htells : call.info.tells nodeId message = call.tells nodeId message := rfl
    simp only [Function.comp_apply, htells]
    split
    · split
      · omega
      · exact le_rfl
    · exact Nat.zero_le _
  · rw [← hcount, call.count_callbacks]
    by_cases htells : call.tells nodeId message = true
    · rw [if_pos htells]
      split
      · exact List.Sublist.count_le l List.filter_sublist
      · exact Nat.zero_le _
    · rw [if_neg htells, if_neg fun hboth => htells hboth.2]

/-- What a listener is told by an `applyRelease` of the node `n`: the outputs of the node
that are now all applied, and the frame if it is now released. -/
def Tells (cfg : FrameConfig) (driver : SyncDriver) (frame₀ : Frame) (ops : List Op)
    (op : Op) (n : NodeId) (nodeId : Option NodeId) (message : ℕ) : Prop :=
  nodeId = some n ∧ cfg.OutputsApplied driver frame₀ (ops ++ [op]) n message ∧
      ¬ cfg.OutputsApplied driver frame₀ ops n message ∨
    nodeId = none ∧ message = eMSG_FRAME_RELEASED ∧
      cfg.inFlight driver frame₀ (ops ++ [op]) = ∅ ∧ cfg.inFlight driver frame₀ ops ≠ ∅

theorem OutputsApplied.message {message : ℕ}
    (happlied : cfg.OutputsApplied driver frame₀ ops n message) :
    message = eMSG_ALL_OUT_META_BUFFERS_RELEASED ∨
      message = eMSG_ALL_OUT_IMAGE_BUFFERS_RELEASED := by
  obtain ⟨status, -, hmessage⟩ := happlied
  exact hmessage.imp And.left And.left

/-- The messages of the call that an `applyRelease` makes. -/
theorem mem_callbacks_iff {bits : BitSet32} (hbits : ∀ message, bits.hasBit message = true ↔
      cfg.Announces driver frame₀ ops (.applyRelease n pAppCallback preemption) n message)
    (snapshot : Snapshot) (gone : List Listener) (l : Listener) (nodeId : Option NodeId)
    (message : ℕ) :
    Event.onPipelineFrame l nodeId message ∈
        (frame.newCall n pAppCallback bits).callbacks snapshot gone ↔
      l ∈ frame.mListeners ∧ l ∉ gone ∧ cfg.Tells driver frame₀ ops
        (.applyRelease n pAppCallback preemption) n nodeId message := by
  have htells : (frame.newCall n pAppCallback bits).tells nodeId message = true ↔
      cfg.Tells driver frame₀ ops (.applyRelease n pAppCallback preemption) n nodeId
        message := by
    simp only [Call.tells, Bool.and_eq_true, Frame.newCall, hbits, Announces, Tells]
    cases nodeId with
    | none =>
      rw [decide_eq_true_eq]
      constructor
      · rintro ⟨⟨happlied, -⟩ | hframe, hmessage⟩
        · rcases happlied.message with hm | hm <;>
            simp [hm, eMSG_FRAME_RELEASED, eMSG_ALL_OUT_META_BUFFERS_RELEASED,
              eMSG_ALL_OUT_IMAGE_BUFFERS_RELEASED] at hmessage
        · exact .inr ⟨rfl, hframe⟩
      · rintro (⟨hfalse, -⟩ | ⟨-, hframe⟩)
        · cases hfalse
        · exact ⟨.inr hframe, hframe.1⟩
    | some m =>
      simp only [Bool.and_eq_true, Bool.or_eq_true, decide_eq_true_eq]
      constructor
      · rintro ⟨hnew | ⟨hframe, -⟩, huser, hmessage⟩
        · exact .inl ⟨by rw [of_decide_eq_true huser], hnew⟩
        · rcases hmessage with hm | hm <;>
            simp [hm, eMSG_FRAME_RELEASED, eMSG_ALL_OUT_META_BUFFERS_RELEASED,
              eMSG_ALL_OUT_IMAGE_BUFFERS_RELEASED] at hframe
      · rintro (⟨hm, hnew⟩ | ⟨hfalse, -⟩)
        · exact ⟨.inl hnew, decide_eq_true (Option.some_inj.mp hm).symm, hnew.1.message⟩
        · cases hfalse
  rw [← List.count_pos_iff, Call.count_callbacks, ← htells]
  by_cases htold : (frame.newCall n pAppCallback bits).tells nodeId message = true
  · have hlisteners : (frame.newCall n pAppCallback bits).listeners = frame.mListeners := by
      have hbit : bits.hasBit message = true := by
        simp only [Call.tells, Bool.and_eq_true] at htold
        exact htold.1
      have hne : bits.isEmpty = false := by
        rw [← Bool.not_eq_true]
        intro hempty
        simp [BitSet32.hasBit_of_isEmpty hempty] at hbit
      simp [Frame.newCall, hne]
    rw [if_pos ⟨rfl, htold⟩, hlisteners, List.count_pos_iff, List.mem_filter, decide_eq_true_eq]
    simp [htold]
  · rw [if_neg fun hboth => htold hboth.2]
    simp [htold]

/-- **Frame completion.** In every reachable state of a configured frame with a stream, the
count of nodes in flight is the number of nodes with a stream that they have not applied the
release of; an `applyRelease` makes one call, which tells the listeners that a node has
applied its outputs, or that the frame is released, exactly when this has just become true;
each of these messages is one call's from then on, and no listener is told it twice. -/
theorem frame_completion (h : cfg.constructRequest = .ok frame₀)
    (hstream : ∃ n status, cfg.StatusOf n status)
    (hrun : (frameMachine driver).Runs frame₀ ops frame events) :
    (frame.mNodeStatusMap.mInFlightNodeCount : ℤ) =
        (cfg.inFlight driver frame₀ ops).ncard ∧
      (∀ n pAppCallback preemption, ∃ call,
        (frame.applyRelease n pAppCallback preemption).info = frame.info ++ [call] ∧
        ∀ snapshot gone l nodeId message,
          Event.onPipelineFrame l nodeId message ∈ call.callbacks snapshot gone ↔
            l ∈ frame.mListeners ∧ l ∉ gone ∧ cfg.Tells driver frame₀ ops
              (.applyRelease n pAppCallback preemption) n nodeId message) ∧
      (∀ n message, cfg.OutputsApplied driver frame₀ ops n message →
        frame.info.countP (fun call => call.tells (some n) message) = 1) ∧
      (cfg.inFlight driver frame₀ ops = ∅ →
        frame.info.countP (fun call => call.tells none eMSG_FRAME_RELEASED) = 1) ∧
      ∀ l, frame.mListeners.count l ≤ 1 → ∀ nodeId message,
        events.count (.onPipelineFrame l nodeId message) ≤ 1 := by
  refine ⟨mInFlightNodeCount_eq h hrun, fun n a p => ?_, fun n message happlied => ?_,
    fun hempty => ?_, fun l hl => count_events_le h hstream hrun hl⟩
  · obtain ⟨bits, hinfo, hbits⟩ := announces_spec h hrun n a p
    exact ⟨frame.newCall n a bits, hinfo, mem_callbacks_iff hbits⟩
  · have htells : (fun call : Call => call.tells (some n) message) = fun call =>
        decide (call.userId = n) && call.nodeStatusUpdated.hasBit message := by
      funext call
      rcases happlied.message with hm | hm <;> simp [Call.tells, hm, Bool.and_comm]
    have hmessage : message ≠ eMSG_FRAME_RELEASED := by
      rcases happlied.message with hm | hm <;> rw [hm] <;> decide
    rw [htells]
    rcases countP_outputs h n hmessage hrun with ⟨-, hcount⟩ | ⟨hnot, -⟩
    · exact hcount
    · exact absurd happlied hnot
  · have htells : (fun call : Call => call.tells none eMSG_FRAME_RELEASED) = fun call =>
        call.nodeStatusUpdated.hasBit eMSG_FRAME_RELEASED := by
      funext call
      simp [Call.tells]
    rw [htells]
    rcases countP_frame h hstream hrun with ⟨-, hcount⟩ | ⟨hnot, -⟩
    · exact hcount
    · exact absurd hempty hnot

/-- The single node of a frame applies its only release: the frame is completed. -/
theorem frame_completion_singleProducer : ∃ frame₀ frame,
    singleProducer.constructRequest = .ok frame₀ ∧
      (frameMachine .inert).Runs frame₀
        [.attachListener 7, .markUserStatus 10 1 UserStatus.release, .applyRelease 1 true [],
          .takeSnapshot 0, .callback 0 []] frame
        [.userStatus 8, .updateFrame 1 ⟨0, [⟨(.appMeta, 10), 100⟩], 0, [], false⟩,
          .onPipelineFrame 7 (some 1) eMSG_ALL_OUT_META_BUFFERS_RELEASED,
          .onPipelineFrame 7 (some 1) eMSG_ALL_OUT_IMAGE_BUFFERS_RELEASED,
          .onPipelineFrame 7 none eMSG_FRAME_RELEASED] ∧
      frame.mNodeStatusMap.mInFlightNodeCount = 0 ∧
      (singleProducer.inFlight .inert frame₀
        [.attachListener 7, .markUserStatus 10 1 UserStatus.release, .applyRelease 1 true [],
          .takeSnapshot 0, .callback 0 []]).ncard = 0 := by
  have hobserve : singleProducer.observe .inert
      [.attachListener 7, .markUserStatus 10 1 UserStatus.release, .applyRelease 1 true [],
        .takeSnapshot 0, .callback 0 []] (fun frame => frame.mNodeStatusMap.mInFlightNodeCount) =
      some ([.userStatus 8, .updateFrame 1 ⟨0, [⟨(.appMeta, 10), 100⟩], 0, [], false⟩,
        .onPipelineFrame 7 (some 1) eMSG_ALL_OUT_META_BUFFERS_RELEASED,
        .onPipelineFrame 7 (some 1) eMSG_ALL_OUT_IMAGE_BUFFERS_RELEASED,
        .onPipelineFrame 7 none eMSG_FRAME_RELEASED], 0) := by decide
  obtain ⟨frame₀, frame, hcfg, hrun, hcount⟩ := exists_run_of_observe hobserve
  have hstatus : singleProducer.nodeStatus 1 =
      some ⟨⟨[], false⟩, ⟨[], false⟩, ⟨[], false⟩, ⟨[(.appMeta, 10)], false⟩⟩ := by
    decide
  have hcompletion := frame_completion hcfg ⟨1, _, hstatus, by decide⟩ hrun
  exact ⟨frame₀, frame, hcfg, hrun, hcount, by
    have hncard := hcompletion.1
    rw [hcount] at hncard
    exact_mod_cast hncard.symm⟩

def noStream : FrameConfig where
  nodeMap := KeyedVector.empty.add 1 ⟨[], [], [], []⟩
  toposort := [1]
  mem_toposort n := by simp [KeyedVector.mem_keys_add]
  edges := []
  queryMinimalUsage _ _ := 0
  buffers _ := []

/-- Without a stream, nothing is told: the only node of the frame has applied the release of
all its streams, and no listener is told that the frame is released. -/
theorem noStream_not_completed : ∃ frame₀ frame,
    noStream.constructRequest = .ok frame₀ ∧
      (frameMachine .inert).Runs frame₀
        [.attachListener 7, .applyRelease 1 true [], .takeSnapshot 0, .callback 0 []] frame
        [.updateFrame 1 ⟨0, [], 0, [], false⟩] ∧
      ∀ n status, noStream.nodeStatus n = some status →
        HasApplied .inert frame₀
          [.attachListener 7, .applyRelease 1 true [], .takeSnapshot 0, .callback 0 []] n
          status.items := by
  have hobserve : noStream.observe .inert
      [.attachListener 7, .applyRelease 1 true [], .takeSnapshot 0, .callback 0 []]
      (fun _ => ()) = some ([.updateFrame 1 ⟨0, [], 0, [], false⟩], ()) := by decide
  obtain ⟨frame₀, frame, hcfg, hrun, -⟩ := exists_run_of_observe hobserve
  refine ⟨frame₀, frame, hcfg, hrun, fun n status hstatus => ?_⟩
  obtain ⟨node, hnode, ⟨h₁, h₂, h₃, h₄⟩, -⟩ := nodeStatus_spec hstatus
  have hnode' : n = 1 ∧ node = ⟨[], [], [], []⟩ := by
    rw [noStream, KeyedVector.find?_add] at hnode
    split at hnode
    · exact ⟨‹_›, (Option.some_inj.mp hnode).symm⟩
    · cases hnode
  obtain ⟨rfl, rfl⟩ := hnode'
  have hitems : status.items = [] := by
    simp only [List.map_nil, List.nil_eq, List.map_eq_nil_iff] at h₁ h₂ h₃ h₄
    simp [NodeStatus.items, h₁, h₂, h₃, h₄]
  rw [hitems]
  exact ⟨[.attachListener 7], .applyRelease 1 true [], [.takeSnapshot 0, .callback 0 []],
    { frame₀ with mListeners := frame₀.mListeners ++ [7] }, [], rfl, .single rfl,
    ⟨true, [], rfl⟩, by simp⟩

end FrameConfig

end MtkHardware.Pipeline
