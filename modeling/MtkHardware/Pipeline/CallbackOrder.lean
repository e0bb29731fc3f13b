import MtkHardware.Pipeline.BufferAccess

/-!
# The Order of Callbacks

A call takes its snapshot of the collector under the collector's lock, but calls the
application back with no lock held. The callback that says that no output metadata is left
can therefore overtake a callback that still carries some. It does not when the calls deliver
in order.
-/

namespace MtkHardware.Pipeline

variable {cfg : FrameConfig} {is : List ItemId} {st st' : Store}
  {frame₀ frame frame' : Frame} {driver : SyncDriver} {i : ItemId} {ops : List Op} {op : Op}
  {events o : List Event}

/-! ### Callbacks to the application -/

/-- Is it a callback that says that no application metadata is left? -/
def Event.isLast : Event → Bool
  | .updateFrame _ result => decide (result.nAppOutMetaLeft = 0)
  | _ => false

def Event.appOutMeta : Event → List StreamBuffer
  | .updateFrame _ result => result.vAppOutMeta
  | _ => []

def Call.Delivers (call : Call) (snapshot : Snapshot) : Prop :=
  call.snapshot = some snapshot ∧ call.returned = false ∧ call.pAppCallback = true

/-- The callbacks are made **in order**: no call says that nothing is left while another call
has metadata to deliver. -/
def InOrder (_ : List Event) (frame : Frame) (op : Op) : Prop :=
  ∀ c gone call snapshot, op = .callback c gone → frame.calls[c]? = some call →
    call.Delivers snapshot → snapshot.aAppMetaNumO = 0 →
    ∀ c' call' snapshot', c' ≠ c → frame.calls[c']? = some call' →
      call'.Delivers snapshot' → snapshot'.aAppMetaSetO = []

theorem Call.eq_updateFrame {call : Call} {snapshot : Snapshot} {gone : List Listener}
    {e : Event} (he : e ∈ call.callbacks snapshot gone)
    (hshows : e.isLast = true ∨ e.appOutMeta ≠ []) :
    call.pAppCallback = true ∧ e = .updateFrame call.userId ⟨snapshot.aAppMetaNumO,
      snapshot.aAppMetaSetO, snapshot.aHalMetaNumO, snapshot.aHalMetaSetO, false⟩ := by
  rw [callbacks] at he
  rcases List.mem_append.mp he with he | he
  · rw [updateFrame] at he
    split at he
    · exact ⟨‹_›, List.mem_singleton.mp he⟩
    · simp at he
  · exfalso
    split at he
    · simp at he
    · rcases List.mem_append.mp he with he | he
      · obtain ⟨b, -, rfl⟩ := List.mem_map.mp he
        simp [Event.isLast, Event.appOutMeta] at hshows
      · split at he
        · simp at he
        · obtain ⟨l, -, he⟩ := List.mem_flatMap.mp he
          simp only [notify, List.mem_append] at he
          rcases he with (he | he) | he <;> split at he <;> simp at he <;> subst he <;>
            simp [Event.isLast, Event.appOutMeta] at hshows

theorem Call.pairwise_callbacks (call : Call) (snapshot : Snapshot) (gone : List Listener) :
    (call.callbacks snapshot gone).Pairwise fun e e' => e.isLast = true → e'.appOutMeta = [] := by
  rw [callbacks]
  refine List.pairwise_append.mpr ⟨?_, ?_, ?_⟩
  · rw [updateFrame]
    split <;> simp
  · refine List.pairwise_iff_forall_sublist.mpr fun {e e'} hsub _ => ?_
    exact rest_appOutMeta (hsub.subset (by simp))
  · exact fun e _ e' he' _ => rest_appOutMeta he'
where
  rest_appOutMeta {e : Event} (he : e ∈ (if call.isPreRelease then [] else
      (snapshot.aHalImageSet ++ snapshot.aHalMetaSet).map Event.releaseBuffer ++
      if call.nodeStatusUpdated.isEmpty then []
      else (call.listeners.filter (· ∉ gone)).flatMap call.notify)) : e.appOutMeta = [] := by
    split at he
    · simp at he
    · rcases List.mem_append.mp he with he | he
      · obtain ⟨b, -, rfl⟩ := List.mem_map.mp he
        rfl
      · split at he
        · simp at he
        · obtain ⟨l, -, he⟩ := List.mem_flatMap.mp he
          simp only [notify, List.mem_append] at he
          rcases he with (he | he) | he <;> split at he <;> simp at he <;> subst he <;> rfl

/-! ### No metadata left -/

/-- No application metadata is in flight, and none is collected. -/
def ReleasedCollector.AppDone (c : ReleasedCollector) : Prop :=
  c.mAppMetaNumO_ProducersInFlight = 0 ∧ c.mAppMetaSetO_ProducersReleased = []

/-- Once done, the collector stays so: no producer of application metadata is left that could
release. -/
theorem Store.Step.appDone (hstep : Store.Step cfg is st st') (hst : StoreInvariant cfg st)
    (hdone : st.mpReleasedCollector.AppDone) : st'.mpReleasedCollector.AppDone := by
  cases hstep with
  | takeSnapshot c =>
    unfold Store.takeSnapshot
    split
    · exact hdone
    · split
      · exact hdone
      · exact ⟨hdone.1, rfl⟩
  | producersReleased i _ hitem _ =>
    rw [Store.collector_handleProducersReleased]
    split
    · rename_i hbit
      obtain ⟨kind, s⟩ := i
      cases kind with
      | appImage | halImage => exact hdone
      | halMeta =>
        rw [ReleasedCollector.onProducersReleased]
        split <;> exact hdone
      | appMeta =>
        have hnum := hst.ledger.num .appMeta rfl
        rw [ReleasedCollector.metaNum, hdone.1, eq_comm, Int.natCast_eq_zero,
          List.countP_eq_zero] at hnum
        have hnot := hnum s ((cfg.mem_keys_iff _ _).mpr hitem)
        rw [Store.inFlight, hbit, Bool.not_false, Bool.and_true,
          FrameConfig.hasProducer, decide_eq_true_eq,
          ← hst.users.getNumberOfProducers] at hnot
        rw [ReleasedCollector.onProducersReleased, if_neg hnot]
        exact hdone
    · exact hdone
  | allUsersReleased i _ _ _ =>
    rw [Store.collector_handleAllUsersReleased]
    split
    · obtain ⟨kind, s⟩ := i
      cases kind <;> exact hdone
    · exact hdone
  | editUsers => exact hdone
  | acquire => exact hdone
  | call => exact hdone
  | returned => exact hdone

/-- A snapshot that says that nothing is left was taken when the collector was done. -/
def Store.LastSnapshotsDone (st : Store) : Prop :=
  ∀ call ∈ st.calls, ∀ snapshot, call.snapshot = some snapshot →
    snapshot.aAppMetaNumO = 0 → st.mpReleasedCollector.AppDone

def Store.AppDelivered (st : Store) : Prop :=
  st.mpReleasedCollector.AppDone ∧
    ∀ call ∈ st.calls, ∀ snapshot, call.Delivers snapshot → snapshot.aAppMetaSetO = []

theorem Store.Step.lastSnapshotsDone (hstep : Store.Step cfg is st st')
    (hst : StoreInvariant cfg st) (h : st.LastSnapshotsDone) : st'.LastSnapshotsDone := by
  have hcollector := hstep.appDone hst
  intro call hcall snapshot hsnapshot hzero
  cases hstep with
  | takeSnapshot c =>
    revert hcollector hcall
    unfold Store.takeSnapshot
    split
    · exact fun _ hcall => h call hcall snapshot hsnapshot hzero
    · split
      · exact fun _ hcall => h call hcall snapshot hsnapshot hzero
      · intro hcollector hcall
        rcases List.mem_or_eq_of_mem_set hcall with hcall | rfl
        · exact hcollector (h call hcall snapshot hsnapshot hzero)
        · obtain rfl := Option.some_inj.mp hsnapshot
          exact ⟨hzero, rfl⟩
  | producersReleased =>
    exact hcollector (h call (by simpa using hcall) snapshot hsnapshot hzero)
  | allUsersReleased =>
    exact hcollector (h call (by simpa using hcall) snapshot hsnapshot hzero)
  | editUsers => exact h call hcall snapshot hsnapshot hzero
  | acquire => exact h call hcall snapshot hsnapshot hzero
  | call call' hnone =>
    rcases List.mem_append.mp hcall with hcall | hcall
    · exact h call hcall snapshot hsnapshot hzero
    · rw [List.mem_singleton.mp hcall, hnone] at hsnapshot
      cases hsnapshot
  | returned c call' hget =>
    rcases List.mem_or_eq_of_mem_set hcall with hcall | rfl
    · exact h call hcall snapshot hsnapshot hzero
    · exact h call' (List.mem_of_getElem? hget) snapshot hsnapshot hzero

theorem Store.Step.appDelivered (hstep : Store.Step cfg is st st')
    (hst : StoreInvariant cfg st) (h : st.AppDelivered) : st'.AppDelivered := by
  refine ⟨hstep.appDone hst h.1, fun call hcall snapshot hdelivers => ?_⟩
  cases hstep with
  | takeSnapshot c =>
    revert hcall
    unfold Store.takeSnapshot
    split
    · exact fun hcall => h.2 call hcall snapshot hdelivers
    · split
      · exact fun hcall => h.2 call hcall snapshot hdelivers
      · intro hcall
        rcases List.mem_or_eq_of_mem_set hcall with hcall | rfl
        · exact h.2 call hcall snapshot hdelivers
        · obtain rfl := Option.some_inj.mp hdelivers.1
          exact h.1.2
  | producersReleased => exact h.2 call (by simpa using hcall) snapshot hdelivers
  | allUsersReleased => exact h.2 call (by simpa using hcall) snapshot hdelivers
  | editUsers => exact h.2 call hcall snapshot hdelivers
  | acquire => exact h.2 call hcall snapshot hdelivers
  | call call' hnone =>
    rcases List.mem_append.mp hcall with hcall | hcall
    · exact h.2 call hcall snapshot hdelivers
    · have hsnapshot := hdelivers.1
      rw [List.mem_singleton.mp hcall, hnone] at hsnapshot
      cases hsnapshot
  | returned c call' hget =>
    rcases List.mem_or_eq_of_mem_set hcall with hcall | rfl
    · exact h.2 call hcall snapshot hdelivers
    · cases hdelivers.2.1

namespace Store.Steps

theorem lastSnapshotsDone (h : Store.Steps cfg is st st') (hst : StoreInvariant cfg st)
    (hlast : st.LastSnapshotsDone) : st'.LastSnapshotsDone := by
  induction h with
  | refl => exact hlast
  | tail hrest hstep ih => exact hstep.lastSnapshotsDone (storeInvariant hrest hst) ih

theorem appDelivered (h : Store.Steps cfg is st st') (hst : StoreInvariant cfg st)
    (hdelivered : st.AppDelivered) : st'.AppDelivered := by
  induction h with
  | refl => exact hdelivered
  | tail hrest hstep ih => exact hstep.appDelivered (storeInvariant hrest hst) ih

end Store.Steps

/-! ### Runs in order -/

/-- What is true of a run in order: after a last partial, nothing is delivered, and nothing is
left to deliver. -/
structure OrderInvariant (cfg : FrameConfig) (frame : Frame) (events : List Event) : Prop where
  invariant : FrameInvariant cfg frame
  last : frame.LastSnapshotsDone
  pairwise : events.Pairwise fun e e' => e.isLast = true → e'.appOutMeta = []
  delivered : ∀ e ∈ events, e.isLast = true → frame.AppDelivered

theorem OrderInvariant.callback (hinv : OrderInvariant cfg frame events)
    {c : ℕ} {gone : List Listener} {call : Call} {snapshot : Snapshot}
    (hcall : frame.calls[c]? = some call) (hsnapshot : call.snapshot = some snapshot)
    (hreturned : call.returned = false)
    (horder : call.Delivers snapshot → snapshot.aAppMetaNumO = 0 →
      ∀ c' call' snapshot', c' ≠ c → frame.calls[c']? = some call' →
        call'.Delivers snapshot' → snapshot'.aAppMetaSetO = [])
    (hinv' : FrameInvariant cfg { frame with toStore := { frame.toStore with
      calls := frame.calls.set c { call with returned := true } } }) :
    OrderInvariant cfg { frame with toStore := { frame.toStore with
      calls := frame.calls.set c { call with returned := true } } }
      (events ++ call.callbacks snapshot gone) := by
  have hstep : Store.Step cfg [] frame.toStore { frame.toStore with
      calls := frame.calls.set c { call with returned := true } } :=
    .returned c call hcall (by rw [hsnapshot]; rfl)
  refine ⟨hinv', hstep.lastSnapshotsDone hinv.invariant.store hinv.last, ?_, ?_⟩
  · refine List.pairwise_append.mpr ⟨hinv.pairwise, call.pairwise_callbacks snapshot gone,
      fun e he e' he' hlast => ?_⟩
    by_contra hne
    obtain ⟨halive, rfl⟩ := Call.eq_updateFrame he' (.inr hne)
    exact hne ((hinv.delivered e he hlast).2 call (List.mem_of_getElem? hcall) snapshot
      ⟨hsnapshot, hreturned, halive⟩)
  · intro e he hlast
    rcases List.mem_append.mp he with he | he
    · exact hstep.appDelivered hinv.invariant.store (hinv.delivered e he hlast)
    · -- this is the last partial: the other calls have nothing to deliver
      obtain ⟨halive, rfl⟩ := Call.eq_updateFrame he (.inl hlast)
      have hzero : snapshot.aAppMetaNumO = 0 := by simpa [Event.isLast] using hlast
      refine ⟨hinv.last call (List.mem_of_getElem? hcall) snapshot hsnapshot hzero,
        fun call' hcall' snapshot' hdelivers => ?_⟩
      obtain ⟨c', hget⟩ := List.mem_iff_getElem?.mp hcall'
      by_cases hc : c' = c
      · subst hc
        obtain ⟨hlt, -⟩ := List.getElem?_eq_some_iff.mp hcall
        rw [List.getElem?_set_self hlt, Option.some_inj] at hget
        subst hget
        cases hdelivers.2.1
      · rw [List.getElem?_set_ne (Ne.symm hc)] at hget
        exact horder ⟨hsnapshot, hreturned, halive⟩ hzero c' call' snapshot' hc hget hdelivers

theorem OrderInvariant.step (hinv : OrderInvariant cfg frame events)
    (horder : InOrder events frame op) (h : frameMachine driver frame op = .ok (frame', o)) :
    OrderInvariant cfg frame' (events ++ o) := by
  have hinv' := hinv.invariant.step h
  have hsteps := steps_frameMachine hinv.invariant h
  by_cases hop : ∃ c gone, op = .callback c gone
  · obtain ⟨c, gone, rfl⟩ := hop
    rw [frameMachine, Except.ok.injEq, Frame.callback] at h
    split at h
    · cases h
      simpa using hinv
    · rename_i call hcall
      split at h
      · cases h
        simpa using hinv
      · rename_i snapshot hsnapshot
        split at h
        · cases h
          simpa using hinv
        · rename_i hreturned
          cases h
          exact hinv.callback hcall hsnapshot (by simpa using hreturned)
            (horder c gone call snapshot rfl hcall) hinv'
  · have hnone := isCallback_frameMachine h fun c gone heq => hop ⟨c, gone, heq⟩
    have hquiet : ∀ e ∈ o, e.isLast = false ∧ e.appOutMeta = [] := fun e he => by
      have hno := hnone e he
      cases e <;> first | exact ⟨rfl, rfl⟩ | cases hno
    refine ⟨hinv', hsteps.lastSnapshotsDone hinv.invariant.store hinv.last, ?_, ?_⟩
    · refine List.pairwise_append.mpr ⟨hinv.pairwise, ?_, fun e _ e' he' _ => (hquiet e' he').2⟩
      exact List.pairwise_iff_forall_sublist.mpr fun {e e'} hsub _ =>
        (hquiet e' (hsub.subset (by simp))).2
    · intro e he hlast
      rcases List.mem_append.mp he with he | he
      · exact hsteps.appDelivered hinv.invariant.store (hinv.delivered e he hlast)
      · simp [(hquiet e he).1] at hlast

namespace FrameConfig

theorem inOrder_of_ne (hop : ∀ c gone, op ≠ .callback c gone) : InOrder events frame op :=
  fun c gone _ _ heq => absurd heq (hop c gone)

theorem inOrder_of_length (hlength : frame.calls.length = 1) : InOrder events frame op := by
  intro c gone call snapshot _ hcall _ _ c' call' snapshot' hc hcall' _
  have hlt := (List.getElem?_eq_some_iff.mp hcall).1
  have hlt' := (List.getElem?_eq_some_iff.mp hcall').1
  omega

/-- A frame with two nodes that output one application metadata stream each. -/
def twoProducers : FrameConfig where
  nodeMap := (KeyedVector.empty.add 1 ⟨[], [], [], [10]⟩).add 2 ⟨[], [], [], [11]⟩
  toposort := [1, 2]
  mem_toposort n := by simp [KeyedVector.mem_keys_add, or_comm]
  edges := []
  queryMinimalUsage _ _ := 0
  buffers
    | .appMeta => [(10, some 100), (11, some 101)]
    | _ => []

end FrameConfig

end MtkHardware.Pipeline
