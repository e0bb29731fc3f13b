import MtkHardware.Pipeline.FrameLedger

/-!
# Runs of a Frame

Every operation on a frame is a sequence of primitive steps of its store, so every reachable
state of a configured frame has the invariants of the primitive steps.
-/

namespace MtkHardware.Pipeline

open Relation

variable {cfg : FrameConfig} {is : List ItemId} {st st' : Store} {frame frame' : Frame}
  {i j : ItemId} {driver : SyncDriver} {n u : NodeId} {s : StreamId}

structure StoreInvariant (cfg : FrameConfig) (st : Store) : Prop where
  users : UsersInvariant cfg st
  map : MapInvariant cfg st
  buffer : BufferInvariant cfg st
  ledger : LedgerInvariant cfg st

abbrev Store.Steps (cfg : FrameConfig) (is : List ItemId) : Store → Store → Prop :=
  ReflTransGen (Store.Step cfg is)

namespace Store.Steps

theorem storeInvariant (h : Store.Steps cfg is st st') (hst : StoreInvariant cfg st) :
    StoreInvariant cfg st' := by
  induction h with
  | refl => exact hst
  | tail _ hstep ih =>
    exact ⟨hstep.usersInvariant ih.users, hstep.mapInvariant ih.map,
      hstep.bufferInvariant ih.buffer,
      hstep.ledgerInvariant ih.ledger ih.users ih.map ih.buffer⟩

theorem released (h : Store.Steps cfg is st st') (hst : StoreInvariant cfg st)
    (hrel : st.Released i u) : st'.Released i u := by
  induction h with
  | refl => exact hrel
  | @tail st₁ st₂ hrest hstep ih =>
    have hinv := storeInvariant hrest hst
    rw [Store.Released] at ih ⊢
    cases hstep with
    | takeSnapshot c => simpa using ih
    | producersReleased => simpa using ih
    | allUsersReleased => simpa using ih
    | editUsers j f hf =>
      rw [Store.users_editUsers]
      split
      · exact hf.released _ (hinv.users.coherent i) u ih
      · exact ih
    | acquire => simpa using ih
    | call => exact ih
    | returned => exact ih

theorem hasBit_mono (h : Store.Steps cfg is st st') {b : ℕ} (hb : st.hasBit i b = true) :
    st'.hasBit i b = true := by
  induction h with
  | refl => exact hb
  | tail _ hstep ih =>
    cases hstep with
    | takeSnapshot c => simpa using ih
    | producersReleased j => rw [Store.hasBit_handleProducersReleased, ih, Bool.true_or]
    | allUsersReleased j => rw [Store.hasBit_handleAllUsersReleased, ih, Bool.true_or]
    | editUsers => simpa using ih
    | acquire => rw [Store.hasBit_acquireItem, ih, Bool.true_or]
    | call => exact ih
    | returned => exact ih

theorem hasBit_of_notMem (h : Store.Steps cfg is st st') (hi : i ∉ is) {b : ℕ}
    (hb : b = eBUF_STATUS_RELEASE ∨ b = eBUF_STATUS_PRODUCERS_RELEASE) :
    st'.hasBit i b = st.hasBit i b := by
  induction h with
  | refl => rfl
  | tail _ hstep ih =>
    rw [← ih]
    cases hstep with
    | takeSnapshot c => simp
    | producersReleased j hj =>
      rw [Store.hasBit_handleProducersReleased]
      simp [ne_of_mem_of_not_mem hj hi |>.symm]
    | allUsersReleased j hj =>
      rw [Store.hasBit_handleAllUsersReleased]
      simp [ne_of_mem_of_not_mem hj hi |>.symm]
    | editUsers => simp
    | acquire j acquired => exact Store.hasBit_acquireItem_of_release _ j i acquired hb
    | call => rfl
    | returned => rfl

end Store.Steps

theorem Updated.steps (h : Updated n is st st')
    (his : ∀ i ∈ is, cfg.HasItem i) : Store.Steps cfg is st st' :=
  h.invariant (Store.Steps cfg is st)
    ⟨fun _ c hs => hs.tail (.takeSnapshot c),
      fun _ i hi hs hok => hs.tail (.producersReleased i hi (his i hi) hok),
      fun _ i hi hs _ hok => hs.tail (.allUsersReleased i hi (his i hi) hok)⟩ .refl

/-! ### Buffers -/

namespace Store

/-- Asking for a buffer takes primitive steps, and a buffer that is found is the one of an
item that is still in its map. -/
theorem getBufferLockedImp_spec {kind : MapKind} {provider : Provider}
    {b : Option StreamBuffer} (hst : StoreInvariant cfg st)
    (h : st.getBufferLockedImp s u kind provider = .ok (st', b)) :
    Steps cfg [] st st' ∧ ∀ b', b = some b' → b'.item = (kind, s) ∧
      st'.hasBit (kind, s) eBUF_STATUS_RELEASE = false := by
  have hmark : ∀ st : Store, Step cfg [] st (st.markItem (kind, s) u UserStatus.release) :=
    fun st => .editUsers (kind, s) _ (.markUserStatus u UserStatus.release)
  rw [getBufferLockedImp] at h
  split at h
  · obtain ⟨rfl, rfl⟩ : st = st' ∧ none = b := by simpa using h
    exact ⟨.refl, by simp⟩
  · split at h
    · obtain ⟨rfl, rfl⟩ : st = st' ∧ none = b := by simpa using h
      exact ⟨.refl, by simp⟩
    · obtain ⟨rfl, rfl⟩ : st = st' ∧ none = b := by simpa using h
      exact ⟨.refl, by simp⟩
    · rename_i i hfind
      -- the item is the one of the stream, and it has not been released
      obtain ⟨hrel, rfl⟩ : st.hasBit (kind, s) eBUF_STATUS_RELEASE = false ∧ i = (kind, s) := by
        rw [hst.map.entry] at hfind
        cases hbit : st.hasBit (kind, s) eBUF_STATUS_RELEASE with
        | true => simp [hbit] at hfind
        | false =>
          simp only [hbit, Bool.false_eq_true, if_false, Option.ite_none_right_eq_some,
            Option.some_inj] at hfind
          exact ⟨rfl, hfind.2.symm⟩
      dsimp only at h
      split at h
      · rw [Except.ok.injEq, Prod.mk.injEq] at h
        obtain ⟨rfl, rfl⟩ := h
        exact ⟨.refl, fun b' hb' => ⟨hst.buffer.tagged _ _ hb', hrel⟩⟩
      · rename_i hacquired
        rw [Bool.not_eq_true] at hacquired
        split at h
        · obtain ⟨rfl, rfl⟩ : st.markItem (kind, s) u UserStatus.release = st' ∧ none = b := by
            simpa using h
          exact ⟨.single (hmark st), by simp⟩
        · split at h
          · cases h
          · rename_i hnone
            rw [Bool.not_eq_true, Option.isSome_eq_false_iff,
              Option.isNone_iff_eq_none] at hnone
            split at h
            · obtain ⟨rfl, rfl⟩ : st = st' ∧ none = b := by simpa using h
              exact ⟨.refl, by simp⟩
            · split at h
              · rename_i handle _ _
                rw [Except.ok.injEq, Prod.mk.injEq] at h
                obtain ⟨rfl, rfl⟩ := h
                have hstep : Step cfg [] st (st.acquireItem (.halImage, s) (some handle)) :=
                  .acquire _ _ rfl hfind hacquired
                refine ⟨.single hstep, fun b' hb' => ?_⟩
                rw [Option.some_inj] at hb'
                subst hb'
                have hbit := st.hasBit_acquireItem (.halImage, s) (.halImage, s)
                  (some handle) eBUF_STATUS_RELEASE
                rw [hrel] at hbit
                exact ⟨rfl, hbit.trans (by simp [eBUF_STATUS_RELEASE, eBUF_STATUS_ACQUIRE])⟩
              · rw [Except.ok.injEq, Prod.mk.injEq] at h
                obtain ⟨rfl, rfl⟩ := h
                have hstep : Step cfg [] st (st.acquireItem (.halImage, s) none) :=
                  .acquire _ _ rfl hfind hacquired
                exact ⟨.tail (.single hstep) (hmark _), by simp⟩
              · rw [Except.ok.injEq, Prod.mk.injEq] at h
                obtain ⟨rfl, rfl⟩ := h
                have hsame : (st.editItem (kind, s) fun item => { item with mBuffer := none }) =
                    st := by
                  have hitem : { st.items (kind, s) with mBuffer := none } =
                      st.items (kind, s) := by rw [← hnone]
                  rw [editItem, hitem, Function.update_eq_self]
                rw [hsame]
                exact ⟨.refl, by simp⟩

/-- A buffer that is handed to a user is the one of an item that is still in its map; some
user of it has not been found released, and every user ahead has passed it on. -/
theorem getBufferLocked_spec {kind : MapKind} {provider : Provider}
    {b : Option StreamBuffer} (hst : StoreInvariant cfg st)
    (h : st.getBufferLocked s u kind provider = .ok (st', b)) :
    Steps cfg [] st st' ∧ ∀ b', b = some b' → b'.item = (kind, s) ∧
      st'.hasBit (kind, s) eBUF_STATUS_RELEASE = false ∧
      (st'.users (kind, s)).haveAllUsersReleased ≠ .ok ∧
      (st'.users (kind, s)).haveAllUsersReleasedOrPreReleased u = some .ok := by
  rw [getBufferLocked] at h
  split at h
  · cases h
  · rename_i himp
    obtain ⟨rfl, rfl⟩ : _ = st' ∧ none = b := by simpa using h
    exact ⟨(getBufferLockedImp_spec hst himp).1, by simp⟩
  · rename_i st₁ b₁ himp
    obtain ⟨hsteps, hfound⟩ := getBufferLockedImp_spec hst himp
    obtain ⟨hitem, hrel⟩ := hfound b₁ rfl
    dsimp only at h
    split at h
    · obtain ⟨rfl, rfl⟩ : st₁ = st' ∧ none = b := by simpa using h
      exact ⟨hsteps, by simp⟩
    · rename_i hall
      split at h
      · cases h
      · rename_i hahead
        obtain ⟨rfl, rfl⟩ : st₁ = st' ∧ some b₁ = b := by simpa using h
        refine ⟨hsteps, fun b' hb' => ?_⟩
        obtain rfl : b₁ = b' := Option.some_inj.mp hb'
        rw [hitem] at hall hahead
        exact ⟨hitem, hrel, hall, hahead⟩
      · obtain ⟨rfl, rfl⟩ : st₁ = st' ∧ none = b := by simpa using h
        exact ⟨hsteps, by simp⟩

theorem getBuffer_spec {hal app : MapKind} {provider : Provider} {b : Option StreamBuffer}
    (hst : StoreInvariant cfg st) (h : st.getBuffer s u hal app provider = .ok (st', b)) :
    Steps cfg [] st st' ∧ ∀ b', b = some b' → (b'.item = (hal, s) ∨ b'.item = (app, s)) ∧
      st'.hasBit b'.item eBUF_STATUS_RELEASE = false ∧
      (st'.users b'.item).haveAllUsersReleased ≠ .ok ∧
      (st'.users b'.item).haveAllUsersReleasedOrPreReleased u = some .ok := by
  rw [getBuffer] at h
  split at h
  · cases h
  · rename_i st₁ b₁ hhal
    obtain ⟨rfl, rfl⟩ : st₁ = st' ∧ some b₁ = b := by simpa using h
    obtain ⟨hsteps, hfound⟩ := getBufferLocked_spec hst hhal
    refine ⟨hsteps, fun b' hb' => ?_⟩
    obtain ⟨hitem, hrest⟩ := hfound b' hb'
    exact ⟨.inl hitem, hitem ▸ hrest⟩
  · rename_i st₁ hhal
    obtain ⟨hsteps, -⟩ := getBufferLocked_spec hst hhal
    obtain ⟨hsteps', hfound⟩ := getBufferLocked_spec (hsteps.storeInvariant hst) h
    refine ⟨hsteps.trans hsteps', fun b' hb' => ?_⟩
    obtain ⟨hitem, hrest⟩ := hfound b' hb'
    exact ⟨.inr hitem, hitem ▸ hrest⟩

theorem getMetaBuffer_spec {provider : Provider} {b : Option StreamBuffer}
    (hst : StoreInvariant cfg st) (h : st.getMetaBuffer s u provider = .ok (st', b)) :
    Steps cfg [] st st' :=
  (getBuffer_spec hst h).1

theorem getImageBuffer_spec {provider : Provider} {b : Option StreamBuffer}
    (hst : StoreInvariant cfg st) (h : st.getImageBuffer s u provider = .ok (st', b)) :
    Steps cfg [] st st' :=
  (getBuffer_spec hst h).1

end Store

/-! ### Operations on a frame -/

/-- **The invariant of a frame.** -/
structure FrameInvariant (cfg : FrameConfig) (frame : Frame) : Prop where
  store : StoreInvariant cfg frame.toStore
  nodes : ∀ n status, frame.mNodeStatusMap.nodes.find? n = some status →
    status.Sound ∧ ∀ i ∈ status.items, cfg.HasItem i

def Frame.pending (frame : Frame) (n : NodeId) : List ItemId :=
  ((frame.mNodeStatusMap.nodes.find? n).map NodeStatus.items).getD []

/-- The items that an operation looks at for their release. -/
def Frame.visited (frame : Frame) : Op → List ItemId
  | .applyRelease userId _ _ => frame.pending userId
  | _ => []

/-- The call that `applyRelease` makes of its update. -/
def Frame.newCall (frame : Frame) (userId : UserId) (pAppCallback : Bool)
    (nodeStatusUpdated : BitSet32) : Call where
  userId := userId
  isPreRelease := false
  pAppCallback := pAppCallback
  nodeStatusUpdated := nodeStatusUpdated
  listeners := if nodeStatusUpdated.isEmpty then [] else frame.mListeners
  snapshot := none
  returned := false

theorem Frame.applyRelease_of_none (h : frame.mNodeStatusMap.nodes.find? n = none)
    (pAppCallback : Bool) (preemption : Preemption) :
    frame.applyRelease n pAppCallback preemption =
      { frame with toStore := { frame.toStore with
          calls := frame.calls ++ [frame.newCall n pAppCallback .clear] } } := by
  rw [applyRelease, NodeStatusUpdater.run]
  simp only [h, Bool.false_and, Bool.false_eq_true, if_false]
  rfl

/-- What `applyRelease` announces. -/
def NodeStatus.announces (status : NodeStatus) (p : ItemId → Prop) [DecidablePred p]
    (count : ℤ) (b : ℕ) : Bool :=
  (status.mOSetImage.isNew p && decide (b = eMSG_ALL_OUT_IMAGE_BUFFERS_RELEASED)) ||
    (status.mOSetMeta.isNew p && decide (b = eMSG_ALL_OUT_META_BUFFERS_RELEASED)) ||
    (status.isAnyUpdate p && decide (count = 0) && decide (b = eMSG_FRAME_RELEASED))

def NodeStatusMap.countAfter (map : NodeStatusMap) (status : NodeStatus)
    (p : ItemId → Prop) [DecidablePred p] : ℤ :=
  if status.isAnyUpdate p && (status.release p).items.isEmpty then
    map.mInFlightNodeCount - 1
  else map.mInFlightNodeCount

/-- **`applyRelease` of a node**: its items are visited, those that it has released leave
its IO sets, and a call is made that announces what has become empty. -/
theorem Frame.applyRelease_spec {status : NodeStatus}
    (h : frame.mNodeStatusMap.nodes.find? n = some status) (hsound : status.Sound)
    (pAppCallback : Bool) (preemption : Preemption) :
    ∃ st₁ bits, Updated n status.items frame.toStore st₁ ∧
      frame.applyRelease n pAppCallback preemption =
        { toStore := { st₁ with
            calls := st₁.calls ++ [frame.newCall n pAppCallback bits] }
          mNodeStatusMap :=
            { nodes := frame.mNodeStatusMap.nodes.modify n fun _ =>
                status.release (frame.Released · n)
              mInFlightNodeCount :=
                frame.mNodeStatusMap.countAfter status (frame.Released · n) }
          mListeners := frame.mListeners } ∧
      ∀ b, bits.hasBit b = status.announces (frame.Released · n)
        (frame.mNodeStatusMap.countAfter status (frame.Released · n)) b := by
  obtain ⟨hupd, hmap, hany, hbits⟩ := NodeStatusUpdater.run_spec
    (p := fun i => frame.Released i n) .clear h hsound preemption (fun _ => .rfl)
  rw [applyRelease]
  simp only [hmap, hany]
  refine ⟨_, _, hupd, rfl, fun b => ?_⟩
  rw [BitSet32.hasBit_ite_markBit _ (by decide), hbits, BitSet32.hasBit_clear, Bool.false_or]
  rfl

theorem NodeStatus.mem_release {status : NodeStatus} {p : ItemId → Prop} [DecidablePred p]
    (hi : i ∈ (status.release p).items) : i ∈ status.items := by
  simp only [NodeStatus.items, NodeStatus.release, IOSet.release, List.mem_append,
    List.mem_filter] at hi ⊢
  tauto

theorem IOSet.Sound.release {ioSet : IOSet} (h : ioSet.Sound) (p : ItemId → Prop)
    [DecidablePred p] : (ioSet.release p).Sound := by
  intro hnot
  rw [IOSet.release, Bool.or_eq_true] at hnot
  rcases hnot with hnot | hnot
  · rw [IOSet.release, h hnot, List.filter_nil]
  · exact List.isEmpty_iff.mp hnot

theorem NodeStatus.Sound.release {status : NodeStatus} (h : status.Sound)
    (p : ItemId → Prop) [DecidablePred p] : (status.release p).Sound :=
  ⟨h.iImage.release p, h.oImage.release p, h.iMeta.release p, h.oMeta.release p⟩

theorem Frame.steps_applyRelease (hinv : FrameInvariant cfg frame) (n : NodeId)
    (pAppCallback : Bool) (preemption : Preemption) :
    Store.Steps cfg (frame.pending n) frame.toStore
      (frame.applyRelease n pAppCallback preemption).toStore := by
  cases hfind : frame.mNodeStatusMap.nodes.find? n with
  | none =>
    rw [applyRelease_of_none hfind]
    exact .single (.call _ rfl rfl)
  | some status =>
    obtain ⟨hsound, hitems⟩ := hinv.nodes n status hfind
    obtain ⟨st₁, bits, hupd, heq, -⟩ :=
      applyRelease_spec hfind hsound pAppCallback preemption
    rw [heq, pending, hfind]
    exact (hupd.steps hitems).tail (.call _ rfl rfl)

theorem Frame.steps_callback (cfg : FrameConfig) (is : List ItemId) (frame : Frame) (c : ℕ)
    (gone : List Listener) :
    Store.Steps cfg is frame.toStore (frame.callback c gone).1.toStore := by
  rw [callback]
  split
  · exact .refl
  · rename_i call hcall
    split
    · exact .refl
    · rename_i snapshot hsnapshot
      split
      · exact .refl
      · exact .single (.returned c call hcall (by rw [hsnapshot]; rfl))

/-- **Every operation** takes primitive steps. -/
theorem steps_frameMachine (hinv : FrameInvariant cfg frame) {op : Op} {o : List Event}
    (h : frameMachine driver frame op = .ok (frame', o)) :
    Store.Steps cfg (frame.visited op) frame.toStore frame'.toStore := by
  cases op with
  | attachListener listener =>
    obtain ⟨rfl, -⟩ := by simpa only [frameMachine, Except.ok.injEq, Prod.mk.injEq] using h
    exact .refl
  | markUserStatus streamId userId eStatus =>
    rw [frameMachine, Frame.markUserStatus] at h
    split at h
    · cases h
    · cases h
      exact .refl
    · rename_i i _
      cases h
      exact .single (.editUsers i _ (.markUserStatus userId eStatus))
  | setUserReleaseFence streamId userId releaseFence =>
    rw [frameMachine, Frame.setUserReleaseFence] at h
    split at h
    · cases h
    · cases h
      exact .refl
    · rename_i i _
      cases h
      exact .single (.editUsers i _ (.setUserReleaseFence userId releaseFence))
  | queryGroupUsage streamId userId =>
    rw [frameMachine, Frame.queryGroupUsage] at h
    split at h
    · cases h
    · cases h
      exact .refl
    · cases h
      exact .refl
  | createAcquireFence streamId userId =>
    rw [frameMachine, Frame.createAcquireFence] at h
    split at h
    · cases h
    · cases h
      exact .refl
    · split at h
      · cases h
      · cases h
        exact .refl
  | getMetaBuffer streamId userId provider =>
    rw [frameMachine] at h
    split at h
    · cases h
    · rename_i hget
      cases h
      exact Store.getMetaBuffer_spec hinv.store hget
  | getImageBuffer streamId userId provider =>
    rw [frameMachine] at h
    split at h
    · cases h
    · rename_i hget
      cases h
      exact Store.getImageBuffer_spec hinv.store hget
  | applyRelease userId pAppCallback preemption =>
    cases h
    exact Frame.steps_applyRelease hinv userId pAppCallback preemption
  | applyPreRelease userId pAppCallback =>
    cases h
    exact .single (.call _ rfl rfl)
  | takeSnapshot c =>
    cases h
    exact .single (.takeSnapshot c)
  | callback c gone =>
    rw [frameMachine, Except.ok.injEq] at h
    have hsteps := frame.steps_callback cfg [] c gone
    rwa [h] at hsteps

theorem mNodeStatusMap_frameMachine {op : Op} {o : List Event}
    (h : frameMachine driver frame op = .ok (frame', o))
    (hop : ∀ n pAppCallback preemption, op ≠ .applyRelease n pAppCallback preemption) :
    frame'.mNodeStatusMap = frame.mNodeStatusMap := by
  cases op with
  | applyRelease n pAppCallback preemption => exact absurd rfl (hop n pAppCallback preemption)
  | callback c gone =>
    rw [frameMachine, Except.ok.injEq, Frame.callback] at h
    split at h
    · cases h
      rfl
    · split at h
      · cases h
        rfl
      · split at h <;> cases h <;> rfl
  | createAcquireFence streamId userId =>
    rw [frameMachine, Frame.createAcquireFence] at h
    split at h
    · cases h
    · cases h
      rfl
    · split at h <;> cases h
      rfl
  | markUserStatus streamId userId eStatus =>
    rw [frameMachine, Frame.markUserStatus] at h
    split at h <;> cases h <;> rfl
  | setUserReleaseFence streamId userId releaseFence =>
    rw [frameMachine, Frame.setUserReleaseFence] at h
    split at h <;> cases h <;> rfl
  | queryGroupUsage streamId userId =>
    rw [frameMachine, Frame.queryGroupUsage] at h
    split at h <;> cases h <;> rfl
  | getMetaBuffer | getImageBuffer =>
    rw [frameMachine] at h
    split at h <;> cases h
    rfl
  | attachListener | applyPreRelease | takeSnapshot =>
    cases h
    rfl

theorem FrameInvariant.step (hinv : FrameInvariant cfg frame) {op : Op} {o : List Event}
    (h : frameMachine driver frame op = .ok (frame', o)) : FrameInvariant cfg frame' := by
  refine ⟨(steps_frameMachine hinv h).storeInvariant hinv.store, fun m status hfind => ?_⟩
  by_cases hop : ∃ n pAppCallback preemption, op = .applyRelease n pAppCallback preemption
  · obtain ⟨n, pAppCallback, preemption, rfl⟩ := hop
    cases h
    cases hstatus : frame.mNodeStatusMap.nodes.find? n with
    | none =>
      rw [Frame.applyRelease_of_none hstatus] at hfind
      exact hinv.nodes m status hfind
    | some status₀ =>
      obtain ⟨hsound, hitems⟩ := hinv.nodes n status₀ hstatus
      obtain ⟨st₁, bits, -, heq, -⟩ :=
        Frame.applyRelease_spec hstatus hsound pAppCallback preemption
      rw [heq] at hfind
      simp only [KeyedVector.find?_modify] at hfind
      by_cases hmn : m = n
      · subst hmn
        rw [hstatus] at hfind
        obtain rfl : status₀.release (frame.Released · m) = status := by simpa using hfind
        exact ⟨hsound.release _, fun i hi => hitems i (NodeStatus.mem_release hi)⟩
      · rw [if_neg hmn] at hfind
        exact hinv.nodes m status hfind
  · rw [mNodeStatusMap_frameMachine h fun n a p heq => hop ⟨n, a, p, heq⟩] at hfind
    exact hinv.nodes m status hfind

end MtkHardware.Pipeline
