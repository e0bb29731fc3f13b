import MtkHardware.Pipeline.FrameHistory

/-!
# The Calls of a Frame

A call of `applyRelease` or `applyPreRelease` is made under the frame's lock, takes its
snapshot once, and makes its callbacks once, all in this order. What a run of a frame shows
to the application, the HAL and the listeners is therefore bounded by what its calls hold.
-/

namespace MtkHardware.Pipeline

variable {cfg : FrameConfig} {is : List ItemId} {st st' : Store}
  {frame₀ frame frame' : Frame} {i : ItemId} {driver : SyncDriver} {n u : NodeId}
  {s : StreamId} {ops : List Op} {op : Op} {events o : List Event}

/-! ### What a call announces -/

/-- What a call has been made with: all but its snapshot and whether it has returned. -/
def Call.info (call : Call) : Call := { call with snapshot := none, returned := false }

def Store.info (st : Store) : List Call := st.calls.map Call.info

namespace Store

theorem info_set {c : ℕ} {call : Call} (call' : Call) (hcall : st.calls[c]? = some call)
    (hinfo : call'.info = call.info) :
    Store.info { st with calls := st.calls.set c call' } = st.info := by
  have hget : (st.calls.map Call.info)[c]? = some call.info := by
    rw [List.getElem?_map, hcall, Option.map_some]
  obtain ⟨hlt, hget⟩ := List.getElem?_eq_some_iff.mp hget
  rw [info, info, List.map_set, hinfo, ← hget, List.set_getElem_self]

@[simp] theorem info_takeSnapshot (st : Store) (c : ℕ) : (st.takeSnapshot c).info = st.info := by
  unfold takeSnapshot
  split
  · rfl
  · rename_i call hcall
    split
    · rfl
    · exact info_set { call with snapshot := some st.mpReleasedCollector.take.1 } hcall rfl

@[simp] theorem info_handleAllUsersReleased (st : Store) (i : ItemId) :
    (st.handleAllUsersReleased i).info = st.info := by
  rw [info, calls_handleAllUsersReleased, info]

@[simp] theorem info_handleProducersReleased (st : Store) (i : ItemId) :
    (st.handleProducersReleased i).info = st.info := by
  rw [info, calls_handleProducersReleased, info]

theorem info_updated (h : Updated n is st st') : st'.info = st.info :=
  h.invariant (fun s => s.info = st.info)
    ⟨fun _ _ hs => by rwa [info_takeSnapshot],
      fun _ _ _ hs _ => by rwa [info_handleProducersReleased],
      fun _ _ _ hs _ _ => by rwa [info_handleAllUsersReleased]⟩ rfl

theorem calls_getBufferLockedImp {kind : MapKind} {provider : Provider}
    {b : Option StreamBuffer} (h : st.getBufferLockedImp s u kind provider = .ok (st', b)) :
    st'.calls = st.calls := by
  rw [getBufferLockedImp] at h
  split at h
  · cases h
    rfl
  · split at h
    · cases h
      rfl
    · cases h
      rfl
    · dsimp only at h
      split at h
      · cases h
        rfl
      · split at h
        · cases h
          rfl
        · split at h
          · cases h
          · split at h
            · cases h
              rfl
            · split at h <;> cases h <;> rfl

theorem calls_getBufferLocked {kind : MapKind} {provider : Provider}
    {b : Option StreamBuffer} (h : st.getBufferLocked s u kind provider = .ok (st', b)) :
    st'.calls = st.calls := by
  rw [getBufferLocked] at h
  split at h
  · cases h
  · rename_i himp
    cases h
    exact calls_getBufferLockedImp himp
  · rename_i himp
    dsimp only at h
    split at h
    · cases h
      exact calls_getBufferLockedImp himp
    · split at h
      · cases h
      · cases h
        exact calls_getBufferLockedImp himp
      · cases h
        exact calls_getBufferLockedImp himp

theorem calls_getBuffer {hal app : MapKind} {provider : Provider} {b : Option StreamBuffer}
    (h : st.getBuffer s u hal app provider = .ok (st', b)) : st'.calls = st.calls := by
  rw [getBuffer] at h
  split at h
  · cases h
  · rename_i hhal
    cases h
    exact calls_getBufferLocked hhal
  · rename_i hhal
    rw [calls_getBufferLocked h, calls_getBufferLocked hhal]

end Store

/-- The call that `applyPreRelease` makes. -/
def Call.preRelease (userId : UserId) (pAppCallback : Bool) : Call where
  userId := userId
  isPreRelease := true
  pAppCallback := pAppCallback
  nodeStatusUpdated := .clear
  listeners := []
  snapshot := none
  returned := false

/-- The calls that an operation other than `applyRelease` makes. -/
def Op.preCalls : Op → List Call
  | .applyPreRelease userId pAppCallback => [.preRelease userId pAppCallback]
  | _ => []

def Op.attached : Op → List Listener
  | .attachListener listener => [listener]
  | _ => []

/-- **The calls after an operation** other than `applyRelease`, and the listeners. -/
theorem info_frameMachine (h : frameMachine driver frame op = .ok (frame', o))
    (hop : ∀ n pAppCallback preemption, op ≠ .applyRelease n pAppCallback preemption) :
    frame'.info = frame.info ++ op.preCalls ∧
      frame'.mListeners = frame.mListeners ++ op.attached := by
  cases op with
  | attachListener listener =>
    cases h
    exact ⟨by simp [Op.preCalls, Store.info], rfl⟩
  | markUserStatus streamId userId eStatus =>
    rw [frameMachine, Frame.markUserStatus] at h
    split at h <;> cases h <;> simp [Op.preCalls, Op.attached]
    rfl
  | setUserReleaseFence streamId userId releaseFence =>
    rw [frameMachine, Frame.setUserReleaseFence] at h
    split at h <;> cases h <;> simp [Op.preCalls, Op.attached]
    rfl
  | queryGroupUsage streamId userId =>
    rw [frameMachine, Frame.queryGroupUsage] at h
    split at h <;> cases h <;> simp [Op.preCalls, Op.attached]
  | createAcquireFence streamId userId =>
    rw [frameMachine, Frame.createAcquireFence] at h
    split at h
    · cases h
    · cases h
      simp [Op.preCalls, Op.attached]
    · split at h <;> cases h
      simp [Op.preCalls, Op.attached]
  | getMetaBuffer streamId userId provider =>
    rw [frameMachine] at h
    split at h
    · cases h
    · rename_i hget
      cases h
      simp [Op.preCalls, Op.attached, Store.info, Store.calls_getBuffer hget]
  | getImageBuffer streamId userId provider =>
    rw [frameMachine] at h
    split at h
    · cases h
    · rename_i hget
      cases h
      simp [Op.preCalls, Op.attached, Store.info, Store.calls_getBuffer hget]
  | applyRelease n pAppCallback preemption => exact absurd rfl (hop n pAppCallback preemption)
  | applyPreRelease userId pAppCallback =>
    cases h
    exact ⟨by simp [Op.preCalls, Store.info, Frame.applyPreRelease, Call.info, Call.preRelease],
      by simp [Frame.applyPreRelease, Op.attached]⟩
  | takeSnapshot c =>
    cases h
    exact ⟨by simp [Op.preCalls], by simp [Op.attached]⟩
  | callback c gone =>
    rw [frameMachine, Except.ok.injEq, Frame.callback] at h
    split at h
    · cases h
      simp [Op.preCalls, Op.attached]
    · rename_i call hcall
      split at h
      · cases h
        simp [Op.preCalls, Op.attached]
      · split at h <;> cases h
        · simp [Op.preCalls, Op.attached]
        · refine ⟨?_, by simp [Op.attached]⟩
          have hnone : (Op.callback c gone).preCalls = [] := rfl
          rw [hnone, List.append_nil]
          exact Store.info_set { call with returned := true } hcall rfl

/-- **The call that an `applyRelease` makes** of a node with streams. -/
theorem info_applyRelease {status : NodeStatus}
    (hfind : frame.mNodeStatusMap.nodes.find? n = some status) (hsound : status.Sound)
    (pAppCallback : Bool) (preemption : Preemption) :
    ∃ bits, (frame.applyRelease n pAppCallback preemption).info =
        frame.info ++ [frame.newCall n pAppCallback bits] ∧
      ∀ b, bits.hasBit b = status.announces (frame.Released · n)
        (frame.mNodeStatusMap.countAfter status (frame.Released · n)) b := by
  obtain ⟨st₁, bits, hupd, heq, hbits⟩ :=
    Frame.applyRelease_spec hfind hsound pAppCallback preemption
  refine ⟨bits, ?_, hbits⟩
  rw [heq]
  have hinfo := Store.info_updated hupd
  simp only [Store.info] at hinfo
  simp only [Store.info, List.map_append, hinfo]
  rfl

/-- The call that an `applyRelease` makes of an id without streams. -/
theorem info_applyRelease_of_none (hfind : frame.mNodeStatusMap.nodes.find? n = none)
    (pAppCallback : Bool) (preemption : Preemption) :
    (frame.applyRelease n pAppCallback preemption).info =
      frame.info ++ [frame.newCall n pAppCallback .clear] := by
  rw [Frame.applyRelease_of_none hfind]
  simp only [Store.info, List.map_append]
  rfl

/-! ### What the calls deliver -/

theorem Store.Steps.snapshot_of_returned (h : Store.Steps cfg is st st')
    (hst : ∀ call ∈ st.calls, call.returned = true → call.snapshot.isSome = true) :
    ∀ call ∈ st'.calls, call.returned = true → call.snapshot.isSome = true := by
  induction h with
  | refl => exact hst
  | @tail st₁ st₂ _ hstep ih =>
    cases hstep with
    | takeSnapshot c =>
      unfold Store.takeSnapshot
      split
      · exact ih
      · split
        · exact ih
        · intro call hmem hreturned
          rcases List.mem_or_eq_of_mem_set hmem with hmem | rfl
          · exact ih call hmem hreturned
          · rfl
    | producersReleased => simpa using ih
    | allUsersReleased => simpa using ih
    | editUsers => exact ih
    | acquire => exact ih
    | call call hsnapshot hreturned =>
      intro call' hmem hreturned'
      rcases List.mem_append.mp hmem with hmem | hmem
      · exact ih call' hmem hreturned'
      · obtain rfl := List.mem_singleton.mp hmem
        simp [hreturned] at hreturned'
    | returned c call hcall hsnapshot =>
      intro call' hmem hreturned'
      rcases List.mem_or_eq_of_mem_set hmem with hmem | rfl
      · exact ih call' hmem hreturned'
      · exact hsnapshot

theorem snapshot_of_returned (h : cfg.constructRequest = .ok frame₀)
    (hrun : (frameMachine driver).Runs frame₀ ops frame events) :
    ∀ call ∈ frame.calls, call.returned = true → call.snapshot.isSome = true := by
  induction hrun with
  | init =>
    obtain ⟨-, -, hcalls, -⟩ := FrameConfig.constructRequest_spec h
    simp [hcalls]
  | snoc hrun hstep ih =>
    exact (steps_frameMachine (FrameConfig.runs_invariant h hrun) hstep).snapshot_of_returned ih

/-- What the calls that have returned hold, by some measure. -/
def Store.delivered (st : Store) (W : Call → ℕ) : ℕ :=
  (st.calls.map fun call => if call.returned then W call else 0).sum

theorem Store.delivered_set {c : ℕ} {call : Call} (hcall : st.calls[c]? = some call)
    (call' : Call) (W : Call → ℕ) :
    Store.delivered { st with calls := st.calls.set c call' } W +
        (if call.returned then W call else 0) =
      st.delivered W + if call'.returned then W call' else 0 :=
  sum_map_set_add hcall call' _

theorem Store.Steps.delivered_mono (h : Store.Steps cfg is st st')
    (hst : ∀ call ∈ st.calls, call.returned = true → call.snapshot.isSome = true)
    {W : Call → ℕ} (hW : ∀ call, W { call with returned := true } = W call) :
    st.delivered W ≤ st'.delivered W := by
  induction h with
  | refl => exact le_rfl
  | @tail st₁ st₂ hrest hstep ih =>
    have hret := Store.Steps.snapshot_of_returned hrest hst
    refine ih.trans ?_
    cases hstep with
    | takeSnapshot c =>
      unfold Store.takeSnapshot
      split
      · exact le_rfl
      · rename_i call hcall
        split
        · exact le_rfl
        · rename_i hnone
          have hfalse : call.returned = false := by
            rw [← Bool.not_eq_true]
            exact fun hr => hnone (hret call (List.mem_of_getElem? hcall) hr)
          have hsum := Store.delivered_set hcall
            { call with snapshot := some st₁.mpReleasedCollector.take.1 } W
          rw [if_neg (by simp [hfalse]), if_neg (by simp [hfalse])] at hsum
          exact hsum.ge
    | producersReleased => simp [Store.delivered]
    | allUsersReleased => simp [Store.delivered]
    | editUsers => exact le_rfl
    | acquire => exact le_rfl
    | call call hsnapshot hreturned => simp [Store.delivered]
    | returned c call hcall hsnapshot =>
      have hsum := Store.delivered_set hcall { call with returned := true } W
      rw [if_pos rfl, hW] at hsum
      split at hsum <;> omega

def Event.isCallback : Event → Bool
  | .updateFrame _ _ | .releaseBuffer _ | .onPipelineFrame _ _ _ => true
  | _ => false

/-- Only a call that makes its callbacks shows something to the application, the HAL or a
listener. -/
theorem isCallback_frameMachine (h : frameMachine driver frame op = .ok (frame', o))
    (hop : ∀ c gone, op ≠ .callback c gone) : ∀ e ∈ o, e.isCallback = false := by
  cases op with
  | callback c gone => exact absurd rfl (hop c gone)
  | markUserStatus streamId userId eStatus =>
    rw [frameMachine, Frame.markUserStatus] at h
    split at h <;> cases h <;> simp [Event.isCallback]
  | setUserReleaseFence streamId userId releaseFence =>
    rw [frameMachine, Frame.setUserReleaseFence] at h
    split at h <;> cases h <;> simp [Event.isCallback]
  | queryGroupUsage streamId userId =>
    rw [frameMachine, Frame.queryGroupUsage] at h
    split at h <;> cases h <;> simp [Event.isCallback]
  | createAcquireFence streamId userId =>
    rw [frameMachine, Frame.createAcquireFence] at h
    split at h
    · cases h
    · cases h
      simp [Event.isCallback]
    · split at h <;> cases h
      simp [Event.isCallback]
  | getMetaBuffer | getImageBuffer =>
    rw [frameMachine] at h
    split at h <;> cases h
    simp [Event.isCallback]
  | attachListener | applyRelease | applyPreRelease | takeSnapshot =>
    cases h
    simp

/-- **What a run delivers** is bounded by what the calls that have returned hold: `μ`
measures the events, and `W` the calls. -/
theorem delivered_le {μ : Event → ℕ} {W : Call → ℕ} (h : cfg.constructRequest = .ok frame₀)
    (hμ : ∀ e, e.isCallback = false → μ e = 0)
    (hW : ∀ call, W { call with returned := true } = W call)
    (hcall : ∀ call snapshot gone, call.snapshot = some snapshot →
      ((call.callbacks snapshot gone).map μ).sum ≤ W call)
    (hrun : (frameMachine driver).Runs frame₀ ops frame events) :
    (events.map μ).sum ≤ frame.delivered W := by
  induction hrun with
  | init => simp
  | @snoc ops frame events op frame' o hrun hstep ih =>
    have hret := snapshot_of_returned h hrun
    have hsteps := steps_frameMachine (FrameConfig.runs_invariant h hrun) hstep
    rw [List.map_append, List.sum_append]
    by_cases hop : ∃ c gone, op = .callback c gone
    · obtain ⟨c, gone, rfl⟩ := hop
      rw [frameMachine, Except.ok.injEq, Frame.callback] at hstep
      split at hstep
      · cases hstep
        simpa using ih
      · rename_i call hget
        split at hstep
        · cases hstep
          simpa using ih
        · rename_i snapshot hsnapshot
          split at hstep
          · cases hstep
            simpa using ih
          · rename_i hfalse
            cases hstep
            have hsum := Store.delivered_set hget { call with returned := true } W
            rw [if_neg hfalse, if_pos rfl, hW, Nat.add_zero] at hsum
            have hbound := hcall call snapshot gone hsnapshot
            rw [hsum]
            omega
    · have hzero : (o.map μ).sum = 0 := by
        refine List.sum_eq_zero fun x hx => ?_
        obtain ⟨e, he, rfl⟩ := List.mem_map.mp hx
        exact hμ e (isCallback_frameMachine hstep (fun c g heq => hop ⟨c, g, heq⟩) e he)
      have hmono := hsteps.delivered_mono hret hW
      omega

end MtkHardware.Pipeline
