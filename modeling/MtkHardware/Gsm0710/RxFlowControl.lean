import MtkHardware.Gsm0710.RxDelivery

/-!
# Flow Control on a Channel

Two things are to be in step with what is cached for a channel. `rx_fl_total` is to be the number of
cached bytes, for frames are dropped when it grows over `RX_FLOW_CTRL_HIGH_WATERMARK`; but a retry
thread that writes cached bytes leaves it as it is. And the last MSC that was sent is to tell the
modem to stop exactly when `rx_fc_off` is set; but the two threads change the flag and send the MSC
in opposite order. A retry thread that has cleared `rx_fc_off` may send FC On after the RX thread
has sent FC Off for the next frame.
-/

namespace MtkHardware.Gsm0710

/-- How many steps a retry thread that terminates has before it. -/
def RetryAt.remaining : RetryAt → ℕ
  | .sendingOn => 3
  | .ending => 2
  | .signaling => 1
  | _ => 0

/-- Has FC Off been sent, and `rx_fc_off` not been set for it? -/
def RxAt.offSent : RxAt → Bool
  | .locking | .waiting _ => true
  | _ => false

namespace RxChannel

variable {s s' : RxChannel} {op : RxOp} {ops : List RxOp} {os o : List RxEvent}
  {frame : GSM0710_Frame} {retry : RetryAt}

/-! ### The number of cached bytes -/

/-- A step keeps `rx_fl_total` right exactly when it is no write of a byte by a retry thread. -/
theorem Transfer.total_iff (h : Transfer s s' op o) (htotal : s.rx_fl_total = s.cached.length) :
    s'.rx_fl_total = s'.cached.length ↔ op.drained = 0 := by
  cases h with
  | kept _ hdrained _ hcached _ htotal' =>
    rw [hcached, htotal', htotal]
    exact iff_of_true rfl hdrained
  | dropped _ _ hcached _ htotal' =>
    rw [hcached, htotal', htotal]
    exact iff_of_true rfl rfl
  | cached hcached _ _ htotal' =>
    rw [hcached, htotal', htotal, List.length_append]
    exact iff_of_true rfl rfl
  | received hcached hcached' _ _ htotal' =>
    rw [hcached', htotal', htotal, hcached]
    exact iff_of_true rfl rfl
  | written hcached hcached' _ htotal' =>
    rw [hcached', htotal', htotal, hcached]
    exact iff_of_true rfl rfl
  | cachedRemaining _ _ _ htotal' => exact iff_of_true htotal' rfl
  | @retried _ _ length bytes hbytes hcached _ htotal' =>
    rw [htotal', htotal, hcached, List.length_append, hbytes]
    change length + _ = _ ↔ length = 0
    omega

/-- **The watermark**: in every state of a run `rx_fl_total` is the number of the cached bytes
exactly when no retry thread writes a byte in it. Where it is, a frame is dropped only if it would
not fit under the watermark behind the bytes that are cached. -/
theorem rx_fl_total_iff (hrun : rxChannel.Runs {} ops s os) :
    (rxChannel.RunsMeeting (fun _ _ op => op.drained = 0) {} ops s os ↔
      ∀ ops₁ ops₂ s₁ os₁, ops = ops₁ ++ ops₂ → rxChannel.Runs {} ops₁ s₁ os₁ →
        s₁.rx_fl_total = s₁.cached.length) ∧
    (s.rx_fl_total = s.cached.length → ∀ op s' o frame, rxChannel s op = .ok (s', o) →
      .dropped frame ∈ o →
        RX_FLOW_CTRL_HIGH_WATERMARK < s.cached.length + frame.data.length) := by
  constructor
  · refine Machine.Runs.meeting_iff (I := fun _ s => s.rx_fl_total = s.cached.length) rfl ?_ hrun
    intro ops s os op s' o hrun htotal hstep
    exact ((owned_of_runs hrun).step hstep).2.total_iff htotal
  · intro htotal op s' o frame hstep hdropped
    obtain ⟨-, -, hmark⟩ := ((owned_of_runs hrun).step hstep).2.of_dropped hdropped
    rwa [htotal] at hmark

theorem receive_of_full (hrx : s.rx = .idle) (hoff : s.rx_fc_off = true)
    (hmark : RX_FLOW_CTRL_HIGH_WATERMARK < s.rx_fl_total + frame.data.length) :
    rxChannel s (.receive frame) =
      .ok ({ s with dropped_count := s.dropped_count + 1 }, [.dropped frame]) := by
  change s.receive frame = _
  unfold RxChannel.receive
  rw [hrx]
  dsimp only
  rw [if_pos hoff, fc_cacheFrameData, if_pos hmark, hrx]

/-- A frame is cached, another one behind it, and the retry thread has popped the first one. -/
def cachedOps (data : List UInt8) : List RxOp :=
  [.receive (dataFrame data), .rxWrite .eagain, .rxStep, .rxStep, .rxStep, .create true,
   .receive (dataFrame data), .retryStep .starting]

theorem rx_fl_total_iff_cached : ∃ s os, rxChannel.Runs {} (cachedOps [1, 2, 3]) s os ∧
    (rxChannel.RunsMeeting (fun _ _ op => op.drained = 0) {} (cachedOps [1, 2, 3]) s os ↔
      ∀ ops₁ ops₂ s₁ os₁, cachedOps [1, 2, 3] = ops₁ ++ ops₂ → rxChannel.Runs {} ops₁ s₁ os₁ →
        s₁.rx_fl_total = s₁.cached.length) ∧
    ∀ op s' o frame, rxChannel s op = .ok (s', o) → .dropped frame ∈ o →
      RX_FLOW_CTRL_HIGH_WATERMARK < s.cached.length + frame.data.length := by
  obtain ⟨s, os, hrun, htotal⟩ : ∃ s os, rxChannel.Runs {} (cachedOps [1, 2, 3]) s os ∧
      s.rx_fl_total = s.cached.length :=
    Machine.exists_run_of_shows (by decide +kernel)
  obtain ⟨hiff, hdropped⟩ := rx_fl_total_iff hrun
  exact ⟨s, os, hrun, hiff, hdropped htotal⟩

def drainedOps (data : List UInt8) : List RxOp :=
  cachedOps data ++
    [.retryWrite (dataFrame data) 0 (.accepted data.length), .retryStep .popping,
     .retryWrite (dataFrame data) 0 (.accepted data.length)]

/-- Nothing is cached any more, and yet the next frame is dropped. -/
theorem drained_dropped : ∃ s os s' o,
    rxChannel.Runs {} (drainedOps (List.replicate 1400 0)) s os ∧
    rxChannel s (.receive (dataFrame (List.replicate 1400 0))) = .ok (s', o) ∧
    .dropped (dataFrame (List.replicate 1400 0)) ∈ o ∧
    s.rx_fl_total ≠ s.cached.length ∧
    s.cached.length + (dataFrame (List.replicate 1400 0)).data.length ≤
      RX_FLOW_CTRL_HIGH_WATERMARK := by
  obtain ⟨s, os, hrun, hrx, hoff, htotal, hcached⟩ : ∃ s os,
      rxChannel.Runs {} (drainedOps (List.replicate 1400 0)) s os ∧
      s.rx = .idle ∧ s.rx_fc_off = true ∧ s.rx_fl_total = 2800 ∧ s.cached.length = 0 :=
    Machine.exists_run_of_shows (by decide +kernel)
  have hlength : (dataFrame (List.replicate 1400 0)).data.length = 1400 := List.length_replicate
  have hmark : RX_FLOW_CTRL_HIGH_WATERMARK <
      s.rx_fl_total + (dataFrame (List.replicate 1400 0)).data.length := by
    rw [htotal, hlength]
    decide
  refine ⟨s, os, _, _, hrun, receive_of_full hrx hoff hmark, List.mem_singleton_self _, ?_, ?_⟩
  · omega
  · rw [hcached, hlength]
    decide

/-! ### What the modem has been told -/

/-- No retry thread is terminating, and no MSC is being sent, together with the change of the flag
that belongs to it. -/
def Settled (s : RxChannel) : Prop :=
  (∀ retry ∈ s.retries, retry.isActive = true) ∧ s.rx ≠ .sendingOff ∧ s.rx.offSent = false

/-- The modem has been told to stop exactly when `rx_fc_off` is set. -/
def Agreed (s : RxChannel) : Prop := s.Settled → (s.lastMsc = some true ↔ s.rx_fc_off = true)

theorem settled_of_idle (hrx : s.rx = .idle) (hretries : s.retries = [.starting]) : s.Settled := by
  refine ⟨?_, by rw [hrx]; simp, by rw [hrx]; rfl⟩
  rw [hretries]
  simp [RetryAt.isActive]

/-- FC Off is not sent while a retry thread is about to send FC On. -/
def InTurn (s : RxChannel) : RxOp → Prop
  | .rxStep => s.rx = .sendingOff → .sendingOn ∉ s.retries
  | _ => True

instance (s : RxChannel) (op : RxOp) : Decidable (s.InTurn op) := by
  cases op <;> unfold InTurn <;> infer_instance

inductive Control (s s' : RxChannel) : RxOp → Prop
  | kept {op : RxOp} (hmsc : s'.lastMsc = s.lastMsc) (hoff : s'.rx_fc_off = s.rx_fc_off)
      (hsent : s'.rx.offSent = s.rx.offSent)
      (hmem : .sendingOn ∈ s'.retries ↔ .sendingOn ∈ s.retries) : Control s s' op
  /-- FC Off is sent. -/
  | sendOff (hrx : s.rx = .sendingOff) (hsent' : s'.rx.offSent = true)
      (hmsc : s'.lastMsc = some true)
      (hmem : .sendingOn ∈ s'.retries ↔ .sendingOn ∈ s.retries) : Control s s' .rxStep
  /-- `rx_fc_off` is set. -/
  | setOff {op : RxOp} (hsent : s.rx.offSent = true) (hsent' : s'.rx.offSent = false)
      (hmsc : s'.lastMsc = s.lastMsc) (hoff : s'.rx_fc_off = true)
      (hmem : .sendingOn ∈ s'.retries ↔ .sendingOn ∈ s.retries) : Control s s' op
  /-- `rx_fc_off` is cleared. -/
  | clearOff {op : RxOp} (hsent' : s'.rx.offSent = false) (hoff : s'.rx_fc_off = false)
      (hmem : .sendingOn ∈ s'.retries) : Control s s' op
  /-- FC On is sent. -/
  | sendOn {op : RxOp} (hmem : .sendingOn ∈ s.retries) (hmsc : s'.lastMsc = some false)
      (hoff : s'.rx_fc_off = s.rx_fc_off) (hsent : s'.rx.offSent = s.rx.offSent) : Control s s' op

/-- Where FC On is still to be sent the flag has been cleared and FC Off has not been sent; where FC
Off has been sent it was the last MSC; and otherwise the last MSC and the flag agree. -/
structure Turns (s : RxChannel) : Prop where
  turn : .sendingOn ∈ s.retries → s.rx_fc_off = false ∧ s.rx.offSent = false
  off : s.rx.offSent = true → s.lastMsc = some true
  agreed : .sendingOn ∉ s.retries → s.rx.offSent = false →
    (s.lastMsc = some true ↔ s.rx_fc_off = true)

theorem Turns.step (h : s.Turns) (hturn : s.InTurn op) (hcontrol : Control s s' op) :
    s'.Turns := by
  cases hcontrol with
  | kept hmsc hoff hsent hmem =>
    refine ⟨?_, ?_, ?_⟩
    · rw [hoff, hsent, hmem]
      exact h.turn
    · rw [hsent, hmsc]
      exact h.off
    · rw [hmem, hsent, hmsc, hoff]
      exact h.agreed
  | sendOff hrx hsent' hmsc hmem =>
    refine ⟨fun hon => absurd (hmem.mp hon) (hturn hrx), fun _ => hmsc, fun _ hsent'' => ?_⟩
    exact absurd (hsent'.symm.trans hsent'') (by simp)
  | setOff hsent hsent' hmsc hoff hmem =>
    refine ⟨fun hon => ?_, fun hsent'' => ?_, fun _ _ => ?_⟩
    · exact absurd (hsent.symm.trans (h.turn (hmem.mp hon)).2) (by simp)
    · exact absurd (hsent''.symm.trans hsent') (by simp)
    · exact iff_of_true (hmsc.trans (h.off hsent)) hoff
  | clearOff hsent' hoff hmem =>
    refine ⟨fun _ => ⟨hoff, hsent'⟩, fun hsent'' => ?_, fun hon => absurd hmem hon⟩
    exact absurd (hsent''.symm.trans hsent') (by simp)
  | sendOn hmem hmsc hoff hsent =>
    obtain ⟨hoff', hsent'⟩ := h.turn hmem
    refine ⟨fun _ => ⟨hoff.trans hoff', hsent.trans hsent'⟩, fun hsent'' => ?_, fun _ _ => ?_⟩
    · exact absurd (hsent''.symm.trans (hsent.trans hsent')) (by simp)
    · rw [hmsc, hoff, hoff']
      simp

theorem mem_move_iff {next : List RetryAt} {t : RetryAt} (hne : t ≠ retry) (hnext : t ∉ next) :
    t ∈ (s.move retry next).retries ↔ t ∈ s.retries := by
  unfold move
  rw [List.mem_append, List.mem_erase_of_ne hne, or_iff_left hnext]

/-- **Every step** does one of these things. -/
theorem Owned.control (howned : s.Owned) (h : rxChannel s op = .ok (s', o)) : Control s s' op := by
  obtain ⟨queue, -, hcustody⟩ := howned
  cases op with
  | receive frame =>
    change s.receive frame = _ at h
    unfold RxChannel.receive at h
    split at h
    · rename_i hat
      split_ifs at h
      · unfold fc_cacheFrameData at h
        split_ifs at h
        · cases h
          exact .kept rfl rfl rfl Iff.rfl
        · split at h
          · cases h
          · cases h
            exact .kept rfl rfl rfl Iff.rfl
      · cases h
        exact .kept rfl rfl (by rw [hat]; rfl) Iff.rfl
    · cases h
  | rxWrite result =>
    change s.rxWrite result = _ at h
    unfold RxChannel.rxWrite at h
    split at h
    · rename_i frame hat
      split at h
      · split_ifs at h
        · cases h
          exact .kept rfl rfl (by rw [hat]; rfl) Iff.rfl
        · cases h
          exact .kept rfl rfl (by rw [hat]; rfl) Iff.rfl
      · cases h
        exact .kept rfl rfl (by rw [hat]; rfl) Iff.rfl
      · cases h
        exact .kept rfl rfl rfl Iff.rfl
    · cases h
  | rxStep =>
    change s.rxStep = _ at h
    unfold RxChannel.rxStep at h
    split at h
    · rename_i frame written hat
      obtain ⟨t, ht, heq⟩ := map_eq_ok_iff.mp h
      cases heq
      unfold fc_cacheRemainingFrameData at ht
      split_ifs at ht
      split at ht
      · cases ht
      · cases ht
        exact .kept rfl rfl (by rw [hat]; rfl) Iff.rfl
    · rename_i hat
      cases h
      exact .sendOff hat rfl rfl Iff.rfl
    · rename_i hat
      split_ifs at h
      · cases h
        exact .kept rfl rfl (by rw [hat]; rfl) Iff.rfl
      · cases h
        exact .setOff (by rw [hat]; rfl) rfl rfl rfl Iff.rfl
    · cases h
  | rxWake =>
    change s.rxWake = _ at h
    unfold RxChannel.rxWake at h
    split at h
    · rename_i signaled hat
      cases h
      exact .setOff (by rw [hat]; rfl) rfl rfl rfl Iff.rfl
    · cases h
  | create created =>
    change s.create created = _ at h
    unfold RxChannel.create at h
    split at h
    · rename_i hat
      split_ifs at h
      · cases h
        exact .kept rfl rfl (by rw [hat]; rfl) (by simp)
      · cases h
        exact .kept rfl rfl (by rw [hat]; rfl) Iff.rfl
    · cases h
  | retryStep retry =>
    change s.retryStep retry = _ at h
    unfold RxChannel.retryStep at h
    split_ifs at h with hmem
    cases retry with
    | starting =>
      dsimp only at h
      split at h
      · cases h
      · cases h
        exact .kept rfl rfl rfl (mem_move_iff (by simp) (by simp))
    | writing => cases h
    | popping =>
      obtain ⟨hrx, -⟩ := hcustody.of_active hmem rfl
      dsimp only at h
      split at h
      · cases h
        refine .clearOff ?_ rfl (List.mem_append_right _ (List.mem_singleton_self _))
        change s.rx.offSent = false
        rw [hrx]
        rfl
      · cases h
        exact .kept rfl rfl rfl (mem_move_iff (by simp) (by simp))
    | sendingOn =>
      cases h
      exact .sendOn hmem rfl rfl rfl
    | ending =>
      cases h
      exact .kept rfl rfl rfl (mem_move_iff (by simp) (by simp))
    | signaling =>
      cases h
      refine .kept rfl rfl ?_ (mem_move_iff (by simp) (by simp))
      change s.rx.signal.offSent = s.rx.offSent
      cases s.rx <;> rfl
  | retryWrite frame written result =>
    change s.retryWrite frame written result = _ at h
    unfold RxChannel.retryWrite at h
    split_ifs at h with hmem
    cases result with
    | eagain =>
      cases h
      exact .kept rfl rfl rfl Iff.rfl
    | again =>
      cases h
      exact .kept rfl rfl rfl Iff.rfl
    | accepted length =>
      dsimp only at h
      split_ifs at h
      · cases h
        exact .kept rfl rfl rfl (mem_move_iff (by simp) (by simp))
      · cases h
        exact .kept rfl rfl rfl (mem_move_iff (by simp) (by simp))

theorem Turns.of_meeting (hrun : rxChannel.RunsMeeting (fun _ s op => s.InTurn op) {} ops s os) :
    s.Turns := by
  suffices hboth : s.Owned ∧ s.Turns from hboth.2
  refine hrun.invariant (I := fun _ s _ => s.Owned ∧ s.Turns) ⟨owned_of_runs .init, ?_⟩ ?_
  · exact ⟨nofun, nofun, fun _ _ => by simp⟩
  · intro ops s os op s' o ⟨howned, hturns⟩ hturn hstep
    exact ⟨(howned.step hstep).1, hturns.step hturn (howned.control hstep)⟩

/-- FC Off has been sent too early: all retry threads terminate, and FC On is the last MSC or will
be. -/
structure Crossed (s : RxChannel) : Prop where
  rx : s.rx = .locking
  terminating : ∀ retry ∈ s.retries, retry.isActive = false
  on : .sendingOn ∈ s.retries ∨
    s.lastMsc = some false ∧ (.ending ∈ s.retries ∨ s.rx_thread = false)

theorem retries_move_of_cons {rest next : List RetryAt} (hretries : s.retries = retry :: rest) :
    (s.move retry next).retries = rest ++ next := by
  unfold move
  rw [hretries, List.erase_cons_head]

theorem Crossed.step {rest : List RetryAt} (h : s.Crossed) (hretries : s.retries = retry :: rest) :
    ∃ s₁ o, rxChannel s (.retryStep retry) = .ok (s₁, o) ∧ s₁.Crossed ∧
      (s₁.retries.map RetryAt.remaining).sum < (s.retries.map RetryAt.remaining).sum := by
  have hmem : retry ∈ s.retries := by
    rw [hretries]
    exact List.mem_cons_self
  have hmove : ∀ next, (s.move retry next).retries = rest ++ next := fun next =>
    retries_move_of_cons hretries
  have hinactive : ∀ next, (∀ t ∈ next, t.isActive = false) →
      ∀ t ∈ (s.move retry next).retries, t.isActive = false := by
    intro next hnext t ht
    rw [hmove] at ht
    rcases List.mem_append.mp ht with ht | ht
    · exact h.terminating t (by rw [hretries]; exact List.mem_cons_of_mem _ ht)
    · exact hnext t ht
  have hless : ∀ next, (next.map RetryAt.remaining).sum < retry.remaining →
      ((s.move retry next).retries.map RetryAt.remaining).sum <
        (s.retries.map RetryAt.remaining).sum := by
    intro next hnext
    rw [hmove, hretries, List.map_append, List.sum_append, List.map_cons, List.sum_cons]
    omega
  have hstill : ∀ t next, t ≠ retry → t ∈ s.retries → t ∈ (s.move retry next).retries := by
    intro t next hne ht
    rw [hretries] at ht
    rw [hmove]
    exact List.mem_append_left _ ((List.mem_cons.mp ht).resolve_left hne)
  have hterminating := h.terminating retry hmem
  cases retry with
  | starting => cases hterminating
  | writing => cases hterminating
  | popping => cases hterminating
  | sendingOn =>
    have hending : .ending ∈ (s.move .sendingOn [.ending]).retries := by
      rw [hmove]
      exact List.mem_append_right _ (List.mem_singleton_self _)
    exact ⟨_, _, if_pos hmem, ⟨h.rx, hinactive [.ending] (by simp [RetryAt.isActive]),
      .inr ⟨rfl, .inl hending⟩⟩, hless [.ending] (by decide)⟩
  | ending =>
    refine ⟨_, _, if_pos hmem, ⟨h.rx, hinactive [.signaling] (by simp [RetryAt.isActive]), ?_⟩,
      hless [.signaling] (by decide)⟩
    rcases h.on with hon | ⟨hmsc, -⟩
    · exact .inl (hstill .sendingOn [.signaling] (by simp) hon)
    · exact .inr ⟨hmsc, .inr rfl⟩
  | signaling =>
    have hrx : s.rx.signal = .locking := by rw [h.rx]; rfl
    refine ⟨_, _, if_pos hmem, ⟨hrx, hinactive [] (by simp), ?_⟩, hless [] (by decide)⟩
    rcases h.on with hon | ⟨hmsc, hending | hthread⟩
    · exact .inl (hstill .sendingOn [] (by simp) hon)
    · exact .inr ⟨hmsc, .inl (hstill .ending [] (by simp) hending)⟩
    · exact .inr ⟨hmsc, .inr hthread⟩

theorem Crossed.exists_run (h : s.Crossed) : ∃ ops₁ s₁ os₁,
    rxChannel.Runs s ops₁ s₁ os₁ ∧ s₁.Crossed ∧ s₁.retries = [] := by
  induction hn : (s.retries.map RetryAt.remaining).sum using Nat.strongRecOn generalizing s with
  | ind n ih =>
    cases hretries : s.retries with
    | nil => exact ⟨[], s, [], .init, h, hretries⟩
    | cons retry rest =>
      obtain ⟨s₁, o, hstep, hcrossed, hlt⟩ := h.step hretries
      obtain ⟨ops₂, s₂, os₂, hrun, hcrossed₂, hnil⟩ := ih _ (hn ▸ hlt) hcrossed rfl
      exact ⟨_, s₂, _, (Machine.Runs.single hstep).append hrun, hcrossed₂, hnil⟩

/-- Then the RX thread sets `rx_fc_off`, and the last MSC is FC On. -/
theorem Crossed.disagrees (h : s.Crossed) :
    ∃ ops₁ s₁ os₁, rxChannel.Runs s ops₁ s₁ os₁ ∧ ¬ s₁.Agreed := by
  obtain ⟨ops₁, s₁, os₁, hrun, hcrossed, hnil⟩ := h.exists_run
  obtain ⟨hmsc, hthread⟩ : s₁.lastMsc = some false ∧ s₁.rx_thread = false := by
    have hon := hcrossed.on
    rw [hnil] at hon
    simpa using hon
  have hstep : rxChannel s₁ .rxStep = .ok ({ s₁ with rx := .creating, rx_fc_off := true }, []) := by
    change s₁.rxStep = _
    unfold RxChannel.rxStep
    rw [hcrossed.rx]
    dsimp only
    rw [hthread]
    rfl
  refine ⟨_, _, _, hrun.append (.single hstep), fun hagreed => ?_⟩
  have hsettled : Settled { s₁ with rx := .creating, rx_fc_off := true } := by
    refine ⟨fun t ht => ?_, by simp, rfl⟩
    change t ∈ s₁.retries at ht
    rw [hnil] at ht
    cases ht
  have hstop : s₁.lastMsc = some true := (hagreed hsettled).mpr rfl
  exact absurd (hmsc.symm.trans hstop) (by simp)

/-- **Agreement**: in a run in which FC Off is not sent while a retry thread is about to send FC On,
the modem has been told to stop exactly when `rx_fc_off` is set, in every state in which no retry
thread terminates and no MSC is being sent; between FC Off and the flag the last MSC is FC Off. A
run in which it is goes on to a state in which they do not agree. -/
theorem agreed_in_turn (hrun : rxChannel.Runs {} ops s os) :
    (rxChannel.RunsMeeting (fun _ s op => s.InTurn op) {} ops s os →
      s.Agreed ∧ (s.rx.offSent = true → s.lastMsc = some true)) ∧
    ∀ op s' o, rxChannel s op = .ok (s', o) → ¬ s.InTurn op →
      ∃ ops₁ s₁ os₁, rxChannel.Runs s' ops₁ s₁ os₁ ∧ ¬ s₁.Agreed := by
  constructor
  · intro hmeeting
    have hturns := Turns.of_meeting hmeeting
    refine ⟨?_, hturns.off⟩
    rintro ⟨hactive, -, hsent⟩
    refine hturns.agreed (fun hon => ?_) hsent
    cases hactive _ hon
  · intro op s' o hstep hturn
    cases op with
    | rxStep =>
      obtain ⟨hrx, hon⟩ : s.rx = .sendingOff ∧ .sendingOn ∈ s.retries := by
        unfold InTurn at hturn
        simpa using hturn
      obtain ⟨queue, -, hcustody⟩ := owned_of_runs hrun
      obtain ⟨-, -, -, -, hactive, -, -⟩ := hcustody.of_handsOver (by rw [hrx]; rfl)
      change s.rxStep = _ at hstep
      unfold RxChannel.rxStep at hstep
      rw [hrx] at hstep
      cases hstep
      refine Crossed.disagrees ⟨rfl, fun t ht => ?_, .inl hon⟩
      -- nobody else has what is handed over
      have hnone := List.filter_eq_nil_iff.mp hactive t ht
      simpa using hnone
    | _ => exact absurd trivial hturn

/-- The next frame is handed over behind FC On, while the retry thread is terminating. -/
def inTurnOps : List RxOp :=
  handOverOps.take 13 ++
    [.receive (dataFrame [6, 7]), .rxWrite (.accepted 1), .retryStep .sendingOn, .rxStep, .rxStep,
     .rxStep, .retryStep .ending, .retryStep .signaling, .rxWake, .create true]

theorem agreed_in_turn_handOver : ∃ s os, rxChannel.Runs {} inTurnOps s os ∧
    s.Settled ∧ (s.lastMsc = some true ↔ s.rx_fc_off = true) ∧ s.rx_fc_off = true := by
  obtain ⟨s, os, hrun, hrx, hretries, hoff⟩ : ∃ s os, rxChannel.Runs {} inTurnOps s os ∧
      s.rx = .idle ∧ s.retries = [.starting] ∧ s.rx_fc_off = true :=
    Machine.exists_run_of_shows (by decide +kernel)
  have hsettled : s.Settled := settled_of_idle hrx hretries
  have hagreed := ((agreed_in_turn hrun).1 (hrun.meeting (by decide +kernel))).1
  exact ⟨s, os, hrun, hsettled, hagreed hsettled, hoff⟩

/-- A retry thread has cleared `rx_fc_off`, and the next frame is handed over before it sends FC
On. -/
def crossedOps : List RxOp :=
  [.receive (dataFrame [1, 2]), .rxWrite .eagain, .rxStep, .rxStep, .rxStep, .create true,
   .retryStep .starting, .retryWrite (dataFrame [1, 2]) 0 (.accepted 2), .retryStep .popping,
   .receive (dataFrame [3, 4]), .rxWrite .eagain, .rxStep, .rxStep,
   .retryStep .sendingOn, .retryStep .ending, .retryStep .signaling, .rxStep, .create true]

/-- The modem is told to go on while `rx_fc_off` is set. -/
theorem crossed_disagreed : ∃ s os, rxChannel.Runs {} crossedOps s os ∧
    (s.rx = .idle ∧ s.retries = [.starting] ∧ s.lastMsc = some false ∧ s.rx_fc_off = true) ∧
    ¬ s.Agreed := by
  obtain ⟨s, os, hrun, hrx, hretries, hmsc, hoff⟩ : ∃ s os, rxChannel.Runs {} crossedOps s os ∧
      s.rx = .idle ∧ s.retries = [.starting] ∧ s.lastMsc = some false ∧ s.rx_fc_off = true :=
    Machine.exists_run_of_shows (by decide +kernel)
  refine ⟨s, os, hrun, ⟨hrx, hretries, hmsc, hoff⟩, fun hagreed => ?_⟩
  have hstop := (hagreed (settled_of_idle hrx hretries)).mpr hoff
  exact absurd (hmsc.symm.trans hstop) (by simp)

end RxChannel

end MtkHardware.Gsm0710
