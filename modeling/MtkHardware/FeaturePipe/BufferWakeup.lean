import MtkHardware.FeaturePipe.BufferConservation

/-!
# Wake-Ups of Requests

A request waits while no buffer is available and the pool may not grow. What can change this makes
a broadcast: a buffer that is added to the pool or handed back, and a buffer that is freed. A
request that allocates leaves the requests that wait as they are: the sum of the buffers and the
allocations that are counted falls only when it has the mutex again, and it is the first to look.

`setAutoAllocate` makes no broadcast, and so may raise the bound over the heads of requests that
wait.
-/

namespace MtkHardware.FeaturePipe

namespace BufferPool

variable {s s' : BufferPool} {os o : List BufferEvent} {op : BufferOp} {c : Caller}
  {next : List Caller}

def HasRoom (s : BufferPool) : Prop :=
  0 < s.mAutoAllocate ∧ (s.mPool.length + s.mAllocatingCount : ℤ) < s.mAutoAllocate

def Serves (s : BufferPool) : Prop := s.mAvailable ≠ [] ∨ s.HasRoom

/-- Does a request sleep that no broadcast has reached? -/
def Asleep (s : BufferPool) : Prop := .waiting false ∈ s.callers

def IsAdding (s : BufferPool) : Prop := ∃ c ∈ s.callers, c.handle.isSome

/-- Is a broadcast still to come, from `addToPool` or `recycle`? -/
def BroadcastToCome (s : BufferPool) : Prop :=
  s.IsAdding ∨ ∃ h ∈ s.recycling, (s.handle h).mTrack = true

def WakesUp (s : BufferPool) : Prop := s.Asleep → s.Serves → s.BroadcastToCome

/-- No step raises the bound, or empties the pool, over the head of a request that sleeps. -/
def Unhurried (s : BufferPool) : BufferOp → Prop
  | .setAutoAllocate bound => s.Asleep → 0 < bound →
      (s.mPool.length + s.mAllocatingCount : ℤ) < bound → s.BroadcastToCome
  | .releaseAll => s.Asleep → 0 < s.mAutoAllocate → s.mAllocatingCount < s.mAutoAllocate →
      s.IsAdding
  | _ => True

instance (s : BufferPool) : Decidable s.HasRoom := inferInstanceAs (Decidable (_ ∧ _))

instance (s : BufferPool) : Decidable s.Serves := inferInstanceAs (Decidable (_ ∨ _))

instance (s : BufferPool) : Decidable s.Asleep := inferInstanceAs (Decidable (_ ∈ _))

instance (s : BufferPool) : Decidable s.IsAdding := inferInstanceAs (Decidable (∃ c ∈ _, _))

instance (s : BufferPool) : Decidable s.BroadcastToCome :=
  inferInstanceAs (Decidable (_ ∨ ∃ h ∈ _, _))

instance (s : BufferPool) (op : BufferOp) : Decidable (s.Unhurried op) := by
  cases op <;> unfold Unhurried <;> infer_instance

/-! ### Steps -/

/-- A step that puts no request to sleep, makes nothing available, and leaves the broadcasts to
come. -/
theorem WakesUp.mono (hw : s.WakesUp) (hasleep : s'.Asleep → s.Asleep)
    (hserves : s'.Serves → s.Serves) (hcome : s.BroadcastToCome → s'.BroadcastToCome) :
    s'.WakesUp :=
  fun hs hserve => hcome (hw (hasleep hs) (hserves hserve))

theorem not_asleep_broadcast (s : BufferPool) : ¬ s.broadcast.Asleep := by
  intro hmem
  obtain ⟨c, -, hc⟩ := List.mem_map.mp hmem
  cases c with
  | waiting signaled => cases hc
  | allocating caller => cases hc
  | adding caller handle => cases hc
  | relocking => cases hc

theorem wakesUp_broadcast (s : BufferPool) : s.broadcast.WakesUp :=
  fun hasleep => absurd hasleep s.not_asleep_broadcast

theorem IsAdding.move (h : s.IsAdding) (hc : c.handle = none) : (s.move c next).IsAdding := by
  obtain ⟨c', hmem, hadding⟩ := h
  refine ⟨c', List.mem_append_right _ ((List.mem_erase_of_ne ?_).mpr hmem), hadding⟩
  rintro rfl
  rw [hc] at hadding
  cases hadding

theorem BroadcastToCome.move (h : s.BroadcastToCome) (hc : c.handle = none) :
    (s.move c next).BroadcastToCome :=
  h.imp_left fun hadding => hadding.move hc

theorem asleep_move (hnext : .waiting false ∉ next) (h : (s.move c next).Asleep) : s.Asleep :=
  List.mem_of_mem_erase ((List.mem_append.mp h).resolve_left hnext)

theorem not_waiting_mem_afterAllocate (caller : AllocatingFor) (created : ℕ) (signaled : Bool) :
    .waiting signaled ∉ (afterAllocate caller created).1 := by
  cases caller with
  | request => simp [afterAllocate]
  | allocate left result => cases left <;> simp [afterAllocate]

theorem mTrack_onHandle {f : BufferHandle → BufferHandle} (hf : ∀ b, (f b).mTrack = b.mTrack)
    (s : BufferPool) (a h : ℕ) : ((s.onHandle a f).handle h).mTrack = (s.handle h).mTrack := by
  unfold handle onHandle
  rw [List.getElem?_modify]
  cases s.handles[h]? with
  | none => rfl
  | some b =>
    by_cases hah : a = h
    · simp [hah, hf]
    · simp [hah]

theorem BroadcastToCome.onHandle {f : BufferHandle → BufferHandle} (h : s.BroadcastToCome)
    (hf : ∀ b, (f b).mTrack = b.mTrack) (a : ℕ) : (s.onHandle a f).BroadcastToCome := by
  refine h.imp_right ?_
  rintro ⟨b, hmem, htracked⟩
  exact ⟨b, hmem, by rw [mTrack_onHandle hf, htracked]⟩

/-- A request takes a buffer, starts to allocate, or goes to sleep where nothing is there for it.
It is enough that the requests that sleep miss nothing once it has started. -/
theorem wakesUp_requestLoop
    (hw : ({ s with mAllocatingCount := s.mAllocatingCount + 1 } : BufferPool).WakesUp) :
    s.requestLoop.1.WakesUp := by
  unfold BufferPool.requestLoop
  split
  · rename_i a mAvailable havailable
    refine hw.mono id (fun _ => .inl (by simp [havailable])) fun hcome => ?_
    have htake : ({ s with mAvailable } : BufferPool).BroadcastToCome := hcome
    exact htake.onHandle (f := incSbCount) (fun _ => rfl) a
  · rename_i havailable
    split_ifs with hroom
    · exact hw.mono (fun h => (List.mem_cons.mp h).resolve_left nofun) id
        fun h => h.imp_left fun ⟨c, hc, hadding⟩ => ⟨c, List.mem_cons_of_mem _ hc, hadding⟩
    · intro _ hserves
      exact absurd (hserves.resolve_left fun hne => hne havailable) hroom

theorem WakesUp.count_succ (hw : s.WakesUp) :
    ({ s with mAllocatingCount := s.mAllocatingCount + 1 } : BufferPool).WakesUp := by
  refine hw.mono id (fun h => h.imp_right fun hroom => ⟨hroom.1, ?_⟩) id
  have hlt := hroom.2
  dsimp only at hlt
  omega

theorem autoFreeLoop_frame (count : ℕ) (mAvailable : List ℕ) :
    (s.autoFreeLoop count mAvailable).1.callers = s.callers ∧
      (s.autoFreeLoop count mAvailable).1.recycling = s.recycling ∧
      (s.autoFreeLoop count mAvailable).1.handles = s.handles := by
  induction mAvailable generalizing s count with
  | nil => exact ⟨rfl, rfl, rfl⟩
  | cons a mAvailable ih =>
    rw [BufferPool.autoFreeLoop]
    split_ifs
    · have hfreed : (s.freeFromPool_locked a).1.callers = s.callers ∧
          (s.freeFromPool_locked a).1.recycling = s.recycling ∧
          (s.freeFromPool_locked a).1.handles = s.handles := by
        unfold freeFromPool_locked
        split_ifs <;> exact ⟨rfl, rfl, rfl⟩
      obtain ⟨hcallers, hrecycling, hhandles⟩ := ih (s := (s.freeFromPool_locked a).1) (count - 1)
      exact ⟨hcallers.trans hfreed.1, hrecycling.trans hfreed.2.1, hhandles.trans hfreed.2.2⟩
    · exact ⟨rfl, rfl, rfl⟩

/-- `setAutoFree` frees what is available, and a request that sleeps then has a broadcast to come
already. -/
theorem WakesUp.autoFree (hw : s.WakesUp) : s.autoFree_locked.1.WakesUp := by
  unfold autoFree_locked
  split_ifs
  · obtain ⟨hcallers, hrecycling, hhandles⟩ :=
      s.autoFreeLoop_frame s.mPool.length s.mAvailable
    refine hw.mono (fun h => ?_) (fun h => ?_) (fun h => ?_)
    · rwa [Asleep, hcallers] at h
    · by_cases havailable : s.mAvailable = []
      · rw [havailable, autoFreeLoop] at h
        exact h.imp_left fun hne => absurd rfl hne
      · exact .inl havailable
    · unfold BroadcastToCome IsAdding handle
      rw [hcallers, hrecycling, hhandles]
      exact h
  · exact hw

/-- A buffer is handed back. Where the pool has been given up, there is no broadcast: it was not
to come. -/
theorem WakesUp.recycle (hw : s.WakesUp) (a : ℕ) :
    ({ s with recycling := s.recycling.erase a }.recycle a).1.WakesUp := by
  unfold BufferPool.recycle
  split_ifs with htracked
  · exact wakesUp_broadcast _
  · exact wakesUp_broadcast _
  · refine hw.mono id id fun hcome => hcome.imp_right ?_
    rintro ⟨b, hmem, htrack⟩
    refine ⟨b, (List.mem_erase_of_ne ?_).mpr hmem, htrack⟩
    rintro rfl
    exact htracked htrack

theorem Conserving.broadcastToCome_releaseAll (hc : s.Conserving os) :
    s.releaseAll.1.BroadcastToCome ↔ s.IsAdding := by
  refine ⟨fun h => h.resolve_right ?_, Or.inl⟩
  rintro ⟨a, hmem, htracked⟩
  rw [hc.handle_releaseAll] at htracked
  split_ifs at htracked with hpool
  · cases htracked
  · refine hpool (List.count_pos_iff.mp ?_)
    have hheld : 0 < s.recycling.count a := List.count_pos_iff.mpr hmem
    rw [hc.pool, if_pos htracked, holds]
    omega

/-- **Every step** wakes the requests up exactly when it does not rush them. -/
theorem wakesUp_step_iff (hc : s.Conserving os) (hw : s.WakesUp)
    (hstep : s.step op = .ok (s', o)) : s'.WakesUp ↔ s.Unhurried op := by
  cases op with
  | allocate count =>
    refine iff_of_true ?_ trivial
    cases count with
    | zero =>
      cases hstep
      exact hw
    | succ left =>
      cases hstep
      exact hw.mono (fun h => (List.mem_cons.mp h).resolve_left nofun) id
        fun h => h.imp_left fun ⟨c, hmem, hadding⟩ => ⟨c, List.mem_cons_of_mem _ hmem, hadding⟩
  | doAllocate caller allocated =>
    refine iff_of_true ?_ trivial
    simp only [step] at hstep
    split_ifs at hstep with hmem hallocated
    · cases hstep
      refine hw.mono (asleep_move (by simp)) id fun _ => .inl ?_
      exact ⟨.adding caller s.handles.length, List.mem_cons_self, rfl⟩
    · cases hstep
      exact hw.mono (asleep_move (not_waiting_mem_afterAllocate caller 0 false)) id
        fun h => h.move rfl
  | addToPool caller a =>
    refine iff_of_true ?_ trivial
    simp only [step] at hstep
    split_ifs at hstep with hmem
    cases hstep
    exact wakesUp_broadcast _
  | request =>
    refine iff_of_true ?_ trivial
    obtain ⟨rfl, rfl⟩ := Prod.ext_iff.mp (Except.ok.inj hstep)
    exact wakesUp_requestLoop hw.count_succ
  | wakeUp signaled =>
    refine iff_of_true ?_ trivial
    simp only [step] at hstep
    split_ifs at hstep with hmem
    obtain ⟨rfl, rfl⟩ := Prod.ext_iff.mp (Except.ok.inj hstep)
    have hmove : (s.move (.waiting signaled) []).WakesUp :=
      hw.mono (asleep_move List.not_mem_nil) id fun h => h.move rfl
    exact wakesUp_requestLoop hmove.count_succ
  | relock =>
    refine iff_of_true ?_ trivial
    simp only [step] at hstep
    split_ifs at hstep with hmem
    obtain ⟨rfl, rfl⟩ := Prod.ext_iff.mp (Except.ok.inj hstep)
    -- the request is counted until now, and again if it allocates again
    refine wakesUp_requestLoop (hw.mono (asleep_move List.not_mem_nil) (fun h => ?_)
      fun h => h.move rfl)
    refine h.imp_right fun hroom => ⟨hroom.1, ?_⟩
    have hlt := hroom.2
    simp only [move] at hlt
    omega
  | inc a =>
    refine iff_of_true ?_ trivial
    simp only [step] at hstep
    split_ifs at hstep
    cases hstep
    exact hw.mono id id fun h => h.onHandle (f := incSbCount) (fun _ => rfl) a
  | dec a =>
    refine iff_of_true ?_ trivial
    simp only [step] at hstep
    split_ifs at hstep
    · cases hstep
      refine hw.mono id id fun h => ?_
      have hcons : ({ s with recycling := a :: s.recycling } : BufferPool).BroadcastToCome :=
        h.imp_right fun hb => hb.imp fun _ hb => ⟨List.mem_cons_of_mem _ hb.1, hb.2⟩
      exact hcons.onHandle (f := decSbCount) (fun _ => rfl) a
    · cases hstep
      exact hw.mono id id fun h => h.onHandle (f := decSbCount) (fun _ => rfl) a
  | recycle a =>
    refine iff_of_true ?_ trivial
    simp only [step] at hstep
    split_ifs at hstep
    obtain ⟨rfl, rfl⟩ := Prod.ext_iff.mp (Except.ok.inj hstep)
    exact hw.recycle a
  | setAutoAllocate bound =>
    cases hstep
    constructor
    · exact fun h hasleep hpos hlt => h hasleep (.inr ⟨hpos, hlt⟩)
    · rintro hcond hasleep (havailable | ⟨hpos, hlt⟩)
      · exact hw hasleep (.inl havailable)
      · exact hcond hasleep hpos hlt
  | setAutoFree bound =>
    refine iff_of_true ?_ trivial
    obtain ⟨rfl, rfl⟩ := Prod.ext_iff.mp (Except.ok.inj hstep)
    have hset : ({ s with mAutoFree := bound } : BufferPool).WakesUp := hw
    exact hset.autoFree
  | releaseAll =>
    obtain ⟨rfl, rfl⟩ := Prod.ext_iff.mp (Except.ok.inj hstep)
    have hserves : s.releaseAll.1.Serves ↔
        0 < s.mAutoAllocate ∧ s.mAllocatingCount < s.mAutoAllocate := by
      simp [Serves, HasRoom, BufferPool.releaseAll]
    rw [WakesUp, hc.broadcastToCome_releaseAll, hserves, and_imp]
    rfl

/-! ### Runs -/

variable {ops : List BufferOp}

/-- **No wake-up is lost** exactly in the runs in which no step rushes the requests that sleep. -/
theorem bufferWakeup_iff (hrun : bufferPool.Runs {} ops s os) :
    (∀ ops₁ ops₂ s₁ os₁, ops = ops₁ ++ ops₂ → bufferPool.Runs {} ops₁ s₁ os₁ → s₁.WakesUp) ↔
      bufferPool.RunsMeeting (fun _ => Unhurried) {} ops s os := by
  refine (Machine.Runs.meeting_iff (I := fun _ => WakesUp) (by simp [WakesUp, Asleep])
    (fun ops s os op s' o hrun hw hstep => ?_) hrun).symm
  refine wakesUp_step_iff (hrun.invariant (I := fun _ s os => s.Conserving os)
    conserving_create fun _ _ _ _ _ _ hc hstep => hc.step hstep) hw hstep

/-- The second request waits for the buffer of the first, which is handed back. -/
def handBackOps : List BufferOp :=
  [.setAutoAllocate 1, .request, .doAllocate .request true, .addToPool .request 0, .relock,
    .request, .dec 0, .recycle 0, .wakeUp true]

theorem bufferWakeup_iff_handBack : ∃ s os, bufferPool.Runs {} handBackOps s os ∧
    os = [.allocating 1, .returned 0, .returned 0] ∧
      ∀ ops₁ ops₂ s₁ os₁, handBackOps = ops₁ ++ ops₂ → bufferPool.Runs {} ops₁ s₁ os₁ →
        s₁.WakesUp := by
  obtain ⟨s, os, hrun, hos⟩ : ∃ s os, bufferPool.Runs {} handBackOps s os ∧
      os = [.allocating 1, .returned 0, .returned 0] :=
    Machine.exists_run_of_shows (by decide +kernel)
  exact ⟨s, os, hrun, hos, (bufferWakeup_iff hrun).mpr (hrun.meeting (by decide +kernel))⟩

/-- A request sleeps on an empty pool that may not grow when `setAutoAllocate` lets it grow. -/
theorem setAutoAllocate_lost : ¬ ∀ ops s os,
    .releaseAll ∉ ops → bufferPool.Runs {} ops s os → s.WakesUp := by
  obtain ⟨s, os, hrun, hasleep, hserves, hcome⟩ : ∃ s os,
      bufferPool.Runs {} [.request, .setAutoAllocate 1] s os ∧
        s.Asleep ∧ s.Serves ∧ ¬ s.BroadcastToCome :=
    Machine.exists_run_of_shows (by decide +kernel)
  intro hall
  exact hcome (hall _ s os (by simp) hrun hasleep hserves)

end BufferPool

end MtkHardware.FeaturePipe
