import MtkHardware.LegacyPipeline.ResultProcessor

/-!
# Waking the Thread of a Result Processor

The thread waits for results only: it sleeps while `mResultQueue` is empty, whatever is in the
other two queues that it drains. An early metadata wakes it up in vain, and a frame end does not
wake it up at all.
-/

namespace MtkHardware.LegacyPipeline.ResultProcessor

variable {p p' : ResultProcessor} {op : ResultOp} {ops : List ResultOp}
  {events o : List ResultEvent}

/-- Is `flush` about to broadcast `mResultQueueCond`? -/
def broadcastComes (p : ResultProcessor) : Bool :=
  p.flushAt == .exitRequested || p.flushAt == .listenersCleared

/-- The thread sleeps, has not been signaled, and nobody is about to. -/
def Asleep (p : ResultProcessor) : Prop := p.thread = .waiting false ∧ p.broadcastComes = false

/-- There is neither a frame end nor an early metadata to handle. -/
def OnlyResults (p : ResultProcessor) : Prop :=
  p.mFrameEndList = [] ∧ p.mEarlyResultQueue.entries = []

/-- **No stuck event**: the thread does not sleep while there is something in one of the queues
that it drains. -/
def NoStuckEvent (p : ResultProcessor) : Prop :=
  p.Asleep → p.mResultQueue.entries = [] ∧ p.OnlyResults

/-- **The condition** on a step: a frame end comes while the thread is awake, and the thread does
not go to sleep on a frame end or an early metadata. -/
def WakesThread (p : ResultProcessor) : ResultOp → Prop
  | .updateFrame _ result => p.exitPending = false → result.bFrameEnd = true →
      p.thread ≠ .waiting false
  | .dequeResult | .wakeUp => p.exitPending = false → p.mResultQueue.entries = [] → p.OnlyResults
  | .onMetaCallback _ _ _ _ | .handleResult | .flush | .drop _ => True

instance (p : ResultProcessor) : Decidable p.OnlyResults :=
  inferInstanceAs (Decidable (_ ∧ _))

instance (p : ResultProcessor) : Decidable p.NoStuckEvent :=
  inferInstanceAs (Decidable (_ ∧ _ → _ ∧ _))

instance (p : ResultProcessor) : (op : ResultOp) → Decidable (p.WakesThread op)
  | .updateFrame _ _ => inferInstanceAs (Decidable (_ → _ → _))
  | .dequeResult | .wakeUp => inferInstanceAs (Decidable (_ → _ → _))
  | .onMetaCallback _ _ _ _ | .handleResult | .flush | .drop _ => isTrue trivial

/-! ### The steps -/

theorem NoStuckEvent.of_awake (h : p.thread ≠ .waiting false) : p.NoStuckEvent :=
  fun hasleep => absurd hasleep.1 h

theorem thread_broadcast (p : ResultProcessor) : p.broadcast.thread ≠ .waiting false := by
  rw [broadcast]
  split
  · simp
  · rename_i hthread
    exact hthread false

theorem noStuckEvent_updateFrame_iff (h : p.NoStuckEvent) (requestNo : ℕ)
    (result : FrameResult) :
    (p.updateFrame requestNo result).NoStuckEvent ↔
      p.WakesThread (.updateFrame requestNo result) := by
  rw [updateFrame, WakesThread]
  split
  · rename_i hexit
    exact iff_of_true h fun hpending => absurd hexit (by simp [hpending])
  · rename_i hexit
    rw [Bool.not_eq_true] at hexit
    split
    · rename_i hend
      have hcomes : p.broadcastComes = false := by
        rw [exitPending, bne_eq_false_iff_eq] at hexit
        rw [broadcastComes, hexit]
        rfl
      constructor
      · intro hstuck _ _ hthread
        obtain ⟨-, hnil, -⟩ := hstuck ⟨hthread, hcomes⟩
        simp at hnil
      · exact fun hawake => .of_awake (hawake hexit hend)
    · rename_i hend
      exact iff_of_true (.of_awake (thread_broadcast _)) fun _ hend' => absurd hend' hend

theorem NoStuckEvent.onMetaCallback (h : p.NoStuckEvent) (item : EarlyResultItem) :
    (p.onMetaCallback item).NoStuckEvent := by
  rw [ResultProcessor.onMetaCallback]
  split
  · exact h
  · split
    · exact h
    · exact .of_awake (thread_broadcast _)

/-- The thread leaves nothing stuck exactly when it does not go to sleep on a frame end or an
early metadata. -/
theorem noStuckEvent_dequeResult_iff :
    p.dequeResult.NoStuckEvent ↔
      (p.exitPending = false → p.mResultQueue.entries = [] → p.OnlyResults) := by
  rw [dequeResult]
  split
  · rename_i hempty
    rw [List.isEmpty_iff] at hempty
    split
    · rename_i hexit
      refine iff_of_true (.of_awake ?_) fun hpending => absurd hexit (by simp [hpending])
      rw [loop, if_pos hexit]
      simp
    · rename_i hexit
      rw [Bool.not_eq_true] at hexit
      have hcomes : p.broadcastComes = false := by
        rw [exitPending, bne_eq_false_iff_eq] at hexit
        rw [broadcastComes, hexit]
        rfl
      constructor
      · exact fun hstuck _ _ => (hstuck ⟨rfl, hcomes⟩).2
      · exact fun honly _ => ⟨hempty, honly hexit hempty⟩
  · rename_i hempty
    refine iff_of_true (.of_awake (by simp)) fun _ hnil => absurd ?_ hempty
    rw [hnil, List.isEmpty_nil]

theorem thread_handleResult {rvResult : BufQue} {rvEarlyResult : EBufQue} {rvFrameEnd : List ℕ}
    (hthread : p.thread ≠ .waiting false) :
    (p.handleResult rvResult rvEarlyResult rvFrameEnd).1.thread ≠ .waiting false := by
  rw [handleResult]
  dsimp only
  split
  · exact hthread
  · simp only [loop]
    split <;> simp

theorem NoStuckEvent.flush (h : p.NoStuckEvent) (hflush : p.flush = .ok p') :
    p'.NoStuckEvent := by
  rw [ResultProcessor.flush] at hflush
  split at hflush
  · cases hflush
    rintro ⟨-, hcomes⟩
    simp [broadcastComes] at hcomes
  · cases hflush
    rintro ⟨-, hcomes⟩
    simp [broadcastComes] at hcomes
  · cases hflush
    exact .of_awake (thread_broadcast _)
  · rename_i hat
    cases hflush
    rintro ⟨hthread, -⟩
    exact h ⟨hthread, by rw [broadcastComes, hat]; rfl⟩
  · split at hflush
    · rename_i hexited
      cases hflush
      exact .of_awake (by simp [hexited])
    · cases hflush
  · cases hflush

/-- **One step**: from a state where nothing is stuck, it leaves nothing stuck exactly when it
meets the condition. -/
theorem NoStuckEvent.step_iff (h : p.NoStuckEvent) (hstep : resultProcessor p op = .ok (p', o)) :
    p'.NoStuckEvent ↔ p.WakesThread op := by
  rw [resultProcessor] at hstep
  unfold step at hstep
  split at hstep
  · cases hstep
  cases op with
  | updateFrame requestNo result =>
    obtain ⟨rfl, rfl⟩ := Prod.ext_iff.mp (Except.ok.inj hstep)
    exact noStuckEvent_updateFrame_iff h requestNo result
  | onMetaCallback requestNo streamId rMetaData errorResult =>
    obtain ⟨rfl, rfl⟩ := Prod.ext_iff.mp (Except.ok.inj hstep)
    exact iff_of_true (h.onMetaCallback _) trivial
  | dequeResult =>
    dsimp only at hstep
    split at hstep
    · obtain ⟨rfl, rfl⟩ := Prod.ext_iff.mp (Except.ok.inj hstep)
      exact noStuckEvent_dequeResult_iff
    · cases hstep
  | wakeUp =>
    dsimp only at hstep
    split at hstep
    · obtain ⟨rfl, rfl⟩ := Prod.ext_iff.mp (Except.ok.inj hstep)
      exact noStuckEvent_dequeResult_iff
    · cases hstep
  | handleResult =>
    dsimp only at hstep
    split at hstep
    · rename_i rvResult rvEarlyResult rvFrameEnd hthread
      have hp' : (p.handleResult rvResult rvEarlyResult rvFrameEnd).1 = p' :=
        congrArg Prod.fst (Except.ok.inj hstep)
      refine iff_of_true (.of_awake ?_) trivial
      rw [← hp']
      exact thread_handleResult (by simp [hthread])
    · cases hstep
  | flush =>
    dsimp only at hstep
    split at hstep
    · rename_i hflush
      obtain ⟨rfl, rfl⟩ := Prod.ext_iff.mp (Except.ok.inj hstep)
      exact iff_of_true (h.flush hflush) trivial
    · cases hstep
  | drop listener =>
    obtain ⟨rfl, rfl⟩ := Prod.ext_iff.mp (Except.ok.inj hstep)
    exact iff_of_true h trivial

/-- **No stuck event**: in a run of a processor that is started with any listeners, the thread
never sleeps on an event exactly when all steps meet the condition. -/
theorem noStuckEvent_iff {range full : List RangeListener} {stream : List StreamListener}
    {early : List IListener}
    (h : resultProcessor.Runs (started range full stream early) ops p events) :
    (∀ ops₁ ops₂ p₁ events₁, ops = ops₁ ++ ops₂ →
      resultProcessor.Runs (started range full stream early) ops₁ p₁ events₁ →
        p₁.NoStuckEvent) ↔
      resultProcessor.RunsMeeting (fun _ => WakesThread) (started range full stream early) ops p
        events := by
  refine (h.meeting_iff (I := fun _ => NoStuckEvent) (.of_awake (by simp [started])) ?_).symm
  intro _ _ _ _ _ _ _ hinv hstep
  exact hinv.step_iff hstep

def lastUpdate : FrameResult where
  nAppOutMetaLeft := 0
  vAppOutMeta := [{ streamId := 1, metadata := .empty }]
  nHalOutMetaLeft := 0
  vHalOutMeta := [{ streamId := 2, metadata := .empty }]

def frameEnd : FrameResult where
  nAppOutMetaLeft := 0
  vAppOutMeta := []
  nHalOutMetaLeft := 0
  vHalOutMeta := []
  bFrameEnd := true

/-- A frame whose end comes before the thread has taken its results. -/
theorem noStuckEvent_iff_frame : ∃ p events,
    resultProcessor.Runs (started [] [⟨0, 9, 7⟩] [] [])
      [.onMetaCallback 0 3 .empty false, .updateFrame 0 lastUpdate, .updateFrame 0 frameEnd,
        .dequeResult, .handleResult, .dequeResult] p events ∧
      p.thread = .waiting false ∧ p.NoStuckEvent := by
  obtain ⟨p, events, hrun, hthread⟩ : ∃ p events,
      resultProcessor.Runs (started [] [⟨0, 9, 7⟩] [] [])
        [.onMetaCallback 0 3 .empty false, .updateFrame 0 lastUpdate, .updateFrame 0 frameEnd,
          .dequeResult, .handleResult, .dequeResult] p events ∧ p.thread = .waiting false :=
    Machine.exists_run_of_shows (by decide)
  have hmeeting := hrun.meeting (C := WakesThread) (by decide)
  exact ⟨p, events, hrun, hthread,
    (noStuckEvent_iff hrun).mpr hmeeting _ [] p events (List.append_nil _).symm hrun⟩

/-- The end of the last frame comes when its results have been handled: the thread sleeps, and
nobody is told of the frame end. -/
theorem lastFrameEnd_stuck :
    ¬ ∀ ops p events, resultProcessor.Runs (started [] [⟨0, 9, 7⟩] [] []) ops p events →
      p.NoStuckEvent := by
  intro hall
  obtain ⟨p, events, hrun, hstuck⟩ : ∃ p events,
      resultProcessor.Runs (started [] [⟨0, 9, 7⟩] [] [])
        [.updateFrame 0 lastUpdate, .dequeResult, .handleResult, .dequeResult,
          .updateFrame 0 frameEnd] p events ∧ ¬ p.NoStuckEvent :=
    Machine.exists_run_of_shows (by decide)
  exact hstuck (hall _ p events hrun)

end MtkHardware.LegacyPipeline.ResultProcessor
