import MtkHardware.LegacyPipeline.RequestThread

/-!
# Waking a Request Thread in a Pause

The default thread looks for a request with `mRequestLock`, and at the pause with
`mDesStreamSeForPausetLock`, before it waits for `mCondDesStreamSetForPause`. It does not look
again. `submitRequest` signals without the mutex of the condition, and so does `requestExit`, before
it has set the exit flag: a signal that comes between the looks and the wait is lost.
-/

namespace MtkHardware.LegacyPipeline.RequestThread

variable {t t' : RequestThread} {op : RequestOp} {ops : List RequestOp}
  {events o : List RequestEvent} {range : RequestRange}

/-- The thread sleeps, has not been signaled, and no call is about to signal. `resumePipeline`
signals in the step that ends the pause, and `requestExit` signals first. -/
def Asleep (t : RequestThread) : Prop := t.loopAt = .waiting false ∧ t.submitting = false

/-- There is no reason to wake up: the pause goes on, no external request is queued, and no exit
has been requested. -/
structure MaySleep (t : RequestThread) : Prop where
  pausing : t.mIsPausingPipeline = true
  queue : t.mRequestQueue = []
  exit : t.exitAt = .notCalled

/-- **No lost wake-up**: the thread sleeps only while there is no reason to wake up. -/
def NoLostWakeup (t : RequestThread) : Prop := t.Asleep → t.MaySleep

/-- **The condition** on a step of the default thread: it goes to sleep with an empty queue and no
call of `requestExit`, or with a signal to come. -/
def SleepsWell (t : RequestThread) : RequestOp → Prop
  | .submit => match t.loopAt with
      | .holding _ next => t.mIsPausingPipeline = true → next.vDstStreams = [] →
          t.mvDstStreamsForPausePipeline = [] → t.submitting = false →
            t.mRequestQueue = [] ∧ t.exitAt = .notCalled
      | _ => True
  | _ => True

instance (t : RequestThread) : Decidable t.MaySleep :=
  decidable_of_iff (t.mIsPausingPipeline = true ∧ t.mRequestQueue = [] ∧ t.exitAt = .notCalled)
    ⟨fun h => ⟨h.1, h.2.1, h.2.2⟩, fun h => ⟨h.1, h.2, h.3⟩⟩

instance (t : RequestThread) : Decidable t.NoLostWakeup :=
  inferInstanceAs (Decidable (_ ∧ _ → _))

instance (t : RequestThread) : (op : RequestOp) → Decidable (t.SleepsWell op)
  | .submit =>
    match h : t.loopAt with
    | .holding _ next =>
      decidable_of_iff (t.mIsPausingPipeline = true → next.vDstStreams = [] →
        t.mvDstStreamsForPausePipeline = [] → t.submitting = false →
          t.mRequestQueue = [] ∧ t.exitAt = .notCalled) (by simp only [SleepsWell, h])
    | .looping | .entered | .frame _ | .unpaused | .waiting _ | .exited =>
      isTrue (by simp only [SleepsWell, h])
  | .submitRequest _ | .signal | .pausePipeline _ | .resumePipeline | .requestExit | .enter
  | .checkPause _ | .waitForNextRequest _ | .wakeUp => isTrue trivial

/-! ### The steps -/

theorem NoLostWakeup.of_awake (h : t.loopAt ≠ .waiting false) : t.NoLostWakeup :=
  fun hasleep => absurd hasleep.1 h

theorem loopAt_signal (t : RequestThread) : t.signal.loopAt ≠ .waiting false := by
  rw [signal]
  split
  · simp
  · rename_i hloop
    exact hloop false

theorem NoLostWakeup.enter (h : t.enter .default = .ok t') : t'.NoLostWakeup := by
  rw [RequestThread.enter] at h
  split at h
  · split at h
    · cases h
      exact .of_awake (by simp)
    · cases h
      exact .of_awake (by simp)
  · cases h

theorem NoLostWakeup.take {support : Support} (h : t.take .default support = .ok (t', o)) :
    t'.NoLostWakeup := by
  rw [RequestThread.take] at h
  split at h
  · cases h
  · split at h
    · cases h
    · split at h
      · cases h
        exact .of_awake (by simp)
      · cases h
        exact .of_awake (by simp)

theorem NoLostWakeup.requestExit (hinv : t.NoLostWakeup) (h : t.requestExit = .ok t') :
    t'.NoLostWakeup := by
  rw [RequestThread.requestExit] at h
  split at h
  · cases h
    exact .of_awake (loopAt_signal _)
  · rename_i hexit
    cases h
    rintro ⟨hloop, hsubmitting⟩
    have hnot := (hinv ⟨hloop, hsubmitting⟩).exit
    rw [hexit] at hnot
    cases hnot
  · split at h
    · rename_i hexited
      cases h
      exact .of_awake (by simp [hexited])
    · cases h
  · cases h

theorem noLostWakeup_submit_iff (h : t.submit .default = .ok (t', o)) :
    t'.NoLostWakeup ↔ t.SleepsWell .submit := by
  rw [submit] at h
  split at h
  · rename_i i next hloop
    simp only [SleepsWell, hloop]
    simp only [Except.ok.injEq, submitDefault] at h
    split at h
    · rename_i hpause
      rw [Bool.and_eq_true, List.isEmpty_iff] at hpause
      split at h
      · rename_i hnone
        rw [List.isEmpty_iff] at hnone
        obtain ⟨rfl, -⟩ := Prod.mk.inj h
        constructor
        · intro hwakeup _ _ _ hsubmitting
          obtain ⟨-, hqueue, hexit⟩ := hwakeup ⟨rfl, hsubmitting⟩
          exact ⟨hqueue, hexit⟩
        · rintro hsleeps ⟨-, hsubmitting⟩
          obtain ⟨hqueue, hexit⟩ := hsleeps hpause.1 hpause.2 hnone hsubmitting
          exact ⟨hpause.1, hqueue, hexit⟩
      · rename_i hsome
        obtain ⟨rfl, -⟩ := Prod.mk.inj h
        refine iff_of_true (.of_awake (by simp)) fun _ _ hnone => absurd ?_ hsome
        rw [hnone, List.isEmpty_nil]
    · rename_i hpause
      obtain ⟨rfl, -⟩ := Prod.mk.inj h
      refine iff_of_true (.of_awake (by simp)) fun hpausing hempty => absurd ?_ hpause
      rw [hpausing, hempty]
      rfl
  · cases h

/-- **One step** of a caller or of the default thread: from a state where no wake-up is lost, it
loses none exactly when it meets the condition. -/
theorem NoLostWakeup.step_iff (h : t.NoLostWakeup)
    (hstep : requestThread .default t op = .ok (t', o)) : t'.NoLostWakeup ↔ t.SleepsWell op := by
  rw [requestThread] at hstep
  unfold step at hstep
  cases op with
  | submitRequest items =>
    dsimp only at hstep
    split at hstep
    · cases hstep
    · obtain ⟨rfl, rfl⟩ := Prod.ext_iff.mp (Except.ok.inj hstep)
      refine iff_of_true ?_ trivial
      rintro ⟨-, hsubmitting⟩
      cases hsubmitting
  | signal =>
    dsimp only at hstep
    split at hstep
    · obtain ⟨rfl, rfl⟩ := Prod.ext_iff.mp (Except.ok.inj hstep)
      exact iff_of_true (.of_awake (loopAt_signal _)) trivial
    · cases hstep
  | pausePipeline vDstStreams =>
    obtain ⟨rfl, rfl⟩ := Prod.ext_iff.mp (Except.ok.inj hstep)
    exact iff_of_true (fun hasleep => ⟨rfl, (h hasleep).queue, (h hasleep).exit⟩) trivial
  | resumePipeline =>
    obtain ⟨rfl, rfl⟩ := Prod.ext_iff.mp (Except.ok.inj hstep)
    exact iff_of_true (.of_awake (loopAt_signal _)) trivial
  | requestExit =>
    cases hexit : t.requestExit with
    | error e => simp only [hexit, Except.map, reduceCtorEq] at hstep
    | ok t₁ =>
      simp only [hexit, Except.map, Except.ok.injEq, Prod.mk.injEq] at hstep
      obtain ⟨rfl, rfl⟩ := hstep
      exact iff_of_true (h.requestExit hexit) trivial
  | enter =>
    cases henter : t.enter .default with
    | error e => simp only [henter, Except.map, reduceCtorEq] at hstep
    | ok t₁ =>
      simp only [henter, Except.map, Except.ok.injEq, Prod.mk.injEq] at hstep
      obtain ⟨rfl, rfl⟩ := hstep
      exact iff_of_true (.enter henter) trivial
  | checkPause requestNumber => simp [checkPause] at hstep
  | waitForNextRequest support => exact iff_of_true (.take hstep) trivial
  | submit => exact noLostWakeup_submit_iff hstep
  | wakeUp =>
    dsimp only at hstep
    split at hstep
    · obtain ⟨rfl, rfl⟩ := Prod.ext_iff.mp (Except.ok.inj hstep)
      exact iff_of_true (.of_awake (by simp)) trivial
    · cases hstep

/-- **No lost wake-up**: in a run of a default thread that is started with any range, no wake-up is
lost in any state exactly when all steps meet the condition. -/
theorem pauseWakeup_iff (h : (requestThread .default).Runs (start range) ops t events) :
    (∀ ops₁ ops₂ t₁ events₁, ops = ops₁ ++ ops₂ →
      (requestThread .default).Runs (start range) ops₁ t₁ events₁ → t₁.NoLostWakeup) ↔
      (requestThread .default).RunsMeeting (fun _ => SleepsWell) (start range) ops t events := by
  refine (h.meeting_iff (I := fun _ => NoLostWakeup) (.of_awake (by simp [start])) ?_).symm
  intro _ _ _ _ _ _ _ hinv hstep
  exact hinv.step_iff hstep

def upToNine : RequestRange where
  mRequestNumberMin := 0
  mRequestNumberMax := 9
  min_le_max := RequestRange.zero_le_nine
  le_min := RequestRange.le_zero
  max_lt := RequestRange.nine_lt

def imageRequest : RequestItem where
  setting := { appSetting := .empty, halSetting := .empty }
  dstStreams := [{ streamId := eSTREAMID_IMAGE_PIPE_RAW_RESIZER }]

/-- A pause in which the thread sleeps, is woken by a request, and goes to sleep again. -/
theorem pauseWakeup_iff_woken : ∃ t events,
    (requestThread .default).Runs (start upToNine)
      [.pausePipeline [], .enter, .waitForNextRequest (.ok .empty .empty), .submit,
        .submitRequest [imageRequest], .signal, .wakeUp, .enter,
        .waitForNextRequest (.ok .empty .empty), .submit, .enter,
        .waitForNextRequest (.ok .empty .empty), .submit] t events ∧
      t.loopAt = .waiting false ∧ t.NoLostWakeup := by
  obtain ⟨t, events, hrun, hloop⟩ : ∃ t events,
      (requestThread .default).Runs (start upToNine)
        [.pausePipeline [], .enter, .waitForNextRequest (.ok .empty .empty), .submit,
          .submitRequest [imageRequest], .signal, .wakeUp, .enter,
          .waitForNextRequest (.ok .empty .empty), .submit, .enter,
          .waitForNextRequest (.ok .empty .empty), .submit] t events ∧
      t.loopAt = .waiting false :=
    Machine.exists_run_of_shows (by decide)
  have hmeeting := hrun.meeting (C := SleepsWell) (by decide)
  exact ⟨t, events, hrun, hloop,
    (pauseWakeup_iff hrun).mpr hmeeting _ [] t events (List.append_nil _).symm hrun⟩

/-- A request is submitted, and signaled, after the thread has found the queue empty and before it
waits: the thread sleeps while the request is queued. -/
theorem signalBeforeWait_lost :
    ¬ ∀ ops t events, (requestThread .default).Runs (start upToNine) ops t events →
      t.NoLostWakeup := by
  intro hall
  obtain ⟨t, events, hrun, hlost⟩ : ∃ t events,
      (requestThread .default).Runs (start upToNine)
        [.pausePipeline [], .enter, .waitForNextRequest (.ok .empty .empty),
          .submitRequest [imageRequest], .signal, .submit] t events ∧ ¬ t.NoLostWakeup :=
    Machine.exists_run_of_shows (by decide)
  exact hlost (hall _ t events hrun)

end MtkHardware.LegacyPipeline.RequestThread
