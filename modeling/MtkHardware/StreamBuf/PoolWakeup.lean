import MtkHardware.StreamBuf.StreamBufferPool
import Mathlib.Data.List.Count

/-!
# Waking the Callers of a Stream Buffer Pool

A caller that waits for a buffer has a condition of its own, which stays in the waiting list
until the caller has resumed. A buffer that is made available signals the first condition of the
list, signaled or not: two buffers in a row may both signal the same caller.
-/

namespace MtkHardware.StreamBuf.StreamBufferPool

variable {p p' : StreamBufferPool} {op : PoolOp} {ops : List PoolOp} {events o : List PoolEvent}
  {caller : Caller}

/-- The number of callers that have been signaled and have not resumed yet. -/
def numSignaled (p : StreamBufferPool) : ℕ := p.mWaitingList.countP (·.signaled)

def HasUnsignaled (p : StreamBufferPool) : Prop := ∃ w ∈ p.mWaitingList, w.signaled = false

/-- **No lost wake-up**: while a caller waits that has not been signaled, there are no more
available buffers than callers that have. -/
def NoLostWakeup (p : StreamBufferPool) : Prop :=
  p.HasUnsignaled → p.mlAvailableBuf.length ≤ p.numSignaled

/-- The number of buffers that `initPool` constructs. -/
def numInitial (allocates : ℕ → Bool) : ℕ → ℕ
  | 0 => 0
  | i + 1 => if allocates i then numInitial allocates i + 1 else 0

/-- The first caller of the waiting list has not been signaled, or there is a signaled caller
more than there are available buffers. -/
def CanOffer (p : StreamBufferPool) : Prop :=
  p.HasUnsignaled → (∀ w ∈ p.mWaitingList.head?, w.signaled = false) ∨
    p.mlAvailableBuf.length < p.numSignaled

/-- **The condition** on a step that makes buffers available. -/
def Wakes (p : StreamBufferPool) : PoolOp → Prop
  | .initPool szCallerName max min allocates => ValidParams szCallerName max min →
      p.HasUnsignaled → p.mlAvailableBuf.length + numInitial allocates min ≤ p.numSignaled
  | .releaseToPool b => b ∈ p.mlInUseBuf → p.CanOffer
  | .threadCommit => p.CanOffer
  | _ => True

instance (p : StreamBufferPool) : Decidable p.HasUnsignaled :=
  inferInstanceAs (Decidable (∃ w ∈ p.mWaitingList, w.signaled = false))

instance (p : StreamBufferPool) : Decidable p.CanOffer :=
  inferInstanceAs (Decidable (_ → (∀ w ∈ p.mWaitingList.head?, w.signaled = false) ∨ _))

instance (p : StreamBufferPool) : (op : PoolOp) → Decidable (p.Wakes op)
  | .initPool _ _ _ _ => inferInstanceAs (Decidable (_ → _ → _))
  | .releaseToPool _ => inferInstanceAs (Decidable (_ → _))
  | .threadCommit => inferInstanceAs (Decidable p.CanOffer)
  | .commitPool _ | .run _ | .acquireFromPool _ | .constructed _ | .wakeUp _
  | .threadConstruct _ | .threadExit => isTrue trivial

/-! ### The steps -/

theorem constructInitial_waiting {allocates : ℕ → Bool} {n : ℕ} {err : MERROR}
    (h : constructInitial allocates n p = (p', err)) :
    p'.mWaitingList = p.mWaitingList ∧
      p'.mlAvailableBuf.length = p.mlAvailableBuf.length + numInitial allocates n := by
  induction n generalizing p with
  | zero =>
    obtain ⟨rfl, rfl⟩ := Prod.mk.inj h
    exact ⟨rfl, rfl⟩
  | succ n ih =>
    rw [constructInitial, do_construct] at h
    rw [numInitial]
    cases halloc : allocates n with
    | false =>
      rw [halloc] at h
      obtain ⟨rfl, rfl⟩ := Prod.mk.inj h
      exact ⟨rfl, rfl⟩
    | true =>
      rw [halloc] at h
      obtain ⟨hwaiting, hlength⟩ := ih h
      refine ⟨hwaiting, ?_⟩
      rw [hlength, if_pos rfl]
      simp only [List.length_append, List.length_singleton]
      omega

theorem NoLostWakeup.congr (h : p.NoLostWakeup)
    (havailable : p'.mlAvailableBuf = p.mlAvailableBuf)
    (hwaiting : p'.mWaitingList = p.mWaitingList) : p'.NoLostWakeup := by
  rw [NoLostWakeup, HasUnsignaled, numSignaled] at h ⊢
  rwa [havailable, hwaiting]

theorem NoLostWakeup.of_nil (h : p.mlAvailableBuf = []) : p.NoLostWakeup := by
  intro _
  rw [h]
  exact Nat.zero_le _

theorem NoLostWakeup.take (h : p.NoLostWakeup) {b : BufferIndex} {bs : List BufferIndex}
    (havailable : p.mlAvailableBuf = b :: bs) :
    { p with mlAvailableBuf := bs, mlInUseBuf := p.mlInUseBuf ++ [b] }.NoLostWakeup := by
  intro hunsignaled
  have hle : p.mlAvailableBuf.length ≤ p.numSignaled := h hunsignaled
  rw [havailable, List.length_cons] at hle
  exact Nat.le_of_succ_le hle

/-- A caller that resumes with a buffer leaves the others with enough signaled callers, itself
signaled or not. -/
theorem NoLostWakeup.resume (h : p.NoLostWakeup) {b : BufferIndex} {bs : List BufferIndex}
    (hwaits : p.mWaitingList.any (·.caller == caller) = true)
    (havailable : p.mlAvailableBuf = b :: bs) :
    { p with
      mWaitingList := p.mWaitingList.eraseP (·.caller == caller)
      mlAvailableBuf := bs
      mlInUseBuf := p.mlInUseBuf ++ [b] }.NoLostWakeup := by
  rw [List.any_eq_true] at hwaits
  obtain ⟨w, hw, hcaller⟩ := hwaits
  obtain ⟨w, ws₁, ws₂, -, -, hws, herase⟩ :=
    List.exists_of_eraseP (p := (·.caller == caller)) hw hcaller
  rintro ⟨w', hw', hunsignaled⟩
  have hle : p.mlAvailableBuf.length ≤ p.numSignaled :=
    h ⟨w', List.mem_of_mem_eraseP hw', hunsignaled⟩
  rw [havailable, List.length_cons, numSignaled, hws, List.countP_append,
    List.countP_cons] at hle
  rw [numSignaled]
  simp only [herase, List.countP_append]
  split at hle <;> omega

theorem signalUserLocked_available (p : StreamBufferPool) :
    p.signalUserLocked.mlAvailableBuf = p.mlAvailableBuf := by
  rw [signalUserLocked]
  split <;> rfl

/-- **What an offer does**: a buffer that is made available with a signal loses no wake-up
exactly when the signal is not wasted. -/
theorem NoLostWakeup.offer_iff (h : p.NoLostWakeup)
    (havailable : p'.mlAvailableBuf.length = p.mlAvailableBuf.length + 1)
    (hwaiting : p'.mWaitingList = p.mWaitingList) :
    p'.signalUserLocked.NoLostWakeup ↔ p.CanOffer := by
  rw [NoLostWakeup, HasUnsignaled, numSignaled] at h ⊢
  rw [signalUserLocked_available, havailable, CanOffer, HasUnsignaled, numSignaled]
  rw [signalUserLocked, hwaiting]
  cases hws : p.mWaitingList with
  | nil => simp [hwaiting, hws]
  | cons w ws =>
    rw [hws] at h
    simp only [List.mem_cons, exists_eq_or_imp, List.countP_cons, List.head?_cons,
      Option.mem_def, Option.some_inj, forall_eq', Bool.true_eq_false, false_or,
      if_true] at h ⊢
    cases hsignaled : w.signaled with
    | false =>
      simp only [hsignaled, true_or, implies_true, iff_true, forall_true_left,
        Bool.false_eq_true, if_false] at h ⊢
      omega
    | true =>
      simp only [Bool.true_eq_false, false_or, if_true]
      exact Iff.rfl

theorem NoLostWakeup.step_iff (h : p.NoLostWakeup) (hstep : p.Step op p') :
    p'.NoLostWakeup ↔ p.Wakes op := by
  cases hstep with
  | @initPool p₁ name max min allocates hlocked hvalid hloop =>
    obtain ⟨hwaiting, hlength⟩ := constructInitial_waiting hloop
    simp only [NoLostWakeup, HasUnsignaled, numSignaled, Wakes, hwaiting, hlength, hvalid,
      forall_true_left]
  | initPool_failed hlocked hvalid herr hloop =>
    obtain ⟨hwaiting, hlength⟩ := constructInitial_waiting hloop
    simp only [NoLostWakeup, HasUnsignaled, numSignaled, Wakes, hwaiting, hlength, hvalid,
      forall_true_left]
  | initPool_invalid hvalid => exact iff_of_true h fun hvalid' => absurd hvalid' hvalid
  | commitPool committing => exact iff_of_true (h.congr rfl rfl) trivial
  | run_refused committing => exact iff_of_true (h.congr rfl rfl) trivial
  | run committing hidle => exact iff_of_true (h.congr rfl rfl) trivial
  | take havailable => exact iff_of_true (h.take havailable) trivial
  | construct hlocked hidle hcnt => exact iff_of_true (h.congr rfl rfl) trivial
  | wait havailable => exact iff_of_true (.of_nil havailable) trivial
  | constructed hlocked => exact iff_of_true (h.congr rfl rfl) trivial
  | constructed_failed hlocked => exact iff_of_true (h.congr rfl rfl) trivial
  | wakeUp_take hwaits havailable => exact iff_of_true (h.resume hwaits havailable) trivial
  | wakeUp_timedOut havailable => exact iff_of_true (.of_nil havailable) trivial
  | releaseToPool hmem =>
    refine (h.offer_iff ?_ ?_).trans ⟨fun hoffer _ => hoffer, fun hwakes => hwakes hmem⟩
    · simp only [List.length_append, List.length_singleton]
    · rfl
  | releaseToPool_unknown hmem => exact iff_of_true h fun hmem' => absurd hmem' hmem
  | threadConstruct hthread => exact iff_of_true (h.congr rfl rfl) trivial
  | threadConstruct_failed => exact iff_of_true h trivial
  | threadCommit thread hthread hlocked hnext =>
    refine h.offer_iff ?_ ?_
    · simp only [List.length_append, List.length_singleton]
    · rfl
  | threadExit hthread => exact iff_of_true (h.congr rfl rfl) trivial

/-- **No lost wake-up**: in a run, none is lost in any state exactly when all its steps meet the
condition. -/
theorem noLostWakeup_iff (h : poolMachine.Runs {} ops p events) :
    (∀ ops₁ ops₂ p₁ events₁, ops = ops₁ ++ ops₂ → poolMachine.Runs {} ops₁ p₁ events₁ →
      p₁.NoLostWakeup) ↔ poolMachine.RunsMeeting (fun _ => Wakes) {} ops p events := by
  refine (h.meeting_iff (I := fun _ => NoLostWakeup) (.of_nil rfl) ?_).symm
  intro _ _ _ _ _ _ _ hinv hstep
  exact hinv.step_iff (step_of_poolMachine hstep)

/-- Two buffers are in use, and two more callers wait for one. -/
def twoWait : List PoolOp :=
  [.initPool (some "pool") 2 2 fun _ => true, .acquireFromPool 1, .acquireFromPool 2,
    .acquireFromPool 3, .acquireFromPool 4]

/-- A release that is followed by the caller that it wakes. -/
theorem noLostWakeup_iff_twoWait : ∃ p events,
    poolMachine.Runs {} (twoWait ++ [.releaseToPool 0, .wakeUp 3, .releaseToPool 1]) p events ∧
      p.mWaitingList = [{ caller := 4, signaled := true }] ∧ p.NoLostWakeup := by
  have hobserve : ((poolMachine.observe {}
      (twoWait ++ [.releaseToPool 0, .wakeUp 3, .releaseToPool 1]) mWaitingList).map (·.1)) =
        some [{ caller := 4, signaled := true }] := by decide
  obtain ⟨⟨view, events⟩, hview, rfl⟩ := Option.map_eq_some_iff.mp hobserve
  obtain ⟨p, hrun, hp⟩ := Machine.exists_run_of_observe hview
  have hmeeting := hrun.meeting (C := Wakes) (by decide)
  exact ⟨p, events, hrun, hp,
    (noLostWakeup_iff hrun).mpr hmeeting _ [] p events (List.append_nil _).symm hrun⟩

/-- Two releases in a row signal the same caller: the other one waits on, with two buffers
available and one caller to take one. -/
theorem releasedTwice_lost : ∃ p events,
    poolMachine.Runs {} (twoWait ++ [.releaseToPool 0, .releaseToPool 1]) p events ∧
      p.mlAvailableBuf = [0, 1] ∧
      p.mWaitingList = [{ caller := 3, signaled := true }, { caller := 4 }] ∧
      ¬ p.NoLostWakeup := by
  have hobserve : ((poolMachine.observe {} (twoWait ++ [.releaseToPool 0, .releaseToPool 1])
      fun p => (p.mlAvailableBuf, p.mWaitingList)).map (·.1)) =
        some ([0, 1], [{ caller := 3, signaled := true }, { caller := 4 }]) := by decide
  obtain ⟨⟨view, events⟩, hview, rfl⟩ := Option.map_eq_some_iff.mp hobserve
  obtain ⟨p, hrun, hp⟩ := Machine.exists_run_of_observe hview
  obtain ⟨havailable, hwaiting⟩ := Prod.mk.inj hp
  refine ⟨p, events, hrun, havailable, hwaiting, fun hlost => ?_⟩
  have hle := hlost ⟨{ caller := 4 }, by simp [hwaiting], rfl⟩
  rw [havailable, numSignaled, hwaiting] at hle
  revert hle
  decide

end MtkHardware.StreamBuf.StreamBufferPool
