import MtkHardware.LegacyPipeline.BaseSelector

/-!
# The Selector of Flash Captures

`ZsdFlashSelector` keeps one result, that of the request it has been told to wait for. A result
that matches is stored and wakes up all callers that wait; `getResult` waits first, whatever is
stored, and looks at the result after it has been woken up.

A caller waits until it is woken up, which a signal may do or nothing at all, or until the time is
over. A caller that has a signal does not run out of time.
-/

namespace MtkHardware.LegacyPipeline

/-- The result that is kept, and the callers that wait, with whether they have a signal. -/
structure ZsdFlashSelector extends BaseSelector where
  mWaitRequestNo : ℤ
  mResultHeapSet : List BufferItemSet := []
  mResultMeta : List MetaItemSet := []
  waiting : KeyedVector Caller Bool := .empty
  /-- The result that `selectResult` has stored, until it is got or flushed. -/
  stored : Option (List MetaItemSet × List BufferItemSet) := none

inductive ZsdFlashOp
  | selectResult (rRequestNo : ℤ) (rvResult : List MetaItemSet) (rvBuffers : List BufferItemSet)
      (errorResult : Bool)
  | getResult (caller : Caller)
  | wakeUp (caller : Caller)
  | timeOut (caller : Caller)
  | returnBuffer (rBuffer : BufferItemSet)
  | flush
  | setWaitRequestNo (requestNo : ℤ)
  | pools (op : PoolOp)

namespace ZsdFlashSelector

def new (waitRequestNo : ℤ) : ZsdFlashSelector := { mWaitRequestNo := waitRequestNo }

def selectResult (s : ZsdFlashSelector) (rRequestNo : ℤ) (rvResult : List MetaItemSet)
    (rvBuffers : List BufferItemSet) : ZsdFlashSelector × List SelectorEvent :=
  if s.mWaitRequestNo = rRequestNo then
    let returned :=
      if s.mResultHeapSet.length ≠ 0 then (s.returnBuffersToPool s.mResultHeapSet).2 else []
    ({ s with
        mResultHeapSet := rvBuffers
        mResultMeta := rvResult
        waiting := s.waiting.mapVal fun _ _ => true
        stored := some (rvResult, rvBuffers) },
      returned ++ [.answered .ok])
  else (s, (s.returnBuffersToPool rvBuffers).2 ++ [.answered .ok])

/-- A caller that has been woken up gets what there is. -/
def takeResult (s : ZsdFlashSelector) (caller : Caller) :
    ZsdFlashSelector × List SelectorEvent :=
  ({ s with mResultHeapSet := [], stored := none },
    [.got caller s.mWaitRequestNo s.mResultMeta s.mResultHeapSet])

def returnBuffer (s : ZsdFlashSelector) (rBuffer : BufferItemSet) : List SelectorEvent :=
  let returned := s.returnBufferToPool rBuffer
  returned.2 ++ [.answered returned.1]

def flush (s : ZsdFlashSelector) : ZsdFlashSelector × List SelectorEvent :=
  let returned :=
    if s.mResultHeapSet.length ≠ 0 then (s.returnBuffersToPool s.mResultHeapSet).2 else []
  ({ s with mResultHeapSet := [], stored := none }, returned ++ [.answered .ok])

end ZsdFlashSelector

/-- The selector as a machine. A caller that waits calls nothing. -/
def zsdFlashMachine : Machine ZsdFlashSelector ZsdFlashOp SelectorEvent Blocked
  | s, .selectResult rRequestNo rvResult rvBuffers _ =>
    let selected := s.selectResult rRequestNo rvResult rvBuffers
    .ok (selected.1, .handed rvBuffers :: selected.2)
  | s, .getResult caller =>
    match s.waiting.find? caller with
    | some _ => .error .blocked
    | none => .ok ({ s with waiting := s.waiting.add caller false }, [])
  | s, .wakeUp caller =>
    match s.waiting.find? caller with
    | none => .error .blocked
    | some _ => .ok ({ s with waiting := s.waiting.remove caller }.takeResult caller)
  | s, .timeOut caller =>
    match s.waiting.find? caller with
    | some false =>
      .ok ({ s with waiting := s.waiting.remove caller }, [.noResult caller .timedOut])
    | _ => .error .blocked
  | s, .returnBuffer rBuffer => .ok (s, s.returnBuffer rBuffer)
  | s, .flush => .ok s.flush
  | s, .setWaitRequestNo requestNo => .ok ({ s with mWaitRequestNo := requestNo }, [])
  | s, .pools op => .ok ({ s with toBaseSelector := s.toBaseSelector.update op }, [])

namespace ZsdFlashSelector

variable {s s' : ZsdFlashSelector} {op : ZsdFlashOp} {ops : List ZsdFlashOp}
  {o os : List SelectorEvent} {caller : Caller} {no : ℤ}

/-- **No caller is blocked while a result is stored.** -/
def NoLostResult (s : ZsdFlashSelector) : Prop :=
  s.stored.isSome = true → ∀ caller, s.waiting.find? caller ≠ some false

def ComesFirst (s : ZsdFlashSelector) : ZsdFlashOp → Prop
  | .getResult _ => s.stored = none
  | _ => True

instance : ∀ (s : ZsdFlashSelector) (op : ZsdFlashOp), Decidable (ComesFirst s op)
  | s, .getResult _ => inferInstanceAs (Decidable (s.stored = none))
  | _, .selectResult _ _ _ _ | _, .wakeUp _ | _, .timeOut _ | _, .returnBuffer _ | _, .flush
  | _, .setWaitRequestNo _ | _, .pools _ => inferInstanceAs (Decidable True)

/-- The stored result is what a caller gets that is woken up. -/
def StoredThere (s : ZsdFlashSelector) : Prop :=
  ∀ rvResult rvBuffers, s.stored = some (rvResult, rvBuffers) →
    s.mResultMeta = rvResult ∧ s.mResultHeapSet = rvBuffers

theorem storedThere_step (hs : s.StoredThere) (hstep : zsdFlashMachine s op = .ok (s', o)) :
    s'.StoredThere := by
  cases op with
  | selectResult rRequestNo rvResult rvBuffers errorResult =>
    cases hstep
    rw [selectResult]
    split
    · intro rvResult' rvBuffers' hstored
      cases hstored
      exact ⟨rfl, rfl⟩
    · exact hs
  | getResult caller =>
    rw [zsdFlashMachine] at hstep
    split at hstep
    · cases hstep
    · cases hstep
      exact hs
  | wakeUp caller =>
    rw [zsdFlashMachine] at hstep
    split at hstep
    · cases hstep
    · cases hstep
      intro rvResult rvBuffers hstored
      cases hstored
  | timeOut caller =>
    rw [zsdFlashMachine] at hstep
    split at hstep
    · cases hstep
      exact hs
    · cases hstep
  | flush =>
    cases hstep
    intro rvResult rvBuffers hstored
    cases hstored
  | returnBuffer | setWaitRequestNo | pools =>
    cases hstep
    exact hs

/-- **A step that leaves nobody blocked beside a result is one that no caller comes with.** -/
theorem noLostResult_step (hs : s.NoLostResult) (hstep : zsdFlashMachine s op = .ok (s', o)) :
    s'.NoLostResult ↔ ComesFirst s op := by
  cases op with
  | selectResult rRequestNo rvResult rvBuffers errorResult =>
    refine iff_of_true ?_ trivial
    cases hstep
    rw [selectResult]
    split
    · -- A signal for everyone who waits.
      intro _ caller
      dsimp only
      rw [KeyedVector.find?_mapVal]
      cases s.waiting.find? caller <;> simp
    · exact hs
  | getResult caller =>
    rw [zsdFlashMachine] at hstep
    split at hstep
    · cases hstep
    · cases hstep
      rw [NoLostResult, ComesFirst]
      constructor
      · intro hnone
        by_contra hstored
        exact hnone (Option.isSome_iff_ne_none.mpr hstored) caller
          (KeyedVector.find?_add_self _ _ _)
      · intro hnone hstored
        rw [hnone] at hstored
        cases hstored
  | wakeUp caller =>
    refine iff_of_true ?_ trivial
    rw [zsdFlashMachine] at hstep
    split at hstep
    · cases hstep
    · cases hstep
      intro hstored
      cases hstored
  | timeOut caller =>
    refine iff_of_true ?_ trivial
    rw [zsdFlashMachine] at hstep
    split at hstep
    · cases hstep
      intro hstored caller'
      rw [KeyedVector.find?_remove]
      split
      · simp
      · exact hs hstored caller'
    · cases hstep
  | flush =>
    refine iff_of_true ?_ trivial
    cases hstep
    intro hstored
    cases hstored
  | returnBuffer | setWaitRequestNo | pools =>
    refine iff_of_true ?_ trivial
    cases hstep
    exact hs

theorem got_of_stored (h : zsdFlashMachine.Runs (new no) ops s os)
    {rvResult : List MetaItemSet} {rvBuffers : List BufferItemSet}
    (hstored : s.stored = some (rvResult, rvBuffers))
    (hstep : zsdFlashMachine s (.wakeUp caller) = .ok (s', o)) :
    o = [.got caller s.mWaitRequestNo rvResult rvBuffers] := by
  have hthere : s.StoredThere :=
    h.invariant (I := fun _ s _ => s.StoredThere) (by intro _ _ hnone; cases hnone)
      fun _ _ _ _ _ _ hs hs' => storedThere_step hs hs'
  obtain ⟨rfl, rfl⟩ := hthere rvResult rvBuffers hstored
  rw [zsdFlashMachine] at hstep
  split at hstep
  · cases hstep
  · cases hstep
    rfl

/-- **Exactly the runs in which no result is lost**: no caller is blocked while a result is
stored in any state of the run if and only if no caller comes while a result is stored. In every
run a caller that is woken up while a result is stored gets it. -/
theorem noLostResult_iff (h : zsdFlashMachine.Runs (new no) ops s os) :
    ((∀ ops₁ ops₂ s₁ os₁, ops = ops₁ ++ ops₂ → zsdFlashMachine.Runs (new no) ops₁ s₁ os₁ →
      s₁.NoLostResult) ↔
        zsdFlashMachine.RunsMeeting (fun _ => ComesFirst) (new no) ops s os) ∧
      ∀ rvResult rvBuffers caller s' o, s.stored = some (rvResult, rvBuffers) →
        zsdFlashMachine s (.wakeUp caller) = .ok (s', o) →
        o = [.got caller s.mWaitRequestNo rvResult rvBuffers] := by
  refine ⟨(h.meeting_iff (I := fun _ s => s.NoLostResult) ?_ ?_).symm, ?_⟩
  · intro hstored
    cases hstored
  · intro ops s os op s' o _ hs hstep
    exact noLostResult_step hs hstep
  · intro rvResult rvBuffers caller s' o hstored hstep
    exact got_of_stored h hstored hstep

/-- A caller that comes before the result. -/
theorem noLostResult_iff_waitsFirst :
    ∃ s os, zsdFlashMachine.Runs (new 0)
        [.pools (.setPool 1 (some 0)), .setWaitRequestNo 7, .getResult 0,
          .selectResult 7 [] [⟨1, 10⟩] false] s os ∧
      s.NoLostResult ∧
      zsdFlashMachine.RunsMeeting (fun _ => ComesFirst) (new 0)
        [.pools (.setPool 1 (some 0)), .setWaitRequestNo 7, .getResult 0,
          .selectResult 7 [] [⟨1, 10⟩] false] s os ∧
      ∃ s' o, zsdFlashMachine s (.wakeUp 0) = .ok (s', o) ∧ o = [.got 0 7 [] [⟨1, 10⟩]] := by
  have hshows : zsdFlashMachine.shows (new 0)
      [.pools (.setPool 1 (some 0)), .setWaitRequestNo 7, .getResult 0,
        .selectResult 7 [] [⟨1, 10⟩] false]
      (fun s _ => s.stored = some ([], [⟨1, 10⟩]) ∧ s.mWaitRequestNo = 7 ∧
        s.waiting.find? 0 = some true) = true := by
    decide
  obtain ⟨s, os, hrun, hstored, hno, hwaiting⟩ := Machine.exists_run_of_shows hshows
  have hmeeting := hrun.meeting (C := ComesFirst) (by decide)
  obtain ⟨hiff, hgot⟩ := noLostResult_iff hrun
  have hstep : ∃ s' o, zsdFlashMachine s (.wakeUp 0) = .ok (s', o) := by
    rw [zsdFlashMachine, hwaiting]
    exact ⟨_, _, rfl⟩
  obtain ⟨s', o, hstep⟩ := hstep
  refine ⟨s, os, hrun, hiff.mpr hmeeting _ [] s os (by simp) hrun, hmeeting, s', o, hstep, ?_⟩
  rw [hgot [] [⟨1, 10⟩] 0 s' o hstored hstep, hno]

/-- A result that is stored before the caller comes: the caller is blocked, and runs out of time
although the result is there. -/
theorem storedFirst_lost :
    (∃ s os, zsdFlashMachine.Runs (new 0)
        [.pools (.setPool 1 (some 0)), .setWaitRequestNo 7, .selectResult 7 [] [⟨1, 10⟩] false,
          .getResult 0] s os ∧
      s.stored = some ([], [⟨1, 10⟩]) ∧ s.waiting.find? 0 = some false) ∧
    ∃ s os, zsdFlashMachine.Runs (new 0)
        [.pools (.setPool 1 (some 0)), .setWaitRequestNo 7, .selectResult 7 [] [⟨1, 10⟩] false,
          .getResult 0, .timeOut 0] s os ∧
      s.stored = some ([], [⟨1, 10⟩]) ∧ SelectorEvent.noResult 0 .timedOut ∈ os :=
  ⟨Machine.exists_run_of_shows (by decide),
    Machine.exists_run_of_shows (by decide)⟩

end ZsdFlashSelector

end MtkHardware.LegacyPipeline
