import MtkHardware.LegacyPipeline.BaseSelector

/-!
# The Selector of Video Snapshots

`VssSelector` queues the results that it is handed until callers ask for them, oldest first.
While its dump flag is set, it sends a result to the dump thread besides, and gives the buffers
back to their pools, although the result is queued.

A caller that finds the queue empty waits once, for a result or until the time is over.
-/

namespace MtkHardware.LegacyPipeline

structure VssResultSet where
  requestNo : ℤ
  bufferSet : List BufferItemSet
  resultMeta : List MetaItemSet
  deriving DecidableEq, Repr

structure VssSelector extends BaseSelector where
  mNeedDump : Bool := false
  mResultSetMap : List VssResultSet := []
  /-- The callers that wait for a result. -/
  waiting : List Caller := []
  /-- The buffers that callers have got and not given back. -/
  holding : List BufferItemSet := []

/-- What is called. A caller that waits for a result is woken up at some time. -/
inductive VssOp
  | selectResult (rRequestNo : ℤ) (rvResult : List MetaItemSet) (rvBuffers : List BufferItemSet)
      (errorResult : Bool)
  | getResult (caller : Caller)
  | wakeUp (caller : Caller)
  | returnBuffer (rBuffer : BufferItemSet)
  | flush
  | setDumpConfig
  | pools (op : PoolOp)

namespace VssSelector

def selectResult (s : VssSelector) (rRequestNo : ℤ) (rvResult : List MetaItemSet)
    (rvBuffers : List BufferItemSet) : VssSelector × List SelectorEvent :=
  let dumped :=
    if s.mNeedDump then
      .sendDataToDumpThread rRequestNo rvBuffers :: (s.returnBuffersToPool rvBuffers).2
    else []
  ({ s with mResultSetMap := s.mResultSetMap ++ [⟨rRequestNo, rvBuffers, rvResult⟩] },
    dumped ++ [.answered .ok])

def takeResult (s : VssSelector) (caller : Caller) : VssSelector × List SelectorEvent :=
  match s.mResultSetMap with
  | [] => (s, [.noResult caller .unknownError])
  | resultSet :: rest =>
    ({ s with mResultSetMap := rest, holding := s.holding ++ resultSet.bufferSet },
      [.got caller resultSet.requestNo resultSet.resultMeta resultSet.bufferSet])

def returnBuffer (s : VssSelector) (rBuffer : BufferItemSet) : VssSelector × List SelectorEvent :=
  let returned := s.returnBufferToPool rBuffer
  ({ s with holding := s.holding.erase rBuffer }, returned.2 ++ [.answered returned.1])

def flush (s : VssSelector) : VssSelector × List SelectorEvent :=
  ({ s with mResultSetMap := [] },
    s.returnSets (s.mResultSetMap.map VssResultSet.bufferSet) ++ [.answered .ok])

end VssSelector

/-- The selector as a machine. A caller that waits calls nothing. -/
def vssMachine : Machine VssSelector VssOp SelectorEvent Blocked
  | s, .selectResult rRequestNo rvResult rvBuffers _ =>
    let selected := s.selectResult rRequestNo rvResult rvBuffers
    .ok (selected.1, .handed rvBuffers :: selected.2)
  | s, .getResult caller =>
    if caller ∈ s.waiting then .error .blocked
    else if s.mResultSetMap.isEmpty then
      .ok ({ s with waiting := s.waiting ++ [caller] }, [])
    else .ok (s.takeResult caller)
  | s, .wakeUp caller =>
    if caller ∈ s.waiting then
      .ok ({ s with waiting := s.waiting.erase caller }.takeResult caller)
    else .error .blocked
  | s, .returnBuffer rBuffer => .ok (s.returnBuffer rBuffer)
  | s, .flush => .ok s.flush
  | s, .setDumpConfig => .ok ({ s with mNeedDump := true }, [])
  | s, .pools op => .ok ({ s with toBaseSelector := s.toBaseSelector.update op }, [])

namespace VssSelector

variable {s s' : VssSelector} {op : VssOp} {ops : List VssOp} {o os : List SelectorEvent}
  {rvBuffers : List BufferItemSet} {rBuffer b : BufferItemSet} {caller : Caller}

def queued (s : VssSelector) : List BufferItemSet :=
  s.mResultSetMap.flatMap VssResultSet.bufferSet

/-- The buffers that have been handed in and are not back. -/
def held (s : VssSelector) : List BufferItemSet := s.queued ++ s.holding

/-- **Every buffer has a single owner**: as often as it has been handed in, it is queued, with a
caller, or back in its pool. -/
def SingleOwner (s : VssSelector) (os : List SelectorEvent) : Prop :=
  ∀ b, s.queued.count b + s.holding.count b + (returnedBuffers os).count b =
    (handedBuffers os).count b

theorem singleOwner_iff_balanced :
    s.SingleOwner os ↔ (selectorLedger held).Balanced {} s os := by
  rw [Ledger.Balanced, flows_iff_perm, List.perm_iff_count]
  refine forall_congr' fun b => ?_
  rw [List.count_append, List.count_append, held, List.count_append]
  exact .of_eq (congrArg _ (Nat.zero_add _).symm)

/-- **When a step keeps the owners apart.** Nothing that is queued is given back by a dump, a
flush finds the pools of all that is queued, and a pool that is there gets back from callers
exactly what they have got. -/
def OwnedOnce (s : VssSelector) : VssOp → Prop
  | .selectResult _ _ rvBuffers _ => s.mNeedDump = true → ∀ b ∈ rvBuffers, s.takes b = false
  | .flush => ∀ b ∈ s.queued, s.takes b = true
  | .returnBuffer rBuffer => rBuffer ∈ s.holding ↔ s.takes rBuffer = true
  | _ => True

instance : ∀ (s : VssSelector) (op : VssOp), Decidable (OwnedOnce s op)
  | s, .selectResult _ _ rvBuffers _ =>
    inferInstanceAs (Decidable (s.mNeedDump = true → ∀ b ∈ rvBuffers, s.takes b = false))
  | s, .flush => inferInstanceAs (Decidable (∀ b ∈ s.queued, s.takes b = true))
  | s, .returnBuffer rBuffer =>
    inferInstanceAs (Decidable (rBuffer ∈ s.holding ↔ s.takes rBuffer = true))
  | _, .getResult _ | _, .wakeUp _ | _, .setDumpConfig | _, .pools _ =>
    inferInstanceAs (Decidable True)

/-! ### One step -/

theorem perm_append_iff {l l' r : List BufferItemSet} (h : l.Perm l') :
    (l ++ r).Perm l' ↔ r = [] := by
  refine ⟨fun hperm => ?_, fun hr => by rwa [hr, List.append_nil]⟩
  have hlength := hperm.length_eq
  rw [List.length_append, h.length_eq] at hlength
  exact List.length_eq_zero_iff.mp (by omega)

theorem flows_selectResult (s : VssSelector) (rRequestNo : ℤ) (rvResult : List MetaItemSet)
    (rvBuffers : List BufferItemSet) :
    (selectorLedger held).Flows s
        (.handed rvBuffers :: (s.selectResult rRequestNo rvResult rvBuffers).2)
        (s.selectResult rRequestNo rvResult rvBuffers).1 ↔
      (s.mNeedDump = true → ∀ b ∈ rvBuffers, s.takes b = false) := by
  have hheld : (s.selectResult rRequestNo rvResult rvBuffers).1.held.Perm
      (s.held ++ rvBuffers) := by
    rw [selectResult, held, queued, List.flatMap_append, List.flatMap_singleton, held,
      List.append_assoc, List.append_assoc]
    exact List.perm_append_comm.append_left _
  have hhanded : handedBuffers
      (.handed rvBuffers :: (s.selectResult rRequestNo rvResult rvBuffers).2) = rvBuffers := by
    change rvBuffers ++ handedBuffers (s.selectResult rRequestNo rvResult rvBuffers).2 = _
    rw [selectResult, BaseSelector.handed_append]
    split
    · change rvBuffers ++ (handedBuffers (s.returnBuffersToPool rvBuffers).2 ++ []) = _
      rw [BaseSelector.handed_returnBuffersToPool, List.append_nil, List.append_nil]
    · exact List.append_nil _
  have hreturned : returnedBuffers
      (.handed rvBuffers :: (s.selectResult rRequestNo rvResult rvBuffers).2) =
        if s.mNeedDump then rvBuffers.filter s.takes else [] := by
    change returnedBuffers (s.selectResult rRequestNo rvResult rvBuffers).2 = _
    rw [selectResult, BaseSelector.returned_append]
    split
    · change returnedBuffers (s.returnBuffersToPool rvBuffers).2 ++ [] = _
      rw [BaseSelector.returned_returnBuffersToPool, List.append_nil]
    · rfl
  rw [flows_iff_perm, hhanded, hreturned, perm_append_iff hheld]
  cases s.mNeedDump with
  | true => simp [List.filter_eq_nil_iff]
  | false => simp

theorem flows_flush (s : VssSelector) :
    (selectorLedger held).Flows s s.flush.2 s.flush.1 ↔ ∀ b ∈ s.queued, s.takes b = true := by
  have hheld : s.flush.1.held = s.holding := rfl
  have hhanded : handedBuffers s.flush.2 = [] := by
    rw [flush, BaseSelector.handed_append, BaseSelector.handed_returnSets]
    rfl
  have hreturned : returnedBuffers s.flush.2 = s.queued.filter s.takes := by
    rw [flush, BaseSelector.returned_append, BaseSelector.returned_returnSets,
      ← List.flatMap_def]
    exact List.append_nil _
  rw [flows_iff_perm, hheld, hhanded, hreturned, List.append_nil, held]
  constructor
  · intro hperm
    have hlength := hperm.length_eq
    rw [List.length_append, List.length_append] at hlength
    exact List.length_filter_eq_length_iff.mp (by omega)
  · intro htakes
    rw [List.filter_eq_self.mpr htakes]
    exact List.perm_append_comm

theorem flows_returnBuffer (s : VssSelector) (rBuffer : BufferItemSet) :
    (selectorLedger held).Flows s (s.returnBuffer rBuffer).2 (s.returnBuffer rBuffer).1 ↔
      (rBuffer ∈ s.holding ↔ s.takes rBuffer = true) := by
  have hheld : (s.returnBuffer rBuffer).1.held = s.queued ++ s.holding.erase rBuffer := rfl
  have hhanded : handedBuffers (s.returnBuffer rBuffer).2 = [] := by
    rw [returnBuffer, BaseSelector.handed_append, BaseSelector.handed_returnBufferToPool]
    rfl
  have hreturned : returnedBuffers (s.returnBuffer rBuffer).2 =
      if s.takes rBuffer then [rBuffer] else [] := by
    rw [returnBuffer, BaseSelector.returned_append, BaseSelector.returned_returnBufferToPool]
    exact List.append_nil _
  rw [flows_iff_perm, hheld, hhanded, hreturned, List.append_nil, held, List.append_assoc,
    List.perm_append_left_iff]
  by_cases hmem : rBuffer ∈ s.holding
  · have hperm := List.perm_cons_erase hmem
    cases s.takes rBuffer with
    | true => simpa [hmem] using List.perm_append_comm.trans hperm.symm
    | false =>
      have hlength := hperm.length_eq
      rw [List.length_cons] at hlength
      simp only [hmem, Bool.false_eq_true, if_false, List.append_nil, iff_false, not_true]
      intro hsame
      have := hsame.length_eq
      omega
  · rw [List.erase_of_not_mem hmem, perm_append_iff (.refl _)]
    simp [hmem]

theorem flows_takeResult (s : VssSelector) (caller : Caller) :
    (selectorLedger held).Flows s (s.takeResult caller).2 (s.takeResult caller).1 := by
  rw [takeResult]
  split
  · exact Ledger.Flows.of_eq rfl rfl rfl
  · rename_i resultSet rest hqueue
    have hqueued : s.queued = resultSet.bufferSet ++ rest.flatMap VssResultSet.bufferSet := by
      rw [queued, hqueue, List.flatMap_cons]
    rw [flows_iff_perm, held, held, hqueued]
    change (rest.flatMap VssResultSet.bufferSet ++ (s.holding ++ resultSet.bufferSet) ++
      []).Perm (resultSet.bufferSet ++ rest.flatMap VssResultSet.bufferSet ++ s.holding ++ [])
    rw [List.append_nil, List.append_nil, ← List.append_assoc,
      List.append_assoc resultSet.bufferSet]
    exact List.perm_append_comm

/-- **A step flows exactly when it keeps the owners apart.** -/
theorem flows_iff_ownedOnce (hstep : vssMachine s op = .ok (s', o)) :
    (selectorLedger held).Flows s o s' ↔ OwnedOnce s op := by
  cases op with
  | selectResult rRequestNo rvResult rvBuffers errorResult =>
    cases hstep
    exact flows_selectResult s rRequestNo rvResult rvBuffers
  | getResult caller =>
    refine iff_of_true ?_ trivial
    rw [vssMachine] at hstep
    split at hstep
    · cases hstep
    · split at hstep
      · cases hstep
        exact Ledger.Flows.of_eq rfl rfl rfl
      · have heq := Except.ok.inj hstep
        simpa only [heq] using s.flows_takeResult caller
  | wakeUp caller =>
    refine iff_of_true ?_ trivial
    rw [vssMachine] at hstep
    split at hstep
    · have heq := Except.ok.inj hstep
      have hflows := flows_takeResult { s with waiting := s.waiting.erase caller } caller
      rw [heq] at hflows
      exact hflows
    · cases hstep
  | returnBuffer rBuffer =>
    cases hstep
    exact s.flows_returnBuffer rBuffer
  | flush =>
    cases hstep
    exact s.flows_flush
  | setDumpConfig | pools =>
    cases hstep
    exact iff_of_true (Ledger.Flows.of_eq rfl rfl rfl) trivial

/-! ### Runs -/

/-- **Exactly the runs in which every buffer has a single owner.** -/
theorem singleOwner_iff (h : vssMachine.Runs {} ops s os) :
    (∀ ops₁ ops₂ s₁ os₁, ops = ops₁ ++ ops₂ → vssMachine.Runs {} ops₁ s₁ os₁ →
      s₁.SingleOwner os₁) ↔ vssMachine.RunsMeeting (fun _ => OwnedOnce) {} ops s os := by
  simp only [singleOwner_iff_balanced]
  exact Ledger.balanced_iff (fun _ _ _ _ _ _ _ hstep => flows_iff_ownedOnce hstep) h

/-- A snapshot without a dump. -/
theorem singleOwner_iff_oneSnapshot :
    ∃ s os, vssMachine.Runs {}
        [.pools (.setPool 1 (some 0)), .selectResult 7 [] [⟨1, 10⟩] false, .getResult 0,
          .returnBuffer ⟨1, 10⟩, .selectResult 8 [] [⟨1, 20⟩] false, .flush] s os ∧
      s.SingleOwner os := by
  have hshows : vssMachine.shows {}
      [.pools (.setPool 1 (some 0)), .selectResult 7 [] [⟨1, 10⟩] false, .getResult 0,
        .returnBuffer ⟨1, 10⟩, .selectResult 8 [] [⟨1, 20⟩] false, .flush]
      (fun _ _ => True) = true := by
    decide
  obtain ⟨s, os, hrun, -⟩ := Machine.exists_run_of_shows hshows
  have howned := hrun.meeting (C := OwnedOnce) (by decide)
  exact ⟨s, os, hrun, (singleOwner_iff hrun).mpr howned _ [] s os (by simp) hrun⟩

/-- A dumped buffer is queued and back in its pool, and goes back again with a flush. -/
theorem dumped_returnedTwice :
    (∃ s os, vssMachine.Runs {}
        [.pools (.setPool 1 (some 0)), .setDumpConfig, .selectResult 7 [] [⟨1, 10⟩] false]
        s os ∧
      handedBuffers os = [⟨1, 10⟩] ∧ s.queued = [⟨1, 10⟩] ∧ returnedBuffers os = [⟨1, 10⟩]) ∧
    ∃ s os, vssMachine.Runs {}
        [.pools (.setPool 1 (some 0)), .setDumpConfig, .selectResult 7 [] [⟨1, 10⟩] false,
          .flush] s os ∧
      handedBuffers os = [⟨1, 10⟩] ∧ returnedBuffers os = [⟨1, 10⟩, ⟨1, 10⟩] :=
  ⟨Machine.exists_run_of_shows (by decide),
    Machine.exists_run_of_shows (by decide)⟩

end VssSelector

end MtkHardware.LegacyPipeline
