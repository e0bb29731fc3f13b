import MtkHardware.LegacyPipeline.BaseSelector

/-!
# The Selector of Zero Shutter Delay

`ZsdSelector` keeps the results of the preview, oldest first, until a capture asks for one. A
result that comes in drives out the results that have become too old, and those that are too many
beside the sets of buffers that captures have in use. While the focus is not done, one result is
kept as a backup.

A caller that finds nothing but a backup waits once, for a result or until the time is over, and
then takes what there is: when it goes on is up to the schedule.
-/

namespace MtkHardware.LegacyPipeline

def toInt32 (x : ℤ) : ℤ := x.bmod (2 ^ 32)

structure ResultSet where
  requestNo : ℤ
  bufferSet : List BufferItemSet
  resultMeta : List MetaItemSet
  timestamp : ℤ
  duration : ℤ
  afState : ℕ
  deriving DecidableEq, Repr

/-- The results that are kept, and the sets of buffers in use. -/
structure ZsdSelector extends BaseSelector where
  mNeedDump : Bool := false
  mDelayTimeMs : ℤ
  mTolerationMs : ℤ
  mResultSetMap : List ResultSet := []
  mIsBackupQueue : Bool := false
  mIsNeedWaitAfDone : Bool := true
  mIsAlreadyStartedCapture : Bool := false
  mInactiveCount : ℤ := 0
  mvUsingBufSet : List (List BufferItemSet) := []
  /-- The callers that wait for a result. -/
  waiting : List Caller := []

inductive SelectorCommand
  | eCmd_setNeedWaitAfDone
  | eCmd_setNoWaitAfDone
  | eCmd_setAlreadyStartedCapture
  | other (cmd : ℤ)
  deriving DecidableEq, Repr

inductive ZsdOp
  | selectResult (rRequestNo : ℤ) (rvResult : List MetaItemSet) (rvBuffers : List BufferItemSet)
      (errorResult : Bool)
  | getResult (caller : Caller)
  | wakeUp (caller : Caller)
  | returnBuffer (rBuffer : BufferItemSet)
  | flush
  | setDelayTime (delayTimeMs tolerationTimeMs : ℤ)
  | sendCommand (cmd : SelectorCommand)
  | setDumpConfig
  | pools (op : PoolOp)

/-! ### The focus -/

def MTK_CONTROL_AF_MODE_AUTO : ℕ := 1
def MTK_CONTROL_AF_MODE_MACRO : ℕ := 2
def MTK_CONTROL_AF_MODE_CONTINUOUS_VIDEO : ℕ := 3
def MTK_CONTROL_AF_MODE_CONTINUOUS_PICTURE : ℕ := 4
def MTK_CONTROL_AF_STATE_INACTIVE : ℕ := 0
def MTK_CONTROL_AF_STATE_PASSIVE_SCAN : ℕ := 1
def MTK_CONTROL_AF_STATE_ACTIVE_SCAN : ℕ := 3
def MTK_LENS_STATE_MOVING : ℕ := 1

def MAX_WAIT_INACTIVE_NUM : ℤ := 5

def MAX_USING_BUFFER : ℕ := 4

namespace ZsdSelector

def new (delay toler : ℤ) : ZsdSelector := { mDelayTimeMs := delay, mTolerationMs := toler }

/-- The time of a result, which is `0` if no metadata has it. -/
def getTimeStamp (rvResult : List MetaItemSet) : ℤ :=
  (rvResult.findSome? fun result => result.metadata.sensorTimestamp).getD 0

/-- The focus mode, the focus state and the lens state of the first metadata that has them all. -/
def getAfInfo (rvResult : List MetaItemSet) : ℕ × ℕ × ℕ :=
  (rvResult.findSome? fun result =>
    match result.metadata.controlAfMode, result.metadata.controlAfState,
      result.metadata.lensState with
    | some afMode, some afState, some lensState => some (afMode, afState, lensState)
    | _, _, _ => none).getD (0, 0, 0)

/-- Is the focus done, as far as it is waited for? Beside it the count of results without a
focus. -/
def isOkBuffer (s : ZsdSelector) (afMode afState lensState : ℕ) : Bool × ℤ :=
  if s.mIsNeedWaitAfDone then
    if afMode = MTK_CONTROL_AF_MODE_AUTO ∨ afMode = MTK_CONTROL_AF_MODE_MACRO then
      if (afState = MTK_CONTROL_AF_STATE_INACTIVE ∧ s.mIsAlreadyStartedCapture = false) ∨
          afState = MTK_CONTROL_AF_STATE_PASSIVE_SCAN ∨
          afState = MTK_CONTROL_AF_STATE_ACTIVE_SCAN ∨ lensState = MTK_LENS_STATE_MOVING then
        (false, 0)
      else (true, 0)
    else if afMode = MTK_CONTROL_AF_MODE_CONTINUOUS_VIDEO ∨
        afMode = MTK_CONTROL_AF_MODE_CONTINUOUS_PICTURE then
      if afState = MTK_CONTROL_AF_STATE_INACTIVE then
        let mInactiveCount := toInt32 (s.mInactiveCount + 1)
        (decide (MAX_WAIT_INACTIVE_NUM ≤ mInactiveCount), mInactiveCount)
      else if afState = MTK_CONTROL_AF_STATE_PASSIVE_SCAN ∨
          afState = MTK_CONTROL_AF_STATE_ACTIVE_SCAN ∨ lensState = MTK_LENS_STATE_MOVING then
        (false, 0)
      else (true, 0)
    else (true, 0)
  else (true, 0)

/-! ### The queue -/

/-- Takes results off the front of the queue and gives back their buffers. -/
def removeItems (s : ZsdSelector) : ℕ → ZsdSelector × List SelectorEvent
  | 0 => (s, [])
  | n + 1 =>
    match s.mResultSetMap with
    | [] => (s, [])
    | resultSet :: rest =>
      let removed := removeItems { s with mResultSetMap := rest } n
      (removed.1, (s.returnBuffersToPool resultSet.bufferSet).2 ++ removed.2)

/-- The index of the last result whose duration has come to the limit, `-1` if there is none. -/
def stopAt (limit : ℤ) : List ResultSet → ℤ → ℤ → ℤ
  | [], _, stop => stop
  | resultSet :: rest, i, stop =>
    stopAt limit rest (i + 1) (if limit ≤ resultSet.duration then i else stop)

def updateDuration (s : ZsdSelector) (newTimestamp : ℤ) : ZsdSelector :=
  { s with
    mResultSetMap := s.mResultSetMap.map fun resultSet =>
      { resultSet with duration := toInt32 (newTimestamp - resultSet.timestamp) } }

def updateQueueBuffer (s : ZsdSelector) (newTimestamp : ℤ) (maxUsingBufferNum : ℕ) :
    ZsdSelector × List SelectorEvent :=
  if s.mResultSetMap.isEmpty then (s, [])
  else if s.mIsBackupQueue then s.removeItems (s.mResultSetMap.length - 1)
  else
    let dated := s.updateDuration newTimestamp
    let limit := toInt32 ((dated.mDelayTimeMs + dated.mTolerationMs) * 1000000)
    let fresh := dated.removeItems (stopAt limit dated.mResultSetMap 0 (-1) + 1).toNat
    let del_num : ℤ :=
      fresh.1.mResultSetMap.length + fresh.1.mvUsingBufSet.length - maxUsingBufferNum + 1
    let few := fresh.1.removeItems (min del_num fresh.1.mResultSetMap.length).toNat
    (few.1, fresh.2 ++ few.2)

def removeExistBackupBuffer (s : ZsdSelector) : ZsdSelector × List SelectorEvent :=
  if s.mIsBackupQueue then
    let removed := s.removeItems s.mResultSetMap.length
    ({ removed.1 with mIsBackupQueue := false }, removed.2)
  else (s, [])

def insertOkBuffer (s : ZsdSelector) (resultSet : ResultSet) : ZsdSelector :=
  { s with mIsBackupQueue := false, mResultSetMap := s.mResultSetMap ++ [resultSet] }

def insertBackupBuffer (s : ZsdSelector) (resultSet : ResultSet) : ZsdSelector :=
  { s with mIsBackupQueue := true, mResultSetMap := s.mResultSetMap ++ [resultSet] }

/-- Keeps a result, in place of a backup that is there, or gives its buffers back. -/
def insertBuffer (s : ZsdSelector) (isOk : Bool) (resultSet : ResultSet) :
    ZsdSelector × List SelectorEvent :=
  if isOk then
    let removed := s.removeExistBackupBuffer
    (removed.1.insertOkBuffer resultSet, removed.2)
  else if s.mResultSetMap.isEmpty then (s.insertBackupBuffer resultSet, [])
  else if s.mIsBackupQueue then
    let removed := s.removeExistBackupBuffer
    (removed.1.insertBackupBuffer resultSet, removed.2)
  else (s, (s.returnBuffersToPool resultSet.bufferSet).2)

/-! ### The calls -/

def selectResult (s : ZsdSelector) (rRequestNo : ℤ) (rvResult : List MetaItemSet)
    (rvBuffers : List BufferItemSet) (errorResult : Bool) : ZsdSelector × List SelectorEvent :=
  if errorResult then (s, (s.returnBuffersToPool rvBuffers).2 ++ [.answered .unknownError])
  else
    let dumped := if s.mNeedDump then [.sendDataToDumpThread rRequestNo rvBuffers] else []
    let newTimestamp := getTimeStamp rvResult
    let (afMode, afState, lensState) := getAfInfo rvResult
    let updated := s.updateQueueBuffer newTimestamp MAX_USING_BUFFER
    let (isOk, mInactiveCount) := updated.1.isOkBuffer afMode afState lensState
    let inserted := { updated.1 with mInactiveCount := mInactiveCount }.insertBuffer isOk
      ⟨rRequestNo, rvBuffers, rvResult, newTimestamp, 0, afState⟩
    (inserted.1, dumped ++ updated.2 ++ inserted.2 ++ [.answered .ok])

/-- The oldest result is handed to a caller, whose buffers are in use from then on. -/
def takeResult (s : ZsdSelector) (caller : Caller) : ZsdSelector × List SelectorEvent :=
  match s.mResultSetMap with
  | [] => ({ s with mIsAlreadyStartedCapture := false }, [.noResult caller .unknownError])
  | resultSet :: rest =>
    ({ s with
        mResultSetMap := rest
        mvUsingBufSet := s.mvUsingBufSet ++ [resultSet.bufferSet]
        mIsBackupQueue := false
        mIsAlreadyStartedCapture := false },
      [.got caller resultSet.requestNo resultSet.resultMeta resultSet.bufferSet])

/-- Takes a buffer out of the first set that has it, and the set with its last buffer. -/
def removeUsing (rBuffer : BufferItemSet) : List (List BufferItemSet) → List (List BufferItemSet)
  | [] => []
  | bufSet :: rest =>
    if rBuffer ∈ bufSet then
      if (bufSet.erase rBuffer).isEmpty then rest else bufSet.erase rBuffer :: rest
    else bufSet :: removeUsing rBuffer rest

def returnBuffer (s : ZsdSelector) (rBuffer : BufferItemSet) : ZsdSelector × List SelectorEvent :=
  let returned := s.returnBufferToPool rBuffer
  ({ s with mvUsingBufSet := removeUsing rBuffer s.mvUsingBufSet },
    returned.2 ++ [.answered returned.1])

def flush (s : ZsdSelector) : ZsdSelector × List SelectorEvent :=
  ({ s with mResultSetMap := [] },
    s.returnSets (s.mResultSetMap.map ResultSet.bufferSet) ++ [.answered .ok])

def sendCommand (s : ZsdSelector) : SelectorCommand → ZsdSelector
  | .eCmd_setNeedWaitAfDone => { s with mIsNeedWaitAfDone := true }
  | .eCmd_setNoWaitAfDone => { s with mIsNeedWaitAfDone := false }
  | .eCmd_setAlreadyStartedCapture => { s with mIsAlreadyStartedCapture := true }
  | .other _ => s

end ZsdSelector

/-- The selector as a machine. A caller that waits calls nothing. -/
def zsdMachine : Machine ZsdSelector ZsdOp SelectorEvent Blocked
  | s, .selectResult rRequestNo rvResult rvBuffers errorResult =>
    let selected := s.selectResult rRequestNo rvResult rvBuffers errorResult
    .ok (selected.1, .handed rvBuffers :: selected.2)
  | s, .getResult caller =>
    if caller ∈ s.waiting then .error .blocked
    else if s.mResultSetMap.isEmpty || s.mIsBackupQueue then
      .ok ({ s with waiting := s.waiting ++ [caller] }, [])
    else .ok (s.takeResult caller)
  | s, .wakeUp caller =>
    if caller ∈ s.waiting then
      .ok ({ s with waiting := s.waiting.erase caller }.takeResult caller)
    else .error .blocked
  | s, .returnBuffer rBuffer => .ok (s.returnBuffer rBuffer)
  | s, .flush => .ok s.flush
  | s, .setDelayTime delayTimeMs tolerationTimeMs =>
    .ok ({ s with mDelayTimeMs := delayTimeMs, mTolerationMs := tolerationTimeMs }, [])
  | s, .sendCommand cmd => .ok (s.sendCommand cmd, [.answered .ok])
  | s, .setDumpConfig => .ok ({ s with mNeedDump := true }, [])
  | s, .pools op => .ok ({ s with toBaseSelector := s.toBaseSelector.update op }, [])

open scoped List

namespace ZsdSelector

variable {s s₁ s' : ZsdSelector} {op : ZsdOp} {ops : List ZsdOp} {o o₁ os : List SelectorEvent}
  {rvBuffers rvBuffers₁ : List BufferItemSet} {rBuffer b : BufferItemSet}
  {resultSet : ResultSet} {delay toler : ℤ} {caller : Caller} {n : ℕ}

def queued (s : ZsdSelector) : List BufferItemSet := s.mResultSetMap.flatMap ResultSet.bufferSet

def inUse (s : ZsdSelector) : List BufferItemSet := s.mvUsingBufSet.flatten

def held (s : ZsdSelector) : List BufferItemSet := s.queued ++ s.inUse

def PoolsThere (s : ZsdSelector) : Prop := ∀ b ∈ s.held, s.takes b = true

/-- What a call does with buffers that it is given: it gives back what is no longer held. -/
structure Exchanges (s : ZsdSelector) (rvBuffers : List BufferItemSet) (o : List SelectorEvent)
    (s' : ZsdSelector) : Prop where
  base : s'.toBaseSelector = s.toBaseSelector
  handed : handedBuffers o = []
  perm : s.PoolsThere → (∀ b ∈ rvBuffers, s.takes b = true) →
    (s'.held ++ returnedBuffers o).Perm (s.held ++ rvBuffers)

namespace Exchanges

theorem poolsThere (h : s.Exchanges rvBuffers o s') (hs : s.PoolsThere)
    (hin : ∀ b ∈ rvBuffers, s.takes b = true) : s'.PoolsThere := by
  intro b hb
  have hmem : b ∈ s.held ++ rvBuffers :=
    (h.perm hs hin).mem_iff.mp (List.mem_append_left _ hb)
  rw [h.base]
  rcases List.mem_append.mp hmem with hold | hnew
  · exact hs b hold
  · exact hin b hnew

theorem flows (h : s.Exchanges rvBuffers o s') (hs : s.PoolsThere)
    (hin : ∀ b ∈ rvBuffers, s.takes b = true) :
    (selectorLedger held).Flows s (.handed rvBuffers :: o) s' := by
  have hhanded : (SelectorEvent.handed rvBuffers :: o).flatMap SelectorEvent.inflow =
      rvBuffers ++ handedBuffers o := rfl
  have hperm := h.perm hs hin
  rw [flows_iff_perm, handedBuffers, hhanded, h.handed, List.append_nil]
  exact hperm

theorem trans (h : s.Exchanges rvBuffers o s₁) (h₁ : s₁.Exchanges rvBuffers₁ o₁ s') :
    s.Exchanges (rvBuffers ++ rvBuffers₁) (o ++ o₁) s' where
  base := h₁.base.trans h.base
  handed := by rw [BaseSelector.handed_append, h.handed, h₁.handed, List.append_nil]
  perm hs hin := by
    have hin₁ : ∀ b ∈ rvBuffers, s.takes b = true :=
      fun b hb => hin b (List.mem_append_left _ hb)
    have hin₂ : ∀ b ∈ rvBuffers₁, s.takes b = true :=
      fun b hb => hin b (List.mem_append_right _ hb)
    have hperm₁ := h₁.perm (h.poolsThere hs hin₁) (by rwa [h.base])
    rw [BaseSelector.returned_append]
    calc s'.held ++ (returnedBuffers o ++ returnedBuffers o₁)
        ~ returnedBuffers o ++ (s'.held ++ returnedBuffers o₁) :=
          List.perm_append_comm_assoc _ _ _
      _ ~ returnedBuffers o ++ (s₁.held ++ rvBuffers₁) := hperm₁.append_left _
      _ ~ s₁.held ++ (returnedBuffers o ++ rvBuffers₁) := List.perm_append_comm_assoc _ _ _
      _ ~ s.held ++ (rvBuffers ++ rvBuffers₁) := by
          rw [← List.append_assoc, ← List.append_assoc]
          exact (h.perm hs hin₁).append_right _

end Exchanges

theorem removeItems_eq (s : ZsdSelector) (n : ℕ) : s.removeItems n =
    ({ s with mResultSetMap := s.mResultSetMap.drop n },
      s.returnSets ((s.mResultSetMap.take n).map ResultSet.bufferSet)) := by
  induction n generalizing s with
  | zero => rfl
  | succ n ih =>
    rw [removeItems]
    split
    · rename_i hqueue
      have heq : s = { s with mResultSetMap := [] } := by rw [← hqueue]
      rw [hqueue, List.drop_nil, List.take_nil]
      exact Prod.ext heq rfl
    · rename_i resultSet rest hqueue
      rw [ih, hqueue, List.drop_succ_cons, List.take_succ_cons]
      rfl

/-! ### What the calls exchange -/

theorem filter_takes (h : ∀ b ∈ rvBuffers, s.takes b = true) :
    rvBuffers.filter s.takes = rvBuffers :=
  List.filter_eq_self.mpr h

theorem Exchanges.of_held (hbase : s'.toBaseSelector = s.toBaseSelector)
    (hheld : s'.held.Perm s.held) (hin : handedBuffers o = []) (hout : returnedBuffers o = []) :
    s.Exchanges [] o s' where
  base := hbase
  handed := hin
  perm _ _ := by rwa [hout, List.append_nil, List.append_nil]

theorem exchanges_removeItems (s : ZsdSelector) (n : ℕ) :
    s.Exchanges [] (s.removeItems n).2 (s.removeItems n).1 := by
  rw [removeItems_eq]
  refine ⟨rfl, s.handed_returnSets _, fun hs _ => ?_⟩
  have hqueued : s.queued = (s.mResultSetMap.take n).flatMap ResultSet.bufferSet ++
      (s.mResultSetMap.drop n).flatMap ResultSet.bufferSet := by
    rw [queued, ← List.flatMap_append, List.take_append_drop]
  have htaken : ∀ b ∈ (s.mResultSetMap.take n).flatMap ResultSet.bufferSet,
      s.takes b = true := by
    intro b hb
    refine hs b (List.mem_append_left _ ?_)
    rw [hqueued]
    exact List.mem_append_left _ hb
  rw [BaseSelector.returned_returnSets, ← List.flatMap_def, filter_takes htaken,
    List.append_nil, held, held, hqueued]
  calc (s.mResultSetMap.drop n).flatMap ResultSet.bufferSet ++ s.inUse ++
          (s.mResultSetMap.take n).flatMap ResultSet.bufferSet
      ~ (s.mResultSetMap.take n).flatMap ResultSet.bufferSet ++
          ((s.mResultSetMap.drop n).flatMap ResultSet.bufferSet ++ s.inUse) :=
        List.perm_append_comm
    _ = _ := (List.append_assoc _ _ _).symm

theorem exchanges_updateDuration (s : ZsdSelector) (newTimestamp : ℤ) :
    s.Exchanges [] [] (s.updateDuration newTimestamp) :=
  .of_held rfl (by simp [held, queued, inUse, updateDuration, List.flatMap_map]) rfl rfl

theorem exchanges_updateQueueBuffer (s : ZsdSelector) (newTimestamp : ℤ) (n : ℕ) :
    s.Exchanges [] (s.updateQueueBuffer newTimestamp n).2
      (s.updateQueueBuffer newTimestamp n).1 := by
  rw [updateQueueBuffer]
  split
  · exact .of_held rfl (.refl _) rfl rfl
  · split
    · exact s.exchanges_removeItems _
    · exact (s.exchanges_updateDuration newTimestamp).trans
        ((exchanges_removeItems _ _).trans (exchanges_removeItems _ _))

theorem exchanges_removeExistBackupBuffer (s : ZsdSelector) :
    s.Exchanges [] s.removeExistBackupBuffer.2 s.removeExistBackupBuffer.1 := by
  rw [removeExistBackupBuffer]
  split
  · have hbackup : (s.removeItems s.mResultSetMap.length).1.Exchanges [] []
        { (s.removeItems s.mResultSetMap.length).1 with mIsBackupQueue := false } :=
      .of_held rfl (.refl _) rfl rfl
    simpa using (s.exchanges_removeItems s.mResultSetMap.length).trans hbackup
  · exact .of_held rfl (.refl _) rfl rfl

theorem exchanges_push (hbase : s'.toBaseSelector = s.toBaseSelector)
    (hqueue : s'.mResultSetMap = s.mResultSetMap ++ [resultSet])
    (husing : s'.mvUsingBufSet = s.mvUsingBufSet) :
    s.Exchanges resultSet.bufferSet [] s' where
  base := hbase
  handed := rfl
  perm _ _ := by
    have hheld : s'.held = s.queued ++ resultSet.bufferSet ++ s.inUse := by
      rw [held, queued, inUse, hqueue, husing, List.flatMap_append, List.flatMap_singleton]
      rfl
    calc s'.held ++ [] = s.queued ++ (resultSet.bufferSet ++ s.inUse) := by
          rw [hheld, List.append_nil, List.append_assoc]
      _ ~ s.queued ++ (s.inUse ++ resultSet.bufferSet) :=
          List.perm_append_comm.append_left _
      _ = s.held ++ resultSet.bufferSet := (List.append_assoc _ _ _).symm

theorem exchanges_returnBuffersToPool (s : ZsdSelector) (rvBuffers : List BufferItemSet) :
    s.Exchanges rvBuffers (s.returnBuffersToPool rvBuffers).2 s where
  base := rfl
  handed := BaseSelector.handed_returnBuffersToPool _ _
  perm _ hin := by
    rw [BaseSelector.returned_returnBuffersToPool, filter_takes hin]

theorem exchanges_insertBuffer (s : ZsdSelector) (isOk : Bool) (resultSet : ResultSet) :
    s.Exchanges resultSet.bufferSet (s.insertBuffer isOk resultSet).2
      (s.insertBuffer isOk resultSet).1 := by
  have hremoved := s.exchanges_removeExistBackupBuffer
  rw [insertBuffer]
  split
  · simpa using hremoved.trans (exchanges_push rfl rfl rfl :
      s.removeExistBackupBuffer.1.Exchanges resultSet.bufferSet []
        (s.removeExistBackupBuffer.1.insertOkBuffer resultSet))
  · split
    · exact exchanges_push rfl rfl rfl
    · split
      · simpa using hremoved.trans (exchanges_push rfl rfl rfl :
          s.removeExistBackupBuffer.1.Exchanges resultSet.bufferSet []
            (s.removeExistBackupBuffer.1.insertBackupBuffer resultSet))
      · exact s.exchanges_returnBuffersToPool _

theorem exchanges_selectResult (s : ZsdSelector) (rRequestNo : ℤ) (rvResult : List MetaItemSet)
    (rvBuffers : List BufferItemSet) (errorResult : Bool) :
    s.Exchanges rvBuffers (s.selectResult rRequestNo rvResult rvBuffers errorResult).2
      (s.selectResult rRequestNo rvResult rvBuffers errorResult).1 := by
  have hanswered (s : ZsdSelector) (status : Status) : s.Exchanges [] [.answered status] s :=
    .of_held rfl (.refl _) rfl rfl
  rw [selectResult]
  split
  · simpa using (s.exchanges_returnBuffersToPool rvBuffers).trans (hanswered s .unknownError)
  · have hdumped : s.Exchanges []
        (if s.mNeedDump then [.sendDataToDumpThread rRequestNo rvBuffers] else []) s := by
      split <;> exact .of_held rfl (.refl _) rfl rfl
    have hupdated := s.exchanges_updateQueueBuffer (getTimeStamp rvResult) MAX_USING_BUFFER
    dsimp only
    generalize s.updateQueueBuffer (getTimeStamp rvResult) MAX_USING_BUFFER = updated at *
    generalize updated.1.isOkBuffer _ _ _ = ok
    have hcounted : updated.1.Exchanges [] [] { updated.1 with mInactiveCount := ok.2 } :=
      .of_held rfl (.refl _) rfl rfl
    have hinserted := exchanges_insertBuffer { updated.1 with mInactiveCount := ok.2 } ok.1
      ⟨rRequestNo, rvBuffers, rvResult, getTimeStamp rvResult, 0, (getAfInfo rvResult).2.1⟩
    simpa using (((hdumped.trans hupdated).trans hcounted).trans hinserted).trans
      (hanswered _ .ok)

theorem exchanges_takeResult (s : ZsdSelector) (caller : Caller) :
    s.Exchanges [] (s.takeResult caller).2 (s.takeResult caller).1 := by
  rw [takeResult]
  split
  · exact .of_held rfl (.refl _) rfl rfl
  · rename_i resultSet rest hqueue
    refine .of_held rfl ?_ rfl rfl
    have hqueued : s.queued = resultSet.bufferSet ++ rest.flatMap ResultSet.bufferSet := by
      rw [queued, hqueue, List.flatMap_cons]
    rw [held, held, hqueued]
    calc rest.flatMap ResultSet.bufferSet ++
            (s.mvUsingBufSet ++ [resultSet.bufferSet]).flatten
        = rest.flatMap ResultSet.bufferSet ++ s.inUse ++ resultSet.bufferSet := by
          rw [List.flatten_append, List.flatten_singleton, List.append_assoc]
          rfl
      _ ~ resultSet.bufferSet ++ (rest.flatMap ResultSet.bufferSet ++ s.inUse) :=
          List.perm_append_comm
      _ = _ := (List.append_assoc _ _ _).symm

theorem perm_flatten_removeUsing {sets : List (List BufferItemSet)}
    (h : rBuffer ∈ sets.flatten) :
    (rBuffer :: (removeUsing rBuffer sets).flatten).Perm sets.flatten := by
  induction sets with
  | nil => simp at h
  | cons bufSet sets ih =>
    rw [removeUsing]
    split
    · rename_i hmem
      have hperm : (rBuffer :: bufSet.erase rBuffer).Perm bufSet :=
        (List.perm_cons_erase hmem).symm
      have hflat : (if (bufSet.erase rBuffer).isEmpty then sets
          else bufSet.erase rBuffer :: sets).flatten = bufSet.erase rBuffer ++ sets.flatten := by
        split
        · rename_i hempty
          rw [List.isEmpty_iff.mp hempty, List.nil_append]
        · rw [List.flatten_cons]
      rw [hflat, List.flatten_cons, ← List.cons_append]
      exact hperm.append_right _
    · rename_i hmem
      rw [List.flatten_cons, List.mem_append] at h
      rw [List.flatten_cons, List.flatten_cons]
      calc rBuffer :: (bufSet ++ (removeUsing rBuffer sets).flatten)
          ~ bufSet ++ rBuffer :: (removeUsing rBuffer sets).flatten :=
            List.perm_middle.symm
        _ ~ bufSet ++ sets.flatten := (ih (h.resolve_left hmem)).append_left _

theorem exchanges_returnBuffer (h : rBuffer ∈ s.inUse) :
    s.Exchanges [] (s.returnBuffer rBuffer).2 (s.returnBuffer rBuffer).1 where
  base := rfl
  handed := by
    rw [returnBuffer, BaseSelector.handed_append, BaseSelector.handed_returnBufferToPool]
    rfl
  perm hs _ := by
    have htakes : s.takes rBuffer = true := hs rBuffer (List.mem_append_right _ h)
    rw [returnBuffer, BaseSelector.returned_append, BaseSelector.returned_returnBufferToPool,
      if_pos htakes, List.append_nil]
    calc s.queued ++ (removeUsing rBuffer s.mvUsingBufSet).flatten ++ [rBuffer]
        ~ s.queued ++ ([rBuffer] ++ (removeUsing rBuffer s.mvUsingBufSet).flatten) := by
          rw [List.append_assoc]
          exact List.perm_append_comm.append_left _
      _ ~ s.held := (perm_flatten_removeUsing h).append_left _

theorem exchanges_flush (s : ZsdSelector) : s.Exchanges [] s.flush.2 s.flush.1 := by
  have hremoved := s.exchanges_removeItems s.mResultSetMap.length
  rw [removeItems_eq, List.drop_length, List.take_length] at hremoved
  have hanswered : s.flush.1.Exchanges [] [.answered .ok] s.flush.1 :=
    .of_held rfl (.refl _) rfl rfl
  exact hremoved.trans hanswered

/-! ### Runs -/

/-- What callers are to do: they hand in buffers whose pools are there, give back buffers that
they have in use, and let no pool go that buffers are to go back to. -/
def Proper (s : ZsdSelector) : ZsdOp → Prop
  | .selectResult _ _ rvBuffers _ => ∀ b ∈ rvBuffers, s.takes b = true
  | .returnBuffer rBuffer => rBuffer ∈ s.inUse
  | .pools op => ∀ b ∈ s.held, (s.toBaseSelector.update op).takes b = true
  | _ => True

instance : ∀ (s : ZsdSelector) (op : ZsdOp), Decidable (Proper s op)
  | s, .selectResult _ _ rvBuffers _ =>
    inferInstanceAs (Decidable (∀ b ∈ rvBuffers, s.takes b = true))
  | s, .returnBuffer rBuffer => inferInstanceAs (Decidable (rBuffer ∈ s.inUse))
  | s, .pools op =>
    inferInstanceAs (Decidable (∀ b ∈ s.held, (s.toBaseSelector.update op).takes b = true))
  | _, .getResult _ | _, .wakeUp _ | _, .flush | _, .setDelayTime _ _ | _, .sendCommand _
  | _, .setDumpConfig => inferInstanceAs (Decidable True)

/-- **A proper step keeps the pools and the balance.** -/
theorem step_flows (hs : s.PoolsThere) (hproper : Proper s op)
    (hstep : zsdMachine s op = .ok (s', o)) :
    s'.PoolsThere ∧ (selectorLedger held).Flows s o s' := by
  have hnone : ∀ b ∈ ([] : List BufferItemSet), s.takes b = true := by simp
  -- Every call but `selectResult` is an exchange of no buffers.
  have hquiet {r : ZsdSelector × List SelectorEvent}
      (heq : (.ok r : Except Blocked _) = .ok (s', o)) (h : s.Exchanges [] r.2 r.1) :
      s'.PoolsThere ∧ (selectorLedger held).Flows s o s' := by
    obtain rfl : r = (s', o) := by simpa using heq
    exact ⟨h.poolsThere hs hnone, h.flows hs hnone⟩
  have hkeeps {s' : ZsdSelector} (hbase : s'.toBaseSelector = s.toBaseSelector)
      (hheld : s'.held = s.held) : s.Exchanges [] [] s' :=
    .of_held hbase (by rw [hheld]) rfl rfl
  cases op with
  | selectResult rRequestNo rvResult rvBuffers errorResult =>
    cases hstep
    have h := s.exchanges_selectResult rRequestNo rvResult rvBuffers errorResult
    exact ⟨h.poolsThere hs hproper, h.flows hs hproper⟩
  | getResult caller =>
    rw [zsdMachine] at hstep
    split at hstep
    · cases hstep
    · split at hstep
      · exact hquiet hstep (hkeeps rfl rfl)
      · exact hquiet hstep (s.exchanges_takeResult caller)
  | wakeUp caller =>
    rw [zsdMachine] at hstep
    split at hstep
    · have hawake : s.Exchanges [] [] { s with waiting := s.waiting.erase caller } :=
        hkeeps rfl rfl
      exact hquiet hstep (hawake.trans (exchanges_takeResult _ caller))
    · cases hstep
  | returnBuffer rBuffer => exact hquiet hstep (exchanges_returnBuffer hproper)
  | flush => exact hquiet hstep s.exchanges_flush
  | sendCommand cmd =>
    have hcommand : s.Exchanges [] [.answered .ok] (s.sendCommand cmd) := by
      cases cmd <;> exact .of_held rfl (.refl _) rfl rfl
    exact hquiet hstep hcommand
  | setDelayTime | setDumpConfig => exact hquiet hstep (hkeeps rfl rfl)
  | pools op =>
    cases hstep
    exact ⟨hproper, Ledger.Flows.of_eq rfl rfl rfl⟩

theorem poolsThere_of_runs
    (h : zsdMachine.RunsMeeting (fun _ => Proper) (new delay toler) ops s os) :
    s.PoolsThere :=
  h.invariant (I := fun _ s _ => s.PoolsThere) (by simp [PoolsThere, held, queued, inUse, new])
    fun _ _ _ _ _ _ hs hproper hstep => (step_flows hs hproper hstep).1

/-- **Proper runs balance.** -/
theorem balanced_of_runs
    (h : zsdMachine.RunsMeeting (fun _ => Proper) (new delay toler) ops s os) :
    (selectorLedger held).Balanced (new delay toler) s os :=
  Ledger.balanced_of_runs (fun _ _ _ _ _ _ hrun hproper hstep =>
    (step_flows (poolsThere_of_runs hrun) hproper hstep).2) h

/-! ### The bound -/

/-- **The bound of the queue**: there are no more sets than there may be, but for a single result
beside the sets in use; a backup is a single result. -/
structure Bounded (s : ZsdSelector) : Prop where
  sets : s.mResultSetMap.length + s.mvUsingBufSet.length ≤ MAX_USING_BUFFER ∨
    s.mResultSetMap.length ≤ 1
  backup : s.mIsBackupQueue = true → s.mResultSetMap.length ≤ 1

theorem removeItems_length (s : ZsdSelector) (n : ℕ) :
    (s.removeItems n).1.mResultSetMap.length = s.mResultSetMap.length - n := by
  rw [removeItems_eq, List.length_drop]

theorem removeItems_frame (s : ZsdSelector) (n : ℕ) :
    (s.removeItems n).1.mIsBackupQueue = s.mIsBackupQueue ∧
      (s.removeItems n).1.mvUsingBufSet = s.mvUsingBufSet := by
  rw [removeItems_eq]
  exact ⟨rfl, rfl⟩

theorem updateQueueBuffer_room (s : ZsdSelector) (newTimestamp : ℤ) (n : ℕ) :
    let updated := (s.updateQueueBuffer newTimestamp n).1
    updated.mIsBackupQueue = s.mIsBackupQueue ∧
      updated.mvUsingBufSet = s.mvUsingBufSet ∧
      (updated.mIsBackupQueue = true → updated.mResultSetMap.length ≤ 1) ∧
      (updated.mIsBackupQueue = false →
        updated.mResultSetMap.length + updated.mvUsingBufSet.length < n ∨
          updated.mResultSetMap.length = 0) := by
  dsimp only
  rw [updateQueueBuffer]
  split
  · rename_i hempty
    rw [List.isEmpty_iff] at hempty
    simp [hempty]
  · split
    · rename_i hb
      obtain ⟨hframe, husing⟩ := s.removeItems_frame (s.mResultSetMap.length - 1)
      refine ⟨hframe, husing, fun _ => ?_, fun hnot => ?_⟩
      · rw [removeItems_length]
        omega
      · rw [hframe, hb] at hnot
        cases hnot
    · rename_i hb
      dsimp only
      generalize (stopAt _ _ _ _ + 1).toNat = old
      have hfresh := (s.updateDuration newTimestamp).removeItems_frame old
      generalize ((s.updateDuration newTimestamp).removeItems old).1 = fresh at hfresh ⊢
      have hframe := fresh.removeItems_frame (min ((fresh.mResultSetMap.length : ℤ) +
        fresh.mvUsingBufSet.length - n + 1) fresh.mResultSetMap.length).toNat
      rw [removeItems_length, hframe.1, hframe.2, hfresh.1, hfresh.2]
      refine ⟨rfl, rfl, fun hb' => absurd hb' hb, fun _ => ?_⟩
      have husing : (s.updateDuration newTimestamp).mvUsingBufSet = s.mvUsingBufSet := rfl
      rw [husing]
      omega

theorem length_removeExistBackupBuffer (s : ZsdSelector) (hb : s.mIsBackupQueue = true) :
    s.removeExistBackupBuffer.1.mResultSetMap.length = 0 := by
  rw [removeExistBackupBuffer, if_pos hb]
  exact (s.removeItems_length _).trans (Nat.sub_self _)

theorem removeExistBackupBuffer_of_not (hb : s.mIsBackupQueue = false) :
    s.removeExistBackupBuffer = (s, []) := by
  rw [removeExistBackupBuffer, hb]
  rfl

theorem bounded_insertBuffer (isOk : Bool) (resultSet : ResultSet)
    (hbackup : s.mIsBackupQueue = true → s.mResultSetMap.length ≤ 1)
    (hroom : s.mIsBackupQueue = false →
      s.mResultSetMap.length + s.mvUsingBufSet.length < MAX_USING_BUFFER ∨
        s.mResultSetMap.length = 0) :
    (s.insertBuffer isOk resultSet).1.Bounded := by
  rw [insertBuffer]
  split
  · -- The result is kept, after a backup has been removed.
    refine ⟨?_, fun h => absurd h Bool.false_ne_true⟩
    simp only [insertOkBuffer, List.length_append, List.length_singleton]
    cases hb : s.mIsBackupQueue with
    | true =>
      rw [length_removeExistBackupBuffer s hb]
      omega
    | false =>
      rw [removeExistBackupBuffer_of_not hb]
      have hlength := hroom hb
      dsimp only
      omega
  · split
    · rename_i hempty
      rw [List.isEmpty_iff] at hempty
      exact ⟨.inr (by simp [insertBackupBuffer, hempty]),
        fun _ => by simp [insertBackupBuffer, hempty]⟩
    · split
      · rename_i hb
        have hone :
            (s.removeExistBackupBuffer.1.insertBackupBuffer resultSet).mResultSetMap.length ≤
              1 := by
          simp only [insertBackupBuffer, List.length_append, List.length_singleton]
          rw [length_removeExistBackupBuffer s hb]
        exact ⟨.inr hone, fun _ => hone⟩
      · rename_i hb
        have hlength := hroom (by simpa using hb)
        refine ⟨?_, hbackup⟩
        dsimp only
        omega

theorem bounded_selectResult (hs : s.Bounded) (rRequestNo : ℤ) (rvResult : List MetaItemSet)
    (rvBuffers : List BufferItemSet) (errorResult : Bool) :
    (s.selectResult rRequestNo rvResult rvBuffers errorResult).1.Bounded := by
  rw [selectResult]
  split
  · exact hs
  · obtain ⟨-, -, hbackup, hroom⟩ :=
      s.updateQueueBuffer_room (getTimeStamp rvResult) MAX_USING_BUFFER
    exact bounded_insertBuffer _ _ hbackup hroom

theorem length_removeUsing (rBuffer : BufferItemSet) (sets : List (List BufferItemSet)) :
    (removeUsing rBuffer sets).length ≤ sets.length := by
  induction sets with
  | nil => exact le_refl _
  | cons bufSet sets ih =>
    rw [removeUsing]
    split
    · split
      · exact Nat.le_succ _
      · exact le_refl _
    · exact Nat.succ_le_succ ih

theorem bounded_takeResult (hs : s.Bounded) (caller : Caller) :
    (s.takeResult caller).1.Bounded := by
  rw [takeResult]
  split
  · exact ⟨hs.sets, hs.backup⟩
  · rename_i resultSet rest hqueue
    have hsets := hs.sets
    rw [hqueue, List.length_cons] at hsets
    refine ⟨?_, fun h => absurd h Bool.false_ne_true⟩
    simp only [List.length_append, List.length_singleton]
    omega

/-- **Every step keeps the bound.** -/
theorem bounded_step (hs : s.Bounded) (hstep : zsdMachine s op = .ok (s', o)) : s'.Bounded := by
  -- What a call leads to is bounded if what it does is.
  have hok {r : ZsdSelector × List SelectorEvent}
      (heq : (.ok r : Except Blocked _) = .ok (s', o)) (h : r.1.Bounded) : s'.Bounded := by
    obtain rfl : r = (s', o) := by simpa using heq
    exact h
  have hsame {s' : ZsdSelector} (hqueue : s'.mResultSetMap = s.mResultSetMap)
      (husing : s'.mvUsingBufSet = s.mvUsingBufSet)
      (hbackup : s'.mIsBackupQueue = s.mIsBackupQueue) : s'.Bounded := by
    refine ⟨?_, ?_⟩
    · rw [hqueue, husing]
      exact hs.sets
    · rw [hqueue, hbackup]
      exact hs.backup
  cases op with
  | selectResult rRequestNo rvResult rvBuffers errorResult =>
    cases hstep
    exact bounded_selectResult hs _ _ _ _
  | getResult caller =>
    rw [zsdMachine] at hstep
    split at hstep
    · cases hstep
    · split at hstep
      · exact hok hstep (hsame rfl rfl rfl)
      · exact hok hstep (bounded_takeResult hs caller)
  | wakeUp caller =>
    rw [zsdMachine] at hstep
    split at hstep
    · have hawake : { s with waiting := s.waiting.erase caller }.Bounded := hsame rfl rfl rfl
      exact hok hstep (bounded_takeResult hawake caller)
    · cases hstep
  | returnBuffer rBuffer =>
    have hfewer := length_removeUsing rBuffer s.mvUsingBufSet
    have hsets := hs.sets
    refine hok hstep ⟨?_, hs.backup⟩
    rw [returnBuffer]
    dsimp only
    omega
  | flush => exact hok hstep ⟨.inr (Nat.zero_le _), fun _ => Nat.zero_le _⟩
  | sendCommand cmd =>
    refine hok hstep ?_
    cases cmd <;> exact hsame rfl rfl rfl
  | setDelayTime | setDumpConfig | pools => exact hok hstep (hsame rfl rfl rfl)

theorem bounded_of_runs (h : zsdMachine.Runs (new delay toler) ops s os) : s.Bounded :=
  h.invariant (I := fun _ s _ => s.Bounded) ⟨.inr (Nat.zero_le _), fun _ => Nat.zero_le _⟩
    fun _ _ _ _ _ _ hs hstep => bounded_step hs hstep

theorem count_flush (h : zsdMachine.RunsMeeting (fun _ => Proper) (new delay toler) ops s os)
    (hnodup : (handedBuffers os).Nodup) (hflush : zsdMachine s .flush = .ok (s', o))
    (hb : b ∈ handedBuffers os) :
    s'.inUse.count b + (returnedBuffers (os ++ o)).count b = 1 := by
  have hproper : Proper s .flush := trivial
  have hbalanced := balanced_of_runs (h.snoc hproper hflush)
  have heq : (s.flush.1, s.flush.2) = (s', o) := Except.ok.inj hflush
  obtain ⟨rfl, rfl⟩ := Prod.mk.inj heq
  have hhanded : handedBuffers (os ++ s.flush.2) = handedBuffers os := by
    rw [BaseSelector.handed_append, s.exchanges_flush.handed, List.append_nil]
  rw [← hhanded] at hnodup hb
  have hcount : s.flush.1.held.count b + (returnedBuffers (os ++ s.flush.2)).count b = 1 :=
    hbalanced.count_eq_one rfl hnodup hb
  exact hcount

/-- **Buffers are in one place, and the queue keeps its bound.** In a run that hands in distinct
buffers and whose steps are all proper, a buffer that has been handed in is queued, in use, or
back in its pool, once; what is not in use is back after a flush. -/
theorem buffersConserved_of_runs (h : zsdMachine.Runs (new delay toler) ops s os) :
    s.mResultSetMap.length ≤ MAX_USING_BUFFER ∧
      (s.mResultSetMap.length + s.mvUsingBufSet.length ≤ MAX_USING_BUFFER ∨
        s.mResultSetMap.length ≤ 1) ∧
      (zsdMachine.RunsMeeting (fun _ => Proper) (new delay toler) ops s os →
        (handedBuffers os).Nodup →
        (∀ b ∈ handedBuffers os,
          s.queued.count b + s.inUse.count b + (returnedBuffers os).count b = 1) ∧
        (∀ b ∉ handedBuffers os,
          s.queued.count b + s.inUse.count b + (returnedBuffers os).count b = 0) ∧
        ∀ s' o, zsdMachine s .flush = .ok (s', o) → ∀ b ∈ handedBuffers os,
          s'.inUse.count b + (returnedBuffers (os ++ o)).count b = 1) := by
  have hsets := (bounded_of_runs h).sets
  have hqueue : s.mResultSetMap.length ≤ MAX_USING_BUFFER := by
    rw [MAX_USING_BUFFER] at hsets ⊢
    omega
  refine ⟨hqueue, hsets, fun hproper hnodup => ⟨fun b hb => ?_, fun b hb => ?_, ?_⟩⟩
  · rw [← List.count_append]
    exact (balanced_of_runs hproper).count_eq_one rfl hnodup hb
  · rw [← List.count_append]
    exact (balanced_of_runs hproper).count_eq_zero rfl hb
  · intro s' o hflush b hb
    exact count_flush hproper hnodup hflush hb

/-- A run in which one result is in use, one is given back, and one is kept. -/
theorem buffersConserved_of_runs_threeResults :
    ∃ s os, zsdMachine.Runs (new 100 50)
        [.pools (.setPool 1 (some 0)), .selectResult 1 [] [⟨1, 10⟩] false, .getResult 0,
          .returnBuffer ⟨1, 10⟩, .selectResult 2 [] [⟨1, 20⟩] false, .getResult 0,
          .selectResult 3 [] [⟨1, 30⟩] false] s os ∧
      s.queued.count ⟨1, 30⟩ + s.inUse.count ⟨1, 30⟩ +
        (returnedBuffers os).count ⟨1, 30⟩ = 1 := by
  have hshows : zsdMachine.shows (new 100 50)
      [.pools (.setPool 1 (some 0)), .selectResult 1 [] [⟨1, 10⟩] false, .getResult 0,
        .returnBuffer ⟨1, 10⟩, .selectResult 2 [] [⟨1, 20⟩] false, .getResult 0,
        .selectResult 3 [] [⟨1, 30⟩] false]
      (fun _ os => handedBuffers os = [⟨1, 10⟩, ⟨1, 20⟩, ⟨1, 30⟩]) = true := by
    decide
  obtain ⟨s, os, hrun, hhanded⟩ := Machine.exists_run_of_shows hshows
  have hproper := hrun.meeting (C := Proper) (by decide)
  obtain ⟨-, -, hconserved⟩ := buffersConserved_of_runs hrun
  obtain ⟨hone, -⟩ := hconserved hproper (by rw [hhanded]; decide)
  exact ⟨s, os, hrun, hone ⟨1, 30⟩ (by rw [hhanded]; decide)⟩

/-- Five sets of buffers while four are in use, a buffer that is given back out of the queue, and
a buffer whose pool is not registered. -/
theorem not_conserved :
    (∃ s os, zsdMachine.Runs (new 100 50)
        [.pools (.setPool 1 (some 0)), .selectResult 1 [] [⟨1, 10⟩] false, .getResult 0,
          .selectResult 2 [] [⟨1, 20⟩] false, .getResult 0,
          .selectResult 3 [] [⟨1, 30⟩] false, .getResult 0,
          .selectResult 4 [] [⟨1, 40⟩] false, .getResult 0,
          .selectResult 5 [] [⟨1, 50⟩] false] s os ∧
      (handedBuffers os).Nodup ∧ s.held.length = 5 ∧ MAX_USING_BUFFER < 5) ∧
    (∃ s os, zsdMachine.Runs (new 100 50)
        [.pools (.setPool 1 (some 0)), .selectResult 1 [] [⟨1, 10⟩] false,
          .returnBuffer ⟨1, 10⟩] s os ∧
      (handedBuffers os).Nodup ∧ s.queued = [⟨1, 10⟩] ∧ returnedBuffers os = [⟨1, 10⟩]) ∧
    (∃ s os, zsdMachine.Runs (new 100 50) [.selectResult 1 [] [⟨1, 10⟩] true] s os ∧
      handedBuffers os = [⟨1, 10⟩] ∧ s.held = [] ∧ returnedBuffers os = []) :=
  ⟨Machine.exists_run_of_shows (by decide),
    Machine.exists_run_of_shows (by decide),
    Machine.exists_run_of_shows (by decide)⟩

end ZsdSelector

end MtkHardware.LegacyPipeline
