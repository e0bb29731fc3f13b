import MtkHardware.LegacyPipeline.BaseSelector

/-!
# Pairing Buffers with Metadata

`PairMetadataImp` collects the parts of each request: buffers come from a provider, metadata from
the result processor. Parts go into a queue; a thread takes the queue, merges its parts into one
entry a request, hands the entries that are complete to the selector, and then drops the entries
of the requests whose frame ends have come, giving their buffers back to the selector.

The thread takes the queue with one lock and the frame ends with another: what it does after it
has taken the queue is one step, and everybody else may call in between. `flush` asks the thread
to exit, waits until it has, and then walks over what is left.
-/

namespace MtkHardware.LegacyPipeline

abbrev ISelector := ℕ

/-- A part of a request, or what has been collected for it. -/
structure PairResultSet where
  requestNo : ℕ
  bufferSet : List BufferItemSet
  resultMeta : List MetaItemSet
  error : Bool
  timestamp : ℕ
  deriving DecidableEq, Repr

/-- Where the thread is: it waits for parts, has taken the queue, or has exited. -/
inductive PairThread
  | waiting
  | got (rvResult : List PairResultSet)
  | exited
  deriving DecidableEq, Repr

/-- The parts in the queue, the entries of the requests, and the frame ends to handle. -/
structure PairMetadata where
  mpRule : Option ISelector := none
  mResultSetMap : KeyedVector ℕ PairResultSet := .empty
  mNumberOfWaitingMeta : ℕ := 0
  mNumberOfWaitingBuffer : ℕ := 1
  mTempSetMap : List PairResultSet := []
  mvFrameEnd : List ℕ := []
  exitPending : Bool := false
  thread : PairThread := .waiting
  /-- The requests whose frame ends have been handled. -/
  ended : List ℕ := []

inductive PairOp
  | getResultBufferFromProvider (rRequestNo : ℕ) (streamId : StreamId)
      (rpHeap : IImageBufferHeap) (rTimeStamp : ℕ) (rbErrorBuffer : Bool)
  | onResultReceived (requestNo : ℕ) (streamId : StreamId) (errorResult : Bool)
      (result : IMetadata)
  | onFrameEnd (requestNo : ℕ)
  | setNumberOfMetadata (num : ℤ)
  | setSelector (pRule : ISelector) (infoList : List StreamId)
  | dequeResult
  | handleResult
  | requestExit
  | exit
  | flush

/-- What is seen: parts come in, entries go to the selector, frame ends are handled, with the
metadata that is dropped. A buffer that is given back belongs to the entry of a request. -/
inductive PairEvent
  | produced (part : PairResultSet)
  | selectResult (pRule : ISelector) (requestNo : ℕ) (resultMeta : List MetaItemSet)
      (bufferSet : List BufferItemSet) (error : Bool)
  | returnBuffer (pRule : ISelector) (requestNo : ℕ) (rBuffer : BufferItemSet)
  | frameEnd (requestNo : ℕ) (resultMeta : List MetaItemSet)
  | flushRule (pRule : ISelector)
  deriving DecidableEq, Repr

namespace PairResultSet

def merge (result part : PairResultSet) : PairResultSet :=
  { result with
    bufferSet := result.bufferSet ++ part.bufferSet
    resultMeta := result.resultMeta ++ part.resultMeta
    error := result.error && part.error
    timestamp := if part.timestamp ≠ 0 then part.timestamp else result.timestamp }

def select (pRule : ISelector) (r : PairResultSet) : PairEvent :=
  .selectResult pRule r.requestNo r.resultMeta r.bufferSet r.error

end PairResultSet

namespace PairMetadata

def produce (s : PairMetadata) (part : PairResultSet) : PairMetadata × List PairEvent :=
  ({ s with mTempSetMap := s.mTempSetMap ++ [part] }, [.produced part])

def toSize (num : ℤ) : ℕ := (num % 2 ^ 64).toNat

/-- Replaces the selector, and counts the streams that it collects. -/
def setSelector (s : PairMetadata) (pRule : ISelector) (infoList : List StreamId) :
    PairMetadata × List PairEvent :=
  ({ s with mpRule := some pRule, mNumberOfWaitingBuffer := infoList.length },
    (s.mpRule.map PairEvent.flushRule).toList)

/-! ### The thread -/

def mergePart (mResultSetMap : KeyedVector ℕ PairResultSet) (part : PairResultSet) :
    KeyedVector ℕ PairResultSet :=
  mResultSetMap.insertWith part.requestNo part fun result => result.merge part

def mergeParts (rvResult : List PairResultSet) (mResultSetMap : KeyedVector ℕ PairResultSet) :
    KeyedVector ℕ PairResultSet :=
  rvResult.foldl mergePart mResultSetMap

def isComplete (s : PairMetadata) (r : PairResultSet) : Bool :=
  decide (s.mNumberOfWaitingMeta ≤ r.resultMeta.length) &&
    decide (s.mNumberOfWaitingBuffer ≤ r.bufferSet.length)

def deliver (s : PairMetadata) : PairMetadata × List PairEvent :=
  match s.mpRule with
  | none => (s, [])
  | some pRule =>
    ({ s with mResultSetMap := s.mResultSetMap.filterVal fun r => !s.isComplete r },
      (s.mResultSetMap.filterVal s.isComplete).entries.map fun e => e.2.select pRule)

/-- Gives the buffers of an entry back to the selector, if there is one. -/
def returnBuffers (mpRule : Option ISelector) (r : PairResultSet) : List PairEvent :=
  match mpRule with
  | none => []
  | some pRule => r.bufferSet.map fun b => .returnBuffer pRule r.requestNo b

/-- Drops the entries of the requests whose frame ends have come. -/
def handleFrameEnds (mpRule : Option ISelector) : List ℕ → KeyedVector ℕ PairResultSet →
    KeyedVector ℕ PairResultSet × List PairEvent
  | [], mResultSetMap => (mResultSetMap, [])
  | requestNo :: rvFrameEnd, mResultSetMap =>
    match mResultSetMap.find? requestNo with
    | none =>
      let handled := handleFrameEnds mpRule rvFrameEnd mResultSetMap
      (handled.1, .frameEnd requestNo [] :: handled.2)
    | some r =>
      let handled := handleFrameEnds mpRule rvFrameEnd (mResultSetMap.remove requestNo)
      (handled.1,
        returnBuffers mpRule r ++ .frameEnd requestNo r.resultMeta :: handled.2)

def handleReturn (s : PairMetadata) : PairMetadata × List PairEvent :=
  let delivered := { s with mvFrameEnd := [], ended := s.ended ++ s.mvFrameEnd }.deliver
  let handled := handleFrameEnds s.mpRule s.mvFrameEnd delivered.1.mResultSetMap
  ({ delivered.1 with mResultSetMap := handled.1 }, delivered.2 ++ handled.2)

def handleResult (s : PairMetadata) (rvResult : List PairResultSet) :
    PairMetadata × List PairEvent :=
  handleReturn { s with mResultSetMap := mergeParts rvResult s.mResultSetMap }

/-! ### The flush -/

/-- The walk of `flush`: it takes out the item at `i` and goes on at `i + 1`, until it has come
to the end of what is left. -/
def flushItems {α : Type*} (handOver : α → List PairEvent) : ℕ → ℕ → List α →
    List α × List PairEvent
  | 0, _, items => (items, [])
  | n + 1, i, items =>
    match items[i]? with
    | none => (items, [])
    | some item =>
      let rest := flushItems handOver n (i + 1) (items.eraseIdx i)
      (rest.1, handOver item ++ rest.2)

/-- Hands what has been collected to the selector, if there is a buffer. -/
def handOver (pRule : ISelector) (r : PairResultSet) : List PairEvent :=
  if r.bufferSet.length ≠ 0 then [r.select pRule] else []

theorem flushItems_sublist {α : Type*} (handOver : α → List PairEvent) (n i : ℕ)
    (items : List α) : (flushItems handOver n i items).1.Sublist items := by
  induction n generalizing i items with
  | zero => exact .refl _
  | succ n ih =>
    rw [flushItems]
    split
    · exact .refl _
    · exact (ih (i + 1) (items.eraseIdx i)).trans (items.eraseIdx_sublist i)

def flushMap (handOver : ℕ × PairResultSet → List PairEvent) (m : KeyedVector ℕ PairResultSet) :
    KeyedVector ℕ PairResultSet × List PairEvent :=
  let walked := flushItems handOver m.size 0 m.entries
  (⟨walked.1, m.sorted.sublist ((flushItems_sublist handOver m.size 0 m.entries).map Prod.fst)⟩,
    walked.2)

/-- What `flush` does when the thread has exited. -/
def flush (s : PairMetadata) : PairMetadata × List PairEvent :=
  match s.mpRule with
  | none => (s, [])
  | some pRule =>
    let flushed := flushMap (fun e => handOver pRule e.2) s.mResultSetMap
    let temp := flushItems (handOver pRule) s.mTempSetMap.length 0 s.mTempSetMap
    ({ s with mResultSetMap := flushed.1, mTempSetMap := temp.1 },
      flushed.2 ++ temp.2 ++ [.flushRule pRule])

end PairMetadata

/-- The pairing as a machine. The thread waits while the queue is empty. -/
def pairMachine : Machine PairMetadata PairOp PairEvent Blocked
  | s, .getResultBufferFromProvider rRequestNo streamId rpHeap rTimeStamp rbErrorBuffer =>
    .ok (s.produce ⟨rRequestNo, [⟨streamId, rpHeap⟩], [], rbErrorBuffer, rTimeStamp⟩)
  | s, .onResultReceived requestNo streamId errorResult result =>
    .ok (s.produce ⟨requestNo, [], [⟨streamId, result⟩], errorResult, 0⟩)
  | s, .onFrameEnd requestNo => .ok ({ s with mvFrameEnd := s.mvFrameEnd ++ [requestNo] }, [])
  | s, .setNumberOfMetadata num =>
    .ok ({ s with mNumberOfWaitingMeta := PairMetadata.toSize num }, [])
  | s, .setSelector pRule infoList => .ok (s.setSelector pRule infoList)
  | s, .dequeResult =>
    if s.thread = .waiting ∧ s.mTempSetMap ≠ [] then
      .ok ({ s with mTempSetMap := [], thread := .got s.mTempSetMap }, [])
    else .error .blocked
  | s, .handleResult =>
    match s.thread with
    | .got rvResult =>
      .ok ({ s with
        thread := if s.exitPending then .exited else .waiting }.handleResult rvResult)
    | _ => .error .blocked
  | s, .requestExit => .ok ({ s with exitPending := true }, [])
  | s, .exit =>
    if s.thread = .waiting ∧ s.exitPending = true then .ok ({ s with thread := .exited }, [])
    else .error .blocked
  | s, .flush => if s.thread = .exited then .ok s.flush else .error .blocked

namespace PairEvent

def buffers : PairEvent → List BufferItemSet
  | selectResult _ _ _ bufferSet _ => bufferSet
  | returnBuffer _ _ rBuffer => [rBuffer]
  | _ => []

end PairEvent

namespace PairMetadata

variable {s s' : PairMetadata} {o : List PairEvent} {α : Type*}

theorem flushItems_spec (handOver : α → List PairEvent) (n i : ℕ) (items : List α) :
    ∃ taken, ((flushItems handOver n i items).1 ++ taken).Perm items ∧
      (flushItems handOver n i items).2 = taken.flatMap handOver := by
  induction n generalizing i items with
  | zero => exact ⟨[], by rw [flushItems, List.append_nil], rfl⟩
  | succ n ih =>
    rw [flushItems]
    split
    · exact ⟨[], by rw [List.append_nil], rfl⟩
    · rename_i item hitem
      obtain ⟨hi, rfl⟩ := List.getElem?_eq_some_iff.mp hitem
      obtain ⟨taken, hperm, hevents⟩ := ih (i + 1) (items.eraseIdx i)
      refine ⟨items[i] :: taken, ?_, ?_⟩
      · exact List.perm_middle.trans
          ((hperm.cons items[i]).trans (List.getElem_cons_eraseIdx_perm hi))
      · rw [List.flatMap_cons, ← hevents]

/-- **The walk takes out every other item.** -/
theorem flushItems_length (handOver : α → List PairEvent) {n i : ℕ} {items : List α}
    (h : items.length ≤ i + n) : (flushItems handOver n i items).1.length =
      items.length - (items.length - i + 1) / 2 := by
  induction n generalizing i items with
  | zero =>
    rw [flushItems]
    dsimp only
    omega
  | succ n ih =>
    rw [flushItems]
    split
    · rename_i hend
      have hlength := List.getElem?_eq_none_iff.mp hend
      dsimp only
      omega
    · rename_i item hitem
      obtain ⟨hi, -⟩ := List.getElem?_eq_some_iff.mp hitem
      have hlength := List.length_eraseIdx_of_lt hi
      dsimp only
      rw [ih (by omega), hlength]
      omega

theorem flushItems_eq_nil_iff (handOver : α → List PairEvent) (items : List α) :
    (flushItems handOver items.length 0 items).1 = [] ↔ items.length ≤ 1 := by
  rw [← List.length_eq_zero_iff, flushItems_length handOver (by omega)]
  omega

def pendingBuffers (s : PairMetadata) : List BufferItemSet :=
  s.mResultSetMap.content PairResultSet.bufferSet ++
    s.mTempSetMap.flatMap PairResultSet.bufferSet

theorem buffers_handOver (pRule : ISelector) (r : PairResultSet) :
    (handOver pRule r).flatMap PairEvent.buffers = r.bufferSet := by
  rw [handOver]
  split
  · exact List.append_nil _
  · rename_i hempty
    rw [not_not, List.length_eq_zero_iff] at hempty
    rw [hempty]
    rfl

theorem buffers_flushItems {handOver : α → List PairEvent} {bufferSet : α → List BufferItemSet}
    {n i : ℕ} {items : List α}
    (h : ∀ item, (handOver item).flatMap PairEvent.buffers = bufferSet item)
    (hnil : (flushItems handOver n i items).1 = []) :
    ((flushItems handOver n i items).2.flatMap PairEvent.buffers).Perm
      (items.flatMap bufferSet) := by
  obtain ⟨taken, hperm, hevents⟩ := flushItems_spec handOver n i items
  rw [hnil, List.nil_append] at hperm
  rw [hevents, List.flatMap_assoc]
  simp only [h]
  exact hperm.flatMap_right _

/-- **Exactly when a flush leaves nothing behind**: there is a selector and either map has at
most one item, or nothing is there. Then all buffers go to the selector, once. -/
theorem flush_complete_iff (hstep : pairMachine s .flush = .ok (s', o)) :
    (s'.mResultSetMap.size = 0 ∧ s'.mTempSetMap = [] ∧
      (o.flatMap PairEvent.buffers).Perm s.pendingBuffers) ↔
      (s.mpRule.isSome = true ∧ s.mResultSetMap.size ≤ 1 ∧ s.mTempSetMap.length ≤ 1) ∨
        (s.mResultSetMap.size = 0 ∧ s.mTempSetMap = []) := by
  have heq : s.flush = (s', o) := by
    rw [pairMachine] at hstep
    split at hstep
    · exact Except.ok.inj hstep
    · cases hstep
  obtain ⟨rfl, rfl⟩ : s' = s.flush.1 ∧ o = s.flush.2 := by
    rw [heq]
    exact ⟨rfl, rfl⟩
  rw [flush]
  cases hrule : s.mpRule with
  | none =>
    simp only [Option.isSome_none, Bool.false_eq_true, false_and, false_or]
    refine ⟨fun h => ⟨h.1, h.2.1⟩, fun h => ⟨h.1, h.2, ?_⟩⟩
    rw [pendingBuffers, KeyedVector.content, List.length_eq_zero_iff.mp h.1, h.2]
    exact .refl _
  | some pRule =>
    dsimp only
    have hmap := flushItems_eq_nil_iff (fun e => handOver pRule e.2) s.mResultSetMap.entries
    have htemp := flushItems_eq_nil_iff (handOver pRule) s.mTempSetMap
    rw [KeyedVector.size, List.length_eq_zero_iff]
    constructor
    · rintro ⟨hmap', htemp', -⟩
      exact .inl ⟨rfl, hmap.mp hmap', htemp.mp htemp'⟩
    · intro h
      have hsmall : s.mResultSetMap.entries.length ≤ 1 ∧ s.mTempSetMap.length ≤ 1 := by
        rcases h with ⟨-, hmap', htemp'⟩ | ⟨hmap', htemp'⟩
        · exact ⟨hmap', htemp'⟩
        · rw [KeyedVector.size] at hmap'
          rw [hmap', htemp']
          exact ⟨Nat.zero_le _, Nat.zero_le _⟩
      have hmap' := hmap.mpr hsmall.1
      have htemp' := htemp.mpr hsmall.2
      refine ⟨hmap', htemp', ?_⟩
      rw [List.flatMap_append, List.flatMap_append, pendingBuffers]
      have hlast : [PairEvent.flushRule pRule].flatMap PairEvent.buffers = [] := rfl
      rw [hlast, List.append_nil]
      have hentry (e : ℕ × PairResultSet) := buffers_handOver pRule e.2
      exact (buffers_flushItems hentry hmap').append
        (buffers_flushItems (buffers_handOver pRule) htemp')

/-- A flush with one entry and one part left. -/
theorem flush_complete_iff_oneEach :
    ∃ s os s' o, pairMachine.Runs {}
        [.setSelector 0 [1], .setNumberOfMetadata 1, .getResultBufferFromProvider 5 1 10 100 false,
          .dequeResult, .handleResult, .requestExit, .exit,
          .getResultBufferFromProvider 6 1 20 200 false] s os ∧
      pairMachine s .flush = .ok (s', o) ∧
      (o.flatMap PairEvent.buffers).Perm [⟨1, 10⟩, ⟨1, 20⟩] := by
  have hshows : pairMachine.shows {}
      [.setSelector 0 [1], .setNumberOfMetadata 1, .getResultBufferFromProvider 5 1 10 100 false,
        .dequeResult, .handleResult, .requestExit, .exit,
        .getResultBufferFromProvider 6 1 20 200 false]
      (fun s _ => s.thread = .exited ∧ s.mpRule.isSome = true ∧ s.mResultSetMap.size ≤ 1 ∧
        s.mTempSetMap.length ≤ 1 ∧ s.pendingBuffers = [⟨1, 10⟩, ⟨1, 20⟩]) = true := by
    decide
  obtain ⟨s, os, hrun, hthread, hrule, hmap, htemp, hpending⟩ :=
    Machine.exists_run_of_shows hshows
  have hstep : pairMachine s .flush = .ok (s.flush.1, s.flush.2) := by
    rw [pairMachine, if_pos hthread]
  have hcomplete := (flush_complete_iff hstep).mpr (.inl ⟨hrule, hmap, htemp⟩)
  exact ⟨s, os, _, _, hrun, hstep, hpending ▸ hcomplete.2.2⟩

/-- Two requests that wait for their metadata, and two parts that come after the thread has
exited: one of each is left behind. -/
theorem flush_leavesEntry :
    ∃ s os, pairMachine.Runs {}
        [.setSelector 0 [1], .setNumberOfMetadata 1, .getResultBufferFromProvider 5 1 10 100 false,
          .getResultBufferFromProvider 6 1 20 200 false, .dequeResult, .handleResult,
          .requestExit, .exit, .getResultBufferFromProvider 7 1 30 300 false,
          .getResultBufferFromProvider 8 1 40 400 false, .flush] s os ∧
      s.mResultSetMap.keys = [6] ∧ s.mTempSetMap.map PairResultSet.requestNo = [8] ∧
      os.flatMap PairEvent.buffers = [⟨1, 10⟩, ⟨1, 30⟩] :=
  Machine.exists_run_of_shows (by decide)

end PairMetadata

end MtkHardware.LegacyPipeline
