import MtkHardware.LegacyPipeline.StreamBufferProvider
import MtkHardware.Util.Lists

/-!
# Where the Heaps of a Provider Are

A heap that has been acquired is with its stream buffer, in the entry of its request, or has been
handed over: to the consumer or back to the pool. Two things lose heaps: a heap that comes for an
entry that has one takes its place, and a frame end drops an entry that has a heap and no
timestamp. An entry that is made after the frame end of its request has been handled stays, unless
it becomes complete.
-/

open scoped List

namespace MtkHardware.LegacyPipeline

abbrev AcquiredHeap := ℕ × IImageBufferHeap

def ProviderResultSet.heaps (r : ProviderResultSet) : List AcquiredHeap :=
  (r.heap.map fun heap => (r.requestNo, heap)).toList

def BufferT.heaps (buf : BufferT) : List AcquiredHeap := [(buf.requestNo, buf.heap)]

namespace ProviderEvent

def inflow : ProviderEvent → List AcquiredHeap
  | acquired requestNo heap => [(requestNo, heap)]
  | _ => []

/-- The heaps that are handed over, to the consumer or to the pool. -/
def outflow : ProviderEvent → List AcquiredHeap
  | getResultBufferFromProvider requestNo heap _ _ => [(requestNo, heap)]
  | releaseToPool requestNo heap _ _ => [(requestNo, heap)]
  | _ => []

end ProviderEvent

namespace StreamBufferProvider

variable {s s' : StreamBufferProvider} {op : ProviderOp} {ops : List ProviderOp}
  {o os : List ProviderEvent} {m : KeyedVector ℕ ProviderResultSet}
  {r part : ProviderResultSet} {hasTimeStampInfo : Bool} {k : ℕ}

def held (s : StreamBufferProvider) : List AcquiredHeap :=
  s.mBufferMap.content BufferT.heaps ++ s.mResultSetMap.content ProviderResultSet.heaps

def ledger : Ledger StreamBufferProvider ProviderEvent AcquiredHeap where
  content := held
  inflow := ProviderEvent.inflow
  outflow := ProviderEvent.outflow

/-! ### The entries -/

def Keyed (m : KeyedVector ℕ ProviderResultSet) : Prop :=
  ∀ k r, m.find? k = some r → r.requestNo = k

theorem find?_mergePart (m : KeyedVector ℕ ProviderResultSet) (part : ProviderResultSet)
    (k : ℕ) : (mergePart m part).find? k =
      if k = part.requestNo then
        some ((m.find? part.requestNo).elim part fun result => result.merge part)
      else m.find? k :=
  m.find?_insertWith _ _ _ _

theorem keyed_mergePart (hm : Keyed m) (part : ProviderResultSet) : Keyed (mergePart m part) :=
  KeyedVector.forall_insertWith hm rfl fun _ hkey => hkey

def overwritten (m : KeyedVector ℕ ProviderResultSet) (part : ProviderResultSet) :
    List AcquiredHeap :=
  match m.find? part.requestNo with
  | none => []
  | some result => if part.heap = none then [] else result.heaps

theorem heaps_merge (h : r.requestNo = part.requestNo) :
    ((r.merge part).heaps ++ if part.heap = none then [] else r.heaps).Perm
      (part.heaps ++ r.heaps) := by
  rw [ProviderResultSet.heaps, ProviderResultSet.heaps, ProviderResultSet.heaps,
    ProviderResultSet.merge, ← h]
  cases part.heap with
  | none => simp
  | some heap => simp

/-- **A merge loses the heap whose place is taken.** -/
theorem content_mergePart (hm : Keyed m) (part : ProviderResultSet) :
    ((mergePart m part).content ProviderResultSet.heaps ++ overwritten m part).Perm
      (part.heaps ++ m.content ProviderResultSet.heaps) := by
  refine ((m.content_insertWith _ _ _ _).append_right _).trans ?_
  rw [overwritten]
  cases hfound : m.find? part.requestNo with
  | none =>
    rw [Option.elim_none, KeyedVector.remove_of_find?_eq_none hfound, List.append_nil]
  | some result =>
    rw [Option.elim_some]
    have hmerge := (heaps_merge (hm _ _ hfound)).count_eq
    have hremove := (KeyedVector.content_remove hfound ProviderResultSet.heaps).count_eq
    refine List.perm_iff_count.mpr fun b => ?_
    have hmerge := hmerge b
    have hremove := hremove b
    simp only [List.count_append] at hmerge hremove ⊢
    omega

/-! ### Delivery and frame ends -/

theorem outflow_handOver (mpConsumer : Bool) (r : ProviderResultSet) :
    (r.handOver mpConsumer).flatMap ProviderEvent.outflow = r.heaps := by
  rw [ProviderResultSet.handOver, ProviderResultSet.heaps]
  cases r.heap with
  | none => rfl
  | some heap => cases mpConsumer <;> rfl

theorem inflow_handOver (mpConsumer : Bool) (r : ProviderResultSet) :
    (r.handOver mpConsumer).flatMap ProviderEvent.inflow = [] := by
  rw [ProviderResultSet.handOver]
  cases r.heap with
  | none => rfl
  | some heap => cases mpConsumer <;> rfl

/-- **A delivery hands over what it takes out.** -/
theorem content_deliver (s : StreamBufferProvider) :
    (s.deliver.1.mResultSetMap.content ProviderResultSet.heaps ++
      s.deliver.2.flatMap ProviderEvent.outflow).Perm
      (s.mResultSetMap.content ProviderResultSet.heaps) := by
  rw [deliver]
  dsimp only
  rw [List.flatMap_assoc]
  simp only [outflow_handOver]
  exact (List.perm_append_comm.trans (s.mResultSetMap.content_filterVal _ _).symm)

def dropped : List ℕ → KeyedVector ℕ ProviderResultSet → List AcquiredHeap
  | [], _ => []
  | requestNo :: rvFrameEnd, m =>
    (m.find? requestNo).elim [] ProviderResultSet.heaps ++
      dropped rvFrameEnd (m.remove requestNo)

/-- **Frame ends lose the heaps of the entries that they drop.** -/
theorem content_removeItems (rvFrameEnd : List ℕ) (m : KeyedVector ℕ ProviderResultSet) :
    ((removeItems rvFrameEnd m).content ProviderResultSet.heaps ++ dropped rvFrameEnd m).Perm
      (m.content ProviderResultSet.heaps) := by
  induction rvFrameEnd generalizing m with
  | nil => rw [dropped, List.append_nil]; exact .refl _
  | cons requestNo rvFrameEnd ih =>
    have hrest := (ih (m.remove requestNo)).count_eq
    refine List.perm_iff_count.mpr fun b => ?_
    have hrest := hrest b
    rw [dropped]
    change ((removeItems rvFrameEnd (m.remove requestNo)).content _ ++ _).count b = _
    cases hfound : m.find? requestNo with
    | none =>
      rw [KeyedVector.remove_of_find?_eq_none hfound] at hrest ⊢
      exact hrest
    | some r =>
      have hremove :=
        (KeyedVector.content_remove hfound ProviderResultSet.heaps).count_eq b
      rw [Option.elim_some]
      simp only [List.count_append] at hrest hremove ⊢
      omega

theorem dropped_eq_nil_iff (rvFrameEnd : List ℕ) (m : KeyedVector ℕ ProviderResultSet) :
    dropped rvFrameEnd m = [] ↔
      ∀ k ∈ rvFrameEnd, ∀ r, m.find? k = some r → r.heap = none := by
  have hheaps (r : ProviderResultSet) : r.heaps = [] ↔ r.heap = none := by
    rw [ProviderResultSet.heaps]
    cases r.heap <;> simp
  induction rvFrameEnd generalizing m with
  | nil => simp [dropped]
  | cons requestNo rvFrameEnd ih =>
    have hfirst : (m.find? requestNo).elim [] ProviderResultSet.heaps = [] ↔
        ∀ r, m.find? requestNo = some r → r.heap = none := by
      cases m.find? requestNo with
      | none => simp
      | some r => simp [hheaps]
    have hrest := ih (m.remove requestNo)
    rw [dropped, List.forall_mem_cons]
    refine (List.append_eq_nil_iff.trans (and_congr hfirst hrest)).trans ?_
    refine and_congr_right fun hnone => forall₂_congr fun k hk => forall_congr' fun r => ?_
    rw [KeyedVector.find?_remove]
    split
    · rename_i heq
      rw [heq]
      exact iff_of_true (fun h => by cases h) (hnone r)
    · rfl

/-! ### One part -/

/-- The provider that handles a part loses the heap whose place is taken, and the heaps of the
entries that frame ends drop. -/
def lost (s : StreamBufferProvider) (part : ProviderResultSet) : List AcquiredHeap :=
  overwritten s.mResultSetMap part ++ dropped s.mvFrameEnd
    ((mergePart s.mResultSetMap part).filterVal fun r => !isComplete s.hasTimeStampInfo r)

/-- **What handling a part comes to.** -/
theorem content_handleResult (hs : Keyed s.mResultSetMap) (part : ProviderResultSet) :
    ((s.handleResult part).1.mResultSetMap.content ProviderResultSet.heaps ++
      (s.handleResult part).2.flatMap ProviderEvent.outflow ++ s.lost part).Perm
      (part.heaps ++ s.mResultSetMap.content ProviderResultSet.heaps) := by
  have hmerge := (content_mergePart hs part).count_eq
  have hdeliver := (content_deliver
    { s with mResultSetMap := mergePart s.mResultSetMap part }).count_eq
  have hremove := (content_removeItems s.mvFrameEnd
    ((mergePart s.mResultSetMap part).filterVal fun r =>
      !isComplete s.hasTimeStampInfo r)).count_eq
  refine List.perm_iff_count.mpr fun b => ?_
  have hmerge := hmerge b
  have hdeliver := hdeliver b
  have hremove := hremove b
  rw [lost, handleResult, handleReturn]
  rw [deliver] at hdeliver ⊢
  dsimp only at hdeliver hremove ⊢
  simp only [List.count_append] at hmerge hdeliver hremove ⊢
  omega

theorem inflow_handleResult (s : StreamBufferProvider) (part : ProviderResultSet) :
    (s.handleResult part).2.flatMap ProviderEvent.inflow = [] := by
  rw [handleResult, handleReturn, deliver]
  dsimp only
  rw [List.flatMap_assoc, List.flatMap_eq_nil_iff]
  exact fun e _ => inflow_handOver _ _

theorem find?_handleResult (s : StreamBufferProvider) (part : ProviderResultSet) (k : ℕ) :
    (s.handleResult part).1.mResultSetMap.find? k =
      if k ∈ s.mvFrameEnd then none
      else ((mergePart s.mResultSetMap part).find? k).filter fun r =>
        !isComplete s.hasTimeStampInfo r := by
  rw [handleResult, handleReturn, deliver]
  dsimp only
  rw [removeItems, KeyedVector.find?_foldl_remove, KeyedVector.find?_filterVal]

theorem keyed_handleResult (hs : Keyed s.mResultSetMap) (part : ProviderResultSet) :
    Keyed (s.handleResult part).1.mResultSetMap := by
  intro k r hfind
  rw [find?_handleResult] at hfind
  split at hfind
  · cases hfind
  · exact keyed_mergePart hs part k r (Option.filter_eq_some_iff.mp hfind).1

def heapThere (s : StreamBufferProvider) (part : ProviderResultSet) (k : ℕ) : Bool :=
  (decide (k = part.requestNo) && part.heap.isSome) ||
    (s.mResultSetMap.find? k).any fun r => r.heap.isSome

/-- Is there a timestamp for the request, or need there be none? -/
def stampThere (s : StreamBufferProvider) (part : ProviderResultSet) (k : ℕ) : Bool :=
  !s.hasTimeStampInfo || (decide (k = part.requestNo) && decide (0 ≤ part.timestamp)) ||
    (s.mResultSetMap.find? k).any fun r => decide (0 ≤ r.timestamp)

theorem isComplete_mergePart (h : (mergePart s.mResultSetMap part).find? k = some r) :
    r.heap.isSome = s.heapThere part k ∧
      isComplete s.hasTimeStampInfo r = (s.heapThere part k && s.stampThere part k) := by
  have hheap : r.heap.isSome = s.heapThere part k ∧
      (!s.hasTimeStampInfo || decide (0 ≤ r.timestamp)) = s.stampThere part k := by
    rw [find?_mergePart] at h
    rw [heapThere, stampThere]
    split at h
    · rename_i heq
      obtain rfl := Option.some.inj h
      rw [heq]
      cases s.mResultSetMap.find? part.requestNo with
      | none =>
        rw [Option.elim_none, Option.any_none, Option.any_none, decide_eq_true rfl]
        exact ⟨by simp, by rw [Bool.true_and, Bool.or_false]⟩
      | some result =>
        rw [Option.elim_some, ProviderResultSet.merge]
        constructor
        · cases part.heap <;> simp
        · by_cases hstamp : 0 ≤ part.timestamp <;> simp [hstamp]
    · rename_i hne
      simp [h, hne]
  rw [isComplete, ← hheap.1, ← hheap.2]
  refine ⟨rfl, ?_⟩
  cases r.heap <;> cases s.hasTimeStampInfo <;> simp

/-! ### Requests that are done with -/

def Outstanding (s : StreamBufferProvider) (k : ℕ) : Prop :=
  ∃ e ∈ s.mBufferMap.entries, e.2.requestNo = k

/-- **All has come for the request**: its stream buffers are back, its timestamp has come, if
there are timestamps, and its frame ends have been handled. -/
structure Processed (s : StreamBufferProvider) (k : ℕ) : Prop where
  ended : k ∈ s.ended
  noFrameEnd : k ∉ s.mvFrameEnd
  back : ¬ s.Outstanding k
  stamped : s.hasTimeStampInfo = true → k ∈ s.stamped

/-- No entry of a request stays for which all has come. -/
def NoEntry (s : StreamBufferProvider) : Prop :=
  ∀ k, s.Processed k → k ∉ s.mResultSetMap.keys

/-- **When a part loses nothing.** It brings no heap for an entry that has one; the frame ends
that it lets handle meet no heap without a timestamp; and if all has come for its request, there
is a heap for it and a timestamp. -/
structure Fits (s : StreamBufferProvider) (part : ProviderResultSet) : Prop where
  free : part.heap = none ∨
    (s.mResultSetMap.find? part.requestNo).all (fun r => decide (r.heap = none)) = true
  stamp : ∀ k ∈ s.mvFrameEnd, s.heapThere part k = true → s.stampThere part k = true
  complete : s.Processed part.requestNo →
    (s.heapThere part part.requestNo && s.stampThere part part.requestNo) = true

instance (s : StreamBufferProvider) (k : ℕ) : Decidable (s.Processed k) :=
  decidable_of_iff (k ∈ s.ended ∧ k ∉ s.mvFrameEnd ∧
      (¬ ∃ e ∈ s.mBufferMap.entries, e.2.requestNo = k) ∧
      (s.hasTimeStampInfo = true → k ∈ s.stamped))
    ⟨fun h => ⟨h.1, h.2.1, h.2.2.1, h.2.2.2⟩,
      fun h => ⟨h.ended, h.noFrameEnd, h.back, h.stamped⟩⟩

instance (s : StreamBufferProvider) (part : ProviderResultSet) : Decidable (s.Fits part) :=
  decidable_of_iff ((part.heap = none ∨
        (s.mResultSetMap.find? part.requestNo).all (fun r => decide (r.heap = none)) = true) ∧
      (∀ k ∈ s.mvFrameEnd, s.heapThere part k = true → s.stampThere part k = true) ∧
      (s.Processed part.requestNo →
        (s.heapThere part part.requestNo && s.stampThere part part.requestNo) = true))
    ⟨fun h => ⟨h.1, h.2.1, h.2.2⟩, fun h => ⟨h.free, h.stamp, h.complete⟩⟩

theorem overwritten_eq_nil_iff : overwritten m part = [] ↔ part.heap = none ∨
    (m.find? part.requestNo).all (fun r => decide (r.heap = none)) = true := by
  rw [overwritten]
  cases m.find? part.requestNo with
  | none => simp
  | some r =>
    dsimp only
    rw [ProviderResultSet.heaps]
    cases part.heap <;> cases hheap : r.heap <;> simp [hheap]

/-- A part loses nothing exactly if it fits its entry, and the frame ends that are handled. -/
theorem lost_eq_nil_iff (s : StreamBufferProvider) (part : ProviderResultSet) :
    s.lost part = [] ↔ (part.heap = none ∨
      (s.mResultSetMap.find? part.requestNo).all (fun r => decide (r.heap = none)) = true) ∧
      ∀ k ∈ s.mvFrameEnd, s.heapThere part k = true → s.stampThere part k = true := by
  rw [lost, List.append_eq_nil_iff, overwritten_eq_nil_iff, dropped_eq_nil_iff]
  refine and_congr_right fun _ => forall₂_congr fun k _ => ?_
  simp only [KeyedVector.find?_filterVal, Option.filter_eq_some_iff]
  cases hfind : (mergePart s.mResultSetMap part).find? k with
  | none =>
    -- Without an entry there is no heap.
    refine iff_of_true (fun r h => by cases h.1) fun hheap => ?_
    rw [find?_mergePart] at hfind
    split at hfind
    · cases hfind
    · rename_i hne
      simp [heapThere, hne, hfind] at hheap
  | some r =>
    obtain ⟨hheap, hcomplete⟩ := isComplete_mergePart hfind
    simp only [Option.some.injEq, Bool.not_eq_true', and_imp, forall_eq']
    rw [hcomplete, ← hheap]
    cases r.heap <;> cases s.stampThere part k <;> simp

theorem mem_keys_handleResult (s : StreamBufferProvider) (part : ProviderResultSet) (k : ℕ) :
    k ∈ (s.handleResult part).1.mResultSetMap.keys ↔ k ∉ s.mvFrameEnd ∧
      ∃ r, (mergePart s.mResultSetMap part).find? k = some r ∧
        (s.heapThere part k && s.stampThere part k) = false := by
  rw [KeyedVector.mem_keys_iff, find?_handleResult]
  split
  · rename_i hmem
    simp [hmem]
  · rename_i hmem
    simp only [hmem, not_false_eq_true, true_and, Option.filter_eq_some_iff, Bool.not_eq_true']
    refine exists_congr fun r => and_congr_right fun hfind => ?_
    rw [(isComplete_mergePart hfind).2]

/-- **A part leaves no entry** exactly if it makes the entry complete when all has come. -/
theorem noEntry_handleResult
    (hother : ∀ k, k ≠ part.requestNo → s.Processed k → k ∉ s.mResultSetMap.keys) :
    (s.handleResult part).1.NoEntry ↔ (s.Processed part.requestNo →
      (s.heapThere part part.requestNo && s.stampThere part part.requestNo) = true) := by
  -- All frame ends are handled; nothing else changes that tells whether all has come.
  have hended : (s.handleResult part).1.ended = s.ended ++ s.mvFrameEnd := rfl
  have hframe : (s.handleResult part).1.mvFrameEnd = [] := rfl
  have hprocessed (k : ℕ) (hnot : k ∉ s.mvFrameEnd) :
      (s.handleResult part).1.Processed k ↔ s.Processed k := by
    constructor
    · rintro ⟨h₁, -, h₃, h₄⟩
      rw [hended] at h₁
      exact ⟨(List.mem_append.mp h₁).resolve_right hnot, hnot, h₃, h₄⟩
    · rintro ⟨h₁, -, h₃, h₄⟩
      exact ⟨List.mem_append_left _ h₁, by rw [hframe]; exact List.not_mem_nil, h₃, h₄⟩
  constructor
  · intro hno hp
    by_contra hincomplete
    obtain ⟨r, hfind⟩ : ∃ r, (mergePart s.mResultSetMap part).find? part.requestNo = some r := by
      rw [find?_mergePart, if_pos rfl]
      exact ⟨_, rfl⟩
    refine hno _ ((hprocessed _ hp.noFrameEnd).mpr hp) ?_
    rw [mem_keys_handleResult]
    exact ⟨hp.noFrameEnd, r, hfind, by rwa [Bool.not_eq_true] at hincomplete⟩
  · intro hcomplete k hp hkey
    obtain ⟨hnot, r, hfind, hincomplete⟩ := (mem_keys_handleResult s part k).mp hkey
    have hp' := (hprocessed k hnot).mp hp
    rw [find?_mergePart] at hfind
    split at hfind
    · rename_i heq
      subst heq
      rw [hcomplete hp'] at hincomplete
      cases hincomplete
    · rename_i hne
      exact hother k hne hp' (KeyedVector.mem_keys_of_find? hfind)

/-! ### Steps -/

def withoutBuffer (s : StreamBufferProvider) (rpStreamBuffer : HalImageStreamBuffer) :
    StreamBufferProvider :=
  { s with mBufferMap := s.mBufferMap.remove rpStreamBuffer }

/-- The state in which the timestamp of a request has come. -/
def withStamp (s : StreamBufferProvider) (requestNo : ℕ) : StreamBufferProvider :=
  { s with stamped := s.stamped ++ [requestNo] }

/-- **When a step loses nothing.** -/
def LosesNothing (s : StreamBufferProvider) : ProviderOp → Prop
  | .enqueStreamBuffer rpStreamBuffer error =>
    s.mpBufferPool = true → ∀ e ∈ s.mBufferMap.entries, e.1 = rpStreamBuffer →
      (s.withoutBuffer rpStreamBuffer).Fits ⟨e.2.requestNo, some e.2.heap, error, -1⟩
  | .doTimestampCallback requestNo errorResult timestamp =>
    (s.withStamp requestNo).Fits ⟨requestNo, none, errorResult, timestamp⟩
  | _ => True

instance : ∀ (s : StreamBufferProvider) (op : ProviderOp), Decidable (LosesNothing s op)
  | s, .enqueStreamBuffer rpStreamBuffer error => inferInstanceAs (Decidable
      (s.mpBufferPool = true → ∀ e ∈ s.mBufferMap.entries, e.1 = rpStreamBuffer →
        (s.withoutBuffer rpStreamBuffer).Fits ⟨e.2.requestNo, some e.2.heap, error, -1⟩))
  | s, .doTimestampCallback requestNo errorResult timestamp => inferInstanceAs (Decidable
      ((s.withStamp requestNo).Fits ⟨requestNo, none, errorResult, timestamp⟩))
  | _, .setBufferPool | _, .setPairRule _ | _, .dequeStreamBuffer _ _ _ | _, .onFrameEnd _
  | _, .flush | _, .returnBuffer _ => inferInstanceAs (Decidable True)

theorem keyed_step (hs : Keyed s.mResultSetMap) (hstep : providerMachine s op = .ok (s', o)) :
    Keyed s'.mResultSetMap := by
  cases op with
  | setBufferPool | setPairRule | onFrameEnd =>
    cases hstep
    exact hs
  | dequeStreamBuffer iRequestNo rpStreamBuffer pHeap =>
    rw [providerMachine] at hstep
    split at hstep
    · cases hstep
    · obtain rfl : (s.dequeStreamBuffer iRequestNo rpStreamBuffer pHeap).1 = s' := by
        rw [Except.ok.inj hstep]
      unfold dequeStreamBuffer
      split
      · cases pHeap <;> exact hs
      · exact hs
  | enqueStreamBuffer rpStreamBuffer error =>
    rw [providerMachine] at hstep
    split at hstep
    · cases hstep
    · rename_i buf hbuf
      obtain rfl : (s.enqueStreamBuffer rpStreamBuffer buf error).1 = s' := by
        rw [Except.ok.inj hstep]
      rw [enqueStreamBuffer]
      split
      · exact keyed_handleResult (s := s.withoutBuffer rpStreamBuffer) hs _
      · exact hs
  | doTimestampCallback requestNo errorResult timestamp =>
    cases hstep
    exact keyed_handleResult (s := s.withStamp requestNo) hs _
  | flush =>
    cases hstep
    intro k r hfind
    cases hfind
  | returnBuffer rpHeap =>
    obtain rfl : (s.returnBuffer rpHeap).1 = s' := by rw [Except.ok.inj hstep]
    rw [returnBuffer]
    split <;> exact hs

/-- **Handling a part flows and leaves no entry exactly if the part fits.** -/
theorem handleResult_iff (s₀ : StreamBufferProvider) (part : ProviderResultSet)
    (o : List ProviderEvent) (hs : Keyed s.mResultSetMap)
    (hheld : s₀.held.Perm (part.heaps ++ s.held))
    (hother : ∀ k, k ≠ part.requestNo → s.Processed k → k ∉ s.mResultSetMap.keys)
    (hin : o.flatMap ProviderEvent.inflow = []) (hout : o.flatMap ProviderEvent.outflow = []) :
    (ledger.Flows s₀ ((s.handleResult part).2 ++ o) (s.handleResult part).1 ∧
      (s.handleResult part).1.NoEntry) ↔ s.Fits part := by
  have hcontent := content_handleResult hs part
  have hlost : ledger.Flows s₀ ((s.handleResult part).2 ++ o) (s.handleResult part).1 ↔
      s.lost part = [] := by
    refine Ledger.flows_iff_of_lost ?_
    change ((s.mBufferMap.content BufferT.heaps ++
      (s.handleResult part).1.mResultSetMap.content ProviderResultSet.heaps) ++
      ((s.handleResult part).2 ++ o).flatMap ProviderEvent.outflow ++ s.lost part).Perm
      (s₀.held ++ ((s.handleResult part).2 ++ o).flatMap ProviderEvent.inflow)
    rw [List.flatMap_append, List.flatMap_append, hin, hout, inflow_handleResult,
      List.append_nil, List.append_nil, List.append_nil]
    refine List.perm_iff_count.mpr fun b => ?_
    have hcontent := hcontent.count_eq b
    have hheld := hheld.count_eq b
    rw [held.eq_def s] at hheld
    simp only [List.count_append] at hcontent hheld ⊢
    omega
  rw [hlost, lost_eq_nil_iff, noEntry_handleResult hother]
  exact ⟨fun h => ⟨h.1.1, h.1.2, h.2⟩, fun h => ⟨⟨h.free, h.stamp⟩, h.complete⟩⟩

theorem enque_iff (hs : Keyed s.mResultSetMap) (hno : s.NoEntry)
    {rpStreamBuffer : HalImageStreamBuffer} {buf : BufferT}
    (hbuf : s.mBufferMap.find? rpStreamBuffer = some buf) (error : Bool) :
    (ledger.Flows s (s.enqueStreamBuffer rpStreamBuffer buf error).2
        (s.enqueStreamBuffer rpStreamBuffer buf error).1 ∧
      (s.enqueStreamBuffer rpStreamBuffer buf error).1.NoEntry) ↔ (s.mpBufferPool = true →
        (s.withoutBuffer rpStreamBuffer).Fits ⟨buf.requestNo, some buf.heap, error, -1⟩) := by
  rw [enqueStreamBuffer]
  split
  · rename_i hpool
    have hheld : s.held.Perm (buf.heaps ++ (s.withoutBuffer rpStreamBuffer).held) := by
      rw [held, held, ← List.append_assoc]
      exact (KeyedVector.content_remove hbuf BufferT.heaps).append_right _
    have hother : ∀ k, k ≠ buf.requestNo → (s.withoutBuffer rpStreamBuffer).Processed k →
        k ∉ s.mResultSetMap.keys := by
      intro k hk hp
      refine hno k ⟨hp.ended, hp.noFrameEnd, ?_, hp.stamped⟩
      rintro ⟨⟨b, buf'⟩, he, rfl⟩
      refine hp.back ⟨(b, buf'), ?_, rfl⟩
      refine List.mem_filter.mpr ⟨he, decide_eq_true fun heq => hk ?_⟩
      obtain rfl : b = rpStreamBuffer := heq
      have hfound := hbuf.symm.trans (KeyedVector.find?_eq_some_iff.mpr he)
      rw [Option.some.inj hfound]
    have hiff := handleResult_iff (s := s.withoutBuffer rpStreamBuffer) s
      ⟨buf.requestNo, some buf.heap, error, -1⟩ [.answered .ok] hs hheld hother rfl rfl
    exact hiff.trans ⟨fun h _ => h, fun h => h hpool⟩
  · rename_i hpool
    exact iff_of_true ⟨Ledger.Flows.of_eq rfl rfl rfl, hno⟩ fun h => absurd h hpool

theorem stamp_iff (hs : Keyed s.mResultSetMap) (hno : s.NoEntry) (requestNo : ℕ)
    (errorResult : Bool) (timestamp : ℤ) :
    (ledger.Flows s (s.doTimestampCallback requestNo errorResult timestamp).2
        (s.doTimestampCallback requestNo errorResult timestamp).1 ∧
      (s.doTimestampCallback requestNo errorResult timestamp).1.NoEntry) ↔
      (s.withStamp requestNo).Fits ⟨requestNo, none, errorResult, timestamp⟩ := by
  have hother : ∀ k, k ≠ requestNo → (s.withStamp requestNo).Processed k →
      k ∉ s.mResultSetMap.keys := by
    intro k hk hp
    refine hno k ⟨hp.ended, hp.noFrameEnd, hp.back, fun hinfo => ?_⟩
    exact (List.mem_append.mp (hp.stamped hinfo)).resolve_right (by simpa using hk)
  have hiff := handleResult_iff (s := s.withStamp requestNo) s
    ⟨requestNo, none, errorResult, timestamp⟩ [] hs (.refl _) hother rfl rfl
  rw [List.append_nil] at hiff
  exact hiff

theorem noEntry_of_imp (hno : s.NoEntry) (hmap : s'.mResultSetMap = s.mResultSetMap)
    (himp : ∀ k, s'.Processed k → s.Processed k) : s'.NoEntry := by
  intro k hp
  rw [hmap]
  exact hno k (himp k hp)

theorem deque_keeps (hno : s.NoEntry) {rpStreamBuffer : HalImageStreamBuffer}
    (hbuf : s.mBufferMap.find? rpStreamBuffer = none) (iRequestNo : ℕ)
    (pHeap : Option IImageBufferHeap) :
    ledger.Flows s (s.dequeStreamBuffer iRequestNo rpStreamBuffer pHeap).2
        (s.dequeStreamBuffer iRequestNo rpStreamBuffer pHeap).1 ∧
      (s.dequeStreamBuffer iRequestNo rpStreamBuffer pHeap).1.NoEntry := by
  unfold dequeStreamBuffer
  split
  · cases pHeap with
    | none => exact ⟨.of_eq rfl rfl rfl, hno⟩
    | some heap =>
      have hremove := KeyedVector.remove_of_find?_eq_none hbuf
      constructor
      · have hadd := s.mBufferMap.content_add BufferT.heaps rpStreamBuffer ⟨iRequestNo, heap⟩
        rw [hremove] at hadd
        have hcomm : ([(iRequestNo, heap)] ++ s.held).Perm (s.held ++ [(iRequestNo, heap)]) :=
          List.perm_append_comm
        change (_ ++ s.mResultSetMap.content ProviderResultSet.heaps ++ []).Perm _
        rw [List.append_nil]
        exact (hadd.append_right _).trans hcomm
      · refine noEntry_of_imp hno rfl fun k hp => ⟨hp.ended, hp.noFrameEnd, ?_, hp.stamped⟩
        rintro ⟨e, he, hk⟩
        refine hp.back ⟨e, (s.mBufferMap.perm_add _ _).mem_iff.mpr ?_, hk⟩
        rw [hremove]
        exact List.mem_cons_of_mem _ he
  · exact ⟨.of_eq rfl rfl rfl, hno⟩

theorem flush_keeps (s : StreamBufferProvider) :
    ledger.Flows s s.flush.2 s.flush.1 ∧ s.flush.1.NoEntry := by
  refine ⟨?_, fun k _ => List.not_mem_nil⟩
  have hrelease (r : ProviderResultSet) : r.release.flatMap ProviderEvent.outflow = r.heaps ∧
      r.release.flatMap ProviderEvent.inflow = [] := by
    rw [ProviderResultSet.release, ProviderResultSet.heaps]
    cases r.heap <;> exact ⟨rfl, rfl⟩
  have hin : s.flush.2.flatMap ProviderEvent.inflow = [] := by
    rw [flush, List.flatMap_append, List.flatMap_assoc, List.append_eq_nil_iff,
      List.flatMap_eq_nil_iff]
    refine ⟨fun e _ => (hrelease e.2).2, ?_⟩
    cases s.mpConsumer <;> rfl
  have hout : s.flush.2.flatMap ProviderEvent.outflow =
      s.mResultSetMap.content ProviderResultSet.heaps := by
    rw [flush, List.flatMap_append, List.flatMap_assoc]
    simp only [hrelease]
    cases s.mpConsumer <;> exact List.append_nil _
  change (s.flush.1.held ++ s.flush.2.flatMap ProviderEvent.outflow).Perm
    (s.held ++ s.flush.2.flatMap ProviderEvent.inflow)
  rw [hin, hout, held, held, flush, KeyedVector.content_empty, List.append_nil, List.append_nil]

theorem return_keeps (hno : s.NoEntry) (rpHeap : IImageBufferHeap) :
    ledger.Flows s (s.returnBuffer rpHeap).2 (s.returnBuffer rpHeap).1 ∧
      (s.returnBuffer rpHeap).1.NoEntry := by
  rw [returnBuffer]
  split
  · exact ⟨.of_eq rfl rfl rfl, hno⟩
  · exact ⟨.of_eq rfl rfl rfl, noEntry_of_imp hno rfl fun k hp =>
      ⟨hp.ended, hp.noFrameEnd, hp.back, hp.stamped⟩⟩

/-- **A step flows and leaves no entry exactly if it loses nothing.** -/
theorem step_iff (hs : Keyed s.mResultSetMap) (hno : s.NoEntry)
    (hstep : providerMachine s op = .ok (s', o)) :
    (ledger.Flows s o s' ∧ s'.NoEntry) ↔ LosesNothing s op := by
  cases op with
  | setBufferPool | setPairRule =>
    cases hstep
    exact iff_of_true ⟨.of_eq rfl rfl rfl, noEntry_of_imp hno rfl fun k hp =>
      ⟨hp.ended, hp.noFrameEnd, hp.back, hp.stamped⟩⟩ trivial
  | dequeStreamBuffer iRequestNo rpStreamBuffer pHeap =>
    rw [providerMachine] at hstep
    split at hstep
    · cases hstep
    · rename_i hbuf
      obtain ⟨rfl, rfl⟩ := Prod.ext_iff.mp (Except.ok.inj hstep)
      exact iff_of_true (deque_keeps hno hbuf _ _) trivial
  | enqueStreamBuffer rpStreamBuffer error =>
    rw [providerMachine] at hstep
    split at hstep
    · cases hstep
    · rename_i buf hbuf
      obtain ⟨rfl, rfl⟩ := Prod.ext_iff.mp (Except.ok.inj hstep)
      refine (enque_iff hs hno hbuf error).trans (forall_congr' fun _ => ?_)
      constructor
      · rintro hfits ⟨b, buf'⟩ he rfl
        have hfound := hbuf.symm.trans (KeyedVector.find?_eq_some_iff.mpr he)
        rwa [← Option.some.inj hfound]
      · exact fun hfits => hfits _ (KeyedVector.find?_eq_some_iff.mp hbuf) rfl
  | doTimestampCallback requestNo errorResult timestamp =>
    cases hstep
    exact stamp_iff hs hno _ _ _
  | onFrameEnd requestNo =>
    cases hstep
    refine iff_of_true ⟨.of_eq rfl rfl rfl, noEntry_of_imp hno rfl fun k hp => ?_⟩ trivial
    exact ⟨hp.ended, fun hmem => hp.noFrameEnd (List.mem_append_left _ hmem), hp.back,
      hp.stamped⟩
  | flush =>
    cases hstep
    exact iff_of_true (flush_keeps s) trivial
  | returnBuffer rpHeap =>
    obtain ⟨rfl, rfl⟩ := Prod.ext_iff.mp (Except.ok.inj hstep)
    exact iff_of_true (return_keeps hno rpHeap) trivial

/-! ### Runs -/

/-- **Every heap is accounted for.** As often as it has been acquired it is held or has been
handed over. When all has come for its request it has been handed over as often as it has been
acquired, and no entry of the request remains. -/
structure Accounted (s : StreamBufferProvider) (os : List ProviderEvent) : Prop where
  places : ∀ b, s.held.count b + (os.flatMap ProviderEvent.outflow).count b =
    (os.flatMap ProviderEvent.inflow).count b
  handedOver : ∀ k heap, s.Processed k →
    (os.flatMap ProviderEvent.outflow).count (k, heap) =
      (os.flatMap ProviderEvent.inflow).count (k, heap)
  noEntry : s.NoEntry

theorem not_mem_held (hs : Keyed s.mResultSetMap) {heap : IImageBufferHeap}
    (hback : ¬ s.Outstanding k) (hkey : k ∉ s.mResultSetMap.keys) : (k, heap) ∉ s.held := by
  rw [held, List.mem_append, not_or]
  constructor
  · rw [KeyedVector.mem_content]
    rintro ⟨b, buf, hfind, hmem⟩
    refine hback ⟨(b, buf), KeyedVector.find?_eq_some_iff.mp hfind, ?_⟩
    obtain ⟨rfl, -⟩ := Prod.mk.inj (List.mem_singleton.mp hmem)
    rfl
  · rw [KeyedVector.mem_content]
    rintro ⟨k', r, hfind, hmem⟩
    obtain ⟨heap', -, heq⟩ := Option.map_eq_some_iff.mp (Option.mem_toList.mp hmem)
    obtain ⟨rfl, -⟩ := Prod.mk.inj heq
    rw [hs k' r hfind] at hkey
    exact hkey (KeyedVector.mem_keys_of_find? hfind)

theorem accounted_iff_balanced (hasTimeStampInfo : Bool) (hs : Keyed s.mResultSetMap) :
    s.Accounted os ↔ ledger.Balanced (new hasTimeStampInfo) s os ∧ s.NoEntry := by
  have hplaces : (∀ b, s.held.count b + (os.flatMap ProviderEvent.outflow).count b =
      (os.flatMap ProviderEvent.inflow).count b) ↔
        ledger.Balanced (new hasTimeStampInfo) s os := by
    rw [Ledger.Balanced, Ledger.Flows, List.perm_iff_count]
    refine forall_congr' fun b => ?_
    rw [List.count_append, List.count_append]
    exact .of_eq (congrArg _ (Nat.zero_add _).symm)
  rw [← hplaces]
  refine ⟨fun h => ⟨h.places, h.noEntry⟩, ?_⟩
  rintro ⟨hplaces, hno⟩
  refine ⟨hplaces, fun k heap hp => ?_, hno⟩
  have hnot : (k, heap) ∉ s.held := not_mem_held hs hp.back (hno k hp)
  have hplace := hplaces (k, heap)
  rw [List.count_eq_zero_of_not_mem hnot] at hplace
  omega

theorem keyed_of_runs (h : providerMachine.Runs (new hasTimeStampInfo) ops s os) :
    Keyed s.mResultSetMap := by
  refine h.invariant (I := fun _ s _ => Keyed s.mResultSetMap) ?_ ?_
  · intro k r hfind
    cases hfind
  · intro _ _ _ _ _ _ hs hstep
    exact keyed_step hs hstep

/-- **Exactly in the runs in which no step loses anything, every heap is accounted for
throughout.** -/
theorem accounted_iff (h : providerMachine.Runs (new hasTimeStampInfo) ops s os) :
    (∀ ops₁ ops₂ s₁ os₁, ops = ops₁ ++ ops₂ →
      providerMachine.Runs (new hasTimeStampInfo) ops₁ s₁ os₁ → s₁.Accounted os₁) ↔
      providerMachine.RunsMeeting (fun _ => LosesNothing) (new hasTimeStampInfo) ops s os := by
  refine (h.meeting_iff (I := fun os s => s.Accounted os) ?_ ?_).symm
  · exact ⟨fun _ => rfl, fun _ _ _ => rfl, fun k _ => List.not_mem_nil⟩
  · intro ops s os op s' o hrun hI hstep
    have hs := keyed_of_runs hrun
    obtain ⟨hbalanced, hno⟩ := (accounted_iff_balanced hasTimeStampInfo hs).mp hI
    rw [accounted_iff_balanced hasTimeStampInfo (keyed_step hs hstep),
      Ledger.balanced_append_iff hbalanced]
    exact step_iff hs hno hstep

/-- A heap whose timestamp comes before the frame end is handled. -/
theorem accounted_iff_inOrder :
    ∃ s os, providerMachine.Runs (new true)
        [.setBufferPool, .dequeStreamBuffer 5 100 (some 1), .enqueStreamBuffer 100 false,
          .doTimestampCallback 5 false 33, .onFrameEnd 5, .dequeStreamBuffer 6 101 (some 1),
          .enqueStreamBuffer 101 false] s os ∧ s.Processed 5 ∧ s.Accounted os := by
  have hshows : providerMachine.shows (new true)
      [.setBufferPool, .dequeStreamBuffer 5 100 (some 1), .enqueStreamBuffer 100 false,
        .doTimestampCallback 5 false 33, .onFrameEnd 5, .dequeStreamBuffer 6 101 (some 1),
        .enqueStreamBuffer 101 false] (fun s _ => s.Processed 5) = true := by
    decide
  obtain ⟨s, os, hrun, hprocessed⟩ := Machine.exists_run_of_shows hshows
  have hmeeting := hrun.meeting (C := LosesNothing) (by decide)
  exact ⟨s, os, hrun, hprocessed,
    (accounted_iff hrun).mpr hmeeting _ [] s os (by simp) hrun⟩

/-- A frame end that is handled between a heap and its timestamp drops the entry: the heap goes
nowhere. A stream buffer that comes back when the frame end has been handled leaves an
entry. -/
theorem frameEndFirst_lost :
    (∃ s os, providerMachine.Runs (new true)
        [.setBufferPool, .dequeStreamBuffer 5 100 (some 1), .enqueStreamBuffer 100 false,
          .onFrameEnd 5, .doTimestampCallback 6 false 66, .doTimestampCallback 5 false 33] s os ∧
      s.Processed 5 ∧
      os.flatMap ProviderEvent.inflow = [(5, 1)] ∧ os.flatMap ProviderEvent.outflow = [] ∧
      s.held = []) ∧
    ∃ s os, providerMachine.Runs (new true)
        [.setBufferPool, .dequeStreamBuffer 5 100 (some 1), .doTimestampCallback 5 false 33,
          .onFrameEnd 5, .doTimestampCallback 6 false 66, .enqueStreamBuffer 100 false] s os ∧
      s.Processed 5 ∧ 5 ∈ s.mResultSetMap.keys ∧ os.flatMap ProviderEvent.outflow = [] ∧
      s.held = [(5, 1)] :=
  ⟨Machine.exists_run_of_shows (by decide),
    Machine.exists_run_of_shows (by decide)⟩

end StreamBufferProvider

end MtkHardware.LegacyPipeline
