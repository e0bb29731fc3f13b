import MtkHardware.LegacyPipeline.PairMetadata
import Mathlib.Algebra.BigOperators.Group.List.Basic

/-!
# The Parts of a Request

The parts of a request are its buffers and its metadata. They are in the queue, with the thread,
or in the entry of the request, until the entry goes to the selector or is dropped at the frame
end of the request, when its buffers go back.

A part that is merged after the frame end of its request has been handled makes an entry that no
frame end will drop; and without a selector a frame end drops the buffers of its entry.
-/

open scoped List

namespace MtkHardware.LegacyPipeline

inductive Part
  | buffer (requestNo : ℕ) (rBuffer : BufferItemSet)
  | metadata (requestNo : ℕ) (result : MetaItemSet)
  deriving DecidableEq, Repr

def Part.requestNo : Part → ℕ
  | buffer requestNo _ | metadata requestNo _ => requestNo

def partsOf (requestNo : ℕ) (bufferSet : List BufferItemSet) (resultMeta : List MetaItemSet) :
    List Part :=
  bufferSet.map (Part.buffer requestNo) ++ resultMeta.map (Part.metadata requestNo)

theorem requestNo_of_mem_partsOf {requestNo : ℕ} {bufferSet : List BufferItemSet}
    {resultMeta : List MetaItemSet} {p : Part} (h : p ∈ partsOf requestNo bufferSet resultMeta) :
    p.requestNo = requestNo := by
  rcases List.mem_append.mp h with hb | hm
  · obtain ⟨_, -, rfl⟩ := List.mem_map.mp hb
    rfl
  · obtain ⟨_, -, rfl⟩ := List.mem_map.mp hm
    rfl

def PairResultSet.parts (r : PairResultSet) : List Part :=
  partsOf r.requestNo r.bufferSet r.resultMeta

namespace PairEvent

def inflow : PairEvent → List Part
  | produced part => part.parts
  | _ => []

def outflow : PairEvent → List Part
  | selectResult _ requestNo resultMeta bufferSet _ => partsOf requestNo bufferSet resultMeta
  | returnBuffer _ requestNo rBuffer => [.buffer requestNo rBuffer]
  | frameEnd requestNo resultMeta => partsOf requestNo [] resultMeta
  | _ => []

end PairEvent

namespace PairMetadata

variable {s s' : PairMetadata} {op : PairOp} {ops : List PairOp} {o os : List PairEvent}
  {m : KeyedVector ℕ PairResultSet} {r part : PairResultSet} {rvResult : List PairResultSet}
  {requestNo : ℕ} {mpRule : Option ISelector} {rvFrameEnd : List ℕ}

def got (s : PairMetadata) : List PairResultSet :=
  match s.thread with
  | .got rvResult => rvResult
  | _ => []

def unmerged (s : PairMetadata) : List PairResultSet := s.mTempSetMap ++ s.got

def held (s : PairMetadata) : List Part :=
  s.unmerged.flatMap PairResultSet.parts ++ s.mResultSetMap.content PairResultSet.parts

def ledger : Ledger PairMetadata PairEvent Part where
  content := held
  inflow := PairEvent.inflow
  outflow := PairEvent.outflow

/-! ### The entries -/

def Keyed (m : KeyedVector ℕ PairResultSet) : Prop :=
  ∀ k r, m.find? k = some r → r.requestNo = k

theorem find?_mergePart (m : KeyedVector ℕ PairResultSet) (part : PairResultSet) (k : ℕ) :
    (mergePart m part).find? k =
      if k = part.requestNo then
        some ((m.find? part.requestNo).elim part fun result => result.merge part)
      else m.find? k :=
  m.find?_insertWith _ _ _ _

theorem keyed_mergePart (hm : Keyed m) (part : PairResultSet) : Keyed (mergePart m part) :=
  KeyedVector.forall_insertWith hm rfl fun _ hkey => hkey

theorem parts_merge (h : r.requestNo = part.requestNo) :
    (r.merge part).parts.Perm (part.parts ++ r.parts) := by
  rw [PairResultSet.parts, PairResultSet.parts, PairResultSet.parts, ← h, PairResultSet.merge,
    partsOf, partsOf, partsOf, List.map_append, List.map_append]
  refine List.perm_iff_count.mpr fun p => ?_
  simp only [List.count_append]
  omega

/-- **A merge keeps the parts.** -/
theorem content_mergePart (hm : Keyed m) (part : PairResultSet) :
    ((mergePart m part).content PairResultSet.parts).Perm
      (part.parts ++ m.content PairResultSet.parts) := by
  refine (m.content_insertWith _ _ _ _).trans ?_
  cases hfound : m.find? part.requestNo with
  | none =>
    rw [Option.elim_none, KeyedVector.remove_of_find?_eq_none hfound]
  | some result =>
    rw [Option.elim_some]
    calc (result.merge part).parts ++ (m.remove part.requestNo).content PairResultSet.parts
        ~ part.parts ++ result.parts ++
            (m.remove part.requestNo).content PairResultSet.parts :=
          (parts_merge (hm _ _ hfound)).append_right _
      _ ~ part.parts ++ m.content PairResultSet.parts := by
          rw [List.append_assoc]
          exact (KeyedVector.content_remove hfound _).symm.append_left _

theorem keyed_mergeParts (hm : Keyed m) (rvResult : List PairResultSet) :
    Keyed (mergeParts rvResult m) := by
  induction rvResult generalizing m with
  | nil => exact hm
  | cons part rvResult ih => exact ih (keyed_mergePart hm part)

theorem content_mergeParts (hm : Keyed m) (rvResult : List PairResultSet) :
    ((mergeParts rvResult m).content PairResultSet.parts).Perm
      (rvResult.flatMap PairResultSet.parts ++ m.content PairResultSet.parts) := by
  induction rvResult generalizing m with
  | nil => exact .refl _
  | cons part rvResult ih =>
    rw [List.flatMap_cons]
    calc (mergeParts rvResult (mergePart m part)).content PairResultSet.parts
        ~ rvResult.flatMap PairResultSet.parts ++
            (mergePart m part).content PairResultSet.parts := ih (keyed_mergePart hm part)
      _ ~ rvResult.flatMap PairResultSet.parts ++
            (part.parts ++ m.content PairResultSet.parts) :=
          (content_mergePart hm part).append_left _
      _ ~ part.parts ++ rvResult.flatMap PairResultSet.parts ++
            m.content PairResultSet.parts := by
          rw [List.append_assoc]
          exact List.perm_append_comm_assoc _ _ _

/-- How much of something has been collected for a request. -/
def collected (size : PairResultSet → ℕ) (m : KeyedVector ℕ PairResultSet) (k : ℕ) : ℕ :=
  ((m.find? k).map size).getD 0

def brought (size : PairResultSet → ℕ) (rvResult : List PairResultSet) (k : ℕ) : ℕ :=
  ((rvResult.filter fun part => decide (part.requestNo = k)).map size).sum

theorem collected_mergePart {size : PairResultSet → ℕ}
    (hsize : ∀ r part, size (r.merge part) = size r + size part) (m : KeyedVector ℕ PairResultSet)
    (part : PairResultSet) (k : ℕ) :
    collected size (mergePart m part) k = collected size m k + brought size [part] k := by
  rw [collected, find?_mergePart, collected, brought, List.filter_singleton]
  by_cases heq : k = part.requestNo
  · subst heq
    cases m.find? part.requestNo <;> simp [hsize]
  · simp [heq, Ne.symm heq]

theorem collected_mergeParts {size : PairResultSet → ℕ}
    (hsize : ∀ r part, size (r.merge part) = size r + size part)
    (rvResult : List PairResultSet) (m : KeyedVector ℕ PairResultSet) (k : ℕ) :
    collected size (mergeParts rvResult m) k = collected size m k + brought size rvResult k := by
  induction rvResult generalizing m with
  | nil => rfl
  | cons part rvResult ih =>
    have hcons : brought size (part :: rvResult) k =
        brought size [part] k + brought size rvResult k := by
      rw [brought, brought, brought, ← List.sum_append, ← List.map_append,
        ← List.filter_append, List.singleton_append]
    have hrest : collected size (mergeParts (part :: rvResult) m) k = _ := ih (mergePart m part)
    rw [hrest, collected_mergePart hsize, hcons]
    omega

theorem mem_keys_mergeParts (rvResult : List PairResultSet) (m : KeyedVector ℕ PairResultSet)
    (k : ℕ) : k ∈ (mergeParts rvResult m).keys ↔
      k ∈ m.keys ∨ ∃ part ∈ rvResult, part.requestNo = k := by
  induction rvResult generalizing m with
  | nil => simp [mergeParts]
  | cons part rvResult ih =>
    have hrest : k ∈ (mergeParts (part :: rvResult) m).keys ↔ _ := ih (mergePart m part)
    have hpart : k ∈ (mergePart m part).keys ↔ k ∈ m.keys ∨ part.requestNo = k := by
      rw [KeyedVector.mem_keys_iff, find?_mergePart, KeyedVector.mem_keys_iff]
      split
      · rename_i heq
        exact iff_of_true ⟨_, rfl⟩ (.inr heq.symm)
      · rename_i hne
        exact ⟨.inl, fun h => h.resolve_right (Ne.symm hne)⟩
    rw [hrest, hpart, or_assoc]
    simp

/-! ### Delivery -/

/-- **A delivery hands over what it takes out.** -/
theorem content_deliver (s : PairMetadata) : (s.mResultSetMap.content PairResultSet.parts).Perm
    (s.deliver.1.mResultSetMap.content PairResultSet.parts ++
      s.deliver.2.flatMap PairEvent.outflow) := by
  rw [deliver]
  cases s.mpRule with
  | none =>
    dsimp only
    rw [List.flatMap_nil, List.append_nil]
  | some pRule =>
    dsimp only
    rw [List.flatMap_map]
    exact (s.mResultSetMap.content_filterVal _ _).trans List.perm_append_comm

theorem keyed_deliver (hs : Keyed s.mResultSetMap) : Keyed s.deliver.1.mResultSetMap := by
  rw [deliver]
  cases s.mpRule with
  | none => exact hs
  | some pRule =>
    intro k r hfind
    rw [KeyedVector.find?_filterVal, Option.filter_eq_some_iff] at hfind
    exact hs k r hfind.1

/-! ### Frame ends -/

theorem find?_handleFrameEnds (mpRule : Option ISelector) (rvFrameEnd : List ℕ)
    (m : KeyedVector ℕ PairResultSet) (k : ℕ) :
    (handleFrameEnds mpRule rvFrameEnd m).1.find? k =
      if k ∈ rvFrameEnd then none else m.find? k := by
  induction rvFrameEnd generalizing m with
  | nil => simp [handleFrameEnds]
  | cons requestNo rvFrameEnd ih =>
    rw [handleFrameEnds]
    split
    · rename_i hnone
      dsimp only
      rw [ih]
      by_cases heq : k = requestNo
      · subst heq
        simp [hnone]
      · simp [heq]
    · dsimp only
      rw [ih, KeyedVector.find?_remove]
      by_cases heq : k = requestNo <;> simp [heq]

/-- **A frame end gives back what it takes out**, where there is a selector, or no buffer. -/
theorem content_handleFrameEnds (hm : Keyed m)
    (hgives : mpRule.isSome = true ∨
      ∀ k ∈ rvFrameEnd, ∀ r, m.find? k = some r → r.bufferSet = []) :
    (m.content PairResultSet.parts).Perm
      ((handleFrameEnds mpRule rvFrameEnd m).1.content PairResultSet.parts ++
        (handleFrameEnds mpRule rvFrameEnd m).2.flatMap PairEvent.outflow) := by
  induction rvFrameEnd generalizing m with
  | nil =>
    rw [handleFrameEnds, List.flatMap_nil, List.append_nil]
  | cons requestNo rvFrameEnd ih =>
    rw [handleFrameEnds]
    split
    · exact ih hm (hgives.imp_right fun h k hk => h k (List.mem_cons_of_mem _ hk))
    · rename_i r hfind
      have hremoved : Keyed (m.remove requestNo) := by
        intro k r' hr'
        rw [KeyedVector.find?_remove] at hr'
        split at hr'
        · cases hr'
        · exact hm k r' hr'
      have hrest := ih hremoved (hgives.imp_right fun h k hk r' hr' => by
        rw [KeyedVector.find?_remove] at hr'
        split at hr'
        · cases hr'
        · exact h k (List.mem_cons_of_mem _ hk) r' hr')
      have hreturned : (returnBuffers mpRule r).flatMap PairEvent.outflow =
          r.bufferSet.map (Part.buffer r.requestNo) := by
        cases mpRule with
        | none =>
          have hempty := hgives.resolve_left Bool.false_ne_true requestNo
            List.mem_cons_self r hfind
          rw [hempty]
          rfl
        | some pRule =>
          rw [returnBuffers, List.flatMap_map]
          exact List.map_eq_flatMap.symm
      have hdropped : (PairEvent.frameEnd requestNo r.resultMeta).outflow =
          r.resultMeta.map (Part.metadata r.requestNo) := by
        rw [hm requestNo r hfind]
        rfl
      dsimp only
      rw [List.flatMap_append, List.flatMap_cons, hreturned, hdropped]
      calc m.content PairResultSet.parts
          ~ r.parts ++ (m.remove requestNo).content PairResultSet.parts :=
            KeyedVector.content_remove hfind _
        _ ~ r.parts ++ (_ ++ _) := hrest.append_left _
        _ ~ _ ++ (r.parts ++ _) := List.perm_append_comm_assoc _ _ _
        _ = _ := by rw [PairResultSet.parts, partsOf, List.append_assoc]

/-! ### The thread -/

theorem keyed_handleResult (hs : Keyed s.mResultSetMap) (rvResult : List PairResultSet) :
    Keyed (s.handleResult rvResult).1.mResultSetMap := by
  intro k r hfind
  rw [handleResult, handleReturn] at hfind
  dsimp only at hfind
  rw [find?_handleFrameEnds] at hfind
  split at hfind
  · cases hfind
  · exact keyed_deliver (keyed_mergeParts hs rvResult) k r hfind

/-- How many metadata of a request the thread has when it has merged what it has taken. -/
def metaCount (s : PairMetadata) (k : ℕ) : ℕ :=
  collected (fun r => r.resultMeta.length) s.mResultSetMap k +
    brought (fun r => r.resultMeta.length) s.got k

def bufferCount (s : PairMetadata) (k : ℕ) : ℕ :=
  collected (fun r => r.bufferSet.length) s.mResultSetMap k +
    brought (fun r => r.bufferSet.length) s.got k

def Fills (s : PairMetadata) (k : ℕ) : Prop :=
  s.mpRule.isSome = true ∧ s.mNumberOfWaitingMeta ≤ s.metaCount k ∧
    s.mNumberOfWaitingBuffer ≤ s.bufferCount k

/-- **When the thread keeps pace with the frame ends.** There is a selector for the buffers that
a frame end finds; and a part of a request whose frame end has been handled makes its entry
complete, or is followed by another part. -/
def KeepsPace (s : PairMetadata) : PairOp → Prop
  | .handleResult =>
    (∀ k ∈ s.mvFrameEnd, s.mpRule.isSome = true ∨ s.bufferCount k = 0) ∧
      ∀ k ∈ s.ended, k ∉ s.mvFrameEnd →
        (k ∈ s.mResultSetMap.keys ∨ ∃ part ∈ s.got, part.requestNo = k) →
        s.Fills k ∨ ∃ part ∈ s.mTempSetMap, part.requestNo = k
  | .flush => False
  | _ => True

instance (s : PairMetadata) (k : ℕ) : Decidable (s.Fills k) :=
  inferInstanceAs (Decidable (_ ∧ _ ∧ _))

instance : ∀ (s : PairMetadata) (op : PairOp), Decidable (KeepsPace s op)
  | s, .handleResult => inferInstanceAs (Decidable
      ((∀ k ∈ s.mvFrameEnd, s.mpRule.isSome = true ∨ s.bufferCount k = 0) ∧
        ∀ k ∈ s.ended, k ∉ s.mvFrameEnd →
          (k ∈ s.mResultSetMap.keys ∨ ∃ part ∈ s.got, part.requestNo = k) →
          s.Fills k ∨ ∃ part ∈ s.mTempSetMap, part.requestNo = k))
  | _, .flush => inferInstanceAs (Decidable False)
  | _, .getResultBufferFromProvider _ _ _ _ _ | _, .onResultReceived _ _ _ _ | _, .onFrameEnd _
  | _, .setNumberOfMetadata _ | _, .setSelector _ _ | _, .dequeResult | _, .requestExit
  | _, .exit => inferInstanceAs (Decidable True)

/-- No entry is there of a request whose frame end has been handled, unless parts of it come. -/
def NoEntry (s : PairMetadata) : Prop :=
  ∀ k ∈ s.ended, (∀ part ∈ s.unmerged, part.requestNo ≠ k) → k ∉ s.mResultSetMap.keys

structure Tidy (s : PairMetadata) : Prop where
  keyed : Keyed s.mResultSetMap
  noEntry : s.NoEntry

theorem collected_eq {size : PairResultSet → ℕ} {k : ℕ} (h : m.find? k = some r) :
    collected size m k = size r := by
  rw [collected, h]
  rfl

theorem metaCount_eq {k : ℕ} (h : (mergeParts s.got s.mResultSetMap).find? k = some r) :
    s.metaCount k = r.resultMeta.length := by
  rw [metaCount, ← collected_mergeParts (fun r part => List.length_append) s.got]
  exact collected_eq h

theorem bufferCount_eq {k : ℕ} (h : (mergeParts s.got s.mResultSetMap).find? k = some r) :
    s.bufferCount k = r.bufferSet.length := by
  rw [bufferCount, ← collected_mergeParts (fun r part => List.length_append) s.got]
  exact collected_eq h

theorem find?_deliver_eq_some {k : ℕ} (h : s.deliver.1.mResultSetMap.find? k = some r) :
    s.mResultSetMap.find? k = some r ∧ (s.mpRule.isSome = true → s.isComplete r = false) := by
  rw [deliver] at h
  cases hrule : s.mpRule with
  | none =>
    rw [hrule] at h
    exact ⟨h, fun hsome => absurd hsome Bool.false_ne_true⟩
  | some pRule =>
    rw [hrule] at h
    dsimp only at h
    rw [KeyedVector.find?_filterVal, Option.filter_eq_some_iff] at h
    exact ⟨h.1, fun _ => by simpa using h.2⟩

variable {thread : PairThread}

def merged (s : PairMetadata) (thread : PairThread) : PairMetadata :=
  { s with
    thread := thread
    mResultSetMap := mergeParts s.got s.mResultSetMap
    mvFrameEnd := []
    ended := s.ended ++ s.mvFrameEnd }

theorem handleResult_eq (s : PairMetadata) (thread : PairThread) :
    { s with thread := thread }.handleResult s.got =
      ({ (s.merged thread).deliver.1 with
          mResultSetMap := (handleFrameEnds s.mpRule s.mvFrameEnd
            (s.merged thread).deliver.1.mResultSetMap).1 },
        (s.merged thread).deliver.2 ++ (handleFrameEnds s.mpRule s.mvFrameEnd
          (s.merged thread).deliver.1.mResultSetMap).2) := rfl

theorem deliver_eq (s : PairMetadata) :
    s.deliver.1 = { s with mResultSetMap := s.deliver.1.mResultSetMap } := by
  rw [deliver]
  split <;> rfl

/-- **A pass that keeps pace leaves no entry.** -/
theorem noEntry_handleResult (hpace : s.KeepsPace .handleResult) (thread : PairThread) :
    ({ s with thread := thread }.handleResult s.got).1.NoEntry := by
  rw [handleResult_eq]
  intro k hended hpending hkey
  have hended' : k ∈ s.ended ++ s.mvFrameEnd := by
    dsimp only at hended
    rwa [deliver_eq] at hended
  obtain ⟨r, hfind⟩ := KeyedVector.mem_keys_iff.mp hkey
  dsimp only at hfind
  rw [find?_handleFrameEnds] at hfind
  split at hfind
  · cases hfind
  · rename_i hnot
    obtain ⟨hmerged, hincomplete⟩ := find?_deliver_eq_some hfind
    have hbefore := (List.mem_append.mp hended').resolve_right hnot
    have hpresent := (mem_keys_mergeParts s.got s.mResultSetMap k).mp
      (KeyedVector.mem_keys_of_find? hmerged)
    rcases hpace.2 k hbefore hnot hpresent with ⟨hrule, hmeta, hbuffer⟩ | ⟨part, hpart, hk⟩
    · have hcomplete := hincomplete hrule
      rw [metaCount_eq hmerged] at hmeta
      rw [bufferCount_eq hmerged] at hbuffer
      simp [isComplete, merged, hmeta, hbuffer] at hcomplete
    · refine hpending part (List.mem_append_left _ ?_) hk
      dsimp only
      rw [deliver_eq]
      exact hpart

/-- **A pass with a selector for what is dropped keeps the parts.** -/
theorem content_handleResult (hs : Keyed s.mResultSetMap) (hpace : s.KeepsPace .handleResult)
    (thread : PairThread) :
    let handled := { s with thread := thread }.handleResult s.got
    (s.got.flatMap PairResultSet.parts ++ s.mResultSetMap.content PairResultSet.parts).Perm
      (handled.1.mResultSetMap.content PairResultSet.parts ++
        handled.2.flatMap PairEvent.outflow) := by
  rw [handleResult_eq]
  dsimp only
  rw [List.flatMap_append]
  have hmerged : Keyed (s.merged thread).mResultSetMap := keyed_mergeParts hs s.got
  have hgives : s.mpRule.isSome = true ∨ ∀ k ∈ s.mvFrameEnd, ∀ r,
      (s.merged thread).deliver.1.mResultSetMap.find? k = some r → r.bufferSet = [] := by
    by_cases hrule : s.mpRule.isSome = true
    · exact .inl hrule
    · refine .inr fun k hk r hfind => ?_
      have hzero := (hpace.1 k hk).resolve_left hrule
      rw [bufferCount_eq (find?_deliver_eq_some hfind).1] at hzero
      exact List.length_eq_zero_iff.mp hzero
  calc s.got.flatMap PairResultSet.parts ++ s.mResultSetMap.content PairResultSet.parts
      ~ (s.merged thread).mResultSetMap.content PairResultSet.parts :=
        (content_mergeParts hs s.got).symm
    _ ~ _ ++ (s.merged thread).deliver.2.flatMap PairEvent.outflow :=
        (s.merged thread).content_deliver
    _ ~ _ ++ _ ++ (s.merged thread).deliver.2.flatMap PairEvent.outflow :=
        (content_handleFrameEnds (keyed_deliver hmerged) hgives).append_right _
    _ ~ _ := by
        rw [List.append_assoc]
        exact List.perm_append_comm.append_left _

theorem inflow_handleResult (s : PairMetadata) (rvResult : List PairResultSet) :
    (s.handleResult rvResult).2.flatMap PairEvent.inflow = [] := by
  have hdeliver (s : PairMetadata) : s.deliver.2.flatMap PairEvent.inflow = [] := by
    rw [deliver]
    split
    · rfl
    · rw [List.flatMap_map, List.flatMap_eq_nil_iff]
      exact fun _ _ => rfl
  have hreturn (mpRule : Option ISelector) (r : PairResultSet) :
      (returnBuffers mpRule r).flatMap PairEvent.inflow = [] := by
    cases mpRule with
    | none => rfl
    | some pRule =>
      rw [returnBuffers, List.flatMap_map, List.flatMap_eq_nil_iff]
      exact fun _ _ => rfl
  have hends (mpRule : Option ISelector) (rvFrameEnd : List ℕ)
      (m : KeyedVector ℕ PairResultSet) :
      (handleFrameEnds mpRule rvFrameEnd m).2.flatMap PairEvent.inflow = [] := by
    induction rvFrameEnd generalizing m with
    | nil => rfl
    | cons requestNo rvFrameEnd ih =>
      rw [handleFrameEnds]
      split
      · exact ih m
      · rename_i r hfind
        dsimp only
        rw [List.flatMap_append, hreturn]
        exact ih _
  rw [handleResult, handleReturn]
  dsimp only
  rw [List.flatMap_append, hdeliver, hends]
  rfl

theorem handleResult_frame (s : PairMetadata) (thread : PairThread) :
    let handled := { s with thread := thread }.handleResult s.got
    handled.1.mTempSetMap = s.mTempSetMap ∧ handled.1.thread = thread := by
  rw [handleResult_eq]
  dsimp only
  rw [deliver_eq]
  exact ⟨rfl, rfl⟩

theorem tidy_handleResult (hs : s.Tidy) (hpace : s.KeepsPace .handleResult)
    (hthread : thread = .waiting ∨ thread = .exited) :
    let handled := { s with thread := thread }.handleResult s.got
    handled.1.Tidy ∧ ledger.Flows s handled.2 handled.1 := by
  have hcontent := content_handleResult hs.keyed hpace thread
  have hinflow := inflow_handleResult { s with thread := thread } s.got
  have hkeyed := keyed_handleResult (s := { s with thread := thread }) hs.keyed s.got
  have hno := noEntry_handleResult hpace thread
  obtain ⟨htemp, hthread'⟩ := s.handleResult_frame thread
  dsimp only at hcontent htemp hthread' ⊢
  generalize { s with thread := thread }.handleResult s.got = handled at *
  refine ⟨⟨hkeyed, hno⟩, List.perm_iff_count.mpr fun p => ?_⟩
  have hgot : handled.1.got = [] := by
    rw [got, hthread']
    rcases hthread with rfl | rfl <;> rfl
  have hin : handled.2.flatMap ledger.inflow = [] := hinflow
  have hcount := hcontent.count_eq p
  have hheld' : handled.1.held = s.mTempSetMap.flatMap PairResultSet.parts ++
      handled.1.mResultSetMap.content PairResultSet.parts := by
    rw [held, unmerged, htemp, hgot, List.append_nil]
  change (handled.1.held ++ handled.2.flatMap PairEvent.outflow).count p =
    (s.held ++ handled.2.flatMap ledger.inflow).count p
  rw [hin, hheld', held, unmerged]
  simp only [List.count_append, List.flatMap_append, List.count_nil] at hcount ⊢
  omega

theorem tidy_of_unmerged (hs : s.Tidy) (hmap : s'.mResultSetMap = s.mResultSetMap)
    (hended : s'.ended = s.ended) (hunmerged : s'.unmerged = s.unmerged) :
    s'.Tidy ∧ ledger.Flows s [] s' := by
  refine ⟨⟨by rw [hmap]; exact hs.keyed, ?_⟩, Ledger.Flows.of_eq ?_ rfl rfl⟩
  · intro k hk hpending
    rw [hended] at hk
    rw [hunmerged] at hpending
    rw [hmap]
    exact hs.noEntry k hk hpending
  · change held s' = held s
    rw [held, held, hunmerged, hmap]

/-! ### Runs -/

theorem tidy_step (hs : s.Tidy) (hpace : s.KeepsPace op)
    (hstep : pairMachine s op = .ok (s', o)) : s'.Tidy ∧ ledger.Flows s o s' := by
  cases op with
  | getResultBufferFromProvider | onResultReceived =>
    cases hstep
    refine ⟨⟨hs.keyed, fun k hk hpending => hs.noEntry k hk fun part hpart => ?_⟩, ?_⟩
    · refine hpending part ?_
      rcases List.mem_append.mp hpart with htemp | hgot
      · exact List.mem_append_left _ (List.mem_append_left _ htemp)
      · exact List.mem_append_right _ hgot
    · refine List.perm_iff_count.mpr fun p => ?_
      simp only [ledger, held, unmerged, got, List.flatMap_append, List.count_append,
        List.flatMap_singleton, PairEvent.inflow, PairEvent.outflow, List.count_nil]
      omega
  | onFrameEnd | setNumberOfMetadata | requestExit =>
    cases hstep
    exact ⟨⟨hs.keyed, hs.noEntry⟩, Ledger.Flows.of_eq rfl rfl rfl⟩
  | setSelector pRule infoList =>
    cases hstep
    refine ⟨⟨hs.keyed, hs.noEntry⟩, Ledger.Flows.of_eq rfl ?_ ?_⟩ <;>
      cases s.mpRule <;> rfl
  | dequeResult =>
    rw [pairMachine] at hstep
    split at hstep
    · rename_i hwaiting
      cases hstep
      refine tidy_of_unmerged hs rfl rfl ?_
      rw [unmerged, unmerged, got, got, hwaiting.1]
      exact (List.append_nil _).symm
    · cases hstep
  | handleResult =>
    rw [pairMachine] at hstep
    split at hstep
    · rename_i rvResult hthread
      have hgot : s.got = rvResult := by rw [got, hthread]
      rw [← hgot] at hstep
      have hwaits : (if s.exitPending then PairThread.exited else .waiting) = .waiting ∨
          (if s.exitPending then PairThread.exited else .waiting) = .exited := by
        split <;> simp
      have htidy := tidy_handleResult hs hpace hwaits
      have heq := Except.ok.inj hstep
      rw [heq] at htidy
      exact htidy
    · cases hstep
  | exit =>
    rw [pairMachine] at hstep
    split at hstep
    · rename_i hwaiting
      cases hstep
      refine tidy_of_unmerged hs rfl rfl ?_
      rw [unmerged, unmerged, got, got, hwaiting.1]
    · cases hstep
  | flush => cases hpace

theorem tidy_init : ({} : PairMetadata).Tidy where
  keyed _ _ hfind := by cases hfind
  noEntry _ hk := by cases hk

theorem tidy_of_runs (h : pairMachine.RunsMeeting (fun _ => KeepsPace) {} ops s os) : s.Tidy :=
  h.invariant (I := fun _ s _ => s.Tidy) tidy_init
    fun _ _ _ _ _ _ hs hpace hstep => (tidy_step hs hpace hstep).1

theorem balanced_of_runs (h : pairMachine.RunsMeeting (fun _ => KeepsPace) {} ops s os) :
    ledger.Balanced {} s os :=
  Ledger.balanced_of_runs (fun _ _ _ _ _ _ hrun hpace hstep =>
    (tidy_step (tidy_of_runs hrun) hpace hstep).2) h

theorem mem_held (hs : Keyed s.mResultSetMap) {p : Part} (hp : p ∈ s.held) :
    (∃ part ∈ s.unmerged, part.requestNo = p.requestNo) ∨
      p.requestNo ∈ s.mResultSetMap.keys := by
  rcases List.mem_append.mp hp with hunmerged | hentry
  · obtain ⟨part, hpart, hmem⟩ := List.mem_flatMap.mp hunmerged
    exact .inl ⟨part, hpart, (requestNo_of_mem_partsOf hmem).symm⟩
  · obtain ⟨k, r, hfind, hmem⟩ := KeyedVector.mem_content.mp hentry
    refine .inr ?_
    rw [requestNo_of_mem_partsOf hmem, hs k r hfind]
    exact KeyedVector.mem_keys_of_find? hfind

theorem complete_of_selectResult {pRule : ISelector} {resultMeta : List MetaItemSet}
    {bufferSet : List BufferItemSet} {error : Bool}
    (hstep : pairMachine s .handleResult = .ok (s', o))
    (hselect : .selectResult pRule requestNo resultMeta bufferSet error ∈ o) :
    s.mNumberOfWaitingMeta ≤ resultMeta.length ∧
      s.mNumberOfWaitingBuffer ≤ bufferSet.length := by
  have hreturn (r : PairResultSet) :
      .selectResult pRule requestNo resultMeta bufferSet error ∉ returnBuffers s.mpRule r := by
    cases s.mpRule <;> simp [returnBuffers]
  have hends (rvFrameEnd : List ℕ) (m : KeyedVector ℕ PairResultSet) :
      .selectResult pRule requestNo resultMeta bufferSet error ∉
        (handleFrameEnds s.mpRule rvFrameEnd m).2 := by
    induction rvFrameEnd generalizing m with
    | nil => simp [handleFrameEnds]
    | cons k rvFrameEnd ih =>
      rw [handleFrameEnds]
      split
      · simp [ih m]
      · simp [hreturn, ih]
  rw [pairMachine] at hstep
  split at hstep
  · rename_i rvResult hthread
    have hevents : o = ({ s with
        thread := if s.exitPending then .exited else .waiting }.handleResult rvResult).2 := by
      rw [Except.ok.inj hstep]
    rw [hevents, handleResult, handleReturn] at hselect
    have hdeliver := (List.mem_append.mp hselect).resolve_right (hends _ _)
    rw [deliver] at hdeliver
    split at hdeliver
    · cases hdeliver
    · obtain ⟨⟨k, r⟩, he, heq⟩ := List.mem_map.mp hdeliver
      have hcomplete := (List.mem_filter.mp he).2
      cases heq
      simpa [isComplete] using hcomplete
  · cases hstep

/-- **Nothing is left behind.** In a run whose thread keeps pace with the frame ends, every part
is held, has gone to the selector, or has been dropped at a frame end, once. When the frame end
of a request has been handled and its parts have been merged, none of them is held. What goes
to the selector has all that is waited for. -/
theorem nothingLeft_of_runs (h : pairMachine.RunsMeeting (fun _ => KeepsPace) {} ops s os) :
    (∀ p, s.held.count p + (os.flatMap PairEvent.outflow).count p =
      (os.flatMap PairEvent.inflow).count p) ∧
    (∀ k ∈ s.ended, (∀ part ∈ s.unmerged, part.requestNo ≠ k) →
      k ∉ s.mResultSetMap.keys ∧ ∀ p, p.requestNo = k → p ∉ s.held ∧
        (os.flatMap PairEvent.outflow).count p = (os.flatMap PairEvent.inflow).count p) ∧
    ∀ s' o pRule requestNo resultMeta bufferSet error,
      pairMachine s .handleResult = .ok (s', o) →
      .selectResult pRule requestNo resultMeta bufferSet error ∈ o →
      s.mNumberOfWaitingMeta ≤ resultMeta.length ∧
        s.mNumberOfWaitingBuffer ≤ bufferSet.length := by
  have htidy := tidy_of_runs h
  have hcount : ∀ p, s.held.count p + (os.flatMap PairEvent.outflow).count p =
      (os.flatMap PairEvent.inflow).count p := by
    intro p
    have hflow := Ledger.flows_iff_count.mp (balanced_of_runs h) p
    rwa [show ledger.content {} = [] from rfl, List.count_nil, Nat.zero_add] at hflow
  refine ⟨hcount, fun k hk hmerged => ?_, ?_⟩
  · have hkey := htidy.noEntry k hk hmerged
    refine ⟨hkey, ?_⟩
    rintro p rfl
    have hnot : p ∉ s.held := by
      intro hp
      rcases mem_held htidy.keyed hp with ⟨part, hpart, heq⟩ | hentry
      · exact hmerged part hpart heq
      · exact hkey hentry
    have hp := hcount p
    rw [List.count_eq_zero_of_not_mem hnot, Nat.zero_add] at hp
    exact ⟨hnot, hp⟩
  · intro s' o pRule requestNo resultMeta bufferSet error hstep hselect
    exact complete_of_selectResult hstep hselect

/-- A request whose parts come before its frame end. -/
theorem nothingLeft_of_runs_inTime :
    ∃ s os, pairMachine.Runs {}
        [.setSelector 0 [1], .setNumberOfMetadata 1, .getResultBufferFromProvider 5 1 10 100 false,
          .dequeResult, .onResultReceived 5 2 false {}, .onFrameEnd 6, .handleResult,
          .onFrameEnd 5, .dequeResult, .handleResult] s os ∧
      5 ∉ s.mResultSetMap.keys ∧ (os.flatMap PairEvent.outflow).count (.buffer 5 ⟨1, 10⟩) =
        (os.flatMap PairEvent.inflow).count (.buffer 5 ⟨1, 10⟩) := by
  have hshows : pairMachine.shows {}
      [.setSelector 0 [1], .setNumberOfMetadata 1, .getResultBufferFromProvider 5 1 10 100 false,
        .dequeResult, .onResultReceived 5 2 false {}, .onFrameEnd 6, .handleResult,
        .onFrameEnd 5, .dequeResult, .handleResult]
      (fun s _ => 5 ∈ s.ended ∧ ∀ part ∈ s.unmerged, part.requestNo ≠ 5) = true := by
    decide
  obtain ⟨s, os, hrun, hended, hmerged⟩ := Machine.exists_run_of_shows hshows
  have hpace := hrun.meeting (C := KeepsPace) (by decide)
  obtain ⟨-, hleft, -⟩ := nothingLeft_of_runs hpace
  obtain ⟨hkey, hparts⟩ := hleft 5 hended hmerged
  exact ⟨s, os, hrun, hkey, (hparts _ rfl).2⟩

/-- A buffer that comes after the thread has taken the queue, before the frame end is handled:
its entry stays. And a buffer that a frame end drops, without a selector. -/
theorem mergedLate_left :
    (∃ s os, pairMachine.Runs {}
        [.setSelector 0 [1], .setNumberOfMetadata 1, .onResultReceived 5 2 false {},
          .dequeResult, .getResultBufferFromProvider 5 1 10 100 false, .onFrameEnd 5,
          .handleResult, .dequeResult, .handleResult] s os ∧
      5 ∈ s.ended ∧ s.unmerged = [] ∧ s.mResultSetMap.keys = [5] ∧
      Part.buffer 5 ⟨1, 10⟩ ∈ s.held ∧
      Part.buffer 5 ⟨1, 10⟩ ∉ os.flatMap PairEvent.outflow) ∧
    ∃ s os, pairMachine.Runs {}
        [.getResultBufferFromProvider 5 1 10 100 false, .dequeResult, .onFrameEnd 5,
          .handleResult] s os ∧
      5 ∈ s.ended ∧ s.held = [] ∧
      Part.buffer 5 ⟨1, 10⟩ ∉ os.flatMap PairEvent.outflow :=
  ⟨Machine.exists_run_of_shows (by decide),
    Machine.exists_run_of_shows (by decide)⟩

end PairMetadata

end MtkHardware.LegacyPipeline
