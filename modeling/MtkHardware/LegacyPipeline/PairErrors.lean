import MtkHardware.LegacyPipeline.PairConservation

/-!
# The Errors of the Parts of a Request

The parts of a request are merged one after the other, in the order in which they have come, and
what has been collected is handed to the selector with one flag for the errors of all of them. The
first part sets the flag, and each further part is and-ed to it: it is up exactly when all parts
have reported an error. So it says whether one of them has exactly when they agree
(`error_iff_of_runs`).
-/

namespace MtkHardware.LegacyPipeline

namespace PairMetadata

variable {s s' : PairMetadata} {op : PairOp} {ops : List PairOp} {o os : List PairEvent}
  {m m' : KeyedVector ℕ PairResultSet} {r part : PairResultSet} {parts : List PairResultSet}
  {k : ℕ}

def receivedPart (k : ℕ) : PairEvent → Option PairResultSet
  | .produced part => if part.requestNo = k then some part else none
  | _ => none

/-- The parts of a request, in the order in which they have come in. -/
def received (k : ℕ) (os : List PairEvent) : List PairResultSet := os.filterMap (receivedPart k)

/-- An entry is that of parts of its request that have been merged one after the other. -/
structure Merges (k : ℕ) (parts : List PairResultSet) (r : PairResultSet) : Prop where
  requestNo : r.requestNo = k
  ne_nil : parts ≠ []
  bufferSet : r.bufferSet = parts.flatMap PairResultSet.bufferSet
  resultMeta : r.resultMeta = parts.flatMap PairResultSet.resultMeta
  error : r.error = parts.all PairResultSet.error

def Collects (m : KeyedVector ℕ PairResultSet) (k : ℕ) (parts : List PairResultSet) : Prop :=
  (m.find? k).elim (parts = []) (Merges k parts)

/-- What is handed to the selector has been merged of parts of its request that have come in. -/
def Explained (os : List PairEvent) : PairEvent → Prop
  | .selectResult _ k resultMeta bufferSet error => ∃ parts, parts ≠ [] ∧
      parts.Sublist (received k os) ∧ bufferSet = parts.flatMap PairResultSet.bufferSet ∧
      resultMeta = parts.flatMap PairResultSet.resultMeta ∧
      error = parts.all PairResultSet.error
  | _ => True

/-! ### Merging -/

theorem merges_singleton (part : PairResultSet) : Merges part.requestNo [part] part where
  requestNo := rfl
  ne_nil := List.cons_ne_nil _ _
  bufferSet := by simp
  resultMeta := by simp
  error := by simp

theorem Merges.concat (h : Merges k parts r) (part : PairResultSet) :
    Merges k (parts ++ [part]) (r.merge part) where
  requestNo := h.requestNo
  ne_nil := by simp
  bufferSet := by simp [PairResultSet.merge, h.bufferSet]
  resultMeta := by simp [PairResultSet.merge, h.resultMeta]
  error := by simp [PairResultSet.merge, h.error, List.all_append]

theorem Merges.explained {pRule : ISelector} (h : Merges k parts r)
    (hparts : parts.Sublist (received k os)) : Explained os (r.select pRule) := by
  obtain rfl := h.requestNo
  exact ⟨parts, h.ne_nil, hparts, h.bufferSet, h.resultMeta, h.error⟩

theorem Collects.merges (h : Collects m k parts) (hr : m.find? k = some r) :
    Merges k parts r := by
  rwa [Collects, hr] at h

theorem collects_mergePart (h : Collects m k parts) (part : PairResultSet) :
    Collects (mergePart m part) k (parts ++ [part].filter (·.requestNo = k)) := by
  rw [Collects, find?_mergePart]
  by_cases hk : k = part.requestNo
  · subst hk
    rw [if_pos rfl, List.filter_cons_of_pos (by simp), List.filter_nil, Option.elim_some]
    rw [Collects] at h
    cases hfind : m.find? part.requestNo with
    | none =>
      rw [hfind] at h
      obtain rfl : parts = [] := h
      exact merges_singleton part
    | some r =>
      rw [hfind] at h
      exact Merges.concat h part
  · rw [if_neg hk, List.filter_cons_of_neg (by simpa using Ne.symm hk), List.filter_nil,
      List.append_nil]
    exact h

theorem collects_mergeParts (rvResult : List PairResultSet) (h : Collects m k parts) :
    Collects (mergeParts rvResult m) k (parts ++ rvResult.filter (·.requestNo = k)) := by
  induction rvResult generalizing m parts with
  | nil =>
    rw [List.filter_nil, List.append_nil]
    exact h
  | cons part rvResult ih =>
    have hnext := ih (collects_mergePart h part)
    rwa [List.append_assoc, ← List.filter_append, List.singleton_append] at hnext

theorem Collects.mono (h : Collects m k parts) (m' : KeyedVector ℕ PairResultSet)
    (hsub : ∀ r, m'.find? k = some r → m.find? k = some r) :
    ∃ parts', Collects m' k parts' ∧ parts'.Sublist parts := by
  cases hfind : m'.find? k with
  | none => exact ⟨[], by rw [Collects, hfind, Option.elim_none], List.nil_sublist _⟩
  | some r =>
    refine ⟨parts, ?_, .refl _⟩
    rw [Collects, hfind]
    exact h.merges (hsub r hfind)

/-! ### What is received -/

theorem received_append (os o : List PairEvent) :
    received k (os ++ o) = received k os ++ received k o :=
  List.filterMap_append

theorem Explained.append {e : PairEvent} (h : Explained os e) (o : List PairEvent) :
    Explained (os ++ o) e := by
  cases e with
  | selectResult pRule k resultMeta bufferSet error =>
    obtain ⟨parts, hne, hparts, hrest⟩ := h
    rw [Explained]
    refine ⟨parts, hne, hparts.trans ?_, hrest⟩
    rw [received_append]
    exact List.sublist_append_left _ _
  | produced | returnBuffer | frameEnd | flushRule => trivial

/-! ### The invariant -/

def unmergedOf (s : PairMetadata) (k : ℕ) : List PairResultSet :=
  (s.got ++ s.mTempSetMap).filter (·.requestNo = k)

/-- The parts that have been merged and those that wait are among those that have come in, in their
order, and everything that has been handed to the selector is explained. -/
structure Traced (os : List PairEvent) (s : PairMetadata) : Prop where
  entries : ∀ k, ∃ parts, Collects s.mResultSetMap k parts ∧
    (parts ++ s.unmergedOf k).Sublist (received k os)
  explained : ∀ e ∈ os, Explained os e

theorem Traced.unmergedOf (h : Traced os s) (k : ℕ) :
    (s.unmergedOf k).Sublist (received k os) := by
  obtain ⟨parts, -, hparts⟩ := h.entries k
  exact (List.sublist_append_right _ _).trans hparts

theorem Traced.next (h : Traced os s)
    (hentries : ∀ k parts, Collects s.mResultSetMap k parts →
      ∃ parts', Collects s'.mResultSetMap k parts' ∧
        (parts' ++ s'.unmergedOf k).Sublist (parts ++ s.unmergedOf k ++ received k o))
    (hevents : ∀ e ∈ o, Explained (os ++ o) e) : Traced (os ++ o) s' where
  entries k := by
    obtain ⟨parts, hcollects, hparts⟩ := h.entries k
    obtain ⟨parts', hcollects', hparts'⟩ := hentries k parts hcollects
    refine ⟨parts', hcollects', hparts'.trans ?_⟩
    rw [received_append]
    exact hparts.append_right _
  explained e he := by
    rcases List.mem_append.mp he with hold | hnew
    · exact (h.explained e hold).append o
    · exact hevents e hnew

theorem traced_produce (h : Traced os s) (part : PairResultSet) :
    Traced (os ++ (s.produce part).2) (s.produce part).1 := by
  refine h.next (fun k parts hcollects => ⟨parts, hcollects, ?_⟩) fun e he => ?_
  · have hreceived : received k (s.produce part).2 = [part].filter (·.requestNo = k) := by
      rw [produce, received, List.filterMap_cons]
      by_cases hk : part.requestNo = k <;> simp [receivedPart, hk]
    have hunmerged : (s.produce part).1.unmergedOf k =
        s.unmergedOf k ++ [part].filter (·.requestNo = k) := by
      rw [PairMetadata.unmergedOf, PairMetadata.unmergedOf, ← List.filter_append, List.append_assoc]
      rfl
    rw [hreceived, hunmerged, ← List.append_assoc]
  · obtain rfl := List.mem_singleton.mp he
    trivial

/-! ### The thread -/

theorem explained_returnBuffers (mpRule : Option ISelector) (r : PairResultSet) :
    ∀ e ∈ returnBuffers mpRule r, Explained os e := by
  intro e he
  rw [returnBuffers.eq_def] at he
  split at he
  · cases he
  · obtain ⟨b, -, rfl⟩ := List.mem_map.mp he
    trivial

theorem explained_handleFrameEnds (mpRule : Option ISelector) (rvFrameEnd : List ℕ)
    (m : KeyedVector ℕ PairResultSet) :
    ∀ e ∈ (handleFrameEnds mpRule rvFrameEnd m).2, Explained os e := by
  induction rvFrameEnd generalizing m with
  | nil => exact fun e he => nomatch he
  | cons requestNo rvFrameEnd ih =>
    intro e he
    rw [handleFrameEnds] at he
    split at he
    · rcases List.mem_cons.mp he with rfl | he
      · trivial
      · exact ih m e he
    · rename_i r hr
      rcases List.mem_append.mp he with hreturned | he
      · exact explained_returnBuffers mpRule r e hreturned
      · rcases List.mem_cons.mp he with rfl | he
        · trivial
        · exact ih _ e he

theorem mem_deliver {e : PairEvent} (he : e ∈ s.deliver.2) :
    ∃ pRule k r, s.mResultSetMap.find? k = some r ∧ e = r.select pRule := by
  rw [deliver] at he
  split at he
  · cases he
  · rename_i pRule hrule
    obtain ⟨⟨k, r⟩, hr, rfl⟩ := List.mem_map.mp he
    have hfind := KeyedVector.find?_eq_some_iff.mpr hr
    rw [KeyedVector.find?_filterVal] at hfind
    exact ⟨pRule, k, r, (Option.filter_eq_some_iff.mp hfind).1, rfl⟩

theorem traced_handleResult (h : Traced os s) (thread : PairThread)
    (hthread : ({ s with thread := thread } : PairMetadata).got = []) :
    Traced (os ++ ({ s with thread := thread }.handleResult s.got).2)
      ({ s with thread := thread }.handleResult s.got).1 := by
  rw [handleResult_eq]
  refine h.next (fun k parts hcollects => ?_) fun e he => ?_
  · have hmerged := collects_mergeParts s.got hcollects
    obtain ⟨parts', hcollects', hparts'⟩ := hmerged.mono (handleFrameEnds s.mpRule
      s.mvFrameEnd (s.merged thread).deliver.1.mResultSetMap).1 fun r hr => by
        rw [find?_handleFrameEnds] at hr
        split at hr
        · cases hr
        · exact (find?_deliver_eq_some hr).1
    refine ⟨parts', hcollects', ?_⟩
    have hunmerged : s.unmergedOf k =
        s.got.filter (·.requestNo = k) ++ s.mTempSetMap.filter (·.requestNo = k) :=
      List.filter_append ..
    have hthread' : PairMetadata.unmergedOf { (s.merged thread).deliver.1 with
        mResultSetMap := (handleFrameEnds s.mpRule s.mvFrameEnd
          (s.merged thread).deliver.1.mResultSetMap).1 } k =
          s.mTempSetMap.filter (·.requestNo = k) := by
      rw [PairMetadata.unmergedOf, deliver_eq]
      have hgot : ({ s with thread := thread } : PairMetadata).got ++ s.mTempSetMap =
          s.mTempSetMap := by rw [hthread, List.nil_append]
      exact congrArg (List.filter fun p => decide (p.requestNo = k)) hgot
    rw [hthread', hunmerged, ← List.append_assoc]
    exact (hparts'.append_right _).trans (List.sublist_append_left _ _)
  · rcases List.mem_append.mp he with hdelivered | hended
    · obtain ⟨pRule, k, r, hr, rfl⟩ := mem_deliver hdelivered
      obtain ⟨parts, hcollects, hparts⟩ := h.entries k
      have hmerges := (collects_mergeParts s.got hcollects).merges hr
      refine (hmerges.explained ?_).append _
      refine List.Sublist.trans ?_ hparts
      rw [PairMetadata.unmergedOf, List.filter_append, ← List.append_assoc]
      exact List.sublist_append_left _ _
    · exact explained_handleFrameEnds _ _ _ e hended

/-! ### The flush -/

theorem explained_handOver {pRule : ISelector} (h : Explained os (r.select pRule)) :
    ∀ e ∈ handOver pRule r, Explained os e := by
  intro e he
  rw [handOver] at he
  split at he
  · obtain rfl := List.mem_singleton.mp he
    exact h
  · cases he

theorem mem_flushItems {α : Type*} {handOver : α → List PairEvent} {n i : ℕ} {items : List α}
    {e : PairEvent} (he : e ∈ (flushItems handOver n i items).2) :
    ∃ item ∈ items, e ∈ handOver item := by
  obtain ⟨taken, hperm, hevents⟩ := flushItems_spec handOver n i items
  rw [hevents] at he
  obtain ⟨item, hitem, he⟩ := List.mem_flatMap.mp he
  exact ⟨item, hperm.mem_iff.mp (List.mem_append_right _ hitem), he⟩

theorem traced_flush (h : Traced os s) : Traced (os ++ s.flush.2) s.flush.1 := by
  rw [flush]
  split
  · exact h.next (fun k parts hcollects => ⟨parts, hcollects, List.sublist_append_left _ _⟩)
      fun e he => absurd he List.not_mem_nil
  · rename_i pRule _
    refine h.next (fun k parts hcollects => ?_) fun e he => ?_
    · obtain ⟨parts', hcollects', hparts'⟩ := hcollects.mono (flushMap
        (fun e => handOver pRule e.2) s.mResultSetMap).1 fun r hr => by
          rw [KeyedVector.find?_eq_some_iff] at hr ⊢
          exact (flushItems_sublist _ _ _ _).subset hr
      refine ⟨parts', hcollects', (hparts'.append ?_).trans (List.sublist_append_left _ _)⟩
      exact ((flushItems_sublist _ _ _ _).append_left _).filter _
    · rcases List.mem_append.mp he with he | hflushed
      · rcases List.mem_append.mp he with hentry | htemp
        · obtain ⟨⟨k, r⟩, hr, he⟩ := mem_flushItems hentry
          obtain ⟨parts, hcollects, hparts⟩ := h.entries k
          have hmerges := hcollects.merges (KeyedVector.find?_eq_some_iff.mpr hr)
          exact (explained_handOver (hmerges.explained
            ((List.sublist_append_left _ _).trans hparts)) e he).append _
        · obtain ⟨part, hpart, he⟩ := mem_flushItems htemp
          have hmem : part ∈ s.unmergedOf part.requestNo :=
            List.mem_filter.mpr ⟨List.mem_append_right _ hpart, decide_eq_true rfl⟩
          exact (explained_handOver ((merges_singleton part).explained
            ((List.singleton_sublist.mpr hmem).trans (h.unmergedOf _))) e he).append _
      · obtain rfl := List.mem_singleton.mp hflushed
        trivial

/-! ### Runs -/

theorem traced_of_eq (h : Traced os s) (hmap : s'.mResultSetMap = s.mResultSetMap)
    (hunmerged : s'.got ++ s'.mTempSetMap = s.got ++ s.mTempSetMap)
    (hevents : ∀ e ∈ o, Explained (os ++ o) e) : Traced (os ++ o) s' := by
  refine h.next (fun k parts hcollects => ⟨parts, by rwa [hmap], ?_⟩) hevents
  rw [PairMetadata.unmergedOf, hunmerged]
  exact List.sublist_append_left _ _

theorem traced_step (h : Traced os s) (hstep : pairMachine s op = .ok (s', o)) :
    Traced (os ++ o) s' := by
  cases op with
  | getResultBufferFromProvider rRequestNo streamId rpHeap rTimeStamp rbErrorBuffer =>
    cases hstep
    exact traced_produce h _
  | onResultReceived requestNo streamId errorResult result =>
    cases hstep
    exact traced_produce h _
  | onFrameEnd requestNo =>
    cases hstep
    exact traced_of_eq h rfl rfl fun e he => nomatch he
  | setNumberOfMetadata num =>
    cases hstep
    exact traced_of_eq h rfl rfl fun e he => nomatch he
  | setSelector pRule infoList =>
    cases hstep
    refine traced_of_eq h rfl rfl fun e he => ?_
    obtain ⟨rule, -, rfl⟩ := Option.map_eq_some_iff.mp (Option.mem_toList.mp he)
    trivial
  | dequeResult =>
    rw [pairMachine] at hstep
    split at hstep
    · rename_i hwaiting
      cases hstep
      refine traced_of_eq h rfl ?_ fun e he => nomatch he
      rw [got, got, hwaiting.1, List.append_nil, List.nil_append]
    · cases hstep
  | handleResult =>
    rw [pairMachine] at hstep
    split at hstep
    · rename_i rvResult hthread
      cases hstep
      have hgot : s.got = rvResult := by rw [got, hthread]
      rw [← hgot]
      refine traced_handleResult h _ ?_
      rw [got]
      cases s.exitPending <;> rfl
    · cases hstep
  | requestExit =>
    cases hstep
    exact traced_of_eq h rfl rfl fun e he => nomatch he
  | exit =>
    rw [pairMachine] at hstep
    split at hstep
    · rename_i hwaiting
      cases hstep
      refine traced_of_eq h rfl ?_ fun e he => nomatch he
      rw [got, got, hwaiting.1]
    · cases hstep
  | flush =>
    rw [pairMachine] at hstep
    split at hstep
    · have hflush : s.flush = (s', o) := Except.ok.inj hstep
      have htraced := traced_flush h
      rwa [hflush] at htraced
    · cases hstep

theorem traced_init : Traced [] {} where
  entries _ := ⟨[], rfl, .refl _⟩
  explained := nofun

/-- **What is handed to the selector** has been merged of parts that have come in. -/
theorem explained_of_runs (h : pairMachine.Runs {} ops s os) : Traced os s :=
  h.invariant (I := fun _ s os => Traced os s) traced_init
    fun _ _ _ _ _ _ hs hstep => traced_step hs hstep

/-- **Exactly when the flag is that of an error of some part**: where all parts that have been
merged agree on it. -/
theorem error_iff_of_runs {pRule : ISelector} {resultMeta : List MetaItemSet}
    {bufferSet : List BufferItemSet} {error : Bool} (h : pairMachine.Runs {} ops s os)
    (hselect : .selectResult pRule k resultMeta bufferSet error ∈ os) :
    ∃ parts, parts ≠ [] ∧ parts.Sublist (received k os) ∧
      bufferSet = parts.flatMap PairResultSet.bufferSet ∧
      resultMeta = parts.flatMap PairResultSet.resultMeta ∧
      ((error = true ↔ ∃ part ∈ parts, part.error = true) ↔
        ∀ p ∈ parts, ∀ q ∈ parts, p.error = q.error) := by
  obtain ⟨parts, hne, hparts, hbuffers, hmetas, herror⟩ :=
    (explained_of_runs h).explained _ hselect
  refine ⟨parts, hne, hparts, hbuffers, hmetas, ?_⟩
  have hall : error = true ↔ ∀ p ∈ parts, p.error = true := by
    rw [herror, List.all_eq_true]
  rw [hall]
  constructor
  · intro hiff p hp q hq
    rw [Bool.eq_iff_iff]
    exact ⟨fun hp' => hiff.mpr ⟨p, hp, hp'⟩ q hq, fun hq' => hiff.mpr ⟨q, hq, hq'⟩ p hp⟩
  · intro hagree
    obtain ⟨p₀, hp₀⟩ := List.exists_mem_of_ne_nil parts hne
    exact ⟨fun h => ⟨p₀, hp₀, h p₀ hp₀⟩, fun ⟨p, hp, herr⟩ q hq => (hagree q hq p hp).trans herr⟩

/-- A buffer and a metadata that both report an error. -/
theorem error_iff_of_runs_bothFailed : ∃ s os, pairMachine.Runs {}
      [.setSelector 0 [1], .setNumberOfMetadata 1, .getResultBufferFromProvider 5 1 10 100 true,
        .onResultReceived 5 2 true {}, .dequeResult, .handleResult] s os ∧
    ∃ parts, parts ≠ [] ∧ parts.Sublist (received 5 os) ∧
      [⟨1, 10⟩] = parts.flatMap PairResultSet.bufferSet ∧
      [⟨2, {}⟩] = parts.flatMap PairResultSet.resultMeta ∧
      ((true = true ↔ ∃ part ∈ parts, part.error = true) ↔
        ∀ p ∈ parts, ∀ q ∈ parts, p.error = q.error) := by
  obtain ⟨s, os, hrun, hselect⟩ : ∃ s os, pairMachine.Runs {}
        [.setSelector 0 [1], .setNumberOfMetadata 1, .getResultBufferFromProvider 5 1 10 100 true,
          .onResultReceived 5 2 true {}, .dequeResult, .handleResult] s os ∧
      .selectResult 0 5 [⟨2, {}⟩] [⟨1, 10⟩] true ∈ os :=
    Machine.exists_run_of_shows (by decide)
  exact ⟨s, os, hrun, error_iff_of_runs hrun hselect⟩

/-- The buffer reports an error and the metadata does not: the flag is cleared. -/
theorem error_cleared : ¬ ∀ ops s os pRule k resultMeta bufferSet error,
    pairMachine.Runs {} ops s os → .selectResult pRule k resultMeta bufferSet error ∈ os →
    ∀ parts : List PairResultSet, parts.Sublist (received k os) →
      bufferSet = parts.flatMap PairResultSet.bufferSet →
      resultMeta = parts.flatMap PairResultSet.resultMeta →
      (error = true ↔ ∃ part ∈ parts, part.error = true) := by
  intro h
  obtain ⟨s, os, hrun, hselect, hparts⟩ : ∃ s os, pairMachine.Runs {}
        [.setSelector 0 [1], .setNumberOfMetadata 1, .getResultBufferFromProvider 5 1 10 100 true,
          .onResultReceived 5 2 false {}, .dequeResult, .handleResult] s os ∧
      .selectResult 0 5 [⟨2, {}⟩] [⟨1, 10⟩] false ∈ os ∧
      received 5 os = [⟨5, [⟨1, 10⟩], [], true, 100⟩, ⟨5, [], [⟨2, {}⟩], false, 0⟩] :=
    Machine.exists_run_of_shows (by decide)
  have hflag := h _ s os 0 5 _ _ _ hrun hselect _ (.refl _) (by rw [hparts]; rfl)
    (by rw [hparts]; rfl)
  rw [hparts] at hflag
  exact absurd hflag (by decide)

end PairMetadata

end MtkHardware.LegacyPipeline
