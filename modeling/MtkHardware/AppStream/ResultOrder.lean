import MtkHardware.AppStream.ResultQueue

/-!
# Results and the Order of the Frames

`update(results)` goes over the results in the order of their numbers, and over the frame queue with
an iterator that goes forward only. It starts again at the front behind a result whose frame is not
found. The frames are in the order in which they were registered, which is another one than that of
the numbers where the numbers have wrapped around.
-/

namespace MtkHardware.AppStream

theorem sublist_dropWhile {α β : Type*} [DecidableEq β] {g : α → β} {b : β} {bs : List β}
    {as : List α} (h : (b :: bs).Sublist (as.map g)) :
    ∃ a rest, as.dropWhile (fun a => b ≠ g a) = a :: rest ∧ g a = b ∧ bs.Sublist (rest.map g) := by
  induction as with
  | nil => cases h
  | cons a as ih =>
    rw [List.map_cons] at h
    by_cases hb : b = g a
    · refine ⟨a, as, by rw [List.dropWhile_cons_of_neg (by simpa using hb)], hb.symm, ?_⟩
      exact List.cons_sublist_cons.mp (hb ▸ h)
    · rw [List.dropWhile_cons_of_pos (by simpa using hb)]
      rcases List.sublist_cons_iff.mp h with h | ⟨l, heq, -⟩
      · exact ih h
      · exact absurd (List.cons.inj heq).1 hb

namespace FrameHandler

variable {s : FrameHandler} {env : BufferEnv} {f : FramePtr} {r : ResultItem}
  {rs block : List ResultItem} {itFrame : List FramePtr}

def frameNos (s : FrameHandler) (fs : List FramePtr) : List FrameNo :=
  fs.map fun f => (s.frames f).frameNo

def Registered (s : FrameHandler) (r : ResultItem) : Prop := r.frameNo ∈ s.frameNos s.mFrameQueue

instance (s : FrameHandler) : DecidablePred s.Registered := fun r =>
  inferInstanceAs (Decidable (r.frameNo ∈ _))

theorem appliedResults_mem (h : (f, r) ∈ s.appliedResults rs itFrame)
    (hsub : itFrame ⊆ s.mFrameQueue) :
    r ∈ rs ∧ f ∈ s.mFrameQueue ∧ (s.frames f).frameNo = r.frameNo := by
  induction rs generalizing itFrame with
  | nil => cases h
  | cons r' rs ih =>
    rw [appliedResults] at h
    split at h
    · obtain ⟨hr, hf⟩ := ih h (List.Subset.refl _)
      exact ⟨List.mem_cons_of_mem _ hr, hf⟩
    · rename_i f' fs heq
      have hsuffix : f' :: fs ⊆ s.mFrameQueue := fun g hg =>
        hsub ((List.dropWhile_sublist _).subset (heq ▸ hg))
      rcases List.mem_cons.mp h with hhead | h
      · obtain ⟨rfl, rfl⟩ := Prod.mk.inj hhead
        have hno := List.head?_dropWhile_not
          (fun f => decide (r.frameNo ≠ (s.frames f).frameNo)) itFrame
        rw [heq] at hno
        simp only [List.head?_cons, decide_eq_false_iff_not, not_not] at hno
        exact ⟨List.mem_cons_self, hsuffix List.mem_cons_self, hno.symm⟩
      · obtain ⟨hr, hf⟩ := ih h hsuffix
        exact ⟨List.mem_cons_of_mem _ hr, hf⟩

/-- **What the update does to the frames.** -/
theorem updateResults_frames (env : BufferEnv) (q : ResultQueue) (s : FrameHandler) :
    (updateResults env q s).frames =
      ((s.appliedResults (q.entries.map Prod.snd) s.mFrameQueue).foldl
        (fun s x => applyResult env x.1 x.2 s) s).frames := by
  rw [← applyResults_eq_foldl env _ _ rfl fun _ => rfl, updateResults]
  split
  · rename_i hempty
    rw [applyResults_eq_foldl env _ _ rfl fun _ => rfl]
    have hnone : s.appliedResults (q.entries.map Prod.snd) s.mFrameQueue = [] := by
      refine List.eq_nil_iff_forall_not_mem.mpr fun x hx => ?_
      have hmem := (appliedResults_mem hx (List.Subset.refl _)).2.1
      rw [hempty] at hmem
      cases hmem
    rw [hnone]
    rfl
  · dsimp only
    split
    · rfl
    · split <;> rfl

/-- Every result whose frame is in the queue is applied to a frame of its number. -/
def AppliesAll (s : FrameHandler) (rs : List ResultItem) (itFrame : List FramePtr) : Prop :=
  ∀ r ∈ rs, s.Registered r → ∃ f, (f, r) ∈ s.appliedResults rs itFrame

def InQueueOrder (s : FrameHandler) (rs : List ResultItem) : Prop :=
  ∀ before block after, rs = before ++ block ++ after → (∀ r ∈ block, s.Registered r) →
    (block.map ResultItem.frameNo).Sublist (s.frameNos s.mFrameQueue)

theorem InQueueOrder.tail (h : s.InQueueOrder (r :: rs)) : s.InQueueOrder rs :=
  fun before block after heq => h (r :: before) block after (by rw [heq]; rfl)

/-- The results in front of which the frame is in the queue. -/
def leading (s : FrameHandler) (rs : List ResultItem) : List ResultItem :=
  rs.takeWhile fun r => decide (s.Registered r)

theorem leading_cons (s : FrameHandler) (r : ResultItem) (rs : List ResultItem) :
    s.leading (r :: rs) = if s.Registered r then r :: s.leading rs else [] := by
  rw [leading, List.takeWhile_cons]
  by_cases hr : s.Registered r <;> simp [hr, leading]

theorem registered_of_mem_leading (h : r ∈ s.leading rs) : s.Registered r := by
  simpa using List.mem_takeWhile_imp h

theorem InQueueOrder.leading (h : s.InQueueOrder rs) :
    ((s.leading rs).map ResultItem.frameNo).Sublist (s.frameNos s.mFrameQueue) := by
  refine h [] (s.leading rs) (rs.dropWhile fun r => decide (s.Registered r)) ?_ fun r hr => ?_
  · exact List.takeWhile_append_dropWhile.symm
  · exact registered_of_mem_leading hr

theorem InQueueOrder.cons (hlead : ((s.leading (r :: rs)).map ResultItem.frameNo).Sublist
    (s.frameNos s.mFrameQueue)) (h : s.InQueueOrder rs) : s.InQueueOrder (r :: rs) := by
  intro before block after heq hin
  cases before with
  | nil =>
    refine List.Sublist.trans (List.Sublist.map _ ?_) hlead
    rw [heq, List.nil_append, FrameHandler.leading,
      List.takeWhile_append_of_pos fun r hr => decide_eq_true (hin r hr)]
    exact List.sublist_append_left _ _
  | cons r' before =>
    obtain ⟨-, heq⟩ := List.cons.inj heq
    exact h before block after heq hin

theorem inQueueOrder_nil : s.InQueueOrder [] := by
  intro before block after heq _
  rw [(List.append_eq_nil_iff.mp (List.append_eq_nil_iff.mp heq.symm).1).2]
  exact List.nil_sublist _

theorem dropWhile_of_not_registered (hsub : itFrame ⊆ s.mFrameQueue) (h : ¬ s.Registered r) :
    (itFrame.dropWhile fun f => r.frameNo ≠ (s.frames f).frameNo) = [] := by
  refine List.dropWhile_eq_nil_iff.mpr fun f hf => decide_eq_true fun heq => h ?_
  rw [Registered, heq]
  exact List.mem_map_of_mem (hsub hf)

theorem appliesAll_of_order (hlead : ((s.leading rs).map ResultItem.frameNo).Sublist
      (s.frameNos itFrame)) (hsub : itFrame ⊆ s.mFrameQueue) (horder : s.InQueueOrder rs) :
    s.AppliesAll rs itFrame := by
  induction rs generalizing itFrame with
  | nil => exact fun r hr => by cases hr
  | cons r rs ih =>
    intro r' hr' hin
    rw [appliedResults]
    by_cases hr : s.Registered r
    · rw [leading_cons, if_pos hr, List.map_cons] at hlead
      obtain ⟨f, fs, heq, -, hrest⟩ := sublist_dropWhile hlead
      rw [heq]
      dsimp only
      rcases List.mem_cons.mp hr' with rfl | hr'
      · exact ⟨f, List.mem_cons_self⟩
      · have hsub' : f :: fs ⊆ s.mFrameQueue := fun g hg =>
          hsub ((List.dropWhile_sublist _).subset (heq ▸ hg))
        obtain ⟨g, hg⟩ :=
          ih (hrest.trans (List.sublist_cons_self _ _)) hsub' horder.tail r' hr' hin
        exact ⟨g, List.mem_cons_of_mem _ hg⟩
    · rw [dropWhile_of_not_registered hsub hr]
      have hr'' := (List.mem_cons.mp hr').resolve_left fun heq => hr (heq ▸ hin)
      exact ih horder.tail.leading (List.Subset.refl _) horder.tail r' hr'' hin

theorem order_of_appliesAll (h : s.AppliesAll rs itFrame) (hsub : itFrame.Sublist s.mFrameQueue)
    (hnodup : (rs.map ResultItem.frameNo).Nodup) :
    ((s.leading rs).map ResultItem.frameNo).Sublist (s.frameNos itFrame) ∧ s.InQueueOrder rs := by
  induction rs generalizing itFrame with
  | nil => exact ⟨List.nil_sublist _, inQueueOrder_nil⟩
  | cons r rs ih =>
    rw [List.map_cons, List.nodup_cons] at hnodup
    obtain ⟨hnew, hnodup⟩ := hnodup
    have hne : ∀ r' ∈ rs, r' ≠ r := fun r' hr' heq => hnew (heq ▸ List.mem_map_of_mem hr')
    -- the results behind `r` from the iterator that `r` leaves
    have hrest : ∀ fs, (∀ r' f, r' ∈ rs → (f, r') ∈ s.appliedResults (r :: rs) itFrame →
        (f, r') ∈ s.appliedResults rs fs) → s.AppliesAll rs fs := fun fs hfs r' hr' hin => by
      obtain ⟨f, hf⟩ := h r' (List.mem_cons_of_mem _ hr') hin
      exact ⟨f, hfs r' f hr' hf⟩
    by_cases hr : s.Registered r
    · obtain ⟨f₀, hf₀⟩ := h r List.mem_cons_self hr
      rw [appliedResults] at hf₀
      cases heq : itFrame.dropWhile fun f => decide (r.frameNo ≠ (s.frames f).frameNo) with
      | nil =>
        rw [heq] at hf₀
        exact absurd rfl (hne r (appliedResults_mem hf₀ (List.Subset.refl _)).1)
      | cons f fs =>
        have hfs : (f :: fs).Sublist itFrame := heq ▸ List.dropWhile_sublist _
        have hno : r.frameNo = (s.frames f).frameNo := by
          have hhead := List.head?_dropWhile_not
            (fun f => decide (r.frameNo ≠ (s.frames f).frameNo)) itFrame
          rw [heq] at hhead
          simpa using hhead
        have hall : s.AppliesAll rs (f :: fs) := hrest (f :: fs) fun r' g hr' hg => by
          rw [appliedResults, heq] at hg
          rcases List.mem_cons.mp hg with hhead | hg
          · exact absurd (Prod.mk.inj hhead).2 (hne r' hr')
          · exact hg
        obtain ⟨hlead, horder⟩ := ih hall (hfs.trans hsub) hnodup
        have hlead' : ((s.leading (r :: rs)).map ResultItem.frameNo).Sublist
            (s.frameNos itFrame) := by
          rw [leading_cons, if_pos hr, List.map_cons]
          refine List.Sublist.trans ?_ (hfs.map _)
          rw [List.map_cons, hno]
          refine List.cons_sublist_cons.mpr ?_
          rcases List.sublist_cons_iff.mp hlead with hbehind | ⟨l, heq', -⟩
          · exact hbehind
          · refine absurd ?_ hnew
            rw [hno]
            exact ((List.takeWhile_sublist _).map _).subset
              (heq' ▸ List.mem_cons_self : (s.frames f).frameNo ∈ (s.leading rs).map _)
        exact ⟨hlead', horder.cons (hlead'.trans (hsub.map _))⟩
    · have hnone := dropWhile_of_not_registered hsub.subset hr
      have hall : s.AppliesAll rs s.mFrameQueue := hrest _ fun r' g _ hg => by
        rwa [appliedResults, hnone] at hg
      have hlead : s.leading (r :: rs) = [] := by rw [leading_cons, if_neg hr]
      rw [hlead]
      exact ⟨List.nil_sublist _,
        (ih hall (List.Sublist.refl _) hnodup).2.cons (hlead ▸ List.nil_sublist _)⟩

/-- Every result whose frame is in the queue is applied to a frame of its number. -/
structure NoneDropped (env : BufferEnv) (q : ResultQueue) (s : FrameHandler) : Prop where
  frames : (updateResults env q s).frames =
    ((s.appliedResults (q.entries.map Prod.snd) s.mFrameQueue).foldl
      (fun s x => applyResult env x.1 x.2 s) s).frames
  applied : ∀ r ∈ q.entries.map Prod.snd, s.Registered r →
    ∃ f ∈ s.mFrameQueue, (s.frames f).frameNo = r.frameNo ∧
      (f, r) ∈ s.appliedResults (q.entries.map Prod.snd) s.mFrameQueue

theorem nodup_frameNos {q : ResultQueue} (h : AppStreamMgr.Keyed q) :
    ((q.entries.map Prod.snd).map ResultItem.frameNo).Nodup := by
  have hkeys : (q.entries.map Prod.snd).map ResultItem.frameNo = q.keys := by
    rw [KeyedVector.keys, List.map_map]
    exact List.map_congr_left fun e he => h e.1 e.2 (KeyedVector.find?_eq_some_iff.mpr he)
  rw [hkeys]
  exact q.nodup_keys

/-- **No result of a frame in the queue is dropped** exactly when results that follow each other are
in the order of the queue. -/
theorem noneDropped_iff {q : ResultQueue} (h : AppStreamMgr.Keyed q) (env : BufferEnv)
    (s : FrameHandler) :
    NoneDropped env q s ↔ s.InQueueOrder (q.entries.map Prod.snd) := by
  constructor
  · intro hnone
    refine (order_of_appliesAll (fun r hr hin => ?_) (List.Sublist.refl _) (nodup_frameNos h)).2
    obtain ⟨f, -, -, hf⟩ := hnone.applied r hr hin
    exact ⟨f, hf⟩
  · refine fun horder => ⟨updateResults_frames env q s, fun r hr hin => ?_⟩
    obtain ⟨f, hf⟩ := appliesAll_of_order horder.leading (List.Subset.refl _) horder r hr hin
    obtain ⟨-, hmem, hno⟩ := appliedResults_mem hf (List.Subset.refl _)
    exact ⟨f, hmem, hno, hf⟩

/-- The handler with frames of the given numbers in its queue. -/
def withFrames (nos : List FrameNo) : FrameHandler :=
  nos.foldl (fun s no => s.pushFrame no) (configure 1 [])

def resultsOf (nos : List FrameNo) : ResultQueue :=
  nos.foldl (fun q no => q.add no ⟨false, no, []⟩) .empty

theorem keyed_resultsOf (nos : List FrameNo) : AppStreamMgr.Keyed (resultsOf nos) := by
  induction nos using List.reverseRecOn with
  | nil => exact AppStreamMgr.keyed_empty
  | append_singleton nos no ih =>
    intro k r hr
    rw [resultsOf, List.foldl_append, ← resultsOf, List.foldl_cons, List.foldl_nil,
      KeyedVector.find?_add] at hr
    split at hr
    · rename_i heq
      cases hr
      exact heq.symm
    · exact ih k r hr

/-- Frames whose numbers do not wrap around. -/
theorem noneDropped_increasing :
    NoneDropped allReleased (resultsOf [1, 2]) (withFrames [1, 2]) := by
  have hkeyed : AppStreamMgr.Keyed (resultsOf [1, 2]) := keyed_resultsOf _
  have hitems : (resultsOf [1, 2]).entries.map Prod.snd = [⟨false, 1, []⟩, ⟨false, 2, []⟩] := by
    decide
  refine (noneDropped_iff hkeyed _ _).mpr ?_
  rw [hitems]
  exact (inQueueOrder_nil.cons (by decide)).cons (by decide)

/-- The numbers of the frames wrap around between the two. -/
theorem dropped_at_wrap : AppStreamMgr.Keyed (resultsOf [4294967295, 0]) ∧
    ¬ NoneDropped allReleased (resultsOf [4294967295, 0]) (withFrames [4294967295, 0]) := by
  have hkeyed : AppStreamMgr.Keyed (resultsOf [4294967295, 0]) := keyed_resultsOf _
  refine ⟨hkeyed, fun h => ?_⟩
  have horder := (noneDropped_iff hkeyed _ _).mp h
  have hsub := horder [] ((resultsOf [4294967295, 0]).entries.map Prod.snd) [] (by simp) (by decide)
  revert hsub
  decide

end FrameHandler

end MtkHardware.AppStream
