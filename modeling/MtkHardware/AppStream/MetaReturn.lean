import MtkHardware.AppStream.ImageReturn
import MtkHardware.AppStream.MetaRun

/-!
# Returning the Final Metadata

The final metadata of a frame is handed back in the order of the frames, and a frame leaves
the queue when its metadata is done. The handler tells both from `hasLastPartial` and from
the entry of the largest stream: it takes this entry for that of the last partial. This
module says when that is right, and shows what happens when it is not.
-/

namespace MtkHardware.AppStream

open Pipeline (StreamId)

namespace FrameHandler

variable {P : ℕ → Bool → Prop} {s s' s₁ : FrameHandler} {cbs : List CallbackParcel}
  {cb : CallbackParcel} {f g : FramePtr} {k : StreamId} {n : ℕ} {streams : List StreamId}
  {ops : List Op}

def heldMetas (s : FrameHandler) (f : FramePtr) : List MetaItem :=
  (s.metaSet f).items.entries.filterMap Prod.snd

theorem mem_heldMetas {i : MetaItem} (h : s.metaEntry f k = some (some i)) :
    i ∈ s.heldMetas f :=
  List.mem_filterMap.mpr ⟨(k, some i), KeyedVector.find?_eq_some_iff.mp h, rfl⟩

/-! ### Removing a frame -/

/-- No error has been sent for the frame, all its images and the shutter have been handed
back, its last partial has come, and its largest stream has no item left: `isFrameRemovable`
takes the metadata for done. -/
def LooksDone (s : FrameHandler) (f : FramePtr) : Prop :=
  s.hasError f HistoryBit.errorSentFrame = false ∧
    s.hasError f HistoryBit.errorSentMeta = false ∧
    (∀ a, (s.itemSet f a).items.size = (s.itemSet f a).numReturnedStreams) ∧
    (s.metaSet f).hasLastPartial = true ∧ (s.metaSet f).lastItem = none ∧
    (s.frames f).timestampShutter ≠ 0

instance (s : FrameHandler) (f : FramePtr) : Decidable (s.LooksDone f) :=
  inferInstanceAs (Decidable (_ ∧ _ ∧ _ ∧ _ ∧ _ ∧ _))

theorem looksDone_of_isFrameRemovable (h : s.isFrameRemovable f = true) :
    s.hasError f HistoryBit.errorSentFrame = true ∨
      s.hasError f HistoryBit.errorSentMeta = true ∨ s.LooksDone f := by
  rw [isFrameRemovable] at h
  split_ifs at h with hout hin hframe hmeta hlast
  · exact .inl hframe
  · exact .inr (.inl hmeta)
  · rw [Bool.or_eq_true, not_or, Bool.not_eq_true', Bool.not_eq_false, Bool.not_eq_true,
      Option.isSome_eq_false_iff, Option.isNone_iff_eq_none] at hlast
    refine .inr (.inr ⟨Bool.eq_false_iff.mpr hframe, Bool.eq_false_iff.mpr hmeta, fun a => ?_,
      hlast.1, hlast.2, by simpa using h⟩)
    cases a with
    | false => exact not_not.mp hout
    | true => exact not_not.mp hin

def RemovedSettled (P : ℕ → Bool → Prop) (s : FrameHandler) (cbs : List CallbackParcel) : Prop :=
  ∀ f < s.numFrames, f ∉ s.mFrameQueue → MetaSettled P cbs f

def NoPending (P : ℕ → Bool → Prop) (s : FrameHandler) (f : FramePtr) : Prop :=
  s.LooksDone f → ∀ i ∈ s.heldMetas f, P i.bufferNo i.lastPartial → i.isReturned = true

theorem RemovedSettled.visit (h : RemovedSettled P s cbs)
    (hmeta : LastInvariant P (s₁.removeFrame f) (addParcel cbs cb)) (hqueue : SameQueue s s₁)
    (hpending : NoPending P s₁ f) : RemovedSettled P (s₁.removeFrame f) (addParcel cbs cb) := by
  obtain ⟨hframes, -, hnum'⟩ := imagesEdited_removeFrame s₁ f
  intro g hg hnot
  rw [hnum', hqueue.numFrames] at hg
  by_cases hmem : g ∈ s.mFrameQueue
  · -- the frame has been removed just now
    rw [← hqueue.mFrameQueue] at hmem
    rw [removeFrame] at hnot
    split at hnot
    · rename_i hremovable
      obtain rfl : g = f := by
        by_contra hne
        exact hnot ((List.mem_erase_of_ne hne).mpr hmem)
      have hrecord := hmeta.record g
      have hsame : SameMeta (s₁.frames g) ((s₁.removeFrame g).frames g) := hframes ▸ .refl _
      rcases looksDone_of_isFrameRemovable hremovable with herror | herror | hdone
      · exact hrecord.errors_settled (.inl (hasError_of_sameMeta hsame _ ▸ herror))
      · exact hrecord.errors_settled (.inr (hasError_of_sameMeta hsame _ ▸ herror))
      · have hlast : ((s₁.removeFrame g).metaSet g).hasLastPartial = true := by
          rw [metaSet, hsame.set]
          exact hdone.2.2.2.1
        refine (hmeta.last g).settled hrecord hlast fun k i hi hP => ?_
        exact hpending hdone i (mem_heldMetas (metaEntry_of_sameMeta hsame k ▸ hi)) hP
    · exact absurd hmem hnot
  · exact (h g hg hmem).mono subset_addParcel

/-- **The condition for the removal of frames**: a frame whose metadata looks done has no
item of the kind that is pending, and no result replaces one. -/
def RemovalCondition (P : ℕ → Bool → Prop) : StepCondition where
  apply _ s f r := KeepsPending P s f r
  removal s f := NoPending P s f

section

variable [∀ no last, Decidable (P no last)]

instance : Decidable (NoPending P s f) := inferInstanceAs (Decidable (_ → ∀ i ∈ _, _))

instance (env : BufferEnv) (r : ResultItem) : Decidable ((RemovalCondition P).apply env s f r) :=
  inferInstanceAs (Decidable (KeepsPending P s f r))

instance (env : BufferEnv) : Decidable ((RemovalCondition P).visit env s f) :=
  inferInstanceAs (Decidable True)

instance : Decidable ((RemovalCondition P).removal s f) :=
  inferInstanceAs (Decidable (NoPending P s f))

end

theorem keeps_last_removalCondition (P : ℕ → Bool → Prop) :
    (RemovalCondition P).Keeps (LastInvariant P) := keeps_lastHeld fun _ _ _ _ h => h

theorem keeps_removalCondition (P : ℕ → Bool → Prop) : (RemovalCondition P).Keeps fun s cbs =>
    LastInvariant P s cbs ∧ RemovedSettled P s cbs where
  register s cbs rRequest hinv h := by
    obtain ⟨hqueue, -, hnum, -⟩ := registerFrame_spec s rRequest
    refine ⟨(keeps_last_removalCondition P).register s cbs rRequest hinv h.1,
      fun g hg hnot => ?_⟩
    rw [hqueue, List.mem_append, not_or, List.mem_singleton] at hnot
    rw [hnum] at hg
    exact h.2 g (by omega) hnot.1
  latest s cbs frameNo h := ⟨(keeps_last_removalCondition P).latest s cbs frameNo h.1, h.2⟩
  apply s cbs env f r hinv hf hC h := by
    have hhandler := (metaApplied_applyResult env f r s).handler
    refine ⟨(keeps_last_removalCondition P).apply s cbs env f r hinv hf hC h.1,
      fun g hg hnot => ?_⟩
    rw [hhandler.numFrames] at hg
    rw [hhandler.mFrameQueue] at hnot
    exact h.2 g hg hnot
  visit s cbs env f s₁ cb hinv hf hV hx hvisit hR h := by
    have hmeta := (keeps_last_removalCondition P).visit s cbs env f s₁ cb hinv hf hV hx hvisit
      hR h.1
    exact ⟨hmeta, h.2.visit hmeta (sameQueue_of_prepareFrame hinv (h.1.record f).home hx) hR⟩

def isLastPartial (_ : ℕ) (lastPartial : Bool) : Prop := lastPartial = true

instance (no : ℕ) (lastPartial : Bool) : Decidable (isLastPartial no lastPartial) :=
  inferInstanceAs (Decidable (lastPartial = true))

def oneBuffer (frameNo : FrameNo) (handle : ℕ) (streamId : StreamId) : Op :=
  .registerFrame { frameNo, vOutputImageBuffers := .add {} { handle, streamId } }

def oneResult (env : BufferEnv) (frameNo : FrameNo) (lastPartial : Bool)
    (buffer : List MetaStreamBuffer) : Op :=
  .updateResults env (KeyedVector.empty.add frameNo ⟨lastPartial, frameNo, buffer⟩)

/-- All users of all buffers are done, but for the images of the first frame. -/
def firstInFlight : BufferEnv where
  image handle := if handle = 10 then ⟨0, false, false, -1, -1⟩ else allReleased.image handle
  metadata := allReleased.metadata

/-- Two frames of different streams. The last partial of the second frame comes with a
smaller stream than what the frame has got before, and waits for the first frame. -/
def lastPartialBehind : List Op :=
  [oneBuffer 1 10 1, oneBuffer 2 20 2, oneResult firstInFlight 1 false [⟨30, 7, .metaOut⟩],
    oneResult firstInFlight 2 false [⟨31, 20, .metaOut⟩], .updateCallbacks firstInFlight,
    oneResult firstInFlight 2 true [⟨32, 10, .metaOut⟩], .updateCallbacks firstInFlight]

/-- An item with the buffer number of the final metadata. -/
def isFinal (n : ℕ) (bufferNo : ℕ) (_ : Bool) : Prop := bufferNo = n

instance (n bufferNo : ℕ) (lastPartial : Bool) : Decidable (isFinal n bufferNo lastPartial) :=
  inferInstanceAs (Decidable (bufferNo = n))

/-- The metadata of a frame is done: an error has been sent, or the last partial has come and
no final item is pending. -/
def MetaDone (n : ℕ) (s : FrameHandler) (f : FramePtr) : Prop :=
  s.hasError f HistoryBit.errorSentFrame = true ∨ s.hasError f HistoryBit.errorSentMeta = true ∨
    (s.metaSet f).hasLastPartial = true ∧
      ∀ i ∈ s.heldMetas f, isFinal n i.bufferNo i.lastPartial → i.isReturned = true

/-- When a final item of the frame can be handed back and no earlier frame blocks it, the
metadata of the earlier frames is done. -/
def LetPass (n : ℕ) (s : FrameHandler) (f : FramePtr) : Prop :=
  (∃ i ∈ s.heldMetas f, isFinal n i.bufferNo i.lastPartial ∧ i.state = .valid ∧
    i.isReturned = false) →
  (∀ g ∈ s.mFrameQueue, g < f → (s.metaSet g).blocksFinal = false) →
  ∀ g ∈ s.mFrameQueue, g < f → MetaDone n s g

/-- **The condition for the order of final metadata**. -/
def OrderCondition (n : ℕ) : StepCondition :=
  { RemovalCondition (isFinal n) with visit := fun _ s f => LetPass n s f }

section

instance (env : BufferEnv) (r : ResultItem) : Decidable ((OrderCondition n).apply env s f r) :=
  inferInstanceAs (Decidable (KeepsPending (isFinal n) s f r))

instance : Decidable (MetaDone n s f) := inferInstanceAs (Decidable (_ ∨ _ ∨ _ ∧ ∀ i ∈ _, _ → _))

instance (env : BufferEnv) : Decidable ((OrderCondition n).visit env s f) :=
  inferInstanceAs (Decidable ((∃ i ∈ _, _ ∧ _ ∧ _) → (∀ g ∈ _, g < f → _) →
    ∀ g ∈ _, g < f → MetaDone n s g))

instance : Decidable ((OrderCondition n).removal s f) :=
  inferInstanceAs (Decidable (NoPending (isFinal n) s f))

end

/-- Final metadata comes after the final metadata, or an error, of each earlier frame. -/
def FinalInOrder (n : ℕ) (cbs : List CallbackParcel) : Prop :=
  ∀ l₁ cb l₂, cbs = l₁ ++ cb :: l₂ →
    (∃ m ∈ cb.vOutputMetaItem, isFinal n m.item.bufferNo m.item.lastPartial) →
    ∀ g < cb.pFrame, MetaSettled (isFinal n) l₁ g

theorem FinalInOrder.addParcel (h : FinalInOrder n cbs)
    (hcb : (∃ m ∈ cb.vOutputMetaItem, isFinal n m.item.bufferNo m.item.lastPartial) →
      ∀ g < cb.pFrame, MetaSettled (isFinal n) cbs g) :
    FinalInOrder n (FrameHandler.addParcel cbs cb) := by
  rw [FrameHandler.addParcel]
  split
  · intro l₁ cb' l₂ heq
    cases l₂ using List.reverseRecOn with
    | nil =>
      obtain ⟨rfl, hlast⟩ := List.append_inj' heq rfl
      obtain rfl : cb = cb' := by simpa using hlast
      exact hcb
    | append_singleton l₂ cb₂ =>
      rw [← List.cons_append, ← List.append_assoc] at heq
      obtain ⟨rfl, -⟩ := List.append_inj' heq rfl
      exact h l₁ cb' l₂ rfl
  · rw [List.append_nil]
    exact h

theorem MetaDone.settled (h : MetaDone n s f) (hlast : LastInvariant (isFinal n) s cbs) :
    MetaSettled (isFinal n) cbs f := by
  have hrecord := hlast.record f
  rcases h with herror | herror | ⟨hcome, hheld⟩
  · exact hrecord.errors_settled (.inl herror)
  · exact hrecord.errors_settled (.inr herror)
  · exact (hlast.last f).settled hrecord hcome fun k i hi => hheld i (mem_heldMetas hi)

theorem keeps_orderCondition (n : ℕ) : (OrderCondition n).Keeps fun s cbs =>
    (LastInvariant (isFinal n) s cbs ∧ RemovedSettled (isFinal n) s cbs) ∧
      FinalInOrder n cbs where
  register s cbs rRequest hinv h :=
    ⟨(keeps_removalCondition _).register s cbs rRequest hinv h.1, h.2⟩
  latest s cbs frameNo h := ⟨(keeps_removalCondition _).latest s cbs frameNo h.1, h.2⟩
  apply s cbs env f r hinv hf hC h :=
    ⟨(keeps_removalCondition _).apply s cbs env f r hinv hf hC h.1, h.2⟩
  visit s cbs env f s₁ cb hinv hf hV hx hvisit hR h := by
    obtain ⟨⟨hmeta, hremoved⟩, horder⟩ := h
    refine ⟨(keeps_removalCondition _).visit s cbs env f s₁ cb hinv hf trivial hx hvisit hR
      ⟨hmeta, hremoved⟩, horder.addParcel ?_⟩
    rintro ⟨m, hm, hfinal⟩ g hg
    obtain ⟨k, i, hi, hforget, hstate, hret, hreturnable⟩ :=
      handed_of_visit hinv (hmeta.record f).home hx hm
    obtain ⟨-, -, -, hno, -⟩ := MetaItem.forget_eq_forget_iff.mp hforget
    have hi_final : i.bufferNo = n := hno.symm.trans hfinal
    rw [hvisit.pFrame] at hg
    by_cases hqueue : g ∈ s.mFrameQueue
    · have hcount : s.mAtMostMetaStreamCount = n := hmeta.mark
      rw [isReturnableMeta, if_pos (hi_final.trans hcount.symm), (hmeta.record f).home k i hi,
        List.all_eq_true] at hreturnable
      have hpass := hV ⟨i, mem_heldMetas hi, hi_final, hstate, hret⟩ (fun g' hg' hlt => by
        exact (Bool.not_eq_true' _).mp
          (hreturnable g' ((mem_takeWhile_ne_iff hinv.sorted hf).mpr ⟨hg', hlt⟩)))
      exact (hpass g hqueue hg).settled hmeta
    · exact hremoved g (hg.trans (hinv.made f hf)) hqueue

/-- All users of all buffers are done, but for the consumers of the first metadata buffer. -/
def metadataInUse : BufferEnv where
  image := allReleased.image
  metadata handle := if handle = 30 then ⟨false, true, false, some 5⟩ else
    allReleased.metadata handle

/-- Two frames. The first has got a partial that is still in use, the second its last. -/
def partialInUse : List Op :=
  [oneBuffer 1 10 1, oneBuffer 2 20 2, oneResult metadataInUse 1 false [⟨30, 7, .metaOut⟩],
    oneResult metadataInUse 2 true [⟨31, 8, .metaOut⟩], .updateCallbacks metadataInUse]

end FrameHandler

end MtkHardware.AppStream
