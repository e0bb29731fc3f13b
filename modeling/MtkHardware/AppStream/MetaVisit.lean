import MtkHardware.AppStream.ImagePass
import Mathlib.Data.List.TakeWhile

/-!
# Metadata Visits

What the visit of a frame by a callback pass does to the metadata of the frame: which items
it hands back, which errors it tells, and what is left of the items. The visit of a request
error tells that error only; any other visit is described by `MetaEffect`, a relation that
composes, so that the effect of a visit is put together from the effects of its turns.
-/

namespace MtkHardware.AppStream

open Pipeline (StreamId)

def MetaItem.forget (i : MetaItem) : MetaItem := { i with history := .clear }

theorem MetaItem.forget_eq_forget_iff {i i' : MetaItem} : i'.forget = i.forget ↔
    i'.pFrame = i.pFrame ∧ i'.state = i.state ∧ i'.buffer = i.buffer ∧
      i'.bufferNo = i.bufferNo ∧ i'.lastPartial = i.lastPartial := by
  cases i
  cases i'
  simp [forget]

def MetaItem.isReturned (i : MetaItem) : Bool := i.history.hasBit HistoryBit.returned

def MetaItem.isErrorSent (i : MetaItem) : Bool := i.history.hasBit HistoryBit.errorSentMeta

structure SameMeta (a b : FrameParcel) : Prop where
  set : b.vOutputMetaItem = a.vOutputMetaItem
  errors : b.errors = a.errors
  shutter : b.timestampShutter = a.timestampShutter
  frameNo : b.frameNo = a.frameNo

theorem SameMeta.refl (a : FrameParcel) : SameMeta a a := ⟨rfl, rfl, rfl, rfl⟩

theorem SameMeta.trans {a b c : FrameParcel} (h₁ : SameMeta a b) (h₂ : SameMeta b c) :
    SameMeta a c :=
  ⟨h₂.set.trans h₁.set, h₂.errors.trans h₁.errors, h₂.shutter.trans h₁.shutter,
    h₂.frameNo.trans h₁.frameNo⟩

namespace FrameHandler

variable {s s' s₁ s₂ : FrameHandler} {cb cb' cb₁ : CallbackParcel} {f g : FramePtr} {a : Bool}
  {k : StreamId} {p q : ImagePtr} {x y z : FrameHandler × CallbackParcel}

def metaSet (s : FrameHandler) (f : FramePtr) : MetaItemSet := (s.frames f).vOutputMetaItem

def metaEntry (s : FrameHandler) (f : FramePtr) (k : StreamId) : Option (Option MetaItem) :=
  (s.metaSet f).items.find? k

def hasError (s : FrameHandler) (f : FramePtr) (n : ℕ) : Bool := (s.frames f).errors.hasBit n

theorem frames_editMetaSet (s : FrameHandler) (f g : FramePtr)
    (h : MetaItemSet → MetaItemSet) :
    (s.editMetaSet f h).frames g = if g = f then
      { s.frames f with vOutputMetaItem := h (s.metaSet f) } else s.frames g :=
  frames_editFrame _ g

theorem metaSet_editMetaSet (s : FrameHandler) (f g : FramePtr)
    (h : MetaItemSet → MetaItemSet) :
    (s.editMetaSet f h).metaSet g = if g = f then h (s.metaSet f) else s.metaSet g := by
  rw [metaSet, frames_editMetaSet]
  split_ifs <;> rfl

/-! ### Frames that stay the same -/

/-- What the visit of a frame leaves alone in the whole handler. -/
structure SameQueue (s s' : FrameHandler) : Prop where
  mFrameQueue : s'.mFrameQueue = s.mFrameQueue
  atMost : s'.mAtMostMetaStreamCount = s.mAtMostMetaStreamCount
  numFrames : s'.numFrames = s.numFrames
  latest : s'.latestResultFrameNo = s.latestResultFrameNo
  verdict : ∀ g, checkRequestError (s'.frames g) = checkRequestError (s.frames g)

theorem SameQueue.refl (s : FrameHandler) : SameQueue s s := ⟨rfl, rfl, rfl, rfl, fun _ => rfl⟩

theorem SameQueue.trans (h₁ : SameQueue s s₁) (h₂ : SameQueue s₁ s') : SameQueue s s' :=
  ⟨h₂.mFrameQueue.trans h₁.mFrameQueue, h₂.atMost.trans h₁.atMost,
    h₂.numFrames.trans h₁.numFrames, h₂.latest.trans h₁.latest,
    fun g => (h₂.verdict g).trans (h₁.verdict g)⟩

/-- `isReturnable` looks at the metadata of the frames in the queue only. -/
theorem isReturnableMeta_congr (hqueue : s'.mFrameQueue = s.mFrameQueue)
    (hatMost : s'.mAtMostMetaStreamCount = s.mAtMostMetaStreamCount) {i i' : MetaItem}
    (hset : ∀ g, g ≠ i.pFrame → s'.metaSet g = s.metaSet g) (hi : i'.forget = i.forget) :
    s'.isReturnableMeta i' = s.isReturnableMeta i := by
  obtain ⟨hpFrame, -, -, hbufferNo, -⟩ := MetaItem.forget_eq_forget_iff.mp hi
  rw [isReturnableMeta, isReturnableMeta, hqueue, hatMost, hpFrame, hbufferNo]
  split_ifs
  · refine Bool.eq_iff_iff.mpr ?_
    rw [List.all_eq_true, List.all_eq_true]
    refine forall₂_congr fun g hg => ?_
    have hne : g ≠ i.pFrame := by simpa using List.mem_takeWhile_imp hg
    have hsame := hset g hne
    rw [metaSet, metaSet] at hsame
    rw [hsame]
  · rfl

/-! ### Images -/

/-- The turns of a visit that have to do with images: errors of buffers are told only of a
frame that is not a request error. -/
structure ImageEffect (f : FramePtr) (es : List CallbackParcel.Error)
    (x y : FrameHandler × CallbackParcel) : Prop where
  queue : SameQueue x.1 y.1
  frames : ∀ g, SameMeta (x.1.frames g) (y.1.frames g)
  metas : y.2.vOutputMetaItem = x.2.vOutputMetaItem
  errors : y.2.vError = x.2.vError ++ es
  code : ∀ e ∈ es, e.errorCode = .errorBuffer ∧ checkRequestError (x.1.frames f) < 0
  valid : x.2.valid = true ∨ es ≠ [] → y.2.valid = true
  pFrame : y.2.pFrame = x.2.pFrame

theorem ImageEffect.refl (f : FramePtr) (x : FrameHandler × CallbackParcel) :
    ImageEffect f [] x x :=
  ⟨.refl _, fun _ => .refl _, rfl, by simp, by simp, fun h => h.resolve_right (by simp), rfl⟩

theorem ImageEffect.trans {es₁ es₂ : List CallbackParcel.Error} (h₁ : ImageEffect f es₁ x y)
    (h₂ : ImageEffect f es₂ y z) : ImageEffect f (es₁ ++ es₂) x z where
  queue := h₁.queue.trans h₂.queue
  frames g := (h₁.frames g).trans (h₂.frames g)
  metas := h₂.metas.trans h₁.metas
  errors := by rw [h₂.errors, h₁.errors, List.append_assoc]
  code e he := by
    rcases List.mem_append.mp he with he | he
    · exact h₁.code e he
    · rw [← h₁.queue.verdict f]
      exact h₂.code e he
  valid h := by
    by_cases hes : es₁ = []
    · subst hes
      exact h₂.valid (h.imp (fun h => h₁.valid (.inl h)) id)
    · exact h₂.valid (.inl (h₁.valid (.inr hes)))
  pFrame := h₂.pFrame.trans h₁.pFrame

theorem checkRequestError_editItemSet {h : ImageItemSet → ImageItemSet}
    (hset : ∀ set, (h set).numValidStreams = set.numValidStreams ∧
      (h set).numErrorStreams = set.numErrorStreams ∧ (h set).items.size = set.items.size)
    (frame : FrameParcel) :
    checkRequestError (frame.editItemSet a h) = checkRequestError frame := by
  cases a with
  | true => rfl
  | false =>
    obtain ⟨hvalid, herror, hsize⟩ := hset frame.vOutputImageItem
    simp [checkRequestError, FrameParcel.editItemSet, hvalid, herror, hsize]

theorem sameMeta_editItemSet (h : ImageItemSet → ImageItemSet) (frame : FrameParcel) :
    SameMeta frame (frame.editItemSet a h) := by
  cases a <;> exact ⟨rfl, rfl, rfl, rfl⟩

theorem imageEffect_editItemSet {h : ImageItemSet → ImageItemSet}
    (hset : ∀ set, (h set).numValidStreams = set.numValidStreams ∧
      (h set).numErrorStreams = set.numErrorStreams ∧ (h set).items.size = set.items.size)
    (f g : FramePtr) (s : FrameHandler) (cb : CallbackParcel) :
    ImageEffect f [] (s, cb) (s.editItemSet g a h, cb) := by
  refine ⟨⟨rfl, rfl, rfl, rfl, fun g' => ?_⟩, fun g' => ?_, rfl, by simp, by simp,
    fun h => h.resolve_right (by simp), rfl⟩
  · dsimp only
    rw [editItemSet, frames_editFrame]
    split_ifs with hg
    · subst hg
      exact checkRequestError_editItemSet hset _
    · rfl
  · dsimp only
    rw [editItemSet, frames_editFrame]
    split_ifs with hg
    · subst hg
      exact sameMeta_editItemSet _ _
    · exact .refl _

theorem imageEffect_returnImage (f : FramePtr) (s : FrameHandler) (cb : CallbackParcel)
    (p : ImagePtr) : ImageEffect f [] (s, cb) (s.prepareReturnImage cb p) := by
  rw [prepareReturnImage]
  split
  · exact ⟨.refl _, fun _ => .refl _, rfl, by simp, by simp, fun _ => rfl, rfl⟩
  · have hedit := imageEffect_editItemSet (a := (s.items p).asInput)
      (h := fun set => { set with numReturnedStreams := set.numReturnedStreams + 1 })
      (fun _ => ⟨rfl, rfl, rfl⟩) f (s.items p).pFrame { s with
        items := Function.update s.items p { s.items p with
          history := (s.items p).history.markBit HistoryBit.returned }
        mImageConfigMap := s.mImageConfigMap.modify (s.items p).streamId (·.erase p) } cb
    have hpFrame : (CallbackParcel.addImage { cb with valid := true } (s.items p).asInput
        (s.cbItem p)).pFrame = cb.pFrame := by cases (s.items p).asInput <;> rfl
    have hqueue := hedit.queue
    exact ⟨⟨hqueue.mFrameQueue, hqueue.atMost, hqueue.numFrames, hqueue.latest, hqueue.verdict⟩,
      hedit.frames, by cases (s.items p).asInput <;> rfl,
      by cases (s.items p).asInput <;> simp [CallbackParcel.addImage], by simp,
      fun _ => by cases (s.items p).asInput <;> rfl, hpFrame⟩

theorem imageEffect_item (hframe : (x.1.items p).pFrame = f) :
    ∃ es, ImageEffect f es x (prepareCallbackImageItem x p) := by
  obtain ⟨s, cb⟩ := x
  refine prepareCallbackImageItem_rule (P := fun y => ∃ es, ImageEffect f es (s, cb) y)
    ⟨[], .refl f _⟩ ⟨[], imageEffect_returnImage f s cb p⟩ fun hverdict => ?_
  rw [hframe] at hverdict
  have htold : ImageEffect f
      [{ errorCode := .errorBuffer, stream := some (s.items p).streamId }] (s, cb)
      (s.prepareErrorImage cb p) :=
    ⟨⟨rfl, rfl, rfl, rfl, fun _ => rfl⟩, fun _ => .refl _, rfl, rfl,
      fun e he => ⟨by rw [List.mem_singleton.mp he], hverdict⟩, fun _ => rfl, rfl⟩
  exact ⟨⟨_, htold⟩, _, htold.trans (imageEffect_returnImage f _ _ p)⟩

def ImagesHome (s : FrameHandler) (f : FramePtr) : Prop :=
  ∀ a k p, s.entry f a k = some (some p) → (s.items p).pFrame = f

theorem pFrame_prepareReturnImage (s : FrameHandler) (cb : CallbackParcel) (p q : ImagePtr) :
    ((s.prepareReturnImage cb p).1.items q).pFrame = (s.items q).pFrame := by
  rw [prepareReturnImage]
  split
  · rfl
  · rw [items_returnItem]
    split_ifs with hq
    · rw [hq]
    · rfl

theorem pFrame_prepareCallbackImageItem (x : FrameHandler × CallbackParcel) (p q : ImagePtr) :
    ((prepareCallbackImageItem x p).1.items q).pFrame = (x.1.items q).pFrame := by
  obtain ⟨s, cb⟩ := x
  have herror : ((s.prepareErrorImage cb p).1.items q).pFrame = (s.items q).pFrame := by
    rw [prepareErrorImage, items_editItem]
    split_ifs with hq
    · rw [hq]
    · rfl
  exact prepareCallbackImageItem_rule (P := fun y => (y.1.items q).pFrame = (s.items q).pFrame)
    rfl (pFrame_prepareReturnImage s cb p q)
    fun _ => ⟨herror, (pFrame_prepareReturnImage _ _ p q).trans herror⟩

theorem imageEffect_key (env : BufferEnv) (h : x.1.ImagesHome f) (a : Bool) (k : StreamId) :
    (∃ es, ImageEffect f es x (prepareCallbackImage env f a x k)) ∧
      (prepareCallbackImage env f a x k).1.ImagesHome f := by
  rw [prepareCallbackImage]
  split
  · rename_i p hfind
    obtain ⟨es, hes⟩ := imageEffect_item (h a k p hfind)
    have hhome : (prepareCallbackImageItem x p).1.ImagesHome f := fun b k' q hq => by
      rw [entry_prepareCallbackImageItem] at hq
      rw [pFrame_prepareCallbackImageItem]
      exact h b k' q hq
    dsimp only
    split
    · have hclear := imageEffect_editItemSet (a := a)
        (h := fun set => { set with items := set.items.modify k fun _ => none })
        (fun _ => ⟨rfl, rfl, by simp⟩) f f (prepareCallbackImageItem x p).1
        (prepareCallbackImageItem x p).2
      refine ⟨⟨_, hes.trans hclear⟩, fun b k' q hq => ?_⟩
      rw [entry, itemSet_editItemSet] at hq
      rw [items_editItemSet]
      split_ifs at hq with hself
      · obtain ⟨-, rfl⟩ := hself
        rw [KeyedVector.find?_modify] at hq
        split_ifs at hq
        · rw [Option.map_eq_some_iff] at hq
          obtain ⟨_, _, hq⟩ := hq
          cases hq
        · exact hhome b k' q hq
      · exact hhome b k' q hq
    · exact ⟨⟨es, hes⟩, hhome⟩
  · exact ⟨⟨[], .refl f x⟩, h⟩

/-- **The turns of an image set.** -/
theorem imageEffect_set (env : BufferEnv) (h : x.1.ImagesHome f) (a : Bool) :
    (∃ es, ImageEffect f es x (prepareCallbackImages env f a x)) ∧
      (prepareCallbackImages env f a x).1.ImagesHome f := by
  rw [prepareCallbackImages]
  generalize ((x.1.frames f).itemSet a).items.keys = ks
  induction ks generalizing x with
  | nil => exact ⟨⟨[], .refl f x⟩, h⟩
  | cons k ks ih =>
    obtain ⟨⟨es₁, hes₁⟩, hhome⟩ := imageEffect_key env h a k
    obtain ⟨⟨es₂, hes₂⟩, hhome'⟩ := ih hhome
    exact ⟨⟨_, hes₁.trans hes₂⟩, hhome'⟩

/-! ### Metadata -/

def MetasHome (s : FrameHandler) (f : FramePtr) : Prop :=
  ∀ k i, s.metaEntry f k = some (some i) → i.pFrame = f

/-- **What the turns of a visit do to the metadata of its frame**: they hand back the items
`l` and tell the errors `es`. -/
structure MetaEffect (f : FramePtr) (l : List CallbackParcel.MetaItem)
    (es : List CallbackParcel.Error) (x y : FrameHandler × CallbackParcel) : Prop where
  queue : SameQueue x.1 y.1
  frames : ∀ g, g ≠ f → SameMeta (x.1.frames g) (y.1.frames g)
  frameNo : (y.1.frames f).frameNo = (x.1.frames f).frameNo
  keys : (y.1.metaSet f).items.keys = (x.1.metaSet f).items.keys
  hasLastPartial : (y.1.metaSet f).hasLastPartial = (x.1.metaSet f).hasLastPartial
  numValid : (y.1.metaSet f).numValidStreams = (x.1.metaSet f).numValidStreams
  numError : (y.1.metaSet f).numErrorStreams = (x.1.metaSet f).numErrorStreams
  /-- An item that is left has only its history changed, and for a reason. -/
  kept : ∀ k i', y.1.metaEntry f k = some (some i') → ∃ i,
    x.1.metaEntry f k = some (some i) ∧ i'.forget = i.forget ∧
    (∀ n, i.history.hasBit n = true → i'.history.hasBit n = true) ∧
    (∀ n, i'.history.hasBit n = true →
      i.history.hasBit n = true ∨ n = HistoryBit.returned ∨ n = HistoryBit.errorSentMeta) ∧
    (i'.isReturned = true → i.isReturned = true ∨ ∃ m ∈ l, m.item.forget = i.forget) ∧
    (i'.isErrorSent = true →
      i.isErrorSent = true ∨ y.1.hasError f HistoryBit.errorSentMeta = true) ∧
    (isSent i'.history = true → isSent i.history = true ∨
      (∃ m ∈ l, m.item.forget = i.forget) ∨ y.1.hasError f HistoryBit.errorSentMeta = true)
  /-- An item that is gone has been handed back, or its error has been told. -/
  cleared : ∀ k i, x.1.metaEntry f k = some (some i) →
    (∃ i', y.1.metaEntry f k = some (some i')) ∨ isSent i.history = true ∨
      (∃ m ∈ l, m.item.forget = i.forget) ∨ y.1.hasError f HistoryBit.errorSentMeta = true
  metas : y.2.vOutputMetaItem = x.2.vOutputMetaItem ++ l
  handed : ∀ m ∈ l, ∃ k i, x.1.metaEntry f k = some (some i) ∧ m.item.forget = i.forget ∧
    i.state = .valid ∧ i.isReturned = false ∧ x.1.isReturnableMeta i = true
  errors : y.2.vError = x.2.vError ++ es
  code : ∀ e ∈ es, e.errorCode ≠ .errorRequest ∧ checkRequestError (x.1.frames f) < 0
  told : y.1.hasError f HistoryBit.errorSentMeta = true ↔
    x.1.hasError f HistoryBit.errorSentMeta = true ∨ ∃ e ∈ es, e.errorCode = .errorResult
  requested : y.1.hasError f HistoryBit.errorSentFrame = x.1.hasError f HistoryBit.errorSentFrame
  valid : x.2.valid = true ∨ l ≠ [] ∨ es ≠ [] → y.2.valid = true
  pFrame : y.2.pFrame = x.2.pFrame

variable {l l₁ l₂ : List CallbackParcel.MetaItem} {es es₁ es₂ : List CallbackParcel.Error}

theorem MetaEffect.home (h : MetaEffect f l es x y) (hhome : x.1.MetasHome f) :
    y.1.MetasHome f := fun k i' hi' => by
  obtain ⟨i, hi, hforget, -⟩ := h.kept k i' hi'
  exact (MetaItem.forget_eq_forget_iff.mp hforget).1.trans (hhome k i hi)

theorem ImageEffect.metaEffect (h : ImageEffect f es x y) : MetaEffect f [] es x y := by
  have hset : y.1.metaSet f = x.1.metaSet f := (h.frames f).set
  have hentry : ∀ k, y.1.metaEntry f k = x.1.metaEntry f k := fun k => by
    rw [metaEntry, hset, metaEntry]
  have herrors : ∀ n, y.1.hasError f n = x.1.hasError f n := fun n => by
    rw [hasError, (h.frames f).errors, hasError]
  refine ⟨h.queue, fun g _ => h.frames g, (h.frames f).frameNo, by rw [hset], by rw [hset],
    by rw [hset], by rw [hset], fun k i hi => ?_, fun k i hi => .inl ⟨i, hentry k ▸ hi⟩,
    by rw [h.metas, List.append_nil], by simp, h.errors, fun e he => ?_, ?_, herrors _,
    fun hv => h.valid (hv.imp_right fun hv => hv.resolve_left fun h => h rfl), h.pFrame⟩
  · rw [hentry] at hi
    exact ⟨i, hi, rfl, fun _ => id, fun _ => .inl, .inl, .inl, .inl⟩
  · obtain ⟨hcode, hverdict⟩ := h.code e he
    exact ⟨by simp [hcode], hverdict⟩
  · rw [herrors]
    refine ⟨.inl, fun ht => ht.resolve_right ?_⟩
    rintro ⟨e, he, hcode⟩
    rw [(h.code e he).1] at hcode
    cases hcode

theorem MetaEffect.refl (f : FramePtr) (x : FrameHandler × CallbackParcel) :
    MetaEffect f [] [] x x := (ImageEffect.refl f x).metaEffect

/-- **Effects compose.** -/
theorem MetaEffect.trans (h₁ : MetaEffect f l₁ es₁ x y) (h₂ : MetaEffect f l₂ es₂ y z)
    (hhome : x.1.MetasHome f) : MetaEffect f (l₁ ++ l₂) (es₁ ++ es₂) x z := by
  have htold : y.1.hasError f HistoryBit.errorSentMeta = true →
      z.1.hasError f HistoryBit.errorSentMeta = true := fun h => h₂.told.mpr (.inl h)
  have hleft : ∀ {i : MetaItem}, (∃ m ∈ l₁, m.item.forget = i.forget) →
      ∃ m ∈ l₁ ++ l₂, m.item.forget = i.forget := fun ⟨m, hm, hi⟩ =>
    ⟨m, List.mem_append_left _ hm, hi⟩
  have hright : ∀ {i i' : MetaItem}, i'.forget = i.forget →
      (∃ m ∈ l₂, m.item.forget = i'.forget) → ∃ m ∈ l₁ ++ l₂, m.item.forget = i.forget :=
    fun hforget ⟨m, hm, hi⟩ => ⟨m, List.mem_append_right _ hm, hi.trans hforget⟩
  refine ⟨h₁.queue.trans h₂.queue, fun g hg => (h₁.frames g hg).trans (h₂.frames g hg),
    h₂.frameNo.trans h₁.frameNo, h₂.keys.trans h₁.keys,
    h₂.hasLastPartial.trans h₁.hasLastPartial, h₂.numValid.trans h₁.numValid,
    h₂.numError.trans h₁.numError, fun k i₂ hi₂ => ?_, fun k i hi => ?_, ?_, fun m hm => ?_, ?_,
    fun e he => ?_, ?_, h₂.requested.trans h₁.requested, fun hv => ?_,
    h₂.pFrame.trans h₁.pFrame⟩
  · obtain ⟨i₁, hi₁, hf₂, hmono₂, hbits₂, hret₂, herr₂, hsent₂⟩ := h₂.kept k i₂ hi₂
    obtain ⟨i, hi, hf₁, hmono₁, hbits₁, hret₁, herr₁, hsent₁⟩ := h₁.kept k i₁ hi₁
    refine ⟨i, hi, hf₂.trans hf₁, fun n h => hmono₂ n (hmono₁ n h), fun n h => ?_, fun h => ?_,
      fun h => ?_, fun h => ?_⟩
    · exact (hbits₂ n h).elim (hbits₁ n) .inr
    · rcases hret₂ h with h | h
      · exact (hret₁ h).imp_right hleft
      · exact .inr (hright hf₁ h)
    · rcases herr₂ h with h | h
      · exact (herr₁ h).imp_right htold
      · exact .inr h
    · rcases hsent₂ h with h | h | h
      · exact (hsent₁ h).imp_right (.imp hleft htold)
      · exact .inr (.inl (hright hf₁ h))
      · exact .inr (.inr h)
  · rcases h₁.cleared k i hi with ⟨i₁, hi₁⟩ | h | h | h
    · obtain ⟨i₀, hi₀, hf₁, -, -, -, -, hsent₁⟩ := h₁.kept k i₁ hi₁
      obtain rfl : i = i₀ := by
        rw [hi] at hi₀
        exact Option.some_inj.mp (Option.some_inj.mp hi₀)
      rcases h₂.cleared k i₁ hi₁ with h | h | h | h
      · exact .inl h
      · exact .inr ((hsent₁ h).imp_right (.imp hleft htold))
      · exact .inr (.inr (.inl (hright hf₁ h)))
      · exact .inr (.inr (.inr h))
    · exact .inr (.inl h)
    · exact .inr (.inr (.inl (hleft h)))
    · exact .inr (.inr (.inr (htold h)))
  · rw [h₂.metas, h₁.metas, List.append_assoc]
  · rcases List.mem_append.mp hm with hm | hm
    · exact h₁.handed m hm
    · obtain ⟨k, i₁, hi₁, hmi, hstate, hret, hreturnable⟩ := h₂.handed m hm
      obtain ⟨i, hi, hf, hmono, -⟩ := h₁.kept k i₁ hi₁
      have hstate' : i₁.state = i.state := (MetaItem.forget_eq_forget_iff.mp hf).2.1
      refine ⟨k, i, hi, hmi.trans hf, hstate'.symm.trans hstate, ?_, ?_⟩
      · by_contra h
        rw [Bool.not_eq_false] at h
        rw [MetaItem.isReturned, hmono _ h] at hret
        cases hret
      · rw [← isReturnableMeta_congr h₁.queue.mFrameQueue h₁.queue.atMost (fun g hg => ?_) hf]
        · exact hreturnable
        · rw [hhome k i hi] at hg
          exact (h₁.frames g hg).set
  · rw [h₂.errors, h₁.errors, List.append_assoc]
  · rcases List.mem_append.mp he with he | he
    · exact h₁.code e he
    · rw [← h₁.queue.verdict f]
      exact h₂.code e he
  · rw [h₂.told, h₁.told, or_assoc]
    simp [List.mem_append, or_and_right, exists_or]
  · refine h₂.valid ?_
    by_cases hl : l₁ = [] ∧ es₁ = []
    · obtain ⟨rfl, rfl⟩ := hl
      exact hv.imp_left fun hv => h₁.valid (.inl hv)
    · exact .inl (h₁.valid (.inr (not_and_or.mp hl)))

/-! ### One entry -/

theorem checkRequestError_congr {a b : FrameParcel}
    (himages : b.vOutputImageItem = a.vOutputImageItem)
    (hvalid : b.vOutputMetaItem.numValidStreams = a.vOutputMetaItem.numValidStreams)
    (herror : b.vOutputMetaItem.numErrorStreams = a.vOutputMetaItem.numErrorStreams)
    (hsize : b.vOutputMetaItem.items.size = a.vOutputMetaItem.items.size)
    (hlast : b.vOutputMetaItem.hasLastPartial = a.vOutputMetaItem.hasLastPartial) :
    checkRequestError b = checkRequestError a := by
  rw [checkRequestError, checkRequestError, himages, hvalid, herror, hsize, hlast]

theorem sameQueue_editFrame {h : FrameParcel → FrameParcel}
    (hverdict : ∀ frame, checkRequestError (h frame) = checkRequestError frame) :
    SameQueue s (s.editFrame f h) :=
  ⟨rfl, rfl, rfl, rfl, fun g => by
    rw [frames_editFrame]
    split_ifs with hg
    · rw [hverdict, hg]
    · rfl⟩

theorem sameMeta_editFrame (s : FrameHandler) (h : FrameParcel → FrameParcel) (hg : g ≠ f) :
    SameMeta (s.frames g) ((s.editFrame f h).frames g) := by
  rw [frames_editFrame, if_neg hg]
  exact .refl _

/-- What a turn has done to the handler by the time that it writes its item back. -/
structure TurnKeeps (f : FramePtr) (s s' : FrameHandler) : Prop where
  queue : SameQueue s s'
  frames : ∀ g, g ≠ f → SameMeta (s.frames g) (s'.frames g)
  frameNo : (s'.frames f).frameNo = (s.frames f).frameNo
  set : s'.metaSet f =
    { s.metaSet f with numReturnedStreams := (s'.metaSet f).numReturnedStreams }

theorem TurnKeeps.refl (f : FramePtr) (s : FrameHandler) : TurnKeeps f s s :=
  ⟨.refl s, fun _ _ => .refl _, rfl, rfl⟩

/-- Editing a frame, but not what `TurnKeeps` is about. -/
theorem turnKeeps_editFrame (s : FrameHandler) (f : FramePtr) (h : FrameParcel → FrameParcel)
    (himages : ∀ frame, (h frame).vOutputImageItem = frame.vOutputImageItem)
    (hframeNo : ∀ frame, (h frame).frameNo = frame.frameNo)
    (hset : ∀ frame, (h frame).vOutputMetaItem = { frame.vOutputMetaItem with
      numReturnedStreams := (h frame).vOutputMetaItem.numReturnedStreams }) :
    TurnKeeps f s (s.editFrame f h) := by
  refine ⟨sameQueue_editFrame fun frame => checkRequestError_congr (himages frame) ?_ ?_ ?_ ?_,
    fun g hg => sameMeta_editFrame s h hg, ?_, ?_⟩
  · rw [hset]
  · rw [hset]
  · rw [hset]
  · rw [hset]
  · rw [frames_editFrame, if_pos rfl, hframeNo]
  · rw [metaSet, frames_editFrame, if_pos rfl]
    exact hset _

theorem TurnKeeps.trans (h₁ : TurnKeeps f s s₁) (h₂ : TurnKeeps f s₁ s') : TurnKeeps f s s' :=
  ⟨h₁.queue.trans h₂.queue, fun g hg => (h₁.frames g hg).trans (h₂.frames g hg),
    h₂.frameNo.trans h₁.frameNo, by rw [h₂.set, h₁.set]⟩

/-- The turn of an item, put together from what it does before it writes the item back and
from what is left of the item. -/
theorem metaEffect_of_turn {i : MetaItem} {e : Option MetaItem}
    (hentry : s.metaEntry f k = some (some i)) (hkeeps : TurnKeeps f s s')
    (hleft : ∀ i', e = some i' → i'.forget = i.forget ∧
      (∀ n, i.history.hasBit n = true → i'.history.hasBit n = true) ∧
      (∀ n, i'.history.hasBit n = true →
        i.history.hasBit n = true ∨ n = HistoryBit.returned ∨ n = HistoryBit.errorSentMeta) ∧
      (i'.isReturned = true → i.isReturned = true ∨ ∃ m ∈ l, m.item.forget = i.forget) ∧
      (i'.isErrorSent = true →
        i.isErrorSent = true ∨ s'.hasError f HistoryBit.errorSentMeta = true) ∧
      (isSent i'.history = true → isSent i.history = true ∨
        (∃ m ∈ l, m.item.forget = i.forget) ∨ s'.hasError f HistoryBit.errorSentMeta = true))
    (hgone : e = none → isSent i.history = true ∨
      (∃ m ∈ l, m.item.forget = i.forget) ∨ s'.hasError f HistoryBit.errorSentMeta = true)
    (hmetas : cb'.vOutputMetaItem = cb.vOutputMetaItem ++ l)
    (hhanded : ∀ m ∈ l, m.item.forget = i.forget ∧ i.state = .valid ∧ i.isReturned = false ∧
      s.isReturnableMeta i = true)
    (herrors : cb'.vError = cb.vError ++ es)
    (hcode : ∀ e ∈ es, e.errorCode ≠ .errorRequest ∧ checkRequestError (s.frames f) < 0)
    (htold : s'.hasError f HistoryBit.errorSentMeta = true ↔
      s.hasError f HistoryBit.errorSentMeta = true ∨ ∃ e ∈ es, e.errorCode = .errorResult)
    (hrequested : s'.hasError f HistoryBit.errorSentFrame =
      s.hasError f HistoryBit.errorSentFrame)
    (hvalid : cb.valid = true ∨ l ≠ [] ∨ es ≠ [] → cb'.valid = true)
    (hpFrame : cb'.pFrame = cb.pFrame) :
    MetaEffect f l es (s, cb) (s'.editMetaSet f fun set => { set with
      items := set.items.modify k fun _ => e }, cb') := by
  have hself : (s'.editMetaSet f fun set => { set with
      items := set.items.modify k fun _ => e }).metaSet f = { s'.metaSet f with
        items := (s'.metaSet f).items.modify k fun _ => e } := by
    rw [metaSet_editMetaSet, if_pos rfl]
  have hplace : ∀ k', (s'.editMetaSet f fun set => { set with
      items := set.items.modify k fun _ => e }).metaEntry f k' =
        if k' = k then some e else s.metaEntry f k' := fun k' => by
    rw [metaEntry, hself, hkeeps.set, KeyedVector.find?_modify]
    split_ifs with hk
    · subst hk
      have hfind : (s.metaSet f).items.find? k' = some (some i) := hentry
      rw [hfind]
      rfl
    · rfl
  have herr : ∀ n, (s'.editMetaSet f fun set => { set with
      items := set.items.modify k fun _ => e }).hasError f n = s'.hasError f n := fun n => by
    rw [hasError, frames_editMetaSet, if_pos rfl, hasError]
  have hwrite : SameQueue s' (s'.editMetaSet f fun set => { set with
      items := set.items.modify k fun _ => e }) :=
    sameQueue_editFrame fun frame =>
      checkRequestError_congr rfl rfl rfl (by simp) rfl
  refine ⟨hkeeps.queue.trans hwrite, fun g hg => ?_, ?_, ?_, ?_, ?_, ?_, fun k' i' hi' => ?_,
    fun k' i₀ hi₀ => ?_, hmetas, fun m hm => ?_, herrors, hcode, ?_, ?_, hvalid, hpFrame⟩
  · exact (hkeeps.frames g hg).trans (sameMeta_editFrame s' (fun frame => { frame with
      vOutputMetaItem := { frame.vOutputMetaItem with
        items := frame.vOutputMetaItem.items.modify k fun _ => e } }) hg)
  · dsimp only
    rw [frames_editMetaSet, if_pos rfl]
    exact hkeeps.frameNo
  · dsimp only
    rw [hself, hkeeps.set, KeyedVector.keys_modify]
  · dsimp only
    rw [hself, hkeeps.set]
  · dsimp only
    rw [hself, hkeeps.set]
  · dsimp only
    rw [hself, hkeeps.set]
  · dsimp only at hi' ⊢
    rw [hplace] at hi'
    rw [herr]
    split_ifs at hi' with hk
    · subst hk
      exact ⟨i, hentry, hleft i' (Option.some_inj.mp hi')⟩
    · exact ⟨i', hi', rfl, fun _ => id, fun _ => .inl, .inl, .inl, .inl⟩
  · dsimp only at hi₀ ⊢
    rw [hplace, herr]
    split_ifs with hk
    · subst hk
      rw [hentry] at hi₀
      cases hi₀
      cases e with
      | none => exact .inr (hgone rfl)
      | some i' => exact .inl ⟨i', rfl⟩
    · exact .inl ⟨i₀, hi₀⟩
  · exact ⟨k, i, hentry, hhanded m hm⟩
  · dsimp only
    rw [herr]
    exact htold
  · dsimp only
    rw [herr]
    exact hrequested

theorem turnKeeps_shutter (env : BufferEnv) (s : FrameHandler) (cb : CallbackParcel)
    {i : MetaItem} (hframe : i.pFrame = f) :
    TurnKeeps f s (s.prepareShutterNotificationIfPossible env cb i).1 ∧
      (∀ n, (s.prepareShutterNotificationIfPossible env cb i).1.hasError f n = s.hasError f n) ∧
      (s.prepareShutterNotificationIfPossible env cb i).2.vOutputMetaItem = cb.vOutputMetaItem ∧
      (s.prepareShutterNotificationIfPossible env cb i).2.vError = cb.vError ∧
      (s.prepareShutterNotificationIfPossible env cb i).2.pFrame = cb.pFrame := by
  rw [prepareShutterNotificationIfPossible, hframe]
  split
  · split
    · exact ⟨.refl f s, fun _ => rfl, rfl, rfl, rfl⟩
    · refine ⟨?_, fun n => ?_, rfl, rfl, rfl⟩
      · dsimp only
        refine turnKeeps_editFrame s f _ (fun _ => ?_) (fun _ => ?_) fun _ => ?_ <;> rfl
      · dsimp only
        rw [hasError, frames_editFrame, if_pos rfl, hasError]
  · exact ⟨.refl f s, fun _ => rfl, rfl, rfl, rfl⟩

theorem isSent_iff (history : BitSet32) : isSent history = true ↔
    history.hasBit HistoryBit.returned = true ∨ history.hasBit HistoryBit.errorSentFrame = true ∨
      history.hasBit HistoryBit.errorSentMeta = true ∨
      history.hasBit HistoryBit.errorSentImage = true := by
  rw [isSent, Bool.or_eq_true, Bool.or_eq_true, Bool.or_eq_true, or_assoc, or_assoc]

theorem hasBit_markBit_iff (history : BitSet32) {n : ℕ} (hn : n < 32) (m : ℕ) :
    (history.markBit n).hasBit m = true ↔ history.hasBit m = true ∨ n = m := by
  rw [BitSet32.hasBit_markBit, Bool.or_eq_true, Bool.and_eq_true, decide_eq_true_eq,
    decide_eq_true_eq]
  constructor
  · exact fun h => h.imp_right fun h => h.2.symm
  · rintro (h | rfl)
    · exact .inl h
    · exact .inr ⟨hn, rfl⟩

theorem metaEffect_return (env : BufferEnv) (cb : CallbackParcel) {i : MetaItem}
    {e : Option MetaItem} (hentry : s.metaEntry f k = some (some i)) (hframe : i.pFrame = f)
    (hstate : i.state = .valid) (hret : i.isReturned = false)
    (hreturnable : s.isReturnableMeta i = true)
    {t : FrameHandler × CallbackParcel} (ht : t = s.prepareShutterNotificationIfPossible env cb i)
    (he : e = none ∨ e = some (t.1.prepareReturnMeta t.2 i).2.2) :
    ∃ l, MetaEffect f l [] (s, cb)
      ((t.1.prepareReturnMeta t.2 i).1.editMetaSet f fun set => { set with
        items := set.items.modify k fun _ => e }, (t.1.prepareReturnMeta t.2 i).2.1) := by
  subst ht
  obtain ⟨hshutter, herror, hmetas, herrors, hpFrame⟩ := turnKeeps_shutter env s cb hframe
  generalize s.prepareShutterNotificationIfPossible env cb i = t at *
  obtain ⟨s₁, cb₁⟩ := t
  dsimp only at *
  have hcount : TurnKeeps f s₁ (s₁.prepareReturnMeta cb₁ i).1 := by
    rw [prepareReturnMeta, hframe]
    dsimp only
    rw [editMetaSet]
    refine turnKeeps_editFrame s₁ f _ (fun _ => ?_) (fun _ => ?_) fun _ => ?_ <;> rfl
  have herror' : ∀ n, (s₁.prepareReturnMeta cb₁ i).1.hasError f n = s.hasError f n := fun n => by
    rw [← herror n, prepareReturnMeta, hframe]
    dsimp only
    rw [hasError, frames_editMetaSet, if_pos rfl, hasError]
  obtain ⟨no, hno⟩ : ∃ no, (s₁.prepareReturnMeta cb₁ i).2.1.vOutputMetaItem =
      cb₁.vOutputMetaItem ++ [⟨i.buffer, no, i⟩] := ⟨_, rfl⟩
  have hnow : ∃ m ∈ [(⟨i.buffer, no, i⟩ : CallbackParcel.MetaItem)],
      m.item.forget = i.forget := ⟨_, List.mem_singleton_self _, rfl⟩
  refine ⟨[⟨i.buffer, no, i⟩], metaEffect_of_turn hentry (hshutter.trans hcount)
    (fun i' hi' => ?_) (fun _ => .inr (.inl hnow)) (by rw [hno, hmetas]) (fun m hm => ?_)
    (by rw [List.append_nil]; exact herrors) (by simp) ?_ (herror' _) (fun _ => rfl) hpFrame⟩
  · have hi : i' = (s₁.prepareReturnMeta cb₁ i).2.2 := by
      rcases he with he | he
      · rw [he] at hi'
        cases hi'
      · exact Option.some_inj.mp (hi'.symm.trans he)
    have hbits : ∀ n, i'.history.hasBit n = true ↔
        i.history.hasBit n = true ∨ HistoryBit.returned = n := fun n => by
      rw [hi]
      exact hasBit_markBit_iff _ (by decide) n
    refine ⟨by rw [hi]; rfl, fun n h => (hbits n).mpr (.inl h),
      fun n h => ((hbits n).mp h).imp_right fun h => .inl h.symm, fun _ => .inr hnow,
      fun h => .inl (((hbits _).mp h).resolve_right (by decide)), fun _ => .inr (.inl hnow)⟩
  · rw [List.mem_singleton.mp hm]
    exact ⟨rfl, hstate, hret, hreturnable⟩
  · rw [herror']
    simp

theorem metaEffect_error (cb : CallbackParcel) {i : MetaItem} {e : Option MetaItem}
    (hentry : s.metaEntry f k = some (some i)) (hframe : i.pFrame = f)
    (hverdict : checkRequestError (s.frames f) < 0)
    (he : e = none ∨ e = some (s.prepareErrorMetaIfPossible cb i).2.2) :
    ∃ es, MetaEffect f [] es (s, cb)
      ((s.prepareErrorMetaIfPossible cb i).1.editMetaSet f fun set => { set with
        items := set.items.modify k fun _ => e }, (s.prepareErrorMetaIfPossible cb i).2.1) := by
  have hleft : ∀ i', e = some i' → i'.forget = i.forget ∧
      ∀ n, i'.history.hasBit n = true ↔
        i.history.hasBit n = true ∨ HistoryBit.errorSentMeta = n := fun i' hi' => by
    have hi : i' = { i with history := i.history.markBit HistoryBit.errorSentMeta } := by
      rcases he with he | he
      · rw [he] at hi'
        cases hi'
      · rw [prepareErrorMetaIfPossible] at he
        split at he <;> exact Option.some_inj.mp (hi'.symm.trans he)
    subst hi
    exact ⟨rfl, hasBit_markBit_iff _ (by decide)⟩
  -- whatever is left of the item, the error has been told for its frame
  have hturn : ∀ {s' : FrameHandler} {cb' : CallbackParcel} {es : List CallbackParcel.Error},
      TurnKeeps f s s' → s'.hasError f HistoryBit.errorSentMeta = true →
      s'.hasError f HistoryBit.errorSentFrame = s.hasError f HistoryBit.errorSentFrame →
      cb'.vOutputMetaItem = cb.vOutputMetaItem → cb'.vError = cb.vError ++ es →
      (∀ e ∈ es, e.errorCode = .errorResult) →
      (s.hasError f HistoryBit.errorSentMeta = true ∨ es ≠ []) →
      (cb.valid = true ∨ es ≠ [] → cb'.valid = true) → cb'.pFrame = cb.pFrame →
      MetaEffect f [] es (s, cb) (s'.editMetaSet f fun set => { set with
        items := set.items.modify k fun _ => e }, cb') := by
    intro s' cb' es hkeeps hbit hrequested hmetas herrors hcode htold hvalid hpFrame
    refine metaEffect_of_turn hentry hkeeps (fun i' hi' => ?_) (fun _ => .inr (.inr hbit))
      (by rw [hmetas, List.append_nil]) (by simp) herrors
      (fun e he => ⟨by rw [hcode e he]; decide, hverdict⟩) ?_ hrequested
      (fun h => hvalid (h.imp_right fun h => h.resolve_left fun h => h rfl)) hpFrame
    · obtain ⟨hforget, hbits⟩ := hleft i' hi'
      exact ⟨hforget, fun n h => (hbits n).mpr (.inl h),
        fun n h => ((hbits n).mp h).imp_right fun h => .inr h.symm,
        fun h => .inl (((hbits _).mp h).resolve_right (by decide)), fun _ => .inr hbit,
        fun _ => .inr (.inr hbit)⟩
    · refine ⟨fun _ => ?_, fun _ => hbit⟩
      rcases htold with h | h
      · exact .inl h
      · obtain ⟨err, herr⟩ := List.exists_mem_of_ne_nil es h
        exact .inr ⟨err, herr, hcode err herr⟩
  rw [prepareErrorMetaIfPossible, hframe]
  split
  · rename_i hbit
    exact ⟨[], hturn (.refl f s) hbit rfl rfl (by simp) (by simp) (.inl hbit)
      (fun h => h.resolve_right (by simp)) rfl⟩
  · have hmark : ∀ n, (s.editFrame f fun frame => { frame with
        errors := frame.errors.markBit HistoryBit.errorSentMeta }).hasError f n =
          ((s.frames f).errors.markBit HistoryBit.errorSentMeta).hasBit n := fun n => by
      rw [hasError, frames_editFrame, if_pos rfl]
    refine ⟨[{ errorCode := .errorResult }], hturn ?_ ?_ ?_ rfl rfl (by simp) (.inr (by simp))
      (fun _ => rfl) rfl⟩
    · dsimp only
      refine turnKeeps_editFrame s f _ (fun _ => ?_) (fun _ => ?_) fun _ => ?_ <;> rfl
    · rw [hmark]
      exact BitSet32.hasBit_markBit_self (by decide)
    · rw [hmark, BitSet32.hasBit_markBit, hasError]
      simp [HistoryBit.errorSentFrame, HistoryBit.errorSentMeta]

theorem metaEffect_key (env : BufferEnv) (hhome : x.1.MetasHome f) (k : StreamId) :
    ∃ l es, MetaEffect f l es x (prepareCallbackMeta env f x k) := by
  obtain ⟨s, cb⟩ := x
  rw [prepareCallbackMeta]
  split
  · rename_i i hentry
    have hframe := hhome k i hentry
    -- an item that the turn leaves as it is
    have hkeep : ∃ l es, MetaEffect f l es (s, cb) (s.editMetaSet f fun set => { set with
        items := set.items.modify k fun _ =>
          if (env.metadata i.buffer.handle).haveAllUsersReleased && isSent i.history then none
          else some i }, cb) := by
      refine ⟨[], [], metaEffect_of_turn hentry (.refl f s) (fun i' hi' => ?_) (fun hnone => ?_)
        (by simp) (by simp) (by simp) (by simp) (by simp) rfl
        (fun h => h.resolve_right (by simp)) rfl⟩
      · split at hi'
        · cases hi'
        · cases hi'
          exact ⟨rfl, fun _ => id, fun _ => .inl, .inl, .inl, .inl⟩
      · split at hnone
        · rename_i hrelease
          rw [Bool.and_eq_true] at hrelease
          exact .inl hrelease.2
        · cases hnone
    have hchoice : ∀ (c : Bool) (i' : MetaItem),
        (if c then none else some i') = none ∨ (if c then none else some i') = some i' :=
      fun c i' => by cases c <;> simp
    cases hstate : i.state with
    | valid =>
      dsimp only
      by_cases hcond : (!i.history.hasBit HistoryBit.returned && s.isReturnableMeta i) = true
      · simp only [if_pos hcond]
        rw [Bool.and_eq_true, Bool.not_eq_true'] at hcond
        obtain ⟨l, hl⟩ := metaEffect_return env cb hentry hframe hstate hcond.1 hcond.2 rfl
          (hchoice _ _)
        exact ⟨l, [], hl⟩
      · simp only [if_neg hcond]
        exact hkeep
    | error =>
      dsimp only
      by_cases hcond : (!i.history.hasBit HistoryBit.errorSentMeta &&
          checkRequestError (s.frames i.pFrame) < 0) = true
      · simp only [if_pos hcond]
        rw [Bool.and_eq_true, decide_eq_true_eq, hframe] at hcond
        obtain ⟨es, hes⟩ := metaEffect_error cb hentry hframe hcond.2 (hchoice _ _)
        exact ⟨[], es, hes⟩
      · simp only [if_neg hcond]
        exact hkeep
    | inFlight => exact hkeep
    | preRelease => exact hkeep
  · exact ⟨[], [], .refl f _⟩

/-- **The turns of a metadata set.** -/
theorem metaEffect_set (env : BufferEnv) (hhome : x.1.MetasHome f) :
    ∃ l es, MetaEffect f l es x (prepareCallbackMetas env f x) := by
  rw [prepareCallbackMetas]
  generalize (x.1.frames f).vOutputMetaItem.items.keys = ks
  induction ks generalizing x with
  | nil => exact ⟨[], [], .refl f x⟩
  | cons k ks ih =>
    obtain ⟨l₁, es₁, h₁⟩ := metaEffect_key env hhome k
    obtain ⟨l₂, es₂, h₂⟩ := ih (h₁.home hhome)
    exact ⟨_, _, h₁.trans h₂ hhome⟩

/-! ### One frame -/

theorem ImageInvariant.home (h : s.ImageInvariant) (f : FramePtr) : s.ImagesHome f :=
  fun a k p hp => (h.entry f a k p hp).2.1

def emptyParcel (s : FrameHandler) (f : FramePtr) : CallbackParcel where
  frameNo := (s.frames f).frameNo
  pFrame := f
  timestampShutter := (s.frames f).timestampShutter

/-- **The visit of a frame that is not a request error.** -/
theorem effect_prepareFrame (env : BufferEnv) (hinv : s.ImageInvariant)
    (hhome : s.MetasHome f) (hverdict : ¬ checkRequestError (s.frames f) > 0)
    (hx : prepareFrame env f s = .ok (s', cb)) :
    ∃ l es, MetaEffect f l es (s, s.emptyParcel f) (s', cb) := by
  rw [prepareFrame, if_neg hverdict, Except.ok.injEq] at hx
  have himages : (prepareCallbackMetas env f (s, s.emptyParcel f)).1.ImagesHome f := by
    have hsame := (metaVisit_set env f s (s.emptyParcel f)).same
    refine fun a k p hp => ?_
    rw [entry, hsame.itemSet] at hp
    rw [hsame.items]
    exact hinv.home f a k p hp
  obtain ⟨l, es, hmeta⟩ := metaEffect_set (x := (s, s.emptyParcel f)) env hhome
  obtain ⟨⟨es₁, hes₁⟩, himages'⟩ := imageEffect_set env himages false
  obtain ⟨⟨es₂, hes₂⟩, -⟩ := imageEffect_set env himages' true
  have hall := (hmeta.trans hes₁.metaEffect hhome).trans hes₂.metaEffect hhome
  rw [emptyParcel, hx] at hall
  exact ⟨_, _, hall⟩

structure RequestErrorEffect (s : FrameHandler) (f : FramePtr) (s' : FrameHandler)
    (cb : CallbackParcel) : Prop where
  queue : SameQueue s s'
  frames : ∀ g, g ≠ f → SameMeta (s.frames g) (s'.frames g)
  frameNo : (s'.frames f).frameNo = (s.frames f).frameNo
  set : s'.metaSet f = s.metaSet f
  requested : s'.hasError f HistoryBit.errorSentFrame = true
  told : s'.hasError f HistoryBit.errorSentMeta = s.hasError f HistoryBit.errorSentMeta
  metas : cb.vOutputMetaItem = []
  errors : cb.vError = [{ errorCode := .errorRequest }]
  valid : cb.valid = true
  pFrame : cb.pFrame = f

theorem imageEffect_errorFrame (ks : List StreamId) (hhome : x.1.ImagesHome f)
    (hx : ks.foldlM (prepareErrorFrameImage f) x = .ok y) :
    ImageEffect f [] x y ∧ y.1.ImagesHome f := by
  induction ks generalizing x with
  | nil =>
    obtain rfl : x = y := by simpa [pure, Except.pure] using hx
    exact ⟨.refl f x, hhome⟩
  | cons k ks ih =>
    rw [List.foldlM_cons] at hx
    cases hstep : prepareErrorFrameImage f x k with
    | error e => simp [hstep, bind, Except.bind] at hx
    | ok z =>
      rw [hstep] at hx
      rw [prepareErrorFrameImage] at hstep
      split at hstep
      · rename_i p _
        rw [Except.ok.injEq] at hstep
        subst hstep
        obtain ⟨s, cb⟩ := x
        have hturn := imageEffect_returnImage f s cb p
        obtain ⟨hrest, hhome'⟩ := ih (fun a k q hq => by
          rw [entry_prepareReturnImage] at hq
          rw [pFrame_prepareReturnImage]
          exact hhome a k q hq) hx
        exact ⟨hturn.trans hrest, hhome'⟩
      · cases hstep

/-- **The visit of a request error.** -/
theorem effect_requestError (env : BufferEnv) (hinv : s.ImageInvariant)
    (hverdict : checkRequestError (s.frames f) > 0)
    (hx : prepareFrame env f s = .ok (s', cb)) : RequestErrorEffect s f s' cb := by
  rw [prepareFrame, if_pos hverdict] at hx
  split at hx
  · cases hx
  · rename_i x hprepare
    rw [prepareErrorFrame] at hprepare
    split at hprepare
    · cases hprepare
    · rename_i s₁ cb₁ hfold
      obtain ⟨hout, hhome⟩ := imageEffect_errorFrame _ (hinv.home f) hfold
      rw [Except.ok.injEq] at hprepare
      subst hprepare
      have hhome' : (s₁.editFrame f fun frame => { frame with
          errors := frame.errors.markBit HistoryBit.errorSentFrame }).ImagesHome f :=
        fun a k p hp => hhome a k p (by
          rw [entry, itemSet, frames_editFrame, if_pos rfl] at hp
          exact hp)
      obtain ⟨⟨es, hin⟩, -⟩ := imageEffect_set (x := (s₁.editFrame f fun frame => { frame with
        errors := frame.errors.markBit HistoryBit.errorSentFrame }, cb₁)) env hhome' true
      rw [Except.ok.injEq] at hx
      rw [hx] at hin
      have hmark : SameQueue s₁ (s₁.editFrame f fun frame => { frame with
          errors := frame.errors.markBit HistoryBit.errorSentFrame }) :=
        sameQueue_editFrame fun _ => checkRequestError_congr rfl rfl rfl rfl rfl
      have hqueue := (hout.queue.trans hmark).trans hin.queue
      -- errors of input buffers are not told, since the frame is a request error
      have hes : es = [] := by
        refine List.eq_nil_iff_forall_not_mem.mpr fun e he => ?_
        have hneg := (hin.code e he).2
        dsimp only at hneg
        rw [(hout.queue.trans hmark).verdict f] at hneg
        exact absurd hneg (not_lt_of_gt hverdict)
      have herrors : ∀ n, s'.hasError f n =
          ((s.frames f).errors.markBit HistoryBit.errorSentFrame).hasBit n := fun n => by
        rw [hasError, (hin.frames f).errors]
        dsimp only
        rw [frames_editFrame, if_pos rfl]
        dsimp only
        rw [(hout.frames f).errors]
      refine ⟨hqueue, fun g hg => ?_, ?_, ?_, ?_, ?_, ?_, ?_, ?_, ?_⟩
      · have hother := sameMeta_editFrame s₁ (fun frame => { frame with
          errors := frame.errors.markBit HistoryBit.errorSentFrame }) hg
        exact ((hout.frames g).trans hother).trans (hin.frames g)
      · rw [(hin.frames f).frameNo]
        dsimp only
        rw [frames_editFrame, if_pos rfl]
        exact (hout.frames f).frameNo
      · rw [metaSet, (hin.frames f).set]
        dsimp only
        rw [frames_editFrame, if_pos rfl]
        exact (hout.frames f).set
      · rw [herrors]
        exact BitSet32.hasBit_markBit_self (by decide)
      · rw [herrors, BitSet32.hasBit_markBit, hasError]
        simp [HistoryBit.errorSentFrame, HistoryBit.errorSentMeta]
      · exact hin.metas.trans hout.metas
      · rw [hin.errors, hes, List.append_nil]
        exact hout.errors.trans (List.append_nil _)
      · exact hin.valid (.inl (hout.valid (.inl rfl)))
      · exact hin.pFrame.trans hout.pFrame

end FrameHandler

end MtkHardware.AppStream
