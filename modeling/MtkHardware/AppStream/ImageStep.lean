import MtkHardware.AppStream.FrameHandler
import MtkHardware.Util.Lists

/-!
# Image Steps

What the frame handler does to image items comes down to a few primitive steps:
registering a frame or an item, changing the state of an item, returning an item,
clearing the entry of an item that has been returned, and removing a frame. This module
states the invariant that ties the image items to the item sets of the frames and to the
queues of the image streams, and proves that every primitive step keeps it.
-/

namespace MtkHardware.AppStream

open Pipeline (StreamId)

def ImageItem.isReturned (i : ImageItem) : Bool := i.history.hasBit HistoryBit.returned

def ImageItem.inSet (f : FramePtr) (a : Bool) (P : ImageItem → Bool) (i : ImageItem) : Bool :=
  decide (i.pFrame = f ∧ i.asInput = a) && P i

namespace FrameHandler

variable {s s' : FrameHandler} {f f' : FramePtr} {a a' : Bool} {k : StreamId}
  {p q : ImagePtr}

def itemSet (s : FrameHandler) (f : FramePtr) (a : Bool) : ImageItemSet :=
  (s.frames f).itemSet a

def entry (s : FrameHandler) (f : FramePtr) (a : Bool) (k : StreamId) :
    Option (Option ImagePtr) :=
  (s.itemSet f a).items.find? k

def countItems (s : FrameHandler) (f : FramePtr) (a : Bool) (P : ImageItem → Bool) : ℕ :=
  (List.range s.numItems).countP fun p => (s.items p).inSet f a P

/-! ### Edits -/

@[simp] theorem items_editFrame (g : FrameParcel → FrameParcel) :
    (s.editFrame f g).items = s.items := rfl

@[simp] theorem items_editItemSet (g : ImageItemSet → ImageItemSet) :
    (s.editItemSet f a g).items = s.items := rfl

@[simp] theorem numItems_editItemSet (g : ImageItemSet → ImageItemSet) :
    (s.editItemSet f a g).numItems = s.numItems := rfl

@[simp] theorem numFrames_editItemSet (g : ImageItemSet → ImageItemSet) :
    (s.editItemSet f a g).numFrames = s.numFrames := rfl

@[simp] theorem mFrameQueue_editItemSet (g : ImageItemSet → ImageItemSet) :
    (s.editItemSet f a g).mFrameQueue = s.mFrameQueue := rfl

@[simp] theorem mImageConfigMap_editItemSet (g : ImageItemSet → ImageItemSet) :
    (s.editItemSet f a g).mImageConfigMap = s.mImageConfigMap := rfl

theorem frames_editFrame (g : FrameParcel → FrameParcel) (f' : FramePtr) :
    (s.editFrame f g).frames f' = if f' = f then g (s.frames f) else s.frames f' := by
  simp only [editFrame, Function.update_apply]

theorem items_editItem (s : FrameHandler) (p q : ImagePtr) (g : ImageItem → ImageItem) :
    (s.editItem p g).items q = if q = p then g (s.items p) else s.items q := by
  simp only [editItem, Function.update_apply]

theorem items_returnItem (s : FrameHandler) (p q : ImagePtr) :
    (s.returnItem p).items q = if q = p then
      { s.items p with history := (s.items p).history.markBit HistoryBit.returned }
      else s.items q := by
  simp only [returnItem, items_editItemSet, Function.update_apply]

theorem itemSet_editItemSet (s : FrameHandler) (f f' : FramePtr) (a a' : Bool)
    (g : ImageItemSet → ImageItemSet) :
    (s.editItemSet f a g).itemSet f' a' =
      if f' = f ∧ a' = a then g (s.itemSet f a) else s.itemSet f' a' := by
  rw [itemSet, editItemSet, frames_editFrame]
  by_cases hf : f' = f
  · subst hf
    cases a <;> cases a' <;> simp [FrameParcel.editItemSet, FrameParcel.itemSet, itemSet]
  · simp [hf, itemSet]

theorem countItems_update (hp : p < s.numItems) (i : ImageItem) (f : FramePtr) (a : Bool)
    (P : ImageItem → Bool) (hitems : s'.items = Function.update s.items p i)
    (hnum : s'.numItems = s.numItems) :
    s'.countItems f a P + (if (s.items p).inSet f a P then 1 else 0) =
      s.countItems f a P + if i.inSet f a P then 1 else 0 := by
  rw [countItems, countItems, hitems, hnum]
  exact countP_update List.nodup_range (List.mem_range.mpr hp) s.items i (·.inSet f a P)

theorem countItems_update_of_eq (hp : p < s.numItems) {i : ImageItem} {f : FramePtr}
    {a : Bool} {P : ImageItem → Bool} (hitems : s'.items = Function.update s.items p i)
    (hnum : s'.numItems = s.numItems) (heq : i.inSet f a P = (s.items p).inSet f a P) :
    s'.countItems f a P = s.countItems f a P := by
  have hcount := countItems_update hp i f a P hitems hnum
  rw [heq] at hcount
  omega

/-! ### The invariant -/

structure SetInvariant (s : FrameHandler) (f : FramePtr) (a : Bool) : Prop where
  size : (s.itemSet f a).items.size = s.countItems f a fun _ => true
  returned : (s.itemSet f a).numReturnedStreams = s.countItems f a ImageItem.isReturned
  valid : (s.itemSet f a).numValidStreams = s.countItems f a fun i => i.state = .valid
  error : (s.itemSet f a).numErrorStreams = s.countItems f a fun i => i.state = .error

/-- The **image invariant**. -/
structure ImageInvariant (s : FrameHandler) : Prop where
  /-- The frame queue is in the order of registration. -/
  sorted : s.mFrameQueue.Pairwise (· < ·)
  made : ∀ f ∈ s.mFrameQueue, f < s.numFrames
  frame : ∀ p < s.numItems, (s.items p).pFrame < s.numFrames
  /-- Items are made frame by frame, and the outputs of a frame before its inputs. -/
  ordered : ∀ p q, p < q → q < s.numItems → (s.items p).pFrame < (s.items q).pFrame ∨
    (s.items p).pFrame = (s.items q).pFrame ∧
      ((s.items p).asInput = true → (s.items q).asInput = true)
  stream : ∀ p < s.numItems, (s.items p).streamId ∈ s.mImageConfigMap.keys
  /-- An entry leads to the item of its stream. -/
  entry : ∀ f a k p, s.entry f a k = some (some p) → p < s.numItems ∧
    (s.items p).pFrame = f ∧ (s.items p).asInput = a ∧ (s.items p).streamId = k
  /-- An item that has not been handed back is in its place in the frame queue. -/
  held : ∀ p < s.numItems, (s.items p).isReturned = false →
    (s.items p).pFrame ∈ s.mFrameQueue ∧
      s.entry (s.items p).pFrame (s.items p).asInput (s.items p).streamId = some (some p)
  set : ∀ f a, SetInvariant s f a
  /-- The queue of a stream holds the items that have not been handed back. -/
  queue : ∀ k ∈ s.mImageConfigMap.keys, s.vItemFrameQueue k = (List.range s.numItems).filter
    fun p => decide ((s.items p).streamId = k) && !(s.items p).isReturned
  /-- An item whose error has been sent has been handed back. -/
  sent : ∀ p < s.numItems, isSent (s.items p).history = true → (s.items p).isReturned = true
  /-- An item in flight has not been handed back. -/
  flight : ∀ p < s.numItems, (s.items p).isReturned = true → (s.items p).state ≠ .inFlight

theorem ImageInvariant.mem_vItemFrameQueue (h : s.ImageInvariant)
    (hk : k ∈ s.mImageConfigMap.keys) :
    p ∈ s.vItemFrameQueue k ↔
      p < s.numItems ∧ (s.items p).streamId = k ∧ (s.items p).isReturned = false := by
  rw [h.queue k hk, List.mem_filter, List.mem_range]
  simp

theorem ImageInvariant.sorted_vItemFrameQueue (h : s.ImageInvariant)
    (hk : k ∈ s.mImageConfigMap.keys) : (s.vItemFrameQueue k).Pairwise (· < ·) := by
  rw [h.queue k hk]
  exact List.pairwise_lt_range.filter _

theorem ImageInvariant.eq_of_held (h : s.ImageInvariant) (hp : p < s.numItems)
    (hq : q < s.numItems) (hpret : (s.items p).isReturned = false)
    (hqret : (s.items q).isReturned = false) (hframe : (s.items p).pFrame = (s.items q).pFrame)
    (hdir : (s.items p).asInput = (s.items q).asInput)
    (hstream : (s.items p).streamId = (s.items q).streamId) : p = q := by
  have hpe := (h.held p hp hpret).2
  rw [hframe, hdir, hstream, (h.held q hq hqret).2] at hpe
  exact (Option.some_inj.mp (Option.some_inj.mp hpe)).symm

theorem ImageInvariant.forall_of_countItems (h : s.ImageInvariant) {P : ImageItem → Bool}
    (hcount : s.countItems f a P = (s.itemSet f a).items.size) (hp : p < s.numItems)
    (hframe : (s.items p).pFrame = f) (hdir : (s.items p).asInput = a) :
    P (s.items p) = true := by
  rw [(h.set f a).size, countItems, countItems] at hcount
  have hall := forall_of_countP_le (fun q _ hq => by simp_all [ImageItem.inSet]) hcount.ge p
    (List.mem_range.mpr hp) (by simp [ImageItem.inSet, hframe, hdir])
  simpa [ImageItem.inSet, hframe, hdir] using hall

/-! ### Changing an item -/

theorem isReturned_markBit (i : ImageItem) (n : ℕ) :
    ImageItem.isReturned { i with history := i.history.markBit n } =
      (i.isReturned || decide (n = HistoryBit.returned)) := by
  have hlt : HistoryBit.returned < 32 := by decide
  simp [ImageItem.isReturned, BitSet32.hasBit_markBit, hlt, eq_comm]

theorem vItemFrameQueue_modify {g : List ImagePtr → List ImagePtr}
    (hmap : s'.mImageConfigMap = s.mImageConfigMap.modify k g) {k' : StreamId}
    (hk' : k' ∈ s.mImageConfigMap.keys) :
    s'.vItemFrameQueue k' =
      if k' = k then g (s.vItemFrameQueue k') else s.vItemFrameQueue k' := by
  obtain ⟨l, hl⟩ := KeyedVector.mem_keys_iff.mp hk'
  rw [vItemFrameQueue, vItemFrameQueue, hmap, KeyedVector.find?_modify, hl]
  split_ifs <;> rfl

theorem SetInvariant.congr {f : FramePtr} {a : Bool} (h : SetInvariant s f a)
    (hset : s'.itemSet f a = s.itemSet f a)
    (hcount : ∀ P, s'.countItems f a P = s.countItems f a P) : SetInvariant s' f a := by
  obtain ⟨hsize, hreturned, hvalid, herror⟩ := h
  exact ⟨by rw [hset, hcount, hsize], by rw [hset, hcount, hreturned],
    by rw [hset, hcount, hvalid], by rw [hset, hcount, herror]⟩

theorem ImageInvariant.update (h : s.ImageInvariant) (hp : p < s.numItems) {i : ImageItem}
    (g : ImageItemSet → ImageItemSet) (hitems : s'.items = Function.update s.items p i)
    (hnumItems : s'.numItems = s.numItems) (hnumFrames : s'.numFrames = s.numFrames)
    (hframes : s'.mFrameQueue = s.mFrameQueue)
    (hset : ∀ f a, s'.itemSet f a =
      if f = (s.items p).pFrame ∧ a = (s.items p).asInput then
        g (s.itemSet (s.items p).pFrame (s.items p).asInput)
      else s.itemSet f a)
    (hg : ∀ set, (g set).items = set.items)
    (hkeys : s'.mImageConfigMap.keys = s.mImageConfigMap.keys)
    (hpFrame : i.pFrame = (s.items p).pFrame) (hasInput : i.asInput = (s.items p).asInput)
    (hstreamId : i.streamId = (s.items p).streamId)
    (hret : (s.items p).isReturned = true → i.isReturned = true)
    (hcounts : SetInvariant s' (s.items p).pFrame (s.items p).asInput)
    (hqueue : ∀ k ∈ s.mImageConfigMap.keys, s'.vItemFrameQueue k =
      (List.range s.numItems).filter fun q => decide ((s.items q).streamId = k) &&
        !(Function.update s.items p i q).isReturned)
    (hsent : isSent i.history = true → i.isReturned = true)
    (hflight : i.isReturned = true → i.state ≠ .inFlight) : s'.ImageInvariant := by
  have hat : ∀ q, (s'.items q).pFrame = (s.items q).pFrame ∧
      (s'.items q).asInput = (s.items q).asInput ∧
      (s'.items q).streamId = (s.items q).streamId := fun q => by
    rw [hitems, Function.update_apply]
    split_ifs with hq
    · exact ⟨hq ▸ hpFrame, hq ▸ hasInput, hq ▸ hstreamId⟩
    · exact ⟨rfl, rfl, rfl⟩
  have hentry : ∀ f a k, s'.entry f a k = s.entry f a k := fun f a k => by
    rw [FrameHandler.entry, FrameHandler.entry, hset]
    split_ifs with hself
    · rw [hg, hself.1, hself.2]
    · rfl
  have hretAt : ∀ q, (s'.items q).isReturned = false → (s.items q).isReturned = false :=
    fun q hq => by
      by_contra hold
      rw [hitems, Function.update_apply] at hq
      split_ifs at hq with heq
      · subst heq
        simp [hret (by simpa using hold)] at hq
      · exact hold hq
  refine ⟨hframes ▸ h.sorted, fun f hf => ?_, fun q hq => ?_, fun q r hlt hr => ?_,
    fun q hq => ?_, fun f a k q hq => ?_, fun q hq hnot => ?_, fun f a => ?_, fun k hk => ?_,
    fun q hq hs => ?_, fun q hq hs => ?_⟩
  · rw [hnumFrames]
    exact h.made f (hframes ▸ hf)
  · rw [(hat q).1, hnumFrames]
    exact h.frame q (hnumItems ▸ hq)
  · rw [(hat q).1, (hat r).1, (hat q).2.1, (hat r).2.1]
    exact h.ordered q r hlt (hnumItems ▸ hr)
  · rw [(hat q).2.2, hkeys]
    exact h.stream q (hnumItems ▸ hq)
  · rw [hnumItems, (hat q).1, (hat q).2.1, (hat q).2.2]
    exact h.entry f a k q (hentry f a k ▸ hq)
  · rw [hentry, (hat q).1, (hat q).2.1, (hat q).2.2, hframes]
    exact h.held q (hnumItems ▸ hq) (hretAt q hnot)
  · by_cases hself : f = (s.items p).pFrame ∧ a = (s.items p).asInput
    · obtain ⟨rfl, rfl⟩ := hself
      exact hcounts
    · -- the item is of another set before and after the change
      have hcount : ∀ P, s'.countItems f a P = s.countItems f a P := fun P => by
        refine countItems_update_of_eq hp hitems hnumItems ?_
        have hother : ¬ ((s.items p).pFrame = f ∧ (s.items p).asInput = a) :=
          fun hi => hself ⟨hi.1.symm, hi.2.symm⟩
        simp [ImageItem.inSet, hpFrame, hasInput, hother]
      have hsame : s'.itemSet f a = s.itemSet f a := by rw [hset, if_neg hself]
      exact (h.set f a).congr hsame hcount
  · rw [hkeys] at hk
    rw [hqueue k hk, hnumItems]
    refine List.filter_congr fun q _ => ?_
    rw [(hat q).2.2, hitems]
  · rw [hnumItems] at hq
    rw [hitems, Function.update_apply] at hs ⊢
    split_ifs at hs ⊢
    · exact hsent hs
    · exact h.sent q hq hs
  · rw [hnumItems] at hq
    rw [hitems, Function.update_apply] at hs ⊢
    split_ifs at hs ⊢
    · exact hflight hs
    · exact h.flight q hq hs

theorem SetInvariant.update (h : SetInvariant s (s.items p).pFrame (s.items p).asInput)
    (hp : p < s.numItems) {i : ImageItem} (hitems : s'.items = Function.update s.items p i)
    (hnum : s'.numItems = s.numItems) (hpFrame : i.pFrame = (s.items p).pFrame)
    (hasInput : i.asInput = (s.items p).asInput) (g : ImageItemSet → ImageItemSet)
    (hset : s'.itemSet (s.items p).pFrame (s.items p).asInput =
      g (s.itemSet (s.items p).pFrame (s.items p).asInput))
    (hg : ∀ set, (g set).items = set.items ∧
      (g set).numReturnedStreams + (s.items p).isReturned.toNat =
        set.numReturnedStreams + i.isReturned.toNat ∧
      (g set).numValidStreams + (decide ((s.items p).state = .valid)).toNat =
        set.numValidStreams + (decide (i.state = .valid)).toNat ∧
      (g set).numErrorStreams + (decide ((s.items p).state = .error)).toNat =
        set.numErrorStreams + (decide (i.state = .error)).toNat) :
    SetInvariant s' (s.items p).pFrame (s.items p).asInput := by
  have hcount : ∀ P : ImageItem → Bool,
      s'.countItems (s.items p).pFrame (s.items p).asInput P + (P (s.items p)).toNat =
        s.countItems (s.items p).pFrame (s.items p).asInput P + (P i).toNat := fun P => by
    have h := countItems_update hp i (s.items p).pFrame (s.items p).asInput P hitems hnum
    cases hold : P (s.items p) <;> cases hnew : P i <;>
      simpa [ImageItem.inSet, hpFrame, hasInput, hold, hnew] using h
  obtain ⟨hitems, hreturned, hvalid, herror⟩ :=
    hg (s.itemSet (s.items p).pFrame (s.items p).asInput)
  refine ⟨?_, ?_, ?_, ?_⟩ <;> rw [hset]
  · have hall := hcount fun _ => true
    rw [hitems, h.size]
    omega
  · have hall := hcount ImageItem.isReturned
    rw [h.returned] at hreturned
    omega
  · have hall := hcount fun i => i.state = .valid
    rw [h.valid] at hvalid
    omega
  · have hall := hcount fun i => i.state = .error
    rw [h.error] at herror
    omega

theorem ImageInvariant.queue_update (h : s.ImageInvariant) {i : ImageItem}
    (hmap : s'.mImageConfigMap = s.mImageConfigMap)
    (hret : i.isReturned = (s.items p).isReturned) (hk : k ∈ s.mImageConfigMap.keys) :
    s'.vItemFrameQueue k = (List.range s.numItems).filter fun q =>
      decide ((s.items q).streamId = k) && !(Function.update s.items p i q).isReturned := by
  rw [vItemFrameQueue, hmap]
  refine (h.queue k hk).trans (List.filter_congr fun q _ => ?_)
  rw [Function.update_apply]
  split_ifs with hq
  · rw [hq, hret]
  · rfl

/-! ### The primitive steps -/

structure SameImages (s s' : FrameHandler) : Prop where
  mFrameQueue : s'.mFrameQueue = s.mFrameQueue
  numFrames : s'.numFrames = s.numFrames
  mImageConfigMap : s'.mImageConfigMap = s.mImageConfigMap
  items : s'.items = s.items
  numItems : s'.numItems = s.numItems
  itemSet : ∀ f a, s'.itemSet f a = s.itemSet f a

theorem SameImages.refl (s : FrameHandler) : SameImages s s :=
  ⟨rfl, rfl, rfl, rfl, rfl, fun _ _ => rfl⟩

theorem SameImages.trans {s₁ : FrameHandler} (h₁ : SameImages s s₁) (h₂ : SameImages s₁ s') :
    SameImages s s' where
  mFrameQueue := h₂.mFrameQueue.trans h₁.mFrameQueue
  numFrames := h₂.numFrames.trans h₁.numFrames
  mImageConfigMap := h₂.mImageConfigMap.trans h₁.mImageConfigMap
  items := h₂.items.trans h₁.items
  numItems := h₂.numItems.trans h₁.numItems
  itemSet f a := (h₂.itemSet f a).trans (h₁.itemSet f a)

theorem sameImages_editFrame {g : FrameParcel → FrameParcel}
    (hg : ∀ frame a, (g frame).itemSet a = frame.itemSet a) : SameImages s (s.editFrame f g) := by
  refine ⟨rfl, rfl, rfl, rfl, rfl, fun f' a => ?_⟩
  rw [itemSet, frames_editFrame]
  split_ifs with hf
  · rw [hg, hf]
    rfl
  · rfl

/-- The primitive steps of a callback pass, with the item that is handed back. An item is
not handed back while it is in flight; without an error, it is handed back only when all
items of its stream before it have been handed back or are errors. -/
inductive PassStep : FrameHandler → List CallbackParcel.ImageItem → FrameHandler → Prop
  | other {s s' : FrameHandler} (hsame : SameImages s s') : PassStep s [] s'
  | returnItem {s : FrameHandler} {p : ImagePtr} (hp : p < s.numItems)
      (hret : (s.items p).isReturned = false) (hflight : (s.items p).state ≠ .inFlight)
      (horder : (s.items p).state ≠ .error → ∀ q < p,
        (s.items q).streamId = (s.items p).streamId → (s.items q).isReturned = false →
          (s.items q).state = .error) :
      PassStep s [s.cbItem p] (s.returnItem p)
  | errorSent {s : FrameHandler} {p : ImagePtr} (hp : p < s.numItems)
      (hret : (s.items p).isReturned = true) :
      PassStep s [] (s.editItem p fun i =>
        { i with history := i.history.markBit HistoryBit.errorSentImage })
  | clear {s : FrameHandler} {f : FramePtr} {a : Bool} {k : StreamId} {p : ImagePtr}
      (hentry : s.entry f a k = some (some p)) (hret : (s.items p).isReturned = true) :
      PassStep s [] (s.editItemSet f a fun set =>
        { set with items := set.items.modify k fun _ => none })
  | remove {s : FrameHandler} {f : FramePtr}
      (hall : ∀ a, (s.itemSet f a).items.size = (s.itemSet f a).numReturnedStreams) :
      PassStep s [] { s with mFrameQueue := s.mFrameQueue.erase f }

/-- The **primitive steps** on image items. -/
inductive ImageStep : FrameHandler → List CallbackParcel.ImageItem → FrameHandler → Prop
  | pass {s s' : FrameHandler} {o : List CallbackParcel.ImageItem} (h : PassStep s o s') :
      ImageStep s o s'
  | pushFrame (s : FrameHandler) (frameNo : FrameNo) : ImageStep s [] (s.pushFrame frameNo)
  | registerItem {s : FrameHandler} {f : FramePtr} {a : Bool} {b : AppImageStreamBuffer}
      (hnew : s.numFrames = f + 1) (hf : f ∈ s.mFrameQueue)
      (hstream : b.streamId ∈ s.mImageConfigMap.keys)
      (hkey : b.streamId ∉ (s.itemSet f a).items.keys)
      (hdir : a = false → ∀ p < s.numItems, (s.items p).pFrame = f →
        (s.items p).asInput = false) :
      ImageStep s [] (s.registerItem f a b)
  | releaseHandler (env : BufferEnv) {s : FrameHandler} {p : ImagePtr} (hp : p < s.numItems)
      (hvalid : (s.items p).state ≠ .valid) (herror : (s.items p).state ≠ .error) :
      ImageStep s [] (releaseHandler env s p)
  | preReleaseHandler (env : BufferEnv) {s : FrameHandler} {p : ImagePtr}
      (hp : p < s.numItems) (hstate : (s.items p).state = .inFlight) :
      ImageStep s [] (preReleaseHandler env s p)

/-! ### Each of them keeps the invariant -/

theorem ImageInvariant.congr (h : s.ImageInvariant) (hsame : SameImages s s') :
    s'.ImageInvariant := by
  obtain ⟨hq, hf, hm, hi, hn, hs⟩ := hsame
  have hentry : ∀ f a k, s'.entry f a k = s.entry f a k := fun f a k => by
    rw [FrameHandler.entry, hs, FrameHandler.entry]
  have hcount : ∀ f a P, s'.countItems f a P = s.countItems f a P := fun f a P => by
    rw [countItems, countItems, hi, hn]
  refine ⟨hq ▸ h.sorted, by rw [hq, hf]; exact h.made, by rw [hn, hi, hf]; exact h.frame,
    by rw [hn, hi]; exact h.ordered, by rw [hn, hi, hm]; exact h.stream, fun f a k p hp => ?_,
    fun p hp hret => ?_, fun f a => ?_, fun k hk => ?_, by rw [hn, hi]; exact h.sent,
    by rw [hn, hi]; exact h.flight⟩
  · rw [hn, hi]
    exact h.entry f a k p (hentry f a k ▸ hp)
  · rw [hentry, hq, hi]
    rw [hi] at hret
    exact h.held p (hn ▸ hp) hret
  · exact (h.set f a).congr (hs f a) (hcount f a)
  · rw [vItemFrameQueue, hm, hn, hi]
    exact h.queue k (hm ▸ hk)

theorem itemSet_returnItem (s : FrameHandler) (p : ImagePtr) (f : FramePtr) (a : Bool) :
    (s.returnItem p).itemSet f a = if f = (s.items p).pFrame ∧ a = (s.items p).asInput then
      { s.itemSet (s.items p).pFrame (s.items p).asInput with
        numReturnedStreams :=
          (s.itemSet (s.items p).pFrame (s.items p).asInput).numReturnedStreams + 1 }
      else s.itemSet f a :=
  itemSet_editItemSet _ _ _ _ _ _

theorem ImageInvariant.returnItem (h : s.ImageInvariant) (hp : p < s.numItems)
    (hret : (s.items p).isReturned = false) (hflight : (s.items p).state ≠ .inFlight) :
    (s.returnItem p).ImageInvariant := by
  have hnew : ImageItem.isReturned { s.items p with
      history := (s.items p).history.markBit HistoryBit.returned } = true := by
    simp [isReturned_markBit]
  have hself := itemSet_returnItem s p (s.items p).pFrame (s.items p).asInput
  rw [if_pos ⟨rfl, rfl⟩] at hself
  refine h.update hp
    (fun set => { set with numReturnedStreams := set.numReturnedStreams + 1 }) rfl rfl rfl rfl
    (itemSet_returnItem s p) (fun _ => rfl) (KeyedVector.keys_modify _ _ _) rfl rfl rfl
    (fun _ => hnew) ?_ (fun k hk => ?_) (fun _ => hnew) fun _ => hflight
  · refine (h.set _ _).update hp rfl rfl rfl rfl
      (fun set => { set with numReturnedStreams := set.numReturnedStreams + 1 }) hself
      fun set => ⟨rfl, ?_, rfl, rfl⟩
    rw [hnew, hret]
    rfl
  · have hmap : (s.returnItem p).mImageConfigMap =
        s.mImageConfigMap.modify (s.items p).streamId (·.erase p) := rfl
    rw [vItemFrameQueue_modify hmap hk]
    split_ifs with hk'
    · rw [h.queue k hk, erase_filter_range]
      refine List.filter_congr fun q _ => ?_
      rw [Function.update_apply]
      split_ifs with hq
      · simp [hq, hnew]
      · simp [hq]
    · rw [h.queue k hk]
      refine List.filter_congr fun q _ => ?_
      rw [Function.update_apply]
      split_ifs with hq
      · simp [hq, Ne.symm hk']
      · rfl

theorem itemSet_editItem (s : FrameHandler) (p : ImagePtr) (g : ImageItem → ImageItem)
    (f f' : FramePtr) (a a' : Bool) :
    (s.editItem p g).itemSet f a = if f = f' ∧ a = a' then s.itemSet f' a' else s.itemSet f a := by
  split_ifs with h
  · rw [h.1, h.2]
    rfl
  · rfl

theorem ImageInvariant.errorSent (h : s.ImageInvariant) (hp : p < s.numItems)
    (hret : (s.items p).isReturned = true) :
    (s.editItem p fun i =>
      { i with history := i.history.markBit HistoryBit.errorSentImage }).ImageInvariant := by
  have hnew : ImageItem.isReturned { s.items p with
      history := (s.items p).history.markBit HistoryBit.errorSentImage } = true := by
    simp [isReturned_markBit, hret]
  refine h.update hp id rfl rfl rfl rfl (fun f a => itemSet_editItem s p _ f _ a _)
    (fun _ => rfl) rfl rfl rfl rfl (fun _ => hnew) ?_
    (fun k hk => h.queue_update rfl (hnew.trans hret.symm) hk) (fun _ => hnew)
    fun _ => h.flight p hp hret
  refine (h.set _ _).update hp rfl rfl rfl rfl id rfl fun set => ⟨rfl, ?_, rfl, rfl⟩
  rw [hnew, hret, id]

theorem ImageInvariant.releaseHandler (h : s.ImageInvariant) (env : BufferEnv)
    (hp : p < s.numItems) (hvalid : (s.items p).state ≠ .valid)
    (herror : (s.items p).state ≠ .error) : (releaseHandler env s p).ImageInvariant := by
  rw [FrameHandler.releaseHandler]
  dsimp only
  split
  · refine h.update hp
      (fun set => { set with numErrorStreams := set.numErrorStreams + 1 }) rfl rfl rfl rfl
      (fun f a => itemSet_editItemSet _ _ _ _ _ _) (fun _ => rfl) rfl rfl rfl rfl
      (fun hret => hret) ?_ (fun k hk => h.queue_update rfl rfl hk) (h.sent p hp)
      fun _ => by simp
    refine (h.set _ _).update hp rfl rfl rfl rfl
      (fun set => { set with numErrorStreams := set.numErrorStreams + 1 })
      ((itemSet_editItemSet _ _ _ _ _ _).trans (if_pos ⟨rfl, rfl⟩))
      fun set => ⟨rfl, rfl, ?_, ?_⟩
    · rw [decide_eq_false hvalid]
      rfl
    · rw [decide_eq_false herror]
      rfl
  · refine h.update hp
      (fun set => { set with numValidStreams := set.numValidStreams + 1 }) rfl rfl rfl rfl
      (fun f a => itemSet_editItemSet _ _ _ _ _ _) (fun _ => rfl) rfl rfl rfl rfl
      (fun hret => hret) ?_ (fun k hk => h.queue_update rfl rfl hk) (h.sent p hp)
      fun _ => by simp
    refine (h.set _ _).update hp rfl rfl rfl rfl
      (fun set => { set with numValidStreams := set.numValidStreams + 1 })
      ((itemSet_editItemSet _ _ _ _ _ _).trans (if_pos ⟨rfl, rfl⟩))
      fun set => ⟨rfl, rfl, ?_, ?_⟩
    · rw [decide_eq_false hvalid]
      rfl
    · rw [decide_eq_false herror]
      rfl

theorem ImageInvariant.preReleaseHandler (h : s.ImageInvariant) (env : BufferEnv)
    (hp : p < s.numItems) (hstate : (s.items p).state = .inFlight) :
    (preReleaseHandler env s p).ImageInvariant := by
  refine h.update hp id rfl rfl rfl rfl (fun f a => itemSet_editItem s p _ f _ a _)
    (fun _ => rfl) rfl rfl rfl rfl (fun hret => hret) ?_
    (fun k hk => h.queue_update rfl rfl hk) (h.sent p hp) fun _ => by simp
  refine (h.set _ _).update hp rfl rfl rfl rfl id rfl fun set => ⟨rfl, rfl, ?_, ?_⟩
  · rw [hstate]
    rfl
  · rw [hstate]
    rfl

theorem entry_clear (s : FrameHandler) (f f' : FramePtr) (a a' : Bool) (k k' : StreamId) :
    (s.editItemSet f a fun set =>
      { set with items := set.items.modify k fun _ => none }).entry f' a' k' =
      if f' = f ∧ a' = a ∧ k' = k then (s.entry f' a' k').map fun _ => none
      else s.entry f' a' k' := by
  rw [FrameHandler.entry, itemSet_editItemSet, FrameHandler.entry]
  by_cases hset : f' = f ∧ a' = a
  · rw [if_pos hset, hset.1, hset.2]
    simp [KeyedVector.find?_modify]
  · rw [if_neg hset, if_neg fun hall => hset ⟨hall.1, hall.2.1⟩]

theorem ImageInvariant.clear (h : s.ImageInvariant) (hentry : s.entry f a k = some (some p))
    (hret : (s.items p).isReturned = true) :
    (s.editItemSet f a fun set =>
      { set with items := set.items.modify k fun _ => none }).ImageInvariant := by
  refine ⟨h.sorted, h.made, h.frame, h.ordered, h.stream, fun f' a' k' q hq => ?_,
    fun q hq hnot => ?_, fun f' a' => ?_, h.queue, h.sent, h.flight⟩
  · rw [entry_clear] at hq
    split_ifs at hq
    · simp [Option.map_eq_some_iff] at hq
    · exact h.entry f' a' k' q hq
  · obtain ⟨hframe, hplace⟩ := h.held q hq hnot
    refine ⟨hframe, ?_⟩
    rw [entry_clear, if_neg]
    · exact hplace
    · -- the cleared entry leads to an item that has been handed back
      rintro ⟨hf, ha, hk⟩
      rw [items_editItemSet] at hf ha hk hnot
      rw [hf, ha, hk, hentry] at hplace
      obtain rfl := Option.some_inj.mp (Option.some_inj.mp hplace)
      rw [hret] at hnot
      cases hnot
  · have hset := itemSet_editItemSet s f f' a a' fun set =>
      { set with items := set.items.modify k fun _ => none }
    obtain ⟨hsize, hreturned, hvalid, herror⟩ := h.set f' a'
    by_cases hself : f' = f ∧ a' = a
    · rw [if_pos hself] at hset
      rw [hself.1, hself.2] at hsize hreturned hvalid herror ⊢
      rw [hself.1, hself.2] at hset
      exact ⟨by rw [hset, KeyedVector.size_modify]; exact hsize, by rw [hset]; exact hreturned,
        by rw [hset]; exact hvalid, by rw [hset]; exact herror⟩
    · rw [if_neg hself] at hset
      exact ⟨by rw [hset]; exact hsize, by rw [hset]; exact hreturned,
        by rw [hset]; exact hvalid, by rw [hset]; exact herror⟩

theorem ImageInvariant.isReturned_of_frame (h : s.ImageInvariant)
    (hall : ∀ a, (s.itemSet f a).items.size = (s.itemSet f a).numReturnedStreams)
    (hp : p < s.numItems) (hframe : (s.items p).pFrame = f) : (s.items p).isReturned = true :=
  h.forall_of_countItems ((h.set f _).returned.symm.trans (hall _).symm) hp hframe rfl

theorem ImageInvariant.remove (h : s.ImageInvariant)
    (hall : ∀ a, (s.itemSet f a).items.size = (s.itemSet f a).numReturnedStreams) :
    ImageInvariant { s with mFrameQueue := s.mFrameQueue.erase f } := by
  refine ⟨h.sorted.sublist List.erase_sublist, fun f' hf' => h.made f' (List.mem_of_mem_erase hf'),
    h.frame, h.ordered, h.stream, h.entry, fun p hp hnot => ?_, fun f' a' => ?_, h.queue, h.sent,
    h.flight⟩
  · obtain ⟨hframe, hplace⟩ := h.held p hp hnot
    refine ⟨(List.mem_erase_of_ne fun heq => ?_).mpr hframe, hplace⟩
    have hret := h.isReturned_of_frame hall hp heq
    rw [hnot] at hret
    cases hret
  · obtain ⟨hsize, hreturned, hvalid, herror⟩ := h.set f' a'
    exact ⟨hsize, hreturned, hvalid, herror⟩

theorem itemSet_pushFrame (s : FrameHandler) (frameNo : FrameNo) (f : FramePtr) (a : Bool) :
    (s.pushFrame frameNo).itemSet f a = if f = s.numFrames then {} else s.itemSet f a := by
  simp only [FrameHandler.itemSet, pushFrame, Function.update_apply]
  split_ifs
  · cases a <;> rfl
  · rfl

theorem ImageInvariant.pushFrame (h : s.ImageInvariant) (frameNo : FrameNo) :
    (s.pushFrame frameNo).ImageInvariant := by
  refine ⟨?_, fun f hf => ?_, fun p hp => Nat.lt_succ_of_lt (h.frame p hp), h.ordered, h.stream,
    fun f a k p hp => ?_, fun p hp hnot => ?_, fun f a => ?_, h.queue, h.sent, h.flight⟩
  · refine List.pairwise_append.mpr ⟨h.sorted, List.pairwise_singleton _ _, fun f hf f' hf' => ?_⟩
    rw [List.mem_singleton.mp hf']
    exact h.made f hf
  · rcases List.mem_append.mp hf with hf | hf
    · exact Nat.lt_succ_of_lt (h.made f hf)
    · rw [List.mem_singleton.mp hf]
      exact Nat.lt_succ_self _
  · rw [FrameHandler.entry, itemSet_pushFrame] at hp
    split_ifs at hp
    · cases hp
    · exact h.entry f a k p hp
  · obtain ⟨hframe, hplace⟩ := h.held p hp hnot
    refine ⟨List.mem_append_left _ hframe, ?_⟩
    have hne : (s.items p).pFrame ≠ s.numFrames := Nat.ne_of_lt (h.frame p hp)
    rw [FrameHandler.entry, itemSet_pushFrame]
    exact (congrArg (fun set : ImageItemSet => set.items.find? (s.items p).streamId)
      (if_neg hne)).trans hplace
  · by_cases hself : f = s.numFrames
    · -- no item belongs to the new frame yet
      have hcount : ∀ P, (s.pushFrame frameNo).countItems f a P = 0 := fun P => by
        rw [countItems, List.countP_eq_zero]
        intro p hp
        have hne : (s.items p).pFrame ≠ f :=
          hself ▸ Nat.ne_of_lt (h.frame p (List.mem_range.mp hp))
        simp [ImageItem.inSet, FrameHandler.pushFrame, hne]
      have hset := itemSet_pushFrame s frameNo f a
      rw [if_pos hself] at hset
      exact ⟨by rw [hset, hcount]; rfl, by rw [hset, hcount], by rw [hset, hcount],
        by rw [hset, hcount]⟩
    · have hset := itemSet_pushFrame s frameNo f a
      rw [if_neg hself] at hset
      obtain ⟨hsize, hreturned, hvalid, herror⟩ := h.set f a
      exact ⟨by rw [hset]; exact hsize, by rw [hset]; exact hreturned,
        by rw [hset]; exact hvalid, by rw [hset]; exact herror⟩

/-! ### Registering an item -/

theorem items_registerItem (s : FrameHandler) (f : FramePtr) (a : Bool)
    (b : AppImageStreamBuffer) (p : ImagePtr) :
    (s.registerItem f a b).items p =
      if p = s.numItems then { pFrame := f, asInput := a, buffer := b } else s.items p := by
  rw [registerItem, items_editItemSet]
  exact Function.update_apply _ _ _ _

theorem itemSet_registerItem (s : FrameHandler) (f f' : FramePtr) (a a' : Bool)
    (b : AppImageStreamBuffer) :
    (s.registerItem f a b).itemSet f' a' = if f' = f ∧ a' = a then
      { s.itemSet f a with items := (s.itemSet f a).items.add b.streamId (some s.numItems) }
      else s.itemSet f' a' :=
  itemSet_editItemSet _ _ _ _ _ _

theorem entry_registerItem (s : FrameHandler) (f f' : FramePtr) (a a' : Bool)
    (b : AppImageStreamBuffer) (k : StreamId) :
    (s.registerItem f a b).entry f' a' k =
      if f' = f ∧ a' = a ∧ k = b.streamId then some (some s.numItems)
      else s.entry f' a' k := by
  rw [FrameHandler.entry, itemSet_registerItem, FrameHandler.entry]
  by_cases hset : f' = f ∧ a' = a
  · rw [if_pos hset, hset.1, hset.2]
    simp [KeyedVector.find?_add]
  · rw [if_neg hset, if_neg fun hall => hset ⟨hall.1, hall.2.1⟩]

theorem countItems_registerItem (s : FrameHandler) (f f' : FramePtr) (a a' : Bool)
    (b : AppImageStreamBuffer) (P : ImageItem → Bool) :
    (s.registerItem f a b).countItems f' a' P = s.countItems f' a' P +
      (ImageItem.inSet f' a' P { pFrame := f, asInput := a, buffer := b }).toNat := by
  have hold : ∀ p ∈ List.range s.numItems,
      ((s.registerItem f a b).items p).inSet f' a' P = (s.items p).inSet f' a' P := fun p hp => by
    rw [items_registerItem, if_neg (Nat.ne_of_lt (List.mem_range.mp hp))]
  have hnum : (s.registerItem f a b).numItems = s.numItems + 1 := rfl
  rw [countItems, hnum, List.range_succ, List.countP_append, List.countP_singleton,
    items_registerItem, if_pos rfl, countItems,
    List.countP_congr fun p hp => by rw [hold p hp]]
  cases ImageItem.inSet f' a' P { pFrame := f, asInput := a, buffer := b } <;> rfl

theorem isReturned_new (f : FramePtr) (a : Bool) (b : AppImageStreamBuffer) :
    ImageItem.isReturned { pFrame := f, asInput := a, buffer := b } = false := by
  simp [ImageItem.isReturned]

theorem SetInvariant.registerItem {b : AppImageStreamBuffer} (h : SetInvariant s f' a')
    (hkey : b.streamId ∉ (s.itemSet f a).items.keys) :
    SetInvariant (s.registerItem f a b) f' a' := by
  have hset := itemSet_registerItem s f f' a a' b
  by_cases hself : f' = f ∧ a' = a
  · rw [if_pos hself] at hset
    obtain ⟨hsize, hreturned, hvalid, herror⟩ := h
    obtain ⟨rfl, rfl⟩ := hself
    refine ⟨?_, ?_, ?_, ?_⟩ <;> rw [hset, countItems_registerItem]
    · rw [KeyedVector.size_add hkey, hsize]
      simp [ImageItem.inSet]
    · simp [hreturned, ImageItem.inSet, isReturned_new]
    · simp [hvalid, ImageItem.inSet]
    · simp [herror, ImageItem.inSet]
  · rw [if_neg hself] at hset
    have hother : ¬ (f = f' ∧ a = a') := fun heq => hself ⟨heq.1.symm, heq.2.symm⟩
    have hcount : ∀ P, (s.registerItem f a b).countItems f' a' P = s.countItems f' a' P :=
      fun P => by
        rw [countItems_registerItem]
        simp [ImageItem.inSet, hother]
    exact h.congr hset hcount

theorem ImageInvariant.registerItem {b : AppImageStreamBuffer} (h : s.ImageInvariant)
    (hnew : s.numFrames = f + 1) (hf : f ∈ s.mFrameQueue)
    (hstream : b.streamId ∈ s.mImageConfigMap.keys)
    (hkey : b.streamId ∉ (s.itemSet f a).items.keys)
    (hdir : a = false → ∀ p < s.numItems, (s.items p).pFrame = f →
      (s.items p).asInput = false) : (s.registerItem f a b).ImageInvariant := by
  have hself : (s.registerItem f a b).items s.numItems =
      { pFrame := f, asInput := a, buffer := b } := by
    rw [items_registerItem, if_pos rfl]
  have hold : ∀ p < s.numItems, (s.registerItem f a b).items p = s.items p := fun p hp => by
    rw [items_registerItem, if_neg (Nat.ne_of_lt hp)]
  have hcases : ∀ p < (s.registerItem f a b).numItems, p < s.numItems ∨ p = s.numItems :=
    fun p hp => Nat.lt_succ_iff_lt_or_eq.mp hp
  refine ⟨h.sorted, h.made, fun p hp => ?_, fun p q hlt hq => ?_, fun p hp => ?_,
    fun f' a' k p hp => ?_, fun p hp hnot => ?_, fun f' a' => (h.set f' a').registerItem hkey,
    fun k hk => ?_, fun p hp hs => ?_, fun p hp hs => ?_⟩
  · have hframes : (s.registerItem f a b).numFrames = f + 1 := hnew
    rcases hcases p hp with hp | rfl
    · rw [hold p hp]
      exact h.frame p hp
    · rw [hself, hframes]
      exact Nat.lt_succ_self f
  · rcases hcases q hq with hq | rfl
    · rw [hold p (hlt.trans hq), hold q hq]
      exact h.ordered p q hlt hq
    · have hframe := h.frame p hlt
      rw [hold p hlt, hself]
      rcases Nat.lt_or_eq_of_le (Nat.lt_succ_iff.mp (hnew ▸ hframe)) with hlt' | heq
      · exact .inl hlt'
      · refine .inr ⟨heq, fun hin => ?_⟩
        cases ha : a with
        | true => rfl
        | false =>
          rw [hdir ha p hlt heq] at hin
          cases hin
  · have hkeys : (s.registerItem f a b).mImageConfigMap.keys = s.mImageConfigMap.keys :=
      KeyedVector.keys_modify _ _ _
    rw [hkeys]
    rcases hcases p hp with hp | rfl
    · rw [hold p hp]
      exact h.stream p hp
    · rw [hself]
      exact hstream
  · rw [entry_registerItem] at hp
    split_ifs at hp with heq
    · obtain rfl := Option.some_inj.mp (Option.some_inj.mp hp)
      rw [hself]
      exact ⟨Nat.lt_succ_self _, heq.1.symm, heq.2.1.symm, heq.2.2.symm⟩
    · obtain ⟨hlt, hitem⟩ := h.entry f' a' k p hp
      rw [hold p hlt]
      exact ⟨Nat.lt_succ_of_lt hlt, hitem⟩
  · rcases hcases p hp with hp | rfl
    · rw [hold p hp] at hnot ⊢
      obtain ⟨hframe, hplace⟩ := h.held p hp hnot
      refine ⟨hframe, ?_⟩
      rw [entry_registerItem, if_neg]
      · exact hplace
      · -- the key of the new item is not in the set yet
        rintro ⟨hpf, hpa, hpk⟩
        rw [hpf, hpa, hpk] at hplace
        exact hkey (KeyedVector.mem_keys_of_find? hplace)
    · rw [hself]
      refine ⟨hf, ?_⟩
      rw [entry_registerItem, if_pos ⟨rfl, rfl, rfl⟩]
  · have hmap : (s.registerItem f a b).mImageConfigMap =
        s.mImageConfigMap.modify b.streamId (· ++ [s.numItems]) := rfl
    have hnum : (s.registerItem f a b).numItems = s.numItems + 1 := rfl
    rw [hmap, KeyedVector.keys_modify] at hk
    have hfilter : (List.range s.numItems).filter (fun p =>
          decide (((s.registerItem f a b).items p).streamId = k) &&
            !((s.registerItem f a b).items p).isReturned) = s.vItemFrameQueue k := by
      rw [h.queue k hk]
      refine List.filter_congr fun p hp => ?_
      rw [hold p (List.mem_range.mp hp)]
    rw [vItemFrameQueue_modify hmap hk, hnum, List.range_succ, List.filter_append, hfilter]
    by_cases heq : k = b.streamId
    · simp [heq, hself, ImageItem.streamId, isReturned_new]
    · simp [heq, hself, ImageItem.streamId, Ne.symm heq]
  · rcases hcases p hp with hp | rfl
    · rw [hold p hp] at hs ⊢
      exact h.sent p hp hs
    · simp [hself, isSent] at hs
  · rcases hcases p hp with hp | rfl
    · rw [hold p hp] at hs ⊢
      exact h.flight p hp hs
    · rw [hself, isReturned_new] at hs
      cases hs

/-! ### All of them -/

theorem PassStep.invariant {o : List CallbackParcel.ImageItem} (hstep : PassStep s o s')
    (h : s.ImageInvariant) : s'.ImageInvariant := by
  cases hstep with
  | other hsame => exact h.congr hsame
  | returnItem hp hret hflight _ => exact h.returnItem hp hret hflight
  | errorSent hp hret => exact h.errorSent hp hret
  | clear hentry hret => exact h.clear hentry hret
  | remove hall => exact h.remove hall

/-- **Every primitive step keeps the image invariant.** -/
theorem ImageStep.invariant {o : List CallbackParcel.ImageItem} (hstep : ImageStep s o s')
    (h : s.ImageInvariant) : s'.ImageInvariant := by
  cases hstep with
  | pass hpass => exact hpass.invariant h
  | pushFrame s frameNo => exact h.pushFrame frameNo
  | registerItem hnew hf hstream hkey hdir => exact h.registerItem hnew hf hstream hkey hdir
  | releaseHandler env hp hvalid herror => exact h.releaseHandler env hp hvalid herror
  | preReleaseHandler env hp hstate => exact h.preReleaseHandler env hp hstate

end FrameHandler

end MtkHardware.AppStream
