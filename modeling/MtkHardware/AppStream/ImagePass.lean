import MtkHardware.AppStream.ImageStep

/-!
# Image Passes

This module breaks a callback pass up into primitive steps on image items. An item that is
handed back without an error must find all items of its stream before it handed back, or
errors. That holds since the pass goes through the frames in the order of registration and
since, within the pass, every item that it leaves behind is settled: it has been handed
back, is in flight or an error, or waits for an earlier item of its stream that is in
flight.
-/

namespace MtkHardware.AppStream

open Pipeline (StreamId)

def CallbackParcel.allImages (cb : CallbackParcel) : List CallbackParcel.ImageItem :=
  cb.vOutputImageItem ++ cb.vInputImageItem

namespace FrameHandler

variable {s s' s₁ s₂ : FrameHandler} {cb cb' cb₁ : CallbackParcel} {f : FramePtr} {a : Bool}
  {k : StreamId} {p q : ImagePtr} {o l l₁ l₂ : List CallbackParcel.ImageItem}

/-! ### What a pass keeps -/

structure PassKeeps (s s' : FrameHandler) : Prop where
  numItems : s'.numItems = s.numItems
  pFrame : ∀ q, (s'.items q).pFrame = (s.items q).pFrame
  asInput : ∀ q, (s'.items q).asInput = (s.items q).asInput
  streamId : ∀ q, (s'.items q).streamId = (s.items q).streamId
  state : ∀ q, (s'.items q).state = (s.items q).state
  returned : ∀ q, (s.items q).isReturned = true → (s'.items q).isReturned = true
  flight : ∀ q, (s.items q).state = .inFlight → (s'.items q).isReturned = (s.items q).isReturned

theorem PassKeeps.refl (s : FrameHandler) : PassKeeps s s :=
  ⟨rfl, fun _ => rfl, fun _ => rfl, fun _ => rfl, fun _ => rfl, fun _ h => h, fun _ _ => rfl⟩

theorem PassKeeps.trans (h₁ : PassKeeps s s₁) (h₂ : PassKeeps s₁ s₂) : PassKeeps s s₂ where
  numItems := h₂.numItems.trans h₁.numItems
  pFrame q := (h₂.pFrame q).trans (h₁.pFrame q)
  asInput q := (h₂.asInput q).trans (h₁.asInput q)
  streamId q := (h₂.streamId q).trans (h₁.streamId q)
  state q := (h₂.state q).trans (h₁.state q)
  returned q h := h₂.returned q (h₁.returned q h)
  flight q h := (h₂.flight q ((h₁.state q).trans h)).trans (h₁.flight q h)

theorem PassKeeps.of_items (hitems : s'.items = s.items) (hnum : s'.numItems = s.numItems) :
    PassKeeps s s' := by
  refine ⟨hnum, fun q => ?_, fun q => ?_, fun q => ?_, fun q => ?_, fun q h => ?_, fun q h => ?_⟩
  all_goals first | rwa [hitems] | rw [hitems]

theorem PassKeeps.of_update {i : ImageItem} (hitems : s'.items = Function.update s.items p i)
    (hnum : s'.numItems = s.numItems) (hpFrame : i.pFrame = (s.items p).pFrame)
    (hasInput : i.asInput = (s.items p).asInput) (hstreamId : i.streamId = (s.items p).streamId)
    (hstate : i.state = (s.items p).state)
    (hreturned : (s.items p).isReturned = true → i.isReturned = true)
    (hflight : (s.items p).state = .inFlight → i.isReturned = (s.items p).isReturned) :
    PassKeeps s s' := by
  refine ⟨hnum, fun q => ?_, fun q => ?_, fun q => ?_, fun q => ?_, fun q h => ?_, fun q h => ?_⟩
  all_goals
    rw [hitems, Function.update_apply]
    split_ifs with hq
    · subst hq
      first | assumption | exact hreturned h | exact hflight h
    · first | rfl | exact h

theorem PassStep.keeps (h : PassStep s o s') : PassKeeps s s' := by
  cases h with
  | other hsame => exact .of_items hsame.items hsame.numItems
  | @returnItem p hp hret hflight _ =>
    refine .of_update (p := p) rfl rfl rfl rfl rfl rfl (fun h => ?_)
      fun h => absurd h hflight
    simp [isReturned_markBit]
  | @errorSent p hp hret =>
    refine .of_update (p := p) rfl rfl rfl rfl rfl rfl (fun h => ?_) fun h => ?_
    all_goals simp [isReturned_markBit, hret]
  | clear => exact .of_items rfl rfl
  | remove => exact .of_items rfl rfl

theorem keeps_of_steps (h : StepsOf PassStep s o s') : PassKeeps s s' :=
  h.invariant (I := fun _ s' => PassKeeps s s') (.refl s) fun _ _ _ _ h hstep =>
    h.trans hstep.keeps

theorem invariant_of_steps (h : StepsOf PassStep s o s') (hinv : s.ImageInvariant) :
    s'.ImageInvariant :=
  h.invariant (I := fun _ s' => s'.ImageInvariant) hinv fun _ _ _ _ h hstep =>
    hstep.invariant h

/-! ### Settled items -/

def Settled (s : FrameHandler) (q : ImagePtr) : Prop :=
  (s.items q).isReturned = true ∨ (s.items q).state = .inFlight ∨
    (s.items q).state = .error ∨
    ∃ r < q, (s.items r).streamId = (s.items q).streamId ∧ (s.items r).state = .inFlight ∧
      (s.items r).isReturned = false

theorem Settled.keeps (h : s.Settled q) (hkeeps : PassKeeps s s') : s'.Settled q := by
  rcases h with h | h | h | ⟨r, hlt, hstream, hflight, hret⟩
  · exact .inl (hkeeps.returned q h)
  · exact .inr (.inl ((hkeeps.state q).trans h))
  · exact .inr (.inr (.inl ((hkeeps.state q).trans h)))
  · refine .inr (.inr (.inr ⟨r, hlt, ?_, ?_, ?_⟩))
    · rw [hkeeps.streamId, hkeeps.streamId, hstream]
    · rw [hkeeps.state, hflight]
    · rw [hkeeps.flight r hflight, hret]

/-- What `isReturnable` says about the items before one that has not been handed back. -/
theorem isReturnableImage_iff (h : s.ImageInvariant) (hp : p < s.numItems)
    (hret : (s.items p).isReturned = false) :
    s.isReturnableImage p = true ↔ ∀ q < p, (s.items q).streamId = (s.items p).streamId →
      (s.items q).isReturned = false → (s.items q).state ≠ .inFlight := by
  have hk := h.stream p hp
  have hmem := (h.mem_vItemFrameQueue hk).mpr ⟨hp, rfl, hret⟩
  have hbefore : ∀ q, q ∈ (s.vItemFrameQueue (s.items p).streamId).takeWhile
      (fun q => decide (q ≠ p)) ↔ q < p ∧ (s.items q).streamId = (s.items p).streamId ∧
        (s.items q).isReturned = false := fun q => by
    rw [mem_takeWhile_ne_iff (h.sorted_vItemFrameQueue hk) hmem, h.mem_vItemFrameQueue hk]
    exact ⟨fun hq => ⟨hq.2, hq.1.2⟩, fun hq => ⟨⟨hq.1.trans hp, hq.2⟩, hq.1⟩⟩
  rw [isReturnableImage, List.all_eq_true]
  simp only [hbefore, decide_eq_true_eq]
  exact ⟨fun hall q hlt hstream hq => hall q ⟨hlt, hstream, hq⟩,
    fun hall q hq => hall q hq.1 hq.2.1 hq.2.2⟩

/-! ### Parcels -/

structure ImageVisit (s : FrameHandler) (cb : CallbackParcel) (a : Bool)
    (l : List CallbackParcel.ImageItem) (s' : FrameHandler) (cb' : CallbackParcel) : Prop where
  steps : StepsOf PassStep s l s'
  images : cb'.images a = cb.images a ++ l
  other : cb'.images (!a) = cb.images (!a)
  pFrame : cb'.pFrame = cb.pFrame
  valid : cb.valid = true ∨ l ≠ [] → cb'.valid = true

theorem ImageVisit.refl (s : FrameHandler) (cb : CallbackParcel) (a : Bool) :
    ImageVisit s cb a [] s cb :=
  ⟨.refl, by simp, rfl, rfl, fun h => h.resolve_right fun h => h rfl⟩

theorem ImageVisit.trans (h₁ : ImageVisit s cb a l₁ s₁ cb₁) (h₂ : ImageVisit s₁ cb₁ a l₂ s' cb') :
    ImageVisit s cb a (l₁ ++ l₂) s' cb' where
  steps := h₁.steps.trans h₂.steps
  images := by rw [h₂.images, h₁.images, List.append_assoc]
  other := h₂.other.trans h₁.other
  pFrame := h₂.pFrame.trans h₁.pFrame
  valid h := by
    by_cases hl : l₁ = []
    · subst hl
      exact h₂.valid (h.imp (fun h => h₁.valid (.inl h)) fun h => by simpa using h)
    · exact h₂.valid (.inl (h₁.valid (.inr hl)))

theorem ImageVisit.of_steps (hsteps : StepsOf PassStep s [] s')
    (himages : ∀ a, cb'.images a = cb.images a) (hpFrame : cb'.pFrame = cb.pFrame)
    (hvalid : cb.valid = true → cb'.valid = true) : ImageVisit s cb a [] s' cb' :=
  ⟨hsteps, by rw [himages, List.append_nil], himages _, hpFrame,
    fun h => hvalid (h.resolve_right fun h => h rfl)⟩

theorem ImageVisit.returnItem (cb : CallbackParcel) (hp : p < s.numItems)
    (hret : (s.items p).isReturned = false)
    (hflight : (s.items p).state ≠ .inFlight)
    (horder : (s.items p).state ≠ .error → ∀ q < p,
      (s.items q).streamId = (s.items p).streamId → (s.items q).isReturned = false →
        (s.items q).state = .error) :
    ImageVisit s cb (s.items p).asInput [s.cbItem p] (s.prepareReturnImage cb p).1
      (s.prepareReturnImage cb p).2 := by
  have hnot : (s.items p).history.hasBit HistoryBit.returned = false := hret
  rw [prepareReturnImage]
  simp only [hnot, Bool.false_eq_true, if_false]
  refine ⟨.single (.returnItem hp hret hflight horder), ?_, ?_, ?_, fun _ => ?_⟩
  all_goals cases (s.items p).asInput <;> rfl

/-! ### One item -/

theorem markBit_comm (b : BitSet32) (m n : ℕ) :
    (b.markBit m).markBit n = (b.markBit n).markBit m := by
  rw [BitSet32.markBit, BitSet32.markBit, BitSet32.markBit, BitSet32.markBit,
    BitVec.or_assoc, BitVec.or_assoc, BitVec.or_comm (BitSet32.valueForBit m)]

theorem returnItem_editItem (s : FrameHandler) (p : ImagePtr) (n : ℕ) :
    (s.editItem p fun i => { i with history := i.history.markBit n }).returnItem p =
      (s.returnItem p).editItem p fun i => { i with history := i.history.markBit n } := by
  simp only [returnItem, editItem, editItemSet, editFrame, Function.update_self,
    Function.update_idem, ImageItem.streamId, markBit_comm]

theorem isReturned_returnItem (s : FrameHandler) (p : ImagePtr) :
    ((s.returnItem p).items p).isReturned = true := by
  rw [items_returnItem, if_pos rfl, isReturned_markBit]
  simp

theorem imageVisit_error (hp : p < s.numItems) (hstate : (s.items p).state = .error)
    {x : FrameHandler × CallbackParcel} (hx : x = s.prepareErrorImage cb p) :
    ∃ l, ImageVisit s cb (s.items p).asInput l
      (if (x.1.items p).history.hasBit HistoryBit.returned then x
        else x.1.prepareReturnImage x.2 p).1
      (if (x.1.items p).history.hasBit HistoryBit.returned then x
        else x.1.prepareReturnImage x.2 p).2 := by
  subst hx
  have hitem : ((s.prepareErrorImage cb p).1.items p).history.hasBit HistoryBit.returned =
      (s.items p).isReturned := by
    have hmark := isReturned_markBit (s.items p) HistoryBit.errorSentImage
    rw [prepareErrorImage, items_editItem, if_pos rfl]
    exact hmark.trans (Bool.or_false _)
  rw [hitem]
  cases hret : (s.items p).isReturned with
  | true =>
    refine ⟨[], .of_steps (.single (.errorSent hp hret)) (fun a => ?_) rfl fun _ => rfl⟩
    cases a <;> rfl
  | false =>
    -- the error is recorded first, but that commutes with the return
    have hflight : (s.items p).state ≠ .inFlight := by simp [hstate]
    have hsteps := (StepsOf.single (R := PassStep)
      (.returnItem hp hret hflight fun h => absurd hstate h)).tail
      (.errorSent hp (isReturned_returnItem s p))
    rw [← returnItem_editItem, List.append_nil] at hsteps
    have hcb : (s.prepareErrorImage cb p).1.cbItem p = s.cbItem p := by
      simp [prepareErrorImage, editItem, cbItem, ImageItem.streamId]
    have hdir : ((s.prepareErrorImage cb p).1.items p).asInput = (s.items p).asInput := by
      simp [prepareErrorImage, editItem]
    refine ⟨[s.cbItem p], ?_⟩
    rw [if_neg Bool.false_ne_true, prepareReturnImage, hitem, hret, if_neg Bool.false_ne_true]
    refine ⟨hsteps, ?_, ?_, ?_, fun _ => ?_⟩
    all_goals
      dsimp only
      rw [hdir]
      try rw [hcb]
      cases (s.items p).asInput <;> rfl

/-- What the turn of an item does: nothing, or it hands the item back, or it tells of the error
of the item and then may hand it back. -/
theorem prepareCallbackImageItem_rule {P : FrameHandler × CallbackParcel → Prop}
    (hkeep : P (s, cb)) (hreturn : P (s.prepareReturnImage cb p))
    (herror : checkRequestError (s.frames (s.items p).pFrame) < 0 →
      P (s.prepareErrorImage cb p) ∧
        P ((s.prepareErrorImage cb p).1.prepareReturnImage (s.prepareErrorImage cb p).2 p)) :
    P (prepareCallbackImageItem (s, cb) p) := by
  have hnormal : P (if !(s.items p).history.hasBit HistoryBit.returned && s.isReturnableImage p then
      s.prepareReturnImage cb p else (s, cb)) := by
    split
    · exact hreturn
    · exact hkeep
  rw [prepareCallbackImageItem]
  cases hs : (s.items p).state with
  | preRelease => simpa only [hs] using hnormal
  | valid => simpa only [hs] using hnormal
  | inFlight => exact hkeep
  | error =>
    dsimp only
    split
    · rename_i hcond
      rw [Bool.and_eq_true, decide_eq_true_eq] at hcond
      split
      · exact (herror hcond.2).1
      · exact (herror hcond.2).2
    · exact hkeep

/-- **The visit of an item** whose predecessors in its stream are settled. -/
theorem imageVisit_item (h : s.ImageInvariant) (hp : p < s.numItems)
    (hbefore : (s.items p).isReturned = false →
      ∀ q < p, (s.items q).streamId = (s.items p).streamId → s.Settled q)
    (cb : CallbackParcel) :
    ∃ l, ImageVisit s cb (s.items p).asInput l (prepareCallbackImageItem (s, cb) p).1
        (prepareCallbackImageItem (s, cb) p).2 ∧
      (prepareCallbackImageItem (s, cb) p).1.Settled p := by
  have hnormal : (s.items p).state = .preRelease ∨ (s.items p).state = .valid →
      prepareCallbackImageItem (s, cb) p =
        if !(s.items p).history.hasBit HistoryBit.returned && s.isReturnableImage p then
          s.prepareReturnImage cb p
        else (s, cb) := fun hstate => by
    rw [prepareCallbackImageItem]
    rcases hstate with hstate | hstate <;> simp only [hstate]
  by_cases hstate : (s.items p).state = .preRelease ∨ (s.items p).state = .valid
  · have hflight : (s.items p).state ≠ .inFlight := by
      rcases hstate with hstate | hstate <;> simp [hstate]
    rw [hnormal hstate]
    cases hret : (s.items p).isReturned with
    | true =>
      have hbit : (s.items p).history.hasBit HistoryBit.returned = true := hret
      simp only [hbit, Bool.not_true, Bool.false_and, Bool.false_eq_true, if_false]
      exact ⟨[], .refl s cb _, .inl hret⟩
    | false =>
      have hbit : (s.items p).history.hasBit HistoryBit.returned = false := hret
      simp only [hbit, Bool.not_false, Bool.true_and]
      split_ifs with hreturnable
      · rw [isReturnableImage_iff h hp hret] at hreturnable
        refine ⟨[s.cbItem p], .returnItem cb hp hret hflight fun _ q hlt hstream hq => ?_, ?_⟩
        · rcases hbefore hret q hlt hstream with hs | hs | hs | ⟨r, hr, hrstream, hrflight, hrret⟩
          · rw [hq] at hs
            cases hs
          · exact absurd hs (hreturnable q hlt hstream hq)
          · exact hs
          · exact absurd hrflight
              (hreturnable r (hr.trans hlt) (hrstream.trans hstream) hrret)
        · rw [prepareReturnImage, hbit]
          exact .inl (isReturned_returnItem s p)
      · rw [isReturnableImage_iff h hp hret] at hreturnable
        push Not at hreturnable
        obtain ⟨q, hlt, hstream, hq, hqflight⟩ := hreturnable
        exact ⟨[], .refl s cb _, .inr (.inr (.inr ⟨q, hlt, hstream, hqflight, hq⟩))⟩
  · cases hs : (s.items p).state with
    | preRelease => exact absurd (.inl hs) hstate
    | valid => exact absurd (.inr hs) hstate
    | inFlight =>
      have heq : prepareCallbackImageItem (s, cb) p = (s, cb) := by
        rw [prepareCallbackImageItem]
        simp only [hs]
      rw [heq]
      exact ⟨[], .refl s cb _, .inr (.inl hs)⟩
    | error =>
      have hvisit : ∃ l, ImageVisit s cb (s.items p).asInput l
          (prepareCallbackImageItem (s, cb) p).1 (prepareCallbackImageItem (s, cb) p).2 := by
        rw [prepareCallbackImageItem]
        simp only [hs]
        split
        · exact imageVisit_error hp hs rfl
        · exact ⟨[], .refl s cb _⟩
      obtain ⟨l, hl⟩ := hvisit
      exact ⟨l, hl, .inr (.inr (.inl (((keeps_of_steps hl.steps).state p).trans hs)))⟩

/-! ### One set -/

theorem entry_returnItem (s : FrameHandler) (p : ImagePtr) (f : FramePtr) (a : Bool)
    (k : StreamId) : (s.returnItem p).entry f a k = s.entry f a k := by
  rw [entry, itemSet_returnItem, entry]
  split_ifs with hself
  · rw [hself.1, hself.2]
  · rfl

theorem entry_prepareReturnImage (s : FrameHandler) (cb : CallbackParcel) (p : ImagePtr)
    (f : FramePtr) (a : Bool) (k : StreamId) :
    (s.prepareReturnImage cb p).1.entry f a k = s.entry f a k := by
  rw [prepareReturnImage]
  split
  · rfl
  · exact entry_returnItem s p f a k

theorem entry_prepareCallbackImageItem (s : FrameHandler) (cb : CallbackParcel) (p : ImagePtr)
    (f : FramePtr) (a : Bool) (k : StreamId) :
    (prepareCallbackImageItem (s, cb) p).1.entry f a k = s.entry f a k :=
  prepareCallbackImageItem_rule (P := fun y => y.1.entry f a k = s.entry f a k) rfl
    (entry_prepareReturnImage s cb p f a k)
    fun _ => ⟨rfl, entry_prepareReturnImage _ _ p f a k⟩

def SettledBefore (s : FrameHandler) (f : FramePtr) (a : Bool) : Prop :=
  ∀ q < s.numItems, ((s.items q).pFrame < f ∨
    (s.items q).pFrame = f ∧ (s.items q).asInput = false ∧ a = true) → s.Settled q

theorem SettledBefore.keeps (h : s.SettledBefore f a) (hkeeps : PassKeeps s s') :
    s'.SettledBefore f a := fun q hq hcase => by
  rw [hkeeps.numItems] at hq
  rw [hkeeps.pFrame, hkeeps.asInput] at hcase
  exact (h q hq hcase).keeps hkeeps

theorem SettledBefore.settled (h : s.SettledBefore f a) (hinv : s.ImageInvariant)
    (hp : p < s.numItems) (hframe : (s.items p).pFrame = f) (hdir : (s.items p).asInput = a)
    (hret : (s.items p).isReturned = false) (hlt : q < p)
    (hstream : (s.items q).streamId = (s.items p).streamId) : s.Settled q := by
  have hq := hlt.trans hp
  by_cases hqret : (s.items q).isReturned = true
  · exact .inl hqret
  · rw [Bool.not_eq_true] at hqret
    rcases hinv.ordered q p hlt hp with hframe' | ⟨hframe', hdir'⟩
    · exact h q hq (.inl (hframe ▸ hframe'))
    · cases hqdir : (s.items q).asInput with
      | true =>
        have heq := hinv.eq_of_held hq hp hqret hret hframe' (hqdir.trans (hdir' hqdir).symm)
          hstream
        exact absurd heq (Nat.ne_of_lt hlt)
      | false =>
        cases hpdir : (s.items p).asInput with
        | true => exact h q hq (.inr ⟨hframe'.trans hframe, hqdir, hdir ▸ hpdir⟩)
        | false =>
          have heq := hinv.eq_of_held hq hp hqret hret hframe' (hqdir.trans hpdir.symm)
            hstream
          exact absurd heq (Nat.ne_of_lt hlt)

/-- **The visit of an entry.** -/
theorem imageVisit_key (env : BufferEnv) (h : s.ImageInvariant) (hbefore : s.SettledBefore f a)
    (cb : CallbackParcel) (k : StreamId) :
    ∃ l, ImageVisit s cb a l (prepareCallbackImage env f a (s, cb) k).1
        (prepareCallbackImage env f a (s, cb) k).2 ∧
      ∀ p < s.numItems, (s.items p).pFrame = f → (s.items p).asInput = a →
        (s.items p).streamId = k → (prepareCallbackImage env f a (s, cb) k).1.Settled p := by
  by_cases hentry : ∃ p, s.entry f a k = some (some p)
  · obtain ⟨p, hentry⟩ := hentry
    obtain ⟨hp, hframe, hdir, hstream⟩ := h.entry f a k p hentry
    obtain ⟨l, hl, hsettled⟩ := imageVisit_item h hp
      (fun hret q hlt hq => hbefore.settled h hp hframe hdir hret hlt hq) cb
    rw [hdir] at hl
    have hinv := invariant_of_steps hl.steps h
    have hkeeps := keeps_of_steps hl.steps
    have hplace := (entry_prepareCallbackImageItem s cb p f a k).trans hentry
    -- the other items of the entry have been handed back
    have hother : ∀ q < s.numItems, (s.items q).pFrame = f → (s.items q).asInput = a →
        (s.items q).streamId = k → (prepareCallbackImageItem (s, cb) p).1.Settled q := by
      intro q hq hqframe hqdir hqstream
      by_cases hqret : (s.items q).isReturned = true
      · exact .inl (hkeeps.returned q hqret)
      · have hqentry := (h.held q hq (by simpa using hqret)).2
        rw [hqframe, hqdir, hqstream, hentry] at hqentry
        obtain rfl := Option.some_inj.mp (Option.some_inj.mp hqentry)
        exact hsettled
    have hfind : ((s.frames f).itemSet a).items.find? k = some (some p) := hentry
    rw [prepareCallbackImage]
    simp only [hfind]
    split
    · rename_i hrelease
      rw [Bool.and_eq_true] at hrelease
      have hret := hinv.sent p (by rw [hkeeps.numItems]; exact hp) hrelease.2
      have hclear : ImageVisit _ (prepareCallbackImageItem (s, cb) p).2 a [] _
          (prepareCallbackImageItem (s, cb) p).2 :=
        .of_steps (.single (.clear hplace hret)) (fun _ => rfl) rfl id
      refine ⟨l ++ [], hl.trans hclear, fun q hq hqframe hqdir hqstream => ?_⟩
      exact (hother q hq hqframe hqdir hqstream).keeps (keeps_of_steps hclear.steps)
    · exact ⟨l, hl, hother⟩
  · have hnone : ∀ p, ((s.frames f).itemSet a).items.find? k ≠ some (some p) :=
      fun p hp => hentry ⟨p, hp⟩
    have heq : prepareCallbackImage env f a (s, cb) k = (s, cb) := by
      rw [prepareCallbackImage]
      split
      · exact absurd ‹_› (hnone _)
      · rfl
    rw [heq]
    refine ⟨[], .refl s cb a, fun q hq hqframe hqdir hqstream => ?_⟩
    by_cases hqret : (s.items q).isReturned = true
    · exact .inl hqret
    · have hqentry := (h.held q hq (by simpa using hqret)).2
      rw [hqframe, hqdir, hqstream] at hqentry
      exact absurd ⟨q, hqentry⟩ hentry

theorem imageVisit_keys (env : BufferEnv) (ks : List StreamId) (h : s.ImageInvariant)
    (hbefore : s.SettledBefore f a) (cb : CallbackParcel) :
    ∃ l, ImageVisit s cb a l (ks.foldl (prepareCallbackImage env f a) (s, cb)).1
        (ks.foldl (prepareCallbackImage env f a) (s, cb)).2 ∧
      ∀ p < s.numItems, (s.items p).pFrame = f → (s.items p).asInput = a →
        (s.items p).streamId ∈ ks →
          (ks.foldl (prepareCallbackImage env f a) (s, cb)).1.Settled p := by
  induction ks generalizing s cb with
  | nil => exact ⟨[], .refl s cb a, fun p _ _ _ hmem => by simp at hmem⟩
  | cons k ks ih =>
    obtain ⟨l₁, hl₁, hsettled₁⟩ := imageVisit_key env h hbefore cb k
    have hkeeps₁ := keeps_of_steps hl₁.steps
    obtain ⟨l₂, hl₂, hsettled₂⟩ := ih (invariant_of_steps hl₁.steps h) (hbefore.keeps hkeeps₁)
      (prepareCallbackImage env f a (s, cb) k).2
    refine ⟨l₁ ++ l₂, hl₁.trans hl₂, fun p hp hframe hdir hmem => ?_⟩
    rcases List.mem_cons.mp hmem with hk | hmem
    · exact (hsettled₁ p hp hframe hdir hk).keeps (keeps_of_steps hl₂.steps)
    · refine hsettled₂ p (hkeeps₁.numItems ▸ hp) ?_ ?_ ?_
      · rw [hkeeps₁.pFrame, hframe]
      · rw [hkeeps₁.asInput, hdir]
      · rw [hkeeps₁.streamId]
        exact hmem

/-- **The visit of an image set** settles its items. -/
theorem imageVisit_set (env : BufferEnv) (h : s.ImageInvariant) (hbefore : s.SettledBefore f a)
    (cb : CallbackParcel) :
    ∃ l, ImageVisit s cb a l (prepareCallbackImages env f a (s, cb)).1
        (prepareCallbackImages env f a (s, cb)).2 ∧
      ∀ p < s.numItems, (s.items p).pFrame = f → (s.items p).asInput = a →
        (prepareCallbackImages env f a (s, cb)).1.Settled p := by
  obtain ⟨l, hl, hsettled⟩ := imageVisit_keys env ((s.frames f).itemSet a).items.keys h hbefore cb
  refine ⟨l, hl, fun p hp hframe hdir => ?_⟩
  by_cases hret : (s.items p).isReturned = true
  · exact .inl ((keeps_of_steps hl.steps).returned p hret)
  · have hplace := (h.held p hp (by simpa using hret)).2
    rw [hframe, hdir] at hplace
    exact hsettled p hp hframe hdir (KeyedVector.mem_keys_of_find? hplace)

/-! ### Metadata -/

/-- Nothing about images happens, neither to the handler nor to the parcel. -/
structure MetaVisit (s : FrameHandler) (cb : CallbackParcel) (s' : FrameHandler)
    (cb' : CallbackParcel) : Prop where
  same : SameImages s s'
  images : ∀ a, cb'.images a = cb.images a
  pFrame : cb'.pFrame = cb.pFrame
  valid : cb.valid = true → cb'.valid = true

theorem MetaVisit.refl (s : FrameHandler) (cb : CallbackParcel) : MetaVisit s cb s cb :=
  ⟨.refl s, fun _ => rfl, rfl, id⟩

theorem MetaVisit.trans (h₁ : MetaVisit s cb s₁ cb₁) (h₂ : MetaVisit s₁ cb₁ s' cb') :
    MetaVisit s cb s' cb' :=
  ⟨h₁.same.trans h₂.same, fun a => (h₂.images a).trans (h₁.images a),
    h₂.pFrame.trans h₁.pFrame, fun h => h₂.valid (h₁.valid h)⟩

theorem sameImages_editMetaSet (g : MetaItemSet → MetaItemSet) :
    SameImages s (s.editMetaSet f g) :=
  sameImages_editFrame fun _ a => by cases a <;> rfl

theorem metaVisit_error (s : FrameHandler) (cb : CallbackParcel) (pItem : MetaItem) :
    MetaVisit s cb (s.prepareErrorMetaIfPossible cb pItem).1
      (s.prepareErrorMetaIfPossible cb pItem).2.1 := by
  rw [prepareErrorMetaIfPossible]
  split
  · exact .refl s cb
  · refine ⟨?_, fun a => by cases a <;> rfl, rfl, fun _ => rfl⟩
    dsimp only
    refine sameImages_editFrame fun _ a => ?_
    cases a <;> rfl

theorem metaVisit_shutter (env : BufferEnv) (s : FrameHandler) (cb : CallbackParcel)
    (pItem : MetaItem) :
    MetaVisit s cb (s.prepareShutterNotificationIfPossible env cb pItem).1
      (s.prepareShutterNotificationIfPossible env cb pItem).2 := by
  rw [prepareShutterNotificationIfPossible]
  split
  · split
    · exact .refl s cb
    · refine ⟨?_, fun a => by cases a <;> rfl, rfl, fun _ => rfl⟩
      dsimp only
      refine sameImages_editFrame fun _ a => ?_
      cases a <;> rfl
  · exact .refl s cb

theorem metaVisit_return (s : FrameHandler) (cb : CallbackParcel) (pItem : MetaItem) :
    MetaVisit s cb (s.prepareReturnMeta cb pItem).1 (s.prepareReturnMeta cb pItem).2.1 := by
  refine ⟨?_, fun a => by cases a <;> rfl, rfl, fun _ => rfl⟩
  rw [prepareReturnMeta]
  dsimp only
  exact sameImages_editMetaSet _

theorem metaVisit_key (env : BufferEnv) (f : FramePtr) (s : FrameHandler) (cb : CallbackParcel)
    (k : StreamId) :
    MetaVisit s cb (prepareCallbackMeta env f (s, cb) k).1
      (prepareCallbackMeta env f (s, cb) k).2 := by
  have hedit : ∀ (s' : FrameHandler) (cb' : CallbackParcel) (g : MetaItemSet → MetaItemSet),
      MetaVisit s' cb' (s'.editMetaSet f g) cb' := fun s' cb' g =>
    ⟨sameImages_editMetaSet g, fun _ => rfl, rfl, id⟩
  rw [prepareCallbackMeta]
  split
  · rename_i pItem _
    dsimp only
    refine .trans ?_ (hedit _ _ _)
    split
    · split
      · exact (metaVisit_shutter env s cb pItem).trans (metaVisit_return _ _ pItem)
      · exact .refl s cb
    · split
      · exact metaVisit_error s cb pItem
      · exact .refl s cb
    · exact .refl s cb
  · exact .refl s cb

theorem metaVisit_set (env : BufferEnv) (f : FramePtr) (s : FrameHandler)
    (cb : CallbackParcel) :
    MetaVisit s cb (prepareCallbackMetas env f (s, cb)).1
      (prepareCallbackMetas env f (s, cb)).2 := by
  rw [prepareCallbackMetas]
  generalize (s.frames f).vOutputMetaItem.items.keys = ks
  induction ks generalizing s cb with
  | nil => exact .refl s cb
  | cons k ks ih => exact (metaVisit_key env f s cb k).trans (ih _ _)

/-! ### One frame -/

theorem state_of_requestError (h : s.ImageInvariant) (herror : checkRequestError (s.frames f) > 0)
    (hp : p < s.numItems) (hframe : (s.items p).pFrame = f)
    (hdir : (s.items p).asInput = false) : (s.items p).state = .error := by
  have hcount : (s.itemSet f false).numErrorStreams = (s.itemSet f false).items.size := by
    rw [checkRequestError] at herror
    split_ifs at herror with h₁ h₂
    · omega
    · exact h₂.1
    · omega
  rw [(h.set f false).error] at hcount
  simpa using h.forall_of_countItems hcount hp hframe hdir

theorem imageVisit_errorFrame (ks : List StreamId) (h : s.ImageInvariant)
    (herror : ∀ p < s.numItems, (s.items p).pFrame = f → (s.items p).asInput = false →
      (s.items p).state = .error)
    {x : FrameHandler × CallbackParcel}
    (hx : ks.foldlM (prepareErrorFrameImage f) (s, cb) = .ok x) :
    ∃ l, ImageVisit s cb false l x.1 x.2 := by
  induction ks generalizing s cb with
  | nil =>
    obtain rfl : (s, cb) = x := by simpa [pure, Except.pure] using hx
    exact ⟨[], .refl s cb false⟩
  | cons k ks ih =>
    rw [List.foldlM_cons] at hx
    cases hstep : prepareErrorFrameImage f (s, cb) k with
    | error e => simp [hstep, bind, Except.bind] at hx
    | ok y =>
      rw [hstep] at hx
      rw [prepareErrorFrameImage] at hstep
      split at hstep
      · rename_i p hfind
        obtain ⟨hp, hframe, hdir, -⟩ := h.entry f false k p hfind
        have hstate := herror p hp hframe hdir
        have hvisit : ∃ l, ImageVisit s cb false l (s.prepareReturnImage cb p).1
            (s.prepareReturnImage cb p).2 := by
          cases hret : (s.items p).isReturned with
          | true =>
            have hbit : (s.items p).history.hasBit HistoryBit.returned = true := hret
            rw [prepareReturnImage]
            simp only [hbit, if_true]
            refine ⟨[], .of_steps .refl (fun a => ?_) rfl fun _ => rfl⟩
            cases a <;> rfl
          | false =>
            have hl := ImageVisit.returnItem cb hp hret (by simp [hstate])
              fun hne => absurd hstate hne
            rw [hdir] at hl
            exact ⟨_, hl⟩
        obtain ⟨l₁, hl₁⟩ := hvisit
        cases hstep
        have hkeeps := keeps_of_steps hl₁.steps
        obtain ⟨l₂, hl₂⟩ := ih (invariant_of_steps hl₁.steps h)
          (fun q hq hqframe hqdir => by
            rw [hkeeps.pFrame] at hqframe
            rw [hkeeps.asInput] at hqdir
            rw [hkeeps.state]
            exact herror q (hkeeps.numItems ▸ hq) hqframe hqdir) hx
        exact ⟨l₁ ++ l₂, hl₁.trans hl₂⟩
      · cases hstep

structure FrameVisit (s : FrameHandler) (f : FramePtr) (s' : FrameHandler)
    (cb : CallbackParcel) : Prop where
  steps : StepsOf PassStep s cb.allImages s'
  pFrame : cb.pFrame = f
  valid : cb.allImages ≠ [] → cb.valid = true
  settled : ∀ q < s.numItems, (s.items q).pFrame ≤ f → s'.Settled q

theorem frameVisit_of_images (env : BufferEnv) (h : s.ImageInvariant)
    (hbefore : ∀ q < s.numItems, (s.items q).pFrame < f → s.Settled q)
    (hfalse : cb.images false = []) (htrue : cb.images true = []) (hpFrame : cb.pFrame = f)
    (hl₁ : ImageVisit s cb false l₁ s₁ cb₁)
    (houtput : ∀ q < s.numItems, (s.items q).pFrame = f → (s.items q).asInput = false →
      s₁.Settled q) :
    FrameVisit s f (prepareCallbackImages env f true (s₁, cb₁)).1
      (prepareCallbackImages env f true (s₁, cb₁)).2 := by
  have hkeeps₁ := keeps_of_steps hl₁.steps
  have hbefore₁ : s₁.SettledBefore f true := fun q hq hcase => by
    rw [hkeeps₁.numItems] at hq
    rw [hkeeps₁.pFrame, hkeeps₁.asInput] at hcase
    rcases hcase with hlt | ⟨hframe, hdir, -⟩
    · exact (hbefore q hq hlt).keeps hkeeps₁
    · exact houtput q hq hframe hdir
  obtain ⟨l₂, hl₂, hinput⟩ := imageVisit_set env (invariant_of_steps hl₁.steps h) hbefore₁ cb₁
  have hkeeps₂ := keeps_of_steps hl₂.steps
  have hall : (prepareCallbackImages env f true (s₁, cb₁)).2.allImages = l₁ ++ l₂ := by
    have hout : (prepareCallbackImages env f true (s₁, cb₁)).2.vOutputImageItem = l₁ :=
      hl₂.other.trans (hl₁.images.trans (by rw [hfalse, List.nil_append]))
    have hin : (prepareCallbackImages env f true (s₁, cb₁)).2.vInputImageItem = l₂ := by
      have hempty : cb₁.images true = [] := hl₁.other.trans htrue
      exact hl₂.images.trans (by rw [hempty, List.nil_append])
    rw [CallbackParcel.allImages, hout, hin]
  refine ⟨hall ▸ hl₁.steps.trans hl₂.steps, (hl₂.pFrame.trans hl₁.pFrame).trans hpFrame,
    fun hne => ?_, fun q hq hle => ?_⟩
  · rw [hall, ne_eq, List.append_eq_nil_iff, not_and_or] at hne
    exact hl₂.valid (hne.imp_left fun hne => hl₁.valid (.inr hne))
  · rcases Nat.lt_or_eq_of_le hle with hlt | heq
    · exact ((hbefore q hq hlt).keeps hkeeps₁).keeps hkeeps₂
    · cases hdir : (s.items q).asInput with
      | false => exact (houtput q hq heq hdir).keeps hkeeps₂
      | true =>
        refine hinput q (hkeeps₁.numItems ▸ hq) ?_ ?_
        · rw [hkeeps₁.pFrame, heq]
        · rw [hkeeps₁.asInput, hdir]

/-- **The visit of a frame** by a pass that has settled the frames before it. -/
theorem frameVisit_prepareFrame (env : BufferEnv) (h : s.ImageInvariant)
    (hbefore : ∀ q < s.numItems, (s.items q).pFrame < f → s.Settled q)
    (hx : prepareFrame env f s = .ok (s', cb)) : FrameVisit s f s' cb := by
  rw [prepareFrame] at hx
  split at hx
  · rename_i herror
    split at hx
    · cases hx
    · rename_i x hprepare
      rw [prepareErrorFrame] at hprepare
      split at hprepare
      · cases hprepare
      · rename_i s₁ cb₁ hfold
        have hstate := fun p hp hframe hdir =>
          state_of_requestError h herror (p := p) hp hframe hdir
        obtain ⟨l₁, hl₁⟩ := imageVisit_errorFrame _ h hstate hfold
        cases hprepare
        have hkeeps₁ := keeps_of_steps hl₁.steps
        have hmark : ImageVisit s₁ cb₁ false [] (s₁.editFrame f fun frame =>
            { frame with errors := frame.errors.markBit HistoryBit.errorSentFrame }) cb₁ :=
          .of_steps (.single (.other (sameImages_editFrame fun _ a => by cases a <;> rfl)))
            (fun _ => rfl) rfl id
        have hvisit := frameVisit_of_images env h hbefore rfl rfl rfl (hl₁.trans hmark)
          fun q hq hframe hdir =>
            .inr (.inr (.inl ((hkeeps₁.state q).trans (hstate q hq hframe hdir))))
        rw [Except.ok.injEq] at hx
        rw [hx] at hvisit
        exact hvisit
  · have hmeta := metaVisit_set env f s
      { frameNo := (s.frames f).frameNo, pFrame := f,
        timestampShutter := (s.frames f).timestampShutter }
    have hmetaStep := StepsOf.single (R := PassStep) (.other hmeta.same)
    have hkeeps := keeps_of_steps hmetaStep
    have hbefore₁ : SettledBefore _ f false := fun q hq hcase => by
      rw [hkeeps.numItems] at hq
      rw [hkeeps.pFrame] at hcase
      exact (hbefore q hq (hcase.resolve_right fun h => by simpa using h.2.2)).keeps hkeeps
    obtain ⟨l₁, hl₁, houtput⟩ := imageVisit_set env (h.congr hmeta.same) hbefore₁ _
    have hvisit := frameVisit_of_images env h hbefore rfl rfl rfl
      ((ImageVisit.of_steps hmetaStep hmeta.images hmeta.pFrame hmeta.valid).trans hl₁)
      fun q hq hframe hdir => houtput q (hkeeps.numItems ▸ hq) ((hkeeps.pFrame q).trans hframe)
        ((hkeeps.asInput q).trans hdir)
    rw [Except.ok.injEq] at hx
    rw [hx] at hvisit
    exact hvisit

/-! ### The pass -/

theorem steps_removeFrame (s : FrameHandler) (f : FramePtr) :
    StepsOf PassStep s [] (s.removeFrame f) := by
  rw [removeFrame]
  split
  · rename_i hremovable
    refine .single (.remove fun a => ?_)
    rw [isFrameRemovable] at hremovable
    by_cases hout : (s.frames f).vOutputImageItem.items.size =
        (s.frames f).vOutputImageItem.numReturnedStreams
    · by_cases hin : (s.frames f).vInputImageItem.items.size =
          (s.frames f).vInputImageItem.numReturnedStreams
      · cases a with
        | false => exact hout
        | true => exact hin
      · simp [hin] at hremovable
    · simp [hout] at hremovable
  · exact .refl

theorem steps_updateFrames (env : BufferEnv) (fs : List FramePtr) (h : s.ImageInvariant)
    (hsorted : fs.Pairwise (· < ·))
    (hbefore : ∀ q < s.numItems, (s.items q).pFrame ∉ fs → s.Settled q)
    {cbs : List CallbackParcel} (hx : updateFrames env fs s = .ok (s', cbs)) :
    StepsOf PassStep s (cbs.flatMap CallbackParcel.allImages) s' := by
  induction fs generalizing s cbs with
  | nil =>
    cases hx
    exact .refl
  | cons f fs ih =>
    rw [List.pairwise_cons] at hsorted
    rw [updateFrames] at hx
    split at hx
    · cases hx
      exact .refl
    · split at hx
      · cases hx
      · rename_i s₁ cb hprepare
        split at hx
        · cases hx
        · rename_i s₂ cbs₂ hrest
          cases hx
          have hvisit := frameVisit_prepareFrame env h (fun q hq hlt => by
            refine hbefore q hq fun hmem => ?_
            rcases List.mem_cons.mp hmem with heq | hmem
            · exact Nat.ne_of_lt hlt heq
            · exact Nat.lt_asymm hlt (hsorted.1 _ hmem)) hprepare
          have hsteps := hvisit.steps.trans (steps_removeFrame s₁ f)
          have hkeeps := keeps_of_steps hsteps
          have hrun := ih (invariant_of_steps hsteps h) hsorted.2 (fun q hq hnot => by
            rw [hkeeps.numItems] at hq
            rw [hkeeps.pFrame] at hnot
            by_cases heq : (s.items q).pFrame = f
            · exact (hvisit.settled q hq heq.le).keeps
                (keeps_of_steps (steps_removeFrame s₁ f))
            · exact (hbefore q hq fun hmem =>
                (List.mem_cons.mp hmem).elim heq hnot).keeps hkeeps) hrest
          have hall := hsteps.trans hrun
          rw [List.append_nil] at hall
          rw [List.flatMap_append]
          split_ifs with hvalid
          · simpa using hall
          · have hempty : cb.allImages = [] := by
              by_contra hne
              exact hvalid (hvisit.valid hne)
            simpa [hempty] using hall

/-- **A pass takes primitive steps**, and hands back what its parcels carry. -/
theorem steps_updateCallbacks (env : BufferEnv) (h : s.ImageInvariant)
    {cbs : List CallbackParcel} (hx : s.updateCallbacks env = .ok (s', cbs)) :
    StepsOf PassStep s (cbs.flatMap CallbackParcel.allImages) s' := by
  refine steps_updateFrames env s.mFrameQueue h h.sorted (fun q hq hnot => ?_) hx
  by_contra hunsettled
  exact hnot (h.held q hq (by simpa using fun hret => hunsettled (.inl hret))).1

end FrameHandler

end MtkHardware.AppStream
