import MtkHardware.AppStream.MetaReturn

/-!
# Accesses of the Frame Handler

The accesses of the frame handler that could go wrong: `isReturnable` walks along the frame
queue and looks at the last entry of the metadata sets on its way, `isFrameRemovable` looks
at the last entry of the metadata set of its frame, and `prepareErrorFrame` uses the output
images of its frame. The functions here make the same accesses and fault where the source
would leave a vector or use a `NULL` item.
-/

namespace MtkHardware.AppStream

open Pipeline

inductive AccessFault
  | emptyVector
  | nullItem
  | endOfQueue
  deriving DecidableEq, Repr

namespace FrameHandler

variable {s s' s₁ : FrameHandler} {cbs : List CallbackParcel} {cb : CallbackParcel}
  {f g : FramePtr} {k : StreamId} {env : BufferEnv} {n : ℕ} {streams : List StreamId}
  {ops : List Op} {op : Op} {x y : FrameHandler × CallbackParcel} {P : ℕ → Bool → Prop}

/-! ### The checked functions -/

/-- `valueAt(size - 1)`. -/
def lastValue (set : MetaItemSet) : Except AccessFault (Option MetaItem) :=
  match set.items.last? with
  | none => .error .emptyVector
  | some (_, pItem) => .ok pItem

/-- The walk of `isReturnable` along the frame queue. -/
def returnableWalk (s : FrameHandler) (pFrame : FramePtr) :
    List FramePtr → Except AccessFault Bool
  | [] => .error .endOfQueue
  | f :: fs =>
    if f = pFrame then .ok true
    else if (s.metaSet f).items.size = 0 then .ok false
    else
      match lastValue (s.metaSet f) with
      | .error e => .error e
      | .ok pMetaItem =>
        if ((s.metaSet f).hasLastPartial && pMetaItem.isSome) ||
            (!(s.metaSet f).hasLastPartial && pMetaItem.isNone) then .ok false
        else s.returnableWalk pFrame fs

/-- `isReturnable` of a metadata item, with its accesses. -/
def isReturnableMetaChecked (s : FrameHandler) (pItem : MetaItem) : Except AccessFault Bool :=
  if pItem.bufferNo = s.mAtMostMetaStreamCount then s.returnableWalk pItem.pFrame s.mFrameQueue
  else .ok true

/-- `isFrameRemovable`, with its accesses. -/
def isFrameRemovableChecked (s : FrameHandler) (f : FramePtr) : Except AccessFault Bool :=
  let pFrame := s.frames f
  if pFrame.vOutputImageItem.items.size ≠ pFrame.vOutputImageItem.numReturnedStreams then
    .ok false
  else if pFrame.vInputImageItem.items.size ≠ pFrame.vInputImageItem.numReturnedStreams then
    .ok false
  else if pFrame.errors.hasBit HistoryBit.errorSentFrame then .ok true
  else if pFrame.errors.hasBit HistoryBit.errorSentMeta then .ok true
  else
    match lastValue pFrame.vOutputMetaItem with
    | .error e => .error e
    | .ok pItem =>
      if !pFrame.vOutputMetaItem.hasLastPartial || pItem.isSome then .ok false
      else .ok (pFrame.timestampShutter ≠ 0)

/-- One turn of `prepareCallbackIfPossible` on a metadata set: the accesses of `isReturnable`
come first. -/
def prepareCallbackMetaChecked (env : BufferEnv) (f : FramePtr)
    (x : FrameHandler × CallbackParcel) (k : StreamId) :
    Except AccessFault (FrameHandler × CallbackParcel) :=
  match x.1.metaEntry f k with
  | some (some pItem) =>
    if pItem.state = .valid ∧ pItem.history.hasBit HistoryBit.returned = false then
      match x.1.isReturnableMetaChecked pItem with
      | .error e => .error e
      | .ok _ => .ok (prepareCallbackMeta env f x k)
    else .ok (prepareCallbackMeta env f x k)
  | _ => .ok x

def prepareFrameChecked (env : BufferEnv) (f : FramePtr) (s : FrameHandler) :
    Except AccessFault (FrameHandler × CallbackParcel) :=
  if checkRequestError (s.frames f) > 0 then
    match s.prepareErrorFrame (s.emptyParcel f) f with
    | .error .nullItem => .error .nullItem
    | .ok x => .ok (prepareCallbackImages env f true x)
  else
    match (s.metaSet f).items.keys.foldlM (prepareCallbackMetaChecked env f)
        (s, s.emptyParcel f) with
    | .error e => .error e
    | .ok x => .ok (prepareCallbackImages env f true (prepareCallbackImages env f false x))

def updateFramesChecked (env : BufferEnv) :
    List FramePtr → FrameHandler → Except AccessFault (FrameHandler × List CallbackParcel)
  | [], s => .ok (s, [])
  | f :: fs, s =>
    if (s.frames f).frameNo.isAfter s.latestResultFrameNo then .ok (s, [])
    else
      match prepareFrameChecked env f s with
      | .error e => .error e
      | .ok (s₁, cb) =>
        match s₁.isFrameRemovableChecked f with
        | .error e => .error e
        | .ok removable =>
          match updateFramesChecked env fs
              (if removable then { s₁ with mFrameQueue := s₁.mFrameQueue.erase f }
                else s₁) with
          | .error e => .error e
          | .ok (s₂, cbs) => .ok (s₂, (if cb.valid then [cb] else []) ++ cbs)

def accessMachine : Machine FrameHandler Op CallbackParcel AccessFault
  | s, .registerFrame rRequest => .ok (s.registerFrame rRequest, [])
  | s, .updateResults env rvResult => .ok (s.updateResults env rvResult, [])
  | s, .updateCallbacks env => updateFramesChecked env s.mFrameQueue s

/-! ### `isReturnable` -/

theorem returnableWalk_eq (s : FrameHandler) (fs : List FramePtr) (hf : f ∈ fs) :
    s.returnableWalk f fs = .ok ((fs.takeWhile (· ≠ f)).all fun f =>
      !(s.frames f).vOutputMetaItem.blocksFinal) := by
  induction fs with
  | nil => simp at hf
  | cons g fs ih =>
    rw [returnableWalk]
    by_cases hg : g = f
    · simp [hg]
    · have hmem := ih ((List.mem_cons.mp hf).resolve_left (Ne.symm hg))
      have hwalk : (g :: fs).takeWhile (· ≠ f) = g :: fs.takeWhile (· ≠ f) :=
        List.takeWhile_cons_of_pos (by simpa using hg)
      rw [if_neg hg, hwalk, List.all_cons]
      cases hlast : (s.metaSet g).items.last? with
      | none =>
        -- the guard keeps the walk away from an empty vector
        have hempty : (s.metaSet g).items.size = 0 := by
          rw [KeyedVector.last?, List.getLast?_eq_none_iff] at hlast
          rw [KeyedVector.size, hlast]
          rfl
        have hblocks : (s.frames g).vOutputMetaItem.blocksFinal = true := by
          rw [MetaItemSet.blocksFinal, show (s.frames g).vOutputMetaItem.items.last? = none
            from hlast]
        rw [if_pos hempty, hblocks]
        rfl
      | some e =>
        have hsize : (s.metaSet g).items.size ≠ 0 := by
          intro hempty
          rw [KeyedVector.last?, List.eq_nil_of_length_eq_zero hempty] at hlast
          cases hlast
        have hblocks : (s.frames g).vOutputMetaItem.blocksFinal =
            ((s.metaSet g).hasLastPartial && e.2.isSome ||
              !(s.metaSet g).hasLastPartial && e.2.isNone) := by
          rw [MetaItemSet.blocksFinal, show (s.frames g).vOutputMetaItem.items.last? = some e
            from hlast]
          rfl
        rw [if_neg hsize, lastValue, hlast, hblocks]
        dsimp only
        split_ifs with hblock
        · rw [hblock]
          rfl
        · rw [hmem, Bool.eq_false_iff.mpr hblock]
          rfl

/-- **The accesses of `isReturnable` are safe** for an item of a frame in the queue. -/
theorem isReturnableMetaChecked_eq {pItem : MetaItem} (hf : pItem.pFrame ∈ s.mFrameQueue) :
    s.isReturnableMetaChecked pItem = .ok (s.isReturnableMeta pItem) := by
  rw [isReturnableMetaChecked, isReturnableMeta]
  split_ifs
  · exact returnableWalk_eq s s.mFrameQueue hf
  · rfl

theorem prepareCallbackMetasChecked_eq (env : BufferEnv) (ks : List StreamId)
    (hf : f ∈ x.1.mFrameQueue) (hhome : x.1.MetasHome f) :
    ks.foldlM (prepareCallbackMetaChecked env f) x =
      .ok (ks.foldl (prepareCallbackMeta env f) x) := by
  induction ks generalizing x with
  | nil => rfl
  | cons k ks ih =>
    have hturn : prepareCallbackMetaChecked env f x k = .ok (prepareCallbackMeta env f x k) := by
      rw [prepareCallbackMetaChecked]
      split
      · rename_i pItem hentry
        rw [isReturnableMetaChecked_eq (by rw [hhome k pItem hentry]; exact hf)]
        split_ifs <;> rfl
      · rename_i hnone
        rw [prepareCallbackMeta]
        split
        · rename_i pItem hentry
          exact absurd hentry (hnone pItem)
        · rfl
    obtain ⟨l, es, heffect⟩ := metaEffect_key env hhome k
    rw [List.foldlM_cons, hturn, List.foldl_cons]
    exact ih (heffect.queue.mFrameQueue ▸ hf) (heffect.home hhome)

/-! ### `prepareErrorFrame` and `isFrameRemovable` -/

/-- No output image of the frame has been set to `NULL`. -/
def OutputsLeft (s : FrameHandler) (f : FramePtr) : Prop :=
  ∀ k ∈ (s.itemSet f false).items.keys, s.entry f false k ≠ some none

theorem errorFrameImages_ok_iff (ks : List StreamId)
    (hks : ∀ k ∈ ks, ∃ e, x.1.entry f false k = some e) :
    (∃ y, ks.foldlM (prepareErrorFrameImage f) x = .ok y) ↔
      ∀ k ∈ ks, x.1.entry f false k ≠ some none := by
  induction ks generalizing x with
  | nil => exact ⟨fun _ => by simp, fun _ => ⟨x, rfl⟩⟩
  | cons k ks ih =>
    obtain ⟨⟨e, he⟩, hrest⟩ := List.forall_mem_cons.mp hks
    rw [List.foldlM_cons, List.forall_mem_cons, he]
    cases e with
    | none =>
      have hfault : prepareErrorFrameImage f x k = .error .nullItem := by
        rw [prepareErrorFrameImage, show (x.1.frames f).vOutputImageItem.items.find? k = _
          from he]
      rw [hfault]
      refine ⟨fun hy => ?_, fun h => absurd rfl h.1⟩
      obtain ⟨y, hy⟩ := hy
      cases hy
    | some p =>
      have hturn : prepareErrorFrameImage f x k = .ok (x.1.prepareReturnImage x.2 p) := by
        rw [prepareErrorFrameImage, show (x.1.frames f).vOutputImageItem.items.find? k = _
          from he]
      have hentry : ∀ k', (x.1.prepareReturnImage x.2 p).1.entry f false k' =
          x.1.entry f false k' := fun k' => entry_prepareReturnImage ..
      have hnext := ih (x := x.1.prepareReturnImage x.2 p)
        fun k' hk' => (hentry k').symm ▸ hrest k' hk'
      simp only [hentry] at hnext
      rw [hturn]
      exact hnext.trans ⟨fun h => ⟨by simp, h⟩, fun h => h.2⟩

/-- **When `prepareErrorFrame` uses no `NULL` item.** -/
theorem prepareErrorFrame_ok_iff (s : FrameHandler) (cb : CallbackParcel) (f : FramePtr) :
    (∃ x, s.prepareErrorFrame cb f = .ok x) ↔ s.OutputsLeft f := by
  have hks : ∀ k ∈ (s.itemSet f false).items.keys, ∃ e, s.entry f false k = some e :=
    fun k hk => KeyedVector.mem_keys_iff.mp hk
  rw [OutputsLeft, ← errorFrameImages_ok_iff (x := (s, { cb with
    valid := true
    vError := cb.vError ++ [{ errorCode := .errorRequest }] })) _ hks, prepareErrorFrame]
  constructor
  · rintro ⟨x, hx⟩
    split at hx
    · cases hx
    · exact ⟨_, ‹_›⟩
  · rintro ⟨y, hy⟩
    rw [show (s.frames f).vOutputImageItem.items.keys = (s.itemSet f false).items.keys from rfl, hy]
    exact ⟨_, rfl⟩

/-- All images of the frame have been returned and no error of the frame has been sent:
`isFrameRemovable` comes to the metadata. -/
def AsksMetadata (s : FrameHandler) (f : FramePtr) : Prop :=
  (∀ a, (s.itemSet f a).items.size = (s.itemSet f a).numReturnedStreams) ∧
    s.hasError f HistoryBit.errorSentFrame = false ∧ s.hasError f HistoryBit.errorSentMeta = false

instance (s : FrameHandler) (f : FramePtr) : Decidable (s.OutputsLeft f) :=
  inferInstanceAs (Decidable (∀ k ∈ _, _))

instance (s : FrameHandler) (f : FramePtr) : Decidable (s.AsksMetadata f) :=
  inferInstanceAs (Decidable (_ ∧ _ ∧ _))

/-- **When `isFrameRemovable` stays inside the metadata set.** -/
theorem isFrameRemovableChecked_ok_iff (s : FrameHandler) (f : FramePtr) :
    (∃ removable, s.isFrameRemovableChecked f = .ok removable) ↔
      (s.AsksMetadata f → 0 < (s.metaSet f).items.size) := by
  have hlast : (∃ pItem, lastValue (s.frames f).vOutputMetaItem = .ok pItem) ↔
      0 < (s.metaSet f).items.size := by
    rw [lastValue]
    cases hlast : (s.frames f).vOutputMetaItem.items.last? with
    | none =>
      rw [KeyedVector.last?, List.getLast?_eq_none_iff] at hlast
      rw [metaSet, KeyedVector.size, hlast]
      simp
    | some e =>
      refine ⟨fun _ => Nat.pos_of_ne_zero fun hempty => ?_, fun _ => ⟨e.2, rfl⟩⟩
      have hnil : (s.frames f).vOutputMetaItem.items.entries = [] :=
        List.eq_nil_of_length_eq_zero hempty
      rw [KeyedVector.last?, hnil] at hlast
      cases hlast
  rw [isFrameRemovableChecked, AsksMetadata, Bool.forall_bool]
  split_ifs with hout hin hframe hmeta
  · exact ⟨fun _ h => absurd h.1.1 hout, fun _ => ⟨_, rfl⟩⟩
  · exact ⟨fun _ h => absurd h.1.2 hin, fun _ => ⟨_, rfl⟩⟩
  · exact ⟨fun _ h => absurd (hframe.symm.trans h.2.1) (by decide), fun _ => ⟨_, rfl⟩⟩
  · exact ⟨fun _ h => absurd (hmeta.symm.trans h.2.2) (by decide), fun _ => ⟨_, rfl⟩⟩
  · rw [not_not] at hout hin
    have hasks : (((s.itemSet f false).items.size = (s.itemSet f false).numReturnedStreams ∧
        (s.itemSet f true).items.size = (s.itemSet f true).numReturnedStreams) ∧
          s.hasError f HistoryBit.errorSentFrame = false ∧
          s.hasError f HistoryBit.errorSentMeta = false) :=
      ⟨⟨hout, hin⟩, Bool.eq_false_iff.mpr hframe, Bool.eq_false_iff.mpr hmeta⟩
    rw [← hlast]
    constructor
    · rintro ⟨removable, h⟩ -
      split at h
      · cases h
      · exact ⟨_, ‹_›⟩
    · intro h
      obtain ⟨pItem, hpItem⟩ := h hasks
      rw [hpItem]
      dsimp only
      split_ifs
      · exact ⟨_, rfl⟩
      · exact ⟨_, rfl⟩

theorem isFrameRemovable_of_checked {removable : Bool}
    (h : s.isFrameRemovableChecked f = .ok removable) : s.isFrameRemovable f = removable := by
  rw [isFrameRemovableChecked] at h
  rw [isFrameRemovable]
  split_ifs at h with hout hin hframe hmeta
  · rw [if_pos hout]
    exact Except.ok.inj h
  · rw [if_neg hout, if_pos hin]
    exact Except.ok.inj h
  · rw [if_neg hout, if_neg hin, if_pos hframe]
    exact Except.ok.inj h
  · rw [if_neg hout, if_neg hin, if_neg hframe, if_pos hmeta]
    exact Except.ok.inj h
  · rw [if_neg hout, if_neg hin, if_neg hframe, if_neg hmeta]
    cases hlast : lastValue (s.frames f).vOutputMetaItem with
    | error e =>
      rw [hlast] at h
      cases h
    | ok pItem =>
      have hitem : (s.frames f).vOutputMetaItem.lastItem = pItem := by
        rw [lastValue] at hlast
        rw [MetaItemSet.lastItem]
        split at hlast
        · cases hlast
        · rename_i hfind
          rw [hfind]
          exact Except.ok.inj hlast
      rw [hlast] at h
      rw [hitem]
      dsimp only at h
      split_ifs at h ⊢ with hblock
      · exact Except.ok.inj h
      · exact Except.ok.inj h

/-! ### Passes -/

/-- The condition for the accesses of a pass: no request error has lost an output image, and
no frame of which all images have been returned without an error has got no metadata. -/
def AccessCondition : StepCondition where
  visit _ s f := checkRequestError (s.frames f) > 0 → s.OutputsLeft f
  removal s f := s.AsksMetadata f → 0 < (s.metaSet f).items.size

instance (env : BufferEnv) (r : ResultItem) : Decidable (AccessCondition.apply env s f r) :=
  inferInstanceAs (Decidable True)

instance (env : BufferEnv) : Decidable (AccessCondition.visit env s f) :=
  inferInstanceAs (Decidable (_ → s.OutputsLeft f))

instance : Decidable (AccessCondition.removal s f) :=
  inferInstanceAs (Decidable (s.AsksMetadata f → _))

theorem prepareFrame_eq (env : BufferEnv) (f : FramePtr) (s : FrameHandler) :
    prepareFrame env f s =
      if checkRequestError (s.frames f) > 0 then
        match s.prepareErrorFrame (s.emptyParcel f) f with
        | .error e => .error e
        | .ok x => .ok (prepareCallbackImages env f true x)
      else .ok (prepareCallbackImages env f true (prepareCallbackImages env f false
        (prepareCallbackMetas env f (s, s.emptyParcel f)))) := rfl

theorem prepareFrameChecked_ok_iff (hf : f ∈ s.mFrameQueue) (hhome : s.MetasHome f)
    (y : FrameHandler × CallbackParcel) :
    prepareFrameChecked env f s = .ok y ↔ prepareFrame env f s = .ok y := by
  rw [prepareFrameChecked, prepareFrame_eq]
  split_ifs
  · cases s.prepareErrorFrame (s.emptyParcel f) f with
    | error e =>
      cases e
      simp
    | ok x =>
      dsimp only
      rw [Except.ok.injEq, Except.ok.injEq]
  · have hmetas := prepareCallbackMetasChecked_eq (x := (s, s.emptyParcel f)) env
      (s.metaSet f).items.keys hf hhome
    rw [hmetas]
    dsimp only
    rw [Except.ok.injEq, Except.ok.injEq, prepareCallbackMetas]
    exact Iff.rfl

theorem exists_prepareFrame_iff (s : FrameHandler) (f : FramePtr) :
    (∃ y, prepareFrame env f s = .ok y) ↔
      (checkRequestError (s.frames f) > 0 → s.OutputsLeft f) := by
  rw [prepareFrame_eq]
  split_ifs with hverdict
  · rw [← prepareErrorFrame_ok_iff s (s.emptyParcel f) f]
    refine ⟨fun ⟨y, hy⟩ _ => ?_, fun h => ?_⟩
    · cases hx : s.prepareErrorFrame (s.emptyParcel f) f with
      | error e =>
        rw [hx] at hy
        cases hy
      | ok x => exact ⟨x, rfl⟩
    · obtain ⟨x, hx⟩ := h hverdict
      rw [hx]
      exact ⟨_, rfl⟩
  · exact ⟨fun _ h => absurd h hverdict, fun _ => ⟨_, rfl⟩⟩

theorem updateFramesChecked_ok_iff (env : BufferEnv) (fs : List FramePtr)
    (hloop : FrameLoop s fs) (hmeta : MetaInvariant P s cbs) :
    (∃ y, updateFramesChecked env fs s = .ok y) ↔ AccessCondition.OnFrames env fs s := by
  induction fs generalizing s cbs with
  | nil => exact ⟨fun _ => trivial, fun _ => ⟨_, rfl⟩⟩
  | cons f fs ih =>
    have hf := hloop.subset List.mem_cons_self
    have hhome := (hmeta f).home
    rw [updateFramesChecked, StepCondition.OnFrames]
    cases hafter : (s.frames f).frameNo.isAfter s.latestResultFrameNo with
    | true => simp
    | false =>
      simp only [Bool.false_eq_true, if_false, true_implies]
      cases hx : prepareFrameChecked env f s with
      | error e =>
        -- the visit faults
        have hnone : ¬ ∃ y, prepareFrame env f s = .ok y := fun ⟨y, hy⟩ => by
          rw [(prepareFrameChecked_ok_iff hf hhome y).mpr hy] at hx
          cases hx
        refine ⟨fun ⟨y, hy⟩ => by simp at hy, fun h => ?_⟩
        exact absurd ((exists_prepareFrame_iff s f).mpr h.1) hnone
      | ok y =>
        obtain ⟨s₁, cb⟩ := y
        have hprepare := (prepareFrameChecked_ok_iff hf hhome (s₁, cb)).mp hx
        have hvisitC := (exists_prepareFrame_iff s f).mp ⟨_, hprepare⟩
        obtain ⟨hvisit, hloop'⟩ := hloop.next hprepare
        have hmeta' := (keeps_metaInvariant {} P).visit s cbs env f s₁ cb hloop.images hf
          trivial hprepare hvisit trivial hmeta
        have hrest := ih hloop' hmeta'
        dsimp only
        cases hremovable : s₁.isFrameRemovableChecked f with
        | error e =>
          have hnot : ¬ (s₁.AsksMetadata f → 0 < (s₁.metaSet f).items.size) := by
            rw [← isFrameRemovableChecked_ok_iff, hremovable]
            simp
          refine ⟨fun ⟨y, hy⟩ => by simp at hy, fun h => ?_⟩
          exact absurd (h.2 s₁ cb hprepare).1 hnot
        | ok removable =>
          have hremovalC : s₁.AsksMetadata f → 0 < (s₁.metaSet f).items.size :=
            (isFrameRemovableChecked_ok_iff s₁ f).mp ⟨_, hremovable⟩
          have hnext : (if removable = true then
              { s₁ with mFrameQueue := s₁.mFrameQueue.erase f } else s₁) =
                s₁.removeFrame f := by
            rw [removeFrame, isFrameRemovable_of_checked hremovable]
          dsimp only
          rw [hnext]
          constructor
          · rintro ⟨y, hy⟩
            refine ⟨hvisitC, fun s₁' cb' hprepare' => ?_⟩
            rw [hprepare, Except.ok.injEq, Prod.mk.injEq] at hprepare'
            obtain ⟨rfl, rfl⟩ := hprepare'
            refine ⟨hremovalC, hrest.mp ?_⟩
            split at hy
            · cases hy
            · exact ⟨_, ‹_›⟩
          · rintro ⟨-, h⟩
            obtain ⟨y, hy⟩ := hrest.mpr (h s₁ cb hprepare).2
            rw [hy]
            exact ⟨_, rfl⟩

/-- The image of a frame is returned before any metadata of the frame arrives. -/
def imageFirst : List Op :=
  [oneBuffer 1 10 1, oneResult allReleased 1 false []]

def imagePreReleased : BufferEnv where
  image _ := ⟨UserStatus.preRelease, false, false, -1, -1⟩
  metadata _ := ⟨false, false, false, none⟩

def imageFailed : BufferEnv where
  image _ := ⟨UserStatus.release, true, true, -1, -1⟩
  metadata _ := ⟨false, false, false, none⟩

def allFailed : BufferEnv where
  image := imageFailed.image
  metadata _ := ⟨true, true, true, none⟩

/-- An image that has been returned in advance is an error, and then the metadata is. -/
def errorsLate : List Op :=
  [oneBuffer 1 10 1, oneResult imagePreReleased 1 false [⟨30, 7, .metaOut⟩],
    .updateCallbacks imagePreReleased, oneResult imageFailed 1 false [],
    .updateCallbacks imageFailed, oneResult allFailed 1 false []]

def accessFault (s : FrameHandler) (op : Op) : Option AccessFault :=
  match accessMachine s op with
  | .error e => some e
  | .ok _ => none

theorem error_of_accessFault {e : AccessFault} (h : s.accessFault op = some e) :
    accessMachine s op = .error e := by
  rw [accessFault] at h
  split at h
  · rename_i heq
    rw [heq, Option.some_inj.mp h]
  · cases h

end FrameHandler

end MtkHardware.AppStream
