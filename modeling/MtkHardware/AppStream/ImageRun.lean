import MtkHardware.AppStream.ImagePass

/-!
# Image Runs

Every operation of the frame handler takes primitive steps on image items, so the image
invariant holds in every state that a run reaches. Together with it goes what the run has
handed back so far: every item at most once, and the items without an error in the order
of their streams.
-/

namespace MtkHardware.AppStream

open Pipeline (StreamId)

namespace FrameHandler

variable {s s' : FrameHandler} {f : FramePtr} {a : Bool} {k : StreamId} {p q : ImagePtr}
  {o l log : List CallbackParcel.ImageItem}

/-! ### Results -/

theorem imageInvariant_of_steps (h : StepsOf ImageStep s o s') (hinv : s.ImageInvariant) :
    s'.ImageInvariant :=
  h.invariant (I := fun _ s' => s'.ImageInvariant) hinv fun _ _ _ _ h hstep =>
    hstep.invariant h

theorem SameImages.steps (hsame : SameImages s s') : StepsOf ImageStep s [] s' :=
  .single (.pass (.other hsame))

theorem steps_foldl {α : Type*} {g : FrameHandler → α → FrameHandler}
    (hg : ∀ s x, s.ImageInvariant → StepsOf ImageStep s [] (g s x)) (xs : List α)
    (h : s.ImageInvariant) : StepsOf ImageStep s [] (xs.foldl g s) := by
  induction xs generalizing s with
  | nil => exact .refl
  | cons x xs ih => exact (hg s x h).trans (ih (imageInvariant_of_steps (hg s x h) h))

theorem sameImages_updateMetaItem (env : BufferEnv) (f : FramePtr) (s : FrameHandler)
    (k : StreamId) : SameImages s (updateMetaItem env f s k) := by
  rw [updateMetaItem]
  split
  · split
    · split <;> exact sameImages_editMetaSet _
    · exact .refl s
  · exact .refl s

theorem steps_updateImageItem (env : BufferEnv) (f : FramePtr) (a : Bool) (s : FrameHandler)
    (k : StreamId) (h : s.ImageInvariant) :
    StepsOf ImageStep s [] (updateImageItem env f a s k) := by
  rw [updateImageItem]
  split
  · rename_i p hfind
    obtain ⟨hp, -⟩ := h.entry f a k p hfind
    dsimp only
    split
    · rename_i hstate
      split
      · exact .single (.releaseHandler env hp (by simp [hstate]) (by simp [hstate]))
      · split
        · exact .single (.preReleaseHandler env hp hstate)
        · exact .refl
    · rename_i hstate
      split
      · exact .single (.releaseHandler env hp (by simp [hstate]) (by simp [hstate]))
      · exact .refl
    · exact .refl
  · exact .refl

theorem sameImages_addResult (f : FramePtr) (r : ResultItem) (s : FrameHandler) :
    SameImages s (addResult f r s) := by
  have hfold : ∀ (bs : List MetaStreamBuffer) (s : FrameHandler),
      SameImages s (bs.foldl (addMetaItem f) s) := fun bs => by
    induction bs with
    | nil => exact fun s => .refl s
    | cons b bs ih => exact fun s => (sameImages_editMetaSet _).trans (ih _)
  rw [addResult]
  split
  · exact hfold _ s
  · split
    · exact (hfold _ s).trans (sameImages_editMetaSet _)
    · exact hfold _ s

theorem steps_updateImageItemSet (env : BufferEnv) (f : FramePtr) (a : Bool)
    (h : s.ImageInvariant) : StepsOf ImageStep s [] (updateImageItemSet env f a s) :=
  steps_foldl (steps_updateImageItem env f a) _ h

theorem sameImages_updateMetaItemSet (env : BufferEnv) (f : FramePtr) (s : FrameHandler) :
    SameImages s (updateMetaItemSet env f s) := by
  rw [updateMetaItemSet]
  generalize (s.frames f).vOutputMetaItem.items.keys = ks
  induction ks generalizing s with
  | nil => exact .refl s
  | cons k ks ih => exact (sameImages_updateMetaItem env f s k).trans (ih _)

theorem steps_applyResult (env : BufferEnv) (f : FramePtr) (r : ResultItem)
    (h : s.ImageInvariant) : StepsOf ImageStep s [] (applyResult env f r s) := by
  have hmeta := ((sameImages_addResult f r s).trans
    (sameImages_updateMetaItemSet env f (addResult f r s))).steps
  have hinv := imageInvariant_of_steps hmeta h
  have houtput := steps_updateImageItemSet env f false hinv
  have hinput := steps_updateImageItemSet env f true (imageInvariant_of_steps houtput hinv)
  exact (hmeta.trans houtput).trans hinput

theorem steps_applyResults (env : BufferEnv) (rs : List ResultItem) (itFrame : List FramePtr)
    (h : s.ImageInvariant) : StepsOf ImageStep s [] (applyResults env rs itFrame s) := by
  induction rs generalizing s itFrame with
  | nil => exact .refl
  | cons r rs ih =>
    rw [applyResults]
    split
    · exact ih _ h
    · rename_i f _ _
      have hsteps := steps_applyResult env f r h
      exact hsteps.trans (ih _ (imageInvariant_of_steps hsteps h))

/-- **Applying results takes primitive steps**, which hand nothing back. -/
theorem steps_updateResults (env : BufferEnv) (rvResult : ResultQueue)
    (h : s.ImageInvariant) : StepsOf ImageStep s [] (s.updateResults env rvResult) := by
  rw [updateResults]
  split
  · exact .refl
  · have hsteps := steps_applyResults env (rvResult.entries.map Prod.snd) s.mFrameQueue h
    dsimp only
    split
    · exact hsteps
    · split
      · exact hsteps.trans (SameImages.steps ⟨rfl, rfl, rfl, rfl, rfl, fun _ _ => rfl⟩)
      · exact hsteps

/-! ### Registering -/

/-- What registering image buffers leaves, for the buffers of the other direction. -/
structure Registering (s : FrameHandler) (f : FramePtr) (a : Bool) : Prop where
  numFrames : s.numFrames = f + 1
  mFrameQueue : f ∈ s.mFrameQueue
  items : ∀ p < s.numItems, (s.items p).pFrame = f → (s.items p).asInput = true → a = true

theorem steps_registerStreamBuffers (bs : List AppImageStreamBuffer) (h : s.ImageInvariant)
    (hreg : s.Registering f a) (hnodup : (bs.map (·.streamId)).Nodup)
    (hkeys : ∀ b ∈ bs, b.streamId ∉ (s.itemSet f a).items.keys) :
    StepsOf ImageStep s [] (registerStreamBuffers f a bs s) ∧
      (registerStreamBuffers f a bs s).Registering f a ∧
      ∀ a', a' ≠ a → (registerStreamBuffers f a bs s).itemSet f a' = s.itemSet f a' := by
  induction bs generalizing s with
  | nil => exact ⟨.refl, hreg, fun _ _ => rfl⟩
  | cons b bs ih =>
    rw [registerStreamBuffers]
    split
    · exact ⟨.refl, hreg, fun _ _ => rfl⟩
    · rename_i hfind
      rw [List.map_cons, List.nodup_cons] at hnodup
      have hstep : ImageStep s [] (s.registerItem f a b) := by
        refine .registerItem hreg.numFrames hreg.mFrameQueue
          (KeyedVector.mem_keys_of_find? hfind) (hkeys b List.mem_cons_self)
          fun ha p hp hframe => ?_
        by_contra hdir
        rw [Bool.not_eq_false] at hdir
        rw [hreg.items p hp hframe hdir] at ha
        cases ha
      have hreg' : (s.registerItem f a b).Registering f a := by
        refine ⟨hreg.numFrames, hreg.mFrameQueue, fun p hp hframe hdir => ?_⟩
        rw [items_registerItem] at hframe hdir
        split_ifs at hframe hdir with hnew
        · exact hdir
        · exact hreg.items p (Nat.lt_of_le_of_ne (Nat.lt_succ_iff.mp hp) hnew) hframe hdir
      have hself : (s.registerItem f a b).itemSet f a = { s.itemSet f a with
          items := (s.itemSet f a).items.add b.streamId (some s.numItems) } := by
        rw [itemSet_registerItem, if_pos ⟨rfl, rfl⟩]
      obtain ⟨hsteps, hreg'', hother⟩ := ih (hstep.invariant h) hreg' hnodup.2
        fun c hc hmem => by
          rw [hself, KeyedVector.mem_keys_add] at hmem
          rcases hmem with heq | hmem
          · exact hnodup.1 (heq ▸ List.mem_map_of_mem hc)
          · exact hkeys c (List.mem_cons_of_mem _ hc) hmem
      refine ⟨(StepsOf.single hstep).trans hsteps, hreg'', fun a' ha' => ?_⟩
      rw [hother a' ha', itemSet_registerItem, if_neg fun heq => ha' heq.2]

theorem nodup_buffersOf (v : ImageBuffers) : ((buffersOf v).map (·.streamId)).Nodup := by
  have heq : (buffersOf v).map (·.streamId) = v.buffers.keys := by
    rw [buffersOf, List.map_map, KeyedVector.keys]
    refine List.map_congr_left fun e he => ?_
    exact v.keyed e.1 e.2 (KeyedVector.find?_eq_some_iff.mpr he)
  rw [heq]
  exact v.buffers.nodup_keys

/-- **Registering a request takes primitive steps**, which hand nothing back. -/
theorem steps_registerFrame (rRequest : Request) (h : s.ImageInvariant) :
    StepsOf ImageStep s [] (s.registerFrame rRequest) := by
  have hpush := StepsOf.single (ImageStep.pushFrame s rRequest.frameNo)
  have hinv := imageInvariant_of_steps hpush h
  have hreg : (s.pushFrame rRequest.frameNo).Registering s.numFrames false :=
    ⟨rfl, List.mem_append_right _ List.mem_cons_self,
      fun p hp hframe => absurd hframe (Nat.ne_of_lt (h.frame p hp))⟩
  have hempty : ∀ a, (s.pushFrame rRequest.frameNo).itemSet s.numFrames a = {} := fun a => by
    rw [itemSet_pushFrame, if_pos rfl]
  obtain ⟨hout, hreg', hother⟩ := steps_registerStreamBuffers
    (buffersOf rRequest.vOutputImageBuffers) hinv hreg
    (nodup_buffersOf _) fun b _ => by simp [hempty]
  obtain ⟨hin, -⟩ := steps_registerStreamBuffers (a := true)
    (buffersOf rRequest.vInputImageBuffers) (imageInvariant_of_steps hout hinv)
    ⟨hreg'.numFrames, hreg'.mFrameQueue, fun _ _ _ _ => rfl⟩
    (nodup_buffersOf _) fun b _ => by
      rw [hother true (by simp), hempty]
      simp
  exact (hpush.trans hout).trans hin

/-! ### What has been handed back -/

/-- What a run has handed back, in terms of the state that it has reached. -/
structure LogInvariant (s : FrameHandler) (log : List CallbackParcel.ImageItem) : Prop where
  nodup : (log.map (·.item)).Nodup
  mem : ∀ p, p ∈ log.map (·.item) ↔ p < s.numItems ∧ (s.items p).isReturned = true
  buffer : ∀ i ∈ log, i.buffer.handle = (s.items i.item).buffer.handle ∧
    i.stream = (s.items i.item).streamId
  flight : ∀ i ∈ log, i.state ≠ .inFlight
  /-- What is left of a stream before an item that was handed back without an error. -/
  order : ∀ i ∈ log, i.state ≠ .error → ∀ q < i.item, (s.items q).streamId = i.stream →
    (s.items q).isReturned = false → (s.items q).state = .error
  sorted : log.Pairwise fun i j => i.stream = j.stream → i.state ≠ .error →
    j.state ≠ .error → i.item < j.item

theorem LogInvariant.quiet (h : s.LogInvariant log) (hnum : s.numItems ≤ s'.numItems)
    (hold : ∀ p < s.numItems, (s'.items p).buffer.handle = (s.items p).buffer.handle ∧
      (s'.items p).streamId = (s.items p).streamId ∧
      (s'.items p).isReturned = (s.items p).isReturned ∧
      ((s.items p).state = .error → (s'.items p).state = .error))
    (hnew : ∀ p, s.numItems ≤ p → p < s'.numItems → (s'.items p).isReturned = false) :
    s'.LogInvariant log := by
  have hlt : ∀ i ∈ log, i.item < s.numItems := fun i hi =>
    ((h.mem i.item).mp (List.mem_map_of_mem hi)).1
  refine ⟨h.nodup, fun p => ?_, fun i hi => ?_, h.flight, fun i hi herror q hq => ?_, h.sorted⟩
  · rw [h.mem p]
    by_cases hp : p < s.numItems
    · rw [(hold p hp).2.2.1]
      exact ⟨fun hret => ⟨hp.trans_le hnum, hret.2⟩, fun hret => ⟨hp, hret.2⟩⟩
    · refine ⟨fun hret => absurd hret.1 hp, fun hret => ?_⟩
      rw [hnew p (Nat.not_lt.mp hp) hret.1] at hret
      cases hret.2
  · rw [(hold _ (hlt i hi)).1, (hold _ (hlt i hi)).2.1]
    exact h.buffer i hi
  · obtain ⟨-, hstream, hret, hstate⟩ := hold q (hq.trans (hlt i hi))
    rw [hstream, hret]
    exact fun hq' hret' => hstate (h.order i hi herror q hq hq' hret')

theorem LogInvariant.returnItem (h : s.LogInvariant log) (hp : p < s.numItems)
    (hret : (s.items p).isReturned = false) (hflight : (s.items p).state ≠ .inFlight)
    (horder : (s.items p).state ≠ .error → ∀ q < p,
      (s.items q).streamId = (s.items p).streamId → (s.items q).isReturned = false →
        (s.items q).state = .error) :
    (s.returnItem p).LogInvariant (log ++ [s.cbItem p]) := by
  have hnot : p ∉ log.map (·.item) := fun hmem => by
    rw [(h.mem p).mp hmem |>.2] at hret
    cases hret
  have hsame : ∀ q, ((s.returnItem p).items q).buffer = (s.items q).buffer ∧
      ((s.returnItem p).items q).streamId = (s.items q).streamId ∧
      ((s.returnItem p).items q).state = (s.items q).state := fun q => by
    rw [items_returnItem]
    split_ifs with hq
    · subst hq
      exact ⟨rfl, rfl, rfl⟩
    · exact ⟨rfl, rfl, rfl⟩
  have hretAt : ∀ q, q ≠ p →
      ((s.returnItem p).items q).isReturned = (s.items q).isReturned := fun q hq => by
    rw [items_returnItem, if_neg hq]
  have horder' : ∀ i ∈ log ++ [s.cbItem p], i.state ≠ .error → ∀ q < i.item,
      (s.items q).streamId = i.stream → (s.items q).isReturned = false →
        (s.items q).state = .error := fun i hi => by
    rcases List.mem_append.mp hi with hi | hi
    · exact h.order i hi
    · rw [List.mem_singleton.mp hi]
      exact horder
  refine ⟨?_, fun q => ?_, fun i hi => ?_, fun i hi => ?_, fun i hi herror q hq hstream hqret => ?_,
    ?_⟩
  · rw [List.map_append, List.nodup_append']
    refine ⟨h.nodup, List.nodup_singleton _, ?_⟩
    rw [List.map_singleton, List.disjoint_singleton]
    exact hnot
  · have hnum : (s.returnItem p).numItems = s.numItems := rfl
    rw [List.map_append, List.mem_append, h.mem q, hnum]
    by_cases hq : q = p
    · subst hq
      simp [hp, isReturned_returnItem, cbItem]
    · rw [hretAt q hq]
      simp [hq, cbItem]
  · rw [(hsame i.item).1, (hsame i.item).2.1]
    rcases List.mem_append.mp hi with hi | hi
    · exact h.buffer i hi
    · rw [List.mem_singleton.mp hi]
      exact ⟨rfl, rfl⟩
  · rcases List.mem_append.mp hi with hi | hi
    · exact h.flight i hi
    · rw [List.mem_singleton.mp hi]
      exact hflight
  · rw [(hsame q).2.1] at hstream
    rw [(hsame q).2.2]
    by_cases hqp : q = p
    · rw [hqp, isReturned_returnItem] at hqret
      cases hqret
    · rw [hretAt q hqp] at hqret
      exact horder' i hi herror q hq hstream hqret
  · refine List.pairwise_append.mpr ⟨h.sorted, List.pairwise_singleton _ _, fun i hi j hj => ?_⟩
    rw [List.mem_singleton.mp hj]
    intro hstream herror herror'
    -- an item of the stream after this one cannot have gone first
    rcases Nat.lt_trichotomy i.item p with hlt | heq | hgt
    · exact hlt
    · exact absurd (heq ▸ List.mem_map_of_mem hi) hnot
    · exact absurd (h.order i hi herror p hgt hstream.symm hret) herror'

/-- **Every primitive step** adds what it hands back. -/
theorem LogInvariant.step (h : s.LogInvariant log) (hstep : ImageStep s o s') :
    s'.LogInvariant (log ++ o) := by
  have hitems : ∀ {s' : FrameHandler}, s'.items = s.items → s'.numItems = s.numItems →
      s'.LogInvariant (log ++ []) := fun hitems hnum => by
    rw [List.append_nil]
    refine h.quiet hnum.ge (fun p _ => ?_) fun p hle hlt => ?_
    · rw [hitems]
      exact ⟨rfl, rfl, rfl, id⟩
    · exact absurd (hnum ▸ hlt) (Nat.not_lt.mpr hle)
  have hupdate : ∀ {s' : FrameHandler} {p : ImagePtr} (i : ImageItem),
      s'.items = Function.update s.items p i → s'.numItems = s.numItems →
      i.buffer.handle = (s.items p).buffer.handle → i.streamId = (s.items p).streamId →
      i.isReturned = (s.items p).isReturned →
      ((s.items p).state = .error → i.state = .error) → s'.LogInvariant (log ++ []) :=
    fun i hitems hnum hhandle hstream hret hstate => by
      rw [List.append_nil]
      refine h.quiet hnum.ge (fun q _ => ?_) fun q hle hlt => ?_
      · rw [hitems, Function.update_apply]
        split_ifs with hq
        · subst hq
          exact ⟨hhandle, hstream, hret, hstate⟩
        · exact ⟨rfl, rfl, rfl, id⟩
      · exact absurd (hnum ▸ hlt) (Nat.not_lt.mpr hle)
  cases hstep with
  | pass hpass =>
    cases hpass with
    | other hsame => exact hitems hsame.items hsame.numItems
    | returnItem hp hret hflight horder => exact h.returnItem hp hret hflight horder
    | errorSent hp hret =>
      refine hupdate _ rfl rfl rfl rfl ?_ id
      simp [isReturned_markBit, hret]
    | clear => exact hitems rfl rfl
    | remove => exact hitems rfl rfl
  | pushFrame => exact hitems rfl rfl
  | @registerItem f a b =>
    rw [List.append_nil]
    refine h.quiet (Nat.le_succ _) (fun p hp => ?_) fun p hle hlt => ?_
    · rw [items_registerItem, if_neg (Nat.ne_of_lt hp)]
      exact ⟨rfl, rfl, rfl, id⟩
    · rw [items_registerItem, if_pos (Nat.le_antisymm (Nat.lt_succ_iff.mp hlt) hle),
        isReturned_new]
  | releaseHandler env hp hvalid herror =>
    rw [FrameHandler.releaseHandler]
    dsimp only
    split <;> exact hupdate _ rfl rfl rfl rfl rfl fun h => absurd h herror
  | preReleaseHandler env hp hstate =>
    exact hupdate _ rfl rfl rfl rfl rfl fun h => by simp [hstate] at h

/-! ### Runs -/

/-- **Every operation takes primitive steps.** -/
theorem steps_handlerMachine {op : Op} {cbs : List CallbackParcel} (h : s.ImageInvariant)
    (hstep : handlerMachine s op = .ok (s', cbs)) :
    StepsOf ImageStep s (cbs.flatMap CallbackParcel.allImages) s' := by
  cases op with
  | registerFrame rRequest =>
    cases hstep
    exact steps_registerFrame rRequest h
  | updateResults env rvResult =>
    cases hstep
    exact steps_updateResults env rvResult h
  | updateCallbacks env =>
    exact (steps_updateCallbacks env h hstep).imp fun _ _ _ hpass => .pass hpass

structure Idle (s : FrameHandler) : Prop where
  mFrameQueue : s.mFrameQueue = []
  numItems : s.numItems = 0
  itemSet : ∀ f a, s.itemSet f a = {}
  queue : ∀ k, s.vItemFrameQueue k = []

theorem Idle.invariant (h : s.Idle) : s.ImageInvariant ∧ s.LogInvariant [] := by
  obtain ⟨hframes, hnum, hset, hqueue⟩ := h
  have hnone : ∀ p, ¬ p < s.numItems := fun p => hnum ▸ Nat.not_lt_zero p
  have hcount : ∀ f a P, s.countItems f a P = 0 := fun f a P => by
    rw [countItems, hnum]
    rfl
  refine ⟨⟨hframes ▸ .nil, fun f hf => by simp [hframes] at hf,
    fun p hp => absurd hp (hnone p), fun p q _ hq => absurd hq (hnone q),
    fun p hp => absurd hp (hnone p), fun f a k p hp => ?_, fun p hp => absurd hp (hnone p),
    fun f a => ?_, fun k _ => ?_, fun p hp => absurd hp (hnone p),
    fun p hp => absurd hp (hnone p)⟩,
    ⟨.nil, fun p => by simp [hnone p], by simp, by simp, by simp, .nil⟩⟩
  · rw [entry, hset] at hp
    cases hp
  · exact ⟨by rw [hset, hcount]; rfl, by rw [hset, hcount], by rw [hset, hcount],
      by rw [hset, hcount]⟩
  · rw [hqueue, hnum]
    rfl

theorem idle_configure (n : ℕ) (streams : List StreamId) : (configure n streams).Idle := by
  have hfold : ∀ (ks : List StreamId) (s : FrameHandler), s.Idle →
      (ks.foldl addConfigStream s).Idle := fun ks => by
    induction ks with
    | nil => exact fun s h => h
    | cons k ks ih =>
      refine fun s h => ih _ ⟨h.mFrameQueue, h.numItems, h.itemSet, fun k' => ?_⟩
      rw [vItemFrameQueue, addConfigStream, KeyedVector.find?_add]
      split_ifs
      · rfl
      · exact h.queue k'
  refine hfold streams _ ⟨rfl, rfl, fun f a => ?_, fun k => rfl⟩
  cases a <;> rfl

def returnedImages (cbs : List CallbackParcel) : List CallbackParcel.ImageItem :=
  cbs.flatMap CallbackParcel.allImages

/-- **Both invariants hold along every run.** -/
theorem runs_invariant {n : ℕ} {streams : List StreamId} {ops : List Op}
    {cbs : List CallbackParcel} (hrun : handlerMachine.Runs (configure n streams) ops s cbs) :
    s.ImageInvariant ∧ s.LogInvariant (returnedImages cbs) := by
  refine hrun.invariant (I := fun _ s cbs => s.ImageInvariant ∧
    s.LogInvariant (returnedImages cbs)) (idle_configure n streams).invariant ?_
  rintro ops s cbs op s' o ⟨hinv, hlog⟩ hstep
  have hsteps := steps_handlerMachine hinv hstep
  refine ⟨imageInvariant_of_steps hsteps hinv, ?_⟩
  rw [returnedImages, List.flatMap_append]
  exact hsteps.invariant (I := fun o s' => s'.LogInvariant (returnedImages cbs ++ o))
    (by simpa using hlog) fun o₁ s₁ o₂ s₂ h hstep => by
      rw [← List.append_assoc]
      exact h.step hstep

end FrameHandler

end MtkHardware.AppStream
