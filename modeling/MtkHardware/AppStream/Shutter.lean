import MtkHardware.AppStream.MetaRun
import MtkHardware.Util.Checked

/-!
# The Shutter

The shutter of a frame is told with the first metadata of it that is handed back and has the time
of the sensor. The handler takes a time of zero for none, so that the shutter of such a frame is
told again, with every time it finds, up to the first one that is not zero (`shutter_once`).
-/

namespace MtkHardware.AppStream

open Pipeline (StreamId)

namespace FrameHandler

variable {s s' s₁ : FrameHandler} {cb : CallbackParcel} {cbs : List CallbackParcel}
  {f : FramePtr} {p : ImagePtr} {x y z : FrameHandler × CallbackParcel}

def timestampShutter (s : FrameHandler) (f : FramePtr) : BitVec 64 :=
  (s.frames f).timestampShutter

/-- The times of the shutter that the parcels tell of a frame. -/
def shutters (cbs : List CallbackParcel) (f : FramePtr) : List (BitVec 64) :=
  cbs.filterMap fun cb => if cb.pFrame = f then cb.shutter else none

/-- The turn tells of the shutter of the frame, which had no time yet, or leaves it as it is. -/
structure ShutterTurn (f : FramePtr) (x y : FrameHandler × CallbackParcel) : Prop where
  shutter : (y.1.timestampShutter f = x.1.timestampShutter f ∧ y.2.shutter = x.2.shutter) ∨
    (x.1.timestampShutter f = 0 ∧ y.2.shutter = some (y.1.timestampShutter f) ∧
      y.2.valid = true)
  valid : x.2.valid = true → y.2.valid = true

theorem ShutterTurn.of_same (hframe : y.1.timestampShutter f = x.1.timestampShutter f)
    (hshutter : y.2.shutter = x.2.shutter) (hvalid : x.2.valid = true → y.2.valid = true) :
    ShutterTurn f x y := ⟨.inl ⟨hframe, hshutter⟩, hvalid⟩

theorem ShutterTurn.refl (f : FramePtr) (x : FrameHandler × CallbackParcel) :
    ShutterTurn f x x := .of_same rfl rfl id

theorem ShutterTurn.trans (h₁ : ShutterTurn f x y) (h₂ : ShutterTurn f y z) :
    ShutterTurn f x z := by
  refine ⟨?_, fun h => h₂.valid (h₁.valid h)⟩
  obtain ⟨hframe₂, hshutter₂⟩ | ⟨hzero₂, hrest₂⟩ := h₂.shutter
  · obtain ⟨hframe₁, hshutter₁⟩ | ⟨hzero₁, hshutter₁, hvalid₁⟩ := h₁.shutter
    · exact .inl ⟨hframe₂.trans hframe₁, hshutter₂.trans hshutter₁⟩
    · exact .inr ⟨hzero₁, by rw [hshutter₂, hshutter₁, hframe₂], h₂.valid hvalid₁⟩
  · obtain ⟨hframe₁, -⟩ | ⟨hzero₁, -⟩ := h₁.shutter
    · exact .inr ⟨hframe₁ ▸ hzero₂, hrest₂⟩
    · exact .inr ⟨hzero₁, hrest₂⟩

/-! ### The turns -/

theorem timestampShutter_editFrame (s : FrameHandler) (f g : FramePtr)
    (h : FrameParcel → FrameParcel)
    (hsame : ∀ frame, (h frame).timestampShutter = frame.timestampShutter) :
    (s.editFrame f h).timestampShutter g = s.timestampShutter g := by
  rw [timestampShutter, frames_editFrame]
  split_ifs with hg
  · rw [hg, hsame, timestampShutter]
  · rfl

theorem timestampShutter_editItemSet (s : FrameHandler) (f g : FramePtr) (a : Bool)
    (h : ImageItemSet → ImageItemSet) :
    (s.editItemSet f a h).timestampShutter g = s.timestampShutter g :=
  timestampShutter_editFrame s f g _ fun frame => (sameMeta_editItemSet h frame).shutter

theorem timestampShutter_editMetaSet (s : FrameHandler) (f g : FramePtr)
    (h : MetaItemSet → MetaItemSet) :
    (s.editMetaSet f h).timestampShutter g = s.timestampShutter g :=
  timestampShutter_editFrame s f g _ fun _ => rfl

theorem shutterTurn_returnImage (f : FramePtr) (s : FrameHandler) (cb : CallbackParcel)
    (p : ImagePtr) : ShutterTurn f (s, cb) (s.prepareReturnImage cb p) := by
  rw [prepareReturnImage]
  split
  · exact .of_same rfl rfl fun _ => rfl
  · refine .of_same (timestampShutter_editItemSet _ _ f _ _) ?_ fun _ => ?_
    · simp only [CallbackParcel.addImage]
      split_ifs <;> rfl
    · simp only [CallbackParcel.addImage]
      split_ifs <;> rfl

theorem shutterTurn_images (env : BufferEnv) (f : FramePtr) (a : Bool)
    (x : FrameHandler × CallbackParcel) : ShutterTurn f x (prepareCallbackImages env f a x) := by
  refine foldl_rel (ShutterTurn.refl f) (fun _ _ _ => ShutterTurn.trans) (fun x k => ?_) _ x
  obtain ⟨s, cb⟩ := x
  rw [prepareCallbackImage]
  split
  · rename_i p _
    have hitem : ShutterTurn f (s, cb) (prepareCallbackImageItem (s, cb) p) := by
      have herror : ShutterTurn f (s, cb) (s.prepareErrorImage cb p) :=
        .of_same rfl rfl fun _ => rfl
      exact prepareCallbackImageItem_rule (.refl f _) (shutterTurn_returnImage f s cb p)
        fun _ => ⟨herror, herror.trans (shutterTurn_returnImage f _ _ p)⟩
    dsimp only
    split
    · exact hitem.trans (.of_same (timestampShutter_editItemSet _ _ f _ _) rfl id)
    · exact hitem
  · exact .refl f _

theorem shutterTurn_meta (env : BufferEnv) (hhome : x.1.MetasHome f) (k : StreamId) :
    ShutterTurn f x (prepareCallbackMeta env f x k) := by
  obtain ⟨s, cb⟩ := x
  rw [prepareCallbackMeta]
  split
  · rename_i i hentry
    have hframe : i.pFrame = f := hhome k i hentry
    have hshutter : ShutterTurn f (s, cb) (s.prepareShutterNotificationIfPossible env cb i) := by
      rw [prepareShutterNotificationIfPossible, hframe]
      split
      · rename_i hzero
        split
        · exact .refl f _
        · refine ⟨.inr ⟨hzero, ?_, rfl⟩, fun _ => rfl⟩
          rw [timestampShutter, frames_editFrame, if_pos rfl]
      · exact .refl f _
    have hreturn : ∀ x : FrameHandler × CallbackParcel, ShutterTurn f x
        ((x.1.prepareReturnMeta x.2 i).1, (x.1.prepareReturnMeta x.2 i).2.1) := fun x => by
      refine .of_same ?_ rfl fun _ => rfl
      dsimp only [prepareReturnMeta]
      rw [timestampShutter_editMetaSet]
    have herror : ShutterTurn f (s, cb)
        ((s.prepareErrorMetaIfPossible cb i).1, (s.prepareErrorMetaIfPossible cb i).2.1) := by
      rw [prepareErrorMetaIfPossible]
      split
      · exact .refl f _
      · refine .of_same ?_ rfl fun _ => rfl
        dsimp only
        rw [timestampShutter_editFrame]
        exact fun _ => rfl
    have hset : ∀ (y : FrameHandler × CallbackParcel × MetaItem) (h : MetaItemSet → MetaItemSet),
        ShutterTurn f (s, cb) (y.1, y.2.1) →
          ShutterTurn f (s, cb) (y.1.editMetaSet f h, y.2.1) := fun y h hy =>
      hy.trans (.of_same (timestampShutter_editMetaSet _ f f _) rfl id)
    refine hset _ _ ?_
    cases i.state with
    | valid =>
      dsimp only
      split
      · exact hshutter.trans (hreturn _)
      · exact .refl f _
    | error =>
      dsimp only
      split
      · exact herror
      · exact .refl f _
    | inFlight => exact .refl f _
    | preRelease => exact .refl f _
  · exact .refl f _

theorem shutterTurn_metas (env : BufferEnv) (hhome : x.1.MetasHome f) :
    ShutterTurn f x (prepareCallbackMetas env f x) := by
  rw [prepareCallbackMetas]
  generalize (x.1.frames f).vOutputMetaItem.items.keys = ks
  induction ks generalizing x with
  | nil => exact .refl f x
  | cons k ks ih =>
    obtain ⟨l, es, heffect⟩ := metaEffect_key env hhome k
    exact (shutterTurn_meta env hhome k).trans (ih (heffect.home hhome))

theorem shutterTurn_errorFrame (ks : List StreamId)
    (hx : ks.foldlM (prepareErrorFrameImage f) x = .ok y) : ShutterTurn f x y := by
  induction ks generalizing x with
  | nil =>
    cases hx
    exact .refl f _
  | cons k ks ih =>
    rw [List.foldlM_cons] at hx
    obtain ⟨z, hz, hx⟩ := bind_ok_iff.mp hx
    rw [prepareErrorFrameImage] at hz
    split at hz
    · cases hz
      exact (shutterTurn_returnImage f x.1 x.2 _).trans (ih hx)
    · cases hz

/-- **The visit of a frame.** -/
theorem shutterTurn_visit {env : BufferEnv} (hhome : s.MetasHome f)
    (hx : prepareFrame env f s = .ok (s₁, cb)) :
    ShutterTurn f (s, s.emptyParcel f) (s₁, cb) := by
  rw [prepareFrame] at hx
  split at hx
  · split at hx
    · cases hx
    · rename_i y herror
      rw [Except.ok.injEq] at hx
      rw [← hx]
      refine .trans ?_ (shutterTurn_images env f true y)
      rw [prepareErrorFrame] at herror
      split at herror
      · cases herror
      · rename_i s₂ cb₂ hfold
        cases herror
        have hstart : ShutterTurn f (s, s.emptyParcel f) (s, { s.emptyParcel f with
            valid := true
            vError := (s.emptyParcel f).vError ++ [{ errorCode := .errorRequest }] }) :=
          .of_same rfl rfl fun _ => rfl
        refine (hstart.trans (shutterTurn_errorFrame _ hfold)).trans (.of_same ?_ rfl id)
        dsimp only
        rw [timestampShutter_editFrame]
        exact fun _ => rfl
  · rw [Except.ok.injEq] at hx
    rw [← hx]
    exact ((shutterTurn_metas env hhome).trans (shutterTurn_images env f false _)).trans
      (shutterTurn_images env f true _)

/-! ### Every run -/

theorem shutters_append (cbs cbs' : List CallbackParcel) (f : FramePtr) :
    shutters (cbs ++ cbs') f = shutters cbs f ++ shutters cbs' f := List.filterMap_append

theorem shutters_other (hne : cb.pFrame ≠ f) :
    shutters (if cb.valid then [cb] else []) f = [] := by
  split <;> simp [shutters, hne]

theorem shutters_parcel (hpFrame : cb.pFrame = f) :
    shutters (if cb.valid then [cb] else []) f =
      if cb.valid then cb.shutter.toList else [] := by
  split
  · cases hshutter : cb.shutter <;> simp [shutters, hpFrame, hshutter]
  · rfl

theorem ShutterTurn.told (h : ShutterTurn f (s, s.emptyParcel f) (s₁, cb))
    (htold : ∃ n, shutters cbs f = List.replicate n 0 ++
      if s.timestampShutter f = 0 then [] else [s.timestampShutter f]) :
    ∃ n, shutters cbs f ++ (if cb.valid then cb.shutter.toList else []) =
      List.replicate n 0 ++
        if s₁.timestampShutter f = 0 then [] else [s₁.timestampShutter f] := by
  obtain ⟨n, hn⟩ := htold
  obtain ⟨hframe, hshutter⟩ | ⟨hzero, hshutter, hvalid⟩ := h.shutter
  · have hnone : cb.shutter = none := hshutter
    refine ⟨n, ?_⟩
    rw [hn, hnone, show s₁.timestampShutter f = s.timestampShutter f from hframe]
    simp
  · have hzero : s.timestampShutter f = 0 := hzero
    have hshutter : cb.shutter = some (s₁.timestampShutter f) := hshutter
    have hvalid : cb.valid = true := hvalid
    rw [hn, if_pos hzero, List.append_nil, if_pos hvalid, hshutter, Option.toList_some]
    by_cases hagain : s₁.timestampShutter f = 0
    · refine ⟨n + 1, ?_⟩
      rw [if_pos hagain, hagain, List.replicate_succ', List.append_nil]
    · exact ⟨n, by rw [if_neg hagain]⟩

structure ShuttersTold (s : FrameHandler) (cbs : List CallbackParcel) : Prop where
  told : ∀ f, ∃ n, shutters cbs f = List.replicate n 0 ++
    if s.timestampShutter f = 0 then [] else [s.timestampShutter f]
  fresh : ∀ f, s.numFrames ≤ f → s.timestampShutter f = 0

theorem ShuttersTold.congr (h : ShuttersTold s cbs) (hnum : s'.numFrames = s.numFrames)
    (hsame : ∀ f, s'.timestampShutter f = s.timestampShutter f) : ShuttersTold s' cbs :=
  ⟨fun f => hsame f ▸ h.told f, fun f hf => (hsame f).trans (h.fresh f (hnum ▸ hf))⟩

theorem timestampShutter_foldl {α : Type*} {turn : FrameHandler → α → FrameHandler}
    (hturn : ∀ s a, (turn s a).timestampShutter f = s.timestampShutter f) (as : List α)
    (s : FrameHandler) : (as.foldl turn s).timestampShutter f = s.timestampShutter f := by
  induction as generalizing s with
  | nil => rfl
  | cons a as ih => exact (ih (turn s a)).trans (hturn s a)

theorem timestampShutter_applyResult (env : BufferEnv) (f g : FramePtr) (r : ResultItem)
    (s : FrameHandler) :
    (applyResult env f r s).timestampShutter g = s.timestampShutter g := by
  have himages : ∀ a (s : FrameHandler),
      (updateImageItemSet env f a s).timestampShutter g = s.timestampShutter g := fun a s =>
    ((imagesEdited_updateImageItemSet env f a s).2 g).shutter
  have hmetas : ∀ s : FrameHandler,
      (updateMetaItemSet env f s).timestampShutter g = s.timestampShutter g := fun s => by
    refine timestampShutter_foldl (fun s k => ?_) _ s
    rw [updateMetaItem]
    split
    · split_ifs
      · exact timestampShutter_editMetaSet _ _ _ _
      · exact timestampShutter_editMetaSet _ _ _ _
      · rfl
    · rfl
  rw [applyResult, himages, himages, hmetas, addResult]
  have hadd : (r.buffer.foldl (addMetaItem f) s).timestampShutter g = s.timestampShutter g :=
    timestampShutter_foldl (fun s b => timestampShutter_editMetaSet _ _ _ _) _ s
  split
  · exact hadd
  · split_ifs
    · rw [markLastPartial, timestampShutter_editMetaSet, hadd]
    · exact hadd

theorem keeps_shuttersTold : StepCondition.Keeps {} fun s cbs =>
    MetaInvariant (fun _ _ => True) s cbs ∧ ShuttersTold s cbs where
  register s cbs rRequest hinv h := by
    refine ⟨(keeps_metaInvariant {} _).register s cbs rRequest hinv h.1, ?_⟩
    obtain ⟨-, -, hnum, hother, hself⟩ := registerFrame_spec s rRequest
    have hsame : ∀ g, (s.registerFrame rRequest).timestampShutter g = s.timestampShutter g := by
      intro g
      by_cases hg : g = s.numFrames
      · rw [h.2.fresh g hg.ge, hg]
        exact hself.shutter
      · exact (hother g hg).shutter
    exact ⟨fun g => hsame g ▸ h.2.told g, fun g hg => (hsame g).trans (h.2.fresh g (by omega))⟩
  latest s cbs frameNo h :=
    ⟨(keeps_metaInvariant {} _).latest s cbs frameNo h.1, h.2.congr rfl fun _ => rfl⟩
  apply s cbs env f r hinv hf hC h :=
    ⟨(keeps_metaInvariant {} _).apply s cbs env f r hinv hf hC h.1,
      h.2.congr (metaApplied_applyResult env f r s).handler.numFrames fun g =>
        timestampShutter_applyResult env f g r s⟩
  visit s cbs env f s₁ cb hinv hf hC hx hvisit hR h := by
    refine ⟨(keeps_metaInvariant {} _).visit s cbs env f s₁ cb hinv hf hC hx hvisit hR h.1, ?_⟩
    have hhome := (h.1 f).home
    have hpFrame : cb.pFrame = f := by
      rcases visit_cases hinv hhome hx with heffect | ⟨l, es, heffect⟩
      · exact heffect.pFrame
      · exact heffect.pFrame
    have hnum : (s₁.removeFrame f).numFrames = s.numFrames := by
      rw [(imagesEdited_removeFrame s₁ f).2.2, (sameQueue_of_prepareFrame hinv hhome hx).numFrames]
    have hother : ∀ g, g ≠ f → (s₁.removeFrame f).timestampShutter g = s.timestampShutter g :=
      fun g hg => (sameMeta_of_visit hinv hhome hx hg).shutter
    have hself : (s₁.removeFrame f).timestampShutter f = s₁.timestampShutter f := by
      rw [timestampShutter, (imagesEdited_removeFrame s₁ f).1, timestampShutter]
    refine ⟨fun g => ?_, fun g hg => ?_⟩
    · rw [shutters_append]
      by_cases hg : g = f
      · subst hg
        rw [hself, shutters_parcel hpFrame]
        exact (shutterTurn_visit hhome hx).told (h.2.told g)
      · rw [hother g hg, shutters_other (hpFrame ▸ Ne.symm hg), List.append_nil]
        exact h.2.told g
    · rw [hnum] at hg
      have hmade := hinv.made f hf
      exact (hother g (Nat.lt_of_lt_of_le hmade hg).ne').trans (h.2.fresh g hg)

/-- **The shutter of a frame is told at most once** with a time that is not zero, which is the one
that the frame keeps, and not again after that. -/
theorem shutter_once {n : ℕ} {streams : List StreamId} {ops : List Op}
    (hrun : handlerMachine.Runs (configure n streams) ops s cbs) (f : FramePtr) :
    ∃ k, shutters cbs f = List.replicate k 0 ++
      if s.timestampShutter f = 0 then [] else [s.timestampShutter f] := by
  have hfresh : ∀ f, (configure n streams).timestampShutter f = 0 := fun f =>
    (sameMeta_configure n streams f).shutter
  have hinit : ShuttersTold (configure n streams) [] :=
    ⟨fun f => ⟨0, by rw [hfresh, if_pos rfl]; rfl⟩, fun f _ => hfresh f⟩
  exact (keeps_shuttersTold.invariant (hrun.meeting_of_forall fun _ s op => meets_true s op)
    ⟨metaInvariant_configure _ n streams, hinit⟩).2.told f

def timedByHandle : BufferEnv where
  image _ :=
    { getAllUsersStatus := 0, haveAllUsersReleased := false, hasStatusError := false
      createAcquireFence := -1, createReleaseFence := -1 }
  metadata handle :=
    { haveAllUsersReleased := true, haveAllProducerUsersReleased := true, hasStatusError := false
      sensorTimestamp := some (.ofNat 64 handle) }

/-- A frame whose metadata come with a time of zero first, and with others then. -/
def zeroFirst : List Op :=
  [.registerFrame { frameNo := 1 },
    .updateResults timedByHandle (KeyedVector.empty.add 1 ⟨false, 1, [⟨0, 7, .metaOut⟩]⟩),
    .updateCallbacks timedByHandle,
    .updateResults timedByHandle (KeyedVector.empty.add 1 ⟨false, 1, [⟨9, 8, .metaOut⟩]⟩),
    .updateCallbacks timedByHandle,
    .updateResults timedByHandle (KeyedVector.empty.add 1 ⟨true, 1, [⟨5, 9, .metaOut⟩]⟩),
    .updateCallbacks timedByHandle]

theorem shutter_once_zeroFirst : ∃ s cbs,
    handlerMachine.Runs (configure 3 []) zeroFirst s cbs ∧ shutters cbs 0 = [0, 9] ∧
      ∃ k, shutters cbs 0 = List.replicate k 0 ++
        if s.timestampShutter 0 = 0 then [] else [s.timestampShutter 0] := by
  obtain ⟨s, cbs, hrun, hshutters⟩ : ∃ s cbs,
      handlerMachine.Runs (configure 3 []) zeroFirst s cbs ∧ shutters cbs 0 = [0, 9] :=
    Machine.exists_run_of_shows (by decide +kernel)
  exact ⟨s, cbs, hrun, hshutters, shutter_once hrun 0⟩

end FrameHandler

end MtkHardware.AppStream
