import MtkHardware.AppStream.MetaResult

/-!
# Handler Runs

The operations of the frame handler are loops: one over the results that have arrived, one
over the frames in the queue. A condition on the turns of these loops is a condition on the
operations of a run, and what every turn keeps, every run keeps.
-/

namespace MtkHardware.AppStream

open Pipeline (StreamId)

namespace FrameHandler

variable {s s' : FrameHandler} {f : FramePtr} {cbs : List CallbackParcel}

/-! ### Conditions -/

/-- A **condition on the turns**: on the application of a result to a frame, on the visit of
a frame, and on the decision whether to remove the frame after the visit. -/
structure StepCondition where
  apply : BufferEnv → FrameHandler → FramePtr → ResultItem → Prop := fun _ _ _ _ => True
  visit : BufferEnv → FrameHandler → FramePtr → Prop := fun _ _ _ => True
  removal : FrameHandler → FramePtr → Prop := fun _ _ => True

namespace StepCondition

/-- The condition on the turns of `applyResults`. -/
def OnResults (C : StepCondition) (env : BufferEnv) :
    List ResultItem → List FramePtr → FrameHandler → Prop
  | [], _, _ => True
  | r :: rs, itFrame, s =>
    match itFrame.dropWhile fun f => r.frameNo ≠ (s.frames f).frameNo with
    | [] => C.OnResults env rs s.mFrameQueue s
    | f :: itFrame =>
      C.apply env s f r ∧ C.OnResults env rs (f :: itFrame) (applyResult env f r s)

/-- The condition on the turns of `updateFrames`. -/
def OnFrames (C : StepCondition) (env : BufferEnv) : List FramePtr → FrameHandler → Prop
  | [], _ => True
  | f :: fs, s =>
    (s.frames f).frameNo.isAfter s.latestResultFrameNo = false →
      C.visit env s f ∧ ∀ s₁ cb, prepareFrame env f s = .ok (s₁, cb) →
        C.removal s₁ f ∧ C.OnFrames env fs (s₁.removeFrame f)

def Meets (C : StepCondition) (s : FrameHandler) : Op → Prop
  | .registerFrame _ => True
  | .updateResults env rvResult =>
    C.OnResults env (rvResult.entries.map Prod.snd) s.mFrameQueue s
  | .updateCallbacks env => C.OnFrames env s.mFrameQueue s

variable (C : StepCondition) [∀ env s f r, Decidable (C.apply env s f r)]
  [∀ env s f, Decidable (C.visit env s f)] [∀ s f, Decidable (C.removal s f)]

instance decidableOnResults (env : BufferEnv) : (rs : List ResultItem) →
    (itFrame : List FramePtr) → (s : FrameHandler) → Decidable (C.OnResults env rs itFrame s)
  | [], _, _ => isTrue trivial
  | r :: rs, itFrame, s =>
    match hfind : itFrame.dropWhile fun f => r.frameNo ≠ (s.frames f).frameNo with
    | [] =>
      have := decidableOnResults env rs s.mFrameQueue s
      decidable_of_iff (C.OnResults env rs s.mFrameQueue s) (by
        rw [OnResults]
        simp only [hfind])
    | f :: fs =>
      have := decidableOnResults env rs (f :: fs) (applyResult env f r s)
      decidable_of_iff
        (C.apply env s f r ∧ C.OnResults env rs (f :: fs) (applyResult env f r s)) (by
          rw [OnResults]
          simp only [hfind])

instance decidableOnFrames (env : BufferEnv) : (fs : List FramePtr) → (s : FrameHandler) →
    Decidable (C.OnFrames env fs s)
  | [], _ => isTrue trivial
  | f :: fs, s =>
    match hprepare : prepareFrame env f s with
    | .error _ =>
      decidable_of_iff ((s.frames f).frameNo.isAfter s.latestResultFrameNo = false →
        C.visit env s f) (by
          rw [OnFrames]
          simp [hprepare])
    | .ok (s₁, _) =>
      have := decidableOnFrames env fs (s₁.removeFrame f)
      decidable_of_iff ((s.frames f).frameNo.isAfter s.latestResultFrameNo = false →
        C.visit env s f ∧ C.removal s₁ f ∧ C.OnFrames env fs (s₁.removeFrame f)) (by
          rw [OnFrames]
          simp [hprepare])

instance decidableMeets (s : FrameHandler) : (op : Op) → Decidable (C.Meets s op)
  | .registerFrame _ => isTrue trivial
  | .updateResults env rvResult =>
    C.decidableOnResults env (rvResult.entries.map Prod.snd) s.mFrameQueue s
  | .updateCallbacks env => C.decidableOnFrames env s.mFrameQueue s

end StepCondition

theorem StepCondition.onResults_of_forall {C : StepCondition}
    (h : ∀ env s f r, C.apply env s f r) (env : BufferEnv) (rs : List ResultItem)
    (itFrame : List FramePtr) (s : FrameHandler) : C.OnResults env rs itFrame s := by
  induction rs generalizing itFrame s with
  | nil => trivial
  | cons r rs ih =>
    rw [OnResults]
    split
    · exact ih _ _
    · exact ⟨h _ _ _ _, ih _ _⟩

theorem meets_true (s : FrameHandler) (op : Op) : StepCondition.Meets {} s op := by
  cases op with
  | registerFrame rRequest => trivial
  | updateResults env rvResult =>
    exact StepCondition.onResults_of_forall (fun _ _ _ _ => trivial) env _ _ s
  | updateCallbacks env =>
    have hfold : ∀ (fs : List FramePtr) (s : FrameHandler),
        StepCondition.OnFrames {} env fs s := by
      intro fs
      induction fs with
      | nil => exact fun _ => trivial
      | cons f fs ih => exact fun s _ => ⟨trivial, fun s₁ _ _ => ⟨trivial, ih _⟩⟩
    exact hfold _ s

/-! ### The rule -/

/-- **What the turns keep.** -/
structure StepCondition.Keeps (C : StepCondition) (I : FrameHandler → List CallbackParcel → Prop) :
    Prop where
  register : ∀ s cbs rRequest, s.ImageInvariant → I s cbs → I (s.registerFrame rRequest) cbs
  latest : ∀ s cbs frameNo, I s cbs → I { s with latestResultFrameNo := frameNo } cbs
  apply : ∀ s cbs env f r, s.ImageInvariant → f ∈ s.mFrameQueue → C.apply env s f r → I s cbs →
    I (applyResult env f r s) cbs
  visit : ∀ s cbs env f s₁ cb, s.ImageInvariant → f ∈ s.mFrameQueue → C.visit env s f →
    prepareFrame env f s = .ok (s₁, cb) → FrameVisit s f s₁ cb → C.removal s₁ f → I s cbs →
    I (s₁.removeFrame f) (cbs ++ if cb.valid then [cb] else [])

variable {C : StepCondition} {I : FrameHandler → List CallbackParcel → Prop}

theorem mFrameQueue_applyResult (env : BufferEnv) (f : FramePtr) (r : ResultItem)
    (s : FrameHandler) : (applyResult env f r s).mFrameQueue = s.mFrameQueue :=
  (metaApplied_applyResult env f r s).handler.mFrameQueue

theorem StepCondition.applyResults_rule {J : FrameHandler → Prop} (env : BufferEnv)
    (happly : ∀ s f r, s.ImageInvariant → f ∈ s.mFrameQueue → C.apply env s f r → J s →
      J (applyResult env f r s))
    (rs : List ResultItem) (itFrame : List FramePtr) (hinv : s.ImageInvariant)
    (hsub : itFrame ⊆ s.mFrameQueue) (hmeets : C.OnResults env rs itFrame s) (hJ : J s) :
    J (FrameHandler.applyResults env rs itFrame s) := by
  induction rs generalizing s itFrame with
  | nil => exact hJ
  | cons r rs ih =>
    rw [StepCondition.OnResults] at hmeets
    rw [FrameHandler.applyResults]
    split
    · rename_i heq
      simp only [heq] at hmeets
      exact ih _ hinv (List.Subset.refl _) hmeets hJ
    · rename_i f fs heq
      simp only [heq] at hmeets
      have hfs : f :: fs ⊆ s.mFrameQueue := fun g hg => by
        rw [← heq] at hg
        exact hsub ((List.dropWhile_sublist _).subset hg)
      have hstep := happly s f r hinv (hfs List.mem_cons_self) hmeets.1 hJ
      refine ih _ (imageInvariant_of_steps (steps_applyResult env f r hinv) hinv) ?_ hmeets.2
        hstep
      rw [mFrameQueue_applyResult]
      exact hfs

theorem updateResults_eq (env : BufferEnv) (rvResult : ResultQueue) (s : FrameHandler) :
    ∃ frameNo, s.updateResults env rvResult =
      { applyResults env (rvResult.entries.map Prod.snd) s.mFrameQueue s with
        latestResultFrameNo := frameNo } := by
  rw [updateResults]
  split
  · rename_i hempty
    have hnone : ∀ rs, applyResults env rs [] s = s := fun rs => by
      induction rs with
      | nil => rfl
      | cons r rs ih =>
        rw [applyResults, List.dropWhile_nil, hempty]
        exact ih
    exact ⟨s.latestResultFrameNo, by rw [hempty, hnone]⟩
  · dsimp only
    split
    · exact ⟨_, rfl⟩
    · split
      · exact ⟨_, rfl⟩
      · exact ⟨_, rfl⟩

theorem StepCondition.Keeps.applyResults (h : C.Keeps I) (env : BufferEnv)
    (rs : List ResultItem) (itFrame : List FramePtr) (hinv : s.ImageInvariant)
    (hsub : itFrame ⊆ s.mFrameQueue) (hmeets : C.OnResults env rs itFrame s) (hI : I s cbs) :
    I (FrameHandler.applyResults env rs itFrame s) cbs :=
  C.applyResults_rule (J := fun s => I s cbs) env (fun s f r => h.apply s cbs env f r) rs itFrame
    hinv hsub hmeets hI

theorem mFrameQueue_of_prepareFrame (env : BufferEnv) (hinv : s.ImageInvariant)
    {s₁ : FrameHandler} {cb : CallbackParcel} (hx : prepareFrame env f s = .ok (s₁, cb)) :
    s₁.mFrameQueue = s.mFrameQueue := by
  have hmeta : ∀ (x : FrameHandler × CallbackParcel) (a : Bool), x.1.ImagesHome f →
      (prepareCallbackImages env f a x).1.mFrameQueue = x.1.mFrameQueue ∧
        (prepareCallbackImages env f a x).1.ImagesHome f := fun x a hhome =>
    ⟨by
      obtain ⟨⟨es, hes⟩, -⟩ := imageEffect_set env hhome a
      exact hes.queue.mFrameQueue, (imageEffect_set env hhome a).2⟩
  by_cases hverdict : checkRequestError (s.frames f) > 0
  · exact (effect_requestError env hinv hverdict hx).queue.mFrameQueue
  · rw [prepareFrame, if_neg hverdict, Except.ok.injEq] at hx
    have hsame := (metaVisit_set env f s (s.emptyParcel f)).same
    have hhome : (prepareCallbackMetas env f (s, s.emptyParcel f)).1.ImagesHome f :=
      fun a k p hp => by
        rw [entry, hsame.itemSet] at hp
        rw [hsame.items]
        exact hinv.home f a k p hp
    obtain ⟨hout, hhome'⟩ := hmeta _ false hhome
    obtain ⟨hin, -⟩ := hmeta _ true hhome'
    have hall := (hin.trans hout).trans hsame.mFrameQueue
    rw [emptyParcel, hx] at hall
    exact hall

/-- What is known when the loop of a pass has come to the frames `fs`. -/
structure FrameLoop (s : FrameHandler) (fs : List FramePtr) : Prop where
  images : s.ImageInvariant
  sorted : fs.Pairwise (· < ·)
  subset : fs ⊆ s.mFrameQueue
  before : ∀ q < s.numItems, (s.items q).pFrame ∉ fs → s.Settled q

theorem ImageInvariant.frameLoop (h : s.ImageInvariant) : FrameLoop s s.mFrameQueue := by
  refine ⟨h, h.sorted, List.Subset.refl _, fun q hq hnot => ?_⟩
  by_contra hunsettled
  exact hnot (h.held q hq (by simpa using fun hret => hunsettled (.inl hret))).1

/-- **One turn of the loop.** -/
theorem FrameLoop.next {env : BufferEnv} {fs : List FramePtr} {s₁ : FrameHandler}
    {cb : CallbackParcel} (h : FrameLoop s (f :: fs)) (hx : prepareFrame env f s = .ok (s₁, cb)) :
    FrameVisit s f s₁ cb ∧ FrameLoop (s₁.removeFrame f) fs := by
  have hsorted := List.pairwise_cons.mp h.sorted
  have hvisit := frameVisit_prepareFrame env h.images (fun q hq hlt => h.before q hq fun hmem => by
    rcases List.mem_cons.mp hmem with heq | hmem
    · exact Nat.ne_of_lt hlt heq
    · exact Nat.lt_asymm hlt (hsorted.1 _ hmem)) hx
  have hsteps := hvisit.steps.trans (steps_removeFrame s₁ f)
  have hkeeps := keeps_of_steps hsteps
  refine ⟨hvisit, invariant_of_steps hsteps h.images, hsorted.2, fun g hg => ?_,
    fun q hq hnot => ?_⟩
  · have hg' := h.subset (List.mem_cons_of_mem f hg)
    rw [← mFrameQueue_of_prepareFrame env h.images hx] at hg'
    rw [removeFrame]
    split
    · exact (List.mem_erase_of_ne (Nat.ne_of_gt (hsorted.1 g hg))).mpr hg'
    · exact hg'
  · rw [hkeeps.numItems] at hq
    rw [hkeeps.pFrame] at hnot
    by_cases heq : (s.items q).pFrame = f
    · exact (hvisit.settled q hq heq.le).keeps (keeps_of_steps (steps_removeFrame s₁ f))
    · exact (h.before q hq fun hmem => (List.mem_cons.mp hmem).elim heq hnot).keeps hkeeps

theorem StepCondition.updateFrames_rule (env : BufferEnv)
    (hkeeps : ∀ s cbs f s₁ cb, s.ImageInvariant → f ∈ s.mFrameQueue → C.visit env s f →
      prepareFrame env f s = .ok (s₁, cb) → FrameVisit s f s₁ cb → C.removal s₁ f → I s cbs →
      I (s₁.removeFrame f) (cbs ++ if cb.valid then [cb] else []))
    (fs : List FramePtr) (hloop : FrameLoop s fs) (hmeets : C.OnFrames env fs s) (hI : I s cbs)
    {cbs' : List CallbackParcel}
    (hx : FrameHandler.updateFrames env fs s = .ok (s', cbs')) : I s' (cbs ++ cbs') := by
  induction fs generalizing s cbs cbs' with
  | nil =>
    cases hx
    rw [List.append_nil]
    exact hI
  | cons f fs ih =>
    rw [FrameHandler.updateFrames] at hx
    split at hx
    · cases hx
      rw [List.append_nil]
      exact hI
    · rename_i hafter
      obtain ⟨hvisitC, hrestC⟩ := hmeets (by simpa using hafter)
      split at hx
      · cases hx
      · rename_i s₁ cb hprepare
        obtain ⟨hremovalC, hmeets'⟩ := hrestC s₁ cb hprepare
        split at hx
        · cases hx
        · rename_i s₂ cbs₂ hrest
          cases hx
          obtain ⟨hvisit, hloop'⟩ := hloop.next hprepare
          have hstep := hkeeps s cbs f s₁ cb hloop.images
            (hloop.subset List.mem_cons_self) hvisitC hprepare hvisit hremovalC hI
          have hall := ih hloop' hmeets' hstep hrest
          rw [List.append_assoc] at hall
          exact hall

theorem StepCondition.Keeps.step (h : C.Keeps I) {op : Op} {o : List CallbackParcel}
    (hinv : s.ImageInvariant) (hC : C.Meets s op) (hI : I s cbs)
    (hstep : handlerMachine s op = .ok (s', o)) : I s' (cbs ++ o) := by
  cases op with
  | registerFrame rRequest =>
    cases hstep
    rw [List.append_nil]
    exact h.register s cbs rRequest hinv hI
  | updateResults env rvResult =>
    cases hstep
    rw [List.append_nil, updateResults]
    split
    · exact hI
    · have happlied := h.applyResults env (rvResult.entries.map Prod.snd) s.mFrameQueue hinv
        (List.Subset.refl _) hC hI
      dsimp only
      split
      · exact happlied
      · split
        · exact h.latest _ _ _ happlied
        · exact happlied
  | updateCallbacks env =>
    exact C.updateFrames_rule env (fun s cbs => h.visit s cbs env) s.mFrameQueue hinv.frameLoop
      hC hI hstep

/-- **The run rule**: what the turns that meet a condition keep holds along every run whose
operations meet it. -/
theorem StepCondition.Keeps.invariant (h : C.Keeps I) {n : ℕ} {streams : List StreamId}
    {ops : List Op}
    (hrun : handlerMachine.RunsMeeting (fun _ s op => C.Meets s op) (configure n streams) ops s
      cbs)
    (hinit : I (configure n streams) []) : I s cbs := by
  have hall := hrun.invariant (I := fun _ s cbs => s.ImageInvariant ∧ I s cbs)
    ⟨(idle_configure n streams).invariant.1, hinit⟩ fun ops s cbs op s' o hI hC hstep =>
      ⟨imageInvariant_of_steps (steps_handlerMachine hI.1 hstep) hI.1,
        h.step hI.1 hC hI.2 hstep⟩
  exact hall.2

end FrameHandler

end MtkHardware.AppStream
