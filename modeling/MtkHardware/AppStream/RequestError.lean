import MtkHardware.AppStream.MetaReturn

/-!
# Request Errors

A request error is told by every pass that comes to its frame: `prepareErrorFrame` does not
ask whether it has told it before. The frame leaves the queue at once if all its input images
have been handed back, or are handed back by the same pass. Then the error is told once and
nothing follows it.
-/

namespace MtkHardware.AppStream

open Pipeline (StreamId)

def CallbackParcel.tellsRequest (cb : CallbackParcel) : Prop :=
  ∃ e ∈ cb.vError, e.errorCode = .errorRequest

instance (cb : CallbackParcel) : Decidable cb.tellsRequest :=
  inferInstanceAs (Decidable (∃ e ∈ _, _))

namespace FrameHandler

variable {s s' s₁ : FrameHandler} {cbs : List CallbackParcel} {cb : CallbackParcel}
  {f g : FramePtr} {k : StreamId} {p : ImagePtr} {env : BufferEnv} {n : ℕ}
  {streams : List StreamId} {ops : List Op} {x y : FrameHandler × CallbackParcel}

/-! ### The images of a request error -/

theorem isReturned_of_errorFrame (ks : List StreamId) (h : x.1.ImageInvariant)
    (herror : ∀ p < x.1.numItems, (x.1.items p).pFrame = f → (x.1.items p).asInput = false →
      (x.1.items p).state = .error)
    (hx : ks.foldlM (prepareErrorFrameImage f) x = .ok y) :
    ∀ k ∈ ks, ∀ p, x.1.entry f false k = some (some p) → (y.1.items p).isReturned = true := by
  induction ks generalizing x with
  | nil => simp
  | cons k ks ih =>
    obtain ⟨s, cb⟩ := x
    rw [List.foldlM_cons] at hx
    cases hstep : prepareErrorFrameImage f (s, cb) k with
    | error e => simp [hstep, bind, Except.bind] at hx
    | ok z =>
      have hfirst : [k].foldlM (prepareErrorFrameImage f) (s, cb) = .ok z := by
        rw [List.foldlM_cons, hstep]
        rfl
      obtain ⟨l, hl⟩ := imageVisit_errorFrame [k] h herror hfirst
      rw [hstep] at hx
      have hkeeps := keeps_of_steps hl.steps
      have hinv := invariant_of_steps hl.steps h
      have herror' : ∀ p < z.1.numItems, (z.1.items p).pFrame = f →
          (z.1.items p).asInput = false → (z.1.items p).state = .error := fun p hp => by
        rw [hkeeps.pFrame, hkeeps.asInput, hkeeps.state]
        exact herror p (hkeeps.numItems ▸ hp)
      rw [prepareErrorFrameImage] at hstep
      split at hstep
      · rename_i q hq
        rw [Except.ok.injEq] at hstep
        subst hstep
        intro k' hk' p hp
        rcases List.mem_cons.mp hk' with rfl | hk'
        · obtain rfl : q = p := by
            have heq := hq.symm.trans hp
            exact Option.some_inj.mp (Option.some_inj.mp heq)
          obtain ⟨l', hl'⟩ := imageVisit_errorFrame ks hinv herror' hx
          refine (keeps_of_steps hl'.steps).returned q ?_
          cases hret : (s.items q).isReturned with
          | true => exact hkeeps.returned q hret
          | false =>
            have hbit : (s.items q).history.hasBit HistoryBit.returned = false := hret
            rw [prepareReturnImage]
            simp only [hbit, Bool.false_eq_true, if_false]
            exact isReturned_returnItem s q
        · refine ih hinv herror' hx k' hk' p ?_
          rw [entry_prepareReturnImage]
          exact hp
      · cases hstep

theorem isReturned_mono_prepareReturnImage (s : FrameHandler) (cb : CallbackParcel)
    (p q : ImagePtr) (hret : (s.items q).isReturned = true) :
    ((s.prepareReturnImage cb p).1.items q).isReturned = true := by
  rw [prepareReturnImage]
  split
  · exact hret
  · by_cases hq : q = p
    · rw [hq]
      exact isReturned_returnItem s p
    · rw [items_returnItem, if_neg hq]
      exact hret

theorem isReturned_mono_item (x : FrameHandler × CallbackParcel) (p q : ImagePtr)
    (hret : (x.1.items q).isReturned = true) :
    ((prepareCallbackImageItem x p).1.items q).isReturned = true := by
  obtain ⟨s, cb⟩ := x
  have herror : ((s.prepareErrorImage cb p).1.items q).isReturned = true := by
    rw [prepareErrorImage, items_editItem]
    split_ifs with hq
    · subst hq
      rw [isReturned_markBit]
      simp only [Bool.or_eq_true]
      exact .inl hret
    · exact hret
  exact prepareCallbackImageItem_rule (P := fun y => (y.1.items q).isReturned = true) hret
    (isReturned_mono_prepareReturnImage s cb p q hret)
    fun _ => ⟨herror, isReturned_mono_prepareReturnImage _ _ p q herror⟩

theorem isReturned_mono_set (env : BufferEnv) (f : FramePtr) (a : Bool) (q : ImagePtr)
    (x : FrameHandler × CallbackParcel) (hret : (x.1.items q).isReturned = true) :
    ((prepareCallbackImages env f a x).1.items q).isReturned = true := by
  refine foldl_rel (R := fun x y : FrameHandler × CallbackParcel =>
    (x.1.items q).isReturned = true → (y.1.items q).isReturned = true) (fun _ h => h)
    (fun _ _ _ h₁ h₂ h => h₂ (h₁ h)) (fun x k h => ?_) _ x hret
  rw [prepareCallbackImage]
  split
  · rename_i p _
    dsimp only
    split
    · exact isReturned_mono_item x p q h
    · exact isReturned_mono_item x p q h
  · exact h

/-- **The output images of a request error** have been handed back after its visit. -/
theorem isReturned_of_requestError (h : s.ImageInvariant)
    (hverdict : checkRequestError (s.frames f) > 0) (hx : prepareFrame env f s = .ok (s₁, cb))
    (hp : p < s.numItems) (hframe : (s.items p).pFrame = f)
    (hdir : (s.items p).asInput = false) : (s₁.items p).isReturned = true := by
  have hstate : ∀ p < s.numItems, (s.items p).pFrame = f → (s.items p).asInput = false →
      (s.items p).state = .error := fun p => state_of_requestError h hverdict
  rw [prepareFrame, if_pos hverdict] at hx
  split at hx
  · cases hx
  · rename_i x hprepare
    rw [prepareErrorFrame] at hprepare
    split at hprepare
    · cases hprepare
    · rename_i s₂ cb₂ hfold
      rw [Except.ok.injEq] at hprepare hx
      have hmono := isReturned_mono_set env f true p x
      rw [hx] at hmono
      refine hmono ?_
      subst hprepare
      cases hret : (s.items p).isReturned with
      | true =>
        obtain ⟨l, hl⟩ := imageVisit_errorFrame _ h hstate hfold
        exact (keeps_of_steps hl.steps).returned p hret
      | false =>
        have hplace := (h.held p hp hret).2
        rw [hframe, hdir] at hplace
        exact isReturned_of_errorFrame (x := (s, _)) _ h hstate hfold _
          (KeyedVector.mem_keys_of_find? hplace) p hplace

/-- An input image can be handed back now, or has been. -/
def InputBack (s : FrameHandler) (p : ImagePtr) : Prop :=
  (s.items p).isReturned = true ∨
    ((s.items p).state = .preRelease ∨ (s.items p).state = .valid) ∧
      ∀ q < p, (s.items q).streamId = (s.items p).streamId → (s.items q).isReturned = false →
        (s.items q).state ≠ .inFlight

def InputsBack (s : FrameHandler) (f : FramePtr) : Prop :=
  checkRequestError (s.frames f) > 0 → ∀ p < s.numItems, (s.items p).pFrame = f →
    (s.items p).asInput = true → s.InputBack p

instance : Decidable (s.InputBack p) :=
  inferInstanceAs (Decidable (_ ∨ _ ∧ ∀ q < p, _ → _ → _))

instance : Decidable (s.InputsBack f) :=
  inferInstanceAs (Decidable (_ → ∀ p < s.numItems, _ → _ → InputBack s p))

theorem size_eq_numReturned (h : s.ImageInvariant) {a : Bool}
    (hall : ∀ p < s.numItems, (s.items p).pFrame = f → (s.items p).asInput = a →
      (s.items p).isReturned = true) :
    (s.itemSet f a).items.size = (s.itemSet f a).numReturnedStreams := by
  rw [(h.set f a).size, (h.set f a).returned, countItems, countItems]
  refine List.countP_congr fun p hp => ?_
  rw [List.mem_range] at hp
  by_cases hself : (s.items p).pFrame = f ∧ (s.items p).asInput = a
  · simp [ImageItem.inSet, hself, hall p hp hself.1 hself.2]
  · simp [ImageItem.inSet, hself]

/-- **The visit of a request error** whose input images can be handed back lets its frame
go. -/
theorem isFrameRemovable_of_requestError (h : s.ImageInvariant)
    (hverdict : checkRequestError (s.frames f) > 0) (hback : s.InputsBack f)
    (hx : prepareFrame env f s = .ok (s₁, cb)) (hvisit : FrameVisit s f s₁ cb) :
    s₁.isFrameRemovable f = true := by
  have hinv := invariant_of_steps hvisit.steps h
  have hkeeps := keeps_of_steps hvisit.steps
  have hrequested := (effect_requestError env h hverdict hx).requested
  have hin : (s₁.itemSet f true).items.size = (s₁.itemSet f true).numReturnedStreams := by
    refine size_eq_numReturned hinv fun p hp hframe hdir => ?_
    rw [hkeeps.numItems] at hp
    rw [hkeeps.pFrame] at hframe
    rw [hkeeps.asInput] at hdir
    rcases hback hverdict p hp hframe hdir with hret | ⟨hstate, hfirst⟩
    · exact hkeeps.returned p hret
    · rcases hvisit.settled p hp hframe.le with hs | hs | hs | ⟨r, hlt, hstream, hflight, hret⟩
      · exact hs
      · rw [hkeeps.state] at hs
        simp [hs] at hstate
      · rw [hkeeps.state] at hs
        simp [hs] at hstate
      · -- nothing of the stream before the item is in flight
        rw [hkeeps.state] at hflight
        rw [hkeeps.streamId, hkeeps.streamId] at hstream
        rw [hkeeps.flight r hflight] at hret
        exact absurd hflight (hfirst r hlt hstream hret)
  have hout : (s₁.itemSet f false).items.size = (s₁.itemSet f false).numReturnedStreams := by
    refine size_eq_numReturned hinv fun p hp hframe hdir => ?_
    rw [hkeeps.numItems] at hp
    rw [hkeeps.pFrame] at hframe
    rw [hkeeps.asInput] at hdir
    exact isReturned_of_requestError h hverdict hx hp hframe hdir
  rw [isFrameRemovable]
  have hbit : (s₁.frames f).errors.hasBit HistoryBit.errorSentFrame = true := hrequested
  have hout' : (s₁.frames f).vOutputImageItem.items.size =
      (s₁.frames f).vOutputImageItem.numReturnedStreams := hout
  have hin' : (s₁.frames f).vInputImageItem.items.size =
      (s₁.frames f).vInputImageItem.numReturnedStreams := hin
  simp [hout', hin', hbit]

/-! ### Runs -/

/-- Request errors are told once for a frame, alone, and nothing about errors or metadata of
the frame follows. -/
def RequestLast (cbs : List CallbackParcel) : Prop :=
  (∀ cb ∈ cbs, cb.tellsRequest →
    cb.vError = [{ errorCode := .errorRequest }] ∧ cb.vOutputMetaItem = []) ∧
  cbs.Pairwise fun cb cb' => cb.tellsRequest → cb'.pFrame = cb.pFrame →
    cb'.vError = [] ∧ cb'.vOutputMetaItem = []

/-- The condition for request errors: no pass finds one with an input image that cannot be
handed back. -/
def RequestCondition : StepCondition where
  visit _ s f := s.InputsBack f

instance (r : ResultItem) : Decidable (RequestCondition.apply env s f r) :=
  inferInstanceAs (Decidable True)

instance : Decidable (RequestCondition.visit env s f) :=
  inferInstanceAs (Decidable (s.InputsBack f))

instance : Decidable (RequestCondition.removal s f) := inferInstanceAs (Decidable True)

/-- What is known of the request errors told so far: their frames have left the queue. -/
structure RequestInvariant (s : FrameHandler) (cbs : List CallbackParcel) : Prop where
  record : MetaInvariant isLastPartial s cbs
  last : RequestLast cbs
  gone : ∀ f, Told cbs f .errorRequest → f < s.numFrames ∧ f ∉ s.mFrameQueue

theorem RequestLast.addParcel (h : RequestLast cbs)
    (hcb : cb.valid = true → cb.tellsRequest →
      cb.vError = [{ errorCode := .errorRequest }] ∧ cb.vOutputMetaItem = [])
    (hnot : ¬ Told cbs cb.pFrame .errorRequest) :
    RequestLast (FrameHandler.addParcel cbs cb) := by
  rw [FrameHandler.addParcel]
  split
  · rename_i hvalid
    refine ⟨fun cb' hcb' => ?_, ?_⟩
    · rcases List.mem_append.mp hcb' with hold | hnew
      · exact h.1 cb' hold
      · rw [List.mem_singleton.mp hnew]
        exact hcb hvalid
    · refine List.pairwise_append.mpr ⟨h.2, List.pairwise_singleton _ _, ?_⟩
      intro cb' hcb' cb'' hcb'' htells hframe
      rw [List.mem_singleton.mp hcb''] at hframe
      exact absurd ⟨cb', hcb', hframe.symm, htells⟩ hnot
  · rw [List.append_nil]
    exact h

theorem keeps_requestInvariant : RequestCondition.Keeps RequestInvariant where
  register s cbs rRequest hinv h := by
    obtain ⟨hqueue, -, hnum, -⟩ := registerFrame_spec s rRequest
    refine ⟨(keeps_metaInvariant RequestCondition _).register s cbs rRequest hinv h.record,
      h.last, fun f ht => ?_⟩
    obtain ⟨hlt, hnot⟩ := h.gone f ht
    rw [hnum, hqueue, List.mem_append, List.mem_singleton]
    exact ⟨hlt.trans (Nat.lt_succ_self _), fun hmem => hmem.elim hnot (Nat.ne_of_lt hlt)⟩
  latest s cbs frameNo h :=
    ⟨(keeps_metaInvariant RequestCondition _).latest s cbs frameNo h.record, h.last, h.gone⟩
  apply s cbs env f r hinv hf hC h := by
    have hhandler := (metaApplied_applyResult env f r s).handler
    refine ⟨(keeps_metaInvariant RequestCondition _).apply s cbs env f r hinv hf hC h.record,
      h.last, fun g ht => ?_⟩
    rw [hhandler.numFrames, hhandler.mFrameQueue]
    exact h.gone g ht
  visit s cbs env f s₁ cb hinv hf hback hx hvisit hR h := by
    have hhome := (h.record f).home
    have hqueue := sameQueue_of_prepareFrame hinv hhome hx
    have hnum := (imagesEdited_removeFrame s₁ f).2.2
    have hnot : ¬ Told cbs cb.pFrame .errorRequest := fun ht =>
      (h.gone _ ht).2 (hvisit.pFrame.symm ▸ hf)
    have hsub : (s₁.removeFrame f).mFrameQueue ⊆ s.mFrameQueue := by
      rw [removeFrame, ← hqueue.mFrameQueue]
      split
      · exact List.erase_subset
      · exact List.Subset.refl _
    have hold : ∀ g, Told cbs g .errorRequest →
        g < (s₁.removeFrame f).numFrames ∧ g ∉ (s₁.removeFrame f).mFrameQueue := fun g ht => by
      rw [hnum, hqueue.numFrames]
      exact ⟨(h.gone g ht).1, fun hmem => (h.gone g ht).2 (hsub hmem)⟩
    refine ⟨(keeps_metaInvariant RequestCondition _).visit s cbs env f s₁ cb hinv hf hback hx
      hvisit hR h.record, h.last.addParcel (fun _ htells => ?_) hnot, fun g ht => ?_⟩
    · rcases visit_cases hinv hhome hx with heffect | ⟨l, es, heffect⟩
      · exact ⟨heffect.errors, heffect.metas⟩
      · obtain ⟨e, he, hcode⟩ := htells
        exact absurd hcode (heffect.code e (heffect.errors.trans (List.nil_append _) ▸ he)).1
    · obtain ⟨cb', hcb', hframe, htells⟩ := ht
      rcases List.mem_append.mp hcb' with hcb' | hcb'
      · exact hold g ⟨cb', hcb', hframe, htells⟩
      · -- the frame of the error that has just been told is let go
        have heq : cb' = cb := by
          split at hcb'
          · exact List.mem_singleton.mp hcb'
          · simp at hcb'
        rw [heq, hvisit.pFrame] at hframe
        rw [heq] at htells
        subst hframe
        refine ⟨by rw [hnum, hqueue.numFrames]; exact hinv.made f hf, ?_⟩
        by_cases hverdict : checkRequestError (s.frames f) > 0
        · rw [removeFrame, if_pos (isFrameRemovable_of_requestError hinv hverdict hback hx hvisit)]
          refine List.Nodup.not_mem_erase ?_
          rw [hqueue.mFrameQueue]
          exact hinv.sorted.imp fun hlt => Nat.ne_of_lt hlt
        · obtain ⟨l, es, heffect⟩ := effect_prepareFrame env hinv hhome hverdict hx
          obtain ⟨e, he, hcode⟩ := htells
          exact absurd hcode (heffect.code e (heffect.errors.trans (List.nil_append _) ▸ he)).1

/-- **Request errors are told once.** In every run in which no pass finds a request error with
an input image that cannot be handed back, a request error is told once for its frame, and no
other error and no metadata of the frame comes with it or after it. -/
theorem errorRequest_once (hrun : handlerMachine.RunsMeeting
    (fun _ s op => RequestCondition.Meets s op) (configure n streams) ops s cbs) :
    RequestLast cbs :=
  (keeps_requestInvariant.invariant hrun ⟨metaInvariant_configure _ n streams,
    ⟨by simp, List.Pairwise.nil⟩, fun f ht => by
      obtain ⟨cb, hcb, -⟩ := ht
      simp at hcb⟩).last

/-- The output image and the metadata are errors, the input image is still in use. -/
def outputsFailed : BufferEnv where
  image handle := if handle = 11 then ⟨0, false, false, -1, -1⟩ else
    ⟨Pipeline.UserStatus.release, true, true, -1, -1⟩
  metadata _ := ⟨true, true, true, some 5⟩

def failedRequest : List Op :=
  [oneBuffer 1 10 1, oneResult outputsFailed 1 true [⟨30, 7, .metaOut⟩],
    .updateCallbacks outputsFailed]

/-- The request error of `failedRequest` is told once. -/
theorem errorRequest_once_failedRequest : ∃ s cbs, handlerMachine.RunsMeeting
    (fun _ s op => RequestCondition.Meets s op) (configure 5 [1, 2])
      (failedRequest ++ [.updateCallbacks outputsFailed]) s cbs ∧
    Told cbs 0 .errorRequest ∧ RequestLast cbs := by
  have hobserve : ((handlerMachine.observe (configure 5 [1, 2])
      (failedRequest ++ [.updateCallbacks outputsFailed]) fun _ => ()).map
        fun x => decide (Told x.2 0 .errorRequest)) = some true := by decide +kernel
  obtain ⟨⟨view, cbs⟩, hview, heq⟩ := Option.map_eq_some_iff.mp hobserve
  obtain ⟨s, hrun, -⟩ := Machine.exists_run_of_observe hview
  have hmeeting := hrun.meeting (C := RequestCondition.Meets) (by decide +kernel)
  exact ⟨s, cbs, hmeeting, of_decide_eq_true heq, errorRequest_once hmeeting⟩

/-- A request error with an input image that is in use, and two passes. -/
def inputInUse : List Op :=
  [.registerFrame
      { frameNo := 1
        vInputImageBuffers := .add {} { handle := 11, streamId := 2 }
        vOutputImageBuffers := .add {} { handle := 10, streamId := 1 } },
    oneResult outputsFailed 1 true [⟨30, 7, .metaOut⟩], .updateCallbacks outputsFailed,
    .updateCallbacks outputsFailed]

/-- The request error of `inputInUse` is told by both passes. -/
theorem inputInUse_twice : ∃ s cbs,
    handlerMachine.Runs (configure 5 [1, 2]) inputInUse s cbs ∧
      (cbs.map fun cb => (cb.pFrame, cb.vError)) =
        [(0, [{ errorCode := .errorRequest }]), (0, [{ errorCode := .errorRequest }])] ∧
      ¬ RequestLast cbs := by
  have hobserve : ((handlerMachine.observe (configure 5 [1, 2]) inputInUse fun _ => ()).map
      fun x => x.2.map fun cb => (cb.pFrame, cb.vError)) = some
        [(0, [{ errorCode := .errorRequest }]), (0, [{ errorCode := .errorRequest }])] := by
    decide +kernel
  obtain ⟨⟨view, cbs⟩, hview, heq⟩ := Option.map_eq_some_iff.mp hobserve
  obtain ⟨s, hrun, -⟩ := Machine.exists_run_of_observe hview
  refine ⟨s, cbs, hrun, heq, fun hlast => ?_⟩
  obtain ⟨cb₁, rest, rfl, h₁, hrest⟩ := List.map_eq_cons_iff.mp heq
  obtain ⟨cb₂, rest', rfl, h₂, -⟩ := List.map_eq_cons_iff.mp hrest
  have hpair := (List.pairwise_cons.mp hlast.2).1 cb₂ List.mem_cons_self
  obtain ⟨hframe₁, herror₁⟩ := Prod.mk.inj h₁
  obtain ⟨hframe₂, herror₂⟩ := Prod.mk.inj h₂
  have hempty := (hpair ⟨_, herror₁ ▸ List.mem_singleton_self _, rfl⟩
    (hframe₂.trans hframe₁.symm)).1
  rw [herror₂] at hempty
  cases hempty

end FrameHandler

end MtkHardware.AppStream
