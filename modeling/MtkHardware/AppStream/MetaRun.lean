import MtkHardware.AppStream.HandlerRun

/-!
# Metadata Runs

What the callback parcels of a run tell about the metadata of a frame: whether an item of a
kind has been handed back, and which errors have been told. The kind of an item is given by
its buffer number and by whether it came as the last partial. As long as no result replaces
an item of the kind that is still pending, a frame that has got its last partial holds an
item of the kind, or has handed one back, or has told a metadata error.
-/

namespace MtkHardware.AppStream

open Pipeline (StreamId)

def Told (cbs : List CallbackParcel) (f : FramePtr) (e : ErrorCode) : Prop :=
  ∃ cb ∈ cbs, cb.pFrame = f ∧ ∃ x ∈ cb.vError, x.errorCode = e

/-- Some parcel of the frame carries an item of this kind. -/
def Handed (P : ℕ → Bool → Prop) (cbs : List CallbackParcel) (f : FramePtr) : Prop :=
  ∃ cb ∈ cbs, cb.pFrame = f ∧ ∃ m ∈ cb.vOutputMetaItem, P m.item.bufferNo m.item.lastPartial

/-- The framework has an item of this kind of the frame, or knows that there is none. -/
def MetaSettled (P : ℕ → Bool → Prop) (cbs : List CallbackParcel) (f : FramePtr) : Prop :=
  Handed P cbs f ∨ Told cbs f .errorResult ∨ Told cbs f .errorRequest

instance (cbs : List CallbackParcel) (f : FramePtr) (e : ErrorCode) :
    Decidable (Told cbs f e) :=
  inferInstanceAs (Decidable (∃ cb ∈ cbs, _ ∧ ∃ x ∈ _, _))

instance (P : ℕ → Bool → Prop) [∀ no last, Decidable (P no last)] (cbs : List CallbackParcel)
    (f : FramePtr) : Decidable (Handed P cbs f) :=
  inferInstanceAs (Decidable (∃ cb ∈ cbs, _ ∧ ∃ m ∈ _, _))

instance (P : ℕ → Bool → Prop) [∀ no last, Decidable (P no last)] (cbs : List CallbackParcel)
    (f : FramePtr) : Decidable (MetaSettled P cbs f) :=
  inferInstanceAs (Decidable (_ ∨ _ ∨ _))

section

variable {P : ℕ → Bool → Prop} {cbs cbs' : List CallbackParcel} {f : FramePtr} {e : ErrorCode}

theorem Told.mono (h : Told cbs f e) (hsub : cbs ⊆ cbs') : Told cbs' f e := by
  obtain ⟨cb, hcb, hrest⟩ := h
  exact ⟨cb, hsub hcb, hrest⟩

theorem Handed.mono (h : Handed P cbs f) (hsub : cbs ⊆ cbs') : Handed P cbs' f := by
  obtain ⟨cb, hcb, hrest⟩ := h
  exact ⟨cb, hsub hcb, hrest⟩

theorem MetaSettled.mono (h : MetaSettled P cbs f) (hsub : cbs ⊆ cbs') :
    MetaSettled P cbs' f :=
  h.imp (·.mono hsub) (.imp (·.mono hsub) (·.mono hsub))

end

namespace FrameHandler

variable {P : ℕ → Bool → Prop} {s s' s₁ : FrameHandler} {cbs cbs' : List CallbackParcel}
  {cb : CallbackParcel} {f g : FramePtr} {k : StreamId} {env : BufferEnv} {r : ResultItem}

/-! ### Registering -/

theorem imagesEdited_registerStreamBuffers (f : FramePtr) (a : Bool)
    (bs : List AppImageStreamBuffer) (s : FrameHandler) :
    ImagesEdited s (registerStreamBuffers f a bs s) := by
  induction bs generalizing s with
  | nil => exact .refl s
  | cons b bs ih =>
    rw [registerStreamBuffers]
    split
    · exact .refl s
    · have hitem : ImagesEdited s (s.registerItem f a b) := by
        have hmake : ImagesEdited s { s with
            mImageConfigMap := s.mImageConfigMap.modify b.streamId (· ++ [s.numItems])
            items := Function.update s.items s.numItems { pFrame := f, asInput := a, buffer := b }
            numItems := s.numItems + 1 } := ⟨⟨rfl, rfl, rfl, rfl⟩, fun _ => .refl _⟩
        exact hmake.trans (imagesEdited_editItemSet _ _ _ _)
      exact hitem.trans (ih _)

/-- **Registering a request**, as far as metadata goes. -/
theorem registerFrame_spec (s : FrameHandler) (rRequest : Request) :
    (s.registerFrame rRequest).mFrameQueue = s.mFrameQueue ++ [s.numFrames] ∧
    (s.registerFrame rRequest).mAtMostMetaStreamCount = s.mAtMostMetaStreamCount ∧
    (s.registerFrame rRequest).numFrames = s.numFrames + 1 ∧
    (∀ g, g ≠ s.numFrames → SameMeta (s.frames g) ((s.registerFrame rRequest).frames g)) ∧
    SameMeta { frameNo := rRequest.frameNo } ((s.registerFrame rRequest).frames s.numFrames) := by
  obtain ⟨hhandler, hframes⟩ := (imagesEdited_registerStreamBuffers s.numFrames false
    (buffersOf rRequest.vOutputImageBuffers) (s.pushFrame rRequest.frameNo)).trans
      (imagesEdited_registerStreamBuffers s.numFrames true
        (buffersOf rRequest.vInputImageBuffers) _)
  refine ⟨hhandler.mFrameQueue, hhandler.atMost, hhandler.numFrames, fun g hg => ?_, ?_⟩
  · have hpush : (s.pushFrame rRequest.frameNo).frames g = s.frames g := by
      simp only [pushFrame, Function.update_apply, if_neg hg]
    exact hpush ▸ hframes g
  · have hpush : (s.pushFrame rRequest.frameNo).frames s.numFrames =
        { frameNo := rRequest.frameNo } := by
      simp only [pushFrame, Function.update_self]
    exact hpush ▸ hframes s.numFrames

/-! ### Frames with the same metadata -/

theorem metaEntry_of_sameMeta (h : SameMeta (s.frames f) (s'.frames f)) (k : StreamId) :
    s'.metaEntry f k = s.metaEntry f k := by
  rw [metaEntry, metaSet, h.set, metaEntry, metaSet]

theorem hasError_of_sameMeta (h : SameMeta (s.frames f) (s'.frames f)) (n : ℕ) :
    s'.hasError f n = s.hasError f n := by
  rw [hasError, h.errors, hasError]

/-! ### The invariant -/

/-- What the parcels tell about a frame, in terms of the state. -/
structure FrameRecord (P : ℕ → Bool → Prop) (s : FrameHandler) (cbs : List CallbackParcel)
    (f : FramePtr) : Prop where
  home : s.MetasHome f
  sent : ∀ k i, s.metaEntry f k = some (some i) → isSent i.history = true →
    i.isReturned = true ∨ i.isErrorSent = true
  errorSent : ∀ k i, s.metaEntry f k = some (some i) → i.isErrorSent = true →
    s.hasError f HistoryBit.errorSentMeta = true
  handed : ∀ k i, s.metaEntry f k = some (some i) → i.isReturned = true →
    P i.bufferNo i.lastPartial → Handed P cbs f
  told : s.hasError f HistoryBit.errorSentMeta = true → Told cbs f .errorResult
  requested : s.hasError f HistoryBit.errorSentFrame = true → Told cbs f .errorRequest

/-- The **metadata invariant**. -/
def MetaInvariant (P : ℕ → Bool → Prop) (s : FrameHandler) (cbs : List CallbackParcel) : Prop :=
  ∀ f, FrameRecord P s cbs f

/-- Once the last partial has come, an item of the kind is held or has been handed back, or a
metadata error has been told. -/
def LastHeld (P : ℕ → Bool → Prop) (s : FrameHandler) (cbs : List CallbackParcel)
    (f : FramePtr) : Prop :=
  (s.metaSet f).hasLastPartial = true →
    (∃ k i, s.metaEntry f k = some (some i) ∧ P i.bufferNo i.lastPartial) ∨
      Handed P cbs f ∨ s.hasError f HistoryBit.errorSentMeta = true

theorem FrameRecord.congr (h : FrameRecord P s cbs f) (hsame : SameMeta (s.frames f) (s'.frames f))
    (hsub : cbs ⊆ cbs') : FrameRecord P s' cbs' f where
  home k i hi := h.home k i (metaEntry_of_sameMeta hsame k ▸ hi)
  sent k i hi := h.sent k i (metaEntry_of_sameMeta hsame k ▸ hi)
  errorSent k i hi := by
    rw [hasError_of_sameMeta hsame]
    exact h.errorSent k i (metaEntry_of_sameMeta hsame k ▸ hi)
  handed k i hi hret hP := (h.handed k i (metaEntry_of_sameMeta hsame k ▸ hi) hret hP).mono hsub
  told ht := (h.told (hasError_of_sameMeta hsame _ ▸ ht)).mono hsub
  requested ht := (h.requested (hasError_of_sameMeta hsame _ ▸ ht)).mono hsub

theorem LastHeld.congr (h : LastHeld P s cbs f) (hsame : SameMeta (s.frames f) (s'.frames f))
    (hsub : cbs ⊆ cbs') : LastHeld P s' cbs' f := by
  intro hlast
  rw [metaSet, hsame.set] at hlast
  simp only [metaEntry_of_sameMeta hsame, hasError_of_sameMeta hsame]
  exact (h hlast).imp_right (.imp_left (·.mono hsub))

theorem FrameRecord.of_empty (hsame : SameMeta { frameNo := (s.frames f).frameNo } (s.frames f)) :
    FrameRecord P s cbs f := by
  have hset : s.metaSet f = {} := hsame.set
  have hentry : ∀ k, s.metaEntry f k = none := fun k => by
    rw [metaEntry, hset]
    rfl
  have herror : ∀ n, s.hasError f n = false := fun n => by
    rw [hasError, hsame.errors]
    exact BitSet32.hasBit_clear n
  refine ⟨fun k i hi => ?_, fun k i hi => ?_, fun k i hi => ?_, fun k i hi => ?_, fun h => ?_,
    fun h => ?_⟩
  · simp [hentry] at hi
  · simp [hentry] at hi
  · simp [hentry] at hi
  · simp [hentry] at hi
  · simp [herror] at h
  · simp [herror] at h

theorem LastHeld.of_empty (hsame : SameMeta { frameNo := (s.frames f).frameNo } (s.frames f)) :
    LastHeld P s cbs f := by
  intro hlast
  rw [metaSet, hsame.set] at hlast
  cases hlast

theorem configure_spec (n : ℕ) (streams : List StreamId) :
    (configure n streams).frames = (fun _ => {}) ∧
      (configure n streams).mAtMostMetaStreamCount = n ∧ (configure n streams).numFrames = 0 := by
  have hfold : ∀ (ks : List StreamId) (s : FrameHandler),
      (ks.foldl addConfigStream s).frames = s.frames ∧
        (ks.foldl addConfigStream s).mAtMostMetaStreamCount = s.mAtMostMetaStreamCount ∧
        (ks.foldl addConfigStream s).numFrames = s.numFrames := by
    intro ks
    induction ks with
    | nil => exact fun _ => ⟨rfl, rfl, rfl⟩
    | cons k ks ih => exact fun s => ih (s.addConfigStream k)
  exact hfold streams { mAtMostMetaStreamCount := n }

theorem numFrames_configure (n : ℕ) (streams : List StreamId) :
    (configure n streams).numFrames = 0 := (configure_spec n streams).2.2

theorem sameMeta_configure (n : ℕ) (streams : List StreamId) (f : FramePtr) :
    SameMeta { frameNo := ((configure n streams).frames f).frameNo }
      ((configure n streams).frames f) := by
  rw [(configure_spec n streams).1]
  exact .refl _

theorem sameMeta_registerFrame (s : FrameHandler) (rRequest : Request) (f : FramePtr) :
    SameMeta { frameNo := ((s.registerFrame rRequest).frames f).frameNo }
      ((s.registerFrame rRequest).frames f) ∨
    SameMeta (s.frames f) ((s.registerFrame rRequest).frames f) := by
  obtain ⟨-, -, -, hother, hself⟩ := registerFrame_spec s rRequest
  by_cases hf : f = s.numFrames
  · subst hf
    refine .inl ?_
    rw [hself.frameNo]
    exact hself
  · exact .inr (hother f hf)

/-! ### Applying a result -/

/-- The result replaces no item of the kind that is pending, or it brings a new one. -/
def KeepsPending (P : ℕ → Bool → Prop) (s : FrameHandler) (f : FramePtr) (r : ResultItem) :
    Prop :=
  (r.lastPartial = true ∧ r.buffer ≠ []) ∨
    ∀ k ∈ r.streams, ∀ i ∈ (s.metaEntry f k).join, P i.bufferNo i.lastPartial →
      i.isReturned = true ∨ i.isErrorSent = true

instance [∀ no last, Decidable (P no last)] : Decidable (KeepsPending P s f r) :=
  inferInstanceAs (Decidable (_ ∨ ∀ k ∈ _, ∀ i ∈ _, _ → _))

theorem MetaItem_update_fields (env : BufferEnv) (i : MetaItem) :
    (i.update env).history = i.history ∧ (i.update env).pFrame = i.pFrame ∧
      (i.update env).bufferNo = i.bufferNo ∧ (i.update env).lastPartial = i.lastPartial := by
  rw [MetaItem.update]
  split_ifs <;> exact ⟨rfl, rfl, rfl, rfl⟩

theorem FrameRecord.apply (h : FrameRecord P s cbs f) (happlied : MetaApplied env f r s s') :
    FrameRecord P s' cbs f := by
  obtain ⟨s₁, hadded, hentry, -⟩ := happlied.set
  have herror : ∀ n, s'.hasError f n = s.hasError f n := fun n => by
    rw [hasError, happlied.errors, hasError]
  -- an item is new, or has been there before
  have hcases : ∀ k i', s'.metaEntry f k = some (some i') →
      (i'.history = .clear ∧ i'.pFrame = f) ∨
      ∃ i, s.metaEntry f k = some (some i) ∧ i'.history = i.history ∧ i'.pFrame = i.pFrame ∧
        i'.bufferNo = i.bufferNo ∧ i'.lastPartial = i.lastPartial := fun k i' hi' => by
    rw [hentry] at hi'
    by_cases hk : k ∈ r.streams
    · obtain ⟨i, hi, hframe, hhistory, -⟩ := hadded.new k hk
      rw [hi] at hi'
      obtain rfl : i.update env = i' := by simpa using hi'
      obtain ⟨hh, hf, -⟩ := MetaItem_update_fields env i
      exact .inl ⟨hh.trans hhistory, hf.trans hframe⟩
    · rw [hadded.old k hk] at hi'
      cases hi : s.metaEntry f k with
      | none => simp [hi] at hi'
      | some e =>
        cases e with
        | none => simp [hi] at hi'
        | some i =>
          obtain rfl : i.update env = i' := by simpa [hi] using hi'
          exact .inr ⟨i, rfl, MetaItem_update_fields env i⟩
  have hclear : ∀ {i' : MetaItem}, i'.history = .clear → ∀ n, i'.history.hasBit n = false :=
    fun hi' n => by rw [hi', BitSet32.hasBit_clear]
  refine ⟨fun k i' hi' => ?_, fun k i' hi' => ?_, fun k i' hi' => ?_, fun k i' hi' => ?_,
    fun ht => h.told (herror _ ▸ ht), fun ht => h.requested (herror _ ▸ ht)⟩
  · rcases hcases k i' hi' with ⟨-, hf⟩ | ⟨i, hi, -, hf, -⟩
    · exact hf
    · exact hf.trans (h.home k i hi)
  · rcases hcases k i' hi' with ⟨hnew, -⟩ | ⟨i, hi, hh, -⟩
    · intro hsent
      simp [isSent, hclear hnew] at hsent
    · rw [MetaItem.isReturned, MetaItem.isErrorSent, hh]
      exact h.sent k i hi
  · rcases hcases k i' hi' with ⟨hnew, -⟩ | ⟨i, hi, hh, -⟩
    · intro hsent
      rw [MetaItem.isErrorSent, hclear hnew] at hsent
      cases hsent
    · rw [MetaItem.isErrorSent, hh, herror]
      exact h.errorSent k i hi
  · rcases hcases k i' hi' with ⟨hnew, -⟩ | ⟨i, hi, hh, -, hno, hlp⟩
    · intro hret
      rw [MetaItem.isReturned, hclear hnew] at hret
      cases hret
    · rw [MetaItem.isReturned, hh, hno, hlp]
      exact h.handed k i hi

/-- What a frame that has got its last partial holds, after a result that replaces no
pending item. -/
theorem LastHeld.apply (h : LastHeld P s cbs f) (hrecord : FrameRecord P s cbs f)
    (hmark : P s.mAtMostMetaStreamCount true) (hpending : KeepsPending P s f r)
    (happlied : MetaApplied env f r s s') : LastHeld P s' cbs f := by
  obtain ⟨s₁, hadded, hentry, -, hlast, -, -⟩ := happlied.set
  have herror : ∀ n, s'.hasError f n = s.hasError f n := fun n => by
    rw [hasError, happlied.errors, hasError]
  have hbring : r.lastPartial = true → r.buffer ≠ [] →
      ∃ k i, s'.metaEntry f k = some (some i) ∧ P i.bufferNo i.lastPartial := fun hflag hne => by
    obtain ⟨k, hk, i, hi, hlp⟩ := hadded.last hflag hne
    obtain ⟨i₁, hi₁, -, -, -, -, -, hno⟩ := hadded.new k hk
    obtain rfl : i = i₁ := by simpa [hi] using hi₁
    obtain ⟨-, -, hno', hlp'⟩ := MetaItem_update_fields env i
    refine ⟨k, i.update env, by rw [hentry, hi]; rfl, ?_⟩
    rw [hno', hlp', hno hlp, hlp]
    exact hmark
  intro hl
  rw [herror]
  by_cases hflag : r.lastPartial = true ∧ r.buffer ≠ []
  · exact .inl (hbring hflag.1 hflag.2)
  · rw [hlast, hadded.hasLastPartial] at hl
    have hold := hpending.resolve_left hflag
    rcases h (hl.resolve_right hflag) with ⟨k, i, hi, hP⟩ | hrest
    · by_cases hk : k ∈ r.streams
      · rcases hold k hk i (Option.join_eq_some_iff.mpr hi) hP with hret | hsent
        · exact .inr (.inl (hrecord.handed k i hi hret hP))
        · exact .inr (.inr (hrecord.errorSent k i hi hsent))
      · obtain ⟨-, -, hno', hlp'⟩ := MetaItem_update_fields env i
        refine .inl ⟨k, i.update env, ?_, ?_⟩
        · rw [hentry, hadded.old k hk, hi]
          rfl
        · rw [hno', hlp']
          exact hP
    · exact .inr hrest

/-! ### Visiting a frame -/

def addParcel (cbs : List CallbackParcel) (cb : CallbackParcel) : List CallbackParcel :=
  cbs ++ if cb.valid then [cb] else []

theorem subset_addParcel : cbs ⊆ addParcel cbs cb := List.subset_append_left _ _

theorem mem_addParcel (hvalid : cb.valid = true) : cb ∈ addParcel cbs cb := by
  rw [addParcel, if_pos hvalid]
  exact List.mem_append_right _ List.mem_cons_self

theorem MetaEffect.handedNow {l : List CallbackParcel.MetaItem} {es : List CallbackParcel.Error}
    (heffect : MetaEffect f l es (s, s.emptyParcel f) (s₁, cb)) {i : MetaItem}
    (hi : ∃ m ∈ l, m.item.forget = i.forget) (hP : P i.bufferNo i.lastPartial) :
    Handed P (addParcel cbs cb) f := by
  obtain ⟨m, hm, hi⟩ := hi
  have hmetas : cb.vOutputMetaItem = l := heffect.metas.trans (List.nil_append _)
  refine ⟨cb, mem_addParcel (heffect.valid (.inr (.inl (List.ne_nil_of_mem hm)))),
    heffect.pFrame, m, hmetas ▸ hm, ?_⟩
  obtain ⟨-, -, -, hno, hlp⟩ := MetaItem.forget_eq_forget_iff.mp hi
  rw [hno, hlp]
  exact hP

theorem FrameRecord.visit {l : List CallbackParcel.MetaItem} {es : List CallbackParcel.Error}
    (h : FrameRecord P s cbs f) (heffect : MetaEffect f l es (s, s.emptyParcel f) (s₁, cb)) :
    FrameRecord P s₁ (addParcel cbs cb) f := by
  have herrors : cb.vError = es := heffect.errors.trans (List.nil_append _)
  refine ⟨heffect.home h.home, fun k i' hi' hsent => ?_, fun k i' hi' hsent => ?_,
    fun k i' hi' hret hP => ?_, fun ht => ?_, fun ht => ?_⟩
  · obtain ⟨i, hi, -, hmono, hbits, -⟩ := heffect.kept k i' hi'
    have hold : isSent i.history = true → i'.isReturned = true ∨ i'.isErrorSent = true :=
      fun hsent => (h.sent k i hi hsent).imp (hmono _) (hmono _)
    rcases (isSent_iff _).mp hsent with hb | hb | hb | hb
    · exact .inl hb
    · exact hold ((isSent_iff _).mpr (.inr (.inl ((hbits _ hb).resolve_right (by decide)))))
    · exact .inr hb
    · exact hold ((isSent_iff _).mpr (.inr (.inr (.inr ((hbits _ hb).resolve_right (by decide))))))
  · obtain ⟨i, hi, -, -, -, -, herr, -⟩ := heffect.kept k i' hi'
    rcases herr hsent with herr | herr
    · exact heffect.told.mpr (.inl (h.errorSent k i hi herr))
    · exact herr
  · obtain ⟨i, hi, hforget, -, -, hret', -⟩ := heffect.kept k i' hi'
    obtain ⟨-, -, -, hno, hlp⟩ := MetaItem.forget_eq_forget_iff.mp hforget
    rw [hno, hlp] at hP
    rcases hret' hret with hret | hl
    · exact (h.handed k i hi hret hP).mono subset_addParcel
    · exact heffect.handedNow hl hP
  · rcases heffect.told.mp ht with ht | ⟨e, he, hcode⟩
    · exact (h.told ht).mono subset_addParcel
    · exact ⟨cb, mem_addParcel (heffect.valid (.inr (.inr (List.ne_nil_of_mem he)))),
        heffect.pFrame, e, herrors ▸ he, hcode⟩
  · exact (h.requested (heffect.requested ▸ ht)).mono subset_addParcel

theorem LastHeld.visit {l : List CallbackParcel.MetaItem} {es : List CallbackParcel.Error}
    (h : LastHeld P s cbs f) (hrecord : FrameRecord P s cbs f)
    (heffect : MetaEffect f l es (s, s.emptyParcel f) (s₁, cb)) :
    LastHeld P s₁ (addParcel cbs cb) f := by
  intro hl
  have hl' : (s.metaSet f).hasLastPartial = true := heffect.hasLastPartial ▸ hl
  rcases h hl' with ⟨k, i, hi, hP⟩ | hhanded | herror
  · rcases heffect.cleared k i hi with ⟨i', hi'⟩ | hsent | hnow | herror
    · obtain ⟨i₀, hi₀, hforget, -⟩ := heffect.kept k i' hi'
      obtain rfl : i = i₀ := by
        rw [hi] at hi₀
        exact Option.some_inj.mp (Option.some_inj.mp hi₀)
      obtain ⟨-, -, -, hno, hlp⟩ := MetaItem.forget_eq_forget_iff.mp hforget
      exact .inl ⟨k, i', hi', by rw [hno, hlp]; exact hP⟩
    · rcases hrecord.sent k i hi hsent with hret | herr
      · exact .inr (.inl ((hrecord.handed k i hi hret hP).mono subset_addParcel))
      · exact .inr (.inr (heffect.told.mpr (.inl (hrecord.errorSent k i hi herr))))
    · exact .inr (.inl (heffect.handedNow hnow hP))
    · exact .inr (.inr herror)
  · exact .inr (.inl (hhanded.mono subset_addParcel))
  · exact .inr (.inr (heffect.told.mpr (.inl herror)))

theorem FrameRecord.requestError (h : FrameRecord P s cbs f)
    (heffect : RequestErrorEffect s f s₁ cb) : FrameRecord P s₁ (addParcel cbs cb) f := by
  have hentry : ∀ k, s₁.metaEntry f k = s.metaEntry f k := fun k => by
    rw [metaEntry, heffect.set, metaEntry]
  refine ⟨fun k i hi => h.home k i (hentry k ▸ hi), fun k i hi => h.sent k i (hentry k ▸ hi),
    fun k i hi hsent => ?_, fun k i hi hret hP => ?_, fun ht => ?_, fun _ => ?_⟩
  · rw [heffect.told]
    exact h.errorSent k i (hentry k ▸ hi) hsent
  · exact (h.handed k i (hentry k ▸ hi) hret hP).mono subset_addParcel
  · exact (h.told (heffect.told ▸ ht)).mono subset_addParcel
  · refine ⟨cb, mem_addParcel heffect.valid, heffect.pFrame, { errorCode := .errorRequest }, ?_,
      rfl⟩
    rw [heffect.errors]
    exact List.mem_singleton_self _

theorem LastHeld.requestError (h : LastHeld P s cbs f) (heffect : RequestErrorEffect s f s₁ cb) :
    LastHeld P s₁ (addParcel cbs cb) f := by
  intro hl
  rw [heffect.set] at hl
  rw [heffect.told]
  simp only [metaEntry, heffect.set]
  exact (h hl).imp_right (.imp_left (·.mono subset_addParcel))

theorem imagesEdited_removeFrame (s : FrameHandler) (f : FramePtr) :
    (s.removeFrame f).frames = s.frames ∧
      (s.removeFrame f).mAtMostMetaStreamCount = s.mAtMostMetaStreamCount ∧
      (s.removeFrame f).numFrames = s.numFrames := by
  rw [removeFrame]
  split <;> exact ⟨rfl, rfl, rfl⟩

theorem visit_cases (hinv : s.ImageInvariant) (hhome : s.MetasHome f)
    (hx : prepareFrame env f s = .ok (s₁, cb)) :
    RequestErrorEffect s f s₁ cb ∨ ∃ l es, MetaEffect f l es (s, s.emptyParcel f) (s₁, cb) := by
  by_cases hverdict : checkRequestError (s.frames f) > 0
  · exact .inl (effect_requestError env hinv hverdict hx)
  · exact .inr (effect_prepareFrame env hinv hhome hverdict hx)

theorem sameQueue_of_prepareFrame (hinv : s.ImageInvariant) (hhome : s.MetasHome f)
    (hx : prepareFrame env f s = .ok (s₁, cb)) : SameQueue s s₁ := by
  rcases visit_cases hinv hhome hx with heffect | ⟨l, es, heffect⟩
  · exact heffect.queue
  · exact heffect.queue

theorem sameMeta_of_visit (hinv : s.ImageInvariant) (hhome : s.MetasHome f)
    (hx : prepareFrame env f s = .ok (s₁, cb)) (hg : g ≠ f) :
    SameMeta (s.frames g) ((s₁.removeFrame f).frames g) := by
  rw [(imagesEdited_removeFrame s₁ f).1]
  rcases visit_cases hinv hhome hx with heffect | ⟨l, es, heffect⟩
  · exact heffect.frames g hg
  · exact heffect.frames g hg

theorem sameMeta_removeFrame (s : FrameHandler) (f g : FramePtr) :
    SameMeta (s.frames g) ((s.removeFrame f).frames g) := by
  rw [(imagesEdited_removeFrame s f).1]
  exact .refl _

/-- **The metadata invariant holds along every run.** -/
theorem keeps_metaInvariant (C : StepCondition) (P : ℕ → Bool → Prop) :
    C.Keeps (MetaInvariant P) where
  register s cbs rRequest _ h f :=
    (sameMeta_registerFrame s rRequest f).elim .of_empty
      fun hsame => (h f).congr hsame (List.Subset.refl _)
  latest s cbs frameNo h f := (h f).congr (.refl _) (List.Subset.refl _)
  apply s cbs env f r _ _ _ h g := by
    have happlied := metaApplied_applyResult env f r s
    by_cases hg : g = f
    · subst hg
      exact (h g).apply happlied
    · exact (h g).congr (happlied.frames g hg) (List.Subset.refl _)
  visit s cbs env f s₁ cb hinv _ _ hx _ _ h g := by
    by_cases hg : g = f
    · subst hg
      have hself : FrameRecord P s₁ (addParcel cbs cb) g := by
        rcases visit_cases hinv (h g).home hx with heffect | ⟨l, es, heffect⟩
        · exact (h g).requestError heffect
        · exact (h g).visit heffect
      exact hself.congr (sameMeta_removeFrame s₁ g g) (List.Subset.refl _)
    · exact (h g).congr (sameMeta_of_visit hinv (h f).home hx hg) subset_addParcel

theorem metaInvariant_configure (P : ℕ → Bool → Prop) (n : ℕ) (streams : List StreamId) :
    MetaInvariant P (configure n streams) [] := fun f => .of_empty (sameMeta_configure n streams f)

theorem metaInvariant_of_run (P : ℕ → Bool → Prop) {n : ℕ} {streams : List StreamId}
    {ops : List Op} (hrun : handlerMachine.Runs (configure n streams) ops s cbs) :
    MetaInvariant P s cbs :=
  (keeps_metaInvariant {} P).invariant (hrun.meeting_of_forall fun _ s op => meets_true s op)
    (metaInvariant_configure P n streams)

/-- What holds of the frames that have got their last partial. -/
structure LastInvariant (P : ℕ → Bool → Prop) (s : FrameHandler) (cbs : List CallbackParcel) :
    Prop where
  mark : P s.mAtMostMetaStreamCount true
  record : MetaInvariant P s cbs
  last : ∀ f, LastHeld P s cbs f

/-- **What is held after the last partial**, along every run that replaces no pending item. -/
theorem keeps_lastHeld {C : StepCondition}
    (hC : ∀ env s f r, C.apply env s f r → KeepsPending P s f r) :
    C.Keeps (LastInvariant P) where
  register s cbs rRequest hinv h := by
    refine ⟨(registerFrame_spec s rRequest).2.1.symm ▸ h.mark,
      (keeps_metaInvariant C P).register s cbs rRequest hinv h.record, fun f => ?_⟩
    exact (sameMeta_registerFrame s rRequest f).elim .of_empty
      fun hsame => (h.last f).congr hsame (List.Subset.refl _)
  latest s cbs frameNo h :=
    ⟨h.mark, (keeps_metaInvariant C P).latest s cbs frameNo h.record,
      fun f => (h.last f).congr (.refl _) (List.Subset.refl _)⟩
  apply s cbs env f r hinv hf hCa h := by
    have happlied := metaApplied_applyResult env f r s
    refine ⟨happlied.handler.atMost.symm ▸ h.mark,
      (keeps_metaInvariant C P).apply s cbs env f r hinv hf hCa h.record, fun g => ?_⟩
    by_cases hg : g = f
    · subst hg
      exact (h.last g).apply (h.record g) h.mark (hC env s g r hCa) happlied
    · exact (h.last g).congr (happlied.frames g hg) (List.Subset.refl _)
  visit s cbs env f s₁ cb hinv hf hV hx hvisit hR h := by
    have hqueue := sameQueue_of_prepareFrame hinv (h.record f).home hx
    refine ⟨((imagesEdited_removeFrame s₁ f).2.1.trans hqueue.atMost).symm ▸ h.mark,
      (keeps_metaInvariant C P).visit s cbs env f s₁ cb hinv hf hV hx hvisit hR h.record,
      fun g => ?_⟩
    by_cases hg : g = f
    · subst hg
      have hself : LastHeld P s₁ (addParcel cbs cb) g := by
        rcases visit_cases hinv (h.record g).home hx with heffect | ⟨l, es, heffect⟩
        · exact (h.last g).requestError heffect
        · exact (h.last g).visit (h.record g) heffect
      exact hself.congr (sameMeta_removeFrame s₁ g g) (List.Subset.refl _)
    · exact (h.last g).congr (sameMeta_of_visit hinv (h.record f).home hx hg) subset_addParcel

theorem lastInvariant_configure (n : ℕ) (streams : List StreamId) (hP : P n true) :
    LastInvariant P (configure n streams) [] :=
  ⟨(configure_spec n streams).2.1.symm ▸ hP, metaInvariant_configure P n streams,
    fun f => .of_empty (sameMeta_configure n streams f)⟩

theorem handed_of_visit (hinv : s.ImageInvariant) (hhome : s.MetasHome f)
    (hx : prepareFrame env f s = .ok (s₁, cb)) {m : CallbackParcel.MetaItem}
    (hm : m ∈ cb.vOutputMetaItem) : ∃ k i, s.metaEntry f k = some (some i) ∧
      m.item.forget = i.forget ∧ i.state = .valid ∧ i.isReturned = false ∧
      s.isReturnableMeta i = true := by
  by_cases hverdict : checkRequestError (s.frames f) > 0
  · rw [(effect_requestError env hinv hverdict hx).metas] at hm
    simp at hm
  · obtain ⟨l, es, heffect⟩ := effect_prepareFrame env hinv hhome hverdict hx
    exact heffect.handed m (heffect.metas.trans (List.nil_append _) ▸ hm)

theorem FrameRecord.errors_settled (h : FrameRecord P s cbs f)
    (herror : s.hasError f HistoryBit.errorSentFrame = true ∨
      s.hasError f HistoryBit.errorSentMeta = true) : MetaSettled P cbs f :=
  herror.elim (fun ht => .inr (.inr (h.requested ht))) fun ht => .inr (.inl (h.told ht))

/-- A frame whose last partial has come and whose items of the kind have been handed back. -/
theorem LastHeld.settled (h : LastHeld P s cbs f) (hrecord : FrameRecord P s cbs f)
    (hlast : (s.metaSet f).hasLastPartial = true)
    (hnone : ∀ k i, s.metaEntry f k = some (some i) → P i.bufferNo i.lastPartial →
      i.isReturned = true) : MetaSettled P cbs f := by
  rcases h hlast with ⟨k, i, hi, hP⟩ | hhanded | ht
  · exact .inl (hrecord.handed k i hi (hnone k i hi hP) hP)
  · exact .inl hhanded
  · exact hrecord.errors_settled (.inr ht)

end FrameHandler

end MtkHardware.AppStream
