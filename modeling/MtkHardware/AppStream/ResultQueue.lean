import MtkHardware.AppStream.ImageReturn
import MtkHardware.AppStream.MetaRun

/-!
# The Result Queue

Results arrive by calls of `updateResult`, which queue them by frame number and merge what
arrives for a frame that is queued already. The result thread takes the whole queue and
hands it to the frame handler. The machine here interleaves the calls and the thread, and
tells of each call and of each result that is applied to a frame.
-/

namespace MtkHardware.AppStream

open Pipeline (StreamId)

namespace FrameHandler

variable {s s' s₁ : FrameHandler} {cbs : List CallbackParcel} {f : FramePtr} {env : BufferEnv}
  {n : FrameNo} {r : ResultItem} {rs : List ResultItem} {itFrame : List FramePtr}
  {P : ℕ → Bool → Prop}

/-! ### The search for the frames -/

/-- The results that `applyResults` applies, each with its frame. -/
def appliedResults (s : FrameHandler) :
    List ResultItem → List FramePtr → List (FramePtr × ResultItem)
  | [], _ => []
  | r :: rs, itFrame =>
    match itFrame.dropWhile fun f => r.frameNo ≠ (s.frames f).frameNo with
    | [] => s.appliedResults rs s.mFrameQueue
    | f :: itFrame => (f, r) :: s.appliedResults rs (f :: itFrame)

theorem frameNo_applyResult (env : BufferEnv) (f g : FramePtr) (r : ResultItem)
    (s : FrameHandler) : ((applyResult env f r s).frames g).frameNo = (s.frames g).frameNo := by
  have happlied := metaApplied_applyResult env f r s
  by_cases hg : g = f
  · rw [hg, happlied.frameNo]
  · exact (happlied.frames g hg).frameNo

/-- **What applying results comes to.** -/
theorem applyResults_eq_foldl (env : BufferEnv) (rs : List ResultItem) (itFrame : List FramePtr)
    (hqueue : s₁.mFrameQueue = s.mFrameQueue)
    (hframeNo : ∀ f, (s₁.frames f).frameNo = (s.frames f).frameNo) :
    applyResults env rs itFrame s₁ =
      (s.appliedResults rs itFrame).foldl (fun s x => applyResult env x.1 x.2 s) s₁ := by
  induction rs generalizing s₁ itFrame with
  | nil => rfl
  | cons r rs ih =>
    rw [applyResults, appliedResults]
    simp only [hframeNo, hqueue]
    cases itFrame.dropWhile fun f => decide (r.frameNo ≠ (s.frames f).frameNo) with
    | nil => exact ih _ hqueue hframeNo
    | cons f fs =>
      rw [List.foldl_cons]
      exact ih _ ((mFrameQueue_applyResult env _ r s₁).trans hqueue)
        fun g => (frameNo_applyResult env _ g r s₁).trans (hframeNo g)

def Recorded (s : FrameHandler) (n : FrameNo) : Prop :=
  ∃ f < s.numFrames, (s.frames f).frameNo = n ∧ (s.metaSet f).hasLastPartial = true

instance : Decidable (s.Recorded n) := inferInstanceAs (Decidable (∃ f < _, _ ∧ _))

/-- The frame of each result that brings metadata is found, and a result that only says that
it is the last partial says it of a frame that knows it. -/
def Delivered (s : FrameHandler) : List ResultItem → List FramePtr → Prop
  | [], _ => True
  | r :: rs, itFrame =>
    (r.lastPartial = true → r.buffer ≠ [] ∨ s.Recorded r.frameNo) ∧
      match itFrame.dropWhile fun f => r.frameNo ≠ (s.frames f).frameNo with
      | [] => r.buffer = [] ∧ s.Delivered rs s.mFrameQueue
      | f :: itFrame => s.Delivered rs (f :: itFrame)

instance decidableDelivered (s : FrameHandler) : (rs : List ResultItem) →
    (itFrame : List FramePtr) → Decidable (s.Delivered rs itFrame)
  | [], _ => isTrue trivial
  | r :: rs, itFrame =>
    match hfind : itFrame.dropWhile fun f => r.frameNo ≠ (s.frames f).frameNo with
    | [] =>
      have := s.decidableDelivered rs s.mFrameQueue
      decidable_of_iff ((r.lastPartial = true → r.buffer ≠ [] ∨ s.Recorded r.frameNo) ∧
        r.buffer = [] ∧ s.Delivered rs s.mFrameQueue) (by
          rw [Delivered]
          simp only [hfind])
    | f :: fs =>
      have := s.decidableDelivered rs (f :: fs)
      decidable_of_iff ((r.lastPartial = true → r.buffer ≠ [] ∨ s.Recorded r.frameNo) ∧
        s.Delivered rs (f :: fs)) (by
          rw [Delivered]
          simp only [hfind])

def appliedFor (n : FrameNo) (rs : List ResultItem) : List MetaStreamBuffer :=
  rs.flatMap fun r => if r.frameNo = n then r.buffer else []

/-- **Nothing is left out** of results that are delivered. -/
theorem appliedFor_appliedResults (h : s.Delivered rs itFrame) (n : FrameNo) :
    appliedFor n ((s.appliedResults rs itFrame).map Prod.snd) = appliedFor n rs := by
  induction rs generalizing itFrame with
  | nil => rfl
  | cons r rs ih =>
    rw [Delivered] at h
    rw [appliedResults]
    split
    · rename_i heq
      simp only [heq] at h
      obtain ⟨-, hempty, hrest⟩ := h
      rw [ih hrest, appliedFor, appliedFor, List.flatMap_cons, hempty, ite_self, List.nil_append]
    · rename_i f fs heq
      simp only [heq] at h
      rw [List.map_cons, appliedFor, appliedFor, List.flatMap_cons, List.flatMap_cons]
      exact congrArg _ (ih h.2)

/-! ### Recording the last partial -/

theorem Recorded.congr (h : s.Recorded n) (hnum : s.numFrames ≤ s'.numFrames)
    (hframes : ∀ f < s.numFrames, (s'.frames f).frameNo = (s.frames f).frameNo ∧
      ((s.metaSet f).hasLastPartial = true → (s'.metaSet f).hasLastPartial = true)) :
    s'.Recorded n := by
  obtain ⟨f, hf, hno, hlast⟩ := h
  obtain ⟨hno', hlast'⟩ := hframes f hf
  exact ⟨f, hf.trans_le hnum, hno'.trans hno, hlast' hlast⟩

theorem Recorded.of_sameMeta (h : s.Recorded n) (hnum : s.numFrames ≤ s'.numFrames)
    (hframes : ∀ f < s.numFrames, SameMeta (s.frames f) (s'.frames f)) : s'.Recorded n := by
  refine h.congr hnum fun f hf => ⟨(hframes f hf).frameNo, fun hlast => ?_⟩
  rw [metaSet, (hframes f hf).set]
  exact hlast

theorem recorded_applyResult (hf : f < s.numFrames) (hno : (s.frames f).frameNo = r.frameNo)
    (hflag : r.lastPartial = true) (hne : r.buffer ≠ []) :
    (applyResult env f r s).Recorded r.frameNo := by
  have happlied := metaApplied_applyResult env f r s
  obtain ⟨s₁, hadded, -, -, hlast, -⟩ := happlied.set
  refine ⟨f, happlied.handler.numFrames.symm ▸ hf, happlied.frameNo.trans hno, ?_⟩
  rw [hlast, hadded.hasLastPartial]
  exact .inr ⟨hflag, hne⟩

/-- **What has been recorded stays recorded.** -/
theorem keeps_recorded (C : StepCondition) (P : ℕ → Bool → Prop) (n : FrameNo) :
    C.Keeps fun s cbs => MetaInvariant P s cbs ∧ s.Recorded n where
  register s cbs rRequest hinv h := by
    obtain ⟨-, -, hnum, hother, -⟩ := registerFrame_spec s rRequest
    exact ⟨(keeps_metaInvariant C P).register s cbs rRequest hinv h.1,
      h.2.of_sameMeta (hnum ▸ Nat.le_succ _) fun f hf => hother f (Nat.ne_of_lt hf)⟩
  latest s cbs frameNo h :=
    ⟨(keeps_metaInvariant C P).latest s cbs frameNo h.1,
      h.2.of_sameMeta (Nat.le_refl _) fun f _ => .refl _⟩
  apply s cbs env f r hinv hf hC h := by
    have happlied := metaApplied_applyResult env f r s
    refine ⟨(keeps_metaInvariant C P).apply s cbs env f r hinv hf hC h.1,
      h.2.congr happlied.handler.numFrames.ge fun g _ => ⟨frameNo_applyResult env f g r s, ?_⟩⟩
    intro hlast
    by_cases hg : g = f
    · subst hg
      obtain ⟨s₁, hadded, -, -, hlast', -⟩ := happlied.set
      rw [hlast', hadded.hasLastPartial]
      exact .inl hlast
    · rw [metaSet, (happlied.frames g hg).set]
      exact hlast
  visit s cbs env f s₁ cb hinv hf hV hx hvisit hR h := by
    have hhome := (h.1 f).home
    have hnum : (s₁.removeFrame f).numFrames = s.numFrames :=
      (imagesEdited_removeFrame s₁ f).2.2.trans (sameQueue_of_prepareFrame hinv hhome hx).numFrames
    refine ⟨(keeps_metaInvariant C P).visit s cbs env f s₁ cb hinv hf hV hx hvisit hR h.1,
      h.2.congr hnum.ge fun g _ => ?_⟩
    by_cases hg : g = f
    · subst hg
      rw [metaSet, metaSet, (imagesEdited_removeFrame s₁ g).1]
      rcases visit_cases hinv hhome hx with heffect | ⟨l, es, heffect⟩
      · exact ⟨heffect.frameNo, fun hlast => by
          rw [show (s₁.frames g).vOutputMetaItem = _ from heffect.set]
          exact hlast⟩
      · exact ⟨heffect.frameNo, fun hlast => heffect.hasLastPartial.trans hlast⟩
    · have hsame := sameMeta_of_visit hinv hhome hx hg
      rw [metaSet, metaSet, hsame.set]
      exact ⟨hsame.frameNo, id⟩

/-- **Results that are delivered are recorded.** -/
theorem recorded_applyResults (env : BufferEnv) (hinv : s.ImageInvariant)
    (hmeta : MetaInvariant P s cbs) (hsub : itFrame ⊆ s.mFrameQueue)
    (hqueue : s.mFrameQueue = s₁.mFrameQueue)
    (hframeNo : ∀ f, (s.frames f).frameNo = (s₁.frames f).frameNo)
    (hold : ∀ n, s₁.Recorded n → s.Recorded n) (h : s₁.Delivered rs itFrame) :
    ∀ r ∈ rs, r.lastPartial = true → (applyResults env rs itFrame s).Recorded r.frameNo := by
  have hmeets : ∀ rs itFrame s, StepCondition.OnResults {} env rs itFrame s :=
    StepCondition.onResults_of_forall (fun _ _ _ _ => trivial) env
  induction rs generalizing s itFrame with
  | nil => simp
  | cons r rs ih =>
    rw [Delivered] at h
    rw [applyResults]
    simp only [hframeNo]
    obtain ⟨hflag, hrest⟩ := h
    split
    · rename_i heq
      simp only [heq] at hrest
      intro r' hr' hflag'
      rcases List.mem_cons.mp hr' with rfl | hr'
      · have hrecorded := hold _ ((hflag hflag').resolve_left fun hne => hne hrest.1)
        exact ((keeps_recorded {} P _).applyResults env rs s.mFrameQueue hinv
          (List.Subset.refl _) (hmeets rs _ s) ⟨hmeta, hrecorded⟩).2
      · rw [hqueue]
        exact ih hinv hmeta (hqueue ▸ List.Subset.refl _) hqueue hframeNo hold hrest.2 r' hr'
          hflag'
    · rename_i f fs heq
      simp only [heq] at hrest
      have hf : f :: fs ⊆ s.mFrameQueue := fun g hg =>
        hsub ((List.dropWhile_sublist _).subset (heq ▸ hg))
      have hmem := hf List.mem_cons_self
      have hno : (s.frames f).frameNo = r.frameNo := by
        have hhead := List.head?_dropWhile_not
          (fun f => decide (r.frameNo ≠ (s₁.frames f).frameNo)) itFrame
        rw [heq] at hhead
        simp only [List.head?_cons, decide_eq_false_iff_not, not_not] at hhead
        rw [hframeNo, hhead]
      have hinv' := imageInvariant_of_steps (steps_applyResult env f r hinv) hinv
      have hmeta' := (keeps_metaInvariant {} P).apply s cbs env f r hinv hmem trivial hmeta
      have hqueue' := mFrameQueue_applyResult env f r s
      have hkeeps := fun n => (keeps_recorded {} P n).apply s cbs env f r hinv hmem trivial
      intro r' hr' hflag'
      rcases List.mem_cons.mp hr' with rfl | hr'
      · have hrecorded : (applyResult env f r' s).Recorded r'.frameNo := by
          rcases hflag hflag' with hne | hold'
          · exact recorded_applyResult (hinv.made f hmem) hno hflag' hne
          · exact (hkeeps _ ⟨hmeta, hold _ hold'⟩).2
        exact ((keeps_recorded {} P _).applyResults env rs (f :: fs) hinv' (hqueue'.symm ▸ hf)
          (hmeets rs _ _) ⟨hmeta', hrecorded⟩).2
      · exact ih hinv' hmeta' (hqueue'.symm ▸ hf) (hqueue'.trans hqueue)
          (fun g => (frameNo_applyResult env f g r s).trans (hframeNo g))
          (fun n hn => (hkeeps n ⟨hmeta, hold n hn⟩).2) hrest r' hr' hflag'

end FrameHandler

/-! ### The manager -/

/-- The results of the application stream manager: those that are queued, and those that the
result thread has taken and is about to handle. -/
structure AppStreamMgr where
  exitPending : Bool := false
  mResultQueue : ResultQueue := .empty
  vResult : Option ResultQueue := none
  mFrameHandler : FrameHandler

/-- What is called on the manager, and the two steps of its result thread. The status of the
buffers may change between the two passes over the frames. -/
inductive ResultOp
  | registerRequest (rRequest : Request)
  | updateResult (frameNo : FrameNo) (resultMeta : List MetaStreamBuffer) (hasLastPartial : Bool)
  | requestExit
  | dequeResult
  | handleResult (env env' : BufferEnv)

/-- What can be told of a run: the calls that have been taken on, the results that have been
applied to a frame, and the callbacks. -/
inductive ResultEvent
  | called (frameNo : FrameNo) (resultMeta : List MetaStreamBuffer) (hasLastPartial : Bool)
  | applied (pFrame : FramePtr) (r : ResultItem)
  | callback (cb : CallbackParcel)
  deriving DecidableEq

def handledEvents (applied : List (FramePtr × ResultItem)) (cbs : List CallbackParcel) :
    List ResultEvent :=
  applied.map (fun x => .applied x.1 x.2) ++ cbs.map .callback

namespace AppStreamMgr

/-- Queues a result. A manager that is about to exit is dead. -/
def enqueResult (m : AppStreamMgr) (frameNo : FrameNo) (resultMeta : List MetaStreamBuffer)
    (hasLastPartial : Bool) : Option AppStreamMgr :=
  if m.exitPending then none
  else
    match m.mResultQueue.find? frameNo with
    | some _ => some { m with
        mResultQueue := m.mResultQueue.modify frameNo fun pItem => { pItem with
          lastPartial := hasLastPartial
          buffer := pItem.buffer ++ resultMeta } }
    | none => some { m with
        mResultQueue := m.mResultQueue.add frameNo
          { frameNo, buffer := resultMeta, lastPartial := hasLastPartial } }

/-- The thread takes all results. It waits as long as there are none. -/
def dequeResult (m : AppStreamMgr) : AppStreamMgr :=
  match m.vResult with
  | some _ => m
  | none =>
    if m.mResultQueue.size = 0 then m
    else { m with mResultQueue := .empty, vResult := some m.mResultQueue }

def handleResult (env env' : BufferEnv) (m : AppStreamMgr) :
    Except Fault (AppStreamMgr × List ResultEvent) :=
  match m.vResult with
  | none => .ok (m, [])
  | some rvResult =>
    match (m.mFrameHandler.updateResults env rvResult).updateCallbacks env' with
    | .error e => .error e
    | .ok (s, cbs) => .ok ({ m with vResult := none, mFrameHandler := s },
        handledEvents (m.mFrameHandler.appliedResults (rvResult.entries.map Prod.snd)
          m.mFrameHandler.mFrameQueue) cbs)

end AppStreamMgr

def resultMachine : Machine AppStreamMgr ResultOp ResultEvent Fault
  | m, .registerRequest rRequest =>
    .ok ({ m with mFrameHandler := m.mFrameHandler.registerFrame rRequest }, [])
  | m, .updateResult frameNo resultMeta hasLastPartial =>
    match m.enqueResult frameNo resultMeta hasLastPartial with
    | none => .ok (m, [])
    | some m' => .ok (m', [.called frameNo resultMeta hasLastPartial])
  | m, .requestExit => .ok ({ m with exitPending := true }, [])
  | m, .dequeResult => .ok (m.dequeResult, [])
  | m, .handleResult env env' => m.handleResult env env'

namespace AppStreamMgr

open FrameHandler

variable {m m' : AppStreamMgr} {events : List ResultEvent} {n : FrameNo} {ops : List ResultOp}
  {count : ℕ} {streams : List StreamId}

def start (mAtMostMetaStreamCount : ℕ) (streams : List StreamId) : AppStreamMgr where
  mFrameHandler := configure mAtMostMetaStreamCount streams

def calledFor (n : FrameNo) : ResultEvent → List MetaStreamBuffer
  | .called frameNo resultMeta _ => if frameNo = n then resultMeta else []
  | _ => []

def handledFor (n : FrameNo) : ResultEvent → List MetaStreamBuffer
  | .applied _ r => if r.frameNo = n then r.buffer else []
  | _ => []

def queuedFor (n : FrameNo) (q : ResultQueue) : List MetaStreamBuffer :=
  ((q.find? n).map (·.buffer)).getD []

def QueuedLast (n : FrameNo) (q : ResultQueue) : Prop :=
  ∃ r, q.find? n = some r ∧ r.lastPartial = true

/-- **The condition**: no call takes back the last partial that is queued for its frame, and
the results that are handled are delivered. -/
def Delivers (m : AppStreamMgr) : ResultOp → Prop
  | .updateResult frameNo _ hasLastPartial => m.exitPending = false →
      ∀ r ∈ m.mResultQueue.find? frameNo, r.lastPartial = true → hasLastPartial = true
  | .handleResult _ _ => ∀ rvResult ∈ m.vResult,
      m.mFrameHandler.Delivered (rvResult.entries.map Prod.snd) m.mFrameHandler.mFrameQueue
  | _ => True

instance (m : AppStreamMgr) : (op : ResultOp) → Decidable (m.Delivers op)
  | .updateResult frameNo _ hasLastPartial => inferInstanceAs (Decidable (_ →
      ∀ r ∈ m.mResultQueue.find? frameNo, r.lastPartial = true → hasLastPartial = true))
  | .handleResult _ _ => inferInstanceAs (Decidable (∀ rvResult ∈ m.vResult,
      m.mFrameHandler.Delivered _ _))
  | .registerRequest _ => isTrue trivial
  | .requestExit => isTrue trivial
  | .dequeResult => isTrue trivial

/-! ### What the steps do -/

def Keyed (q : ResultQueue) : Prop := ∀ k r, q.find? k = some r → r.frameNo = k

theorem keyed_empty : Keyed .empty := by
  intro k r hr
  cases hr

theorem queuedFor_empty (n : FrameNo) : queuedFor n .empty = [] := rfl

theorem not_queuedLast_empty : ¬ QueuedLast n .empty := by
  rintro ⟨r, hr, -⟩
  cases hr

theorem appliedFor_entries {q : ResultQueue} (h : Keyed q) (n : FrameNo) :
    appliedFor n (q.entries.map Prod.snd) = queuedFor n q := by
  have hkeyed : ∀ e ∈ q.entries, e.2.frameNo = e.1 := fun e he =>
    h e.1 e.2 (KeyedVector.find?_eq_some_iff.mpr he)
  have hnodup : (q.entries.map Prod.fst).Nodup := q.nodup_keys
  rw [queuedFor, KeyedVector.find?]
  generalize q.entries = l at hkeyed hnodup
  induction l with
  | nil => rfl
  | cons e l ih =>
    obtain ⟨he, hl⟩ := List.forall_mem_cons.mp hkeyed
    rw [List.map_cons, List.nodup_cons] at hnodup
    rw [List.map_cons, appliedFor, List.flatMap_cons, KeyedVector.lookup_cons_ite, he]
    have hrest := ih hl hnodup.2
    rw [appliedFor] at hrest
    rw [hrest]
    by_cases hn : e.1 = n
    · -- no other result is of the frame
      have hnone : l.lookup n = none := by
        rw [List.lookup_eq_none_iff]
        intro e' he'
        rw [bne_iff_ne]
        exact fun heq => hnodup.1 (List.mem_map.mpr ⟨e', he', heq.symm.trans hn.symm⟩)
      simp [hn, hnone]
    · simp [hn, Ne.symm hn]

/-- **Queueing a result.** -/
theorem enqueResult_spec {frameNo : FrameNo} {resultMeta : List MetaStreamBuffer} {last : Bool}
    (hkeyed : Keyed m.mResultQueue) (h : m.enqueResult frameNo resultMeta last = some m') :
    m.exitPending = false ∧ m'.vResult = m.vResult ∧ m'.mFrameHandler = m.mFrameHandler ∧
      ∀ k, m'.mResultQueue.find? k = if k = frameNo then
        some { frameNo, buffer := queuedFor frameNo m.mResultQueue ++ resultMeta,
               lastPartial := last }
      else m.mResultQueue.find? k := by
  rw [enqueResult] at h
  split at h
  · cases h
  · rename_i hexit
    refine ⟨by simpa using hexit, ?_⟩
    split at h
    · rename_i pItem hfind
      cases h
      refine ⟨rfl, rfl, fun k => ?_⟩
      rw [KeyedVector.find?_modify]
      split_ifs with hk
      · subst hk
        rw [hfind, queuedFor, hfind, ← hkeyed k pItem hfind]
        rfl
      · rfl
    · rename_i hfind
      cases h
      refine ⟨rfl, rfl, fun k => ?_⟩
      rw [KeyedVector.find?_add, queuedFor, hfind]
      rfl

/-- **Taking the results.** -/
theorem dequeResult_spec (m : AppStreamMgr) : m.dequeResult = m ∨
    m.vResult = none ∧
      m.dequeResult = { m with mResultQueue := .empty, vResult := some m.mResultQueue } := by
  rw [dequeResult]
  split
  · exact .inl rfl
  · rename_i hnone
    split
    · exact .inl rfl
    · exact .inr ⟨hnone, rfl⟩

/-- **Handling results that are delivered**, as far as the handler goes. -/
theorem handled_spec {s s' : FrameHandler} {cbs cbs' : List CallbackParcel}
    {P : ℕ → Bool → Prop} {env env' : BufferEnv} {rvResult : ResultQueue}
    (hinv : s.ImageInvariant) (hmeta : MetaInvariant P s cbs)
    (hdel : s.Delivered (rvResult.entries.map Prod.snd) s.mFrameQueue)
    (hx : (s.updateResults env rvResult).updateCallbacks env' = .ok (s', cbs')) :
    s'.ImageInvariant ∧ MetaInvariant P s' (cbs ++ cbs') ∧
      (∀ n, s.Recorded n → s'.Recorded n) ∧ ∀ n, QueuedLast n rvResult →
        Keyed rvResult → s'.Recorded n := by
  have hfirst : handlerMachine s (.updateResults env rvResult) =
      .ok (s.updateResults env rvResult, []) := rfl
  have hinv₁ := imageInvariant_of_steps (steps_handlerMachine hinv hfirst) hinv
  have hmeta₁ := (keeps_metaInvariant {} P).step hinv (meets_true s _) hmeta hfirst
  rw [List.append_nil] at hmeta₁
  have hrun : handlerMachine (s.updateResults env rvResult) (.updateCallbacks env') =
      .ok (s', cbs') := hx
  have hkeeps : ∀ n, (s.updateResults env rvResult).Recorded n → s'.Recorded n := fun n hn =>
    ((keeps_recorded {} P n).step hinv₁ (meets_true _ _) ⟨hmeta₁, hn⟩ hrun).2
  refine ⟨imageInvariant_of_steps (steps_handlerMachine hinv₁ hrun) hinv₁,
    (keeps_metaInvariant {} P).step hinv₁ (meets_true _ _) hmeta₁ hrun, fun n hn => ?_,
    fun n hlast hkeyed => hkeeps n ?_⟩
  · exact hkeeps n
      ((keeps_recorded {} P n).step hinv (meets_true s _) ⟨hmeta, hn⟩ hfirst).2
  · obtain ⟨frameNo, heq⟩ := updateResults_eq env rvResult s
    obtain ⟨r, hr, hflag⟩ := hlast
    have hmem : r ∈ rvResult.entries.map Prod.snd :=
      List.mem_map_of_mem (KeyedVector.find?_eq_some_iff.mp hr)
    have hrecorded := recorded_applyResults env hinv hmeta (List.Subset.refl _) rfl
      (fun _ => rfl) (fun _ h => h) hdel r hmem hflag
    rw [heq, ← hkeyed n r hr]
    exact hrecorded

/-! ### Runs -/

/-- What is known of the calls of a run: their metadata has been applied, has been taken or
is queued, and so is the word that a last partial has come. -/
structure ResultInvariant (m : AppStreamMgr) (events : List ResultEvent) : Prop where
  keyed : Keyed m.mResultQueue
  taken : Keyed (m.vResult.getD .empty)
  buffers : ∀ n, events.flatMap (calledFor n) = events.flatMap (handledFor n) ++
    (queuedFor n (m.vResult.getD .empty) ++ queuedFor n m.mResultQueue)
  flags : ∀ n resultMeta, .called n resultMeta true ∈ events →
    m.mFrameHandler.Recorded n ∨ QueuedLast n (m.vResult.getD .empty) ∨
      QueuedLast n m.mResultQueue
  images : m.mFrameHandler.ImageInvariant
  metas : ∃ cbs, MetaInvariant (fun _ _ => True) m.mFrameHandler cbs

theorem ResultInvariant.registerRequest (h : ResultInvariant m events) (rRequest : Request) :
    ResultInvariant { m with mFrameHandler := m.mFrameHandler.registerFrame rRequest } events := by
  obtain ⟨cbs, hmeta⟩ := h.metas
  have hstep : handlerMachine m.mFrameHandler (.registerFrame rRequest) =
      .ok (m.mFrameHandler.registerFrame rRequest, []) := rfl
  refine { h with
    images := imageInvariant_of_steps (steps_handlerMachine h.images hstep) h.images
    metas := ⟨_, (keeps_metaInvariant {} _).step h.images (meets_true _ _) hmeta hstep⟩
    flags := fun n resultMeta hcall => (h.flags n resultMeta hcall).imp_left fun hn => ?_ }
  exact ((keeps_recorded {} _ n).step h.images (meets_true _ _) ⟨hmeta, hn⟩ hstep).2

theorem ResultInvariant.enqueResult {frameNo : FrameNo} {resultMeta : List MetaStreamBuffer}
    {last : Bool} (h : ResultInvariant m events)
    (hC : m.Delivers (.updateResult frameNo resultMeta last))
    (hm : m.enqueResult frameNo resultMeta last = some m') :
    ResultInvariant m' (events ++ [.called frameNo resultMeta last]) := by
  obtain ⟨hexit, htaken, hhandler, hfind⟩ := enqueResult_spec h.keyed hm
  have hqueued : ∀ n, queuedFor n m'.mResultQueue =
      queuedFor n m.mResultQueue ++ if frameNo = n then resultMeta else [] := fun n => by
    rw [queuedFor, hfind]
    by_cases hn : n = frameNo
    · rw [if_pos hn, if_pos hn.symm, hn]
      rfl
    · rw [if_neg hn, if_neg (Ne.symm hn), List.append_nil]
      rfl
  have hlast : ∀ n, QueuedLast n m.mResultQueue → QueuedLast n m'.mResultQueue := by
    rintro n ⟨r, hr, hflag⟩
    by_cases hn : n = frameNo
    · subst hn
      exact ⟨_, (hfind n).trans (if_pos rfl), hC hexit r hr hflag⟩
    · exact ⟨r, by rw [hfind, if_neg hn, hr], hflag⟩
  refine ⟨fun k r hr => ?_, htaken ▸ h.taken, fun n => ?_, fun n bs hcall => ?_,
    hhandler ▸ h.images, hhandler ▸ h.metas⟩
  · rw [hfind] at hr
    split_ifs at hr with hk
    · cases hr
      exact hk.symm
    · exact h.keyed k r hr
  · rw [List.flatMap_append, List.flatMap_append, h.buffers, hqueued, htaken]
    simp [calledFor, handledFor]
  · rw [hhandler, htaken]
    rcases List.mem_append.mp hcall with hcall | hcall
    · exact (h.flags n bs hcall).imp_right (.imp_right (hlast n))
    · rw [List.mem_singleton, ResultEvent.called.injEq] at hcall
      obtain ⟨rfl, rfl, rfl⟩ := hcall
      exact .inr (.inr ⟨_, (hfind n).trans (if_pos rfl), rfl⟩)

theorem ResultInvariant.dequeResult (h : ResultInvariant m events) :
    ResultInvariant m.dequeResult events := by
  rcases dequeResult_spec m with heq | ⟨hnone, heq⟩
  · rw [heq]
    exact h
  · rw [heq]
    refine ⟨keyed_empty, h.keyed, fun n => ?_, fun n bs hcall => ?_, h.images,
      h.metas⟩
    · have hbuffers := h.buffers n
      rw [hnone] at hbuffers
      rw [hbuffers]
      dsimp only [Option.getD_none, Option.getD_some]
      rw [queuedFor_empty, List.nil_append, List.append_nil]
    · have hflags := h.flags n bs hcall
      rw [hnone] at hflags
      refine hflags.imp_right fun hlast => .inl ?_
      exact hlast.resolve_left not_queuedLast_empty

theorem ResultInvariant.handleResult {env env' : BufferEnv} {o : List ResultEvent}
    (h : ResultInvariant m events) (hC : m.Delivers (.handleResult env env'))
    (hm : m.handleResult env env' = .ok (m', o)) : ResultInvariant m' (events ++ o) := by
  rw [AppStreamMgr.handleResult] at hm
  split at hm
  · cases hm
    rw [List.append_nil]
    exact h
  · rename_i rvResult htaken
    split at hm
    · cases hm
    · rename_i s cbs' hx
      cases hm
      obtain ⟨cbs, hmeta⟩ := h.metas
      have hdel := hC rvResult htaken
      obtain ⟨himages, hmetas, hold, hnew⟩ := handled_spec h.images hmeta hdel hx
      have hkeyed : Keyed rvResult := by
        have hk := h.taken
        rw [htaken] at hk
        exact hk
      refine ⟨h.keyed, keyed_empty, fun n => ?_, fun n bs hcall => ?_, himages,
        ⟨_, hmetas⟩⟩
      · have hhandled : ∀ applied : List (FramePtr × ResultItem),
            (handledEvents applied cbs').flatMap (calledFor n) = [] ∧
              (handledEvents applied cbs').flatMap (handledFor n) =
                appliedFor n (applied.map Prod.snd) := fun applied => by
          rw [handledEvents, appliedFor]
          simp [List.flatMap_append, List.flatMap_map, calledFor, handledFor]
        have hbuffers := h.buffers n
        rw [htaken] at hbuffers
        rw [List.flatMap_append, List.flatMap_append, (hhandled _).1, (hhandled _).2, hbuffers,
          appliedFor_appliedResults hdel, appliedFor_entries hkeyed]
        simp [queuedFor_empty]
      · rcases List.mem_append.mp hcall with hcall | hcall
        · have hflags := h.flags n bs hcall
          rw [htaken] at hflags
          rcases hflags with hn | hlast | hlast
          · exact .inl (hold n hn)
          · exact .inl (hnew n hlast hkeyed)
          · exact .inr (.inr hlast)
        · simp [handledEvents] at hcall

/-- **Nothing that has been called for is lost**: the metadata of each frame has been applied
once, in the order of the calls, and each last partial has been recorded. -/
structure NothingLost (m : AppStreamMgr) (events : List ResultEvent) : Prop where
  buffers : ∀ n, events.flatMap (handledFor n) = events.flatMap (calledFor n)
  flags : ∀ n resultMeta, .called n resultMeta true ∈ events → m.mFrameHandler.Recorded n

/-- **The result queue.** In every run in which no call takes a queued last partial back and
all results that are handled are delivered, nothing is lost once the queue is drained. -/
theorem results_delivered
    (hrun : resultMachine.RunsMeeting (fun _ m op => m.Delivers op) (start count streams) ops m
      events)
    (hqueue : m.mResultQueue.size = 0) (htaken : m.vResult = none) : NothingLost m events := by
  have hinv : ResultInvariant m events := by
    refine hrun.invariant (I := fun _ m events => ResultInvariant m events)
      ⟨keyed_empty, keyed_empty, fun n => rfl, fun n bs hcall => absurd hcall List.not_mem_nil,
        (idle_configure count streams).invariant.1,
        ⟨[], metaInvariant_configure _ count streams⟩⟩ fun ops m events op m' o h hC hstep => ?_
    cases op with
    | registerRequest rRequest =>
      cases hstep
      rw [List.append_nil]
      exact h.registerRequest rRequest
    | updateResult frameNo resultMeta hasLastPartial =>
      rw [resultMachine] at hstep
      split at hstep
      · cases hstep
        rw [List.append_nil]
        exact h
      · rename_i m₁ hm
        cases hstep
        exact h.enqueResult hC hm
    | requestExit =>
      cases hstep
      rw [List.append_nil]
      exact { h with }
    | dequeResult =>
      cases hstep
      rw [List.append_nil]
      exact h.dequeResult
    | handleResult env env' => exact h.handleResult hC hstep
  have hempty : m.mResultQueue.entries = [] := List.eq_nil_of_length_eq_zero hqueue
  have hnone : ∀ n, m.mResultQueue.find? n = none := fun n => by
    rw [KeyedVector.find?, hempty]
    rfl
  refine ⟨fun n => ?_, fun n bs hcall => ?_⟩
  · rw [hinv.buffers n, htaken, queuedFor, queuedFor, hnone]
    simp [KeyedVector.find?_empty]
  · rcases hinv.flags n bs hcall with hn | ⟨r, hr, -⟩ | ⟨r, hr, -⟩
    · exact hn
    · rw [htaken] at hr
      cases hr
    · rw [hnone] at hr
      cases hr

def oneImage : Request where
  frameNo := 1
  vOutputImageBuffers := .add {} { handle := 10, streamId := 1 }

/-- The metadata of a frame in two calls, of which the second says that it is the last. -/
def lastPartialMerged : List ResultOp :=
  [.registerRequest oneImage, .updateResult 1 [⟨30, 7, .metaOut⟩] false,
    .updateResult 1 [⟨31, 8, .metaOut⟩] true, .dequeResult, .handleResult allReleased allReleased]

/-- The two calls of `lastPartialMerged` are merged and lose nothing. -/
theorem results_delivered_lastPartialMerged : ∃ m events, resultMachine.RunsMeeting
    (fun _ m op => m.Delivers op) (start 5 [1]) lastPartialMerged m events ∧
    NothingLost m events := by
  have hobserve : ((resultMachine.observe (start 5 [1]) lastPartialMerged
      fun m => (m.mResultQueue.size, m.vResult.isNone)).map (·.1)) = some (0, true) := by
    decide +kernel
  obtain ⟨⟨view, events⟩, hview, rfl⟩ := Option.map_eq_some_iff.mp hobserve
  obtain ⟨m, hrun, hm⟩ := Machine.exists_run_of_observe hview
  obtain ⟨hqueue, htaken⟩ := Prod.mk.inj hm
  have hmeeting := hrun.meeting (C := Delivers) (by decide +kernel)
  exact ⟨m, events, hmeeting,
    results_delivered hmeeting hqueue (Option.isNone_iff_eq_none.mp htaken)⟩

def lastPartialFirst : List ResultOp :=
  [.registerRequest oneImage, .updateResult 1 [⟨31, 8, .metaOut⟩] true,
    .updateResult 1 [⟨30, 7, .metaOut⟩] false, .dequeResult,
    .handleResult allReleased allReleased]

/-- The second call takes the last partial back. -/
theorem lastPartialFirst_lost : ∃ m events,
    resultMachine.Runs (start 5 [1]) lastPartialFirst m events ∧ m.mResultQueue.size = 0 ∧
      m.vResult = none ∧ ¬ NothingLost m events := by
  have hobserve : ((resultMachine.observe (start 5 [1]) lastPartialFirst fun m =>
      (m.mResultQueue.size, m.vResult.isNone, decide (m.mFrameHandler.Recorded 1))).map fun x =>
        (x.1, decide (.called 1 [⟨31, 8, .metaOut⟩] true ∈ x.2))) =
      some ((0, true, false), true) := by decide +kernel
  obtain ⟨⟨view, events⟩, hview, heq⟩ := Option.map_eq_some_iff.mp hobserve
  obtain ⟨rfl, hcall⟩ := Prod.mk.inj heq
  obtain ⟨m, hrun, hm⟩ := Machine.exists_run_of_observe hview
  obtain ⟨hqueue, hrest⟩ := Prod.mk.inj hm
  obtain ⟨htaken, hrecorded⟩ := Prod.mk.inj hrest
  exact ⟨m, events, hrun, hqueue, Option.isNone_iff_eq_none.mp htaken, fun hlost =>
    of_decide_eq_false hrecorded (hlost.flags 1 _ (of_decide_eq_true hcall))⟩

end AppStreamMgr

end MtkHardware.AppStream
