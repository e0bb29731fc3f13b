import MtkHardware.LegacyPipeline.ResultDelivery
import Mathlib.Data.List.TakeWhile

/-!
# What Full Results Are Made Of

The partial results of a request are appended in `mResultQueue` and, when the thread has taken them,
in `mFullResultQueue`. The full result of a stream is the metadata of the first of them, to which
those of all others are added one after the other; its error is that of the last of them.

Where the last update of a request is the last, has brought metadata of the App and of the HAL, and
has an error if any of the others has, the full results are made of all partial results that have
been received (`assembled_of_runs`).
-/

namespace MtkHardware.LegacyPipeline

namespace ResultProcessor

variable {p p' p₀ : ResultProcessor} {op : ResultOp} {ops : List ResultOp}
  {events o : List ResultEvent} {gone : List IListener} {L : List RangeListener}
  {r k : ℕ} {q : BufQue} {item : ResultItem} {cb : Callback} {cbs cbs' : List Callback}
  {partials : List IMetaStreamBuffer} {full : List RangeListener}

inductive Side
  | app
  | hal
  deriving DecidableEq, Repr

namespace Side

def buffers : Side → ResultItem → List IMetaStreamBuffer
  | app, item => item.outAppBuffer
  | hal, item => item.outHalBuffer

def updates : Side → FrameResult → List IMetaStreamBuffer
  | app, result => result.vAppOutMeta
  | hal, result => result.vHalOutMeta

def streamId : Side → StreamId
  | app => eSTREAMID_META_APP_FULL
  | hal => eSTREAMID_META_HAL_FULL

end Side

/-- The metadata of all buffers, merged from left to right. -/
def mergeAll : List IMetaStreamBuffer → MetadataMap
  | [] => .empty
  | b :: bs => bs.foldl (fun result b => result.append b.metadata) b.metadata

/-! ### What is received -/

def updateOp : ResultOp → Option (ℕ × FrameResult)
  | .updateFrame requestNo result => if result.bFrameEnd then none else some (requestNo, result)
  | _ => none

/-- The updates that are taken: those before `flush` is called. -/
def accepted (ops : List ResultOp) : List (ℕ × FrameResult) :=
  (ops.takeWhile fun op => decide (op ≠ .flush)).filterMap updateOp

/-- The partial results that are received for a request, in the order of their arrival. -/
def receivedFor (side : Side) (ops : List ResultOp) (r : ℕ) : List IMetaStreamBuffer :=
  (accepted ops).flatMap fun e => if e.1 = r then side.updates e.2 else []

def isLastUpdate (result : FrameResult) : Bool :=
  decide (result.nAppOutMetaLeft = 0) && decide (result.nHalOutMetaLeft = 0)

def lastReceived (ops : List ResultOp) (r : ℕ) : Bool :=
  (accepted ops).any fun e => e.1 == r && isLastUpdate e.2

def InOrder (ops : List ResultOp) : Prop :=
  (accepted ops).Pairwise fun e e' => e.1 = e'.1 → isLastUpdate e.2 = false

instance (ops : List ResultOp) : Decidable (InOrder ops) :=
  inferInstanceAs (Decidable (List.Pairwise _ _))

def Wanted (full : List RangeListener) (r : ℕ) : Prop :=
  ∃ l ∈ full, ListenerBase.canCallback l r 0 = true

/-- **The condition** on the updates: the last update of a request is the last, and when it has been
received for a request that a listener has in its range, then there is metadata of the App and of
the HAL, and an error of some of it is also that of the last. -/
structure WellReported (full : List RangeListener) (ops : List ResultOp) : Prop where
  last : InOrder ops
  nonempty : ∀ r, Wanted full r → lastReceived ops r = true → ∀ side, receivedFor side ops r ≠ []
  error : ∀ r, Wanted full r → lastReceived ops r = true → ∀ side,
    (receivedFor side ops r).any IMetaStreamBuffer.error = true →
      (receivedFor side ops r).getLast?.any IMetaStreamBuffer.error = true

structure MadeOf (partials : List IMetaStreamBuffer) (cb : Callback) : Prop where
  ne_nil : partials ≠ []
  buffer : cb.buffer = mergeAll partials
  errorResult : cb.errorResult = partials.getLast?.any IMetaStreamBuffer.error

/-- **The full results are assembled**: the process has not ended, and each full result is the
merge of all partial results of its request, with their errors. -/
structure Assembled (ops : List ResultOp) (events : List ResultEvent) (p : ResultProcessor) :
    Prop where
  running : p.aborted = false
  full : ∀ cb, .fullResult cb ∈ events → ∃ side : Side, cb.streamId = side.streamId ∧
    cb.buffer = mergeAll (receivedFor side ops cb.requestNo) ∧
    (cb.errorResult = true ↔ ∃ b ∈ receivedFor side ops cb.requestNo, b.error = true)

theorem errorResult_eq_iff (h : MadeOf partials cb) :
    (cb.errorResult = true ↔ ∃ b ∈ partials, b.error = true) ↔
      (partials.any IMetaStreamBuffer.error = true →
        partials.getLast?.any IMetaStreamBuffer.error = true) := by
  have hlast : partials.getLast?.any IMetaStreamBuffer.error = true →
      ∃ b ∈ partials, b.error = true := by
    intro hany
    obtain ⟨b, hb, herror⟩ := (Option.any_eq_true _ _).mp hany
    exact ⟨b, List.mem_of_getLast? hb, herror⟩
  rw [h.errorResult, List.any_eq_true]
  exact ⟨fun hiff => hiff.mpr, fun himp => ⟨hlast, himp⟩⟩

/-! ### The callbacks -/

def CallbackOf (item : ResultItem) (cb : Callback) : Prop :=
  item.isLast = true ∧ cb.requestNo = item.requestNo ∧
    ∃ side : Side, cb.streamId = side.streamId ∧ MadeOf (side.buffers item) cb

theorem madeOf_addFullCallback {sid : StreamId} {l : RangeListener}
    (h : addFullCallback gone k sid l partials cbs = some cbs') (hcb : cb ∈ cbs') :
    cb ∈ cbs ∨ cb.requestNo = k ∧ cb.streamId = sid ∧ MadeOf partials cb := by
  rw [addFullCallback] at h
  split at h
  · split at h
    · cases h
      exact .inl hcb
    · split at h
      · cases h
      · rename_i b bs
        obtain rfl := Option.some.inj h
        rcases List.mem_append.mp hcb with hold | hnew
        · exact .inl hold
        · obtain rfl := List.mem_singleton.mp hnew
          refine .inr ⟨rfl, rfl, List.cons_ne_nil b bs, rfl, ?_⟩
          rw [List.getLast?_eq_some_getLast (List.cons_ne_nil b bs), Option.any_some]
  · cases h
    exact .inl hcb

theorem callbackOf_handleFullItem {item' : ResultItem}
    (h : handleFullItem gone L item cbs = some (item', cbs')) (hcb : cb ∈ cbs') :
    cb ∈ cbs ∨ CallbackOf item cb := by
  induction L generalizing item cbs with
  | nil =>
    cases h
    exact .inl hcb
  | cons l L ih =>
    rw [handleFullItem] at h
    split at h
    · rename_i hlast
      rw [Bool.and_eq_true] at hlast
      obtain ⟨cbs₁, happ, h⟩ := Option.bind_eq_some_iff.mp h
      obtain ⟨cbs₂, hhal, h⟩ := Option.bind_eq_some_iff.mp h
      rcases ih h with hmem | ⟨-, hreq, side, hside, hmade⟩
      · rcases madeOf_addFullCallback hhal hmem with hmem | ⟨hreq, hsid, hmade⟩
        · rcases madeOf_addFullCallback happ hmem with hmem | ⟨hreq, hsid, hmade⟩
          · exact .inl hmem
          · exact .inr ⟨hlast.1, hreq, .app, hsid, hmade⟩
        · exact .inr ⟨hlast.1, hreq, .hal, hsid, hmade⟩
      · refine .inr ⟨hlast.1, hreq, side, hside, ?_⟩
        cases side <;> exact hmade
    · exact ih h

/-- **What a callback of a full result is made of**: the partial results of a complete item. -/
theorem madeOf_of_mem {items : List (ℕ × ResultItem)}
    (h : .fullResult cb ∈ (handleFullResultCallback gone L items).2) :
    ∃ e ∈ items, CallbackOf e.2 cb := by
  induction items with
  | nil => cases h
  | cons e items ih =>
    rw [handleFullResultCallback] at h
    split at h
    · cases h
    · rename_i item' callbackList hitem
      rcases List.mem_append.mp h with hmem | hmem
      · obtain ⟨cb', hcb', heq⟩ := List.mem_map.mp hmem
        cases heq
        rcases callbackOf_handleFullItem hitem hcb' with hnil | hof
        · cases hnil
        · exact ⟨e, List.mem_cons_self, hof⟩
      · obtain ⟨e', he', hof⟩ := ih hmem
        exact ⟨e', List.mem_cons_of_mem e he', hof⟩

/-! ### The queues -/

def heldIn (side : Side) (q : BufQue) (r : ℕ) : List IMetaStreamBuffer :=
  (q.find? r).elim [] side.buffers

theorem heldIn_addResult (side : Side) (q : BufQue) (k : ℕ) (app hal : List IMetaStreamBuffer)
    (last : Bool) (r : ℕ) : heldIn side (addResult q k app hal last) r =
      heldIn side q r ++ if k = r then (match side with | .app => app | .hal => hal) else [] := by
  rw [heldIn, addResult, KeyedVector.find?_insertWith, heldIn]
  by_cases hk : r = k
  · subst hk
    rw [if_pos rfl, if_pos rfl]
    cases q.find? r <;> cases side <;> rfl
  · rw [if_neg hk, if_neg (Ne.symm hk), List.append_nil]

theorem heldIn_eq (side : Side) (q : BufQue) (r : ℕ) : heldIn side q r =
    q.entries.flatMap fun e => if e.1 = r then side.buffers e.2 else [] := by
  have hnodup : (q.entries.map Prod.fst).Nodup := q.nodup_keys
  rw [heldIn, KeyedVector.find?]
  revert hnodup
  generalize q.entries = entries
  intro hnodup
  induction entries with
  | nil => rfl
  | cons e entries ih =>
    rw [List.map_cons, List.nodup_cons] at hnodup
    rw [KeyedVector.lookup_cons_ite, List.flatMap_cons, ← ih hnodup.2]
    by_cases hk : r = e.1
    · have hnone : entries.lookup r = none := by
        rw [List.lookup_eq_none_iff]
        intro e' he'
        have hne : e'.1 ≠ r := fun heq =>
          hnodup.1 (List.mem_map.mpr ⟨e', he', heq.trans hk⟩)
        simpa using Ne.symm hne
      rw [if_pos hk, if_pos hk.symm, hnone, Option.elim_none, List.append_nil, Option.elim_some]
    · rw [if_neg hk, if_neg (Ne.symm hk), List.nil_append]

/-- The partial results that the thread has taken are appended to those that it has collected. -/
theorem held_collect (side : Side) (q rvResult : BufQue) (r : ℕ) :
    heldIn side (rvResult.entries.foldl (fun q e => collectPartialResult q e.1 e.2) q) r =
      heldIn side q r ++ heldIn side rvResult r := by
  rw [heldIn_eq side rvResult]
  induction rvResult.entries generalizing q with
  | nil => rw [List.foldl_nil, List.flatMap_nil, List.append_nil]
  | cons e entries ih =>
    rw [List.foldl_cons, ih, collectPartialResult, heldIn_addResult, List.flatMap_cons,
      List.append_assoc]
    cases side <;> rfl

/-! ### One update more -/

theorem accepted_concat (h : .flush ∉ ops) (op : ResultOp) :
    accepted (ops ++ [op]) = accepted ops ++ (updateOp op).toList := by
  have hall : ∀ op' ∈ ops, decide (op' ≠ ResultOp.flush) = true :=
    fun op' hop => decide_eq_true fun heq => h (heq ▸ hop)
  rw [accepted, accepted, List.takeWhile_append_of_pos hall,
    List.takeWhile_eq_self_iff.mpr hall, List.filterMap_append]
  congr 1
  by_cases hop : op = .flush
  · subst hop
    rfl
  · have hone : List.takeWhile (fun op => decide (op ≠ ResultOp.flush)) [op] = [op] :=
      List.takeWhile_eq_self_iff.mpr (by simpa using hop)
    rw [hone]
    cases hupdate : updateOp op with
    | none => rw [List.filterMap_cons_none hupdate, List.filterMap_nil, Option.toList_none]
    | some e => rw [List.filterMap_cons_some hupdate, List.filterMap_nil, Option.toList_some]

theorem accepted_of_flushed (h : .flush ∈ ops) (op : ResultOp) :
    accepted (ops ++ [op]) = accepted ops := by
  rw [accepted, accepted, List.takeWhile_append, if_neg]
  intro hlength
  have hall := List.takeWhile_eq_self_iff.mp
    ((List.takeWhile_prefix _).eq_of_length hlength)
  exact absurd (hall _ h) (by simp)

theorem accepted_concat_of_none (ops : List ResultOp) (h : updateOp op = none) :
    accepted (ops ++ [op]) = accepted ops := by
  by_cases hflush : .flush ∈ ops
  · exact accepted_of_flushed hflush op
  · rw [accepted_concat hflush, h, Option.toList_none, List.append_nil]

theorem accepted_prefix (ops : List ResultOp) (op : ResultOp) :
    ∃ es, accepted (ops ++ [op]) = accepted ops ++ es := by
  by_cases hflush : .flush ∈ ops
  · exact ⟨[], by rw [accepted_of_flushed hflush, List.append_nil]⟩
  · exact ⟨_, accepted_concat hflush op⟩

theorem received_of_last (h : WellReported full (ops ++ [op])) (hlast : lastReceived ops r = true)
    (side : Side) : receivedFor side (ops ++ [op]) r = receivedFor side ops r := by
  obtain ⟨es, hes⟩ := accepted_prefix ops op
  have hpair := h.last
  rw [InOrder, hes, List.pairwise_append] at hpair
  obtain ⟨e, he, hlast⟩ := List.any_eq_true.mp hlast
  rw [Bool.and_eq_true, beq_iff_eq] at hlast
  rw [receivedFor, receivedFor, hes, List.flatMap_append]
  have hnone : (es.flatMap fun e => if e.1 = r then side.updates e.2 else []) = [] := by
    rw [List.flatMap_eq_nil_iff]
    intro e' he'
    refine if_neg fun heq => ?_
    have hnot := hpair.2.2 e he e' he' (hlast.1.trans heq.symm)
    exact Bool.false_ne_true (hnot.symm.trans hlast.2)
  rw [hnone, List.append_nil]

theorem lastReceived_mono (hlast : lastReceived ops r = true) (op : ResultOp) :
    lastReceived (ops ++ [op]) r = true := by
  obtain ⟨es, hes⟩ := accepted_prefix ops op
  rw [lastReceived, hes, List.any_append]
  exact Bool.or_eq_true_iff.mpr (.inl hlast)

theorem WellReported.of_concat (h : WellReported full (ops ++ [op])) : WellReported full ops where
  last := by
    obtain ⟨es, hes⟩ := accepted_prefix ops op
    have hpair := h.last
    rw [InOrder, hes, List.pairwise_append] at hpair
    exact hpair.1
  nonempty r hwanted hlast side := by
    rw [← received_of_last h hlast side]
    exact h.nonempty r hwanted (lastReceived_mono hlast op) side
  error r hwanted hlast side := by
    rw [← received_of_last h hlast side]
    exact h.error r hwanted (lastReceived_mono hlast op) side

theorem WellReported.not_last {e : ℕ × FrameResult} (h : WellReported full (ops ++ [op]))
    (hflush : .flush ∉ ops) (hop : updateOp op = some e) : lastReceived ops e.1 = false := by
  have hpair := h.last
  rw [InOrder, accepted_concat hflush, hop, Option.toList_some, List.pairwise_append] at hpair
  rw [lastReceived, List.any_eq_false]
  intro e' he' hboth
  rw [Bool.and_eq_true, beq_iff_eq] at hboth
  have hnot := hpair.2.2 e' he' e (List.mem_singleton_self e) hboth.1
  exact Bool.false_ne_true (hnot.symm.trans hboth.2)

/-! ### The invariant -/

/-- What the thread has taken from `mResultQueue`. -/
def taken (p : ResultProcessor) : BufQue :=
  match p.thread with
  | .handling rvResult _ _ => rvResult
  | _ => .empty

/-- The partial results of a request are in the queues, the earlier ones ahead, and nothing comes
behind the last update. -/
structure Pending (ops : List ResultOp) (p : ResultProcessor) (r : ℕ) : Prop where
  held : ∀ side, heldIn side p.mFullResultQueue r ++ heldIn side p.taken r ++
    heldIn side p.mResultQueue r = receivedFor side ops r
  last : (lastIn p.mFullResultQueue r || lastIn p.taken r || lastIn p.mResultQueue r) =
    lastReceived ops r
  quiet : (lastIn p.mFullResultQueue r || lastIn p.taken r) = true →
    p.mResultQueue.find? r = none

/-- The full results of a request have been handed out, or nobody has had use for them. -/
structure Done (ops : List ResultOp) (p : ResultProcessor) (r : ℕ) : Prop where
  last : lastReceived ops r = true
  full : p.mFullResultQueue.find? r = none
  taken : p.taken.find? r = none
  result : p.mResultQueue.find? r = none

structure Holding (ops : List ResultOp) (p : ResultProcessor) : Prop where
  flushAt : p.flushAt = .notCalled ∨ p.flushAt = .exitRequested
  request : ∀ r, Pending ops p r ∨ Done ops p r

/-- What is kept by every step: `flush` has been called once an exit is pending, and once it has
cleared the listeners, there is nobody to call back. -/
structure Gathering (ops : List ResultOp) (p : ResultProcessor) : Prop where
  exit : p.exitPending = true ↔ .flush ∈ ops
  holding : p.mFullListenerList = [] ∨ Holding ops p

theorem Holding.of_eq {ops' : List ResultOp} (h : Holding ops p)
    (haccepted : accepted ops' = accepted ops)
    (hflush : p'.flushAt = .notCalled ∨ p'.flushAt = .exitRequested)
    (hfull : p'.mFullResultQueue = p.mFullResultQueue) (htaken : p'.taken = p.taken)
    (hresult : p'.mResultQueue = p.mResultQueue) : Holding ops' p' where
  flushAt := hflush
  request r := by
    rcases h.request r with hpending | hdone
    · refine .inl ⟨fun side => ?_, ?_, ?_⟩
      · rw [hfull, htaken, hresult, receivedFor, haccepted]
        exact hpending.held side
      · rw [hfull, htaken, hresult, lastReceived, haccepted]
        exact hpending.last
      · rw [hfull, htaken, hresult]
        exact hpending.quiet
    · refine .inr ⟨?_, ?_, ?_, ?_⟩
      · rw [lastReceived, haccepted]
        exact hdone.last
      · rw [hfull]
        exact hdone.full
      · rw [htaken]
        exact hdone.taken
      · rw [hresult]
        exact hdone.result

theorem taken_broadcast (p : ResultProcessor) : p.broadcast.taken = p.taken := by
  rw [broadcast]
  split
  · rename_i hthread
    rw [taken, taken, hthread]
  · rfl

theorem broadcast_eq (p : ResultProcessor) :
    ∃ thread, p.broadcast = { p with thread := thread } := by
  rw [broadcast]
  split
  · exact ⟨_, rfl⟩
  · exact ⟨p.thread, rfl⟩

/-! ### The steps of the callers -/

theorem gathering_updateFrame {result : FrameResult} (h : Gathering ops p)
    (hwell : WellReported full (ops ++ [.updateFrame k result])) :
    Gathering (ops ++ [.updateFrame k result]) (p.updateFrame k result) := by
  have hflush : ResultOp.flush ∈ ops ++ [.updateFrame k result] ↔ .flush ∈ ops := by simp
  rw [updateFrame]
  split
  · rename_i hexit
    have haccepted := accepted_of_flushed (h.exit.mp hexit) (.updateFrame k result)
    exact ⟨h.exit.trans hflush.symm, h.holding.imp_right fun hh =>
      hh.of_eq haccepted hh.flushAt rfl rfl rfl⟩
  · rename_i hexit
    split
    · rename_i hend
      have haccepted := accepted_concat_of_none ops
        (show updateOp (.updateFrame k result) = none by rw [updateOp, if_pos hend])
      exact ⟨h.exit.trans hflush.symm, h.holding.imp_right fun hh =>
        hh.of_eq haccepted hh.flushAt rfl rfl rfl⟩
    · rename_i hend
      have hop : updateOp (.updateFrame k result) = some (k, result) := by
        rw [updateOp, if_neg hend]
      have hnot : .flush ∉ ops := fun hmem => hexit (h.exit.mpr hmem)
      have haccepted : accepted (ops ++ [.updateFrame k result]) =
          accepted ops ++ [(k, result)] := by
        rw [accepted_concat hnot, hop, Option.toList_some]
      have hfirst := hwell.not_last hnot hop
      obtain ⟨thread, heq⟩ := broadcast_eq { p with
        mResultQueue := addResult p.mResultQueue k result.vAppOutMeta result.vHalOutMeta
          (isLastUpdate result) }
      have htaken := taken_broadcast { p with
        mResultQueue := addResult p.mResultQueue k result.vAppOutMeta result.vHalOutMeta
          (isLastUpdate result) }
      change Gathering _ (broadcast { p with
        mResultQueue := addResult p.mResultQueue k result.vAppOutMeta result.vHalOutMeta
          (isLastUpdate result) })
      rw [heq] at htaken ⊢
      refine ⟨h.exit.trans hflush.symm, h.holding.imp_right fun hh => ⟨hh.flushAt, fun r => ?_⟩⟩
      have hreceived (side : Side) : receivedFor side (ops ++ [.updateFrame k result]) r =
          receivedFor side ops r ++ if k = r then side.updates result else [] := by
        rw [receivedFor, haccepted, List.flatMap_append, List.flatMap_singleton]
        rfl
      have hlast : lastReceived (ops ++ [.updateFrame k result]) r =
          (lastReceived ops r || (r == k && isLastUpdate result)) := by
        rw [lastReceived, haccepted, List.any_append, List.any_cons, List.any_nil, Bool.or_false,
          BEq.comm (a := k)]
        rfl
      rcases hh.request r with hpending | hdone
      · refine .inl ⟨fun side => ?_, ?_, fun hearly => ?_⟩
        · rw [htaken, heldIn_addResult, ← List.append_assoc, hreceived, ← hpending.held side]
          cases side <;> rfl
        · rw [htaken, lastIn_addResult, hlast, ← hpending.last]
          simp only [Bool.or_assoc]
          rfl
        · rw [htaken] at hearly
          dsimp only
          rw [addResult, KeyedVector.find?_insertWith, if_neg, hpending.quiet hearly]
          rintro rfl
          have hbefore := hpending.last
          rw [hfirst, Bool.or_eq_false_iff] at hbefore
          exact Bool.false_ne_true (hbefore.1.symm.trans hearly)
      · have hne : k ≠ r := by
          rintro rfl
          exact Bool.false_ne_true (hfirst.symm.trans hdone.last)
        refine .inr ⟨?_, hdone.full, ?_, ?_⟩
        · rw [hlast, hdone.last, Bool.true_or]
        · rw [htaken]
          exact hdone.taken
        · dsimp only
          rw [addResult, KeyedVector.find?_insertWith, if_neg (Ne.symm hne)]
          exact hdone.result

theorem taken_of_not_handling (h : ∀ rvResult rvEarlyResult rvFrameEnd,
    p.thread ≠ .handling rvResult rvEarlyResult rvFrameEnd) : p.taken = .empty := by
  rw [taken]
  split
  · rename_i hthread
    exact absurd hthread (h _ _ _)
  · rfl

theorem gathering_dequeResult (h : Gathering ops p) (hop : updateOp op = none) (hne : op ≠ .flush)
    (hthread : ∀ rvResult rvEarlyResult rvFrameEnd,
      p.thread ≠ .handling rvResult rvEarlyResult rvFrameEnd) :
    Gathering (ops ++ [op]) p.dequeResult := by
  have hflush : ResultOp.flush ∈ ops ++ [op] ↔ .flush ∈ ops := by
    rw [List.mem_append, List.mem_singleton, or_iff_left (Ne.symm hne)]
  have haccepted := accepted_concat_of_none ops hop
  have htaken := taken_of_not_handling hthread
  rw [dequeResult]
  split
  · split
    · rename_i hexit
      refine ⟨h.exit.trans hflush.symm, h.holding.imp_right fun hh =>
        hh.of_eq haccepted hh.flushAt rfl ?_ rfl⟩
      rw [htaken]
      exact taken_of_not_handling fun _ _ _ => by simp [loop, if_pos hexit]
    · refine ⟨h.exit.trans hflush.symm, h.holding.imp_right fun hh =>
        hh.of_eq haccepted hh.flushAt rfl ?_ rfl⟩
      rw [htaken]
      rfl
  · refine ⟨h.exit.trans hflush.symm, h.holding.imp_right fun hh => ⟨hh.flushAt, fun r => ?_⟩⟩
    have htaken' : taken { p with
        thread := .handling p.mResultQueue p.mEarlyResultQueue p.mFrameEndList
        mResultQueue := .empty
        mEarlyResultQueue := .empty
        mFrameEndList := [] } = p.mResultQueue := rfl
    rcases hh.request r with hpending | hdone
    · refine .inl ⟨fun side => ?_, ?_, fun _ => rfl⟩
      · have hheld := hpending.held side
        rw [htaken] at hheld
        rw [htaken', receivedFor, haccepted]
        exact (List.append_nil _).trans ((congrArg (· ++ _) (List.append_nil _).symm).trans hheld)
      · have hlast := hpending.last
        rw [htaken] at hlast
        rw [htaken', lastReceived, haccepted]
        exact (Bool.or_false _).trans ((congrArg (· || _) (Bool.or_false _).symm).trans hlast)
    · refine .inr ⟨?_, hdone.full, ?_, rfl⟩
      · rw [lastReceived, haccepted]
        exact hdone.last
      · rw [htaken']
        exact hdone.result

/-- A step that leaves the queues and the call of `flush` as they are. -/
theorem gathering_of_eq (h : Gathering ops p) (hop : updateOp op = none) (hne : op ≠ .flush)
    (hflushAt : p'.flushAt = p.flushAt) (hlist : p'.mFullListenerList = p.mFullListenerList)
    (hfull : p'.mFullResultQueue = p.mFullResultQueue) (htaken : p'.taken = p.taken)
    (hresult : p'.mResultQueue = p.mResultQueue) : Gathering (ops ++ [op]) p' where
  exit := by
    have hflush : ResultOp.flush ∈ ops ++ [op] ↔ .flush ∈ ops := by
      rw [List.mem_append, List.mem_singleton, or_iff_left (Ne.symm hne)]
    rw [hflush, ← h.exit, exitPending, exitPending, hflushAt]
  holding := by
    rw [hlist]
    refine h.holding.imp_right fun hh =>
      hh.of_eq (accepted_concat_of_none ops hop) ?_ hfull htaken hresult
    rw [hflushAt]
    exact hh.flushAt

theorem gathering_flush (h : Gathering ops p) (hflush : p.flush = .ok p') :
    Gathering (ops ++ [.flush]) p' := by
  have hmem : ResultOp.flush ∈ ops ++ [.flush] := by simp
  have haccepted := accepted_concat_of_none ops (show updateOp .flush = none from rfl)
  have hcleared (h₁ : p.flushAt ≠ .notCalled) (h₂ : p.flushAt ≠ .exitRequested) :
      p.mFullListenerList = [] := h.holding.resolve_right fun hh => hh.flushAt.elim h₁ h₂
  rw [flush] at hflush
  split at hflush
  · cases hflush
    exact ⟨iff_of_true rfl hmem, h.holding.imp_right fun hh =>
      hh.of_eq haccepted (.inr rfl) rfl rfl rfl⟩
  · cases hflush
    exact ⟨iff_of_true rfl hmem, .inl rfl⟩
  · rename_i hat
    cases hflush
    obtain ⟨thread, heq⟩ := broadcast_eq { p with
      flushAt := .resultsCleared
      mResultQueue := .empty
      mFrameEndList := [] }
    rw [heq]
    exact ⟨iff_of_true rfl hmem, .inl (hcleared (by simp [hat]) (by simp [hat]))⟩
  · rename_i hat
    cases hflush
    exact ⟨iff_of_true rfl hmem, .inl (hcleared (by simp [hat]) (by simp [hat]))⟩
  · rename_i hat
    split at hflush
    · cases hflush
      exact ⟨iff_of_true rfl hmem, .inl (hcleared (by simp [hat]) (by simp [hat]))⟩
    · cases hflush
  · cases hflush

/-! ### The step of the thread -/

theorem handledItem_of_not (L : List RangeListener) (h : item.isLast = false) :
    handledItem gone L item = item := by
  rw [handledItem, handleFullItem_of_not L [] (by rw [h, Bool.false_and])]
  rfl

theorem isLast_handledItem (L : List RangeListener) (h : item.isReturned = false) :
    (handledItem gone L item).isLast = item.isLast := by
  have hitem := itemHandled gone L h
  rw [handledItem]
  generalize handleFullItem gone L item [] = result at hitem
  cases hitem with
  | nobody hlast hnone => exact hlast
  | ended hitem hserved hempty => rfl
  | served hitem hlast hserved happ hhal happcb hhalcb => exact hlast.trans hitem.symm

theorem flushAt_handleResult (p : ResultProcessor) (rvResult : BufQue) (rvEarlyResult : EBufQue)
    (rvFrameEnd : List ℕ) :
    (p.handleResult rvResult rvEarlyResult rvFrameEnd).1.flushAt = p.flushAt := by
  rw [handleResult]
  dsimp only
  split
  · rfl
  · generalize hp₂ : ({ (p.handlePartialResultCallback rvResult).1 with
      mFullResultQueue := _ } : ResultProcessor) = p₂
    obtain ⟨range, stream, full, hp₃, -, -⟩ := handleFrameEnds_spec p₂ rvFrameEnd
    obtain ⟨early, hp₄, -⟩ := handleEarly_spec (p₂.handleFrameEnds rvFrameEnd).1
      (rvEarlyResult.entries.map Prod.snd)
    rw [hp₄, hp₃, ← hp₂]
    rfl

theorem lastIn_collected (p : ResultProcessor) (rvResult : BufQue) (r : ℕ) :
    lastIn (p.collected rvResult) r = (lastIn p.mFullResultQueue r || lastIn rvResult r) := by
  rw [collected, lastIn_collect, ← lastIn_eq_any]

theorem lastIn_of_none (h : q.find? r = none) : lastIn q r = false := by
  rw [lastIn, h, Option.any_none]

theorem find?_collected_of_none {rvResult : BufQue} (hfull : p.mFullResultQueue.find? r = none)
    (hresult : rvResult.find? r = none) : (p.collected rvResult).find? r = none := by
  rw [KeyedVector.find?_eq_none_iff, KeyedVector.keys] at hresult
  rw [collected]
  revert hfull hresult
  generalize p.mFullResultQueue = q
  generalize rvResult.entries = entries
  intro hfull hresult
  induction entries generalizing q with
  | nil => exact hfull
  | cons e entries ih =>
    rw [List.map_cons, List.mem_cons, not_or] at hresult
    refine ih _ ?_ hresult.2
    unfold collectPartialResult addResult
    rw [KeyedVector.find?_insertWith, if_neg hresult.1]
    exact hfull

theorem Holding.complete (h : Holding ops p) (hfind : (p.collected p.taken).find? r = some item)
    (hitem : item.isLast = true) :
    lastReceived ops r = true ∧ p.mResultQueue.find? r = none ∧
      ∀ side : Side, side.buffers item = receivedFor side ops r := by
  have hlast : lastIn (p.collected p.taken) r = true := by
    rw [lastIn, hfind, Option.any_some, hitem]
  rw [lastIn_collected] at hlast
  rcases h.request r with hpending | hdone
  · have hquiet := hpending.quiet hlast
    refine ⟨?_, hquiet, fun side => ?_⟩
    · rw [← hpending.last, hlast, Bool.true_or]
    · have hnone : heldIn side p.mResultQueue r = [] := by rw [heldIn, hquiet, Option.elim_none]
      rw [← hpending.held side, hnone, List.append_nil, ← held_collect]
      exact (congrArg (Option.elim · [] side.buffers) hfind).symm
  · rw [lastIn_of_none hdone.full, lastIn_of_none hdone.taken] at hlast
    cases hlast

theorem Holding.handled (h : Holding ops p) (hclean : Clean (p.collected p.taken))
    (hop : updateOp op = none) (hflushAt : p'.flushAt = p.flushAt) (htaken : p'.taken = .empty)
    (hresult : p'.mResultQueue = p.mResultQueue)
    (hqueue : p'.mFullResultQueue = ((p.collected p.taken).mapVal fun _ =>
      handledItem p.gone p.mFullListenerList).filterVal (!·.isLast)) :
    Holding (ops ++ [op]) p' where
  flushAt := by
    rw [hflushAt]
    exact h.flushAt
  request r := by
    have haccepted := accepted_concat_of_none ops hop
    have hfull : p'.mFullResultQueue.find? r = (((p.collected p.taken).find? r).map
        (handledItem p.gone p.mFullListenerList)).filter (!·.isLast) := by
      rw [hqueue, KeyedVector.find?_filterVal, KeyedVector.find?_mapVal]
    cases hfind : (p.collected p.taken).find? r with
    | none =>
      rw [hfind, Option.map_none, Option.filter_none] at hfull
      rcases h.request r with hpending | hdone
      · have hlast : (lastIn p.mFullResultQueue r || lastIn p.taken r) = false := by
          rw [← lastIn_collected, lastIn_of_none hfind]
        refine .inl ⟨fun side => ?_, ?_, fun hearly => ?_⟩
        · have hheld : heldIn side p.mFullResultQueue r ++ heldIn side p.taken r = [] := by
            rw [← held_collect]
            exact congrArg (Option.elim · [] side.buffers) hfind
          rw [htaken, hresult, receivedFor, haccepted]
          have hpend := hpending.held side
          rw [hheld] at hpend
          rw [heldIn, hfull]
          exact hpend
        · rw [htaken, hresult, lastReceived, haccepted, lastIn_of_none hfull]
          have hpend := hpending.last
          rw [hlast] at hpend
          exact hpend
        · rw [htaken, lastIn_of_none hfull] at hearly
          cases hearly
      · refine .inr ⟨?_, hfull, by rw [htaken]; rfl, by rw [hresult]; exact hdone.result⟩
        rw [lastReceived, haccepted]
        exact hdone.last
    | some item =>
      rw [hfind, Option.map_some] at hfull
      cases hitem : item.isLast with
      | true =>
        obtain ⟨hlast, hnone, -⟩ := h.complete hfind hitem
        refine .inr ⟨?_, ?_, by rw [htaken]; rfl, by rw [hresult]; exact hnone⟩
        · rw [lastReceived, haccepted]
          exact hlast
        · rw [hfull, Option.filter_some, if_neg]
          rw [isLast_handledItem _ (hclean r item hfind).2, hitem]
          exact Bool.false_ne_true
      | false =>
        rw [handledItem_of_not _ hitem, Option.filter_some,
          if_pos (by rw [hitem]; rfl)] at hfull
        have hnot : lastIn (p.collected p.taken) r = false := by
          rw [lastIn, hfind, Option.any_some, hitem]
        have hnot' : lastIn p'.mFullResultQueue r = false := by
          rw [lastIn, hfull, Option.any_some, hitem]
        rw [lastIn_collected] at hnot
        rcases h.request r with hpending | hdone
        · refine .inl ⟨fun side => ?_, ?_, fun hearly => ?_⟩
          · rw [htaken, hresult, receivedFor, haccepted]
            have hpend := hpending.held side
            rw [← held_collect] at hpend
            have hsame : heldIn side p'.mFullResultQueue r =
                heldIn side (p.collected p.taken) r := by rw [heldIn, heldIn, hfull, hfind]
            rw [hsame]
            exact (congrArg (· ++ _) (List.append_nil _)).trans hpend
          · rw [htaken, hresult, lastReceived, haccepted, hnot']
            have hpend := hpending.last
            rw [hnot] at hpend
            exact hpend
          · rw [htaken, hnot'] at hearly
            cases hearly
        · rw [find?_collected_of_none hdone.full hdone.taken] at hfind
          cases hfind

/-- What is known of a run: a request whose full results have been handed out is complete. -/
structure Assembling (full : List RangeListener) (ops : List ResultOp)
    (events : List ResultEvent) (p : ResultProcessor) : Prop where
  listeners : p.mFullListenerList ⊆ full
  gathering : Gathering ops p
  assembled : Assembled ops events p
  complete : ∀ cb, .fullResult cb ∈ events → lastReceived ops cb.requestNo = true

theorem Assembling.quiet (h : Assembling full ops events p)
    (hwell : WellReported full (ops ++ [op]))
    (hgathering : Gathering (ops ++ [op]) p') (hquiet : Quiet p p') :
    Assembling full (ops ++ [op]) (events ++ []) p' := by
  rw [List.append_nil]
  refine ⟨?_, hgathering, ⟨hquiet.aborted.trans h.assembled.running, fun cb hcb => ?_⟩,
    fun cb hcb => lastReceived_mono (h.complete cb hcb) op⟩
  · rcases hquiet.list with hlist | hlist
    · rw [hlist]
      exact h.listeners
    · rw [hlist]
      exact List.nil_subset full
  · obtain ⟨side, hside, hrest⟩ := h.assembled.full cb hcb
    refine ⟨side, hside, ?_⟩
    rw [received_of_last hwell (h.complete cb hcb) side]
    exact hrest

theorem wanted_of_served {x : IListener} (hL : L ⊆ full) (h : served gone L r = some x) :
    Wanted full r := by
  obtain ⟨l, hl, hcan, -⟩ := listens_of_served h
  exact ⟨l, hL hl, hcan⟩

theorem Holding.assembled (h : Holding ops p) (hwell : WellReported full ops)
    (hclean : Clean (p.collected p.taken)) (hlisteners : p.mFullListenerList ⊆ full)
    (hcb : .fullResult cb ∈ (handleFullResultCallback p.gone p.mFullListenerList
      (p.collected p.taken).entries).2) :
    lastReceived ops cb.requestNo = true ∧ ∃ side : Side, cb.streamId = side.streamId ∧
      cb.buffer = mergeAll (receivedFor side ops cb.requestNo) ∧
      (cb.errorResult = true ↔ ∃ b ∈ receivedFor side ops cb.requestNo, b.error = true) := by
  obtain ⟨⟨r, item⟩, hmem, hlast, hreq, side, hside, hmade⟩ := madeOf_of_mem hcb
  have hfind := KeyedVector.find?_eq_some_iff.mpr hmem
  have hr : cb.requestNo = r := hreq.trans (hclean r item hfind).1
  obtain ⟨hreceived, -, hbuffers⟩ := h.complete hfind hlast
  have hserved := mem_handleFullResultCallback
    (fun e he => (hclean e.1 e.2 (KeyedVector.find?_eq_some_iff.mpr he)).2) hcb
  rw [hr] at hserved ⊢
  rw [hbuffers side] at hmade
  exact ⟨hreceived, side, hside, hmade.buffer, (errorResult_eq_iff hmade).mpr
    (hwell.error r (wanted_of_served hlisteners hserved) hreceived side)⟩

/-- **The step of the thread.** -/
theorem Assembling.handled (h : Assembling full ops events p)
    (hclean : Clean p.mFullResultQueue) (hop : updateOp op = none) (hne : op ≠ .flush)
    (hwell : WellReported full (ops ++ [op]))
    (hflushAt : p'.flushAt = p.flushAt) (hhandled : Handled p p.taken p' o) :
    Assembling full (ops ++ [op]) (events ++ o) p' := by
  have hclean' : Clean (p.collected p.taken) := clean_collect hclean
  have hreturned : ∀ e ∈ (p.collected p.taken).entries,
      e.2.requestNo = e.1 ∧ e.2.isReturned = false := fun e he =>
    hclean' e.1 e.2 (KeyedVector.find?_eq_some_iff.mpr he)
  have haccepted := accepted_concat_of_none ops hop
  have hflush : ResultOp.flush ∈ ops ++ [op] ↔ .flush ∈ ops := by
    rw [List.mem_append, List.mem_singleton, or_iff_left (Ne.symm hne)]
  have hexit : p'.exitPending = true ↔ .flush ∈ ops ++ [op] := by
    rw [hflush, ← h.gathering.exit, exitPending, exitPending, hflushAt]
  have hreceived (side : Side) (r : ℕ) :
      receivedFor side (ops ++ [op]) r = receivedFor side ops r := by
    rw [receivedFor, receivedFor, haccepted]
  have hnew : ∀ cb, .fullResult cb ∈ (handleFullResultCallback p.gone p.mFullListenerList
      (p.collected p.taken).entries).2 → lastReceived ops cb.requestNo = true ∧
        ∃ side : Side, cb.streamId = side.streamId ∧
          cb.buffer = mergeAll (receivedFor side ops cb.requestNo) ∧
          (cb.errorResult = true ↔
            ∃ b ∈ receivedFor side ops cb.requestNo, b.error = true) := by
    intro cb hcb
    rcases h.gathering.holding with hnobody | hholding
    · have hserved := mem_handleFullResultCallback (fun e he => (hreturned e he).2) hcb
      rw [hnobody] at hserved
      cases hserved
    · exact hholding.assembled hwell.of_concat hclean' h.listeners hcb
  have hall : (handleFullResultCallback p.gone p.mFullListenerList
      (p.collected p.taken).entries).1 = true := by
    refine (handleFullResultCallback_handled_iff hreturned).mpr fun e he hlast x hserved => ?_
    rcases h.gathering.holding with hnobody | hholding
    · rw [hnobody] at hserved
      cases hserved
    · obtain ⟨hcomplete, -, hbuffers⟩ := hholding.complete
        (KeyedVector.find?_eq_some_iff.mpr he) hlast
      have hnonempty := hwell.of_concat.nonempty e.1 (wanted_of_served h.listeners hserved)
        hcomplete
      exact ⟨(hbuffers .app).trans_ne (hnonempty .app), (hbuffers .hal).trans_ne (hnonempty .hal)⟩
  have hfull (hmem : ∀ cb, .fullResult cb ∈ o → .fullResult cb ∈ (handleFullResultCallback p.gone
      p.mFullListenerList (p.collected p.taken).entries).2) (cb : Callback)
      (hcb : .fullResult cb ∈ events ++ o) : lastReceived ops cb.requestNo = true ∧
        ∃ side : Side, cb.streamId = side.streamId ∧
          cb.buffer = mergeAll (receivedFor side ops cb.requestNo) ∧
          (cb.errorResult = true ↔
            ∃ b ∈ receivedFor side ops cb.requestNo, b.error = true) := by
    rcases List.mem_append.mp hcb with hold | hcb
    · exact ⟨h.complete cb hold, h.assembled.full cb hold⟩
    · exact hnew cb (hmem cb hcb)
  cases hhandled with
  | ended hnot => rw [hall] at hnot; cases hnot
  | handled hh haborted hgone hkept hthread' hresult hqueue hmem hdeliveries =>
    obtain ⟨keep, hlist, -⟩ := hkept
    refine ⟨?_, ⟨hexit, ?_⟩, ⟨?_, fun cb hcb => ?_⟩, fun cb hcb => ?_⟩
    · rw [hlist]
      exact fun l hl => h.listeners (List.mem_of_mem_filter hl)
    · rcases h.gathering.holding with hnobody | hholding
      · rw [hnobody, List.filter_nil] at hlist
        exact .inl hlist
      · refine .inr (hholding.handled hclean' hop hflushAt ?_ hresult hqueue)
        exact taken_of_not_handling fun _ _ _ heq => by
          rcases hthread' with ht | ht <;> rw [ht] at heq <;> cases heq
    · rw [haborted]
      exact h.assembled.running
    · obtain ⟨-, side, hside, hrest⟩ := hfull hmem cb hcb
      refine ⟨side, hside, ?_⟩
      rw [hreceived]
      exact hrest
    · exact lastReceived_mono (hfull hmem cb hcb).1 op

/-! ### Runs -/

theorem Assembling.step (h : Assembling full ops events p) (htidy : Tidy events p)
    (hwell : WellReported full (ops ++ [op])) (hstep : resultProcessor p op = .ok (p', o)) :
    Assembling full (ops ++ [op]) (events ++ o) p' := by
  obtain ⟨-, ⟨rvResult, rvEarlyResult, rvFrameEnd, rfl, hthread, hhandled⟩ | ⟨hne, rfl, hquiet⟩⟩ :=
    step_cases hstep
  · have htaken : p.taken = rvResult := by rw [taken, hthread]
    rw [← htaken] at hhandled
    refine h.handled htidy.clean rfl (by simp) hwell ?_ hhandled
    unfold resultProcessor ResultProcessor.step at hstep
    rw [hthread] at hstep
    split at hstep
    · cases hstep
    · have hstate : (p.handleResult rvResult rvEarlyResult rvFrameEnd).1 = p' :=
        congrArg Prod.fst (Except.ok.inj hstep)
      rw [← hstate]
      exact flushAt_handleResult ..
  · refine h.quiet hwell ?_ hquiet
    unfold resultProcessor ResultProcessor.step at hstep
    split at hstep
    · cases hstep
    cases op with
    | updateFrame requestNo result =>
      cases hstep
      exact gathering_updateFrame h.gathering hwell
    | onMetaCallback requestNo streamId rMetaData errorResult =>
      obtain ⟨rfl, -⟩ := Prod.ext_iff.mp (Except.ok.inj hstep)
      rw [onMetaCallback]
      split
      · exact gathering_of_eq h.gathering rfl (by simp) rfl rfl rfl rfl rfl
      · split
        · exact gathering_of_eq h.gathering rfl (by simp) rfl rfl rfl rfl rfl
        · generalize p.mEarlyResultQueue.add _ _ = queue
          have htaken := taken_broadcast { p with mEarlyResultQueue := queue }
          obtain ⟨thread, heq⟩ := broadcast_eq { p with mEarlyResultQueue := queue }
          rw [heq] at htaken ⊢
          exact gathering_of_eq h.gathering rfl (by simp) rfl rfl rfl htaken rfl
    | dequeResult =>
      dsimp only at hstep
      split at hstep
      · rename_i hthread
        cases hstep
        exact gathering_dequeResult h.gathering rfl (by simp) (by simp [hthread])
      · cases hstep
    | wakeUp =>
      dsimp only at hstep
      split at hstep
      · rename_i signaled hthread
        cases hstep
        exact gathering_dequeResult h.gathering rfl (by simp) (by simp [hthread])
      · cases hstep
    | handleResult => exact absurd rfl hne
    | flush =>
      dsimp only at hstep
      split at hstep
      · rename_i hflush
        cases hstep
        exact gathering_flush h.gathering hflush
      · cases hstep
    | drop listener =>
      cases hstep
      exact gathering_of_eq h.gathering rfl (by simp) rfl rfl rfl rfl rfl

variable {range : List RangeListener} {stream : List StreamListener} {early : List IListener}

theorem assembling_started : Assembling full [] [] (started range full stream early) where
  listeners := List.Subset.refl full
  gathering := ⟨iff_of_false nofun List.not_mem_nil, .inr ⟨.inl rfl, fun _ =>
    .inl ⟨fun _ => rfl, rfl, nofun⟩⟩⟩
  assembled := ⟨rfl, nofun⟩
  complete := nofun

/-- **The full results** of a run: where the updates are as they are to be, the process does not
end, and each full result is the merge of all partial results that have been received for its
request, with an error exactly if one of them has one. -/
theorem assembled_of_runs
    (h : resultProcessor.Runs (started range full stream early) ops p events)
    (hwell : WellReported full ops) : Assembled ops events p := by
  have hinv := h.invariant
    (I := fun ops p events =>
      Tidy events p ∧ (WellReported full ops → Assembling full ops events p))
    ⟨tidy_of_runs .init, fun _ => assembling_started⟩
    fun _ _ _ _ _ _ hs hstep => ⟨hs.1.step hstep, fun hwell =>
      (hs.2 hwell.of_concat).step hs.1 hwell hstep⟩
  exact (hinv.2 hwell).assembled

/-- A request that comes in two updates, of which the last has an error. -/
def lateError : List ResultOp :=
  [.updateFrame 3 (updateOf 1 5), .dequeResult, .handleResult,
    .updateFrame 3 { updateOf 0 6 with vHalOutMeta := [⟨2, .empty, true⟩] }, .dequeResult,
    .handleResult]

theorem assembled_of_runs_lateError : ∃ p events,
    resultProcessor.Runs (started [] [⟨0, 9, 7⟩] [] []) lateError p events ∧
      Assembled lateError events p := by
  obtain ⟨p, events, hrun, -⟩ : ∃ p events,
      resultProcessor.Runs (started [] [⟨0, 9, 7⟩] [] []) lateError p events ∧ events.length = 2 :=
    Machine.exists_run_of_shows (by decide)
  have hthree : ∀ r, lastReceived lateError r = true → r = 3 := by
    intro r hlast
    obtain ⟨e, he, hlast⟩ := List.any_eq_true.mp hlast
    have hall : ∀ e ∈ accepted lateError, e.1 = 3 := by decide
    rw [Bool.and_eq_true, beq_iff_eq] at hlast
    rw [← hlast.1, hall e he]
  refine ⟨p, events, hrun, assembled_of_runs hrun ⟨by decide, ?_, ?_⟩⟩
  · intro r _ hlast side
    obtain rfl := hthree r hlast
    cases side <;> decide
  · intro r _ hlast side
    obtain rfl := hthree r hlast
    cases side <;> decide

/-- A request that comes in two updates, of which the first has an error. -/
def earlyError : List ResultOp :=
  [.updateFrame 3 { updateOf 1 5 with vAppOutMeta := [⟨1, .empty, true⟩] },
    .updateFrame 3 (updateOf 0 6), .dequeResult, .handleResult]

def fullError : ResultEvent → Option (StreamId × ℕ × Bool)
  | .fullResult cb => some (cb.streamId, cb.requestNo, cb.errorResult)
  | _ => none

/-- An error that is not that of the last metadata is not reported, and a request without metadata
of the HAL ends the process. -/
theorem error_dropped :
    (¬ ∀ ops p events, InOrder ops →
      resultProcessor.Runs (started [] [⟨0, 9, 7⟩] [] []) ops p events → Assembled ops events p) ∧
    ∃ p events, resultProcessor.Runs (started [] [⟨0, 9, 7⟩] [] [])
      [.updateFrame 3 { updateOf 0 5 with vHalOutMeta := [] }, .dequeResult, .handleResult]
      p events ∧ p.aborted = true := by
  refine ⟨fun h => ?_, Machine.exists_run_of_shows (by decide)⟩
  obtain ⟨p, events, hrun, herrors⟩ : ∃ p events,
      resultProcessor.Runs (started [] [⟨0, 9, 7⟩] [] []) earlyError p events ∧
      events.filterMap fullError = [(eSTREAMID_META_APP_FULL, 3, false),
        (eSTREAMID_META_HAL_FULL, 3, false)] :=
    Machine.exists_run_of_shows (by decide)
  have hassembled := h _ p events (by decide) hrun
  have hmem : (eSTREAMID_META_APP_FULL, 3, false) ∈ events.filterMap fullError := by
    rw [herrors]
    exact List.mem_cons_self
  obtain ⟨event, hevent, hfull⟩ := List.mem_filterMap.mp hmem
  cases event with
  | fullResult cb =>
    obtain ⟨hsid, hreq, herror⟩ : cb.streamId = eSTREAMID_META_APP_FULL ∧ cb.requestNo = 3 ∧
        cb.errorResult = false := by
      simpa [fullError] using hfull
    obtain ⟨side, hside, -, hiff⟩ := hassembled.full cb hevent
    rw [hsid] at hside
    rw [hreq, herror] at hiff
    cases side with
    | app => exact absurd (hiff.mpr (by decide)) Bool.false_ne_true
    | hal => exact absurd hside (by decide)
  | partialResult callback => cases hfull
  | onFrameEnd listener requestNo => cases hfull
  | onMetaReceived listener item => cases hfull

end ResultProcessor

end MtkHardware.LegacyPipeline
