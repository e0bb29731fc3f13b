import Mathlib.Data.List.Forall2
import MtkHardware.FeaturePipe.WaitHub

/-!
# Wake-Ups at a Hub

No wake-up is lost where, once every enque has signaled, the thread is awake or its condition does
not hold; and `SIGNAL_IDLE` is then set only while the condition does not hold. The thread notes
that it is idle for the result of a condition that it has evaluated without the mutex: an enque
that pushes and signals in between is missed. A `PriorityWaitQueue` signals without resetting
`SIGNAL_IDLE`, which stays set until the thread has woken up. Everything else keeps to the law
(`hubWakeup_iff`).
-/

namespace MtkHardware.FeaturePipe

variable {T : Type*} {conv : IndexConverter T}

/-! ### Queues that lose elements -/

namespace PriorityWaitQueue

variable {q : PriorityWaitQueue conv}

def Indexed (q : PriorityWaitQueue conv) : Prop :=
  q.mIndexSetValid = true → ∀ val ∈ q.mDataSet.entries, conv.index val ∈ q.mIndexSet.entries

theorem Indexed.push (h : q.Indexed) (val : T) : (q.push val).Indexed := by
  intro hvalid v hv
  have hvalid : q.mIndexSetValid = true := hvalid
  rw [PriorityWaitQueue.push, if_pos hvalid]
  obtain rfl | hv := OrderedMultiset.mem_insert.mp hv
  · exact OrderedMultiset.mem_insert.mpr (.inl rfl)
  · exact OrderedMultiset.mem_insert.mpr (.inr (h hvalid v hv))

theorem Indexed.validate (h : q.Indexed) : q.validate.Indexed := by
  unfold PriorityWaitQueue.validate
  split_ifs with hvalid
  · exact h
  · exact fun _ v hv => OrderedMultiset.mem_ofList.mpr (List.mem_map_of_mem hv)

theorem Indexed.dequeFirst (h : q.Indexed) (p : T → Bool) : (q.dequeFirst p).1.Indexed := by
  unfold PriorityWaitQueue.dequeFirst
  split
  · exact fun hvalid => by cases hvalid
  · exact h

theorem indexed_clear (q : PriorityWaitQueue conv) : q.clear.Indexed := fun _ _ hv => by cases hv

@[simp] theorem getIndexSet_validate : q.validate.getIndexSet = q.getIndexSet := by
  unfold getIndexSet validate
  cases hvalid : q.mIndexSetValid <;> simp [hvalid]

theorem mem_getIndexSet {it : Index} : it ∈ q.getIndexSet.entries ↔
    if q.mIndexSetValid then it ∈ q.mIndexSet.entries
    else ∃ val ∈ q.mDataSet.entries, conv.index val = it := by
  unfold getIndexSet validate
  split_ifs with hvalid
  · rfl
  · exact OrderedMultiset.mem_ofList.trans List.mem_map

end PriorityWaitQueue

namespace IWaitQueue

variable {q q' : IWaitQueue conv}

/-- A queue that is not ready and has no identifiers and no indices but those of another. -/
structure Le (q' q : IWaitQueue conv) : Prop where
  ready : q'.isReady = true → q.isReady = true
  ids : q'.getIDSet.entries ⊆ q.getIDSet.entries
  indices : q'.getIndexSet.entries ⊆ q.getIndexSet.entries

theorem Le.refl (q : IWaitQueue conv) : q.Le q := ⟨id, fun _ h => h, fun _ h => h⟩

def Indexed : IWaitQueue conv → Prop
  | fifo _ => True
  | priority q => q.Indexed

theorem fifo_le {q q' : WaitQueue T} (h : q'.isReady = true → q.isReady = true) :
    (fifo q' : IWaitQueue conv).Le (fifo q) where
  ready := h
  ids := by
    intro x hx
    simp only [getIDSet, WaitQueue.getIDSet] at hx ⊢
    split_ifs at hx with hready
    · rwa [if_pos (h hready)]
    · cases hx
  indices := by
    intro x hx
    simp only [getIndexSet, WaitQueue.getIndexSet] at hx ⊢
    split_ifs at hx with hready
    · rwa [if_pos (h hready)]
    · cases hx

theorem dequeFirst_le {q : PriorityWaitQueue conv} (hq : q.Indexed) (p : T → Bool) :
    (priority (q.dequeFirst p).1).Le (priority q) := by
  cases hval : q.mDataSet.entries.find? p with
  | none =>
    rw [PriorityWaitQueue.dequeFirst, hval]
    exact .refl _
  | some val =>
    have hsub : (q.mDataSet.eraseFirst p).entries ⊆ q.mDataSet.entries :=
      List.eraseP_sublist.subset
    rw [PriorityWaitQueue.dequeFirst, hval]
    refine ⟨fun hready => ?_, List.filter_sublist.subset, fun it hit => ?_⟩
    · have hne : q.mDataSet.entries ≠ [] := List.ne_nil_of_mem (List.mem_of_find?_eq_some hval)
      simpa [isReady, PriorityWaitQueue.isReady] using hne
    · obtain ⟨v, hv, rfl⟩ := PriorityWaitQueue.mem_getIndexSet.mp hit
      refine PriorityWaitQueue.mem_getIndexSet.mpr ?_
      split_ifs with hvalid
      · exact hq hvalid v (hsub hv)
      · exact ⟨v, hsub hv, rfl⟩

theorem clear_le (q : PriorityWaitQueue conv) : (priority q.clear).Le (priority q) where
  ready h := by cases h
  ids _ h := by cases h
  indices it hit := by
    have hit := PriorityWaitQueue.mem_getIndexSet.mp hit
    refine PriorityWaitQueue.mem_getIndexSet.mpr ?_
    cases hvalid : q.mIndexSetValid with
    | true => simpa [PriorityWaitQueue.clear, hvalid] using hit
    | false =>
      have hclear : q.clear.mIndexSetValid = false := hvalid
      rw [hclear, if_neg Bool.false_ne_true] at hit
      obtain ⟨v, hv, -⟩ := hit
      cases hv

theorem consume_le (hq : q.Indexed) (c : Consume) : (q.consume c).Le q := by
  cases q with
  | fifo q =>
    cases c with
    | deque =>
      refine fifo_le fun hready => ?_
      have hne : q.mQueue.tail ≠ [] := by
        simpa [WaitQueue.isReady, WaitQueue.deque] using hready
      simpa [WaitQueue.isReady] using fun hnil => hne (by rw [hnil]; rfl)
    | dequeID id => exact .refl _
    | clear => exact fifo_le fun hready => by cases hready
  | priority q =>
    cases c with
    | deque => exact dequeFirst_le hq _
    | dequeID id => exact dequeFirst_le hq _
    | clear => exact clear_le q

theorem Indexed.consume (hq : q.Indexed) (c : Consume) : (q.consume c).Indexed := by
  cases q with
  | fifo q => cases c <;> trivial
  | priority q =>
    cases c with
    | deque => exact PriorityWaitQueue.Indexed.dequeFirst hq _
    | dequeID id => exact PriorityWaitQueue.Indexed.dequeFirst hq _
    | clear => exact q.indexed_clear

theorem Indexed.push (hq : q.Indexed) (val : T) : (q.push val).Indexed := by
  cases q with
  | fifo q => trivial
  | priority q => exact PriorityWaitQueue.Indexed.push hq val

theorem Indexed.validate (hq : q.Indexed) : q.validate.Indexed := by
  cases q with
  | fifo q => trivial
  | priority q => exact PriorityWaitQueue.Indexed.validate hq

@[simp] theorem getIndexSet_validate (q : IWaitQueue conv) :
    q.validate.getIndexSet = q.getIndexSet := by
  cases q with
  | fifo q => rfl
  | priority q => exact q.getIndexSet_validate

@[simp] theorem reading_validate (q : IWaitQueue conv) : q.validate.reading = q.reading := by
  cases q with
  | fifo q => rfl
  | priority q =>
    have hdata : q.validate.mDataSet = q.mDataSet ∧ q.validate.mIDSet = q.mIDSet := by
      unfold PriorityWaitQueue.validate
      split_ifs <;> exact ⟨rfl, rfl⟩
    simp [validate, reading, isReady, getIDSet, PriorityWaitQueue.isReady,
      PriorityWaitQueue.getIDSet, hdata]

end IWaitQueue

namespace WaitHub

variable {waitFor : WaitFor} {h h' : WaitHub conv} {op : HubOp T} {o os : List HubEvent}

/-! ### The condition -/

theorem forall_of_forall₂ {α : Type*} {R : α → α → Prop} {P : α → Prop} {l' l : List α}
    (hl : List.Forall₂ R l' l) (hR : ∀ a' a, R a' a → P a' → P a) (h : ∀ a ∈ l', P a) :
    ∀ a ∈ l, P a := by
  induction hl with
  | nil => simp
  | cons hab _ ih =>
    rw [List.forall_mem_cons] at h ⊢
    exact ⟨hR _ _ hab h.1, ih h.2⟩

theorem exists_of_forall₂ {α : Type*} {R : α → α → Prop} {P : α → Prop} {l' l : List α}
    (hl : List.Forall₂ R l' l) (hR : ∀ a' a, R a' a → P a' → P a) (h : ∃ a ∈ l', P a) :
    ∃ a ∈ l, P a := by
  induction hl with
  | nil => simpa using h
  | cons hab _ ih =>
    rw [List.exists_mem_cons_iff] at h ⊢
    exact h.imp (hR _ _ hab) ih

theorem condition_iff : (h.condition waitFor).condResult = true ↔
    match waitFor with
    | .allQueue => h.mQueues ≠ [] ∧ ∀ q ∈ h.mQueues, q.isReady = true
    | .anyQueue => ∃ q ∈ h.mQueues, q.isReady = true
    | .allQueueSync => ∃ q qs, h.mQueues = q :: qs ∧ ∃ it ∈ q.getIndexSet.entries,
        ∀ q' ∈ qs, it.mID ∈ q'.getIDSet.entries := by
  cases waitFor with
  | allQueue =>
    have hcount : (h.mQueues.map IWaitQueue.reading).countP (·.ready) =
        h.mQueues.countP IWaitQueue.isReady := List.countP_map ..
    simp only [condition, evaluate, isAllQueueReady, hcount, List.length_map, Bool.and_eq_true,
      bne_iff_ne, beq_iff_eq, List.countP_eq_length]
    refine and_congr_left fun hall => not_congr ?_
    rw [List.countP_eq_length.mpr hall, List.length_eq_zero_iff]
  | anyQueue => simp [condition, evaluate, isAnyQueueReady, IWaitQueue.reading]
  | allQueueSync =>
    cases hqueues : h.mQueues with
    | nil => simp [condition, evaluate, isAllQueueReadySync, hqueues]
    | cons q qs =>
      have hall : ∀ it : Index, ((qs.map IWaitQueue.reading).all fun r =>
          r.idSet.entries.contains it.mID) = true ↔
            ∀ q' ∈ qs, it.mID ∈ q'.getIDSet.entries := fun it => by
        rw [List.all_map, List.all_eq_true]
        exact forall₂_congr fun q' _ => List.contains_iff_mem
      simp only [condition, evaluate, isAllQueueReadySync, hqueues, firstIndexSet,
        List.map_cons, Option.isSome_map, List.find?_isSome, hall]
      constructor
      · intro h
        exact ⟨q, qs, rfl, h⟩
      · rintro ⟨q', qs', heq, h⟩
        cases heq
        exact h

theorem condition_mono (hle : List.Forall₂ IWaitQueue.Le h'.mQueues h.mQueues)
    (hcond : (h'.condition waitFor).condResult = true) :
    (h.condition waitFor).condResult = true := by
  rw [condition_iff] at hcond ⊢
  cases waitFor with
  | allQueue =>
    refine ⟨fun hnil => hcond.1 ?_, forall_of_forall₂ hle (fun _ _ hle => hle.ready) hcond.2⟩
    rw [hnil] at hle
    exact List.forall₂_nil_right_iff.mp hle
  | anyQueue => exact exists_of_forall₂ hle (fun _ _ hle => hle.ready) hcond
  | allQueueSync =>
    obtain ⟨q', qs', hqueues, it, hit, hall⟩ := hcond
    rw [hqueues] at hle
    obtain ⟨q, qs, hq, hqs, hqueues'⟩ := List.forall₂_cons_left_iff.mp hle
    exact ⟨q, qs, hqueues', it, hq.indices hit,
      forall_of_forall₂ hqs (fun _ _ hle hmem => hle.ids hmem) hall⟩

theorem condition_congr (hqueues : h'.mQueues = h.mQueues) :
    h'.condition waitFor = h.condition waitFor := by
  rw [condition, condition, firstIndexSet, firstIndexSet, hqueues]

theorem condition_validateFirst :
    (h.validateFirst waitFor).condition waitFor = h.condition waitFor := by
  cases waitFor with
  | allQueue => rfl
  | anyQueue => rfl
  | allQueueSync =>
    cases hqueues : h.mQueues with
    | nil => simp [validateFirst, condition, firstIndexSet, hqueues]
    | cons q qs => simp [validateFirst, condition, firstIndexSet, hqueues]

theorem forall₂_modify {α : Type*} {R : α → α → Prop} {f : α → α} {l : List α} (i : ℕ)
    (hrefl : ∀ a, R a a) (hf : ∀ a ∈ l, R (f a) a) : List.Forall₂ R (l.modify i f) l := by
  induction l generalizing i with
  | nil => simp
  | cons a l ih =>
    rw [List.forall_mem_cons] at hf
    cases i with
    | zero => exact .cons hf.1 (List.forall₂_same.mpr fun b _ => hrefl b)
    | succ i => exact .cons (hrefl a) (ih i hf.2)

/-! ### The law -/

/-- Once every enque has signaled, the thread is awake or its condition does not hold, and does
not hold while the thread is noted to be idle. -/
structure NoLostWakeup (waitFor : WaitFor) (h : WaitHub conv) : Prop where
  awake : h.thread = .waiting false → h.enqueing = [] →
    (h.condition waitFor).condResult = false
  idle : Signal.SIGNAL_IDLE ∈ h.mSignal → h.enqueing = [] →
    (h.condition waitFor).condResult = false

/-- The condition, if it did not hold for the thread, does not hold. -/
def NotesIdle (waitFor : WaitFor) (h : WaitHub conv) : Prop :=
  match h.thread with
  | .evaluated result => result.condResult = false → (h.condition waitFor).condResult = false
  | _ => True

/-- The thread notes that it is idle only while its condition does not hold or an enque has yet to
signal, and the last enque that signals while it is noted to be idle is one of a `WaitQueue`, or
leaves the condition as it is. -/
def Notices (waitFor : WaitFor) (h : WaitHub conv) : HubOp T → Prop
  | .relock => h.enqueing = [] → h.NotesIdle waitFor
  | .signal i =>
    (h.mQueues[i]?.any IWaitQueue.isPriority) = true → Signal.SIGNAL_IDLE ∈ h.mSignal →
      h.enqueing.erase i = [] → (h.condition waitFor).condResult = false
  | _ => True

instance (waitFor : WaitFor) (h : WaitHub conv) : ∀ op : HubOp T, Decidable (h.Notices waitFor op)
  | .relock =>
    have : Decidable (h.NotesIdle waitFor) :=
      match hthread : h.thread with
      | .evaluated result =>
        decidable_of_iff (result.condResult = false → (h.condition waitFor).condResult = false)
          (by rw [NotesIdle, hthread])
      | .outside | .calling | .reading _ | .waiting _ =>
        isTrue (by rw [NotesIdle, hthread]; trivial)
    inferInstanceAs (Decidable (_ → _))
  | .signal _ => inferInstanceAs (Decidable (_ → _ → _ → _))
  | .push .. | .triggerSignal _ | .resetSignal _ | .enter | .call | .read | .finish | .wakeUp
  | .consume .. => inferInstanceAs (Decidable True)

/-- A thread that sleeps is noted to be idle, and valid indices are at least those of the
elements. -/
structure Noted (h : WaitHub conv) : Prop where
  asleep : h.thread = .waiting false → Signal.SIGNAL_IDLE ∈ h.mSignal
  indexed : ∀ q ∈ h.mQueues, q.Indexed

theorem noLostWakeup_iff_idle (hnoted : h.Noted) : h.NoLostWakeup waitFor ↔
    (Signal.SIGNAL_IDLE ∈ h.mSignal → h.enqueing = [] →
      (h.condition waitFor).condResult = false) :=
  ⟨fun hlaw => hlaw.idle, fun hidle => ⟨fun hasleep => hidle (hnoted.asleep hasleep), hidle⟩⟩

/-! ### Steps -/

theorem broadcast_thread (h : WaitHub conv) : h.broadcast.thread ≠ .waiting false := by
  unfold broadcast
  split
  · simp
  · rename_i hnot
    exact hnot false

@[simp] theorem broadcast_mSignal (h : WaitHub conv) : h.broadcast.mSignal = h.mSignal := by
  unfold broadcast
  split <;> rfl

@[simp] theorem broadcast_mQueues (h : WaitHub conv) : h.broadcast.mQueues = h.mQueues := by
  unfold broadcast
  split <;> rfl

@[simp] theorem broadcast_enqueing (h : WaitHub conv) : h.broadcast.enqueing = h.enqueing := by
  unfold broadcast
  split <;> rfl

/-- The loop of `waitCondition` leaves everything but the thread as it is. -/
theorem loop_spec (h : WaitHub conv) : ∃ thread, thread ≠ .waiting false ∧
    h.loop.1 = { h with thread } := by
  unfold loop
  split_ifs
  · exact ⟨.outside, by simp, rfl⟩
  · exact ⟨.calling, by simp, rfl⟩

theorem Noted.move (hnoted : h.Noted) {thread : WaitAt} (hthread : thread ≠ .waiting false) :
    { h with thread }.Noted :=
  ⟨fun hasleep => absurd hasleep hthread, hnoted.indexed⟩

theorem forall_mem_modify {α : Type*} {P : α → Prop} {f : α → α} {l : List α} (i : ℕ)
    (hl : ∀ a ∈ l, P a) (hf : ∀ a, P a → P (f a)) : ∀ a ∈ l.modify i f, P a := by
  induction l generalizing i with
  | nil => simp
  | cons b l ih =>
    rw [List.forall_mem_cons] at hl
    cases i with
    | zero => exact List.forall_mem_cons.mpr ⟨hf b hl.1, hl.2⟩
    | succ i => exact List.forall_mem_cons.mpr ⟨hl.1, ih i hl.2⟩

theorem mem_idleSignal (mSignal : Finset Signal) :
    Signal.SIGNAL_IDLE ∈ idleSignal mSignal := by
  simp [idleSignal]

theorem not_mem_dataSignal (mSignal : Finset Signal) :
    Signal.SIGNAL_IDLE ∉ dataSignal mSignal := by
  unfold dataSignal
  dsimp only
  split_ifs <;> simp

/-- The signal of an enque wakes the thread up, and resets `SIGNAL_IDLE` where the queue is a
`WaitQueue`. -/
theorem signalOf_spec (h : WaitHub conv) (i : ℕ) :
    (h.signalOf i).thread ≠ .waiting false ∧ (h.signalOf i).mQueues = h.mQueues ∧
      (h.signalOf i).enqueing = h.enqueing ∧
      (Signal.SIGNAL_IDLE ∈ (h.signalOf i).mSignal ↔
        (h.mQueues[i]?.any IWaitQueue.isPriority) = true ∧ Signal.SIGNAL_IDLE ∈ h.mSignal) := by
  unfold signalOf
  split
  · rename_i q hq
    exact ⟨broadcast_thread _, by simp [triggerSignal], by simp [triggerSignal],
      by simp [triggerSignal, hq, IWaitQueue.isPriority]⟩
  · rename_i hnot
    refine ⟨broadcast_thread _, by simp [signalEnque], by simp [signalEnque], ?_⟩
    have hfifo : (h.mQueues[i]?.any IWaitQueue.isPriority) = false := by
      cases hq : h.mQueues[i]? with
      | none => rfl
      | some q =>
        cases q with
        | fifo q => rfl
        | priority q => exact absurd hq (hnot q)
    simp [signalEnque, hfifo]

theorem noted_step (hnoted : h.Noted) (hstep : h.step waitFor op = .ok (h', o)) : h'.Noted := by
  cases op with
  | push i val =>
    simp only [step] at hstep
    split_ifs at hstep
    cases hstep
    exact ⟨hnoted.asleep, forall_mem_modify i hnoted.indexed fun _ hq => hq.push val⟩
  | signal i =>
    simp only [step] at hstep
    split_ifs at hstep
    cases hstep
    obtain ⟨hthread, hqueues, -, -⟩ :=
      signalOf_spec { h with enqueing := h.enqueing.erase i } i
    exact ⟨fun hasleep => absurd hasleep hthread, by rw [hqueues]; exact hnoted.indexed⟩
  | triggerSignal signal =>
    simp only [step] at hstep
    split_ifs at hstep
    cases hstep
    refine ⟨fun hasleep => absurd hasleep (broadcast_thread _), ?_⟩
    rw [triggerSignal, broadcast_mQueues]
    exact hnoted.indexed
  | resetSignal signal =>
    simp only [step] at hstep
    split_ifs at hstep with hreset
    cases hstep
    exact ⟨fun hasleep => Finset.mem_sdiff.mpr ⟨hnoted.asleep hasleep, hreset.2⟩, hnoted.indexed⟩
  | enter =>
    simp only [step] at hstep
    split_ifs at hstep
    obtain ⟨thread, hthread, hloop⟩ := h.loop_spec
    obtain rfl : h' = { h with thread } := by rw [← hloop, Except.ok.inj hstep]
    exact hnoted.move hthread
  | call =>
    simp only [step] at hstep
    split_ifs at hstep
    cases hstep
    exact hnoted.move (by simp)
  | read =>
    simp only [step] at hstep
    split at hstep
    · split at hstep
      · cases hstep
        exact hnoted.move (by simp)
      · cases hstep
    · cases hstep
  | finish =>
    simp only [step] at hstep
    split at hstep
    · split_ifs at hstep
      cases hstep
      refine ⟨nofun, ?_⟩
      cases waitFor with
      | allQueue => exact hnoted.indexed
      | anyQueue => exact hnoted.indexed
      | allQueueSync => exact forall_mem_modify 0 hnoted.indexed fun _ hq => hq.validate
    · cases hstep
  | relock =>
    simp only [step] at hstep
    split at hstep
    · rename_i result _
      unfold relock at hstep
      split_ifs at hstep
      · cases hstep
        exact ⟨nofun, hnoted.indexed⟩
      · cases hstep
        exact ⟨nofun, hnoted.indexed⟩
      · cases hstep
        exact ⟨fun _ => mem_idleSignal _, hnoted.indexed⟩
    · cases hstep
  | wakeUp =>
    simp only [step] at hstep
    split at hstep
    · obtain ⟨thread, hthread, hloop⟩ := h.loop_spec
      obtain rfl : h' = { h with thread } := by rw [← hloop, Except.ok.inj hstep]
      exact hnoted.move hthread
    · cases hstep
  | consume i c =>
    simp only [step] at hstep
    split_ifs at hstep
    cases hstep
    exact ⟨hnoted.asleep, forall_mem_modify i hnoted.indexed fun _ hq => hq.consume c⟩

theorem NoLostWakeup.keep (hlaw : h.NoLostWakeup waitFor) (hnoted : h'.Noted)
    (hidle : Signal.SIGNAL_IDLE ∈ h'.mSignal → Signal.SIGNAL_IDLE ∈ h.mSignal)
    (henqueing : h'.enqueing = h.enqueing)
    (hcond : (h'.condition waitFor).condResult = true → (h.condition waitFor).condResult = true) :
    h'.NoLostWakeup waitFor := by
  refine (noLostWakeup_iff_idle hnoted).mpr fun hmem hnil => ?_
  have hfalse := hlaw.idle (hidle hmem) (henqueing ▸ hnil)
  by_contra hne
  rw [hcond (Bool.not_eq_false _ ▸ hne)] at hfalse
  cases hfalse

theorem NoLostWakeup.move (hlaw : h.NoLostWakeup waitFor) {thread : WaitAt}
    (hthread : thread ≠ .waiting false) : { h with thread }.NoLostWakeup waitFor :=
  ⟨fun hasleep => absurd hasleep hthread, hlaw.idle⟩

theorem noLostWakeup_step_iff (hlaw : h.NoLostWakeup waitFor) (hnoted : h.Noted)
    (hstep : h.step waitFor op = .ok (h', o)) :
    h'.NoLostWakeup waitFor ↔ h.Notices waitFor op := by
  have hnoted' := noted_step hnoted hstep
  cases op with
  | push i val =>
    simp only [step] at hstep
    split_ifs at hstep
    cases hstep
    refine iff_of_true ((noLostWakeup_iff_idle hnoted').mpr fun _ hnil => ?_) trivial
    cases hnil
  | signal i =>
    simp only [step] at hstep
    split_ifs at hstep
    cases hstep
    obtain ⟨-, hqueues, henqueing, hidle⟩ :=
      signalOf_spec { h with enqueing := h.enqueing.erase i } i
    rw [noLostWakeup_iff_idle hnoted', hidle, henqueing, condition_congr hqueues, and_imp]
    rfl
  | triggerSignal signal =>
    simp only [step] at hstep
    split_ifs at hstep with htrigger
    cases hstep
    refine iff_of_true (hlaw.keep hnoted' (fun hmem => ?_) (broadcast_enqueing _) ?_) trivial
    · rw [triggerSignal, broadcast_mSignal] at hmem
      exact (Finset.mem_union.mp hmem).resolve_right htrigger.2
    · have hqueues : (h.triggerSignal signal).mQueues = h.mQueues := broadcast_mQueues _
      rw [condition_congr hqueues]
      exact id
  | resetSignal signal =>
    simp only [step] at hstep
    split_ifs at hstep
    cases hstep
    exact iff_of_true
      (hlaw.keep hnoted' (fun hmem => (Finset.mem_sdiff.mp hmem).1) rfl id) trivial
  | enter =>
    simp only [step] at hstep
    split_ifs at hstep
    obtain ⟨thread, hthread, hloop⟩ := h.loop_spec
    obtain rfl : h' = { h with thread } := by rw [← hloop, Except.ok.inj hstep]
    exact iff_of_true (hlaw.move hthread) trivial
  | call =>
    simp only [step] at hstep
    split_ifs at hstep
    cases hstep
    exact iff_of_true (hlaw.move (by simp)) trivial
  | read =>
    simp only [step] at hstep
    split at hstep
    · split at hstep
      · cases hstep
        exact iff_of_true (hlaw.move (by simp)) trivial
      · cases hstep
    · cases hstep
  | finish =>
    simp only [step] at hstep
    split at hstep
    · split_ifs at hstep
      cases hstep
      have hsame : (h.validateFirst waitFor).mSignal = h.mSignal ∧
          (h.validateFirst waitFor).enqueing = h.enqueing := by
        cases waitFor <;> exact ⟨rfl, rfl⟩
      refine iff_of_true (hlaw.keep hnoted' (fun hmem => hsame.1 ▸ hmem) hsame.2 fun hcond => ?_)
        trivial
      rw [← condition_validateFirst]
      exact hcond
    · cases hstep
  | relock =>
    simp only [step] at hstep
    split at hstep
    · rename_i result hthread
      rw [noLostWakeup_iff_idle hnoted', Notices, NotesIdle, hthread]
      unfold relock at hstep
      split_ifs at hstep with hresult hbreak
      · cases hstep
        refine iff_of_true (fun hmem => absurd hmem (not_mem_dataSignal _)) fun _ hfalse => ?_
        rw [hresult] at hfalse
        cases hfalse
      · cases hstep
        rw [forall_prop_of_true (mem_idleSignal _)]
        exact forall_congr' fun _ =>
          ⟨fun hcond _ => hcond, fun hall => hall (Bool.eq_false_iff.mpr hresult)⟩
      · cases hstep
        rw [forall_prop_of_true (mem_idleSignal _)]
        exact forall_congr' fun _ =>
          ⟨fun hcond _ => hcond, fun hall => hall (Bool.eq_false_iff.mpr hresult)⟩
    · cases hstep
  | wakeUp =>
    simp only [step] at hstep
    split at hstep
    · obtain ⟨thread, hthread, hloop⟩ := h.loop_spec
      obtain rfl : h' = { h with thread } := by rw [← hloop, Except.ok.inj hstep]
      exact iff_of_true (hlaw.move hthread) trivial
    · cases hstep
  | consume i c =>
    simp only [step] at hstep
    split_ifs at hstep
    cases hstep
    exact iff_of_true (hlaw.keep hnoted' id rfl (condition_mono
      (forall₂_modify i IWaitQueue.Le.refl fun q hq => q.consume_le (hnoted.indexed q hq) c)))
      trivial

/-! ### Runs -/

variable {priorities : List Bool} {ops : List (HubOp T)}

theorem noted_create (conv : IndexConverter T) (priorities : List Bool) :
    (create conv priorities).Noted := by
  refine ⟨nofun, fun q hq => ?_⟩
  obtain ⟨b, -, rfl⟩ := List.mem_map.mp hq
  cases b with
  | true => exact fun _ v hv => by cases hv
  | false => trivial

theorem noLostWakeup_create (conv : IndexConverter T) (priorities : List Bool) :
    (create conv priorities).NoLostWakeup waitFor :=
  (noLostWakeup_iff_idle (noted_create conv priorities)).mpr fun hmem => by simp [create] at hmem

theorem noted_of_runs (hrun : (waitHub conv waitFor).Runs (create conv priorities) ops h os) :
    h.Noted :=
  hrun.invariant (I := fun _ h _ => h.Noted) (noted_create conv priorities)
    fun _ _ _ _ _ _ hI hstep => noted_step hI hstep

/-- **No wake-up is lost** exactly in the runs in which the thread notices the enques. -/
theorem hubWakeup_iff
    (hrun : (waitHub conv waitFor).Runs (create conv priorities) ops h os) :
    (∀ ops₁ ops₂ h₁ os₁, ops = ops₁ ++ ops₂ →
      (waitHub conv waitFor).Runs (create conv priorities) ops₁ h₁ os₁ →
        h₁.NoLostWakeup waitFor) ↔
      (waitHub conv waitFor).RunsMeeting (fun _ => Notices waitFor) (create conv priorities) ops h
        os :=
  (Machine.Runs.meeting_iff (M := waitHub conv waitFor) (C := fun _ => Notices waitFor)
    (I := fun _ => NoLostWakeup waitFor)
    (noLostWakeup_create conv priorities)
    (fun _ _ _ _ _ _ hrun hI hstep => noLostWakeup_step_iff hI (noted_of_runs hrun) hstep)
    hrun).symm

def idConverter : IndexConverter ℕ where
  index val := { mID := val }
  getID val := val

def evaluateOnce : List (HubOp ℕ) := [.call, .read, .finish]

def sleepOps : List (HubOp ℕ) :=
  (.enter :: evaluateOnce) ++ [.relock, .push 0 5, .signal 0, .wakeUp] ++ evaluateOnce ++ [.relock]

/-- An enque while the thread sleeps, which is then returned that its queue is ready. -/
theorem hubWakeup_iff_asleep : ∃ h os,
    (waitHub idConverter .anyQueue).Runs (create _ [false]) sleepOps h os ∧
      os = [.returned { condResult := true }] ∧
      ∀ ops₁ ops₂ h₁ os₁, sleepOps = ops₁ ++ ops₂ →
        (waitHub idConverter .anyQueue).Runs (create _ [false]) ops₁ h₁ os₁ →
          h₁.NoLostWakeup .anyQueue := by
  obtain ⟨h, os, hrun, hos⟩ : ∃ h os,
      (waitHub idConverter .anyQueue).Runs (create _ [false]) sleepOps h os ∧
        os = [.returned { condResult := true }] :=
    Machine.exists_run_of_shows (by decide +kernel)
  exact ⟨h, os, hrun, hos, (hubWakeup_iff hrun).mpr (hrun.meeting (by decide +kernel))⟩

/-- An enque pushes and signals after the condition has been evaluated and before the thread takes
the mutex again: the thread sleeps while its queue is ready. -/
theorem enqueBeforeSleep_lost : ¬ ∀ ops h os,
    (waitHub idConverter .allQueue).Runs (create _ [false]) ops h os →
      h.NoLostWakeup .allQueue := by
  obtain ⟨h, os, hrun, hasleep, henqueing, hcond⟩ : ∃ h os,
      (waitHub idConverter .allQueue).Runs (create _ [false])
        ((.enter :: evaluateOnce) ++ [.push 0 5, .signal 0, .relock]) h os ∧
        h.thread = .waiting false ∧ h.enqueing = [] ∧
          (h.condition .allQueue).condResult = true :=
    Machine.exists_run_of_shows (by decide +kernel)
  intro hall
  have hfalse := (hall _ h os hrun).awake hasleep henqueing
  rw [hcond] at hfalse
  cases hfalse

end WaitHub

end MtkHardware.FeaturePipe
