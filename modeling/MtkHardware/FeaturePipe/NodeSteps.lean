import MtkHardware.FeaturePipe.CamGraph
import MtkHardware.FeaturePipe.HubWakeup

/-!
# Steps of a Node

A node of a graph has something to do while there is data in its queues, while its thread works on
data, and while it depends on other threads. Whatever the thread of a node does, and whatever is
done to its hub but for a push of data, the node has something to do only if it had before: its
thread works on data only after it has found some in its queues, out of which nobody else takes any,
and it depends on other threads only through its thread and through those.
-/

namespace MtkHardware.FeaturePipe

variable {T : Type*} {conv : IndexConverter T}

/-! ### Queues with data -/

/-- Indices that are valid are none where there are no elements. -/
def IWaitQueue.Indexes : IWaitQueue conv → Prop
  | fifo _ => True
  | priority q =>
    q.mIndexSetValid = true → q.mDataSet.entries = [] → q.mIndexSet.entries = []

namespace IWaitQueue

variable {q : IWaitQueue conv} {it : Index}

theorem isReady_of_mem_getIndexSet (hq : q.Indexes) (hit : it ∈ q.getIndexSet.entries) :
    q.isReady = true := by
  cases q with
  | fifo q =>
    simp only [getIndexSet, WaitQueue.getIndexSet] at hit
    split_ifs at hit with hready
    · exact hready
    · cases hit
  | priority q =>
    by_contra hready
    have hnil : q.mDataSet.entries = [] := by
      simpa [isReady, PriorityWaitQueue.isReady] using hready
    have hmem := PriorityWaitQueue.mem_getIndexSet.mp hit
    rw [hnil] at hmem
    split_ifs at hmem with hvalid
    · rw [hq hvalid hnil] at hmem
      cases hmem
    · simp at hmem

theorem Indexes.push (hq : q.Indexes) (val : T) : (q.push val).Indexes := by
  cases q with
  | fifo q => trivial
  | priority q =>
    intro _ hnil
    have hmem : val ∈ (q.mDataSet.insert val).entries :=
      OrderedMultiset.mem_insert.mpr (.inl rfl)
    rw [show (q.mDataSet.insert val).entries = [] from hnil] at hmem
    cases hmem

theorem Indexes.validate (hq : q.Indexes) : q.validate.Indexes := by
  cases q with
  | fifo q => trivial
  | priority q =>
    simp only [IWaitQueue.validate, PriorityWaitQueue.validate]
    split_ifs with hvalid
    · exact hq
    · intro _ hnil
      have hnil : q.mDataSet.entries = [] := hnil
      show (OrderedMultiset.ofList Index.key (q.mDataSet.entries.map conv.index)).entries = []
      rw [hnil]
      rfl

theorem Indexes.consume (hq : q.Indexes) (c : Consume) (hc : c ≠ .clear) :
    (q.consume c).Indexes := by
  have htaken : ∀ (q : PriorityWaitQueue conv) (p : T → Bool), (priority q).Indexes →
      (priority (q.dequeFirst p).1).Indexes := by
    intro q p hq
    unfold PriorityWaitQueue.dequeFirst
    split
    · exact fun hvalid => by cases hvalid
    · exact hq
  cases q with
  | fifo q => cases c <;> trivial
  | priority q =>
    cases c with
    | deque => exact htaken q _ hq
    | dequeID id => exact htaken q _ hq
    | clear => exact absurd rfl hc

theorem isReady_push (q : IWaitQueue conv) (val : T) : (q.push val).isReady = true := by
  cases q with
  | fifo q => simp [push, isReady, WaitQueue.push, WaitQueue.isReady]
  | priority q =>
    have hmem : val ∈ (q.mDataSet.insert val).entries :=
      OrderedMultiset.mem_insert.mpr (.inl rfl)
    simpa [push, isReady, PriorityWaitQueue.push, PriorityWaitQueue.isReady] using
      List.ne_nil_of_mem hmem

end IWaitQueue

namespace WaitHub

variable {waitFor : WaitFor} {h h' : WaitHub conv} {op : HubOp T} {os : List HubEvent}

def HasData (h : WaitHub conv) : Prop := ∃ q ∈ h.mQueues, q.isReady = true

structure Reads (h : WaitHub conv) : Prop where
  reading : ∀ readings, h.thread = .reading readings → (∃ r ∈ readings, r.ready = true) →
    h.HasData
  evaluated : ∀ result, h.thread = .evaluated result → result.condResult = true → h.HasData
  indexes : ∀ q ∈ h.mQueues, q.Indexes

theorem hasData_of_evaluate (hindexes : ∀ q ∈ h.mQueues, q.Indexes) {readings : List Reading}
    (hreadings : (∃ r ∈ readings, r.ready = true) → h.HasData)
    (hresult : (evaluate waitFor readings h.firstIndexSet).condResult = true) : h.HasData := by
  cases waitFor with
  | allQueue =>
    have hall : isAllQueueReady readings = true := hresult
    simp only [isAllQueueReady, Bool.and_eq_true, bne_iff_ne] at hall
    exact hreadings (List.countP_pos_iff.mp (Nat.pos_of_ne_zero hall.1))
  | anyQueue => exact hreadings (List.any_eq_true.mp hresult)
  | allQueueSync =>
    have hsome : (isAllQueueReadySync readings h.firstIndexSet).isSome = true := hresult
    obtain ⟨it, hit⟩ : ∃ it, it ∈ h.firstIndexSet.entries := by
      cases readings with
      | nil => cases hsome
      | cons r rs =>
        simp only [isAllQueueReadySync, Option.isSome_map, List.find?_isSome] at hsome
        exact hsome.imp fun it hmem => hmem.1
    unfold firstIndexSet at hit
    split at hit
    · cases hit
    · rename_i q qs hqueues
      have hmem : q ∈ h.mQueues := by simp [hqueues]
      exact ⟨q, hmem, IWaitQueue.isReady_of_mem_getIndexSet (hindexes q hmem) hit⟩

theorem hasData_validate :
    { h with mQueues := h.mQueues.modify 0 IWaitQueue.validate }.HasData ↔ h.HasData := by
  have hready : ∀ q : IWaitQueue conv, q.validate.isReady = q.isReady := fun q =>
    congrArg Reading.ready q.reading_validate
  cases hqueues : h.mQueues with
  | nil => simp [HasData, hqueues]
  | cons q qs => simp [HasData, hqueues, hready]

theorem Reads.keep (hreads : h.Reads) (hqueues : h'.mQueues = h.mQueues)
    (hreading : ∀ readings, h'.thread = .reading readings → h.thread = .reading readings)
    (hevaluated : ∀ result, h'.thread = .evaluated result → h.thread = .evaluated result) :
    h'.Reads := by
  have hdata : h.HasData → h'.HasData := fun ⟨q, hmem, hready⟩ => ⟨q, hqueues ▸ hmem, hready⟩
  refine ⟨fun readings hr hex => ?_, fun result hr hcond => ?_, hqueues ▸ hreads.indexes⟩
  · exact hdata (hreads.reading readings (hreading readings hr) hex)
  · exact hdata (hreads.evaluated result (hevaluated result hr) hcond)

theorem reads_of_thread (hindexes : ∀ q ∈ h.mQueues, q.Indexes)
    (hreading : ∀ readings, h.thread ≠ .reading readings)
    (hevaluated : ∀ result, h.thread ≠ .evaluated result) : h.Reads :=
  ⟨fun readings hr => absurd hr (hreading readings),
    fun result hr => absurd hr (hevaluated result), hindexes⟩

theorem Reads.broadcast (hreads : h.Reads) : h.broadcast.Reads := by
  refine hreads.keep (broadcast_mQueues h) ?_ ?_
  all_goals
    unfold WaitHub.broadcast
    split
    · exact nofun
    · exact fun _ => id

theorem Reads.push (hreads : h.Reads) {i : ℕ} (hi : i < h.mQueues.length) (val : T) :
    { h with mQueues := h.mQueues.modify i (IWaitQueue.push val) }.Reads := by
  have hdata : { h with mQueues := h.mQueues.modify i (IWaitQueue.push val) }.HasData := by
    have hmem : h.mQueues[i].push val ∈ h.mQueues.modify i (IWaitQueue.push val) :=
      List.mem_of_getElem? (i := i) (by simp [List.getElem?_eq_getElem hi])
    exact ⟨_, hmem, IWaitQueue.isReady_push _ val⟩
  exact ⟨fun _ _ _ => hdata, fun _ _ _ => hdata,
    forall_mem_modify i hreads.indexes fun _ hq => hq.push val⟩

/-- What a step of `waitCondition` leaves, and returns. -/
structure Waited (h h' : WaitHub conv) (os : List HubEvent) : Prop where
  reads : h'.Reads
  data : h'.HasData → h.HasData
  outside : os ≠ [] → h'.thread = .outside
  found : ∀ result rest, os = .returned result :: rest → result.condResult = true → h.HasData

theorem waited_loop (hreads : h.Reads) : h.Waited h.loop.1 h.loop.2 := by
  unfold loop
  split_ifs
  · refine ⟨reads_of_thread hreads.indexes nofun nofun, id, fun _ => rfl, ?_⟩
    rintro result rest hos hcond
    obtain rfl : { condResult := false } = result := by simpa using (List.cons.inj hos).1
    cases hcond
  · exact ⟨reads_of_thread hreads.indexes nofun nofun, id, fun hos => absurd rfl hos, nofun⟩

theorem waited_relock (hreads : h.Reads) {result : CondResult}
    (hthread : h.thread = .evaluated result) :
    h.Waited (h.relock result).1 (h.relock result).2 := by
  unfold relock
  split_ifs with hresult
  · exact ⟨reads_of_thread hreads.indexes nofun nofun, id, fun _ => rfl,
      fun _ _ _ _ => hreads.evaluated result hthread hresult⟩
  · refine ⟨reads_of_thread hreads.indexes nofun nofun, id, fun _ => rfl, ?_⟩
    rintro result' rest hos hcond
    obtain rfl : { condResult := false } = result' := by simpa using (List.cons.inj hos).1
    cases hcond
  · exact ⟨reads_of_thread hreads.indexes nofun nofun, id, fun hos => absurd rfl hos, nofun⟩

theorem waited_step (hreads : h.Reads) (hop : CamThreadNode.waits op = true)
    (hstep : h.step waitFor op = .ok (h', os)) : h.Waited h' os := by
  cases op with
  | push i val => cases hop
  | signal i => cases hop
  | triggerSignal signal => cases hop
  | resetSignal signal => cases hop
  | consume i c => cases hop
  | enter =>
    simp only [step] at hstep
    split_ifs at hstep
    obtain ⟨rfl, rfl⟩ := Prod.ext_iff.mp (Except.ok.inj hstep)
    exact waited_loop hreads
  | wakeUp =>
    simp only [step] at hstep
    split at hstep
    · obtain ⟨rfl, rfl⟩ := Prod.ext_iff.mp (Except.ok.inj hstep)
      exact waited_loop hreads
    · cases hstep
  | call =>
    simp only [step] at hstep
    split_ifs at hstep
    cases hstep
    refine ⟨⟨?_, by simp, hreads.indexes⟩, id, fun hos => absurd rfl hos, by simp⟩
    rintro readings hr ⟨r, hmem, -⟩
    cases hr
    cases hmem
  | read =>
    simp only [step] at hstep
    split at hstep
    · rename_i readings hthread
      split at hstep
      · rename_i q hq
        cases hstep
        refine ⟨⟨?_, by simp, hreads.indexes⟩, id, fun hos => absurd rfl hos, by simp⟩
        rintro readings' hr ⟨r, hmem, hready⟩
        cases hr
        -- what has been read before is there, and what is read now
        obtain hmem | hmem := List.mem_append.mp hmem
        · exact hreads.reading readings hthread ⟨r, hmem, hready⟩
        · obtain rfl := List.mem_singleton.mp hmem
          exact ⟨q, List.mem_of_getElem? hq, hready⟩
      · cases hstep
    · cases hstep
  | finish =>
    simp only [step] at hstep
    split at hstep
    · rename_i readings hthread
      split_ifs at hstep
      cases hstep
      have hvalidate : ∀ q ∈ (h.validateFirst waitFor).mQueues, q.Indexes := by
        cases waitFor with
        | allQueue => exact hreads.indexes
        | anyQueue => exact hreads.indexes
        | allQueueSync => exact forall_mem_modify 0 hreads.indexes fun _ hq => hq.validate
      have hdata : (h.validateFirst waitFor).HasData ↔ h.HasData := by
        cases waitFor with
        | allQueue => rfl
        | anyQueue => rfl
        | allQueueSync => exact hasData_validate
      refine ⟨⟨by simp, ?_, hvalidate⟩, hdata.mp, fun hos => absurd rfl hos, by simp⟩
      rintro result hr hcond
      cases hr
      exact hdata.mpr (hasData_of_evaluate hreads.indexes (hreads.reading readings hthread) hcond)
    · cases hstep
  | relock =>
    simp only [step] at hstep
    split at hstep
    · rename_i result hthread
      obtain ⟨rfl, rfl⟩ := Prod.ext_iff.mp (Except.ok.inj hstep)
      exact waited_relock hreads hthread
    · cases hstep

end WaitHub

/-! ### Nodes -/

namespace CamThreadNode

variable {n n' : CamThreadNode conv} {op : HubOp T} {latches threadEnques extEnques : ℕ}

def Active (n : CamThreadNode conv) : Prop :=
  n.hub.HasData ∨ n.loopAt = .working ∨ 0 < n.mExtThreadDependency

theorem isAllQueueEmpty_iff : n.isAllQueueEmpty = true ↔ ¬ n.hub.HasData := by
  simp [isAllQueueEmpty, WaitHub.HasData]

/-- A node whose queues are empty, whose thread does not work on data and has not found any, and
that depends on no other threads. -/
structure Quiet (n : CamThreadNode conv) : Prop where
  empty : n.isAllQueueEmpty = true
  idle : n.loopAt ≠ .working ∧
    ∀ result, n.hub.thread = .evaluated result → result.condResult = false
  independent : n.mExtThreadDependency = 0

/-- What is known of a node, in a graph with this many latches, and this many enques of its thread
and of those that it depends on. -/
structure Sound (n : CamThreadNode conv) (latches threadEnques extEnques : ℕ) : Prop where
  reads : n.hub.Reads
  outside : n.loopAt ≠ .looping → n.hub.thread = .outside
  inSync : ∀ cb, n.loopAt = .reporting cb true → n.mExtThreadDependency = 0
  status : ∀ cb, n.mStatusCB = some cb → cb < latches
  enque : ∀ cb, n.mEnqueCB = some cb → cb < latches
  report : ∀ cb inSync, n.loopAt = .reporting cb inSync → cb < latches
  thread : 0 < threadEnques → n.loopAt = .working
  extThread : extEnques ≤ n.mExtThreadDependency

theorem Sound.quiet (hn : n.Sound latches threadEnques extEnques) (h : ¬ n.Active) : n.Quiet where
  empty := isAllQueueEmpty_iff.mpr fun hdata => h (.inl hdata)
  idle := by
    refine ⟨fun hworking => h (.inr (.inl hworking)), fun result hresult => ?_⟩
    by_contra htrue
    exact h (.inl (hn.reads.evaluated result hresult (Bool.not_eq_false _ ▸ htrue)))
  independent := Nat.eq_zero_of_not_pos fun hpos => h (.inr (.inr hpos))

/-- A node that is known as much of after a step, and has something to do only if it had before. -/
structure Follows (n n' : CamThreadNode conv) (latches threadEnques extEnques : ℕ) : Prop where
  sound : n'.Sound latches threadEnques extEnques
  active : n'.Active → n.Active

theorem Sound.refl (hn : n.Sound latches threadEnques extEnques) :
    n.Follows n latches threadEnques extEnques :=
  ⟨hn, id⟩

theorem Sound.mono (hn : n.Sound latches threadEnques extEnques) {latches' threads' exts' : ℕ}
    (hlatches : latches ≤ latches') (hthreads : threads' ≤ threadEnques)
    (hexts : exts' ≤ extEnques) : n.Sound latches' threads' exts' where
  reads := hn.reads
  outside := hn.outside
  inSync := hn.inSync
  status cb hcb := (hn.status cb hcb).trans_le hlatches
  enque cb hcb := (hn.enque cb hcb).trans_le hlatches
  report cb inSync hcb := (hn.report cb inSync hcb).trans_le hlatches
  thread hpos := hn.thread (hpos.trans_le hthreads)
  extThread := hexts.trans hn.extThread

theorem Sound.hub (hn : n.Sound latches threadEnques extEnques) {hub : WaitHub conv}
    (hqueues : hub.mQueues = n.hub.mQueues) (hreads : hub.Reads)
    (hthread : n.hub.thread = .outside → hub.thread = .outside) :
    n.Follows { n with hub } latches threadEnques extEnques := by
  have hdata : hub.HasData → n.hub.HasData := fun ⟨q, hmem, hready⟩ => ⟨q, hqueues ▸ hmem, hready⟩
  exact ⟨⟨hreads, fun hloop => hthread (hn.outside hloop), hn.inSync, hn.status, hn.enque,
    hn.report, hn.thread, hn.extThread⟩, Or.imp_left hdata⟩

theorem Follows.trans {n'' : CamThreadNode conv} (h : n.Follows n' latches threadEnques extEnques)
    (h' : n'.Follows n'' latches threadEnques extEnques) :
    n.Follows n'' latches threadEnques extEnques :=
  ⟨h'.sound, h.active ∘ h'.active⟩

theorem Sound.triggerSignal (hn : n.Sound latches threadEnques extEnques)
    (signal : Finset Signal) :
    n.Follows { n with hub := n.hub.triggerSignal signal } latches threadEnques extEnques := by
  have hreads : { n.hub with mSignal := n.hub.mSignal ∪ signal }.Reads :=
    hn.reads.keep rfl (fun _ => id) (fun _ => id)
  exact hn.hub (WaitHub.broadcast_mQueues _) hreads.broadcast fun hout => by
    simp [WaitHub.triggerSignal, WaitHub.broadcast, hout]

theorem Sound.signalOf (hn : n.Sound latches threadEnques extEnques) (queue : ℕ) :
    n.Follows { n with hub := n.hub.signalOf queue } latches threadEnques extEnques := by
  unfold WaitHub.signalOf
  split
  · exact hn.triggerSignal _
  · have hreads : { n.hub with
        mSignal := (n.hub.mSignal ∪ {Signal.SIGNAL_DATA}) \ {Signal.SIGNAL_IDLE} }.Reads :=
      hn.reads.keep rfl (fun _ => id) (fun _ => id)
    exact hn.hub (WaitHub.broadcast_mQueues _) hreads.broadcast fun hout => by
      simp [WaitHub.signalEnque, WaitHub.broadcast, hout]

theorem Sound.registerStatusCB (hn : n.Sound latches threadEnques extEnques) {cb : Option ℕ}
    (hcb : ∀ c, cb = some c → c < latches) :
    n.Follows (n.registerStatusCB cb) latches threadEnques extEnques := by
  have hset : n.Follows { n with mStatusCB := cb } latches threadEnques extEnques :=
    ⟨⟨hn.reads, hn.outside, hn.inSync, hcb, hn.enque, hn.report, hn.thread, hn.extThread⟩, id⟩
  cases cb with
  | some c => exact hset.trans (hset.sound.triggerSignal _)
  | none => exact hset.trans (hset.sound.hub rfl
      (hn.reads.keep rfl (fun _ => id) (fun _ => id)) id)

theorem Sound.registerEnqueCB (hn : n.Sound latches threadEnques extEnques) {cb : Option ℕ}
    (hcb : ∀ c, cb = some c → c < latches) :
    n.Follows (n.registerEnqueCB cb) latches threadEnques extEnques :=
  ⟨⟨hn.reads, hn.outside, hn.inSync, hn.status, hcb, hn.report, hn.thread, hn.extThread⟩, id⟩

theorem Sound.push (hn : n.Sound latches threadEnques extEnques) {queue : ℕ}
    (hqueue : queue < n.hub.mQueues.length) (val : T) :
    { n with hub := { n.hub with
        mQueues := n.hub.mQueues.modify queue (IWaitQueue.push val) } }.Sound
      latches threadEnques extEnques :=
  ⟨hn.reads.push hqueue val, hn.outside, hn.inSync, hn.status, hn.enque, hn.report, hn.thread,
    hn.extThread⟩

theorem Sound.waitSignal (hn : n.Sound latches 0 extEnques) (h : n.waitSignal = .ok n') :
    n.Follows n' latches 0 extEnques := by
  unfold CamThreadNode.waitSignal at h
  split_ifs at h with hloop
  all_goals
    dsimp only at h
    split_ifs at h
    cases h
    have hout : n.hub.thread = .outside := hn.outside (by rw [hloop]; exact nofun)
    have hreads := hn.reads
    refine ⟨⟨hreads.keep rfl (fun _ => id) (fun _ => id), fun _ => hout, nofun, hn.status, hn.enque,
      nofun, nofun, hn.extThread⟩, ?_⟩
    rintro (hdata | hworking | hext)
    · exact .inl hdata
    · cases hworking
    · exact .inr (.inr hext)

theorem Sound.move (hn : n.Sound latches 0 extEnques) (hloop : n.loopAt ≠ .looping)
    {hub : WaitHub conv} {loopAt : LoopAt} (hqueues : hub.mQueues = n.hub.mQueues)
    (hthread : hub.thread = n.hub.thread) (hworking : loopAt ≠ .working)
    (hreport : ∀ cb inSync, loopAt = .reporting cb inSync → cb < latches ∧
      (inSync = true → n.mExtThreadDependency = 0)) :
    n.Follows { n with hub, loopAt } latches 0 extEnques := by
  have hout : hub.thread = .outside := hthread.trans (hn.outside hloop)
  have hreads : hub.Reads :=
    hn.reads.keep hqueues (fun _ hr => hthread ▸ hr) (fun _ hr => hthread ▸ hr)
  refine ⟨⟨hreads, fun _ => hout, fun cb hcb => (hreport cb true hcb).2 rfl, hn.status, hn.enque,
    fun cb inSync hcb => (hreport cb inSync hcb).1, nofun, hn.extThread⟩, ?_⟩
  rintro (⟨q, hmem, hready⟩ | hwork | hext)
  · exact .inl ⟨q, hqueues ▸ hmem, hready⟩
  · exact absurd hwork hworking
  · exact .inr (.inr hext)

theorem Sound.tryProcessStatusCB (hn : n.Sound latches 0 extEnques)
    (h : n.tryProcessStatusCB = .ok n') : n.Follows n' latches 0 extEnques := by
  unfold CamThreadNode.tryProcessStatusCB at h
  split at h
  · rename_i signal hloop
    have hne : n.loopAt ≠ .looping := by simp [hloop]
    split at h
    · dsimp only at h
      cases h
      refine hn.move hne ?_ ?_ ?_ ?_
      · split_ifs <;> rfl
      · split_ifs <;> rfl
      · cases n.mStatusCB <;> simp
      · intro cb inSync hreport
        cases hcb : n.mStatusCB with
        | none => simp [hcb] at hreport
        | some cb' =>
          obtain ⟨rfl, rfl⟩ : cb' = cb ∧ n.inSync signal = inSync := by simpa [hcb] using hreport
          refine ⟨hn.status cb' hcb, fun hsync => ?_⟩
          simp only [CamThreadNode.inSync, Bool.and_eq_true, beq_iff_eq] at hsync
          exact hsync.1.2
    · cases h
      refine hn.move hne rfl rfl ?_ ?_ <;> simp
  · cases h

theorem Sound.reported (hn : n.Sound latches threadEnques extEnques) {cb : ℕ} {inSync : Bool}
    (hloop : n.loopAt = .reporting cb inSync) :
    n.Follows { n with loopAt := .looping } latches threadEnques extEnques := by
  obtain rfl : threadEnques = 0 := Nat.eq_zero_of_not_pos fun hpos => by
    simpa [hloop] using hn.thread hpos
  refine hn.move (by simp [hloop]) rfl rfl ?_ ?_ <;> simp

theorem afterWait_cases (os : List HubEvent) :
    afterWait os = .looping ∨ afterWait os = .waitSignal ∨
      afterWait os = .working ∧
        ∃ result rest, os = .returned result :: rest ∧ result.condResult = true := by
  cases os with
  | nil => exact .inl rfl
  | cons o os =>
    obtain ⟨result⟩ := o
    cases hresult : result.condResult with
    | true => exact .inr (.inr ⟨by simp [afterWait, hresult], result, os, rfl, hresult⟩)
    | false => exact .inr (.inl (by simp [afterWait, hresult]))

theorem Sound.waitCondition (hn : n.Sound latches 0 extEnques)
    (h : n.waitCondition op = .ok n') : n.Follows n' latches 0 extEnques := by
  unfold CamThreadNode.waitCondition at h
  split_ifs at h with hop
  split at h
  · rename_i hub os hstep
    cases h
    have hwaited := WaitHub.waited_step hn.reads hop.2 hstep
    have hreport : ∀ cb inSync, afterWait os ≠ .reporting cb inSync := by
      intro cb inSync
      obtain hafter | hafter | ⟨hafter, -⟩ := afterWait_cases os <;> simp [hafter]
    refine ⟨⟨hwaited.reads, fun hloop => hwaited.outside ?_, fun cb hcb => ?_, hn.status, hn.enque,
      fun cb inSync hcb => ?_, nofun, hn.extThread⟩, ?_⟩
    · rintro rfl
      exact hloop rfl
    · exact absurd hcb (hreport cb true)
    · exact absurd hcb (hreport cb inSync)
    · rintro (hdata | hworking | hext)
      · exact .inl (hwaited.data hdata)
      · obtain hafter | hafter | ⟨-, result, rest, hos, hresult⟩ := afterWait_cases os
        · rw [hafter] at hworking
          cases hworking
        · rw [hafter] at hworking
          cases hworking
        · exact .inl (hwaited.found result rest hos hresult)
      · exact .inr (.inr hext)
  · cases h

theorem Sound.deque (hn : n.Sound latches 0 extEnques) {queue : ℕ} {id : Option ℕ}
    (h : n.deque queue id = .ok n') : n.Follows n' latches 0 extEnques := by
  unfold CamThreadNode.deque at h
  split_ifs at h with hloop
  cases h
  have hout : n.hub.thread = .outside := hn.outside (by simp [hloop])
  refine ⟨⟨?_, fun _ => hout, hn.inSync, hn.status, hn.enque, hn.report, nofun, hn.extThread⟩,
    fun _ => .inr (.inl hloop)⟩
  refine WaitHub.reads_of_thread ?_ (by simp [hout]) (by simp [hout])
  refine WaitHub.forall_mem_modify queue hn.reads.indexes fun q hq => hq.consume _ ?_
  cases id <;> simp

theorem Sound.done (hn : n.Sound latches 0 extEnques) (h : n.done = .ok n') :
    n.Follows n' latches 0 extEnques := by
  unfold CamThreadNode.done at h
  split_ifs at h with hloop
  cases h
  refine hn.move (by simp [hloop]) rfl rfl ?_ ?_ <;> simp

theorem Sound.signalSyncBreak (hn : n.Sound latches threadEnques extEnques) :
    n.Follows n.signalSyncBreak latches threadEnques extEnques := by
  unfold CamThreadNode.signalSyncBreak
  split_ifs
  · exact hn.triggerSignal _
  · exact hn.refl

theorem Sound.incExtThreadDependency (hn : n.Sound latches threadEnques extEnques)
    (h : n.incExtThreadDependency = .ok n') :
    n.Follows n' latches threadEnques extEnques := by
  unfold CamThreadNode.incExtThreadDependency at h
  split at h
  · rename_i hactive
    dsimp only at h
    have hinc : n.Follows { n with mExtThreadDependency := n.mExtThreadDependency + 1 }
        latches threadEnques extEnques := by
      refine ⟨⟨hn.reads, hn.outside, fun cb hcb => ?_, hn.status, hn.enque, hn.report, hn.thread,
        hn.extThread.trans (Nat.le_succ _)⟩, fun _ => .inr hactive⟩
      -- a thread that reports that it is in sync does not work, and depends on no thread
      have hzero := hn.inSync cb hcb
      have hreporting : n.loopAt = .reporting cb true := hcb
      obtain hworking | hpos := hactive
      · rw [hreporting] at hworking
        cases hworking
      · omega
    split_ifs at h
    · cases h
      exact hinc.trans hinc.sound.signalSyncBreak
    · cases h
      exact hinc
  · cases h

theorem Sound.decExtThreadDependency (hn : n.Sound latches threadEnques extEnques)
    (h : n.decExtThreadDependency extEnques = .ok n') :
    n.Follows n' latches threadEnques extEnques := by
  unfold CamThreadNode.decExtThreadDependency at h
  split at h
  · rename_i hlt
    dsimp only at h
    have hdec : n.Follows { n with mExtThreadDependency := n.mExtThreadDependency - 1 }
        latches threadEnques extEnques := by
      refine ⟨⟨hn.reads, hn.outside, fun cb hcb => ?_, hn.status, hn.enque, hn.report, hn.thread,
        Nat.le_sub_one_of_lt hlt⟩, Or.imp_right (Or.imp_right fun hpos => ?_)⟩
      · have hzero := hn.inSync cb hcb
        omega
      · exact Nat.pos_of_ne_zero fun hzero => by simp [hzero] at hpos
    split_ifs at h
    · cases h
      exact hdec.trans hdec.sound.signalSyncBreak
    · cases h
      exact hdec
  · cases h

end CamThreadNode

end MtkHardware.FeaturePipe
