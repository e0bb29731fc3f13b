import MtkHardware.AppStream.ImageRun

/-!
# Returning Image Buffers

Every image buffer that is registered is handed back to the camera framework exactly once,
and the buffers of a stream that carry no error come back in the order in which their
frames were registered.
-/

namespace MtkHardware.AppStream

open Pipeline (StreamId UserStatus.release)

namespace FrameHandler

variable {s s' : FrameHandler} {n : ℕ} {streams : List StreamId} {ops : List Op}
  {cbs : List CallbackParcel}

def timesReturned (cbs : List CallbackParcel) (p : ImagePtr) : ℕ :=
  ((returnedImages cbs).map (·.item)).count p

theorem LogInvariant.timesReturned_eq (h : s.LogInvariant (returnedImages cbs)) (p : ImagePtr) :
    timesReturned cbs p =
      if p < s.numItems ∧ (s.items p).isReturned = true then 1 else 0 := by
  rw [timesReturned]
  split_ifs with hret
  · exact List.count_eq_one_of_mem h.nodup ((h.mem p).mpr hret)
  · exact List.count_eq_zero_of_not_mem fun hmem => hret ((h.mem p).mp hmem)

/-- **Returning image buffers.** Along every run, each registered item is handed back at
most once, with its buffer, and exactly once if its frame has left the frame queue. The
queue of each stream holds the registered items of the stream that have not been handed
back, in the order of registration, and each item set counts its items that have. -/
theorem image_return (hrun : handlerMachine.Runs (configure n streams) ops s cbs) :
    (∀ p, timesReturned cbs p ≤ 1) ∧
    (∀ i ∈ returnedImages cbs, i.item < s.numItems ∧
      i.buffer.handle = (s.items i.item).buffer.handle ∧
      i.stream = (s.items i.item).streamId) ∧
    (∀ p < s.numItems, (s.items p).pFrame ∉ s.mFrameQueue → timesReturned cbs p = 1) ∧
    (∀ k ∈ s.mImageConfigMap.keys, s.vItemFrameQueue k = (List.range s.numItems).filter
      fun p => decide ((s.items p).streamId = k ∧ timesReturned cbs p = 0)) ∧
    ∀ f a, (s.itemSet f a).numReturnedStreams = (List.range s.numItems).countP
      fun p => decide ((s.items p).pFrame = f ∧ (s.items p).asInput = a ∧
        timesReturned cbs p = 1) := by
  obtain ⟨hinv, hlog⟩ := runs_invariant hrun
  have htimes : ∀ p < s.numItems,
      timesReturned cbs p = if (s.items p).isReturned = true then 1 else 0 := fun p hp => by
    rw [hlog.timesReturned_eq]
    simp [hp]
  refine ⟨fun p => ?_, fun i hi => ?_, fun p hp hnot => ?_, fun k hk => ?_, fun f a => ?_⟩
  · rw [hlog.timesReturned_eq]
    split_ifs <;> omega
  · exact ⟨((hlog.mem i.item).mp (List.mem_map_of_mem hi)).1, hlog.buffer i hi⟩
  · rw [htimes p hp, if_pos]
    by_contra hret
    exact hnot (hinv.held p hp (by simpa using hret)).1
  · rw [hinv.queue k hk]
    refine List.filter_congr fun p hp => ?_
    rw [htimes p (List.mem_range.mp hp)]
    cases (s.items p).isReturned <;> simp
  · rw [(hinv.set f a).returned, countItems]
    refine List.countP_congr fun p hp => ?_
    rw [htimes p (List.mem_range.mp hp)]
    cases hret : (s.items p).isReturned <;> simp [ImageItem.inSet, hret]

theorem state_of_steps {l : List CallbackParcel.ImageItem} (h : StepsOf PassStep s l s') :
    ∀ i ∈ l, i.state = (s.items i.item).state := by
  have hboth := h.invariant
    (I := fun l s' => PassKeeps s s' ∧ ∀ i ∈ l, i.state = (s.items i.item).state)
    ⟨.refl s, by simp⟩ fun l s₁ o s₂ hI hstep => ?_
  · exact hboth.2
  · obtain ⟨hkeeps, hstate⟩ := hI
    refine ⟨hkeeps.trans hstep.keeps, fun i hi => ?_⟩
    rcases List.mem_append.mp hi with hi | hi
    · exact hstate i hi
    · cases hstep with
      | @returnItem p =>
        rw [List.mem_singleton.mp hi]
        exact hkeeps.state p
      | _ => simp at hi

/-- **The order of image buffers.** Along every run, the buffers of a stream that are
handed back without an error come in the order of registration. Whenever a pass hands such
a buffer back, the item is valid or pre-released, and no item of its stream that was
registered earlier is in flight. -/
theorem image_order (hrun : handlerMachine.Runs (configure n streams) ops s cbs) :
    (∀ k, ((returnedImages cbs).filter fun i => i.stream = k ∧ i.state ≠ .error).Pairwise
      fun i j => i.item < j.item ∧ (s.items i.item).pFrame ≤ (s.items j.item).pFrame) ∧
    ∀ env s' cbs', s.updateCallbacks env = .ok (s', cbs') →
      ∀ i ∈ returnedImages cbs', i.state ≠ .error →
        i.state = (s.items i.item).state ∧ (i.state = .preRelease ∨ i.state = .valid) ∧
        ∀ q < i.item, (s.items q).streamId = i.stream → (s.items q).state ≠ .inFlight := by
  obtain ⟨hinv, hlog⟩ := runs_invariant hrun
  refine ⟨fun k => ?_, fun env s' cbs' hpass i hi herror => ?_⟩
  · refine (hlog.sorted.filter _).imp_of_mem fun {i j} hi hj hij => ?_
    rw [List.mem_filter, decide_eq_true_eq] at hi hj
    have hlt := hij (hi.2.1.trans hj.2.1.symm) hi.2.2 hj.2.2
    have hj' := ((hlog.mem j.item).mp (List.mem_map_of_mem hj.1)).1
    refine ⟨hlt, ?_⟩
    rcases hinv.ordered i.item j.item hlt hj' with hframe | ⟨hframe, -⟩
    · exact hframe.le
    · exact hframe.le
  · have hsteps := steps_updateCallbacks env hinv hpass
    have hkeeps := keeps_of_steps hsteps
    have hstep : handlerMachine s (.updateCallbacks env) = .ok (s', cbs') := hpass
    obtain ⟨hinv', hlog'⟩ := runs_invariant (hrun.snoc hstep)
    have hi' : i ∈ returnedImages (cbs ++ cbs') := by
      rw [returnedImages, List.flatMap_append]
      exact List.mem_append_right _ hi
    refine ⟨state_of_steps hsteps i hi, ?_, fun q hq hstream => ?_⟩
    · have hflight := hlog'.flight i hi'
      revert hflight herror
      cases i.state <;> simp
    · rw [← hkeeps.streamId] at hstream
      rw [← hkeeps.state]
      cases hret : (s'.items q).isReturned with
      | true =>
        have hitem := ((hlog'.mem i.item).mp (List.mem_map_of_mem hi')).1
        exact hinv'.flight q (hq.trans hitem) hret
      | false => simp [hlog'.order i hi' herror q hq hstream hret]

/-! ### A run -/

def allReleased : BufferEnv where
  image _ := ⟨UserStatus.release, true, false, -1, -1⟩
  metadata _ := ⟨true, true, false, some 5⟩

/-- Two requests of one stream. The results of both arrive together. -/
def twoRequests : List Op :=
  let buffers (handle : ℕ) : ImageBuffers := ImageBuffers.add {} { handle, streamId := 1 }
  [.registerFrame { frameNo := 1, vOutputImageBuffers := buffers 10 },
    .registerFrame { frameNo := 2, vOutputImageBuffers := buffers 20 },
    .updateResults allReleased
      ((KeyedVector.empty.add 1 ⟨true, 1, [⟨7, 30, .metaOut⟩]⟩).add 2
        ⟨true, 2, [⟨8, 30, .metaOut⟩]⟩)]

/-- The pass after `twoRequests` hands both buffers back, and removes both frames. -/
theorem exists_run_twoRequests : ∃ s s' cbs cbs',
    handlerMachine.Runs (configure 1 [1]) twoRequests s cbs ∧
      s.updateCallbacks allReleased = .ok (s', cbs') ∧
      (s'.mFrameQueue, s'.numItems, s'.numFrames) = ([], 2, 2) ∧
      ((returnedImages (cbs ++ cbs')).map (·.item)) = [0, 1] := by
  have hobserve : ((handlerMachine.observe (configure 1 [1])
      (twoRequests ++ [.updateCallbacks allReleased])
      fun s => (s.mFrameQueue, s.numItems, s.numFrames)).map
        fun x => (x.1, (returnedImages x.2).map (·.item))) = some (([], 2, 2), [0, 1]) := by
    decide +kernel
  obtain ⟨⟨view, os⟩, hview, heq⟩ := Option.map_eq_some_iff.mp hobserve
  obtain ⟨s', hrun, rfl⟩ := Machine.exists_run_of_observe hview
  obtain ⟨s, cbs, cbs', hrun', hpass, rfl⟩ := hrun.of_snoc _
  exact ⟨s, s', cbs, cbs', hrun', hpass, congrArg Prod.fst heq, congrArg Prod.snd heq⟩

/-- The frames of `twoRequests` are removed, and each item has been handed back once. -/
theorem image_return_twoRequests : ∃ s cbs,
    handlerMachine.Runs (configure 1 [1]) (twoRequests ++ [.updateCallbacks allReleased]) s
      cbs ∧ s.mFrameQueue = [] ∧ timesReturned cbs 0 = 1 ∧ timesReturned cbs 1 = 1 := by
  obtain ⟨s, s', cbs, cbs', hrun, hpass, hview, -⟩ := exists_run_twoRequests
  obtain ⟨hqueue, hitems⟩ := Prod.mk.inj hview
  have hrun' := hrun.snoc (show handlerMachine s (.updateCallbacks allReleased) = _ from hpass)
  obtain ⟨-, -, hremoved, -⟩ := image_return hrun'
  have honce : ∀ p < 2, timesReturned (cbs ++ cbs') p = 1 := fun p hp =>
    hremoved p (hp.trans_eq (Prod.mk.inj hitems).1.symm) (by simp [hqueue])
  exact ⟨s', cbs ++ cbs', hrun', hqueue, honce 0 (by decide), honce 1 (by decide)⟩

/-- The last pass of `twoRequests` hands back no item before its time. -/
theorem image_order_twoRequests : ∃ s s' cbs cbs',
    handlerMachine.Runs (configure 1 [1]) twoRequests s cbs ∧
      s.updateCallbacks allReleased = .ok (s', cbs') ∧
      (returnedImages (cbs ++ cbs')).map (·.item) = [0, 1] ∧
      ∀ i ∈ returnedImages cbs', i.state ≠ .error → ∀ q < i.item,
        (s.items q).streamId = i.stream → (s.items q).state ≠ .inFlight := by
  obtain ⟨s, s', cbs, cbs', hrun, hpass, -, hitems⟩ := exists_run_twoRequests
  have horder := (image_order hrun).2 allReleased s' cbs' hpass
  exact ⟨s, s', cbs, cbs', hrun, hpass, hitems, fun i hi herror => (horder i hi herror).2.2⟩

end FrameHandler

end MtkHardware.AppStream
