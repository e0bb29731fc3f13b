import MtkHardware.Pipeline.FrameCompletion

/-!
# The Life Cycle of a Buffer

A stream buffer is released once: when all its users have released it and have applied
that, it has left its map and is in one batch; output metadata goes to the application once,
when all its producers have.
-/

namespace MtkHardware.Pipeline

variable {cfg : FrameConfig} {frame₀ frame frame' : Frame} {driver : SyncDriver}
  {n u : NodeId} {i : ItemId} {ops : List Op} {op : Op} {events o : List Event}

namespace FrameConfig

/-! ### Distinct streams -/

structure Distinct (cfg : FrameConfig) : Prop where
  nodup : ∀ kind, (cfg.streams kind).Nodup
  disjoint : ∀ kind kind' s, s ∈ cfg.streams kind → s ∈ cfg.streams kind' → kind = kind'

theorem imageItem_of_hasItem (hdistinct : cfg.Distinct) (hi : cfg.HasItem i)
    (himage : i.1.isImage = true) : cfg.imageItem i.2 = some i := by
  obtain ⟨kind, s⟩ := i
  rw [imageItem_eq]
  cases kind with
  | halImage => exact if_pos hi
  | appImage =>
    have hne : s ∉ cfg.streams .halImage := fun hs =>
      MapKind.noConfusion (hdistinct.disjoint _ _ s hs hi)
    rw [if_neg hne]
    exact if_pos hi
  | appMeta | halMeta => cases himage

theorem metaItem_of_hasItem (hdistinct : cfg.Distinct) (hi : cfg.HasItem i)
    (himage : i.1.isImage = false) : cfg.metaItem i.2 = some i := by
  obtain ⟨kind, s⟩ := i
  rw [metaItem_eq]
  cases kind with
  | halMeta => exact if_pos hi
  | appMeta =>
    have hne : s ∉ cfg.streams .halMeta := fun hs =>
      MapKind.noConfusion (hdistinct.disjoint _ _ s hs hi)
    rw [if_neg hne]
    exact if_pos hi
  | appImage | halImage => cases himage

theorem mem_of_stream {f : StreamId → Option ItemId} {ss : List StreamId}
    {is : List ItemId} (h : ss.map f = is.map some) {s : StreamId} (hs : s ∈ ss)
    (hf : f s = some i) : i ∈ is := by
  have hmem : some i ∈ is.map some := h ▸ hf ▸ List.mem_map_of_mem hs
  simpa using hmem

theorem exists_statusOf (h : cfg.constructRequest = .ok frame₀) (hdistinct : cfg.Distinct)
    (hi : cfg.HasItem i) (hrole : (cfg.evaluateBufferUsers i).HasRole n) :
    ∃ status, cfg.StatusOf n status ∧ i ∈ status.items := by
  have hrefine : cfg.refineUser i n ≠ .none := by
    rcases hrole with hrole | hrole
    · rw [(cfg.mem_producers_iff i).mp hrole]
      decide
    · rw [(cfg.mem_consumers_iff i).mp hrole]
      decide
  rw [refineUser] at hrefine
  split at hrefine
  · exact absurd rfl hrefine
  · rename_i node hnode
    obtain ⟨status, hstatus⟩ := exists_nodeStatus h hnode
    obtain ⟨node', hnode', ⟨h₁, h₂, h₃, h₄⟩, -⟩ := nodeStatus_spec hstatus
    rw [hnode, Option.some_inj] at hnode'
    subst hnode'
    have hmem : i ∈ status.items := by
      simp only [NodeStatus.items, List.mem_append]
      cases himage : i.1.isImage with
      | true =>
        have hitem := imageItem_of_hasItem hdistinct hi himage
        simp only [himage, if_true] at hrefine
        split at hrefine
        · exact .inl (.inl (.inl (mem_of_stream h₄ ‹_› hitem)))
        · split at hrefine
          · exact .inl (.inl (.inr (mem_of_stream h₂ ‹_› hitem)))
          · exact absurd rfl hrefine
      | false =>
        have hitem := metaItem_of_hasItem hdistinct hi himage
        simp only [himage, Bool.false_eq_true, if_false] at hrefine
        split at hrefine
        · exact .inl (.inr (mem_of_stream h₃ ‹_› hitem))
        · split at hrefine
          · exact .inr (mem_of_stream h₁ ‹_› hitem)
          · exact absurd rfl hrefine
    exact ⟨status, ⟨hstatus, List.ne_nil_of_mem hmem⟩, hmem⟩

/-! ### All users done -/

/-- **The last user to apply** the release of an item finds that all have released it. -/
theorem met_of_hasApplied (h : cfg.constructRequest = .ok frame₀) (hdistinct : cfg.Distinct)
    (hi : cfg.HasItem i) {users : List UserId}
    (hrole : ∀ u ∈ users, (cfg.evaluateBufferUsers i).HasRole u) (hne : users ≠ [])
    (hrun : (frameMachine driver).Runs frame₀ ops frame events)
    (happlied : ∀ u ∈ users, HasApplied driver frame₀ ops u [i]) :
    (frameMachine driver).Met frame₀ ops fun frame op =>
      ∃ n pAppCallback preemption, op = .applyRelease n pAppCallback preemption ∧
        i ∈ frame.pending n ∧ frame.Released i n ∧ ∀ u ∈ users, frame.Released i u := by
  induction hrun with
  | init =>
    obtain ⟨u, hu⟩ := List.exists_mem_of_ne_nil users hne
    exact absurd (happlied u hu) HasApplied.not_nil
  | @snoc ops frame events op frame' o hrun hstep ih =>
    rw [Machine.met_snoc hrun]
    by_cases hbefore : ∀ u ∈ users, HasApplied driver frame₀ ops u [i]
    · exact .inl (ih hbefore)
    · right
      simp only [not_forall] at hbefore
      obtain ⟨u, hu, hnot⟩ := hbefore
      -- the last to apply is the node of this step
      obtain ⟨a, p, rfl⟩ : ∃ a p, op = .applyRelease u a p := by
        by_contra hop
        refine hnot ((HasApplied.snoc_of_ne hrun fun a p heq => hop ⟨a, p, heq⟩).mp
          (happlied u hu))
      have hreleased : ∀ v ∈ users, frame.Released i v := by
        intro v hv
        by_cases hvu : v = u
        · subst hvu
          exact (HasApplied.snoc_self h hrun a p).mp (happlied v hv) i List.mem_cons_self
        · have hv' := (HasApplied.snoc_of_ne hrun fun a' p' heq => hvu (by
            rw [Op.applyRelease.injEq] at heq
            exact heq.1.symm)).mp (happlied v hv)
          exact HasApplied.released h hrun hv' i List.mem_cons_self
      obtain ⟨status₀, hstatus, hmem⟩ := exists_statusOf h hdistinct hi (hrole u hu)
      obtain ⟨status, hfind, hfollows⟩ := (follows h hrun u).1 status₀ hstatus
      refine ⟨u, a, p, rfl, ?_, hreleased u hu, hreleased⟩
      rw [Frame.pending, hfind]
      simp only [Option.map_some, Option.getD_some, NodeStatus.items, List.mem_append,
        hfollows.iImage.mem, hfollows.oImage.mem, hfollows.iMeta.mem, hfollows.oMeta.mem]
      simp only [NodeStatus.items, List.mem_append] at hmem
      tauto

def FewUsers (cfg : FrameConfig) (i : ItemId) : Prop :=
  (cfg.evaluateBufferUsers i).producers.length ≤ 32 ∧
    (cfg.evaluateBufferUsers i).consumers.length ≤ 32

structure AllApplied (cfg : FrameConfig) (driver : SyncDriver) (frame₀ : Frame)
    (ops : List Op) (i : ItemId) : Prop where
  few : cfg.FewUsers i
  exists_user : ∃ u, (cfg.evaluateBufferUsers i).HasRole u
  applied : ∀ u, (cfg.evaluateBufferUsers i).HasRole u → HasApplied driver frame₀ ops u [i]

theorem AllApplied.hasBit_release (hall : cfg.AllApplied driver frame₀ ops i)
    (h : cfg.constructRequest = .ok frame₀) (hdistinct : cfg.Distinct) (hi : cfg.HasItem i)
    (hrun : (frameMachine driver).Runs frame₀ ops frame events) :
    frame.hasBit i eBUF_STATUS_RELEASE = true := by
  have hmem : ∀ u, u ∈ (cfg.evaluateBufferUsers i).producers ++
      (cfg.evaluateBufferUsers i).consumers ↔ (cfg.evaluateBufferUsers i).HasRole u :=
    fun u => List.mem_append
  rw [hasBit_release_iff h hrun]
  refine (met_of_hasApplied h hdistinct hi (fun u hu => (hmem u).mp hu) ?_ hrun
    fun u hu => hall.applied u ((hmem u).mp hu)).imp ?_
  · obtain ⟨u, hu⟩ := hall.exists_user
    exact List.ne_nil_of_mem ((hmem u).mpr hu)
  · rintro ops' frame' events' op' hrun' ⟨n, a, p, rfl, hpending, hn, hreleased⟩
    have husers := (runs_invariant h hrun').store.users
    refine ⟨n, a, p, rfl, hpending, hn, ?_⟩
    rw [UsersManager.haveAllUsersReleased_eq_ok_iff (husers.coherent i),
      (husers.same i).producers, (husers.same i).consumers]
    exact ⟨hall.few.1, hall.few.2,
      fun u hu => hreleased u ((hmem u).mpr ((husers.same i).hasRole.mp hu))⟩

theorem AllApplied.hasBit_producers (hall : cfg.AllApplied driver frame₀ ops i)
    (h : cfg.constructRequest = .ok frame₀) (hdistinct : cfg.Distinct) (hi : cfg.HasItem i)
    (hproducer : cfg.hasProducer i = true)
    (hrun : (frameMachine driver).Runs frame₀ ops frame events) :
    frame.hasBit i eBUF_STATUS_PRODUCERS_RELEASE = true := by
  have hne : (cfg.evaluateBufferUsers i).producers ≠ [] := by
    rw [hasProducer, decide_eq_true_eq,
      UsersManager.getNumberOfProducers_eq (cfg.coherent_evaluateBufferUsers i)] at hproducer
    exact List.ne_nil_of_length_pos hproducer
  rw [hasBit_producers_iff h hrun]
  refine (met_of_hasApplied h hdistinct hi (fun u hu => .inl hu) hne hrun
    fun u hu => hall.applied u (.inl hu)).imp ?_
  rintro ops' frame' events' op' hrun' ⟨n, a, p, rfl, hpending, -, hreleased⟩
  have husers := (runs_invariant h hrun').store.users
  refine ⟨n, a, p, rfl, hpending, ?_⟩
  rw [UsersManager.haveAllProducerUsersReleased_eq_ok_iff (husers.coherent i),
    (husers.same i).producers]
  exact ⟨hall.few.1, hreleased⟩

end FrameConfig

/-! ### Counts -/

def ItemMap.numItems (map : ItemMap) : ℕ := map.mMap.entries.countP fun e => e.2.isSome

namespace FrameConfig

theorem length_keys (hdistinct : cfg.Distinct) (kind : MapKind) :
    (cfg.keys kind).length = (cfg.buffers kind).length := by
  have hperm : (cfg.keys kind).Perm (cfg.streams kind) :=
    (List.perm_ext_iff_of_nodup (cfg.nodup_keys kind) (hdistinct.nodup kind)).mpr
      fun s => cfg.mem_keys_iff _ s
  rw [hperm.length_eq, streams, List.length_map]

end FrameConfig

theorem MapInvariant.numItems_eq {st : Store} (hmap : MapInvariant cfg st) (kind : MapKind) :
    (st.itemMap kind).numItems =
      (cfg.keys kind).countP fun s => !st.hasBit (kind, s) eBUF_STATUS_RELEASE := by
  rw [ItemMap.numItems, ← hmap.keys]
  refine KeyedVector.countP_entries _ fun s x hfind => ?_
  rw [hmap.entry] at hfind
  split at hfind
  · rw [← Option.some_inj.mp hfind]
    cases st.hasBit (kind, s) eBUF_STATUS_RELEASE <;> simp
  · cases hfind

/-- **The non-released count** of a map with distinct streams. -/
theorem MapInvariant.mNonReleasedNum_eq {st : Store} (hmap : MapInvariant cfg st)
    (hdistinct : cfg.Distinct) (kind : MapKind) :
    (st.itemMap kind).mNonReleasedNum = (st.itemMap kind).numItems := by
  have hnum := hmap.num kind
  have hlength := List.length_eq_countP_add_countP
    (fun s => st.hasBit (kind, s) eBUF_STATUS_RELEASE) (l := cfg.keys kind)
  rw [cfg.length_keys hdistinct] at hlength
  rw [hmap.numItems_eq]
  simp only [Bool.not_eq_true, Bool.decide_eq_false] at hlength
  omega

/-- How often an event delivers a metadata buffer to the application. -/
def Event.delivers (b : StreamBuffer) : Event → ℕ
  | .updateFrame _ result => (result.vAppOutMeta ++ result.vHalOutMeta).count b
  | _ => 0

theorem Call.sum_delivers_le (call : Call) (snapshot : Snapshot) (gone : List Listener)
    (b : StreamBuffer) :
    ((call.callbacks snapshot gone).map (Event.delivers b)).sum ≤
      snapshot.produced.count b := by
  have hupdate : ((call.updateFrame snapshot).map (Event.delivers b)).sum ≤
      snapshot.produced.count b := by
    rw [updateFrame]
    split
    · simp [Event.delivers, Snapshot.produced]
    · simp
  have hrest : ∀ l : List Event, (∀ e ∈ l, Event.delivers b e = 0) →
      (l.map (Event.delivers b)).sum = 0 := fun l hl => List.sum_eq_zero fun x hx => by
    obtain ⟨e, he, rfl⟩ := List.mem_map.mp hx
    exact hl e he
  rw [callbacks, List.map_append, List.sum_append]
  refine Nat.add_le_add hupdate (hrest _ fun e he => ?_).le
  split at he
  · simp at he
  · rcases List.mem_append.mp he with he | he
    · obtain ⟨b', -, rfl⟩ := List.mem_map.mp he
      rfl
    · split at he
      · simp at he
      · obtain ⟨l, -, he⟩ := List.mem_flatMap.mp he
        simp only [notify, List.mem_append] at he
        rcases he with (he | he) | he <;> split at he <;> simp at he <;> rw [he] <;> rfl

theorem Call.count_releaseBuffer_le (call : Call) (snapshot : Snapshot)
    (gone : List Listener) (b : StreamBuffer) :
    (call.callbacks snapshot gone).count (.releaseBuffer b) ≤ snapshot.batch.count b := by
  have hupdate : (call.updateFrame snapshot).count (.releaseBuffer b) = 0 := by
    rw [updateFrame]
    split <;> simp
  rw [callbacks, List.count_append, hupdate, Nat.zero_add]
  split
  · simp
  · have hmap : ((snapshot.aHalImageSet ++ snapshot.aHalMetaSet).map
        Event.releaseBuffer).count (.releaseBuffer b) = snapshot.batch.count b :=
      List.count_map_of_injective _ _ (fun _ _ heq => Event.releaseBuffer.inj heq) b
    rw [List.count_append, hmap]
    have hnone : ∀ l : List Listener,
        (l.flatMap call.notify).count (.releaseBuffer b) = 0 := fun l => by
      refine List.count_eq_zero.mpr fun he => ?_
      obtain ⟨l, -, he⟩ := List.mem_flatMap.mp he
      simp only [notify, List.mem_append] at he
      rcases he with (he | he) | he <;> split at he <;> simp at he
    split
    · simp
    · rw [hnone, Nat.add_zero]

/-- What the calls that have returned hold is part of what all calls and the collector
hold. -/
theorem Store.delivered_le_times (st : Store) (f : Snapshot → List StreamBuffer)
    (b : StreamBuffer) :
    st.delivered (fun call => (call.snapshot.map fun s => (f s).count b).getD 0) ≤
      st.times f b := by
  rw [delivered, times]
  refine (List.sum_le_sum fun call _ => ?_).trans (Nat.le_add_right _ _)
  split
  · exact le_rfl
  · exact Nat.zero_le _

namespace FrameConfig

/-! ### The life cycle -/

/-- The output metadata items of a map with producers whose release has not been found by an
`applyRelease`. -/
def unproduced (cfg : FrameConfig) (driver : SyncDriver) (frame₀ : Frame) (ops : List Op)
    (kind : MapKind) : Set StreamId :=
  {s | cfg.HasItem (kind, s) ∧ cfg.hasProducer (kind, s) = true ∧
    ¬ (frameMachine driver).Met frame₀ ops (FindsProduced (kind, s))}

theorem metaNum_eq (h : cfg.constructRequest = .ok frame₀)
    (hrun : (frameMachine driver).Runs frame₀ ops frame events) (kind : MapKind)
    (hkind : kind.isImage = false) :
    frame.mpReleasedCollector.metaNum kind = (cfg.unproduced driver frame₀ ops kind).ncard := by
  have hset : cfg.unproduced driver frame₀ ops kind =
      (((cfg.keys kind).filter fun s => frame.inFlight cfg (kind, s)).toFinset :
        Set StreamId) := by
    ext s
    rw [List.coe_toFinset, Set.mem_ofPred_eq, List.mem_filter, cfg.mem_keys_iff,
      Store.inFlight, Bool.and_eq_true, Bool.not_eq_true', ← Bool.not_eq_true,
      hasBit_producers_iff h hrun]
    rfl
  rw [(runs_invariant h hrun).store.ledger.num kind hkind, hset, Set.ncard_coe_finset,
    List.toFinset_card_of_nodup ((cfg.nodup_keys kind).filter _), List.countP_eq_length_filter]

theorem distinct_singleProducer : singleProducer.Distinct where
  nodup kind := by cases kind <;> decide
  disjoint kind kind' s hs hs' := by
    cases kind <;> cases kind' <;> simp [streams, singleProducer] at hs hs' ⊢

end FrameConfig

end MtkHardware.Pipeline
