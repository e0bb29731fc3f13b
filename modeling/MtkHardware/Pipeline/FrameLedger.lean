import MtkHardware.Pipeline.FrameInvariant

/-!
# The Ledger of a Frame

A released buffer goes from its item to the collector, and from there to the snapshot of
one call. The ledger of a frame says how often a buffer is found on that way: once from the
step that released it on, and never before.
-/

namespace MtkHardware.Pipeline

/-! ### Batches -/

def MapKind.isHal : MapKind → Bool
  | .halImage | .halMeta => true
  | .appImage | .appMeta => false

/-- The buffers of a snapshot that all users have released. -/
def Snapshot.batch (s : Snapshot) : List StreamBuffer := s.aHalImageSet ++ s.aHalMetaSet

/-- The output metadata of a snapshot that all producers have released. -/
def Snapshot.produced (s : Snapshot) : List StreamBuffer := s.aAppMetaSetO ++ s.aHalMetaSetO

/-- The number of output metadata items with producers in flight. -/
def ReleasedCollector.metaNum (c : ReleasedCollector) : MapKind → ℤ
  | .appMeta => c.mAppMetaNumO_ProducersInFlight
  | .halMeta => c.mHalMetaNumO_ProducersInFlight
  | .appImage | .halImage => 0

namespace Store

/-- **How often** a buffer is among what the calls and the collector hold. -/
def times (st : Store) (f : Snapshot → List StreamBuffer) (b : StreamBuffer) : ℕ :=
  (st.calls.map fun call => (call.snapshot.map fun s => (f s).count b).getD 0).sum +
    (f st.mpReleasedCollector.take.1).count b

theorem times_takeSnapshot (st : Store) (c : ℕ) {f : Snapshot → List StreamBuffer}
    (hf : ∀ c : ReleasedCollector, f c.take.2.take.1 = []) (b : StreamBuffer) :
    (st.takeSnapshot c).times f b = st.times f b := by
  unfold takeSnapshot
  cases hcall : st.calls[c]? with
  | none => rfl
  | some call =>
    dsimp only
    split
    · rfl
    · rename_i hnone
      rw [Bool.not_eq_true, Option.isSome_eq_false_iff, Option.isNone_iff_eq_none] at hnone
      have hsum := sum_map_set_add hcall
        { call with snapshot := some st.mpReleasedCollector.take.1 }
        fun call => (call.snapshot.map fun s => (f s).count b).getD 0
      simp only [hnone, Option.map_none, Option.getD_none, Option.map_some,
        Option.getD_some, Nat.add_zero] at hsum
      simp only [times]
      rw [hsum, hf, List.count_nil, Nat.add_zero]

theorem times_set {st : Store} {c : ℕ} {call : Call} (call' : Call)
    (hcall : st.calls[c]? = some call) (hsnapshot : call'.snapshot = call.snapshot)
    {f : Snapshot → List StreamBuffer} (b : StreamBuffer) :
    Store.times { st with calls := st.calls.set c call' } f b = st.times f b := by
  have hsum := sum_map_set_add hcall call'
    fun call => (call.snapshot.map fun s => (f s).count b).getD 0
  simp only [hsnapshot, Nat.add_right_cancel_iff] at hsum
  simp only [times, hsum]

theorem times_congr {st st' : Store} {f : Snapshot → List StreamBuffer} {b : StreamBuffer}
    (hcalls : st'.calls = st.calls)
    (hcollector : (f st'.mpReleasedCollector.take.1).count b =
      (f st.mpReleasedCollector.take.1).count b) : st'.times f b = st.times f b := by
  rw [times, times, hcalls, hcollector]

@[simp] theorem calls_handleAllUsersReleased (st : Store) (i : ItemId) :
    (st.handleAllUsersReleased i).calls = st.calls := by
  unfold handleAllUsersReleased onAllUsersReleased
  split
  · rfl
  · split <;> rfl

@[simp] theorem calls_handleProducersReleased (st : Store) (i : ItemId) :
    (st.handleProducersReleased i).calls = st.calls := by
  unfold handleProducersReleased
  split <;> rfl

theorem collector_handleAllUsersReleased (st : Store) (i : ItemId) :
    (st.handleAllUsersReleased i).mpReleasedCollector =
      if st.hasBit i eBUF_STATUS_RELEASE = false ∧
        ((st.itemMap i.1).mMap.find? i.2).join.isSome then
        st.mpReleasedCollector.onAllUsersReleased i.1 (st.items i)
      else st.mpReleasedCollector := by
  unfold handleAllUsersReleased onAllUsersReleased hasBit
  cases (st.items i).mBitStatus.hasBit eBUF_STATUS_RELEASE with
  | true => simp
  | false =>
    simp only [Bool.false_eq_true, if_false, editItem, true_and]
    rcases hfind : (st.itemMap i.1).mMap.find? i.2 with _ | (_ | j)
    · simp
    · simp
    · simp only [Function.update_self, Option.join_some, Option.isSome_some, if_true]
      cases i.1 <;> rfl

theorem collector_handleProducersReleased (st : Store) (i : ItemId) :
    (st.handleProducersReleased i).mpReleasedCollector =
      if st.hasBit i eBUF_STATUS_PRODUCERS_RELEASE = false then
        st.mpReleasedCollector.onProducersReleased i.1 (st.items i)
      else st.mpReleasedCollector := by
  unfold handleProducersReleased hasBit
  cases (st.items i).mBitStatus.hasBit eBUF_STATUS_PRODUCERS_RELEASE with
  | true => simp
  | false =>
    simp only [Bool.false_eq_true, if_false, editItem, Function.update_self, if_true]
    cases i.1 <;> rfl

end Store

namespace ReleasedCollector

variable (c : ReleasedCollector) (kind : MapKind) (item : Item) (b : StreamBuffer)

theorem count_batch_onAllUsersReleased :
    (c.onAllUsersReleased kind item).take.1.batch.count b =
      c.take.1.batch.count b + if kind.isHal then item.mBuffer.toList.count b else 0 := by
  cases kind <;> simp [onAllUsersReleased, take, Snapshot.batch, MapKind.isHal] <;> omega

theorem produced_onAllUsersReleased :
    (c.onAllUsersReleased kind item).take.1.produced = c.take.1.produced := by
  cases kind <;> rfl

theorem metaNum_onAllUsersReleased (kind' : MapKind) :
    (c.onAllUsersReleased kind item).metaNum kind' = c.metaNum kind' := by
  cases kind <;> rfl

theorem batch_onProducersReleased :
    (c.onProducersReleased kind item).take.1.batch = c.take.1.batch := by
  cases kind with
  | appImage | halImage => rfl
  | appMeta | halMeta =>
    unfold onProducersReleased
    dsimp only
    split <;> rfl

theorem count_produced_onProducersReleased :
    (c.onProducersReleased kind item).take.1.produced.count b =
      c.take.1.produced.count b +
        if kind.isImage = false ∧ 0 < item.mUsersManager.getNumberOfProducers then
          item.mBuffer.toList.count b
        else 0 := by
  cases kind with
  | appImage | halImage => simp [onProducersReleased, MapKind.isImage]
  | appMeta | halMeta =>
    by_cases h : 0 < item.mUsersManager.getNumberOfProducers
    · simp [onProducersReleased, take, Snapshot.produced, MapKind.isImage, h]
      omega
    · simp [onProducersReleased, MapKind.isImage, h]

theorem metaNum_onProducersReleased (kind' : MapKind) :
    (c.onProducersReleased kind item).metaNum kind' = c.metaNum kind' -
      if kind' = kind ∧ kind.isImage = false ∧
        0 < item.mUsersManager.getNumberOfProducers then 1 else 0 := by
  by_cases h : 0 < item.mUsersManager.getNumberOfProducers <;> cases kind <;> cases kind' <;>
    simp [onProducersReleased, metaNum, MapKind.isImage, h]

end ReleasedCollector

/-! ### The ledger -/

variable {cfg : FrameConfig} {is : List ItemId} {st st' : Store} {i j : ItemId} {b : StreamBuffer}

def FrameConfig.hasProducer (cfg : FrameConfig) (i : ItemId) : Bool :=
  decide (0 < (cfg.evaluateBufferUsers i).getNumberOfProducers)

/-- Is the buffer one that all its users have been found to have released? -/
def Store.Batched (st : Store) (b : StreamBuffer) : Prop :=
  st.hasBit b.item eBUF_STATUS_RELEASE = true ∧ (st.items b.item).mBuffer = some b ∧
    b.item.1.isHal = true

instance (st : Store) (b : StreamBuffer) : Decidable (st.Batched b) :=
  inferInstanceAs (Decidable (_ ∧ _ ∧ _))

/-- Is the buffer output metadata that all its producers have been found to have
released? -/
def Store.Produced (cfg : FrameConfig) (st : Store) (b : StreamBuffer) : Prop :=
  st.hasBit b.item eBUF_STATUS_PRODUCERS_RELEASE = true ∧
    (st.items b.item).mBuffer = some b ∧ b.item.1.isImage = false ∧
    cfg.hasProducer b.item = true

instance (st : Store) (b : StreamBuffer) : Decidable (st.Produced cfg b) :=
  inferInstanceAs (Decidable (_ ∧ _ ∧ _ ∧ _))

/-- Is the item output metadata whose producers have not all been found released? -/
def Store.inFlight (cfg : FrameConfig) (st : Store) (i : ItemId) : Bool :=
  cfg.hasProducer i && !st.hasBit i eBUF_STATUS_PRODUCERS_RELEASE

/-- **The ledger**: each buffer is in one batch, from the step on that released it. -/
structure LedgerInvariant (cfg : FrameConfig) (st : Store) : Prop where
  num : ∀ kind, kind.isImage = false → st.mpReleasedCollector.metaNum kind =
    (cfg.keys kind).countP fun s => st.inFlight cfg (kind, s)
  batched : ∀ b, st.times Snapshot.batch b = if st.Batched b then 1 else 0
  produced : ∀ b, st.times Snapshot.produced b = if st.Produced cfg b then 1 else 0

theorem UsersInvariant.getNumberOfProducers (h : UsersInvariant cfg st) (i : ItemId) :
    (st.items i).mUsersManager.getNumberOfProducers =
      (cfg.evaluateBufferUsers i).getNumberOfProducers := by
  have heq := UsersManager.getNumberOfProducers_eq (h.coherent i)
  rw [(h.same i).producers, ← UsersManager.getNumberOfProducers_eq
    (cfg.coherent_evaluateBufferUsers i)] at heq
  exact heq

namespace LedgerInvariant

theorem congr (h : LedgerInvariant cfg st)
    (hnum : ∀ kind, kind.isImage = false →
      st'.mpReleasedCollector.metaNum kind = st.mpReleasedCollector.metaNum kind)
    (hbatch : ∀ b, st'.times Snapshot.batch b = st.times Snapshot.batch b)
    (hproduced : ∀ b, st'.times Snapshot.produced b = st.times Snapshot.produced b)
    (hflight : ∀ i, st'.hasBit i eBUF_STATUS_PRODUCERS_RELEASE =
      st.hasBit i eBUF_STATUS_PRODUCERS_RELEASE)
    (hbatched : ∀ b, st'.Batched b ↔ st.Batched b)
    (hprod : ∀ b, st'.Produced cfg b ↔ st.Produced cfg b) : LedgerInvariant cfg st' where
  num kind hkind := by
    rw [hnum kind hkind, h.num kind hkind]
    simp only [Store.inFlight, hflight]
  batched b := by rw [hbatch, h.batched, if_congr (hbatched b) rfl rfl]
  produced b := by rw [hproduced, h.produced, if_congr (hprod b) rfl rfl]

theorem count_mBuffer (hbuffer : BufferInvariant cfg st) (i : ItemId) (b : StreamBuffer) :
    (st.items i).mBuffer.toList.count b =
      if b.item = i ∧ (st.items i).mBuffer = some b then 1 else 0 := by
  cases hb : (st.items i).mBuffer with
  | none => simp
  | some b' =>
    have htag := hbuffer.tagged i b' hb
    by_cases heq : b' = b
    · subst heq
      simp [htag]
    · simp [heq]

theorem handleAllUsersReleased (h : LedgerInvariant cfg st) (hmap : MapInvariant cfg st)
    (hbuffer : BufferInvariant cfg st) (hi : cfg.HasItem i) :
    LedgerInvariant cfg (st.handleAllUsersReleased i) := by
  have hbits := fun j => st.hasBit_handleAllUsersReleased i j eBUF_STATUS_RELEASE
  simp only [decide_true, Bool.and_true] at hbits
  have hpbits : ∀ j, (st.handleAllUsersReleased i).hasBit j eBUF_STATUS_PRODUCERS_RELEASE =
      st.hasBit j eBUF_STATUS_PRODUCERS_RELEASE := fun j => by
    rw [Store.hasBit_handleAllUsersReleased]
    simp [eBUF_STATUS_RELEASE, eBUF_STATUS_PRODUCERS_RELEASE]
  have hcollector := st.collector_handleAllUsersReleased i
  have hprod : ∀ b, (st.handleAllUsersReleased i).Produced cfg b ↔ st.Produced cfg b := by
    intro b
    rw [Store.Produced, Store.Produced, hpbits, Store.mBuffer_handleAllUsersReleased]
  cases hbit : st.hasBit i eBUF_STATUS_RELEASE with
  | true =>
    simp only [hbit, Bool.true_eq_false, false_and, if_false] at hcollector
    refine h.congr (fun kind _ => by rw [hcollector])
      (fun b => Store.times_congr (by simp) (by rw [hcollector]))
      (fun b => Store.times_congr (by simp) (by rw [hcollector])) hpbits (fun b => ?_) hprod
    rw [Store.Batched, Store.Batched, hbits, Store.mBuffer_handleAllUsersReleased]
    by_cases hb : b.item = i <;> simp [hb, hbit]
  | false =>
    have hentry : (st.itemMap i.1).mMap.find? i.2 = some (some i) := by
      rw [hmap.entry, if_pos ((cfg.mem_keys_iff _ _).mpr hi), hbit]
      rfl
    simp only [hbit, hentry, Option.join_some, Option.isSome_some, and_self,
      if_true] at hcollector
    refine ⟨fun kind hkind => ?_, fun b => ?_, fun b => ?_⟩
    · rw [hcollector, ReleasedCollector.metaNum_onAllUsersReleased, h.num kind hkind]
      simp only [Store.inFlight, hpbits]
    · have hcount := ReleasedCollector.count_batch_onAllUsersReleased
        st.mpReleasedCollector i.1 (st.items i) b
      rw [count_mBuffer hbuffer] at hcount
      have hold := h.batched b
      rw [Store.times] at hold
      rw [Store.times, hcollector, hcount, Store.calls_handleAllUsersReleased,
        ← Nat.add_assoc, hold]
      have hnew : (st.handleAllUsersReleased i).Batched b ↔ st.Batched b ∨
          b.item = i ∧ (st.items i).mBuffer = some b ∧ i.1.isHal = true := by
        rw [Store.Batched, Store.Batched, hbits, Store.mBuffer_handleAllUsersReleased]
        by_cases hb : b.item = i
        · simp [hb, hbit]
        · simp [hb]
      rw [if_congr hnew rfl rfl]
      by_cases hbatch : st.Batched b
      · have hne : b.item ≠ i := fun heq => by simp [Store.Batched, heq, hbit] at hbatch
        simp [hbatch, hne]
      · by_cases hhal : i.1.isHal = true <;> simp [hbatch, hhal]
    · rw [Store.times, hcollector, ReleasedCollector.produced_onAllUsersReleased,
        Store.calls_handleAllUsersReleased, if_congr (hprod b) rfl rfl, ← h.produced b]
      rfl

theorem countP_inFlight (hi : cfg.HasItem i)
    (hbit : st.hasBit i eBUF_STATUS_PRODUCERS_RELEASE = false) (kind : MapKind) :
    (cfg.keys kind).countP (fun s => st.inFlight cfg (kind, s)) =
      (cfg.keys kind).countP (fun s => (st.handleProducersReleased i).inFlight cfg (kind, s)) +
        if kind = i.1 ∧ cfg.hasProducer i = true then 1 else 0 := by
  have hbits := fun j => st.hasBit_handleProducersReleased i j eBUF_STATUS_PRODUCERS_RELEASE
  simp only [decide_true, Bool.and_true] at hbits
  by_cases hk : kind = i.1 ∧ cfg.hasProducer i = true
  · obtain ⟨rfl, hprod⟩ := hk
    rw [if_pos ⟨rfl, hprod⟩]
    refine countP_eq_countP_add_one (cfg.nodup_keys i.1) ((cfg.mem_keys_iff _ _).mpr hi)
      (by simp [Store.inFlight, hprod, hbit]) (by simp [Store.inFlight, hbits]) fun s _ hs => ?_
    have hne : (i.1, s) ≠ i := fun heq => hs (by rw [← heq])
    simp [Store.inFlight, hbits, hne]
  · rw [if_neg hk, Nat.add_zero]
    refine List.countP_congr fun s _ => ?_
    by_cases hne : (kind, s) = i
    · have hnone : cfg.hasProducer i = false := by
        rw [← Bool.not_eq_true]
        exact fun hprod => hk ⟨by rw [← hne], hprod⟩
      simp [Store.inFlight, hne, hnone]
    · simp [Store.inFlight, hbits, hne]

/-- An output metadata item that all producers have released is put into a batch, once, and
is not in flight any more. -/
theorem handleProducersReleased (h : LedgerInvariant cfg st) (husers : UsersInvariant cfg st)
    (hbuffer : BufferInvariant cfg st) (hi : cfg.HasItem i) :
    LedgerInvariant cfg (st.handleProducersReleased i) := by
  have hbits := fun j => st.hasBit_handleProducersReleased i j eBUF_STATUS_PRODUCERS_RELEASE
  simp only [decide_true, Bool.and_true] at hbits
  have hcollector := st.collector_handleProducersReleased i
  have hbatched : ∀ b, (st.handleProducersReleased i).Batched b ↔ st.Batched b := by
    intro b
    rw [Store.Batched, Store.Batched, Store.mBuffer_handleProducersReleased,
      Store.hasBit_handleProducersReleased]
    simp [eBUF_STATUS_RELEASE, eBUF_STATUS_PRODUCERS_RELEASE]
  cases hbit : st.hasBit i eBUF_STATUS_PRODUCERS_RELEASE with
  | true =>
    simp only [hbit, Bool.true_eq_false, if_false] at hcollector
    have hsame : ∀ j, (st.handleProducersReleased i).hasBit j
        eBUF_STATUS_PRODUCERS_RELEASE = st.hasBit j eBUF_STATUS_PRODUCERS_RELEASE := by
      intro j
      rw [hbits]
      by_cases hji : j = i <;> simp [hji, hbit]
    refine h.congr (fun kind _ => by rw [hcollector])
      (fun b => Store.times_congr (by simp) (by rw [hcollector]))
      (fun b => Store.times_congr (by simp) (by rw [hcollector])) hsame hbatched fun b => ?_
    rw [Store.Produced, Store.Produced, hsame, Store.mBuffer_handleProducersReleased]
  | false =>
    simp only [hbit, if_true] at hcollector
    have hnum := husers.getNumberOfProducers i
    have hpos : 0 < (st.items i).mUsersManager.getNumberOfProducers ↔
        cfg.hasProducer i = true := by
      rw [hnum, FrameConfig.hasProducer, decide_eq_true_eq]
    refine ⟨fun kind hkind => ?_, fun b => ?_, fun b => ?_⟩
    · rw [hcollector, ReleasedCollector.metaNum_onProducersReleased, h.num kind hkind,
        countP_inFlight hi hbit kind]
      by_cases hk : kind = i.1 ∧ cfg.hasProducer i = true
      · rw [if_pos hk, if_pos ⟨hk.1, hk.1 ▸ hkind, hpos.mpr hk.2⟩]
        push_cast
        omega
      · rw [if_neg hk, if_neg fun hall => hk ⟨hall.1, hpos.mp hall.2.2⟩, sub_zero,
          Nat.add_zero]
    · rw [Store.times, hcollector, ReleasedCollector.batch_onProducersReleased,
        Store.calls_handleProducersReleased, if_congr (hbatched b) rfl rfl, ← h.batched b]
      rfl
    · have hcount := ReleasedCollector.count_produced_onProducersReleased
        st.mpReleasedCollector i.1 (st.items i) b
      rw [count_mBuffer hbuffer] at hcount
      have hold := h.produced b
      rw [Store.times] at hold
      rw [Store.times, hcollector, hcount, Store.calls_handleProducersReleased,
        ← Nat.add_assoc, hold]
      have hnew : (st.handleProducersReleased i).Produced cfg b ↔ st.Produced cfg b ∨
          b.item = i ∧ (st.items i).mBuffer = some b ∧ i.1.isImage = false ∧
            cfg.hasProducer i = true := by
        rw [Store.Produced, Store.Produced, hbits, Store.mBuffer_handleProducersReleased]
        by_cases hb : b.item = i
        · simp [hb, hbit]
        · simp [hb]
      rw [if_congr hnew rfl rfl]
      by_cases hprod : st.Produced cfg b
      · have hne : b.item ≠ i := fun heq => by simp [Store.Produced, heq, hbit] at hprod
        simp [hprod, hne]
      · by_cases hall : i.1.isImage = false ∧ cfg.hasProducer i = true
        · simp [hprod, hpos, hall]
        · simp only [hprod, hpos, if_neg hall, false_or, if_false, Nat.add_zero]
          exact (if_neg fun h' => hall h'.2.2).symm

end LedgerInvariant

theorem Store.Step.ledgerInvariant (hstep : Store.Step cfg is st st')
    (h : LedgerInvariant cfg st) (husers : UsersInvariant cfg st)
    (hmap : MapInvariant cfg st) (hbuffer : BufferInvariant cfg st) :
    LedgerInvariant cfg st' := by
  cases hstep with
  | takeSnapshot c =>
    have hnum : ∀ kind, (st.takeSnapshot c).mpReleasedCollector.metaNum kind =
        st.mpReleasedCollector.metaNum kind := fun kind => by
      unfold Store.takeSnapshot
      split
      · rfl
      · split
        · rfl
        · cases kind <;> rfl
    exact h.congr (fun kind _ => hnum kind)
      (Store.times_takeSnapshot st c fun _ => rfl)
      (Store.times_takeSnapshot st c fun _ => rfl) (by simp)
      (by simp [Store.Batched]) (by simp [Store.Produced])
  | producersReleased i _ hitem hok => exact h.handleProducersReleased husers hbuffer hitem
  | allUsersReleased i _ hitem hok => exact h.handleAllUsersReleased hmap hbuffer hitem
  | editUsers i f hf =>
    exact h.congr (fun _ _ => rfl) (fun _ => rfl) (fun _ => rfl) (by simp)
      (by simp [Store.Batched]) (by simp [Store.Produced])
  | acquire i acquired hkind hentry hbit =>
    -- the item is still in its map, so it is in no batch
    have hnew : st.hasBit i eBUF_STATUS_RELEASE = false := by
      rw [hmap.entry] at hentry
      split at hentry
      · split at hentry
        · simp at hentry
        · rename_i hrel
          simpa using hrel
      · simp at hentry
    have hsame := fun j n => st.hasBit_acquireItem_of_release i j acquired (n := n)
    refine h.congr (fun _ _ => rfl) (fun _ => rfl) (fun _ => rfl)
      (fun j => hsame j _ (.inr rfl)) (fun b => ?_) fun b => ?_
    · rw [Store.Batched, Store.Batched, hsame _ _ (.inl rfl), Store.mBuffer_acquireItem]
      by_cases hb : b.item = i
      · simp [hb, hnew]
      · simp [hb]
    · rw [Store.Produced, Store.Produced, hsame _ _ (.inr rfl), Store.mBuffer_acquireItem]
      by_cases hb : b.item = i
      · simp [hb, hkind, MapKind.isImage]
      · simp [hb]
  | call call hsnapshot hreturned =>
    refine h.congr (fun _ _ => rfl) (fun b => ?_) (fun b => ?_) (fun _ => rfl)
      (fun _ => .rfl) fun _ => .rfl
    all_goals simp [Store.times, hsnapshot]
  | returned c call hcall =>
    exact h.congr (fun _ _ => rfl)
      (Store.times_set { call with returned := true } hcall rfl)
      (Store.times_set { call with returned := true } hcall rfl)
      (fun _ => rfl) (fun _ => .rfl) fun _ => .rfl

end MtkHardware.Pipeline
