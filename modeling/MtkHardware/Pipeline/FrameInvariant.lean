import MtkHardware.Pipeline.FrameUpdate

/-!
# The Invariant of a Frame's Buffers

Every operation on a frame edits its store by a few kinds of primitive steps
(`Store.Step`). The invariants of the store are proved once for each kind of step: what the
bits of an item say about its users, which items are still in their maps, and which buffer
an item holds.
-/

namespace MtkHardware.Pipeline

/-! ### Primitive steps -/

def FrameConfig.HasItem (cfg : FrameConfig) (i : ItemId) : Prop := i.2 ∈ cfg.streams i.1

def Store.editUsers (st : Store) (i : ItemId) (f : UsersManager → UsersManager) : Store :=
  st.editItem i fun item => { item with mUsersManager := f item.mUsersManager }

structure UsersEdit (f : UsersManager → UsersManager) : Prop where
  coherent : ∀ m, m.Coherent → (f m).Coherent
  same : ∀ m : UsersManager, m.Coherent → UsersManager.SameUsers m (f m)
  released : ∀ m : UsersManager, m.Coherent → ∀ v,
    UserStatus.Released (m.getUserStatus v) → UserStatus.Released ((f m).getUserStatus v)

theorem UsersEdit.markUserStatus (u : UserId) (mask : BitVec 32) :
    UsersEdit fun m => (m.markUserStatus u mask).1 where
  coherent _ h := (UsersManager.coherent_markUserStatus h u mask).1
  same _ h := (UsersManager.coherent_markUserStatus h u mask).2
  released _ h _ hv := UsersManager.released_markUserStatus h u mask hv

theorem UsersEdit.setUserReleaseFence (u : UserId) (fence : ℤ) :
    UsersEdit fun m => (m.setUserReleaseFence u fence).1 where
  coherent _ h := (UsersManager.coherent_setUserReleaseFence h u fence).1
  same _ h := (UsersManager.coherent_setUserReleaseFence h u fence).2.1
  released _ h v hv := by rwa [(UsersManager.coherent_setUserReleaseFence h u fence).2.2 v]

def Store.acquireItem (st : Store) (i : ItemId) (acquired : Option ℕ) : Store :=
  st.editItem i fun item =>
    { item with
      mBuffer := acquired.map fun handle => ⟨i, handle⟩
      mBitStatus := item.mBitStatus.markBit
        (if acquired.isSome then eBUF_STATUS_ACQUIRE else eBUF_STATUS_ACQUIRE_FAILED) }

/-- A **primitive step** of the store of a configured frame; only the items `is` are looked
at for their release. -/
inductive Store.Step (cfg : FrameConfig) (is : List ItemId) (st : Store) : Store → Prop
  | takeSnapshot (c : ℕ) : Step cfg is st (st.takeSnapshot c)
  | producersReleased (i : ItemId) : i ∈ is → cfg.HasItem i →
      (st.users i).haveAllProducerUsersReleased = .ok →
      Step cfg is st (st.handleProducersReleased i)
  | allUsersReleased (i : ItemId) : i ∈ is → cfg.HasItem i →
      (st.users i).haveAllUsersReleased = .ok → Step cfg is st (st.handleAllUsersReleased i)
  | editUsers (i : ItemId) (f : UsersManager → UsersManager) : UsersEdit f →
      Step cfg is st (st.editUsers i f)
  | acquire (i : ItemId) (acquired : Option ℕ) : i.1 = .halImage →
      (st.itemMap i.1).mMap.find? i.2 = some (some i) →
      st.hasBit i eBUF_STATUS_ACQUIRE = false → Step cfg is st (st.acquireItem i acquired)
  | call (call : Call) : call.snapshot = none → call.returned = false →
      Step cfg is st { st with calls := st.calls ++ [call] }
  | returned (c : ℕ) (call : Call) : st.calls[c]? = some call →
      call.snapshot.isSome = true →
      Step cfg is st { st with calls := st.calls.set c { call with returned := true } }

/-! ### What the steps show -/

namespace Store

variable {st : Store} {i j : ItemId}

@[simp] theorem users_editUsers (st : Store) (i j : ItemId)
    (f : UsersManager → UsersManager) :
    (st.editUsers i f).users j = if j = i then f (st.users j) else st.users j := by
  simp only [users, editUsers, editItem]
  by_cases hji : j = i
  · subst hji
    simp
  · simp [hji]

@[simp] theorem hasBit_editUsers (st : Store) (i j : ItemId)
    (f : UsersManager → UsersManager) (n : ℕ) :
    (st.editUsers i f).hasBit j n = st.hasBit j n := by
  simp only [hasBit, editUsers, editItem]
  by_cases hji : j = i
  · subst hji
    simp
  · simp [hji]

@[simp] theorem mBuffer_editUsers (st : Store) (i j : ItemId)
    (f : UsersManager → UsersManager) :
    ((st.editUsers i f).items j).mBuffer = (st.items j).mBuffer := by
  simp only [editUsers, editItem]
  by_cases hji : j = i
  · subst hji
    simp
  · simp [hji]

@[simp] theorem users_acquireItem (st : Store) (i j : ItemId) (acquired : Option ℕ) :
    (st.acquireItem i acquired).users j = st.users j := by
  simp only [users, acquireItem, editItem]
  by_cases hji : j = i
  · subst hji
    simp
  · simp [hji]

@[simp] theorem mBuffer_acquireItem (st : Store) (i j : ItemId) (acquired : Option ℕ) :
    ((st.acquireItem i acquired).items j).mBuffer =
      if j = i then acquired.map fun handle => ⟨i, handle⟩ else (st.items j).mBuffer := by
  simp only [acquireItem, editItem]
  by_cases hji : j = i
  · subst hji
    simp
  · simp [hji]

theorem hasBit_acquireItem (st : Store) (i j : ItemId) (acquired : Option ℕ) (n : ℕ) :
    (st.acquireItem i acquired).hasBit j n = (st.hasBit j n || (decide (j = i) &&
      decide (n = if acquired.isSome then eBUF_STATUS_ACQUIRE
        else eBUF_STATUS_ACQUIRE_FAILED))) := by
  simp only [hasBit, acquireItem, editItem]
  by_cases hji : j = i
  · subst hji
    cases acquired <;>
      simp [BitSet32.hasBit_markBit, eBUF_STATUS_ACQUIRE, eBUF_STATUS_ACQUIRE_FAILED] <;>
      grind
  · simp [hji]

theorem hasBit_acquireItem_of_release (st : Store) (i j : ItemId) (acquired : Option ℕ) {n : ℕ}
    (hn : n = eBUF_STATUS_RELEASE ∨ n = eBUF_STATUS_PRODUCERS_RELEASE) :
    (st.acquireItem i acquired).hasBit j n = st.hasBit j n := by
  rw [hasBit_acquireItem]
  cases acquired <;> rcases hn with rfl | rfl <;>
    simp [eBUF_STATUS_RELEASE, eBUF_STATUS_PRODUCERS_RELEASE, eBUF_STATUS_ACQUIRE,
      eBUF_STATUS_ACQUIRE_FAILED]

theorem itemMap_handleAllUsersReleased (st : Store) (i : ItemId) :
    (st.handleAllUsersReleased i).itemMap =
      if st.hasBit i eBUF_STATUS_RELEASE = false ∧
        ((st.itemMap i.1).mMap.find? i.2).join.isSome then
        Function.update st.itemMap i.1
          { mMap := (st.itemMap i.1).mMap.modify i.2 fun _ => none
            mNonReleasedNum := (st.itemMap i.1).mNonReleasedNum - 1 }
      else st.itemMap := by
  unfold handleAllUsersReleased onAllUsersReleased hasBit
  cases (st.items i).mBitStatus.hasBit eBUF_STATUS_RELEASE with
  | true => simp
  | false =>
    simp only [Bool.false_eq_true, if_false, editItem, true_and]
    rcases hfind : (st.itemMap i.1).mMap.find? i.2 with _ | (_ | j) <;> simp

@[simp] theorem itemMap_handleProducersReleased (st : Store) (i : ItemId) :
    (st.handleProducersReleased i).itemMap = st.itemMap := by
  unfold handleProducersReleased
  split <;> rfl

end Store

variable {cfg : FrameConfig} {is : List ItemId} {st st' : Store} {i j : ItemId}

/-! ### Users -/

/-- The users of every item are those that were configured, and the bits of an item tell
the truth about them. -/
structure UsersInvariant (cfg : FrameConfig) (st : Store) : Prop where
  coherent : ∀ i, (st.users i).Coherent
  same : ∀ i, UsersManager.SameUsers (cfg.evaluateBufferUsers i) (st.users i)
  released : ∀ i, st.hasBit i eBUF_STATUS_RELEASE = true →
    (st.users i).haveAllUsersReleased = .ok
  producers : ∀ i, st.hasBit i eBUF_STATUS_PRODUCERS_RELEASE = true →
    (st.users i).haveAllProducerUsersReleased = .ok

/-- An edit of the users of an item takes no answer `OK` back. -/
theorem UsersEdit.haveAllUsersReleased {f : UsersManager → UsersManager} (hf : UsersEdit f)
    {m : UsersManager} (hm : m.Coherent) (hok : m.haveAllUsersReleased = .ok) :
    (f m).haveAllUsersReleased = .ok := by
  rw [UsersManager.haveAllUsersReleased_eq_ok_iff hm] at hok
  rw [UsersManager.haveAllUsersReleased_eq_ok_iff (hf.coherent m hm),
    (hf.same m hm).producers, (hf.same m hm).consumers]
  exact ⟨hok.1, hok.2.1,
    fun u hu => hf.released m hm u (hok.2.2 u ((hf.same m hm).hasRole.mp hu))⟩

theorem UsersEdit.haveAllProducerUsersReleased {f : UsersManager → UsersManager}
    (hf : UsersEdit f) {m : UsersManager} (hm : m.Coherent)
    (hok : m.haveAllProducerUsersReleased = .ok) :
    (f m).haveAllProducerUsersReleased = .ok := by
  rw [UsersManager.haveAllProducerUsersReleased_eq_ok_iff hm] at hok
  rw [UsersManager.haveAllProducerUsersReleased_eq_ok_iff (hf.coherent m hm),
    (hf.same m hm).producers]
  exact ⟨hok.1, fun u hu => hf.released m hm u (hok.2 u hu)⟩

namespace Store.Step

theorem usersInvariant (hstep : Store.Step cfg is st st') (h : UsersInvariant cfg st) :
    UsersInvariant cfg st' := by
  cases hstep with
  | takeSnapshot c =>
    exact ⟨fun j => by simpa using h.coherent j, fun j => by simpa using h.same j,
      fun j => by simpa using h.released j, fun j => by simpa using h.producers j⟩
  | producersReleased i _ hitem hok =>
    refine ⟨fun j => by simpa using h.coherent j, fun j => by simpa using h.same j,
      fun j hbit => ?_, fun j hbit => ?_⟩
    · rw [Store.hasBit_handleProducersReleased] at hbit
      rw [Store.users_handleProducersReleased]
      exact h.released j (by
        simpa [eBUF_STATUS_RELEASE, eBUF_STATUS_PRODUCERS_RELEASE] using hbit)
    · rw [Store.hasBit_handleProducersReleased, Bool.or_eq_true] at hbit
      rw [Store.users_handleProducersReleased]
      rcases hbit with hbit | hbit
      · exact h.producers j hbit
      · obtain rfl : j = i := by simpa using hbit
        exact hok
  | allUsersReleased i _ hitem hok =>
    refine ⟨fun j => by simpa using h.coherent j, fun j => by simpa using h.same j,
      fun j hbit => ?_, fun j hbit => ?_⟩
    · rw [Store.hasBit_handleAllUsersReleased, Bool.or_eq_true] at hbit
      rw [Store.users_handleAllUsersReleased]
      rcases hbit with hbit | hbit
      · exact h.released j hbit
      · obtain rfl : j = i := by simpa using hbit
        exact hok
    · rw [Store.hasBit_handleAllUsersReleased] at hbit
      rw [Store.users_handleAllUsersReleased]
      exact h.producers j (by
        simpa [eBUF_STATUS_RELEASE, eBUF_STATUS_PRODUCERS_RELEASE] using hbit)
  | editUsers i f hf =>
    refine ⟨fun j => ?_, fun j => ?_, fun j hbit => ?_, fun j hbit => ?_⟩
    all_goals rw [Store.users_editUsers]
    all_goals split
    · exact hf.coherent _ (h.coherent j)
    · exact h.coherent j
    · exact (h.same j).trans (hf.same _ (h.coherent j))
    · exact h.same j
    · exact hf.haveAllUsersReleased (h.coherent j) (h.released j (by simpa using hbit))
    · exact h.released j (by simpa using hbit)
    · exact hf.haveAllProducerUsersReleased (h.coherent j)
        (h.producers j (by simpa using hbit))
    · exact h.producers j (by simpa using hbit)
  | acquire i acquired hkind hentry hbit =>
    refine ⟨fun j => by simpa using h.coherent j, fun j => by simpa using h.same j,
      fun j hbit' => ?_, fun j hbit' => ?_⟩
    · rw [st.hasBit_acquireItem_of_release i j acquired (.inl rfl)] at hbit'
      simpa using h.released j hbit'
    · rw [st.hasBit_acquireItem_of_release i j acquired (.inr rfl)] at hbit'
      simpa using h.producers j hbit'
  | call => exact ⟨h.coherent, h.same, h.released, h.producers⟩
  | returned => exact ⟨h.coherent, h.same, h.released, h.producers⟩

end Store.Step

/-! ### Item maps -/

namespace FrameConfig

variable (cfg)

def keys (kind : MapKind) : List StreamId := (cfg.store.itemMap kind).mMap.keys

theorem nodup_keys (kind : MapKind) : (cfg.keys kind).Nodup := KeyedVector.nodup_keys _

theorem mem_keys_iff (kind : MapKind) (s : StreamId) :
    s ∈ cfg.keys kind ↔ cfg.HasItem (kind, s) := by
  rw [keys, KeyedVector.mem_keys_iff, HasItem, cfg.holds_store.entry]
  split_ifs with h <;> simp [h]

end FrameConfig

/-- An item is in its map until all its users have been found released. -/
structure MapInvariant (cfg : FrameConfig) (st : Store) : Prop where
  entry : ∀ kind s, (st.itemMap kind).mMap.find? s =
    if s ∈ cfg.keys kind then
      some (if st.hasBit (kind, s) eBUF_STATUS_RELEASE then none else some (kind, s))
    else none
  keys : ∀ kind, (st.itemMap kind).mMap.keys = cfg.keys kind
  num : ∀ kind, (st.itemMap kind).mNonReleasedNum +
    (cfg.keys kind).countP (fun s => st.hasBit (kind, s) eBUF_STATUS_RELEASE) =
      (cfg.buffers kind).length
  hasItem : ∀ i, st.hasBit i eBUF_STATUS_RELEASE = true → cfg.HasItem i

theorem MapInvariant.congr (h : MapInvariant cfg st) (hmap : st'.itemMap = st.itemMap)
    (hbit : ∀ i, st'.hasBit i eBUF_STATUS_RELEASE = st.hasBit i eBUF_STATUS_RELEASE) :
    MapInvariant cfg st' := by
  refine ⟨fun kind s => ?_, fun kind => ?_, fun kind => ?_, fun i hi => ?_⟩
  · rw [hmap, hbit, h.entry]
  · rw [hmap, h.keys]
  · simp only [hmap, hbit, h.num]
  · exact h.hasItem i (hbit i ▸ hi)

theorem MapInvariant.handleAllUsersReleased (h : MapInvariant cfg st) (hi : cfg.HasItem i) :
    MapInvariant cfg (st.handleAllUsersReleased i) := by
  have hbits := fun j => st.hasBit_handleAllUsersReleased i j eBUF_STATUS_RELEASE
  simp only [decide_true, Bool.and_true] at hbits
  have hmap := st.itemMap_handleAllUsersReleased i
  cases hbit : st.hasBit i eBUF_STATUS_RELEASE with
  | true =>
    refine h.congr ?_ fun j => ?_
    · rw [hmap, hbit]
      simp
    · rw [hbits]
      by_cases hji : j = i <;> simp [hji, hbit]
  | false =>
    have hkey : i.2 ∈ cfg.keys i.1 := (cfg.mem_keys_iff _ _).mpr hi
    have hentry : (st.itemMap i.1).mMap.find? i.2 = some (some i) := by
      rw [h.entry, if_pos hkey, hbit]
      rfl
    rw [hbit, hentry] at hmap
    simp only [Option.join_some, Option.isSome_some, and_self, if_true] at hmap
    refine ⟨fun kind s => ?_, fun kind => ?_, fun kind => ?_, fun j hj => ?_⟩
    · rw [hmap, hbits]
      by_cases hk : kind = i.1
      · subst hk
        rw [Function.update_self]
        by_cases hs : s = i.2
        · subst hs
          simp [hentry, hkey]
        · rw [KeyedVector.find?_modify_of_ne _ _ hs, h.entry]
          have hne : (i.1, s) ≠ i := fun heq => hs (by rw [← heq])
          simp [hne]
      · have hne : (kind, s) ≠ i := fun heq => hk (by rw [← heq])
        rw [Function.update_of_ne hk, h.entry]
        simp [hne]
    · rw [hmap]
      by_cases hk : kind = i.1
      · subst hk
        rw [Function.update_self, KeyedVector.keys_modify, h.keys]
      · rw [Function.update_of_ne hk, h.keys]
    · rw [hmap]
      by_cases hk : kind = i.1
      · subst hk
        have hcount := countP_eq_countP_add_one (cfg.nodup_keys i.1) hkey
          (p := fun s => (st.handleAllUsersReleased i).hasBit (i.1, s) eBUF_STATUS_RELEASE)
          (q := fun s => st.hasBit (i.1, s) eBUF_STATUS_RELEASE)
          (by simp [hbits]) hbit fun s _ hs => by
            have hne : (i.1, s) ≠ i := fun heq => hs (by rw [← heq])
            simp [hbits, hne]
        have hnum := h.num i.1
        rw [Function.update_self, hcount]
        push_cast
        omega
      · rw [Function.update_of_ne hk, ← h.num kind]
        congr 2
        refine List.countP_congr fun s _ => ?_
        have hne : (kind, s) ≠ i := fun heq => hk (by rw [← heq])
        simp [hbits, hne]
    · rw [hbits, Bool.or_eq_true] at hj
      rcases hj with hj | hj
      · exact h.hasItem j hj
      · obtain rfl : j = i := by simpa using hj
        exact hi

theorem Store.Step.mapInvariant (hstep : Store.Step cfg is st st') (h : MapInvariant cfg st) :
    MapInvariant cfg st' := by
  cases hstep with
  | takeSnapshot c => exact h.congr (by simp) (by simp)
  | producersReleased i _ hitem hok =>
    refine h.congr (by simp) fun j => ?_
    rw [Store.hasBit_handleProducersReleased]
    simp [eBUF_STATUS_RELEASE, eBUF_STATUS_PRODUCERS_RELEASE]
  | allUsersReleased i _ hitem hok => exact h.handleAllUsersReleased hitem
  | editUsers i f hf => exact h.congr rfl (by simp)
  | acquire i acquired hkind hentry hbit =>
    exact h.congr rfl fun j => st.hasBit_acquireItem_of_release i j acquired (.inl rfl)
  | call => exact h.congr rfl fun _ => rfl
  | returned => exact h.congr rfl fun _ => rfl

/-! ### Buffers -/

/-- A buffer belongs to its item, is there exactly when it has been acquired, and only HAL
images acquire one after the configuration. -/
structure BufferInvariant (cfg : FrameConfig) (st : Store) : Prop where
  tagged : ∀ i b, (st.items i).mBuffer = some b → b.item = i
  acquired : ∀ i, st.hasBit i eBUF_STATUS_ACQUIRE = (st.items i).mBuffer.isSome
  configured : ∀ i, i.1 ≠ .halImage → (st.items i).mBuffer = (cfg.store.items i).mBuffer

theorem BufferInvariant.congr (h : BufferInvariant cfg st)
    (hbuffer : ∀ i, (st'.items i).mBuffer = (st.items i).mBuffer)
    (hbit : ∀ i, st'.hasBit i eBUF_STATUS_ACQUIRE = st.hasBit i eBUF_STATUS_ACQUIRE) :
    BufferInvariant cfg st' :=
  ⟨fun i b hb => h.tagged i b (hbuffer i ▸ hb), fun i => by rw [hbit, hbuffer, h.acquired],
    fun i hi => by rw [hbuffer, h.configured i hi]⟩

theorem Store.Step.bufferInvariant (hstep : Store.Step cfg is st st')
    (h : BufferInvariant cfg st) : BufferInvariant cfg st' := by
  cases hstep with
  | takeSnapshot c => exact h.congr (by simp) (by simp)
  | producersReleased i _ hitem hok =>
    refine h.congr (by simp) fun j => ?_
    rw [Store.hasBit_handleProducersReleased]
    simp [eBUF_STATUS_ACQUIRE, eBUF_STATUS_PRODUCERS_RELEASE]
  | allUsersReleased i _ hitem hok =>
    refine h.congr (by simp) fun j => ?_
    rw [Store.hasBit_handleAllUsersReleased]
    simp [eBUF_STATUS_ACQUIRE, eBUF_STATUS_RELEASE]
  | editUsers i f hf => exact h.congr (by simp) (by simp)
  | acquire i acquired hkind hentry hbit =>
    refine ⟨fun j b hb => ?_, fun j => ?_, fun j hj => ?_⟩
    · rw [Store.mBuffer_acquireItem] at hb
      split at hb
      · rename_i hji
        obtain ⟨handle, -, rfl⟩ := Option.map_eq_some_iff.mp hb
        exact hji.symm
      · exact h.tagged j b hb
    · rw [Store.mBuffer_acquireItem, Store.hasBit_acquireItem]
      by_cases hji : j = i
      · subst hji
        cases acquired <;>
          simp [eBUF_STATUS_ACQUIRE, eBUF_STATUS_ACQUIRE_FAILED]
        exact hbit
      · simp [hji, h.acquired]
    · have hji : j ≠ i := fun heq => hj (heq ▸ hkind)
      rw [Store.mBuffer_acquireItem, if_neg hji, h.configured j hj]
  | call => exact h.congr (fun _ => rfl) fun _ => rfl
  | returned => exact h.congr (fun _ => rfl) fun _ => rfl

end MtkHardware.Pipeline
