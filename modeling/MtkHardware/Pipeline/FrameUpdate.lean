import MtkHardware.Pipeline.FrameInit

/-!
# The Update of a Node

What `NodeStatusUpdater::run` does, said once: it handles released items one at a time,
other calls may take their snapshots in between, and in the end every item that the node
has released is out of its IO sets, and every item found released is marked.
-/

namespace MtkHardware.Pipeline

/-! ### Single steps -/

namespace Store

variable {st : Store} {i j : ItemId} {n : ℕ} {c : ℕ}

def hasBit (st : Store) (i : ItemId) (n : ℕ) : Bool := (st.items i).mBitStatus.hasBit n

def users (st : Store) (i : ItemId) : UsersManager := (st.items i).mUsersManager

def Released (st : Store) (i : ItemId) (u : UserId) : Prop :=
  UserStatus.Released ((st.users i).getUserStatus u)

instance (st : Store) (i : ItemId) (u : UserId) : Decidable (st.Released i u) :=
  inferInstanceAs (Decidable (UserStatus.Released _))

@[simp] theorem items_takeSnapshot (st : Store) (c : ℕ) :
    (st.takeSnapshot c).items = st.items := by
  unfold takeSnapshot
  split
  · rfl
  · split <;> rfl

@[simp] theorem itemMap_takeSnapshot (st : Store) (c : ℕ) :
    (st.takeSnapshot c).itemMap = st.itemMap := by
  unfold takeSnapshot
  split
  · rfl
  · split <;> rfl

@[simp] theorem users_takeSnapshot (st : Store) (c : ℕ) (j : ItemId) :
    (st.takeSnapshot c).users j = st.users j := by
  rw [users, users, items_takeSnapshot]

@[simp] theorem hasBit_takeSnapshot (st : Store) (c : ℕ) (j : ItemId) (n : ℕ) :
    (st.takeSnapshot c).hasBit j n = st.hasBit j n := by
  rw [hasBit, hasBit, items_takeSnapshot]

theorem items_onAllUsersReleased (st : Store) (i : ItemId) :
    (st.onAllUsersReleased i).items = st.items := by
  unfold onAllUsersReleased
  split <;> rfl

theorem items_handleAllUsersReleased (st : Store) (i : ItemId) :
    (st.handleAllUsersReleased i).items =
      if st.hasBit i eBUF_STATUS_RELEASE then st.items
      else Function.update st.items i { st.items i with
        mBitStatus := (st.items i).mBitStatus.markBit eBUF_STATUS_RELEASE } := by
  unfold handleAllUsersReleased hasBit
  split
  · rfl
  · rw [items_onAllUsersReleased]
    rfl

theorem items_handleProducersReleased (st : Store) (i : ItemId) :
    (st.handleProducersReleased i).items =
      if st.hasBit i eBUF_STATUS_PRODUCERS_RELEASE then st.items
      else Function.update st.items i { st.items i with
        mBitStatus := (st.items i).mBitStatus.markBit eBUF_STATUS_PRODUCERS_RELEASE } := by
  unfold handleProducersReleased hasBit
  split <;> rfl

theorem marked_items {items' : ItemId → Item} {b : ℕ} (hb : b < 32)
    (h : items' = if st.hasBit i b then st.items else Function.update st.items i
      { st.items i with mBitStatus := (st.items i).mBitStatus.markBit b }) (j : ItemId) :
    (items' j).mUsersManager = (st.items j).mUsersManager ∧
      (items' j).mBuffer = (st.items j).mBuffer ∧
      ∀ n, (items' j).mBitStatus.hasBit n =
        (st.hasBit j n || (decide (j = i) && decide (n = b))) := by
  subst h
  by_cases hbit : st.hasBit i b = true
  · rw [if_pos hbit]
    refine ⟨rfl, rfl, fun n => ?_⟩
    by_cases hji : j = i
    · by_cases hn : n = b
      · subst hji hn
        rw [hbit]
        simpa [hasBit] using hbit
      · simp [hn, hasBit]
    · simp [hji, hasBit]
  · rw [if_neg hbit]
    by_cases hji : j = i
    · subst hji
      simp only [Function.update_self, true_and, decide_true, Bool.true_and]
      intro n
      rw [BitSet32.hasBit_markBit, hasBit]
      by_cases hn : n = b <;> simp [hn, hb]
    · simp [hji, hasBit]

@[simp] theorem users_handleAllUsersReleased (st : Store) (i j : ItemId) :
    (st.handleAllUsersReleased i).users j = st.users j :=
  (marked_items (by decide) (st.items_handleAllUsersReleased i) j).1

@[simp] theorem mBuffer_handleAllUsersReleased (st : Store) (i j : ItemId) :
    ((st.handleAllUsersReleased i).items j).mBuffer = (st.items j).mBuffer :=
  (marked_items (by decide) (st.items_handleAllUsersReleased i) j).2.1

theorem hasBit_handleAllUsersReleased (st : Store) (i j : ItemId) (n : ℕ) :
    (st.handleAllUsersReleased i).hasBit j n =
      (st.hasBit j n || (decide (j = i) && decide (n = eBUF_STATUS_RELEASE))) :=
  (marked_items (by decide) (st.items_handleAllUsersReleased i) j).2.2 n

@[simp] theorem users_handleProducersReleased (st : Store) (i j : ItemId) :
    (st.handleProducersReleased i).users j = st.users j :=
  (marked_items (by decide) (st.items_handleProducersReleased i) j).1

@[simp] theorem mBuffer_handleProducersReleased (st : Store) (i j : ItemId) :
    ((st.handleProducersReleased i).items j).mBuffer = (st.items j).mBuffer :=
  (marked_items (by decide) (st.items_handleProducersReleased i) j).2.1

theorem hasBit_handleProducersReleased (st : Store) (i j : ItemId) (n : ℕ) :
    (st.handleProducersReleased i).hasBit j n =
      (st.hasBit j n || (decide (j = i) && decide (n = eBUF_STATUS_PRODUCERS_RELEASE))) :=
  (marked_items (by decide) (st.items_handleProducersReleased i) j).2.2 n

end Store

/-! ### The update rule -/

/-- A property of stores that every single step of an update by node `n` over the items
`is` preserves. -/
structure UpdateInvariant (n : NodeId) (is : List ItemId) (P : Store → Prop) : Prop where
  takeSnapshot : ∀ st c, P st → P (st.takeSnapshot c)
  producers : ∀ st i, i ∈ is → P st →
    (st.users i).haveAllProducerUsersReleased = .ok → P (st.handleProducersReleased i)
  all : ∀ st i, i ∈ is → P st → st.Released i n →
    (st.users i).haveAllUsersReleased = .ok → P (st.handleAllUsersReleased i)

/-- **What an update does** to the store: it keeps every update invariant, and it marks
every item that it finds released. -/
structure Updated (n : NodeId) (is : List ItemId) (st st' : Store) : Prop where
  invariant : ∀ P, UpdateInvariant n is P → P st → P st'
  producersReleased : ∀ i ∈ is, (st.users i).haveAllProducerUsersReleased = .ok →
    st'.hasBit i eBUF_STATUS_PRODUCERS_RELEASE = true
  allReleased : ∀ i ∈ is, st.Released i n → (st.users i).haveAllUsersReleased = .ok →
    st'.hasBit i eBUF_STATUS_RELEASE = true

namespace Updated

variable {n : NodeId} {is is₁ is₂ : List ItemId} {st st₁ st' : Store} {i : ItemId}

theorem mono {P : Store → Prop} (hP : UpdateInvariant n is P) (hsub : ∀ i ∈ is₁, i ∈ is) :
    UpdateInvariant n is₁ P :=
  ⟨hP.takeSnapshot, fun st i hi => hP.producers st i (hsub i hi),
    fun st i hi => hP.all st i (hsub i hi)⟩

theorem sameItems (h : Updated n is st st') (j : ItemId) :
    st'.users j = st.users j ∧ (st'.items j).mBuffer = (st.items j).mBuffer :=
  h.invariant (fun s => s.users j = st.users j ∧ (s.items j).mBuffer = (st.items j).mBuffer)
    ⟨fun s c hs => by simpa using hs, fun s i _ hs _ => by simpa using hs,
      fun s i _ hs _ _ => by simpa using hs⟩ ⟨rfl, rfl⟩

theorem users_eq (h : Updated n is st st') (j : ItemId) : st'.users j = st.users j :=
  (h.sameItems j).1

theorem hasBit_mono (h : Updated n is st st') {b : ℕ} (hb : st.hasBit i b = true) :
    st'.hasBit i b = true :=
  h.invariant (fun s => s.hasBit i b = true)
    ⟨fun s c hs => by simpa using hs,
      fun s j _ hs _ => by rw [Store.hasBit_handleProducersReleased, hs, Bool.true_or],
      fun s j _ hs _ _ => by rw [Store.hasBit_handleAllUsersReleased, hs, Bool.true_or]⟩ hb

theorem of_hasBit_release (h : Updated n is st st')
    (hbit : st'.hasBit i eBUF_STATUS_RELEASE = true) :
    st.hasBit i eBUF_STATUS_RELEASE = true ∨
      i ∈ is ∧ st.Released i n ∧ (st.users i).haveAllUsersReleased = .ok := by
  have hinv := h.invariant (fun s => (∀ j, s.users j = st.users j) ∧
      (s.hasBit i eBUF_STATUS_RELEASE = true → st.hasBit i eBUF_STATUS_RELEASE = true ∨
        i ∈ is ∧ st.Released i n ∧ (st.users i).haveAllUsersReleased = .ok))
    ⟨fun s c hs => by simpa using hs, fun s j _ hs _ => ?_, fun s j hj hs hrel hall => ?_⟩
    ⟨fun _ => rfl, fun hb => .inl hb⟩
  · exact hinv.2 hbit
  · refine ⟨fun k => by simpa using hs.1 k, fun hb => hs.2 ?_⟩
    rw [Store.hasBit_handleProducersReleased] at hb
    simpa [eBUF_STATUS_RELEASE, eBUF_STATUS_PRODUCERS_RELEASE] using hb
  · refine ⟨fun k => by simpa using hs.1 k, fun hb => ?_⟩
    rw [Store.hasBit_handleAllUsersReleased, Bool.or_eq_true] at hb
    rcases hb with hb | hb
    · exact hs.2 hb
    · obtain rfl : i = j := by simpa using hb
      rw [Store.Released, hs.1] at hrel
      exact .inr ⟨hj, hrel, hs.1 i ▸ hall⟩

theorem of_hasBit_producers (h : Updated n is st st')
    (hbit : st'.hasBit i eBUF_STATUS_PRODUCERS_RELEASE = true) :
    st.hasBit i eBUF_STATUS_PRODUCERS_RELEASE = true ∨
      i ∈ is ∧ (st.users i).haveAllProducerUsersReleased = .ok := by
  have hinv := h.invariant (fun s => (∀ j, s.users j = st.users j) ∧
      (s.hasBit i eBUF_STATUS_PRODUCERS_RELEASE = true →
        st.hasBit i eBUF_STATUS_PRODUCERS_RELEASE = true ∨
        i ∈ is ∧ (st.users i).haveAllProducerUsersReleased = .ok))
    ⟨fun s c hs => by simpa using hs, fun s j hj hs hprod => ?_, fun s j _ hs _ _ => ?_⟩
    ⟨fun _ => rfl, fun hb => .inl hb⟩
  · exact hinv.2 hbit
  · refine ⟨fun k => by simpa using hs.1 k, fun hb => ?_⟩
    rw [Store.hasBit_handleProducersReleased, Bool.or_eq_true] at hb
    rcases hb with hb | hb
    · exact hs.2 hb
    · obtain rfl : i = j := by simpa using hb
      exact .inr ⟨hj, hs.1 i ▸ hprod⟩
  · refine ⟨fun k => by simpa using hs.1 k, fun hb => hs.2 ?_⟩
    rw [Store.hasBit_handleAllUsersReleased] at hb
    simpa [eBUF_STATUS_RELEASE, eBUF_STATUS_PRODUCERS_RELEASE] using hb

theorem nil : Updated n [] st st := ⟨fun _ _ h => h, by simp, by simp⟩

theorem append (h₁ : Updated n is₁ st st₁) (h₂ : Updated n is₂ st₁ st') :
    Updated n (is₁ ++ is₂) st st' where
  invariant P hP h :=
    h₂.invariant P (mono hP fun _ hi => List.mem_append_right _ hi)
      (h₁.invariant P (mono hP fun _ hi => List.mem_append_left _ hi) h)
  producersReleased i hi hprod := by
    rcases List.mem_append.mp hi with hi | hi
    · exact h₂.hasBit_mono (h₁.producersReleased i hi hprod)
    · exact h₂.producersReleased i hi (h₁.users_eq i ▸ hprod)
  allReleased i hi hrel hall := by
    rcases List.mem_append.mp hi with hi | hi
    · exact h₂.hasBit_mono (h₁.allReleased i hi hrel hall)
    · refine h₂.allReleased i hi ?_ (h₁.users_eq i ▸ hall)
      rwa [Store.Released, h₁.users_eq]

end Updated

namespace NodeStatusUpdater

variable {n : NodeId} {is : List ItemId} {st : Store} {i : ItemId}

theorem takeSnapshots_invariant {P : Store → Prop}
    (hP : ∀ st c, P st → P (st.takeSnapshot c)) (cs : List ℕ) (h : P st) :
    P (cs.foldl Store.takeSnapshot st) := by
  induction cs generalizing st with
  | nil => exact h
  | cons c cs ih => exact ih (hP st c h)

theorem users_takeSnapshots (cs : List ℕ) (j : ItemId) :
    (cs.foldl Store.takeSnapshot st).users j = st.users j :=
  takeSnapshots_invariant (P := fun s => s.users j = st.users j)
    (fun s c hs => by simpa using hs) cs rfl

theorem hasBit_takeSnapshots (cs : List ℕ) (j : ItemId) (b : ℕ) :
    (cs.foldl Store.takeSnapshot st).hasBit j b = st.hasBit j b :=
  takeSnapshots_invariant (P := fun s => s.hasBit j b = st.hasBit j b)
    (fun s c hs => by simpa using hs) cs rfl

/-- The first half of a visit: the producers of the item. -/
def visitProducers (i : ItemId) (cs : List ℕ) (st : Store) : Store :=
  let st := cs.foldl Store.takeSnapshot st
  if (st.users i).haveAllProducerUsersReleased = .ok then st.handleProducersReleased i else st

def visitUsers (n : NodeId) (i : ItemId) (cs : List ℕ) (st : Store) : Store :=
  if st.Released i n then
    let st := cs.foldl Store.takeSnapshot st
    if (st.users i).haveAllUsersReleased = .ok then st.handleAllUsersReleased i else st
  else st

@[simp] theorem users_visitProducers (cs : List ℕ) (j : ItemId) :
    (visitProducers i cs st).users j = st.users j := by
  unfold visitProducers
  dsimp only
  split
  · rw [Store.users_handleProducersReleased, users_takeSnapshots]
  · rw [users_takeSnapshots]

theorem updated_visit (n : NodeId) (i : ItemId) (st : Store) (now : List ℕ × List ℕ) :
    Updated n [i] st (visitUsers n i now.2 (visitProducers i now.1 st)) where
  invariant P hP h := by
    have h₁ : P (visitProducers i now.1 st) := by
      have hsnap := takeSnapshots_invariant hP.takeSnapshot now.1 h
      unfold visitProducers
      dsimp only
      split
      · rename_i hprod
        exact hP.producers _ i List.mem_cons_self hsnap hprod
      · exact hsnap
    unfold visitUsers
    split
    · rename_i hrel
      have hsnap := takeSnapshots_invariant hP.takeSnapshot now.2 h₁
      dsimp only
      split
      · rename_i hall
        refine hP.all _ i List.mem_cons_self hsnap ?_ hall
        rwa [Store.Released, users_takeSnapshots]
      · exact hsnap
    · exact h₁
  producersReleased j hj hprod := by
    obtain rfl : j = i := by simpa using hj
    have hbit : (visitProducers j now.1 st).hasBit j eBUF_STATUS_PRODUCERS_RELEASE = true := by
      unfold visitProducers
      dsimp only
      rw [if_pos (by rwa [users_takeSnapshots]), Store.hasBit_handleProducersReleased]
      simp
    unfold visitUsers
    split
    · dsimp only
      split
      · rw [Store.hasBit_handleAllUsersReleased, hasBit_takeSnapshots, hbit, Bool.true_or]
      · rw [hasBit_takeSnapshots, hbit]
    · exact hbit
  allReleased j hj hrel hall := by
    obtain rfl : j = i := by simpa using hj
    have hrel' : (visitProducers j now.1 st).Released j n := by
      rwa [Store.Released, users_visitProducers]
    unfold visitUsers
    rw [if_pos hrel']
    dsimp only
    rw [if_pos (by rwa [users_takeSnapshots, users_visitProducers]),
      Store.hasBit_handleAllUsersReleased]
    simp

theorem updateItems_cons (preemption : Preemption) :
    updateItems n (i :: is) preemption st =
      let now := preemption.headD ([], [])
      let rest := updateItems n is preemption.tail
        (visitUsers n i now.2 (visitProducers i now.1 st))
      (rest.1, if st.Released i n then rest.2 else i :: rest.2) := by
  have hrel : (visitProducers i (preemption.headD ([], [])).1 st).Released i n ↔
      st.Released i n := by
    rw [Store.Released, users_visitProducers]
    rfl
  rw [updateItems]
  by_cases h : st.Released i n
  · have h' := hrel.mpr h
    simp only [visitUsers, if_pos h, if_pos h']
    exact if_neg h'
  · have h' := mt hrel.mp h
    simp only [visitUsers, if_neg h, if_neg h']
    exact if_pos (not_not.mp h')

/-- **The loop** of `updateNodeStatus`. -/
theorem updated_updateItems (n : NodeId) (is : List ItemId) (st : Store)
    (preemption : Preemption) :
    Updated n is st (updateItems n is preemption st).1 ∧
      (updateItems n is preemption st).2 = is.filter fun i => !decide (st.Released i n) := by
  induction is generalizing st preemption with
  | nil => exact ⟨.nil, rfl⟩
  | cons i is ih =>
    have hvisit := updated_visit n i st (preemption.headD ([], []))
    obtain ⟨hrest, hkept⟩ := ih (visitUsers n i (preemption.headD ([], [])).2
      (visitProducers i (preemption.headD ([], [])).1 st)) preemption.tail
    rw [updateItems_cons]
    refine ⟨hvisit.append hrest, ?_⟩
    have hsame : ∀ j, (visitUsers n i (preemption.headD ([], [])).2
        (visitProducers i (preemption.headD ([], [])).1 st)).Released j n ↔
        st.Released j n := fun j => by
      rw [Store.Released, hvisit.users_eq]
      rfl
    simp only [hsame] at hkept
    dsimp only
    rw [hkept, List.filter_cons]
    by_cases h : st.Released i n
    · rw [if_pos h, if_neg (by simp [h])]
    · rw [if_neg h, if_pos (by simp [h])]

end NodeStatusUpdater

/-! ### The whole update -/

/-- An IO set after its node has **released** some of its items. -/
def IOSet.release (ioSet : IOSet) (p : ItemId → Prop) [DecidablePred p] : IOSet where
  items := ioSet.items.filter fun i => !decide (p i)
  mNotified := ioSet.mNotified || (ioSet.items.filter fun i => !decide (p i)).isEmpty

def IOSet.isNew (ioSet : IOSet) (p : ItemId → Prop) [DecidablePred p] : Bool :=
  !ioSet.mNotified && (ioSet.items.filter fun i => !decide (p i)).isEmpty

/-- The IO sets of a node after it has released some of its items. -/
def NodeStatus.release (status : NodeStatus) (p : ItemId → Prop) [DecidablePred p] :
    NodeStatus :=
  ⟨status.mISetImage.release p, status.mOSetImage.release p, status.mISetMeta.release p,
    status.mOSetMeta.release p⟩

def NodeStatus.isAnyUpdate (status : NodeStatus) (p : ItemId → Prop) [DecidablePred p] :
    Bool :=
  status.mOSetImage.isNew p || status.mISetImage.isNew p || status.mOSetMeta.isNew p ||
    status.mISetMeta.isNew p

def IOSet.Sound (ioSet : IOSet) : Prop := ioSet.mNotified = true → ioSet.items = []

structure NodeStatus.Sound (status : NodeStatus) : Prop where
  iImage : status.mISetImage.Sound
  oImage : status.mOSetImage.Sound
  iMeta : status.mISetMeta.Sound
  oMeta : status.mOSetMeta.Sound

namespace NodeStatusUpdater

variable {n : NodeId} {is : List ItemId} {st : Store} {i : ItemId}

theorem updateNodeStatus_spec {ioSet : IOSet} (hsound : ioSet.Sound)
    (preemption : Preemption) {p : ItemId → Prop} [DecidablePred p]
    (hp : ∀ i, st.Released i n ↔ p i) :
    Updated n ioSet.items st (updateNodeStatus n ioSet preemption st).1 ∧
      (updateNodeStatus n ioSet preemption st).2 = (ioSet.release p, ioSet.isNew p) := by
  rw [updateNodeStatus]
  by_cases hnot : ioSet.mNotified = true
  · rw [if_pos hnot]
    have hempty := hsound hnot
    refine ⟨hempty ▸ .nil, ?_⟩
    obtain ⟨items, mNotified⟩ := ioSet
    simp_all [IOSet.release, IOSet.isNew]
  · rw [if_neg hnot]
    obtain ⟨hupd, hkept⟩ := updated_updateItems n ioSet.items st preemption
    simp only [hp] at hkept
    rw [Bool.not_eq_true] at hnot
    dsimp only
    rw [hkept, IOSet.release, IOSet.isNew, hnot]
    split
    · rename_i hempty
      exact ⟨hupd, by simp only [hempty, Bool.or_true, Bool.not_false, Bool.and_self]⟩
    · rename_i hempty
      rw [Bool.not_eq_true] at hempty
      exact ⟨hupd, by simp only [hempty, Bool.or_false, Bool.and_false]⟩

/-- **The update of a node**: an update of the store over the items of the node, and the
node's sets without the items that it has released. -/
theorem run_spec {map : NodeStatusMap} {status : NodeStatus} {p : ItemId → Prop}
    [DecidablePred p] (updated : BitSet32) (hfind : map.nodes.find? n = some status)
    (hsound : status.Sound) (preemption : Preemption) (hp : ∀ i, st.Released i n ↔ p i) :
    Updated n status.items st (run n map updated preemption st).store ∧
      (run n map updated preemption st).nodeStatusMap =
        { nodes := map.nodes.modify n fun _ => status.release p
          mInFlightNodeCount :=
            if status.isAnyUpdate p && (status.release p).items.isEmpty then
              map.mInFlightNodeCount - 1
            else map.mInFlightNodeCount } ∧
      (run n map updated preemption st).isAnyUpdate = status.isAnyUpdate p ∧
      ∀ b, (run n map updated preemption st).nodeStatusUpdated.hasBit b =
        (updated.hasBit b ||
          (status.mOSetImage.isNew p && decide (b = eMSG_ALL_OUT_IMAGE_BUFFERS_RELEASED)) ||
          (status.mOSetMeta.isNew p && decide (b = eMSG_ALL_OUT_META_BUFFERS_RELEASED))) := by
  -- each set is updated in a store that still has the users of the first one
  have hnext : ∀ {is : List ItemId} {st' : Store}, Updated n is st st' →
      ∀ i, st'.Released i n ↔ p i := fun h i => by
    rw [Store.Released, h.users_eq]
    exact hp i
  obtain ⟨h₁, e₁⟩ := updateNodeStatus_spec hsound.oImage preemption hp
  obtain ⟨h₂, e₂⟩ := updateNodeStatus_spec hsound.iImage
    (preemption.drop status.mOSetImage.items.length) (hnext h₁)
  obtain ⟨h₃, e₃⟩ := updateNodeStatus_spec hsound.oMeta
    ((preemption.drop status.mOSetImage.items.length).drop status.mISetImage.items.length)
    (hnext (h₁.append h₂))
  obtain ⟨h₄, e₄⟩ := updateNodeStatus_spec hsound.iMeta
    (((preemption.drop status.mOSetImage.items.length).drop
      status.mISetImage.items.length).drop status.mOSetMeta.items.length)
    (hnext ((h₁.append h₂).append h₃))
  have hrun := ((h₁.append h₂).append h₃).append h₄
  rw [run]
  simp only [hfind]
  simp only [e₁, e₂, e₃, e₄]
  refine ⟨hrun, ?_, rfl, fun b => ?_⟩
  · simp only [NodeStatus.release, NodeStatus.items, NodeStatus.isAnyUpdate,
      isEmpty_append, Bool.and_assoc]
  · rw [BitSet32.hasBit_ite_markBit _ (by decide), BitSet32.hasBit_ite_markBit _ (by decide)]

end NodeStatusUpdater

end MtkHardware.Pipeline
