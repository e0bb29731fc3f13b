import MtkHardware.Pipeline.UsersManager
import Mathlib.Data.Finset.Basic

/-!
# What the Users Manager Knows

A users manager counts statuses twice: in the status mask of each user, and in the bit
sets of the producer and consumer maps. `UsersManager.Coherent` says that the two agree.
It holds from the end of the user setup on, and from it the answers of the manager can
be read off the status masks alone.
-/

namespace MtkHardware.Pipeline

/-! ### Status bits -/

namespace UserStatus

/-- Does the mask have the `RELEASE` bit? -/
def Released (status : BitVec 32) : Prop := status &&& release ≠ 0

instance (status : BitVec 32) : Decidable (Released status) :=
  inferInstanceAs (Decidable (_ ≠ _))

theorem and_twoPow_ne_zero_iff {x : BitVec 32} {i : ℕ} (hi : i < 32) :
    x &&& BitVec.twoPow 32 i ≠ 0 ↔ x.getLsbD i = true := by
  rw [BitVec.and_twoPow]
  cases x.getLsbD i with
  | false => simp
  | true => simpa using BitSet32.twoPow_ne_zero hi

theorem and_twoPow_eq_iff {x : BitVec 32} {i : ℕ} (hi : i < 32) :
    x &&& BitVec.twoPow 32 i = BitVec.twoPow 32 i ↔ x.getLsbD i = true := by
  rw [BitVec.and_twoPow]
  cases x.getLsbD i with
  | false => simpa using (BitSet32.twoPow_ne_zero hi).symm
  | true => simp

theorem released_iff {status : BitVec 32} : Released status ↔ status.getLsbD 3 = true :=
  and_twoPow_ne_zero_iff (by decide)

/-- A mask keeps its `RELEASE` bit when bits are added to it. -/
theorem Released.or {status : BitVec 32} (h : Released status) (mask : BitVec 32) :
    Released (status ||| mask) := by
  rw [released_iff, BitVec.getLsbD_or, released_iff.mp h, Bool.true_or]

end UserStatus

/-! ### Coherence -/

/-- The bit set that counts the status of a bit position, if that status is counted. -/
def MyUserMap.bitSet (map : MyUserMap) : ℕ → Option BitSet32
  | 1 => some map.mBitSetPreReleased
  | 2 => some map.mBitSetUsed
  | 3 => some map.mBitSetReleased
  | 4 => some map.mBitSetReleasedStillUse
  | _ => none

def statusAt (heap : List MyUser) (p : UserPtr) : BitVec 32 :=
  (heap[p]?.map MyUser.mUserStatus).getD 0

/-- What the manager's statuses depend on in a user object: all but usage and fences. -/
def coreOf (usr : MyUser) : UserId × Category × ℕ × BitVec 32 :=
  (usr.mUserId, usr.mCategory, usr.mGroupIndex, usr.mUserStatus)

/-- A map **agrees** with the heap: each of its users is an object of that id and category, and
a bit of a bit set is set exactly when the user of that index has the status. -/
structure MyUserMap.Agrees (heap : List MyUser) (category : Category)
    (map : MyUserMap) : Prop where
  user : ∀ u p, map.users.find? u = some p → ∃ usr, heap[p]? = some usr ∧
    usr.mUserId = u ∧ usr.mCategory = category
  bits : ∀ i S, map.bitSet i = some S → ∀ k, S.hasBit k = true ↔
    k < 32 ∧ ∃ e, map.users.entries[k]? = some e ∧ (statusAt heap e.2).getLsbD i = true

/-- A map is **coherent** with the heap: each of its users is an object of that id and
category, and a bit of a bit set is set exactly when the user of that index has the
status. -/
structure MyUserMap.Coherent (heap : List MyUser) (category : Category)
    (map : MyUserMap) : Prop where
  user : ∀ u p, map.users.find? u = some p → ∃ usr, heap[p]? = some usr ∧
    usr.mUserId = u ∧ usr.mCategory = category ∧ usr.mGroupIndex = 0
  bits : ∀ i S, map.bitSet i = some S → ∀ k, S.hasBit k = true ↔
    k < 32 ∧ ∃ e, map.users.entries[k]? = some e ∧ (statusAt heap e.2).getLsbD i = true

/-- A manager whose setup is complete is **coherent**: so are both its maps, and no user
is a producer and a consumer at once. -/
structure UsersManager.Coherent (m : UsersManager) : Prop where
  init : m.mUserInit = true
  group : m.mUserGroupGraph.length = 1
  producer : m.mProducerMap.Coherent m.heap .producer
  consumer : m.mConsumerMap.Coherent m.heap .consumer
  disjoint : ∀ u, u ∈ m.mProducerMap.users.keys → u ∉ m.mConsumerMap.users.keys

theorem statusAt_congr {heap heap' : List MyUser} {p : UserPtr}
    (h : heap'[p]?.map coreOf = heap[p]?.map coreOf) :
    statusAt heap' p = statusAt heap p := by
  have hstatus := congrArg (Option.map fun c => c.2.2.2) h
  simp only [Option.map_map, Function.comp_def, coreOf] at hstatus
  exact congrArg (·.getD 0) hstatus

namespace MyUserMap

variable {heap heap' : List MyUser} {category : Category} {map : MyUserMap}
  {u v : UserId} {p q : UserPtr} {i : ℕ}

theorem users_markStatus (map : MyUserMap) (u : UserId) (b : BitVec 32) :
    (map.markStatus u b).users = map.users := by
  unfold markStatus
  split_ifs <;> rfl

theorem twoPow_injective {i j : ℕ} (hi : i < 32)
    (h : BitVec.twoPow 32 i = BitVec.twoPow 32 j) : i = j := by
  have hbit := congrArg (fun w => w.getLsbD i) h
  simp only [BitVec.getLsbD_twoPow, hi, decide_true, Bool.and_self] at hbit
  simp only [Bool.true_eq, Bool.and_eq_true, decide_eq_true_eq] at hbit
  exact hbit.2.symm

theorem bitSet_markStatus (map : MyUserMap) (u : UserId) {i : ℕ} (hi : i < 32) (j : ℕ) :
    (map.markStatus u (BitVec.twoPow 32 i)).bitSet j =
      if j = i then (map.bitSet j).map (·.markBit (map.indexOfKey u))
      else map.bitSet j := by
  have heq : ∀ k, BitVec.twoPow 32 i = BitVec.twoPow 32 k ↔ i = k :=
    fun k => ⟨twoPow_injective hi, fun h => h ▸ rfl⟩
  unfold markStatus
  simp only [UserStatus.used, UserStatus.release, UserStatus.preRelease,
    UserStatus.releaseStillUse, heq]
  by_cases h2 : i = 2
  · subst h2; rcases j with _ | _ | _ | _ | _ | j <;> simp [bitSet]
  by_cases h3 : i = 3
  · subst h3; rcases j with _ | _ | _ | _ | _ | j <;> simp [bitSet]
  by_cases h1 : i = 1
  · subst h1; rcases j with _ | _ | _ | _ | _ | j <;> simp [bitSet]
  by_cases h4 : i = 4
  · subst h4; rcases j with _ | _ | _ | _ | _ | j <;> simp [bitSet]
  simp only [h1, h2, h3, h4, if_false]
  split_ifs with hj
  · subst hj; rcases j with _ | _ | _ | _ | _ | j <;> simp_all [bitSet]
  · rfl

theorem entries_indexOfKey (h : map.users.find? u = some p) :
    map.users.entries[map.indexOfKey u]? = some (u, p) := by
  have hmem : u ∈ map.users.keys := KeyedVector.mem_keys_of_find? h
  have hkey : map.users.keys[map.indexOfKey u]? = some u := List.getElem?_idxOf hmem
  rw [KeyedVector.keys, List.getElem?_map, Option.map_eq_some_iff] at hkey
  obtain ⟨⟨u', q⟩, he, rfl⟩ := hkey
  have hq : map.users.find? u' = some q :=
    KeyedVector.find?_eq_some_iff.mpr (List.mem_of_getElem? he)
  rw [he, Option.some_inj.mp (hq.symm.trans h)]

namespace Agrees

theorem ptr_injective (h : map.Agrees heap category) (hu : map.users.find? u = some p)
    (hv : map.users.find? v = some p) : u = v := by
  obtain ⟨usr, hp, rfl, -⟩ := h.user u p hu
  obtain ⟨usr', hp', rfl, -⟩ := h.user v p hv
  rw [Option.some_inj.mp (hp.symm.trans hp')]

theorem congr (h : map.Agrees heap category)
    (hheap : ∀ u p, map.users.find? u = some p → heap'[p]?.map coreOf = heap[p]?.map coreOf) :
    map.Agrees heap' category where
  user u p hu := by
    obtain ⟨usr, hp, hid, hcat⟩ := h.user u p hu
    have hcore := hheap u p hu
    rw [hp, Option.map_some, Option.map_eq_some_iff] at hcore
    obtain ⟨usr', hp', heq⟩ := hcore
    simp only [coreOf, Prod.mk.injEq] at heq
    exact ⟨usr', hp', heq.1.trans hid, heq.2.1.trans hcat⟩
  bits i S hS k := by
    rw [h.bits i S hS k]
    have hstatus : ∀ e, map.users.entries[k]? = some e →
        statusAt heap e.2 = statusAt heap' e.2 := fun e he =>
      (statusAt_congr (hheap e.1 e.2
        (KeyedVector.find?_eq_some_iff.mpr (List.mem_of_getElem? he)))).symm
    constructor
    · rintro ⟨hk, e, he, hbit⟩
      exact ⟨hk, e, he, hstatus e he ▸ hbit⟩
    · rintro ⟨hk, e, he, hbit⟩
      exact ⟨hk, e, he, (hstatus e he).symm ▸ hbit⟩

/-- **Marking a bit** in the user and in its map keeps the agreement. -/
theorem mark (h : map.Agrees heap category) (hu : map.users.find? u = some p)
    (hi : i < 32) :
    (map.markStatus u (BitVec.twoPow 32 i)).Agrees
      (heap.modify p fun usr =>
        { usr with mUserStatus := usr.mUserStatus ||| BitVec.twoPow 32 i }) category where
  user v q hv := by
    rw [users_markStatus] at hv
    obtain ⟨usr, hq, hid, hcat⟩ := h.user v q hv
    rw [List.getElem?_modify, hq]
    by_cases hpq : p = q
    · exact ⟨{ usr with mUserStatus := usr.mUserStatus ||| BitVec.twoPow 32 i },
        by simp [hpq], hid, hcat⟩
    · exact ⟨usr, by simp [hpq], hid, hcat⟩
  bits j S hS k := by
    rw [users_markStatus]
    rw [bitSet_markStatus map u hi] at hS
    obtain ⟨usr, hp, -⟩ := h.user u p hu
    have hstatus : ∀ q, statusAt (heap.modify p fun usr =>
        { usr with mUserStatus := usr.mUserStatus ||| BitVec.twoPow 32 i }) q =
          if q = p then statusAt heap q ||| BitVec.twoPow 32 i else statusAt heap q := by
      intro q
      rw [statusAt, statusAt, List.getElem?_modify]
      by_cases hq : q = p
      · simp [hq, hp]
      · simp [hq, Ne.symm hq]
    -- the entry at index `k` is at address `p` exactly when `k` is the index of `u`
    have hindex : ∀ e, map.users.entries[k]? = some e →
        (e.2 = p ↔ k = map.indexOfKey u) := by
      intro e he
      have hfind : map.users.find? e.1 = some e.2 :=
        KeyedVector.find?_eq_some_iff.mpr (List.mem_of_getElem? he)
      constructor
      · intro hep
        have heu : e.1 = u := h.ptr_injective (hep ▸ hfind) hu
        have hkey : map.users.keys[k]? = some u := by
          rw [KeyedVector.keys, List.getElem?_map, he, Option.map_some, heu]
        obtain ⟨hlt, hget⟩ := List.getElem?_eq_some_iff.mp hkey
        rw [indexOfKey, ← hget, map.users.nodup_keys.idxOf_getElem]
      · rintro rfl
        rw [entries_indexOfKey hu, Option.some_inj] at he
        rw [← he]
    split_ifs at hS with hji
    · subst hji
      obtain ⟨S₀, hS₀, rfl⟩ := Option.map_eq_some_iff.mp hS
      rw [BitSet32.hasBit_markBit, Bool.or_eq_true, h.bits j S₀ hS₀ k]
      simp only [hstatus]
      constructor
      · rintro (⟨hk, e, he, hbit⟩ | hk)
        · refine ⟨hk, e, he, ?_⟩
          split <;> simp [hbit]
        · simp only [Bool.and_eq_true, decide_eq_true_eq] at hk
          have he := entries_indexOfKey hu
          rw [← hk.2] at he
          exact ⟨hk.1, _, he, by simp [hi]⟩
      · rintro ⟨hk, e, he, hbit⟩
        by_cases hep : e.2 = p
        · exact .inr (by simpa [← (hindex e he).mp hep] using hk)
        · exact .inl ⟨hk, e, he, by simpa [hep] using hbit⟩
    · rw [h.bits j S hS k]
      refine and_congr_right fun _ => exists_congr fun e => and_congr_right fun _ => ?_
      rw [hstatus]
      split
      · rw [BitVec.getLsbD_or, BitVec.getLsbD_twoPow]
        simp [Ne.symm hji]
      · rfl

/-- A bit set that tells which users of the map have a property: **all users** have it exactly
when their number is the count of the bit set, which needs at most 32 users. -/
theorem size_eq_count_iff {S : BitSet32} {P : BitVec 32 → Prop}
    (hS : ∀ k, S.hasBit k = true ↔
      k < 32 ∧ ∃ e, map.users.entries[k]? = some e ∧ P (statusAt heap e.2)) :
    map.users.size = S.count ↔ map.users.size ≤ 32 ∧
      ∀ e ∈ map.users.entries, P (statusAt heap e.2) := by
  have hlt : ∀ k, S.hasBit k = true → k < map.users.size := by
    intro k hk
    obtain ⟨-, e, he, -⟩ := (hS k).mp hk
    exact (List.getElem?_eq_some_iff.mp he).1
  rw [eq_comm, BitSet32.count_eq_iff hlt]
  refine and_congr_right fun hsize => ⟨fun hall e he => ?_, fun hall k hk => ?_⟩
  · obtain ⟨k, hk⟩ := List.mem_iff_getElem?.mp he
    obtain ⟨-, e', he', hbit⟩ := (hS k).mp (hall k (List.getElem?_eq_some_iff.mp hk).1)
    rw [hk, Option.some_inj] at he'
    exact he' ▸ hbit
  · exact (hS k).mpr ⟨Nat.lt_of_lt_of_le hk hsize, _, List.getElem?_eq_getElem hk,
      hall _ (List.getElem_mem hk)⟩

theorem hasBit_released (h : map.Agrees heap category) (k : ℕ) :
    map.mBitSetReleased.hasBit k = true ↔ k < 32 ∧ ∃ e, map.users.entries[k]? = some e ∧
      UserStatus.Released (statusAt heap e.2) := by
  simp only [UserStatus.released_iff]
  exact h.bits 3 map.mBitSetReleased rfl k

end Agrees

namespace Coherent

theorem agrees (h : map.Coherent heap category) : map.Agrees heap category where
  user u p hu := by
    obtain ⟨usr, hp, hid, hcat, -⟩ := h.user u p hu
    exact ⟨usr, hp, hid, hcat⟩
  bits := h.bits

theorem congr (h : map.Coherent heap category)
    (hheap : ∀ u p, map.users.find? u = some p → heap'[p]?.map coreOf = heap[p]?.map coreOf) :
    map.Coherent heap' category where
  user u p hu := by
    obtain ⟨usr, hp, hid, hcat, hgroup⟩ := h.user u p hu
    have hcore := hheap u p hu
    rw [hp, Option.map_some, Option.map_eq_some_iff] at hcore
    obtain ⟨usr', hp', heq⟩ := hcore
    simp only [coreOf, Prod.mk.injEq] at heq
    exact ⟨usr', hp', heq.1.trans hid, heq.2.1.trans hcat, heq.2.2.1.trans hgroup⟩
  bits := (h.agrees.congr hheap).bits

/-- **Marking a bit** in the user and in its map keeps the map coherent. -/
theorem mark (h : map.Coherent heap category) (hu : map.users.find? u = some p)
    (hi : i < 32) :
    (map.markStatus u (BitVec.twoPow 32 i)).Coherent
      (heap.modify p fun usr =>
        { usr with mUserStatus := usr.mUserStatus ||| BitVec.twoPow 32 i }) category where
  user v q hv := by
    rw [users_markStatus] at hv
    obtain ⟨usr, hq, hid, hcat, hgroup⟩ := h.user v q hv
    rw [List.getElem?_modify, hq]
    by_cases hpq : p = q
    · exact ⟨{ usr with mUserStatus := usr.mUserStatus ||| BitVec.twoPow 32 i },
        by simp [hpq], hid, hcat, hgroup⟩
    · exact ⟨usr, by simp [hpq], hid, hcat, hgroup⟩
  bits := (h.agrees.mark hu hi).bits

/-- The users of a coherent map have **all released** exactly when their number is the
count of its released bits, which needs at most 32 users. -/
theorem size_eq_count_iff (h : map.Coherent heap category) :
    map.users.size = map.mBitSetReleased.count ↔ map.users.size ≤ 32 ∧
      ∀ u p, map.users.find? u = some p → UserStatus.Released (statusAt heap p) := by
  rw [Agrees.size_eq_count_iff h.agrees.hasBit_released]
  refine and_congr_right fun _ => ⟨fun hall u p hu => ?_, fun hall e he => ?_⟩
  · exact hall (u, p) (KeyedVector.find?_eq_some_iff.mp hu)
  · exact hall e.1 e.2 (KeyedVector.find?_eq_some_iff.mpr he)

end Coherent

end MyUserMap

/-! ### The users of a manager -/

namespace UsersManager

variable {m m' : UsersManager} {u v : UserId} {p q : UserPtr} {usr : MyUser}
  {mask : BitVec 32}

def producers (m : UsersManager) : List UserId := m.mProducerMap.users.keys

def consumers (m : UsersManager) : List UserId := m.mConsumerMap.users.keys

def HasRole (m : UsersManager) (u : UserId) : Prop := u ∈ m.producers ∨ u ∈ m.consumers

instance (m : UsersManager) (u : UserId) : Decidable (m.HasRole u) :=
  inferInstanceAs (Decidable (_ ∨ _))

/-- The user object of an id is at an address, in one of the maps. -/
def UserAt (m : UsersManager) (u : UserId) (p : UserPtr) : Prop :=
  m.mProducerMap.users.find? u = some p ∨ m.mConsumerMap.users.find? u = some p

def identityOf (usr : MyUser) : UserId × Category := (usr.mUserId, usr.mCategory)

/-- Two managers have the **same users**: they may differ in statuses, bit sets and
release fences only. -/
structure SameUsers (m m' : UsersManager) : Prop where
  init : m'.mUserInit = m.mUserInit
  graph : m'.mUserGroupGraph = m.mUserGroupGraph
  producer : m'.mProducerMap.users = m.mProducerMap.users
  consumer : m'.mConsumerMap.users = m.mConsumerMap.users
  heap : ∀ q : UserPtr, m'.heap[q]?.map identityOf = m.heap[q]?.map identityOf

theorem SameUsers.refl (m : UsersManager) : SameUsers m m :=
  ⟨rfl, rfl, rfl, rfl, fun _ => rfl⟩

theorem SameUsers.trans {m₁ m₂ m₃ : UsersManager} (h₁ : SameUsers m₁ m₂)
    (h₂ : SameUsers m₂ m₃) : SameUsers m₁ m₃ :=
  ⟨h₂.init.trans h₁.init, h₂.graph.trans h₁.graph, h₂.producer.trans h₁.producer,
    h₂.consumer.trans h₁.consumer, fun q => (h₂.heap q).trans (h₁.heap q)⟩

theorem SameUsers.producers (h : SameUsers m m') : m'.producers = m.producers := by
  rw [UsersManager.producers, h.producer]
  rfl

theorem SameUsers.consumers (h : SameUsers m m') : m'.consumers = m.consumers := by
  rw [UsersManager.consumers, h.consumer]
  rfl

theorem SameUsers.hasRole (h : SameUsers m m') : m'.HasRole u ↔ m.HasRole u := by
  rw [HasRole, HasRole, h.producers, h.consumers]

theorem SameUsers.userAt (h : SameUsers m m') : m'.UserAt u p ↔ m.UserAt u p := by
  rw [UserAt, UserAt, h.producer, h.consumer]

theorem hasRole_iff : m.HasRole u ↔ ∃ p, m.UserAt u p := by
  rw [HasRole, producers, consumers, KeyedVector.mem_keys_iff, KeyedVector.mem_keys_iff,
    ← exists_or]
  rfl

namespace Coherent

theorem exists_user (h : m.Coherent) (hu : m.UserAt u p) :
    ∃ usr, m.heap[p]? = some usr ∧ usr.mUserId = u ∧ usr.mGroupIndex = 0 := by
  rcases hu with hu | hu
  · obtain ⟨usr, hp, hid, -, hgroup⟩ := h.producer.user u p hu
    exact ⟨usr, hp, hid, hgroup⟩
  · obtain ⟨usr, hp, hid, -, hgroup⟩ := h.consumer.user u p hu
    exact ⟨usr, hp, hid, hgroup⟩

theorem userAt_ptr_injective (h : m.Coherent) (hu : m.UserAt u p) (hv : m.UserAt v p) :
    u = v := by
  obtain ⟨usr, hp, rfl, -⟩ := h.exists_user hu
  obtain ⟨usr', hp', rfl, -⟩ := h.exists_user hv
  rw [Option.some_inj.mp (hp.symm.trans hp')]

/-- **User lookup** in a coherent manager. -/
theorem queryUser_eq_some_iff (h : m.Coherent) :
    m.queryUser_ u = some (p, usr) ↔ m.UserAt u p ∧ m.heap[p]? = some usr := by
  have hor : (m.mProducerMap.users.find? u).or (m.mConsumerMap.users.find? u) = some p ↔
      m.UserAt u p := by
    rw [UserAt]
    cases hprod : m.mProducerMap.users.find? u with
    | none => simp
    | some p' =>
      have hcons : m.mConsumerMap.users.find? u = none :=
        KeyedVector.find?_eq_none_iff.mpr
          (h.disjoint u (KeyedVector.mem_keys_of_find? hprod))
      simp [hcons]
  constructor
  · intro hquery
    rw [queryUser_] at hquery
    split at hquery
    · cases hquery
    · rename_i p' hp'
      split at hquery
      · cases hquery
      · rename_i usr' husr'
        split at hquery
        · cases hquery
        · cases hquery
          exact ⟨hor.mp hp', husr'⟩
  · rintro ⟨hat, hp⟩
    obtain ⟨usr', hp', -, hgroup⟩ := h.exists_user hat
    have heq : usr' = usr := Option.some_inj.mp (hp'.symm.trans hp)
    subst heq
    simp [queryUser_, hor.mpr hat, hp, hgroup, h.group]

theorem queryUser_eq_none (h : m.Coherent) (hu : ¬ m.HasRole u) : m.queryUser_ u = none := by
  cases hquery : m.queryUser_ u with
  | none => rfl
  | some r =>
    obtain ⟨p, usr⟩ := r
    exact absurd (hasRole_iff.mpr ⟨p, (h.queryUser_eq_some_iff.mp hquery).1⟩) hu

theorem getUserStatus_eq (h : m.Coherent) (hu : m.UserAt u p) :
    m.getUserStatus u = statusAt m.heap p := by
  obtain ⟨usr, hp, -⟩ := h.exists_user hu
  have hquery := h.queryUser_eq_some_iff.mpr ⟨hu, hp⟩
  simp [getUserStatus, h.init, hquery, statusAt, hp]

theorem getUserStatus_of_not_hasRole (h : m.Coherent) (hu : ¬ m.HasRole u) :
    m.getUserStatus u = 0 := by
  simp [getUserStatus, h.init, h.queryUser_eq_none hu]

end Coherent

/-! ### Marking -/

def markProducer (m : UsersManager) (u : UserId) (p : UserPtr) (i : ℕ) : UsersManager :=
  { m.editUser p fun usr =>
      { usr with mUserStatus := usr.mUserStatus ||| BitVec.twoPow 32 i } with
    mProducerMap := m.mProducerMap.markStatus u (BitVec.twoPow 32 i) }

def markConsumer (m : UsersManager) (u : UserId) (p : UserPtr) (i : ℕ) : UsersManager :=
  { m.editUser p fun usr =>
      { usr with mUserStatus := usr.mUserStatus ||| BitVec.twoPow 32 i } with
    mConsumerMap := m.mConsumerMap.markStatus u (BitVec.twoPow 32 i) }

/-- What one marked bit changes: the mask at one address, nothing else about the
users. -/
structure Marked (m m' : UsersManager) (p : UserPtr) (i : ℕ) : Prop where
  coherent : m'.Coherent
  same : SameUsers m m'
  status : ∀ q, statusAt m'.heap q =
    if q = p then statusAt m.heap q ||| BitVec.twoPow 32 i else statusAt m.heap q

theorem statusAt_modify (heap : List MyUser) {usr : MyUser} (hp : heap[p]? = some usr)
    (b : BitVec 32) (q : UserPtr) :
    statusAt (heap.modify p fun usr => { usr with mUserStatus := usr.mUserStatus ||| b }) q =
      if q = p then statusAt heap q ||| b else statusAt heap q := by
  rw [statusAt, statusAt, List.getElem?_modify]
  by_cases hq : q = p
  · simp [hq, hp]
  · simp [hq, Ne.symm hq]

theorem user_modify (heap : List MyUser) (b : BitVec 32) (q : UserPtr) :
    (heap.modify p fun usr => { usr with mUserStatus := usr.mUserStatus ||| b })[q]?.map
      identityOf = heap[q]?.map identityOf := by
  rw [List.getElem?_modify]
  by_cases hq : p = q <;> cases heap[q]? <;> simp [hq, identityOf]

theorem marked_markProducer (h : m.Coherent) (hu : m.mProducerMap.users.find? u = some p)
    {i : ℕ} (hi : i < 32) : Marked m (m.markProducer u p i) p i := by
  obtain ⟨usr, hp, -, hcat, -⟩ := h.producer.user u p hu
  refine ⟨⟨h.init, h.group, h.producer.mark hu hi, h.consumer.congr fun v q hv => ?_, ?_⟩,
    ⟨rfl, rfl, MyUserMap.users_markStatus _ _ _, rfl, user_modify _ _⟩,
    statusAt_modify _ hp _⟩
  · -- the object of a consumer is not that of a producer
    obtain ⟨usr', hq, -, hcat', -⟩ := h.consumer.user v q hv
    have hpq : p ≠ q := fun heq => by
      rw [← heq, hp, Option.some_inj] at hq
      rw [hq, hcat'] at hcat
      cases hcat
    simp [markProducer, editUser, hpq]
  · simpa only [markProducer, editUser, MyUserMap.users_markStatus] using h.disjoint

theorem marked_markConsumer (h : m.Coherent) (hu : m.mConsumerMap.users.find? u = some p)
    {i : ℕ} (hi : i < 32) : Marked m (m.markConsumer u p i) p i := by
  obtain ⟨usr, hp, -, hcat, -⟩ := h.consumer.user u p hu
  refine ⟨⟨h.init, h.group, h.producer.congr fun v q hv => ?_, h.consumer.mark hu hi, ?_⟩,
    ⟨rfl, rfl, rfl, MyUserMap.users_markStatus _ _ _, user_modify _ _⟩,
    statusAt_modify _ hp _⟩
  · obtain ⟨usr', hq, -, hcat', -⟩ := h.producer.user v q hv
    have hpq : p ≠ q := fun heq => by
      rw [← heq, hp, Option.some_inj] at hq
      rw [hq, hcat'] at hcat
      cases hcat
    simp [markConsumer, editUser, hpq]
  · simpa only [markConsumer, editUser, MyUserMap.users_markStatus] using h.disjoint

/-- What a run of the marking loop over some bit positions changes. -/
structure MarkedAll (m m' : UsersManager) (p : UserPtr) (mask : BitVec 32)
    (is : List ℕ) : Prop where
  coherent : m'.Coherent
  same : SameUsers m m'
  other : ∀ q, q ≠ p → statusAt m'.heap q = statusAt m.heap q
  bits : ∀ j, (statusAt m'.heap p).getLsbD j =
    ((statusAt m.heap p).getLsbD j || (decide (j ∈ is) && mask.getLsbD j))

theorem MarkedAll.skip {i : ℕ} {is : List ℕ} (h : MarkedAll m m' p mask is)
    (hi : mask.getLsbD i = true → (statusAt m.heap p).getLsbD i = true) :
    MarkedAll m m' p mask (i :: is) := by
  refine ⟨h.coherent, h.same, h.other, fun j => ?_⟩
  rw [h.bits j]
  by_cases hij : j = i
  · subst hij
    cases hj : mask.getLsbD j with
    | false => simp
    | true => simp [hi hj]
  · simp [hij]

theorem MarkedAll.cons {m₁ : UsersManager} {i : ℕ} {is : List ℕ} (hi : i < 32)
    (hmask : mask.getLsbD i = true) (h₁ : Marked m m₁ p i)
    (h : MarkedAll m₁ m' p mask is) : MarkedAll m m' p mask (i :: is) := by
  refine ⟨h.coherent, h₁.same.trans h.same, fun q hq => ?_, fun j => ?_⟩
  · rw [h.other q hq, h₁.status q, if_neg hq]
  · rw [h.bits j, h₁.status p, if_pos rfl, BitVec.getLsbD_or, BitVec.getLsbD_twoPow]
    by_cases hij : j = i
    · subst hij
      simp [hi, hmask]
    · simp [hij, Ne.symm hij]

/-- **The loop of `markUserStatus`** marks every bit of the mask among its positions. -/
theorem markBits_spec (mask : BitVec 32) (is : List ℕ) (his : ∀ i ∈ is, i < 32) (h : m.Coherent)
    (hu : m.UserAt u p) : MarkedAll m (markBits u p mask is m).1 p mask is := by
  induction is generalizing m with
  | nil => exact ⟨h, .refl m, fun _ _ => rfl, fun j => by simp [markBits]⟩
  | cons i is ih =>
    have hi : i < 32 := his i List.mem_cons_self
    have his' : ∀ j ∈ is, j < 32 := fun j hj => his j (List.mem_cons_of_mem _ hj)
    obtain ⟨usr, hp, -⟩ := h.exists_user hu
    have hat : statusAt m.heap p = usr.mUserStatus := by simp [statusAt, hp]
    rw [markBits]
    simp only [hp]
    by_cases hmask : mask.getLsbD i = true
    · rw [if_neg ((UserStatus.and_twoPow_ne_zero_iff hi).mpr hmask)]
      by_cases hold : usr.mUserStatus.getLsbD i = true
      · rw [if_pos ((UserStatus.and_twoPow_eq_iff hi).mpr hold)]
        exact (ih his' h hu).skip fun _ => hat ▸ hold
      · rw [if_neg (mt (UserStatus.and_twoPow_eq_iff hi).mp hold)]
        rcases hu with hu | hu
        · obtain ⟨usr', hp', -, hcat, -⟩ := h.producer.user u p hu
          rw [Option.some_inj.mp (hp'.symm.trans hp)] at hcat
          have h₁ := marked_markProducer h hu hi
          simp only [hcat]
          exact .cons hi hmask h₁ (ih his' h₁.coherent (h₁.same.userAt.mpr (.inl hu)))
        · obtain ⟨usr', hp', -, hcat, -⟩ := h.consumer.user u p hu
          rw [Option.some_inj.mp (hp'.symm.trans hp)] at hcat
          have h₁ := marked_markConsumer h hu hi
          simp only [hcat]
          exact .cons hi hmask h₁ (ih his' h₁.coherent (h₁.same.userAt.mpr (.inr hu)))
    · rw [if_pos (not_not.mp (mt (UserStatus.and_twoPow_ne_zero_iff hi).mp hmask))]
      exact (ih his' h hu).skip fun hi' => absurd hi' hmask

/-- **Marking** keeps the manager coherent and its users the same. -/
theorem coherent_markUserStatus (h : m.Coherent) (u : UserId) (mask : BitVec 32) :
    (m.markUserStatus u mask).1.Coherent ∧ SameUsers m (m.markUserStatus u mask).1 := by
  rw [markUserStatus]
  simp only [h.init, Bool.not_true, Bool.false_eq_true, if_false]
  split
  · exact ⟨h, .refl m⟩
  · rename_i p usr hquery
    have hspec := markBits_spec mask (List.range 32)
      (fun i hi => List.mem_range.mp hi) h (h.queryUser_eq_some_iff.mp hquery).1
    exact ⟨hspec.coherent, hspec.same⟩

/-- **The status after marking**: the mask is added to the status of the user, if it has
a role, and the status of every other user is unchanged. -/
theorem getUserStatus_markUserStatus (h : m.Coherent) (u v : UserId) (mask : BitVec 32) :
    (m.markUserStatus u mask).1.getUserStatus v =
      if v = u ∧ m.HasRole u then m.getUserStatus v ||| mask else m.getUserStatus v := by
  obtain ⟨hcoh, hsame⟩ := coherent_markUserStatus h u mask
  by_cases hrole : m.HasRole u
  · obtain ⟨p, hat⟩ := hasRole_iff.mp hrole
    obtain ⟨usr, hp, -⟩ := h.exists_user hat
    have hspec := markBits_spec mask (List.range 32)
      (fun i hi => List.mem_range.mp hi) h hat
    have hmark : (m.markUserStatus u mask).1 = (markBits u p mask (List.range 32) m).1 := by
      rw [markUserStatus]
      simp [h.init, h.queryUser_eq_some_iff.mpr ⟨hat, hp⟩]
    rw [hmark] at hcoh hsame ⊢
    by_cases hv : v = u
    · subst hv
      rw [if_pos ⟨rfl, hrole⟩, h.getUserStatus_eq hat,
        hcoh.getUserStatus_eq (hsame.userAt.mpr hat)]
      refine BitVec.eq_of_getLsbD_eq fun j hj => ?_
      rw [hspec.bits, BitVec.getLsbD_or]
      simp [hj]
    · rw [if_neg fun hand => hv hand.1]
      by_cases hrole' : m.HasRole v
      · obtain ⟨q, hat'⟩ := hasRole_iff.mp hrole'
        have hpq : q ≠ p := fun heq => hv (h.userAt_ptr_injective (heq ▸ hat') hat)
        rw [h.getUserStatus_eq hat', hcoh.getUserStatus_eq (hsame.userAt.mpr hat'),
          hspec.other q hpq]
      · rw [h.getUserStatus_of_not_hasRole hrole',
          hcoh.getUserStatus_of_not_hasRole (mt hsame.hasRole.mp hrole')]
  · have hmark : (m.markUserStatus u mask).1 = m := by
      rw [markUserStatus]
      simp [h.init, h.queryUser_eq_none hrole]
    rw [hmark, if_neg fun hand => hrole hand.2]

theorem released_markUserStatus (h : m.Coherent) (u : UserId) (mask : BitVec 32)
    (hv : UserStatus.Released (m.getUserStatus v)) :
    UserStatus.Released ((m.markUserStatus u mask).1.getUserStatus v) := by
  rw [getUserStatus_markUserStatus h]
  split
  · exact hv.or mask
  · exact hv

theorem coherent_setUserReleaseFence (h : m.Coherent) (u : UserId) (fence : ℤ) :
    (m.setUserReleaseFence u fence).1.Coherent ∧
      SameUsers m (m.setUserReleaseFence u fence).1 ∧
      ∀ v, (m.setUserReleaseFence u fence).1.getUserStatus v = m.getUserStatus v := by
  rw [setUserReleaseFence]
  simp only [h.init, Bool.not_true, Bool.false_eq_true, if_false]
  split
  · exact ⟨h, .refl m, fun _ => rfl⟩
  · rename_i p usr hquery
    split
    · exact ⟨h, .refl m, fun _ => rfl⟩
    · have hcore : ∀ q : UserPtr, (m.heap.modify p fun user =>
          { user with mReleaseFence := ⟨fence⟩ })[q]?.map coreOf = m.heap[q]?.map coreOf := by
        intro q
        rw [List.getElem?_modify]
        by_cases hq : p = q <;> cases m.heap[q]? <;> simp [hq, coreOf]
      have hcoh : (m.editUser p fun user => { user with mReleaseFence := ⟨fence⟩ }).Coherent :=
        ⟨h.init, h.group, h.producer.congr fun _ q _ => hcore q,
          h.consumer.congr fun _ q _ => hcore q, h.disjoint⟩
      have hsame : SameUsers m (m.editUser p fun user =>
          { user with mReleaseFence := ⟨fence⟩ }) := by
        refine ⟨rfl, rfl, rfl, rfl, fun q => ?_⟩
        have hid := congrArg (Option.map fun c => (c.1, c.2.1)) (hcore q)
        simp only [Option.map_map] at hid
        exact hid
      refine ⟨hcoh, hsame, fun v => ?_⟩
      by_cases hrole : m.HasRole v
      · obtain ⟨q, hat⟩ := hasRole_iff.mp hrole
        rw [h.getUserStatus_eq hat, hcoh.getUserStatus_eq (hsame.userAt.mpr hat)]
        exact statusAt_congr (hcore q)
      · rw [h.getUserStatus_of_not_hasRole hrole,
          hcoh.getUserStatus_of_not_hasRole (mt hsame.hasRole.mp hrole)]

/-! ### Answers -/

/-- **All users released**: there are at most 32 producers and at most 32 consumers, and
the mask of each has the `RELEASE` bit. -/
theorem haveAllUsersReleased_eq_ok_iff (h : m.Coherent) :
    m.haveAllUsersReleased = .ok ↔ m.producers.length ≤ 32 ∧ m.consumers.length ≤ 32 ∧
      ∀ u, m.HasRole u → UserStatus.Released (m.getUserStatus u) := by
  have hiff : m.haveAllUsersReleased = .ok ↔
      m.mConsumerMap.users.size = m.mConsumerMap.mBitSetReleased.count ∧
        m.mProducerMap.users.size = m.mProducerMap.mBitSetReleased.count := by
    simp [haveAllUsersReleased, h.init]
  rw [hiff, h.consumer.size_eq_count_iff, h.producer.size_eq_count_iff, producers,
    consumers, KeyedVector.length_keys, KeyedVector.length_keys]
  constructor
  · rintro ⟨⟨hc, hcons⟩, hp, hprod⟩
    refine ⟨hp, hc, fun u hu => ?_⟩
    obtain ⟨p, hat⟩ := hasRole_iff.mp hu
    rw [h.getUserStatus_eq hat]
    exact hat.elim (hprod u p) (hcons u p)
  · rintro ⟨hp, hc, hall⟩
    refine ⟨⟨hc, fun u p hu => ?_⟩, hp, fun u p hu => ?_⟩
    · exact h.getUserStatus_eq (.inr hu) ▸ hall u (hasRole_iff.mpr ⟨p, .inr hu⟩)
    · exact h.getUserStatus_eq (.inl hu) ▸ hall u (hasRole_iff.mpr ⟨p, .inl hu⟩)

/-- **All producers released**: there are at most 32 of them, and the mask of each has
the `RELEASE` bit. -/
theorem haveAllProducerUsersReleased_eq_ok_iff (h : m.Coherent) :
    m.haveAllProducerUsersReleased = .ok ↔ m.producers.length ≤ 32 ∧
      ∀ u ∈ m.producers, UserStatus.Released (m.getUserStatus u) := by
  have hiff : m.haveAllProducerUsersReleased = .ok ↔
      m.mProducerMap.users.size = m.mProducerMap.mBitSetReleased.count := by
    simp [haveAllProducerUsersReleased, h.init]
  rw [hiff, h.producer.size_eq_count_iff, producers, KeyedVector.length_keys]
  refine and_congr_right fun _ => ⟨fun hall u hu => ?_, fun hall u p hu => ?_⟩
  · obtain ⟨p, hat⟩ := KeyedVector.mem_keys_iff.mp hu
    exact h.getUserStatus_eq (.inl hat) ▸ hall u p hat
  · exact h.getUserStatus_eq (.inl hu) ▸ hall u (KeyedVector.mem_keys_of_find? hu)

theorem getNumberOfProducers_eq (h : m.Coherent) :
    m.getNumberOfProducers = m.producers.length := by
  simp [getNumberOfProducers, h.init, producers]

end UsersManager

end MtkHardware.Pipeline
