import MtkHardware.Pipeline.UserOrder
import MtkHardware.Util.Run

/-!
# Bit Sets and Statuses of a Users Manager

A users manager is set up with any number of graphs, marked, and reset, in any order of
calls. Its bit sets repeat what the statuses of the user objects say. They stay right because
users are enqueued before the setup is complete, when nothing is marked, and marked after it,
when no user changes its index.
-/

namespace MtkHardware.Pipeline

/-- The calls of a users manager and of its graphs. A graph goes by its group index; one that
was created before the last `reset` is not in the manager any more. -/
inductive UserOp
  | createGraph
  | addUser (groupIndex : ℕ) (usr : User)
  | removeUser (groupIndex : ℕ) (id : UserId)
  | addEdge (groupIndex : ℕ) (id_src id_dst : UserId)
  | removeEdge (groupIndex : ℕ) (id_src id_dst : UserId)
  | enqueUserGraph (groupIndex : ℕ)
  | finishUserSetup
  | markUserStatus (userId : UserId) (statusMask : BitVec 32)
  | reset
  deriving DecidableEq, Repr

inductive UserFault
  /-- A graph that the manager does not have is enqueued. -/
  | noGraph
  /-- A user that is not there is accessed. -/
  | missingUser
  deriving DecidableEq, Repr

/-- The machine of a users manager. It emits the statuses that `markUserStatus` returns. -/
def usersMachine : Machine UsersManager UserOp (BitVec 32) UserFault := fun m op =>
  match op with
  | .createGraph =>
    match m.createGraph with
    | none => .ok (m, [])
    | some (m, _) => .ok (m, [])
  | .addUser groupIndex usr => .ok ((m.addUser groupIndex usr).1, [])
  | .removeUser groupIndex id =>
    match m.removeUser groupIndex id with
    | none => .error .missingUser
    | some (m, _) => .ok (m, [])
  | .addEdge groupIndex id_src id_dst => .ok ((m.addEdge groupIndex id_src id_dst).1, [])
  | .removeEdge groupIndex id_src id_dst => .ok ((m.removeEdge groupIndex id_src id_dst).1, [])
  | .enqueUserGraph groupIndex =>
    if m.mUserInit = false ∧ m.mUserGroupGraph.length ≤ groupIndex then .error .noGraph
    else .ok (m.enqueUserGraph groupIndex, [])
  | .finishUserSetup => .ok (m.finishUserSetup, [])
  | .markUserStatus userId statusMask =>
    .ok ((m.markUserStatus userId statusMask).1, [(m.markUserStatus userId statusMask).2])
  | .reset => .ok (m.reset, [])

/-! ### The questions, over statuses -/

def MyUserMap.statuses (heap : List MyUser) (map : MyUserMap) : List (BitVec 32) :=
  map.users.entries.map fun e => statusAt heap e.2

namespace UserStatus

def isReleased (status : BitVec 32) : Bool := status &&& release != 0

def isReleasedOrPreReleased (status : BitVec 32) : Bool :=
  status &&& release != 0 || status &&& preRelease != 0

/-- Is the buffer released, maybe while it is still used, or pre-released? -/
def isPassedOn (status : BitVec 32) : Bool :=
  status &&& release != 0 || status &&& releaseStillUse != 0 || status &&& preRelease != 0

theorem isReleased_iff {status : BitVec 32} : isReleased status = true ↔ Released status := by
  rw [isReleased, bne_iff_ne]
  rfl

end UserStatus

namespace UsersManager

def producerStatuses (m : UsersManager) : List (BitVec 32) := m.mProducerMap.statuses m.heap

def consumerStatuses (m : UsersManager) : List (BitVec 32) := m.mConsumerMap.statuses m.heap

/-- Ask whether all statuses of a list have a property. The answer to a `no` is `refusal`. -/
def ask (m : UsersManager) (statuses : List (BitVec 32)) (P : BitVec 32 → Bool)
    (refusal : MERROR) : MERROR :=
  if !m.mUserInit then .noInit else if statuses.all P then .ok else refusal

/-- The statuses of the users ahead of a user, if the search for them returns. -/
def statusesAhead (m : UsersManager) (userId : UserId) : Option (List (BitVec 32)) :=
  match m.mUserGroupGraph[0]? with
  | none => none
  | some g =>
    match g.getPriorUsers userId with
    | none => none
    | some result =>
      let users := result.filterMap (m.heap[·]?)
      some ((users.filter fun usr => usr.mUserId != userId && usr.mCategory != .none).map
        MyUser.mUserStatus)

end UsersManager

/-! ### Agreement -/

namespace MyUserMap

variable {heap : List MyUser} {category : Category} {map : MyUserMap} {usr : MyUser}
  {p : UserPtr} {k : ℕ}

theorem agrees_clear (heap : List MyUser) (category : Category) :
    clear.Agrees heap category := by
  refine ⟨fun u p hu => by simp [clear] at hu, fun i S hS k => ?_⟩
  have hempty : S = .clear := by
    rcases i with _ | _ | _ | _ | _ | i <;> simp [bitSet, clear] at hS <;> exact hS.symm
  rw [hempty, BitSet32.hasBit_clear]
  simp [clear, KeyedVector.empty]

theorem bitSet_users (map : MyUserMap) (users : KeyedVector UserId UserPtr) (i : ℕ) :
    ({ map with users := users } : MyUserMap).bitSet i = map.bitSet i := by
  rcases i with _ | _ | _ | _ | _ | i <;> rfl

theorem Agrees.add (h : map.Agrees heap category) (hfresh : ∀ q, statusAt heap q = 0)
    (hp : heap[p]? = some usr) (hcat : usr.mCategory = category) :
    ({ map with users := map.users.add usr.mUserId p } : MyUserMap).Agrees heap category where
  user u q hu := by
    rw [KeyedVector.find?_add] at hu
    split at hu
    · rename_i heq
      obtain rfl := Option.some_inj.mp hu
      exact ⟨usr, hp, heq.symm, hcat⟩
    · exact h.user u q hu
  bits i S hS k := by
    rw [bitSet_users] at hS
    rw [h.bits i S hS k]
    simp [hfresh]

theorem Agrees.hasBit_iff (h : map.Agrees heap category) {i : ℕ} {S : BitSet32}
    (hS : map.bitSet i = some S) (hsize : map.users.size ≤ 32) :
    S.hasBit k = true ↔ ∃ s, (map.statuses heap)[k]? = some s ∧ s.getLsbD i = true := by
  rw [h.bits i S hS k, statuses, List.getElem?_map]
  constructor
  · rintro ⟨-, e, he, hbit⟩
    exact ⟨_, by rw [he]; rfl, hbit⟩
  · rintro ⟨s, hs, hbit⟩
    obtain ⟨e, he, rfl⟩ := Option.map_eq_some_iff.mp hs
    have hlt := (List.getElem?_eq_some_iff.mp he).1
    exact ⟨Nat.lt_of_lt_of_le hlt hsize, e, he, hbit⟩

theorem all_statuses_iff {P : BitVec 32 → Bool} :
    (map.statuses heap).all P = true ↔
      ∀ e ∈ map.users.entries, P (statusAt heap e.2) = true := by
  rw [List.all_eq_true, statuses, List.forall_mem_map]

theorem Agrees.size_eq_count_released (h : map.Agrees heap category)
    (hsize : map.users.size ≤ 32) :
    map.users.size = map.mBitSetReleased.count ↔
      (map.statuses heap).all UserStatus.isReleased = true := by
  rw [Agrees.size_eq_count_iff h.hasBit_released, and_iff_right hsize, all_statuses_iff]
  simp only [UserStatus.isReleased_iff]

theorem Agrees.count_union_eq_size (h : map.Agrees heap category)
    (hsize : map.users.size ≤ 32) :
    (map.mBitSetReleased.union map.mBitSetPreReleased).count = map.users.size ↔
      (map.statuses heap).all UserStatus.isReleasedOrPreReleased = true := by
  have hunion : ∀ k, (map.mBitSetReleased.union map.mBitSetPreReleased).hasBit k = true ↔
      k < 32 ∧ ∃ e, map.users.entries[k]? = some e ∧
        UserStatus.isReleasedOrPreReleased (statusAt heap e.2) = true := by
    intro k
    have hrel := h.bits 3 map.mBitSetReleased rfl k
    have hpre := h.bits 1 map.mBitSetPreReleased rfl k
    have hflag : ∀ s, UserStatus.isReleasedOrPreReleased s = true ↔
        s.getLsbD 3 = true ∨ s.getLsbD 1 = true := fun s => by
      rw [UserStatus.isReleasedOrPreReleased, Bool.or_eq_true, bne_iff_ne, bne_iff_ne]
      exact or_congr (UserStatus.and_twoPow_ne_zero_iff (by decide))
        (UserStatus.and_twoPow_ne_zero_iff (by decide))
    rw [BitSet32.hasBit_union, Bool.or_eq_true, hrel, hpre, ← and_or_left, ← exists_or]
    simp only [hflag, and_or_left]
  rw [eq_comm,
    Agrees.size_eq_count_iff (P := fun s => UserStatus.isReleasedOrPreReleased s = true) hunion,
    and_iff_right hsize, all_statuses_iff]

end MyUserMap

namespace UsersManager

variable {m m' : UsersManager} {u : UserId} {p : UserPtr} {usr : MyUser} {ops : List UserOp}
  {os : List (BitVec 32)}

/-- The bit sets of a manager **agree** with the statuses, and nothing is marked before the
setup is complete. -/
structure BitsAgree (m : UsersManager) : Prop where
  producer : m.mProducerMap.Agrees m.heap .producer
  consumer : m.mConsumerMap.Agrees m.heap .consumer
  fresh : m.mUserInit = false → ∀ p, statusAt m.heap p = 0

theorem bitsAgree_new : new.BitsAgree :=
  ⟨MyUserMap.agrees_clear _ _, MyUserMap.agrees_clear _ _, fun _ _ => rfl⟩

/-! ### Setup -/

theorem bitsAgree_addUser (h : m.BitsAgree) (groupIndex : ℕ) (usr : User) :
    (m.addUser groupIndex usr).1.BitsAgree := by
  rw [addUser]
  split
  · exact h
  · split
    · exact h
    · have hold : ∀ q : UserPtr, ∀ old, m.heap[q]? = some old →
          (m.heap ++ [MyUser.ofUser usr groupIndex])[q]? = m.heap[q]? := fun q old hq => by
        rw [List.getElem?_append_left (List.getElem?_eq_some_iff.mp hq).1]
      refine ⟨h.producer.congr fun v q hv => ?_, h.consumer.congr fun v q hv => ?_,
        fun hinit q => ?_⟩
      · obtain ⟨old, hq, -⟩ := h.producer.user v q hv
        exact congrArg _ (hold q old hq)
      · obtain ⟨old, hq, -⟩ := h.consumer.user v q hv
        exact congrArg _ (hold q old hq)
      · have hq := h.fresh hinit q
        rw [statusAt] at hq
        simp only [editGraph, statusAt]
        rw [List.getElem?_append]
        split
        · exact hq
        · rw [List.getElem?_singleton]
          split <;> rfl

theorem bitsAgree_enqueUser (h : m.BitsAgree) (hinit : m.mUserInit = false) (groupIndex : ℕ)
    (p : UserPtr) :
    (m.enqueUser groupIndex p).BitsAgree ∧ (m.enqueUser groupIndex p).mUserInit = false := by
  rw [enqueUser]
  split
  · exact ⟨h, hinit⟩
  · rename_i user hp
    split
    · rename_i hcat
      exact ⟨⟨h.producer.add (h.fresh hinit) hp hcat, h.consumer, h.fresh⟩, hinit⟩
    · rename_i hcat
      exact ⟨⟨h.producer, h.consumer.add (h.fresh hinit) hp hcat, h.fresh⟩, hinit⟩
    · exact ⟨h, hinit⟩

theorem bitsAgree_enqueUserGraph (h : m.BitsAgree) (groupIndex : ℕ) :
    (m.enqueUserGraph groupIndex).BitsAgree := by
  rw [enqueUserGraph]
  split
  · exact h
  · rename_i hinit
    split
    · exact h
    · rename_i g _
      have hfold : ∀ (ps : List UserPtr) (m : UsersManager), m.BitsAgree → m.mUserInit = false →
          (ps.foldl (fun m p => m.enqueUser groupIndex p) m).BitsAgree := by
        intro ps
        induction ps with
        | nil => exact fun m h _ => h
        | cons p ps ih =>
          intro m h hinit
          obtain ⟨h', hinit'⟩ := bitsAgree_enqueUser h hinit groupIndex p
          exact ih _ h' hinit'
      exact hfold _ m h (by simpa using hinit)

/-! ### Marking -/

theorem BitsAgree.ptr_ne {q : UserPtr} {v : UserId} (h : m.BitsAgree)
    (hp : m.mProducerMap.users.find? u = some p) (hq : m.mConsumerMap.users.find? v = some q) :
    p ≠ q := by
  obtain ⟨usr, husr, -, hcat⟩ := h.producer.user u p hp
  obtain ⟨usr', husr', -, hcat'⟩ := h.consumer.user v q hq
  rintro rfl
  rw [husr, Option.some_inj] at husr'
  rw [husr', hcat'] at hcat
  cases hcat

theorem bitsAgree_mark (h : m.BitsAgree) (hinit : m.mUserInit = true) {i : ℕ} (hi : i < 32) :
    (m.mProducerMap.users.find? u = some p → (m.markProducer u p i).BitsAgree) ∧
      (m.mConsumerMap.users.find? u = some p → (m.markConsumer u p i).BitsAgree) := by
  constructor
  · intro hu
    refine ⟨h.producer.mark hu hi, h.consumer.congr fun v q hv => ?_, fun hfalse => ?_⟩
    · simp [markProducer, editUser, h.ptr_ne hu hv]
    · cases hinit.symm.trans hfalse
  · intro hu
    refine ⟨h.producer.congr fun v q hv => ?_, h.consumer.mark hu hi, fun hfalse => ?_⟩
    · simp [markConsumer, editUser, (h.ptr_ne hv hu).symm]
    · cases hinit.symm.trans hfalse

/-- **The loop of `markUserStatus`** keeps the agreement. -/
theorem bitsAgree_markBits (mask : BitVec 32) (is : List ℕ) (his : ∀ i ∈ is, i < 32)
    (h : m.BitsAgree) (hinit : m.mUserInit = true) (hu : m.UserAt u p) :
    (markBits u p mask is m).1.BitsAgree := by
  induction is generalizing m with
  | nil => exact h
  | cons i is ih =>
    have hi : i < 32 := his i List.mem_cons_self
    have his' : ∀ j ∈ is, j < 32 := fun j hj => his j (List.mem_cons_of_mem _ hj)
    rw [markBits]
    dsimp only
    split
    · exact h
    · rename_i usr hp
      split
      · exact ih his' h hinit hu
      · split
        · exact ih his' h hinit hu
        · rcases hu with hu | hu
          · obtain ⟨usr', hp', -, hcat⟩ := h.producer.user u p hu
            rw [Option.some_inj.mp (hp'.symm.trans hp)] at hcat
            simp only [hcat]
            exact ih his' ((bitsAgree_mark h hinit hi).1 hu) hinit
              (.inl (by rw [MyUserMap.users_markStatus]; exact hu))
          · obtain ⟨usr', hp', -, hcat⟩ := h.consumer.user u p hu
            rw [Option.some_inj.mp (hp'.symm.trans hp)] at hcat
            simp only [hcat]
            exact ih his' ((bitsAgree_mark h hinit hi).2 hu) hinit
              (.inr (by rw [MyUserMap.users_markStatus]; exact hu))

theorem userAt_of_queryUser (h : m.queryUser_ u = some (p, usr)) : m.UserAt u p := by
  rw [queryUser_] at h
  split at h
  · cases h
  · rename_i q hq
    split at h
    · cases h
    · split at h
      · cases h
      · cases h
        rw [Option.or_eq_some_iff] at hq
        exact hq.imp (fun hq => hq) And.right

theorem bitsAgree_markUserStatus (h : m.BitsAgree) (u : UserId) (mask : BitVec 32) :
    (m.markUserStatus u mask).1.BitsAgree := by
  rw [markUserStatus]
  split
  · exact h
  · rename_i hinit
    split
    · exact h
    · rename_i p usr hquery
      exact bitsAgree_markBits mask _ (fun i hi => List.mem_range.mp hi) h (by simpa using hinit)
        (userAt_of_queryUser hquery)

/-! ### Runs -/

theorem BitsAgree.of_editGraph (h : m.BitsAgree) (groupIndex : ℕ)
    (f : MyUserGraph → MyUserGraph) : (m.editGraph groupIndex f).BitsAgree :=
  ⟨h.producer, h.consumer, h.fresh⟩

theorem bitsAgree_addEdge (h : m.BitsAgree) (groupIndex : ℕ) (u v : UserId) :
    (m.addEdge groupIndex u v).1.BitsAgree := by
  rw [addEdge]
  split
  · exact h
  · split
    · split
      · exact h.of_editGraph _ _
      · exact h
    · exact h

theorem bitsAgree_removeEdge (h : m.BitsAgree) (groupIndex : ℕ) (u v : UserId) :
    (m.removeEdge groupIndex u v).1.BitsAgree := by
  rw [removeEdge]
  split
  · exact h
  · split
    · split
      · exact h
      · exact h.of_editGraph _ _
    · exact h

theorem bitsAgree_removeUser (h : m.BitsAgree) {groupIndex : ℕ} {err : MERROR}
    (heq : m.removeUser groupIndex u = some (m', err)) : m'.BitsAgree := by
  rw [removeUser] at heq
  split at heq
  · cases heq
    exact h
  · split at heq
    · cases heq
      exact h
    · split at heq
      · cases heq
      · split at heq
        · cases heq
        · split at heq
          · cases heq
          · cases heq
            exact h.of_editGraph _ _

/-- **One call** keeps the agreement. -/
theorem bitsAgree_step {op : UserOp} {o : List (BitVec 32)} (h : m.BitsAgree)
    (hstep : usersMachine m op = .ok (m', o)) : m'.BitsAgree := by
  cases op with
  | createGraph =>
    rw [usersMachine] at hstep
    rw [createGraph] at hstep
    split at hstep
    · cases hstep
      exact h
    · rename_i m₁ g heq
      split at heq
      · cases heq
      · cases heq
        cases hstep
        exact ⟨h.producer, h.consumer, h.fresh⟩
  | addUser groupIndex usr =>
    cases hstep
    exact bitsAgree_addUser h groupIndex usr
  | removeUser groupIndex id =>
    rw [usersMachine] at hstep
    split at hstep
    · cases hstep
    · rename_i m₁ err heq
      cases hstep
      exact bitsAgree_removeUser h heq
  | addEdge groupIndex u v =>
    cases hstep
    exact bitsAgree_addEdge h groupIndex u v
  | removeEdge groupIndex u v =>
    cases hstep
    exact bitsAgree_removeEdge h groupIndex u v
  | enqueUserGraph groupIndex =>
    rw [usersMachine] at hstep
    split at hstep
    · cases hstep
    · cases hstep
      exact bitsAgree_enqueUserGraph h groupIndex
  | finishUserSetup =>
    cases hstep
    exact ⟨h.producer, h.consumer, fun hfalse => by cases hfalse⟩
  | markUserStatus u mask =>
    cases hstep
    exact bitsAgree_markUserStatus h u mask
  | reset =>
    cases hstep
    exact bitsAgree_new

/-- **The agreement** holds in every reachable state. -/
theorem bitsAgree_of_runs (hrun : usersMachine.Runs new ops m os) : m.BitsAgree :=
  hrun.invariant (I := fun _ m _ => m.BitsAgree) bitsAgree_new
    fun _ _ _ _ _ _ h hstep => bitsAgree_step h hstep

/-! ### Answers -/

theorem haveAllUsersReleased_eq_ask (h : m.BitsAgree) (hp : m.mProducerMap.users.size ≤ 32)
    (hc : m.mConsumerMap.users.size ≤ 32) :
    m.haveAllUsersReleased = m.ask (m.producerStatuses ++ m.consumerStatuses)
      UserStatus.isReleased .unknownError := by
  simp only [haveAllUsersReleased, ask, List.all_append, h.consumer.size_eq_count_released hc,
    h.producer.size_eq_count_released hp, Bool.and_eq_true, producerStatuses, consumerStatuses]
  exact if_congr .rfl rfl (if_congr and_comm rfl rfl)

theorem haveAllProducerUsersReleased_eq_ask (h : m.BitsAgree)
    (hp : m.mProducerMap.users.size ≤ 32) :
    m.haveAllProducerUsersReleased =
      m.ask m.producerStatuses UserStatus.isReleased .unknownError := by
  simp only [haveAllProducerUsersReleased, ask, h.producer.size_eq_count_released hp,
    producerStatuses]
  exact if_congr .rfl rfl (if_congr .rfl rfl rfl)

theorem haveAllUsersReleasedOrPreReleasedLocked_eq_ask (h : m.BitsAgree)
    (hp : m.mProducerMap.users.size ≤ 32) (hc : m.mConsumerMap.users.size ≤ 32) :
    m.haveAllUsersReleasedOrPreReleasedLocked = m.ask (m.producerStatuses ++ m.consumerStatuses)
      UserStatus.isReleasedOrPreReleased .unknownError := by
  simp only [haveAllUsersReleasedOrPreReleasedLocked, ask, List.all_append, ne_eq,
    h.consumer.count_union_eq_size hc, h.producer.count_union_eq_size hp, producerStatuses,
    consumerStatuses]
  refine if_congr .rfl rfl ?_
  cases (m.mConsumerMap.statuses m.heap).all UserStatus.isReleasedOrPreReleased <;>
    cases (m.mProducerMap.statuses m.heap).all UserStatus.isReleasedOrPreReleased <;> rfl

theorem haveAllUsersReleasedOrPreReleased_eq_ask {statuses : List (BitVec 32)}
    (hquery : m.queryUser_ u = some (p, usr)) (hgroup : usr.mGroupIndex = 0)
    (hahead : m.statusesAhead u = some statuses) :
    m.haveAllUsersReleasedOrPreReleased u =
      some (m.ask statuses UserStatus.isPassedOn .noInit) := by
  rw [statusesAhead] at hahead
  split at hahead
  · cases hahead
  · rename_i g hg
    split at hahead
    · cases hahead
    · rename_i result hresult
      cases hahead
      have hall : ((result.filterMap (m.heap[·]?)).all fun pThisUser =>
          u == pThisUser.mUserId || pThisUser.mCategory == .none ||
            isReleasedOrPreReleased pThisUser) =
          (((result.filterMap (m.heap[·]?)).filter fun usr =>
            usr.mUserId != u && usr.mCategory != .none).map MyUser.mUserStatus).all
              UserStatus.isPassedOn := by
        rw [List.all_map, List.all_filter]
        refine congrArg _ (funext fun usr => ?_)
        simp only [Function.comp_apply, UserStatus.isPassedOn, isReleasedOrPreReleased, bne,
          Bool.not_and, Bool.not_not]
        rw [BEq.comm]
      simp only [haveAllUsersReleasedOrPreReleased, ask, hquery, hgroup, hg, hresult, hall,
        if_true]
      split
      · rfl
      · split <;> rfl

/-- **Bit sets and statuses.** In every state that is reached by setting up graphs, enqueuing
and marking users and resetting the manager, and in which there are at most 32 producers and at
most 32 consumers: a released or pre-released bit is set exactly when the user of that index
has the status, and every question about all users, about all producers or about the users
ahead of one is answered as from the list of their statuses. -/
theorem answers_of_runs (hrun : usersMachine.Runs new ops m os)
    (hp : m.mProducerMap.users.size ≤ 32) (hc : m.mConsumerMap.users.size ≤ 32) :
    (∀ k, (m.mProducerMap.mBitSetReleased.hasBit k = true ↔
        ∃ s, m.producerStatuses[k]? = some s ∧ s &&& UserStatus.release ≠ 0) ∧
      (m.mProducerMap.mBitSetPreReleased.hasBit k = true ↔
        ∃ s, m.producerStatuses[k]? = some s ∧ s &&& UserStatus.preRelease ≠ 0) ∧
      (m.mConsumerMap.mBitSetReleased.hasBit k = true ↔
        ∃ s, m.consumerStatuses[k]? = some s ∧ s &&& UserStatus.release ≠ 0) ∧
      (m.mConsumerMap.mBitSetPreReleased.hasBit k = true ↔
        ∃ s, m.consumerStatuses[k]? = some s ∧ s &&& UserStatus.preRelease ≠ 0)) ∧
    m.haveAllUsersReleased = m.ask (m.producerStatuses ++ m.consumerStatuses)
      UserStatus.isReleased .unknownError ∧
    m.haveAllUsersReleasedOrPreReleasedLocked =
      m.ask (m.producerStatuses ++ m.consumerStatuses) UserStatus.isReleasedOrPreReleased
        .unknownError ∧
    m.haveAllProducerUsersReleased =
      m.ask m.producerStatuses UserStatus.isReleased .unknownError ∧
    m.getAllUsersStatus =
      (if m.ask (m.producerStatuses ++ m.consumerStatuses) UserStatus.isReleased
          .unknownError = .ok then UserStatus.release
      else if m.ask (m.producerStatuses ++ m.consumerStatuses)
          UserStatus.isReleasedOrPreReleased .unknownError = .ok then UserStatus.preRelease
      else 0) ∧
    ∀ u p usr statuses, m.queryUser_ u = some (p, usr) → usr.mGroupIndex = 0 →
      m.statusesAhead u = some statuses → m.haveAllUsersReleasedOrPreReleased u =
        some (m.ask statuses UserStatus.isPassedOn .noInit) := by
  have h := bitsAgree_of_runs hrun
  have hall := haveAllUsersReleased_eq_ask h hp hc
  have hpre := haveAllUsersReleasedOrPreReleasedLocked_eq_ask h hp hc
  refine ⟨fun k => ⟨?_, ?_, ?_, ?_⟩, hall, hpre, haveAllProducerUsersReleased_eq_ask h hp, ?_,
    fun u p usr statuses => haveAllUsersReleasedOrPreReleased_eq_ask⟩
  · simp only [UserStatus.release, UserStatus.and_twoPow_ne_zero_iff (show 3 < 32 by decide)]
    exact h.producer.hasBit_iff (i := 3) rfl hp
  · simp only [UserStatus.preRelease, UserStatus.and_twoPow_ne_zero_iff (show 1 < 32 by decide)]
    exact h.producer.hasBit_iff (i := 1) rfl hp
  · simp only [UserStatus.release, UserStatus.and_twoPow_ne_zero_iff (show 3 < 32 by decide)]
    exact h.consumer.hasBit_iff (i := 3) rfl hc
  · simp only [UserStatus.preRelease, UserStatus.and_twoPow_ne_zero_iff (show 1 < 32 by decide)]
    exact h.consumer.hasBit_iff (i := 1) rfl hc
  · rw [getAllUsersStatus, hall, hpre]

def releaseOps : List UserOp :=
  [.createGraph, .finishUserSetup, .reset, .createGraph,
    .addUser 0 (⟨1, -1, -1, 0, .producer⟩ : User), .addUser 0 ⟨2, -1, -1, 0, .consumer⟩,
    .addEdge 0 1 2, .enqueUserGraph 0, .finishUserSetup, .markUserStatus 1 UserStatus.release,
    .markUserStatus 2 UserStatus.preRelease]

theorem answers_releaseOps :
    ∃ m os, usersMachine.Runs new releaseOps m os ∧ m.getAllUsersStatus = UserStatus.preRelease ∧
      m.haveAllProducerUsersReleased = .ok := by
  obtain ⟨m, hrun, hview⟩ : ∃ m, usersMachine.Runs new releaseOps m [8, 2] ∧
      (m.mUserInit, m.producerStatuses, m.consumerStatuses) = (true, [8], [2]) :=
    Machine.exists_run_of_observe (by decide)
  simp only [Prod.mk.injEq] at hview
  obtain ⟨hinit, hprod, hcons⟩ := hview
  have hp : m.mProducerMap.users.size = 1 := by
    have hlen := congrArg List.length hprod
    rwa [producerStatuses, MyUserMap.statuses, List.length_map] at hlen
  have hc : m.mConsumerMap.users.size = 1 := by
    have hlen := congrArg List.length hcons
    rwa [consumerStatuses, MyUserMap.statuses, List.length_map] at hlen
  obtain ⟨-, -, -, hproducers, hstatus, -⟩ := answers_of_runs hrun (by omega) (by omega)
  refine ⟨m, _, hrun, ?_, ?_⟩
  · rw [hstatus, ask, ask, hinit, hprod, hcons]
    decide
  · rw [hproducers, ask, hinit, hprod]
    decide

end UsersManager

end MtkHardware.Pipeline
