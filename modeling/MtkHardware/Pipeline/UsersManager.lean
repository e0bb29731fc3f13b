import MtkHardware.Util.BitSet32
import MtkHardware.Util.KeyedVector
import Mathlib.Data.List.Sort

/-!
# The Users Manager of a Stream Buffer

Every stream buffer of a frame has a `UsersManager`, which knows the users of the buffer
(the pipeline nodes), the order in which they use it (a user graph), and what each of
them has done with it (a status mask). Users are heap objects shared by the graph and by
the producer and consumer maps; a `UserPtr` is an address in that heap.

The definitions follow `UsersManagerImp.cpp` and `UsersManager.h`. The file descriptors
of fences belong to the kernel, so what the sync driver does with them is a parameter
(`SyncDriver`).
-/

namespace MtkHardware.Pipeline

inductive MERROR
  | ok
  | noInit
  | nameNotFound
  | alreadyExists
  | unknownError
  | badValue
  | invalidOperation
  | deadObject
  /-- The plain code `-1`. -/
  | failed
  deriving DecidableEq, Repr

/-- The identity of a user of a stream buffer: the id of its node. -/
abbrev UserId := ℤ

/-! ### Fences -/

structure SyncDriver where
  /-- Duplicate a file descriptor. -/
  dup : ℤ → ℤ
  /-- The fence that is signaled when both fences are, or `-1`. -/
  sync_merge : ℤ → ℤ → ℤ

/-- A fence object: the file descriptor that it manages. -/
structure Fence where
  /-- The file descriptor, `-1` for no fence. -/
  mFenceFd : ℤ
  deriving DecidableEq, Repr

/-- `IFence::NO_FENCE`. -/
def Fence.noFence : Fence := ⟨-1⟩

def Fence.isValid (f : Fence) : Bool := f.mFenceFd != -1

/-- `IFence::merge`. -/
def Fence.merge (driver : SyncDriver) (f₁ f₂ : Fence) : Fence :=
  let merged (a b : Fence) : Fence :=
    let result := driver.sync_merge a.mFenceFd b.mFenceFd
    if result = -1 then noFence else ⟨result⟩
  if f₁.isValid && f₂.isValid then merged f₁ f₂
  else if f₁.isValid then merged f₁ f₁
  else if f₂.isValid then merged f₂ f₂
  else noFence

/-! ### Users -/

inductive Category
  | producer
  | consumer
  | none
  deriving DecidableEq, Repr

namespace UserStatus

def acquire : BitVec 32 := BitVec.twoPow 32 0

def preRelease : BitVec 32 := BitVec.twoPow 32 1

def used : BitVec 32 := BitVec.twoPow 32 2

def release : BitVec 32 := BitVec.twoPow 32 3

/-- The user has released the buffer and still uses it. -/
def releaseStillUse : BitVec 32 := BitVec.twoPow 32 4

end UserStatus

/-- The description of a user that is given to a user graph. -/
structure User where
  mUserId : UserId
  mAcquireFence : ℤ := -1
  mReleaseFence : ℤ := -1
  mUsage : BitVec 32 := 0
  mCategory : Category := .producer
  deriving DecidableEq, Repr

structure MyUser where
  mUserId : UserId
  mAcquireFence : Fence
  mReleaseFence : Fence
  mUsage : BitVec 32
  mCategory : Category
  mGroupIndex : ℕ
  mUserStatus : BitVec 32
  deriving DecidableEq, Repr

/-- A user object made from a description, for a graph of a group. -/
def MyUser.ofUser (user : User) (groupIndex : ℕ) : MyUser where
  mUserId := user.mUserId
  mAcquireFence := ⟨user.mAcquireFence⟩
  mReleaseFence := ⟨user.mReleaseFence⟩
  mUsage := user.mUsage
  mCategory := user.mCategory
  mGroupIndex := groupIndex
  mUserStatus := 0

abbrev UserPtr := ℕ

/-- A node of a user graph, with the users ahead of it and behind it. -/
structure UserNode where
  mMyUser : UserPtr
  /-- In-coming edges. -/
  mIn : List UserId
  /-- Out-going edges. -/
  mOut : List UserId

structure MyUserGraph where
  /-- The usages of all consumers together. -/
  mConsumerUsage : BitVec 32
  mGroupIndex : ℕ
  mUserVector : KeyedVector UserId UserNode

/-- The users of one category, with one bit set for each status that is counted; a bit
index is the index of the user in the map. -/
structure MyUserMap where
  users : KeyedVector UserId UserPtr
  mBitSetUsed : BitSet32
  mBitSetReleased : BitSet32
  mBitSetPreReleased : BitSet32
  mBitSetReleasedStillUse : BitSet32

def MyUserMap.clear : MyUserMap where
  users := .empty
  mBitSetUsed := .clear
  mBitSetReleased := .clear
  mBitSetPreReleased := .clear
  mBitSetReleasedStillUse := .clear

/-- The **users manager** of a stream buffer, with the heap of its user objects. -/
structure UsersManager where
  heap : List MyUser
  mUserInit : Bool
  mUserGroupGraph : List MyUserGraph
  mProducerMap : MyUserMap
  mConsumerMap : MyUserMap

namespace MyUserGraph

/-- Depth-first search against the edges: every user ahead of `userId`, each search
before its root. The recursion of the source has no visited set; `none` says that it is
deeper than `fuel` (or indexes a missing node) and does not return. -/
def dfs (g : MyUserGraph) : ℕ → UserId → Option (List UserPtr)
  | 0, _ => none
  | fuel + 1, userId =>
    match g.mUserVector.find? userId with
    | none => none
    | some node =>
      match node.mIn.mapM (dfs g fuel) with
      | none => none
      | some results => some (results.flatten ++ [node.mMyUser])

/-- The users ahead of a user, and the user itself. A call chain of an acyclic graph
visits distinct users, so the size of the graph bounds its depth. -/
def getPriorUsers (g : MyUserGraph) (userId : UserId) : Option (List UserPtr) :=
  g.dfs g.mUserVector.size userId

end MyUserGraph

namespace UsersManager

def new : UsersManager where
  heap := []
  mUserInit := false
  mUserGroupGraph := []
  mProducerMap := .clear
  mConsumerMap := .clear

/-! ### User setup -/

def createGraph (m : UsersManager) : Option (UsersManager × ℕ) :=
  if m.mUserInit then none
  else
    let groupIndex := m.mUserGroupGraph.length
    some ({ m with mUserGroupGraph := m.mUserGroupGraph ++ [⟨0, groupIndex, .empty⟩] },
      groupIndex)

def editGraph (m : UsersManager) (groupIndex : ℕ) (f : MyUserGraph → MyUserGraph) :
    UsersManager :=
  { m with mUserGroupGraph := m.mUserGroupGraph.modify groupIndex f }

def addUser (m : UsersManager) (groupIndex : ℕ) (usr : User) : UsersManager × MERROR :=
  match m.mUserGroupGraph[groupIndex]? with
  | none => (m, .nameNotFound)
  | some g =>
    if (g.mUserVector.find? usr.mUserId).isSome then (m, .alreadyExists)
    else
      let node : UserNode := ⟨m.heap.length, [], []⟩
      let m := { m with heap := m.heap ++ [MyUser.ofUser usr groupIndex] }
      (m.editGraph groupIndex fun g =>
        { g with mUserVector := g.mUserVector.add usr.mUserId node }, .ok)

def addEdge (m : UsersManager) (groupIndex : ℕ) (id_src id_dst : UserId) :
    UsersManager × MERROR :=
  match m.mUserGroupGraph[groupIndex]? with
  | none => (m, .nameNotFound)
  | some g =>
    match g.mUserVector.find? id_src, g.mUserVector.find? id_dst with
    | some src, some dst =>
      -- each edge is added only once
      if id_dst ∉ src.mOut ∧ id_src ∉ dst.mIn then
        (m.editGraph groupIndex fun g =>
          { g with mUserVector :=
              (g.mUserVector.modify id_src fun n =>
                { n with mOut := n.mOut.orderedInsert (· ≤ ·) id_dst }).modify id_dst fun n =>
                { n with mIn := n.mIn.orderedInsert (· ≤ ·) id_src } }, .ok)
      else (m, .alreadyExists)
    | _, _ => (m, .nameNotFound)

/-- The loops of `removeUser`: edit the nodes of some users. -/
def editNodes (f : UserNode → UserNode) :
    List UserId → KeyedVector UserId UserNode → Option (KeyedVector UserId UserNode)
  | [], nodes => some nodes
  | id :: ids, nodes =>
    match nodes.find? id with
    | none => none
    | some _ => editNodes f ids (nodes.modify id f)

/-- Remove a user and its edges from a graph. The call does not return (`none`) when an edge
leads to a user that is not there. -/
def removeUser (m : UsersManager) (groupIndex : ℕ) (id : UserId) :
    Option (UsersManager × MERROR) :=
  match m.mUserGroupGraph[groupIndex]? with
  | none => some (m, .nameNotFound)
  | some g =>
    match g.mUserVector.find? id with
    | none => some (m, .nameNotFound)
    | some node =>
      match editNodes (fun n => { n with mOut := n.mOut.erase id }) node.mIn g.mUserVector with
      | none => none
      | some nodes =>
        match nodes.find? id with
        | none => none
        | some node =>
          match editNodes (fun n => { n with mIn := n.mIn.erase id }) node.mOut nodes with
          | none => none
          | some nodes =>
            some (m.editGraph groupIndex fun g =>
              { g with mUserVector := nodes.remove id }, .ok)

def removeEdge (m : UsersManager) (groupIndex : ℕ) (id_src id_dst : UserId) :
    UsersManager × MERROR :=
  match m.mUserGroupGraph[groupIndex]? with
  | none => (m, .nameNotFound)
  | some g =>
    match g.mUserVector.find? id_src, g.mUserVector.find? id_dst with
    | some src, some dst =>
      if id_dst ∉ src.mOut ∨ id_src ∉ dst.mIn then (m, .nameNotFound)
      else
        (m.editGraph groupIndex fun g =>
          { g with mUserVector :=
              (g.mUserVector.modify id_src fun n =>
                { n with mOut := n.mOut.erase id_dst }).modify id_dst fun n =>
                { n with mIn := n.mIn.erase id_src } }, .ok)
    | _, _ => (m, .nameNotFound)

def enqueUser (m : UsersManager) (groupIndex : ℕ) (p : UserPtr) : UsersManager :=
  match m.heap[p]? with
  | none => m
  | some user =>
    match user.mCategory with
    | .producer =>
      { m with mProducerMap :=
          { m.mProducerMap with users := m.mProducerMap.users.add user.mUserId p } }
    | .consumer =>
      { m with mConsumerMap :=
          { m.mConsumerMap with users := m.mConsumerMap.users.add user.mUserId p } }.editGraph
        groupIndex fun g => { g with mConsumerUsage := g.mConsumerUsage ||| user.mUsage }
    | .none => m

def enqueUserGraph (m : UsersManager) (groupIndex : ℕ) : UsersManager :=
  if m.mUserInit then m
  else
    match m.mUserGroupGraph[groupIndex]? with
    | none => m
    | some g =>
      (g.mUserVector.entries.map fun e => e.2.mMyUser).foldl
        (fun m p => m.enqueUser groupIndex p) m

def finishUserSetup (m : UsersManager) : UsersManager := { m with mUserInit := true }

/-- Drop all graphs and users. A user object goes with the graphs and maps that hold it. -/
def reset (m : UsersManager) : UsersManager :=
  { m with
    heap := []
    mUserInit := false
    mUserGroupGraph := []
    mProducerMap := .clear
    mConsumerMap := .clear }

/-! ### User status -/

def queryUser_ (m : UsersManager) (userId : UserId) : Option (UserPtr × MyUser) :=
  match (m.mProducerMap.users.find? userId).or (m.mConsumerMap.users.find? userId) with
  | none => none
  | some p =>
    match m.heap[p]? with
    | none => none
    | some user =>
      if m.mUserGroupGraph.length ≤ user.mGroupIndex then none else some (p, user)

end UsersManager

def MyUserMap.indexOfKey (map : MyUserMap) (userId : UserId) : ℕ :=
  map.users.keys.idxOf userId

def MyUserMap.markStatus (map : MyUserMap) (userId : UserId) (bitmask : BitVec 32) :
    MyUserMap :=
  let index := map.indexOfKey userId
  if bitmask = UserStatus.used then
    { map with mBitSetUsed := map.mBitSetUsed.markBit index }
  else if bitmask = UserStatus.release then
    { map with mBitSetReleased := map.mBitSetReleased.markBit index }
  else if bitmask = UserStatus.preRelease then
    { map with mBitSetPreReleased := map.mBitSetPreReleased.markBit index }
  else if bitmask = UserStatus.releaseStillUse then
    { map with mBitSetReleasedStillUse := map.mBitSetReleasedStillUse.markBit index }
  else map

namespace UsersManager

def editUser (m : UsersManager) (p : UserPtr) (f : MyUser → MyUser) : UsersManager :=
  { m with heap := m.heap.modify p f }

/-- The loop of `markUserStatus` over the bit positions of a mask: mark each bit of
`statusMask` that is not marked yet, in the user and in the map of its category. -/
def markBits (userId : UserId) (p : UserPtr) (statusMask : BitVec 32) :
    List ℕ → UsersManager → UsersManager × BitVec 32
  | [], m => (m, (m.heap[p]?.map MyUser.mUserStatus).getD 0)
  | i :: is, m =>
    let bitmask := BitVec.twoPow 32 i
    match m.heap[p]? with
    | none => (m, 0)
    | some user =>
      -- skip if not intending to be marked, or marked before
      if statusMask &&& bitmask = 0 then markBits userId p statusMask is m
      else if user.mUserStatus &&& bitmask = bitmask then
        markBits userId p statusMask is m
      else
        let m := m.editUser p fun user =>
          { user with mUserStatus := user.mUserStatus ||| bitmask }
        match user.mCategory with
        | .producer =>
          markBits userId p statusMask is
            { m with mProducerMap := m.mProducerMap.markStatus userId bitmask }
        | .consumer =>
          markBits userId p statusMask is
            { m with mConsumerMap := m.mConsumerMap.markStatus userId bitmask }
        | .none => (m, 0)

/-- **Mark the status** of a user; the result is its status after the call. -/
def markUserStatus (m : UsersManager) (userId : UserId) (statusMask : BitVec 32) :
    UsersManager × BitVec 32 :=
  if !m.mUserInit then (m, 0)
  else
    match m.queryUser_ userId with
    | none => (m, 0)
    | some (p, _) => markBits userId p statusMask (List.range 32) m

def getUserStatus (m : UsersManager) (userId : UserId) : BitVec 32 :=
  if !m.mUserInit then 0
  else
    match m.queryUser_ userId with
    | none => 0
    | some (_, user) => user.mUserStatus

def setUserReleaseFence (m : UsersManager) (userId : UserId) (releaseFence : ℤ) :
    UsersManager × MERROR :=
  if !m.mUserInit then (m, .noInit)
  else
    match m.queryUser_ userId with
    | none => (m, .nameNotFound)
    | some (p, user) =>
      if user.mReleaseFence.isValid && user.mReleaseFence.mFenceFd == releaseFence then
        (m, .alreadyExists)
      else (m.editUser p fun user => { user with mReleaseFence := ⟨releaseFence⟩ }, .ok)

/-! ### Queries -/

def queryGroupUsage (m : UsersManager) (userId : UserId) : BitVec 32 :=
  if !m.mUserInit then 0
  else
    match m.queryUser_ userId with
    | none => 0
    | some (_, user) =>
      match user.mCategory with
      | .producer => user.mUsage
      | .consumer =>
        match m.mUserGroupGraph[user.mGroupIndex]? with
        | some g => g.mConsumerUsage
        | none => 0
      | .none => 0

def getNumberOfProducers (m : UsersManager) : ℕ :=
  if !m.mUserInit then 0 else m.mProducerMap.users.size

/-- The loop of `createAcquireFence`: merge the release fences of the users ahead, and at
the user itself its own acquire fence. -/
def mergeFences (driver : SyncDriver) (userId : UserId) :
    List MyUser → Option Fence → ℤ
  | [], _ => -1
  | myUser :: result, fence =>
    if userId = myUser.mUserId then
      match fence with
      | none => driver.dup myUser.mAcquireFence.mFenceFd
      | some fence => driver.dup (fence.merge driver myUser.mAcquireFence).mFenceFd
    else
      let rf := myUser.mReleaseFence
      match fence with
      | none => mergeFences driver userId result (some ⟨driver.dup rf.mFenceFd⟩)
      | some fence => mergeFences driver userId result (some (fence.merge driver rf))

/-- The acquire fence of a user. The call does not return (`none`) when the search for
the users ahead does not. -/
def createAcquireFence (m : UsersManager) (driver : SyncDriver) (userId : UserId) :
    Option ℤ :=
  if !m.mUserInit then some (-1)
  else
    match m.queryUser_ userId with
    | none => some (-1)
    | some (_, user) =>
      if user.mGroupIndex = 0 then
        match m.mUserGroupGraph[0]? with
        | none => some (-1)
        | some g =>
          match g.getPriorUsers userId with
          | none => none
          | some result =>
            some (mergeFences driver userId (result.filterMap (m.heap[·]?)) none)
      else some (-1)

def isReleasedOrPreReleased (user : MyUser) : Bool :=
  user.mUserStatus &&& UserStatus.release != 0 ||
    user.mUserStatus &&& UserStatus.releaseStillUse != 0 ||
    user.mUserStatus &&& UserStatus.preRelease != 0

/-- Have all users **ahead of** a user released or pre-released the buffer? The call does
not return (`none`) when the search for the users ahead does not. -/
def haveAllUsersReleasedOrPreReleased (m : UsersManager) (userId : UserId) :
    Option MERROR :=
  if !m.mUserInit then some .noInit
  else
    match m.queryUser_ userId with
    | none => some .nameNotFound
    | some (_, user) =>
      if user.mGroupIndex = 0 then
        match m.mUserGroupGraph[0]? with
        | none => some .unknownError
        | some g =>
          match g.getPriorUsers userId with
          | none => none
          | some result =>
            if (result.filterMap (m.heap[·]?)).all fun pThisUser =>
                userId == pThisUser.mUserId || pThisUser.mCategory == .none ||
                  isReleasedOrPreReleased pThisUser
            then some .ok
            else some .noInit
      else some .unknownError

/-- Have **all users** released the buffer? -/
def haveAllUsersReleased (m : UsersManager) : MERROR :=
  if !m.mUserInit then .noInit
  else if m.mConsumerMap.users.size = m.mConsumerMap.mBitSetReleased.count ∧
      m.mProducerMap.users.size = m.mProducerMap.mBitSetReleased.count then .ok
  else .unknownError

def haveAllUsersReleasedOrPreReleasedLocked (m : UsersManager) : MERROR :=
  if !m.mUserInit then .noInit
  else
    let consumer := m.mConsumerMap.mBitSetReleased.union m.mConsumerMap.mBitSetPreReleased
    if consumer.count ≠ m.mConsumerMap.users.size then .unknownError
    else
      let producer := m.mProducerMap.mBitSetReleased.union m.mProducerMap.mBitSetPreReleased
      if producer.count ≠ m.mProducerMap.users.size then .unknownError else .ok

/-- The status that **all users** have. -/
def getAllUsersStatus (m : UsersManager) : BitVec 32 :=
  if m.haveAllUsersReleased = .ok then UserStatus.release
  else if m.haveAllUsersReleasedOrPreReleasedLocked = .ok then UserStatus.preRelease
  else 0

/-- Have **all producers** released the buffer? -/
def haveAllProducerUsersReleased (m : UsersManager) : MERROR :=
  if !m.mUserInit then .noInit
  else if m.mProducerMap.users.size = m.mProducerMap.mBitSetReleased.count then .ok
  else .unknownError

end UsersManager

end MtkHardware.Pipeline
