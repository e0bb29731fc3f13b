import MtkHardware.Pipeline.UserRuns

/-!
# What a User Has to Wait For

A user asks the manager two things about the users ahead of it: whether they have passed the
buffer on, and for one fence to wait on. The search behind both answers has no visited set, so it
meets a user once for every path to it, and it goes through users without a category. The first
answer leaves the users without a category out; the fence does not, and merges the release
fences of all users ahead.

A fence is taken as the set of the points that it waits for, and merging as their union.
-/

namespace MtkHardware.Pipeline

open Relation

/-- The driver **unites** the points that fences wait for. -/
structure SyncDriver.Unites {α : Type*} (driver : SyncDriver) (points : ℤ → Set α) : Prop where
  noFence : points (-1) = ∅
  dup : ∀ fd, points (driver.dup fd) = points fd
  sync_merge : ∀ a b, a ≠ -1 → b ≠ -1 → points (driver.sync_merge a b) = points a ∪ points b

namespace SyncDriver.Unites

variable {α : Type*} {driver : SyncDriver} {points : ℤ → Set α}

/-- **Merging two fences**, whether or not they manage one. -/
theorem merge (h : driver.Unites points) (f₁ f₂ : Fence) :
    points (f₁.merge driver f₂).mFenceFd = points f₁.mFenceFd ∪ points f₂.mFenceFd := by
  -- a merge of two file descriptors, of which the first may be the second
  have hmerged : ∀ a b : ℤ, a ≠ -1 → b ≠ -1 →
      points (if driver.sync_merge a b = -1 then Fence.noFence
        else ⟨driver.sync_merge a b⟩ : Fence).mFenceFd = points a ∪ points b := by
    intro a b ha hb
    rw [← h.sync_merge a b ha hb]
    split
    · rename_i hfail
      rw [hfail]
      rfl
    · rfl
  rw [Fence.merge]
  by_cases h₁ : f₁.mFenceFd = -1
  · by_cases h₂ : f₂.mFenceFd = -1
    · simp [Fence.isValid, h₁, h₂, h.noFence, Fence.noFence]
    · simp [Fence.isValid, h₁, h₂, h.noFence, hmerged _ _ h₂ h₂]
  · by_cases h₂ : f₂.mFenceFd = -1
    · simp [Fence.isValid, h₁, h₂, h.noFence, hmerged _ _ h₁ h₁]
    · simp [Fence.isValid, h₁, h₂, hmerged _ _ h₁ h₂]

def pointsOf (points : ℤ → Set α) (fence : Option Fence) : Set α :=
  fence.elim ∅ fun f => points f.mFenceFd

/-- **The loop** of `createAcquireFence`: at the user it has the release fences of all users
before it, and adds the acquire fence of the user. -/
theorem mem_mergeFences (h : driver.Unites points) {u : UserId} {before : List MyUser}
    {own : MyUser} (hbefore : ∀ w ∈ before, w.mUserId ≠ u) (hown : own.mUserId = u)
    (fence : Option Fence) (x : α) :
    x ∈ points (UsersManager.mergeFences driver u (before ++ [own]) fence) ↔
      x ∈ pointsOf points fence ∨ x ∈ points own.mAcquireFence.mFenceFd ∨
        ∃ w ∈ before, x ∈ points w.mReleaseFence.mFenceFd := by
  induction before generalizing fence with
  | nil =>
    rw [List.nil_append, UsersManager.mergeFences.eq_def]
    simp only [if_pos hown.symm]
    cases fence with
    | none => simp [h.dup, pointsOf]
    | some fence => simp [h.dup, h.merge, pointsOf]
  | cons w before ih =>
    have hrest : ∀ w ∈ before, w.mUserId ≠ u := fun w hw =>
      hbefore w (List.mem_cons_of_mem _ hw)
    have hw : u ≠ w.mUserId := (hbefore w List.mem_cons_self).symm
    rw [List.cons_append, UsersManager.mergeFences.eq_def]
    simp only [if_neg hw]
    cases fence with
    | none =>
      simp only [ih hrest, pointsOf, Option.elim, h.dup, List.mem_cons, exists_eq_or_imp,
        Set.mem_empty_iff_false, false_or]
      rw [or_left_comm]
    | some fence =>
      simp only [ih hrest, pointsOf, Option.elim, h.merge, Set.mem_union, List.mem_cons,
        exists_eq_or_imp]
      rw [or_assoc, or_left_comm (a := x ∈ points w.mReleaseFence.mFenceFd)]

end SyncDriver.Unites

/-- A search finds the users **strictly ahead** of its root, and then the root. -/
theorem MyUserGraph.exists_before_of_dfs {g : MyUserGraph} {fuel : ℕ} {u : UserId}
    {r : List UserPtr} (h : g.dfs fuel u = some r) :
    ∃ node before, g.mUserVector.find? u = some node ∧ r = before ++ [node.mMyUser] ∧
      ∀ p, p ∈ before ↔ ∃ v node, TransGen g.Ahead v u ∧
        g.mUserVector.find? v = some node ∧ node.mMyUser = p := by
  cases fuel with
  | zero => cases h
  | succ fuel =>
    obtain ⟨node, results, hnode, hmap, rfl⟩ := dfs_succ_eq_some_iff.mp h
    refine ⟨node, results.flatten, hnode, rfl, fun p => ?_⟩
    rw [List.mem_flatten]
    constructor
    · rintro ⟨r', hr', hp⟩
      have hmem : some r' ∈ node.mIn.map (g.dfs fuel) := hmap ▸ List.mem_map_of_mem hr'
      obtain ⟨w, hw, hdfs⟩ := List.mem_map.mp hmem
      obtain ⟨v, node', hreach, hnode', hptr⟩ := (mem_dfs_iff hdfs).mp hp
      exact ⟨v, node', .tail' hreach ⟨node, hnode, hw⟩, hnode', hptr⟩
    · rintro ⟨v, node', hpath, hnode', rfl⟩
      obtain ⟨w, hvw, hwu⟩ := TransGen.tail'_iff.mp hpath
      obtain ⟨node'', hnode'', hw⟩ := hwu
      obtain rfl : node = node'' := Option.some_inj.mp (hnode.symm.trans hnode'')
      have hdfs : g.dfs fuel w ∈ results.map some := hmap ▸ List.mem_map_of_mem hw
      obtain ⟨r', hr', hdfs⟩ := List.mem_map.mp hdfs
      exact ⟨r', hr', (mem_dfs_iff hdfs.symm).mpr ⟨v, node', hvw, hnode', rfl⟩⟩

namespace UsersManager

def userOf (m : UsersManager) (g : MyUserGraph) (v : UserId) : Option MyUser :=
  (g.mUserVector.find? v).bind fun node => m.heap[node.mMyUser]?

variable {m : UsersManager} {g : MyUserGraph} {u v : UserId} {p : UserPtr} {usr w : MyUser}

theorem userOf_eq_some_iff : m.userOf g v = some w ↔
    ∃ node, g.mUserVector.find? v = some node ∧ m.heap[node.mMyUser]? = some w :=
  Option.bind_eq_some_iff

/-- The users that the search for the users ahead of `u` finds: those strictly ahead of `u`, none
of which is `u`, and then `u` itself. -/
structure Searched (m : UsersManager) (g : MyUserGraph) (u : UserId) (before : List MyUser)
    (own : MyUser) : Prop where
  found : m.userOf g u = some own
  id : own.mUserId = u
  ahead : ∀ w, w ∈ before ↔ ∃ v, TransGen g.Ahead v u ∧ m.userOf g v = some w
  other : ∀ w ∈ before, w.mUserId ≠ u

/-- **The search** of a graph without a cycle. -/
theorem Linked.exists_searched (h : m.Linked) (hg : m.mUserGroupGraph[0]? = some g)
    (hacyclic : ∀ a, ¬ TransGen g.Ahead a a) (hu : u ∈ g.mUserVector.keys) :
    ∃ result before own, g.getPriorUsers u = some result ∧
      result.filterMap (m.heap[·]?) = before ++ [own] ∧ m.Searched g u before own := by
  have hlink := h 0 g hg
  obtain ⟨result, hresult⟩ := hlink.exists_getPriorUsers hacyclic hu
  obtain ⟨node, before, hnode, rfl, hbefore⟩ := MyUserGraph.exists_before_of_dfs hresult
  obtain ⟨own, hown, hid⟩ := Option.map_eq_some_iff.mp (hlink.user u node hnode)
  have hmem : ∀ w, w ∈ before.filterMap (m.heap[·]?) ↔
      ∃ v, TransGen g.Ahead v u ∧ m.userOf g v = some w := by
    intro w
    rw [List.mem_filterMap]
    constructor
    · rintro ⟨p, hp, hw⟩
      obtain ⟨v, node', hpath, hnode', rfl⟩ := (hbefore p).mp hp
      exact ⟨v, hpath, userOf_eq_some_iff.mpr ⟨node', hnode', hw⟩⟩
    · rintro ⟨v, hpath, hw⟩
      obtain ⟨node', hnode', hw⟩ := userOf_eq_some_iff.mp hw
      exact ⟨node'.mMyUser, (hbefore _).mpr ⟨v, node', hpath, hnode', rfl⟩, hw⟩
  refine ⟨_, before.filterMap (m.heap[·]?), own, hresult, by simp [hown],
    userOf_eq_some_iff.mpr ⟨node, hnode, hown⟩, hid, hmem, fun w hw heq => ?_⟩
  -- a user found before the root with the id of the root would be on a cycle
  obtain ⟨v, hpath, hv⟩ := (hmem w).mp hw
  obtain ⟨node', hnode', hw'⟩ := userOf_eq_some_iff.mp hv
  obtain ⟨w', hw'', hid'⟩ := Option.map_eq_some_iff.mp (hlink.user v node' hnode')
  obtain rfl : w = w' := Option.some_inj.mp (hw'.symm.trans hw'')
  rw [← hid', heq] at hpath
  exact hacyclic u hpath

theorem isReleasedOrPreReleased_iff :
    isReleasedOrPreReleased w = true ↔ PassedOn w.mUserStatus := by
  simp [isReleasedOrPreReleased, PassedOn, or_assoc]

theorem haveAll_eq {result : List UserPtr} (hinit : m.mUserInit = true)
    (hg : m.mUserGroupGraph[0]? = some g) (hu : m.queryUser_ u = some (p, usr))
    (hgroup : usr.mGroupIndex = 0) (hresult : g.getPriorUsers u = some result) :
    m.haveAllUsersReleasedOrPreReleased u =
      if (result.filterMap (m.heap[·]?)).all fun pThisUser =>
          u == pThisUser.mUserId || pThisUser.mCategory == .none ||
            isReleasedOrPreReleased pThisUser
      then some .ok else some .noInit := by
  simp only [haveAllUsersReleasedOrPreReleased, hinit, hu, hgroup, hg, hresult, Bool.not_true,
    Bool.false_eq_true, if_false, if_true]

theorem createAcquireFence_eq {result : List UserPtr} (driver : SyncDriver)
    (hinit : m.mUserInit = true) (hg : m.mUserGroupGraph[0]? = some g)
    (hu : m.queryUser_ u = some (p, usr)) (hgroup : usr.mGroupIndex = 0)
    (hresult : g.getPriorUsers u = some result) :
    m.createAcquireFence driver u =
      some (mergeFences driver u (result.filterMap (m.heap[·]?)) none) := by
  simp only [createAcquireFence, hinit, hu, hgroup, hg, hresult, Bool.not_true,
    Bool.false_eq_true, if_false, if_true]

/-- **The answers about the users ahead.** After any operations on a manager that end with its
setup complete, and for every producer or consumer of its first graph, if that graph has no
cycle: the manager answers that the users ahead have released or pre-released exactly when
every user strictly ahead, transitively, that has a category has `RELEASE`, `PRE_RELEASE` or
`RELEASE_STILLUSE`; and the acquire fence waits for exactly the points of the user's own acquire
fence and of the release fences of all users strictly ahead, with a category or without. -/
theorem waitsFor_priorUsers {ops : List Op} {os : List Unit} {α : Type*} {driver : SyncDriver}
    {points : ℤ → Set α} (hrun : Machine.Runs perform new ops m os) (hinit : m.mUserInit = true)
    (hg : m.mUserGroupGraph[0]? = some g) (hacyclic : ∀ a, ¬ TransGen g.Ahead a a)
    (hmem : u ∈ g.mUserVector.keys) (hu : m.queryUser_ u = some (p, usr))
    (hgroup : usr.mGroupIndex = 0) (hdriver : driver.Unites points) :
    (m.haveAllUsersReleasedOrPreReleased u = some .ok ↔
      ∀ v w, TransGen g.Ahead v u → m.userOf g v = some w → w.mCategory ≠ .none →
        PassedOn w.mUserStatus) ∧
    ∃ own fd, m.userOf g u = some own ∧ m.createAcquireFence driver u = some fd ∧
      ∀ x, x ∈ points fd ↔ x ∈ points own.mAcquireFence.mFenceFd ∨
        ∃ v w, TransGen g.Ahead v u ∧ m.userOf g v = some w ∧
          x ∈ points w.mReleaseFence.mFenceFd := by
  obtain ⟨result, before, own, hresult, hfound, hs⟩ :=
    (linked_of_runs hrun).exists_searched hg hacyclic hmem
  constructor
  · rw [haveAll_eq hinit hg hu hgroup hresult, hfound]
    have hiff : ((before ++ [own]).all fun pThisUser =>
        u == pThisUser.mUserId || pThisUser.mCategory == .none ||
          isReleasedOrPreReleased pThisUser) = true ↔
        ∀ v w, TransGen g.Ahead v u → m.userOf g v = some w → w.mCategory ≠ .none →
          PassedOn w.mUserStatus := by
      rw [List.all_eq_true]
      constructor
      · intro hall v w hpath hv hcat
        have hw : w ∈ before := (hs.ahead w).mpr ⟨v, hpath, hv⟩
        have hthis := hall w (List.mem_append_left _ hw)
        have hne : u ≠ w.mUserId := (hs.other w hw).symm
        rw [← isReleasedOrPreReleased_iff]
        simpa [hne, hcat] using hthis
      · intro hall w hw
        rcases List.mem_append.mp hw with hw | hw
        · obtain ⟨v, hpath, hv⟩ := (hs.ahead w).mp hw
          by_cases hcat : w.mCategory = .none
          · simp [hcat]
          · simp [isReleasedOrPreReleased_iff.mpr (hall v w hpath hv hcat)]
        · obtain rfl := List.mem_singleton.mp hw
          simp [hs.id]
    split
    · rename_i hall
      exact iff_of_true rfl (hiff.mp hall)
    · rename_i hall
      exact iff_of_false (by simp) (mt hiff.mpr hall)
  · refine ⟨own, _, hs.found, createAcquireFence_eq driver hinit hg hu hgroup hresult, fun x => ?_⟩
    rw [hfound, hdriver.mem_mergeFences hs.other hs.id]
    simp only [SyncDriver.Unites.pointsOf, Option.elim, Set.mem_empty_iff_false, false_or,
      hs.ahead]
    refine or_congr_right ⟨?_, ?_⟩
    · rintro ⟨w, ⟨v, hpath, hv⟩, hx⟩
      exact ⟨v, w, hpath, hv, hx⟩
    · rintro ⟨v, w, hpath, hv, hx⟩
      exact ⟨w, ⟨v, hpath, hv⟩, hx⟩

/-! ### An example -/

/-- A driver whose file descriptors are masks of points. -/
def maskDriver : SyncDriver where
  dup fd := fd
  sync_merge a b := ((a.toNat ||| b.toNat : ℕ) : ℤ)

def maskPoints (fd : ℤ) : Set ℕ := {i | fd.toNat.testBit i = true}

instance (fd : ℤ) (i : ℕ) : Decidable (i ∈ maskPoints fd) :=
  inferInstanceAs (Decidable (fd.toNat.testBit i = true))

theorem unites_maskDriver : maskDriver.Unites maskPoints where
  noFence := by
    ext i
    simp [maskPoints]
  dup _ := rfl
  sync_merge a b _ _ := by
    ext i
    simp [maskPoints, maskDriver]

def uncategorizedOps : List Op :=
  [.createGraph, .addUser 0 { mUserId := 1, mReleaseFence := 1, mCategory := .none },
    .addUser 0 { mUserId := 2, mAcquireFence := 2, mCategory := .consumer }, .addEdge 0 1 2,
    .enqueUserGraph 0, .finishUserSetup]

def uncategorizedGraph : MyUserGraph where
  mConsumerUsage := 0
  mGroupIndex := 0
  mUserVector := ⟨[(1, ⟨0, [], [2]⟩), (2, ⟨1, [1], []⟩)], by decide⟩

theorem ahead_uncategorizedGraph {a b : UserId} (h : uncategorizedGraph.Ahead a b) :
    a = 1 ∧ b = 2 := by
  obtain ⟨node, hnode, hmem⟩ := h
  rcases List.mem_cons.mp (KeyedVector.find?_eq_some_iff.mp hnode) with heq | hnode
  · cases heq
    cases hmem
  · obtain heq := List.mem_singleton.mp hnode
    cases heq
    exact ⟨List.mem_singleton.mp hmem, rfl⟩

theorem transGen_uncategorizedGraph {a b : UserId} (h : TransGen uncategorizedGraph.Ahead a b) :
    a = 1 ∧ b = 2 := by
  obtain ⟨c, hca, -⟩ := TransGen.head'_iff.mp h
  obtain ⟨d, -, hdb⟩ := TransGen.tail'_iff.mp h
  exact ⟨(ahead_uncategorizedGraph hca).1, (ahead_uncategorizedGraph hdb).2⟩

theorem acyclic_uncategorizedGraph (a : UserId) : ¬ TransGen uncategorizedGraph.Ahead a a := by
  intro h
  obtain ⟨h₁, h₂⟩ := transGen_uncategorizedGraph h
  exact absurd (h₁.symm.trans h₂) (by decide)

theorem exists_run_uncategorizedOps : ∃ m, Machine.Runs perform new uncategorizedOps m [] ∧
    m.mUserInit = true ∧ m.mUserGroupGraph[0]? = some uncategorizedGraph ∧
    m.queryUser_ 1 = none ∧ (∃ p usr, m.queryUser_ 2 = some (p, usr) ∧ usr.mGroupIndex = 0) ∧
    (∃ w, m.userOf uncategorizedGraph 1 = some w ∧ w.mCategory = .none) ∧
    (∃ w, m.userOf uncategorizedGraph 2 = some w ∧ w.mAcquireFence.mFenceFd = 2) ∧
    m.haveAllUsersReleasedOrPreReleased 1 = some .nameNotFound ∧
    m.createAcquireFence maskDriver 2 = some 3 := by
  have hrun : Machine.Runs perform new uncategorizedOps _ [] := Machine.runs_iff_run.mpr rfl
  exact ⟨_, hrun, rfl, rfl, rfl, ⟨_, _, rfl, rfl⟩, ⟨_, rfl, rfl⟩, ⟨_, rfl, rfl⟩, rfl, rfl⟩

/-- User 2 waits for nobody, and its fence for the release fence of user 1 too. -/
theorem waitsFor_priorUsers_uncategorized : ∃ m,
    Machine.Runs perform new uncategorizedOps m [] ∧
    m.haveAllUsersReleasedOrPreReleased 2 = some .ok ∧
    ∃ fd, m.createAcquireFence maskDriver 2 = some fd ∧ 0 ∈ maskPoints fd := by
  obtain ⟨m, hrun, hinit, hg, -, ⟨p, usr, hu, hgroup⟩, ⟨w, hw, hcat⟩, -, -, hfence⟩ :=
    exists_run_uncategorizedOps
  obtain ⟨hstatus, -⟩ := waitsFor_priorUsers hrun hinit hg acyclic_uncategorizedGraph
    (by decide) hu hgroup unites_maskDriver
  refine ⟨m, hrun, hstatus.mpr fun v w' hpath hw' hcat' => ?_, 3, hfence, by decide⟩
  obtain rfl := (transGen_uncategorizedGraph hpath).1
  obtain rfl := Option.some_inj.mp (hw.symm.trans hw')
  exact absurd hcat hcat'

/-- A user without a category gets no answer, though nobody is ahead of it, and its release
fence is merged into the acquire fence of a user behind it. -/
theorem priorUsers_uncategorized : ∃ m, Machine.Runs perform new uncategorizedOps m [] ∧
    m.mUserInit = true ∧ m.mUserGroupGraph[0]? = some uncategorizedGraph ∧
    (∀ a, ¬ TransGen uncategorizedGraph.Ahead a a) ∧
    ((∀ v, ¬ TransGen uncategorizedGraph.Ahead v 1) ∧
      m.haveAllUsersReleasedOrPreReleased 1 = some .nameNotFound) ∧
    maskDriver.Unites maskPoints ∧
    (∀ v w, TransGen uncategorizedGraph.Ahead v 2 → m.userOf uncategorizedGraph v = some w →
      w.mCategory = .none) ∧
    ∃ own, m.userOf uncategorizedGraph 2 = some own ∧
      0 ∉ maskPoints own.mAcquireFence.mFenceFd ∧
      ∃ fd, m.createAcquireFence maskDriver 2 = some fd ∧ 0 ∈ maskPoints fd := by
  obtain ⟨m, hrun, hinit, hg, -, -, ⟨w, hw, hcat⟩, ⟨own, hown, hacquire⟩, hnone, hfence⟩ :=
    exists_run_uncategorizedOps
  refine ⟨m, hrun, hinit, hg, acyclic_uncategorizedGraph, ⟨fun v h => ?_, hnone⟩,
    unites_maskDriver, fun v w' hpath hw' => ?_, own, hown, ?_, 3, hfence, by decide⟩
  · exact absurd (transGen_uncategorizedGraph h).2 (by decide)
  · obtain rfl := (transGen_uncategorizedGraph hpath).1
    obtain rfl := Option.some_inj.mp (hw.symm.trans hw')
    exact hcat
  · rw [hacquire]
    decide

end UsersManager

end MtkHardware.Pipeline
