import MtkHardware.Pipeline.UserGraph
import MtkHardware.Util.Run
import Mathlib.Data.Finset.Card

/-!
# Runs of a Users Manager

A manager may have several user graphs, and until the end of the setup users and edges come and
go in any order. Whatever the operations were, every graph is *linked*: a node of a graph points
to the object of its user, and an edge that one of its ends lists is listed by the other end too.
-/

namespace MtkHardware.Pipeline

open Relation

inductive UsersManager.Op
  | createGraph
  | addUser (groupIndex : ℕ) (usr : User)
  | addEdge (groupIndex : ℕ) (id_src id_dst : UserId)
  | removeUser (groupIndex : ℕ) (id : UserId)
  | removeEdge (groupIndex : ℕ) (id_src id_dst : UserId)
  | enqueUserGraph (groupIndex : ℕ)
  | finishUserSetup
  | reset
  | markUserStatus (userId : UserId) (statusMask : BitVec 32)
  | setUserReleaseFence (userId : UserId) (releaseFence : ℤ)

/-- One operation on a manager; the machine stops at a call that does not return. -/
def UsersManager.perform : Machine UsersManager UsersManager.Op Unit Blocked
  | m, .createGraph => .ok ((m.createGraph.map Prod.fst).getD m, [])
  | m, .addUser groupIndex usr => .ok ((m.addUser groupIndex usr).1, [])
  | m, .addEdge groupIndex id_src id_dst => .ok ((m.addEdge groupIndex id_src id_dst).1, [])
  | m, .removeUser groupIndex id =>
    match m.removeUser groupIndex id with
    | none => .error .blocked
    | some (m, _) => .ok (m, [])
  | m, .removeEdge groupIndex id_src id_dst =>
    .ok ((m.removeEdge groupIndex id_src id_dst).1, [])
  | m, .enqueUserGraph groupIndex => .ok (m.enqueUserGraph groupIndex, [])
  | m, .finishUserSetup => .ok (m.finishUserSetup, [])
  | m, .reset => .ok (m.reset, [])
  | m, .markUserStatus userId statusMask => .ok ((m.markUserStatus userId statusMask).1, [])
  | m, .setUserReleaseFence userId releaseFence =>
    .ok ((m.setUserReleaseFence userId releaseFence).1, [])

def idAt (heap : List MyUser) (p : UserPtr) : Option UserId := heap[p]?.map MyUser.mUserId

/-- A graph is **linked**: its nodes point to the objects of their users, and both ends of an
edge list it, once. -/
structure MyUserGraph.Linked (heap : List MyUser) (g : MyUserGraph) : Prop where
  user : ∀ v node, g.mUserVector.find? v = some node → idAt heap node.mMyUser = some v
  mirrored : g.Mirrored
  nodup : ∀ v node, g.mUserVector.find? v = some node → node.mIn.Nodup ∧ node.mOut.Nodup

def UsersManager.Linked (m : UsersManager) : Prop :=
  ∀ (k : ℕ) (g : MyUserGraph), m.mUserGroupGraph[k]? = some g → g.Linked m.heap

namespace MyUserGraph

variable {heap heap' : List MyUser} {g : MyUserGraph} {a b u v : UserId} {p : UserPtr}

theorem linked_empty (heap : List MyUser) (usage : BitVec 32) (k : ℕ) :
    Linked heap ⟨usage, k, .empty⟩ where
  user v node hv := by simp at hv
  mirrored a b := by
    constructor
    · rintro ⟨node, hnode, -⟩
      simp at hnode
    · rintro ⟨node, hnode, -⟩
      simp at hnode
  nodup v node hv := by simp at hv

theorem Linked.of_heap (h : g.Linked heap)
    (hheap : ∀ p v, idAt heap p = some v → idAt heap' p = some v) : g.Linked heap' where
  user v node hv := hheap _ _ (h.user v node hv)
  mirrored := h.mirrored
  nodup := h.nodup

theorem Linked.mem_keys (h : g.Linked heap) (hab : g.Ahead a b) :
    a ∈ g.mUserVector.keys ∧ b ∈ g.mUserVector.keys := by
  obtain ⟨node, hnode, -⟩ := (h.mirrored a b).mpr hab
  obtain ⟨node', hnode', -⟩ := hab
  exact ⟨KeyedVector.mem_keys_of_find? hnode, KeyedVector.mem_keys_of_find? hnode'⟩

theorem Linked.withUser (h : g.Linked heap) (hu : u ∉ g.mUserVector.keys)
    (hp : idAt heap p = some u) : (g.withUser u p).Linked heap where
  user v node hv := by
    rw [MyUserGraph.withUser, KeyedVector.find?_add] at hv
    split at hv
    · rename_i hvu
      obtain rfl := Option.some_inj.mp hv
      rw [hp, hvu]
    · exact h.user v node hv
  mirrored a b := by rw [behind_withUser hu, ahead_withUser hu, h.mirrored a b]
  nodup v node hv := by
    rw [MyUserGraph.withUser, KeyedVector.find?_add] at hv
    split at hv
    · obtain rfl := Option.some_inj.mp hv
      exact ⟨List.nodup_nil, List.nodup_nil⟩
    · exact h.nodup v node hv

theorem nodup_orderedInsert {l : List UserId} (hl : l.Nodup) (ha : a ∉ l) :
    (l.orderedInsert (· ≤ ·) a).Nodup :=
  (List.perm_orderedInsert _ a l).nodup_iff.mpr (List.nodup_cons.mpr ⟨ha, hl⟩)

theorem find?_withEdge (g : MyUserGraph) (u v w : UserId) :
    (g.withEdge u v).mUserVector.find? w = (g.mUserVector.find? w).map fun n =>
      { n with
        mIn := if w = v then n.mIn.orderedInsert (· ≤ ·) u else n.mIn
        mOut := if w = u then n.mOut.orderedInsert (· ≤ ·) v else n.mOut } := by
  rw [withEdge, KeyedVector.find?_modify, KeyedVector.find?_modify]
  by_cases hwv : w = v
  · by_cases hwu : w = u
    · rw [if_pos hwv, if_pos hwu, Option.map_map]
      simp [← hwv, ← hwu, Function.comp_def]
    · rw [if_pos hwv, if_neg hwu]
      simp [hwv, hwv ▸ hwu]
  · by_cases hwu : w = u
    · rw [if_neg hwv, if_pos hwu]
      simp [hwu, hwu ▸ hwv]
    · rw [if_neg hwv, if_neg hwu]
      simp [hwv, hwu]

theorem Linked.withEdge {src dst : UserNode} (h : g.Linked heap)
    (hsrc : g.mUserVector.find? u = some src) (hdst : g.mUserVector.find? v = some dst)
    (hout : v ∉ src.mOut) (hin : u ∉ dst.mIn) : (g.withEdge u v).Linked heap where
  user w node hw := by
    rw [find?_withEdge, Option.map_eq_some_iff] at hw
    obtain ⟨n, hn, rfl⟩ := hw
    exact h.user w n hn
  mirrored a b := by
    rw [behind_withEdge (KeyedVector.mem_keys_of_find? hsrc),
      ahead_withEdge (KeyedVector.mem_keys_of_find? hdst), h.mirrored a b]
  nodup w node hw := by
    rw [find?_withEdge, Option.map_eq_some_iff] at hw
    obtain ⟨n, hn, rfl⟩ := hw
    obtain ⟨hnin, hnout⟩ := h.nodup w n hn
    constructor
    · simp only
      split
      · rename_i hwv
        obtain rfl : n = dst := Option.some_inj.mp (hn.symm.trans (hwv ▸ hdst))
        exact nodup_orderedInsert hnin hin
      · exact hnin
    · simp only
      split
      · rename_i hwu
        obtain rfl : n = src := Option.some_inj.mp (hn.symm.trans (hwu ▸ hsrc))
        exact nodup_orderedInsert hnout hout
      · exact hnout

def withoutEdge (g : MyUserGraph) (u v : UserId) : MyUserGraph :=
  { g with mUserVector :=
      (g.mUserVector.modify u fun n => { n with mOut := n.mOut.erase v }).modify v fun n =>
        { n with mIn := n.mIn.erase u } }

theorem find?_withoutEdge (g : MyUserGraph) (u v w : UserId) :
    (g.withoutEdge u v).mUserVector.find? w = (g.mUserVector.find? w).map fun n =>
      { n with
        mIn := if w = v then n.mIn.erase u else n.mIn
        mOut := if w = u then n.mOut.erase v else n.mOut } := by
  rw [withoutEdge, KeyedVector.find?_modify, KeyedVector.find?_modify]
  by_cases hwv : w = v
  · by_cases hwu : w = u
    · rw [if_pos hwv, if_pos hwu, Option.map_map]
      simp [← hwv, ← hwu, Function.comp_def]
    · rw [if_pos hwv, if_neg hwu]
      simp [hwv, hwv ▸ hwu]
  · by_cases hwu : w = u
    · rw [if_neg hwv, if_pos hwu]
      simp [hwu, hwu ▸ hwv]
    · rw [if_neg hwv, if_neg hwu]
      simp [hwv, hwu]

theorem mem_ite_erase {l : List UserId} {c : Prop} [Decidable c] (hl : l.Nodup) :
    a ∈ (if c then l.erase b else l) ↔ a ∈ l ∧ ¬ (a = b ∧ c) := by
  split
  · rename_i hc
    rw [hl.mem_erase_iff, and_comm]
    simp [hc]
  · rename_i hc
    simp [hc]

theorem nodup_ite_erase {l : List UserId} {c : Prop} [Decidable c] (hl : l.Nodup) :
    (if c then l.erase b else l).Nodup := by
  split
  · exact hl.erase b
  · exact hl

theorem Linked.withoutEdge (h : g.Linked heap) (u v : UserId) :
    (g.withoutEdge u v).Linked heap where
  user w node hw := by
    rw [find?_withoutEdge, Option.map_eq_some_iff] at hw
    obtain ⟨n, hn, rfl⟩ := hw
    exact h.user w n hn
  mirrored a b := by
    have hbehind : (g.withoutEdge u v).Behind a b ↔ g.Behind a b ∧ ¬ (b = v ∧ a = u) := by
      rw [Behind, Behind, find?_withoutEdge]
      cases hn : g.mUserVector.find? a with
      | none => simp
      | some n => simp [mem_ite_erase (h.nodup a n hn).2]
    have hahead : (g.withoutEdge u v).Ahead a b ↔ g.Ahead a b ∧ ¬ (a = u ∧ b = v) := by
      rw [Ahead, Ahead, find?_withoutEdge]
      cases hn : g.mUserVector.find? b with
      | none => simp
      | some n => simp [mem_ite_erase (h.nodup b n hn).1]
    rw [hbehind, hahead, h.mirrored a b, and_comm (a := b = v)]
  nodup w node hw := by
    rw [find?_withoutEdge, Option.map_eq_some_iff] at hw
    obtain ⟨n, hn, rfl⟩ := hw
    exact ⟨nodup_ite_erase (h.nodup w n hn).1, nodup_ite_erase (h.nodup w n hn).2⟩

/-! ### Removing a user -/

theorem find?_editNodes {f : UserNode → UserNode} {ids : List UserId}
    {nodes nodes' : KeyedVector UserId UserNode} (hids : ids.Nodup)
    (h : UsersManager.editNodes f ids nodes = some nodes') (w : UserId) :
    nodes'.find? w = if w ∈ ids then (nodes.find? w).map f else nodes.find? w := by
  induction ids generalizing nodes with
  | nil =>
    obtain rfl := Option.some_inj.mp h
    simp
  | cons id ids ih =>
    rw [UsersManager.editNodes] at h
    split at h
    · cases h
    · obtain ⟨hid, hnd⟩ := List.nodup_cons.mp hids
      rw [ih hnd h, KeyedVector.find?_modify]
      by_cases hw : w = id
      · rw [hw, if_neg hid, if_pos rfl, if_pos List.mem_cons_self]
      · simp [hw]

/-- The graph after a user is removed: its node is gone, and so are its edges. -/
structure Without (g : MyUserGraph) (id : UserId) (g' : MyUserGraph) : Prop where
  find : ∀ w, g'.mUserVector.find? w = if w = id then none else
    (g.mUserVector.find? w).map fun n =>
      { n with mIn := n.mIn.erase id, mOut := n.mOut.erase id }

theorem Linked.without {g' : MyUserGraph} (h : g.Linked heap) (id : UserId)
    (hg' : Without g id g') : g'.Linked heap where
  user w node hw := by
    rw [hg'.find] at hw
    split at hw
    · cases hw
    · obtain ⟨n, hn, rfl⟩ := Option.map_eq_some_iff.mp hw
      exact h.user w n hn
  mirrored a b := by
    have hbehind : g'.Behind a b ↔ g.Behind a b ∧ a ≠ id ∧ b ≠ id := by
      rw [Behind, Behind, hg'.find]
      by_cases ha : a = id
      · simp [ha]
      · cases hn : g.mUserVector.find? a with
        | none => simp [ha]
        | some n => simp [ha, (h.nodup a n hn).2.mem_erase_iff, and_comm]
    have hahead : g'.Ahead a b ↔ g.Ahead a b ∧ a ≠ id ∧ b ≠ id := by
      rw [Ahead, Ahead, hg'.find]
      by_cases hb : b = id
      · simp [hb]
      · cases hn : g.mUserVector.find? b with
        | none => simp [hb]
        | some n => simp [hb, (h.nodup b n hn).1.mem_erase_iff, and_comm]
    rw [hbehind, hahead, h.mirrored a b]
  nodup w node hw := by
    rw [hg'.find] at hw
    split at hw
    · cases hw
    · obtain ⟨n, hn, rfl⟩ := Option.map_eq_some_iff.mp hw
      exact ⟨(h.nodup w n hn).1.erase id, (h.nodup w n hn).2.erase id⟩

/-- **The two loops** of `removeUser` take the edges of the user away from all other nodes. -/
theorem Linked.find?_removed {id : UserId} {node node' : UserNode}
    {nodes nodes' : KeyedVector UserId UserNode} (h : g.Linked heap)
    (hnode : g.mUserVector.find? id = some node)
    (hin : UsersManager.editNodes (fun n => { n with mOut := n.mOut.erase id }) node.mIn
      g.mUserVector = some nodes)
    (hnode' : nodes.find? id = some node')
    (hout : UsersManager.editNodes (fun n => { n with mIn := n.mIn.erase id }) node'.mOut nodes =
      some nodes') {w : UserId} (hw : w ≠ id) :
    nodes'.find? w = (g.mUserVector.find? w).map fun n =>
      { n with mIn := n.mIn.erase id, mOut := n.mOut.erase id } := by
  have hfind := find?_editNodes (h.nodup id node hnode).1 hin
  -- the second loop walks the out-going edges that are left
  have hmOut : node'.mOut = if id ∈ node.mIn then node.mOut.erase id else node.mOut := by
    have hid := hfind id
    rw [hnode', hnode] at hid
    split at hid <;> rename_i hmem <;> rw [Option.some_inj.mp hid] <;> simp [hmem]
  have hnd : node'.mOut.Nodup := hmOut ▸ nodup_ite_erase (h.nodup id node hnode).2
  have hmem : w ∈ node'.mOut ↔ w ∈ node.mOut := by
    rw [hmOut, mem_ite_erase (h.nodup id node hnode).2]
    simp [hw]
  rw [find?_editNodes hnd hout w, hfind w]
  cases hn : g.mUserVector.find? w with
  | none => simp
  | some n =>
    -- who lists the removed user is listed by it
    have hnIn : w ∈ node.mIn ↔ id ∈ n.mOut := by
      constructor
      · intro hwin
        obtain ⟨n', hn', hid⟩ := (h.mirrored w id).mpr ⟨node, hnode, hwin⟩
        rwa [Option.some_inj.mp (hn.symm.trans hn')]
      · intro hid
        obtain ⟨n', hn', hwin⟩ := (h.mirrored w id).mp ⟨n, hn, hid⟩
        rwa [Option.some_inj.mp (hnode.symm.trans hn')]
    have hnOut : w ∈ node'.mOut ↔ id ∈ n.mIn := by
      rw [hmem]
      constructor
      · intro hwout
        obtain ⟨n', hn', hid⟩ := (h.mirrored id w).mp ⟨node, hnode, hwout⟩
        rwa [Option.some_inj.mp (hn.symm.trans hn')]
      · intro hid
        obtain ⟨n', hn', hwout⟩ := (h.mirrored id w).mpr ⟨n, hn, hid⟩
        rwa [Option.some_inj.mp (hnode.symm.trans hn')]
    by_cases hi : id ∈ n.mIn <;> by_cases ho : id ∈ n.mOut <;>
      simp [hnIn, hnOut, hi, ho, List.erase_of_not_mem]

/-! ### The search returns -/

open Classical in
/-- The users strictly ahead of a user. -/
noncomputable def ancestors (g : MyUserGraph) (u : UserId) : Finset UserId :=
  g.mUserVector.keys.toFinset.filter fun a => TransGen g.Ahead a u

theorem mem_ancestors : a ∈ g.ancestors u ↔ a ∈ g.mUserVector.keys ∧ TransGen g.Ahead a u := by
  simp [ancestors]

theorem Linked.card_ancestors_lt (h : g.Linked heap) (hacyclic : ∀ a, ¬ TransGen g.Ahead a a)
    (hvu : g.Ahead v u) : (g.ancestors v).card < (g.ancestors u).card := by
  refine Finset.card_lt_card (Finset.ssubset_iff_subset_ne.mpr ⟨fun a ha => ?_, fun heq => ?_⟩)
  · obtain ⟨hkey, hpath⟩ := mem_ancestors.mp ha
    exact mem_ancestors.mpr ⟨hkey, hpath.tail hvu⟩
  · have hv : v ∈ g.ancestors u := mem_ancestors.mpr ⟨(h.mem_keys hvu).1, .single hvu⟩
    rw [← heq] at hv
    exact hacyclic v (mem_ancestors.mp hv).2

theorem Linked.exists_dfs {fuel : ℕ} (h : g.Linked heap)
    (hacyclic : ∀ a, ¬ TransGen g.Ahead a a) (hu : u ∈ g.mUserVector.keys)
    (hfuel : (g.ancestors u).card < fuel) : ∃ result, g.dfs fuel u = some result := by
  induction fuel generalizing u with
  | zero => exact absurd hfuel (Nat.not_lt_zero _)
  | succ fuel ih =>
    obtain ⟨node, hfind⟩ := KeyedVector.mem_keys_iff.mp hu
    have hsome : ∀ v ∈ node.mIn, ∃ result, g.dfs fuel v = some result := by
      intro v hv
      have hvu : g.Ahead v u := ⟨node, hfind, hv⟩
      have hlt := h.card_ancestors_lt hacyclic hvu
      exact ih (h.mem_keys hvu).1 (by omega)
    obtain ⟨results, hresults⟩ := exists_map_eq_map_some hsome
    exact ⟨_, dfs_succ_eq_some_iff.mpr ⟨node, results, hfind, hresults, rfl⟩⟩

/-- **The search returns** on every linked graph without a cycle. -/
theorem Linked.exists_getPriorUsers (h : g.Linked heap)
    (hacyclic : ∀ a, ¬ TransGen g.Ahead a a) (hu : u ∈ g.mUserVector.keys) :
    ∃ result, g.getPriorUsers u = some result := by
  refine h.exists_dfs hacyclic hu ?_
  -- the user itself is a node that is not ahead of it
  have hlt : (g.ancestors u).card < g.mUserVector.keys.toFinset.card := by
    refine Finset.card_lt_card (Finset.ssubset_iff_subset_ne.mpr
      ⟨fun a ha => List.mem_toFinset.mpr (mem_ancestors.mp ha).1, fun heq => ?_⟩)
    have hself : u ∈ g.ancestors u := heq ▸ List.mem_toFinset.mpr hu
    exact hacyclic u (mem_ancestors.mp hself).2
  rw [List.toFinset_card_of_nodup g.mUserVector.nodup_keys, KeyedVector.length_keys] at hlt
  exact hlt

end MyUserGraph

/-! ### Runs -/

namespace UsersManager

variable {m m' : UsersManager} {g : MyUserGraph} {u : UserId} {p : UserPtr} {k : ℕ}

theorem getElem?_editGraph (m : UsersManager) (k : ℕ) (f : MyUserGraph → MyUserGraph) (j : ℕ) :
    (m.editGraph k f).mUserGroupGraph[j]? =
      if k = j then m.mUserGroupGraph[j]?.map f else m.mUserGroupGraph[j]? := by
  rw [editGraph, List.getElem?_modify]
  split
  · rfl
  · simp

theorem Linked.editGraph {f : MyUserGraph → MyUserGraph} (h : m.Linked)
    (hf : ∀ g, m.mUserGroupGraph[k]? = some g → (f g).Linked m.heap) :
    (m.editGraph k f).Linked := by
  intro j g hg
  rw [getElem?_editGraph] at hg
  split at hg
  · rename_i hkj
    obtain ⟨g, hold, rfl⟩ := Option.map_eq_some_iff.mp hg
    exact hf g (hkj ▸ hold)
  · exact h j g hg

theorem Linked.of_heap (h : m.Linked) (hgraph : m'.mUserGroupGraph = m.mUserGroupGraph)
    (hheap : ∀ p v, idAt m.heap p = some v → idAt m'.heap p = some v) : m'.Linked := by
  intro k g hg
  rw [hgraph] at hg
  exact (h k g hg).of_heap hheap

theorem linked_createGraph (h : m.Linked) : ((m.createGraph.map Prod.fst).getD m).Linked := by
  rw [createGraph]
  split
  · exact h
  · intro k g hg
    simp only [Option.map_some, Option.getD_some] at hg ⊢
    rw [List.getElem?_append] at hg
    split at hg
    · exact h k g hg
    · obtain rfl := List.mem_singleton.mp (List.mem_of_getElem? hg)
      exact MyUserGraph.linked_empty _ _ _

theorem linked_addUser (h : m.Linked) (k : ℕ) (usr : User) : (m.addUser k usr).1.Linked := by
  rw [addUser]
  split
  · exact h
  · rename_i g hg
    split
    · exact h
    · rename_i hnew
      have hnode : usr.mUserId ∉ g.mUserVector.keys := by
        rw [← KeyedVector.find?_eq_none_iff]
        simpa using hnew
      have hheap : ∀ p v, idAt m.heap p = some v →
          idAt (m.heap ++ [MyUser.ofUser usr k]) p = some v := by
        intro p v hp
        obtain ⟨w, hw, rfl⟩ := Option.map_eq_some_iff.mp hp
        rw [idAt, List.getElem?_append_left (List.getElem?_eq_some_iff.mp hw).1, hw]
        rfl
      have hadd : ({ m with heap := m.heap ++ [MyUser.ofUser usr k] } : UsersManager).Linked :=
        h.of_heap rfl hheap
      refine hadd.editGraph fun g' hg' => ?_
      obtain rfl : g = g' := Option.some_inj.mp (hg.symm.trans hg')
      refine ((h k g hg).of_heap hheap).withUser hnode ?_
      simp [idAt, MyUser.ofUser]

theorem linked_addEdge (h : m.Linked) (k : ℕ) (id_src id_dst : UserId) :
    (m.addEdge k id_src id_dst).1.Linked := by
  rw [addEdge]
  split
  · exact h
  · rename_i g hg
    split
    · rename_i src dst hsrc hdst
      split
      · rename_i hnew
        refine h.editGraph fun g' hg' => ?_
        obtain rfl : g = g' := Option.some_inj.mp (hg.symm.trans hg')
        exact (h k g hg).withEdge hsrc hdst hnew.1 hnew.2
      · exact h
    · exact h

theorem linked_removeEdge (h : m.Linked) (k : ℕ) (id_src id_dst : UserId) :
    (m.removeEdge k id_src id_dst).1.Linked := by
  rw [removeEdge]
  split
  · exact h
  · rename_i g hg
    split
    · split
      · exact h
      · refine h.editGraph fun g' hg' => ?_
        obtain rfl : g = g' := Option.some_inj.mp (hg.symm.trans hg')
        exact (h k g hg).withoutEdge id_src id_dst
    · exact h

theorem linked_removeUser {id : UserId} {r : UsersManager × MERROR} (h : m.Linked)
    (hr : m.removeUser k id = some r) : r.1.Linked := by
  rw [removeUser] at hr
  split at hr
  · obtain rfl := Option.some_inj.mp hr
    exact h
  · rename_i g hg
    split at hr
    · obtain rfl := Option.some_inj.mp hr
      exact h
    · rename_i node hnode
      split at hr
      · cases hr
      · rename_i nodes hin
        split at hr
        · cases hr
        · rename_i node' hnode'
          split at hr
          · cases hr
          · rename_i nodes' hout
            obtain rfl := Option.some_inj.mp hr
            refine h.editGraph fun g' hg' => ?_
            obtain rfl : g = g' := Option.some_inj.mp (hg.symm.trans hg')
            refine (h k g hg).without id ⟨fun w => ?_⟩
            rw [KeyedVector.find?_remove]
            split
            · rfl
            · rename_i hw
              exact (h k g hg).find?_removed hnode hin hnode' hout hw

theorem linked_enqueUserGraph (h : m.Linked) (k : ℕ) : (m.enqueUserGraph k).Linked := by
  have huser : ∀ (m : UsersManager) (p : UserPtr), m.Linked → (m.enqueUser k p).Linked := by
    intro m p h
    rw [enqueUser]
    split
    · exact h
    · split
      · exact h
      · exact Linked.editGraph (m := { m with mConsumerMap := _ }) h
          fun g hg => ⟨(h k g hg).user, (h k g hg).mirrored, (h k g hg).nodup⟩
      · exact h
  have hfold : ∀ (ps : List UserPtr) (m : UsersManager), m.Linked →
      (ps.foldl (fun m p => m.enqueUser k p) m).Linked := by
    intro ps
    induction ps with
    | nil => exact fun m h => h
    | cons p ps ih => exact fun m h => ih _ (huser m p h)
  rw [enqueUserGraph]
  split
  · exact h
  · split
    · exact h
    · exact hfold _ m h

theorem Linked.editUser {f : MyUser → MyUser} (h : m.Linked) (p : UserPtr)
    (hf : ∀ usr, (f usr).mUserId = usr.mUserId) : (m.editUser p f).Linked := by
  refine h.of_heap rfl fun q v hq => ?_
  obtain ⟨w, hw, rfl⟩ := Option.map_eq_some_iff.mp hq
  rw [idAt, UsersManager.editUser, List.getElem?_modify, hw]
  split <;> simp [hf]

theorem linked_markBits (h : m.Linked) (mask : BitVec 32) (is : List ℕ) :
    (markBits u p mask is m).1.Linked := by
  induction is generalizing m with
  | nil => exact h
  | cons i is ih =>
    rw [markBits]
    split
    · exact h
    · split
      · exact ih h
      · split
        · exact ih h
        · have hedit : (m.editUser p fun user =>
              { user with mUserStatus := user.mUserStatus ||| BitVec.twoPow 32 i }).Linked :=
            h.editUser p fun _ => rfl
          simp only
          split
          · exact ih (m := { (m.editUser p _) with mProducerMap := _ }) hedit
          · exact ih (m := { (m.editUser p _) with mConsumerMap := _ }) hedit
          · exact hedit

theorem linked_markUserStatus (h : m.Linked) (u : UserId) (mask : BitVec 32) :
    (m.markUserStatus u mask).1.Linked := by
  rw [markUserStatus]
  split
  · exact h
  · split
    · exact h
    · exact linked_markBits h mask _

theorem linked_setUserReleaseFence (h : m.Linked) (u : UserId) (fence : ℤ) :
    (m.setUserReleaseFence u fence).1.Linked := by
  rw [setUserReleaseFence]
  split
  · exact h
  · split
    · exact h
    · split
      · exact h
      · exact h.editUser _ fun _ => rfl

theorem linked_perform {op : Op} {o : List Unit} (h : m.Linked)
    (hstep : perform m op = .ok (m', o)) : m'.Linked := by
  cases op with
  | removeUser k id =>
    rw [perform.eq_def] at hstep
    simp only at hstep
    split at hstep
    · cases hstep
    · rename_i r hr
      cases hstep
      exact linked_removeUser h hr
  | createGraph => cases hstep; exact linked_createGraph h
  | addUser k usr => cases hstep; exact linked_addUser h k usr
  | addEdge k a b => cases hstep; exact linked_addEdge h k a b
  | removeEdge k a b => cases hstep; exact linked_removeEdge h k a b
  | enqueUserGraph k => cases hstep; exact linked_enqueUserGraph h k
  | finishUserSetup => cases hstep; exact h
  | reset =>
    cases hstep
    intro k g hg
    simp [reset] at hg
  | markUserStatus u mask => cases hstep; exact linked_markUserStatus h u mask
  | setUserReleaseFence u fence => cases hstep; exact linked_setUserReleaseFence h u fence

/-- **Every graph is linked** after any operations on a new manager. -/
theorem linked_of_runs {ops : List Op} {os : List Unit}
    (h : Machine.Runs perform new ops m os) : m.Linked := by
  refine h.invariant (I := fun _ m _ => m.Linked) (fun k g hg => ?_) fun _ m _ op m' o hm hstep =>
    linked_perform hm hstep
  simp [new] at hg

end UsersManager

end MtkHardware.Pipeline
