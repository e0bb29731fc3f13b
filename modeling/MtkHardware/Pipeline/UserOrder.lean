import MtkHardware.Pipeline.UserStatus
import MtkHardware.Util.Lists
import Mathlib.Logic.Relation

/-!
# The Order of Users

A user may use a buffer only after the users ahead of it in the user graph. The manager
finds them with a depth-first search that keeps no visited set.
-/

namespace MtkHardware.Pipeline

open Relation

namespace MyUserGraph

variable {g : MyUserGraph} {fuel : ℕ} {u v w : UserId} {r : List UserPtr} {p : UserPtr}

/-- There is an edge from `v` to `u`. -/
def Ahead (g : MyUserGraph) (v u : UserId) : Prop :=
  ∃ node, g.mUserVector.find? u = some node ∧ v ∈ node.mIn

theorem dfs_succ_eq_some_iff :
    g.dfs (fuel + 1) u = some r ↔ ∃ node, ∃ results : List (List UserPtr),
      g.mUserVector.find? u = some node ∧ node.mIn.map (g.dfs fuel) = results.map some ∧
      r = results.flatten ++ [node.mMyUser] := by
  rw [dfs]
  cases hnode : g.mUserVector.find? u with
  | none => simp
  | some node =>
    cases hm : node.mIn.mapM (g.dfs fuel) with
    | none =>
      have hnone : ∀ results : List (List UserPtr),
          ¬ node.mIn.map (g.dfs fuel) = results.map some :=
        fun results h => by simp [mapM_eq_some_iff.mpr h] at hm
      simp [hm, hnone]
    | some results =>
      have hmap := mapM_eq_some_iff.mp hm
      simp only [hm, Option.some_inj]
      constructor
      · rintro rfl
        exact ⟨node, results, rfl, hmap, rfl⟩
      · rintro ⟨_, results', rfl, hmap', rfl⟩
        rw [hmap] at hmap'
        rw [List.map_injective_iff.mpr (Option.some_injective _) hmap']

theorem exists_node_of_dfs (h : g.dfs fuel u = some r) :
    ∃ node, g.mUserVector.find? u = some node := by
  cases fuel with
  | zero => cases h
  | succ fuel =>
    obtain ⟨node, -, hnode, -⟩ := dfs_succ_eq_some_iff.mp h
    exact ⟨node, hnode⟩

theorem dfs_of_ahead (h : g.dfs (fuel + 1) u = some r) (hv : g.Ahead v u) :
    ∃ r', g.dfs fuel v = some r' := by
  obtain ⟨node, results, hnode, hmap, -⟩ := dfs_succ_eq_some_iff.mp h
  obtain ⟨node', hnode', hmem⟩ := hv
  rw [hnode, Option.some_inj] at hnode'
  subst hnode'
  have hdfs : g.dfs fuel v ∈ results.map some := hmap ▸ List.mem_map_of_mem hmem
  obtain ⟨r', -, hr'⟩ := List.mem_map.mp hdfs
  exact ⟨r', hr'.symm⟩

/-- **The search** finds exactly the users from which its root is reached. -/
theorem mem_dfs_iff (h : g.dfs fuel u = some r) :
    p ∈ r ↔ ∃ v node, ReflTransGen g.Ahead v u ∧ g.mUserVector.find? v = some node ∧
      node.mMyUser = p := by
  induction fuel generalizing u r with
  | zero => cases h
  | succ fuel ih =>
    obtain ⟨node, results, hnode, hmap, rfl⟩ := dfs_succ_eq_some_iff.mp h
    rw [List.mem_append, List.mem_flatten, List.mem_singleton]
    constructor
    · rintro (⟨r', hr', hp⟩ | rfl)
      · have hmem : some r' ∈ node.mIn.map (g.dfs fuel) :=
          hmap ▸ List.mem_map_of_mem hr'
        obtain ⟨w, hw, hdfs⟩ := List.mem_map.mp hmem
        obtain ⟨v, node', hreach, hnode', hptr⟩ := (ih hdfs).mp hp
        exact ⟨v, node', hreach.tail ⟨node, hnode, hw⟩, hnode', hptr⟩
      · exact ⟨u, node, .refl, hnode, rfl⟩
    · rintro ⟨v, node', hreach, hnode', rfl⟩
      rcases hreach.cases_tail with rfl | ⟨w, hvw, hwu⟩
      · rw [hnode, Option.some_inj] at hnode'
        exact .inr (by rw [hnode'])
      · obtain ⟨node'', hnode'', hw⟩ := hwu
        rw [hnode, Option.some_inj] at hnode''
        subst hnode''
        have hdfs : g.dfs fuel w ∈ results.map some := hmap ▸ List.mem_map_of_mem hw
        obtain ⟨r', hr', hdfs⟩ := List.mem_map.mp hdfs
        exact .inl ⟨r', hr', (ih hdfs.symm).mpr ⟨v, node', hvw, hnode', rfl⟩⟩

theorem dfs_of_transGen (hv : TransGen g.Ahead v u) (h : g.dfs fuel u = some r) :
    ∃ fuel' < fuel, ∃ r', g.dfs fuel' v = some r' := by
  induction hv using TransGen.head_induction_on with
  | single hvu =>
    cases fuel with
    | zero => cases h
    | succ fuel => exact ⟨fuel, Nat.lt_succ_self _, dfs_of_ahead h hvu⟩
  | head hvw _ ih =>
    obtain ⟨fuel', hlt, r', hdfs⟩ := ih
    cases fuel' with
    | zero => cases hdfs
    | succ fuel' =>
      exact ⟨fuel', by omega, dfs_of_ahead hdfs hvw⟩

/-- A search that returns has **no cycle** through its root. -/
theorem not_transGen_of_dfs (h : g.dfs fuel u = some r) : ¬ TransGen g.Ahead u u := by
  intro hcycle
  induction fuel using Nat.strong_induction_on generalizing r with
  | _ fuel ih =>
    obtain ⟨fuel', hlt, r', hdfs⟩ := dfs_of_transGen hcycle h
    exact ih fuel' hlt hdfs

end MyUserGraph

namespace UsersManager

variable {m m' : UsersManager} {u v : UserId} {p : UserPtr}

/-- User `v` is **directly ahead** of `u` in the user graph of the buffer. -/
def Ahead (m : UsersManager) (v u : UserId) : Prop :=
  ∃ g, m.mUserGroupGraph[0]? = some g ∧ g.Ahead v u

/-- The user graph **shares** its user objects with the maps. -/
def Shared (m : UsersManager) : Prop :=
  ∀ g, m.mUserGroupGraph[0]? = some g → ∀ v node, g.mUserVector.find? v = some node →
    ∃ usr, m.heap[node.mMyUser]? = some usr ∧ usr.mUserId = v ∧
      ∀ p, m.UserAt v p → p = node.mMyUser

theorem SameUsers.ahead (h : SameUsers m m') : m'.Ahead = m.Ahead := by
  funext v u
  rw [Ahead, Ahead, h.graph]

theorem Shared.of_sameUsers (h : m.Shared) (hsame : SameUsers m m') : m'.Shared := by
  intro g hg v node hnode
  rw [hsame.graph] at hg
  obtain ⟨usr, hp, hid, hat⟩ := h g hg v node hnode
  have hheap := hsame.heap node.mMyUser
  rw [hp, Option.map_some, Option.map_eq_some_iff] at hheap
  obtain ⟨usr', hp', heq⟩ := hheap
  refine ⟨usr', hp', (congrArg Prod.fst heq).trans hid, fun p hp => ?_⟩
  exact hat p (hsame.userAt.mp hp)

def PassedOn (status : BitVec 32) : Prop :=
  status &&& UserStatus.release ≠ 0 ∨ status &&& UserStatus.releaseStillUse ≠ 0 ∨
    status &&& UserStatus.preRelease ≠ 0

/-- **Users ahead**: when the manager answers `OK` for `u`, then `u` is a user, and every
producer or consumer ahead of it, transitively, has passed the buffer on. -/
theorem passedOn_of_ahead (h : m.Coherent) (hshared : m.Shared)
    (hok : m.haveAllUsersReleasedOrPreReleased u = some .ok) :
    m.HasRole u ∧ ∀ v, m.HasRole v → TransGen m.Ahead v u →
      PassedOn (m.getUserStatus v) := by
  rw [haveAllUsersReleasedOrPreReleased] at hok
  simp only [h.init, Bool.not_true, Bool.false_eq_true, if_false] at hok
  split at hok
  · cases hok
  · rename_i p usr hquery
    refine ⟨hasRole_iff.mpr ⟨p, (h.queryUser_eq_some_iff.mp hquery).1⟩, ?_⟩
    split at hok
    · split at hok
      · cases hok
      · rename_i g hg
        split at hok
        · cases hok
        · rename_i result hprior
          split at hok
          · rename_i hall
            intro v hv hahead
            have hahead' : TransGen g.Ahead v u :=
              TransGen.mono (fun a b ⟨g', hg', hab⟩ =>
                Option.some_inj.mp (hg'.symm.trans hg) ▸ hab) _ _ hahead
            -- the search visits `v`, so `v` has a node, with the object of the maps
            obtain ⟨fuel', -, r', hdfs⟩ := MyUserGraph.dfs_of_transGen hahead' hprior
            obtain ⟨node, hnode⟩ := MyUserGraph.exists_node_of_dfs hdfs
            obtain ⟨usr', hp', hid, hptr⟩ := hshared g hg v node hnode
            obtain ⟨q, hat⟩ := hasRole_iff.mp hv
            have hmem : usr' ∈ result.filterMap (m.heap[·]?) :=
              List.mem_filterMap.mpr ⟨node.mMyUser,
                (MyUserGraph.mem_dfs_iff hprior).mpr
                  ⟨v, node, hahead'.to_reflTransGen, hnode, rfl⟩, hp'⟩
            have hthis := List.all_eq_true.mp hall usr' hmem
            have hne : u ≠ usr'.mUserId := fun heq =>
              MyUserGraph.not_transGen_of_dfs hprior (by rwa [← hid, ← heq] at hahead')
            have hcat : usr'.mCategory ≠ .none := by
              rw [hptr q hat] at hat
              rcases hat with hat | hat
              · obtain ⟨x, hx, -, hcat, -⟩ := h.producer.user v _ hat
                simp [← Option.some_inj.mp (hx.symm.trans hp'), hcat]
              · obtain ⟨x, hx, -, hcat, -⟩ := h.consumer.user v _ hat
                simp [← Option.some_inj.mp (hx.symm.trans hp'), hcat]
            have hstatus : m.getUserStatus v = usr'.mUserStatus := by
              rw [h.getUserStatus_eq hat, hptr q hat, statusAt, hp']
              rfl
            rw [hstatus, PassedOn]
            simpa [hne, hcat, isReleasedOrPreReleased, or_assoc] using hthis
          · cases hok
    · cases hok

end UsersManager

end MtkHardware.Pipeline
