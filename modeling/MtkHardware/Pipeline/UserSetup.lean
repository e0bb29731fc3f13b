import MtkHardware.Pipeline.FrameConfig
import MtkHardware.Pipeline.UserOrder

/-!
# Users of a Configured Buffer

`evaluate_buffer_users` leaves every buffer with a coherent users manager: a node is a
producer of the buffer if it has the stream among its outputs, and a consumer if it has
it among its inputs only.
-/

namespace MtkHardware.Pipeline

namespace UsersManager

variable {mk : UserId → User} {m : UsersManager} {g : MyUserGraph} {u v : UserId}

/-- A manager **in setup**: one graph, whose users are made by `mk`, and empty maps. -/
structure Setup (mk : UserId → User) (m : UsersManager) (g : MyUserGraph) : Prop where
  init : m.mUserInit = false
  graph : m.mUserGroupGraph = [g]
  producer : m.mProducerMap = .clear
  consumer : m.mConsumerMap = .clear
  user : ∀ v node, g.mUserVector.find? v = some node →
    m.heap[node.mMyUser]? = some (MyUser.ofUser (mk v) 0)

theorem setup_new (mk : UserId → User) :
    Setup mk { new with mUserGroupGraph := [⟨0, 0, .empty⟩] } ⟨0, 0, .empty⟩ :=
  ⟨rfl, rfl, rfl, rfl, fun v node hv => by simp at hv⟩

theorem Setup.addUser (h : Setup mk m g) (u : UserId) (hid : (mk u).mUserId = u) :
    ∃ g', Setup mk (m.addUser 0 (mk u)).1 g' ∧
      ∀ v, v ∈ g'.mUserVector.keys ↔ v = u ∨ v ∈ g.mUserVector.keys := by
  have hget : m.mUserGroupGraph[0]? = some g := by simp [h.graph]
  rw [UsersManager.addUser]
  simp only [hget, hid]
  cases hfind : g.mUserVector.find? u with
  | some node =>
    refine ⟨g, h, fun v => ⟨.inr, ?_⟩⟩
    rintro (rfl | hv)
    · exact KeyedVector.mem_keys_of_find? hfind
    · exact hv
  | none =>
    refine ⟨{ g with mUserVector := g.mUserVector.add u ⟨m.heap.length, [], []⟩ },
      ⟨h.init, by simp [editGraph, h.graph], h.producer, h.consumer, fun v node hv => ?_⟩,
      fun v => KeyedVector.mem_keys_add⟩
    rw [KeyedVector.find?_add] at hv
    split at hv
    · rename_i hvu
      obtain rfl := Option.some_inj.mp hv
      simp [editGraph, hvu]
    · have hold := h.user v node hv
      have hlt : node.mMyUser < m.heap.length := (List.getElem?_eq_some_iff.mp hold).1
      simpa [editGraph, List.getElem?_append_left hlt] using hold

theorem Setup.addEdge (h : Setup mk m g) (u v : UserId) :
    ∃ g', Setup mk (m.addEdge 0 u v).1 g' ∧
      ∀ w, w ∈ g'.mUserVector.keys ↔ w ∈ g.mUserVector.keys := by
  have hget : m.mUserGroupGraph[0]? = some g := by simp [h.graph]
  rw [UsersManager.addEdge]
  simp only [hget]
  cases hsrc : g.mUserVector.find? u with
  | none => exact ⟨g, h, fun _ => .rfl⟩
  | some src =>
    cases hdst : g.mUserVector.find? v with
    | none => exact ⟨g, h, fun _ => .rfl⟩
    | some dst =>
      simp only
      split
      · refine ⟨{ g with mUserVector :=
            (g.mUserVector.modify u fun n =>
              { n with mOut := n.mOut.orderedInsert (· ≤ ·) v }).modify v fun n =>
              { n with mIn := n.mIn.orderedInsert (· ≤ ·) u } },
          ⟨h.init, by simp [editGraph, h.graph], h.producer, h.consumer,
            fun w node hw => ?_⟩, fun w => by simp⟩
        -- the objects of the nodes stay where they are
        rw [KeyedVector.find?_modify, KeyedVector.find?_modify] at hw
        cases hold : g.mUserVector.find? w with
        | none => simp [hold] at hw
        | some n =>
          have hptr : node.mMyUser = n.mMyUser := by
            rw [hold] at hw
            split at hw <;> split at hw <;> simp at hw <;> rw [← hw]
          simpa [editGraph, hptr] using h.user w n hold
      · exact ⟨g, h, fun _ => .rfl⟩

theorem Setup.addUsers (hid : ∀ u, (mk u).mUserId = u) (us : List UserId)
    (h : Setup mk m g) :
    ∃ g', Setup mk (us.foldl (fun m u => (m.addUser 0 (mk u)).1) m) g' ∧
      ∀ v, v ∈ g'.mUserVector.keys ↔ v ∈ us ∨ v ∈ g.mUserVector.keys := by
  induction us generalizing m g with
  | nil => exact ⟨g, h, fun v => by simp⟩
  | cons u us ih =>
    obtain ⟨g₁, h₁, hkeys₁⟩ := h.addUser u (hid u)
    obtain ⟨g', h', hkeys⟩ := ih h₁
    refine ⟨g', h', fun v => ?_⟩
    rw [hkeys v, hkeys₁ v, List.mem_cons]
    exact or_left_comm.trans or_assoc.symm

theorem Setup.addEdges (es : List (UserId × UserId)) (h : Setup mk m g) :
    ∃ g', Setup mk (es.foldl (fun m e => (m.addEdge 0 e.1 e.2).1) m) g' ∧
      ∀ v, v ∈ g'.mUserVector.keys ↔ v ∈ g.mUserVector.keys := by
  induction es generalizing m g with
  | nil => exact ⟨g, h, fun _ => .rfl⟩
  | cons e es ih =>
    obtain ⟨g₁, h₁, hkeys₁⟩ := h.addEdge e.1 e.2
    obtain ⟨g', h', hkeys⟩ := ih h₁
    exact ⟨g', h', fun v => (hkeys v).trans (hkeys₁ v)⟩

/-! ### Enqueuing the graph -/

/-- A manager whose graph is **enqueued** up to some entries: their users are in the maps
of their categories, and no status is counted. -/
structure Enqueued (mk : UserId → User) (heap : List MyUser) (g : MyUserGraph)
    (done : List (UserId × UserNode)) (m : UsersManager) : Prop where
  heap_eq : m.heap = heap
  graph : ∃ usage, m.mUserGroupGraph = [{ g with mConsumerUsage := usage }]
  producer : ∀ u p, m.mProducerMap.users.find? u = some p ↔
    ∃ node, (u, node) ∈ done ∧ node.mMyUser = p ∧ (mk u).mCategory = .producer
  consumer : ∀ u p, m.mConsumerMap.users.find? u = some p ↔
    ∃ node, (u, node) ∈ done ∧ node.mMyUser = p ∧ (mk u).mCategory = .consumer
  producerBits : ∀ i S, m.mProducerMap.bitSet i = some S → S = .clear
  consumerBits : ∀ i S, m.mConsumerMap.bitSet i = some S → S = .clear

theorem bitSet_clear {i : ℕ} {S : BitSet32} (h : MyUserMap.clear.bitSet i = some S) :
    S = .clear := by
  rcases i with _ | _ | _ | _ | _ | i <;> simp [MyUserMap.bitSet, MyUserMap.clear] at h <;>
    exact h.symm

/-- Membership of a user among entries to which one is appended, when that one is the
user's only entry. -/
theorem exists_mem_append_iff {done : List (UserId × UserNode)} {node : UserNode}
    {p : UserPtr} {c : Prop} (hnew : ∀ n, (u, n) ∉ done) :
    (∃ n, (v, n) ∈ done ++ [(u, node)] ∧ n.mMyUser = p ∧ c) ↔
      if v = u then node.mMyUser = p ∧ c else ∃ n, (v, n) ∈ done ∧ n.mMyUser = p ∧ c := by
  split
  · rename_i hvu
    subst hvu
    constructor
    · rintro ⟨n, hmem, hrest⟩
      rcases List.mem_append.mp hmem with hmem | hmem
      · exact absurd hmem (hnew n)
      · obtain rfl : n = node := by simpa using hmem
        exact hrest
    · exact fun hrest => ⟨node, by simp, hrest⟩
  · rename_i hvu
    simp [hvu]

theorem Enqueued.enqueueUser {heap : List MyUser} {done : List (UserId × UserNode)}
    {node : UserNode} (h : Enqueued mk heap g done m) (hid : (mk u).mUserId = u)
    (hnew : ∀ n, (u, n) ∉ done)
    (hptr : heap[node.mMyUser]? = some (MyUser.ofUser (mk u) 0)) :
    Enqueued mk heap g (done ++ [(u, node)]) (m.enqueUser 0 node.mMyUser) := by
  obtain ⟨usage, hgraph⟩ := h.graph
  have hptr' : m.heap[node.mMyUser]? = some (MyUser.ofUser (mk u) 0) := h.heap_eq ▸ hptr
  rw [enqueUser]
  simp only [hptr']
  cases hcat : (mk u).mCategory with
  | producer =>
    simp only [MyUser.ofUser, hcat, hid]
    refine ⟨h.heap_eq, ⟨usage, hgraph⟩, fun v p => ?_, fun v p => ?_, ?_, h.consumerBits⟩
    · rw [KeyedVector.find?_add, exists_mem_append_iff hnew, ← h.producer]
      split <;> simp_all
    · rw [h.consumer, exists_mem_append_iff hnew]
      split
      · rename_i hvu
        subst hvu
        simp [hcat]
      · rfl
    · intro i S hS
      exact h.producerBits i S (by rcases i with _ | _ | _ | _ | _ | i <;> exact hS)
  | consumer =>
    simp only [MyUser.ofUser, hcat, hid]
    refine ⟨h.heap_eq, ⟨usage ||| (mk u).mUsage, by simp [editGraph, hgraph]⟩,
      fun v p => ?_, fun v p => ?_, h.producerBits, ?_⟩
    · simp only [editGraph]
      rw [h.producer, exists_mem_append_iff hnew]
      split
      · rename_i hvu
        subst hvu
        simp [hcat]
      · rfl
    · simp only [editGraph]
      rw [KeyedVector.find?_add, exists_mem_append_iff hnew, ← h.consumer]
      split <;> simp_all
    · intro i S hS
      exact h.consumerBits i S (by rcases i with _ | _ | _ | _ | _ | i <;> exact hS)
  | none =>
    simp only [MyUser.ofUser, hcat]
    refine ⟨h.heap_eq, ⟨usage, hgraph⟩, fun v p => ?_, fun v p => ?_, h.producerBits,
      h.consumerBits⟩
    · rw [h.producer, exists_mem_append_iff hnew]
      split
      · rename_i hvu
        subst hvu
        simp [hcat]
      · rfl
    · rw [h.consumer, exists_mem_append_iff hnew]
      split
      · rename_i hvu
        subst hvu
        simp [hcat]
      · rfl

theorem Enqueued.foldl {heap : List MyUser} {done : List (UserId × UserNode)}
    (rest : List (UserId × UserNode)) (hid : ∀ u, (mk u).mUserId = u)
    (h : Enqueued mk heap g done m)
    (hnodup : ((done ++ rest).map Prod.fst).Nodup)
    (hptr : ∀ e ∈ rest, heap[e.2.mMyUser]? = some (MyUser.ofUser (mk e.1) 0)) :
    Enqueued mk heap g (done ++ rest)
      ((rest.map fun e => e.2.mMyUser).foldl (fun m p => m.enqueUser 0 p) m) := by
  induction rest generalizing done m with
  | nil => simpa using h
  | cons e rest ih =>
    have hnew : ∀ n, (e.1, n) ∉ done := fun n hmem => by
      rw [List.map_append, List.nodup_append] at hnodup
      exact hnodup.2.2 e.1 (List.mem_map.mpr ⟨_, hmem, rfl⟩) e.1 (by simp) rfl
    have h₁ := h.enqueueUser (hid e.1) hnew (hptr e List.mem_cons_self)
    rw [List.append_cons] at hnodup ⊢
    exact ih h₁ hnodup fun e' he' => hptr e' (List.mem_cons_of_mem _ he')

theorem Setup.enqueueGraph (h : Setup mk m g) (hid : ∀ u, (mk u).mUserId = u) :
    Enqueued mk m.heap g g.mUserVector.entries (m.enqueUserGraph 0) := by
  have hstart : Enqueued mk m.heap g [] m := by
    refine ⟨rfl, ⟨g.mConsumerUsage, h.graph⟩, fun u p => ?_, fun u p => ?_, fun i S hS => ?_,
      fun i S hS => ?_⟩
    · simp [h.producer, MyUserMap.clear]
    · simp [h.consumer, MyUserMap.clear]
    · exact bitSet_clear (h.producer ▸ hS)
    · exact bitSet_clear (h.consumer ▸ hS)
  have hfold := hstart.foldl g.mUserVector.entries hid
    g.mUserVector.nodup_keys
    fun e he => h.user e.1 e.2 (KeyedVector.find?_eq_some_iff.mpr he)
  rw [enqueUserGraph]
  simp only [h.init, h.graph, Bool.false_eq_true, if_false, List.getElem?_cons_zero]
  simpa using hfold

theorem coherent_map {heap : List MyUser} {category : Category} {map : MyUserMap}
    (hid : ∀ u, (mk u).mUserId = u)
    (hptr : ∀ e ∈ g.mUserVector.entries,
      heap[e.2.mMyUser]? = some (MyUser.ofUser (mk e.1) 0))
    (husers : ∀ u p, map.users.find? u = some p ↔
      ∃ node, (u, node) ∈ g.mUserVector.entries ∧ node.mMyUser = p ∧
        (mk u).mCategory = category)
    (hbits : ∀ i S, map.bitSet i = some S → S = .clear) :
    map.Coherent heap category := by
  refine ⟨fun u p hu => ?_, fun i S hS k => ?_⟩
  · obtain ⟨node, hmem, rfl, hcat⟩ := (husers u p).mp hu
    exact ⟨_, hptr _ hmem, hid u, hcat, rfl⟩
  · rw [hbits i S hS, BitSet32.hasBit_clear]
    refine iff_of_false Bool.false_ne_true ?_
    rintro ⟨-, e, he, hbit⟩
    have hfind := KeyedVector.find?_eq_some_iff.mpr (List.mem_of_getElem? he)
    obtain ⟨node, hmem, hp, -⟩ := (husers e.1 e.2).mp hfind
    have hzero : statusAt heap e.2 = 0 := by
      rw [statusAt, ← hp, hptr _ hmem]
      rfl
    simp [hzero] at hbit

/-- The manager of a completed setup is **coherent**, shares its objects, and has the
users of each category of the graph in the map of that category. -/
theorem Setup.finish (h : Setup mk m g) (hid : ∀ u, (mk u).mUserId = u) :
    (m.enqueUserGraph 0).finishUserSetup.Coherent ∧
      (m.enqueUserGraph 0).finishUserSetup.Shared ∧
      (∀ u, u ∈ (m.enqueUserGraph 0).finishUserSetup.producers ↔
        u ∈ g.mUserVector.keys ∧ (mk u).mCategory = .producer) ∧
      (∀ u, u ∈ (m.enqueUserGraph 0).finishUserSetup.consumers ↔
        u ∈ g.mUserVector.keys ∧ (mk u).mCategory = .consumer) ∧
      ∀ u, (m.enqueUserGraph 0).finishUserSetup.getUserStatus u = 0 := by
  have henq := h.enqueueGraph hid
  obtain ⟨usage, hgraph⟩ := henq.graph
  have hptr : ∀ e ∈ g.mUserVector.entries,
      (m.enqueUserGraph 0).heap[e.2.mMyUser]? = some (MyUser.ofUser (mk e.1) 0) :=
    fun e he => henq.heap_eq ▸ h.user e.1 e.2 (KeyedVector.find?_eq_some_iff.mpr he)
  have hproducers : ∀ u, u ∈ (m.enqueUserGraph 0).finishUserSetup.producers ↔
      u ∈ g.mUserVector.keys ∧ (mk u).mCategory = .producer := by
    intro u
    rw [producers, KeyedVector.mem_keys_iff, KeyedVector.mem_keys_iff]
    constructor
    · rintro ⟨p, hp⟩
      obtain ⟨node, hmem, -, hcat⟩ := (henq.producer u p).mp hp
      exact ⟨⟨node, KeyedVector.find?_eq_some_iff.mpr hmem⟩, hcat⟩
    · rintro ⟨⟨node, hnode⟩, hcat⟩
      exact ⟨node.mMyUser, (henq.producer u _).mpr
        ⟨node, KeyedVector.find?_eq_some_iff.mp hnode, rfl, hcat⟩⟩
  have hconsumers : ∀ u, u ∈ (m.enqueUserGraph 0).finishUserSetup.consumers ↔
      u ∈ g.mUserVector.keys ∧ (mk u).mCategory = .consumer := by
    intro u
    rw [consumers, KeyedVector.mem_keys_iff, KeyedVector.mem_keys_iff]
    constructor
    · rintro ⟨p, hp⟩
      obtain ⟨node, hmem, -, hcat⟩ := (henq.consumer u p).mp hp
      exact ⟨⟨node, KeyedVector.find?_eq_some_iff.mpr hmem⟩, hcat⟩
    · rintro ⟨⟨node, hnode⟩, hcat⟩
      exact ⟨node.mMyUser, (henq.consumer u _).mpr
        ⟨node, KeyedVector.find?_eq_some_iff.mp hnode, rfl, hcat⟩⟩
  have hcoh : (m.enqueUserGraph 0).finishUserSetup.Coherent := by
    refine ⟨rfl, by simp [finishUserSetup, hgraph],
      coherent_map hid hptr henq.producer henq.producerBits,
      coherent_map hid hptr henq.consumer henq.consumerBits, fun u hp hc => ?_⟩
    have hcat := ((hproducers u).mp hp).2
    rw [((hconsumers u).mp hc).2] at hcat
    cases hcat
  refine ⟨hcoh, ?_, hproducers, hconsumers, fun u => ?_⟩
  · intro g' hg' v node hnode
    rw [finishUserSetup, hgraph, List.getElem?_cons_zero, Option.some_inj] at hg'
    subst hg'
    have hmem := KeyedVector.find?_eq_some_iff.mp hnode
    refine ⟨_, hptr _ hmem, hid v, fun p hp => ?_⟩
    rcases hp with hp | hp
    · obtain ⟨node', hmem', rfl, -⟩ := (henq.producer v p).mp hp
      rw [KeyedVector.find?_eq_some_iff.mpr hmem', Option.some_inj] at hnode
      rw [hnode]
    · obtain ⟨node', hmem', rfl, -⟩ := (henq.consumer v p).mp hp
      rw [KeyedVector.find?_eq_some_iff.mpr hmem', Option.some_inj] at hnode
      rw [hnode]
  · by_cases hrole : (m.enqueUserGraph 0).finishUserSetup.HasRole u
    · obtain ⟨p, hat⟩ := hasRole_iff.mp hrole
      have hnode : ∃ node, (u, node) ∈ g.mUserVector.entries ∧ node.mMyUser = p := by
        rcases hat with hat | hat
        · obtain ⟨node, hmem, hp, -⟩ := (henq.producer u p).mp hat
          exact ⟨node, hmem, hp⟩
        · obtain ⟨node, hmem, hp, -⟩ := (henq.consumer u p).mp hat
          exact ⟨node, hmem, hp⟩
      obtain ⟨node, hmem, rfl⟩ := hnode
      rw [hcoh.getUserStatus_eq hat, statusAt, finishUserSetup, hptr _ hmem]
      rfl
    · exact hcoh.getUserStatus_of_not_hasRole hrole

end UsersManager

namespace FrameConfig

variable (cfg : FrameConfig) (i : ItemId)

theorem evaluateBufferUsers_spec :
    (cfg.evaluateBufferUsers i).Coherent ∧ (cfg.evaluateBufferUsers i).Shared ∧
      (∀ u, u ∈ (cfg.evaluateBufferUsers i).producers ↔
        u ∈ cfg.toposort ∧ cfg.refineUser i u = .producer) ∧
      (∀ u, u ∈ (cfg.evaluateBufferUsers i).consumers ↔
        u ∈ cfg.toposort ∧ cfg.refineUser i u = .consumer) ∧
      ∀ u, (cfg.evaluateBufferUsers i).getUserStatus u = 0 := by
  have hid : ∀ u, (cfg.makeUser i u).mUserId = u := fun _ => rfl
  obtain ⟨g₁, h₁, hkeys₁⟩ := (UsersManager.setup_new _).addUsers hid cfg.toposort
  obtain ⟨g₂, h₂, hkeys₂⟩ := h₁.addEdges cfg.edges
  obtain ⟨hcoh, hshared, hprod, hcons, hstatus⟩ := h₂.finish hid
  have hmem : ∀ u, u ∈ g₂.mUserVector.keys ↔ u ∈ cfg.toposort := fun u => by
    rw [hkeys₂, hkeys₁]
    simp
  simp only [hmem] at hprod hcons
  exact ⟨hcoh, hshared, hprod, hcons, hstatus⟩

theorem coherent_evaluateBufferUsers : (cfg.evaluateBufferUsers i).Coherent :=
  (cfg.evaluateBufferUsers_spec i).1

theorem shared_evaluateBufferUsers : (cfg.evaluateBufferUsers i).Shared :=
  (cfg.evaluateBufferUsers_spec i).2.1

theorem mem_toposort_of_refineUser {u : UserId} (h : cfg.refineUser i u ≠ .none) :
    u ∈ cfg.toposort := by
  rw [refineUser] at h
  split at h
  · exact absurd rfl h
  · rename_i node hnode
    exact cfg.mem_toposort u |>.mpr (KeyedVector.mem_keys_of_find? hnode)

/-- The **producers** of a buffer: the nodes that have its stream among their outputs. -/
theorem mem_producers_iff {u : UserId} : u ∈ (cfg.evaluateBufferUsers i).producers ↔
    cfg.refineUser i u = .producer := by
  rw [(cfg.evaluateBufferUsers_spec i).2.2.1 u]
  exact and_iff_right_of_imp fun h => cfg.mem_toposort_of_refineUser i (by simp [h])

/-- The **consumers** of a buffer: the nodes that have its stream among their inputs
only. -/
theorem mem_consumers_iff {u : UserId} : u ∈ (cfg.evaluateBufferUsers i).consumers ↔
    cfg.refineUser i u = .consumer := by
  rw [(cfg.evaluateBufferUsers_spec i).2.2.2.1 u]
  exact and_iff_right_of_imp fun h => cfg.mem_toposort_of_refineUser i (by simp [h])

end FrameConfig

end MtkHardware.Pipeline
