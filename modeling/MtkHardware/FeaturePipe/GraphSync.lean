import MtkHardware.FeaturePipe.NodeSteps
import MtkHardware.Util.Quiescence

/-!
# Quiescence of Graphs

The latch of a `waitSync` is to open only while no node of the graph has anything to do: no data in
its queues, none that its thread works on, and no threads that it depends on. Nothing is enqued
from outside in the meantime.

The nodes vote by counting the latch down, and an enque is a message, which withdraws the vote of
its target with the callback. Two things go wrong. A node decides that it is in sync before it
votes: what has been pushed, and has called the callback, in between, is missed. And an enque calls
no callback where the queue is a `PriorityWaitQueue`, or where the callback has not been registered
at the hub yet. Where neither happens (`notifies`), the steps of the graph are those of a `Ballot`
(`Sound.next`), and so the latch opens in time (`sync_of_runs`).
-/

namespace MtkHardware.FeaturePipe

variable {T : Type*} {conv : IndexConverter T}

/-! ### Latches -/

namespace CountDownLatch

variable {l : CountDownLatch} {nodes i j : ℕ} {b : Bool}

structure Sound (l : CountDownLatch) (nodes : ℕ) : Prop where
  total : l.mTotal = nodes
  length : l.mIsSync.length = nodes
  done : l.mDone = l.mIsSync.countP id

theorem sound_create (nodes : ℕ) : (create nodes).Sound nodes :=
  ⟨rfl, List.length_replicate, by simp [create, List.countP_replicate]⟩

theorem Sound.set (hl : l.Sound nodes) (hi : i < nodes) (b : Bool) :
    { l with mDone := l.mDone - (l.isSync i).toNat + b.toNat
             mIsSync := l.mIsSync.set i b }.Sound nodes := by
  have hlt : i < l.mIsSync.length := hl.length ▸ hi
  refine ⟨hl.total, by rw [List.length_set, hl.length], ?_⟩
  have hsync : l.isSync i = l.mIsSync[i] := by simp [isSync, List.getElem?_eq_getElem hlt]
  have hpos : l.mIsSync[i] = true → 0 < l.mIsSync.countP id := fun htrue =>
    List.countP_pos_iff.mpr ⟨_, List.getElem_mem hlt, htrue⟩
  dsimp only
  rw [List.countP_set hlt, hl.done, hsync]
  cases hold : l.mIsSync[i] with
  | true =>
    have hpos := hpos hold
    cases b <;> simp <;> omega
  | false => cases b <;> simp

theorem Sound.onUpdate (hl : l.Sound nodes) (hi : i < nodes) (b : Bool) :
    (l.onUpdate i b).Sound nodes := by
  have heq : l.onUpdate i b = { l with mDone := l.mDone - (l.isSync i).toNat + b.toNat
                                       mIsSync := l.mIsSync.set i b } := by
    unfold CountDownLatch.onUpdate
    cases b <;> cases l.isSync i <;> simp
  rw [heq]
  exact hl.set hi b

theorem isSync_set (l : CountDownLatch) (i j : ℕ) (b : Bool) {mDone : ℤ} :
    { l with mDone, mIsSync := l.mIsSync.set i b }.isSync j = true →
      i = j ∧ b = true ∨ i ≠ j ∧ l.isSync j = true := by
  intro hsync
  simp only [isSync, List.getElem?_set] at hsync
  split_ifs at hsync with hij hlt
  · exact .inl ⟨hij, hsync⟩
  · cases hsync
  · exact .inr ⟨hij, hsync⟩

theorem Sound.onNotify (hl : l.Sound nodes) (i : ℕ) : (l.onNotify i).Sound nodes := by
  unfold CountDownLatch.onNotify
  split_ifs with hsync
  · have hi : i < nodes := by
      by_contra hge
      rw [isSync, List.getElem?_eq_none (by rw [hl.length]; omega)] at hsync
      cases hsync
    have hset := hl.set hi false
    simpa [hsync] using hset
  · exact hl

theorem isSync_onNotify (hsync : (l.onNotify i).isSync j = true) : i ≠ j ∧ l.isSync j = true := by
  unfold CountDownLatch.onNotify at hsync
  split_ifs at hsync with hi
  · obtain ⟨-, hfalse⟩ | hne := isSync_set l i j false hsync
    · cases hfalse
    · exact hne
  · exact ⟨fun hij => hi (hij ▸ hsync), hsync⟩

theorem isSync_onUpdate (hsync : (l.onUpdate i b).isSync j = true) :
    i = j ∧ b = true ∨ i ≠ j ∧ l.isSync j = true :=
  isSync_set l i j b hsync

theorem Sound.isSync_of_isOpen (hl : l.Sound nodes) (hopen : l.isOpen = true) (hi : i < nodes) :
    l.isSync i = true := by
  have hle : nodes ≤ l.mIsSync.countP id := by
    have hge : ¬ l.mDone < (l.mTotal : ℤ) := by simpa [isOpen] using hopen
    rw [hl.done, hl.total] at hge
    omega
  have hall : l.mIsSync.countP id = l.mIsSync.length :=
    le_antisymm List.countP_le_length (hl.length ▸ hle)
  have hlt : i < l.mIsSync.length := hl.length ▸ hi
  rw [isSync, List.getElem?_eq_getElem hlt]
  exact List.countP_eq_length.mp hall _ (List.getElem_mem hlt)

/-- **The count of a latch** is between zero and the number of nodes. -/
theorem Sound.bounds (hl : l.Sound nodes) : 0 ≤ l.mDone ∧ l.mDone ≤ nodes := by
  have hle := List.countP_le_length (p := id) (l := l.mIsSync)
  rw [hl.length] at hle
  rw [hl.done]
  omega

end CountDownLatch

/-! ### Graphs -/

/-- Does `waitSync` register its callbacks, or wait? -/
def SyncAt.isSyncing : SyncAt → Bool
  | .registerStatusCB _ | .registerEnqueCB _ | .waiting => true
  | .notCalled | .resetStatusCB _ | .resetEnqueCB _ => false

def Source.party : Source → Option ℕ
  | .outside => none
  | .thread i | .extThread i => some i

namespace CamGraph

variable {g g' g'' : CamGraph conv} {i k : ℕ} {e : Enque} {C : Prop}

/-- Is the node counted in sync by the latch of the `waitSync` that is on? -/
def counted (g : CamGraph conv) (i : ℕ) : Bool :=
  g.syncAt.isSyncing && g.latches[0]?.any (·.isSync i)

/-- May the enque yet call the callback of the last `waitSync`? -/
def withdraws (g : CamGraph conv) (e : Enque) : Bool :=
  match e.enqueAt with
  | .pushed => true
  | .notifying cb => cb == g.lastCB
  | .notified => false

/-- Will the enque, when it takes the mutex of the hub, go on to the callback of the last
`waitSync`? -/
def callsLast (g : CamGraph conv) (e : Enque) : Bool :=
  match g.nodes[e.target]? with
  | some n =>
    match n.hub.mQueues[e.queue]?, n.mEnqueCB with
    | some (.fifo _), some cb => cb == g.lastCB
    | _, _ => false
  | none => false

/-- A node reports that it is in sync, to the `waitSync` that is on, only while its queues are
empty or an enque has yet to call the callback, and an enque calls the callback unless the node is
not counted in sync. -/
def notifies (g : CamGraph conv) : GraphOp T → Bool
  | .onUpdate i =>
    match g.nodes[i]? with
    | some n =>
      n.loopAt != .reporting g.lastCB true || !g.syncAt.isSyncing || n.isAllQueueEmpty ||
        g.enques.any fun e => e.target == i && g.withdraws e
    | none => true
  | .signalEnque k => g.enques[k]?.all fun e => g.callsLast e || !g.counted e.target
  | _ => true

def message (g : CamGraph conv) (e : Enque) : Ballot.Message (Option ℕ) where
  source := e.source.party
  target := some e.target
  withdraws := g.withdraws e

/-- The nodes that have something to do, as the outside may have always, and those that are counted
in sync. -/
def ballot (g : CamGraph conv) : Ballot (Option ℕ) where
  active := {p | ∀ i, p = some i → ∃ n, g.nodes[i]? = some n ∧ n.Active}
  voted := {p | ∃ i, p = some i ∧ g.counted i = true}
  messages := g.enques.map g.message

structure Sound (g : CamGraph conv) : Prop where
  nodes : ∀ (i : ℕ) (n : CamThreadNode conv), g.nodes[i]? = some n →
    n.Sound g.latches.length (g.enquesOf (.thread i)) (g.enquesOf (.extThread i))
  sources : ∀ e ∈ g.enques, ∀ i, e.source.party = some i → i < g.nodes.length
  callbacks : ∀ e ∈ g.enques, ∀ cb, e.enqueAt = .notifying cb → cb < g.latches.length
  outside : g.syncAt ≠ .notCalled → g.enquesOf .outside = 0
  latches : ∀ l ∈ g.latches, l.Sound g.nodes.length
  started : g.syncAt.isSyncing = true → g.latches ≠ []

/-- A graph that is known as much of after a step, and whose nodes vote as they should under a
condition. -/
structure Advances (g g' : CamGraph conv) (C : Prop) : Prop where
  sound : g'.Sound
  steps : C → Relation.ReflTransGen Ballot.Step g.ballot g'.ballot

theorem Advances.trans (h : g.Advances g' C) (h' : g'.Advances g'' C) : g.Advances g'' C :=
  ⟨h'.sound, fun hC => (h.steps hC).trans (h'.steps hC)⟩

theorem Advances.imp {C' : Prop} (h : g.Advances g' C) (himp : C' → C) : g.Advances g' C' :=
  ⟨h.sound, fun hC => h.steps (himp hC)⟩

theorem mem_voted : some i ∈ g.ballot.voted ↔ g.counted i = true := by
  simp [ballot]

theorem mem_active : some i ∈ g.ballot.active ↔ ∃ n, g.nodes[i]? = some n ∧ n.Active := by
  simp [ballot]

/-! ### Steps of nodes -/

/-- A step of the nodes, and of `waitSync` unless it starts. -/
theorem Sound.setNodes (hg : g.Sound) {nodes : List (CamThreadNode conv)} {syncAt : SyncAt}
    (hlength : nodes.length = g.nodes.length)
    (hnodes : ∀ (j : ℕ) (m' : CamThreadNode conv), nodes[j]? = some m' → ∃ m, g.nodes[j]? = some m ∧
      m.Follows m' g.latches.length (g.enquesOf (.thread j)) (g.enquesOf (.extThread j)))
    (hcalled : syncAt ≠ .notCalled → g.syncAt ≠ .notCalled)
    (hsyncing : syncAt.isSyncing = true → g.syncAt.isSyncing = true) :
    g.Advances { g with nodes, syncAt } True where
  sound :=
    { nodes := fun j m' hj => by
        obtain ⟨m, -, hm⟩ := hnodes j m' hj
        exact hm.sound
      sources := fun e he i hi => hlength ▸ hg.sources e he i hi
      callbacks := hg.callbacks
      outside := fun hne => hg.outside (hcalled hne)
      latches := fun l hl => by
        rw [hlength]
        exact hg.latches l hl
      started := fun h => hg.started (hsyncing h) }
  steps _ := by
    refine .single (.rest (fun p hp j hj => ?_) ?_ rfl)
    · obtain ⟨m', hm', hactive⟩ := hp j hj
      obtain ⟨m, hm, hfollows⟩ := hnodes j m' hm'
      exact ⟨m, hm, hfollows.active hactive⟩
    · rintro p ⟨j, rfl, hj⟩
      refine ⟨j, rfl, ?_⟩
      simp only [counted, Bool.and_eq_true] at hj ⊢
      exact ⟨hsyncing hj.1, hj.2⟩

theorem Sound.setNode (hg : g.Sound) {n n' : CamThreadNode conv} {syncAt : SyncAt}
    (hn : g.nodes[i]? = some n)
    (hn' : n.Follows n' g.latches.length (g.enquesOf (.thread i)) (g.enquesOf (.extThread i)))
    (hcalled : syncAt ≠ .notCalled → g.syncAt ≠ .notCalled)
    (hsyncing : syncAt.isSyncing = true → g.syncAt.isSyncing = true) :
    g.Advances { g with nodes := g.nodes.set i n', syncAt } True := by
  refine hg.setNodes List.length_set (fun j m' hj => ?_) hcalled hsyncing
  rw [List.getElem?_set] at hj
  split_ifs at hj with hij hlt
  · cases hj
    exact ⟨n, hij ▸ hn, hij ▸ hn'⟩
  · exact ⟨m', hj, (hg.nodes j m' hj).refl⟩

theorem Sound.onNode (hg : g.Sound)
    {f : CamThreadNode conv → Except Blocked (CamThreadNode conv)}
    (hf : ∀ n n' : CamThreadNode conv, g.nodes[i]? = some n →
      n.Sound g.latches.length (g.enquesOf (.thread i)) (g.enquesOf (.extThread i)) →
      f n = .ok n' →
      n.Follows n' g.latches.length (g.enquesOf (.thread i)) (g.enquesOf (.extThread i)))
    (h : g.onNode i f = .ok g') : g.Advances g' True := by
  unfold CamGraph.onNode at h
  split at h
  · rename_i n hn
    obtain ⟨n', hfn, rfl⟩ := map_eq_ok_iff.mp h
    exact hg.setNode hn (hf n n' hn (hg.nodes i n hn) hfn) id id
  · cases h

theorem Sound.onThread (hg : g.Sound)
    {f : CamThreadNode conv → Except Blocked (CamThreadNode conv)}
    (hf : ∀ (n n' : CamThreadNode conv) (latches exts : ℕ), n.Sound latches 0 exts →
      f n = .ok n' → n.Follows n' latches 0 exts)
    (h : g.onThread i f = .ok g') : g.Advances g' True := by
  unfold CamGraph.onThread at h
  split_ifs at h with hnone
  refine hg.onNode (fun n n' hn hsound hfn => ?_) h
  rw [hnone] at hsound ⊢
  exact hf n n' _ _ hsound hfn

theorem locked_eq_ok {f : CamThreadNode conv → CamThreadNode conv} {n n' : CamThreadNode conv}
    (h : locked f n = .ok n') : n' = f n := by
  unfold locked at h
  split_ifs at h
  exact (Except.ok.inj h).symm

/-! ### Steps of latches -/

theorem latchAt_eq_zero_iff {cb : ℕ} (hcb : cb < g.latches.length) :
    g.latchAt cb = 0 ↔ cb = g.lastCB := by
  unfold latchAt lastCB
  omega

@[simp] theorem lastCB_onLatch (cb : ℕ) (f : CountDownLatch → CountDownLatch) :
    (g.onLatch cb f).lastCB = g.lastCB := by
  simp [lastCB, onLatch]

theorem counted_iff : g.counted i = true ↔
    g.syncAt.isSyncing = true ∧ ∃ l, g.latches[0]? = some l ∧ l.isSync i = true := by
  simp [counted, Option.any_eq_true]

theorem counted_onLatch {cb : ℕ} {f : CountDownLatch → CountDownLatch}
    (hcb : cb < g.latches.length) (h : (g.onLatch cb f).counted i = true) :
    g.syncAt.isSyncing = true ∧ ∃ l, g.latches[0]? = some l ∧
      (if cb = g.lastCB then f l else l).isSync i = true := by
  obtain ⟨hsyncing, l', hl', hsync⟩ := counted_iff.mp h
  simp only [CamGraph.onLatch, List.getElem?_modify, latchAt_eq_zero_iff hcb] at hl'
  obtain ⟨l, hl, rfl⟩ := Option.map_eq_some_iff.mp hl'
  exact ⟨hsyncing, l, hl, hsync⟩

theorem Sound.onLatch (hg : g.Sound) {cb : ℕ} {f : CountDownLatch → CountDownLatch}
    (hf : ∀ l : CountDownLatch, l.Sound g.nodes.length → (f l).Sound g.nodes.length) :
    (g.onLatch cb f).Sound := by
  have hlength : (g.onLatch cb f).latches.length = g.latches.length := List.length_modify ..
  refine ⟨fun i n hn => ?_, hg.sources, fun e he c hc => ?_, hg.outside, ?_, fun hsyncing => ?_⟩
  · rw [hlength]
    exact hg.nodes i n hn
  · rw [hlength]
    exact hg.callbacks e he c hc
  · exact WaitHub.forall_mem_modify _ hg.latches hf
  · rw [← List.length_pos_iff, hlength]
    exact List.length_pos_iff.mpr (hg.started hsyncing)

theorem ballot_onLatch (cb : ℕ) (f : CountDownLatch → CountDownLatch) :
    (g.onLatch cb f).ballot.messages = g.ballot.messages ∧
      (g.onLatch cb f).ballot.active = g.ballot.active := by
  refine ⟨List.map_congr_left fun e _ => ?_, rfl⟩
  simp [message, withdraws]

theorem Sound.notifyLatch (hg : g.Sound) {cb : ℕ} (hcb : cb < g.latches.length) :
    g.Advances (g.onLatch cb fun l => l.onNotify i) True where
  sound := hg.onLatch fun _ hl => hl.onNotify i
  steps _ := by
    obtain ⟨hmessages, hactive⟩ := ballot_onLatch (g := g) cb fun l => l.onNotify i
    refine .single (.rest hactive.subset ?_ hmessages)
    rintro p ⟨j, rfl, hj⟩
    obtain ⟨hsyncing, l, hl, hsync⟩ := counted_onLatch hcb hj
    refine ⟨j, rfl, counted_iff.mpr ⟨hsyncing, l, hl, ?_⟩⟩
    split_ifs at hsync
    · exact (CountDownLatch.isSync_onNotify hsync).2
    · exact hsync

theorem counted_notifyLatch (hpos : 0 < g.latches.length) :
    (g.onLatch g.lastCB fun l => l.onNotify i).counted i = false := by
  refine Bool.eq_false_iff.mpr fun h => ?_
  obtain ⟨-, l, -, hsync⟩ := counted_onLatch (by unfold lastCB; omega) h
  rw [if_pos rfl] at hsync
  exact (CountDownLatch.isSync_onNotify hsync).1 rfl

/-- A node that reports that it is in sync has no enques on their way, and nothing to do but what is
in its queues. -/
theorem Sound.reporting (hg : g.Sound) {n : CamThreadNode conv} {cb : ℕ}
    (hn : g.nodes[i]? = some n) (hloop : n.loopAt = .reporting cb true) :
    (∀ m ∈ g.ballot.messages, m.source ≠ some i) ∧ (n.Active → n.isAllQueueEmpty = false) := by
  have hsound := hg.nodes i n hn
  have hext := hsound.inSync cb hloop
  have hworking : n.loopAt ≠ .working := by simp [hloop]
  have hthread : g.enquesOf (.thread i) = 0 := by
    by_contra hne
    exact hworking (hsound.thread (Nat.pos_of_ne_zero hne))
  have hextThread : g.enquesOf (.extThread i) = 0 := by
    have hle := hsound.extThread
    omega
  constructor
  · rintro m hm hsource
    obtain ⟨e, he, rfl⟩ := List.mem_map.mp hm
    cases hs : e.source with
    | outside => simp [message, Source.party, hs] at hsource
    | thread j =>
      obtain rfl : j = i := by simpa [message, Source.party, hs] using hsource
      exact absurd (by simp [hs]) (List.countP_eq_zero.mp hthread e he)
    | extThread j =>
      obtain rfl : j = i := by simpa [message, Source.party, hs] using hsource
      exact absurd (by simp [hs]) (List.countP_eq_zero.mp hextThread e he)
  · rintro (hdata | hwork | hpos)
    · by_contra hempty
      exact CamThreadNode.isAllQueueEmpty_iff.mp (Bool.not_eq_false _ ▸ hempty) hdata
    · exact absurd hwork hworking
    · omega

theorem Sound.updateLatch (hg : g.Sound) {n : CamThreadNode conv} {cb : ℕ} {inSync : Bool}
    (hn : g.nodes[i]? = some n) (hloop : n.loopAt = .reporting cb inSync) :
    g.Advances (g.onLatch cb fun l => l.onUpdate i inSync)
      (g.notifies (.onUpdate i) = true) where
  sound := hg.onLatch fun _ hl => hl.onUpdate (List.getElem?_eq_some_iff.mp hn).1 inSync
  steps hC := by
    have hcb := (hg.nodes i n hn).report cb inSync hloop
    obtain ⟨hmessages, hactive⟩ := ballot_onLatch (g := g) cb fun l => l.onUpdate i inSync
    by_cases hvote : inSync = true ∧ cb = g.lastCB ∧ g.syncAt.isSyncing = true
    · obtain ⟨rfl, rfl, hsyncing⟩ := hvote
      obtain ⟨hsources, hdata⟩ := hg.reporting hn hloop
      refine .single (.vote (some i) hsources ?_ hactive.subset ?_ hmessages)
      · intro hi
        obtain ⟨n', hn', hi⟩ := mem_active.mp hi
        obtain rfl : n = n' := Option.some.inj (hn.symm.trans hn')
        simp only [notifies, hn, hloop, hsyncing, hdata hi, bne_self_eq_false, Bool.not_true,
          Bool.false_or, List.any_eq_true, Bool.and_eq_true, beq_iff_eq] at hC
        obtain ⟨e, he, rfl, hw⟩ := hC
        exact ⟨g.message e, List.mem_map_of_mem he, hw, rfl⟩
      · rintro p ⟨j, rfl, hj⟩
        obtain ⟨-, l, hl, hsync⟩ := counted_onLatch hcb hj
        rw [if_pos rfl] at hsync
        obtain ⟨rfl, -⟩ | ⟨-, hsync⟩ := CountDownLatch.isSync_onUpdate hsync
        · exact .inl rfl
        · exact .inr ⟨j, rfl, counted_iff.mpr ⟨hsyncing, l, hl, hsync⟩⟩
    · refine .single (.rest hactive.subset ?_ hmessages)
      rintro p ⟨j, rfl, hj⟩
      obtain ⟨hsyncing, l, hl, hsync⟩ := counted_onLatch hcb hj
      refine ⟨j, rfl, counted_iff.mpr ⟨hsyncing, l, hl, ?_⟩⟩
      split_ifs at hsync with hlast
      · obtain ⟨-, rfl⟩ | ⟨-, hsync⟩ := CountDownLatch.isSync_onUpdate hsync
        · exact absurd ⟨rfl, hlast, hsyncing⟩ hvote
        · exact hsync
      · exact hsync

/-! ### Steps of enques -/

/-- An enque moves on, and has called the callback of the last `waitSync` only where its node is not
counted in sync. -/
theorem Sound.setEnque (hg : g.Sound) (he : g.enques[k]? = some e) {enqueAt : EnqueAt}
    (hcb : ∀ cb, enqueAt = .notifying cb → cb < g.latches.length)
    (hwithdraws : C → g.counted e.target = true → g.withdraws e = true →
      g.withdraws { e with enqueAt } = true) :
    g.Advances { g with enques := g.enques.set k { e with enqueAt } } C := by
  have hof : ∀ source, { g with enques := g.enques.set k { e with enqueAt } }.enquesOf source =
      g.enquesOf source := by
    intro source
    obtain ⟨hlt, hget⟩ := List.getElem?_eq_some_iff.mp he
    have hmap : (g.enques.set k { e with enqueAt }).map Enque.source =
        g.enques.map Enque.source := by
      rw [List.map_set, ← hget, ← List.getElem_map (f := Enque.source) (h := by simpa using hlt)]
      exact List.set_getElem_self _
    have hcount : ∀ l : List Enque, l.countP (·.source == source) =
        (l.map Enque.source).countP (· == source) := fun l => by rw [List.countP_map]; rfl
    rw [enquesOf, enquesOf, hcount, hcount, hmap]
  have hmem : ∀ e' ∈ g.enques.set k { e with enqueAt },
      e' ∈ g.enques ∨ e' = { e with enqueAt } := fun e' he' => (List.mem_or_eq_of_mem_set he')
  refine ⟨⟨fun i n hn => ?_, fun e' he' => ?_, fun e' he' => ?_, fun hne => ?_, hg.latches,
    hg.started⟩, fun hC => ?_⟩
  · rw [hof, hof]
    exact hg.nodes i n hn
  · obtain he' | rfl := hmem e' he'
    · exact hg.sources e' he'
    · exact hg.sources e (List.mem_of_getElem? he)
  · obtain he' | rfl := hmem e' he'
    · exact hg.callbacks e' he'
    · exact hcb
  · rw [hof]
    exact hg.outside hne
  · refine .single (.carry k (g.message e) (g.message { e with enqueAt }) ?_ rfl rfl ?_ subset_rfl
      subset_rfl ?_)
    · simp [ballot, he]
    · exact fun hvoted => hwithdraws hC (mem_voted.mp hvoted)
    · simp only [ballot, List.map_set]
      rfl

theorem Sound.eraseEnque (hg : g.Sound) (he : g.enques[k]? = some e)
    (hwithdraws : C → g.counted e.target = true → g.withdraws e = false) :
    g.Advances { g with enques := g.enques.eraseIdx k } C := by
  have hof : ∀ source, { g with enques := g.enques.eraseIdx k }.enquesOf source ≤
      g.enquesOf source := fun source => (List.eraseIdx_sublist _ _).countP_le
  refine ⟨⟨fun i n hn => (hg.nodes i n hn).mono le_rfl (hof _) (hof _),
    fun e' he' => hg.sources e' (List.mem_of_mem_eraseIdx he'),
    fun e' he' => hg.callbacks e' (List.mem_of_mem_eraseIdx he'),
    fun hne => Nat.le_zero.mp ((hof _).trans (hg.outside hne).le), hg.latches, hg.started⟩,
    fun hC => ?_⟩
  refine .single (.arrive k (g.message e) ?_ ?_ subset_rfl subset_rfl ?_)
  · simp [ballot, he]
  · exact fun hvoted => hwithdraws hC (mem_voted.mp hvoted)
  · simp only [ballot, List.eraseIdx_map]
    rfl

theorem mayEnque_spec {source : Source} (h : g.mayEnque source = true) :
    source.party ∈ g.ballot.active ∧
      (∀ i, source.party = some i → i < g.nodes.length) ∧
      (source = .outside → g.syncAt = .notCalled) ∧
      (∀ i n, source = .thread i → g.nodes[i]? = some n → n.loopAt = .working) ∧
      (∀ i (n : CamThreadNode conv), source = .extThread i → g.nodes[i]? = some n →
        g.enquesOf (.extThread i) < n.mExtThreadDependency) := by
  cases source with
  | outside =>
    refine ⟨?_, ?_, fun _ => by simpa [mayEnque] using h, ?_, ?_⟩ <;>
      simp [ballot, Source.party]
  | thread i =>
    simp only [mayEnque] at h
    split at h
    · rename_i n hn
      simp only [Bool.and_eq_true, beq_iff_eq] at h
      refine ⟨mem_active.mpr ⟨n, hn, .inr (.inl h.1)⟩, ?_, by simp, ?_, by simp⟩
      · rintro j hj
        cases hj
        exact (List.getElem?_eq_some_iff.mp hn).1
      · rintro j n' hj hn'
        cases hj
        rw [← Option.some.inj (hn.symm.trans hn'), h.1]
    · cases h
  | extThread i =>
    simp only [mayEnque] at h
    split at h
    · rename_i n hn
      have hlt : g.enquesOf (.extThread i) < n.mExtThreadDependency := by simpa using h
      have hactive : n.Active := .inr (.inr (Nat.zero_lt_of_lt hlt))
      refine ⟨mem_active.mpr ⟨n, hn, hactive⟩, ?_, by simp, by simp, ?_⟩
      · rintro j hj
        cases hj
        exact (List.getElem?_eq_some_iff.mp hn).1
      · rintro j n' hj hn'
        cases hj
        rwa [← Option.some.inj (hn.symm.trans hn')]
    · cases h

theorem push_cases {source : Source} {target queue : ℕ} {val : T}
    (h : g.push source target queue val = .ok g') :
    g.mayEnque source = true ∧ ∃ n, g.nodes[target]? = some n ∧ queue < n.hub.mQueues.length ∧
      g' = { g with
        nodes := g.nodes.set target { n with hub := { n.hub with
          mQueues := n.hub.mQueues.modify queue (IWaitQueue.push val) } }
        enques := g.enques ++ [{ source, target, queue }] } := by
  unfold CamGraph.push at h
  split_ifs at h with hmay
  obtain ⟨g₁, hg₁, rfl⟩ := map_eq_ok_iff.mp h
  unfold CamGraph.onNode at hg₁
  split at hg₁
  · rename_i n hn
    obtain ⟨n', hn', rfl⟩ := map_eq_ok_iff.mp hg₁
    dsimp only at hn'
    split_ifs at hn' with hqueue
    cases hn'
    exact ⟨hmay, n, hn, hqueue, rfl⟩
  · cases hg₁

theorem enquesOf_snoc {nodes : List (CamThreadNode conv)} (source : Source) :
    { g with nodes, enques := g.enques ++ [e] }.enquesOf source =
      g.enquesOf source + if e.source = source then 1 else 0 := by
  simp [enquesOf, List.countP_append, List.countP_singleton]

theorem Sound.push (hg : g.Sound) {source : Source} {target queue : ℕ} {val : T}
    (h : g.push source target queue val = .ok g') : g.Advances g' True := by
  obtain ⟨hmay, n, hn, hqueue, rfl⟩ := push_cases h
  obtain ⟨hactive, hparty, houtside, hthread, hext⟩ := mayEnque_spec hmay
  refine ⟨⟨fun j m hj => ?_, fun e he => ?_, fun e he => ?_, fun hne => ?_, ?_, hg.started⟩,
    fun _ => ?_⟩
  · -- what is known of the node before, with the enques as they are now
    rw [enquesOf_snoc, enquesOf_snoc]
    have hbase : ∀ m : CamThreadNode conv, g.nodes[j]? = some m →
        m.Sound g.latches.length
          (g.enquesOf (.thread j) + if source = .thread j then 1 else 0)
          (g.enquesOf (.extThread j) + if source = .extThread j then 1 else 0) := by
      intro m hm
      have hsound := hg.nodes j m hm
      refine { hsound with thread := fun hpos => ?_, extThread := ?_ }
      · split_ifs at hpos with hs
        · exact hthread j m hs hm
        · exact hsound.thread hpos
      · split_ifs with hs
        · exact hext j m hs hm
        · exact hsound.extThread
    rw [List.getElem?_set] at hj
    split_ifs at hj with htarget hlt
    · cases hj
      exact (hbase n (htarget ▸ hn)).push hqueue val
    · exact hbase m hj
  · obtain he | he := List.mem_append.mp he
    · simpa using hg.sources e he
    · obtain rfl := List.mem_singleton.mp he
      simpa using hparty
  · obtain he | he := List.mem_append.mp he
    · exact hg.callbacks e he
    · obtain rfl := List.mem_singleton.mp he
      exact nofun
  · rw [enquesOf_snoc, hg.outside hne, if_neg fun hs => hne (houtside hs)]
  · simpa using hg.latches
  · refine .single (.send (g.message { source, target, queue }) hactive rfl ?_ subset_rfl ?_)
    · intro p hp
      by_cases hptarget : p = some target
      · exact .inl hptarget
      · refine .inr fun j hj => ?_
        obtain ⟨m, hm, hm'⟩ := hp j hj
        rw [List.getElem?_set_ne fun heq => hptarget (hj.trans (congrArg some heq.symm))] at hm
        exact ⟨m, hm, hm'⟩
    · simp only [ballot, List.map_append]
      rfl

theorem Sound.signalNode (hg : g.Sound) (he : g.enques[k]? = some e)
    (hwithdraws : C → g.counted e.target = true → g.withdraws e = false)
    (h : ((g.onNode e.target (locked fun n => { n with hub := n.hub.signalOf e.queue })).map
      fun g => { g with enques := g.enques.eraseIdx k }) = .ok g') : g.Advances g' C := by
  obtain ⟨g₁, hg₁, rfl⟩ := map_eq_ok_iff.mp h
  have hnode : g.Advances g₁ True := hg.onNode (fun n n' _ hn hf => by
    rw [locked_eq_ok hf]
    exact hn.signalOf e.queue) hg₁
  unfold CamGraph.onNode at hg₁
  split at hg₁
  · obtain ⟨n', -, rfl⟩ := map_eq_ok_iff.mp hg₁
    exact (hnode.imp fun _ => trivial).trans (hnode.sound.eraseEnque he hwithdraws)
  · cases hg₁

theorem Sound.signalEnque (hg : g.Sound) (h : g.signalEnque k = .ok g') :
    g.Advances g' (g.notifies (.signalEnque k) = true) := by
  unfold CamGraph.signalEnque at h
  split at h
  · rename_i e he
    split_ifs at h with hpushed
    split at h
    · rename_i n hn
      have hC : g.notifies (.signalEnque k) = true → g.counted e.target = true →
          g.callsLast e = true := by
        intro hC hcounted
        simpa [notifies, he, hcounted] using hC
      split at h
      · rename_i q cb hq hcb
        split_ifs at h
        cases h
        refine hg.setEnque he ?_ fun hnotifies hcounted _ => ?_
        · rintro cb' hcb'
          cases hcb'
          exact (hg.nodes e.target n hn).enque cb hcb
        · simpa [callsLast, hn, hq, hcb, withdraws] using hC hnotifies hcounted
      · rename_i hnot
        refine hg.signalNode he (fun hnotifies hcounted => ?_) h
        -- the enque does not go on to a callback, and the node is not counted in sync
        have hcalls := hC hnotifies hcounted
        simp only [callsLast, hn] at hcalls
        cases hcalls
    · cases h
  · cases h

theorem Sound.onNotify (hg : g.Sound) (h : g.onNotify k = .ok g') : g.Advances g' True := by
  unfold CamGraph.onNotify at h
  split at h
  · rename_i e he
    split at h
    · rename_i cb hat
      cases h
      have hcb := hg.callbacks e (List.mem_of_getElem? he) cb hat
      have hlatch := hg.notifyLatch (i := e.target) hcb
      refine hlatch.trans (hlatch.sound.setEnque he nofun fun _ hcounted hw => ?_)
      -- the callback of the last `waitSync` has taken the node out of sync
      simp only [withdraws, hat, lastCB_onLatch, beq_iff_eq] at hw
      subst hw
      rw [counted_notifyLatch (by omega)] at hcounted
      cases hcounted
    · cases h
  · cases h

theorem Sound.signal (hg : g.Sound) (h : g.signal k = .ok g') : g.Advances g' True := by
  unfold CamGraph.signal at h
  split at h
  · rename_i e he
    split_ifs at h with hat
    exact hg.signalNode he (fun _ _ => by simp [withdraws, hat]) h
  · cases h

theorem Sound.onUpdate (hg : g.Sound) (h : g.onUpdate i = .ok g') :
    g.Advances g' (g.notifies (.onUpdate i) = true) := by
  unfold CamGraph.onUpdate at h
  split at h
  · rename_i n hn
    split at h
    · rename_i cb inSync hloop
      cases h
      have hlatch := hg.updateLatch hn hloop
      have hnode := (hlatch.sound.nodes i n hn).reported hloop
      exact hlatch.trans ((hlatch.sound.setNode hn hnode id id).imp fun _ => trivial)
    · cases h
  · cases h

/-! ### Steps of `waitSync` -/

/-- `waitSync` starts with a new latch, which nobody has counted down. -/
theorem Sound.start (hg : g.Sound) (houtside : g.enquesOf .outside = 0) (syncAt : SyncAt) :
    g.Advances { g with latches := .create g.nodes.length :: g.latches, syncAt } True where
  sound :=
    { nodes := fun i n hn => (hg.nodes i n hn).mono (by simp) le_rfl le_rfl
      sources := hg.sources
      callbacks := fun e he cb hcb => (hg.callbacks e he cb hcb).trans (by simp)
      outside := fun _ => houtside
      latches := List.forall_mem_cons.mpr
        ⟨CountDownLatch.sound_create g.nodes.length, hg.latches⟩
      started := fun _ => List.cons_ne_nil _ _ }
  steps _ := by
    refine .single (.restart (Set.eq_empty_of_forall_notMem ?_))
    rintro p ⟨j, rfl, hj⟩
    obtain ⟨-, l, hl, hsync⟩ := counted_iff.mp hj
    cases hl
    simp [CountDownLatch.create, CountDownLatch.isSync, List.getElem?_replicate] at hsync
    split_ifs at hsync <;> simp at hsync

/-- `waitSync` registers or resets a callback of a node, and moves on. -/
theorem Sound.register (hg : g.Sound) {f : CamThreadNode conv → CamThreadNode conv}
    (next : CamGraph conv → SyncAt)
    (hf : ∀ (n : CamThreadNode conv) (threads exts : ℕ), n.Sound g.latches.length threads exts →
      n.Follows (f n) g.latches.length threads exts)
    (hcalled : g.syncAt ≠ .notCalled)
    (hsyncing : ∀ g', (next g').isSyncing = true → g.syncAt.isSyncing = true)
    (h : (g.onNode i (locked f)).map (fun g => { g with syncAt := next g }) = .ok g') :
    g.Advances g' True := by
  obtain ⟨g₁, hg₁, rfl⟩ := map_eq_ok_iff.mp h
  unfold CamGraph.onNode at hg₁
  split at hg₁
  · rename_i n hn
    obtain ⟨n', hfn, rfl⟩ := map_eq_ok_iff.mp hg₁
    rw [locked_eq_ok hfn]
    exact hg.setNode hn (hf n _ _ (hg.nodes i n hn)) (fun _ => hcalled) (hsyncing _)
  · cases hg₁

theorem isSyncing_resetAt (i : ℕ) : (g.resetAt i).isSyncing = false := by
  unfold resetAt
  split_ifs <;> rfl

theorem Sound.waitSync (hg : g.Sound) (h : g.waitSync = .ok g') : g.Advances g' True := by
  have hlast : g.syncAt.isSyncing = true → ∀ cb, some g.lastCB = some cb →
      cb < g.latches.length := by
    rintro hsyncing cb hcb
    cases hcb
    have hpos := List.length_pos_iff.mpr (hg.started hsyncing)
    unfold lastCB
    omega
  unfold CamGraph.waitSync at h
  split at h
  · split_ifs at h with houtside
    cases h
    exact hg.start houtside _
  · rename_i i hat
    have hsyncing : g.syncAt.isSyncing = true := by simp [hat, SyncAt.isSyncing]
    exact hg.register (fun _ => .registerEnqueCB i)
      (fun n _ _ hn => hn.registerStatusCB (hlast hsyncing)) (by simp [hat]) (fun _ _ => hsyncing) h
  · rename_i i hat
    have hsyncing : g.syncAt.isSyncing = true := by simp [hat, SyncAt.isSyncing]
    exact hg.register (fun g => g.registerAt (i + 1))
      (fun n _ _ hn => hn.registerEnqueCB (hlast hsyncing)) (by simp [hat]) (fun _ _ => hsyncing) h
  · rename_i hat
    split at h
    · split_ifs at h
      cases h
      exact hg.setNodes rfl (fun j m hj => ⟨m, hj, (hg.nodes j m hj).refl⟩) (by simp [hat])
        (by simp [isSyncing_resetAt])
    · cases h
  · rename_i i hat
    exact hg.register (fun _ => .resetEnqueCB i) (fun n _ _ hn => hn.registerStatusCB (by simp))
      (by simp [hat]) (by simp [SyncAt.isSyncing]) h
  · rename_i i hat
    exact hg.register (fun g => g.resetAt (i + 1)) (fun n _ _ hn => hn.registerEnqueCB (by simp))
      (by simp [hat]) (by simp [isSyncing_resetAt]) h

/-! ### Runs -/

/-- **One step** keeps what is known, and the nodes vote as they should where it notifies. -/
theorem Sound.next (hg : g.Sound) {op : GraphOp T} (h : g.next op = .ok g') :
    g.Advances g' (g.notifies op = true) := by
  cases op with
  | waitSignal i =>
    exact (hg.onThread (fun _ _ _ _ hn hf => hn.waitSignal hf) h).imp fun _ => trivial
  | tryProcessStatusCB i =>
    exact (hg.onThread (fun _ _ _ _ hn hf => hn.tryProcessStatusCB hf) h).imp fun _ => trivial
  | onUpdate i => exact hg.onUpdate h
  | waitCondition i op =>
    exact (hg.onThread (fun _ _ _ _ hn hf => hn.waitCondition hf) h).imp fun _ => trivial
  | deque i queue id =>
    exact (hg.onThread (fun _ _ _ _ hn hf => hn.deque hf) h).imp fun _ => trivial
  | done i => exact (hg.onThread (fun _ _ _ _ hn hf => hn.done hf) h).imp fun _ => trivial
  | incExtThreadDependency i =>
    exact (hg.onNode (fun _ _ _ hn hf => hn.incExtThreadDependency hf) h).imp fun _ => trivial
  | decExtThreadDependency i =>
    exact (hg.onNode (fun _ _ _ hn hf => hn.decExtThreadDependency hf) h).imp fun _ => trivial
  | triggerSignal i signal =>
    simp only [CamGraph.next] at h
    split_ifs at h
    refine (hg.onNode (fun n n' _ hn hf => ?_) h).imp fun _ => trivial
    rw [locked_eq_ok hf]
    exact hn.triggerSignal signal
  | push source target queue val => exact (hg.push h).imp fun _ => trivial
  | signalEnque k => exact hg.signalEnque h
  | onNotify k => exact (hg.onNotify h).imp fun _ => trivial
  | signal k => exact (hg.signal h).imp fun _ => trivial
  | waitSync => exact (hg.waitSync h).imp fun _ => trivial

variable {nodes : List (WaitFor × List Bool)} {ops : List (GraphOp T)} {os : List Empty}

theorem sound_create (conv : IndexConverter T) (nodes : List (WaitFor × List Bool)) :
    (create conv nodes).Sound where
  nodes i n hn := by
    obtain ⟨node, -, rfl⟩ := List.mem_map.mp (List.mem_of_getElem? hn)
    refine ⟨WaitHub.reads_of_thread ?_ nofun nofun, fun _ => rfl, nofun, nofun, nofun, nofun,
      nofun, le_rfl⟩
    intro q hq
    obtain ⟨b, -, rfl⟩ := List.mem_map.mp hq
    cases b with
    | true => exact fun _ _ => rfl
    | false => trivial
  sources := nofun
  callbacks := nofun
  outside _ := rfl
  latches := nofun
  started := nofun

theorem sound_of_runs (hrun : (camGraph conv).Runs (create conv nodes) ops g os) : g.Sound :=
  hrun.invariant (I := fun _ g _ => g.Sound) (sound_create conv nodes)
    fun _ _ _ _ _ _ hg hstep => by
      obtain ⟨g', hnext, heq⟩ := map_eq_ok_iff.mp hstep
      cases heq
      exact (hg.next hnext).sound

theorem covered_of_runs (hrun : (camGraph conv).RunsMeeting (fun _ g op => g.notifies op = true)
    (create conv nodes) ops g os) : g.ballot.Covered := by
  have hcreate : (create conv nodes).ballot.Covered := by
    refine ⟨fun p _ hp => ?_, nofun⟩
    obtain ⟨i, -, hi⟩ := hp
    cases hi
  refine (hrun.invariant (I := fun _ g _ => g.Sound ∧ g.ballot.Covered)
    ⟨sound_create conv nodes, hcreate⟩ fun _ g _ op _ _ hg hC hstep => ?_).2
  obtain ⟨g', hnext, heq⟩ := map_eq_ok_iff.mp hstep
  cases heq
  have hadvances := hg.1.next hnext
  exact ⟨hadvances.sound, hg.2.steps (hadvances.steps hC)⟩

/-- While `waitSync` is on, its latch is open only when all nodes are done. -/
def QuietWhenOpen (g : CamGraph conv) : Prop :=
  g.syncAt.isSyncing = true → ∀ l, g.latches[0]? = some l → l.isOpen = true →
    ∀ n ∈ g.nodes, n.Quiet

/-- **Quiescence.** The count of every latch stays between zero and the number of nodes, and where
all steps notify, the latch opens only when all nodes are done. -/
theorem sync_of_runs (hrun : (camGraph conv).Runs (create conv nodes) ops g os) :
    (∀ l ∈ g.latches, 0 ≤ l.mDone ∧ l.mDone ≤ g.nodes.length) ∧
      ((camGraph conv).RunsMeeting (fun _ g op => g.notifies op = true) (create conv nodes) ops g
        os → g.QuietWhenOpen) := by
  have hg := sound_of_runs hrun
  refine ⟨fun l hl => (hg.latches l hl).bounds, fun hmeeting hsyncing l hl hopen n hn => ?_⟩
  have hcounted : ∀ i < g.nodes.length, some i ∈ g.ballot.voted := fun i hi =>
    mem_voted.mpr (counted_iff.mpr ⟨hsyncing, l, hl,
      (hg.latches l (List.mem_of_getElem? hl)).isSync_of_isOpen hopen hi⟩)
  -- every enque on its way is of a node
  have hsources : ∀ m ∈ g.ballot.messages, m.source ∈ g.ballot.voted := by
    intro m hm
    obtain ⟨e, he, rfl⟩ := List.mem_map.mp hm
    cases hparty : e.source.party with
    | none =>
      have houtside : e.source = .outside := by
        cases hs : e.source <;> simp [Source.party, hs] at hparty ⊢
      have hzero := hg.outside fun hcalled => by simp [hcalled, SyncAt.isSyncing] at hsyncing
      exact absurd (by simp [houtside]) (List.countP_eq_zero.mp hzero e he)
    | some i =>
      rw [message, hparty]
      exact hcounted i (hg.sources e he i hparty)
  obtain ⟨-, hquiet⟩ := (covered_of_runs hmeeting).quiescent hsources
  obtain ⟨i, hi⟩ := List.getElem?_of_mem hn
  have hinactive : ¬ n.Active := fun hactive =>
    hquiet (some i) (hcounted i (List.getElem?_eq_some_iff.mp hi).1)
      (mem_active.mpr ⟨n, hi, hactive⟩)
  exact (hg.nodes i n hi).quiet hinactive

def reportOps (i : ℕ) : List (GraphOp ℕ) := [.waitSignal i, .tryProcessStatusCB i, .onUpdate i]

/-- The thread of a node with one queue evaluates its condition. -/
def waitOps (i : ℕ) : List (GraphOp ℕ) :=
  [.enter, .call, .read, .finish, .relock].map (.waitCondition i)

/-- The thread of a node without data comes to be in sync. -/
def idleOps (i : ℕ) : List (GraphOp ℕ) := reportOps i ++ waitOps i ++ reportOps i

/-- The first node has got data from outside, and `waitSync` waits. -/
def syncOps : List (GraphOp ℕ) :=
  [.push .outside 0 0 5, .signalEnque 0, .waitSignal 0, .tryProcessStatusCB 0] ++ waitOps 0 ++
    List.replicate 5 .waitSync

/-- The first node passes its data on to the second, which is in sync. -/
def forwardOps : List (GraphOp ℕ) :=
  idleOps 1 ++ [.deque 0 0 none, .push (.thread 0) 1 0 7, .signalEnque 0]

/-- The second node is taken out of sync, and takes its data, before the latch opens. -/
def forwardedOps : List (GraphOp ℕ) :=
  syncOps ++ forwardOps ++ [.onNotify 0, .signal 0, .done 0] ++ idleOps 0 ++ waitOps 1 ++
    [.deque 1 0 none, .done 1] ++ idleOps 1

/-- A graph of two nodes that waits for its latch, which is open once all data has been taken. -/
theorem sync_of_runs_forwarded : ∃ g os,
    (camGraph WaitHub.idConverter).Runs (create _ [(.anyQueue, [false]), (.anyQueue, [false])])
      forwardedOps g os ∧
      (g.syncAt = .waiting ∧ (g.latches.map CountDownLatch.isOpen) = [true]) ∧
      (∀ l ∈ g.latches, 0 ≤ l.mDone ∧ l.mDone ≤ g.nodes.length) ∧ g.QuietWhenOpen := by
  obtain ⟨g, os, hrun, hopen⟩ : ∃ g os,
      (camGraph WaitHub.idConverter).Runs
        (create _ [(.anyQueue, [false]), (.anyQueue, [false])]) forwardedOps g os ∧
        (g.syncAt = .waiting ∧ (g.latches.map CountDownLatch.isOpen) = [true]) :=
    Machine.exists_run_of_shows (by decide +kernel)
  obtain ⟨hbounds, hquiet⟩ := sync_of_runs hrun
  exact ⟨g, os, hrun, hopen, hbounds, hquiet (hrun.meeting (by decide +kernel))⟩

/-- The second node has a `PriorityWaitQueue`, whose enque does not take it out of sync: the latch
opens while there is data in its queue. -/
theorem priorityEnque_opens : ¬ ∀ ops g os,
    (camGraph WaitHub.idConverter).Runs (create _ [(.anyQueue, [false]), (.anyQueue, [true])])
      ops g os → g.QuietWhenOpen := by
  obtain ⟨g, os, hrun, hsyncing, hopen, hdata⟩ : ∃ g os,
      (camGraph WaitHub.idConverter).Runs
        (create _ [(.anyQueue, [false]), (.anyQueue, [true])])
        (syncOps ++ forwardOps ++ [.done 0] ++ idleOps 0) g os ∧
        g.syncAt.isSyncing = true ∧ (g.latches[0]?.any CountDownLatch.isOpen) = true ∧
          (g.nodes.all CamThreadNode.isAllQueueEmpty) = false :=
    Machine.exists_run_of_shows (by decide +kernel)
  intro hall
  obtain ⟨l, hl, hopen⟩ := (Option.any_eq_true _ _).mp hopen
  obtain ⟨n, hn, hnonempty⟩ := List.all_eq_false.mp hdata
  exact hnonempty (hall _ g os hrun hsyncing l hl hopen n hn).empty

end CamGraph

end MtkHardware.FeaturePipe
