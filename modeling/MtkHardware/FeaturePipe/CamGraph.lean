import MtkHardware.FeaturePipe.WaitHub

/-!
# Graphs of Nodes with Threads

The nodes of a `CamGraph` have a thread each, which waits at its hub for data and then works on
what it finds: it takes elements out of its queues, enques data to the nodes, and may leave work
to other threads (`incExtThreadDependency`), which enque data as well until they are done. From
outside of the graph data is enqued under the mutex of the graph, which `waitSync` holds, too.

`waitSync` makes a `CountDownLatch` and gives every node a callback that counts it down. A node
calls it between two rounds of its loop, with whether it is in sync: the decision is taken under
`mThreadMutex`, and the callback is called after that mutex has been released. An enque calls it
to take the node out of sync, after it has pushed its data and where the callback has been
registered at the hub, too; a `PriorityWaitQueue` does not call it. The callbacks of a `waitSync`
that is over may still be called.

What is done under a mutex is one step of `camGraph`, as is `isAllQueueEmpty`: where it finds all
queues empty, all of them have been empty at its first look. Stopping, flushing and dry runs are
left out, but for the signals that they trigger.
-/

namespace MtkHardware.FeaturePipe

/-- `CountDownLatch`, and the `mIsSync` of the callbacks that count it down, by their nodes. -/
structure CountDownLatch where
  mTotal : ℕ
  mDone : ℤ
  mIsSync : List Bool
  deriving DecidableEq, Repr

inductive LoopAt
  | waitSignal
  /-- With the signals that it has been woken by. -/
  | processing (signal : Finset Signal)
  /-- Before the call of the callback that it has got from `mStatusCB`, by its latch. -/
  | reporting (cb : ℕ) (inSync : Bool)
  /-- In `onThreadLoop`, in or before `waitCondition`. -/
  | looping
  /-- In `onThreadLoop`, with data. -/
  | working
  deriving DecidableEq

/-- `CamThreadNode`. -/
structure CamThreadNode {T : Type*} (conv : IndexConverter T) where
  waitFor : WaitFor
  hub : WaitHub conv
  mStatusCB : Option ℕ := none
  mEnqueCB : Option ℕ := none
  mExtThreadDependency : ℕ := 0
  loopAt : LoopAt := .waitSignal

inductive Source
  | outside
  /-- The thread of a node. -/
  | thread (i : ℕ)
  /-- A thread that a node depends on. -/
  | extThread (i : ℕ)
  deriving DecidableEq, Repr

inductive EnqueAt
  | pushed
  /-- In `signalEnque`, before the call of the callback. -/
  | notifying (cb : ℕ)
  | notified
  deriving DecidableEq, Repr

structure Enque where
  source : Source
  target : ℕ
  queue : ℕ
  enqueAt : EnqueAt := .pushed
  deriving DecidableEq, Repr

/-- Where `waitSync` is. -/
inductive SyncAt
  | notCalled
  | registerStatusCB (i : ℕ)
  | registerEnqueCB (i : ℕ)
  | waiting
  | resetStatusCB (i : ℕ)
  | resetEnqueCB (i : ℕ)
  deriving DecidableEq, Repr

structure CamGraph {T : Type*} (conv : IndexConverter T) where
  nodes : List (CamThreadNode conv)
  /-- The latches, the last one first. -/
  latches : List CountDownLatch := []
  /-- The enques on their way, in the order in which they have pushed. -/
  enques : List Enque := []
  syncAt : SyncAt := .notCalled

inductive GraphOp (T : Type*)
  | waitSignal (i : ℕ)
  | tryProcessStatusCB (i : ℕ)
  /-- The thread of a node calls its callback. -/
  | onUpdate (i : ℕ)
  /-- A step of `waitCondition`. -/
  | waitCondition (i : ℕ) (op : HubOp T)
  /-- The thread of a node takes an element out of a queue. -/
  | deque (i : ℕ) (queue : ℕ) (id : Option ℕ)
  /-- `onThreadLoop` returns. -/
  | done (i : ℕ)
  | incExtThreadDependency (i : ℕ)
  | decExtThreadDependency (i : ℕ)
  | triggerSignal (i : ℕ) (signal : Finset Signal)
  /-- An enque pushes its data. -/
  | push (source : Source) (target queue : ℕ) (val : T)
  /-- The `k`th enque takes the mutex of the hub. -/
  | signalEnque (k : ℕ)
  /-- The `k`th enque calls the callback. -/
  | onNotify (k : ℕ)
  /-- The `k`th enque takes the mutex of the hub again, and signals. -/
  | signal (k : ℕ)
  /-- The next step of `waitSync`. -/
  | waitSync

namespace CountDownLatch

/-- `CountDownLatch(total)` with the callbacks of `total` nodes. -/
def create (total : ℕ) : CountDownLatch :=
  { mTotal := total, mDone := 0, mIsSync := List.replicate total false }

def isSync (l : CountDownLatch) (i : ℕ) : Bool := l.mIsSync[i]?.getD false

/-- `SyncCounterCB::onUpdate`. -/
def onUpdate (l : CountDownLatch) (i : ℕ) (isSync : Bool) : CountDownLatch :=
  { l with mDone :=
             if isSync && !l.isSync i then l.mDone + 1
             else if !isSync && l.isSync i then l.mDone - 1
             else l.mDone
           mIsSync := l.mIsSync.set i isSync }

/-- `SyncCounterCB::onNotify`. -/
def onNotify (l : CountDownLatch) (i : ℕ) : CountDownLatch :=
  if l.isSync i then { l with mDone := l.mDone - 1, mIsSync := l.mIsSync.set i false } else l

/-- Does `wait` return? -/
def isOpen (l : CountDownLatch) : Bool := !(l.mDone < l.mTotal)

end CountDownLatch

namespace CamThreadNode

variable {T : Type*} {conv : IndexConverter T}

/-- The signals that `waitSignal` returns for. -/
def TRIGGER : Finset Signal :=
  {.SIGNAL_STOP, .SIGNAL_CB, .SIGNAL_DATA, .SIGNAL_IDLE_CB, .SIGNAL_SYNC_CB,
    .SIGNAL_NEED_SYNC_BREAK, .SIGNAL_DRY_RUN, .SIGNAL_DRY_RUN_ONCE}

/-- `isAllQueueEmpty`. -/
def isAllQueueEmpty (n : CamThreadNode conv) : Bool := !n.hub.mQueues.any IWaitQueue.isReady

/-- `waitSignal`, which returns when there is a signal or data. -/
def waitSignal (n : CamThreadNode conv) : Except Blocked (CamThreadNode conv) :=
  if n.loopAt = .waitSignal then
    let mSignal := if n.isAllQueueEmpty then n.hub.mSignal
      else n.hub.mSignal ∪ {Signal.SIGNAL_DATA}
    if (mSignal ∩ TRIGGER).Nonempty then
      .ok { n with hub := { n.hub with mSignal }, loopAt := .processing mSignal }
    else .error .blocked
  else .error .blocked

def inSync (n : CamThreadNode conv) (signal : Finset Signal) : Bool :=
  decide (Signal.SIGNAL_IDLE ∈ signal) && n.mExtThreadDependency == 0 && n.isAllQueueEmpty

/-- `tryProcessStatusCB` under `mThreadMutex`, where the thread has been woken by
`SIGNAL_SYNC_CB`. -/
def tryProcessStatusCB (n : CamThreadNode conv) : Except Blocked (CamThreadNode conv) :=
  match n.loopAt with
  | .processing signal =>
    if Signal.SIGNAL_SYNC_CB ∈ signal then
      let mSignal :=
        if Signal.SIGNAL_IDLE ∈ signal ∧ Signal.SIGNAL_NEED_SYNC_BREAK ∈ signal then
          n.hub.mSignal \ {Signal.SIGNAL_NEED_SYNC_BREAK}
        else n.hub.mSignal
      let loopAt := match n.mStatusCB with
        | some cb => .reporting cb (n.inSync signal)
        | none => .looping
      .ok { n with hub := { n.hub with mSignal }, loopAt }
    else .ok { n with loopAt := .looping }
  | _ => .error .blocked

/-- The steps of `waitCondition` that the thread takes. -/
def waits : HubOp T → Bool
  | .enter | .call | .read | .finish | .relock | .wakeUp => true
  | _ => false

/-- What the thread does after a step of `waitCondition`. -/
def afterWait : List HubEvent → LoopAt
  | .returned result :: _ => if result.condResult then .working else .waitSignal
  | [] => .looping

/-- A step of `waitCondition`. -/
def waitCondition (n : CamThreadNode conv) (op : HubOp T) :
    Except Blocked (CamThreadNode conv) :=
  if n.loopAt = .looping ∧ waits op then
    match n.hub.step n.waitFor op with
    | .ok (hub, os) => .ok { n with hub, loopAt := afterWait os }
    | .error e => .error e
  else .error .blocked

def deque (n : CamThreadNode conv) (queue : ℕ) (id : Option ℕ) :
    Except Blocked (CamThreadNode conv) :=
  if n.loopAt = .working then
    let c : Consume := match id with
      | some id => .dequeID id
      | none => .deque
    .ok { n with hub := { n.hub with
            mQueues := n.hub.mQueues.modify queue (IWaitQueue.consume c) } }
  else .error .blocked

/-- `onThreadLoop` returns. -/
def done (n : CamThreadNode conv) : Except Blocked (CamThreadNode conv) :=
  if n.loopAt = .working then .ok { n with loopAt := .waitSignal } else .error .blocked

/-- The signal of a change of `mExtThreadDependency`. -/
def signalSyncBreak (n : CamThreadNode conv) : CamThreadNode conv :=
  if n.mStatusCB.isSome then
    { n with hub := n.hub.triggerSignal {Signal.SIGNAL_NEED_SYNC_BREAK} }
  else n

/-- `incExtThreadDependency`, by the thread of the node with data or by a thread that the node
depends on. -/
def incExtThreadDependency (n : CamThreadNode conv) : Except Blocked (CamThreadNode conv) :=
  if n.loopAt = .working ∨ 0 < n.mExtThreadDependency then
    let n := { n with mExtThreadDependency := n.mExtThreadDependency + 1 }
    .ok (if n.mExtThreadDependency = 1 then n.signalSyncBreak else n)
  else .error .blocked

/-- `decExtThreadDependency`, by a thread that is not one of `enqueing` threads that enque. -/
def decExtThreadDependency (n : CamThreadNode conv) (enqueing : ℕ) :
    Except Blocked (CamThreadNode conv) :=
  if enqueing < n.mExtThreadDependency then
    let n := { n with mExtThreadDependency := n.mExtThreadDependency - 1 }
    .ok (if n.mExtThreadDependency = 0 then n.signalSyncBreak else n)
  else .error .blocked

/-- `registerStatusCB`. -/
def registerStatusCB (n : CamThreadNode conv) (cb : Option ℕ) : CamThreadNode conv :=
  let signal : Finset Signal := {.SIGNAL_SYNC_CB, .SIGNAL_NEED_SYNC_BREAK}
  match cb with
  | some _ => { n with mStatusCB := cb, hub := n.hub.triggerSignal signal }
  | none => { n with mStatusCB := cb, hub := { n.hub with mSignal := n.hub.mSignal \ signal } }

/-- `registerEnqueCB`. -/
def registerEnqueCB (n : CamThreadNode conv) (cb : Option ℕ) : CamThreadNode conv :=
  { n with mEnqueCB := cb }

end CamThreadNode

namespace CamGraph

variable {T : Type*} {conv : IndexConverter T}

/-- The latch of the last `waitSync`. Latches are named by the number of those before them. -/
def latchAt (g : CamGraph conv) (cb : ℕ) : ℕ := g.latches.length - 1 - cb

/-- The callbacks of the last `waitSync`. -/
def lastCB (g : CamGraph conv) : ℕ := g.latches.length - 1

/-- A step of a node under the mutex of its hub, or of its thread. -/
def onNode (g : CamGraph conv) (i : ℕ)
    (f : CamThreadNode conv → Except Blocked (CamThreadNode conv)) :
    Except Blocked (CamGraph conv) :=
  match g.nodes[i]? with
  | some n => (f n).map fun n' => { g with nodes := g.nodes.set i n' }
  | none => .error .blocked

/-- A step under the mutex of the hub, where it is free. -/
def locked (f : CamThreadNode conv → CamThreadNode conv) (n : CamThreadNode conv) :
    Except Blocked (CamThreadNode conv) :=
  if n.hub.isFree then .ok (f n) else .error .blocked

def enquesOf (g : CamGraph conv) (source : Source) : ℕ := g.enques.countP (·.source == source)

/-- A step of the thread of a node that is not about to enque. -/
def onThread (g : CamGraph conv) (i : ℕ)
    (f : CamThreadNode conv → Except Blocked (CamThreadNode conv)) :
    Except Blocked (CamGraph conv) :=
  if g.enquesOf (.thread i) = 0 then g.onNode i f else .error .blocked

def mayEnque (g : CamGraph conv) : Source → Bool
  | .outside => g.syncAt == .notCalled
  | .thread i =>
    match g.nodes[i]? with
    | some n => n.loopAt == .working && g.enquesOf (.thread i) == 0
    | none => false
  | .extThread i =>
    match g.nodes[i]? with
    | some n => decide (g.enquesOf (.extThread i) < n.mExtThreadDependency)
    | none => false

def push (g : CamGraph conv) (source : Source) (target queue : ℕ) (val : T) :
    Except Blocked (CamGraph conv) :=
  if g.mayEnque source then
    (g.onNode target fun n =>
      if queue < n.hub.mQueues.length then
        .ok { n with hub := { n.hub with
                mQueues := n.hub.mQueues.modify queue (IWaitQueue.push val) } }
      else .error .blocked).map fun g =>
        { g with enques := g.enques ++ [{ source, target, queue }] }
  else .error .blocked

/-- The `k`th enque takes the mutex of the hub: it is on to the callback, if there is one, and has
else signaled. -/
def signalEnque (g : CamGraph conv) (k : ℕ) : Except Blocked (CamGraph conv) :=
  match g.enques[k]? with
  | some e =>
    if e.enqueAt = .pushed then
      match g.nodes[e.target]? with
      | some n =>
        match n.hub.mQueues[e.queue]?, n.mEnqueCB with
        | some (.fifo _), some cb =>
          if n.hub.isFree then
            .ok { g with enques := g.enques.set k { e with enqueAt := .notifying cb } }
          else .error .blocked
        | _, _ =>
          (g.onNode e.target (locked fun n =>
            { n with hub := n.hub.signalOf e.queue })).map fun g =>
              { g with enques := g.enques.eraseIdx k }
      | none => .error .blocked
    else .error .blocked
  | none => .error .blocked

def onLatch (g : CamGraph conv) (cb : ℕ) (f : CountDownLatch → CountDownLatch) : CamGraph conv :=
  { g with latches := g.latches.modify (g.latchAt cb) f }

/-- The `k`th enque calls the callback. -/
def onNotify (g : CamGraph conv) (k : ℕ) : Except Blocked (CamGraph conv) :=
  match g.enques[k]? with
  | some e =>
    match e.enqueAt with
    | .notifying cb =>
      .ok { g.onLatch cb fun l => l.onNotify e.target with
              enques := g.enques.set k { e with enqueAt := .notified } }
    | _ => .error .blocked
  | none => .error .blocked

/-- The `k`th enque signals. -/
def signal (g : CamGraph conv) (k : ℕ) : Except Blocked (CamGraph conv) :=
  match g.enques[k]? with
  | some e =>
    if e.enqueAt = .notified then
      (g.onNode e.target (locked fun n => { n with hub := n.hub.signalOf e.queue })).map fun g =>
        { g with enques := g.enques.eraseIdx k }
    else .error .blocked
  | none => .error .blocked

def onUpdate (g : CamGraph conv) (i : ℕ) : Except Blocked (CamGraph conv) :=
  match g.nodes[i]? with
  | some n =>
    match n.loopAt with
    | .reporting cb inSync =>
      .ok { g.onLatch cb fun l => l.onUpdate i inSync with
              nodes := g.nodes.set i { n with loopAt := .looping } }
    | _ => .error .blocked
  | none => .error .blocked

/-- `waitSync` before the registration of the `i`th node, or after the last. -/
def registerAt (g : CamGraph conv) (i : ℕ) : SyncAt :=
  if i < g.nodes.length then .registerStatusCB i else .waiting

/-- `waitSync` before it resets the callbacks of the `i`th node, or after the last. -/
def resetAt (g : CamGraph conv) (i : ℕ) : SyncAt :=
  if i < g.nodes.length then .resetStatusCB i else .notCalled

/-- The next step of `waitSync`, which takes the mutex of the graph. -/
def waitSync (g : CamGraph conv) : Except Blocked (CamGraph conv) :=
  match g.syncAt with
  | .notCalled =>
    if g.enquesOf .outside = 0 then
      .ok { g with latches := .create g.nodes.length :: g.latches, syncAt := g.registerAt 0 }
    else .error .blocked
  | .registerStatusCB i =>
    (g.onNode i (locked (·.registerStatusCB (some g.lastCB)))).map fun g =>
      { g with syncAt := .registerEnqueCB i }
  | .registerEnqueCB i =>
    (g.onNode i (locked (·.registerEnqueCB (some g.lastCB)))).map fun g =>
      { g with syncAt := g.registerAt (i + 1) }
  | .waiting =>
    match g.latches with
    | l :: _ => if l.isOpen then .ok { g with syncAt := g.resetAt 0 } else .error .blocked
    | [] => .error .blocked
  | .resetStatusCB i =>
    (g.onNode i (locked (·.registerStatusCB none))).map fun g =>
      { g with syncAt := .resetEnqueCB i }
  | .resetEnqueCB i =>
    (g.onNode i (locked (·.registerEnqueCB none))).map fun g =>
      { g with syncAt := g.resetAt (i + 1) }

def next (g : CamGraph conv) (op : GraphOp T) : Except Blocked (CamGraph conv) :=
  match op with
  | .waitSignal i => g.onThread i (·.waitSignal)
  | .tryProcessStatusCB i => g.onThread i (·.tryProcessStatusCB)
  | .onUpdate i => g.onUpdate i
  | .waitCondition i op => g.onThread i (·.waitCondition op)
  | .deque i queue id => g.onThread i (·.deque queue id)
  | .done i => g.onThread i (·.done)
  | .incExtThreadDependency i => g.onNode i (·.incExtThreadDependency)
  | .decExtThreadDependency i =>
    g.onNode i (·.decExtThreadDependency (g.enquesOf (.extThread i)))
  | .triggerSignal i signal =>
    if Signal.SIGNAL_IDLE ∈ signal then .error .blocked
    else g.onNode i (locked fun n => { n with hub := n.hub.triggerSignal signal })
  | .push source target queue val => g.push source target queue val
  | .signalEnque k => g.signalEnque k
  | .onNotify k => g.onNotify k
  | .signal k => g.signal k
  | .waitSync => g.waitSync

/-- A graph of nodes that wait for a condition on their queues, each queue a `PriorityWaitQueue` or
not. -/
def create (conv : IndexConverter T) (nodes : List (WaitFor × List Bool)) : CamGraph conv where
  nodes := nodes.map fun n => { waitFor := n.1, hub := .create conv n.2 }

end CamGraph

def camGraph {T : Type*} (conv : IndexConverter T) :
    Machine (CamGraph conv) (GraphOp T) Empty Blocked :=
  fun g op => (g.next op).map fun g' => (g', [])

end MtkHardware.FeaturePipe
