import Mathlib.Data.Finset.Basic
import MtkHardware.FeaturePipe.WaitQueue

/-!
# Wait Hubs

A thread waits at a `WaitHub` until its queues satisfy a condition: all of them are ready, any of
them is, or all of them have an element of one identifier. `enque` first pushes its element under
the mutex of the queue, and then signals the hub under the mutex of the hub; a `PriorityWaitQueue`
does not signal as a `WaitQueue` does. `waitCondition` releases the mutex while it evaluates the
condition, which takes the mutex by itself and then reads the queues one by one, and takes it again
to note the result and to go to sleep.

Each of these is one step of `waitHub`. The thread may be woken without a signal. Outside of
`waitCondition` it takes elements out of the queues.
-/

namespace MtkHardware.FeaturePipe

/-- `WaitHub::Signal`. -/
inductive Signal
  | SIGNAL_STOP
  | SIGNAL_CB
  | SIGNAL_DATA
  | SIGNAL_IDLE
  | SIGNAL_IDLE_CB
  | SIGNAL_SYNC_CB
  | SIGNAL_NEED_SYNC_BREAK
  | SIGNAL_DRY_RUN
  | SIGNAL_DRY_RUN_ONCE
  deriving DecidableEq, Repr

/-- The signals that keep `waitCondition` from evaluating its condition. -/
def PRE_BREAK : Finset Signal :=
  {.SIGNAL_STOP, .SIGNAL_CB, .SIGNAL_DRY_RUN, .SIGNAL_DRY_RUN_ONCE}

/-- The signals that keep `waitCondition` from going to sleep. -/
def POST_BREAK : Finset Signal := PRE_BREAK ∪ {.SIGNAL_IDLE_CB, .SIGNAL_NEED_SYNC_BREAK}

/-- `IWaitQueue`. -/
inductive IWaitQueue {T : Type*} (conv : IndexConverter T)
  | fifo (q : WaitQueue T)
  | priority (q : PriorityWaitQueue conv)
  deriving DecidableEq

/-- What the thread does with a queue outside of `waitCondition`. -/
inductive Consume
  | deque
  /-- `deque(id, val)`, which a `WaitQueue` does not have. -/
  | dequeID (id : ℕ)
  | clear
  deriving DecidableEq, Repr

structure Reading where
  ready : Bool
  idSet : IDSet
  deriving DecidableEq

namespace IWaitQueue

variable {T : Type*} {conv : IndexConverter T}

def isReady : IWaitQueue conv → Bool
  | fifo q => q.isReady
  | priority q => q.isReady

def getIDSet : IWaitQueue conv → IDSet
  | fifo q => q.getIDSet
  | priority q => q.getIDSet

def getIndexSet : IWaitQueue conv → IndexSet
  | fifo q => q.getIndexSet
  | priority q => q.getIndexSet

/-- The queue after `getIndexSet`. -/
def validate : IWaitQueue conv → IWaitQueue conv
  | fifo q => fifo q
  | priority q => priority q.validate

def push (val : T) : IWaitQueue conv → IWaitQueue conv
  | fifo q => fifo (q.push val)
  | priority q => priority (q.push val)

def consume (c : Consume) : IWaitQueue conv → IWaitQueue conv
  | fifo q =>
    match c with
    | .deque => fifo q.deque.1
    | .dequeID _ => fifo q
    | .clear => fifo q.clear
  | priority q =>
    match c with
    | .deque => priority q.deque.1
    | .dequeID id => priority (q.dequeID id).1
    | .clear => priority q.clear

def isPriority : IWaitQueue conv → Bool
  | fifo _ => false
  | priority _ => true

def reading (q : IWaitQueue conv) : Reading := { ready := q.isReady, idSet := q.getIDSet }

end IWaitQueue

inductive WaitFor
  | allQueue
  | anyQueue
  | allQueueSync
  deriving DecidableEq, Repr

structure CondResult where
  condResult : Bool
  id : Option ℕ := none
  deriving DecidableEq, Repr

/-- `isAllQueueReady`. -/
def isAllQueueReady (readings : List Reading) : Bool :=
  let ready := readings.countP (·.ready)
  ready != 0 && ready == readings.length

/-- `isAnyQueueReady`. -/
def isAnyQueueReady (readings : List Reading) : Bool := readings.any (·.ready)

/-- `isAllQueueReadySync`, with the indices of the first queue. -/
def isAllQueueReadySync (readings : List Reading) (indexSet : IndexSet) : Option ℕ :=
  match readings with
  | [] => none
  | _ :: idSets =>
    (indexSet.entries.find? fun it =>
      idSets.all fun r => r.idSet.entries.contains it.mID).map Index.mID

def evaluate (waitFor : WaitFor) (readings : List Reading) (indexSet : IndexSet) : CondResult :=
  match waitFor with
  | .allQueue => { condResult := isAllQueueReady readings }
  | .anyQueue => { condResult := isAnyQueueReady readings }
  | .allQueueSync =>
    { condResult := (isAllQueueReadySync readings indexSet).isSome
      id := isAllQueueReadySync readings indexSet }

inductive WaitAt
  | outside
  /-- Before the call of the condition, without the mutex. -/
  | calling
  /-- In the condition, with the mutex. -/
  | reading (readings : List Reading)
  /-- After the condition, without the mutex. -/
  | evaluated (result : CondResult)
  /-- In the wait for the condition variable. -/
  | waiting (signaled : Bool)
  deriving DecidableEq

structure WaitHub {T : Type*} (conv : IndexConverter T) where
  mQueues : List (IWaitQueue conv)
  mSignal : Finset Signal := ∅
  /-- The queues whose enques have pushed and have yet to signal. -/
  enqueing : List ℕ := []
  thread : WaitAt := .outside

inductive HubOp (T : Type*)
  /-- The first half of `enque`. -/
  | push (i : ℕ) (val : T)
  /-- The second half of `enque`. -/
  | signal (i : ℕ)
  | triggerSignal (signal : Finset Signal)
  | resetSignal (signal : Finset Signal)
  /-- The waiting thread enters `waitCondition`. -/
  | enter
  /-- It calls the condition, which takes the mutex. -/
  | call
  /-- The condition reads the next queue. -/
  | read
  /-- The condition returns. -/
  | finish
  /-- The thread takes the mutex again. -/
  | relock
  | wakeUp
  | consume (i : ℕ) (c : Consume)

inductive HubEvent
  | returned (result : CondResult)
  deriving DecidableEq, Repr

namespace WaitHub

variable {T : Type*} {conv : IndexConverter T}

/-- `mCondition.broadcast`. -/
def broadcast (h : WaitHub conv) : WaitHub conv :=
  match h.thread with
  | .waiting _ => { h with thread := .waiting true }
  | _ => h

/-- `signalEnque`. -/
def signalEnque (h : WaitHub conv) : WaitHub conv :=
  { h with mSignal := (h.mSignal ∪ {Signal.SIGNAL_DATA}) \ {Signal.SIGNAL_IDLE} }.broadcast

/-- `triggerSignal`. -/
def triggerSignal (h : WaitHub conv) (signal : Finset Signal) : WaitHub conv :=
  { h with mSignal := h.mSignal ∪ signal }.broadcast

def signalOf (h : WaitHub conv) (i : ℕ) : WaitHub conv :=
  match h.mQueues[i]? with
  | some (.priority _) => h.triggerSignal {.SIGNAL_DATA}
  | _ => h.signalEnque

def firstIndexSet (h : WaitHub conv) : IndexSet :=
  match h.mQueues with
  | [] => .empty
  | q :: _ => q.getIndexSet

def condition (waitFor : WaitFor) (h : WaitHub conv) : CondResult :=
  evaluate waitFor (h.mQueues.map IWaitQueue.reading) h.firstIndexSet

/-- The loop of `waitCondition`, with the mutex. -/
def loop (h : WaitHub conv) : WaitHub conv × List HubEvent :=
  if (h.mSignal ∩ PRE_BREAK).Nonempty then
    ({ h with thread := .outside }, [.returned { condResult := false }])
  else ({ h with thread := .calling }, [])

/-- The hub after the condition has read the indices of the first queue, if it does. -/
def validateFirst (waitFor : WaitFor) (h : WaitHub conv) : WaitHub conv :=
  match waitFor with
  | .allQueueSync => { h with mQueues := h.mQueues.modify 0 IWaitQueue.validate }
  | .allQueue | .anyQueue => h

def dataSignal (mSignal : Finset Signal) : Finset Signal :=
  let mSignal := (mSignal ∪ {Signal.SIGNAL_DATA}) \ {Signal.SIGNAL_IDLE}
  if Signal.SIGNAL_SYNC_CB ∈ mSignal then mSignal ∪ {Signal.SIGNAL_NEED_SYNC_BREAK} else mSignal

def idleSignal (mSignal : Finset Signal) : Finset Signal :=
  (mSignal \ {Signal.SIGNAL_DATA}) ∪ {Signal.SIGNAL_IDLE}

def relock (h : WaitHub conv) (result : CondResult) : WaitHub conv × List HubEvent :=
  if result.condResult then
    ({ h with mSignal := dataSignal h.mSignal, thread := .outside }, [.returned result])
  else if (idleSignal h.mSignal ∩ POST_BREAK).Nonempty then
    ({ h with mSignal := idleSignal h.mSignal, thread := .outside },
      [.returned { condResult := false }])
  else ({ h with mSignal := idleSignal h.mSignal, thread := .waiting false }, [])

def isFree (h : WaitHub conv) : Bool :=
  match h.thread with
  | .reading _ => false
  | _ => true

/-- One step. `SIGNAL_IDLE` is triggered and reset by the thread only. -/
def step (waitFor : WaitFor) (h : WaitHub conv) (op : HubOp T) :
    Except Blocked (WaitHub conv × List HubEvent) :=
  match op with
  | .push i val =>
    if i < h.mQueues.length then
      .ok ({ h with mQueues := h.mQueues.modify i (IWaitQueue.push val)
                    enqueing := i :: h.enqueing }, [])
    else .error .blocked
  | .signal i =>
    if h.isFree ∧ i ∈ h.enqueing then
      .ok ({ h with enqueing := h.enqueing.erase i }.signalOf i, [])
    else .error .blocked
  | .triggerSignal signal =>
    if h.isFree ∧ Signal.SIGNAL_IDLE ∉ signal then .ok (h.triggerSignal signal, [])
    else .error .blocked
  | .resetSignal signal =>
    if h.isFree ∧ Signal.SIGNAL_IDLE ∉ signal then
      .ok ({ h with mSignal := h.mSignal \ signal }, [])
    else .error .blocked
  | .enter => if h.thread = .outside then .ok h.loop else .error .blocked
  | .call =>
    if h.thread = .calling then .ok ({ h with thread := .reading [] }, []) else .error .blocked
  | .read =>
    match h.thread with
    | .reading readings =>
      match h.mQueues[readings.length]? with
      | some q => .ok ({ h with thread := .reading (readings ++ [q.reading]) }, [])
      | none => .error .blocked
    | _ => .error .blocked
  | .finish =>
    match h.thread with
    | .reading readings =>
      if readings.length = h.mQueues.length then
        .ok ({ h.validateFirst waitFor with
               thread := .evaluated (evaluate waitFor readings h.firstIndexSet) }, [])
      else .error .blocked
    | _ => .error .blocked
  | .relock =>
    match h.thread with
    | .evaluated result => .ok (h.relock result)
    | _ => .error .blocked
  | .wakeUp =>
    match h.thread with
    | .waiting _ => .ok h.loop
    | _ => .error .blocked
  | .consume i c =>
    if h.thread = .outside then
      .ok ({ h with mQueues := h.mQueues.modify i (IWaitQueue.consume c) }, [])
    else .error .blocked

/-- A hub with empty queues, each a `PriorityWaitQueue` or not. -/
def create (conv : IndexConverter T) (priorities : List Bool) : WaitHub conv where
  mQueues := priorities.map fun
    | true => .priority {}
    | false => .fifo {}

end WaitHub

/-- A hub, the thread that waits for a condition, and the threads that enque. -/
def waitHub {T : Type*} (conv : IndexConverter T) (waitFor : WaitFor) :
    Machine (WaitHub conv) (HubOp T) HubEvent Blocked :=
  WaitHub.step waitFor

end MtkHardware.FeaturePipe
