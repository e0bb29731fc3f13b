import Mathlib.Data.Prod.Lex
import MtkHardware.Util.OrderedMultiset
import MtkHardware.Util.Run

/-!
# Wait Queues

A `WaitQueue` is a queue; a `PriorityWaitQueue` keeps its elements by their index, a priority and
an identifier, and has two more containers beside them: the identifiers, and the indices. The
indices are kept as long as elements are only added, and made again from the elements after one has
been taken.
-/

namespace MtkHardware.FeaturePipe

/-- `IWaitQueue::Index`. -/
structure Index where
  mID : ℕ := 0
  mPriority : ℕ := 0
  deriving DecidableEq, Repr

/-- `Index::Less`. -/
def Index.Less (lhs rhs : Index) : Prop :=
  lhs.mPriority < rhs.mPriority ∨ lhs.mPriority = rhs.mPriority ∧ lhs.mID < rhs.mID

/-- The key that `Index::Less` compares. -/
def Index.key (i : Index) : ℕ ×ₗ ℕ := toLex (i.mPriority, i.mID)

/-- `IWaitQueue::IDSet`. -/
abbrev IDSet := OrderedMultiset (id : ℕ → ℕ)

/-- `IWaitQueue::IndexSet`. -/
abbrev IndexSet := OrderedMultiset Index.key

/-- The `IndexConverter` of a queue, which gives an element its index and its identifier. -/
structure IndexConverter (T : Type*) where
  index : T → Index
  getID : T → ℕ

/-- `WaitQueue`. -/
structure WaitQueue (T : Type*) where
  mQueue : List T := []
  deriving DecidableEq

/-- `PriorityWaitQueue`. -/
structure PriorityWaitQueue {T : Type*} (conv : IndexConverter T) where
  mDataSet : OrderedMultiset fun val : T => (conv.index val).key := .empty
  mIDSet : IDSet := .empty
  mIndexSetValid : Bool := true
  mIndexSet : IndexSet := .empty
  deriving DecidableEq

namespace WaitQueue

variable {T : Type*}

def isReady (q : WaitQueue T) : Bool := !q.mQueue.isEmpty

/-- The first half of `enque`, which then signals the hub. -/
def push (q : WaitQueue T) (val : T) : WaitQueue T := { mQueue := q.mQueue ++ [val] }

def deque (q : WaitQueue T) : WaitQueue T × Option T :=
  ({ mQueue := q.mQueue.tail }, q.mQueue.head?)

def clear (_ : WaitQueue T) : WaitQueue T := {}

def getIDSet (q : WaitQueue T) : IDSet :=
  if q.isReady then OrderedMultiset.empty.insert 0 else .empty

def getIndexSet (q : WaitQueue T) : IndexSet :=
  if q.isReady then OrderedMultiset.empty.insert {} else .empty

end WaitQueue

namespace PriorityWaitQueue

variable {T : Type*} {conv : IndexConverter T}

def isReady (q : PriorityWaitQueue conv) : Bool := !q.mDataSet.entries.isEmpty

/-- The first half of `enque`, which then signals the hub. -/
def push (q : PriorityWaitQueue conv) (val : T) : PriorityWaitQueue conv :=
  { q with mDataSet := q.mDataSet.insert val
           mIDSet := q.mIDSet.insert (conv.getID val)
           mIndexSet := if q.mIndexSetValid then q.mIndexSet.insert (conv.index val)
             else q.mIndexSet }

/-- The queue without its first element that the predicate holds of. -/
def dequeFirst (q : PriorityWaitQueue conv) (p : T → Bool) : PriorityWaitQueue conv × Option T :=
  match q.mDataSet.entries.find? p with
  | some val =>
    ({ q with mDataSet := q.mDataSet.eraseFirst p
              mIDSet := q.mIDSet.eraseKey (conv.getID val)
              mIndexSetValid := false }, some val)
  | none => (q, none)

/-- `deque(val)`. -/
def deque (q : PriorityWaitQueue conv) : PriorityWaitQueue conv × Option T :=
  q.dequeFirst fun _ => true

/-- `deque(id, val)`. -/
def dequeID (q : PriorityWaitQueue conv) (id : ℕ) : PriorityWaitQueue conv × Option T :=
  q.dequeFirst fun val => id == conv.getID val

def clear (q : PriorityWaitQueue conv) : PriorityWaitQueue conv :=
  { q with mDataSet := .empty, mIDSet := .empty }

def getIDSet (q : PriorityWaitQueue conv) : IDSet := q.mIDSet

/-- The queue with indices made again where they are not valid. -/
def validate (q : PriorityWaitQueue conv) : PriorityWaitQueue conv :=
  if q.mIndexSetValid then q
  else { q with mIndexSet := .ofList _ (q.mDataSet.entries.map conv.index), mIndexSetValid := true }

/-- What `getIndexSet` returns. -/
def getIndexSet (q : PriorityWaitQueue conv) : IndexSet := q.validate.mIndexSet

end PriorityWaitQueue

end MtkHardware.FeaturePipe
