import MtkHardware.Util.Run

/-!
# Stream Buffer Pools

A `StreamBufferPool` hands out buffers by their index in a storage. Up to a maximum that
`initPool` sets, buffers are constructed by an allocator thread, which `commitPool` starts, or,
while that thread is not running, by the callers of `acquireFromPool` themselves. Both decrement
the number of buffers that are still to be allocated, a 32-bit counter.

The interleavings of the callers and of the allocator thread are the runs of `poolMachine`. What
is done under `mLock` is one step, but for the construction of a buffer: a caller of
`acquireFromPool` holds the lock while it constructs one, and the allocator thread constructs
without it. `commitPool` reads the counter without the lock, and starts the thread in a second
step. The thread is an `android::Thread`: it cannot be started while it is running, calls
`threadLoop` until this returns `false`, and is running from its start until it has seen that.
A caller that waits for its own condition may be woken at any time, by a signal or by its timeout.
-/

namespace MtkHardware.StreamBuf

inductive MERROR
  | ok
  | unknownError
  | invalidOperation
  | noMemory
  | timedOut
  deriving DecidableEq, Repr

abbrev Caller := ℕ

/-- The index of a buffer in the storage of the pool, a 32-bit number. -/
abbrev BufferIndex := ℕ

/-- A caller that waits in `acquireFromPool`, by its condition. -/
structure Waiter where
  caller : Caller
  /-- Has its condition been signaled? -/
  signaled : Bool := false
  deriving DecidableEq, Repr

inductive AllocThread
  /-- Not running: not started, or through. -/
  | idle
  /-- In `threadLoop`, before `do_construct` has returned a buffer. -/
  | constructing
  /-- In `threadLoop`, with a buffer that is not in the pool yet. -/
  | constructed (construct_result : BufferIndex)
  /-- `threadLoop` has returned `false`, but the thread is still running. -/
  | ended
  deriving DecidableEq, Repr

structure StreamBufferPool where
  /-- The number of buffers in `mStorage`. -/
  storage : ℕ := 0
  mlAvailableBuf : List BufferIndex := []
  mlInUseBuf : List BufferIndex := []
  muToAllocCnt : ℕ := 0
  mWaitingList : List Waiter := []
  thread : AllocThread := .idle
  /-- The caller that constructs a buffer in `acquireFromPool`, holding `mLock`. -/
  constructing : Option Caller := none
  /-- The callers of `commitPool` that are about to start the thread. -/
  committing : List Caller := []
  /-- The maximum that the last `initPool` that succeeded was called with. -/
  configured : Option ℕ := none
  deriving DecidableEq, Repr

/-- What the calling threads and the allocator thread do. `allocates` is the answer of the
allocator: has a buffer been allocated? -/
inductive PoolOp
  | initPool (szCallerName : Option String)
      (maxNumberOfBuffers minNumberOfInitialCommittedBuffers : ℕ) (allocates : ℕ → Bool)
  | commitPool (caller : Caller)
  | run (caller : Caller)
  | acquireFromPool (caller : Caller)
  | constructed (allocates : Bool)
  | wakeUp (caller : Caller)
  | releaseToPool (pBufferIndex : BufferIndex)
  | threadConstruct (allocates : Bool)
  | threadCommit
  | threadExit

inductive PoolEvent
  | initPool (err : MERROR)
  | commitPool (caller : Caller) (err : MERROR)
  | acquireFromPool (caller : Caller) (result : Except MERROR BufferIndex)
  | releaseToPool (pBufferIndex : BufferIndex) (err : MERROR)

namespace StreamBufferPool

/-- Is `mLock` held between two steps? -/
def locked (p : StreamBufferPool) : Bool := p.constructing.isSome

/-- `android::Thread::isRunning`. -/
def isRunning (p : StreamBufferPool) : Bool := p.thread != .idle

/-- Stores the buffer that the allocator yields, if it yields one, and returns its index. -/
def do_construct (p : StreamBufferPool) (allocates : Bool) :
    StreamBufferPool × Except MERROR BufferIndex :=
  if allocates then ({ p with storage := p.storage + 1 }, .ok (p.storage % 2 ^ 32))
  else (p, .error .noMemory)

/-- `--muToAllocCnt`, which wraps around at zero. -/
def decrementToAllocCnt (p : StreamBufferPool) : StreamBufferPool :=
  { p with muToAllocCnt := if p.muToAllocCnt = 0 then 2 ^ 32 - 1 else p.muToAllocCnt - 1 }

/-- The loop of `initPool`, with the values of its index that are left. -/
def constructInitial (allocates : ℕ → Bool) : ℕ → StreamBufferPool → StreamBufferPool × MERROR
  | 0, p => (p, .ok)
  | i + 1, p =>
    match p.do_construct (allocates i) with
    | (p', .error _) => (p', .noMemory)
    | (p', .ok construct_result) => constructInitial allocates i
        { p' with mlAvailableBuf := p'.mlAvailableBuf ++ [construct_result] }

/-- Does `initPool` take its parameters? -/
def ValidParams (szCallerName : Option String)
    (maxNumberOfBuffers minNumberOfInitialCommittedBuffers : ℕ) : Prop :=
  szCallerName ≠ none ∧ maxNumberOfBuffers ≠ 0 ∧
    minNumberOfInitialCommittedBuffers ≤ maxNumberOfBuffers

instance (szCallerName : Option String) (max min : ℕ) :
    Decidable (ValidParams szCallerName max min) :=
  inferInstanceAs (Decidable (_ ∧ _ ∧ _))

def initPool (p : StreamBufferPool) (szCallerName : Option String)
    (maxNumberOfBuffers minNumberOfInitialCommittedBuffers : ℕ) (allocates : ℕ → Bool) :
    StreamBufferPool × MERROR :=
  if ValidParams szCallerName maxNumberOfBuffers minNumberOfInitialCommittedBuffers then
    match constructInitial allocates minNumberOfInitialCommittedBuffers p with
    | (p', .ok) => ({ p' with
        muToAllocCnt := (maxNumberOfBuffers - minNumberOfInitialCommittedBuffers) % 2 ^ 32
        configured := some maxNumberOfBuffers }, .ok)
    | (p', err) => (p', err)
  else (p, .invalidOperation)

def signalUserLocked (p : StreamBufferPool) : StreamBufferPool :=
  match p.mWaitingList with
  | [] => p
  | w :: ws => { p with mWaitingList := { w with signaled := true } :: ws }

/-- `commitPool` up to the start of the thread. -/
def commitPool (p : StreamBufferPool) (caller : Caller) : StreamBufferPool × List PoolEvent :=
  if 0 < p.muToAllocCnt then ({ p with committing := p.committing ++ [caller] }, [])
  else (p, [.commitPool caller .ok])

/-- The rest of `commitPool`. A thread that is running is not started again. -/
def run (p : StreamBufferPool) (caller : Caller) :
    Except Blocked (StreamBufferPool × List PoolEvent) :=
  if caller ∈ p.committing then
    let p := { p with committing := p.committing.erase caller }
    if p.isRunning then .ok (p, [.commitPool caller .unknownError])
    else .ok ({ p with thread := .constructing }, [.commitPool caller .ok])
  else .error .blocked

def takeAvailable (p : StreamBufferPool) : Option (StreamBufferPool × BufferIndex) :=
  match p.mlAvailableBuf with
  | [] => none
  | b :: bs => some ({ p with mlAvailableBuf := bs, mlInUseBuf := p.mlInUseBuf ++ [b] }, b)

/-- `acquireFromPool` up to the construction of a buffer, or up to the wait. -/
def acquireFromPool (p : StreamBufferPool) (caller : Caller) :
    Except Blocked (StreamBufferPool × List PoolEvent) :=
  if p.locked || p.mWaitingList.any (·.caller == caller) then .error .blocked
  else
    match p.takeAvailable with
    | some (p', b) => .ok (p', [.acquireFromPool caller (.ok b)])
    | none =>
      if !p.isRunning && decide (0 < p.muToAllocCnt) then
        .ok ({ p with constructing := some caller }, [])
      else .ok ({ p with mWaitingList := p.mWaitingList ++ [{ caller }] }, [])

/-- The rest of `acquireFromPool` where the caller has constructed a buffer. -/
def constructed (p : StreamBufferPool) (allocates : Bool) :
    Except Blocked (StreamBufferPool × List PoolEvent) :=
  match p.constructing with
  | none => .error .blocked
  | some caller =>
    match { p with constructing := none }.do_construct allocates with
    | (p', .error err) => .ok (p', [.acquireFromPool caller (.error err)])
    | (p', .ok construct_result) =>
      .ok ({ p' with mlInUseBuf := p'.mlInUseBuf ++ [construct_result] }.decrementToAllocCnt,
        [.acquireFromPool caller (.ok construct_result)])

/-- The rest of `acquireFromPool` after the wait. -/
def wakeUp (p : StreamBufferPool) (caller : Caller) :
    Except Blocked (StreamBufferPool × List PoolEvent) :=
  if p.locked || !p.mWaitingList.any (·.caller == caller) then .error .blocked
  else
    let p := { p with mWaitingList := p.mWaitingList.eraseP (·.caller == caller) }
    match p.takeAvailable with
    | some (p', b) => .ok (p', [.acquireFromPool caller (.ok b)])
    | none => .ok (p, [.acquireFromPool caller (.error .timedOut)])

def releaseToPool (p : StreamBufferPool) (pBufferIndex : BufferIndex) :
    Except Blocked (StreamBufferPool × List PoolEvent) :=
  if p.locked then .error .blocked
  else if pBufferIndex ∈ p.mlInUseBuf then
    .ok ({ p with
      mlAvailableBuf := p.mlAvailableBuf ++ [pBufferIndex]
      mlInUseBuf := p.mlInUseBuf.erase pBufferIndex }.signalUserLocked,
      [.releaseToPool pBufferIndex .ok])
  else .ok (p, [.releaseToPool pBufferIndex .invalidOperation])

/-- `threadLoop` up to its lock. Where no buffer has been constructed it returns `NO_MEMORY`,
which is `true`: it is called again. -/
def threadConstruct (p : StreamBufferPool) (allocates : Bool) :
    Except Blocked (StreamBufferPool × List PoolEvent) :=
  match p.thread with
  | .constructing =>
    match p.do_construct allocates with
    | (p', .error _) => .ok (p', [])
    | (p', .ok construct_result) => .ok ({ p' with thread := .constructed construct_result }, [])
  | _ => .error .blocked

/-- The rest of `threadLoop`. -/
def threadCommit (p : StreamBufferPool) : Except Blocked (StreamBufferPool × List PoolEvent) :=
  match p.thread with
  | .constructed construct_result =>
    if p.locked then .error .blocked
    else
      let p := { p with
        mlAvailableBuf := p.mlAvailableBuf ++ [construct_result] }.decrementToAllocCnt
      let next := decide (0 < p.muToAllocCnt)
      .ok ({ p with thread := if next then .constructing else .ended }.signalUserLocked, [])
  | _ => .error .blocked

def threadExit (p : StreamBufferPool) : Except Blocked (StreamBufferPool × List PoolEvent) :=
  match p.thread with
  | .ended => .ok ({ p with thread := .idle }, [])
  | _ => .error .blocked

end StreamBufferPool

/-- The pool as a machine: its runs are the interleavings of its callers and of its thread. -/
def poolMachine : Machine StreamBufferPool PoolOp PoolEvent Blocked
  | p, .initPool szCallerName max min allocates =>
    if p.locked then .error .blocked
    else
      match p.initPool szCallerName max min allocates with
      | (p', err) => .ok (p', [.initPool err])
  | p, .commitPool caller => .ok (p.commitPool caller)
  | p, .run caller => p.run caller
  | p, .acquireFromPool caller => p.acquireFromPool caller
  | p, .constructed allocates => p.constructed allocates
  | p, .wakeUp caller => p.wakeUp caller
  | p, .releaseToPool pBufferIndex => p.releaseToPool pBufferIndex
  | p, .threadConstruct allocates => p.threadConstruct allocates
  | p, .threadCommit => p.threadCommit
  | p, .threadExit => p.threadExit

namespace StreamBufferPool

variable {p p' : StreamBufferPool} {op : PoolOp} {o : List PoolEvent}

inductive Step (p : StreamBufferPool) : PoolOp → StreamBufferPool → Prop
  | initPool {p' : StreamBufferPool} {name : Option String} {max min : ℕ}
      {allocates : ℕ → Bool} (hlocked : p.locked = false) (hvalid : ValidParams name max min)
      (hloop : constructInitial allocates min p = (p', .ok)) :
      Step p (.initPool name max min allocates)
        { p' with muToAllocCnt := (max - min) % 2 ^ 32, configured := some max }
  | initPool_failed {p' : StreamBufferPool} {name : Option String} {max min : ℕ}
      {allocates : ℕ → Bool} {err : MERROR} (hlocked : p.locked = false)
      (hvalid : ValidParams name max min) (herr : err ≠ .ok)
      (hloop : constructInitial allocates min p = (p', err)) :
      Step p (.initPool name max min allocates) p'
  | initPool_invalid {name : Option String} {max min : ℕ} {allocates : ℕ → Bool}
      (hvalid : ¬ ValidParams name max min) : Step p (.initPool name max min allocates) p
  | commitPool {caller : Caller} (committing : List Caller) :
      Step p (.commitPool caller) { p with committing }
  | run_refused {caller : Caller} (committing : List Caller) (hrunning : p.thread ≠ .idle) :
      Step p (.run caller) { p with committing }
  | run {caller : Caller} (committing : List Caller) (hidle : p.thread = .idle) :
      Step p (.run caller) { p with committing, thread := .constructing }
  | take {caller : Caller} {b : BufferIndex} {bs : List BufferIndex}
      (havailable : p.mlAvailableBuf = b :: bs) :
      Step p (.acquireFromPool caller)
        { p with mlAvailableBuf := bs, mlInUseBuf := p.mlInUseBuf ++ [b] }
  | construct {caller : Caller} (hlocked : p.locked = false) (hidle : p.thread = .idle)
      (hcnt : 0 < p.muToAllocCnt) :
      Step p (.acquireFromPool caller) { p with constructing := some caller }
  | wait {caller : Caller} (havailable : p.mlAvailableBuf = []) :
      Step p (.acquireFromPool caller)
        { p with mWaitingList := p.mWaitingList ++ [{ caller }] }
  | constructed (hlocked : p.locked = true) :
      Step p (.constructed true) { p with
        storage := p.storage + 1
        constructing := none
        mlInUseBuf := p.mlInUseBuf ++ [p.storage % 2 ^ 32] }.decrementToAllocCnt
  | constructed_failed (hlocked : p.locked = true) :
      Step p (.constructed false) { p with constructing := none }
  | wakeUp_take {caller : Caller} {b : BufferIndex} {bs : List BufferIndex}
      (hwaits : p.mWaitingList.any (·.caller == caller) = true)
      (havailable : p.mlAvailableBuf = b :: bs) :
      Step p (.wakeUp caller) { p with
        mWaitingList := p.mWaitingList.eraseP (·.caller == caller)
        mlAvailableBuf := bs
        mlInUseBuf := p.mlInUseBuf ++ [b] }
  | wakeUp_timedOut {caller : Caller} (havailable : p.mlAvailableBuf = []) :
      Step p (.wakeUp caller)
        { p with mWaitingList := p.mWaitingList.eraseP (·.caller == caller) }
  | releaseToPool {b : BufferIndex} (hmem : b ∈ p.mlInUseBuf) :
      Step p (.releaseToPool b) { p with
        mlAvailableBuf := p.mlAvailableBuf ++ [b]
        mlInUseBuf := p.mlInUseBuf.erase b }.signalUserLocked
  | releaseToPool_unknown {b : BufferIndex} (hmem : b ∉ p.mlInUseBuf) :
      Step p (.releaseToPool b) p
  | threadConstruct (hthread : p.thread = .constructing) :
      Step p (.threadConstruct true) { p with
        storage := p.storage + 1
        thread := .constructed (p.storage % 2 ^ 32) }
  | threadConstruct_failed : Step p (.threadConstruct false) p
  | threadCommit {b : BufferIndex} (thread : AllocThread) (hthread : p.thread = .constructed b)
      (hlocked : p.locked = false)
      (hnext : thread = .ended ∨
        thread = .constructing ∧ 0 < p.decrementToAllocCnt.muToAllocCnt) :
      Step p .threadCommit { p.decrementToAllocCnt with
        mlAvailableBuf := p.mlAvailableBuf ++ [b]
        thread }.signalUserLocked
  | threadExit (hthread : p.thread = .ended) : Step p .threadExit { p with thread := .idle }

theorem takeAvailable_eq_none (h : p.takeAvailable = none) : p.mlAvailableBuf = [] := by
  rw [takeAvailable] at h
  split at h
  · assumption
  · cases h

theorem takeAvailable_eq_some {b : BufferIndex} (h : p.takeAvailable = some (p', b)) :
    ∃ bs, p.mlAvailableBuf = b :: bs ∧
      p' = { p with mlAvailableBuf := bs, mlInUseBuf := p.mlInUseBuf ++ [b] } := by
  rw [takeAvailable] at h
  split at h
  · cases h
  · rename_i bs havailable
    cases h
    exact ⟨bs, havailable, rfl⟩

/-! ### The effect of a step -/

theorem step_initPool {name : Option String} {max min : ℕ} {allocates : ℕ → Bool} {err : MERROR}
    (hlocked : p.locked = false) (h : p.initPool name max min allocates = (p', err)) :
    p.Step (.initPool name max min allocates) p' := by
  rw [initPool] at h
  by_cases hvalid : ValidParams name max min
  · rw [if_pos hvalid] at h
    split at h
    · rename_i hloop
      cases h
      exact .initPool hlocked hvalid hloop
    · rename_i hne hloop
      cases h
      exact .initPool_failed hlocked hvalid (fun herr => hne herr) hloop
  · rw [if_neg hvalid] at h
    cases h
    exact .initPool_invalid hvalid

theorem step_commitPool (p : StreamBufferPool) (caller : Caller) :
    p.Step (.commitPool caller) (p.commitPool caller).1 := by
  rw [commitPool]
  split
  · exact .commitPool _
  · exact .commitPool p.committing

theorem step_run {caller : Caller} (h : p.run caller = .ok (p', o)) :
    p.Step (.run caller) p' := by
  rw [run] at h
  split at h
  · dsimp only at h
    split at h
    · rename_i hrunning
      cases h
      exact .run_refused _ (by simpa [isRunning] using hrunning)
    · rename_i hidle
      cases h
      exact .run _ (by simpa [isRunning] using hidle)
  · cases h

theorem step_acquireFromPool {caller : Caller} (h : p.acquireFromPool caller = .ok (p', o)) :
    p.Step (.acquireFromPool caller) p' := by
  rw [acquireFromPool] at h
  split at h
  · cases h
  · rename_i hfree
    simp only [Bool.or_eq_true, not_or, Bool.not_eq_true] at hfree
    split at h
    · rename_i htake
      obtain ⟨bs, havailable, rfl⟩ := takeAvailable_eq_some htake
      cases h
      exact .take havailable
    · rename_i htake
      split at h
      · rename_i hcond
        simp only [isRunning, Bool.and_eq_true, decide_eq_true_eq] at hcond
        cases h
        exact .construct hfree.1 (by simpa using hcond.1) hcond.2
      · cases h
        exact .wait (takeAvailable_eq_none htake)

theorem step_constructed {allocates : Bool} (h : p.constructed allocates = .ok (p', o)) :
    p.Step (.constructed allocates) p' := by
  rw [constructed] at h
  split at h
  · cases h
  · rename_i caller hcaller
    have hlocked : p.locked = true := by rw [locked, hcaller, Option.isSome_some]
    cases allocates with
    | true =>
      cases h
      exact .constructed hlocked
    | false =>
      cases h
      exact .constructed_failed hlocked

theorem step_wakeUp {caller : Caller} (h : p.wakeUp caller = .ok (p', o)) :
    p.Step (.wakeUp caller) p' := by
  rw [wakeUp] at h
  split at h
  · cases h
  · rename_i hwaits
    simp only [Bool.or_eq_true, not_or, Bool.not_eq_true, Bool.not_eq_false'] at hwaits
    dsimp only at h
    split at h
    · rename_i htake
      obtain ⟨bs, havailable, rfl⟩ := takeAvailable_eq_some htake
      cases h
      exact .wakeUp_take hwaits.2 havailable
    · rename_i htake
      have havailable := takeAvailable_eq_none htake
      cases h
      exact .wakeUp_timedOut havailable

theorem step_releaseToPool {b : BufferIndex} (h : p.releaseToPool b = .ok (p', o)) :
    p.Step (.releaseToPool b) p' := by
  rw [releaseToPool] at h
  split at h
  · cases h
  · split at h
    · rename_i hmem
      cases h
      exact .releaseToPool hmem
    · rename_i hmem
      cases h
      exact .releaseToPool_unknown hmem

theorem step_threadConstruct {allocates : Bool} (h : p.threadConstruct allocates = .ok (p', o)) :
    p.Step (.threadConstruct allocates) p' := by
  rw [threadConstruct] at h
  split at h
  · rename_i hthread
    cases allocates with
    | true =>
      cases h
      exact .threadConstruct hthread
    | false =>
      cases h
      exact .threadConstruct_failed
  · cases h

theorem step_threadCommit (h : p.threadCommit = .ok (p', o)) : p.Step .threadCommit p' := by
  rw [threadCommit] at h
  split at h
  · rename_i b hthread
    split at h
    · cases h
    · rename_i hlocked
      cases h
      refine .threadCommit _ hthread (by simpa using hlocked) ?_
      by_cases hnext : 0 < p.decrementToAllocCnt.muToAllocCnt
      · exact .inr ⟨if_pos (decide_eq_true hnext), hnext⟩
      · exact .inl (if_neg fun hdec => hnext (of_decide_eq_true hdec))
  · cases h

theorem step_threadExit (h : p.threadExit = .ok (p', o)) : p.Step .threadExit p' := by
  rw [threadExit] at h
  split at h
  · rename_i hthread
    cases h
    exact .threadExit hthread
  · cases h

/-- **The effect of a step.** -/
theorem step_of_poolMachine (h : poolMachine p op = .ok (p', o)) : p.Step op p' := by
  cases op with
  | initPool name max min allocates =>
    rw [poolMachine] at h
    split at h
    · cases h
    · rename_i hlocked
      split at h
      rename_i hinit
      cases h
      exact step_initPool (by simpa using hlocked) hinit
  | commitPool caller =>
    obtain ⟨rfl, -⟩ := Prod.ext_iff.mp (Except.ok.inj h)
    exact p.step_commitPool caller
  | run => exact step_run h
  | acquireFromPool => exact step_acquireFromPool h
  | constructed => exact step_constructed h
  | wakeUp => exact step_wakeUp h
  | releaseToPool => exact step_releaseToPool h
  | threadConstruct => exact step_threadConstruct h
  | threadCommit => exact step_threadCommit h
  | threadExit => exact step_threadExit h

end StreamBufferPool

end MtkHardware.StreamBuf
