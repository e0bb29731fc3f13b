import MtkHardware.LegacyPipeline.BaseSelector

/-!
# The Buffer Pool of a Provider

`BufferPoolImp` keeps the heaps that are available, the heaps that are in use, and their number
`mMaxBuffer`. `allocateBuffer` constructs the initial heaps. `updateBufferCount` waits for its
last job and starts another, which constructs heaps or drops available ones until `mMaxBuffer` is
the number that is asked for.

Callers acquire and release heaps at any time. The job, and a call of `allocateBuffer` or
`updateBufferCount`, go on between them: what is done with the lock of the pool is one step. There
is one such call at a time. A heap that cannot be created is `NULL`, and `do_construct` does not
tell.
-/

namespace MtkHardware.LegacyPipeline

inductive MERROR
  | ok
  | unknownError
  | noMemory
  | timedOut
  deriving DecidableEq, Repr

/-- The conversion of a number to a signed number of 32 bits. -/
def toMINT32 (n : ℕ) : ℤ := Int.bmod n (2 ^ 32)

inductive JobAt
  /-- Before it compares the number of heaps with the number to reach. -/
  | comparing
  | increasing
  | reducing
  /-- It waits for an available heap. -/
  | waiting
  | finished
  deriving DecidableEq, Repr

/-- The job of `updateBufferCount`. -/
structure UpdateJob where
  rMaxBufferNumber : ℤ
  pos : JobAt
  deriving DecidableEq, Repr

/-- A call that constructs the initial heaps and is at the `i`th, or waits for the last job. -/
inductive PoolCall
  | allocateBuffer (i : ℤ) (maxNumberOfBuffers : ℕ)
  | updateBufferCount (rMaxBufferNumber : ℤ)
  deriving DecidableEq, Repr

structure BufferPoolImp where
  /-- The transform of the stream, if there is a stream info. -/
  mpStreamInfo : Option ℕ
  mAvailableBuf : List (Option IImageBufferHeap) := []
  mInUseBuf : List (Option IImageBufferHeap) := []
  mMaxBuffer : ℤ := 0
  mMinBuffer : ℤ := 0
  /-- The job that has been started last. -/
  mvFutures : Option UpdateJob := none
  call : Option PoolCall := none

/-- What is called, and how a call and the job go on. What has been created is the heap that
`IIonImageBufferHeap::create` returns. -/
inductive BufferPoolOp
  | acquireFromPool
  | releaseToPool (rpBuffer : Option IImageBufferHeap)
  | allocateBuffer (maxNumberOfBuffers minNumberOfInitialCommittedBuffers : ℕ)
  | constructInitial (created : Option IImageBufferHeap)
  | updateBufferCount (rMaxBufferNumber : ℤ)
  | startJob
  | jobCompares
  | jobIncreases (created : Option IImageBufferHeap)
  | jobReduces
  | jobWakesUp

inductive BufferPoolEvent
  | acquired (rpBuffer : Option IImageBufferHeap) (rTransform : ℕ)
  | answered (status : MERROR)
  deriving DecidableEq, Repr

namespace BufferPoolImp

def new (mpStreamInfo : Option ℕ) : BufferPoolImp := { mpStreamInfo := mpStreamInfo }

/-- Constructs a heap: whatever has been created, the answer is `ok`. -/
def do_construct (created : Option IImageBufferHeap) : MERROR × Option IImageBufferHeap :=
  (.ok, created)

def acquireFromPool (s : BufferPoolImp) :
    Except Blocked (BufferPoolImp × List BufferPoolEvent) :=
  match s.mAvailableBuf with
  | [] => .ok (s, [.answered .timedOut])
  | rpBuffer :: rest =>
    match s.mpStreamInfo with
    | none => .error .blocked
    | some rTransform =>
      .ok ({ s with mAvailableBuf := rest, mInUseBuf := s.mInUseBuf ++ [rpBuffer] },
        [.acquired rpBuffer rTransform, .answered .ok])

def releaseToPool (s : BufferPoolImp) (rpBuffer : Option IImageBufferHeap) :
    BufferPoolImp × List BufferPoolEvent :=
  if rpBuffer ∈ s.mInUseBuf then
    ({ s with
        mAvailableBuf := s.mAvailableBuf ++ [rpBuffer]
        mInUseBuf := s.mInUseBuf.erase rpBuffer },
      [.answered .ok])
  else (s, [.answered .unknownError])

/-- The call at the `i`th initial heap: if all are there, it goes on to update their number. -/
def allocating (s : BufferPoolImp) (i : ℤ) (maxNumberOfBuffers : ℕ) : BufferPoolImp :=
  { s with
    call := some (if i < s.mMinBuffer then .allocateBuffer i maxNumberOfBuffers
      else .updateBufferCount (toMINT32 maxNumberOfBuffers)) }

/-- Records the number of heaps, and begins to construct them. -/
def allocateBuffer (s : BufferPoolImp)
    (maxNumberOfBuffers minNumberOfInitialCommittedBuffers : ℕ) :
    BufferPoolImp × List BufferPoolEvent :=
  if s.mpStreamInfo = none then (s, [.answered .unknownError])
  else if maxNumberOfBuffers < minNumberOfInitialCommittedBuffers then
    (s, [.answered .unknownError])
  else
    ({ s with
        mMaxBuffer := toMINT32 minNumberOfInitialCommittedBuffers
        mMinBuffer := toMINT32 minNumberOfInitialCommittedBuffers }.allocating 0
          maxNumberOfBuffers, [])

/-- Constructs the `i`th initial heap, or goes on without it. -/
def constructInitial (s : BufferPoolImp) (i : ℤ) (maxNumberOfBuffers : ℕ)
    (created : Option IImageBufferHeap) : BufferPoolImp :=
  let constructed := do_construct created
  if constructed.1 = .noMemory then s.allocating (i + 1) maxNumberOfBuffers
  else
    { s with mAvailableBuf := s.mAvailableBuf ++ [constructed.2] }.allocating (i + 1)
      maxNumberOfBuffers

def jobGoesTo (s : BufferPoolImp) (rMaxBufferNumber : ℤ) (pos : JobAt) : BufferPoolImp :=
  { s with mvFutures := some ⟨rMaxBufferNumber, pos⟩ }

/-- Has the number of heaps been reached, and if not, are there too few or too many? -/
def compare (s : BufferPoolImp) (rMaxBufferNumber : ℤ) : JobAt :=
  if s.mMaxBuffer = rMaxBufferNumber then .finished
  else if s.mMaxBuffer < rMaxBufferNumber then .increasing
  else .reducing

def increase (s : BufferPoolImp) (created : Option IImageBufferHeap) : BufferPoolImp :=
  let constructed := do_construct created
  if constructed.1 = .noMemory then s
  else
    { s with
      mAvailableBuf := s.mAvailableBuf ++ [constructed.2]
      mMaxBuffer := s.mMaxBuffer + 1 }

/-- Drops the heap that is available first, if there is one. -/
def reduce (s : BufferPoolImp) : BufferPoolImp :=
  match s.mAvailableBuf with
  | [] => s
  | _ :: rest => { s with mAvailableBuf := rest, mMaxBuffer := s.mMaxBuffer - 1 }

def heaps (s : BufferPoolImp) : List (Option IImageBufferHeap) := s.mAvailableBuf ++ s.mInUseBuf

def Fresh (s : BufferPoolImp) (created : Option IImageBufferHeap) : Prop :=
  created ∈ s.heaps → created = none

instance (s : BufferPoolImp) (created : Option IImageBufferHeap) : Decidable (s.Fresh created) :=
  inferInstanceAs (Decidable (created ∈ s.heaps → created = none))

def jobFinished (s : BufferPoolImp) : Bool := s.mvFutures.all fun job => job.pos = .finished

end BufferPoolImp

open BufferPoolImp in
/-- The pool as a machine. Without a stream info no heap is constructed. -/
def bufferPoolMachine : Machine BufferPoolImp BufferPoolOp BufferPoolEvent Blocked
  | s, .acquireFromPool => s.acquireFromPool
  | s, .releaseToPool rpBuffer => .ok (s.releaseToPool rpBuffer)
  | s, .allocateBuffer maxNumberOfBuffers minNumberOfInitialCommittedBuffers =>
    if s.call = none then
      .ok (s.allocateBuffer maxNumberOfBuffers minNumberOfInitialCommittedBuffers)
    else .error .blocked
  | s, .constructInitial created =>
    match s.call with
    | some (.allocateBuffer i maxNumberOfBuffers) =>
      if s.mpStreamInfo.isSome ∧ s.Fresh created then
        .ok (s.constructInitial i maxNumberOfBuffers created, [])
      else .error .blocked
    | _ => .error .blocked
  | s, .updateBufferCount rMaxBufferNumber =>
    if s.call = none then .ok ({ s with call := some (.updateBufferCount rMaxBufferNumber) }, [])
    else .error .blocked
  | s, .startJob =>
    match s.call with
    | some (.updateBufferCount rMaxBufferNumber) =>
      if s.jobFinished then
        .ok ({ s with call := none }.jobGoesTo rMaxBufferNumber .comparing, [.answered .ok])
      else .error .blocked
    | _ => .error .blocked
  | s, .jobCompares =>
    match s.mvFutures with
    | some ⟨rMaxBufferNumber, .comparing⟩ =>
      .ok (s.jobGoesTo rMaxBufferNumber (s.compare rMaxBufferNumber), [])
    | _ => .error .blocked
  | s, .jobIncreases created =>
    match s.mvFutures with
    | some ⟨rMaxBufferNumber, .increasing⟩ =>
      if s.mpStreamInfo.isSome ∧ s.Fresh created then
        .ok ((s.increase created).jobGoesTo rMaxBufferNumber .comparing, [])
      else .error .blocked
    | _ => .error .blocked
  | s, .jobReduces =>
    match s.mvFutures with
    | some ⟨rMaxBufferNumber, .reducing⟩ =>
      if s.mAvailableBuf.isEmpty then .ok (s.jobGoesTo rMaxBufferNumber .waiting, [])
      else .ok (s.reduce.jobGoesTo rMaxBufferNumber .comparing, [])
    | _ => .error .blocked
  | s, .jobWakesUp =>
    match s.mvFutures with
    | some ⟨rMaxBufferNumber, .waiting⟩ =>
      .ok (s.reduce.jobGoesTo rMaxBufferNumber .comparing, [])
    | _ => .error .blocked

def BufferPoolEvent.served : BufferPoolEvent → List IImageBufferHeap
  | acquired rpBuffer _ => rpBuffer.toList
  | answered _ => []

namespace BufferPoolImp

variable {s s' : BufferPoolImp} {op : BufferPoolOp} {ops : List BufferPoolOp}
  {o os : List BufferPoolEvent} {created : Option IImageBufferHeap} {mpStreamInfo : Option ℕ}

structure Quiet (s : BufferPoolImp) : Prop where
  noCall : s.call = none
  finished : s.jobFinished = true

instance (s : BufferPoolImp) : Decidable s.Quiet :=
  decidable_of_iff (s.call = none ∧ s.jobFinished = true)
    ⟨fun h => ⟨h.1, h.2⟩, fun h => ⟨h.noCall, h.finished⟩⟩

/-- **The lists and the recorded number agree.** No heap is in the lists twice. When nothing is
on its way, there are as many as recorded, and when none is in use, callers get as many as
recorded. -/
structure Consistent (s : BufferPoolImp) : Prop where
  available : s.mAvailableBuf.Nodup
  inUse : s.mInUseBuf.Nodup
  disjoint : s.mAvailableBuf.Disjoint s.mInUseBuf
  size : s.Quiet → (s.mAvailableBuf.length + s.mInUseBuf.length : ℤ) = s.mMaxBuffer
  serves : s.Quiet → s.mInUseBuf = [] → ∀ n : ℕ, ∃ s' os,
    bufferPoolMachine.Runs s (List.replicate n .acquireFromPool) s' os ∧
      ((os.flatMap BufferPoolEvent.served).length : ℤ) = min (n : ℤ) s.mMaxBuffer

/-- **When a step keeps the number of heaps.** Heaps are created, and initial heaps are allocated
for an empty pool with nothing on its way, as many as a signed number can be. -/
def KeepsCount (s : BufferPoolImp) : BufferPoolOp → Prop
  | .allocateBuffer maxNumberOfBuffers minNumberOfInitialCommittedBuffers =>
    s.mpStreamInfo ≠ none → minNumberOfInitialCommittedBuffers ≤ maxNumberOfBuffers →
      s.Quiet ∧ s.heaps = [] ∧ 0 ≤ toMINT32 minNumberOfInitialCommittedBuffers
  | .constructInitial created | .jobIncreases created => created ≠ none
  | _ => True

instance : ∀ (s : BufferPoolImp) (op : BufferPoolOp), Decidable (KeepsCount s op)
  | s, .allocateBuffer maxNumberOfBuffers minNumberOfInitialCommittedBuffers =>
    inferInstanceAs (Decidable (s.mpStreamInfo ≠ none →
      minNumberOfInitialCommittedBuffers ≤ maxNumberOfBuffers →
        s.Quiet ∧ s.heaps = [] ∧ 0 ≤ toMINT32 minNumberOfInitialCommittedBuffers))
  | _, .constructInitial created | _, .jobIncreases created =>
    inferInstanceAs (Decidable (created ≠ none))
  | _, .acquireFromPool | _, .releaseToPool _ | _, .updateBufferCount _ | _, .startJob
  | _, .jobCompares | _, .jobReduces | _, .jobWakesUp => inferInstanceAs (Decidable True)

/-! ### The invariant -/

/-- The number of initial heaps that the call on its way has still to construct. -/
def owed (s : BufferPoolImp) : ℕ :=
  match s.call with
  | some (.allocateBuffer i _) => (s.mMinBuffer - i).toNat
  | _ => 0

/-- **The heaps are distinct, and with those that are owed as many as recorded.** -/
structure Accounted (s : BufferPoolImp) : Prop where
  nodup : s.heaps.Nodup
  created : none ∉ s.heaps
  count : (s.heaps.length + s.owed : ℤ) = s.mMaxBuffer
  turn : ∀ i n, s.call = some (.allocateBuffer i n) → i < s.mMinBuffer
  info : s.mpStreamInfo = none → s.heaps = []

theorem Accounted.of_perm (h : s.Accounted) (hperm : s'.heaps.Perm s.heaps)
    (hcall : s'.call = s.call) (hmin : s'.mMinBuffer = s.mMinBuffer)
    (hmax : s'.mMaxBuffer = s.mMaxBuffer) (hinfo : s'.mpStreamInfo = s.mpStreamInfo) :
    s'.Accounted := by
  refine ⟨hperm.nodup_iff.mpr h.nodup, fun hmem => h.created (hperm.mem_iff.mp hmem), ?_, ?_, ?_⟩
  · rw [hperm.length_eq, hmax, owed, hcall, hmin]
    exact h.count
  · rw [hcall, hmin]
    exact h.turn
  · intro hnone
    have hempty := hperm
    rw [h.info (hinfo.symm.trans hnone)] at hempty
    exact List.perm_nil.mp hempty

theorem Accounted.jobGoesTo (h : s.Accounted) (rMaxBufferNumber : ℤ) (pos : JobAt) :
    (s.jobGoesTo rMaxBufferNumber pos).Accounted :=
  h.of_perm (.refl _) rfl rfl rfl rfl

theorem Accounted.withCall (h : s.Accounted) (howed : s.owed = 0) (call : Option PoolCall)
    (hcall : ∀ i n, call ≠ some (.allocateBuffer i n)) : { s with call := call }.Accounted := by
  have howed' : { s with call := call }.owed = 0 := by
    cases call with
    | none => rfl
    | some call =>
      cases call with
      | allocateBuffer i n => exact absurd rfl (hcall i n)
      | updateBufferCount rMaxBufferNumber => rfl
  refine ⟨h.nodup, h.created, ?_, fun i n heq => absurd heq (hcall i n), h.info⟩
  rw [howed', ← howed]
  exact h.count

/-- At the `i`th initial heap, as many are owed as are missing. -/
theorem owed_allocating (s : BufferPoolImp) (i : ℤ) (maxNumberOfBuffers : ℕ) :
    (s.allocating i maxNumberOfBuffers).owed = (s.mMinBuffer - i).toNat := by
  rw [allocating, owed]
  dsimp only
  split
  · rename_i heq
    split at heq
    · cases heq
      rfl
    · cases heq
  · rename_i hne
    split at hne
    · exact absurd rfl (hne _ _)
    · omega

theorem turn_allocating (s : BufferPoolImp) (i : ℤ) (maxNumberOfBuffers : ℕ) (i' : ℤ) (n : ℕ)
    (h : (s.allocating i maxNumberOfBuffers).call = some (.allocateBuffer i' n)) :
    i' < s.mMinBuffer := by
  rw [allocating] at h
  dsimp only at h
  split at h
  · rename_i hlt
    cases h
    exact hlt
  · cases h

theorem perm_push (s : BufferPoolImp) (created : Option IImageBufferHeap) :
    (s.mAvailableBuf ++ [created] ++ s.mInUseBuf).Perm (created :: s.heaps) := by
  rw [heaps, List.append_assoc]
  exact List.perm_middle

theorem Accounted.heaps_push (h : s.Accounted) (hfresh : s.Fresh created)
    (hcreated : created ≠ none) (hperm : s'.heaps.Perm (created :: s.heaps)) :
    s'.heaps.Nodup ∧ none ∉ s'.heaps ∧ s'.heaps.length = s.heaps.length + 1 := by
  have hnew : created ∉ s.heaps := fun hmem => hcreated (hfresh hmem)
  refine ⟨hperm.nodup_iff.mpr (List.nodup_cons.mpr ⟨hnew, h.nodup⟩), fun hmem => ?_,
    hperm.length_eq⟩
  rcases List.mem_cons.mp (hperm.mem_iff.mp hmem) with heq | hmem
  · exact hcreated heq.symm
  · exact h.created hmem

/-! ### One step -/

theorem accounted_acquireFromPool (h : s.Accounted) (hstep : s.acquireFromPool = .ok (s', o)) :
    s'.Accounted := by
  rw [acquireFromPool] at hstep
  split at hstep
  · cases hstep
    exact h
  · rename_i rpBuffer rest havailable
    split at hstep
    · cases hstep
    · cases hstep
      refine h.of_perm ?_ rfl rfl rfl rfl
      rw [heaps, heaps, havailable, ← List.append_assoc]
      exact List.perm_append_comm

theorem accounted_releaseToPool (h : s.Accounted) (rpBuffer : Option IImageBufferHeap) :
    (s.releaseToPool rpBuffer).1.Accounted := by
  rw [releaseToPool]
  split
  · rename_i hmem
    refine h.of_perm ?_ rfl rfl rfl rfl
    rw [heaps, heaps, List.append_assoc]
    exact (List.perm_cons_erase hmem).symm.append_left _
  · exact h

theorem accounted_allocating (h : s.Accounted) (hinfo : s.mpStreamInfo ≠ none)
    (hempty : s.heaps = []) {n : ℤ} (hn : 0 ≤ n) (maxNumberOfBuffers : ℕ) :
    ({ s with mMaxBuffer := n, mMinBuffer := n }.allocating 0 maxNumberOfBuffers).Accounted := by
  refine ⟨h.nodup, h.created, ?_, turn_allocating _ _ _, fun hnone => absurd hnone hinfo⟩
  rw [owed_allocating]
  change ((s.heaps.length : ℤ) + (n - 0).toNat) = n
  rw [hempty, List.length_nil]
  omega

theorem accounted_allocateBuffer (h : s.Accounted) {maxNumberOfBuffers n : ℕ}
    (hkeeps : s.mpStreamInfo ≠ none → n ≤ maxNumberOfBuffers →
      s.Quiet ∧ s.heaps = [] ∧ 0 ≤ toMINT32 n) :
    (s.allocateBuffer maxNumberOfBuffers n).1.Accounted := by
  rw [allocateBuffer]
  split
  · exact h
  · rename_i hinfo
    split
    · exact h
    · rename_i hle
      obtain ⟨-, hempty, hn⟩ := hkeeps hinfo (not_lt.mp hle)
      exact accounted_allocating h hinfo hempty hn maxNumberOfBuffers

theorem accounted_constructInitial (h : s.Accounted) {i : ℤ} {maxNumberOfBuffers : ℕ}
    (hcall : s.call = some (.allocateBuffer i maxNumberOfBuffers)) (hfresh : s.Fresh created)
    (hcreated : created ≠ none) (hinfo : s.mpStreamInfo ≠ none) :
    (s.constructInitial i maxNumberOfBuffers created).Accounted := by
  have hperm : (s.constructInitial i maxNumberOfBuffers created).heaps.Perm
      (created :: s.heaps) := s.perm_push created
  obtain ⟨hnodup, hnone, hlength⟩ := h.heaps_push hfresh hcreated hperm
  refine ⟨hnodup, hnone, ?_, turn_allocating _ _ _, fun hinfo' => absurd hinfo' hinfo⟩
  have hcount := h.count
  have hturn := h.turn i _ hcall
  have howed : (s.constructInitial i maxNumberOfBuffers created).owed =
      (s.mMinBuffer - (i + 1)).toNat := owed_allocating _ _ _
  rw [owed, hcall] at hcount
  rw [hlength, howed]
  change _ = s.mMaxBuffer
  dsimp only at hcount
  omega

theorem accounted_increase (h : s.Accounted) (hfresh : s.Fresh created)
    (hcreated : created ≠ none) (hinfo : s.mpStreamInfo ≠ none) :
    (s.increase created).Accounted := by
  have hperm : (s.increase created).heaps.Perm (created :: s.heaps) := s.perm_push created
  obtain ⟨hnodup, hnone, hlength⟩ := h.heaps_push hfresh hcreated hperm
  refine ⟨hnodup, hnone, ?_, h.turn, fun hinfo' => absurd hinfo' hinfo⟩
  have hcount := h.count
  have howed : (s.increase created).owed = s.owed := rfl
  rw [hlength, howed]
  change _ = s.mMaxBuffer + 1
  omega

theorem accounted_reduce (h : s.Accounted) : s.reduce.Accounted := by
  rw [reduce]
  split
  · exact h
  · rename_i rpBuffer rest havailable
    have hheaps : s.heaps = rpBuffer :: (rest ++ s.mInUseBuf) := by
      rw [heaps, havailable]
      rfl
    obtain ⟨hnodup, hcreated, hcount, hturn, hinfo⟩ := h
    rw [hheaps] at hnodup hcreated hcount hinfo
    refine ⟨(List.nodup_cons.mp hnodup).2, fun hmem => hcreated (List.mem_cons_of_mem _ hmem), ?_,
      hturn, fun hnone => absurd (hinfo hnone) (List.cons_ne_nil _ _)⟩
    change ((rest ++ s.mInUseBuf).length + s.owed : ℤ) = s.mMaxBuffer - 1
    rw [List.length_cons] at hcount
    omega

/-- **A step that keeps the number of heaps keeps them accounted for.** -/
theorem accounted_step (h : s.Accounted) (hkeeps : KeepsCount s op)
    (hstep : bufferPoolMachine s op = .ok (s', o)) : s'.Accounted := by
  cases op with
  | acquireFromPool => exact accounted_acquireFromPool h hstep
  | releaseToPool rpBuffer =>
    obtain ⟨rfl, -⟩ := Prod.ext_iff.mp (Except.ok.inj hstep)
    exact accounted_releaseToPool h rpBuffer
  | allocateBuffer maxNumberOfBuffers n =>
    rw [bufferPoolMachine] at hstep
    split at hstep
    · obtain ⟨rfl, -⟩ := Prod.ext_iff.mp (Except.ok.inj hstep)
      exact accounted_allocateBuffer h hkeeps
    · cases hstep
  | constructInitial created =>
    rw [bufferPoolMachine] at hstep
    split at hstep
    · rename_i i n hcall
      split at hstep
      · rename_i hcan
        cases hstep
        exact accounted_constructInitial h hcall hcan.2 hkeeps
          (Option.isSome_iff_ne_none.mp hcan.1)
      · cases hstep
    · cases hstep
  | updateBufferCount rMaxBufferNumber =>
    rw [bufferPoolMachine] at hstep
    split at hstep
    · rename_i hcall
      cases hstep
      refine h.withCall ?_ _ fun i n heq => by cases heq
      rw [owed, hcall]
    · cases hstep
  | startJob =>
    rw [bufferPoolMachine] at hstep
    split at hstep
    · rename_i rMaxBufferNumber hcall
      split at hstep
      · cases hstep
        have howed : s.owed = 0 := by rw [owed, hcall]
        exact (h.withCall howed none fun i n heq => by cases heq).jobGoesTo _ _
      · cases hstep
    · cases hstep
  | jobCompares =>
    rw [bufferPoolMachine] at hstep
    split at hstep
    · cases hstep
      exact h.jobGoesTo _ _
    · cases hstep
  | jobIncreases created =>
    rw [bufferPoolMachine] at hstep
    split at hstep
    · split at hstep
      · rename_i hcan
        cases hstep
        exact (accounted_increase h hcan.2 hkeeps
          (Option.isSome_iff_ne_none.mp hcan.1)).jobGoesTo _ _
      · cases hstep
    · cases hstep
  | jobReduces =>
    rw [bufferPoolMachine] at hstep
    split at hstep
    · split at hstep
      · cases hstep
        exact h.jobGoesTo _ _
      · cases hstep
        exact (accounted_reduce h).jobGoesTo _ _
    · cases hstep
  | jobWakesUp =>
    rw [bufferPoolMachine] at hstep
    split at hstep
    · cases hstep
      exact (accounted_reduce h).jobGoesTo _ _
    · cases hstep

/-! ### Runs -/

/-- What `n` acquisitions get: the heaps that are available first. -/
theorem runs_acquireFromPool (hinfo : s.mpStreamInfo = none → s.mAvailableBuf = []) (n : ℕ) :
    ∃ s' os, bufferPoolMachine.Runs s (List.replicate n .acquireFromPool) s' os ∧
      os.flatMap BufferPoolEvent.served = (s.mAvailableBuf.take n).flatMap Option.toList := by
  induction n generalizing s with
  | zero => exact ⟨s, [], .init, rfl⟩
  | succ n ih =>
    cases havailable : s.mAvailableBuf with
    | nil =>
      have hstep : bufferPoolMachine s .acquireFromPool = .ok (s, [.answered .timedOut]) := by
        rw [bufferPoolMachine, acquireFromPool, havailable]
      obtain ⟨s', os, hrun, hserved⟩ := ih hinfo
      refine ⟨s', _, (Machine.Runs.single hstep).append hrun, ?_⟩
      rw [havailable, List.take_nil] at hserved
      rw [List.take_nil]
      exact hserved
    | cons rpBuffer rest =>
      obtain ⟨rTransform, htransform⟩ : ∃ rTransform, s.mpStreamInfo = some rTransform := by
        refine Option.ne_none_iff_exists'.mp fun hnone => ?_
        rw [hinfo hnone] at havailable
        cases havailable
      have hstep : bufferPoolMachine s .acquireFromPool =
          .ok ({ s with mAvailableBuf := rest, mInUseBuf := s.mInUseBuf ++ [rpBuffer] },
            [.acquired rpBuffer rTransform, .answered .ok]) := by
        rw [bufferPoolMachine, acquireFromPool, havailable, htransform]
      obtain ⟨s', os, hrun, hserved⟩ := ih
        (s := { s with mAvailableBuf := rest, mInUseBuf := s.mInUseBuf ++ [rpBuffer] })
        fun hnone => by rw [htransform] at hnone; cases hnone
      refine ⟨s', _, (Machine.Runs.single hstep).append hrun, ?_⟩
      rw [List.flatMap_append, hserved, List.take_succ_cons, List.flatMap_cons]
      exact congrArg (· ++ _) (List.append_nil _)

theorem length_served {l : List (Option IImageBufferHeap)} (h : none ∉ l) :
    (l.flatMap Option.toList).length = l.length := by
  induction l with
  | nil => rfl
  | cons created l ih =>
    rw [List.mem_cons, not_or] at h
    obtain ⟨heap, rfl⟩ := Option.ne_none_iff_exists'.mp (Ne.symm h.1)
    rw [List.flatMap_cons, List.length_append, ih h.2, List.length_cons, Nat.add_comm]
    rfl

/-- **Heaps that are accounted for are consistent with the recorded number.** -/
theorem Accounted.consistent (h : s.Accounted) : s.Consistent := by
  have hsize (hquiet : s.Quiet) :
      (s.mAvailableBuf.length + s.mInUseBuf.length : ℤ) = s.mMaxBuffer := by
    have hcount := h.count
    rw [owed, hquiet.noCall, heaps, List.length_append] at hcount
    dsimp only at hcount
    omega
  obtain ⟨havailable, hinUse, hdisjoint⟩ := List.nodup_append'.mp h.nodup
  refine ⟨havailable, hinUse, hdisjoint, hsize, fun hquiet hempty n => ?_⟩
  obtain ⟨s', os, hrun, hserved⟩ := runs_acquireFromPool
    (fun hnone => (List.append_eq_nil_iff.mp (h.info hnone)).1) n
  refine ⟨s', os, hrun, ?_⟩
  have hcreated : none ∉ s.mAvailableBuf.take n := fun hmem =>
    h.created (List.mem_append_left _ (List.mem_of_mem_take hmem))
  have hsize := hsize hquiet
  rw [hempty, List.length_nil] at hsize
  rw [hserved, length_served hcreated, List.length_take]
  omega

/-- **Where every heap is created and only an empty pool is allocated, the lists and the recorded
number agree.** -/
theorem consistent_of_runs
    (h : bufferPoolMachine.RunsMeeting (fun _ => KeepsCount) (new mpStreamInfo) ops s os) :
    s.Consistent := by
  have haccounted : s.Accounted := by
    refine h.invariant (I := fun _ s _ => s.Accounted) ?_ ?_
    · exact ⟨List.nodup_nil, List.not_mem_nil, rfl, fun i n => nofun, fun _ => rfl⟩
    · intro _ _ _ _ _ _ hs hkeeps hstep
      exact accounted_step hs hkeeps hstep
  exact haccounted.consistent

/-- A pool that grows while a heap is out, and shrinks when it comes back. -/
theorem consistent_of_runs_growShrink :
    ∃ s os, bufferPoolMachine.Runs (new (some 0))
        [.allocateBuffer 3 1, .constructInitial (some 1), .startJob, .acquireFromPool,
          .jobCompares, .jobIncreases (some 2), .jobCompares, .jobIncreases (some 3),
          .jobCompares, .acquireFromPool, .updateBufferCount 1, .startJob, .jobCompares,
          .jobReduces, .jobCompares, .jobReduces, .releaseToPool (some 1), .jobWakesUp,
          .jobCompares] s os ∧
      s.Quiet ∧ s.mMaxBuffer = 1 ∧ s.mInUseBuf = [some 2] ∧ s.Consistent := by
  have hshows : bufferPoolMachine.shows (new (some 0))
      [.allocateBuffer 3 1, .constructInitial (some 1), .startJob, .acquireFromPool,
        .jobCompares, .jobIncreases (some 2), .jobCompares, .jobIncreases (some 3),
        .jobCompares, .acquireFromPool, .updateBufferCount 1, .startJob, .jobCompares,
        .jobReduces, .jobCompares, .jobReduces, .releaseToPool (some 1), .jobWakesUp,
        .jobCompares]
      (fun s _ => s.Quiet ∧ s.mMaxBuffer = 1 ∧ s.mInUseBuf = [some 2]) = true := by
    decide
  obtain ⟨s, os, hrun, hquiet, hmax, hinUse⟩ := Machine.exists_run_of_shows hshows
  have hkeeps := hrun.meeting (C := KeepsCount) (by decide)
  exact ⟨s, os, hrun, hquiet, hmax, hinUse, consistent_of_runs hkeeps⟩

/-- Two initial heaps cannot be created: the pool has `NULL` twice, and callers get none of the
two heaps that are recorded. A pool that is allocated again has more heaps than are recorded. -/
theorem notCreated_served :
    (∃ s os, bufferPoolMachine.Runs (new (some 0))
        [.allocateBuffer 2 2, .constructInitial none, .constructInitial none, .startJob,
          .jobCompares] s os ∧
      s.Quiet ∧ s.mMaxBuffer = 2 ∧ s.mAvailableBuf = [none, none] ∧ s.mInUseBuf = [] ∧
        ¬ s.Consistent) ∧
    (∃ s os, bufferPoolMachine.Runs (new (some 0))
        [.allocateBuffer 2 2, .constructInitial none, .constructInitial none, .startJob,
          .jobCompares, .acquireFromPool, .acquireFromPool] s os ∧
      os.flatMap BufferPoolEvent.served = []) ∧
    ∃ s os, bufferPoolMachine.Runs (new (some 0))
        [.allocateBuffer 1 1, .constructInitial (some 1), .startJob, .jobCompares,
          .allocateBuffer 1 1, .constructInitial (some 2), .startJob, .jobCompares] s os ∧
      s.Quiet ∧ s.mMaxBuffer = 1 ∧ s.mAvailableBuf = [some 1, some 2] := by
  refine ⟨?_, Machine.exists_run_of_shows (by decide),
    Machine.exists_run_of_shows (by decide)⟩
  have hshows : bufferPoolMachine.shows (new (some 0))
      [.allocateBuffer 2 2, .constructInitial none, .constructInitial none, .startJob,
        .jobCompares]
      (fun s _ => s.Quiet ∧ s.mMaxBuffer = 2 ∧ s.mAvailableBuf = [none, none] ∧
        s.mInUseBuf = []) = true := by
    decide
  obtain ⟨s, os, hrun, hquiet, hmax, havailable, hinUse⟩ := Machine.exists_run_of_shows hshows
  refine ⟨s, os, hrun, hquiet, hmax, havailable, hinUse, fun h => ?_⟩
  have hnodup := h.available
  rw [havailable] at hnodup
  exact absurd hnodup (by decide)

end BufferPoolImp

end MtkHardware.LegacyPipeline
