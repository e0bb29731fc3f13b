import MtkHardware.StreamBuf.StreamBufferPool
import Mathlib.Data.List.Count
import Mathlib.Data.List.Range
import Mathlib.Data.List.Perm.Basic

/-!
# Conservation in a Stream Buffer Pool

The buffers of a pool are available, in use, or still to be allocated. A caller that constructs
a buffer and the allocator thread each decrement the counter of the latter once their buffer is
there, so the counter has to cover all buffers that are being constructed: this is what can fail
when the allocator thread starts.
-/

namespace MtkHardware.StreamBuf

/-- The buffer that the allocator thread has constructed and not yet put into the pool. -/
def AllocThread.buffers : AllocThread → List BufferIndex
  | .constructed b => [b]
  | .idle | .constructing | .ended => []

/-- How often the allocator thread is going to decrement the counter, before it looks at it. -/
def AllocThread.pending : AllocThread → ℕ
  | .constructing | .constructed _ => 1
  | .idle | .ended => 0

theorem AllocThread.length_buffers_le (t : AllocThread) : t.buffers.length ≤ t.pending := by
  cases t <;> simp [buffers, pending]

namespace StreamBufferPool

variable {p p' : StreamBufferPool} {op : PoolOp} {ops : List PoolOp} {events o : List PoolEvent}

/-! ### What is conserved -/

def buffers (p : StreamBufferPool) : List BufferIndex :=
  p.mlAvailableBuf ++ p.mlInUseBuf ++ p.thread.buffers

def inConstruction (p : StreamBufferPool) : ℕ :=
  (if p.locked then 1 else 0) + p.thread.pending

/-- **Conservation.** -/
structure Conserved (p : StreamBufferPool) : Prop where
  /-- No buffer is both available and in use, or listed twice. -/
  nodup : (p.mlAvailableBuf ++ p.mlInUseBuf).Nodup
  /-- The counter does not go below zero: it covers all decrements to come. -/
  counter : p.inConstruction ≤ p.muToAllocCnt
  /-- Available, in use and still to be allocated are the configured maximum. -/
  total : ∀ max ∈ p.configured,
    p.mlAvailableBuf.length + p.mlInUseBuf.length + p.muToAllocCnt = max
  /-- At most the maximum number of buffers has been constructed. -/
  bounded : ∀ max ∈ p.configured, p.storage ≤ max

/-- **The condition**: the allocator thread is started only while the counter exceeds the number
of buffers that callers are constructing, and a pool is initialized while it has no buffers, with
a maximum of 32 bits, and not again by a call that fails. -/
def Guarded (p : StreamBufferPool) : PoolOp → Prop
  | .run _ => p.thread = .idle → p.inConstruction < p.muToAllocCnt
  | .initPool szCallerName max min allocates => ValidParams szCallerName max min →
      p.storage = 0 ∧ p.thread = .idle ∧ max < 2 ^ 32 ∧
        (p.configured = none ∨ ∀ i < min, allocates i = true)
  | _ => True

instance (p : StreamBufferPool) : (op : PoolOp) → Decidable (p.Guarded op)
  | .run _ => inferInstanceAs (Decidable (_ → _))
  | .initPool _ _ _ _ => inferInstanceAs (Decidable (_ → _))
  | .commitPool _ | .acquireFromPool _ | .constructed _ | .wakeUp _ | .releaseToPool _
  | .threadConstruct _ | .threadCommit | .threadExit => isTrue trivial

/-! ### The invariant -/

structure PoolInvariant (p : StreamBufferPool) : Prop where
  listed : p.buffers.Perm (List.range p.storage)
  counter : p.inConstruction ≤ p.muToAllocCnt
  total : ∀ max ∈ p.configured,
    p.mlAvailableBuf.length + p.mlInUseBuf.length + p.muToAllocCnt = max ∧ max < 2 ^ 32
  unconfigured : p.configured = none → p.muToAllocCnt = 0

theorem PoolInvariant.length (h : p.PoolInvariant) :
    p.mlAvailableBuf.length + p.mlInUseBuf.length + p.thread.buffers.length = p.storage := by
  have hlength := h.listed.length_eq
  simpa only [buffers, List.length_append, List.length_range] using hlength

theorem PoolInvariant.configured (h : p.PoolInvariant) (hcnt : 0 < p.muToAllocCnt) :
    ∃ max, p.configured = some max ∧
      p.mlAvailableBuf.length + p.mlInUseBuf.length + p.muToAllocCnt = max ∧ max < 2 ^ 32 := by
  cases hmax : p.configured with
  | none =>
    have hzero := h.unconfigured hmax
    omega
  | some max => exact ⟨max, rfl, h.total max hmax⟩

theorem PoolInvariant.conserved (h : p.PoolInvariant) : p.Conserved := by
  refine ⟨?_, h.counter, fun max hmax => (h.total max hmax).1, fun max hmax => ?_⟩
  · have hnodup : p.buffers.Nodup := h.listed.nodup_iff.mpr List.nodup_range
    rw [buffers, List.nodup_append] at hnodup
    exact hnodup.1
  · have htotal := (h.total max hmax).1
    have hlength := h.length
    have hcounter := h.counter
    have hthread := p.thread.length_buffers_le
    rw [inConstruction] at hcounter
    omega

theorem PoolInvariant.storage_mod (h : p.PoolInvariant) (hcnt : 0 < p.muToAllocCnt)
    (hthread : p.thread.buffers = []) : p.storage % 2 ^ 32 = p.storage := by
  obtain ⟨max, -, htotal, hmax⟩ := h.configured hcnt
  have hlength := h.length
  rw [hthread, List.length_nil] at hlength
  omega

theorem decrementToAllocCnt_eq (hpos : 0 < p.muToAllocCnt) :
    p.decrementToAllocCnt = { p with muToAllocCnt := p.muToAllocCnt - 1 } := by
  rw [decrementToAllocCnt, if_neg (by omega)]

theorem signalUserLocked_eq (p : StreamBufferPool) :
    ∃ ws, p.signalUserLocked = { p with mWaitingList := ws } := by
  rw [signalUserLocked]
  split
  · exact ⟨p.mWaitingList, rfl⟩
  · exact ⟨_, rfl⟩

theorem PoolInvariant.congr (h : p.PoolInvariant) (hstorage : p'.storage = p.storage)
    (havailable : p'.mlAvailableBuf = p.mlAvailableBuf) (hinUse : p'.mlInUseBuf = p.mlInUseBuf)
    (hcnt : p'.muToAllocCnt = p.muToAllocCnt) (hthread : p'.thread = p.thread)
    (hconstructing : p'.constructing = p.constructing)
    (hconfigured : p'.configured = p.configured) : p'.PoolInvariant := by
  obtain ⟨h₁, h₂, h₃, h₄⟩ := h
  refine ⟨?_, ?_, ?_, ?_⟩
  · rwa [buffers, havailable, hinUse, hthread, hstorage]
  · rwa [inConstruction, locked, hconstructing, hthread, hcnt]
  · rwa [havailable, hinUse, hcnt, hconfigured]
  · rwa [hcnt, hconfigured]

theorem PoolInvariant.signal (h : p.PoolInvariant) : p.signalUserLocked.PoolInvariant := by
  obtain ⟨ws, hws⟩ := p.signalUserLocked_eq
  rw [hws]
  exact h.congr rfl rfl rfl rfl rfl rfl rfl

/-! ### The steps -/

theorem constructInitial_spec {allocates : ℕ → Bool} {n : ℕ} {err : MERROR}
    (hlt : p.storage + n ≤ 2 ^ 32) (h : constructInitial allocates n p = (p', err)) :
    ∃ k ≤ n, (err = .ok → k = n) ∧ (err ≠ .ok → ∃ i < n, allocates i = false) ∧
      p' = { p with
        storage := p.storage + k
        mlAvailableBuf := p.mlAvailableBuf ++ List.range' p.storage k } := by
  induction n generalizing p with
  | zero =>
    obtain ⟨rfl, rfl⟩ := Prod.mk.inj h
    exact ⟨0, le_rfl, fun _ => rfl, fun herr => absurd rfl herr, by simp⟩
  | succ n ih =>
    rw [constructInitial, do_construct] at h
    cases halloc : allocates n with
    | false =>
      rw [halloc] at h
      obtain ⟨rfl, rfl⟩ := Prod.mk.inj h
      exact ⟨0, Nat.zero_le _, nofun, fun _ => ⟨n, Nat.lt_succ_self n, halloc⟩, by simp⟩
    | true =>
      rw [halloc] at h
      have hmod : p.storage % 2 ^ 32 = p.storage := by omega
      obtain ⟨k, hk, hok, herr, rfl⟩ := ih (by dsimp only; omega) h
      refine ⟨k + 1, by omega, fun he => by rw [hok he], fun he => ?_, ?_⟩
      · obtain ⟨i, hi, hfalse⟩ := herr he
        exact ⟨i, by omega, hfalse⟩
      · simp only [hmod, List.range'_succ, List.append_assoc, List.singleton_append,
          StreamBufferPool.mk.injEq, and_true]
        omega

theorem PoolInvariant.take (h : p.PoolInvariant) {b : BufferIndex} {bs : List BufferIndex}
    (havailable : p.mlAvailableBuf = b :: bs) :
    { p with mlAvailableBuf := bs, mlInUseBuf := p.mlInUseBuf ++ [b] }.PoolInvariant := by
  refine ⟨?_, h.counter, fun max hmax => ?_, h.unconfigured⟩
  · refine .trans (List.perm_iff_count.mpr fun a => ?_) h.listed
    simp only [buffers, havailable, List.count_append, List.count_cons, List.count_nil]
    omega
  · have htotal := h.total max hmax
    rw [havailable, List.length_cons] at htotal
    simp only [List.length_append, List.length_singleton]
    omega

theorem PoolInvariant.lists_eq_nil (h : p.PoolInvariant) (hstorage : p.storage = 0) :
    p.mlAvailableBuf = [] ∧ p.mlInUseBuf = [] := by
  have hlength := h.length
  exact ⟨List.eq_nil_of_length_eq_zero (by omega), List.eq_nil_of_length_eq_zero (by omega)⟩

theorem PoolInvariant.listed_constructInitial (h : p.PoolInvariant) (hstorage : p.storage = 0)
    (hthread : p.thread = .idle) (k : ℕ) :
    { p with
      storage := p.storage + k
      mlAvailableBuf := p.mlAvailableBuf ++ List.range' p.storage k }.buffers.Perm
        (List.range (p.storage + k)) := by
  obtain ⟨havailable, hinUse⟩ := h.lists_eq_nil hstorage
  simp [buffers, havailable, hinUse, hstorage, hthread, AllocThread.buffers,
    List.range_eq_range']

theorem PoolInvariant.initPool (h : p.PoolInvariant) {name : Option String} {max min : ℕ}
    {allocates : ℕ → Bool} (hguard : p.Guarded (.initPool name max min allocates))
    (hlocked : p.locked = false) (hvalid : ValidParams name max min)
    (hloop : constructInitial allocates min p = (p', .ok)) :
    { p' with
      muToAllocCnt := (max - min) % 2 ^ 32, configured := some max }.PoolInvariant := by
  obtain ⟨hstorage, hthread, hmax, -⟩ := hguard hvalid
  have hmin : min ≤ max := hvalid.2.2
  obtain ⟨k, -, hok, -, rfl⟩ := constructInitial_spec (by omega) hloop
  obtain rfl := hok rfl
  obtain ⟨havailable, hinUse⟩ := h.lists_eq_nil hstorage
  have hmod : (max - k) % 2 ^ 32 = max - k := by omega
  refine ⟨h.listed_constructInitial hstorage hthread k, ?_, ?_, fun hnone => by cases hnone⟩
  · simp [inConstruction, locked, hthread, AllocThread.pending] at hlocked ⊢
    simp [hlocked]
  · intro max' hmax'
    obtain rfl : max = max' := by simpa using hmax'
    simp only [hmod, havailable, hinUse, List.nil_append, List.length_range', List.length_nil]
    omega

theorem PoolInvariant.initPool_failed (h : p.PoolInvariant) {name : Option String} {max min : ℕ}
    {allocates : ℕ → Bool} {err : MERROR} (hguard : p.Guarded (.initPool name max min allocates))
    (hvalid : ValidParams name max min) (herr : err ≠ .ok)
    (hloop : constructInitial allocates min p = (p', err)) : p'.PoolInvariant := by
  obtain ⟨hstorage, hthread, hmax, hfirst⟩ := hguard hvalid
  have hmin : min ≤ max := hvalid.2.2
  obtain ⟨k, hk, -, hfails, rfl⟩ := constructInitial_spec (by omega) hloop
  obtain ⟨i, hi, hfalse⟩ := hfails herr
  have hnone : p.configured = none := hfirst.resolve_right fun hall => by
    rw [hall i hi] at hfalse
    cases hfalse
  refine ⟨h.listed_constructInitial hstorage hthread k, h.counter, fun max' hmax' => ?_,
    h.unconfigured⟩
  rw [hnone] at hmax'
  cases hmax'

theorem PoolInvariant.run (h : p.PoolInvariant) (hidle : p.thread = .idle)
    (hlt : p.inConstruction < p.muToAllocCnt) (committing : List Caller) :
    { p with committing, thread := .constructing }.PoolInvariant := by
  refine ⟨?_, ?_, h.total, h.unconfigured⟩
  · simpa [buffers, hidle, AllocThread.buffers] using h.listed
  · simp only [inConstruction, hidle, AllocThread.pending] at hlt ⊢
    exact hlt

theorem PoolInvariant.construct (h : p.PoolInvariant) (hidle : p.thread = .idle)
    (hcnt : 0 < p.muToAllocCnt) (caller : Caller) :
    { p with constructing := some caller }.PoolInvariant := by
  refine ⟨h.listed, ?_, h.total, h.unconfigured⟩
  simp only [inConstruction, locked, hidle, AllocThread.pending, Option.isSome_some, if_true]
  exact hcnt

theorem PoolInvariant.total_decrement {max : ℕ} (hmax : p.configured = some max)
    (htotal : p.mlAvailableBuf.length + p.mlInUseBuf.length + p.muToAllocCnt = max)
    (hlt : max < 2 ^ 32) (hpos : 0 < p.muToAllocCnt) {available inUse : List BufferIndex}
    (hlength : available.length + inUse.length =
      p.mlAvailableBuf.length + p.mlInUseBuf.length + 1) :
    ∀ max' ∈ p.configured,
      available.length + inUse.length + (p.muToAllocCnt - 1) = max' ∧ max' < 2 ^ 32 := by
  intro max' hmax'
  obtain rfl : max = max' := by simpa [hmax] using hmax'
  omega

theorem PoolInvariant.constructed (h : p.PoolInvariant) (hlocked : p.locked = true) :
    { p with
      storage := p.storage + 1
      constructing := none
      mlInUseBuf := p.mlInUseBuf ++ [p.storage % 2 ^ 32] }.decrementToAllocCnt.PoolInvariant := by
  have hcounter := h.counter
  rw [inConstruction, if_pos hlocked] at hcounter
  obtain ⟨max, hmax, htotal, hlt⟩ := h.configured (by omega)
  have hlength := h.length
  have hthread := p.thread.length_buffers_le
  have hmod : p.storage % 2 ^ 32 = p.storage := by omega
  rw [decrementToAllocCnt_eq (by dsimp only; omega), hmod]
  refine ⟨?_, ?_, ?_, fun hnone => ?_⟩
  · rw [List.range_succ]
    refine .trans (List.perm_iff_count.mpr fun a => ?_) (h.listed.append_right [p.storage])
    simp only [buffers, List.count_append]
    omega
  · simp only [inConstruction, locked, Option.isSome_none, Bool.false_eq_true, if_false]
    omega
  · refine total_decrement hmax htotal hlt (by omega) ?_
    simp only [List.length_append, List.length_singleton]
    omega
  · rw [hmax] at hnone
    cases hnone

theorem PoolInvariant.constructed_failed (h : p.PoolInvariant) (hlocked : p.locked = true) :
    { p with constructing := none }.PoolInvariant := by
  have hcounter := h.counter
  rw [inConstruction, if_pos hlocked] at hcounter
  refine ⟨h.listed, ?_, h.total, h.unconfigured⟩
  simp only [inConstruction, locked, Option.isSome_none, Bool.false_eq_true, if_false]
  omega

theorem PoolInvariant.releaseToPool (h : p.PoolInvariant) {b : BufferIndex}
    (hmem : b ∈ p.mlInUseBuf) :
    { p with
      mlAvailableBuf := p.mlAvailableBuf ++ [b]
      mlInUseBuf := p.mlInUseBuf.erase b }.PoolInvariant := by
  refine ⟨?_, h.counter, fun max hmax => ?_, h.unconfigured⟩
  · refine .trans (List.perm_iff_count.mpr fun a => ?_) h.listed
    have hcount := (List.perm_cons_erase hmem).count_eq a
    simp only [buffers, List.count_append, List.count_cons, List.count_nil] at hcount ⊢
    omega
  · have htotal := h.total max hmax
    have hlength := (List.perm_cons_erase hmem).length_eq
    rw [List.length_cons] at hlength
    simp only [List.length_append, List.length_singleton]
    omega

theorem PoolInvariant.threadConstruct (h : p.PoolInvariant) (hthread : p.thread = .constructing) :
    { p with
      storage := p.storage + 1
      thread := .constructed (p.storage % 2 ^ 32) }.PoolInvariant := by
  have hcounter := h.counter
  simp only [inConstruction, hthread, AllocThread.pending] at hcounter
  have hmod := h.storage_mod (by omega) (by rw [hthread, AllocThread.buffers])
  rw [hmod]
  refine ⟨?_, hcounter, h.total, h.unconfigured⟩
  rw [List.range_succ]
  refine .trans (List.Perm.of_eq ?_) (h.listed.append_right [p.storage])
  simp [buffers, hthread, AllocThread.buffers]

/-- The thread puts its buffer into the pool, and goes on only if the counter covers another. -/
theorem PoolInvariant.threadCommit (h : p.PoolInvariant) {b : BufferIndex} (thread : AllocThread)
    (hthread : p.thread = .constructed b) (hlocked : p.locked = false)
    (hnext : thread = .ended ∨
      thread = .constructing ∧ 0 < p.decrementToAllocCnt.muToAllocCnt) :
    { p.decrementToAllocCnt with
      mlAvailableBuf := p.mlAvailableBuf ++ [b]
      thread }.PoolInvariant := by
  have hcounter := h.counter
  simp only [inConstruction, hthread, hlocked, AllocThread.pending, Bool.false_eq_true,
    if_false] at hcounter
  obtain ⟨max, hmax, htotal, hlt⟩ := h.configured (by omega)
  rw [decrementToAllocCnt_eq (by omega)] at hnext ⊢
  have hbuffers : thread.buffers = [] := by
    obtain rfl | ⟨rfl, -⟩ := hnext <;> rfl
  have hpending : thread.pending ≤ p.muToAllocCnt - 1 := by
    obtain rfl | ⟨rfl, hnext⟩ := hnext
    · exact Nat.zero_le _
    · exact hnext
  refine ⟨?_, ?_, ?_, fun hnone => ?_⟩
  · refine .trans (List.perm_iff_count.mpr fun a => ?_) h.listed
    rw [buffers, buffers, hbuffers, hthread, AllocThread.buffers]
    simp only [List.count_append, List.count_nil]
    omega
  · rw [locked] at hlocked
    simpa [inConstruction, locked, hlocked] using hpending
  · refine total_decrement hmax htotal hlt (by omega) ?_
    simp only [List.length_append, List.length_singleton]
    omega
  · rw [hmax] at hnone
    cases hnone

theorem PoolInvariant.threadExit (h : p.PoolInvariant) (hthread : p.thread = .ended) :
    { p with thread := .idle }.PoolInvariant := by
  refine ⟨?_, ?_, h.total, h.unconfigured⟩
  · simpa [buffers, hthread, AllocThread.buffers] using h.listed
  · have hcounter := h.counter
    rw [inConstruction, hthread] at hcounter
    exact hcounter

/-- **A step that meets the condition keeps the invariant.** -/
theorem PoolInvariant.step (h : p.PoolInvariant) (hguard : p.Guarded op) (hstep : p.Step op p') :
    p'.PoolInvariant := by
  cases hstep with
  | initPool hlocked hvalid hloop => exact h.initPool hguard hlocked hvalid hloop
  | initPool_failed hlocked hvalid herr hloop => exact h.initPool_failed hguard hvalid herr hloop
  | initPool_invalid | releaseToPool_unknown | threadConstruct_failed => exact h
  | commitPool committing => exact h.congr rfl rfl rfl rfl rfl rfl rfl
  | run_refused committing => exact h.congr rfl rfl rfl rfl rfl rfl rfl
  | run committing hidle => exact h.run hidle (hguard hidle) committing
  | take havailable => exact h.take havailable
  | construct hlocked hidle hcnt => exact h.construct hidle hcnt _
  | wait havailable => exact h.congr rfl rfl rfl rfl rfl rfl rfl
  | constructed hlocked => exact h.constructed hlocked
  | constructed_failed hlocked => exact h.constructed_failed hlocked
  | wakeUp_take hwaits havailable =>
    exact (h.take havailable).congr rfl rfl rfl rfl rfl rfl rfl
  | wakeUp_timedOut havailable => exact h.congr rfl rfl rfl rfl rfl rfl rfl
  | releaseToPool hmem => exact (h.releaseToPool hmem).signal
  | threadConstruct hthread => exact h.threadConstruct hthread
  | threadCommit thread hthread hlocked hnext =>
    exact (h.threadCommit thread hthread hlocked hnext).signal
  | threadExit hthread => exact h.threadExit hthread

theorem PoolInvariant.init : ({} : StreamBufferPool).PoolInvariant := by
  refine ⟨?_, ?_, nofun, fun _ => rfl⟩
  · rfl
  · decide

/-- **Conservation in a stream buffer pool**, in every reachable state of a run that meets the
condition. -/
theorem conserved_of_runs (h : poolMachine.RunsMeeting (fun _ => Guarded) {} ops p events) :
    p.Conserved := by
  refine (h.invariant (I := fun _ p _ => PoolInvariant p) .init ?_).conserved
  intro _ _ _ _ _ _ hinv hguard hstep
  exact hinv.step hguard (step_of_poolMachine hstep)

/-- A pool of two buffers, of which a caller constructs one and the allocator thread the
other. -/
def oneEach : List PoolOp :=
  [.initPool (some "pool") 2 0 fun _ => true, .acquireFromPool 1, .constructed true,
    .commitPool 2, .run 2, .threadConstruct true, .threadCommit, .threadExit,
    .acquireFromPool 3, .releaseToPool 0]

/-- `oneEach` meets the condition and ends with one buffer available and one in use. -/
theorem conserved_of_runs_oneEach : ∃ p events,
    poolMachine.RunsMeeting (fun _ => Guarded) {} oneEach p events ∧
      p.mlAvailableBuf = [0] ∧ p.mlInUseBuf = [1] ∧ p.Conserved := by
  have hobserve : ((poolMachine.observe {} oneEach fun p =>
      (p.mlAvailableBuf, p.mlInUseBuf)).map (·.1)) = some ([0], [1]) := by decide
  obtain ⟨⟨view, events⟩, hview, rfl⟩ := Option.map_eq_some_iff.mp hobserve
  obtain ⟨p, hrun, hp⟩ := Machine.exists_run_of_observe hview
  obtain ⟨havailable, hinUse⟩ := Prod.mk.inj hp
  have hmeeting := hrun.meeting (C := Guarded) (by decide)
  exact ⟨p, events, hmeeting, havailable, hinUse, conserved_of_runs hmeeting⟩

/-- A pool of one buffer. A caller finds the thread not running and constructs it, and while it
does, the thread is started. -/
def startedLate : List PoolOp :=
  [.initPool (some "pool") 1 0 fun _ => true, .commitPool 2, .acquireFromPool 1, .run 2,
    .constructed true, .threadConstruct true, .threadCommit]

/-- Two buffers of one have been constructed, and the counter has gone below zero. -/
theorem startedLate_not_conserved : ∃ p events,
    poolMachine.Runs {} startedLate p events ∧ p.configured = some 1 ∧ p.storage = 2 ∧
      p.muToAllocCnt = 2 ^ 32 - 1 ∧ ¬ p.Conserved := by
  have hobserve : ((poolMachine.observe {} startedLate fun p =>
      (p.configured, p.storage, p.muToAllocCnt)).map (·.1)) =
        some (some 1, 2, 2 ^ 32 - 1) := by decide
  obtain ⟨⟨view, events⟩, hview, rfl⟩ := Option.map_eq_some_iff.mp hobserve
  obtain ⟨p, hrun, hp⟩ := Machine.exists_run_of_observe hview
  simp only [Prod.mk.injEq] at hp
  obtain ⟨hconfigured, hstorage, hcnt⟩ := hp
  refine ⟨p, events, hrun, hconfigured, hstorage, hcnt, fun hconserved => ?_⟩
  have hbounded := hconserved.bounded 1 hconfigured
  omega

end StreamBufferPool

end MtkHardware.StreamBuf
