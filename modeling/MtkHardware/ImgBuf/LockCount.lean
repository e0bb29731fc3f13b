import MtkHardware.ImgBuf.ImageBuffer
import Mathlib.Data.Fintype.Card
import Mathlib.Algebra.BigOperators.Group.Finset.Piecewise
import Mathlib.Logic.Function.Basic

/-!
# Lock Counts of Image Buffers

The heap counts the locks of all its buffers, and each buffer counts its own. `lockBuf` of a buffer
answers true whatever `lockBufLocked` answers, so the answer tells that the buffer is locked only
where it is.
-/

namespace MtkHardware.ImgBuf

variable {env : IonEnv} {usage : Usage}

def Maps (env : IonEnv) (usage : Usage) (i : ℕ) (stored : MyBufInfo) : Prop :=
  (usage &&& eBUFFER_USAGE_SW_MASK ≠ 0 →
    (mapVA env usage i stored).va ≠ 0 ∧ (mapVA env usage i stored).va ≠ -1) ∧
  (usage &&& eBUFFER_USAGE_HW_MASK ≠ 0 →
    stored.pa ≠ 0 ∨ ∃ pa, env.phyAddr i = some pa ∧ pa ≠ 0)

theorem mapVA_pa (env : IonEnv) (usage : Usage) (i : ℕ) (stored : MyBufInfo) :
    (mapVA env usage i stored).pa = stored.pa := by
  rw [mapVA]
  split <;> rfl

theorem lockSW_spec (env : IonEnv) (usage : Usage) (i : ℕ) (p : HeapPlane) :
    ((lockSW env usage i p).1 = true ↔ (usage &&& eBUFFER_USAGE_SW_MASK ≠ 0 →
      (mapVA env usage i p.stored).va ≠ 0 ∧ (mapVA env usage i p.stored).va ≠ -1)) ∧
    (lockSW env usage i p).2.stored.pa = p.stored.pa ∧
    (usage &&& eBUFFER_USAGE_SW_MASK ≠ 0 →
      (lockSW env usage i p).2.info.va = (mapVA env usage i p.stored).va) := by
  rw [lockSW]
  split
  · rename_i hsw
    refine ⟨?_, mapVA_pa env usage i p.stored, fun _ => rfl⟩
    simp only [decide_eq_true_eq]
    exact ⟨fun h _ => h, fun h => h hsw⟩
  · rename_i hsw
    exact ⟨iff_of_true rfl fun h => absurd h hsw, rfl, fun h => absurd h hsw⟩

theorem lockHW_spec (env : IonEnv) (usage : Usage) (i : ℕ) (p : HeapPlane) :
    (((lockHW env usage i p).1 = true ∧
        (usage &&& eBUFFER_USAGE_HW_MASK ≠ 0 → (lockHW env usage i p).2.info.pa ≠ 0)) ↔
      (usage &&& eBUFFER_USAGE_HW_MASK ≠ 0 →
        p.stored.pa ≠ 0 ∨ ∃ pa, env.phyAddr i = some pa ∧ pa ≠ 0)) ∧
    (lockHW env usage i p).2.info.va = p.info.va := by
  rw [lockHW.eq_def]
  split
  · rename_i hhw
    split
    · rename_i hpa
      cases env.phyAddr i with
      | none =>
        refine ⟨iff_of_false (fun h => Bool.false_ne_true h.1) fun h => ?_, rfl⟩
        rcases h hhw with hstored | ⟨pa, hnone, -⟩
        · exact hstored hpa
        · cases hnone
      | some pa =>
        refine ⟨⟨fun h _ => .inr ⟨pa, rfl, h.2 hhw⟩, fun h => ⟨rfl, fun _ => ?_⟩⟩, rfl⟩
        rcases h hhw with hstored | ⟨pa', hsome, hne⟩
        · exact absurd hpa hstored
        · cases hsome
          exact hne
    · rename_i hpa
      exact ⟨iff_of_true ⟨rfl, fun _ => hpa⟩ fun _ => .inl hpa, rfl⟩
  · rename_i hhw
    exact ⟨iff_of_true ⟨rfl, fun h => absurd h hhw⟩ fun h => absurd h hhw, rfl⟩

theorem lockPlane_iff (env : IonEnv) (usage : Usage) (i : ℕ) (p : HeapPlane) :
    ((lockPlane env usage i p).1 = true ∧ HasAddresses usage (lockPlane env usage i p).2.info) ↔
      Maps env usage i p.stored := by
  obtain ⟨hsw, hpa, hva⟩ := lockSW_spec env usage i p
  rw [lockPlane.eq_def, Maps]
  cases hcase : lockSW env usage i p with
  | mk ok p' =>
    rw [hcase] at hsw hpa hva
    cases ok with
    | false =>
      refine iff_of_false (fun h => Bool.false_ne_true h.1) fun h => ?_
      exact Bool.false_ne_true (hsw.mpr h.1)
    | true =>
      obtain ⟨hhw, hva'⟩ := lockHW_spec env usage i p'
      dsimp only at hsw hpa hva ⊢
      rw [HasAddresses, hva', ← hpa, ← hhw]
      have hmap := hsw.mp rfl
      constructor
      · rintro ⟨hok, -, haddr⟩
        exact ⟨hmap, hok, haddr⟩
      · rintro ⟨-, hok, haddr⟩
        exact ⟨hok, fun h => hva h ▸ (hmap h).1, haddr⟩

theorem length_lockPlanes (env : IonEnv) (usage : Usage) (k : ℕ) (ps : List HeapPlane) :
    (lockPlanes env usage k ps).2.length = ps.length := by
  induction ps generalizing k with
  | nil => rfl
  | cons p ps ih =>
    rw [lockPlanes]
    split
    · rfl
    · simp only [List.length_cons, ih]

theorem lockPlanes_iff (env : IonEnv) (usage : Usage) (k : ℕ) (ps : List HeapPlane) :
    ((lockPlanes env usage k ps).1 = true ∧
        ∀ p ∈ (lockPlanes env usage k ps).2, HasAddresses usage p.info) ↔
      ∀ i p, ps[i]? = some p → Maps env usage (k + i) p.stored := by
  induction ps generalizing k with
  | nil => exact iff_of_true ⟨rfl, fun p hp => absurd hp List.not_mem_nil⟩ nofun
  | cons p ps ih =>
    have hplane := lockPlane_iff env usage k p
    have hall : (∀ i q, (p :: ps)[i]? = some q → Maps env usage (k + i) q.stored) ↔
        Maps env usage k p.stored ∧
          ∀ i q, ps[i]? = some q → Maps env usage (k + 1 + i) q.stored := by
      constructor
      · refine fun h => ⟨h 0 p rfl, fun i q hq => ?_⟩
        rw [Nat.add_assoc, Nat.add_comm 1 i]
        exact h (i + 1) q hq
      · rintro ⟨hp, hps⟩ (- | i) q hq
        · obtain rfl : p = q := Option.some.inj hq
          exact hp
        · rw [Nat.add_comm i 1, ← Nat.add_assoc]
          exact hps i q hq
    rw [hall, ← hplane, ← ih, lockPlanes]
    split
    · rename_i p' hcase
      rw [hcase]
      exact iff_of_false (fun h => Bool.false_ne_true h.1) fun h => Bool.false_ne_true h.1.1
    · rename_i p' hcase
      rw [hcase]
      simp only [List.forall_mem_cons, true_and]
      exact and_left_comm

namespace IonImageBufferHeap

variable {heap : IonImageBufferHeap}

/-- What holds of the heap between the calls: where it is locked, its planes have addresses. -/
structure Intact (heap : IonImageBufferHeap) : Prop where
  size : heap.planes.length = heap.mPlaneCount
  addresses : 0 < heap.mLockCount → ∀ p ∈ heap.planes, HasAddresses heap.mLockUsage p.info

/-- The heap can be locked: the locks that are there read with the same usage, or there is none
and every plane can be mapped. -/
def Lockable (heap : IonImageBufferHeap) (env : IonEnv) (usage : Usage) : Prop :=
  if 0 < heap.mLockCount then usage &&& ~~~readUsage = 0 ∧ heap.mLockUsage = usage
  else ∀ i p, heap.planes[i]? = some p → Maps env usage i p.stored

structure Locked (heap : IonImageBufferHeap) (usage : Usage) (heap' : IonImageBufferHeap) :
    Prop where
  intact : heap'.Intact
  planeCount : heap'.mPlaneCount = heap.mPlaneCount
  count : heap'.mLockCount = heap.mLockCount + 1
  usage : heap'.mLockUsage = usage

structure Unchanged (heap heap' : IonImageBufferHeap) : Prop where
  intact : heap'.Intact
  planeCount : heap'.mPlaneCount = heap.mPlaneCount
  count : heap'.mLockCount = heap.mLockCount
  usage : heap'.mLockUsage = heap.mLockUsage

theorem Intact.unchanged (h : heap.Intact) : heap.Unchanged heap := ⟨h, rfl, rfl, rfl⟩

theorem unchanged_of_unlocked (hcount : ¬ 0 < heap.mLockCount) {planes : List HeapPlane}
    (hlength : planes.length = heap.mPlaneCount) : heap.Unchanged { heap with planes } :=
  ⟨⟨hlength, fun h => absurd h hcount⟩, rfl, rfl, rfl⟩

/-- **Locking the heap.** -/
theorem lockBuf_spec (h : heap.Intact) (env : IonEnv) (usage : Usage) :
    ((heap.lockBuf env usage).1 = true ↔ heap.Lockable env usage) ∧
    ((heap.lockBuf env usage).1 = true → heap.Locked usage (heap.lockBuf env usage).2) ∧
    ((heap.lockBuf env usage).1 = false → heap.Unchanged (heap.lockBuf env usage).2) := by
  rw [lockBuf, Lockable]
  by_cases hcount : 0 < heap.mLockCount
  · rw [if_pos hcount, if_pos hcount]
    split
    · rename_i hshared
      refine ⟨iff_of_true rfl hshared, fun _ => ?_, nofun⟩
      exact ⟨⟨h.size, fun _ => h.addresses hcount⟩, rfl, rfl, hshared.2⟩
    · rename_i hshared
      exact ⟨iff_of_false Bool.false_ne_true hshared, nofun, fun _ => h.unchanged⟩
  · rw [if_neg hcount, if_neg hcount]
    have hplanes := lockPlanes_iff env usage 0 heap.planes
    have hlength := length_lockPlanes env usage 0 heap.planes
    simp only [Nat.zero_add] at hplanes
    rw [impLockBuf]
    cases hcase : lockPlanes env usage 0 heap.planes with
    | mk ok planes =>
      rw [hcase] at hplanes hlength
      have hsize : planes.length = heap.mPlaneCount := hlength.trans h.size
      cases ok with
      | false =>
        refine ⟨iff_of_false Bool.false_ne_true fun hall => ?_, nofun, fun _ => ?_⟩
        · exact Bool.false_ne_true (hplanes.mpr hall).1
        · refine unchanged_of_unlocked hcount ?_
          rw [List.length_map, hsize]
      | true =>
        simp only [true_and] at hplanes
        dsimp only
        rw [if_neg (not_not.mpr hsize.symm)]
        split
        · rename_i haddr
          exact ⟨iff_of_true rfl (hplanes.mp haddr),
            fun _ => ⟨⟨hsize, fun _ => haddr⟩, rfl, rfl, rfl⟩, nofun⟩
        · rename_i haddr
          exact ⟨iff_of_false Bool.false_ne_true fun hall => haddr (hplanes.mpr hall), nofun,
            fun _ => unchanged_of_unlocked hcount hsize⟩

/-- **Unlocking the heap**, which is locked. -/
theorem unlockBuf_spec (h : heap.Intact) (hcount : 0 < heap.mLockCount) :
    heap.unlockBuf.1 = true ∧ heap.unlockBuf.2.Intact ∧
      heap.unlockBuf.2.mPlaneCount = heap.mPlaneCount ∧
      heap.unlockBuf.2.mLockCount + 1 = heap.mLockCount := by
  rw [unlockBuf]
  split
  · rename_i hmore
    refine ⟨rfl, ⟨h.size, fun _ => h.addresses hcount⟩, rfl, ?_⟩
    dsimp only
    omega
  · rename_i hlast
    rw [if_neg (by omega)]
    refine ⟨rfl, ⟨?_, fun hpos => ?_⟩, rfl, ?_⟩
    · exact (List.length_map _).trans h.size
    · simp only [impUnlockBuf] at hpos
      omega
    · simp only [impUnlockBuf]
      omega

end IonImageBufferHeap

namespace BaseImageBuffer

open IonImageBufferHeap

variable {heap : IonImageBufferHeap} {buf : BaseImageBuffer}

theorem length_readPlanes (heap : IonImageBufferHeap) (usage : Usage) (k : ℕ)
    (infos : List BufInfo) : (readPlanes heap usage k infos).2.length = infos.length := by
  induction infos generalizing k with
  | nil => rfl
  | cons info infos ih =>
    rw [readPlanes]
    split
    · simp only [List.length_cons, ih]
    · rfl

theorem hasAddresses_readPlane (h : heap.Intact) (hcount : 0 < heap.mLockCount) {i : ℕ}
    (hi : i < heap.mPlaneCount) (info : BufInfo) :
    HasAddresses heap.mLockUsage (readPlane heap heap.mLockUsage i info) := by
  have hget : (heap.planes[i]?.getD {}) ∈ heap.planes := by
    have hi' : i < heap.planes.length := h.size.symm ▸ hi
    rw [List.getElem?_eq_getElem hi', Option.getD_some]
    exact List.getElem_mem hi'
  obtain ⟨hva, hpa⟩ := h.addresses hcount _ hget
  constructor
  · intro hsw
    rw [readPlane]
    dsimp only
    rw [if_pos hsw, getBufVA, if_neg (not_le.mpr hi), if_neg (not_or.mpr ⟨hcount.ne', hsw⟩)]
    exact hva hsw
  · intro hhw
    rw [readPlane]
    dsimp only
    rw [if_pos hhw, getBufPA, if_neg (not_le.mpr hi), if_neg (not_or.mpr ⟨hcount.ne', hhw⟩)]
    exact hpa hhw

theorem readPlanes_true (h : heap.Intact) (hcount : 0 < heap.mLockCount) {k : ℕ}
    {infos : List BufInfo} (hk : k + infos.length ≤ heap.mPlaneCount) :
    (readPlanes heap heap.mLockUsage k infos).1 = true := by
  induction infos generalizing k with
  | nil => rfl
  | cons info infos ih =>
    rw [List.length_cons] at hk
    rw [readPlanes, if_pos (hasAddresses_readPlane h hcount (by omega) info)]
    exact ih (by omega)

structure LockedBy (usage : Usage) (heap heap' : IonImageBufferHeap)
    (buf buf' : BaseImageBuffer) : Prop extends heap.Locked usage heap' where
  bufferSize : buf'.mvBufHeapInfo.length = buf.mvBufHeapInfo.length
  bufferCount : buf'.mLockCount = 1

structure UnchangedBy (heap heap' : IonImageBufferHeap)
    (buf buf' : BaseImageBuffer) : Prop extends heap.Unchanged heap' where
  bufferSize : buf'.mvBufHeapInfo.length = buf.mvBufHeapInfo.length
  bufferCount : buf'.mLockCount = buf.mLockCount
  bufferUsage : buf'.mLockUsage = buf.mLockUsage

/-- **Locking a buffer** that is not locked. -/
theorem lockBufLocked_spec (h : heap.Intact) (hsize : buf.mvBufHeapInfo.length = heap.mPlaneCount)
    (hcount : buf.mLockCount = 0) (env : IonEnv) (usage : Usage) :
    ∃ locked heap' buf', lockBufLocked heap buf env usage = .ok (locked, heap', buf') ∧
      (locked = true ↔ heap.Lockable env usage) ∧
      (locked = true → LockedBy usage heap heap' buf buf') ∧
      (locked = false → UnchangedBy heap heap' buf buf') := by
  obtain ⟨hiff, htrue, hfalse⟩ := lockBuf_spec h env usage
  rw [lockBufLocked, if_neg (by omega)]
  cases hcase : heap.lockBuf env usage with
  | mk ok heap' =>
    rw [hcase] at hiff htrue hfalse
    cases ok with
    | false =>
      refine ⟨false, heap', buf, rfl, hiff, nofun, fun _ => ?_⟩
      exact { hfalse rfl with bufferSize := rfl, bufferCount := rfl, bufferUsage := rfl }
    | true =>
      have hlocked := htrue rfl
      have hlength := length_readPlanes heap' usage 0 buf.mvBufHeapInfo
      have hread := @readPlanes_true heap' hlocked.intact (by rw [hlocked.count]; omega) 0
        buf.mvBufHeapInfo (by rw [hlocked.planeCount]; omega)
      rw [hlocked.usage] at hread
      dsimp only
      rw [if_neg (not_not.mpr (hlocked.planeCount.trans hsize.symm))]
      cases hcase' : readPlanes heap' usage 0 buf.mvBufHeapInfo with
      | mk ok infos =>
        rw [hcase'] at hread hlength
        obtain rfl : ok = true := hread
        refine ⟨true, heap', _, rfl, hiff, fun _ => ?_, nofun⟩
        exact { hlocked with bufferSize := hlength
                             bufferCount := by dsimp only; omega }

/-- **Unlocking a buffer**: where the buffer is locked, so is the heap, and both are unlocked once.
-/
theorem unlockBufLocked_spec (h : heap.Intact) (hcount : 0 < buf.mLockCount → 0 < heap.mLockCount) :
    ∃ unlocked heap' buf', unlockBufLocked heap buf = (unlocked, heap', buf') ∧
      (unlocked = false → UnchangedBy heap heap' buf buf' ∧ buf.mLockCount = 0) ∧
      (unlocked = true → heap'.Intact ∧ heap'.mPlaneCount = heap.mPlaneCount ∧
        heap'.mLockCount + 1 = heap.mLockCount ∧
        buf'.mvBufHeapInfo.length = buf.mvBufHeapInfo.length ∧
        buf'.mLockCount + 1 = buf.mLockCount) := by
  rw [unlockBufLocked]
  split
  · rename_i hzero
    refine ⟨false, heap, buf, rfl, fun _ => ⟨?_, hzero⟩, nofun⟩
    exact { h.unchanged with bufferSize := rfl, bufferCount := rfl, bufferUsage := rfl }
  · rename_i hlocked
    obtain ⟨htrue, hintact, hplanes, hcount'⟩ := unlockBuf_spec h (hcount (by omega))
    cases hcase : heap.unlockBuf with
    | mk ok heap' =>
      rw [hcase] at htrue hintact hplanes hcount'
      obtain rfl : ok = true := htrue
      refine ⟨true, heap', _, rfl, nofun, fun _ => ⟨hintact, hplanes, hcount', ?_, ?_⟩⟩
      · exact List.length_map _
      · dsimp only
        omega

end BaseImageBuffer

/-! ### The buffers of a heap -/

structure BufferSet (ι : Type*) where
  heap : IonImageBufferHeap
  buffers : ι → BaseImageBuffer

/-- The calls on the buffers, each with what the kernel answers in it. -/
inductive BufferOp (ι : Type*)
  | lockBuf (b : ι) (usage : Usage) (env : IonEnv)
  | unlockBuf (b : ι)

/-- The answer of `lockBufLocked` or `unlockBufLocked`, and the answer of the call. -/
structure Answer where
  inner : Bool
  ret : Bool
  deriving DecidableEq, Repr

section Buffers

variable {ι : Type*} [Fintype ι] [DecidableEq ι]

def calls : Machine (BufferSet ι) (BufferOp ι) Answer Fatal := fun s op =>
  match op with
  | .lockBuf b usage env =>
    match BaseImageBuffer.lockBuf s.heap (s.buffers b) env usage with
    | .error e => .error e
    | .ok (inner, ret, heap, buf) =>
      .ok ({ heap, buffers := Function.update s.buffers b buf }, [{ inner, ret }])
  | .unlockBuf b =>
    match BaseImageBuffer.unlockBuf s.heap (s.buffers b) with
    | (inner, ret, heap, buf) =>
      .ok ({ heap, buffers := Function.update s.buffers b buf }, [{ inner, ret }])

namespace BufferSet

variable {s s' : BufferSet ι}

def lockedCount (s : BufferSet ι) : ℕ :=
  (Finset.univ.filter fun b => 0 < (s.buffers b).mLockCount).card

theorem lockedCount_update (s : BufferSet ι) (heap : IonImageBufferHeap) (b : ι)
    (buf : BaseImageBuffer) :
    lockedCount { heap, buffers := Function.update s.buffers b buf } +
        (if 0 < (s.buffers b).mLockCount then 1 else 0) =
      s.lockedCount + if 0 < buf.mLockCount then 1 else 0 := by
  have hsplit : ∀ f : ι → BaseImageBuffer,
      (Finset.univ.filter fun b => 0 < (f b).mLockCount).card =
        (∑ b' ∈ Finset.univ.erase b, if 0 < (f b').mLockCount then 1 else 0) +
          if 0 < (f b).mLockCount then 1 else 0 := fun f => by
    rw [Finset.card_filter, ← Finset.sum_erase_add _ _ (Finset.mem_univ b)]
  have hrest : (∑ b' ∈ Finset.univ.erase b,
        if 0 < (Function.update s.buffers b buf b').mLockCount then 1 else 0) =
      ∑ b' ∈ Finset.univ.erase b, if 0 < (s.buffers b').mLockCount then 1 else 0 := by
    refine Finset.sum_congr rfl fun b' hb' => ?_
    rw [Function.update_of_ne (Finset.ne_of_mem_erase hb')]
  rw [lockedCount, lockedCount, hsplit, hsplit]
  simp only [hrest, Function.update_self]
  omega

structure Counted (s : BufferSet ι) : Prop where
  intact : s.heap.Intact
  sizes : ∀ b, (s.buffers b).mvBufHeapInfo.length = s.heap.mPlaneCount
  once : ∀ b, (s.buffers b).mLockCount ≤ 1
  count : s.heap.mLockCount = s.lockedCount

omit [DecidableEq ι] in
theorem Counted.locked (h : s.Counted) {b : ι} (hb : 0 < (s.buffers b).mLockCount) :
    0 < s.heap.mLockCount := by
  rw [h.count]
  exact Finset.card_pos.mpr ⟨b, Finset.mem_filter.mpr ⟨Finset.mem_univ b, hb⟩⟩

theorem Counted.update (h : s.Counted) {heap : IonImageBufferHeap} {b : ι}
    (buf : BaseImageBuffer) (hintact : heap.Intact)
    (hplanes : heap.mPlaneCount = s.heap.mPlaneCount)
    (hsize : buf.mvBufHeapInfo.length = (s.buffers b).mvBufHeapInfo.length)
    (honce : buf.mLockCount ≤ 1)
    (hcount : heap.mLockCount + (s.buffers b).mLockCount = s.heap.mLockCount + buf.mLockCount) :
    Counted { heap, buffers := Function.update s.buffers b buf } where
  intact := hintact
  sizes b' := by
    dsimp only
    by_cases hb : b' = b
    · rw [hb, Function.update_self, hsize, h.sizes, hplanes]
    · rw [Function.update_of_ne hb, h.sizes, hplanes]
  once b' := by
    dsimp only
    by_cases hb : b' = b
    · rwa [hb, Function.update_self]
    · rw [Function.update_of_ne hb]
      exact h.once b'
  count := by
    have hupdate := lockedCount_update s heap b buf
    have hbefore := h.once b
    rw [← h.count] at hupdate
    dsimp only
    split_ifs at hupdate <;> omega

/-- What a call is to do: the count of the heap is the number of locked buffers, a lock answers true
exactly where it locked the buffer, and a call that fails leaves the counts and usages. -/
structure Sound (s : BufferSet ι) (op : BufferOp ι) (s' : BufferSet ι) (a : Answer) : Prop where
  count : s'.heap.mLockCount = s'.lockedCount
  answer : ∀ b usage env, op = .lockBuf b usage env →
    (a.ret = true ↔ (s.buffers b).mLockCount < (s'.buffers b).mLockCount)
  unchanged : a.inner = false →
    s'.heap.mLockCount = s.heap.mLockCount ∧ s'.heap.mLockUsage = s.heap.mLockUsage ∧
      ∀ b, (s'.buffers b).mLockCount = (s.buffers b).mLockCount ∧
        (s'.buffers b).mLockUsage = (s.buffers b).mLockUsage

def Succeeds (s : BufferSet ι) : BufferOp ι → Prop
  | .lockBuf _ usage env => s.heap.Lockable env usage
  | .unlockBuf _ => True

/-- **One call** keeps the counts, and is sound exactly where it succeeds. -/
theorem Counted.call (h : s.Counted) {op : BufferOp ι} {o : List Answer}
    (hstep : calls s op = .ok (s', o)) :
    s'.Counted ∧ ∃ a, o = [a] ∧ (Sound s op s' a ↔ s.Succeeds op) := by
  cases op with
  | lockBuf b usage env =>
    by_cases hfree : 0 < (s.buffers b).mLockCount
    · rw [calls, BaseImageBuffer.lockBuf, BaseImageBuffer.lockBufLocked, if_pos hfree] at hstep
      cases hstep
    · obtain ⟨locked, heap, buf, hlock, hiff, htrue, hfalse⟩ :=
        BaseImageBuffer.lockBufLocked_spec h.intact (h.sizes b) (by omega) env usage
      rw [calls, BaseImageBuffer.lockBuf, hlock] at hstep
      obtain ⟨rfl, rfl⟩ := Prod.mk.inj (Except.ok.inj hstep)
      cases locked with
      | true =>
        have hlocked := htrue rfl
        have hcounted := fun infos => h.update
          { buf with mvImgBufInfo := infos } hlocked.intact
          hlocked.planeCount hlocked.bufferSize (by dsimp only; rw [hlocked.bufferCount])
          (by dsimp only; rw [hlocked.count, hlocked.bufferCount]; omega)
        refine ⟨hcounted _, _, rfl, iff_of_true ⟨(hcounted _).count, ?_, nofun⟩ (hiff.mp rfl)⟩
        rintro b' usage' env' heq
        obtain ⟨rfl, -, -⟩ := BufferOp.lockBuf.inj heq
        refine iff_of_true rfl ?_
        dsimp only
        rw [Function.update_self]
        dsimp only
        rw [hlocked.bufferCount]
        omega
      | false =>
        have hsame := hfalse rfl
        have hcounted := fun infos => h.update
          { buf with mvImgBufInfo := infos } hsame.intact
          hsame.planeCount hsame.bufferSize (by dsimp only; rw [hsame.bufferCount]; omega)
          (by dsimp only; rw [hsame.count, hsame.bufferCount])
        refine ⟨hcounted _, _, rfl, iff_of_false (fun hsound => ?_)
          fun hok => Bool.false_ne_true (hiff.mpr hok)⟩
        have hmore := (hsound.answer b usage env rfl).mp rfl
        dsimp only at hmore
        rw [Function.update_self] at hmore
        dsimp only at hmore
        rw [hsame.bufferCount] at hmore
        exact lt_irrefl _ hmore
  | unlockBuf b =>
    obtain ⟨unlocked, heap, buf, hunlock, hfalse, htrue⟩ :=
      BaseImageBuffer.unlockBufLocked_spec h.intact h.locked
    rw [calls, BaseImageBuffer.unlockBuf, hunlock] at hstep
    obtain ⟨rfl, rfl⟩ := Prod.mk.inj (Except.ok.inj hstep)
    have honce := h.once b
    cases unlocked with
    | true =>
      obtain ⟨hintact, hplanes, hcount, hsize, hbuf⟩ := htrue rfl
      have hcounted := fun infos => h.update
        { buf with mvImgBufInfo := infos } hintact hplanes hsize
        (by dsimp only; omega) (by dsimp only; omega)
      exact ⟨hcounted _, _, rfl, iff_of_true ⟨(hcounted _).count, nofun, nofun⟩ trivial⟩
    | false =>
      obtain ⟨hsame, hzero⟩ := hfalse rfl
      have hcounted := fun infos => h.update
        { buf with mvImgBufInfo := infos } hsame.intact
        hsame.planeCount hsame.bufferSize (by dsimp only; rw [hsame.bufferCount]; omega)
        (by dsimp only; rw [hsame.count, hsame.bufferCount])
      refine ⟨hcounted _, _, rfl, iff_of_true ⟨(hcounted _).count, nofun, fun _ => ?_⟩ trivial⟩
      refine ⟨hsame.count, hsame.usage, fun b' => ?_⟩
      dsimp only
      by_cases hb : b' = b
      · rw [hb, Function.update_self]
        exact ⟨hsame.bufferCount, hsame.bufferUsage⟩
      · rw [Function.update_of_ne hb]
        exact ⟨rfl, rfl⟩

/-- A heap of the given number of planes, and buffers on it, each with planes of the given sizes. -/
def fresh (mPlaneCount : ℕ) (sizes : ι → List ℕ) : BufferSet ι where
  heap := { mPlaneCount, planes := List.replicate mPlaneCount {} }
  buffers b := { mvBufHeapInfo := List.replicate mPlaneCount {}
                 mvImgBufInfo := (sizes b).map fun sizeInBytes => { sizeInBytes } }

omit [DecidableEq ι] in
theorem counted_fresh (mPlaneCount : ℕ) (sizes : ι → List ℕ) :
    (fresh mPlaneCount sizes).Counted where
  intact := ⟨List.length_replicate, fun h => absurd h (lt_irrefl 0)⟩
  sizes _ := List.length_replicate
  once _ := Nat.zero_le 1
  count := by
    refine (Finset.card_eq_zero.mpr ?_).symm
    exact Finset.filter_eq_empty_iff.mpr fun _ _ => lt_irrefl 0

end BufferSet

variable {mPlaneCount : ℕ} {sizes : ι → List ℕ} {ops : List (BufferOp ι)} {s : BufferSet ι}
  {answers : List Answer}

theorem counted_of_runs (h : calls.Runs (BufferSet.fresh mPlaneCount sizes) ops s answers) :
    s.Counted :=
  h.invariant (I := fun _ s _ => s.Counted) (BufferSet.counted_fresh mPlaneCount sizes)
    fun _ _ _ _ _ _ hs hstep => (hs.call hstep).1

/-- **The count of the heap is the number of locked buffers**, in every run. -/
theorem lockCount_of_runs (h : calls.Runs (BufferSet.fresh mPlaneCount sizes) ops s answers) :
    s.heap.mLockCount = s.lockedCount := (counted_of_runs h).count

/-- **Every call of a run is sound** exactly where every lock of the run succeeds. -/
theorem calls_sound_iff (h : calls.Runs (BufferSet.fresh mPlaneCount sizes) ops s answers) :
    (∀ ops₁ op ops₂ s₁ s₂ answers₁ a, ops = ops₁ ++ op :: ops₂ →
      calls.Runs (BufferSet.fresh mPlaneCount sizes) ops₁ s₁ answers₁ →
      calls s₁ op = .ok (s₂, [a]) → s₁.Sound op s₂ a) ↔
    calls.RunsMeeting (fun _ => BufferSet.Succeeds) (BufferSet.fresh mPlaneCount sizes) ops s
      answers := by
  rw [h.meeting_iff_steps]
  constructor
  · rintro hsound ops₁ op ops₂ s₁ answers₁ rfl hrun₁
    obtain ⟨s₁', s₂, answers₁', o, -, hrun₁', hstep, -, -⟩ := h.split_step
    obtain ⟨rfl, -⟩ := hrun₁.deterministic hrun₁'
    obtain ⟨-, a, rfl, hiff⟩ := (counted_of_runs hrun₁).call hstep
    exact hiff.mp (hsound ops₁ op ops₂ s₁ s₂ answers₁ a rfl hrun₁ hstep)
  · rintro hok ops₁ op ops₂ s₁ s₂ answers₁ a rfl hrun₁ hstep
    obtain ⟨-, a', heq, hiff⟩ := (counted_of_runs hrun₁).call hstep
    obtain rfl : a = a' := by simpa using heq
    exact hiff.mpr (hok ops₁ op ops₂ s₁ answers₁ rfl hrun₁)

end Buffers

/-- A kernel that maps every plane, and gives every plane a physical address. -/
def mapsAll : IonEnv := ⟨fun _ => 0x7f000000, fun _ => some 0x80000000⟩

/-- Two readers share the heap, and the first of them is done. -/
def twoReaders : List (BufferOp (Fin 2)) :=
  [.lockBuf 0 eBUFFER_USAGE_SW_READ_MASK mapsAll, .lockBuf 1 eBUFFER_USAGE_SW_READ_MASK mapsAll,
    .unlockBuf 0]

/-- The heap is locked once where two readers have locked it and one is done. -/
theorem sound_twoReaders : ∃ s answers,
    calls.Runs (BufferSet.fresh 1 fun _ : Fin 2 => [64]) twoReaders s answers ∧
    s.heap.mLockCount = 1 ∧ (s.heap.planes.map fun p => p.info.va) = [0x7f000000] ∧
    ∀ ops₁ op ops₂ s₁ s₂ answers₁ a, twoReaders = ops₁ ++ op :: ops₂ →
      calls.Runs (BufferSet.fresh 1 fun _ : Fin 2 => [64]) ops₁ s₁ answers₁ →
      calls s₁ op = .ok (s₂, [a]) → s₁.Sound op s₂ a := by
  have hmapped : (BufferSet.fresh 1 fun _ : Fin 2 => [64]).Succeeds
      (.lockBuf 0 eBUFFER_USAGE_SW_READ_MASK mapsAll) := by
    rintro (- | i) p hp
    · obtain rfl : ({} : HeapPlane) = p := Option.some.inj hp
      exact ⟨fun _ => by decide, fun hhw => absurd (by decide) hhw⟩
    · cases hp
  have hfirst := Machine.RunsMeeting.snoc (M := calls) (C := fun _ => BufferSet.Succeeds) .init
    hmapped rfl
  have hsecond := hfirst.snoc
    (a := .lockBuf 1 eBUFFER_USAGE_SW_READ_MASK mapsAll) (by exact ⟨by decide, by decide⟩) rfl
  have hdone := hsecond.snoc (a := .unlockBuf 0) (by exact True.intro) rfl
  exact ⟨_, _, hdone.runs, by decide, by decide, (calls_sound_iff hdone.runs).mpr hdone⟩

/-- The heap is locked for writing, and a second lock answers true and locks nothing. -/
theorem lockBuf_answers_true : ∃ s₁ s₂ : BufferSet (Fin 2),
    calls.Runs (BufferSet.fresh 1 fun _ => [64]) [.lockBuf 0 eBUFFER_USAGE_SW_WRITE_MASK mapsAll] s₁
      [⟨true, true⟩] ∧
    calls s₁ (.lockBuf 1 eBUFFER_USAGE_SW_WRITE_MASK mapsAll) = .ok (s₂, [⟨false, true⟩]) ∧
    (s₂.buffers 1).mLockCount = 0 ∧
    ¬ s₁.Sound (.lockBuf 1 eBUFFER_USAGE_SW_WRITE_MASK mapsAll) s₂ ⟨false, true⟩ := by
  refine ⟨_, _, .single rfl, rfl, rfl, fun h => ?_⟩
  have hmore := (h.answer 1 _ _ rfl).mp rfl
  revert hmore
  decide

end MtkHardware.ImgBuf
