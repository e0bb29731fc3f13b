import Mathlib.Data.List.Count
import Mathlib.Data.List.Nodup
import MtkHardware.FeaturePipe.BufferPool

/-!
# Conservation of Buffers

Every buffer that has been allocated is about to be added to the pool, available, held, or has been
released, and so in one of these places only (`Conserving.places`). The pool lists those that are
available, and those that are held and tracked (`Conserving.pool`).

A request allocates only where the pool and the requests that allocate leave room under the bound.
An allocation is in progress until its buffer is in the pool: `mAllocatingCount` counts it a little
longer, until its request has the mutex again.
-/

namespace MtkHardware.FeaturePipe

/-! ### Callers -/

namespace Caller

def handle : Caller → Option ℕ
  | .adding _ handle => some handle
  | .waiting _ | .allocating _ | .relocking => none

/-- Does the caller allocate a buffer that is not in the pool yet? -/
def allocates : Caller → Bool
  | .allocating _ | .adding _ _ => true
  | .waiting _ | .relocking => false

/-- Is the caller counted in `mAllocatingCount`? -/
def isCounted : Caller → Bool
  | .allocating .request | .adding .request _ | .relocking => true
  | .waiting _ | .allocating (.allocate _ _) | .adding (.allocate _ _) _ => false

end Caller

namespace BufferPool

variable {s s' : BufferPool} {os o : List BufferEvent} {h a : ℕ} {c : Caller}
  {next : List Caller} {caller : AllocatingFor}

theorem countP_move (next : List Caller) (hc : c ∈ s.callers) (p : Caller → Bool) :
    (s.move c next).callers.countP p + (if p c then 1 else 0) =
      s.callers.countP p + next.countP p := by
  have hperm := (List.perm_cons_erase hc).countP_eq p
  rw [List.countP_cons] at hperm
  rw [move, List.countP_append]
  omega

theorem countP_broadcast (s : BufferPool) {p : Caller → Bool}
    (hp : ∀ signaled, p (.waiting signaled) = p (.waiting true)) :
    s.broadcast.callers.countP p = s.callers.countP p := by
  rw [broadcast, List.countP_map]
  refine List.countP_congr fun c _ => ?_
  cases c with
  | waiting signaled => simp [hp signaled]
  | allocating caller => rfl
  | adding caller handle => rfl
  | relocking => rfl

theorem countP_afterAllocate_handle (caller : AllocatingFor) (created h : ℕ) :
    (afterAllocate caller created).1.countP (fun c => c.handle == some h) = 0 := by
  cases caller with
  | request => rfl
  | allocate left result => cases left <;> rfl

theorem count_afterAllocate_doRelease (caller : AllocatingFor) (created h : ℕ) :
    (afterAllocate caller created).2.count (.doRelease h) = 0 := by
  cases caller with
  | request => rfl
  | allocate left result => cases left <;> simp [afterAllocate]

/-! ### Places of buffers -/

/-- Is the buffer held by a smart buffer? The one that hands it back holds it until `recycle`. -/
def Held (s : BufferPool) (h : ℕ) : Prop := 0 < (s.handle h).mCount ∨ h ∈ s.recycling

/-- How many callers are about to add the buffer to the pool. -/
def adding (s : BufferPool) (h : ℕ) : ℕ := s.callers.countP fun c => c.handle == some h

/-- How often the buffer is held: by its smart buffers, or by the last one of them. -/
def holds (s : BufferPool) (h : ℕ) : ℕ :=
  (if 0 < (s.handle h).mCount then 1 else 0) + s.recycling.count h

structure Conserving (s : BufferPool) (os : List BufferEvent) : Prop where
  places : ∀ h, s.adding h + s.mAvailable.count h + s.holds h + os.count (.doRelease h) =
    if h < s.handles.length then 1 else 0
  pool : ∀ h, s.mPool.count h =
    s.mAvailable.count h + if (s.handle h).mTrack then s.holds h else 0
  tracked : ∀ h, 0 < s.adding h ∨ h ∈ s.mPool → (s.handle h).mTrack = true

structure Conserved (s : BufferPool) (os : List BufferEvent) : Prop where
  pool : s.mPool.Nodup
  available : s.mAvailable.Nodup
  mem_available : ∀ h, h ∈ s.mAvailable ↔ h ∈ s.mPool ∧ ¬ s.Held h
  once : ∀ h, os.count (.doRelease h) ≤ 1
  released : ∀ h, .doRelease h ∈ os → h ∉ s.mAvailable ∧ ¬ s.Held h

theorem holds_eq_zero_iff : s.holds h = 0 ↔ ¬ s.Held h := by
  unfold holds Held
  rw [not_or, Nat.add_eq_zero_iff, List.count_eq_zero]
  refine and_congr_left' ?_
  split_ifs with hpos <;> simp [hpos]

theorem adding_move (next : List Caller) (hc : c ∈ s.callers) (h : ℕ) :
    (s.move c next).adding h + (if c.handle = some h then 1 else 0) =
      s.adding h + next.countP (fun c => c.handle == some h) := by
  have hmove := countP_move next hc fun c => c.handle == some h
  simp only [beq_iff_eq] at hmove
  exact hmove

theorem Conserving.conserved (hc : s.Conserving os) : s.Conserved os := by
  have hle : ∀ h, s.adding h + s.mAvailable.count h + s.holds h +
      os.count (.doRelease h) ≤ 1 := by
    intro h
    rw [hc.places]
    split_ifs <;> omega
  have hpool : ∀ h, s.mPool.count h ≤ s.mAvailable.count h + s.holds h := by
    intro h
    rw [hc.pool]
    split_ifs <;> omega
  constructor
  · refine List.nodup_iff_count_le_one.mpr fun h => ?_
    have := hle h
    have := hpool h
    omega
  · refine List.nodup_iff_count_le_one.mpr fun h => ?_
    have := hle h
    omega
  · intro h
    rw [← holds_eq_zero_iff, ← List.count_pos_iff, ← List.count_pos_iff]
    have hone := hle h
    have hmem := hpool h
    have heq := hc.pool h
    constructor
    · intro hpos
      refine ⟨?_, ?_⟩ <;> omega
    · rintro ⟨hpos, hzero⟩
      omega
  · intro h
    have := hle h
    omega
  · intro h hmem
    have hpos := List.count_pos_iff.mpr hmem
    have hone := hle h
    rw [← holds_eq_zero_iff, ← List.count_eq_zero]
    omega

/-! ### Steps of buffers -/

theorem handle_modify (s' : BufferPool) {f : BufferHandle → BufferHandle}
    (ha : a < s.handles.length) (hhandles : s'.handles = s.handles.modify a f) (h : ℕ) :
    s'.handle h = if h = a then f (s.handle h) else s.handle h := by
  unfold handle
  rw [hhandles, List.getElem?_modify]
  by_cases hha : h = a
  · subst hha
    simp [ha]
  · simp [hha, Ne.symm hha]

theorem Conserving.of_one (hc : s.Conserving os) (a : ℕ)
    (hlength : s'.handles.length = s.handles.length)
    (htrack : ∀ h, (s'.handle h).mTrack = (s.handle h).mTrack)
    (hadding : ∀ h, s'.adding h = s.adding h)
    (hother : ∀ h, h ≠ a → s'.mPool.count h = s.mPool.count h ∧
      s'.mAvailable.count h = s.mAvailable.count h ∧ s'.holds h = s.holds h ∧
      o.count (.doRelease h) = 0)
    (hplaces : s'.mAvailable.count a + s'.holds a + o.count (.doRelease a) =
      s.mAvailable.count a + s.holds a)
    (hpool : s'.mPool.count a =
      s'.mAvailable.count a + if (s.handle a).mTrack then s'.holds a else 0)
    (hsub : s'.mPool ⊆ s.mPool) : s'.Conserving (os ++ o) := by
  refine ⟨fun h => ?_, fun h => ?_, fun h hor => ?_⟩
  · rw [hlength, ← hc.places, List.count_append, hadding]
    by_cases hah : h = a
    · subst hah
      omega
    · obtain ⟨-, havailable, hholds, ho⟩ := hother h hah
      omega
  · rw [htrack]
    by_cases hah : h = a
    · subst hah
      exact hpool
    · obtain ⟨hp, havailable, hholds, -⟩ := hother h hah
      rw [hp, havailable, hholds]
      exact hc.pool h
  · rw [hadding] at hor
    rw [htrack]
    exact hc.tracked h (hor.imp_right fun hmem => hsub hmem)

theorem Conserving.keep (hc : s.Conserving os) (hadding : ∀ h, s'.adding h = s.adding h)
    (hpool : s'.mPool = s.mPool) (havailable : s'.mAvailable = s.mAvailable)
    (hlength : s'.handles.length = s.handles.length)
    (htrack : ∀ h, (s'.handle h).mTrack = (s.handle h).mTrack)
    (hholds : ∀ h, s'.holds h = s.holds h) (ho : ∀ h, o.count (.doRelease h) = 0) :
    s'.Conserving (os ++ o) := by
  refine hc.of_one 0 hlength htrack hadding (fun h _ => ?_) ?_ ?_ (by rw [hpool]; simp)
  · exact ⟨by rw [hpool], by rw [havailable], hholds h, ho h⟩
  · rw [havailable, hholds, ho, Nat.add_zero]
  · rw [hpool, havailable, hholds]
    exact hc.pool 0

theorem Conserving.broadcast (hc : s.Conserving os) : s.broadcast.Conserving os := by
  have hkeep : s.broadcast.Conserving (os ++ []) :=
    hc.keep (fun h => s.countP_broadcast fun _ => rfl) rfl rfl rfl (fun _ => rfl) (fun _ => rfl)
      (fun _ => rfl)
  rwa [List.append_nil] at hkeep

theorem Conserving.allocated (hc : s.Conserving os)
    (h : 0 < s.adding a + s.mAvailable.count a + s.holds a + os.count (.doRelease a)) :
    a < s.handles.length := by
  rw [hc.places] at h
  by_contra hge
  rw [if_neg hge] at h
  omega

theorem Conserving.tracked_of_available (hc : s.Conserving os) (ha : a ∈ s.mAvailable) :
    (s.handle a).mTrack = true := by
  have hpos := List.count_pos_iff.mpr ha
  refine hc.tracked a (.inr (List.count_pos_iff.mp ?_))
  rw [hc.pool]
  omega

theorem Conserving.take (hc : s.Conserving os) {mAvailable : List ℕ}
    (havailable : s.mAvailable = a :: mAvailable) :
    ({ s with mAvailable }.onHandle a incSbCount).Conserving (os ++ [BufferEvent.returned a]) := by
  have hcount : s.mAvailable.count a = mAvailable.count a + 1 := by
    rw [havailable, List.count_cons_self]
  have hlt := hc.allocated (a := a) (by omega)
  have hone := hc.places a
  rw [if_pos hlt] at hone
  have hzero : s.holds a = 0 := by omega
  -- the buffer is available and so in the pool, and no smart buffer holds it yet
  have hfree : ¬ 0 < (s.handle a).mCount := fun hpos => by
    rw [holds, if_pos hpos] at hzero
    omega
  have htracked := hc.tracked_of_available (havailable ▸ List.mem_cons_self)
  have hhandle := handle_modify ({ s with mAvailable }.onHandle a incSbCount) hlt rfl
  have hholds : ({ s with mAvailable }.onHandle a incSbCount).holds a = 1 := by
    have hpos : 0 < (incSbCount (s.handle a)).mCount := Nat.succ_pos _
    rw [holds, if_neg hfree, Nat.zero_add] at hzero
    rw [holds, hhandle, if_pos rfl, if_pos hpos]
    exact congrArg (1 + ·) hzero
  refine hc.of_one a (List.length_modify ..) (fun h => ?_) (fun h => rfl) (fun h hah => ?_) ?_ ?_
    (List.Subset.refl _)
  · rw [hhandle]
    split_ifs <;> rfl
  · refine ⟨rfl, ?_, ?_, rfl⟩
    · rw [havailable, List.count_cons_of_ne hah.symm]
      rfl
    · rw [holds, hhandle, if_neg hah]
      rfl
  · rw [hholds, hzero, hcount]
    rfl
  · have heq := hc.pool a
    rw [if_pos htracked, hzero, hcount] at heq
    rw [if_pos htracked, hholds]
    exact heq

theorem Conserving.recount (hc : s.Conserving os) {f : BufferHandle → BufferHandle}
    {recycling : List ℕ} (hpos : 0 < (s.handle a).mCount)
    (htrack : ∀ b, (f b).mTrack = b.mTrack)
    (hrecycling : ∀ h, recycling.count h = s.recycling.count h +
      if h = a ∧ (f (s.handle a)).mCount = 0 then 1 else 0) :
    ({ s with recycling }.onHandle a f).Conserving (os ++ []) := by
  have hlt := hc.allocated (a := a) (by rw [holds, if_pos hpos]; omega)
  have hhandle := handle_modify ({ s with recycling }.onHandle a f) hlt rfl
  refine hc.keep (fun _ => rfl) rfl rfl (List.length_modify ..) (fun h => ?_) (fun h => ?_)
    (fun _ => rfl)
  · rw [hhandle]
    split_ifs
    · exact htrack _
    · rfl
  · rw [holds, holds, hhandle]
    by_cases hah : h = a
    · subst hah
      simp only [BufferPool.onHandle, hrecycling, if_true, true_and, if_pos hpos]
      split_ifs <;> omega
    · simp [BufferPool.onHandle, hah, hrecycling]

theorem Conserving.requestLoop (hc : s.Conserving os) :
    s.requestLoop.1.Conserving (os ++ s.requestLoop.2) := by
  unfold BufferPool.requestLoop
  split
  · rename_i a mAvailable havailable
    exact hc.take havailable
  · split_ifs
    · exact hc.keep (fun h => by simp [adding, Caller.handle]) rfl rfl rfl (fun _ => rfl)
        (fun _ => rfl) (by simp)
    · exact hc.keep (fun h => by simp [adding, Caller.handle]) rfl rfl rfl (fun _ => rfl)
        (fun _ => rfl) (by simp)

theorem Conserving.free (hc : s.Conserving os) (mAvailable recycling : List ℕ)
    (htracked : (s.handle a).mTrack = true)
    (hother : ∀ h, h ≠ a → mAvailable.count h = s.mAvailable.count h ∧
      recycling.count h = s.recycling.count h)
    (hone : mAvailable.count a + recycling.count a + 1 =
      s.mAvailable.count a + s.recycling.count a) :
    a ∈ s.mPool ∧ ({ s with mPool := s.mPool.erase a, mAvailable, recycling } :
      BufferPool).Conserving (os ++ [.doRelease a]) := by
  have hpos : s.mPool.count a = s.mAvailable.count a + s.holds a := by
    rw [hc.pool, if_pos htracked]
  have hholds' : ({ s with mPool := s.mPool.erase a, mAvailable, recycling } : BufferPool).holds a =
      (if 0 < (s.handle a).mCount then 1 else 0) + recycling.count a := rfl
  have hholds : s.holds a = (if 0 < (s.handle a).mCount then 1 else 0) + s.recycling.count a := rfl
  refine ⟨List.count_pos_iff.mp (by omega), hc.of_one a rfl (fun _ => rfl) (fun _ => rfl)
    (fun h hah => ?_) ?_ ?_ List.erase_subset⟩
  · obtain ⟨havailable, hrecycling⟩ := hother h hah
    refine ⟨List.count_erase_of_ne hah, havailable, ?_, ?_⟩
    · exact congrArg ((if 0 < (s.handle h).mCount then 1 else 0) + ·) hrecycling
    · simp [Ne.symm hah]
  · simp only [List.count_singleton_self]
    omega
  · rw [if_pos htracked]
    simp only [List.count_erase_self]
    omega

theorem Conserving.autoFreeLoop {mAvailable : List ℕ} (count : ℕ)
    (hc : ({ s with mAvailable } : BufferPool).Conserving os) :
    (s.autoFreeLoop count mAvailable).1.Conserving
      (os ++ (s.autoFreeLoop count mAvailable).2) := by
  induction mAvailable generalizing s os count with
  | nil => simpa [BufferPool.autoFreeLoop] using hc
  | cons a mAvailable ih =>
    rw [BufferPool.autoFreeLoop]
    split_ifs
    · have htracked := hc.tracked_of_available (a := a) List.mem_cons_self
      obtain ⟨hmem, hfree⟩ := hc.free mAvailable s.recycling htracked
        (fun h hah => by simp [List.count_cons_of_ne hah.symm]) (by simp; omega)
      have hmem : a ∈ s.mPool := hmem
      rw [freeFromPool_locked, if_pos hmem, ← List.append_assoc]
      exact ih (s := { s with mPool := s.mPool.erase a }) (count - 1) hfree
    · simpa using hc

theorem Conserving.recycle (hc : s.Conserving os) (ha : a ∈ s.recycling) :
    ({ s with recycling := s.recycling.erase a }.recycle a).1.Conserving
      (os ++ ({ s with recycling := s.recycling.erase a }.recycle a).2) := by
  have hpos := List.count_pos_iff.mpr ha
  have herase : (s.recycling.erase a).count a + 1 = s.recycling.count a := by
    rw [List.count_erase_self]
    omega
  have hother : ∀ h, h ≠ a → (s.recycling.erase a).count h = s.recycling.count h :=
    fun h hah => List.count_erase_of_ne hah
  have hholds : ∀ h, ({ s with recycling := s.recycling.erase a } : BufferPool).holds h =
      (if 0 < (s.handle h).mCount then 1 else 0) + (s.recycling.erase a).count h := fun _ => rfl
  unfold BufferPool.recycle
  split_ifs with htracked hmany
  · have htracked : (s.handle a).mTrack = true := htracked
    obtain ⟨hmem, hfree⟩ := hc.free s.mAvailable (s.recycling.erase a) htracked
      (fun h hah => ⟨rfl, hother h hah⟩) (by omega)
    have hmem : a ∈ s.mPool := hmem
    rw [freeFromPool_locked, if_pos hmem]
    exact hfree.broadcast
  · -- the buffer is available again
    have htracked : (s.handle a).mTrack = true := htracked
    have hpool := hc.pool a
    rw [if_pos htracked, holds] at hpool
    refine Conserving.broadcast (hc.of_one a rfl (fun _ => rfl) (fun _ => rfl)
      (fun h hah => ?_) ?_ ?_ (List.Subset.refl _))
    · refine ⟨rfl, ?_, ?_, rfl⟩
      · rw [List.count_append, List.count_singleton, if_neg (by simpa using hah.symm), Nat.add_zero]
      · exact congrArg ((if 0 < (s.handle h).mCount then 1 else 0) + ·) (hother h hah)
    · change (s.mAvailable ++ [a]).count a + ((if 0 < (s.handle a).mCount then 1 else 0) +
        (s.recycling.erase a).count a) + 0 = s.mAvailable.count a + s.holds a
      rw [List.count_append, List.count_singleton_self, holds]
      omega
    · change s.mPool.count a = (s.mAvailable ++ [a]).count a +
        if (s.handle a).mTrack = true then
          (if 0 < (s.handle a).mCount then 1 else 0) + (s.recycling.erase a).count a
        else 0
      rw [if_pos htracked, List.count_append, List.count_singleton_self]
      omega
  · -- the pool has been given up
    have htracked : ¬ (s.handle a).mTrack = true := htracked
    have hpool := hc.pool a
    rw [if_neg htracked] at hpool
    refine hc.of_one a rfl (fun _ => rfl) (fun _ => rfl) (fun h hah => ?_) ?_ ?_
      (List.Subset.refl _)
    · refine ⟨rfl, rfl, ?_, by simp [hah.symm]⟩
      exact congrArg ((if 0 < (s.handle h).mCount then 1 else 0) + ·) (hother h hah)
    · rw [hholds, holds, List.count_singleton_self]
      dsimp only
      omega
    · rw [if_neg htracked]
      exact hpool

theorem Conserving.addToPool (hc : s.Conserving os) (ha : .adding caller a ∈ s.callers) :
    ({ s with mPool := s.mPool ++ [a], mAvailable := s.mAvailable ++ [a] }.move
      (.adding caller a) (afterAllocate caller 1).1).Conserving
        (os ++ (afterAllocate caller 1).2) := by
  have hcallers : ∀ h, ({ s with mPool := s.mPool ++ [a], mAvailable := s.mAvailable ++ [a] }.move
      (.adding caller a) (afterAllocate caller 1).1).adding h + (if a = h then 1 else 0) =
        s.adding h := by
    intro h
    have hmove := adding_move (afterAllocate caller 1).1 ha h
    rw [countP_afterAllocate_handle, Nat.add_zero, Caller.handle] at hmove
    simp only [Option.some.injEq] at hmove
    exact hmove
  have hcount : ∀ l : List ℕ, ∀ h, (l ++ [a]).count h = l.count h + if a = h then 1 else 0 := by
    intro l h
    simp [List.count_singleton]
  refine ⟨fun h => ?_, fun h => ?_, fun h hor => ?_⟩
  · have hplaces := hc.places h
    have heq := hcallers h
    rw [List.count_append, count_afterAllocate_doRelease]
    change _ + (s.mAvailable ++ [a]).count h + s.holds h + _ = _
    rw [hcount]
    refine Eq.trans ?_ hplaces
    omega
  · change (s.mPool ++ [a]).count h = (s.mAvailable ++ [a]).count h + _
    rw [hcount, hcount, hc.pool h]
    exact Nat.add_right_comm ..
  · change (s.handle h).mTrack = true
    have heq := hcallers h
    refine hc.tracked h ?_
    obtain hpos | hmem := hor
    · exact .inl (by omega)
    · obtain hmem | hmem := List.mem_append.mp hmem
      · exact .inr hmem
      · rw [List.mem_singleton.mp hmem, if_pos rfl] at heq
        rw [List.mem_singleton.mp hmem]
        exact .inl (by omega)

theorem Conserving.doAllocate (hc : s.Conserving os) (ha : .allocating caller ∈ s.callers) :
    ({ s with handles := s.handles ++ [BufferHandle.new] }.move (.allocating caller)
      [.adding caller s.handles.length]).Conserving (os ++ []) := by
  have hcallers : ∀ h, ({ s with handles := s.handles ++ [BufferHandle.new] }.move
      (.allocating caller) [.adding caller s.handles.length]).adding h =
        s.adding h + if s.handles.length = h then 1 else 0 := by
    intro h
    have hmove := adding_move [.adding caller s.handles.length] ha h
    simp only [Caller.handle, reduceCtorEq, if_false, Nat.add_zero, List.countP_singleton,
      beq_iff_eq, Option.some.injEq] at hmove
    exact hmove
  -- a buffer that has not been allocated counts as a new one
  have hhandle : ∀ h, (s.handles ++ [BufferHandle.new])[h]?.getD .new = s.handle h := by
    intro h
    rw [handle, List.getElem?_append]
    split_ifs with hlt
    · rfl
    · rw [List.getElem?_eq_none (Nat.le_of_not_lt hlt), List.getElem?_singleton]
      split_ifs <;> rfl
  have hholds : ∀ h, ({ s with handles := s.handles ++ [BufferHandle.new] }.move
      (.allocating caller) [.adding caller s.handles.length]).holds h = s.holds h := by
    intro h
    rw [holds, holds, ← hhandle]
    rfl
  refine ⟨fun h => ?_, fun h => ?_, fun h hor => ?_⟩
  · have hplaces := hc.places h
    rw [hcallers, hholds, List.append_nil]
    change _ + s.mAvailable.count h + _ + _ =
      if h < (s.handles ++ [BufferHandle.new]).length then 1 else 0
    have hnew : (if h < (s.handles ++ [BufferHandle.new]).length then 1 else 0) =
        (if h < s.handles.length then 1 else 0) + if s.handles.length = h then 1 else 0 := by
      rw [List.length_append, List.length_singleton]
      split_ifs <;> omega
    rw [hnew, ← hplaces]
    omega
  · rw [hholds]
    change s.mPool.count h = s.mAvailable.count h +
      if ((s.handles ++ [BufferHandle.new])[h]?.getD .new).mTrack = true then _ else _
    rw [hhandle]
    exact hc.pool h
  · change ((s.handles ++ [BufferHandle.new])[h]?.getD .new).mTrack = true
    rw [hhandle]
    rw [hcallers] at hor
    by_cases hnew : s.handles.length = h
    · rw [handle, List.getElem?_eq_none (Nat.le_of_eq hnew)]
      rfl
    · rw [if_neg hnew, Nat.add_zero] at hor
      exact hc.tracked h hor

theorem getElem?_foldl_untrack (pool : List ℕ) (handles : List BufferHandle) (h : ℕ) :
    (pool.foldl (fun handles a => handles.modify a untrack) handles)[h]? =
      handles[h]?.map fun b => if h ∈ pool then untrack b else b := by
  induction pool generalizing handles with
  | nil => simp
  | cons a pool ih =>
    rw [List.foldl_cons, ih, List.getElem?_modify]
    cases handles[h]? with
    | none => rfl
    | some b =>
      by_cases hah : a = h
      · subst hah
        by_cases hmem : a ∈ pool <;> simp [hmem, untrack]
      · simp [hah, Ne.symm hah]

theorem length_foldl_untrack (pool : List ℕ) (handles : List BufferHandle) :
    (pool.foldl (fun handles a => handles.modify a untrack) handles).length = handles.length := by
  induction pool generalizing handles with
  | nil => rfl
  | cons a pool ih => rw [List.foldl_cons, ih, List.length_modify]

theorem Conserving.handle_releaseAll (hc : s.Conserving os) (h : ℕ) :
    s.releaseAll.1.handle h = if h ∈ s.mPool then untrack (s.handle h) else s.handle h := by
  have hallocated : h ∈ s.mPool → h < s.handles.length := by
    intro hmem
    have hpos := List.count_pos_iff.mpr hmem
    rw [hc.pool] at hpos
    refine hc.allocated ?_
    split_ifs at hpos <;> omega
  unfold handle BufferPool.releaseAll
  rw [getElem?_foldl_untrack]
  by_cases hlt : h < s.handles.length
  · rw [List.getElem?_eq_getElem hlt]
    rfl
  · rw [List.getElem?_eq_none (Nat.le_of_not_lt hlt), if_neg fun hmem => hlt (hallocated hmem)]
    rfl

theorem Conserving.releaseAll (hc : s.Conserving os) :
    s.releaseAll.1.Conserving (os ++ s.releaseAll.2) := by
  have hholds : ∀ h, s.releaseAll.1.holds h = s.holds h := by
    intro h
    have hcount : (s.releaseAll.1.handle h).mCount = (s.handle h).mCount := by
      rw [hc.handle_releaseAll]
      split_ifs <;> rfl
    rw [holds, hcount]
    rfl
  refine ⟨fun h => ?_, fun h => ?_, fun h hor => ?_⟩
  · have hreleased : (s.mAvailable.map BufferEvent.doRelease).count (.doRelease h) =
        s.mAvailable.count h :=
      List.count_map_of_injective _ _ (fun _ _ => BufferEvent.doRelease.inj) _
    have hlength : s.releaseAll.1.handles.length = s.handles.length :=
      length_foldl_untrack s.mPool s.handles
    rw [hholds, hlength, ← hc.places, List.count_append]
    change s.adding h + 0 + s.holds h + (_ + (s.mAvailable.map BufferEvent.doRelease).count _) = _
    rw [hreleased]
    omega
  · rw [hholds, hc.handle_releaseAll]
    change 0 = 0 + _
    have hpool := hc.pool h
    by_cases hmem : h ∈ s.mPool
    · simp [hmem, untrack]
    · rw [List.count_eq_zero_of_not_mem hmem] at hpool
      rw [if_neg hmem]
      omega
  · -- a buffer that is about to be added is not in the pool
    have hadding : 0 < s.adding h := hor.resolve_right List.not_mem_nil
    have hmem : h ∉ s.mPool := by
      rw [← List.count_eq_zero, hc.pool]
      have hplaces := hc.places h
      split_ifs at hplaces ⊢ <;> omega
    rw [hc.handle_releaseAll, if_neg hmem]
    exact hc.tracked h (.inl hadding)

theorem Conserving.step {op : BufferOp} (hc : s.Conserving os) (hstep : s.step op = .ok (s', o)) :
    s'.Conserving (os ++ o) := by
  cases op with
  | allocate count =>
    cases count with
    | zero =>
      cases hstep
      exact hc.keep (fun _ => rfl) rfl rfl rfl (fun _ => rfl) (fun _ => rfl) (by simp)
    | succ left =>
      cases hstep
      exact hc.keep (fun h => by simp [adding, Caller.handle]) rfl rfl rfl (fun _ => rfl)
        (fun _ => rfl) (by simp)
  | doAllocate caller allocated =>
    simp only [BufferPool.step] at hstep
    split_ifs at hstep with hmem hallocated
    · cases hstep
      exact hc.doAllocate hmem
    · cases hstep
      refine hc.keep (fun h => ?_) rfl rfl rfl (fun _ => rfl) (fun _ => rfl)
        (count_afterAllocate_doRelease caller 0)
      have hmove := adding_move (afterAllocate caller 0).1 hmem h
      rwa [countP_afterAllocate_handle] at hmove
  | addToPool caller a =>
    simp only [BufferPool.step] at hstep
    split_ifs at hstep with hmem
    cases hstep
    exact (hc.addToPool hmem).broadcast
  | request =>
    obtain ⟨rfl, rfl⟩ := Prod.ext_iff.mp (Except.ok.inj hstep)
    exact hc.requestLoop
  | wakeUp signaled =>
    simp only [BufferPool.step] at hstep
    split_ifs at hstep with hmem
    obtain ⟨rfl, rfl⟩ := Prod.ext_iff.mp (Except.ok.inj hstep)
    have hmove : (s.move (.waiting signaled) []).Conserving (os ++ []) :=
      hc.keep (adding_move [] hmem) rfl rfl rfl (fun _ => rfl) (fun _ => rfl)
        (fun _ => rfl)
    rw [List.append_nil] at hmove
    exact hmove.requestLoop
  | relock =>
    simp only [BufferPool.step] at hstep
    split_ifs at hstep with hmem
    obtain ⟨rfl, rfl⟩ := Prod.ext_iff.mp (Except.ok.inj hstep)
    have hmove : ({ s with mAllocatingCount := s.mAllocatingCount - 1 }.move
        .relocking []).Conserving (os ++ []) :=
      hc.keep (adding_move [] hmem) rfl rfl rfl (fun _ => rfl) (fun _ => rfl)
        (fun _ => rfl)
    rw [List.append_nil] at hmove
    exact hmove.requestLoop
  | inc a =>
    simp only [BufferPool.step] at hstep
    split_ifs at hstep with hpos
    cases hstep
    exact hc.recount hpos (fun _ => rfl) (by simp [incSbCount])
  | dec a =>
    simp only [BufferPool.step] at hstep
    split_ifs at hstep with hone hmany
    · cases hstep
      refine hc.recount (by omega) (fun _ => rfl) fun h => ?_
      have hzero : (decSbCount (s.handle a)).mCount = 0 := by simp [decSbCount, hone]
      by_cases hah : h = a
      · subst hah
        simp [hzero]
      · rw [List.count_cons_of_ne (Ne.symm hah), if_neg fun hand => hah hand.1, Nat.add_zero]
    · cases hstep
      refine hc.recount (by omega) (fun _ => rfl) fun h => ?_
      have hne : ¬ (decSbCount (s.handle a)).mCount = 0 := by
        simp only [decSbCount]
        omega
      rw [if_neg fun hand => hne hand.2, Nat.add_zero]
  | recycle a =>
    simp only [BufferPool.step] at hstep
    split_ifs at hstep with hmem
    obtain ⟨rfl, rfl⟩ := Prod.ext_iff.mp (Except.ok.inj hstep)
    exact hc.recycle hmem
  | setAutoAllocate bound =>
    cases hstep
    exact hc.keep (fun _ => rfl) rfl rfl rfl (fun _ => rfl) (fun _ => rfl) (fun _ => rfl)
  | setAutoFree bound =>
    obtain ⟨rfl, rfl⟩ := Prod.ext_iff.mp (Except.ok.inj hstep)
    have hset : ({ s with mAutoFree := bound } : BufferPool).Conserving (os ++ []) :=
      hc.keep (fun _ => rfl) rfl rfl rfl (fun _ => rfl) (fun _ => rfl) (fun _ => rfl)
    rw [List.append_nil] at hset
    unfold autoFree_locked
    split_ifs
    · exact hset.autoFreeLoop s.mPool.length
    · simpa using hset
  | releaseAll =>
    obtain ⟨rfl, rfl⟩ := Prod.ext_iff.mp (Except.ok.inj hstep)
    exact hc.releaseAll

/-! ### The bound -/

def inProgress (s : BufferPool) : ℕ := s.callers.countP Caller.allocates

/-- The bounds under which requests have started to allocate. -/
def started (os : List BufferEvent) : List ℤ :=
  os.filterMap fun
    | .allocating bound => some bound
    | _ => none

/-- Only requests allocate, which leave room under the bound. -/
structure Bounded (s : BufferPool) (os : List BufferEvent) : Prop where
  requests : ∀ c ∈ s.callers, c.allocates = true → c.isCounted = true
  counted : s.callers.countP Caller.isCounted = s.mAllocatingCount
  bound : (s.mPool.length + s.inProgress : ℤ) ≤ (started os).getLast?.getD 0

theorem started_append (os o : List BufferEvent) : started (os ++ o) = started os ++ started o :=
  List.filterMap_append ..

theorem Bounded.keep (hb : s.Bounded os) (hcallers : s'.callers = s.callers)
    (hcount : s'.mAllocatingCount = s.mAllocatingCount)
    (hpool : s'.mPool.length ≤ s.mPool.length) (ho : started o = []) :
    s'.Bounded (os ++ o) := by
  refine ⟨hcallers ▸ hb.requests, by rw [hcallers, hcount]; exact hb.counted, ?_⟩
  have hbound := hb.bound
  have hsame : s'.inProgress = s.inProgress := by rw [inProgress, inProgress, hcallers]
  rw [started_append, ho, List.append_nil, hsame]
  omega

theorem Bounded.inProgress_le (hb : s.Bounded os) : s.inProgress ≤ s.mAllocatingCount :=
  hb.counted ▸ List.countP_mono_left hb.requests

theorem Bounded.requestLoop (hb : s.Bounded os) :
    s.requestLoop.1.Bounded (os ++ s.requestLoop.2) := by
  have hsame : s.callers.countP Caller.allocates = s.inProgress := rfl
  have hbound := hb.bound
  unfold BufferPool.requestLoop
  split
  · exact hb.keep rfl rfl (Nat.le_refl _) rfl
  · split_ifs with hroom
    · have hle := hb.inProgress_le
      refine ⟨List.forall_mem_cons.mpr ⟨fun _ => rfl, hb.requests⟩, ?_, ?_⟩
      · rw [List.countP_cons_of_pos rfl, hb.counted]
      · rw [started_append, inProgress, List.countP_cons_of_pos rfl, hsame]
        simp only [started, List.filterMap_cons, List.filterMap_nil, List.getLast?_concat,
          Option.getD_some]
        push_cast
        omega
    · refine ⟨List.forall_mem_cons.mpr ⟨fun _ => by contradiction, hb.requests⟩, ?_, ?_⟩
      · rw [List.countP_cons_of_neg (by simp [Caller.isCounted]), hb.counted]
      · rw [started_append, inProgress, List.countP_cons_of_neg (by simp [Caller.allocates]), hsame]
        change _ ≤ (started os ++ []).getLast?.getD 0
        rw [List.append_nil]
        exact hbound

/-- A caller moves on, and counts as before, but for its buffer, once that is in the pool. -/
theorem Bounded.move (hb : s.Bounded os) (hc : c ∈ s.callers)
    (hcallers : s'.callers = (s.move c next).callers)
    (hnext : ∀ c' ∈ next, c'.allocates = true → c'.isCounted = true)
    (hcount : s'.mAllocatingCount + (if c.isCounted then 1 else 0) =
      s.mAllocatingCount + next.countP Caller.isCounted)
    (hpool : s'.mPool.length + next.countP Caller.allocates ≤
      s.mPool.length + if c.allocates then 1 else 0)
    (ho : started o = []) : s'.Bounded (os ++ o) := by
  have hcounted := countP_move next hc Caller.isCounted
  have hallocates := countP_move next hc Caller.allocates
  have hbound := hb.bound
  refine ⟨fun c' hc' => ?_, ?_, ?_⟩
  · rw [hcallers] at hc'
    obtain hc' | hc' := List.mem_append.mp hc'
    · exact hnext c' hc'
    · exact hb.requests c' (List.mem_of_mem_erase hc')
  · rw [hcallers]
    rw [hb.counted] at hcounted
    omega
  · have hsame : s'.inProgress = (s.move c next).callers.countP Caller.allocates := by
      rw [inProgress, hcallers]
    have hs : s.inProgress = s.callers.countP Caller.allocates := rfl
    rw [started_append, ho, List.append_nil]
    omega

theorem Bounded.freeFromPool (hb : s.Bounded os) (a : ℕ) :
    (s.freeFromPool_locked a).1.Bounded (os ++ (s.freeFromPool_locked a).2) := by
  unfold freeFromPool_locked
  split_ifs
  · exact hb.keep rfl rfl (List.length_erase_le ..) rfl
  · exact hb.keep rfl rfl (Nat.le_refl _) rfl

theorem Bounded.autoFreeLoop (hb : s.Bounded os) (count : ℕ) (mAvailable : List ℕ) :
    (s.autoFreeLoop count mAvailable).1.Bounded (os ++ (s.autoFreeLoop count mAvailable).2) := by
  induction mAvailable generalizing s os count with
  | nil => exact hb.keep rfl rfl (Nat.le_refl _) rfl
  | cons a mAvailable ih =>
    rw [BufferPool.autoFreeLoop]
    split_ifs
    · rw [← List.append_assoc]
      exact ih (hb.freeFromPool a) (count - 1)
    · exact hb.keep rfl rfl (Nat.le_refl _) rfl

theorem Bounded.broadcast (hb : s.Bounded os) : s.broadcast.Bounded os := by
  refine ⟨fun c hc hallocates => ?_, ?_, ?_⟩
  · obtain ⟨c₀, hc₀, rfl⟩ := List.mem_map.mp hc
    cases c₀ with
    | waiting signaled => cases hallocates
    | allocating caller => exact hb.requests _ hc₀ hallocates
    | adding caller handle => exact hb.requests _ hc₀ hallocates
    | relocking => rfl
  · rw [s.countP_broadcast fun _ => rfl]
    exact hb.counted
  · rw [inProgress, s.countP_broadcast fun _ => rfl]
    exact hb.bound

theorem Bounded.recycle (hb : s.Bounded os) (a : ℕ) :
    (s.recycle a).1.Bounded (os ++ (s.recycle a).2) := by
  unfold BufferPool.recycle
  split_ifs
  · exact (hb.freeFromPool a).broadcast
  · exact Bounded.broadcast (hb.keep rfl rfl (Nat.le_refl _) rfl)
  · exact hb.keep rfl rfl (Nat.le_refl _) rfl

theorem Bounded.eq_request (hb : s.Bounded os) (hc : c ∈ s.callers)
    (hcaller : c = .allocating caller ∨ ∃ a, c = .adding caller a) : caller = .request := by
  obtain rfl | ⟨a, rfl⟩ := hcaller
  all_goals
    have hcounted := hb.requests _ hc rfl
    cases caller with
    | request => rfl
    | allocate left result => cases hcounted

theorem Bounded.step {op : BufferOp} (hb : s.Bounded os) (hop : ∀ count, op ≠ .allocate count)
    (hstep : s.step op = .ok (s', o)) : s'.Bounded (os ++ o) := by
  cases op with
  | allocate count => exact absurd rfl (hop count)
  | doAllocate caller allocated =>
    simp only [BufferPool.step] at hstep
    split_ifs at hstep with hmem
    · obtain rfl := hb.eq_request hmem (.inl rfl)
      cases hstep
      exact hb.move hmem rfl (by simp [Caller.allocates, Caller.isCounted]) rfl (Nat.le_refl _)
        rfl
    · obtain rfl := hb.eq_request hmem (.inl rfl)
      cases hstep
      exact hb.move hmem rfl (by simp [afterAllocate, Caller.allocates]) rfl
        (Nat.le_add_right ..) rfl
  | addToPool caller a =>
    simp only [BufferPool.step] at hstep
    split_ifs at hstep with hmem
    obtain rfl := hb.eq_request hmem (.inr ⟨a, rfl⟩)
    cases hstep
    refine Bounded.broadcast
      (hb.move hmem rfl (by simp [afterAllocate, Caller.allocates]) rfl ?_ rfl)
    simp [BufferPool.move, afterAllocate, Caller.allocates]
  | request =>
    obtain ⟨rfl, rfl⟩ := Prod.ext_iff.mp (Except.ok.inj hstep)
    exact hb.requestLoop
  | wakeUp signaled =>
    simp only [BufferPool.step] at hstep
    split_ifs at hstep with hmem
    obtain ⟨rfl, rfl⟩ := Prod.ext_iff.mp (Except.ok.inj hstep)
    have hmove : (s.move (.waiting signaled) []).Bounded (os ++ []) :=
      hb.move hmem rfl nofun rfl (Nat.le_refl _) rfl
    rw [List.append_nil] at hmove
    exact hmove.requestLoop
  | relock =>
    simp only [BufferPool.step] at hstep
    split_ifs at hstep with hmem
    obtain ⟨rfl, rfl⟩ := Prod.ext_iff.mp (Except.ok.inj hstep)
    have hpos : 0 < s.mAllocatingCount := by
      rw [← hb.counted]
      exact List.countP_pos_iff.mpr ⟨.relocking, hmem, rfl⟩
    have hmove : ({ s with mAllocatingCount := s.mAllocatingCount - 1 }.move
        .relocking []).Bounded (os ++ []) :=
      hb.move hmem rfl nofun (Nat.sub_add_cancel hpos) (Nat.le_refl _) rfl
    rw [List.append_nil] at hmove
    exact hmove.requestLoop
  | inc a =>
    simp only [BufferPool.step] at hstep
    split_ifs at hstep
    cases hstep
    exact hb.keep rfl rfl (Nat.le_refl _) rfl
  | dec a =>
    simp only [BufferPool.step] at hstep
    split_ifs at hstep
    · cases hstep
      exact hb.keep rfl rfl (Nat.le_refl _) rfl
    · cases hstep
      exact hb.keep rfl rfl (Nat.le_refl _) rfl
  | recycle a =>
    simp only [BufferPool.step] at hstep
    split_ifs at hstep
    obtain ⟨rfl, rfl⟩ := Prod.ext_iff.mp (Except.ok.inj hstep)
    have hkeep : ({ s with recycling := s.recycling.erase a } : BufferPool).Bounded (os ++ []) :=
      hb.keep rfl rfl (Nat.le_refl _) rfl
    rw [List.append_nil] at hkeep
    exact hkeep.recycle a
  | setAutoAllocate bound =>
    cases hstep
    exact hb.keep rfl rfl (Nat.le_refl _) rfl
  | setAutoFree bound =>
    obtain ⟨rfl, rfl⟩ := Prod.ext_iff.mp (Except.ok.inj hstep)
    have hkeep : ({ s with mAutoFree := bound } : BufferPool).Bounded (os ++ []) :=
      hb.keep rfl rfl (Nat.le_refl _) rfl
    rw [List.append_nil] at hkeep
    unfold autoFree_locked
    split_ifs
    · exact hkeep.autoFreeLoop ..
    · exact hkeep.keep rfl rfl (Nat.le_refl _) rfl
  | releaseAll =>
    obtain ⟨rfl, rfl⟩ := Prod.ext_iff.mp (Except.ok.inj hstep)
    refine hb.keep rfl rfl (Nat.zero_le _) ?_
    simp [BufferPool.releaseAll, started]

/-! ### Runs -/

variable {ops : List BufferOp}

theorem conserving_create : ({} : BufferPool).Conserving [] :=
  ⟨fun _ => rfl, fun _ => by simp [holds, handle, BufferHandle.new], by simp [adding]⟩

theorem bounded_create : ({} : BufferPool).Bounded [] := ⟨nofun, rfl, by decide⟩

/-- **Conservation.** Throughout every run the pool lists no buffer twice, those that are available
are those of the pool that are not held, and a buffer is released once at most, and neither
available nor held from then on. Where only requests allocate, the buffers of the pool and the
allocations in progress are within the bound under which the last of them has started. -/
theorem pool_conserved_of_runs (hrun : bufferPool.Runs {} ops s os) :
    s.Conserved os ∧ ((∀ count, .allocate count ∉ ops) →
      (s.mPool.length + s.inProgress : ℤ) ≤ (started os).getLast?.getD 0) := by
  refine ⟨Conserving.conserved (hrun.invariant (I := fun _ s os => s.Conserving os)
    conserving_create fun _ _ _ _ _ _ hc hstep => hc.step hstep), fun hops => ?_⟩
  refine Bounded.bound (hrun.invariant
    (I := fun ops s os => (∀ count, .allocate count ∉ ops) → s.Bounded os)
    (fun _ => bounded_create) (fun ops s os op s' o hb hstep hops => ?_) hops)
  exact (hb fun count hmem => hops count (List.mem_append_left _ hmem)).step
    (fun count heq => hops count (by simp [heq])) hstep

def autoOps : List BufferOp :=
  [.setAutoAllocate 1, .request, .doAllocate .request true, .addToPool .request 0, .relock, .dec 0,
    .recycle 0, .request, .setAutoFree 0, .dec 0, .recycle 0]

theorem pool_conserved_of_runs_freed : ∃ s os, bufferPool.Runs {} autoOps s os ∧
    os = [.allocating 1, .returned 0, .returned 0, .doRelease 0] ∧ s.Conserved os ∧
      (s.mPool.length + s.inProgress : ℤ) ≤ (started os).getLast?.getD 0 := by
  obtain ⟨s, os, hrun, hos⟩ : ∃ s os, bufferPool.Runs {} autoOps s os ∧
      os = [.allocating 1, .returned 0, .returned 0, .doRelease 0] :=
    Machine.exists_run_of_shows (by decide +kernel)
  obtain ⟨hconserved, hbound⟩ := pool_conserved_of_runs hrun
  exact ⟨s, os, hrun, hos, hconserved, hbound (by simp [autoOps])⟩

end BufferPool

end MtkHardware.FeaturePipe
