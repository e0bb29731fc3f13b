import MtkHardware.FeaturePipe.WaitQueue

/-!
# The Identifiers and the Indices of a Queue

The identifiers and the indices that a `PriorityWaitQueue` returns are those of its elements, as
long as the element that is taken is the only one of its identifier, since all identifiers that
are equal to its own are erased, and the queue is not cleared while its indices are valid, since
they are then left as they are. In every other case they differ (`coherent_iff`).
-/

namespace MtkHardware.FeaturePipe

variable {T : Type*} {conv : IndexConverter T}

inductive QueueOp (T : Type*)
  | enque (val : T)
  | deque
  | dequeID (id : ℕ)
  | clear
  | getIDSet
  | getIndexSet
  deriving DecidableEq

inductive QueueEvent (T : Type*)
  | dequed (val : Option T)
  | idSet (ids : IDSet)
  | indexSet (indices : IndexSet)

namespace PriorityWaitQueue

def step (q : PriorityWaitQueue conv) (op : QueueOp T) :
    Except Blocked (PriorityWaitQueue conv × List (QueueEvent T)) :=
  match op with
  | .enque val => .ok (q.push val, [])
  | .deque => .ok (q.deque.1, [.dequed q.deque.2])
  | .dequeID id => .ok ((q.dequeID id).1, [.dequed (q.dequeID id).2])
  | .clear => .ok (q.clear, [])
  | .getIDSet => .ok (q, [.idSet q.getIDSet])
  | .getIndexSet => .ok (q.validate, [.indexSet q.getIndexSet])

end PriorityWaitQueue

def priorityWaitQueue (conv : IndexConverter T) :
    Machine (PriorityWaitQueue conv) (QueueOp T) (QueueEvent T) Blocked :=
  PriorityWaitQueue.step

namespace PriorityWaitQueue

def elements (q : PriorityWaitQueue conv) : Multiset T := q.mDataSet.contents

/-- The identifiers and the indices are those of the elements. -/
structure Coherent (q : PriorityWaitQueue conv) : Prop where
  ids : q.getIDSet.contents = q.elements.map conv.getID
  indices : q.getIndexSet.contents = q.elements.map conv.index
  ids_empty : q.getIDSet.contents = 0 ↔ q.elements = 0
  indices_empty : q.getIndexSet.contents = 0 ↔ q.elements = 0

/-- The element that is taken is the only one of its identifier, and the indices are not valid
when the queue is cleared, unless it is empty. -/
def Distinct (q : PriorityWaitQueue conv) : QueueOp T → Prop
  | .deque => ∀ val ∈ q.deque.2, (q.elements.map conv.getID).count (conv.getID val) = 1
  | .dequeID id => id ∈ q.elements.map conv.getID → (q.elements.map conv.getID).count id = 1
  | .clear => q.elements = 0 ∨ q.mIndexSetValid = false
  | _ => True

instance (q : PriorityWaitQueue conv) : ∀ op, Decidable (q.Distinct op)
  | .deque => inferInstanceAs (Decidable (∀ _ ∈ _, _ = _))
  | .dequeID _ => inferInstanceAs (Decidable (_ → _))
  | .clear => decidable_of_iff (Multiset.card q.elements = 0 ∨ q.mIndexSetValid = false)
      (or_congr_left Multiset.card_eq_zero)
  | .enque _ | .getIDSet | .getIndexSet => inferInstanceAs (Decidable True)

variable {q q' : PriorityWaitQueue conv} {op : QueueOp T} {o : List (QueueEvent T)}

theorem coherent_iff_kept : q.Coherent ↔
    q.mIDSet.contents = q.elements.map conv.getID ∧
      (q.mIndexSetValid = true → q.mIndexSet.contents = q.elements.map conv.index) := by
  have hindices : q.getIndexSet.contents = q.elements.map conv.index ↔
      (q.mIndexSetValid = true → q.mIndexSet.contents = q.elements.map conv.index) := by
    have hmade : (OrderedMultiset.ofList Index.key (q.mDataSet.entries.map conv.index)).contents =
        q.elements.map conv.index := OrderedMultiset.contents_ofList _
    unfold getIndexSet validate
    cases hvalid : q.mIndexSetValid with
    | true => simp
    | false => simp [hmade]
  refine ⟨fun h => ⟨h.ids, hindices.mp h.indices⟩, fun ⟨hids, hidx⟩ => ?_⟩
  have hidx := hindices.mpr hidx
  exact ⟨hids, hidx, by rw [getIDSet, hids, Multiset.map_eq_zero],
    by rw [hidx, Multiset.map_eq_zero]⟩

theorem coherent_push (hq : q.Coherent) (val : T) : (q.push val).Coherent := by
  obtain ⟨hids, hidx⟩ := coherent_iff_kept.mp hq
  refine coherent_iff_kept.mpr ⟨?_, fun hvalid => ?_⟩
  · rw [push, elements, OrderedMultiset.contents_insert, OrderedMultiset.contents_insert,
      Multiset.map_cons, hids]
    rfl
  · have hvalid : q.mIndexSetValid = true := hvalid
    rw [push, elements, OrderedMultiset.contents_insert, if_pos hvalid,
      OrderedMultiset.contents_insert, Multiset.map_cons, hidx hvalid]
    rfl

/-- Taking an element keeps the queue coherent exactly where its identifier is the only one. -/
theorem coherent_dequeFirst_iff {p : T → Bool} {val : T} (hq : q.Coherent)
    (hval : q.mDataSet.entries.find? p = some val) :
    (q.dequeFirst p).1.Coherent ↔ (q.elements.map conv.getID).count (conv.getID val) = 1 := by
  obtain ⟨hids, -⟩ := coherent_iff_kept.mp hq
  have helements : q.elements = val ::ₘ (q.mDataSet.eraseFirst p).contents :=
    OrderedMultiset.contents_eraseFirst hval
  have hmem : conv.getID val ∈ q.elements.map conv.getID :=
    Multiset.mem_map_of_mem _ (helements ▸ Multiset.mem_cons_self val _)
  have herase : (q.mDataSet.eraseFirst p).contents.map conv.getID =
      (q.elements.map conv.getID).erase (conv.getID val) := by
    rw [helements, Multiset.map_cons, Multiset.erase_cons_head]
  rw [coherent_iff_kept, dequeFirst, hval]
  dsimp only
  rw [elements, herase, OrderedMultiset.contents_eraseKey, hids, and_iff_left (by simp)]
  exact filter_ne_eq_erase_iff hmem

theorem dequeFirst_of_none {p : T → Bool} (hval : q.mDataSet.entries.find? p = none) :
    q.dequeFirst p = (q, none) := by
  rw [dequeFirst, hval]

theorem coherent_clear_iff (hq : q.Coherent) :
    q.clear.Coherent ↔ q.elements = 0 ∨ q.mIndexSetValid = false := by
  obtain ⟨-, hidx⟩ := coherent_iff_kept.mp hq
  rw [coherent_iff_kept]
  have hclear : q.clear.elements = 0 := rfl
  have hids : q.clear.mIDSet.contents = 0 := rfl
  rw [hclear, hids, Multiset.map_zero, Multiset.map_zero, and_iff_right rfl]
  cases hvalid : q.mIndexSetValid with
  | false => exact iff_of_true (fun h => absurd (hvalid.symm.trans h) Bool.false_ne_true) (.inr rfl)
  | true =>
    have hkept : q.clear.mIndexSet.contents = 0 ↔ q.elements = 0 := by
      rw [← Multiset.map_eq_zero (f := conv.index), ← hidx hvalid]
      rfl
    exact ⟨fun h => .inl (hkept.mp (h hvalid)), fun h => fun _ => hkept.mpr (by simpa using h)⟩

theorem coherent_validate (hq : q.Coherent) : q.validate.Coherent := by
  obtain ⟨hids, -⟩ := coherent_iff_kept.mp hq
  have hindices : q.validate.mIndexSet.contents = q.elements.map conv.index := hq.indices
  refine coherent_iff_kept.mpr ⟨?_, fun _ => ?_⟩
  · unfold validate
    split_ifs <;> exact hids
  · rw [hindices]
    unfold validate
    split_ifs <;> rfl

theorem coherent_step_iff (hq : q.Coherent) (h : q.step op = .ok (q', o)) :
    q'.Coherent ↔ q.Distinct op := by
  cases op with
  | enque val =>
    cases h
    exact iff_of_true (coherent_push hq val) trivial
  | deque =>
    cases h
    cases hval : q.mDataSet.entries.find? (fun _ => true) with
    | none =>
      rw [Distinct, deque, dequeFirst_of_none hval]
      exact iff_of_true hq fun val hnone => by cases hnone
    | some val =>
      have hdeque : q.deque.2 = some val := by rw [deque, dequeFirst, hval]
      rw [Distinct, hdeque, deque, coherent_dequeFirst_iff hq hval]
      simp
  | dequeID id =>
    cases h
    cases hval : q.mDataSet.entries.find? (fun val => id == conv.getID val) with
    | none =>
      rw [Distinct, dequeID, dequeFirst_of_none hval]
      refine iff_of_true hq fun hmem => ?_
      obtain ⟨val, hval', hid⟩ := Multiset.mem_map.mp hmem
      have hnot := List.find?_eq_none.mp hval val hval'
      exact absurd hid.symm (by simpa using hnot)
    | some val =>
      have hid : id = conv.getID val := by simpa using List.find?_some hval
      have hmem : conv.getID val ∈ q.elements.map conv.getID :=
        Multiset.mem_map_of_mem _ (List.mem_of_find?_eq_some hval)
      rw [Distinct, dequeID, coherent_dequeFirst_iff hq hval, hid, forall_prop_of_true hmem]
  | clear =>
    cases h
    exact coherent_clear_iff hq
  | getIDSet =>
    cases h
    exact iff_of_true hq trivial
  | getIndexSet =>
    cases h
    exact iff_of_true (coherent_validate hq) trivial

/-- **The identifiers and the indices are those of the elements** exactly in the runs that take
only elements of distinct identifiers, and clear only queues that are empty or whose indices are
not valid. -/
theorem coherent_iff {ops : List (QueueOp T)} {os : List (QueueEvent T)}
    (h : (priorityWaitQueue conv).Runs {} ops q os) :
    (∀ ops₁ ops₂ q₁ os₁, ops = ops₁ ++ ops₂ → (priorityWaitQueue conv).Runs {} ops₁ q₁ os₁ →
      q₁.Coherent) ↔
      (priorityWaitQueue conv).RunsMeeting (fun _ => Distinct) {} ops q os :=
  (Machine.Runs.meeting_iff (M := priorityWaitQueue conv) (C := fun _ => Distinct)
    (I := fun _ => Coherent) (coherent_iff_kept.mpr ⟨rfl, fun _ => rfl⟩)
    (fun _ _ _ _ _ _ _ hI hstep => coherent_step_iff hI hstep) h).symm

def pairConverter : IndexConverter (ℕ × ℕ) where
  index val := { mID := val.1, mPriority := val.2 }
  getID val := val.1

def distinctOps : List (QueueOp (ℕ × ℕ)) :=
  [.enque (2, 5), .enque (4, 3), .enque (0, 5), .deque, .getIndexSet, .dequeID 2, .enque (4, 1),
    .clear, .enque (4, 7)]

/-- Three elements, of which the one of the least priority and the one of an identifier are taken
before the queue is cleared. -/
theorem coherent_iff_distinct : ∃ q os,
    (priorityWaitQueue pairConverter).Runs {} distinctOps q os ∧ q.elements = {(4, 7)} ∧
      ∀ ops₁ ops₂ q₁ os₁, distinctOps = ops₁ ++ ops₂ →
        (priorityWaitQueue pairConverter).Runs {} ops₁ q₁ os₁ → q₁.Coherent := by
  obtain ⟨q, os, hrun, helements⟩ : ∃ q os,
      (priorityWaitQueue pairConverter).Runs {} distinctOps q os ∧ q.elements = {(4, 7)} :=
    Machine.exists_run_of_shows (by decide)
  exact ⟨q, os, hrun, helements, (coherent_iff hrun).mpr (hrun.meeting (by decide))⟩

/-- Of two elements of one identifier one is taken: the identifier of the other is erased, too. -/
theorem sameID_incoherent : ¬ ∀ ops q os,
    (priorityWaitQueue pairConverter).Runs {} ops q os → q.Coherent := by
  obtain ⟨q, os, hrun, hids, helements⟩ : ∃ q os,
      (priorityWaitQueue pairConverter).Runs {} [.enque (1, 5), .enque (1, 7), .deque] q os ∧
        q.getIDSet.contents = 0 ∧ q.elements ≠ 0 :=
    Machine.exists_run_of_shows (by decide)
  intro hall
  exact helements ((hall _ q os hrun).ids_empty.mp hids)

end PriorityWaitQueue

end MtkHardware.FeaturePipe
