import MtkHardware.FeaturePipe.QueueCoherence
import MtkHardware.FeaturePipe.WaitHub

/-!
# The Identifier That All Queues Have

`isAllQueueReadySync` walks over the indices of the first queue, in order, up to one whose
identifier is in every other queue. A `WaitQueue` does not tell its elements apart: it has the
identifier `0` while it has an element.
-/

namespace MtkHardware.FeaturePipe

variable {T : Type*} {conv : IndexConverter T}

namespace IWaitQueue

def Has (id : ℕ) : IWaitQueue conv → Prop
  | fifo q => id = 0 ∧ q.isReady = true
  | priority q => ∃ val ∈ q.mDataSet.entries, conv.getID val = id

/-- The identifiers and the indices of a queue are those of its elements, and the index of an
element has its identifier. -/
def Agrees : IWaitQueue conv → Prop
  | fifo _ => True
  | priority q => q.Coherent ∧ ∀ val ∈ q.mDataSet.entries, (conv.index val).mID = conv.getID val

theorem mem_getIDSet {q : IWaitQueue conv} (hq : q.Agrees) {id : ℕ} :
    id ∈ q.getIDSet.entries ↔ q.Has id := by
  cases q with
  | fifo q =>
    rw [getIDSet, WaitQueue.getIDSet, Has]
    split
    · rename_i hready
      rw [OrderedMultiset.mem_insert, and_iff_left hready]
      simp [OrderedMultiset.empty]
    · rename_i hready
      simp [OrderedMultiset.empty, hready]
  | priority q =>
    have hids : id ∈ q.getIDSet.contents ↔ id ∈ q.elements.map conv.getID := by rw [hq.1.ids]
    exact hids.trans Multiset.mem_map

theorem exists_getIndexSet {q : IWaitQueue conv} (hq : q.Agrees) {id : ℕ} :
    (∃ i ∈ q.getIndexSet.entries, i.mID = id) ↔ q.Has id := by
  cases q with
  | fifo q =>
    rw [getIndexSet, WaitQueue.getIndexSet, Has]
    split
    · rename_i hready
      simp [OrderedMultiset.mem_insert, OrderedMultiset.empty, hready, eq_comm]
    · rename_i hready
      simp [OrderedMultiset.empty, hready]
  | priority q =>
    have hindices (i : Index) :
        i ∈ q.getIndexSet.entries ↔ ∃ val ∈ q.mDataSet.entries, conv.index val = i := by
      have hcontents : i ∈ q.getIndexSet.contents ↔ i ∈ q.elements.map conv.index := by
        rw [hq.1.indices]
      exact hcontents.trans Multiset.mem_map
    constructor
    · rintro ⟨i, hi, rfl⟩
      obtain ⟨val, hval, rfl⟩ := (hindices i).mp hi
      exact ⟨val, hval, (hq.2 val hval).symm⟩
    · rintro ⟨val, hval, rfl⟩
      exact ⟨conv.index val, (hindices _).mpr ⟨val, hval, rfl⟩, hq.2 val hval⟩

@[simp] theorem has_validate {q : IWaitQueue conv} {id : ℕ} : q.validate.Has id ↔ q.Has id := by
  cases q with
  | fifo q => rfl
  | priority q =>
    rw [validate, PriorityWaitQueue.validate]
    split <;> rfl

end IWaitQueue

theorem PriorityWaitQueue.dequeID_of_has {q : PriorityWaitQueue conv} {id : ℕ}
    (h : (IWaitQueue.priority q).Has id) :
    ∃ val, (q.dequeID id).2 = some val ∧ conv.getID val = id := by
  obtain ⟨val₀, hval₀, hid₀⟩ := h
  have hsome : (q.mDataSet.entries.find? fun val => id == conv.getID val).isSome = true :=
    List.find?_isSome.mpr ⟨val₀, hval₀, beq_iff_eq.mpr hid₀.symm⟩
  obtain ⟨val, hval⟩ := Option.isSome_iff_exists.mp hsome
  have hid := List.find?_some hval
  rw [beq_iff_eq] at hid
  refine ⟨val, ?_, hid.symm⟩
  rw [dequeID, dequeFirst, hval]

theorem find?_least {α κ : Type*} [LinearOrder κ] {key : α → κ} {s : OrderedMultiset key}
    {p : α → Bool} {a : α} (h : s.entries.find? p = some a) :
    ∀ b ∈ s.entries, p b = true → key a ≤ key b := by
  intro b hb hpb
  obtain ⟨-, as, bs, hsplit, hnot⟩ := List.find?_eq_some_iff_append.mp h
  have hsorted := s.sorted
  rw [hsplit] at hb hsorted
  rcases List.mem_append.mp hb with has | hbs
  · exact absurd hpb (by simpa using hnot b has)
  · rcases List.mem_cons.mp hbs with rfl | hbs
    · exact le_rfl
    · exact (List.pairwise_cons.mp (List.pairwise_append.mp hsorted).2.1).1 b hbs

namespace WaitHub

variable {h : WaitHub conv}

def AllHave (h : WaitHub conv) (id : ℕ) : Prop := ∀ q ∈ h.mQueues, q.Has id

theorem condition_id_eq {q : IWaitQueue conv} {qs : List (IWaitQueue conv)}
    (hqueues : h.mQueues = q :: qs) : (h.condition .allQueueSync).id =
      (q.getIndexSet.entries.find? fun it =>
        qs.all fun q => q.getIDSet.entries.contains it.mID).map Index.mID := by
  rw [condition, evaluate, firstIndexSet, hqueues, List.map_cons]
  dsimp only
  rw [isAllQueueReadySync.eq_def]
  simp only [List.all_map, Function.comp_def, IWaitQueue.reading]

theorem allHave_iff {q : IWaitQueue conv} {qs : List (IWaitQueue conv)}
    (hqueues : h.mQueues = q :: qs) (hagree : ∀ q ∈ h.mQueues, q.Agrees) {it : Index}
    (hit : it ∈ q.getIndexSet.entries) :
    (qs.all fun q => q.getIDSet.entries.contains it.mID) = true ↔ h.AllHave it.mID := by
  rw [AllHave]
  rw [hqueues] at hagree ⊢
  rw [List.forall_mem_cons] at hagree
  rw [List.forall_mem_cons, List.all_eq_true,
    and_iff_right ((IWaitQueue.exists_getIndexSet hagree.1).mp ⟨it, hit, rfl⟩)]
  refine forall₂_congr fun q hq => ?_
  rw [List.contains_iff_mem, IWaitQueue.mem_getIDSet (hagree.2 q hq)]

/-- **The answer of the hub.** It is positive exactly when all queues have an identifier in common,
the identifier is that of the least index of the first queue among those that are in common, and
each queue then gives an element of it. -/
theorem isAllQueueReadySync_spec (hne : h.mQueues ≠ []) (hagree : ∀ q ∈ h.mQueues, q.Agrees) :
    ((h.condition .allQueueSync).condResult = true ↔ ∃ id, h.AllHave id) ∧
    ((h.condition .allQueueSync).condResult = true ↔
      ∃ id, (h.condition .allQueueSync).id = some id) ∧
    ∀ id, (h.condition .allQueueSync).id = some id →
      (∃ it ∈ h.firstIndexSet.entries, it.mID = id ∧ h.AllHave id ∧
        ∀ it' ∈ h.firstIndexSet.entries, h.AllHave it'.mID → it.key ≤ it'.key) ∧
      ∀ q, .priority q ∈ (h.validateFirst .allQueueSync).mQueues →
        ∃ val, (q.dequeID id).2 = some val ∧ conv.getID val = id := by
  obtain ⟨q, qs, hqueues⟩ := List.exists_cons_of_ne_nil hne
  have hq : q.Agrees := hagree q (hqueues ▸ List.mem_cons_self)
  have hfirst : h.firstIndexSet = q.getIndexSet := by rw [firstIndexSet, hqueues]
  have hid := condition_id_eq hqueues
  have hresult : (h.condition .allQueueSync).condResult =
      (h.condition .allQueueSync).id.isSome := rfl
  refine ⟨?_, by rw [hresult, Option.isSome_iff_exists], fun id hsome => ?_⟩
  · rw [hresult, hid, Option.isSome_map, List.find?_isSome]
    constructor
    · rintro ⟨it, hit, hall⟩
      exact ⟨it.mID, (allHave_iff hqueues hagree hit).mp hall⟩
    · rintro ⟨id, hall⟩
      obtain ⟨it, hit, rfl⟩ := (IWaitQueue.exists_getIndexSet hq).mpr
        (hall q (hqueues ▸ List.mem_cons_self))
      exact ⟨it, hit, (allHave_iff hqueues hagree hit).mpr hall⟩
  · rw [hid] at hsome
    obtain ⟨it, hfind, rfl⟩ := Option.map_eq_some_iff.mp hsome
    have hit := List.mem_of_find?_eq_some hfind
    have hin := List.find?_some hfind
    have hall := (allHave_iff hqueues hagree hit).mp hin
    refine ⟨⟨it, hfirst ▸ hit, rfl, hall, fun it' hit' hall' => ?_⟩, fun p hp => ?_⟩
    · rw [hfirst] at hit'
      exact find?_least hfind it' hit' ((allHave_iff hqueues hagree hit').mpr hall')
    · refine PriorityWaitQueue.dequeID_of_has ?_
      rw [validateFirst, hqueues] at hp
      rcases List.mem_cons.mp hp with heq | hmem
      · rw [heq, IWaitQueue.has_validate]
        exact hall q (hqueues ▸ List.mem_cons_self)
      · exact hall _ (hqueues ▸ List.mem_cons_of_mem q hmem)

open PriorityWaitQueue in
/-- Two queues with two identifiers in common, of which the greater has the less priority. -/
def twoQueues : WaitHub pairConverter where
  mQueues :=
    [.priority ((({} : PriorityWaitQueue pairConverter).push (1, 7)).push (4, 2)),
      .priority ((({} : PriorityWaitQueue pairConverter).push (4, 0)).push (1, 0))]

open PriorityWaitQueue in
/-- The identifier of the less priority is the answer. -/
theorem isAllQueueReadySync_spec_twoQueues :
    (twoQueues.condition .allQueueSync).id = some 4 ∧
      ∀ q, .priority q ∈ (twoQueues.validateFirst .allQueueSync).mQueues →
        ∃ val, (q.dequeID 4).2 = some val ∧ pairConverter.getID val = 4 := by
  have hempty : ({} : PriorityWaitQueue pairConverter).Coherent :=
    coherent_iff_kept.mpr ⟨rfl, fun _ => rfl⟩
  have hagree : ∀ q ∈ twoQueues.mQueues, q.Agrees := by
    intro q hq
    rcases List.mem_cons.mp hq with rfl | hq
    · exact ⟨coherent_push (coherent_push hempty _) _,
        fun _ _ => rfl⟩
    · obtain rfl := List.mem_singleton.mp hq
      exact ⟨coherent_push (coherent_push hempty _) _,
        fun _ _ => rfl⟩
  have hid : (twoQueues.condition .allQueueSync).id = some 4 := by decide +kernel
  obtain ⟨-, -, hspec⟩ := isAllQueueReadySync_spec (List.cons_ne_nil _ _) hagree
  exact ⟨hid, (hspec 4 hid).2⟩

end WaitHub

end MtkHardware.FeaturePipe
