import MtkHardware.FeaturePipe.QueueCoherence

/-!
# The Order of Service of a Queue

What a `PriorityWaitQueue` is for: its callers are served out of the elements in their order of
arrival, and each gets the earliest of the elements with the least index that he asks for. The
containers of the queue refine this: those of its elements that have one index are kept in their
order of arrival (`Keeps`), and every call keeps it so (`serves_step`).
-/

namespace MtkHardware.FeaturePipe

section Earliest

variable {α κ : Type*} [LinearOrder κ] {key : α → κ} {p : α → Bool} {a : α} {l l' : List α}

/-- The element is the earliest with the least key among those that the predicate holds of, and the
others are left. -/
def Earliest (key : α → κ) (p : α → Bool) (a : α) (l l' : List α) : Prop :=
  ∃ l₁ l₂, l = l₁ ++ a :: l₂ ∧ l' = l₁ ++ l₂ ∧ p a = true ∧
    (∀ b ∈ l₁, p b = true → key a < key b) ∧ ∀ b ∈ l₂, p b = true → key a ≤ key b

/-- The elements of each key are those of the list, in their order there. -/
def Keeps (s : OrderedMultiset key) (l : List α) : Prop :=
  ∀ k, s.entries.filter (key · = k) = l.filter (key · = k)

theorem Keeps.mem {s : OrderedMultiset key} (h : Keeps s l) : a ∈ s.entries ↔ a ∈ l := by
  have hfilter : a ∈ s.entries.filter (key · = key a) ↔ a ∈ l.filter (key · = key a) := by
    rw [h]
  simpa using hfilter

theorem filter_insertEntry (a : α) {l : List α} (h : l.Pairwise fun a b => key a ≤ key b) (k : κ) :
    (OrderedMultiset.insertEntry key a l).filter (key · = k) =
      l.filter (key · = k) ++ [a].filter (key · = k) := by
  induction l with
  | nil => rfl
  | cons b l ih =>
    obtain ⟨hb, hl⟩ := List.pairwise_cons.mp h
    rw [OrderedMultiset.insertEntry, List.orderedInsert_cons]
    by_cases hk : key a = k
    · rw [List.filter_cons_of_pos (a := a) (by simpa using hk), List.filter_nil]
      split_ifs with hlt
      · -- all that is behind is greater
        have hnone : (b :: l).filter (key · = k) = [] := by
          refine List.filter_eq_nil_iff.mpr fun c hc => ?_
          obtain rfl | hc := List.mem_cons.mp hc
          · simpa [← hk] using hlt.ne'
          · simpa [← hk] using (hlt.trans_le (hb c hc)).ne'
        rw [List.filter_cons_of_pos (by simpa using hk), hnone, List.nil_append]
      · have ih := ih hl
        rw [OrderedMultiset.insertEntry, List.filter_cons_of_pos (a := a) (by simpa using hk)] at ih
        rw [List.filter_cons, ih, List.filter_cons]
        split_ifs <;> rfl
    · rw [List.filter_cons_of_neg (a := a) (by simpa using hk), List.filter_nil, List.append_nil]
      split_ifs with hlt
      · rw [List.filter_cons_of_neg (by simpa using hk)]
      · have ih := ih hl
        rw [OrderedMultiset.insertEntry, List.filter_cons_of_neg (a := a) (by simpa using hk),
          List.filter_nil, List.append_nil] at ih
        rw [List.filter_cons, ih, List.filter_cons]

theorem keeps_insert {s : OrderedMultiset key} (h : Keeps s l) (a : α) :
    Keeps (s.insert a) (l ++ [a]) := by
  intro k
  rw [List.filter_append, ← h k]
  exact filter_insertEntry a s.sorted k

theorem Keeps.eraseFirst {s : OrderedMultiset key} (h : Keeps s l)
    (hfind : s.entries.find? p = some a) :
    ∃ l', Earliest key p a l l' ∧ Keeps (s.eraseFirst p) l' := by
  obtain ⟨hp, e₁, e₂, he, hnot⟩ := List.find?_eq_some_iff_append.mp hfind
  have hnot : ∀ b ∈ e₁, ¬ p b = true := fun b hb => by simpa using hnot b hb
  have herase : (s.eraseFirst p).entries = e₁ ++ e₂ := by
    change s.entries.eraseP p = e₁ ++ e₂
    rw [he, List.eraseP_append_right _ hnot, List.eraseP_cons_of_pos hp]
  have hfilter := (h (key a)).symm
  rw [he, List.filter_append, List.filter_cons_of_pos (by simp)] at hfilter
  obtain ⟨l₁, l₁', rfl, hl₁, hl₁'⟩ := List.filter_eq_append_iff.mp hfilter
  obtain ⟨m, l₂, rfl, hm, -, hl₂⟩ := List.filter_eq_cons_iff.mp hl₁'
  -- what is asked for and kept is not less
  have hle : ∀ b ∈ l₁ ++ (m ++ a :: l₂), p b = true → b ∉ e₁ ∧ key a ≤ key b := by
    intro b hb hpb
    have hb := (he ▸ h.mem.mpr hb)
    have hbe : b ∉ e₁ := fun hb₁ => hnot b hb₁ hpb
    refine ⟨hbe, ?_⟩
    obtain hb | hb := List.mem_append.mp hb
    · exact absurd hb hbe
    · obtain rfl | hb := List.mem_cons.mp hb
      · exact le_rfl
      · have hsorted := s.sorted
        rw [he, List.pairwise_append, List.pairwise_cons] at hsorted
        exact hsorted.2.1.1 b hb
  refine ⟨l₁ ++ m ++ l₂, ⟨l₁ ++ m, l₂, by rw [List.append_assoc], rfl, hp, ?_, ?_⟩, ?_⟩
  · intro b hb hpb
    obtain ⟨hbe, hab⟩ := hle b (by simp at hb ⊢; tauto) hpb
    refine lt_of_le_of_ne hab fun heq => ?_
    obtain hb | hb := List.mem_append.mp hb
    · exact hbe (List.mem_of_mem_filter (hl₁ ▸ List.mem_filter.mpr ⟨hb, by simpa using heq.symm⟩))
    · exact hm b hb (by simpa using heq.symm)
  · intro b hb hpb
    exact (hle b (by simp [hb]) hpb).2
  · intro k
    rw [herase]
    have hk := h k
    rw [he] at hk
    by_cases hka : key a = k
    · subst hka
      have hmnil : m.filter (key · = key a) = [] := List.filter_eq_nil_iff.mpr fun b hb => hm b hb
      rw [List.filter_append, List.filter_append, List.filter_append, hmnil, hl₁, hl₂,
        List.append_nil]
    · have hneg : ¬ decide (key a = k) = true := by simpa using hka
      simpa [List.filter_append, List.filter_cons_of_neg hneg, List.append_assoc, hka] using hk

end Earliest

variable {T : Type*} {conv : IndexConverter T}

/-- **The order of service**: what calls return, with the elements in their order of arrival that
are left. -/
inductive Serves (conv : IndexConverter T) : List (QueueOp T) → List (QueueEvent T) → List T → Prop
  | init : Serves conv [] [] []
  | enque {ops os l} (val : T) : Serves conv ops os l →
      Serves conv (ops ++ [.enque val]) os (l ++ [val])
  | deque {ops os l val l'} : Serves conv ops os l →
      Earliest (fun val => (conv.index val).key) (fun _ => true) val l l' →
      Serves conv (ops ++ [.deque]) (os ++ [.dequed (some val)]) l'
  | deque_none {ops os} : Serves conv ops os [] →
      Serves conv (ops ++ [.deque]) (os ++ [.dequed none]) []
  | dequeID {ops os l id val l'} : Serves conv ops os l →
      Earliest (fun val => (conv.index val).key) (fun val => id == conv.getID val) val l l' →
      Serves conv (ops ++ [.dequeID id]) (os ++ [.dequed (some val)]) l'
  | dequeID_none {ops os l id} : Serves conv ops os l → (∀ val ∈ l, conv.getID val ≠ id) →
      Serves conv (ops ++ [.dequeID id]) (os ++ [.dequed none]) l
  | clear {ops os l} : Serves conv ops os l → Serves conv (ops ++ [.clear]) os []
  | getIDSet {ops os l} (ids : IDSet) : Serves conv ops os l →
      Serves conv (ops ++ [.getIDSet]) (os ++ [.idSet ids]) l
  | getIndexSet {ops os l} (indices : IndexSet) : Serves conv ops os l →
      Serves conv (ops ++ [.getIndexSet]) (os ++ [.indexSet indices]) l

namespace PriorityWaitQueue

variable {q q' : PriorityWaitQueue conv} {op : QueueOp T} {ops : List (QueueOp T)}
  {os o : List (QueueEvent T)} {l : List T} {p : T → Bool} {val : T}

theorem dequeFirst_some (h : q.mDataSet.entries.find? p = some val) :
    (q.dequeFirst p).2 = some val ∧ (q.dequeFirst p).1.mDataSet = q.mDataSet.eraseFirst p := by
  rw [dequeFirst, h]
  exact ⟨rfl, rfl⟩

theorem serves_step (hserves : Serves conv ops os l) (hkeeps : Keeps q.mDataSet l)
    (h : q.step op = .ok (q', o)) :
    ∃ l', Serves conv (ops ++ [op]) (os ++ o) l' ∧ Keeps q'.mDataSet l' := by
  cases op with
  | enque val =>
    cases h
    rw [List.append_nil]
    exact ⟨_, hserves.enque val, keeps_insert hkeeps val⟩
  | deque =>
    cases h
    cases hfind : q.mDataSet.entries.find? (fun _ => true) with
    | none =>
      have hnil : l = [] := by
        refine List.eq_nil_iff_forall_not_mem.mpr fun val hval => ?_
        exact List.find?_eq_none.mp hfind val (hkeeps.mem.mpr hval) rfl
      subst hnil
      rw [deque, dequeFirst_of_none hfind]
      exact ⟨[], hserves.deque_none, hkeeps⟩
    | some val =>
      obtain ⟨l', hearliest, hkeeps'⟩ := hkeeps.eraseFirst hfind
      obtain ⟨hval, hset⟩ := dequeFirst_some hfind
      rw [deque, hval]
      exact ⟨l', hserves.deque hearliest, hset ▸ hkeeps'⟩
  | dequeID id =>
    cases h
    cases hfind : q.mDataSet.entries.find? (fun val => id == conv.getID val) with
    | none =>
      rw [dequeID, dequeFirst_of_none hfind]
      refine ⟨l, hserves.dequeID_none fun val hval heq => ?_, hkeeps⟩
      exact List.find?_eq_none.mp hfind val (hkeeps.mem.mpr hval) (by simp [heq])
    | some val =>
      obtain ⟨l', hearliest, hkeeps'⟩ := hkeeps.eraseFirst hfind
      obtain ⟨hval, hset⟩ := dequeFirst_some hfind
      rw [dequeID, hval]
      exact ⟨l', hserves.dequeID hearliest, hset ▸ hkeeps'⟩
  | clear =>
    cases h
    rw [List.append_nil]
    exact ⟨[], hserves.clear, fun _ => rfl⟩
  | getIDSet =>
    cases h
    exact ⟨l, hserves.getIDSet _, hkeeps⟩
  | getIndexSet =>
    cases h
    refine ⟨l, hserves.getIndexSet _, ?_⟩
    unfold validate
    split_ifs <;> exact hkeeps

/-- **Every run of a queue serves its callers in order**, and what it keeps are the elements that
are left. -/
theorem served_in_order (h : (priorityWaitQueue conv).Runs {} ops q os) :
    ∃ l, Serves conv ops os l ∧ Keeps q.mDataSet l := by
  refine h.invariant (I := fun ops q os => ∃ l, Serves conv ops os l ∧ Keeps q.mDataSet l)
    ⟨[], .init, fun _ => rfl⟩ ?_
  rintro ops q os op q' o ⟨l, hserves, hkeeps⟩ hstep
  exact serves_step hserves hkeeps hstep

/-- Two elements of one index, of which the one that arrived first is taken first. -/
def equalOps : List (QueueOp (ℕ × ℕ)) :=
  [.enque (4, 1), .enque (2, 1), .enque (2, 0), .deque, .dequeID 2]

theorem served_in_order_equal :
    let conv : IndexConverter (ℕ × ℕ) := { index := fun val => { mID := val.1 }, getID := Prod.fst }
    ∃ q os l, (priorityWaitQueue conv).Runs {} equalOps q os ∧ q.mDataSet.entries = [(4, 1)] ∧
      Serves conv equalOps os l ∧ Keeps q.mDataSet l := by
  intro conv
  obtain ⟨q, os, hrun, hq⟩ : ∃ q os, (priorityWaitQueue conv).Runs {} equalOps q os ∧
      q.mDataSet.entries = [(4, 1)] := Machine.exists_run_of_shows (by decide)
  obtain ⟨l, hl⟩ := served_in_order hrun
  exact ⟨q, os, l, hrun, hq, hl⟩

end PriorityWaitQueue

end MtkHardware.FeaturePipe
