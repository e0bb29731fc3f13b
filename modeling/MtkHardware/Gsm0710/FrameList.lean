import Mathlib.Data.List.Perm.Subperm
import MtkHardware.Gsm0710.Frame

/-!
# Lists of Frames

The frames that wait for a channel are in a circular list of nodes. One node holds no frame; it is
what `rx_fl` points to, and its `next` is the first frame. A frame is pushed by putting it into that
node and a new node without a frame behind it; a frame is popped from behind the node without a
frame. So the list is a queue.
-/

namespace MtkHardware.Gsm0710

/-! ### Paths -/

/-- From one node to another by the pointers of some nodes. -/
def Path (next : ℕ → ℕ) : ℕ → List ℕ → ℕ → Prop
  | a, [], b => a = b
  | a, n :: nodes, b => a = n ∧ Path next (next n) nodes b

theorem Path.append {next : ℕ → ℕ} {a b c : ℕ} {l₁ l₂ : List ℕ} (h₁ : Path next a l₁ b)
    (h₂ : Path next b l₂ c) : Path next a (l₁ ++ l₂) c := by
  induction l₁ generalizing a with
  | nil =>
    obtain rfl : a = b := h₁
    exact h₂
  | cons n l₁ ih => exact ⟨h₁.1, ih h₁.2⟩

theorem Path.congr {next next' : ℕ → ℕ} {a b : ℕ} {l : List ℕ} (h : Path next a l b)
    (heq : ∀ n ∈ l, next' n = next n) : Path next' a l b := by
  induction l generalizing a with
  | nil => exact h
  | cons n l ih =>
    refine ⟨h.1, ?_⟩
    rw [heq n List.mem_cons_self]
    exact ih h.2 fun m hm => heq m (List.mem_cons_of_mem _ hm)

/-! ### The code -/

/-- A node of a `GSM0710_FrameList`. -/
structure FrameNode where
  frame : Option GSM0710_Frame := none
  next : ℕ := 0

/-- `rx_fl`, with the nodes that `calloc` has given out for it. -/
structure GSM0710_FrameList where
  node : ℕ → FrameNode := fun _ => {}
  /-- The next node that `calloc` gives out. -/
  fresh : ℕ := 0
  list : Option ℕ := none

namespace GSM0710_FrameList

/-- `_fl_isEmpty`. -/
def fl_isEmpty (l : GSM0710_FrameList) : Bool :=
  match l.list with
  | none => true
  | some p => (l.node p).next == p

/-- `_fl_pushFrame`, unless the list is `NULL`. -/
def fl_pushFrame (l : GSM0710_FrameList) (frame : GSM0710_Frame) : Option GSM0710_FrameList :=
  l.list.map fun p =>
    let head : FrameNode := { frame := (l.node p).frame, next := (l.node p).next }
    { node := Function.update (Function.update l.node l.fresh head) p
        { frame := some frame, next := l.fresh }
      fresh := l.fresh + 1
      list := some l.fresh }

/-- `_fl_popFrame`. -/
def fl_popFrame (l : GSM0710_FrameList) : Option GSM0710_Frame × GSM0710_FrameList :=
  match l.list with
  | none => (none, l)
  | some p =>
    if (l.node p).next = p then (none, l)
    else
      let node := l.node (l.node p).next
      (node.frame,
        { l with node := Function.update l.node p { l.node p with next := node.next } })

/-- `_fl_cleanNodes`, which ends when the list is empty. -/
def fl_cleanNodes : ℕ → GSM0710_FrameList → GSM0710_FrameList
  | 0, l => l
  | fuel + 1, l => if l.fl_isEmpty then l else fl_cleanNodes fuel l.fl_popFrame.2

/-- `_fl_init`. -/
def fl_init (l : GSM0710_FrameList) : GSM0710_FrameList :=
  match l.list with
  | none =>
    { node := Function.update l.node l.fresh { frame := none, next := l.fresh }
      fresh := l.fresh + 1
      list := some l.fresh }
  | some _ => if l.fl_isEmpty then l else l.fl_cleanNodes l.fresh

/-! ### Queues -/

/-- The frames behind a node, up to the one that `rx_fl` points to. -/
def walk (l : GSM0710_FrameList) (p : ℕ) : ℕ → ℕ → List GSM0710_Frame
  | 0, _ => []
  | fuel + 1, n =>
    if n = p then [] else (l.node n).frame.toList ++ l.walk p fuel (l.node n).next

def frames (l : GSM0710_FrameList) : List GSM0710_Frame :=
  match l.list with
  | none => []
  | some p => l.walk p l.fresh (l.node p).next

/-- The list that is pointed to holds these frames, in nodes that have been given out. -/
def HoldsAt (l : GSM0710_FrameList) (p : ℕ) (frames : List GSM0710_Frame) : Prop :=
  ∃ nodes : List ℕ, Path (fun n => (l.node n).next) (l.node p).next nodes p ∧
    (p :: nodes).Nodup ∧ (∀ n ∈ p :: nodes, n < l.fresh) ∧
    nodes.map (fun n => (l.node n).frame) = frames.map some

/-- The list holds these frames; `NULL` holds none. -/
def Holds (l : GSM0710_FrameList) (frames : List GSM0710_Frame) : Prop :=
  match l.list with
  | none => frames = []
  | some p => l.HoldsAt p frames

variable {l : GSM0710_FrameList} {p : ℕ} {frame : GSM0710_Frame} {frames : List GSM0710_Frame}

theorem holds_null : ({} : GSM0710_FrameList).Holds [] := rfl

theorem HoldsAt.next_eq_iff (h : l.HoldsAt p frames) : (l.node p).next = p ↔ frames = [] := by
  obtain ⟨nodes, hpath, hnodup, -, hframes⟩ := h
  cases nodes with
  | nil => exact iff_of_true hpath (List.map_eq_nil_iff.mp hframes.symm)
  | cons n nodes =>
    refine iff_of_false (fun heq => ?_) ?_
    · obtain rfl : p = n := heq.symm.trans hpath.1
      exact (List.nodup_cons.mp hnodup).1 List.mem_cons_self
    · rintro rfl
      cases hframes

theorem Holds.isEmpty_iff (h : l.Holds frames) : l.fl_isEmpty = true ↔ frames = [] := by
  unfold Holds at h
  unfold fl_isEmpty
  cases hlist : l.list with
  | none =>
    rw [hlist] at h
    exact iff_of_true rfl h
  | some p =>
    rw [hlist] at h
    rw [beq_iff_eq]
    exact HoldsAt.next_eq_iff h

theorem Holds.push (h : l.Holds frames) (hlist : l.list.isSome = true) (frame : GSM0710_Frame) :
    ∃ l', l.fl_pushFrame frame = some l' ∧ l'.list.isSome = true ∧
      l'.Holds (frames ++ [frame]) := by
  obtain ⟨p, hp⟩ := Option.isSome_iff_exists.mp hlist
  unfold Holds at h
  rw [hp] at h
  obtain ⟨nodes, hpath, hnodup, hfresh, hframes⟩ := h
  have hpq : l.fresh ≠ p := Nat.ne_of_gt (hfresh p List.mem_cons_self)
  obtain ⟨hnot, hnodes⟩ := List.nodup_cons.mp hnodup
  -- what the nodes of the queue are then
  have hold : ∀ n ∈ nodes, Function.update (Function.update l.node l.fresh
      { frame := (l.node p).frame, next := (l.node p).next }) p
      { frame := some frame, next := l.fresh } n = l.node n := by
    intro n hn
    have hlt := hfresh n (List.mem_cons_of_mem _ hn)
    rw [Function.update_of_ne (by rintro rfl; exact hnot hn), Function.update_of_ne (by omega)]
  refine ⟨_, by rw [fl_pushFrame, hp]; rfl, rfl, ?_⟩
  change HoldsAt _ l.fresh _
  refine ⟨nodes ++ [p], ?_, ?_, ?_, ?_⟩
  · dsimp only
    rw [Function.update_of_ne hpq, Function.update_self]
    refine Path.append (hpath.congr fun n hn => by rw [hold n hn]) ⟨rfl, ?_⟩
    dsimp only
    rw [Function.update_self]
    rfl
  · rw [List.nodup_cons, List.nodup_append]
    refine ⟨?_, hnodes, by simp, ?_⟩
    · intro hmem
      have hlt : l.fresh < l.fresh := by
        rcases List.mem_append.mp hmem with hn | hn
        · exact hfresh _ (List.mem_cons_of_mem _ hn)
        · rw [List.mem_singleton.mp hn] at hpq
          exact absurd rfl hpq
      omega
    · intro n hn m hm
      rw [List.mem_singleton.mp hm]
      rintro rfl
      exact hnot hn
  · intro n hn
    dsimp only
    rcases List.mem_cons.mp hn with rfl | hn
    · omega
    · have hlt : n < l.fresh := hfresh n (by
        rcases List.mem_append.mp hn with hn | hn
        · exact List.mem_cons_of_mem _ hn
        · rw [List.mem_singleton.mp hn]
          exact List.mem_cons_self)
      omega
  · rw [List.map_append, List.map_append, ← hframes]
    congr 1
    · exact List.map_congr_left fun n hn => by dsimp only; rw [hold n hn]
    · simp

theorem Holds.pop (h : l.Holds (frame :: frames)) :
    ∃ l', l.fl_popFrame = (some frame, l') ∧ l'.list = l.list ∧ l'.Holds frames := by
  unfold Holds at h
  unfold fl_popFrame
  cases hp : l.list with
  | none =>
    rw [hp] at h
    cases h
  | some p =>
    rw [hp] at h
    dsimp only at h ⊢
    rw [if_neg fun heq => absurd (h.next_eq_iff.mp heq) (List.cons_ne_nil _ _)]
    obtain ⟨nodes, hpath, hnodup, hfresh, hframes⟩ := h
    cases nodes with
    | nil => cases hframes
    | cons n nodes =>
      obtain ⟨hn, hpath⟩ := hpath
      obtain ⟨hframe, hframes⟩ := List.cons.inj hframes
      obtain ⟨hnot, hnodes⟩ := List.nodup_cons.mp hnodup
      have hold : ∀ m ∈ nodes, Function.update l.node p
          { l.node p with next := (l.node (l.node p).next).next } m = l.node m := by
        intro m hm
        rw [Function.update_of_ne]
        rintro rfl
        exact hnot (List.mem_cons_of_mem _ hm)
      rw [hn] at hold ⊢
      have hfirst : (l.node n).frame = some frame := hframe
      refine ⟨_, by rw [hfirst], rfl, ?_⟩
      change HoldsAt _ p _
      refine ⟨nodes, ?_, ?_, ?_, ?_⟩
      · dsimp only
        rw [Function.update_self]
        exact hpath.congr fun m hm => by rw [hold m hm]
      · exact List.nodup_cons.mpr ⟨fun hm => hnot (List.mem_cons_of_mem _ hm),
          (List.nodup_cons.mp hnodes).2⟩
      · intro m hm
        rcases List.mem_cons.mp hm with rfl | hm
        · exact hfresh _ List.mem_cons_self
        · exact hfresh m (List.mem_cons_of_mem _ (List.mem_cons_of_mem _ hm))
      · rw [← hframes]
        exact List.map_congr_left fun m hm => by dsimp only; rw [hold m hm]

theorem Holds.pop_nil (h : l.Holds []) : l.fl_popFrame = (none, l) := by
  unfold Holds at h
  unfold fl_popFrame
  cases hp : l.list with
  | none => rfl
  | some p =>
    rw [hp] at h
    exact if_pos (HoldsAt.next_eq_iff h |>.mpr rfl)

theorem Holds.init (h : l.Holds []) : l.fl_init.list.isSome = true ∧ l.fl_init.Holds [] := by
  have hempty := h.isEmpty_iff.mpr rfl
  unfold fl_init
  unfold Holds at h
  cases hp : l.list with
  | none =>
    refine ⟨rfl, [], ?_, by simp, by simp, rfl⟩
    simp [Path]
  | some p =>
    rw [hp] at h
    dsimp only
    rw [if_pos hempty]
    refine ⟨by rw [hp]; rfl, ?_⟩
    unfold Holds
    rw [hp]
    exact h

theorem walk_eq {nodes : List ℕ} {frames : List GSM0710_Frame} {n fuel : ℕ}
    (hpath : Path (fun n => (l.node n).next) n nodes p) (hnot : p ∉ nodes)
    (hframes : nodes.map (fun n => (l.node n).frame) = frames.map some)
    (hfuel : nodes.length < fuel) : l.walk p fuel n = frames := by
  induction nodes generalizing n frames fuel with
  | nil =>
    obtain rfl : n = p := hpath
    obtain ⟨fuel, rfl⟩ := Nat.exists_eq_succ_of_ne_zero (Nat.ne_zero_of_lt hfuel)
    rw [walk, if_pos rfl]
    exact (List.map_eq_nil_iff.mp hframes.symm).symm
  | cons m nodes ih =>
    obtain ⟨rfl, hpath⟩ := hpath
    obtain ⟨fuel, rfl⟩ := Nat.exists_eq_succ_of_ne_zero (Nat.ne_zero_of_lt hfuel)
    rw [List.mem_cons, not_or] at hnot
    obtain ⟨hne, hnot⟩ := hnot
    cases frames with
    | nil => cases hframes
    | cons f frames =>
      obtain ⟨hframe, hframes⟩ := List.cons.inj hframes
      rw [List.length_cons] at hfuel
      have hfirst : (l.node n).frame = some f := hframe
      rw [walk, if_neg (Ne.symm hne), hfirst, ih hpath hnot hframes (by omega)]
      rfl

theorem Holds.frames_eq (h : l.Holds frames) : l.frames = frames := by
  unfold Holds at h
  unfold GSM0710_FrameList.frames
  cases hp : l.list with
  | none =>
    rw [hp] at h
    exact h.symm
  | some p =>
    rw [hp] at h
    obtain ⟨nodes, hpath, hnodup, hfresh, hframes⟩ := h
    have hsubset : p :: nodes ⊆ List.range l.fresh := fun n hn =>
      List.mem_range.mpr (hfresh n hn)
    have hlength := (List.subperm_of_subset hnodup hsubset).length_le
    rw [List.length_range, List.length_cons] at hlength
    exact walk_eq hpath (List.nodup_cons.mp hnodup).1 hframes (by omega)

end GSM0710_FrameList

end MtkHardware.Gsm0710
