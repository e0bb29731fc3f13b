import Mathlib.Tactic.Common
import Mathlib.Data.List.Induction
import Mathlib.Algebra.Ring.Int.Defs
import Mathlib.Algebra.Ring.Nat

/-!
# Finite Runs of Faulting Machines

A `Machine` reads one operation at a time: from a state and an operation it either
faults or moves to a next state and emits a list of outputs. `Machine.Runs` is its
finite-run relation, built at the end of the run so that an induction on it meets the
last step first; `Machine.run` is the executable evaluator of the same runs.

## Main results

* `Machine.Runs.invariant`: a relation between the operations done, the state and the
  outputs emitted so far that holds initially and is preserved by every step holds of
  every run.
* `Machine.RunsMeeting.invariant`: the same rule for runs whose steps all meet a side
  condition.
* `Machine.runs_cons_iff`, `Machine.Runs.first_output`: a run by its first step, and by its first
  output.
* `Machine.runs_iff_run`: the evaluator computes exactly the runs.
* `Machine.exists_run_of_observe`, `Machine.exists_run_of_shows`: what the evaluator shows is of
  a run.
* `Machine.faultOf_ne`: a fault that no step meets.
* `Machine.Runs.meeting`, `Machine.Runs.meeting_outputs`: a run whose steps the evaluator finds to
  meet a condition.
* `Machine.Runs.meeting_iff_steps`: a run meets a condition when all of its steps do.
* `Machine.Runs.meeting_iff_history`, `Machine.Runs.meeting_iff`: exact conditions, from steps
  that keep an invariant exactly when they meet the condition.
* `Machine.exists_run_of_invariant`: the rule for runs that are to be there.
* `Machine.exists_run_of_steps`, `Machine.exists_run_iff`: runs that do not fault, from steps that
  do not.
* `Machine.met_snoc`: whether some step of a run met a condition, one step later.
* `StepsOf.invariant`: the invariant rule for a step relation with outputs.
-/

namespace MtkHardware

/-- A **machine**: one step from a state on an operation, which faults or yields the
next state together with the outputs of the step. -/
def Machine (σ α ω ε : Type*) := σ → α → Except ε (σ × List ω)

/-- The answer to a step that its thread cannot take in this state. -/
inductive Blocked
  | blocked
  deriving DecidableEq, Repr

theorem map_eq_ok_iff {ε α β : Type*} {f : α → β} {x : Except ε α} {b : β} :
    x.map f = .ok b ↔ ∃ a, x = .ok a ∧ f a = b := by
  cases x with
  | error e => simp [Except.map]
  | ok a => simp [Except.map]

namespace Machine

variable {σ α ω ε : Type*} {M : Machine σ α ω ε} {s₀ s s' : σ} {as bs : List α} {a : α}
  {os o : List ω}

/-- `M.Runs s₀ as s os`: from `s₀` the operations `as` are executed without a fault,
end in `s` and emit the outputs `os`. -/
inductive Runs (M : Machine σ α ω ε) (s₀ : σ) : List α → σ → List ω → Prop
  | init : Runs M s₀ [] s₀ []
  | snoc {as : List α} {s : σ} {os : List ω} {a : α} {s' : σ} {o : List ω} :
      Runs M s₀ as s os → M s a = .ok (s', o) → Runs M s₀ (as ++ [a]) s' (os ++ o)

/-- The runs whose steps all meet the side condition `C`, a relation between the outputs
emitted before the step, the state before the step, and the operation. -/
inductive RunsMeeting (M : Machine σ α ω ε) (C : List ω → σ → α → Prop) (s₀ : σ) :
    List α → σ → List ω → Prop
  | init : RunsMeeting M C s₀ [] s₀ []
  | snoc {as : List α} {s : σ} {os : List ω} {a : α} {s' : σ} {o : List ω} :
      RunsMeeting M C s₀ as s os → C os s a → M s a = .ok (s', o) →
      RunsMeeting M C s₀ (as ++ [a]) s' (os ++ o)

theorem Runs.meeting_of_forall {C : List ω → σ → α → Prop} (h : Runs M s₀ as s os)
    (hC : ∀ os s a, C os s a) : RunsMeeting M C s₀ as s os := by
  induction h with
  | init => exact .init
  | snoc _ hstep ih => exact .snoc ih (hC _ _ _) hstep

/-- **The invariant rule.** -/
theorem Runs.invariant {I : List α → σ → List ω → Prop} (h : Runs M s₀ as s os)
    (hinit : I [] s₀ [])
    (hstep : ∀ as s os a s' o, I as s os → M s a = .ok (s', o) →
      I (as ++ [a]) s' (os ++ o)) :
    I as s os := by
  induction h with
  | init => exact hinit
  | snoc _ hs ih => exact hstep _ _ _ _ _ _ ih hs

/-- **The invariant rule under a side condition**: a step may assume that it meets the
condition. -/
theorem RunsMeeting.invariant {C : List ω → σ → α → Prop}
    {I : List α → σ → List ω → Prop} (h : RunsMeeting M C s₀ as s os)
    (hinit : I [] s₀ [])
    (hstep : ∀ as s os a s' o, I as s os → C os s a → M s a = .ok (s', o) →
      I (as ++ [a]) s' (os ++ o)) :
    I as s os := by
  induction h with
  | init => exact hinit
  | snoc _ hc hs ih => exact hstep _ _ _ _ _ _ ih hc hs

theorem Runs.append {s₁ : σ} {os₁ : List ω} (h₁ : Runs M s₀ as s₁ os₁)
    (h₂ : Runs M s₁ bs s os) : Runs M s₀ (as ++ bs) s (os₁ ++ os) := by
  induction h₂ with
  | init => simpa using h₁
  | snoc _ hs ih =>
    rw [← List.append_assoc, ← List.append_assoc]
    exact .snoc ih hs

theorem Runs.single (h : M s a = .ok (s', o)) : Runs M s [a] s' o := by
  simpa using Runs.snoc .init h

/-- A run over `as ++ bs` passes through a state reached by `as`. -/
theorem Runs.split (as : List α) (h : Runs M s₀ (as ++ bs) s os) :
    ∃ s₁ os₁ os₂, Runs M s₀ as s₁ os₁ ∧ Runs M s₁ bs s os₂ ∧ os = os₁ ++ os₂ := by
  induction bs using List.reverseRecOn generalizing s os with
  | nil => exact ⟨s, os, [], by simpa using h, .init, by simp⟩
  | append_singleton bs b ih =>
    rw [← List.append_assoc] at h
    generalize hcs : as ++ bs ++ [b] = cs at h
    cases h with
    | init => simp at hcs
    | snoc hrun hs =>
      obtain ⟨rfl, heq⟩ := List.append_inj' hcs rfl
      obtain rfl : b = _ := by simpa using heq
      obtain ⟨s₁, os₁, os₂, h₁, h₂, rfl⟩ := ih hrun
      exact ⟨s₁, os₁, _, h₁, .snoc h₂ hs, List.append_assoc _ _ _⟩

/-- The step a run over `as ++ a :: bs` takes at `a`, with the run before it and the run
after it. -/
theorem Runs.split_step (h : Runs M s₀ (as ++ a :: bs) s os) :
    ∃ s₁ s₂ os₁ o os₂, Runs M s₀ as s₁ os₁ ∧ M s₁ a = .ok (s₂, o) ∧
      Runs M s₂ bs s os₂ ∧ os = os₁ ++ o ++ os₂ := by
  obtain ⟨s₂, os₁₂, os₂, h₁₂, h₂, rfl⟩ :=
    Runs.split (as ++ [a]) (by simpa using h)
  generalize hcs : as ++ [a] = cs at h₁₂
  cases h₁₂ with
  | init => simp at hcs
  | snoc hrun hs =>
    obtain ⟨rfl, heq⟩ := List.append_inj' hcs rfl
    obtain rfl : a = _ := by simpa using heq
    exact ⟨_, _, _, _, _, hrun, hs, h₂, rfl⟩

/-! ### The evaluator -/

/-- The **evaluator** of finite runs. -/
def run (M : Machine σ α ω ε) : σ → List α → Except ε (σ × List ω)
  | s, [] => .ok (s, [])
  | s, a :: as =>
    match M s a with
    | .error e => .error e
    | .ok (s₁, o₁) =>
      match run M s₁ as with
      | .error e => .error e
      | .ok (s₂, o₂) => .ok (s₂, o₁ ++ o₂)

theorem runs_of_run (h : M.run s₀ as = .ok (s, os)) : M.Runs s₀ as s os := by
  induction as generalizing s₀ os with
  | nil =>
    obtain ⟨rfl, rfl⟩ : s₀ = s ∧ [] = os := by simpa [run] using h
    exact .init
  | cons a as ih =>
    rw [run] at h
    split at h
    · cases h
    · rename_i s₁ o₁ hs
      split at h
      · cases h
      · rename_i s₂ o₂ hrest
        obtain ⟨rfl, rfl⟩ : s₂ = s ∧ o₁ ++ o₂ = os := by simpa using h
        exact (Runs.single hs).append (ih hrest)

theorem run_snoc (h : M.run s₀ as = .ok (s, os)) (hs : M s a = .ok (s', o)) :
    M.run s₀ (as ++ [a]) = .ok (s', os ++ o) := by
  induction as generalizing s₀ os with
  | nil =>
    obtain ⟨rfl, rfl⟩ : s₀ = s ∧ [] = os := by simpa [run] using h
    simp [run, hs]
  | cons b as ih =>
    rw [run] at h
    split at h
    · cases h
    · rename_i s₁ o₁ hb
      split at h
      · cases h
      · rename_i s₂ o₂ hrest
        obtain ⟨rfl, rfl⟩ : s₂ = s ∧ o₁ ++ o₂ = os := by simpa using h
        simp [run, hb, ih hrest]

theorem runs_iff_run : M.Runs s₀ as s os ↔ M.run s₀ as = .ok (s, os) := by
  refine ⟨fun h => ?_, runs_of_run⟩
  induction h with
  | init => rfl
  | snoc _ hs ih => exact run_snoc ih hs

/-- Two runs of a machine on the same operations end in the same state with the same
outputs. -/
theorem Runs.deterministic {s₁ s₂ : σ} {os₁ os₂ : List ω} (h₁ : M.Runs s₀ as s₁ os₁)
    (h₂ : M.Runs s₀ as s₂ os₂) : s₁ = s₂ ∧ os₁ = os₂ := by
  rw [runs_iff_run] at h₁ h₂
  rw [h₁] at h₂
  simpa using h₂

theorem runs_cons_iff : Runs M s₀ (a :: as) s os ↔
    ∃ s₁ o os', M s₀ a = .ok (s₁, o) ∧ Runs M s₁ as s os' ∧ os = o ++ os' := by
  constructor
  · intro h
    rw [← List.nil_append (a :: as)] at h
    obtain ⟨s₁, s₂, os₁, o, os₂, h₁, hs, h₂, rfl⟩ := h.split_step
    obtain ⟨rfl, rfl⟩ := h₁.deterministic .init
    exact ⟨s₂, o, os₂, hs, h₂, rfl⟩
  · rintro ⟨s₁, o, os', hs, h, rfl⟩
    exact (Runs.single hs).append h

/-- The step of the first output of a run whose steps have at most one. -/
theorem Runs.first_output {x : ω} (hone : ∀ s a s' o, M s a = .ok (s', o) → o.length ≤ 1)
    (h : Runs M s₀ as s (x :: os)) : ∃ as₁ a as₂ s₁ s₂, as = as₁ ++ a :: as₂ ∧
      Runs M s₀ as₁ s₁ [] ∧ M s₁ a = .ok (s₂, [x]) ∧ Runs M s₂ as₂ s os := by
  generalize hxs : x :: os = xs at h
  induction h generalizing os with
  | init => cases hxs
  | @snoc as s xs a s' o hrun hs ih =>
    cases xs with
    | nil =>
      obtain rfl : x :: os = o := by simpa using hxs
      have hlength := hone _ _ _ _ hs
      obtain rfl : os = [] := List.length_eq_zero_iff.mp (by simpa using hlength)
      exact ⟨as, a, [], s, s', rfl, hrun, hs, .init⟩
    | cons y ys =>
      obtain ⟨rfl, rfl⟩ : x = y ∧ os = ys ++ o := by simpa using hxs
      obtain ⟨as₁, b, as₂, s₁, s₂, rfl, h₁, hb, h₂⟩ := ih rfl
      exact ⟨as₁, b, as₂ ++ [a], s₁, s₂, by simp, h₁, hb, .snoc h₂ hs⟩

/-- What can be seen of a run: a view of its last state, and its outputs. -/
def observe (M : Machine σ α ω ε) (s₀ : σ) (as : List α) {β : Type*} (view : σ → β) :
    Option (β × List ω) :=
  match M.run s₀ as with
  | .ok (s, os) => some (view s, os)
  | .error _ => none

theorem exists_run_of_observe {β : Type*} {view : σ → β} {b : β}
    (h : M.observe s₀ as view = some (b, os)) : ∃ s, M.Runs s₀ as s os ∧ view s = b := by
  rw [observe] at h
  split at h
  · rename_i s os' hrun
    cases h
    exact ⟨s, runs_of_run hrun, rfl⟩
  · cases h

theorem Runs.view_of_observe {β : Type*} {view : σ → β} {b : β} {os' : List ω}
    (h : Runs M s₀ as s os) (hview : M.observe s₀ as view = some (b, os')) :
    view s = b ∧ os = os' := by
  obtain ⟨s', hrun, hb⟩ := exists_run_of_observe hview
  obtain ⟨rfl, rfl⟩ := h.deterministic hrun
  exact ⟨hb, rfl⟩

/-- Does the run end in a state and with outputs of which the predicate holds? -/
def shows (M : Machine σ α ω ε) (s₀ : σ) (as : List α) (p : σ → List ω → Prop)
    [∀ s os, Decidable (p s os)] : Bool :=
  match M.run s₀ as with
  | .ok (s, os) => decide (p s os)
  | .error _ => false

theorem exists_run_of_shows {p : σ → List ω → Prop} [∀ s os, Decidable (p s os)]
    (h : M.shows s₀ as p = true) : ∃ s os, M.Runs s₀ as s os ∧ p s os := by
  rw [shows] at h
  split at h
  · rename_i s os hrun
    exact ⟨s, os, runs_of_run hrun, of_decide_eq_true h⟩
  · cases h

theorem Runs.of_shows {p : σ → List ω → Prop} [∀ s os, Decidable (p s os)]
    (h : Runs M s₀ as s os) (hshows : M.shows s₀ as p = true) : p s os := by
  obtain ⟨s', os', hrun, hp⟩ := exists_run_of_shows hshows
  obtain ⟨rfl, rfl⟩ := h.deterministic hrun
  exact hp

/-- The fault that the evaluator meets. -/
def faultOf (M : Machine σ α ω ε) (s₀ : σ) (as : List α) : Option ε :=
  match M.run s₀ as with
  | .ok _ => none
  | .error e => some e

/-- A fault that no step from a state of the invariant meets. -/
theorem faultOf_ne {I : σ → Prop} {e : ε} (hinit : I s₀)
    (hkeep : ∀ s a s' o, I s → M s a = .ok (s', o) → I s') (hstep : ∀ s a, I s → M s a ≠ .error e)
    (as : List α) : M.faultOf s₀ as ≠ some e := by
  induction as generalizing s₀ with
  | nil => exact nofun
  | cons a as ih =>
    intro hfault
    rw [faultOf, run] at hfault
    cases hs : M s₀ a with
    | error e' =>
      rw [hs] at hfault
      obtain rfl : e' = e := Option.some.inj hfault
      exact hstep s₀ a hinit hs
    | ok r =>
      rw [hs] at hfault
      refine ih (hkeep _ _ _ _ hinit hs) ?_
      rw [faultOf]
      cases hrest : M.run r.1 as with
      | error e' => simpa [hrest] using hfault
      | ok r' => simp [hrest] at hfault

/-- Do all steps of the evaluator meet the condition? -/
def meetsAll (M : Machine σ α ω ε) (C : σ → α → Prop) [∀ s a, Decidable (C s a)] :
    σ → List α → Bool
  | _, [] => true
  | s, a :: as =>
    decide (C s a) &&
      match M s a with
      | .error _ => true
      | .ok (s₁, _) => meetsAll M C s₁ as

/-- Do all steps of the evaluator meet a condition that looks at the outputs, too? -/
def meetsFrom (M : Machine σ α ω ε) (C : List ω → σ → α → Prop) [∀ os s a, Decidable (C os s a)] :
    List ω → σ → List α → Bool
  | _, _, [] => true
  | os, s, a :: as =>
    decide (C os s a) &&
      match M s a with
      | .error _ => true
      | .ok (s₁, o) => meetsFrom M C (os ++ o) s₁ as

theorem meetsAll_eq_meetsFrom {C : σ → α → Prop} [∀ s a, Decidable (C s a)] (os : List ω) (s : σ)
    (as : List α) : M.meetsAll C s as = M.meetsFrom (fun _ => C) os s as := by
  induction as generalizing os s with
  | nil => rfl
  | cons a as ih =>
    rw [meetsAll, meetsFrom]
    cases M s a with
    | error _ => rfl
    | ok r => simp only [ih (os ++ r.2) r.1]

theorem meetsFrom_snoc {C : List ω → σ → α → Prop} [∀ os s a, Decidable (C os s a)]
    {os₀ : List ω} (h : M.run s₀ as = .ok (s, os)) :
    M.meetsFrom C os₀ s₀ (as ++ [a]) = true →
      M.meetsFrom C os₀ s₀ as = true ∧ C (os₀ ++ os) s a := by
  induction as generalizing s₀ os₀ os with
  | nil =>
    obtain ⟨rfl, rfl⟩ : s₀ = s ∧ [] = os := by simpa [run] using h
    intro hall
    rw [List.nil_append, meetsFrom, Bool.and_eq_true, decide_eq_true_eq] at hall
    rw [List.append_nil]
    exact ⟨rfl, hall.1⟩
  | cons b as ih =>
    rw [run] at h
    split at h
    · cases h
    · rename_i s₁ o₁ hb
      split at h
      · cases h
      · rename_i s₂ o₂ hrest
        obtain ⟨rfl, rfl⟩ : s₂ = s ∧ o₁ ++ o₂ = os := by simpa using h
        intro hall
        rw [List.cons_append, meetsFrom, Bool.and_eq_true, hb] at hall
        obtain ⟨hall', hC⟩ := ih hrest hall.2
        rw [meetsFrom, Bool.and_eq_true, hb]
        rw [List.append_assoc] at hC
        exact ⟨⟨hall.1, hall'⟩, hC⟩

/-- A run whose steps the evaluator finds to meet a condition on the outputs, too. -/
theorem Runs.meeting_outputs {C : List ω → σ → α → Prop} [∀ os s a, Decidable (C os s a)]
    (h : M.Runs s₀ as s os) (hall : M.meetsFrom C [] s₀ as = true) :
    M.RunsMeeting C s₀ as s os := by
  induction h with
  | init => exact .init
  | snoc hrun hs ih =>
    obtain ⟨hall', hC⟩ := meetsFrom_snoc (runs_iff_run.mp hrun) hall
    exact .snoc (ih hall') hC hs

/-- A run whose steps the evaluator finds to meet a condition. -/
theorem Runs.meeting {C : σ → α → Prop} [∀ s a, Decidable (C s a)] (h : M.Runs s₀ as s os)
    (hall : M.meetsAll C s₀ as = true) : M.RunsMeeting (fun _ => C) s₀ as s os :=
  h.meeting_outputs (by rw [← meetsAll_eq_meetsFrom]; exact hall)

theorem RunsMeeting.runs {C : List ω → σ → α → Prop} (h : M.RunsMeeting C s₀ as s os) :
    M.Runs s₀ as s os := by
  induction h with
  | init => exact .init
  | snoc _ _ hs ih => exact .snoc ih hs

theorem RunsMeeting.of_snoc {C : List ω → σ → α → Prop} (as : List α)
    (h : M.RunsMeeting C s₀ (as ++ [a]) s' os) :
    ∃ s os₁ o, M.RunsMeeting C s₀ as s os₁ ∧ C os₁ s a ∧ M s a = .ok (s', o) ∧
      os = os₁ ++ o := by
  generalize hbs : as ++ [a] = bs at h
  cases h with
  | init => simp at hbs
  | snoc hrun hC hs =>
    obtain ⟨rfl, heq⟩ := List.append_inj' hbs rfl
    obtain rfl : a = _ := by simpa using heq
    exact ⟨_, _, _, hrun, hC, hs, rfl⟩

theorem Runs.meeting_iff_steps {C : List ω → σ → α → Prop} (h : M.Runs s₀ as s os) :
    M.RunsMeeting C s₀ as s os ↔
      ∀ as₁ a as₂ s₁ os₁, as = as₁ ++ a :: as₂ → M.Runs s₀ as₁ s₁ os₁ → C os₁ s₁ a := by
  induction h with
  | init =>
    refine iff_of_true .init fun as₁ a as₂ s₁ os₁ has _ => ?_
    simp at has
  | @snoc as s os a s' o hrun hs ih =>
    constructor
    · intro hmeeting as₁ b as₂ s₁ os₁ has hrun₁
      obtain ⟨s₂, os₂, o₂, hmeeting, hC, -, -⟩ := RunsMeeting.of_snoc as hmeeting
      cases as₂ using List.reverseRecOn with
      | nil =>
        obtain ⟨rfl, hab⟩ := List.append_inj' has rfl
        obtain rfl : a = b := by simpa using hab
        obtain ⟨rfl, rfl⟩ := hrun₁.deterministic hmeeting.runs
        exact hC
      | append_singleton as₂ c =>
        rw [← List.cons_append, ← List.append_assoc] at has
        obtain ⟨has, -⟩ := List.append_inj' has rfl
        obtain ⟨rfl, rfl⟩ := hrun.deterministic hmeeting.runs
        exact ih.mp hmeeting as₁ b as₂ s₁ os₁ has hrun₁
    · intro hall
      refine .snoc (ih.mpr fun as₁ b as₂ s₁ os₁ has hrun₁ => ?_) (hall as a [] s os rfl hrun) hs
      have has' : as ++ [a] = as₁ ++ b :: (as₂ ++ [a]) := by
        rw [has, List.append_assoc, List.cons_append]
      exact hall as₁ b (as₂ ++ [a]) s₁ os₁ has' hrun₁

/-- **Exact conditions**: where a step from a state of the invariant, a relation between the
operations done, the outputs and the state, leads to such a state exactly when it meets the
condition, a run meets the condition throughout exactly when the invariant holds throughout. -/
theorem Runs.meeting_iff_history {C : List ω → σ → α → Prop} {I : List α → List ω → σ → Prop}
    (hinit : I [] [] s₀)
    (hstep : ∀ as s os a s' o, M.Runs s₀ as s os → I as os s → M s a = .ok (s', o) →
      (I (as ++ [a]) (os ++ o) s' ↔ C os s a)) (h : M.Runs s₀ as s os) :
    M.RunsMeeting C s₀ as s os ↔
      ∀ as₁ as₂ s₁ os₁, as = as₁ ++ as₂ → M.Runs s₀ as₁ s₁ os₁ → I as₁ os₁ s₁ := by
  induction h with
  | init =>
    refine ⟨fun _ as₁ as₂ s₁ os₁ has hrun => ?_, fun _ => .init⟩
    obtain ⟨rfl, -⟩ := List.append_eq_nil_iff.mp has.symm
    obtain ⟨rfl, rfl⟩ := hrun.deterministic .init
    exact hinit
  | @snoc as s os a s' o hrun hs ih =>
    constructor
    · intro hmeeting
      obtain ⟨s₂, os₂, o₂, hmeeting, hC, -, -⟩ := RunsMeeting.of_snoc as hmeeting
      obtain ⟨rfl, rfl⟩ := hrun.deterministic hmeeting.runs
      have hall := ih.mp hmeeting
      have hI := hall as [] s os (by simp) hrun
      intro as₁ as₂ s₁ os₁ has hrun₁
      cases as₂ using List.reverseRecOn with
      | nil =>
        obtain rfl : as ++ [a] = as₁ := by simpa using has
        obtain ⟨rfl, rfl⟩ := hrun₁.deterministic (hrun.snoc hs)
        exact (hstep _ _ _ _ _ _ hrun hI hs).mpr hC
      | append_singleton as₂ b =>
        rw [← List.append_assoc] at has
        obtain ⟨has, -⟩ := List.append_inj' has rfl
        exact hall as₁ as₂ s₁ os₁ has hrun₁
    · intro hall
      have hall' : ∀ as₁ as₂ s₁ os₁, as = as₁ ++ as₂ → M.Runs s₀ as₁ s₁ os₁ →
          I as₁ os₁ s₁ :=
        fun as₁ as₂ s₁ os₁ has => hall as₁ (as₂ ++ [a]) s₁ os₁ (by rw [has, List.append_assoc])
      have hI := hall' as [] s os (by simp) hrun
      have hI' := hall (as ++ [a]) [] s' (os ++ o) (by simp) (hrun.snoc hs)
      exact .snoc (ih.mpr hall') ((hstep _ _ _ _ _ _ hrun hI hs).mp hI') hs

/-- Exact conditions, for an invariant that does not look at the operations done. -/
theorem Runs.meeting_iff {C : List ω → σ → α → Prop} {I : List ω → σ → Prop}
    (hinit : I [] s₀)
    (hstep : ∀ as s os a s' o, M.Runs s₀ as s os → I os s → M s a = .ok (s', o) →
      (I (os ++ o) s' ↔ C os s a)) (h : M.Runs s₀ as s os) :
    M.RunsMeeting C s₀ as s os ↔
      ∀ as₁ as₂ s₁ os₁, as = as₁ ++ as₂ → M.Runs s₀ as₁ s₁ os₁ → I os₁ s₁ :=
  Runs.meeting_iff_history (I := fun _ => I) hinit hstep h

theorem Runs.of_snoc (as : List α) (h : M.Runs s₀ (as ++ [a]) s os) :
    ∃ s₁ os₁ o, M.Runs s₀ as s₁ os₁ ∧ M s₁ a = .ok (s, o) ∧ os = os₁ ++ o := by
  obtain ⟨s₁, s₂, os₁, o, os₂, h₁, hstep, h₂, rfl⟩ := Runs.split_step h
  obtain ⟨rfl, rfl⟩ := h₂.deterministic .init
  exact ⟨s₁, os₁, o, h₁, hstep, by simp⟩

/-- **The invariant rule for runs that are to be there**: where each step of the operations is there
and keeps the invariant, there is a run of them. -/
theorem exists_run_of_invariant {I : List α → σ → List ω → Prop} (hinit : I [] s₀ [])
    (as : List α) (hstep : ∀ as₁ a as₂ s os, as = as₁ ++ a :: as₂ → M.Runs s₀ as₁ s os →
      I as₁ s os → ∃ s' o, M s a = .ok (s', o) ∧ I (as₁ ++ [a]) s' (os ++ o)) :
    ∃ s os, M.Runs s₀ as s os ∧ I as s os := by
  induction as using List.reverseRecOn with
  | nil => exact ⟨s₀, [], .init, hinit⟩
  | append_singleton as a ih =>
    obtain ⟨s, os, hrun, hI⟩ := ih fun as₁ b as₂ s os has =>
      hstep as₁ b (as₂ ++ [a]) s os (by rw [has, List.append_assoc, List.cons_append])
    obtain ⟨s', o, hs, hI'⟩ := hstep as a [] s os rfl hrun hI
    exact ⟨s', os ++ o, .snoc hrun hs, hI'⟩

/-- **Progress**: where a step that meets the condition does not fault and keeps the
invariant, a run whose steps all meet the condition is there and ends in the invariant. -/
theorem exists_run_of_steps {I : σ → Prop} {C : σ → α → Prop} (hinit : I s₀)
    (hstep : ∀ s a, I s → C s a → ∃ s' o, M s a = .ok (s', o) ∧ I s') (as : List α)
    (hC : ∀ as₁ a as₂, as = as₁ ++ a :: as₂ → ∀ s os, M.Runs s₀ as₁ s os → C s a) :
    ∃ s os, M.Runs s₀ as s os ∧ I s :=
  exists_run_of_invariant (I := fun _ s _ => I s) hinit as fun as₁ a as₂ s os has hrun hI =>
    hstep s a hI (hC as₁ a as₂ has s os hrun)

/-- **Exact progress**: where a step from a state of the invariant is there exactly when it meets
the condition, a run is there exactly when each of its steps meets the condition. -/
theorem exists_run_iff {I : σ → Prop} {C : σ → α → Prop} (hinit : I s₀)
    (hkeep : ∀ s a s' o, I s → M s a = .ok (s', o) → I s')
    (hstep : ∀ s a, I s → ((∃ s' o, M s a = .ok (s', o)) ↔ C s a)) (as : List α) :
    (∃ s os, M.Runs s₀ as s os) ↔
      ∀ as₁ a as₂, as = as₁ ++ a :: as₂ → ∀ s os, M.Runs s₀ as₁ s os → C s a := by
  constructor
  · rintro ⟨s, os, hrun⟩ as₁ a as₂ rfl s₁ os₁ hrun₁
    obtain ⟨s₁', s₂, os₁', o, os₂, hrun₁', hs, -, -⟩ := hrun.split_step
    obtain ⟨rfl, rfl⟩ := hrun₁.deterministic hrun₁'
    have hI : I s₁ := hrun₁.invariant (I := fun _ s _ => I s) hinit fun _ _ _ _ _ _ => hkeep _ _ _ _
    exact (hstep s₁ a hI).mp ⟨s₂, o, hs⟩
  · intro hC
    obtain ⟨s, os, hrun, -⟩ := exists_run_of_steps (I := I) (C := C) hinit (fun s a hI hC => by
      obtain ⟨s', o, hs⟩ := (hstep s a hI).mpr hC
      exact ⟨s', o, hs, hkeep s a s' o hI hs⟩) as hC
    exact ⟨s, os, hrun⟩

/-! ### Conditions met on the way -/

/-- Some step of the run over `as` **met** the condition `P` on the state before the step
and the operation. -/
def Met (M : Machine σ α ω ε) (s₀ : σ) (as : List α) (P : σ → α → Prop) : Prop :=
  ∃ as₁ a as₂ s₁ os₁, as = as₁ ++ a :: as₂ ∧ M.Runs s₀ as₁ s₁ os₁ ∧ P s₁ a

variable {P : σ → α → Prop}

theorem not_met_nil : ¬ M.Met s₀ [] P := by
  rintro ⟨as₁, a, as₂, s₁, os₁, has, -⟩
  simp at has

/-- One step later, the condition has been met before or is met now. -/
theorem met_snoc (h : M.Runs s₀ as s os) :
    M.Met s₀ (as ++ [a]) P ↔ M.Met s₀ as P ∨ P s a := by
  constructor
  · rintro ⟨as₁, b, as₂, s₁, os₁, has, hrun, hP⟩
    cases as₂ using List.reverseRecOn with
    | nil =>
      obtain ⟨rfl, hab⟩ := List.append_inj' has rfl
      obtain rfl : a = b := by simpa using hab
      obtain ⟨rfl, -⟩ := h.deterministic hrun
      exact .inr hP
    | append_singleton as₂ c =>
      rw [← List.cons_append, ← List.append_assoc] at has
      obtain ⟨rfl, -⟩ := List.append_inj' has rfl
      exact .inl ⟨as₁, b, as₂, s₁, os₁, rfl, hrun, hP⟩
  · rintro (⟨as₁, b, as₂, s₁, os₁, rfl, hrun, hP⟩ | hP)
    · exact ⟨as₁, b, as₂ ++ [a], s₁, os₁, by simp, hrun, hP⟩
    · exact ⟨as, a, [], s, os, rfl, h, hP⟩

/-- A condition that follows from one that was met was met. -/
theorem Met.imp {Q : σ → α → Prop} (h : M.Met s₀ as P)
    (himp : ∀ as s os a, M.Runs s₀ as s os → P s a → Q s a) : M.Met s₀ as Q := by
  obtain ⟨as₁, a, as₂, s₁, os₁, has, hrun, hP⟩ := h
  exact ⟨as₁, a, as₂, s₁, os₁, has, hrun, himp _ _ _ _ hrun hP⟩

end Machine

/-! ### Step relations with outputs -/

section StepsOf

variable {σ ω : Type*} {R R' : σ → List ω → σ → Prop} {s s₁ s₂ : σ} {os o : List ω}

/-- `StepsOf R s os s'`: finitely many `R`-steps lead from `s` to `s'` and emit `os`. -/
inductive StepsOf (R : σ → List ω → σ → Prop) (s : σ) : List ω → σ → Prop
  | refl : StepsOf R s [] s
  | tail {os : List ω} {s₁ : σ} {o : List ω} {s₂ : σ} :
      StepsOf R s os s₁ → R s₁ o s₂ → StepsOf R s (os ++ o) s₂

theorem StepsOf.single (h : R s o s₁) : StepsOf R s o s₁ := by
  simpa using StepsOf.refl.tail h

theorem StepsOf.trans (h₁ : StepsOf R s os s₁) (h₂ : StepsOf R s₁ o s₂) :
    StepsOf R s (os ++ o) s₂ := by
  induction h₂ with
  | refl => simpa using h₁
  | tail _ hstep ih =>
    rw [← List.append_assoc]
    exact ih.tail hstep

theorem StepsOf.imp (h : StepsOf R s os s₁) (himp : ∀ s o s', R s o s' → R' s o s') :
    StepsOf R' s os s₁ := by
  induction h with
  | refl => exact .refl
  | tail _ hstep ih => exact ih.tail (himp _ _ _ hstep)

/-- **The invariant rule**: a relation between the outputs so far and the state that holds
initially and is preserved by every step holds at the end. -/
theorem StepsOf.invariant {I : List ω → σ → Prop} (h : StepsOf R s os s₁) (hinit : I [] s)
    (hstep : ∀ os s o s', I os s → R s o s' → I (os ++ o) s') : I os s₁ := by
  induction h with
  | refl => exact hinit
  | tail _ hs ih => exact hstep _ _ _ _ ih hs

end StepsOf

end MtkHardware
