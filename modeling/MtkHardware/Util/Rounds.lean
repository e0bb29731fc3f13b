import MtkHardware.Util.Checked

/-!
# Loops by Their Rounds

A `Loop` is the body of a `while`: from a state a round fails, goes on with a next state, or ends
the loop with a result. `Loop.Comes` is the relation of the states that the rounds come to, and
`Loop.run` is the evaluator, which is given a number of rounds.

A loop with a variant, a number that every round which goes on makes smaller, does not need more
rounds than its variant: the evaluator then ends as the last round does.

## Main results

* `Loop.Comes.invariant`: **the invariant rule** for the states that the rounds come to.
* `Loop.run_eq_error_iff`: the evaluator ends as the last round does.
* `Loop.Comes.exists_run`, `Loop.exists_run_error_iff`: the same of a loop that may not end.
* `Loop.yields_run_iff`: the loop yields a result exactly when no round that is come to fails.
* `Loop.yields_run_iff_of_settles`: **the rule of exact failures**.
-/

namespace MtkHardware

universe u

/-- A **loop**: a round fails, goes on, or ends. -/
def Loop (σ β : Type u) (ε : Type*) := σ → Except ε (σ ⊕ β)

namespace Loop

variable {σ β : Type u} {ε : Type*} {L : Loop σ β ε} {endless : ε} {v : σ → ℕ} {n : ℕ}
  {s s' t : σ} {b : β} {e : ε} {Q : β → Prop}

/-- The rounds from `s` come to a state. -/
inductive Comes (L : Loop σ β ε) (s : σ) : σ → Prop
  | start : Comes L s s
  | round {t t' : σ} : Comes L s t → L t = .ok (.inl t') → Comes L s t'

/-- The loop, for so many rounds. -/
def run (L : Loop σ β ε) (endless : ε) : ℕ → σ → Except ε β
  | 0, _ => .error endless
  | n + 1, s =>
    match L s with
    | .error e => .error e
    | .ok (.inl s') => run L endless n s'
    | .ok (.inr b) => .ok b

theorem run_succ : L.run endless (n + 1) s =
    match L s with
    | .error e => .error e
    | .ok (.inl s') => L.run endless n s'
    | .ok (.inr b) => .ok b := rfl

theorem run_of_error (h : L s = .error e) : L.run endless (n + 1) s = .error e := by
  rw [run_succ, h]

theorem run_of_next (h : L s = .ok (.inl s')) :
    L.run endless (n + 1) s = L.run endless n s' := by
  rw [run_succ, h]

theorem run_of_end (h : L s = .ok (.inr b)) : L.run endless (n + 1) s = .ok b := by
  rw [run_succ, h]

/-- The **variant** of a loop. -/
def Decreases (L : Loop σ β ε) (v : σ → ℕ) : Prop :=
  ∀ ⦃s s'⦄, L s = .ok (.inl s') → v s' < v s

theorem Comes.trans (h : L.Comes s s') (h' : L.Comes s' t) : L.Comes s t := by
  induction h' with
  | start => exact h
  | round _ hround ih => exact ih.round hround

theorem Comes.head (hround : L s = .ok (.inl s')) (h : L.Comes s' t) : L.Comes s t :=
  (Comes.start.round hround).trans h

/-- **The invariant rule.** -/
theorem Comes.invariant {I : σ → Prop} (h : L.Comes s t) (hinit : I s)
    (hround : ∀ t t', I t → L t = .ok (.inl t') → I t') : I t := by
  induction h with
  | start => exact hinit
  | round _ hs ih => exact hround _ _ ih hs

/-- The states that are come to are the first one and those from the next one. -/
theorem comes_iff : L.Comes s t ↔ s = t ∨ ∃ s', L s = .ok (.inl s') ∧ L.Comes s' t := by
  constructor
  · intro h
    induction h with
    | start => exact .inl rfl
    | round _ hround ih =>
      rcases ih with rfl | ⟨s', hs, hcomes⟩
      · exact .inr ⟨_, hround, .start⟩
      · exact .inr ⟨s', hs, hcomes.round hround⟩
  · rintro (rfl | ⟨s', hs, hcomes⟩)
    · exact .start
    · exact hcomes.head hs

theorem run_ok_of_comes (hv : L.Decreases v) (h : L.Comes s t) (hend : L t = .ok (.inr b))
    (hn : v s < n) : L.run endless n s = .ok b := by
  induction n generalizing s with
  | zero => exact absurd hn (Nat.not_lt_zero _)
  | succ n ih =>
    rcases comes_iff.mp h with rfl | ⟨s', hs, hcomes⟩
    · exact run_of_end hend
    · have hlt := hv hs
      rw [run_of_next hs]
      exact ih hcomes (by omega)

theorem run_error_of_comes (hv : L.Decreases v) (h : L.Comes s t) (hfail : L t = .error e)
    (hn : v s < n) : L.run endless n s = .error e := by
  induction n generalizing s with
  | zero => exact absurd hn (Nat.not_lt_zero _)
  | succ n ih =>
    rcases comes_iff.mp h with rfl | ⟨s', hs, hcomes⟩
    · exact run_of_error hfail
    · have hlt := hv hs
      rw [run_of_next hs]
      exact ih hcomes (by omega)

/-- The evaluator ends as it does from a state that is come to. -/
theorem Comes.exists_run (h : L.Comes s t) (ht : ∃ n, L.run endless n t = .ok b) :
    ∃ n, L.run endless n s = .ok b := by
  induction h with
  | start => exact ht
  | @round t t' _ hround ih =>
    obtain ⟨n, hn⟩ := ht
    exact ih ⟨n + 1, (run_of_next hround).trans hn⟩

/-- A result of the evaluator is that of a round which is come to. -/
theorem exists_comes_of_run_ok (h : L.run endless n s = .ok b) :
    ∃ t, L.Comes s t ∧ L t = .ok (.inr b) := by
  induction n generalizing s with
  | zero => cases h
  | succ n ih =>
    rcases hs : L s with e | s' | b'
    · rw [run_of_error hs] at h
      cases h
    · rw [run_of_next hs] at h
      obtain ⟨t, hcomes, hend⟩ := ih h
      exact ⟨t, hcomes.head hs, hend⟩
    · rw [run_of_end hs] at h
      cases h
      exact ⟨s, .start, hs⟩

/-- However many rounds there are, there is one result. -/
theorem run_ok_unique {m : ℕ} {b' : β} (h : L.run endless n s = .ok b)
    (h' : L.run endless m s = .ok b') : b = b' := by
  induction n generalizing s m with
  | zero => cases h
  | succ n ih =>
    cases m with
    | zero => cases h'
    | succ m =>
      rcases hs : L s with e | s' | b₁
      · rw [run_of_error hs] at h
        cases h
      · rw [run_of_next hs] at h h'
        exact ih h h'
      · rw [run_of_end hs] at h h'
        exact (Except.ok.inj h).symm.trans (Except.ok.inj h')

theorem run_ok_mono {m : ℕ} (hnm : n ≤ m) (h : L.run endless n s = .ok b) :
    L.run endless m s = .ok b := by
  induction n generalizing s m with
  | zero => cases h
  | succ n ih =>
    obtain ⟨m, rfl⟩ : ∃ k, m = k + 1 := ⟨m - 1, by omega⟩
    rcases hs : L s with e | s' | b₁
    · rw [run_of_error hs] at h
      cases h
    · rw [run_of_next hs] at h ⊢
      exact ih (by omega) h
    · rw [run_of_end hs] at h ⊢
      exact h

theorem run_error_ne_ok {m : ℕ} (he : e ≠ endless) (h : L.run endless n s = .error e)
    (h' : L.run endless m s = .ok b) : False := by
  induction n generalizing s m with
  | zero => exact he (Except.error.inj h).symm
  | succ n ih =>
    cases m with
    | zero => cases h'
    | succ m =>
      rcases hs : L s with e₁ | s' | b₁
      · rw [run_of_error hs] at h'
        cases h'
      · rw [run_of_next hs] at h h'
        exact ih h h'
      · rw [run_of_end hs] at h
        cases h

theorem exists_run_error_iff (he : e ≠ endless) :
    (∃ n, L.run endless n s = .error e) ↔ ∃ t, L.Comes s t ∧ L t = .error e := by
  constructor
  · rintro ⟨n, h⟩
    induction n generalizing s with
    | zero =>
      cases h
      exact absurd rfl he
    | succ n ih =>
      rcases hs : L s with e₁ | s' | b₁
      · rw [run_of_error hs] at h
        cases h
        exact ⟨s, .start, hs⟩
      · rw [run_of_next hs] at h
        obtain ⟨t, hcomes, hfail⟩ := ih h
        exact ⟨t, hcomes.head hs, hfail⟩
      · rw [run_of_end hs] at h
        cases h
  · rintro ⟨t, hcomes, hfail⟩
    have hlast : ∃ n, L.run endless n t = .error e := ⟨1, run_of_error hfail⟩
    clear hfail
    induction hcomes with
    | start => exact hlast
    | @round t t' _ hround ih =>
      obtain ⟨n, hn⟩ := hlast
      exact ih ⟨n + 1, (run_of_next hround).trans hn⟩

theorem exists_last (hv : L.Decreases v) (s : σ) :
    ∃ t, L.Comes s t ∧ ((∃ b, L t = .ok (.inr b)) ∨ ∃ e, L t = .error e) := by
  induction hk : v s using Nat.strong_induction_on generalizing s with
  | _ k ih =>
    cases hs : L s with
    | error e => exact ⟨s, .start, .inr ⟨e, hs⟩⟩
    | ok r =>
      cases r with
      | inr b => exact ⟨s, .start, .inl ⟨b, hs⟩⟩
      | inl s' =>
        obtain ⟨t, hcomes, hlast⟩ := ih (v s') (hk ▸ hv hs) s' rfl
        exact ⟨t, hcomes.head hs, hlast⟩

theorem run_eq_error_iff (hv : L.Decreases v) (hn : v s < n) :
    L.run endless n s = .error e ↔ ∃ t, L.Comes s t ∧ L t = .error e := by
  refine ⟨fun h => ?_, fun ⟨t, hcomes, hfail⟩ => run_error_of_comes hv hcomes hfail hn⟩
  obtain ⟨t, hcomes, ⟨b, hend⟩ | ⟨e', hfail⟩⟩ := exists_last hv s
  · rw [run_ok_of_comes hv hcomes hend hn] at h
    cases h
  · rw [run_error_of_comes hv hcomes hfail hn] at h
    cases h
    exact ⟨t, hcomes, hfail⟩

/-- A failure is that of the first round, or comes behind it. -/
theorem exists_error_iff : (∃ t, L.Comes s t ∧ L t = .error e) ↔
    L s = .error e ∨ ∃ s', L s = .ok (.inl s') ∧ ∃ t, L.Comes s' t ∧ L t = .error e := by
  constructor
  · rintro ⟨t, hcomes, hfail⟩
    rcases comes_iff.mp hcomes with rfl | ⟨s', hs, hcomes⟩
    · exact .inl hfail
    · exact .inr ⟨s', hs, t, hcomes, hfail⟩
  · rintro (hfail | ⟨s', hs, t, hcomes, hfail⟩)
    · exact ⟨s, .start, hfail⟩
    · exact ⟨t, hcomes.head hs, hfail⟩

/-- The loop yields a result of a kind exactly when no round that is come to fails and the last one
ends with a result of the kind. -/
theorem yields_run_iff (hv : L.Decreases v) (hn : v s < n) :
    Yields (L.run endless n s) Q ↔
      ∀ t, L.Comes s t → (∀ e, L t ≠ .error e) ∧ ∀ b, L t = .ok (.inr b) → Q b := by
  constructor
  · rintro ⟨b, hb, hQ⟩ t hcomes
    refine ⟨fun e hfail => ?_, fun b' hend => ?_⟩
    · rw [run_error_of_comes hv hcomes hfail hn] at hb
      cases hb
    · rw [run_ok_of_comes hv hcomes hend hn] at hb
      cases hb
      exact hQ
  · intro h
    obtain ⟨t, hcomes, ⟨b, hend⟩ | ⟨e, hfail⟩⟩ := exists_last hv s
    · exact ⟨b, run_ok_of_comes hv hcomes hend hn, (h t hcomes).2 b hend⟩
    · exact absurd hfail ((h t hcomes).1 e)

/-! ### Exact failures -/

/-- A round fails exactly under the condition; otherwise it keeps the invariant, or ends well. -/
def Settles (F : Prop) (I : σ → Prop) (Q : β → Prop) : Except ε (σ ⊕ β) → Prop
  | .error _ => F
  | .ok (.inl s) => ¬ F ∧ I s
  | .ok (.inr b) => ¬ F ∧ Q b

theorem Settles.congr {F F' : Prop} {I : σ → Prop} {r : Except ε (σ ⊕ β)}
    (h : Settles F I Q r) (hF : F ↔ F') : Settles F' I Q r := by
  rwa [← propext hF]

/-- **The rule of exact failures**: a loop whose rounds fail exactly under a condition yields a
result exactly when it comes to no state of the condition. -/
theorem yields_run_iff_of_settles {I F : σ → Prop} (hv : L.Decreases v) (hn : v s < n)
    (hinit : I s) (hround : ∀ t, I t → Settles (F t) I Q (L t)) :
    Yields (L.run endless n s) Q ↔ ∀ t, L.Comes s t → ¬ F t := by
  have hkept : ∀ t, L.Comes s t → I t := fun t hcomes =>
    hcomes.invariant hinit fun t t' ht hgo => by
      have hsettles := hround t ht
      rw [hgo] at hsettles
      exact hsettles.2
  rw [yields_run_iff hv hn]
  constructor
  · intro h t hcomes hF
    have hsettles := hround t (hkept t hcomes)
    rcases hr : L t with e | s' | b
    · exact (h t hcomes).1 e hr
    · rw [hr] at hsettles
      exact hsettles.1 hF
    · rw [hr] at hsettles
      exact hsettles.1 hF
  · intro h t hcomes
    have hsettles := hround t (hkept t hcomes)
    refine ⟨fun e hfail => ?_, fun b hend => ?_⟩
    · rw [hfail] at hsettles
      exact h t hcomes hsettles
    · rw [hend] at hsettles
      exact hsettles.2

end Loop

end MtkHardware
