import Mathlib.Algebra.Order.Group.Int
import Mathlib.Tactic.Common
import Mathlib.Data.List.Forall2
import Mathlib.Data.List.Induction
import Mathlib.Algebra.Ring.Int.Defs
import Mathlib.Algebra.Ring.Nat

/-!
# Computations with Checked Accesses

A computation in `Except` that faults where an index lies outside of its array. `Yields x P` is its
total specification: the computation does not fault, and `P` holds of its result. The rules follow
the constructors of the monad, and a loop over a list has an invariant.

## Main results

* `Yields.bind`, `Yields.map`, `Yields.mono`: the rules of composition and of consequence.
* `yields_readAt`, `yields_writeAt`: an access within the bounds.
* `writeAt_iff`: an access faults exactly outside of the bounds.
* `take_set_succ`: what has been written so far.
* `writePair_spec`: two writes one behind the other.
* `Yields.foldlM`: **the invariant rule** for a loop over a list.
* `mapM_ok_iff`: a loop that collects its results.
-/

namespace MtkHardware

universe u

variable {ε : Type*} {α β : Type u} {x : Except ε α} {f : α → Except ε β} {P : α → Prop}
  {Q : β → Prop}

/-- The computation does not fault, and the predicate holds of its result. -/
def Yields (x : Except ε α) (P : α → Prop) : Prop := ∃ a, x = .ok a ∧ P a

theorem yields_ok {a : α} : Yields (.ok a : Except ε α) P ↔ P a := by
  simp [Yields]

theorem yields_pure {a : α} : Yields (pure a : Except ε α) P ↔ P a := yields_ok

/-- **The rule of composition.** -/
theorem Yields.bind (hx : Yields x P) (hf : ∀ a, P a → Yields (f a) Q) : Yields (x >>= f) Q := by
  obtain ⟨a, rfl, ha⟩ := hx
  exact hf a ha

theorem Yields.map {g : α → β} (hx : Yields x P) (hg : ∀ a, P a → Q (g a)) :
    Yields (g <$> x) Q := by
  obtain ⟨a, rfl, ha⟩ := hx
  exact ⟨g a, rfl, hg a ha⟩

/-- **The rule of consequence.** -/
theorem Yields.mono {P' : α → Prop} (hx : Yields x P) (h : ∀ a, P a → P' a) : Yields x P' := by
  obtain ⟨a, ha, hP⟩ := hx
  exact ⟨a, ha, h a hP⟩

/-- What is known of every result is known of the result. -/
theorem Yields.of_ok {a : α} (hx : Yields x P) (h : x = .ok a) : P a := by
  obtain ⟨b, hb, hP⟩ := hx
  rw [h] at hb
  cases hb
  exact hP

/-- A sequence does not fault exactly when neither of its parts does. -/
theorem bind_ok_iff {b : β} : (x >>= f) = .ok b ↔ ∃ a, x = .ok a ∧ f a = .ok b := by
  cases x with
  | error e => exact ⟨fun h => (nomatch h), fun ⟨_, h, _⟩ => (nomatch h)⟩
  | ok a => exact ⟨fun h => ⟨a, rfl, h⟩, fun ⟨_, h, hb⟩ => by cases h; exact hb⟩

/-- A loop that collects its results does not fault exactly when none of its steps does. -/
theorem mapM_ok_iff {as : List α} {bs : List β} :
    as.mapM f = .ok bs ↔ List.Forall₂ (fun a b => f a = .ok b) as bs := by
  induction as generalizing bs with
  | nil =>
    rw [List.mapM_nil, List.forall₂_nil_left_iff]
    exact ⟨fun h => (Except.ok.inj h).symm, fun h => h ▸ rfl⟩
  | cons a as ih =>
    rw [List.mapM_cons, bind_ok_iff, List.forall₂_cons_left_iff]
    constructor
    · rintro ⟨b, hb, h⟩
      obtain ⟨bs', hbs', h⟩ := bind_ok_iff.mp h
      obtain rfl := Except.ok.inj h
      exact ⟨b, bs', hb, ih.mp hbs', rfl⟩
    · rintro ⟨b, bs', hb, hbs', rfl⟩
      exact ⟨b, hb, bind_ok_iff.mpr ⟨bs', ih.mpr hbs', rfl⟩⟩

/-- **The invariant rule** for a loop over a list. -/
theorem Yields.foldlM {g : β → α → Except ε β} {I : β → Prop} {as : List α} {b : β} (hinit : I b)
    (hstep : ∀ a ∈ as, ∀ b, I b → Yields (g b a) I) : Yields (as.foldlM g b) I := by
  induction as generalizing b with
  | nil => exact yields_pure.mpr hinit
  | cons a as ih =>
    rw [List.foldlM_cons]
    exact (hstep a (by simp) b hinit).bind fun b' hb' =>
      ih hb' fun a' ha' => hstep a' (List.mem_cons_of_mem a ha')

/-! ### Arrays -/

section Arrays

variable {n : ℕ} (fault : ε) (xs : Vector α n) (i : ℤ) (a : α)

/-- The element at an index. -/
def readAt : Except ε α :=
  if h : 0 ≤ i ∧ i < n then .ok xs[i.toNat] else .error fault

/-- The array with another element at an index. -/
def writeAt : Except ε (Vector α n) :=
  if h : 0 ≤ i ∧ i < n then .ok (xs.set i.toNat a (by omega)) else .error fault

variable {fault xs i a}

theorem readAt_eq (h₀ : 0 ≤ i) (h : i < n) : readAt fault xs i = .ok xs[i.toNat] :=
  dif_pos ⟨h₀, h⟩

theorem writeAt_eq (h₀ : 0 ≤ i) (h : i < n) :
    writeAt fault xs i a = .ok (xs.set i.toNat a (by omega)) := dif_pos ⟨h₀, h⟩

theorem writeAt_natCast {k : ℕ} (h : k < n) : writeAt fault xs k a = .ok (xs.set k a h) := by
  rw [writeAt_eq (by omega) (by omega)]
  rfl

theorem yields_readAt (h₀ : 0 ≤ i) (h : i < n) : Yields (readAt fault xs i) fun _ => True :=
  ⟨_, readAt_eq h₀ h, trivial⟩

theorem yields_writeAt (h₀ : 0 ≤ i) (h : i < n) : Yields (writeAt fault xs i a) fun _ => True :=
  ⟨_, writeAt_eq h₀ h, trivial⟩

theorem writeAt_iff : Yields (writeAt fault xs i a) (fun _ => True) ↔ 0 ≤ i ∧ i < n := by
  refine ⟨fun ⟨b, hb, _⟩ => ?_, fun ⟨h₀, h⟩ => yields_writeAt h₀ h⟩
  by_contra h
  rw [writeAt, dif_neg h] at hb
  cases hb

theorem readAt_of_writeAt {j : ℤ} {ys : Vector α n} (h : writeAt fault xs i a = .ok ys)
    (hij : i ≠ j) : readAt fault ys j = readAt fault xs j := by
  rw [writeAt] at h
  split at h
  · cases h
    simp only [readAt, Vector.getElem_set]
    refine dite_congr rfl (fun hj => ?_) fun _ => rfl
    rw [if_neg (by omega)]
  · cases h

/-- What has been written so far, with one more element. -/
theorem take_set_succ {k : ℕ} (hk : k < n) :
    (xs.set k a hk).toList.take (k + 1) = xs.toList.take k ++ [a] := by
  have hlength : (xs.toList.take k).length = k := by
    rw [List.length_take, Vector.length_toList]
    omega
  rw [Vector.toList_set, List.set_eq_take_append_cons_drop, if_pos (by simpa using hk),
    List.take_append, hlength, List.take_of_length_le (by omega)]
  simp

theorem writeAt_error {k : ℕ} (h : n ≤ k) : writeAt fault xs k a = .error fault := by
  rw [writeAt, dif_neg (by omega)]

/-- What has been written so far stays when the next element is written. -/
theorem take_set_self {k : ℕ} (hk : k < n) :
    (xs.set k a hk).toList.take k = xs.toList.take k := by
  rw [Vector.toList_set, List.take_set_of_le (Nat.le_refl k)]

/-- The array with two other elements from an index on. -/
def writePair (fault : ε) (xs : Vector α n) (k : ℕ) (a b : α) : Except ε (Vector α n) := do
  let xs ← writeAt fault xs k a
  writeAt fault xs ((k + 1 : ℕ) : ℤ) b

/-- Two elements are written, or there is no room for them. -/
theorem writePair_spec (fault : ε) (xs : Vector α n) (k : ℕ) (a b : α) :
    (k + 2 ≤ n ∧ ∃ xs', writePair fault xs k a b = .ok xs' ∧
      xs'.toList.take (k + 2) = xs.toList.take k ++ [a, b]) ∨
    (n < k + 2 ∧ writePair fault xs k a b = .error fault) := by
  rw [writePair]
  by_cases h₁ : k < n
  · rw [writeAt_natCast h₁]
    by_cases h₂ : k + 1 < n
    · refine .inl ⟨h₂, (xs.set k a h₁).set (k + 1) b h₂, writeAt_natCast h₂, ?_⟩
      rw [take_set_succ h₂, take_set_succ h₁, List.append_assoc]
      rfl
    · exact .inr ⟨by omega, writeAt_error (by omega)⟩
  · rw [writeAt_error (by omega)]
    exact .inr ⟨by omega, rfl⟩

end Arrays

end MtkHardware
