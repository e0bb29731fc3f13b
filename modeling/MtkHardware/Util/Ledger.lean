import MtkHardware.Util.Run
import Mathlib.Data.List.Count
import Mathlib.Data.List.Nodup
import Mathlib.Data.List.Perm.Basic

/-!
# Ledgers

A `Ledger` tells which items a state of a machine holds, and which items an output brings in or
takes out. A step **flows** if what the state holds after it and what it takes out are what the
state held and what it brings in; a run **balances** if this holds from its beginning.

## Main results

* `Ledger.balanced_append_iff`: a balanced run that goes on balances exactly when it flows.
* `Ledger.balanced_of_runs`: runs whose steps flow balance.
* `Ledger.balanced_iff`: exact conditions for a run to balance throughout.
* `Ledger.Balanced.count_eq_one`: distinct items are in exactly one place.
-/

namespace MtkHardware

/-- What a state holds, and what an output brings in and takes out. -/
structure Ledger (σ ω β : Type*) where
  content : σ → List β
  inflow : ω → List β
  outflow : ω → List β

namespace Ledger

variable {σ α ω β ε : Type*} {L : Ledger σ ω β} {s₀ s s₁ s' : σ} {os o o₁ : List ω} {b : β}

/-- **A step flows.** -/
def Flows (L : Ledger σ ω β) (s : σ) (o : List ω) (s' : σ) : Prop :=
  (L.content s' ++ o.flatMap L.outflow).Perm (L.content s ++ o.flatMap L.inflow)

/-- **A run balances.** -/
def Balanced (L : Ledger σ ω β) (s₀ s : σ) (os : List ω) : Prop := L.Flows s₀ os s

theorem flows_iff_count [DecidableEq β] : L.Flows s o s' ↔ ∀ b,
    (L.content s').count b + (o.flatMap L.outflow).count b =
      (L.content s).count b + (o.flatMap L.inflow).count b := by
  rw [Flows, List.perm_iff_count]
  simp only [List.count_append]

theorem Flows.refl (L : Ledger σ ω β) (s : σ) : L.Flows s [] s := List.Perm.refl _

/-- A step that holds the same items, brings in none and takes out none. -/
theorem Flows.of_eq (hcontent : L.content s' = L.content s) (hin : o.flatMap L.inflow = [])
    (hout : o.flatMap L.outflow = []) : L.Flows s o s' := by
  rw [Flows, hcontent, hin, hout]

/-- A step that loses items flows exactly if there are none. -/
theorem flows_iff_of_lost {lost : List β}
    (h : (L.content s' ++ o.flatMap L.outflow ++ lost).Perm
      (L.content s ++ o.flatMap L.inflow)) : L.Flows s o s' ↔ lost = [] := by
  refine ⟨fun hflows => ?_, fun hlost => ?_⟩
  · have hlength := h.length_eq
    rw [List.length_append, hflows.length_eq] at hlength
    exact List.length_eq_zero_iff.mp (by omega)
  · rwa [hlost, List.append_nil] at h

theorem flows_append_iff (h : L.Flows s o s₁) : L.Flows s (o ++ o₁) s' ↔ L.Flows s₁ o₁ s' := by
  classical
  rw [flows_iff_count] at h ⊢
  rw [flows_iff_count]
  refine forall_congr' fun b => ?_
  have hb := h b
  rw [List.flatMap_append, List.flatMap_append, List.count_append, List.count_append]
  omega

theorem Flows.trans (h : L.Flows s o s₁) (h₁ : L.Flows s₁ o₁ s') : L.Flows s (o ++ o₁) s' :=
  (flows_append_iff h).mpr h₁

/-- A balanced run that goes on balances exactly when it flows. -/
theorem balanced_append_iff (h : L.Balanced s₀ s os) :
    L.Balanced s₀ s' (os ++ o) ↔ L.Flows s o s' :=
  flows_append_iff h

/-- **Runs whose steps flow balance.** -/
theorem balanced_of_runs {M : Machine σ α ω ε} {C : List ω → σ → α → Prop} {as : List α}
    (hstep : ∀ as s os a s' o, M.RunsMeeting C s₀ as s os → C os s a → M s a = .ok (s', o) →
      L.Flows s o s') (h : M.RunsMeeting C s₀ as s os) : L.Balanced s₀ s os := by
  induction h with
  | init => exact .refl L s₀
  | snoc hrun hC hs ih => exact (balanced_append_iff ih).mpr (hstep _ _ _ _ _ _ hrun hC hs)

/-- **Exact conditions for a run to balance throughout.** -/
theorem balanced_iff {M : Machine σ α ω ε} {C : List ω → σ → α → Prop} {as : List α}
    (hstep : ∀ as s os a s' o, M.Runs s₀ as s os → M s a = .ok (s', o) →
      (L.Flows s o s' ↔ C os s a)) (h : M.Runs s₀ as s os) :
    (∀ as₁ as₂ s₁ os₁, as = as₁ ++ as₂ → M.Runs s₀ as₁ s₁ os₁ → L.Balanced s₀ s₁ os₁) ↔
      M.RunsMeeting C s₀ as s os := by
  refine (h.meeting_iff (I := fun os s => L.Balanced s₀ s os) (.refl L s₀) ?_).symm
  intro as s os a s' o hrun hbalanced hs
  rw [balanced_append_iff hbalanced]
  exact hstep as s os a s' o hrun hs

/-- **Distinct items are in exactly one place**: in a state that a balanced run from an empty
one reaches, an item that has been brought in is held once or has been taken out once. -/
theorem Balanced.count_eq_one [DecidableEq β] (h : L.Balanced s₀ s os)
    (hempty : L.content s₀ = []) (hnodup : (os.flatMap L.inflow).Nodup)
    (hb : b ∈ os.flatMap L.inflow) :
    (L.content s).count b + (os.flatMap L.outflow).count b = 1 := by
  have hcount := flows_iff_count.mp h b
  rw [hempty, List.count_nil, List.count_eq_one_of_mem hnodup hb] at hcount
  omega

theorem Balanced.count_eq_zero [DecidableEq β] (h : L.Balanced s₀ s os)
    (hempty : L.content s₀ = []) (hb : b ∉ os.flatMap L.inflow) :
    (L.content s).count b + (os.flatMap L.outflow).count b = 0 := by
  have hcount := flows_iff_count.mp h b
  rw [hempty, List.count_nil, List.count_eq_zero_of_not_mem hb] at hcount
  omega

end Ledger

end MtkHardware
