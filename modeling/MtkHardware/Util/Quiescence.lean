import Mathlib.Data.Set.Insert
import Mathlib.Logic.Relation
import Mathlib.Algebra.Ring.Int.Defs
import Mathlib.Algebra.Ring.Nat

/-!
# Quiescence by Votes

Parties work, send each other work, and vote that they are done. A message is on its way for some
time after its target has got the work, and withdraws the vote of its target on its way. A party
votes while it has no messages on their way, and has nothing to do but what a message will yet
withdraw its vote for.

A party that has voted and has something to do is then the target of a message that has yet to
withdraw its vote, and was so when it sent a message that is still on its way: such a message comes
after another one. The first message is of a party that has not voted. Where all parties have
voted, there are no messages, and nobody has anything to do.

## Main results

* `Ballot.Covered.step`: every step keeps this.
* `Ballot.Covered.quiescent`: there is nothing to do where all have voted.
-/

namespace MtkHardware

/-- Work on its way from one party to another. -/
structure Ballot.Message (ι : Type*) where
  source : ι
  target : ι
  /-- Has it yet to withdraw the vote of its target? -/
  withdraws : Bool

structure Ballot (ι : Type*) where
  /-- The parties that have something to do. -/
  active : Set ι
  voted : Set ι
  /-- The messages on their way, in the order in which they have been sent. -/
  messages : List (Ballot.Message ι)

namespace Ballot

variable {ι : Type*} {b b' : Ballot ι} {m m' : Message ι} {i : ι} {k : ℕ}

/-- Will a message withdraw the vote of the party? -/
def Withdrawing (messages : List (Message ι)) (i : ι) : Prop :=
  ∃ m ∈ messages, m.withdraws = true ∧ m.target = i

inductive Step (b b' : Ballot ι) : Prop
  /-- Parties get done, or withdraw their votes. -/
  | rest : b'.active ⊆ b.active → b'.voted ⊆ b.voted → b'.messages = b.messages → Step b b'
  /-- A party that has something to do sends a message. -/
  | send (m : Message ι) :
      m.source ∈ b.active → m.withdraws = true → b'.active ⊆ insert m.target b.active →
      b'.voted ⊆ b.voted → b'.messages = b.messages ++ [m] → Step b b'
  /-- A message moves on, and is done with the vote of its target only while there is none. -/
  | carry (k : ℕ) (m m' : Message ι) :
      b.messages[k]? = some m → m'.source = m.source → m'.target = m.target →
      (m.target ∈ b.voted → m.withdraws = true → m'.withdraws = true) →
      b'.active ⊆ b.active → b'.voted ⊆ b.voted → b'.messages = b.messages.set k m' → Step b b'
  /-- A message arrives, and is done with the vote of its target. -/
  | arrive (k : ℕ) (m : Message ι) :
      b.messages[k]? = some m → (m.target ∈ b.voted → m.withdraws = false) →
      b'.active ⊆ b.active → b'.voted ⊆ b.voted → b'.messages = b.messages.eraseIdx k → Step b b'
  /-- A party votes. -/
  | vote (i : ι) :
      (∀ m ∈ b.messages, m.source ≠ i) → (i ∈ b.active → Withdrawing b.messages i) →
      b'.active ⊆ b.active → b'.voted ⊆ insert i b.voted → b'.messages = b.messages → Step b b'
  /-- All votes are forgotten. -/
  | restart : b'.voted = ∅ → Step b b'

/-- A vote of a party that has something to do, or messages on their way, will be withdrawn, by an
earlier message than those. -/
structure Covered (b : Ballot ι) : Prop where
  active : ∀ i ∈ b.active, i ∈ b.voted → Withdrawing b.messages i
  messages : ∀ k m, b.messages[k]? = some m → m.source ∈ b.voted →
    Withdrawing (b.messages.take k) m.source

theorem withdrawing_iff {messages : List (Message ι)} : Withdrawing messages i ↔
    ∃ (k : ℕ) (m : Message ι), messages[k]? = some m ∧ m.withdraws = true ∧ m.target = i := by
  constructor
  · rintro ⟨m, hmem, hm⟩
    obtain ⟨k, hk⟩ := List.getElem?_of_mem hmem
    exact ⟨k, m, hk, hm⟩
  · rintro ⟨k, m, hk, hm⟩
    exact ⟨m, List.mem_of_getElem? hk, hm⟩

theorem withdrawing_take_iff {messages : List (Message ι)} : Withdrawing (messages.take k) i ↔
    ∃ j < k, ∃ m : Message ι, messages[j]? = some m ∧ m.withdraws = true ∧ m.target = i := by
  rw [withdrawing_iff]
  constructor
  · rintro ⟨j, m, hj, hm⟩
    rw [List.getElem?_take] at hj
    split_ifs at hj with hlt
    exact ⟨j, hlt, m, hj, hm⟩
  · rintro ⟨j, hlt, m, hj, hm⟩
    exact ⟨j, m, by rw [List.getElem?_take, if_pos hlt, hj], hm⟩

/-- Fewer parties with something to do, and fewer votes. -/
theorem Covered.mono (h : b.Covered) (hactive : b'.active ⊆ b.active)
    (hvoted : b'.voted ⊆ b.voted) (hmessages : b'.messages = b.messages) : b'.Covered where
  active i hi hv := hmessages ▸ h.active i (hactive hi) (hvoted hv)
  messages k m hk hv := by
    rw [hmessages] at hk ⊢
    exact h.messages k m hk (hvoted hv)

theorem Covered.send (h : b.Covered) (hsource : m.source ∈ b.active)
    (hwithdraws : m.withdraws = true) :
    ({ b with active := insert m.target b.active, messages := b.messages ++ [m] } :
      Ballot ι).Covered where
  active i hi hv := by
    obtain rfl | hi := hi
    · exact ⟨m, by simp, hwithdraws, rfl⟩
    · obtain ⟨m', hmem, hm'⟩ := h.active i hi hv
      exact ⟨m', List.mem_append_left _ hmem, hm'⟩
  messages k m' hk hv := by
    rcases lt_or_ge k b.messages.length with hlt | hge
    · rw [List.getElem?_append_left hlt] at hk
      rw [List.take_append_of_le_length hlt.le]
      exact h.messages k m' hk hv
    · -- the new message, whose source has something to do
      rw [List.getElem?_append_right hge] at hk
      obtain ⟨hk0, rfl⟩ : k - b.messages.length = 0 ∧ m = m' := by
        simpa [List.getElem?_singleton] using hk
      obtain rfl : k = b.messages.length := by omega
      rw [List.take_left']
      · exact h.active _ hsource hv
      · rfl

theorem Covered.carry (h : b.Covered) (hk : b.messages[k]? = some m)
    (hsource : m'.source = m.source) (htarget : m'.target = m.target)
    (hdone : m.target ∈ b.voted → m.withdraws = true → m'.withdraws = true) :
    ({ b with messages := b.messages.set k m' } : Ballot ι).Covered := by
  -- a message that withdraws a vote still does, unless there is no vote
  have hkeep : ∀ (j : ℕ) (mj : Message ι), b.messages[j]? = some mj → mj.withdraws = true →
      mj.target ∈ b.voted → ∃ mj' : Message ι, (b.messages.set k m')[j]? = some mj' ∧
        mj'.withdraws = true ∧ mj'.target = mj.target := by
    intro j mj hj hw hv
    rw [List.getElem?_set]
    split_ifs with hkj hlt
    · obtain rfl : m = mj := by
        subst hkj
        exact Option.some.inj (hk.symm.trans hj)
      exact ⟨m', rfl, hdone hv hw, htarget⟩
    · obtain ⟨hlt', -⟩ := List.getElem?_eq_some_iff.mp hk
      omega
    · exact ⟨mj, hj, hw, rfl⟩
  refine ⟨fun i hi hv => ?_, fun j mj hj hv => ?_⟩
  · obtain ⟨n, mn, hn, hw, rfl⟩ := withdrawing_iff.mp (h.active i hi hv)
    obtain ⟨mn', hn', hw', ht⟩ := hkeep n mn hn hw hv
    exact withdrawing_iff.mpr ⟨n, mn', hn', hw', ht⟩
  · obtain ⟨mj₀, hj₀, hsrc⟩ : ∃ mj₀, b.messages[j]? = some mj₀ ∧ mj₀.source = mj.source := by
      rw [List.getElem?_set] at hj
      split_ifs at hj with hkj hlt
      · cases hj
        exact ⟨m, hkj ▸ hk, hsource.symm⟩
      · exact ⟨mj, hj, rfl⟩
    rw [← hsrc] at hv ⊢
    obtain ⟨n, hn, mn, hmn, hw, ht⟩ := withdrawing_take_iff.mp (h.messages j mj₀ hj₀ hv)
    obtain ⟨mn', hmn', hw', ht'⟩ := hkeep n mn hmn hw (ht ▸ hv)
    exact withdrawing_take_iff.mpr ⟨n, hn, mn', hmn', hw', ht'.trans ht⟩

theorem Covered.arrive (h : b.Covered) (hk : b.messages[k]? = some m)
    (hdone : m.target ∈ b.voted → m.withdraws = false) :
    ({ b with messages := b.messages.eraseIdx k } : Ballot ι).Covered := by
  -- the message that arrives withdraws no vote
  have hne : ∀ (j : ℕ) (mj : Message ι), b.messages[j]? = some mj → mj.withdraws = true →
      mj.target ∈ b.voted → j ≠ k := by
    rintro j mj hj hw hv rfl
    obtain rfl : m = mj := Option.some.inj (hk.symm.trans hj)
    rw [hdone hv] at hw
    cases hw
  refine ⟨fun i hi hv => ?_, fun j mj hj hv => ?_⟩
  · obtain ⟨n, mn, hn, hw, rfl⟩ := withdrawing_iff.mp (h.active i hi hv)
    have hnk := hne n mn hn hw hv
    exact ⟨mn, List.mem_eraseIdx_iff_getElem?.mpr ⟨n, hnk, hn⟩, hw, rfl⟩
  · rw [List.getElem?_eraseIdx] at hj
    split_ifs at hj with hlt
    · obtain ⟨n, hn, mn, hmn, hw, ht⟩ := withdrawing_take_iff.mp (h.messages j mj hj hv)
      refine withdrawing_take_iff.mpr ⟨n, hn, mn, ?_, hw, ht⟩
      rw [List.getElem?_eraseIdx, if_pos (hn.trans hlt), hmn]
    · obtain ⟨n, hn, mn, hmn, hw, ht⟩ := withdrawing_take_iff.mp (h.messages (j + 1) mj hj hv)
      have hnk := hne n mn hmn hw (ht ▸ hv)
      rcases lt_or_gt_of_ne hnk with hlt' | hgt
      · refine withdrawing_take_iff.mpr ⟨n, by omega, mn, ?_, hw, ht⟩
        rw [List.getElem?_eraseIdx, if_pos hlt', hmn]
      · refine withdrawing_take_iff.mpr ⟨n - 1, by omega, mn, ?_, hw, ht⟩
        rw [List.getElem?_eraseIdx, if_neg (by omega), Nat.sub_add_cancel (by omega), hmn]

theorem Covered.vote (h : b.Covered) (hsource : ∀ m ∈ b.messages, m.source ≠ i)
    (hactive : i ∈ b.active → Withdrawing b.messages i) :
    ({ b with voted := insert i b.voted } : Ballot ι).Covered where
  active j hj hv := by
    obtain rfl | hv := hv
    · exact hactive hj
    · exact h.active j hj hv
  messages k m hk hv := by
    obtain hi | hv := hv
    · exact absurd hi (hsource m (List.mem_of_getElem? hk))
    · exact h.messages k m hk hv

/-- **Every step** keeps the votes covered. -/
theorem Covered.step (h : b.Covered) (hstep : b.Step b') : b'.Covered := by
  cases hstep with
  | rest hactive hvoted hmessages => exact h.mono hactive hvoted hmessages
  | send m hsource hwithdraws hactive hvoted hmessages =>
    exact (h.send hsource hwithdraws).mono hactive hvoted hmessages
  | carry k m m' hk hsource htarget hdone hactive hvoted hmessages =>
    exact (h.carry hk hsource htarget hdone).mono hactive hvoted hmessages
  | arrive k m hk hdone hactive hvoted hmessages =>
    exact (h.arrive hk hdone).mono hactive hvoted hmessages
  | vote i hsource hvote hactive hvoted hmessages =>
    exact (h.vote hsource hvote).mono hactive hvoted hmessages
  | restart hvoted =>
    refine ⟨fun i _ hv => ?_, fun k m _ hv => ?_⟩
    · rw [hvoted] at hv
      exact absurd hv (Set.notMem_empty i)
    · rw [hvoted] at hv
      exact absurd hv (Set.notMem_empty m.source)

theorem Covered.steps (h : b.Covered) (hsteps : Relation.ReflTransGen Step b b') :
    b'.Covered := by
  induction hsteps with
  | refl => exact h
  | tail _ hstep ih => exact ih.step hstep

/-- **Quiescence**: where the sources of all messages have voted, there are no messages, and no
party that has voted has anything to do. -/
theorem Covered.quiescent (h : b.Covered) (hall : ∀ m ∈ b.messages, m.source ∈ b.voted) :
    b.messages = [] ∧ ∀ i ∈ b.voted, i ∉ b.active := by
  have hnil : b.messages = [] := by
    cases hmessages : b.messages with
    | nil => rfl
    | cons m ms =>
      rw [hmessages] at hall
      obtain ⟨m', hmem, -⟩ := h.messages 0 m (by rw [hmessages]; rfl) (hall m (by simp))
      cases hmem
  refine ⟨hnil, fun i hv hi => ?_⟩
  obtain ⟨m, hmem, -⟩ := h.active i hi hv
  rw [hnil] at hmem
  cases hmem

end Ballot

end MtkHardware
