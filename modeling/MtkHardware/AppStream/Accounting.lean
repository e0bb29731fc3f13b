import MtkHardware.AppStream.RequestError
import Mathlib.Logic.Relation

/-!
# Item Accounting

The states of the items, the counters of their sets, and the verdict on a frame that is made
of the counters. An item that has been released is set to `NULL` and keeps its place in the
counters; a ledger beside the handler remembers the last state of each metadata item.
-/

namespace MtkHardware.AppStream

open Pipeline (StreamId)
open Relation (ReflTransGen)

inductive State.Step : State → State → Prop
  | inFlight_preRelease : Step .inFlight .preRelease
  | inFlight_valid : Step .inFlight .valid
  | inFlight_error : Step .inFlight .error
  | preRelease_valid : Step .preRelease .valid
  | preRelease_error : Step .preRelease .error

theorem State.eq_of_settled {st st' : State} (h : ReflTransGen State.Step st st')
    (hst : st = .valid ∨ st = .error) : st' = st := by
  induction h with
  | refl => rfl
  | tail _ hstep ih =>
    rw [ih] at hstep
    rcases hst with rfl | rfl <;> cases hstep

theorem State.step_settle {st st' : State} (hvalid : st ≠ .valid) (herror : st ≠ .error)
    (hst' : st' = .valid ∨ st' = .error) : State.Step st st' := by
  cases st with
  | inFlight => rcases hst' with rfl | rfl <;> constructor
  | preRelease => rcases hst' with rfl | rfl <;> constructor
  | valid => exact absurd rfl hvalid
  | error => exact absurd rfl herror

def MetaStreamBuffer.ValidNow (env : BufferEnv) (b : MetaStreamBuffer) : Prop :=
  b.streamType ≠ .metaIn ∧ (env.metadata b.handle).haveAllProducerUsersReleased = true ∧
    (env.metadata b.handle).hasStatusError = false

def ImageItem.ValidNow (env : BufferEnv) (i : ImageItem) : Prop :=
  ((i.state = .inFlight ∧
      (env.image i.buffer.handle).getAllUsersStatus = Pipeline.UserStatus.release) ∨
    (i.state = .preRelease ∧ (env.image i.buffer.handle).haveAllUsersReleased = true)) ∧
  (env.image i.buffer.handle).hasStatusError = false

instance (env : BufferEnv) (b : MetaStreamBuffer) : Decidable (b.ValidNow env) :=
  inferInstanceAs (Decidable (_ ∧ _ ∧ _))

instance (env : BufferEnv) (i : ImageItem) : Decidable (i.ValidNow env) :=
  inferInstanceAs (Decidable ((_ ∨ _) ∧ _))

namespace FrameHandler

variable {s s' s₁ s₂ : FrameHandler} {cbs o : List CallbackParcel} {cb : CallbackParcel}
  {f g : FramePtr} {a : Bool} {k : StreamId} {p : ImagePtr} {env : BufferEnv} {r : ResultItem}
  {n : ℕ} {streams : List StreamId} {ops : List Op} {op : Op} {st : State}

/-! ### Images -/

/-- The image items stay in their sets and move along the documented transitions. -/
structure ImagesMoved (s s' : FrameHandler) : Prop where
  numItems : s.numItems ≤ s'.numItems
  pFrame : ∀ p < s.numItems, (s'.items p).pFrame = (s.items p).pFrame
  asInput : ∀ p < s.numItems, (s'.items p).asInput = (s.items p).asInput
  state : ∀ p < s.numItems, ReflTransGen State.Step (s.items p).state (s'.items p).state

theorem ImagesMoved.refl (s : FrameHandler) : ImagesMoved s s :=
  ⟨Nat.le_refl _, fun _ _ => rfl, fun _ _ => rfl, fun _ _ => .refl⟩

theorem ImagesMoved.trans (h₁ : ImagesMoved s s₁) (h₂ : ImagesMoved s₁ s') : ImagesMoved s s' where
  numItems := h₁.numItems.trans h₂.numItems
  pFrame p hp := (h₂.pFrame p (hp.trans_le h₁.numItems)).trans (h₁.pFrame p hp)
  asInput p hp := (h₂.asInput p (hp.trans_le h₁.numItems)).trans (h₁.asInput p hp)
  state p hp := (h₁.state p hp).trans (h₂.state p (hp.trans_le h₁.numItems))

theorem ImagesMoved.of_update {i : ImageItem} (hitems : s'.items = Function.update s.items p i)
    (hnum : s'.numItems = s.numItems) (hpFrame : i.pFrame = (s.items p).pFrame)
    (hasInput : i.asInput = (s.items p).asInput)
    (hstate : State.Step (s.items p).state i.state) : ImagesMoved s s' := by
  refine ⟨hnum.ge, fun q _ => ?_, fun q _ => ?_, fun q _ => ?_⟩ <;>
    rw [hitems, Function.update_apply] <;> split_ifs with hq
  · rw [hq, hpFrame]
  · rfl
  · rw [hq, hasInput]
  · rfl
  · rw [hq]
    exact .single hstate
  · exact .refl

theorem imagesMoved_of_step {l : List CallbackParcel.ImageItem} (h : ImageStep s l s') :
    ImagesMoved s s' := by
  cases h with
  | pass hpass =>
    have hkeeps := hpass.keeps
    exact ⟨hkeeps.numItems.ge, fun p _ => hkeeps.pFrame p, fun p _ => hkeeps.asInput p,
      fun p _ => hkeeps.state p ▸ .refl⟩
  | pushFrame frameNo =>
    exact ⟨Nat.le_refl _, fun _ _ => rfl, fun _ _ => rfl, fun _ _ => .refl⟩
  | registerItem hnew hf hstream hkey hdir =>
    refine ⟨Nat.le_succ _, fun p hp => ?_, fun p hp => ?_, fun p hp => ?_⟩ <;>
      rw [items_registerItem, if_neg (Nat.ne_of_lt hp)]
  | releaseHandler env hp hvalid herror =>
    rw [releaseHandler]
    dsimp only
    split
    · exact .of_update rfl rfl rfl rfl (State.step_settle hvalid herror (.inr rfl))
    · exact .of_update rfl rfl rfl rfl (State.step_settle hvalid herror (.inl rfl))
  | preReleaseHandler env hp hstate =>
    exact .of_update rfl rfl rfl rfl (hstate ▸ .inFlight_preRelease)

/-- **Image items move along the documented transitions.** -/
theorem imagesMoved_of_steps {l : List CallbackParcel.ImageItem}
    (h : StepsOf ImageStep s l s') : ImagesMoved s s' :=
  h.invariant (I := fun _ s' => ImagesMoved s s') (.refl s) fun _ _ _ _ hmoved hstep =>
    hmoved.trans (imagesMoved_of_step hstep)

theorem countItems_le (h : ImagesMoved s s') (hst : st = .valid ∨ st = .error) :
    (s.countItems f a fun i => i.state = st) ≤ s'.countItems f a fun i => i.state = st := by
  have hsame : (s.countItems f a fun i => i.state = st) ≤
      (List.range s.numItems).countP fun p => (s'.items p).inSet f a fun i => i.state = st := by
    refine List.countP_mono_left fun p hp hin => ?_
    rw [List.mem_range] at hp
    simp only [ImageItem.inSet, Bool.and_eq_true, decide_eq_true_eq] at hin ⊢
    obtain ⟨⟨hframe, hdir⟩, hstate⟩ := hin
    refine ⟨⟨(h.pFrame p hp).trans hframe, (h.asInput p hp).trans hdir⟩, ?_⟩
    rw [State.eq_of_settled (h.state p hp) (hstate ▸ hst), hstate]
  exact hsame.trans (List.range_sublist.mpr h.numItems).countP_le

theorem all_errors_of_moved (hinv : s.ImageInvariant) (hinv' : s'.ImageInvariant)
    (h : ImagesMoved s s') (hnum : s'.numItems = s.numItems)
    (hall : (s.itemSet f a).numErrorStreams = (s.itemSet f a).items.size) :
    (s'.itemSet f a).numErrorStreams = (s'.itemSet f a).items.size ∧
      (s'.itemSet f a).numValidStreams = 0 := by
  have herror : ∀ p < s'.numItems, (s'.items p).pFrame = f → (s'.items p).asInput = a →
      (s'.items p).state = .error := fun p hp hframe hdir => by
    rw [hnum] at hp
    rw [h.pFrame p hp] at hframe
    rw [h.asInput p hp] at hdir
    have hcount := (hinv.set f a).error.symm.trans hall
    have hstate := hinv.forall_of_countItems hcount hp hframe hdir
    rw [decide_eq_true_eq] at hstate
    rw [State.eq_of_settled (h.state p hp) (.inr hstate), hstate]
  constructor
  · rw [(hinv'.set f a).error, (hinv'.set f a).size, countItems, countItems]
    refine List.countP_congr fun p hp => ?_
    by_cases hin : (s'.items p).pFrame = f ∧ (s'.items p).asInput = a
    · simp [ImageItem.inSet, hin, herror p (List.mem_range.mp hp) hin.1 hin.2]
    · simp [ImageItem.inSet, hin]
  · rw [(hinv'.set f a).valid, countItems, List.countP_eq_zero]
    intro p hp hin
    simp only [ImageItem.inSet, Bool.and_eq_true, decide_eq_true_eq] at hin
    rw [herror p (List.mem_range.mp hp) hin.1.1 hin.1.2] at hin
    cases hin.2

/-! ### Metadata -/

def holds (st : State) : Option (Option MetaItem) → Bool
  | some (some i) => i.state = st
  | _ => false

def liveMetas (s : FrameHandler) (f : FramePtr) (st : State) : ℕ :=
  (s.metaSet f).items.keys.countP fun k => holds st (s.metaEntry f k)

/-- The metadata items of a frame move along the documented transitions, and the counters
follow them; items are added and not lost. -/
structure MetaMoved (s s' : FrameHandler) (f : FramePtr) : Prop where
  cleared : ∀ k, s'.metaEntry f k = some none ↔ s.metaEntry f k = some none
  live : ∀ k i, s.metaEntry f k = some (some i) → ∃ i', s'.metaEntry f k = some (some i') ∧
    i'.buffer = i.buffer ∧ ReflTransGen State.Step i.state i'.state
  valid : (s'.metaSet f).numValidStreams + s.liveMetas f .valid =
    (s.metaSet f).numValidStreams + s'.liveMetas f .valid
  error : (s'.metaSet f).numErrorStreams + s.liveMetas f .error =
    (s.metaSet f).numErrorStreams + s'.liveMetas f .error
  errorLe : (s.metaSet f).numErrorStreams ≤ (s'.metaSet f).numErrorStreams

theorem MetaMoved.trans (h₁ : MetaMoved s s₁ f) (h₂ : MetaMoved s₁ s' f) : MetaMoved s s' f where
  cleared k := (h₂.cleared k).trans (h₁.cleared k)
  live k i hi := by
    obtain ⟨i₁, hi₁, hbuffer₁, hstate₁⟩ := h₁.live k i hi
    obtain ⟨i', hi', hbuffer, hstate⟩ := h₂.live k i₁ hi₁
    exact ⟨i', hi', hbuffer.trans hbuffer₁, hstate₁.trans hstate⟩
  valid := by
    have hvalid₁ := h₁.valid
    have hvalid₂ := h₂.valid
    omega
  error := by
    have herror₁ := h₁.error
    have herror₂ := h₂.error
    omega
  errorLe := h₁.errorLe.trans h₂.errorLe

theorem MetaMoved.of_sameMeta (h : SameMeta (s.frames f) (s'.frames f)) : MetaMoved s s' f := by
  have hset : s'.metaSet f = s.metaSet f := h.set
  have hlive : ∀ st, s'.liveMetas f st = s.liveMetas f st := fun st => by
    rw [liveMetas, liveMetas, hset]
    simp only [metaEntry_of_sameMeta h]
  refine ⟨fun k => by rw [metaEntry_of_sameMeta h], fun k i hi => ⟨i, ?_, rfl, .refl⟩, ?_, ?_,
    by rw [hset]⟩
  · rw [metaEntry_of_sameMeta h, hi]
  · rw [hset, hlive]
  · rw [hset, hlive]

def FreshStreams (s : FrameHandler) (f : FramePtr) (r : ResultItem) : Prop :=
  ∀ k ∈ r.streams, s.metaEntry f k = none

theorem mem_keys_metaSet : k ∈ (s.metaSet f).items.keys ↔ ∃ e, s.metaEntry f k = some e :=
  KeyedVector.mem_keys_iff

theorem holds_eq_true {e : Option (Option MetaItem)} :
    holds st e = true ↔ ∃ i, e = some (some i) ∧ i.state = st := by
  rcases e with _ | _ | i
  · simp [holds]
  · simp [holds]
  · simp [holds]

theorem update_of_settled {i : MetaItem} (h : i.state = .valid ∨ i.state = .error) :
    i.update env = i := by
  rw [MetaItem.update, if_neg]
  rintro ⟨hvalid, herror, -⟩
  exact h.elim hvalid herror

theorem update_step (env : BufferEnv) (i : MetaItem) :
    ReflTransGen State.Step i.state (i.update env).state := by
  by_cases hready : i.isReady env
  · rw [MetaItem.update, if_pos hready]
    refine .single (State.step_settle hready.1 hready.2.1 ?_)
    cases (env.metadata i.buffer.handle).hasStatusError with
    | true => exact .inr rfl
    | false => exact .inl rfl
  · rw [MetaItem.update, if_neg hready]

/-- **Applying a result of fresh streams.** -/
theorem metaMoved_applyResult (env : BufferEnv) (hfresh : s.FreshStreams f r) (g : FramePtr) :
    MetaMoved s (applyResult env f r s) g := by
  have happlied := metaApplied_applyResult env f r s
  by_cases hg : g = f
  swap
  · exact .of_sameMeta (happlied.frames g hg)
  subst hg
  obtain ⟨s₁, hadded, hentry, hkeys, -, hvalid, herror⟩ := happlied.set
  have hnull : ∀ k, s₁.metaEntry g k = some none ↔ s.metaEntry g k = some none := fun k => by
    by_cases hk : k ∈ r.streams
    · obtain ⟨i, hi, -⟩ := hadded.new k hk
      rw [hi, hfresh k hk]
      simp
    · rw [hadded.old k hk]
  have hholds : ∀ st, st = .valid ∨ st = .error → ∀ k,
      holds st (s₁.metaEntry g k) = holds st (s.metaEntry g k) := fun st hst k => by
    by_cases hk : k ∈ r.streams
    · -- a new item is in flight
      obtain ⟨i, hi, -, -, hstate, -⟩ := hadded.new k hk
      rw [hi, hfresh k hk]
      rcases hst with rfl | rfl <;> simp [holds, hstate]
    · rw [hadded.old k hk]
  have hupdate : ∀ st, st = .valid ∨ st = .error → ∀ k,
      holds st ((applyResult env g r s).metaEntry g k) =
        (holds st (s₁.metaEntry g k) || becomes env st (s₁.metaEntry g k)) ∧
      (holds st (s₁.metaEntry g k) && becomes env st (s₁.metaEntry g k)) = false :=
    fun st hst k => by
      rw [hentry]
      rcases s₁.metaEntry g k with _ | _ | i
      · exact ⟨rfl, rfl⟩
      · exact ⟨rfl, rfl⟩
      · by_cases hi : i.state = st
        · have hsame : i.update env = i := update_of_settled (hi ▸ hst)
          simp [holds, becomes, hsame, hi]
        · simp [holds, becomes, hi]
  -- what is live after the result was live before, or has become so
  have hlive : ∀ st, st = .valid ∨ st = .error → (applyResult env g r s).liveMetas g st =
      s.liveMetas g st +
        (s₁.metaSet g).items.keys.countP fun k => becomes env st (s₁.metaEntry g k) :=
    fun st hst => by
      have hold : s.liveMetas g st =
          (s₁.metaSet g).items.keys.countP fun k => holds st (s₁.metaEntry g k) := by
        rw [liveMetas]
        simp only [hholds st hst]
        refine countP_eq_of_nodup (s.metaSet g).items.nodup_keys (s₁.metaSet g).items.nodup_keys
          fun k hk => ?_
        have hk₁ := hk
        rw [← hholds st hst] at hk₁
        obtain ⟨i, hi, -⟩ := holds_eq_true.mp hk
        obtain ⟨i₁, hi₁, -⟩ := holds_eq_true.mp hk₁
        exact iff_of_true (mem_keys_metaSet.mpr ⟨_, hi⟩) (mem_keys_metaSet.mpr ⟨_, hi₁⟩)
      rw [hold, liveMetas, hkeys]
      exact countP_eq_add fun k _ => hupdate st hst k
  refine ⟨fun k => ?_, fun k i hi => ?_, ?_, ?_, ?_⟩
  · rw [← hnull, hentry]
    rcases s₁.metaEntry g k with _ | _ | i
    · simp
    · simp
    · simp
  · have hk : k ∉ r.streams := fun hk => by
      rw [hfresh k hk] at hi
      cases hi
    refine ⟨i.update env, by rw [hentry, hadded.old k hk, hi]; rfl, ?_, update_step env i⟩
    rw [MetaItem.update]
    split_ifs <;> rfl
  · rw [hvalid, hadded.numValid, hlive .valid (.inl rfl)]
    omega
  · rw [herror, hadded.numError, hlive .error (.inr rfl)]
    omega
  · rw [herror, hadded.numError]
    exact Nat.le_add_right _ _

/-! ### The ledger -/

/-- The last known state of each metadata item, by frame and stream. -/
abbrev Ledger := FramePtr → StreamId → Option State

/-- Brings the ledger up to date. An item that has been set to `NULL` keeps its state. -/
def record (G : Ledger) (s : FrameHandler) : Ledger := fun f k =>
  match s.metaEntry f k with
  | some (some i) => some i.state
  | some none => G f k
  | none => none

/-- The number of the metadata items of a frame that are in a state, or were when they were
released. -/
def recordedMetas (s : FrameHandler) (G : Ledger) (f : FramePtr) (st : State) : ℕ :=
  (s.metaSet f).items.keys.countP fun k => decide (G f k = some st)

structure Balanced (s : FrameHandler) (G : Ledger) (f : FramePtr) : Prop where
  live : ∀ k i, s.metaEntry f k = some (some i) → G f k = some i.state
  valid : (s.metaSet f).numValidStreams = s.recordedMetas G f .valid
  error : (s.metaSet f).numErrorStreams = s.recordedMetas G f .error

/-- The metadata items that have been set to `NULL`, by the ledger. -/
def clearedMetas (s : FrameHandler) (G : Ledger) (f : FramePtr) (st : State) : ℕ :=
  (s.metaSet f).items.keys.countP fun k =>
    decide (s.metaEntry f k = some none) && decide (G f k = some st)

/-- An item in the ledger is live, or has been set to `NULL`. -/
theorem recordedMetas_eq {G : Ledger}
    (hlive : ∀ k i, s.metaEntry f k = some (some i) → G f k = some i.state) (st : State) :
    s.recordedMetas G f st = s.liveMetas f st + s.clearedMetas G f st := by
  refine countP_eq_add fun k hk => ?_
  obtain ⟨e, he⟩ := mem_keys_metaSet.mp hk
  cases e with
  | none => simp [holds, he]
  | some i => simp [holds, he, hlive k i he]

theorem record_live (G : Ledger) {i : MetaItem} (hi : s.metaEntry f k = some (some i)) :
    record G s f k = some i.state := by
  simp only [record, hi]

theorem record_cleared (G : Ledger) (hk : s.metaEntry f k = some none) :
    record G s f k = G f k := by
  simp only [record, hk]

theorem Balanced.moved {G : Ledger} (h : Balanced s G f) (hmoved : MetaMoved s s' f) :
    Balanced s' (record G s') f := by
  have hlive : ∀ k i, s'.metaEntry f k = some (some i) → record G s' f k = some i.state :=
    fun k i hi => record_live G hi
  have hcleared : ∀ st, s'.clearedMetas (record G s') f st = s.clearedMetas G f st := fun st => by
    have hsame : (s'.metaSet f).items.keys.countP (fun k =>
        decide (s.metaEntry f k = some none) && decide (G f k = some st)) =
          s.clearedMetas G f st := by
      refine countP_eq_of_nodup (s'.metaSet f).items.nodup_keys (s.metaSet f).items.nodup_keys
        fun k hk => ?_
      rw [Bool.and_eq_true, decide_eq_true_eq] at hk
      exact iff_of_true (mem_keys_metaSet.mpr ⟨_, (hmoved.cleared k).mpr hk.1⟩)
        (mem_keys_metaSet.mpr ⟨_, hk.1⟩)
    rw [← hsame, clearedMetas]
    refine List.countP_congr fun k _ => ?_
    by_cases hk : s'.metaEntry f k = some none
    · simp [hk, (hmoved.cleared k).mp hk, record_cleared G hk]
    · simp [hk, mt (hmoved.cleared k).mpr hk]
  have hold := recordedMetas_eq h.live
  refine ⟨hlive, ?_, ?_⟩
  · rw [recordedMetas_eq hlive, hcleared]
    have hvalid := hmoved.valid
    rw [h.valid, hold] at hvalid
    omega
  · rw [recordedMetas_eq hlive, hcleared]
    have herror := hmoved.error
    rw [h.error, hold] at herror
    omega

theorem Balanced.counts_le {G : Ledger} (h : Balanced s G f) :
    (s.metaSet f).numValidStreams + (s.metaSet f).numErrorStreams ≤ (s.metaSet f).items.size := by
  rw [h.valid, h.error, recordedMetas, recordedMetas, ← KeyedVector.length_keys, ← countP_eq_add
    (r := fun k => decide (G f k = some .valid) || decide (G f k = some .error)) fun k _ => ?_]
  · exact List.countP_le_length
  · refine ⟨rfl, ?_⟩
    cases G f k with
    | none => rfl
    | some st => cases st <;> rfl

structure MetaVisited (s s' : FrameHandler) (f : FramePtr) : Prop where
  keys : (s'.metaSet f).items.keys = (s.metaSet f).items.keys
  valid : (s'.metaSet f).numValidStreams = (s.metaSet f).numValidStreams
  error : (s'.metaSet f).numErrorStreams = (s.metaSet f).numErrorStreams
  live : ∀ k i', s'.metaEntry f k = some (some i') → ∃ i, s.metaEntry f k = some (some i) ∧
    i'.buffer = i.buffer ∧ i'.state = i.state

theorem MetaVisited.trans (h₁ : MetaVisited s s₁ f) (h₂ : MetaVisited s₁ s' f) :
    MetaVisited s s' f where
  keys := h₂.keys.trans h₁.keys
  valid := h₂.valid.trans h₁.valid
  error := h₂.error.trans h₁.error
  live k i' hi' := by
    obtain ⟨i₁, hi₁, hbuffer, hstate⟩ := h₂.live k i' hi'
    obtain ⟨i, hi, hbuffer₁, hstate₁⟩ := h₁.live k i₁ hi₁
    exact ⟨i, hi, hbuffer.trans hbuffer₁, hstate.trans hstate₁⟩

theorem MetaVisited.of_sameMeta (h : SameMeta (s.frames f) (s'.frames f)) : MetaVisited s s' f := by
  have hset : s'.metaSet f = s.metaSet f := h.set
  refine ⟨by rw [hset], by rw [hset], by rw [hset], fun k i hi => ⟨i, ?_, rfl, rfl⟩⟩
  rw [← metaEntry_of_sameMeta h, hi]

theorem Balanced.visited {G : Ledger} (h : Balanced s G f) (hvisited : MetaVisited s s' f) :
    Balanced s' (record G s') f := by
  have hsame : ∀ st, s'.recordedMetas (record G s') f st = s.recordedMetas G f st := fun st => by
    rw [recordedMetas, recordedMetas, hvisited.keys]
    refine List.countP_congr fun k hk => ?_
    rw [← hvisited.keys] at hk
    obtain ⟨e, he⟩ := mem_keys_metaSet.mp hk
    cases e with
    | none => rw [record_cleared G he]
    | some i' =>
      obtain ⟨i, hi, -, hstate⟩ := hvisited.live k i' he
      rw [record_live G he, h.live k i hi, hstate]
  exact ⟨fun k i hi => record_live G hi, by rw [hvisited.valid, h.valid, hsame],
    by rw [hvisited.error, h.error, hsame]⟩

/-! ### Verdicts -/

theorem verdict_pos_iff (frame : FrameParcel) : checkRequestError frame > 0 ↔
    frame.vOutputImageItem.numValidStreams = 0 ∧
      ¬ (frame.vOutputMetaItem.numValidStreams = frame.vOutputMetaItem.items.size ∧
        frame.vOutputMetaItem.hasLastPartial = true) ∧
      frame.vOutputImageItem.numErrorStreams = frame.vOutputImageItem.items.size ∧
      frame.vOutputMetaItem.numErrorStreams > 0 := by
  rw [checkRequestError]
  split_ifs with hnot herror
  · refine ⟨fun h => absurd h (by decide), fun h => ?_⟩
    rcases hnot with hvalid | hall
    · omega
    · exact absurd hall h.2.1
  · rw [not_or] at hnot
    exact ⟨fun _ => ⟨by omega, hnot.2, herror⟩, fun _ => by decide⟩
  · exact ⟨fun h => absurd h (by decide), fun h => absurd h.2.2 herror⟩

theorem verdict_neg_iff (s : FrameHandler) (f : FramePtr) : checkRequestError (s.frames f) < 0 ↔
    (s.itemSet f false).numValidStreams > 0 ∨
      (s.metaSet f).numValidStreams = (s.metaSet f).items.size ∧
        (s.metaSet f).hasLastPartial = true := by
  rw [checkRequestError, itemSet, metaSet]
  split_ifs with hnot herror
  · exact iff_of_true (by decide) hnot
  · exact iff_of_false (by decide) hnot
  · exact iff_of_false (by decide) hnot

def VerdictKept (s s' : FrameHandler) (f : FramePtr) : Prop :=
  (checkRequestError (s.frames f) > 0 → checkRequestError (s'.frames f) > 0) ∧
    (checkRequestError (s.frames f) < 0 → checkRequestError (s'.frames f) < 0)

theorem VerdictKept.of_eq
    (h : checkRequestError (s'.frames f) = checkRequestError (s.frames f)) :
    VerdictKept s s' f := by
  rw [VerdictKept, h]
  exact ⟨id, id⟩

theorem VerdictKept.trans (h₁ : VerdictKept s s₁ f) (h₂ : VerdictKept s₁ s' f) :
    VerdictKept s s' f :=
  ⟨fun h => h₂.1 (h₁.1 h), fun h => h₂.2 (h₁.2 h)⟩

theorem verdict_pos_of_moved {G : Ledger} (hinv : s.ImageInvariant) (hinv' : s'.ImageInvariant)
    (himages : ImagesMoved s s') (hnum : s'.numItems = s.numItems) (hmoved : MetaMoved s s' f)
    (hbalanced : Balanced s' G f) (h : checkRequestError (s.frames f) > 0) :
    checkRequestError (s'.frames f) > 0 := by
  rw [verdict_pos_iff] at h ⊢
  obtain ⟨-, -, herrors, hmetas⟩ := h
  obtain ⟨herrors', hvalid'⟩ := all_errors_of_moved (f := f) (a := false) hinv hinv' himages hnum
    herrors
  have hmetas' : (s'.frames f).vOutputMetaItem.numErrorStreams > 0 :=
    hmetas.trans_le hmoved.errorLe
  refine ⟨hvalid', fun hall => ?_, herrors', hmetas'⟩
  have hle : (s'.frames f).vOutputMetaItem.numValidStreams +
      (s'.frames f).vOutputMetaItem.numErrorStreams ≤
        (s'.frames f).vOutputMetaItem.items.size := hbalanced.counts_le
  omega

/-! ### The condition -/

/-- If the frame is not a request error, and only because all its metadata is valid, the
metadata of the result is valid too, or an output image becomes valid. -/
def DecisionKept (env : BufferEnv) (s : FrameHandler) (f : FramePtr) (r : ResultItem) : Prop :=
  checkRequestError (s.frames f) < 0 → (s.itemSet f false).numValidStreams = 0 →
    (∀ b ∈ r.buffer, b.ValidNow env) ∨
      ∃ k ∈ (s.itemSet f false).items.keys, ∃ p ∈ (s.entry f false k).join,
        (s.items p).ValidNow env

/-- **The condition for the accounting**: the streams of the metadata of a frame are
distinct, and no late metadata takes a decision back. -/
def AccountCondition : StepCondition where
  apply env s f r := s.FreshStreams f r ∧ DecisionKept env s f r

instance : Decidable (DecisionKept env s f r) :=
  inferInstanceAs (Decidable (_ → _ → (∀ b ∈ _, _) ∨ ∃ k ∈ _, ∃ p ∈ Option.join _, _))

instance : Decidable (s.FreshStreams f r) := inferInstanceAs (Decidable (∀ k ∈ _, _))

instance : Decidable (AccountCondition.apply env s f r) :=
  inferInstanceAs (Decidable (s.FreshStreams f r ∧ DecisionKept env s f r))

instance : Decidable (AccountCondition.visit env s f) := inferInstanceAs (Decidable True)

instance : Decidable (AccountCondition.removal s f) := inferInstanceAs (Decidable True)

/-! ### Applying a result -/

theorem items_releaseHandler (env : BufferEnv) (s : FrameHandler) (p q : ImagePtr)
    (hq : q ≠ p) : (releaseHandler env s p).items q = s.items q := by
  rw [releaseHandler]
  dsimp only
  split <;> rw [items_editItemSet, items_editItem, if_neg hq]

theorem entry_editItemSet_counters {h : ImageItemSet → ImageItemSet}
    (hset : ∀ set, (h set).items = set.items) (g : FramePtr) (b : Bool) :
    (s.editItemSet g b h).entry f a k = s.entry f a k := by
  rw [entry, itemSet_editItemSet]
  split_ifs with hself
  · rw [hset, entry, hself.1, hself.2]
  · rfl

theorem entry_releaseHandler (env : BufferEnv) (s : FrameHandler) (p : ImagePtr) :
    (releaseHandler env s p).entry f a k = s.entry f a k := by
  rw [releaseHandler]
  dsimp only
  split
  · refine (entry_editItemSet_counters ?_ _ _).trans rfl
    exact fun _ => rfl
  · refine (entry_editItemSet_counters ?_ _ _).trans rfl
    exact fun _ => rfl

theorem updateImageItem_other (env : BufferEnv) (hinv : s.ImageInvariant)
    (hentry : s.entry f a k = some (some p)) {k' : StreamId} (hk : k' ≠ k) :
    (updateImageItem env f a s k').items p = s.items p ∧
      (updateImageItem env f a s k').entry f a k = s.entry f a k := by
  rw [updateImageItem]
  split
  · rename_i q hq
    have hne : p ≠ q := by
      rintro rfl
      exact hk ((hinv.entry f a k' p hq).2.2.2.symm.trans (hinv.entry f a k p hentry).2.2.2)
    have hrelease := And.intro (items_releaseHandler env s q p hne)
      (entry_releaseHandler (f := f) (a := a) (k := k) env s q)
    have hpre : (preReleaseHandler env s q).items p = s.items p ∧
        (preReleaseHandler env s q).entry f a k = s.entry f a k :=
      ⟨by rw [preReleaseHandler, items_editItem, if_neg hne], rfl⟩
    dsimp only
    split
    · split_ifs
      · exact hrelease
      · exact hpre
      · exact ⟨rfl, rfl⟩
    · split_ifs
      · exact hrelease
      · exact ⟨rfl, rfl⟩
    · exact ⟨rfl, rfl⟩
  · exact ⟨rfl, rfl⟩

theorem updateImageItem_valid (hentry : s.entry f a k = some (some p))
    (hvalid : (s.items p).ValidNow env) :
    ((updateImageItem env f a s k).items p).state = .valid := by
  have hrelease : ((releaseHandler env s p).items p).state = .valid := by
    rw [releaseHandler]
    simp only [hvalid.2, Bool.false_eq_true, if_false]
    rw [items_editItemSet, items_editItem, if_pos rfl]
  rw [updateImageItem, show ((s.frames f).itemSet a).items.find? k = some (some p) from hentry]
  dsimp only
  rcases hvalid.1 with ⟨hstate, hstatus⟩ | ⟨hstate, hstatus⟩
  · simp only [hstate, hstatus, if_true]
    exact hrelease
  · simp only [hstate, hstatus, if_true]
    exact hrelease

/-- **An item that becomes valid.** -/
theorem state_updateImageItemSet (hinv : s.ImageInvariant)
    (hentry : s.entry f a k = some (some p)) (hvalid : (s.items p).ValidNow env) :
    ((updateImageItemSet env f a s).items p).state = .valid := by
  have hmem : k ∈ ((s.frames f).itemSet a).items.keys := KeyedVector.mem_keys_of_find? hentry
  rw [updateImageItemSet]
  generalize ((s.frames f).itemSet a).items.keys = ks at hmem
  induction ks generalizing s with
  | nil => simp at hmem
  | cons k' ks ih =>
    have hinv' := imageInvariant_of_steps (steps_updateImageItem env f a s k' hinv) hinv
    rw [List.foldl_cons]
    by_cases hk : k' = k
    · subst hk
      have hp := (hinv.entry f a k' p hentry).1
      have hturn := updateImageItem_valid hentry hvalid
      have hmoved := imagesMoved_of_steps (steps_updateImageItem env f a s k' hinv)
      have hrest := (imagesMoved_of_steps (steps_foldl (steps_updateImageItem env f a) ks
        hinv')).state p (hp.trans_le hmoved.numItems)
      rw [hturn] at hrest
      exact State.eq_of_settled hrest (.inl rfl)
    · obtain ⟨hitem, hsame⟩ := updateImageItem_other env hinv hentry hk
      exact ih hinv' (hsame.trans hentry) (hitem ▸ hvalid)
        ((List.mem_cons.mp hmem).resolve_left (Ne.symm hk))

theorem numItems_applyResult (env : BufferEnv) (f : FramePtr) (r : ResultItem)
    (s : FrameHandler) : (applyResult env f r s).numItems = s.numItems := by
  have hset : ∀ (a : Bool) (s : FrameHandler),
      (updateImageItemSet env f a s).numItems = s.numItems :=
    fun a s => by
      refine foldl_rel (R := fun s s' => s'.numItems = s.numItems) (fun _ => rfl)
        (fun s₁ s₂ s₃ (h₁ : s₂.numItems = s₁.numItems) (h₂ : s₃.numItems = s₂.numItems) =>
          h₂.trans h₁) (fun s k => ?_) _ s
      rw [updateImageItem]
      split
      · dsimp only
        split
        · split_ifs
          · rw [releaseHandler]
            dsimp only
            split <;> rfl
          · rfl
          · rfl
        · split_ifs
          · rw [releaseHandler]
            dsimp only
            split <;> rfl
          · rfl
        · rfl
      · rfl
  rw [applyResult, hset, hset, (sameImages_updateMetaItemSet env f _).numItems,
    (sameImages_addResult f r s).numItems]

theorem numValid_applyResult (hinv : s.ImageInvariant) (hentry : s.entry f false k = some (some p))
    (hvalid : (s.items p).ValidNow env) (r : ResultItem) :
    ((applyResult env f r s).itemSet f false).numValidStreams > 0 := by
  have hmeta := (sameImages_addResult f r s).trans
    (sameImages_updateMetaItemSet env f (addResult f r s))
  have hinv₁ := hinv.congr hmeta
  have hinv₂ := imageInvariant_of_steps (steps_updateImageItemSet env f false hinv₁) hinv₁
  have hmoved := imagesMoved_of_steps (steps_updateImageItemSet env f true hinv₂)
  have hinv' := imageInvariant_of_steps (steps_applyResult env f r hinv) hinv
  have hstate : ((updateImageItemSet env f false
      (updateMetaItemSet env f (addResult f r s))).items p).state = .valid := by
    refine state_updateImageItemSet (k := k) hinv₁ ?_ (hmeta.items ▸ hvalid)
    rw [entry, hmeta.itemSet]
    exact hentry
  obtain ⟨hp, hframe, hdir, -⟩ := hinv.entry f false k p hentry
  have hall := imagesMoved_of_steps (steps_applyResult env f r hinv)
  have hp₂ : p < (updateImageItemSet env f false
      (updateMetaItemSet env f (addResult f r s))).numItems := by
    refine (hmeta.numItems.symm ▸ hp : p < _).trans_le ?_
    exact (imagesMoved_of_steps (steps_updateImageItemSet env f false hinv₁)).numItems
  have hstate' : ((applyResult env f r s).items p).state = .valid := by
    have hrest := hmoved.state p hp₂
    rw [hstate] at hrest
    rw [applyResult]
    exact State.eq_of_settled hrest (.inl rfl)
  rw [(hinv'.set f false).valid, countItems, gt_iff_lt, List.countP_pos_iff]
  refine ⟨p, List.mem_range.mpr (hp.trans_le hall.numItems), ?_⟩
  simp [ImageItem.inSet, hall.pFrame p hp, hall.asInput p hp, hframe, hdir, hstate']

theorem metas_valid_applyResult {G : Ledger} (hbalanced : Balanced s G f)
    (hfresh : s.FreshStreams f r) (hnow : ∀ b ∈ r.buffer, b.ValidNow env)
    (hall : (s.metaSet f).numValidStreams = (s.metaSet f).items.size) :
    ((applyResult env f r s).metaSet f).numValidStreams =
      ((applyResult env f r s).metaSet f).items.size := by
  have hbalanced' := hbalanced.moved (metaMoved_applyResult env hfresh f)
  obtain ⟨s₁, hadded, hentry, -⟩ := (metaApplied_applyResult env f r s).set
  have hold : ∀ k ∈ (s.metaSet f).items.keys, G f k = some .valid := fun k hk => by
    rw [hbalanced.valid, recordedMetas, ← KeyedVector.length_keys] at hall
    simpa using List.countP_eq_length.mp hall k hk
  rw [hbalanced'.valid, recordedMetas, ← KeyedVector.length_keys, List.countP_eq_length]
  intro k hk
  rw [decide_eq_true_eq]
  obtain ⟨e', he'⟩ := mem_keys_metaSet.mp hk
  by_cases hnew : k ∈ r.streams
  · obtain ⟨i, hi, -, -, hstate, hbuffer, -⟩ := hadded.new k hnew
    obtain ⟨htype, hreleased, herror⟩ := hnow i.buffer hbuffer
    have hready : i.isReady env := ⟨by simp [hstate], by simp [hstate], htype, hreleased⟩
    have hupdated : (i.update env).state = .valid := by
      rw [MetaItem.update, if_pos hready, herror]
      rfl
    have hlive : (applyResult env f r s).metaEntry f k = some (some (i.update env)) := by
      rw [hentry, hi]
      rfl
    rw [record_live G hlive, hupdated]
  · have he := hentry k
    rw [hadded.old k hnew, he'] at he
    cases hs : s.metaEntry f k with
    | none => simp [hs] at he
    | some e =>
      have hvalid := hold k (mem_keys_metaSet.mpr ⟨e, hs⟩)
      cases e with
      | none =>
        have hnone : (applyResult env f r s).metaEntry f k = some none := by
          rw [he', he, hs]
          rfl
        rw [record_cleared G hnone, hvalid]
      | some i =>
        have hstate : i.state = .valid := by
          rw [hbalanced.live k i hs] at hvalid
          exact Option.some_inj.mp hvalid
        have hlive : (applyResult env f r s).metaEntry f k = some (some i) := by
          rw [he', he, hs, Option.map_some, Option.map_some, update_of_settled (.inl hstate)]
        rw [record_live G hlive, hstate]

/-- **The verdicts when a result is applied.** -/
theorem verdictKept_applyResult {G : Ledger} (hinv : s.ImageInvariant)
    (hbalanced : ∀ g, Balanced s G g) (hfresh : s.FreshStreams f r)
    (hkept : DecisionKept env s f r) (g : FramePtr) :
    VerdictKept s (applyResult env f r s) g := by
  have hsteps := steps_applyResult env f r hinv
  have hinv' := imageInvariant_of_steps hsteps hinv
  have himages := imagesMoved_of_steps hsteps
  have hmoved := metaMoved_applyResult env hfresh g
  refine ⟨verdict_pos_of_moved hinv hinv' himages (numItems_applyResult env f r s) hmoved
    ((hbalanced g).moved hmoved), fun h => ?_⟩
  rw [verdict_neg_iff]
  have hcount : (s.itemSet g false).numValidStreams ≤
      ((applyResult env f r s).itemSet g false).numValidStreams := by
    rw [(hinv.set g false).valid, (hinv'.set g false).valid]
    exact countItems_le himages (.inl rfl)
  by_cases hvalid : (s.itemSet g false).numValidStreams = 0
  · have hmetas := ((verdict_neg_iff s g).mp h).resolve_left (Nat.not_lt.mpr hvalid.le)
    by_cases hg : g = f
    · subst hg
      rcases hkept h hvalid with hnow | ⟨k, -, p, hp, hnow⟩
      · refine .inr ⟨metas_valid_applyResult (hbalanced g) hfresh hnow hmetas.1, ?_⟩
        obtain ⟨s₁, hadded, -, -, hlast, -⟩ := (metaApplied_applyResult env g r s).set
        exact hlast.trans (hadded.hasLastPartial.mpr (.inl hmetas.2))
      · exact .inl (numValid_applyResult hinv (Option.join_eq_some_iff.mp hp) hnow r)
    · have hset : (applyResult env f r s).metaSet g = s.metaSet g :=
        ((metaApplied_applyResult env f r s).frames g hg).set
      rw [hset]
      exact .inr hmetas
  · exact .inl ((Nat.pos_of_ne_zero hvalid).trans_le hcount)

/-! ### Operations -/

/-- What an operation does to the items and to the verdicts on the frames made before it. -/
structure StepAccounted (s s' : FrameHandler) : Prop where
  images : ∀ p < s.numItems, ReflTransGen State.Step (s.items p).state (s'.items p).state
  metas : ∀ f < s.numFrames, ∀ k i i', s.metaEntry f k = some (some i) →
    s'.metaEntry f k = some (some i') →
      i'.buffer = i.buffer ∧ ReflTransGen State.Step i.state i'.state
  verdict : ∀ f < s.numFrames, VerdictKept s s' f

theorem frames_registerFrame (s : FrameHandler) (rRequest : Request) (hg : g ≠ s.numFrames) :
    (s.registerFrame rRequest).frames g = s.frames g := by
  have hbuffers : ∀ (f : FramePtr) (a : Bool) (bs : List AppImageStreamBuffer) (s : FrameHandler),
      g ≠ f → (registerStreamBuffers f a bs s).frames g = s.frames g := by
    intro f a bs
    induction bs with
    | nil => exact fun _ _ => rfl
    | cons b bs ih =>
      intro s hf
      rw [registerStreamBuffers]
      split
      · rfl
      · rw [ih _ hf, registerItem, editItemSet, frames_editFrame, if_neg hf]
  rw [registerFrame]
  rw [hbuffers _ _ _ _ hg, hbuffers _ _ _ _ hg]
  simp only [pushFrame, Function.update_apply, if_neg hg]

theorem accounted_registerFrame {G : Ledger} (hinv : s.ImageInvariant)
    (hbalanced : ∀ f, Balanced s G f) (rRequest : Request) :
    (∀ f, Balanced (s.registerFrame rRequest) (record G (s.registerFrame rRequest)) f) ∧
      StepAccounted s (s.registerFrame rRequest) := by
  obtain ⟨-, -, -, hother, hself⟩ := registerFrame_spec s rRequest
  have hstep : handlerMachine s (.registerFrame rRequest) =
      .ok (s.registerFrame rRequest, []) := rfl
  refine ⟨fun f => ?_, (imagesMoved_of_steps (steps_handlerMachine hinv hstep)).state,
    fun f hf k i i' hi hi' => ?_, fun f hf => .of_eq ?_⟩
  · by_cases hf : f = s.numFrames
    · -- the new frame has no metadata
      subst hf
      have hset : (s.registerFrame rRequest).metaSet s.numFrames = {} := hself.set
      refine ⟨fun k i hi => ?_, ?_, ?_⟩
      · rw [metaEntry, hset] at hi
        cases hi
      · rw [recordedMetas, hset]
        rfl
      · rw [recordedMetas, hset]
        rfl
    · exact (hbalanced f).visited (.of_sameMeta (hother f hf))
  · rw [metaEntry_of_sameMeta (hother f (Nat.ne_of_lt hf)), hi] at hi'
    cases hi'
    exact ⟨rfl, .refl⟩
  · rw [frames_registerFrame s rRequest (Nat.ne_of_lt hf)]

theorem accounted_updateResults {G : Ledger} (hinv : s.ImageInvariant)
    (hbalanced : ∀ f, Balanced s G f) {rvResult : ResultQueue}
    (hC : AccountCondition.Meets s (.updateResults env rvResult)) :
    (∀ f, Balanced (s.updateResults env rvResult) (record G (s.updateResults env rvResult)) f) ∧
      StepAccounted s (s.updateResults env rvResult) := by
  have hall := AccountCondition.applyResults_rule (J := fun s' => ∀ f, MetaMoved s s' f ∧
    VerdictKept s s' f) env (fun s₁ f r hinv₁ _ happly hJ g => by
      have hbalanced₁ := fun g => (hbalanced g).moved (hJ g).1
      exact ⟨(hJ g).1.trans (metaMoved_applyResult env happly.1 g),
        (hJ g).2.trans (verdictKept_applyResult hinv₁ hbalanced₁ happly.1 happly.2 g)⟩)
    (rvResult.entries.map Prod.snd) s.mFrameQueue hinv (List.Subset.refl _) hC
    fun f => ⟨.of_sameMeta (.refl _), .of_eq rfl⟩
  obtain ⟨frameNo, heq⟩ := updateResults_eq env rvResult s
  have hmoved : ∀ f, MetaMoved s (s.updateResults env rvResult) f := fun f => by
    rw [heq]
    exact (hall f).1.trans (.of_sameMeta (.refl _))
  refine ⟨fun f => (hbalanced f).moved (hmoved f),
    (imagesMoved_of_steps (steps_updateResults env rvResult hinv)).state,
    fun f _ k i i' hi hi' => ?_, fun f _ => ?_⟩
  · obtain ⟨i₁, hi₁, hbuffer, hstate⟩ := (hmoved f).live k i hi
    obtain rfl : i₁ = i' := by
      rw [hi'] at hi₁
      cases hi₁
      rfl
    exact ⟨hbuffer, hstate⟩
  · rw [heq]
    exact (hall f).2.trans (.of_eq rfl)

theorem metaVisited_visit (hinv : s.ImageInvariant) (hhome : s.MetasHome f)
    (hx : prepareFrame env f s = .ok (s₁, cb)) (g : FramePtr) :
    MetaVisited s (s₁.removeFrame f) g := by
  by_cases hg : g = f
  · subst hg
    have hself : MetaVisited s s₁ g := by
      rcases visit_cases hinv hhome hx with heffect | ⟨l, es, heffect⟩
      · refine ⟨by rw [heffect.set], by rw [heffect.set], by rw [heffect.set], fun k i hi => ?_⟩
        rw [metaEntry, heffect.set] at hi
        exact ⟨i, hi, rfl, rfl⟩
      · refine ⟨heffect.keys, heffect.numValid, heffect.numError, fun k i' hi' => ?_⟩
        obtain ⟨i, hi, hforget, -⟩ := heffect.kept k i' hi'
        obtain ⟨-, hstate, hbuffer, -⟩ := MetaItem.forget_eq_forget_iff.mp hforget
        exact ⟨i, hi, hbuffer, hstate⟩
    exact hself.trans (.of_sameMeta (sameMeta_removeFrame s₁ g g))
  · exact .of_sameMeta (sameMeta_of_visit hinv hhome hx hg)

theorem accounted_updateCallbacks {G : Ledger} {P : ℕ → Bool → Prop} (hinv : s.ImageInvariant)
    (hmeta : MetaInvariant P s cbs) (hbalanced : ∀ f, Balanced s G f)
    (hC : AccountCondition.Meets s (.updateCallbacks env))
    (hstep : s.updateCallbacks env = .ok (s', o)) :
    (∀ f, Balanced s' (record G s') f) ∧ StepAccounted s s' := by
  have hall := AccountCondition.updateFrames_rule (I := fun s' cbs => MetaInvariant P s' cbs ∧
    ∀ g, MetaVisited s s' g ∧
      checkRequestError (s'.frames g) = checkRequestError (s.frames g)) env
    (fun s₁ cbs f s₂ cb hinv₁ hf hV hx hvisit hR hI => by
      have hhome := (hI.1 f).home
      refine ⟨(keeps_metaInvariant AccountCondition P).visit s₁ cbs env f s₂ cb hinv₁ hf hV hx
        hvisit hR hI.1, fun g => ⟨(hI.2 g).1.trans (metaVisited_visit hinv₁ hhome hx g), ?_⟩⟩
      rw [(imagesEdited_removeFrame s₂ f).1,
        (sameQueue_of_prepareFrame hinv₁ hhome hx).verdict, (hI.2 g).2])
    s.mFrameQueue hinv.frameLoop hC ⟨hmeta, fun g => ⟨.of_sameMeta (.refl _), rfl⟩⟩ hstep
  have hrun : handlerMachine s (.updateCallbacks env) = .ok (s', o) := hstep
  refine ⟨fun f => (hbalanced f).visited (hall.2 f).1,
    (imagesMoved_of_steps (steps_handlerMachine hinv hrun)).state,
    fun f _ k i i' hi hi' => ?_, fun f _ => .of_eq (hall.2 f).2⟩
  obtain ⟨i₁, hi₁, hbuffer, hstate⟩ := (hall.2 f).1.live k i' hi'
  obtain rfl : i₁ = i := by
    rw [hi] at hi₁
    cases hi₁
    rfl
  exact ⟨hbuffer, hstate ▸ .refl⟩

/-- **An operation** that meets the condition. -/
theorem accounted_step {G : Ledger} {P : ℕ → Bool → Prop} (hinv : s.ImageInvariant)
    (hmeta : MetaInvariant P s cbs) (hbalanced : ∀ f, Balanced s G f)
    (hC : AccountCondition.Meets s op) (hstep : handlerMachine s op = .ok (s', o)) :
    (∀ f, Balanced s' (record G s') f) ∧ StepAccounted s s' := by
  cases op with
  | registerFrame rRequest =>
    cases hstep
    exact accounted_registerFrame hinv hbalanced rRequest
  | updateResults env rvResult =>
    cases hstep
    exact accounted_updateResults hinv hbalanced hC
  | updateCallbacks env => exact accounted_updateCallbacks hinv hmeta hbalanced hC hstep

/-! ### Runs -/

def ledgerMachine : Machine (FrameHandler × Ledger) Op CallbackParcel Fault := fun x op =>
  match handlerMachine x.1 op with
  | .error e => .error e
  | .ok (s, cbs) => .ok ((s, record x.2 s), cbs)

theorem handlerMachine_of_ledgerMachine {x x' : FrameHandler × Ledger}
    (h : ledgerMachine x op = .ok (x', o)) :
    handlerMachine x.1 op = .ok (x'.1, o) ∧ x'.2 = record x.2 x'.1 := by
  rw [ledgerMachine] at h
  split at h
  · cases h
  · rename_i heq
    cases h
    exact ⟨heq, rfl⟩

structure Accounts (x : FrameHandler × Ledger) : Prop where
  images : ∀ f a,
    (x.1.itemSet f a).numValidStreams = x.1.countItems f a (fun i => i.state = .valid) ∧
      (x.1.itemSet f a).numErrorStreams = x.1.countItems f a fun i => i.state = .error
  metas : ∀ f, Balanced x.1 x.2 f

/-- **Item accounting.** In every run in which the streams of the metadata of a frame are
distinct and no late metadata takes a decision back, each item is counted once, and in each
further step the items move along the documented transitions and no verdict changes. -/
theorem item_accounting {x : FrameHandler × Ledger} (hrun : ledgerMachine.RunsMeeting
    (fun _ x op => AccountCondition.Meets x.1 op) (configure n streams, fun _ _ => none) ops x
      cbs) :
    Accounts x ∧ ∀ op x' o, AccountCondition.Meets x.1 op → ledgerMachine x op = .ok (x', o) →
      StepAccounted x.1 x'.1 := by
  have hall := hrun.invariant (I := fun _ x cbs => x.1.ImageInvariant ∧
    MetaInvariant isLastPartial x.1 cbs ∧ ∀ f, Balanced x.1 x.2 f)
    ⟨(idle_configure n streams).invariant.1, metaInvariant_configure _ n streams, fun f => ?_⟩
    fun ops x cbs op x' o hI hC hstep => ?_
  · obtain ⟨hinv, hmeta, hbalanced⟩ := hall
    refine ⟨⟨fun f a => ⟨(hinv.set f a).valid, (hinv.set f a).error⟩, hbalanced⟩,
      fun op x' o hC hstep => ?_⟩
    exact (accounted_step hinv hmeta hbalanced hC (handlerMachine_of_ledgerMachine hstep).1).2
  · have hset : (configure n streams).metaSet f = {} := (sameMeta_configure n streams f).set
    refine ⟨fun k i hi => ?_, ?_, ?_⟩
    · rw [metaEntry, hset] at hi
      cases hi
    · rw [recordedMetas, hset]
      rfl
    · rw [recordedMetas, hset]
      rfl
  · obtain ⟨hinv, hmeta, hbalanced⟩ := hI
    obtain ⟨hstep, hledger⟩ := handlerMachine_of_ledgerMachine hstep
    refine ⟨imageInvariant_of_steps (steps_handlerMachine hinv hstep) hinv,
      (keeps_metaInvariant AccountCondition _).step hinv hC hmeta hstep, fun f => ?_⟩
    rw [hledger]
    exact (accounted_step hinv hmeta hbalanced hC hstep).1 f

/-- The items of `twoRequests` are accounted for. -/
theorem item_accounting_twoRequests : ∃ x cbs, ledgerMachine.RunsMeeting
    (fun _ x op => AccountCondition.Meets x.1 op) (configure 1 [1], fun _ _ => none) twoRequests x
      cbs ∧ Accounts x := by
  have hobserve : ((ledgerMachine.observe (configure 1 [1], fun _ _ => none) twoRequests
      fun _ => ()).map (·.1)) = some () := by decide +kernel
  obtain ⟨⟨view, cbs⟩, hview, -⟩ := Option.map_eq_some_iff.mp hobserve
  obtain ⟨x, hrun, -⟩ := Machine.exists_run_of_observe hview
  have hmeeting := hrun.meeting (C := fun x op => AccountCondition.Meets x.1 op)
    (by decide +kernel)
  exact ⟨x, cbs, hmeeting, (item_accounting hmeeting).1⟩

/-- The streams of the metadata of a frame are distinct. -/
def DistinctStreams : StepCondition where
  apply _ s f r := s.FreshStreams f r

instance : Decidable (DistinctStreams.apply env s f r) :=
  inferInstanceAs (Decidable (s.FreshStreams f r))

instance : Decidable (DistinctStreams.visit env s f) := inferInstanceAs (Decidable True)

instance : Decidable (DistinctStreams.removal s f) := inferInstanceAs (Decidable True)

def imageInFlight : BufferEnv where
  image _ := ⟨0, false, false, -1, -1⟩
  metadata := allReleased.metadata

def lastPartialValid : List Op :=
  [oneBuffer 1 10 1, oneResult imageInFlight 1 true [⟨30, 7, .metaOut⟩]]

/-- An earlier partial of the frame comes late, and is an error like the image. -/
def partialFailed : Op := oneResult outputsFailed 1 false [⟨31, 8, .metaOut⟩]

/-- The frame of `lastPartialValid` is not a request error, and `partialFailed` makes it
one. -/
theorem partialFailed_reverses : ∃ x cbs x' o, ledgerMachine.RunsMeeting
    (fun _ x op => DistinctStreams.Meets x.1 op) (configure 5 [1], fun _ _ => none)
      lastPartialValid x cbs ∧
    DistinctStreams.Meets x.1 partialFailed ∧ ledgerMachine x partialFailed = .ok (x', o) ∧
    ¬ StepAccounted x.1 x'.1 := by
  have hobserve : ((ledgerMachine.observe (configure 5 [1], fun _ _ => none) lastPartialValid
      fun x => (x.1.numFrames, checkRequestError (x.1.frames 0),
        decide (DistinctStreams.Meets x.1 partialFailed))).map (·.1)) = some (1, -1, true) := by
    decide +kernel
  have hobserve' : ((ledgerMachine.observe (configure 5 [1], fun _ _ => none)
      (lastPartialValid ++ [partialFailed]) fun x => checkRequestError (x.1.frames 0)).map (·.1)) =
        some 1 := by decide +kernel
  obtain ⟨⟨view, cbs⟩, hview, rfl⟩ := Option.map_eq_some_iff.mp hobserve
  obtain ⟨⟨view', cbs'⟩, hview', rfl⟩ := Option.map_eq_some_iff.mp hobserve'
  obtain ⟨x, hrun, hx⟩ := Machine.exists_run_of_observe hview
  obtain ⟨x', hrun', hx'⟩ := Machine.exists_run_of_observe hview'
  obtain ⟨x₁, cbs₁, o, hrun₁, hstep, -⟩ := hrun'.of_snoc _
  obtain ⟨rfl, -⟩ := hrun₁.deterministic hrun
  obtain ⟨hnum, hrest⟩ := Prod.mk.inj hx
  obtain ⟨hverdict, hmeets⟩ := Prod.mk.inj hrest
  have hmeeting := hrun.meeting (C := fun x op => DistinctStreams.Meets x.1 op)
    (by decide +kernel)
  refine ⟨x₁, cbs, x', o, hmeeting, of_decide_eq_true hmeets, hstep, fun haccounted => ?_⟩
  have hkept := (haccounted.verdict 0 (hnum ▸ Nat.one_pos)).2 (hverdict ▸ by decide)
  rw [hx'] at hkept
  exact absurd hkept (by decide)

end FrameHandler

end MtkHardware.AppStream
