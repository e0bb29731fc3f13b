import MtkHardware.LegacyPipeline.RequestThread
import Mathlib.Data.List.Chain
import Mathlib.Data.Nat.Cast.Basic
import Mathlib.Logic.Function.Iterate

/-!
# The Numbers of Requests

`submitRequest` predicts the number of a request: the next number of the thread plus the length of
the queue, or the start of the range where that is past its end. The thread counts one by one, and
goes back to the start after the end. The two agree while the queue does not reach around the end
of the range.
-/

namespace MtkHardware.LegacyPipeline

namespace RequestRange

/-- The number after `n`, in cyclic order. -/
def succ (range : RequestRange) (n : ℤ) : ℤ :=
  if n = range.mRequestNumberMax then range.mRequestNumberMin else n + 1

/-- A number, or the start of the range for one past its end. -/
def wrap (range : RequestRange) (n : ℤ) : ℤ :=
  if n > range.mRequestNumberMax then range.mRequestNumberMin else n

def size (range : RequestRange) : ℤ := range.mRequestNumberMax - range.mRequestNumberMin + 1

def Has (range : RequestRange) (n : ℤ) : Prop :=
  range.mRequestNumberMin ≤ n ∧ n ≤ range.mRequestNumberMax

instance (range : RequestRange) (n : ℤ) : Decidable (range.Has n) :=
  inferInstanceAs (Decidable (_ ∧ _))

def numbered (range : RequestRange) : ℤ → List RequestItem → List (ℤ × List BufferSet)
  | _, [] => []
  | n, item :: items => (n, item.dstStreams) :: numbered range (range.succ n) items

variable {range : RequestRange} {n : ℤ}

theorem has_wrap (hmin : range.mRequestNumberMin ≤ n) : range.Has (range.wrap n) := by
  have hle := range.min_le_max
  rw [wrap, Has]
  split
  · omega
  · omega

theorem wrap_of_has (h : range.Has n) : range.wrap n = n := by
  rw [wrap, if_neg (by have := h.2; omega)]

/-- The number after `n` is one more, back at the start after the end. -/
theorem wrap_add_one (h : range.Has n) : range.wrap (n + 1) = range.succ n := by
  obtain ⟨-, hmax⟩ := h
  rw [wrap, succ]
  split_ifs <;> omega

theorem has_succ (h : range.Has n) : range.Has (range.succ n) := by
  rw [← wrap_add_one h]
  exact has_wrap (by have := h.1; omega)

theorem iterate_succ (h : range.Has n) (k : ℕ) : range.succ^[k] n =
    range.mRequestNumberMin + (n - range.mRequestNumberMin + k) % range.size := by
  have hsize : 0 < range.size := by
    have := range.min_le_max
    rw [size]
    omega
  induction k generalizing n with
  | zero =>
    obtain ⟨hmin, hmax⟩ := h
    rw [Function.iterate_zero, id, Int.natCast_zero, Int.add_zero,
      Int.emod_eq_of_lt (by omega) (by rw [size]; omega)]
    omega
  | succ k ih =>
    rw [Function.iterate_succ_apply, ih (has_succ h)]
    congr 1
    rw [succ]
    split
    · rename_i heq
      rw [heq, show range.mRequestNumberMax - range.mRequestNumberMin + ((k + 1 : ℕ) : ℤ) =
        range.mRequestNumberMin - range.mRequestNumberMin + k + range.size by
          rw [size]; push_cast; omega, Int.add_emod_right]
    · congr 1
      push_cast
      omega

/-- Where `k` steps lead, in numbers: up to the end of the range and past it, or around it. -/
theorem iterate_succ_wrap {k : ℕ} (hmin : range.mRequestNumberMin ≤ n)
    (hmax : n ≤ range.mRequestNumberMax + 1)
    (haround : n + k ≤ range.mRequestNumberMax + 1 ∨
      range.size ∣ n + k - (range.mRequestNumberMax + 1)) :
    range.succ^[k] (range.wrap n) = range.wrap (n + k) := by
  have hle := range.min_le_max
  have hq : (0 : ℤ) ≤ k := Int.natCast_nonneg k
  rw [iterate_succ (has_wrap hmin)]
  generalize (k : ℤ) = q at *
  by_cases hend : n + q ≤ range.mRequestNumberMax
  · rw [wrap_of_has ⟨hmin, by omega⟩, wrap_of_has ⟨by omega, hend⟩,
      Int.emod_eq_of_lt (by omega) (by rw [size]; omega)]
    omega
  · have hdvd : range.size ∣ n + q - (range.mRequestNumberMax + 1) := by
      obtain hle' | hdvd := haround
      · rw [show n + q - (range.mRequestNumberMax + 1) = 0 by omega]
        exact Int.dvd_zero _
      · exact hdvd
    -- the first number is the next one, or the start of the range instead of the one past its end
    have hmod : range.size ∣ range.wrap n - range.mRequestNumberMin + q := by
      by_cases hpast : n = range.mRequestNumberMax + 1
      · rw [wrap, if_pos (by omega), show range.mRequestNumberMin - range.mRequestNumberMin + q =
          n + q - (range.mRequestNumberMax + 1) by omega]
        exact hdvd
      · rw [wrap, if_neg (by omega), show n - range.mRequestNumberMin + q =
          n + q - (range.mRequestNumberMax + 1) + range.size by rw [size]; omega]
        exact Int.dvd_add hdvd (Int.dvd_refl _)
    rw [Int.emod_eq_zero_of_dvd hmod, wrap, if_pos (by omega), Int.add_zero]

theorem numbered_append (range : RequestRange) (n : ℤ) (xs ys : List RequestItem) :
    range.numbered n (xs ++ ys) =
      range.numbered n xs ++ range.numbered (range.succ^[xs.length] n) ys := by
  induction xs generalizing n with
  | nil => rfl
  | cons x xs ih =>
    rw [List.cons_append, numbered, ih, numbered, List.cons_append, List.length_cons,
      Function.iterate_succ_apply]

end RequestRange

theorem asMINT32_of_lt {n : ℤ} (hmin : -2 ^ 31 ≤ n) (hlt : n < 2 ^ 31) : asMINT32 n = n := by
  rw [asMINT32, Int.bmod_eq_of_le] <;> omega

namespace RequestThread

variable {kind : ThreadKind} {t t' : RequestThread} {op : RequestOp} {ops : List RequestOp}
  {events o : List RequestEvent} {range : RequestRange}

/-! ### What has happened -/

/-- What `submitRequest` has returned: the numbers, with the streams of the requests. -/
def returned (events : List RequestEvent) : List (ℤ × List BufferSet) :=
  events.flatMap fun
    | .returned items rvRequestNo => rvRequestNo.zip (items.map RequestItem.dstStreams)
    | _ => []

/-- The external requests that the pipeline has been called with: the numbers and the streams. -/
def submitted (events : List RequestEvent) : List (ℤ × List BufferSet) :=
  events.flatMap fun
    | .submitSetting next => if next.external then [(next.requestNumber, [])] else []
    | .submitRequest next vDstStreams =>
      if next.external then [(next.requestNumber, vDstStreams)] else []
    | _ => []

def taken (events : List RequestEvent) : List ℤ :=
  events.flatMap fun
    | .taken requestNumber => [requestNumber]
    | _ => []

/-- The numbers that the pipeline has been called with. -/
def passed (events : List RequestEvent) : List ℤ :=
  events.flatMap fun
    | .submitSetting next => [next.requestNumber]
    | .submitRequest next _ => [next.requestNumber]
    | _ => []

def inHand (t : RequestThread) : List (ℤ × List BufferSet) :=
  match t.loopAt with
  | .holding _ next =>
    if next.external then [(next.requestNumber, next.vDstStreams)] else []
  | _ => []

/-- The requests of the queue, with the numbers that the thread will take them under. -/
def upcoming (t : RequestThread) : List (ℤ × List BufferSet) :=
  t.range.numbered (t.range.wrap t.mRequestNumber) t.mRequestQueue

/-- **In order**: the numbers of the pipeline are of the range, those of successive iterations are
consecutive, and what `submitRequest` has returned are, in order, the requests that have been
submitted, the one that the thread has in hand and those that it will take from its queue, all
with their streams and their numbers. -/
structure InOrder (events : List RequestEvent) (t : RequestThread) : Prop where
  has : ∀ n ∈ passed events, t.range.Has n
  consecutive : (taken events).IsChain fun a b => b = t.range.succ a
  external : returned events = submitted events ++ t.inHand ++ t.upcoming

/-- The number that `submitRequest` starts from is the right one, and no number of the call
overflows: the queue ends with the range at the latest, or goes around it whole times. -/
def Predicts (t : RequestThread) (items : List RequestItem) : Prop :=
  items = [] ∨
    t.mRequestNumber + t.mRequestQueue.length < 2 ^ 31 ∧
    (t.mRequestNumber + t.mRequestQueue.length ≤ t.range.mRequestNumberMax + 1 ∨
      t.range.size ∣ t.mRequestNumber + t.mRequestQueue.length -
        (t.range.mRequestNumberMax + 1)) ∧
    (t.range.mRequestNumberMax + 1 < 2 ^ 31 ∨
      t.mRequestNumber + t.mRequestQueue.length + items.length < 2 ^ 31)

def KeepsStreams (kind : ThreadKind) (t : RequestThread) (i : ℤ) (next : NextRequest) : Prop :=
  match kind with
  | .default => t.mIsPausingPipeline = true → next.vDstStreams ≠ []
  | .highSpeedVideo _ => next.vDstStreams = frameStreams i
  | .stereo => True

/-- **The condition** on a step: `submitRequest` predicts the right numbers, the next number does
not overflow and comes with settings, a thread for stereo pipelines does not submit in a pause, and
an external request is handed on with its streams. -/
def Regular (kind : ThreadKind) (t : RequestThread) : RequestOp → Prop
  | .submitRequest items => t.Predicts items
  | .waitForNextRequest support =>
    t.range.wrap t.mRequestNumber + 1 < 2 ^ 31 ∧ (∃ app hal, support = .ok app hal)
  | .checkPause _ => t.mIsPausingPipeline = true → t.mvDstStreamsForPausePipeline = []
  | .submit => ∀ i next, t.loopAt = .holding i next → next.external = true →
      KeepsStreams kind t i next
  | _ => True

instance (t : RequestThread) (items : List RequestItem) : Decidable (t.Predicts items) :=
  inferInstanceAs (Decidable (_ ∨ _ ∧ _ ∧ _))

instance (t : RequestThread) (i : ℤ) (next : NextRequest) :
    (kind : ThreadKind) → Decidable (KeepsStreams kind t i next)
  | .default => inferInstanceAs (Decidable (_ → _))
  | .highSpeedVideo _ => inferInstanceAs (Decidable (_ = _))
  | .stereo => isTrue trivial

instance (kind : ThreadKind) (t : RequestThread) : (op : RequestOp) → Decidable (Regular kind t op)
  | .submitRequest items => inferInstanceAs (Decidable (t.Predicts items))
  | .waitForNextRequest (.ok app hal) =>
    decidable_of_iff (t.range.wrap t.mRequestNumber + 1 < 2 ^ 31)
      ⟨fun h => ⟨h, app, hal, rfl⟩, fun h => h.1⟩
  | .waitForNextRequest .noController | .waitForNextRequest .noBuilder
  | .waitForNextRequest .noUpdater => isFalse fun ⟨_, _, _, h⟩ => by cases h
  | .checkPause _ => inferInstanceAs (Decidable (_ → _))
  | .submit =>
    match h : t.loopAt with
    | .holding i next =>
      decidable_of_iff (next.external = true → KeepsStreams kind t i next)
        ⟨fun hkeeps _ _ hloop => by cases h.symm.trans hloop; exact hkeeps,
          fun hregular => hregular i next h⟩
    | .looping | .entered | .frame _ | .unpaused | .waiting _ | .exited =>
      isTrue fun _ _ hloop => by cases h.symm.trans hloop
  | .signal | .pausePipeline _ | .resumePipeline | .requestExit | .enter | .wakeUp => isTrue trivial

/-! ### The numbers of a call -/

theorem zip_numberItems {n : ℤ} {items : List RequestItem} (hmin : range.mRequestNumberMin ≤ n)
    (hlt : range.mRequestNumberMax + 1 < 2 ^ 31 ∨ n + items.length < 2 ^ 31) :
    (numberItems range n items).zip (items.map RequestItem.dstStreams) =
      range.numbered (range.wrap n) items := by
  induction items generalizing n with
  | nil => rfl
  | cons item items ih =>
    have hwrap : (if n > range.mRequestNumberMax then range.mRequestNumberMin else n) =
      range.wrap n := rfl
    have hhas : range.Has (range.wrap n) := RequestRange.has_wrap hmin
    obtain ⟨hwmin, hwmax⟩ := id hhas
    have hrange := range.le_min
    have hmax := range.max_lt
    rw [List.length_cons] at hlt
    push_cast at hlt
    rw [numberItems, hwrap, List.map_cons, List.zip_cons_cons, RequestRange.numbered]
    congr 1
    cases items with
    | nil => rfl
    | cons item' items =>
      have hle : range.wrap n ≤ n ∨ range.wrap n = range.mRequestNumberMin ∧
          range.mRequestNumberMax < n := by
        rw [RequestRange.wrap]
        split_ifs <;> omega
      have hsucc : range.wrap n + 1 < 2 ^ 31 := by
        rw [List.length_cons] at hlt
        push_cast at hlt
        omega
      rw [asMINT32_of_lt (by omega) hsucc, ih (by omega) ?_,
        RequestRange.wrap_add_one hhas]
      rw [List.length_cons] at hlt ⊢
      push_cast at hlt ⊢
      omega

/-- **The prediction**: under the condition, the thread will take the requests of a call under the
numbers that the call returns. -/
theorem predicts_numbered {items : List RequestItem} (h : t.Predicts items)
    (hmin : t.range.mRequestNumberMin ≤ t.mRequestNumber)
    (hmax : t.mRequestNumber ≤ t.range.mRequestNumberMax + 1) :
    (t.rvRequestNo items).zip (items.map RequestItem.dstStreams) =
      t.range.numbered (t.range.succ^[t.mRequestQueue.length] (t.range.wrap t.mRequestNumber))
        items := by
  obtain rfl | ⟨hlt, haround, hend⟩ := h
  · rfl
  have hrange := t.range.le_min
  rw [rvRequestNo, asMINT32_of_lt (by omega) hlt, zip_numberItems (by omega) hend,
    RequestRange.iterate_succ_wrap hmin hmax haround]

/-! ### The steps -/

theorem returned_append (events o : List RequestEvent) :
    returned (events ++ o) = returned events ++ returned o := List.flatMap_append

theorem submitted_append (events o : List RequestEvent) :
    submitted (events ++ o) = submitted events ++ submitted o := List.flatMap_append

theorem taken_append (events o : List RequestEvent) :
    taken (events ++ o) = taken events ++ taken o := List.flatMap_append

theorem passed_append (events o : List RequestEvent) :
    passed (events ++ o) = passed events ++ passed o := List.flatMap_append

/-- What is kept along a run in order: the next number is of the range or one past it, and follows
the last that was taken; what the thread has in hand is of the range. -/
structure Numbered (events : List RequestEvent) (t : RequestThread) : Prop extends
    InOrder events t where
  min_le : t.range.mRequestNumberMin ≤ t.mRequestNumber
  le_max : t.mRequestNumber ≤ t.range.mRequestNumberMax + 1
  next : ∀ n ∈ (taken events).getLast?, t.range.wrap t.mRequestNumber = t.range.succ n
  held : ∀ i next, t.loopAt = .holding i next → t.range.Has next.requestNumber

/-- A step that neither counts, nor queues, nor takes, nor hands on. -/
structure Idle (t t' : RequestThread) : Prop where
  range : t'.range = t.range
  number : t'.mRequestNumber = t.mRequestNumber
  queue : t'.mRequestQueue = t.mRequestQueue
  held : ∀ i next, t'.loopAt = .holding i next → t.loopAt = .holding i next
  hand : t'.inHand = t.inHand

theorem Idle.of_loopAt (hrange : t'.range = t.range)
    (hnumber : t'.mRequestNumber = t.mRequestNumber) (hqueue : t'.mRequestQueue = t.mRequestQueue)
    (hloop : t'.loopAt = t.loopAt) : Idle t t' :=
  ⟨hrange, hnumber, hqueue, fun _ _ h => hloop ▸ h, by rw [inHand, hloop]; rfl⟩

theorem inHand_eq_nil (h : ∀ i next, t.loopAt ≠ .holding i next) : t.inHand = [] := by
  rw [inHand]
  split
  · rename_i hloop
    exact absurd hloop (h _ _)
  · rfl

theorem Idle.move {l : LoopAt} (h : ∀ i next, t.loopAt ≠ .holding i next)
    (h' : ∀ i next, l ≠ .holding i next) : Idle t { t with loopAt := l } := by
  refine ⟨rfl, rfl, rfl, fun i next hloop => absurd hloop (h' i next), ?_⟩
  rw [inHand_eq_nil h, inHand_eq_nil h']

theorem Idle.trans {t₁ : RequestThread} (h : Idle t t₁) (h' : Idle t₁ t') : Idle t t' :=
  ⟨h'.range.trans h.range, h'.number.trans h.number, h'.queue.trans h.queue,
    fun i next hloop => h.held i next (h'.held i next hloop), h'.hand.trans h.hand⟩

theorem Idle.signal (h : Idle t t') : Idle t t'.signal := by
  rw [RequestThread.signal]
  split
  · rename_i hloop
    exact h.trans (.move (by simp [hloop]) (by simp))
  · exact h

theorem Numbered.idle (h : Numbered events t) (hidle : Idle t t') : Numbered events t' := by
  have hupcoming : t'.upcoming = t.upcoming := by
    rw [upcoming, upcoming, hidle.range, hidle.number, hidle.queue]
  refine ⟨⟨?_, ?_, ?_⟩, ?_, ?_, ?_, ?_⟩
  · rw [hidle.range]
    exact h.has
  · rw [hidle.range]
    exact h.consecutive
  · rw [h.external, hidle.hand, hupcoming]
  · rw [hidle.range, hidle.number]
    exact h.min_le
  · rw [hidle.range, hidle.number]
    exact h.le_max
  · rw [hidle.range, hidle.number]
    exact h.next
  · intro i next hloop
    rw [hidle.range]
    exact h.held i next (hidle.held i next hloop)

theorem Numbered.submitRequest (h : Numbered events t) {items : List RequestItem}
    (hpredicts : t.Predicts items) :
    Numbered (events ++ [.returned items (t.rvRequestNo items)])
      { t with mRequestQueue := t.mRequestQueue ++ items, submitting := true } := by
  refine ⟨⟨?_, ?_, ?_⟩, h.min_le, h.le_max, ?_, h.held⟩
  · rw [passed_append]
    simpa [passed] using h.has
  · rw [taken_append]
    simpa [taken] using h.consecutive
  · have hreturned : returned [.returned items (t.rvRequestNo items)] =
        (t.rvRequestNo items).zip (items.map RequestItem.dstStreams) := by simp [returned]
    have hsubmitted : submitted [.returned items (t.rvRequestNo items)] = [] := rfl
    rw [returned_append, hreturned, submitted_append, hsubmitted, List.append_nil, h.external,
      predicts_numbered hpredicts h.min_le h.le_max, List.append_assoc, upcoming, upcoming,
      ← RequestRange.numbered_append]
    rfl
  · rw [taken_append]
    simpa [taken] using h.next

theorem has_wrapped (h : Numbered events t) : t.range.Has (t.range.wrap t.mRequestNumber) :=
  RequestRange.has_wrap h.min_le

/-- **The next request**: where builder and updater do not fail, it has the next number, and is the
first of the queue if there is one. -/
theorem waitForNextRequest_ok (t : RequestThread) (app hal : MetadataMap) :
    ∃ next, t.waitForNextRequest (.ok app hal) =
        ({ t with
          mRequestNumber := asMINT32 (t.range.wrap t.mRequestNumber + 1)
          mRequestQueue := t.mRequestQueue.tail }, some next) ∧
      next.requestNumber = t.range.wrap t.mRequestNumber ∧
      (t.mRequestQueue = [] ∧ next.external = false ∨
        ∃ item, t.mRequestQueue = item :: t.mRequestQueue.tail ∧ next.external = true ∧
          next.vDstStreams = item.dstStreams) := by
  have hwrap : t.wrapNumber = { t with mRequestNumber := t.range.wrap t.mRequestNumber } := by
    rw [wrapNumber, RequestRange.wrap]
    split <;> rfl
  rw [waitForNextRequest, hwrap, if_neg (by simp)]
  dsimp only
  split
  · rename_i hqueue
    exact ⟨_, by rw [buildNext, hqueue]; rfl, rfl, .inl ⟨hqueue, rfl⟩⟩
  · rename_i item queue hqueue
    split
    · exact ⟨_, by rw [buildNext, hqueue]; rfl, rfl, .inr ⟨item, by rw [hqueue]; rfl, rfl, rfl⟩⟩
    · exact ⟨_, by rw [hqueue]; rfl, rfl, .inr ⟨item, by rw [hqueue]; rfl, rfl, rfl⟩⟩

theorem not_holding_of_takes {i : ℤ} (h : t.takes kind = some i) (j : ℤ) (next : NextRequest) :
    t.loopAt ≠ .holding j next := by
  intro hloop
  simp only [takes, hloop] at h
  cases h

theorem Numbered.take (h : Numbered events t) {app hal : MetadataMap}
    (hlt : t.range.wrap t.mRequestNumber + 1 < 2 ^ 31)
    (hstep : t.take kind (.ok app hal) = .ok (t', o)) : Numbered (events ++ o) t' := by
  rw [RequestThread.take] at hstep
  split at hstep
  · cases hstep
  split at hstep
  · cases hstep
  rename_i i htakes
  obtain ⟨next, hwait, hnumber, hqueue⟩ := waitForNextRequest_ok t app hal
  rw [hwait] at hstep
  obtain ⟨rfl, rfl⟩ := Prod.ext_iff.mp (Except.ok.inj hstep)
  have hhas := has_wrapped h
  have hrange := t.range.le_min
  have hsucc := RequestRange.wrap_add_one hhas
  obtain ⟨hmin, hmax⟩ := id hhas
  have hasMINT32 := asMINT32_of_lt (by omega) hlt
  have hhand : t.inHand = [] := inHand_eq_nil (not_holding_of_takes htakes)
  refine ⟨⟨?_, ?_, ?_⟩, ?_, ?_, ?_, ?_⟩
  · rw [passed_append]
    simpa [passed] using h.has
  · rw [taken_append]
    refine h.consecutive.append (by simp [taken]) fun a ha b hb => ?_
    simp only [taken, List.flatMap_cons, List.flatMap_nil, List.append_nil, List.head?_cons,
      Option.mem_def, Option.some.injEq] at hb
    rw [← hb, hnumber]
    exact h.next a ha
  · have hnone : returned [.taken next.requestNumber] = [] ∧
        submitted [.taken next.requestNumber] = [] := ⟨rfl, rfl⟩
    rw [returned_append, submitted_append, hnone.1, hnone.2, List.append_nil, List.append_nil,
      h.external, hhand, List.append_nil, List.append_assoc]
    congr 1
    simp only [upcoming, inHand, hasMINT32, hsucc]
    obtain ⟨hnil, hext⟩ | ⟨item, hcons, hext, hdst⟩ := hqueue
    · rw [hnil, hext]
      rfl
    · rw [hext, if_pos rfl, hcons, hnumber, hdst]
      rfl
  · dsimp only
    rw [hasMINT32]
    omega
  · dsimp only
    rw [hasMINT32]
    omega
  · rw [taken_append]
    intro n hn
    simp only [taken, List.flatMap_cons, List.flatMap_nil, List.append_nil, Option.mem_def,
      List.getLast?_concat, Option.some.injEq] at hn
    dsimp only
    rw [hasMINT32, hsucc, ← hn, hnumber]
  · intro i' next' hloop
    cases hloop
    dsimp only
    rw [hnumber]
    exact hhas

theorem idle_requestExit (h : t.requestExit = .ok t') : Idle t t' := by
  rw [requestExit] at h
  split at h
  · cases h
    exact .signal (.of_loopAt rfl rfl rfl rfl)
  · cases h
    exact .of_loopAt rfl rfl rfl rfl
  · split at h
    · cases h
      exact .of_loopAt rfl rfl rfl rfl
    · cases h
  · cases h

theorem idle_enter (h : t.enter kind = .ok t') : Idle t t' := by
  unfold enter at h
  split at h
  · rename_i hloop
    split at h
    · cases h
      exact .move (by simp [hloop]) (by simp)
    · cases kind with
      | default | stereo =>
        cases h
        exact .move (by simp [hloop]) (by simp)
      | highSpeedVideo n =>
        cases h
        refine .move (by simp [hloop]) fun i next => ?_
        rw [frameAt]
        split <;> simp
  · cases h

theorem idle_checkPause {requestNumber : ℤ}
    (hpause : t.mIsPausingPipeline = true → t.mvDstStreamsForPausePipeline = [])
    (h : t.checkPause kind requestNumber = .ok (t', o)) : o = [] ∧ Idle t t' := by
  rw [checkPause] at h
  split at h
  · rename_i hloop
    split at h
    · rename_i hpausing
      rw [if_pos (by rw [hpause hpausing]; rfl)] at h
      obtain ⟨rfl, rfl⟩ := Prod.ext_iff.mp (Except.ok.inj h)
      exact ⟨rfl, .move (by simp [hloop.2]) (by simp)⟩
    · obtain ⟨rfl, rfl⟩ := Prod.ext_iff.mp (Except.ok.inj h)
      exact ⟨rfl, .move (by simp [hloop.2]) (by simp)⟩
  · cases h

/-- The pipeline is called for the request, with the streams. -/
inductive HandsOn (next : NextRequest) : List BufferSet → List RequestEvent → Prop
  | setting : HandsOn next [] [.submitSetting next]
  | request (vDstStreams : List BufferSet) :
      HandsOn next vDstStreams [.submitRequest next vDstStreams]

theorem handsOn_submitNext (next : NextRequest) :
    HandsOn next next.vDstStreams [submitNext next] := by
  rw [submitNext]
  split
  · rename_i hempty
    rw [List.isEmpty_iff] at hempty
    rw [hempty]
    exact .setting
  · exact .request _

/-- What it takes to hand a request on: the thread goes on without it, and the pipeline has been
called for it, with its streams if these are kept, or it has been dropped in a pause. -/
theorem submit_cases (h : t.submit kind = .ok (t', o)) : ∃ i next l,
    t.loopAt = .holding i next ∧ t' = { t with loopAt := l } ∧ (∀ j n, l ≠ .holding j n) ∧
      (o = [] ∧ ¬ KeepsStreams kind t i next ∨
        ∃ vDstStreams, HandsOn next vDstStreams o ∧
          (KeepsStreams kind t i next → vDstStreams = next.vDstStreams)) := by
  rw [submit] at h
  split at h
  · rename_i i next hloop
    refine ⟨i, next, ?_⟩
    cases kind with
    | default =>
      simp only [Except.ok.injEq, submitDefault] at h
      split at h
      · rename_i hpause
        rw [Bool.and_eq_true, List.isEmpty_iff] at hpause
        have hdrops : ¬ KeepsStreams .default t i next := fun hkeeps => hkeeps hpause.1 hpause.2
        split at h
        · obtain ⟨rfl, rfl⟩ := Prod.mk.inj h
          exact ⟨_, hloop, rfl, by simp, .inl ⟨rfl, hdrops⟩⟩
        · obtain ⟨rfl, rfl⟩ := Prod.mk.inj h
          exact ⟨_, hloop, rfl, by simp, .inr ⟨_, .request _, fun hkeeps =>
            absurd hkeeps hdrops⟩⟩
      · obtain ⟨rfl, rfl⟩ := Prod.mk.inj h
        exact ⟨_, hloop, rfl, by simp, .inr ⟨_, handsOn_submitNext next, fun _ => rfl⟩⟩
    | highSpeedVideo n =>
      obtain ⟨rfl, rfl⟩ := Prod.ext_iff.mp (Except.ok.inj h)
      refine ⟨_, hloop, rfl, fun j n => ?_, .inr ⟨_, .request _, fun hkeeps => hkeeps.symm⟩⟩
      rw [frameAt]
      split <;> simp
    | stereo =>
      obtain ⟨rfl, rfl⟩ := Prod.ext_iff.mp (Except.ok.inj h)
      exact ⟨_, hloop, rfl, by simp, .inr ⟨_, handsOn_submitNext next, fun _ => rfl⟩⟩
  · cases h

theorem HandsOn.calls {next : NextRequest} {vDstStreams : List BufferSet}
    (h : HandsOn next vDstStreams o) :
    returned o = [] ∧ taken o = [] ∧ passed o = [next.requestNumber] ∧
      submitted o = if next.external then [(next.requestNumber, vDstStreams)] else [] := by
  cases h with
  | setting => exact ⟨rfl, rfl, rfl, List.append_nil _⟩
  | request vDstStreams => exact ⟨rfl, rfl, rfl, List.append_nil _⟩

theorem Numbered.submit (h : Numbered events t) (hstep : t.submit kind = .ok (t', o))
    (hkeeps : ∀ i next, t.loopAt = .holding i next → next.external = true →
      KeepsStreams kind t i next) : Numbered (events ++ o) t' := by
  obtain ⟨i, next, l, hloop, rfl, hl, hcases⟩ := submit_cases hstep
  have hhand : t.inHand =
      if next.external then [(next.requestNumber, next.vDstStreams)] else [] := by
    rw [inHand, hloop]
  have hhand' : { t with loopAt := l }.inHand = [] := inHand_eq_nil hl
  have hevents : returned o = [] ∧ taken o = [] ∧ (∀ n ∈ passed o, n = next.requestNumber) ∧
      submitted o = t.inHand := by
    rw [hhand]
    obtain ⟨rfl, hdrops⟩ | ⟨vDstStreams, hon, hsame⟩ := hcases
    · refine ⟨rfl, rfl, fun n hn => (by cases hn), ?_⟩
      rw [if_neg fun hext => hdrops (hkeeps i next hloop hext)]
      rfl
    · obtain ⟨hreturned, htaken, hpassed, hsubmitted⟩ := hon.calls
      refine ⟨hreturned, htaken, fun n hn => by simpa [hpassed] using hn, ?_⟩
      rw [hsubmitted]
      split
      · rename_i hext
        rw [hsame (hkeeps i next hloop hext)]
      · rfl
  obtain ⟨hreturned, htaken, hpassed, hsubmitted⟩ := hevents
  refine ⟨⟨fun n hn => ?_, ?_, ?_⟩, h.min_le, h.le_max, ?_, fun j n hj => absurd hj (hl j n)⟩
  · rw [passed_append, List.mem_append] at hn
    obtain hn | hn := hn
    · exact h.has n hn
    · rw [hpassed n hn]
      exact h.held i next hloop
  · rw [taken_append, htaken, List.append_nil]
    exact h.consecutive
  · rw [returned_append, hreturned, List.append_nil, submitted_append, hsubmitted, hhand',
      List.append_nil, h.external]
    rfl
  · rw [taken_append, htaken, List.append_nil]
    exact h.next

/-- **One step** that meets the condition keeps the numbers in order. -/
theorem Numbered.step (h : Numbered events t) (hregular : Regular kind t op)
    (hstep : requestThread kind t op = .ok (t', o)) : Numbered (events ++ o) t' := by
  rw [requestThread] at hstep
  unfold RequestThread.step at hstep
  cases op with
  | submitRequest items =>
    dsimp only at hstep
    split at hstep
    · cases hstep
    · obtain ⟨rfl, rfl⟩ := Prod.ext_iff.mp (Except.ok.inj hstep)
      exact h.submitRequest hregular
  | signal =>
    dsimp only at hstep
    split at hstep
    · obtain ⟨rfl, rfl⟩ := Prod.ext_iff.mp (Except.ok.inj hstep)
      rw [List.append_nil]
      exact h.idle (.signal (.of_loopAt rfl rfl rfl rfl))
    · cases hstep
  | pausePipeline vDstStreams =>
    obtain ⟨rfl, rfl⟩ := Prod.ext_iff.mp (Except.ok.inj hstep)
    rw [List.append_nil]
    exact h.idle (.of_loopAt rfl rfl rfl rfl)
  | resumePipeline =>
    obtain ⟨rfl, rfl⟩ := Prod.ext_iff.mp (Except.ok.inj hstep)
    rw [List.append_nil]
    exact h.idle (.signal (.of_loopAt rfl rfl rfl rfl))
  | requestExit =>
    cases hexit : t.requestExit with
    | error e => simp only [hexit, Except.map, reduceCtorEq] at hstep
    | ok t₁ =>
      simp only [hexit, Except.map, Except.ok.injEq, Prod.mk.injEq] at hstep
      obtain ⟨rfl, rfl⟩ := hstep
      rw [List.append_nil]
      exact h.idle (idle_requestExit hexit)
  | enter =>
    cases henter : t.enter kind with
    | error e => simp only [henter, Except.map, reduceCtorEq] at hstep
    | ok t₁ =>
      simp only [henter, Except.map, Except.ok.injEq, Prod.mk.injEq] at hstep
      obtain ⟨rfl, rfl⟩ := hstep
      rw [List.append_nil]
      exact h.idle (idle_enter henter)
  | checkPause requestNumber =>
    obtain ⟨rfl, hidle⟩ := idle_checkPause hregular hstep
    rw [List.append_nil]
    exact h.idle hidle
  | waitForNextRequest support =>
    obtain ⟨hlt, app, hal, rfl⟩ := hregular
    exact h.take hlt hstep
  | submit => exact h.submit hstep hregular
  | wakeUp =>
    dsimp only at hstep
    split at hstep
    · rename_i hloop
      obtain ⟨rfl, rfl⟩ := Prod.ext_iff.mp (Except.ok.inj hstep)
      rw [List.append_nil]
      exact h.idle (.move (by simp [hloop]) (by simp))
    · cases hstep

/-- **In order**: for every kind of thread and every range, in a run whose steps all meet the
condition, the requests are in order at all times. -/
theorem inOrder_of_runs
    (h : (requestThread kind).RunsMeeting (fun _ => Regular kind) (start range) ops t events) :
    InOrder events t := by
  have hinit : Numbered [] (start range) := by
    have hle := range.min_le_max
    refine ⟨⟨fun n hn => (by cases hn), List.isChain_nil, rfl⟩, Int.le_refl _, ?_,
      fun n hn => (by cases hn), fun i next hloop => by cases hloop⟩
    show range.mRequestNumberMin ≤ range.mRequestNumberMax + 1
    omega
  exact (h.invariant (I := fun _ t events => Numbered events t) hinit
    fun _ _ _ _ _ _ hinv hregular hstep => hinv.step hregular hstep).toInOrder

def upToTwo : RequestRange where
  mRequestNumberMin := 0
  mRequestNumberMax := 2
  min_le_max := by decide
  le_min := by decide
  max_lt := by decide

/-- A request without settings of its own, for one stream. -/
def requestFor (streamId : StreamId) : RequestItem where
  setting := { appSetting := .empty, halSetting := .empty }
  dstStreams := [{ streamId }]

def iteration : List RequestOp :=
  [.enter, .waitForNextRequest (.ok .empty .empty), .submit]

/-- A request that is queued at the end of the range, and one behind it that gets the number at
the start. -/
theorem inOrder_of_runs_wrapped : ∃ t events,
    (requestThread .default).Runs (start upToTwo)
      (iteration ++ iteration ++ [.submitRequest [requestFor 4, requestFor 5], .signal] ++
        iteration ++ iteration) t events ∧
      submitted events = [(2, [{ streamId := 4 }]), (0, [{ streamId := 5 }])] ∧
      InOrder events t := by
  obtain ⟨t, events, hrun, hsubmitted⟩ : ∃ t events,
      (requestThread .default).Runs (start upToTwo)
        (iteration ++ iteration ++ [.submitRequest [requestFor 4, requestFor 5], .signal] ++
          iteration ++ iteration) t events ∧
      submitted events = [(2, [{ streamId := 4 }]), (0, [{ streamId := 5 }])] :=
    Machine.exists_run_of_shows (by decide)
  exact ⟨t, events, hrun, hsubmitted,
    inOrder_of_runs (hrun.meeting (C := Regular .default) (by decide))⟩

/-- Three requests are queued one by one at the end of the range: the third is told the number of
the second, and submitted under the next. -/
theorem straddlingQueue_misnumbered : ¬ ∀ ops t events,
    (requestThread .default).Runs (start upToTwo) ops t events → InOrder events t := by
  intro hall
  obtain ⟨t, events, hrun, ⟨hreturned, hsubmitted⟩, hhand, hupcoming⟩ : ∃ t events,
      (requestThread .default).Runs (start upToTwo)
        (iteration ++ iteration ++ [.submitRequest [requestFor 4], .signal,
          .submitRequest [requestFor 5], .signal, .submitRequest [requestFor 6], .signal] ++
          iteration ++ iteration ++ iteration) t events ∧
      (returned events =
          [(2, [{ streamId := 4 }]), (0, [{ streamId := 5 }]), (0, [{ streamId := 6 }])] ∧
        submitted events =
          [(2, [{ streamId := 4 }]), (0, [{ streamId := 5 }]), (1, [{ streamId := 6 }])]) ∧
      t.inHand = [] ∧ t.upcoming = [] :=
    Machine.exists_run_of_shows (by decide)
  have hexternal := (hall _ t events hrun).external
  rw [hreturned, hsubmitted, hhand, hupcoming] at hexternal
  revert hexternal
  decide

end RequestThread

end MtkHardware.LegacyPipeline
