import MtkHardware.LegacyPipeline.ResultProcessor

/-!
# Delivery of Full Results

The full result of a request is due at the listeners that cover the request when its last update
has been handled. That it has been handed out is kept with the item of the request, and is marked
in the loop over the listeners, after the first of them. The item is dropped with the last update,
so that a later update of the request starts another one.
-/

namespace MtkHardware.LegacyPipeline.ResultProcessor

variable {p p' p₀ : ResultProcessor} {op : ResultOp} {ops : List ResultOp}
  {events o : List ResultEvent} {gone : List IListener} {L : List RangeListener}
  {x : IListener} {r : ℕ} {sid : StreamId} {q : BufQue} {item : ResultItem}

/-- `x` listens to the full result of the request `r`. -/
def Listens (gone : List IListener) (L : List RangeListener) (x : IListener) (r : ℕ) : Prop :=
  ∃ l ∈ L, ListenerBase.canCallback l r 0 = true ∧ getListener gone l = some x

/-- The client that is called back with the full result of the request `r`: that of the first
listener, if it has use for it. -/
def served (gone : List IListener) : List RangeListener → ℕ → Option IListener
  | [], _ => none
  | l :: _, r => if ListenerBase.canCallback l r 0 then getListener gone l else none

/-- Is the event a full result of the request `r` for `x`, of the stream `sid`? -/
def isFull (x : IListener) (r : ℕ) (sid : StreamId) : ResultEvent → Bool
  | .fullResult cb => cb.listener == x && cb.requestNo == r && cb.streamId == sid
  | _ => false

/-- How often `x` has received the full result of the request `r`, of the stream `sid`. -/
def deliveries (events : List ResultEvent) (x : IListener) (r : ℕ) (sid : StreamId) : ℕ :=
  events.countP (isFull x r sid)

def fullStreams : List StreamId := [eSTREAMID_META_APP_FULL, eSTREAMID_META_HAL_FULL]

/-- The step handles the last update of the request `r`. -/
def HandlesLast (r : ℕ) (p : ResultProcessor) (op : ResultOp) : Prop :=
  op = .handleResult ∧ ∃ rvResult rvEarlyResult rvFrameEnd item,
    p.thread = .handling rvResult rvEarlyResult rvFrameEnd ∧ rvResult.find? r = some item ∧
      item.isLast = true

/-- A run has completed the request `r`: it has handled its last update. -/
def Completed (p₀ : ResultProcessor) (ops : List ResultOp) (r : ℕ) : Prop :=
  resultProcessor.Met p₀ ops (HandlesLast r)

/-- **Exactly once**: the process has not ended, and whoever listens to a request has received
each of its full results once if it is completed, and not otherwise. -/
structure ExactlyOnce (p₀ : ResultProcessor) (ops : List ResultOp) (events : List ResultEvent)
    (p : ResultProcessor) : Prop where
  running : p.aborted = false
  received : ∀ x r, Listens p.gone p.mFullListenerList x r → ∀ sid ∈ fullStreams,
    Completed p₀ ops r → deliveries events x r sid = 1
  not_received : ∀ x r, Listens p.gone p.mFullListenerList x r → ∀ sid ∈ fullStreams,
    ¬ Completed p₀ ops r → deliveries events x r sid = 0

/-- The queue of the full results with what has been taken from `mResultQueue`. -/
def collected (p : ResultProcessor) (rvResult : BufQue) : BufQue :=
  rvResult.entries.foldl (fun q e => collectPartialResult q e.1 e.2) p.mFullResultQueue

/-- **The condition** on a call of `handleResult`: whoever listens to a request that is completed
is the client of the first listener, there is metadata of the App and of the HAL, and there has
been no full result of the request. -/
def ServesFull (events : List ResultEvent) (p : ResultProcessor) (rvResult : BufQue) : Prop :=
  ∀ e ∈ (p.collected rvResult).entries, e.2.isLast = true →
    ∀ l ∈ p.mFullListenerList, ListenerBase.canCallback l e.1 0 = true →
      (getListener p.gone l).isSome = true →
        served p.gone p.mFullListenerList e.1 = getListener p.gone l ∧
          e.2.outAppBuffer ≠ [] ∧ e.2.outHalBuffer ≠ [] ∧
          deliveries events (ListenerBase.listener l) e.1 eSTREAMID_META_APP_FULL = 0

def ServesAll (events : List ResultEvent) (p : ResultProcessor) : ResultOp → Prop
  | .handleResult =>
    match p.thread with
    | .handling rvResult _ _ => p.ServesFull events rvResult
    | .looping | .waiting _ | .exited => True
  | .updateFrame _ _ | .onMetaCallback _ _ _ _ | .dequeResult | .wakeUp | .flush | .drop _ => True

instance (events : List ResultEvent) (p : ResultProcessor) (rvResult : BufQue) :
    Decidable (p.ServesFull events rvResult) :=
  inferInstanceAs (Decidable (∀ e ∈ _, _ → ∀ l ∈ _, _ → _ → _ ∧ _ ∧ _ ∧ _))

instance (events : List ResultEvent) (p : ResultProcessor) :
    (op : ResultOp) → Decidable (p.ServesAll events op)
  | .handleResult =>
    match h : p.thread with
    | .handling rvResult _ _ =>
      decidable_of_iff (p.ServesFull events rvResult) (by simp only [ServesAll, h])
    | .looping | .waiting _ | .exited => isTrue (by simp only [ServesAll, h])
  | .updateFrame _ _ | .onMetaCallback _ _ _ _ | .dequeResult | .wakeUp | .flush | .drop _ =>
    isTrue trivial

/-! ### Queues of results -/

/-- Every item is that of its request, and has not been handed out. -/
def Clean (q : BufQue) : Prop :=
  ∀ r item, q.find? r = some item → item.requestNo = r ∧ item.isReturned = false

/-- Does the queue hold the last update of the request `r`? -/
def lastIn (q : BufQue) (r : ℕ) : Bool := (q.find? r).any ResultItem.isLast

theorem hasBit_markLast (status : BitSet32) (last : Bool) (n : ℕ) :
    (if last then status.markBit LAST_PARTIAL else status).hasBit n =
      (status.hasBit n || (last && decide (n = LAST_PARTIAL))) :=
  BitSet32.hasBit_ite_markBit status (by decide) last n

theorem Clean.empty : Clean .empty := by
  intro r item hfind
  rw [KeyedVector.find?_empty] at hfind
  cases hfind

theorem Clean.addResult (h : Clean q) (k : ℕ) (app hal : List IMetaStreamBuffer) (last : Bool) :
    Clean (addResult q k app hal last) := by
  rw [ResultProcessor.addResult]
  refine KeyedVector.forall_insertWith h ⟨rfl, ?_⟩ fun item hitem => ⟨hitem.1, ?_⟩
  · rw [ResultItem.isReturned, hasBit_markLast, BitSet32.hasBit_clear]
    cases last <;> rfl
  · rw [ResultItem.isReturned, hasBit_markLast]
    have hreturned : item.status.hasBit RETURNED = false := hitem.2
    rw [hreturned]
    cases last <;> rfl

theorem lastIn_addResult (q : BufQue) (k : ℕ) (app hal : List IMetaStreamBuffer) (last : Bool)
    (r : ℕ) : lastIn (addResult q k app hal last) r = (lastIn q r || (r == k && last)) := by
  rw [addResult, lastIn, KeyedVector.find?_insertWith, lastIn]
  by_cases hk : r = k
  · rw [if_pos hk, hk]
    cases hfind : q.find? k with
    | none =>
      simp only [Option.elim_none, Option.any_some, Option.any_none, ResultItem.isLast,
        hasBit_markLast]
      simp
    | some item =>
      simp only [Option.elim_some, Option.any_some, ResultItem.isLast, hasBit_markLast]
      simp
  · simp [hk]

theorem clean_collect {items : List (ℕ × ResultItem)} (h : Clean q) :
    Clean (items.foldl (fun q e => collectPartialResult q e.1 e.2) q) := by
  induction items generalizing q with
  | nil => exact h
  | cons e items ih => exact ih (h.addResult _ _ _ _)

theorem lastIn_collect (items : List (ℕ × ResultItem)) (q : BufQue) (r : ℕ) :
    lastIn (items.foldl (fun q e => collectPartialResult q e.1 e.2) q) r =
      (lastIn q r || items.any fun e => r == e.1 && e.2.isLast) := by
  induction items generalizing q with
  | nil => simp
  | cons e items ih =>
    rw [List.foldl_cons, ih, collectPartialResult, lastIn_addResult, List.any_cons,
      Bool.or_assoc]

theorem lastIn_eq_any (q : BufQue) (r : ℕ) :
    lastIn q r = q.entries.any fun e => r == e.1 && e.2.isLast := by
  rw [Bool.eq_iff_iff, lastIn, Option.any_eq_true, List.any_eq_true]
  constructor
  · rintro ⟨item, hfind, hlast⟩
    exact ⟨(r, item), KeyedVector.find?_eq_some_iff.mp hfind, by simp [hlast]⟩
  · rintro ⟨⟨k, item⟩, hmem, hlast⟩
    rw [Bool.and_eq_true, beq_iff_eq] at hlast
    obtain ⟨rfl, hlast⟩ := hlast
    exact ⟨item, KeyedVector.find?_eq_some_iff.mpr hmem, hlast⟩

/-! ### The callbacks of an item -/

theorem listens_of_served (h : served gone L r = some x) : Listens gone L x r := by
  cases L with
  | nil => cases h
  | cons l L =>
    rw [served] at h
    split at h
    · rename_i hcan
      exact ⟨l, List.mem_cons_self, hcan, h⟩
    · cases h

theorem getListener_eq_some {L : Type} [ListenerBase L] {l : L}
    (h : getListener gone l = some x) : ListenerBase.listener l = x ∧ x ∉ gone := by
  rw [getListener] at h
  split at h
  · cases h
  · rename_i hgone
    obtain rfl := Option.some.inj h
    exact ⟨rfl, hgone⟩

theorem addFullCallback_of_none {l : RangeListener} {vOutMeta : List IMetaStreamBuffer}
    {cbs : List Callback} (h : served gone (l :: L) r = none) :
    addFullCallback gone r sid l vOutMeta cbs = some cbs := by
  rw [served] at h
  rw [addFullCallback]
  split
  · rename_i hcan
    rw [if_pos hcan] at h
    rw [h]
  · rfl

theorem addFullCallback_of_some {l : RangeListener} (sid : StreamId)
    (vOutMeta : List IMetaStreamBuffer) (cbs : List Callback)
    (h : served gone (l :: L) r = some x) :
    vOutMeta = [] ∧ addFullCallback gone r sid l vOutMeta cbs = none ∨
      vOutMeta ≠ [] ∧ ∃ cb, addFullCallback gone r sid l vOutMeta cbs = some (cbs ++ [cb]) ∧
        cb.listener = x ∧ cb.requestNo = r ∧ cb.streamId = sid := by
  rw [served] at h
  split at h
  · rename_i hcan
    rw [addFullCallback, if_pos hcan, h]
    cases vOutMeta with
    | nil => exact .inl ⟨rfl, rfl⟩
    | cons b bs => exact .inr ⟨List.cons_ne_nil b bs, _, rfl, rfl, rfl, rfl⟩
  · cases h

theorem handleFullItem_of_not (L : List RangeListener) (cbs : List Callback)
    (h : (item.isLast && !item.isReturned) = false) :
    handleFullItem gone L item cbs = some (item, cbs) := by
  induction L with
  | nil => rfl
  | cons l L ih =>
    rw [handleFullItem, h]
    exact ih

theorem isReturned_mark (item : ResultItem) :
    { item with status := item.status.markBit RETURNED }.isReturned = true :=
  BitSet32.hasBit_markBit_self (by decide)

theorem isLast_mark (item : ResultItem) :
    { item with status := item.status.markBit RETURNED }.isLast = item.isLast := by
  rw [ResultItem.isLast, ResultItem.isLast, BitSet32.hasBit_markBit]
  simp [RETURNED, LAST_PARTIAL]

/-- **The loop over the listeners** of an item that is to be handed out: the first listener is
called back, the others are not. -/
theorem handleFullItem_cons {l : RangeListener} (h : (item.isLast && !item.isReturned) = true) :
    handleFullItem gone (l :: L) item [] =
      (addFullCallback gone item.requestNo eSTREAMID_META_APP_FULL l item.outAppBuffer []).bind
        fun cbs =>
          (addFullCallback gone item.requestNo eSTREAMID_META_HAL_FULL l item.outHalBuffer
            cbs).bind fun cbs =>
              some ({ item with status := item.status.markBit RETURNED }, cbs) := by
  rw [handleFullItem, if_pos h]
  have hrest : ∀ cbs, handleFullItem gone L
      { item with status := item.status.markBit RETURNED } cbs =
        some ({ item with status := item.status.markBit RETURNED }, cbs) := fun cbs =>
    handleFullItem_of_not L cbs (by rw [isReturned_mark, Bool.not_true, Bool.and_false])
  simp only [hrest]
  rfl

/-- What a listener loop does with an item that has not been handed out: nothing, if there is
nobody to serve; one callback of each kind, or the end of the process. -/
inductive ItemHandled (gone : List IListener) (L : List RangeListener) (item : ResultItem) :
    Option (ResultItem × List Callback) → Prop
  | nobody {item' : ResultItem} (hlast : item'.isLast = item.isLast)
      (hnone : item.isLast = true → served gone L item.requestNo = none) :
      ItemHandled gone L item (some (item', []))
  | ended {x : IListener} (hitem : item.isLast = true)
      (hserved : served gone L item.requestNo = some x)
      (hempty : ¬ (item.outAppBuffer ≠ [] ∧ item.outHalBuffer ≠ [])) :
      ItemHandled gone L item none
  | served {x : IListener} {item' : ResultItem} {app hal : Callback} (hitem : item.isLast = true)
      (hlast : item'.isLast = true) (hserved : served gone L item.requestNo = some x)
      (happ : item.outAppBuffer ≠ []) (hhal : item.outHalBuffer ≠ [])
      (happcb : app.listener = x ∧ app.requestNo = item.requestNo ∧
        app.streamId = eSTREAMID_META_APP_FULL)
      (hhalcb : hal.listener = x ∧ hal.requestNo = item.requestNo ∧
        hal.streamId = eSTREAMID_META_HAL_FULL) :
      ItemHandled gone L item (some (item', [app, hal]))

theorem itemHandled (gone : List IListener) (L : List RangeListener)
    (h : item.isReturned = false) : ItemHandled gone L item (handleFullItem gone L item []) := by
  cases hlast : item.isLast with
  | false =>
    rw [handleFullItem_of_not L [] (by rw [hlast, Bool.false_and])]
    exact .nobody rfl fun h => absurd hlast (by simp [h])
  | true =>
    cases L with
    | nil => exact .nobody rfl fun _ => rfl
    | cons l L =>
      rw [handleFullItem_cons (by rw [hlast, h]; rfl)]
      cases hserved : ResultProcessor.served gone (l :: L) item.requestNo with
      | none =>
        rw [addFullCallback_of_none hserved, Option.bind_some,
          addFullCallback_of_none hserved, Option.bind_some]
        exact .nobody (isLast_mark item) fun _ => hserved
      | some x =>
        obtain ⟨happ, hcbs⟩ | ⟨happ, app, hcbs, happcb⟩ :=
          addFullCallback_of_some eSTREAMID_META_APP_FULL item.outAppBuffer [] hserved
        · rw [hcbs, Option.bind_none]
          exact .ended hlast hserved fun hne => hne.1 happ
        · rw [hcbs, Option.bind_some]
          obtain ⟨hhal, hcbs⟩ | ⟨hhal, hal, hcbs, hhalcb⟩ :=
            addFullCallback_of_some eSTREAMID_META_HAL_FULL item.outHalBuffer ([] ++ [app])
              hserved
          · rw [hcbs, Option.bind_none]
            exact .ended hlast hserved fun hne => hne.2 hhal
          · rw [hcbs, Option.bind_some]
            exact .served hlast (by rw [isLast_mark, hlast]) hserved happ hhal happcb hhalcb

/-! ### The full results of a queue -/

theorem deliveries_append (events o : List ResultEvent) (x : IListener) (r : ℕ)
    (sid : StreamId) :
    deliveries (events ++ o) x r sid = deliveries events x r sid + deliveries o x r sid :=
  List.countP_append

theorem deliveries_eq_zero (h : ∀ cb, .fullResult cb ∉ o) : deliveries o x r sid = 0 := by
  rw [deliveries, List.countP_eq_zero]
  intro event hmem hfull
  cases event with
  | fullResult cb => exact h cb hmem
  | partialResult _ | onFrameEnd _ _ | onMetaReceived _ _ => cases hfull

theorem mem_handleFullResultCallback {items : List (ℕ × ResultItem)} {cb : Callback}
    (hclean : ∀ e ∈ items, e.2.isReturned = false)
    (hmem : .fullResult cb ∈ (handleFullResultCallback gone L items).2) :
    served gone L cb.requestNo = some cb.listener := by
  induction items with
  | nil => cases hmem
  | cons e items ih =>
    obtain ⟨k, item⟩ := e
    have hrest := ih fun e he => hclean e (List.mem_cons_of_mem _ he)
    rw [handleFullResultCallback] at hmem
    have hitem := itemHandled gone L (hclean (k, item) List.mem_cons_self)
    revert hmem
    generalize handleFullItem gone L item [] = result at hitem
    cases hitem with
    | nobody hlast hnone => exact hrest
    | ended hitem hserved hempty => simp
    | served hitem hlast hserved happ hhal happcb hhalcb =>
      intro hmem
      simp only [List.map_cons, List.map_nil, List.cons_append, List.nil_append,
        List.mem_cons, ResultEvent.fullResult.injEq] at hmem
      obtain rfl | rfl | hmem := hmem
      · rw [happcb.2.1, happcb.1, hserved]
      · rw [hhalcb.2.1, hhalcb.1, hserved]
      · exact hrest hmem

/-- The items are handled up to the end exactly when each that is served has both kinds of
metadata. -/
theorem handleFullResultCallback_handled_iff {items : List (ℕ × ResultItem)}
    (hclean : ∀ e ∈ items, e.2.requestNo = e.1 ∧ e.2.isReturned = false) :
    (handleFullResultCallback gone L items).1 = true ↔
      ∀ e ∈ items, e.2.isLast = true → ∀ x, served gone L e.1 = some x →
        e.2.outAppBuffer ≠ [] ∧ e.2.outHalBuffer ≠ [] := by
  induction items with
  | nil => simp [handleFullResultCallback]
  | cons e items ih =>
    obtain ⟨k, item⟩ := e
    obtain ⟨hk, hreturned⟩ := hclean (k, item) List.mem_cons_self
    have hrest := ih fun e he => hclean e (List.mem_cons_of_mem _ he)
    simp only at hk hreturned
    rw [handleFullResultCallback, List.forall_mem_cons]
    have hitem := itemHandled gone L hreturned
    generalize handleFullItem gone L item [] = result at hitem
    cases hitem with
    | nobody hlast hnone =>
      rw [hk] at hnone
      refine hrest.trans ⟨fun hall => ⟨fun hlast x hserved => ?_, hall⟩, And.right⟩
      rw [hnone hlast] at hserved
      cases hserved
    | ended hitem hserved hempty =>
      rw [hk] at hserved
      exact iff_of_false (by simp) fun hall => hempty (hall.1 hitem _ hserved)
    | served hitem hlast hserved happ hhal happcb hhalcb =>
      exact hrest.trans ⟨fun hall => ⟨fun _ _ _ => ⟨happ, hhal⟩, hall⟩, And.right⟩

theorem deliveries_handleFullResultCallback {items : List (ℕ × ResultItem)}
    (hclean : ∀ e ∈ items, e.2.requestNo = e.1 ∧ e.2.isReturned = false)
    (hkeys : (items.map Prod.fst).Nodup) (hsid : sid ∈ fullStreams)
    (hhandled : (handleFullResultCallback gone L items).1 = true) :
    deliveries (handleFullResultCallback gone L items).2 x r sid =
      if (items.any fun e => r == e.1 && e.2.isLast) = true ∧ served gone L r = some x then 1
      else 0 := by
  induction items with
  | nil => simp [handleFullResultCallback, deliveries]
  | cons e items ih =>
    obtain ⟨k, item⟩ := e
    obtain ⟨hk, hreturned⟩ := hclean (k, item) List.mem_cons_self
    rw [List.map_cons, List.nodup_cons] at hkeys
    have hrest := ih (fun e he => hclean e (List.mem_cons_of_mem _ he)) hkeys.2
    simp only at hk hreturned hkeys
    rw [handleFullResultCallback] at hhandled ⊢
    rw [List.any_cons]
    have hitem := itemHandled gone L hreturned
    generalize handleFullItem gone L item [] = result at hitem hhandled
    cases hitem with
    | nobody hlast hnone =>
      rw [hk] at hnone
      simp only [List.map_nil, List.nil_append]
      rw [hrest hhandled]
      refine if_congr (and_congr_left fun hserved => ?_) rfl rfl
      simp only [Bool.or_eq_true, Bool.and_eq_true, beq_iff_eq]
      refine ⟨.inr, fun hor => hor.resolve_left ?_⟩
      rintro ⟨rfl, hlast⟩
      rw [hnone hlast] at hserved
      cases hserved
    | ended hitem hserved hempty => cases hhandled
    | @served y _ app hal hitem hlast hserved happ hhal happcb hhalcb =>
      rw [hk] at hserved happcb hhalcb
      simp only [List.map_cons, List.map_nil]
      rw [deliveries_append, hrest hhandled]
      by_cases hr : r = k
      · obtain rfl := hr
        have hnone : (items.any fun e => r == e.1 && e.2.isLast) = false := by
          rw [List.any_eq_false]
          intro e he hany
          rw [Bool.and_eq_true, beq_iff_eq] at hany
          exact hkeys.1 (List.mem_map.mpr ⟨e, he, hany.1.symm⟩)
        rw [hnone, if_neg (by simp), hserved]
        simp only [fullStreams, List.mem_cons, List.not_mem_nil, or_false] at hsid
        obtain rfl | rfl := hsid <;>
          simp [deliveries, isFull, happcb, hhalcb, hitem, List.countP_cons,
            eSTREAMID_META_APP_FULL, eSTREAMID_META_HAL_FULL]
      · have hzero : deliveries [.fullResult app, .fullResult hal] x r sid = 0 := by
          simp [deliveries, isFull, happcb, hhalcb, Ne.symm hr]
        rw [hzero, Nat.zero_add, beq_false_of_ne hr, Bool.false_and, Bool.false_or]

/-! ### A call of `handleResult` -/

/-- `L'` is `L` without some of the listeners that are gone. -/
def Kept (gone : List IListener) (L L' : List RangeListener) : Prop :=
  ∃ keep : RangeListener → Bool, L' = L.filter keep ∧
    ∀ l, (getListener gone l).isSome = true → keep l = true

theorem Kept.refl (gone : List IListener) (L : List RangeListener) : Kept gone L L :=
  ⟨fun _ => true, (List.filter_true L).symm, fun _ _ => rfl⟩

theorem Kept.listens_iff {L' : List RangeListener} (h : Kept gone L L') :
    Listens gone L' x r ↔ Listens gone L x r := by
  obtain ⟨keep, rfl, hkeep⟩ := h
  constructor
  · rintro ⟨l, hl, hcan, hget⟩
    exact ⟨l, (List.mem_filter.mp hl).1, hcan, hget⟩
  · rintro ⟨l, hl, hcan, hget⟩
    exact ⟨l, List.mem_filter.mpr ⟨hl, hkeep l (by rw [hget, Option.isSome_some])⟩, hcan, hget⟩

theorem Kept.served {L' : List RangeListener} (h : Kept gone L L')
    (hserved : ResultProcessor.served gone L r = some x) :
    ResultProcessor.served gone L' r = some x := by
  obtain ⟨keep, rfl, hkeep⟩ := h
  cases L with
  | nil => exact hserved
  | cons l L =>
    rw [ResultProcessor.served] at hserved
    split at hserved
    · rename_i hcan
      rw [List.filter_cons_of_pos (hkeep l (by rw [hserved, Option.isSome_some])),
        ResultProcessor.served, if_pos hcan, hserved]
    · cases hserved

theorem handleFrameEnds_spec (p : ResultProcessor) (rvFrameEnd : List ℕ) :
    ∃ range stream full, (p.handleFrameEnds rvFrameEnd).1 = { p with
        mRangeListenerList := range
        mStreamListenerList := stream
        mFullListenerList := full } ∧
      Kept p.gone p.mFullListenerList full ∧
      ∀ cb, .fullResult cb ∉ (p.handleFrameEnds rvFrameEnd).2 := by
  induction rvFrameEnd generalizing p with
  | nil => exact ⟨_, _, _, rfl, .refl _ _, fun cb => List.not_mem_nil⟩
  | cons requestNo rvFrameEnd ih =>
    obtain ⟨range, stream, full, hp, ⟨keep, hfull, hkeep⟩, hevents⟩ := ih { p with
      mRangeListenerList := (handleFrameEnd p.gone requestNo p.mRangeListenerList).1
      mStreamListenerList := (handleFrameEnd p.gone requestNo p.mStreamListenerList).1
      mFullListenerList := (handleFrameEnd p.gone requestNo p.mFullListenerList).1 }
    refine ⟨range, stream, full, hp, ⟨fun l => keep l && (getListener p.gone l).isSome, ?_,
      fun l hl => ?_⟩, fun cb hmem => ?_⟩
    · rw [hfull]
      exact List.filter_filter
    · dsimp only
      rw [hkeep l hl, hl, Bool.true_and]
    · simp only [handleFrameEnds, List.mem_append] at hmem
      obtain ((hmem | hmem) | hmem) | hmem := hmem
      · simp [handleFrameEnd] at hmem
      · simp [handleFrameEnd] at hmem
      · simp [handleFrameEnd] at hmem
      · exact hevents cb hmem

theorem handleEarly_spec (p : ResultProcessor) (items : List EarlyResultItem) :
    ∃ early, (p.handleEarly items).1 = { p with mEarlyListenerList := early } ∧
      ∀ cb, .fullResult cb ∉ (p.handleEarly items).2 := by
  induction items generalizing p with
  | nil => exact ⟨_, rfl, fun cb => List.not_mem_nil⟩
  | cons item items ih =>
    obtain ⟨early, hp, hevents⟩ := ih { p with
      mEarlyListenerList := p.mEarlyListenerList.filter (· ∉ p.gone) }
    refine ⟨early, hp, fun cb hmem => ?_⟩
    simp only [handleEarly, List.mem_append] at hmem
    obtain hmem | hmem := hmem
    · simp at hmem
    · exact hevents cb hmem

theorem clean_handled (gone : List IListener) (hclean : Clean q) (L : List RangeListener) :
    Clean ((q.mapVal fun _ => handledItem gone L).filterVal (!·.isLast)) ∧
      ∀ r, lastIn ((q.mapVal fun _ => handledItem gone L).filterVal (!·.isLast)) r = false := by
  constructor
  · intro r item hfind
    rw [KeyedVector.find?_filterVal, KeyedVector.find?_mapVal, Option.filter_eq_some_iff,
      Option.map_eq_some_iff] at hfind
    obtain ⟨⟨item₀, hfind, rfl⟩, hlast⟩ := hfind
    rw [Bool.not_eq_true'] at hlast
    have hitem := itemHandled gone L (hclean r item₀ hfind).2
    have hnot : item₀.isLast = false := by
      rw [handledItem] at hlast
      revert hlast
      generalize handleFullItem gone L item₀ [] = result at hitem
      cases hitem with
      | nobody hlast hnone =>
        intro hlast'
        rw [← hlast]
        exact hlast'
      | ended hitem hserved hempty =>
        intro hlast
        exact hlast
      | served hitem hlast hserved happ hhal happcb hhalcb =>
        intro hlast'
        exact absurd hlast (by simpa using hlast')
    rw [handledItem, handleFullItem_of_not L [] (by rw [hnot, Bool.false_and])]
    exact hclean r item₀ hfind
  · intro r
    rw [lastIn, KeyedVector.find?_filterVal, Option.any_filter]
    cases ((q.mapVal fun _ => handledItem gone L).find? r) with
    | none => rfl
    | some item => simp

/-- **A call of `handleResult`**, by what it makes of the full results. -/
inductive Handled (p : ResultProcessor) (rvResult : BufQue) :
    ResultProcessor → List ResultEvent → Prop
  | ended {p' : ResultProcessor} {o : List ResultEvent}
      (hnot : (handleFullResultCallback p.gone p.mFullListenerList
        (p.collected rvResult).entries).1 = false)
      (haborted : p'.aborted = true) (hgone : p'.gone = p.gone)
      (hlist : p'.mFullListenerList = p.mFullListenerList) (hthread : p'.thread = p.thread)
      (hresult : p'.mResultQueue = p.mResultQueue)
      (hqueue : p'.mFullResultQueue = p.collected rvResult)
      (hfull : ∀ cb, .fullResult cb ∈ o → .fullResult cb ∈ (handleFullResultCallback p.gone
        p.mFullListenerList (p.collected rvResult).entries).2) :
      Handled p rvResult p' o
  | handled {p' : ResultProcessor} {o : List ResultEvent}
      (hhandled : (handleFullResultCallback p.gone p.mFullListenerList
        (p.collected rvResult).entries).1 = true)
      (haborted : p'.aborted = p.aborted) (hgone : p'.gone = p.gone)
      (hkept : Kept p.gone p.mFullListenerList p'.mFullListenerList)
      (hthread : p'.thread = .looping ∨ p'.thread = .exited)
      (hresult : p'.mResultQueue = p.mResultQueue)
      (hqueue : p'.mFullResultQueue = ((p.collected rvResult).mapVal fun _ =>
        handledItem p.gone p.mFullListenerList).filterVal (!·.isLast))
      (hfull : ∀ cb, .fullResult cb ∈ o → .fullResult cb ∈ (handleFullResultCallback p.gone
        p.mFullListenerList (p.collected rvResult).entries).2)
      (hdeliveries : ∀ x r sid, deliveries o x r sid = deliveries (handleFullResultCallback
        p.gone p.mFullListenerList (p.collected rvResult).entries).2 x r sid) :
      Handled p rvResult p' o

theorem not_mem_handlePartialResultCallback (p : ResultProcessor) (rvResult : BufQue)
    (cb : Callback) : .fullResult cb ∉ (p.handlePartialResultCallback rvResult).2 := by
  intro hmem
  rw [handlePartialResultCallback, List.mem_flatMap] at hmem
  obtain ⟨e, -, hmem⟩ := hmem
  simp at hmem

theorem handled_handleResult (p : ResultProcessor) (rvResult : BufQue) (rvEarlyResult : EBufQue)
    (rvFrameEnd : List ℕ) :
    Handled p rvResult (p.handleResult rvResult rvEarlyResult rvFrameEnd).1
      (p.handleResult rvResult rvEarlyResult rvFrameEnd).2 := by
  have hpartials := not_mem_handlePartialResultCallback p rvResult
  rw [handleResult]
  dsimp only
  split
  · rename_i events₂ hcallback
    have hevents : (handleFullResultCallback p.gone p.mFullListenerList
        (p.collected rvResult).entries) = (false, events₂) := hcallback
    refine .ended (by rw [hevents]) rfl rfl rfl rfl rfl rfl fun cb hmem => ?_
    rw [hevents]
    exact (List.mem_append.mp hmem).resolve_left (hpartials cb)
  · rename_i events₂ hcallback
    have hevents : (handleFullResultCallback p.gone p.mFullListenerList
        (p.collected rvResult).entries) = (true, events₂) := hcallback
    generalize hp₂ : ({ (p.handlePartialResultCallback rvResult).1 with
      mFullResultQueue := _ } : ResultProcessor) = p₂
    obtain ⟨range, stream, full, hp₃, hkept, hframes⟩ := handleFrameEnds_spec p₂ rvFrameEnd
    obtain ⟨early, hp₄, hearly⟩ := handleEarly_spec (p₂.handleFrameEnds rvFrameEnd).1
      (rvEarlyResult.entries.map Prod.snd)
    conv_rhs at hp₄ => rw [hp₃]
    have hgone : p₂.gone = p.gone := by rw [← hp₂]; rfl
    have hlist : p₂.mFullListenerList = p.mFullListenerList := by rw [← hp₂]; rfl
    rw [hp₄]
    refine .handled (by rw [hevents]) ?_ hgone ?_ ?_ ?_ ?_ ?_ ?_
    · rw [← hp₂]
      rfl
    · rw [← hgone, ← hlist]
      exact hkept
    · rw [loop]
      dsimp only
      split
      · exact .inr rfl
      · exact .inl rfl
    · rw [← hp₂]
      rfl
    · rw [← hp₂]
      rfl
    · intro cb hmem
      rw [hevents]
      obtain ((hmem | hmem) | hmem) | hmem := by simpa only [List.mem_append] using hmem
      · exact absurd hmem (hpartials cb)
      · exact hmem
      · exact absurd hmem (hframes cb)
      · exact absurd hmem (hearly cb)
    · intro x r sid
      rw [hevents, deliveries_append, deliveries_append, deliveries_append,
        deliveries_eq_zero hpartials, deliveries_eq_zero hframes, deliveries_eq_zero hearly,
        Nat.zero_add, Nat.add_zero]

/-! ### Steps -/

/-- What a step other than a call of `handleResult` does. -/
structure Quiet (p p' : ResultProcessor) : Prop where
  aborted : p'.aborted = p.aborted
  queue : p'.mFullResultQueue = p.mFullResultQueue ∨ p'.mFullResultQueue = .empty
  list : p'.mFullListenerList = p.mFullListenerList ∨ p'.mFullListenerList = []
  gone : ∀ x ∈ p.gone, x ∈ p'.gone

theorem Quiet.of_eq (haborted : p'.aborted = p.aborted)
    (hqueue : p'.mFullResultQueue = p.mFullResultQueue)
    (hlist : p'.mFullListenerList = p.mFullListenerList) (hgone : p'.gone = p.gone) :
    Quiet p p' :=
  ⟨haborted, .inl hqueue, .inl hlist, fun x hx => by rw [hgone]; exact hx⟩

theorem Quiet.broadcast (h : Quiet p p') : Quiet p p'.broadcast := by
  rw [ResultProcessor.broadcast]
  split
  · exact ⟨h.aborted, h.queue, h.list, h.gone⟩
  · exact h

theorem quiet_updateFrame (p : ResultProcessor) (requestNo : ℕ) (result : FrameResult) :
    Quiet p (p.updateFrame requestNo result) := by
  rw [updateFrame]
  split
  · exact .of_eq rfl rfl rfl rfl
  · split
    · exact .of_eq rfl rfl rfl rfl
    · exact .broadcast (.of_eq rfl rfl rfl rfl)

theorem quiet_onMetaCallback (p : ResultProcessor) (item : EarlyResultItem) :
    Quiet p (p.onMetaCallback item) := by
  rw [onMetaCallback]
  split
  · exact .of_eq rfl rfl rfl rfl
  · split
    · exact .of_eq rfl rfl rfl rfl
    · exact .broadcast (.of_eq rfl rfl rfl rfl)

theorem quiet_dequeResult (p : ResultProcessor) : Quiet p p.dequeResult := by
  rw [dequeResult]
  split
  · split <;> exact .of_eq rfl rfl rfl rfl
  · exact .of_eq rfl rfl rfl rfl

theorem quiet_flush (h : p.flush = .ok p') : Quiet p p' := by
  rw [flush] at h
  split at h
  · cases h
    exact .of_eq rfl rfl rfl rfl
  · cases h
    exact ⟨rfl, .inl rfl, .inr rfl, fun _ hx => hx⟩
  · cases h
    exact .broadcast (.of_eq rfl rfl rfl rfl)
  · cases h
    exact ⟨rfl, .inr rfl, .inl rfl, fun _ hx => hx⟩
  · split at h
    · cases h
      exact .of_eq rfl rfl rfl rfl
    · cases h
  · cases h

/-- **One step**: a call of `handleResult`, or a step that hands out no result. -/
theorem step_cases (hstep : resultProcessor p op = .ok (p', o)) :
    p.aborted = false ∧
      ((∃ rvResult rvEarlyResult rvFrameEnd, op = .handleResult ∧
          p.thread = .handling rvResult rvEarlyResult rvFrameEnd ∧ Handled p rvResult p' o) ∨
        (op ≠ .handleResult ∧ o = [] ∧ Quiet p p')) := by
  rw [resultProcessor] at hstep
  unfold step at hstep
  split at hstep
  · cases hstep
  rename_i haborted
  refine ⟨by simpa using haborted, ?_⟩
  cases op with
  | updateFrame requestNo result =>
    obtain ⟨rfl, rfl⟩ := Prod.ext_iff.mp (Except.ok.inj hstep)
    exact .inr ⟨by simp, rfl, quiet_updateFrame _ _ _⟩
  | onMetaCallback requestNo streamId rMetaData errorResult =>
    obtain ⟨rfl, rfl⟩ := Prod.ext_iff.mp (Except.ok.inj hstep)
    exact .inr ⟨by simp, rfl, quiet_onMetaCallback _ _⟩
  | dequeResult =>
    dsimp only at hstep
    split at hstep
    · obtain ⟨rfl, rfl⟩ := Prod.ext_iff.mp (Except.ok.inj hstep)
      exact .inr ⟨by simp, rfl, quiet_dequeResult _⟩
    · cases hstep
  | wakeUp =>
    dsimp only at hstep
    split at hstep
    · obtain ⟨rfl, rfl⟩ := Prod.ext_iff.mp (Except.ok.inj hstep)
      exact .inr ⟨by simp, rfl, quiet_dequeResult _⟩
    · cases hstep
  | handleResult =>
    dsimp only at hstep
    split at hstep
    · rename_i rvResult rvEarlyResult rvFrameEnd hthread
      have hhandled := handled_handleResult p rvResult rvEarlyResult rvFrameEnd
      rw [Except.ok.inj hstep] at hhandled
      exact .inl ⟨rvResult, rvEarlyResult, rvFrameEnd, rfl, hthread, hhandled⟩
    · cases hstep
  | flush =>
    dsimp only at hstep
    split at hstep
    · rename_i hflush
      obtain ⟨rfl, rfl⟩ := Prod.ext_iff.mp (Except.ok.inj hstep)
      exact .inr ⟨by simp, rfl, quiet_flush hflush⟩
    · cases hstep
  | drop listener =>
    obtain ⟨rfl, rfl⟩ := Prod.ext_iff.mp (Except.ok.inj hstep)
    exact .inr ⟨by simp, rfl, rfl, .inl rfl, .inl rfl, fun _ hx => List.mem_cons_of_mem _ hx⟩

/-- What holds in every run: the items of the full results are clean and not complete, and whoever
has received a full result is the client of the first listener, until it is gone. -/
structure Tidy (events : List ResultEvent) (p : ResultProcessor) : Prop where
  clean : Clean p.mFullResultQueue
  not_last : p.aborted = false → ∀ r, lastIn p.mFullResultQueue r = false
  delivered : ∀ cb, .fullResult cb ∈ events → cb.listener ∉ p.gone →
    p.mFullListenerList = [] ∨
      served p.gone p.mFullListenerList cb.requestNo = some cb.listener

theorem served_of_not_gone {gone' : List IListener} (hserved : served gone L r = some x)
    (hx : x ∉ gone') : served gone' L r = some x := by
  cases L with
  | nil => cases hserved
  | cons l L =>
    rw [served] at hserved ⊢
    split at hserved
    · rename_i hcan
      obtain ⟨rfl, -⟩ := getListener_eq_some hserved
      rw [if_pos hcan, getListener, if_neg hx]
    · cases hserved

theorem Tidy.step (h : Tidy events p) (hstep : resultProcessor p op = .ok (p', o)) :
    Tidy (events ++ o) p' := by
  obtain ⟨hrunning, ⟨rvResult, rvEarlyResult, rvFrameEnd, -, -, hhandled⟩ | ⟨-, rfl, hquiet⟩⟩ :=
    step_cases hstep
  · have hclean : Clean (p.collected rvResult) := clean_collect h.clean
    have hitems : ∀ e ∈ (p.collected rvResult).entries, e.2.isReturned = false := fun e he =>
      (hclean e.1 e.2 (KeyedVector.find?_eq_some_iff.mpr he)).2
    cases hhandled with
    | ended hnot haborted hgone hlist hthread hresult hqueue hfull =>
      refine ⟨by rw [hqueue]; exact hclean, fun hrunning' => ?_, fun cb hmem hcb => ?_⟩
      · rw [haborted] at hrunning'
        cases hrunning'
      · rw [hgone] at hcb ⊢
        rw [hlist]
        obtain hmem | hmem := List.mem_append.mp hmem
        · exact h.delivered cb hmem hcb
        · exact .inr (mem_handleFullResultCallback hitems (hfull cb hmem))
    | handled hall haborted hgone hkept hthread hresult hqueue hfull hdeliveries =>
      obtain ⟨hclean', hlast'⟩ := clean_handled p.gone hclean p.mFullListenerList
      refine ⟨by rw [hqueue]; exact hclean', fun _ => by rw [hqueue]; exact hlast',
        fun cb hmem hcb => ?_⟩
      rw [hgone] at hcb ⊢
      obtain hmem | hmem := List.mem_append.mp hmem
      · obtain hnil | hserved := h.delivered cb hmem hcb
        · obtain ⟨keep, hlist, -⟩ := hkept
          exact .inl (by rw [hlist, hnil, List.filter_nil])
        · exact .inr (hkept.served hserved)
      · exact .inr (hkept.served (mem_handleFullResultCallback hitems (hfull cb hmem)))
  · rw [List.append_nil]
    refine ⟨?_, fun hrunning' r => ?_, fun cb hmem hcb => ?_⟩
    · obtain hqueue | hqueue := hquiet.queue
      · rw [hqueue]
        exact h.clean
      · rw [hqueue]
        exact .empty
    · obtain hqueue | hqueue := hquiet.queue
      · rw [hqueue]
        exact h.not_last hrunning r
      · rw [hqueue]
        rfl
    · obtain hlist | hlist := hquiet.list
      · rw [hlist]
        refine (h.delivered cb hmem fun hgone => hcb (hquiet.gone _ hgone)).imp_right ?_
        exact fun hserved => served_of_not_gone hserved hcb
      · exact .inl hlist

/-! ### Exactly once -/

theorem Quiet.listens (h : Quiet p p') (hlistens : Listens p'.gone p'.mFullListenerList x r) :
    Listens p.gone p.mFullListenerList x r := by
  obtain ⟨l, hl, hcan, hget⟩ := hlistens
  obtain hlist | hlist := h.list
  · rw [hlist] at hl
    obtain ⟨rfl, hx⟩ := getListener_eq_some hget
    exact ⟨l, hl, hcan, by rw [getListener, if_neg fun hgone => hx (h.gone _ hgone)]⟩
  · rw [hlist] at hl
    cases hl

/-- A request is completed by a call exactly when the last update of the request is collected. -/
theorem handlesLast_iff {rvResult : BufQue} {rvEarlyResult : EBufQue} {rvFrameEnd : List ℕ}
    (hnot : ∀ r, lastIn p.mFullResultQueue r = false)
    (hthread : p.thread = .handling rvResult rvEarlyResult rvFrameEnd) :
    HandlesLast r p .handleResult ↔
      ((p.collected rvResult).entries.any fun e => r == e.1 && e.2.isLast) = true := by
  rw [← lastIn_eq_any, collected, lastIn_collect, hnot, Bool.false_or, ← lastIn_eq_any, lastIn,
    Option.any_eq_true, HandlesLast]
  constructor
  · rintro ⟨-, rvResult', _, _, item, hthread', hfind, hlast⟩
    rw [hthread] at hthread'
    cases hthread'
    exact ⟨item, hfind, hlast⟩
  · rintro ⟨item, hfind, hlast⟩
    exact ⟨rfl, rvResult, rvEarlyResult, rvFrameEnd, item, hthread, hfind, hlast⟩

theorem not_servesAll_of_ended {rvResult : BufQue} {rvEarlyResult : EBufQue}
    {rvFrameEnd : List ℕ} (htidy : Tidy events p)
    (hthread : p.thread = .handling rvResult rvEarlyResult rvFrameEnd)
    (hnot : (handleFullResultCallback p.gone p.mFullListenerList
      (p.collected rvResult).entries).1 = false) : ¬ p.ServesAll events .handleResult := by
  intro hserves
  simp only [ServesAll, hthread] at hserves
  have hclean : Clean (p.collected rvResult) := clean_collect htidy.clean
  refine absurd ((handleFullResultCallback_handled_iff fun e he => ?_).mpr ?_)
    (by rw [hnot]; exact Bool.false_ne_true)
  · exact hclean e.1 e.2 (KeyedVector.find?_eq_some_iff.mpr he)
  · intro e he hlast x hserved
    obtain ⟨l, hl, hcan, hget⟩ := listens_of_served hserved
    obtain ⟨-, happ, hhal, -⟩ := hserves e he hlast l hl hcan (by rw [hget]; rfl)
    exact ⟨happ, hhal⟩

theorem ExactlyOnce.handled_iff {rvResult : BufQue} {rvEarlyResult : EBufQue}
    {rvFrameEnd : List ℕ} (hrun : resultProcessor.Runs p₀ ops p events)
    (h : ExactlyOnce p₀ ops events p) (htidy : Tidy events p)
    (hthread : p.thread = .handling rvResult rvEarlyResult rvFrameEnd)
    (hall : (handleFullResultCallback p.gone p.mFullListenerList
      (p.collected rvResult).entries).1 = true)
    (haborted : p'.aborted = p.aborted) (hgone : p'.gone = p.gone)
    (hkept : Kept p.gone p.mFullListenerList p'.mFullListenerList)
    (hdeliveries : ∀ x r sid, deliveries o x r sid = deliveries (handleFullResultCallback
      p.gone p.mFullListenerList (p.collected rvResult).entries).2 x r sid) :
    ExactlyOnce p₀ (ops ++ [.handleResult]) (events ++ o) p' ↔
      p.ServesAll events .handleResult := by
  have hclean : Clean (p.collected rvResult) := clean_collect htidy.clean
  have hitems : ∀ e ∈ (p.collected rvResult).entries,
      e.2.requestNo = e.1 ∧ e.2.isReturned = false := fun e he =>
    hclean e.1 e.2 (KeyedVector.find?_eq_some_iff.mpr he)
  have hlisten : ∀ x r, Listens p'.gone p'.mFullListenerList x r ↔
      Listens p.gone p.mFullListenerList x r := fun x r => by rw [hgone, hkept.listens_iff]
  have hcompleted : ∀ r, Completed p₀ (ops ++ [.handleResult]) r ↔ Completed p₀ ops r ∨
      ((p.collected rvResult).entries.any fun e => r == e.1 && e.2.isLast) = true := fun r =>
    (Machine.met_snoc hrun).trans
      (or_congr_right (handlesLast_iff (htidy.not_last h.running) hthread))
  have hcount : ∀ x r, ∀ sid ∈ fullStreams, deliveries (events ++ o) x r sid =
      deliveries events x r sid +
        if ((p.collected rvResult).entries.any fun e => r == e.1 && e.2.isLast) = true ∧
          served p.gone p.mFullListenerList r = some x then 1 else 0 := fun x r sid hsid => by
    rw [deliveries_append, hdeliveries, deliveries_handleFullResultCallback hitems
      (p.collected rvResult).nodup_keys hsid hall]
  have happ : eSTREAMID_META_APP_FULL ∈ fullStreams := List.mem_cons_self
  constructor
  · intro h'
    simp only [ServesAll, hthread]
    intro e he hlast l hl hcan hget
    obtain ⟨x, hget⟩ := Option.isSome_iff_exists.mp hget
    obtain ⟨rfl, hx⟩ := getListener_eq_some hget
    have hlistens : Listens p.gone p.mFullListenerList (ListenerBase.listener l) e.1 :=
      ⟨l, hl, hcan, hget⟩
    have hany : ((p.collected rvResult).entries.any fun e' => e.1 == e'.1 && e'.2.isLast) =
        true := List.any_eq_true.mpr ⟨e, he, by simp [hlast]⟩
    have hone := h'.received _ _ ((hlisten _ _).mpr hlistens) _ happ
      ((hcompleted e.1).mpr (.inr hany))
    rw [hcount _ _ _ happ] at hone
    -- a listener that has been served before is the client of the first listener still
    have hserved : served p.gone p.mFullListenerList e.1 = some (ListenerBase.listener l) := by
      by_contra hnot
      rw [if_neg fun hand => hnot hand.2, Nat.add_zero] at hone
      have hpos : 0 < deliveries events (ListenerBase.listener l) e.1 eSTREAMID_META_APP_FULL :=
        by rw [hone]; exact Nat.one_pos
      obtain ⟨event, hmem, hfull⟩ := List.countP_pos_iff.mp hpos
      cases event with
      | partialResult _ | onFrameEnd _ _ | onMetaReceived _ _ => cases hfull
      | fullResult cb =>
        simp only [isFull, Bool.and_eq_true, beq_iff_eq] at hfull
        obtain ⟨⟨hcb, hr⟩, -⟩ := hfull
        obtain hnil | hserved := htidy.delivered cb hmem (by rw [hcb]; exact hx)
        · rw [hnil] at hl
          cases hl
        · rw [hcb, hr] at hserved
          exact hnot hserved
    rw [if_pos ⟨hany, hserved⟩] at hone
    obtain ⟨hne, hne'⟩ := (handleFullResultCallback_handled_iff hitems).mp hall e he hlast _
      hserved
    exact ⟨hserved.trans hget.symm, hne, hne', by omega⟩
  · intro hserves
    simp only [ServesAll, hthread] at hserves
    refine ⟨haborted.trans h.running, fun x r hlistens sid hsid hdone => ?_,
      fun x r hlistens sid hsid hnot => ?_⟩
    · rw [hlisten] at hlistens
      rw [hcount x r sid hsid]
      by_cases hany :
          ((p.collected rvResult).entries.any fun e => r == e.1 && e.2.isLast) = true
      · obtain ⟨e, he, hand⟩ := List.any_eq_true.mp hany
        rw [Bool.and_eq_true, beq_iff_eq] at hand
        obtain ⟨rfl, hlast⟩ := hand
        obtain ⟨l, hl, hcan, hget⟩ := id hlistens
        obtain ⟨hserved, -, -, hzero⟩ := hserves e he hlast l hl hcan (by rw [hget]; rfl)
        obtain ⟨rfl, -⟩ := getListener_eq_some hget
        rw [if_pos ⟨hany, hserved.trans hget⟩]
        have hnot : ¬ Completed p₀ ops e.1 := fun hdone => by
          have hone := h.received _ _ hlistens _ happ hdone
          omega
        rw [h.not_received _ _ hlistens sid hsid hnot]
      · rw [if_neg fun hand => hany hand.1]
        exact h.received x r hlistens sid hsid (((hcompleted r).mp hdone).resolve_right hany)
    · rw [hlisten] at hlistens
      rw [hcompleted, not_or] at hnot
      rw [hcount x r sid hsid, if_neg fun hand => hnot.2 hand.1]
      exact h.not_received x r hlistens sid hsid hnot.1

/-- **One step**: what has been delivered stays exact exactly when the step meets the condition. -/
theorem ExactlyOnce.step_iff (hrun : resultProcessor.Runs p₀ ops p events)
    (h : ExactlyOnce p₀ ops events p) (htidy : Tidy events p)
    (hstep : resultProcessor p op = .ok (p', o)) :
    ExactlyOnce p₀ (ops ++ [op]) (events ++ o) p' ↔ p.ServesAll events op := by
  obtain ⟨-, ⟨rvResult, rvEarlyResult, rvFrameEnd, rfl, hthread, hhandled⟩ |
    ⟨hop, rfl, hquiet⟩⟩ := step_cases hstep
  · cases hhandled with
    | ended hnot haborted hgone hlist hthread' hresult hqueue hfull =>
      refine iff_of_false (fun h' => ?_) (not_servesAll_of_ended htidy hthread hnot)
      rw [h'.running] at haborted
      cases haborted
    | handled hall haborted hgone hkept hthread' hresult hqueue hfull hdeliveries =>
      exact h.handled_iff hrun htidy hthread hall haborted hgone hkept hdeliveries
  · have hcompleted : ∀ r, Completed p₀ (ops ++ [op]) r ↔ Completed p₀ ops r := fun r =>
      (Machine.met_snoc hrun).trans (or_iff_left fun hlast => hop hlast.1)
    refine iff_of_true ⟨hquiet.aborted.trans h.running, fun x r hlistens sid hsid hdone => ?_,
      fun x r hlistens sid hsid hnot => ?_⟩ ?_
    · rw [List.append_nil]
      exact h.received x r (hquiet.listens hlistens) sid hsid ((hcompleted r).mp hdone)
    · rw [List.append_nil]
      exact h.not_received x r (hquiet.listens hlistens) sid hsid
        fun hdone => hnot ((hcompleted r).mpr hdone)
    · cases op with
      | handleResult => exact absurd rfl hop
      | updateFrame _ _ | onMetaCallback _ _ _ _ | dequeResult | wakeUp | flush | drop _ =>
        exact trivial

variable {range full : List RangeListener} {stream : List StreamListener} {early : List IListener}

theorem tidy_of_runs (h : resultProcessor.Runs (started range full stream early) ops p events) :
    Tidy events p :=
  h.invariant (I := fun _ p events => Tidy events p)
    ⟨.empty, fun _ _ => rfl, fun _ hmem => by cases hmem⟩
    fun _ _ _ _ _ _ htidy hstep => htidy.step hstep

theorem exactlyOnce_started : ExactlyOnce p₀ [] [] (started range full stream early) :=
  ⟨rfl, fun _ _ _ _ _ hdone => absurd hdone Machine.not_met_nil, fun _ _ _ _ _ _ => rfl⟩

/-- **Exactly once**: in a run of a processor that is started with any listeners, every listener
receives every full result exactly once at all times exactly when all steps meet the condition. -/
theorem exactlyOnce_iff
    (h : resultProcessor.Runs (started range full stream early) ops p events) :
    (∀ ops₁ ops₂ p₁ events₁, ops = ops₁ ++ ops₂ →
      resultProcessor.Runs (started range full stream early) ops₁ p₁ events₁ →
        ExactlyOnce (started range full stream early) ops₁ events₁ p₁) ↔
      resultProcessor.RunsMeeting (fun events p => p.ServesAll events)
        (started range full stream early) ops p events := by
  refine (h.meeting_iff_history (I := fun ops events p =>
    ExactlyOnce (started range full stream early) ops events p) exactlyOnce_started ?_).symm
  intro _ _ _ _ _ _ hrun honce hstep
  exact honce.step_iff hrun (tidy_of_runs hrun) hstep

/-- An update of a request with one metadata of each kind, with `left` more to come. -/
def updateOf (left : ℤ) (tag : Tag) : FrameResult where
  nAppOutMetaLeft := left
  vAppOutMeta := [{ streamId := 1, metadata := .add .empty tag [] }]
  nHalOutMetaLeft := left
  vHalOutMeta := [{ streamId := 2, metadata := .add .empty tag [] }]

/-- Two listeners of disjoint ranges, the second after the requests of the first: a request that
comes in two updates is delivered once. -/
theorem exactlyOnce_iff_twoUpdates : ∃ p events,
    resultProcessor.Runs (started [] [⟨0, 9, 7⟩, ⟨10, 19, 8⟩] [] [])
      [.updateFrame 3 (updateOf 1 5), .dequeResult, .handleResult, .updateFrame 3 (updateOf 0 6),
        .dequeResult, .handleResult] p events ∧
      deliveries events 7 3 eSTREAMID_META_APP_FULL = 1 ∧
      ExactlyOnce (started [] [⟨0, 9, 7⟩, ⟨10, 19, 8⟩] [] [])
        [.updateFrame 3 (updateOf 1 5), .dequeResult, .handleResult,
          .updateFrame 3 (updateOf 0 6), .dequeResult, .handleResult] events p := by
  obtain ⟨p, events, hrun, hone⟩ : ∃ p events,
      resultProcessor.Runs (started [] [⟨0, 9, 7⟩, ⟨10, 19, 8⟩] [] [])
        [.updateFrame 3 (updateOf 1 5), .dequeResult, .handleResult,
          .updateFrame 3 (updateOf 0 6), .dequeResult, .handleResult] p events ∧
      deliveries events 7 3 eSTREAMID_META_APP_FULL = 1 :=
    Machine.exists_run_of_shows (by decide)
  have hmeeting := hrun.meeting_outputs (C := fun events p => p.ServesAll events)
    (by decide)
  exact ⟨p, events, hrun, hone,
    (exactlyOnce_iff hrun).mpr hmeeting _ [] p events (List.append_nil _).symm hrun⟩

/-- Two listeners of one request: the second never receives its full result. -/
theorem secondListener_starves : ¬ ∀ ops p events,
    resultProcessor.Runs (started [] [⟨0, 9, 7⟩, ⟨0, 9, 8⟩] [] []) ops p events →
      ExactlyOnce (started [] [⟨0, 9, 7⟩, ⟨0, 9, 8⟩] [] []) ops events p := by
  intro hall
  obtain ⟨p, events, hrun, ⟨hlist, hgone⟩, hfirst, hsecond⟩ : ∃ p events,
      resultProcessor.Runs (started [] [⟨0, 9, 7⟩, ⟨0, 9, 8⟩] [] [])
        [.updateFrame 3 (updateOf 0 5), .dequeResult, .handleResult] p events ∧
      (p.mFullListenerList = [⟨0, 9, 7⟩, ⟨0, 9, 8⟩] ∧ p.gone = []) ∧
        deliveries events 7 3 eSTREAMID_META_APP_FULL = 1 ∧
        deliveries events 8 3 eSTREAMID_META_APP_FULL = 0 :=
    Machine.exists_run_of_shows (by decide)
  have honce := hall _ p events hrun
  have happ : eSTREAMID_META_APP_FULL ∈ fullStreams := List.mem_cons_self
  have hlistens : Listens p.gone p.mFullListenerList 7 3 ∧
      Listens p.gone p.mFullListenerList 8 3 := by
    rw [hlist, hgone]
    exact ⟨⟨⟨0, 9, 7⟩, by simp, rfl, rfl⟩, ⟨⟨0, 9, 8⟩, by simp, rfl, rfl⟩⟩
  have hone := honce.received 8 3 hlistens.2 _ happ <| by
    -- what the first listener has received shows that the request is completed
    by_contra hnot
    have hzero := honce.not_received 7 3 hlistens.1 _ happ hnot
    omega
  omega

end MtkHardware.LegacyPipeline.ResultProcessor
