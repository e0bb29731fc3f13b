import MtkHardware.LegacyPipeline.RequestSettingBuilder

/-!
# The Queue of Triggers

Every trigger that is queued is either applied by one later request or removed by one later
cancel of its kind, and those of a kind in the order in which they were queued: a request applies
all that it finds but for the zooms, of which it applies one. That is so in every run
(`triggersDelivered_of_runs`), if the link of an erased element can still be followed. It is in
fact read as soon as a scan erases an element, since all of the scans go on with `++` on the
iterator of the erased element: they keep to the list exactly when they have nothing to erase
(`triggersApplied_iff`).
-/

namespace MtkHardware.LegacyPipeline

namespace RequestSettingBuilder

/-! ### What is queued and what is done with it -/

def queuedOf (os : List BuilderEvent) : List CallbackParam :=
  os.flatMap fun
    | .queued trigger => [trigger]
    | _ => []

def doneOf (os : List BuilderEvent) : List CallbackParam :=
  os.flatMap fun
    | .queued _ => []
    | .removed _ _ triggers => triggers
    | .got _ built => built.applied

def ofType (type : CallBackMsg) (triggers : List CallbackParam) : List CallbackParam :=
  triggers.filter (·.type == type)

def callsOf (requestId : ℤ) (item : CallbackParam) : List TriggerCall :=
  (match item.type with
    | .MSG_START_ZOOM => [.setZoom item._ext1, .calculateCropRegion]
    | .MSG_START_AUTOFOCUS => [.setAfTriggered true, .setCancelAF false]
    | .MSG_CANCEL_AUTOFOCUS => [.setAfTriggered false]
    | _ => []) ++
  (match item.type, item.RequestCb with
    | .MSG_CANCEL_AUTOFOCUS, _ => []
    | .MSG_START_ZOOM, some cb => [.RequestCallback cb requestId item.type item._ext1]
    | _, some cb => [.RequestCallback cb requestId item.type 0]
    | _, none => [])

def triggerEntries (item : CallbackParam) : List (Tag × IEntry) :=
  match item.type with
  | .MSG_START_AUTOFOCUS => [(MTK_CONTROL_AF_TRIGGER, [MTK_CONTROL_AF_TRIGGER_START])]
  | .MSG_CANCEL_AUTOFOCUS => [(MTK_CONTROL_AF_TRIGGER, [MTK_CONTROL_AF_TRIGGER_CANCEL])]
  | .MSG_START_PRECAPTURE =>
    [(MTK_CONTROL_AE_PRECAPTURE_TRIGGER, [MTK_CONTROL_AE_PRECAPTURE_TRIGGER_START])]
  | .MSG_START_PRECAPTURE_WITH_AF =>
    [(MTK_CONTROL_AE_PRECAPTURE_TRIGGER, [MTK_CONTROL_AE_PRECAPTURE_TRIGGER_START]),
      (MTK_CONTROL_AF_TRIGGER, [MTK_CONTROL_AF_TRIGGER_START])]
  | _ => []

def lastEntry (tag : Tag) (triggers : List CallbackParam) : Option IEntry :=
  (triggers.flatMap triggerEntries).reverse.lookup tag

/-- A request has applied the triggers that were queued, with their callbacks. -/
structure Served (requestId : ℤ) (built : BuiltRequest) : Prop where
  all : ∀ type, type ≠ .MSG_START_ZOOM → ofType type built.applied = ofType type built.pending
  oneZoom : ofType .MSG_START_ZOOM built.applied = (ofType .MSG_START_ZOOM built.pending).take 1
  calls : built.calls = built.applied.flatMap (callsOf requestId)
  entries : ∀ tag entry, lastEntry tag built.applied = some entry →
    built.nextAppRequest.find? tag = some entry

/-- Every trigger is queued, applied or removed, once and in the order of its kind. -/
structure TriggersDelivered (os : List BuilderEvent) (b : RequestSettingBuilder) : Prop where
  exactlyOnce : ∀ type,
    ofType type (queuedOf os) = ofType type (doneOf os) ++ ofType type b.mCbQueue
  served : ∀ requestId built, .got requestId built ∈ os → Served requestId built
  cancelled : ∀ type pending triggers, .removed type pending triggers ∈ os →
    (type = .MSG_START_AUTOFOCUS ∨ type = .MSG_START_ZOOM) ∧ triggers = ofType type pending
  noCancelZoom : ∀ trigger ∈ b.mCbQueue, trigger.type ≠ .MSG_CANCEL_ZOOM

/-- The triggers are delivered, and no scan has moved on from an erased element. -/
def TriggersApplied (os : List BuilderEvent) (b : RequestSettingBuilder) : Prop :=
  TriggersDelivered os b ∧ b.advancedErased = false

def NothingToErase (b : RequestSettingBuilder) : BuilderOp → Prop
  | .getRequest .. => b.mCbQueue = []
  | .triggerCancelAutofocus => ∀ trigger ∈ b.mCbQueue, trigger.type ≠ .MSG_START_AUTOFOCUS
  | .triggerCancelZoom => ∀ trigger ∈ b.mCbQueue, trigger.type ≠ .MSG_START_ZOOM
  | _ => True

instance (b : RequestSettingBuilder) : ∀ op, Decidable (NothingToErase b op)
  | .getRequest .. => inferInstanceAs (Decidable (b.mCbQueue = []))
  | .triggerCancelAutofocus => inferInstanceAs (Decidable (∀ _ ∈ _, _ ≠ _))
  | .triggerCancelZoom => inferInstanceAs (Decidable (∀ _ ∈ _, _ ≠ _))
  | .triggerPrecaptureMetering .. | .triggerAutofocus _ | .triggerTriggerZoom ..
  | .setStreamingRequest _ => inferInstanceAs (Decidable True)

variable {b b' : RequestSettingBuilder} {op : BuilderOp} {os o : List BuilderEvent}
  {type : CallBackMsg} {requestId : ℤ} {params : Params} {l l' : List CallbackParam}

@[simp] theorem queuedOf_append (os o : List BuilderEvent) :
    queuedOf (os ++ o) = queuedOf os ++ queuedOf o :=
  List.flatMap_append

@[simp] theorem doneOf_append (os o : List BuilderEvent) :
    doneOf (os ++ o) = doneOf os ++ doneOf o :=
  List.flatMap_append

@[simp] theorem ofType_append : ofType type (l ++ l') = ofType type l ++ ofType type l' :=
  List.filter_append ..

/-! ### What the visit of a trigger does -/

namespace Building

variable {g : Building} {item : CallbackParam}

@[simp] theorem callback_hasZoom (_ext1 : ℕ) :
    (g.callback requestId item _ext1).hasZoom = g.hasZoom := by
  unfold callback
  split <;> rfl

@[simp] theorem callback_nextAppRequest (_ext1 : ℕ) :
    (g.callback requestId item _ext1).nextAppRequest = g.nextAppRequest := by
  unfold callback
  split <;> rfl

@[simp] theorem update3ARegions_hasZoom : (g.update3ARegions params).hasZoom = g.hasZoom := by
  unfold update3ARegions
  cases params.focusAreas <;> cases params.meteringAreas <;> rfl

@[simp] theorem update3ARegions_calls : (g.update3ARegions params).calls = g.calls := by
  unfold update3ARegions
  cases params.focusAreas <;> cases params.meteringAreas <;> rfl

def IsTrigger (tag : Tag) : Prop :=
  tag = MTK_CONTROL_AF_TRIGGER ∨ tag = MTK_CONTROL_AE_PRECAPTURE_TRIGGER

theorem find?_update_of_trigger {m : MetadataMap} {tag tag' : Tag} {entry : IEntry}
    (htag : IsTrigger tag)
    (htag' : tag' ∈ [MTK_SCALER_CROP_REGION, MTK_3A_PRV_CROP_REGION, MTK_CONTROL_AF_REGIONS,
      MTK_CONTROL_AE_REGIONS, MTK_CONTROL_AWB_REGIONS]) :
    (m.update tag' entry).find? tag = m.find? tag := by
  rw [MetadataMap.update, KeyedVector.find?_add, if_neg]
  rintro rfl
  obtain rfl | rfl := htag <;> revert htag' <;> decide

theorem update3ARegions_find? {tag : Tag} (htag : IsTrigger tag) :
    (g.update3ARegions params).nextAppRequest.find? tag = g.nextAppRequest.find? tag := by
  unfold update3ARegions
  cases params.focusAreas <;> cases params.meteringAreas <;>
    simp [getCropRegion, update, find?_update_of_trigger htag]

theorem startZoom_find? {tag : Tag} (htag : IsTrigger tag) :
    (g.startZoom params requestId item).nextAppRequest.find? tag =
      g.nextAppRequest.find? tag := by
  simp [startZoom, updateAll, getCropRegion, call, find?_update_of_trigger htag]

end Building

theorem visit_erases {g : Building} {item : CallbackParam} (hzoom : item.type ≠ .MSG_START_ZOOM)
    (hcancel : item.type ≠ .MSG_CANCEL_ZOOM) : (g.visit params requestId item).2 = true := by
  unfold Building.visit
  cases h : item.type <;> first | rfl | contradiction

theorem visit_zoom {g : Building} {item : CallbackParam} (hzoom : item.type = .MSG_START_ZOOM) :
    (g.visit params requestId item).2 = !g.hasZoom ∧
      (g.visit params requestId item).1.hasZoom = true := by
  unfold Building.visit
  rw [hzoom]
  cases h : g.hasZoom with
  | true => exact ⟨rfl, h⟩
  | false => exact ⟨rfl, by simp [Building.startZoom]⟩

theorem visit_hasZoom {g : Building} {item : CallbackParam} (hzoom : item.type ≠ .MSG_START_ZOOM) :
    (g.visit params requestId item).1.hasZoom = g.hasZoom := by
  unfold Building.visit
  cases h : item.type with
  | MSG_START_ZOOM => contradiction
  | MSG_CANCEL_ZOOM => rfl
  | MSG_CANCEL_AUTOFOCUS => rfl
  | MSG_START_AUTOFOCUS => simp [Building.startAutofocus, Building.update, Building.call]
  | MSG_START_PRECAPTURE => simp [Building.startPrecapture, Building.update]
  | MSG_START_PRECAPTURE_WITH_AF => simp [Building.startPrecaptureWithAf, Building.update]

theorem visit_kept {g : Building} {item : CallbackParam}
    (h : (g.visit params requestId item).2 = false) :
    (g.visit params requestId item).1 = g := by
  unfold Building.visit at h ⊢
  cases htype : item.type with
  | MSG_START_ZOOM =>
    rw [htype] at h
    dsimp only at h ⊢
    split_ifs at h ⊢ with hzoom
    rfl
  | MSG_CANCEL_ZOOM => rfl
  | _ => rw [htype] at h; cases h

theorem visit_calls {g : Building} {item : CallbackParam}
    (h : (g.visit params requestId item).2 = true) :
    (g.visit params requestId item).1.calls = g.calls ++ callsOf requestId item := by
  unfold Building.visit at h ⊢
  unfold callsOf
  cases htype : item.type with
  | MSG_START_ZOOM =>
    rw [htype] at h
    dsimp only at h ⊢
    split_ifs at h ⊢
    cases hcb : item.RequestCb <;>
      simp [Building.startZoom, Building.callback, hcb, Building.call, Building.updateAll,
        Building.getCropRegion, htype]
  | MSG_CANCEL_ZOOM => rw [htype] at h; cases h
  | MSG_CANCEL_AUTOFOCUS => simp [Building.cancelAutofocus, Building.call, Building.update]
  | MSG_START_AUTOFOCUS =>
    cases hcb : item.RequestCb <;>
      simp [Building.startAutofocus, Building.callback, hcb, Building.call, Building.update,
        htype]
  | MSG_START_PRECAPTURE =>
    cases hcb : item.RequestCb <;>
      simp [Building.startPrecapture, Building.callback, hcb, Building.call, Building.update,
        htype]
  | MSG_START_PRECAPTURE_WITH_AF =>
    cases hcb : item.RequestCb <;>
      simp [Building.startPrecaptureWithAf, Building.callback, hcb, Building.call,
        Building.update, htype]

theorem visit_find? {g : Building} {item : CallbackParam} {tag : Tag}
    (htag : Building.IsTrigger tag)
    (h : (g.visit params requestId item).2 = true) :
    (g.visit params requestId item).1.nextAppRequest.find? tag =
      (lastEntry tag [item]).or (g.nextAppRequest.find? tag) := by
  unfold Building.visit at h ⊢
  cases htype : item.type with
  | MSG_START_ZOOM =>
    rw [htype] at h
    dsimp only at h ⊢
    split_ifs at h ⊢
    simp [lastEntry, triggerEntries, htype, Building.startZoom_find? htag]
  | MSG_CANCEL_ZOOM => rw [htype] at h; cases h
  | MSG_CANCEL_AUTOFOCUS =>
    rw [lastEntry, List.flatMap_singleton, ← MetadataMap.find?_updates]
    simp [triggerEntries, htype, Building.cancelAutofocus, Building.call, Building.update]
  | MSG_START_AUTOFOCUS =>
    rw [lastEntry, List.flatMap_singleton, ← MetadataMap.find?_updates]
    simp [triggerEntries, htype, Building.startAutofocus, Building.call, Building.update,
      Building.update3ARegions_find? htag]
  | MSG_START_PRECAPTURE =>
    rw [lastEntry, List.flatMap_singleton, ← MetadataMap.find?_updates]
    simp [triggerEntries, htype, Building.startPrecapture, Building.update]
  | MSG_START_PRECAPTURE_WITH_AF =>
    rw [lastEntry, List.flatMap_singleton, ← MetadataMap.find?_updates]
    simp [triggerEntries, htype, Building.startPrecaptureWithAf, Building.update]

/-! ### What a scan does -/

variable {firstRequest nextHalRequest : MetadataMap} {mRequestQueue : List MetadataMap}

theorem scan_calls : (b.scan params requestId firstRequest).acc.calls =
    (b.scan params requestId firstRequest).erased.flatMap (callsOf requestId) := by
  refine walk_invariant
    (I := fun es (g : Building) => g.calls = es.flatMap (callsOf requestId)) rfl ?_ ?_
  · intro es g item hg hvisit
    rw [visit_kept hvisit, hg]
  · intro es g item hg hvisit
    rw [visit_calls hvisit, hg, List.flatMap_append, List.flatMap_singleton]

theorem isTrigger_of_lastEntry {tag : Tag} {entry : IEntry} (h : lastEntry tag l = some entry) :
    Building.IsTrigger tag := by
  obtain ⟨es, es', hes, -⟩ := List.lookup_eq_some_iff.mp h
  have hmem : (tag, entry) ∈ l.flatMap triggerEntries := by
    rw [← List.mem_reverse, hes]
    simp
  obtain ⟨item, -, hitem⟩ := List.mem_flatMap.mp hmem
  unfold triggerEntries at hitem
  unfold Building.IsTrigger
  grind

theorem lastEntry_append (tag : Tag) (l l' : List CallbackParam) :
    lastEntry tag (l ++ l') = (lastEntry tag l').or (lastEntry tag l) := by
  rw [lastEntry, List.flatMap_append, List.reverse_append, List.lookup_append]
  rfl

theorem scan_entries {tag : Tag} {entry : IEntry}
    (h : lastEntry tag (b.scan params requestId firstRequest).erased = some entry) :
    (b.scan params requestId firstRequest).acc.nextAppRequest.find? tag = some entry := by
  have htag := isTrigger_of_lastEntry h
  revert h
  refine walk_invariant (I := fun es (g : Building) => lastEntry tag es = some entry →
    g.nextAppRequest.find? tag = some entry) (fun h => by cases h) ?_ ?_
  · intro es g item hg hvisit
    rwa [visit_kept hvisit]
  · intro es g item hg hvisit hlast
    rw [lastEntry_append] at hlast
    rw [visit_find? htag hvisit]
    cases hitem : lastEntry tag [item] with
    | some e => simpa [hitem] using hlast
    | none => simpa [hitem] using hg (by simpa [hitem] using hlast)

theorem scan_erased (params : Params) (requestId : ℤ) (firstRequest : MetadataMap)
    (hzoom : type ≠ .MSG_START_ZOOM)
    (hcancel : ∀ trigger ∈ b.mCbQueue, trigger.type ≠ .MSG_CANCEL_ZOOM) :
    ofType type (b.scan params requestId firstRequest).erased = ofType type b.mCbQueue ∧
      ofType type (b.scan params requestId firstRequest).kept = [] := by
  by_cases htype : type = .MSG_CANCEL_ZOOM
  · have hnone : ofType type b.mCbQueue = [] := by
      simpa [ofType, htype] using hcancel
    have hkept : ofType type (b.scan params requestId firstRequest).erased = [] ∧
        ofType type (b.scan params requestId firstRequest).kept = ofType type b.mCbQueue :=
      walk_kept fun g item hitem => by
        have hitem : item.type = .MSG_CANCEL_ZOOM := by simpa [htype] using hitem
        simp [Building.visit, hitem]
    exact ⟨hkept.1.trans hnone.symm, hkept.2.trans hnone⟩
  · refine walk_erased fun g item hitem => ?_
    have hitem : item.type = type := by simpa using hitem
    exact visit_erases (by rwa [hitem]) (by rwa [hitem])

theorem scan_zoom (b : RequestSettingBuilder) (params : Params) (requestId : ℤ)
    (firstRequest : MetadataMap) :
    ofType .MSG_START_ZOOM (b.scan params requestId firstRequest).erased =
        (ofType .MSG_START_ZOOM b.mCbQueue).take 1 ∧
      ofType .MSG_START_ZOOM (b.scan params requestId firstRequest).kept =
        (ofType .MSG_START_ZOOM b.mCbQueue).drop 1 :=
  walk_once Building.hasZoom (fun g item hitem => visit_zoom (by simpa using hitem))
    fun g item hitem => visit_hasZoom (by simpa using hitem)

/-! ### Steps -/

theorem pushTrigger_spec (b : RequestSettingBuilder) (pCB : Option RequestCb) (type : CallBackMsg)
    (_ext1 : ℕ) : ∃ ts, b.pushTrigger pCB type _ext1 =
      ({ b with mCbQueue := b.mCbQueue ++ ts }, ts.map .queued) ∧ ∀ t ∈ ts, t.type = type := by
  cases pCB with
  | none => exact ⟨[], by simp [pushTrigger], by simp⟩
  | some cb => exact ⟨[{ RequestCb := some cb, type, _ext1 }], rfl, by simp⟩

structure Queues (b : RequestSettingBuilder) (op : BuilderOp) (b' : RequestSettingBuilder)
    (o : List BuilderEvent) (ts : List CallbackParam) : Prop where
  nothing : NothingToErase b op
  outputs : o = ts.map .queued
  queue : b'.mCbQueue = b.mCbQueue ++ ts
  safe : b'.advancedErased = b.advancedErased
  types : ∀ t ∈ ts, t.type ≠ .MSG_CANCEL_ZOOM

structure Cancels (b : RequestSettingBuilder) (op : BuilderOp) (b' : RequestSettingBuilder)
    (o : List BuilderEvent) (type : CallBackMsg) (ts : List CallbackParam) : Prop where
  kind : type = .MSG_START_AUTOFOCUS ∨ type = .MSG_START_ZOOM
  nothing : NothingToErase b op ↔ ∀ trigger ∈ b.mCbQueue, trigger.type ≠ type
  outputs : o = .removed type b.mCbQueue (b.cancelScan type).erased :: ts.map .queued
  queue : b'.mCbQueue = (b.cancelScan type).kept ++ ts
  safe : b'.advancedErased = (b.advancedErased || (b.cancelScan type).advancedErased)
  types : ∀ t ∈ ts, t.type ≠ .MSG_CANCEL_ZOOM

structure Gets (b : RequestSettingBuilder) (op : BuilderOp) (b' : RequestSettingBuilder)
    (o : List BuilderEvent) (requestId : ℤ) (built : BuiltRequest)
    (w : Walk CallbackParam Building) : Prop where
  nothing : NothingToErase b op ↔ b.mCbQueue = []
  outputs : o = [.got requestId built]
  queue : b'.mCbQueue = w.kept
  safe : b'.advancedErased = (b.advancedErased || w.advancedErased)
  scanned : ∃ params firstRequest nextHalRequest, w = b.scan params requestId firstRequest ∧
    built = b.built params nextHalRequest w

theorem step_cases (h : b.step op = .ok (b', o)) :
    (∃ ts, Queues b op b' o ts) ∨ (∃ type ts, Cancels b op b' o type ts) ∨
      ∃ requestId built w, Gets b op b' o requestId built w := by
  cases op with
  | triggerPrecaptureMetering pCB needAf =>
    obtain ⟨ts, hpush, hts⟩ := b.pushTrigger_spec pCB
      (if needAf then .MSG_START_PRECAPTURE_WITH_AF else .MSG_START_PRECAPTURE) 0
    rw [step, triggerPrecaptureMetering, hpush] at h
    cases h
    refine .inl ⟨ts, ⟨trivial, rfl, rfl, rfl, fun t ht => ?_⟩⟩
    rw [hts t ht]
    cases needAf <;> decide
  | triggerAutofocus pCB =>
    obtain ⟨ts, hpush, hts⟩ := b.pushTrigger_spec pCB .MSG_START_AUTOFOCUS 0
    rw [step, triggerAutofocus, hpush] at h
    cases h
    refine .inl ⟨ts, ⟨trivial, rfl, rfl, rfl, fun t ht => ?_⟩⟩
    rw [hts t ht]
    decide
  | triggerCancelAutofocus =>
    cases h
    exact .inr (.inl ⟨.MSG_START_AUTOFOCUS,
      [{ RequestCb := none, type := .MSG_CANCEL_AUTOFOCUS }],
      ⟨.inl rfl, Iff.rfl, rfl, rfl, rfl, by simp⟩⟩)
  | triggerTriggerZoom index pCB =>
    obtain ⟨ts, hpush, hts⟩ := b.pushTrigger_spec pCB .MSG_START_ZOOM index
    rw [step, triggerTriggerZoom, hpush] at h
    cases h
    refine .inl ⟨ts, ⟨trivial, rfl, rfl, rfl, fun t ht => ?_⟩⟩
    rw [hts t ht]
    decide
  | triggerCancelZoom =>
    cases h
    exact .inr (.inl ⟨.MSG_START_ZOOM, [], ⟨.inr rfl, Iff.rfl, rfl, by simp [cancelTriggers], rfl,
      by simp⟩⟩)
  | setStreamingRequest request =>
    cases h
    exact .inl ⟨[], ⟨trivial, rfl, by simp [setStreamingRequest], rfl, by simp⟩⟩
  | getRequest requestId params nextHalRequest =>
    rw [step] at h
    cases hget : b.getRequest requestId params nextHalRequest with
    | error e => rw [hget] at h; cases h
    | ok r =>
      rw [hget] at h
      cases h
      obtain ⟨firstRequest, mRequestQueue, -, hb', hbuilt⟩ := getRequest_cases hget
      refine .inr (.inr ⟨requestId, r.2, b.scan params requestId firstRequest,
        ⟨Iff.rfl, rfl, ?_, ?_, ⟨params, firstRequest, nextHalRequest, rfl, hbuilt⟩⟩⟩)
      · rw [hb']
        rfl
      · rw [hb']
        rfl

@[simp] theorem queuedOf_map_queued (ts : List CallbackParam) : queuedOf (ts.map .queued) = ts := by
  simp [queuedOf, List.flatMap_map]

@[simp] theorem doneOf_map_queued (ts : List CallbackParam) : doneOf (ts.map .queued) = [] := by
  simp [doneOf, List.flatMap_map]

theorem cancelScan_spec (b : RequestSettingBuilder) (type type' : CallBackMsg) :
    ofType type' (b.cancelScan type).erased =
        (if type' = type then ofType type b.mCbQueue else []) ∧
      ofType type' (b.cancelScan type).kept =
        (if type' = type then [] else ofType type' b.mCbQueue) := by
  split_ifs with h
  · subst h
    exact walk_erased fun _ _ hitem => hitem
  · refine walk_kept fun _ item hitem => ?_
    have hitem : item.type = type' := by simpa using hitem
    simpa [hitem] using h

theorem cancelScan_erased (b : RequestSettingBuilder) (type : CallBackMsg) :
    (b.cancelScan type).erased = ofType type b.mCbQueue := by
  have hall : ∀ t ∈ (b.cancelScan type).erased, t.type = type := by
    intro t ht
    by_contra hne
    have hnone := (b.cancelScan_spec type t.type).1.trans (if_neg hne)
    have hmem : t ∈ ofType t.type (b.cancelScan type).erased :=
      List.mem_filter.mpr ⟨ht, beq_self_eq_true _⟩
    rw [hnone] at hmem
    cases hmem
  calc (b.cancelScan type).erased = ofType type (b.cancelScan type).erased :=
        (List.filter_eq_self.mpr fun t ht => beq_iff_eq.mpr (hall t ht)).symm
    _ = ofType type b.mCbQueue := (b.cancelScan_spec type type).1.trans (if_pos rfl)

/-- Each trigger that was queued is applied, removed or still queued, and its kind keeps its
order. -/
theorem exactlyOnce_step (hcancel : ∀ trigger ∈ b.mCbQueue, trigger.type ≠ .MSG_CANCEL_ZOOM)
    (h : b.step op = .ok (b', o)) :
    ofType type b.mCbQueue ++ ofType type (queuedOf o) =
      ofType type (doneOf o) ++ ofType type b'.mCbQueue := by
  obtain ⟨ts, hts⟩ | ⟨type', ts, hts⟩ | ⟨requestId, built, w, hgets⟩ := step_cases h
  · rw [hts.outputs, hts.queue, queuedOf_map_queued, doneOf_map_queued]
    simp [ofType]
  · obtain ⟨herased, hkept⟩ := b.cancelScan_spec type' type
    have hqueued : queuedOf o = ts := by
      rw [hts.outputs]
      exact queuedOf_map_queued ts
    have hdone : doneOf o = (b.cancelScan type').erased := by
      rw [hts.outputs]
      exact (congrArg _ (doneOf_map_queued ts)).trans (List.append_nil _)
    rw [hqueued, hdone, hts.queue, ofType_append, herased, hkept]
    split_ifs with htype
    · rw [htype, List.nil_append]
    · rw [List.nil_append]
  · obtain ⟨params, firstRequest, nextHalRequest, rfl, rfl⟩ := hgets.scanned
    have hdone : doneOf o = (b.scan params requestId firstRequest).erased := by
      rw [hgets.outputs]
      exact List.append_nil _
    have hqueued : queuedOf o = [] := by
      rw [hgets.outputs]
      rfl
    rw [hqueued, hdone, hgets.queue]
    by_cases hzoom : type = .MSG_START_ZOOM
    · obtain ⟨herased, hkept⟩ := b.scan_zoom params requestId firstRequest
      rw [hzoom, herased, hkept, List.take_append_drop]
      exact List.append_nil _
    · obtain ⟨herased, hkept⟩ := scan_erased params requestId firstRequest hzoom hcancel
      rw [herased, hkept]
      rfl

theorem served_built (hcancel : ∀ trigger ∈ b.mCbQueue, trigger.type ≠ .MSG_CANCEL_ZOOM)
    (params : Params) (requestId : ℤ) (firstRequest nextHalRequest : MetadataMap) :
    Served requestId (b.built params nextHalRequest (b.scan params requestId firstRequest)) where
  all _ htype := (scan_erased params requestId firstRequest htype hcancel).1
  oneZoom := (b.scan_zoom params requestId firstRequest).1
  calls := scan_calls
  entries _ _ hentry := scan_entries hentry

theorem triggersDelivered_init (mBurstNum : ℕ) (mbRecordingHint mbOldRepeatingRequest : Bool) :
    TriggersDelivered [] (create mBurstNum mbRecordingHint mbOldRepeatingRequest) where
  exactlyOnce _ := rfl
  served _ _ hmem := by cases hmem
  cancelled _ _ _ hmem := by cases hmem
  noCancelZoom _ hmem := by cases hmem

theorem noCancelZoom_step (hcancel : ∀ trigger ∈ b.mCbQueue, trigger.type ≠ .MSG_CANCEL_ZOOM)
    (h : b.step op = .ok (b', o)) :
    ∀ trigger ∈ b'.mCbQueue, trigger.type ≠ .MSG_CANCEL_ZOOM := by
  intro trigger hmem
  obtain ⟨ts, hts⟩ | ⟨type', ts, hts⟩ | ⟨requestId', built', w, hgets⟩ := step_cases h
  · rw [hts.queue, List.mem_append] at hmem
    exact hmem.elim (hcancel trigger) (hts.types trigger)
  · rw [hts.queue, List.mem_append] at hmem
    exact hmem.elim (fun hmem => hcancel trigger (walk_kept_sublist.subset hmem))
      (hts.types trigger)
  · obtain ⟨params, firstRequest, nextHalRequest, rfl, rfl⟩ := hgets.scanned
    rw [hgets.queue] at hmem
    exact hcancel trigger (walk_kept_sublist.subset hmem)

theorem triggersDelivered_step (hI : TriggersDelivered os b) (h : b.step op = .ok (b', o)) :
    TriggersDelivered (os ++ o) b' where
  exactlyOnce type := by
    rw [queuedOf_append, doneOf_append, ofType_append, ofType_append, hI.exactlyOnce type,
      List.append_assoc, exactlyOnce_step hI.noCancelZoom h, List.append_assoc]
  served requestId built hmem := by
    obtain hmem | hmem := List.mem_append.mp hmem
    · exact hI.served requestId built hmem
    · obtain ⟨ts, hts⟩ | ⟨type', ts, hts⟩ | ⟨requestId', built', w, hgets⟩ := step_cases h
      · simp [hts.outputs] at hmem
      · simp [hts.outputs] at hmem
      · obtain ⟨params, firstRequest, nextHalRequest, rfl, rfl⟩ := hgets.scanned
        obtain ⟨rfl, rfl⟩ : requestId = requestId' ∧ built = _ := by
          simpa [hgets.outputs] using hmem
        exact served_built hI.noCancelZoom params requestId firstRequest nextHalRequest
  cancelled type pending triggers hmem := by
    obtain hmem | hmem := List.mem_append.mp hmem
    · exact hI.cancelled type pending triggers hmem
    · obtain ⟨ts, hts⟩ | ⟨type', ts, hts⟩ | ⟨requestId', built', w, hgets⟩ := step_cases h
      · simp [hts.outputs] at hmem
      · obtain ⟨rfl, rfl, rfl⟩ : type = type' ∧ pending = b.mCbQueue ∧ triggers = _ := by
          simpa [hts.outputs] using hmem
        exact ⟨hts.kind, b.cancelScan_erased type⟩
      · simp [hgets.outputs] at hmem
  noCancelZoom := noCancelZoom_step hI.noCancelZoom h

/-- **Every trigger is applied once, in the order of its kind**, unless a cancel removes it
before. -/
theorem triggersDelivered_of_runs {mBurstNum : ℕ} {mbRecordingHint mbOldRepeatingRequest : Bool}
    {ops : List BuilderOp}
    (h : requestSettingBuilder.Runs (create mBurstNum mbRecordingHint mbOldRepeatingRequest) ops b
      os) : TriggersDelivered os b :=
  h.invariant (I := fun _ b os => TriggersDelivered os b)
    (triggersDelivered_init mBurstNum mbRecordingHint mbOldRepeatingRequest)
    fun _ _ _ _ _ _ hI hstep => triggersDelivered_step hI hstep

/-! ### Erased elements -/

theorem scan_erased_eq_nil_iff
    (hcancel : ∀ trigger ∈ b.mCbQueue, trigger.type ≠ .MSG_CANCEL_ZOOM) (params : Params)
    (requestId : ℤ) (firstRequest : MetadataMap) :
    (b.scan params requestId firstRequest).erased = [] ↔ b.mCbQueue = [] := by
  constructor
  · intro herased
    cases hqueue : b.mCbQueue with
    | nil => rfl
    | cons item l =>
      rw [scan, hqueue] at herased
      have hvisit := walk_erased_eq_nil_of_cons herased
      by_cases hzoom : item.type = .MSG_START_ZOOM
      · rw [(visit_zoom hzoom).1] at hvisit
        cases hvisit
      · rw [visit_erases hzoom (hcancel item (by simp [hqueue]))] at hvisit
        cases hvisit
  · intro hqueue
    rw [scan, hqueue]
    rfl

theorem safe_step_iff (hI : TriggersDelivered os b) (hsafe : b.advancedErased = false)
    (h : b.step op = .ok (b', o)) : b'.advancedErased = false ↔ NothingToErase b op := by
  obtain ⟨ts, hts⟩ | ⟨type', ts, hts⟩ | ⟨requestId', built', w, hgets⟩ := step_cases h
  · rw [hts.safe]
    exact iff_of_true hsafe hts.nothing
  · rw [hts.safe, hsafe, Bool.false_or, cancelScan, walk_advancedErased, ← cancelScan,
      cancelScan_erased, hts.nothing, ofType, List.filter_eq_nil_iff]
    simp
  · obtain ⟨params, firstRequest, nextHalRequest, rfl, rfl⟩ := hgets.scanned
    rw [hgets.safe, hsafe, Bool.false_or, scan, walk_advancedErased, ← scan,
      scan_erased_eq_nil_iff hI.noCancelZoom, hgets.nothing]

/-- **The scans keep to the list** exactly in the runs in which no scan has anything to erase. -/
theorem triggersApplied_iff {mBurstNum : ℕ} {mbRecordingHint mbOldRepeatingRequest : Bool}
    {ops : List BuilderOp}
    (h : requestSettingBuilder.Runs (create mBurstNum mbRecordingHint mbOldRepeatingRequest) ops b
      os) :
    (∀ ops₁ ops₂ b₁ os₁, ops = ops₁ ++ ops₂ →
      requestSettingBuilder.Runs (create mBurstNum mbRecordingHint mbOldRepeatingRequest) ops₁ b₁
        os₁ → TriggersApplied os₁ b₁) ↔
      requestSettingBuilder.RunsMeeting (fun _ => NothingToErase)
        (create mBurstNum mbRecordingHint mbOldRepeatingRequest) ops b os :=
  (Machine.Runs.meeting_iff
    ⟨triggersDelivered_init mBurstNum mbRecordingHint mbOldRepeatingRequest, rfl⟩
    (fun _ _ _ _ _ _ _ hI hstep =>
      (and_iff_right (triggersDelivered_step hI.1 hstep)).trans (safe_step_iff hI.1 hI.2 hstep))
    h).symm

def steadyParams : Params where
  getCropRegion _ :=
    { reqCropRegion := { w := 4, h := 3 }, reqSensorCropRegion := { w := 4, h := 3 },
      reqPreviewCropRegion := { w := 4, h := 3 }, reqSensorPreviewCropRegion := { w := 4, h := 3 } }

/-- The calls of a run whose scans find nothing to erase. -/
def unerasedOps : List BuilderOp :=
  [.setStreamingRequest .empty, .getRequest 0 steadyParams .empty, .triggerCancelZoom,
    .triggerAutofocus (some 7)]

/-- An autofocus that is queued after the last request is not erased. -/
theorem triggersApplied_iff_unerased : ∃ b os,
    requestSettingBuilder.Runs (create 1 false true) unerasedOps b os ∧ b.mCbQueue.length = 1 ∧
      ∀ ops₁ ops₂ b₁ os₁, unerasedOps = ops₁ ++ ops₂ →
        requestSettingBuilder.Runs (create 1 false true) ops₁ b₁ os₁ → TriggersApplied os₁ b₁ := by
  obtain ⟨b, os, hrun, hqueue⟩ :
      ∃ b os, requestSettingBuilder.Runs (create 1 false true) unerasedOps b os ∧
        b.mCbQueue.length = 1 :=
    Machine.exists_run_of_shows (by decide)
  exact ⟨b, os, hrun, hqueue, (triggersApplied_iff hrun).mpr (hrun.meeting (by decide))⟩

/-- The request that starts an autofocus reads the trigger that it has erased. -/
theorem autofocus_advancesErased : ¬ ∀ ops b os,
    requestSettingBuilder.Runs (create 1 false true) ops b os → TriggersApplied os b := by
  obtain ⟨b, os, hrun, hb⟩ :
      ∃ b os, requestSettingBuilder.Runs (create 1 false true)
        [.setStreamingRequest .empty, .triggerAutofocus (some 7), .getRequest 0 steadyParams .empty]
        b os ∧ b.advancedErased = true :=
    Machine.exists_run_of_shows (by decide)
  intro hall
  exact absurd (hall _ b os hrun).2 (by rw [hb]; decide)

end RequestSettingBuilder

end MtkHardware.LegacyPipeline
