import MtkHardware.LegacyPipeline.RequestThread
import MtkHardware.LegacyPipeline.TriggerQueue

/-!
# The Flag of Repeated Requests

A request is flagged by `MTK_HAL_REQUEST_REPEAT` where the setting builder takes it, and the one
that it made before, for a repetition of the streaming request. What it remembers of the request
before is one flag, and what it compares is the crop region of the App setting. The request before
may however be an external one with settings of its own, of which the builder does not hear, and
the sensor crop region may change without the crop region of the App setting.

Where neither is so at a request that the builder is about to flag, a flagged request has the App
setting and the sensor crop region of the request that was produced before it
(`repeatSound_of_runs`). After an external request the flag is wrong (`externalRequest_unsound`).
-/

namespace MtkHardware.LegacyPipeline

structure RepeatingThread where
  thread : RequestThread
  builder : RequestSettingBuilder

inductive RepeatOp
  | thread (op : RequestOp)
  | builder (op : BuilderOp)
  | waitForNextRequest (params : Params) (support : Support)

/-- The requests as `waitForNextRequest` has them before the updater, and the other events. -/
inductive RepeatEvent
  | thread (e : RequestEvent)
  | builder (e : BuilderEvent)
  | produced (appSetting halSetting : MetadataMap) (byBuilder : Bool)
  deriving DecidableEq

structure Produced where
  appSetting : MetadataMap
  halSetting : MetadataMap
  byBuilder : Bool
  deriving DecidableEq

namespace RepeatingThread

def asksBuilder (t : RequestThread) (support : Support) : Bool :=
  (match support with
    | .ok .. | .noUpdater => true
    | .noController | .noBuilder => false) &&
  (match t.mRequestQueue with
    | [] => true
    | item :: _ => item.setting.appSetting.size == 0)

def produces (t' : RequestThread) (built : Option BuiltRequest) : List RepeatEvent :=
  match t'.loopAt with
  | .holding _ next =>
    match built with
    | some r => [.produced r.nextAppRequest r.nextHalRequest true]
    | none => [.produced next.settingAppMeta next.settingHalMeta false]
  | _ => []

/-- `waitForNextRequest`, with the call of the builder where it is asked. -/
def waitForNextRequest (kind : ThreadKind) (s : RepeatingThread) (params : Params)
    (support : Support) : Except Blocked (RepeatingThread × List RepeatEvent) :=
  match s.thread.take kind support with
  | .error e => .error e
  | .ok (t', os) =>
    if asksBuilder s.thread support then
      match s.builder.getRequest s.thread.wrapNumber.mRequestNumber params .empty with
      | .error e => .error e
      | .ok (b', built) => .ok (⟨t', b'⟩, os.map .thread ++ produces t' (some built))
    else .ok (⟨t', s.builder⟩, os.map .thread ++ produces t' none)

def step (kind : ThreadKind) (s : RepeatingThread) (op : RepeatOp) :
    Except Blocked (RepeatingThread × List RepeatEvent) :=
  match op with
  | .thread (.waitForNextRequest _) => .error .blocked
  | .thread op => (s.thread.step kind op).map fun r => (⟨r.1, s.builder⟩, r.2.map .thread)
  | .builder (.getRequest ..) => .error .blocked
  | .builder op => (s.builder.step op).map fun r => (⟨s.thread, r.1⟩, r.2.map .builder)
  | .waitForNextRequest params support => s.waitForNextRequest kind params support

def start (range : RequestRange) (mBurstNum : ℕ) (mbRecordingHint mbOldRepeatingRequest : Bool) :
    RepeatingThread where
  thread := .start range
  builder := .create mBurstNum mbRecordingHint mbOldRepeatingRequest

end RepeatingThread

def repeatingThread (kind : ThreadKind) : Machine RepeatingThread RepeatOp RepeatEvent Blocked :=
  RepeatingThread.step kind

namespace RepeatingThread

/-! ### Flags -/

def producedOf (os : List RepeatEvent) : List Produced :=
  os.flatMap fun
    | .produced appSetting halSetting byBuilder => [{ appSetting, halSetting, byBuilder }]
    | _ => []

def Repeats (before : Option Produced) (r : Produced) : Prop :=
  ∃ r', before = some r' ∧ r'.appSetting = r.appSetting ∧
    r'.halSetting.find? MTK_P1NODE_SENSOR_CROP_REGION =
      r.halSetting.find? MTK_P1NODE_SENSOR_CROP_REGION

def RepeatSound (rs : List Produced) : Prop :=
  ∀ rs₁ r rs₂, rs = rs₁ ++ r :: rs₂ →
    r.halSetting.find? MTK_HAL_REQUEST_REPEAT = some [1] → Repeats rs₁.getLast? r

/-- The builder is about to flag the request that it is asked for. -/
def WouldFlag (b : RequestSettingBuilder) (params : Params) : Prop :=
  b.mbOldRepeatingRequest = true ∧ b.mCbQueue = [] ∧
    (b.mRequestCnt = 0 → (params.getCropRegion 0).reqCropRegion = b.mReqCropRegion)

/-- The sensor crop region that the builder would use is the one that it has used. -/
def SameSensorCrop (b : RequestSettingBuilder) (params : Params) : Prop :=
  b.mRequestCnt = 0 →
    (if b.mbRecordingHint then (params.getCropRegion 0).reqSensorPreviewCropRegion
      else (params.getCropRegion 0).reqSensorCropRegion) = b.sensorCropRegion

/-- Where the builder is about to flag a request, it has made the one before, and for the same
sensor crop region. -/
def Unchanged (os : List RepeatEvent) (s : RepeatingThread) : RepeatOp → Prop
  | .waitForNextRequest params support =>
    asksBuilder s.thread support = true → WouldFlag s.builder params →
      (producedOf os).getLast?.map Produced.byBuilder = some true ∧
        SameSensorCrop s.builder params
  | _ => True

instance (b : RequestSettingBuilder) (params : Params) : Decidable (WouldFlag b params) :=
  inferInstanceAs (Decidable (_ ∧ _ ∧ (_ → _)))

instance (b : RequestSettingBuilder) (params : Params) : Decidable (SameSensorCrop b params) :=
  inferInstanceAs (Decidable (_ → _))

instance (os : List RepeatEvent) (s : RepeatingThread) : ∀ op, Decidable (Unchanged os s op)
  | .waitForNextRequest .. => inferInstanceAs (Decidable (_ → _ → _ ∧ _))
  | .thread _ | .builder _ => inferInstanceAs (Decidable True)

variable {kind : ThreadKind} {t t' : RequestThread} {b b' : RequestSettingBuilder}
  {s s' : RepeatingThread} {os o : List RepeatEvent} {support : Support} {params : Params}
  {es : List RequestEvent} {next : NextRequest} {requestId : ℤ}
  {firstRequest nextHalRequest : MetadataMap} {built : BuiltRequest} {i : ℤ}

/-! ### The thread -/

theorem signal_exited (hexited : t.loopAt = .exited) : t.signal.loopAt = .exited := by
  rw [RequestThread.signal, hexited]
  exact hexited

theorem takes_exited (kind : ThreadKind) (hexited : t.loopAt = .exited) : t.takes kind = none := by
  cases kind <;> simp [RequestThread.takes, hexited]

theorem step_exited {op : RequestOp} (hexited : t.loopAt = .exited)
    (h : t.step kind op = .ok (t', es)) : t'.loopAt = .exited := by
  cases op with
  | submitRequest items =>
    simp only [RequestThread.step] at h
    split_ifs at h
    cases h
    exact hexited
  | signal =>
    simp only [RequestThread.step] at h
    split_ifs at h
    cases h
    exact signal_exited hexited
  | pausePipeline vDstStreams =>
    cases h
    exact hexited
  | resumePipeline =>
    cases h
    exact signal_exited hexited
  | requestExit =>
    simp only [RequestThread.step, RequestThread.requestExit] at h
    cases hexit : t.exitAt with
    | notCalled =>
      rw [hexit] at h
      cases h
      exact signal_exited hexited
    | signaled =>
      rw [hexit] at h
      cases h
      exact hexited
    | requested =>
      simp only [hexit, if_pos hexited] at h
      cases h
      exact hexited
    | joined =>
      rw [hexit] at h
      cases h
  | enter => simp [RequestThread.step, RequestThread.enter, hexited, Except.map] at h
  | checkPause requestNumber => simp [RequestThread.step, RequestThread.checkPause, hexited] at h
  | waitForNextRequest support =>
    simp only [RequestThread.step, RequestThread.take, takes_exited kind hexited] at h
    split_ifs at h
  | submit => simp [RequestThread.step, RequestThread.submit, hexited] at h
  | wakeUp => simp [RequestThread.step, hexited] at h

theorem take_cases (h : t.take kind support = .ok (t', es)) :
    t.loopAt ≠ .exited ∧
      ((∃ i next, t'.loopAt = .holding i next ∧ (t.waitForNextRequest support).2 = some next) ∨
        t'.loopAt = .exited ∧ (t.waitForNextRequest support).2 = none) := by
  refine ⟨fun hexited => ?_, ?_⟩
  · rw [RequestThread.take, takes_exited kind hexited] at h
    split_ifs at h
  · unfold RequestThread.take at h
    split_ifs at h
    split at h
    · cases h
    · split at h
      · rename_i hnext
        cases h
        exact .inr ⟨rfl, by rw [hnext]⟩
      · rename_i next hnext
        cases h
        exact .inl ⟨_, next, rfl, by rw [hnext]⟩

theorem mRequestQueue_wrapNumber (t : RequestThread) :
    t.wrapNumber.mRequestQueue = t.mRequestQueue := by
  unfold RequestThread.wrapNumber
  split_ifs <;> rfl

theorem own_unflagged (hasks : asksBuilder t support = false)
    (hnext : (t.waitForNextRequest support).2 = some next) :
    next.settingHalMeta.find? MTK_HAL_REQUEST_REPEAT = some [0] := by
  simp only [RequestThread.waitForNextRequest, mRequestQueue_wrapNumber] at hnext
  unfold asksBuilder at hasks
  split_ifs at hnext with hsupport
  cases hqueue : t.mRequestQueue with
  | nil =>
    rw [hqueue] at hasks hnext
    cases support <;> simp [RequestThread.buildNext] at hasks hnext
  | cons item mRequestQueue =>
    rw [hqueue] at hasks hnext
    dsimp only at hasks hnext
    split_ifs at hnext with hsize
    · cases support <;> simp [RequestThread.buildNext, hsize] at hasks hnext
    · cases hnext
      exact KeyedVector.find?_add_self ..

/-! ### The builder -/

open RequestSettingBuilder

/-- A call keeps what the next request is made of, or sets another streaming request. -/
structure KeepsRequest (b b' : RequestSettingBuilder) : Prop where
  queue : b'.mRequestQueue = b.mRequestQueue
  crop : b'.mReqCropRegion = b.mReqCropRegion
  sensorCrop : b'.sensorCropRegion = b.sensorCropRegion
  streaming : b'.mRepeatingRequests = b.mRepeatingRequests ∧
      b'.mbOldRepeatingRequest = b.mbOldRepeatingRequest ∨
    b'.mRepeatingRequests.length = 1 ∧ b'.mbOldRepeatingRequest = false

theorem keepsRequest_step {op : BuilderOp} {o : List BuilderEvent}
    (hop : ∀ requestId params nextHalRequest, op ≠ .getRequest requestId params nextHalRequest)
    (h : b.step op = .ok (b', o)) : KeepsRequest b b' := by
  cases op with
  | triggerPrecaptureMetering pCB needAf =>
    obtain ⟨ts, hpush, -⟩ := b.pushTrigger_spec pCB
      (if needAf then .MSG_START_PRECAPTURE_WITH_AF else .MSG_START_PRECAPTURE) 0
    rw [RequestSettingBuilder.step, triggerPrecaptureMetering, hpush] at h
    cases h
    exact ⟨rfl, rfl, rfl, .inl ⟨rfl, rfl⟩⟩
  | triggerAutofocus pCB =>
    obtain ⟨ts, hpush, -⟩ := b.pushTrigger_spec pCB .MSG_START_AUTOFOCUS 0
    rw [RequestSettingBuilder.step, triggerAutofocus, hpush] at h
    cases h
    exact ⟨rfl, rfl, rfl, .inl ⟨rfl, rfl⟩⟩
  | triggerCancelAutofocus =>
    cases h
    exact ⟨rfl, rfl, rfl, .inl ⟨rfl, rfl⟩⟩
  | triggerTriggerZoom index pCB =>
    obtain ⟨ts, hpush, -⟩ := b.pushTrigger_spec pCB .MSG_START_ZOOM index
    rw [RequestSettingBuilder.step, triggerTriggerZoom, hpush] at h
    cases h
    exact ⟨rfl, rfl, rfl, .inl ⟨rfl, rfl⟩⟩
  | triggerCancelZoom =>
    cases h
    exact ⟨rfl, rfl, rfl, .inl ⟨rfl, rfl⟩⟩
  | setStreamingRequest request =>
    cases h
    exact ⟨rfl, rfl, rfl, .inr ⟨rfl, rfl⟩⟩
  | getRequest requestId params nextHalRequest => exact absurd rfl (hop _ _ _)

@[simp] theorem callback_mRepeatingRequests {g : Building} {item : CallbackParam} (_ext1 : ℕ) :
    (g.callback requestId item _ext1).mRepeatingRequests = g.mRepeatingRequests := by
  unfold Building.callback
  split <;> rfl

@[simp] theorem callback_isRepeating {g : Building} {item : CallbackParam} (_ext1 : ℕ) :
    (g.callback requestId item _ext1).isRepeating = g.isRepeating := by
  unfold Building.callback
  split <;> rfl

@[simp] theorem update3ARegions_mRepeatingRequests {g : Building} :
    (g.update3ARegions params).mRepeatingRequests = g.mRepeatingRequests := by
  unfold Building.update3ARegions
  cases params.focusAreas <;> cases params.meteringAreas <;> rfl

/-- The visit of a trigger that is applied makes another request than before, and updates the
streaming requests at most. -/
theorem visit_applied {g : Building} {item : CallbackParam}
    (h : (g.visit params requestId item).2 = true) :
    (g.visit params requestId item).1.isRepeating = false ∧
      (g.visit params requestId item).1.mRepeatingRequests.length =
        g.mRepeatingRequests.length := by
  unfold Building.visit at h ⊢
  cases htype : item.type with
  | MSG_START_ZOOM =>
    rw [htype] at h
    dsimp only at h ⊢
    split_ifs at h ⊢
    simp [Building.startZoom, Building.call, Building.updateAll, Building.getCropRegion]
  | MSG_CANCEL_ZOOM => rw [htype] at h; cases h
  | MSG_CANCEL_AUTOFOCUS => exact ⟨rfl, rfl⟩
  | MSG_START_AUTOFOCUS => simp [Building.startAutofocus, Building.call, Building.update]
  | MSG_START_PRECAPTURE => simp [Building.startPrecapture, Building.update]
  | MSG_START_PRECAPTURE_WITH_AF => simp [Building.startPrecaptureWithAf, Building.update]

theorem scan_mRepeatingRequests (b : RequestSettingBuilder) (params : Params) (requestId : ℤ)
    (firstRequest : MetadataMap) :
    (b.scan params requestId firstRequest).acc.mRepeatingRequests.length =
      b.mRepeatingRequests.length := by
  refine walk_invariant
    (I := fun _ (g : Building) => g.mRepeatingRequests.length = b.mRepeatingRequests.length)
    rfl ?_ ?_
  · intro es g item hg hvisit
    rw [visit_kept hvisit, hg]
  · intro es g item hg hvisit
    rw [(visit_applied hvisit).2, hg]

theorem scan_repeating
    (hrepeating : (b.scan params requestId firstRequest).acc.isRepeating = true) :
    (b.scan params requestId firstRequest).erased = [] ∧
      (b.scan params requestId firstRequest).acc = b.scanStart params firstRequest := by
  have hor : ((b.scan params requestId firstRequest).erased = [] ∧
      (b.scan params requestId firstRequest).acc = b.scanStart params firstRequest) ∨
      (b.scan params requestId firstRequest).acc.isRepeating = false := by
    refine walk_invariant (I := fun es (g : Building) =>
      es = [] ∧ g = b.scanStart params firstRequest ∨ g.isRepeating = false) (.inl ⟨rfl, rfl⟩) ?_ ?_
    · intro es g item hg hvisit
      rwa [visit_kept hvisit]
    · intro es g item hg hvisit
      exact .inr (visit_applied hvisit).1
  exact hor.resolve_right (by rw [hrepeating]; decide)

theorem readCropRegion_same (h : (b.readCropRegion params).2 = true) :
    (b.readCropRegion params).1.mReqCropRegion = b.mReqCropRegion ∧
      (b.mRequestCnt = 0 → (params.getCropRegion 0).reqCropRegion = b.mReqCropRegion) := by
  dsimp only [readCropRegion] at h ⊢
  split_ifs at h ⊢ with hcnt hcrop
  · exact ⟨rfl, fun _ => by simpa using hcrop⟩
  · exact ⟨rfl, fun h => absurd h hcnt⟩

theorem readCropRegion_sensorCrop (h : SameSensorCrop b params) :
    (b.readCropRegion params).1.sensorCropRegion = b.sensorCropRegion := by
  dsimp only [readCropRegion]
  split_ifs with hcnt hcrop
  · exact h hcnt
  · exact h hcnt
  · rfl

structure Built (b : RequestSettingBuilder) (params : Params) (firstRequest : MetadataMap)
    (b' : RequestSettingBuilder) (built : BuiltRequest) : Prop where
  streaming : b.mRepeatingRequests = [firstRequest]
  queue : b'.mRequestQueue = []
  repeating : b'.mRepeatingRequests.length ≤ 1
  flag : built.nextHalRequest.find? MTK_HAL_REQUEST_REPEAT = some [1] →
    b.mbOldRepeatingRequest = true ∧ b'.mbOldRepeatingRequest = true
  sensorCrop : built.nextHalRequest.find? MTK_P1NODE_SENSOR_CROP_REGION =
    some b'.sensorCropRegion.entry
  sameSensorCrop : SameSensorCrop b params → b'.sensorCropRegion = b.sensorCropRegion
  setting : b'.mbOldRepeatingRequest = true →
    b'.mRepeatingRequests = [firstRequest] ∧ b'.mReqCropRegion = b.mReqCropRegion ∧
      built.nextAppRequest = firstRequest.update MTK_SCALER_CROP_REGION b.mReqCropRegion.entry ∧
      b.mCbQueue = [] ∧
      (b.mRequestCnt = 0 → (params.getCropRegion 0).reqCropRegion = b.mReqCropRegion)

theorem built_of_getRequest (hqueue : b.mRequestQueue = [])
    (hlength : b.mRepeatingRequests.length ≤ 1)
    (hcancel : ∀ trigger ∈ b.mCbQueue, trigger.type ≠ .MSG_CANCEL_ZOOM)
    (h : b.getRequest requestId params nextHalRequest = .ok (b', built)) :
    ∃ firstRequest, Built b params firstRequest b' built := by
  obtain ⟨firstRequest, mRequestQueue, hnext, rfl, rfl⟩ := getRequest_cases h
  have hrepeating : b.mRepeatingRequests = firstRequest :: mRequestQueue := by
    rw [← hnext, nextRequests, hqueue]
    rfl
  obtain rfl : mRequestQueue = [] := by
    rw [hrepeating, List.length_cons] at hlength
    exact List.length_eq_zero_iff.mp (by omega)
  refine ⟨firstRequest, hrepeating, rfl, ?_, ?_, ?_, fun hsame => ?_, fun hold => ?_⟩
  · exact (scan_mRepeatingRequests ..).trans_le hlength
  · intro hflag
    have hentry := (KeyedVector.find?_add_self ..).symm.trans hflag
    have hand : ((b.scan params requestId firstRequest).acc.isRepeating &&
        b.mbOldRepeatingRequest) = true := by
      by_contra hand
      rw [if_neg hand] at hentry
      cases hentry
    rw [Bool.and_eq_true] at hand
    exact ⟨hand.2, hand.1⟩
  · have hne : MTK_P1NODE_SENSOR_CROP_REGION ≠ MTK_HAL_REQUEST_REPEAT := by decide
    exact ((KeyedVector.find?_add ..).trans (if_neg hne)).trans (KeyedVector.find?_add_self ..)
  · exact readCropRegion_sensorCrop hsame
  · obtain ⟨herased, hacc⟩ := scan_repeating hold
    have hread : (b.readCropRegion params).2 = true := by
      have hold : (b.scan params requestId firstRequest).acc.isRepeating = true := hold
      rwa [hacc] at hold
    obtain ⟨hcrop, hcropRead⟩ := readCropRegion_same hread
    refine ⟨?_, hcrop, ?_, (scan_erased_eq_nil_iff hcancel ..).mp herased, hcropRead⟩
    · exact (congrArg Building.mRepeatingRequests hacc).trans hrepeating
    · refine (congrArg Building.nextAppRequest hacc).trans ?_
      rw [← hcrop]
      rfl

/-! ### Runs -/

/-- What holds between the requests that have been produced and the builder. -/
structure Remembers (os : List RepeatEvent) (s : RepeatingThread) : Prop where
  sound : RepeatSound (producedOf os)
  queue : s.builder.mRequestQueue = []
  repeating : s.builder.mRepeatingRequests.length ≤ 1
  noCancelZoom : ∀ trigger ∈ s.builder.mCbQueue, trigger.type ≠ .MSG_CANCEL_ZOOM
  remembers : s.thread.loopAt ≠ .exited → s.builder.mbOldRepeatingRequest = true →
    ∀ firstRequest ∈ s.builder.mRepeatingRequests, ∀ r, (producedOf os).getLast? = some r →
      r.byBuilder = true →
        r.appSetting =
            firstRequest.update MTK_SCALER_CROP_REGION s.builder.mReqCropRegion.entry ∧
          r.halSetting.find? MTK_P1NODE_SENSOR_CROP_REGION =
            some s.builder.sensorCropRegion.entry

@[simp] theorem producedOf_append (os o : List RepeatEvent) :
    producedOf (os ++ o) = producedOf os ++ producedOf o :=
  List.flatMap_append

@[simp] theorem producedOf_map_thread (es : List RequestEvent) :
    producedOf (es.map .thread) = [] := by
  simp [producedOf, List.flatMap_map]

@[simp] theorem producedOf_map_builder (es : List BuilderEvent) :
    producedOf (es.map .builder) = [] := by
  simp [producedOf, List.flatMap_map]

theorem RepeatSound.snoc {rs : List Produced} {r : Produced} (h : RepeatSound rs)
    (hr : r.halSetting.find? MTK_HAL_REQUEST_REPEAT = some [1] → Repeats rs.getLast? r) :
    RepeatSound (rs ++ [r]) := by
  intro rs₁ r' rs₂ hrs hflag
  cases rs₂ using List.reverseRecOn with
  | nil =>
    obtain ⟨rfl, hrr⟩ := List.append_inj' hrs rfl
    obtain rfl : r = r' := by simpa using hrr
    exact hr hflag
  | append_singleton rs₂ r'' =>
    rw [← List.cons_append, ← List.append_assoc] at hrs
    obtain ⟨rfl, -⟩ := List.append_inj' hrs rfl
    exact h rs₁ r' rs₂ rfl hflag

theorem Remembers.keep (h : Remembers os s) (ho : producedOf o = [])
    (hthread : s.thread.loopAt = .exited → s'.thread.loopAt = .exited)
    (hbuilder : KeepsRequest s.builder s'.builder)
    (hcancel : ∀ trigger ∈ s'.builder.mCbQueue, trigger.type ≠ .MSG_CANCEL_ZOOM) :
    Remembers (os ++ o) s' where
  sound := by
    rw [producedOf_append, ho, List.append_nil]
    exact h.sound
  queue := hbuilder.queue.trans h.queue
  repeating := by
    obtain ⟨hstreaming, -⟩ | ⟨hstreaming, -⟩ := hbuilder.streaming
    · rw [hstreaming]
      exact h.repeating
    · exact hstreaming.le
  noCancelZoom := hcancel
  remembers hexited hold firstRequest hfirst := by
    obtain ⟨hstreaming, hold'⟩ | ⟨-, hold'⟩ := hbuilder.streaming
    · rw [producedOf_append, ho, List.append_nil, hbuilder.crop, hbuilder.sensorCrop]
      rw [hstreaming] at hfirst
      rw [hold'] at hold
      exact h.remembers (fun hs => hexited (hthread hs)) hold firstRequest hfirst
    · rw [hold'] at hold
      cases hold

theorem KeepsRequest.refl (b : RequestSettingBuilder) : KeepsRequest b b :=
  ⟨rfl, rfl, rfl, .inl ⟨rfl, rfl⟩⟩

theorem Remembers.repeats (h : Remembers os s) (hexited : s.thread.loopAt ≠ .exited)
    (hbuilt : Built s.builder params firstRequest b' built)
    (hunchanged : WouldFlag s.builder params →
      (producedOf os).getLast?.map Produced.byBuilder = some true ∧
        SameSensorCrop s.builder params)
    (hflag : built.nextHalRequest.find? MTK_HAL_REQUEST_REPEAT = some [1]) :
    Repeats (producedOf os).getLast?
      { appSetting := built.nextAppRequest, halSetting := built.nextHalRequest,
        byBuilder := true } := by
  obtain ⟨hold, hold'⟩ := hbuilt.flag hflag
  obtain ⟨-, -, hsetting, hqueue, hcrop⟩ := hbuilt.setting hold'
  obtain ⟨hlast, hsame⟩ := hunchanged ⟨hold, hqueue, hcrop⟩
  obtain ⟨r, hr, hby⟩ := Option.map_eq_some_iff.mp hlast
  obtain ⟨happ, hsensor⟩ := h.remembers hexited hold firstRequest
    (by rw [hbuilt.streaming]; exact List.mem_singleton_self _) r hr hby
  refine ⟨r, hr, happ.trans hsetting.symm, ?_⟩
  rw [hsensor, hbuilt.sensorCrop, hbuilt.sameSensorCrop hsame]

theorem Remembers.wait (h : Remembers os s)
    (hunchanged : Unchanged os s (.waitForNextRequest params support))
    (hstep : s.waitForNextRequest kind params support = .ok (s', o)) : Remembers (os ++ o) s' := by
  unfold waitForNextRequest at hstep
  split at hstep
  · cases hstep
  · rename_i t' es htake
    obtain ⟨hexited, hnext⟩ := take_cases htake
    split at hstep
    · rename_i hasks
      split at hstep
      · cases hstep
      · rename_i b' built hget
        cases hstep
        obtain ⟨firstRequest, hbuilt⟩ :=
          built_of_getRequest h.queue h.repeating h.noCancelZoom hget
        have hcancel : ∀ trigger ∈ b'.mCbQueue, trigger.type ≠ .MSG_CANCEL_ZOOM := by
          obtain ⟨_, _, -, rfl, -⟩ := getRequest_cases hget
          exact fun trigger hmem => h.noCancelZoom trigger (walk_kept_sublist.subset hmem)
        obtain ⟨i, next, hloop, -⟩ | ⟨hloop, -⟩ := hnext
        · have hproduced : producedOf (es.map .thread ++ produces t' (some built)) =
              [{ appSetting := built.nextAppRequest, halSetting := built.nextHalRequest,
                 byBuilder := true }] := by
            rw [producedOf_append, producedOf_map_thread, produces, hloop]
            rfl
          refine ⟨?_, hbuilt.queue, hbuilt.repeating, hcancel, ?_⟩
          · rw [producedOf_append, hproduced]
            exact h.sound.snoc (h.repeats hexited hbuilt (hunchanged hasks))
          · intro _ hold first hfirst r hr _
            rw [producedOf_append, hproduced, List.getLast?_append] at hr
            cases hr
            obtain ⟨hstreaming, hcrop, hsetting, -⟩ := hbuilt.setting hold
            obtain rfl : first = firstRequest := by
              rw [hstreaming] at hfirst
              exact List.mem_singleton.mp hfirst
            rw [hcrop]
            exact ⟨hsetting, hbuilt.sensorCrop⟩
        · have hproduced : producedOf (es.map .thread ++ produces t' (some built)) = [] := by
            rw [producedOf_append, producedOf_map_thread, produces, hloop]
            rfl
          refine ⟨?_, hbuilt.queue, hbuilt.repeating, hcancel, fun hne => absurd hloop hne⟩
          rw [producedOf_append, hproduced, List.append_nil]
          exact h.sound
    · rename_i hasks
      cases hstep
      obtain ⟨i, next, hloop, hnext⟩ | ⟨hloop, -⟩ := hnext
      · have hproduced : producedOf (es.map .thread ++ produces t' none) =
            [{ appSetting := next.settingAppMeta, halSetting := next.settingHalMeta,
               byBuilder := false }] := by
          rw [producedOf_append, producedOf_map_thread, produces, hloop]
          rfl
        refine ⟨?_, h.queue, h.repeating, h.noCancelZoom, ?_⟩
        · rw [producedOf_append, hproduced]
          refine h.sound.snoc fun hflag => ?_
          rw [own_unflagged (Bool.eq_false_iff.mpr hasks) hnext] at hflag
          cases hflag
        · intro _ _ first _ r hr hby
          rw [producedOf_append, hproduced, List.getLast?_append] at hr
          cases hr
          cases hby
      · refine h.keep ?_ (fun _ => hloop) (.refl _) h.noCancelZoom
        rw [producedOf_append, producedOf_map_thread, produces, hloop]
        rfl

theorem step_thread {op : RequestOp} (h : s.step kind (.thread op) = .ok (s', o)) :
    ∃ t' es, s.thread.step kind op = .ok (t', es) ∧ s' = ⟨t', s.builder⟩ ∧
      o = es.map .thread := by
  unfold step at h
  split at h
  · cases h
  · rename_i hop
    cases hop
    obtain ⟨⟨t', es⟩, hstep, heq⟩ := map_eq_ok_iff.mp h
    cases heq
    exact ⟨t', es, hstep, rfl, rfl⟩
  all_goals rename_i hop; cases hop

theorem step_builder {op : BuilderOp} (h : s.step kind (.builder op) = .ok (s', o)) :
    (∀ requestId params nextHalRequest, op ≠ .getRequest requestId params nextHalRequest) ∧
      ∃ b' es, s.builder.step op = .ok (b', es) ∧ s' = ⟨s.thread, b'⟩ ∧
        o = es.map .builder := by
  unfold step at h
  split at h
  · cases h
  · rename_i hop
    cases hop
  · cases h
  · rename_i hne hop
    cases hop
    obtain ⟨⟨b', es⟩, hstep, heq⟩ := map_eq_ok_iff.mp h
    cases heq
    refine ⟨?_, b', es, hstep, rfl, rfl⟩
    rintro requestId params nextHalRequest rfl
    exact hne requestId params nextHalRequest rfl
  · rename_i hop
    cases hop

theorem Remembers.step {op : RepeatOp} (h : Remembers os s) (hunchanged : Unchanged os s op)
    (hstep : s.step kind op = .ok (s', o)) : Remembers (os ++ o) s' := by
  cases op with
  | thread op =>
    obtain ⟨t', es, hop, rfl, rfl⟩ := step_thread hstep
    exact h.keep (producedOf_map_thread es) (fun hexited => step_exited hexited hop) (.refl _)
      h.noCancelZoom
  | builder op =>
    obtain ⟨hne, b', es, hop, rfl, rfl⟩ := step_builder hstep
    exact h.keep (producedOf_map_builder es) id (keepsRequest_step hne hop)
      (noCancelZoom_step h.noCancelZoom hop)
  | waitForNextRequest params support => exact h.wait hunchanged hstep

variable {range : RequestRange} {mBurstNum : ℕ} {mbRecordingHint mbOldRepeatingRequest : Bool}
  {ops : List RepeatOp}

/-- **A flagged request repeats the one before it**, in a run in which the builder has made the
request before each that it is about to flag, for the same sensor crop region. -/
theorem repeatSound_of_runs
    (h : (repeatingThread kind).RunsMeeting Unchanged
      (start range mBurstNum mbRecordingHint mbOldRepeatingRequest) ops s os) :
    RepeatSound (producedOf os) :=
  (h.invariant (I := fun _ s os => Remembers os s)
    { sound := fun rs₁ r rs₂ hrs => by simp [producedOf] at hrs
      queue := rfl
      repeating := by simp [start, create]
      noCancelZoom := by simp [start, create]
      remembers := fun _ _ _ hfirst => by simp [start, create] at hfirst }
    fun _ _ _ _ _ _ hI hC hstep => hI.step hC hstep).sound

def runRange : RequestRange where
  mRequestNumberMin := 0
  mRequestNumberMax := 9
  min_le_max := RequestRange.zero_le_nine
  le_min := RequestRange.le_zero
  max_lt := RequestRange.nine_lt

def uncropped : Params where
  getCropRegion _ := { reqCropRegion := {}, reqSensorCropRegion := {},
                       reqPreviewCropRegion := {}, reqSensorPreviewCropRegion := {} }

def requestOnce : List RepeatOp :=
  [.thread .enter, .waitForNextRequest uncropped (.ok .empty .empty), .thread .submit]

def ownSetting : RequestItem where
  setting := { appSetting := KeyedVector.empty.add 5 [1], halSetting := .empty }
  dstStreams := []

def flagsOf (os : List RepeatEvent) : List (Option IEntry × Option IEntry) :=
  (producedOf os).map fun r =>
    (r.halSetting.find? MTK_HAL_REQUEST_REPEAT, r.appSetting.find? 5)

/-- The second of two requests of the builder is flagged, and repeats the first. -/
theorem repeatSound_of_runs_twice : ∃ s os,
    (repeatingThread .default).Runs (start runRange 1 false true)
      (.builder (.setStreamingRequest .empty) :: (requestOnce ++ requestOnce)) s os ∧
    flagsOf os = [(some [0], none), (some [1], none)] ∧ RepeatSound (producedOf os) := by
  obtain ⟨s, os, hrun, hflags⟩ : ∃ s os,
      (repeatingThread .default).Runs (start runRange 1 false true)
        (.builder (.setStreamingRequest .empty) :: (requestOnce ++ requestOnce)) s os ∧
      flagsOf os = [(some [0], none), (some [1], none)] :=
    Machine.exists_run_of_shows (by decide)
  exact ⟨s, os, hrun, hflags, repeatSound_of_runs (hrun.meeting_outputs (by decide))⟩

/-- After an external request, the next one of the builder is flagged and does not repeat it. -/
theorem externalRequest_unsound : ¬ ∀ ops s os,
    (repeatingThread .default).Runs (start runRange 1 false true) ops s os →
      RepeatSound (producedOf os) := by
  obtain ⟨s, os, hrun, hflags⟩ : ∃ s os,
      (repeatingThread .default).Runs (start runRange 1 false true)
        (.builder (.setStreamingRequest .empty) :: (requestOnce ++
          (.thread (.submitRequest [ownSetting]) :: .thread .signal ::
            (requestOnce ++ requestOnce)))) s os ∧
      flagsOf os = [(some [0], none), (some [0], some [1]), (some [1], none)] :=
    Machine.exists_run_of_shows (by decide)
  intro hall
  have hsound := hall _ s os hrun
  obtain ⟨r₁, rs, hrs, -, hrest⟩ := List.map_eq_cons_iff.mp hflags
  obtain ⟨r₂, rs', rfl, hr₂, hrest⟩ := List.map_eq_cons_iff.mp hrest
  obtain ⟨r₃, rs'', rfl, hr₃, -⟩ := List.map_eq_cons_iff.mp hrest
  rw [Prod.mk.injEq] at hr₂ hr₃
  obtain ⟨r', hr', happ, -⟩ := hsound [r₁, r₂] r₃ rs'' hrs hr₃.1
  obtain rfl : r₂ = r' := by simpa using hr'
  have hentry := hr₂.2.symm.trans ((congrArg (KeyedVector.find? · 5) happ).trans hr₃.2)
  cases hentry

end RepeatingThread

end MtkHardware.LegacyPipeline
