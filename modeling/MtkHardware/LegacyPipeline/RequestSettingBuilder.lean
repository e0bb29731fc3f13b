import MtkHardware.LegacyPipeline.MetadataMap
import MtkHardware.Util.ListWalk
import MtkHardware.Util.Run

/-!
# Request Setting Builders

A `RequestSettingBuilder` makes the requests that repeat: each is the streaming request with the
crop regions of the moment, to which the triggers of `mCbQueue` add what they are for. A trigger
waits in the queue, with the callback that it was made with, for the next `getRequest`; a zoom may
have to wait longer, since a request takes one zoom only. A cancel takes the triggers of its kind
out of the queue.

What the parameters answer during a call of `getRequest` is part of the operation. The scans of
`mCbQueue` are walks that erase.
-/

namespace MtkHardware.LegacyPipeline

/-- `MTK_CONTROL_AE_REGIONS`. -/
def MTK_CONTROL_AE_REGIONS : Tag := 0x10004

/-- `MTK_CONTROL_AE_PRECAPTURE_TRIGGER`. -/
def MTK_CONTROL_AE_PRECAPTURE_TRIGGER : Tag := 0x10006

/-- `MTK_CONTROL_AF_REGIONS`. -/
def MTK_CONTROL_AF_REGIONS : Tag := 0x10008

/-- `MTK_CONTROL_AF_TRIGGER`. -/
def MTK_CONTROL_AF_TRIGGER : Tag := 0x10009

/-- `MTK_CONTROL_AWB_REGIONS`. -/
def MTK_CONTROL_AWB_REGIONS : Tag := 0x1000C

/-- `MTK_SCALER_CROP_REGION`. -/
def MTK_SCALER_CROP_REGION : Tag := 0xD0000

/-- `MTK_3A_PRV_CROP_REGION`. -/
def MTK_3A_PRV_CROP_REGION : Tag := 0x30010

/-- `MTK_P1NODE_SENSOR_CROP_REGION`, a tag of the HAL settings. -/
def MTK_P1NODE_SENSOR_CROP_REGION : Tag := 0x10006

/-- `MTK_CONTROL_AE_PRECAPTURE_TRIGGER_START`. -/
def MTK_CONTROL_AE_PRECAPTURE_TRIGGER_START : ℤ := 1

/-- `MTK_CONTROL_AF_TRIGGER_START`. -/
def MTK_CONTROL_AF_TRIGGER_START : ℤ := 1

/-- `MTK_CONTROL_AF_TRIGGER_CANCEL`. -/
def MTK_CONTROL_AF_TRIGGER_CANCEL : ℤ := 2

structure MRect where
  x : ℤ := 0
  y : ℤ := 0
  w : ℤ := 0
  h : ℤ := 0
  deriving DecidableEq, Repr

def MRect.entry (r : MRect) : IEntry := [r.x, r.y, r.w, r.h]

/-- What `IParamsManagerV3::getCropRegion` answers. -/
structure CropRegions where
  reqCropRegion : MRect
  reqSensorCropRegion : MRect
  reqPreviewCropRegion : MRect
  reqSensorPreviewCropRegion : MRect
  deriving DecidableEq, Repr

/-- `camera_area_t`. -/
structure CameraArea where
  left : ℤ
  top : ℤ
  right : ℤ
  bottom : ℤ
  weight : ℤ
  deriving DecidableEq, Repr

/-- What the parameters answer during a call of `getRequest`. -/
structure Params where
  /-- The answers of `getCropRegion`, by the calls before. -/
  getCropRegion : ℕ → CropRegions
  /-- The focus areas, if they can be parsed. -/
  focusAreas : Option (List CameraArea) := none
  /-- The metering areas, if they can be parsed. -/
  meteringAreas : Option (List CameraArea) := none

/-- `CallBackMsg_T`. -/
inductive CallBackMsg
  | MSG_START_AUTOFOCUS
  | MSG_CANCEL_AUTOFOCUS
  | MSG_START_ZOOM
  | MSG_CANCEL_ZOOM
  | MSG_START_PRECAPTURE
  | MSG_START_PRECAPTURE_WITH_AF
  deriving DecidableEq, Repr

/-- An `IRequestCallback`. -/
abbrev RequestCb := ℕ

/-- `CallbackParam`, a queued trigger. -/
structure CallbackParam where
  RequestCb : Option RequestCb
  type : CallBackMsg
  _ext1 : ℕ := 0
  deriving DecidableEq, Repr

/-- What `getRequest` calls while it applies a trigger. -/
inductive TriggerCall
  | setZoom (value : ℕ)
  | calculateCropRegion
  | setAfTriggered (flag : Bool)
  | setCancelAF (flag : Bool)
  | RequestCallback (cb : RequestCb) (requestId : ℤ) (type : CallBackMsg) (_ext1 : ℕ)
  deriving DecidableEq, Repr

structure RequestSettingBuilder where
  mBurstNum : ℕ
  mbRecordingHint : Bool
  mTriggerMap : KeyedVector Tag ℤ := .empty
  mRequestQueue : List MetadataMap := []
  mRepeatingRequests : List MetadataMap := []
  mCbQueue : List CallbackParam := []
  mRequestCnt : ℕ := 0
  mReqCropRegion : MRect := {}
  mReqSensorCropRegion : MRect := {}
  mReqSensorPreviewCropRegion : MRect := {}
  /-- The constructor leaves it as it is. -/
  mbOldRepeatingRequest : Bool
  /-- Has a scan of `mCbQueue` moved on from an erased element? -/
  advancedErased : Bool := false
  deriving DecidableEq

inductive BuilderOp
  | triggerPrecaptureMetering (pCB : Option RequestCb) (needAf : Bool)
  | triggerAutofocus (pCB : Option RequestCb)
  | triggerCancelAutofocus
  | triggerTriggerZoom (index : ℕ) (pCB : Option RequestCb)
  | triggerCancelZoom
  | setStreamingRequest (request : MetadataMap)
  | getRequest (requestId : ℤ) (params : Params) (nextHalRequest : MetadataMap)

structure BuiltRequest where
  nextAppRequest : MetadataMap
  nextHalRequest : MetadataMap
  /-- The triggers that were queued. -/
  pending : List CallbackParam
  /-- The triggers that have been applied. -/
  applied : List CallbackParam
  /-- What has been called. -/
  calls : List TriggerCall
  deriving DecidableEq

inductive BuilderEvent
  | queued (trigger : CallbackParam)
  /-- A cancel has removed triggers of its kind from those that were queued. -/
  | removed (type : CallBackMsg) (pending triggers : List CallbackParam)
  | got (requestId : ℤ) (built : BuiltRequest)
  deriving DecidableEq

namespace RequestSettingBuilder

/-! ### Triggers -/

def pushTrigger (b : RequestSettingBuilder) (pCB : Option RequestCb) (type : CallBackMsg)
    (_ext1 : ℕ) : RequestSettingBuilder × List BuilderEvent :=
  match pCB with
  | some cb =>
    let callback : CallbackParam := { RequestCb := some cb, type, _ext1 }
    ({ b with mCbQueue := b.mCbQueue ++ [callback] }, [.queued callback])
  | none => (b, [])

/-- Sets a value of `mTriggerMap`. -/
def setTrigger (b : RequestSettingBuilder) (metadataTag : Tag) (entryValue : ℤ) :
    RequestSettingBuilder :=
  { b with mTriggerMap := b.mTriggerMap.add metadataTag entryValue }

def cancelScan (b : RequestSettingBuilder) (type : CallBackMsg) : Walk CallbackParam Unit :=
  walk (fun _ item => ((), item.type == type)) () b.mCbQueue

def cancelTriggers (b : RequestSettingBuilder) (type : CallBackMsg) :
    RequestSettingBuilder × List BuilderEvent :=
  ({ b with mCbQueue := (b.cancelScan type).kept
            advancedErased := b.advancedErased || (b.cancelScan type).advancedErased },
    [.removed type b.mCbQueue (b.cancelScan type).erased])

def triggerPrecaptureMetering (b : RequestSettingBuilder) (pCB : Option RequestCb)
    (needAf : Bool) : RequestSettingBuilder × List BuilderEvent :=
  let type : CallBackMsg := if needAf then .MSG_START_PRECAPTURE_WITH_AF else .MSG_START_PRECAPTURE
  let (b, os) := b.pushTrigger pCB type 0
  (b.setTrigger MTK_CONTROL_AE_PRECAPTURE_TRIGGER MTK_CONTROL_AE_PRECAPTURE_TRIGGER_START, os)

def triggerAutofocus (b : RequestSettingBuilder) (pCB : Option RequestCb) :
    RequestSettingBuilder × List BuilderEvent :=
  let (b, os) := b.pushTrigger pCB .MSG_START_AUTOFOCUS 0
  (b.setTrigger MTK_CONTROL_AF_TRIGGER MTK_CONTROL_AF_TRIGGER_START, os)

def triggerCancelAutofocus (b : RequestSettingBuilder) :
    RequestSettingBuilder × List BuilderEvent :=
  let (b, os) := b.cancelTriggers .MSG_START_AUTOFOCUS
  let callback : CallbackParam := { RequestCb := none, type := .MSG_CANCEL_AUTOFOCUS }
  let b := { b with mCbQueue := b.mCbQueue ++ [callback] }
  (b.setTrigger MTK_CONTROL_AF_TRIGGER MTK_CONTROL_AF_TRIGGER_CANCEL, os ++ [.queued callback])

def triggerTriggerZoom (b : RequestSettingBuilder) (index : ℕ) (pCB : Option RequestCb) :
    RequestSettingBuilder × List BuilderEvent :=
  b.pushTrigger pCB .MSG_START_ZOOM index

def triggerCancelZoom (b : RequestSettingBuilder) : RequestSettingBuilder × List BuilderEvent :=
  b.cancelTriggers .MSG_START_ZOOM

def setStreamingRequest (b : RequestSettingBuilder) (request : MetadataMap) :
    RequestSettingBuilder :=
  { b with mbOldRepeatingRequest := false, mRepeatingRequests := [request] }

/-! ### Applying triggers -/

structure Building where
  nextAppRequest : MetadataMap
  mRepeatingRequests : List MetadataMap
  isRepeating : Bool
  hasZoom : Bool
  /-- The calls of `getCropRegion` so far. -/
  cropCalls : ℕ
  calls : List TriggerCall

namespace Building

/-- `nextAppRequest.update`. -/
def update (g : Building) (tag : Tag) (entry : IEntry) : Building :=
  { g with nextAppRequest := g.nextAppRequest.update tag entry }

def updateAll (g : Building) (tag : Tag) (entry : IEntry) : Building :=
  { g with nextAppRequest := g.nextAppRequest.update tag entry
           mRepeatingRequests := g.mRepeatingRequests.map (·.update tag entry) }

def call (g : Building) (c : TriggerCall) : Building := { g with calls := g.calls ++ [c] }

def callback (g : Building) (requestId : ℤ) (item : CallbackParam) (_ext1 : ℕ) : Building :=
  match item.RequestCb with
  | some cb => g.call (.RequestCallback cb requestId item.type _ext1)
  | none => g

def areaItems (reqPreviewCropRegion : MRect) (it : CameraArea) : List ℤ :=
  let r := reqPreviewCropRegion
  [((it.left + 1000) * r.w).tdiv 2000 + r.x, ((it.top + 1000) * r.h).tdiv 2000 + r.y,
    ((it.right + 1000) * r.w).tdiv 2000 + r.x, ((it.bottom + 1000) * r.h).tdiv 2000 + r.y,
    it.weight]

/-- The next answer of `getCropRegion`. -/
def getCropRegion (params : Params) (g : Building) : Building × CropRegions :=
  ({ g with cropCalls := g.cropCalls + 1 }, params.getCropRegion g.cropCalls)

/-- `MSG_START_ZOOM`. -/
def startZoom (params : Params) (requestId : ℤ) (g : Building) (item : CallbackParam) : Building :=
  let g := (g.call (.setZoom item._ext1)).call .calculateCropRegion
  let (g, crop) := g.getCropRegion params
  let g := g.updateAll MTK_SCALER_CROP_REGION crop.reqCropRegion.entry
  let g := g.updateAll MTK_3A_PRV_CROP_REGION crop.reqPreviewCropRegion.entry
  { g with isRepeating := false, hasZoom := true }.callback requestId item item._ext1

def update3ARegions (params : Params) (g : Building) : Building :=
  let (g, crop) := g.getCropRegion params
  let g := match params.focusAreas with
    | some areas =>
      g.update MTK_CONTROL_AF_REGIONS (areas.flatMap (areaItems crop.reqPreviewCropRegion))
    | none => g
  match params.meteringAreas with
  | some areas =>
    let items := areas.flatMap (areaItems crop.reqPreviewCropRegion)
    (g.update MTK_CONTROL_AE_REGIONS items).update MTK_CONTROL_AWB_REGIONS items
  | none => g

/-- `MSG_START_AUTOFOCUS`. -/
def startAutofocus (params : Params) (requestId : ℤ) (g : Building) (item : CallbackParam) :
    Building :=
  let g := g.update MTK_CONTROL_AF_TRIGGER [MTK_CONTROL_AF_TRIGGER_START]
  let g := (g.call (.setAfTriggered true)).call (.setCancelAF false)
  { g.update3ARegions params with isRepeating := false }.callback requestId item 0

/-- `MSG_CANCEL_AUTOFOCUS`. -/
def cancelAutofocus (g : Building) : Building :=
  let g := g.update MTK_CONTROL_AF_TRIGGER [MTK_CONTROL_AF_TRIGGER_CANCEL]
  { g.call (.setAfTriggered false) with isRepeating := false }

/-- `MSG_START_PRECAPTURE`. -/
def startPrecapture (requestId : ℤ) (g : Building) (item : CallbackParam) : Building :=
  let g := g.update MTK_CONTROL_AE_PRECAPTURE_TRIGGER [MTK_CONTROL_AE_PRECAPTURE_TRIGGER_START]
  { g with isRepeating := false }.callback requestId item 0

/-- `MSG_START_PRECAPTURE_WITH_AF`. -/
def startPrecaptureWithAf (requestId : ℤ) (g : Building) (item : CallbackParam) : Building :=
  let g := g.update MTK_CONTROL_AE_PRECAPTURE_TRIGGER [MTK_CONTROL_AE_PRECAPTURE_TRIGGER_START]
  let g := g.update MTK_CONTROL_AF_TRIGGER [MTK_CONTROL_AF_TRIGGER_START]
  { g with isRepeating := false }.callback requestId item 0

def visit (params : Params) (requestId : ℤ) (g : Building) (item : CallbackParam) :
    Building × Bool :=
  match item.type with
  | .MSG_START_ZOOM => if g.hasZoom then (g, false) else (g.startZoom params requestId item, true)
  | .MSG_START_AUTOFOCUS => (g.startAutofocus params requestId item, true)
  | .MSG_CANCEL_AUTOFOCUS => (g.cancelAutofocus, true)
  | .MSG_START_PRECAPTURE => (g.startPrecapture requestId item, true)
  | .MSG_START_PRECAPTURE_WITH_AF => (g.startPrecaptureWithAf requestId item, true)
  | .MSG_CANCEL_ZOOM => (g, false)

end Building

/-! ### The next request -/

/-- Reads the crop regions at the first request of a burst, and tells whether the region for the
App setting is as before. -/
def readCropRegion (b : RequestSettingBuilder) (params : Params) : RequestSettingBuilder × Bool :=
  if b.mRequestCnt = 0 then
    let crop := params.getCropRegion 0
    let b := { b with mReqSensorCropRegion := crop.reqSensorCropRegion
                      mReqSensorPreviewCropRegion := crop.reqSensorPreviewCropRegion }
    if crop.reqCropRegion ≠ b.mReqCropRegion then
      ({ b with mReqCropRegion := crop.reqCropRegion }, false)
    else (b, true)
  else (b, true)

def sensorCropRegion (b : RequestSettingBuilder) : MRect :=
  if b.mbRecordingHint then b.mReqSensorPreviewCropRegion else b.mReqSensorCropRegion

def nextCnt (b : RequestSettingBuilder) : ℕ :=
  if b.mRequestCnt + 1 = b.mBurstNum then 0 else b.mRequestCnt + 1

def scanStart (b : RequestSettingBuilder) (params : Params) (firstRequest : MetadataMap) :
    Building where
  nextAppRequest :=
    firstRequest.update MTK_SCALER_CROP_REGION (b.readCropRegion params).1.mReqCropRegion.entry
  mRepeatingRequests := b.mRepeatingRequests
  isRepeating := (b.readCropRegion params).2
  hasZoom := false
  cropCalls := if b.mRequestCnt = 0 then 1 else 0
  calls := []

def scan (b : RequestSettingBuilder) (params : Params) (requestId : ℤ)
    (firstRequest : MetadataMap) : Walk CallbackParam Building :=
  walk (Building.visit params requestId) (b.scanStart params firstRequest) b.mCbQueue

def built (b : RequestSettingBuilder) (params : Params) (nextHalRequest : MetadataMap)
    (w : Walk CallbackParam Building) : BuiltRequest where
  nextAppRequest := w.acc.nextAppRequest
  nextHalRequest :=
    (nextHalRequest.update MTK_P1NODE_SENSOR_CROP_REGION
        (b.readCropRegion params).1.sensorCropRegion.entry).update
      MTK_HAL_REQUEST_REPEAT [if w.acc.isRepeating && b.mbOldRepeatingRequest then 1 else 0]
  pending := b.mCbQueue
  applied := w.erased
  calls := w.acc.calls

def afterScan (b : RequestSettingBuilder) (params : Params) (mRequestQueue : List MetadataMap)
    (w : Walk CallbackParam Building) : RequestSettingBuilder :=
  { (b.readCropRegion params).1 with
    mRequestQueue
    mRepeatingRequests := w.acc.mRepeatingRequests
    mCbQueue := w.kept
    mRequestCnt := b.nextCnt
    mbOldRepeatingRequest := w.acc.isRepeating
    advancedErased := b.advancedErased || w.advancedErased }

/-- The requests that `getRequest` takes the first of. -/
def nextRequests (b : RequestSettingBuilder) : List MetadataMap :=
  if b.mRequestQueue.isEmpty then b.mRepeatingRequests else b.mRequestQueue

/-- `getRequest`, which has a request as soon as there is a streaming request. -/
def getRequest (b : RequestSettingBuilder) (requestId : ℤ) (params : Params)
    (nextHalRequest : MetadataMap) : Except Blocked (RequestSettingBuilder × BuiltRequest) :=
  match b.nextRequests with
  | [] => .error .blocked
  | firstRequest :: mRequestQueue =>
    let w := b.scan params requestId firstRequest
    .ok (b.afterScan params mRequestQueue w, b.built params nextHalRequest w)

def step (b : RequestSettingBuilder) (op : BuilderOp) :
    Except Blocked (RequestSettingBuilder × List BuilderEvent) :=
  match op with
  | .triggerPrecaptureMetering pCB needAf => .ok (b.triggerPrecaptureMetering pCB needAf)
  | .triggerAutofocus pCB => .ok (b.triggerAutofocus pCB)
  | .triggerCancelAutofocus => .ok b.triggerCancelAutofocus
  | .triggerTriggerZoom index pCB => .ok (b.triggerTriggerZoom index pCB)
  | .triggerCancelZoom => .ok b.triggerCancelZoom
  | .setStreamingRequest request => .ok (b.setStreamingRequest request, [])
  | .getRequest requestId params nextHalRequest =>
    (b.getRequest requestId params nextHalRequest).map fun r => (r.1, [.got requestId r.2])

/-! ### What a call does -/

variable {b b' : RequestSettingBuilder} {requestId : ℤ} {params : Params}
  {nextHalRequest : MetadataMap} {built : BuiltRequest}

theorem getRequest_cases (h : b.getRequest requestId params nextHalRequest = .ok (b', built)) :
    ∃ firstRequest mRequestQueue, b.nextRequests = firstRequest :: mRequestQueue ∧
      b' = b.afterScan params mRequestQueue (b.scan params requestId firstRequest) ∧
      built = b.built params nextHalRequest (b.scan params requestId firstRequest) := by
  unfold getRequest at h
  split at h
  · cases h
  · rename_i firstRequest mRequestQueue hnext
    cases h
    exact ⟨firstRequest, mRequestQueue, hnext, rfl, rfl⟩

end RequestSettingBuilder

def requestSettingBuilder : Machine RequestSettingBuilder BuilderOp BuilderEvent Blocked :=
  RequestSettingBuilder.step

/-- A builder as it is made, with a flag that may have any value. -/
def RequestSettingBuilder.create (mBurstNum : ℕ) (mbRecordingHint mbOldRepeatingRequest : Bool) :
    RequestSettingBuilder :=
  { mBurstNum, mbRecordingHint, mbOldRepeatingRequest }

end MtkHardware.LegacyPipeline
