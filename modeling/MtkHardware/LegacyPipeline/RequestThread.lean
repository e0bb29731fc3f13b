import MtkHardware.LegacyPipeline.BaseSelector
import MtkHardware.LegacyPipeline.MetadataMap
import MtkHardware.Util.Run

/-!
# Request Threads

A `RequestThread` hands one request after the other to the pipeline: the external requests of its
queue, and where there is none a request that the setting builder makes. It counts the requests
through a range of numbers, back to the start after the end. `submitRequest` queues external
requests and returns the numbers that they are expected to get.

There are three kinds of threads. While the pipeline is paused, the default thread submits what it
has with the streams of the pause where the request has none of its own, and waits where the pause
has none either. The thread for high speed videos submits several requests in one loop, with
streams of its own, and takes no notice of a pause. The thread for stereo pipelines looks at the
pause before it takes a request.

What is done under `mRequestLock` or under `mDesStreamSeForPausetLock` is one step of
`requestThread`, but for `submitRequest`, which signals in a second step, and `requestExit`, which
signals, sets the exit flag and joins. The controller is at hand as long as the thread runs, or
not, as `Support` tells; the pipeline is.
-/

namespace MtkHardware.LegacyPipeline

/-- The value of a number in a signed number of 32 bits. -/
def asMINT32 (n : ℤ) : ℤ := Int.bmod n (2 ^ 32)

/-- `eSTREAMID_IMAGE_PIPE_RAW_RESIZER`. -/
def eSTREAMID_IMAGE_PIPE_RAW_RESIZER : StreamId := 2

/-- `eSTREAMID_IMAGE_PIPE_YUV_00`. -/
def eSTREAMID_IMAGE_PIPE_YUV_00 : StreamId := 4

/-- `eSTREAMID_IMAGE_PIPE_YUV_01`. -/
def eSTREAMID_IMAGE_PIPE_YUV_01 : StreamId := 5

structure BufferSet where
  streamId : StreamId
  criticalBuffer : Bool := false
  deriving DecidableEq, Repr

structure SettingSet where
  appSetting : MetadataMap
  halSetting : MetadataMap
  deriving DecidableEq

structure RequestItem where
  setting : SettingSet
  dstStreams : List BufferSet
  deriving DecidableEq

structure RequestRange where
  mRequestNumberMin : ℤ
  mRequestNumberMax : ℤ
  min_le_max : mRequestNumberMin ≤ mRequestNumberMax
  le_min : -2 ^ 31 ≤ mRequestNumberMin
  max_lt : mRequestNumberMax < 2 ^ 31
  deriving DecidableEq

theorem RequestRange.le_zero : -2 ^ 31 ≤ (0 : ℤ) := by decide

theorem RequestRange.zero_le_nine : (0 : ℤ) ≤ 9 := by decide

theorem RequestRange.nine_lt : (9 : ℤ) < 2 ^ 31 := by decide

/-- A request that the thread has taken, from its queue or not. -/
structure NextRequest where
  requestNumber : ℤ
  settingAppMeta : MetadataMap
  settingHalMeta : MetadataMap
  vDstStreams : List BufferSet
  external : Bool
  deriving DecidableEq

inductive ThreadKind
  | default
  | highSpeedVideo (mRequestLoopCnt : ℤ)
  | stereo
  deriving DecidableEq, Repr

/-- What the thread gets from the controller, the setting builder and the request updater. -/
inductive Support
  /-- The settings as the builder has made and the updater has changed them. -/
  | ok (settingAppMeta settingHalMeta : MetadataMap)
  | noController
  | noBuilder
  /-- The updater is gone, or fails. -/
  | noUpdater
  deriving DecidableEq

inductive LoopAt
  /-- Before its test of `exitPending`. -/
  | looping
  | entered
  /-- In the loop of the thread for high speed videos, before the `i`th request. -/
  | frame (i : ℤ)
  /-- In the loop of the thread for stereo pipelines, which has seen no pause. -/
  | unpaused
  /-- With a request, the `i`th of a loop. -/
  | holding (i : ℤ) (next : NextRequest)
  /-- In the wait for `mCondDesStreamSetForPause`. -/
  | waiting (signaled : Bool)
  | exited
  deriving DecidableEq

/-- What the call of `requestExit` has done. -/
inductive ExitAt
  | notCalled
  | signaled
  | requested
  | joined
  deriving DecidableEq, Repr

structure RequestThread where
  range : RequestRange
  mRequestNumber : ℤ
  mRequestQueue : List RequestItem := []
  mIsPausingPipeline : Bool := false
  mvDstStreamsForPausePipeline : List BufferSet := []
  loopAt : LoopAt := .looping
  /-- Is a call of `submitRequest`, which holds `mRequestLock`, about to signal? -/
  submitting : Bool := false
  exitAt : ExitAt := .notCalled
  deriving DecidableEq

inductive RequestOp
  /-- `submitRequest`, with one list of streams for each setting. -/
  | submitRequest (items : List RequestItem)
  /-- The signal of `submitRequest`. -/
  | signal
  | pausePipeline (vDstStreams : List BufferSet)
  | resumePipeline
  /-- The next step of `requestExit`. -/
  | requestExit
  /-- The thread tests `exitPending`. -/
  | enter
  /-- The thread for stereo pipelines looks at the pause, with what its variable holds. -/
  | checkPause (requestNumber : ℤ)
  | waitForNextRequest (support : Support)
  /-- The thread hands the request on. -/
  | submit
  /-- The thread wakes up in its wait. -/
  | wakeUp
  deriving DecidableEq

/-- What the callers are returned and the pipeline is called with. -/
inductive RequestEvent
  /-- `submitRequest` has returned. -/
  | returned (items : List RequestItem) (rvRequestNo : List ℤ)
  /-- The thread has taken a number. -/
  | taken (requestNumber : ℤ)
  /-- `ILegacyPipeline::submitSetting`. -/
  | submitSetting (next : NextRequest)
  /-- `ILegacyPipeline::submitRequest`, with the streams. -/
  | submitRequest (next : NextRequest) (vDstStreams : List BufferSet)
  deriving DecidableEq

namespace RequestThread

def start (range : RequestRange) : RequestThread :=
  { range, mRequestNumber := range.mRequestNumberMin }

/-- `Thread::exitPending`. -/
def exitPending (t : RequestThread) : Bool := t.exitAt == .requested || t.exitAt == .joined

/-- `mCondDesStreamSetForPause.signal`. -/
def signal (t : RequestThread) : RequestThread :=
  match t.loopAt with
  | .waiting _ => { t with loopAt := .waiting true }
  | _ => t

/-! ### Submitting requests -/

/-- The numbers of the requests of a call, from the first on. -/
def numberItems (range : RequestRange) : ℤ → List RequestItem → List ℤ
  | _, [] => []
  | requestNo, _ :: items =>
    let requestNo :=
      if requestNo > range.mRequestNumberMax then range.mRequestNumberMin else requestNo
    requestNo :: numberItems range (asMINT32 (requestNo + 1)) items

/-- The numbers that `submitRequest` returns. -/
def rvRequestNo (t : RequestThread) (items : List RequestItem) : List ℤ :=
  numberItems t.range (asMINT32 (t.mRequestNumber + t.mRequestQueue.length)) items

/-! ### The next request -/

def wrapNumber (t : RequestThread) : RequestThread :=
  if t.mRequestNumber > t.range.mRequestNumberMax then
    { t with mRequestNumber := t.range.mRequestNumberMin }
  else t

def buildNext (t : RequestThread) (rvDstStreams : List BufferSet) (external : Bool) :
    Support → RequestThread × Option NextRequest
  | .ok settingAppMeta settingHalMeta =>
    ({ t with mRequestNumber := asMINT32 (t.mRequestNumber + 1) },
      some { requestNumber := t.mRequestNumber, settingAppMeta, settingHalMeta,
             vDstStreams := rvDstStreams, external })
  | .noController | .noBuilder => (t, none)
  | .noUpdater => ({ t with mRequestNumber := asMINT32 (t.mRequestNumber + 1) }, none)

def waitForNextRequest (t : RequestThread) (support : Support) :
    RequestThread × Option NextRequest :=
  let t := t.wrapNumber
  if support = .noController then (t, none)
  else match t.mRequestQueue with
    | [] => t.buildNext [] false support
    | item :: mRequestQueue =>
      if item.setting.appSetting.size = 0 then
        { t with mRequestQueue }.buildNext item.dstStreams true support
      else
        ({ t with mRequestQueue, mRequestNumber := asMINT32 (t.mRequestNumber + 1) },
          some { requestNumber := t.mRequestNumber
                 settingAppMeta := item.setting.appSetting
                 settingHalMeta := item.setting.halSetting.update MTK_HAL_REQUEST_REPEAT [0]
                 vDstStreams := item.dstStreams
                 external := true })

/-! ### The loops -/

/-- The loop of the thread for high speed videos before the `i`th request, or at its end. -/
def frameAt (mRequestLoopCnt i : ℤ) : LoopAt := if i < mRequestLoopCnt then .frame i else .looping

def frameStreams (i : ℤ) : List BufferSet :=
  { streamId := eSTREAMID_IMAGE_PIPE_RAW_RESIZER } ::
    ((if i = 0 then [{ streamId := eSTREAMID_IMAGE_PIPE_YUV_00 }] else []) ++
      [{ streamId := eSTREAMID_IMAGE_PIPE_YUV_01 }])

/-- The call of the pipeline for a request with its own streams. -/
def submitNext (next : NextRequest) : RequestEvent :=
  if next.vDstStreams.isEmpty then .submitSetting next
  else .submitRequest next next.vDstStreams

/-- The thread at the beginning of `threadLoop`. -/
def enter (kind : ThreadKind) (t : RequestThread) : Except Blocked RequestThread :=
  if t.loopAt = .looping then
    if t.exitPending then .ok { t with loopAt := .exited }
    else match kind with
      | .default | .stereo => .ok { t with loopAt := .entered }
      | .highSpeedVideo mRequestLoopCnt => .ok { t with loopAt := frameAt mRequestLoopCnt 0 }
  else .error .blocked

def checkPause (kind : ThreadKind) (t : RequestThread) (requestNumber : ℤ) :
    Except Blocked (RequestThread × List RequestEvent) :=
  if kind = .stereo ∧ t.loopAt = .entered then
    if t.mIsPausingPipeline then
      if t.mvDstStreamsForPausePipeline.isEmpty then .ok ({ t with loopAt := .waiting false }, [])
      else
        .ok ({ t with loopAt := .looping },
          [.submitRequest { requestNumber, settingAppMeta := .empty, settingHalMeta := .empty,
                            vDstStreams := [], external := false }
            t.mvDstStreamsForPausePipeline])
    else .ok ({ t with loopAt := .unpaused }, [])
  else .error .blocked

def takes (kind : ThreadKind) (t : RequestThread) : Option ℤ :=
  match kind, t.loopAt with
  | .default, .entered => some 0
  | .highSpeedVideo _, .frame i => some i
  | .stereo, .unpaused => some 0
  | _, _ => none

def take (kind : ThreadKind) (t : RequestThread) (support : Support) :
    Except Blocked (RequestThread × List RequestEvent) :=
  if t.submitting then .error .blocked
  else match t.takes kind with
    | none => .error .blocked
    | some i =>
      match t.waitForNextRequest support with
      | (t', none) => .ok ({ t' with loopAt := .exited }, [])
      | (t', some next) =>
        .ok ({ t' with loopAt := .holding i next }, [.taken next.requestNumber])

def submitDefault (t : RequestThread) (next : NextRequest) : RequestThread × List RequestEvent :=
  if t.mIsPausingPipeline && next.vDstStreams.isEmpty then
    if t.mvDstStreamsForPausePipeline.isEmpty then ({ t with loopAt := .waiting false }, [])
    else ({ t with loopAt := .looping },
      [.submitRequest next t.mvDstStreamsForPausePipeline])
  else ({ t with loopAt := .looping }, [submitNext next])

def submit (kind : ThreadKind) (t : RequestThread) :
    Except Blocked (RequestThread × List RequestEvent) :=
  match t.loopAt with
  | .holding i next =>
    match kind with
    | .default => .ok (t.submitDefault next)
    | .highSpeedVideo mRequestLoopCnt =>
      .ok ({ t with loopAt := frameAt mRequestLoopCnt (i + 1) },
        [.submitRequest next (frameStreams i)])
    | .stereo => .ok ({ t with loopAt := .looping }, [submitNext next])
  | _ => .error .blocked

/-- The next step of `requestExit`, or its last, `join`, once the thread has exited. -/
def requestExit (t : RequestThread) : Except Blocked RequestThread :=
  match t.exitAt with
  | .notCalled => .ok { t with exitAt := .signaled }.signal
  | .signaled => .ok { t with exitAt := .requested }
  | .requested =>
    if t.loopAt = .exited then .ok { t with exitAt := .joined } else .error .blocked
  | .joined => .error .blocked

def step (kind : ThreadKind) (t : RequestThread) (op : RequestOp) :
    Except Blocked (RequestThread × List RequestEvent) :=
  match op with
  | .submitRequest items =>
    if t.submitting then .error .blocked
    else .ok ({ t with mRequestQueue := t.mRequestQueue ++ items, submitting := true },
      [.returned items (t.rvRequestNo items)])
  | .signal =>
    if t.submitting then .ok ({ t with submitting := false }.signal, []) else .error .blocked
  | .pausePipeline vDstStreams =>
    .ok ({ t with mvDstStreamsForPausePipeline := vDstStreams, mIsPausingPipeline := true }, [])
  | .resumePipeline => .ok ({ t with mIsPausingPipeline := false }.signal, [])
  | .requestExit => (t.requestExit).map fun t' => (t', [])
  | .enter => (t.enter kind).map fun t' => (t', [])
  | .checkPause requestNumber => t.checkPause kind requestNumber
  | .waitForNextRequest support => t.take kind support
  | .submit => t.submit kind
  | .wakeUp =>
    match t.loopAt with
    | .waiting _ => .ok ({ t with loopAt := .looping }, [])
    | _ => .error .blocked

end RequestThread

def requestThread (kind : ThreadKind) : Machine RequestThread RequestOp RequestEvent Blocked :=
  RequestThread.step kind

end MtkHardware.LegacyPipeline
