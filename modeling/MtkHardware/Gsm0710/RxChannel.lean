import MtkHardware.Gsm0710.FrameList
import MtkHardware.Util.Run

/-!
# Receiving on a Channel

A frame for a channel is written to its pty by the RX thread in `extract_frames`. When the pty does
not take all of it the rest is cached, the modem is told to stop by an MSC with FC Off, and a retry
thread is created; until it is done `rx_fc_off` is set, and the RX thread caches the frames that
still come. The retry thread writes what is cached, frame by frame. When there is no more it clears
`rx_fc_off`, sends an MSC with FC On, and terminates. `rx_thread` keeps a new retry thread from
being created before the last one is about to be gone.

A step of the model is what a thread does under `rx_fc_lock`, or between two such sections: a write
to the pty, an MSC, or the caching of the rest of a frame, which is done without the lock. The
channel is none of those with a way of their own, the control channel and the channel for video
telephony.
-/

namespace MtkHardware.Gsm0710

def RX_FLOW_CTRL_HIGH_WATERMARK : ℕ := 4096

/-- Where the RX thread is, as far as the channel is concerned. -/
inductive RxAt
  | idle
  /-- `rx_fc_off` was not set. -/
  | writing (frame : GSM0710_Frame)
  /-- The pty has taken so much of it. -/
  | caching (frame : GSM0710_Frame) (written : ℕ)
  /-- In `start_retry_write_thread`, before the MSC with FC Off. -/
  | sendingOff
  /-- Before it takes `rx_fc_lock`. -/
  | locking
  /-- It waits for `rx_fc_on_signal`. -/
  | waiting (signaled : Bool)
  /-- It has set `rx_fc_off`. -/
  | creating
  deriving DecidableEq, Repr

/-- Where a `retry_write_pty_thread` is. -/
inductive RetryAt
  | starting
  | writing (frame : GSM0710_Frame) (written : ℕ)
  /-- A frame has been written. -/
  | popping
  /-- It has cleared `rx_fc_off`, and is to send the MSC with FC On. -/
  | sendingOn
  | ending
  /-- It has cleared `rx_thread`. -/
  | signaling
  deriving DecidableEq, Repr

/-- What `write` to the pty returns. -/
inductive PtyWrite
  | accepted (length : ℕ)
  | eagain
  /-- An error after which the write is repeated, as `EINTR`. -/
  | again
  deriving DecidableEq, Repr

/-- The fields of a `Channel` for receiving, the threads, and the last MSC that has been sent for
it: whether its FC bit was set. -/
structure RxChannel where
  rx_fc_off : Bool := false
  rx_thread : Bool := false
  rx_fl : GSM0710_FrameList := {}
  rx_fl_total : ℕ := 0
  rx_fl_written : ℕ := 0
  dropped_count : ℕ := 0
  rx : RxAt := .idle
  retries : List RetryAt := []
  lastMsc : Option Bool := none

inductive RxOp
  /-- The RX thread has a frame for the channel. -/
  | receive (frame : GSM0710_Frame)
  | rxWrite (result : PtyWrite)
  /-- The next step of the RX thread, but for a write, a wake-up and `create_thread`. -/
  | rxStep
  | rxWake
  | create (created : Bool)
  /-- The next step of a retry thread, but for a write. -/
  | retryStep (retry : RetryAt)
  | retryWrite (frame : GSM0710_Frame) (written : ℕ) (result : PtyWrite)
  deriving DecidableEq, Repr

inductive RxEvent
  | taken (frame : GSM0710_Frame)
  | dropped (frame : GSM0710_Frame)
  /-- The pty accepts bytes. -/
  | pty (bytes : List UInt8)
  | msc (stop : Bool)
  deriving DecidableEq, Repr

/-- Why a step cannot be taken, or what goes wrong in it. -/
inductive RxFault
  | blocked
  /-- The assertion that nothing is cached. -/
  | frameListInit
  /-- The assertion that a retry thread has a frame. -/
  | rxThread
  /-- A frame is pushed to `NULL`. -/
  | nullList
  deriving DecidableEq, Repr

/-- `pthread_cond_signal(&channel->rx_fc_on_signal)`. -/
def RxAt.signal : RxAt → RxAt
  | .waiting _ => .waiting true
  | at' => at'

namespace RxChannel

/-- `_fc_cacheFrameData`. -/
def fc_cacheFrameData (s : RxChannel) (frame : GSM0710_Frame) :
    Except RxFault (RxChannel × List RxEvent) :=
  if RX_FLOW_CTRL_HIGH_WATERMARK < s.rx_fl_total + frame.data.length then
    .ok ({ s with dropped_count := s.dropped_count + 1 }, [.dropped frame])
  else
    match s.rx_fl.fl_pushFrame frame with
    | none => .error .nullList
    | some rx_fl =>
      .ok ({ s with rx_fl_total := s.rx_fl_total + frame.data.length, rx_fl }, [.taken frame])

/-- `_fc_cacheRemainingFrameData`. -/
def fc_cacheRemainingFrameData (s : RxChannel) (frame : GSM0710_Frame) (written : ℕ) :
    Except RxFault RxChannel :=
  if s.rx_fl.fl_isEmpty = false then .error .frameListInit
  else
    match s.rx_fl.fl_init.fl_pushFrame frame with
    | none => .error .nullList
    | some rx_fl =>
      .ok { s with
        rx_fl_total := frame.data.length - written, rx_fl, rx_fl_written := written }

def move (s : RxChannel) (retry : RetryAt) (next : List RetryAt) : RxChannel :=
  { s with retries := s.retries.erase retry ++ next }

/-- `extract_frames` on a frame for the channel, up to the write. -/
def receive (s : RxChannel) (frame : GSM0710_Frame) : Except RxFault (RxChannel × List RxEvent) :=
  match s.rx with
  | .idle =>
    if s.rx_fc_off then s.fc_cacheFrameData frame
    else .ok ({ s with rx := .writing frame }, [.taken frame])
  | _ => .error .blocked

/-- The write in `extract_frames`. -/
def rxWrite (s : RxChannel) (result : PtyWrite) : Except RxFault (RxChannel × List RxEvent) :=
  match s.rx with
  | .writing frame =>
    match result with
    | .accepted length =>
      if frame.data.length < length then .error .blocked
      else if 0 < frame.data.length - length then
        .ok ({ s with rx := .caching frame length }, [.pty (frame.data.take length)])
      else .ok ({ s with rx := .idle }, [.pty (frame.data.take length)])
    | .eagain => .ok ({ s with rx := .caching frame 0 }, [])
    | .again => .ok (s, [])
  | _ => .error .blocked

/-- The other steps of `extract_frames`, and of `start_retry_write_thread`. -/
def rxStep (s : RxChannel) : Except RxFault (RxChannel × List RxEvent) :=
  match s.rx with
  | .caching frame written =>
    (s.fc_cacheRemainingFrameData frame written).map fun s => ({ s with rx := .sendingOff }, [])
  | .sendingOff => .ok ({ s with rx := .locking, lastMsc := some true }, [.msc true])
  | .locking =>
    if s.rx_thread then .ok ({ s with rx := .waiting false }, [])
    else .ok ({ s with rx := .creating, rx_fc_off := true }, [])
  | _ => .error .blocked

/-- `pthread_cond_wait` returns, after a signal or without one. -/
def rxWake (s : RxChannel) : Except RxFault (RxChannel × List RxEvent) :=
  match s.rx with
  | .waiting _ => .ok ({ s with rx := .creating, rx_fc_off := true }, [])
  | _ => .error .blocked

/-- `create_thread`, which may fail. -/
def create (s : RxChannel) (created : Bool) : Except RxFault (RxChannel × List RxEvent) :=
  match s.rx with
  | .creating =>
    if created then .ok ({ s with rx := .idle, retries := s.retries ++ [.starting] }, [])
    else .ok ({ s with rx := .idle }, [])
  | _ => .error .blocked

/-- `retry_write_pty_thread`, but for the write. -/
def retryStep (s : RxChannel) (retry : RetryAt) : Except RxFault (RxChannel × List RxEvent) :=
  if retry ∈ s.retries then
    match retry with
    | .starting =>
      match s.rx_fl.fl_popFrame with
      | (none, _) => .error .rxThread
      | (some frame, rx_fl) =>
        .ok ({ s.move retry [.writing frame s.rx_fl_written] with
               rx_thread := true, rx_fl, rx_fl_written := 0 }, [])
    | .writing _ _ => .error .blocked
    | .popping =>
      match s.rx_fl.fl_popFrame with
      | (none, rx_fl) => .ok ({ s.move retry [.sendingOn] with rx_fl, rx_fc_off := false }, [])
      | (some frame, rx_fl) => .ok ({ s.move retry [.writing frame 0] with rx_fl }, [])
    | .sendingOn => .ok ({ s.move retry [.ending] with lastMsc := some false }, [.msc false])
    | .ending => .ok ({ s.move retry [.signaling] with rx_thread := false }, [])
    | .signaling => .ok ({ s.move retry [] with rx := s.rx.signal }, [])
  else .error .blocked

/-- The write in `retry_write_pty_thread`. -/
def retryWrite (s : RxChannel) (frame : GSM0710_Frame) (written : ℕ) (result : PtyWrite) :
    Except RxFault (RxChannel × List RxEvent) :=
  if .writing frame written ∈ s.retries then
    match result with
    | .accepted length =>
      if frame.data.length - written < length then .error .blocked
      else if written + length < frame.data.length then
        .ok (s.move (.writing frame written) [.writing frame (written + length)],
          [.pty ((frame.data.drop written).take length)])
      else
        .ok (s.move (.writing frame written) [.popping],
          [.pty ((frame.data.drop written).take length)])
    | .eagain | .again => .ok (s, [])
  else .error .blocked

end RxChannel

def rxChannel : Machine RxChannel RxOp RxEvent RxFault
  | s, .receive frame => s.receive frame
  | s, .rxWrite result => s.rxWrite result
  | s, .rxStep => s.rxStep
  | s, .rxWake => s.rxWake
  | s, .create created => s.create created
  | s, .retryStep retry => s.retryStep retry
  | s, .retryWrite frame written result => s.retryWrite frame written result

def ptyBytes (os : List RxEvent) : List UInt8 :=
  os.flatMap fun
    | .pty bytes => bytes
    | _ => []

/-- The frames that have been received and not dropped. -/
def takenFrames (os : List RxEvent) : List GSM0710_Frame :=
  os.filterMap fun
    | .taken frame => some frame
    | _ => none

end MtkHardware.Gsm0710
