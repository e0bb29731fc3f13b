import Mathlib.Data.Nat.Notation
import Mathlib.Tactic.Common
import MtkHardware.Util.Run

/-!
# The State Machine of the GPS Engine

The main thread of mnld starts and stops the GPS engine for six clients. What a client asks for is
noted in its flags, and an event is handed to `mnld_fsm`, as is what the engine confirms. The engine
is asked to start for the first client and to stop behind the last one; in between the state is
`STARTING` or `STOPPING`, in which the requests of the clients are only noted. The clients are
answered by `do_gps_started_hdlr` and `do_gps_stopped_hdlr`, and the AGPS client, whose request for
a reset may be open, too, by these and by `do_gps_reset_hdlr`.

A function returns the state it leaves and what it sends, in this order, or ends in
`CRASH_TO_DEBUG`. The default branches for values that are no state or no event are left out.
-/

namespace MtkHardware.Mnld

/-! ### Data -/

/-- `mnld_gps_state`. -/
inductive MnldGpsState
  | IDLE
  | STARTING
  | STARTED
  | STOPPING
  deriving DecidableEq, Repr

/-- `mnld_gps_event`, with the data that the state machine reads. -/
inductive MnldGpsEvent
  | START
  | STOP
  | RESET
  | START_DONE (si_assist_req : Bool)
  | STOP_DONE
  deriving DecidableEq, Repr

/-- `mnld_gps_client`. -/
structure MnldGpsClient where
  gps_used : Bool := false
  need_open_ack : Bool := false
  need_close_ack : Bool := false
  need_reset_ack : Bool := false
  deriving DecidableEq, Repr

/-- The fields of `mnld_gps_clients`. -/
inductive Client
  | hal
  | agps
  | flp
  | flp_test
  | at_cmd_test
  | factory
  deriving DecidableEq, Repr

inductive SessionStatus
  | ENGINE_ON
  | SESSION_BEGIN
  | SESSION_END
  | ENGINE_OFF
  deriving DecidableEq, Repr

/-- `mnld_gps_status`, as far as the state machine is concerned, and `mnld_cfg.OFFLOAD_enabled`. Of
a timer it is known whether it is armed. -/
structure MnldGpsStatus where
  clients : Client → MnldGpsClient := fun _ => {}
  gps_state : MnldGpsState := .IDLE
  delete_aiding_flag : UInt32 := 0
  timer_start : Bool := false
  timer_stop : Bool := false
  timer_reset : Bool := false
  OFFLOAD_enabled : Bool := false

/-- What the main thread sends to the HAL, to the AGPS and FLP daemons and to the engine. -/
inductive Message
  | mnl2hal_request_wakelock
  | mnl2hal_release_wakelock
  | mnl2hal_gps_status (status : SessionStatus)
  | mnl2hal_mnld_reboot
  | mnl2agps_gps_open (si_assist_req : Bool)
  | mnl2agps_gps_close
  | mnl2agps_open_gps_done
  | mnl2agps_close_gps_done
  | mnl2agps_reset_gps_done
  | mnl2agps_reaiding_req
  | mnl2agps_delete_aiding_data (flags : UInt32)
  | mnl2agps_mnl_reboot
  | mnl2flp_gps_open_done
  | mnl2flp_gps_close_done
  | mnl2flp_mnld_reboot
  | gps_control_gps_start (flags : UInt32)
  | gps_control_gps_stop
  | gps_control_gps_reset (flags : UInt32)
  deriving DecidableEq, Repr

inductive MnldFault
  | blocked
  /-- `CRASH_TO_DEBUG` in the state machine. -/
  | crashed
  /-- `CRASH_TO_DEBUG` in what a timer calls. -/
  | timedOut
  deriving DecidableEq, Repr

/-- The clients in the order in which the functions visit them. -/
def Client.all : List Client := [.hal, .agps, .flp, .flp_test, .at_cmd_test, .factory]

theorem Client.mem_all (c : Client) : c ∈ Client.all := by cases c <;> decide

/-- The bit of a client in `mtk_gps_get_gps_user`. -/
def Client.user : Client → UInt32
  | .hal => 0x1
  | .agps => 0x2
  | .flp => 0x10
  | .flp_test => 0x20
  | .at_cmd_test => 0x40
  | .factory => 0x4

/-- Is a client told when the engine has been started or stopped for it? These are the clients that
can reboot, too. -/
def Client.acked : Client → Bool
  | .hal | .agps | .flp => true
  | .flp_test | .at_cmd_test | .factory => false

/-- What `do_gps_started_hdlr` sends to a client. -/
def Client.opened (si_assist_req : Bool) : Client → List Message
  | .hal => [.mnl2hal_gps_status .ENGINE_ON, .mnl2hal_gps_status .SESSION_BEGIN,
      .mnl2agps_gps_open si_assist_req]
  | .agps => [.mnl2agps_open_gps_done]
  | .flp => [.mnl2flp_gps_open_done, .mnl2agps_gps_open si_assist_req]
  | .flp_test | .at_cmd_test | .factory => []

/-- What `do_gps_stopped_hdlr` sends to a client. -/
def Client.closed : Client → List Message
  | .hal => [.mnl2hal_gps_status .SESSION_END, .mnl2hal_gps_status .ENGINE_OFF, .mnl2agps_gps_close]
  | .agps => [.mnl2agps_close_gps_done]
  | .flp => [.mnl2flp_gps_close_done]
  | .flp_test | .at_cmd_test | .factory => []

namespace MnldGpsStatus

variable {s : MnldGpsStatus}

def setClient (s : MnldGpsStatus) (c : Client) (client : MnldGpsClient) : MnldGpsStatus :=
  { s with clients := Function.update s.clients c client }

/-! ### Answers -/

def do_gps_reset_hdlr (s : MnldGpsStatus) : MnldGpsStatus × List Message :=
  let agps := s.clients .agps
  if agps.need_reset_ack then
    (s.setClient .agps { agps with need_reset_ack := false }, [.mnl2agps_reset_gps_done])
  else (s, [])

/-- The reset at the end of `do_gps_started_hdlr`, and for `GPS_EVENT_RESET` when the engine is
started. -/
def passReset (s : MnldGpsStatus) : MnldGpsStatus × List Message :=
  if s.delete_aiding_flag ≠ 0 then
    ({ s with timer_reset := true, delete_aiding_flag := 0 },
      [.gps_control_gps_reset s.delete_aiding_flag])
  else (s, [])

def do_gps_started_hdlr (s : MnldGpsStatus) (si_assist_req : Bool) :
    MnldGpsStatus × List Message :=
  let acks := Client.all.flatMap fun c =>
    if (s.clients c).need_open_ack then c.opened si_assist_req else []
  let opened := { s with clients := fun c => { s.clients c with need_open_ack := false } }
  let reset := opened.do_gps_reset_hdlr
  let passed := reset.1.passReset
  (passed.1, acks ++ reset.2 ++ passed.2)

def do_gps_stopped_hdlr (s : MnldGpsStatus) : MnldGpsStatus × List Message :=
  let acks := Client.all.flatMap fun c => if (s.clients c).need_close_ack then c.closed else []
  let closed := { s with clients := fun c => { s.clients c with need_close_ack := false } }
  let reset := closed.do_gps_reset_hdlr
  (reset.1, acks ++ reset.2)

/-! ### Users -/

def is_all_gps_client_exit (s : MnldGpsStatus) : Bool :=
  Client.all.all fun c => !(s.clients c).gps_used

def is_a_gps_client_exist (s : MnldGpsStatus) : Bool :=
  Client.all.any fun c => (s.clients c).gps_used

def mtk_gps_clear_gps_user (s : MnldGpsStatus) : MnldGpsStatus :=
  { s with clients := fun c => { s.clients c with gps_used := false } }

def mtk_gps_get_gps_user (s : MnldGpsStatus) : UInt32 :=
  Client.all.foldl (fun user c => if (s.clients c).gps_used then user ||| c.user else user) 0

/-! ### The state machine -/

/-- The engine is asked to start, in `fsm_gps_state_idle` and `fsm_gps_state_stopping`. With no
users but the FLP client and the offload test there is no timer when the work is offloaded. -/
def askStart (s : MnldGpsStatus) : MnldGpsStatus × List Message :=
  let gps_user := s.mtk_gps_get_gps_user
  let offloaded :=
    gps_user &&& (Client.flp.user ||| Client.flp_test.user) == gps_user && s.OFFLOAD_enabled
  ({ s with
    gps_state := .STARTING
    timer_start := s.timer_start || !offloaded
    delete_aiding_flag := 0 }, [.gps_control_gps_start s.delete_aiding_flag])

/-- The engine is asked to stop, in `fsm_gps_state_starting` and `fsm_gps_state_started`. -/
def askStop (s : MnldGpsStatus) : MnldGpsStatus × List Message :=
  ({ s with gps_state := .STOPPING, timer_stop := true }, [.gps_control_gps_stop])

def fsm_gps_state_idle (s : MnldGpsStatus) : MnldGpsEvent →
    Except MnldFault (MnldGpsStatus × List Message)
  | .START =>
    let started := s.askStart
    .ok (started.1, .mnl2hal_request_wakelock :: started.2)
  | .STOP => .ok s.do_gps_stopped_hdlr
  | .RESET => .ok s.do_gps_reset_hdlr
  | .START_DONE _ | .STOP_DONE => .ok (s, [])

def fsm_gps_state_starting (s : MnldGpsStatus) : MnldGpsEvent →
    Except MnldFault (MnldGpsStatus × List Message)
  | .START | .STOP | .RESET => .ok (s, [])
  | .START_DONE si_assist_req =>
    let started := { s with timer_start := false }.do_gps_started_hdlr si_assist_req
    if started.1.is_all_gps_client_exit then
      let stopped := started.1.askStop
      .ok (stopped.1, started.2 ++ stopped.2)
    else .ok ({ started.1 with gps_state := .STARTED }, started.2)
  | .STOP_DONE => .error .crashed

def fsm_gps_state_started (s : MnldGpsStatus) : MnldGpsEvent →
    Except MnldFault (MnldGpsStatus × List Message)
  | .START => .ok (s.do_gps_started_hdlr false)
  | .STOP => if s.is_all_gps_client_exit then .ok s.askStop else .ok s.do_gps_stopped_hdlr
  | .RESET => .ok s.passReset
  | .START_DONE _ =>
    .ok (s, if Client.hal.user &&& s.mtk_gps_get_gps_user ≠ 0 then [.mnl2agps_reaiding_req]
      else [])
  | .STOP_DONE => .error .crashed

def fsm_gps_state_stopping (s : MnldGpsStatus) : MnldGpsEvent →
    Except MnldFault (MnldGpsStatus × List Message)
  | .START | .STOP | .START_DONE _ => .ok (s, [])
  | .RESET => .ok s.do_gps_reset_hdlr
  | .STOP_DONE =>
    let stopped := { s with timer_stop := false }.do_gps_stopped_hdlr
    if stopped.1.is_a_gps_client_exist then
      let started := stopped.1.askStart
      .ok (started.1, stopped.2 ++ started.2)
    else
      .ok ({ stopped.1 with gps_state := .IDLE }, stopped.2 ++ [.mnl2hal_release_wakelock])

def mnld_fsm (s : MnldGpsStatus) (event : MnldGpsEvent) :
    Except MnldFault (MnldGpsStatus × List Message) :=
  match s.gps_state with
  | .IDLE => s.fsm_gps_state_idle event
  | .STARTING => s.fsm_gps_state_starting event
  | .STARTED => s.fsm_gps_state_started event
  | .STOPPING => s.fsm_gps_state_stopping event

/-! ### Requests of the clients -/

def clientReboot (c : Client) (s : MnldGpsStatus) :
    Except MnldFault (MnldGpsStatus × List Message) :=
  (s.setClient c {}).mnld_fsm .STOP

def clientStart (c : Client) (need_open_ack : Bool) (s : MnldGpsStatus) :
    Except MnldFault (MnldGpsStatus × List Message) :=
  (s.setClient c { s.clients c with
    gps_used := true, need_open_ack, need_close_ack := false }).mnld_fsm .START

def clientStop (c : Client) (need_close_ack : Bool) (s : MnldGpsStatus) :
    Except MnldFault (MnldGpsStatus × List Message) :=
  (s.setClient c { s.clients c with
    gps_used := false, need_open_ack := false, need_close_ack }).mnld_fsm .STOP

def hal_reboot := clientReboot .hal
def hal_gps_start := clientStart .hal true
def hal_gps_stop := clientStop .hal true
def agps_reboot := clientReboot .agps
def agps_open_gps_req := clientStart .agps true
def agps_close_gps_req := clientStop .agps true
def flp2mnl_flp_reboot := clientReboot .flp
def flp2mnl_gps_start := clientStart .flp true
def flp2mnl_gps_stop := clientStop .flp true
def flp_test2mnl_gps_start := clientStart .flp_test false
def flp_test2mnl_gps_stop := clientStop .flp_test false
def factory_mnld_gps_start := clientStart .factory false
def factory_mnld_gps_stop := clientStop .factory false
def at_test2mnl_gps_start := clientStart .at_cmd_test false
def at_test2mnl_gps_stop := clientStop .at_cmd_test false

def hal_gps_delete_aiding_data (flags : UInt32) (s : MnldGpsStatus) :
    Except MnldFault (MnldGpsStatus × List Message) :=
  let s := s.setClient .hal { s.clients .hal with need_reset_ack := false }
  let s := { s with delete_aiding_flag := s.delete_aiding_flag ||| flags }
  (s.mnld_fsm .RESET).map fun r => (r.1, .mnl2agps_delete_aiding_data flags :: r.2)

def agps_reset_gps_req (flags : UInt32) (s : MnldGpsStatus) :
    Except MnldFault (MnldGpsStatus × List Message) :=
  if flags = 0 then .ok (s, [.mnl2agps_reset_gps_done])
  else
    let s := { s with delete_aiding_flag := s.delete_aiding_flag ||| flags }
    (s.setClient .agps { s.clients .agps with need_reset_ack := true }).mnld_fsm .RESET

/-- `GPS2MAIN_EVENT_RESET_DONE` in `main_event_hdlr`. -/
def resetDone (s : MnldGpsStatus) : MnldGpsStatus × List Message :=
  { s with timer_reset := false }.do_gps_reset_hdlr

/-- `GPS2MAIN_EVENT_NMEA_TIMEOUT` in `main_event_hdlr`. -/
def nmeaTimeout (s : MnldGpsStatus) : Except MnldFault (MnldGpsStatus × List Message) :=
  if s.gps_state = .STARTED then
    (s.mtk_gps_clear_gps_user.mnld_fsm .STOP).map fun r =>
      (r.1, r.2 ++ [.mnl2hal_mnld_reboot, .mnl2agps_mnl_reboot, .mnl2flp_mnld_reboot])
  else .ok (s, [])

end MnldGpsStatus

/-- A message of a client that is for the state machine. -/
inductive Request
  | reboot (c : Client)
  | start (c : Client)
  | stop (c : Client)
  | delete_aiding_data (flags : UInt32)
  | reset_gps (flags : UInt32)
  deriving DecidableEq, Repr

open MnldGpsStatus in
def Request.handle : Request → MnldGpsStatus → Except MnldFault (MnldGpsStatus × List Message)
  | .reboot .hal => hal_reboot
  | .reboot .agps => agps_reboot
  | .reboot .flp => flp2mnl_flp_reboot
  | .reboot _ => fun _ => .error .blocked
  | .start .hal => hal_gps_start
  | .start .agps => agps_open_gps_req
  | .start .flp => flp2mnl_gps_start
  | .start .flp_test => flp_test2mnl_gps_start
  | .start .at_cmd_test => at_test2mnl_gps_start
  | .start .factory => factory_mnld_gps_start
  | .stop .hal => hal_gps_stop
  | .stop .agps => agps_close_gps_req
  | .stop .flp => flp2mnl_gps_stop
  | .stop .flp_test => flp_test2mnl_gps_stop
  | .stop .at_cmd_test => at_test2mnl_gps_stop
  | .stop .factory => factory_mnld_gps_stop
  | .delete_aiding_data flags => hal_gps_delete_aiding_data flags
  | .reset_gps flags => agps_reset_gps_req flags

namespace MnldGpsStatus

variable {s : MnldGpsStatus}

/-! ### What the functions change -/

theorem is_all_gps_client_exit_iff :
    s.is_all_gps_client_exit = true ↔ ∀ c, (s.clients c).gps_used = false := by
  simp [is_all_gps_client_exit, Client.mem_all]

theorem do_gps_reset_hdlr_fst : s.do_gps_reset_hdlr.1 =
    { s with clients := fun c => { s.clients c with
        need_reset_ack := (s.clients c).need_reset_ack && c != .agps } } := by
  have hclients : Function.update s.clients .agps
      { s.clients .agps with need_reset_ack := false } =
        fun c => { s.clients c with
          need_reset_ack := (s.clients c).need_reset_ack && c != .agps } := by
    funext c
    by_cases hc : c = .agps
    · simp [hc]
    · have hne : (c != .agps) = true := by simpa using hc
      rw [Function.update_of_ne hc, hne, Bool.and_true]
  rw [← hclients, do_gps_reset_hdlr]
  split
  · rfl
  · rename_i hreset
    have hagps : { s.clients .agps with need_reset_ack := false } = s.clients .agps := by
      simp only [Bool.not_eq_true] at hreset
      rw [← hreset]
    rw [hagps, Function.update_eq_self]

theorem passReset_fst : s.passReset.1 =
    { s with
      timer_reset := s.timer_reset || s.delete_aiding_flag != 0
      delete_aiding_flag := 0 } := by
  rw [passReset]
  by_cases hflag : s.delete_aiding_flag = 0
  · rw [if_neg (not_not_intro hflag)]
    have hne : (s.delete_aiding_flag != 0) = false := by simpa using hflag
    rw [hne, Bool.or_false]
    rw [← hflag]
  · rw [if_pos hflag]
    simp [hflag]

theorem do_gps_started_hdlr_fst (si_assist_req : Bool) :
    (s.do_gps_started_hdlr si_assist_req).1 =
      { s with
        clients := fun c => { s.clients c with
          need_open_ack := false
          need_reset_ack := (s.clients c).need_reset_ack && c != .agps }
        timer_reset := s.timer_reset || s.delete_aiding_flag != 0
        delete_aiding_flag := 0 } := by
  simp only [do_gps_started_hdlr, passReset_fst, do_gps_reset_hdlr_fst]

theorem do_gps_stopped_hdlr_fst : s.do_gps_stopped_hdlr.1 =
    { s with clients := fun c => { s.clients c with
        need_close_ack := false
        need_reset_ack := (s.clients c).need_reset_ack && c != .agps } } := by
  simp only [do_gps_stopped_hdlr, do_gps_reset_hdlr_fst]

theorem do_gps_reset_hdlr_snd : s.do_gps_reset_hdlr.2 =
    if (s.clients .agps).need_reset_ack then [.mnl2agps_reset_gps_done] else [] := by
  simp only [do_gps_reset_hdlr]
  split <;> rfl

theorem passReset_snd : s.passReset.2 =
    if s.delete_aiding_flag ≠ 0 then [.gps_control_gps_reset s.delete_aiding_flag] else [] := by
  rw [passReset]
  split <;> rfl

theorem do_gps_started_hdlr_snd (si_assist_req : Bool) :
    (s.do_gps_started_hdlr si_assist_req).2 =
      (Client.all.flatMap fun c =>
        if (s.clients c).need_open_ack then c.opened si_assist_req else []) ++
      s.do_gps_reset_hdlr.2 ++ s.passReset.2 := by
  simp only [do_gps_started_hdlr, do_gps_reset_hdlr_snd, passReset_snd, do_gps_reset_hdlr_fst]

theorem do_gps_stopped_hdlr_snd : s.do_gps_stopped_hdlr.2 =
    (Client.all.flatMap fun c => if (s.clients c).need_close_ack then c.closed else []) ++
      s.do_gps_reset_hdlr.2 := by
  simp only [do_gps_stopped_hdlr, do_gps_reset_hdlr_snd]

def ignores : MnldGpsState → MnldGpsEvent → Prop
  | .IDLE, .START_DONE _ | .IDLE, .STOP_DONE => True
  | .STARTING, .START | .STARTING, .STOP | .STARTING, .RESET => True
  | .STOPPING, .START | .STOPPING, .STOP | .STOPPING, .START_DONE _ => True
  | _, _ => False

/-- What `mnld_fsm` does. -/
inductive Moved (s : MnldGpsStatus) : MnldGpsEvent → MnldGpsStatus × List Message → Prop
  | ignored {event : MnldGpsEvent} (hignores : ignores s.gps_state event) :
      Moved s event (s, [])
  | first (hstate : s.gps_state = .IDLE) :
      Moved s .START (s.askStart.1, .mnl2hal_request_wakelock :: s.askStart.2)
  | stop (hstate : s.gps_state = .IDLE ∨
        s.gps_state = .STARTED ∧ s.is_all_gps_client_exit = false) :
      Moved s .STOP s.do_gps_stopped_hdlr
  | reset (hstate : s.gps_state = .IDLE ∨ s.gps_state = .STOPPING) :
      Moved s .RESET s.do_gps_reset_hdlr
  | ready {si_assist_req : Bool} {started : MnldGpsStatus × List Message}
      (hstate : s.gps_state = .STARTING)
      (hstarted : started = { s with timer_start := false }.do_gps_started_hdlr si_assist_req)
      (hused : s.is_all_gps_client_exit = false) :
      Moved s (.START_DONE si_assist_req) ({ started.1 with gps_state := .STARTED }, started.2)
  | unused {si_assist_req : Bool} {started : MnldGpsStatus × List Message}
      (hstate : s.gps_state = .STARTING)
      (hstarted : started = { s with timer_start := false }.do_gps_started_hdlr si_assist_req)
      (hexit : s.is_all_gps_client_exit = true) :
      Moved s (.START_DONE si_assist_req) (started.1.askStop.1, started.2 ++ started.1.askStop.2)
  | start (hstate : s.gps_state = .STARTED) : Moved s .START (s.do_gps_started_hdlr false)
  | last (hstate : s.gps_state = .STARTED) (hexit : s.is_all_gps_client_exit = true) :
      Moved s .STOP s.askStop
  | pass (hstate : s.gps_state = .STARTED) : Moved s .RESET s.passReset
  | again {si_assist_req : Bool} {messages : List Message} (hstate : s.gps_state = .STARTED)
      (hmessages : messages = [] ∨ messages = [.mnl2agps_reaiding_req]) :
      Moved s (.START_DONE si_assist_req) (s, messages)
  | restart {stopped : MnldGpsStatus × List Message} (hstate : s.gps_state = .STOPPING)
      (hstopped : stopped = { s with timer_stop := false }.do_gps_stopped_hdlr)
      (hused : s.is_all_gps_client_exit = false) :
      Moved s .STOP_DONE (stopped.1.askStart.1, stopped.2 ++ stopped.1.askStart.2)
  | idle {stopped : MnldGpsStatus × List Message} (hstate : s.gps_state = .STOPPING)
      (hstopped : stopped = { s with timer_stop := false }.do_gps_stopped_hdlr)
      (hexit : s.is_all_gps_client_exit = true) :
      Moved s .STOP_DONE
        ({ stopped.1 with gps_state := .IDLE }, stopped.2 ++ [.mnl2hal_release_wakelock])

variable {event : MnldGpsEvent} {r : MnldGpsStatus × List Message} {fault : MnldFault}

theorem is_all_gps_client_exit_started (si_assist_req timer_start : Bool) :
    ({ s with timer_start }.do_gps_started_hdlr si_assist_req).1.is_all_gps_client_exit =
      s.is_all_gps_client_exit := by
  rw [do_gps_started_hdlr_fst]
  rfl

theorem is_a_gps_client_exist_stopped (timer_stop : Bool) :
    ({ s with timer_stop }.do_gps_stopped_hdlr).1.is_a_gps_client_exist =
      !s.is_all_gps_client_exit := by
  rw [do_gps_stopped_hdlr_fst]
  simp [is_a_gps_client_exist, is_all_gps_client_exit, List.any_eq_not_all_not]

theorem moved_of_fsm (h : s.mnld_fsm event = .ok r) : Moved s event r := by
  rw [mnld_fsm] at h
  split at h <;> rename_i hstate
  · cases event with
    | START => cases h; exact .first hstate
    | STOP => cases h; exact .stop (.inl hstate)
    | RESET => cases h; exact .reset (.inl hstate)
    | START_DONE _ => cases h; exact .ignored (by rw [hstate]; trivial)
    | STOP_DONE => cases h; exact .ignored (by rw [hstate]; trivial)
  · cases event with
    | START => cases h; exact .ignored (by rw [hstate]; trivial)
    | STOP => cases h; exact .ignored (by rw [hstate]; trivial)
    | RESET => cases h; exact .ignored (by rw [hstate]; trivial)
    | START_DONE si_assist_req =>
      simp only [fsm_gps_state_starting, is_all_gps_client_exit_started] at h
      split at h <;> rename_i hexit
      · cases h; exact .unused hstate rfl hexit
      · cases h; exact .ready hstate rfl (Bool.eq_false_iff.mpr hexit)
    | STOP_DONE => cases h
  · cases event with
    | START => cases h; exact .start hstate
    | STOP =>
      simp only [fsm_gps_state_started] at h
      split at h <;> rename_i hexit
      · cases h; exact .last hstate hexit
      · cases h; exact .stop (.inr ⟨hstate, Bool.eq_false_iff.mpr hexit⟩)
    | RESET => cases h; exact .pass hstate
    | START_DONE _ =>
      cases h
      refine .again hstate ?_
      split
      · exact .inr rfl
      · exact .inl rfl
    | STOP_DONE => cases h
  · cases event with
    | START => cases h; exact .ignored (by rw [hstate]; trivial)
    | STOP => cases h; exact .ignored (by rw [hstate]; trivial)
    | RESET => cases h; exact .reset (.inr hstate)
    | START_DONE _ => cases h; exact .ignored (by rw [hstate]; trivial)
    | STOP_DONE =>
      simp only [fsm_gps_state_stopping, is_a_gps_client_exist_stopped] at h
      split at h <;> rename_i hexit
      · cases h; exact .restart hstate rfl (by simpa using hexit)
      · cases h; exact .idle hstate rfl (by simpa using hexit)

/-- The state machine crashes on the news that the engine has stopped when it was not asked to. -/
theorem fsm_error (h : s.mnld_fsm event = .error fault) :
    event = .STOP_DONE ∧ (s.gps_state = .STARTING ∨ s.gps_state = .STARTED) := by
  rw [mnld_fsm] at h
  split at h <;> rename_i hstate
  · cases event <;> cases h
  · cases event with
    | STOP_DONE => exact ⟨rfl, .inl hstate⟩
    | START_DONE _ =>
      rw [fsm_gps_state_starting] at h
      split at h <;> cases h
    | _ => cases h
  · cases event with
    | STOP_DONE => exact ⟨rfl, .inr hstate⟩
    | STOP =>
      rw [fsm_gps_state_started] at h
      split at h <;> cases h
    | _ => cases h
  · cases event with
    | STOP_DONE =>
      rw [fsm_gps_state_stopping] at h
      split at h <;> cases h
    | _ => cases h

/-! ### What a request does -/

/-- The flags of the clients as a request leaves them to the state machine. -/
def asked (s : MnldGpsStatus) : Request → MnldGpsStatus
  | .reboot c => s.setClient c {}
  | .start c => s.setClient c { s.clients c with
      gps_used := true, need_open_ack := c.acked, need_close_ack := false }
  | .stop c => s.setClient c { s.clients c with
      gps_used := false, need_open_ack := false, need_close_ack := c.acked }
  | .delete_aiding_data flags =>
    let s := s.setClient .hal { s.clients .hal with need_reset_ack := false }
    { s with delete_aiding_flag := s.delete_aiding_flag ||| flags }
  | .reset_gps flags =>
    if flags = 0 then s
    else
      let s := { s with delete_aiding_flag := s.delete_aiding_flag ||| flags }
      s.setClient .agps { s.clients .agps with need_reset_ack := true }

end MnldGpsStatus

def Request.event : Request → MnldGpsEvent
  | .reboot _ | .stop _ => .STOP
  | .start _ => .START
  | .delete_aiding_data _ | .reset_gps _ => .RESET

namespace MnldGpsStatus

variable {s : MnldGpsStatus} {request : Request} {r : MnldGpsStatus × List Message}
  {fault : MnldFault}

/-- What a request does: it is handed to the state machine, or it is one for a reset of nothing. -/
inductive Handled (s : MnldGpsStatus) : Request → MnldGpsStatus × List Message → Prop
  | moved {request : Request} {r : MnldGpsStatus × List Message}
      (hrequest : request ≠ .reset_gps 0) (hmoved : Moved (s.asked request) request.event r) :
      Handled s request r
  | deleted {flags : UInt32} {r : MnldGpsStatus × List Message}
      (hmoved : Moved (s.asked (.delete_aiding_data flags)) .RESET r) :
      Handled s (.delete_aiding_data flags) (r.1, .mnl2agps_delete_aiding_data flags :: r.2)
  | nothing : Handled s (.reset_gps 0) (s, [.mnl2agps_reset_gps_done])

theorem handle_eq (request : Request) :
    (request.handle s = .error .blocked ∧ ∃ c, request = .reboot c) ∨
    (request = .reset_gps 0 ∧ request.handle s = .ok (s, [.mnl2agps_reset_gps_done])) ∨
    (∃ flags, request = .delete_aiding_data flags ∧ request.handle s =
      ((s.asked request).mnld_fsm .RESET).map fun r =>
        (r.1, .mnl2agps_delete_aiding_data flags :: r.2)) ∨
    (request ≠ .reset_gps 0 ∧ request.handle s = (s.asked request).mnld_fsm request.event) := by
  cases request with
  | reboot c =>
    cases c with
    | hal | agps | flp => exact .inr (.inr (.inr ⟨by simp, rfl⟩))
    | flp_test | at_cmd_test | factory => exact .inl ⟨rfl, _, rfl⟩
  | start c => cases c <;> exact .inr (.inr (.inr ⟨by simp, rfl⟩))
  | stop c => cases c <;> exact .inr (.inr (.inr ⟨by simp, rfl⟩))
  | delete_aiding_data flags => exact .inr (.inr (.inl ⟨flags, rfl, rfl⟩))
  | reset_gps flags =>
    by_cases hflags : flags = 0
    · rw [hflags]
      exact .inr (.inl ⟨rfl, rfl⟩)
    · refine .inr (.inr (.inr ⟨by simpa using hflags, ?_⟩))
      simp only [Request.handle, agps_reset_gps_req, asked, Request.event, if_neg hflags]

theorem handled_of_handle (h : request.handle s = .ok r) : Handled s request r := by
  rcases s.handle_eq request with ⟨heq, -⟩ | ⟨rfl, heq⟩ | ⟨flags, rfl, heq⟩ | ⟨hrequest, heq⟩
  · rw [heq] at h
    cases h
  · rw [heq] at h
    cases h
    exact .nothing
  · rw [heq] at h
    obtain ⟨r', hfsm, rfl⟩ := map_eq_ok_iff.mp h
    exact .deleted (moved_of_fsm hfsm)
  · rw [heq] at h
    exact .moved hrequest (moved_of_fsm h)

theorem handle_error (h : request.handle s = .error fault) : fault = .blocked := by
  rcases s.handle_eq request with ⟨heq, -⟩ | ⟨rfl, heq⟩ | ⟨flags, rfl, heq⟩ | ⟨hrequest, heq⟩
  · rw [heq] at h
    cases h
    rfl
  · rw [heq] at h
    cases h
  · rw [heq] at h
    cases hfsm : (s.asked (.delete_aiding_data flags)).mnld_fsm .RESET with
    | ok r => rw [hfsm] at h; cases h
    | error fault => cases (fsm_error hfsm).1
  · rw [heq] at h
    have hevent := (fsm_error h).1
    cases request <;> cases hevent

end MnldGpsStatus

end MtkHardware.Mnld
