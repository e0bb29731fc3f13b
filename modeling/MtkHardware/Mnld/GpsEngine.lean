import MtkHardware.Mnld.GpsFsm

/-!
# The Engine Behind the State Machine

The main thread and the thread that controls the engine talk through two sockets. A request of the
state machine waits in `MNLD_GPS_CONTROL_SOCKET` until `gps_control_event_hdlr` takes it; what the
engine confirms, and that no NMEA data came in time, waits in `MNLD_MAIN_SOCKET` until
`main_event_hdlr` takes it. An engine that runs says that it is ready at least once, and may do so
again; a stop and a reset are each confirmed once, when they have been done. The clients and the
timers come in at any time.
-/

namespace MtkHardware.Mnld

/-- The requests in `MNLD_GPS_CONTROL_SOCKET`. The resets are numbered. -/
inductive Main2Gps
  | START (flags : UInt32)
  | STOP
  | DELETE_AIDING_DATA (flags : UInt32) (serial : ℕ)
  deriving DecidableEq, Repr

/-- The events in `MNLD_MAIN_SOCKET` that the state machine is concerned with. The number of the
reset that is confirmed is not in the message. -/
inductive Gps2Main
  | START_DONE (si_assist_req : Bool)
  | STOP_DONE
  | RESET_DONE (serial : ℕ)
  | NMEA_TIMEOUT
  deriving DecidableEq, Repr

structure MnldSystem where
  gps_status : MnldGpsStatus := {}
  requests : List Main2Gps := []
  engineOn : Bool := false
  events : List Gps2Main := []
  /-- How many resets the engine has been asked for. -/
  resets : ℕ := 0
  /-- The number of the reset that passes on the flags of the AGPS client, for the first of its
  requests that is open. -/
  agps_reset : ℕ := 0

inductive Timer
  | timer_start
  | timer_stop
  | timer_reset
  deriving DecidableEq, Repr

inductive MnldOp
  /-- A client sends a message. -/
  | request (request : Request)
  /-- `mnl_offload_set_enabled`, `mnl_offload_clear_enabled`. -/
  | offload (enabled : Bool)
  | main_event_hdlr
  | gps_control_event_hdlr
  /-- The engine calls back with `MTK_AGPS_CB_START_REQ`. -/
  | ready (si_assist_req : Bool)
  /-- `gps_mnld_restart_mnl_process`. -/
  | nmeaTimeout
  | expire (timer : Timer)
  deriving DecidableEq, Repr

namespace MnldGpsStatus

def armed (s : MnldGpsStatus) : Timer → Bool
  | .timer_start => s.timer_start
  | .timer_stop => s.timer_stop
  | .timer_reset => s.timer_reset

/-- `main_event_hdlr`, with the event it has taken. -/
def mainEvent (s : MnldGpsStatus) : Gps2Main → Except MnldFault (MnldGpsStatus × List Message)
  | .START_DONE si_assist_req => s.mnld_fsm (.START_DONE si_assist_req)
  | .STOP_DONE => s.mnld_fsm .STOP_DONE
  | .RESET_DONE _ => .ok s.resetDone
  | .NMEA_TIMEOUT => s.nmeaTimeout

end MnldGpsStatus

namespace MnldSystem

def send (s : MnldSystem) : Message → MnldSystem
  | .gps_control_gps_start flags => { s with requests := s.requests ++ [.START flags] }
  | .gps_control_gps_stop => { s with requests := s.requests ++ [.STOP] }
  | .gps_control_gps_reset flags => { s with
      requests := s.requests ++ [.DELETE_AIDING_DATA flags s.resets]
      resets := s.resets + 1 }
  | _ => s

@[simp] theorem send_start (s : MnldSystem) (flags : UInt32) :
    s.send (.gps_control_gps_start flags) = { s with requests := s.requests ++ [.START flags] } :=
  rfl

@[simp] theorem send_stop (s : MnldSystem) :
    s.send .gps_control_gps_stop = { s with requests := s.requests ++ [.STOP] } := rfl

@[simp] theorem send_request_wakelock (s : MnldSystem) :
    s.send .mnl2hal_request_wakelock = s := rfl

@[simp] theorem send_release_wakelock (s : MnldSystem) :
    s.send .mnl2hal_release_wakelock = s := rfl

/-- The main thread leaves a status and sends messages. -/
def answer (s : MnldSystem) (r : MnldGpsStatus × List Message) : MnldSystem × List Message :=
  (r.2.foldl send { s with gps_status := r.1 }, r.2)

/-- The number that is noted when a request of the AGPS client comes: its flags are passed on by the
next reset, if not by a start. -/
def note (s : MnldSystem) : Request → MnldSystem
  | .reset_gps flags =>
    if flags = 0 ∨ (s.gps_status.clients .agps).need_reset_ack then s
    else { s with agps_reset := s.resets }
  | _ => s

/-- `gps_control_event_hdlr`, with the request it has taken. -/
def control (s : MnldSystem) : Main2Gps → MnldSystem
  | .START _ => { s with engineOn := true }
  | .STOP => { s with engineOn := false, events := s.events ++ [.STOP_DONE] }
  | .DELETE_AIDING_DATA _ serial => { s with events := s.events ++ [.RESET_DONE serial] }

end MnldSystem

def mnld : Machine MnldSystem MnldOp Message MnldFault
  | s, .request request =>
    (request.handle s.gps_status).map (s.note request).answer
  | s, .offload enabled =>
    .ok ({ s with gps_status := { s.gps_status with OFFLOAD_enabled := enabled } }, [])
  | s, .main_event_hdlr =>
    match s.events with
    | [] => .error .blocked
    | event :: events =>
      (s.gps_status.mainEvent event).map { s with events }.answer
  | s, .gps_control_event_hdlr =>
    match s.requests with
    | [] => .error .blocked
    | request :: requests => .ok ({ s with requests }.control request, [])
  | s, .ready si_assist_req =>
    if s.engineOn then
      .ok ({ s with events := s.events ++ [.START_DONE si_assist_req] }, [])
    else .error .blocked
  | s, .nmeaTimeout => .ok ({ s with events := s.events ++ [.NMEA_TIMEOUT] }, [])
  | s, .expire timer =>
    if s.gps_status.armed timer then .error .timedOut else .error .blocked

/-! ### What is sent -/

def Message.toClient : Message → Bool
  | .mnl2hal_request_wakelock | .mnl2hal_release_wakelock => false
  | .gps_control_gps_start _ | .gps_control_gps_stop | .gps_control_gps_reset _ => false
  | _ => true

theorem Client.toClient_opened (c : Client) (si_assist_req : Bool) :
    ∀ m ∈ c.opened si_assist_req, m.toClient := by
  cases c <;> exact List.all_eq_true.mp rfl

theorem Client.toClient_closed (c : Client) : ∀ m ∈ c.closed, m.toClient := by
  cases c <;> exact List.all_eq_true.mp rfl

namespace MnldGpsStatus

variable {s : MnldGpsStatus}

theorem toClient_reset : ∀ m ∈ s.do_gps_reset_hdlr.2, m.toClient := by
  rw [do_gps_reset_hdlr_snd]
  split
  · exact List.all_eq_true.mp rfl
  · simp

theorem toClient_stopped : ∀ m ∈ s.do_gps_stopped_hdlr.2, m.toClient := by
  intro m hm
  rw [do_gps_stopped_hdlr_snd, List.mem_append, List.mem_flatMap] at hm
  rcases hm with ⟨c, -, hm⟩ | hm
  · split at hm
    · exact c.toClient_closed m hm
    · cases hm
  · exact toClient_reset m hm

/-- `do_gps_started_hdlr` answers clients, and may ask the engine for a reset behind it. -/
theorem started_messages (si_assist_req : Bool) :
    ∃ messages, (s.do_gps_started_hdlr si_assist_req).2 = messages ++ s.passReset.2 ∧
      ∀ m ∈ messages, m.toClient := by
  refine ⟨_, do_gps_started_hdlr_snd si_assist_req, ?_⟩
  intro m hm
  rw [List.mem_append, List.mem_flatMap] at hm
  rcases hm with ⟨c, -, hm⟩ | hm
  · split at hm
    · exact c.toClient_opened si_assist_req m hm
    · cases hm
  · exact toClient_reset m hm

end MnldGpsStatus

namespace MnldSystem

variable {s s' : MnldSystem} {op : MnldOp} {ops : List MnldOp} {os o : List Message}

theorem gps_status_foldl_send (messages : List Message) :
    (messages.foldl send s).gps_status = s.gps_status := by
  induction messages generalizing s with
  | nil => rfl
  | cons m messages ih =>
    rw [List.foldl_cons, ih]
    cases m <;> rfl

open MnldGpsStatus in
/-- What a step makes of the status, and what it sends. -/
inductive Stepped (s : MnldSystem) : MnldOp → MnldGpsStatus × List Message → Prop
  | request {request : Request} {r : MnldGpsStatus × List Message}
      (hhandled : Handled s.gps_status request r) : Stepped s (.request request) r
  | offload {enabled : Bool} :
      Stepped s (.offload enabled) ({ s.gps_status with OFFLOAD_enabled := enabled }, [])
  | startDone {si_assist_req : Bool} {events : List Gps2Main} {r : MnldGpsStatus × List Message}
      (hevents : s.events = .START_DONE si_assist_req :: events)
      (hmoved : Moved s.gps_status (.START_DONE si_assist_req) r) : Stepped s .main_event_hdlr r
  | stopDone {events : List Gps2Main} {r : MnldGpsStatus × List Message}
      (hevents : s.events = .STOP_DONE :: events) (hmoved : Moved s.gps_status .STOP_DONE r) :
      Stepped s .main_event_hdlr r
  | resetDone {serial : ℕ} {events : List Gps2Main}
      (hevents : s.events = .RESET_DONE serial :: events) :
      Stepped s .main_event_hdlr s.gps_status.resetDone
  | timeout {events : List Gps2Main} {r : MnldGpsStatus × List Message}
      (hevents : s.events = .NMEA_TIMEOUT :: events) (hstate : s.gps_status.gps_state = .STARTED)
      (hmoved : Moved s.gps_status.mtk_gps_clear_gps_user .STOP r) : Stepped s .main_event_hdlr
        (r.1, r.2 ++ [.mnl2hal_mnld_reboot, .mnl2agps_mnl_reboot, .mnl2flp_mnld_reboot])
  | late {events : List Gps2Main} (hevents : s.events = .NMEA_TIMEOUT :: events)
      (hstate : s.gps_status.gps_state ≠ .STARTED) : Stepped s .main_event_hdlr (s.gps_status, [])
  | engine : Stepped s .gps_control_event_hdlr (s.gps_status, [])
  | ready {si_assist_req : Bool} : Stepped s (.ready si_assist_req) (s.gps_status, [])
  | nmeaTimeout : Stepped s .nmeaTimeout (s.gps_status, [])

theorem stepped_of_step (hstep : mnld s op = .ok (s', o)) : s.Stepped op (s'.gps_status, o) := by
  cases op with
  | request request =>
    obtain ⟨r, hhandle, heq⟩ := map_eq_ok_iff.mp hstep
    cases heq
    rw [gps_status_foldl_send]
    exact .request (MnldGpsStatus.handled_of_handle hhandle)
  | offload enabled => cases hstep; exact .offload
  | main_event_hdlr =>
    rw [mnld] at hstep
    split at hstep
    · cases hstep
    · rename_i event events hevents
      obtain ⟨r, hhandle, heq⟩ := map_eq_ok_iff.mp hstep
      cases heq
      rw [gps_status_foldl_send]
      cases event with
      | START_DONE _ => exact .startDone hevents (MnldGpsStatus.moved_of_fsm hhandle)
      | STOP_DONE => exact .stopDone hevents (MnldGpsStatus.moved_of_fsm hhandle)
      | RESET_DONE _ => cases hhandle; exact .resetDone hevents
      | NMEA_TIMEOUT =>
        rw [MnldGpsStatus.mainEvent, MnldGpsStatus.nmeaTimeout] at hhandle
        split at hhandle
        · rename_i hstate
          obtain ⟨r', hfsm, rfl⟩ := map_eq_ok_iff.mp hhandle
          exact .timeout hevents hstate (MnldGpsStatus.moved_of_fsm hfsm)
        · rename_i hstate
          cases hhandle
          exact .late hevents hstate
  | gps_control_event_hdlr =>
    rw [mnld] at hstep
    split at hstep
    · cases hstep
    · rename_i request requests _
      cases hstep
      have hstatus : ({ s with requests }.control request).gps_status = s.gps_status := by
        cases request <;> rfl
      rw [hstatus]
      exact .engine
  | ready _ =>
    rw [mnld] at hstep
    split at hstep <;> cases hstep
    exact .ready
  | nmeaTimeout => cases hstep; exact .nmeaTimeout
  | expire _ =>
    rw [mnld] at hstep
    split at hstep <;> cases hstep

theorem foldl_send_of_toClient {messages : List Message} (h : ∀ m ∈ messages, m.toClient) :
    messages.foldl send s = s := by
  induction messages with
  | nil => rfl
  | cons m messages ih =>
    rw [List.foldl_cons]
    have hm : s.send m = s := by
      have hclient := h m List.mem_cons_self
      cases m <;> first | rfl | cases hclient
    rw [hm]
    exact ih fun m hm => h m (List.mem_cons_of_mem _ hm)

end MnldSystem

namespace MnldGpsStatus

variable {s : MnldGpsStatus} {request : Request}

/-! ### What a request leaves as it is -/

@[simp] theorem asked_gps_state : (s.asked request).gps_state = s.gps_state := by
  cases request with
  | reset_gps flags => simp only [asked]; split <;> rfl
  | _ => rfl

@[simp] theorem asked_timer_start : (s.asked request).timer_start = s.timer_start := by
  cases request with
  | reset_gps flags => simp only [asked]; split <;> rfl
  | _ => rfl

@[simp] theorem asked_timer_stop : (s.asked request).timer_stop = s.timer_stop := by
  cases request with
  | reset_gps flags => simp only [asked]; split <;> rfl
  | _ => rfl

theorem asked_gps_used (c : Client) : ((s.asked request).clients c).gps_used =
    match request with
    | .reboot c' | .stop c' => if c = c' then false else (s.clients c).gps_used
    | .start c' => if c = c' then true else (s.clients c).gps_used
    | _ => (s.clients c).gps_used := by
  cases request with
  | reboot c' | stop c' | start c' =>
    simp only [asked, setClient, Function.update_apply]
    split <;> rfl
  | delete_aiding_data flags =>
    simp only [asked, setClient, Function.update_apply]
    split
    · rename_i hc
      rw [hc]
    · rfl
  | reset_gps flags =>
    simp only [asked, setClient]
    split
    · rfl
    · simp only [Function.update_apply]
      split
      · rename_i hc
        rw [hc]
      · rfl

theorem exit_asked (hevent : request.event ≠ .START) (h : s.is_all_gps_client_exit = true) :
    (s.asked request).is_all_gps_client_exit = true := by
  rw [is_all_gps_client_exit_iff] at h ⊢
  intro c
  rw [asked_gps_used]
  cases request with
  | reboot c' | stop c' => simp [h c]
  | start c' => exact absurd rfl hevent
  | delete_aiding_data _ | reset_gps _ => exact h c

theorem used_asked (hevent : request.event ≠ .STOP) (h : s.is_all_gps_client_exit = false) :
    (s.asked request).is_all_gps_client_exit = false := by
  rw [Bool.eq_false_iff, Ne, is_all_gps_client_exit_iff] at h ⊢
  intro hexit
  cases request with
  | reboot c' | stop c' => exact hevent rfl
  | start c' => simpa [asked_gps_used] using hexit c'
  | delete_aiding_data _ | reset_gps _ =>
    exact h fun c => by simpa [asked_gps_used] using hexit c

end MnldGpsStatus

namespace MnldSystem

def startOps : List MnldOp :=
  [.request (.start .hal), .gps_control_event_hdlr, .ready false, .main_event_hdlr]

end MnldSystem

end MtkHardware.Mnld
