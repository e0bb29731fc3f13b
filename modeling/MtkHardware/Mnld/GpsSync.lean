import MtkHardware.Mnld.GpsEngine

/-!
# The State Machine and the Engine in Step

What the state machine believes of the engine is what the engine does. Each state goes with what can
be in the two sockets and with whether the engine runs: in `STARTED` it runs and nothing but resets
waits for it, in `STOPPING` its stop waits as the last request, or the news of it, and so on. A
client that comes in between changes the flags only.
-/

namespace MtkHardware.Mnld

/-- Does a message neither start nor stop the engine, nor take or release the wakelock? -/
def Message.plain : Message → Bool
  | .gps_control_gps_reset _ => true
  | m => m.toClient

theorem Message.plain_of_toClient {m : Message} (h : m.toClient) : m.plain := by
  cases m <;> first | exact h | rfl

theorem count_of_plain {messages : List Message} (h : ∀ m ∈ messages, m.plain) :
    messages.count .mnl2hal_request_wakelock = 0 ∧
      messages.count .mnl2hal_release_wakelock = 0 :=
  ⟨List.count_eq_zero.mpr fun hm => Bool.false_ne_true (h _ hm),
    List.count_eq_zero.mpr fun hm => Bool.false_ne_true (h _ hm)⟩

namespace MnldGpsStatus

variable {s : MnldGpsStatus}

theorem plain_passReset : ∀ m ∈ s.passReset.2, m.plain := by
  rw [passReset_snd]
  split
  · exact List.all_eq_true.mp rfl
  · simp

theorem plain_started (si_assist_req : Bool) :
    ∀ m ∈ (s.do_gps_started_hdlr si_assist_req).2, m.plain := by
  obtain ⟨messages, heq, hclient⟩ := s.started_messages si_assist_req
  rw [heq]
  intro m hm
  rcases List.mem_append.mp hm with hm | hm
  · exact Message.plain_of_toClient (hclient m hm)
  · exact plain_passReset m hm

theorem plain_stopped : ∀ m ∈ s.do_gps_stopped_hdlr.2, m.plain :=
  fun m hm => Message.plain_of_toClient (toClient_stopped m hm)

end MnldGpsStatus

def Main2Gps.isReset : Main2Gps → Prop
  | .DELETE_AIDING_DATA _ _ => True
  | _ => False

/-- May an event come from an engine that has not been stopped? -/
def Gps2Main.running : Gps2Main → Prop
  | .STOP_DONE => False
  | _ => True

/-- May an event come from an engine that has been asked for nothing but to start? -/
def Gps2Main.starting : Gps2Main → Prop
  | .STOP_DONE | .RESET_DONE _ => False
  | _ => True

theorem Gps2Main.running_of_starting {e : Gps2Main} (h : e.starting) : e.running := by
  cases e <;> trivial

/-- **The link**: what can be in the sockets, and whether the engine runs, in each state. -/
inductive Linked : MnldGpsState → List Main2Gps → Bool → List Gps2Main → Prop
  | idle {events : List Gps2Main} (hevents : ∀ e ∈ events, e = .NMEA_TIMEOUT) :
      Linked .IDLE [] false events
  | asked {flags : UInt32} {events : List Gps2Main} (hevents : ∀ e ∈ events, e = .NMEA_TIMEOUT) :
      Linked .STARTING [.START flags] false events
  | starting {events : List Gps2Main} (hevents : ∀ e ∈ events, e.starting) :
      Linked .STARTING [] true events
  | started {requests : List Main2Gps} {events : List Gps2Main}
      (hrequests : ∀ r ∈ requests, r.isReset) (hevents : ∀ e ∈ events, e.running) :
      Linked .STARTED requests true events
  | stopping {resets : List Main2Gps} {events : List Gps2Main}
      (hresets : ∀ r ∈ resets, r.isReset) (hevents : ∀ e ∈ events, e.running) :
      Linked .STOPPING (resets ++ [.STOP]) true events
  | stopped {before after : List Gps2Main} (hbefore : ∀ e ∈ before, e.running)
      (hafter : ∀ e ∈ after, e = .NMEA_TIMEOUT) :
      Linked .STOPPING [] false (before ++ .STOP_DONE :: after)

namespace Linked

variable {state : MnldGpsState} {requests : List Main2Gps} {engineOn : Bool}
  {events : List Gps2Main} {e : Gps2Main}

theorem tail (h : Linked state requests engineOn (e :: events)) (he : e ≠ .STOP_DONE) :
    Linked state requests engineOn events := by
  generalize hall : e :: events = all at h
  cases h with
  | idle hevents => subst hall; exact .idle (List.forall_mem_cons.mp hevents).2
  | asked hevents => subst hall; exact .asked (List.forall_mem_cons.mp hevents).2
  | starting hevents => subst hall; exact .starting (List.forall_mem_cons.mp hevents).2
  | started hrequests hevents =>
    subst hall
    exact .started hrequests (List.forall_mem_cons.mp hevents).2
  | stopping hresets hevents =>
    subst hall
    exact .stopping hresets (List.forall_mem_cons.mp hevents).2
  | @stopped before after hbefore hafter =>
    cases before with
    | nil => exact absurd (List.cons.inj hall).1 he
    | cons b before =>
      rw [(List.cons.inj hall).2]
      exact .stopped (List.forall_mem_cons.mp hbefore).2 hafter

theorem of_stop_done (h : Linked state requests engineOn (.STOP_DONE :: events)) :
    state = .STOPPING ∧ requests = [] ∧ engineOn = false ∧
      ∀ e ∈ events, e = .NMEA_TIMEOUT := by
  generalize hall : Gps2Main.STOP_DONE :: events = all at h
  cases h with
  | idle hevents => subst hall; cases hevents _ List.mem_cons_self
  | asked hevents => subst hall; cases hevents _ List.mem_cons_self
  | starting hevents => subst hall; cases hevents _ List.mem_cons_self
  | started _ hevents => subst hall; cases hevents _ List.mem_cons_self
  | stopping _ hevents => subst hall; cases hevents _ List.mem_cons_self
  | @stopped before after hbefore hafter =>
    cases before with
    | nil =>
      rw [(List.cons.inj hall).2]
      exact ⟨rfl, rfl, rfl, hafter⟩
    | cons b before =>
      rw [← (List.cons.inj hall).1] at hbefore
      cases hbefore _ List.mem_cons_self

theorem of_start_done {si_assist_req : Bool}
    (h : Linked .STARTING requests engineOn (.START_DONE si_assist_req :: events)) :
    requests = [] ∧ engineOn = true := by
  cases h with
  | asked hevents => cases hevents _ List.mem_cons_self
  | starting _ => exact ⟨rfl, rfl⟩

theorem of_idle (h : Linked .IDLE requests engineOn events) :
    requests = [] ∧ engineOn = false ∧ ∀ e ∈ events, e = .NMEA_TIMEOUT := by
  cases h with
  | idle hevents => exact ⟨rfl, rfl, hevents⟩

theorem of_starting (h : Linked .STARTING requests true events) :
    ∀ e ∈ events, e.starting := by
  cases h with
  | starting hevents => exact hevents

theorem of_started (h : Linked .STARTED requests engineOn events) :
    engineOn = true ∧ (∀ r ∈ requests, r.isReset) ∧ ∀ e ∈ events, e.running := by
  cases h with
  | started hrequests hevents => exact ⟨rfl, hrequests, hevents⟩

theorem snoc_nmea (h : Linked state requests engineOn events) :
    Linked state requests engineOn (events ++ [.NMEA_TIMEOUT]) := by
  cases h with
  | idle hevents => exact .idle (List.forall_mem_append.mpr ⟨hevents, by simp⟩)
  | asked hevents => exact .asked (List.forall_mem_append.mpr ⟨hevents, by simp⟩)
  | starting hevents =>
    exact .starting (List.forall_mem_append.mpr ⟨hevents, by simp [Gps2Main.starting]⟩)
  | started hrequests hevents =>
    exact .started hrequests (List.forall_mem_append.mpr ⟨hevents, by simp [Gps2Main.running]⟩)
  | stopping hresets hevents =>
    exact .stopping hresets (List.forall_mem_append.mpr ⟨hevents, by simp [Gps2Main.running]⟩)
  | stopped hbefore hafter =>
    rw [List.append_assoc, List.cons_append]
    exact .stopped hbefore (List.forall_mem_append.mpr ⟨hafter, by simp⟩)

theorem snoc_ready {si_assist_req : Bool} (h : Linked state requests true events) :
    Linked state requests true (events ++ [.START_DONE si_assist_req]) := by
  cases h with
  | starting hevents =>
    exact .starting (List.forall_mem_append.mpr ⟨hevents, by simp [Gps2Main.starting]⟩)
  | started hrequests hevents =>
    exact .started hrequests (List.forall_mem_append.mpr ⟨hevents, by simp [Gps2Main.running]⟩)
  | stopping hresets hevents =>
    exact .stopping hresets (List.forall_mem_append.mpr ⟨hevents, by simp [Gps2Main.running]⟩)

end Linked

namespace MnldSystem

variable {s s' : MnldSystem} {op : MnldOp} {ops : List MnldOp} {os o : List Message}
  {request : Request}

/-- What `do_gps_started_hdlr` sends, and the reset that `GPS_EVENT_RESET` is when the engine is
started, puts requests for resets in the socket only. -/
theorem foldl_send_passReset (status : MnldGpsStatus) : ∃ requests : List Main2Gps,
    (∀ r ∈ requests, r.isReset) ∧ status.passReset.2.foldl send s =
      { s with requests := s.requests ++ requests, resets := s.resets + requests.length } := by
  rw [MnldGpsStatus.passReset_snd]
  split
  · refine ⟨[.DELETE_AIDING_DATA status.delete_aiding_flag s.resets], ?_, rfl⟩
    simp [Main2Gps.isReset]
  · exact ⟨[], by simp, by simp⟩

theorem foldl_send_started (status : MnldGpsStatus) (si_assist_req : Bool) :
    (status.do_gps_started_hdlr si_assist_req).2.foldl send s =
      status.passReset.2.foldl send s := by
  obtain ⟨messages, heq, hclient⟩ := status.started_messages si_assist_req
  rw [heq, List.foldl_append, foldl_send_of_toClient hclient]

/-! ### What holds in a run -/

/-- The engine is asked for what it is not doing: to start when it is stopped and nothing is under
way, and to stop when it runs and nothing but resets is under way. -/
def AskedRight (s : MnldSystem) : Message → Prop
  | .gps_control_gps_start _ => s.engineOn = false ∧ s.requests = []
  | .gps_control_gps_stop => s.engineOn = true ∧ ∀ r ∈ s.requests, r.isReset
  | _ => True

theorem askedRight_of_plain {m : Message} (h : m.plain) : s.AskedRight m := by
  cases m <;> trivial

def wakelocks (s : MnldSystem) : ℕ := if s.gps_status.gps_state = .IDLE then 0 else 1

/-- **Coherence** of a state, and of the messages up to it. -/
structure Coherent (s : MnldSystem) (os : List Message) : Prop where
  linked : Linked s.gps_status.gps_state s.requests s.engineOn s.events
  idle : s.gps_status.gps_state = .IDLE → s.gps_status.is_all_gps_client_exit = true
  started : s.gps_status.gps_state = .STARTED → s.gps_status.is_all_gps_client_exit = false
  timer_start : s.gps_status.timer_start = true → s.gps_status.gps_state = .STARTING
  timer_stop : s.gps_status.timer_stop = true → s.gps_status.gps_state = .STOPPING
  wakelock : os.count .mnl2hal_request_wakelock =
    os.count .mnl2hal_release_wakelock + s.wakelocks

/-- What is coherent when an event is handed to the state machine: of the users only what the event
does not settle. -/
structure Before (s : MnldSystem) (event : MnldGpsEvent) (os : List Message) : Prop where
  linked : Linked s.gps_status.gps_state s.requests s.engineOn s.events
  idle : s.gps_status.gps_state = .IDLE → event ≠ .START →
    s.gps_status.is_all_gps_client_exit = true
  started : s.gps_status.gps_state = .STARTED → event ≠ .STOP →
    s.gps_status.is_all_gps_client_exit = false
  ready : ∀ si_assist_req, event = .START_DONE si_assist_req →
    s.gps_status.gps_state = .STARTING → s.requests = [] ∧ s.engineOn = true
  not_stopped : event ≠ .STOP_DONE
  timer_start : s.gps_status.timer_start = true → s.gps_status.gps_state = .STARTING
  timer_stop : s.gps_status.timer_stop = true → s.gps_status.gps_state = .STOPPING
  wakelock : os.count .mnl2hal_request_wakelock =
    os.count .mnl2hal_release_wakelock + s.wakelocks

theorem Before.timer_stop_off {event : MnldGpsEvent} (h : s.Before event os)
    (hstate : s.gps_status.gps_state ≠ .STOPPING) : s.gps_status.timer_stop ≠ true :=
  fun htimer => hstate (h.timer_stop htimer)

theorem Before.timer_start_off {event : MnldGpsEvent} (h : s.Before event os)
    (hstate : s.gps_status.gps_state ≠ .STARTING) : s.gps_status.timer_start ≠ true :=
  fun htimer => hstate (h.timer_start htimer)

theorem askedRight_append {messages : List Message} {m : Message}
    (hplain : ∀ m ∈ messages, m.plain) (h : s.AskedRight m) :
    ∀ m' ∈ messages ++ [m], s.AskedRight m' :=
  List.forall_mem_append.mpr
    ⟨fun m' hm' => askedRight_of_plain (hplain m' hm'), List.forall_mem_singleton.mpr h⟩

theorem wakelock_append {n : ℕ} {messages : List Message} (h : ∀ m ∈ messages, m.plain)
    (hos : os.count .mnl2hal_request_wakelock = os.count .mnl2hal_release_wakelock + n) :
    (os ++ messages).count .mnl2hal_request_wakelock =
      (os ++ messages).count .mnl2hal_release_wakelock + n := by
  obtain ⟨hrequest, hrelease⟩ := count_of_plain h
  rw [List.count_append, List.count_append, hrequest, hrelease]
  exact hos

theorem wakelock_release
    (hos : os.count .mnl2hal_request_wakelock = os.count .mnl2hal_release_wakelock + 1) :
    (os ++ [Message.mnl2hal_release_wakelock]).count .mnl2hal_request_wakelock =
      (os ++ [Message.mnl2hal_release_wakelock]).count .mnl2hal_release_wakelock := by
  rw [List.count_append, List.count_append, hos]
  simp

open MnldGpsStatus in
/-- **The step lemma of the state machine**: it leaves a coherent state, and asks the engine for
nothing that it is doing. -/
theorem Before.moved {event : MnldGpsEvent} {r : MnldGpsStatus × List Message}
    (h : s.Before event os) (hmoved : Moved s.gps_status event r) :
    (s.answer r).1.Coherent (os ++ r.2) ∧ ∀ m ∈ r.2, s.AskedRight m := by
  have hheld := h.wakelock
  cases hmoved with
  | ignored hignores =>
    refine ⟨⟨h.linked, fun hstate => h.idle hstate ?_, fun hstate => h.started hstate ?_,
      h.timer_start, h.timer_stop, by simpa [answer] using hheld⟩, by simp⟩
    · rintro rfl
      simp only [answer, List.foldl_nil] at hstate
      simp only [hstate, ignores] at hignores
    · rintro rfl
      simp only [answer, List.foldl_nil] at hstate
      simp only [hstate, ignores] at hignores
  | first hstate =>
    obtain ⟨hrequests, hon, hevents⟩ := (hstate ▸ h.linked).of_idle
    have hstop := h.timer_stop_off (by rw [hstate]; decide)
    simp only [wakelocks, hstate, if_true] at hheld
    refine ⟨⟨?_, by simp [answer, askStart], by simp [answer, askStart],
      fun _ => rfl, fun htimer => absurd htimer hstop, ?_⟩, ?_⟩
    · simp only [answer, askStart, List.foldl_cons, List.foldl_nil, send_request_wakelock,
        send_start, hrequests, hon, List.nil_append]
      exact .asked hevents
    · simp [answer, askStart, wakelocks, List.count_append, hheld]
    · exact List.forall_mem_cons.mpr ⟨trivial, List.forall_mem_singleton.mpr ⟨hon, hrequests⟩⟩
  | stop hstate =>
    have hall : (s.answer s.gps_status.do_gps_stopped_hdlr).1 =
        { s with gps_status := s.gps_status.do_gps_stopped_hdlr.1 } :=
      foldl_send_of_toClient toClient_stopped
    rw [hall]
    simp only [do_gps_stopped_hdlr_fst]
    refine ⟨⟨h.linked, fun hidle => h.idle hidle (by simp), fun hstarted => ?_, h.timer_start,
      h.timer_stop, wakelock_append plain_stopped hheld⟩,
      fun m hm => askedRight_of_plain (plain_stopped m hm)⟩
    rcases hstate with hidle | ⟨-, hused⟩
    · rw [hidle] at hstarted
      cases hstarted
    · exact hused
  | reset hstate =>
    have hplain : ∀ m ∈ s.gps_status.do_gps_reset_hdlr.2, m.plain :=
      fun m hm => Message.plain_of_toClient (toClient_reset m hm)
    have hall : (s.answer s.gps_status.do_gps_reset_hdlr).1 =
        { s with gps_status := s.gps_status.do_gps_reset_hdlr.1 } :=
      foldl_send_of_toClient toClient_reset
    rw [hall]
    simp only [do_gps_reset_hdlr_fst]
    exact ⟨⟨h.linked, fun hidle => h.idle hidle (by simp),
      fun hstarted => h.started hstarted (by simp), h.timer_start, h.timer_stop,
      wakelock_append hplain hheld⟩, fun m hm => askedRight_of_plain (hplain m hm)⟩
  | @ready si_assist_req started hstate hstarted hused =>
    obtain ⟨hrequests, hon⟩ := h.ready _ rfl hstate
    have hstarting := (hon ▸ hstate ▸ h.linked).of_starting
    have hstop := h.timer_stop_off (by rw [hstate]; decide)
    simp only [wakelocks, hstate] at hheld
    subst hstarted
    obtain ⟨requests, hresets, hsend⟩ := foldl_send_passReset
      (s := { s with gps_status := { ({ s.gps_status with timer_start := false
        }.do_gps_started_hdlr si_assist_req).1 with gps_state := .STARTED } })
      { s.gps_status with timer_start := false }
    rw [answer, foldl_send_started, hsend]
    simp only [do_gps_started_hdlr_fst]
    refine ⟨⟨?_, by simp, fun _ => hused, by simp, fun htimer => absurd htimer hstop,
      wakelock_append (plain_started _) (by simpa [wakelocks] using hheld)⟩,
      fun m hm => askedRight_of_plain (plain_started _ m hm)⟩
    simp only [hrequests, hon, List.nil_append]
    exact .started hresets fun e he => Gps2Main.running_of_starting (hstarting e he)
  | @unused si_assist_req started hstate hstarted hexit =>
    obtain ⟨hrequests, hon⟩ := h.ready _ rfl hstate
    have hstarting := (hon ▸ hstate ▸ h.linked).of_starting
    simp only [wakelocks, hstate] at hheld
    subst hstarted
    obtain ⟨requests, hresets, hsend⟩ := foldl_send_passReset
      (s := { s with gps_status := (({ s.gps_status with timer_start := false
        }.do_gps_started_hdlr si_assist_req).1.askStop).1 })
      { s.gps_status with timer_start := false }
    rw [answer, List.foldl_append, foldl_send_started, hsend]
    simp only [do_gps_started_hdlr_fst, askStop, List.foldl_cons, List.foldl_nil, send_stop]
    refine ⟨⟨?_, by simp, by simp, by simp, fun _ => rfl, ?_⟩, ?_⟩
    · simp only [hrequests, hon, List.nil_append]
      exact .stopping hresets fun e he => Gps2Main.running_of_starting (hstarting e he)
    · rw [← List.append_assoc]
      simpa [wakelocks, List.count_append] using
        wakelock_append (plain_started (s := { s.gps_status with timer_start := false })
          si_assist_req) hheld
    · exact askedRight_append (plain_started _) ⟨hon, by simp [hrequests]⟩
  | start hstate =>
    obtain ⟨hon, hrequests, hevents⟩ := (hstate ▸ h.linked).of_started
    obtain ⟨requests, hresets, hsend⟩ := foldl_send_passReset
      (s := { s with gps_status := (s.gps_status.do_gps_started_hdlr false).1 }) s.gps_status
    rw [answer, foldl_send_started, hsend]
    simp only [do_gps_started_hdlr_fst]
    refine ⟨⟨?_, fun hidle => h.idle hidle ?_, fun hstarted => h.started hstarted (by simp),
      h.timer_start, h.timer_stop, wakelock_append (plain_started _) hheld⟩,
      fun m hm => askedRight_of_plain (plain_started _ m hm)⟩
    · simp only [hstate, hon]
      exact .started (List.forall_mem_append.mpr ⟨hrequests, hresets⟩) hevents
    · simp only [hstate] at hidle
      cases hidle
  | last hstate hexit =>
    obtain ⟨hon, hrequests, hevents⟩ := (hstate ▸ h.linked).of_started
    have hstart := h.timer_start_off (by rw [hstate]; decide)
    simp only [wakelocks, hstate] at hheld
    simp only [answer, askStop, List.foldl_cons, List.foldl_nil, send_stop]
    refine ⟨⟨?_, by simp, by simp, fun htimer => absurd htimer hstart, fun _ => rfl, ?_⟩, ?_⟩
    · simp only [hon]
      exact .stopping hrequests hevents
    · simpa [wakelocks, List.count_append] using hheld
    · intro m hm
      rw [List.mem_singleton.mp hm]
      exact ⟨hon, hrequests⟩
  | pass hstate =>
    obtain ⟨hon, hrequests, hevents⟩ := (hstate ▸ h.linked).of_started
    obtain ⟨requests, hresets, hsend⟩ := foldl_send_passReset
      (s := { s with gps_status := s.gps_status.passReset.1 }) s.gps_status
    rw [answer, hsend]
    simp only [passReset_fst]
    refine ⟨⟨?_, fun hidle => h.idle hidle (by simp),
      fun hstarted => h.started hstarted (by simp), h.timer_start, h.timer_stop,
      wakelock_append plain_passReset hheld⟩,
      fun m hm => askedRight_of_plain (plain_passReset m hm)⟩
    simp only [hstate, hon]
    exact .started (List.forall_mem_append.mpr ⟨hrequests, hresets⟩) hevents
  | @again si_assist_req messages hstate hmessages =>
    have hclient : ∀ m ∈ messages, m.toClient := by
      rcases hmessages with rfl | rfl <;> exact List.all_eq_true.mp rfl
    have hplain : ∀ m ∈ messages, m.plain :=
      fun m hm => Message.plain_of_toClient (hclient m hm)
    rw [answer, foldl_send_of_toClient hclient]
    exact ⟨⟨h.linked, fun hidle => h.idle hidle (by simp),
      fun hstarted => h.started hstarted (by simp), h.timer_start, h.timer_stop,
      wakelock_append hplain hheld⟩, fun m hm => askedRight_of_plain (hplain m hm)⟩
  | restart => exact absurd rfl h.not_stopped
  | idle => exact absurd rfl h.not_stopped

open MnldGpsStatus in
theorem moved_of_stop_done {r : MnldGpsStatus × List Message}
    (hstate : s.gps_status.gps_state = .STOPPING) (hrequests : s.requests = [])
    (hon : s.engineOn = false) (hevents : ∀ e ∈ s.events, e = .NMEA_TIMEOUT)
    (htimer : s.gps_status.timer_start ≠ true)
    (hheld : os.count .mnl2hal_request_wakelock = os.count .mnl2hal_release_wakelock + 1)
    (hmoved : Moved s.gps_status .STOP_DONE r) :
    (s.answer r).1.Coherent (os ++ r.2) ∧ ∀ m ∈ r.2, s.AskedRight m := by
  cases hmoved with
  | ignored hignores => simp only [hstate, ignores] at hignores
  | restart hstate hstopped hused =>
    subst hstopped
    rw [answer, List.foldl_append, foldl_send_of_toClient toClient_stopped]
    simp only [askStart, List.foldl_cons, List.foldl_nil, send_start, do_gps_stopped_hdlr_fst]
    refine ⟨⟨?_, by simp, by simp, fun _ => rfl, by simp, ?_⟩, ?_⟩
    · simp only [hrequests, hon, List.nil_append]
      exact .asked hevents
    · rw [← List.append_assoc]
      simpa [wakelocks, List.count_append] using wakelock_append
        (plain_stopped (s := { s.gps_status with timer_stop := false })) hheld
    · exact askedRight_append plain_stopped ⟨hon, hrequests⟩
  | idle hstate hstopped hexit =>
    subst hstopped
    rw [answer, List.foldl_append, foldl_send_of_toClient toClient_stopped]
    simp only [List.foldl_cons, List.foldl_nil, send_release_wakelock, do_gps_stopped_hdlr_fst]
    refine ⟨⟨?_, fun _ => hexit, by simp, fun h => absurd h htimer, by simp, ?_⟩, ?_⟩
    · simp only [hrequests, hon]
      exact .idle hevents
    · rw [← List.append_assoc]
      exact wakelock_release (wakelock_append
        (plain_stopped (s := { s.gps_status with timer_stop := false })) hheld)
    · exact askedRight_append plain_stopped trivial

theorem Coherent.around {r : MnldGpsStatus × List Message} (before after : List Message)
    (h : (s.answer r).1.Coherent (os ++ r.2)) (hbefore : ∀ m ∈ before, m.toClient)
    (hafter : ∀ m ∈ after, m.toClient) :
    (s.answer (r.1, before ++ r.2 ++ after)).1.Coherent (os ++ (before ++ r.2 ++ after)) := by
  have hall : (s.answer (r.1, before ++ r.2 ++ after)).1 = (s.answer r).1 := by
    simp only [answer, List.foldl_append, foldl_send_of_toClient hbefore,
      foldl_send_of_toClient hafter]
  rw [hall]
  obtain ⟨hbefore₁, hbefore₂⟩ :=
    count_of_plain fun m hm => Message.plain_of_toClient (hbefore m hm)
  obtain ⟨hafter₁, hafter₂⟩ := count_of_plain fun m hm => Message.plain_of_toClient (hafter m hm)
  refine ⟨h.linked, h.idle, h.started, h.timer_start, h.timer_stop, ?_⟩
  simpa [List.count_append, hbefore₁, hbefore₂, hafter₁, hafter₂] using h.wakelock

theorem Coherent.before_asked (h : s.Coherent os) (request : Request) :
    { s with gps_status := s.gps_status.asked request }.Before request.event os where
  linked := by simpa using h.linked
  idle := fun hidle hevent => MnldGpsStatus.exit_asked hevent (h.idle (by simpa using hidle))
  started := fun hstarted hevent =>
    MnldGpsStatus.used_asked hevent (h.started (by simpa using hstarted))
  ready := fun si_assist_req hevent => by cases request <;> cases hevent
  not_stopped := by cases request <;> simp [Request.event]
  timer_start := by simpa using h.timer_start
  timer_stop := by simpa using h.timer_stop
  wakelock := by simpa [wakelocks] using h.wakelock

theorem note_eq (s : MnldSystem) (request : Request) :
    ∃ n, s.note request = { s with agps_reset := n } := by
  cases request with
  | reset_gps flags =>
    rw [note]
    split
    · exact ⟨s.agps_reset, rfl⟩
    · exact ⟨s.resets, rfl⟩
  | _ => exact ⟨s.agps_reset, rfl⟩

open MnldGpsStatus in
theorem Coherent.resetDone (h : s.Coherent os) :
    (s.answer s.gps_status.resetDone).1.Coherent (os ++ s.gps_status.resetDone.2) ∧
      ∀ m ∈ s.gps_status.resetDone.2, s.AskedRight m := by
  have hclient : ∀ m ∈ s.gps_status.resetDone.2, m.toClient := toClient_reset
  have hplain : ∀ m ∈ s.gps_status.resetDone.2, m.plain :=
    fun m hm => Message.plain_of_toClient (hclient m hm)
  refine ⟨?_, fun m hm => askedRight_of_plain (hplain m hm)⟩
  have hall : (s.answer s.gps_status.resetDone).1 =
      { s with gps_status := s.gps_status.resetDone.1 } := foldl_send_of_toClient hclient
  rw [hall]
  have hstatus : s.gps_status.resetDone.1 = _ := do_gps_reset_hdlr_fst
  simp only [hstatus]
  exact ⟨h.linked, h.idle, h.started, h.timer_start, h.timer_stop,
    wakelock_append hplain h.wakelock⟩

theorem AskedRight.of_eq {t : MnldSystem} (hon : t.engineOn = s.engineOn)
    (hrequests : t.requests = s.requests) {m : Message} (h : t.AskedRight m) : s.AskedRight m := by
  cases m with
  | gps_control_gps_start _ | gps_control_gps_stop => exact ⟨hon ▸ h.1, hrequests ▸ h.2⟩
  | _ => trivial

open MnldGpsStatus in
theorem Coherent.handle {r : MnldGpsStatus × List Message} (h : s.Coherent os)
    (hhandle : request.handle s.gps_status = .ok r) :
    (s.answer r).1.Coherent (os ++ r.2) ∧ ∀ m ∈ r.2, s.AskedRight m := by
  cases handled_of_handle hhandle with
  | moved _ hmoved =>
    obtain ⟨hcoherent, hright⟩ := (h.before_asked request).moved hmoved
    exact ⟨hcoherent, hright⟩
  | @deleted flags r hmoved =>
    obtain ⟨hcoherent, hright⟩ :=
      (h.before_asked (.delete_aiding_data flags)).moved hmoved
    refine ⟨?_, List.forall_mem_cons.mpr ⟨trivial, hright⟩⟩
    have haround := hcoherent.around [.mnl2agps_delete_aiding_data flags] []
      (List.all_eq_true.mp rfl) (by simp)
    rw [List.append_nil] at haround
    exact haround
  | nothing =>
    have hall : (s.answer (s.gps_status, [.mnl2agps_reset_gps_done])).1 = s := rfl
    rw [hall]
    exact ⟨⟨h.linked, h.idle, h.started, h.timer_start, h.timer_stop,
      wakelock_append (List.all_eq_true.mp rfl) h.wakelock⟩,
      List.forall_mem_singleton.mpr trivial⟩

theorem Coherent.nmeaTimeout {r : MnldGpsStatus × List Message} (h : s.Coherent os)
    (hhandle : s.gps_status.nmeaTimeout = .ok r) :
    (s.answer r).1.Coherent (os ++ r.2) ∧ ∀ m ∈ r.2, s.AskedRight m := by
  rw [MnldGpsStatus.nmeaTimeout] at hhandle
  split at hhandle
  · rename_i hstate
    obtain ⟨r', hfsm, rfl⟩ := map_eq_ok_iff.mp hhandle
    have hbefore :
        { s with gps_status := s.gps_status.mtk_gps_clear_gps_user }.Before .STOP os := by
      refine ⟨h.linked, fun hidle => ?_, by simp, by simp, by simp, h.timer_start, h.timer_stop,
        h.wakelock⟩
      simp only [MnldGpsStatus.mtk_gps_clear_gps_user, hstate] at hidle
      cases hidle
    obtain ⟨hcoherent, hright⟩ := hbefore.moved (MnldGpsStatus.moved_of_fsm hfsm)
    have htold : ∀ m ∈ [Message.mnl2hal_mnld_reboot, .mnl2agps_mnl_reboot, .mnl2flp_mnld_reboot],
        m.toClient := List.all_eq_true.mp rfl
    have haround := hcoherent.around [] _ (by simp) htold
    rw [List.nil_append] at haround
    refine ⟨haround, List.forall_mem_append.mpr ⟨hright, fun m hm => ?_⟩⟩
    exact askedRight_of_plain (Message.plain_of_toClient (htold m hm))
  · cases hhandle
    exact ⟨by simpa [answer] using h, by simp⟩

theorem Coherent.mainEvent {event : Gps2Main} {events : List Gps2Main}
    {r : MnldGpsStatus × List Message} (h : s.Coherent os) (hevents : s.events = event :: events)
    (hhandle : s.gps_status.mainEvent event = .ok r) :
    ({ s with events }.answer r).1.Coherent (os ++ r.2) ∧ ∀ m ∈ r.2, s.AskedRight m := by
  have hlinked := h.linked
  rw [hevents] at hlinked
  cases event with
  | START_DONE si_assist_req =>
    have hbefore : { s with events }.Before (.START_DONE si_assist_req) os :=
      ⟨hlinked.tail (by simp), fun hidle _ => h.idle hidle, fun hstarted _ => h.started hstarted,
        fun _ _ hstate => (hstate ▸ hlinked).of_start_done, by simp, h.timer_start, h.timer_stop,
        h.wakelock⟩
    obtain ⟨hcoherent, hright⟩ := hbefore.moved (MnldGpsStatus.moved_of_fsm hhandle)
    exact ⟨hcoherent, fun m hm => (hright m hm).of_eq rfl rfl⟩
  | STOP_DONE =>
    obtain ⟨hstate, hrequests, hon, hquiet⟩ := hlinked.of_stop_done
    have htimer : s.gps_status.timer_start ≠ true := fun htimer => by
      have := h.timer_start htimer
      rw [hstate] at this
      cases this
    have hheld := h.wakelock
    simp only [wakelocks, hstate] at hheld
    obtain ⟨hcoherent, hright⟩ := moved_of_stop_done (s := { s with events }) hstate hrequests hon
      hquiet htimer hheld (MnldGpsStatus.moved_of_fsm hhandle)
    exact ⟨hcoherent, fun m hm => (hright m hm).of_eq rfl rfl⟩
  | RESET_DONE serial =>
    cases hhandle
    have hcoherent : { s with events }.Coherent os :=
      ⟨hlinked.tail (by simp), h.idle, h.started, h.timer_start, h.timer_stop, h.wakelock⟩
    exact ⟨hcoherent.resetDone.1, fun m hm => (hcoherent.resetDone.2 m hm).of_eq rfl rfl⟩
  | NMEA_TIMEOUT =>
    have hcoherent : { s with events }.Coherent os :=
      ⟨hlinked.tail (by simp), h.idle, h.started, h.timer_start, h.timer_stop, h.wakelock⟩
    obtain ⟨hcoherent', hright⟩ := hcoherent.nmeaTimeout hhandle
    exact ⟨hcoherent', fun m hm => (hright m hm).of_eq rfl rfl⟩

theorem Linked.control {request : Main2Gps} {requests : List Main2Gps}
    (h : Linked s.gps_status.gps_state s.requests s.engineOn s.events)
    (hrequests : s.requests = request :: requests) :
    Linked s.gps_status.gps_state ({ s with requests }.control request).requests
      ({ s with requests }.control request).engineOn
      ({ s with requests }.control request).events := by
  generalize s.gps_status.gps_state = state at h ⊢
  generalize hall : s.requests = all at h
  generalize s.engineOn = on at h ⊢
  generalize s.events = events at h ⊢
  rw [hrequests] at hall
  cases h with
  | idle hevents => cases hall
  | asked hevents =>
    cases hall
    refine .starting fun e he => ?_
    rw [hevents e he]
    trivial
  | starting hevents => cases hall
  | started hresets hevents =>
    subst hall
    obtain ⟨hreset, hrest⟩ := List.forall_mem_cons.mp hresets
    cases request with
    | DELETE_AIDING_DATA flags serial =>
      exact .started hrest
        (List.forall_mem_append.mpr ⟨hevents, by simp [Gps2Main.running]⟩)
    | START _ | STOP => cases hreset
  | @stopping resets events hresets hevents =>
    cases resets with
    | nil =>
      cases hall
      exact .stopped hevents (by simp)
    | cons reset resets =>
      obtain ⟨hreset, hrest⟩ := List.forall_mem_cons.mp hresets
      obtain ⟨rfl, rfl⟩ := List.cons.inj hall
      cases request with
      | DELETE_AIDING_DATA flags serial =>
        exact .stopping hrest
          (List.forall_mem_append.mpr ⟨hevents, by simp [Gps2Main.running]⟩)
      | START _ | STOP => cases hreset
  | stopped hbefore hafter => cases hall

/-- **The step lemma.** -/
theorem Coherent.step (h : s.Coherent os) (hstep : mnld s op = .ok (s', o)) :
    s'.Coherent (os ++ o) ∧ ∀ m ∈ o, s.AskedRight m := by
  cases op with
  | request request =>
    obtain ⟨r, hhandle, heq⟩ := map_eq_ok_iff.mp hstep
    cases heq
    obtain ⟨n, hn⟩ := note_eq s request
    have hnoted : (s.note request).Coherent os := by
      rw [hn]
      exact ⟨h.linked, h.idle, h.started, h.timer_start, h.timer_stop, h.wakelock⟩
    have hstatus : (s.note request).gps_status = s.gps_status := by rw [hn]
    obtain ⟨hcoherent, hright⟩ := hnoted.handle (by rw [hstatus]; exact hhandle)
    exact ⟨hcoherent, fun m hm => (hright m hm).of_eq (by rw [hn]) (by rw [hn])⟩
  | offload enabled =>
    cases hstep
    exact ⟨by simpa using ⟨h.linked, h.idle, h.started, h.timer_start, h.timer_stop, h.wakelock⟩,
      by simp⟩
  | main_event_hdlr =>
    rw [mnld] at hstep
    split at hstep
    · cases hstep
    · rename_i event events hevents
      obtain ⟨r, hhandle, heq⟩ := map_eq_ok_iff.mp hstep
      cases heq
      exact h.mainEvent hevents hhandle
  | gps_control_event_hdlr =>
    rw [mnld] at hstep
    split at hstep
    · cases hstep
    · rename_i request requests hrequests
      cases hstep
      have hstatus : ({ s with requests }.control request).gps_status = s.gps_status := by
        cases request <;> rfl
      refine ⟨⟨?_, ?_, ?_, ?_, ?_, ?_⟩, by simp⟩
      · rw [hstatus]
        exact Linked.control h.linked hrequests
      · rw [hstatus]
        exact h.idle
      · rw [hstatus]
        exact h.started
      · rw [hstatus]
        exact h.timer_start
      · rw [hstatus]
        exact h.timer_stop
      · rw [wakelocks, hstatus, List.append_nil]
        exact h.wakelock
  | ready si_assist_req =>
    rw [mnld] at hstep
    split at hstep
    · rename_i hon
      cases hstep
      have hlinked := h.linked
      rw [hon] at hlinked
      refine ⟨⟨?_, h.idle, h.started, h.timer_start, h.timer_stop, ?_⟩, by simp⟩
      · simp only [hon]
        exact hlinked.snoc_ready
      · rw [List.append_nil]
        exact h.wakelock
    · cases hstep
  | nmeaTimeout =>
    cases hstep
    refine ⟨⟨h.linked.snoc_nmea, h.idle, h.started, h.timer_start, h.timer_stop, ?_⟩, by simp⟩
    rw [List.append_nil]
    exact h.wakelock
  | expire timer =>
    rw [mnld] at hstep
    split at hstep <;> cases hstep

theorem coherent_of_runs (hrun : mnld.Runs {} ops s os) : s.Coherent os := by
  refine hrun.invariant (I := fun _ s os => s.Coherent os) ?_ ?_
  · exact ⟨.idle (by simp), fun _ => rfl, by simp, by simp, by simp, rfl⟩
  · intro ops s os op s' o hcoherent hstep
    exact (hcoherent.step hstep).1

theorem Coherent.not_crashed (h : s.Coherent os) : mnld s op ≠ .error .crashed := by
  intro hstep
  cases op with
  | request request =>
    cases hhandle : request.handle s.gps_status with
    | ok r => simp only [mnld, hhandle, Except.map] at hstep; cases hstep
    | error fault =>
      rw [MnldGpsStatus.handle_error hhandle] at hhandle
      simp only [mnld, hhandle, Except.map] at hstep
      cases hstep
  | offload _ => cases hstep
  | main_event_hdlr =>
    rw [mnld] at hstep
    split at hstep
    · cases hstep
    · rename_i event events hevents
      have hlinked := h.linked
      rw [hevents] at hlinked
      cases hhandle : s.gps_status.mainEvent event with
      | ok r => rw [hhandle] at hstep; cases hstep
      | error fault =>
        cases event with
        | START_DONE _ => cases (MnldGpsStatus.fsm_error hhandle).1
        | STOP_DONE =>
          have hstate := hlinked.of_stop_done.1
          rcases (MnldGpsStatus.fsm_error hhandle).2 with h | h <;> rw [hstate] at h <;>
            cases h
        | RESET_DONE _ => cases hhandle
        | NMEA_TIMEOUT =>
          simp only [MnldGpsStatus.mainEvent, MnldGpsStatus.nmeaTimeout] at hhandle
          split at hhandle
          · cases hfsm : s.gps_status.mtk_gps_clear_gps_user.mnld_fsm .STOP with
            | ok r => rw [hfsm] at hhandle; cases hhandle
            | error fault => cases (MnldGpsStatus.fsm_error hfsm).1
          · cases hhandle
  | gps_control_event_hdlr => rw [mnld] at hstep; split at hstep <;> cases hstep
  | ready _ => rw [mnld] at hstep; split at hstep <;> cases hstep
  | nmeaTimeout => cases hstep
  | expire _ => rw [mnld] at hstep; split at hstep <;> cases hstep

end MnldSystem

end MtkHardware.Mnld
