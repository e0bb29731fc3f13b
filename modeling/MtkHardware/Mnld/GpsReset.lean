import MtkHardware.Mnld.GpsEngine

/-!
# Resets

A client asks for a reset by flags that say which aiding data is to be deleted. The flags are
collected in `delete_aiding_flag` until the engine is asked for the reset or to start, and no flag
is lost there. The AGPS client is told when its reset has been done: by `do_gps_reset_hdlr`, which
is called when the engine confirms a reset, but for a client that starts or stops to use the engine,
too, and when the engine has become ready, just before it is asked for the reset.
-/

namespace MtkHardware.Mnld

def Request.flags : Request → UInt32
  | .delete_aiding_data flags | .reset_gps flags => flags
  | _ => 0

def MnldOp.flags : MnldOp → UInt32
  | .request r => r.flags
  | _ => 0

def passes (messages : List Message) : List UInt32 :=
  messages.filterMap fun
    | .gps_control_gps_start flags | .gps_control_gps_reset flags => some flags
    | _ => none

/-- All flags that the engine is asked for in messages. -/
def passed (messages : List Message) : UInt32 := (passes messages).foldr (· ||| ·) 0

def Covered (flags all : UInt32) : Prop := flags ||| all = all

theorem passes_append (ms ms' : List Message) : passes (ms ++ ms') = passes ms ++ passes ms' :=
  List.filterMap_append

theorem passes_of_toClient {messages : List Message} (h : ∀ m ∈ messages, m.toClient) :
    passes messages = [] := by
  rw [passes, List.filterMap_eq_nil_iff]
  intro m hm
  have hclient := h m hm
  cases m <;> first | rfl | cases hclient

theorem passed_append (ms ms' : List Message) : passed (ms ++ ms') = passed ms ||| passed ms' := by
  rw [passed, passes_append, passed, passed]
  induction passes ms with
  | nil => simp
  | cons flags all ih =>
    rw [List.cons_append, List.foldr_cons, ih, List.foldr_cons, UInt32.or_assoc]

namespace Covered

variable {flags flags' all all' : UInt32}

theorem trans (h : Covered flags flags') (h' : Covered flags' all) : Covered flags all := by
  rw [Covered] at h h' ⊢
  rw [← h', ← UInt32.or_assoc, h]

theorem or_right (h : Covered flags all) (more : UInt32) : Covered flags (all ||| more) := by
  rw [Covered] at h ⊢
  rw [← UInt32.or_assoc, h]

theorem or_left (h : Covered flags all) (more : UInt32) : Covered flags (more ||| all) := by
  rw [UInt32.or_comm]
  exact h.or_right more

theorem or (h : Covered flags all) (h' : Covered flags' all) : Covered (flags ||| flags') all := by
  rw [Covered] at h h' ⊢
  rw [UInt32.or_assoc, h', h]

theorem refl (flags : UInt32) : Covered flags flags := UInt32.or_self

end Covered

namespace MnldGpsStatus

variable {s : MnldGpsStatus} {event : MnldGpsEvent} {request : Request}
  {r : MnldGpsStatus × List Message}

/-! ### Flags -/

/-- The flags that are collected are kept, or all of them are passed on. -/
def KeptOrPassed (flags : UInt32) (r : MnldGpsStatus × List Message) : Prop :=
  (r.1.delete_aiding_flag = flags ∧ passes r.2 = []) ∨
    (r.1.delete_aiding_flag = 0 ∧ passes r.2 = [flags])

theorem keptOrPassed_of_toClient {flags : UInt32} (hflag : r.1.delete_aiding_flag = flags)
    (h : ∀ m ∈ r.2, m.toClient) : KeptOrPassed flags r :=
  .inl ⟨hflag, passes_of_toClient h⟩

theorem KeptOrPassed.of_passes {flags : UInt32} {r' : MnldGpsStatus × List Message}
    (h : KeptOrPassed flags r) (hflag : r'.1.delete_aiding_flag = r.1.delete_aiding_flag)
    (hmessages : passes r'.2 = passes r.2) : KeptOrPassed flags r' := by
  rw [KeptOrPassed, hflag, hmessages]
  exact h

theorem keptOrPassed_passReset : KeptOrPassed s.delete_aiding_flag s.passReset := by
  rw [KeptOrPassed, passReset_fst, passReset_snd]
  by_cases hflag : s.delete_aiding_flag = 0
  · rw [if_neg (not_not_intro hflag)]
    exact .inl ⟨hflag.symm, rfl⟩
  · rw [if_pos hflag]
    exact .inr ⟨rfl, rfl⟩

theorem keptOrPassed_started (si_assist_req : Bool) :
    KeptOrPassed s.delete_aiding_flag (s.do_gps_started_hdlr si_assist_req) := by
  obtain ⟨messages, heq, hclient⟩ := s.started_messages si_assist_req
  refine (keptOrPassed_passReset (s := s)).of_passes ?_ ?_
  · rw [passReset_fst, do_gps_started_hdlr_fst]
  · rw [heq, passes_append, passes_of_toClient hclient, List.nil_append]

theorem keptOrPassed_moved (hmoved : Moved s event r) : KeptOrPassed s.delete_aiding_flag r := by
  cases hmoved with
  | ignored _ => exact .inl ⟨rfl, rfl⟩
  | first _ => exact .inr ⟨rfl, rfl⟩
  | stop _ =>
    exact keptOrPassed_of_toClient (by rw [do_gps_stopped_hdlr_fst]) toClient_stopped
  | reset _ => exact keptOrPassed_of_toClient (by rw [do_gps_reset_hdlr_fst]) toClient_reset
  | @ready si_assist_req _ _ hstarted _ =>
    subst hstarted
    exact (keptOrPassed_started (s := { s with timer_start := false }) si_assist_req).of_passes
      rfl rfl
  | @unused si_assist_req _ _ hstarted _ =>
    subst hstarted
    refine (keptOrPassed_started (s := { s with timer_start := false }) si_assist_req).of_passes
      rfl ?_
    rw [passes_append]
    exact List.append_nil _
  | start _ => exact keptOrPassed_started false
  | last _ _ => exact .inl ⟨rfl, rfl⟩
  | pass _ => exact keptOrPassed_passReset
  | again _ hmessages =>
    refine .inl ⟨rfl, ?_⟩
    rcases hmessages with rfl | rfl <;> rfl
  | restart _ hstopped _ =>
    subst hstopped
    refine .inr ⟨rfl, ?_⟩
    rw [passes_append, passes_of_toClient toClient_stopped, do_gps_stopped_hdlr_fst]
    rfl
  | idle _ hstopped _ =>
    subst hstopped
    refine .inl ⟨?_, ?_⟩
    · rw [do_gps_stopped_hdlr_fst]
    · rw [passes_append, passes_of_toClient toClient_stopped]
      rfl

theorem asked_delete_aiding_flag :
    (s.asked request).delete_aiding_flag = s.delete_aiding_flag ||| request.flags := by
  cases request with
  | reboot _ | start _ | stop _ => exact UInt32.or_zero.symm
  | delete_aiding_data flags => rfl
  | reset_gps flags =>
    simp only [asked, Request.flags]
    split
    · rename_i hflags
      rw [hflags, UInt32.or_zero]
    · rfl

theorem KeptOrPassed.covered {flags : UInt32} (h : KeptOrPassed flags r) :
    Covered flags (r.1.delete_aiding_flag ||| passed r.2) := by
  rcases h with ⟨hflag, -⟩ | ⟨-, hpasses⟩
  · rw [hflag]
    exact (Covered.refl flags).or_right _
  · refine Covered.or_left ?_ _
    rw [passed, hpasses]
    exact (Covered.refl flags).or_right _

end MnldGpsStatus

namespace MnldGpsStatus

variable {s : MnldGpsStatus} {event : MnldGpsEvent} {request : Request}
  {r : MnldGpsStatus × List Message}

/-! ### Answers -/

def mnld_is_gps_stopped (s : MnldGpsStatus) : Bool :=
  s.gps_state == .IDLE || s.gps_state == .STOPPING

def waits (s : MnldGpsStatus) : Prop := (s.clients .agps).need_reset_ack = true

def Tells (messages : List Message) : Prop := .mnl2agps_reset_gps_done ∈ messages

theorem tells_reset_iff : Tells s.do_gps_reset_hdlr.2 ↔ s.waits := by
  rw [Tells, do_gps_reset_hdlr_snd, waits]
  split <;> simp [*]

theorem not_tells_opened (si_assist_req : Bool) (c : Client) :
    ¬ Tells (c.opened si_assist_req) := by
  cases c <;> simp [Tells, Client.opened]

theorem not_tells_closed (c : Client) : ¬ Tells c.closed := by
  cases c <;> simp [Tells, Client.closed]

theorem tells_stopped_iff : Tells s.do_gps_stopped_hdlr.2 ↔ s.waits := by
  rw [← tells_reset_iff, do_gps_stopped_hdlr_snd, Tells, Tells, List.mem_append, List.mem_flatMap]
  refine or_iff_right ?_
  rintro ⟨c, -, hc⟩
  split at hc
  · exact not_tells_closed c hc
  · cases hc

theorem tells_started_iff (si_assist_req : Bool) :
    Tells (s.do_gps_started_hdlr si_assist_req).2 ↔ s.waits := by
  rw [← tells_reset_iff, do_gps_started_hdlr_snd, Tells, Tells, List.mem_append, List.mem_append,
    List.mem_flatMap, passReset_snd]
  constructor
  · rintro ((⟨c, -, hc⟩ | hreset) | hpass)
    · split at hc
      · exact absurd hc (not_tells_opened si_assist_req c)
      · cases hc
    · exact hreset
    · split at hpass <;> simp at hpass
  · exact fun hreset => .inl (.inr hreset)

/-- The state machine tells the AGPS client that its reset has been done while the engine is
starting or has started, although the engine has not confirmed it. -/
def TellsEarly (s : MnldGpsStatus) : MnldGpsEvent → Prop
  | .START => s.gps_state = .STARTED ∧ s.waits
  | .STOP => s.gps_state = .STARTED ∧ s.waits ∧ ∃ c, (s.clients c).gps_used = true
  | .START_DONE _ => s.gps_state = .STARTING ∧ s.waits
  | .RESET | .STOP_DONE => False

theorem tells_moved_iff (hmoved : Moved s event r) :
    Tells r.2 ∧ s.mnld_is_gps_stopped = false ↔ s.TellsEarly event := by
  cases hmoved with
  | ignored hignores =>
    refine iff_of_false (fun ⟨h, _⟩ => by cases h) fun h => ?_
    cases event with
    | START | STOP => rw [h.1] at hignores; exact hignores
    | START_DONE _ => rw [h.1] at hignores; exact hignores
    | RESET | STOP_DONE => exact h
  | first hstate =>
    exact iff_of_false (by simp [mnld_is_gps_stopped, hstate]) (by simp [TellsEarly, hstate])
  | stop hstate =>
    rw [tells_stopped_iff]
    rcases hstate with hidle | ⟨hstarted, hused⟩
    · exact iff_of_false (by simp [mnld_is_gps_stopped, hidle]) (by simp [TellsEarly, hidle])
    · rw [Bool.eq_false_iff, Ne, is_all_gps_client_exit_iff] at hused
      push Not at hused
      obtain ⟨c, hc⟩ := hused
      have hsome : ∃ c, (s.clients c).gps_used = true := ⟨c, by simpa using hc⟩
      simp [TellsEarly, mnld_is_gps_stopped, hstarted, hsome]
  | reset hstate =>
    rcases hstate with hstate | hstate <;>
      exact iff_of_false (by simp [mnld_is_gps_stopped, hstate]) (by simp [TellsEarly])
  | ready hstate hstarted _ =>
    subst hstarted
    simp only [tells_started_iff, TellsEarly, mnld_is_gps_stopped, hstate]
    simp [waits]
  | @unused si_assist_req _ hstate hstarted _ =>
    subst hstarted
    have htells : Tells (({ s with timer_start := false }.do_gps_started_hdlr si_assist_req).2 ++
        [.gps_control_gps_stop]) ↔ s.waits := by
      rw [Tells, List.mem_append, or_iff_left (by simp)]
      exact tells_started_iff si_assist_req
    refine (and_iff_left (by simp [mnld_is_gps_stopped, hstate])).trans (htells.trans ?_)
    exact ⟨fun hwaits => ⟨hstate, hwaits⟩, And.right⟩
  | start hstate =>
    simp only [tells_started_iff, TellsEarly, mnld_is_gps_stopped, hstate]
    simp
  | last hstate hexit =>
    refine iff_of_false (by simp [Tells, askStop]) ?_
    rintro ⟨-, -, c, hc⟩
    rw [is_all_gps_client_exit_iff.mp hexit c] at hc
    cases hc
  | pass hstate =>
    refine iff_of_false ?_ (by simp [TellsEarly])
    rw [Tells, passReset_snd]
    split <;> simp
  | again hstate hmessages =>
    refine iff_of_false ?_ (by simp [TellsEarly, hstate])
    rcases hmessages with rfl | rfl <;> simp [Tells]
  | restart hstate _ _ =>
    exact iff_of_false (by simp [mnld_is_gps_stopped, hstate]) (by simp [TellsEarly])
  | idle hstate _ _ =>
    exact iff_of_false (by simp [mnld_is_gps_stopped, hstate]) (by simp [TellsEarly])

end MnldGpsStatus

namespace MnldSystem

variable {s s' s₁ : MnldSystem} {op : MnldOp} {ops : List MnldOp} {os o : List Message}

/-! ### Steps -/

/-- **The law**: the AGPS client is told that its reset has been done when the engine does not run,
or when it confirms the reset that passed on the flags of the client, or a later one. -/
def ToldRight (s : MnldSystem) (op : MnldOp) (o : List Message) : Prop :=
  .mnl2agps_reset_gps_done ∈ o → s.gps_status.mnld_is_gps_stopped = true ∨
    op = .main_event_hdlr ∧ ∃ serial events, s.events = .RESET_DONE serial :: events ∧
      s.agps_reset ≤ serial

/-- **The condition**: no step tells the AGPS client early. This is what a start does, or a stop
that is not the last one, when the engine is started, what the news does that the engine is ready,
and, when the engine is not stopped, the confirmation of a reset that came before, and a request for
a reset without flags. -/
def TellsRight (s : MnldSystem) : MnldOp → Prop
  | .request r => ¬ (s.gps_status.asked r).TellsEarly r.event ∧
      (r = .reset_gps 0 → s.gps_status.mnld_is_gps_stopped = true)
  | .main_event_hdlr =>
    match s.events with
    | .START_DONE si_assist_req :: _ => ¬ s.gps_status.TellsEarly (.START_DONE si_assist_req)
    | .RESET_DONE serial :: _ => s.gps_status.mnld_is_gps_stopped = false →
        s.gps_status.waits → s.agps_reset ≤ serial
    | _ => True
  | _ => True

/-- Where no confirmation of a reset is taken, the AGPS client is told right when it is not told, or
the engine is stopped. -/
theorem toldRight_iff_of_not (h : op ≠ .main_event_hdlr ∨
      ∀ serial events, s.events ≠ .RESET_DONE serial :: events) :
    s.ToldRight op o ↔
      ¬ (MnldGpsStatus.Tells o ∧ s.gps_status.mnld_is_gps_stopped = false) := by
  rw [ToldRight, not_and, Bool.not_eq_false, MnldGpsStatus.Tells]
  refine imp_congr_right fun _ => or_iff_left ?_
  rintro ⟨hop, serial, events, hevents, -⟩
  rcases h with h | h
  · exact h hop
  · exact h serial events hevents

open MnldGpsStatus in
theorem toldRight_iff (hstep : mnld s op = .ok (s', o)) : s.ToldRight op o ↔ s.TellsRight op := by
  have hquiet (op : MnldOp) : s.ToldRight op [] := fun h => by cases h
  have hstopped (request : Request) : (s.gps_status.asked request).mnld_is_gps_stopped =
      s.gps_status.mnld_is_gps_stopped := by
    rw [mnld_is_gps_stopped, asked_gps_state, mnld_is_gps_stopped]
  generalize hstatus : (s'.gps_status, o) = r
  have hstepped := stepped_of_step hstep
  rw [hstatus] at hstepped
  suffices s.ToldRight op r.2 ↔ s.TellsRight op by
    rw [← hstatus] at this
    exact this
  cases hstepped with
  | request hhandled =>
    rw [toldRight_iff_of_not (.inl (by simp))]
    cases hhandled with
    | moved hrequest hmoved =>
      rw [← hstopped, tells_moved_iff hmoved]
      exact (and_iff_left fun h => absurd h hrequest).symm
    | @deleted flags r hmoved =>
      rw [← hstopped (.delete_aiding_data flags)]
      have htells : Tells (.mnl2agps_delete_aiding_data flags :: r.2) ↔ Tells r.2 := by
        rw [Tells, List.mem_cons, or_iff_right (by simp)]
        rfl
      rw [htells, tells_moved_iff hmoved]
      exact (and_iff_left (by simp)).symm
    | nothing => simp [Tells, TellsRight, TellsEarly, Request.event]
  | offload => exact iff_of_true (hquiet _) trivial
  | startDone hevents hmoved =>
    rw [toldRight_iff_of_not (.inr (by simp [hevents])), tells_moved_iff hmoved]
    simp only [TellsRight, hevents]
  | stopDone hevents hmoved =>
    rw [toldRight_iff_of_not (.inr (by simp [hevents])), tells_moved_iff hmoved]
    simp [TellsRight, hevents, TellsEarly]
  | @resetDone serial events hevents =>
    simp only [ToldRight, TellsRight, hevents, true_and]
    rw [← Tells, resetDone, tells_reset_iff]
    have hserial : (∃ serial' events', Gps2Main.RESET_DONE serial :: events =
        .RESET_DONE serial' :: events' ∧ s.agps_reset ≤ serial') ↔ s.agps_reset ≤ serial := by
      constructor
      · rintro ⟨serial', events', heq, hle⟩
        cases heq
        exact hle
      · exact fun hle => ⟨serial, events, rfl, hle⟩
    rw [hserial]
    change (s.gps_status.waits → _) ↔ _
    cases s.gps_status.mnld_is_gps_stopped <;> simp
  | @timeout events r hevents hstate hmoved =>
    rw [toldRight_iff_of_not (.inr (by simp [hevents]))]
    have htells : Tells (r.2 ++ [.mnl2hal_mnld_reboot, .mnl2agps_mnl_reboot,
        .mnl2flp_mnld_reboot]) ↔ Tells r.2 := by
      rw [Tells, List.mem_append, or_iff_left (by simp)]
      rfl
    have hclear : s.gps_status.mtk_gps_clear_gps_user.mnld_is_gps_stopped =
        s.gps_status.mnld_is_gps_stopped := rfl
    rw [htells, ← hclear, tells_moved_iff hmoved]
    simp [TellsRight, hevents, TellsEarly, mtk_gps_clear_gps_user]
  | late hevents _ => exact iff_of_true (hquiet _) (by simp [TellsRight, hevents])
  | engine => exact iff_of_true (hquiet _) trivial
  | ready => exact iff_of_true (hquiet _) trivial
  | nmeaTimeout => exact iff_of_true (hquiet _) trivial

open MnldGpsStatus in
theorem keptOrPassed_step (hstep : mnld s op = .ok (s', o)) :
    KeptOrPassed (s.gps_status.delete_aiding_flag ||| op.flags) (s'.gps_status, o) := by
  have hzero : s.gps_status.delete_aiding_flag ||| 0 = s.gps_status.delete_aiding_flag :=
    UInt32.or_zero
  have hmain : s.gps_status.delete_aiding_flag ||| MnldOp.main_event_hdlr.flags =
      s.gps_status.delete_aiding_flag := hzero
  generalize hstatus : (s'.gps_status, o) = r
  have hstepped := stepped_of_step hstep
  rw [hstatus] at hstepped
  cases hstepped with
  | request hhandled =>
    rw [MnldOp.flags, ← asked_delete_aiding_flag]
    cases hhandled with
    | moved _ hmoved => exact keptOrPassed_moved hmoved
    | deleted hmoved => exact (keptOrPassed_moved hmoved).of_passes rfl rfl
    | nothing => exact .inl ⟨rfl, rfl⟩
  | offload => exact .inl ⟨hzero.symm, rfl⟩
  | startDone _ hmoved =>
    rw [hmain]
    exact keptOrPassed_moved hmoved
  | stopDone _ hmoved =>
    rw [hmain]
    exact keptOrPassed_moved hmoved
  | resetDone _ =>
    rw [hmain]
    refine keptOrPassed_of_toClient ?_ toClient_reset
    rw [resetDone, do_gps_reset_hdlr_fst]
  | timeout _ _ hmoved =>
    rw [hmain]
    refine (keptOrPassed_moved hmoved).of_passes rfl ?_
    rw [passes_append]
    exact List.append_nil _
  | late _ _ => exact .inl ⟨hzero.symm, rfl⟩
  | engine => exact .inl ⟨hzero.symm, rfl⟩
  | ready => exact .inl ⟨hzero.symm, rfl⟩
  | nmeaTimeout => exact .inl ⟨hzero.symm, rfl⟩

/-! ### Runs -/

theorem covered_of_runs (hrun : mnld.Runs s₁ ops s os) : Covered s₁.gps_status.delete_aiding_flag
    (s.gps_status.delete_aiding_flag ||| passed os) := by
  refine hrun.invariant (I := fun _ s os => Covered s₁.gps_status.delete_aiding_flag
    (s.gps_status.delete_aiding_flag ||| passed os)) ((Covered.refl _).or_right _) ?_
  intro ops s os op s' o hcovered hstep
  refine hcovered.trans ((Covered.or ?_ ?_))
  · have hkept := (keptOrPassed_step hstep).covered
    rw [passed_append, UInt32.or_comm (passed os), ← UInt32.or_assoc]
    exact ((Covered.refl _).or_right _).trans (hkept.or_right _)
  · rw [passed_append]
    exact ((Covered.refl _).or_right _).or_left _

/-- **Resets**: in a run the AGPS client is told right that its reset has been done exactly when
every step meets the condition. In every run the flags that were there with those of a request are
there at the end or have been passed on since, and what is passed on is all that is there. -/
theorem reset_done_iff (hrun : mnld.Runs {} ops s os) :
    (mnld.RunsMeeting (fun _ => TellsRight) {} ops s os ↔
      ∀ ops₁ op ops₂ s₁ os₁, ops = ops₁ ++ op :: ops₂ → mnld.Runs {} ops₁ s₁ os₁ →
        ∀ s₂ o, mnld s₁ op = .ok (s₂, o) → s₁.ToldRight op o) ∧
    (∀ ops₁ op ops₂ s₁ os₁ os₂, ops = ops₁ ++ op :: ops₂ → mnld.Runs {} ops₁ s₁ os₁ →
      os = os₁ ++ os₂ → Covered (s₁.gps_status.delete_aiding_flag ||| op.flags)
        (s.gps_status.delete_aiding_flag ||| passed os₂)) ∧
    ∀ op s' o, mnld s op = .ok (s', o) →
      MnldGpsStatus.KeptOrPassed (s.gps_status.delete_aiding_flag ||| op.flags)
        (s'.gps_status, o) := by
  refine ⟨?_, ?_, fun op s' o hstep => keptOrPassed_step hstep⟩
  · rw [hrun.meeting_iff_steps]
    constructor
    · intro h ops₁ op ops₂ s₁ os₁ hops hrun₁ s₂ o hstep
      exact (toldRight_iff hstep).mpr (h ops₁ op ops₂ s₁ os₁ hops hrun₁)
    · intro h ops₁ op ops₂ s₁ os₁ hops hrun₁
      subst hops
      obtain ⟨s₁', s₂, os₁', o, os₂, hrun₁', hstep, -, -⟩ := hrun.split_step
      obtain ⟨rfl, rfl⟩ := hrun₁.deterministic hrun₁'
      exact (toldRight_iff hstep).mp (h ops₁ op ops₂ s₁ os₁ rfl hrun₁ s₂ o hstep)
  · rintro ops₁ op ops₂ s₁ os₁ os₂ rfl hrun₁ rfl
    obtain ⟨s₁', s₂, os₁', o, os₂', hrun₁', hstep, hrun₂, hos⟩ := hrun.split_step
    obtain ⟨rfl, rfl⟩ := hrun₁.deterministic hrun₁'
    obtain rfl : os₂ = o ++ os₂' := List.append_cancel_left (hos.trans (List.append_assoc _ _ _))
    refine (keptOrPassed_step hstep).covered.trans (Covered.or ?_ ?_)
    · rw [passed_append, UInt32.or_comm (passed o), ← UInt32.or_assoc]
      exact (covered_of_runs hrun₂).or_right _
    · rw [passed_append]
      exact ((Covered.refl _).or_right _).or_left _

/-- The engine is started, the AGPS client asks for a reset, and the FLP client starts. -/
def resetOps : List MnldOp :=
  startOps ++ [.request (.reset_gps 1), .request (.start .flp)]

theorem reset_done_iff_reset : ∃ s os, mnld.Runs {} resetOps s os ∧
    (mnld.RunsMeeting (fun _ => TellsRight) {} resetOps s os ↔
      ∀ ops₁ op ops₂ s₁ os₁, resetOps = ops₁ ++ op :: ops₂ → mnld.Runs {} ops₁ s₁ os₁ →
        ∀ s₂ o, mnld s₁ op = .ok (s₂, o) → s₁.ToldRight op o) ∧
    (∀ ops₁ op ops₂ s₁ os₁ os₂, resetOps = ops₁ ++ op :: ops₂ → mnld.Runs {} ops₁ s₁ os₁ →
      os = os₁ ++ os₂ → Covered (s₁.gps_status.delete_aiding_flag ||| op.flags)
        (s.gps_status.delete_aiding_flag ||| passed os₂)) ∧
    ∀ op s' o, mnld s op = .ok (s', o) →
      MnldGpsStatus.KeptOrPassed (s.gps_status.delete_aiding_flag ||| op.flags)
        (s'.gps_status, o) := by
  obtain ⟨s, os, hrun, -⟩ : ∃ s os, mnld.Runs {} resetOps s os ∧
      s.gps_status.gps_state = .STARTED := Machine.exists_run_of_shows (by decide)
  exact ⟨s, os, hrun, reset_done_iff hrun⟩

/-- The start of the FLP client answers the reset that the engine has not even taken. -/
theorem started_told_early : ∃ s os s' o,
    mnld.Runs {} (startOps ++ [.request (.reset_gps 1)]) s os ∧
    mnld s (.request (.start .flp)) = .ok (s', o) ∧
    s.requests = [.DELETE_AIDING_DATA 1 0] ∧ ¬ s.ToldRight (.request (.start .flp)) o := by
  obtain ⟨s', os', hrun', -⟩ : ∃ s' os', mnld.Runs {} resetOps s' os' ∧
      s'.gps_status.gps_state = .STARTED := Machine.exists_run_of_shows (by decide)
  obtain ⟨s, os, hrun, hstarted, hrequests, hwaits⟩ :
      ∃ s os, mnld.Runs {} (startOps ++ [.request (.reset_gps 1)]) s os ∧
        s.gps_status.gps_state = .STARTED ∧ s.requests = [.DELETE_AIDING_DATA 1 0] ∧
        (s.gps_status.clients .agps).need_reset_ack = true :=
    Machine.exists_run_of_shows (by decide)
  have hops : resetOps = startOps ++ [.request (.reset_gps 1)] ++ [.request (.start .flp)] := rfl
  rw [hops] at hrun'
  obtain ⟨s₁, os₁, o, hrun₁, hstep, -⟩ := Machine.Runs.of_snoc _ hrun'
  obtain ⟨rfl, rfl⟩ := hrun.deterministic hrun₁
  refine ⟨s, os, s', o, hrun, hstep, hrequests, fun htold => ?_⟩
  exact ((toldRight_iff hstep).mp htold).1 ⟨by simpa using hstarted, hwaits⟩

end MnldSystem

end MtkHardware.Mnld
