import MtkHardware.Mnld.GpsEngine

/-!
# Answers to the Clients

A client that asks for the engine to be opened or closed for it is told when that has been done.
What is to be told is noted in its flags until the engine has started or stopped, and the state
machine is to leave no note behind in `IDLE` or `STARTED`, where it waits for clients only. But a
client may ask to close while the engine starts. When it is ready, and another client uses it,
`fsm_gps_state_starting` goes to `STARTED` and answers those who have asked to open it only.
-/

namespace MtkHardware.Mnld

inductive Ack
  | opening
  | closing
  deriving DecidableEq, Repr

def MnldGpsClient.need (client : MnldGpsClient) : Ack → Bool
  | .opening => client.need_open_ack
  | .closing => client.need_close_ack

def Client.answer : Client → Ack → Message → Bool
  | .hal, .opening, .mnl2hal_gps_status .SESSION_BEGIN => true
  | .hal, .closing, .mnl2hal_gps_status .SESSION_END => true
  | .agps, .opening, .mnl2agps_open_gps_done => true
  | .agps, .closing, .mnl2agps_close_gps_done => true
  | .flp, .opening, .mnl2flp_gps_open_done => true
  | .flp, .closing, .mnl2flp_gps_close_done => true
  | _, _, _ => false

theorem countP_opened (needs : Client → Bool) (si_assist_req : Bool) (c : Client) (a : Ack) :
    (Client.all.flatMap fun c => if needs c then c.opened si_assist_req else []).countP
        (c.answer a) = if a = .opening ∧ needs c = true ∧ c.acked = true then 1 else 0 := by
  have hone : ∀ c', (if needs c' then c'.opened si_assist_req else []).countP (c.answer a) =
      if needs c' then (c'.opened si_assist_req).countP (c.answer a) else 0 := by
    intro c'
    split <;> rfl
  rw [List.countP_flatMap]
  simp only [Function.comp_def, hone]
  cases c <;> cases a <;>
    simp [Client.all, Client.opened, Client.answer, Client.acked, List.countP_cons]

theorem countP_closed (needs : Client → Bool) (c : Client) (a : Ack) :
    (Client.all.flatMap fun c => if needs c then c.closed else []).countP (c.answer a) =
      if a = .closing ∧ needs c = true ∧ c.acked = true then 1 else 0 := by
  have hone : ∀ c', (if needs c' then c'.closed else []).countP (c.answer a) =
      if needs c' then c'.closed.countP (c.answer a) else 0 := by
    intro c'
    split <;> rfl
  rw [List.countP_flatMap]
  simp only [Function.comp_def, hone]
  cases c <;> cases a <;>
    simp [Client.all, Client.closed, Client.answer, Client.acked, List.countP_cons]

/-- Does a message tell a client that the engine has been opened or closed for it? -/
def Message.answers (m : Message) : Bool :=
  Client.all.any fun c => c.answer .opening m || c.answer .closing m

theorem countP_eq_zero {messages : List Message} (h : ∀ m ∈ messages, m.answers = false)
    (c : Client) (a : Ack) : messages.countP (c.answer a) = 0 := by
  refine List.countP_eq_zero.mpr fun m hm hanswer => ?_
  have hnone := h m hm
  simp only [Message.answers, List.any_eq_false, Bool.not_eq_true, Bool.or_eq_false_iff] at hnone
  obtain ⟨hopening, hclosing⟩ := hnone c c.mem_all
  cases a
  · rw [hopening] at hanswer; cases hanswer
  · rw [hclosing] at hanswer; cases hanswer

namespace MnldGpsStatus

variable {s : MnldGpsStatus} {event : MnldGpsEvent} {r : MnldGpsStatus × List Message}

theorem not_answers_reset : ∀ m ∈ s.do_gps_reset_hdlr.2, m.answers = false := by
  rw [do_gps_reset_hdlr_snd]
  split
  · simp only [List.mem_singleton, forall_eq]
    rfl
  · simp

theorem not_answers_passReset : ∀ m ∈ s.passReset.2, m.answers = false := by
  rw [passReset_snd]
  split
  · simp only [List.mem_singleton, forall_eq]
    rfl
  · simp

/-! ### The ledger -/

def NotedRight (s : MnldGpsStatus) : Prop := ∀ c a, (s.clients c).need a = true → c.acked = true

/-- What is noted behind, and what has been told, is what was noted before. -/
def Ledger (s : MnldGpsStatus) (r : MnldGpsStatus × List Message) : Prop :=
  ∀ c a, r.2.countP (c.answer a) + ((r.1.clients c).need a).toNat = ((s.clients c).need a).toNat

theorem ledger_of_kept (hclients : ∀ c a, (r.1.clients c).need a = (s.clients c).need a)
    (hmessages : ∀ m ∈ r.2, m.answers = false) : s.Ledger r := by
  intro c a
  rw [countP_eq_zero hmessages, hclients, Nat.zero_add]

theorem ledger_started (h : s.NotedRight) (si_assist_req : Bool) :
    s.Ledger (s.do_gps_started_hdlr si_assist_req) := by
  intro c a
  rw [do_gps_started_hdlr_snd, do_gps_started_hdlr_fst, List.countP_append, List.countP_append,
    countP_eq_zero not_answers_reset, countP_eq_zero not_answers_passReset, countP_opened]
  have hacked := h c a
  cases a with
  | opening =>
    cases hneed : (s.clients c).need_open_ack
    · simp [MnldGpsClient.need, hneed]
    · rw [MnldGpsClient.need, hneed] at hacked
      simp [MnldGpsClient.need, hneed, hacked]
  | closing => simp [MnldGpsClient.need]

theorem ledger_stopped (h : s.NotedRight) : s.Ledger s.do_gps_stopped_hdlr := by
  intro c a
  rw [do_gps_stopped_hdlr_snd, do_gps_stopped_hdlr_fst, List.countP_append,
    countP_eq_zero not_answers_reset, countP_closed]
  have hacked := h c a
  cases a with
  | opening => simp [MnldGpsClient.need]
  | closing =>
    cases hneed : (s.clients c).need_close_ack
    · simp [MnldGpsClient.need, hneed]
    · rw [MnldGpsClient.need, hneed] at hacked
      simp [MnldGpsClient.need, hneed, hacked]

theorem Ledger.around (before after : List Message) (h : s.Ledger r)
    (hbefore : ∀ m ∈ before, m.answers = false) (hafter : ∀ m ∈ after, m.answers = false) :
    s.Ledger (r.1, before ++ r.2 ++ after) := by
  intro c a
  rw [List.countP_append, List.countP_append, countP_eq_zero hbefore, countP_eq_zero hafter,
    Nat.zero_add, Nat.add_zero]
  exact h c a

theorem Ledger.of_clients {t : MnldGpsStatus} (h : s.Ledger r)
    (hclients : t.clients = r.1.clients) : s.Ledger (t, r.2) := by
  intro c a
  rw [hclients]
  exact h c a

theorem ledger_moved (h : s.NotedRight) (hmoved : Moved s event r) : s.Ledger r := by
  cases hmoved with
  | ignored _ => exact ledger_of_kept (fun _ _ => rfl) (by simp)
  | first _ =>
    refine ledger_of_kept (fun _ _ => rfl) ?_
    simp only [askStart, List.forall_mem_cons]
    exact ⟨rfl, rfl, by simp⟩
  | stop _ => exact ledger_stopped h
  | reset _ =>
    refine ledger_of_kept (fun c a => ?_) not_answers_reset
    rw [do_gps_reset_hdlr_fst]
    cases a <;> rfl
  | ready _ hstarted _ =>
    subst hstarted
    exact (ledger_started (s := { s with timer_start := false }) h _).of_clients rfl
  | unused _ hstarted _ =>
    subst hstarted
    have hstarted := ledger_started (s := { s with timer_start := false }) h ‹Bool›
    exact (hstarted.around [] [.gps_control_gps_stop] (by simp)
      (by simp only [List.mem_singleton, forall_eq]; rfl)).of_clients rfl
  | start _ => exact ledger_started h _
  | last _ _ =>
    refine ledger_of_kept (fun _ _ => rfl) ?_
    simp only [askStop, List.mem_singleton, forall_eq]
    rfl
  | pass _ =>
    refine ledger_of_kept (fun c a => ?_) not_answers_passReset
    rw [passReset_fst]
  | again _ hmessages =>
    refine ledger_of_kept (fun _ _ => rfl) ?_
    rcases hmessages with rfl | rfl
    · simp
    · simp only [List.mem_singleton, forall_eq]
      rfl
  | restart _ hstopped _ =>
    subst hstopped
    have hstopped := ledger_stopped (s := { s with timer_stop := false }) h
    exact (hstopped.around [] [.gps_control_gps_start _] (by simp)
      (by simp only [List.mem_singleton, forall_eq]; rfl)).of_clients rfl
  | idle _ hstopped _ =>
    subst hstopped
    have hstopped := ledger_stopped (s := { s with timer_stop := false }) h
    exact (hstopped.around [] [.mnl2hal_release_wakelock] (by simp)
      (by simp only [List.mem_singleton, forall_eq]; rfl)).of_clients rfl

/-! ### What is noted -/

/-- **The law**: nothing is left unanswered where the state machine waits for clients only. -/
def Settled (s : MnldGpsStatus) : Prop :=
  s.gps_state = .IDLE ∨ s.gps_state = .STARTED → ∀ c a, (s.clients c).need a = false

structure Noted (s : MnldGpsStatus) : Prop where
  right : s.NotedRight
  used : ∀ c, (s.clients c).need_open_ack = true → (s.clients c).gps_used = true
  idle : s.gps_state = .IDLE → ∀ c a, (s.clients c).need a = false
  started : s.gps_state = .STARTED → ∀ c, (s.clients c).need_open_ack = false

theorem Noted.settled_iff (h : s.Noted) : s.Settled ↔
    (s.gps_state = .STARTED → ∀ c, (s.clients c).need_close_ack = false) := by
  constructor
  · exact fun hsettled hstarted c => hsettled (.inr hstarted) c .closing
  · rintro hclose (hidle | hstarted) c a
    · exact h.idle hidle c a
    · cases a with
      | opening => exact h.started hstarted c
      | closing => exact hclose hstarted c

/-- What holds of the notes when an event is handed to the state machine. -/
structure NotedFor (s : MnldGpsStatus) (event : MnldGpsEvent) : Prop where
  right : s.NotedRight
  used : ∀ c, (s.clients c).need_open_ack = true → (s.clients c).gps_used = true
  opened : s.gps_state = .IDLE ∨ s.gps_state = .STARTED → event ≠ .START →
    ∀ c, (s.clients c).need_open_ack = false
  closed : s.gps_state = .IDLE → event ≠ .START → event ≠ .STOP →
    ∀ c, (s.clients c).need_close_ack = false

theorem Noted.notedFor (h : s.Noted) (event : MnldGpsEvent) : s.NotedFor event where
  right := h.right
  used := h.used
  opened := by
    rintro (hidle | hstarted) _ c
    · exact h.idle hidle c .opening
    · exact h.started hstarted c
  closed := fun hidle _ _ c => h.idle hidle c .closing

theorem NotedFor.idle (h : s.NotedFor event) (hidle : s.gps_state = .IDLE)
    (hstart : event ≠ .START) (hstop : event ≠ .STOP) (c : Client) (a : Ack) :
    (s.clients c).need a = false := by
  cases a with
  | opening => exact h.opened (.inl hidle) hstart c
  | closing => exact h.closed hidle hstart hstop c

theorem NotedFor.moved (h : s.NotedFor event) (hmoved : Moved s event r) : r.1.Noted := by
  cases hmoved with
  | ignored hignores =>
    refine ⟨h.right, h.used, fun hidle => ?_, fun hstarted => ?_⟩
    · simp only at hidle
      rw [hidle] at hignores
      refine h.idle hidle ?_ ?_ <;> rintro rfl <;> exact hignores
    · simp only at hstarted
      rw [hstarted] at hignores
      cases event <;> cases hignores
  | first _ => exact ⟨h.right, h.used, by simp [askStart], by simp [askStart]⟩
  | stop hstate =>
    rw [do_gps_stopped_hdlr_fst]
    refine ⟨fun c a hneed => ?_, h.used, fun hidle c a => ?_,
      fun hstarted => h.opened (.inr hstarted) (by simp)⟩
    · cases a with
      | opening => exact h.right c .opening hneed
      | closing => cases hneed
    · cases a with
      | opening => exact h.opened (.inl hidle) (by simp) c
      | closing => rfl
  | reset hstate =>
    rw [do_gps_reset_hdlr_fst]
    refine ⟨fun c a hneed => h.right c a ?_, h.used, fun hidle c a => ?_,
      fun hstarted => h.opened (.inr hstarted) (by simp)⟩
    · cases a <;> exact hneed
    · have hnone := h.idle hidle (by simp) (by simp) c a
      cases a <;> exact hnone
  | ready hstate hstarted _ =>
    subst hstarted
    rw [do_gps_started_hdlr_fst]
    refine ⟨fun c a hneed => ?_, by simp, by simp, fun _ _ => rfl⟩
    cases a with
    | opening => cases hneed
    | closing => exact h.right c .closing hneed
  | unused hstate hstarted _ =>
    subst hstarted
    simp only [askStop, do_gps_started_hdlr_fst]
    refine ⟨fun c a hneed => ?_, by simp, by simp, by simp⟩
    cases a with
    | opening => cases hneed
    | closing => exact h.right c .closing hneed
  | start hstate =>
    rw [do_gps_started_hdlr_fst]
    refine ⟨fun c a hneed => ?_, by simp, fun hidle => ?_, fun _ _ => rfl⟩
    · cases a with
      | opening => cases hneed
      | closing => exact h.right c .closing hneed
    · simp only [hstate] at hidle
      cases hidle
  | last hstate _ => exact ⟨h.right, h.used, by simp [askStop], by simp [askStop]⟩
  | pass hstate =>
    rw [passReset_fst]
    refine ⟨h.right, h.used, fun hidle => ?_, fun hstarted => h.opened (.inr hstarted) (by simp)⟩
    simp only [hstate] at hidle
    cases hidle
  | again hstate _ =>
    refine ⟨h.right, h.used, fun hidle => ?_, fun hstarted => h.opened (.inr hstarted) (by simp)⟩
    simp only [hstate] at hidle
    cases hidle
  | restart _ hstopped _ =>
    subst hstopped
    simp only [askStart, do_gps_stopped_hdlr_fst]
    refine ⟨fun c a hneed => ?_, h.used, by simp, by simp⟩
    cases a with
    | opening => exact h.right c .opening hneed
    | closing => cases hneed
  | idle _ hstopped hexit =>
    subst hstopped
    rw [do_gps_stopped_hdlr_fst]
    refine ⟨fun c a hneed => ?_, h.used, fun _ c a => ?_, by simp⟩
    · cases a with
      | opening => exact h.right c .opening hneed
      | closing => cases hneed
    · cases a with
      | opening =>
        have hunused := is_all_gps_client_exit_iff.mp hexit c
        exact Bool.eq_false_iff.mpr fun hneed =>
          Bool.false_ne_true (hunused.symm.trans (h.used c hneed))
      | closing => rfl

/-- Does the engine become ready for one client while another one waits for it to be closed? -/
def LeavesUnanswered (s : MnldGpsStatus) (event : MnldGpsEvent) : Prop :=
  s.gps_state = .STARTING ∧ (∃ si_assist_req, event = .START_DONE si_assist_req) ∧
    (∃ c, (s.clients c).gps_used = true) ∧ ∃ c, (s.clients c).need_close_ack = true

/-- The exact step: a close is left unanswered in `STARTED` when the engine becomes ready. -/
theorem closed_moved_iff (hmoved : Moved s event r)
    (hclosed : s.gps_state = .STARTED → event ≠ .STOP → ∀ c, (s.clients c).need_close_ack = false) :
    (r.1.gps_state = .STARTED → ∀ c, (r.1.clients c).need_close_ack = false) ↔
      ¬ s.LeavesUnanswered event := by
  have hother (hevent : ∀ si_assist_req, event ≠ .START_DONE si_assist_req) :
      ¬ s.LeavesUnanswered event := fun ⟨_, ⟨_, heq⟩, _⟩ => hevent _ heq
  have hstate (hne : s.gps_state ≠ .STARTING) : ¬ s.LeavesUnanswered event :=
    fun ⟨heq, _⟩ => hne heq
  cases hmoved with
  | ignored hignores =>
    refine iff_of_true (fun hstarted => ?_) fun ⟨hstarting, ⟨_, hevent⟩, _⟩ => ?_
    · simp only at hstarted
      rw [hstarted] at hignores
      cases event <;> cases hignores
    · rw [hstarting, hevent] at hignores
      exact hignores
  | first _ => exact iff_of_true (by simp [askStart]) (hother (by simp))
  | stop _ =>
    rw [do_gps_stopped_hdlr_fst]
    exact iff_of_true (fun _ _ => rfl) (hother (by simp))
  | reset _ =>
    rw [do_gps_reset_hdlr_fst]
    exact iff_of_true (fun hstarted => hclosed hstarted (by simp)) (hother (by simp))
  | @ready si_assist_req _ hstarting hstarted hused =>
    subst hstarted
    rw [do_gps_started_hdlr_fst]
    rw [Bool.eq_false_iff, Ne, is_all_gps_client_exit_iff] at hused
    push Not at hused
    obtain ⟨c, hc⟩ := hused
    simp only [forall_const, LeavesUnanswered, hstarting, true_and]
    constructor
    · rintro hnone ⟨-, -, c', hc'⟩
      rw [hnone c'] at hc'
      cases hc'
    · intro hnone c'
      by_contra hc'
      exact hnone ⟨⟨si_assist_req, rfl⟩, ⟨c, by simpa using hc⟩, c', by simpa using hc'⟩
  | unused hstarting hstarted hexit =>
    subst hstarted
    refine iff_of_true (by simp [askStop]) fun ⟨_, _, ⟨c, hc⟩, _⟩ => ?_
    rw [is_all_gps_client_exit_iff.mp hexit c] at hc
    cases hc
  | start _ =>
    rw [do_gps_started_hdlr_fst]
    exact iff_of_true (fun hstarted => hclosed hstarted (by simp)) (hother (by simp))
  | last _ _ => exact iff_of_true (by simp [askStop]) (hother (by simp))
  | pass _ =>
    rw [passReset_fst]
    exact iff_of_true (fun hstarted => hclosed hstarted (by simp)) (hother (by simp))
  | again hstarted _ =>
    exact iff_of_true (fun hstarted => hclosed hstarted (by simp)) (hstate (by simp [hstarted]))
  | restart _ hstopped _ =>
    subst hstopped
    exact iff_of_true (by simp [askStart]) (hother (by simp))
  | idle _ hstopped _ =>
    subst hstopped
    exact iff_of_true (by simp) (hother (by simp))

/-! ### What a request notes -/

variable {request : Request}

theorem asked_need_of_reset (hevent : request.event = .RESET) (c : Client) (a : Ack) :
    ((s.asked request).clients c).need a = (s.clients c).need a := by
  cases request with
  | reboot _ | start _ | stop _ => cases hevent
  | delete_aiding_data flags =>
    by_cases hc : c = .hal
    · rw [hc]
      cases a <;> rfl
    · simp only [asked, setClient, Function.update_of_ne hc]
  | reset_gps flags =>
    simp only [asked]
    split
    · rfl
    · by_cases hc : c = .agps
      · rw [hc]
        cases a <;> rfl
      · simp only [setClient, Function.update_of_ne hc]

/-- A client that has asked to open waits for that, and uses the engine; one that has asked to
close, or is new, does not wait to open. -/
theorem asked_open (h : ∀ c, (s.clients c).need_open_ack = true →
      c.acked = true ∧ (s.clients c).gps_used = true) (c : Client)
    (hneed : ((s.asked request).clients c).need_open_ack = true) :
    c.acked = true ∧ ((s.asked request).clients c).gps_used = true := by
  cases request with
  | reboot c' | start c' | stop c' =>
    simp only [asked, setClient, Function.update_apply] at hneed ⊢
    split at hneed
    · rename_i hc
      subst hc
      first
      | exact ⟨hneed, by simp⟩
      | cases hneed
    · rename_i hc
      rw [if_neg hc]
      exact h c hneed
  | delete_aiding_data flags | reset_gps flags =>
    rw [asked_gps_used]
    exact h c ((asked_need_of_reset (by rfl) c .opening).symm.trans hneed)

theorem asked_close (h : ∀ c, (s.clients c).need_close_ack = true → c.acked = true) (c : Client)
    (hneed : ((s.asked request).clients c).need_close_ack = true) : c.acked = true := by
  cases request with
  | reboot c' | start c' | stop c' =>
    simp only [asked, setClient, Function.update_apply] at hneed
    split at hneed
    · rename_i hc
      subst hc
      first
      | exact hneed
      | cases hneed
    · exact h c hneed
  | delete_aiding_data flags | reset_gps flags =>
    exact h c ((asked_need_of_reset (by rfl) c .closing).symm.trans hneed)

theorem asked_not_open (hevent : request.event ≠ .START)
    (h : ∀ c, (s.clients c).need_open_ack = false) (c : Client) :
    ((s.asked request).clients c).need_open_ack = false := by
  cases request with
  | reboot c' | stop c' =>
    simp only [asked, setClient, Function.update_apply]
    split
    · rfl
    · exact h c
  | start c' => exact absurd rfl hevent
  | delete_aiding_data flags | reset_gps flags =>
    exact (asked_need_of_reset (by rfl) c .opening).trans (h c)

theorem asked_not_close (hevent : request.event ≠ .STOP)
    (h : ∀ c, (s.clients c).need_close_ack = false) (c : Client) :
    ((s.asked request).clients c).need_close_ack = false := by
  cases request with
  | reboot c' | stop c' => exact absurd rfl hevent
  | start c' =>
    simp only [asked, setClient, Function.update_apply]
    split
    · rfl
    · exact h c
  | delete_aiding_data flags | reset_gps flags =>
    exact (asked_need_of_reset (by rfl) c .closing).trans (h c)

theorem Noted.asked (h : s.Noted) (request : Request) :
    (s.asked request).NotedFor request.event where
  right := by
    intro c a hneed
    cases a with
    | opening => exact (asked_open (fun c hc => ⟨h.right c .opening hc, h.used c hc⟩) c hneed).1
    | closing => exact asked_close (fun c => h.right c .closing) c hneed
  used := fun c hneed =>
    (asked_open (fun c hc => ⟨h.right c .opening hc, h.used c hc⟩) c hneed).2
  opened := by
    intro hstate hevent
    rw [asked_gps_state] at hstate
    refine asked_not_open hevent fun c => ?_
    rcases hstate with hidle | hstarted
    · exact h.idle hidle c .opening
    · exact h.started hstarted c
  closed := by
    intro hidle _ hevent
    rw [asked_gps_state] at hidle
    exact asked_not_close hevent fun c => h.idle hidle c .closing

end MnldGpsStatus

def MnldOp.asked (s : MnldGpsStatus) : MnldOp → MnldGpsStatus
  | .request r => s.asked r
  | _ => s

namespace MnldSystem

variable {s s' : MnldSystem} {op : MnldOp} {ops : List MnldOp} {os o : List Message}

/-! ### Runs -/

/-- **The condition**: when the engine becomes ready, no client uses it or no client waits for it to
be closed. -/
def Answers (s : MnldSystem) : MnldOp → Prop
  | .main_event_hdlr => s.gps_status.gps_state = .STARTING →
      (∃ si_assist_req, s.events.head? = some (.START_DONE si_assist_req)) →
      (∀ c, (s.gps_status.clients c).gps_used = false) ∨
        ∀ c, (s.gps_status.clients c).need_close_ack = false
  | _ => True

open MnldGpsStatus in
theorem noted_step (h : s.gps_status.Noted) (hstep : mnld s op = .ok (s', o)) :
    s'.gps_status.Noted ∧ (op.asked s.gps_status).Ledger (s'.gps_status, o) := by
  have hkept : s.gps_status.Ledger (s.gps_status, []) :=
    ledger_of_kept (fun _ _ => rfl) (by simp)
  generalize hstatus : (s'.gps_status, o) = r at *
  have hstepped := stepped_of_step hstep
  rw [hstatus] at hstepped
  suffices r.1.Noted ∧ (op.asked s.gps_status).Ledger r by
    rw [← hstatus] at this ⊢
    exact this
  cases hstepped with
  | request hhandled =>
    cases hhandled with
    | moved _ hmoved => exact ⟨(h.asked _).moved hmoved, ledger_moved (h.asked _).right hmoved⟩
    | @deleted flags _ hmoved =>
      have hledger := ledger_moved (h.asked (.delete_aiding_data flags)).right hmoved
      have haround := hledger.around [.mnl2agps_delete_aiding_data flags] []
        (by simp only [List.mem_singleton, forall_eq]; rfl) (by simp)
      rw [List.append_nil] at haround
      have hnoted := (h.asked (.delete_aiding_data flags)).moved hmoved
      exact ⟨hnoted, haround⟩
    | nothing =>
      refine ⟨h, ledger_of_kept (fun _ _ => rfl) ?_⟩
      simp only [List.mem_singleton, forall_eq]
      rfl
  | offload => exact ⟨⟨h.right, h.used, h.idle, h.started⟩, hkept⟩
  | startDone _ hmoved => exact ⟨(h.notedFor _).moved hmoved, ledger_moved h.right hmoved⟩
  | stopDone _ hmoved => exact ⟨(h.notedFor _).moved hmoved, ledger_moved h.right hmoved⟩
  | resetDone _ =>
    have hstatus : s.gps_status.resetDone.1 = _ := do_gps_reset_hdlr_fst
    have hneed : ∀ c a, (s.gps_status.resetDone.1.clients c).need a =
        (s.gps_status.clients c).need a := by
      intro c a
      rw [hstatus]
      cases a <;> rfl
    refine ⟨⟨fun c a => ?_, fun c => ?_, fun hidle c a => ?_, fun hstarted c => ?_⟩,
      ledger_of_kept hneed not_answers_reset⟩
    · rw [hneed]
      exact h.right c a
    · rw [hstatus]
      exact h.used c
    · rw [hneed]
      rw [hstatus] at hidle
      exact h.idle hidle c a
    · rw [hstatus] at hstarted ⊢
      exact h.started hstarted c
  | timeout _ hstate hmoved =>
    have hfor : s.gps_status.mtk_gps_clear_gps_user.NotedFor .STOP := by
      refine ⟨h.right, fun c hneed => ?_, fun _ _ => h.started hstate, by simp⟩
      exact absurd ((h.started hstate c).symm.trans hneed) Bool.false_ne_true
    have haround := (ledger_moved hfor.right hmoved).around []
      [.mnl2hal_mnld_reboot, .mnl2agps_mnl_reboot, .mnl2flp_mnld_reboot] (by simp)
      (by simp only [List.forall_mem_cons]; exact ⟨rfl, rfl, rfl, by simp⟩)
    have hnoted := hfor.moved hmoved
    exact ⟨hnoted, haround⟩
  | late _ _ => exact ⟨h, hkept⟩
  | engine => exact ⟨h, hkept⟩
  | ready => exact ⟨h, hkept⟩
  | nmeaTimeout => exact ⟨h, hkept⟩

theorem answers_main_iff {event : Gps2Main} {events : List Gps2Main}
    (hevents : s.events = event :: events) : s.Answers .main_event_hdlr ↔
      ∀ si_assist_req, event = .START_DONE si_assist_req →
        ¬ s.gps_status.LeavesUnanswered (.START_DONE si_assist_req) := by
  simp only [Answers, hevents, List.head?_cons, Option.some.injEq]
  constructor
  · rintro h si_assist_req rfl ⟨hstarting, -, ⟨c, hc⟩, c', hc'⟩
    rcases h hstarting ⟨_, rfl⟩ with hunused | hclosed
    · exact Bool.false_ne_true ((hunused c).symm.trans hc)
    · exact Bool.false_ne_true ((hclosed c').symm.trans hc')
  · rintro h hstarting ⟨si_assist_req, hevent⟩
    by_contra hnot
    push Not at hnot
    obtain ⟨⟨c, hc⟩, c', hc'⟩ := hnot
    exact h si_assist_req hevent
      ⟨hstarting, ⟨_, rfl⟩, ⟨c, by simpa using hc⟩, c', by simpa using hc'⟩

open MnldGpsStatus in
/-- From a state with nothing left unanswered, a step leaves nothing unanswered exactly when it
meets the condition. -/
theorem settled_step_iff (hnoted : s.gps_status.Noted) (hsettled : s.gps_status.Settled)
    (hstep : mnld s op = .ok (s', o)) : s'.gps_status.Settled ↔ s.Answers op := by
  rw [(noted_step hnoted hstep).1.settled_iff]
  rw [hnoted.settled_iff] at hsettled
  generalize hstatus : (s'.gps_status, o) = r
  have hstepped := stepped_of_step hstep
  rw [hstatus] at hstepped
  suffices (r.1.gps_state = .STARTED → ∀ c, (r.1.clients c).need_close_ack = false) ↔
      s.Answers op by
    rw [← hstatus] at this
    exact this
  have hasked (request : Request) : (s.gps_status.asked request).gps_state = .STARTED →
      request.event ≠ .STOP →
        ∀ c, ((s.gps_status.asked request).clients c).need_close_ack = false :=
    fun hstate hevent => asked_not_close hevent (hsettled (by rwa [asked_gps_state] at hstate))
  have hready (request : Request) :
      ¬ (s.gps_status.asked request).LeavesUnanswered request.event := by
    rintro ⟨-, ⟨_, heq⟩, -⟩
    cases request <;> cases heq
  cases hstepped with
  | request hhandled =>
    cases hhandled with
    | moved _ hmoved =>
      exact (closed_moved_iff hmoved (hasked _)).trans (iff_of_true (hready _) trivial)
    | @deleted flags _ hmoved =>
      exact (closed_moved_iff hmoved (hasked (.delete_aiding_data flags))).trans
        (iff_of_true (hready (.delete_aiding_data flags)) trivial)
    | nothing => exact iff_of_true hsettled trivial
  | offload => exact iff_of_true hsettled trivial
  | @startDone si_assist_req _ _ hevents hmoved =>
    rw [answers_main_iff hevents, closed_moved_iff hmoved fun hstate _ => hsettled hstate]
    simp
  | stopDone hevents hmoved =>
    rw [answers_main_iff hevents, closed_moved_iff hmoved fun hstate _ => hsettled hstate]
    refine iff_of_true ?_ (by simp)
    rintro ⟨-, ⟨_, heq⟩, -⟩
    cases heq
  | resetDone hevents =>
    rw [answers_main_iff hevents]
    have hstatus : s.gps_status.resetDone.1 = _ := do_gps_reset_hdlr_fst
    rw [hstatus]
    exact iff_of_true hsettled (by simp)
  | timeout hevents hstate hmoved =>
    rw [answers_main_iff hevents]
    refine (closed_moved_iff hmoved fun _ hevent => absurd rfl hevent).trans
      (iff_of_true ?_ (by simp))
    rintro ⟨-, ⟨_, heq⟩, -⟩
    cases heq
  | late hevents _ =>
    rw [answers_main_iff hevents]
    exact iff_of_true hsettled (by simp)
  | engine => exact iff_of_true hsettled trivial
  | ready => exact iff_of_true hsettled trivial
  | nmeaTimeout => exact iff_of_true hsettled trivial

theorem noted_of_runs (hrun : mnld.Runs {} ops s os) : s.gps_status.Noted := by
  refine hrun.invariant (I := fun _ s _ => s.gps_status.Noted) ?_ ?_
  · refine ⟨fun c a h => ?_, by simp, fun _ c a => ?_, by simp⟩
    · cases a <;> cases h
    · cases a <;> rfl
  · exact fun _ _ _ _ _ _ hnoted hstep => (noted_step hnoted hstep).1

/-- **The answers**: in all states of a run nothing is left unanswered in `IDLE` and `STARTED`
exactly when every step of it meets the condition. In every run a step tells a client once what it
was to be told, or leaves that noted. -/
theorem settled_iff_answers (hrun : mnld.Runs {} ops s os) :
    (mnld.RunsMeeting (fun _ => Answers) {} ops s os ↔
      ∀ ops₁ ops₂ s₁ os₁, ops = ops₁ ++ ops₂ → mnld.Runs {} ops₁ s₁ os₁ →
        s₁.gps_status.Settled) ∧
    ∀ op s' o, mnld s op = .ok (s', o) → ∀ c a,
      o.countP (c.answer a) + ((s'.gps_status.clients c).need a).toNat =
        (((op.asked s.gps_status).clients c).need a).toNat := by
  constructor
  · refine Machine.Runs.meeting_iff (C := fun _ => Answers) (I := fun _ s => s.gps_status.Settled)
      (fun _ c a => by cases a <;> rfl) ?_ hrun
    exact fun _ _ _ _ _ _ hrun hsettled hstep =>
      settled_step_iff (noted_of_runs hrun) hsettled hstep
  · exact fun op s' o hstep => (noted_step (noted_of_runs hrun) hstep).2

/-- The HAL starts GPS, and before the engine is ready the AGPS client opens and closes it. -/
def crossedOps : List MnldOp :=
  [.request (.start .hal), .request (.start .agps), .request (.stop .agps),
   .gps_control_event_hdlr, .ready false, .main_event_hdlr]

theorem settled_iff_answers_crossed : ∃ s os, mnld.Runs {} crossedOps s os ∧
    (mnld.RunsMeeting (fun _ => Answers) {} crossedOps s os ↔
      ∀ ops₁ ops₂ s₁ os₁, crossedOps = ops₁ ++ ops₂ → mnld.Runs {} ops₁ s₁ os₁ →
        s₁.gps_status.Settled) ∧
    ∀ op s' o, mnld s op = .ok (s', o) → ∀ c a,
      o.countP (c.answer a) + ((s'.gps_status.clients c).need a).toNat =
        (((op.asked s.gps_status).clients c).need a).toNat := by
  obtain ⟨s, os, hrun, -⟩ : ∃ s os, mnld.Runs {} crossedOps s os ∧
      s.gps_status.gps_state = .STARTED := Machine.exists_run_of_shows (by decide)
  exact ⟨s, os, hrun, settled_iff_answers hrun⟩

/-- The close of the AGPS client is left unanswered. -/
theorem crossed_unanswered : ∃ s os, mnld.Runs {} crossedOps s os ∧ ¬ s.gps_status.Settled := by
  obtain ⟨s, os, hrun, hstarted, hneed⟩ : ∃ s os, mnld.Runs {} crossedOps s os ∧
      s.gps_status.gps_state = .STARTED ∧
      ((s.gps_status.clients .agps).need .closing) = true :=
    Machine.exists_run_of_shows (by decide)
  refine ⟨s, os, hrun, fun hsettled => ?_⟩
  rw [hsettled (.inr hstarted) .agps .closing] at hneed
  cases hneed

end MnldSystem

end MtkHardware.Mnld
