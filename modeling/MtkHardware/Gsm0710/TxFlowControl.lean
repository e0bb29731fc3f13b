import MtkHardware.Gsm0710.ControlChannel
import MtkHardware.Util.Run

/-!
# Flow Control of the Sending Side

The thread of a channel reads its pty in `pseudo_device_read` and sends what it gets. A modem status
command sets and clears `tx_fc_off`; before a read the thread sleeps on `tx_fc_on_signal` if it is
set. Both hold `tx_fc_lock` meanwhile, and are interleaved between any two steps.

The thread asks once, and does not ask again when it wakes up. So a read that has been let through
may still be sent after the modem has switched the flow off, and one more for each wake-up that
nobody has signalled.
-/

namespace MtkHardware.Gsm0710

/-! ### The threads -/

/-- Where the thread of a channel is, with the `read` actions done. -/
inductive SenderAt
  | selecting
  /-- Before `tx_fc_lock`. -/
  | round (read_action_count : ℕ)
  | waiting (read_action_count : ℕ) (signaled : Bool)
  | reading (read_action_count : ℕ)
  deriving DecidableEq, Repr

/-- `pthread_cond_signal(&channel->tx_fc_on_signal)`. -/
def SenderAt.signal : SenderAt → SenderAt
  | .waiting n _ => .waiting n true
  | at' => at'

structure TxFlow where
  control : ControlState
  sender : SenderAt := .selecting

inductive ReadResult
  | data (bytes : List UInt8)
  | EINTR
  | EAGAIN
  /-- The pty is closed, to be opened again. -/
  | failed
  deriving DecidableEq, Repr

inductive TxOp
  /-- A frame on the control channel. -/
  | command (data : List UInt8)
  | select
  /-- The thread gets `tx_fc_lock`. -/
  | lock
  | wake
  | read (result : ReadResult)
  deriving DecidableEq, Repr

inductive TxEvent
  | control (event : ControlEvent)
  /-- The thread wakes up without a signal. -/
  | spurious
  /-- `handle_channel_data`. -/
  | sent (bytes : List UInt8)
  deriving DecidableEq, Repr

inductive TxFault
  | blocked
  | control (fault : ControlFault)
  deriving DecidableEq, Repr

/-- `channel->tx_fc_off`. -/
def txOff (channellist : List TxChannel) (id : ℕ) : Bool := channellist[id]?.any (·.tx_fc_off)

/-- The rest of a round of `pseudo_device_read`. -/
def SenderAt.read (n : ℕ) : ReadResult → SenderAt × List TxEvent
  | .data [] => (.selecting, [])
  | .data bytes => (.selecting, [.sent bytes])
  | .EINTR => (.round n, [])
  -- the first time it asserts, and goes on if that only raises a signal
  | .EAGAIN => (if n = 0 then .round 1 else .selecting, [])
  | .failed => (.selecting, [])

/-- The thread of a channel and the one that handles the commands. -/
def txFlow (calloc : ℕ → Bool) (id : ℕ) : Machine TxFlow TxOp TxEvent TxFault
  | s, .command data =>
    match handle_command calloc s.control data with
    | .error fault => .error (.control fault)
    | .ok (control, events) =>
      .ok (⟨control, if .released id ∈ events then s.sender.signal else s.sender⟩,
        events.map .control)
  | s, .select =>
    match s.sender with
    | .selecting => .ok ({ s with sender := .round 0 }, [])
    | _ => .error .blocked
  | s, .lock =>
    match s.sender with
    | .round n =>
      .ok ({ s with
        sender := if txOff s.control.channellist id then .waiting n false else .reading n }, [])
    | _ => .error .blocked
  | s, .wake =>
    match s.sender with
    | .waiting n signaled =>
      .ok ({ s with sender := .reading n }, if signaled then [] else [.spurious])
    | _ => .error .blocked
  | s, .read result =>
    match s.sender with
    | .reading n =>
      .ok ({ s with sender := (SenderAt.read n result).1 }, (SenderAt.read n result).2)
    | _ => .error .blocked

/-! ### The law -/

def TxEvent.isSent : TxEvent → Bool
  | .sent _ => true
  | _ => false

/-- How much the thread may send before it asks again. -/
def SenderAt.allowed : SenderAt → ℕ
  | .waiting _ true | .reading _ => 1
  | _ => 0

/-- The thread sleeps, and no signal has been sent to it. -/
def SenderAt.Sleeps : SenderAt → Prop
  | .waiting _ signaled => signaled = false
  | _ => False

variable {calloc : ℕ → Bool} {id : ℕ} {control c c' : ControlState} {s s' : TxFlow} {op : TxOp}
  {ops : List TxOp} {os o : List TxEvent} {data : List UInt8} {events : List ControlEvent}

theorem txOff_set {channellist : List TxChannel} {i : ℕ} {channel : TxChannel} {off : Bool}
    (h : channellist[i]? = some channel) :
    txOff (channellist.set i { channel with tx_fc_off := off }) id =
      if i = id then off else txOff channellist id := by
  have hlt := (List.getElem?_eq_some_iff.mp h).1
  rw [txOff, List.getElem?_set]
  split_ifs <;> rfl

/-- The flow of a channel stays off until the channel is released, and is off once it is choked. -/
def FlowTold (id : ℕ) (c c' : ControlState) (events : List ControlEvent) : Prop :=
  (.released id ∉ events → txOff c.channellist id = true → txOff c'.channellist id = true) ∧
  (.choked id ∈ events → txOff c'.channellist id = true)

theorem modemStatus_told {i : ℕ} (h : modemStatus c data i = .ok (c', events)) :
    FlowTold id c c' events := by
  rw [modemStatus] at h
  split_ifs at h
  · obtain ⟨address, -, h⟩ := bind_ok_iff.mp h
    obtain ⟨signals, -, h⟩ := bind_ok_iff.mp h
    split at h
    · cases h
    · rename_i channel hchannel
      split_ifs at h <;> cases h
      · exact ⟨fun _ hoff => hoff, by simp⟩
      · exact ⟨fun _ hoff => hoff, by simp⟩
      · simp only [FlowTold, txOff_set hchannel]
        exact ⟨fun _ hoff => by split_ifs <;> trivial,
          fun hmem => if_pos (by simpa [eq_comm] using hmem)⟩
      · simp only [FlowTold, txOff_set hchannel]
        exact ⟨fun hne hoff => by rwa [if_neg fun h => hne (by simp [h])], by simp⟩
      · exact ⟨fun _ hoff => hoff, by simp⟩
  · cases h
    exact ⟨fun _ hoff => hoff, by simp⟩

theorem handle_command_told (h : handle_command calloc c data = .ok (c', events)) :
    FlowTold id c c' events := by
  rw [handle_command] at h
  split_ifs at h
  · obtain ⟨type, -, h⟩ := bind_ok_iff.mp h
    obtain ⟨i, -, h⟩ := bind_ok_iff.mp h
    split_ifs at h
    · obtain ⟨j, -, h⟩ := bind_ok_iff.mp h
      dsimp only at h
      split_ifs at h
      · cases h
        exact ⟨fun _ hoff => hoff, by simp [acknowledgment]⟩
      · cases h
        exact ⟨fun _ hoff => hoff, by simp [acknowledgment]⟩
      · obtain ⟨⟨c₁, events₁⟩, hstatus, h⟩ := bind_ok_iff.mp h
        cases h
        obtain ⟨hreleased, hchoked⟩ : FlowTold id c c₁ events₁ := modemStatus_told hstatus
        exact ⟨fun hne => hreleased fun hmem => hne (List.mem_append_left _ hmem),
          by simpa [acknowledgment] using hchoked⟩
      · obtain ⟨events₁, hunknown, h⟩ := bind_ok_iff.mp h
        cases h
        rw [unknownCommand] at hunknown
        split_ifs at hunknown
        · obtain ⟨_, -, hunknown⟩ := bind_ok_iff.mp hunknown
          obtain ⟨_, -, hunknown⟩ := bind_ok_iff.mp hunknown
          obtain ⟨_, -, hunknown⟩ := bind_ok_iff.mp hunknown
          cases hunknown
          exact ⟨fun _ hoff => hoff, by simp⟩
        · cases hunknown
          exact ⟨fun _ hoff => hoff, by simp [acknowledgment]⟩
    · cases h
      exact ⟨fun _ hoff => hoff, by simp⟩
  · cases h
    exact ⟨fun _ hoff => hoff, by simp⟩

/-! ### Steps -/

theorem allowed_le (at' : SenderAt) : at'.allowed ≤ 1 := by
  unfold SenderAt.allowed
  split <;> omega

theorem allowed_read (n : ℕ) (result : ReadResult) :
    ¬ (SenderAt.read n result).1.Sleeps ∧ (∀ e, .control e ∉ (SenderAt.read n result).2) ∧
      (SenderAt.read n result).2.countP TxEvent.isSent +
        (SenderAt.read n result).1.allowed ≤ 1 := by
  cases result with
  | data bytes =>
    cases bytes <;> simp [SenderAt.read, SenderAt.allowed, SenderAt.Sleeps, TxEvent.isSent]
  | EAGAIN =>
    unfold SenderAt.read
    split_ifs <;> simp [SenderAt.allowed, SenderAt.Sleeps]
  | EINTR | failed => simp [SenderAt.read, SenderAt.allowed, SenderAt.Sleeps]

/-- **What a step does**: the thread falls asleep only while the flow is off, and is signalled when
that ends; a command that switches it off sends nothing; and while it is off, no more is sent than
the thread was allowed, or than it has got by a wake-up without a signal. -/
theorem txFlow_step (h : txFlow calloc id s op = .ok (s', o))
    (hs : s.sender.Sleeps → txOff s.control.channellist id = true) :
    (s'.sender.Sleeps → txOff s'.control.channellist id = true) ∧
    (.control (.choked id) ∈ o →
      txOff s'.control.channellist id = true ∧ o.countP TxEvent.isSent = 0) ∧
    (txOff s.control.channellist id = true → .control (.released id) ∉ o →
      txOff s'.control.channellist id = true ∧
        o.countP TxEvent.isSent + s'.sender.allowed ≤ o.count .spurious + s.sender.allowed) := by
  cases op with
  | command data =>
    simp only [txFlow] at h
    split at h
    · cases h
    · rename_i c events hcommand
      cases h
      obtain ⟨hkeeps, hchoked⟩ : FlowTold id s.control c events := handle_command_told hcommand
      have hmem : ∀ e, .control e ∈ events.map TxEvent.control ↔ e ∈ events := by simp
      have hsent : (events.map TxEvent.control).countP TxEvent.isSent = 0 := by
        simp [List.countP_eq_zero, TxEvent.isSent]
      simp only [hmem, hsent]
      refine ⟨fun hsleeps => ?_, fun h => ⟨hchoked h, trivial⟩, fun hoff hreleased => ?_⟩
      · split_ifs at hsleeps with hreleased
        · cases hat : s.sender <;> simp [hat, SenderAt.signal, SenderAt.Sleeps] at hsleeps
        · exact hkeeps hreleased (hs hsleeps)
      · rw [if_neg hreleased]
        exact ⟨hkeeps hreleased hoff, by omega⟩
  | select =>
    simp only [txFlow] at h
    split at h <;> cases h
    exact ⟨False.elim, by simp, fun hoff _ => ⟨hoff, Nat.zero_le _⟩⟩
  | lock =>
    simp only [txFlow] at h
    split at h <;> cases h
    by_cases hoff : txOff s.control.channellist id = true
    · rw [if_pos hoff]
      exact ⟨fun _ => hoff, by simp, fun _ _ => ⟨hoff, Nat.zero_le _⟩⟩
    · rw [if_neg hoff]
      exact ⟨False.elim, by simp, fun h => absurd h hoff⟩
  | wake =>
    simp only [txFlow] at h
    split at h <;> cases h
    rename_i n signaled hat
    rw [hat]
    cases signaled <;>
      exact ⟨False.elim, by simp, fun hoff _ => ⟨hoff, by simp [SenderAt.allowed, TxEvent.isSent]⟩⟩
  | read result =>
    simp only [txFlow] at h
    split at h <;> cases h
    rename_i n hat
    obtain ⟨hsleeps, hcontrol, hle⟩ := allowed_read n result
    rw [hat]
    exact ⟨fun h => absurd h hsleeps, fun h => absurd h (hcontrol _),
      fun hoff _ => ⟨hoff, hle.trans (Nat.le_add_left _ _)⟩⟩

/-! ### Runs -/

/-- The thread sleeps only while the flow is off; and since it was switched off, no more has been
sent, and may still be sent, than one read and one more for each wake-up without a signal. -/
def Restrained (id : ℕ) (s : TxFlow) (os : List TxEvent) : Prop :=
  (s.sender.Sleeps → txOff s.control.channellist id = true) ∧
  ∀ os₁ os₂, os = os₁ ++ .control (.choked id) :: os₂ → .control (.released id) ∉ os₂ →
    txOff s.control.channellist id = true ∧
      os₂.countP TxEvent.isSent + s.sender.allowed ≤ os₂.count .spurious + 1

theorem Restrained.step (hs : Restrained id s os) (h : txFlow calloc id s op = .ok (s', o)) :
    Restrained id s' (os ++ o) := by
  obtain ⟨hsleeps, hchoked, hkeeps⟩ := txFlow_step h hs.1
  refine ⟨hsleeps, fun os₁ os₂ heq hreleased => ?_⟩
  by_cases hbefore : ∃ r, os = os₁ ++ .control (.choked id) :: r
  · obtain ⟨r, rfl⟩ := hbefore
    rw [List.append_assoc, List.append_cancel_left_eq, List.cons_append, List.cons.injEq] at heq
    obtain ⟨-, rfl⟩ := heq
    rw [List.mem_append, not_or] at hreleased
    obtain ⟨hoff, hle⟩ := hs.2 os₁ r rfl hreleased.1
    obtain ⟨hoff', hle'⟩ := hkeeps hoff hreleased.2
    rw [List.countP_append, List.count_append]
    exact ⟨hoff', by omega⟩
  · -- this step has switched the flow off
    have hin : ∃ r, o = r ++ .control (.choked id) :: os₂ := by
      obtain ⟨r, -, hr⟩ | ⟨r, hr, hr'⟩ := List.append_eq_append_iff.mp heq
      · exact ⟨r, hr⟩
      · cases r with
        | nil => exact ⟨[], hr'.symm⟩
        | cons e r => exact absurd ⟨r, by rw [hr, (List.cons.inj hr').1]⟩ hbefore
    obtain ⟨r, rfl⟩ := hin
    obtain ⟨hoff, hzero⟩ := hchoked (by simp)
    rw [List.countP_append, List.countP_cons] at hzero
    have hle := allowed_le s'.sender
    exact ⟨hoff, by omega⟩

/-- **The flow control of the sending side**: whoever sleeps without a signal is switched off, so no
wake-up is lost; and from where the modem has switched a channel off until it is switched on again,
at most one read is sent, and one more for each wake-up without a signal. -/
theorem tx_flow_control (h : (txFlow calloc id).Runs ⟨control, .selecting⟩ ops s os) :
    (s.sender.Sleeps → txOff s.control.channellist id = true) ∧
    ∀ os₁ os₂, os = os₁ ++ .control (.choked id) :: os₂ → .control (.released id) ∉ os₂ →
      os₂.countP TxEvent.isSent ≤ os₂.count .spurious + 1 := by
  have hall : Restrained id s os :=
    h.invariant (I := fun _ s os => Restrained id s os) ⟨False.elim, by simp⟩
      fun _ _ _ _ _ _ hs hstep => hs.step hstep
  exact ⟨hall.1, fun os₁ os₂ heq hreleased =>
    (Nat.le_add_right _ _).trans (hall.2 os₁ os₂ heq hreleased).2⟩

/-- A read is let through, then the channel is choked, and what has been read is sent. -/
def letThroughOps : List TxOp :=
  [.select, .lock, .command [0xE3, 0x05, 0x7F, 0x03], .read (.data [7])]

theorem tx_flow_control_letThrough :
    ∃ s os os₂, (txFlow (fun _ => true) 31).Runs ⟨openChannels, .selecting⟩ letThroughOps s os ∧
      os = .control (.choked 31) :: os₂ ∧ os₂.countP TxEvent.isSent = 1 ∧
      os₂.countP TxEvent.isSent ≤ os₂.count .spurious + 1 := by
  obtain ⟨s, os, hrun, hos⟩ : ∃ s os,
      (txFlow (fun _ => true) 31).Runs ⟨openChannels, .selecting⟩ letThroughOps s os ∧
      os = [.control (.choked 31),
        .control (.written 0 [0xE1, 0x05, 0x7F, 0x03] GSM0710_TYPE_UIH), .sent [7]] :=
    Machine.exists_run_of_shows (by decide +kernel)
  subst hos
  exact ⟨s, _, _, hrun, rfl, by decide, (tx_flow_control hrun).2 [] _ rfl (by decide)⟩

end MtkHardware.Gsm0710
