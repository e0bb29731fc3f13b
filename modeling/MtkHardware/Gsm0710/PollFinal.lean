import MtkHardware.Gsm0710.Frame
import MtkHardware.Util.Run

/-!
# The P/F Bit

The modem asks for an answer by the P/F bit of a UI or UIH frame. `extract_frames` notes that in
`uih_pf_bit_received`, for all threads, and the `write_frame` that sends the answer, an MSC response
on channel 0, sets the bit in it and resets the note. `write_frame` knows the answer by the first
byte of what it sends only, which it compares with the type of an MSC up to the C/R bit. So data on
any other channel is taken for the answer when it begins with such a byte, and so is an MSC command.
-/

namespace MtkHardware.Gsm0710

/-- The arguments of a call of `write_frame`. -/
structure WriteCall where
  channel : UInt8
  input : List UInt8
  type : UInt8
  deriving DecidableEq, Repr

def WriteCall.IsMscResponse (call : WriteCall) : Prop :=
  call.channel = 0 ∧ call.input.head? = some GSM0710_CONTROL_MSC

instance (call : WriteCall) : Decidable call.IsMscResponse := by
  unfold WriteCall.IsMscResponse
  infer_instance

/-- `uih_pf_bit_received`, and the call of `write_frame` that has seen it set and not reset it
yet. This call holds `write_frame_lock`. -/
structure PollFinal where
  uih_pf_bit_received : Bool := false
  resetting : Option WriteCall := none
  deriving DecidableEq, Repr

/-- What the threads do with `uih_pf_bit_received`: `receive` is `extract_frames` with a frame of
this control field, `write` is `write_frame` to where the control field is there, `reset` is where
it resets `uih_pf_bit_received`. -/
inductive PollOp
  | receive (control : UInt8)
  | write (call : WriteCall)
  | reset
  deriving DecidableEq, Repr

/-- A frame has been given its control field, or `uih_pf_bit_received` has been reset. -/
inductive PollEvent
  | sent (call : WriteCall) (control : UInt8)
  | answered (call : WriteCall)
  deriving DecidableEq, Repr

/-- `GSM0710_FRAME_IS(GSM0710_TYPE_UIH, frame)`. -/
def isUIH (control : UInt8) : Bool := control &&& ~~~GSM0710_PF == GSM0710_TYPE_UIH

/-- `extract_frames` sets `uih_pf_bit_received` at any time; it does not take `write_frame_lock`. -/
def pollFinal : Machine PollFinal PollOp PollEvent Blocked
  | s, .receive control =>
    if (isUI control ∨ isUIH control) ∧ control &&& GSM0710_PF ≠ 0 then
      .ok ({ s with uih_pf_bit_received := true }, [])
    else .ok (s, [])
  | s, .write call =>
    match s.resetting with
    | some _ => .error .blocked
    | none =>
      let control := controlField s.uih_pf_bit_received call.input call.type
      .ok ({ s with
        resetting := if control.2 = s.uih_pf_bit_received then none else some call },
        [.sent call control.1])
  | s, .reset =>
    match s.resetting with
    | none => .error .blocked
    | some call =>
      .ok ({ s with uih_pf_bit_received := false, resetting := none }, [.answered call])

namespace PollFinal

/-- Does `write_frame` take the call for the answer to a P/F bit? -/
def TakesForAnswer (s : PollFinal) (call : WriteCall) : Prop :=
  (call.type = GSM0710_TYPE_UIH ∨ call.type = GSM0710_TYPE_UI) ∧ s.uih_pf_bit_received ∧
    GSM0710_COMMAND_IS (call.input.headD 0) GSM0710_CONTROL_MSC

instance (s : PollFinal) (call : WriteCall) : Decidable (s.TakesForAnswer call) := by
  unfold TakesForAnswer
  infer_instance

/-- **The condition**: what is taken for the answer is the answer. -/
def Answers (s : PollFinal) : PollOp → Prop
  | .write call => s.TakesForAnswer call → call.IsMscResponse
  | _ => True

instance (s : PollFinal) : (op : PollOp) → Decidable (s.Answers op)
  | .write call => inferInstanceAs (Decidable (s.TakesForAnswer call → call.IsMscResponse))
  | .receive _ => isTrue trivial
  | .reset => isTrue trivial

end PollFinal

/-- **The law**: a frame that is no MSC response on channel 0 is sent with the control field that
the caller asks for, and does not reset `uih_pf_bit_received`. -/
def PollEvent.Lawful : PollEvent → Prop
  | .sent call control => ¬ call.IsMscResponse → control = call.type
  | .answered call => call.IsMscResponse

namespace PollFinal

variable {s s' : PollFinal} {op : PollOp} {ops : List PollOp} {os o : List PollEvent}
  {call : WriteCall}

/-! ### What a step does -/

theorem controlField_of_takes (h : s.TakesForAnswer call) :
    controlField s.uih_pf_bit_received call.input call.type =
      (call.type ||| GSM0710_PF, false) := if_pos h

theorem controlField_of_not_takes (h : ¬ s.TakesForAnswer call) :
    controlField s.uih_pf_bit_received call.input call.type =
      (call.type, s.uih_pf_bit_received) := if_neg h

theorem TakesForAnswer.type_ne (h : s.TakesForAnswer call) :
    call.type ||| GSM0710_PF ≠ call.type := by
  rcases h.1 with htype | htype <;> rw [htype] <;> decide

/-- What a step does to the note, to the call that resets it, and what it lets be seen. -/
inductive Polled (s s' : PollFinal) : PollOp → List PollEvent → Prop
  | received {control : UInt8} (hresetting : s'.resetting = s.resetting)
      (hkept : s.uih_pf_bit_received → s'.uih_pf_bit_received) :
      Polled s s' (.receive control) []
  | taken {call : WriteCall} (htakes : s.TakesForAnswer call)
      (heq : s' = { s with resetting := some call }) :
      Polled s s' (.write call) [.sent call (call.type ||| GSM0710_PF)]
  | unchanged {call : WriteCall} (htakes : ¬ s.TakesForAnswer call)
      (hresetting : s.resetting = none) (heq : s' = s) :
      Polled s s' (.write call) [.sent call call.type]
  | reset {call : WriteCall} (hresetting : s.resetting = some call)
      (heq : s' = { s with uih_pf_bit_received := false, resetting := none }) :
      Polled s s' .reset [.answered call]

theorem polled_of_step (hstep : pollFinal s op = .ok (s', o)) : Polled s s' op o := by
  cases op with
  | receive control =>
    rw [pollFinal] at hstep
    split at hstep
    · cases hstep
      exact .received rfl fun _ => rfl
    · cases hstep
      exact .received rfl id
  | write call =>
    rw [pollFinal] at hstep
    split at hstep
    · cases hstep
    · rename_i hresetting
      by_cases htakes : s.TakesForAnswer call
      · have hnote : s.uih_pf_bit_received = true := htakes.2.1
        have hreset : false ≠ s.uih_pf_bit_received := by simp [hnote]
        simp only [controlField_of_takes htakes, if_neg hreset] at hstep
        cases hstep
        exact .taken htakes rfl
      · simp only [controlField_of_not_takes htakes, if_true] at hstep
        cases hstep
        exact .unchanged htakes hresetting (by rw [← hresetting])
  | reset =>
    rw [pollFinal] at hstep
    split at hstep
    · cases hstep
    · rename_i call hresetting
      cases hstep
      exact .reset hresetting rfl

/-! ### Runs -/

theorem sent_of_resetting (hrun : pollFinal.Runs {} ops s os) (h : s.resetting = some call) :
    ∃ s₀ : PollFinal, s₀.TakesForAnswer call ∧
      .sent call (call.type ||| GSM0710_PF) ∈ os := by
  refine hrun.invariant (I := fun _ s os => ∀ call, s.resetting = some call →
    ∃ s₀ : PollFinal, s₀.TakesForAnswer call ∧ .sent call (call.type ||| GSM0710_PF) ∈ os)
    (fun call h => by cases h) ?_ call h
  intro ops s os op s' o hI hstep call h
  cases polled_of_step hstep with
  | received hresetting _ =>
    rw [hresetting] at h
    simpa using hI call h
  | taken htakes heq =>
    rw [heq] at h
    cases h
    exact ⟨s, htakes, by simp⟩
  | unchanged _ hresetting heq =>
    rw [heq, hresetting] at h
    cases h
  | reset _ heq =>
    rw [heq] at h
    cases h

/-- In a run that was lawful, the next step is lawful exactly when it meets the condition. -/
theorem lawful_snoc_iff (hrun : pollFinal.Runs {} ops s os) (hlawful : ∀ e ∈ os, e.Lawful)
    (hstep : pollFinal s op = .ok (s', o)) :
    (∀ e ∈ os ++ o, e.Lawful) ↔ s.Answers op := by
  have hlast : (∀ e ∈ os ++ o, e.Lawful) ↔ ∀ e ∈ o, e.Lawful := by
    simp only [List.forall_mem_append, and_iff_right_iff_imp]
    exact fun _ => hlawful
  rw [hlast]
  cases polled_of_step hstep with
  | received _ _ => simp [Answers]
  | @taken call htakes _ =>
    simp only [List.mem_singleton, forall_eq, PollEvent.Lawful, Answers]
    constructor
    · intro h _
      by_contra hresponse
      exact htakes.type_ne (h hresponse)
    · intro h hresponse
      exact absurd (h htakes) hresponse
  | unchanged htakes _ _ =>
    simp only [List.mem_singleton, forall_eq, PollEvent.Lawful, Answers]
    exact ⟨fun _ h => absurd h htakes, fun _ _ => trivial⟩
  | @reset call hresetting _ =>
    simp only [List.mem_singleton, forall_eq, PollEvent.Lawful, Answers, iff_true]
    obtain ⟨s₀, htakes, hsent⟩ := sent_of_resetting hrun hresetting
    by_contra hresponse
    exact htakes.type_ne (hlawful _ hsent hresponse)

/-- **The answers**: all that a run lets be seen is lawful exactly when no call is taken for the
answer that is not it. In any run the note disappears only where a call resets it. -/
theorem answered_iff (hrun : pollFinal.Runs {} ops s os) :
    (pollFinal.RunsMeeting (fun _ => Answers) {} ops s os ↔ ∀ e ∈ os, e.Lawful) ∧
    (∀ op s' o, pollFinal s op = .ok (s', o) → s.uih_pf_bit_received = true →
      s'.uih_pf_bit_received = false → ∃ call, .answered call ∈ o) := by
  constructor
  · have hiff := Machine.Runs.meeting_iff (C := fun _ => Answers)
      (I := fun os _ => ∀ e ∈ os, e.Lawful) (by simp)
      (fun _ _ _ _ _ _ hrun hI hstep => lawful_snoc_iff hrun hI hstep) hrun
    refine hiff.trans ⟨fun h => h ops [] s os (by simp) hrun, fun h => ?_⟩
    rintro ops₁ ops₂ s₁ os₁ rfl hrun₁
    obtain ⟨s₂, os₂, os₃, hrun₂, -, rfl⟩ := hrun.split
    obtain ⟨-, rfl⟩ := hrun₁.deterministic hrun₂
    exact fun e he => h e (List.mem_append_left _ he)
  · intro op s' o hstep hnote hnote'
    cases polled_of_step hstep with
    | received _ hkept => rw [hkept hnote] at hnote'; cases hnote'
    | taken _ heq => rw [heq, hnote] at hnote'; cases hnote'
    | unchanged _ _ heq => rw [heq, hnote] at hnote'; cases hnote'
    | @reset call _ _ => exact ⟨call, by simp⟩

/-- A UIH frame with the P/F bit is received, and then data is written on a channel. -/
def polledOps (call : WriteCall) : List PollOp :=
  [.receive (GSM0710_TYPE_UIH ||| GSM0710_PF), .write call, .reset]

theorem answered_iff_response : ∃ s os,
    pollFinal.Runs {} (polledOps ⟨0, [0xE1, 5, 0x0B, 0x8D], GSM0710_TYPE_UIH⟩) s os ∧
    (pollFinal.RunsMeeting (fun _ => Answers) {}
      (polledOps ⟨0, [0xE1, 5, 0x0B, 0x8D], GSM0710_TYPE_UIH⟩) s os ↔ ∀ e ∈ os, e.Lawful) ∧
    ∀ op s' o, pollFinal s op = .ok (s', o) → s.uih_pf_bit_received = true →
      s'.uih_pf_bit_received = false → ∃ call, .answered call ∈ o := by
  obtain ⟨s, os, hrun, -⟩ : ∃ s os,
      pollFinal.Runs {} (polledOps ⟨0, [0xE1, 5, 0x0B, 0x8D], GSM0710_TYPE_UIH⟩) s os ∧
      s.uih_pf_bit_received = false := Machine.exists_run_of_shows (by decide +kernel)
  exact ⟨s, os, hrun, answered_iff hrun⟩

/-- Data on channel 1 that begins with `0xE1` is sent with the P/F bit and resets the note. -/
theorem data_answered : ∃ s os,
    pollFinal.Runs {} (polledOps ⟨1, [0xE1, 0x41], GSM0710_TYPE_UIH⟩) s os ∧
    ¬ ∀ e ∈ os, e.Lawful := by
  obtain ⟨s, os, hrun, hos⟩ : ∃ s os,
      pollFinal.Runs {} (polledOps ⟨1, [0xE1, 0x41], GSM0710_TYPE_UIH⟩) s os ∧
      .answered ⟨1, [0xE1, 0x41], GSM0710_TYPE_UIH⟩ ∈ os :=
    Machine.exists_run_of_shows (by decide +kernel)
  refine ⟨s, os, hrun, fun h => ?_⟩
  have hchannel : (1 : UInt8) = 0 := (h _ hos).1
  cases hchannel

end PollFinal

end MtkHardware.Gsm0710
