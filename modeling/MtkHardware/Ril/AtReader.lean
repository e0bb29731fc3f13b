import MtkHardware.Util.Run
import Mathlib.Data.Int.Notation

/-!
# The Reader of an AT Channel

The reader thread hands each line of the modem to `processLine`, which takes it for the command that
is pending or for an unsolicited response; a `> ` asks for the PDU of an SMS. Two lines that begin
with the header of an unsolicited SMS are handed over together. The command is pending until its
thread clears it.
-/

namespace MtkHardware.Ril

abbrev Line := List UInt8

def cString (s : String) : Line := s.toList.map fun c => c.toNat.toUInt8

def strStartsWith (line pre : Line) : Bool := pre.isPrefixOf line

def s_finalResponsesError : List Line :=
  ["ERROR", "+CMS ERROR:", "+CME ERROR:", "NO CARRIER", "NO ANSWER", "NO DIALTONE"].map cString

def isFinalResponseError (line : Line) : Bool := s_finalResponsesError.any (strStartsWith line)

def s_finalResponsesSuccess : List Line := ["OK", "CONNECT"].map cString

def isFinalResponseSuccess (line : Line) : Bool :=
  s_finalResponsesSuccess.any (strStartsWith line)

def s_reqAck : List Line := ["ACK"].map cString

def isRequestAcked (line : Line) : Bool := s_reqAck.any (strStartsWith line)

def s_smsUnsoliciteds : List Line := ["+CMT:", "+CDS:", "+CBM:"].map cString

def isSMSUnsolicited (line : Line) : Bool := s_smsUnsoliciteds.any (strStartsWith line)

def prompt : Line := cString "> "

inductive ATCommandType
  | NO_RESULT
  | NUMERIC
  | SINGLELINE
  | MULTILINE
  | RAW
  deriving DecidableEq, Repr

structure ATResponse where
  success : Bool := false
  finalResponse : Option Line := none
  p_intermediates : List Line := []
  ack : Bool := false
  deriving DecidableEq, Repr

structure RILChannelCtx where
  fd : ℤ
  readerClosed : Bool := false
  type : ATCommandType := .NO_RESULT
  responsePrefix : Line := []
  smsPDU : Option Line := none
  p_response : Option ATResponse := none
  deriving DecidableEq, Repr

inductive Consumed
  | requestAck
  | intermediate (line : Line)
  | final (line : Line)
  /-- The prompt, with what is written to the modem. -/
  | prompt (written : Line)
  | unsolicited (s : Line) (sms_pdu : Option Line)
  deriving DecidableEq, Repr

namespace RILChannelCtx

variable (p_channel : RILChannelCtx)

def writeCtrlZ (s : Line) : Line :=
  if p_channel.fd < 0 ∨ p_channel.readerClosed then [] else s ++ [0x1A]

/-- Is the line an intermediate response to the pending command? -/
def isIntermediate (p_response : ATResponse) (line : Line) : Bool :=
  match p_channel.type with
  | .NO_RESULT => false
  | .NUMERIC =>
    p_response.p_intermediates.isEmpty &&
      line.head?.any fun c => 0x30 ≤ c && c ≤ 0x39
  | .SINGLELINE =>
    p_response.p_intermediates.isEmpty && strStartsWith line p_channel.responsePrefix
  | .MULTILINE => strStartsWith line p_channel.responsePrefix
  | .RAW => !isFinalResponseSuccess line && !isFinalResponseError line

def setResponse (p_response : ATResponse) : RILChannelCtx :=
  { p_channel with p_response := some p_response }

def addIntermediate (p_response : ATResponse) (line : Line) : RILChannelCtx :=
  p_channel.setResponse
    { p_response with p_intermediates := line :: p_response.p_intermediates }

def handleFinalResponse (p_response : ATResponse) (success : Bool) (line : Line) : RILChannelCtx :=
  p_channel.setResponse { p_response with success, finalResponse := some line }

/-- The line is taken, and what for. `smsPDU` is a copy of the field: to set it to `NULL` behind a
prompt leaves the field as it is. -/
def processLine (line : Line) : RILChannelCtx × List Consumed :=
  let smsPDU := p_channel.smsPDU
  match p_channel.p_response with
  | none => (p_channel, [.unsolicited line none])
  | some p_response =>
    let isRequestAck := isRequestAcked line
    let isIntermediateResult := !isRequestAck && p_channel.isIntermediate p_response line
    let (p_channel, added) :=
      if isIntermediateResult then
        (p_channel.addIntermediate p_response line, [Consumed.intermediate line])
      else (p_channel, [])
    let (p_channel, handled) :=
      if isRequestAck then
        (p_channel.setResponse { p_response with ack := true }, [Consumed.requestAck])
      else if isIntermediateResult then (p_channel, [])
      else if isFinalResponseSuccess line then
        (p_channel.handleFinalResponse p_response true line, [.final line])
      else if isFinalResponseError line then
        (p_channel.handleFinalResponse p_response false line, [.final line])
      else
        match smsPDU with
        | some pdu =>
          if line = prompt then (p_channel, [.prompt (p_channel.writeCtrlZ pdu)])
          else (p_channel, [.unsolicited line none])
        | none => (p_channel, [.unsolicited line none])
    (p_channel, added ++ handled)

def at_send_command_sms (pdu responsePrefix : Line) : Option RILChannelCtx :=
  if p_channel.p_response.isSome then none
  else if p_channel.fd < 0 ∨ p_channel.readerClosed then none
  else
    some { p_channel with
      type := .SINGLELINE, responsePrefix, smsPDU := some pdu, p_response := some {} }

end RILChannelCtx

/-- The reader thread: the channel, and the first line of an unsolicited SMS. -/
structure Reader where
  p_channel : RILChannelCtx
  line1 : Option Line := none
  deriving DecidableEq, Repr

/-- **The loop of the reader**, a step for each line. -/
def readerLoop : Machine Reader Line Consumed Empty := fun s line =>
  match s.line1 with
  | some line1 => .ok ({ s with line1 := none }, [.unsolicited line1 (some line)])
  | none =>
    if isSMSUnsolicited line then .ok ({ s with line1 := some line }, [])
    else
      let (p_channel, consumed) := s.p_channel.processLine line
      .ok ({ s with p_channel }, consumed)

/-! ### A line -/

def Consumed.isPrompt : Consumed → Bool
  | .prompt _ => true
  | _ => false

/-- The line may be taken for the intermediate response to a command of a single line. -/
def answers (responsePrefix line : Line) : Bool :=
  !isRequestAcked line && strStartsWith line responsePrefix

theorem prompt_not_acked : isRequestAcked prompt = false := by decide

theorem prompt_not_final : isFinalResponseSuccess prompt = false ∧
    isFinalResponseError prompt = false := by decide

/-- The command of an SMS is **pending**, with or without an intermediate response. -/
structure Pending (pdu responsePrefix : Line) (fresh : Bool) (p_channel : RILChannelCtx) :
    Prop where
  fd : ¬ p_channel.fd < 0
  readerClosed : p_channel.readerClosed = false
  type : p_channel.type = .SINGLELINE
  responsePrefix : p_channel.responsePrefix = responsePrefix
  smsPDU : p_channel.smsPDU = some pdu
  p_response : ∃ r, p_channel.p_response = some r ∧ r.p_intermediates.isEmpty = fresh

section Lines

variable {p_channel p_channel' : RILChannelCtx} {pdu responsePrefix line : Line} {fresh : Bool}
  {r : ATResponse}

theorem Pending.setResponse (h : Pending pdu responsePrefix fresh p_channel) (r : ATResponse) :
    Pending pdu responsePrefix r.p_intermediates.isEmpty (p_channel.setResponse r) :=
  ⟨h.fd, h.readerClosed, h.type, h.responsePrefix, h.smsPDU, r, rfl, rfl⟩

/-- **What a line does** while the command is pending. -/
theorem Pending.processLine (h : Pending pdu responsePrefix fresh p_channel) (line : Line) :
    ∃ p_channel' c, p_channel.processLine line = (p_channel', [c]) ∧
      Pending pdu responsePrefix (fresh && !answers responsePrefix line) p_channel' ∧
      (if line = prompt ∧ (fresh && answers responsePrefix line) = false then
        c = .prompt (pdu ++ [0x1A])
      else c.isPrompt = false) := by
  obtain ⟨r, hr, hfresh⟩ := h.p_response
  have hintermediate : p_channel.isIntermediate r line =
      (fresh && strStartsWith line responsePrefix) := by
    rw [RILChannelCtx.isIntermediate, h.type, h.responsePrefix, hfresh]
  have hwritten : p_channel.writeCtrlZ pdu = pdu ++ [0x1A] := by
    rw [RILChannelCtx.writeCtrlZ, h.readerClosed, if_neg (by simpa using h.fd)]
  rw [RILChannelCtx.processLine, hr, h.smsPDU]
  dsimp only
  rw [hintermediate, answers]
  cases hacked : isRequestAcked line with
  | true =>
    have hne : line ≠ prompt := fun heq => by
      rw [heq, prompt_not_acked] at hacked
      cases hacked
    refine ⟨_, _, rfl, ?_, ?_⟩
    · have hset := h.setResponse { r with ack := true }
      simpa [hfresh] using hset
    · rw [if_neg fun hbad => hne hbad.1]
      rfl
  | false =>
    cases htaken : fresh && strStartsWith line responsePrefix with
    | true =>
      obtain ⟨rfl, hstarts⟩ := Bool.and_eq_true_iff.mp htaken
      rw [hstarts]
      refine ⟨p_channel.addIntermediate r line, .intermediate line, rfl, ?_, ?_⟩
      · exact h.setResponse { r with p_intermediates := line :: r.p_intermediates }
      · rw [if_neg (by simp)]
        rfl
    | false =>
      have hstays : (fresh && !(!false && strStartsWith line responsePrefix)) = fresh := by
        cases fresh with
        | false => rfl
        | true =>
          have hstarts : strStartsWith line responsePrefix = false := by simpa using htaken
          rw [hstarts]
          rfl
      rw [hstays]
      simp only [Bool.not_false, Bool.true_and, htaken, and_true, Bool.and_false,
        Bool.false_eq_true, if_false, List.nil_append]
      by_cases hprompt : line = prompt
      · subst hprompt
        refine ⟨p_channel, .prompt (pdu ++ [0x1A]), ?_, h, by rw [if_pos rfl]⟩
        rw [prompt_not_final.1, prompt_not_final.2, hwritten]
        rfl
      · simp only [if_neg hprompt]
        split
        · have hset : Pending pdu responsePrefix r.p_intermediates.isEmpty
              (p_channel.handleFinalResponse r true line) :=
            h.setResponse { r with success := true, finalResponse := some line }
          rw [hfresh] at hset
          exact ⟨_, _, rfl, hset, rfl⟩
        split
        · have hset : Pending pdu responsePrefix r.p_intermediates.isEmpty
              (p_channel.handleFinalResponse r false line) :=
            h.setResponse { r with success := false, finalResponse := some line }
          rw [hfresh] at hset
          exact ⟨_, _, rfl, hset, rfl⟩
        · exact ⟨_, _, rfl, h, rfl⟩

end Lines

/-! ### All the lines -/

/-- The lines that are handed to `processLine`: not the two of an unsolicited SMS. -/
def handed : Option Line → List Line → List Line
  | _, [] => []
  | some _, _ :: lines => handed none lines
  | none, line :: lines =>
    if isSMSUnsolicited line then handed (some line) lines else line :: handed none lines

/-- Is the intermediate response to the command a prompt? -/
def promptAnswers (responsePrefix : Line) (lines : List Line) : Bool :=
  lines.find? (answers responsePrefix) = some prompt

theorem promptAnswers_cons (responsePrefix line : Line) (lines : List Line) :
    promptAnswers responsePrefix (line :: lines) =
      if answers responsePrefix line then decide (line = prompt)
      else promptAnswers responsePrefix lines := by
  rw [promptAnswers, promptAnswers, List.find?_cons]
  cases answers responsePrefix line with
  | true => simp
  | false => rfl

section Runs

variable {pdu responsePrefix : Line} {fresh : Bool} {s : Reader}

/-- **All the lines**: the PDU is written for each prompt but the one that is taken for the
intermediate response. -/
theorem Pending.runs (h : Pending pdu responsePrefix fresh s.p_channel) (lines : List Line) :
    ∃ s' os, readerLoop.Runs s lines s' os ∧
      os.countP Consumed.isPrompt +
          (if fresh && promptAnswers responsePrefix (handed s.line1 lines) then 1 else 0) =
        (handed s.line1 lines).count prompt ∧
      ∀ w, .prompt w ∈ os → w = pdu ++ [0x1A] := by
  induction lines generalizing s fresh with
  | nil =>
    refine ⟨s, [], .init, ?_, fun w hw => nomatch hw⟩
    cases s.line1 <;> simp [handed, promptAnswers]
  | cons line lines ih =>
    cases hline1 : s.line1 with
    | some line1 =>
      obtain ⟨s', os, hruns, hcount, hpdu⟩ := ih (s := ⟨s.p_channel, none⟩) h
      refine ⟨s', .unsolicited line1 (some line) :: os, ?_, ?_, ?_⟩
      · refine Machine.runs_cons_iff.mpr
          ⟨_, [.unsolicited line1 (some line)], os, ?_, hruns, rfl⟩
        rw [readerLoop, hline1]
      · rw [List.countP_cons_of_neg (by simp [Consumed.isPrompt])]
        exact hcount
      · exact fun w hw => hpdu w (by simpa using hw)
    | none =>
      rw [handed]
      split
      · rename_i hsms
        obtain ⟨s', os, hruns, hcount, hpdu⟩ := ih (s := ⟨s.p_channel, some line⟩) h
        refine ⟨s', os, Machine.runs_cons_iff.mpr ⟨_, [], os, ?_, hruns, rfl⟩, hcount, hpdu⟩
        rw [readerLoop, hline1]
        dsimp only
        rw [if_pos hsms]
      · rename_i hsms
        obtain ⟨p_channel', c, hprocess, h', hc⟩ := h.processLine line
        obtain ⟨s', os, hruns, hcount, hpdu⟩ := ih (s := ⟨p_channel', none⟩) h'
        refine ⟨s', c :: os, Machine.runs_cons_iff.mpr ⟨_, [c], os, ?_, hruns, rfl⟩, ?_, ?_⟩
        · rw [readerLoop, hline1]
          dsimp only
          rw [if_neg hsms, hprocess]
        · rw [List.countP_cons, promptAnswers_cons, List.count_cons]
          dsimp only at hcount
          have hone : (if c.isPrompt then 1 else 0) +
              (if fresh && answers responsePrefix line && decide (line = prompt) then 1
                else 0) =
              if line == prompt then 1 else 0 := by
            by_cases hprompt : line = prompt
            · cases hanswers : fresh && answers responsePrefix line with
              | false =>
                rw [if_pos ⟨hprompt, hanswers⟩] at hc
                simp [hc, hprompt, Consumed.isPrompt]
              | true =>
                rw [if_neg fun hbad => by rw [hanswers] at hbad; cases hbad.2] at hc
                simp [hc, hprompt]
            · rw [if_neg fun hbad => hprompt hbad.1] at hc
              simp [hc, hprompt]
          cases hanswers : answers responsePrefix line with
          | true =>
            rw [hanswers] at hcount hone
            simp only [Bool.not_true, Bool.and_false, Bool.false_and, Bool.false_eq_true,
              if_false, Bool.and_true, if_true] at hcount hone ⊢
            omega
          | false =>
            rw [hanswers] at hcount hone
            simp only [Bool.not_false, Bool.and_false, Bool.false_and, Bool.false_eq_true,
              if_false, Bool.and_true] at hcount hone ⊢
            omega
        · intro w hw
          rcases List.mem_cons.mp hw with rfl | hw
          · split at hc
            · exact Consumed.prompt.inj hc
            · cases hc
          · exact hpdu w hw

end Runs

theorem pending_of_send {p_channel p_channel' : RILChannelCtx} {pdu responsePrefix : Line}
    (h : p_channel.at_send_command_sms pdu responsePrefix = some p_channel') :
    Pending pdu responsePrefix true p_channel' := by
  rw [RILChannelCtx.at_send_command_sms] at h
  split at h
  · cases h
  split at h
  · cases h
  · rename_i hopen
    cases h
    rw [not_or, Bool.not_eq_true] at hopen
    exact ⟨hopen.1, hopen.2, rfl, rfl, rfl, _, rfl, rfl⟩

theorem consumed_once {pdu responsePrefix : Line} {fresh : Bool} {s : Reader}
    (h : Pending pdu responsePrefix fresh s.p_channel) (line : Line) : ∃ s' o fresh',
    readerLoop s line = .ok (s', o) ∧ o.length + s'.line1.toList.length = 1 ∧
      Pending pdu responsePrefix fresh' s'.p_channel := by
  cases hline1 : s.line1 with
  | some line1 =>
    refine ⟨⟨s.p_channel, none⟩, [.unsolicited line1 (some line)], fresh, ?_, rfl, h⟩
    rw [readerLoop, hline1]
  | none =>
    by_cases hsms : isSMSUnsolicited line
    · refine ⟨⟨s.p_channel, some line⟩, [], fresh, ?_, rfl, h⟩
      rw [readerLoop, hline1]
      dsimp only
      rw [if_pos hsms]
    · obtain ⟨p_channel', c, hprocess, h', -⟩ := h.processLine line
      refine ⟨⟨p_channel', none⟩, [c], _, ?_, rfl, h'⟩
      rw [readerLoop, hline1]
      dsimp only
      rw [if_neg hsms, hprocess]

/-- Of the lines behind the command, each is consumed in exactly one way, and the PDU is written at
most once. -/
structure WrittenOnce (pdu : Line) (p_channel : RILChannelCtx) (lines : List Line) : Prop where
  consumed : ∀ before line behind s os, lines = before ++ line :: behind →
    readerLoop.Runs ⟨p_channel, none⟩ before s os →
    ∃ s' o, readerLoop s line = .ok (s', o) ∧ o.length + s'.line1.toList.length = 1
  written : ∃ s os, readerLoop.Runs ⟨p_channel, none⟩ lines s os ∧
    os.countP Consumed.isPrompt ≤ 1 ∧ ∀ w, .prompt w ∈ os → w = pdu ++ [0x1A]

/-- **The PDU is written at most once** exactly when at most one prompt is handed to `processLine`,
not counting one that is taken for the intermediate response. -/
theorem written_once_iff {p_channel p_channel' : RILChannelCtx} {pdu responsePrefix : Line}
    (hsend : p_channel.at_send_command_sms pdu responsePrefix = some p_channel')
    (lines : List Line) :
    WrittenOnce pdu p_channel' lines ↔
      (handed none lines).count prompt ≤
        1 + if promptAnswers responsePrefix (handed none lines) then 1 else 0 := by
  have hpending := pending_of_send hsend
  obtain ⟨s', os, hruns, hcount, hpdu⟩ := hpending.runs (s := ⟨p_channel', none⟩) lines
  rw [Bool.true_and] at hcount
  dsimp only at hcount
  constructor
  · intro h
    obtain ⟨s'', os', hruns', hle, -⟩ := h.written
    obtain ⟨-, rfl⟩ := hruns.deterministic hruns'
    omega
  · intro hle
    refine ⟨fun before line behind s os' _ hbefore => ?_, s', os, hruns, by omega, hpdu⟩
    have hreached : ∃ fresh, Pending pdu responsePrefix fresh s.p_channel :=
      hbefore.invariant (I := fun _ s _ => ∃ fresh, Pending pdu responsePrefix fresh s.p_channel)
        ⟨true, hpending⟩ fun _ s _ line s' o ⟨fresh, h⟩ hstep => by
          obtain ⟨s'', o', fresh', hstep', -, h'⟩ := consumed_once h line
          rw [hstep'] at hstep
          cases hstep
          exact ⟨fresh', h'⟩
    obtain ⟨fresh, h⟩ := hreached
    obtain ⟨s'', o, -, hstep, hlength, -⟩ := consumed_once h line
    exact ⟨s'', o, hstep, hlength⟩

def openChannel : RILChannelCtx := { fd := 3 }

def smsChannel : RILChannelCtx :=
  { openChannel with
    type := .SINGLELINE, responsePrefix := cString "+CMGS:", smsPDU := some (cString "00"),
    p_response := some {} }

/-- One prompt, and the response. -/
theorem written_once_prompt :
    WrittenOnce (cString "00") smsChannel [prompt, cString "+CMGS: 1", cString "OK"] := by
  have hsend : openChannel.at_send_command_sms (cString "00") (cString "+CMGS:") =
      some smsChannel := rfl
  exact (written_once_iff hsend _).mpr (by decide)

/-- Two prompts, and the PDU is written twice. -/
theorem written_twice :
    openChannel.at_send_command_sms (cString "00") (cString "+CMGS:") = some smsChannel ∧
      readerLoop.Runs ⟨smsChannel, none⟩ [prompt, prompt] ⟨smsChannel, none⟩
        [.prompt [0x30, 0x30, 0x1A], .prompt [0x30, 0x30, 0x1A]] ∧
      ¬ WrittenOnce (cString "00") smsChannel [prompt, prompt] := by
  have hruns : readerLoop.Runs ⟨smsChannel, none⟩ [prompt, prompt] ⟨smsChannel, none⟩
      [.prompt [0x30, 0x30, 0x1A], .prompt [0x30, 0x30, 0x1A]] := Machine.runs_of_run rfl
  refine ⟨rfl, hruns, fun h => ?_⟩
  obtain ⟨s, os, hruns', hle, -⟩ := h.written
  obtain ⟨-, rfl⟩ := hruns.deterministic hruns'
  exact absurd hle (by decide)

end MtkHardware.Ril
