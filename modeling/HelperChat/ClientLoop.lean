import HelperChat.CString
import HelperChat.EncDec
import HelperChat.Transition

/-!
# The client's communication loop

The loop in `main` of `3_client.c`, one pass after another: a line typed by the user is
read into `outgoingDatastream` and sent, data from the server is received into the same
buffer. The result of `fgets` is not looked at, so at the end of the input whatever the
buffer holds is sent.

The memory behind the buffer, which a string without NUL runs into, is part of the events.
-/

namespace HelperChat

open CString (fgets store text)
open CountedLoop (writeAll)

/-- The unread input, the buffer, what was sent after the name, the history file, and
whether the server is still connected. -/
structure ChatClient where
  stdin : List UInt8
  outgoingDatastream : List UInt8
  sent : List UInt8
  outputFile : List UInt8
  connected : Bool
deriving DecidableEq

/-- What `select` reports: input, data from the server, or its disconnect. -/
inductive SelectEvent where
  | typed (behind : List UInt8)
  | received (bytes behind : List UInt8)
  | disconnected
deriving DecidableEq

/-- `writeMessageToFile`. -/
def writeMessageToFile (outputFile dataToWriteToFile : List UInt8) : List UInt8 :=
  outputFile ++ text dataToWriteToFile

/-- One pass of the loop. -/
def clientLoopStep (state : ChatClient) (event : SelectEvent) : Option ChatClient :=
  if state.connected then
    match event with
    | .typed behind =>
        let (outgoingDatastream, stdin) :=
          fgets bufferSize state.outgoingDatastream state.stdin
        some { state with
          stdin := stdin
          outgoingDatastream := outgoingDatastream
          sent := state.sent ++ text (outgoingDatastream ++ behind)
          outputFile := writeMessageToFile state.outputFile (outgoingDatastream ++ behind) }
    | .received bytes behind =>
        if 1 ≤ bytes.length ∧ bytes.length ≤ bufferSize then
          let outgoingDatastream := writeAll (List.replicate bufferSize 0) 0 bytes
          some { state with
            outgoingDatastream := outgoingDatastream
            outputFile := writeMessageToFile state.outputFile (outgoingDatastream ++ behind) }
        else none
    | .disconnected =>
        some { state with
          outgoingDatastream := List.replicate bufferSize 0
          connected := false }
  else none

/-- The input behind the piece that is read for the name. -/
def stdinAfterName (nameOfClient stdin : List UInt8) : List UInt8 :=
  (fgets bufferSize nameOfClient stdin).2

/-- The client at its first `select`. The buffers are not initialised. -/
def startClient (nameOfClient outgoingDatastream stdin : List UInt8) : ChatClient :=
  ⟨stdinAfterName nameOfClient stdin, outgoingDatastream, [], [], true⟩

/-- At the end of the input the buffer holds the empty string. -/
def NothingLeftAtEnd (state : ChatClient) : SelectEvent → Prop
  | .typed _ => state.stdin = [] → state.outgoingDatastream[0]? = some 0
  | _ => True

instance (state : ChatClient) : DecidablePred (NothingLeftAtEnd state)
  | .typed _ =>
      inferInstanceAs (Decidable (state.stdin = [] → state.outgoingDatastream[0]? = some 0))
  | .received _ _ => inferInstanceAs (Decidable True)
  | .disconnected => inferInstanceAs (Decidable True)

/-- What was sent and what is unread are the input behind the name. -/
structure SendsInput (input : List UInt8) (state : ChatClient) : Prop where
  bytes : state.sent ++ state.stdin = input
  noNul : 0 ∉ state.stdin
  buffer : state.outgoingDatastream.length = bufferSize

variable {input : List UInt8} {state next : ChatClient} {event : SelectEvent}

/-- The passes of the loop. -/
inductive ClientMove (state : ChatClient) : SelectEvent → ChatClient → Prop
  | sends (behind outgoingDatastream stdin : List UInt8)
      (read : fgets bufferSize state.outgoingDatastream state.stdin = (outgoingDatastream, stdin)) :
      ClientMove state (.typed behind) { state with
        stdin := stdin
        outgoingDatastream := outgoingDatastream
        sent := state.sent ++ text (outgoingDatastream ++ behind)
        outputFile := writeMessageToFile state.outputFile (outgoingDatastream ++ behind) }
  | receives (bytes behind : List UInt8) :
      ClientMove state (.received bytes behind) { state with
        outgoingDatastream := writeAll (List.replicate bufferSize 0) 0 bytes
        outputFile := writeMessageToFile state.outputFile
          (writeAll (List.replicate bufferSize 0) 0 bytes ++ behind) }
  | stops :
      ClientMove state .disconnected { state with
        outgoingDatastream := List.replicate bufferSize 0
        connected := false }

/-- Every computed pass is one of these. -/
theorem client_loop_move (stepped : clientLoopStep state event = some next) :
    ClientMove state event next := by
  simp only [clientLoopStep] at stepped
  split at stepped
  case isFalse => cases stepped
  case isTrue =>
    cases event with
    | typed behind =>
      obtain rfl := Option.some.inj stepped
      exact .sends behind _ _ rfl
    | received bytes behind =>
      simp only at stepped
      split at stepped
      case isFalse => cases stepped
      case isTrue =>
        obtain rfl := Option.some.inj stepped
        exact .receives bytes behind
    | disconnected =>
      obtain rfl := Option.some.inj stepped
      exact .stops

/-- Before the end of the input `fgets` reads a piece of it, and the string in the buffer is
that piece. -/
theorem line_sent {buffer stream : List UInt8} (size : buffer.length = bufferSize)
    (noNul : 0 ∉ stream) (more : stream ≠ []) :
    ∃ piece rest, stream = piece ++ rest ∧
      fgets bufferSize buffer stream = (store buffer piece, rest) ∧ 0 ∉ rest ∧
      ∀ behind, text (store buffer piece ++ behind) = piece := by
  have room : 1 < bufferSize := by decide
  obtain ⟨piece, rest, split, _, short, read⟩ := CString.fgets_reads buffer room more
  rw [split, List.mem_append, not_or] at noNul
  refine ⟨piece, rest, split, read, noNul.2, ?_⟩
  intro behind
  exact CString.text_store_append noNul.1 (size ▸ short) behind

/-- A pass that does not read at the end of the input keeps the buffer and, if it reads,
sends exactly what it reads. -/
theorem SendsInput.step_inside (sends : SendsInput input state)
    (inside : ∀ behind, event = .typed behind → state.stdin ≠ [])
    (stepped : clientLoopStep state event = some next) : SendsInput input next := by
  obtain ⟨bytes, noNul, buffer⟩ := sends
  cases client_loop_move stepped with
  | sends behind outgoingDatastream stdin read =>
    obtain ⟨piece, rest, split, readPiece, noNulRest, sentPiece⟩ :=
      line_sent buffer noNul (inside behind rfl)
    obtain ⟨rfl, rfl⟩ := Prod.mk.inj (read.symm.trans readPiece)
    refine ⟨?_, noNulRest, ?_⟩
    · simp only [sentPiece, List.append_assoc]
      rw [← split]
      exact bytes
    · simpa using buffer
  | receives => exact ⟨bytes, noNul, by simp⟩
  | stops => exact ⟨bytes, noNul, by simp⟩

/-- At the end of the input the string in the buffer is sent, and nothing else changes. -/
theorem typed_at_end {behind : List UInt8} (ended : state.stdin = [])
    (stepped : clientLoopStep state (.typed behind) = some next) :
    next.sent = state.sent ++ text (state.outgoingDatastream ++ behind) ∧
      next.stdin = [] ∧ next.outgoingDatastream = state.outgoingDatastream := by
  cases client_loop_move stepped with
  | sends _ outgoingDatastream stdin read =>
    rw [fgets, if_pos ended] at read
    obtain ⟨rfl, rfl⟩ := Prod.mk.inj read
    exact ⟨rfl, rfl, rfl⟩

/-- The string in a buffer and behind it is empty exactly if the buffer starts with NUL. -/
theorem text_nil_iff {buffer : List UInt8} (nonempty : buffer ≠ []) (behind : List UInt8) :
    text (buffer ++ behind) = [] ↔ buffer[0]? = some 0 := by
  cases buffer with
  | nil => exact absurd rfl nonempty
  | cons first rest =>
    by_cases nul : first = 0
    · simp [text, nul]
    · simp [text, nul]

/-- A pass that meets the condition sends only input. -/
theorem SendsInput.step (sends : SendsInput input state) (nothing : NothingLeftAtEnd state event)
    (stepped : clientLoopStep state event = some next) : SendsInput input next := by
  by_cases ended : ∃ behind, event = .typed behind ∧ state.stdin = []
  · obtain ⟨behind, rfl, empty⟩ := ended
    obtain ⟨sent, stdin, buffer⟩ := typed_at_end empty stepped
    have nonempty : state.outgoingDatastream ≠ [] := by
      apply List.length_pos_iff.mp
      rw [sends.buffer]
      decide
    rw [(text_nil_iff nonempty behind).mpr (nothing empty), List.append_nil] at sent
    refine ⟨?_, ?_, buffer ▸ sends.buffer⟩
    · rw [sent, stdin, ← empty]
      exact sends.bytes
    · rw [stdin]
      exact List.not_mem_nil
  · refine sends.step_inside ?_ stepped
    intro behind typed empty
    exact ended ⟨behind, typed, empty⟩

/-- What was sent stays sent. -/
theorem sent_grows (stepped : clientLoopStep state event = some next) :
    state.sent <+: next.sent := by
  cases client_loop_move stepped with
  | sends => exact List.prefix_append _ _
  | receives | stops => exact List.prefix_refl _

/-- A pass that breaks the condition sends more than the input. -/
theorem SendsInput.exceeds (sends : SendsInput input state)
    (leftover : ¬ NothingLeftAtEnd state event)
    (stepped : clientLoopStep state event = some next) : input.length < next.sent.length := by
  cases event with
  | received | disconnected => exact absurd trivial leftover
  | typed behind =>
    simp only [NothingLeftAtEnd, Classical.not_imp] at leftover
    obtain ⟨ended, notEmpty⟩ := leftover
    obtain ⟨sent, _, _⟩ := typed_at_end ended stepped
    have nonempty : state.outgoingDatastream ≠ [] := by
      apply List.length_pos_iff.mp
      rw [sends.buffer]
      decide
    have some : 0 < (text (state.outgoingDatastream ++ behind)).length := by
      apply List.length_pos_iff.mpr
      intro empty
      exact notEmpty ((text_nil_iff nonempty behind).mp empty)
    have bytes := congrArg List.length sends.bytes
    rw [sent, List.length_append]
    rw [ended, List.append_nil] at bytes
    omega

/-- What was sent is a prefix of the input behind the name exactly if every read at the end
of the input found the empty string in the buffer. The input contains no NUL; the buffers, the
memory behind them and what the server sends in between may be anything. -/
theorem sent_prefix_iff {nameOfClient outgoingDatastream stdin : List UInt8}
    (buffer : outgoingDatastream.length = bufferSize) (noNul : 0 ∉ stdin)
    {events : List SelectEvent} {state : ChatClient}
    (ran : TransitionSystem.run clientLoopStep
      (startClient nameOfClient outgoingDatastream stdin) events = some state) :
    state.sent <+: stdinAfterName nameOfClient stdin ↔
      TransitionSystem.Meets clientLoopStep NothingLeftAtEnd
        (startClient nameOfClient outgoingDatastream stdin) events := by
  have noNulAfter : 0 ∉ stdinAfterName nameOfClient stdin := by
    intro member
    exact noNul ((CString.fgets_leaves _ _ _).subset member)
  have initially : SendsInput (stdinAfterName nameOfClient stdin)
      (startClient nameOfClient outgoingDatastream stdin) := ⟨rfl, noNulAfter, buffer⟩
  have kept : ∀ state event next, SendsInput (stdinAfterName nameOfClient stdin) state →
      NothingLeftAtEnd state event → clientLoopStep state event = some next →
      SendsInput (stdinAfterName nameOfClient stdin) next :=
    fun _ _ _ before nothing stepped => before.step nothing stepped
  constructor
  · intro started
    by_contra broken
    have exceeding : (stdinAfterName nameOfClient stdin).length < state.sent.length := by
      refine TransitionSystem.spoiled_of_violation
        (fun state => (stdinAfterName nameOfClient stdin).length < state.sent.length)
        ?_ ran ?_ broken
      · intro _ _ _ before stepped
        exact Nat.lt_of_lt_of_le before (sent_grows stepped).length_le
      · intro before middle event next reached met failed stepped
        have sends := TransitionSystem.guarded_run_preserves _ kept initially met reached
        exact sends.exceeds failed stepped
    exact absurd started.length_le (Nat.not_le_of_lt exceeding)
  · intro met
    have sends := TransitionSystem.guarded_run_preserves _ kept initially met ran
    exact ⟨state.stdin, sends.bytes⟩

/-- A second line, typed once and answered, is sent again at the end of the input. -/
theorem last_line_sent_again :
    ¬ ∀ (nameOfClient outgoingDatastream stdin : List UInt8) (events : List SelectEvent)
        (state : ChatClient), outgoingDatastream.length = bufferSize → 0 ∉ stdin →
      TransitionSystem.run clientLoopStep
        (startClient nameOfClient outgoingDatastream stdin) events = some state →
      state.sent <+: stdinAfterName nameOfClient stdin := by
  intro always
  have started := always (List.replicate 100 0) (List.replicate 100 0) (CString.literal "bo\nhi\n")
    [.typed [], .typed []]
    ⟨[], store (List.replicate 100 0) (CString.literal "hi\n"), CString.literal "hi\nhi\n",
      CString.literal "hi\nhi\n", true⟩
    (by decide) (by decide) (by decide +kernel)
  exact absurd started (by decide +kernel)

/-- Two lines are typed, with data from the server between them and other bytes behind the
buffer each time. -/
def twoLines : List SelectEvent :=
  [.typed [7], .received (CString.literal "[al]=> HI\n") [8], .typed [9]]

/-- No read is made at the end of the input, and the two lines are sent. -/
theorem two_lines_sent :
    ∃ state, TransitionSystem.run clientLoopStep
        (startClient (List.replicate 100 0) (List.replicate 100 1)
          (CString.literal "bo\nhi\nho\n")) twoLines = some state ∧
      state.sent = CString.literal "hi\nho\n" ∧
      TransitionSystem.Meets clientLoopStep NothingLeftAtEnd
        (startClient (List.replicate 100 0) (List.replicate 100 1)
          (CString.literal "bo\nhi\nho\n")) twoLines ∧
      state.sent <+: stdinAfterName (List.replicate 100 0) (CString.literal "bo\nhi\nho\n") := by
  have ran : TransitionSystem.run clientLoopStep
      (startClient (List.replicate 100 0) (List.replicate 100 1)
        (CString.literal "bo\nhi\nho\n")) twoLines =
        some ⟨[], store (store (List.replicate 100 0) (CString.literal "[al]=> HI\n"))
          (CString.literal "ho\n"), CString.literal "hi\nho\n",
          CString.literal "hi\n[al]=> HI\nho\n", true⟩ := by
    decide +kernel
  have nothing : TransitionSystem.Meets clientLoopStep NothingLeftAtEnd
      (startClient (List.replicate 100 0) (List.replicate 100 1)
        (CString.literal "bo\nhi\nho\n")) twoLines := by
    decide +kernel
  exact ⟨_, ran, rfl, nothing, (sent_prefix_iff (by decide) (by decide) ran).mpr nothing⟩

end HelperChat
