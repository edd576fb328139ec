import HelperChat.ClientLoop

/-!
# The chat history

What the client's loop writes to its history file beside what it exchanges with the server.
Both are written as strings from the same buffer. `fgets` leaves room for the NUL, `recv` may
fill the buffer to its last byte, and then the string goes on in the memory behind.
-/

namespace HelperChat

open CString (store text)
open CountedLoop (writeAll)

/-- The client, the bytes that were sent to and received from the server, and the buffers that
were given to `writeMessageToFile`. -/
structure ChatHistory where
  client : ChatClient
  exchanged : List UInt8
  logged : List (List UInt8)
deriving DecidableEq

/-- The bytes that a pass exchanges with the server. -/
def exchangedIn (before after : ChatClient) : SelectEvent → List UInt8
  | .typed _ => after.sent.drop before.sent.length
  | .received bytes _ => bytes
  | .disconnected => []

/-- The buffer that a pass gives to `writeMessageToFile`. -/
def loggedIn (after : ChatClient) : SelectEvent → List (List UInt8)
  | .typed _ => [after.outgoingDatastream]
  | .received _ _ => [after.outgoingDatastream]
  | .disconnected => []

/-- One pass of the loop. -/
def chatHistoryStep (history : ChatHistory) (event : SelectEvent) : Option ChatHistory := do
  let client ← clientLoopStep history.client event
  pure ⟨client, history.exchanged ++ exchangedIn history.client client event,
    history.logged ++ loggedIn client event⟩

/-- The client at its first `select`, with an empty history. -/
def startHistory (nameOfClient outgoingDatastream stdin : List UInt8) : ChatHistory :=
  ⟨startClient nameOfClient outgoingDatastream stdin, [], []⟩

/-- The file is what was exchanged, and every string in it ended in its buffer. -/
structure HistoryFaithful (history : ChatHistory) : Prop where
  file : history.client.outputFile = history.exchanged
  terminated : ∀ buffer ∈ history.logged, 0 ∈ buffer

/-- Received bytes contain no NUL and leave room for one, and at the end of the input the
buffer holds one. -/
def LoggedWhole (history : ChatHistory) : SelectEvent → Prop
  | .typed _ => history.client.stdin = [] → 0 ∈ history.client.outgoingDatastream
  | .received bytes _ => 0 ∉ bytes ∧ bytes.length < bufferSize
  | .disconnected => True

instance (history : ChatHistory) : DecidablePred (LoggedWhole history)
  | .typed _ =>
      inferInstanceAs
        (Decidable (history.client.stdin = [] → 0 ∈ history.client.outgoingDatastream))
  | .received bytes _ => inferInstanceAs (Decidable (0 ∉ bytes ∧ bytes.length < bufferSize))
  | .disconnected => inferInstanceAs (Decidable True)

/-- `fgets` reads something, and received bytes contain no NUL. -/
def BringsText (history : ChatHistory) : SelectEvent → Prop
  | .typed _ => history.client.stdin ≠ []
  | .received bytes _ => 0 ∉ bytes
  | .disconnected => True

instance (history : ChatHistory) : DecidablePred (BringsText history)
  | .typed _ => inferInstanceAs (Decidable (history.client.stdin ≠ []))
  | .received bytes _ => inferInstanceAs (Decidable (0 ∉ bytes))
  | .disconnected => inferInstanceAs (Decidable True)

/-- The file has lost bytes, or a string in it did not end in its buffer. -/
def HistorySpoiled (history : ChatHistory) : Prop :=
  history.client.outputFile.length < history.exchanged.length ∨
    ∃ buffer ∈ history.logged, 0 ∉ buffer

variable {history next : ChatHistory} {event : SelectEvent}

/-- A step is a pass of the client. -/
theorem chat_history_step_cases (stepped : chatHistoryStep history event = some next) :
    ∃ client, clientLoopStep history.client event = some client ∧
      next = ⟨client, history.exchanged ++ exchangedIn history.client client event,
        history.logged ++ loggedIn client event⟩ := by
  obtain ⟨client, moved, finished⟩ := Option.bind_eq_some_iff.mp stepped
  exact ⟨client, moved, (Option.some.inj finished).symm⟩

/-- Recording the history does not change what the client does. -/
theorem history_runs_client (start : ChatHistory) (events : List SelectEvent) :
    TransitionSystem.run clientLoopStep start.client events =
      (TransitionSystem.run chatHistoryStep start events).map ChatHistory.client := by
  refine TransitionSystem.run_view ChatHistory.client (fun _ => True)
    (fun _ _ _ _ _ => trivial) ?_ events trivial
  intro history event _
  cases moved : clientLoopStep history.client event with
  | none => simp [chatHistoryStep, moved]
  | some client => simp [chatHistoryStep, moved]

/-- What `recv` stores fits in the buffer. -/
theorem received_fits {state after : ChatClient} {bytes behind : List UInt8}
    (stepped : clientLoopStep state (.received bytes behind) = some after) :
    bytes.length ≤ (List.replicate bufferSize (0 : UInt8)).length := by
  rw [List.length_replicate]
  simp only [clientLoopStep] at stepped
  split_ifs at stepped with connected fit
  exact fit.2

/-- The buffer ends a string after `recv` exactly if the bytes contain a NUL or do not fill
it. -/
theorem nul_after_recv_iff {bytes : List UInt8}
    (fit : bytes.length ≤ (List.replicate bufferSize (0 : UInt8)).length) :
    0 ∈ writeAll (List.replicate bufferSize 0) 0 bytes ↔
      0 ∈ bytes ∨ bytes.length < bufferSize := by
  rw [CountedLoop.write_all_start fit, List.mem_append, List.drop_replicate, List.mem_replicate]
  have left : bufferSize - bytes.length ≠ 0 ↔ bytes.length < bufferSize := by omega
  simp only [left, and_true]

/-- Then the string that is written is the one in the bytes. -/
theorem text_after_recv {bytes : List UInt8}
    (fit : bytes.length ≤ (List.replicate bufferSize (0 : UInt8)).length)
    (ended : 0 ∈ writeAll (List.replicate bufferSize 0) 0 bytes) (behind : List UInt8) :
    text (writeAll (List.replicate bufferSize 0) 0 bytes ++ behind) = text bytes := by
  have cases := (nul_after_recv_iff fit).mp ended
  rw [CountedLoop.write_all_start fit, List.append_assoc]
  by_cases nul : 0 ∈ bytes
  · exact CString.text_append_of_nul nul _
  · have short : bytes.length < (List.replicate bufferSize (0 : UInt8)).length := by
      rw [List.length_replicate]
      exact cases.resolve_left nul
    rw [List.drop_eq_getElem_cons short, List.getElem_replicate, List.cons_append,
      CString.text_terminated nul, CString.text_of_no_nul nul]

/-- Every pass keeps the size of the buffer. -/
theorem buffer_sized (sized : history.client.outgoingDatastream.length = bufferSize)
    (stepped : chatHistoryStep history event = some next) :
    next.client.outgoingDatastream.length = bufferSize := by
  obtain ⟨client, moved, rfl⟩ := chat_history_step_cases stepped
  cases client_loop_move moved with
  | sends behind outgoingDatastream stdin read =>
    have kept :=
      CString.fgets_length bufferSize history.client.outgoingDatastream history.client.stdin
    rw [read] at kept
    exact kept.trans sized
  | receives => simp
  | stops => simp

/-- The invariant up to the first pass that breaks the condition. -/
structure HistoryInvariant (history : ChatHistory) : Prop where
  faithful : HistoryFaithful history
  sized : history.client.outgoingDatastream.length = bufferSize

/-- A pass that meets the condition keeps the invariant. -/
theorem HistoryInvariant.step (invariant : HistoryInvariant history)
    (whole : LoggedWhole history event) (stepped : chatHistoryStep history event = some next) :
    HistoryInvariant next := by
  obtain ⟨⟨file, terminated⟩, sized⟩ := invariant
  refine ⟨?_, buffer_sized sized stepped⟩
  obtain ⟨client, moved, rfl⟩ := chat_history_step_cases stepped
  cases client_loop_move moved with
  | sends behind outgoingDatastream stdin read =>
    constructor
    · simp [exchangedIn, writeMessageToFile, file]
    · have ended : 0 ∈ outgoingDatastream := by
        have after := (CString.nul_in_fgets_iff (by decide) sized).mpr whole
        rwa [read] at after
      exact List.forall_mem_append.mpr ⟨terminated, List.forall_mem_singleton.mpr ended⟩
  | receives bytes behind =>
    have fit := received_fits moved
    have ended := (nul_after_recv_iff fit).mpr (.inr whole.2)
    constructor
    · simp only [exchangedIn, writeMessageToFile, text_after_recv fit ended,
        CString.text_of_no_nul whole.1, file]
    · exact List.forall_mem_append.mpr ⟨terminated, List.forall_mem_singleton.mpr ended⟩
  | stops =>
    constructor
    · simpa [exchangedIn] using file
    · simpa [loggedIn] using terminated

/-- What is spoiled stays spoiled. -/
theorem HistorySpoiled.step (spoiled : HistorySpoiled history)
    (stepped : chatHistoryStep history event = some next) : HistorySpoiled next := by
  obtain ⟨client, moved, rfl⟩ := chat_history_step_cases stepped
  cases spoiled with
  | inr unterminated =>
    obtain ⟨buffer, member, noNul⟩ := unterminated
    exact .inr ⟨buffer, List.mem_append_left _ member, noNul⟩
  | inl lost =>
    cases client_loop_move moved with
    | sends =>
      left
      simpa [exchangedIn, writeMessageToFile] using lost
    | receives bytes behind =>
      by_cases ended : 0 ∈ writeAll (List.replicate bufferSize 0) 0 bytes
      · left
        have written := text_after_recv (received_fits moved) ended behind
        have start : (text bytes).length ≤ bytes.length :=
          (List.takeWhile_prefix _).length_le
        simp only [exchangedIn, writeMessageToFile, written, List.length_append]
        omega
      · exact .inr ⟨_, List.mem_append_right _ (List.mem_singleton_self _), ended⟩
    | stops =>
      left
      simpa [exchangedIn] using lost

/-- A pass that breaks the condition spoils a history that was faithful. -/
theorem HistoryInvariant.spoils (invariant : HistoryInvariant history)
    (broken : ¬ LoggedWhole history event) (stepped : chatHistoryStep history event = some next) :
    HistorySpoiled next := by
  obtain ⟨⟨file, _⟩, sized⟩ := invariant
  obtain ⟨client, moved, rfl⟩ := chat_history_step_cases stepped
  cases client_loop_move moved with
  | sends behind outgoingDatastream stdin read =>
    have unterminated : 0 ∉ outgoingDatastream := by
      intro ended
      apply broken
      apply (CString.nul_in_fgets_iff (by decide) sized).mp
      rwa [read]
    exact .inr ⟨_, List.mem_append_right _ (List.mem_singleton_self _), unterminated⟩
  | receives bytes behind =>
    have fit := received_fits moved
    by_cases ended : 0 ∈ writeAll (List.replicate bufferSize 0) 0 bytes
    · left
      have nul : 0 ∈ bytes := by
        by_contra noNul
        exact broken ⟨noNul, ((nul_after_recv_iff fit).mp ended).resolve_left noNul⟩
      have shorter := CString.text_length_lt nul
      simp only [exchangedIn, writeMessageToFile, text_after_recv fit ended behind,
        List.length_append, file]
      omega
    · exact .inr ⟨_, List.mem_append_right _ (List.mem_singleton_self _), ended⟩
  | stops => exact absurd trivial broken

/-- The history file is what was exchanged with the server, written from terminated strings,
exactly if no received bytes fill the buffer or contain a NUL and every read at the end of the
input found a string in the buffer. -/
theorem history_faithful_iff {nameOfClient outgoingDatastream stdin : List UInt8}
    (sized : outgoingDatastream.length = bufferSize) {events : List SelectEvent}
    {history : ChatHistory}
    (ran : TransitionSystem.run chatHistoryStep
      (startHistory nameOfClient outgoingDatastream stdin) events = some history) :
    HistoryFaithful history ↔
      TransitionSystem.Meets chatHistoryStep LoggedWhole
        (startHistory nameOfClient outgoingDatastream stdin) events := by
  have initially : HistoryInvariant (startHistory nameOfClient outgoingDatastream stdin) :=
    ⟨⟨rfl, List.forall_mem_nil _⟩, sized⟩
  constructor
  · rintro ⟨file, terminated⟩
    by_contra broken
    have spoiled : HistorySpoiled history := by
      refine TransitionSystem.spoiled_of_violation HistorySpoiled
        (fun _ _ _ before stepped => before.step stepped) ran ?_ broken
      intro before middle event next reached met failed stepped
      have invariant := TransitionSystem.guarded_run_preserves HistoryInvariant
        (fun _ _ _ kept whole stepped => kept.step whole stepped) initially met reached
      exact invariant.spoils failed stepped
    cases spoiled with
    | inl lost =>
      rw [file] at lost
      exact Nat.lt_irrefl _ lost
    | inr unterminated =>
      obtain ⟨buffer, member, noNul⟩ := unterminated
      exact noNul (terminated buffer member)
  · intro met
    have invariant := TransitionSystem.guarded_run_preserves HistoryInvariant
      (fun _ _ _ kept whole stepped => kept.step whole stepped) initially met ran
    exact invariant.faithful

/-- The server fills the buffer, and the file gets what is behind it as well. -/
theorem full_chunk_spoils_history :
    ¬ ∀ (nameOfClient outgoingDatastream stdin : List UInt8) (events : List SelectEvent)
        (history : ChatHistory), outgoingDatastream.length = bufferSize →
      TransitionSystem.Meets chatHistoryStep BringsText
        (startHistory nameOfClient outgoingDatastream stdin) events →
      TransitionSystem.run chatHistoryStep
        (startHistory nameOfClient outgoingDatastream stdin) events = some history →
      HistoryFaithful history := by
  intro always
  have faithful := always (List.replicate 100 0) (List.replicate 100 0) (CString.literal "bo\n")
    [.received (List.replicate 100 'x'.toUInt8) (CString.literal "yz")]
    ⟨⟨[], List.replicate 100 'x'.toUInt8, [],
        List.replicate 100 'x'.toUInt8 ++ CString.literal "yz", true⟩,
      List.replicate 100 'x'.toUInt8, [List.replicate 100 'x'.toUInt8]⟩
    (by decide) (by decide +kernel) (by decide +kernel)
  exact absurd faithful.file (by decide +kernel)

/-- The history of a client that has sent two lines and received a message between them. -/
def shortHistory : ChatHistory :=
  let answered := store (List.replicate 100 0) (CString.literal "[al]=> HI\n")
  ⟨⟨[], store answered (CString.literal "ho\n"), CString.literal "hi\nho\n",
      CString.literal "hi\n[al]=> HI\nho\n", true⟩,
    CString.literal "hi\n[al]=> HI\nho\n",
    [store (List.replicate 100 1) (CString.literal "hi\n"), answered,
      store answered (CString.literal "ho\n")]⟩

/-- It is faithful, with other bytes behind the buffer in each pass. -/
theorem short_history_faithful :
    TransitionSystem.run chatHistoryStep
        (startHistory (List.replicate 100 0) (List.replicate 100 1)
          (CString.literal "bo\nhi\nho\n")) twoLines = some shortHistory ∧
      TransitionSystem.Meets chatHistoryStep LoggedWhole
        (startHistory (List.replicate 100 0) (List.replicate 100 1)
          (CString.literal "bo\nhi\nho\n")) twoLines ∧
      HistoryFaithful shortHistory := by
  have ran : TransitionSystem.run chatHistoryStep
      (startHistory (List.replicate 100 0) (List.replicate 100 1)
        (CString.literal "bo\nhi\nho\n")) twoLines = some shortHistory := by
    decide +kernel
  have whole : TransitionSystem.Meets chatHistoryStep LoggedWhole
      (startHistory (List.replicate 100 0) (List.replicate 100 1)
        (CString.literal "bo\nhi\nho\n")) twoLines := by
    decide +kernel
  exact ⟨ran, whole, (history_faithful_iff (by decide) ran).mpr whole⟩

end HelperChat
