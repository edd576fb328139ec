import HelperChat.HelperOrigin
import HelperChat.HelperService
import HelperChat.LinkBytes

/-!
# The server and the helper together

The server's end of the connection and the helper as the program that it is: its `recv`
takes a chunk from the stream, its threads work on the queues in between the steps of the
server's threads, and the end of a round sends the reply.

The connection of `HelperLink`, on which the helper's reply is one step in closed form, is
what this is meant to be. It is so in runs in which the decoder threads do not disturb each
other; then calls get the helper's results for their own texts if every `recv` respects the
borders. In all other runs the bytes that come back still are the replies to the chunks, in
their order.
-/

namespace HelperChat

/-- The helper, and the server's end with the streams. The `processing` of the connection is
a copy of the chunk that the helper works on. -/
structure Wire where
  helper : Helper
  link : Link

/-- The steps: a client thread's `send` and `recv`, and the helper's steps. The helper's
`recv` gets so many bytes. -/
inductive WireEvent where
  | send (t : Nat) (dataSentToHelper : List UInt8)
  | recv (t : Nat) (count : Nat)
  | helperRecv (count : Nat) (memory tempMemory : Nat → Nat → UInt8)
  | thread (j : Nat)
  | join (tempMemory : Nat → Nat → UInt8)

/-- The chunk that the helper works on. -/
def Helper.current (helper : Helper) : Option (List UInt8) :=
  match helper.phase with
  | .receiving => none
  | .threading _ _ => helper.received.getLast?

/-- One step of the two programs. -/
def wireStep (wire : Wire) : WireEvent → Option Wire
  | .send t dataSentToHelper =>
      (linkStep wire.link (.send t dataSentToHelper)).map fun link => { wire with link }
  | .recv t count => (linkStep wire.link (.recv t count)).map fun link => { wire with link }
  | .helperRecv count memory tempMemory => do
      let (datastreamFromMainServer, rest) ←
        ByteStream.recv bufferSize count wire.link.toHelper
      let helper ← helperStep wire.helper (.receive datastreamFromMainServer memory tempMemory)
      pure ⟨helper, { wire.link with
        toHelper := rest
        processing := helper.current
        unread := textsAfter count wire.link.unread }⟩
  | .thread j => (helperStep wire.helper (.thread j)).map fun helper => { wire with helper }
  | .join tempMemory =>
      (helperStep wire.helper (.join tempMemory)).map fun helper =>
        ⟨helper, { wire.link with
          toServer := wire.link.toServer ++ (helper.sent.drop wire.helper.sent.length).flatten
          processing := helper.current }⟩

/-- The helper has accepted the server, and its client threads are outside of calls. -/
def startWire (threads : Nat) : Wire := ⟨startHelper, startLink threads⟩

/-- The steps of the two programs, each with what it changes. -/
inductive WireMove (wire : Wire) : WireEvent → Wire → Prop
  | sends (t : Nat) (dataSentToHelper : List UInt8) (link : Link)
      (stepped : linkStep wire.link (.send t dataSentToHelper) = some link) :
      WireMove wire (.send t dataSentToHelper) { wire with link }
  | collects (t count : Nat) (link : Link)
      (stepped : linkStep wire.link (.recv t count) = some link) :
      WireMove wire (.recv t count) { wire with link }
  | reads (count : Nat) (memory tempMemory : Nat → Nat → UInt8)
      (datastreamFromMainServer rest : List UInt8)
      (received : ByteStream.recv bufferSize count wire.link.toHelper =
        some (datastreamFromMainServer, rest))
      (receiving : wire.helper.phase = .receiving) :
      WireMove wire (.helperRecv count memory tempMemory)
        ⟨createThreads tempMemory 0 (wire.helper.enqueued memory datastreamFromMainServer),
          { wire.link with
            toHelper := rest
            processing := some datastreamFromMainServer
            unread := textsAfter count wire.link.unread }⟩
  | decodes (j i : Nat) (decoders after : DecoderState)
      (threading : wire.helper.phase = .threading i decoders)
      (advanced : decoderStep decoders j = some after) :
      WireMove wire (.thread j) { wire with helper := wire.helper.decoded i j decoders after }
  | joins (tempMemory : Nat → Nat → UInt8) (i : Nat) (decoders : DecoderState)
      (threading : wire.helper.phase = .threading i decoders) (exited : AllExited decoders)
      (more : i + 1 < numberOfQueues wire.helper.dataBytesIncoming) :
      WireMove wire (.join tempMemory)
        ⟨createThreads tempMemory (i + 1) (wire.helper.joined i decoders),
          { wire.link with processing := wire.helper.current }⟩
  | replies (tempMemory : Nat → Nat → UInt8) (i : Nat) (decoders : DecoderState)
      (reply : List UInt8) (threading : wire.helper.phase = .threading i decoders)
      (exited : AllExited decoders)
      (done : numberOfQueues wire.helper.dataBytesIncoming ≤ i + 1)
      (sent : (wire.helper.joined i decoders).replied.sent = wire.helper.sent ++ [reply]) :
      WireMove wire (.join tempMemory)
        ⟨(wire.helper.joined i decoders).replied,
          { wire.link with toServer := wire.link.toServer ++ reply, processing := none }⟩

/-- Every computed step is one of these. -/
theorem wire_move {wire next : Wire} {event : WireEvent}
    (stepped : wireStep wire event = some next) : WireMove wire event next := by
  cases event with
  | send t dataSentToHelper =>
    obtain ⟨link, moved, rfl⟩ := Option.map_eq_some_iff.mp stepped
    exact .sends t dataSentToHelper link moved
  | recv t count =>
    obtain ⟨link, moved, rfl⟩ := Option.map_eq_some_iff.mp stepped
    exact .collects t count link moved
  | helperRecv count memory tempMemory =>
    obtain ⟨⟨chunk, rest⟩, received, continued⟩ := Option.bind_eq_some_iff.mp stepped
    obtain ⟨helper, moved, built⟩ := Option.bind_eq_some_iff.mp continued
    obtain rfl := Option.some.inj built
    cases helper_move moved with
    | receives _ _ _ receiving =>
      have current : (createThreads tempMemory 0 (wire.helper.enqueued memory chunk)).current =
          some chunk := List.getLast?_concat
      simp only [current]
      exact .reads count memory tempMemory chunk rest received receiving
  | thread j =>
    obtain ⟨helper, moved, rfl⟩ := Option.map_eq_some_iff.mp stepped
    cases helper_move moved with
    | decodes j i decoders after threading advanced =>
      exact .decodes j i decoders after threading advanced
  | join tempMemory =>
    obtain ⟨helper, moved, rfl⟩ := Option.map_eq_some_iff.mp stepped
    cases helper_move moved with
    | joins tempMemory i decoders threading exited more =>
      have sent : (createThreads tempMemory (i + 1) (wire.helper.joined i decoders)).sent =
          wire.helper.sent := rfl
      have current : (createThreads tempMemory (i + 1) (wire.helper.joined i decoders)).current =
          wire.helper.current := by
        simp [Helper.current, threading, createThreads, Helper.joined]
      simp only [sent, current, List.drop_length, List.flatten_nil, List.append_nil]
      exact .joins tempMemory i decoders threading exited more
    | replies tempMemory i decoders threading exited done =>
      have sent : (wire.helper.joined i decoders).replied.sent = wire.helper.sent ++ [_] := rfl
      have current : (wire.helper.joined i decoders).replied.current = none := rfl
      simp only [sent, current, List.drop_left, List.flatten_singleton]
      exact .replies tempMemory i decoders _ threading exited done sent

section Refinement

/-- The decoder threads do not disturb each other, and every `recv` respects the borders. -/
def RunsOrderly (wire : Wire) : WireEvent → Prop
  | .send _ _ => True
  | .recv t count => RespectsBorders wire.link (.recv t count)
  | .helperRecv count _ _ => RespectsBorders wire.link (.helperRecv count)
  | .thread j => RunsUndisturbed wire.helper (.thread j)
  | .join _ => True

instance (helper : Helper) : DecidablePred (RunsUndisturbed helper)
  | .receive _ _ _ | .join _ => .isTrue trivial
  | .thread j =>
      match phase : helper.phase with
      | .receiving => .isTrue (by simp only [RunsUndisturbed, phase])
      | .threading _ decoders =>
          decidable_of_iff (Undisturbed decoders j) (by simp only [RunsUndisturbed, phase])

instance (wire : Wire) : DecidablePred (RunsOrderly wire)
  | .send _ _ | .join _ => .isTrue trivial
  | .recv t count => inferInstanceAs (Decidable (RespectsBorders wire.link (.recv t count)))
  | .helperRecv count _ _ =>
      inferInstanceAs (Decidable (RespectsBorders wire.link (.helperRecv count)))
  | .thread j => inferInstanceAs (Decidable (RunsUndisturbed wire.helper (.thread j)))

/-- What a step is on the connection. The end of a round is the helper's `send`. -/
def linkEvents (wire : Wire) : WireEvent → List LinkEvent
  | .send t dataSentToHelper => [.send t dataSentToHelper]
  | .recv t count => [.recv t count]
  | .helperRecv count _ _ => [.helperRecv count]
  | .thread _ => []
  | .join _ =>
      match wire.helper.phase with
      | .receiving => []
      | .threading i _ =>
          if i + 1 < numberOfQueues wire.helper.dataBytesIncoming then [] else [.helperSend]

/-- The connection knows the chunk that the helper works on, and the helper replies to its
chunks in closed form. -/
structure Shown (wire : Wire) : Prop where
  processing : wire.link.processing = wire.helper.current
  located : HelperLocated wire.helper
  replying : Replying wire.helper

/-- Before the first call. -/
theorem start_shown (threads : Nat) : Shown (startWire threads) :=
  ⟨rfl, start_located, start_replying⟩

/-- The reply at the end of an undisturbed round is that to the chunk that the helper has
worked on. -/
theorem Replying.last_reply {helper : Helper} {i : Nat} {decoders : DecoderState}
    {reply : List UInt8} (replying : Replying helper) (phase : helper.phase = .threading i decoders)
    (repliedToo : Replying (helper.joined i decoders).replied)
    (sent : (helper.joined i decoders).replied.sent = helper.sent ++ [reply]) :
    ∃ chunk, helper.current = some chunk ∧ reply = helperResult chunk := by
  obtain ⟨_, replying⟩ := replying
  simp only [phase] at replying
  obtain ⟨finished, chunk, serving⟩ := replying
  have all : (helper.joined i decoders).replied.sent = helper.received.map helperResult :=
    repliedToo.2
  rw [sent, serving.replied, serving.received, List.map_append] at all
  refine ⟨chunk, ?_, List.singleton_inj.mp (List.append_cancel_left all)⟩
  simp only [Helper.current, phase, serving.received, List.getLast?_concat]

variable {wire next : Wire} {event : WireEvent}

/-- An orderly step of the two programs does on the connection what it is meant to do. -/
theorem orderly_step_linked (shown : Shown wire) (orderly : RunsOrderly wire event)
    (stepped : wireStep wire event = some next) :
    TransitionSystem.run linkStep wire.link (linkEvents wire event) = some next.link ∧
      Shown next := by
  obtain ⟨processing, located, replying⟩ := shown
  cases wire_move stepped with
  | sends t dataSentToHelper after moved =>
    refine ⟨(TransitionSystem.run_singleton _ _).trans moved, ?_, located, replying⟩
    cases link_move moved with
    | sends => exact processing
  | collects t count after moved =>
    refine ⟨(TransitionSystem.run_singleton _ _).trans moved, ?_, located, replying⟩
    cases link_move moved with
    | collects => exact processing
  | reads count memory tempMemory chunk rest received receiving =>
    have idle : wire.link.processing = none := by
      rw [processing, Helper.current, receiving]
    obtain ⟨_, length, nonempty, short⟩ := ByteStream.recv_takes received
    refine ⟨?_, List.getLast?_concat.symm,
      receive_located located receiving (length ▸ nonempty) (length ▸ short) memory tempMemory,
      receive_replying replying receiving chunk memory tempMemory⟩
    rw [linkEvents, TransitionSystem.run_singleton]
    simp only [linkStep, idle, received, Option.map_some]
  | decodes j i decoders after threading advanced =>
    have moved : helperStep wire.helper (.thread j) =
        some (wire.helper.decoded i j decoders after) := by
      simp only [helperStep, threading, advanced, Option.map_some, Helper.decoded]
    have undisturbed : RunsUndisturbed wire.helper (.thread j) := orderly
    refine ⟨rfl, ?_, helper_step_located located moved,
      replying.step located undisturbed moved⟩
    rw [processing]
    simp only [Helper.current, threading, Helper.decoded]
  | joins tempMemory i decoders threading exited more =>
    have moved : helperStep wire.helper (.join tempMemory) =
        some (createThreads tempMemory (i + 1) (wire.helper.joined i decoders)) := by
      simp only [helperStep, threading, if_pos exited, if_pos more, Helper.joined]
    have undisturbed : RunsUndisturbed wire.helper (.join tempMemory) := trivial
    refine ⟨?_, ?_, helper_step_located located moved,
      replying.step located undisturbed moved⟩
    · simp only [linkEvents, threading, if_pos more, TransitionSystem.run_nil, ← processing]
    · simp only [Helper.current, threading, createThreads, Helper.joined]
  | replies tempMemory i decoders reply threading exited done sent =>
    have moved : helperStep wire.helper (.join tempMemory) =
        some (wire.helper.joined i decoders).replied := by
      simp only [helperStep, threading, if_pos exited, if_neg (Nat.not_lt.mpr done),
        Helper.joined, Helper.replied]
    have undisturbed : RunsUndisturbed wire.helper (.join tempMemory) := trivial
    have repliedToo := replying.step located undisturbed moved
    obtain ⟨chunk, current, rfl⟩ := replying.last_reply threading repliedToo sent
    refine ⟨?_, rfl, helper_step_located located moved, repliedToo⟩
    simp only [linkEvents, threading, if_neg (Nat.not_lt.mpr done)]
    rw [TransitionSystem.run_singleton]
    simp only [linkStep, processing, current]

/-- On the connection it respects the borders. -/
theorem orderly_step_respects (orderly : RunsOrderly wire event) :
    TransitionSystem.Meets linkStep RespectsBorders wire.link (linkEvents wire event) := by
  cases event with
  | send | recv | helperRecv => exact ⟨orderly, fun _ _ => trivial⟩
  | thread => trivial
  | join =>
    simp only [linkEvents]
    split
    · trivial
    · split
      · trivial
      · exact ⟨trivial, fun _ _ => trivial⟩

/-- What respects the borders keeps the order. -/
theorem in_order_run {link after : Link} {actions : List LinkEvent} (inOrder : InOrder link)
    (respects : TransitionSystem.Meets linkStep RespectsBorders link actions)
    (ran : TransitionSystem.run linkStep link actions = some after) : InOrder after :=
  TransitionSystem.guarded_run_preserves InOrder
    (fun _ _ _ before respected stepped => before.step respected stepped) inOrder respects ran

/-- In every orderly run of the two programs the connection makes the run that it is meant
to make, and every finished call got the helper's result for its own text, whichever threads
call and in whatever order all threads step. Orderly are runs in which no decoder thread
removes a byte or finds the queue empty while another one carries bytes, the helper's `recv`
takes exactly the oldest text, and only the thread whose text was sent first among the
uncollected ones receives, exactly its reply. The result is not quite the text in upper-case
vowels: the last byte is cut off, and a newline or a space stands in its place. -/
theorem orderly_calls_paired (threads : Nat) {events : List WireEvent}
    (ran : TransitionSystem.run wireStep (startWire threads) events = some wire)
    (orderly : TransitionSystem.Meets wireStep RunsOrderly (startWire threads) events) :
    TransitionSystem.run linkStep (startLink threads)
        (TransitionSystem.emitted linkEvents wireStep (startWire threads) events) =
          some wire.link ∧
      Paired wire.link := by
  constructor
  · exact TransitionSystem.emitted_run Wire.link Shown
      (fun _ _ _ before met stepped => orderly_step_linked before met stepped)
      (start_shown threads) orderly ran
  · have kept : Shown wire ∧ InOrder wire.link :=
      TransitionSystem.guarded_run_preserves (fun wire => Shown wire ∧ InOrder wire.link)
        (fun _ _ _ before met stepped =>
          have ⟨linked, shown⟩ := orderly_step_linked before.1 met stepped
          ⟨shown, in_order_run before.2 (orderly_step_respects met) linked⟩)
        ⟨start_shown threads, start_in_order threads⟩ orderly ran
    exact kept.2.paired

/-- A call whose text the six threads process one after another. -/
def wholeCall : List WireEvent :=
  [.send 0 firstText, .helperRecv 3 (fun _ _ => 0) (fun _ _ => 0)] ++
    (DrainRefill.passesSchedule 0 threadNumbers 5).map .thread ++
    [.join (fun _ _ => 0), .recv 0 3]

/-- Its thread gets the text back, with a space where the newline was. -/
theorem whole_call_paired :
    ∃ wire, TransitionSystem.run wireStep (startWire 1) wholeCall = some wire ∧
      wire.link.finished =
        [⟨0, firstText, ['h'.toUInt8, 'I'.toUInt8, ' '.toUInt8]⟩] ∧ Paired wire.link := by
  have computed : (TransitionSystem.run wireStep (startWire 1) wholeCall).map
      (fun wire => wire.link.finished) =
        some [⟨0, firstText, ['h'.toUInt8, 'I'.toUInt8, ' '.toUInt8]⟩] := by
    decide +kernel
  obtain ⟨wire, ran, finished⟩ := Option.map_eq_some_iff.mp computed
  exact ⟨wire, ran, finished, (orderly_calls_paired 1 ran (by decide +kernel)).2⟩

end Refinement

section Bytes

/-- The texts that a schedule sends, in its order. -/
def wireTexts (events : List WireEvent) : List (List UInt8) :=
  events.filterMap fun event =>
    match event with
    | .send _ dataSentToHelper => some dataSentToHelper
    | _ => none

variable {wire next : Wire} {event : WireEvent} {events : List WireEvent}

/-- The helper does what it does on its own, whatever comes from the server. -/
theorem wire_helper_simulated :
    TransitionSystem.Simulates wireStep (fun _ _ => True) helperStep (fun _ _ => True)
      (fun wire helper => wire.helper = helper) := by
  rintro wire _ event next rfl - stepped
  cases event with
  | send t dataSentToHelper =>
    obtain ⟨link, _, rfl⟩ := Option.map_eq_some_iff.mp stepped
    exact ⟨[], wire.helper, rfl, trivial, rfl⟩
  | recv t count =>
    obtain ⟨link, _, rfl⟩ := Option.map_eq_some_iff.mp stepped
    exact ⟨[], wire.helper, rfl, trivial, rfl⟩
  | helperRecv count memory tempMemory =>
    obtain ⟨⟨chunk, rest⟩, _, continued⟩ := Option.bind_eq_some_iff.mp stepped
    obtain ⟨helper, moved, built⟩ := Option.bind_eq_some_iff.mp continued
    obtain rfl := Option.some.inj built
    exact ⟨[.receive chunk memory tempMemory], helper,
      (TransitionSystem.run_singleton _ _).trans moved, TransitionSystem.meets_trivial _ _, rfl⟩
  | thread j =>
    obtain ⟨helper, moved, rfl⟩ := Option.map_eq_some_iff.mp stepped
    exact ⟨[.thread j], helper, (TransitionSystem.run_singleton _ _).trans moved,
      TransitionSystem.meets_trivial _ _, rfl⟩
  | join tempMemory =>
    obtain ⟨helper, moved, rfl⟩ := Option.map_eq_some_iff.mp stepped
    exact ⟨[.join tempMemory], helper, (TransitionSystem.run_singleton _ _).trans moved,
      TransitionSystem.meets_trivial _ _, rfl⟩

/-- A step hands on what is sent to the helper. -/
theorem requests_step (stepped : wireStep wire event = some next) :
    next.helper.received.flatten ++ next.link.toHelper =
      wire.helper.received.flatten ++ wire.link.toHelper ++ (wireTexts [event]).flatten := by
  cases wire_move stepped with
  | sends t dataSentToHelper link moved =>
    cases link_move moved with
    | sends => simp [wireTexts]
  | collects t count link moved =>
    cases link_move moved with
    | collects => simp [wireTexts]
  | reads count memory tempMemory chunk rest received =>
    obtain ⟨split, _⟩ := ByteStream.recv_takes received
    simp [createThreads, Helper.enqueued, split, wireTexts]
  | decodes | joins | replies => simp [createThreads, Helper.decoded, Helper.joined,
      Helper.replied, wireTexts]

/-- So does every run. -/
theorem requests_run (ran : TransitionSystem.run wireStep wire events = some next) :
    next.helper.received.flatten ++ next.link.toHelper =
      wire.helper.received.flatten ++ wire.link.toHelper ++ (wireTexts events).flatten := by
  induction events generalizing wire with
  | nil =>
    obtain rfl := Option.some.inj ran
    simp [wireTexts]
  | cons event rest inductionHypothesis =>
    obtain ⟨middle, stepped, continued⟩ := Option.bind_eq_some_iff.mp ran
    have split : wireTexts (event :: rest) = wireTexts [event] ++ wireTexts rest :=
      List.filterMap_append (l := [event])
    rw [inductionHypothesis continued, requests_step stepped, split, List.flatten_append,
      List.append_assoc _ _ (wireTexts rest).flatten]

/-- What the helper has sent has been collected or is on its way. -/
def RepliesFlow (wire : Wire) : Prop :=
  wire.link.collected ++ wire.link.toServer = wire.helper.sent.flatten

/-- Every step keeps the replies flowing. -/
theorem RepliesFlow.step (flow : RepliesFlow wire) (stepped : wireStep wire event = some next) :
    RepliesFlow next := by
  unfold RepliesFlow at flow ⊢
  cases wire_move stepped with
  | sends t dataSentToHelper link moved =>
    cases link_move moved with
    | sends => exact flow
  | collects t count link moved =>
    cases link_move moved with
    | collects _ _ _ taken rest _ received =>
      obtain ⟨split, _⟩ := ByteStream.recv_takes received
      rw [← flow, split]
      simp [Link.collected]
  | reads | decodes | joins => exact flow
  | replies tempMemory i decoders reply threading exited done sent =>
    change wire.link.collected ++ (wire.link.toServer ++ reply) = _
    rw [sent, List.flatten_append, List.flatten_singleton, ← flow, List.append_assoc]

/-- In every run of the two programs, also when threads disturb each other and take replies
that are not theirs, the texts are read by the helper chunk by chunk, and the bytes that come
back are the replies to the first chunks, each with its length and with bytes that stem from
the rows of its own chunk. -/
theorem wire_replies_in_order (threads : Nat)
    (ran : TransitionSystem.run wireStep (startWire threads) events = some wire) :
    (wireTexts events).flatten = wire.helper.received.flatten ++ wire.link.toHelper ∧
      wire.link.collected ++ wire.link.toServer = wire.helper.sent.flatten ∧
      ∃ answered, answered <+: wire.helper.received ∧
        List.Forall₂ RepliesTo answered wire.helper.sent ∧
        (wire.helper.phase = .receiving → answered = wire.helper.received) := by
  refine ⟨(requests_run ran).symm, ?_, ?_⟩
  · exact TransitionSystem.run_preserves RepliesFlow (fun _ _ _ before stepped =>
      before.step stepped) (show RepliesFlow (startWire threads) from rfl) ran
  · obtain ⟨actions, helper, helperRan, _, rfl⟩ :=
      wire_helper_simulated.run rfl (TransitionSystem.meets_trivial _ _) ran
    exact (run_separated helperRan).2.answered

/-- The helper reads one text and a byte of the next in one chunk, its threads disturb each
other, and the second client's thread collects the reply. -/
def cutTexts : List WireEvent :=
  [.send 0 firstText, .send 1 secondText, .helperRecv 4 (fun _ _ => 7) (fun _ _ => 7)] ++
    disturbedThreads.map .thread ++ [.join (fun _ _ => 7), .recv 1 4]

/-- The reply has lost a byte and begins with a NUL. It answers the chunk, which is neither
text, and all its bytes have come back. -/
theorem cut_texts_in_order :
    ∃ wire, TransitionSystem.run wireStep (startWire 2) cutTexts = some wire ∧
      wire.helper.sent = [[0, 'h'.toUInt8, 'I'.toUInt8, '\n'.toUInt8]] ∧
      firstText ++ secondText = wire.helper.received.flatten ++ wire.link.toHelper ∧
      wire.link.collected ++ wire.link.toServer = wire.helper.sent.flatten ∧
      List.Forall₂ RepliesTo wire.helper.received wire.helper.sent := by
  have computed : (TransitionSystem.run wireStep (startWire 2) cutTexts).map
      (fun wire => (wire.helper.received.length, wire.helper.sent)) =
        some (1, [[0, 'h'.toUInt8, 'I'.toUInt8, '\n'.toUInt8]]) := by
    decide +kernel
  obtain ⟨wire, ran, seen⟩ := Option.map_eq_some_iff.mp computed
  obtain ⟨single, sent⟩ := Prod.mk.inj seen
  obtain ⟨requests, replies, answered, start, replied, _⟩ := wire_replies_in_order 2 ran
  have whole : answered = wire.helper.received := by
    refine start.eq_of_length ?_
    rw [replied.length_eq, sent, single]
    rfl
  exact ⟨wire, ran, sent, requests, replies, whole ▸ replied⟩

end Bytes

end HelperChat
