import HelperChat.RelayRouting
import HelperChat.Wire

/-!
# The whole server with its helper

The client threads of `2_server.c`, with the table and all broadcasts, and the connection to
the helper, with `1_helper.c` as a program at its other end. A thread in its message loop
sends a text of its client to the helper, receives what comes back into `outputBufferBoi`,
and broadcasts that. Between these steps all other threads and the helper make theirs.

A broadcast carries the helper's result for the text of the same thread, as the helper's
`main` and its decoder threads compute it, in runs that respect the borders of the stream and
in which a reply ends in the buffer. Every connection then gets from each other one the
public messages for its texts, in the order of the texts.
-/

namespace HelperChat

open CString (text)
open Multicast (Post)

/-- The threads with the table, and the connection to the helper with the helper. -/
structure ChatServer where
  relay : Relay
  wire : Wire

/-- The steps: those of the threads and of `main` that have nothing to do with the helper; a
thread's `recv` of a text and its `send` to the helper; its `recv` of a reply, with what is
behind that in the buffer, and the call of `sendPublicMessage`; and those of the helper. -/
inductive ChatServerEvent where
  | relay (event : RelayEvent)
  | call (t : Nat) (dataWeWantToSend : List UInt8)
  | collect (t count : Nat) (behind : List UInt8)
  | helper (event : WireEvent)

/-- A thread that awaits a reply does not end, and none broadcasts without a reply. -/
def OutsideCalls (server : ChatServer) : RelayEvent → Prop
  | .post _ _ => False
  | .remove t => server.wire.link.clientThreads[t]? = some .outside
  | _ => True

instance (server : ChatServer) : DecidablePred (OutsideCalls server)
  | .post _ _ => .isFalse id
  | .remove t => inferInstanceAs (Decidable (server.wire.link.clientThreads[t]? = some .outside))
  | .accept _ | .leave _ | .register _ _ | .push _ | .visit _ => .isTrue trivial

/-- The steps of the helper. -/
def OfHelper : WireEvent → Prop
  | .send _ _ | .recv _ _ => False
  | .helperRecv _ _ _ | .thread _ | .join _ => True

instance : DecidablePred OfHelper
  | .send _ _ | .recv _ _ => .isFalse id
  | .helperRecv _ _ _ | .thread _ | .join _ => .isTrue trivial

/-- One step of the server or of the helper. -/
def chatServerStep (server : ChatServer) : ChatServerEvent → Option ChatServer
  | .relay event =>
      if OutsideCalls server event then
        (relayStep server.relay event).map fun relay => { server with relay }
      else none
  | .call t dataWeWantToSend =>
      if server.relay.threads[t]?.map RelayThread.phase = some .toReceive then
        (wireStep server.wire (.send t (text dataWeWantToSend))).map
          fun wire => { server with wire }
      else none
  | .collect t count behind => do
      let wire ← wireStep server.wire (.recv t count)
      let call ← wire.link.finished.getLast?
      let relay ← relayStep server.relay (.post t (call.returnedDataFromHelper ++ behind))
      pure ⟨relay, wire⟩
  | .helper event =>
      if OfHelper event then (wireStep server.wire event).map fun wire => { server with wire }
      else none

/-- The server before the first connection, for at most so many connections. -/
def startChatServer (threads : Nat) : ChatServer := ⟨startRelay, startWire threads⟩

/-- Registrations find a free slot and `accept` a free number, the decoder threads do not
disturb each other, every `recv` on the connection to the helper respects the borders, and a
reply ends in the buffer. -/
def ServesOrderly (server : ChatServer) : ChatServerEvent → Prop
  | .relay event => FindsFree server.relay event
  | .call _ _ => True
  | .collect t count behind => RunsOrderly server.wire (.recv t count) ∧ behind.head? = some 0
  | .helper event => RunsOrderly server.wire event

instance (server : ChatServer) : DecidablePred (ServesOrderly server)
  | .relay event => inferInstanceAs (Decidable (FindsFree server.relay event))
  | .call _ _ => .isTrue trivial
  | .collect t count behind => inferInstanceAs (Decidable
      (RunsOrderly server.wire (.recv t count) ∧ behind.head? = some 0))
  | .helper event => inferInstanceAs (Decidable (RunsOrderly server.wire event))

/-- The steps that are taken. -/
inductive ChatServerMove (server : ChatServer) : ChatServerEvent → ChatServer → Prop
  | relays (event : RelayEvent) (relay : Relay) (outside : OutsideCalls server event)
      (stepped : relayStep server.relay event = some relay) :
      ChatServerMove server (.relay event) { server with relay }
  | calls (t : Nat) (dataWeWantToSend : List UInt8) (wire : Wire) (thread : RelayThread)
      (present : server.relay.threads[t]? = some thread) (before : thread.phase = .toReceive)
      (stepped : wireStep server.wire (.send t (text dataWeWantToSend)) = some wire) :
      ChatServerMove server (.call t dataWeWantToSend) { server with wire }
  | collects (t count : Nat) (behind : List UInt8) (wire : Wire) (call : Call)
      (thread : RelayThread) (stepped : wireStep server.wire (.recv t count) = some wire)
      (last : wire.link.finished.getLast? = some call)
      (present : server.relay.threads[t]? = some thread) (before : thread.phase = .toReceive) :
      ChatServerMove server (.collect t count behind)
        ⟨server.relay.begin t thread (.publicMessage
          (outboundMessage (call.returnedDataFromHelper ++ behind) thread.origSender)), wire⟩
  | helps (event : WireEvent) (wire : Wire) (ofHelper : OfHelper event)
      (stepped : wireStep server.wire event = some wire) :
      ChatServerMove server (.helper event) { server with wire }

variable {server next : ChatServer} {event : ChatServerEvent}

/-- Every computed step is one of these. -/
theorem chat_server_move (stepped : chatServerStep server event = some next) :
    ChatServerMove server event next := by
  cases event with
  | relay event =>
    obtain ⟨outside, taken⟩ := Option.ite_none_right_eq_some.mp stepped
    obtain ⟨relay, moved, rfl⟩ := Option.map_eq_some_iff.mp taken
    exact .relays event relay outside moved
  | call t dataWeWantToSend =>
    obtain ⟨receiving, taken⟩ := Option.ite_none_right_eq_some.mp stepped
    obtain ⟨thread, present, before⟩ := Option.map_eq_some_iff.mp receiving
    obtain ⟨wire, moved, rfl⟩ := Option.map_eq_some_iff.mp taken
    exact .calls t dataWeWantToSend wire thread present before moved
  | collect t count behind =>
    obtain ⟨wire, moved, continued⟩ := Option.bind_eq_some_iff.mp stepped
    obtain ⟨call, last, continued⟩ := Option.bind_eq_some_iff.mp continued
    obtain ⟨relay, posted, built⟩ := Option.bind_eq_some_iff.mp continued
    obtain rfl := Option.some.inj built
    cases relay_move posted with
    | posts t thread inputData present before =>
      exact .collects t count behind wire call thread moved last present before
  | helper event =>
    obtain ⟨ofHelper, taken⟩ := Option.ite_none_right_eq_some.mp stepped
    obtain ⟨wire, moved, rfl⟩ := Option.map_eq_some_iff.mp taken
    exact .helps event wire ofHelper moved

/-- For the two programs on the connection it makes theirs. -/
theorem chat_server_wired :
    TransitionSystem.Simulates chatServerStep ServesOrderly wireStep RunsOrderly
      fun server wire => wire = server.wire := by
  rintro server _ event next rfl orderly stepped
  cases chat_server_move stepped with
  | relays => exact ⟨[], server.wire, rfl, trivial, rfl⟩
  | calls t dataWeWantToSend wire thread present before moved =>
    exact ⟨[.send t (text dataWeWantToSend)], wire,
      (TransitionSystem.run_singleton _ _).trans moved, ⟨trivial, fun _ _ => trivial⟩, rfl⟩
  | collects t count behind wire call thread moved =>
    exact ⟨[.recv t count], wire, (TransitionSystem.run_singleton _ _).trans moved,
      ⟨orderly.1, fun _ _ => trivial⟩, rfl⟩
  | helps event wire ofHelper moved =>
    exact ⟨[event], wire, (TransitionSystem.run_singleton _ _).trans moved,
      ⟨orderly, fun _ _ => trivial⟩, rfl⟩

/-- What a step of the server is for the relay. -/
def RelaySteps (server after : ChatServer) : ChatServerEvent → Prop
  | .relay event => relayStep server.relay event = some after.relay
  | .collect t _ _ => ∃ inputData, relayStep server.relay (.post t inputData) = some after.relay
  | .call _ _ | .helper _ => after.relay = server.relay

/-- Every step of the server is one of the relay, or none. -/
theorem server_relay {server after : ChatServer} {event : ChatServerEvent}
    (stepped : chatServerStep server event = some after) : RelaySteps server after event := by
  cases chat_server_move stepped with
  | relays event relay outside moved => exact moved
  | calls | helps => exact rfl
  | collects t count behind wire call thread moved last present before =>
    exact ⟨call.returnedDataFromHelper ++ behind, by simp [relayStep, present, before]⟩

/-- The sockets of the table stay those of open connections. -/
theorem Routed.serve {server after : ChatServer} {event : ChatServerEvent}
    (routed : Routed server.relay) (orderly : ServesOrderly server event)
    (stepped : chatServerStep server event = some after) : Routed after.relay := by
  have relays := server_relay stepped
  cases event with
  | relay event => exact routed.step orderly.1 orderly.2 relays
  | collect t count behind =>
    obtain ⟨inputData, moved⟩ := relays
    have free : FindsFreeSlot server.relay (.post t inputData) := trivial
    exact routed.step free trivial moved
  | call | helper =>
    have same : after.relay = server.relay := relays
    exact same ▸ routed

/-- The texts that a connection's thread took up in the events. -/
def calledTexts (sender : Nat) (events : List ChatServerEvent) : List (List UInt8) :=
  events.filterMap fun event =>
    match event with
    | .call t dataWeWantToSend => if t = sender then some (text dataWeWantToSend) else none
    | _ => none

/-- The texts of a connection's thread for which it has got a reply. -/
def ChatServer.answered (server : ChatServer) (sender : Nat) : List (List UInt8) :=
  (server.wire.link.finished.filter fun call => call.thread = sender).map Call.dataSentToHelper

/-- The text of a connection's thread for which it awaits the reply. -/
def ChatServer.pending (server : ChatServer) (sender : Nat) : List (List UInt8) :=
  match server.wire.link.clientThreads[sender]? with
  | some (.awaiting dataSentToHelper) => [dataSentToHelper]
  | _ => []

/-- The name that a connection's thread sends with its texts. -/
def ChatServer.nameOf (server : ChatServer) (sender : Nat) : List UInt8 :=
  (server.relay.threads[sender]?.map RelayThread.origSender).getD []

/-- The message of a post, if it is a public message. -/
def publicText (post : Post Nat Outbound) : Option (List UInt8) :=
  match post.text with
  | .pushNotification _ => none
  | .publicMessage outboundMessage => some outboundMessage

/-- The public messages of a connection's thread, in the order in which their walks began. -/
def Relay.publicPosts (relay : Relay) (sender : Nat) : List (List UInt8) :=
  (relay.posts.filter fun post => post.sender = sender).filterMap publicText

/-- The helper's own steps finish no call and leave every thread where it is in its calls. -/
theorem helper_step_link {wire after : Wire} {event : WireEvent} (ofHelper : OfHelper event)
    (stepped : wireStep wire event = some after) :
    after.link.finished = wire.link.finished ∧
      after.link.clientThreads = wire.link.clientThreads := by
  cases wire_move stepped with
  | sends | collects => exact absurd ofHelper id
  | reads | decodes | joins | replies => exact ⟨rfl, rfl⟩

/-- A thread's `send` and `recv` on the connection. -/
theorem send_step_link {wire after : Wire} {t : Nat} {dataSentToHelper : List UInt8}
    (stepped : wireStep wire (.send t dataSentToHelper) = some after) :
    wire.link.clientThreads[t]? = some .outside ∧
      after.link.finished = wire.link.finished ∧
      after.link.clientThreads =
        wire.link.clientThreads.set t (.awaiting dataSentToHelper) := by
  cases wire_move stepped with
  | sends _ _ link moved =>
    cases link_move moved with
    | sends _ _ outside => exact ⟨outside, rfl, rfl⟩

theorem recv_step_link {wire after : Wire} {t count : Nat}
    (stepped : wireStep wire (.recv t count) = some after) :
    ∃ dataSentToHelper returnedDataFromHelper,
      wire.link.clientThreads[t]? = some (.awaiting dataSentToHelper) ∧
      after.link.finished =
        wire.link.finished ++ [⟨t, dataSentToHelper, returnedDataFromHelper⟩] ∧
      after.link.clientThreads = wire.link.clientThreads.set t .outside := by
  cases wire_move stepped with
  | collects _ _ link moved =>
    cases link_move moved with
    | collects _ _ dataSentToHelper returned rest awaiting =>
      exact ⟨dataSentToHelper, returned, awaiting, rfl, rfl⟩

/-- No step loses a text of a thread: what it took up is answered, or it awaits the reply. -/
theorem texts_step (stepped : chatServerStep server event = some next) (sender : Nat) :
    server.answered sender ++ server.pending sender ++ calledTexts sender [event] =
      next.answered sender ++ next.pending sender := by
  cases chat_server_move stepped with
  | relays => exact List.append_nil _
  | helps event wire ofHelper moved =>
    obtain ⟨finished, threads⟩ := helper_step_link ofHelper moved
    simp only [ChatServer.answered, ChatServer.pending, finished, threads]
    exact List.append_nil _
  | calls t dataWeWantToSend wire thread present before moved =>
    obtain ⟨outside, finished, threads⟩ := send_step_link moved
    have inside := (List.getElem?_eq_some_iff.mp outside).1
    by_cases own : t = sender
    · subst own
      simp only [ChatServer.answered, ChatServer.pending, finished, threads, outside,
        List.getElem?_set_self inside]
      simp [calledTexts]
    · simp only [ChatServer.answered, ChatServer.pending, finished, threads,
        List.getElem?_set_ne own]
      simp [calledTexts, own]
  | collects t count behind wire call thread moved =>
    obtain ⟨dataSentToHelper, returned, awaiting, finished, threads⟩ := recv_step_link moved
    have inside := (List.getElem?_eq_some_iff.mp awaiting).1
    by_cases own : t = sender
    · subst own
      simp only [ChatServer.answered, ChatServer.pending, finished, threads, awaiting,
        List.getElem?_set_self inside]
      simp [calledTexts]
    · simp only [ChatServer.answered, ChatServer.pending, finished, threads,
        List.getElem?_set_ne own]
      simp [calledTexts, own]

/-- Over a whole run the texts that a thread took up are those it had, and the new ones. -/
theorem texts_run {events : List ChatServerEvent} {start : ChatServer}
    (ran : TransitionSystem.run chatServerStep start events = some server) (sender : Nat) :
    start.answered sender ++ start.pending sender ++ calledTexts sender events =
      server.answered sender ++ server.pending sender := by
  induction events generalizing start with
  | nil =>
    obtain rfl := Option.some.inj ran
    exact List.append_nil _
  | cons event rest inductionHypothesis =>
    obtain ⟨middle, stepped, continued⟩ := Option.bind_eq_some_iff.mp ran
    have first := texts_step stepped sender
    have split : calledTexts sender (event :: rest) =
        calledTexts sender [event] ++ calledTexts sender rest :=
      List.filterMap_append (l := [event])
    rw [split, ← List.append_assoc, first]
    exact inductionHypothesis continued

section Relayed

variable {relay after : Relay}

/-- A thread that has its client's name keeps it. -/
theorem relay_keeps_name {event : RelayEvent} (stepped : relayStep relay event = some after)
    {t : Nat} {thread : RelayThread} (present : relay.threads[t]? = some thread)
    (named : thread.Named) :
    ∃ later, after.threads[t]? = some later ∧ later.Named ∧
      later.origSender = thread.origSender := by
  -- another thread's step, or one of this thread with a new phase
  have changed : ∀ (other : Nat) (moving moved : RelayThread),
      relay.threads[other]? = some moving →
      (moving.Named → moved.Named ∧ moved.origSender = moving.origSender) →
      ∃ later, (relay.threads.set other moved)[t]? = some later ∧ later.Named ∧
        later.origSender = thread.origSender := by
    intro other moving moved found keeps
    by_cases here : other = t
    · subst here
      obtain rfl := Option.some.inj (present.symm.trans found)
      exact ⟨moved, List.getElem?_set_self (List.getElem?_eq_some_iff.mp found).1, keeps named⟩
    · exact ⟨thread, (List.getElem?_set_ne here).trans present, named, rfl⟩
  cases relay_move stepped with
  | accepts =>
    refine ⟨thread, ?_, named, rfl⟩
    exact (List.getElem?_append_left (List.getElem?_eq_some_iff.mp present).1).trans present
  | refuses => exact ⟨thread, present, named, rfl⟩
  | registers other moving origSender found before =>
    exact changed other moving _ found fun isNamed => absurd before isNamed
  | leaves other moving found | pushes other moving found | posts other moving _ found
  | removes other moving found =>
    exact changed other moving _ found fun _ => ⟨by simp [RelayThread.Named], rfl⟩
  | visits other moving outbound number i found =>
    exact changed other moving _ found fun _ => ⟨by simp [RelayThread.Named], rfl⟩
  | ends other moving outbound number i found =>
    exact changed other moving _ found fun _ => ⟨by simp [RelayThread.Named], rfl⟩

/-- Only `sendPublicMessage` adds public messages. -/
theorem public_posts_kept {event : RelayEvent} (outside : OutsideCalls server event)
    (stepped : relayStep relay event = some after) (sender : Nat) :
    after.publicPosts sender = relay.publicPosts sender := by
  cases relay_move stepped with
  | posts => exact absurd outside id
  | pushes t thread =>
    simp only [Relay.publicPosts, Relay.begin, List.filter_append, List.filterMap_append]
    rw [List.append_right_eq_self, List.filterMap_eq_nil_iff]
    intro post member
    obtain rfl := List.mem_singleton.mp (List.mem_of_mem_filter member)
    rfl
  | accepts | refuses | leaves | registers | visits | ends | removes => rfl

/-- `sendPublicMessage` adds its own message. -/
theorem public_posts_begin (t : Nat) (thread : RelayThread) (outboundMessage : List UInt8)
    (sender : Nat) :
    (relay.begin t thread (.publicMessage outboundMessage)).publicPosts sender =
      relay.publicPosts sender ++ if t = sender then [outboundMessage] else [] := by
  simp only [Relay.publicPosts, Relay.begin, List.filter_append, List.filterMap_append]
  by_cases own : t = sender
  · simp [own, publicText]
  · simp [own]

end Relayed

/-- The invariant of orderly runs: calls get the results for their own texts, and the public
messages of a connection's thread are those for the texts that it has got a reply to. -/
structure Answering (server : ChatServer) : Prop where
  shown : Shown server.wire
  inOrder : InOrder server.wire.link
  noNul : ∀ (t : Nat) (dataSentToHelper : List UInt8),
    server.wire.link.clientThreads[t]? = some (.awaiting dataSentToHelper) →
      0 ∉ dataSentToHelper
  named : ∀ call ∈ server.wire.link.finished, ∃ thread,
    server.relay.threads[call.thread]? = some thread ∧ thread.Named
  posted : ∀ sender, server.relay.publicPosts sender =
    (server.answered sender).map fun dataSentToHelper =>
      outboundMessage (helperResult dataSentToHelper) (server.nameOf sender)

/-- Before the first connection. -/
theorem start_answering (threads : Nat) : Answering (startChatServer threads) where
  shown := start_shown threads
  inOrder := start_in_order threads
  noNul := by
    intro t dataSentToHelper awaiting
    have outside := List.eq_of_mem_replicate (List.mem_of_getElem? awaiting)
    exact absurd outside (by simp)
  named := fun _ member => absurd member List.not_mem_nil
  posted := fun _ => rfl

/-- An orderly step of the two programs keeps the order on the connection. -/
theorem orderly_step_in_order {wire after : Wire} {event : WireEvent} (shown : Shown wire)
    (inOrder : InOrder wire.link) (orderly : RunsOrderly wire event)
    (stepped : wireStep wire event = some after) : Shown after ∧ InOrder after.link := by
  obtain ⟨linked, shownToo⟩ := orderly_step_linked shown orderly stepped
  exact ⟨shownToo, in_order_run inOrder (orderly_step_respects orderly) linked⟩

/-- A reply that ends in the buffer is broadcast as it is. -/
theorem reply_broadcast {reply behind : List UInt8} (noNul : 0 ∉ reply)
    (ended : behind.head? = some 0) (origSender : List UInt8) :
    outboundMessage (reply ++ behind) origSender = outboundMessage reply origSender := by
  obtain ⟨rest, rfl⟩ := List.head?_eq_some_iff.mp ended
  rw [outboundMessage, outboundMessage, CString.text_terminated noNul,
    CString.text_of_no_nul noNul]

/-- A step of the relay without a reply. -/
theorem Answering.relay (answering : Answering server) {event : RelayEvent} {relay : Relay}
    (outside : OutsideCalls server event) (stepped : relayStep server.relay event = some relay) :
    Answering { server with relay } := by
  refine ⟨answering.shown, answering.inOrder, answering.noNul, ?_, ?_⟩
  · intro call member
    obtain ⟨thread, present, named⟩ := answering.named call member
    obtain ⟨later, presentToo, namedToo, _⟩ := relay_keeps_name stepped present named
    exact ⟨later, presentToo, namedToo⟩
  · intro sender
    refine (public_posts_kept outside stepped sender).trans
      ((answering.posted sender).trans (List.map_congr_left ?_))
    intro dataSentToHelper among
    -- the thread has a finished call, so it keeps its name
    obtain ⟨call, isAnswered, rfl⟩ := List.mem_map.mp among
    obtain ⟨member, own⟩ := List.mem_filter.mp isAnswered
    obtain rfl : call.thread = sender := by simpa using own
    obtain ⟨thread, present, named⟩ := answering.named call member
    obtain ⟨later, presentToo, _, same⟩ := relay_keeps_name stepped present named
    simp only [ChatServer.nameOf, present, presentToo, Option.map_some, same]

/-- A thread takes up a text. -/
theorem Answering.call (answering : Answering server) {t : Nat} {dataWeWantToSend : List UInt8}
    {wire : Wire} (stepped : wireStep server.wire (.send t (text dataWeWantToSend)) = some wire) :
    Answering { server with wire } := by
  obtain ⟨outside, finished, threads⟩ := send_step_link stepped
  have orderly : RunsOrderly server.wire (.send t (text dataWeWantToSend)) := trivial
  obtain ⟨shown, inOrder⟩ :=
    orderly_step_in_order answering.shown answering.inOrder orderly stepped
  refine ⟨shown, inOrder, ?_, ?_, ?_⟩
  · intro other dataSentToHelper awaiting
    simp only [threads] at awaiting
    rcases MemberUpdate.read_set_cases awaiting with ⟨_, new⟩ | ⟨_, old⟩
    · obtain rfl := CallPhase.awaiting.inj new
      exact CString.no_nul_in_text dataWeWantToSend
    · exact answering.noNul other dataSentToHelper old
  · simp only [finished]
    exact answering.named
  · intro sender
    simp only [ChatServer.answered, finished]
    exact answering.posted sender

/-- A step of the helper. -/
theorem Answering.helper (answering : Answering server) {event : WireEvent} {wire : Wire}
    (ofHelper : OfHelper event) (orderly : RunsOrderly server.wire event)
    (stepped : wireStep server.wire event = some wire) : Answering { server with wire } := by
  obtain ⟨finished, threads⟩ := helper_step_link ofHelper stepped
  obtain ⟨shown, inOrder⟩ :=
    orderly_step_in_order answering.shown answering.inOrder orderly stepped
  refine ⟨shown, inOrder, ?_, ?_, ?_⟩
  · simp only [threads]
    exact answering.noNul
  · simp only [finished]
    exact answering.named
  · intro sender
    simp only [ChatServer.answered, finished]
    exact answering.posted sender

/-- A thread receives a reply and begins to broadcast it. -/
theorem Answering.collect (answering : Answering server) {t count : Nat} {behind : List UInt8}
    {wire : Wire} {call : Call} {thread : RelayThread}
    (orderly : RunsOrderly server.wire (.recv t count)) (ended : behind.head? = some 0)
    (stepped : wireStep server.wire (.recv t count) = some wire)
    (last : wire.link.finished.getLast? = some call)
    (present : server.relay.threads[t]? = some thread) :
    Answering ⟨server.relay.begin t thread (.publicMessage
      (outboundMessage (call.returnedDataFromHelper ++ behind) thread.origSender)), wire⟩ := by
  obtain ⟨dataSentToHelper, returned, awaiting, finished, threads⟩ := recv_step_link stepped
  obtain ⟨shown, inOrder⟩ :=
    orderly_step_in_order answering.shown answering.inOrder orderly stepped
  rw [finished, List.getLast?_concat] at last
  obtain rfl := Option.some.inj last
  have result : returned = helperResult dataSentToHelper :=
    inOrder.paired ⟨t, dataSentToHelper, returned⟩ (by simp [finished])
  have noNul := answering.noNul t dataSentToHelper awaiting
  have broadcast : outboundMessage (returned ++ behind) thread.origSender =
      outboundMessage (helperResult dataSentToHelper) thread.origSender := by
    rw [result]
    exact reply_broadcast (no_nul_in_result noNul) ended thread.origSender
  have inside := (List.getElem?_eq_some_iff.mp present).1
  -- every thread keeps its name
  have names : ∀ sender : Nat, ((server.relay.begin t thread (.publicMessage
      (outboundMessage (returned ++ behind) thread.origSender))).threads[sender]?.map
        RelayThread.origSender) = server.relay.threads[sender]?.map RelayThread.origSender := by
    intro sender
    change (server.relay.threads.set t _)[sender]?.map _ = _
    by_cases own : t = sender
    · subst own
      rw [List.getElem?_set_self inside, present]
      rfl
    · rw [List.getElem?_set_ne own]
  refine ⟨shown, inOrder, ?_, ?_, ?_⟩
  · intro other text awaitingToo
    simp only [threads] at awaitingToo
    rcases MemberUpdate.read_set_cases awaitingToo with ⟨_, new⟩ | ⟨_, old⟩
    · exact absurd new (by simp)
    · exact answering.noNul other text old
  · intro call member
    change ∃ later, (server.relay.threads.set t _)[call.thread]? = some later ∧ later.Named
    simp only [finished, List.mem_append, List.mem_singleton] at member
    by_cases own : t = call.thread
    · rw [← own, List.getElem?_set_self inside]
      exact ⟨_, rfl, by simp [RelayThread.Named]⟩
    · rw [List.getElem?_set_ne own]
      rcases member with old | rfl
      · exact answering.named call old
      · exact absurd rfl own
  · intro sender
    have before := answering.posted sender
    simp only [ChatServer.nameOf, names sender]
    rw [public_posts_begin, before, broadcast]
    simp only [ChatServer.answered, finished, List.filter_append, List.map_append,
      ChatServer.nameOf]
    congr 1
    by_cases own : t = sender
    · subst own
      simp [present]
    · simp [own]

/-- Orderly steps keep the invariant. -/
theorem Answering.step (answering : Answering server) (orderly : ServesOrderly server event)
    (stepped : chatServerStep server event = some next) : Answering next := by
  cases chat_server_move stepped with
  | relays event relay outside moved => exact answering.relay outside moved
  | calls t dataWeWantToSend wire thread present before moved => exact answering.call moved
  | collects t count behind wire call thread moved last present before =>
    exact answering.collect orderly.1 orderly.2 moved last present
  | helps event wire ofHelper moved => exact answering.helper ofHelper orderly moved

section Runs

variable (threads : Nat) {events : List ChatServerEvent}

/-- Orderly runs answer. -/
theorem run_answering
    (ran : TransitionSystem.run chatServerStep (startChatServer threads) events = some server)
    (orderly : TransitionSystem.Meets chatServerStep ServesOrderly (startChatServer threads)
      events) : Answering server :=
  TransitionSystem.guarded_run_preserves Answering
    (fun _ _ _ before met stepped => before.step met stepped) (start_answering threads) orderly ran

/-- Every text that a thread took up has been answered, or its reply is awaited. -/
theorem run_texts
    (ran : TransitionSystem.run chatServerStep (startChatServer threads) events = some server)
    (sender : Nat) :
    calledTexts sender events = server.answered sender ++ server.pending sender := by
  have texts := texts_run ran sender
  have outside : (startChatServer threads).pending sender = [] := by
    simp only [ChatServer.pending, startChatServer, startWire, startLink, List.getElem?_replicate]
    split
    case h_1 dataSentToHelper awaiting =>
      split at awaiting
      · cases awaiting
      · cases awaiting
    case h_2 => rfl
  have nothing : (startChatServer threads).answered sender = [] := rfl
  rwa [nothing, outside] at texts

end Runs

end HelperChat
