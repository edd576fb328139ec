import HelperChat.ChatNetwork

/-!
# From keyboards to histories

In orderly runs of all programs the thread of a connection takes what its user types behind
the name, and every other client is sent the helper's results for the taken texts, with the
typed name in front, in the order in which they were typed. What a client has received and
what is on its way to it are the texts that the server has sent it, in their order, with the
list of the clients that it is sent once. Its history file is made of its own lines and of
what its `recv`s got.
-/

namespace HelperChat

open CString (text)

/-- A thread of the server keeps its client's name. -/
theorem server_keeps_name {server after : ChatServer} {event : ChatServerEvent}
    (stepped : chatServerStep server event = some after) {t : Nat} {thread : RelayThread}
    (present : server.relay.threads[t]? = some thread) (named : thread.Named) :
    ∃ later, after.relay.threads[t]? = some later ∧ later.Named ∧
      later.origSender = thread.origSender := by
  have relays := server_relay stepped
  cases event with
  | relay event => exact relay_keeps_name relays present named
  | collect t count behind =>
    obtain ⟨inputData, moved⟩ := relays
    exact relay_keeps_name moved present named
  | call | helper => exact ⟨thread, relays ▸ present, named, rfl⟩

/-- A thread of the server has its client's name from its registration on. -/
theorem server_named_before {server after : ChatServer} {event : ChatServerEvent}
    (stepped : chatServerStep server event = some after) {t : Nat} {thread : RelayThread}
    (present : after.relay.threads[t]? = some thread) (named : thread.Named)
    (unclosed : thread.phase ≠ .gone) :
    event = .relay (.register t thread.origSender) ∨
      ∃ earlier, server.relay.threads[t]? = some earlier ∧ earlier.Named ∧
        earlier.phase ≠ .gone ∧ earlier.origSender = thread.origSender := by
  have relays := server_relay stepped
  cases event with
  | relay event =>
    exact (named_before relays present named unclosed).imp (congrArg ChatServerEvent.relay) id
  | collect other count behind =>
    obtain ⟨inputData, moved⟩ := relays
    exact .inr ((named_before moved present named unclosed).resolve_left (by simp))
  | call | helper => exact .inr ⟨thread, relays ▸ present, named, unclosed, rfl⟩

/-- The lists of the clients that reach a step on the way: a step of the server in which the
thread does not register and its entry does not move up from the index. -/
theorem server_collects {server after : ChatServer} {event : ChatServerEvent}
    (routed : Routed server.relay) (orderly : ServesOrderly server event)
    (stepped : chatServerStep server event = some after) {t i : Nat}
    {name listOfClients : List UInt8} (old : t < server.relay.threads.length)
    (other : ∀ origSender, event ≠ .relay (.register t origSender))
    (stays : ∀ removed, event = .relay (.remove removed) → ¬ MovesUp server.relay removed t i)
    (collects : Collects server.relay t name listOfClients i) :
    Collects after.relay t name listOfClients i := by
  have relays := server_relay stepped
  cases event with
  | relay event =>
    exact collects.step routed orderly.1 relays old (fun _ same => other _ (congrArg _ same))
      fun _ same => stays _ (congrArg _ same)
  | collect index count behind =>
    obtain ⟨inputData, moved⟩ := relays
    have free : FindsFreeSlot server.relay (.post index inputData) := trivial
    exact collects.step routed free moved old (by simp) (by simp)
  | call | helper =>
    have same : after.relay = server.relay := relays
    exact same ▸ collects

/-- What a client has received and what is on its way to it are the texts that were sent to
its connection, in their order, and the list of the clients, once it has been sent. -/
def Streamed (relay : Relay) (t : Nat) (seat : Seat) : Prop :=
  ∃ lists sendings, Interleaves lists (relay.sentTo t) sendings ∧
    lists.length = (if seat.listing = .sent then 1 else 0) ∧
    (∀ list ∈ lists, ListsName (typedName seat.input) list) ∧
    seat.received.flatten ++ seat.toClient = sendings.flatten

/-- The texts that the thread of a connection has handed to `talkWithHelperServer`. -/
def ChatNetwork.handed (network : ChatNetwork) (t : Nat) : List (List UInt8) :=
  (network.seats[t]?.map fun seat => seat.session.dataSentToHelper).getD []

/-- The invariant of orderly runs. -/
structure Networked (network : ChatNetwork) : Prop where
  routed : Routed network.server.relay
  counted : network.seats.length = network.server.relay.threads.length
  seated : ∀ (t : Nat) (seat : Seat), network.seats[t]? = some seat → Seated seat
  named : ∀ (t : Nat) (seat : Seat), network.seats[t]? = some seat →
    seat.session.newBoi ≠ none → ∃ thread, network.server.relay.threads[t]? = some thread ∧
      thread.Named ∧ thread.origSender = seat.session.origSender
  entered : ∀ (t : Nat) (seat : Seat) (thread : RelayThread), network.seats[t]? = some seat →
    network.server.relay.threads[t]? = some thread → thread.Named → thread.phase ≠ .gone →
    text thread.origSender = typedName seat.input
  handed : ∀ t, network.server.answered t ++ network.server.pending t = network.handed t
  collecting : ∀ (t : Nat) (seat : Seat) (listOfClients : List UInt8) (i : Nat),
    network.seats[t]? = some seat → seat.listing = .collecting listOfClients i →
      Collects network.server.relay t (typedName seat.input) listOfClients i
  streamed : ∀ (t : Nat) (seat : Seat), network.seats[t]? = some seat →
    Streamed network.server.relay t seat

section Streams

variable {relay after : Relay} {t : Nat} {seat moved : Seat}

/-- A step that sends nothing to the connection. -/
theorem Streamed.keep (streamed : Streamed relay t seat)
    (sent : after.sentTo t = relay.sentTo t)
    (listing : moved.listing = .sent ↔ seat.listing = .sent) (input : moved.input = seat.input)
    (same : moved.received.flatten ++ moved.toClient = seat.received.flatten ++ seat.toClient) :
    Streamed after t moved := by
  obtain ⟨lists, sendings, interleaves, once, named, bytes⟩ := streamed
  exact ⟨lists, sendings, sent ▸ interleaves, once.trans (by simp only [listing]),
    input ▸ named, same.trans bytes⟩

/-- The list of the clients is sent. -/
theorem Streamed.list (streamed : Streamed relay t seat) (unsent : seat.listing ≠ .sent)
    {message : List UInt8} (named : ListsName (typedName seat.input) message) :
    Streamed relay t ({ seat with listing := .sent }.reach message) := by
  obtain ⟨lists, sendings, interleaves, once, _, bytes⟩ := streamed
  rw [if_neg unsent, List.length_eq_zero_iff] at once
  subst once
  refine ⟨_, _, interleaves.concat_left message, by simp [Seat.reach], ?_, ?_⟩
  · simpa [Seat.reach] using named
  · simp only [Seat.reach]
    rw [← List.append_assoc, bytes]
    simp

/-- A text of a broadcast is sent. -/
theorem Streamed.relayed (streamed : Streamed relay t seat) {relayed : Relayed}
    (sent : after.sent = relay.sent ++ [relayed]) (own : relayed.connection = t) :
    Streamed after t (seat.reach (text relayed.sending.message)) := by
  obtain ⟨lists, sendings, interleaves, once, named, bytes⟩ := streamed
  have grown : after.sentTo t = relay.sentTo t ++ [text relayed.sending.message] := by
    simp [Relay.sentTo, sent, own]
  refine ⟨lists, _, grown ▸ interleaves.concat_right (text relayed.sending.message), once, named,
    ?_⟩
  simp only [Seat.reach]
  rw [← List.append_assoc, bytes]
  simp

/-- A text for one connection is none for another one. -/
theorem sent_to_other {relayed : Relayed} (sent : after.sent = relay.sent ++ [relayed])
    (other : relayed.connection ≠ t) : after.sentTo t = relay.sentTo t := by
  simp [Relay.sentTo, sent, other]

/-- Nothing has been sent to a connection that has not been accepted. -/
theorem Routed.sent_to_nobody (routed : Routed relay) (later : relay.threads.length ≤ t) :
    relay.sentTo t = [] := by
  rw [Relay.sentTo, List.map_eq_nil_iff, List.filter_eq_nil_iff]
  intro relayed member
  obtain ⟨⟨thread, present, _⟩, _⟩ := routed.relaying.carried relayed member
  have inside := (List.getElem?_eq_some_iff.mp present).1
  simp only [decide_eq_true_eq]
  omega

/-- A step of the server without an iteration sends no texts of broadcasts. -/
theorem server_sent_kept {server later : ChatServer} {event : ChatServerEvent}
    (stepped : chatServerStep server event = some later)
    (silent : ∀ t, event ≠ .relay (.visit t)) : later.relay.sent = server.relay.sent := by
  have relays := server_relay stepped
  cases event with
  | relay event => exact relay_sent_kept relays fun t same => silent t (congrArg _ same)
  | collect other count behind =>
    obtain ⟨inputData, moved⟩ := relays
    exact relay_sent_kept moved (by simp)
  | call | helper => exact congrArg Relay.sent relays

end Streams

/-- A step of the server adds no threads, but for an accepted connection. -/
theorem server_thread_count {server after : ChatServer} {event : ChatServerEvent}
    (stepped : chatServerStep server event = some after)
    (other : ∀ client_socket, event ≠ .relay (.accept client_socket)) :
    after.relay.threads.length = server.relay.threads.length := by
  have relays := server_relay stepped
  cases event with
  | relay event =>
    exact relay_thread_count relays fun client_socket same =>
      other client_socket (congrArg _ same)
  | collect t count behind =>
    obtain ⟨inputData, moved⟩ := relays
    exact relay_thread_count moved (by simp)
  | call | helper => exact congrArg (fun relay : Relay => relay.threads.length) relays

/-- What a step keeps for the connections other than one if it accepts nobody, removes nobody
and sends nothing. -/
structure Quiet (relay after : Relay) (t : Nat) : Prop where
  routed : Routed after
  threads : after.threads.length = relay.threads.length
  named : ∀ (t : Nat) (thread : RelayThread), relay.threads[t]? = some thread → thread.Named →
    ∃ later, after.threads[t]? = some later ∧ later.Named ∧ later.origSender = thread.origSender
  before : ∀ other ≠ t, ∀ thread, after.threads[other]? = some thread → thread.Named →
    thread.phase ≠ .gone → ∃ earlier, relay.threads[other]? = some earlier ∧ earlier.Named ∧
      earlier.phase ≠ .gone ∧ earlier.origSender = thread.origSender
  collects : ∀ other ≠ t, other < relay.threads.length → ∀ name listOfClients i,
    Collects relay other name listOfClients i → Collects after other name listOfClients i
  sent : after.sent = relay.sent

/-- Then the streams stay as they are. -/
theorem Quiet.sentTo {relay after : Relay} {t : Nat} (quiet : Quiet relay after t) (other : Nat) :
    after.sentTo other = relay.sentTo other := by
  rw [Relay.sentTo, quiet.sent, Relay.sentTo]

/-- Steps of the server that accept nobody, remove nobody and send nothing. -/
theorem server_quiet {server after : ChatServer} {event : ChatServerEvent}
    (routed : Routed server.relay) (orderly : ServesOrderly server event)
    (refuses : ∀ client_socket, event ≠ .relay (.accept client_socket))
    (silent : ∀ t, event ≠ .relay (.visit t)) (keeps : ∀ t, event ≠ .relay (.remove t)) {t : Nat}
    (own : ∀ other ≠ t, ∀ origSender, event ≠ .relay (.register other origSender))
    (stepped : chatServerStep server event = some after) : Quiet server.relay after.relay t where
  routed := routed.serve orderly stepped
  threads := server_thread_count stepped refuses
  named := fun _ _ present named => server_keeps_name stepped present named
  before := fun other different _ present named unclosed =>
    (server_named_before stepped present named unclosed).resolve_left (own other different _)
  collects := fun other different old _ _ _ collects =>
    server_collects routed orderly stepped old (own other different)
      (fun removed same => absurd same (keeps removed)) collects
  sent := server_sent_kept stepped silent

/-- Nothing changes for the server. -/
theorem Routed.quiet {relay : Relay} (routed : Routed relay) (t : Nat) : Quiet relay relay t :=
  ⟨routed, rfl, fun _ thread present named => ⟨thread, present, named, rfl⟩,
    fun _ _ thread present named unclosed => ⟨thread, present, named, unclosed, rfl⟩,
    fun _ _ _ _ _ _ => id, rfl⟩

section Steps

variable {network : ChatNetwork} {server : ChatServer} {t : Nat} {seat moved : Seat}

/-- The thread of a connection has an entry in the list of threads. -/
theorem Networked.inside (networked : Networked network)
    (present : network.seats[t]? = some seat) : t < network.server.relay.threads.length :=
  networked.counted ▸ (List.getElem?_eq_some_iff.mp present).1

/-- A connection whose thread has received the name keeps it in the relay. -/
theorem Networked.named_after (networked : Networked network) {event : ChatServerEvent}
    (stepped : chatServerStep network.server event = some server)
    (present : network.seats[t]? = some seat) (hasName : seat.session.newBoi ≠ none) :
    ∃ thread, server.relay.threads[t]? = some thread ∧ thread.Named ∧
      thread.origSender = seat.session.origSender := by
  obtain ⟨thread, running, isNamed, own⟩ := networked.named t seat present hasName
  obtain ⟨later, runningToo, namedToo, kept⟩ := server_keeps_name stepped running isNamed
  exact ⟨later, runningToo, namedToo, kept.trans own⟩

/-- The name in the relay is the typed one after every step but a registration. -/
theorem Networked.entered_after (networked : Networked network) {event : ChatServerEvent}
    (stepped : chatServerStep network.server event = some server)
    (other : ∀ origSender, event ≠ .relay (.register t origSender))
    (present : network.seats[t]? = some seat) {thread : RelayThread}
    (running : server.relay.threads[t]? = some thread) (named : thread.Named)
    (unclosed : thread.phase ≠ .gone) : text thread.origSender = typedName seat.input := by
  obtain ⟨earlier, ran, namedToo, openToo, same⟩ :=
    (server_named_before stepped running named unclosed).resolve_left (other _)
  exact same ▸ networked.entered t seat earlier present ran namedToo openToo

/-- A quiet step in which a connection goes on. -/
theorem Networked.update (networked : Networked network)
    (quiet : Quiet network.server.relay server.relay t) (present : network.seats[t]? = some seat)
    (seated : Seated moved)
    (named : moved.session.newBoi ≠ none → ∃ thread, server.relay.threads[t]? = some thread ∧
      thread.Named ∧ thread.origSender = moved.session.origSender)
    (entered : ∀ thread, server.relay.threads[t]? = some thread → thread.Named →
      thread.phase ≠ .gone → text thread.origSender = typedName moved.input)
    (handed : ∀ other, server.answered other ++ server.pending other =
      ChatNetwork.handed ⟨server, network.seats.set t moved⟩ other)
    (collecting : ∀ listOfClients i, moved.listing = .collecting listOfClients i →
      Collects server.relay t (typedName moved.input) listOfClients i)
    (streamed : Streamed server.relay t moved) :
    Networked ⟨server, network.seats.set t moved⟩ := by
  refine ⟨quiet.routed, ?_, ?_, ?_, ?_, handed, ?_, ?_⟩
  · exact (List.length_set ..).trans (networked.counted.trans quiet.threads.symm)
  · intro other found read
    rcases MemberUpdate.read_set_cases read with ⟨_, rfl⟩ | ⟨_, old⟩
    · exact seated
    · exact networked.seated other found old
  · intro other found read hasName
    rcases MemberUpdate.read_set_cases read with ⟨rfl, rfl⟩ | ⟨_, old⟩
    · exact named hasName
    · obtain ⟨thread, running, isNamed, sender⟩ := networked.named other found old hasName
      obtain ⟨later, runningToo, namedToo, kept⟩ := quiet.named other thread running isNamed
      exact ⟨later, runningToo, namedToo, kept.trans sender⟩
  · intro other found thread read running isNamed unclosed
    rcases MemberUpdate.read_set_cases read with ⟨rfl, rfl⟩ | ⟨different, old⟩
    · exact entered thread running isNamed unclosed
    · obtain ⟨earlier, ran, namedToo, openToo, same⟩ :=
        quiet.before other different thread running isNamed unclosed
      exact same ▸ networked.entered other found earlier old ran namedToo openToo
  · intro other found listOfClients i read listing
    rcases MemberUpdate.read_set_cases read with ⟨rfl, rfl⟩ | ⟨different, old⟩
    · exact collecting listOfClients i listing
    · exact quiet.collects other different (networked.inside old) _ _ _
        (networked.collecting other found listOfClients i old listing)
  · intro other found read
    rcases MemberUpdate.read_set_cases read with ⟨rfl, rfl⟩ | ⟨_, old⟩
    · exact streamed
    · exact (networked.streamed other found old).keep (quiet.sentTo other) Iff.rfl rfl rfl

/-- The thread of a connection hands on some texts more. -/
theorem handed_update (server : ChatServer) (present : network.seats[t]? = some seat)
    {more : List (List UInt8)}
    (grown : moved.session.dataSentToHelper = seat.session.dataSentToHelper ++ more)
    (other : Nat) :
    ChatNetwork.handed ⟨server, network.seats.set t moved⟩ other =
      network.handed other ++ if t = other then more else [] := by
  have inside := (List.getElem?_eq_some_iff.mp present).1
  by_cases here : t = other
  · subst here
    simp [ChatNetwork.handed, List.getElem?_set_self inside, present, grown]
  · simp [ChatNetwork.handed, List.getElem?_set_ne here, here]

/-- A thread that hands on nothing new. -/
theorem handed_kept (server : ChatServer) (present : network.seats[t]? = some seat)
    (same : moved.session.dataSentToHelper = seat.session.dataSentToHelper) (other : Nat) :
    ChatNetwork.handed ⟨server, network.seats.set t moved⟩ other = network.handed other := by
  rw [handed_update server present (same.trans (List.append_nil _).symm), ite_self,
    List.append_nil]

/-- A step in which no thread takes up a text. -/
theorem Networked.handed_server (networked : Networked network) {event : ChatServerEvent}
    (stepped : chatServerStep network.server event = some server)
    (untaken : ∀ other, calledTexts other [event] = []) (other : Nat) :
    server.answered other ++ server.pending other = network.handed other := by
  have texts := texts_step stepped other
  rw [untaken, List.append_nil] at texts
  exact texts.symm.trans (networked.handed other)

/-- A pass of a client's loop. -/
theorem Networked.pass (networked : Networked network) {closed : Bool} {event : SelectEvent}
    (present : network.seats[t]? = some seat) (whole : PassesWhole seat event)
    (stepped : clientPass closed seat event = some moved) :
    Networked { network with seats := network.seats.set t moved } := by
  have seated := (networked.seated t seat present).pass whole stepped
  obtain ⟨toClient, streamed, continued⟩ := Option.bind_eq_some_iff.mp stepped
  obtain ⟨client, moves, built⟩ := Option.bind_eq_some_iff.mp continued
  obtain rfl := Option.some.inj built
  refine networked.update (networked.routed.quiet t) present seated
    (networked.named t seat present)
    (networked.entered t seat · present) ?_ (networked.collecting t seat · · present) ?_
  · intro other
    refine (networked.handed other).trans (Eq.symm ?_)
    exact handed_kept network.server present (by rfl) other
  · refine (networked.streamed t seat present).keep rfl Iff.rfl rfl ?_
    rw [List.flatten_append, List.append_assoc, ← stream_after streamed]

/-- The thread of a connection receives the name and registers. -/
theorem Networked.name (networked : Networked network) {clientSocketID : Int}
    {session : Session} (present : network.seats[t]? = some seat)
    (unnamed : seat.session.newBoi = none)
    (free : network.server.relay.table.currentClientCount < maximumConnectedClients)
    (took : sessionStep clientSocketID seat.session (text seat.nameOfClient).length =
      some session)
    (stepped : chatServerStep network.server (.relay (.register t session.origSender)) =
      some server) :
    Networked ⟨server, network.seats.set t { seat with session := session }⟩ := by
  obtain ⟨seated, named, handed⟩ := (networked.seated t seat present).first unnamed took
  have orderly : ServesOrderly network.server (.relay (.register t session.origSender)) :=
    ⟨free, trivial⟩
  have quiet : Quiet network.server.relay server.relay t :=
    server_quiet networked.routed orderly (by simp) (by simp) (by simp) (by simp [eq_comm]) stepped
  have registered : ∃ thread, server.relay.threads[t]? = some thread ∧ thread.Named ∧
      thread.origSender = session.origSender := by
    cases chat_server_move stepped with
    | relays _ relay _ moved =>
      cases relay_move moved with
      | registers _ thread _ running before =>
        have inside := (List.getElem?_eq_some_iff.mp running).1
        exact ⟨_, List.getElem?_set_self inside, by simp [RelayThread.Named], rfl⟩
  refine networked.update quiet present seated (fun _ => registered) ?_ ?_ ?_
    ((networked.streamed t seat present).keep (quiet.sentTo t) Iff.rfl rfl rfl)
  · intro thread running _ _
    obtain ⟨other, runningToo, _, own⟩ := registered
    obtain rfl := Option.some.inj (running.symm.trans runningToo)
    rw [own]
    exact seated.stored named
  · intro other
    refine (networked.handed_server stepped (fun _ => rfl) other).trans (Eq.symm ?_)
    exact handed_kept server present handed other
  · intro listOfClients i listing
    exact (networked.collecting t seat listOfClients i present listing).register
      networked.routed orderly.1 (server_relay stepped)

/-- The thread of a connection receives a text and sends it to the helper. -/
theorem Networked.take (networked : Networked network) {clientSocketID : Int}
    {dataBytesIncoming : Nat} {session : Session} (present : network.seats[t]? = some seat)
    (named : seat.session.newBoi ≠ none)
    (took : sessionStep clientSocketID seat.session dataBytesIncoming = some session)
    (stepped : chatServerStep network.server (.call t session.dataWeWantToSend) = some server) :
    Networked ⟨server, network.seats.set t { seat with session := session }⟩ := by
  obtain ⟨seated, same, sender, handed⟩ := (networked.seated t seat present).message named took
  have orderly : ServesOrderly network.server (.call t session.dataWeWantToSend) := trivial
  have quiet : Quiet network.server.relay server.relay t :=
    server_quiet networked.routed orderly (by simp) (by simp) (by simp) (by simp) stepped
  have kept : server.relay = network.server.relay := server_relay stepped
  refine networked.update quiet present seated ?_ ?_ ?_ ?_
    ((networked.streamed t seat present).keep (quiet.sentTo t) Iff.rfl rfl rfl)
  · intro _
    obtain ⟨thread, running, isNamed, own⟩ := networked.named t seat present named
    exact ⟨thread, kept ▸ running, isNamed, own.trans sender.symm⟩
  · intro thread running
    exact networked.entered t seat thread present (kept ▸ running)
  · intro other
    have texts := texts_step stepped other
    rw [networked.handed other] at texts
    rw [handed_update server present handed, ← texts]
    by_cases own : t = other
    · simp [calledTexts, own]
    · simp [calledTexts, own]
  · intro listOfClients i listing
    exact kept ▸ networked.collecting t seat listOfClients i present listing

/-- The thread of a connection receives a reply, begins to broadcast it, and has cleared its
buffer at the next one. -/
theorem Networked.reply (networked : Networked network) {count : Nat} {behind : List UInt8}
    (present : network.seats[t]? = some seat)
    (orderly : ServesOrderly network.server (.collect t count behind))
    (stepped : chatServerStep network.server (.collect t count behind) = some server)
    (outputBufferBoi : List UInt8) :
    Networked ⟨server, network.seats.set t { seat with outputBufferBoi := outputBufferBoi }⟩ := by
  have seated := (networked.seated t seat present).clear outputBufferBoi
  have quiet : Quiet network.server.relay server.relay t :=
    server_quiet networked.routed orderly (by simp) (by simp) (by simp) (by simp) stepped
  have named := networked.named_after stepped present
  refine networked.update quiet present seated named ?_ ?_ ?_
    ((networked.streamed t seat present).keep (quiet.sentTo t) Iff.rfl rfl rfl)
  · intro thread running isNamed unclosed
    exact networked.entered_after stepped (by simp) present running isNamed unclosed
  · intro other
    refine (networked.handed_server stepped (fun _ => rfl) other).trans (Eq.symm ?_)
    exact handed_kept server present (by rfl) other
  · intro listOfClients i listing
    exact server_collects networked.routed orderly stepped (networked.inside present) (by simp)
      (by simp) (networked.collecting t seat listOfClients i present listing)

/-- An iteration of the loop along the names. -/
theorem Networked.collect (networked : Networked network) (present : network.seats[t]? = some seat)
    (unsent : seat.listing ≠ .sent) {listOfClients : List UInt8} {i : Nat}
    (collects : Collects network.server.relay t (typedName seat.input) listOfClients i) :
    Networked { network with
      seats := network.seats.set t { seat with listing := .collecting listOfClients i } } := by
  refine networked.update (networked.routed.quiet t) present
    ((networked.seated t seat present).list _) (networked.named t seat present)
    (networked.entered t seat · present) ?_ ?_ ?_
  · intro other
    refine (networked.handed other).trans (Eq.symm ?_)
    exact handed_kept network.server present (by rfl) other
  · intro _ _ same
    obtain ⟨rfl, rfl⟩ := Listing.collecting.inj same
    exact collects
  · exact (networked.streamed t seat present).keep rfl (by simp [unsent]) rfl rfl

/-- The list of the clients goes to the thread's own client. -/
theorem Networked.list (networked : Networked network) (present : network.seats[t]? = some seat)
    (unsent : seat.listing ≠ .sent) {thread : RelayThread}
    (running : network.server.relay.threads[t]? = some thread) (before : thread.phase = .toPush)
    {communicationToSend : List UInt8}
    (named : ListsName (typedName seat.input) (text communicationToSend)) :
    Networked { network with
      seats := deliver network.server.relay (network.seats.set t { seat with listing := .sent })
        ⟨thread.clientSocketID, communicationToSend⟩ } := by
  have held : network.server.relay.holder thread.clientSocketID = some t :=
    networked.routed.holder ⟨thread, running, by simp [before], rfl⟩
  have inside := (List.getElem?_eq_some_iff.mp present).1
  have delivered : deliver network.server.relay (network.seats.set t { seat with listing := .sent })
      ⟨thread.clientSocketID, communicationToSend⟩ =
        network.seats.set t ({ seat with listing := .sent }.reach (text communicationToSend)) := by
    refine List.ext_getElem? ?_
    intro other
    rw [deliver_read, held]
    by_cases here : t = other
    · subst here
      simp [List.getElem?_set_self inside]
    · simp [List.getElem?_set_ne here, here]
  rw [delivered]
  refine networked.update (networked.routed.quiet t) present
    (((networked.seated t seat present).list _).reach (CString.no_nul_in_text _))
    (networked.named t seat present) (networked.entered t seat · present) ?_ ?_
    ((networked.streamed t seat present).list unsent named)
  · intro other
    refine (networked.handed other).trans (Eq.symm ?_)
    exact handed_kept network.server present (by rfl) other
  · intro _ _ same
    cases same

/-- The server starts a thread for a connection that it accepts. -/
theorem accepted_threads {client_socket : Int}
    (room : network.server.relay.table.currentClientCount < maximumConnectedClients)
    (stepped : chatServerStep network.server (.relay (.accept client_socket)) = some server) :
    server.relay.threads =
      network.server.relay.threads ++ [⟨client_socket, [], .toReceiveName⟩] := by
  have relays : relayStep network.server.relay (.accept client_socket) = some server.relay :=
    server_relay stepped
  simp only [relayStep, if_pos room] at relays
  rw [← Option.some.inj relays]

/-- A client connects. -/
theorem Networked.connect (networked : Networked network) {client_socket : Int} {newSeat : Seat}
    (seated : Seated newSeat) (unnamed : newSeat.session.newBoi = none)
    (nothing : newSeat.session.dataSentToHelper = [])
    (listing : newSeat.listing = startListing)
    (empty : newSeat.received.flatten ++ newSeat.toClient = [])
    (fresh : network.server.relay.holder client_socket = none)
    (room : network.server.relay.table.currentClientCount < maximumConnectedClients)
    (stepped : chatServerStep network.server (.relay (.accept client_socket)) = some server) :
    Networked ⟨server, network.seats ++ [newSeat]⟩ := by
  have orderly : ServesOrderly network.server (.relay (.accept client_socket)) := ⟨trivial, fresh⟩
  have sent : ∀ t, server.relay.sentTo t = network.server.relay.sentTo t := by
    intro t
    rw [Relay.sentTo, server_sent_kept stepped (by simp), Relay.sentTo]
  have threads := accepted_threads room stepped
  refine ⟨networked.routed.serve orderly stepped, ?_, ?_, ?_, ?_, ?_, ?_, ?_⟩
  · rw [threads, List.length_append, List.length_append, networked.counted]
    rfl
  · intro t seat read
    rcases MemberUpdate.read_concat_cases read with ⟨_, rfl⟩ | old
    · exact seated
    · exact networked.seated t seat old
  · intro t seat read named
    rcases MemberUpdate.read_concat_cases read with ⟨_, rfl⟩ | old
    · exact absurd unnamed named
    · exact networked.named_after stepped old named
  · intro t seat thread read running isNamed unclosed
    rcases MemberUpdate.read_concat_cases read with ⟨rfl, _⟩ | old
    · -- the new thread has no name
      obtain ⟨earlier, ran, _⟩ :=
        (server_named_before stepped running isNamed unclosed).resolve_left (by simp)
      have inside := (List.getElem?_eq_some_iff.mp ran).1
      exact absurd networked.counted (Nat.ne_of_lt inside)
    · exact networked.entered_after stepped (by simp) old running isNamed unclosed
  · intro other
    refine (networked.handed_server stepped (fun _ => rfl) other).trans ?_
    simp only [ChatNetwork.handed, List.getElem?_append]
    by_cases old : other < network.seats.length
    · rw [if_pos old]
    · rw [if_neg old, List.getElem?_eq_none (Nat.le_of_not_lt old)]
      cases read : [newSeat][other - network.seats.length]? with
      | none => rfl
      | some seat =>
        obtain rfl := List.mem_singleton.mp (List.mem_of_getElem? read)
        exact nothing.symm
  · intro t seat listOfClients i read collecting
    rcases MemberUpdate.read_concat_cases read with ⟨rfl, rfl⟩ | old
    · obtain ⟨rfl, rfl⟩ := Listing.collecting.inj (listing.symm.trans collecting)
      refine start_collects _ ?_
      intro thread running
      rw [threads, networked.counted] at running
      obtain rfl := Option.some.inj (List.getElem?_concat_length.symm.trans running)
      rfl
    · exact server_collects networked.routed orderly stepped (networked.inside old) (by simp)
        (by simp) (networked.collecting t seat listOfClients i old collecting)
  · intro t seat read
    rcases MemberUpdate.read_concat_cases read with ⟨rfl, rfl⟩ | old
    · refine ⟨[], [], ?_, ?_, List.forall_mem_nil _, empty⟩
      · rw [sent, networked.routed.sent_to_nobody (Nat.le_of_eq networked.counted.symm)]
        exact .nil
      · simp [listing, startListing]
    · exact (networked.streamed t seat old).keep (sent t) Iff.rfl rfl rfl

/-- A step of the helper. -/
theorem Networked.help (networked : Networked network) {event : WireEvent}
    (stepped : chatServerStep network.server (.helper event) = some server) :
    Networked { network with server := server } := by
  have same : server.relay = network.server.relay := server_relay stepped
  exact ⟨same ▸ networked.routed, same ▸ networked.counted, networked.seated,
    same ▸ networked.named, same ▸ networked.entered,
    networked.handed_server stepped (fun _ => rfl), same ▸ networked.collecting,
    same ▸ networked.streamed⟩

/-- A step of a thread that takes nothing from a socket. -/
theorem Networked.proceed (networked : Networked network) {event : RelayEvent}
    (among : Proceeds network.seats event) (keeps : KeepsListed network event)
    (stepped : chatServerStep network.server (.relay event) = some server) :
    Networked ⟨server, (outgoing network.server.relay server.relay).foldl
      (deliver network.server.relay) network.seats⟩ := by
  have relays : relayStep network.server.relay event = some server.relay := server_relay stepped
  have orderly : ServesOrderly network.server (.relay event) := among.finds_free
  have refuses : ∀ client_socket, event ≠ .accept client_socket := by
    rintro client_socket rfl
    exact among
  have unnamed : ∀ t origSender,
      ChatServerEvent.relay event ≠ .relay (.register t origSender) := by
    rintro t origSender same
    obtain rfl := ChatServerEvent.relay.inj same
    exact among
  refine ⟨networked.routed.serve orderly stepped, ?_, ?_, ?_, ?_, ?_, ?_, ?_⟩
  · refine (delivered_length ..).trans (networked.counted.trans ?_)
    exact (relay_thread_count relays refuses).symm
  · intro t moved read
    obtain ⟨seat, message, present, noNul, rfl⟩ := delivered_cases read
    exact (networked.seated t seat present).reach noNul
  · intro t moved read named
    obtain ⟨seat, message, present, _, rfl⟩ := delivered_cases read
    have kept := networked.named_after stepped present
    exact kept named
  · intro t moved thread read running isNamed unclosed
    obtain ⟨seat, message, present, _, rfl⟩ := delivered_cases read
    exact networked.entered_after stepped (unnamed t) present running isNamed unclosed
  · intro other
    refine (networked.handed_server stepped (fun _ => rfl) other).trans ?_
    obtain ⟨message, _, delivered⟩ := delivered_read network.server.relay
      (outgoing network.server.relay server.relay) network.seats other
    simp only [ChatNetwork.handed, delivered, Option.map_map]
    rfl
  · intro t moved listOfClients i read listing
    obtain ⟨seat, message, present, _, rfl⟩ := delivered_cases read
    have collecting : seat.listing = .collecting listOfClients i := listing
    refine server_collects networked.routed orderly stepped (networked.inside present) (unnamed t)
      ?_ (networked.collecting t seat listOfClients i present collecting)
    rintro removed same
    obtain rfl := ChatServerEvent.relay.inj same
    have stays := keeps t (List.getElem?_eq_some_iff.mp present).1 seat present
    rw [collecting] at stays
    exact stays
  · intro t moved read
    rcases outgoing_cases networked.routed relays with
      ⟨nothing, sent⟩ | ⟨relayed, single, held, sent⟩
    · rw [nothing] at read
      exact (networked.streamed t moved read).keep (by rw [Relay.sentTo, sent, Relay.sentTo])
        Iff.rfl rfl rfl
    · rw [single, List.foldl_cons, List.foldl_nil, deliver_read, held] at read
      obtain ⟨seat, present, rfl⟩ := Option.map_eq_some_iff.mp read
      simp only [Option.some.injEq]
      by_cases here : relayed.connection = t
      · rw [if_pos here]
        exact (networked.streamed t seat present).relayed sent here
      · rw [if_neg here]
        exact (networked.streamed t seat present).keep (sent_to_other sent here) Iff.rfl rfl rfl

end Steps

/-- Orderly steps keep the invariant. -/
theorem Networked.step {network next : ChatNetwork} {event : ChatNetworkEvent}
    (networked : Networked network) (orderly : ChatsOrderly network event)
    (stepped : chatNetworkStep network event = some next) : Networked next := by
  cases chat_network_move stepped with
  | connects client_socket nameOfClient outgoingDatastream stdin origSender dataWeWantToSend
      outputBufferBoi server fresh room moved =>
    obtain ⟨sizes, noNul, more⟩ := orderly
    exact networked.connect (start_seated sizes noNul more) rfl rfl rfl rfl fresh room moved
  | refuses => exact networked
  | passes t event seat passed closed present moved =>
    exact networked.pass present (orderly seat present) moved
  | names t dataBytesIncoming seat thread session server present unnamed took moved =>
    have takesName := orderly seat present
    rw [if_pos unnamed] at takesName
    obtain ⟨free, rfl⟩ := takesName
    exact networked.name present unnamed free took moved
  | takes t dataBytesIncoming seat thread session server present named took moved =>
    exact networked.take present named took moved
  | collects t i seat thread listOfClients entry present running before listing inside read =>
    have fits := orderly seat present
    rw [listing] at fits
    have name := networked.entered t seat thread present running
      (by simp [RelayThread.Named, before]) (by simp [before])
    refine networked.collect present (by simp [listing]) ?_
    exact (networked.collecting t seat listOfClients i present listing).iteration networked.routed
      running before name (Nat.le_of_lt (typed_name_fits seat.input).1) inside read
      (fits entry read inside)
  | lists t i seat thread listOfClients present running before listing behind =>
    exact networked.list present (by simp [listing]) running before
      ((networked.collecting t seat listOfClients i present listing).whole networked.routed running
        before behind)
  | replies t count memory seat server present moved =>
    have ended := orderly.2 seat present
    refine networked.reply present ⟨orderly.1, ?_⟩ moved _
    rw [List.head?_append, List.head?_drop, ended]
    rfl
  | proceeds event server among moved => exact networked.proceed among orderly moved
  | helps event server moved => exact networked.help moved

/-- A client's public messages are those for the texts that its thread has taken, with the
typed name in front. -/
theorem Networked.published {network : ChatNetwork} (networked : Networked network)
    (answering : Answering network.server) {s : Nat} {seat : Seat}
    (present : network.seats[s]? = some seat) :
    network.server.relay.publicPosts s <+:
      seat.session.dataSentToHelper.map fun dataSentToHelper =>
        outboundMessage (helperResult dataSentToHelper) (typedName seat.input) := by
  have handed := networked.handed s
  simp only [ChatNetwork.handed, present, Option.map_some, Option.getD_some] at handed
  have start : network.server.answered s <+: seat.session.dataSentToHelper :=
    handed ▸ List.prefix_append _ _
  have seated := networked.seated s seat present
  rw [answering.posted s]
  cases registered : seat.session.newBoi with
  | none =>
    -- a thread without a name has taken no text
    have taken := seated.taken
    simp only [Taken, registered] at taken
    rw [taken.2, List.prefix_nil] at start
    rw [start]
    exact List.nil_prefix
  | some newBoi =>
    obtain ⟨thread, running, _, own⟩ :=
      networked.named s seat present (by simp [registered])
    have taken := seated.taken
    simp only [Taken, registered] at taken
    have name : network.server.nameOf s = seat.session.origSender := by
      simp [ChatServer.nameOf, running, own]
    have same : ∀ reply, outboundMessage reply seat.session.origSender =
        outboundMessage reply (typedName seat.input) := by
      intro reply
      rw [outboundMessage, taken.2, outboundMessage, CString.text_of_no_nul seated.no_nul.1]
    simp only [name, same]
    exact start.map _

end HelperChat
