import HelperChat.ChatServer
import HelperChat.Seat

/-!
# All programs together

The server with its helper, and the programs of all clients, each with its streams to and
from its thread. Users type lines, clients send them, threads take them from their sockets
as they come, the helper and its decoder threads process them, and the broadcasts of all
threads go to the sockets of the table and on to the clients and their history files. The
steps of all these come in any order.

One step are the iteration of a loop along the table, with its `send` or its two `strcat`s; a
registration with its increment; a `close` with the removal of the table entry, so that the
number of a socket is given to a new connection only after both; and a `recv` of a thread with
the `send` to the helper, or with the call of the broadcast, behind it.
-/

namespace HelperChat

open CString (literal snprintf strcat text)

/-- The server with its helper, and the connections by the numbers of their threads. -/
structure ChatNetwork where
  server : ChatServer
  seats : List Seat

/-- The steps: a client connects and its user enters a name; a pass of a client's loop; a
thread's `recv` at its client's socket; a step of its `outputConnectedClients`; its `recv` of
the helper's reply, with the memory behind its buffer, and the call of `sendPublicMessage`; the
other steps of a thread; and those of the helper. -/
inductive ChatNetworkEvent where
  | connect (client_socket : Int) (nameOfClient outgoingDatastream stdin origSender
      dataWeWantToSend outputBufferBoi : List UInt8)
  | client (t : Nat) (event : SelectEvent)
  | recv (t dataBytesIncoming : Nat)
  | list (t : Nat)
  | reply (t count : Nat) (memory : List UInt8)
  | relay (event : RelayEvent)
  | helper (event : WireEvent)

/-- The steps of the threads that take nothing from a socket but its end.
`newClientJoinedPush` is called behind `outputConnectedClients`. -/
def Proceeds (seats : List Seat) : RelayEvent → Prop
  | .push t => seats[t]?.map Seat.listing = some .sent
  | .visit _ | .leave _ | .remove _ => True
  | .accept _ | .register _ _ | .post _ _ => False

instance (seats : List Seat) : DecidablePred (Proceeds seats)
  | .push t => inferInstanceAs (Decidable (seats[t]?.map Seat.listing = some .sent))
  | .visit _ | .leave _ | .remove _ => .isTrue trivial
  | .accept _ | .register _ _ | .post _ _ => .isFalse id

/-- What the broadcasts send in a step. -/
def outgoing (before after : Relay) : List Sending :=
  (after.sent.drop before.sent.length).map Relayed.sending

/-- A `send` puts its text on the stream of the connection that has the socket number. -/
def deliver (relay : Relay) (seats : List Seat) (sending : Sending) : List Seat :=
  match relay.holder sending.socket with
  | some t => seats.modify t (Seat.reach (text sending.message))
  | none => seats

/-- One step of any of the programs. A refused connection is closed at once. -/
def chatNetworkStep (network : ChatNetwork) : ChatNetworkEvent → Option ChatNetwork
  | .connect client_socket nameOfClient outgoingDatastream stdin origSender dataWeWantToSend
      outputBufferBoi =>
      if network.server.relay.holder client_socket = none then do
        let server ← chatServerStep network.server (.relay (.accept client_socket))
        if network.server.relay.table.currentClientCount < maximumConnectedClients then
          pure ⟨server, network.seats ++ [startSeat nameOfClient outgoingDatastream stdin
            origSender dataWeWantToSend outputBufferBoi]⟩
        else pure ⟨server, network.seats⟩
      else none
  | .client t event => do
      let seat ← network.seats[t]?
      let thread ← network.server.relay.threads[t]?
      let passed ← clientPass (thread.phase = .gone) seat event
      pure { network with seats := network.seats.set t passed }
  | .recv t dataBytesIncoming => do
      let seat ← network.seats[t]?
      let thread ← network.server.relay.threads[t]?
      let session ← sessionStep thread.clientSocketID seat.session dataBytesIncoming
      let server ← chatServerStep network.server
        (match seat.session.newBoi with
        | none => .relay (.register t session.origSender)
        | some _ => .call t session.dataWeWantToSend)
      pure ⟨server, network.seats.set t { seat with session := session }⟩
  | .list t => do
      let seat ← network.seats[t]?
      let thread ← network.server.relay.threads[t]?
      if thread.phase = .toPush then
        (listingStep thread.clientSocketID (network.server.relay.table.map Listed.client)
          seat.listing).map fun (listing, sendings) =>
            { network with
              seats := sendings.foldl (deliver network.server.relay)
                (network.seats.set t { seat with listing := listing }) }
      else none
  | .reply t count memory => do
      let seat ← network.seats[t]?
      let server ← chatServerStep network.server
        (.collect t count (seat.outputBufferBoi.drop count ++ memory))
      pure ⟨server, network.seats.set t
        { seat with outputBufferBoi := List.replicate bufferSize 0 }⟩
  | .relay event =>
      if Proceeds network.seats event then do
        let server ← chatServerStep network.server (.relay event)
        pure ⟨server, (outgoing network.server.relay server.relay).foldl
          (deliver network.server.relay) network.seats⟩
      else none
  | .helper event =>
      (chatServerStep network.server (.helper event)).map fun server =>
        { network with server := server }

/-- The next name leaves room for the banners. -/
def ListFits (relay : Relay) : Listing → Prop
  | .collecting listOfClients i => ∀ entry ∈ relay.table.clients[i]?,
      i < relay.table.currentClientCount →
        (text listOfClients).length + (text entry.client.name).length + 1 ≤ 34
  | .sent => True

instance (relay : Relay) : DecidablePred (ListFits relay)
  | .collecting listOfClients i => inferInstanceAs (Decidable
      (∀ entry ∈ relay.table.clients[i]?, i < relay.table.currentClientCount →
        (text listOfClients).length + (text entry.client.name).length + 1 ≤ 34))
  | .sent => .isTrue trivial

/-- The removal of a connection's entry does not move the thread's own entry up from the index
of its list. -/
def StaysListed (relay : Relay) (removed t : Nat) : Listing → Prop
  | .collecting _ i => ¬ MovesUp relay removed t i
  | .sent => True

instance (relay : Relay) (removed t : Nat) : DecidablePred (StaysListed relay removed t)
  | .collecting _ i => inferInstanceAs (Decidable (¬ MovesUp relay removed t i))
  | .sent => .isTrue trivial

/-- A removal moves no thread's own entry up from the index of its list. -/
def KeepsListed (network : ChatNetwork) : RelayEvent → Prop
  | .remove removed => ∀ t < network.seats.length, ∀ seat ∈ network.seats[t]?,
      StaysListed network.server.relay removed t seat.listing
  | _ => True

instance (network : ChatNetwork) : DecidablePred (KeepsListed network)
  | .remove removed => inferInstanceAs (Decidable
      (∀ t < network.seats.length, ∀ seat ∈ network.seats[t]?,
        StaysListed network.server.relay removed t seat.listing))
  | .accept _ | .leave _ | .register _ _ | .push _ | .post _ _ | .visit _ => .isTrue trivial

/-- Users type something, without NUL, and send nothing old at its end; every `recv` leaves
room for a NUL, the first one of a thread takes the name alone and finds a free slot, and
those on the connection to the helper respect the borders; a reply ends in its buffer; the
decoder threads do not disturb each other; the lists of the clients have at most 34 bytes
between their banners, and no thread's own entry moves up from the index of its list. -/
def ChatsOrderly (network : ChatNetwork) : ChatNetworkEvent → Prop
  | .connect _ nameOfClient outgoingDatastream stdin origSender dataWeWantToSend _ =>
      (∀ buffer ∈ [nameOfClient, outgoingDatastream, origSender, dataWeWantToSend],
        buffer.length = bufferSize) ∧ 0 ∉ stdin ∧ stdin ≠ []
  | .client t event => ∀ seat ∈ network.seats[t]?, PassesWhole seat event
  | .recv t dataBytesIncoming => ∀ seat ∈ network.seats[t]?,
      if seat.session.newBoi = none then
        network.server.relay.table.currentClientCount < maximumConnectedClients ∧
          dataBytesIncoming = (text seat.nameOfClient).length
      else dataBytesIncoming < bufferSize
  | .list t => ∀ seat ∈ network.seats[t]?, ListFits network.server.relay seat.listing
  | .reply t count _ => RunsOrderly network.server.wire (.recv t count) ∧
      ∀ seat ∈ network.seats[t]?, seat.outputBufferBoi[count]? = some 0
  | .relay event => KeepsListed network event
  | .helper event => RunsOrderly network.server.wire event

instance (network : ChatNetwork) : DecidablePred (ChatsOrderly network)
  | .connect _ nameOfClient outgoingDatastream stdin origSender dataWeWantToSend _ =>
      inferInstanceAs (Decidable
        ((∀ buffer ∈ [nameOfClient, outgoingDatastream, origSender, dataWeWantToSend],
          buffer.length = bufferSize) ∧ 0 ∉ stdin ∧ stdin ≠ []))
  | .client t event =>
      inferInstanceAs (Decidable (∀ seat ∈ network.seats[t]?, PassesWhole seat event))
  | .recv t dataBytesIncoming => inferInstanceAs (Decidable
      (∀ seat ∈ network.seats[t]?,
        if seat.session.newBoi = none then
          network.server.relay.table.currentClientCount < maximumConnectedClients ∧
            dataBytesIncoming = (text seat.nameOfClient).length
        else dataBytesIncoming < bufferSize))
  | .list t => inferInstanceAs (Decidable
      (∀ seat ∈ network.seats[t]?, ListFits network.server.relay seat.listing))
  | .reply t count _ => inferInstanceAs (Decidable
      (RunsOrderly network.server.wire (.recv t count) ∧
        ∀ seat ∈ network.seats[t]?, seat.outputBufferBoi[count]? = some 0))
  | .relay event => inferInstanceAs (Decidable (KeepsListed network event))
  | .helper event => inferInstanceAs (Decidable (RunsOrderly network.server.wire event))

/-- The steps that are taken. -/
inductive ChatNetworkMove (network : ChatNetwork) : ChatNetworkEvent → ChatNetwork → Prop
  | connects (client_socket : Int) (nameOfClient outgoingDatastream stdin origSender
      dataWeWantToSend outputBufferBoi : List UInt8) (server : ChatServer)
      (fresh : network.server.relay.holder client_socket = none)
      (room : network.server.relay.table.currentClientCount < maximumConnectedClients)
      (stepped : chatServerStep network.server (.relay (.accept client_socket)) = some server) :
      ChatNetworkMove network (.connect client_socket nameOfClient outgoingDatastream stdin
        origSender dataWeWantToSend outputBufferBoi)
        ⟨server, network.seats ++ [startSeat nameOfClient outgoingDatastream stdin origSender
          dataWeWantToSend outputBufferBoi]⟩
  | refuses (client_socket : Int) (nameOfClient outgoingDatastream stdin origSender
      dataWeWantToSend outputBufferBoi : List UInt8) :
      ChatNetworkMove network (.connect client_socket nameOfClient outgoingDatastream stdin
        origSender dataWeWantToSend outputBufferBoi) network
  | passes (t : Nat) (event : SelectEvent) (seat passed : Seat) (closed : Bool)
      (present : network.seats[t]? = some seat)
      (stepped : clientPass closed seat event = some passed) :
      ChatNetworkMove network (.client t event)
        { network with seats := network.seats.set t passed }
  | names (t dataBytesIncoming : Nat) (seat : Seat) (thread : RelayThread) (session : Session)
      (server : ChatServer) (present : network.seats[t]? = some seat)
      (unnamed : seat.session.newBoi = none)
      (took : sessionStep thread.clientSocketID seat.session dataBytesIncoming = some session)
      (stepped : chatServerStep network.server (.relay (.register t session.origSender)) =
        some server) :
      ChatNetworkMove network (.recv t dataBytesIncoming)
        ⟨server, network.seats.set t { seat with session := session }⟩
  | takes (t dataBytesIncoming : Nat) (seat : Seat) (thread : RelayThread) (session : Session)
      (server : ChatServer) (present : network.seats[t]? = some seat)
      (named : seat.session.newBoi ≠ none)
      (took : sessionStep thread.clientSocketID seat.session dataBytesIncoming = some session)
      (stepped : chatServerStep network.server (.call t session.dataWeWantToSend) =
        some server) :
      ChatNetworkMove network (.recv t dataBytesIncoming)
        ⟨server, network.seats.set t { seat with session := session }⟩
  | collects (t i : Nat) (seat : Seat) (thread : RelayThread) (listOfClients : List UInt8)
      (entry : Listed) (present : network.seats[t]? = some seat)
      (running : network.server.relay.threads[t]? = some thread)
      (before : thread.phase = .toPush) (listing : seat.listing = .collecting listOfClients i)
      (inside : i < network.server.relay.table.currentClientCount)
      (read : network.server.relay.table.clients[i]? = some entry) :
      ChatNetworkMove network (.list t) { network with
        seats := network.seats.set t { seat with
          listing := .collecting
            (strcat (strcat listOfClients entry.client.name) (literal "\n")) (i + 1) } }
  | lists (t i : Nat) (seat : Seat) (thread : RelayThread) (listOfClients : List UInt8)
      (present : network.seats[t]? = some seat)
      (running : network.server.relay.threads[t]? = some thread)
      (before : thread.phase = .toPush) (listing : seat.listing = .collecting listOfClients i)
      (behind : network.server.relay.table.currentClientCount ≤ i) :
      ChatNetworkMove network (.list t) { network with
        seats := deliver network.server.relay
          (network.seats.set t { seat with listing := .sent })
          ⟨thread.clientSocketID,
            snprintf bufferSize (openingBanner ++ text listOfClients ++ closingBanner)⟩ }
  | replies (t count : Nat) (memory : List UInt8) (seat : Seat) (server : ChatServer)
      (present : network.seats[t]? = some seat)
      (stepped : chatServerStep network.server
        (.collect t count (seat.outputBufferBoi.drop count ++ memory)) = some server) :
      ChatNetworkMove network (.reply t count memory) ⟨server, network.seats.set t
        { seat with outputBufferBoi := List.replicate bufferSize 0 }⟩
  | proceeds (event : RelayEvent) (server : ChatServer) (among : Proceeds network.seats event)
      (stepped : chatServerStep network.server (.relay event) = some server) :
      ChatNetworkMove network (.relay event)
        ⟨server, (outgoing network.server.relay server.relay).foldl
          (deliver network.server.relay) network.seats⟩
  | helps (event : WireEvent) (server : ChatServer)
      (stepped : chatServerStep network.server (.helper event) = some server) :
      ChatNetworkMove network (.helper event) { network with server := server }

variable {network next : ChatNetwork} {event : ChatNetworkEvent}

/-- Every computed step is one of these. -/
theorem chat_network_move (stepped : chatNetworkStep network event = some next) :
    ChatNetworkMove network event next := by
  cases event with
  | connect client_socket =>
    obtain ⟨fresh, rest⟩ := Option.ite_none_right_eq_some.mp stepped
    obtain ⟨server, moved, built⟩ := Option.bind_eq_some_iff.mp rest
    split at built
    case isTrue room =>
      obtain rfl := Option.some.inj built
      exact .connects client_socket _ _ _ _ _ _ server fresh room moved
    case isFalse full =>
      obtain rfl := Option.some.inj built
      cases chat_server_move moved with
      | relays _ relay _ accepted =>
        -- the main loop has only printed that the server is full
        simp only [relayStep, if_neg full] at accepted
        obtain rfl := Option.some.inj accepted
        exact .refuses client_socket _ _ _ _ _ _
  | client t event =>
    obtain ⟨seat, present, rest⟩ := Option.bind_eq_some_iff.mp stepped
    obtain ⟨thread, _, rest⟩ := Option.bind_eq_some_iff.mp rest
    obtain ⟨passed, moved, built⟩ := Option.bind_eq_some_iff.mp rest
    obtain rfl := Option.some.inj built
    exact .passes t event seat passed _ present moved
  | recv t dataBytesIncoming =>
    obtain ⟨seat, present, rest⟩ := Option.bind_eq_some_iff.mp stepped
    obtain ⟨thread, _, rest⟩ := Option.bind_eq_some_iff.mp rest
    obtain ⟨session, took, rest⟩ := Option.bind_eq_some_iff.mp rest
    obtain ⟨server, moved, built⟩ := Option.bind_eq_some_iff.mp rest
    obtain rfl := Option.some.inj built
    cases registered : seat.session.newBoi with
    | none =>
      rw [registered] at moved
      exact .names t dataBytesIncoming seat thread session server present registered took moved
    | some newBoi =>
      rw [registered] at moved
      exact .takes t dataBytesIncoming seat thread session server present (by simp [registered])
        took moved
  | list t =>
    obtain ⟨seat, present, rest⟩ := Option.bind_eq_some_iff.mp stepped
    obtain ⟨thread, running, rest⟩ := Option.bind_eq_some_iff.mp rest
    obtain ⟨before, rest⟩ := Option.ite_none_right_eq_some.mp rest
    obtain ⟨⟨listing, sendings⟩, moved, rfl⟩ := Option.map_eq_some_iff.mp rest
    cases collecting : seat.listing with
    | sent =>
      rw [collecting] at moved
      cases moved
    | collecting listOfClients i =>
      rw [collecting] at moved
      simp only [listingStep] at moved
      split at moved
      case isTrue inside =>
        obtain ⟨client, read, same⟩ := Option.map_eq_some_iff.mp moved
        obtain ⟨rfl, rfl⟩ := Prod.mk.inj same
        simp only [ClientTable.map, List.getElem?_map] at read
        obtain ⟨entry, isRead, rfl⟩ := Option.map_eq_some_iff.mp read
        exact .collects t i seat thread listOfClients entry present running before collecting
          inside isRead
      case isFalse behind =>
        obtain ⟨rfl, rfl⟩ := Prod.mk.inj (Option.some.inj moved)
        exact .lists t i seat thread listOfClients present running before collecting
          (Int.not_lt.mp behind)
  | reply t count memory =>
    obtain ⟨seat, present, rest⟩ := Option.bind_eq_some_iff.mp stepped
    obtain ⟨server, moved, built⟩ := Option.bind_eq_some_iff.mp rest
    obtain rfl := Option.some.inj built
    exact .replies t count memory seat server present moved
  | relay event =>
    obtain ⟨among, rest⟩ := Option.ite_none_right_eq_some.mp stepped
    obtain ⟨server, moved, built⟩ := Option.bind_eq_some_iff.mp rest
    obtain rfl := Option.some.inj built
    exact .proceeds event server among moved
  | helper event =>
    obtain ⟨server, moved, rfl⟩ := Option.map_eq_some_iff.mp stepped
    exact .helps event server moved

/-- The steps of the threads that take nothing from a socket accept and register nobody. -/
theorem Proceeds.finds_free {seats : List Seat} {relay : Relay} {event : RelayEvent}
    (among : Proceeds seats event) : FindsFree relay event := by
  cases event with
  | push | visit | leave | remove => exact ⟨trivial, trivial⟩
  | accept | register | post => exact absurd among id

section Deliveries

variable {relay : Relay} {seats : List Seat}

/-- A send reaches the connection that has the number, and no other one. -/
theorem deliver_read (relay : Relay) (seats : List Seat) (sending : Sending) (t : Nat) :
    (deliver relay seats sending)[t]? = seats[t]?.map fun seat =>
      if relay.holder sending.socket = some t then seat.reach (text sending.message) else seat := by
  unfold deliver
  cases held : relay.holder sending.socket with
  | none => simp
  | some holder =>
    rw [List.getElem?_modify]
    simp

/-- After some sends a connection has more texts on the stream to its client. -/
theorem delivered_read (relay : Relay) (sendings : List Sending) (seats : List Seat) (t : Nat) :
    ∃ message, 0 ∉ message ∧
      (sendings.foldl (deliver relay) seats)[t]? = seats[t]?.map (Seat.reach message) := by
  induction sendings generalizing seats with
  | nil =>
    refine ⟨[], List.not_mem_nil, ?_⟩
    cases found : seats[t]? with
    | none => simp [found]
    | some seat => simp [found, Seat.reach]
  | cons sending rest inductionHypothesis =>
    obtain ⟨later, noNul, read⟩ := inductionHypothesis (deliver relay seats sending)
    rw [List.foldl_cons, read, deliver_read]
    by_cases reached : relay.holder sending.socket = some t
    · refine ⟨text sending.message ++ later, ?_, ?_⟩
      · rw [List.mem_append, not_or]
        exact ⟨CString.no_nul_in_text _, noNul⟩
      · cases seats[t]? with
        | none => rfl
        | some seat => simp [reached, Seat.reach]
    · refine ⟨later, noNul, ?_⟩
      cases seats[t]? with
      | none => rfl
      | some seat => simp [reached]

/-- The connections after some sends are those before, with more texts on their streams. -/
theorem delivered_cases {sendings : List Sending} {t : Nat} {moved : Seat}
    (read : (sendings.foldl (deliver relay) seats)[t]? = some moved) :
    ∃ seat message, seats[t]? = some seat ∧ 0 ∉ message ∧ moved = seat.reach message := by
  obtain ⟨message, noNul, delivered⟩ := delivered_read relay sendings seats t
  obtain ⟨seat, present, rfl⟩ := Option.map_eq_some_iff.mp (delivered.symm.trans read)
  exact ⟨seat, message, present, noNul, rfl⟩

/-- Sends add no connections. -/
theorem delivered_length (relay : Relay) (sendings : List Sending) (seats : List Seat) :
    (sendings.foldl (deliver relay) seats).length = seats.length := by
  induction sendings generalizing seats with
  | nil => rfl
  | cons sending rest inductionHypothesis =>
    rw [List.foldl_cons, inductionHypothesis]
    unfold deliver
    split
    case h_1 => exact List.length_modify ..
    case h_2 => rfl

/-- The broadcasts send nothing in a step, or what an iteration adds, to the connection of the
entry. -/
theorem outgoing_cases {after : Relay} {event : RelayEvent} (routed : Routed relay)
    (stepped : relayStep relay event = some after) :
    (outgoing relay after = [] ∧ after.sent = relay.sent) ∨
      ∃ relayed, outgoing relay after = [relayed.sending] ∧
        relay.holder relayed.sending.socket = some relayed.connection ∧
        after.sent = relay.sent ++ [relayed] := by
  by_cases visiting : ∃ t, event = .visit t
  · obtain ⟨t, rfl⟩ := visiting
    rcases routed.visit stepped with same | ⟨relayed, sent, held⟩
    · exact .inl ⟨by simp [outgoing, same], same⟩
    · exact .inr ⟨relayed, by simp [outgoing, sent], held, sent⟩
  · have same := relay_sent_kept stepped fun t here => visiting ⟨t, here⟩
    exact .inl ⟨by simp [outgoing, same], same⟩

end Deliveries

end HelperChat
