import HelperChat.Connections
import HelperChat.Multicast
import HelperChat.ServerTexts
import HelperChat.Simulation

/-!
# The broadcasts of several threads

`newClientJoinedPush` and `sendPublicMessage` of all client threads of `2_server.c`, one
iteration of their loops after another, in any interleaving with each other and with
whole registrations and removals of the table. Socket numbers are arbitrary, so a removal
may delete the entry of another connection.

Seen from outside the server is a multicast: no thread sends one text to a connection
twice, however the table moves under its index.
-/

namespace HelperChat

open CString (strncpy)
open Multicast (Board Post)

/-- The buffer with which a thread walks along the table, in `newClientJoinedPush` or in
`sendPublicMessage`. -/
inductive Outbound where
  | pushNotification (outboundPushNotification : List UInt8)
  | publicMessage (outboundMessage : List UInt8)
deriving DecidableEq

/-- The string in the buffer. -/
def Outbound.message : Outbound → List UInt8
  | .pushNotification outboundPushNotification => outboundPushNotification
  | .publicMessage outboundMessage => outboundMessage

/-- The test in the loop: only `sendPublicMessage` has one. -/
def Outbound.GoesTo (outbound : Outbound) (selectedClient socket : Int) : Prop :=
  match outbound with
  | .pushNotification _ => True
  | .publicMessage _ => socket ≠ selectedClient

instance (outbound : Outbound) (selectedClient socket : Int) :
    Decidable (outbound.GoesTo selectedClient socket) :=
  match outbound with
  | .pushNotification _ => .isTrue trivial
  | .publicMessage _ => inferInstanceAs (Decidable (socket ≠ selectedClient))

/-- Where a client thread stands: at its first `recv`, in front of `newClientJoinedPush`,
at the `recv` of its loop, at an index of a walk, or behind the disconnect. A walk carries
the number of its text, which the code does not have. -/
inductive RelayPhase where
  | toReceiveName
  | toPush
  | toReceive
  | walking (outbound : Outbound) (number i : Nat)
  | gone
deriving DecidableEq

/-- A client thread: its socket, its client's name, and where it stands. -/
structure RelayThread where
  clientSocketID : Int
  origSender : List UInt8
  phase : RelayPhase
deriving DecidableEq

/-- The number of the text that the thread is sending. -/
def RelayThread.number (thread : RelayThread) : Option Nat :=
  match thread.phase with
  | .walking _ number _ => some number
  | _ => none

/-- A `send` of a walk, with the number of its text and the connection of the table entry. -/
structure Relayed where
  number : Nat
  connection : Nat
  sending : Sending
deriving DecidableEq

/-- The table, the threads by the numbers of their connections, and what the code does not
keep: the texts in the order in which their walks began, and the sends. -/
structure Relay where
  table : ClientTable Listed
  threads : List RelayThread
  posts : List (Post Nat Outbound)
  sent : List Relayed

/-- A connection is accepted; its thread ends without a name, registers, calls
`newClientJoinedPush` or `sendPublicMessage`, goes on with the loop of the call, or removes
its client. -/
inductive RelayEvent where
  | accept (client_socket : Int)
  | leave (t : Nat)
  | register (t : Nat) (origSender : List UInt8)
  | push (t : Nat)
  | post (t : Nat) (inputData : List UInt8)
  | visit (t : Nat)
  | remove (t : Nat)

/-- The numbers of the texts that threads are sending. -/
def Relay.underWay (state : Relay) : Finset Nat :=
  (state.threads.filterMap RelayThread.number).toFinset

/-- A thread goes on to another phase. -/
def Relay.moveTo (state : Relay) (t : Nat) (thread : RelayThread) (phase : RelayPhase) : Relay :=
  { state with threads := state.threads.set t { thread with phase := phase } }

/-- A thread begins a walk. -/
def Relay.begin (state : Relay) (t : Nat) (thread : RelayThread) (outbound : Outbound) : Relay :=
  { state.moveTo t thread (.walking outbound state.posts.length 0) with
    posts := state.posts ++ [⟨t, outbound, state.underWay⟩] }

/-- An iteration of a walk: the entry at the index is sent the text, if the test admits it. -/
def Relay.iteration (state : Relay) (t : Nat) (thread : RelayThread) (outbound : Outbound)
    (number i : Nat) : Relay :=
  { state.moveTo t thread (.walking outbound number (i + 1)) with
    sent := state.sent ++
      match state.table.clients[i]? with
      | some entry =>
          if outbound.GoesTo thread.clientSocketID entry.socket then
            [⟨number, entry.connection, ⟨entry.socket, outbound.message⟩⟩]
          else []
      | none => [] }

/-- One step of the main loop or of a client thread. -/
def relayStep (state : Relay) : RelayEvent → Option Relay
  | .accept client_socket =>
      if state.table.currentClientCount < maximumConnectedClients then
        some { state with threads := state.threads ++ [⟨client_socket, [], .toReceiveName⟩] }
      else some state
  | .leave t => do
      let thread ← state.threads[t]?
      if thread.phase = .toReceiveName then some (state.moveTo t thread .gone) else none
  | .register t origSender => do
      let thread ← state.threads[t]?
      if thread.phase = .toReceiveName then
        some { state.moveTo t { thread with origSender := origSender } .toPush with
          table := state.table.register
            ⟨t, thread.clientSocketID, strncpy origSender bufferSize⟩ }
      else none
  | .push t => do
      let thread ← state.threads[t]?
      if thread.phase = .toPush then
        some (state.begin t thread
          (.pushNotification (outboundPushNotification thread.origSender)))
      else none
  | .post t inputData => do
      let thread ← state.threads[t]?
      if thread.phase = .toReceive then
        some (state.begin t thread (.publicMessage (outboundMessage inputData thread.origSender)))
      else none
  | .visit t => do
      let thread ← state.threads[t]?
      match thread.phase with
      | .walking outbound number i =>
          if i < state.table.currentClientCount then
            some (state.iteration t thread outbound number i)
          else some (state.moveTo t thread .toReceive)
      | _ => none
  | .remove t => do
      let thread ← state.threads[t]?
      if thread.phase = .toReceive then
        some { state.moveTo t thread .gone with
          table := ClientTable.removeClient Listed.socket thread.clientSocketID state.table }
      else none

/-- The server before the first connection. -/
def startRelay : Relay where
  table := startConnections.table
  threads := []
  posts := []
  sent := []

/-- A registration finds a free slot of the table. -/
def FindsFreeSlot (state : Relay) : RelayEvent → Prop
  | .register _ _ => state.table.currentClientCount < maximumConnectedClients
  | _ => True

instance (state : Relay) : DecidablePred (FindsFreeSlot state)
  | .register _ _ =>
      inferInstanceAs (Decidable (state.table.currentClientCount < maximumConnectedClients))
  | .accept _ | .leave _ | .push _ | .post _ _ | .visit _ | .remove _ => .isTrue trivial

/-- The steps that are taken. -/
inductive RelayMove (state : Relay) : RelayEvent → Relay → Prop
  | accepts (client_socket : Int) :
      RelayMove state (.accept client_socket)
        { state with threads := state.threads ++ [⟨client_socket, [], .toReceiveName⟩] }
  | refuses (client_socket : Int) : RelayMove state (.accept client_socket) state
  | leaves (t : Nat) (thread : RelayThread) (present : state.threads[t]? = some thread)
      (before : thread.phase = .toReceiveName) :
      RelayMove state (.leave t) (state.moveTo t thread .gone)
  | registers (t : Nat) (thread : RelayThread) (origSender : List UInt8)
      (present : state.threads[t]? = some thread) (before : thread.phase = .toReceiveName) :
      RelayMove state (.register t origSender)
        { state.moveTo t { thread with origSender := origSender } .toPush with
          table := state.table.register
            ⟨t, thread.clientSocketID, strncpy origSender bufferSize⟩ }
  | pushes (t : Nat) (thread : RelayThread) (present : state.threads[t]? = some thread)
      (before : thread.phase = .toPush) :
      RelayMove state (.push t) (state.begin t thread
        (.pushNotification (outboundPushNotification thread.origSender)))
  | posts (t : Nat) (thread : RelayThread) (inputData : List UInt8)
      (present : state.threads[t]? = some thread) (before : thread.phase = .toReceive) :
      RelayMove state (.post t inputData) (state.begin t thread
        (.publicMessage (outboundMessage inputData thread.origSender)))
  | visits (t : Nat) (thread : RelayThread) (outbound : Outbound) (number i : Nat)
      (present : state.threads[t]? = some thread)
      (before : thread.phase = .walking outbound number i)
      (inside : i < state.table.currentClientCount) :
      RelayMove state (.visit t) (state.iteration t thread outbound number i)
  | ends (t : Nat) (thread : RelayThread) (outbound : Outbound) (number i : Nat)
      (present : state.threads[t]? = some thread)
      (before : thread.phase = .walking outbound number i)
      (behind : state.table.currentClientCount ≤ i) :
      RelayMove state (.visit t) (state.moveTo t thread .toReceive)
  | removes (t : Nat) (thread : RelayThread) (present : state.threads[t]? = some thread)
      (before : thread.phase = .toReceive) :
      RelayMove state (.remove t)
        { state.moveTo t thread .gone with
          table := ClientTable.removeClient Listed.socket thread.clientSocketID state.table }

/-- Every computed step is one of these. -/
theorem relay_move {state next : Relay} {event : RelayEvent}
    (stepped : relayStep state event = some next) : RelayMove state event next := by
  cases event with
  | accept client_socket =>
    simp only [relayStep] at stepped
    split at stepped
    case isTrue =>
      obtain rfl := Option.some.inj stepped
      exact .accepts client_socket
    case isFalse =>
      obtain rfl := Option.some.inj stepped
      exact .refuses client_socket
  | leave t =>
    obtain ⟨thread, present, rest⟩ := Option.bind_eq_some_iff.mp stepped
    obtain ⟨before, same⟩ := Option.ite_none_right_eq_some.mp rest
    obtain rfl := Option.some.inj same
    exact .leaves t thread present before
  | register t origSender =>
    obtain ⟨thread, present, rest⟩ := Option.bind_eq_some_iff.mp stepped
    obtain ⟨before, same⟩ := Option.ite_none_right_eq_some.mp rest
    obtain rfl := Option.some.inj same
    exact .registers t thread origSender present before
  | push t =>
    obtain ⟨thread, present, rest⟩ := Option.bind_eq_some_iff.mp stepped
    obtain ⟨before, same⟩ := Option.ite_none_right_eq_some.mp rest
    obtain rfl := Option.some.inj same
    exact .pushes t thread present before
  | post t inputData =>
    obtain ⟨thread, present, rest⟩ := Option.bind_eq_some_iff.mp stepped
    obtain ⟨before, same⟩ := Option.ite_none_right_eq_some.mp rest
    obtain rfl := Option.some.inj same
    exact .posts t thread inputData present before
  | visit t =>
    obtain ⟨thread, present, rest⟩ := Option.bind_eq_some_iff.mp stepped
    cases phase : thread.phase with
    | walking outbound number i =>
      simp only [phase] at rest
      split at rest
      case isTrue inside =>
        obtain rfl := Option.some.inj rest
        exact .visits t thread outbound number i present phase inside
      case isFalse behind =>
        obtain rfl := Option.some.inj rest
        exact .ends t thread outbound number i present phase (Int.not_lt.mp behind)
    | toReceiveName | toPush | toReceive | gone => simp [phase] at rest
  | remove t =>
    obtain ⟨thread, present, rest⟩ := Option.bind_eq_some_iff.mp stepped
    obtain ⟨before, same⟩ := Option.ite_none_right_eq_some.mp rest
    obtain rfl := Option.some.inj same
    exact .removes t thread present before

end HelperChat
