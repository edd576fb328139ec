import HelperChat.IndexedWalk
import HelperChat.ServerTexts

/-!
# A broadcast while clients disconnect

The loop of `sendPublicMessage`, one iteration after another, with whole removals of other
clients by their threads in between. The loop walks the table by index, and a removal moves
the entries behind the removed one up, so a client may be passed over.
-/

namespace HelperChat

open CString (literal)
open IndexedWalk (Event Walk)

/-- The table, the loop index, what was sent, and whether the loop has ended. -/
structure Broadcast where
  table : ClientTable OrganizedClientData
  i : Nat
  sent : List Sending
  finished : Bool
deriving DecidableEq

/-- An iteration of the loop of `sendPublicMessage`, with its test, or the removal of another
client that is registered. -/
def broadcastStep (inputData senderName : List UInt8) (selectedClient : Int) (state : Broadcast) :
    Event Int → Option Broadcast
  | .visit =>
      if state.finished then none
      else if state.i < state.table.currentClientCount then
        let socket := (state.table.clients[state.i]?.getD default).socket
        some { state with
          i := state.i + 1
          sent :=
            if socket ≠ selectedClient then
              state.sent ++ [⟨socket, outboundMessage inputData senderName⟩]
            else state.sent }
      else some { state with finished := true }
  | .remove clientSocketID =>
      if state.finished = false ∧ clientSocketID ≠ selectedClient ∧
          clientSocketID ∈ state.table.registered.map OrganizedClientData.socket then
        some { state with
          table := ClientTable.removeClient OrganizedClientData.socket clientSocketID state.table }
      else none

/-- The broadcast before its first iteration. -/
def startBroadcast (table : ClientTable OrganizedClientData) : Broadcast := ⟨table, 0, [], false⟩

/-- What was sent to a socket. -/
def Broadcast.deliveries (state : Broadcast) (socket : Int) : List Sending :=
  state.sent.filter fun sending => sending.socket = socket

/-- If a client is removed whom the loop has passed, the one at the loop index is the sender
or is removed as well later on. -/
def NobodyPassedOver (selectedClient : Int) (state : Broadcast) : Event Int → List (Event Int) →
    Prop
  | .visit, _ => True
  | .remove clientSocketID, rest =>
      clientSocketID ∈ (state.table.registered.take state.i).map OrganizedClientData.socket →
        ∀ client ∈ state.table.registered[state.i]?, client.socket ≠ selectedClient →
          .remove client.socket ∈ rest

instance (selectedClient : Int) (state : Broadcast) (event : Event Int) (rest : List (Event Int)) :
    Decidable (NobodyPassedOver selectedClient state event rest) := by
  cases event with
  | visit => exact inferInstanceAs (Decidable True)
  | remove clientSocketID =>
    exact inferInstanceAs (Decidable (_ → ∀ client ∈ state.table.registered[state.i]?, _))

/-- A broadcast seen as a walk along the sockets. -/
def Broadcast.walk (state : Broadcast) : Walk Int :=
  ⟨state.table.registered.map OrganizedClientData.socket, state.i, state.sent.map Sending.socket,
    state.finished⟩

/-- The table is well formed with distinct sockets, and the message is the only text sent. -/
structure Broadcasting (message : List UInt8) (state : Broadcast) : Prop where
  formed : state.table.WellFormed
  distinct : (state.table.registered.map OrganizedClientData.socket).Nodup
  only : ∀ sending ∈ state.sent, sending.message = message

variable {inputData senderName : List UInt8} {selectedClient : Int} {state next : Broadcast}
variable {event : Event Int}

/-- The steps of a broadcast that has not finished. -/
inductive BroadcastMove (inputData senderName : List UInt8) (selectedClient : Int)
    (state : Broadcast) : Event Int → Broadcast → Prop
  | sends (inside : state.i < state.table.currentClientCount)
      (other : (state.table.clients[state.i]?.getD default).socket ≠ selectedClient) :
      BroadcastMove inputData senderName selectedClient state .visit
        { state with
          i := state.i + 1
          sent := state.sent ++ [⟨(state.table.clients[state.i]?.getD default).socket,
            outboundMessage inputData senderName⟩] }
  | passes (inside : state.i < state.table.currentClientCount)
      (own : (state.table.clients[state.i]?.getD default).socket = selectedClient) :
      BroadcastMove inputData senderName selectedClient state .visit
        { state with i := state.i + 1 }
  | ends (behind : state.table.currentClientCount ≤ state.i) :
      BroadcastMove inputData senderName selectedClient state .visit
        { state with finished := true }
  | removes (clientSocketID : Int) (other : clientSocketID ≠ selectedClient)
      (present : clientSocketID ∈ state.table.registered.map OrganizedClientData.socket) :
      BroadcastMove inputData senderName selectedClient state (.remove clientSocketID)
        { state with
          table := ClientTable.removeClient OrganizedClientData.socket clientSocketID
            state.table }

/-- Every computed step is one of these. -/
theorem broadcast_move
    (stepped : broadcastStep inputData senderName selectedClient state event = some next) :
    state.finished = false ∧
      BroadcastMove inputData senderName selectedClient state event next := by
  cases event with
  | visit =>
    simp only [broadcastStep] at stepped
    split at stepped
    case isTrue => cases stepped
    case isFalse going =>
      refine ⟨by simpa using going, ?_⟩
      split at stepped
      case isFalse behind =>
        obtain rfl := Option.some.inj stepped
        exact .ends (Int.not_lt.mp behind)
      case isTrue inside =>
        obtain rfl := Option.some.inj stepped
        by_cases own : (state.table.clients[state.i]?.getD default).socket = selectedClient
        · rw [if_neg (not_not_intro own)]
          exact .passes inside own
        · rw [if_pos own]
          exact .sends inside own
  | remove clientSocketID =>
    simp only [broadcastStep] at stepped
    split at stepped
    case isFalse => cases stepped
    case isTrue enabled =>
      obtain rfl := Option.some.inj stepped
      exact ⟨enabled.1, .removes clientSocketID enabled.2.1 enabled.2.2⟩

/-- The entry that an iteration reads. -/
theorem Broadcasting.entry {message : List UInt8} (broadcasting : Broadcasting message state)
    (inside : state.i < state.table.currentClientCount) :
    state.table.registered[state.i]? = some (state.table.clients[state.i]?.getD default) := by
  have allocated := broadcasting.formed.allocated
  have bounded := broadcasting.formed.countBounded
  have present : state.i < state.table.clients.length := by omega
  rw [ClientTable.registered, List.getElem?_take_of_lt (by omega),
    List.getElem?_eq_getElem present, Option.getD_some]

/-- Every step keeps the table well formed and the message the only one. -/
theorem Broadcasting.step
    (broadcasting : Broadcasting (outboundMessage inputData senderName) state)
    (stepped : broadcastStep inputData senderName selectedClient state event = some next) :
    Broadcasting (outboundMessage inputData senderName) next := by
  obtain ⟨formed, distinct, only⟩ := broadcasting
  obtain ⟨_, move⟩ := broadcast_move stepped
  cases move with
  | sends =>
    refine ⟨formed, distinct, ?_⟩
    exact List.forall_mem_append.mpr ⟨only, List.forall_mem_singleton.mpr rfl⟩
  | passes | ends => exact ⟨formed, distinct, only⟩
  | removes clientSocketID =>
    refine ⟨(formed.remove_distinct distinct clientSocketID).1, ?_, only⟩
    rw [formed.remove_sockets distinct clientSocketID]
    exact distinct.erase clientSocketID

/-- The broadcast and the walk along the sockets make the same steps. -/
theorem Broadcasting.walk_step
    (broadcasting : Broadcasting (outboundMessage inputData senderName) state) :
    IndexedWalk.step (· ≠ selectedClient) state.walk event =
      (broadcastStep inputData senderName selectedClient state event).map Broadcast.walk := by
  cases event with
  | visit =>
    by_cases finished : state.finished = true
    · simp [IndexedWalk.step, broadcastStep, Broadcast.walk, finished]
    · by_cases inside : state.i < state.table.currentClientCount
      · have entry := broadcasting.entry inside
        by_cases other : (state.table.clients[state.i]?.getD default).socket = selectedClient
        · simp [IndexedWalk.step, broadcastStep, Broadcast.walk, finished, inside, entry, other]
        · simp [IndexedWalk.step, broadcastStep, Broadcast.walk, finished, inside, entry, other]
      · have length := broadcasting.formed.registered_length
        have nobody : state.table.registered[state.i]? = none :=
          List.getElem?_eq_none (by omega)
        simp [IndexedWalk.step, broadcastStep, Broadcast.walk, finished, inside, nobody]
  | remove clientSocketID =>
    have sockets := broadcasting.formed.remove_sockets broadcasting.distinct clientSocketID
    by_cases enabled : state.finished = false ∧ clientSocketID ≠ selectedClient ∧
        clientSocketID ∈ state.table.registered.map OrganizedClientData.socket
    · have stepped : broadcastStep inputData senderName selectedClient state
          (.remove clientSocketID) = some { state with
            table := ClientTable.removeClient OrganizedClientData.socket clientSocketID
              state.table } := if_pos enabled
      have walked : IndexedWalk.step (· ≠ selectedClient) state.walk (.remove clientSocketID) =
          some { state.walk with items := state.walk.items.erase clientSocketID } := if_pos enabled
      rw [stepped, walked, Option.map_some]
      simp only [Broadcast.walk, sockets]
    · have stepped : broadcastStep inputData senderName selectedClient state
          (.remove clientSocketID) = none := if_neg enabled
      have walked : IndexedWalk.step (· ≠ selectedClient) state.walk (.remove clientSocketID) =
          none := if_neg enabled
      rw [stepped, walked]
      rfl

/-- The walk skips nobody exactly if nobody is passed over. -/
theorem skips_nobody_iff (selectedClient : Int) (state : Broadcast) (event : Event Int)
    (rest : List (Event Int)) :
    IndexedWalk.SkipsNobody (· ≠ selectedClient) state.walk event rest ↔
      NobodyPassedOver selectedClient state event rest := by
  cases event with
  | visit => exact Iff.rfl
  | remove clientSocketID =>
    simp only [IndexedWalk.SkipsNobody, NobodyPassedOver, Broadcast.walk, ← List.map_take,
      List.getElem?_map, Option.mem_def, Option.map_eq_some_iff, forall_exists_index, and_imp,
      forall_apply_eq_imp_iff₂]

/-- The message was sent to a socket once if the walk has reached it once. -/
theorem Broadcasting.delivered_once_iff {message : List UInt8}
    (broadcasting : Broadcasting message state) (socket : Int) :
    state.deliveries socket = [⟨socket, message⟩] ↔ state.walk.reached.count socket = 1 := by
  have each : state.deliveries socket =
      List.replicate (state.deliveries socket).length ⟨socket, message⟩ := by
    apply List.eq_replicate_length.mpr
    intro sending member
    obtain ⟨among, own⟩ := List.mem_filter.mp member
    have message := broadcasting.only sending among
    have toSocket : sending.socket = socket := by simpa using own
    cases sending
    simp_all
  have count : state.walk.reached.count socket = (state.deliveries socket).length := by
    rw [Broadcast.walk, Broadcast.deliveries, List.count, List.countP_map,
      List.countP_eq_length_filter]
    rfl
  rw [count]
  constructor
  · intro once
    rw [once, List.length_singleton]
  · intro once
    rw [each, once]
    rfl

/-- Nobody joins in a step. -/
theorem Broadcasting.registered_shrinks
    (broadcasting : Broadcasting (outboundMessage inputData senderName) state)
    (stepped : broadcastStep inputData senderName selectedClient state event = some next) :
    next.table.registered ⊆ state.table.registered := by
  obtain ⟨_, move⟩ := broadcast_move stepped
  cases move with
  | sends | passes | ends => exact List.Subset.refl _
  | removes clientSocketID =>
    have entries := (broadcasting.formed.remove_distinct broadcasting.distinct clientSocketID).2
    intro client member
    rw [entries] at member
    exact List.mem_of_mem_filter member

/-- The run of a broadcast keeps its invariant, and nobody joins in it. -/
theorem broadcast_run {table : ClientTable OrganizedClientData} (formed : table.WellFormed)
    (distinct : (table.registered.map OrganizedClientData.socket).Nodup) {events : List (Event Int)}
    (ran : TransitionSystem.run (broadcastStep inputData senderName selectedClient)
      (startBroadcast table) events = some state) :
    Broadcasting (outboundMessage inputData senderName) state ∧
      ∀ client ∈ state.table.registered, client ∈ table.registered := by
  refine TransitionSystem.run_preserves (fun state =>
    Broadcasting (outboundMessage inputData senderName) state ∧
      ∀ client ∈ state.table.registered, client ∈ table.registered) ?_ ?_ ran
  · rintro state event next ⟨broadcasting, within⟩ stepped
    refine ⟨broadcasting.step stepped, ?_⟩
    intro client member
    exact within client (broadcasting.registered_shrinks stepped member)
  · exact ⟨⟨formed, distinct, fun sending nobody => by cases nobody⟩, fun _ member => member⟩

/-- After the loop has ended every client other than the sender that was registered all the
time was sent the message exactly once, if and only if no removal made the loop pass over
a client that stays. -/
theorem broadcast_reaches_iff (inputData senderName : List UInt8) (selectedClient : Int)
    {table : ClientTable OrganizedClientData} (formed : table.WellFormed)
    (distinct : (table.registered.map OrganizedClientData.socket).Nodup)
    {events : List (Event Int)} {state : Broadcast}
    (ran : TransitionSystem.run (broadcastStep inputData senderName selectedClient)
      (startBroadcast table) events = some state) (finished : state.finished = true) :
    (∀ client ∈ table.registered, client ∈ state.table.registered →
      client.socket ≠ selectedClient →
      state.deliveries client.socket =
        [⟨client.socket, outboundMessage inputData senderName⟩]) ↔
      TransitionSystem.MeetsAhead (broadcastStep inputData senderName selectedClient)
        (NobodyPassedOver selectedClient) (startBroadcast table) events := by
  obtain ⟨broadcasting, within⟩ := broadcast_run formed distinct ran
  have initially : Broadcasting (outboundMessage inputData senderName) (startBroadcast table) :=
    ⟨formed, distinct, fun sending nobody => by cases nobody⟩
  have walked : TransitionSystem.run (IndexedWalk.step (· ≠ selectedClient))
      (startBroadcast table).walk events = some state.walk := by
    have same : TransitionSystem.run (IndexedWalk.step (· ≠ selectedClient))
        (startBroadcast table).walk events =
          (TransitionSystem.run (broadcastStep inputData senderName selectedClient)
            (startBroadcast table) events).map Broadcast.walk :=
      TransitionSystem.run_view Broadcast.walk
        (Broadcasting (outboundMessage inputData senderName))
        (fun _ _ _ before stepped => before.step stepped) (fun _ _ before => before.walk_step)
        events initially
    rw [ran] at same
    exact same
  have reached := IndexedWalk.reached_once_iff distinct walked finished
  have conditions : TransitionSystem.MeetsAhead (IndexedWalk.step (· ≠ selectedClient))
      (IndexedWalk.SkipsNobody (· ≠ selectedClient)) (startBroadcast table).walk events ↔
        TransitionSystem.MeetsAhead (broadcastStep inputData senderName selectedClient)
          (NobodyPassedOver selectedClient) (startBroadcast table) events :=
    TransitionSystem.meets_ahead_view Broadcast.walk
      (Broadcasting (outboundMessage inputData senderName))
      (fun _ _ _ before stepped => before.step stepped) (fun _ _ before => before.walk_step)
      (fun state event rest _ => skips_nobody_iff selectedClient state event rest) events initially
  refine Iff.trans ?_ (reached.trans conditions)
  constructor
  · intro delivered socket registered other
    obtain ⟨client, member, rfl⟩ := List.mem_map.mp registered
    exact (broadcasting.delivered_once_iff client.socket).mp
      (delivered client (within client member) member other)
  · intro once client _ member other
    exact (broadcasting.delivered_once_iff client.socket).mpr
      (once client.socket (List.mem_map_of_mem member) other)

/-- A table of three clients. -/
def threeClients : ClientTable OrganizedClientData where
  clients := [⟨4, ['a'.toUInt8, 0]⟩, ⟨5, ['b'.toUInt8, 0]⟩, ⟨6, ['c'.toUInt8, 0]⟩] ++
    List.replicate 3 ⟨0, [0]⟩
  currentClientCount := 3

/-- The second client is removed after its turn, and the third one moves up behind the
index. -/
theorem third_client_passed_over :
    ¬ ∀ (inputData senderName : List UInt8) (selectedClient : Int)
      (table : ClientTable OrganizedClientData), table.WellFormed →
      (table.registered.map OrganizedClientData.socket).Nodup →
      ∀ (events : List (Event Int)) (state : Broadcast),
        TransitionSystem.run (broadcastStep inputData senderName selectedClient)
          (startBroadcast table) events = some state → state.finished = true →
        ∀ client ∈ table.registered, client ∈ state.table.registered →
          client.socket ≠ selectedClient →
          state.deliveries client.socket =
            [⟨client.socket, outboundMessage inputData senderName⟩] := by
  intro always
  have delivered := always ['h'.toUInt8, 'i'.toUInt8, 0] ['a'.toUInt8, 0] 4 threeClients
    ⟨by decide, by decide, by decide⟩ (by decide) [.visit, .visit, .remove 5, .visit]
    ⟨⟨[⟨4, ['a'.toUInt8, 0]⟩, ⟨6, ['c'.toUInt8, 0]⟩, ⟨6, ['c'.toUInt8, 0]⟩] ++
      List.replicate 3 ⟨0, [0]⟩, 2⟩, 2, [⟨5, literal "[a]=> hi"⟩], true⟩ (by decide) rfl
    ⟨6, ['c'.toUInt8, 0]⟩ (by decide) (by decide) (by decide)
  exact absurd delivered (by decide)

/-- The second client is removed after its turn while the index is behind the last entry, so
the third one, which stays, has got the message once. -/
theorem message_delivered_before_removal :
    ∃ state, TransitionSystem.run
        (broadcastStep ['h'.toUInt8, 'i'.toUInt8, 0] ['a'.toUInt8, 0] 4)
        (startBroadcast threeClients) [.visit, .visit, .visit, .remove 5, .visit] = some state ∧
      state.finished = true ∧
      TransitionSystem.MeetsAhead
        (broadcastStep ['h'.toUInt8, 'i'.toUInt8, 0] ['a'.toUInt8, 0] 4) (NobodyPassedOver 4)
        (startBroadcast threeClients) [.visit, .visit, .visit, .remove 5, .visit] ∧
      state.deliveries 6 = [⟨6, literal "[a]=> hi"⟩] := by
  have ran : TransitionSystem.run
      (broadcastStep ['h'.toUInt8, 'i'.toUInt8, 0] ['a'.toUInt8, 0] 4)
      (startBroadcast threeClients) [.visit, .visit, .visit, .remove 5, .visit] =
        some ⟨⟨[⟨4, ['a'.toUInt8, 0]⟩, ⟨6, ['c'.toUInt8, 0]⟩, ⟨6, ['c'.toUInt8, 0]⟩] ++
          List.replicate 3 ⟨0, [0]⟩, 2⟩, 3, [⟨5, literal "[a]=> hi"⟩, ⟨6, literal "[a]=> hi"⟩],
          true⟩ := by
    decide
  have nobody : TransitionSystem.MeetsAhead
      (broadcastStep ['h'.toUInt8, 'i'.toUInt8, 0] ['a'.toUInt8, 0] 4) (NobodyPassedOver 4)
      (startBroadcast threeClients) [.visit, .visit, .visit, .remove 5, .visit] := by
    decide
  have delivered := (broadcast_reaches_iff ['h'.toUInt8, 'i'.toUInt8, 0] ['a'.toUInt8, 0] 4
    (by exact ⟨by decide, by decide, by decide⟩) (by decide) ran rfl).mpr nobody
  exact ⟨_, ran, rfl, nobody,
    delivered ⟨6, ['c'.toUInt8, 0]⟩ (by decide) (by decide) (by decide)⟩

end HelperChat
