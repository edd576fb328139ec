import HelperChat.ClientTable
import HelperChat.Transition

/-!
# The capacity of the client table

Connections, names and disconnects of the server in any order. `main` compares the count
with the capacity when it accepts a connection, but the slot is taken only when the name
arrives, so connections without a name yet are not counted.

The table keeps its capacity in runs in which a thread is started only while every
connection that waits for its name still has a slot. After any other start the names of
the waiting connections are enough to write behind the table.
-/

namespace HelperChat

open ClientTable (registered removeClient)

/-- The server: its table, the sockets of the threads before and after the registration,
and the indices of the writes to `clients`. -/
structure Server where
  table : ClientTable OrganizedClientData
  unnamed : List Int
  named : List Int
  writes : List Int
deriving DecidableEq

/-- A connection is accepted and checked, its name arrives and is copied to a name buffer,
it ends before its name, or it ends after its registration. -/
inductive ServerEvent where
  | accept (client_socket : Int)
  | name (clientSocketID : Int) (origSender : List UInt8)
  | leave (clientSocketID : Int)
  | disconnect (clientSocketID : Int)
deriving DecidableEq

/-- One step of the server. The kernel hands out numbers that are not open. -/
def serverStep (server : Server) : ServerEvent → Option Server
  | .accept client_socket =>
      if client_socket ∈ server.unnamed ++ server.named then none
      else if server.table.currentClientCount < maximumConnectedClients then
        some { server with unnamed := server.unnamed ++ [client_socket] }
      else some server
  | .name clientSocketID origSender =>
      if clientSocketID ∈ server.unnamed then
        some {
          table := server.table.register ⟨clientSocketID, origSender⟩
          unnamed := server.unnamed.erase clientSocketID
          named := server.named ++ [clientSocketID]
          writes := server.writes ++ [server.table.currentClientCount] }
      else none
  | .leave clientSocketID =>
      if clientSocketID ∈ server.unnamed then
        some { server with unnamed := server.unnamed.erase clientSocketID }
      else none
  | .disconnect clientSocketID =>
      if clientSocketID ∈ server.named then
        some { server with
          table := removeClient OrganizedClientData.socket clientSocketID server.table
          named := server.named.erase clientSocketID }
      else none

/-- The server before its first connection. -/
def startServer : Server := ⟨emptyTable, [], [], []⟩

/-- The count is within the capacity, and so are all indices written so far. -/
def WithinCapacity (server : Server) : Prop :=
  (0 ≤ server.table.currentClientCount ∧
    server.table.currentClientCount ≤ maximumConnectedClients) ∧
  ∀ index ∈ server.writes, 0 ≤ index ∧ index < maximumConnectedClients

instance (server : Server) : Decidable (WithinCapacity server) :=
  inferInstanceAs (Decidable ((0 ≤ server.table.currentClientCount ∧
    server.table.currentClientCount ≤ maximumConnectedClients) ∧
    ∀ index ∈ server.writes, 0 ≤ index ∧ index < maximumConnectedClients))

/-- A thread is started only if there is a slot for it besides those for the connections
that wait for their names. -/
def LeavesSlot (server : Server) : ServerEvent → Prop
  | .accept _ =>
      server.table.currentClientCount < maximumConnectedClients →
        server.table.currentClientCount + server.unnamed.length < maximumConnectedClients
  | _ => True

instance (server : Server) (event : ServerEvent) : Decidable (LeavesSlot server event) := by
  cases event <;> unfold LeavesSlot <;> infer_instance

/-- The invariant of runs that leave slots: the table lists the named connections, and has
room for all that wait. -/
structure Slots (server : Server) : Prop where
  formed : server.table.WellFormed
  listed : server.table.registered.map OrganizedClientData.socket = server.named
  distinct : (server.unnamed ++ server.named).Nodup
  room : server.table.currentClientCount + server.unnamed.length ≤ maximumConnectedClients
  written : ∀ index ∈ server.writes, 0 ≤ index ∧ index < maximumConnectedClients

/-- An accepted connection keeps the slots. -/
theorem Slots.accept {server next : Server} {client_socket : Int} (slots : Slots server)
    (leaves : LeavesSlot server (.accept client_socket))
    (stepped : serverStep server (.accept client_socket) = some next) : Slots next := by
  simp only [serverStep] at stepped
  split at stepped
  case isTrue => simp at stepped
  case isFalse fresh =>
    split at stepped
    case isFalse full => exact Option.some.inj stepped ▸ slots
    case isTrue started =>
      obtain rfl := Option.some.inj stepped
      have left := leaves started
      refine ⟨slots.formed, slots.listed, ?_, ?_, slots.written⟩
      · have moved : (server.unnamed ++ [client_socket] ++ server.named).Perm
            (client_socket :: (server.unnamed ++ server.named)) := by
          rw [List.append_assoc, List.singleton_append]
          exact List.perm_middle
        apply moved.nodup_iff.mpr
        exact List.nodup_cons.mpr ⟨fresh, slots.distinct⟩
      · simp only [List.length_append, List.length_singleton]
        omega

/-- A name takes the slot of a connection that waited for it. -/
theorem Slots.name {server next : Server} {clientSocketID : Int} {origSender : List UInt8}
    (slots : Slots server)
    (stepped : serverStep server (.name clientSocketID origSender) = some next) : Slots next := by
  simp only [serverStep] at stepped
  split at stepped
  case isFalse => simp at stepped
  case isTrue waiting =>
    obtain rfl := Option.some.inj stepped
    have room := slots.room
    have nonnegative := slots.formed.countNonnegative
    have length := List.length_erase_of_mem waiting
    have positive : 0 < server.unnamed.length := List.length_pos_of_mem waiting
    have free : server.table.currentClientCount < maximumConnectedClients := by omega
    obtain ⟨formed, entries⟩ := slots.formed.register free ⟨clientSocketID, origSender⟩
    refine ⟨formed, ?_, ?_, ?_, ?_⟩
    · rw [entries, List.map_append, slots.listed]
      rfl
    · have moved : (server.unnamed.erase clientSocketID ++ (server.named ++ [clientSocketID])).Perm
          (server.unnamed ++ server.named) := by
        rw [← List.append_assoc]
        exact (List.perm_append_singleton _ _).trans
          ((List.perm_cons_erase waiting).symm.append_right server.named)
      exact moved.nodup_iff.mpr slots.distinct
    · change server.table.currentClientCount + 1 + (server.unnamed.erase clientSocketID).length ≤ _
      omega
    · intro index member
      rcases List.mem_append.mp member with old | new
      · exact slots.written index old
      · rw [List.mem_singleton.mp new]
        exact ⟨nonnegative, free⟩

/-- A connection that ends before its name gives its slot back. -/
theorem Slots.leave {server next : Server} {clientSocketID : Int} (slots : Slots server)
    (stepped : serverStep server (.leave clientSocketID) = some next) : Slots next := by
  simp only [serverStep] at stepped
  split at stepped
  case isFalse => simp at stepped
  case isTrue waiting =>
    obtain rfl := Option.some.inj stepped
    have room := slots.room
    have length := List.length_erase_of_mem waiting
    refine ⟨slots.formed, slots.listed, ?_, ?_, slots.written⟩
    · exact slots.distinct.sublist (List.erase_sublist.append_right server.named)
    · change server.table.currentClientCount + (server.unnamed.erase clientSocketID).length ≤ _
      omega

/-- A disconnect removes the connection from the table and from the named ones. -/
theorem Slots.disconnect {server next : Server} {clientSocketID : Int} (slots : Slots server)
    (stepped : serverStep server (.disconnect clientSocketID) = some next) : Slots next := by
  simp only [serverStep] at stepped
  split at stepped
  case isFalse => simp at stepped
  case isTrue present =>
    obtain rfl := Option.some.inj stepped
    have namedDistinct : server.named.Nodup := (List.nodup_append.mp slots.distinct).2.1
    have distinct : (server.table.registered.map OrganizedClientData.socket).Nodup :=
      slots.listed ▸ namedDistinct
    obtain ⟨formed, entries⟩ := slots.formed.remove_distinct distinct clientSocketID
    have shorter : (removeClient OrganizedClientData.socket clientSocketID
        server.table).registered.length ≤ server.table.registered.length := by
      rw [entries]
      exact List.length_filter_le _ _
    rw [formed.registered_length, slots.formed.registered_length] at shorter
    refine ⟨formed, ?_, ?_, ?_, slots.written⟩
    · rw [slots.formed.remove_sockets distinct clientSocketID, slots.listed]
    · exact slots.distinct.sublist (List.erase_sublist.append_left server.unnamed)
    · have room := slots.room
      have before := slots.formed.countNonnegative
      have after := formed.countNonnegative
      change (removeClient OrganizedClientData.socket clientSocketID
        server.table).currentClientCount + server.unnamed.length ≤ _
      omega

/-- Every step that leaves slots keeps the invariant. -/
theorem Slots.step {server next : Server} {event : ServerEvent} (slots : Slots server)
    (leaves : LeavesSlot server event) (stepped : serverStep server event = some next) :
    Slots next := by
  cases event with
  | accept client_socket => exact slots.accept leaves stepped
  | name clientSocketID origSender => exact slots.name stepped
  | leave clientSocketID => exact slots.leave stepped
  | disconnect clientSocketID => exact slots.disconnect stepped

/-- The invariant bounds the count and the indices. -/
theorem Slots.within_capacity {server : Server} (slots : Slots server) : WithinCapacity server :=
  ⟨⟨slots.formed.countNonnegative, slots.formed.countBounded⟩, slots.written⟩

/-- The server starts with all slots free. -/
theorem start_slots : Slots startServer where
  formed := by constructor <;> decide
  listed := rfl
  distinct := List.nodup_nil
  room := by decide
  written := by simp [startServer]

/-- With more connections waiting than there are slots left, their names are enough to
leave the capacity. -/
theorem names_overflow {server : Server} {waiting : List Int} (unnamed : server.unnamed = waiting)
    (exceeding : (maximumConnectedClients : Int) <
      server.table.currentClientCount + waiting.length) :
    ∃ later final, TransitionSystem.run serverStep server later = some final ∧
      ¬ WithinCapacity final := by
  induction waiting generalizing server with
  | nil =>
    refine ⟨[], server, rfl, ?_⟩
    rintro ⟨⟨_, bounded⟩, _⟩
    simp only [List.length_nil] at exceeding
    omega
  | cons first rest inductionHypothesis =>
    let next : Server := {
      table := server.table.register ⟨first, []⟩
      unnamed := rest
      named := server.named ++ [first]
      writes := server.writes ++ [server.table.currentClientCount] }
    have stepped : serverStep server (.name first []) = some next := by
      simp [serverStep, unnamed, next]
    have still : (maximumConnectedClients : Int) <
        next.table.currentClientCount + rest.length := by
      simp only [List.length_cons] at exceeding
      change _ < server.table.currentClientCount + 1 + _
      omega
    have left : next.unnamed = rest := rfl
    obtain ⟨later, final, ran, outside⟩ := inductionHypothesis left still
    refine ⟨.name first [] :: later, final, ?_, outside⟩
    rw [TransitionSystem.run_cons, stepped]
    exact ran

/-- In every state of a run that leaves slots, the count and all written indices are
within the capacity. Any start of a thread that does not leave a slot can be followed by
names until they are not. -/
theorem table_within_capacity (events : List ServerEvent) (server : Server)
    (ran : TransitionSystem.run serverStep startServer events = some server)
    (leaves : TransitionSystem.Meets serverStep LeavesSlot startServer events) :
    WithinCapacity server ∧
      ∀ client_socket ∉ server.unnamed ++ server.named,
        ¬ LeavesSlot server (.accept client_socket) →
        ∃ later final,
          TransitionSystem.run serverStep server (.accept client_socket :: later) = some final ∧
            ¬ WithinCapacity final := by
  have slots : Slots server :=
    TransitionSystem.guarded_run_preserves Slots
      (fun _ _ _ before left stepped => before.step left stepped) start_slots leaves ran
  constructor
  · exact slots.within_capacity
  · intro client_socket fresh overfull
    simp only [LeavesSlot, Classical.not_imp, Int.not_lt] at overfull
    obtain ⟨started, few⟩ := overfull
    let next : Server := { server with unnamed := server.unnamed ++ [client_socket] }
    have stepped : serverStep server (.accept client_socket) = some next := by
      simp only [serverStep, fresh, started, if_false, if_true, next]
    have exceeding : (maximumConnectedClients : Int) <
        next.table.currentClientCount + next.unnamed.length := by
      simp only [next, List.length_append, List.length_singleton]
      omega
    obtain ⟨later, final, continued, outside⟩ := names_overflow (rfl : next.unnamed = _) exceeding
    refine ⟨later, final, ?_, outside⟩
    rw [TransitionSystem.run_cons, stepped]
    exact continued

/-- Seven connections are accepted before the first name arrives; the seventh name is
written behind the table. -/
theorem seventh_name_behind_table :
    ¬ ∀ events server, TransitionSystem.run serverStep startServer events = some server →
      WithinCapacity server := by
  intro always
  have within := always
    ([4, 5, 6, 7, 8, 9, 10].map .accept ++
      [4, 5, 6, 7, 8, 9, 10].map fun socket => .name socket ['c'.toUInt8]) _ rfl
  exact absurd within (by decide)

/-- With every name sent before the next connection, a seventh connection is refused and a
free slot is used again. -/
theorem slots_reused :
    ∃ server, TransitionSystem.run serverStep startServer
        ([4, 5, 6, 7, 8, 9].flatMap (fun socket => [.accept socket, .name socket ['c'.toUInt8]]) ++
          [.accept 10, .disconnect 6, .accept 6, .name 6 ['d'.toUInt8]]) = some server ∧
      server.named = [4, 5, 7, 8, 9, 6] ∧ WithinCapacity server := by
  have leaves : TransitionSystem.Meets serverStep LeavesSlot startServer
      ([4, 5, 6, 7, 8, 9].flatMap (fun socket => [.accept socket, .name socket ['c'.toUInt8]]) ++
        [.accept 10, .disconnect 6, .accept 6, .name 6 ['d'.toUInt8]]) := by
    decide
  exact ⟨_, rfl, by decide, (table_within_capacity _ _ rfl leaves).1⟩

end HelperChat
