import HelperChat.ClientTable
import HelperChat.MemberUpdate
import HelperChat.Transition

/-!
# Connections and their table entries

A disconnect closes the socket first and removes the table entry in a later step, and it
looks for the entry by the socket number, which the kernel may have handed out again in
between. Connections are numbered here in the order in which they were accepted, and a
table entry carries the number of its connection besides what the code stores.

A removal deletes exactly the entry of its own connection if this is the first entry
with the socket number and no entry behind the next one has that number too.
-/

namespace HelperChat

open ClientTable (registered removeClient scan)

/-- A table entry with the connection it belongs to, which the code does not store. -/
structure Listed where
  connection : Nat
  client : OrganizedClientData
deriving DecidableEq

/-- The socket number of an entry. -/
def Listed.socket (entry : Listed) : Int := entry.client.socket

/-- Where the thread of a connection stands: before its registration, in the message loop,
between `close` and the removal, or at its end. -/
inductive ConnectionPhase where
  | unnamed
  | registered
  | closed
  | gone
deriving DecidableEq

/-- The table, and the socket number and phase of every connection by its number. -/
structure Connections where
  table : ClientTable Listed
  connections : List (Int × ConnectionPhase)
deriving DecidableEq

/-- A connection is accepted with a socket number, registers, ends before that, is closed,
or removes its entry. -/
inductive ConnectionEvent where
  | accept (client_socket : Int)
  | name (connection : Nat) (origSender : List UInt8)
  | leave (connection : Nat)
  | close (connection : Nat)
  | remove (connection : Nat)
deriving DecidableEq

/-- The socket number is in use by a connection that has not been closed. -/
def SocketOpen (state : Connections) (socket : Int) : Prop :=
  (socket, ConnectionPhase.unnamed) ∈ state.connections ∨
    (socket, ConnectionPhase.registered) ∈ state.connections

instance (state : Connections) (socket : Int) : Decidable (SocketOpen state socket) :=
  inferInstanceAs (Decidable (_ ∨ _))

/-- One step of the main loop or of a connection's thread. -/
def connectionStep (state : Connections) : ConnectionEvent → Option Connections
  | .accept client_socket =>
      if SocketOpen state client_socket then none
      else if state.table.currentClientCount < maximumConnectedClients then
        some { state with connections := state.connections ++ [(client_socket, .unnamed)] }
      else some state
  | .name connection origSender =>
      match state.connections[connection]? with
      | some (socket, .unnamed) =>
          some {
            table := state.table.register ⟨connection, socket, origSender⟩
            connections := state.connections.set connection (socket, .registered) }
      | _ => none
  | .leave connection =>
      match state.connections[connection]? with
      | some (socket, .unnamed) =>
          some { state with connections := state.connections.set connection (socket, .gone) }
      | _ => none
  | .close connection =>
      match state.connections[connection]? with
      | some (socket, .registered) =>
          some { state with connections := state.connections.set connection (socket, .closed) }
      | _ => none
  | .remove connection =>
      match state.connections[connection]? with
      | some (socket, .closed) =>
          some {
            table := removeClient Listed.socket socket state.table
            connections := state.connections.set connection (socket, .gone) }
      | _ => none

/-- No connections yet. The zeroed entries of the table belong to none; they are given the
number zero. -/
def startConnections : Connections where
  table := ⟨List.replicate maximumConnectedClients ⟨0, 0, List.replicate bufferSize 0⟩, 0⟩
  connections := []

/-- The connection numbers of the registered entries. -/
def listedConnections (state : Connections) : List Nat :=
  state.table.registered.map Listed.connection

/-- The table that the code has: entries without connection numbers. -/
def Connections.codeTable (state : Connections) : ClientTable OrganizedClientData :=
  state.table.map Listed.client

/-- Every registered connection that is still open has its entry. -/
def OpenListed (state : Connections) : Prop :=
  ∀ connection < state.connections.length,
    state.connections[connection]?.map Prod.snd = some .registered →
      connection ∈ listedConnections state

instance (state : Connections) : Decidable (OpenListed state) :=
  inferInstanceAs (Decidable (∀ connection < state.connections.length,
    state.connections[connection]?.map Prod.snd = some .registered →
      connection ∈ listedConnections state))

/-- A removal has deleted the entry of its own connection and nothing else. -/
def DeletesOwnEntry (state next : Connections) : ConnectionEvent → Prop
  | .remove connection =>
      connection ∈ listedConnections state ∧
        next.table.registered =
          state.table.registered.filter fun entry => entry.connection ≠ connection
  | _ => True

instance (state next : Connections) (event : ConnectionEvent) :
    Decidable (DeletesOwnEntry state next event) := by
  cases event <;> unfold DeletesOwnEntry <;> infer_instance

/-- After the step every open connection has its entry, and a removal has deleted exactly
its own. -/
def RemovesOwnOnly (state : Connections) (event : ConnectionEvent) : Prop :=
  ∀ next ∈ connectionStep state event, OpenListed next ∧ DeletesOwnEntry state next event

instance (state : Connections) (event : ConnectionEvent) :
    Decidable (RemovesOwnOnly state event) :=
  inferInstanceAs (Decidable (∀ next ∈ connectionStep state event,
    OpenListed next ∧ DeletesOwnEntry state next event))

/-- The first entry with the number is the connection's, and no entry behind the next one
has the number. -/
def FoundFirstAndLast (entries : List Listed) (socket : Int) (connection : Nat) : Prop :=
  (entries.find? fun entry => entry.socket = socket).map Listed.connection = some connection ∧
    ∀ entry ∈ (entries.dropWhile fun entry => entry.connection ≠ connection).drop 2,
      entry.socket ≠ socket

instance (entries : List Listed) (socket : Int) (connection : Nat) :
    Decidable (FoundFirstAndLast entries socket connection) :=
  inferInstanceAs (Decidable (_ ∧ _))

/-- A registration finds a free slot, and a removal finds its own entry first and, apart
from the entry that its index skips, last. -/
def FindsOwnEntry (state : Connections) : ConnectionEvent → Prop
  | .name _ _ => state.table.currentClientCount < maximumConnectedClients
  | .remove connection =>
      ∀ closed ∈ state.connections[connection]?,
        FoundFirstAndLast state.table.registered closed.1 connection
  | _ => True

instance (state : Connections) (event : ConnectionEvent) :
    Decidable (FindsOwnEntry state event) := by
  cases event <;> unfold FindsOwnEntry <;> infer_instance

/-- When the own entry is hit first, it is deleted and the scan goes on behind the next
one. -/
theorem scan_own_hit {entry : Listed} {rest : List Listed} {socket : Int} {connection : Nat}
    (alone : entry.connection ∉ rest.map Listed.connection) (hit : entry.socket = socket)
    (own : entry.connection = connection) :
    FoundFirstAndLast (entry :: rest) socket connection ↔
      scan Listed.socket socket (entry :: rest) =
        (entry :: rest).filter fun entry => entry.connection ≠ connection := by
  have kept : rest.filter (fun entry => entry.connection ≠ connection) = rest := by
    apply List.filter_eq_self.mpr
    intro other member
    have different : other.connection ≠ connection := by
      rintro rfl
      exact alone (own ▸ List.mem_map_of_mem member)
    simpa using different
  have passed : rest.take 1 ++ scan Listed.socket socket (rest.drop 1) = rest ↔
      scan Listed.socket socket (rest.drop 1) = rest.drop 1 := by
    constructor
    · intro same
      exact List.append_cancel_left (same.trans (List.take_append_drop 1 rest).symm)
    · intro same
      rw [same, List.take_append_drop]
  have absent : scan Listed.socket socket (rest.drop 1) = rest.drop 1 ↔
      ∀ entry ∈ rest.drop 1, entry.socket ≠ socket :=
    ⟨ClientTable.absent_of_scan, ClientTable.scan_of_absent⟩
  rw [ClientTable.scan_hit hit, List.filter_cons_of_neg (by simpa using own), kept, passed, absent]
  simp [FoundFirstAndLast, hit, own]

/-- When another connection's entry is hit first, it is deleted. -/
theorem scan_other_hit {entry : Listed} {rest : List Listed} {socket : Int} {connection : Nat}
    (alone : entry.connection ∉ rest.map Listed.connection) (hit : entry.socket = socket)
    (other : entry.connection ≠ connection) :
    scan Listed.socket socket (entry :: rest) ≠
      (entry :: rest).filter fun entry => entry.connection ≠ connection := by
  intro same
  rw [ClientTable.scan_hit hit, List.filter_cons_of_pos (by simpa using other)] at same
  have sub : (rest.take 1 ++ scan Listed.socket socket (rest.drop 1)).Sublist
      (rest.take 1 ++ rest.drop 1) :=
    (ClientTable.scan_sublist socket (rest.drop 1)).append_left _
  rw [same, List.take_append_drop] at sub
  exact alone (List.mem_map_of_mem (sub.subset List.mem_cons_self))

/-- When the own entry has another number, it is neither found nor deleted. -/
theorem scan_own_missed {entry : Listed} {rest : List Listed} {socket : Int} {connection : Nat}
    (alone : entry.connection ∉ rest.map Listed.connection) (miss : entry.socket ≠ socket)
    (own : entry.connection = connection) :
    ¬ FoundFirstAndLast (entry :: rest) socket connection ∧
      scan Listed.socket socket (entry :: rest) ≠
        (entry :: rest).filter fun entry => entry.connection ≠ connection := by
  constructor
  · rintro ⟨found, _⟩
    rw [List.find?_cons_of_neg (by simpa using miss)] at found
    obtain ⟨other, present, same⟩ := Option.map_eq_some_iff.mp found
    exact alone (own.trans same.symm ▸ List.mem_map_of_mem (List.mem_of_find?_eq_some present))
  · intro same
    rw [ClientTable.scan_miss miss, List.filter_cons_of_neg (by simpa using own)] at same
    have kept : entry ∈ rest.filter fun entry => entry.connection ≠ connection :=
      same ▸ List.mem_cons_self
    exact alone (List.mem_map_of_mem (List.mem_of_mem_filter kept))

/-- The scan deletes exactly the entry of a connection if it finds it first and, apart from
the entry it passes over, last. -/
theorem scan_own_iff {entries : List Listed} (distinct : (entries.map Listed.connection).Nodup)
    (socket : Int) (connection : Nat) :
    FoundFirstAndLast entries socket connection ↔
      connection ∈ entries.map Listed.connection ∧
        scan Listed.socket socket entries =
          entries.filter fun entry => entry.connection ≠ connection := by
  induction entries with
  | nil => simp [FoundFirstAndLast]
  | cons entry rest inductionHypothesis =>
    rw [List.map_cons, List.nodup_cons] at distinct
    obtain ⟨alone, others⟩ := distinct
    by_cases own : entry.connection = connection
    · by_cases hit : entry.socket = socket
      · rw [scan_own_hit alone hit own]
        simp [own]
      · obtain ⟨notFound, notDeleted⟩ := scan_own_missed alone hit own
        exact iff_of_false notFound fun deleted => notDeleted deleted.2
    · by_cases hit : entry.socket = socket
      · have notFound : ¬ FoundFirstAndLast (entry :: rest) socket connection := by
          simp [FoundFirstAndLast, hit, own]
        exact iff_of_false notFound fun deleted => scan_other_hit alone hit own deleted.2
      · have later := inductionHypothesis others
        rw [ClientTable.scan_miss hit, List.filter_cons_of_pos (by simpa using own),
          List.cons.injEq]
        simp only [FoundFirstAndLast] at later ⊢
        rw [List.find?_cons_of_neg (by simpa using hit),
          List.dropWhile_cons_of_pos (by simpa using own), later]
        simp [Ne.symm own]

/-- The phases in which a connection has an entry. -/
def ConnectionPhase.HasEntry (phase : ConnectionPhase) : Prop :=
  phase = .registered ∨ phase = .closed

/-- A connection without a name has no entry. -/
theorem unnamed_without_entry : ¬ ConnectionPhase.unnamed.HasEntry := by
  simp [ConnectionPhase.HasEntry]

/-- A connection that is gone has no entry. -/
theorem gone_without_entry : ¬ ConnectionPhase.gone.HasEntry := by
  simp [ConnectionPhase.HasEntry]

/-- The invariant: the table has one entry for each connection between its registration
and its removal. -/
structure Tracked (state : Connections) : Prop where
  formed : state.table.WellFormed
  distinct : (listedConnections state).Nodup
  entries : ∀ entry ∈ state.table.registered, ∃ phase : ConnectionPhase,
    state.connections[entry.connection]? = some (entry.socket, phase) ∧ phase.HasEntry
  listed : ∀ connection socket (phase : ConnectionPhase),
    state.connections[connection]? = some (socket, phase) → phase.HasEntry →
      connection ∈ listedConnections state

/-- Open connections have entries. -/
theorem Tracked.open_listed {state : Connections} (tracked : Tracked state) :
    OpenListed state := by
  intro connection _ registered
  obtain ⟨⟨socket, phase⟩, found, rfl⟩ := Option.map_eq_some_iff.mp registered
  exact tracked.listed connection socket .registered found (.inl rfl)

/-- A connection that changes its phase, but not whether it has an entry. -/
theorem Tracked.phase_changed {state : Connections} {connection : Nat} {socket : Int}
    {before after : ConnectionPhase} (tracked : Tracked state)
    (present : state.connections[connection]? = some (socket, before))
    (same : after.HasEntry ↔ before.HasEntry) :
    Tracked { state with connections := state.connections.set connection (socket, after) } := by
  have inside : connection < state.connections.length := (List.getElem?_eq_some_iff.mp present).1
  refine ⟨tracked.formed, tracked.distinct, ?_, ?_⟩
  · intro entry member
    obtain ⟨phase, found, has⟩ := tracked.entries entry member
    change ∃ phase : ConnectionPhase, (state.connections.set connection (socket, after))[_]? = _ ∧ _
    by_cases here : connection = entry.connection
    · obtain ⟨rfl, rfl⟩ := Prod.mk.inj (Option.some.inj (present.symm.trans (here ▸ found)))
      refine ⟨after, ?_, same.mpr has⟩
      rw [← here, List.getElem?_set_self inside]
    · rw [List.getElem?_set_ne here]
      exact ⟨phase, found, has⟩
  · intro other number phase found has
    rcases MemberUpdate.read_set_cases found with ⟨rfl, new⟩ | ⟨_, old⟩
    · obtain ⟨rfl, rfl⟩ := Prod.mk.inj new
      exact tracked.listed other number before present (same.mp has)
    · exact tracked.listed other number phase old has

/-- The steps of the main loop and of a connection's thread. -/
inductive ConnectionMove (state : Connections) : ConnectionEvent → Connections → Prop
  | accepts (client_socket : Int) :
      ConnectionMove state (.accept client_socket)
        { state with connections := state.connections ++ [(client_socket, .unnamed)] }
  | refuses (client_socket : Int) : ConnectionMove state (.accept client_socket) state
  | names (connection : Nat) (origSender : List UInt8) (socket : Int)
      (present : state.connections[connection]? = some (socket, .unnamed)) :
      ConnectionMove state (.name connection origSender)
        { table := state.table.register ⟨connection, socket, origSender⟩
          connections := state.connections.set connection (socket, .registered) }
  | leaves (connection : Nat) (socket : Int)
      (present : state.connections[connection]? = some (socket, .unnamed)) :
      ConnectionMove state (.leave connection)
        { state with connections := state.connections.set connection (socket, .gone) }
  | closes (connection : Nat) (socket : Int)
      (present : state.connections[connection]? = some (socket, .registered)) :
      ConnectionMove state (.close connection)
        { state with connections := state.connections.set connection (socket, .closed) }
  | removes (connection : Nat) (socket : Int)
      (present : state.connections[connection]? = some (socket, .closed)) :
      ConnectionMove state (.remove connection)
        { table := removeClient Listed.socket socket state.table
          connections := state.connections.set connection (socket, .gone) }

/-- Every computed step is one of these. -/
theorem connection_move {state next : Connections} {event : ConnectionEvent}
    (stepped : connectionStep state event = some next) : ConnectionMove state event next := by
  cases event with
  | accept client_socket =>
    simp only [connectionStep] at stepped
    split at stepped
    case isTrue => cases stepped
    case isFalse =>
      split at stepped
      case isTrue =>
        obtain rfl := Option.some.inj stepped
        exact .accepts client_socket
      case isFalse =>
        obtain rfl := Option.some.inj stepped
        exact .refuses client_socket
  | name | leave | close | remove =>
    simp only [connectionStep] at stepped
    split at stepped
    case h_2 => cases stepped
    case h_1 socket present =>
      obtain rfl := Option.some.inj stepped
      constructor
      exact present

/-- A new connection has no entry. -/
theorem Tracked.accept {state next : Connections} {client_socket : Int} (tracked : Tracked state)
    (stepped : connectionStep state (.accept client_socket) = some next) : Tracked next := by
  cases connection_move stepped with
  | refuses => exact tracked
  | accepts =>
    refine ⟨tracked.formed, tracked.distinct, ?_, ?_⟩
    · intro entry member
      obtain ⟨phase, found, has⟩ := tracked.entries entry member
      refine ⟨phase, ?_, has⟩
      change (state.connections ++ [(client_socket, .unnamed)])[_]? = _
      rw [List.getElem?_append_left (List.getElem?_eq_some_iff.mp found).1]
      exact found
    · intro connection socket phase found has
      rcases MemberUpdate.read_concat_cases found with ⟨_, new⟩ | old
      · obtain ⟨rfl, rfl⟩ := Prod.mk.inj new
        exact absurd has unnamed_without_entry
      · exact tracked.listed connection socket phase old has

/-- With a free slot a registration lists its connection. -/
theorem Tracked.name {state next : Connections} {connection : Nat} {origSender : List UInt8}
    (tracked : Tracked state)
    (free : state.table.currentClientCount < maximumConnectedClients)
    (stepped : connectionStep state (.name connection origSender) = some next) :
    Tracked next := by
  cases connection_move stepped with
  | names _ _ socket present =>
    have inside : connection < state.connections.length :=
      (List.getElem?_eq_some_iff.mp present).1
    obtain ⟨formed, entries⟩ :=
      tracked.formed.register free (⟨connection, socket, origSender⟩ : Listed)
    -- no entry belongs to a connection without a name
    have others : ∀ entry ∈ state.table.registered, connection ≠ entry.connection := by
      rintro entry member rfl
      obtain ⟨phase, found, has⟩ := tracked.entries entry member
      obtain ⟨_, rfl⟩ := Prod.mk.inj (Option.some.inj (found.symm.trans present))
      exact unnamed_without_entry has
    refine ⟨formed, ?_, ?_, ?_⟩
    · rw [listedConnections, entries, List.map_append, List.map_singleton]
      apply List.nodup_append.mpr
      refine ⟨tracked.distinct, by simp, ?_⟩
      intro other member new among
      obtain ⟨entry, old, rfl⟩ := List.mem_map.mp member
      rw [List.mem_singleton.mp among]
      exact (others entry old).symm
    · intro entry member
      rw [entries] at member
      change ∃ phase : ConnectionPhase,
        (state.connections.set connection (socket, .registered))[_]? = _ ∧ _
      rcases List.mem_append.mp member with old | new
      · rw [List.getElem?_set_ne (others entry old)]
        exact tracked.entries entry old
      · obtain rfl := List.mem_singleton.mp new
        exact ⟨.registered, List.getElem?_set_self inside, .inl rfl⟩
    · intro other number phase found has
      rw [listedConnections, entries, List.map_append, List.mem_append]
      rcases MemberUpdate.read_set_cases found with ⟨rfl, _⟩ | ⟨_, old⟩
      · exact .inr (by simp)
      · exact .inl (tracked.listed other number phase old has)

/-- Without a free slot the registering connection gets no entry. -/
theorem Tracked.name_unlisted {state next : Connections} {connection : Nat}
    {origSender : List UInt8} (tracked : Tracked state)
    (full : ¬ state.table.currentClientCount < maximumConnectedClients)
    (stepped : connectionStep state (.name connection origSender) = some next) :
    ¬ OpenListed next := by
  cases connection_move stepped with
  | names _ _ socket present =>
    have inside : connection < state.connections.length :=
      (List.getElem?_eq_some_iff.mp present).1
    intro openListed
    have listed := openListed connection (by simpa using inside)
      (by simp [inside])
    obtain ⟨entry, member, rfl⟩ := List.mem_map.mp listed
    have allocated := tracked.formed.allocated
    have bounded := tracked.formed.countBounded
    have old : entry ∈ state.table.registered := by
      have outside : state.table.clients.length ≤ state.table.currentClientCount.toNat := by omega
      have everything : state.table.registered = state.table.clients :=
        List.take_of_length_le outside
      have among := List.mem_of_mem_take member
      simp only [ClientTable.register, ClientTable.writeSlot, ClientTable.incrementCount,
        List.set_eq_of_length_le outside, ite_self] at among
      rwa [everything]
    obtain ⟨phase, found, has⟩ := tracked.entries entry old
    obtain ⟨_, rfl⟩ := Prod.mk.inj (Option.some.inj (found.symm.trans present))
    exact unnamed_without_entry has

/-- A removal that finds its own entry first and last deletes exactly this entry. -/
theorem Tracked.remove {state next : Connections} {connection : Nat} (tracked : Tracked state)
    (finds : FindsOwnEntry state (.remove connection))
    (stepped : connectionStep state (.remove connection) = some next) :
    Tracked next ∧ DeletesOwnEntry state next (.remove connection) := by
  cases connection_move stepped with
  | removes _ socket present =>
    obtain ⟨formed, scanned⟩ : (removeClient Listed.socket socket state.table).WellFormed ∧
        (removeClient Listed.socket socket state.table).registered =
          scan Listed.socket socket state.table.registered :=
      tracked.formed.remove_client socket
    obtain ⟨listed, own⟩ := (scan_own_iff tracked.distinct socket connection).mp
      (finds (socket, .closed) present)
    rw [own] at scanned
    refine ⟨⟨formed, ?_, ?_, ?_⟩, ⟨listed, scanned⟩⟩
    · rw [listedConnections, scanned]
      exact tracked.distinct.sublist (List.filter_sublist.map Listed.connection)
    · intro entry member
      rw [scanned, List.mem_filter] at member
      obtain ⟨old, other⟩ := member
      change ∃ phase : ConnectionPhase,
        (state.connections.set connection (socket, .gone))[_]? = _ ∧ _
      rw [List.getElem?_set_ne (Ne.symm (by simpa using other))]
      exact tracked.entries entry old
    · intro other number phase found has
      rcases MemberUpdate.read_set_cases found with ⟨rfl, new⟩ | ⟨different, old⟩
      · obtain ⟨rfl, rfl⟩ := Prod.mk.inj new
        exact absurd has gone_without_entry
      · obtain ⟨entry, member, rfl⟩ := List.mem_map.mp (tracked.listed other number phase old has)
        rw [listedConnections, scanned]
        exact List.mem_map_of_mem (List.mem_filter.mpr ⟨member, by simpa using different⟩)

/-- Any other removal deletes something else or not its own entry. -/
theorem Tracked.remove_other {state next : Connections} {connection : Nat}
    (tracked : Tracked state) (misses : ¬ FindsOwnEntry state (.remove connection))
    (stepped : connectionStep state (.remove connection) = some next) :
    ¬ DeletesOwnEntry state next (.remove connection) := by
  cases connection_move stepped with
  | removes _ socket present =>
    have scanned : (removeClient Listed.socket socket state.table).registered =
        scan Listed.socket socket state.table.registered :=
      (tracked.formed.remove_client socket).2
    rintro ⟨listed, own⟩
    have found := (scan_own_iff tracked.distinct socket connection).mpr
      ⟨listed, scanned.symm.trans own⟩
    apply misses
    intro closed atClosed
    obtain rfl := Option.some.inj (present.symm.trans atClosed)
    exact found

/-- What a step preserves when it finds its own entry. -/
theorem Tracked.step {state next : Connections} {event : ConnectionEvent}
    (tracked : Tracked state) (finds : FindsOwnEntry state event)
    (stepped : connectionStep state event = some next) : Tracked next := by
  cases event with
  | accept client_socket => exact tracked.accept stepped
  | name connection origSender => exact tracked.name finds stepped
  | remove connection => exact (tracked.remove finds stepped).1
  | leave connection =>
    cases connection_move stepped with
    | leaves _ socket present =>
      exact tracked.phase_changed present (iff_of_false gone_without_entry unnamed_without_entry)
  | close connection =>
    cases connection_move stepped with
    | closes _ socket present =>
      exact tracked.phase_changed present (iff_of_true (.inr rfl) (.inl rfl))

/-- A step removes its own entry only, and keeps all open connections listed, exactly if
it finds its own entry. -/
theorem Tracked.finds_iff {state next : Connections} {event : ConnectionEvent}
    (tracked : Tracked state) (stepped : connectionStep state event = some next) :
    FindsOwnEntry state event ↔ RemovesOwnOnly state event := by
  constructor
  · intro finds other same
    obtain rfl := Option.some.inj (stepped.symm.trans same)
    constructor
    · exact (tracked.step finds stepped).open_listed
    · cases event with
      | remove connection => exact (tracked.remove finds stepped).2
      | accept | name | leave | close => trivial
  · intro removes
    obtain ⟨openListed, own⟩ := removes next stepped
    cases event with
    | accept client_socket | leave connection | close connection => trivial
    | name connection origSender =>
      by_contra full
      exact tracked.name_unlisted full stepped openListed
    | remove connection =>
      by_contra misses
      exact tracked.remove_other misses stepped own

/-- The table starts empty. -/
theorem start_tracked : Tracked startConnections where
  formed := by constructor <;> decide
  distinct := List.nodup_nil
  entries := by simp [startConnections, ClientTable.registered]
  listed := by simp [startConnections]

/-- In a run every removal deletes exactly its own connection's entry and every open
connection keeps its entry, exactly if every registration finds a free slot and every
removal finds its own entry first and, apart from the skipped one, last. -/
theorem removals_own_only_iff (events : List ConnectionEvent) (state : Connections)
    (ran : TransitionSystem.run connectionStep startConnections events = some state) :
    TransitionSystem.Meets connectionStep RemovesOwnOnly startConnections events ↔
      TransitionSystem.Meets connectionStep FindsOwnEntry startConnections events :=
  (TransitionSystem.meets_iff_meets Tracked
    (fun _ _ _ tracked stepped => tracked.finds_iff stepped)
    (fun _ _ _ tracked finds stepped => tracked.step finds stepped) start_tracked ran).symm

/-- Without the connection numbers the steps are those of the code's table. -/
theorem code_table_step {state next : Connections} {event : ConnectionEvent}
    (stepped : connectionStep state event = some next) :
    next.codeTable = state.codeTable ∨
      (∃ socket origSender, next.codeTable = state.codeTable.register ⟨socket, origSender⟩) ∨
      ∃ socket, next.codeTable =
        removeClient OrganizedClientData.socket socket state.codeTable := by
  cases connection_move stepped with
  | accepts | refuses | leaves | closes => exact .inl rfl
  | names _ origSender socket =>
    exact .inr (.inl ⟨socket, origSender, ClientTable.map_register Listed.client _ _⟩)
  | removes _ socket =>
    exact .inr (.inr ⟨socket, ClientTable.map_remove_client (fun _ => rfl) socket state.table⟩)

/-- The socket number 4 is closed and handed out again before its removal, and its new
owner stands two places behind the old entry. -/
def reuseEvents : List ConnectionEvent :=
  [.accept 4, .name 0 ['a'.toUInt8], .accept 5, .name 1 ['b'.toUInt8], .close 0, .accept 4,
    .name 2 ['c'.toUInt8], .remove 0]

/-- The removal of the first connection also deletes the entry of the third one. -/
theorem reused_number_removed :
    ¬ ∀ events state,
      TransitionSystem.run connectionStep startConnections events = some state →
      TransitionSystem.Meets connectionStep RemovesOwnOnly startConnections events := by
  intro always
  exact absurd (always reuseEvents _ rfl) (by decide)

/-- With the number's new owner directly behind the old entry, only the old one is deleted. -/
theorem reused_number_skipped :
    ∃ state, TransitionSystem.run connectionStep startConnections
        [.accept 4, .name 0 ['a'.toUInt8], .close 0, .accept 4, .name 1 ['c'.toUInt8],
          .remove 0] = some state ∧
      state.table.registered.map Listed.connection = [1] ∧
      TransitionSystem.Meets connectionStep RemovesOwnOnly startConnections
        [.accept 4, .name 0 ['a'.toUInt8], .close 0, .accept 4, .name 1 ['c'.toUInt8],
          .remove 0] :=
  ⟨_, rfl, rfl, (removals_own_only_iff _ _ rfl).mpr (by decide)⟩

end HelperChat
