import HelperChat.RelayOrder

/-!
# Where the sends arrive

The server sends to socket numbers. A number belongs to the connection whose thread has not
closed it, and the kernel hands it out again later on. In runs in which `accept` returns
numbers that are not in use, the entries of the table are those of open connections, and
every `send` of a broadcast arrives at the connection of the entry that it was read from.
-/

namespace HelperChat

open CString (strncpy text)

/-- The connection that has the socket number. -/
def Relay.holder (state : Relay) (socket : Int) : Option Nat :=
  state.threads.findIdx? fun thread => thread.phase ≠ .gone ∧ thread.clientSocketID = socket

/-- `accept` returns a number that is not in use. -/
def AcceptsFresh (state : Relay) : RelayEvent → Prop
  | .accept client_socket => state.holder client_socket = none
  | _ => True

instance (state : Relay) : DecidablePred (AcceptsFresh state)
  | .accept client_socket => inferInstanceAs (Decidable (state.holder client_socket = none))
  | .leave _ | .register _ _ | .push _ | .post _ _ | .visit _ | .remove _ => .isTrue trivial

/-- A registration finds a free slot of the table, and `accept` a free number. -/
def FindsFree (state : Relay) (event : RelayEvent) : Prop :=
  FindsFreeSlot state event ∧ AcceptsFresh state event

instance (state : Relay) : DecidablePred (FindsFree state) := fun event =>
  inferInstanceAs (Decidable (FindsFreeSlot state event ∧ AcceptsFresh state event))

/-- The thread has not closed its socket. -/
def Relay.Open (state : Relay) (t : Nat) (socket : Int) : Prop :=
  ∃ thread, state.threads[t]? = some thread ∧ thread.phase ≠ .gone ∧
    thread.clientSocketID = socket

/-- The entry of a thread that has registered. -/
def RelayThread.entry (thread : RelayThread) (t : Nat) : Listed :=
  ⟨t, thread.clientSocketID, strncpy thread.origSender bufferSize⟩

/-- The invariant: open connections have different numbers, and the entries of the table are
theirs, one for each that has its client's name. -/
structure Routed (state : Relay) : Prop where
  relaying : Relaying state
  distinct : ∀ first second socket, state.Open first socket → state.Open second socket →
    first = second
  entries : ∀ entry ∈ state.table.registered, state.Open entry.connection entry.socket
  listed : ∀ (t : Nat) (thread : RelayThread), state.threads[t]? = some thread → thread.Named →
    thread.phase ≠ .gone → thread.entry t ∈ state.table.registered

variable {state next : Relay} {t : Nat} {thread : RelayThread} {socket : Int}

/-- A number that no connection has is not open. -/
theorem holder_none_iff : state.holder socket = none ↔ ∀ t, ¬ state.Open t socket := by
  rw [Relay.holder, List.findIdx?_eq_none_iff]
  constructor
  · rintro unused t ⟨thread, present, unclosed, own⟩
    have free := unused thread (List.mem_of_getElem? present)
    simp [unclosed, own] at free
  · intro unused thread member
    obtain ⟨t, present⟩ := List.mem_iff_getElem?.mp member
    rw [decide_eq_false_iff_not]
    rintro ⟨unclosed, own⟩
    exact unused t ⟨thread, present, unclosed, own⟩

/-- The number of an open connection belongs to it. -/
theorem Routed.holder (routed : Routed state) (isOpen : state.Open t socket) :
    state.holder socket = some t := by
  cases held : state.holder socket with
  | none => exact absurd isOpen (holder_none_iff.mp held t)
  | some first =>
    obtain ⟨inside, found, _⟩ := List.findIdx?_eq_some_iff_getElem.mp held
    obtain ⟨unclosed, own⟩ := of_decide_eq_true found
    exact congrArg some (routed.distinct first t socket
      ⟨_, List.getElem?_eq_getElem inside, unclosed, own⟩ isOpen)

/-- After a thread has gone on, the open connections are the same but for this one. -/
theorem open_moved (present : state.threads[t]? = some thread) {moved : RelayThread}
    (threads : next.threads = state.threads.set t moved)
    (same : moved.clientSocketID = thread.clientSocketID) {other : Nat} :
    next.Open other socket ↔
      if other = t then moved.phase ≠ .gone ∧ thread.clientSocketID = socket
      else state.Open other socket := by
  have inside := (List.getElem?_eq_some_iff.mp present).1
  rw [Relay.Open, threads]
  by_cases here : other = t
  · subst here
    simp [List.getElem?_set_self inside, same]
  · simp [List.getElem?_set_ne (Ne.symm here), here, Relay.Open]

/-- A thread that goes on to another phase keeps its number. -/
theorem open_kept (present : state.threads[t]? = some thread) (before : thread.phase ≠ .gone)
    {moved : RelayThread} (threads : next.threads = state.threads.set t moved)
    (same : moved.clientSocketID = thread.clientSocketID) (after : moved.phase ≠ .gone)
    (other : Nat) : next.Open other socket ↔ state.Open other socket := by
  rw [open_moved present threads same]
  by_cases here : other = t
  · subst here
    simp [Relay.Open, present, before, after]
  · simp [here]

/-- A thread that ends closes its socket. -/
theorem open_closed (present : state.threads[t]? = some thread)
    (threads : next.threads = state.threads.set t { thread with phase := .gone }) (other : Nat) :
    next.Open other socket ↔ other ≠ t ∧ state.Open other socket := by
  rw [open_moved present threads rfl]
  by_cases here : other = t
  · simp [here]
  · simp [here]

/-- A step in which a thread goes on and the table stays as it is. -/
theorem Routed.move (routed : Routed state) (relaying : Relaying next)
    (present : state.threads[t]? = some thread) (before : thread.phase ≠ .gone)
    (named : thread.Named) {phase : RelayPhase} (after : phase ≠ .gone)
    (threads : next.threads = state.threads.set t { thread with phase := phase })
    (table : next.table = state.table) : Routed next := by
  have same : ∀ (other : Nat) (socket : Int),
      next.Open other socket ↔ state.Open other socket := fun other socket =>
    open_kept present before threads rfl after other
  refine ⟨relaying, ?_, ?_, ?_⟩
  · intro first second socket one another
    exact routed.distinct first second socket ((same first socket).mp one)
      ((same second socket).mp another)
  · intro entry member
    exact (same _ _).mpr (routed.entries entry (table ▸ member))
  · intro other moved read isNamed unclosed
    rw [threads] at read
    rw [table]
    rcases MemberUpdate.read_set_cases read with ⟨rfl, rfl⟩ | ⟨_, old⟩
    · exact routed.listed other thread present named before
    · exact routed.listed other moved old isNamed unclosed

/-- A new connection has a number of its own. -/
theorem Routed.accept (routed : Routed state) {client_socket : Int}
    (fresh : state.holder client_socket = none)
    (relaying : Relaying { state with
      threads := state.threads ++ [⟨client_socket, [], .toReceiveName⟩] }) :
    Routed { state with
      threads := state.threads ++ [⟨client_socket, [], .toReceiveName⟩] } := by
  have unused := holder_none_iff.mp fresh
  have cases : ∀ (t : Nat) (socket : Int),
      Relay.Open { state with
        threads := state.threads ++ [⟨client_socket, [], .toReceiveName⟩] } t socket →
      state.Open t socket ∨ t = state.threads.length ∧ socket = client_socket := by
    rintro t socket ⟨thread, present, unclosed, own⟩
    rcases MemberUpdate.read_concat_cases present with ⟨here, rfl⟩ | old
    · exact .inr ⟨here, own.symm⟩
    · exact .inl ⟨thread, old, unclosed, own⟩
  refine ⟨relaying, ?_, ?_, ?_⟩
  · intro first second socket one another
    rcases cases first socket one with old | ⟨rfl, rfl⟩
    · rcases cases second socket another with oldToo | ⟨rfl, rfl⟩
      · exact routed.distinct first second socket old oldToo
      · exact absurd old (unused first)
    · rcases cases second socket another with oldToo | ⟨rfl, _⟩
      · exact absurd oldToo (unused second)
      · rfl
  · intro entry member
    obtain ⟨thread, present, unclosed, own⟩ := routed.entries entry member
    have inside := (List.getElem?_eq_some_iff.mp present).1
    exact ⟨thread, (List.getElem?_append_left inside).trans present, unclosed, own⟩
  · intro t thread read named unclosed
    rcases MemberUpdate.read_concat_cases read with ⟨_, rfl⟩ | old
    · exact absurd rfl named
    · exact routed.listed t thread old named unclosed

/-- A registered entry is that of its thread. -/
theorem Routed.register (routed : Routed state) (present : state.threads[t]? = some thread)
    (before : thread.phase = .toReceiveName)
    (free : state.table.currentClientCount < maximumConnectedClients)
    {moved : RelayThread} (threads : next.threads = state.threads.set t moved)
    (same : moved.clientSocketID = thread.clientSocketID) (after : moved.phase ≠ .gone)
    (table : next.table = state.table.register (moved.entry t)) (relaying : Relaying next) :
    Routed next := by
  have kept : ∀ (other : Nat) (socket : Int),
      next.Open other socket ↔ state.Open other socket := fun other socket =>
    open_kept present (by simp [before]) threads same after other
  have registered : next.table.registered = state.table.registered ++ [moved.entry t] := by
    rw [table]
    exact (routed.relaying.formed.register free (moved.entry t)).2
  refine ⟨relaying, ?_, ?_, ?_⟩
  · intro first second socket one another
    exact routed.distinct first second socket ((kept first socket).mp one)
      ((kept second socket).mp another)
  · intro entry member
    rw [registered] at member
    rcases List.mem_append.mp member with old | new
    · exact (kept _ _).mpr (routed.entries entry old)
    · obtain rfl := List.mem_singleton.mp new
      exact (kept _ _).mpr ⟨thread, present, by simp [before], same.symm⟩
  · intro other found read named unclosed
    rw [threads] at read
    rw [registered]
    rcases MemberUpdate.read_set_cases read with ⟨rfl, rfl⟩ | ⟨_, old⟩
    · exact List.mem_append_right _ (List.mem_singleton_self _)
    · exact List.mem_append_left _ (routed.listed other found old named unclosed)

/-- The entries of the table have different numbers. -/
theorem Routed.sockets (routed : Routed state) :
    (state.table.registered.map Listed.socket).Nodup := by
  refine List.Nodup.map_on ?_ (List.Nodup.of_map _ routed.relaying.distinct)
  intro entry member other among same
  have oneOpen := routed.entries entry member
  rw [same] at oneOpen
  exact List.inj_on_of_nodup_map routed.relaying.distinct member among
    (routed.distinct _ _ _ oneOpen (routed.entries other among))

/-- A removal deletes the entry of its own connection and no other one. -/
theorem Routed.removed (routed : Routed state) (isOpen : state.Open t socket) :
    (ClientTable.removeClient Listed.socket socket state.table).registered =
      state.table.registered.filter fun entry => entry.connection ≠ t := by
  obtain ⟨_, deleted⟩ : (ClientTable.removeClient Listed.socket socket
      state.table).WellFormed ∧ ClientTable.registered _ = _ :=
    routed.relaying.formed.remove_distinct routed.sockets socket
  refine deleted.trans (List.filter_congr ?_)
  intro entry member
  have entryOpen := routed.entries entry member
  have same : entry.socket = socket ↔ entry.connection = t := by
    constructor
    · intro equal
      exact routed.distinct _ _ socket (equal ▸ entryOpen) isOpen
    · intro equal
      obtain ⟨owner, found, _, owns⟩ := entryOpen
      obtain ⟨thread, present, _, own⟩ := isOpen
      rw [equal] at found
      obtain rfl := Option.some.inj (found.symm.trans present)
      exact owns.symm.trans own
  simp [same]

/-- A thread ends. Its connection is closed, and the entries of the other ones remain. -/
theorem Routed.close (routed : Routed state) (relaying : Relaying next)
    (present : state.threads[t]? = some thread)
    (threads : next.threads = state.threads.set t { thread with phase := .gone })
    (others : next.table.registered =
      state.table.registered.filter fun entry => entry.connection ≠ t) : Routed next := by
  have closed : ∀ (other : Nat) (socket : Int),
      next.Open other socket ↔ other ≠ t ∧ state.Open other socket :=
    fun other socket => open_closed present threads other
  refine ⟨relaying, ?_, ?_, ?_⟩
  · intro first second socket one another
    exact routed.distinct first second socket ((closed first socket).mp one).2
      ((closed second socket).mp another).2
  · intro entry member
    rw [others] at member
    obtain ⟨old, different⟩ := List.mem_filter.mp member
    exact (closed _ _).mpr ⟨of_decide_eq_true different, routed.entries entry old⟩
  · intro other found read named unclosed
    rw [threads] at read
    rw [others]
    rcases MemberUpdate.read_set_cases read with ⟨_, rfl⟩ | ⟨different, old⟩
    · exact absurd rfl unclosed
    · exact List.mem_filter.mpr
        ⟨routed.listed other found old named unclosed, decide_eq_true different⟩

/-- Steps with a free slot and a fresh number keep the invariant. -/
theorem Routed.step (routed : Routed state) {event : RelayEvent}
    (free : FindsFreeSlot state event) (fresh : AcceptsFresh state event)
    (stepped : relayStep state event = some next) : Routed next := by
  have relaying := routed.relaying.step free stepped
  cases relay_move stepped with
  | accepts client_socket => exact routed.accept fresh relaying
  | refuses => exact routed
  | registers t thread origSender present before =>
    exact routed.register present before free rfl rfl (by simp) rfl relaying
  | pushes t thread present before | posts t thread inputData present before =>
    exact routed.move relaying present (by simp [before]) (by simp [RelayThread.Named, before])
      (by simp) rfl rfl
  | visits t thread outbound number i present before
  | ends t thread outbound number i present before =>
    exact routed.move relaying present (by simp [before]) (by simp [RelayThread.Named, before])
      (by simp) rfl rfl
  | leaves t thread present before =>
    refine routed.close relaying present rfl (List.filter_eq_self.mpr ?_).symm
    intro entry member
    rw [decide_eq_true_iff]
    -- a thread without a name has no entry
    rintro rfl
    obtain ⟨owner, found, named, _⟩ := routed.relaying.owned entry member
    obtain rfl := Option.some.inj (present.symm.trans found)
    exact named before
  | removes t thread present before =>
    have isOpen : state.Open t thread.clientSocketID := ⟨thread, present, by simp [before], rfl⟩
    exact routed.close relaying present rfl (routed.removed isOpen)

/-- What an iteration sends arrives at the connection whose entry it has read. -/
theorem Routed.visit (routed : Routed state)
    (stepped : relayStep state (.visit t) = some next) :
    next.sent = state.sent ∨ ∃ relayed, next.sent = state.sent ++ [relayed] ∧
      state.holder relayed.sending.socket = some relayed.connection := by
  cases relay_move stepped with
  | ends => exact .inl rfl
  | visits t thread outbound number i present before inside =>
    obtain ⟨entry, read, ahead⟩ := routed.relaying.entry inside
    have member : entry ∈ state.table.registered :=
      List.mem_of_mem_drop (ahead ▸ List.mem_cons_self)
    rw [iteration_sent read]
    by_cases goes : outbound.GoesTo thread.clientSocketID entry.socket
    · rw [if_pos goes]
      exact .inr ⟨_, rfl, routed.holder (routed.entries entry member)⟩
    · rw [if_neg goes]
      exact .inl (List.append_nil _)

section Threads

variable {relay after : Relay}

/-- The texts of the sends to a connection. -/
def Relay.sentTo (relay : Relay) (t : Nat) : List (List UInt8) :=
  (relay.sent.filter fun relayed => relayed.connection = t).map
    fun relayed => text relayed.sending.message

/-- Only the main loop adds threads. -/
theorem relay_thread_count {event : RelayEvent} (stepped : relayStep relay event = some after)
    (other : ∀ client_socket, event ≠ .accept client_socket) :
    after.threads.length = relay.threads.length := by
  cases relay_move stepped with
  | accepts client_socket | refuses client_socket => exact absurd rfl (other client_socket)
  | leaves | registers | pushes | posts | visits | ends | removes =>
    exact List.length_set

/-- Only iterations send. -/
theorem relay_sent_kept {event : RelayEvent} (stepped : relayStep relay event = some after)
    (other : ∀ t, event ≠ .visit t) : after.sent = relay.sent := by
  cases relay_move stepped with
  | visits t | ends t => exact absurd rfl (other t)
  | accepts | refuses | leaves | registers | pushes | posts | removes => rfl

/-- A thread that has not come to the walk of its notice has not moved, but for its own
registration. -/
theorem early_before {event : RelayEvent} (stepped : relayStep relay event = some after)
    {t : Nat} {thread : RelayThread} (present : after.threads[t]? = some thread)
    (early : thread.phase = .toReceiveName ∨ thread.phase = .toPush)
    (old : t < relay.threads.length) (other : ∀ origSender, event ≠ .register t origSender) :
    relay.threads[t]? = some thread := by
  -- a thread goes on to a later phase
  have changed : ∀ (index : Nat) (moved : RelayThread), moved.phase ≠ .toReceiveName →
      moved.phase ≠ .toPush → (relay.threads.set index moved)[t]? = some thread →
      relay.threads[t]? = some thread := by
    intro index moved named pushed read
    rcases MemberUpdate.read_set_cases read with ⟨_, rfl⟩ | ⟨_, same⟩
    · exact absurd early (not_or.mpr ⟨named, pushed⟩)
    · exact same
  cases relay_move stepped with
  | accepts => exact (List.getElem?_append_left old).symm.trans present
  | refuses => exact present
  | registers index moving origSender found before =>
    rcases MemberUpdate.read_set_cases present with ⟨rfl, _⟩ | ⟨_, same⟩
    · exact absurd rfl (other origSender)
    · exact same
  | leaves index | pushes index | posts index | visits index | ends index | removes index =>
    exact changed index _ (by simp) (by simp) present

/-- A thread has its client's name from its registration on. -/
theorem named_before {event : RelayEvent} (stepped : relayStep relay event = some after)
    {t : Nat} {thread : RelayThread} (present : after.threads[t]? = some thread)
    (named : thread.Named) (unclosed : thread.phase ≠ .gone) :
    event = .register t thread.origSender ∨
      ∃ earlier, relay.threads[t]? = some earlier ∧ earlier.Named ∧ earlier.phase ≠ .gone ∧
        earlier.origSender = thread.origSender := by
  -- a thread that has the name goes on
  have changed : ∀ (other : Nat) (moving : RelayThread) (phase : RelayPhase),
      relay.threads[other]? = some moving → moving.Named → moving.phase ≠ .gone →
      (relay.threads.set other { moving with phase := phase })[t]? = some thread →
      ∃ earlier, relay.threads[t]? = some earlier ∧ earlier.Named ∧ earlier.phase ≠ .gone ∧
        earlier.origSender = thread.origSender := by
    intro other moving phase found isNamed isOpen read
    rcases MemberUpdate.read_set_cases read with ⟨rfl, rfl⟩ | ⟨_, same⟩
    · exact ⟨moving, found, isNamed, isOpen, rfl⟩
    · exact ⟨thread, same, named, unclosed, rfl⟩
  cases relay_move stepped with
  | refuses => exact .inr ⟨thread, present, named, unclosed, rfl⟩
  | accepts =>
    rcases MemberUpdate.read_concat_cases present with ⟨_, rfl⟩ | old
    · exact absurd rfl named
    · exact .inr ⟨thread, old, named, unclosed, rfl⟩
  | leaves other moving found =>
    rcases MemberUpdate.read_set_cases present with ⟨_, rfl⟩ | ⟨_, old⟩
    · exact absurd rfl unclosed
    · exact .inr ⟨thread, old, named, unclosed, rfl⟩
  | registers other moving origSender found before =>
    rcases MemberUpdate.read_set_cases present with ⟨rfl, rfl⟩ | ⟨_, old⟩
    · exact .inl rfl
    · exact .inr ⟨thread, old, named, unclosed, rfl⟩
  | pushes other moving found before | posts other moving _ found before
  | removes other moving found before =>
    exact .inr (changed other moving _ found (by simp [RelayThread.Named, before])
      (by simp [before]) present)
  | visits other moving outbound number i found before
  | ends other moving outbound number i found before =>
    exact .inr (changed other moving _ found (by simp [RelayThread.Named, before])
      (by simp [before]) present)

end Threads

section Arrivals

end Arrivals

section Runs

variable {events : List RelayEvent}

end Runs

end HelperChat
