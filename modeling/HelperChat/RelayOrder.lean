import HelperChat.Relay

/-!
# Broadcasts arrive at most once and in order

The server of `Relay` refines the multicast: an iteration that sends is a delivery, the
first and the last step of a walk post a text and close it. So a connection gets every
text at most once and the texts of each thread in their order, and two texts arrive in
different orders only if one was being sent when the other one's walk began.

The index of a walk only grows and the entries of the table only move down, so what a walk
has sent lies before its index or is out of the table.
-/

namespace HelperChat

open CString (strncpy)
open Multicast (Board Post)

/-- A public message may go to everybody but its sender, a notice to everybody. -/
def Admits (sender : Nat) (outbound : Outbound) (receiver : Nat) : Prop :=
  match outbound with
  | .pushNotification _ => True
  | .publicMessage _ => receiver ≠ sender

instance (sender : Nat) (outbound : Outbound) (receiver : Nat) :
    Decidable (Admits sender outbound receiver) :=
  match outbound with
  | .pushNotification _ => .isTrue trivial
  | .publicMessage _ => inferInstanceAs (Decidable (receiver ≠ sender))

/-- The server seen as a multicast between connections. -/
def Relay.board (state : Relay) : Board Nat Outbound where
  posts := state.posts
  underWay := state.underWay
  deliveries := state.sent.map fun relayed => (relayed.number, relayed.connection)

/-- The thread has its client's name and so may have an entry in the table. -/
def RelayThread.Named (thread : RelayThread) : Prop := thread.phase ≠ .toReceiveName

/-- A named thread with the socket number has the connection. -/
def Relay.Owned (state : Relay) (connection : Nat) (socket : Int) : Prop :=
  ∃ thread, state.threads[connection]? = some thread ∧ thread.Named ∧
    thread.clientSocketID = socket

/-- A walk's text is the one with its number, and no entry from the index on has been sent
it. -/
structure Walking (state : Relay) (t : Nat) (outbound : Outbound) (number i : Nat) : Prop where
  posted : ∃ post ∈ state.posts[number]?, post.sender = t ∧ post.text = outbound
  ahead : ∀ relayed ∈ state.sent, relayed.number = number →
    relayed.connection ∉ (state.table.registered.drop i).map Listed.connection

/-- The invariant of the relay. -/
structure Relaying (state : Relay) : Prop where
  formed : state.table.WellFormed
  distinct : (state.table.registered.map Listed.connection).Nodup
  owned : ∀ entry ∈ state.table.registered, state.Owned entry.connection entry.socket
  walks : ∀ t thread outbound number i, state.threads[t]? = some thread →
    thread.phase = .walking outbound number i → Walking state t outbound number i
  carried : ∀ relayed ∈ state.sent, state.Owned relayed.connection relayed.sending.socket ∧
    ∃ post ∈ state.posts[relayed.number]?, relayed.sending.message = post.text.message

section UnderWay

variable {state : Relay} {t number : Nat} {thread : RelayThread}

/-- A text is under way exactly if a thread is sending it. -/
theorem mem_under_way :
    number ∈ state.underWay ↔
      ∃ (t : Nat) (thread : RelayThread), state.threads[t]? = some thread ∧
        thread.number = some number := by
  rw [Relay.underWay, List.mem_toFinset, List.mem_filterMap]
  constructor
  · rintro ⟨thread, member, sending⟩
    obtain ⟨t, present⟩ := List.mem_iff_getElem?.mp member
    exact ⟨t, thread, present, sending⟩
  · rintro ⟨t, thread, present, sending⟩
    exact ⟨thread, List.mem_of_getElem? present, sending⟩

/-- After a thread has gone on, a text is under way if this thread or another one is sending
it. -/
theorem mem_under_way_moved (inside : t < state.threads.length) (thread : RelayThread)
    (phase : RelayPhase) :
    number ∈ (state.moveTo t thread phase).underWay ↔
      ({ thread with phase := phase } : RelayThread).number = some number ∨
        ∃ other member, other ≠ t ∧ state.threads[other]? = some member ∧
          member.number = some number := by
  rw [mem_under_way]
  constructor
  · rintro ⟨other, member, found, sending⟩
    rcases MemberUpdate.read_set_cases found with ⟨_, rfl⟩ | ⟨different, old⟩
    · exact .inl sending
    · exact .inr ⟨other, member, different, old, sending⟩
  · rintro (own | ⟨other, member, different, old, sending⟩)
    · exact ⟨t, _, List.getElem?_set_self inside, own⟩
    · exact ⟨other, member, (List.getElem?_set_ne (Ne.symm different)).trans old, sending⟩

/-- Before a thread goes on, a text is under way if this thread or another one is sending
it. -/
theorem mem_under_way_at (present : state.threads[t]? = some thread) :
    number ∈ state.underWay ↔
      thread.number = some number ∨
        ∃ other member, other ≠ t ∧ state.threads[other]? = some member ∧
          member.number = some number := by
  obtain ⟨inside, read⟩ := List.getElem?_eq_some_iff.mp present
  have same : state.moveTo t thread thread.phase = state := by
    rw [Relay.moveTo]
    change { state with threads := state.threads.set t thread } = state
    rw [← read, List.set_getElem_self]
  have moved : number ∈ (state.moveTo t thread thread.phase).underWay ↔ _ :=
    mem_under_way_moved inside thread thread.phase
  rwa [same] at moved

/-- A step between phases in which the thread sends nothing. -/
theorem under_way_idle (present : state.threads[t]? = some thread) {moved : RelayThread}
    {phase : RelayPhase} (before : thread.number = none)
    (after : ({ moved with phase := phase } : RelayThread).number = none) :
    (state.moveTo t moved phase).underWay = state.underWay := by
  ext number
  rw [mem_under_way_moved (List.getElem?_eq_some_iff.mp present).1, mem_under_way_at present,
    before, after]

/-- A thread begins to send a text. -/
theorem under_way_begin (present : state.threads[t]? = some thread)
    (before : thread.number = none) (outbound : Outbound) (number i : Nat) :
    (state.moveTo t thread (.walking outbound number i)).underWay =
      insert number state.underWay := by
  ext other
  rw [mem_under_way_moved (List.getElem?_eq_some_iff.mp present).1, Finset.mem_insert,
    mem_under_way_at present, before]
  simp [RelayThread.number, eq_comm]

/-- A thread goes on with its text. -/
theorem under_way_next (present : state.threads[t]? = some thread) {outbound : Outbound}
    {number i : Nat} (before : thread.phase = .walking outbound number i) :
    (state.moveTo t thread (.walking outbound number (i + 1))).underWay = state.underWay := by
  ext other
  rw [mem_under_way_moved (List.getElem?_eq_some_iff.mp present).1, mem_under_way_at present]
  simp [RelayThread.number, before]

end UnderWay

section Moves

variable {state : Relay} {t : Nat} {thread : RelayThread}

/-- A text that a thread is sending was posted by this thread. -/
theorem Relaying.sender (relaying : Relaying state) (present : state.threads[t]? = some thread)
    {number : Nat} (sending : thread.number = some number) :
    state.board.sender number = some t := by
  cases phase : thread.phase with
  | walking outbound other i =>
    obtain rfl : other = number := by simpa [RelayThread.number, phase] using sending
    obtain ⟨post, posted, own, _⟩ :=
      (relaying.walks t thread outbound other i present phase).posted
    exact Option.map_eq_some_iff.mpr ⟨post, posted, own⟩
  | toReceiveName | toPush | toReceive | gone => simp [RelayThread.number, phase] at sending

/-- A thread ends its walk, and nobody else sends its text. -/
theorem Relaying.under_way_end (relaying : Relaying state)
    (present : state.threads[t]? = some thread) {outbound : Outbound} {number i : Nat}
    (before : thread.phase = .walking outbound number i) :
    (state.moveTo t thread .toReceive).underWay = state.underWay.erase number := by
  have sending : thread.number = some number := by simp [RelayThread.number, before]
  have others : ∀ other member, other ≠ t → state.threads[other]? = some member →
      member.number ≠ some number := by
    intro other member different old same
    have ownSender := relaying.sender present sending
    have otherSender := relaying.sender old same
    exact different (Option.some.inj (otherSender.symm.trans ownSender))
  ext other
  rw [mem_under_way_moved (List.getElem?_eq_some_iff.mp present).1, Finset.mem_erase,
    mem_under_way_at present]
  simp only [RelayThread.number, before, reduceCtorEq, Option.some.injEq, false_or]
  constructor
  · rintro ⟨index, member, different, old, same⟩
    refine ⟨?_, .inr ⟨index, member, different, old, same⟩⟩
    rintro rfl
    exact others index member different old same
  · rintro ⟨different, same | another⟩
    · exact absurd same.symm different
    · exact another

/-- A named thread that goes on keeps its connection. -/
theorem Relay.Owned.set {connection : Nat} {socket : Int} (isOwned : state.Owned connection socket)
    (present : state.threads[t]? = some thread) {moved : RelayThread} (named : moved.Named)
    (same : moved.clientSocketID = thread.clientSocketID) {next : Relay}
    (threads : next.threads = state.threads.set t moved) : next.Owned connection socket := by
  obtain ⟨owner, found, ownerNamed, rfl⟩ := isOwned
  rw [Relay.Owned, threads]
  by_cases here : connection = t
  · subst here
    obtain rfl := Option.some.inj (present.symm.trans found)
    have inside := (List.getElem?_eq_some_iff.mp present).1
    exact ⟨moved, List.getElem?_set_self inside, named, same⟩
  · exact ⟨owner, (List.getElem?_set_ne (Ne.symm here)).trans found, ownerNamed, rfl⟩

/-- What a walk's invariant needs from a step of another kind: nothing is sent, no text is
lost, and an entry from an index on was there before or is new. -/
theorem Walking.keep {next : Relay} {outbound : Outbound} {number i : Nat}
    (walking : Walking state t outbound number i)
    (posts : ∀ post ∈ state.posts[number]?, next.posts[number]? = some post)
    (sent : next.sent = state.sent)
    (ahead : ∀ relayed ∈ state.sent,
      relayed.connection ∈ (next.table.registered.drop i).map Listed.connection →
        relayed.connection ∈ (state.table.registered.drop i).map Listed.connection) :
    Walking next t outbound number i := by
  obtain ⟨post, posted, own⟩ := walking.posted
  refine ⟨⟨post, posts post posted, own⟩, ?_⟩
  intro relayed member same inAhead
  rw [sent] at member
  exact walking.ahead relayed member same (ahead relayed member inAhead)

/-- A thread goes on to a phase in which it does not walk. -/
theorem Relaying.move (relaying : Relaying state) (present : state.threads[t]? = some thread)
    {phase : RelayPhase} (behind : phase ≠ .toReceiveName)
    (idle : ∀ outbound number i, phase ≠ .walking outbound number i) :
    Relaying (state.moveTo t thread phase) := by
  have named : ({ thread with phase := phase } : RelayThread).Named := behind
  refine ⟨relaying.formed, relaying.distinct, ?_, ?_, ?_⟩
  · intro entry member
    exact (relaying.owned entry member).set present named rfl rfl
  · intro other member outbound number i found walks
    rcases MemberUpdate.read_set_cases found with ⟨_, rfl⟩ | ⟨_, old⟩
    · exact absurd walks (idle outbound number i)
    · exact (relaying.walks other member outbound number i old walks).keep
        (fun post posted => posted) rfl (fun _ _ inAhead => inAhead)
  · intro relayed member
    obtain ⟨isOwned, text⟩ := relaying.carried relayed member
    exact ⟨isOwned.set present named rfl rfl, text⟩

/-- A thread of a new connection. -/
theorem Relaying.accept (relaying : Relaying state) (client_socket : Int) :
    Relaying { state with
      threads := state.threads ++ [⟨client_socket, [], .toReceiveName⟩] } := by
  have keeps : ∀ connection socket, state.Owned connection socket →
      Relay.Owned { state with
          threads := state.threads ++ [⟨client_socket, [], .toReceiveName⟩] }
        connection socket := by
    rintro connection socket ⟨owner, found, named, same⟩
    have inside := (List.getElem?_eq_some_iff.mp found).1
    exact ⟨owner, (List.getElem?_append_left inside).trans found, named, same⟩
  refine ⟨relaying.formed, relaying.distinct, ?_, ?_, ?_⟩
  · intro entry member
    exact keeps _ _ (relaying.owned entry member)
  · intro other member outbound number i found walks
    rcases MemberUpdate.read_concat_cases found with ⟨_, rfl⟩ | old
    · cases walks
    · exact (relaying.walks other member outbound number i old walks).keep
        (fun post posted => posted) rfl (fun _ _ inAhead => inAhead)
  · intro relayed member
    obtain ⟨isOwned, text⟩ := relaying.carried relayed member
    exact ⟨keeps _ _ isOwned, text⟩

/-- A registration with a free slot. The new entry's connection has been sent nothing. -/
theorem Relaying.register (relaying : Relaying state)
    (present : state.threads[t]? = some thread) (before : thread.phase = .toReceiveName)
    (free : state.table.currentClientCount < maximumConnectedClients) (origSender : List UInt8) :
    Relaying { state.moveTo t { thread with origSender := origSender } .toPush with
      table := state.table.register
        ⟨t, thread.clientSocketID, strncpy origSender bufferSize⟩ } := by
  obtain ⟨formed, entries⟩ := relaying.formed.register free
    ⟨t, thread.clientSocketID, strncpy origSender bufferSize⟩
  have unnamed : ∀ socket, ¬ state.Owned t socket := by
    rintro socket ⟨owner, found, named, _⟩
    obtain rfl := Option.some.inj (present.symm.trans found)
    exact named before
  have named : (⟨thread.clientSocketID, origSender, .toPush⟩ : RelayThread).Named := by
    simp [RelayThread.Named]
  have inside : t < state.threads.length := (List.getElem?_eq_some_iff.mp present).1
  refine ⟨formed, ?_, ?_, ?_, ?_⟩
  · rw [entries, List.map_append, List.map_singleton]
    refine relaying.distinct.append (List.nodup_singleton _) (List.disjoint_singleton.mpr ?_)
    intro member
    obtain ⟨entry, among, same⟩ := List.mem_map.mp member
    have isOwned := relaying.owned entry among
    rw [same] at isOwned
    exact unnamed entry.socket isOwned
  · intro entry member
    change entry ∈ ClientTable.registered _ at member
    rw [entries] at member
    rcases List.mem_append.mp member with old | new
    · exact (relaying.owned entry old).set present named rfl rfl
    · obtain rfl := List.mem_singleton.mp new
      exact ⟨_, List.getElem?_set_self inside, named, rfl⟩
  · intro other member outbound number i found walks
    rcases MemberUpdate.read_set_cases found with ⟨_, rfl⟩ | ⟨_, old⟩
    · cases walks
    · refine (relaying.walks other member outbound number i old walks).keep
        (fun post posted => posted) rfl ?_
      intro relayed carried inAhead
      change _ ∈ ((ClientTable.registered _).drop i).map _ at inAhead
      rw [entries, List.drop_append, List.map_append, List.mem_append] at inAhead
      rcases inAhead with old | new
      · exact old
      · obtain ⟨entry, among, same⟩ := List.mem_map.mp new
        obtain rfl := List.mem_singleton.mp (List.mem_of_mem_drop among)
        exact absurd (same ▸ (relaying.carried relayed carried).1) (unnamed _)
  · intro relayed member
    obtain ⟨isOwned, text⟩ := relaying.carried relayed member
    exact ⟨isOwned.set present named rfl rfl, text⟩

/-- A removal only moves entries to lower indices. -/
theorem Relaying.remove (relaying : Relaying state) (clientSocketID : Int) :
    Relaying { state with
      table := ClientTable.removeClient Listed.socket clientSocketID state.table } := by
  obtain ⟨formed, scanned⟩ : (ClientTable.removeClient Listed.socket clientSocketID
      state.table).WellFormed ∧ ClientTable.registered _ = _ :=
    relaying.formed.remove_client clientSocketID
  have fewer : (ClientTable.removeClient Listed.socket clientSocketID
      state.table).registered.Sublist state.table.registered :=
    scanned ▸ ClientTable.scan_sublist clientSocketID state.table.registered
  refine ⟨formed, ?_, ?_, ?_, relaying.carried⟩
  · exact (fewer.map Listed.connection).nodup relaying.distinct
  · intro entry member
    exact relaying.owned entry (fewer.subset member)
  · intro other member outbound number i found walks
    refine (relaying.walks other member outbound number i found walks).keep
      (fun post posted => posted) rfl ?_
    intro relayed _ inAhead
    exact ((fewer.drop i).map Listed.connection).subset inAhead

/-- Nothing with a new number has been sent. -/
theorem Relaying.unsent (relaying : Relaying state) {relayed : Relayed}
    (member : relayed ∈ state.sent) : relayed.number ≠ state.posts.length := by
  obtain ⟨_, post, posted, _⟩ := relaying.carried relayed member
  exact Nat.ne_of_lt (List.getElem?_eq_some_iff.mp posted).1

/-- A thread begins a walk with a new text. -/
theorem Relaying.begin (relaying : Relaying state) (present : state.threads[t]? = some thread)
    (outbound : Outbound) : Relaying (state.begin t thread outbound) := by
  have named : ({ thread with
      phase := .walking outbound state.posts.length 0 } : RelayThread).Named := by
    simp [RelayThread.Named]
  have kept : ∀ {number : Nat}, ∀ post ∈ state.posts[number]?,
      (state.begin t thread outbound).posts[number]? = some post := by
    intro number post posted
    have issued := (List.getElem?_eq_some_iff.mp posted).1
    exact (List.getElem?_append_left issued).trans posted
  refine ⟨relaying.formed, relaying.distinct, ?_, ?_, ?_⟩
  · intro entry member
    exact (relaying.owned entry member).set present named rfl rfl
  · intro other member otherOutbound number i found walks
    rcases MemberUpdate.read_set_cases found with ⟨rfl, rfl⟩ | ⟨_, old⟩
    · obtain ⟨rfl, rfl, rfl⟩ := RelayPhase.walking.inj walks
      refine ⟨⟨_, List.getElem?_concat_length .., rfl, rfl⟩, ?_⟩
      intro relayed member same
      exact absurd same (relaying.unsent member)
    · exact (relaying.walks other member otherOutbound number i old walks).keep kept rfl
        (fun _ _ inAhead => inAhead)
  · intro relayed member
    obtain ⟨isOwned, post, posted, text⟩ := relaying.carried relayed member
    exact ⟨isOwned.set present named rfl rfl, post, kept post posted, text⟩

/-- The entry that an iteration reads is the registered one at its index. -/
theorem Relaying.entry (relaying : Relaying state) {i : Nat}
    (inside : i < state.table.currentClientCount) :
    ∃ entry, state.table.clients[i]? = some entry ∧
      state.table.registered.drop i = entry :: state.table.registered.drop (i + 1) := by
  have length := relaying.formed.registered_length
  have present : i < state.table.registered.length := by omega
  refine ⟨state.table.registered[i], ?_, List.drop_eq_getElem_cons present⟩
  rw [← List.getElem?_eq_getElem present, ClientTable.registered,
    List.getElem?_take_of_lt (by omega)]

/-- What an iteration sends. -/
theorem iteration_sent {entry : Listed} {outbound : Outbound} {number i : Nat}
    (read : state.table.clients[i]? = some entry) :
    (state.iteration t thread outbound number i).sent = state.sent ++
      if outbound.GoesTo thread.clientSocketID entry.socket then
        [⟨number, entry.connection, ⟨entry.socket, outbound.message⟩⟩]
      else [] := by
  simp only [Relay.iteration, read]

/-- An iteration. The entry at the index is behind it afterwards. -/
theorem Relaying.iteration (relaying : Relaying state)
    (present : state.threads[t]? = some thread) {outbound : Outbound} {number i : Nat}
    (before : thread.phase = .walking outbound number i)
    (inside : i < state.table.currentClientCount) :
    Relaying (state.iteration t thread outbound number i) := by
  obtain ⟨entry, read, here⟩ := relaying.entry inside
  have walking := relaying.walks t thread outbound number i present before
  have own : ∀ relayed ∈ (state.iteration t thread outbound number i).sent,
      relayed ∈ state.sent ∨
        relayed = ⟨number, entry.connection, ⟨entry.socket, outbound.message⟩⟩ := by
    intro relayed member
    rw [iteration_sent read] at member
    rcases List.mem_append.mp member with old | new
    · exact .inl old
    · split at new
      case isTrue => exact .inr (List.mem_singleton.mp new)
      case isFalse => cases new
  have named : ({ thread with phase := .walking outbound number (i + 1) } : RelayThread).Named := by
    simp [RelayThread.Named]
  have alone : entry.connection ∉
      (state.table.registered.drop (i + 1)).map Listed.connection := by
    have distinct := relaying.distinct.sublist
      ((List.drop_sublist i state.table.registered).map Listed.connection)
    rw [here, List.map_cons, List.nodup_cons] at distinct
    exact distinct.1
  refine ⟨relaying.formed, relaying.distinct, ?_, ?_, ?_⟩
  · intro entry member
    exact (relaying.owned entry member).set present named rfl rfl
  · intro other member otherOutbound otherNumber index found walks
    rcases MemberUpdate.read_set_cases found with ⟨rfl, rfl⟩ | ⟨different, old⟩
    · obtain ⟨rfl, rfl, rfl⟩ := RelayPhase.walking.inj walks
      refine ⟨walking.posted, ?_⟩
      intro relayed among same
      rcases own relayed among with old | rfl
      · intro inAhead
        apply walking.ahead relayed old same
        rw [here]
        exact List.mem_cons_of_mem _ inAhead
      · exact alone
    · have theirs := relaying.walks other member otherOutbound otherNumber index old walks
      refine ⟨theirs.posted, ?_⟩
      intro relayed among same
      rcases own relayed among with earlier | rfl
      · exact theirs.ahead relayed earlier same
      · -- the text of this walk is not that of another thread
        obtain ⟨post, posted, sender, _⟩ := walking.posted
        obtain ⟨otherPost, otherPosted, otherSender, _⟩ := theirs.posted
        obtain rfl : number = otherNumber := same
        obtain rfl := Option.some.inj (posted.symm.trans otherPosted)
        exact absurd (otherSender.symm.trans sender) different
  · intro relayed among
    rcases own relayed among with old | rfl
    · obtain ⟨isOwned, text⟩ := relaying.carried relayed old
      exact ⟨isOwned.set present named rfl rfl, text⟩
    · obtain ⟨post, posted, _, text⟩ := walking.posted
      have member : entry ∈ state.table.registered := by
        apply List.mem_of_mem_drop (i := i)
        rw [here]
        exact List.mem_cons_self
      exact ⟨(relaying.owned entry member).set present named rfl rfl, post, posted,
        congrArg Outbound.message text.symm⟩

end Moves

/-- A step with a free slot keeps the invariant. -/
theorem Relaying.step {state next : Relay} {event : RelayEvent} (relaying : Relaying state)
    (free : FindsFreeSlot state event) (stepped : relayStep state event = some next) :
    Relaying next := by
  cases relay_move stepped with
  | accepts client_socket => exact relaying.accept client_socket
  | refuses => exact relaying
  | leaves t thread present before => exact relaying.move present (by simp) (by simp)
  | registers t thread origSender present before =>
    exact relaying.register present before free origSender
  | pushes t thread present before => exact relaying.begin present _
  | posts t thread inputData present before => exact relaying.begin present _
  | visits t thread outbound number i present before inside =>
    exact relaying.iteration present before inside
  | ends t thread outbound number i present before behind =>
    exact relaying.move present (by simp) (by simp)
  | removes t thread present before =>
    exact (relaying.move present (by simp) (by simp)).remove thread.clientSocketID

/-- The server starts in order. -/
theorem start_relaying : Relaying startRelay where
  formed := ⟨rfl, Int.le_refl 0, by decide⟩
  distinct := List.nodup_nil
  owned := by
    intro entry member
    cases member
  walks := by
    intro t thread outbound number i present
    cases present
  carried := by
    intro relayed member
    cases member

/-- A step that posts, sends and ends nothing is no step of the multicast. -/
theorem board_kept {state next : Relay} (posts : next.posts = state.posts)
    (underWay : next.underWay = state.underWay) (sent : next.sent = state.sent) :
    TransitionSystem.run (Multicast.step Admits) state.board [] = some next.board := by
  simp only [TransitionSystem.run_nil, Relay.board, posts, underWay, sent]

/-- A thread that sends nothing may post a text. -/
theorem Relaying.board_begin {state : Relay} {t : Nat} {thread : RelayThread}
    (relaying : Relaying state) (present : state.threads[t]? = some thread)
    (before : thread.number = none) (outbound : Outbound) :
    Multicast.step Admits state.board (.post t outbound) =
      some (state.begin t thread outbound).board := by
  have alone : ∀ number ∈ state.board.underWay, state.board.sender number ≠ some t := by
    intro number member same
    obtain ⟨other, sending, found, isSending⟩ := mem_under_way.mp member
    have sender := relaying.sender found isSending
    obtain rfl : other = t := Option.some.inj (sender.symm.trans same)
    obtain rfl := Option.some.inj (present.symm.trans found)
    exact absurd (before.symm.trans isSending) (by simp)
  have underWay : (state.begin t thread outbound).underWay =
      insert state.posts.length state.underWay := under_way_begin present before outbound _ 0
  rw [Multicast.step, if_pos alone]
  simp only [Relay.board, Board.withPost, underWay]
  rfl

/-- An iteration is a delivery, if it sends. -/
theorem Relaying.board_iteration {state : Relay} {t : Nat} {thread : RelayThread}
    (relaying : Relaying state) (present : state.threads[t]? = some thread) {outbound : Outbound}
    {number i : Nat} (before : thread.phase = .walking outbound number i)
    (inside : i < state.table.currentClientCount) :
    ∃ actions, TransitionSystem.run (Multicast.step Admits) state.board actions =
      some (state.iteration t thread outbound number i).board := by
  obtain ⟨entry, read, here⟩ := relaying.entry inside
  have walking := relaying.walks t thread outbound number i present before
  have underWay : (state.iteration t thread outbound number i).underWay = state.underWay :=
    under_way_next present before
  have sent : (state.iteration t thread outbound number i).sent = _ := iteration_sent read
  by_cases goes : outbound.GoesTo thread.clientSocketID entry.socket
  · have member : entry ∈ state.table.registered := by
      apply List.mem_of_mem_drop (i := i)
      rw [here]
      exact List.mem_cons_self
    have isUnderWay : number ∈ state.board.underWay :=
      mem_under_way.mpr ⟨t, thread, present, by simp [RelayThread.number, before]⟩
    have admitted : state.board.Admitted Admits number entry.connection := by
      obtain ⟨post, posted, rfl, rfl⟩ := walking.posted
      refine ⟨post, posted, ?_⟩
      obtain ⟨owner, found, _, socket⟩ := relaying.owned entry member
      cases text : post.text with
      | pushNotification => trivial
      | publicMessage =>
        rintro own
        rw [text] at goes
        rw [own] at found
        obtain rfl := Option.some.inj (present.symm.trans found)
        exact goes socket.symm
    have fresh : (number, entry.connection) ∉ state.board.deliveries := by
      intro delivered
      obtain ⟨relayed, among, same⟩ := List.mem_map.mp delivered
      obtain ⟨sameNumber, sameConnection⟩ := Prod.mk.inj same
      apply walking.ahead relayed among sameNumber
      rw [here, sameConnection]
      exact List.mem_cons_self
    refine ⟨[.deliver number entry.connection], ?_⟩
    rw [TransitionSystem.run_singleton, Multicast.step, if_pos ⟨isUnderWay, admitted, fresh⟩]
    simp only [Relay.board, underWay, sent, if_pos goes, List.map_append]
    rfl
  · refine ⟨[], board_kept rfl underWay ?_⟩
    rw [sent, if_neg goes, List.append_nil]

/-- Every step with a free slot is some steps of the multicast, or none. -/
theorem relay_simulated :
    TransitionSystem.Simulates relayStep FindsFreeSlot (Multicast.step Admits) (fun _ _ => True)
      fun state board => board = state.board ∧ Relaying state := by
  rintro state _ event next ⟨rfl, relaying⟩ free stepped
  have after := relaying.step free stepped
  -- what is left is the schedule of the multicast and its last board
  suffices matched : ∃ actions, TransitionSystem.run (Multicast.step Admits) state.board actions =
      some next.board by
    obtain ⟨actions, ran⟩ := matched
    exact ⟨actions, next.board, ran, TransitionSystem.meets_trivial _ _, rfl, after⟩
  cases relay_move stepped with
  | accepts client_socket =>
    refine ⟨[], board_kept rfl ?_ rfl⟩
    have nothing : [(⟨client_socket, [], .toReceiveName⟩ : RelayThread)].filterMap
        RelayThread.number = [] := rfl
    simp only [Relay.underWay, List.filterMap_append, nothing, List.append_nil]
  | refuses => exact ⟨[], rfl⟩
  | leaves t thread present before =>
    exact ⟨[], board_kept rfl (under_way_idle present (by simp [RelayThread.number, before]) rfl)
      rfl⟩
  | registers t thread origSender present before =>
    exact ⟨[], board_kept rfl (under_way_idle present (by simp [RelayThread.number, before]) rfl)
      rfl⟩
  | pushes t thread present before =>
    have idle : thread.number = none := by simp [RelayThread.number, before]
    exact ⟨[.post t _], (TransitionSystem.run_singleton _ _).trans
      (relaying.board_begin present idle _)⟩
  | posts t thread inputData present before =>
    have idle : thread.number = none := by simp [RelayThread.number, before]
    exact ⟨[.post t _], (TransitionSystem.run_singleton _ _).trans
      (relaying.board_begin present idle _)⟩
  | visits t thread outbound number i present before inside =>
    exact relaying.board_iteration present before inside
  | ends t thread outbound number i present before behind =>
    refine ⟨[.close number], ?_⟩
    have underWay : (state.moveTo t thread .toReceive).underWay = _ :=
      relaying.under_way_end present before
    rw [TransitionSystem.run_singleton, Multicast.step]
    simp only [Relay.board, underWay]
    rfl
  | removes t thread present before =>
    exact ⟨[], board_kept rfl (under_way_idle present (by simp [RelayThread.number, before]) rfl)
      rfl⟩

section Runs

variable {events : List RelayEvent} {state : Relay}

/-- In a run with free slots the server is a sound multicast. -/
theorem relay_run (ran : TransitionSystem.run relayStep startRelay events = some state)
    (free : TransitionSystem.Meets relayStep FindsFreeSlot startRelay events) :
    Relaying state ∧ Multicast.Sound Admits state.board := by
  obtain ⟨actions, board, simulated, _, rfl, relaying⟩ :=
    relay_simulated.run ⟨rfl, start_relaying⟩ free ran
  exact ⟨relaying, Multicast.run_sound simulated⟩

/-- If a text goes out behind a later one, to whomever, a thread was still sending it when
the walk of the later one began. Registrations find free slots in the run; removals, numbers
that are used again and the table under the walks are not restricted. Numbers are given in the
order in which the walks began. -/
theorem crossed_only_by_overlap
    (ran : TransitionSystem.run relayStep startRelay events = some state)
    (free : TransitionSystem.Meets relayStep FindsFreeSlot startRelay events)
    {first second : Relayed} (crossed : [second, first].Sublist state.sent)
    (earlier : first.number < second.number) :
    ∃ post ∈ state.posts[second.number]?, first.number ∈ post.during := by
  obtain ⟨_, sound⟩ := relay_run ran free
  have deliveries : [(second.number, second.connection), (first.number, first.connection)].Sublist
      state.board.deliveries :=
    crossed.map fun relayed : Relayed => (relayed.number, relayed.connection)
  exact sound.crossed_overlap deliveries earlier

end Runs

/-- Two clients join, and the notice of the second one overtakes that of the first one. -/
def crossingNotices : List RelayEvent :=
  [.accept 4, .accept 5, .register 0 ['a'.toUInt8, 0], .register 1 ['b'.toUInt8, 0], .push 0,
    .push 1, .visit 1, .visit 0]

/-- Both reach the first client, in the other order, and the walks overlapped. -/
theorem crossing_notices_overlap :
    ∃ state first second, TransitionSystem.run relayStep startRelay crossingNotices = some state ∧
      [second, first].Sublist state.sent ∧ first.number < second.number ∧
      ∃ post ∈ state.posts[second.number]?, first.number ∈ post.during := by
  have ran : TransitionSystem.run relayStep startRelay crossingNotices = some _ := rfl
  refine ⟨_, ⟨0, 0, 4, outboundPushNotification ['a'.toUInt8, 0]⟩,
    ⟨1, 0, 4, outboundPushNotification ['b'.toUInt8, 0]⟩, ran, List.Sublist.refl _, by decide, ?_⟩
  exact crossed_only_by_overlap ran (by decide) (List.Sublist.refl _) (by decide)

end HelperChat
