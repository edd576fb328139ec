import HelperChat.MemberUpdate
import HelperChat.ServerTexts
import HelperChat.Transition
import Mathlib.Data.List.Nodup

/-!
# Clients joining

The three steps in which a client thread of `2_server.c` joins: it registers its client,
sends it the list of the clients in the table, and pushes the notice to everyone in the
table. Steps of other threads, and whole removals of clients that have joined, come in
between.

Whoever of two clients registers later finds the other one in the table when it lists and
pushes, as long as both stay. So each is told the other's name, by the list or by the
notice.
-/

namespace HelperChat

open CString (strncpy text)

/-- Where a client thread stands: before one of its three steps, in the message loop, or
behind its disconnect. -/
inductive JoinPhase where
  | toRegister
  | toList
  | toPush
  | joined
  | gone
deriving DecidableEq

/-- A client thread with its socket and its buffer for the name. -/
structure JoiningThread where
  clientSocketID : Int
  origSender : List UInt8
  phase : JoinPhase
deriving DecidableEq

/-- The client that the thread registers. -/
def JoiningThread.newBoi (thread : JoiningThread) : OrganizedClientData :=
  ⟨thread.clientSocketID, strncpy thread.origSender bufferSize⟩

/-- The table, the threads, and all that was sent. -/
structure Joining where
  table : ClientTable OrganizedClientData
  threads : List JoiningThread
  sent : List Sending
deriving DecidableEq

/-- The next step of a thread: the table, what is sent, and the phase after it. -/
def clientThreadStep (table : ClientTable OrganizedClientData) (thread : JoiningThread) :
    Option (ClientTable OrganizedClientData × List Sending × JoinPhase) :=
  match thread.phase with
  | .toRegister => some (table.register thread.newBoi, [], .toList)
  | .toList => some (table, outputConnectedClients thread.clientSocketID table, .toPush)
  | .toPush => some (table, newClientJoinedPush thread.origSender table, .joined)
  | .joined =>
      some (ClientTable.removeClient OrganizedClientData.socket thread.clientSocketID table, [],
        .gone)
  | .gone => none

/-- The thread at a position takes its next step. -/
def joinStep (state : Joining) (index : Nat) : Option Joining := do
  let thread ← state.threads[index]?
  let (table, sent, phase) ← clientThreadStep state.table thread
  pure ⟨table, state.threads.set index { thread with phase := phase }, state.sent ++ sent⟩

/-- Clients that are about to join a new server, each with its socket and its name. -/
def startJoining (clients : List (Int × List UInt8)) : Joining :=
  ⟨emptyTable, clients.map fun (clientSocketID, origSender) =>
    ⟨clientSocketID, origSender, .toRegister⟩, []⟩

/-- The table has a free slot for a registration, and the texts fit in their buffers. -/
def RoomAndTextsFit (state : Joining) (index : Nat) : Prop :=
  match state.threads[index]? with
  | some ⟨_, origSender, .toRegister⟩ =>
      state.table.currentClientCount < maximumConnectedClients ∧
        (text origSender).length < bufferSize
  | some ⟨_, _, .toList⟩ =>
      (welcomeList ((state.table.registered.map OrganizedClientData.name).map text)).length <
        bufferSize
  | some ⟨_, origSender, .toPush⟩ => (joinNotice (text origSender)).length < bufferSize
  | _ => True

instance (state : Joining) (index : Nat) : Decidable (RoomAndTextsFit state index) := by
  unfold RoomAndTextsFit
  split
  all_goals infer_instance

/-- One client has been told the name of another, by its welcome list or by a notice. -/
def Told (sent : List Sending) (told named : JoiningThread) : Prop :=
  (∃ names, ⟨told.clientSocketID, welcomeList names⟩ ∈ sent ∧ text named.origSender ∈ names) ∨
    ⟨told.clientSocketID, joinNotice (text named.origSender)⟩ ∈ sent

/-- The thread's client has registered and not disconnected. -/
def JoiningThread.Present (thread : JoiningThread) : Prop :=
  thread.phase = .toList ∨ thread.phase = .toPush ∨ thread.phase = .joined

/-- The thread's client has been sent its list and not disconnected. -/
def JoiningThread.Welcomed (thread : JoiningThread) : Prop :=
  thread.phase = .toPush ∨ thread.phase = .joined

/-- The invariant: the present clients are in the table, everyone in the table has a thread
that has registered it, and every client that has joined is known to all welcomed ones. -/
structure Announced (state : Joining) : Prop where
  formed : state.table.WellFormed
  sockets : (state.threads.map JoiningThread.clientSocketID).Nodup
  distinct : (state.table.registered.map OrganizedClientData.socket).Nodup
  fits : ∀ thread ∈ state.threads, thread.Present → (text thread.origSender).length < bufferSize
  listed : ∀ thread ∈ state.threads, thread.Present → thread.newBoi ∈ state.table.registered
  owned : ∀ client ∈ state.table.registered, ∃ thread ∈ state.threads,
    thread.clientSocketID = client.socket ∧ thread.phase ≠ .toRegister
  told : ∀ named ∈ state.threads, ∀ told ∈ state.threads,
    named.phase = .joined → told.Welcomed → Told state.sent told named

variable {state next : Joining} {index : Nat}

/-- What was told stays told. -/
theorem Told.append {sent : List Sending} {told named : JoiningThread}
    (known : Told sent told named) (more : List Sending) : Told (sent ++ more) told named := by
  rcases known with ⟨names, among, mentioned⟩ | among
  · exact .inl ⟨names, List.mem_append_left more among, mentioned⟩
  · exact .inr (List.mem_append_left more among)

/-- The steps of a client thread while it joins, and its disconnect. -/
inductive JoinMove (state : Joining) (index : Nat) (thread : JoiningThread) : Joining → Prop
  | registers (before : thread.phase = .toRegister) :
      JoinMove state index thread ⟨state.table.register thread.newBoi,
        state.threads.set index { thread with phase := .toList }, state.sent⟩
  | lists (before : thread.phase = .toList) :
      JoinMove state index thread ⟨state.table,
        state.threads.set index { thread with phase := .toPush },
        state.sent ++ outputConnectedClients thread.clientSocketID state.table⟩
  | pushes (before : thread.phase = .toPush) :
      JoinMove state index thread ⟨state.table,
        state.threads.set index { thread with phase := .joined },
        state.sent ++ newClientJoinedPush thread.origSender state.table⟩
  | disconnects (before : thread.phase = .joined) :
      JoinMove state index thread
        ⟨ClientTable.removeClient OrganizedClientData.socket thread.clientSocketID state.table,
          state.threads.set index { thread with phase := .gone }, state.sent⟩

/-- Every computed step is one of these. -/
theorem join_step_move (stepped : joinStep state index = some next) :
    ∃ thread, state.threads[index]? = some thread ∧ JoinMove state index thread next := by
  obtain ⟨thread, present, rest⟩ := Option.bind_eq_some_iff.mp stepped
  obtain ⟨⟨table, sent, phase⟩, advanced, built⟩ := Option.bind_eq_some_iff.mp rest
  refine ⟨thread, present, ?_⟩
  cases before : thread.phase with
  | toRegister =>
    simp only [clientThreadStep, before, Option.some.injEq, Prod.mk.injEq] at advanced
    obtain ⟨rfl, rfl, rfl⟩ := advanced
    simp only [List.append_nil] at built
    exact Option.some.inj built ▸ .registers before
  | toList =>
    simp only [clientThreadStep, before, Option.some.injEq, Prod.mk.injEq] at advanced
    obtain ⟨rfl, rfl, rfl⟩ := advanced
    exact Option.some.inj built ▸ .lists before
  | toPush =>
    simp only [clientThreadStep, before, Option.some.injEq, Prod.mk.injEq] at advanced
    obtain ⟨rfl, rfl, rfl⟩ := advanced
    exact Option.some.inj built ▸ .pushes before
  | joined =>
    simp only [clientThreadStep, before, Option.some.injEq, Prod.mk.injEq] at advanced
    obtain ⟨rfl, rfl, rfl⟩ := advanced
    simp only [List.append_nil] at built
    exact Option.some.inj built ▸ .disconnects before
  | gone => simp [clientThreadStep, before] at advanced

section Step

variable {thread moved : JoiningThread} (announced : Announced state)
  (present : state.threads[index]? = some thread)

include announced present

/-- A thread with the same socket is at the same position. -/
theorem Announced.same_position {other : JoiningThread} {position : Nat}
    (found : state.threads[position]? = some other)
    (same : other.clientSocketID = thread.clientSocketID) : position = index := by
  have inside : position < (state.threads.map JoiningThread.clientSocketID).length := by
    simpa using (List.getElem?_eq_some_iff.mp found).1
  apply (List.getElem?_inj inside announced.sockets).mp
  simp [found, present, same]

/-- Two threads with one socket are the same. -/
theorem Announced.same_thread {other : JoiningThread} (member : other ∈ state.threads)
    (same : other.clientSocketID = thread.clientSocketID) : other = thread := by
  obtain ⟨position, found⟩ := List.mem_iff_getElem?.mp member
  obtain rfl := announced.same_position present found same
  exact Option.some.inj (found.symm.trans present)

/-- After a step of a thread the others have other sockets and were there before. -/
theorem Announced.moved_or_other {other : JoiningThread}
    (member : other ∈ state.threads.set index moved) :
    other = moved ∨ (other ∈ state.threads ∧ other.clientSocketID ≠ thread.clientSocketID) := by
  obtain ⟨position, found⟩ := List.mem_iff_getElem?.mp member
  cases MemberUpdate.read_set_cases found with
  | inl here => exact .inl here.2
  | inr elsewhere =>
    refine .inr ⟨List.mem_of_getElem? elsewhere.2, ?_⟩
    intro same
    exact elsewhere.1 (announced.same_position present elsewhere.2 same)

/-- What holds of the other present threads, and of the moved one if it is present, holds of
all present threads after a step. -/
theorem Announced.present_set {Holds : JoiningThread → Prop} (ofMoved : moved.Present → Holds moved)
    (ofOthers : ∀ other ∈ state.threads, other.clientSocketID ≠ thread.clientSocketID →
      other.Present → Holds other) :
    ∀ other ∈ state.threads.set index moved, other.Present → Holds other := by
  intro other inNext isPresent
  cases announced.moved_or_other present inNext with
  | inl same =>
    subst same
    exact ofMoved isPresent
  | inr old => exact ofOthers other old.1 old.2 isPresent

/-- A thread that has not been welcomed behind its step needs to be told nothing. -/
theorem Announced.told_set (outside : ¬ moved.Welcomed) :
    ∀ named ∈ state.threads.set index moved, ∀ told ∈ state.threads.set index moved,
      named.phase = .joined → told.Welcomed → Told state.sent told named := by
  intro named isNamed told isTold joined welcomed
  rcases announced.moved_or_other present isNamed with rfl | ⟨oldNamed, _⟩
  · exact absurd (.inr joined) outside
  · rcases announced.moved_or_other present isTold with rfl | ⟨oldTold, _⟩
    · exact absurd welcomed outside
    · exact announced.told named oldNamed told oldTold joined welcomed

/-- A step keeps the sockets of the threads. -/
theorem Announced.sockets_set (phase : JoinPhase) :
    ((state.threads.set index { thread with phase := phase }).map
      JoiningThread.clientSocketID).Nodup := by
  have kept : (state.threads.set index { thread with phase := phase }).map
      JoiningThread.clientSocketID = state.threads.map JoiningThread.clientSocketID :=
    MemberUpdate.map_set_same _ _ index thread _ present rfl
  exact kept ▸ announced.sockets

/-- After a step of a thread that has registered every client in the table still has a
thread that has registered it. -/
theorem Announced.owned_set {phase : JoinPhase} (behind : phase ≠ .toRegister)
    {client : OrganizedClientData} (member : client ∈ state.table.registered) :
    ∃ other ∈ state.threads.set index { thread with phase := phase },
      other.clientSocketID = client.socket ∧ other.phase ≠ .toRegister := by
  have inside : index < state.threads.length := (List.getElem?_eq_some_iff.mp present).1
  obtain ⟨owner, among, socket, registered⟩ := announced.owned client member
  obtain ⟨position, found⟩ := List.mem_iff_getElem?.mp among
  by_cases here : position = index
  · subst here
    obtain rfl := Option.some.inj (found.symm.trans present)
    exact ⟨_, List.mem_set inside _, socket, behind⟩
  · refine ⟨owner, ?_, socket, registered⟩
    exact List.mem_of_getElem? ((List.getElem?_set_ne (Ne.symm here)).trans found)

/-- A registration with a free slot. -/
theorem Announced.register (before : thread.phase = .toRegister)
    (free : state.table.currentClientCount < maximumConnectedClients)
    (fit : (text thread.origSender).length < bufferSize) :
    Announced ⟨state.table.register thread.newBoi,
      state.threads.set index { thread with phase := .toList }, state.sent⟩ := by
  obtain ⟨formed, entries⟩ := announced.formed.register free thread.newBoi
  have member : thread ∈ state.threads := List.mem_of_getElem? present
  have fresh : ∀ client ∈ state.table.registered, client.socket ≠ thread.clientSocketID := by
    intro client among same
    obtain ⟨owner, inThreads, socket, behind⟩ := announced.owned client among
    obtain rfl := announced.same_thread present inThreads (socket.trans same)
    exact behind before
  refine ⟨formed, announced.sockets_set present _, ?_, ?_, ?_, ?_, ?_⟩
  · rw [entries, List.map_append, List.nodup_append]
    refine ⟨announced.distinct, List.nodup_singleton _, ?_⟩
    rintro socket old other new rfl
    obtain ⟨client, among, rfl⟩ := List.mem_map.mp old
    exact fresh client among (List.mem_singleton.mp new)
  · refine announced.present_set present (fun _ => fit) ?_
    intro other old _ isPresent
    exact announced.fits other old isPresent
  · rw [entries]
    refine announced.present_set present ?_ ?_
    · intro _
      exact List.mem_append_right _ (List.mem_singleton.mpr rfl)
    · intro other old _ isPresent
      exact List.mem_append_left _ (announced.listed other old isPresent)
  · intro client among
    rw [entries, List.mem_append, List.mem_singleton] at among
    rcases among with old | rfl
    · exact announced.owned_set present (by decide) old
    · have inside : index < state.threads.length := (List.getElem?_eq_some_iff.mp present).1
      exact ⟨_, List.mem_set inside _, rfl, by simp⟩
  · exact announced.told_set present (by simp [JoiningThread.Welcomed])

/-- A welcome list tells the new client all names in the table. -/
theorem Announced.list (before : thread.phase = .toList)
    (fit : (welcomeList ((state.table.registered.map OrganizedClientData.name).map text)).length <
      bufferSize) :
    Announced ⟨state.table, state.threads.set index { thread with phase := .toPush },
      state.sent ++ outputConnectedClients thread.clientSocketID state.table⟩ := by
  have member : thread ∈ state.threads := List.mem_of_getElem? present
  refine ⟨announced.formed, announced.sockets_set present _, announced.distinct, ?_, ?_, ?_, ?_⟩
  · refine announced.present_set present (fun _ => announced.fits thread member (.inl before)) ?_
    intro other old _ isPresent
    exact announced.fits other old isPresent
  · refine announced.present_set present (fun _ => announced.listed thread member (.inl before)) ?_
    intro other old _ isPresent
    exact announced.listed other old isPresent
  · intro client among
    exact announced.owned_set present (by decide) among
  · intro named isNamed told isTold joined welcomed
    rcases announced.moved_or_other present isNamed with rfl | ⟨oldNamed, _⟩
    · cases joined
    · rcases announced.moved_or_other present isTold with rfl | ⟨oldTold, _⟩
      · left
        refine ⟨(state.table.registered.map OrganizedClientData.name).map text, ?_, ?_⟩
        · rw [outputConnectedClients, communication_of_fit fit]
          exact List.mem_append_right _ (List.mem_singleton.mpr rfl)
        · have inTable := announced.listed named oldNamed (.inr (.inr joined))
          have short := announced.fits named oldNamed (.inr (.inr joined))
          have stored : text named.newBoi.name = text named.origSender :=
            CString.text_strncpy (Nat.le_of_lt short)
          rw [← stored]
          exact List.mem_map_of_mem (List.mem_map_of_mem inTable)
      · exact (announced.told named oldNamed told oldTold joined welcomed).append _

/-- A notice tells everyone in the table the new client's name. -/
theorem Announced.push (before : thread.phase = .toPush)
    (fit : (joinNotice (text thread.origSender)).length < bufferSize) :
    Announced ⟨state.table, state.threads.set index { thread with phase := .joined },
      state.sent ++ newClientJoinedPush thread.origSender state.table⟩ := by
  have member : thread ∈ state.threads := List.mem_of_getElem? present
  have isPresent : thread.Present := .inr (.inl before)
  have notified : ∀ told ∈ state.threads, told.Present →
      ⟨told.clientSocketID, joinNotice (text thread.origSender)⟩ ∈
        newClientJoinedPush thread.origSender state.table := by
    intro told among isPresent
    rw [newClientJoinedPush, notification_of_fit fit]
    exact List.mem_map.mpr ⟨told.newBoi, announced.listed told among isPresent, rfl⟩
  refine ⟨announced.formed, announced.sockets_set present _, announced.distinct, ?_, ?_, ?_, ?_⟩
  · refine announced.present_set present (fun _ => announced.fits thread member isPresent) ?_
    intro other old _ isPresent
    exact announced.fits other old isPresent
  · refine announced.present_set present (fun _ => announced.listed thread member isPresent) ?_
    intro other old _ isPresent
    exact announced.listed other old isPresent
  · intro client among
    exact announced.owned_set present (by decide) among
  · intro named isNamed told isTold joined welcomed
    rcases announced.moved_or_other present isNamed with rfl | ⟨oldNamed, _⟩
    · right
      apply List.mem_append_right
      rcases announced.moved_or_other present isTold with rfl | ⟨oldTold, _⟩
      · exact notified thread member isPresent
      · exact notified told oldTold (.inr welcomed)
    · rcases announced.moved_or_other present isTold with rfl | ⟨oldTold, _⟩
      · exact Told.append (announced.told named oldNamed thread member joined (.inl before)) _
      · exact (announced.told named oldNamed told oldTold joined welcomed).append _

/-- A disconnect takes its own entry out of the table. -/
theorem Announced.disconnect :
    Announced ⟨ClientTable.removeClient OrganizedClientData.socket thread.clientSocketID
      state.table, state.threads.set index { thread with phase := .gone }, state.sent⟩ := by
  obtain ⟨formed, entries⟩ :=
    announced.formed.remove_distinct announced.distinct thread.clientSocketID
  have left : ¬ ({ thread with phase := .gone } : JoiningThread).Present := by
    simp [JoiningThread.Present]
  refine ⟨formed, announced.sockets_set present _, ?_, ?_, ?_, ?_, ?_⟩
  · rw [entries]
    exact (List.filter_sublist.map OrganizedClientData.socket).nodup announced.distinct
  · refine announced.present_set present (fun isPresent => absurd isPresent left) ?_
    intro other old _ isPresent
    exact announced.fits other old isPresent
  · rw [entries]
    refine announced.present_set present (fun isPresent => absurd isPresent left) ?_
    intro other old different isPresent
    exact List.mem_filter.mpr ⟨announced.listed other old isPresent, decide_eq_true different⟩
  · intro client among
    rw [entries] at among
    exact announced.owned_set present (by decide) (List.mem_filter.mp among).1
  · exact announced.told_set present (by simp [JoiningThread.Welcomed])

end Step

/-- Every step with room for the client and for the texts keeps the clients announced. -/
theorem Announced.step (announced : Announced state) (fits : RoomAndTextsFit state index)
    (stepped : joinStep state index = some next) : Announced next := by
  obtain ⟨⟨clientSocketID, origSender, phase⟩, present, move⟩ := join_step_move stepped
  rw [RoomAndTextsFit, present] at fits
  cases move with
  | registers before =>
    obtain rfl : phase = .toRegister := before
    exact announced.register present rfl fits.1 fits.2
  | lists before =>
    obtain rfl : phase = .toList := before
    exact announced.list present rfl fits
  | pushes before =>
    obtain rfl : phase = .toPush := before
    exact announced.push present rfl fits
  | disconnects before => exact announced.disconnect present

/-- Before anyone registers nothing has to be known. -/
theorem start_announced {clients : List (Int × List UInt8)}
    (distinct : (clients.map Prod.fst).Nodup) : Announced (startJoining clients) := by
  have waiting : ∀ thread ∈ (startJoining clients).threads, thread.phase = .toRegister := by
    intro thread member
    obtain ⟨client, _, rfl⟩ := List.mem_map.mp member
    rfl
  have nobody : ∀ thread ∈ (startJoining clients).threads, ¬ thread.Present := by
    rintro thread member (listing | pushing | joined)
    · cases (waiting thread member).symm.trans listing
    · cases (waiting thread member).symm.trans pushing
    · cases (waiting thread member).symm.trans joined
  obtain ⟨formed, empty⟩ := empty_table_formed
  refine ⟨formed, ?_, ?_, ?_, ?_, ?_, ?_⟩
  · rw [startJoining, List.map_map]
    exact distinct
  · exact empty ▸ List.nodup_nil
  · intro thread member isPresent
    exact absurd isPresent (nobody thread member)
  · intro thread member isPresent
    exact absurd isPresent (nobody thread member)
  · intro client member
    change client ∈ emptyTable.registered at member
    rw [empty] at member
    cases member
  · intro named member _ _ joined
    exact absurd (.inr (.inr joined)) (nobody named member)

/-- In every state of a run in which the table has room and the texts fit, every client that
has joined has been told the name of every client that has joined. The socket numbers are
different. A registration, a removal, the list and the notice are one step each, with all
their reads of the table; `ClientList` and `Relay` have their loops. -/
theorem joined_clients_told (clients : List (Int × List UInt8))
    (distinct : (clients.map Prod.fst).Nodup) {events : List Nat} {state : Joining}
    (ran : TransitionSystem.run joinStep (startJoining clients) events = some state)
    (fits : TransitionSystem.Meets joinStep RoomAndTextsFit (startJoining clients) events) :
    ∀ named ∈ state.threads, ∀ told ∈ state.threads,
      named.phase = .joined → told.phase = .joined → Told state.sent told named := by
  have announced : Announced state :=
    TransitionSystem.guarded_run_preserves Announced
      (fun _ _ _ before met stepped => before.step met stepped) (start_announced distinct) fits ran
  intro named isNamed told isTold joined welcomed
  exact announced.told named isNamed told isTold joined (.inr welcomed)

/-- Two clients whose steps alternate have both joined, and each has been told the other's
name. -/
theorem two_clients_told :
    ∃ state first second, TransitionSystem.run joinStep
        (startJoining [(4, ['a'.toUInt8, 0]), (5, ['b'.toUInt8, 0])]) [0, 1, 0, 0, 1, 1] =
          some state ∧
      state.threads = [first, second] ∧ first.phase = .joined ∧ second.phase = .joined ∧
      Told state.sent first second ∧ Told state.sent second first := by
  have joined : (TransitionSystem.run joinStep
      (startJoining [(4, ['a'.toUInt8, 0]), (5, ['b'.toUInt8, 0])]) [0, 1, 0, 0, 1, 1]).map
        Joining.threads =
      some [⟨4, ['a'.toUInt8, 0], .joined⟩, ⟨5, ['b'.toUInt8, 0], .joined⟩] := by
    decide
  obtain ⟨state, ran, threads⟩ := Option.map_eq_some_iff.mp joined
  have told := joined_clients_told _ (by decide) ran (by decide)
  simp only [threads, List.forall_mem_cons] at told
  exact ⟨state, _, _, ran, threads, rfl, rfl, told.2.1.1 trivial trivial,
    told.1.2.1 trivial trivial⟩

end HelperChat
