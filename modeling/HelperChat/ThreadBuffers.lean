import HelperChat.CString
import HelperChat.ClientTable
import HelperChat.MemberUpdate
import HelperChat.Transition

/-!
# The buffers of the client threads

What `clientThreadSplitFunction` stores in its arrays and which of its buffers it passes on
as strings, for any number of client threads of `2_server.c` whose steps interleave. A
`recv` may fill an array to its last byte, and the terminator behind the bytes is then
stored outside. The helper's reply gets no terminator.
-/

namespace HelperChat

open CString (store strncpy)
open CountedLoop (writeAll)

/-- Where a client thread stands: at its first `recv`, before one of the steps in which its
client joins, at the `recv` of its loop, at the helper's reply, or behind the disconnect. -/
inductive ThreadPhase where
  | toReceiveName
  | toRegister
  | toList
  | toPush
  | toReceive
  | toReceiveReply
  | gone
deriving DecidableEq

/-- A client thread with its arrays. `outputBufferBoi` is declared in the loop and has the
same place in every pass. -/
structure ClientThread where
  clientSocketID : Int
  dataWeWantToSend : List UInt8
  origSender : List UInt8
  outputBufferBoi : List UInt8
  phase : ThreadPhase
deriving DecidableEq

/-- What a `recv` for `BUFFER_SIZE` bytes returns if it returns any. -/
structure ReceivedBytes where
  bytes : List UInt8
  nonempty : bytes ≠ []
  bounded : bytes.length ≤ bufferSize
deriving DecidableEq

/-- What lets a thread continue: bytes from its client, the client's disconnect, the
helper's reply, or nothing from outside. -/
inductive ThreadEvent where
  | received (data : ReceivedBytes)
  | disconnected
  | replied (data : ReceivedBytes)
  | proceeded
deriving DecidableEq

/-- The arrays that a thread stores client bytes in. -/
inductive ThreadArray where
  | origSender
  | dataWeWantToSend
  | newBoiName
deriving DecidableEq

/-- A byte is stored in an array, or a buffer is passed on as a string. -/
inductive BufferUse where
  | stored (array : ThreadArray) (index : Nat)
  | passed (buffer : List UInt8)
deriving DecidableEq

/-- The byte is inside the array, or the string ends in the buffer. -/
def BufferUse.Safe : BufferUse → Prop
  | .stored _ index => index < bufferSize
  | .passed buffer => 0 ∈ buffer

instance : DecidablePred BufferUse.Safe
  | .stored _ index => inferInstanceAs (Decidable (index < bufferSize))
  | .passed buffer => inferInstanceAs (Decidable (0 ∈ buffer))

/-- `recv` and the statement behind it, which terminates the bytes. -/
def storedBy (array : ThreadArray) (bytes : List UInt8) : List BufferUse :=
  (List.range (bytes.length + 1)).map (.stored array)

/-- The next step of a thread: the table and the thread after it, and the uses of buffers. -/
def threadStep (table : ClientTable OrganizedClientData) (thread : ClientThread)
    (event : ThreadEvent) :
    Option (ClientTable OrganizedClientData × ClientThread × List BufferUse) :=
  match thread.phase, event with
  | .toReceiveName, .received data =>
      some (table,
        { thread with
          origSender := store thread.origSender data.bytes
          phase := .toRegister },
        storedBy .origSender data.bytes)
  | .toReceiveName, .disconnected => some (table, { thread with phase := .gone }, [])
  | .toRegister, .proceeded =>
      some (table.register ⟨thread.clientSocketID, strncpy thread.origSender bufferSize⟩,
        { thread with phase := .toList }, (List.range bufferSize).map (.stored .newBoiName))
  | .toList, .proceeded =>
      -- `outputConnectedClients` concatenates the names in the table.
      some (table, { thread with phase := .toPush },
        table.registered.map fun client => .passed client.name)
  | .toPush, .proceeded =>
      some (table, { thread with phase := .toReceive }, [.passed thread.origSender])
  | .toReceive, .received data =>
      -- `talkWithHelperServer` takes the length of the message.
      let dataWeWantToSend := store thread.dataWeWantToSend data.bytes
      some (table,
        { thread with
          dataWeWantToSend := dataWeWantToSend
          phase := .toReceiveReply },
        storedBy .dataWeWantToSend data.bytes ++ [.passed dataWeWantToSend])
  | .toReceive, .disconnected =>
      some (ClientTable.removeClient OrganizedClientData.socket thread.clientSocketID table,
        { thread with phase := .gone }, [])
  | .toReceiveReply, .replied data =>
      -- `sendPublicMessage` formats both, and the reply is cleared behind it.
      some (table,
        { thread with
          outputBufferBoi := List.replicate bufferSize 0
          phase := .toReceive },
        [.passed thread.origSender, .passed (writeAll thread.outputBufferBoi 0 data.bytes)])
  | _, _ => none

/-- The table, the threads, and the uses of their buffers so far. -/
structure ThreadedServer where
  table : ClientTable OrganizedClientData
  threads : List ClientThread
  uses : List BufferUse
deriving DecidableEq

/-- The thread at a position takes its next step. -/
def threadedServerStep (server : ThreadedServer) (event : Nat × ThreadEvent) :
    Option ThreadedServer := do
  let thread ← server.threads[event.1]?
  let (table, thread, uses) ← threadStep server.table thread event.2
  pure ⟨table, server.threads.set event.1 thread, server.uses ++ uses⟩

/-- The arrays of a thread have their size. -/
structure ClientThread.Allocated (thread : ClientThread) : Prop where
  data : thread.dataWeWantToSend.length = bufferSize
  sender : thread.origSender.length = bufferSize
  output : thread.outputBufferBoi.length = bufferSize

/-- A new server whose threads are at their first `recv`, with uninitialised arrays. -/
structure ThreadsAtStart (server : ThreadedServer) : Prop where
  table : server.table = emptyTable
  threads : ∀ thread ∈ server.threads, thread.Allocated ∧ thread.phase = .toReceiveName
  uses : server.uses = []

/-- The client's bytes leave room for the terminator, and the helper's reply contains a NUL
or leaves one in the buffer behind it. -/
def ClientThread.LeavesNul (thread : ClientThread) : ThreadEvent → Prop
  | .received data => data.bytes.length < bufferSize
  | .replied data => 0 ∈ data.bytes ∨ 0 ∈ thread.outputBufferBoi.drop data.bytes.length
  | _ => True

/-- The same for the thread that takes the step. -/
def LeavesNul (server : ThreadedServer) (event : Nat × ThreadEvent) : Prop :=
  ∀ thread ∈ server.threads[event.1]?, thread.LeavesNul event.2

instance (thread : ClientThread) : DecidablePred thread.LeavesNul
  | .received data => inferInstanceAs (Decidable (data.bytes.length < bufferSize))
  | .replied data =>
      inferInstanceAs
        (Decidable (0 ∈ data.bytes ∨ 0 ∈ thread.outputBufferBoi.drop data.bytes.length))
  | .disconnected => inferInstanceAs (Decidable True)
  | .proceeded => inferInstanceAs (Decidable True)

instance (server : ThreadedServer) (event : Nat × ThreadEvent) :
    Decidable (LeavesNul server event) :=
  inferInstanceAs (Decidable (∀ thread ∈ server.threads[event.1]?, thread.LeavesNul event.2))

/-- A thread that has its client's name holds it as a string. -/
structure ClientThread.Terminated (thread : ClientThread) : Prop where
  allocated : thread.Allocated
  named : thread.phase ≠ .toReceiveName → thread.phase ≠ .gone → 0 ∈ thread.origSender

/-- The invariant: the threads and the entries of the table hold strings. -/
structure Terminated (server : ThreadedServer) : Prop where
  clients : ∀ client ∈ server.table.clients, 0 ∈ client.name
  threads : ∀ thread ∈ server.threads, thread.Terminated

variable {table tableAfter : ClientTable OrganizedClientData} {thread after : ClientThread}
  {event : ThreadEvent} {bufferUses : List BufferUse}

/-- The steps of a thread. -/
inductive ThreadMove (table : ClientTable OrganizedClientData) (thread : ClientThread) :
    ThreadEvent → ClientTable OrganizedClientData → ClientThread → List BufferUse → Prop
  | receivesName (data : ReceivedBytes) (stands : thread.phase = .toReceiveName) :
      ThreadMove table thread (.received data) table
        { thread with
          origSender := store thread.origSender data.bytes
          phase := .toRegister }
        (storedBy .origSender data.bytes)
  | leavesNameless (stands : thread.phase = .toReceiveName) :
      ThreadMove table thread .disconnected table { thread with phase := .gone } []
  | registers (stands : thread.phase = .toRegister) :
      ThreadMove table thread .proceeded
        (table.register ⟨thread.clientSocketID, strncpy thread.origSender bufferSize⟩)
        { thread with phase := .toList } ((List.range bufferSize).map (.stored .newBoiName))
  | lists (stands : thread.phase = .toList) :
      ThreadMove table thread .proceeded table { thread with phase := .toPush }
        (table.registered.map fun client => .passed client.name)
  | pushes (stands : thread.phase = .toPush) :
      ThreadMove table thread .proceeded table { thread with phase := .toReceive }
        [.passed thread.origSender]
  | receives (data : ReceivedBytes) (stands : thread.phase = .toReceive) :
      ThreadMove table thread (.received data) table
        { thread with
          dataWeWantToSend := store thread.dataWeWantToSend data.bytes
          phase := .toReceiveReply }
        (storedBy .dataWeWantToSend data.bytes ++
          [.passed (store thread.dataWeWantToSend data.bytes)])
  | disconnects (stands : thread.phase = .toReceive) :
      ThreadMove table thread .disconnected
        (ClientTable.removeClient OrganizedClientData.socket thread.clientSocketID table)
        { thread with phase := .gone } []
  | repliesPublicly (data : ReceivedBytes) (stands : thread.phase = .toReceiveReply) :
      ThreadMove table thread (.replied data) table
        { thread with
          outputBufferBoi := List.replicate bufferSize 0
          phase := .toReceive }
        [.passed thread.origSender, .passed (writeAll thread.outputBufferBoi 0 data.bytes)]

/-- Every computed step is one of these. -/
theorem thread_step_move
    (stepped : threadStep table thread event = some (tableAfter, after, bufferUses)) :
    ThreadMove table thread event tableAfter after bufferUses := by
  unfold threadStep at stepped
  split at stepped
  case h_9 => cases stepped
  all_goals
    simp only [Option.some.injEq, Prod.mk.injEq] at stepped
    obtain ⟨rfl, rfl, rfl⟩ := stepped
  case h_1 data stands => exact .receivesName data stands
  case h_2 stands => exact .leavesNameless stands
  case h_3 stands => exact .registers stands
  case h_4 stands => exact .lists stands
  case h_5 stands => exact .pushes stands
  case h_6 data stands => exact .receives data stands
  case h_7 stands => exact .disconnects stands
  case h_8 data stands => exact .repliesPublicly data stands

/-- The bytes of a `recv` and their terminator are stored inside an array exactly if the
bytes do not fill it. -/
theorem stored_safe_iff (array : ThreadArray) (bytes : List UInt8) :
    (∀ bufferUse ∈ storedBy array bytes, bufferUse.Safe) ↔ bytes.length < bufferSize := by
  simp only [storedBy, List.forall_mem_map, List.mem_range, BufferUse.Safe]
  constructor
  · intro inside
    exact inside bytes.length (Nat.lt_succ_self _)
  · intro room index below
    omega

/-- A reply in its buffer is a string exactly if it contains a NUL or leaves one behind it. -/
theorem nul_in_reply_iff {buffer bytes : List UInt8} (fit : bytes.length ≤ buffer.length) :
    0 ∈ writeAll buffer 0 bytes ↔ 0 ∈ bytes ∨ 0 ∈ buffer.drop bytes.length := by
  rw [CountedLoop.write_all_start fit, List.mem_append]

/-- A thread that stands where it has its client's name holds it as a string. -/
theorem ClientThread.Terminated.sender_nul {phase : ThreadPhase} (terminated : thread.Terminated)
    (stands : thread.phase = phase) (named : phase ≠ .toReceiveName ∧ phase ≠ .gone) :
    0 ∈ thread.origSender := by
  subst stands
  exact terminated.named named.1 named.2

/-- The registration of a terminated name keeps the names in the table terminated. -/
theorem registration_keeps_nul {clientSocketID : Int} {origSender : List UInt8}
    (clients : ∀ client ∈ table.clients, 0 ∈ client.name) (sized : origSender.length = bufferSize)
    (sent : 0 ∈ origSender) :
    ∀ client ∈ (table.register ⟨clientSocketID, strncpy origSender bufferSize⟩).clients,
      0 ∈ client.name := by
  intro client member
  cases ClientTable.mem_register member with
  | inl old => exact clients client old
  | inr new =>
    subst new
    exact CString.nul_in_strncpy (sized ▸ CString.text_length_lt sent)

/-- A step that leaves room for the terminators uses its buffers safely and keeps the
thread's and the table's strings. -/
theorem ClientThread.Terminated.step (terminated : thread.Terminated)
    (clients : ∀ client ∈ table.clients, 0 ∈ client.name) (leaves : thread.LeavesNul event)
    (stepped : threadStep table thread event = some (tableAfter, after, bufferUses)) :
    after.Terminated ∧ (∀ client ∈ tableAfter.clients, 0 ∈ client.name) ∧
      ∀ bufferUse ∈ bufferUses, bufferUse.Safe := by
  obtain ⟨data, sender, output⟩ := terminated.allocated
  cases thread_step_move stepped with
  | receivesName received =>
    refine ⟨⟨⟨data, by simpa using sender, output⟩, ?_⟩, clients, ?_⟩
    · intro _ _
      exact CString.nul_in_store (sender ▸ leaves)
    · exact (stored_safe_iff _ _).mpr leaves
  | leavesNameless =>
    refine ⟨⟨⟨data, sender, output⟩, ?_⟩, clients, List.forall_mem_nil _⟩
    intro _ present
    exact absurd rfl present
  | registers stands =>
    have sent : 0 ∈ thread.origSender := terminated.sender_nul stands (by decide)
    refine ⟨⟨⟨data, sender, output⟩, fun _ _ => sent⟩, ?_, ?_⟩
    · exact registration_keeps_nul clients sender sent
    · simp [BufferUse.Safe]
  | lists stands =>
    have sent : 0 ∈ thread.origSender := terminated.sender_nul stands (by decide)
    refine ⟨⟨⟨data, sender, output⟩, fun _ _ => sent⟩, clients, ?_⟩
    rw [List.forall_mem_map]
    intro client member
    exact clients client (List.mem_of_mem_take member)
  | pushes stands =>
    have sent : 0 ∈ thread.origSender := terminated.sender_nul stands (by decide)
    refine ⟨⟨⟨data, sender, output⟩, fun _ _ => sent⟩, clients, ?_⟩
    exact List.forall_mem_singleton.mpr sent
  | receives received stands =>
    have sent : 0 ∈ thread.origSender := terminated.sender_nul stands (by decide)
    refine ⟨⟨⟨by simpa using data, sender, output⟩, fun _ _ => sent⟩, clients, ?_⟩
    rw [List.forall_mem_append, List.forall_mem_singleton]
    exact ⟨(stored_safe_iff _ _).mpr leaves, CString.nul_in_store (data ▸ leaves)⟩
  | disconnects =>
    refine ⟨⟨⟨data, sender, output⟩, ?_⟩, ?_, List.forall_mem_nil _⟩
    · intro _ present
      exact absurd rfl present
    · intro client member
      exact clients client (ClientTable.remove_client_subset _ _ member)
  | repliesPublicly received stands =>
    have sent : 0 ∈ thread.origSender := terminated.sender_nul stands (by decide)
    refine ⟨⟨⟨data, sender, by simp⟩, fun _ _ => sent⟩, clients, ?_⟩
    rw [List.forall_mem_cons, List.forall_mem_singleton]
    exact ⟨sent, (nul_in_reply_iff (output ▸ received.bounded)).mpr leaves⟩

/-- A step that leaves no room for a terminator uses a buffer unsafely. -/
theorem ClientThread.Allocated.overruns (allocated : thread.Allocated)
    (fills : ¬ thread.LeavesNul event)
    (stepped : threadStep table thread event = some (tableAfter, after, bufferUses)) :
    ∃ bufferUse ∈ bufferUses, ¬ bufferUse.Safe := by
  by_contra allSafe
  have safe : ∀ bufferUse ∈ bufferUses, bufferUse.Safe := by
    intro bufferUse made
    by_contra notSafe
    exact allSafe ⟨bufferUse, made, notSafe⟩
  apply fills
  cases thread_step_move stepped with
  | receivesName => exact (stored_safe_iff _ _).mp safe
  | receives => exact (stored_safe_iff _ _).mp (List.forall_mem_append.mp safe).1
  | repliesPublicly received =>
    have passed := safe _ (List.mem_cons_of_mem _ (List.mem_singleton_self _))
    exact (nul_in_reply_iff (allocated.output ▸ received.bounded)).mp passed
  | leavesNameless | registers | lists | pushes | disconnects => trivial

variable {server next : ThreadedServer} {turn : Nat × ThreadEvent}

/-- A step of the server is one of a thread. -/
theorem threaded_server_step_cases (stepped : threadedServerStep server turn = some next) :
    ∃ thread ∈ server.threads[turn.1]?, ∃ table after bufferUses,
      threadStep server.table thread turn.2 = some (table, after, bufferUses) ∧
      next = ⟨table, server.threads.set turn.1 after, server.uses ++ bufferUses⟩ := by
  obtain ⟨thread, present, continued⟩ := Option.bind_eq_some_iff.mp stepped
  obtain ⟨⟨table, after, bufferUses⟩, moved, finished⟩ := Option.bind_eq_some_iff.mp continued
  exact ⟨thread, present, table, after, bufferUses, moved, (Option.some.inj finished).symm⟩

/-- Such a step keeps all strings. -/
theorem Terminated.step (terminated : Terminated server) (leaves : LeavesNul server turn)
    (stepped : threadedServerStep server turn = some next) :
    Terminated next ∧ ((∀ bufferUse ∈ server.uses, bufferUse.Safe) →
      ∀ bufferUse ∈ next.uses, bufferUse.Safe) := by
  obtain ⟨thread, present, table, after, bufferUses, moved, rfl⟩ :=
    threaded_server_step_cases stepped
  obtain ⟨kept, clients, safe⟩ := (terminated.threads thread (List.mem_of_getElem? present)).step
    terminated.clients (leaves thread present) moved
  refine ⟨⟨clients, MemberUpdate.forall_mem_set terminated.threads kept⟩, ?_⟩
  intro before
  exact List.forall_mem_append.mpr ⟨before, safe⟩

/-- A step that leaves no room for a terminator is seen in the history. -/
theorem Terminated.overruns (terminated : Terminated server) (fills : ¬ LeavesNul server turn)
    (stepped : threadedServerStep server turn = some next) :
    ∃ bufferUse ∈ next.uses, ¬ bufferUse.Safe := by
  obtain ⟨thread, present, table, after, bufferUses, moved, rfl⟩ :=
    threaded_server_step_cases stepped
  have fillsIts : ¬ thread.LeavesNul turn.2 := by
    intro leaves
    apply fills
    intro other found
    exact Option.some.inj (present.symm.trans found) ▸ leaves
  obtain ⟨bufferUse, made, notSafe⟩ :=
    (terminated.threads thread (List.mem_of_getElem? present)).allocated.overruns fillsIts moved
  exact ⟨bufferUse, List.mem_append_right _ made, notSafe⟩

/-- A use that was made stays in the history. -/
theorem uses_grow (stepped : threadedServerStep server turn = some next) :
    server.uses ⊆ next.uses := by
  obtain ⟨_, _, _, _, bufferUses, _, rfl⟩ := threaded_server_step_cases stepped
  exact List.subset_append_left _ _

/-- Everything stored by the threads is inside their arrays and every string passed on ends
in its buffer, exactly if no `recv` from a client fills an array and every reply of the
helper leaves a NUL in its buffer. -/
theorem thread_buffers_safe_iff {start server : ThreadedServer} (starts : ThreadsAtStart start)
    {turns : List (Nat × ThreadEvent)}
    (ran : TransitionSystem.run threadedServerStep start turns = some server) :
    (∀ bufferUse ∈ server.uses, bufferUse.Safe) ↔
      TransitionSystem.Meets threadedServerStep LeavesNul start turns := by
  have initially : Terminated start ∧ ∀ bufferUse ∈ start.uses, bufferUse.Safe := by
    refine ⟨⟨?_, ?_⟩, ?_⟩
    · rw [starts.table]
      decide
    · intro thread member
      obtain ⟨allocated, phase⟩ := starts.threads thread member
      exact ⟨allocated, fun past => absurd phase past⟩
    · simp [starts.uses]
  have kept : ∀ state turn next, (Terminated state ∧ ∀ bufferUse ∈ state.uses, bufferUse.Safe) →
      LeavesNul state turn → threadedServerStep state turn = some next →
      Terminated next ∧ ∀ bufferUse ∈ next.uses, bufferUse.Safe := by
    rintro state turn next ⟨terminated, safe⟩ leaves stepped
    obtain ⟨terminatedNext, safeNext⟩ := terminated.step leaves stepped
    exact ⟨terminatedNext, safeNext safe⟩
  constructor
  · intro safe
    by_contra broken
    obtain ⟨bufferUse, made, notSafe⟩ : ∃ bufferUse ∈ server.uses, ¬ bufferUse.Safe := by
      refine TransitionSystem.spoiled_of_violation
        (fun state => ∃ bufferUse ∈ state.uses, ¬ bufferUse.Safe) ?_ ran ?_ broken
      · rintro _ _ _ ⟨bufferUse, made, notSafe⟩ stepped
        exact ⟨bufferUse, uses_grow stepped made, notSafe⟩
      · intro before middle turn next reached met fills stepped
        obtain ⟨terminated, _⟩ :=
          TransitionSystem.guarded_run_preserves _ kept initially met reached
        exact terminated.overruns fills stepped
    exact notSafe (safe bufferUse made)
  · intro met
    exact (TransitionSystem.guarded_run_preserves _ kept initially met ran).2

/-- A server with a new client on socket 4. -/
def serverWithClient : ThreadedServer :=
  let memory := List.replicate bufferSize (1 : UInt8)
  ⟨emptyTable, [⟨4, memory, memory, memory, .toReceiveName⟩], []⟩

/-- It is at its start. -/
theorem server_with_client_starts : ThreadsAtStart serverWithClient := by
  refine ⟨rfl, ?_, rfl⟩
  intro thread member
  obtain rfl := List.mem_singleton.mp member
  exact ⟨⟨rfl, rfl, rfl⟩, rfl⟩

/-- Its client sends a name of `BUFFER_SIZE` bytes, and the terminator is stored outside. -/
theorem long_name_overruns :
    ¬ ∀ (start server : ThreadedServer) (turns : List (Nat × ThreadEvent)),
      ThreadsAtStart start →
      TransitionSystem.run threadedServerStep start turns = some server →
      ∀ bufferUse ∈ server.uses, bufferUse.Safe := by
  intro always
  let name : ReceivedBytes := ⟨List.replicate bufferSize 'a'.toUInt8, by decide, by decide⟩
  have completed : (TransitionSystem.run threadedServerStep serverWithClient
      [(0, .received name)]).isSome = true := by
    decide +kernel
  obtain ⟨server, ran⟩ := Option.isSome_iff_exists.mp completed
  have overrun : .stored .origSender bufferSize ∈ server.uses := by
    obtain rfl := Option.some.inj ran
    decide +kernel
  have inside : bufferSize < bufferSize :=
    always serverWithClient server [(0, .received name)] server_with_client_starts ran _ overrun
  omega

/-- The client's name and two messages of it. The first reply brings a NUL, the second one
finds the buffer cleared. -/
def conversation : List (Nat × ThreadEvent) :=
  [(0, .received ⟨CString.literal "bo", by decide, by decide⟩), (0, .proceeded), (0, .proceeded),
    (0, .proceeded), (0, .received ⟨CString.literal "hi\n", by decide, by decide⟩),
    (0, .replied ⟨CString.literal "HI\n" ++ [0], by decide, by decide⟩),
    (0, .received ⟨CString.literal "ok\n", by decide, by decide⟩),
    (0, .replied ⟨CString.literal "OK\n", by decide, by decide⟩), (0, .disconnected)]

/-- It uses the buffers safely. -/
theorem conversation_safe :
    ∃ server, TransitionSystem.run threadedServerStep serverWithClient conversation = some server ∧
      ∀ bufferUse ∈ server.uses, bufferUse.Safe := by
  have completed : (TransitionSystem.run threadedServerStep serverWithClient
      conversation).isSome = true := by
    decide +kernel
  obtain ⟨server, ran⟩ := Option.isSome_iff_exists.mp completed
  refine ⟨server, ran, (thread_buffers_safe_iff server_with_client_starts ran).mpr ?_⟩
  decide +kernel

end HelperChat
