import HelperChat.ChatServer
import HelperChat.WireProgress

/-!
# The whole server comes to rest

While no client registers, leaves or sends a new text, the server and the helper come to
rest, however their threads go on: every open call gets its reply, and every broadcast ends.
At rest all texts that the threads took up have been answered and broadcast.
-/

namespace HelperChat

open CString (text)
open TransitionSystem (Meets RunsForever)

/-- An orderly step, with a text that is not empty. -/
def ServesShortly (server : ChatServer) (event : ChatServerEvent) : Prop :=
  ServesOrderly server event ∧
    match event with
    | .call t dataWeWantToSend => BeginsShortly (.send t (text dataWeWantToSend))
    | _ => True

instance (server : ChatServer) : DecidablePred (ServesShortly server)
  | .relay event => inferInstanceAs (Decidable (ServesOrderly server (.relay event) ∧ True))
  | .call t dataWeWantToSend => inferInstanceAs (Decidable
      (ServesOrderly server (.call t dataWeWantToSend) ∧
        BeginsShortly (.send t (text dataWeWantToSend))))
  | .collect t count behind =>
      inferInstanceAs (Decidable (ServesOrderly server (.collect t count behind) ∧ True))
  | .helper event => inferInstanceAs (Decidable (ServesOrderly server (.helper event) ∧ True))

/-- The steps that bring the server to rest: iterations of the broadcasts, `recv`s of replies,
and the helper's steps, as far as they are orderly. -/
def restStep (server : ChatServer) : ChatServerEvent → Option ChatServer
  | .relay (.visit t) => chatServerStep server (.relay (.visit t))
  | .collect t count behind =>
      if ServesOrderly server (.collect t count behind) then
        chatServerStep server (.collect t count behind)
      else none
  | .helper event =>
      if ServesOrderly server (.helper event) then chatServerStep server (.helper event) else none
  | _ => none

/-- No call is open, and no thread is broadcasting. -/
def AllServed (server : ChatServer) : Prop :=
  CallsFinished server.wire.link ∧ ∀ thread ∈ server.relay.threads, thread.number = none

instance (server : ChatServer) : Decidable (AllServed server) :=
  inferInstanceAs (Decidable ((∀ phase ∈ server.wire.link.clientThreads, phase = .outside) ∧
    ∀ thread ∈ server.relay.threads, thread.number = none))

/-- What runs with short texts keep: the calls settle, and a thread that awaits a reply is in
its message loop. -/
structure Hosting (server : ChatServer) : Prop where
  settling : Settling server.wire
  waiting : ∀ (t : Nat) (dataSentToHelper : List UInt8),
    server.wire.link.clientThreads[t]? = some (.awaiting dataSentToHelper) →
      ∃ thread, server.relay.threads[t]? = some thread ∧ thread.phase = .toReceive

variable {server next : ChatServer} {event : ChatServerEvent}

/-- Before the first connection. -/
theorem start_hosting (threads : Nat) : Hosting (startChatServer threads) := by
  refine ⟨start_settling threads, ?_⟩
  intro t dataSentToHelper awaiting
  have outside := List.eq_of_mem_replicate (List.mem_of_getElem? awaiting)
  exact absurd outside (by simp)

/-- A thread that awaits a reply stays where it is in all other steps. -/
theorem relay_keeps_waiting {event : RelayEvent} {relay : Relay}
    (outside : OutsideCalls server event) (stepped : relayStep server.relay event = some relay)
    {t : Nat} {dataSentToHelper : List UInt8} {thread : RelayThread}
    (awaiting : server.wire.link.clientThreads[t]? = some (.awaiting dataSentToHelper))
    (present : server.relay.threads[t]? = some thread) (receiving : thread.phase = .toReceive) :
    relay.threads[t]? = some thread := by
  -- a step of a thread that stands elsewhere
  have elsewhere : ∀ (other : Nat) (moving moved : RelayThread),
      server.relay.threads[other]? = some moving → moving.phase ≠ .toReceive →
      (server.relay.threads.set other moved)[t]? = some thread := by
    intro other moving moved found notReceiving
    have different : other ≠ t := by
      rintro rfl
      obtain rfl := Option.some.inj (present.symm.trans found)
      exact notReceiving receiving
    exact (List.getElem?_set_ne different).trans present
  cases relay_move stepped with
  | accepts =>
    exact (List.getElem?_append_left (List.getElem?_eq_some_iff.mp present).1).trans present
  | refuses => exact present
  | posts => exact absurd outside id
  | leaves other moving found before | registers other moving _ found before
  | pushes other moving found before =>
    exact elsewhere other moving _ found (by rw [before]; simp)
  | visits other moving outbound number i found before =>
    exact elsewhere other moving _ found (by rw [before]; simp)
  | ends other moving outbound number i found before =>
    exact elsewhere other moving _ found (by rw [before]; simp)
  | removes other moving found before =>
    have different : other ≠ t := by
      rintro rfl
      have isOutside : server.wire.link.clientThreads[other]? = some .outside := outside
      exact absurd (isOutside.symm.trans awaiting) (by simp)
    exact (List.getElem?_set_ne different).trans present

/-- A step with a short text keeps the calls settling and the waiting threads in their loops. -/
theorem Hosting.step (hosting : Hosting server) (orderly : ServesShortly server event)
    (stepped : chatServerStep server event = some next) : Hosting next := by
  obtain ⟨settling, waiting⟩ := hosting
  cases chat_server_move stepped with
  | relays event relay outside moved =>
    refine ⟨settling, ?_⟩
    intro t dataSentToHelper awaiting
    obtain ⟨thread, present, receiving⟩ := waiting t dataSentToHelper awaiting
    exact ⟨thread, relay_keeps_waiting outside moved awaiting present receiving, receiving⟩
  | calls t dataWeWantToSend wire thread present before moved =>
    have inOrder : RunsOrderly server.wire (.send t (text dataWeWantToSend)) := trivial
    refine ⟨settling.step inOrder orderly.2 moved, ?_⟩
    intro other dataSentToHelper awaiting
    obtain ⟨_, _, threads⟩ := send_step_link moved
    simp only [threads] at awaiting
    rcases MemberUpdate.read_set_cases awaiting with ⟨rfl, _⟩ | ⟨_, old⟩
    · exact ⟨thread, present, before⟩
    · exact waiting other dataSentToHelper old
  | collects t count behind wire call thread moved last present before =>
    refine ⟨settling.step orderly.1.1 trivial moved, ?_⟩
    intro other dataSentToHelper awaiting
    obtain ⟨_, _, _, _, threads⟩ := recv_step_link moved
    simp only [threads] at awaiting
    rcases MemberUpdate.read_set_cases awaiting with ⟨_, new⟩ | ⟨different, old⟩
    · exact absurd new (by simp)
    · obtain ⟨waitingThread, found, receiving⟩ := waiting other dataSentToHelper old
      exact ⟨waitingThread, (List.getElem?_set_ne (Ne.symm different)).trans found, receiving⟩
  | helps event wire ofHelper moved =>
    have short : BeginsShortly event := by
      cases event with
      | send | recv => exact absurd ofHelper id
      | helperRecv | thread | join => trivial
    refine ⟨settling.step orderly.1 short moved, ?_⟩
    obtain ⟨_, threads⟩ := helper_step_link ofHelper moved
    simp only [threads]
    exact waiting

/-- How many iterations a thread still makes, with the last test. -/
def walkLeft (currentClientCount : Int) (thread : RelayThread) : Nat :=
  match thread.phase with
  | .walking _ _ i => currentClientCount.toNat - i + 1
  | _ => 0

/-- The iterations of all threads. -/
def Relay.walksLeft (relay : Relay) : Nat :=
  (relay.threads.map (walkLeft relay.table.currentClientCount)).sum

/-- What is left to do for the calls, and then for the broadcasts. -/
def ChatServer.toRest (server : ChatServer) : (Nat ×ₗ Nat ×ₗ Nat ×ₗ Nat ×ₗ Nat) ×ₗ Nat :=
  toLex (server.wire.toSettle, server.relay.walksLeft)

/-- An iteration brings a broadcast nearer to its end. -/
theorem visit_less {relay after : Relay} {t : Nat}
    (stepped : relayStep relay (.visit t) = some after) : after.walksLeft < relay.walksLeft := by
  cases relay_move stepped with
  | visits _ thread outbound number i present before inside =>
    have exchanged := MemberUpdate.sum_map_set (walkLeft relay.table.currentClientCount)
      relay.threads t thread { thread with phase := .walking outbound number (i + 1) } present
    have less : walkLeft relay.table.currentClientCount
        { thread with phase := .walking outbound number (i + 1) } <
          walkLeft relay.table.currentClientCount thread := by
      simp only [walkLeft, before]
      omega
    change (List.map (walkLeft relay.table.currentClientCount) (relay.threads.set t _)).sum <
      (List.map (walkLeft relay.table.currentClientCount) relay.threads).sum
    omega
  | ends _ thread outbound number i present before behind =>
    have exchanged := MemberUpdate.sum_map_set (walkLeft relay.table.currentClientCount)
      relay.threads t thread { thread with phase := .toReceive } present
    have less : walkLeft relay.table.currentClientCount { thread with phase := .toReceive } <
        walkLeft relay.table.currentClientCount thread := by
      simp only [walkLeft, before]
      omega
    change (List.map (walkLeft relay.table.currentClientCount) (relay.threads.set t _)).sum <
      (List.map (walkLeft relay.table.currentClientCount) relay.threads).sum
    omega

/-- A step to rest is orderly, and it is an iteration or settles the calls. -/
theorem rest_step (stepped : restStep server event = some next) :
    ServesShortly server event ∧ chatServerStep server event = some next ∧
      ((∃ t relay, event = .relay (.visit t) ∧ relayStep server.relay (.visit t) = some relay ∧
          next = { server with relay }) ∨
        ∃ wireEvent, settleStep server.wire wireEvent = some next.wire) := by
  cases event with
  | relay event =>
    cases event with
    | visit t =>
      have moves : chatServerStep server (.relay (.visit t)) = some next := stepped
      refine ⟨⟨⟨trivial, trivial⟩, trivial⟩, moves, .inl ?_⟩
      cases chat_server_move moves with
      | relays _ relay _ moved => exact ⟨t, relay, rfl, moved, rfl⟩
    | accept | leave | register | push | post | remove => cases stepped
  | call => cases stepped
  | collect t count behind =>
    obtain ⟨orderly, moves⟩ := Option.ite_none_right_eq_some.mp stepped
    refine ⟨⟨orderly, trivial⟩, moves, .inr ⟨.recv t count, ?_⟩⟩
    cases chat_server_move moves with
    | collects _ _ _ wire call thread moved =>
      simp only [settleStep, if_pos orderly.1]
      exact moved
  | helper event =>
    obtain ⟨orderly, moves⟩ := Option.ite_none_right_eq_some.mp stepped
    refine ⟨⟨orderly, trivial⟩, moves, .inr ⟨event, ?_⟩⟩
    have inOrder : RunsOrderly server.wire event := orderly
    cases chat_server_move moves with
    | helps _ wire ofHelper moved =>
      cases event with
      | send | recv => exact absurd ofHelper id
      | helperRecv | thread | join =>
        simp only [settleStep, if_pos inOrder]
        exact moved

/-- A step to rest leaves less to do. -/
theorem rest_step_less (hosting : Hosting server) (stepped : restStep server event = some next) :
    next.toRest < server.toRest := by
  obtain ⟨_, _, kind⟩ := rest_step stepped
  rcases kind with ⟨t, relay, _, moved, rfl⟩ | ⟨wireEvent, settles⟩
  · exact Prod.Lex.toLex_lt_toLex.mpr (.inr ⟨rfl, visit_less moved⟩)
  · exact Prod.Lex.toLex_lt_toLex.mpr (.inl (settle_step_less hosting.settling settles))

/-- Short of rest there is a step to it. -/
theorem Hosting.advances (hosting : Hosting server) :
    AllServed server ∨ ∃ event next, restStep server event = some next := by
  obtain ⟨settling, waiting⟩ := hosting
  rcases settling.advances with finished | ⟨event, wire, settles⟩
  · by_cases idle : ∀ thread ∈ server.relay.threads, thread.number = none
    · exact .inl ⟨finished, idle⟩
    · -- a thread is broadcasting
      right
      simp only [not_forall] at idle
      obtain ⟨thread, member, sending⟩ := idle
      obtain ⟨t, present⟩ := List.getElem?_of_mem member
      obtain ⟨outbound, number, i, walking⟩ : ∃ outbound number i,
          thread.phase = .walking outbound number i := by
        cases phase : thread.phase with
        | walking outbound number i => exact ⟨outbound, number, i, rfl⟩
        | toReceiveName | toPush | toReceive | gone =>
          exact absurd (by simp [RelayThread.number, phase]) sending
      obtain ⟨relay, moved⟩ : ∃ relay, relayStep server.relay (.visit t) = some relay := by
        simp only [relayStep, present, Option.bind_eq_bind, Option.bind_some, walking]
        split
        · exact ⟨_, rfl⟩
        · exact ⟨_, rfl⟩
      refine ⟨.relay (.visit t), { server with relay }, ?_⟩
      simp only [restStep, chatServerStep, moved]
      rfl
  · right
    obtain ⟨orderly, _, moves⟩ := settle_step settles
    have helped : OfHelper event → restStep server (.helper event) = some { server with wire } := by
      intro ofHelper
      have serves : ServesOrderly server (.helper event) := orderly
      simp only [restStep, if_pos serves, chatServerStep, if_pos ofHelper, moves, Option.map_some]
    cases event with
    | send => cases settles
    | recv t count =>
      obtain ⟨dataSentToHelper, returned, awaiting, finished, _⟩ := recv_step_link moves
      obtain ⟨thread, present, receiving⟩ := waiting t dataSentToHelper awaiting
      have serves : ServesOrderly server (.collect t count [0]) := ⟨orderly, rfl⟩
      refine ⟨.collect t count [0], ?_⟩
      simp only [restStep, if_pos serves, chatServerStep, moves, Option.bind_eq_bind,
        Option.bind_some, finished, List.getLast?_concat, relayStep, present, if_pos receiving]
      exact ⟨_, rfl⟩
    | helperRecv | thread | join => exact ⟨_, _, helped trivial⟩

/-- At rest no thread awaits a reply. -/
theorem AllServed.pending (served : AllServed server) (sender : Nat) :
    server.pending sender = [] := by
  rw [ChatServer.pending]
  split
  case h_1 dataSentToHelper awaiting =>
    exact absurd (served.1 _ (List.mem_of_getElem? awaiting)) (by simp)
  case h_2 => rfl

/-- Steps to rest keep what they rest on. -/
theorem Hosting.rest (hosting : Hosting server) (stepped : restStep server event = some next) :
    Hosting next := by
  obtain ⟨short, moves, _⟩ := rest_step stepped
  exact hosting.step short moves

/-- A run of them does so too. -/
theorem Hosting.rest_run {later : List ChatServerEvent} {final : ChatServer}
    (hosting : Hosting server) (ran : TransitionSystem.run restStep server later = some final) :
    Hosting final :=
  TransitionSystem.run_preserves Hosting (fun _ _ _ before stepped => before.rest stepped) hosting
    ran

/-- Where no step to rest is left, all are served. -/
theorem Hosting.served (hosting : Hosting server) (stuck : ∀ event, restStep server event = none) :
    AllServed server := by
  rcases hosting.advances with served | ⟨event, next, stepped⟩
  · exact served
  · rw [stuck event] at stepped
    cases stepped

/-- When all are served, the helper is at its `recv`, and nothing is on the way to it, no step
to rest is left. -/
theorem rest_stuck (served : AllServed server) (receiving : server.wire.helper.phase = .receiving)
    (nothing : server.wire.link.toHelper = []) : ∀ event, restStep server event = none := by
  intro event
  cases stepped : restStep server event with
  | none => rfl
  | some next =>
    obtain ⟨_, _, ⟨t, relay, _, moved, _⟩ | ⟨wireEvent, settles⟩⟩ := rest_step stepped
    · cases relay_move moved with
      | visits _ thread outbound number i present before
      | ends _ thread outbound number i present before =>
        have idle := served.2 thread (List.mem_of_getElem? present)
        simp [RelayThread.number, before] at idle
    · rw [settle_stuck receiving nothing served.1 wireEvent] at settles
      cases settles

/-- Steps to rest take up no text. -/
theorem rest_run_calls {later : List ChatServerEvent} {final : ChatServer}
    (ran : TransitionSystem.run restStep server later = some final) (sender : Nat) :
    TransitionSystem.run chatServerStep server later = some final ∧
      Meets chatServerStep ServesShortly server later ∧ calledTexts sender later = [] := by
  induction later generalizing server with
  | nil => exact ⟨ran, trivial, rfl⟩
  | cons event rest inductionHypothesis =>
    obtain ⟨middle, stepped, continued⟩ := Option.bind_eq_some_iff.mp ran
    obtain ⟨short, moves, _⟩ := rest_step stepped
    obtain ⟨reached, met, nothing⟩ := inductionHypothesis continued
    refine ⟨Option.bind_eq_some_iff.mpr ⟨middle, moves, reached⟩, ⟨short, ?_⟩, ?_⟩
    · intro other same
      obtain rfl := Option.some.inj (moves.symm.trans same)
      exact met
    · cases event with
      | call => cases stepped
      | relay | collect | helper => exact nothing

section Runs

variable (threads : Nat) {events : List ChatServerEvent}

/-- Runs with short texts keep the calls settling. -/
theorem run_hosting
    (ran : TransitionSystem.run chatServerStep (startChatServer threads) events = some server)
    (short : Meets chatServerStep ServesShortly (startChatServer threads) events) :
    Hosting server :=
  TransitionSystem.guarded_run_preserves Hosting
    (fun _ _ _ before met stepped => before.step met stepped) (start_hosting threads) short ran

/-- They are orderly. -/
theorem orderly_of_short {start : ChatServer}
    (short : Meets chatServerStep ServesShortly start events) :
    Meets chatServerStep ServesOrderly start events :=
  TransitionSystem.Meets.imp (fun _ => True) (fun _ _ _ _ _ _ => trivial)
    (fun _ _ _ met => met.1) trivial short

/-- From every state of an orderly run with short texts, the broadcasts and the open calls
take finitely many steps, and when no orderly step of theirs is left, no thread is in a call
or in a broadcast, and the public messages of every connection's thread are the helper's
results for all texts that it has taken up. The texts have 1 to 100 bytes. Orderly is as in
`chat_server_conveys`, and the steps to rest are orderly too: a decoder thread that would
disturb another one waits. Registrations, removals and new texts are not among these steps. -/
theorem chat_server_comes_to_rest
    (ran : TransitionSystem.run chatServerStep (startChatServer threads) events = some server)
    (short : Meets chatServerStep ServesShortly (startChatServer threads) events) :
    ¬ RunsForever restStep server ∧
      ∀ later final, TransitionSystem.run restStep server later = some final →
        (∀ event, restStep final event = none) →
        AllServed final ∧ ∀ sender, final.relay.publicPosts sender =
          (calledTexts sender events).map fun dataSentToHelper =>
            outboundMessage (helperResult dataSentToHelper) (final.nameOf sender) := by
  have hosting := run_hosting threads ran short
  constructor
  · exact TransitionSystem.no_infinite_run_within Hosting ChatServer.toRest
      (fun _ _ _ before stepped => before.rest stepped)
      (fun _ _ _ before stepped => rest_step_less before stepped) hosting
  · intro later final continued stuck
    have served : AllServed final := (hosting.rest_run continued).served stuck
    refine ⟨served, ?_⟩
    intro sender
    obtain ⟨reached, met, nothing⟩ := rest_run_calls continued sender
    have whole := TransitionSystem.run_trans ran reached
    have orderly := orderly_of_short (TransitionSystem.meets_append ran short met)
    have texts := run_texts threads whole sender
    have split : calledTexts sender (events ++ later) =
        calledTexts sender events ++ calledTexts sender later := List.filterMap_append
    rw [split, nothing, List.append_nil, served.pending, List.append_nil] at texts
    rw [(run_answering threads whole orderly).posted sender, texts]

end Runs

/-- Two clients join, and both send a text. -/
def twoTexts : List ChatServerEvent :=
  [.relay (.accept 4), .relay (.accept 5), .relay (.register 0 ['a'.toUInt8, 0]),
    .relay (.push 0), .relay (.visit 0), .relay (.visit 0),
    .relay (.register 1 ['b'.toUInt8, 0]), .relay (.push 1), .relay (.visit 1),
    .relay (.visit 1), .relay (.visit 1), .call 0 (firstText ++ [0]), .call 1 (secondText ++ [0])]

/-- The helper has read the first text. -/
def callsUnderWay : List ChatServerEvent :=
  twoTexts ++ [.helper (.helperRecv 3 (fun _ _ => 0) (fun _ _ => 0)), .helper (.thread 2)]

/-- A round of the helper for a text of three bytes, and the broadcast of its reply. -/
def roundAndBroadcast (t : Nat) : List ChatServerEvent :=
  [.helper (.helperRecv 3 (fun _ _ => 0) (fun _ _ => 0))] ++
    (DrainRefill.passesSchedule 0 threadNumbers 5).map (fun j => .helper (.thread j)) ++
    [.helper (.join (fun _ _ => 0)), .collect t 3 [0]] ++ List.replicate 3 (.relay (.visit t))

/-- The round that is under way goes on in the order of its threads from the third one on,
and the second text has a round of its own. -/
def servedCalls : List ChatServerEvent :=
  (List.replicate 31 2 ++ [0, 1, 3, 4, 5].flatMap (List.replicate 32)).map
      (fun j => .helper (.thread j)) ++
    [.helper (.join (fun _ _ => 0)), .collect 0 3 [0]] ++ List.replicate 3 (.relay (.visit 0)) ++
    roundAndBroadcast 1

/-- The calls cannot be held up for ever, and in this schedule both texts are broadcast. -/
theorem calls_under_way_come_to_rest :
    ∃ server final, TransitionSystem.run chatServerStep (startChatServer 2) callsUnderWay =
        some server ∧
      ¬ RunsForever restStep server ∧
      TransitionSystem.run restStep server servedCalls = some final ∧
      AllServed final ∧ final.relay.publicPosts 1 =
        (calledTexts 1 callsUnderWay).map fun dataSentToHelper =>
          outboundMessage (helperResult dataSentToHelper) (final.nameOf 1) := by
  have computed : ((TransitionSystem.run chatServerStep (startChatServer 2) callsUnderWay).bind
      fun server => TransitionSystem.run restStep server servedCalls).map
        (fun final => (decide (AllServed final), decide (final.wire.helper.phase = .receiving),
          final.wire.link.toHelper)) = some (true, true, []) := by
    decide +kernel
  obtain ⟨final, wholeRun, seen⟩ := Option.map_eq_some_iff.mp computed
  obtain ⟨server, ran, continued⟩ := Option.bind_eq_some_iff.mp wholeRun
  simp only [Prod.mk.injEq, decide_eq_true_eq] at seen
  obtain ⟨served, receiving, nothing⟩ := seen
  obtain ⟨finite, rests⟩ := chat_server_comes_to_rest 2 ran (by decide +kernel)
  obtain ⟨allServed, posted⟩ := rests _ final continued (rest_stuck served receiving nothing)
  exact ⟨server, final, ran, finite, continued, allServed, posted 1⟩

end HelperChat
