import HelperChat.Broadcast

/-!
# The public message

`sendPublicMessage` without interruption: its loop sends the message to every registered
client but the sender. The message is the sender's name and the processed text together,
formatted into a buffer that is as long as the one of either of them.
-/

namespace HelperChat

open CString (literal text)

/-- What the loop of `sendPublicMessage` sends up to an index. -/
def sendUpTo (inputData : List UInt8) (selectedClient : Int) (senderName : List UInt8)
    (table : ClientTable OrganizedClientData) (bound : Nat) : List Sending :=
  CountedLoop.iterate (fun i sent =>
      let socket := (table.clients[i]?.getD default).socket
      if socket ≠ selectedClient then sent ++ [⟨socket, outboundMessage inputData senderName⟩]
      else sent)
    bound []

/-- `sendPublicMessage`. -/
def sendPublicMessage (inputData : List UInt8) (selectedClient : Int) (senderName : List UInt8)
    (table : ClientTable OrganizedClientData) : List Sending :=
  sendUpTo inputData selectedClient senderName table table.currentClientCount.toNat

/-- The whole public message of a client of some name. -/
def publicMessage (name message : List UInt8) : List UInt8 :=
  literal "[" ++ name ++ literal "]=> " ++ message

/-- Every registered client but the sender is sent the message exactly once, and nobody else
is sent anything. -/
structure CarriesToOthers (table : ClientTable OrganizedClientData) (selectedClient : Int)
    (message : List UInt8) (sent : List Sending) : Prop where
  once : ∀ client ∈ table.registered, client.socket ≠ selectedClient →
    (sent.filter fun sending => sending.socket = client.socket) = [⟨client.socket, message⟩]
  others : ∀ sending ∈ sent, sending.socket ≠ selectedClient ∧
    sending.socket ∈ table.registered.map OrganizedClientData.socket

variable {inputData senderName : List UInt8} {selectedClient : Int}
  {table : ClientTable OrganizedClientData}

/-- The first iterations in a broadcast that no removal interrupts. -/
theorem visits_up_to {i : Nat} (inside : i ≤ table.currentClientCount.toNat) :
    TransitionSystem.run (broadcastStep inputData senderName selectedClient)
        (startBroadcast table) (List.replicate i .visit) =
      some ⟨table, i, sendUpTo inputData selectedClient senderName table i, false⟩ := by
  induction i with
  | zero => rfl
  | succ i inductionHypothesis =>
    have next : (i : Int) < table.currentClientCount := by omega
    rw [List.replicate_succ', TransitionSystem.run_append, inductionHypothesis (by omega)]
    simp [broadcastStep, next, sendUpTo]

/-- The function is the broadcast without removals. -/
theorem broadcast_sends (inputData senderName : List UInt8) (selectedClient : Int)
    (table : ClientTable OrganizedClientData) :
    TransitionSystem.run (broadcastStep inputData senderName selectedClient)
        (startBroadcast table) (List.replicate (table.currentClientCount.toNat + 1) .visit) =
      some ⟨table, table.currentClientCount.toNat,
        sendPublicMessage inputData selectedClient senderName table, true⟩ := by
  rw [List.replicate_succ', TransitionSystem.run_append, visits_up_to (Nat.le_refl _)]
  simp [broadcastStep, sendPublicMessage]

/-- The sockets of the others. -/
def otherSockets (selectedClient : Int) (table : ClientTable OrganizedClientData) : List Int :=
  (table.registered.map OrganizedClientData.socket).filter (· ≠ selectedClient)

/-- An iteration adds the socket at its index to those that were sent the message. -/
theorem others_up_to_succ (formed : table.WellFormed) {i : Nat}
    (inside : i < table.currentClientCount.toNat) :
    (((table.clients.take (i + 1)).map OrganizedClientData.socket).filter (· ≠ selectedClient)) =
      ((table.clients.take i).map OrganizedClientData.socket).filter (· ≠ selectedClient) ++
        if (table.clients[i]?.getD default).socket ≠ selectedClient then
          [(table.clients[i]?.getD default).socket]
        else [] := by
  have allocated := formed.allocated
  have bounded := formed.countBounded
  have present : i < table.clients.length := by omega
  rw [List.take_succ_eq_append_getElem present, List.map_append, List.filter_append,
    List.getElem?_eq_getElem present, Option.getD_some, List.map_singleton, List.filter_singleton]
  simp

/-- The loop sends the message to the sockets of the others, in table order. -/
theorem sends_to_others (formed : table.WellFormed) :
    sendPublicMessage inputData selectedClient senderName table =
      (otherSockets selectedClient table).map fun socket =>
        ⟨socket, outboundMessage inputData senderName⟩ := by
  refine CountedLoop.iterate_invariant _ (fun i sent => sent =
    (((table.clients.take i).map OrganizedClientData.socket).filter (· ≠ selectedClient)).map
      fun socket => Sending.mk socket (outboundMessage inputData senderName)) _ rfl ?_
  rintro i inside sent rfl
  rw [others_up_to_succ formed inside, List.map_append]
  by_cases other : (table.clients[i]?.getD default).socket = selectedClient
  · simp [other]
  · simp [other]

/-- With distinct sockets each of the others is sent the message once. -/
theorem sent_once (inputData senderName : List UInt8) (formed : table.WellFormed)
    (distinct : (table.registered.map OrganizedClientData.socket).Nodup) {socket : Int}
    (among : socket ∈ otherSockets selectedClient table) :
    ((sendPublicMessage inputData selectedClient senderName table).filter
      fun sending => sending.socket = socket) =
        [⟨socket, outboundMessage inputData senderName⟩] := by
  have alone : (otherSockets selectedClient table).Nodup := distinct.filter _
  have own : (otherSockets selectedClient table).filter (· = socket) = [socket] := by
    rw [List.filter_eq, List.count_eq_one_of_mem alone among, List.replicate_one]
  rw [sends_to_others formed, List.filter_map]
  change ((otherSockets selectedClient table).filter (· = socket)).map _ = _
  rw [own, List.map_singleton]

/-- The message fits in its buffer exactly if name and text have no more than 94 bytes. -/
theorem message_whole_iff (inputData senderName : List UInt8) :
    outboundMessage inputData senderName = publicMessage (text senderName) (text inputData) ↔
      (text senderName).length + (text inputData).length ≤ 94 := by
  have marks : (literal "[").length = 1 ∧ (literal "]=> ").length = 4 := by decide
  have length : (publicMessage (text senderName) (text inputData)).length =
      (text senderName).length + (text inputData).length + 5 := by
    simp only [publicMessage, List.length_append, marks.1, marks.2]
    omega
  constructor
  · intro whole
    have cut : (outboundMessage inputData senderName).length ≤ 99 := List.length_take_le _ _
    rw [whole, length] at cut
    omega
  · intro short
    have fit : (publicMessage (text senderName) (text inputData)).length < bufferSize := by
      rw [length]
      change _ < 100
      omega
    exact CString.snprintf_of_fit fit

/-- The whole message is carried to exactly the others if and only if it fits in its buffer or
there is nobody else. The entries of the table have different numbers, and the table stays as
it is during the walk; `Broadcast` has the walk with removals in between. -/
theorem carries_to_others_iff (inputData senderName : List UInt8) (selectedClient : Int)
    {table : ClientTable OrganizedClientData} (formed : table.WellFormed)
    (distinct : (table.registered.map OrganizedClientData.socket).Nodup) :
    CarriesToOthers table selectedClient (publicMessage (text senderName) (text inputData))
        (sendPublicMessage inputData selectedClient senderName table) ↔
      (text senderName).length + (text inputData).length ≤ 94 ∨
        ∀ client ∈ table.registered, client.socket = selectedClient := by
  rw [← message_whole_iff]
  have among : ∀ client ∈ table.registered, client.socket ≠ selectedClient →
      client.socket ∈ otherSockets selectedClient table := by
    intro client member other
    exact List.mem_filter.mpr ⟨List.mem_map_of_mem member, by simpa using other⟩
  constructor
  · rintro ⟨once, _⟩
    by_cases nobody : ∀ client ∈ table.registered, client.socket = selectedClient
    · exact .inr nobody
    · simp only [not_forall] at nobody
      obtain ⟨client, member, other⟩ := nobody
      have sent := sent_once inputData senderName formed distinct (among client member other)
      rw [once client member other] at sent
      simp only [List.cons.injEq, Sending.mk.injEq, true_and, and_true] at sent
      exact .inl sent.symm
  · intro fitOrNobody
    constructor
    · intro client member other
      cases fitOrNobody with
      | inl whole =>
        rw [← whole]
        exact sent_once inputData senderName formed distinct (among client member other)
      | inr nobody => exact absurd (nobody client member) other
    · intro sending member
      rw [sends_to_others formed] at member
      obtain ⟨socket, other, rfl⟩ := List.mem_map.mp member
      obtain ⟨registered, different⟩ := List.mem_filter.mp other
      exact ⟨by simpa using different, registered⟩

/-- A name and a text of fifty bytes do not fit together. -/
theorem long_message_cut_off :
    ¬ ∀ (inputData senderName : List UInt8) (selectedClient : Int)
      (table : ClientTable OrganizedClientData), table.WellFormed →
      (table.registered.map OrganizedClientData.socket).Nodup →
      selectedClient ∈ table.registered.map OrganizedClientData.socket →
      inputData.length = bufferSize → 0 ∈ inputData →
      senderName.length = bufferSize → 0 ∈ senderName →
      CarriesToOthers table selectedClient (publicMessage (text senderName) (text inputData))
        (sendPublicMessage inputData selectedClient senderName table) := by
  intro always
  have formed : threeClients.WellFormed := ⟨by decide, by decide, by decide⟩
  have carried := always (List.replicate 50 'm'.toUInt8 ++ List.replicate 50 0)
    (List.replicate 50 'n'.toUInt8 ++ List.replicate 50 0) 4 threeClients formed
    (by decide) (by decide) (by decide) (by decide) (by decide) (by decide)
  have sent := sent_once (List.replicate 50 'm'.toUInt8 ++ List.replicate 50 0)
    (List.replicate 50 'n'.toUInt8 ++ List.replicate 50 0) formed (by decide)
    (by decide : (5 : Int) ∈ otherSockets 4 threeClients)
  rw [carried.once ⟨5, ['b'.toUInt8, 0]⟩ (by decide) (by decide)] at sent
  simp only [List.cons.injEq, Sending.mk.injEq, true_and, and_true] at sent
  exact absurd ((message_whole_iff _ _).mp sent.symm) (by decide)

/-- A short message goes to the two others of three clients. -/
theorem short_message_carried :
    CarriesToOthers threeClients 4 (publicMessage ['a'.toUInt8] ['h'.toUInt8, 'i'.toUInt8])
      (sendPublicMessage ['h'.toUInt8, 'i'.toUInt8, 0] 4 ['a'.toUInt8, 0] threeClients) :=
  (carries_to_others_iff ['h'.toUInt8, 'i'.toUInt8, 0] ['a'.toUInt8, 0] 4
    (by exact ⟨by decide, by decide, by decide⟩ : threeClients.WellFormed) (by decide)).mpr
      (.inl (by decide))

end HelperChat
