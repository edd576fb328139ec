import HelperChat.ThreadBuffers

/-!
# What a client thread broadcasts

The loop of `clientThreadSplitFunction` for one client, pass by pass. The helper's reply is
received into `outputBufferBoi` without a terminator. In every pass but the first the buffer
was cleared behind the previous message; in the first one it holds what was in memory.
-/

namespace HelperChat

open CString (literal store text)
open CountedLoop (writeAll)

/-- A reply of the helper that is a string and leaves room for a NUL. -/
structure ReplyText where
  bytes : List UInt8
  nonempty : bytes ≠ []
  short : bytes.length < bufferSize
  noNul : 0 ∉ bytes

/-- The reply as the bytes that `recv` returns. -/
def ReplyText.received (reply : ReplyText) : ReceivedBytes :=
  ⟨reply.bytes, reply.nonempty, Nat.le_of_lt reply.short⟩

/-- A message of the client and the helper's reply to it. -/
structure Exchange where
  message : ReceivedBytes
  reply : ReplyText

namespace ClientThread

/-- The string that `sendPublicMessage` gets in a pass: without a NUL in `outputBufferBoi` it
goes on in the memory behind. -/
def publicText (thread : ClientThread) (reply : ReplyText) (memory : List UInt8) : List UInt8 :=
  text (writeAll thread.outputBufferBoi 0 reply.bytes ++ memory)

/-- The thread after a pass. -/
def pass (thread : ClientThread) (exchange : Exchange) : ClientThread :=
  { thread with
    dataWeWantToSend := store thread.dataWeWantToSend exchange.message.bytes
    outputBufferBoi := List.replicate bufferSize 0 }

/-- The strings that `sendPublicMessage` gets, pass by pass. The memory behind the buffer may
be another one in each pass. -/
def publicTexts : ClientThread → (Nat → List UInt8) → List Exchange → List (List UInt8)
  | _, _, [] => []
  | thread, memory, exchange :: rest =>
      thread.publicText exchange.reply (memory 0) ::
        (thread.pass exchange).publicTexts (fun number => memory (number + 1)) rest

end ClientThread

/-- Two runs of the loop broadcast the same, and that is the helper's replies. -/
structure NoStaleBytes (first second : ClientThread) (firstMemory secondMemory : Nat → List UInt8)
    (exchanges : List Exchange) : Prop where
  same : first.publicTexts firstMemory exchanges = second.publicTexts secondMemory exchanges
  replies : first.publicTexts firstMemory exchanges =
    exchanges.map fun exchange => exchange.reply.bytes

/-- The buffer holds a NUL where the reply ends. -/
def ReplyText.EndsIn (reply : ReplyText) (outputBufferBoi : List UInt8) : Prop :=
  outputBufferBoi[reply.bytes.length]? = some 0

instance (reply : ReplyText) (outputBufferBoi : List UInt8) :
    Decidable (reply.EndsIn outputBufferBoi) :=
  inferInstanceAs (Decidable (_ = _))

variable {thread first second : ClientThread}

/-- A pass is the thread's step at the client's message and the one at the helper's reply. -/
theorem pass_steps (table : ClientTable OrganizedClientData) (exchange : Exchange)
    (stands : thread.phase = .toReceive) :
    ∃ waiting bufferUses,
      threadStep table thread (.received exchange.message) = some (table, waiting, bufferUses) ∧
      threadStep table waiting (.replied exchange.reply.received) =
        some (table, thread.pass exchange, [.passed thread.origSender,
          .passed (writeAll thread.outputBufferBoi 0 exchange.reply.bytes)]) := by
  obtain ⟨clientSocketID, dataWeWantToSend, origSender, outputBufferBoi, phase⟩ := thread
  obtain rfl : phase = .toReceive := stands
  exact ⟨_, _, rfl, rfl⟩

/-- The messages and replies as events of the server's only client thread. -/
def Exchange.turns (exchange : Exchange) : List (Nat × ThreadEvent) :=
  [(0, .received exchange.message), (0, .replied exchange.reply.received)]

/-- The passes are a run of the server. -/
theorem passes_run (table : ClientTable OrganizedClientData) (bufferUses : List BufferUse)
    (exchanges : List Exchange) (stands : thread.phase = .toReceive) :
    ∃ later, TransitionSystem.run threadedServerStep ⟨table, [thread], bufferUses⟩
        (exchanges.flatMap Exchange.turns) =
      some ⟨table, [exchanges.foldl ClientThread.pass thread], bufferUses ++ later⟩ := by
  induction exchanges generalizing thread bufferUses with
  | nil => exact ⟨[], by simp⟩
  | cons exchange rest inductionHypothesis =>
    obtain ⟨waiting, received, first, second⟩ := pass_steps table exchange stands
    have standsAgain : (thread.pass exchange).phase = .toReceive := stands
    let replied : List BufferUse := [.passed thread.origSender,
      .passed (writeAll thread.outputBufferBoi 0 exchange.reply.bytes)]
    obtain ⟨later, ran⟩ := inductionHypothesis (bufferUses ++ received ++ replied) standsAgain
    refine ⟨received ++ replied ++ later, ?_⟩
    simpa [Exchange.turns, threadedServerStep, first, second, replied] using ran

/-- A pass keeps the sizes of the arrays. -/
theorem ClientThread.Allocated.pass (allocated : thread.Allocated) (exchange : Exchange) :
    (thread.pass exchange).Allocated :=
  ⟨by simpa [ClientThread.pass] using allocated.data, allocated.sender, List.length_replicate⟩

/-- In a pass the reply is broadcast exactly if it ends in the buffer. -/
theorem ClientThread.Allocated.public_text_iff (allocated : thread.Allocated) (reply : ReplyText)
    (behind : List UInt8) :
    thread.publicText reply behind = reply.bytes ↔ reply.EndsIn thread.outputBufferBoi := by
  have inside : reply.bytes.length < thread.outputBufferBoi.length :=
    Nat.lt_of_lt_of_eq reply.short allocated.output.symm
  rw [ReplyText.EndsIn, ClientThread.publicText, CountedLoop.write_all_start (Nat.le_of_lt inside),
    List.drop_eq_getElem_cons inside, List.append_assoc, List.cons_append,
    CString.text_append_eq_self_iff reply.noNul, List.getElem?_eq_getElem inside, Option.some_inj]

/-- In the cleared buffer every reply ends. -/
theorem ends_in_cleared (reply : ReplyText) : reply.EndsIn (List.replicate bufferSize 0) := by
  rw [ReplyText.EndsIn, List.getElem?_replicate, if_pos reply.short]

/-- The replies are broadcast exactly if the first one ends in the buffer that the loop finds. -/
theorem ClientThread.Allocated.public_texts_iff (allocated : thread.Allocated)
    (memory : Nat → List UInt8) (exchanges : List Exchange) :
    thread.publicTexts memory exchanges = (exchanges.map fun exchange => exchange.reply.bytes) ↔
      ∀ exchange ∈ exchanges.head?, exchange.reply.EndsIn thread.outputBufferBoi := by
  induction exchanges generalizing thread memory with
  | nil => simp [ClientThread.publicTexts]
  | cons exchange rest inductionHypothesis =>
    have later : (thread.pass exchange).publicTexts (fun number => memory (number + 1)) rest =
        rest.map fun exchange => exchange.reply.bytes := by
      refine (inductionHypothesis (allocated.pass exchange) _).mpr ?_
      intro next _
      exact ends_in_cleared next.reply
    rw [ClientThread.publicTexts, later, List.map_cons, List.cons.injEq,
      allocated.public_text_iff exchange.reply (memory 0)]
    simp

/-- Two runs with the same messages and replies broadcast the replies exactly if both find a NUL
in their buffer where the first reply ends. The buffers of the two may hold anything else, and
so may the memory behind them at every call. From the second reply on the buffer is cleared. -/
theorem no_stale_bytes_iff (firstAllocated : first.Allocated) (secondAllocated : second.Allocated)
    (firstMemory secondMemory : Nat → List UInt8) (exchanges : List Exchange) :
    NoStaleBytes first second firstMemory secondMemory exchanges ↔
      ∀ exchange ∈ exchanges.head?, exchange.reply.EndsIn first.outputBufferBoi ∧
        exchange.reply.EndsIn second.outputBufferBoi := by
  have firstReplies := firstAllocated.public_texts_iff firstMemory exchanges
  have secondReplies := secondAllocated.public_texts_iff secondMemory exchanges
  constructor
  · rintro ⟨same, replies⟩ exchange leads
    exact ⟨firstReplies.mp replies exchange leads,
      secondReplies.mp (same.symm.trans replies) exchange leads⟩
  · intro ends
    have exact : first.publicTexts firstMemory exchanges = _ :=
      firstReplies.mpr fun exchange leads => (ends exchange leads).1
    have alsoExact : second.publicTexts secondMemory exchanges = _ :=
      secondReplies.mpr fun exchange leads => (ends exchange leads).2
    exact ⟨exact.trans alsoExact.symm, exact⟩

/-- A thread in its loop, with some contents of `outputBufferBoi`. -/
def loopingThread (outputBufferBoi : List UInt8) : ClientThread :=
  ⟨4, List.replicate bufferSize 0, List.replicate bufferSize 0, outputBufferBoi, .toReceive⟩

/-- A message and its reply. -/
def greeting : Exchange :=
  ⟨⟨literal "hey\n", by decide, by decide⟩, ⟨literal "hEy\n", by decide, by decide, by decide⟩⟩

/-- With memory that contains no NUL the first reply is broadcast with what was behind it. -/
theorem first_reply_with_stale_bytes :
    ¬ ∀ (first second : ClientThread) (firstMemory secondMemory : Nat → List UInt8)
      (exchanges : List Exchange), first.Allocated → second.Allocated →
      second = { first with outputBufferBoi := second.outputBufferBoi } →
      NoStaleBytes first second firstMemory secondMemory exchanges := by
  intro always
  have clean := always (loopingThread (List.replicate bufferSize 'x'.toUInt8))
    (loopingThread (List.replicate bufferSize 0)) (fun _ => [0]) (fun _ => [0]) [greeting]
    ⟨by decide, by decide, by decide⟩ ⟨by decide, by decide, by decide⟩ rfl
  exact absurd clean.replies (by decide)

/-- After a first reply that ends in both buffers a later one is broadcast without stale bytes
as well. -/
theorem replies_without_stale_bytes :
    NoStaleBytes (loopingThread (List.replicate bufferSize 0))
      (loopingThread (literal "old" ++ List.replicate 97 0)) (fun _ => [1]) (fun _ => [2])
      [greeting, greeting] := by
  have cleared : (loopingThread (List.replicate bufferSize 0)).Allocated :=
    ⟨by decide, by decide, by decide⟩
  have used : (loopingThread (literal "old" ++ List.replicate 97 0)).Allocated :=
    ⟨by decide, by decide, by decide⟩
  exact (no_stale_bytes_iff cleared used (fun _ => [1]) (fun _ => [2]) [greeting, greeting]).mpr
    (by decide)

end HelperChat
