import HelperChat.HelperReply

/-!
# The helper over a history of requests

Rounds of the helper one after another, on a global buffer that none of them clears. In
each round the threads of a queue run one after another, in any order.

The fill loop finds room for every byte and leaves full queues, the drain loop finds every
queue nonempty, and the bytes of a reply are written in the round of its request. So the
reply is determined by the request.
-/

namespace HelperChat

open CountedLoop (iterate)

/-- A request: the received chunk, the memory of the queues, and an order of the six
threads of each queue. -/
structure HelperRequest where
  chunk : List UInt8
  memory : Nat → Nat → UInt8
  tempMemory : Nat → Nat → Nat → UInt8
  order : Nat → List Nat
  nonempty : 1 ≤ chunk.length
  fits : chunk.length ≤ bufferSize
  each : ∀ i, (order i).Perm threadNumbers

namespace HelperRequest

/-- The queues after the fill loop. -/
def enqueued (request : HelperRequest) (state : HelperState) : HelperState :=
  enqueueChunk request.memory request.chunk state

/-- The queues after the threads. -/
def decoded (request : HelperRequest) (state : HelperState) : HelperState :=
  decodeQueues request.tempMemory request.order (request.enqueued state)

/-- The whole round. -/
def serve (request : HelperRequest) (state : HelperState) : HelperState :=
  serveChunk request.memory request.tempMemory request.order request.chunk state

/-- What the round sends back. -/
def reply (request : HelperRequest) (state : HelperState) : List UInt8 :=
  chunkReply request.memory request.tempMemory request.order request.chunk state

/-- The state in which the fill loop is about to add for `i` and `j`. -/
def fillingAt (request : HelperRequest) (state : HelperState) (i j : Nat) : HelperState :=
  iterate (fun _ => fillStep request.chunk i) j
    (iterate (fun i => iterate (fun _ => fillStep request.chunk i) sizeOfQueue) i
      (setupQueues request.memory request.chunk.length state))

/-- The state in which the drain loop is about to remove for `i` and `j`. -/
def drainingAt (request : HelperRequest) (state : HelperState) (i j : Nat) : HelperState :=
  iterate (fun _ => drainStep request.chunk.length i) j
    (iterate (fun i => iterate (fun _ => drainStep request.chunk.length i) sizeOfQueue) i
      { request.decoded state with counter := 0 })

end HelperRequest

/-- The rounds for the requests one after another. -/
def serveHistory (history : List HelperRequest) (state : HelperState) : HelperState :=
  history.foldl (fun current request => request.serve current) state

variable (request : HelperRequest)

/-- Every thread number occurs in every order. -/
theorem HelperRequest.complete : ∀ i, ∀ number ∈ threadNumbers, number ∈ request.order i :=
  fun i _ among => (request.each i).mem_iff.mpr among

/-- The queue that the fill loop adds to has room. -/
theorem HelperRequest.filling_room (state : HelperState) {i j : Nat}
    (row : i < numberOfQueues request.chunk.length) (column : j < sizeOfQueue)
    (dataToAppend : UInt8) :
    (addToTheQueue ((request.fillingAt state i j).queue i) dataToAppend).1 = true := by
  have filled : Filled request.chunk (WithinBounds state.accesses) (sizeOfQueue * i + j)
      (request.fillingAt state i j) :=
    CountedLoop.nested_invariant_at (fun row _ => fillStep request.chunk row) _ row
      (Nat.le_of_lt column) (setup_filled request.memory request.chunk state)
      (fun _ rowInside _ columnInside _ filled => filled.step rowInside columnInside)
  have held := filled.queues i row
  rw [visited_row (Nat.le_of_lt column)] at held
  have short : ((request.fillingAt state i j).queue i).entries.length ≠
      ((request.fillingAt state i j).queue i).size := by
    rw [held.entries, held.size, List.length_map, List.length_range]
    exact Nat.ne_of_lt column
  exact (held.formed.add_entries dataToAppend).1.trans (decide_eq_true short)

/-- The fill loop leaves full queues. -/
theorem HelperRequest.enqueued_full (state : HelperState) {i : Nat}
    (row : i < numberOfQueues request.chunk.length) :
    ((request.enqueued state).queue i).countOfEntries =
      ((request.enqueued state).queue i).size := by
  have held : Holds ((request.enqueued state).queue i) (sourceRow request.chunk i) :=
    (enqueued_rows request.memory request.chunk state).queues i row
  apply held.formed.full_iff.mpr
  rw [held.entries, held.size]
  simp [sourceRow]

/-- The queue that the drain loop removes from is not empty. -/
theorem HelperRequest.draining_nonempty (state : HelperState) {i j : Nat}
    (row : i < numberOfQueues request.chunk.length) (column : j < sizeOfQueue) :
    ((request.drainingAt state i j).queue i).countOfEntries ≠ 0 := by
  have rows := decoded_rows request.memory request.tempMemory request.complete request.chunk state
  have drained : Drained (uppercasedRow request.chunk) (request.decoded state).uppercasedBuffer
      (WithinBounds (request.decoded state).accesses) (numberOfQueues request.chunk.length)
      (sizeOfQueue * i + j) (request.drainingAt state i j) :=
    CountedLoop.nested_invariant_at (fun row _ => drainStep request.chunk.length row) _ row
      (Nat.le_of_lt column) rows.drain_start
      (fun _ rowInside _ columnInside _ drained =>
        drained.step rowInside columnInside request.fits)
  have held := drained.queues i row
  rw [visited_row (Nat.le_of_lt column)] at held
  intro empty
  have nothing := (held.formed.empty_iff.mp empty).symm.trans held.entries
  have length := congrArg List.length nothing
  simp [uppercasedRow, sourceRow] at length
  omega

/-- Since a point in the log all places of the buffer below a given one were written. -/
def Wrote (before : List Access) (count : Nat) (state : HelperState) : Prop :=
  ∃ made, state.accesses = before ++ made ∧ ∀ k < count, .uppercased k ∈ made

/-- Further accesses do not take the earlier ones out of the log. -/
theorem Wrote.append {before more : List Access} {count : Nat} {state next : HelperState}
    (wrote : Wrote before count state) (logged : next.accesses = state.accesses ++ more) :
    Wrote before count next := by
  obtain ⟨made, log, written⟩ := wrote
  refine ⟨made ++ more, ?_, ?_⟩
  · rw [logged, log, List.append_assoc]
  · intro k below
    exact List.mem_append_left more (written k below)

/-- A write to the next place. -/
theorem Wrote.next {before more : List Access} {count : Nat} {state next : HelperState}
    (wrote : Wrote before count state)
    (logged : next.accesses = state.accesses ++ more ++ [.uppercased count]) :
    Wrote before (count + 1) next := by
  obtain ⟨made, log, written⟩ := wrote
  refine ⟨made ++ more ++ [.uppercased count], ?_, ?_⟩
  · rw [logged, log]
    simp
  · intro k below
    rcases Nat.lt_succ_iff_lt_or_eq.mp below with earlier | rfl
    · exact List.mem_append_left _ (List.mem_append_left _ (written k earlier))
    · simp

/-- The fill loop only adds to the log. -/
theorem enqueue_wrote (memory : Nat → Nat → UInt8) (datastreamFromMainServer : List UInt8)
    (state : HelperState) :
    Wrote state.accesses 0 (enqueueChunk memory datastreamFromMainServer state) := by
  refine CountedLoop.nested_invariant (fun row _ => fillStep datastreamFromMainServer row)
    (fun _ => Wrote state.accesses 0) _ _ ⟨_, rfl, by simp⟩ ?_
  intro row _ column _ current wrote
  by_cases data : current.indexfortheinputdata < datastreamFromMainServer.length - 1
  · exact wrote.append (by simp only [fillStep, if_pos data]; rfl)
  · exact wrote.append (by simp only [fillStep, if_neg data]; rfl)

/-- The drain loop writes every place that it goes through. -/
theorem drain_wrote (dataBytesIncoming : Nat) {before : List Access} {state : HelperState}
    (initially : Wrote before 0 state) :
    Wrote before (sizeOfQueue * numberOfQueues dataBytesIncoming)
      (drainQueues dataBytesIncoming state) := by
  have rewound : Wrote before 0 { state with counter := 0 } :=
    initially.append (List.append_nil _).symm
  have written : (drainQueues dataBytesIncoming state).counter =
      sizeOfQueue * numberOfQueues dataBytesIncoming ∧
      Wrote before (sizeOfQueue * numberOfQueues dataBytesIncoming)
        (drainQueues dataBytesIncoming state) := by
    refine CountedLoop.nested_invariant (fun row _ => drainStep dataBytesIncoming row)
      (fun position current => current.counter = position ∧ Wrote before position current) _ _
      ⟨rfl, rewound⟩ ?_
    rintro row _ column _ current ⟨counter, wrote⟩
    constructor
    · exact congrArg (· + 1) counter
    · rw [← counter] at wrote ⊢
      exact wrote.next rfl
  exact written.2

/-- All bytes of a reply are written in its round. -/
theorem HelperRequest.reply_written (state : HelperState) :
    Wrote state.accesses request.chunk.length (request.serve state) := by
  have covered : request.chunk.length ≤ sizeOfQueue * numberOfQueues request.chunk.length := by
    unfold numberOfQueues sizeOfQueue
    omega
  have decoded : Wrote state.accesses 0 (request.decoded state) :=
    enqueue_wrote request.memory request.chunk state
  have drained := drain_wrote request.chunk.length decoded
  have terminated : Wrote state.accesses _
      (terminateBuffer (drainQueues request.chunk.length (request.decoded state))) :=
    drained.append rfl
  obtain ⟨made, log, written⟩ : Wrote state.accesses _ (request.serve state) :=
    terminated.append rfl
  exact ⟨made, log, fun k below => written k (Nat.lt_of_lt_of_le below covered)⟩

/-- A round keeps the length of the global buffer. -/
theorem HelperRequest.serve_length (state : HelperState) :
    (request.serve state).uppercasedBuffer.length = state.uppercasedBuffer.length := by
  have rows := decoded_rows request.memory request.tempMemory request.complete request.chunk state
  have kept := enqueue_buffer request.memory request.chunk state
  exact (rows.dequeue_length request.fits).trans (congrArg List.length kept)

/-- A history keeps the length of the global buffer. -/
theorem history_length (history : List HelperRequest) (state : HelperState) :
    (serveHistory history state).uppercasedBuffer.length = state.uppercasedBuffer.length := by
  induction history generalizing state with
  | nil => rfl
  | cons request rest inductionHypothesis =>
    exact (inductionHypothesis (request.serve state)).trans (request.serve_length state)

/-- After any history the reply is the closed form of the chunk. -/
theorem HelperRequest.reply_eq (history : List HelperRequest) {state : HelperState}
    (buffer : state.uppercasedBuffer.length = bufferSize) :
    request.reply (serveHistory history state) = helperResult request.chunk :=
  chunk_reply_eq request.memory request.tempMemory request.complete request.nonempty request.fits
    ((history_length history state).trans buffer)

/-- Before its last byte the closed form has the chunk's bytes in upper-case vowels. -/
theorem helper_result_byte {chunk : List UInt8} {k : Nat} (before : k + 1 < chunk.length) :
    (helperResult chunk)[k]? = chunk[k]?.map uppercaseVowel := by
  have nonempty : chunk ≠ [] := List.length_pos_iff.mp (Nat.zero_lt_of_lt before)
  have inside : k < chunk.dropLast.length := by
    rw [List.length_dropLast]
    omega
  rw [helperResult, if_neg nonempty, List.getElem?_append_left (by simpa using inside),
    List.getElem?_map, List.getElem?_dropLast, if_pos (by omega)]

/-- In the round for a request after any history every addition of the fill loop succeeds
and fills the queues, no removal of the drain loop finds its queue empty, and the reply has
the request's length, is written in this round, has upper-case vowels up to its last byte
and is the one that any other history gives for the same chunk. -/
theorem reply_depends_on_request (history : List HelperRequest) (request : HelperRequest)
    (state : HelperState) (buffer : state.uppercasedBuffer.length = bufferSize) :
    let before := serveHistory history state
    (∀ i < numberOfQueues request.chunk.length, ∀ j < sizeOfQueue, ∀ dataToAppend,
      (addToTheQueue ((request.fillingAt before i j).queue i) dataToAppend).1 = true) ∧
      (∀ i < numberOfQueues request.chunk.length,
        ((request.enqueued before).queue i).countOfEntries =
          ((request.enqueued before).queue i).size) ∧
      (∀ i < numberOfQueues request.chunk.length, ∀ j < sizeOfQueue,
        ((request.drainingAt before i j).queue i).countOfEntries ≠ 0) ∧
      (request.reply before).length = request.chunk.length ∧
      Wrote before.accesses request.chunk.length (request.serve before) ∧
      (∀ k, k + 1 < request.chunk.length →
        (request.reply before)[k]? = request.chunk[k]?.map uppercaseVowel) ∧
      ∀ (others : List HelperRequest) (again : HelperRequest) (other : HelperState),
        other.uppercasedBuffer.length = bufferSize → again.chunk = request.chunk →
        again.reply (serveHistory others other) = request.reply before := by
  intro before
  have result : request.reply before = helperResult request.chunk :=
    request.reply_eq history buffer
  refine ⟨?_, ?_, ?_, ?_, ?_, ?_, ?_⟩
  · intro i row j column dataToAppend
    exact request.filling_room before row column dataToAppend
  · intro i row
    exact request.enqueued_full before row
  · intro i row j column
    exact request.draining_nonempty before row column
  · rw [result, helper_result_length]
  · exact request.reply_written before
  · intro k inside
    rw [result, helper_result_byte inside]
  · intro others again other otherBuffer same
    rw [result, again.reply_eq others otherBuffer, same]

/-- A request with all threads in the order of their numbers. -/
def orderedRequest (chunk : List UInt8) (nonempty : 1 ≤ chunk.length)
    (fits : chunk.length ≤ bufferSize) : HelperRequest where
  chunk := chunk
  memory := fun _ _ => 0
  tempMemory := fun _ _ _ => 0
  order := fun _ => threadNumbers
  nonempty := nonempty
  fits := fits
  each := fun _ => List.Perm.refl threadNumbers

/-- A short request after a longer one on a buffer full of other bytes. -/
theorem short_reply_after_long :
    (orderedRequest ['o'.toUInt8, '\n'.toUInt8] (by decide) (by decide)).reply
        (serveHistory [orderedRequest (List.replicate 9 'x'.toUInt8) (by decide) (by decide)]
          { startHelper.locals with uppercasedBuffer := List.replicate bufferSize 'y'.toUInt8 }) =
      (orderedRequest ['o'.toUInt8, '\n'.toUInt8] (by decide) (by decide)).reply
        startHelper.locals :=
  ((reply_depends_on_request [orderedRequest (List.replicate 9 'x'.toUInt8) (by decide) (by decide)]
    (orderedRequest ['o'.toUInt8, '\n'.toUInt8] (by decide) (by decide))
    { startHelper.locals with uppercasedBuffer := List.replicate bufferSize 'y'.toUInt8 }
    (by simp)).2.2.2.2.2.2 [] _ startHelper.locals (by decide) rfl).symm

end HelperChat
