import HelperChat.HelperRun
import HelperChat.SerialDecoder

/-!
# The helper's reply

A round of the helper in which the threads of each queue run one after another, in any
order. The reply is the chunk in upper-case vowels up to its last byte. The newline is
put at the end of the padding, so the last byte of the reply is a newline only if there
is no padding behind the chunk; otherwise it is a space of the padding.
-/

namespace HelperChat

/-- The thread loop, the six runs on each queue one after another. -/
def decodeQueues (tempMemory : Nat → Nat → Nat → UInt8) (order : Nat → List Nat)
    (state : HelperState) : HelperState :=
  { state with
    queues := state.queues.mapIdx fun i queue => serverDecoders (tempMemory i) (order i) queue }

/-- A round for a received chunk, up to the freed queues. -/
def serveChunk (memory : Nat → Nat → UInt8) (tempMemory : Nat → Nat → Nat → UInt8)
    (order : Nat → List Nat) (datastreamFromMainServer : List UInt8) (state : HelperState) :
    HelperState :=
  dequeueChunk datastreamFromMainServer.length
    (decodeQueues tempMemory order (enqueueChunk memory datastreamFromMainServer state))

/-- What the round sends back. -/
def chunkReply (memory : Nat → Nat → UInt8) (tempMemory : Nat → Nat → Nat → UInt8)
    (order : Nat → List Nat) (datastreamFromMainServer : List UInt8) (state : HelperState) :
    List UInt8 :=
  serverEncoder (serveChunk memory tempMemory order datastreamFromMainServer state).uppercasedBuffer
    datastreamFromMainServer.length

/-- The reply in closed form. -/
def helperResult (chunk : List UInt8) : List UInt8 :=
  if chunk = [] then []
  else chunk.dropLast.map uppercaseVowel ++
    [if sizeOfQueue ∣ chunk.length then '\n'.toUInt8 else ' '.toUInt8]

/-- The reply has as many bytes as the chunk. -/
@[simp] theorem helper_result_length (chunk : List UInt8) :
    (helperResult chunk).length = chunk.length := by
  unfold helperResult
  split
  case isTrue empty => simp [empty]
  case isFalse nonempty =>
    have positive : 0 < chunk.length := List.length_pos_iff.mpr nonempty
    simp
    omega

/-- The bytes of a queue before its threads start. -/
def sourceRow (datastreamFromMainServer : List UInt8) (row : Nat) : List UInt8 :=
  (List.range sizeOfQueue).map fun column =>
    sourceByte datastreamFromMainServer (sizeOfQueue * row + column)

/-- The bytes of a queue in upper-case vowels. -/
def uppercasedRow (datastreamFromMainServer : List UInt8) (row : Nat) : List UInt8 :=
  (sourceRow datastreamFromMainServer row).map uppercaseVowel

/-- The filled queues hold the rows of the chunk. -/
theorem enqueued_rows (memory : Nat → Nat → UInt8) (datastreamFromMainServer : List UInt8)
    (state : HelperState) :
    Rows (sourceRow datastreamFromMainServer) (numberOfQueues datastreamFromMainServer.length)
      (enqueueChunk memory datastreamFromMainServer state) := by
  have filled := enqueue_filled memory datastreamFromMainServer state
  refine ⟨filled.count, ?_⟩
  intro row inside
  have held := filled.queues row inside
  rw [visited_all inside] at held
  exact held

/-- The rows that the threads leave: the filled ones in upper-case vowels. -/
theorem decoded_rows (memory : Nat → Nat → UInt8) (tempMemory : Nat → Nat → Nat → UInt8)
    {order : Nat → List Nat} (complete : ∀ i, ∀ number ∈ threadNumbers, number ∈ order i)
    (datastreamFromMainServer : List UInt8) (state : HelperState) :
    Rows (uppercasedRow datastreamFromMainServer) (numberOfQueues datastreamFromMainServer.length)
      (decodeQueues tempMemory order (enqueueChunk memory datastreamFromMainServer state)) := by
  have enqueued := enqueued_rows memory datastreamFromMainServer state
  constructor
  · simpa [decodeQueues] using enqueued.count
  · intro row inside
    have held := enqueued.queues row inside
    have present : row < (enqueueChunk memory datastreamFromMainServer state).queues.length :=
      enqueued.count ▸ inside
    have decoded :
        (decodeQueues tempMemory order
          (enqueueChunk memory datastreamFromMainServer state)).queue row =
        serverDecoders (tempMemory row) (order row)
          ((enqueueChunk memory datastreamFromMainServer state).queue row) := by
      simp [HelperState.queue, decodeQueues, present]
    obtain ⟨formed, size, entries⟩ :=
      server_decoders_entries (tempMemory row) (order row) held.formed
    rw [decoded]
    refine ⟨formed, size.trans held.size, ?_⟩
    rw [entries, held.entries, uppercasedRow]
    apply List.map_congr_left
    intro char _
    exact switches_uppercase (complete row) _ char

/-- The rows hold the source's bytes by their positions. -/
theorem uppercased_row_byte (chunk : List UInt8) (index : Nat) :
    (uppercasedRow chunk (index / sizeOfQueue)).getD (index % sizeOfQueue) 0 =
      uppercaseVowel (sourceByte chunk index) := by
  have column : index % sizeOfQueue < sizeOfQueue := Nat.mod_lt _ (by decide)
  simp [uppercasedRow, sourceRow, column, Nat.div_add_mod]

/-- A place of the reply before its last byte holds the chunk's byte there. -/
theorem reply_byte_before {chunk : List UInt8} {index : Nat} (before : index + 1 < chunk.length) :
    replyByte (uppercasedRow chunk) chunk.length index =
      uppercaseVowel (chunk.getD index 0) := by
  have notLast : index ≠ lastWritten chunk.length := by
    unfold lastWritten numberOfQueues sizeOfQueue
    omega
  have data : index < chunk.length - 1 := by omega
  rw [replyByte, if_neg notLast, uppercased_row_byte, sourceByte, if_pos data]

/-- The last byte of the reply is the newline or a space of the padding. -/
theorem reply_byte_last {chunk : List UInt8} {index : Nat} (last : index + 1 = chunk.length) :
    replyByte (uppercasedRow chunk) chunk.length index =
      if sizeOfQueue ∣ chunk.length then '\n'.toUInt8 else ' '.toUInt8 := by
  have newline : index = lastWritten chunk.length ↔ sizeOfQueue ∣ chunk.length := by
    unfold lastWritten numberOfQueues sizeOfQueue
    omega
  have padding : ¬ index < chunk.length - 1 := by omega
  have space : uppercaseVowel ' '.toUInt8 = ' '.toUInt8 := rfl
  rw [replyByte, uppercased_row_byte, sourceByte, if_neg padding, space]
  simp only [newline]

/-- Uppercased rows make the reply in closed form, whatever the buffer held before. -/
theorem Rows.helper_result {chunk : List UInt8} {state : HelperState}
    (rows : Rows (uppercasedRow chunk) (numberOfQueues chunk.length) state)
    (nonempty : 1 ≤ chunk.length) (short : chunk.length ≤ bufferSize)
    (buffer : state.uppercasedBuffer.length = bufferSize) :
    serverEncoder (dequeueChunk chunk.length state).uppercasedBuffer chunk.length =
      helperResult chunk := by
  obtain ⟨before, length⟩ : ∃ before, chunk.length = before + 1 := ⟨chunk.length - 1, by omega⟩
  have places : List.range chunk.length = List.range before ++ [before] := by
    rw [length, List.range_succ]
  have some : chunk ≠ [] := List.length_pos_iff.mp nonempty
  rw [rows.reply short buffer, places, List.map_append, List.map_singleton,
    reply_byte_last length.symm, helperResult, if_neg some]
  congr 1
  refine List.ext_getElem (by simp [length]) ?_
  intro index inside _
  have beforeLast : index < before := by simpa using inside
  simp [reply_byte_before (by omega : index + 1 < chunk.length),
    (by omega : index < chunk.length)]

/-- The reply to a chunk of any length depends on the chunk only. -/
theorem chunk_reply_eq (memory : Nat → Nat → UInt8) (tempMemory : Nat → Nat → Nat → UInt8)
    {order : Nat → List Nat} (complete : ∀ i, ∀ number ∈ threadNumbers, number ∈ order i)
    {chunk : List UInt8} (nonempty : 1 ≤ chunk.length) (short : chunk.length ≤ bufferSize)
    {state : HelperState} (buffer : state.uppercasedBuffer.length = bufferSize) :
    chunkReply memory tempMemory order chunk state = helperResult chunk := by
  have kept : (decodeQueues tempMemory order
      (enqueueChunk memory chunk state)).uppercasedBuffer.length = bufferSize := by
    rw [decodeQueues, enqueue_buffer]
    exact buffer
  exact (decoded_rows memory tempMemory complete chunk state).helper_result nonempty short kept

/-- A line of at most 95 bytes comes back in upper-case vowels and otherwise unchanged
exactly if its length is a multiple of the queue size. The buffers may hold anything before,
and the six threads of a queue run one after another, in an order of their own for each queue;
runs in which they disturb each other are left to `HelperOrigin`. -/
theorem reply_uppercases_iff (memory : Nat → Nat → UInt8) (tempMemory : Nat → Nat → Nat → UInt8)
    {order : Nat → List Nat} (each : ∀ i, (order i).Perm threadNumbers) {message : List UInt8}
    (short : message.length ≤ 95) (line : message.getLast? = some '\n'.toUInt8)
    {state : HelperState} (buffer : state.uppercasedBuffer.length = bufferSize) :
    chunkReply memory tempMemory order message state = message.map uppercaseVowel ↔
      5 ∣ message.length := by
  obtain ⟨body, rfl⟩ := List.getLast?_eq_some_iff.mp line
  have complete : ∀ i, ∀ number ∈ threadNumbers, number ∈ order i :=
    fun i number among => (each i).mem_iff.mpr among
  have newline : uppercaseVowel '\n'.toUInt8 = '\n'.toUInt8 := rfl
  have different : ' '.toUInt8 ≠ '\n'.toUInt8 := by decide
  rw [chunk_reply_eq memory tempMemory complete (by simp)
    (Nat.le_trans short (by decide)) buffer, helperResult, if_neg (by simp), List.map_append,
    List.map_singleton, newline, List.dropLast_concat, List.append_cancel_left_eq]
  change _ ↔ sizeOfQueue ∣ (body ++ ['\n'.toUInt8]).length
  by_cases whole : sizeOfQueue ∣ (body ++ ['\n'.toUInt8]).length
  · rw [if_pos whole]
    exact iff_of_true rfl whole
  · rw [if_neg whole, List.singleton_inj]
    exact iff_of_false different whole

/-- The line `hi` comes back with a space in the place of its newline. -/
theorem newline_lost_to_padding :
    ¬ ∀ (memory : Nat → Nat → UInt8) (tempMemory : Nat → Nat → Nat → UInt8)
      (order : Nat → List Nat) (message : List UInt8) (state : HelperState),
      (∀ i, (order i).Perm threadNumbers) → message.length ≤ 95 →
      message.getLast? = some '\n'.toUInt8 → 0 ∉ message →
      state.uppercasedBuffer.length = bufferSize →
      chunkReply memory tempMemory order message state = message.map uppercaseVowel := by
  intro always
  have reply : chunkReply (fun _ _ => 0) (fun _ _ _ => 0) (fun _ => threadNumbers)
      ['h'.toUInt8, 'i'.toUInt8, '\n'.toUInt8] startHelper.locals =
        ['h'.toUInt8, 'I'.toUInt8, ' '.toUInt8] := by
    decide +kernel
  have uppercased := always (fun _ _ => 0) (fun _ _ _ => 0) (fun _ => threadNumbers)
    ['h'.toUInt8, 'i'.toUInt8, '\n'.toUInt8] startHelper.locals (fun _ => List.Perm.refl _)
    (by decide) rfl (by decide) (by decide)
  exact absurd (reply.symm.trans uppercased) (by decide)

/-- The line `halo` has five bytes with its newline and comes back whole. -/
theorem newline_kept_without_padding :
    chunkReply (fun _ _ => 0) (fun _ _ _ => 0) (fun _ => threadNumbers)
        ['h'.toUInt8, 'a'.toUInt8, 'l'.toUInt8, 'o'.toUInt8, '\n'.toUInt8] startHelper.locals =
      ['h'.toUInt8, 'a'.toUInt8, 'l'.toUInt8, 'o'.toUInt8, '\n'.toUInt8].map uppercaseVowel :=
  (reply_uppercases_iff (fun _ _ => 0) (fun _ _ _ => 0) (fun _ => List.Perm.refl _) (by decide) rfl
    (by decide)).mpr (by decide)

end HelperChat
