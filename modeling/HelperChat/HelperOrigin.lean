import HelperChat.DrainRefillOrigin
import HelperChat.HelperReply
import Mathlib.Data.List.Forall2

/-!
# Where the bytes of a reply come from

The helper in any interleaving of its decoder threads, also in those in which they disturb
each other, lose bytes or put NULs into a queue. What they cannot do is to bring a byte from
one queue to another or from one chunk to the next: a byte of a reply is a NUL, or stems
from the bytes that were put into its own queue, or is the newline at the end of the padding.
-/

namespace HelperChat

/-- What the threads can make of the bytes of a row: the NUL of a removal from an emptied
queue, one of the bytes, or one in upper case. -/
def StemsFrom (row : List UInt8) (byte : UInt8) : Prop :=
  byte = 0 ∨ ∃ char ∈ row, byte = char ∨ byte = uppercaseVowel char

/-- A reply to a chunk: of its length, with the newline where the padding ends and other
bytes that stem from the rows they are in. -/
structure RepliesTo (chunk reply : List UInt8) : Prop where
  length : reply.length = chunk.length
  bytes : ∀ index byte, reply[index]? = some byte →
    (index = lastWritten chunk.length ∧ byte = '\n'.toUInt8) ∨
      StemsFrom (sourceRow chunk (index / sizeOfQueue)) byte

/-- While threads run on queue `i`, every queue holds bytes that stem from its own row, and
so do the threads. -/
structure Separate (helper : Helper) (i : Nat) (decoders : DecoderState)
    (finished : List (List UInt8)) (chunk : List UInt8) : Prop where
  received : helper.received = finished ++ [chunk]
  replied : List.Forall₂ RepliesTo finished helper.sent
  queues : ∀ k < numberOfQueues chunk.length, k ≠ i →
    ∀ byte ∈ (helper.locals.queue k).entries, StemsFrom (sourceRow chunk k) byte
  threads : ∀ byte ∈ DrainRefill.items decoders.pool, StemsFrom (sourceRow chunk i) byte

/-- The invariant of the helper's runs. -/
def Separated (helper : Helper) : Prop :=
  helper.locals.uppercasedBuffer.length = bufferSize ∧
    match helper.phase with
    | .receiving => List.Forall₂ RepliesTo helper.received helper.sent
    | .threading i decoders => ∃ finished chunk, Separate helper i decoders finished chunk

/-- The switch leaves a byte alone or makes it upper case. -/
theorem switch_case_either (number : Nat) (char : UInt8) :
    switchCase number char = char ∨ switchCase number char = uppercaseVowel char := by
  unfold switchCase
  split
  case h_6 => exact .inl rfl
  all_goals
    split
    case isTrue same => exact .inr (same ▸ rfl)
    case isFalse => exact .inl rfl

/-- An upper-case vowel is none of the five letters that the switch looks for. -/
theorem switch_case_uppercased (number : Nat) (char : UInt8) :
    switchCase number (uppercaseVowel char) = uppercaseVowel char := by
  by_cases vowel : uppercaseVowel char = char
  · rw [vowel]
    rcases switch_case_either number char with kept | upper
    · exact kept
    · exact upper.trans vowel
  · apply switch_case_upper
    unfold uppercaseVowel at vowel ⊢
    split_ifs at vowel ⊢ <;> simp_all

/-- The switch keeps the row that a byte stems from. -/
theorem StemsFrom.switch {row : List UInt8} {byte : UInt8} (stems : StemsFrom row byte)
    (number : Nat) : StemsFrom row (switchCase number byte) := by
  rcases stems with rfl | ⟨char, member, rfl | rfl⟩
  · left
    rcases switch_case_either number 0 with kept | upper
    · exact kept
    · exact upper.trans (by decide)
  · exact .inr ⟨_, member, switch_case_either number _⟩
  · exact .inr ⟨char, member, .inr (switch_case_uppercased number char)⟩

/-- The bytes of a row stem from it. -/
theorem stems_from_row {row : List UInt8} {byte : UInt8} (member : byte ∈ row) :
    StemsFrom row byte := .inr ⟨byte, member, .inl rfl⟩

/-- Threads that have just been created hold nothing beside their queue. -/
theorem created_items {queue : StructForQueueBoi} (formed : Formed queue)
    (tempMemory : Nat → Nat → UInt8) :
    DrainRefill.items (startThreads tempMemory queue threadNumbers).pool = queue.entries := by
  obtain ⟨bytes, holds⟩ := formed
  have pool : (startThreads tempMemory queue threadNumbers).pool = _ :=
    start_pool tempMemory ⟨queue, holds.formed⟩ threadNumbers
  have empty : ((DrainRefill.freshWorkers threadNumbers).flatMap DrainRefill.content :
      List UInt8) = [] := by
    decide
  rw [pool, DrainRefill.items, empty, List.append_nil]
  rfl

section Steps

variable {helper : Helper} {i : Nat} {decoders after : DecoderState}
  {finished : List (List UInt8)} {chunk : List UInt8}

/-- A received chunk is put into the queues row by row. -/
theorem receive_separated (separated : Separated helper) (receiving : helper.phase = .receiving)
    (nonempty : 1 ≤ chunk.length) (memory tempMemory : Nat → Nat → UInt8) :
    Separated (createThreads tempMemory 0 (helper.enqueued memory chunk)) := by
  obtain ⟨buffer, replied⟩ := separated
  simp only [receiving] at replied
  have rows := enqueued_rows memory chunk helper.locals
  have inside : 0 < numberOfQueues chunk.length := by
    unfold numberOfQueues sizeOfQueue
    omega
  constructor
  · exact (congrArg List.length (enqueue_buffer memory chunk helper.locals)).trans buffer
  · refine ⟨helper.received, chunk, rfl, replied, ?_, ?_⟩
    · intro k below _ byte member
      have entries : ((enqueueChunk memory chunk helper.locals).queue k).entries = _ :=
        (rows.queues k below).entries
      exact stems_from_row (entries ▸ member)
    · intro byte member
      have first := rows.queues 0 inside
      have items : DrainRefill.items (startThreads tempMemory
          ((enqueueChunk memory chunk helper.locals).queue 0) threadNumbers).pool = _ :=
        created_items ⟨_, first⟩ tempMemory
      change byte ∈ DrainRefill.items (startThreads tempMemory
        ((enqueueChunk memory chunk helper.locals).queue 0) threadNumbers).pool at member
      rw [items, first.entries] at member
      exact stems_from_row member

/-- A step of a thread keeps the bytes of its queue and of its threads together. -/
theorem Separate.thread {j : Nat} (separate : Separate helper i decoders finished chunk)
    (formed : QueuesFormed sizeOfQueue decoders) (advanced : decoderStep decoders j = some after) :
    Separate (helper.decoded i j decoders after) i after finished chunk := by
  refine ⟨separate.received, separate.replied, separate.queues, ?_⟩
  have stepped : DrainRefill.step (decoderTask sizeOfQueue) decoders.pool j = some after.pool := by
    rw [formed.pool_step, advanced, Option.map_some]
  exact DrainRefill.step_keeps_good (.inl rfl) (fun number byte stems => stems.switch number)
    separate.threads stepped

/-- After the joins every queue holds bytes that stem from its own row. -/
theorem Separate.joined (separate : Separate helper i decoders finished chunk)
    (threading : Threading helper i decoders finished chunk) :
    ∀ k < numberOfQueues chunk.length,
      ∀ byte ∈ ((helper.joined i decoders).locals.queue k).entries,
        StemsFrom (sourceRow chunk k) byte := by
  intro k below byte member
  rw [queue_replaced (rfl : (helper.joined i decoders).locals.queues = _)
    (threading.count ▸ threading.inside) k] at member
  by_cases same : k = i
  · subst same
    rw [if_pos rfl] at member
    exact separate.threads byte (List.mem_append_left _ member)
  · rw [if_neg same] at member
    exact separate.queues k below same byte member

/-- The next queue gets its threads. -/
theorem Separate.next_queue (separate : Separate helper i decoders finished chunk)
    (threading : Threading helper i decoders finished chunk)
    (more : i + 1 < numberOfQueues chunk.length) (tempMemory : Nat → Nat → UInt8) :
    Separate (createThreads tempMemory (i + 1) (helper.joined i decoders)) (i + 1)
      (startThreads tempMemory ((helper.joined i decoders).locals.queue (i + 1)) threadNumbers)
      finished chunk := by
  have joined := separate.joined threading
  refine ⟨separate.received, separate.replied, fun k below _ => joined k below, ?_⟩
  intro byte member
  rw [created_items (threading.joined.2 (i + 1) more)] at member
  exact joined (i + 1) more byte member

/-- The reply at the end of a round. -/
theorem Separate.reply (separate : Separate helper i decoders finished chunk)
    (threading : Threading helper i decoders finished chunk)
    (buffer : helper.locals.uppercasedBuffer.length = bufferSize) :
    Separated (helper.joined i decoders).replied := by
  obtain ⟨count, queues⟩ := threading.joined
  have joined := separate.joined threading
  have rows : Rows (fun k => ((helper.joined i decoders).locals.queue k).entries)
      (numberOfQueues chunk.length) (helper.joined i decoders).locals := by
    refine ⟨count, ?_⟩
    intro k below
    obtain ⟨bytes, holds⟩ := queues k below
    exact ⟨holds.formed, holds.size, rfl⟩
  have reply := rows.reply threading.short buffer
  constructor
  · change (dequeueChunk helper.dataBytesIncoming
      (helper.joined i decoders).locals).uppercasedBuffer.length = _
    rw [threading.current, rows.dequeue_length threading.short]
    exact buffer
  · change List.Forall₂ RepliesTo helper.received (helper.sent ++ [serverEncoder
      (dequeueChunk helper.dataBytesIncoming
        (helper.joined i decoders).locals).uppercasedBuffer helper.dataBytesIncoming])
    rw [threading.current, reply, separate.received]
    refine List.rel_append separate.replied (List.Forall₂.cons ⟨by simp, ?_⟩ List.Forall₂.nil)
    intro index byte found
    rw [List.getElem?_map] at found
    obtain ⟨place, isPlace, rfl⟩ := Option.map_eq_some_iff.mp found
    obtain ⟨inside, same⟩ := List.getElem?_eq_some_iff.mp isPlace
    obtain rfl : index = place := by simpa using same
    by_cases newline : index = lastWritten chunk.length
    · exact .inl ⟨newline, by rw [replyByte, if_pos newline]⟩
    · right
      have row : index / sizeOfQueue < numberOfQueues chunk.length := by
        rw [List.length_range] at inside
        unfold numberOfQueues sizeOfQueue
        omega
      rw [replyByte, if_neg newline, List.getD_eq_getElem?_getD]
      cases read : ((helper.joined i decoders).locals.queue (index / sizeOfQueue)).entries[
          index % sizeOfQueue]? with
      | none => exact .inl rfl
      | some byte => exact joined _ row byte (List.mem_of_getElem? read)

/-- Both invariants speak of the same chunk. -/
theorem Separate.same_chunk {before : List (List UInt8)} {current : List UInt8}
    (separate : Separate helper i decoders finished chunk)
    (threading : Threading helper i decoders before current) :
    Threading helper i decoders finished chunk := by
  obtain ⟨rfl, last⟩ := List.append_inj' (threading.received.symm.trans separate.received) rfl
  obtain rfl : current = chunk := List.singleton_inj.mp last
  exact threading

end Steps

/-- Every step keeps the rows separate. -/
theorem Separated.step {helper next : Helper} {event : HelperEvent}
    (located : HelperLocated helper) (separated : Separated helper)
    (stepped : helperStep helper event = some next) : Separated next := by
  cases helper_move stepped with
  | receives chunk memory tempMemory receiving nonempty =>
    exact receive_separated separated receiving nonempty memory tempMemory
  | decodes j i decoders after phase advanced =>
    obtain ⟨buffer, separated⟩ := separated
    simp only [phase] at separated
    simp only [HelperLocated, phase] at located
    obtain ⟨finished, chunk, separate⟩ := separated
    obtain ⟨before, current, threading⟩ := located
    exact ⟨buffer, finished, chunk, separate.thread threading.decoders advanced⟩
  | joins tempMemory i decoders phase exited more =>
    obtain ⟨buffer, separated⟩ := separated
    simp only [phase] at separated
    simp only [HelperLocated, phase] at located
    obtain ⟨finished, chunk, separate⟩ := separated
    obtain ⟨before, current, located⟩ := located
    have threading := separate.same_chunk located
    rw [threading.current] at more
    exact ⟨buffer, finished, chunk, separate.next_queue threading more tempMemory⟩
  | replies tempMemory i decoders phase exited done =>
    obtain ⟨buffer, separated⟩ := separated
    simp only [phase] at separated
    simp only [HelperLocated, phase] at located
    obtain ⟨finished, chunk, separate⟩ := separated
    obtain ⟨before, current, located⟩ := located
    exact separate.reply (separate.same_chunk located) buffer

/-- Before the first chunk. -/
theorem start_separated : Separated startHelper := by
  simp [Separated, startHelper]

/-- Every run keeps the bytes of the rows apart. -/
theorem run_separated {events : List HelperEvent} {helper : Helper}
    (ran : TransitionSystem.run helperStep startHelper events = some helper) :
    HelperLocated helper ∧ Separated helper :=
  TransitionSystem.run_preserves (fun helper => HelperLocated helper ∧ Separated helper)
    (fun _ _ _ before stepped =>
      ⟨helper_step_located before.1 stepped, before.2.step before.1 stepped⟩)
    ⟨start_located, start_separated⟩ ran

/-- The chunks that have been answered are all but the one that is worked on. -/
theorem Separated.answered {helper : Helper} (separated : Separated helper) :
    ∃ answered, answered <+: helper.received ∧ List.Forall₂ RepliesTo answered helper.sent ∧
      (helper.phase = .receiving → answered = helper.received) := by
  obtain ⟨_, separated⟩ := separated
  cases phase : helper.phase with
  | receiving =>
    simp only [phase] at separated
    exact ⟨helper.received, List.prefix_rfl, separated, fun _ => rfl⟩
  | threading i decoders =>
    simp only [phase] at separated
    obtain ⟨finished, chunk, separate⟩ := separated
    refine ⟨finished, ?_, separate.replied, fun receiving => HelperPhase.noConfusion receiving⟩
    rw [separate.received]
    exact List.prefix_append _ _

/-- In every run, whatever the threads do to each other, the replies answer the first chunks
one by one, each with its length and with bytes that stem from their own rows, and between
two rounds all chunks are answered. No schedule is left out, also none in which threads lose
bytes or remove from an empty queue; a step of a thread is a loop test or a whole call of a
queue operation. -/
theorem replies_stem_from_own_rows {events : List HelperEvent} {helper : Helper}
    (ran : TransitionSystem.run helperStep startHelper events = some helper) :
    ∃ answered, answered <+: helper.received ∧ List.Forall₂ RepliesTo answered helper.sent ∧
      (helper.phase = .receiving → answered = helper.received) :=
  (run_separated ran).2.answered

/-- The second thread passes its test for the last byte of the queue, which the first thread
then removes. -/
def disturbedThreads : List Nat :=
  List.replicate 13 0 ++ [1, 0, 0, 0] ++ List.replicate 7 1 ++ List.replicate 16 0 ++
    [2, 3, 4, 5].flatMap (List.replicate 32)

/-- A round in which the threads of the queue go on in this order. -/
def disturbedRound : List HelperEvent :=
  .receive ['h'.toUInt8, 'i'.toUInt8, '\n'.toUInt8] (fun _ _ => 7) (fun _ _ => 7) ::
    disturbedThreads.map .thread ++ [.join fun _ _ => 0]

/-- The reply begins with the NUL that the second thread got, and answers the chunk. -/
theorem disturbed_replies_stem :
    ∃ helper, TransitionSystem.run helperStep startHelper disturbedRound = some helper ∧
      helper.sent = [[0, 'h'.toUInt8, 'I'.toUInt8]] ∧
      List.Forall₂ RepliesTo helper.received helper.sent := by
  have computed : (TransitionSystem.run helperStep startHelper disturbedRound).map
      (fun helper => (helper.received.length, helper.sent)) =
        some (1, [[0, 'h'.toUInt8, 'I'.toUInt8]]) := by
    decide +kernel
  obtain ⟨helper, ran, seen⟩ := Option.map_eq_some_iff.mp computed
  obtain ⟨single, sent⟩ := Prod.mk.inj seen
  obtain ⟨answered, start, replied, _⟩ := replies_stem_from_own_rows ran
  have whole : answered = helper.received := by
    refine start.eq_of_length ?_
    rw [replied.length_eq, sent, single]
    rfl
  exact ⟨helper, ran, sent, whole ▸ replied⟩

end HelperChat
