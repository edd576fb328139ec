import HelperChat.HelperReply

/-!
# The replies in undisturbed runs

The helper as a state machine, in runs in which the threads of a queue disturb each
other never: a thread removes a byte, or finds the queue empty, only while no other
thread of the queue holds bytes. Threads that run one after another are a special case.

In these runs the queues that have had their threads hold their rows in upper-case
vowels and the others the rows as they were filled. The replies are then those in closed
form, one for every received chunk, in the order of the chunks.
-/

namespace HelperChat

/-- A thread's step does not disturb the other threads of its queue. -/
def RunsUndisturbed (helper : Helper) : HelperEvent → Prop
  | .thread j =>
      match helper.phase with
      | .receiving => True
      | .threading _ decoders => Undisturbed decoders j
  | _ => True

/-- While threads run on queue `i`, the queues before it are uppercased, the others hold
the rows of the last received chunk, and the threads have run undisturbed so far. -/
structure Serving (helper : Helper) (i : Nat) (decoders : DecoderState)
    (finished : List (List UInt8)) (chunk : List UInt8) : Prop where
  received : helper.received = finished ++ [chunk]
  replied : helper.sent = finished.map helperResult
  decoded : ∀ k < i, Holds (helper.locals.queue k) (uppercasedRow chunk k)
  filled : ∀ k < numberOfQueues chunk.length, i ≤ k →
    Holds (helper.locals.queue k) (sourceRow chunk k)
  threads : ∃ tempMemory schedule,
    TransitionSystem.run decoderStep
        (startThreads tempMemory (helper.locals.queue i) threadNumbers) schedule =
      some decoders ∧
    TransitionSystem.Meets decoderStep Undisturbed
      (startThreads tempMemory (helper.locals.queue i) threadNumbers) schedule

/-- The invariant of undisturbed runs: all chunks before the current one are replied. -/
def Replying (helper : Helper) : Prop :=
  helper.locals.uppercasedBuffer.length = bufferSize ∧
    match helper.phase with
    | .receiving => helper.sent = helper.received.map helperResult
    | .threading i decoders => ∃ finished chunk, Serving helper i decoders finished chunk

/-- The queue that undisturbed threads leave is the uppercased one. -/
theorem Serving.joined {helper : Helper} {i : Nat} {decoders : DecoderState}
    {finished : List (List UInt8)} {chunk : List UInt8}
    (serving : Serving helper i decoders finished chunk)
    (inside : i < numberOfQueues chunk.length) (exited : AllExited decoders) :
    Holds decoders.insideQueue (uppercasedRow chunk i) := by
  obtain ⟨tempMemory, schedule, ran, undisturbed⟩ := serving.threads
  have held := serving.filled i inside (Nat.le_refl i)
  let queue : RingQueue := ⟨helper.locals.queue i, held.formed⟩
  have formed : QueuesFormed queue.raw.size decoders := run_formed ran
  have uppercased : Uppercased queue decoders :=
    undisturbed_run_uppercases ran exited undisturbed
  have entries : queue.entries = sourceRow chunk i := held.entries
  refine ⟨formed.inside, formed.insideSize.trans held.size, ?_⟩
  rw [uppercasedRow, ← entries]
  exact uppercased

/-- After the joins one more queue is uppercased, and the later ones are as before. -/
theorem Serving.queues_joined {helper : Helper} {i : Nat} {decoders : DecoderState}
    {finished : List (List UInt8)} {chunk : List UInt8}
    (serving : Serving helper i decoders finished chunk)
    (count : helper.locals.queues.length = numberOfQueues chunk.length)
    (inside : i < numberOfQueues chunk.length) (exited : AllExited decoders) :
    (∀ k < i + 1, Holds ((helper.joined i decoders).locals.queue k) (uppercasedRow chunk k)) ∧
      ∀ k < numberOfQueues chunk.length, i + 1 ≤ k →
        Holds ((helper.joined i decoders).locals.queue k) (sourceRow chunk k) := by
  have queue := queue_replaced
    (rfl : (helper.joined i decoders).locals.queues = _) (count ▸ inside)
  constructor
  · intro k before
    rw [queue k]
    by_cases same : k = i
    · subst same
      rw [if_pos rfl]
      exact serving.joined inside exited
    · rw [if_neg same]
      exact serving.decoded k (by omega)
  · intro k below behind
    rw [queue k, if_neg (by omega)]
    exact serving.filled k below (by omega)

/-- A received chunk starts a round with its rows. -/
theorem receive_replying {helper : Helper} (replying : Replying helper)
    (receiving : helper.phase = .receiving) (datastreamFromMainServer : List UInt8)
    (memory tempMemory : Nat → Nat → UInt8) :
    Replying (createThreads tempMemory 0 (helper.enqueued memory datastreamFromMainServer)) := by
  obtain ⟨buffer, replying⟩ := replying
  simp only [receiving] at replying
  have rows := enqueued_rows memory datastreamFromMainServer helper.locals
  constructor
  · exact (congrArg List.length
      (enqueue_buffer memory datastreamFromMainServer helper.locals)).trans buffer
  · refine ⟨helper.received, datastreamFromMainServer, rfl, replying, ?_, ?_, ?_⟩
    · intro k before
      exact absurd before (Nat.not_lt_zero k)
    · intro k below _
      exact rows.queues k below
    · exact ⟨tempMemory, [], rfl, trivial⟩

/-- An undisturbed step of a thread extends the undisturbed run on its queue. -/
theorem Serving.thread {helper : Helper} {i j : Nat} {decoders after : DecoderState}
    {finished : List (List UInt8)} {chunk : List UInt8}
    (serving : Serving helper i decoders finished chunk) (undisturbed : Undisturbed decoders j)
    (advanced : decoderStep decoders j = some after) :
    Serving (helper.decoded i j decoders after) i after finished chunk := by
  obtain ⟨tempMemory, schedule, ran, met⟩ := serving.threads
  have extended : TransitionSystem.run decoderStep
      (startThreads tempMemory (helper.locals.queue i) threadNumbers) (schedule ++ [j]) =
        some after :=
    TransitionSystem.run_trans ran (by simp [advanced])
  have stillMet : TransitionSystem.Meets decoderStep Undisturbed
      (startThreads tempMemory (helper.locals.queue i) threadNumbers) (schedule ++ [j]) :=
    TransitionSystem.meets_append ran met ⟨undisturbed, fun _ _ => trivial⟩
  exact ⟨serving.received, serving.replied, serving.decoded, serving.filled, tempMemory,
    schedule ++ [j], extended, stillMet⟩

/-- At the end of a round the reply is the chunk's. -/
theorem Serving.reply {helper : Helper} {i : Nat} {decoders : DecoderState}
    {finished : List (List UInt8)} {chunk : List UInt8}
    (serving : Serving helper i decoders finished chunk)
    (threading : Threading helper i decoders finished chunk) (exited : AllExited decoders)
    (done : numberOfQueues helper.dataBytesIncoming ≤ i + 1)
    (buffer : helper.locals.uppercasedBuffer.length = bufferSize) :
    Replying (helper.joined i decoders).replied := by
  obtain ⟨decoded, _⟩ := serving.queues_joined threading.count threading.inside exited
  rw [threading.current] at done
  have rows : Rows (uppercasedRow chunk) (numberOfQueues chunk.length)
      (helper.joined i decoders).locals :=
    ⟨threading.joined.1, fun k below => decoded k (by omega)⟩
  have reply := rows.helper_result threading.nonempty threading.short buffer
  constructor
  · change (dequeueChunk helper.dataBytesIncoming
      (helper.joined i decoders).locals).uppercasedBuffer.length = _
    rw [threading.current, rows.dequeue_length threading.short]
    exact buffer
  · change helper.sent ++ [serverEncoder (dequeueChunk helper.dataBytesIncoming
      (helper.joined i decoders).locals).uppercasedBuffer helper.dataBytesIncoming] =
        helper.received.map helperResult
    rw [threading.current, reply, serving.replied, serving.received, List.map_append,
      List.map_singleton]

/-- The serving and the threading invariant speak of the same chunk. -/
theorem Serving.same_chunk {helper : Helper} {i : Nat} {decoders : DecoderState}
    {before finished : List (List UInt8)} {current chunk : List UInt8}
    (serving : Serving helper i decoders finished chunk)
    (threading : Threading helper i decoders before current) :
    Threading helper i decoders finished chunk := by
  obtain ⟨rfl, last⟩ := List.append_inj' (threading.received.symm.trans serving.received) rfl
  obtain rfl : current = chunk := List.singleton_inj.mp last
  exact threading

/-- Every undisturbed step keeps the helper replying. -/
theorem Replying.step {helper next : Helper} {event : HelperEvent}
    (located : HelperLocated helper) (replying : Replying helper)
    (undisturbed : RunsUndisturbed helper event) (stepped : helperStep helper event = some next) :
    Replying next := by
  cases helper_move stepped with
  | receives datastreamFromMainServer memory tempMemory receiving =>
    exact receive_replying replying receiving datastreamFromMainServer memory tempMemory
  | decodes j i decoders after phase advanced =>
    obtain ⟨buffer, replying⟩ := replying
    simp only [phase] at replying
    simp only [RunsUndisturbed, phase] at undisturbed
    obtain ⟨finished, chunk, serving⟩ := replying
    exact ⟨buffer, finished, chunk, serving.thread undisturbed advanced⟩
  | joins tempMemory i decoders phase exited more =>
    obtain ⟨buffer, replying⟩ := replying
    simp only [phase] at replying
    simp only [HelperLocated, phase] at located
    obtain ⟨finished, chunk, serving⟩ := replying
    obtain ⟨before, current, located⟩ := located
    have threading := serving.same_chunk located
    obtain ⟨decoded, filled⟩ :=
      serving.queues_joined threading.count threading.inside exited
    exact ⟨buffer, finished, chunk, serving.received, serving.replied, decoded, filled,
      tempMemory, [], rfl, trivial⟩
  | replies tempMemory i decoders phase exited done =>
    obtain ⟨buffer, replying⟩ := replying
    simp only [phase] at replying
    simp only [HelperLocated, phase] at located
    obtain ⟨finished, chunk, serving⟩ := replying
    obtain ⟨before, current, located⟩ := located
    exact serving.reply (serving.same_chunk located) exited done buffer

/-- The helper starts with nothing to reply to. -/
theorem start_replying : Replying startHelper := by
  simp [Replying, startHelper]

/-- In every undisturbed run the helper has replied to its chunks in their order, each time
with the result in closed form; between two rounds it has replied to all of them. -/
theorem undisturbed_run_replies {events : List HelperEvent} {helper : Helper}
    (ran : TransitionSystem.run helperStep startHelper events = some helper)
    (undisturbed : TransitionSystem.Meets helperStep RunsUndisturbed startHelper events) :
    helper.sent <+: helper.received.map helperResult ∧
      (helper.phase = .receiving → helper.sent = helper.received.map helperResult) := by
  obtain ⟨_, _, replying⟩ : HelperLocated helper ∧ Replying helper :=
    TransitionSystem.guarded_run_preserves (fun helper => HelperLocated helper ∧ Replying helper)
      (fun _ _ _ before quiet stepped =>
        ⟨helper_step_located before.1 stepped, before.2.step before.1 quiet stepped⟩)
      ⟨start_located, start_replying⟩ undisturbed ran
  cases phase : helper.phase with
  | receiving =>
    simp only [phase] at replying
    exact ⟨replying ▸ List.prefix_refl _, fun _ => replying⟩
  | threading i decoders =>
    simp only [phase] at replying
    obtain ⟨finished, chunk, serving⟩ := replying
    constructor
    · rw [serving.replied, serving.received, List.map_append]
      exact List.prefix_append _ _
    · intro receiving
      exact absurd receiving HelperPhase.noConfusion

end HelperChat
