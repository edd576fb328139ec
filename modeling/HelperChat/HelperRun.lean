import HelperChat.HelperLoop

/-!
# The helper as a state machine

The communication loop of `main` in `1_helper.c` over any number of rounds. A round
begins with a received chunk; then the six threads of one queue after another take
their steps in any order, and when the threads of the last queue have been joined the
buffer is filled, terminated and sent.

The only access that can leave its array is the NUL behind the newline. It does so
exactly for chunks of more than 95 bytes, whose padding fills the whole buffer.
-/

namespace HelperChat

/-- Where the loop stands: at `recv`, or with the threads of queue `i` running. -/
inductive HelperPhase where
  | receiving
  | threading (i : Nat) (decoders : DecoderState)

/-- The helper between two steps. The chunks received and the replies sent so far are
kept, as the other ends of the socket see them. -/
structure Helper where
  phase : HelperPhase
  locals : HelperState
  dataBytesIncoming : Nat
  received : List (List UInt8)
  sent : List (List UInt8)

/-- What happens next: `recv` returns a chunk, a thread of the current queue takes a step,
or the threads are joined. New memory comes with arbitrary contents. -/
inductive HelperEvent where
  | receive (datastreamFromMainServer : List UInt8) (memory tempMemory : Nat → Nat → UInt8)
  | thread (j : Nat)
  | join (tempMemory : Nat → Nat → UInt8)

/-- The accesses of the next step of the thread at position `j`. -/
def decoderAccesses (state : DecoderState) (j : Nat) : List Access :=
  match state.threads[j]? with
  | none => []
  | some thread =>
      match thread.phase with
      | .drainTest | .refillTest | .exited => []
      | .drainRemove => removeAccesses state.insideQueue
      | .drainAdd _ => addAccesses thread.tempQueue
      | .refillRemove => removeAccesses thread.tempQueue
      | .refillAdd _ => addAccesses state.insideQueue

/-- Log accesses. -/
def HelperState.log (state : HelperState) (accesses : List Access) : HelperState :=
  { state with accesses := state.accesses ++ accesses }

/-- The threads of queue `i` are created with `&queues[i]`. -/
def createThreads (tempMemory : Nat → Nat → UInt8) (i : Nat) (helper : Helper) : Helper :=
  { helper with
    phase := .threading i (startThreads tempMemory (helper.locals.queue i) threadNumbers)
    locals := helper.locals.log [.queues i (numberOfQueues helper.dataBytesIncoming)] }

/-- One step of the helper. -/
def helperStep (helper : Helper) : HelperEvent → Option Helper
  | .receive datastreamFromMainServer memory tempMemory =>
      match helper.phase with
      | .receiving =>
          if 1 ≤ datastreamFromMainServer.length ∧ datastreamFromMainServer.length ≤ bufferSize then
            some (createThreads tempMemory 0 { helper with
              locals := enqueueChunk memory datastreamFromMainServer helper.locals
              dataBytesIncoming := datastreamFromMainServer.length
              received := helper.received ++ [datastreamFromMainServer] })
          else none
      | .threading _ _ => none
  | .thread j =>
      match helper.phase with
      | .receiving => none
      | .threading i decoders =>
          (decoderStep decoders j).map fun decoders' =>
            { helper with
              phase := .threading i decoders'
              locals := helper.locals.log (decoderAccesses decoders j) }
  | .join tempMemory =>
      match helper.phase with
      | .receiving => none
      | .threading i decoders =>
          if AllExited decoders then
            let joined := { helper.locals with
              queues := helper.locals.queues.set i decoders.insideQueue }
            if i + 1 < numberOfQueues helper.dataBytesIncoming then
              some (createThreads tempMemory (i + 1) { helper with locals := joined })
            else
              let finished := dequeueChunk helper.dataBytesIncoming joined
              some { helper with
                phase := .receiving
                locals := finished
                sent := helper.sent ++
                  [serverEncoder finished.uppercasedBuffer helper.dataBytesIncoming] }
          else none

/-- The helper when the server has connected. A global array starts with zeros. -/
def startHelper : Helper where
  phase := .receiving
  locals := ⟨[], 0, 0, List.replicate bufferSize 0, []⟩
  dataBytesIncoming := 0
  received := []
  sent := []

/-- A chunk whose padding leaves room for the NUL in the global buffer. -/
def LeavesRoom (chunk : List UInt8) : Prop := chunk.length ≤ bufferSize - sizeOfQueue

instance (chunk : List UInt8) : Decidable (LeavesRoom chunk) :=
  inferInstanceAs (Decidable (chunk.length ≤ bufferSize - sizeOfQueue))

/-- A queue is well formed and of the fixed size. -/
def Formed (queue : StructForQueueBoi) : Prop := ∃ bytes, Holds queue bytes

/-- While threads run on queue `i` of a round for the last received chunk, all queues are
formed, and the finished rounds decide whether the accesses so far are within bounds. -/
structure Threading (helper : Helper) (i : Nat) (decoders : DecoderState)
    (finished : List (List UInt8)) (chunk : List UInt8) : Prop where
  received : helper.received = finished ++ [chunk]
  current : helper.dataBytesIncoming = chunk.length
  nonempty : 1 ≤ chunk.length
  short : chunk.length ≤ bufferSize
  count : helper.locals.queues.length = numberOfQueues chunk.length
  inside : i < numberOfQueues chunk.length
  queues : ∀ k < numberOfQueues chunk.length, Formed (helper.locals.queue k)
  decoders : QueuesFormed sizeOfQueue decoders
  bounds : WithinBounds helper.locals.accesses ↔ ∀ chunk ∈ finished, LeavesRoom chunk

/-- The invariant of the helper's runs. -/
def HelperLocated (helper : Helper) : Prop :=
  match helper.phase with
  | .receiving => WithinBounds helper.locals.accesses ↔ ∀ chunk ∈ helper.received, LeavesRoom chunk
  | .threading i decoders => ∃ finished chunk, Threading helper i decoders finished chunk

/-- The helper with a chunk that was received and put into the queues. -/
def Helper.enqueued (helper : Helper) (memory : Nat → Nat → UInt8)
    (datastreamFromMainServer : List UInt8) : Helper :=
  { helper with
    locals := enqueueChunk memory datastreamFromMainServer helper.locals
    dataBytesIncoming := datastreamFromMainServer.length
    received := helper.received ++ [datastreamFromMainServer] }

/-- The helper after thread `j` of queue `i` has moved. -/
def Helper.decoded (helper : Helper) (i j : Nat) (decoders after : DecoderState) : Helper :=
  { helper with
    phase := .threading i after
    locals := helper.locals.log (decoderAccesses decoders j) }

/-- The helper after the threads of queue `i` have been joined. -/
def Helper.joined (helper : Helper) (i : Nat) (decoders : DecoderState) : Helper :=
  { helper with
    locals :=
      { helper.locals with queues := helper.locals.queues.set i decoders.insideQueue } }

/-- The helper at the end of a round. -/
def Helper.replied (helper : Helper) : Helper :=
  { helper with
    phase := .receiving
    locals := dequeueChunk helper.dataBytesIncoming helper.locals
    sent := helper.sent ++
      [serverEncoder (dequeueChunk helper.dataBytesIncoming helper.locals).uppercasedBuffer
        helper.dataBytesIncoming] }

/-- The steps of the helper. -/
inductive HelperMove (helper : Helper) : HelperEvent → Helper → Prop
  | receives (datastreamFromMainServer : List UInt8) (memory tempMemory : Nat → Nat → UInt8)
      (receiving : helper.phase = .receiving) (nonempty : 1 ≤ datastreamFromMainServer.length)
      (short : datastreamFromMainServer.length ≤ bufferSize) :
      HelperMove helper (.receive datastreamFromMainServer memory tempMemory)
        (createThreads tempMemory 0 (helper.enqueued memory datastreamFromMainServer))
  | decodes (j i : Nat) (decoders after : DecoderState)
      (threading : helper.phase = .threading i decoders)
      (advanced : decoderStep decoders j = some after) :
      HelperMove helper (.thread j) (helper.decoded i j decoders after)
  | joins (tempMemory : Nat → Nat → UInt8) (i : Nat) (decoders : DecoderState)
      (threading : helper.phase = .threading i decoders) (exited : AllExited decoders)
      (more : i + 1 < numberOfQueues helper.dataBytesIncoming) :
      HelperMove helper (.join tempMemory)
        (createThreads tempMemory (i + 1) (helper.joined i decoders))
  | replies (tempMemory : Nat → Nat → UInt8) (i : Nat) (decoders : DecoderState)
      (threading : helper.phase = .threading i decoders) (exited : AllExited decoders)
      (done : numberOfQueues helper.dataBytesIncoming ≤ i + 1) :
      HelperMove helper (.join tempMemory) (helper.joined i decoders).replied

/-- Every computed step is one of these. -/
theorem helper_move {helper next : Helper} {event : HelperEvent}
    (stepped : helperStep helper event = some next) : HelperMove helper event next := by
  cases phase : helper.phase with
  | receiving =>
    cases event with
    | receive datastreamFromMainServer memory tempMemory =>
      simp only [helperStep, phase, Option.ite_none_right_eq_some, Option.some.injEq] at stepped
      obtain ⟨⟨nonempty, short⟩, rfl⟩ := stepped
      exact .receives _ memory tempMemory phase nonempty short
    | thread | join => simp [helperStep, phase] at stepped
  | threading i decoders =>
    cases event with
    | receive => simp [helperStep, phase] at stepped
    | thread j =>
      simp only [helperStep, phase] at stepped
      obtain ⟨after, advanced, rfl⟩ := Option.map_eq_some_iff.mp stepped
      exact .decodes j i decoders after phase advanced
    | join tempMemory =>
      simp only [helperStep, phase, Option.ite_none_right_eq_some] at stepped
      obtain ⟨exited, stepped⟩ := stepped
      split at stepped
      case isTrue more =>
        obtain rfl := Option.some.inj stepped
        exact .joins tempMemory i decoders phase exited more
      case isFalse done =>
        obtain rfl := Option.some.inj stepped
        exact .replies tempMemory i decoders phase exited (Nat.not_lt.mp done)

/-- The steps of the threads stay in the slots of their queues. -/
theorem decoder_within_bounds {state : DecoderState} (formed : QueuesFormed sizeOfQueue state)
    (j : Nat) : WithinBounds (decoderAccesses state j) := by
  unfold decoderAccesses
  cases present : state.threads[j]? with
  | none => simp
  | some thread =>
    have temp := (formed.temps thread (List.mem_of_getElem? present)).1
    cases phase : thread.phase with
    | drainTest | refillTest | exited => simp [phase]
    | drainRemove => simpa [phase] using remove_within_bounds formed.inside
    | drainAdd byte => simpa [phase] using add_within_bounds temp
    | refillRemove => simpa [phase] using remove_within_bounds temp
    | refillAdd byte => simpa [phase] using add_within_bounds formed.inside

/-- Threads created on a formed queue have formed queues. -/
theorem created_formed {queue : StructForQueueBoi} (formed : Formed queue)
    (tempMemory : Nat → Nat → UInt8) :
    QueuesFormed sizeOfQueue (startThreads tempMemory queue threadNumbers) := by
  obtain ⟨bytes, holds⟩ := formed
  rw [← holds.size]
  exact start_formed tempMemory ⟨queue, holds.formed⟩ threadNumbers

/-- A received chunk is put into queues that are all formed. -/
theorem receive_located {helper : Helper} {datastreamFromMainServer : List UInt8}
    (located : HelperLocated helper) (receiving : helper.phase = .receiving)
    (nonempty : 1 ≤ datastreamFromMainServer.length)
    (short : datastreamFromMainServer.length ≤ bufferSize) (memory tempMemory : Nat → Nat → UInt8) :
    HelperLocated
      (createThreads tempMemory 0 (helper.enqueued memory datastreamFromMainServer)) := by
  simp only [HelperLocated, receiving] at located
  have filled := enqueue_filled memory datastreamFromMainServer helper.locals
  have inside : 0 < numberOfQueues datastreamFromMainServer.length := by
    unfold numberOfQueues sizeOfQueue
    omega
  have queues : ∀ k < numberOfQueues datastreamFromMainServer.length,
      Formed ((enqueueChunk memory datastreamFromMainServer helper.locals).queue k) :=
    fun k below => ⟨_, filled.queues k below⟩
  refine ⟨helper.received, datastreamFromMainServer, rfl, rfl, nonempty, short, filled.count,
    inside, queues, created_formed (queues 0 inside) tempMemory, ?_⟩
  rw [← located, ← filled.bounds]
  simp [createThreads, Helper.enqueued, HelperState.log, Access.InBounds, inside]

section Threading

variable {helper : Helper} {i j : Nat} {decoders after : DecoderState}
  {finished : List (List UInt8)} {chunk : List UInt8}

/-- A step of a thread stays inside the queues and keeps them formed. -/
theorem Threading.decoded (threading : Threading helper i decoders finished chunk)
    (advanced : decoderStep decoders j = some after) :
    Threading (helper.decoded i j decoders after) i after finished chunk := by
  refine ⟨threading.received, threading.current, threading.nonempty, threading.short,
    threading.count, threading.inside, threading.queues, threading.decoders.step advanced, ?_⟩
  rw [← threading.bounds]
  simp [Helper.decoded, HelperState.log, decoder_within_bounds threading.decoders j]

/-- The queues after the threads of one of them have been joined. -/
theorem Threading.joined (threading : Threading helper i decoders finished chunk) :
    (helper.joined i decoders).locals.queues.length = numberOfQueues chunk.length ∧
      ∀ k < numberOfQueues chunk.length, Formed ((helper.joined i decoders).locals.queue k) := by
  constructor
  · exact List.length_set.trans threading.count
  · intro k below
    rw [queue_replaced (rfl : (helper.joined i decoders).locals.queues = _)
      (threading.count ▸ threading.inside) k]
    by_cases same : k = i
    · rw [if_pos same]
      exact ⟨_, threading.decoders.inside, threading.decoders.insideSize, rfl⟩
    · rw [if_neg same]
      exact threading.queues k below

/-- After the joins the next queue gets its threads. -/
theorem Threading.next_queue (threading : Threading helper i decoders finished chunk)
    (more : i + 1 < numberOfQueues helper.dataBytesIncoming) (tempMemory : Nat → Nat → UInt8) :
    HelperLocated (createThreads tempMemory (i + 1) (helper.joined i decoders)) := by
  obtain ⟨count, queues⟩ := threading.joined
  rw [threading.current] at more
  refine ⟨finished, chunk, threading.received, threading.current, threading.nonempty,
    threading.short, count, more, queues, created_formed (queues (i + 1) more) tempMemory, ?_⟩
  rw [← threading.bounds]
  simp [createThreads, HelperState.log, Access.InBounds, threading.current, more, Helper.joined]

/-- At the end of a round the terminator is the only access in question. -/
theorem Threading.replied (threading : Threading helper i decoders finished chunk) :
    HelperLocated (helper.joined i decoders).replied := by
  obtain ⟨count, queues⟩ := threading.joined
  have rows : Rows (fun k => ((helper.joined i decoders).locals.queue k).entries)
      (numberOfQueues chunk.length) (helper.joined i decoders).locals := by
    refine ⟨count, ?_⟩
    intro k below
    obtain ⟨bytes, holds⟩ := queues k below
    exact ⟨holds.formed, holds.size, rfl⟩
  have bounds := rows.dequeue_bounds threading.nonempty threading.short
  have before : WithinBounds (helper.joined i decoders).locals.accesses ↔ _ := threading.bounds
  change WithinBounds (dequeueChunk helper.dataBytesIncoming
    (helper.joined i decoders).locals).accesses ↔ ∀ chunk ∈ helper.received, LeavesRoom chunk
  rw [threading.received, threading.current, bounds, before]
  simp [LeavesRoom, or_imp, forall_and]

end Threading

/-- Every step keeps the run located. -/
theorem helper_step_located {helper next : Helper} {event : HelperEvent}
    (located : HelperLocated helper) (stepped : helperStep helper event = some next) :
    HelperLocated next := by
  cases helper_move stepped with
  | receives datastreamFromMainServer memory tempMemory receiving nonempty short =>
    exact receive_located located receiving nonempty short memory tempMemory
  | decodes j i decoders after phase advanced =>
    simp only [HelperLocated, phase] at located
    obtain ⟨finished, chunk, threading⟩ := located
    exact ⟨finished, chunk, threading.decoded advanced⟩
  | joins tempMemory i decoders phase exited more =>
    simp only [HelperLocated, phase] at located
    obtain ⟨finished, chunk, threading⟩ := located
    exact threading.next_queue more tempMemory
  | replies tempMemory i decoders phase exited done =>
    simp only [HelperLocated, phase] at located
    obtain ⟨finished, chunk, threading⟩ := located
    exact threading.replied

/-- The helper starts without accesses. -/
theorem start_located : HelperLocated startHelper := by simp [HelperLocated, startHelper]

/-- The helper takes the steps of the threads of its current queue. -/
theorem threads_run {helper : Helper} {i : Nat} {decoders after : DecoderState}
    {schedule : List Nat} (phase : helper.phase = .threading i decoders)
    (ran : TransitionSystem.run decoderStep decoders schedule = some after) :
    ∃ accesses, TransitionSystem.run helperStep helper (schedule.map .thread) =
      some { helper with phase := .threading i after, locals := helper.locals.log accesses } := by
  induction schedule generalizing helper decoders with
  | nil =>
    obtain rfl := Option.some.inj ran
    exact ⟨[], by simp [HelperState.log, ← phase]⟩
  | cons j rest inductionHypothesis =>
    obtain ⟨next, stepped, continued⟩ := Option.bind_eq_some_iff.mp ran
    have moved : helperStep helper (.thread j) = some { helper with
        phase := .threading i next, locals := helper.locals.log (decoderAccesses decoders j) } := by
      simp [helperStep, phase, stepped]
    let following : Helper := { helper with
        phase := .threading i next, locals := helper.locals.log (decoderAccesses decoders j) }
    have phaseNext : following.phase = .threading i next := rfl
    obtain ⟨accesses, later⟩ := inductionHypothesis phaseNext continued
    refine ⟨decoderAccesses decoders j ++ accesses, ?_⟩
    rw [List.map_cons, TransitionSystem.run_cons, moved]
    simpa [HelperState.log, following] using later

/-- Threads on a formed queue can all run to their exit. -/
theorem threads_can_exit {queue : StructForQueueBoi} (formed : Formed queue)
    (tempMemory : Nat → Nat → UInt8) :
    ∃ schedule state,
      TransitionSystem.run decoderStep (startThreads tempMemory queue threadNumbers) schedule =
        some state ∧ AllExited state := by
  obtain ⟨bytes, holds⟩ := formed
  have passed : TransitionSystem.run (DrainRefill.step (decoderTask queue.size))
      ⟨queue.entries, [] ++ DrainRefill.freshWorkers threadNumbers⟩
      (DrainRefill.passesSchedule 0 threadNumbers queue.entries.length) = some _ :=
    DrainRefill.passes_run holds.formed.entries_le
  obtain ⟨state, ran, viewed⟩ :=
    lift_start_run tempMemory ⟨queue, holds.formed⟩ threadNumbers passed
  refine ⟨_, state, ran, ?_⟩
  intro thread member
  have inPool : thread.worker ∈ state.pool.workers := List.mem_map_of_mem member
  rw [viewed] at inPool
  obtain ⟨number, _, same⟩ := List.mem_map.mp inPool
  exact (congrArg DrainRefill.Worker.phase same).symm

/-- What every run keeps. -/
theorem run_located {start final : Helper} {events : List HelperEvent}
    (located : HelperLocated start)
    (ran : TransitionSystem.run helperStep start events = some final) : HelperLocated final :=
  TransitionSystem.run_preserves HelperLocated
    (fun _ _ _ before stepped => helper_step_located before stepped) located ran

/-- The threads of the current queue, if they have not moved yet, can run to their exit
and be joined. -/
theorem queue_can_finish {helper : Helper} {i : Nat} {tempMemory : Nat → Nat → UInt8}
    (located : HelperLocated helper)
    (phase : helper.phase =
      .threading i (startThreads tempMemory (helper.locals.queue i) threadNumbers)) :
    ∃ events next, TransitionSystem.run helperStep helper events = some next ∧
      next.received = helper.received ∧ next.dataBytesIncoming = helper.dataBytesIncoming ∧
      if i + 1 < numberOfQueues helper.dataBytesIncoming then
        next.phase =
          .threading (i + 1) (startThreads tempMemory (next.locals.queue (i + 1)) threadNumbers)
      else next.phase = .receiving := by
  simp only [HelperLocated, phase] at located
  obtain ⟨finished, chunk, threading⟩ := located
  obtain ⟨schedule, state, ran, exited⟩ :=
    threads_can_exit (threading.queues i threading.inside) tempMemory
  obtain ⟨accesses, threaded⟩ := threads_run phase ran
  have joined : ∃ next, helperStep { helper with
        phase := .threading i state, locals := helper.locals.log accesses }
      (.join tempMemory) = some next ∧
      next.received = helper.received ∧ next.dataBytesIncoming = helper.dataBytesIncoming ∧
      if i + 1 < numberOfQueues helper.dataBytesIncoming then
        next.phase =
          .threading (i + 1) (startThreads tempMemory (next.locals.queue (i + 1)) threadNumbers)
      else next.phase = .receiving := by
    by_cases more : i + 1 < numberOfQueues helper.dataBytesIncoming
    · simp [helperStep, exited, more, createThreads, HelperState.queue, HelperState.log]
    · simp [helperStep, exited, more]
  obtain ⟨next, stepped, result⟩ := joined
  exact ⟨schedule.map .thread ++ [.join tempMemory], next,
    TransitionSystem.run_trans threaded (by simp [stepped]), result⟩

/-- A round whose threads have just been created on one of its queues can be finished. -/
theorem round_can_finish (remaining : Nat) {helper : Helper} {i : Nat}
    {tempMemory : Nat → Nat → UInt8} (located : HelperLocated helper)
    (phase : helper.phase =
      .threading i (startThreads tempMemory (helper.locals.queue i) threadNumbers))
    (left : numberOfQueues helper.dataBytesIncoming ≤ i + 1 + remaining) :
    ∃ events next, TransitionSystem.run helperStep helper events = some next ∧
      next.phase = .receiving ∧ next.received = helper.received := by
  induction remaining generalizing helper i with
  | zero =>
    obtain ⟨events, next, ran, same, _, result⟩ := queue_can_finish located phase
    rw [if_neg (by omega)] at result
    exact ⟨events, next, ran, result, same⟩
  | succ remaining inductionHypothesis =>
    obtain ⟨events, next, ran, same, count, result⟩ := queue_can_finish located phase
    by_cases more : i + 1 < numberOfQueues helper.dataBytesIncoming
    · rw [if_pos more] at result
      obtain ⟨later, final, continued, receiving, unchanged⟩ :=
        inductionHypothesis (run_located located ran) result (by rw [count]; omega)
      exact ⟨events ++ later, final, TransitionSystem.run_trans ran continued, receiving,
        unchanged.trans same⟩
    · rw [if_neg more] at result
      exact ⟨events, next, ran, result, same⟩

/-- Whenever the helper receives, any chunk can come in, and its round can be finished. -/
theorem chunk_can_be_served {helper : Helper} (located : HelperLocated helper)
    (receiving : helper.phase = .receiving) {chunk : List UInt8} (nonempty : 1 ≤ chunk.length)
    (short : chunk.length ≤ bufferSize) (memory tempMemory : Nat → Nat → UInt8) :
    ∃ events final,
      TransitionSystem.run helperStep helper (.receive chunk memory tempMemory :: events) =
        some final ∧ final.phase = .receiving ∧ final.received = helper.received ++ [chunk] := by
  have received : ∃ next, helperStep helper (.receive chunk memory tempMemory) = some next ∧
      next.received = helper.received ++ [chunk] ∧
      next.phase =
        .threading 0 (startThreads tempMemory (next.locals.queue 0) threadNumbers) := by
    simp [helperStep, receiving, nonempty, short, createThreads, HelperState.queue,
      HelperState.log]
  obtain ⟨next, stepped, last, phase⟩ := received
  obtain ⟨events, final, ran, finished, same⟩ :=
    round_can_finish (numberOfQueues next.dataBytesIncoming) (helper_step_located located stepped)
      phase (by omega)
  refine ⟨events, final, ?_, finished, same.trans last⟩
  rw [TransitionSystem.run_cons, stepped]
  exact ran

/-- In every state of every run the accesses so far are within bounds if all received
chunks are at most 95 bytes long; between two rounds this is also necessary. The threads may
be scheduled in any way. Within a round for a longer chunk the access that fails may not have
come yet. -/
theorem helper_within_bounds_iff (events : List HelperEvent) (helper : Helper)
    (ran : TransitionSystem.run helperStep startHelper events = some helper) :
    ((∀ chunk ∈ helper.received, chunk.length ≤ 95) → WithinBounds helper.locals.accesses) ∧
      (helper.phase = .receiving →
        (WithinBounds helper.locals.accesses ↔ ∀ chunk ∈ helper.received, chunk.length ≤ 95)) := by
  have located : HelperLocated helper := run_located start_located ran
  unfold HelperLocated at located
  constructor
  · intro leavesRoom
    cases phase : helper.phase with
    | receiving =>
      simp only [phase] at located
      exact located.mpr leavesRoom
    | threading i decoders =>
      simp only [phase] at located
      obtain ⟨finished, chunk, threading⟩ := located
      apply threading.bounds.mpr
      intro earlier member
      apply leavesRoom
      rw [threading.received]
      exact List.mem_append_left _ member
  · intro phase
    simp only [phase] at located
    exact located

/-- A chunk of 96 bytes fills all 20 queues, so the NUL is written behind the buffer. -/
theorem terminator_behind_buffer :
    ¬ ∀ events helper, TransitionSystem.run helperStep startHelper events = some helper →
      WithinBounds helper.locals.accesses := by
  intro always
  let chunk := List.replicate 96 'x'.toUInt8
  have received : 1 ≤ chunk.length ∧ chunk.length ≤ bufferSize := by
    simp [chunk, bufferSize]
  obtain ⟨events, final, ran, receiving, last⟩ :=
    chunk_can_be_served start_located rfl received.1 received.2 (fun _ _ => 0) (fun _ _ => 0)
  have located := run_located start_located ran
  simp only [HelperLocated, receiving] at located
  have inside := located.mp (always _ final ran) chunk (by simp [last])
  exact absurd inside (by simp [chunk, LeavesRoom, bufferSize, sizeOfQueue])

/-- A chunk of 95 bytes fills 19 queues, and its round stays inside all arrays. -/
theorem terminator_inside_buffer :
    ∃ events helper, TransitionSystem.run helperStep startHelper events = some helper ∧
      helper.phase = .receiving ∧ helper.received = [List.replicate 95 'x'.toUInt8] ∧
      WithinBounds helper.locals.accesses := by
  let chunk := List.replicate 95 'x'.toUInt8
  have received : 1 ≤ chunk.length ∧ chunk.length ≤ bufferSize := by
    simp [chunk, bufferSize]
  obtain ⟨events, final, ran, receiving, last⟩ :=
    chunk_can_be_served start_located rfl received.1 received.2 (fun _ _ => 0) (fun _ _ => 0)
  refine ⟨_, final, ran, receiving, last, ?_⟩
  apply (helper_within_bounds_iff _ final ran).1
  simp [last, chunk, startHelper]

end HelperChat
