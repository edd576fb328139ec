import HelperChat.Decoder

/-!
# No byte lost, duplicated or invented by the decoder threads

The emptiness test and the removal of `serverDecoder` are separate steps. Two threads
that pass the test for the same last byte remove one byte too many, and the queue
delivers a NUL that was never in it. This can happen on every queue that is not empty.

It cannot happen in runs in which a thread finds the queue nonempty only while the
queue has more entries than there are threads that passed the test and have not
removed yet. In these the bytes stay the same up to the case of vowels, and no removal
and no addition fails.
-/

namespace HelperChat

open DrainRefill (Phase Pool Worker)

/-- The byte a thread has in `indexToUppercase`, between a removal and an addition. -/
def inHand (phase : Phase UInt8) : List UInt8 :=
  match phase with
  | .drainAdd indexToUppercase | .refillAdd indexToUppercase => [indexToUppercase]
  | _ => []

/-- The bytes a thread holds: its temporary queue's and the one in hand. -/
def DecoderThread.bytes (thread : DecoderThread) : List UInt8 :=
  thread.tempQueue.entries ++ inHand thread.phase

/-- All bytes there are: in the shared queue, in the temporary queues and in hand. -/
def DecoderState.bytes (state : DecoderState) : List UInt8 :=
  state.insideQueue.entries ++ state.threads.flatMap DecoderThread.bytes

/-- The queue call the thread is about to make does not hit its empty or full case. -/
def CallSucceeds (insideQueue : StructForQueueBoi) (thread : DecoderThread) : Prop :=
  match thread.phase with
  | .drainRemove => insideQueue.countOfEntries ≠ 0
  | .drainAdd indexToUppercase => (addToTheQueue thread.tempQueue indexToUppercase).1 = true
  | .refillRemove => thread.tempQueue.countOfEntries ≠ 0
  | .refillAdd indexToUppercase => (addToTheQueue insideQueue indexToUppercase).1 = true
  | _ => True

/-- The bytes are the queue's original ones up to the case of vowels, and every call a
thread is about to make succeeds. -/
def Conserves (queue : RingQueue) (state : DecoderState) : Prop :=
  (state.bytes : Multiset UInt8).map uppercaseVowel =
      (queue.entries : Multiset UInt8).map uppercaseVowel ∧
    ∀ thread ∈ state.threads, CallSucceeds state.insideQueue thread

/-- How many threads passed the test of the shared queue and have not removed yet. -/
def removers (state : DecoderState) : Nat :=
  state.threads.countP fun thread => thread.phase = .drainRemove

/-- A thread finds the shared queue nonempty only while the queue has more entries than
there are threads about to remove one. -/
def TestsWithSpare (state : DecoderState) (j : Nat) : Prop :=
  ∀ thread ∈ state.threads[j]?, thread.phase = .drainTest →
    state.insideQueue.countOfEntries ≠ 0 →
    (removers state : Int) < state.insideQueue.countOfEntries

instance (state : DecoderState) (j : Nat) : Decidable (TestsWithSpare state j) :=
  inferInstanceAs (Decidable (∀ thread ∈ state.threads[j]?, thread.phase = .drainTest →
    state.insideQueue.countOfEntries ≠ 0 →
    (removers state : Int) < state.insideQueue.countOfEntries))

/-- A worker carries the bytes of its thread. -/
theorem content_worker (thread : DecoderThread) :
    (DrainRefill.content thread.worker).Perm thread.bytes := by
  obtain ⟨number, tempQueue, phase⟩ := thread
  cases phase with
  | refillAdd indexToUppercase =>
    change ([indexToUppercase] ++ tempQueue.entries).Perm (tempQueue.entries ++ [indexToUppercase])
    exact List.perm_append_comm
  | _ => simp [DrainRefill.content, DecoderThread.worker, DecoderThread.bytes, inHand]

/-- The items of the pool are the bytes of the threads. -/
theorem items_pool (state : DecoderState) : (DrainRefill.items state.pool).Perm state.bytes := by
  refine List.Perm.append_left _ ?_
  simp only [DecoderState.pool, List.flatMap_map]
  generalize state.threads = threads
  induction threads with
  | nil => exact .rfl
  | cons thread rest inductionHypothesis =>
    exact (content_worker thread).append inductionHypothesis

/-- The pending workers of the pool are the removing threads. -/
theorem pending_pool (state : DecoderState) : DrainRefill.pending state.pool = removers state := by
  simp only [DrainRefill.pending, DecoderState.pool, removers, List.map_map]
  generalize state.threads = threads
  induction threads with
  | nil => rfl
  | cons thread rest inductionHypothesis =>
    rw [List.map_cons, List.sum_cons, inductionHypothesis, List.countP_cons, Nat.add_comm]
    congr 1
    cases phase : thread.phase <;>
      simp [DrainRefill.claim, DecoderThread.worker, phase]

/-- A thread whose worker's next call succeeds has a call that succeeds. -/
theorem call_succeeds_of_worker {size : Nat} {state : DecoderState}
    (formed : QueuesFormed size state) {thread : DecoderThread} (member : thread ∈ state.threads)
    (succeeds : DrainRefill.Succeeds size state.pool.shared thread.worker) :
    CallSucceeds state.insideQueue thread := by
  obtain ⟨temp, tempSize⟩ := formed.temps thread member
  have insideEmpty := formed.inside.empty_iff
  have tempEmpty := temp.empty_iff
  obtain ⟨number, tempQueue, phase⟩ := thread
  simp only at temp tempSize tempEmpty
  cases phase with
  | drainRemove => exact fun empty => succeeds (insideEmpty.mp empty)
  | drainAdd indexToUppercase =>
    change (addToTheQueue tempQueue indexToUppercase).1 = true
    rw [(temp.add_entries indexToUppercase).1, tempSize]
    exact decide_eq_true succeeds
  | refillRemove => exact fun empty => succeeds (tempEmpty.mp empty)
  | refillAdd indexToUppercase =>
    change (addToTheQueue state.insideQueue indexToUppercase).1 = true
    rw [(formed.inside.add_entries indexToUppercase).1, formed.insideSize]
    exact decide_eq_true succeeds
  | drainTest | refillTest | exited => trivial

/-- The condition on a test is the spare item of the worker. -/
theorem spare_of_tests {size : Nat} {state : DecoderState} (formed : QueuesFormed size state)
    {j : Nat} (spare : TestsWithSpare state j) : DrainRefill.Spare state.pool j := by
  intro worker present atTest nonempty
  obtain ⟨thread, found, rfl⟩ : ∃ thread, state.threads[j]? = some thread ∧
      thread.worker = worker := by
    simpa [DecoderState.pool, List.getElem?_map] using present
  have counted := spare thread found atTest fun empty =>
    nonempty (formed.inside.empty_iff.mp empty)
  have nonnegative := formed.inside.countNonnegative
  rw [pending_pool]
  change removers state < state.insideQueue.entries.length
  rw [StructForQueueBoi.entries_length]
  omega

/-- The invariant of runs whose tests find spare entries. -/
structure DecoderAccounted (queue : RingQueue) (state : DecoderState) : Prop where
  formed : QueuesFormed queue.raw.size state
  accounted : DrainRefill.Accounted queue.raw.size uppercaseVowel queue.entries state.pool

/-- One step whose test finds a spare entry preserves the invariant. -/
theorem DecoderAccounted.step {queue : RingQueue} {state next : DecoderState} {j : Nat}
    (invariant : DecoderAccounted queue state) (spare : TestsWithSpare state j)
    (stepped : decoderStep state j = some next) : DecoderAccounted queue next := by
  have viewed : DrainRefill.step (decoderTask queue.raw.size) state.pool j = some next.pool := by
    rw [invariant.formed.pool_step, stepped]
    rfl
  exact ⟨invariant.formed.step stepped,
    invariant.accounted.step uppercase_switch_case (spare_of_tests invariant.formed spare) viewed⟩

/-- The started threads hold nothing yet. -/
theorem start_accounted (memory : Nat → Nat → UInt8) (queue : RingQueue) (numbers : List Nat) :
    DecoderAccounted queue (startThreads memory queue.raw numbers) := by
  refine ⟨start_formed memory queue numbers, ?_⟩
  rw [start_pool]
  have nothing : (DrainRefill.freshWorkers numbers : List (Worker Nat UInt8)).flatMap
      DrainRefill.content = [] := by
    simp [DrainRefill.freshWorkers, DrainRefill.content]
  have idle : ((DrainRefill.freshWorkers numbers : List (Worker Nat UInt8)).map
      DrainRefill.claim).sum = 0 := by
    apply List.sum_eq_zero
    intro claimed member
    obtain ⟨worker, fresh, rfl⟩ := List.mem_map.mp member
    obtain ⟨number, _, rfl⟩ := List.mem_map.mp fresh
    rfl
  refine ⟨?_, queue.wellFormed.entries_le, ?_, ?_⟩
  · simp [DrainRefill.items, nothing]
  · simp [DrainRefill.pending, idle]
  · intro worker member removing
    obtain ⟨number, _, rfl⟩ := List.mem_map.mp member
    simp at removing

/-- The invariant is the conservation of the bytes. -/
theorem DecoderAccounted.conserves {queue : RingQueue} {state : DecoderState}
    (invariant : DecoderAccounted queue state) : Conserves queue state := by
  constructor
  · have same := ((items_pool state).symm.map uppercaseVowel).trans invariant.accounted.conserved
    simpa using Multiset.coe_eq_coe.mpr same
  · intro thread member
    exact call_succeeds_of_worker invariant.formed member
      (invariant.accounted.succeeds (List.mem_map_of_mem member))

/-- In runs whose tests find spare entries the invariant holds in every state. -/
theorem spare_run_accounted {memory : Nat → Nat → UInt8} {queue : RingQueue}
    {numbers schedule : List Nat} {state : DecoderState}
    (ran : TransitionSystem.run decoderStep (startThreads memory queue.raw numbers) schedule =
      some state)
    (spare : TransitionSystem.Meets decoderStep TestsWithSpare
      (startThreads memory queue.raw numbers) schedule) : DecoderAccounted queue state :=
  TransitionSystem.guarded_run_preserves (DecoderAccounted queue)
    (fun _ _ _ invariant guarded stepped => invariant.step guarded stepped)
    (start_accounted memory queue numbers) spare ran

/-- Without a byte at the start the shared queue stays empty. -/
theorem DecoderAccounted.shared_nil {queue : RingQueue} {state : DecoderState}
    (invariant : DecoderAccounted queue state) (empty : queue.entries = []) :
    state.insideQueue.entries = [] := by
  have none : (DrainRefill.items state.pool).length = 0 := by
    rw [invariant.accounted.length, empty]
    rfl
  apply List.eq_nil_of_length_eq_zero
  simp only [DrainRefill.items, List.length_append] at none
  exact Nat.eq_zero_of_add_eq_zero_right none

/-- Without a byte there is no test to pass, so every test is harmless. -/
theorem DecoderAccounted.spare_of_empty {queue : RingQueue} {state : DecoderState}
    (invariant : DecoderAccounted queue state) (empty : queue.entries = []) (j : Nat) :
    TestsWithSpare state j := by
  intro thread _ _ nonempty
  exact absurd (invariant.formed.inside.empty_iff.mpr (invariant.shared_nil empty)) nonempty

/-- A thread about to remove from the empty queue breaks conservation. -/
theorem starved_not_conserves {size : Nat} {queue : RingQueue} {state : DecoderState}
    (formed : QueuesFormed size state) (empty : state.pool.shared = [])
    {worker : Worker Nat UInt8} (member : worker ∈ state.pool.workers)
    (removing : worker.phase = .drainRemove) : ¬ Conserves queue state := by
  rintro ⟨_, succeed⟩
  obtain ⟨thread, inThreads, rfl⟩ := List.mem_map.mp member
  have called := succeed thread inThreads
  have atRemove : thread.phase = .drainRemove := removing
  rw [CallSucceeds, atRemove] at called
  exact called (formed.inside.empty_iff.mpr empty)

/-- On a queue with an entry, two threads can reach a removal from the empty queue. -/
theorem race_breaks_conservation (memory : Nat → Nat → UInt8) (queue : RingQueue)
    (nonempty : queue.entries ≠ []) : ∃ schedule state,
      TransitionSystem.run decoderStep (startThreads memory queue.raw threadNumbers) schedule =
        some state ∧ ¬ Conserves queue state := by
  obtain ⟨first, last, split⟩ : ∃ first last, queue.entries = first ++ [last] :=
    ⟨_, _, (List.dropLast_append_getLast nonempty).symm⟩
  have fits : queue.entries.length ≤ queue.raw.size := queue.wellFormed.entries_le
  have room : first.length ≤ (decoderTask queue.raw.size).capacity := by
    rw [split, List.length_append, List.length_singleton] at fits
    exact Nat.le_of_succ_le fits
  have raced := DrainRefill.race_run (decoderTask queue.raw.size) 1 2
    (DrainRefill.freshWorkers [3, 4, 5, 6]) first last room
  rw [← split] at raced
  obtain ⟨state, ran, viewed⟩ := lift_start_run memory queue threadNumbers raced
  refine ⟨_, state, ran, ?_⟩
  have empty : state.pool.shared = [] := congrArg Pool.shared viewed
  have second : (⟨2, [], .drainRemove⟩ : Worker Nat UInt8) ∈ state.pool.workers := by
    rw [viewed]
    simp
  exact starved_not_conserves (run_formed ran) empty second rfl

/-- A test that finds no spare entry can be followed by removals until one of them is
about to find the queue empty. -/
theorem unspared_test_fails {queue : RingQueue} {state : DecoderState} {j : Nat}
    (invariant : DecoderAccounted queue state) (unspared : ¬ TestsWithSpare state j) :
    ∃ schedule final, TransitionSystem.run decoderStep state (j :: schedule) = some final ∧
      ¬ Conserves queue final := by
  simp only [TestsWithSpare, Option.mem_def, not_forall, not_lt] at unspared
  obtain ⟨thread, present, atTest, nonempty, few⟩ := unspared
  obtain ⟨number, tempQueue, phase⟩ := thread
  obtain rfl : phase = .drainTest := atTest
  let moved : DecoderThread := ⟨number, tempQueue, .drainRemove⟩
  let next : DecoderState := ⟨state.insideQueue, state.threads.set j moved⟩
  have stepped : decoderStep state j = some next := by
    simp [decoderStep, present, serverDecoderStep, nonempty, next, moved]
  have formed : QueuesFormed queue.raw.size next := invariant.formed.step stepped
  have exceeding : next.pool.shared.length < DrainRefill.pending next.pool := by
    have total := MemberUpdate.sum_map_set DrainRefill.claim
      (state.threads.map DecoderThread.worker) j _ moved.worker
      (by rw [List.getElem?_map, present]; rfl)
    rw [← List.map_set] at total
    have counted : (removers state : Int) = DrainRefill.pending state.pool := by rw [pending_pool]
    have nonnegative := invariant.formed.inside.countNonnegative
    have length : next.pool.shared.length = state.insideQueue.countOfEntries.toNat :=
      StructForQueueBoi.entries_length _
    simp only [DrainRefill.claim, DecoderThread.worker, moved] at total
    simp only [DrainRefill.pending, DecoderState.pool, next, moved] at counted length total ⊢
    omega
  obtain ⟨schedule, pool, ran, empty, worker, member, removing⟩ :=
    DrainRefill.overclaimed_fails (decoderTask queue.raw.size) exceeding
  obtain ⟨final, continued, viewed⟩ := formed.lift_run ran
  refine ⟨schedule, final, ?_, ?_⟩
  · rw [TransitionSystem.run_cons, stepped]
    exact continued
  · have finalFormed := TransitionSystem.run_preserves (QueuesFormed queue.raw.size)
      (fun _ _ _ before advanced => before.step advanced) formed continued
    exact starved_not_conserves finalFormed (viewed ▸ empty) (viewed ▸ member) removing

/-- Exactly on the empty queue the bytes are conserved in every interleaving of the six
threads. On any queue they are conserved in every state of a run whose tests find spare
entries, and a test that does not can be followed by steps that break the law. -/
theorem decoding_conserves_iff (memory : Nat → Nat → UInt8) (queue : RingQueue) :
    ((∀ schedule state,
        TransitionSystem.run decoderStep (startThreads memory queue.raw threadNumbers) schedule =
          some state → Conserves queue state) ↔ queue.entries = []) ∧
      (∀ schedule state,
        TransitionSystem.run decoderStep (startThreads memory queue.raw threadNumbers) schedule =
          some state →
        TransitionSystem.Meets decoderStep TestsWithSpare
          (startThreads memory queue.raw threadNumbers) schedule →
        Conserves queue state ∧
          ∀ j, ¬ TestsWithSpare state j → ∃ later final,
            TransitionSystem.run decoderStep state (j :: later) = some final ∧
              ¬ Conserves queue final) := by
  have guarded : ∀ schedule state,
      TransitionSystem.run decoderStep (startThreads memory queue.raw threadNumbers) schedule =
        some state →
      TransitionSystem.Meets decoderStep TestsWithSpare
        (startThreads memory queue.raw threadNumbers) schedule → DecoderAccounted queue state :=
    fun _ _ ran spare => spare_run_accounted ran spare
  refine ⟨⟨?_, ?_⟩, ?_⟩
  · intro always
    by_contra nonempty
    obtain ⟨schedule, state, ran, broken⟩ := race_breaks_conservation memory queue nonempty
    exact broken (always schedule state ran)
  · intro empty schedule state ran
    exact (TransitionSystem.run_preserves (DecoderAccounted queue)
      (fun _ j _ invariant stepped => invariant.step (invariant.spare_of_empty empty j) stepped)
      (start_accounted memory queue threadNumbers) ran).conserves
  · intro schedule state ran spare
    have invariant := guarded schedule state ran spare
    exact ⟨invariant.conserves, fun j unspared => unspared_test_fails invariant unspared⟩

/-- A queue of size 5 with the single byte `h`. -/
def loneByteQueue : RingQueue where
  raw := ⟨['h'.toUInt8, 0, 0, 0, 0], 0, 1, 1, 5⟩
  wellFormed := by constructor <;> decide

/-- Threads 1 and 2 both find the single byte, then both remove: a NUL appears. -/
theorem lone_byte_taken_twice :
    ¬ ∀ schedule state,
      TransitionSystem.run decoderStep
        (startThreads (fun _ _ => 0) loneByteQueue.raw threadNumbers) schedule = some state →
      Conserves loneByteQueue state := by
  intro always
  have conserved := always [0, 1, 0, 1] _ rfl
  exact absurd conserved.1 (by decide)

/-- A queue of size 5 with three bytes. -/
def threeByteQueue : RingQueue where
  raw := ⟨['i'.toUInt8, 'h'.toUInt8, 'a'.toUInt8, 0, 0], 0, 3, 3, 5⟩
  wellFormed := by constructor <;> decide

/-- Threads 1 and 2 both pass their tests before either removes, and put their bytes back in
turn. -/
def drainTogether : List Nat :=
  [0, 1, 0, 1, 0, 1, 0, 0, 0, 1, 0, 1, 0, 1, 0, 1, 0, 1, 0, 0, 0, 0]

/-- There was an entry for each of them, so the bytes are the same, in another order. -/
theorem drained_together_conserved :
    ∃ state, TransitionSystem.run decoderStep
        (startThreads (fun _ _ => 0) threeByteQueue.raw threadNumbers) drainTogether =
          some state ∧
      TransitionSystem.Meets decoderStep TestsWithSpare
        (startThreads (fun _ _ => 0) threeByteQueue.raw threadNumbers) drainTogether ∧
      state.insideQueue.entries = ['h'.toUInt8, 'i'.toUInt8, 'A'.toUInt8] ∧
      Conserves threeByteQueue state := by
  have spare : TransitionSystem.Meets decoderStep TestsWithSpare
      (startThreads (fun _ _ => 0) threeByteQueue.raw threadNumbers) drainTogether := by
    decide
  exact ⟨_, rfl, spare, by decide,
    ((decoding_conserves_iff (fun _ _ => 0) threeByteQueue).2 drainTogether _ rfl spare).1⟩

end HelperChat
