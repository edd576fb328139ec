import HelperChat.DecoderTermination
import HelperChat.HeapLedger
import HelperChat.HelperRun
import HelperChat.Simulation

/-!
# The helper's heap

What `1_helper.c` allocates in a round: the array of queues, the slots of every queue, and
the slots of the temporary queue of every running thread. The slots of a temporary queue are
freed by its thread, everything else at the end of the round.

In every interleaving the ledger of these blocks runs: nothing is used before its `malloc`
or after its `free`, nothing is freed twice, and between two rounds nothing is left.
-/

namespace HelperChat

open HeapLedger (Entry allocated allocated_zero released released_zero step_access step_allocate
  step_release)

/-- The blocks of a round: `queues`, `queues[i].values`, and `tempQueue.values` of thread `j`
on queue `i`. -/
inductive HelperBlock where
  | queues
  | values (i : Nat)
  | tempValues (i j : Nat)
deriving DecidableEq

/-- `setupTheQueue(&queues[i], sizeOfQueue)`. -/
def setupEntries (i : Nat) : List (Entry HelperBlock) :=
  [.access .queues, .allocate (.values i), .access .queues]

/-- A call of `addToTheQueue` or `removeFromTheQueue` on `&queues[i]`. It counts as an access
to the slots also when it finds the queue full or empty. -/
def callEntries (i : Nat) : List (Entry HelperBlock) := [.access .queues, .access (.values i)]

/-- The loop over all queues that fills or drains them, call after call. -/
def loopEntries (count : Nat) : List (Entry HelperBlock) :=
  (List.range count).flatMap fun i => (List.range sizeOfQueue).flatMap fun _ => callEntries i

/-- The threads of queue `i` read its size and set up their temporary queues. -/
def createEntries (i : Nat) : List (Entry HelperBlock) :=
  (List.range maxThreads).flatMap fun j => [.access .queues, .allocate (.tempValues i j)]

/-- The `free` calls at the end of a round. -/
def freeEntries (count : Nat) : List (Entry HelperBlock) :=
  ((List.range count).flatMap fun i => [.access .queues, .release (.values i)]) ++
    [.release .queues]

/-- The next step of thread `j` on queue `i`. The thread leaves its second loop with
`free(tempQueue.values)`. -/
def threadEntries (i j : Nat) (decoders : DecoderState) : List (Entry HelperBlock) :=
  match decoders.threads[j]? with
  | none => []
  | some thread =>
      match thread.phase with
      | .drainTest => [.access .queues]
      | .drainRemove | .refillAdd _ => callEntries i
      | .drainAdd _ | .refillRemove => [.access (.tempValues i j)]
      | .refillTest =>
          if thread.tempQueue.countOfEntries = 0 then [.release (.tempValues i j)] else []
      | .exited => []

/-- What a step of the helper does with the heap. -/
def heapEntries (helper : Helper) : HelperEvent → List (Entry HelperBlock)
  | .receive datastreamFromMainServer _ _ =>
      let count := numberOfQueues datastreamFromMainServer.length
      .allocate .queues :: (List.range count).flatMap setupEntries ++ loopEntries count ++
        createEntries 0
  | .thread j =>
      match helper.phase with
      | .receiving => []
      | .threading i decoders => threadEntries i j decoders
  | .join _ =>
      match helper.phase with
      | .receiving => []
      | .threading i _ =>
          let count := numberOfQueues helper.dataBytesIncoming
          if i + 1 < count then createEntries (i + 1)
          else loopEntries count ++ freeEntries count

/-- The positions of the threads that have not exited. -/
def running (decoders : DecoderState) : Finset Nat :=
  (Finset.range decoders.threads.length).filter fun j =>
    decoders.threads[j]?.map DecoderThread.phase ≠ some .exited

/-- The array and the slots of so many queues. -/
def queueBlocks (count : Nat) : Finset HelperBlock := allocated {.queues} .values count

/-- The slots of the temporary queues of the running threads. -/
def tempBlocks (i : Nat) (decoders : DecoderState) : Finset HelperBlock :=
  (running decoders).image (.tempValues i)

/-- The blocks that have been allocated and not freed. -/
def Helper.liveBlocks (helper : Helper) : Finset HelperBlock :=
  match helper.phase with
  | .receiving => ∅
  | .threading i decoders =>
      queueBlocks (numberOfQueues helper.dataBytesIncoming) ∪ tempBlocks i decoders

/-- A thread is running if it has not exited. -/
theorem mem_running {decoders : DecoderState} {j : Nat} :
    j ∈ running decoders ↔
      ∃ thread, decoders.threads[j]? = some thread ∧ thread.phase ≠ .exited := by
  rw [running, Finset.mem_filter, Finset.mem_range]
  constructor
  · rintro ⟨inside, goesOn⟩
    refine ⟨decoders.threads[j], List.getElem?_eq_getElem inside, ?_⟩
    simpa [List.getElem?_eq_getElem inside] using goesOn
  · rintro ⟨thread, present, goesOn⟩
    refine ⟨(List.getElem?_eq_some_iff.mp present).1, ?_⟩
    simpa [present] using goesOn

@[simp] theorem queues_live (count : Nat) : HelperBlock.queues ∈ queueBlocks count := by
  simp [queueBlocks, allocated]

@[simp] theorem values_live {count i : Nat} :
    HelperBlock.values i ∈ queueBlocks count ↔ i < count := by
  simp [queueBlocks, allocated]

@[simp] theorem temp_not_queue {count i j : Nat} :
    HelperBlock.tempValues i j ∉ queueBlocks count := by
  simp [queueBlocks, allocated]

@[simp] theorem temp_live {i j : Nat} {decoders : DecoderState} :
    HelperBlock.tempValues i j ∈ tempBlocks i decoders ↔ j ∈ running decoders := by
  simp [tempBlocks]

/-- All threads are running when they have been created. -/
theorem running_start (memory : Nat → Nat → UInt8) (insideQueue : StructForQueueBoi) :
    running (startThreads memory insideQueue threadNumbers) = Finset.range maxThreads := by
  ext j
  rw [mem_running, Finset.mem_range]
  simp [startThreads, startThread, threadNumbers, List.getElem?_eq_some_iff]

/-- No thread is running when all have exited. -/
theorem running_exited {decoders : DecoderState} (exited : AllExited decoders) :
    running decoders = ∅ := by
  apply Finset.eq_empty_of_forall_notMem
  intro j member
  obtain ⟨thread, present, goesOn⟩ := mem_running.mp member
  exact goesOn (exited thread (List.mem_of_getElem? present))

section Loops

variable {live : Finset HelperBlock} {count i : Nat}

/-- A call on a queue finds its blocks live. -/
theorem run_call (isLive : queueBlocks count ⊆ live) (inside : i < count) :
    TransitionSystem.run HeapLedger.step live (callEntries i) = some live := by
  apply HeapLedger.run_accesses
  intro entry member
  simp only [callEntries, List.mem_cons, List.not_mem_nil, or_false] at member
  rcases member with rfl | rfl
  · exact ⟨_, isLive (queues_live count), rfl⟩
  · exact ⟨_, isLive (values_live.mpr inside), rfl⟩

/-- The loops over all queues find all blocks live. -/
theorem run_queue_loop (count : Nat) :
    TransitionSystem.run HeapLedger.step (queueBlocks count) (loopEntries count) =
      some (queueBlocks count) := by
  refine TransitionSystem.run_loop (fun _ => queueBlocks count) ?_
  intro i below
  refine TransitionSystem.run_loop (fun _ => queueBlocks count) ?_
  intro _ _
  exact run_call subset_rfl below

/-- The loop that sets up the queues. -/
theorem run_setup (count : Nat) :
    TransitionSystem.run HeapLedger.step {HelperBlock.queues}
        ((List.range count).flatMap setupEntries) = some (queueBlocks count) := by
  rw [← allocated_zero {HelperBlock.queues} .values]
  refine TransitionSystem.run_loop queueBlocks ?_
  intro i _
  have allocates : HeapLedger.step (queueBlocks i) (.allocate (.values i)) =
      some (queueBlocks (i + 1)) :=
    step_allocate (fun _ _ same => HelperBlock.values.inj same) (by simp)
  simp [setupEntries, allocates, step_access]

/-- The threads of a queue set up their temporary queues. -/
theorem run_create (count i : Nat) (memory : Nat → Nat → UInt8) (insideQueue : StructForQueueBoi) :
    TransitionSystem.run HeapLedger.step (queueBlocks count) (createEntries i) =
      some (queueBlocks count ∪ tempBlocks i (startThreads memory insideQueue threadNumbers)) := by
  rw [tempBlocks, running_start]
  nth_rewrite 1 [← allocated_zero (queueBlocks count) (.tempValues i)]
  refine TransitionSystem.run_loop (allocated (queueBlocks count) (.tempValues i)) ?_
  intro j _
  have allocates : HeapLedger.step (allocated (queueBlocks count) (.tempValues i) j)
      (.allocate (.tempValues i j)) =
      some (allocated (queueBlocks count) (.tempValues i) (j + 1)) :=
    step_allocate (fun _ _ same => (HelperBlock.tempValues.inj same).2) temp_not_queue
  have isLive : HelperBlock.queues ∈ allocated (queueBlocks count) (.tempValues i) j :=
    Finset.mem_union_left _ (queues_live count)
  simp [allocates, step_access isLive]

/-- The end of a round frees all blocks of the queues. -/
theorem run_free (count : Nat) :
    TransitionSystem.run HeapLedger.step (queueBlocks count) (freeEntries count) = some ∅ := by
  have loop : TransitionSystem.run HeapLedger.step (released (queueBlocks count) .values 0)
      ((List.range count).flatMap fun i => [.access .queues, .release (.values i)]) =
      some (released (queueBlocks count) .values count) := by
    refine TransitionSystem.run_loop (released (queueBlocks count) .values) ?_
    intro i below
    have releases : HeapLedger.step (released (queueBlocks count) .values i)
        (.release (.values i)) = some (released (queueBlocks count) .values (i + 1)) :=
      step_release (fun _ _ same => HelperBlock.values.inj same) (values_live.mpr below)
    have isLive : HelperBlock.queues ∈ released (queueBlocks count) .values i := by
      simp [released]
    simp [releases, step_access isLive]
  have left : released (queueBlocks count) .values count = {.queues} := by
    ext block
    cases block <;> simp [released, queueBlocks, allocated]
  rw [released_zero, left] at loop
  refine TransitionSystem.run_trans loop ?_
  simp [HeapLedger.step]

end Loops

section Thread

variable {decoders after : DecoderState} {thread moved : DecoderThread} {i j count : Nat}

/-- A thread that has moved goes on running unless it has exited. -/
theorem running_set (moved : DecoderThread) (queue : StructForQueueBoi)
    (present : decoders.threads[j]? = some thread)
    (goesOn : thread.phase ≠ .exited) :
    running ⟨queue, decoders.threads.set j moved⟩ =
      if moved.phase = .exited then (running decoders).erase j else running decoders := by
  have inside : j < decoders.threads.length := (List.getElem?_eq_some_iff.mp present).1
  ext k
  by_cases same : j = k
  · subst same
    have before : j ∈ running decoders := mem_running.mpr ⟨thread, present, goesOn⟩
    simp only [mem_running, List.getElem?_set_self inside, Option.some.injEq, exists_eq_left']
    split <;> simp [*]
  · have unchanged : k ∈ running ⟨queue, decoders.threads.set j moved⟩ ↔
        k ∈ running decoders := by
      simp only [mem_running, List.getElem?_set_ne same]
    rw [unchanged]
    split <;> simp [Ne.symm same]

/-- A thread exits when it finds its temporary queue empty in its second loop. -/
theorem exits_iff {insideQueue queue : StructForQueueBoi}
    (stepped : serverDecoderStep insideQueue thread = some (queue, moved)) :
    moved.phase = .exited ↔ thread.phase = .refillTest ∧ thread.tempQueue.countOfEntries = 0 := by
  cases phase : thread.phase with
  | drainTest | refillTest =>
    simp only [serverDecoderStep, phase] at stepped
    split at stepped <;>
    · obtain ⟨rfl, rfl⟩ := Prod.mk.inj (Option.some.inj stepped)
      simp_all
  | drainRemove | drainAdd | refillRemove | refillAdd =>
    simp only [serverDecoderStep, phase] at stepped
    obtain ⟨rfl, rfl⟩ := Prod.mk.inj (Option.some.inj stepped)
    simp
  | exited => simp [serverDecoderStep, phase] at stepped

/-- A step of a thread finds its blocks live and frees none but its own. -/
theorem run_thread (advanced : decoderStep decoders j = some after) (inside : i < count) :
    TransitionSystem.run HeapLedger.step (queueBlocks count ∪ tempBlocks i decoders)
        (threadEntries i j decoders) = some (queueBlocks count ∪ tempBlocks i after) := by
  obtain ⟨thread, present, rest⟩ := Option.bind_eq_some_iff.mp advanced
  obtain ⟨⟨queue, moved⟩, stepped, built⟩ := Option.bind_eq_some_iff.mp rest
  obtain rfl : (⟨queue, decoders.threads.set j moved⟩ : DecoderState) = after :=
    Option.some.inj built
  have goesOn : thread.phase ≠ .exited := by
    intro exited
    simp [serverDecoderStep, exited] at stepped
  have ownLive : HelperBlock.tempValues i j ∈ queueBlocks count ∪ tempBlocks i decoders :=
    Finset.mem_union_right _ (temp_live.mpr (mem_running.mpr ⟨thread, present, goesOn⟩))
  have queuesLive : HelperBlock.queues ∈ queueBlocks count ∪ tempBlocks i decoders :=
    Finset.mem_union_left _ (queues_live count)
  have remaining := running_set moved queue present goesOn
  simp only [threadEntries, present]
  by_cases exits : moved.phase = .exited
  · obtain ⟨phase, empty⟩ := (exits_iff stepped).mp exits
    have erased : (queueBlocks count ∪ tempBlocks i decoders).erase (.tempValues i j) =
        queueBlocks count ∪ tempBlocks i ⟨queue, decoders.threads.set j moved⟩ := by
      rw [tempBlocks, tempBlocks, remaining, if_pos exits, Finset.erase_union_distrib,
        Finset.erase_eq_of_notMem temp_not_queue, Finset.image_erase]
      exact fun _ _ same => (HelperBlock.tempValues.inj same).2
    simp [phase, empty, HeapLedger.step, ownLive, erased]
  · have kept : tempBlocks i ⟨queue, decoders.threads.set j moved⟩ = tempBlocks i decoders := by
      rw [tempBlocks, tempBlocks, remaining, if_neg exits]
    have call : TransitionSystem.run HeapLedger.step (queueBlocks count ∪ tempBlocks i decoders)
        (callEntries i) = some (queueBlocks count ∪ tempBlocks i decoders) :=
      run_call Finset.subset_union_left inside
    rw [kept]
    cases phase : thread.phase with
    | drainTest => simp [step_access queuesLive]
    | drainRemove | refillAdd => simpa using call
    | drainAdd | refillRemove => simp [step_access ownLive]
    | refillTest =>
      have filled : thread.tempQueue.countOfEntries ≠ 0 :=
        fun empty => exits ((exits_iff stepped).mpr ⟨phase, empty⟩)
      simp [filled]
    | exited => exact absurd phase goesOn

end Thread

/-- The blocks are those of the queues of a chunk that fits the buffer and of at most so many
threads. -/
def HeapLocated (helper : Helper) : Prop :=
  HelperLocated helper ∧
    ∀ i decoders, helper.phase = .threading i decoders → decoders.threads.length = maxThreads

/-- The helper starts with no block. -/
theorem start_heap_located : HeapLocated startHelper :=
  ⟨start_located, fun _ _ phase => by cases phase⟩

/-- Threads are created together and only move from then on. -/
theorem HeapLocated.step {helper next : Helper} {event : HelperEvent}
    (located : HeapLocated helper) (stepped : helperStep helper event = some next) :
    HeapLocated next := by
  refine ⟨helper_step_located located.1 stepped, ?_⟩
  intro k current phase
  cases helper_move stepped with
  | receives | joins =>
    obtain ⟨rfl, rfl⟩ := HelperPhase.threading.inj phase
    simp [startThreads, threadNumbers]
  | decodes j i decoders after before advanced =>
    obtain ⟨rfl, rfl⟩ := HelperPhase.threading.inj phase
    obtain ⟨thread, present, rest⟩ := Option.bind_eq_some_iff.mp advanced
    obtain ⟨⟨queue, moved⟩, stepped, built⟩ := Option.bind_eq_some_iff.mp rest
    obtain rfl : (⟨queue, decoders.threads.set j moved⟩ : DecoderState) = after :=
      Option.some.inj built
    exact List.length_set.trans (located.2 i decoders before)
  | replies => cases phase

/-- At most the array, the slots of 20 queues and those of six threads are live. -/
theorem HeapLocated.card_le {helper : Helper} (located : HeapLocated helper) :
    helper.liveBlocks.card ≤ 27 := by
  obtain ⟨located, created⟩ := located
  cases phase : helper.phase with
  | receiving => simp [Helper.liveBlocks, phase]
  | threading i decoders =>
    simp only [HelperLocated, phase] at located
    obtain ⟨finished, chunk, threading⟩ := located
    have queues : (queueBlocks (numberOfQueues helper.dataBytesIncoming)).card ≤ 1 + 20 := by
      have few : numberOfQueues helper.dataBytesIncoming ≤ 20 := by
        have short := threading.short
        rw [threading.current]
        unfold numberOfQueues sizeOfQueue
        unfold bufferSize at short
        omega
      calc
        _ ≤ 1 + (Finset.image HelperBlock.values (Finset.range _)).card :=
          Finset.card_union_le _ _
        _ ≤ 1 + 20 := by
          gcongr
          exact Finset.card_image_le.trans (by simpa using few)
    have threads : (tempBlocks i decoders).card ≤ 6 := by
      calc
        _ ≤ (running decoders).card := Finset.card_image_le
        _ ≤ (Finset.range decoders.threads.length).card := Finset.card_filter_le _ _
        _ = 6 := by rw [Finset.card_range, created i decoders phase]; rfl
    simp only [Helper.liveBlocks, phase]
    exact (Finset.card_union_le _ _).trans (Nat.add_le_add queues threads)

/-- What a step does with the heap leads from its live blocks to those of the next state. -/
theorem heap_step {helper next : Helper} {event : HelperEvent} (located : HeapLocated helper)
    (stepped : helperStep helper event = some next) :
    TransitionSystem.run HeapLedger.step helper.liveBlocks (heapEntries helper event) =
      some next.liveBlocks := by
  cases helper_move stepped with
  | receives datastreamFromMainServer memory tempMemory receiving nonempty short =>
    have allocates : HeapLedger.step ∅ (.allocate HelperBlock.queues) = some {.queues} := rfl
    have begun (count : Nat) : TransitionSystem.run HeapLedger.step ∅
        (.allocate .queues :: (List.range count).flatMap setupEntries) =
        some (queueBlocks count) := by
      rw [TransitionSystem.run_cons, allocates]
      exact run_setup count
    simp only [Helper.liveBlocks, receiving, heapEntries]
    exact TransitionSystem.run_trans (TransitionSystem.run_trans (begun _) (run_queue_loop _))
      (run_create _ _ _ _)
  | decodes j i decoders after phase advanced =>
    obtain ⟨located, -⟩ := located
    simp only [HelperLocated, phase] at located
    obtain ⟨finished, chunk, threading⟩ := located
    have inside : i < numberOfQueues helper.dataBytesIncoming :=
      threading.current ▸ threading.inside
    simp only [Helper.liveBlocks, phase, heapEntries, Helper.decoded]
    exact run_thread advanced inside
  | joins tempMemory i decoders phase exited more =>
    simp only [Helper.liveBlocks, phase, heapEntries, if_pos more, tempBlocks,
      running_exited exited, Finset.image_empty, Finset.union_empty]
    exact run_create _ _ _ _
  | replies tempMemory i decoders phase exited done =>
    simp only [Helper.liveBlocks, phase, heapEntries, if_neg (Nat.not_lt.mpr done), tempBlocks,
      running_exited exited, Finset.image_empty, Finset.union_empty]
    exact TransitionSystem.run_trans (run_queue_loop _) (run_free _)

/-- In every run every access finds its block live, no block is allocated twice or freed
twice, at most 27 blocks are live at a time, and at `recv` there are none. The threads may be
scheduled in any way and the chunks have up to 100 bytes; whether an access is inside its
block is not asked here. -/
theorem heap_ledger_balanced {events : List HelperEvent} {helper : Helper}
    (ran : TransitionSystem.run helperStep startHelper events = some helper) :
    ∃ live, TransitionSystem.run HeapLedger.step ∅
        (TransitionSystem.emitted heapEntries helperStep startHelper events) = some live ∧
      live.card ≤ 27 ∧ (helper.phase = .receiving → live = ∅) := by
  have located : HeapLocated helper :=
    TransitionSystem.run_preserves HeapLocated (fun _ _ _ before stepped => before.step stepped)
      start_heap_located ran
  refine ⟨helper.liveBlocks, ?_, located.card_le, ?_⟩
  · exact TransitionSystem.emitted_run Helper.liveBlocks HeapLocated
      (fun _ _ _ before _ stepped => ⟨heap_step before stepped, before.step stepped⟩)
      start_heap_located (TransitionSystem.meets_trivial _ _) ran
  · intro receiving
    simp only [Helper.liveBlocks, receiving]

/-- A round for a full buffer. -/
theorem full_round_balanced :
    ∃ events helper, TransitionSystem.run helperStep startHelper events = some helper ∧
      helper.received = [List.replicate 100 'x'.toUInt8] ∧
      TransitionSystem.run HeapLedger.step ∅
        (TransitionSystem.emitted heapEntries helperStep startHelper events) = some ∅ := by
  let chunk := List.replicate 100 'x'.toUInt8
  have received : 1 ≤ chunk.length ∧ chunk.length ≤ bufferSize := by
    simp [chunk, bufferSize]
  obtain ⟨events, final, ran, receiving, last⟩ :=
    chunk_can_be_served start_located rfl received.1 received.2 (fun _ _ => 0) (fun _ _ => 0)
  obtain ⟨live, balanced, -, empty⟩ := heap_ledger_balanced ran
  obtain rfl := empty receiving
  exact ⟨_, final, ran, last, balanced⟩

end HelperChat
