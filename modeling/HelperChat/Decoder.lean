import HelperChat.DrainRefillSolo
import HelperChat.Queue

/-!
# The decoder threads of the helper

`serverDecoder` as a thread on a queue that it shares with others. A step is one
evaluation of a loop test, one whole `removeFromTheQueue` call or one whole
`addToTheQueue` call; the `switch` on the thread number touches local data only and is
taken together with the removal before it. Creating the threads touches no queue, so a
thread that is not created yet is one that has not moved.

The entries of the queues turn a state of the threads into a pool of draining and
refilling workers, step for step.
-/

namespace HelperChat

open DrainRefill (Phase Pool Worker)

/-- The `switch` of `serverDecoder`: the thread's own lower-case vowel becomes upper
case. Thread 6 and any other number change nothing. -/
def switchCase (currentThreadIDCASE : Nat) (indexToUppercase : UInt8) : UInt8 :=
  match currentThreadIDCASE with
  | 1 => if indexToUppercase = 'a'.toUInt8 then 'A'.toUInt8 else indexToUppercase
  | 2 => if indexToUppercase = 'e'.toUInt8 then 'E'.toUInt8 else indexToUppercase
  | 3 => if indexToUppercase = 'i'.toUInt8 then 'I'.toUInt8 else indexToUppercase
  | 4 => if indexToUppercase = 'o'.toUInt8 then 'O'.toUInt8 else indexToUppercase
  | 5 => if indexToUppercase = 'u'.toUInt8 then 'U'.toUInt8 else indexToUppercase
  | _ => indexToUppercase

/-- What the data processing system is for: every lower-case vowel becomes upper case. -/
def uppercaseVowel (char : UInt8) : UInt8 :=
  if char = 'a'.toUInt8 then 'A'.toUInt8
  else if char = 'e'.toUInt8 then 'E'.toUInt8
  else if char = 'i'.toUInt8 then 'I'.toUInt8
  else if char = 'o'.toUInt8 then 'O'.toUInt8
  else if char = 'u'.toUInt8 then 'U'.toUInt8
  else char

/-- A running `serverDecoder`: its number, its temporary queue and where it stands. The
byte in `indexToUppercase` between a removal and the following addition is part of the
phase. -/
structure DecoderThread where
  currentThreadIDCASE : Nat
  tempQueue : StructForQueueBoi
  phase : Phase UInt8
deriving DecidableEq

/-- The shared queue and the threads started on it. -/
structure DecoderState where
  insideQueue : StructForQueueBoi
  threads : List DecoderThread
deriving DecidableEq

/-- One step of a thread: the shared queue and the thread after it. -/
def serverDecoderStep (insideQueue : StructForQueueBoi) (thread : DecoderThread) :
    Option (StructForQueueBoi × DecoderThread) :=
  match thread.phase with
  | .drainTest =>
      if !(insideQueue.countOfEntries == 0) then
        some (insideQueue, { thread with phase := .drainRemove })
      else
        some (insideQueue, { thread with phase := .refillTest })
  | .drainRemove =>
      let (indexToUppercase, queue) := removeFromTheQueue insideQueue
      some (queue, { thread with
        phase := .drainAdd (switchCase thread.currentThreadIDCASE indexToUppercase) })
  | .drainAdd indexToUppercase =>
      let (_, queue) := addToTheQueue thread.tempQueue indexToUppercase
      some (insideQueue, { thread with tempQueue := queue, phase := .drainTest })
  | .refillTest =>
      if !(thread.tempQueue.countOfEntries == 0) then
        some (insideQueue, { thread with phase := .refillRemove })
      else
        some (insideQueue, { thread with phase := .exited })
  | .refillRemove =>
      let (indexToUppercase, queue) := removeFromTheQueue thread.tempQueue
      some (insideQueue, { thread with tempQueue := queue, phase := .refillAdd indexToUppercase })
  | .refillAdd indexToUppercase =>
      let (_, queue) := addToTheQueue insideQueue indexToUppercase
      some (queue, { thread with phase := .refillTest })
  | .exited => none

/-- The thread at position `j` takes its next step. -/
def decoderStep (state : DecoderState) (j : Nat) : Option DecoderState := do
  let thread ← state.threads[j]?
  let (insideQueue, moved) ← serverDecoderStep state.insideQueue thread
  pure ⟨insideQueue, state.threads.set j moved⟩

/-- A thread at its first loop test, its temporary queue set up on given memory. -/
def startThread (memory : Nat → UInt8) (insideQueue : StructForQueueBoi) (threadNumber : Nat) :
    DecoderThread where
  currentThreadIDCASE := threadNumber
  tempQueue := setupTheQueue memory insideQueue.size
  phase := .drainTest

/-- Threads with the given numbers started on one queue. -/
def startThreads (memory : Nat → Nat → UInt8) (insideQueue : StructForQueueBoi)
    (threadNumbers : List Nat) : DecoderState where
  insideQueue := insideQueue
  threads := threadNumbers.mapIdx fun j threadNumber =>
    startThread (memory j) insideQueue threadNumber

/-- The numbers `j + 1` that the thread loop of `main` hands out. -/
def threadNumbers : List Nat := (List.range maxThreads).map (· + 1)

/-- All threads can be joined. -/
def AllExited (state : DecoderState) : Prop := ∀ thread ∈ state.threads, thread.phase = .exited

instance (state : DecoderState) : Decidable (AllExited state) :=
  inferInstanceAs (Decidable (∀ thread ∈ state.threads, thread.phase = .exited))

/-- A thread seen as a worker with the entries of its temporary queue. -/
def DecoderThread.worker (thread : DecoderThread) : Worker Nat UInt8 :=
  ⟨thread.currentThreadIDCASE, thread.tempQueue.entries, thread.phase⟩

/-- A state of the threads seen as a pool. -/
def DecoderState.pool (state : DecoderState) : Pool Nat UInt8 :=
  ⟨state.insideQueue.entries, state.threads.map DecoderThread.worker⟩

/-- The workers' task on queues of a given size. -/
def decoderTask (size : Nat) : DrainRefill.Task Nat UInt8 := ⟨size, 0, switchCase⟩

/-- The shared and all temporary queues are well formed and have the given size. -/
structure QueuesFormed (size : Nat) (state : DecoderState) : Prop where
  inside : state.insideQueue.WellFormed
  insideSize : state.insideQueue.size = size
  temps : ∀ thread ∈ state.threads,
    thread.tempQueue.WellFormed ∧ thread.tempQueue.size = size

/-- A step keeps the queues it touches well formed and of their size. -/
theorem server_decoder_step_formed {size : Nat} {insideQueue after : StructForQueueBoi}
    {thread moved : DecoderThread} (inside : insideQueue.WellFormed)
    (insideSize : insideQueue.size = size) (temp : thread.tempQueue.WellFormed)
    (tempSize : thread.tempQueue.size = size)
    (stepped : serverDecoderStep insideQueue thread = some (after, moved)) :
    (after.WellFormed ∧ after.size = size) ∧
      moved.tempQueue.WellFormed ∧ moved.tempQueue.size = size := by
  obtain ⟨number, tempQueue, phase⟩ := thread
  cases phase with
  | drainTest | refillTest =>
    simp only [serverDecoderStep] at stepped
    split at stepped <;>
    · obtain ⟨rfl, rfl⟩ := Prod.mk.inj (Option.some.inj stepped)
      exact ⟨⟨inside, insideSize⟩, temp, tempSize⟩
  | drainRemove =>
    obtain ⟨rfl, rfl⟩ := Prod.mk.inj (Option.some.inj stepped)
    exact ⟨⟨inside.remove, (StructForQueueBoi.size_remove _).trans insideSize⟩, temp, tempSize⟩
  | drainAdd indexToUppercase =>
    obtain ⟨rfl, rfl⟩ := Prod.mk.inj (Option.some.inj stepped)
    exact ⟨⟨inside, insideSize⟩, temp.add _, (StructForQueueBoi.size_add _ _).trans tempSize⟩
  | refillRemove =>
    obtain ⟨rfl, rfl⟩ := Prod.mk.inj (Option.some.inj stepped)
    exact ⟨⟨inside, insideSize⟩, temp.remove, (StructForQueueBoi.size_remove _).trans tempSize⟩
  | refillAdd indexToUppercase =>
    obtain ⟨rfl, rfl⟩ := Prod.mk.inj (Option.some.inj stepped)
    exact ⟨⟨inside.add _, (StructForQueueBoi.size_add _ _).trans insideSize⟩, temp, tempSize⟩
  | exited => simp [serverDecoderStep] at stepped

/-- A step of a thread is the step of its worker on the entries. -/
theorem advance_worker {size : Nat} {insideQueue : StructForQueueBoi} {thread : DecoderThread}
    (inside : insideQueue.WellFormed) (insideSize : insideQueue.size = size)
    (temp : thread.tempQueue.WellFormed) (tempSize : thread.tempQueue.size = size) :
    DrainRefill.advance (decoderTask size) insideQueue.entries thread.worker =
      (serverDecoderStep insideQueue thread).map fun (queue, moved) =>
        (queue.entries, moved.worker) := by
  obtain ⟨number, tempQueue, phase⟩ := thread
  have insideEmpty := inside.empty_iff
  have tempEmpty := temp.empty_iff
  simp only at temp tempSize tempEmpty
  cases phase with
  | drainTest =>
    by_cases empty : insideQueue.countOfEntries = 0
    · simp [DrainRefill.advance, serverDecoderStep, DecoderThread.worker, empty,
        insideEmpty.mp empty]
    · have some : insideQueue.entries ≠ [] := fun none => empty (insideEmpty.mpr none)
      simp [DrainRefill.advance, serverDecoderStep, DecoderThread.worker, empty, some]
  | drainRemove =>
    obtain ⟨delivered, rest⟩ := inside.remove_entries
    simp [DrainRefill.advance, serverDecoderStep, DecoderThread.worker, decoderTask, delivered,
      rest]
  | drainAdd indexToUppercase =>
    have added := (temp.add_entries indexToUppercase).2
    simp [DrainRefill.advance, serverDecoderStep, DecoderThread.worker, decoderTask, added,
      tempSize]
  | refillTest =>
    by_cases empty : tempQueue.countOfEntries = 0
    · simp [DrainRefill.advance, serverDecoderStep, DecoderThread.worker, empty,
        tempEmpty.mp empty]
    · have some : tempQueue.entries ≠ [] := fun none => empty (tempEmpty.mpr none)
      simp [DrainRefill.advance, serverDecoderStep, DecoderThread.worker, empty, some]
  | refillRemove =>
    obtain ⟨delivered, rest⟩ := temp.remove_entries
    simp [DrainRefill.advance, serverDecoderStep, DecoderThread.worker, decoderTask, delivered,
      rest]
  | refillAdd indexToUppercase =>
    have added := (inside.add_entries indexToUppercase).2
    simp [DrainRefill.advance, serverDecoderStep, DecoderThread.worker, decoderTask, added,
      insideSize]
  | exited => simp [DrainRefill.advance, serverDecoderStep, DecoderThread.worker]

/-- One step keeps every queue well formed and of its size. -/
theorem QueuesFormed.step {size : Nat} {state next : DecoderState} {j : Nat}
    (formed : QueuesFormed size state) (stepped : decoderStep state j = some next) :
    QueuesFormed size next := by
  obtain ⟨thread, present, rest⟩ := Option.bind_eq_some_iff.mp stepped
  obtain ⟨⟨queue, moved⟩, advanced, built⟩ := Option.bind_eq_some_iff.mp rest
  obtain rfl : (⟨queue, state.threads.set j moved⟩ : DecoderState) = next := Option.some.inj built
  obtain ⟨temp, tempSize⟩ := formed.temps thread (List.mem_of_getElem? present)
  obtain ⟨⟨inside, insideSize⟩, movedFormed⟩ :=
    server_decoder_step_formed formed.inside formed.insideSize temp tempSize advanced
  exact ⟨inside, insideSize, MemberUpdate.forall_mem_set formed.temps movedFormed⟩

/-- The threads and the pool of their workers make the same steps. -/
theorem QueuesFormed.pool_step {size : Nat} {state : DecoderState}
    (formed : QueuesFormed size state) (j : Nat) :
    DrainRefill.step (decoderTask size) state.pool j =
      (decoderStep state j).map DecoderState.pool := by
  cases present : state.threads[j]? with
  | none => simp [DrainRefill.step, decoderStep, DecoderState.pool, present]
  | some thread =>
    obtain ⟨temp, tempSize⟩ := formed.temps thread (List.mem_of_getElem? present)
    have same := advance_worker formed.inside formed.insideSize temp tempSize
    cases advanced : serverDecoderStep state.insideQueue thread with
    | none => simp [DrainRefill.step, decoderStep, DecoderState.pool, present, same, advanced]
    | some moved =>
      simp [DrainRefill.step, decoderStep, DecoderState.pool, present, same, advanced,
        List.map_set]

/-- The started threads have well-formed queues of one size. -/
theorem start_formed (memory : Nat → Nat → UInt8) (queue : RingQueue) (numbers : List Nat) :
    QueuesFormed queue.raw.size (startThreads memory queue.raw numbers) := by
  refine ⟨queue.wellFormed, rfl, ?_⟩
  intro thread member
  obtain ⟨j, inside, rfl⟩ := List.mem_mapIdx.mp member
  exact ⟨StructForQueueBoi.setup_well_formed _ queue.wellFormed.positive, rfl⟩

/-- The started threads are fresh workers on the queue's entries. -/
theorem start_pool (memory : Nat → Nat → UInt8) (queue : RingQueue) (numbers : List Nat) :
    (startThreads memory queue.raw numbers).pool =
      ⟨queue.entries, DrainRefill.freshWorkers numbers⟩ := by
  have workers : (startThreads memory queue.raw numbers).threads.map DecoderThread.worker =
      DrainRefill.freshWorkers numbers := by
    refine List.ext_getElem? ?_
    intro j
    simp [startThreads, DrainRefill.freshWorkers, List.getElem?_mapIdx]
    rfl
  rw [DecoderState.pool, workers]
  rfl

/-- Every schedule of the threads is the same schedule of the workers. -/
theorem QueuesFormed.run_pool {size : Nat} {state : DecoderState} (formed : QueuesFormed size state)
    (schedule : List Nat) :
    TransitionSystem.run (DrainRefill.step (decoderTask size)) state.pool schedule =
      (TransitionSystem.run decoderStep state schedule).map DecoderState.pool :=
  TransitionSystem.run_view DecoderState.pool (QueuesFormed size)
    (fun _ _ _ before stepped => before.step stepped) (fun _ j before => before.pool_step j)
    schedule formed

/-- A run of the workers is the view of a run of the threads. -/
theorem QueuesFormed.lift_run {size : Nat} {state : DecoderState} (formed : QueuesFormed size state)
    {schedule : List Nat} {pool : Pool Nat UInt8}
    (ran : TransitionSystem.run (DrainRefill.step (decoderTask size)) state.pool schedule =
      some pool) :
    ∃ final, TransitionSystem.run decoderStep state schedule = some final ∧ final.pool = pool := by
  rw [formed.run_pool] at ran
  exact Option.map_eq_some_iff.mp ran

/-- A run of fresh workers is the view of a run of the started threads. -/
theorem lift_start_run (memory : Nat → Nat → UInt8) (queue : RingQueue) (numbers : List Nat)
    {schedule : List Nat} {pool : Pool Nat UInt8}
    (ran : TransitionSystem.run (DrainRefill.step (decoderTask queue.raw.size))
      ⟨queue.entries, DrainRefill.freshWorkers numbers⟩ schedule = some pool) :
    ∃ state, TransitionSystem.run decoderStep (startThreads memory queue.raw numbers) schedule =
      some state ∧ state.pool = pool := by
  rw [← start_pool memory queue numbers] at ran
  exact (start_formed memory queue numbers).lift_run ran

/-- Every state of a run has well-formed queues of the shared queue's size. -/
theorem run_formed {memory : Nat → Nat → UInt8} {queue : RingQueue} {numbers schedule : List Nat}
    {state : DecoderState}
    (ran : TransitionSystem.run decoderStep (startThreads memory queue.raw numbers) schedule =
      some state) : QueuesFormed queue.raw.size state :=
  TransitionSystem.run_preserves (QueuesFormed queue.raw.size)
    (fun _ _ _ formed stepped => formed.step stepped) (start_formed memory queue numbers) ran

/-- No number changes an upper-case vowel. -/
theorem switch_case_upper (number : Nat) {upper : UInt8}
    (isUpper : upper ∈ ['A'.toUInt8, 'E'.toUInt8, 'I'.toUInt8, 'O'.toUInt8, 'U'.toUInt8]) :
    switchCase number upper = upper := by
  simp only [List.mem_cons, List.not_mem_nil, or_false] at isUpper
  unfold switchCase
  rcases isUpper with rfl | rfl | rfl | rfl | rfl <;> split <;> rfl

/-- The switch leaves a byte alone or makes it one that no number changes. -/
theorem switch_case_cases (number : Nat) (char : UInt8) :
    switchCase number char = char ∨
      ∀ other, switchCase other (switchCase number char) = switchCase number char := by
  by_cases changed : switchCase number char = char
  · exact .inl changed
  · refine .inr fun other => switch_case_upper other ?_
    unfold switchCase at changed ⊢
    split at changed
    case h_6 => exact absurd rfl changed
    all_goals
      split at changed
      case isTrue same => simp [same]
      case isFalse => exact absurd rfl changed

/-- The switch does not change which byte the vowels' upper case gives. -/
theorem uppercase_switch_case (number : Nat) (char : UInt8) :
    uppercaseVowel (switchCase number char) = uppercaseVowel char := by
  unfold switchCase
  split
  case h_6 => rfl
  all_goals
    split
    case isTrue same => rw [same]; rfl
    case isFalse => rfl

/-- A byte that the first five numbers leave alone is not a lower-case vowel. -/
theorem uppercase_of_switched {char : UInt8}
    (settled : ∀ number ∈ threadNumbers, switchCase number char = char) :
    uppercaseVowel char = char := by
  have first := settled 1 (by decide)
  have second := settled 2 (by decide)
  have third := settled 3 (by decide)
  have fourth := settled 4 (by decide)
  have fifth := settled 5 (by decide)
  simp only [switchCase] at first second third fourth fifth
  unfold uppercaseVowel
  split_ifs at * <;> simp_all

end HelperChat
