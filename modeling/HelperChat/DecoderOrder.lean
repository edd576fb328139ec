import HelperChat.DecoderConservation
import HelperChat.DrainRefillOrder

/-!
# The result of the six decoder threads

All six threads must transform every byte, but a thread leaves its drain loop as soon
as it finds the queue empty, and the queue is also empty while another thread holds the
bytes. The vowel of a thread that leaves too early stays in lower case.

The result is right in runs in which a thread removes a byte, or finds the queue empty,
only while no other thread holds bytes. Over all interleavings it is right for two kinds
of queues only: the empty one, and one that is full of NUL bytes, where invented NULs
cannot be told from the original ones.
-/

namespace HelperChat

open DrainRefill (Phase Pool Worker)

/-- What the threads are to leave in the queue: the original bytes in their order, each
lower-case vowel in upper case. -/
def Uppercased (queue : RingQueue) (state : DecoderState) : Prop :=
  state.insideQueue.entries = queue.entries.map uppercaseVowel

/-- A thread removes a byte or finds the shared queue empty only while no other thread
holds a byte. -/
def Undisturbed (state : DecoderState) (j : Nat) : Prop :=
  ∀ thread ∈ state.threads[j]?,
    thread.phase = .drainRemove ∨
      (thread.phase = .drainTest ∧ state.insideQueue.countOfEntries = 0) →
    ∀ i < state.threads.length, i ≠ j → ∀ other ∈ state.threads[i]?, other.bytes = []

instance (state : DecoderState) (j : Nat) : Decidable (Undisturbed state j) :=
  inferInstanceAs (Decidable (∀ thread ∈ state.threads[j]?,
    thread.phase = .drainRemove ∨
      (thread.phase = .drainTest ∧ state.insideQueue.countOfEntries = 0) →
    ∀ i < state.threads.length, i ≠ j → ∀ other ∈ state.threads[i]?, other.bytes = []))

/-- The switch settles a byte for its number once and for all. -/
theorem switch_case_settling : DrainRefill.Settling switchCase uppercaseVowel
    fun number char => switchCase number char = char where
  unchanged := uppercase_switch_case
  settles number char := by
    rcases switch_case_cases number char with same | fixed
    · rw [same, same]
    · exact fixed number
  keeps number other char settled := by
    rcases switch_case_cases other char with same | fixed
    · rw [same, settled]
    · exact fixed number

/-- No thread changes its number. -/
theorem step_numbers {state next : DecoderState} {j : Nat}
    (stepped : decoderStep state j = some next) :
    next.threads.map DecoderThread.currentThreadIDCASE =
      state.threads.map DecoderThread.currentThreadIDCASE := by
  obtain ⟨thread, present, rest⟩ := Option.bind_eq_some_iff.mp stepped
  obtain ⟨⟨queue, moved⟩, advanced, built⟩ := Option.bind_eq_some_iff.mp rest
  obtain rfl : (⟨queue, state.threads.set j moved⟩ : DecoderState) = next := Option.some.inj built
  refine MemberUpdate.map_set_same _ state.threads j thread moved present ?_
  obtain ⟨number, tempQueue, phase⟩ := thread
  cases phase with
  | exited => simp [serverDecoderStep] at advanced
  | drainTest | refillTest =>
    simp only [serverDecoderStep] at advanced
    split at advanced <;> exact (Prod.mk.inj (Option.some.inj advanced)).2 ▸ rfl
  | drainRemove | drainAdd | refillRemove | refillAdd =>
    exact (Prod.mk.inj (Option.some.inj advanced)).2 ▸ rfl

/-- The numbers of the threads are those they were started with. -/
theorem run_numbers {memory : Nat → Nat → UInt8} {queue : StructForQueueBoi}
    {numbers schedule : List Nat} {state : DecoderState}
    (ran : TransitionSystem.run decoderStep (startThreads memory queue numbers) schedule =
      some state) : state.threads.map DecoderThread.currentThreadIDCASE = numbers := by
  have started : (startThreads memory queue numbers).threads.map
      DecoderThread.currentThreadIDCASE = numbers := by
    refine List.ext_getElem? ?_
    intro j
    simp only [startThreads, List.getElem?_map, List.getElem?_mapIdx, Option.map_map]
    cases numbers[j]? <;> rfl
  exact TransitionSystem.run_preserves
    (fun state => state.threads.map DecoderThread.currentThreadIDCASE = numbers)
    (fun _ _ _ same stepped => (step_numbers stepped).trans same) started ran

/-- A thread without bytes is a worker without content. -/
theorem content_of_no_bytes {thread : DecoderThread} (none : thread.bytes = []) :
    DrainRefill.content thread.worker = [] :=
  List.perm_nil.mp (none ▸ content_worker thread)

/-- The condition on the threads is the one on the workers. -/
theorem undisturbed_pool {size : Nat} {state : DecoderState} (formed : QueuesFormed size state)
    {j : Nat} (undisturbed : Undisturbed state j) : DrainRefill.Undisturbed state.pool j := by
  intro worker present moving other member different found
  obtain ⟨thread, inThreads, rfl⟩ : ∃ thread, state.threads[j]? = some thread ∧
      thread.worker = worker := by
    simpa [DecoderState.pool, List.getElem?_map] using present
  obtain ⟨another, elsewhere, rfl⟩ : ∃ thread, state.threads[other]? = some thread ∧
      thread.worker = member := by
    simpa [DecoderState.pool, List.getElem?_map] using found
  have inside : other < state.threads.length := (List.getElem?_eq_some_iff.mp elsewhere).1
  have empty : state.pool.shared = [] → state.insideQueue.countOfEntries = 0 :=
    formed.inside.empty_iff.mpr
  exact content_of_no_bytes (undisturbed thread inThreads
    (moving.imp id fun atTest => ⟨atTest.1, empty atTest.2⟩) other inside different another
    elsewhere)

/-- Undisturbed runs of the threads are undisturbed runs of the workers. -/
theorem undisturbed_pool_run {size : Nat} {state : DecoderState} (formed : QueuesFormed size state)
    {schedule : List Nat}
    (undisturbed : TransitionSystem.Meets decoderStep Undisturbed state schedule) :
    TransitionSystem.Meets (DrainRefill.step (decoderTask size)) DrainRefill.Undisturbed
      state.pool schedule := by
  induction schedule generalizing state with
  | nil => trivial
  | cons j rest inductionHypothesis =>
    refine ⟨undisturbed_pool formed undisturbed.1, ?_⟩
    intro pool stepped
    rw [formed.pool_step] at stepped
    obtain ⟨next, advanced, rfl⟩ := Option.map_eq_some_iff.mp stepped
    exact inductionHypothesis (formed.step advanced) (undisturbed.2 next advanced)

/-- The workers of threads that have all exited have exited. -/
theorem AllExited.pool {state : DecoderState} (exited : AllExited state) :
    ∀ worker ∈ state.pool.workers, worker.phase = .exited := by
  intro worker member
  obtain ⟨thread, inThreads, rfl⟩ := List.mem_map.mp member
  exact exited thread inThreads

/-- A run of the started threads is a run of their workers. -/
theorem start_run_pool {memory : Nat → Nat → UInt8} {queue : RingQueue}
    {numbers schedule : List Nat} {state : DecoderState}
    (ran : TransitionSystem.run decoderStep (startThreads memory queue.raw numbers) schedule =
      some state) :
    TransitionSystem.run (DrainRefill.step (decoderTask queue.raw.size))
      (startThreads memory queue.raw numbers).pool schedule = some state.pool := by
  rw [(start_formed memory queue numbers).run_pool, ran]
  rfl

/-- A byte that becomes NUL was NUL. -/
theorem uppercase_eq_zero {char : UInt8} (zero : uppercaseVowel char = 0) : char = 0 := by
  unfold uppercaseVowel at zero
  split_ifs at zero <;> first | exact zero | exact absurd zero (by decide)

/-- An undisturbed run of the six threads leaves the uppercased bytes in order. -/
theorem undisturbed_run_uppercases {memory : Nat → Nat → UInt8} {queue : RingQueue}
    {schedule : List Nat} {state : DecoderState}
    (ran : TransitionSystem.run decoderStep (startThreads memory queue.raw threadNumbers)
      schedule = some state)
    (exited : AllExited state)
    (undisturbed : TransitionSystem.Meets decoderStep Undisturbed
      (startThreads memory queue.raw threadNumbers) schedule) : Uppercased queue state := by
  have formed := start_formed memory queue threadNumbers
  have fresh : ∀ worker ∈ (startThreads memory queue.raw threadNumbers).pool.workers,
      worker.held = [] ∧ worker.phase = .drainTest := by
    rw [start_pool]
    intro worker member
    obtain ⟨number, _, rfl⟩ := List.mem_map.mp member
    exact ⟨rfl, rfl⟩
  obtain ⟨images, settled⟩ := DrainRefill.undisturbed_run_settles
    switch_case_settling formed.inside.entries_le fresh (undisturbed_pool_run formed undisturbed)
    (start_run_pool ran) exited.pool
  have upper : ∀ char ∈ state.insideQueue.entries, uppercaseVowel char = char := by
    intro char queued
    apply uppercase_of_switched
    intro number among
    rw [← run_numbers ran] at among
    obtain ⟨thread, member, rfl⟩ := List.mem_map.mp among
    exact settled thread.worker (List.mem_map_of_mem member) char queued
  calc state.insideQueue.entries
      = state.insideQueue.entries.map uppercaseVowel :=
        ((List.map_congr_left upper).trans (List.map_id' _)).symm
    _ = queue.entries.map uppercaseVowel := images

/-- A list that equals its own items shifted behind a zero has zeros only, when the
shifted items keep zero and the compared ones reflect it. -/
theorem shifted_zeros {upper lower : UInt8 → UInt8} (reflects : ∀ char, upper char = 0 → char = 0)
    (keeps : lower 0 = 0) {chars : List UInt8}
    (shifted : chars.map upper = (0 :: chars.map lower).take chars.length) :
    chars = List.replicate chars.length 0 := by
  induction chars with
  | nil => rfl
  | cons char rest inductionHypothesis =>
    obtain ⟨first, others⟩ : upper char = 0 ∧
        rest.map upper = (lower char :: rest.map lower).take rest.length := by
      simpa using shifted
    have zero : char = 0 := reflects char first
    subst zero
    rw [keeps] at others
    rw [List.length_cons, List.replicate_succ, ← inductionHypothesis others]

/-- On a queue with an entry the threads can finish with a NUL before the bytes. -/
theorem blank_first_run (memory : Nat → Nat → UInt8) (queue : RingQueue)
    (nonempty : queue.entries ≠ []) : ∃ schedule state,
      TransitionSystem.run decoderStep (startThreads memory queue.raw threadNumbers) schedule =
        some state ∧ AllExited state ∧
      state.insideQueue.entries = (0 :: queue.entries.map (DrainRefill.applyAll
        (decoderTask queue.raw.size) [1, 3, 4, 5, 6])).take queue.raw.size := by
  obtain ⟨first, last, split⟩ : ∃ first last, queue.entries = first ++ [last] :=
    ⟨_, _, (List.dropLast_append_getLast nonempty).symm⟩
  have fits : queue.entries.length ≤ queue.raw.size := queue.wellFormed.entries_le
  have room : first.length < (decoderTask queue.raw.size).capacity := by
    rw [split, List.length_append, List.length_singleton] at fits
    exact fits
  have blanked := DrainRefill.blank_run (decoderTask queue.raw.size) 1 2
    (DrainRefill.freshWorkers [3, 4, 5, 6]) first last room
  rw [← split] at blanked
  have passed : TransitionSystem.run (DrainRefill.step (decoderTask queue.raw.size))
      ⟨(switchCase 2 0 :: queue.entries.map (switchCase 1)).take queue.raw.size,
        [⟨1, [], .exited⟩, ⟨2, [], .exited⟩] ++ DrainRefill.freshWorkers [3, 4, 5, 6]⟩
      (DrainRefill.passesSchedule 2 [3, 4, 5, 6]
        ((switchCase 2 0 :: queue.entries.map (switchCase 1)).take queue.raw.size).length) =
      some ⟨((switchCase 2 0 :: queue.entries.map (switchCase 1)).take queue.raw.size).map
          (DrainRefill.applyAll (decoderTask queue.raw.size) [3, 4, 5, 6]),
        [⟨1, [], .exited⟩, ⟨2, [], .exited⟩] ++ DrainRefill.exitedWorkers [3, 4, 5, 6]⟩ :=
    DrainRefill.passes_run (List.length_take_le _ _)
  obtain ⟨state, ran, viewed⟩ :=
    lift_start_run memory queue threadNumbers (TransitionSystem.run_trans blanked passed)
  refine ⟨_, state, ran, ?_, ?_⟩
  · intro thread member
    have inPool : thread.worker ∈ state.pool.workers := List.mem_map_of_mem member
    rw [viewed] at inPool
    simp only [DrainRefill.exitedWorkers, List.map_cons, List.map_nil, List.cons_append,
      List.nil_append, List.mem_cons, List.not_mem_nil, or_false] at inPool
    rcases inPool with same | same | same | same | same | same <;>
      exact congrArg Worker.phase same
  · have queued : state.insideQueue.entries =
        ((switchCase 2 0 :: queue.entries.map (switchCase 1)).take queue.raw.size).map
          (DrainRefill.applyAll (decoderTask queue.raw.size) [3, 4, 5, 6]) :=
      congrArg Pool.shared viewed
    rw [queued, List.map_take, List.map_cons, List.map_map]
    rfl

/-- If every run leaves the uppercased bytes, so does the one that puts a NUL before them;
then the queue is empty or full of NUL bytes. -/
theorem blank_of_always_uppercased {memory : Nat → Nat → UInt8} {queue : RingQueue}
    (always : ∀ schedule state,
      TransitionSystem.run decoderStep (startThreads memory queue.raw threadNumbers) schedule =
        some state → AllExited state → Uppercased queue state) :
    queue.entries = [] ∨ queue.entries = List.replicate queue.raw.size 0 := by
  by_cases nonempty : queue.entries = []
  · exact .inl nonempty
  · right
    obtain ⟨schedule, state, ran, exited, result⟩ := blank_first_run memory queue nonempty
    have uppercased : queue.entries.map uppercaseVowel = _ :=
      (always schedule state ran exited).symm.trans result
    have fits : queue.entries.length ≤ queue.raw.size := queue.wellFormed.entries_le
    have full : queue.entries.length = queue.raw.size := by
      have lengths := congrArg List.length uppercased
      simp only [List.length_map, List.length_take, List.length_cons] at lengths
      omega
    rw [← full] at uppercased ⊢
    exact shifted_zeros (fun _ => uppercase_eq_zero) rfl uppercased

/-- Every run on an empty queue leaves it empty. -/
theorem empty_run_uppercases {memory : Nat → Nat → UInt8} {queue : RingQueue}
    {schedule : List Nat} {state : DecoderState} (empty : queue.entries = [])
    (ran : TransitionSystem.run decoderStep (startThreads memory queue.raw threadNumbers)
      schedule = some state) : Uppercased queue state := by
  have accounted := TransitionSystem.run_preserves (DecoderAccounted queue)
    (fun _ j _ invariant stepped => invariant.step (invariant.spare_of_empty empty j) stepped)
    (start_accounted memory queue threadNumbers) ran
  have none : state.insideQueue.entries = [] := accounted.shared_nil empty
  rw [Uppercased, none, empty]
  rfl

/-- Every run on a queue full of NUL bytes leaves it full of NUL bytes. -/
theorem blank_run_uppercases {memory : Nat → Nat → UInt8} {queue : RingQueue}
    {schedule : List Nat} {state : DecoderState}
    (blank : queue.entries = List.replicate queue.raw.size 0)
    (ran : TransitionSystem.run decoderStep (startThreads memory queue.raw threadNumbers)
      schedule = some state)
    (exited : AllExited state) : Uppercased queue state := by
  have full : DrainRefill.BlankFull (decoderTask queue.raw.size)
      (startThreads memory queue.raw threadNumbers).pool := by
    have none : (DrainRefill.freshWorkers threadNumbers : List (Worker Nat UInt8)).flatMap
        DrainRefill.content = [] := rfl
    rw [start_pool]
    refine ⟨?_, ?_, queue.wellFormed.entries_le, ?_⟩
    · intro item among
      simp only [DrainRefill.items, none, List.append_nil, blank] at among
      exact List.eq_of_mem_replicate among
    · simp [DrainRefill.items, none, blank, decoderTask]
    · intro worker member gone
      obtain ⟨number, _, rfl⟩ := List.mem_map.mp member
      rfl
  have stable : ∀ number, switchCase number 0 = 0 := by
    intro number
    unfold switchCase
    split <;> rfl
  have result : state.insideQueue.entries = List.replicate queue.raw.size 0 :=
    DrainRefill.blank_run_full stable full (start_run_pool ran) exited.pool
  rw [Uppercased, result, blank, List.map_replicate]
  rfl

/-- Exactly on the empty queue, and on one full of NUL bytes, every interleaving of the
six threads that runs to their exit leaves the uppercased bytes. On any queue the runs
do in which a thread removes a byte or finds the queue empty only while no other thread
holds a byte. -/
theorem decoding_uppercases_iff (memory : Nat → Nat → UInt8) (queue : RingQueue) :
    ((∀ schedule state,
        TransitionSystem.run decoderStep (startThreads memory queue.raw threadNumbers) schedule =
          some state → AllExited state → Uppercased queue state) ↔
      queue.entries = [] ∨ queue.entries = List.replicate queue.raw.size 0) ∧
      (∀ schedule state,
        TransitionSystem.run decoderStep (startThreads memory queue.raw threadNumbers) schedule =
          some state → AllExited state →
        TransitionSystem.Meets decoderStep Undisturbed
          (startThreads memory queue.raw threadNumbers) schedule → Uppercased queue state) := by
  refine ⟨⟨blank_of_always_uppercased, ?_⟩, ?_⟩
  · rintro (empty | blank) schedule state ran exited
    · exact empty_run_uppercases empty ran
    · exact blank_run_uppercases blank ran exited
  · intro schedule state ran exited undisturbed
    exact undisturbed_run_uppercases ran exited undisturbed

/-- A full queue with the bytes `neatl`. -/
def neatlyQueue : RingQueue where
  raw := ⟨['n'.toUInt8, 'e'.toUInt8, 'a'.toUInt8, 't'.toUInt8, 'l'.toUInt8], 0, 0, 5, 5⟩
  wellFormed := by constructor <;> decide

/-- Thread 1 holds all bytes when thread 2 looks at the queue and leaves; the others run
one after another. -/
def neatlySchedule : List Nat :=
  List.replicate 15 0 ++ [1, 1] ++ List.replicate 17 0 ++
    DrainRefill.passesSchedule 2 [3, 4, 5, 6] 5

/-- The `e` stays in lower case, as in the word `neAtly` of a recorded chat. -/
theorem vowel_lost_while_held :
    ¬ ∀ schedule state,
      TransitionSystem.run decoderStep
        (startThreads (fun _ _ => 0) neatlyQueue.raw threadNumbers) schedule = some state →
      AllExited state → Uppercased neatlyQueue state := by
  intro always
  have computed : (TransitionSystem.run decoderStep
      (startThreads (fun _ _ => 0) neatlyQueue.raw threadNumbers) neatlySchedule).map
        (fun state => (decide (AllExited state), state.insideQueue.entries)) =
      some (true, ['n'.toUInt8, 'e'.toUInt8, 'A'.toUInt8, 't'.toUInt8, 'l'.toUInt8]) := by
    decide +kernel
  obtain ⟨state, ran, seen⟩ := Option.map_eq_some_iff.mp computed
  obtain ⟨exited, left⟩ := Prod.mk.inj seen
  have uppercased := always neatlySchedule state ran (of_decide_eq_true exited)
  rw [Uppercased, left] at uppercased
  exact absurd uppercased (by decide)

/-- The six threads one after another leave `nEAtl`. -/
theorem vowels_uppercased_in_turn :
    ∃ state, TransitionSystem.run decoderStep
        (startThreads (fun _ _ => 0) neatlyQueue.raw threadNumbers)
        (DrainRefill.passesSchedule 0 threadNumbers 5) = some state ∧
      AllExited state ∧ Uppercased neatlyQueue state := by
  have computed : (TransitionSystem.run decoderStep
      (startThreads (fun _ _ => 0) neatlyQueue.raw threadNumbers)
      (DrainRefill.passesSchedule 0 threadNumbers 5)).map (fun state => decide (AllExited state)) =
        some true := by decide +kernel
  obtain ⟨state, ran, seen⟩ := Option.map_eq_some_iff.mp computed
  have exited : AllExited state := of_decide_eq_true seen
  have undisturbed : TransitionSystem.Meets decoderStep Undisturbed
      (startThreads (fun _ _ => 0) neatlyQueue.raw threadNumbers)
      (DrainRefill.passesSchedule 0 threadNumbers 5) := by decide +kernel
  exact ⟨state, ran, exited, (decoding_uppercases_iff (fun _ _ => 0) neatlyQueue).2
    (DrainRefill.passesSchedule 0 threadNumbers 5) state ran exited undisturbed⟩

end HelperChat
