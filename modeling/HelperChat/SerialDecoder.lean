import HelperChat.Decoder

/-!
# Decoder threads one after another

`serverDecoder` running to completion without other threads on its queue. Such a run
ends, keeps the entries and their order, and switches every byte. Runs for several thread
numbers apply the switches one after another: a vowel ends up in upper case if its number
is among them, in whatever order and however often.
-/

namespace HelperChat

/-- `serverDecoder` alone on a queue until it exits. Each entry takes three steps of the
drain loop and three of the refill loop, and each loop has a last test. -/
def serverDecoderAlone (tempMemory : Nat → UInt8) (threadNumber : Nat)
    (insideQueue : StructForQueueBoi) : DecoderState :=
  TransitionSystem.exhaust decoderStep 0 (6 * insideQueue.countOfEntries.toNat + 2)
    (startThreads (fun _ => tempMemory) insideQueue [threadNumber])

/-- The queue that `serverDecoder` alone leaves. -/
def serverDecoder (tempMemory : Nat → UInt8) (threadNumber : Nat)
    (insideQueue : StructForQueueBoi) : StructForQueueBoi :=
  (serverDecoderAlone tempMemory threadNumber insideQueue).insideQueue

/-- Runs of `serverDecoder`, each with the memory of its temporary queue and its number, and
each after the one before. -/
def serverDecoderRuns (runs : List ((Nat → UInt8) × Nat)) (insideQueue : StructForQueueBoi) :
    StructForQueueBoi :=
  runs.foldl (fun queue (tempMemory, threadNumber) => serverDecoder tempMemory threadNumber queue)
    insideQueue

/-- Runs of `serverDecoder` for the given numbers, each after the one before. -/
def serverDecoders (tempMemory : Nat → Nat → UInt8) (order : List Nat)
    (insideQueue : StructForQueueBoi) : StructForQueueBoi :=
  serverDecoderRuns (order.map fun threadNumber => (tempMemory threadNumber, threadNumber))
    insideQueue

/-- A lone `serverDecoder` exits with every byte switched in place. -/
theorem server_decoder_alone (tempMemory : Nat → UInt8) (threadNumber : Nat) (queue : RingQueue) :
    AllExited (serverDecoderAlone tempMemory threadNumber queue.raw) ∧
      QueuesFormed queue.raw.size (serverDecoderAlone tempMemory threadNumber queue.raw) ∧
      (serverDecoder tempMemory threadNumber queue.raw).entries =
        queue.entries.map (switchCase threadNumber) := by
  let start := startThreads (fun _ => tempMemory) queue.raw [threadNumber]
  have passed : TransitionSystem.run (DrainRefill.step (decoderTask queue.raw.size))
      ⟨queue.entries, [] ++ DrainRefill.freshWorkers [threadNumber]⟩
      (DrainRefill.passesSchedule 0 [threadNumber] queue.entries.length) =
        some ⟨queue.entries.map (switchCase threadNumber),
          [⟨threadNumber, [], .exited⟩]⟩ :=
    DrainRefill.passes_run queue.wellFormed.entries_le
  obtain ⟨state, ran, viewed⟩ := lift_start_run (fun _ => tempMemory) queue [threadNumber] passed
  have schedule : DrainRefill.passesSchedule 0 [threadNumber] queue.entries.length =
      List.replicate (6 * queue.raw.countOfEntries.toNat + 2) 0 := by
    have length : queue.entries.length = queue.raw.countOfEntries.toNat :=
      StructForQueueBoi.entries_length queue.raw
    simp [DrainRefill.passesSchedule, DrainRefill.pass_schedule_eq, length]
  rw [schedule] at ran
  have exited : AllExited state := by
    intro thread member
    have inPool : thread.worker ∈ state.pool.workers := List.mem_map_of_mem member
    rw [viewed, List.mem_singleton] at inPool
    exact congrArg DrainRefill.Worker.phase inPool
  have ended : decoderStep state 0 = none := by
    cases present : state.threads[0]? with
    | none => simp [decoderStep, present]
    | some thread =>
      have atEnd := exited thread (List.mem_of_getElem? present)
      simp [decoderStep, present, serverDecoderStep, atEnd]
  have same : serverDecoderAlone tempMemory threadNumber queue.raw = state :=
    TransitionSystem.exhaust_of_run ran ended (Nat.le_refl _)
  have queued : state.insideQueue.entries = queue.entries.map (switchCase threadNumber) :=
    congrArg DrainRefill.Pool.shared viewed
  rw [serverDecoder, same]
  exact ⟨exited, run_formed ran, queued⟩

/-- A sequence of runs whose every run has exited, and what it leaves: a well-formed queue
of the same size, in which all switches have been applied to every byte. -/
theorem server_decoder_runs (runs : List ((Nat → UInt8) × Nat)) {queue : StructForQueueBoi}
    (formed : queue.WellFormed) :
    (∀ before run after, runs = before ++ run :: after →
      AllExited (serverDecoderAlone run.1 run.2 (serverDecoderRuns before queue))) ∧
      (serverDecoderRuns runs queue).WellFormed ∧
      (serverDecoderRuns runs queue).size = queue.size ∧
      (serverDecoderRuns runs queue).entries =
        queue.entries.map (DrainRefill.applyAll (decoderTask queue.size) (runs.map Prod.snd)) := by
  induction runs generalizing queue with
  | nil =>
    refine ⟨?_, formed, rfl, ?_⟩
    · rintro (_ | _) run after split
      all_goals cases split
    · exact (List.map_id queue.entries).symm
  | cons first rest inductionHypothesis =>
    obtain ⟨exited, decoded, entries⟩ := server_decoder_alone first.1 first.2 ⟨queue, formed⟩
    obtain ⟨othersExit, later, size, result⟩ := inductionHypothesis decoded.inside
    refine ⟨?_, later, size.trans decoded.insideSize, result.trans ?_⟩
    · rintro (_ | ⟨earlier, before⟩) run after split
      · cases split
        exact exited
      · cases split
        exact othersExit before run after rfl
    · change List.map _ (serverDecoder _ _ queue).entries = _
      rw [entries, List.map_map]
      rfl

/-- What runs for given numbers leave: a well-formed queue of the same size, in which all
switches have been applied to every byte. -/
theorem server_decoders_entries (tempMemory : Nat → Nat → UInt8) (order : List Nat)
    {queue : StructForQueueBoi} (formed : queue.WellFormed) :
    (serverDecoders tempMemory order queue).WellFormed ∧
      (serverDecoders tempMemory order queue).size = queue.size ∧
      (serverDecoders tempMemory order queue).entries =
        queue.entries.map (DrainRefill.applyAll (decoderTask queue.size) order) := by
  obtain ⟨_, decoded, size, entries⟩ := server_decoder_runs
    (order.map fun threadNumber => (tempMemory threadNumber, threadNumber)) formed
  have numbers : (order.map fun threadNumber =>
      (tempMemory threadNumber, threadNumber)).map Prod.snd = order := by
    rw [List.map_map]
    exact List.map_id order
  rw [numbers] at entries
  exact ⟨decoded, size, entries⟩

/-- The number of the thread for a lower-case vowel. -/
def threadOfVowel (char : UInt8) : Option Nat :=
  if char = 'a'.toUInt8 then some 1
  else if char = 'e'.toUInt8 then some 2
  else if char = 'i'.toUInt8 then some 3
  else if char = 'o'.toUInt8 then some 4
  else if char = 'u'.toUInt8 then some 5
  else none

/-- A vowel becomes upper case if its number is listed. -/
def uppercaseListed (numbers : List Nat) (char : UInt8) : UInt8 :=
  match threadOfVowel char with
  | some number => if number ∈ numbers then uppercaseVowel char else char
  | none => char

/-- A thread changes the vowel with its number. -/
theorem switch_case_own {char : UInt8} {number : Nat} (own : threadOfVowel char = some number) :
    switchCase number char = uppercaseVowel char ∧ threadOfVowel (uppercaseVowel char) = none := by
  unfold threadOfVowel at own
  split_ifs at own with isA isE isI isO isU
  all_goals
    obtain rfl := Option.some.inj own
    subst char
    exact ⟨rfl, rfl⟩

/-- A thread changes no other byte. -/
theorem switch_case_other {char : UInt8} {number : Nat} (other : threadOfVowel char ≠ some number) :
    switchCase number char = char := by
  unfold switchCase
  split
  case h_6 => rfl
  all_goals
    split
    case isTrue vowel => exact absurd (vowel ▸ rfl) other
    case isFalse => rfl

/-- The vowels have the numbers from 1 to 5. -/
theorem thread_of_vowel_range {char : UInt8} {number : Nat}
    (vowel : threadOfVowel char = some number) : 1 ≤ number ∧ number ≤ 5 := by
  unfold threadOfVowel at vowel
  split_ifs at vowel
  all_goals
    obtain rfl := Option.some.inj vowel
    decide

/-- A byte without a number is no vowel. -/
theorem uppercase_of_no_thread {char : UInt8} (none : threadOfVowel char = none) :
    uppercaseVowel char = char := by
  unfold threadOfVowel at none
  unfold uppercaseVowel
  split_ifs at none ⊢
  rfl

/-- The switches of some numbers change the vowels with these numbers. -/
theorem apply_all_listed (size : Nat) (numbers : List Nat) (char : UInt8) :
    DrainRefill.applyAll (decoderTask size) numbers char = uppercaseListed numbers char := by
  induction numbers generalizing char with
  | nil =>
    unfold uppercaseListed
    split
    · rfl
    · rfl
  | cons number rest inductionHypothesis =>
    have first : DrainRefill.applyAll (decoderTask size) (number :: rest) char =
        DrainRefill.applyAll (decoderTask size) rest (switchCase number char) := rfl
    rw [first, inductionHypothesis]
    by_cases own : threadOfVowel char = some number
    · obtain ⟨changed, finished⟩ := switch_case_own own
      simp [uppercaseListed, changed, finished, own]
    · rw [switch_case_other own]
      unfold uppercaseListed
      cases vowel : threadOfVowel char with
      | none => rfl
      | some vowelNumber =>
        have different : vowelNumber ≠ number := fun same => own (vowel.trans (congrArg some same))
        simp [different]

/-- Only the numbers from 1 to 5 matter. -/
theorem uppercase_listed_congr {first second : List Nat}
    (same : ∀ number, 1 ≤ number → number ≤ 5 → (number ∈ first ↔ number ∈ second)) :
    uppercaseListed first = uppercaseListed second := by
  funext char
  unfold uppercaseListed
  cases vowel : threadOfVowel char with
  | none => rfl
  | some number =>
    obtain ⟨low, high⟩ := thread_of_vowel_range vowel
    simp only [same number low high]

/-- With all numbers from 1 to 5 every vowel becomes upper case. -/
theorem uppercase_listed_complete {numbers : List Nat}
    (complete : ∀ number, 1 ≤ number → number ≤ 5 → number ∈ numbers) :
    uppercaseListed numbers = uppercaseVowel := by
  funext char
  unfold uppercaseListed
  cases vowel : threadOfVowel char with
  | none => exact (uppercase_of_no_thread vowel).symm
  | some number =>
    obtain ⟨low, high⟩ := thread_of_vowel_range vowel
    simp [complete number low high]

/-- Applying the switches of all threads makes every lower-case vowel upper case. -/
theorem switches_uppercase {order : List Nat} (complete : ∀ number ∈ threadNumbers, number ∈ order)
    (size : Nat) (char : UInt8) :
    DrainRefill.applyAll (decoderTask size) order char = uppercaseVowel char := by
  have listed : ∀ number, 1 ≤ number → number ≤ 5 → number ∈ order := by
    intro number low high
    apply complete
    exact List.mem_map.mpr ⟨number - 1, List.mem_range.mpr (by simp [maxThreads]; omega), by omega⟩
  rw [apply_all_listed, uppercase_listed_complete listed]

/-- Every run of a sequence on a well-formed queue exits, and the sequence keeps the entries
in their order, with the vowels upper case whose numbers are listed. Order and repetition
of the numbers make no difference, and all numbers together make every vowel upper case. -/
theorem decoding_order_free (queue : RingQueue) (runs : List ((Nat → UInt8) × Nat)) :
    let decoded := serverDecoderRuns runs queue.raw
    (∀ before run after, runs = before ++ run :: after →
      AllExited (serverDecoderAlone run.1 run.2 (serverDecoderRuns before queue.raw))) ∧
      decoded.WellFormed ∧ decoded.size = queue.raw.size ∧
      decoded.countOfEntries = queue.raw.countOfEntries ∧
      decoded.entries = queue.entries.map (uppercaseListed (runs.map Prod.snd)) ∧
      (∀ others : List ((Nat → UInt8) × Nat),
        (∀ number, 1 ≤ number → number ≤ 5 →
          (number ∈ others.map Prod.snd ↔ number ∈ runs.map Prod.snd)) →
        (serverDecoderRuns others queue.raw).entries = decoded.entries) ∧
      ((∀ number, 1 ≤ number → number ≤ 5 → number ∈ runs.map Prod.snd) →
        decoded.entries = queue.entries.map uppercaseVowel) := by
  intro decoded
  have listed : ∀ other : List ((Nat → UInt8) × Nat),
      (serverDecoderRuns other queue.raw).entries =
        queue.entries.map (uppercaseListed (other.map Prod.snd)) := by
    intro other
    obtain ⟨_, _, _, entries⟩ := server_decoder_runs other queue.wellFormed
    exact entries.trans (List.map_congr_left fun char _ => apply_all_listed _ _ char)
  obtain ⟨exited, formed, size, _⟩ := server_decoder_runs runs queue.wellFormed
  have count : decoded.countOfEntries = queue.raw.countOfEntries := by
    have length := congrArg List.length (listed runs)
    rw [List.length_map, StructForQueueBoi.entries_length, RingQueue.entries,
      StructForQueueBoi.entries_length] at length
    have before := queue.wellFormed.countNonnegative
    have after := formed.countNonnegative
    change decoded.countOfEntries.toNat = _ at length
    change 0 ≤ decoded.countOfEntries at after
    omega
  refine ⟨exited, formed, size, count, listed runs, ?_, ?_⟩
  · intro others same
    rw [listed others, listed runs, uppercase_listed_congr same]
  · intro complete
    rw [listed runs, uppercase_listed_complete complete]

/-- A queue that holds the bytes of "iae" around the end of its array. -/
def wrappedQueue : RingQueue where
  raw := ⟨['e'.toUInt8, 0, 'i'.toUInt8, 'a'.toUInt8], 2, 1, 3, 4⟩
  wellFormed := ⟨rfl, by decide, by decide, by decide, by decide, rfl⟩

/-- Threads in descending order, one of them twice, leave upper-case vowels. -/
theorem descending_runs_uppercase :
    (serverDecoderRuns ([5, 4, 3, 3, 2, 1].map fun number => (fun _ => 0, number))
      wrappedQueue.raw).entries = ['I'.toUInt8, 'A'.toUInt8, 'E'.toUInt8] :=
  ((decoding_order_free wrappedQueue _).2.2.2.2.2.2 (by
    intro number low high
    simp only [List.map_map, List.mem_map, List.mem_cons, Function.comp_apply]
    exact ⟨number, by omega, rfl⟩)).trans (by decide)

end HelperChat
