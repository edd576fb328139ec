import HelperChat.Decoder
import HelperChat.DrainRefillTermination

/-!
# The decoder threads finish

Any number of decoder threads on one queue, in any interleaving. No schedule lets them
step for ever, and when none of them can take a step they have all exited, so every join
returns.
-/

namespace HelperChat

open TransitionSystem (RunsForever)

/-- A thread has a next step until it has exited. -/
theorem server_decoder_step_none {insideQueue : StructForQueueBoi} {thread : DecoderThread} :
    serverDecoderStep insideQueue thread = none ↔ thread.phase = .exited := by
  obtain ⟨number, tempQueue, phase⟩ := thread
  cases phase with
  | drainTest | refillTest =>
    simp only [serverDecoderStep]
    split <;> simp
  | drainRemove | drainAdd | refillRemove | refillAdd | exited => simp [serverDecoderStep]

/-- When no thread can take a step, all have exited. -/
theorem all_exited_of_no_step {state : DecoderState} (ended : ∀ j, decoderStep state j = none) :
    AllExited state := by
  intro thread member
  obtain ⟨j, present⟩ := List.mem_iff_getElem?.mp member
  have stuck := ended j
  rw [decoderStep, present] at stuck
  apply server_decoder_step_none.mp
  cases advanced : serverDecoderStep state.insideQueue thread with
  | none => rfl
  | some moved => simp [advanced] at stuck

/-- No run of the decoder threads goes on for ever, and a run that cannot go on has ended
with all threads exited. There may be any number of threads with any numbers. One step is a
loop test or a whole call of a queue operation, so the count never leaves its range. -/
theorem decoder_threads_finish (memory : Nat → Nat → UInt8) (queue : RingQueue)
    (numbers : List Nat) :
    ¬ RunsForever decoderStep (startThreads memory queue.raw numbers) ∧
      ∀ schedule state,
        TransitionSystem.run decoderStep (startThreads memory queue.raw numbers) schedule =
          some state →
        (∀ j, decoderStep state j = none) → AllExited state := by
  constructor
  · intro forever
    -- The pool of their workers would step for ever as well.
    have pool := TransitionSystem.runs_forever_view DecoderState.pool
      (QueuesFormed queue.raw.size) (fun _ _ _ formed stepped => formed.step stepped)
      (fun _ j formed => formed.pool_step j) (start_formed memory queue numbers) forever
    exact DrainRefill.no_infinite_pool_run _ pool
  · intro schedule state _ ended
    exact all_exited_of_no_step ended

end HelperChat
