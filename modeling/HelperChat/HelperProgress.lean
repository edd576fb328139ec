import HelperChat.DecoderTermination
import HelperChat.HelperOrigin
import HelperChat.Simulation

/-!
# Every round of the helper ends with its reply

Once a chunk has been received, no schedule of the threads and the joins goes on for ever,
and none gets stuck before the reply. This holds from every state that a run can reach, so
whatever the threads have done to the bytes of a queue, they cannot hold up the helper.
-/

namespace HelperChat

open TransitionSystem (RunsForever)

/-- The steps of a round that has begun. -/
def roundStep (helper : Helper) : HelperEvent → Option Helper
  | .receive _ _ _ => none
  | event => helperStep helper event

/-- How much of a round is left: its queues, and for the current one what its threads still
have to do. -/
def roundLeft (helper : Helper) : Nat ×ₗ Nat ×ₗ Nat ×ₗ Nat :=
  match helper.phase with
  | .receiving => toLex (0, toLex (0, toLex (0, 0)))
  | .threading i decoders =>
      toLex (numberOfQueues helper.dataBytesIncoming - i, DrainRefill.progress decoders.pool)

variable {helper next : Helper} {event : HelperEvent}

/-- A step of a round is a step of the helper and receives nothing. -/
theorem round_step (stepped : roundStep helper event = some next) :
    helperStep helper event = some next ∧ next.received = helper.received := by
  cases event with
  | receive => cases stepped
  | thread j =>
    have stepped : helperStep helper (.thread j) = some next := stepped
    refine ⟨stepped, ?_⟩
    cases helper_move stepped with
    | decodes => rfl
  | join tempMemory =>
    have stepped : helperStep helper (.join tempMemory) = some next := stepped
    refine ⟨stepped, ?_⟩
    cases helper_move stepped with
    | joins => rfl
    | replies => rfl

/-- Every step leaves less of the round. -/
theorem round_step_left (located : HelperLocated helper)
    (stepped : roundStep helper event = some next) : roundLeft next < roundLeft helper := by
  cases helper_move (round_step stepped).1 with
  | receives => cases stepped
  | decodes j i decoders after phase advanced =>
    simp only [HelperLocated, phase] at located
    obtain ⟨finished, chunk, threading⟩ := located
    have pool : DrainRefill.step (decoderTask sizeOfQueue) decoders.pool j = some after.pool := by
      rw [threading.decoders.pool_step, advanced, Option.map_some]
    have less := DrainRefill.step_progress pool
    simp only [roundLeft, phase, Helper.decoded]
    exact Prod.Lex.toLex_lt_toLex.mpr (.inr ⟨rfl, less⟩)
  | joins tempMemory i decoders phase exited more =>
    simp only [roundLeft, phase, createThreads, Helper.joined]
    exact Prod.Lex.toLex_lt_toLex.mpr (.inl (by change _ - (i + 1) < _ - i; omega))
  | replies tempMemory i decoders phase exited done =>
    simp only [HelperLocated, phase] at located
    obtain ⟨finished, chunk, threading⟩ := located
    have inside := threading.inside
    rw [← threading.current] at inside
    simp only [roundLeft, phase, Helper.replied]
    exact Prod.Lex.toLex_lt_toLex.mpr (.inl (by change 0 < _ - i; omega))

instance : (phase : HelperPhase) → Decidable (phase = .receiving)
  | .receiving => .isTrue rfl
  | .threading _ _ => .isFalse HelperPhase.noConfusion

/-- A round in which no step is possible has sent its reply, and only then none is. -/
theorem round_stuck_iff :
    (∀ event, roundStep helper event = none) ↔ helper.phase = .receiving := by
  constructor
  · intro stuck
    cases phase : helper.phase with
    | receiving => rfl
    | threading i decoders =>
      have exited : AllExited decoders := by
        apply all_exited_of_no_step
        intro j
        have noStep := stuck (.thread j)
        simpa [roundStep, helperStep, phase] using noStep
      have noJoin := stuck (.join fun _ _ => 0)
      simp only [roundStep, helperStep, phase, if_pos exited] at noJoin
      split at noJoin <;> cases noJoin
  · intro receiving event
    cases event with
    | receive => rfl
    | thread | join => simp [roundStep, helperStep, receiving]

/-- From every state of every run the round goes on for a finite time only, and when it
cannot go on, the helper is at its `recv` and has sent one reply for every chunk. The threads
may be scheduled in any way and lose bytes to each other. A step of a thread is a loop test or
a whole call of a queue operation; calls that overlap in their statements, which could leave a
negative count, are not covered. -/
theorem rounds_end_with_reply {events : List HelperEvent}
    (ran : TransitionSystem.run helperStep startHelper events = some helper) :
    ¬ RunsForever roundStep helper ∧
      ∀ later final, TransitionSystem.run roundStep helper later = some final →
        (∀ event, roundStep final event = none) →
        final.phase = .receiving ∧ final.received = helper.received ∧
          final.sent.length = final.received.length := by
  obtain ⟨located, separated⟩ := run_separated ran
  constructor
  · exact TransitionSystem.no_infinite_run_within HelperLocated roundLeft
      (fun _ _ _ before stepped => helper_step_located before (round_step stepped).1)
      (fun _ _ _ before stepped => round_step_left before stepped) located
  · intro later final continued stuck
    obtain ⟨same, _, _, separatedAfter⟩ : final.received = helper.received ∧
        HelperLocated final ∧ Separated final :=
      TransitionSystem.run_preserves (fun current => current.received = helper.received ∧
          HelperLocated current ∧ Separated current)
        (fun _ _ _ before stepped => ⟨(round_step stepped).2.trans before.1,
          helper_step_located before.2.1 (round_step stepped).1,
          before.2.2.step before.2.1 (round_step stepped).1⟩)
        ⟨rfl, located, separated⟩ continued
    have receiving := round_stuck_iff.mp stuck
    simp only [receiving] at separatedAfter
    exact ⟨receiving, same, separatedAfter.length_eq.symm⟩

/-- The first part of a disturbed round, up to the removal of the last byte. -/
def begunRound : List HelperEvent := disturbedRound.take 18

/-- The round ends whatever its threads do, and it does so in the disturbed schedule. -/
theorem begun_round_ends :
    ∃ helper final, TransitionSystem.run helperStep startHelper begunRound = some helper ∧
      ¬ RunsForever roundStep helper ∧
      TransitionSystem.run roundStep helper (disturbedRound.drop 18) = some final ∧
      final.phase = .receiving ∧ final.received = helper.received ∧
        final.sent.length = final.received.length := by
  have computed : ((TransitionSystem.run helperStep startHelper begunRound).bind
      fun helper => TransitionSystem.run roundStep helper (disturbedRound.drop 18)).map
        (fun final => decide (final.phase = .receiving)) = some true := by
    decide +kernel
  obtain ⟨final, wholeRun, receiving⟩ := Option.map_eq_some_iff.mp computed
  obtain ⟨helper, ran, continued⟩ := Option.bind_eq_some_iff.mp wholeRun
  obtain ⟨finite, ends⟩ := rounds_end_with_reply ran
  exact ⟨helper, final, ran, finite, continued,
    ends _ final continued (round_stuck_iff.mpr (of_decide_eq_true receiving))⟩

end HelperChat
