import HelperChat.HelperProgress
import HelperChat.Wire

/-!
# Every orderly call ends

In orderly runs of the server and the helper whose texts are short, calls cannot be held up:
however the threads of both programs go on, they come to a point where no call is open, and
they do so without getting stuck before. Every call has then got the helper's result for its
own text.

A decoder thread that would disturb another one has to wait. That never makes all of them
wait, since the thread that carries bytes can go on.
-/

namespace HelperChat

open TransitionSystem (Meets RunsForever)

/-- After an undisturbed run some thread can go on undisturbed, until all have exited. -/
theorem undisturbed_run_advances {memory : Nat → Nat → UInt8} (queue : RingQueue)
    {schedule : List Nat} {state : DecoderState}
    (ran : TransitionSystem.run decoderStep (startThreads memory queue.raw threadNumbers)
      schedule = some state)
    (undisturbed : Meets decoderStep Undisturbed (startThreads memory queue.raw threadNumbers)
      schedule) :
    AllExited state ∨ ∃ j next, Undisturbed state j ∧ decoderStep state j = some next := by
  have formed := start_formed memory queue threadNumbers
  have fresh : ∀ worker ∈ (startThreads memory queue.raw threadNumbers).pool.workers,
      worker.held = [] ∧ worker.phase = .drainTest := by
    rw [start_pool]
    intro worker member
    obtain ⟨number, _, rfl⟩ := List.mem_map.mp member
    exact ⟨rfl, rfl⟩
  have inLine := TransitionSystem.guarded_run_preserves
    (DrainRefill.InLine (decoderTask queue.raw.size).capacity uppercaseVowel
      (fun number char => switchCase number char = char) _)
    (fun _ _ _ before guarded stepped => before.step switch_case_settling guarded stepped)
    (DrainRefill.in_line_initially formed.inside.entries_le fresh)
    (undisturbed_pool_run formed undisturbed) (start_run_pool ran)
  rcases inLine.advances with exited | ⟨j, worker, present, goesOn, others⟩
  · left
    intro thread member
    exact exited thread.worker (List.mem_map_of_mem member)
  · right
    obtain ⟨thread, inThreads, rfl⟩ : ∃ thread, state.threads[j]? = some thread ∧
        thread.worker = worker := by
      simpa [DecoderState.pool, List.getElem?_map] using present
    have alone : Undisturbed state j := by
      intro _ _ _ i _ different other found
      have inPool : state.pool.workers[i]? = some other.worker := by
        simp [DecoderState.pool, List.getElem?_map, Option.mem_def.mp found]
      have empty := others i other.worker different inPool
      exact List.nil_perm.mp (empty ▸ content_worker other)
    cases advanced : serverDecoderStep state.insideQueue thread with
    | none => exact absurd (server_decoder_step_none.mp advanced) goesOn
    | some moved =>
      refine ⟨j, ⟨moved.1, state.threads.set j moved.2⟩, alone, ?_⟩
      simp [decoderStep, inThreads, advanced]

/-- In an undisturbed round the helper has an undisturbed step. -/
theorem Replying.advances {helper : Helper} {i : Nat} {decoders : DecoderState}
    (replying : Replying helper) (located : HelperLocated helper)
    (phase : helper.phase = .threading i decoders) :
    (∃ j next, Undisturbed decoders j ∧ helperStep helper (.thread j) = some next) ∨
      ∃ next, helperStep helper (.join fun _ _ => 0) = some next := by
  obtain ⟨_, replying⟩ := replying
  simp only [phase] at replying
  simp only [HelperLocated, phase] at located
  obtain ⟨finished, chunk, serving⟩ := replying
  obtain ⟨before, current, located⟩ := located
  have threading := serving.same_chunk located
  have holds := serving.filled i threading.inside le_rfl
  obtain ⟨tempMemory, schedule, ran, met⟩ := serving.threads
  rcases undisturbed_run_advances ⟨helper.locals.queue i, holds.formed⟩ ran met with
    exited | ⟨j, after, undisturbed, advanced⟩
  · right
    simp only [helperStep, phase, if_pos exited]
    split <;> exact ⟨_, rfl⟩
  · left
    refine ⟨j, helper.decoded i j decoders after, undisturbed, ?_⟩
    simp only [helperStep, phase, advanced, Option.map_some]
    rfl

/-- The steps that settle the open calls: orderly ones that begin no call. -/
def settleStep (wire : Wire) : WireEvent → Option Wire
  | .send _ _ => none
  | event => if RunsOrderly wire event then wireStep wire event else none

/-- What is left to do on the connection, and in the round of the helper. -/
def Wire.toSettle (wire : Wire) : Nat ×ₗ Nat ×ₗ Nat ×ₗ Nat ×ₗ Nat :=
  toLex (wire.link.toDo, roundLeft wire.helper)

/-- The text of a new call is not empty, and the helper can receive it whole. -/
def BeginsShortly : WireEvent → Prop
  | .send _ dataSentToHelper => 1 ≤ dataSentToHelper.length ∧ dataSentToHelper.length ≤ bufferSize
  | _ => True

instance : DecidablePred BeginsShortly
  | .send _ dataSentToHelper => inferInstanceAs
      (Decidable (1 ≤ dataSentToHelper.length ∧ dataSentToHelper.length ≤ bufferSize))
  | .recv _ _ | .helperRecv _ _ _ | .thread _ | .join _ => .isTrue trivial

/-- What runs of orderly steps with short texts keep. -/
structure Settling (wire : Wire) : Prop where
  shown : Shown wire
  inShortOrder : InShortOrder wire.link

variable {wire next : Wire} {event : WireEvent}

/-- A settling step is orderly and begins no call. -/
theorem settle_step (stepped : settleStep wire event = some next) :
    RunsOrderly wire event ∧ BeginsShortly event ∧ wireStep wire event = some next := by
  cases event with
  | send => cases stepped
  | recv | helperRecv | thread | join =>
    simp only [settleStep, Option.ite_none_right_eq_some] at stepped
    exact ⟨stepped.1, trivial, stepped.2⟩

/-- A step that is not the `send` of a thread begins no call on the connection. -/
theorem link_events_keep (wire : Wire)
    (other : ∀ t dataSentToHelper, event ≠ .send t dataSentToHelper) :
    ∀ action ∈ linkEvents wire event, BeginsNoCall action := by
  intro action member
  cases event with
  | send t dataSentToHelper => exact absurd rfl (other t dataSentToHelper)
  | recv | helperRecv =>
    obtain rfl := List.mem_singleton.mp member
    trivial
  | thread => cases member
  | join =>
    simp only [linkEvents] at member
    split at member
    · cases member
    · split at member
      · cases member
      · obtain rfl := List.mem_singleton.mp member
        trivial

/-- A short text is one on the connection. -/
theorem link_events_short (wire : Wire) (short : BeginsShortly event) :
    ∀ action ∈ linkEvents wire event, SendsShortText action := by
  intro action member
  cases event with
  | send =>
    obtain rfl := List.mem_singleton.mp member
    exact short
  | recv | helperRecv | thread | join =>
    exact short_of_begins_no_call
      (link_events_keep wire (fun _ _ => WireEvent.noConfusion) action member)

/-- A step with a short text keeps the calls settling. -/
theorem Settling.step (settling : Settling wire) (orderly : RunsOrderly wire event)
    (short : BeginsShortly event) (stepped : wireStep wire event = some next) :
    Settling next := by
  obtain ⟨linked, shown⟩ := orderly_step_linked settling.shown orderly stepped
  have respects : Meets linkStep RespectsBordersShortly wire.link (linkEvents wire event) :=
    TransitionSystem.meets_and_forall (orderly_step_respects orderly)
      (link_events_short wire short)
  exact ⟨shown, TransitionSystem.guarded_run_preserves InShortOrder
    (fun _ _ _ before respected stepped => before.step respected stepped)
    settling.inShortOrder respects linked⟩

/-- Calls that have not begun are settling. -/
theorem start_settling (threads : Nat) : Settling (startWire threads) :=
  ⟨start_shown threads, start_in_short_order threads⟩

/-- A settling step leaves less to do. -/
theorem settle_step_less (settling : Settling wire)
    (stepped : settleStep wire event = some next) : next.toSettle < wire.toSettle := by
  obtain ⟨orderly, _, moves⟩ := settle_step stepped
  obtain ⟨linked, _⟩ := orderly_step_linked settling.shown orderly moves
  have keeps : ∀ action ∈ linkEvents wire event, BeginsNoCall action := by
    apply link_events_keep
    rintro t dataSentToHelper rfl
    cases stepped
  cases event with
  | send => cases stepped
  | recv | helperRecv =>
    rw [linkEvents, TransitionSystem.run_singleton] at linked
    exact Prod.Lex.toLex_lt_toLex.mpr (.inl (to_do_step (keeps _ List.mem_cons_self) linked))
  | thread j =>
    obtain ⟨helper, moved, rfl⟩ := Option.map_eq_some_iff.mp moves
    have rounds : roundStep wire.helper (.thread j) = some helper := moved
    exact Prod.Lex.toLex_lt_toLex.mpr
      (.inr ⟨rfl, round_step_left settling.shown.located rounds⟩)
  | join tempMemory =>
    obtain ⟨helper, moved, same⟩ := Option.map_eq_some_iff.mp moves
    have rounds : roundStep wire.helper (.join tempMemory) = some helper := moved
    have less : roundLeft next.helper < roundLeft wire.helper :=
      same ▸ round_step_left settling.shown.located rounds
    have noMore : next.link.toDo ≤ wire.link.toDo := by
      simp only [linkEvents] at linked
      split at linked
      · exact (congrArg Link.toDo (Option.some.inj linked)).ge
      · split at linked
        · exact (congrArg Link.toDo (Option.some.inj linked)).ge
        · rw [TransitionSystem.run_singleton] at linked
          have keeps : BeginsNoCall .helperSend := trivial
          exact (to_do_step keeps linked).le
    rcases noMore.lt_or_eq with fewer | equal
    · exact Prod.Lex.toLex_lt_toLex.mpr (.inl fewer)
    · exact Prod.Lex.toLex_lt_toLex.mpr (.inr ⟨equal, less⟩)

/-- While a call is open, there is a settling step. -/
theorem Settling.advances (settling : Settling wire) :
    CallsFinished wire.link ∨ ∃ event next, settleStep wire event = some next := by
  obtain ⟨⟨processing, located, replying⟩, inShortOrder⟩ := settling
  rcases inShortOrder.advances with finished | ⟨action, respects, keeps, enabled⟩
  · exact .inl finished
  · right
    obtain ⟨link, stepped⟩ := Option.isSome_iff_exists.mp enabled
    cases link_move stepped with
    | sends => exact absurd keeps id
    | reads count chunk rest idle received =>
      have receiving : wire.helper.phase = .receiving := by
        cases phase : wire.helper.phase with
        | receiving => rfl
        | threading i decoders =>
          simp only [HelperLocated, phase] at located
          obtain ⟨finished, chunk, threading⟩ := located
          rw [idle, Helper.current, phase, threading.received, List.getLast?_concat] at processing
          cases processing
      obtain ⟨_, length, nonempty, short⟩ := ByteStream.recv_takes received
      have fits : 1 ≤ chunk.length ∧ chunk.length ≤ bufferSize := length ▸ ⟨nonempty, short⟩
      have orderly : RunsOrderly wire (.helperRecv count (fun _ _ => 0) fun _ _ => 0) := respects
      obtain ⟨helper, moved⟩ : ∃ helper, helperStep wire.helper
          (.receive chunk (fun _ _ => 0) fun _ _ => 0) = some helper := by
        simp only [helperStep, receiving, if_pos fits]
        exact ⟨_, rfl⟩
      refine ⟨.helperRecv count (fun _ _ => 0) fun _ _ => 0, ?_⟩
      simp only [settleStep, if_pos orderly, wireStep, received, Option.bind_eq_bind,
        Option.bind_some, moved]
      exact ⟨_, rfl⟩
    | replies chunk busy =>
      have threading : ∃ i decoders, wire.helper.phase = .threading i decoders := by
        cases phase : wire.helper.phase with
        | receiving =>
          rw [busy, Helper.current, phase] at processing
          cases processing
        | threading i decoders => exact ⟨i, decoders, rfl⟩
      obtain ⟨i, decoders, phase⟩ := threading
      rcases replying.advances located phase with ⟨j, next, undisturbed, moved⟩ | ⟨next, moved⟩
      · have orderly : RunsOrderly wire (.thread j) := by
          simpa only [RunsOrderly, RunsUndisturbed, phase] using undisturbed
        refine ⟨.thread j, ?_⟩
        simp only [settleStep, if_pos orderly, wireStep, moved, Option.map_some]
        exact ⟨_, rfl⟩
      · have orderly : RunsOrderly wire (.join fun _ _ => 0) := trivial
        refine ⟨.join fun _ _ => 0, ?_⟩
        simp only [settleStep, if_pos orderly, wireStep, moved, Option.map_some]
        exact ⟨_, rfl⟩
    | collects t count text taken rest awaiting received =>
      have orderly : RunsOrderly wire (.recv t count) := respects
      refine ⟨.recv t count, ?_⟩
      simp only [settleStep, if_pos orderly, wireStep, stepped, Option.map_some]
      exact ⟨_, rfl⟩

/-- No step without a new call is left once the helper is at its `recv`, nothing is on the way
to it and all calls are finished. -/
theorem settle_stuck (receiving : wire.helper.phase = .receiving)
    (nothing : wire.link.toHelper = []) (finished : CallsFinished wire.link) :
    ∀ event, settleStep wire event = none := by
  intro event
  cases stepped : settleStep wire event with
  | none => rfl
  | some next =>
    cases wire_move (settle_step stepped).2.2 with
    | sends => cases stepped
    | collects t count link moved =>
      cases link_move moved with
      | collects _ _ text taken rest awaiting =>
        exact CallPhase.noConfusion (finished _ (List.mem_of_getElem? awaiting))
    | reads count memory tempMemory chunk rest received =>
      rw [nothing, ByteStream.recv_nil] at received
      cases received
    | decodes j i decoders after threading | joins tempMemory i decoders threading
    | replies tempMemory i decoders reply threading =>
      rw [receiving] at threading
      cases threading

/-- From every state of an orderly run with short texts the open calls take finitely many
steps, and when no orderly step without a new call is left, all calls are finished and got
the helper's results for their own texts. The texts have 1 to 100 bytes. Orderly is as in
`orderly_calls_paired`, and the steps that settle the calls are orderly too: a thread that
would disturb another one waits, and nothing is said of runs in which it does not. -/
theorem orderly_calls_settle (threads : Nat) {events : List WireEvent}
    (ran : TransitionSystem.run wireStep (startWire threads) events = some wire)
    (orderly : Meets wireStep (fun wire event => RunsOrderly wire event ∧ BeginsShortly event)
      (startWire threads) events) :
    ¬ RunsForever settleStep wire ∧
      ∀ later final, TransitionSystem.run settleStep wire later = some final →
        (∀ event, settleStep final event = none) →
        CallsFinished final.link ∧ Paired final.link := by
  have settling : Settling wire :=
    TransitionSystem.guarded_run_preserves Settling
      (fun _ _ _ before met stepped => before.step met.1 met.2 stepped) (start_settling threads)
      orderly ran
  have kept : ∀ current event next, Settling current → settleStep current event = some next →
      Settling next := by
    intro current event next before stepped
    obtain ⟨orderly, short, moves⟩ := settle_step stepped
    exact before.step orderly short moves
  constructor
  · exact TransitionSystem.no_infinite_run_within Settling Wire.toSettle kept
      (fun _ _ _ before stepped => settle_step_less before stepped) settling
  · intro later final continued stuck
    have settled : Settling final := TransitionSystem.run_preserves Settling kept settling continued
    rcases settled.advances with finished | ⟨event, next, stepped⟩
    · exact ⟨finished, settled.inShortOrder.inOrder.paired⟩
    · rw [stuck event] at stepped
      cases stepped

/-- Two threads have sent their texts, the helper has read the first one, and two of its
threads have found the queue filled. -/
def begunCalls : List WireEvent :=
  [.send 1 firstText, .send 0 secondText, .helperRecv 3 (fun _ _ => 0) (fun _ _ => 0),
    .thread 2, .thread 4]

/-- These two threads process the text first, then the others. In the next round the threads
go on one after another. -/
def settledCalls : List WireEvent :=
  (List.replicate 31 2 ++ List.replicate 31 4 ++ [0, 1, 3, 5].flatMap (List.replicate 32)).map
      .thread ++
    [.join (fun _ _ => 0), .recv 1 3, .helperRecv 3 (fun _ _ => 0) (fun _ _ => 0)] ++
    (DrainRefill.passesSchedule 0 threadNumbers 5).map .thread ++
    [.join (fun _ _ => 0), .recv 0 3]

/-- Both calls settle, however the threads go on, and in this schedule too. -/
theorem begun_calls_settle :
    ∃ wire final, TransitionSystem.run wireStep (startWire 2) begunCalls = some wire ∧
      ¬ RunsForever settleStep wire ∧
      TransitionSystem.run settleStep wire settledCalls = some final ∧
      CallsFinished final.link ∧ Paired final.link := by
  have computed : ((TransitionSystem.run wireStep (startWire 2) begunCalls).bind
      fun wire => TransitionSystem.run settleStep wire settledCalls).map
        (fun final => (decide (final.helper.phase = .receiving), final.link.toHelper,
          decide (CallsFinished final.link))) = some (true, [], true) := by
    decide +kernel
  obtain ⟨final, wholeRun, seen⟩ := Option.map_eq_some_iff.mp computed
  obtain ⟨wire, ran, continued⟩ := Option.bind_eq_some_iff.mp wholeRun
  simp only [Prod.mk.injEq, decide_eq_true_eq] at seen
  obtain ⟨receiving, nothing, finished⟩ := seen
  obtain ⟨finite, settled⟩ := orderly_calls_settle 2 ran (by decide)
  exact ⟨wire, final, ran, finite, continued,
    settled _ final continued (settle_stuck receiving nothing finished)⟩

end HelperChat
