import HelperChat.Queue
import HelperChat.MemberUpdate
import HelperChat.Transition
import Mathlib.Data.Int.ModEq
import Mathlib.Tactic.Ring

/-!
# The queue operations statement by statement

Calls of `removeFromTheQueue` and `addToTheQueue` by different threads on one queue, with
every statement as a step of its own. Nothing keeps a second call from passing its test
before the first one has changed the count, so the count can leave its range.

Head and tail each move with the count sooner or later, so between the calls the tail is
in its place in every run. The count stays in its range in the runs in which a call passes
its test only while there is an entry, or a free place, for it beside those of the calls
that have passed theirs.
-/

namespace HelperChat

/-- A call of one of the operations, by the statement that comes next. -/
inductive QueueCall where
  | removeTest
  | removeRead
  | removeHead (charDataToReturn : UInt8)
  | removeCount (charDataToReturn : UInt8)
  | removed (charDataToReturn : UInt8)
  | addTest (dataToAppend : UInt8)
  | addWrite (dataToAppend : UInt8)
  | addCount
  | addTail
  | added (success : Bool)
deriving DecidableEq

/-- The next statement of a call: the queue and the call after it. -/
def queueStatement (queue : StructForQueueBoi) : QueueCall → Option (StructForQueueBoi × QueueCall)
  | .removeTest =>
      if queue.countOfEntries = 0 then some (queue, .removed 0) else some (queue, .removeRead)
  | .removeRead => some (queue, .removeHead (queue.values.getD queue.head 0))
  | .removeHead charDataToReturn =>
      some ({ queue with head := (queue.head + 1) % queue.size }, .removeCount charDataToReturn)
  | .removeCount charDataToReturn =>
      some ({ queue with countOfEntries := queue.countOfEntries - 1 }, .removed charDataToReturn)
  | .removed _ => none
  | .addTest dataToAppend =>
      if queue.countOfEntries = queue.size then some (queue, .added false)
      else some (queue, .addWrite dataToAppend)
  | .addWrite dataToAppend =>
      some ({ queue with values := queue.values.set queue.tail dataToAppend }, .addCount)
  | .addCount => some ({ queue with countOfEntries := queue.countOfEntries + 1 }, .addTail)
  | .addTail => some ({ queue with tail := (queue.tail + 1) % queue.size }, .added true)
  | .added _ => none

/-- The queue and the calls made on it. -/
structure SharedQueue where
  queue : StructForQueueBoi
  calls : List QueueCall
deriving DecidableEq

/-- The call at a position executes its next statement. -/
def statementStep (state : SharedQueue) (index : Nat) : Option SharedQueue := do
  let call ← state.calls[index]?
  let (queue, moved) ← queueStatement state.queue call
  pure ⟨queue, state.calls.set index moved⟩

/-- A call that has not started. -/
def QueueCall.Fresh : QueueCall → Prop
  | .removeTest | .addTest _ => True
  | _ => False

/-- A call between its first and its last statement. -/
def QueueCall.InProgress : QueueCall → Prop
  | .removeTest | .removed _ | .addTest _ | .added _ => False
  | _ => True

/-- The count is in its range, and the tail is in its place when no call is in progress. -/
structure QueueSafe (state : SharedQueue) : Prop where
  countNonnegative : 0 ≤ state.queue.countOfEntries
  countBounded : state.queue.countOfEntries ≤ state.queue.size
  tailPlaced : (∀ call ∈ state.calls, ¬ call.InProgress) →
    (state.queue.tail : Int) = (state.queue.head + state.queue.countOfEntries) % state.queue.size

/-- One for a removal that has passed its test and not yet changed the count. -/
def QueueCall.removing : QueueCall → Nat
  | .removeRead | .removeHead _ | .removeCount _ => 1
  | _ => 0

/-- One for an addition that has passed its test and not yet changed the count. -/
def QueueCall.adding : QueueCall → Nat
  | .addWrite _ | .addCount => 1
  | _ => 0

/-- One for a removal that has moved the head and not yet changed the count. -/
def QueueCall.headAhead : QueueCall → Nat
  | .removeCount _ => 1
  | _ => 0

/-- One for an addition that has changed the count and not yet moved the tail. -/
def QueueCall.tailBehind : QueueCall → Nat
  | .addTail => 1
  | _ => 0

/-- A number of each call, summed over the calls. -/
def SharedQueue.total (weight : QueueCall → Nat) (state : SharedQueue) : Nat :=
  (state.calls.map weight).sum

/-- A removal passes its test only while an entry is left beside those of the pending
removals, an addition only while a place is left beside those of the pending additions. -/
def TestsWithRoom (state : SharedQueue) (index : Nat) : Prop :=
  match state.calls[index]? with
  | some .removeTest =>
      state.queue.countOfEntries ≠ 0 → state.total QueueCall.removing < state.queue.countOfEntries
  | some (.addTest _) =>
      state.queue.countOfEntries ≠ state.queue.size →
        state.queue.countOfEntries + state.total QueueCall.adding < state.queue.size
  | _ => True

instance (state : SharedQueue) (index : Nat) : Decidable (TestsWithRoom state index) := by
  unfold TestsWithRoom
  split
  all_goals infer_instance

/-- A removal alone makes the whole `removeFromTheQueue`. -/
theorem removal_alone (queue : StructForQueueBoi) :
    TransitionSystem.exhaust statementStep 0 4 ⟨queue, [.removeTest]⟩ =
      ⟨(removeFromTheQueue queue).2, [.removed (removeFromTheQueue queue).1]⟩ := by
  by_cases empty : queue.countOfEntries = 0
  · simp [TransitionSystem.exhaust, statementStep, queueStatement, removeFromTheQueue, empty]
  · simp [TransitionSystem.exhaust, statementStep, queueStatement, removeFromTheQueue, empty]

/-- An addition alone makes the whole `addToTheQueue`. -/
theorem addition_alone (queue : StructForQueueBoi) (dataToAppend : UInt8) :
    TransitionSystem.exhaust statementStep 0 4 ⟨queue, [.addTest dataToAppend]⟩ =
      ⟨(addToTheQueue queue dataToAppend).2, [.added (addToTheQueue queue dataToAppend).1]⟩ := by
  by_cases full : queue.countOfEntries = queue.size
  · simp [TransitionSystem.exhaust, statementStep, queueStatement, addToTheQueue, full]
  · simp [TransitionSystem.exhaust, statementStep, queueStatement, addToTheQueue, full]

/-- A step is one statement of one call. -/
theorem statement_step_call {state next : SharedQueue} {index : Nat}
    (stepped : statementStep state index = some next) :
    ∃ call moved, state.calls[index]? = some call ∧
      queueStatement state.queue call = some (next.queue, moved) ∧
      next.calls = state.calls.set index moved := by
  obtain ⟨call, present, rest⟩ := Option.bind_eq_some_iff.mp stepped
  obtain ⟨⟨queue, moved⟩, advanced, built⟩ := Option.bind_eq_some_iff.mp rest
  obtain rfl : (⟨queue, state.calls.set index moved⟩ : SharedQueue) = next := Option.some.inj built
  exact ⟨call, moved, present, advanced, rfl⟩

/-- A step exchanges its call's contribution to a total. -/
theorem SharedQueue.total_step (weight : QueueCall → Nat) {state next : SharedQueue} {index : Nat}
    {call moved : QueueCall} (present : state.calls[index]? = some call)
    (replaced : next.calls = state.calls.set index moved) :
    next.total weight + weight call = state.total weight + weight moved := by
  rw [SharedQueue.total, replaced]
  exact MemberUpdate.sum_map_set weight state.calls index call moved present

/-- How far the tail is from its place, as the positions and the count stand. -/
def tailOffset (queue : StructForQueueBoi) (headsAhead tailsBehind : Nat) : Int :=
  queue.tail + tailsBehind - (queue.head + queue.countOfEntries - headsAhead)

/-- No statement changes the size or moves the tail out of the array, and what it does to
the positions and the count is what its call owes afterwards or had owed before. -/
theorem statement_placed {queue after : StructForQueueBoi} {call moved : QueueCall}
    (inside : queue.tail < queue.size)
    (advanced : queueStatement queue call = some (after, moved)) :
    after.size = queue.size ∧ after.tail < queue.size ∧
      tailOffset after moved.headAhead moved.tailBehind ≡
        tailOffset queue call.headAhead call.tailBehind [ZMOD queue.size] := by
  cases call with
  | removeTest | addTest =>
    simp only [queueStatement] at advanced
    split at advanced
    all_goals
      obtain ⟨rfl, rfl⟩ := Prod.mk.inj (Option.some.inj advanced)
      exact ⟨rfl, inside, Int.ModEq.refl _⟩
  | removeRead | addWrite =>
    obtain ⟨rfl, rfl⟩ := Prod.mk.inj (Option.some.inj advanced)
    exact ⟨rfl, inside, Int.ModEq.refl _⟩
  | removeCount | addCount =>
    obtain ⟨rfl, rfl⟩ := Prod.mk.inj (Option.some.inj advanced)
    refine ⟨rfl, inside, congrArg (· % (queue.size : Int)) ?_⟩
    simp only [tailOffset, QueueCall.headAhead, QueueCall.tailBehind]
    omega
  | removeHead =>
    obtain ⟨rfl, rfl⟩ := Prod.mk.inj (Option.some.inj advanced)
    refine ⟨rfl, inside, ?_⟩
    have wrapped : ((queue.head + 1 : Nat) : Int) % queue.size ≡ (queue.head + 1 : Nat)
        [ZMOD queue.size] := Int.mod_modEq _ _
    have moved := ((wrapped.add_right (queue.countOfEntries - 1)).sub_left queue.tail)
    simp only [tailOffset, QueueCall.headAhead, QueueCall.tailBehind]
    convert moved using 1
    · push_cast
      ring
    · push_cast
      ring
  | addTail =>
    obtain ⟨rfl, rfl⟩ := Prod.mk.inj (Option.some.inj advanced)
    refine ⟨rfl, Nat.mod_lt _ (Nat.zero_lt_of_lt inside), ?_⟩
    have wrapped : ((queue.tail + 1 : Nat) : Int) % queue.size ≡ (queue.tail + 1 : Nat)
        [ZMOD queue.size] := Int.mod_modEq _ _
    have moved := wrapped.sub_right (queue.head + queue.countOfEntries)
    simp only [tailOffset, QueueCall.headAhead, QueueCall.tailBehind]
    convert moved using 1
    · push_cast
      ring
    · push_cast
      ring
  | removed | added => simp [queueStatement] at advanced

/-- A statement that is not a passed test leaves the pending removals an entry each and the
pending additions a place each, if they had them. -/
theorem statement_room {queue after : StructForQueueBoi} {call moved : QueueCall}
    (advanced : queueStatement queue call = some (after, moved)) :
    (call = .removeTest ∧ queue.countOfEntries ≠ 0 ∧ after = queue ∧ moved = .removeRead) ∨
      (∃ dataToAppend, call = .addTest dataToAppend ∧ queue.countOfEntries ≠ queue.size ∧
        after = queue ∧ moved = .addWrite dataToAppend) ∨
      (queue.countOfEntries - call.removing ≤ after.countOfEntries - moved.removing ∧
        after.countOfEntries + moved.adding ≤ queue.countOfEntries + call.adding) := by
  cases call with
  | removeTest =>
    simp only [queueStatement] at advanced
    split at advanced
    case isTrue =>
      obtain ⟨rfl, rfl⟩ := Prod.mk.inj (Option.some.inj advanced)
      exact .inr (.inr ⟨Int.le_refl _, Int.le_refl _⟩)
    case isFalse nonempty =>
      obtain ⟨rfl, rfl⟩ := Prod.mk.inj (Option.some.inj advanced)
      exact .inl ⟨rfl, nonempty, rfl, rfl⟩
  | addTest dataToAppend =>
    simp only [queueStatement] at advanced
    split at advanced
    case isTrue =>
      obtain ⟨rfl, rfl⟩ := Prod.mk.inj (Option.some.inj advanced)
      exact .inr (.inr ⟨Int.le_refl _, Int.le_refl _⟩)
    case isFalse room =>
      obtain ⟨rfl, rfl⟩ := Prod.mk.inj (Option.some.inj advanced)
      exact .inr (.inl ⟨dataToAppend, rfl, room, rfl, rfl⟩)
  | removed | added => simp [queueStatement] at advanced
  | removeRead | removeHead | removeCount | addWrite | addCount | addTail =>
    obtain ⟨rfl, rfl⟩ := Prod.mk.inj (Option.some.inj advanced)
    refine .inr (.inr ⟨?_, ?_⟩)
    · simp only [QueueCall.removing]
      omega
    · simp only [QueueCall.adding.eq_def]
      omega

/-- The tail is in its place up to what the calls in progress owe. -/
structure TailOwed (size : Nat) (state : SharedQueue) : Prop where
  sized : state.queue.size = size
  inside : state.queue.tail < size
  placed : tailOffset state.queue (state.total QueueCall.headAhead)
    (state.total QueueCall.tailBehind) ≡ 0 [ZMOD size]

/-- Every statement keeps the tail in its place up to what is owed. -/
theorem TailOwed.step {size : Nat} {state next : SharedQueue} {index : Nat}
    (owed : TailOwed size state) (stepped : statementStep state index = some next) :
    TailOwed size next := by
  obtain ⟨rfl, inside, placed⟩ := owed
  obtain ⟨call, moved, present, advanced, replaced⟩ := statement_step_call stepped
  obtain ⟨sameSize, stillInside, offset⟩ := statement_placed inside advanced
  have heads := SharedQueue.total_step QueueCall.headAhead present replaced
  have tails := SharedQueue.total_step QueueCall.tailBehind present replaced
  refine ⟨sameSize, stillInside, ?_⟩
  let others : Int := (state.total QueueCall.headAhead - call.headAhead) +
    (state.total QueueCall.tailBehind - call.tailBehind)
  have before : tailOffset state.queue call.headAhead call.tailBehind + others =
      tailOffset state.queue (state.total QueueCall.headAhead)
        (state.total QueueCall.tailBehind) := by
    simp only [tailOffset, others]
    ring
  have afterwards : tailOffset next.queue moved.headAhead moved.tailBehind + others =
      tailOffset next.queue (next.total QueueCall.headAhead)
        (next.total QueueCall.tailBehind) := by
    simp only [tailOffset, others]
    omega
  rw [← before] at placed
  rw [← afterwards]
  exact (offset.add_right others).trans placed

/-- Calls without a contribution have none in total. -/
theorem SharedQueue.total_zero {weight : QueueCall → Nat} {state : SharedQueue}
    (none : ∀ call ∈ state.calls, weight call = 0) : state.total weight = 0 := by
  apply List.sum_eq_zero
  intro number member
  obtain ⟨call, among, rfl⟩ := List.mem_map.mp member
  exact none call among

/-- A call that is not in progress owes no position. -/
theorem QueueCall.owes_nothing {call : QueueCall} (idle : ¬ call.InProgress) :
    call.headAhead = 0 ∧ call.tailBehind = 0 := by
  cases call with
  | removeTest | removed | addTest | added => exact ⟨rfl, rfl⟩
  | removeRead | removeHead | removeCount | addWrite | addCount | addTail =>
    exact absurd trivial idle

/-- Between the calls nothing is owed. -/
theorem TailOwed.idle {size : Nat} {state : SharedQueue} (owed : TailOwed size state)
    (idle : ∀ call ∈ state.calls, ¬ call.InProgress) :
    (state.queue.tail : Int) =
      (state.queue.head + state.queue.countOfEntries) % state.queue.size := by
  obtain ⟨rfl, inside, placed⟩ := owed
  have heads : state.total QueueCall.headAhead = 0 :=
    SharedQueue.total_zero fun call among => (QueueCall.owes_nothing (idle call among)).1
  have tails : state.total QueueCall.tailBehind = 0 :=
    SharedQueue.total_zero fun call among => (QueueCall.owes_nothing (idle call among)).2
  rw [heads, tails] at placed
  have same : (state.queue.tail : Int) ≡ state.queue.head + state.queue.countOfEntries
      [ZMOD state.queue.size] := by
    have shifted := placed.add_right (state.queue.head + state.queue.countOfEntries)
    simpa [tailOffset] using shifted
  rw [← same.eq, Int.emod_eq_of_lt (Int.natCast_nonneg _) (by exact_mod_cast inside)]

/-- Every pending removal has an entry and every pending addition a place. -/
structure RoomClaimed (state : SharedQueue) : Prop where
  entries : state.total QueueCall.removing ≤ state.queue.countOfEntries
  places : state.queue.countOfEntries + state.total QueueCall.adding ≤ state.queue.size

/-- A step that tests with room leaves an entry or a place for everyone. -/
theorem RoomClaimed.step {state next : SharedQueue} {index : Nat} (claimed : RoomClaimed state)
    (inside : state.queue.tail < state.queue.size) (room : TestsWithRoom state index)
    (stepped : statementStep state index = some next) : RoomClaimed next := by
  obtain ⟨entries, places⟩ := claimed
  obtain ⟨call, moved, present, advanced, replaced⟩ := statement_step_call stepped
  obtain ⟨sameSize, _, _⟩ := statement_placed inside advanced
  have removals := SharedQueue.total_step QueueCall.removing present replaced
  have additions := SharedQueue.total_step QueueCall.adding present replaced
  rw [TestsWithRoom, present] at room
  rcases statement_room advanced with ⟨rfl, nonempty, same, rfl⟩ | ⟨dataToAppend, rfl, free, same,
    rfl⟩ | ⟨lower, upper⟩
  · have spare := room nonempty
    simp only [QueueCall.removing, QueueCall.adding.eq_def] at removals additions
    constructor
    · rw [same]
      omega
    · rw [same]
      omega
  · have spare := room free
    simp only [QueueCall.removing, QueueCall.adding.eq_def] at removals additions
    constructor
    · rw [same]
      omega
    · rw [same]
      omega
  · constructor
    · omega
    · rw [sameSize]
      omega

/-- How many statements a pending removal is from changing the count. -/
def QueueCall.removalWork : QueueCall → Nat
  | .removeRead => 3
  | .removeHead _ => 2
  | .removeCount _ => 1
  | _ => 0

/-- How many statements a pending addition is from changing the count. -/
def QueueCall.additionWork : QueueCall → Nat
  | .addWrite _ => 2
  | .addCount => 1
  | _ => 0

/-- A present call executes its statement. -/
theorem statement_step_of_call {state : SharedQueue} {index : Nat} {call moved : QueueCall}
    {after : StructForQueueBoi} (present : state.calls[index]? = some call)
    (advanced : queueStatement state.queue call = some (after, moved)) :
    statementStep state index = some ⟨after, state.calls.set index moved⟩ := by
  simp [statementStep, present, advanced]

/-- With more pending removals than entries, their statements bring the count below 0. -/
theorem overclaimed_entries {state : SharedQueue}
    (exceeding : state.queue.countOfEntries < state.total QueueCall.removing) :
    ∃ events final, TransitionSystem.run statementStep state events = some final ∧
      final.queue.countOfEntries < 0 := by
  refine TransitionSystem.reaches_goal _
    (fun state => state.queue.countOfEntries < state.total QueueCall.removing)
    (SharedQueue.total QueueCall.removalWork) ?_ exceeding
  intro state exceeding
  by_cases negative : state.queue.countOfEntries < 0
  · exact .inl negative
  · right
    have positive : 0 < state.total QueueCall.removing := by omega
    obtain ⟨index, call, present, pending⟩ := MemberUpdate.exists_of_sum_pos positive
    obtain ⟨after, moved, advanced, owed, less⟩ : ∃ after moved,
        queueStatement state.queue call = some (after, moved) ∧
        after.countOfEntries - moved.removing = state.queue.countOfEntries - call.removing ∧
        moved.removalWork < call.removalWork := by
      cases call with
      | removeRead | removeHead =>
        exact ⟨_, _, rfl, rfl, Nat.lt_succ_self _⟩
      | removeCount =>
        exact ⟨_, _, rfl, Int.sub_zero _, Nat.zero_lt_one⟩
      | removeTest | removed | addTest | addWrite | addCount | addTail | added =>
        exact absurd pending (Nat.lt_irrefl 0)
    let next : SharedQueue := ⟨after, state.calls.set index moved⟩
    have removals : next.total QueueCall.removing + call.removing =
        state.total QueueCall.removing + moved.removing := SharedQueue.total_step _ present rfl
    have work : next.total QueueCall.removalWork + call.removalWork =
        state.total QueueCall.removalWork + moved.removalWork :=
      SharedQueue.total_step _ present rfl
    refine ⟨index, next, statement_step_of_call present advanced, ?_, ?_⟩
    · change after.countOfEntries < _
      omega
    · omega

/-- With more pending additions than places, their statements bring the count above the
size. -/
theorem overclaimed_places {state : SharedQueue}
    (exceeding : state.queue.size < state.queue.countOfEntries + state.total QueueCall.adding) :
    ∃ events final, TransitionSystem.run statementStep state events = some final ∧
      final.queue.size < final.queue.countOfEntries := by
  refine TransitionSystem.reaches_goal _
    (fun state => (state.queue.size : Int) <
      state.queue.countOfEntries + state.total QueueCall.adding)
    (SharedQueue.total QueueCall.additionWork) ?_ exceeding
  intro state exceeding
  by_cases above : state.queue.size < state.queue.countOfEntries
  · exact .inl above
  · right
    have positive : 0 < state.total QueueCall.adding := by omega
    obtain ⟨index, call, present, pending⟩ := MemberUpdate.exists_of_sum_pos positive
    obtain ⟨after, moved, advanced, sized, owed, less⟩ : ∃ after moved,
        queueStatement state.queue call = some (after, moved) ∧
        after.size = state.queue.size ∧
        after.countOfEntries + moved.adding = state.queue.countOfEntries + call.adding ∧
        moved.additionWork < call.additionWork := by
      cases call with
      | addWrite =>
        exact ⟨_, _, rfl, rfl, rfl, Nat.lt_succ_self _⟩
      | addCount =>
        exact ⟨_, _, rfl, rfl, Int.add_zero _, Nat.zero_lt_one⟩
      | removeTest | removeRead | removeHead | removeCount | removed | addTest | addTail | added =>
        exact absurd pending (Nat.lt_irrefl 0)
    let next : SharedQueue := ⟨after, state.calls.set index moved⟩
    have additions : next.total QueueCall.adding + call.adding =
        state.total QueueCall.adding + moved.adding := SharedQueue.total_step _ present rfl
    have work : next.total QueueCall.additionWork + call.additionWork =
        state.total QueueCall.additionWork + moved.additionWork :=
      SharedQueue.total_step _ present rfl
    refine ⟨index, next, statement_step_of_call present advanced, ?_, ?_⟩
    · change (after.size : Int) < after.countOfEntries + _
      omega
    · omega

/-- A test passed without room claims more than there is. -/
theorem unguarded_test_overclaims {state next : SharedQueue} {index : Nat}
    (noRoom : ¬ TestsWithRoom state index)
    (stepped : statementStep state index = some next) :
    next.queue.countOfEntries < next.total QueueCall.removing ∨
      next.queue.size < next.queue.countOfEntries + next.total QueueCall.adding := by
  obtain ⟨call, moved, present, advanced, replaced⟩ := statement_step_call stepped
  have removals := SharedQueue.total_step QueueCall.removing present replaced
  have additions := SharedQueue.total_step QueueCall.adding present replaced
  rw [TestsWithRoom, present] at noRoom
  cases call with
  | removeTest =>
    simp only [Classical.not_imp, Int.not_lt] at noRoom
    obtain ⟨nonempty, few⟩ := noRoom
    rw [queueStatement, if_neg nonempty] at advanced
    obtain ⟨same, rfl⟩ := Prod.mk.inj (Option.some.inj advanced)
    simp only [QueueCall.removing] at removals
    left
    rw [← same]
    omega
  | addTest =>
    simp only [Classical.not_imp, Int.not_lt] at noRoom
    obtain ⟨free, few⟩ := noRoom
    rw [queueStatement, if_neg free] at advanced
    obtain ⟨same, rfl⟩ := Prod.mk.inj (Option.some.inj advanced)
    simp only [QueueCall.adding.eq_def] at additions
    right
    rw [← same]
    omega
  | removeRead | removeHead | removeCount | removed | addWrite | addCount | addTail | added =>
    exact absurd trivial noRoom

/-- The invariant of runs whose tests are passed with room. -/
structure QueueAccounted (size : Nat) (state : SharedQueue) : Prop where
  owed : TailOwed size state
  claimed : RoomClaimed state

/-- A call before its first statement contributes to no total. -/
theorem QueueCall.Fresh.contributes_nothing {call : QueueCall} (fresh : call.Fresh) :
    call.headAhead = 0 ∧ call.tailBehind = 0 ∧ call.removing = 0 ∧ call.adding = 0 := by
  cases call with
  | removeTest | addTest => exact ⟨rfl, rfl, rfl, rfl⟩
  | removeRead | removeHead | removeCount | removed | addWrite | addCount | addTail | added =>
    exact absurd fresh id

/-- It holds before the calls. -/
theorem fresh_accounted (queue : RingQueue) {calls : List QueueCall}
    (fresh : ∀ call ∈ calls, call.Fresh) : QueueAccounted queue.raw.size ⟨queue.raw, calls⟩ := by
  have nothing : ∀ call ∈ calls, call.headAhead = 0 ∧ call.tailBehind = 0 ∧
      call.removing = 0 ∧ call.adding = 0 :=
    fun call among => (fresh call among).contributes_nothing
  let start : SharedQueue := ⟨queue.raw, calls⟩
  have heads : start.total QueueCall.headAhead = 0 :=
    SharedQueue.total_zero fun call among => (nothing call among).1
  have tails : start.total QueueCall.tailBehind = 0 :=
    SharedQueue.total_zero fun call among => (nothing call among).2.1
  have removals : start.total QueueCall.removing = 0 :=
    SharedQueue.total_zero fun call among => (nothing call among).2.2.1
  have additions : start.total QueueCall.adding = 0 :=
    SharedQueue.total_zero fun call among => (nothing call among).2.2.2
  have formed := queue.wellFormed
  have nonnegative := formed.countNonnegative
  have bounded := formed.countBounded
  have count : (queue.raw.countOfEntries.toNat : Int) = queue.raw.countOfEntries :=
    Int.toNat_of_nonneg nonnegative
  have placed : (queue.raw.tail : Int) ≡ queue.raw.head + queue.raw.countOfEntries
      [ZMOD queue.raw.size] := by
    have wrapped : ((queue.raw.tail : Nat) : Int) ≡
        (queue.raw.head + queue.raw.countOfEntries.toNat : Nat) [ZMOD queue.raw.size] := by
      rw [formed.tailPlaced, Int.natCast_mod]
      exact Int.mod_modEq _ _
    rwa [Int.natCast_add, count] at wrapped
  constructor
  · refine ⟨rfl, formed.tailInside, ?_⟩
    rw [heads, tails]
    have shifted := placed.sub_right (queue.raw.head + queue.raw.countOfEntries)
    simpa [tailOffset] using shifted
  · constructor
    · rw [removals]
      exact nonnegative
    · rw [additions]
      simpa using bounded

/-- A state of the invariant is safe. -/
theorem QueueAccounted.safe {size : Nat} {state : SharedQueue}
    (accounted : QueueAccounted size state) : QueueSafe state := by
  obtain ⟨owed, entries, places⟩ := accounted
  refine ⟨?_, ?_, owed.idle⟩
  · omega
  · omega

/-- In runs in which every test is passed with room the queue is safe in every state, and a
test passed without room can be followed by steps to a state in which it is not. There may be
any number of calls. Safety is about the count and the tail only: two removals that are safe
can read the same byte. -/
theorem queue_safe_while_room (queue : RingQueue) (calls : List QueueCall)
    (fresh : ∀ call ∈ calls, call.Fresh) :
    (∀ events state,
      TransitionSystem.run statementStep ⟨queue.raw, calls⟩ events = some state →
      TransitionSystem.Meets statementStep TestsWithRoom ⟨queue.raw, calls⟩ events →
      QueueSafe state) ∧
      ∀ state index next, statementStep state index = some next → ¬ TestsWithRoom state index →
        ∃ more final, TransitionSystem.run statementStep next more = some final ∧
          ¬ QueueSafe final := by
  constructor
  · intro events state ran met
    have accounted : QueueAccounted queue.raw.size state :=
      TransitionSystem.guarded_run_preserves (QueueAccounted queue.raw.size)
        (fun _ _ _ before room stepped => ⟨before.owed.step stepped,
          before.claimed.step (before.owed.sized ▸ before.owed.inside) room stepped⟩)
        (fresh_accounted queue fresh) met ran
    exact accounted.safe
  · intro state index next stepped noRoom
    rcases unguarded_test_overclaims noRoom stepped with entries | places
    · obtain ⟨more, final, ran, negative⟩ := overclaimed_entries entries
      exact ⟨more, final, ran, fun safe => absurd safe.countNonnegative (Int.not_le.mpr negative)⟩
    · obtain ⟨more, final, ran, above⟩ := overclaimed_places places
      exact ⟨more, final, ran, fun safe => absurd safe.countBounded (Int.not_le.mpr above)⟩

/-- A queue with one byte and no room for another. -/
def singleByteQueue : RingQueue where
  raw := ⟨['x'.toUInt8], 0, 0, 1, 1⟩
  wellFormed := ⟨rfl, by decide, by decide, by decide, by decide, rfl⟩

/-- Two removals pass their tests before either has changed the count. -/
theorem two_removals_one_byte :
    ¬ ∀ (queue : RingQueue) (calls : List QueueCall), (∀ call ∈ calls, call.Fresh) →
      ∀ events state,
        TransitionSystem.run statementStep ⟨queue.raw, calls⟩ events = some state →
        QueueSafe state := by
  intro always
  have safe := always singleByteQueue [.removeTest, .removeTest] (by simp [QueueCall.Fresh])
    [0, 1, 0, 0, 0, 1, 1, 1] ⟨⟨['x'.toUInt8], 0, 0, -1, 1⟩,
      [.removed 'x'.toUInt8, .removed 'x'.toUInt8]⟩ (by decide)
  exact absurd safe.countNonnegative (by decide)

/-- A queue with two bytes and room for a third one. -/
def twoByteQueue : RingQueue where
  raw := ⟨['x'.toUInt8, 'y'.toUInt8, 0], 0, 2, 2, 3⟩
  wellFormed := ⟨rfl, by decide, by decide, by decide, by decide, rfl⟩

/-- Two removals and an addition pass their tests before any of them has changed the count, and
their other statements alternate. -/
def overlappingCalls : List Nat := [0, 1, 2, 0, 0, 2, 1, 2, 1, 0, 1, 2]

/-- There are an entry and a place for each of them, so the queue is safe. -/
theorem overlapping_calls_safe :
    ∃ state, TransitionSystem.run statementStep
        ⟨twoByteQueue.raw, [.removeTest, .removeTest, .addTest 'z'.toUInt8]⟩ overlappingCalls =
          some state ∧
      state.calls = [.removed 'x'.toUInt8, .removed 'y'.toUInt8, .added true] ∧
      TransitionSystem.Meets statementStep TestsWithRoom
        ⟨twoByteQueue.raw, [.removeTest, .removeTest, .addTest 'z'.toUInt8]⟩ overlappingCalls ∧
      QueueSafe state := by
  have ran : TransitionSystem.run statementStep
      ⟨twoByteQueue.raw, [.removeTest, .removeTest, .addTest 'z'.toUInt8]⟩ overlappingCalls =
        some ⟨⟨['x'.toUInt8, 'y'.toUInt8, 'z'.toUInt8], 2, 0, 1, 3⟩,
          [.removed 'x'.toUInt8, .removed 'y'.toUInt8, .added true]⟩ := by
    decide
  have room : TransitionSystem.Meets statementStep TestsWithRoom
      ⟨twoByteQueue.raw, [.removeTest, .removeTest, .addTest 'z'.toUInt8]⟩ overlappingCalls := by
    decide
  exact ⟨_, ran, rfl, room,
    (queue_safe_while_room twoByteQueue _ (by simp [QueueCall.Fresh])).1 _ _ ran room⟩

end HelperChat
