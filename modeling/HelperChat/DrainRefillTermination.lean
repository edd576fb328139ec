import HelperChat.DrainRefill
import Mathlib.Algebra.Order.BigOperators.Group.List
import Mathlib.Algebra.Order.Ring.Nat
import Mathlib.Data.Prod.Lex

/-!
# Draining and refilling workers stop

Every step decreases one of three numbers and leaves the ones before it alone: how many
workers still drain, how many items the shared queue can still come to hold or lose, and
how far the workers are from their next test, removal or append.

A removal from an emptied queue and an append to a full one make no progress on the
items, but they bring their worker forward.
-/

namespace DrainRefill

universe u v
variable {Item : Type u} {Role : Type v} {task : Task Role Item}

/-- One for a worker in its drain loop. -/
def drainers (worker : Worker Role Item) : Nat :=
  match worker.phase with
  | .drainTest | .drainRemove | .drainAdd _ => 1
  | _ => 0

/-- How many appends to the shared queue a worker in its refill loop still makes. -/
def owed (worker : Worker Role Item) : Nat :=
  match worker.phase with
  | .refillTest => worker.held.length
  | .refillRemove => max worker.held.length 1
  | .refillAdd _ => worker.held.length + 1
  | _ => 0

/-- How many steps a worker can take before the shared queue or the number of drainers
changes. A draining worker on an empty queue is on its way to the test that sends it out
of the loop, on a nonempty queue it is on its way to a removal. -/
def rank (emptied : Bool) (worker : Worker Role Item) : Nat :=
  match worker.phase with
  | .drainTest => 1
  | .drainRemove => if emptied then 3 else 0
  | .drainAdd _ => 2
  | .refillTest => 3 * owed worker + 2
  | .refillRemove => 3 * owed worker + 1
  | .refillAdd _ => 3 * owed worker
  | .exited => 0

/-- The shared items and the appends still to come. -/
def reachable (pool : Pool Role Item) : Nat :=
  pool.shared.length + (pool.workers.map owed).sum

/-- The three numbers, compared in this order. -/
def progress (pool : Pool Role Item) : Nat ×ₗ Nat ×ₗ Nat :=
  toLex ((pool.workers.map drainers).sum, toLex (reachable pool,
    (pool.workers.map (rank pool.shared.isEmpty)).sum))

/-- What a move does to the numbers of its worker. -/
inductive Advances (shared after : List Item) (worker moved : Worker Role Item) : Prop where
  | leaves (fewer : drainers moved < drainers worker)
  | consumes (same : drainers moved = drainers worker)
      (fewer : after.length + owed moved < shared.length + owed worker)
  | approaches (same : drainers moved = drainers worker)
      (kept : after.length + owed moved = shared.length + owed worker)
      (nearer : rank shared.isEmpty moved < rank shared.isEmpty worker)
      (filled : shared.length ≤ after.length)

/-- Every move decreases one of the numbers. -/
theorem move_advances {shared after : List Item} {worker moved : Worker Role Item}
    (move : Move task shared worker after moved) : Advances shared after worker moved := by
  cases move with
  | leaveDrain => exact .leaves (by simp [drainers])
  | take => exact .consumes rfl (by simp [owed])
  | putBackFull => exact .consumes rfl (by simp [owed])
  | enterDrain | takeBlank | keep | keepFull =>
    exact .approaches rfl rfl (by simp [rank]) (Nat.le_refl _)
  | enterRefill | exit | release | releaseBlank =>
    exact .approaches rfl (by simp [owed]) (by simp [rank, owed]) (Nat.le_refl _)
  | putBack =>
    refine .approaches rfl ?_ ?_ ?_
    · simp [owed]
      omega
    · simp [rank, owed]
      omega
    · simp

/-- More items in the shared queue bring no worker farther away. -/
theorem rank_mono {shared after : List Item} (filled : shared.length ≤ after.length)
    (worker : Worker Role Item) : rank after.isEmpty worker ≤ rank shared.isEmpty worker := by
  by_cases empty : after = []
  · have same : shared = [] := by simpa [empty] using filled
    rw [empty, same]
  · have filledAfter : after.isEmpty = false := by simpa using empty
    rw [filledAfter]
    unfold rank
    split
    case h_2 => exact Nat.zero_le _
    all_goals exact Nat.le_refl _

/-- Every step decreases the progress still to be made. -/
theorem step_progress {pool next : Pool Role Item} {index : Nat}
    (stepped : step task pool index = some next) : progress next < progress pool := by
  obtain ⟨worker, moved, present, move, workers⟩ := step_move stepped
  have drainersMoved : (next.workers.map drainers).sum + drainers worker =
      (pool.workers.map drainers).sum + drainers moved := by
    rw [workers]
    exact MemberUpdate.sum_map_set drainers pool.workers index worker moved present
  have owedMoved : (next.workers.map owed).sum + owed worker =
      (pool.workers.map owed).sum + owed moved := by
    rw [workers]
    exact MemberUpdate.sum_map_set owed pool.workers index worker moved present
  simp only [progress, Prod.Lex.toLex_lt_toLex, reachable]
  cases move_advances move with
  | leaves fewer =>
    left
    omega
  | consumes same fewer =>
    right
    constructor
    · omega
    · left
      omega
  | approaches same kept nearer filled =>
    have rankMoved : (next.workers.map (rank pool.shared.isEmpty)).sum +
        rank pool.shared.isEmpty worker =
          (pool.workers.map (rank pool.shared.isEmpty)).sum + rank pool.shared.isEmpty moved := by
      rw [workers]
      exact MemberUpdate.sum_map_set (rank pool.shared.isEmpty) pool.workers index worker moved
        present
    have others : (next.workers.map (rank next.shared.isEmpty)).sum ≤
        (next.workers.map (rank pool.shared.isEmpty)).sum :=
      List.sum_le_sum fun other _ => rank_mono filled other
    right
    constructor
    · omega
    · right
      constructor
      · omega
      · omega

/-- Workers never step for ever. -/
theorem no_infinite_pool_run (start : Pool Role Item) :
    ¬ TransitionSystem.RunsForever (step task) start :=
  TransitionSystem.no_infinite_run progress (fun _ _ _ stepped => step_progress stepped) start

end DrainRefill
