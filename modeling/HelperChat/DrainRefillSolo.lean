import HelperChat.DrainRefillOrder

/-!
# One worker running alone

A worker that takes consecutive steps drains the queue into its list and puts its list
back, each step known in advance. The schedules are computed from the numbers of items,
so that longer runs can be put together from them, harmless and harmful ones alike.
-/

namespace DrainRefill

universe u v w
variable {Item : Type u} {Role : Type v} {Value : Type w} {task : Task Role Item}
variable {role : Role} {workers : List (Worker Role Item)} {index : Nat}

/-- Put a list of items back one by one, within the capacity. -/
def refill (capacity : Nat) (shared held : List Item) : List Item :=
  held.foldl (append capacity) shared

/-- Refilling keeps the queue's own items first and cuts the rest at the capacity. -/
theorem refill_eq_take {capacity : Nat} {shared : List Item} (held : List Item)
    (bounded : shared.length ≤ capacity) :
    refill capacity shared held = (shared ++ held).take capacity := by
  induction held generalizing shared with
  | nil => simp [refill, List.take_of_length_le bounded]
  | cons item rest inductionHypothesis =>
    simp only [refill, List.foldl_cons] at inductionHypothesis ⊢
    by_cases full : shared.length = capacity
    · rw [append, if_pos full, inductionHypothesis bounded, ← full]
      simp
    · have room : (shared ++ [item]).length ≤ capacity := by
        simp only [List.length_append, List.length_singleton]
        omega
      rw [append, if_neg full, inductionHypothesis room]
      simp

/-- With room for everything, refilling appends. -/
theorem refill_all {capacity : Nat} {shared held : List Item}
    (room : shared.length + held.length ≤ capacity) :
    refill capacity shared held = shared ++ held := by
  rw [refill_eq_take held (by omega), List.take_of_length_le (by simpa using room)]

/-- Three steps move one item from the queue into the worker's list. -/
theorem drain_one {held : List Item} {item : Item} {rest : List Item}
    (inside : index < workers.length) (room : held.length ≠ task.capacity) :
    TransitionSystem.run (step task)
        ⟨item :: rest, workers.set index ⟨role, held, .drainTest⟩⟩ (List.replicate 3 index) =
      some ⟨rest, workers.set index ⟨role, held ++ [task.transform role item], .drainTest⟩⟩ := by
  simp [step, advance, List.replicate_succ, inside, append, room]

/-- A worker alone takes the first items of the queue in order. -/
theorem drain_run {held first rest : List Item} (inside : index < workers.length)
    (room : held.length + first.length ≤ task.capacity) :
    TransitionSystem.run (step task)
        ⟨first ++ rest, workers.set index ⟨role, held, .drainTest⟩⟩
        (List.replicate (3 * first.length) index) =
      some ⟨rest, workers.set index
        ⟨role, held ++ first.map (task.transform role), .drainTest⟩⟩ := by
  induction first generalizing held with
  | nil => simp
  | cons item later inductionHypothesis =>
    simp only [List.length_cons] at room
    have steps : List.replicate (3 * (later.length + 1)) index =
        List.replicate 3 index ++ List.replicate (3 * later.length) index := by
      rw [List.replicate_append_replicate]
      congr 1
      omega
    rw [List.length_cons, steps, List.cons_append]
    refine TransitionSystem.run_trans (drain_one inside (by omega)) ?_
    rw [inductionHypothesis (by simp only [List.length_append, List.length_singleton]; omega)]
    simp

/-- A worker that finds the queue empty goes on to put its items back, and exits. -/
theorem refill_run {shared held : List Item} (inside : index < workers.length) :
    TransitionSystem.run (step task)
        ⟨shared, workers.set index ⟨role, held, .refillTest⟩⟩
        (List.replicate (3 * held.length + 1) index) =
      some ⟨refill task.capacity shared held, workers.set index ⟨role, [], .exited⟩⟩ := by
  induction held generalizing shared with
  | nil => simp [step, advance, inside, refill]
  | cons item rest inductionHypothesis =>
    have steps : List.replicate (3 * (rest.length + 1) + 1) index =
        List.replicate 3 index ++ List.replicate (3 * rest.length + 1) index := by
      rw [List.replicate_append_replicate]
      congr 1
      omega
    have one : TransitionSystem.run (step task)
        ⟨shared, workers.set index ⟨role, item :: rest, .refillTest⟩⟩ (List.replicate 3 index) =
          some ⟨append task.capacity shared item, workers.set index ⟨role, rest, .refillTest⟩⟩ := by
      simp [step, advance, List.replicate_succ, inside]
    rw [List.length_cons, steps]
    exact TransitionSystem.run_trans one inductionHypothesis

/-- The steps of a whole pass over a queue of a given length. -/
def passSchedule (index length : Nat) : List Nat :=
  List.replicate (3 * length) index ++ index :: List.replicate (3 * length + 1) index

/-- A pass is one worker's steps only. -/
theorem pass_schedule_eq (index length : Nat) :
    passSchedule index length = List.replicate (6 * length + 2) index := by
  rw [passSchedule, ← List.replicate_succ, List.replicate_append_replicate]
  congr 1
  omega

/-- A pass of one worker alone transforms every item and keeps the order. -/
theorem pass_run {shared : List Item} (inside : index < workers.length)
    (bounded : shared.length ≤ task.capacity) :
    TransitionSystem.run (step task) ⟨shared, workers.set index ⟨role, [], .drainTest⟩⟩
        (passSchedule index shared.length) =
      some ⟨shared.map (task.transform role), workers.set index ⟨role, [], .exited⟩⟩ := by
  have drained : TransitionSystem.run (step task)
      ⟨shared ++ [], workers.set index ⟨role, [], .drainTest⟩⟩
        (List.replicate (3 * shared.length) index) =
      some ⟨[], workers.set index
        ⟨role, [] ++ shared.map (task.transform role), .drainTest⟩⟩ :=
    drain_run inside (by simpa using bounded)
  rw [List.append_nil, List.nil_append] at drained
  have left : step task
      ⟨[], workers.set index ⟨role, shared.map (task.transform role), .drainTest⟩⟩ index =
      some ⟨[], workers.set index ⟨role, shared.map (task.transform role), .refillTest⟩⟩ := by
    simp [step, advance, inside]
  have refilled : TransitionSystem.run (step task)
      ⟨[], workers.set index ⟨role, shared.map (task.transform role), .refillTest⟩⟩
        (List.replicate (3 * (shared.map (task.transform role)).length + 1) index) =
      some ⟨refill task.capacity [] (shared.map (task.transform role)),
        workers.set index ⟨role, [], .exited⟩⟩ := refill_run inside
  rw [refill_all (by simpa using bounded), List.length_map, List.nil_append] at refilled
  refine TransitionSystem.run_trans drained ?_
  rw [TransitionSystem.run_cons, left]
  exact refilled

/-- Roles applied to an item one after another. -/
def applyAll (task : Task Role Item) (roles : List Role) (item : Item) : Item :=
  roles.foldl (fun current role => task.transform role current) item

/-- Workers that have not moved yet, one for each role. -/
def freshWorkers (roles : List Role) : List (Worker Role Item) :=
  roles.map fun role => ⟨role, [], .drainTest⟩

/-- Workers that have finished, one for each role. -/
def exitedWorkers (roles : List Role) : List (Worker Role Item) :=
  roles.map fun role => ⟨role, [], .exited⟩

/-- Whole passes of consecutive workers from a position on. -/
def passesSchedule : Nat → List Role → Nat → List Nat
  | _, [], _ => []
  | position, _ :: roles, length =>
      passSchedule position length ++ passesSchedule (position + 1) roles length

/-- Workers that pass one after another apply all their roles to every item in place. -/
theorem passes_run {shared : List Item} {done : List (Worker Role Item)} {roles : List Role}
    (bounded : shared.length ≤ task.capacity) :
    TransitionSystem.run (step task) ⟨shared, done ++ freshWorkers roles⟩
        (passesSchedule done.length roles shared.length) =
      some ⟨shared.map (applyAll task roles), done ++ exitedWorkers roles⟩ := by
  induction roles generalizing shared done with
  | nil =>
    have nothing : applyAll task ([] : List Role) = id := rfl
    simp [passesSchedule, freshWorkers, exitedWorkers, nothing]
  | cons role roles inductionHypothesis =>
    have inside : done.length < (done ++ freshWorkers (role :: roles)).length := by
      simp [freshWorkers]
    have before : (done ++ freshWorkers (role :: roles)).set done.length ⟨role, [], .drainTest⟩ =
        done ++ freshWorkers (role :: roles) := by simp [freshWorkers]
    have after : (done ++ freshWorkers (role :: roles)).set done.length
        (⟨role, [], .exited⟩ : Worker Role Item) =
          (done ++ [⟨role, [], .exited⟩]) ++ freshWorkers roles := by simp [freshWorkers]
    have first : TransitionSystem.run (step task) ⟨shared, done ++ freshWorkers (role :: roles)⟩
        (passSchedule done.length shared.length) =
          some ⟨shared.map (task.transform role),
            (done ++ [⟨role, [], .exited⟩]) ++ freshWorkers roles⟩ := by
      rw [← before, ← after]
      exact pass_run inside bounded
    have later : TransitionSystem.run (step task)
        ⟨shared.map (task.transform role), (done ++ [⟨role, [], .exited⟩]) ++ freshWorkers roles⟩
        (passesSchedule (done ++ [(⟨role, [], .exited⟩ : Worker Role Item)]).length roles
          (shared.map (task.transform role)).length) =
        some ⟨(shared.map (task.transform role)).map (applyAll task roles),
          (done ++ [⟨role, [], .exited⟩]) ++ exitedWorkers roles⟩ :=
      inductionHypothesis (by simpa using bounded)
    simp only [List.length_map, List.length_append, List.length_singleton] at later
    refine TransitionSystem.run_trans first (later.trans ?_)
    simp [exitedWorkers, applyAll, Function.comp_def]

/-- The first worker takes all items but the last, then both workers pass the test for
the last one and the first removes it. -/
def raceSchedule (length : Nat) : List Nat :=
  List.replicate (3 * length) 0 ++ [0, 1, 0]

/-- After the race the second worker is about to remove from an empty queue. -/
theorem race_run (task : Task Role Item) (first second : Role)
    (others : List (Worker Role Item)) (items : List Item) (last : Item)
    (bounded : items.length ≤ task.capacity) :
    TransitionSystem.run (step task)
        ⟨items ++ [last], ⟨first, [], .drainTest⟩ :: ⟨second, [], .drainTest⟩ :: others⟩
        (raceSchedule items.length) =
      some ⟨[], ⟨first, items.map (task.transform first),
          .drainAdd (task.transform first last)⟩ :: ⟨second, [], .drainRemove⟩ :: others⟩ := by
  have drained : TransitionSystem.run (step task)
      ⟨items ++ [last], (⟨first, [], .drainTest⟩ :: ⟨second, [], .drainTest⟩ :: others).set 0
        ⟨first, [], .drainTest⟩⟩ (List.replicate (3 * items.length) 0) =
      some ⟨[last], (⟨first, [], .drainTest⟩ :: ⟨second, [], .drainTest⟩ :: others).set 0
        ⟨first, [] ++ items.map (task.transform first), .drainTest⟩⟩ :=
    drain_run (by simp) (by simpa using bounded)
  refine TransitionSystem.run_trans drained ?_
  simp [step, advance]

/-- The race continued: the first worker finds the queue empty, the second removes a
blank, puts it back and exits, and the first puts its items back behind the blank. -/
def blankSchedule (length : Nat) : List Nat :=
  raceSchedule length ++ [0, 0, 1, 1, 1, 1, 1, 1, 1] ++ List.replicate (3 * (length + 1) + 1) 0

/-- The second worker removes a blank from the empty queue, puts it back and exits. -/
theorem blank_put_back (task : Task Role Item) (worker : Worker Role Item) (second : Role)
    (others : List (Worker Role Item)) (someRoom : 0 < task.capacity) :
    TransitionSystem.run (step task) ⟨[], worker :: ⟨second, [], .drainRemove⟩ :: others⟩
        (List.replicate 3 1 ++ List.replicate 4 1) =
      some ⟨[task.transform second task.blank], worker :: ⟨second, [], .exited⟩ :: others⟩ := by
  have taken : TransitionSystem.run (step task)
      ⟨[], worker :: ⟨second, [], .drainRemove⟩ :: others⟩ (List.replicate 3 1) =
      some ⟨[], worker :: ⟨second, [task.transform second task.blank], .refillTest⟩ ::
        others⟩ := by
    simp [step, advance, append, Nat.ne_of_lt someRoom, List.replicate_succ]
  have putBack : TransitionSystem.run (step task)
      ⟨[], (worker :: ⟨second, [], .exited⟩ :: others).set 1
        ⟨second, [task.transform second task.blank], .refillTest⟩⟩ (List.replicate 4 1) =
      some ⟨refill task.capacity [] [task.transform second task.blank],
        (worker :: ⟨second, [], .exited⟩ :: others).set 1 ⟨second, [], .exited⟩⟩ :=
    refill_run (by simp)
  rw [refill_all someRoom] at putBack
  exact TransitionSystem.run_trans taken putBack

/-- The blank ends up before the first worker's items; what does not fit is lost. -/
theorem blank_run (task : Task Role Item) (first second : Role)
    (others : List (Worker Role Item)) (items : List Item) (last : Item)
    (bounded : items.length < task.capacity) :
    TransitionSystem.run (step task)
        ⟨items ++ [last], ⟨first, [], .drainTest⟩ :: ⟨second, [], .drainTest⟩ :: others⟩
        (blankSchedule items.length) =
      some ⟨(task.transform second task.blank ::
          (items ++ [last]).map (task.transform first)).take task.capacity,
        ⟨first, [], .exited⟩ :: ⟨second, [], .exited⟩ :: others⟩ := by
  have room : (items.map (task.transform first)).length ≠ task.capacity := by
    rw [List.length_map]
    omega
  have kept : TransitionSystem.run (step task)
      ⟨[], ⟨first, items.map (task.transform first), .drainAdd (task.transform first last)⟩ ::
        ⟨second, [], .drainRemove⟩ :: others⟩ [0, 0] =
      some ⟨[], ⟨first, (items ++ [last]).map (task.transform first), .refillTest⟩ ::
        ⟨second, [], .drainRemove⟩ :: others⟩ := by
    rw [List.length_map] at room
    simp [step, advance, append, room]
  have refilled : TransitionSystem.run (step task)
      ⟨[task.transform second task.blank],
        (⟨first, (items ++ [last]).map (task.transform first), .refillTest⟩ ::
          ⟨second, [], .exited⟩ :: others).set 0
            ⟨first, (items ++ [last]).map (task.transform first), .refillTest⟩⟩
        (List.replicate (3 * ((items ++ [last]).map (task.transform first)).length + 1) 0) =
      some ⟨refill task.capacity [task.transform second task.blank]
          ((items ++ [last]).map (task.transform first)),
        (⟨first, (items ++ [last]).map (task.transform first), .refillTest⟩ ::
          ⟨second, [], .exited⟩ :: others).set 0 ⟨first, [], .exited⟩⟩ := refill_run (by simp)
  rw [refill_eq_take _ (by simp only [List.length_singleton]; omega)] at refilled
  have handed := TransitionSystem.run_trans kept
    (blank_put_back task ⟨first, (items ++ [last]).map (task.transform first), .refillTest⟩ second
      others (by omega))
  refine TransitionSystem.run_trans
    (TransitionSystem.run_trans
      (race_run task first second others items last (Nat.le_of_lt bounded)) handed) ?_
  simpa using refilled

end DrainRefill
