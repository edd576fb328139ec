import HelperChat.MemberUpdate
import HelperChat.Transition

/-!
# Workers that drain a bounded queue and refill it

Each worker empties a shared bounded queue into a list of its own, transforming every
item on the way, and then puts its items back. Nothing orders the workers: a step is
one emptiness test, one removal or one append of one of them. A removal from an empty
list delivers a blank, and an append to a full list has no effect.

The queues are plain lists here, oldest item first. What a worker carries in hand
between a removal and the following append is part of its phase.
-/

namespace DrainRefill

universe u v
variable {Item : Type u} {Role : Type v}

/-- Where a worker stands: which test, removal or append comes next. An append is
reached with the item in hand. -/
inductive Phase (Item : Type u) where
  | drainTest
  | drainRemove
  | drainAdd (item : Item)
  | refillTest
  | refillRemove
  | refillAdd (item : Item)
  | exited
deriving DecidableEq

/-- A worker with its role, the items of its own list and its phase. -/
structure Worker (Role : Type v) (Item : Type u) where
  role : Role
  held : List Item
  phase : Phase Item
deriving DecidableEq

/-- The shared queue and all workers on it. -/
structure Pool (Role : Type v) (Item : Type u) where
  shared : List Item
  workers : List (Worker Role Item)
deriving DecidableEq

/-- The capacity of every queue, what a removal from an empty one delivers, and what
each role does to an item. -/
structure Task (Role : Type v) (Item : Type u) where
  capacity : Nat
  blank : Item
  transform : Role → Item → Item

/-- Append within a capacity; a full list is left unchanged. -/
def append (capacity : Nat) (entries : List Item) (item : Item) : List Item :=
  if entries.length = capacity then entries else entries ++ [item]

/-- One atomic step of a worker: the shared queue and the worker after it. An exited
worker has no step. -/
def advance (task : Task Role Item) (shared : List Item) (worker : Worker Role Item) :
    Option (List Item × Worker Role Item) :=
  match worker.phase with
  | .drainTest =>
      some (shared, { worker with phase := if shared.isEmpty then .refillTest else .drainRemove })
  | .drainRemove =>
      some (shared.tail,
        { worker with phase := .drainAdd (task.transform worker.role (shared.headD task.blank)) })
  | .drainAdd item =>
      some (shared, { worker with
        held := append task.capacity worker.held item, phase := .drainTest })
  | .refillTest =>
      some (shared, { worker with phase := if worker.held.isEmpty then .exited else .refillRemove })
  | .refillRemove =>
      some (shared, { worker with
        held := worker.held.tail, phase := .refillAdd (worker.held.headD task.blank) })
  | .refillAdd item =>
      some (append task.capacity shared item, { worker with phase := .refillTest })
  | .exited => none

/-- The worker at a position takes its next step. -/
def step (task : Task Role Item) (pool : Pool Role Item) (index : Nat) :
    Option (Pool Role Item) := do
  let worker ← pool.workers[index]?
  let (shared, moved) ← advance task pool.shared worker
  pure ⟨shared, pool.workers.set index moved⟩

/-- The steps of a worker, one constructor for each way a test, a removal or an append
can go. -/
inductive Move (task : Task Role Item) :
    List Item → Worker Role Item → List Item → Worker Role Item → Prop
  | enterDrain (role : Role) (held : List Item) (item : Item) (rest : List Item) :
      Move task (item :: rest) ⟨role, held, .drainTest⟩ (item :: rest) ⟨role, held, .drainRemove⟩
  | leaveDrain (role : Role) (held : List Item) :
      Move task [] ⟨role, held, .drainTest⟩ [] ⟨role, held, .refillTest⟩
  | take (role : Role) (held : List Item) (item : Item) (rest : List Item) :
      Move task (item :: rest) ⟨role, held, .drainRemove⟩
        rest ⟨role, held, .drainAdd (task.transform role item)⟩
  | takeBlank (role : Role) (held : List Item) :
      Move task [] ⟨role, held, .drainRemove⟩
        [] ⟨role, held, .drainAdd (task.transform role task.blank)⟩
  | keep (role : Role) (held : List Item) (item : Item) (shared : List Item)
      (room : held.length ≠ task.capacity) :
      Move task shared ⟨role, held, .drainAdd item⟩ shared ⟨role, held ++ [item], .drainTest⟩
  | keepFull (role : Role) (held : List Item) (item : Item) (shared : List Item)
      (full : held.length = task.capacity) :
      Move task shared ⟨role, held, .drainAdd item⟩ shared ⟨role, held, .drainTest⟩
  | enterRefill (role : Role) (item : Item) (rest : List Item) (shared : List Item) :
      Move task shared ⟨role, item :: rest, .refillTest⟩ shared ⟨role, item :: rest, .refillRemove⟩
  | exit (role : Role) (shared : List Item) :
      Move task shared ⟨role, [], .refillTest⟩ shared ⟨role, [], .exited⟩
  | release (role : Role) (item : Item) (rest : List Item) (shared : List Item) :
      Move task shared ⟨role, item :: rest, .refillRemove⟩ shared ⟨role, rest, .refillAdd item⟩
  | releaseBlank (role : Role) (shared : List Item) :
      Move task shared ⟨role, [], .refillRemove⟩ shared ⟨role, [], .refillAdd task.blank⟩
  | putBack (role : Role) (held : List Item) (item : Item) (shared : List Item)
      (room : shared.length ≠ task.capacity) :
      Move task shared ⟨role, held, .refillAdd item⟩ (shared ++ [item]) ⟨role, held, .refillTest⟩
  | putBackFull (role : Role) (held : List Item) (item : Item) (shared : List Item)
      (full : shared.length = task.capacity) :
      Move task shared ⟨role, held, .refillAdd item⟩ shared ⟨role, held, .refillTest⟩

variable {task : Task Role Item}

/-- Every computed step is one of the moves. -/
theorem advance_move {shared after : List Item} {worker moved : Worker Role Item}
    (advanced : advance task shared worker = some (after, moved)) :
    Move task shared worker after moved := by
  obtain ⟨role, held, phase⟩ := worker
  cases phase with
  | drainTest =>
    cases shared with
    | nil =>
      obtain ⟨rfl, rfl⟩ : [] = after ∧ _ = moved := by simpa [advance] using advanced
      exact .leaveDrain role held
    | cons item rest =>
      obtain ⟨rfl, rfl⟩ : item :: rest = after ∧ _ = moved := by simpa [advance] using advanced
      exact .enterDrain role held item rest
  | drainRemove =>
    cases shared with
    | nil =>
      obtain ⟨rfl, rfl⟩ : [] = after ∧ _ = moved := by simpa [advance] using advanced
      exact .takeBlank role held
    | cons item rest =>
      obtain ⟨rfl, rfl⟩ : rest = after ∧ _ = moved := by simpa [advance] using advanced
      exact .take role held item rest
  | drainAdd item =>
    obtain ⟨rfl, rfl⟩ : shared = after ∧ _ = moved := by simpa [advance] using advanced
    by_cases full : held.length = task.capacity
    · simpa [append, full] using Move.keepFull role held item shared full
    · simpa [append, full] using Move.keep role held item shared full
  | refillTest =>
    cases held with
    | nil =>
      obtain ⟨rfl, rfl⟩ : shared = after ∧ _ = moved := by simpa [advance] using advanced
      exact .exit role shared
    | cons item rest =>
      obtain ⟨rfl, rfl⟩ : shared = after ∧ _ = moved := by simpa [advance] using advanced
      exact .enterRefill role item rest shared
  | refillRemove =>
    cases held with
    | nil =>
      obtain ⟨rfl, rfl⟩ : shared = after ∧ _ = moved := by simpa [advance] using advanced
      exact .releaseBlank role shared
    | cons item rest =>
      obtain ⟨rfl, rfl⟩ : shared = after ∧ _ = moved := by simpa [advance] using advanced
      exact .release role item rest shared
  | refillAdd item =>
    obtain ⟨rfl, rfl⟩ : append task.capacity shared item = after ∧ _ = moved := by
      simpa [advance] using advanced
    by_cases full : shared.length = task.capacity
    · simpa [append, full] using Move.putBackFull role held item shared full
    · simpa [append, full] using Move.putBack role held item shared full
  | exited => simp [advance] at advanced

/-- A step of the pool is a move of one worker and changes nothing else. -/
theorem step_move {pool next : Pool Role Item} {index : Nat}
    (stepped : step task pool index = some next) :
    ∃ worker moved, pool.workers[index]? = some worker ∧
      Move task pool.shared worker next.shared moved ∧
      next.workers = pool.workers.set index moved := by
  obtain ⟨worker, present, rest⟩ := Option.bind_eq_some_iff.mp stepped
  obtain ⟨⟨shared, moved⟩, advanced, built⟩ := Option.bind_eq_some_iff.mp rest
  obtain rfl : (⟨shared, pool.workers.set index moved⟩ : Pool Role Item) = next :=
    Option.some.inj built
  exact ⟨worker, moved, present, advance_move advanced, rfl⟩

/-- The step of a present worker, computed from its own move. -/
theorem step_of_advance {pool : Pool Role Item} {index : Nat} {worker moved : Worker Role Item}
    {after : List Item} (present : pool.workers[index]? = some worker)
    (advanced : advance task pool.shared worker = some (after, moved)) :
    step task pool index = some ⟨after, pool.workers.set index moved⟩ := by
  simp [step, present, advanced]

end DrainRefill
