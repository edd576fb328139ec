import HelperChat.Simulation
import Mathlib.Data.Finset.Image
import Mathlib.Data.Finset.Range

/-!
# A ledger of heap blocks

A program's calls of `malloc` and `free` and its accesses to the blocks, as a transition
system on the set of the live blocks. A step is missing for an access or a `free` of a block
that is not live, so a log that runs has no use after `free` and no double `free`, and the
set it ends in is what has not been freed.

A block is named by what it is for. A name may be used again after its block was freed.
-/

namespace HeapLedger

universe u
variable {Block : Type u} [DecidableEq Block]

/-- A `malloc`, an access to a block or a `free`. -/
inductive Entry (Block : Type u) where
  | allocate (block : Block)
  | access (block : Block)
  | release (block : Block)
deriving DecidableEq

/-- What an entry does to the live blocks. -/
def step (live : Finset Block) : Entry Block → Option (Finset Block)
  | .allocate block => if block ∈ live then none else some (insert block live)
  | .access block => if block ∈ live then some live else none
  | .release block => if block ∈ live then some (live.erase block) else none

/-- The live blocks when so many of the named ones have been allocated. -/
def allocated (live : Finset Block) (name : Nat → Block) (count : Nat) : Finset Block :=
  live ∪ (Finset.range count).image name

/-- The live blocks when so many of the named ones have been freed. -/
def released (live : Finset Block) (name : Nat → Block) (count : Nat) : Finset Block :=
  live \ (Finset.range count).image name

variable {live : Finset Block} {name : Nat → Block}

@[simp] theorem allocated_zero (live : Finset Block) (name : Nat → Block) :
    allocated live name 0 = live := by
  simp [allocated]

@[simp] theorem released_zero : released live name 0 = live := by
  simp [released]

/-- An access to a live block. -/
theorem step_access {block : Block} (isLive : block ∈ live) :
    step live (.access block) = some live :=
  if_pos isLive

/-- Accesses to live blocks change nothing. -/
theorem run_accesses {entries : List (Entry Block)}
    (accesses : ∀ entry ∈ entries, ∃ block ∈ live, entry = .access block) :
    TransitionSystem.run step live entries = some live := by
  apply TransitionSystem.run_stays
  intro entry member
  obtain ⟨block, isLive, rfl⟩ := accesses entry member
  exact step_access isLive

/-- The next block is allocated if its name is neither live nor taken by an earlier one. -/
theorem step_allocate (distinct : Function.Injective name) {count : Nat}
    (fresh : name count ∉ live) :
    step (allocated live name count) (.allocate (name count)) =
      some (allocated live name (count + 1)) := by
  have missing : name count ∉ allocated live name count := by
    simp [allocated, fresh, distinct.eq_iff]
  rw [step, if_neg missing, allocated, allocated, Finset.range_add_one, Finset.image_insert,
    Finset.union_insert]

/-- The next block is freed if it was live and no earlier one had its name. -/
theorem step_release (distinct : Function.Injective name) {count : Nat}
    (isLive : name count ∈ live) :
    step (released live name count) (.release (name count)) =
      some (released live name (count + 1)) := by
  have present : name count ∈ released live name count := by
    simp [released, isLive, distinct.eq_iff]
  have remaining : (released live name count).erase (name count) =
      released live name (count + 1) := by
    rw [released, released, Finset.range_add_one, Finset.image_insert, Finset.erase_eq,
      sdiff_sdiff_left, Finset.insert_eq, Finset.union_comm]
    rfl
  rw [step, if_pos present, remaining]

end HeapLedger
