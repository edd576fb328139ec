import HelperChat.CallSequence
import HelperChat.Queue

/-!
# The ring buffer as a bounded FIFO

The specification of the queue: a list that holds at most a number of items, to which
items are added at the end and from which they are removed at the front. The ring buffer
gives the same results and holds the same entries after any sequence of calls, with its
positions inside the array.
-/

namespace BoundedFifo

universe u
variable {Item : Type u}

/-- A call of one of the two operations. -/
inductive Call (Item : Type u) where
  | add (item : Item)
  | remove
deriving DecidableEq

/-- What a call returns: whether the item was added, or the removed item. -/
inductive Result (Item : Type u) where
  | added (success : Bool)
  | removed (item : Item)
deriving DecidableEq

/-- A call on a list with a capacity. A removal from the empty list returns a blank. -/
def operation (capacity : Nat) (blank : Item) : Call Item → List Item → Result Item × List Item
  | .add item, entries =>
      if entries.length = capacity then (.added false, entries)
      else (.added true, entries ++ [item])
  | .remove, [] => (.removed blank, [])
  | .remove, first :: rest => (.removed first, rest)

end BoundedFifo

namespace HelperChat

open BoundedFifo (Call Result)
open CallSequence (perform after)

/-- A call of `addToTheQueue` or `removeFromTheQueue`. -/
def queueOperation : Call UInt8 → StructForQueueBoi → Result UInt8 × StructForQueueBoi
  | .add dataToAppend, queue =>
      let (success, next) := addToTheQueue queue dataToAppend
      (.added success, next)
  | .remove, queue =>
      let (charDataToReturn, next) := removeFromTheQueue queue
      (.removed charDataToReturn, next)

/-- A well-formed queue of a size that holds the entries of a list. -/
structure Represents (size : Nat) (queue : StructForQueueBoi) (entries : List UInt8) : Prop where
  formed : queue.WellFormed
  size : queue.size = size
  entries : queue.entries = entries

/-- Each call on the queue is the call on the list. -/
theorem Represents.operation {size : Nat} {queue : StructForQueueBoi} {entries : List UInt8}
    (represents : Represents size queue entries) (call : Call UInt8) :
    (queueOperation call queue).1 = (BoundedFifo.operation size 0 call entries).1 ∧
      Represents size (queueOperation call queue).2
        (BoundedFifo.operation size 0 call entries).2 := by
  obtain ⟨formed, rfl, rfl⟩ := represents
  cases call with
  | add dataToAppend =>
    obtain ⟨success, added⟩ := formed.add_entries dataToAppend
    have kept := StructForQueueBoi.size_add queue dataToAppend
    by_cases full : queue.entries.length = queue.size
    · rw [DrainRefill.append, if_pos full] at added
      simp only [queueOperation, BoundedFifo.operation, if_pos full]
      have refused : (addToTheQueue queue dataToAppend).1 = false :=
        success.trans (decide_eq_false (not_not_intro full))
      exact ⟨congrArg Result.added refused, formed.add dataToAppend, kept, added⟩
    · rw [DrainRefill.append, if_neg full] at added
      simp only [queueOperation, BoundedFifo.operation, if_neg full]
      have accepted : (addToTheQueue queue dataToAppend).1 = true :=
        success.trans (decide_eq_true full)
      exact ⟨congrArg Result.added accepted, formed.add dataToAppend, kept, added⟩
  | remove =>
    obtain ⟨delivered, rest⟩ := formed.remove_entries
    have kept := StructForQueueBoi.size_remove queue
    cases held : queue.entries with
    | nil =>
      rw [held] at delivered rest
      exact ⟨congrArg Result.removed delivered, formed.remove, kept, rest⟩
    | cons first others =>
      rw [held] at delivered rest
      exact ⟨congrArg Result.removed delivered, formed.remove, kept, rest⟩

/-- The positions of a well-formed queue are slots of its array, and the tail is that many
slots behind the head as there are entries. -/
def PositionsInside (size : Nat) (queue : StructForQueueBoi) : Prop :=
  queue.size = size ∧ queue.values.length = size ∧ queue.head < size ∧ queue.tail < size ∧
    0 ≤ queue.countOfEntries ∧ queue.countOfEntries ≤ size ∧
    (queue.tail : Int) = (queue.head + queue.countOfEntries) % size

/-- The positions of a queue that represents a list are inside. -/
theorem Represents.positions {size : Nat} {queue : StructForQueueBoi} {entries : List UInt8}
    (represents : Represents size queue entries) : PositionsInside size queue := by
  obtain ⟨formed, rfl, rfl⟩ := represents
  refine ⟨rfl, formed.allocated, formed.headInside, formed.tailInside, formed.countNonnegative,
    formed.countBounded, ?_⟩
  have count : (queue.countOfEntries.toNat : Int) = queue.countOfEntries :=
    Int.toNat_of_nonneg formed.countNonnegative
  rw [formed.tailPlaced, Int.natCast_mod, Int.natCast_add, count]

/-- A call that the specification refuses leaves the queue as it is. -/
theorem Represents.refused {size : Nat} {queue : StructForQueueBoi} {entries : List UInt8}
    (represents : Represents size queue entries) :
    (entries.length = size → ∀ dataToAppend, addToTheQueue queue dataToAppend = (false, queue)) ∧
      (entries = [] → removeFromTheQueue queue = (0, queue)) := by
  obtain ⟨formed, rfl, rfl⟩ := represents
  constructor
  · intro full dataToAppend
    rw [addToTheQueue, if_pos (formed.full_iff.mpr full)]
  · intro empty
    rw [removeFromTheQueue, if_pos (formed.empty_iff.mpr empty)]

/-- After any sequence of calls on a new queue the results and the entries are those of a
list of its capacity, the positions are inside the array, and a call on a full or an empty
queue changes nothing. -/
theorem queue_is_bounded_fifo (memory : Nat → UInt8) (maximumSizeBoi : Nat)
    (positive : 1 ≤ maximumSizeBoi) (calls : List (Call UInt8)) :
    let queue := after queueOperation calls (setupTheQueue memory maximumSizeBoi)
    let entries := after (BoundedFifo.operation maximumSizeBoi 0) calls []
    (perform queueOperation calls (setupTheQueue memory maximumSizeBoi)).1 =
        (perform (BoundedFifo.operation maximumSizeBoi 0) calls []).1 ∧
      queue.entries = entries ∧ PositionsInside maximumSizeBoi queue ∧
      (entries.length = maximumSizeBoi →
        ∀ dataToAppend, addToTheQueue queue dataToAppend = (false, queue)) ∧
      (entries = [] → removeFromTheQueue queue = (0, queue)) := by
  have initially : Represents maximumSizeBoi (setupTheQueue memory maximumSizeBoi) [] :=
    ⟨StructForQueueBoi.setup_well_formed memory positive, rfl, rfl⟩
  have refines : ∀ call queue entries, Represents maximumSizeBoi queue entries →
      (queueOperation call queue).1 = (BoundedFifo.operation maximumSizeBoi 0 call entries).1 ∧
        Represents maximumSizeBoi (queueOperation call queue).2
          (BoundedFifo.operation maximumSizeBoi 0 call entries).2 := by
    intro call queue entries represents
    exact represents.operation call
  obtain ⟨results, represents⟩ := CallSequence.perform_refines refines calls initially
  obtain ⟨full, empty⟩ := represents.refused
  exact ⟨results, represents.entries, represents.positions, full, empty⟩

/-- A queue of two places: a third byte is refused, and the places are used again. -/
theorem two_places_reused :
    let calls := [Call.add 'a'.toUInt8, .add 'b'.toUInt8, .add 'c'.toUInt8, .remove,
      .add 'd'.toUInt8, .remove]
    (perform queueOperation calls (setupTheQueue (fun _ => 0) 2)).1 =
        [.added true, .added true, .added false, .removed 'a'.toUInt8, .added true,
          .removed 'b'.toUInt8] ∧
      PositionsInside 2 (after queueOperation calls (setupTheQueue (fun _ => 0) 2)) := by
  intro calls
  have fifo := queue_is_bounded_fifo (fun _ => 0) 2 (by decide) calls
  exact ⟨fifo.1.trans (by decide), fifo.2.2.1⟩

end HelperChat
