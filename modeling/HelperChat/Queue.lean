import HelperChat.CyclicWindow
import HelperChat.EncDec
import HelperChat.DrainRefill

/-!
# The helper's ring buffer

The three queue operations of `1_helper.c`, translated with all the fields they read
and write. The entries of a queue are the cyclic window from its head. On well-formed
queues a removal takes the oldest entry and an addition appends within the size, so
the operations refine those of a bounded list.
-/

namespace HelperChat

/-- `removeFromTheQueue`: the byte at the head, or NUL from an empty queue, which is
left as it is. -/
def removeFromTheQueue (queueToDecriment : StructForQueueBoi) : UInt8 × StructForQueueBoi :=
  if queueToDecriment.countOfEntries = 0 then
    (0, queueToDecriment)
  else
    let charDataToReturn := queueToDecriment.values.getD queueToDecriment.head 0
    (charDataToReturn, { queueToDecriment with
      head := (queueToDecriment.head + 1) % queueToDecriment.size
      countOfEntries := queueToDecriment.countOfEntries - 1 })

/-- `setupTheQueue`: an empty queue on freshly allocated memory. `malloc` leaves the
memory's bytes undetermined, so they are an argument. -/
def setupTheQueue (memory : Nat → UInt8) (maximumSizeBoi : Nat) : StructForQueueBoi where
  size := maximumSizeBoi
  values := (List.range maximumSizeBoi).map memory
  countOfEntries := 0
  head := 0
  tail := 0

/-- `addToTheQueue`: false on a full queue, which is left as it is; otherwise the byte
goes to the tail. -/
def addToTheQueue (queueStructureToUse : StructForQueueBoi) (dataToAppend : UInt8) :
    Bool × StructForQueueBoi :=
  if queueStructureToUse.countOfEntries = queueStructureToUse.size then
    (false, queueStructureToUse)
  else
    (true, { queueStructureToUse with
      values := queueStructureToUse.values.set queueStructureToUse.tail dataToAppend
      countOfEntries := queueStructureToUse.countOfEntries + 1
      tail := (queueStructureToUse.tail + 1) % queueStructureToUse.size })

namespace StructForQueueBoi

/-- The stored bytes, oldest first. -/
def entries (queue : StructForQueueBoi) : List UInt8 :=
  CyclicWindow.window queue.values 0 queue.head queue.countOfEntries.toNat

/-- What `setupTheQueue` establishes and the operations keep: the slots exist, the
count is within the size, and the tail is that many slots after the head. -/
structure WellFormed (queue : StructForQueueBoi) : Prop where
  allocated : queue.values.length = queue.size
  positive : 1 ≤ queue.size
  headInside : queue.head < queue.size
  countNonnegative : 0 ≤ queue.countOfEntries
  countBounded : queue.countOfEntries ≤ queue.size
  tailPlaced : queue.tail = (queue.head + queue.countOfEntries.toNat) % queue.size

variable {queue : StructForQueueBoi}

@[simp] theorem entries_length (queue : StructForQueueBoi) :
    queue.entries.length = queue.countOfEntries.toNat := by simp [entries]

/-- The tail of a well-formed queue is one of its slots. -/
theorem WellFormed.tailInside (formed : queue.WellFormed) : queue.tail < queue.size := by
  rw [formed.tailPlaced]
  exact Nat.mod_lt _ formed.positive

/-- A well-formed queue holds at most as many entries as it has slots. -/
theorem WellFormed.entries_le (formed : queue.WellFormed) : queue.entries.length ≤ queue.size := by
  have bounded := formed.countBounded
  rw [entries_length]
  omega

/-- The emptiness test of the code is the emptiness of the entries. -/
theorem WellFormed.empty_iff (formed : queue.WellFormed) :
    queue.countOfEntries = 0 ↔ queue.entries = [] := by
  have nonnegative := formed.countNonnegative
  rw [← List.length_eq_zero_iff, entries_length]
  omega

/-- The fullness test of the code compares the number of entries with the size. -/
theorem WellFormed.full_iff (formed : queue.WellFormed) :
    queue.countOfEntries = queue.size ↔ queue.entries.length = queue.size := by
  have nonnegative := formed.countNonnegative
  rw [entries_length]
  omega

/-- A queue after its setup is well formed. -/
theorem setup_well_formed (memory : Nat → UInt8) {maximumSizeBoi : Nat}
    (positive : 1 ≤ maximumSizeBoi) : (setupTheQueue memory maximumSizeBoi).WellFormed where
  allocated := by simp [setupTheQueue]
  positive := positive
  headInside := positive
  countNonnegative := Int.le_refl 0
  countBounded := by simp [setupTheQueue]
  tailPlaced := by simp [setupTheQueue]

/-- A queue after its setup is empty. -/
@[simp] theorem entries_setup (memory : Nat → UInt8) (maximumSizeBoi : Nat) :
    (setupTheQueue memory maximumSizeBoi).entries = [] := rfl

@[simp] theorem size_setup (memory : Nat → UInt8) (maximumSizeBoi : Nat) :
    (setupTheQueue memory maximumSizeBoi).size = maximumSizeBoi := rfl

@[simp] theorem size_remove (queue : StructForQueueBoi) :
    (removeFromTheQueue queue).2.size = queue.size := by
  unfold removeFromTheQueue
  split <;> rfl

@[simp] theorem size_add (queue : StructForQueueBoi) (dataToAppend : UInt8) :
    (addToTheQueue queue dataToAppend).2.size = queue.size := by
  unfold addToTheQueue
  split <;> rfl

/-- A removal keeps the queue well formed, also when it finds the queue empty. -/
theorem WellFormed.remove (formed : queue.WellFormed) :
    (removeFromTheQueue queue).2.WellFormed := by
  unfold removeFromTheQueue
  split
  case isTrue => exact formed
  case isFalse nonempty =>
    have nonnegative := formed.countNonnegative
    have bounded := formed.countBounded
    have positive := formed.positive
    refine ⟨formed.allocated, positive, Nat.mod_lt _ positive, ?_, ?_, ?_⟩
    · change 0 ≤ queue.countOfEntries - 1
      omega
    · change queue.countOfEntries - 1 ≤ queue.size
      omega
    · change queue.tail =
        ((queue.head + 1) % queue.size + (queue.countOfEntries - 1).toNat) % queue.size
      have shifted : queue.head + 1 + (queue.countOfEntries - 1).toNat =
          queue.head + queue.countOfEntries.toNat := by omega
      rw [Nat.mod_add_mod, shifted]
      exact formed.tailPlaced

/-- A removal delivers the oldest entry, NUL when there is none, and leaves the rest. -/
theorem WellFormed.remove_entries (formed : queue.WellFormed) :
    (removeFromTheQueue queue).1 = queue.entries.headD 0 ∧
      (removeFromTheQueue queue).2.entries = queue.entries.tail := by
  unfold removeFromTheQueue
  split
  case isTrue empty =>
    have none : queue.entries = [] := formed.empty_iff.mp empty
    simp [none]
  case isFalse nonempty =>
    have nonnegative := formed.countNonnegative
    have count : queue.countOfEntries.toNat = (queue.countOfEntries - 1).toNat + 1 := by omega
    have walked : queue.entries =
        queue.values.getD queue.head 0 ::
          CyclicWindow.window queue.values 0 ((queue.head + 1) % queue.size)
            (queue.countOfEntries - 1).toNat := by
      rw [entries, count, CyclicWindow.window_succ, formed.allocated,
        Nat.mod_eq_of_lt formed.headInside]
    rw [walked]
    exact ⟨rfl, rfl⟩

/-- An addition keeps the queue well formed, also when it finds the queue full. -/
theorem WellFormed.add (formed : queue.WellFormed) (dataToAppend : UInt8) :
    (addToTheQueue queue dataToAppend).2.WellFormed := by
  unfold addToTheQueue
  split
  case isTrue => exact formed
  case isFalse room =>
    have nonnegative := formed.countNonnegative
    have bounded := formed.countBounded
    refine ⟨?_, formed.positive, formed.headInside, ?_, ?_, ?_⟩
    · simpa using formed.allocated
    · change 0 ≤ queue.countOfEntries + 1
      omega
    · change queue.countOfEntries + 1 ≤ queue.size
      omega
    · change (queue.tail + 1) % queue.size =
        (queue.head + (queue.countOfEntries + 1).toNat) % queue.size
      have count : (queue.countOfEntries + 1).toNat = queue.countOfEntries.toNat + 1 := by omega
      rw [formed.tailPlaced, Nat.mod_add_mod, count, Nat.add_assoc]

/-- An addition succeeds unless the queue is full, and appends to the entries. -/
theorem WellFormed.add_entries (formed : queue.WellFormed) (dataToAppend : UInt8) :
    (addToTheQueue queue dataToAppend).1 = decide (queue.entries.length ≠ queue.size) ∧
      (addToTheQueue queue dataToAppend).2.entries =
        DrainRefill.append queue.size queue.entries dataToAppend := by
  have full := formed.full_iff
  unfold addToTheQueue DrainRefill.append
  split
  case isTrue atSize =>
    have same := full.mp atSize
    simp [same]
  case isFalse room =>
    have short : queue.entries.length ≠ queue.size := fun same => room (full.mpr same)
    have nonnegative := formed.countNonnegative
    have bounded := formed.entries_le
    rw [entries_length] at short bounded
    have count : (queue.countOfEntries + 1).toNat = queue.countOfEntries.toNat + 1 := by omega
    have free : queue.countOfEntries.toNat < queue.values.length := by
      rw [formed.allocated]
      omega
    refine ⟨by simp [short], ?_⟩
    rw [if_neg (by simpa using short)]
    change CyclicWindow.window (queue.values.set queue.tail dataToAppend) 0 queue.head
      (queue.countOfEntries + 1).toNat = queue.entries ++ [dataToAppend]
    rw [count, formed.tailPlaced, ← formed.allocated]
    exact CyclicWindow.window_write queue.values 0 dataToAppend queue.head _ free

end StructForQueueBoi

/-- A queue together with its well-formedness. -/
structure RingQueue where
  raw : StructForQueueBoi
  wellFormed : raw.WellFormed

/-- The entries of a well-formed queue. -/
def RingQueue.entries (queue : RingQueue) : List UInt8 := queue.raw.entries

end HelperChat
