import HelperChat.CountedLoop
import HelperChat.DecoderOrder

/-!
# The helper's communication loop

One round of the loop in `main` of `1_helper.c`, from the received chunk to the sent
reply: the number of queues, the fill loop that leaves out the last byte and pads with
spaces, the drain loop into the global buffer, the newline and the terminator. The
threads, which stand between the two loops, are not part of this module: the laws of the
second half are about queues that hold any rows of bytes.

Every array access is logged with the bound it has to respect. A write outside of the
modelled buffer changes nothing in the model; that it happens is seen in the log.
-/

namespace HelperChat

open CountedLoop (iterate writeAll)

/-- An access to one of the helper's arrays, with the index and the number of elements. -/
inductive Access where
  /-- a read of `datastreamFromMainServer`, of which `received` bytes were received -/
  | datastream (index received : Nat)
  /-- a read or write of a queue's `values` -/
  | values (index size : Nat)
  /-- a use of `queues[index]` -/
  | queues (index numberOfQueues : Nat)
  /-- a write to `uppercasedBuffer` -/
  | uppercased (index : Nat)
deriving DecidableEq

/-- The accessed element exists. -/
def Access.InBounds : Access → Prop
  | .datastream index received => index < received
  | .values index size => index < size
  | .queues index numberOfQueues => index < numberOfQueues
  | .uppercased index => index < bufferSize

instance : DecidablePred Access.InBounds := fun access => by
  cases access <;> exact inferInstanceAs (Decidable (_ < _))

/-- The `values` accesses of `removeFromTheQueue`. -/
def removeAccesses (queue : StructForQueueBoi) : List Access :=
  if queue.countOfEntries = 0 then [] else [.values queue.head queue.size]

/-- The `values` accesses of `addToTheQueue`. -/
def addAccesses (queue : StructForQueueBoi) : List Access :=
  if queue.countOfEntries = queue.size then [] else [.values queue.tail queue.size]

/-- `sizeOfQueue` in `main`. -/
def sizeOfQueue : Nat := 5

/-- `(int)ceil((double)dataBytesIncoming / sizeOfQueue)`. A quotient that is not whole is
at least a fifth away from the next whole number, so the division in `double` does not
change its ceiling. -/
def numberOfQueues (dataBytesIncoming : Nat) : Nat :=
  (dataBytesIncoming + sizeOfQueue - 1) / sizeOfQueue

/-- The variables of a round: the array of queues, the index into the received data,
the drain loop's counter, the global buffer, and the log of accesses. -/
structure HelperState where
  queues : List StructForQueueBoi
  indexfortheinputdata : Nat
  counter : Nat
  uppercasedBuffer : List UInt8
  accesses : List Access

/-- `queues[i]`. -/
def HelperState.queue (state : HelperState) (i : Nat) : StructForQueueBoi :=
  state.queues.getD i (setupTheQueue (fun _ => 0) sizeOfQueue)

/-- The setup loop: every queue is set up on its freshly allocated memory. The global
buffer keeps what an earlier round left in it. -/
def setupQueues (memory : Nat → Nat → UInt8) (dataBytesIncoming : Nat) (state : HelperState) :
    HelperState :=
  { state with
    queues := (List.range (numberOfQueues dataBytesIncoming)).map fun i =>
      setupTheQueue (memory i) sizeOfQueue
    indexfortheinputdata := 0
    accesses := state.accesses ++ (List.range (numberOfQueues dataBytesIncoming)).map fun i =>
      .queues i (numberOfQueues dataBytesIncoming) }

/-- The body of the fill loop for queue `i`: the next byte of all but the last one, or a
space. -/
def fillStep (datastreamFromMainServer : List UInt8) (i : Nat) (state : HelperState) :
    HelperState :=
  let dataBytesIncoming := datastreamFromMainServer.length
  let index := state.indexfortheinputdata
  if index < dataBytesIncoming - 1 then
    { state with
      queues := state.queues.set i
        (addToTheQueue (state.queue i) (datastreamFromMainServer.getD index 0)).2
      indexfortheinputdata := index + 1
      accesses := state.accesses ++ .datastream index dataBytesIncoming ::
        .queues i (numberOfQueues dataBytesIncoming) :: addAccesses (state.queue i) }
  else
    { state with
      queues := state.queues.set i (addToTheQueue (state.queue i) ' '.toUInt8).2
      accesses := state.accesses ++
        .queues i (numberOfQueues dataBytesIncoming) :: addAccesses (state.queue i) }

/-- The fill loop. -/
def fillQueues (datastreamFromMainServer : List UInt8) : HelperState → HelperState :=
  iterate (fun i => iterate (fun _ => fillStep datastreamFromMainServer i) sizeOfQueue)
    (numberOfQueues datastreamFromMainServer.length)

/-- The body of the drain loop for queue `i`. -/
def drainStep (dataBytesIncoming i : Nat) (state : HelperState) : HelperState :=
  let (storeDequeuedData, queue) := removeFromTheQueue (state.queue i)
  { state with
    queues := state.queues.set i queue
    uppercasedBuffer := state.uppercasedBuffer.set state.counter storeDequeuedData
    counter := state.counter + 1
    accesses := state.accesses ++ .queues i (numberOfQueues dataBytesIncoming) ::
      removeAccesses (state.queue i) ++ [.uppercased state.counter] }

/-- The drain loop. -/
def drainQueues (dataBytesIncoming : Nat) (state : HelperState) : HelperState :=
  iterate (fun i => iterate (fun _ => drainStep dataBytesIncoming i) sizeOfQueue)
    (numberOfQueues dataBytesIncoming) { state with counter := 0 }

/-- The newline at the end of the padding and the NUL behind it. -/
def terminateBuffer (state : HelperState) : HelperState :=
  { state with
    uppercasedBuffer := (state.uppercasedBuffer.set (state.counter - 1) '\n'.toUInt8).set
      state.counter 0
    accesses := state.accesses ++ [.uppercased (state.counter - 1), .uppercased state.counter] }

/-- The loop that frees the queues' memory. -/
def freeQueues (dataBytesIncoming : Nat) (state : HelperState) : HelperState :=
  { state with
    accesses := state.accesses ++ (List.range (numberOfQueues dataBytesIncoming)).map fun i =>
      .queues i (numberOfQueues dataBytesIncoming) }

/-- `serverEncoder`: as many bytes of the buffer as were received are sent back. -/
def serverEncoder (uppercasedBuffer : List UInt8) (dataBytesIncoming : Nat) : List UInt8 :=
  uppercasedBuffer.take dataBytesIncoming

/-- The part of a round before the threads: the queues are set up and filled. -/
def enqueueChunk (memory : Nat → Nat → UInt8) (datastreamFromMainServer : List UInt8)
    (state : HelperState) : HelperState :=
  fillQueues datastreamFromMainServer (setupQueues memory datastreamFromMainServer.length state)

/-- The part of a round after the threads, up to the reply and the freed queues. -/
def dequeueChunk (dataBytesIncoming : Nat) (state : HelperState) : HelperState :=
  freeQueues dataBytesIncoming (terminateBuffer (drainQueues dataBytesIncoming state))

/-- All of the accesses stay inside the arrays. -/
def WithinBounds (accesses : List Access) : Prop := ∀ access ∈ accesses, access.InBounds

instance (accesses : List Access) : Decidable (WithinBounds accesses) :=
  inferInstanceAs (Decidable (∀ access ∈ accesses, access.InBounds))

@[simp] theorem within_bounds_append (first second : List Access) :
    WithinBounds (first ++ second) ↔ WithinBounds first ∧ WithinBounds second := by
  simp [WithinBounds, or_imp, forall_and]

@[simp] theorem within_bounds_cons (access : Access) (rest : List Access) :
    WithinBounds (access :: rest) ↔ access.InBounds ∧ WithinBounds rest := by
  simp [WithinBounds]

@[simp] theorem within_bounds_nil : WithinBounds [] := by simp [WithinBounds]

/-- A loop over all queues uses existing queues. -/
theorem queue_loop_within_bounds (count : Nat) :
    WithinBounds ((List.range count).map fun i => .queues i count) := by
  simp [WithinBounds, Access.InBounds]

/-- The accesses of an addition to a well-formed queue stay in its slots. -/
theorem add_within_bounds {queue : StructForQueueBoi} (formed : queue.WellFormed) :
    WithinBounds (addAccesses queue) := by
  unfold addAccesses
  split
  · simp
  · simpa [Access.InBounds] using formed.tailInside

/-- The accesses of a removal from a well-formed queue stay in its slots. -/
theorem remove_within_bounds {queue : StructForQueueBoi} (formed : queue.WellFormed) :
    WithinBounds (removeAccesses queue) := by
  unfold removeAccesses
  split
  · simp
  · simpa [Access.InBounds] using formed.headInside

/-- A step that replaces one queue leaves the others alone. -/
theorem queue_replaced {state next : HelperState} {i : Nat} {queue : StructForQueueBoi}
    (replaced : next.queues = state.queues.set i queue) (inside : i < state.queues.length)
    (k : Nat) : next.queue k = if k = i then queue else state.queue k := by
  unfold HelperState.queue
  rw [replaced, List.getD_eq_getElem?_getD, List.getElem?_set]
  by_cases same : i = k
  · simp [same, same ▸ inside]
  · simp [same, Ne.symm same]

/-- A queue is well formed, of the fixed size, and holds the given bytes. -/
structure Holds (queue : StructForQueueBoi) (bytes : List UInt8) : Prop where
  formed : queue.WellFormed
  size : queue.size = sizeOfQueue
  entries : queue.entries = bytes

/-- A queue after its setup holds nothing. -/
theorem holds_setup (memory : Nat → UInt8) : Holds (setupTheQueue memory sizeOfQueue) [] :=
  ⟨StructForQueueBoi.setup_well_formed memory (by decide), rfl, rfl⟩

/-- A queue with room holds an added byte behind the others. -/
theorem Holds.add {queue : StructForQueueBoi} {bytes : List UInt8} (holds : Holds queue bytes)
    (room : bytes.length < sizeOfQueue) (byte : UInt8) :
    Holds (addToTheQueue queue byte).2 (bytes ++ [byte]) := by
  have short : queue.entries.length ≠ queue.size := by
    rw [holds.entries, holds.size]
    exact Nat.ne_of_lt room
  refine ⟨holds.formed.add byte, (StructForQueueBoi.size_add queue byte).trans holds.size, ?_⟩
  rw [(holds.formed.add_entries byte).2, DrainRefill.append, if_neg short, holds.entries]

/-- A removal delivers the first byte, or NUL, and leaves the others. -/
theorem Holds.remove {queue : StructForQueueBoi} {bytes : List UInt8}
    (holds : Holds queue bytes) :
    (removeFromTheQueue queue).1 = bytes.headD 0 ∧
      Holds (removeFromTheQueue queue).2 bytes.tail := by
  obtain ⟨delivered, rest⟩ := holds.formed.remove_entries
  rw [holds.entries] at delivered rest
  exact ⟨delivered, holds.formed.remove, (StructForQueueBoi.size_remove queue).trans holds.size,
    rest⟩

/-- What the fill loop puts at a position of the queues. -/
def sourceByte (datastreamFromMainServer : List UInt8) (position : Nat) : UInt8 :=
  if position < datastreamFromMainServer.length - 1 then
    datastreamFromMainServer.getD position 0
  else ' '.toUInt8

/-- How many positions of row `k` are below a position, five to a row. -/
def visited (position k : Nat) : Nat := min sizeOfQueue (position - sizeOfQueue * k)

/-- The state of the fill loop when it has filled the positions below a given one. The
proposition stands for the bounds of all accesses before the loop. -/
structure Filled (datastreamFromMainServer : List UInt8) (before : Prop) (position : Nat)
    (state : HelperState) : Prop where
  count : state.queues.length = numberOfQueues datastreamFromMainServer.length
  queues : ∀ k < numberOfQueues datastreamFromMainServer.length, Holds (state.queue k)
    ((List.range (visited position k)).map fun column =>
      sourceByte datastreamFromMainServer (sizeOfQueue * k + column))
  index : state.indexfortheinputdata = min position (datastreamFromMainServer.length - 1)
  bounds : WithinBounds state.accesses ↔ before

/-- The state of the drain loop when it has emptied the positions below a given one of
queues that held the given rows. -/
structure Drained (rows : Nat → List UInt8) (uppercasedBuffer : List UInt8) (before : Prop)
    (total position : Nat) (state : HelperState) : Prop where
  count : state.queues.length = total
  queues : ∀ k < total, Holds (state.queue k) ((rows k).drop (visited position k))
  counter : state.counter = position
  buffer : state.uppercasedBuffer = writeAll uppercasedBuffer 0
    ((List.range position).map fun index =>
      (rows (index / sizeOfQueue)).getD (index % sizeOfQueue) 0)
  bounds : WithinBounds state.accesses ↔ before

/-- The row of a position has one visited position for every column before it. -/
theorem visited_row {row column : Nat} (inside : column ≤ sizeOfQueue) :
    visited (sizeOfQueue * row + column) row = column := by
  unfold visited
  omega

/-- Going on in a row visits nothing in other rows. -/
theorem visited_other {row column k : Nat} (inside : column < sizeOfQueue) (other : k ≠ row) :
    visited (sizeOfQueue * row + column + 1) k = visited (sizeOfQueue * row + column) k := by
  unfold visited sizeOfQueue at *
  omega

/-- In the end every position of every row is visited. -/
theorem visited_all {total k : Nat} (inside : k < total) :
    visited (sizeOfQueue * total) k = sizeOfQueue := by
  unfold visited sizeOfQueue
  omega

/-- The setup loop makes empty queues. -/
theorem setup_filled (memory : Nat → Nat → UInt8) (datastreamFromMainServer : List UInt8)
    (state : HelperState) :
    Filled datastreamFromMainServer (WithinBounds state.accesses) 0
      (setupQueues memory datastreamFromMainServer.length state) := by
  refine ⟨by simp [setupQueues], ?_, by simp [setupQueues], ?_⟩
  · intro k inside
    have fresh : (setupQueues memory datastreamFromMainServer.length state).queue k =
        setupTheQueue (memory k) sizeOfQueue := by
      simp [HelperState.queue, setupQueues, inside]
    rw [fresh]
    simpa [visited] using holds_setup (memory k)
  · simp [setupQueues, queue_loop_within_bounds]

/-- The body of the fill loop stores the source's byte for the position. -/
theorem fill_step_queues {datastreamFromMainServer : List UInt8} {state : HelperState}
    {position : Nat} (row : Nat)
    (index : state.indexfortheinputdata = min position (datastreamFromMainServer.length - 1)) :
    (fillStep datastreamFromMainServer row state).queues = state.queues.set row
      (addToTheQueue (state.queue row) (sourceByte datastreamFromMainServer position)).2 := by
  by_cases data : position < datastreamFromMainServer.length - 1
  · have atPosition : state.indexfortheinputdata = position := by omega
    simp [fillStep, atPosition, sourceByte, data]
  · have atEnd : ¬ state.indexfortheinputdata < datastreamFromMainServer.length - 1 := by omega
    simp [fillStep, atEnd, sourceByte, data]

/-- The index into the received data follows the position up to the last byte. -/
theorem fill_step_index {datastreamFromMainServer : List UInt8} {state : HelperState}
    {position : Nat} (row : Nat)
    (index : state.indexfortheinputdata = min position (datastreamFromMainServer.length - 1)) :
    (fillStep datastreamFromMainServer row state).indexfortheinputdata =
      min (position + 1) (datastreamFromMainServer.length - 1) := by
  by_cases data : state.indexfortheinputdata < datastreamFromMainServer.length - 1
  · simp only [fillStep, if_pos data]
    omega
  · simp only [fillStep, if_neg data]
    omega

/-- The body of the fill loop stays inside the data and the queues. -/
theorem fill_step_bounds {datastreamFromMainServer : List UInt8} {state : HelperState} {row : Nat}
    (inside : row < numberOfQueues datastreamFromMainServer.length)
    (formed : (state.queue row).WellFormed) :
    WithinBounds (fillStep datastreamFromMainServer row state).accesses ↔
      WithinBounds state.accesses := by
  have slots := add_within_bounds formed
  by_cases data : state.indexfortheinputdata < datastreamFromMainServer.length - 1
  · have received : state.indexfortheinputdata < datastreamFromMainServer.length := by omega
    simp [fillStep, data, Access.InBounds, received, inside, slots]
  · simp [fillStep, data, Access.InBounds, inside, slots]

/-- The body of the fill loop puts one more byte behind the others of its row. -/
theorem Filled.step {datastreamFromMainServer : List UInt8} {before : Prop} {row column : Nat}
    {state : HelperState}
    (filled : Filled datastreamFromMainServer before (sizeOfQueue * row + column) state)
    (rowInside : row < numberOfQueues datastreamFromMainServer.length)
    (columnInside : column < sizeOfQueue) :
    Filled datastreamFromMainServer before (sizeOfQueue * row + column + 1)
      (fillStep datastreamFromMainServer row state) := by
  have current := filled.queues row rowInside
  rw [visited_row (Nat.le_of_lt columnInside)] at current
  have queues := fill_step_queues row filled.index
  refine ⟨?_, ?_, fill_step_index row filled.index, ?_⟩
  · rw [queues, List.length_set]
    exact filled.count
  · intro k inside
    rw [queue_replaced queues (filled.count ▸ rowInside) k]
    by_cases same : k = row
    · subst same
      rw [if_pos rfl, Nat.add_assoc, visited_row (Nat.succ_le_of_lt columnInside),
        List.range_succ, List.map_append]
      exact current.add (by simpa using columnInside) _
    · rw [if_neg same, visited_other columnInside same]
      exact filled.queues k inside
  · rw [fill_step_bounds rowInside current.formed]
    exact filled.bounds

/-- Before the threads start, the queues hold the data without its last byte, padded with
spaces. -/
theorem enqueue_filled (memory : Nat → Nat → UInt8) (datastreamFromMainServer : List UInt8)
    (state : HelperState) :
    Filled datastreamFromMainServer (WithinBounds state.accesses)
      (sizeOfQueue * numberOfQueues datastreamFromMainServer.length)
      (enqueueChunk memory datastreamFromMainServer state) :=
  CountedLoop.nested_invariant (fun row _ => fillStep datastreamFromMainServer row)
    (Filled datastreamFromMainServer (WithinBounds state.accesses)) _ _
    (setup_filled memory datastreamFromMainServer state)
    (fun _ rowInside _ columnInside _ filled => filled.step rowInside columnInside)

/-- Filling the queues leaves the global buffer alone. -/
theorem enqueue_buffer (memory : Nat → Nat → UInt8) (datastreamFromMainServer : List UInt8)
    (state : HelperState) :
    (enqueueChunk memory datastreamFromMainServer state).uppercasedBuffer =
      state.uppercasedBuffer := by
  refine CountedLoop.nested_invariant (fun row _ => fillStep datastreamFromMainServer row)
    (fun _ current => current.uppercasedBuffer = state.uppercasedBuffer) _ _ rfl ?_
  intro row _ column _ current same
  by_cases data : current.indexfortheinputdata < datastreamFromMainServer.length - 1
  · simpa [fillStep, data] using same
  · simpa [fillStep, data] using same

/-- The body of the drain loop moves the first byte of a row to the next place of the
buffer. -/
theorem Drained.step {rows : Nat → List UInt8} {uppercasedBuffer : List UInt8} {before : Prop}
    {dataBytesIncoming row column : Nat} {state : HelperState}
    (drained : Drained rows uppercasedBuffer before (numberOfQueues dataBytesIncoming)
      (sizeOfQueue * row + column) state)
    (rowInside : row < numberOfQueues dataBytesIncoming) (columnInside : column < sizeOfQueue)
    (received : dataBytesIncoming ≤ bufferSize) :
    Drained rows uppercasedBuffer before (numberOfQueues dataBytesIncoming)
      (sizeOfQueue * row + column + 1) (drainStep dataBytesIncoming row state) := by
  have current := drained.queues row rowInside
  rw [visited_row (Nat.le_of_lt columnInside)] at current
  obtain ⟨delivered, rest⟩ := current.remove
  have queues : (drainStep dataBytesIncoming row state).queues =
      state.queues.set row (removeFromTheQueue (state.queue row)).2 := rfl
  refine ⟨?_, ?_, ?_, ?_, ?_⟩
  · rw [queues, List.length_set]
    exact drained.count
  · intro k inside
    rw [queue_replaced queues (drained.count ▸ rowInside) k]
    by_cases same : k = row
    · subst same
      rw [if_pos rfl, Nat.add_assoc, visited_row (Nat.succ_le_of_lt columnInside)]
      simpa using rest
    · rw [if_neg same, visited_other columnInside same]
      exact drained.queues k inside
  · change state.counter + 1 = _
    rw [drained.counter]
  · change state.uppercasedBuffer.set state.counter (removeFromTheQueue (state.queue row)).1 = _
    have inRow : (sizeOfQueue * row + column) / sizeOfQueue = row := by
      rw [Nat.mul_add_div (by decide), Nat.div_eq_of_lt columnInside, Nat.add_zero]
    have inColumn : (sizeOfQueue * row + column) % sizeOfQueue = column := by
      rw [Nat.mul_add_mod, Nat.mod_eq_of_lt columnInside]
    rw [delivered, drained.buffer, drained.counter, List.range_succ, List.map_append,
      List.map_singleton, CountedLoop.write_all_concat, List.length_map, List.length_range,
      Nat.zero_add, inRow, inColumn]
    simp
  · have slots := remove_within_bounds current.formed
    have buffered : state.counter < bufferSize := by
      rw [drained.counter]
      unfold numberOfQueues sizeOfQueue bufferSize at *
      omega
    rw [← drained.bounds]
    simp [drainStep, Access.InBounds, rowInside, slots, buffered]

/-- What a state with full or partly filled queues has in common for the drain loop: its
queues hold the given rows. -/
structure Rows (rows : Nat → List UInt8) (total : Nat) (state : HelperState) : Prop where
  count : state.queues.length = total
  queues : ∀ k < total, Holds (state.queue k) (rows k)

/-- Before the drain loop nothing of the rows is drained. -/
theorem Rows.drain_start {rows : Nat → List UInt8} {total : Nat} {state : HelperState}
    (held : Rows rows total state) :
    Drained rows state.uppercasedBuffer (WithinBounds state.accesses) total 0
      { state with counter := 0 } := by
  refine ⟨held.count, ?_, rfl, rfl, Iff.rfl⟩
  intro k inside
  have unvisited : visited 0 k = 0 := by simp [visited]
  rw [unvisited]
  exact held.queues k inside

/-- The drain loop empties the rows one after another into the buffer. -/
theorem Rows.drained {rows : Nat → List UInt8} {dataBytesIncoming : Nat} {state : HelperState}
    (held : Rows rows (numberOfQueues dataBytesIncoming) state)
    (received : dataBytesIncoming ≤ bufferSize) :
    Drained rows state.uppercasedBuffer (WithinBounds state.accesses)
      (numberOfQueues dataBytesIncoming) (sizeOfQueue * numberOfQueues dataBytesIncoming)
      (drainQueues dataBytesIncoming state) := by
  exact CountedLoop.nested_invariant (fun row _ => drainStep dataBytesIncoming row) _ _ _
    held.drain_start
    (fun _ rowInside _ columnInside _ drained => drained.step rowInside columnInside received)

/-- The last place that the drain loop writes, and that the newline replaces. -/
def lastWritten (dataBytesIncoming : Nat) : Nat :=
  sizeOfQueue * numberOfQueues dataBytesIncoming - 1

/-- The byte that a round leaves at a place of the buffer up to the newline. -/
def replyByte (rows : Nat → List UInt8) (dataBytesIncoming index : Nat) : UInt8 :=
  if index = lastWritten dataBytesIncoming then '\n'.toUInt8
  else (rows (index / sizeOfQueue)).getD (index % sizeOfQueue) 0

/-- The buffer after a round: the rows, the newline and the NUL. -/
theorem Rows.dequeue_buffer {rows : Nat → List UInt8} {dataBytesIncoming : Nat}
    {state : HelperState} (held : Rows rows (numberOfQueues dataBytesIncoming) state)
    (received : dataBytesIncoming ≤ bufferSize) :
    (dequeueChunk dataBytesIncoming state).uppercasedBuffer =
      ((writeAll state.uppercasedBuffer 0
        ((List.range (sizeOfQueue * numberOfQueues dataBytesIncoming)).map fun index =>
          (rows (index / sizeOfQueue)).getD (index % sizeOfQueue) 0)).set
        (lastWritten dataBytesIncoming) '\n'.toUInt8).set
        (sizeOfQueue * numberOfQueues dataBytesIncoming) 0 := by
  have drained := held.drained received
  simp only [dequeueChunk, freeQueues, terminateBuffer, drained.buffer, drained.counter,
    lastWritten]

/-- The buffer keeps its length. -/
theorem Rows.dequeue_length {rows : Nat → List UInt8} {dataBytesIncoming : Nat}
    {state : HelperState} (held : Rows rows (numberOfQueues dataBytesIncoming) state)
    (received : dataBytesIncoming ≤ bufferSize) :
    (dequeueChunk dataBytesIncoming state).uppercasedBuffer.length =
      state.uppercasedBuffer.length := by
  rw [held.dequeue_buffer received]
  simp

/-- A round stays inside the arrays after the threads exactly if the NUL does. -/
theorem Rows.dequeue_bounds {rows : Nat → List UInt8} {dataBytesIncoming : Nat}
    {state : HelperState} (held : Rows rows (numberOfQueues dataBytesIncoming) state)
    (nonempty : 1 ≤ dataBytesIncoming) (received : dataBytesIncoming ≤ bufferSize) :
    WithinBounds (dequeueChunk dataBytesIncoming state).accesses ↔
      WithinBounds state.accesses ∧ dataBytesIncoming ≤ bufferSize - sizeOfQueue := by
  have drained := held.drained received
  have newline : sizeOfQueue * numberOfQueues dataBytesIncoming - 1 < bufferSize := by
    unfold numberOfQueues sizeOfQueue bufferSize at *
    omega
  have terminator : sizeOfQueue * numberOfQueues dataBytesIncoming < bufferSize ↔
      dataBytesIncoming ≤ bufferSize - sizeOfQueue := by
    unfold numberOfQueues sizeOfQueue bufferSize at *
    omega
  simp [dequeueChunk, freeQueues, terminateBuffer, Access.InBounds, queue_loop_within_bounds,
    drained.counter, drained.bounds, newline, terminator]

/-- The reply is as long as the request and made of the rows, with a newline where the
padding ends. The buffer's earlier contents do not matter. -/
theorem Rows.reply {rows : Nat → List UInt8} {dataBytesIncoming : Nat} {state : HelperState}
    (held : Rows rows (numberOfQueues dataBytesIncoming) state)
    (received : dataBytesIncoming ≤ bufferSize)
    (buffer : state.uppercasedBuffer.length = bufferSize) :
    serverEncoder (dequeueChunk dataBytesIncoming state).uppercasedBuffer dataBytesIncoming =
      (List.range dataBytesIncoming).map (replyByte rows dataBytesIncoming) := by
  have covered : dataBytesIncoming ≤ sizeOfQueue * numberOfQueues dataBytesIncoming := by
    unfold numberOfQueues sizeOfQueue
    omega
  rw [serverEncoder, held.dequeue_buffer received]
  refine List.ext_getElem? ?_
  intro index
  by_cases inside : index < dataBytesIncoming
  · rw [List.getElem?_take_of_lt inside, List.getElem?_map, List.getElem?_range inside,
      List.getElem?_set_ne (by omega), Option.map_some, replyByte]
    by_cases last : index = lastWritten dataBytesIncoming
    · rw [if_pos last, last]
      exact List.getElem?_set_self (by simp; omega)
    · let drainedBytes := (List.range (sizeOfQueue * numberOfQueues dataBytesIncoming)).map
        fun index => (rows (index / sizeOfQueue)).getD (index % sizeOfQueue) 0
      have written : (writeAll state.uppercasedBuffer 0 drainedBytes)[0 + index]? =
          drainedBytes[index]? :=
        CountedLoop.write_all_inside _ _ (by omega) (by simpa [drainedBytes] using by omega)
      rw [Nat.zero_add, List.getElem?_map, List.getElem?_range (by omega), Option.map_some]
        at written
      rw [if_neg last, List.getElem?_set_ne (Ne.symm last), written]
  · rw [List.getElem?_eq_none (by simp only [List.length_take]; omega),
      List.getElem?_eq_none (by simpa using by omega)]

end HelperChat
