import Mathlib.Data.List.Basic

/-!
# Counted loops and consecutive writes

`for (i = 0; i < n; i++)` over an explicit state, with its induction rule, and the
effect of storing items at consecutive positions of a buffer. Stores past the end have
no effect on the list that models the buffer.
-/

namespace CountedLoop

universe u v
variable {State : Type u} {Item : Type v}

/-- Run the body for the counter values below the bound, in increasing order. -/
def iterate (body : Nat → State → State) : Nat → State → State
  | 0, state => state
  | bound + 1, state => body bound (iterate body bound state)

@[simp] theorem iterate_zero (body : Nat → State → State) (state : State) :
    iterate body 0 state = state := rfl

@[simp] theorem iterate_succ (body : Nat → State → State) (bound : Nat) (state : State) :
    iterate body (bound + 1) state = body bound (iterate body bound state) := rfl

/-- What the body carries from each counter value to the next, the loop carries from
zero to the bound. -/
theorem iterate_invariant (body : Nat → State → State) (invariant : Nat → State → Prop)
    (bound : Nat) {state : State} (initially : invariant 0 state)
    (preserved : ∀ counter < bound, ∀ current, invariant counter current →
      invariant (counter + 1) (body counter current)) :
    invariant bound (iterate body bound state) := by
  induction bound with
  | zero => exact initially
  | succ bound inductionHypothesis =>
    refine preserved bound (Nat.lt_succ_self bound) _ (inductionHypothesis ?_)
    intro counter below
    exact preserved counter (Nat.lt_succ_of_lt below)

/-- A loop of a fixed width inside another one visits the positions in order. -/
theorem nested_invariant (body : Nat → Nat → State → State) (invariant : Nat → State → Prop)
    (rows width : Nat) {state : State} (initially : invariant 0 state)
    (preserved : ∀ row < rows, ∀ column < width, ∀ current,
      invariant (width * row + column) current →
      invariant (width * row + column + 1) (body row column current)) :
    invariant (width * rows) (iterate (fun row => iterate (body row) width) rows state) := by
  refine iterate_invariant _ (fun row => invariant (width * row)) rows initially ?_
  intro row below current held
  exact iterate_invariant (body row) (fun column => invariant (width * row + column)) width held
    (preserved row below)

/-- In the middle of the outer loop the positions up to there have been visited. -/
theorem nested_invariant_at (body : Nat → Nat → State → State) (invariant : Nat → State → Prop)
    {rows width row column : Nat} {state : State} (rowInside : row < rows)
    (columnInside : column ≤ width) (initially : invariant 0 state)
    (preserved : ∀ row < rows, ∀ column < width, ∀ current,
      invariant (width * row + column) current →
      invariant (width * row + column + 1) (body row column current)) :
    invariant (width * row + column)
      (iterate (body row) column (iterate (fun row => iterate (body row) width) row state)) := by
  have rowsBefore : invariant (width * row)
      (iterate (fun row => iterate (body row) width) row state) :=
    nested_invariant body invariant row width initially
      fun before below => preserved before (Nat.lt_trans below rowInside)
  refine iterate_invariant (body row) (fun column => invariant (width * row + column)) column
    rowsBefore ?_
  intro before below
  exact preserved row rowInside before (Nat.lt_of_lt_of_le below columnInside)

/-- Store items at consecutive positions. -/
def writeAll (buffer : List Item) (position : Nat) : List Item → List Item
  | [] => buffer
  | item :: rest => writeAll (buffer.set position item) (position + 1) rest

@[simp] theorem write_all_length (buffer : List Item) (position : Nat) (items : List Item) :
    (writeAll buffer position items).length = buffer.length := by
  induction items generalizing buffer position with
  | nil => rfl
  | cons item rest inductionHypothesis => simp [writeAll, inductionHypothesis]

/-- Storing one more item after the others. -/
theorem write_all_concat (buffer : List Item) (position : Nat) (items : List Item) (last : Item) :
    writeAll buffer position (items ++ [last]) =
      (writeAll buffer position items).set (position + items.length) last := by
  induction items generalizing buffer position with
  | nil => rfl
  | cons item rest inductionHypothesis =>
    rw [List.cons_append, writeAll, writeAll, inductionHypothesis, List.length_cons]
    congr 1
    omega

/-- Positions before the stores keep their items. -/
theorem write_all_before (buffer : List Item) (items : List Item) {position index : Nat}
    (before : index < position) : (writeAll buffer position items)[index]? = buffer[index]? := by
  induction items generalizing buffer position with
  | nil => rfl
  | cons item rest inductionHypothesis =>
    rw [writeAll, inductionHypothesis _ (Nat.lt_succ_of_lt before),
      List.getElem?_set_ne (Nat.ne_of_gt before)]

/-- Positions behind the stores keep their items. -/
theorem write_all_behind (buffer : List Item) (items : List Item) {position index : Nat}
    (behind : position + items.length ≤ index) :
    (writeAll buffer position items)[index]? = buffer[index]? := by
  induction items generalizing buffer position with
  | nil => rfl
  | cons item rest inductionHypothesis =>
    simp only [List.length_cons] at behind
    rw [writeAll, inductionHypothesis _ (by omega), List.getElem?_set_ne (by omega)]

/-- A stored item is read back, if the buffer reaches that far. -/
theorem write_all_inside (buffer : List Item) (items : List Item) {position offset : Nat}
    (room : position + offset < buffer.length) (stored : offset < items.length) :
    (writeAll buffer position items)[position + offset]? = items[offset]? := by
  induction items generalizing buffer position offset with
  | nil => simp at stored
  | cons item rest inductionHypothesis =>
    cases offset with
    | zero =>
      rw [writeAll, write_all_before _ _ (by omega)]
      simpa using List.getElem?_set_self room
    | succ offset =>
      have shifted : position + (offset + 1) = position + 1 + offset := by omega
      rw [writeAll, shifted, inductionHypothesis]
      · simp
      · simpa using (by omega : position + 1 + offset < buffer.length)
      · simpa using stored

/-- Items stored in a buffer that reaches far enough replace what was there. -/
theorem write_all_eq {buffer items : List Item} {position : Nat}
    (fit : position + items.length ≤ buffer.length) :
    writeAll buffer position items =
      buffer.take position ++ items ++ buffer.drop (position + items.length) := by
  have before : (buffer.take position).length = position := by
    rw [List.length_take]
    omega
  refine List.ext_getElem? ?_
  intro index
  rw [List.append_assoc]
  by_cases inFront : index < position
  · rw [write_all_before _ _ inFront, List.getElem?_append_left (by omega),
      List.getElem?_take_of_lt inFront]
  · rw [List.getElem?_append_right (by omega), before]
    obtain ⟨offset, rfl⟩ := Nat.exists_eq_add_of_le (Nat.le_of_not_lt inFront)
    rw [Nat.add_sub_cancel_left]
    by_cases stored : offset < items.length
    · rw [List.getElem?_append_left stored, write_all_inside _ _ (by omega) stored]
    · rw [List.getElem?_append_right (by omega), List.getElem?_drop,
        write_all_behind buffer items (by omega)]
      congr 1
      omega

/-- Items stored from the start of a buffer that holds them replace its first items. -/
theorem write_all_start {buffer items : List Item} (fit : items.length ≤ buffer.length) :
    writeAll buffer 0 items = items ++ buffer.drop items.length := by
  rw [write_all_eq (by omega), List.take_zero, List.nil_append, Nat.zero_add]

end CountedLoop
