import Mathlib.Data.Nat.ModEq
import Mathlib.Data.List.Range

/-!
# Cyclic windows of a list of slots

A ring buffer keeps its entries in consecutive slots, wrapping at the end of the
array. The window from a head position is the list of these entries, oldest first.
Reading the first entry shortens the window at the front, and writing one slot past
its end lengthens it by the written item. The write needs a free slot: with every
slot taken, the position past the end is the head itself.
-/

namespace CyclicWindow

universe u
variable {α : Type u}

/-- The `count` entries met by walking from `head` around the slots. -/
def window (slots : List α) (blank : α) (head count : Nat) : List α :=
  (List.range count).map fun offset => slots.getD ((head + offset) % slots.length) blank

@[simp] theorem window_length (slots : List α) (blank : α) (head count : Nat) :
    (window slots blank head count).length = count := by simp [window]

@[simp] theorem window_zero (slots : List α) (blank : α) (head : Nat) :
    window slots blank head 0 = [] := rfl

/-- Walking once around the slots does not change what is read. -/
theorem window_mod (slots : List α) (blank : α) (head count : Nat) :
    window slots blank (head % slots.length) count = window slots blank head count := by
  simp [window]

/-- The first entry of a window is in the head slot; the others form the window one
position further on. -/
theorem window_succ (slots : List α) (blank : α) (head count : Nat) :
    window slots blank head (count + 1) =
      slots.getD (head % slots.length) blank ::
        window slots blank ((head + 1) % slots.length) count := by
  rw [window_mod]
  simp [window, List.range_succ_eq_map, Nat.add_assoc, Nat.add_comm 1]

/-- Two positions less than one round apart are distinct slots. -/
theorem position_distinct {size head near far : Nat} (before : near < far)
    (close : far < near + size) : (head + near) % size ≠ (head + far) % size := by
  intro same
  have offsets : near ≡ far [MOD size] := Nat.ModEq.add_left_cancel' head same
  have divides : size ∣ far - near := (Nat.modEq_iff_dvd' before.le).mp offsets
  have atLeast : size ≤ far - near := Nat.le_of_dvd (by omega) divides
  omega

/-- Writing the slot past the window's end appends the item. -/
theorem window_write (slots : List α) (blank item : α) (head count : Nat)
    (free : count < slots.length) :
    window (slots.set ((head + count) % slots.length) item) blank head (count + 1) =
      window slots blank head count ++ [item] := by
  have inside : (head + count) % slots.length < slots.length := Nat.mod_lt _ (by omega)
  simp only [window, List.range_succ, List.map_append, List.map_cons, List.map_nil,
    List.length_set]
  congr 1
  · apply List.map_congr_left
    intro offset member
    have before : offset < count := List.mem_range.mp member
    have apart : (head + offset) % slots.length ≠ (head + count) % slots.length :=
      position_distinct before (by omega)
    simp only [List.getD_eq_getElem?_getD, List.getElem?_set_ne (Ne.symm apart)]
  · simp [List.getD_eq_getElem?_getD, List.getElem?_set_self inside]

end CyclicWindow
