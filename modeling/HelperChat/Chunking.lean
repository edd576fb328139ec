import Mathlib.Data.List.Basic

/-!
# Streams processed in chunks

A stream that arrives in non-empty chunks. Every item of a chunk is processed for itself,
except the last one, whose place takes an item that depends on the length of the chunk.

What such a processing puts at a position is determined by the chunk that ends there, if
one does. So it makes the same of two splits of a stream if and only if the splits agree at
every position where one of them has a border.
-/

namespace Chunking

universe u v
variable {Item : Type u} {Output : Type v}

/-- A chunk with its items processed one by one, and the last one replaced. -/
def process (inner : Item → Output) (last : Nat → Output) (chunk : List Item) : List Output :=
  chunk.dropLast.map inner ++ [last chunk.length]

/-- The length of the chunk whose last item is at a position of the stream. -/
def endingAt : List (List Item) → Nat → Option Nat
  | [], _ => none
  | chunk :: rest, position =>
      if position < chunk.length then
        if position + 1 = chunk.length then some chunk.length else none
      else endingAt rest (position - chunk.length)

/-- What stands at a position of the output: the item for the chunk that ends there, or the
processed item of the stream. -/
def outputAt (inner : Item → Output) (last : Nat → Output) (item : Option Item) :
    Option Nat → Option Output
  | some length => some (last length)
  | none => item.map inner

variable {inner : Item → Output} {last : Nat → Output} {chunk : List Item}
  {chunks first second : List (List Item)}

/-- A processed chunk keeps its length. -/
theorem process_length (nonempty : chunk ≠ []) :
    (process inner last chunk).length = chunk.length := by
  have positive : 0 < chunk.length := List.length_pos_iff.mpr nonempty
  simp only [process, List.length_append, List.length_map, List.length_dropLast,
    List.length_singleton]
  omega

/-- A place of a processed chunk. -/
theorem process_at {position : Nat} (inside : position < chunk.length) :
    (process inner last chunk)[position]? =
      outputAt inner last chunk[position]?
        (if position + 1 = chunk.length then some chunk.length else none) := by
  have length : (chunk.dropLast.map inner).length = chunk.length - 1 := by simp
  split
  case isTrue border =>
    rw [process, List.getElem?_append_right (by omega), length]
    simp [outputAt, (by omega : position - (chunk.length - 1) = 0)]
  case isFalse before =>
    rw [process, List.getElem?_append_left (by omega), List.getElem?_map,
      List.getElem?_dropLast, if_pos (by omega)]
    rfl

/-- A place of the whole output. -/
theorem output_at (nonempty : ∀ chunk ∈ chunks, chunk ≠ []) (position : Nat) :
    (chunks.flatMap (process inner last))[position]? =
      outputAt inner last chunks.flatten[position]? (endingAt chunks position) := by
  induction chunks generalizing position with
  | nil => rfl
  | cons chunk rest inductionHypothesis =>
    obtain ⟨here, later⟩ := List.forall_mem_cons.mp nonempty
    have length : (process inner last chunk).length = chunk.length := process_length here
    rw [List.flatMap_cons, List.flatten_cons, endingAt]
    by_cases inside : position < chunk.length
    · rw [List.getElem?_append_left (by omega), List.getElem?_append_left inside,
        process_at inside, if_pos inside]
    · rw [List.getElem?_append_right (by omega), List.getElem?_append_right (by omega), length,
        inductionHypothesis later, if_neg inside]

/-- The output is as long as the stream. -/
theorem output_length (nonempty : ∀ chunk ∈ chunks, chunk ≠ []) :
    (chunks.flatMap (process inner last)).length = chunks.flatten.length := by
  induction chunks with
  | nil => rfl
  | cons chunk rest inductionHypothesis =>
    obtain ⟨here, later⟩ := List.forall_mem_cons.mp nonempty
    rw [List.flatMap_cons, List.flatten_cons, List.length_append, List.length_append,
      process_length here, inductionHypothesis later]

/-- Two splits of one stream have the same output exactly if they put the same at every
position of the stream. -/
theorem same_output_iff (ofFirst : ∀ chunk ∈ first, chunk ≠ [])
    (ofSecond : ∀ chunk ∈ second, chunk ≠ []) (same : first.flatten = second.flatten) :
    first.flatMap (process inner last) = second.flatMap (process inner last) ↔
      ∀ position < first.flatten.length,
        outputAt inner last first.flatten[position]? (endingAt first position) =
          outputAt inner last first.flatten[position]? (endingAt second position) := by
  constructor
  · intro equal position _
    rw [← output_at ofFirst, equal, output_at ofSecond, same]
  · intro agree
    apply List.ext_getElem?
    intro position
    by_cases inside : position < first.flatten.length
    · rw [output_at ofFirst, agree position inside, output_at ofSecond, same]
    · have length : (first.flatMap (process inner last)).length = first.flatten.length :=
        output_length ofFirst
      have otherLength : (second.flatMap (process inner last)).length = first.flatten.length :=
        (output_length ofSecond).trans (congrArg List.length same.symm)
      rw [List.getElem?_eq_none (by omega), List.getElem?_eq_none (by omega)]

end Chunking
