/-!
# Interleavings

A sequence to which two parties contribute, each in its own order.
-/

universe u
variable {Item : Type u}

/-- The whole is made of the left and the right items, each in their order. -/
inductive Interleaves : List Item → List Item → List Item → Prop
  | nil : Interleaves [] [] []
  | left (item : Item) {left right whole : List Item} (rest : Interleaves left right whole) :
      Interleaves (item :: left) right (item :: whole)
  | right (item : Item) {left right whole : List Item} (rest : Interleaves left right whole) :
      Interleaves left (item :: right) (item :: whole)

namespace Interleaves

variable {left right whole : List Item}

/-- Interleavings one behind the other. -/
theorem append {laterLeft laterRight later : List Item} (first : Interleaves left right whole)
    (second : Interleaves laterLeft laterRight later) :
    Interleaves (left ++ laterLeft) (right ++ laterRight) (whole ++ later) := by
  induction first with
  | nil => exact second
  | left item _ inductionHypothesis => exact .left item inductionHypothesis
  | right item _ inductionHypothesis => exact .right item inductionHypothesis

/-- The left party contributes an item. -/
theorem concat_left (interleaves : Interleaves left right whole) (item : Item) :
    Interleaves (left ++ [item]) right (whole ++ [item]) := by
  have added := interleaves.append (.left item .nil)
  rwa [List.append_nil] at added

/-- The right party contributes an item. -/
theorem concat_right (interleaves : Interleaves left right whole) (item : Item) :
    Interleaves left (right ++ [item]) (whole ++ [item]) := by
  have added := interleaves.append (.right item .nil)
  rwa [List.append_nil] at added

end Interleaves
