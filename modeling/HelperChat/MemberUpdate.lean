import Mathlib.Algebra.BigOperators.Group.List.Basic
import Mathlib.Algebra.GroupWithZero.Nat

/-!
# Replacing one member of a list of components

The local states of the parties of a system form a list, and a step replaces one of
them. These laws say what happens to totals, images and concatenations over all
members when one is replaced.
-/

namespace MemberUpdate

universe u v
variable {Member : Type u} {Value : Type v}

/-- Replacing a member exchanges its old contribution for the new one. -/
theorem sum_map_set [AddCommMonoid Value] (weight : Member → Value) (members : List Member)
    (position : Nat) (old new : Member) (present : members[position]? = some old) :
    ((members.set position new).map weight).sum + weight old =
      (members.map weight).sum + weight new := by
  induction members generalizing position with
  | nil => simp at present
  | cons first rest inductionHypothesis =>
    cases position with
    | zero =>
      have same : first = old := by simpa using present
      subst same
      simp only [List.set_cons_zero, List.map_cons, List.sum_cons]
      rw [add_right_comm, add_comm (weight new), add_right_comm]
    | succ position =>
      have later := inductionHypothesis position (by simpa using present)
      simp only [List.set_cons_succ, List.map_cons, List.sum_cons, add_assoc, later]

/-- A positive total has a positive contribution. -/
theorem exists_of_sum_pos {weight : Member → Nat} {members : List Member}
    (positive : 0 < (members.map weight).sum) :
    ∃ (position : Nat) (member : Member),
      members[position]? = some member ∧ 0 < weight member := by
  by_contra nobody
  have nothing : (members.map weight).sum = 0 := by
    apply List.sum_eq_zero
    intro number among
    obtain ⟨member, inMembers, rfl⟩ := List.mem_map.mp among
    obtain ⟨position, present⟩ := List.mem_iff_getElem?.mp inMembers
    apply Nat.eq_zero_of_not_pos
    intro contributes
    exact nobody ⟨position, member, present, contributes⟩
  omega

/-- A replacement with the same image changes no list of images. -/
theorem map_set_same (image : Member → Value) (members : List Member) (position : Nat)
    (old new : Member) (present : members[position]? = some old) (same : image new = image old) :
    (members.set position new).map image = members.map image := by
  have inside : position < members.length := (List.getElem?_eq_some_iff.mp present).1
  have read : members[position] = old := (List.getElem?_eq_some_iff.mp present).2
  have mappedInside : position < (members.map image).length := by simpa using inside
  have mappedRead : (members.map image)[position] = image old := by simp [read]
  rw [List.map_set, same, ← mappedRead, List.set_getElem_self]

/-- Replacing a member exchanges its old items for the new ones, up to order. -/
theorem flatMap_set_perm (image : Member → List Value) (members : List Member) (position : Nat)
    (old new : Member) (present : members[position]? = some old) :
    ((members.set position new).flatMap image ++ image old).Perm
      (members.flatMap image ++ image new) := by
  induction members generalizing position with
  | nil => simp at present
  | cons first rest inductionHypothesis =>
    cases position with
    | zero =>
      have same : first = old := by simpa using present
      subst same
      simp only [List.set_cons_zero, List.flatMap_cons]
      have swapped : (image new ++ rest.flatMap image ++ image first).Perm
          (image first ++ (image new ++ rest.flatMap image)) := List.perm_append_comm
      apply swapped.trans
      rw [List.append_assoc]
      exact List.Perm.append_left _ List.perm_append_comm
    | succ position =>
      have later := inductionHypothesis position (by simpa using present)
      simpa only [List.set_cons_succ, List.flatMap_cons, List.append_assoc] using
        List.Perm.append_left (image first) later

/-- Members with at most one item each have no more items than there are members. -/
theorem flatMap_length_le (image : Member → List Value) (members : List Member)
    (single : ∀ member, (image member).length ≤ 1) :
    (members.flatMap image).length ≤ members.length := by
  induction members with
  | nil => simp
  | cons first rest inductionHypothesis =>
    have head := single first
    rw [List.flatMap_cons, List.length_append, List.length_cons]
    omega

/-- When every other member contributes nothing, the concatenation is the one
member's contribution. -/
theorem flatMap_single (image : Member → List Value) (members : List Member) (position : Nat)
    (one : Member) (present : members[position]? = some one)
    (others : ∀ other member, other ≠ position → members[other]? = some member →
      image member = []) : members.flatMap image = image one := by
  induction members generalizing position with
  | nil => simp at present
  | cons first rest inductionHypothesis =>
    cases position with
    | zero =>
      have same : first = one := by simpa using present
      subst same
      have nothing : rest.flatMap image = [] := by
        apply List.flatMap_eq_nil_iff.mpr
        intro member inRest
        obtain ⟨other, found⟩ := List.mem_iff_getElem?.mp inRest
        exact others (other + 1) member (by omega) (by simpa using found)
      rw [List.flatMap_cons, nothing, List.append_nil]
    | succ position =>
      have nothing : image first = [] := others 0 first (by omega) rfl
      rw [List.flatMap_cons, nothing, List.nil_append]
      refine inductionHypothesis position (by simpa using present) ?_
      intro other member different found
      exact others (other + 1) member (by omega) (by simpa using found)

/-- What holds of all members and of the new one holds of all members after a
replacement. -/
theorem forall_mem_set {Holds : Member → Prop} {members : List Member} {position : Nat}
    {new : Member} (before : ∀ member ∈ members, Holds member) (ofNew : Holds new) :
    ∀ member ∈ members.set position new, Holds member := by
  intro member inSet
  cases List.mem_or_eq_of_mem_set inSet with
  | inl old => exact before member old
  | inr same => exact same ▸ ofNew

/-- Reading a list after a replacement: the new member in its place, the old ones
elsewhere. -/
theorem read_set_cases {members : List Member} {position other : Nat} {new member : Member}
    (found : (members.set position new)[other]? = some member) :
    (other = position ∧ member = new) ∨ (other ≠ position ∧ members[other]? = some member) := by
  by_cases same : other = position
  · subst same
    have inside : other < members.length := by
      simpa using (List.getElem?_eq_some_iff.mp found).1
    rw [List.getElem?_set_self inside] at found
    exact .inl ⟨rfl, (Option.some.inj found).symm⟩
  · rw [List.getElem?_set_ne (Ne.symm same)] at found
    exact .inr ⟨same, found⟩

/-- Reading a list after a member was added at its end. -/
theorem read_concat_cases {members : List Member} {other : Nat} {new member : Member}
    (found : (members ++ [new])[other]? = some member) :
    (other = members.length ∧ member = new) ∨ members[other]? = some member := by
  by_cases old : other < members.length
  · rw [List.getElem?_append_left old] at found
    exact .inr found
  · have inside : other < (members ++ [new]).length := (List.getElem?_eq_some_iff.mp found).1
    have last : other = members.length := by
      simp only [List.length_append, List.length_singleton] at inside
      omega
    subst last
    rw [List.getElem?_concat_length] at found
    exact .inl ⟨rfl, (Option.some.inj found).symm⟩

end MemberUpdate
