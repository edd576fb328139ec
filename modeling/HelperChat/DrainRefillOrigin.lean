import HelperChat.DrainRefillConservation

/-!
# Where the items of draining and refilling workers come from

However the workers disturb each other, an item in the pool is a blank or an item that was
there at the start, each after some transformations. So what holds of those, and is kept by
every transformation, holds of all items at all times.
-/

namespace DrainRefill

universe u v
variable {Item : Type u} {Role : Type v} {task : Task Role Item} {Good : Item → Prop}

/-- A move brings only items that were there, a transformed one or a blank. -/
theorem move_keeps_good (blank : Good task.blank)
    (kept : ∀ role item, Good item → Good (task.transform role item))
    {shared after : List Item} {worker moved : Worker Role Item}
    (move : Move task shared worker after moved)
    (good : ∀ item ∈ shared ++ content worker, Good item) :
    ∀ item ∈ after ++ content moved, Good item := by
  cases move with
  | enterDrain | leaveDrain | keep | enterRefill | exit | release => exact good
  | take role held item =>
    have transformed : Good (task.transform role item) := kept role item (good item (by simp))
    simp only [content, List.mem_append, List.mem_cons, List.not_mem_nil, or_false] at good ⊢
    rintro other (inAfter | inHeld | rfl)
    · exact good other (.inl (.inr inAfter))
    · exact good other (.inr inHeld)
    · exact transformed
  | takeBlank role held =>
    have transformed : Good (task.transform role task.blank) := kept role task.blank blank
    simp only [content, List.nil_append, List.mem_append, List.mem_singleton] at good ⊢
    rintro other (inHeld | rfl)
    · exact good other inHeld
    · exact transformed
  | releaseBlank =>
    simp only [content, List.append_nil, List.mem_append, List.mem_singleton] at good ⊢
    rintro other (inShared | rfl)
    · exact good other inShared
    · exact blank
  | keepFull role held item =>
    intro other member
    apply good other
    simp only [content, List.mem_append] at member ⊢
    exact member.imp_right .inl
  | putBack role held item shared =>
    intro other member
    apply good other
    simp only [content, List.mem_append, List.mem_cons, List.not_mem_nil, or_false] at member ⊢
    rcases member with (inShared | same) | inHeld
    · exact .inl inShared
    · exact .inr (.inl same)
    · exact .inr (.inr inHeld)
  | putBackFull role held item shared =>
    intro other member
    apply good other
    simp only [content, List.mem_append, List.mem_cons] at member ⊢
    exact member.imp_right .inr

/-- A step of the pool. -/
theorem step_keeps_good (blank : Good task.blank)
    (kept : ∀ role item, Good item → Good (task.transform role item)) {pool next : Pool Role Item}
    {index : Nat} (good : ∀ item ∈ items pool, Good item)
    (stepped : step task pool index = some next) : ∀ item ∈ items next, Good item := by
  obtain ⟨worker, moved, present, move, workers⟩ := step_move stepped
  have own : ∀ item ∈ pool.shared ++ content worker, Good item := by
    intro item member
    apply good item
    refine (List.mem_append.mp member).elim (List.mem_append_left _) fun inContent =>
      List.mem_append_right _
        (List.mem_flatMap.mpr ⟨worker, List.mem_of_getElem? present, inContent⟩)
  have moves := move_keeps_good blank kept move own
  intro item member
  rcases List.mem_append.mp member with inShared | inWorkers
  · exact moves item (List.mem_append_left _ inShared)
  · obtain ⟨other, among, inContent⟩ := List.mem_flatMap.mp inWorkers
    rw [workers] at among
    cases List.mem_or_eq_of_mem_set among with
    | inl old =>
      exact good item (List.mem_append_right _ (List.mem_flatMap.mpr ⟨other, old, inContent⟩))
    | inr same => exact moves item (List.mem_append_right _ (same ▸ inContent))

end DrainRefill
