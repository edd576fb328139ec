import HelperChat.Transition
import Mathlib.Data.List.Nodup

/-!
# Walking a list by index while items are removed from it

A walk visits the item at its index and moves on, until the index is behind the last
item. Between the visits any of the selected items may be removed; the items behind a
removed one move up, and the index stays.

An item that moves up from the index to the place before it is never visited. So every
selected item that stays is reached exactly once if and only if this happens only to items
that are removed as well later on.
-/

namespace IndexedWalk

universe u
variable {Item : Type u}

/-- A visit of the item at the index, or the removal of an item. -/
inductive Event (Item : Type u) where
  | visit
  | remove (item : Item)
deriving DecidableEq

/-- The items, the index, the selected items reached so far, and whether a visit has found
the index behind the items. -/
structure Walk (Item : Type u) where
  items : List Item
  index : Nat
  reached : List Item
  finished : Bool
deriving DecidableEq

variable [DecidableEq Item] (selected : Item → Prop) [DecidablePred selected]

/-- One step of the walk. Only selected items are removed. -/
def step (walk : Walk Item) : Event Item → Option (Walk Item)
  | .visit =>
      if walk.finished then none
      else
        match walk.items[walk.index]? with
        | some item => some { walk with
            index := walk.index + 1
            reached := if selected item then walk.reached ++ [item] else walk.reached }
        | none => some { walk with finished := true }
  | .remove item =>
      if walk.finished = false ∧ selected item ∧ item ∈ walk.items then
        some { walk with items := walk.items.erase item }
      else none

/-- A removal before the index moves no selected item past the visits, unless that item is
removed as well. -/
def SkipsNobody (walk : Walk Item) : Event Item → List (Event Item) → Prop
  | .visit, _ => True
  | .remove item, rest =>
      item ∈ walk.items.take walk.index →
        ∀ next ∈ walk.items[walk.index]?, selected next → .remove next ∈ rest

instance (walk : Walk Item) (event : Event Item) (rest : List (Event Item)) :
    Decidable (SkipsNobody selected walk event rest) := by
  cases event with
  | visit => exact inferInstanceAs (Decidable True)
  | remove item =>
    exact inferInstanceAs (Decidable (item ∈ walk.items.take walk.index →
      ∀ next ∈ walk.items[walk.index]?, selected next → .remove next ∈ rest))

/-- Erasing before the index: the item at the index moves before it. -/
theorem erase_before {items : List Item} {item : Item} {index : Nat}
    (before : item ∈ items.take index) :
    (items.erase item).take index = (items.take (index + 1)).erase item ∧
      (items.erase item).drop index = items.drop (index + 1) := by
  induction items generalizing index with
  | nil => simp at before
  | cons first rest inductionHypothesis =>
    cases index with
    | zero => simp at before
    | succ index =>
      by_cases here : first = item
      · subst here
        simp
      · have later : item ∈ rest.take index := by
          rw [List.take_succ_cons] at before
          exact (List.mem_cons.mp before).resolve_left (Ne.symm here)
        obtain ⟨taken, dropped⟩ := inductionHypothesis later
        rw [List.erase_cons_tail (by simpa using here), List.take_succ_cons, List.take_succ_cons,
          List.erase_cons_tail (by simpa using here), List.drop_succ_cons, List.drop_succ_cons]
        exact ⟨congrArg (first :: ·) taken, dropped⟩

/-- Erasing from the index on: the items before it stay. -/
theorem erase_ahead {items : List Item} {item : Item} {index : Nat}
    (ahead : item ∉ items.take index) :
    (items.erase item).take index = items.take index ∧
      (items.erase item).drop index = (items.drop index).erase item := by
  induction items generalizing index with
  | nil => simp
  | cons first rest inductionHypothesis =>
    cases index with
    | zero => simp
    | succ index =>
      rw [List.take_succ_cons, List.mem_cons, not_or] at ahead
      obtain ⟨taken, dropped⟩ := inductionHypothesis ahead.2
      rw [List.erase_cons_tail (by simpa using Ne.symm ahead.1), List.take_succ_cons,
        List.take_succ_cons, List.drop_succ_cons, List.drop_succ_cons]
      exact ⟨congrArg (first :: ·) taken, dropped⟩

/-- The items are distinct, those from the index on have not been reached, and a finished
walk has none of them left. -/
structure Ahead (walk : Walk Item) : Prop where
  distinct : walk.items.Nodup
  unreached : ∀ item ∈ walk.items.drop walk.index, item ∉ walk.reached
  behind : walk.finished = true → walk.items.length ≤ walk.index

/-- The steps of a walk that has not finished. -/
inductive Move (walk : Walk Item) : Event Item → Walk Item → Prop
  | visits (item : Item) (present : walk.items[walk.index]? = some item) :
      Move walk .visit { walk with
        index := walk.index + 1
        reached := if selected item then walk.reached ++ [item] else walk.reached }
  | ends (behind : walk.items.length ≤ walk.index) :
      Move walk .visit { walk with finished := true }
  | removes (item : Item) (isSelected : selected item) (present : item ∈ walk.items) :
      Move walk (.remove item) { walk with items := walk.items.erase item }

variable {selected} {walk next : Walk Item} {event : Event Item}

/-- Every computed step is one of the moves. -/
theorem step_move (stepped : step selected walk event = some next) :
    walk.finished = false ∧ Move selected walk event next := by
  cases event with
  | visit =>
    simp only [step] at stepped
    split at stepped
    case isTrue => cases stepped
    case isFalse going =>
      refine ⟨by simpa using going, ?_⟩
      split at stepped
      case h_1 item present =>
        obtain rfl := Option.some.inj stepped
        exact .visits item present
      case h_2 missing =>
        obtain rfl := Option.some.inj stepped
        exact .ends (List.getElem?_eq_none_iff.mp missing)
  | remove item =>
    simp only [step] at stepped
    split at stepped
    case isTrue enabled =>
      obtain rfl := Option.some.inj stepped
      exact ⟨enabled.1, .removes item enabled.2.1 enabled.2.2⟩
    case isFalse => cases stepped

omit [DecidableEq Item] in
/-- The item at the index is the first one ahead. -/
theorem drop_eq_of_present {item : Item} (present : walk.items[walk.index]? = some item) :
    walk.items.drop walk.index = item :: walk.items.drop (walk.index + 1) := by
  obtain ⟨inside, read⟩ := List.getElem?_eq_some_iff.mp present
  rw [List.drop_eq_getElem_cons inside, read]

/-- Every step keeps the items ahead unreached. -/
theorem Ahead.step (ahead : Ahead walk) (stepped : step selected walk event = some next) :
    Ahead next := by
  obtain ⟨distinct, unreached, behind⟩ := ahead
  obtain ⟨going, move⟩ := step_move stepped
  cases move with
  | visits item present =>
    have rest := drop_eq_of_present present
    have others : (item :: walk.items.drop (walk.index + 1)).Nodup :=
      rest ▸ distinct.sublist (List.drop_sublist _ _)
    refine ⟨distinct, ?_, ?_⟩
    · intro other later
      have before : other ∉ walk.reached := unreached other (rest ▸ List.mem_cons_of_mem item later)
      have different : other ≠ item := by
        rintro rfl
        exact (List.nodup_cons.mp others).1 later
      change other ∉ ite _ _ _
      split
      · simpa [different] using before
      · exact before
    · intro finished
      exact absurd (going.symm.trans finished) (by decide)
  | ends noneLeft => exact ⟨distinct, unreached, fun _ => noneLeft⟩
  | removes item _ present =>
    refine ⟨distinct.erase item, ?_, ?_⟩
    · intro other later
      apply unreached other
      change other ∈ (walk.items.erase item).drop walk.index at later
      by_cases visited : item ∈ walk.items.take walk.index
      · rw [(erase_before visited).2] at later
        exact List.mem_of_mem_drop (List.drop_drop ▸ later)
      · rw [(erase_ahead visited).2] at later
        exact List.mem_of_mem_erase later
    · intro finished
      exact absurd (going.symm.trans finished) (by decide)

/-- Every selected item before the index was reached once, or will be removed. -/
def Served (selected : Item → Prop) (walk : Walk Item) (rest : List (Event Item)) : Prop :=
  ∀ item ∈ walk.items.take walk.index, selected item →
    walk.reached.count item = 1 ∨ .remove item ∈ rest

/-- A visit reaches the item that comes before the index, and no other one. -/
theorem Served.visit {rest : List (Event Item)} {item : Item}
    (served : Served selected walk (.visit :: rest)) (ahead : Ahead walk)
    (present : walk.items[walk.index]? = some item) :
    Served selected { walk with
      index := walk.index + 1
      reached := if selected item then walk.reached ++ [item] else walk.reached } rest := by
  intro other before isSelected
  obtain ⟨inside, read⟩ := List.getElem?_eq_some_iff.mp present
  have isNext : item ∈ walk.items.drop walk.index :=
    drop_eq_of_present present ▸ List.mem_cons_self
  change other ∈ walk.items.take (walk.index + 1) at before
  rw [List.take_succ_eq_append_getElem inside, read, List.mem_append, List.mem_singleton]
    at before
  change (ite _ _ _ : List Item).count other = 1 ∨ _
  rcases before with earlier | rfl
  · have different : item ≠ other := by
      rintro rfl
      exact List.disjoint_take_drop ahead.distinct (Nat.le_refl walk.index) earlier isNext
    rcases served other earlier isSelected with once | removed
    · left
      split
      · rw [List.count_append, once, List.count_singleton, if_neg (by simpa using different)]
      · exact once
    · right
      simpa using removed
  · left
    rw [if_pos isSelected, List.count_append,
      List.count_eq_zero.mpr (ahead.unreached other isNext)]
    simp

omit [DecidablePred selected] in
/-- A removal that skips nobody brings no selected item before the index, except one that
will be removed. -/
theorem Served.remove {rest : List (Event Item)} {item : Item}
    (served : Served selected walk (.remove item :: rest)) (ahead : Ahead walk)
    (skipsNobody : SkipsNobody selected walk (.remove item) rest) :
    Served selected { walk with items := walk.items.erase item } rest := by
  intro other before isSelected
  change other ∈ (walk.items.erase item).take walk.index at before
  have different : other ≠ item :=
    (ahead.distinct.mem_erase_iff.mp (List.mem_of_mem_take before)).1
  have known : other ∈ walk.items.take walk.index →
      walk.reached.count other = 1 ∨ .remove other ∈ rest := by
    intro earlier
    simpa [different] using served other earlier isSelected
  by_cases visited : item ∈ walk.items.take walk.index
  · rw [(erase_before visited).1] at before
    have within := List.mem_of_mem_erase before
    by_cases inside : walk.index < walk.items.length
    · rw [List.take_succ_eq_append_getElem inside, List.mem_append, List.mem_singleton] at within
      rcases within with earlier | rfl
      · exact known earlier
      · exact .inr (skipsNobody visited _ (List.getElem?_eq_getElem inside) isSelected)
    · rw [List.take_of_length_le (by omega)] at within
      rw [List.take_of_length_le (Nat.le_of_not_lt inside)] at known
      exact known within
  · rw [(erase_ahead visited).1] at before
    exact known before

/-- A step that skips nobody keeps the items before the index served. -/
theorem Served.step {rest : List (Event Item)} (served : Served selected walk (event :: rest))
    (ahead : Ahead walk) (skipsNobody : SkipsNobody selected walk event rest)
    (stepped : step selected walk event = some next) : Served selected next rest := by
  obtain ⟨going, move⟩ := step_move stepped
  cases move with
  | visits item present => exact served.visit ahead present
  | ends =>
    intro other before isSelected
    have known := served other before isSelected
    simpa using known
  | removes item => exact served.remove ahead skipsNobody

/-- An item before the index that has not been reached. -/
def Skipped (item : Item) (walk : Walk Item) : Prop :=
  item ∈ walk.items.take walk.index ∧ item ∉ walk.reached

/-- A skipped item stays skipped until it is removed. -/
theorem Skipped.step {item : Item} (skipped : Skipped item walk) (ahead : Ahead walk)
    (stays : event ≠ .remove item) (stepped : step selected walk event = some next) :
    Skipped item next := by
  obtain ⟨before, unreached⟩ := skipped
  obtain ⟨going, move⟩ := step_move stepped
  cases move with
  | visits other present =>
    have different : item ≠ other := by
      rintro rfl
      have disjoint := List.disjoint_take_drop ahead.distinct (Nat.le_refl walk.index)
      exact disjoint before (drop_eq_of_present present ▸ List.mem_cons_self)
    constructor
    · exact List.take_subset_take_left _ (Nat.le_succ _) before
    · change item ∉ ite _ _ _
      split
      · simpa [different] using unreached
      · exact unreached
  | ends => exact ⟨before, unreached⟩
  | removes other _ present =>
    have different : item ≠ other := by
      rintro rfl
      exact stays rfl
    refine ⟨?_, unreached⟩
    change item ∈ (walk.items.erase other).take walk.index
    by_cases visited : other ∈ walk.items.take walk.index
    · rw [(erase_before visited).1]
      exact (List.mem_erase_of_ne different).mpr
        (List.take_subset_take_left _ (Nat.le_succ _) before)
    · rw [(erase_ahead visited).1]
      exact before

/-- A finished walk of which no step skips anybody has served all items that stay. -/
theorem served_run {start final : Walk Item} {events : List (Event Item)} (ahead : Ahead start)
    (served : Served selected start events)
    (met : TransitionSystem.MeetsAhead (step selected) (SkipsNobody selected) start events)
    (ran : TransitionSystem.run (step selected) start events = some final)
    (finished : final.finished = true) :
    ∀ item ∈ final.items, selected item → final.reached.count item = 1 := by
  induction events generalizing start with
  | nil =>
    obtain rfl := Option.some.inj ran
    intro item present isSelected
    have before : item ∈ start.items.take start.index := by
      rwa [List.take_of_length_le (ahead.behind finished)]
    rcases served item before isSelected with once | removed
    · exact once
    · cases removed
  | cons event rest inductionHypothesis =>
    obtain ⟨next, stepped, continued⟩ := Option.bind_eq_some_iff.mp ran
    exact inductionHypothesis (ahead.step stepped) (served.step ahead met.1 stepped)
      (met.2 next stepped) continued

/-- An item that is skipped and not removed stays without being reached. -/
theorem skipped_run {start final : Walk Item} {events : List (Event Item)} {item : Item}
    (ahead : Ahead start) (skipped : Skipped item start) (stays : .remove item ∉ events)
    (ran : TransitionSystem.run (step selected) start events = some final) :
    Skipped item final := by
  induction events generalizing start with
  | nil => exact Option.some.inj ran ▸ skipped
  | cons event rest inductionHypothesis =>
    obtain ⟨next, stepped, continued⟩ := Option.bind_eq_some_iff.mp ran
    rw [List.mem_cons, not_or] at stays
    exact inductionHypothesis (ahead.step stepped)
      (skipped.step ahead (Ne.symm stays.1) stepped) stays.2 continued

/-- A removal that skips somebody leaves that item skipped. -/
theorem skips_somebody {rest : List (Event Item)} (ahead : Ahead walk)
    (stepped : step selected walk event = some next)
    (skips : ¬ SkipsNobody selected walk event rest) :
    ∃ item, selected item ∧ .remove item ∉ rest ∧ Skipped item next := by
  obtain ⟨_, move⟩ := step_move stepped
  cases move with
  | visits | ends => exact absurd trivial skips
  | removes item _ present =>
    simp only [SkipsNobody, Option.mem_def, not_forall] at skips
    obtain ⟨visited, other, atIndex, isSelected, stays⟩ := skips
    obtain ⟨inside, read⟩ := List.getElem?_eq_some_iff.mp atIndex
    have first : other ∈ walk.items.drop walk.index :=
      drop_eq_of_present atIndex ▸ List.mem_cons_self
    have different : other ≠ item := by
      rintro rfl
      exact List.disjoint_take_drop ahead.distinct (Nat.le_refl walk.index) visited first
    refine ⟨other, isSelected, stays, ?_, ahead.unreached other first⟩
    change other ∈ (walk.items.erase item).take walk.index
    rw [(erase_before visited).1, List.take_succ_eq_append_getElem inside, read]
    exact (List.mem_erase_of_ne different).mpr (by simp)

/-- A finished walk that has reached all items that stay skipped nobody. -/
theorem meets_of_reached {start final : Walk Item} {events : List (Event Item)}
    (ahead : Ahead start) (ran : TransitionSystem.run (step selected) start events = some final)
    (reached : ∀ item ∈ final.items, selected item → final.reached.count item = 1) :
    TransitionSystem.MeetsAhead (step selected) (SkipsNobody selected) start events := by
  induction events generalizing start with
  | nil => trivial
  | cons event rest inductionHypothesis =>
    obtain ⟨next, stepped, continued⟩ := Option.bind_eq_some_iff.mp ran
    constructor
    · by_contra skips
      obtain ⟨item, isSelected, stays, skipped⟩ := skips_somebody ahead stepped skips
      obtain ⟨before, unreached⟩ := skipped_run (ahead.step stepped) skipped stays continued
      have once := reached item (List.mem_of_mem_take before) isSelected
      rw [List.count_eq_zero.mpr unreached] at once
      cases once
    · intro other taken
      obtain rfl : next = other := Option.some.inj (stepped.symm.trans taken)
      exact inductionHypothesis (ahead.step stepped) continued

/-- A walk from the start of a list of distinct items. -/
def startWalk (items : List Item) : Walk Item := ⟨items, 0, [], false⟩

/-- A finished walk has reached every selected item that stays exactly once if and only if
no removal skips an item that stays. -/
theorem reached_once_iff {items : List Item} (distinct : items.Nodup) {final : Walk Item}
    {events : List (Event Item)}
    (ran : TransitionSystem.run (step selected) (startWalk items) events = some final)
    (finished : final.finished = true) :
    (∀ item ∈ final.items, selected item → final.reached.count item = 1) ↔
      TransitionSystem.MeetsAhead (step selected) (SkipsNobody selected) (startWalk items)
        events := by
  have ahead : Ahead (startWalk items) :=
    ⟨distinct, fun _ _ => List.not_mem_nil, fun ended => absurd ended Bool.false_ne_true⟩
  have served : Served selected (startWalk items) events := by
    intro item before
    cases before
  exact ⟨meets_of_reached ahead ran, fun met => served_run ahead served met ran finished⟩

end IndexedWalk
