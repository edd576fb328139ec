import HelperChat.Transition

/-!
# Forward simulation and guarded progress

An abstract system simulates a concrete one if every concrete step between related states
is matched by a schedule of the abstract one, possibly an empty one. Both sides may be
restricted: only concrete steps that meet a condition have to be matched, and the abstract
schedules meet a condition of their own.

Progress by steps that meet a condition is a schedule that meets it. What a system emits on
the way can be the schedule of another one.
-/

namespace TransitionSystem

universe u v w z
variable {State : Type u} {Event : Type v} {Other : Type w} {Action : Type z}

/-- What the steps of a schedule emit, one after another. -/
def emitted (emits : State → Event → List Action) (step : State → Event → Option State) :
    State → List Event → List Action
  | _, [] => []
  | state, event :: rest =>
      emits state event ++
        match step state event with
        | some next => emitted emits step next rest
        | none => []

/-- Every step that meets the condition is matched by an abstract schedule that meets the
guard. -/
def Simulates (step : State → Event → Option State) (condition : State → Event → Prop)
    (other : Other → Action → Option Other) (guard : Other → Action → Prop)
    (relates : State → Other → Prop) : Prop :=
  ∀ state abstract event next, relates state abstract → condition state event →
    step state event = some next →
    ∃ actions after, run other abstract actions = some after ∧
      Meets other guard abstract actions ∧ relates next after

variable {step : State → Event → Option State} {condition : State → Event → Prop}
variable {other : Other → Action → Option Other} {guard : Other → Action → Prop}
variable {relates : State → Other → Prop}

/-- A schedule of one event is its step. -/
theorem run_singleton (state : State) (event : Event) :
    TransitionSystem.run step state [event] = step state event :=
  Option.bind_fun_some _

/-- Every run that meets the condition is matched by an abstract run that meets the guard. -/
theorem Simulates.run (simulates : Simulates step condition other guard relates)
    {start final : State} {abstract : Other} {events : List Event}
    (initially : relates start abstract) (met : Meets step condition start events)
    (ran : run step start events = some final) :
    ∃ actions after, TransitionSystem.run other abstract actions = some after ∧
      Meets other guard abstract actions ∧ relates final after := by
  induction events generalizing start abstract with
  | nil =>
    obtain rfl := Option.some.inj ran
    exact ⟨[], abstract, rfl, trivial, initially⟩
  | cons event rest inductionHypothesis =>
    obtain ⟨next, stepped, continued⟩ := Option.bind_eq_some_iff.mp ran
    obtain ⟨first, middle, reached, guarded, related⟩ :=
      simulates start abstract event next initially met.1 stepped
    obtain ⟨second, after, finished, guardedToo, relatedToo⟩ :=
      inductionHypothesis related (met.2 next stepped) continued
    exact ⟨first ++ second, after, run_trans reached finished,
      meets_append reached guarded guardedToo, relatedToo⟩

/-- The runs of a system whose steps are always possible. -/
theorem run_total (advance : State → Event → State) (start : State) (events : List Event) :
    TransitionSystem.run (fun state event => some (advance state event)) start events =
      some (events.foldl advance start) := by
  induction events generalizing start with
  | nil => rfl
  | cons event rest inductionHypothesis => exact inductionHypothesis (advance start event)

/-- A schedule whose events all leave the state as it is. -/
theorem run_stays {state : State} {events : List Event}
    (stays : ∀ event ∈ events, step state event = some state) :
    TransitionSystem.run step state events = some state := by
  induction events with
  | nil => rfl
  | cons event rest inductionHypothesis =>
    obtain ⟨first, others⟩ := List.forall_mem_cons.mp stays
    rw [run_cons, first]
    exact inductionHypothesis others

/-- A loop whose every turn leads from its state to the next one. -/
theorem run_loop (states : Nat → State) {body : Nat → List Event} {count : Nat}
    (turn : ∀ i < count, TransitionSystem.run step (states i) (body i) = some (states (i + 1))) :
    TransitionSystem.run step (states 0) ((List.range count).flatMap body) =
      some (states count) := by
  induction count with
  | zero => rfl
  | succ count inductionHypothesis =>
    rw [List.range_succ, List.flatMap_append, List.flatMap_singleton]
    exact run_trans (inductionHypothesis fun i below => turn i (Nat.lt_succ_of_lt below))
      (turn count (Nat.lt_succ_self count))

/-- A condition that always holds is met by every run. -/
theorem meets_trivial (start : State) (events : List Event) :
    Meets step (fun _ _ => True) start events := by
  induction events generalizing start with
  | nil => trivial
  | cons event rest inductionHypothesis =>
    exact ⟨trivial, fun next _ => inductionHypothesis next⟩

/-- A condition that an invariant of the run turns into another one. -/
theorem Meets.imp (invariant : State → Prop) {weaker : State → Event → Prop}
    (preserved : ∀ state event next, invariant state → condition state event →
      step state event = some next → invariant next)
    (implies : ∀ state event, invariant state → condition state event → weaker state event)
    {start : State} {events : List Event} (initially : invariant start)
    (met : Meets step condition start events) : Meets step weaker start events := by
  induction events generalizing start with
  | nil => trivial
  | cons event rest inductionHypothesis =>
    refine ⟨implies start event initially met.1, ?_⟩
    intro next stepped
    exact inductionHypothesis (preserved start event next initially met.1 stepped)
      (met.2 next stepped)

/-- A run that meets a condition, and whose events all have a property, meets both. -/
theorem meets_and_forall {held : Event → Prop} {start : State} {events : List Event}
    (met : Meets step condition start events) (all : ∀ event ∈ events, held event) :
    Meets step (fun state event => condition state event ∧ held event) start events := by
  induction events generalizing start with
  | nil => trivial
  | cons event rest inductionHypothesis =>
    obtain ⟨first, others⟩ := List.forall_mem_cons.mp all
    exact ⟨⟨met.1, first⟩, fun next stepped => inductionHypothesis (met.2 next stepped) others⟩

/-- A completed run meets a condition on the events exactly if every event has it. -/
theorem meets_iff_forall {held : Event → Prop} {start final : State} {events : List Event}
    (ran : TransitionSystem.run step start events = some final) :
    Meets step (fun _ event => held event) start events ↔ ∀ event ∈ events, held event := by
  induction events generalizing start with
  | nil => simp [Meets]
  | cons event rest inductionHypothesis =>
    obtain ⟨next, stepped, continued⟩ := Option.bind_eq_some_iff.mp ran
    rw [List.forall_mem_cons, ← inductionHypothesis continued]
    simp only [Meets, stepped, Option.mem_def, Option.some.injEq, forall_eq']

/-- If from every state of an invariant short of a goal some step that meets the condition
keeps the invariant and decreases a measure, some run that meets it reaches the goal. -/
theorem reaches_goal_meeting (goal invariant : State → Prop) (measure : State → Nat)
    (advances : ∀ state, invariant state → goal state ∨ ∃ event next,
      condition state event ∧ step state event = some next ∧ invariant next ∧
        measure next < measure state)
    {start : State} (initially : invariant start) :
    ∃ events final, TransitionSystem.run step start events = some final ∧
      Meets step condition start events ∧ goal final := by
  induction bound : measure start using Nat.strongRecOn generalizing start with
  | ind count inductionHypothesis =>
    rcases advances start initially with reached | ⟨event, next, meets, stepped, kept, less⟩
    · exact ⟨[], start, rfl, trivial, reached⟩
    · obtain ⟨events, final, ran, met, reached⟩ :=
        inductionHypothesis (measure next) (bound ▸ less) kept rfl
      refine ⟨event :: events, final, ?_, ⟨meets, ?_⟩, reached⟩
      · rw [run_cons, stepped]
        exact ran
      · intro other same
        exact Option.some.inj (stepped.symm.trans same) ▸ met

/-- If what each step emits runs from its view of the state to that of the next one, then so
does what a whole run emits. The invariant and the condition delimit the steps. -/
theorem emitted_run {emits : State → Event → List Action} (view : State → Other)
    (invariant : State → Prop)
    (matched : ∀ state event next, invariant state → condition state event →
      step state event = some next →
      run other (view state) (emits state event) = some (view next) ∧ invariant next)
    {start final : State} {events : List Event} (initially : invariant start)
    (met : Meets step condition start events)
    (ran : TransitionSystem.run step start events = some final) :
    TransitionSystem.run other (view start) (emitted emits step start events) =
      some (view final) := by
  induction events generalizing start with
  | nil =>
    obtain rfl := Option.some.inj ran
    rfl
  | cons event rest inductionHypothesis =>
    obtain ⟨next, stepped, continued⟩ := Option.bind_eq_some_iff.mp ran
    obtain ⟨viewed, kept⟩ := matched start event next initially met.1 stepped
    rw [emitted, stepped]
    exact run_trans viewed (inductionHypothesis kept (met.2 next stepped) continued)

/-- A measure that every step from the states of an invariant decreases excludes infinite
runs from these states. -/
theorem no_infinite_run_within {Measure : Type z} [Preorder Measure] [WellFoundedLT Measure]
    (invariant : State → Prop) (measure : State → Measure)
    (preserved : ∀ state event next, invariant state → step state event = some next →
      invariant next)
    (decreases : ∀ state event next, invariant state → step state event = some next →
      measure next < measure state)
    {start : State} (initially : invariant start) : ¬ RunsForever step start := by
  rintro ⟨states, events, rfl, stepped⟩
  have held : ∀ n, invariant (states n) := by
    intro n
    induction n with
    | zero => exact initially
    | succ n inductionHypothesis => exact preserved _ _ _ inductionHypothesis (stepped n)
  have falling : StrictAnti fun n => measure (states n) :=
    strictAnti_nat_of_succ_lt fun n => decreases _ _ _ (held n) (stepped n)
  exact not_strictAnti_of_wellFoundedLT _ falling

end TransitionSystem
