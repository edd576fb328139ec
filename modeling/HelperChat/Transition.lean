import Mathlib.Data.Option.Basic
import Mathlib.Order.OrderIsoNat

/-!
# Finite runs of an executable transition system

A system is a partial step function: in a given state an event either yields the
next state or is not enabled. Every choice of the environment (which thread moves,
how many bytes a call returns) is part of the event, so a schedule is a list of
events and its execution is a computation.

Besides plain runs there are runs whose every step is taken in a state that meets
a stated condition. A run that breaks the condition splits at its first violation,
which is how the exactness of such a condition is established.
-/

namespace TransitionSystem

universe u v w
variable {State : Type u} {Event : Type v} {Other : Type w}

/-- Execute the events in order. An event that is not enabled ends the execution
without a result. -/
def run (step : State → Event → Option State) : State → List Event → Option State
  | state, [] => some state
  | state, event :: rest => (step state event).bind (fun next => run step next rest)

/-- Every event of the run is taken in a state that meets the condition. -/
def Meets (step : State → Event → Option State) (condition : State → Event → Prop) :
    State → List Event → Prop
  | _, [] => True
  | state, event :: rest =>
      condition state event ∧ ∀ next ∈ step state event, Meets step condition next rest

instance decidableMeets (step : State → Event → Option State)
    (condition : State → Event → Prop) [∀ state event, Decidable (condition state event)] :
    (state : State) → (events : List Event) → Decidable (Meets step condition state events)
  | _, [] => inferInstanceAs (Decidable True)
  | state, event :: rest =>
      have : DecidablePred fun next => Meets step condition next rest :=
        fun next => decidableMeets step condition next rest
      inferInstanceAs (Decidable (condition state event ∧
        ∀ next ∈ step state event, Meets step condition next rest))

/-- Every event of the run meets the condition in the state in which it is taken, given
the events that follow it. -/
def MeetsAhead (step : State → Event → Option State)
    (condition : State → Event → List Event → Prop) : State → List Event → Prop
  | _, [] => True
  | state, event :: rest =>
      condition state event rest ∧ ∀ next ∈ step state event, MeetsAhead step condition next rest

instance decidableMeetsAhead (step : State → Event → Option State)
    (condition : State → Event → List Event → Prop)
    [∀ state event rest, Decidable (condition state event rest)] :
    (state : State) → (events : List Event) → Decidable (MeetsAhead step condition state events)
  | _, [] => inferInstanceAs (Decidable True)
  | state, event :: rest =>
      have : DecidablePred fun next => MeetsAhead step condition next rest :=
        fun next => decidableMeetsAhead step condition next rest
      inferInstanceAs (Decidable (condition state event rest ∧
        ∀ next ∈ step state event, MeetsAhead step condition next rest))

/-- Repeat an event until it is not enabled, at most so many times. -/
def exhaust (step : State → Event → Option State) (event : Event) : Nat → State → State
  | 0, state => state
  | fuel + 1, state =>
      match step state event with
      | none => state
      | some next => exhaust step event fuel next

variable {step : State → Event → Option State} {condition : State → Event → Prop}

@[simp] theorem run_nil (state : State) : run step state [] = some state := rfl

@[simp] theorem run_cons (state : State) (event : Event) (rest : List Event) :
    run step state (event :: rest) = (step state event).bind (fun next => run step next rest) :=
  rfl

/-- A run of consecutive schedules is the second schedule run from the first one's
result. -/
theorem run_append (state : State) (first second : List Event) :
    run step state (first ++ second) =
      (run step state first).bind (fun middle => run step middle second) := by
  induction first generalizing state with
  | nil => rfl
  | cons event rest inductionHypothesis =>
    cases advanced : step state event with
    | none => simp [advanced]
    | some next => simpa [advanced] using inductionHypothesis next

/-- Two completed runs compose. -/
theorem run_trans {start middle final : State} {first second : List Event}
    (before : run step start first = some middle) (after : run step middle second = some final) :
    run step start (first ++ second) = some final := by
  rw [run_append, before]
  exact after

/-- A run that meets the condition goes on with another one from its last state. -/
theorem meets_append {start middle : State} {first second : List Event}
    (ran : run step start first = some middle) (before : Meets step condition start first)
    (after : Meets step condition middle second) :
    Meets step condition start (first ++ second) := by
  induction first generalizing start with
  | nil => exact Option.some.inj ran ▸ after
  | cons event rest inductionHypothesis =>
    obtain ⟨held, continues⟩ := before
    refine ⟨held, ?_⟩
    intro next advanced
    obtain ⟨other, same, continued⟩ := Option.bind_eq_some_iff.mp ran
    obtain rfl : other = next := Option.some.inj (same.symm.trans advanced)
    exact inductionHypothesis continued (continues other same)

/-- With enough repetitions allowed, repeating an event follows its run to the end. -/
theorem exhaust_of_run {start final : State} {event : Event} {count fuel : Nat}
    (ran : run step start (List.replicate count event) = some final)
    (ended : step final event = none) (enough : count ≤ fuel) :
    exhaust step event fuel start = final := by
  induction count generalizing start fuel with
  | zero =>
    obtain rfl := Option.some.inj ran
    cases fuel with
    | zero => rfl
    | succ fuel => simp [exhaust, ended]
  | succ count inductionHypothesis =>
    obtain ⟨next, advanced, continued⟩ := Option.bind_eq_some_iff.mp ran
    cases fuel with
    | zero => omega
    | succ fuel =>
      simp only [exhaust, advanced]
      exact inductionHypothesis continued (by omega)

/-- What one step preserves under the condition, a whole run meeting the condition
preserves. -/
theorem guarded_run_preserves (invariant : State → Prop)
    (preserved : ∀ state event next, invariant state → condition state event →
      step state event = some next → invariant next)
    {start final : State} {events : List Event} (initially : invariant start)
    (met : Meets step condition start events) (ran : run step start events = some final) :
    invariant final := by
  induction events generalizing start with
  | nil => exact Option.some.inj ran ▸ initially
  | cons event rest inductionHypothesis =>
    obtain ⟨next, advanced, continued⟩ := Option.bind_eq_some_iff.mp ran
    exact inductionHypothesis (preserved start event next initially met.1 advanced)
      (met.2 next advanced) continued

/-- What every step preserves holds in every state a run ends in. -/
theorem run_preserves (invariant : State → Prop)
    (preserved : ∀ state event next, invariant state → step state event = some next →
      invariant next)
    {start final : State} {events : List Event} (initially : invariant start)
    (ran : run step start events = some final) : invariant final := by
  induction events generalizing start with
  | nil => exact Option.some.inj ran ▸ initially
  | cons event rest inductionHypothesis =>
    obtain ⟨next, advanced, continued⟩ := Option.bind_eq_some_iff.mp ran
    exact inductionHypothesis (preserved start event next initially advanced) continued

/-- If from every state of an invariant short of a goal some step keeps the invariant and
decreases a measure, some run reaches the goal. -/
theorem reaches_goal (goal invariant : State → Prop) (measure : State → Nat)
    (advances : ∀ state, invariant state → goal state ∨ ∃ event next,
      step state event = some next ∧ invariant next ∧ measure next < measure state)
    {start : State} (initially : invariant start) :
    ∃ events final, run step start events = some final ∧ goal final := by
  induction bound : measure start using Nat.strongRecOn generalizing start with
  | ind count inductionHypothesis =>
    rcases advances start initially with reached | ⟨event, next, stepped, kept, less⟩
    · exact ⟨[], start, rfl, reached⟩
    · obtain ⟨events, final, ran, reached⟩ :=
        inductionHypothesis (measure next) (bound ▸ less) kept rfl
      refine ⟨event :: events, final, ?_, reached⟩
      rw [run_cons, stepped]
      exact ran

/-- From the state some schedule goes on for ever. -/
def RunsForever (step : State → Event → Option State) (start : State) : Prop :=
  ∃ (states : Nat → State) (events : Nat → Event), states 0 = start ∧
    ∀ n, step (states n) (events n) = some (states (n + 1))

/-- A measure that every step decreases excludes infinite runs. -/
theorem no_infinite_run {Measure : Type w} [Preorder Measure] [WellFoundedLT Measure]
    (measure : State → Measure)
    (decreases : ∀ state event next, step state event = some next → measure next < measure state)
    (start : State) : ¬ RunsForever step start := by
  rintro ⟨states, events, _, stepped⟩
  have falling : StrictAnti fun n => measure (states n) :=
    strictAnti_nat_of_succ_lt fun n => decreases _ _ _ (stepped n)
  exact not_strictAnti_of_wellFoundedLT _ falling

/-- A completed run that breaks the condition has a first step that does. Before it
the run meets the condition; after it the run continues to the same end. -/
theorem first_violation {start final : State} {events : List Event}
    (ran : run step start events = some final) (broken : ¬ Meets step condition start events) :
    ∃ before event after middle next,
      events = before ++ event :: after ∧
      run step start before = some middle ∧ Meets step condition start before ∧
      ¬ condition middle event ∧ step middle event = some next ∧
      run step next after = some final := by
  induction events generalizing start with
  | nil => exact absurd trivial broken
  | cons event rest inductionHypothesis =>
    obtain ⟨next, advanced, continued⟩ := Option.bind_eq_some_iff.mp ran
    by_cases held : condition start event
    · have later : ¬ Meets step condition next rest := by
        intro met
        refine broken ⟨held, ?_⟩
        intro other same
        exact Option.some.inj (advanced.symm.trans same) ▸ met
      obtain ⟨before, violating, after, middle, following, split, reached, met, failed, taken,
        finished⟩ := inductionHypothesis continued later
      refine ⟨event :: before, violating, after, middle, following, ?_, ?_, ?_, failed, taken,
        finished⟩
      · simp [split]
      · simp [advanced, reached]
      · refine ⟨held, ?_⟩
        intro other same
        exact Option.some.inj (advanced.symm.trans same) ▸ met
    · exact ⟨[], event, rest, start, next, rfl, rfl, trivial, held, advanced, continued⟩

/-- What every step that breaks the condition causes, if the run met it up to there, and no
step undoes, holds at the end of every run that breaks the condition. -/
theorem spoiled_of_violation (spoiled : State → Prop)
    (persists : ∀ state event next, spoiled state → step state event = some next → spoiled next)
    {start final : State} {events : List Event} (ran : run step start events = some final)
    (spoils : ∀ before middle event next, run step start before = some middle →
      Meets step condition start before → ¬ condition middle event →
      step middle event = some next → spoiled next)
    (broken : ¬ Meets step condition start events) : spoiled final := by
  obtain ⟨before, event, after, middle, next, _, reached, met, failed, stepped, continued⟩ :=
    first_violation ran broken
  exact run_preserves spoiled persists (spoils before middle event next reached met failed stepped)
    continued

/-- Two conditions that agree on every step from the states of an invariant, which the
steps meeting them preserve, are met by the same completed runs. -/
theorem meets_iff_meets (invariant : State → Prop) {other : State → Event → Prop}
    (agree : ∀ state event next, invariant state → step state event = some next →
      (condition state event ↔ other state event))
    (preserved : ∀ state event next, invariant state → condition state event →
      step state event = some next → invariant next)
    {start final : State} {events : List Event} (initially : invariant start)
    (ran : run step start events = some final) :
    Meets step condition start events ↔ Meets step other start events := by
  induction events generalizing start with
  | nil => exact Iff.rfl
  | cons event rest inductionHypothesis =>
    obtain ⟨next, advanced, continued⟩ := Option.bind_eq_some_iff.mp ran
    have here := agree start event next initially advanced
    have later : condition start event →
        (Meets step condition next rest ↔ Meets step other next rest) :=
      fun held => inductionHypothesis (preserved start event next initially held advanced) continued
    simp only [Meets, advanced, Option.mem_def, Option.some.injEq, forall_eq']
    constructor
    · rintro ⟨held, met⟩
      exact ⟨here.mp held, (later held).mp met⟩
    · rintro ⟨held, met⟩
      exact ⟨here.mpr held, (later (here.mpr held)).mpr met⟩

/-- A view of the states under which both systems make the same steps carries every
run over. The invariant delimits the states on which the views agree. -/
theorem run_view {other : Other → Event → Option Other} (view : State → Other)
    (invariant : State → Prop)
    (preserved : ∀ state event next, invariant state → step state event = some next →
      invariant next)
    (agrees : ∀ state event, invariant state →
      other (view state) event = (step state event).map view)
    {start : State} (events : List Event) (initially : invariant start) :
    run other (view start) events = (run step start events).map view := by
  induction events generalizing start with
  | nil => rfl
  | cons event rest inductionHypothesis =>
    rw [run_cons, run_cons, agrees start event initially]
    cases advanced : step start event with
    | none => rfl
    | some next =>
      simpa using inductionHypothesis (preserved start event next initially advanced)

/-- An infinite run is carried over too. -/
theorem runs_forever_view {other : Other → Event → Option Other} (view : State → Other)
    (invariant : State → Prop)
    (preserved : ∀ state event next, invariant state → step state event = some next →
      invariant next)
    (agrees : ∀ state event, invariant state →
      other (view state) event = (step state event).map view)
    {start : State} (initially : invariant start) (forever : RunsForever step start) :
    RunsForever other (view start) := by
  obtain ⟨states, events, atStart, stepped⟩ := forever
  have held : ∀ n, invariant (states n) := by
    intro n
    induction n with
    | zero => exact atStart ▸ initially
    | succ n inductionHypothesis => exact preserved _ _ _ inductionHypothesis (stepped n)
  refine ⟨fun n => view (states n), events, congrArg view atStart, ?_⟩
  intro n
  rw [agrees (states n) (events n) (held n), stepped n]
  rfl

/-- Conditions that agree under such a view are met by the same completed runs. -/
theorem meets_ahead_view {other : Other → Event → Option Other}
    {ahead : State → Event → List Event → Prop} {otherAhead : Other → Event → List Event → Prop}
    (view : State → Other) (invariant : State → Prop)
    (preserved : ∀ state event next, invariant state → step state event = some next →
      invariant next)
    (agrees : ∀ state event, invariant state →
      other (view state) event = (step state event).map view)
    (same : ∀ state event rest, invariant state →
      (otherAhead (view state) event rest ↔ ahead state event rest))
    {start : State} (events : List Event) (initially : invariant start) :
    MeetsAhead other otherAhead (view start) events ↔ MeetsAhead step ahead start events := by
  induction events generalizing start with
  | nil => exact Iff.rfl
  | cons event rest inductionHypothesis =>
    have here := same start event rest initially
    cases advanced : step start event with
    | none => simp [MeetsAhead, agrees start event initially, advanced, here]
    | some next =>
      have later := inductionHypothesis (preserved start event next initially advanced)
      simp [MeetsAhead, agrees start event initially, advanced, here, later]

end TransitionSystem
