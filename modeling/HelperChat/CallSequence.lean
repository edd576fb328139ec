/-!
# Sequences of calls to a component

The operations of a component as one function of the call: from a state it gives a
result and the next state. A sequence of calls gives the list of results.

A component refines another one under a relation that every call keeps, with equal
results.
-/

namespace CallSequence

universe u v w x
variable {State : Type u} {Spec : Type v} {Call : Type w} {Result : Type x}

/-- Make the calls in order. -/
def perform (operation : Call → State → Result × State) :
    List Call → State → List Result × State
  | [], state => ([], state)
  | call :: rest, state =>
      let (result, next) := operation call state
      let (results, final) := perform operation rest next
      (result :: results, final)

/-- The state after the calls. -/
def after (operation : Call → State → Result × State) (calls : List Call) (state : State) :
    State :=
  (perform operation calls state).2

variable {concrete : Call → State → Result × State} {abstract : Call → Spec → Result × Spec}
variable {Related : State → Spec → Prop}

/-- What every call keeps, with equal results, a sequence of calls keeps. -/
theorem perform_refines
    (refines : ∀ call state spec, Related state spec →
      (concrete call state).1 = (abstract call spec).1 ∧
        Related (concrete call state).2 (abstract call spec).2)
    {state : State} {spec : Spec} (calls : List Call) (related : Related state spec) :
    (perform concrete calls state).1 = (perform abstract calls spec).1 ∧
      Related (after concrete calls state) (after abstract calls spec) := by
  induction calls generalizing state spec with
  | nil => exact ⟨rfl, related⟩
  | cons call rest inductionHypothesis =>
    obtain ⟨sameResult, nextRelated⟩ := refines call state spec related
    obtain ⟨sameResults, finalRelated⟩ := inductionHypothesis nextRelated
    constructor
    · simp only [perform, sameResult, sameResults]
    · exact finalRelated

end CallSequence
