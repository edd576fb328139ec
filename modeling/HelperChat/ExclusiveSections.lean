import HelperChat.MemberUpdate
import HelperChat.Simulation

/-!
# Exclusive sections

Threads with local states work on a shared state, one statement at a time, and threads can
be added. Some local states are inside a section. Outside of sections the statements leave
the shared state as it is.

If a thread enters a section only while no other thread is inside one, the sections are
atomic. The settled state is the shared state after the section under way, if there is one.
It changes only when a section is entered, and then by the call that the whole section
stands for. While no thread is inside a section, it is the shared state itself.
-/

namespace ExclusiveSections

universe u v w z
variable {Shared : Type u} {Local : Type v} {Input : Type w} {Call : Type z}

/-- The shared state and the local states of the threads. -/
structure Threads (Shared : Type u) (Local : Type v) where
  shared : Shared
  threads : List Local
deriving DecidableEq

/-- A new thread, or the next statement of the thread at a position. -/
inductive Event (Local : Type v) (Input : Type w) where
  | start (thread : Local)
  | advance (t : Nat) (input : Input)
deriving DecidableEq

/-- Statements with sections. A section is entered from a local state with a call. `finish`
is what a thread inside still does to the shared state, and `Holds` is what it relies on. -/
structure Program (Shared : Type u) (Local : Type v) (Input : Type w) (Call : Type z) where
  statement : Shared → Local → Input → Option (Shared × Local)
  Admits : Shared → List Local → Local → Prop
  decidableAdmits : ∀ shared threads thread, Decidable (Admits shared threads thread)
  Inside : Local → Prop
  decidableInside : DecidablePred Inside
  call : Local → Call
  perform : Shared → Call → Shared
  finish : Local → Shared → Shared
  Holds : Local → Shared → Prop
  admitted : ∀ {shared threads thread}, Admits shared threads thread → ¬ Inside thread
  passes : ∀ {shared after thread next input},
    statement shared thread input = some (after, next) → ¬ Inside thread → ¬ Inside next →
    after = shared
  enters : ∀ {shared after thread next input},
    statement shared thread input = some (after, next) → ¬ Inside thread → Inside next →
    Holds next after ∧ finish next after = perform shared (call thread)
  continues : ∀ {shared after thread next input},
    statement shared thread input = some (after, next) → Inside thread → Inside next →
    Holds thread shared → Holds next after ∧ finish next after = finish thread shared
  leaves : ∀ {shared after thread next input},
    statement shared thread input = some (after, next) → Inside thread → ¬ Inside next →
    Holds thread shared → after = finish thread shared

namespace Program

variable (program : Program Shared Local Input Call)

instance : DecidablePred program.Inside := program.decidableInside

/-- One step. A thread that is not admitted is not started. -/
def step (state : Threads Shared Local) : Event Local Input → Option (Threads Shared Local)
  | .start thread =>
      match program.decidableAdmits state.shared state.threads thread with
      | .isTrue _ => some { state with threads := state.threads ++ [thread] }
      | .isFalse _ => some state
  | .advance t input =>
      state.threads[t]?.bind fun thread =>
        (program.statement state.shared thread input).map fun (shared, next) =>
          ⟨shared, state.threads.set t next⟩

/-- No thread is inside a section. -/
def AtRest (state : Threads Shared Local) : Prop :=
  ∀ thread ∈ state.threads, ¬ program.Inside thread

instance (state : Threads Shared Local) : Decidable (program.AtRest state) :=
  inferInstanceAs (Decidable (∀ thread ∈ state.threads, ¬ program.Inside thread))

/-- The statement of a thread outside of its sections leads into one. -/
def Enters (shared : Shared) (thread : Local) (input : Input) : Prop :=
  ¬ program.Inside thread ∧
    ∃ result ∈ program.statement shared thread input, program.Inside result.2

instance (shared : Shared) (thread : Local) (input : Input) :
    Decidable (program.Enters shared thread input) :=
  inferInstanceAs (Decidable (_ ∧ ∃ result ∈ program.statement shared thread input, _))

/-- A thread enters a section only while no thread is inside one. -/
def EntersAlone (state : Threads Shared Local) : Event Local Input → Prop
  | .start _ => True
  | .advance t input =>
      ∀ thread ∈ state.threads[t]?,
        program.Enters state.shared thread input → program.AtRest state

instance (state : Threads Shared Local) : DecidablePred (program.EntersAlone state)
  | .start _ => .isTrue trivial
  | .advance t input => inferInstanceAs (Decidable (∀ thread ∈ state.threads[t]?,
      program.Enters state.shared thread input → program.AtRest state))

/-- The call that a step begins, if it enters a section. -/
def calls (state : Threads Shared Local) : Event Local Input → List Call
  | .start _ => []
  | .advance t input =>
      match state.threads[t]? with
      | some thread =>
          if program.Enters state.shared thread input then [program.call thread] else []
      | none => []

/-- The shared state after the section under way. -/
def settled (state : Threads Shared Local) : Shared :=
  match state.threads.find? fun thread => program.Inside thread with
  | some thread => program.finish thread state.shared
  | none => state.shared

/-- The invariant: one thread at most is inside a section, and what it relies on holds. -/
structure Exclusive (state : Threads Shared Local) : Prop where
  single : ∀ (t other : Nat) (thread another : Local), state.threads[t]? = some thread →
    state.threads[other]? = some another → program.Inside thread → program.Inside another →
    t = other
  holds : ∀ thread ∈ state.threads, program.Inside thread → program.Holds thread state.shared

variable {program} {state next : Threads Shared Local}

/-- At rest the settled state is the shared state. -/
theorem AtRest.settled (rest : program.AtRest state) :
    program.settled state = state.shared := by
  have none : state.threads.find? (fun thread => program.Inside thread) = none := by
    apply List.find?_eq_none.mpr
    intro thread member
    simpa using rest thread member
  rw [Program.settled, none]

/-- Otherwise the one thread inside a section settles it. -/
theorem Exclusive.settled (exclusive : program.Exclusive state) {t : Nat} {thread : Local}
    (present : state.threads[t]? = some thread) (inside : program.Inside thread) :
    program.settled state = program.finish thread state.shared := by
  cases found : state.threads.find? fun thread => program.Inside thread with
  | none =>
    have outside := List.find?_eq_none.mp found thread (List.mem_of_getElem? present)
    exact absurd inside (by simpa using outside)
  | some another =>
    obtain ⟨other, read⟩ := List.getElem?_of_mem (List.mem_of_find?_eq_some found)
    have insideToo : program.Inside another := by simpa using List.find?_some found
    obtain rfl := exclusive.single t other thread another present read inside insideToo
    obtain rfl := Option.some.inj (present.symm.trans read)
    rw [Program.settled, found]

/-- Either no thread is inside a section, or one is. -/
theorem rest_or_inside (program : Program Shared Local Input Call)
    (state : Threads Shared Local) :
    program.AtRest state ∨ ∃ (t : Nat) (thread : Local),
      state.threads[t]? = some thread ∧ program.Inside thread := by
  by_cases rest : program.AtRest state
  · exact .inl rest
  · simp only [AtRest, not_forall, not_not] at rest
    obtain ⟨thread, member, inside⟩ := rest
    obtain ⟨t, read⟩ := List.getElem?_of_mem member
    exact .inr ⟨t, thread, read, inside⟩

/-- The kinds of steps: a thread that is started or not, and a statement. -/
inductive Move (program : Program Shared Local Input Call) (state : Threads Shared Local) :
    Event Local Input → Threads Shared Local → Prop
  | starts {thread : Local} (admits : program.Admits state.shared state.threads thread) :
      Move program state (.start thread) { state with threads := state.threads ++ [thread] }
  | refuses (thread : Local) : Move program state (.start thread) state
  | statement {t : Nat} {input : Input} {thread after : Local} {shared : Shared}
      (present : state.threads[t]? = some thread)
      (done : program.statement state.shared thread input = some (shared, after)) :
      Move program state (.advance t input) ⟨shared, state.threads.set t after⟩

/-- Every step is one of these moves. -/
theorem move_of_step {event : Event Local Input} (stepped : program.step state event = some next) :
    Move program state event next := by
  cases event with
  | start thread =>
    rw [step] at stepped
    split at stepped
    case h_1 admits _ =>
      obtain rfl := Option.some.inj stepped
      exact .starts admits
    case h_2 =>
      obtain rfl := Option.some.inj stepped
      exact .refuses thread
  | advance t input =>
    obtain ⟨thread, present, continued⟩ := Option.bind_eq_some_iff.mp stepped
    obtain ⟨⟨shared, after⟩, done, rfl⟩ := Option.map_eq_some_iff.mp continued
    exact .statement present done

/-- What is inside a section after a new thread was started was so before. -/
theorem Exclusive.start (exclusive : program.Exclusive state) {thread : Local}
    (outside : ¬ program.Inside thread) :
    program.Exclusive { state with threads := state.threads ++ [thread] } ∧
      program.settled { state with threads := state.threads ++ [thread] } =
        program.settled state := by
  have old : ∀ (t : Nat) (other : Local), (state.threads ++ [thread])[t]? = some other →
      program.Inside other → state.threads[t]? = some other := by
    intro t other found inside
    rcases MemberUpdate.read_concat_cases found with ⟨_, rfl⟩ | before
    · exact absurd inside outside
    · exact before
  have kept : program.Exclusive { state with threads := state.threads ++ [thread] } := by
    constructor
    · intro t other first second found foundToo inside insideToo
      exact exclusive.single t other first second (old t first found inside)
        (old other second foundToo insideToo) inside insideToo
    · intro other member inside
      obtain ⟨t, found⟩ := List.getElem?_of_mem member
      exact exclusive.holds other (List.mem_of_getElem? (old t other found inside)) inside
  refine ⟨kept, ?_⟩
  rcases rest_or_inside program state with rest | ⟨t, other, read, inside⟩
  · have restToo : program.AtRest { state with threads := state.threads ++ [thread] } := by
      intro other member inside
      obtain ⟨t, found⟩ := List.getElem?_of_mem member
      exact rest other (List.mem_of_getElem? (old t other found inside)) inside
    rw [rest.settled, restToo.settled]
  · have inFront : (state.threads ++ [thread])[t]? = some other := by
      rw [List.getElem?_append_left (List.getElem?_eq_some_iff.mp read).1]
      exact read
    rw [exclusive.settled read inside, kept.settled inFront inside]

section Statement

variable {t : Nat} {input : Input} {thread after : Local} {shared : Shared}

/-- A statement outside of sections. -/
theorem Exclusive.pass (exclusive : program.Exclusive state)
    (present : state.threads[t]? = some thread)
    (done : program.statement state.shared thread input = some (shared, after))
    (outside : ¬ program.Inside thread) (outsideToo : ¬ program.Inside after) :
    program.Exclusive ⟨shared, state.threads.set t after⟩ ∧
      program.settled ⟨shared, state.threads.set t after⟩ = program.settled state := by
  obtain rfl := program.passes done outside outsideToo
  have old : ∀ (i : Nat) (other : Local), (state.threads.set t after)[i]? = some other →
      program.Inside other → state.threads[i]? = some other := by
    intro i other found inside
    rcases MemberUpdate.read_set_cases found with ⟨_, rfl⟩ | ⟨_, before⟩
    · exact absurd inside outsideToo
    · exact before
  have kept : program.Exclusive ⟨state.shared, state.threads.set t after⟩ := by
    constructor
    · intro i j first second found foundToo inside insideToo
      exact exclusive.single i j first second (old i first found inside)
        (old j second foundToo insideToo) inside insideToo
    · intro other member inside
      obtain ⟨i, found⟩ := List.getElem?_of_mem member
      exact exclusive.holds other (List.mem_of_getElem? (old i other found inside)) inside
  refine ⟨kept, ?_⟩
  rcases rest_or_inside program state with rest | ⟨i, other, read, inside⟩
  · have restToo : program.AtRest ⟨state.shared, state.threads.set t after⟩ :=
      MemberUpdate.forall_mem_set rest outsideToo
    rw [rest.settled, restToo.settled]
  · have elsewhere : t ≠ i := by
      rintro rfl
      exact outside (Option.some.inj (present.symm.trans read) ▸ inside)
    have readToo : (state.threads.set t after)[i]? = some other := by
      rw [List.getElem?_set_ne elsewhere]
      exact read
    rw [exclusive.settled read inside, kept.settled readToo inside]

/-- A thread enters a section alone. -/
theorem exclusive_enter (rest : program.AtRest state)
    (present : state.threads[t]? = some thread)
    (done : program.statement state.shared thread input = some (shared, after))
    (inside : program.Inside after) :
    program.Exclusive ⟨shared, state.threads.set t after⟩ ∧
      program.settled ⟨shared, state.threads.set t after⟩ =
        program.perform (program.settled state) (program.call thread) := by
  have outside := rest thread (List.mem_of_getElem? present)
  obtain ⟨holds, finished⟩ := program.enters done outside inside
  have alone : ∀ (i : Nat) (other : Local), (state.threads.set t after)[i]? = some other →
      program.Inside other → i = t ∧ other = after := by
    intro i other found insideToo
    rcases MemberUpdate.read_set_cases found with new | ⟨_, before⟩
    · exact new
    · exact absurd insideToo (rest other (List.mem_of_getElem? before))
  have kept : program.Exclusive ⟨shared, state.threads.set t after⟩ := by
    constructor
    · intro i j first second found foundToo insideFirst insideSecond
      exact (alone i first found insideFirst).1.trans (alone j second foundToo insideSecond).1.symm
    · intro other member insideToo
      obtain ⟨i, found⟩ := List.getElem?_of_mem member
      exact (alone i other found insideToo).2 ▸ holds
  refine ⟨kept, ?_⟩
  have read : (state.threads.set t after)[t]? = some after :=
    List.getElem?_set_self (List.getElem?_eq_some_iff.mp present).1
  rw [kept.settled read inside, rest.settled]
  exact finished

/-- A statement inside a section. -/
theorem Exclusive.continue (exclusive : program.Exclusive state)
    (present : state.threads[t]? = some thread)
    (done : program.statement state.shared thread input = some (shared, after))
    (inside : program.Inside thread) (insideToo : program.Inside after) :
    program.Exclusive ⟨shared, state.threads.set t after⟩ ∧
      program.settled ⟨shared, state.threads.set t after⟩ = program.settled state := by
  have held := exclusive.holds thread (List.mem_of_getElem? present) inside
  obtain ⟨holds, finished⟩ := program.continues done inside insideToo held
  have alone : ∀ (i : Nat) (other : Local), (state.threads.set t after)[i]? = some other →
      program.Inside other → i = t ∧ other = after := by
    intro i other found insideOther
    rcases MemberUpdate.read_set_cases found with new | ⟨elsewhere, before⟩
    · exact new
    · exact absurd (exclusive.single i t other thread before present insideOther inside) elsewhere
  have kept : program.Exclusive ⟨shared, state.threads.set t after⟩ := by
    constructor
    · intro i j first second found foundToo insideFirst insideSecond
      exact (alone i first found insideFirst).1.trans (alone j second foundToo insideSecond).1.symm
    · intro other member insideOther
      obtain ⟨i, found⟩ := List.getElem?_of_mem member
      exact (alone i other found insideOther).2 ▸ holds
  refine ⟨kept, ?_⟩
  have read : (state.threads.set t after)[t]? = some after :=
    List.getElem?_set_self (List.getElem?_eq_some_iff.mp present).1
  rw [kept.settled read insideToo, exclusive.settled present inside]
  exact finished

/-- The last statement of a section. -/
theorem Exclusive.leave (exclusive : program.Exclusive state)
    (present : state.threads[t]? = some thread)
    (done : program.statement state.shared thread input = some (shared, after))
    (inside : program.Inside thread) (outside : ¬ program.Inside after) :
    program.AtRest ⟨shared, state.threads.set t after⟩ ∧
      shared = program.settled state := by
  constructor
  · intro other member insideOther
    obtain ⟨i, found⟩ := List.getElem?_of_mem member
    rcases MemberUpdate.read_set_cases found with ⟨_, rfl⟩ | ⟨elsewhere, before⟩
    · exact outside insideOther
    · exact elsewhere (exclusive.single i t other thread before present insideOther inside)
  · rw [exclusive.settled present inside]
    exact program.leaves done inside outside
      (exclusive.holds thread (List.mem_of_getElem? present) inside)

end Statement

/-- A state at rest is exclusive. -/
theorem AtRest.exclusive (rest : program.AtRest state) : program.Exclusive state := by
  constructor
  · intro t _ thread _ present _ inside
    exact absurd inside (rest thread (List.mem_of_getElem? present))
  · intro thread member inside
    exact absurd inside (rest thread member)

/-- A statement enters a section if it leads from outside to inside. -/
theorem enters_iff {shared : Shared} {thread : Local} {input : Input} {result : Shared × Local}
    (done : program.statement shared thread input = some result) :
    program.Enters shared thread input ↔
      ¬ program.Inside thread ∧ program.Inside result.2 := by
  simp [Enters, done]

/-- In a state that is exclusive, a step that enters a section only alone keeps it so. It
settles the call that it begins; no other step changes the settled state. -/
theorem Exclusive.step (exclusive : program.Exclusive state) {event : Event Local Input}
    (alone : program.EntersAlone state event) (stepped : program.step state event = some next) :
    program.Exclusive next ∧
      program.settled next =
        (program.calls state event).foldl program.perform (program.settled state) := by
  cases move_of_step stepped with
  | starts admits => exact exclusive.start (program.admitted admits)
  | refuses thread => exact ⟨exclusive, rfl⟩
  | statement present done =>
    rename_i t input thread after shared
    have enters := enters_iff done
    simp only [calls, present]
    by_cases inside : program.Inside thread
    · rw [if_neg fun entered => (enters.mp entered).1 inside]
      by_cases insideToo : program.Inside after
      · exact exclusive.continue present done inside insideToo
      · obtain ⟨rest, same⟩ := exclusive.leave present done inside insideToo
        exact ⟨rest.exclusive, rest.settled.trans same⟩
    · by_cases insideToo : program.Inside after
      · have entered := enters.mpr ⟨inside, insideToo⟩
        rw [if_pos entered]
        exact exclusive_enter (alone thread present entered) present done insideToo
      · rw [if_neg fun entered => insideToo (enters.mp entered).2]
        exact exclusive.pass present done inside insideToo

variable {start final : Threads Shared Local} {events : List (Event Local Input)}

/-- In runs whose sections are entered alone these are atomic: the settled state is that of the
calls, one after another. -/
theorem settled_run (rest : program.AtRest start)
    (alone : TransitionSystem.Meets program.step program.EntersAlone start events)
    (ran : TransitionSystem.run program.step start events = some final) :
    program.settled final =
      (TransitionSystem.emitted program.calls program.step start events).foldl program.perform
        start.shared := by
  have performed : TransitionSystem.run
      (fun shared call => some (program.perform shared call)) (program.settled start)
      (TransitionSystem.emitted program.calls program.step start events) =
        some (program.settled final) := by
    refine TransitionSystem.emitted_run program.settled program.Exclusive ?_ rest.exclusive
      alone ran
    intro state event next exclusive alone stepped
    obtain ⟨kept, same⟩ := exclusive.step alone stepped
    rw [TransitionSystem.run_total, same]
    exact ⟨rfl, kept⟩
  rw [TransitionSystem.run_total, rest.settled] at performed
  exact (Option.some.inj performed).symm

end Program

end ExclusiveSections
