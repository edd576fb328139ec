import HelperChat.EncDec
import HelperChat.MemberUpdate
import HelperChat.Transition
import Mathlib.Data.List.Count
import Mathlib.Data.List.Nodup

/-!
# The argument of the client threads

The accept loop of `main` in `2_server.c` hands every new thread the address of its one
variable `client_socket`, and a thread reads the socket through this address in its
first step. Whether it reads its own socket depends on the next `accept`, which
overwrites the variable.

Every socket that a thread was started for is taken by exactly one thread exactly if
each `accept` comes after the reads of all threads started before it.
-/

namespace HelperChat

/-- The accept loop and its threads. The main thread is either at `accept` or, with a new
socket in its variable, at the capacity check. The code does not keep the last three
fields: the sockets accepted so far, those a thread was started for, and what each
started thread has read. -/
structure AcceptLoop where
  client_socket : Int
  checking : Bool
  accepted : List Int
  started : List Int
  taken : List (Option Int)
deriving DecidableEq

/-- `accept` returns, the count is compared with the capacity, or the thread at a position
reads its argument. -/
inductive AcceptEvent where
  | accept (socket : Int)
  | check (currentClientCount : Int)
  | readArgument (thread : Nat)
deriving DecidableEq

/-- One step of the main thread or of a started thread. The accepted sockets have distinct
numbers; the count at a check is whatever the client threads have made of it. -/
def acceptStep (state : AcceptLoop) : AcceptEvent → Option AcceptLoop
  | .accept socket =>
      if state.checking ∨ socket ∈ state.accepted then none
      else some { state with
        client_socket := socket
        checking := true
        accepted := state.accepted ++ [socket] }
  | .check currentClientCount =>
      if state.checking then
        if currentClientCount < maximumConnectedClients then
          some { state with
            checking := false
            started := state.started ++ [state.client_socket]
            taken := state.taken ++ [none] }
        else some { state with checking := false }
      else none
  | .readArgument thread =>
      match state.taken[thread]? with
      | some none =>
          some { state with taken := state.taken.set thread (some state.client_socket) }
      | _ => none

/-- The loop before the first connection; the variable is not initialised. -/
def startAccepting (client_socket : Int) : AcceptLoop := ⟨client_socket, false, [], [], []⟩

/-- Each socket with a thread started for it has been taken by exactly one thread. -/
def ServedOnce (state : AcceptLoop) : Prop :=
  ∀ socket ∈ state.started, state.taken.count (some socket) = 1

instance (state : AcceptLoop) : Decidable (ServedOnce state) :=
  inferInstanceAs (Decidable (∀ socket ∈ state.started, _))

/-- All started threads have read their argument. -/
def AllRead (state : AcceptLoop) : Prop := none ∉ state.taken

instance (state : AcceptLoop) : Decidable (AllRead state) :=
  inferInstanceAs (Decidable (none ∉ state.taken))

/-- A connection is accepted only when all started threads have read their argument. -/
def AcceptsAfterReads (state : AcceptLoop) : AcceptEvent → Prop
  | .accept _ => AllRead state
  | _ => True

instance (state : AcceptLoop) (event : AcceptEvent) :
    Decidable (AcceptsAfterReads state event) := by
  cases event <;> unfold AcceptsAfterReads <;> infer_instance

/-- What every run keeps about the numbers: sockets are started once, after they were
accepted, and the one at the check has no thread yet. -/
structure Numbered (state : AcceptLoop) : Prop where
  distinct : state.started.Nodup
  accepted : ∀ socket ∈ state.started, socket ∈ state.accepted
  current : state.checking = true →
    state.client_socket ∈ state.accepted ∧ state.client_socket ∉ state.started

/-- The threads that have read took their own sockets; a thread that has not is the one
started last, and its socket is still in the variable. -/
def OwnArguments (state : AcceptLoop) : Prop :=
  state.taken = state.started.map some ∨
    ∃ before, state.started = before ++ [state.client_socket] ∧
      state.taken = before.map some ++ [none] ∧ state.checking = false

/-- The steps of the main thread and of a started thread. -/
inductive AcceptMove (state : AcceptLoop) : AcceptEvent → AcceptLoop → Prop
  | accepts (socket : Int) (fresh : socket ∉ state.accepted) :
      AcceptMove state (.accept socket)
        { state with
          client_socket := socket
          checking := true
          accepted := state.accepted ++ [socket] }
  | starts (currentClientCount : Int) (checking : state.checking = true) :
      AcceptMove state (.check currentClientCount)
        { state with
          checking := false
          started := state.started ++ [state.client_socket]
          taken := state.taken ++ [none] }
  | refuses (currentClientCount : Int) (checking : state.checking = true) :
      AcceptMove state (.check currentClientCount) { state with checking := false }
  | reads (thread : Nat) (waiting : state.taken[thread]? = some none) :
      AcceptMove state (.readArgument thread)
        { state with taken := state.taken.set thread (some state.client_socket) }

/-- Every computed step is one of these. -/
theorem accept_move {state next : AcceptLoop} {event : AcceptEvent}
    (stepped : acceptStep state event = some next) : AcceptMove state event next := by
  cases event with
  | accept socket =>
    simp only [acceptStep, Option.ite_none_left_eq_some, Option.some.injEq, not_or] at stepped
    obtain ⟨⟨_, fresh⟩, rfl⟩ := stepped
    exact .accepts socket fresh
  | check currentClientCount =>
    simp only [acceptStep, Option.ite_none_right_eq_some] at stepped
    obtain ⟨checking, stepped⟩ := stepped
    split at stepped
    case isTrue =>
      obtain rfl := Option.some.inj stepped
      exact .starts currentClientCount checking
    case isFalse =>
      obtain rfl := Option.some.inj stepped
      exact .refuses currentClientCount checking
  | readArgument thread =>
    simp only [acceptStep] at stepped
    split at stepped
    case h_2 => cases stepped
    case h_1 waiting =>
      obtain rfl := Option.some.inj stepped
      exact .reads thread waiting

/-- Every step keeps the numbers in order. -/
theorem Numbered.step {state next : AcceptLoop} {event : AcceptEvent} (numbered : Numbered state)
    (stepped : acceptStep state event = some next) : Numbered next := by
  cases accept_move stepped with
  | accepts socket fresh =>
    refine ⟨numbered.distinct, ?_, ?_⟩
    · intro other member
      exact List.mem_append_left _ (numbered.accepted other member)
    · intro _
      constructor
      · simp
      · intro member
        exact fresh (numbered.accepted socket member)
  | starts _ checking =>
    obtain ⟨isAccepted, notStarted⟩ := numbered.current checking
    refine ⟨?_, ?_, by simp⟩
    · apply List.nodup_append.mpr
      refine ⟨numbered.distinct, by simp, ?_⟩
      rintro other member last new rfl
      rw [List.mem_singleton.mp new] at member
      exact notStarted member
    · intro other member
      rcases List.mem_append.mp member with old | new
      · exact numbered.accepted other old
      · rw [List.mem_singleton.mp new]
        exact isAccepted
  | refuses => exact ⟨numbered.distinct, numbered.accepted, by simp⟩
  | reads => exact ⟨numbered.distinct, numbered.accepted, numbered.current⟩

/-- A step that waits for the reads keeps every thread's own argument. -/
theorem OwnArguments.step {state next : AcceptLoop} {event : AcceptEvent}
    (own : OwnArguments state) (waits : AcceptsAfterReads state event)
    (stepped : acceptStep state event = some next) : OwnArguments next := by
  cases accept_move stepped with
  | accepts =>
    rcases own with all | ⟨before, _, unread, _⟩
    · exact .inl all
    · exact absurd waits (by simp [AcceptsAfterReads, AllRead, unread])
  | starts _ checking =>
    rcases own with all | ⟨_, _, _, atAccept⟩
    · exact .inr ⟨state.started, rfl, by simp [all], rfl⟩
    · simp [checking] at atAccept
  | refuses _ checking =>
    rcases own with all | ⟨_, _, _, atAccept⟩
    · exact .inl all
    · simp [checking] at atAccept
  | reads thread waiting =>
    rcases own with all | ⟨before, started, unread, atAccept⟩
    · simp [all] at waiting
    · have last : thread = before.length := by
        rw [unread] at waiting
        rcases MemberUpdate.read_concat_cases waiting with ⟨here, _⟩ | earlier
        · simpa using here
        · simp at earlier
      left
      change state.taken.set thread (some state.client_socket) = state.started.map some
      rw [unread, started, last]
      simp

/-- A started socket that no thread has taken and none can take any more. -/
structure Lost (socket : Int) (state : AcceptLoop) : Prop where
  started : socket ∈ state.started
  accepted : socket ∈ state.accepted
  untaken : some socket ∉ state.taken
  overwritten : state.client_socket ≠ socket

/-- A lost socket stays lost. -/
theorem Lost.step {socket : Int} {state next : AcceptLoop} {event : AcceptEvent}
    (lost : Lost socket state) (stepped : acceptStep state event = some next) :
    Lost socket next := by
  cases accept_move stepped with
  | accepts other fresh =>
    refine ⟨lost.started, List.mem_append_left _ lost.accepted, lost.untaken, ?_⟩
    rintro rfl
    exact fresh lost.accepted
  | starts =>
    exact ⟨List.mem_append_left _ lost.started, lost.accepted, by simpa using lost.untaken,
      lost.overwritten⟩
  | refuses => exact ⟨lost.started, lost.accepted, lost.untaken, lost.overwritten⟩
  | reads =>
    refine ⟨lost.started, lost.accepted, ?_, lost.overwritten⟩
    intro member
    rcases List.mem_or_eq_of_mem_set member with old | new
    · exact lost.untaken old
    · exact lost.overwritten (Option.some.inj new).symm

/-- An `accept` before the last thread's read loses this thread's socket. -/
theorem early_accept_loses {state next : AcceptLoop} {event : AcceptEvent}
    (numbered : Numbered state) (own : OwnArguments state)
    (early : ¬ AcceptsAfterReads state event) (stepped : acceptStep state event = some next) :
    ∃ socket, Lost socket next := by
  cases accept_move stepped with
  | starts | refuses | reads => exact absurd trivial early
  | accepts socket fresh =>
    rcases own with all | ⟨before, started, unread, _⟩
    · exact absurd (by simp [AcceptsAfterReads, AllRead, all]) early
    · have member : state.client_socket ∈ state.started := by simp [started]
      have isAccepted := numbered.accepted _ member
      refine ⟨state.client_socket, member, List.mem_append_left _ isAccepted, ?_, ?_⟩
      · -- the threads before took other sockets
        have distinct := numbered.distinct
        rw [started, List.nodup_append] at distinct
        change some state.client_socket ∉ state.taken
        rw [unread]
        intro taken
        have among : state.client_socket ∈ before := by simpa using taken
        exact distinct.2.2 _ among _ (List.mem_singleton_self _) rfl
      · rintro rfl
        exact fresh isAccepted

/-- Before the first connection all numbers are in order. -/
theorem start_numbered (client_socket : Int) : Numbered (startAccepting client_socket) where
  distinct := List.nodup_nil
  accepted := by simp [startAccepting]
  current := by simp [startAccepting]

/-- In a run after which all threads have read their argument, every socket with a thread
started for it is taken by exactly one thread, exactly if every connection is accepted
after the reads of all threads started before. -/
theorem served_once_iff (client_socket : Int) (events : List AcceptEvent) (state : AcceptLoop)
    (ran : TransitionSystem.run acceptStep (startAccepting client_socket) events = some state)
    (allRead : AllRead state) :
    ServedOnce state ↔
      TransitionSystem.Meets acceptStep AcceptsAfterReads (startAccepting client_socket)
        events := by
  have numbers : ∀ {events state},
      TransitionSystem.run acceptStep (startAccepting client_socket) events = some state →
        Numbered state := fun ran =>
    TransitionSystem.run_preserves Numbered (fun _ _ _ before stepped => before.step stepped)
      (start_numbered client_socket) ran
  have arguments : ∀ {events state},
      TransitionSystem.run acceptStep (startAccepting client_socket) events = some state →
      TransitionSystem.Meets acceptStep AcceptsAfterReads (startAccepting client_socket) events →
        OwnArguments state := fun ran waits =>
    TransitionSystem.guarded_run_preserves OwnArguments
      (fun _ _ _ before waited stepped => before.step waited stepped) (.inl rfl) waits ran
  constructor
  · intro served
    by_contra early
    obtain ⟨socket, lost⟩ : ∃ socket, Lost socket state := by
      refine TransitionSystem.spoiled_of_violation (fun state => ∃ socket, Lost socket state)
        ?_ ran ?_ early
      · rintro _ _ _ ⟨socket, old⟩ stepped
        exact ⟨socket, old.step stepped⟩
      · intro before middle event next reached waited failed taken
        exact early_accept_loses (numbers reached) (arguments reached waited) failed taken
    have once := served socket lost.started
    rw [List.count_eq_zero.mpr lost.untaken] at once
    exact absurd once (by decide)
  · intro waits socket member
    have distinct := (numbers ran).distinct
    rcases arguments ran waits with all | ⟨before, _, unread, _⟩
    · rw [all, List.count_map_of_injective _ _ (Option.some_injective _)]
      exact List.count_eq_one_of_mem distinct member
    · exact absurd allRead (by simp [AllRead, unread])

/-- The second connection is accepted before the first thread's read, and both threads
take the second socket. -/
theorem socket_overwritten_before_read :
    ¬ ∀ client_socket events state,
      TransitionSystem.run acceptStep (startAccepting client_socket) events = some state →
      AllRead state → ServedOnce state := by
  intro always
  have served := always 0
    [.accept 4, .check 0, .accept 5, .check 0, .readArgument 0, .readArgument 1] _ rfl (by decide)
  exact absurd served (by decide)

/-- Each thread reads before the next connection, of which the last one is refused. -/
def timelyEvents : List AcceptEvent :=
  [.accept 4, .check 0, .readArgument 0, .accept 5, .check 1, .readArgument 1, .accept 6, .check 6]

/-- Both started threads take their own sockets. -/
theorem sockets_read_in_time :
    ∃ state, TransitionSystem.run acceptStep (startAccepting 0) timelyEvents = some state ∧
      state.started = [4, 5] ∧ ServedOnce state :=
  ⟨_, rfl, rfl, (served_once_iff 0 timelyEvents _ rfl (by decide)).mpr (by decide)⟩

end HelperChat
