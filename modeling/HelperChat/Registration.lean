import HelperChat.ClientTable
import HelperChat.MemberUpdate
import HelperChat.Transition
import Mathlib.Data.List.Nodup

/-!
# Concurrent registrations

The two statements by which a client thread of `2_server.c` registers: the write of its
client to the slot at the count, and the increment of the count. Each of them is one
step, and other threads' steps can come between.

No registration is lost exactly if every write comes while no other thread is between
its write and its increment. A write at any other time overwrites the client of the
other thread.
-/

namespace HelperChat

universe u
variable {Entry : Type u}

/-- Where a registering thread stands: before its write, between the two statements, or
behind them. -/
inductive RegistrationPhase where
  | toWrite
  | toIncrement
  | done
deriving DecidableEq

/-- The table and the registering threads, each with its client. -/
structure Registering (Entry : Type u) where
  table : ClientTable Entry
  threads : List (Entry × RegistrationPhase)
deriving DecidableEq

/-- The next statement of the thread at a position. -/
def registrationStep (state : Registering Entry) (t : Nat) : Option (Registering Entry) :=
  match state.threads[t]? with
  | some (newBoi, .toWrite) =>
      some ⟨state.table.writeSlot newBoi, state.threads.set t (newBoi, .toIncrement)⟩
  | some (newBoi, .toIncrement) =>
      some ⟨state.table.incrementCount, state.threads.set t (newBoi, .done)⟩
  | _ => none

/-- The clients about to register in a table. -/
def startRegistering (table : ClientTable Entry) (newBois : List Entry) : Registering Entry :=
  ⟨table, newBois.map fun newBoi => (newBoi, .toWrite)⟩

/-- All threads have registered. -/
def AllRegistered (state : Registering Entry) : Prop :=
  ∀ thread ∈ state.threads, thread.2 = .done

instance (state : Registering Entry) : Decidable (AllRegistered state) :=
  inferInstanceAs (Decidable (∀ thread ∈ state.threads, thread.2 = .done))

/-- The count is the number of the clients, and each is registered exactly once. -/
def NoneLost [DecidableEq Entry] (newBois : List Entry) (state : Registering Entry) : Prop :=
  state.table.currentClientCount = newBois.length ∧
    ∀ newBoi ∈ newBois, state.table.registered.count newBoi = 1

instance [DecidableEq Entry] (newBois : List Entry) (state : Registering Entry) :
    Decidable (NoneLost newBois state) :=
  inferInstanceAs (Decidable (_ ∧ ∀ newBoi ∈ newBois, _))

/-- A thread writes only while no other thread is between its two statements. -/
def WritesAlone (state : Registering Entry) (t : Nat) : Prop :=
  state.threads[t]?.map Prod.snd = some .toWrite →
    ∀ thread ∈ state.threads, thread.2 ≠ .toIncrement

instance (state : Registering Entry) (t : Nat) : Decidable (WritesAlone state t) :=
  inferInstanceAs (Decidable (_ → ∀ thread ∈ state.threads, _))

/-- The client of a thread that has registered. -/
def settled (thread : Entry × RegistrationPhase) : List Entry :=
  match thread.2 with
  | .done => [thread.1]
  | .toWrite | .toIncrement => []

/-- What every run keeps: the clients of the threads, the length of the array, and the
count as the number of finished threads. -/
structure Counted (newBois : List Entry) (state : Registering Entry) : Prop where
  clients : state.threads.map Prod.fst = newBois
  allocated : state.table.clients.length = maximumConnectedClients
  count : state.table.currentClientCount = (state.threads.flatMap settled).length

/-- What runs with exclusive writes keep: the registered entries are the clients of the
finished threads, and the slot behind them holds the client of the one thread between
its statements. -/
structure Exclusive (state : Registering Entry) : Prop where
  registered : state.table.registered.Perm (state.threads.flatMap settled)
  single : ∀ (i j : Nat) (first second : Entry),
    state.threads[i]? = some (first, RegistrationPhase.toIncrement) →
    state.threads[j]? = some (second, RegistrationPhase.toIncrement) → i = j
  held : ∀ (j : Nat) (newBoi : Entry),
    state.threads[j]? = some (newBoi, RegistrationPhase.toIncrement) →
    state.table.clients[state.table.currentClientCount.toNat]? = some newBoi

/-- Each thread counts once at most. -/
theorem settled_length_le (thread : Entry × RegistrationPhase) : (settled thread).length ≤ 1 := by
  obtain ⟨newBoi, phase⟩ := thread
  cases phase <;> simp [settled]

/-- While a thread is not finished, the finished threads are fewer than all. -/
theorem settled_length_lt {threads : List (Entry × RegistrationPhase)} {t : Nat}
    {newBoi : Entry} {phase : RegistrationPhase} (present : threads[t]? = some (newBoi, phase))
    (unfinished : settled (newBoi, phase) = []) :
    (threads.flatMap settled).length < threads.length := by
  have exchanged := (MemberUpdate.flatMap_set_perm settled threads t (newBoi, phase)
    (newBoi, .done) present).length_eq
  have bounded := MemberUpdate.flatMap_length_le settled (threads.set t (newBoi, .done))
    settled_length_le
  rw [unfinished] at exchanged
  simp only [List.length_append, List.length_nil, settled, List.length_singleton,
    List.length_set] at exchanged bounded
  omega

/-- The two kinds of steps. -/
theorem registration_cases {state next : Registering Entry} {t : Nat}
    (stepped : registrationStep state t = some next) :
    (∃ newBoi, state.threads[t]? = some (newBoi, .toWrite) ∧
      next = ⟨state.table.writeSlot newBoi, state.threads.set t (newBoi, .toIncrement)⟩) ∨
    ∃ newBoi, state.threads[t]? = some (newBoi, .toIncrement) ∧
      next = ⟨state.table.incrementCount, state.threads.set t (newBoi, .done)⟩ := by
  unfold registrationStep at stepped
  split at stepped
  case h_1 newBoi present => exact .inl ⟨newBoi, present, (Option.some.inj stepped).symm⟩
  case h_2 newBoi present => exact .inr ⟨newBoi, present, (Option.some.inj stepped).symm⟩
  case h_3 => simp at stepped

/-- Every step keeps the count in step with the finished threads. -/
theorem Counted.step {newBois : List Entry} {state next : Registering Entry} {t : Nat}
    (counted : Counted newBois state) (stepped : registrationStep state t = some next) :
    Counted newBois next := by
  rcases registration_cases stepped with ⟨newBoi, present, rfl⟩ | ⟨newBoi, present, rfl⟩
  · have exchanged := (MemberUpdate.flatMap_set_perm settled state.threads t _
      (newBoi, .toIncrement) present).length_eq
    refine ⟨?_, ?_, ?_⟩
    · exact (MemberUpdate.map_set_same Prod.fst state.threads t (newBoi, .toWrite)
        (newBoi, .toIncrement) present rfl).trans counted.clients
    · have nonnegative : 0 ≤ state.table.currentClientCount := by
        rw [counted.count]
        exact Int.natCast_nonneg _
      simpa [ClientTable.writeSlot, nonnegative] using counted.allocated
    · simp only [settled, List.append_nil] at exchanged
      rw [exchanged]
      exact counted.count
  · have exchanged := (MemberUpdate.flatMap_set_perm settled state.threads t _
      (newBoi, .done) present).length_eq
    refine ⟨?_, counted.allocated, ?_⟩
    · exact (MemberUpdate.map_set_same Prod.fst state.threads t (newBoi, .toIncrement)
        (newBoi, .done) present rfl).trans counted.clients
    · simp only [settled, List.append_nil, List.length_append, List.length_singleton] at exchanged
      change state.table.currentClientCount + 1 = _
      rw [exchanged, counted.count]
      simp

/-- While a thread is not finished, the count is an index of the table. -/
theorem Counted.free {newBois : List Entry} {state : Registering Entry} {t : Nat} {newBoi : Entry}
    {phase : RegistrationPhase} (counted : Counted newBois state)
    (fit : newBois.length ≤ maximumConnectedClients)
    (present : state.threads[t]? = some (newBoi, phase))
    (unfinished : settled (newBoi, phase) = []) :
    0 ≤ state.table.currentClientCount ∧
      state.table.currentClientCount.toNat < state.table.clients.length := by
  have fewer := settled_length_lt present unfinished
  have threads := congrArg List.length counted.clients
  rw [List.length_map] at threads
  rw [counted.count, counted.allocated]
  omega

/-- An exclusive write keeps the registered entries and holds its own client. -/
theorem Exclusive.write {newBois : List Entry} {state : Registering Entry} {t : Nat}
    {newBoi : Entry} (counted : Counted newBois state)
    (fit : newBois.length ≤ maximumConnectedClients)
    (exclusive : Exclusive state) (alone : WritesAlone state t)
    (present : state.threads[t]? = some (newBoi, .toWrite)) :
    Exclusive ⟨state.table.writeSlot newBoi, state.threads.set t (newBoi, .toIncrement)⟩ := by
  obtain ⟨nonnegative, free⟩ := counted.free fit present rfl
  have exchanged := MemberUpdate.flatMap_set_perm settled state.threads t _
    (newBoi, .toIncrement) present
  simp only [settled, List.append_nil] at exchanged
  -- no other thread is between its statements
  have others : ∀ (i : Nat) (other : Entry),
      (state.threads.set t (newBoi, .toIncrement))[i]? =
        some (other, RegistrationPhase.toIncrement) → i = t ∧ other = newBoi := by
    intro i other found
    rcases MemberUpdate.read_set_cases found with ⟨here, same⟩ | ⟨_, old⟩
    · exact ⟨here, congrArg Prod.fst same⟩
    · exact absurd rfl (alone (by simp [present]) _ (List.mem_of_getElem? old))
  refine ⟨?_, ?_, ?_⟩
  · rw [ClientTable.registered_write_slot]
    exact exclusive.registered.trans exchanged.symm
  · intro i j first second foundFirst foundSecond
    exact (others i first foundFirst).1.trans (others j second foundSecond).1.symm
  · intro j other found
    obtain ⟨_, rfl⟩ := others j other found
    simp [ClientTable.writeSlot, nonnegative, free]

/-- The increment registers the client in the slot behind the registered entries. -/
theorem Exclusive.increment {newBois : List Entry} {state : Registering Entry} {t : Nat}
    {newBoi : Entry} (counted : Counted newBois state)
    (fit : newBois.length ≤ maximumConnectedClients)
    (exclusive : Exclusive state) (present : state.threads[t]? = some (newBoi, .toIncrement)) :
    Exclusive ⟨state.table.incrementCount, state.threads.set t (newBoi, .done)⟩ := by
  obtain ⟨nonnegative, free⟩ := counted.free fit present rfl
  have exchanged := MemberUpdate.flatMap_set_perm settled state.threads t _
    (newBoi, .done) present
  simp only [settled, List.append_nil] at exchanged
  have none : ∀ (i : Nat) (other : Entry),
      (state.threads.set t (newBoi, .done))[i]? ≠ some (other, RegistrationPhase.toIncrement) := by
    intro i other found
    rcases MemberUpdate.read_set_cases found with ⟨_, same⟩ | ⟨different, old⟩
    · simp at same
    · exact different (exclusive.single i t other newBoi old present)
  refine ⟨?_, ?_, ?_⟩
  · have count : (state.table.currentClientCount + 1).toNat =
        state.table.currentClientCount.toNat + 1 := by omega
    have appended : state.table.incrementCount.registered =
        state.table.registered ++ [newBoi] := by
      simp only [ClientTable.registered, ClientTable.incrementCount, count]
      rw [List.take_add_one, exclusive.held t newBoi present, Option.toList_some]
    rw [appended]
    exact (exclusive.registered.append_right [newBoi]).trans exchanged.symm
  · intro i j first second foundFirst
    exact absurd foundFirst (none i first)
  · intro j other found
    exact absurd found (none j other)

/-- Steps whose writes are exclusive keep them so. -/
theorem Exclusive.step {newBois : List Entry} {state next : Registering Entry} {t : Nat}
    (counted : Counted newBois state) (fit : newBois.length ≤ maximumConnectedClients)
    (exclusive : Exclusive state) (alone : WritesAlone state t)
    (stepped : registrationStep state t = some next) : Exclusive next := by
  rcases registration_cases stepped with ⟨newBoi, present, rfl⟩ | ⟨newBoi, present, rfl⟩
  · exact exclusive.write counted fit alone present
  · exact exclusive.increment counted fit present

/-- A registering client stands in the table only as a registered entry, or in the slot
behind them while its thread is between its statements. -/
def Placed (newBois : List Entry) (state : Registering Entry) : Prop :=
  ∀ (i : Nat) (client : Entry), state.table.clients[i]? = some client → client ∈ newBois →
    i < state.table.currentClientCount.toNat ∨
      i = state.table.currentClientCount.toNat ∧
        ∃ j : Nat, state.threads[j]? = some (client, RegistrationPhase.toIncrement)

/-- Every step keeps the clients placed. -/
theorem Placed.step {newBois : List Entry} {state next : Registering Entry} {t : Nat}
    (counted : Counted newBois state) (fit : newBois.length ≤ maximumConnectedClients)
    (placed : Placed newBois state) (stepped : registrationStep state t = some next) :
    Placed newBois next := by
  rcases registration_cases stepped with ⟨newBoi, present, rfl⟩ | ⟨newBoi, present, rfl⟩
  · obtain ⟨nonnegative, free⟩ := counted.free fit present rfl
    have inside : t < state.threads.length := (List.getElem?_eq_some_iff.mp present).1
    intro i client found among
    have slots : (state.table.clients.set state.table.currentClientCount.toNat newBoi)[i]? =
        some client := by
      simpa [ClientTable.writeSlot, nonnegative] using found
    rcases MemberUpdate.read_set_cases slots with ⟨here, rfl⟩ | ⟨elsewhere, old⟩
    · exact .inr ⟨here, t, List.getElem?_set_self inside⟩
    · rcases placed i client old among with before | ⟨at_, _⟩
      · exact .inl before
      · exact absurd at_ elsewhere
  · obtain ⟨nonnegative, _⟩ := counted.free fit present rfl
    have count : (state.table.currentClientCount + 1).toNat =
        state.table.currentClientCount.toNat + 1 := by omega
    intro i client found among
    left
    change i < (state.table.currentClientCount + 1).toNat
    rcases placed i client found among with before | ⟨at_, _⟩ <;> omega

/-- A client that has been written, but stands nowhere in the table. -/
structure Overwritten (client : Entry) (state : Registering Entry) : Prop where
  absent : client ∉ state.table.clients
  written : ∀ (t : Nat) (phase : RegistrationPhase),
    state.threads[t]? = some (client, phase) → phase ≠ .toWrite

/-- An overwritten client stays away. -/
theorem Overwritten.step {client : Entry} {state next : Registering Entry} {t : Nat}
    (overwritten : Overwritten client state) (stepped : registrationStep state t = some next) :
    Overwritten client next := by
  rcases registration_cases stepped with ⟨newBoi, present, rfl⟩ | ⟨newBoi, present, rfl⟩
  · constructor
    · intro member
      have cases : client ∈ state.table.clients ∨ client = newBoi := by
        by_cases nonnegative : 0 ≤ state.table.currentClientCount
        · simp only [ClientTable.writeSlot, nonnegative, if_true] at member
          exact List.mem_or_eq_of_mem_set member
        · simp only [ClientTable.writeSlot, nonnegative, if_false] at member
          exact .inl member
      rcases cases with old | rfl
      · exact overwritten.absent old
      · exact overwritten.written t .toWrite present rfl
    · intro i phase found
      rcases MemberUpdate.read_set_cases found with ⟨_, same⟩ | ⟨_, old⟩
      · simp [(Prod.mk.inj same).2]
      · exact overwritten.written i phase old
  · constructor
    · exact overwritten.absent
    · intro i phase found
      rcases MemberUpdate.read_set_cases found with ⟨_, same⟩ | ⟨_, old⟩
      · simp [(Prod.mk.inj same).2]
      · exact overwritten.written i phase old

/-- A client belongs to one thread, so it has one phase. -/
theorem Counted.same_phase {newBois : List Entry} {state : Registering Entry}
    (counted : Counted newBois state) (distinct : newBois.Nodup) {i j : Nat} {client : Entry}
    {first second : RegistrationPhase} (foundFirst : state.threads[i]? = some (client, first))
    (foundSecond : state.threads[j]? = some (client, second)) : first = second := by
  have atFirst : newBois[i]? = some client := by
    rw [← counted.clients, List.getElem?_map, foundFirst]
    rfl
  have atSecond : newBois[j]? = some client := by
    rw [← counted.clients, List.getElem?_map, foundSecond]
    rfl
  have inside : i < newBois.length := (List.getElem?_eq_some_iff.mp atFirst).1
  obtain rfl : i = j := (List.getElem?_inj inside distinct).mp (atFirst.trans atSecond.symm)
  exact (Prod.mk.inj (Option.some.inj (foundFirst.symm.trans foundSecond))).2

/-- A registered entry belongs to a finished thread. -/
theorem Exclusive.owner_done {state : Registering Entry} (exclusive : Exclusive state)
    {client : Entry} (registered : client ∈ state.table.registered) :
    ∃ j : Nat, state.threads[j]? = some (client, RegistrationPhase.done) := by
  have settledClient := exclusive.registered.mem_iff.mp registered
  obtain ⟨⟨owner, phase⟩, member, isSettled⟩ := List.mem_flatMap.mp settledClient
  cases phase with
  | toWrite | toIncrement => simp [settled] at isSettled
  | done =>
    obtain rfl : client = owner := by simpa [settled] using isSettled
    exact List.mem_iff_getElem?.mp member

/-- A write that is not alone overwrites the client of the other thread. -/
theorem shared_write_overwrites {newBois : List Entry} {state next : Registering Entry} {t : Nat}
    (counted : Counted newBois state) (fit : newBois.length ≤ maximumConnectedClients)
    (distinct : newBois.Nodup) (exclusive : Exclusive state) (placed : Placed newBois state)
    (shared : ¬ WritesAlone state t) (stepped : registrationStep state t = some next) :
    ∃ client ∈ newBois, Overwritten client next := by
  simp only [WritesAlone, Classical.not_imp, not_forall, ne_eq, Classical.not_not] at shared
  obtain ⟨writing, ⟨client, phase⟩, member, rfl⟩ := shared
  obtain ⟨other, found⟩ := List.mem_iff_getElem?.mp member
  rcases registration_cases stepped with ⟨newBoi, present, rfl⟩ | ⟨newBoi, present, rfl⟩
  · obtain ⟨nonnegative, free⟩ := counted.free fit present rfl
    have among : client ∈ newBois := counted.clients ▸ List.mem_map_of_mem member
    refine ⟨client, among, ?_, ?_⟩
    · intro inTable
      obtain ⟨i, atPlace⟩ := List.mem_iff_getElem?.mp inTable
      have slots : (state.table.clients.set state.table.currentClientCount.toNat newBoi)[i]? =
          some client := by
        simpa [ClientTable.writeSlot, nonnegative] using atPlace
      rcases MemberUpdate.read_set_cases slots with ⟨_, rfl⟩ | ⟨elsewhere, old⟩
      · exact absurd (counted.same_phase distinct found present) (by decide)
      · rcases placed i client old among with before | ⟨at_, _⟩
        · have registered : client ∈ state.table.registered := by
            apply List.mem_of_getElem?
            rw [ClientTable.registered, List.getElem?_take_of_lt before, old]
          obtain ⟨j, ownerFound⟩ := exclusive.owner_done registered
          exact absurd (counted.same_phase distinct found ownerFound) (by decide)
        · exact absurd at_ elsewhere
    · intro i phase atThread
      rcases MemberUpdate.read_set_cases atThread with ⟨_, same⟩ | ⟨_, old⟩
      · simp [(Prod.mk.inj same).2]
      · rw [← counted.same_phase distinct found old]
        decide
  · simp [present] at writing

/-- Before the first statement no thread counts. -/
theorem start_counted {table : ClientTable Entry} {newBois : List Entry}
    (allocated : table.clients.length = maximumConnectedClients)
    (empty : table.currentClientCount = 0) : Counted newBois (startRegistering table newBois) where
  clients := by simp [startRegistering, Function.comp_def]
  allocated := allocated
  count := by simp [startRegistering, empty, settled, List.flatMap_map]

/-- Before the first statement no thread holds a slot. -/
theorem start_exclusive {table : ClientTable Entry} {newBois : List Entry}
    (empty : table.currentClientCount = 0) : Exclusive (startRegistering table newBois) where
  registered := by
    simp [startRegistering, ClientTable.registered, empty, settled, List.flatMap_map]
  single := by simp [startRegistering]
  held := by simp [startRegistering]

/-- Finished threads have their clients registered, if all writes were exclusive. -/
theorem Exclusive.none_lost [DecidableEq Entry] {newBois : List Entry} {state : Registering Entry}
    (counted : Counted newBois state) (exclusive : Exclusive state) (distinct : newBois.Nodup)
    (finished : AllRegistered state) : NoneLost newBois state := by
  have everyone : state.threads.flatMap settled = newBois := by
    rw [← counted.clients, ← List.flatMap_pure_eq_map]
    apply List.flatMap_congr
    rintro ⟨newBoi, phase⟩ member
    obtain rfl : phase = .done := finished _ member
    rfl
  have registered := exclusive.registered
  have count := counted.count
  rw [everyone] at registered count
  constructor
  · exact count
  · intro newBoi among
    rw [registered.count_eq]
    exact List.count_eq_one_of_mem distinct among

section Runs

variable {table : ClientTable Entry} {newBois : List Entry} {schedule : List Nat}
variable {state : Registering Entry}

/-- Every run counts its finished threads. -/
theorem run_counted (allocated : table.clients.length = maximumConnectedClients)
    (empty : table.currentClientCount = 0)
    (ran : TransitionSystem.run registrationStep (startRegistering table newBois) schedule =
      some state) : Counted newBois state :=
  TransitionSystem.run_preserves (Counted newBois)
    (fun _ _ _ before stepped => before.step stepped) (start_counted allocated empty) ran

/-- Every run with exclusive writes registers the clients of its finished threads. -/
theorem run_exclusive (allocated : table.clients.length = maximumConnectedClients)
    (empty : table.currentClientCount = 0) (fit : newBois.length ≤ maximumConnectedClients)
    (ran : TransitionSystem.run registrationStep (startRegistering table newBois) schedule =
      some state)
    (alone : TransitionSystem.Meets registrationStep WritesAlone (startRegistering table newBois)
      schedule) : Exclusive state :=
  (TransitionSystem.guarded_run_preserves (fun state => Counted newBois state ∧ Exclusive state)
    (fun _ _ _ before wrote stepped =>
      ⟨before.1.step stepped, before.2.step before.1 fit wrote stepped⟩)
    ⟨start_counted allocated empty, start_exclusive empty⟩ alone ran).2

/-- Every run keeps clients placed that are not among the stale entries. -/
theorem run_placed (allocated : table.clients.length = maximumConnectedClients)
    (empty : table.currentClientCount = 0) (fit : newBois.length ≤ maximumConnectedClients)
    (fresh : ∀ newBoi ∈ newBois, newBoi ∉ table.clients)
    (ran : TransitionSystem.run registrationStep (startRegistering table newBois) schedule =
      some state) : Placed newBois state :=
  (TransitionSystem.run_preserves (fun state => Counted newBois state ∧ Placed newBois state)
    (fun _ _ _ before stepped => ⟨before.1.step stepped, before.2.step before.1 fit stepped⟩)
    ⟨start_counted allocated empty, fun _ client found among =>
      absurd (List.mem_of_getElem? found) (fresh client among)⟩ ran).2

/-- A run with a write that is not alone loses a client. -/
theorem shared_run_loses [DecidableEq Entry]
    (allocated : table.clients.length = maximumConnectedClients)
    (empty : table.currentClientCount = 0) (fit : newBois.length ≤ maximumConnectedClients)
    (distinct : newBois.Nodup) (fresh : ∀ newBoi ∈ newBois, newBoi ∉ table.clients)
    (ran : TransitionSystem.run registrationStep (startRegistering table newBois) schedule =
      some state)
    (shared : ¬ TransitionSystem.Meets registrationStep WritesAlone
      (startRegistering table newBois) schedule) : ¬ NoneLost newBois state := by
  intro noneLost
  obtain ⟨client, among, lost⟩ : ∃ client ∈ newBois, Overwritten client state := by
    refine TransitionSystem.spoiled_of_violation
      (fun state => ∃ client ∈ newBois, Overwritten client state) ?_ ran ?_ shared
    · rintro _ _ _ ⟨client, among, overwritten⟩ stepped
      exact ⟨client, among, overwritten.step stepped⟩
    · intro before middle t next reached alone failed taken
      exact shared_write_overwrites (run_counted allocated empty reached) fit distinct
        (run_exclusive allocated empty fit reached alone)
        (run_placed allocated empty fit fresh reached) failed taken
  have once := noneLost.2 client among
  have absent : client ∉ state.table.registered :=
    fun member => lost.absent (List.mem_of_mem_take member)
  rw [List.count_eq_zero.mpr absent] at once
  exact absurd once (by decide)

end Runs

/-- Finished registrations into an empty table are all kept if every write came while no
other thread was between its write and its increment. If the clients are not among the
stale entries of the table, this is also necessary. -/
theorem registrations_kept_iff [DecidableEq Entry] (table : ClientTable Entry)
    (allocated : table.clients.length = maximumConnectedClients)
    (empty : table.currentClientCount = 0) (newBois : List Entry)
    (fit : newBois.length ≤ maximumConnectedClients) (distinct : newBois.Nodup)
    (schedule : List Nat) (state : Registering Entry)
    (ran : TransitionSystem.run registrationStep (startRegistering table newBois) schedule =
      some state)
    (finished : AllRegistered state) :
    (TransitionSystem.Meets registrationStep WritesAlone (startRegistering table newBois)
        schedule → NoneLost newBois state) ∧
      ((∀ newBoi ∈ newBois, newBoi ∉ table.clients) →
        (NoneLost newBois state ↔ TransitionSystem.Meets registrationStep WritesAlone
          (startRegistering table newBois) schedule)) := by
  have kept : TransitionSystem.Meets registrationStep WritesAlone (startRegistering table newBois)
      schedule → NoneLost newBois state := by
    intro alone
    have exclusive := run_exclusive allocated empty fit ran alone
    exact exclusive.none_lost (run_counted allocated empty ran) distinct finished
  refine ⟨kept, ?_⟩
  intro fresh
  refine ⟨?_, kept⟩
  intro noneLost
  by_contra shared
  exact shared_run_loses allocated empty fit distinct fresh ran shared noneLost

/-- Two clients. -/
def twoClients : List OrganizedClientData := [⟨4, ['a'.toUInt8]⟩, ⟨5, ['b'.toUInt8]⟩]

/-- Both threads write before either increments: the first client is overwritten, and the
second entry in use is a stale one. -/
theorem slot_written_twice :
    ¬ ∀ (newBois : List OrganizedClientData) schedule state,
      newBois.length ≤ maximumConnectedClients → newBois.Nodup →
      TransitionSystem.run registrationStep (startRegistering emptyTable newBois) schedule =
        some state → AllRegistered state → NoneLost newBois state := by
  intro always
  have noneLost := always twoClients [0, 1, 0, 1] _ (by decide) (by decide) rfl (by decide)
  exact absurd noneLost (by decide)

/-- The second thread writes after the first one's increment. -/
theorem slots_written_in_turn :
    ∃ state, TransitionSystem.run registrationStep (startRegistering emptyTable twoClients)
        [1, 1, 0, 0] = some state ∧ NoneLost twoClients state :=
  ⟨_, rfl, (registrations_kept_iff emptyTable (by decide) rfl twoClients (by decide) (by decide)
    [1, 1, 0, 0] _ rfl (by decide)).1 (by decide)⟩

end HelperChat
