import HelperChat.ExclusiveSections
import HelperChat.TableMirror

/-!
# The client table, statement by statement

All threads of `2_server.c` on the client table, with every access to `clients` or
`currentClientCount` as a step of its own: the two statements of a registration, and the
tests, the comparisons, the copies and the decrement of the removal loop. Nothing in the
code keeps the threads apart. Each thread is taken to get its own socket number.

A registration is a section from its write to its increment, a removal from the `close` to
the end of its loop. If a thread enters its section only while no other one is inside, and a
registration finds a free slot, no access leaves the array, every connected client has an
entry in use at any time, and while no thread is inside, the table is what whole
registrations and removals make of it.
-/

namespace HelperChat

namespace ClientTable

/-- What is left of the removal loop at index `i`. -/
def removeRest (clientSocketID : Int) (i : Nat) (table : ClientTable OrganizedClientData) :
    ClientTable OrganizedClientData :=
  removeFrom OrganizedClientData.socket clientSocketID table.currentClientCount.toNat i table

variable {clientSocketID : Int} {i j : Nat} {table : ClientTable OrganizedClientData}

/-- Once the count is reached, more iterations change nothing. -/
theorem remove_from_enough {fuel more : Nat} (enough : table.currentClientCount.toNat ≤ i + fuel)
    (atLeast : fuel ≤ more) :
    removeFrom OrganizedClientData.socket clientSocketID more i table =
      removeFrom OrganizedClientData.socket clientSocketID fuel i table := by
  induction fuel generalizing i table more with
  | zero =>
    cases more with
    | zero => rfl
    | succ more =>
      rw [removeFrom, removeFrom, if_neg (by omega)]
  | succ fuel inductionHypothesis =>
    obtain ⟨more, rfl⟩ : ∃ rest, more = rest + 1 := ⟨more - 1, by omega⟩
    simp only [removeFrom]
    split
    case isFalse => rfl
    case isTrue below =>
      split
      · refine inductionHypothesis ?_ (by omega)
        change (table.currentClientCount - 1).toNat ≤ i + 1 + fuel
        omega
      · exact inductionHypothesis (by omega) (by omega)

/-- The loop ends at the count. -/
theorem remove_rest_end (done : ¬ i < table.currentClientCount) :
    removeRest clientSocketID i table = table := by
  rw [removeRest]
  cases table.currentClientCount.toNat with
  | zero => rfl
  | succ fuel => rw [removeFrom, if_neg done]

/-- A hit: the entries behind it are shifted, and the loop goes on with the next index. -/
theorem remove_rest_hit (below : i < table.currentClientCount)
    (found : table.clients[i]?.map OrganizedClientData.socket = some clientSocketID) :
    removeRest clientSocketID i table =
      removeRest clientSocketID (i + 1)
        ⟨shiftLeft table.clients i (table.currentClientCount - 1 - i).toNat,
          table.currentClientCount - 1⟩ := by
  obtain ⟨fuel, count⟩ : ∃ fuel, table.currentClientCount.toNat = fuel + 1 :=
    ⟨table.currentClientCount.toNat - 1, by omega⟩
  rw [removeRest, count, removeFrom, if_pos below, if_pos found]
  refine remove_from_enough ?_ ?_
  · change (table.currentClientCount - 1).toNat ≤ i + 1 + (table.currentClientCount - 1).toNat
    omega
  · change (table.currentClientCount - 1).toNat ≤ fuel
    omega

/-- Another entry is passed over. -/
theorem remove_rest_miss (below : i < table.currentClientCount)
    (other : table.clients[i]?.map OrganizedClientData.socket ≠ some clientSocketID) :
    removeRest clientSocketID i table = removeRest clientSocketID (i + 1) table := by
  obtain ⟨fuel, count⟩ : ∃ fuel, table.currentClientCount.toNat = fuel + 1 :=
    ⟨table.currentClientCount.toNat - 1, by omega⟩
  rw [removeRest, count, removeFrom, if_pos below, if_neg other, removeRest]
  exact (remove_from_enough (by omega) (by omega)).symm

/-- The first copy of a shift, and the rest of it. -/
theorem shift_left_succ (clients : List OrganizedClientData) (j steps : Nat) :
    shiftLeft clients j (steps + 1) = shiftLeft (shiftEntry j clients) (j + 1) steps := by
  induction steps with
  | zero => rfl
  | succ steps inductionHypothesis =>
    have last : shiftLeft clients j (steps + 2) =
        shiftEntry (j + (steps + 1)) (shiftLeft clients j (steps + 1)) := rfl
    rw [last, inductionHypothesis, ← Nat.add_assoc, Nat.add_right_comm]
    rfl

end ClientTable

open ClientTable (removeRest shiftLeft shiftEntry)

/-- Where a thread stands: before its name, at the statements of its registration, in the
message loop, at the statements of the removal loop with their indices, or at its end. -/
inductive TablePhase where
  | unnamed
  | toWrite
  | toIncrement
  | joined
  | outerTest (i : Nat)
  | compare (i : Nat)
  | innerTest (i j : Nat)
  | copy (i j : Nat)
  | toDecrement (i : Nat)
  | gone
deriving DecidableEq

/-- A thread of `clientThreadSplitFunction` with its `newBoi`, whose number is the
`clientSocketID`. -/
structure TableThread where
  newBoi : OrganizedClientData
  phase : TablePhase
deriving DecidableEq

/-- What a step gets from outside: the name, the end of the connection, or nothing. -/
inductive TableInput where
  | name (origSender : List UInt8)
  | disconnect
  | next
deriving DecidableEq

/-- The next statement of a thread. A connection that ends is closed in the same step. -/
def tableStatement (table : ClientTable OrganizedClientData) (thread : TableThread) :
    TableInput → Option (ClientTable OrganizedClientData × TableThread)
  | .name origSender =>
      match thread.phase with
      | .unnamed =>
          some (table, { newBoi := { thread.newBoi with name := origSender }, phase := .toWrite })
      | _ => none
  | .disconnect =>
      match thread.phase with
      | .unnamed => some (table, { thread with phase := .gone })
      | .joined => some (table, { thread with phase := .outerTest 0 })
      | _ => none
  | .next =>
      match thread.phase with
      | .toWrite => some (table.writeSlot thread.newBoi, { thread with phase := .toIncrement })
      | .toIncrement => some (table.incrementCount, { thread with phase := .joined })
      | .outerTest i =>
          if i < table.currentClientCount then some (table, { thread with phase := .compare i })
          else some (table, { thread with phase := .gone })
      | .compare i =>
          if table.clients[i]?.map OrganizedClientData.socket = some thread.newBoi.socket then
            some (table, { thread with phase := .innerTest i i })
          else some (table, { thread with phase := .outerTest (i + 1) })
      | .innerTest i j =>
          if j < table.currentClientCount - 1 then
            some (table, { thread with phase := .copy i j })
          else some (table, { thread with phase := .toDecrement i })
      | .copy i j =>
          some ({ table with clients := shiftEntry j table.clients },
            { thread with phase := .innerTest i (j + 1) })
      | .toDecrement i =>
          some ({ table with currentClientCount := table.currentClientCount - 1 },
            { thread with phase := .outerTest (i + 1) })
      | _ => none

/-- The indices of `clients` that the next statement of a thread reads or writes. -/
def accessedSlots (table : ClientTable OrganizedClientData) (thread : TableThread) : List Int :=
  match thread.phase with
  | .toWrite => [table.currentClientCount]
  | .compare i => [(i : Int)]
  | .copy _ j => [(j : Int), (j : Int) + 1]
  | _ => []

/-- The number of the connection is in use. -/
def TablePhase.isOpen : TablePhase → Bool
  | .unnamed | .toWrite | .toIncrement | .joined => true
  | _ => false

/-- The thread is inside its registration or its removal. -/
def TablePhase.isInside : TablePhase → Bool
  | .toIncrement | .outerTest _ | .compare _ | .innerTest _ _ | .copy _ _ | .toDecrement _ => true
  | _ => false

/-- `main` starts a thread for an accepted connection if the count allows it. The kernel
hands out numbers that are not open. -/
def AdmitsThread (table : ClientTable OrganizedClientData) (threads : List TableThread)
    (thread : TableThread) : Prop :=
  thread.phase = .unnamed ∧ table.currentClientCount < maximumConnectedClients ∧
    ∀ other ∈ threads, other.phase.isOpen → other.newBoi.socket ≠ thread.newBoi.socket

instance (table : ClientTable OrganizedClientData) (threads : List TableThread)
    (thread : TableThread) : Decidable (AdmitsThread table threads thread) :=
  inferInstanceAs (Decidable (_ ∧ _ ∧ ∀ other ∈ threads, _))

/-- What a thread inside its section still does to the table. -/
def finishSection (thread : TableThread) (table : ClientTable OrganizedClientData) :
    ClientTable OrganizedClientData :=
  match thread.phase with
  | .toIncrement => table.incrementCount
  | .outerTest i | .compare i => removeRest thread.newBoi.socket i table
  | .innerTest i j | .copy i j =>
      removeRest thread.newBoi.socket (i + 1)
        ⟨shiftLeft table.clients j (table.currentClientCount - 1 - j).toNat,
          table.currentClientCount - 1⟩
  | .toDecrement i =>
      removeRest thread.newBoi.socket (i + 1)
        { table with currentClientCount := table.currentClientCount - 1 }
  | _ => table

/-- What a thread inside its section relies on: its client stands in the slot at the count,
and the tests that it has passed still hold. -/
def SectionHolds (thread : TableThread) (table : ClientTable OrganizedClientData) : Prop :=
  match thread.phase with
  | .toIncrement =>
      0 ≤ table.currentClientCount → table.currentClientCount.toNat < table.clients.length →
        table.clients[table.currentClientCount.toNat]? = some thread.newBoi
  | .compare i | .toDecrement i => i < table.currentClientCount
  | .innerTest i j => i < table.currentClientCount ∧ j < table.currentClientCount
  | .copy i j => i < table.currentClientCount ∧ j < table.currentClientCount - 1
  | _ => True

/-- The statements of the threads. -/
inductive TableMove (table : ClientTable OrganizedClientData) (newBoi : OrganizedClientData) :
    TablePhase → TableInput → ClientTable OrganizedClientData → TableThread → Prop
  | named (origSender : List UInt8) :
      TableMove table newBoi .unnamed (.name origSender) table
        ⟨{ newBoi with name := origSender }, .toWrite⟩
  | leaves : TableMove table newBoi .unnamed .disconnect table ⟨newBoi, .gone⟩
  | closes : TableMove table newBoi .joined .disconnect table ⟨newBoi, .outerTest 0⟩
  | writes : TableMove table newBoi .toWrite .next (table.writeSlot newBoi) ⟨newBoi, .toIncrement⟩
  | increments :
      TableMove table newBoi .toIncrement .next table.incrementCount ⟨newBoi, .joined⟩
  | tests {i : Nat} (below : i < table.currentClientCount) :
      TableMove table newBoi (.outerTest i) .next table ⟨newBoi, .compare i⟩
  | ends {i : Nat} (done : ¬ i < table.currentClientCount) :
      TableMove table newBoi (.outerTest i) .next table ⟨newBoi, .gone⟩
  | hits {i : Nat}
      (found : table.clients[i]?.map OrganizedClientData.socket = some newBoi.socket) :
      TableMove table newBoi (.compare i) .next table ⟨newBoi, .innerTest i i⟩
  | misses {i : Nat}
      (other : table.clients[i]?.map OrganizedClientData.socket ≠ some newBoi.socket) :
      TableMove table newBoi (.compare i) .next table ⟨newBoi, .outerTest (i + 1)⟩
  | goesOn {i j : Nat} (more : j < table.currentClientCount - 1) :
      TableMove table newBoi (.innerTest i j) .next table ⟨newBoi, .copy i j⟩
  | stops {i j : Nat} (done : ¬ j < table.currentClientCount - 1) :
      TableMove table newBoi (.innerTest i j) .next table ⟨newBoi, .toDecrement i⟩
  | copies (i j : Nat) :
      TableMove table newBoi (.copy i j) .next { table with clients := shiftEntry j table.clients }
        ⟨newBoi, .innerTest i (j + 1)⟩
  | decrements (i : Nat) :
      TableMove table newBoi (.toDecrement i) .next
        { table with currentClientCount := table.currentClientCount - 1 }
        ⟨newBoi, .outerTest (i + 1)⟩

variable {table after : ClientTable OrganizedClientData} {newBoi : OrganizedClientData}
variable {thread next : TableThread} {input : TableInput}

/-- Every statement is one of these. -/
theorem table_move_of_statement
    (done : tableStatement table thread input = some (after, next)) :
    TableMove table thread.newBoi thread.phase input after next := by
  obtain ⟨newBoi, phase⟩ := thread
  cases input with
  | name origSender =>
    cases phase <;> simp only [tableStatement, reduceCtorEq, Option.some.injEq] at done
    obtain ⟨rfl, rfl⟩ := Prod.mk.inj done
    exact .named origSender
  | disconnect =>
    cases phase <;> simp only [tableStatement, reduceCtorEq, Option.some.injEq] at done
    case unnamed =>
      obtain ⟨rfl, rfl⟩ := Prod.mk.inj done
      exact .leaves
    case joined =>
      obtain ⟨rfl, rfl⟩ := Prod.mk.inj done
      exact .closes
  | next =>
    cases phase <;> simp only [tableStatement, reduceCtorEq, Option.some.injEq] at done
    case toWrite =>
      obtain ⟨rfl, rfl⟩ := Prod.mk.inj done
      exact .writes
    case toIncrement =>
      obtain ⟨rfl, rfl⟩ := Prod.mk.inj done
      exact .increments
    case outerTest i =>
      split at done
      case isTrue below =>
        obtain ⟨rfl, rfl⟩ := Prod.mk.inj (Option.some.inj done)
        exact .tests below
      case isFalse above =>
        obtain ⟨rfl, rfl⟩ := Prod.mk.inj (Option.some.inj done)
        exact .ends above
    case compare i =>
      split at done
      case isTrue found =>
        obtain ⟨rfl, rfl⟩ := Prod.mk.inj (Option.some.inj done)
        exact .hits found
      case isFalse other =>
        obtain ⟨rfl, rfl⟩ := Prod.mk.inj (Option.some.inj done)
        exact .misses other
    case innerTest i j =>
      split at done
      case isTrue more =>
        obtain ⟨rfl, rfl⟩ := Prod.mk.inj (Option.some.inj done)
        exact .goesOn more
      case isFalse above =>
        obtain ⟨rfl, rfl⟩ := Prod.mk.inj (Option.some.inj done)
        exact .stops above
    case copy i j =>
      obtain ⟨rfl, rfl⟩ := Prod.mk.inj done
      exact .copies i j
    case toDecrement i =>
      obtain ⟨rfl, rfl⟩ := Prod.mk.inj done
      exact .decrements i

/-- A section is entered by the write of a registration or by the `close` of a removal, and
its finish is then the whole call. -/
theorem TableMove.enters {phase : TablePhase}
    (move : TableMove table newBoi phase input after next) (outside : ¬ phase.isInside)
    (inside : next.phase.isInside) :
    (phase = .toWrite ∧ SectionHolds next after ∧
      finishSection next after = table.register newBoi) ∨
    (phase = .joined ∧ SectionHolds next after ∧
      finishSection next after =
        ClientTable.removeClient OrganizedClientData.socket newBoi.socket table) := by
  cases move with
  | writes =>
    refine .inl ⟨rfl, ?_, rfl⟩
    intro nonnegative free
    simp only [ClientTable.writeSlot] at nonnegative free ⊢
    rw [if_pos nonnegative] at free ⊢
    exact List.getElem?_set_self (by simpa using free)
  | closes => exact .inr ⟨rfl, trivial, rfl⟩
  | named | leaves | increments | ends => exact absurd inside Bool.false_ne_true
  | tests | hits | misses | goesOn | stops | copies | decrements => exact absurd rfl outside

/-- A statement inside a section leaves the rest of it to do. -/
theorem TableMove.continues {phase : TablePhase}
    (move : TableMove table newBoi phase input after next) (inside : phase.isInside)
    (insideToo : next.phase.isInside) (holds : SectionHolds ⟨newBoi, phase⟩ table) :
    SectionHolds next after ∧ finishSection next after = finishSection ⟨newBoi, phase⟩ table := by
  cases move with
  | tests below => exact ⟨below, rfl⟩
  | @hits i found => exact ⟨⟨holds, holds⟩, (ClientTable.remove_rest_hit holds found).symm⟩
  | misses other => exact ⟨trivial, (ClientTable.remove_rest_miss holds other).symm⟩
  | goesOn more => exact ⟨⟨holds.1, more⟩, rfl⟩
  | @stops i j done =>
    have none : (table.currentClientCount - 1 - j).toNat = 0 := by omega
    refine ⟨holds.1, ?_⟩
    simp only [finishSection, none]
    rfl
  | copies i j =>
    obtain ⟨below, more⟩ := holds
    have steps : (table.currentClientCount - 1 - j).toNat =
        (table.currentClientCount - 1 - (j + 1 : Nat)).toNat + 1 := by omega
    refine ⟨⟨below, ?_⟩, ?_⟩
    · change ((j + 1 : Nat) : Int) < table.currentClientCount
      omega
    · simp only [finishSection, steps, ClientTable.shift_left_succ]
  | decrements i => exact ⟨trivial, rfl⟩
  | named | leaves | closes | writes => exact absurd inside Bool.false_ne_true
  | increments | ends => exact absurd insideToo Bool.false_ne_true

/-- The last statement of a section finishes it. -/
theorem TableMove.leaves_section {phase : TablePhase}
    (move : TableMove table newBoi phase input after next) (inside : phase.isInside)
    (outside : ¬ next.phase.isInside) : after = finishSection ⟨newBoi, phase⟩ table := by
  cases move with
  | increments => rfl
  | ends done => exact (ClientTable.remove_rest_end done).symm
  | named | leaves | closes | writes => exact absurd inside Bool.false_ne_true
  | tests | hits | misses | goesOn | stops | copies | decrements => exact absurd rfl outside

/-- Outside of the sections no statement changes the table. -/
theorem TableMove.passes {phase : TablePhase}
    (move : TableMove table newBoi phase input after next) (outside : ¬ phase.isInside)
    (outsideToo : ¬ next.phase.isInside) : after = table := by
  cases move with
  | named | leaves => rfl
  | closes | writes => exact absurd rfl outsideToo
  | increments | tests | ends | hits | misses | goesOn | stops | copies | decrements =>
    exact absurd rfl outside

/-- The call that a section makes as a whole. -/
def sectionCall (thread : TableThread) : TableCall :=
  match thread.phase with
  | .toWrite => .registration thread.newBoi
  | _ => .removal thread.newBoi.socket

/-- The threads of the server with their sections. -/
def tableProgram : ExclusiveSections.Program (ClientTable OrganizedClientData) TableThread
    TableInput TableCall where
  statement := tableStatement
  Admits := AdmitsThread
  decidableAdmits := fun table threads thread =>
    inferInstanceAs (Decidable (AdmitsThread table threads thread))
  Inside := fun thread => thread.phase.isInside
  decidableInside := fun thread => inferInstanceAs (Decidable (thread.phase.isInside = true))
  call := sectionCall
  perform := tableCall
  finish := finishSection
  Holds := SectionHolds
  admitted := by
    intro table threads thread admits inside
    rw [admits.1] at inside
    exact absurd inside Bool.false_ne_true
  passes := fun done outside outsideToo =>
    (table_move_of_statement done).passes outside outsideToo
  enters := by
    intro table after thread next input done outside inside
    rcases (table_move_of_statement done).enters outside inside with
      ⟨writing, holds, whole⟩ | ⟨closing, holds, whole⟩
    · refine ⟨holds, whole.trans ?_⟩
      simp only [sectionCall, writing]
      rfl
    · refine ⟨holds, whole.trans ?_⟩
      simp only [sectionCall, closing]
      rfl
  continues := fun done inside insideToo holds =>
    (table_move_of_statement done).continues inside insideToo holds
  leaves := fun done inside outside holds =>
    (table_move_of_statement done).leaves_section inside outside

open ExclusiveSections (Threads Event)

/-- The server before its first connection. -/
def startTableThreads : Threads (ClientTable OrganizedClientData) TableThread := ⟨emptyTable, []⟩

/-- A thread enters its section only while no other one is inside, and a registration finds
a free slot. -/
def WorksAlone (state : Threads (ClientTable OrganizedClientData) TableThread)
    (event : Event TableThread TableInput) : Prop :=
  tableProgram.EntersAlone state event ∧
    match event with
    | .start _ => True
    | .advance t _ => ∀ thread ∈ state.threads[t]?, thread.phase = .toWrite →
        state.shared.currentClientCount < maximumConnectedClients

instance (state : Threads (ClientTable OrganizedClientData) TableThread) :
    DecidablePred (WorksAlone state)
  | .start thread =>
      inferInstanceAs (Decidable (tableProgram.EntersAlone state (.start thread) ∧ True))
  | .advance t input => inferInstanceAs (Decidable (tableProgram.EntersAlone state
      (.advance t input) ∧ ∀ thread ∈ state.threads[t]?, thread.phase = .toWrite →
        state.shared.currentClientCount < maximumConnectedClients))

/-- The client of a thread that has begun its registration, and not its removal. -/
def joinedClient (thread : TableThread) : List OrganizedClientData :=
  match thread.phase with
  | .toIncrement | .joined => [thread.newBoi]
  | _ => []

/-- The number of an open connection. -/
def openNumber (thread : TableThread) : List Int :=
  if thread.phase.isOpen then [thread.newBoi.socket] else []

/-- The accesses of the next step are inside the array. -/
def AccessesInside (state : Threads (ClientTable OrganizedClientData) TableThread)
    (event : Event TableThread TableInput) : Prop :=
  match event with
  | .start _ => True
  | .advance t _ => ∀ thread ∈ state.threads[t]?,
      ∀ slot ∈ accessedSlots state.shared thread, 0 ≤ slot ∧ slot < maximumConnectedClients

instance (state : Threads (ClientTable OrganizedClientData) TableThread) :
    DecidablePred (AccessesInside state)
  | .start _ => .isTrue trivial
  | .advance t _ => inferInstanceAs (Decidable (∀ thread ∈ state.threads[t]?,
      ∀ slot ∈ accessedSlots state.shared thread, 0 ≤ slot ∧ slot < maximumConnectedClients))

/-- The invariant of runs whose threads work alone. -/
structure KeptApart (state : Threads (ClientTable OrganizedClientData) TableThread) : Prop where
  exclusive : tableProgram.Exclusive state
  formed : state.shared.WellFormed
  settled : (tableProgram.settled state).WellFormed
  entries : (tableProgram.settled state).registered.Perm (state.threads.flatMap joinedClient)
  numbers : (state.threads.flatMap openNumber).Nodup

/-- A copy keeps the length of the array. -/
theorem shift_entry_length (j : Nat) (clients : List OrganizedClientData) :
    (shiftEntry j clients).length = clients.length := by
  rw [shiftEntry]
  split
  · exact List.length_set
  · rfl

/-- No statement makes the table ill-formed, if a registration has a free slot and what is
left of a section leaves a well-formed table. -/
theorem TableMove.formed {phase : TablePhase}
    (move : TableMove table newBoi phase input after next) (formed : table.WellFormed)
    (free : phase = .toWrite → table.currentClientCount < maximumConnectedClients)
    (holds : phase.isInside → SectionHolds ⟨newBoi, phase⟩ table)
    (finished : phase.isInside → (finishSection ⟨newBoi, phase⟩ table).WellFormed) :
    after.WellFormed := by
  obtain ⟨allocated, nonnegative, bounded⟩ := formed
  cases move with
  | writes =>
    refine ⟨?_, nonnegative, bounded⟩
    simpa [ClientTable.writeSlot, nonnegative] using allocated
  | increments => exact finished rfl
  | copies i j => exact ⟨(shift_entry_length j table.clients).trans allocated, nonnegative, bounded⟩
  | decrements i =>
    have below : (i : Int) < table.currentClientCount := holds rfl
    refine ⟨allocated, ?_, ?_⟩
    · change 0 ≤ table.currentClientCount - 1
      omega
    · change table.currentClientCount - 1 ≤ maximumConnectedClients
      omega
  | named | leaves | closes | tests | ends | hits | misses | goesOn | stops =>
    exact ⟨allocated, nonnegative, bounded⟩

/-- A statement that enters no section does not change who has joined. -/
theorem TableMove.joined {phase : TablePhase}
    (move : TableMove table newBoi phase input after next)
    (stays : ¬ (¬ phase.isInside ∧ next.phase.isInside)) :
    joinedClient next = joinedClient ⟨newBoi, phase⟩ := by
  cases move with
  | closes | writes => exact absurd ⟨Bool.false_ne_true, rfl⟩ stays
  | named | leaves | increments | tests | ends | hits | misses | goesOn | stops | copies
  | decrements => rfl

/-- A statement keeps the number of its thread open, or closes it. -/
theorem TableMove.number {phase : TablePhase}
    (move : TableMove table newBoi phase input after next) :
    openNumber next = openNumber ⟨newBoi, phase⟩ ∨ openNumber next = [] := by
  cases move with
  | named | writes | increments => exact .inl rfl
  | leaves | closes | tests | ends | hits | misses | goesOn | stops | copies | decrements =>
    exact .inr rfl

/-- The clients that have joined have open numbers. -/
theorem joined_numbers (threads : List TableThread) :
    ((threads.flatMap joinedClient).map OrganizedClientData.socket).Sublist
      (threads.flatMap openNumber) := by
  induction threads with
  | nil => exact List.Sublist.refl _
  | cons thread rest inductionHypothesis =>
    have first : ((joinedClient thread).map OrganizedClientData.socket).Sublist
        (openNumber thread) := by
      obtain ⟨newBoi, phase⟩ := thread
      cases phase <;> simp [joinedClient, openNumber, TablePhase.isOpen]
    rw [List.flatMap_cons, List.flatMap_cons, List.map_append]
    exact first.append inductionHypothesis

variable {state : Threads (ClientTable OrganizedClientData) TableThread} {t : Nat}

/-- The numbers stay distinct. -/
theorem numbers_set (distinct : (state.threads.flatMap openNumber).Nodup)
    (present : state.threads[t]? = some thread)
    (number : openNumber next = openNumber thread ∨ openNumber next = []) :
    ((state.threads.set t next).flatMap openNumber).Nodup := by
  have exchanged := MemberUpdate.flatMap_set_perm openNumber state.threads t thread next present
  rcases number with same | none
  · rw [same] at exchanged
    exact ((List.perm_append_right_iff _).mp exchanged).nodup_iff.mpr distinct
  · rw [none, List.append_nil] at exchanged
    exact (List.nodup_append.mp (exchanged.nodup_iff.mpr distinct)).1

/-- A call on the list of the connected clients, if it is permitted. -/
def connectedStep (clients : List OrganizedClientData) (call : TableCall) :
    Option (List OrganizedClientData) :=
  if CallPermitted clients call then
    match call with
    | .registration newBoi => some (clients ++ [newBoi])
    | .removal clientSocketID => some (clients.filter fun client => client.socket ≠ clientSocketID)
  else none

/-- A call that is permitted behind permitted calls. -/
theorem calls_permitted_concat {calls : List TableCall} {call : TableCall}
    (permitted : CallsPermitted calls) (last : CallPermitted (connectedClients calls) call) :
    CallsPermitted (calls ++ [call]) := by
  intro k inside
  rw [List.length_append, List.length_singleton] at inside
  by_cases before : k < calls.length
  · rw [List.take_append_of_le_length (Nat.le_of_lt before), List.getElem_append_left before]
    exact permitted k before
  · obtain rfl : k = calls.length := by omega
    rw [List.take_left, List.getElem_concat_length rfl]
    exact last

/-- Calls that go through are permitted, and lead to the clients connected by them. -/
theorem connected_run {calls : List TableCall} {clients : List OrganizedClientData}
    (ran : TransitionSystem.run connectedStep [] calls = some clients) :
    CallsPermitted calls ∧ clients = connectedClients calls := by
  induction calls using List.reverseRecOn generalizing clients with
  | nil =>
    obtain rfl := Option.some.inj ran
    exact ⟨fun k inside => absurd inside (Nat.not_lt_zero k), rfl⟩
  | append_singleton calls call inductionHypothesis =>
    rw [TransitionSystem.run_append] at ran
    obtain ⟨before, reached, stepped⟩ := Option.bind_eq_some_iff.mp ran
    obtain ⟨permitted, rfl⟩ := inductionHypothesis reached
    rw [TransitionSystem.run_singleton] at stepped
    unfold connectedStep at stepped
    split at stepped
    case isFalse => exact absurd stepped (by simp)
    case isTrue last =>
      refine ⟨calls_permitted_concat permitted last, ?_⟩
      cases call with
      | registration newBoi =>
        rw [connected_registration]
        exact (Option.some.inj stepped).symm
      | removal clientSocketID =>
        rw [connected_removal]
        exact (Option.some.inj stepped).symm

/-- The registered numbers are distinct. -/
theorem KeptApart.distinct (kept : KeptApart state) :
    ((tableProgram.settled state).registered.map OrganizedClientData.socket).Nodup :=
  (kept.entries.map OrganizedClientData.socket).nodup_iff.mpr
    ((joined_numbers state.threads).nodup kept.numbers)

/-- The calls lead from the clients of the settled table before a step to those after it. -/
def Follows (state next : Threads (ClientTable OrganizedClientData) TableThread)
    (calls : List TableCall) : Prop :=
  TransitionSystem.run connectedStep (tableProgram.settled state).registered calls =
    some (tableProgram.settled next).registered

/-- A new thread. -/
theorem KeptApart.start (kept : KeptApart state)
    (admits : AdmitsThread state.shared state.threads thread) :
    KeptApart { state with threads := state.threads ++ [thread] } ∧
      Follows state { state with threads := state.threads ++ [thread] } [] := by
  obtain ⟨unnamed, _, unused⟩ := admits
  have outside : ¬ tableProgram.Inside thread := by
    change ¬ thread.phase.isInside
    rw [unnamed]
    exact Bool.false_ne_true
  obtain ⟨exclusive, same⟩ := kept.exclusive.start outside
  have nobody : joinedClient thread = [] := by simp [joinedClient, unnamed]
  have number : openNumber thread = [thread.newBoi.socket] := by
    simp [openNumber, unnamed, TablePhase.isOpen]
  refine ⟨⟨exclusive, kept.formed, same ▸ kept.settled, ?_, ?_⟩, ?_⟩
  · rw [same, List.flatMap_append, List.flatMap_singleton, nobody, List.append_nil]
    exact kept.entries
  · rw [List.flatMap_append, List.flatMap_singleton, number, List.nodup_append]
    refine ⟨kept.numbers, List.nodup_singleton _, ?_⟩
    rintro socket member _ last rfl
    obtain rfl := List.mem_singleton.mp last
    obtain ⟨other, among, has⟩ := List.mem_flatMap.mp member
    rw [openNumber] at has
    split at has
    case isTrue opened => exact unused other among opened (List.mem_singleton.mp has).symm
    case isFalse => exact absurd has List.not_mem_nil
  · rw [Follows, same]
    rfl

/-- The client of a thread that is about to write joins. -/
theorem KeptApart.write (kept : KeptApart state) (rest : tableProgram.AtRest state)
    (present : state.threads[t]? = some ⟨newBoi, .toWrite⟩)
    (free : state.shared.currentClientCount < maximumConnectedClients)
    (exclusive : tableProgram.Exclusive
      ⟨state.shared.writeSlot newBoi, state.threads.set t ⟨newBoi, .toIncrement⟩⟩)
    (settled : tableProgram.settled
      ⟨state.shared.writeSlot newBoi, state.threads.set t ⟨newBoi, .toIncrement⟩⟩ =
        (tableProgram.settled state).register newBoi) :
    KeptApart ⟨state.shared.writeSlot newBoi, state.threads.set t ⟨newBoi, .toIncrement⟩⟩ ∧
      Follows state ⟨state.shared.writeSlot newBoi, state.threads.set t ⟨newBoi, .toIncrement⟩⟩
        [.registration newBoi] := by
  have count := rest.settled
  have freeSlot : (tableProgram.settled state).currentClientCount < maximumConnectedClients :=
    count.symm ▸ free
  obtain ⟨formed, registered⟩ := kept.settled.register freeSlot newBoi
  have moved : TableMove state.shared newBoi .toWrite .next (state.shared.writeSlot newBoi)
      ⟨newBoi, .toIncrement⟩ := .writes
  have exchanged := MemberUpdate.flatMap_set_perm joinedClient state.threads t _
    ⟨newBoi, .toIncrement⟩ present
  simp only [joinedClient, List.append_nil] at exchanged
  have numbers := numbers_set kept.numbers present moved.number
  have entries : ((tableProgram.settled state).registered ++ [newBoi]).Perm
      ((state.threads.set t ⟨newBoi, .toIncrement⟩).flatMap joinedClient) :=
    (kept.entries.append_right [newBoi]).trans exchanged.symm
  refine ⟨⟨exclusive, ?_, settled ▸ formed, ?_, numbers⟩, ?_⟩
  · exact moved.formed kept.formed (fun _ => free) (fun inside => absurd inside Bool.false_ne_true)
      fun inside => absurd inside Bool.false_ne_true
  · rw [settled, registered]
    exact entries
  · have distinct : (((tableProgram.settled state).registered ++ [newBoi]).map
        OrganizedClientData.socket).Nodup :=
      (entries.map OrganizedClientData.socket).nodup_iff.mpr ((joined_numbers _).nodup numbers)
    rw [List.map_append, List.nodup_append] at distinct
    have unused : newBoi.socket ∉
        (tableProgram.settled state).registered.map OrganizedClientData.socket := by
      intro member
      exact distinct.2.2 _ member _ (by simp) rfl
    have length := kept.settled.registered_length
    have nonnegative := kept.settled.countNonnegative
    have permitted : CallPermitted (tableProgram.settled state).registered
        (.registration newBoi) := ⟨unused, by omega⟩
    rw [Follows, settled, registered, TransitionSystem.run_singleton, connectedStep,
      if_pos permitted]

/-- The client of a thread whose connection has ended leaves. -/
theorem KeptApart.close (kept : KeptApart state)
    (present : state.threads[t]? = some ⟨newBoi, .joined⟩)
    (exclusive : tableProgram.Exclusive
      ⟨state.shared, state.threads.set t ⟨newBoi, .outerTest 0⟩⟩)
    (settled : tableProgram.settled ⟨state.shared, state.threads.set t ⟨newBoi, .outerTest 0⟩⟩ =
      ClientTable.removeClient OrganizedClientData.socket newBoi.socket
        (tableProgram.settled state)) :
    KeptApart ⟨state.shared, state.threads.set t ⟨newBoi, .outerTest 0⟩⟩ ∧
      Follows state ⟨state.shared, state.threads.set t ⟨newBoi, .outerTest 0⟩⟩
        [.removal newBoi.socket] := by
  obtain ⟨formed, registered⟩ := kept.settled.remove_distinct kept.distinct newBoi.socket
  have exchanged := MemberUpdate.flatMap_set_perm joinedClient state.threads t _
    ⟨newBoi, .outerTest 0⟩ present
  simp only [joinedClient, List.append_nil] at exchanged
  have split := kept.entries.trans exchanged.symm
  -- no other joined client has the number
  have others : ∀ client ∈ (state.threads.set t ⟨newBoi, .outerTest 0⟩).flatMap joinedClient,
      client.socket ≠ newBoi.socket := by
    have distinct := (split.map OrganizedClientData.socket).nodup_iff.mp kept.distinct
    rw [List.map_append, List.nodup_append] at distinct
    intro client member
    exact distinct.2.2 _ (List.mem_map_of_mem member) _ (by simp)
  have remaining : ((state.threads.set t ⟨newBoi, .outerTest 0⟩).flatMap joinedClient ++
      [newBoi]).filter (fun client => client.socket ≠ newBoi.socket) =
        (state.threads.set t ⟨newBoi, .outerTest 0⟩).flatMap joinedClient := by
    rw [List.filter_append, List.filter_eq_self.mpr (by simpa using others)]
    simp
  refine ⟨⟨exclusive, kept.formed, settled ▸ formed, ?_, ?_⟩, ?_⟩
  · rw [settled, registered]
    exact remaining ▸ split.filter _
  · exact numbers_set kept.numbers present (.inr rfl)
  · rw [Follows, settled, registered, TransitionSystem.run_singleton, connectedStep,
      if_pos (by trivial)]

/-- A statement that enters no section. -/
theorem KeptApart.other (kept : KeptApart state) {shared : ClientTable OrganizedClientData}
    (present : state.threads[t]? = some thread)
    (done : tableStatement state.shared thread input = some (shared, next))
    (stays : ¬ (¬ thread.phase.isInside ∧ next.phase.isInside))
    (exclusive : tableProgram.Exclusive ⟨shared, state.threads.set t next⟩)
    (settled : tableProgram.settled ⟨shared, state.threads.set t next⟩ =
      tableProgram.settled state) :
    KeptApart ⟨shared, state.threads.set t next⟩ ∧
      Follows state ⟨shared, state.threads.set t next⟩ [] := by
  have move := table_move_of_statement done
  have exchanged := MemberUpdate.flatMap_set_perm joinedClient state.threads t _ next present
  rw [move.joined stays] at exchanged
  have same := (List.perm_append_right_iff _).mp exchanged
  refine ⟨⟨exclusive, ?_, settled ▸ kept.settled, ?_, ?_⟩, ?_⟩
  · refine move.formed kept.formed ?_ ?_ ?_
    · intro writing
      have inside : next.phase.isInside := by
        rw [writing] at move
        cases move
        rfl
      exact absurd ⟨by rw [writing]; exact Bool.false_ne_true, inside⟩ stays
    · exact kept.exclusive.holds thread (List.mem_of_getElem? present)
    · intro inside
      have finished : tableProgram.settled state =
          finishSection ⟨thread.newBoi, thread.phase⟩ state.shared :=
        kept.exclusive.settled present inside
      rw [← finished]
      exact kept.settled
  · rw [settled]
    exact kept.entries.trans same.symm
  · exact numbers_set kept.numbers present move.number
  · rw [Follows, settled]
    rfl

variable {event : Event TableThread TableInput}
variable {following : Threads (ClientTable OrganizedClientData) TableThread}

/-- Threads that work alone are kept apart, and the connected clients follow their calls. -/
theorem KeptApart.step (kept : KeptApart state) (alone : WorksAlone state event)
    (stepped : tableProgram.step state event = some following) :
    KeptApart following ∧ Follows state following (tableProgram.calls state event) := by
  obtain ⟨apart, slot⟩ := alone
  obtain ⟨exclusive, settled⟩ := kept.exclusive.step apart stepped
  cases ExclusiveSections.Program.move_of_step stepped with
  | starts admits => exact kept.start admits
  | refuses => exact ⟨kept, rfl⟩
  | @statement t input thread next shared present done =>
    have entry : tableProgram.Enters state.shared thread input ↔
        ¬ thread.phase.isInside ∧ next.phase.isInside :=
      ExclusiveSections.Program.enters_iff done
    simp only [ExclusiveSections.Program.calls, present] at settled ⊢
    by_cases enters : ¬ thread.phase.isInside ∧ next.phase.isInside
    · have rest := apart thread present (entry.mpr enters)
      rw [if_pos (entry.mpr enters)] at settled ⊢
      obtain ⟨newBoi, phase⟩ := thread
      have move := table_move_of_statement done
      cases move with
      | writes => exact kept.write rest present (slot _ present rfl) exclusive settled
      | closes => exact kept.close present exclusive settled
      | named | leaves | increments | ends => exact absurd enters.2 Bool.false_ne_true
      | tests | hits | misses | goesOn | stops | copies | decrements => exact absurd rfl enters.1
    · rw [if_neg fun entered => enters (entry.mp entered)] at settled ⊢
      exact kept.other present done enters exclusive settled

/-- What is left of the removal loop only takes entries out of use. -/
theorem remove_rest_subset (formed : table.WellFormed) (clientSocketID : Int) (i : Nat)
    {client : OrganizedClientData}
    (member : client ∈ (removeRest clientSocketID i table).registered) :
    client ∈ table.registered := by
  have registered : (removeRest clientSocketID i table).registered =
      table.registered.take i ++
        ClientTable.scan OrganizedClientData.socket clientSocketID (table.registered.drop i) :=
    (formed.remove_from clientSocketID (Nat.le_add_left table.currentClientCount.toNat i)).2
  rw [registered, List.mem_append] at member
  rcases member with front | behind
  · exact List.mem_of_mem_take front
  · exact List.mem_of_mem_drop ((ClientTable.scan_sublist clientSocketID _).subset behind)

/-- What is left of a removal only takes entries out of use. -/
theorem finish_section_subset (formed : table.WellFormed) (inside : thread.phase.isInside)
    (removing : thread.phase ≠ .toIncrement) (holds : SectionHolds thread table)
    {client : OrganizedClientData} (member : client ∈ (finishSection thread table).registered) :
    client ∈ table.registered := by
  -- an entry that is shifted over
  have shift : ∀ {i j : Nat}, j < table.currentClientCount →
      client ∈ (removeRest thread.newBoi.socket (i + 1)
        ⟨shiftLeft table.clients j (table.currentClientCount - 1 - j).toNat,
          table.currentClientCount - 1⟩).registered → client ∈ table.registered := by
    intro i j below left
    obtain ⟨formedNext, remaining⟩ := formed.remove_at below
    have among := remove_rest_subset formedNext _ _ left
    rw [remaining, List.mem_append] at among
    rcases among with front | behind
    · exact List.mem_of_mem_take front
    · exact List.mem_of_mem_drop behind
  obtain ⟨newBoi, phase⟩ := thread
  cases phase with
  | outerTest i => exact remove_rest_subset formed newBoi.socket i member
  | compare i => exact remove_rest_subset formed newBoi.socket i member
  | innerTest i j => exact shift holds.2 member
  | copy i j =>
    obtain ⟨_, more⟩ := holds
    exact shift (by omega) member
  | toDecrement i =>
    have below : (i : Int) < table.currentClientCount := holds
    have formedNext : ClientTable.WellFormed
        { table with currentClientCount := table.currentClientCount - 1 } := by
      have bounded := formed.countBounded
      refine ⟨formed.allocated, ?_, ?_⟩
      · change 0 ≤ table.currentClientCount - 1
        omega
      · change table.currentClientCount - 1 ≤ maximumConnectedClients
        omega
    have among := remove_rest_subset formedNext _ _ member
    refine (List.take_sublist_take_left ?_).subset among
    change (table.currentClientCount - 1).toNat ≤ table.currentClientCount.toNat
    omega
  | toIncrement => exact absurd rfl removing
  | unnamed | toWrite | joined | gone => exact absurd inside Bool.false_ne_true

/-- Threads with open connections have different numbers. -/
theorem open_numbers_differ (distinct : (state.threads.flatMap openNumber).Nodup) {i j : Nat}
    {first second : TableThread} (present : state.threads[i]? = some first)
    (presentToo : state.threads[j]? = some second) (opened : first.phase.isOpen)
    (openedToo : second.phase.isOpen) (different : i ≠ j) :
    first.newBoi.socket ≠ second.newBoi.socket := by
  intro same
  have exchanged := MemberUpdate.flatMap_set_perm openNumber state.threads i first
    { first with phase := .gone } present
  have closed : openNumber { first with phase := .gone } = [] := rfl
  rw [closed, List.append_nil] at exchanged
  have apart := List.nodup_append.mp (exchanged.nodup_iff.mpr distinct)
  have among : second.newBoi.socket ∈
      (state.threads.set i { first with phase := .gone }).flatMap openNumber := by
    refine List.mem_flatMap.mpr ⟨second, List.mem_of_getElem? (i := j) ?_, ?_⟩
    · rw [List.getElem?_set_ne different]
      exact presentToo
    · simp [openNumber, openedToo]
  exact apart.2.2 _ among _ (by simp [openNumber, opened]) same.symm

/-- At any time, every client in the message loop has an entry in use. -/
theorem KeptApart.listed (kept : KeptApart state) (member : thread ∈ state.threads)
    (joined : thread.phase = .joined) : thread.newBoi ∈ state.shared.registered := by
  have settled : thread.newBoi ∈ (tableProgram.settled state).registered := by
    refine kept.entries.symm.subset (List.mem_flatMap.mpr ⟨thread, member, ?_⟩)
    simp [joinedClient, joined]
  rcases ExclusiveSections.Program.rest_or_inside tableProgram state with
    rest | ⟨t, working, present, inside⟩
  · exact rest.settled ▸ settled
  · have holds : SectionHolds working state.shared :=
      kept.exclusive.holds working (List.mem_of_getElem? present) inside
    have finished : tableProgram.settled state = finishSection working state.shared :=
      kept.exclusive.settled present inside
    by_cases registering : working.phase = .toIncrement
    · obtain ⟨i, read⟩ := List.getElem?_of_mem member
      have elsewhere : i ≠ t := by
        rintro rfl
        obtain rfl := Option.some.inj (read.symm.trans present)
        exact absurd (joined.symm.trans registering) (by simp)
      have different := open_numbers_differ kept.numbers read present (by rw [joined]; rfl)
        (by rw [registering]; rfl) elsewhere
      have nonnegative := kept.formed.countNonnegative
      have count : (state.shared.currentClientCount + 1).toNat =
          state.shared.currentClientCount.toNat + 1 := by omega
      simp only [finished, finishSection, registering, ClientTable.registered,
        ClientTable.incrementCount, count, List.take_add_one, List.mem_append,
        Option.mem_toList] at settled
      rcases settled with before | last
      · exact before
      · simp only [SectionHolds, registering] at holds
        have own := holds nonnegative (List.getElem?_eq_some_iff.mp last).1
        exact absurd (congrArg OrganizedClientData.socket
          (Option.some.inj (last.symm.trans own))) different
    · exact finish_section_subset kept.formed inside registering holds (finished ▸ settled)

/-- The accesses of threads that work alone are inside the array. -/
theorem KeptApart.accesses_inside (kept : KeptApart state) (alone : WorksAlone state event) :
    AccessesInside state event := by
  cases event with
  | start thread => trivial
  | advance t input =>
    intro thread present slot accessed
    have nonnegative := kept.formed.countNonnegative
    have bounded := kept.formed.countBounded
    have slotFree := alone.2 thread present
    have holds : thread.phase.isInside → SectionHolds thread state.shared :=
      kept.exclusive.holds thread (List.mem_of_getElem? present)
    obtain ⟨newBoi, phase⟩ := thread
    cases phase with
    | toWrite =>
      obtain rfl := List.mem_singleton.mp accessed
      exact ⟨nonnegative, slotFree rfl⟩
    | compare i =>
      obtain rfl := List.mem_singleton.mp accessed
      have below : (i : Int) < state.shared.currentClientCount := holds rfl
      omega
    | copy i j =>
      obtain ⟨_, more⟩ := holds rfl
      rcases List.mem_cons.mp accessed with rfl | second
      · omega
      · obtain rfl := List.mem_singleton.mp second
        omega
    | unnamed | toIncrement | joined | outerTest | innerTest | toDecrement | gone =>
      exact absurd accessed List.not_mem_nil

/-- The registrations and removals of a run, in the order in which they are begun. -/
def sectionCalls (events : List (Event TableThread TableInput)) : List TableCall :=
  TransitionSystem.emitted tableProgram.calls tableProgram.step startTableThreads events

section Runs

variable {events : List (Event TableThread TableInput)}

/-- Before the first connection the threads are kept apart. -/
theorem start_kept_apart : KeptApart startTableThreads := by
  have rest : tableProgram.AtRest startTableThreads :=
    fun _ member => absurd member List.not_mem_nil
  obtain ⟨formed, registered⟩ := empty_table_formed
  have settled : tableProgram.settled startTableThreads = emptyTable := rest.settled
  refine ⟨rest.exclusive, formed, settled ▸ formed, ?_, List.nodup_nil⟩
  rw [settled, registered]
  exact List.Perm.refl _

/-- Runs of threads that work alone keep them apart, and the clients follow the calls. -/
theorem run_kept_apart
    (ran : TransitionSystem.run tableProgram.step startTableThreads events = some state)
    (alone : TransitionSystem.Meets tableProgram.step WorksAlone startTableThreads events) :
    KeptApart state ∧ Follows startTableThreads state (sectionCalls events) := by
  constructor
  · exact TransitionSystem.guarded_run_preserves KeptApart
      (fun _ _ _ kept alone stepped => (kept.step alone stepped).1) start_kept_apart alone ran
  · rw [sectionCalls]
    refine TransitionSystem.emitted_run (fun state => (tableProgram.settled state).registered)
      KeptApart ?_ start_kept_apart alone ran
    intro state event next kept alone stepped
    obtain ⟨keptToo, follows⟩ := kept.step alone stepped
    exact ⟨follows, keptToo⟩

end Runs

/-- At rest the clients that have joined are those of the threads in the message loop. -/
theorem joined_at_rest {threads : List TableThread}
    (rest : ∀ thread ∈ threads, ¬ thread.phase.isInside) :
    threads.flatMap joinedClient =
      (threads.filter fun thread => thread.phase = .joined).map TableThread.newBoi := by
  induction threads with
  | nil => rfl
  | cons thread threads inductionHypothesis =>
    obtain ⟨first, others⟩ := List.forall_mem_cons.mp rest
    obtain ⟨newBoi, phase⟩ := thread
    rw [List.flatMap_cons, inductionHypothesis others]
    cases phase with
    | toIncrement => exact absurd rfl first
    | joined => rfl
    | unnamed | toWrite | outerTest | compare | innerTest | copy | toDecrement | gone => rfl

/-- If the threads of a run work alone, no step reaches outside of the array, every client in
the message loop has an entry in use, and while no thread is inside a section the table is
that of whole calls: its entries in use are the clients connected by these, in their order,
and they are the clients of the threads in the message loop. Every statement on the table is a
step; a removal section begins with the `close`. Each thread has its own argument, which the
race of `AcceptArgument` would spoil. -/
theorem sections_mirror_clients {events : List (Event TableThread TableInput)}
    (ran : TransitionSystem.run tableProgram.step startTableThreads events = some state)
    (alone : TransitionSystem.Meets tableProgram.step WorksAlone startTableThreads events) :
    TransitionSystem.Meets tableProgram.step AccessesInside startTableThreads events ∧
      (∀ thread ∈ state.threads, thread.phase = .joined →
        thread.newBoi ∈ state.shared.registered) ∧
      (tableProgram.AtRest state →
        CallsPermitted (sectionCalls events) ∧ state.shared = tableAfter (sectionCalls events) ∧
          state.shared.registered = connectedClients (sectionCalls events) ∧
          state.shared.registered.Perm
            ((state.threads.filter fun thread => thread.phase = .joined).map
              TableThread.newBoi)) := by
  obtain ⟨kept, follows⟩ := run_kept_apart ran alone
  refine ⟨?_, ?_, ?_⟩
  · exact TransitionSystem.Meets.imp KeptApart
      (fun _ _ _ kept alone stepped => (kept.step alone stepped).1)
      (fun _ _ kept alone => kept.accesses_inside alone) start_kept_apart alone
  · exact fun thread member joined => kept.listed member joined
  · intro rest
    have initially : tableProgram.AtRest startTableThreads :=
      fun _ member => absurd member List.not_mem_nil
    have atomic : tableProgram.settled state = tableAfter (sectionCalls events) :=
      ExclusiveSections.Program.settled_run initially
        (TransitionSystem.Meets.imp KeptApart
          (fun _ _ _ kept alone stepped => (kept.step alone stepped).1)
          (fun _ _ _ both => both.1) start_kept_apart alone) ran
    have settled : tableProgram.settled state = state.shared := rest.settled
    rw [Follows, settled] at follows
    obtain ⟨permitted, connected⟩ := connected_run follows
    refine ⟨permitted, settled.symm.trans atomic, connected, ?_⟩
    rw [← joined_at_rest rest, ← settled]
    exact kept.entries

/-- A connection is accepted. -/
def accepted (client_socket : Int) : Event TableThread TableInput :=
  .start ⟨⟨client_socket, []⟩, .unnamed⟩

/-- A thread takes so many statements. -/
def statements (t count : Nat) : List (Event TableThread TableInput) :=
  List.replicate count (.advance t .next)

/-- Two clients join. While the first one is removed, its number is accepted again; the new
client registers after the removal. -/
def numberAcceptedAgain : List (Event TableThread TableInput) :=
  [accepted 4, accepted 5, .advance 0 (.name ['a'.toUInt8])] ++ statements 0 2 ++
    [.advance 1 (.name ['b'.toUInt8])] ++ statements 1 2 ++
    [.advance 0 .disconnect, .advance 0 .next, accepted 4, .advance 2 (.name ['c'.toUInt8])] ++
    statements 0 6 ++ statements 2 2

/-- The table then has the second client and the new one. -/
theorem number_accepted_again_mirrored :
    ∃ state, TransitionSystem.run tableProgram.step startTableThreads numberAcceptedAgain =
        some state ∧
      state.shared.registered = connectedClients (sectionCalls numberAcceptedAgain) ∧
      connectedClients (sectionCalls numberAcceptedAgain) =
        [⟨5, ['b'.toUInt8]⟩, ⟨4, ['c'.toUInt8]⟩] := by
  have computed : (TransitionSystem.run tableProgram.step startTableThreads numberAcceptedAgain).map
      (fun state => decide (tableProgram.AtRest state)) = some true := by
    decide +kernel
  obtain ⟨state, ran, rest⟩ := Option.map_eq_some_iff.mp computed
  obtain ⟨_, _, mirrored⟩ := sections_mirror_clients ran (by decide +kernel)
  obtain ⟨_, _, connected, _⟩ := mirrored (by simpa using rest)
  exact ⟨state, ran, connected, by decide +kernel⟩

/-- Three clients join, their removals overlap, and a fourth client joins. -/
def overlappingRemovals : List (Event TableThread TableInput) :=
  [accepted 4, .advance 0 (.name [])] ++ statements 0 2 ++
    [accepted 5, .advance 1 (.name [])] ++ statements 1 2 ++
    [accepted 6, .advance 2 (.name [])] ++ statements 2 2 ++
    [.advance 0 .disconnect] ++ statements 0 7 ++ [.advance 1 .disconnect] ++ statements 1 4 ++
    [.advance 2 .disconnect] ++ statements 2 9 ++
    [.advance 1 .next, .advance 2 .next, .advance 0 .next, .advance 1 .next] ++ statements 2 3 ++
    [accepted 7, .advance 3 (.name [])] ++ statements 3 1

/-- The removals decrement the count four times, and the fourth client is written in front of
the array. -/
theorem overlapping_removals_leave_array :
    (TransitionSystem.run tableProgram.step startTableThreads overlappingRemovals).map
        (fun state => state.shared.currentClientCount) = some (-1) ∧
      ¬ TransitionSystem.Meets tableProgram.step AccessesInside startTableThreads
        overlappingRemovals := by
  decide +kernel

end HelperChat
