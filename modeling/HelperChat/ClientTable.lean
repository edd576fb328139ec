import HelperChat.CountedLoop
import HelperChat.EncDec

/-!
# The server's client table

The global array `clients` and its `currentClientCount` in `2_server.c`, with the two
statements that register a client and the loop that removes one. The type of the entries
is a parameter, so that entries can carry more than the code stores in them; the code
itself uses `OrganizedClientData`.

The removal loop goes on after a hit, but its index skips the entry that was shifted
into the hit's place. On the registered entries it is a scan that deletes entries with
the number and passes over the entry behind each deleted one.
-/

namespace HelperChat

open CountedLoop (iterate)

universe u v
variable {Entry : Type u} {Other : Type v} {socketOf : Entry → Int}

/-- `clients` and `currentClientCount`. -/
structure ClientTable (Entry : Type u) where
  clients : List Entry
  currentClientCount : Int
deriving DecidableEq

namespace ClientTable

/-- The entries in use, `clients[0..currentClientCount)`. -/
def registered (table : ClientTable Entry) : List Entry :=
  table.clients.take table.currentClientCount.toNat

/-- `clients[currentClientCount] = newBoi`. A write outside of the array changes nothing
in the model. -/
def writeSlot (table : ClientTable Entry) (newBoi : Entry) : ClientTable Entry :=
  { table with
    clients :=
      if 0 ≤ table.currentClientCount then
        table.clients.set table.currentClientCount.toNat newBoi
      else table.clients }

/-- `currentClientCount++`. -/
def incrementCount (table : ClientTable Entry) : ClientTable Entry :=
  { table with currentClientCount := table.currentClientCount + 1 }

/-- The whole registration. -/
def register (table : ClientTable Entry) (newBoi : Entry) : ClientTable Entry :=
  (table.writeSlot newBoi).incrementCount

/-- `clients[j] = clients[j + 1]`. Past the end of the array nothing is read or written. -/
def shiftEntry (j : Nat) (clients : List Entry) : List Entry :=
  match clients[j + 1]? with
  | some next => clients.set j next
  | none => clients

/-- The inner loop of the removal: `steps` entries from `i` on are shifted. -/
def shiftLeft (clients : List Entry) (i steps : Nat) : List Entry :=
  iterate (fun k => shiftEntry (i + k)) steps clients

/-- The outer loop of the removal from index `i` on, at most so many iterations. -/
def removeFrom (socketOf : Entry → Int) (clientSocketID : Int) :
    Nat → Nat → ClientTable Entry → ClientTable Entry
  | 0, _, table => table
  | fuel + 1, i, table =>
      if i < table.currentClientCount then
        if table.clients[i]?.map socketOf = some clientSocketID then
          removeFrom socketOf clientSocketID fuel (i + 1)
            { clients :=
                shiftLeft table.clients i (table.currentClientCount - 1 - i).toNat
              currentClientCount := table.currentClientCount - 1 }
        else removeFrom socketOf clientSocketID fuel (i + 1) table
      else table

/-- The whole removal loop. The count never grows in it, so it bounds the iterations. -/
def removeClient (socketOf : Entry → Int) (clientSocketID : Int) (table : ClientTable Entry) :
    ClientTable Entry :=
  removeFrom socketOf clientSocketID table.currentClientCount.toNat 0 table

/-- The array has its length and the count is one of its indices or its length. -/
structure WellFormed (table : ClientTable Entry) : Prop where
  allocated : table.clients.length = maximumConnectedClients
  countNonnegative : 0 ≤ table.currentClientCount
  countBounded : table.currentClientCount ≤ maximumConnectedClients

/-- A write to a free slot does not touch the registered entries. -/
@[simp] theorem registered_write_slot (table : ClientTable Entry) (newBoi : Entry) :
    (table.writeSlot newBoi).registered = table.registered := by
  by_cases nonnegative : 0 ≤ table.currentClientCount
  · simp only [registered, writeSlot, nonnegative, if_true]
    exact List.take_set_of_le (Nat.le_refl _)
  · simp [registered, writeSlot, nonnegative]

/-- What the removal does to the registered entries. -/
def scan (socketOf : Entry → Int) (clientSocketID : Int) : List Entry → List Entry
  | [] => []
  | [entry] => if socketOf entry = clientSocketID then [] else [entry]
  | entry :: next :: rest =>
      if socketOf entry = clientSocketID then next :: scan socketOf clientSocketID rest
      else entry :: scan socketOf clientSocketID (next :: rest)

variable {table : ClientTable Entry}

/-- There are as many registered entries as the count says. -/
theorem WellFormed.registered_length (formed : table.WellFormed) :
    table.registered.length = table.currentClientCount.toNat := by
  have bounded := formed.countBounded
  rw [registered, List.length_take, formed.allocated]
  omega

/-- The array after `steps` shifts from `i` on. -/
def Shifted (clients : List Entry) (i steps : Nat) (current : List Entry) : Prop :=
  current.length = clients.length ∧ ∀ index, current[index]? =
    if i ≤ index ∧ index < i + steps then clients[index + 1]? else clients[index]?

/-- One more shift. -/
theorem Shifted.step {clients current : List Entry} {i k : Nat}
    (shifted : Shifted clients i k current) (inside : i + k + 1 < clients.length) :
    Shifted clients i (k + 1) (shiftEntry (i + k) current) := by
  obtain ⟨length, entries⟩ := shifted
  have behind : current[i + k + 1]? = some clients[i + k + 1] := by
    rw [entries, if_neg (by omega), List.getElem?_eq_getElem inside]
  have written : shiftEntry (i + k) current = current.set (i + k) clients[i + k + 1] := by
    simp [shiftEntry, behind]
  rw [written]
  constructor
  · simpa using length
  · intro index
    by_cases here : i + k = index
    · rw [← here, List.getElem?_set_self (by omega), if_pos (by omega),
        List.getElem?_eq_getElem inside]
    · rw [List.getElem?_set_ne here, entries]
      by_cases before : i ≤ index ∧ index < i + k
      · rw [if_pos before, if_pos (by omega)]
      · rw [if_neg before, if_neg (by omega)]

/-- The inner loop shifts the entries of a segment of the array. -/
theorem shift_left_shifted {clients : List Entry} {i steps : Nat}
    (inside : i + steps < clients.length) :
    Shifted clients i steps (shiftLeft clients i steps) := by
  apply CountedLoop.iterate_invariant _ (Shifted clients i) steps
  · constructor
    · rfl
    · intro index
      rw [if_neg (by omega)]
  · intro k below current shifted
    exact shifted.step (by omega)

/-- Removing at an index: the entries before it stay, those behind it move up. -/
theorem shift_left_take {clients : List Entry} {i count : Nat} (below : i < count)
    (bounded : count ≤ clients.length) :
    (shiftLeft clients i (count - 1 - i)).take (count - 1) =
      (clients.take count).take i ++ (clients.take count).drop (i + 1) := by
  obtain ⟨_, entries⟩ : Shifted clients i (count - 1 - i) (shiftLeft clients i (count - 1 - i)) :=
    shift_left_shifted (by omega)
  refine List.ext_getElem? ?_
  intro index
  by_cases inside : index < count - 1
  · rw [List.getElem?_take_of_lt inside, entries]
    by_cases before : index < i
    · rw [if_neg (by omega), List.getElem?_append_left (by simp; omega),
        List.getElem?_take_of_lt before, List.getElem?_take_of_lt (by omega)]
    · rw [if_pos (by omega), List.getElem?_append_right (by simp; omega), List.getElem?_drop]
      have length : ((clients.take count).take i).length = i := by
        simp only [List.length_take]
        omega
      have position : i + 1 + (index - i) = index + 1 := by omega
      rw [length, position, List.getElem?_take_of_lt (by omega)]
  · rw [List.getElem?_eq_none (by simp only [List.length_take]; omega),
      List.getElem?_eq_none (by
        simp only [List.length_append, List.length_take, List.length_drop]
        omega)]

/-- One hit of the outer loop removes the entry at its index. -/
theorem WellFormed.remove_at (formed : table.WellFormed) {i : Nat}
    (below : i < table.currentClientCount) :
    WellFormed (ClientTable.mk
        (shiftLeft table.clients i (table.currentClientCount - 1 - i).toNat)
        (table.currentClientCount - 1)) ∧
      registered (ClientTable.mk
        (shiftLeft table.clients i (table.currentClientCount - 1 - i).toNat)
        (table.currentClientCount - 1)) =
        table.registered.take i ++ table.registered.drop (i + 1) := by
  have allocated := formed.allocated
  have bounded := formed.countBounded
  have steps : (table.currentClientCount - 1 - i).toNat =
      table.currentClientCount.toNat - 1 - i := by
    omega
  have length : (shiftLeft table.clients i (table.currentClientCount.toNat - 1 - i)).length =
      table.clients.length := (shift_left_shifted (by omega)).1
  have count : (table.currentClientCount - 1).toNat = table.currentClientCount.toNat - 1 := by omega
  rw [steps]
  constructor
  · refine ⟨length.trans allocated, ?_, ?_⟩
    · change 0 ≤ table.currentClientCount - 1
      omega
    · change table.currentClientCount - 1 ≤ maximumConnectedClients
      omega
  · change (shiftLeft _ _ _).take (table.currentClientCount - 1).toNat = _
    rw [count]
    exact shift_left_take (by omega) (by omega)

/-- The scan deletes a hit and passes over the entry behind it. -/
theorem scan_hit {clientSocketID : Int} {entry : Entry} (hit : socketOf entry = clientSocketID)
    (rest : List Entry) :
    scan socketOf clientSocketID (entry :: rest) =
      rest.take 1 ++ scan socketOf clientSocketID (rest.drop 1) := by
  cases rest with
  | nil => simp [scan, hit]
  | cons next later => simp [scan, hit]

/-- The scan keeps an entry with another number. -/
theorem scan_miss {clientSocketID : Int} {entry : Entry} (miss : socketOf entry ≠ clientSocketID)
    (rest : List Entry) :
    scan socketOf clientSocketID (entry :: rest) = entry :: scan socketOf clientSocketID rest := by
  cases rest with
  | nil => simp [scan, miss]
  | cons next later => simp [scan, miss]

/-- After an entry was removed, the entry that took its place is the one before the next
index. -/
theorem removed_split {entries : List Entry} {i : Nat} (inside : i < entries.length) :
    (entries.take i ++ entries.drop (i + 1)).take (i + 1) =
        entries.take i ++ (entries.drop (i + 1)).take 1 ∧
      (entries.take i ++ entries.drop (i + 1)).drop (i + 1) =
        (entries.drop (i + 1)).drop 1 := by
  have before : (entries.take i).length = i := by
    simp only [List.length_take]
    omega
  have taken : (entries.take i ++ entries.drop (i + 1)).take ((entries.take i).length + 1) =
      entries.take i ++ (entries.drop (i + 1)).take 1 := List.take_length_add_append 1
  have dropped : (entries.take i ++ entries.drop (i + 1)).drop ((entries.take i).length + 1) =
      (entries.drop (i + 1)).drop 1 := List.drop_length_add_append 1
  rw [before] at taken dropped
  exact ⟨taken, dropped⟩

/-- The outer loop from an index on scans the entries from there on. -/
theorem WellFormed.remove_from (clientSocketID : Int) {fuel i : Nat} (formed : table.WellFormed)
    (enough : table.currentClientCount.toNat ≤ i + fuel) :
    (removeFrom socketOf clientSocketID fuel i table).WellFormed ∧
      (removeFrom socketOf clientSocketID fuel i table).registered =
        table.registered.take i ++ scan socketOf clientSocketID (table.registered.drop i) := by
  induction fuel generalizing i table with
  | zero =>
    have length := formed.registered_length
    rw [List.drop_eq_nil_of_le (by omega), List.take_of_length_le (by omega), scan,
      List.append_nil]
    exact ⟨formed, rfl⟩
  | succ fuel inductionHypothesis =>
    have length := formed.registered_length
    unfold removeFrom
    split
    case isFalse done =>
      rw [List.drop_eq_nil_of_le (by omega), List.take_of_length_le (by omega), scan,
        List.append_nil]
      exact ⟨formed, rfl⟩
    case isTrue below =>
      have inside : i < table.registered.length := by omega
      have present : table.clients[i]? = some table.registered[i] := by
        rw [← List.getElem?_eq_getElem inside, registered, List.getElem?_take_of_lt (by omega)]
      rw [List.drop_eq_getElem_cons inside]
      split
      case isTrue found =>
        have hit : socketOf table.registered[i] = clientSocketID := by
          simpa [present] using found
        obtain ⟨formedNext, remaining⟩ := formed.remove_at below
        obtain ⟨taken, dropped⟩ := removed_split inside
        obtain ⟨formedAfter, result⟩ := inductionHypothesis (i := i + 1) formedNext (by
          change (table.currentClientCount - 1).toNat ≤ i + 1 + fuel
          omega)
        refine ⟨formedAfter, ?_⟩
        rw [result, remaining, taken, dropped, scan_hit hit, List.append_assoc]
      case isFalse other =>
        have miss : socketOf table.registered[i] ≠ clientSocketID := by
          simpa [present] using other
        obtain ⟨formedAfter, result⟩ := inductionHypothesis (i := i + 1) formed (by omega)
        refine ⟨formedAfter, ?_⟩
        rw [result, scan_miss miss, List.take_succ_eq_append_getElem inside, List.append_assoc]
        rfl

/-- The removal scans the registered entries. -/
theorem WellFormed.remove_client (clientSocketID : Int) (formed : table.WellFormed) :
    (removeClient socketOf clientSocketID table).WellFormed ∧
      (removeClient socketOf clientSocketID table).registered =
        scan socketOf clientSocketID table.registered := by
  obtain ⟨formedAfter, result⟩ := formed.remove_from clientSocketID
    (Nat.le_of_eq (Nat.zero_add table.currentClientCount.toNat).symm)
  exact ⟨formedAfter, result⟩

/-- A registration with a free slot appends to the registered entries. -/
theorem WellFormed.register (formed : table.WellFormed)
    (free : table.currentClientCount < maximumConnectedClients) (newBoi : Entry) :
    (table.register newBoi).WellFormed ∧
      (table.register newBoi).registered = table.registered ++ [newBoi] := by
  have allocated := formed.allocated
  have nonnegative := formed.countNonnegative
  have count : (table.currentClientCount + 1).toNat = table.currentClientCount.toNat + 1 := by omega
  constructor
  · refine ⟨?_, ?_, ?_⟩
    · simpa [ClientTable.register, writeSlot, incrementCount, nonnegative] using allocated
    · change 0 ≤ table.currentClientCount + 1
      omega
    · change table.currentClientCount + 1 ≤ maximumConnectedClients
      omega
  · simp only [registered, ClientTable.register, writeSlot, incrementCount, nonnegative, if_true,
      count]
    rw [List.take_add_one, List.take_set_of_le (Nat.le_refl _),
      List.getElem?_set_self (by omega), Option.toList_some]

/-- Without the number among the entries the scan changes nothing. -/
theorem scan_of_absent {clientSocketID : Int} {entries : List Entry}
    (absent : ∀ entry ∈ entries, socketOf entry ≠ clientSocketID) :
    scan socketOf clientSocketID entries = entries := by
  induction entries with
  | nil => rfl
  | cons entry rest inductionHypothesis =>
    rw [scan_miss (absent entry List.mem_cons_self),
      inductionHypothesis fun other member => absent other (List.mem_cons_of_mem entry member)]

/-- Without the number among the registered entries the removal changes nothing, not even
behind them. -/
theorem remove_client_of_absent {clientSocketID : Int}
    (absent : ∀ entry ∈ table.registered, socketOf entry ≠ clientSocketID) :
    removeClient socketOf clientSocketID table = table := by
  have loop : ∀ fuel i, removeFrom socketOf clientSocketID fuel i table = table := by
    intro fuel
    induction fuel with
    | zero =>
      intro i
      rfl
    | succ fuel inductionHypothesis =>
      intro i
      unfold removeFrom
      split
      case isFalse => rfl
      case isTrue below =>
        have miss : table.clients[i]?.map socketOf ≠ some clientSocketID := by
          intro found
          obtain ⟨entry, present, hit⟩ := Option.map_eq_some_iff.mp found
          have member : entry ∈ table.registered := by
            apply List.mem_of_getElem? (i := i)
            rw [registered, List.getElem?_take_of_lt (by omega), present]
          exact absent entry member hit
        rw [if_neg miss]
        exact inductionHypothesis (i + 1)
  exact loop table.currentClientCount.toNat 0

/-- The scan only deletes. -/
theorem scan_sublist (clientSocketID : Int) (entries : List Entry) :
    (scan socketOf clientSocketID entries).Sublist entries := by
  fun_induction scan socketOf clientSocketID entries with
  | case1 => exact List.nil_sublist _
  | case2 => exact List.nil_sublist _
  | case3 => exact List.Sublist.refl _
  | case4 entry next rest hit inductionHypothesis =>
    exact (inductionHypothesis.cons_cons next).cons entry
  | case5 entry next rest miss inductionHypothesis =>
    exact inductionHypothesis.cons_cons entry

/-- The scan changes nothing only if the number is absent. -/
theorem absent_of_scan {clientSocketID : Int} {entries : List Entry}
    (unchanged : scan socketOf clientSocketID entries = entries) :
    ∀ entry ∈ entries, socketOf entry ≠ clientSocketID := by
  induction entries with
  | nil => simp
  | cons entry rest inductionHypothesis =>
    by_cases hit : socketOf entry = clientSocketID
    · have shorter : (scan socketOf clientSocketID (rest.drop 1)).length ≤ (rest.drop 1).length :=
        (scan_sublist clientSocketID (rest.drop 1)).length_le
      rw [scan_hit hit] at unchanged
      have same := congrArg List.length unchanged
      rw [List.length_drop] at shorter
      simp only [List.length_append, List.length_take, List.length_cons] at same
      omega
    · rw [scan_miss hit, List.cons.injEq] at unchanged
      intro other member
      rcases List.mem_cons.mp member with rfl | later
      · exact hit
      · exact inductionHypothesis unchanged.2 other later

/-- Among entries with distinct numbers the scan deletes the one with the number. -/
theorem scan_of_distinct (clientSocketID : Int) {entries : List Entry}
    (distinct : (entries.map socketOf).Nodup) :
    scan socketOf clientSocketID entries =
      entries.filter fun entry => socketOf entry ≠ clientSocketID := by
  induction entries with
  | nil => rfl
  | cons entry rest inductionHypothesis =>
    rw [List.map_cons, List.nodup_cons] at distinct
    obtain ⟨alone, others⟩ := distinct
    by_cases hit : socketOf entry = clientSocketID
    · have absent : ∀ other ∈ rest, socketOf other ≠ clientSocketID := by
        intro other member same
        exact alone (hit.trans same.symm ▸ List.mem_map_of_mem member)
      have kept : rest.filter (fun entry => socketOf entry ≠ clientSocketID) = rest :=
        List.filter_eq_self.mpr (by simpa using absent)
      rw [scan_hit hit, scan_of_absent fun other member =>
        absent other (List.mem_of_mem_drop member), List.take_append_drop,
        List.filter_cons_of_neg (by simpa using hit), kept]
    · rw [scan_miss hit, inductionHypothesis others,
        List.filter_cons_of_pos (by simpa using hit)]

/-- Among entries with distinct numbers the removal deletes the one with the number. -/
theorem WellFormed.remove_distinct (formed : table.WellFormed)
    (distinct : (table.registered.map socketOf).Nodup) (clientSocketID : Int) :
    (removeClient socketOf clientSocketID table).WellFormed ∧
      (removeClient socketOf clientSocketID table).registered =
        table.registered.filter fun entry => socketOf entry ≠ clientSocketID := by
  obtain ⟨formedAfter, scanned⟩ : (removeClient socketOf clientSocketID table).WellFormed ∧
      (removeClient socketOf clientSocketID table).registered = _ :=
    formed.remove_client clientSocketID
  exact ⟨formedAfter, scanned.trans (scan_of_distinct clientSocketID distinct)⟩

/-- Seen as a list of numbers the entries lose this number. -/
theorem WellFormed.remove_sockets (formed : table.WellFormed)
    (distinct : (table.registered.map socketOf).Nodup) (clientSocketID : Int) :
    (removeClient socketOf clientSocketID table).registered.map socketOf =
      (table.registered.map socketOf).erase clientSocketID := by
  rw [(formed.remove_distinct distinct clientSocketID).2, distinct.erase_eq_filter,
    List.filter_map]
  congr 1
  apply List.filter_congr
  intro entry _
  by_cases same : socketOf entry = clientSocketID
  · simp [same]
  · simp [same]

/-- Shifting only moves entries that are already in the array. -/
theorem shift_left_subset (clients : List Entry) (i steps : Nat) :
    shiftLeft clients i steps ⊆ clients := by
  refine CountedLoop.iterate_invariant _ (fun _ current => current ⊆ clients) steps
    (List.Subset.refl _) ?_
  intro k _ current inside entry member
  unfold shiftEntry at member
  split at member
  case h_1 next present =>
    cases List.mem_or_eq_of_mem_set member with
    | inl old => exact inside old
    | inr same => exact inside (same ▸ List.mem_of_getElem? present)
  case h_2 absent => exact inside member

/-- So does the removal. -/
theorem remove_client_subset (clientSocketID : Int) (table : ClientTable Entry) :
    (removeClient socketOf clientSocketID table).clients ⊆ table.clients := by
  have loop : ∀ fuel i (table : ClientTable Entry),
      (removeFrom socketOf clientSocketID fuel i table).clients ⊆ table.clients := by
    intro fuel
    induction fuel with
    | zero =>
      intro i table
      exact List.Subset.refl _
    | succ fuel inductionHypothesis =>
      intro i table
      rw [removeFrom]
      split
      case isFalse => exact List.Subset.refl _
      case isTrue =>
        split
        case isFalse => exact inductionHypothesis (i + 1) table
        case isTrue =>
          exact List.Subset.trans (inductionHypothesis (i + 1) _)
            (shift_left_subset table.clients i _)
  exact loop table.currentClientCount.toNat 0 table

/-- After a registration the array holds its old entries and the new one. -/
theorem mem_register {newBoi entry : Entry}
    (member : entry ∈ (table.register newBoi).clients) :
    entry ∈ table.clients ∨ entry = newBoi := by
  simp only [ClientTable.register, writeSlot, incrementCount] at member
  split at member
  · exact List.mem_or_eq_of_mem_set member
  · exact .inl member

/-- A table with other data in its entries. -/
def map (f : Entry → Other) (table : ClientTable Entry) : ClientTable Other where
  clients := table.clients.map f
  currentClientCount := table.currentClientCount

/-- Registering does not look at the data of the entries. -/
theorem map_register (f : Entry → Other) (table : ClientTable Entry) (newBoi : Entry) :
    (table.register newBoi).map f = (table.map f).register (f newBoi) := by
  by_cases nonnegative : 0 ≤ table.currentClientCount
  · simp [map, ClientTable.register, writeSlot, incrementCount, nonnegative, List.map_set]
  · simp [map, ClientTable.register, writeSlot, incrementCount, nonnegative]

/-- Shifting does not look at the data of the entries. -/
theorem map_shift_left (f : Entry → Other) (clients : List Entry) (i steps : Nat) :
    (shiftLeft clients i steps).map f = shiftLeft (clients.map f) i steps := by
  unfold shiftLeft
  induction steps with
  | zero => rfl
  | succ steps inductionHypothesis =>
    rw [CountedLoop.iterate_succ, CountedLoop.iterate_succ, ← inductionHypothesis]
    unfold shiftEntry
    rw [List.getElem?_map]
    split
    case h_1 next present => simp [present, List.map_set]
    case h_2 absent => simp [absent]

/-- The removal looks at the socket numbers of the entries only. -/
theorem map_remove_client {f : Entry → Other} {otherSocketOf : Other → Int}
    (same : ∀ entry, otherSocketOf (f entry) = socketOf entry) (clientSocketID : Int)
    (table : ClientTable Entry) :
    (removeClient socketOf clientSocketID table).map f =
      removeClient otherSocketOf clientSocketID (table.map f) := by
  have loop : ∀ fuel i (table : ClientTable Entry),
      (removeFrom socketOf clientSocketID fuel i table).map f =
        removeFrom otherSocketOf clientSocketID fuel i (table.map f) := by
    intro fuel
    induction fuel with
    | zero =>
      intro i table
      rfl
    | succ fuel inductionHypothesis =>
      intro i table
      have numbers : (table.map f).clients[i]?.map otherSocketOf =
          table.clients[i]?.map socketOf := by
        simp [map, Function.comp_def, same]
      simp only [removeFrom, numbers]
      change (ite _ _ _ : ClientTable Entry).map f = ite (_ < table.currentClientCount) _ _
      split
      · split
        · rw [inductionHypothesis]
          simp [map, map_shift_left]
        · exact inductionHypothesis (i + 1) table
      · rfl
  exact loop table.currentClientCount.toNat 0 table

end ClientTable

/-- The table of a server that has just been started: the global array is zeroed. -/
def emptyTable : ClientTable OrganizedClientData where
  clients := List.replicate maximumConnectedClients ⟨0, List.replicate bufferSize 0⟩
  currentClientCount := 0

/-- It is well formed, with no entry in use. -/
theorem empty_table_formed : emptyTable.WellFormed ∧ emptyTable.registered = [] :=
  ⟨⟨rfl, Int.le_refl 0, by decide⟩, rfl⟩

end HelperChat
