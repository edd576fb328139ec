import HelperChat.IndexedWalk
import HelperChat.RelayRouting
import HelperChat.WelcomeList

/-!
# Collecting the list of the clients

The loop of `outputConnectedClients`, one iteration after another, while other threads
register and remove clients. Every iteration reads the count and the entry at its index as
they are at that time. If the table stays as it is, the list is that of `ServerTexts`.

A removal in front of the index moves the entries behind it up, and the loop passes over the
one at the index. The thread's own name is in its list unless this happens to its own entry.
-/

namespace HelperChat

open CString (literal snprintf strcat strncpy text)

/-- Where a thread is with `outputConnectedClients`: the list and the index of the loop, or
behind the `send`. -/
inductive Listing where
  | collecting (listOfClients : List UInt8) (i : Nat)
  | sent
deriving DecidableEq

/-- `listOfClients` is cleared. -/
def startListing : Listing := .collecting (List.replicate bufferSize 0) 0

/-- A step of `outputConnectedClients`, with what it sends: an iteration of the loop, or behind
the last one the banners and the `send`. -/
def listingStep (selectedClient : Int) (table : ClientTable OrganizedClientData) :
    Listing → Option (Listing × List Sending)
  | .collecting listOfClients i =>
      if i < table.currentClientCount then
        table.clients[i]?.map fun client =>
          (.collecting (strcat (strcat listOfClients client.name) (literal "\n")) (i + 1), [])
      else
        some (.sent, [⟨selectedClient,
          snprintf bufferSize (openingBanner ++ text listOfClients ++ closingBanner)⟩])
  | .sent => none

section Alone

variable {table : ClientTable OrganizedClientData}

/-- The list after some iterations over a table that stays as it is. -/
theorem listing_iterations (formed : table.WellFormed) (selectedClient : Int) {i : Nat}
    (inside : i ≤ table.registered.length) :
    TransitionSystem.run
        (fun listing (_ : Unit) => (listingStep selectedClient table listing).map Prod.fst)
        startListing (List.replicate i ()) =
      some (.collecting
        (listOfClients ((table.registered.take i).map OrganizedClientData.name)) i) := by
  induction i with
  | zero => rfl
  | succ i inductionHypothesis =>
    have length := formed.registered_length
    have here : i < table.registered.length := inside
    have counted : (i : Int) < table.currentClientCount := by omega
    have read : table.clients[i]? = some table.registered[i] := by
      rw [← List.getElem?_eq_getElem here, ClientTable.registered,
        List.getElem?_take_of_lt (by omega)]
    rw [List.replicate_succ']
    refine TransitionSystem.run_trans (inductionHypothesis (Nat.le_of_lt here)) ?_
    rw [TransitionSystem.run_singleton, List.take_succ_eq_append_getElem here, List.map_append,
      listOfClients, listOfClients, List.foldl_append]
    simp only [listingStep, if_pos counted, read, Option.map_some]
    rfl

/-- Over a table that stays as it is, the steps send the list of `outputConnectedClients`. -/
theorem listing_alone (formed : table.WellFormed) (selectedClient : Int) :
    ∃ listing, TransitionSystem.run
        (fun listing (_ : Unit) => (listingStep selectedClient table listing).map Prod.fst)
        startListing (List.replicate table.registered.length ()) = some listing ∧
      listingStep selectedClient table listing =
        some (.sent, outputConnectedClients selectedClient table) := by
  have length := formed.registered_length
  have behind : ¬ (table.registered.length : Int) < table.currentClientCount := by omega
  refine ⟨_, listing_iterations formed selectedClient le_rfl, ?_⟩
  rw [listingStep, if_neg behind, List.take_length]
  rfl

end Alone

/-- A whole list of the clients, with a name among them. -/
def ListsName (name list : List UInt8) : Prop := ∃ names, name ∈ names ∧ list = welcomeList names

/-- The removal of a connection's entry moves the entry of another one up from the index. -/
def MovesUp (relay : Relay) (removed t i : Nat) : Prop :=
  removed ∈ (relay.table.registered.take i).map Listed.connection ∧
    relay.table.registered[i]?.map Listed.connection = some t

instance (relay : Relay) (removed t i : Nat) : Decidable (MovesUp relay removed t i) :=
  inferInstanceAs (Decidable (_ ∧ _))

/-- The list of a thread that collects it: names with their newlines, of no more bytes than the
banners leave. From the registration on the thread's own name is among them, or its entry is
not in front of the index. -/
structure Collects (relay : Relay) (t : Nat) (name listOfClients : List UInt8) (i : Nat) :
    Prop where
  size : listOfClients.length = bufferSize
  short : (text listOfClients).length ≤ 34
  first : ∀ thread, relay.threads[t]? = some thread → thread.phase = .toReceiveName → i = 0
  names : ∃ names : List (List UInt8),
    text listOfClients = names.flatMap (fun name => name ++ literal "\n") ∧
    ∀ thread, relay.threads[t]? = some thread → thread.phase = .toPush →
      name ∈ names ∨ t ∈ (relay.table.registered.drop i).map Listed.connection

variable {relay after : Relay} {t i : Nat} {name listOfClients : List UInt8}

/-- In front of the loop of a thread that has not received its client's name. -/
theorem start_collects (name : List UInt8)
    (unnamed : ∀ thread, relay.threads[t]? = some thread → thread.phase = .toReceiveName) :
    Collects relay t name (List.replicate bufferSize 0) 0 := by
  have empty : text (List.replicate bufferSize 0) = [] := by decide
  refine ⟨List.length_replicate, by simp [empty], fun _ _ _ => rfl, [], empty, ?_⟩
  intro thread present before
  rw [unnamed thread present] at before
  cases before

section Removal

variable {entries : List Listed} {removed : Nat}

/-- Among entries of different connections one is deleted. -/
theorem erase_connection (distinct : (entries.map Listed.connection).Nodup) {entry : Listed}
    (member : entry ∈ entries) :
    (entries.filter fun other => other.connection ≠ entry.connection) = entries.erase entry := by
  rw [List.Nodup.erase_eq_filter (List.Nodup.of_map _ distinct)]
  refine List.filter_congr ?_
  intro other among
  have same : other.connection = entry.connection ↔ other = entry :=
    ⟨fun equal => List.inj_on_of_nodup_map distinct among member equal, congrArg _⟩
  rw [Bool.eq_iff_iff]
  simp [same]

/-- An entry that is not in front of an index stays so when another one is deleted, unless it
moves up from the index. -/
theorem ahead_after_removal (distinct : (entries.map Listed.connection).Nodup)
    (other : t ≠ removed) (ahead : t ∈ (entries.drop i).map Listed.connection)
    (stays : removed ∈ (entries.take i).map Listed.connection →
      entries[i]?.map Listed.connection ≠ some t) :
    t ∈ ((entries.filter fun entry => entry.connection ≠ removed).drop i).map
      Listed.connection := by
  obtain ⟨entry, behind, rfl⟩ := List.mem_map.mp ahead
  by_cases present : removed ∈ entries.map Listed.connection
  · obtain ⟨gone, member, rfl⟩ := List.mem_map.mp present
    rw [erase_connection distinct member]
    by_cases before : gone ∈ entries.take i
    · -- what is behind the index moves up by one place
      rw [(IndexedWalk.erase_before before).2]
      cases here : entries[i]? with
      | none =>
        rw [List.drop_eq_nil_of_le (List.getElem?_eq_none_iff.mp here)] at behind
        cases behind
      | some next =>
        obtain ⟨inside, read⟩ := List.getElem?_eq_some_iff.mp here
        have different := stays (List.mem_map_of_mem before)
        rw [here, Option.map_some] at different
        rw [List.drop_eq_getElem_cons inside, read] at behind
        rcases List.mem_cons.mp behind with rfl | later
        · exact absurd rfl different
        · exact List.mem_map_of_mem later
    · rw [(IndexedWalk.erase_ahead before).2]
      refine List.mem_map_of_mem ((List.mem_erase_of_ne ?_).mpr behind)
      rintro rfl
      exact other rfl
  · have all : (entries.filter fun entry => entry.connection ≠ removed) = entries := by
      rw [List.filter_eq_self]
      intro entry member
      exact decide_eq_true fun same => present (same ▸ List.mem_map_of_mem member)
    rw [all]
    exact ahead

end Removal

/-- A step of the server in which the thread does not register and its entry does not move up
from the index. -/
theorem Collects.step (collects : Collects relay t name listOfClients i) (routed : Routed relay)
    {event : RelayEvent} (free : FindsFreeSlot relay event)
    (stepped : relayStep relay event = some after) (old : t < relay.threads.length)
    (other : ∀ origSender, event ≠ .register t origSender)
    (stays : ∀ removed, event = .remove removed → ¬ MovesUp relay removed t i) :
    Collects after t name listOfClients i := by
  obtain ⟨size, short, first, names, written, ahead⟩ := collects
  refine ⟨size, short, ?_, names, written, ?_⟩
  · intro thread present before
    exact first thread (early_before stepped present (.inl before) old other) before
  · intro thread present before
    have running := early_before stepped present (.inr before) old other
    refine (ahead thread running before).imp id fun behind => ?_
    cases relay_move stepped with
    | accepts | refuses | leaves | pushes | posts | visits | ends => exact behind
    | registers index moving origSender found =>
      obtain ⟨_, registered⟩ := routed.relaying.formed.register free
        ⟨index, moving.clientSocketID, strncpy origSender bufferSize⟩
      rw [registered, List.drop_append, List.map_append]
      exact List.mem_append_left _ behind
    | removes index moving found receiving =>
      have different : t ≠ index := by
        rintro rfl
        obtain rfl := Option.some.inj (running.symm.trans found)
        rw [before] at receiving
        cases receiving
      have removed := routed.removed (t := index)
        ⟨moving, found, by simp [receiving], rfl⟩
      rw [removed]
      exact ahead_after_removal routed.relaying.distinct different behind
        fun inFront here => stays index rfl ⟨inFront, here⟩

/-- The thread registers. -/
theorem Collects.register (collects : Collects relay t name listOfClients i)
    (routed : Routed relay) {origSender : List UInt8}
    (free : FindsFreeSlot relay (.register t origSender))
    (stepped : relayStep relay (.register t origSender) = some after) :
    Collects after t name listOfClients i := by
  obtain ⟨size, short, first, names, written, _⟩ := collects
  cases relay_move stepped with
  | registers _ thread _ present before =>
    obtain ⟨_, registered⟩ := routed.relaying.formed.register free
      ⟨t, thread.clientSocketID, strncpy origSender bufferSize⟩
    obtain rfl := first thread present before
    refine ⟨size, short, fun _ _ _ => rfl, names, written, fun _ _ _ => .inr ?_⟩
    rw [registered, List.drop_zero, List.map_append]
    exact List.mem_append_right _ (List.mem_singleton_self _)

section Own

variable {thread : RelayThread}

/-- An iteration of the loop whose name leaves room for the banners. -/
theorem Collects.iteration (collects : Collects relay t name listOfClients i)
    (routed : Routed relay) (running : relay.threads[t]? = some thread)
    (before : thread.phase = .toPush) (own : text thread.origSender = name)
    (fits : name.length ≤ bufferSize) (inside : i < relay.table.currentClientCount)
    {entry : Listed} (read : relay.table.clients[i]? = some entry)
    (room : (text listOfClients).length + (text entry.client.name).length + 1 ≤ 34) :
    Collects relay t name (strcat (strcat listOfClients entry.client.name) (literal "\n"))
      (i + 1) := by
  obtain ⟨size, _, _, names, written, ahead⟩ := collects
  have large : 34 < bufferSize := by decide
  obtain ⟨_, one⟩ := text_newline
  have line : text (strcat (strcat listOfClients entry.client.name) (literal "\n")) =
      text listOfClients ++ text entry.client.name ++ literal "\n" :=
    text_strcat_line (by omega)
  refine ⟨by simpa using size, ?_, ?_, names ++ [text entry.client.name], ?_, ?_⟩
  · rw [line, List.length_append, List.length_append, one]
    exact room
  · intro other present unnamed
    obtain rfl := Option.some.inj (running.symm.trans present)
    rw [before] at unnamed
    cases unnamed
  · rw [line, written]
    simp
  · intro _ _ _
    rcases ahead thread running before with listed | behind
    · exact .inl (List.mem_append_left _ listed)
    · obtain ⟨here, isHere, split⟩ := routed.relaying.entry inside
      obtain rfl := Option.some.inj (read.symm.trans isHere)
      rw [split, List.map_cons, List.mem_cons] at behind
      refine behind.imp (fun same => ?_) id
      -- the entry at the index is the thread's own one
      have member : entry ∈ relay.table.registered :=
        List.mem_of_mem_drop (split ▸ List.mem_cons_self)
      have listed := routed.listed t thread running (by simp [RelayThread.Named, before])
        (by simp [before])
      obtain rfl : entry = thread.entry t :=
        List.inj_on_of_nodup_map routed.relaying.distinct member listed same.symm
      have named : text (thread.entry t).client.name = name :=
        (CString.text_strncpy (own ▸ fits)).trans own
      exact List.mem_append_right _ (List.mem_singleton.mpr named.symm)

/-- Behind the last iteration the list is sent whole, with the thread's own name. -/
theorem Collects.whole (collects : Collects relay t name listOfClients i)
    (routed : Routed relay) (running : relay.threads[t]? = some thread)
    (before : thread.phase = .toPush) (behind : relay.table.currentClientCount ≤ i) :
    ListsName name
      (text (snprintf bufferSize (openingBanner ++ text listOfClients ++ closingBanner))) := by
  obtain ⟨_, short, _, names, written, ahead⟩ := collects
  have length := routed.relaying.formed.registered_length
  have nobody : relay.table.registered.drop i = [] := List.drop_eq_nil_of_le (by omega)
  have listed : name ∈ names := by
    simpa [nobody] using ahead thread running before
  have banners : openingBanner.length = 47 ∧ closingBanner.length = 18 ∧ 0 ∉ openingBanner ∧
      0 ∉ closingBanner := by decide
  obtain ⟨opening, closing, noNulOpening, noNulClosing⟩ := banners
  have fit : (openingBanner ++ text listOfClients ++ closingBanner).length < bufferSize := by
    rw [List.length_append, List.length_append, opening, closing]
    change _ < 100
    omega
  have noNul : 0 ∉ openingBanner ++ text listOfClients ++ closingBanner := by
    simp only [List.mem_append, not_or]
    exact ⟨⟨noNulOpening, CString.no_nul_in_text _⟩, noNulClosing⟩
  refine ⟨names, listed, ?_⟩
  rw [CString.snprintf_of_fit fit, CString.text_of_no_nul noNul, written]
  rfl

end Own

end HelperChat
