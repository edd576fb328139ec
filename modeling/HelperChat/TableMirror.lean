import HelperChat.ClientTable
import Mathlib.Data.List.Induction
import Mathlib.Data.List.Nodup

/-!
# The table as a list of clients

Whole registrations and whole removals, one at a time. What the table is for: its entries
in use are the clients that were registered and not removed since, in the order in which
they joined.

A registration is permitted if its number is not in use and the table has a free slot.
-/

namespace HelperChat

/-- A whole registration or a whole removal. -/
inductive TableCall where
  | registration (newBoi : OrganizedClientData)
  | removal (clientSocketID : Int)
deriving DecidableEq

/-- One call on the table. -/
def tableCall (table : ClientTable OrganizedClientData) : TableCall →
    ClientTable OrganizedClientData
  | .registration newBoi => table.register newBoi
  | .removal clientSocketID =>
      ClientTable.removeClient OrganizedClientData.socket clientSocketID table

/-- The table of a new server after the calls. -/
def tableAfter (calls : List TableCall) : ClientTable OrganizedClientData :=
  calls.foldl tableCall emptyTable

/-- The clients registered by the calls whose number is not removed by a later call. -/
def connectedClients : List TableCall → List OrganizedClientData
  | [] => []
  | .registration newBoi :: rest =>
      if .removal newBoi.socket ∈ rest then connectedClients rest
      else newBoi :: connectedClients rest
  | .removal _ :: rest => connectedClients rest

/-- A registration needs a number that is not in use and a free slot. -/
def CallPermitted (clients : List OrganizedClientData) : TableCall → Prop
  | .registration newBoi =>
      newBoi.socket ∉ clients.map OrganizedClientData.socket ∧
        clients.length < maximumConnectedClients
  | .removal _ => True

instance (clients : List OrganizedClientData) : DecidablePred (CallPermitted clients)
  | .registration newBoi =>
      inferInstanceAs (Decidable (newBoi.socket ∉ clients.map OrganizedClientData.socket ∧
        clients.length < maximumConnectedClients))
  | .removal _ => inferInstanceAs (Decidable True)

/-- Every call is permitted for the clients connected before it. -/
def CallsPermitted (calls : List TableCall) : Prop :=
  ∀ k, (inside : k < calls.length) → CallPermitted (connectedClients (calls.take k)) calls[k]

instance : DecidablePred CallsPermitted := fun calls =>
  inferInstanceAs (Decidable (∀ k, (inside : k < calls.length) →
    CallPermitted (connectedClients (calls.take k)) calls[k]))

/-- A new client is the last one. -/
theorem connected_registration (calls : List TableCall) (newBoi : OrganizedClientData) :
    connectedClients (calls ++ [.registration newBoi]) = connectedClients calls ++ [newBoi] := by
  induction calls with
  | nil => simp [connectedClients]
  | cons call rest inductionHypothesis =>
    cases call with
    | registration earlier =>
      have same : TableCall.removal earlier.socket ∈ rest ++ [.registration newBoi] ↔
          TableCall.removal earlier.socket ∈ rest := by simp
      simp only [List.cons_append, connectedClients, same, inductionHypothesis]
      split
      · rfl
      · rfl
    | removal clientSocketID => exact inductionHypothesis

/-- A removal takes away the clients with its number. -/
theorem connected_removal (calls : List TableCall) (clientSocketID : Int) :
    connectedClients (calls ++ [.removal clientSocketID]) =
      (connectedClients calls).filter fun client => client.socket ≠ clientSocketID := by
  induction calls with
  | nil => rfl
  | cons call rest inductionHypothesis =>
    cases call with
    | registration earlier =>
      have removed : TableCall.removal earlier.socket ∈ rest ++ [.removal clientSocketID] ↔
          TableCall.removal earlier.socket ∈ rest ∨ earlier.socket = clientSocketID := by simp
      simp only [List.cons_append, connectedClients, removed, inductionHypothesis]
      by_cases gone : TableCall.removal earlier.socket ∈ rest
      · rw [if_pos (Or.inl gone), if_pos gone]
      · by_cases own : earlier.socket = clientSocketID
        · rw [if_pos (Or.inr own), if_neg gone, List.filter_cons_of_neg (by simpa using own)]
        · have stays : ¬ (TableCall.removal earlier.socket ∈ rest ∨
              earlier.socket = clientSocketID) := by
            rintro (later | same)
            · exact gone later
            · exact own same
          rw [if_neg stays, if_neg gone, List.filter_cons_of_pos (by simpa using own)]
    | removal other => exact inductionHypothesis

/-- A well-formed table whose entries in use are the clients, with distinct numbers. -/
structure Mirrors (table : ClientTable OrganizedClientData) (clients : List OrganizedClientData) :
    Prop where
  formed : table.WellFormed
  entries : table.registered = clients
  distinct : (clients.map OrganizedClientData.socket).Nodup

variable {table : ClientTable OrganizedClientData} {clients : List OrganizedClientData}

/-- The count is the number of clients. -/
theorem Mirrors.count (mirrors : Mirrors table clients) :
    table.currentClientCount = clients.length := by
  have length := mirrors.formed.registered_length
  have nonnegative := mirrors.formed.countNonnegative
  rw [mirrors.entries] at length
  omega

/-- A permitted registration appends its client. -/
theorem Mirrors.registration (mirrors : Mirrors table clients) {newBoi : OrganizedClientData}
    (permitted : CallPermitted clients (.registration newBoi)) :
    Mirrors (table.register newBoi) (clients ++ [newBoi]) := by
  obtain ⟨unused, free⟩ := permitted
  have count := mirrors.count
  obtain ⟨formed, entries⟩ := mirrors.formed.register (by omega) newBoi
  refine ⟨formed, ?_, ?_⟩
  · rw [entries, mirrors.entries]
  · rw [List.map_append, List.nodup_append]
    refine ⟨mirrors.distinct, List.nodup_singleton _, ?_⟩
    rintro number member other last rfl
    obtain rfl := List.mem_singleton.mp last
    exact unused member

/-- A removal deletes the clients with its number. -/
theorem Mirrors.removal (mirrors : Mirrors table clients) (clientSocketID : Int) :
    Mirrors (ClientTable.removeClient OrganizedClientData.socket clientSocketID table)
      (clients.filter fun client => client.socket ≠ clientSocketID) := by
  have distinct : (table.registered.map OrganizedClientData.socket).Nodup :=
    mirrors.entries.symm ▸ mirrors.distinct
  obtain ⟨formed, entries⟩ := mirrors.formed.remove_distinct distinct clientSocketID
  refine ⟨formed, ?_, ?_⟩
  · rw [entries, mirrors.entries]
  · exact (List.filter_sublist.map OrganizedClientData.socket).nodup mirrors.distinct

/-- The calls before the last one are permitted, and so is the last one after them. -/
theorem CallsPermitted.of_append {calls : List TableCall} {call : TableCall}
    (permitted : CallsPermitted (calls ++ [call])) :
    CallsPermitted calls ∧ CallPermitted (connectedClients calls) call := by
  constructor
  · intro k inside
    have here := permitted k (by simp; omega)
    rwa [List.take_append_of_le_length (by omega), List.getElem_append_left inside] at here
  · have last := permitted calls.length (by simp)
    rwa [List.take_left, List.getElem_concat_length rfl] at last

/-- The table mirrors the connected clients. -/
theorem table_after_mirrors {calls : List TableCall} (permitted : CallsPermitted calls) :
    Mirrors (tableAfter calls) (connectedClients calls) := by
  induction calls using List.reverseRecOn with
  | nil => exact ⟨empty_table_formed.1, empty_table_formed.2, List.nodup_nil⟩
  | append_singleton calls call inductionHypothesis =>
    obtain ⟨before, last⟩ := permitted.of_append
    have mirrors := inductionHypothesis before
    rw [tableAfter, List.foldl_append]
    cases call with
    | registration newBoi =>
      rw [connected_registration]
      exact mirrors.registration last
    | removal clientSocketID =>
      rw [connected_removal]
      exact mirrors.removal clientSocketID

/-- After any permitted calls the entries in use are the clients registered and not yet
removed, in join order, with distinct numbers. A removal of another number changes
nothing. -/
theorem table_mirrors_connected_clients (calls : List TableCall)
    (permitted : CallsPermitted calls) :
    (tableAfter calls).registered = connectedClients calls ∧
      (tableAfter calls).currentClientCount = (connectedClients calls).length ∧
      ((tableAfter calls).registered.map OrganizedClientData.socket).Nodup ∧
      ∀ clientSocketID,
        clientSocketID ∉ (tableAfter calls).registered.map OrganizedClientData.socket →
        tableCall (tableAfter calls) (.removal clientSocketID) = tableAfter calls := by
  have mirrors := table_after_mirrors permitted
  refine ⟨mirrors.entries, mirrors.count, mirrors.entries ▸ mirrors.distinct, ?_⟩
  intro clientSocketID absent
  apply ClientTable.remove_client_of_absent
  intro client member same
  exact absent (same ▸ List.mem_map_of_mem member)

/-- A number that was given back is used by a later client, who joins behind the others. -/
theorem table_mirrors_rejoined :
    (tableAfter [.registration ⟨4, [97, 0]⟩, .registration ⟨5, [98, 0]⟩, .removal 4,
        .registration ⟨4, [99, 0]⟩]).registered = [⟨5, [98, 0]⟩, ⟨4, [99, 0]⟩] :=
  (table_mirrors_connected_clients _ (by decide)).1.trans (by decide)

end HelperChat
