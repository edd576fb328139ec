import HelperChat.ServerTexts
import Mathlib.Algebra.GroupWithZero.Nat

/-!
# The length of the welcome list

`outputConnectedClients` appends the names of all connected clients to a buffer that is as
long as the one of a single name, and formats the list with its banners into a third buffer
of this length. So the list is complete only if the names are short, and with longer names
the appends leave the buffer.
-/

namespace HelperChat

open CString (literal strcat text)

/-- The destination and the source of every `strcat` in the loop. -/
def strcatCalls : List (List UInt8) → List UInt8 → List (List UInt8 × List UInt8)
  | [], _ => []
  | name :: rest, listOfClients =>
      (listOfClients, name) :: (strcat listOfClients name, literal "\n") ::
        strcatCalls rest (strcat (strcat listOfClients name) (literal "\n"))

/-- A `strcat` stays inside its destination: the text and its NUL have room. -/
def StrcatInside (destination source : List UInt8) : Prop :=
  (text destination).length + (text source).length + 1 ≤ destination.length

/-- The list is kept in its buffer and sent whole. -/
structure WelcomesWhole (selectedClient : Int) (table : ClientTable OrganizedClientData) :
    Prop where
  inside : ∀ call ∈ strcatCalls (table.registered.map OrganizedClientData.name)
    (List.replicate bufferSize 0), StrcatInside call.1 call.2
  whole : outputConnectedClients selectedClient table =
    [⟨selectedClient, welcomeList (table.registered.map fun client => text client.name)⟩]

/-- How many bytes the names need with their newlines. -/
def listLength (names : List (List UInt8)) : Nat :=
  (names.map fun name => (text name).length + 1).sum

/-- The calls one after another make the list. -/
theorem list_after_calls (names : List (List UInt8)) (list : List UInt8) :
    (strcatCalls names list).foldl (fun list call => strcat list call.2) list =
      names.foldl (fun list name => strcat (strcat list name) (literal "\n")) list := by
  induction names generalizing list with
  | nil => rfl
  | cons name rest inductionHypothesis =>
    exact inductionHypothesis (strcat (strcat list name) (literal "\n"))

/-- Every `strcat` stays inside the buffer exactly if there is room for all names with their
newlines and a NUL. -/
theorem strcats_inside_iff (names : List (List UInt8)) {list : List UInt8}
    (terminated : (text list).length < list.length) :
    (∀ call ∈ strcatCalls names list, StrcatInside call.1 call.2) ↔
      (text list).length + listLength names < list.length := by
  induction names generalizing list with
  | nil => simp [strcatCalls, listLength, terminated]
  | cons name rest inductionHypothesis =>
    obtain ⟨newline, one⟩ := text_newline
    have needed : listLength (name :: rest) = (text name).length + 1 + listLength rest := by
      simp [listLength]
    have first : StrcatInside list name ↔
        (text list).length + (text name).length + 1 ≤ list.length := Iff.rfl
    rw [strcatCalls, List.forall_mem_cons, List.forall_mem_cons, first, needed]
    by_cases fits : (text list).length + (text name).length < list.length
    · have second : StrcatInside (strcat list name) (literal "\n") ↔
          (text list).length + (text name).length + 1 + 1 ≤ list.length := by
        rw [StrcatInside, CString.text_strcat fits, newline, one, CString.strcat_length,
          List.length_append]
      rw [second]
      by_cases room : (text list).length + (text name).length + 1 < list.length
      · have ended : (text (strcat (strcat list name) (literal "\n"))).length =
            (text list).length + (text name).length + 1 := by
          rw [text_strcat_line room, List.length_append, List.length_append, one]
        have size : (strcat (strcat list name) (literal "\n")).length = list.length := by simp
        rw [inductionHypothesis (by omega), ended, size]
        omega
      · -- the newline's NUL is outside
        omega
    · -- the name itself leaves the buffer
      omega

/-- The banners and the names are the whole list. -/
theorem welcome_list_length (names : List (List UInt8)) :
    (welcomeList (names.map text)).length = 65 + listLength names := by
  have banners : openingBanner.length = 47 ∧ closingBanner.length = 18 := by decide
  obtain ⟨opening, closing⟩ := banners
  obtain ⟨_, one⟩ := text_newline
  have lines : ((names.map text).flatMap fun name => name ++ literal "\n").length =
      listLength names := by
    rw [List.flatMap_map, List.length_flatMap, listLength]
    simp only [List.length_append, one]
  rw [welcomeList, List.length_append, List.length_append, opening, closing, lines]
  omega

/-- The list is kept in its buffer and sent whole exactly if the names with their newlines have
no more bytes than the banners leave. The table may hold anything but stays as it is during
the call; `ClientList` has the loop with the steps of other threads in between. -/
theorem welcomes_whole_iff (selectedClient : Int) (table : ClientTable OrganizedClientData) :
    WelcomesWhole selectedClient table ↔
      listLength (table.registered.map OrganizedClientData.name) ≤ 34 := by
  have names : (table.registered.map fun client => text client.name) =
      (table.registered.map OrganizedClientData.name).map text := by
    rw [List.map_map]
    rfl
  have length := welcome_list_length (table.registered.map OrganizedClientData.name)
  constructor
  · rintro ⟨_, whole⟩
    have message : communicationToSend (table.registered.map OrganizedClientData.name) =
        welcomeList ((table.registered.map OrganizedClientData.name).map text) := by
      simpa [outputConnectedClients, names] using whole
    have cut : (communicationToSend (table.registered.map OrganizedClientData.name)).length ≤
        bufferSize - 1 := List.length_take_le _ _
    rw [message, length] at cut
    change _ ≤ 99 at cut
    omega
  · intro short
    constructor
    · have empty : text (List.replicate bufferSize 0) = [] := by decide
      have size : (List.replicate bufferSize (0 : UInt8)).length = 100 := by decide
      rw [strcats_inside_iff _ (by rw [empty, size]; decide), empty, size, List.length_nil]
      omega
    · have fit : (welcomeList
          ((table.registered.map OrganizedClientData.name).map text)).length < bufferSize := by
        rw [length]
        change _ < 100
        omega
      rw [outputConnectedClients, communication_of_fit fit, names]

/-- A name of some length in its buffer. -/
def longName (length : Nat) : List UInt8 :=
  List.replicate length 'n'.toUInt8 ++ List.replicate (bufferSize - length) 0

/-- With two names of fifty bytes even the concatenation leaves its buffer. -/
theorem long_names_overflow :
    ¬ ∀ (selectedClient : Int) (table : ClientTable OrganizedClientData), table.WellFormed →
      1 ≤ table.currentClientCount →
      (∀ client ∈ table.registered, client.name.length = bufferSize ∧ 0 ∈ client.name ∧
        '\n'.toUInt8 ∉ text client.name) →
      WelcomesWhole selectedClient table := by
  intro always
  have welcomed := always 4 ⟨[⟨4, longName 50⟩, ⟨5, longName 50⟩] ++
    List.replicate 4 ⟨0, List.replicate bufferSize 0⟩, 2⟩ ⟨by decide, by decide, by decide⟩
    (by decide) (by decide)
  have room := (strcats_inside_iff _ (by decide)).mp welcomed.inside
  exact absurd room (by decide)

end HelperChat
