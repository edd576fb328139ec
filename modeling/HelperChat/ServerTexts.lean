import HelperChat.CString
import HelperChat.ClientTable

/-!
# The texts of the server

What `2_server.c` formats for its clients: the welcome list of the connected clients, the
notice of a new client and the public message, and which of them goes to whom. A text is
what `send` gets, the string in the formatted buffer.
-/

namespace HelperChat

open CString (literal snprintf strcat text)

/-- What `send` puts on a client's socket. -/
structure Sending where
  socket : Int
  message : List UInt8
deriving DecidableEq

/-- `listOfClients`: every name and a newline behind it, concatenated in a cleared buffer. -/
def listOfClients (names : List (List UInt8)) : List UInt8 :=
  names.foldl (fun list name => strcat (strcat list name) (literal "\n"))
    (List.replicate bufferSize 0)

/-- The banner in front of the list. -/
def openingBanner : List UInt8 := literal "-=-=-=-=-=-=-=-=-\nCurrently logged in clients:\n"

/-- The banner behind the list. -/
def closingBanner : List UInt8 := literal "-=-=-=-=-=-=-=-=-\n"

/-- `communicationToSend` in `outputConnectedClients`. -/
def communicationToSend (names : List (List UInt8)) : List UInt8 :=
  snprintf bufferSize (openingBanner ++ text (listOfClients names) ++ closingBanner)

/-- `outputConnectedClients`: the list of the table's names for one client. -/
def outputConnectedClients (selectedClient : Int) (table : ClientTable OrganizedClientData) :
    List Sending :=
  [⟨selectedClient, communicationToSend (table.registered.map OrganizedClientData.name)⟩]

/-- `outboundPushNotification` in `newClientJoinedPush`. -/
def outboundPushNotification (senderName : List UInt8) : List UInt8 :=
  snprintf bufferSize (literal "<*> New client joined: " ++ text senderName ++ literal " <*>\n")

/-- `newClientJoinedPush`: the notice for everyone in the table. -/
def newClientJoinedPush (senderName : List UInt8) (table : ClientTable OrganizedClientData) :
    List Sending :=
  table.registered.map fun client => ⟨client.socket, outboundPushNotification senderName⟩

/-- The whole welcome list for some names. -/
def welcomeList (names : List (List UInt8)) : List UInt8 :=
  openingBanner ++ names.flatMap (fun name => name ++ literal "\n") ++ closingBanner

/-- The whole notice that a client of some name has joined. -/
def joinNotice (name : List UInt8) : List UInt8 :=
  literal "<*> New client joined: " ++ name ++ literal " <*>\n"

/-- A newline is a string of one byte. -/
theorem text_newline : text (literal "\n") = literal "\n" ∧ (literal "\n").length = 1 := by
  decide

/-- A name and its newline are concatenated behind what is in the buffer, if both fit. -/
theorem text_strcat_line {list name : List UInt8}
    (fit : (text list).length + (text name).length + 1 < list.length) :
    text (strcat (strcat list name) (literal "\n")) =
      text list ++ text name ++ literal "\n" := by
  obtain ⟨newline, one⟩ := text_newline
  have named : text (strcat list name) = text list ++ text name :=
    CString.text_strcat (by omega)
  rw [CString.text_strcat, named, newline]
  rw [named, newline, one, CString.strcat_length, List.length_append]
  exact fit

/-- Names that fit are concatenated behind what is already in the buffer. -/
theorem list_of_clients_text {list : List UInt8} (names : List (List UInt8))
    (fit : (text list).length +
      (names.flatMap fun name => text name ++ literal "\n").length < list.length) :
    text (names.foldl (fun list name => strcat (strcat list name) (literal "\n")) list) =
      text list ++ names.flatMap fun name => text name ++ literal "\n" := by
  induction names generalizing list with
  | nil => simp
  | cons name rest inductionHypothesis =>
    obtain ⟨_, one⟩ := text_newline
    simp only [List.flatMap_cons, List.length_append, one] at fit
    have ended : text (strcat (strcat list name) (literal "\n")) =
        text list ++ text name ++ literal "\n" := text_strcat_line (by omega)
    rw [List.foldl_cons, inductionHypothesis, ended, List.flatMap_cons]
    · simp
    · rw [ended, CString.strcat_length, CString.strcat_length]
      simp only [List.length_append, one]
      omega

/-- A welcome list that fits in its buffer is sent whole. -/
theorem communication_of_fit {names : List (List UInt8)}
    (fit : (welcomeList (names.map text)).length < bufferSize) :
    communicationToSend names = welcomeList (names.map text) := by
  have empty : text (List.replicate bufferSize 0) = [] := by decide
  have flat : (names.map text).flatMap (fun name => name ++ literal "\n") =
      names.flatMap fun name => text name ++ literal "\n" :=
    List.flatMap_map text (fun name => name ++ literal "\n") names
  have whole : text (listOfClients names) =
      (names.map text).flatMap fun name => name ++ literal "\n" := by
    rw [listOfClients, list_of_clients_text, empty, flat, List.nil_append]
    rw [empty, ← flat, List.length_replicate]
    simp only [welcomeList, List.length_append] at fit
    simp only [List.length_nil]
    omega
  rw [communicationToSend, whole]
  exact CString.snprintf_of_fit fit

/-- A notice that fits in its buffer is sent whole. -/
theorem notification_of_fit {senderName : List UInt8}
    (fit : (joinNotice (text senderName)).length < bufferSize) :
    outboundPushNotification senderName = joinNotice (text senderName) :=
  CString.snprintf_of_fit fit

/-- `outboundMessage` in `sendPublicMessage`. -/
def outboundMessage (inputData senderName : List UInt8) : List UInt8 :=
  snprintf bufferSize (literal "[" ++ text senderName ++ literal "]=> " ++ text inputData)

end HelperChat
