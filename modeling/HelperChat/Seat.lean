import HelperChat.ClientList
import HelperChat.Conversation
import HelperChat.Interleaving

/-!
# One connection of the chat

The program of a client, the buffers of its thread in the server, and the streams between
them in both directions. What the other threads do is seen here only by the bytes that they
put on the stream to the client.

The thread takes what the user types behind the name, in order and without loss, if the
first `recv` takes the name alone. The history file is made of the lines that the user has
typed, as `fgets` has read them, and of the bytes of every `recv`, each in their order.
-/

namespace HelperChat

open CString (fgets linePiece literal store text)

/-- A connection: everything that the user types, the entered name, the client's program,
what each of its `recv`s got, its thread's buffers with the bytes that were not received
there, the thread's list of the clients, and the stream to the client. -/
structure Seat where
  input : List UInt8
  nameOfClient : List UInt8
  client : ChatClient
  received : List (List UInt8)
  session : Session
  outputBufferBoi : List UInt8
  listing : Listing
  toClient : List UInt8
deriving DecidableEq

/-- The user has entered the name, and the thread is at its first `recv`. The buffers of the
two programs are not initialised. -/
def startSeat (nameOfClient outgoingDatastream stdin origSender dataWeWantToSend
    outputBufferBoi : List UInt8) : Seat where
  input := stdin
  nameOfClient := enterName nameOfClient stdin
  client := startClient nameOfClient outgoingDatastream stdin
  received := []
  session := startSession origSender dataWeWantToSend (text (enterName nameOfClient stdin))
  outputBufferBoi := outputBufferBoi
  listing := startListing
  toClient := []

/-- The stream to the client behind a pass of its loop. The end of the connection is seen
when the server has closed it and everything on it has been received. -/
def streamAfter (closed : Bool) (toClient : List UInt8) : SelectEvent → Option (List UInt8)
  | .typed _ => some toClient
  | .received bytes _ => if bytes <+: toClient then some (toClient.drop bytes.length) else none
  | .disconnected => if closed ∧ toClient = [] then some toClient else none

/-- What the `recv` of a pass gets, if it makes one. -/
def receivedIn : SelectEvent → List (List UInt8)
  | .received bytes _ => [bytes]
  | .typed _ | .disconnected => []

/-- A pass of the client's loop. -/
def clientPass (closed : Bool) (seat : Seat) (event : SelectEvent) : Option Seat := do
  let toClient ← streamAfter closed seat.toClient event
  let client ← clientLoopStep seat.client event
  pure { seat with
    client := client
    received := seat.received ++ receivedIn event
    session := { seat.session with
      unread := seat.session.unread ++ client.sent.drop seat.client.sent.length }
    toClient := toClient }

/-- The server sends a text to the client. -/
def Seat.reach (message : List UInt8) (seat : Seat) : Seat :=
  { seat with toClient := seat.toClient ++ message }

/-- Nothing old is sent at the end of the input, and a `recv` leaves room for a NUL. -/
def PassesWhole (seat : Seat) (event : SelectEvent) : Prop :=
  NothingLeftAtEnd seat.client event ∧ ∀ bytes ∈ receivedIn event, bytes.length < bufferSize

instance (seat : Seat) (event : SelectEvent) : Decidable (PassesWhole seat event) :=
  inferInstanceAs (Decidable (_ ∧ _))

/-- What the user types behind the name: the input without the piece that is read for it. -/
def typedBehind (stdin : List UInt8) : List UInt8 :=
  stdin.drop (linePiece bufferSize stdin).length

/-- The pieces that so many calls of `fgets` read: lines with their newlines, or a buffer full
of a longer line, and nothing at the end of the input. -/
def linePieces : Nat → List UInt8 → List (List UInt8)
  | 0, _ => []
  | count + 1, stdin =>
      linePiece bufferSize stdin ::
        linePieces count (stdin.drop (linePiece bufferSize stdin).length)

/-- What was sent are the first lines behind the name, and the history file is made of these
lines and of what each `recv` got, in their order. -/
def Logged (seat : Seat) : Prop :=
  ∃ count pieces, Interleaves (linePieces count (typedBehind seat.input)) seat.received pieces ∧
    seat.client.sent = (linePieces count (typedBehind seat.input)).flatten ∧
    seat.client.outputFile = pieces.flatten

/-- The invariant of a connection. -/
structure Seated (seat : Seat) : Prop where
  noNul : 0 ∉ seat.input
  entered : text seat.nameOfClient = typedName seat.input
  sends : SendsInput (typedBehind seat.input) seat.client
  data : seat.session.dataWeWantToSend.length = bufferSize
  sender : seat.session.newBoi = none → seat.session.origSender.length = bufferSize
  taken : Taken (typedName seat.input) seat.client.sent seat.session
  logged : Logged seat
  texts : 0 ∉ seat.toClient

section Lines

variable {stdin : List UInt8}

/-- The next call reads the next piece of what the first ones have left. -/
theorem line_pieces_succ (count : Nat) (stdin : List UInt8) :
    linePieces (count + 1) stdin = linePieces count stdin ++
      [linePiece bufferSize (stdin.drop (linePieces count stdin).flatten.length)] := by
  induction count generalizing stdin with
  | zero => rfl
  | succ count inductionHypothesis =>
    rw [linePieces, inductionHypothesis, linePieces, List.flatten_cons, List.length_append,
      List.drop_drop, List.cons_append]

/-- What `fgets` stores is a piece of the input, and at its end nothing. -/
theorem fgets_piece {buffer after rest : List UInt8} (size : buffer.length = bufferSize)
    (noNul : 0 ∉ stdin) (nothing : stdin = [] → buffer[0]? = some 0)
    (read : fgets bufferSize buffer stdin = (after, rest)) (behind : List UInt8) :
    text (after ++ behind) = linePiece bufferSize stdin := by
  by_cases ended : stdin = []
  · subst ended
    obtain ⟨rfl, _⟩ := Prod.mk.inj read
    have nonempty : buffer ≠ [] := by
      apply List.length_pos_iff.mp
      rw [size]
      decide
    exact (text_nil_iff nonempty behind).mpr (nothing rfl)
  · rw [fgets, if_neg ended] at read
    obtain ⟨rfl, _⟩ := Prod.mk.inj read
    have start : linePiece bufferSize stdin <+: stdin :=
      (List.take_prefix _ _).trans (List.take_prefix _ _)
    have short : (linePiece bufferSize stdin).length < buffer.length := by
      have room : 1 < bufferSize := by decide
      rw [size, linePiece, List.length_take]
      omega
    exact CString.text_store_append (fun member => noNul (start.subset member)) short behind

end Lines

variable {seat next : Seat} {event : SelectEvent}

/-- Neither the name nor what the program has sent contains a NUL. -/
theorem Seated.no_nul (seated : Seated seat) :
    0 ∉ typedName seat.input ∧ 0 ∉ seat.client.sent := by
  constructor
  · intro member
    exact seated.noNul ((List.takeWhile_prefix _).subset (List.mem_of_mem_take member))
  · intro member
    have typed : 0 ∈ typedBehind seat.input :=
      seated.sends.bytes ▸ List.mem_append_left _ member
    exact seated.noNul (List.mem_of_mem_drop typed)

/-- A thread that has received the name has stored it. -/
theorem Seated.stored (seated : Seated seat) (named : seat.session.newBoi ≠ none) :
    text seat.session.origSender = typedName seat.input := by
  obtain ⟨newBoi, registered⟩ := Option.ne_none_iff_exists'.mp named
  have taken := seated.taken
  simp only [Taken, registered] at taken
  exact taken.2

/-- A connection begins with the typed name on its way to the thread. -/
theorem start_seated {nameOfClient outgoingDatastream stdin origSender dataWeWantToSend
    outputBufferBoi : List UInt8}
    (sizes : ∀ buffer ∈ [nameOfClient, outgoingDatastream, origSender, dataWeWantToSend],
      buffer.length = bufferSize)
    (noNul : 0 ∉ stdin) (more : stdin ≠ []) :
    Seated (startSeat nameOfClient outgoingDatastream stdin origSender dataWeWantToSend
      outputBufferBoi) := by
  obtain ⟨entered, _⟩ := enter_name (sizes nameOfClient (by simp)) noNul more
  have behind : stdinAfterName nameOfClient stdin = typedBehind stdin := by
    rw [stdinAfterName, fgets, if_neg more, typedBehind]
  have noNulAfter : 0 ∉ stdinAfterName nameOfClient stdin := by
    intro member
    exact noNul ((CString.fgets_leaves _ _ _).subset member)
  refine ⟨noNul, entered, ⟨behind, noNulAfter, ?_⟩, ?_, ?_, ⟨?_, rfl⟩,
    ⟨0, [], .nil, rfl, rfl⟩, List.not_mem_nil⟩
  · exact sizes outgoingDatastream (by simp)
  · exact sizes dataWeWantToSend (by simp)
  · intro _
    exact sizes origSender (by simp)
  · exact entered.trans (List.append_nil _).symm

/-- A pass takes what it receives from the stream. -/
theorem stream_after {closed : Bool} {toClient rest : List UInt8}
    (streamed : streamAfter closed toClient event = some rest) :
    toClient = (receivedIn event).flatten ++ rest := by
  cases event with
  | typed => exact Option.some.inj streamed
  | received bytes =>
    obtain ⟨start, same⟩ := Option.ite_none_right_eq_some.mp streamed
    obtain rfl := Option.some.inj same
    rw [receivedIn, List.flatten_singleton]
    exact (List.prefix_iff_eq_append.mp start).symm
  | disconnected =>
    obtain ⟨_, same⟩ := Option.ite_none_right_eq_some.mp streamed
    exact Option.some.inj same

/-- A pass without leftovers adds a line or what it receives to the file. -/
theorem Logged.pass {client : ChatClient} (logged : Logged seat)
    (sends : SendsInput (typedBehind seat.input) seat.client) (whole : PassesWhole seat event)
    (noNul : 0 ∉ (receivedIn event).flatten)
    (stepped : clientLoopStep seat.client event = some client) {session : Session}
    {toClient : List UInt8} :
    Logged { seat with
      client := client
      received := seat.received ++ receivedIn event
      session := session
      toClient := toClient } := by
  obtain ⟨count, pieces, interleaves, sent, file⟩ := logged
  cases client_loop_move stepped with
  | sends behind outgoingDatastream stdin read =>
    have line : text (outgoingDatastream ++ behind) =
        linePiece bufferSize ((typedBehind seat.input).drop
          (linePieces count (typedBehind seat.input)).flatten.length) := by
      rw [← sent, ← sends.bytes, List.drop_left]
      exact fgets_piece sends.buffer sends.noNul whole.1 read behind
    refine ⟨count + 1, pieces ++ [text (outgoingDatastream ++ behind)], ?_, ?_, ?_⟩
    · rw [line_pieces_succ, ← line, receivedIn, List.append_nil]
      exact interleaves.concat_left _
    · rw [line_pieces_succ, ← line]
      simp [sent]
    · simp [writeMessageToFile, file]
  | receives bytes behind =>
    have fit := received_fits stepped
    have short : bytes.length < bufferSize := whole.2 bytes (List.mem_singleton_self _)
    rw [receivedIn, List.flatten_singleton] at noNul
    have written : text (CountedLoop.writeAll (List.replicate bufferSize 0) 0 bytes ++ behind) =
        bytes :=
      (text_after_recv fit ((nul_after_recv_iff fit).mpr (.inr short)) behind).trans
        (CString.text_of_no_nul noNul)
    exact ⟨count, pieces ++ [bytes], interleaves.concat_right bytes, sent,
      by simp [writeMessageToFile, written, file]⟩
  | stops => exact ⟨count, pieces, by simpa [receivedIn] using interleaves, sent, file⟩

/-- A pass of the client. -/
theorem Seated.pass (seated : Seated seat) {closed : Bool} (whole : PassesWhole seat event)
    (stepped : clientPass closed seat event = some next) : Seated next := by
  obtain ⟨toClient, streamed, continued⟩ := Option.bind_eq_some_iff.mp stepped
  obtain ⟨client, moved, built⟩ := Option.bind_eq_some_iff.mp continued
  obtain rfl := Option.some.inj built
  have stream := stream_after streamed
  have noNulStream := seated.texts
  rw [stream, List.mem_append, not_or] at noNulStream
  have sendsToo := seated.sends.step whole.1 moved
  obtain ⟨more, grown⟩ := sent_grows moved
  have noNulMore : 0 ∉ more := by
    intro member
    have typed : 0 ∈ typedBehind seat.input := by
      rw [← sendsToo.bytes, ← grown]
      simp [member]
    exact seated.noNul (List.mem_of_mem_drop typed)
  refine ⟨seated.noNul, seated.entered, sendsToo, seated.data, seated.sender, ?_,
    seated.logged.pass seated.sends whole noNulStream.1 moved, noNulStream.2⟩
  simp only [← grown, List.drop_left]
  exact seated.taken.more noNulMore

/-- The thread's first `recv` takes the name alone. -/
theorem Seated.first (seated : Seated seat) (unnamed : seat.session.newBoi = none)
    {clientSocketID : Int} {session : Session}
    (stepped : sessionStep clientSocketID seat.session (text seat.nameOfClient).length =
      some session) :
    Seated { seat with session := session } ∧ session.newBoi ≠ none ∧
      session.dataSentToHelper = seat.session.dataSentToHelper := by
  obtain ⟨noNulName, noNulSent⟩ := seated.no_nul
  rw [seated.entered] at stepped
  have handed : seat.session.dataSentToHelper = [] := by
    have taken := seated.taken
    simp only [Taken, unnamed] at taken
    exact taken.2
  obtain ⟨taken, named, handedToo, data, _⟩ := seated.taken.first unnamed noNulName noNulSent
    seated.data (seated.sender unnamed) stepped
  exact ⟨⟨seated.noNul, seated.entered, seated.sends, data, fun lost => absurd lost named, taken,
    seated.logged, seated.texts⟩, named, handedToo.trans handed.symm⟩

/-- A later `recv` takes a text. -/
theorem Seated.message (seated : Seated seat) (named : seat.session.newBoi ≠ none)
    {clientSocketID : Int} {dataBytesIncoming : Nat} {session : Session}
    (stepped : sessionStep clientSocketID seat.session dataBytesIncoming = some session) :
    Seated { seat with session := session } ∧ session.newBoi = seat.session.newBoi ∧
      session.origSender = seat.session.origSender ∧
      session.dataSentToHelper =
        seat.session.dataSentToHelper ++ [text session.dataWeWantToSend] := by
  obtain ⟨taken, same, sender, handed, _⟩ := seated.taken.message named stepped
  refine ⟨⟨seated.noNul, seated.entered, seated.sends, ?_, ?_, taken, seated.logged,
    seated.texts⟩, same, sender, handed⟩
  · obtain ⟨newBoi, registered⟩ := Option.ne_none_iff_exists'.mp (same ▸ named)
    simp only [Taken, registered] at taken
    exact taken.1.buffer
  · intro lost
    exact absurd (same.symm.trans lost) named

/-- A text of the server is on its way to the client. -/
theorem Seated.reach (seated : Seated seat) {message : List UInt8} (noNul : 0 ∉ message) :
    Seated (seat.reach message) := by
  obtain ⟨noNulInput, entered, sends, data, sender, taken, logged, texts⟩ := seated
  refine ⟨noNulInput, entered, sends, data, sender, taken, logged, ?_⟩
  rw [Seat.reach, List.mem_append, not_or]
  exact ⟨texts, noNul⟩

/-- The buffer for replies is cleared. -/
theorem Seated.clear (seated : Seated seat) (outputBufferBoi : List UInt8) :
    Seated { seat with outputBufferBoi := outputBufferBoi } :=
  ⟨seated.noNul, seated.entered, seated.sends, seated.data, seated.sender, seated.taken,
    seated.logged, seated.texts⟩

/-- The list of the clients grows. -/
theorem Seated.list (seated : Seated seat) (listing : Listing) :
    Seated { seat with listing := listing } :=
  ⟨seated.noNul, seated.entered, seated.sends, seated.data, seated.sender, seated.taken,
    seated.logged, seated.texts⟩

end HelperChat
