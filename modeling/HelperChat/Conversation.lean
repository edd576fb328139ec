import HelperChat.ChatHistory
import HelperChat.ClientSession
import HelperChat.DecoderOrder
import HelperChat.LinkBytes
import HelperChat.PublicMessage

/-!
# A conversation from keyboard to history

A client program, its thread in the server, the helper, and the program of another client,
with the streams between them: the user types a name and lines, the thread takes them from
its socket as they come, has them processed and sends them on, and the other client receives
them in pieces and writes them to its history. The helper is taken to reply as in its orderly
runs.

If the first `recv` takes the name alone, texts leave room for the name in front of them, and
nothing is read past the ends of the buffers, then the other client's history is the notice
and the texts, in order and in upper-case vowels, each with the typed name in front of it.
-/

namespace HelperChat

open CString (fgets linePiece literal store text)
open CountedLoop (writeAll)

section NameEntry

/-- `strcspn(buffer, "\n")`. -/
def strcspn (buffer : List UInt8) : Nat :=
  ((text buffer).takeWhile fun byte => byte ≠ '\n'.toUInt8).length

/-- `nameOfClient` after it was read and cut at its newline. -/
def enterName (nameOfClient stdin : List UInt8) : List UInt8 :=
  let (nameOfClient, _) := fgets bufferSize nameOfClient stdin
  nameOfClient.set (strcspn nameOfClient) 0

/-- The first line of the input, as far as it fits in the buffer. -/
def typedName (stdin : List UInt8) : List UInt8 :=
  (stdin.takeWhile fun byte => byte ≠ '\n'.toUInt8).take (bufferSize - 1)

variable {nameOfClient stdin : List UInt8}

/-- The piece for the name is the typed name and the newline, if that was reached. -/
theorem name_piece (stdin : List UInt8) :
    ∃ ending, linePiece bufferSize stdin = typedName stdin ++ ending ∧
      (ending = [] ∨ ending = ['\n'.toUInt8]) := by
  generalize line : stdin.takeWhile (fun byte => byte ≠ '\n'.toUInt8) = name
  generalize behind : stdin.dropWhile (fun byte => byte ≠ '\n'.toUInt8) = rest
  have split : stdin = name ++ rest := by
    rw [← line, ← behind, List.takeWhile_append_dropWhile]
  have taken : stdin.take (name.length + 1) = name ++ rest.take 1 := by
    rw [split, List.take_length_add_append]
  have first : rest.take 1 = [] ∨ rest.take 1 = ['\n'.toUInt8] := by
    cases rest with
    | nil => exact .inl rfl
    | cons byte others =>
      have stops : ¬ byte ≠ '\n'.toUInt8 := by
        have head := List.head?_dropWhile_not (fun byte => decide (byte ≠ '\n'.toUInt8)) stdin
        rw [behind] at head
        simpa using head
      exact .inr (by simpa using not_not.mp stops)
  rw [linePiece, typedName, line, taken]
  by_cases full : bufferSize - 1 ≤ name.length
  · refine ⟨[], ?_, .inl rfl⟩
    rw [List.take_append_of_le_length full, List.append_nil]
  · refine ⟨rest.take 1, ?_, first⟩
    have room : (name ++ rest.take 1).length ≤ bufferSize - 1 := by
      rw [List.length_append, List.length_take]
      omega
    have whole : name.take (bufferSize - 1) = name := List.take_of_length_le (by omega)
    rw [List.take_of_length_le room, whole]

/-- The typed name fits in the buffer with its NUL and contains no newline. -/
theorem typed_name_fits (stdin : List UInt8) :
    (typedName stdin).length < bufferSize ∧ '\n'.toUInt8 ∉ typedName stdin := by
  constructor
  · rw [typedName, List.length_take]
    have room : 1 < bufferSize := by decide
    omega
  · intro member
    have inLine := List.mem_of_mem_take member
    simpa using List.mem_takeWhile_imp inLine

/-- The client sends the typed name, and the rest of the input is left. -/
theorem enter_name (buffer : nameOfClient.length = bufferSize) (noNul : 0 ∉ stdin)
    (more : stdin ≠ []) :
    text (enterName nameOfClient stdin) = typedName stdin ∧
      ∃ ending, (ending = [] ∨ ending = ['\n'.toUInt8]) ∧
        stdin = typedName stdin ++ ending ++ stdinAfterName nameOfClient stdin := by
  obtain ⟨ending, piece, newline⟩ := name_piece stdin
  obtain ⟨short, oneLine⟩ := typed_name_fits stdin
  have start : linePiece bufferSize stdin <+: stdin :=
    (List.take_prefix _ _).trans (List.take_prefix _ _)
  have noNulPiece : 0 ∉ linePiece bufferSize stdin := fun member => noNul (start.subset member)
  have noNulName : 0 ∉ typedName stdin := by
    intro member
    exact noNulPiece (piece ▸ List.mem_append_left _ member)
  have room : (linePiece bufferSize stdin).length < nameOfClient.length := by
    rw [buffer, linePiece, List.length_take]
    have positive : 1 < bufferSize := by decide
    omega
  constructor
  · have cut : strcspn (store nameOfClient (linePiece bufferSize stdin)) =
        (typedName stdin).length := by
      have nothing : ending.takeWhile (fun byte => byte ≠ '\n'.toUInt8) = [] := by
        rcases newline with rfl | rfl <;> rfl
      have inLine : ∀ byte ∈ typedName stdin, decide (byte ≠ '\n'.toUInt8) = true := by
        intro byte member
        exact decide_eq_true fun same => oneLine (same ▸ member)
      rw [strcspn, CString.text_store noNulPiece (Nat.le_of_lt room), piece,
        List.takeWhile_append_of_pos inLine, nothing, List.append_nil]
    simp only [enterName, fgets, if_neg more, cut]
    rw [CString.store_eq room, piece]
    rcases newline with rfl | rfl
    · rw [List.append_nil, List.set_append_right _ _ (Nat.le_refl _), Nat.sub_self,
        List.set_cons_zero]
      exact CString.text_terminated noNulName _
    · rw [List.append_assoc, List.set_append_right _ _ (Nat.le_refl _), Nat.sub_self]
      exact CString.text_terminated noNulName _
  · refine ⟨ending, newline, ?_⟩
    rw [stdinAfterName, fgets, if_neg more, ← piece]
    exact (List.prefix_iff_eq_append.mp start).symm

end NameEntry

section Taking

/-- What a thread has taken of what its client has sent: nothing yet, or the name alone and
some texts behind it. -/
def Taken (name sent : List UInt8) (session : Session) : Prop :=
  match session.newBoi with
  | none => session.unread = name ++ sent ∧ session.dataSentToHelper = []
  | some _ => HandsOn name sent session ∧ text session.origSender = name

variable {name sent : List UInt8} {clientSocketID : Int} {session next : Session}

/-- The client sends more. -/
theorem Taken.more (taken : Taken name sent session) {more : List UInt8} (noNul : 0 ∉ more) :
    Taken name (sent ++ more) { session with unread := session.unread ++ more } := by
  unfold Taken at taken ⊢
  cases registered : session.newBoi with
  | none =>
    simp only [registered] at taken ⊢
    obtain ⟨unread, handed⟩ := taken
    exact ⟨by rw [unread, List.append_assoc], handed⟩
  | some newBoi =>
    simp only [registered] at taken ⊢
    obtain ⟨⟨named, bytes, noNulUnread, buffer⟩, stored⟩ := taken
    refine ⟨⟨registered ▸ named, ?_, ?_, buffer⟩, stored⟩
    · rw [← bytes, List.append_assoc]
    · rw [List.mem_append, not_or]
      exact ⟨noNulUnread, noNul⟩

/-- The `recv` that takes the name alone stores it. -/
theorem Taken.first (taken : Taken name sent session) (unnamed : session.newBoi = none)
    (noNulName : 0 ∉ name) (noNul : 0 ∉ sent)
    (data : session.dataWeWantToSend.length = bufferSize)
    (sender : session.origSender.length = bufferSize)
    (stepped : sessionStep clientSocketID session name.length = some next) :
    Taken name sent next ∧ next.newBoi ≠ none ∧ next.dataSentToHelper = [] ∧
      next.dataWeWantToSend.length = bufferSize ∧
      next.origSender = store session.origSender name := by
  simp only [Taken, unnamed] at taken
  obtain ⟨unread, handed⟩ := taken
  obtain ⟨⟨received, rest⟩, took, continued⟩ := Option.bind_eq_some_iff.mp stepped
  simp only [unnamed] at continued
  obtain rfl := Option.some.inj continued
  obtain ⟨_, _, _, fits⟩ := ByteStream.recv_takes took
  rw [unread] at took
  obtain ⟨rfl, rfl⟩ := ByteStream.recv_message took
  have whole : text (store session.origSender received) = received :=
    CString.text_store noNulName (by omega)
  have stored : text (CString.strncpy (store session.origSender received) bufferSize) =
      received := by
    rw [CString.text_strncpy (by rw [whole]; omega), whole]
  exact ⟨⟨⟨by simp [stored], by simp [handed], noNul, data⟩, whole⟩, by simp, handed, data, rfl⟩

/-- A later `recv` hands its bytes on as a text. -/
theorem Taken.message (taken : Taken name sent session) (named : session.newBoi ≠ none)
    {dataBytesIncoming : Nat}
    (stepped : sessionStep clientSocketID session dataBytesIncoming = some next) :
    Taken name sent next ∧ next.newBoi = session.newBoi ∧
      next.origSender = session.origSender ∧
      next.dataSentToHelper = session.dataSentToHelper ++ [text next.dataWeWantToSend] ∧
      0 ∉ text next.dataWeWantToSend ∧
      (text next.dataWeWantToSend).length = dataBytesIncoming ∧ 1 ≤ dataBytesIncoming := by
  obtain ⟨newBoi, registered⟩ := Option.ne_none_iff_exists'.mp named
  simp only [Taken, registered] at taken
  obtain ⟨handsOn, stored⟩ := taken
  have handsOnToo := handsOn.step stepped
  obtain ⟨⟨received, rest⟩, took, continued⟩ := Option.bind_eq_some_iff.mp stepped
  simp only [registered] at continued
  obtain rfl := Option.some.inj continued
  obtain ⟨split, length, some, fits⟩ := ByteStream.recv_takes took
  have noNul : 0 ∉ received := by
    intro member
    exact handsOn.noNul (split ▸ List.mem_append_left _ member)
  have buffer := handsOn.buffer
  have whole : text (store session.dataWeWantToSend received) = received :=
    CString.text_store noNul (by omega)
  exact ⟨⟨handsOnToo, stored⟩, registered.symm, rfl, rfl, by rwa [whole],
    by rw [whole, length], some⟩

end Taking

/-- The sender's program, its thread in the server with `outputBufferBoi`, the stream to
another client, and that client's program. -/
structure Conversation where
  sender : ChatClient
  session : Session
  outputBufferBoi : List UInt8
  toOther : List UInt8
  other : ChatClient
deriving DecidableEq

/-- The steps: a pass of the sender's loop, a `recv` of its thread with what follows it, and
a pass of the other client's loop with so many bytes. The memory behind the buffers is part
of the events. -/
inductive ConversationEvent where
  | sender (event : SelectEvent)
  | thread (dataBytesIncoming : Nat) (memory : List UInt8)
  | other (count : Nat) (behind : List UInt8)
deriving DecidableEq

/-- One step. A thread whose text is empty waits for a reply that does not come. -/
def conversationStep (clientSocketID : Int) (conversation : Conversation) :
    ConversationEvent → Option Conversation
  | .sender event => do
      let sender ← clientLoopStep conversation.sender event
      pure { conversation with
        sender := sender
        session := { conversation.session with
          unread := conversation.session.unread ++
            sender.sent.drop conversation.sender.sent.length } }
  | .thread dataBytesIncoming memory => do
      let session ← sessionStep clientSocketID conversation.session dataBytesIncoming
      match conversation.session.newBoi with
      | none =>
          pure { conversation with
            session := session
            toOther := conversation.toOther ++ text (outboundPushNotification session.origSender) }
      | some _ =>
          if text session.dataWeWantToSend = [] then none
          else
            let outputBufferBoi := writeAll conversation.outputBufferBoi 0
              (helperResult (text session.dataWeWantToSend))
            pure { conversation with
              session := session
              outputBufferBoi := List.replicate bufferSize 0
              toOther := conversation.toOther ++
                text (outboundMessage (outputBufferBoi ++ memory) session.origSender) }
  | .other count behind => do
      let (bytes, toOther) ← ByteStream.recv bufferSize count conversation.toOther
      let other ← clientLoopStep conversation.other (.received bytes behind)
      pure { conversation with toOther := toOther, other := other }

/-- Nothing old is sent at the end of the input, the first `recv` takes the name, a text
leaves room for the name in front of it and ends in `outputBufferBoi`, and the other client's
`recv` leaves room for a NUL. -/
def Undistorted (name : List UInt8) (conversation : Conversation) : ConversationEvent → Prop
  | .sender event => NothingLeftAtEnd conversation.sender event
  | .thread dataBytesIncoming _ =>
      if conversation.session.newBoi = none then dataBytesIncoming = name.length
      else name.length + 5 + dataBytesIncoming < bufferSize ∧
        conversation.outputBufferBoi[dataBytesIncoming]? = some 0
  | .other count _ => count < bufferSize

instance (name : List UInt8) (conversation : Conversation) :
    DecidablePred (Undistorted name conversation)
  | .sender event => inferInstanceAs (Decidable (NothingLeftAtEnd conversation.sender event))
  | .thread dataBytesIncoming _ => inferInstanceAs (Decidable
      (if conversation.session.newBoi = none then dataBytesIncoming = name.length
        else name.length + 5 + dataBytesIncoming < bufferSize ∧
          conversation.outputBufferBoi[dataBytesIncoming]? = some 0))
  | .other count _ => inferInstanceAs (Decidable (count < bufferSize))

/-- What the other client gets to read: the notice, and the texts with the name. -/
def published (name : List UInt8) (dataSentToHelper : List (List UInt8)) : List UInt8 :=
  text (outboundPushNotification name) ++
    (dataSentToHelper.map fun message => publicMessage name (helperResult message)).flatten

/-- The invariant of undistorted runs: what the sender's program has sent is input, and what
the thread has taken of it has reached the other client or is on its way. -/
structure Conveying (name input : List UInt8) (conversation : Conversation) : Prop where
  sends : SendsInput input conversation.sender
  sized : conversation.session.dataWeWantToSend.length = bufferSize ∧
    conversation.session.origSender.length = bufferSize ∧
    conversation.outputBufferBoi.length = bufferSize
  noNul : 0 ∉ conversation.toOther
  conveyed : match conversation.session.newBoi with
    | none => conversation.session.unread = name ++ conversation.sender.sent ∧
        conversation.session.dataSentToHelper = [] ∧
        conversation.other.outputFile ++ conversation.toOther = []
    | some _ => HandsOn name conversation.sender.sent conversation.session ∧
        text conversation.session.origSender = name ∧
        conversation.other.outputFile ++ conversation.toOther =
          published name conversation.session.dataSentToHelper

variable {name input : List UInt8} {clientSocketID : Int} {conversation next : Conversation}

/-- What the other client gets to read of what a thread has taken. -/
def readable (name : List UInt8) (session : Session) : List UInt8 :=
  match session.newBoi with
  | none => []
  | some _ => published name session.dataSentToHelper

/-- What has been taken is readable for the other client, or on its way. -/
theorem conveying_iff :
    Conveying name input conversation ↔ SendsInput input conversation.sender ∧
      (conversation.session.dataWeWantToSend.length = bufferSize ∧
        conversation.session.origSender.length = bufferSize ∧
        conversation.outputBufferBoi.length = bufferSize) ∧ 0 ∉ conversation.toOther ∧
      Taken name conversation.sender.sent conversation.session ∧
      conversation.other.outputFile ++ conversation.toOther =
        readable name conversation.session := by
  constructor
  · rintro ⟨sends, sized, noNul, conveyed⟩
    refine ⟨sends, sized, noNul, ?_⟩
    unfold Taken readable
    cases registered : conversation.session.newBoi with
    | none =>
      simp only [registered] at conveyed ⊢
      exact ⟨⟨conveyed.1, conveyed.2.1⟩, conveyed.2.2⟩
    | some newBoi =>
      simp only [registered] at conveyed ⊢
      exact ⟨⟨conveyed.1, conveyed.2.1⟩, conveyed.2.2⟩
  · rintro ⟨sends, sized, noNul, taken, shown⟩
    refine ⟨sends, sized, noNul, ?_⟩
    unfold Taken at taken
    unfold readable at shown
    cases registered : conversation.session.newBoi with
    | none =>
      simp only [registered] at taken shown ⊢
      exact ⟨taken.1, taken.2, shown⟩
    | some newBoi =>
      simp only [registered] at taken shown ⊢
      exact ⟨taken.1, taken.2, shown⟩

/-- A pass of the sender's loop. -/
theorem Conveying.sender (conveying : Conveying name input conversation) (noNul : 0 ∉ input)
    {event : SelectEvent} (nothing : NothingLeftAtEnd conversation.sender event)
    (stepped : conversationStep clientSocketID conversation (.sender event) = some next) :
    Conveying name input next := by
  obtain ⟨sender, moved, built⟩ := Option.bind_eq_some_iff.mp stepped
  obtain rfl := Option.some.inj built
  obtain ⟨sends, sized, noNulOther, taken, shown⟩ := conveying_iff.mp conveying
  have sendsToo := sends.step nothing moved
  obtain ⟨more, grown⟩ := sent_grows moved
  have noNulMore : 0 ∉ more := by
    intro member
    apply noNul
    rw [← sendsToo.bytes, ← grown]
    exact List.mem_append_left _ (List.mem_append_right _ member)
  refine conveying_iff.mpr ⟨sendsToo, sized, noNulOther, ?_, shown⟩
  simp only [← grown, List.drop_left]
  exact taken.more noNulMore

/-- The `recv` that takes the name. -/
theorem Conveying.first (conveying : Conveying name input conversation) (noNulName : 0 ∉ name)
    (unnamed : conversation.session.newBoi = none) {memory : List UInt8}
    (stepped : conversationStep clientSocketID conversation (.thread name.length memory) =
      some next) (noNul : 0 ∉ input) : Conveying name input next := by
  obtain ⟨session, moved, built⟩ := Option.bind_eq_some_iff.mp stepped
  simp only [unnamed] at built
  obtain rfl := Option.some.inj built
  obtain ⟨sends, ⟨data, sender, output⟩, noNulOther, taken, shown⟩ := conveying_iff.mp conveying
  have noNulSent : 0 ∉ conversation.sender.sent := by
    intro member
    exact noNul (sends.bytes ▸ List.mem_append_left _ member)
  obtain ⟨takenToo, named, handed, dataToo, stored⟩ :=
    taken.first unnamed noNulName noNulSent data sender moved
  rw [readable, unnamed] at shown
  obtain ⟨nothing, empty⟩ := List.append_eq_nil_iff.mp shown
  refine conveying_iff.mpr ⟨sends, ⟨dataToo, by simpa [stored] using sender, output⟩, ?_,
    takenToo, ?_⟩
  · rw [empty, List.nil_append]
    exact CString.no_nul_in_text _
  · obtain ⟨newBoi, registered⟩ := Option.ne_none_iff_exists'.mp named
    have whole : text (store conversation.session.origSender name) = name := by
      simp only [Taken, registered] at takenToo
      exact stored ▸ takenToo.2
    have notice : outboundPushNotification (store conversation.session.origSender name) =
        outboundPushNotification name := by
      rw [outboundPushNotification, whole, outboundPushNotification,
        CString.text_of_no_nul noNulName]
    simp [readable, registered, nothing, empty, stored, notice, published, handed]

/-- A reply that ends in the buffer is passed on as it is, and it is sent behind the name if
both fit. -/
theorem reply_published {outputBufferBoi origSender reply memory : List UInt8}
    (noNul : 0 ∉ reply) (ended : outputBufferBoi[reply.length]? = some 0)
    (stored : text origSender = name) (fits : name.length + 5 + reply.length < bufferSize) :
    text (outboundMessage (writeAll outputBufferBoi 0 reply ++ memory) origSender) =
      publicMessage name reply := by
  have inside : reply.length < outputBufferBoi.length :=
    (List.getElem?_eq_some_iff.mp ended).1
  have passed : text (writeAll outputBufferBoi 0 reply ++ memory) = reply := by
    rw [CountedLoop.write_all_start (Nat.le_of_lt inside), List.drop_eq_getElem_cons inside,
      (List.getElem?_eq_some_iff.mp ended).2, List.append_assoc, List.cons_append]
    exact CString.text_terminated noNul _
  have noNulName : 0 ∉ name := stored ▸ CString.no_nul_in_text origSender
  have noNulMessage : 0 ∉ publicMessage name reply := by
    simp only [publicMessage, List.mem_append, noNulName, noNul, or_false]
    decide
  rw [outboundMessage, stored, passed, CString.snprintf_of_fit]
  · exact CString.text_of_no_nul noNulMessage
  · simp [literal]
    omega

/-- A `recv` that takes a text. -/
theorem Conveying.message (conveying : Conveying name input conversation)
    (named : conversation.session.newBoi ≠ none) {dataBytesIncoming : Nat} {memory : List UInt8}
    (fits : name.length + 5 + dataBytesIncoming < bufferSize)
    (ended : conversation.outputBufferBoi[dataBytesIncoming]? = some 0)
    (stepped : conversationStep clientSocketID conversation (.thread dataBytesIncoming memory) =
      some next) : Conveying name input next := by
  obtain ⟨session, moved, built⟩ := Option.bind_eq_some_iff.mp stepped
  obtain ⟨newBoi, registered⟩ := Option.ne_none_iff_exists'.mp named
  obtain ⟨sends, ⟨_, sender, _⟩, noNulOther, taken, shown⟩ := conveying_iff.mp conveying
  obtain ⟨takenToo, same, stored, handed, noNul, length, _⟩ := taken.message named moved
  simp only [registered] at built
  split at built
  case isTrue => cases built
  case isFalse =>
    obtain rfl := Option.some.inj built
    simp only [Taken, same, registered] at takenToo
    obtain ⟨handsOn, whole⟩ := takenToo
    have replied : (helperResult (text session.dataWeWantToSend)).length = dataBytesIncoming := by
      rw [helper_result_length, length]
    have sent : text (outboundMessage (writeAll conversation.outputBufferBoi 0
        (helperResult (text session.dataWeWantToSend)) ++ memory) session.origSender) =
          publicMessage name (helperResult (text session.dataWeWantToSend)) :=
      reply_published (no_nul_in_result noNul) (replied ▸ ended) whole (replied ▸ fits)
    refine conveying_iff.mpr ⟨sends, ⟨handsOn.buffer, stored ▸ sender, List.length_replicate⟩, ?_,
      ?_, ?_⟩
    · rw [List.mem_append, not_or]
      exact ⟨noNulOther, CString.no_nul_in_text _⟩
    · simp only [Taken, same, registered]
      exact ⟨handsOn, whole⟩
    · simp only [readable, registered] at shown
      simp only [readable, same, registered, sent, handed]
      rw [← List.append_assoc, shown]
      simp [published]

/-- A pass of the other client's loop. -/
theorem Conveying.other (conveying : Conveying name input conversation) {count : Nat}
    {behind : List UInt8} (room : count < bufferSize)
    (stepped : conversationStep clientSocketID conversation (.other count behind) = some next) :
    Conveying name input next := by
  obtain ⟨⟨bytes, rest⟩, took, continued⟩ := Option.bind_eq_some_iff.mp stepped
  obtain ⟨other, moved, built⟩ := Option.bind_eq_some_iff.mp continued
  obtain rfl := Option.some.inj built
  obtain ⟨split, length, _, _⟩ := ByteStream.recv_takes took
  obtain ⟨sends, sized, noNul, conveyed⟩ := conveying
  rw [split, List.mem_append, not_or] at noNul
  have fit := received_fits moved
  have short : bytes.length < bufferSize := length ▸ room
  have written : other.outputFile = conversation.other.outputFile ++ bytes := by
    cases client_loop_move moved with
    | receives =>
      rw [writeMessageToFile, text_after_recv fit ((nul_after_recv_iff fit).mpr (.inr short)),
        CString.text_of_no_nul noNul.1]
  have same : other.outputFile ++ rest =
      conversation.other.outputFile ++ conversation.toOther := by
    rw [written, split, List.append_assoc]
  refine ⟨sends, sized, noNul.2, ?_⟩
  simp only [same]
  exact conveyed

/-- Every undistorted step conveys. -/
theorem Conveying.step (conveying : Conveying name input conversation) (noNulName : 0 ∉ name)
    (noNul : 0 ∉ input) {event : ConversationEvent}
    (undistorted : Undistorted name conversation event)
    (stepped : conversationStep clientSocketID conversation event = some next) :
    Conveying name input next := by
  cases event with
  | sender event => exact conveying.sender noNul undistorted stepped
  | other count behind => exact conveying.other undistorted stepped
  | thread dataBytesIncoming memory =>
    by_cases unnamed : conversation.session.newBoi = none
    · simp only [Undistorted, if_pos unnamed] at undistorted
      subst undistorted
      exact conveying.first noNulName unnamed stepped noNul
    · simp only [Undistorted, if_neg unnamed] at undistorted
      exact conveying.message unnamed undistorted.1 undistorted.2 stepped

end HelperChat
