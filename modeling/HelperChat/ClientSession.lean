import HelperChat.ByteStream
import HelperChat.CString
import HelperChat.EncDec
import HelperChat.Transition

/-!
# The server's session with one client

The receiving side of `clientThreadSplitFunction`: the first `recv` is taken as the
client's name, every later one as a text for the helper. The client sends its name
without a length or a delimiter and its lines right behind it, so the stream does not
show where the name ends.

Name and lines are recovered exactly if the first `recv` happens to take as many bytes
as the name has, whatever the later ones take.
-/

namespace HelperChat

/-- The thread's buffers, the unread bytes of its client, the registered client, and the
strings handed to `talkWithHelperServer` so far. -/
structure Session where
  unread : List UInt8
  origSender : List UInt8
  dataWeWantToSend : List UInt8
  newBoi : Option OrganizedClientData
  dataSentToHelper : List (List UInt8)
deriving DecidableEq

/-- The next `recv` of the thread on its socket, which takes `dataBytesIncoming` bytes, and
what the thread does with them. -/
def sessionStep (clientSocketID : Int) (session : Session) (dataBytesIncoming : Nat) :
    Option Session := do
  let (received, unread) ← ByteStream.recv bufferSize dataBytesIncoming session.unread
  match session.newBoi with
  | none =>
      let origSender := CString.store session.origSender received
      pure { session with
        unread := unread
        origSender := origSender
        newBoi := some ⟨clientSocketID, CString.strncpy origSender bufferSize⟩ }
  | some _ =>
      let dataWeWantToSend := CString.store session.dataWeWantToSend received
      pure { session with
        unread := unread
        dataWeWantToSend := dataWeWantToSend
        dataSentToHelper := session.dataSentToHelper ++ [CString.text dataWeWantToSend] }

/-- The bytes that the client program sends: the name without its newline, then the lines. -/
def clientStream (nameOfClient : List UInt8) (lines : List (List UInt8)) : List UInt8 :=
  nameOfClient ++ lines.flatten

/-- A session at its first `recv`. The buffers are not initialised. -/
def startSession (origSender dataWeWantToSend unread : List UInt8) : Session :=
  ⟨unread, origSender, dataWeWantToSend, none, []⟩

/-- The stored name is the client's, and the texts for the helper are its lines. -/
def Recovered (nameOfClient : List UInt8) (lines : List (List UInt8)) (session : Session) : Prop :=
  session.newBoi.map (fun newBoi => CString.text newBoi.name) = some nameOfClient ∧
    session.dataSentToHelper.flatten = lines.flatten

instance (nameOfClient : List UInt8) (lines : List (List UInt8)) (session : Session) :
    Decidable (Recovered nameOfClient lines session) :=
  inferInstanceAs (Decidable (_ ∧ _))

/-- A session that has stored a name hands on everything else that is sent to it. The
invariant: what was handed on and what is unread are the bytes behind the name. -/
structure HandsOn (name behind : List UInt8) (session : Session) : Prop where
  named : session.newBoi.map (fun newBoi => CString.text newBoi.name) = some name
  bytes : session.dataSentToHelper.flatten ++ session.unread = behind
  noNul : 0 ∉ session.unread
  buffer : session.dataWeWantToSend.length = bufferSize

/-- Every further `recv` hands its bytes on. -/
theorem HandsOn.step {clientSocketID : Int} {name behind : List UInt8} {session next : Session}
    {dataBytesIncoming : Nat} (handsOn : HandsOn name behind session)
    (stepped : sessionStep clientSocketID session dataBytesIncoming = some next) :
    HandsOn name behind next := by
  obtain ⟨⟨received, unread⟩, took, continued⟩ := Option.bind_eq_some_iff.mp stepped
  obtain ⟨split, length, _, fit⟩ := ByteStream.recv_takes took
  have noNul := handsOn.noNul
  rw [split, List.mem_append, not_or] at noNul
  obtain ⟨newBoi, present, _⟩ := Option.map_eq_some_iff.mp handsOn.named
  simp only [present, Option.pure_def, Option.some.injEq] at continued
  subst continued
  have whole : CString.text (CString.store session.dataWeWantToSend received) = received :=
    CString.text_store noNul.1 (by rw [handsOn.buffer]; omega)
  refine ⟨?_, ?_, noNul.2, ?_⟩
  · exact present ▸ handsOn.named
  · have bytes := handsOn.bytes
    rw [split] at bytes
    simp only [whole, List.flatten_append, List.flatten_singleton]
    simpa using bytes
  · simpa using handsOn.buffer

/-- The first `recv` stores its bytes as the name. -/
theorem first_recv {clientSocketID : Int} {origSender dataWeWantToSend stream : List UInt8}
    {dataBytesIncoming : Nat} {next : Session} (sender : origSender.length = bufferSize)
    (data : dataWeWantToSend.length = bufferSize) (noNul : 0 ∉ stream)
    (stepped : sessionStep clientSocketID (startSession origSender dataWeWantToSend stream)
      dataBytesIncoming = some next) :
    ∃ received behind, stream = received ++ behind ∧ received.length = dataBytesIncoming ∧
      HandsOn received behind next := by
  obtain ⟨⟨received, behind⟩, took, continued⟩ := Option.bind_eq_some_iff.mp stepped
  obtain ⟨split, length, _, fit⟩ := ByteStream.recv_takes took
  have split : stream = received ++ behind := split
  rw [split, List.mem_append, not_or] at noNul
  simp only [startSession, Option.pure_def, Option.some.injEq] at continued
  subst continued
  have whole : CString.text (CString.store origSender received) = received :=
    CString.text_store noNul.1 (by rw [sender]; omega)
  have stored : CString.text (CString.strncpy (CString.store origSender received) bufferSize) =
      received := by
    rw [CString.text_strncpy (by rw [whole]; omega), whole]
  exact ⟨received, behind, split, length, by simp [stored], by simp, noNul.2, data⟩

/-- After the whole stream has been delivered, name and lines are recovered exactly if the
first `recv` took as many bytes as the name has. -/
theorem recovered_iff (clientSocketID : Int) {origSender dataWeWantToSend : List UInt8}
    (sender : origSender.length = bufferSize) (data : dataWeWantToSend.length = bufferSize)
    {nameOfClient : List UInt8} {lines : List (List UInt8)} (noNul : 0 ∉ nameOfClient)
    (noNulLines : ∀ line ∈ lines, 0 ∉ line) (counts : List Nat) (session : Session)
    (ran : TransitionSystem.run (sessionStep clientSocketID)
      (startSession origSender dataWeWantToSend (clientStream nameOfClient lines)) counts =
        some session)
    (delivered : session.unread = []) :
    Recovered nameOfClient lines session ↔ counts.head? = some nameOfClient.length := by
  have noNulStream : 0 ∉ clientStream nameOfClient lines := by
    rintro member
    rcases List.mem_append.mp member with inName | inLines
    · exact noNul inName
    · obtain ⟨line, among, inLine⟩ := List.mem_flatten.mp inLines
      exact noNulLines line among inLine
  cases counts with
  | nil =>
    obtain rfl := Option.some.inj ran
    simp [Recovered, startSession]
  | cons first later =>
    obtain ⟨next, stepped, continued⟩ := Option.bind_eq_some_iff.mp ran
    obtain ⟨received, behind, split, length, handsOn⟩ :=
      first_recv sender data noNulStream stepped
    have ended : HandsOn received behind session :=
      TransitionSystem.run_preserves (HandsOn received behind)
        (fun _ _ _ before advanced => before.step advanced) handsOn continued
    have bytes := ended.bytes
    rw [delivered, List.append_nil] at bytes
    rw [Recovered, ended.named, bytes, List.head?_cons, Option.some_inj, Option.some_inj,
      ← length]
    constructor
    · rintro ⟨rfl, _⟩
      rfl
    · intro same
      obtain ⟨rfl, rfl⟩ := List.append_inj split.symm same
      exact ⟨rfl, rfl⟩

/-- A client named `bo`. -/
def exampleName : List UInt8 := ['b'.toUInt8, 'o'.toUInt8]

/-- The client's only line. -/
def exampleLine : List UInt8 := ['h'.toUInt8, 'i'.toUInt8, '\n'.toUInt8]

/-- One `recv` takes the name and the line together, and the line becomes part of the
name. -/
theorem line_taken_as_name :
    ¬ ∀ (origSender dataWeWantToSend nameOfClient : List UInt8) (lines : List (List UInt8))
      (counts : List Nat) (session : Session),
      origSender.length = bufferSize → dataWeWantToSend.length = bufferSize →
      0 ∉ nameOfClient → '\n'.toUInt8 ∉ nameOfClient → nameOfClient.length < bufferSize →
      (∀ line ∈ lines, 0 ∉ line) →
      TransitionSystem.run (sessionStep 4)
        (startSession origSender dataWeWantToSend (clientStream nameOfClient lines)) counts =
          some session →
      session.unread = [] → Recovered nameOfClient lines session := by
  intro always
  let memory := List.replicate bufferSize (0 : UInt8)
  have computed : (TransitionSystem.run (sessionStep 4)
      (startSession memory memory (clientStream exampleName [exampleLine])) [5]).map
        (fun session => (session.unread, decide (Recovered exampleName [exampleLine] session))) =
      some ([], false) := by decide
  obtain ⟨session, ran, seen⟩ := Option.map_eq_some_iff.mp computed
  obtain ⟨delivered, lost⟩ := Prod.mk.inj seen
  exact of_decide_eq_false lost (always memory memory exampleName [exampleLine] [5] session
    (by decide) (by decide) (by decide) (by decide) (by decide) (by decide) ran delivered)

/-- The first `recv` takes the name, and the line comes in two parts. -/
theorem name_taken_alone :
    ∃ session, TransitionSystem.run (sessionStep 4)
        (startSession (List.replicate bufferSize 7) (List.replicate bufferSize 7)
          (clientStream exampleName [exampleLine])) [2, 1, 2] = some session ∧
      Recovered exampleName [exampleLine] session := by
  have computed : (TransitionSystem.run (sessionStep 4)
      (startSession (List.replicate bufferSize 7) (List.replicate bufferSize 7)
        (clientStream exampleName [exampleLine])) [2, 1, 2]).map Session.unread = some [] := by
    decide
  obtain ⟨session, ran, delivered⟩ := Option.map_eq_some_iff.mp computed
  exact ⟨session, ran, (recovered_iff 4 (by decide) (by decide) (by decide) (by decide) [2, 1, 2]
    session ran delivered).mpr rfl⟩

end HelperChat
