import HelperChat.Chunking
import HelperChat.CString
import HelperChat.HelperHistory

/-!
# The helper on a stream that arrives in pieces

The server's texts reach the helper as one stream, and every `recv` takes a piece of it as a
request of its own. The last byte of a piece is replaced by the newline or by a space of the
padding, so a border between two pieces shows in the replies unless the byte in front of it
happens to be the one that is put there.
-/

namespace HelperChat

open Chunking (endingAt outputAt)

/-- The replies to the requests of a history. -/
def historyReplies : List HelperRequest → HelperState → List (List UInt8)
  | [], _ => []
  | request :: rest, state => request.reply state :: historyReplies rest (request.serve state)

/-- The stream that a history receives. -/
def receivedStream (history : List HelperRequest) : List UInt8 :=
  (history.map HelperRequest.chunk).flatten

/-- The byte in the place of the last one of a chunk. -/
def borderByte (dataBytesIncoming : Nat) : UInt8 :=
  if sizeOfQueue ∣ dataBytesIncoming then '\n'.toUInt8 else ' '.toUInt8

/-- Two splits of a stream agree at a position: where only one of them has a border, the
stream has the byte that is put there, and where both have, the same byte is put. -/
def BordersAgree (stream : List UInt8) (first second : List (List UInt8)) (position : Nat) : Prop :=
  match endingAt first position, endingAt second position with
  | none, none => True
  | some one, some other => sizeOfQueue ∣ one ↔ sizeOfQueue ∣ other
  | some length, none | none, some length => stream[position]? = some (borderByte length)

instance (stream : List UInt8) (first second : List (List UInt8)) (position : Nat) :
    Decidable (BordersAgree stream first second position) := by
  unfold BordersAgree
  split
  all_goals infer_instance

/-- The closed form of a reply is a processing of the chunk. -/
theorem helper_result_process {chunk : List UInt8} (nonempty : chunk ≠ []) :
    helperResult chunk = Chunking.process uppercaseVowel borderByte chunk := by
  rw [helperResult, if_neg nonempty]
  rfl

/-- Every reply of a history is the closed form of its chunk. -/
theorem history_replies_eq (history : List HelperRequest) {state : HelperState}
    (buffer : state.uppercasedBuffer.length = bufferSize) :
    (historyReplies history state).flatten =
      (history.map HelperRequest.chunk).flatMap (Chunking.process uppercaseVowel borderByte) := by
  induction history generalizing state with
  | nil => rfl
  | cons request rest inductionHypothesis =>
    have nonempty : request.chunk ≠ [] := List.length_pos_iff.mp request.nonempty
    have reply : request.reply state = helperResult request.chunk := request.reply_eq [] buffer
    have later := inductionHypothesis ((request.serve_length state).trans buffer)
    rw [historyReplies, List.flatten_cons, later, reply, helper_result_process nonempty,
      List.map_cons, List.flatMap_cons]

/-- The bytes that are put at borders are no vowels in either case. -/
theorem uppercase_eq_border {char : UInt8} (length : Nat) :
    uppercaseVowel char = borderByte length ↔ char = borderByte length := by
  unfold uppercaseVowel
  split_ifs with isA isE isI isO isU
  case neg => exact Iff.rfl
  all_goals
    -- a vowel and its upper-case form
    subst char
    unfold borderByte
    split
    all_goals decide

/-- The newline is not the space. -/
theorem border_byte_inj {one other : Nat} :
    borderByte one = borderByte other ↔ (sizeOfQueue ∣ one ↔ sizeOfQueue ∣ other) := by
  have different : '\n'.toUInt8 ≠ ' '.toUInt8 := by decide
  unfold borderByte
  by_cases first : sizeOfQueue ∣ one
  · by_cases second : sizeOfQueue ∣ other
    · simp [first, second]
    · simp [first, second, different]
  · by_cases second : sizeOfQueue ∣ other
    · simp [first, second, Ne.symm different]
    · simp [first, second]

/-- The splits agree at a position exactly if the same is put there. -/
theorem borders_agree_iff {stream : List UInt8} {first second : List (List UInt8)} {position : Nat}
    (inside : position < stream.length) :
    outputAt uppercaseVowel borderByte stream[position]? (endingAt first position) =
        outputAt uppercaseVowel borderByte stream[position]? (endingAt second position) ↔
      BordersAgree stream first second position := by
  have present : stream[position]? = some stream[position] := List.getElem?_eq_getElem inside
  rw [BordersAgree, present]
  cases endingAt first position with
  | none =>
    cases endingAt second position with
    | none => exact iff_of_true rfl trivial
    | some length =>
      simp only [outputAt, Option.map_some, Option.some.injEq]
      exact uppercase_eq_border length
  | some one =>
    cases endingAt second position with
    | none =>
      simp only [outputAt, Option.map_some, Option.some.injEq]
      exact eq_comm.trans (uppercase_eq_border one)
    | some other =>
      simp only [outputAt, Option.some.injEq]
      exact border_byte_inj

/-- No chunk of a history is empty. -/
theorem chunks_nonempty (history : List HelperRequest) :
    ∀ chunk ∈ history.map HelperRequest.chunk, chunk ≠ [] := by
  rw [List.forall_mem_map]
  intro request _
  exact List.length_pos_iff.mp request.nonempty

/-- Two ways in which one stream arrives give the same output exactly if they agree at every
position of the stream. Each request has 1 to 100 bytes and is served by threads one after
another, in any order; the two helpers may have anything in their buffers. -/
theorem same_output_iff_borders_agree (first second : List HelperRequest)
    (same : receivedStream first = receivedStream second) {state other : HelperState}
    (buffer : state.uppercasedBuffer.length = bufferSize)
    (otherBuffer : other.uppercasedBuffer.length = bufferSize) :
    (historyReplies first state).flatten = (historyReplies second other).flatten ↔
      ∀ position < (receivedStream first).length,
        BordersAgree (receivedStream first) (first.map HelperRequest.chunk)
          (second.map HelperRequest.chunk) position := by
  rw [history_replies_eq first buffer, history_replies_eq second otherBuffer,
    Chunking.same_output_iff (chunks_nonempty first) (chunks_nonempty second) same]
  constructor
  · intro agree position inside
    exact (borders_agree_iff inside).mp (agree position inside)
  · intro agree position inside
    exact (borders_agree_iff inside).mpr (agree position inside)

/-- The line `hi` in one piece and with a border behind its first letter. -/
theorem border_inside_word :
    ¬ ∀ (first second : List HelperRequest) (state other : HelperState),
      (∀ request ∈ first, request.chunk.length ≤ 95) →
      (∀ request ∈ second, request.chunk.length ≤ 95) →
      receivedStream first = receivedStream second →
      state.uppercasedBuffer.length = bufferSize → other.uppercasedBuffer.length = bufferSize →
      (historyReplies first state).flatten = (historyReplies second other).flatten := by
  intro always
  let whole := orderedRequest (CString.literal "hi\n") (by decide) (by decide)
  let pieces := [orderedRequest (CString.literal "h") (by decide) (by decide),
    orderedRequest (CString.literal "i\n") (by decide) (by decide)]
  have equal := always [whole] pieces startHelper.locals startHelper.locals (by decide) (by decide)
    rfl (by decide) (by decide)
  rw [history_replies_eq [whole] (by decide), history_replies_eq pieces (by decide)] at equal
  exact absurd equal (by decide)

/-- Two words with the border at a space between them, or in one piece. -/
theorem border_at_space :
    (historyReplies [orderedRequest (CString.literal "we run\n") (by decide) (by decide)]
        startHelper.locals).flatten =
      (historyReplies [orderedRequest (CString.literal "we ") (by decide) (by decide),
        orderedRequest (CString.literal "run\n") (by decide) (by decide)]
        startHelper.locals).flatten := by
  have same : receivedStream [orderedRequest (CString.literal "we run\n") (by decide) (by decide)] =
      receivedStream [orderedRequest (CString.literal "we ") (by decide) (by decide),
        orderedRequest (CString.literal "run\n") (by decide) (by decide)] := by
    decide
  have buffer : startHelper.locals.uppercasedBuffer.length = bufferSize := by decide
  refine (same_output_iff_borders_agree _ _ same buffer buffer).mpr ?_
  decide

end HelperChat
