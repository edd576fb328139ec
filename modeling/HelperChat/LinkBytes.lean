import HelperChat.LinkProgress

/-!
# The connection as a channel of bytes

Whichever threads send and receive, and however the streams are cut into pieces, the helper
receives the bytes that were sent in chunks of the sizes of its `recv`s, and what comes back
are its results for these chunks one after another. The texts that the bytes belong to and
the threads that they go to play no part in it.
-/

namespace HelperChat

/-- The texts that a schedule sends, in its order. -/
def sentTexts (events : List LinkEvent) : List (List UInt8) :=
  events.filterMap fun event =>
    match event with
    | .send _ dataSentToHelper => some dataSentToHelper
    | _ => none

/-- What the finished calls have received, in the order of their `recv`s. -/
def Link.collected (link : Link) : List UInt8 :=
  (link.finished.map Call.returnedDataFromHelper).flatten

/-- How many bytes the helper's `recv`s take in a schedule, one after another. -/
def chunkLengths (events : List LinkEvent) : List Nat :=
  events.filterMap fun event =>
    match event with
    | .helperRecv count => some count
    | _ => none

/-- What a schedule does to the bytes: the chunks that the helper reads, and those that it
answers. -/
structure Carries (before after : Link) (events : List LinkEvent) : Prop where
  moved : ∃ read answered,
    before.toHelper ++ (sentTexts events).flatten = read.flatten ++ after.toHelper ∧
      read.map List.length = chunkLengths events ∧
      before.processing.toList ++ read = answered ++ after.processing.toList ∧
      before.collected ++ before.toServer ++ (answered.map helperResult).flatten =
        after.collected ++ after.toServer

variable {before middle after : Link}

/-- Two stretches of a run after one another. -/
theorem Carries.trans {first second : List LinkEvent} (one : Carries before middle first)
    (two : Carries middle after second) : Carries before after (first ++ second) := by
  obtain ⟨read, answered, requests, lengths, chunks, replies⟩ := one.moved
  obtain ⟨readToo, answeredToo, requestsToo, lengthsToo, chunksToo, repliesToo⟩ := two.moved
  have texts : sentTexts (first ++ second) = sentTexts first ++ sentTexts second :=
    List.filterMap_append
  have counts : chunkLengths (first ++ second) = chunkLengths first ++ chunkLengths second :=
    List.filterMap_append
  refine ⟨read ++ readToo, answered ++ answeredToo, ?_, ?_, ?_, ?_⟩
  · rw [texts, List.flatten_append, ← List.append_assoc, requests, List.append_assoc, requestsToo,
      List.flatten_append, List.append_assoc]
  · rw [counts, List.map_append, lengths, lengthsToo]
  · rw [← List.append_assoc, chunks, List.append_assoc, chunksToo, List.append_assoc]
  · rw [List.map_append, List.flatten_append, ← List.append_assoc, replies, repliesToo]

/-- Every step carries bytes on. -/
theorem carries_step {event : LinkEvent} (stepped : linkStep before event = some after) :
    Carries before after [event] := by
  cases link_move stepped with
  | sends t text outside =>
    refine ⟨[], [], ?_, rfl, ?_, ?_⟩ <;> simp [sentTexts, Link.collected]
  | reads count taken rest idle received =>
    obtain ⟨split, length, _⟩ := ByteStream.recv_takes received
    refine ⟨[taken], [], ?_, congrArg (fun count => [count]) length, ?_, ?_⟩
    · simp [sentTexts, split]
    · simp [idle]
    · simp [Link.collected]
  | replies text busy =>
    refine ⟨[], [text], ?_, rfl, ?_, ?_⟩
    · simp [sentTexts]
    · simp [busy]
    · simp [Link.collected]
  | collects t count text taken rest awaiting received =>
    obtain ⟨split, _⟩ := ByteStream.recv_takes received
    refine ⟨[], [], ?_, rfl, ?_, ?_⟩
    · simp [sentTexts]
    · simp
    · simp [Link.collected, split]

/-- So does every run. -/
theorem carries_run {events : List LinkEvent}
    (ran : TransitionSystem.run linkStep before events = some after) :
    Carries before after events := by
  induction events generalizing before with
  | nil =>
    obtain rfl := Option.some.inj ran
    exact ⟨[], [], by simp [sentTexts], rfl, by simp, by simp⟩
  | cons event rest inductionHypothesis =>
    obtain ⟨middle, stepped, continued⟩ := Option.bind_eq_some_iff.mp ran
    exact (carries_step stepped).trans (inductionHypothesis continued)

/-- A reply to a text is a text. -/
theorem no_nul_in_result {chunk : List UInt8} (noNul : 0 ∉ chunk) : 0 ∉ helperResult chunk := by
  intro member
  rw [helperResult] at member
  split at member
  case isTrue => cases member
  case isFalse =>
    rcases List.mem_append.mp member with front | last
    · obtain ⟨char, inFront, zero⟩ := List.mem_map.mp front
      exact noNul (uppercase_eq_zero zero ▸ List.mem_of_mem_dropLast inFront)
    · rw [List.mem_singleton] at last
      split at last <;> exact absurd last (by decide)

/-- In every run the bytes that were sent are, in order, the chunks that the helper has
answered, the chunk that it works on, and the bytes that it has not received; the chunks have
the sizes of its `recv`s. What the calls have collected and what is on its way back are the
helper's results for the answered chunks one after another. Nothing is assumed about the
threads or the cuts: a chunk need not be a text, and a reply need not come to the thread whose
text it answers. -/
theorem link_carries_bytes (threads : Nat) {events : List LinkEvent} {link : Link}
    (ran : TransitionSystem.run linkStep (startLink threads) events = some link) :
    ∃ answered,
      (sentTexts events).flatten =
        answered.flatten ++ link.processing.getD [] ++ link.toHelper ∧
      (answered ++ link.processing.toList).map List.length = chunkLengths events ∧
      link.collected ++ link.toServer = (answered.map helperResult).flatten := by
  obtain ⟨read, answered, requests, lengths, chunks, replies⟩ := (carries_run ran).moved
  have none : (startLink threads).processing.toList = [] := rfl
  have nothing : (startLink threads).collected ++ (startLink threads).toServer = [] := rfl
  have unsent : (startLink threads).toHelper = [] := rfl
  rw [none, List.nil_append] at chunks
  rw [nothing, List.nil_append] at replies
  rw [unsent, List.nil_append, chunks, List.flatten_append] at requests
  refine ⟨answered, ?_, chunks ▸ lengths, replies.symm⟩
  rw [requests]
  cases link.processing <;> simp

/-- A thread takes the reply to another one's text, and the bytes are in order all the same. -/
theorem stolen_reply_in_order :
    ∃ link, TransitionSystem.run linkStep (startLink 2)
        [.send 0 firstText, .send 1 secondText, .helperRecv 4, .helperSend, .recv 1 3] =
          some link ∧
      link.collected ++ link.toServer = helperResult (firstText ++ secondText.take 1) ∧
      ∃ answered,
        firstText ++ secondText = answered.flatten ++ link.processing.getD [] ++ link.toHelper ∧
        (answered ++ link.processing.toList).map List.length = [4] ∧
        link.collected ++ link.toServer = (answered.map helperResult).flatten := by
  have ran : TransitionSystem.run linkStep (startLink 2)
      [.send 0 firstText, .send 1 secondText, .helperRecv 4, .helperSend, .recv 1 3] =
        some _ := rfl
  exact ⟨_, ran, by decide, link_carries_bytes 2 ran⟩

end HelperChat
